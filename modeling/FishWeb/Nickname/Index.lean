import FishWeb.Lib.Index
import FishWeb.Lib.Runs
import FishWeb.Nickname.Model
/-!
# The index of nicknames

The users who have completed their information have a name, and the set of the
nicknames and the map from them to users are to be an index of it (`Lib.Index`).
`/info/complete` gives up the old nickname of a user whether or not it was in the
index. Of a user who has not completed his information it is his account, which may
be the nickname of another, or the one that he takes.
-/
open Python Prog Runs

namespace FishWeb.Nickname

open Function (update)

/-! ## What a request does -/

/-- The nickname of a user who has completed his information. -/
def St.name (s : St) (uid : Nat) : Option String :=
  if s.user uid "info_comp" = some "1" then s.user uid "nickname" else none

/-- The request goes through, for the user. -/
structure Takes (f : Form) (s : St) (uid : Nat) : Prop where
  session : s.session f.sid = some uid
  phone : f.phone.length = 11
  free : f.nickname ∉ s.nicknames
  code : s.code f.phone = some f.check_code
  notEmpty : f.check_code ≠ ""
  sent : f.sent = true

/-- The fields that a completion writes. -/
def dic (md5 : String → String) (f : Form) (openid : Option String) : List (String × String) :=
  let dic := [("phone", f.phone), ("nickname", f.nickname), ("info_comp", "1"), ("id_card_no", f.id_card_no),
    ("real_name", f.real_name)]
  if openid.getD "" = "" then ("password", md5 f.pwd) :: dic else dic

/-- The state that a completion leaves. -/
def St.completed (s : St) (md5 : String → String) (f : Form) (uid : Nat) : St :=
  let past_nn := fmt (s.user uid "nickname")
  { s with
    user := update s.user uid (hmset (s.user uid) (dic md5 f (s.user uid "openid")))
    code := update s.code (toString uid) none
    nickname2uid := update (update s.nickname2uid f.nickname (some uid)) past_nn none
    nicknames := (s.nicknames.srem past_nn).sadd f.nickname }

section Step
variable (md5 : String → String) {f : Form} {s : St} {uid : Nat}

theorem run_infoComplete (h : Takes f s uid) : (run (infoComplete md5 f) s).2 = s.completed md5 f uid := by
  simp [infoComplete, Exec.exec, h.session, h.phone, h.free, h.code, h.notEmpty, h.sent, St.completed, dic, call]

theorem run_infoComplete_not (h : ∀ uid, ¬Takes f s uid) : (run (infoComplete md5 f) s).2 = s := by
  unfold infoComplete
  cases hsession : s.session f.sid with
  | none => simp [Exec.exec, hsession, call]
  | some uid =>
  by_cases hphone : f.phone.length = 11
  swap
  · simp [Exec.exec, hsession, hphone, call]
  by_cases hfree : f.nickname ∈ s.nicknames
  · simp [Exec.exec, hsession, hphone, hfree, call]
  cases hcode : s.code f.phone with
  | none => simp [Exec.exec, hsession, hphone, hfree, hcode, call]
  | some code =>
  by_cases hempty : code = ""
  · simp [Exec.exec, hsession, hphone, hfree, hcode, hempty, call]
  by_cases hcheck : f.check_code = code
  swap
  · simp [Exec.exec, hsession, hphone, hfree, hcode, hempty, hcheck, call]
  cases hsent : f.sent with
  | false => simp [Exec.exec, hsession, hphone, hfree, hcode, hempty, hcheck, call]
  | true => exact absurd ⟨hsession, hphone, hfree, hcheck ▸ hcode, hcheck ▸ hempty, hsent⟩ (h uid)

theorem name_completed : (s.completed md5 f uid).name = update s.name uid (some f.nickname) := by
  funext v
  unfold St.name St.completed dic hmset
  by_cases hv : v = uid
  · subst hv
    by_cases hopenid : (s.user v "openid").getD "" = "" <;> simp [hopenid]
  · simp [hv]

/-- The number of the next user. -/
theorem run_registerByAccount (now : Clock) (ip account passwd agent_id : String) (s : St) :
    (run (registerByAccount md5 now ip account passwd agent_id) s).2 =
      { s with
        count := s.count + 1
        user := update s.user (s.count + 1) (hmset (s.user (s.count + 1)) (newUser md5 now ip account passwd agent_id))
        account2user := update s.account2user account (some (s.count + 1))
        sets := SetTable.add (SetTable.add (SetTable.add s.sets (.regDate now.day) account) .account account)
          (.member agent_id) (toString (s.count + 1)) } := rfl

/-- The fields of a new user that matter here. -/
theorem newUser_fields (now : Clock) (ip account passwd agent_id : String) (h : String → Option String) :
    hmset h (newUser md5 now ip account passwd agent_id) "info_comp" = some "0" ∧
      hmset h (newUser md5 now ip account passwd agent_id) "nickname" = some account := by
  constructor <;> simp [hmset, newUser]

end Step

/-! ## What every run keeps -/

/-- The users have the numbers up to the count. -/
structure Sane (s : St) : Prop where
  fresh : ∀ uid, s.count < uid → s.user uid "info_comp" = none
  live : ∀ sid uid, s.session sid = some uid → uid ≤ s.count
  named : ∀ uid, s.user uid "info_comp" = some "1" → (s.user uid "nickname").isSome

/-- What the set of the nicknames and the map are for: no two users have one, and both are exact. -/
structure Index (s : St) : Prop where
  distinct : ∀ u v n, s.name u = some n → s.name v = some n → u = v
  names : ∀ n, n ∈ s.nicknames ↔ ∃ uid, s.name uid = some n
  uid : ∀ uid n, s.name uid = some n → s.nickname2uid n = some uid

theorem index_iff {s : St} : Index s ↔ Indexes s.name s.nicknames s.nickname2uid :=
  ⟨fun h => ⟨h.names, h.uid⟩, fun h => ⟨fun _ _ _ => h.injective, h.mem, h.owner⟩⟩

/-- Who completes his information. -/
def Req.actor : Req → St → Option Nat
  | .complete f, s => s.session f.sid
  | _, _ => none

/-- After the request the index is exact, and the entries of the other users are there as before. -/
def Holds (md5 : String → String) (r : Req) (s : St) : Prop :=
  Index (step md5 r s) ∧ ∀ uid n, r.actor s ≠ some uid → s.name uid = some n →
    (step md5 r s).name uid = some n ∧ n ∈ (step md5 r s).nicknames ∧ (step md5 r s).nickname2uid n = some uid

/-- Who takes a nickname has completed his information before, or what he is called is no user's nickname and not the
one that he takes. -/
def Sound (r : Req) (s : St) : Prop :=
  match r with
  | .complete f => ∀ uid, Takes f s uid →
      s.user uid "info_comp" = some "1" ∨
        fmt (s.user uid "nickname") ∉ s.nicknames ∧ fmt (s.user uid "nickname") ≠ f.nickname
  | _ => True

section Kept
variable (md5 : String → String) {s : St}

theorem Sane.name_of (h : Sane s) {uid : Nat} (hcomp : s.user uid "info_comp" = some "1") :
    s.name uid = some (fmt (s.user uid "nickname")) := by
  obtain ⟨n, hn⟩ := Option.isSome_iff_exists.1 (h.named uid hcomp)
  rw [St.name, if_pos hcomp, hn, fmt_some]

theorem name_none {uid : Nat} (h : s.user uid "info_comp" ≠ some "1") : s.name uid = none := if_neg h

/-- A completion keeps the index if and only if it is sound. -/
theorem index_completed_iff (hi : Index s) (hsane : Sane s) {f : Form} {uid : Nat} (ht : Takes f s uid) :
    Index (s.completed md5 f uid) ↔ s.user uid "info_comp" = some "1" ∨
      fmt (s.user uid "nickname") ∉ s.nicknames ∧ fmt (s.user uid "nickname") ≠ f.nickname := by
  have hcomp : s.user uid "info_comp" = some "1" ↔ s.name uid = some (fmt (s.user uid "nickname")) := by
    refine ⟨hsane.name_of, fun hname => ?_⟩
    by_contra hno
    rw [name_none hno] at hname
    cases hname
  have hold : s.name uid = none ∨ s.name uid = some (fmt (s.user uid "nickname")) := by
    by_cases h : s.user uid "info_comp" = some "1"
    · exact .inr (hcomp.1 h)
    · exact .inl (name_none h)
  rw [index_iff, name_completed, hcomp]
  exact (index_iff.1 hi).write_iff hold ht.free

theorem sane_completed (h : Sane s) {f : Form} {uid : Nat} (ht : Takes f s uid) : Sane (s.completed md5 f uid) where
  fresh v hv := by
    have hne : v ≠ uid := by
      rintro rfl
      exact absurd (h.live f.sid v ht.session) (Nat.not_le.2 hv)
    show update s.user uid _ v "info_comp" = none
    rw [Function.update_of_ne hne]
    exact h.fresh v hv
  live := h.live
  named v hv := by
    by_cases hne : v = uid
    · subst hne
      have hname : (s.completed md5 f v).name v = _ := congrFun (name_completed md5) v
      rw [Function.update_self, St.name, if_pos hv] at hname
      rw [hname]
      rfl
    · have hsame : (s.completed md5 f uid).user v = s.user v := Function.update_of_ne hne ..
      rw [hsame] at hv ⊢
      exact h.named v hv

/-- A new user has no name yet. -/
theorem register_keeps (hi : Index s) (h : Sane s) (now : Clock) (ip account passwd agent_id : String) :
    let s' := (run (registerByAccount md5 now ip account passwd agent_id) s).2
    s'.name = s.name ∧ Index s' ∧ Sane s' := by
  rw [run_registerByAccount]
  obtain ⟨hcomp, hnick⟩ := newUser_fields md5 now ip account passwd agent_id (s.user (s.count + 1))
  generalize hmset (s.user (s.count + 1)) (newUser md5 now ip account passwd agent_id) = table at hcomp hnick ⊢
  have hother : ∀ uid, uid ≠ s.count + 1 → update s.user (s.count + 1) table uid = s.user uid :=
    fun uid hne => Function.update_of_ne hne ..
  have hself : update s.user (s.count + 1) table (s.count + 1) = table := Function.update_self ..
  have hname : ∀ uid, (if update s.user (s.count + 1) table uid "info_comp" = some "1" then
      update s.user (s.count + 1) table uid "nickname" else none) = s.name uid := by
    intro uid
    by_cases hnew : uid = s.count + 1
    · rw [hnew, hself, hcomp, if_neg (by decide), name_none (by rw [h.fresh _ (Nat.lt_succ_self _)]; decide)]
    · rw [hother uid hnew]
      rfl
  have hsame := funext hname
  refine ⟨hsame, ?_, ?_, fun sid uid hsid => Nat.le_succ_of_le (h.live sid uid hsid), ?_⟩
  · have hi := index_iff.1 hi
    rw [← hsame] at hi
    exact index_iff.2 hi
  · intro uid huid
    show update s.user (s.count + 1) table uid "info_comp" = none
    rw [hother uid (Nat.ne_of_gt huid)]
    exact h.fresh uid (Nat.lt_of_succ_lt huid)
  · intro uid huid
    show (update s.user (s.count + 1) table uid "nickname").isSome
    by_cases hnew : uid = s.count + 1
    · rw [hnew, hself, hnick]
      rfl
    · have huid : update s.user (s.count + 1) table uid "info_comp" = some "1" := huid
      rw [hother uid hnew] at huid ⊢
      exact h.named uid huid

/-- Where the users and the index are as before, so is what holds of them. -/
theorem index_congr {s s' : St} (h : Index s) (huser : s'.user = s.user) (hnames : s'.nicknames = s.nicknames)
    (huid : s'.nickname2uid = s.nickname2uid) : Index s' := by
  have hname : s'.name = s.name := by
    unfold St.name
    rw [huser]
  rw [index_iff] at h ⊢
  rw [hname, hnames, huid]
  exact h

/-- What the other users have in an index that is exact. -/
theorem holds_of_index {r : Req} (hafter : Index (step md5 r s))
    (hname : ∀ uid n, r.actor s ≠ some uid → s.name uid = some n → (step md5 r s).name uid = some n) : Holds md5 r s :=
  ⟨hafter, fun uid n hne hn =>
    ⟨hname uid n hne hn, (hafter.names n).2 ⟨uid, hname uid n hne hn⟩, hafter.uid uid n (hname uid n hne hn)⟩⟩

theorem step_session (sid : String) (uid : Nat) (s : St) : step md5 (.session sid uid) s =
    if 1 ≤ uid ∧ uid ≤ s.count then { s with session := update s.session sid (some uid) } else s := rfl

/-- The index is exact after a request, with the entries of the others, if and only if the request is sound. -/
theorem holds_iff (r : Req) (hi : Index s) (hsane : Sane s) : Holds md5 r s ↔ Sound r s := by
  cases r with
  | register now ip account passwd agent_id =>
    obtain ⟨hname, hafter, -⟩ := register_keeps md5 hi hsane now ip account passwd agent_id
    refine ⟨fun _ => trivial, fun _ => holds_of_index md5 hafter fun uid n _ hn => ?_⟩
    show (run (registerByAccount md5 now ip account passwd agent_id) s).2.name uid = some n
    rw [hname]
    exact hn
  | session sid uid =>
    have hsame : (step md5 (.session sid uid) s).user = s.user ∧ (step md5 (.session sid uid) s).nicknames = s.nicknames ∧
        (step md5 (.session sid uid) s).nickname2uid = s.nickname2uid := by
      rw [step_session]
      split <;> exact ⟨rfl, rfl, rfl⟩
    refine ⟨fun _ => trivial, fun _ => holds_of_index md5 (index_congr hi hsame.1 hsame.2.1 hsame.2.2) fun uid n _ hn => ?_⟩
    unfold St.name
    rw [hsame.1]
    exact hn
  | expire sid => exact ⟨fun _ => trivial, fun _ => holds_of_index md5 (index_congr hi rfl rfl rfl) fun _ _ _ hn => hn⟩
  | code phone code => exact ⟨fun _ => trivial, fun _ => holds_of_index md5 (index_congr hi rfl rfl rfl) fun _ _ _ hn => hn⟩
  | complete f =>
    by_cases htakes : ∃ uid, Takes f s uid
    · obtain ⟨uid, ht⟩ := htakes
      have hstep : step md5 (.complete f) s = s.completed md5 f uid := run_infoComplete md5 ht
      have hiff := index_completed_iff md5 hi hsane ht
      constructor
      · rintro ⟨hafter, -⟩ v hv
        obtain rfl : v = uid := Option.some.inj (hv.session.symm.trans ht.session)
        rw [hstep] at hafter
        exact hiff.1 hafter
      · intro hs
        refine holds_of_index md5 (by rw [hstep]; exact hiff.2 (hs uid ht)) fun v n hne hn => ?_
        have hvu : v ≠ uid := by
          rintro rfl
          exact hne ht.session
        rw [hstep, name_completed, Function.update_of_ne hvu]
        exact hn
    · have hnot : ∀ uid, ¬Takes f s uid := fun uid ht => htakes ⟨uid, ht⟩
      have hstep : step md5 (.complete f) s = s := run_infoComplete_not md5 hnot
      refine ⟨fun _ uid ht => absurd ht (hnot uid), fun _ => holds_of_index md5 (by rw [hstep]; exact hi) fun uid n _ hn => ?_⟩
      rw [hstep]
      exact hn

theorem sane_step (r : Req) (hi : Index s) (h : Sane s) : Sane (step md5 r s) := by
  cases r with
  | register now ip account passwd agent_id => exact (register_keeps md5 hi h now ip account passwd agent_id).2.2
  | session sid uid =>
    rw [step_session]
    split
    · next hreg =>
      refine ⟨h.fresh, fun sid' uid' hsid => ?_, h.named⟩
      simp only [Function.update_apply] at hsid
      split at hsid
      · cases hsid
        exact hreg.2
      · exact h.live sid' uid' hsid
    · exact h
  | expire sid =>
    refine ⟨h.fresh, fun sid' uid' hsid => ?_, h.named⟩
    have hsid : update s.session sid none sid' = some uid' := hsid
    rw [Function.update_apply] at hsid
    split at hsid
    · cases hsid
    · exact h.live sid' uid' hsid
  | code phone code => exact ⟨h.fresh, h.live, h.named⟩
  | complete f =>
    by_cases htakes : ∃ uid, Takes f s uid
    · obtain ⟨uid, ht⟩ := htakes
      have hstep : step md5 (.complete f) s = s.completed md5 f uid := run_infoComplete md5 ht
      rw [hstep]
      exact sane_completed md5 h ht
    · have hstep : step md5 (.complete f) s = s := run_infoComplete_not md5 fun uid ht => htakes ⟨uid, ht⟩
      rw [hstep]
      exact h

end Kept

/-- No user, no session and no nickname. -/
structure Fresh (s : St) : Prop where
  user : ∀ uid field, s.user uid field = none
  session : ∀ sid, s.session sid = none
  nicknames : s.nicknames = ∅

/-- In a run from a store without users the index is exact after every request, and no request takes the entry of
another user, if and only if every completion is sound. -/
theorem index_exact_iff (md5 : String → String) {s : St} (h : Fresh s) (rs : List Req) :
    All (step md5) (Holds md5) rs s ↔ All (step md5) Sound rs s := by
  have hsane : Sane s := by
    refine ⟨fun uid _ => h.user uid _, fun sid uid hsid => ?_, fun uid huid => ?_⟩
    · rw [h.session] at hsid
      cases hsid
    · rw [h.user] at huid
      cases huid
  have hindex : Index s := by
    rw [index_iff, h.nicknames]
    exact Indexes.empty (fun uid => name_none (by rw [h.user]; decide)) _
  refine all_iff (I := fun s => Index s ∧ Sane s) ?_ ?_ ⟨hindex, hsane⟩
  · exact fun r s hk => holds_iff md5 r hk.1 hk.2
  · exact fun r s hs hk => ⟨((holds_iff md5 r hk.1 hk.2).2 hs).1, sane_step md5 r hk.1 hk.2⟩

/-! ### An account that is another user's nickname -/

def demo : St where
  count := 0
  session := fun _ => none
  user := fun _ _ => none
  account2user := fun _ => none
  sets := fun _ => ∅
  code := fun _ => none
  nicknames := ∅
  nickname2uid := fun _ => none

theorem fresh_demo : Fresh demo := ⟨fun _ _ => rfl, fun _ => rfl, rfl⟩

def demoPhone : String := "13800000000"

/-- The user of a session takes a nickname. -/
def demoComplete (sid nickname : String) : Req := .complete ⟨sid, demoPhone, "1234", "", "", nickname, "pwd", true⟩

/-- Two users, with a session each and a code. -/
def demoUsers : List Req :=
  [.register ⟨"2024-01-01", "2024-01-01 00:00:00"⟩ "" "anna01" "secret" "1",
    .register ⟨"2024-01-01", "2024-01-01 00:00:00"⟩ "" "robert" "secret" "1",
    .session "s1" 1, .session "s2" 2, .code demoPhone (some "1234")]

/-- The first user takes the account of the second for a nickname, and the second takes another. -/
def demoRobbed : List Req := demoUsers ++ [demoComplete "s1" "robert", demoComplete "s2" "bob"]

/-- A user takes his own account for a nickname. -/
def demoOwn : List Req := demoUsers ++ [demoComplete "s1" "anna01"]

/-- The first user has lost his entry to the second, and a user is not found under his own account. -/
theorem nickname_lost :
    ((after (step id) demoRobbed demo).name 1 = some "robert" ∧ (after (step id) demoRobbed demo).nickname2uid "robert" = none ∧
      "robert" ∉ (after (step id) demoRobbed demo).nicknames) ∧
    ((after (step id) demoOwn demo).name 1 = some "anna01" ∧ (after (step id) demoOwn demo).nickname2uid "anna01" = none) := by
  decide +kernel

theorem sound_complete {f : Form} {s : St} (uid : Nat) (hsession : s.session f.sid = some uid)
    (h : s.user uid "info_comp" = some "1" ∨
      fmt (s.user uid "nickname") ∉ s.nicknames ∧ fmt (s.user uid "nickname") ≠ f.nickname) : Sound (.complete f) s := by
  intro v hv
  obtain rfl : v = uid := Option.some.inj (hv.session.symm.trans hsession)
  exact h

/-- Nicknames that are no accounts, and one of them changed. -/
def demoRenamed : List Req := demoUsers ++ [demoComplete "s1" "anna", demoComplete "s2" "bob", demoComplete "s1" "ann"]

theorem index_exact_renamed : All (step id) (Holds id) demoRenamed demo := by
  refine (index_exact_iff id fresh_demo demoRenamed).2 ⟨trivial, trivial, trivial, trivial, trivial, ?_, ?_, ?_, trivial⟩
  · exact sound_complete 1 (by decide +kernel) (by decide +kernel)
  · exact sound_complete 2 (by decide +kernel) (by decide +kernel)
  · exact sound_complete 1 (by decide +kernel) (by decide +kernel)

end FishWeb.Nickname
