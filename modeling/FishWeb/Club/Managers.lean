import FishWeb.Club.Authority
/-!
# Managers of a club

Any account is made a manager, also one that is no member; a manager who leaves by himself
stays a manager; and who relieves an account that is no manager gets an exception. Every
manager is a member, in a run, if and only if its steps mind that
(`managers_are_members`).
-/
open Python Prog Runs

namespace FishWeb.Club

open Common

/-! ## Managers and members -/

/-- The managers of every club are its members, and three at most. -/
structure Managed (s : St) : Prop where
  members : ∀ n data, (s.attrOf n).club_manager = some data → ∀ account ∈ data, account ∈ s.players (playerList n)
  few : ∀ n data, (s.attrOf n).club_manager = some data → data.scard ≤ 3

/-- Who relieves a manager gets an answer. -/
def Answered : Step → St → Prop
  | .request (.relieveManager sid n manager_account), s => ∃ reply, (run (relieve_manager sid n manager_account) s).1 = .ok reply
  | _, _ => True

def Sound (x : Step) (s : St) : Prop := Managed (step x s) ∧ Answered x s

/-- The user who made the club asks, and `data` are its managers. -/
def St.Asks (s : St) (sid n : String) (data : MemberSet String) : Prop :=
  (s.attrOf n).club_manager = some data ∧ (s.attrOf n).club_user = s.account sid

/-- A new manager is a member, who is relieved is a manager, and no manager leaves by himself. -/
def Minds : Step → St → Prop
  | .request (.addManager sid n manager_account), s =>
    ∀ data, s.Asks sid n data → data.scard < 3 → manager_account ∈ s.players (playerList n)
  | .request (.relieveManager sid n manager_account), s => ∀ data, s.Asks sid n data → manager_account ∈ data
  | .request (.signOut sid n), s => elsewhere sid (s.room.shared.info sid) = false →
      ∀ data, (s.attrOf n).club_manager = some data → fmt (s.account sid) ∉ data
  | _, _ => True

/-- Every club has a number that is no set of clubs, and a set of managers. -/
structure Kept (s : St) : Prop where
  listed : ∀ n, n ∈ s.clubs ↔ (s.attr n).isSome
  numerals : Numerals s.clubs.members
  manager : ∀ n, (s.attr n).isSome → (s.attrOf n).club_manager.isSome

section Managers
variable {s : St} {account n : String} {data : MemberSet String}

theorem attr_isSome (h : (s.attrOf n).club_manager = some data) : (s.attr n).isSome := by
  cases hattr : s.attr n with
  | some attr => rfl
  | none =>
    unfold St.attrOf at h
    rw [hattr] at h
    cases h

theorem Kept.plain (hk : Kept s) (h : (s.attrOf n).club_manager = some data) : Plain n := by
  obtain ⟨k, rfl⟩ := hk.numerals n ((hk.listed n).2 (attr_isSome h))
  exact plain_toString k

/-! ## What the requests do to the managers -/

/-- The owner adds the account, unless there are three managers. -/
theorem addManager_cases (sid n manager_account : String) :
    (step (.request (.addManager sid n manager_account)) s = s ∧ ∀ data, s.Asks sid n data → ¬data.scard < 3) ∨
      ∃ data, s.Asks sid n data ∧ data.scard < 3 ∧ step (.request (.addManager sid n manager_account)) s =
        s.setAttr n { s.attrOf n with club_manager := some (data.sadd manager_account) } := by
  let Q : Except Err Reply → St → List Event → Prop := fun _ s' _ =>
    (s' = s ∧ ∀ data, s.Asks sid n data → ¬data.scard < 3) ∨
      ∃ data, s.Asks sid n data ∧ data.scard < 3 ∧ s' = s.setAttr n { s.attrOf n with club_manager := some (data.sadd manager_account) }
  show Comes Q (add_manager sid n manager_account) s
  unfold add_manager
  rw [(ran_infoOf sid).comes_bind_iff]
  show Comes Q (if (s.attr n).isSome then _ else _ : Handler Reply) s
  refine comes_ite (fun _ => ?_) fun hnone => .inl ⟨rfl, fun data h => absurd (attr_isSome h.1) hnone⟩
  show Comes Q (if (s.attrOf n).club_user ≠ s.account sid then _ else _ : Handler Reply) s
  refine comes_ite (fun hother => .inl ⟨rfl, fun data h => absurd h.2 hother⟩) fun howner => ?_
  refine comes_evalManager (fun hnone => .inl ⟨rfl, fun data h => ?_⟩) fun data hdata => comes_ite (fun hfull => ?_) fun hroom => ?_
  · rw [h.1] at hnone
    cases hnone
  · refine .inl ⟨rfl, fun data' h => ?_⟩
    obtain rfl := Option.some.inj (hdata.symm.trans h.1)
    exact not_lt.2 hfull
  · exact .inr ⟨data, ⟨hdata, not_not.1 howner⟩, not_le.1 hroom, rfl⟩

/-- The owner takes the account away, if it is there. -/
theorem relieveManager_cases (hk : Kept s) (sid n manager_account : String) :
    (step (.request (.relieveManager sid n manager_account)) s = s ∧ (∀ data, ¬s.Asks sid n data) ∧
        Answered (.request (.relieveManager sid n manager_account)) s) ∨
      ∃ data, s.Asks sid n data ∧ (manager_account ∈ data ↔ Answered (.request (.relieveManager sid n manager_account)) s) ∧
        step (.request (.relieveManager sid n manager_account)) s =
          if manager_account ∈ data then s.setAttr n { s.attrOf n with club_manager := some (data.srem manager_account) } else s := by
  let Q : Except Err Reply → St → List Event → Prop := fun r s' _ =>
    (s' = s ∧ (∀ data, ¬s.Asks sid n data) ∧ ∃ reply, r = .ok reply) ∨
      ∃ data, s.Asks sid n data ∧ (manager_account ∈ data ↔ ∃ reply, r = .ok reply) ∧
        s' = if manager_account ∈ data then s.setAttr n { s.attrOf n with club_manager := some (data.srem manager_account) } else s
  show Comes Q (relieve_manager sid n manager_account) s
  unfold relieve_manager
  rw [(ran_infoOf sid).comes_bind_iff]
  show Comes Q (if (s.attr n).isSome then _ else _ : Handler Reply) s
  refine comes_ite (fun hclub => ?_) fun hnone => .inl ⟨rfl, fun data h => absurd (attr_isSome h.1) hnone, _, rfl⟩
  show Comes Q (if (s.attrOf n).club_user ≠ s.account sid then _ else _ : Handler Reply) s
  refine comes_ite (fun hother => .inl ⟨rfl, fun data h => hother h.2, _, rfl⟩) fun howner => ?_
  obtain ⟨data, hdata⟩ := Option.isSome_iff_exists.1 (hk.manager n hclub)
  rw [(ran_evalManager hdata).comes_bind_iff]
  refine comes_ite (fun hnot => ?_) fun hin => ?_
  · refine .inr ⟨data, ⟨hdata, not_not.1 howner⟩, ⟨fun h => absurd h hnot, fun ⟨_, h⟩ => nomatch h⟩, ?_⟩
    rw [if_neg hnot]
    rfl
  · refine .inr ⟨data, ⟨hdata, not_not.1 howner⟩, ⟨fun _ => ⟨_, rfl⟩, fun _ => not_not.1 hin⟩, ?_⟩
    rw [if_pos (not_not.1 hin)]
    rfl

/-- No manager is forced out. -/
theorem forceOut_cases (builder_sid member_account n : String) :
    step (.request (.forceOut builder_sid member_account n)) s = s ∨
      ∃ data, (s.attrOf n).club_manager = some data ∧ member_account ∉ data ∧
        step (.request (.forceOut builder_sid member_account n)) s = s.leave member_account n := by
  let Q : Except Err Reply → St → List Event → Prop := fun _ s' _ =>
    s' = s ∨ ∃ data, (s.attrOf n).club_manager = some data ∧ member_account ∉ data ∧ s' = s.leave member_account n
  show Comes Q (force_sign_out_club builder_sid member_account n) s
  unfold force_sign_out_club
  rw [(ran_infoOf builder_sid).comes_bind_iff]
  show Comes Q (if (s.account builder_sid).getD "" = "" then _ else _ : Handler Reply) s
  refine comes_ite (fun _ => .inl rfl) fun _ => ?_
  show Comes Q (if (s.attr n).isSome then _ else _ : Handler Reply) s
  refine comes_ite (fun _ => ?_) fun _ => .inl rfl
  show Comes Q (evalManager n >>= _) s
  refine comes_evalManager (fun _ => .inl rfl) fun data hdata => comes_stranger hdata (.inl rfl) fun _ => ?_
  show Comes Q (if member_account ∈ data then _ else _ : Handler Reply) s
  exact comes_ite (fun _ => .inl rfl) fun hin => .inr ⟨data, hdata, hin, rfl⟩

theorem step_signOut (sid n : String) : step (.request (.signOut sid n)) s =
    if elsewhere sid (s.room.shared.info sid) then s else s.leave (fmt (s.account sid)) n := by
  show (run (sign_out_club sid n) s).2 = _
  unfold sign_out_club
  rw [run_bind_ok (ran_infoOf sid).run]
  cases elsewhere sid (s.room.shared.info sid) <;> rfl

/-! ## What the other requests leave -/

/-- A command that takes no member away, and makes no manager. -/
def Tame : ⦃β : Type⦄ → Cmd β → Prop
  | _, .own (.hsetManager _ _) => False
  | _, .own (.sremPlayers _ _) => False
  | _, .own (.hmsetAttr _ attr) => attr.club_manager = some ∅
  | _, _ => True

/-- The managers of a club whose number is that of no set of clubs are its members, and three at most. -/
def Guarded (s : St) : Prop := ∀ n data, (s.attrOf n).club_manager = some data →
  data.scard ≤ 3 ∧ (Plain n → ∀ account ∈ data, account ∈ s.players (playerList n))

theorem Managed.guarded (hm : Managed s) : Guarded s := fun n data h => ⟨hm.few n data h, fun _ => hm.members n data h⟩

theorem Guarded.managed (hg : Guarded s) (hk : Kept s) : Managed s where
  members n data h := (hg n data h).2 (hk.plain h)
  few n data h := (hg n data h).1

/-- What leaves the managers, and takes no member of a club away. -/
theorem Guarded.of_same {s' : St} (hg : Guarded s) (hattr : ∀ m, (s'.attrOf m).club_manager = (s.attrOf m).club_manager)
    (hplayers : ∀ m, Plain m → ∀ account ∈ s.players (playerList m), account ∈ s'.players (playerList m)) : Guarded s' := by
  intro m data h
  rw [hattr] at h
  exact ⟨(hg m data h).1, fun hplain account ha => hplayers m hplain account ((hg m data h).2 hplain account ha)⟩

/-- A club has new managers, who are members. -/
theorem Guarded.setAttr {attr : Attr} (hg : Guarded s) (hfew : ∀ data, attr.club_manager = some data → data.scard ≤ 3)
    (hin : ∀ data, attr.club_manager = some data → Plain n → ∀ account ∈ data, account ∈ s.players (playerList n)) :
    Guarded (s.setAttr n attr) := by
  intro m data h
  rw [attrOf_setAttr] at h
  by_cases hm : m = n
  · subst hm
    rw [if_pos rfl] at h
    exact ⟨hfew data h, hin data h⟩
  · rw [if_neg hm] at h
    exact hg m data h

theorem Guarded.disband {l : List String} (hg : Guarded s) : Guarded (s.disband n account l) := by
  intro m data h
  by_cases hm : m = n
  · have hnone : (s.disband n account l).attrOf m = .empty := by
      show (Function.update s.attr n none m).getD .empty = _
      rw [hm, Function.update_self]
      rfl
    rw [hnone] at h
    cases h
  · have hsame : (s.disband n account l).attrOf m = s.attrOf m := by
      show (Function.update s.attr n none m).getD .empty = _
      rw [Function.update_of_ne hm]
      rfl
    rw [hsame] at h
    refine ⟨(hg m data h).1, fun hplain b hb => mem_disband.2 ⟨hm, ?_, (hg m data h).2 hplain b hb⟩⟩
    rintro ⟨-, p, -, hp⟩
    exact hplain p hp

/-- What a tame command leaves. -/
theorem Guarded.exec ⦃β : Type⦄ (c : Cmd β) (s : St) (hc : Tame c) (hg : Guarded s) : Guarded (Exec.exec c s).2 := by
  cases c with
  | room c => exact hg
  | own c =>
  cases c with
  | hsetManager n data => exact hc.elim
  | sremPlayers key member => exact hc.elim
  | hmsetAttr n attr =>
    have hempty : attr.club_manager = some ∅ := hc
    refine hg.setAttr (fun data h => ?_) fun data h _ account ha => ?_ <;> obtain rfl := Option.some.inj (hempty.symm.trans h)
    · exact Nat.zero_le 3
    · exact absurd ha (MemberSet.not_mem_empty account)
  | hsetContent n club_content => exact hg.setAttr (fun data h => (hg n data h).1) fun data h => (hg n data h).2
  | saddPlayers key member => exact hg.of_same (fun _ => rfl) fun m _ account ha => (SetTable.mem_add _ _ _ _ _).2 (.inr ha)
  | disband n account players => exact hg.disband
  | _ => exact hg

theorem only_room {α : Type} (p : Room.Handler α) : Only Tame (room p) := by
  induction p with
  | ret a => trivial
  | raise e => trivial
  | cmd c k ih => exact ⟨trivial, ih⟩

theorem only_attempt {α : Type} {p : Handler α} (hp : Only Tame p) : Only Tame p.attempt := by
  induction p with
  | ret a => trivial
  | raise e => trivial
  | cmd c k ih => exact ⟨hp.1, fun b => ih b (hp.2 b)⟩

theorem only_orRaise {α : Type} (e : Err) (x : Option α) : Only Tame (orRaise e x : Handler α) := by
  cases x <;> trivial

theorem only_send {β : Type} {c : Own β} (hc : Tame (.own c)) : Only Tame (send c) := ⟨hc, fun _ => trivial⟩

theorem only_infoOf (sid : String) : Only Tame (infoOf sid) := only_room _

theorem only_getUserByAccount (account : Option String) : Only Tame (getUserByAccount account) :=
  only_bind Tame (only_room _) fun _ => trivial

theorem only_evalManager (n : String) : Only Tame (evalManager n) :=
  only_bind Tame (only_send trivial) fun _ => only_orRaise _ _

theorem only_stranger (n : String) (account : Option String) (data : MemberSet String) : Only Tame (stranger n account data) :=
  only_bind Tame (only_send trivial) fun _ => trivial

theorem only_add_club (account n : String) : Only Tame (ClubOperation.add_club account n) := by
  refine only_bind Tame (only_send trivial) fun b => ?_
  cases b
  · trivial
  · exact only_bind Tame (only_send trivial) fun _ => only_bind Tame (only_send trivial) fun _ => trivial

theorem only_nextNumber : Only Tame nextNumber := by
  unfold nextNumber
  refine only_bind Tame (only_send trivial) fun clubs => ?_
  refine only_bind Tame (only_ofExcept Tame (ints clubs.members)) fun l => ?_
  -- the number is not to be computed
  generalize nextId l = next
  exact only_ofExcept Tame next

theorem only_create (sid club_name : String) : Only Tame (create_club sid club_name) := by
  refine only_bind Tame (only_attempt ?_) fun r => by cases r <;> trivial
  unfold tryCreate
  rw [only_ite]
  refine ⟨fun _ => trivial, fun _ => only_bind Tame (only_infoOf sid) fun info => ?_⟩
  rw [only_ite]
  refine ⟨fun _ => trivial, fun _ => only_bind Tame (only_getUserByAccount _) fun userTable => only_bind Tame (only_room _) fun user => ?_⟩
  refine only_bind Tame (only_orRaise _ _) fun ag => ?_
  rw [only_ite]
  refine ⟨fun _ => trivial, fun _ => only_bind Tame (only_send trivial) fun owned => ?_⟩
  rw [only_ite]
  refine ⟨fun _ => trivial, fun _ => only_bind Tame only_nextNumber fun next_id => only_bind Tame ?_ fun _ => trivial⟩
  exact only_bind Tame (only_send trivial) fun _ => only_bind Tame (only_send rfl) fun _ => only_send trivial

theorem only_delete (sid n : String) : Only Tame (delete_club sid n) := by
  refine only_bind Tame (only_attempt ?_) fun r => by cases r <;> trivial
  refine only_bind Tame (only_infoOf sid) fun info => ?_
  rw [only_ite]
  refine ⟨fun _ => trivial, fun _ => only_bind Tame (only_send trivial) fun club => ?_⟩
  rw [only_ite]
  refine ⟨fun _ => only_bind Tame (only_send trivial) fun owner => ?_, fun _ => trivial⟩
  rw [only_ite]
  refine ⟨fun _ => trivial, fun _ => only_bind Tame (only_send trivial) fun players => ?_⟩
  exact only_bind Tame (only_send trivial) fun _ => trivial

theorem only_edit (sid n club_content : String) : Only Tame (edit_club sid n club_content) := by
  unfold edit_club
  rw [only_ite]
  refine ⟨fun _ => trivial, fun _ => only_bind Tame (only_infoOf sid) fun info => only_bind Tame (only_send trivial) fun club => ?_⟩
  rw [only_ite]
  refine ⟨fun _ => only_bind Tame (only_evalManager n) fun data => only_bind Tame (only_stranger n _ data) fun b => ?_, fun _ => trivial⟩
  rw [only_ite]
  exact ⟨fun _ => trivial, fun _ => only_bind Tame (only_send trivial) fun _ => trivial⟩

theorem only_join (sid n : String) : Only Tame (join_club sid n) := by
  unfold join_club
  rw [only_ite]
  refine ⟨fun _ => trivial, fun _ => only_bind Tame (only_infoOf sid) fun info => ?_⟩
  rw [only_ite]
  refine ⟨fun _ => trivial, fun _ => only_bind Tame (only_send trivial) fun owner => ?_⟩
  rw [only_ite]
  exact ⟨fun _ => trivial, fun _ => only_bind Tame (only_add_club _ n) fun _ => trivial⟩

theorem only_apply (sid n : String) : Only Tame (apply_club sid n) := by
  unfold apply_club
  rw [only_ite]
  refine ⟨fun _ => trivial, fun _ => only_bind Tame (only_infoOf sid) fun info => ?_⟩
  rw [only_ite]
  refine ⟨fun _ => trivial, fun _ => only_bind Tame (only_send trivial) fun owner => ?_⟩
  rw [only_ite]
  refine ⟨fun _ => trivial, fun _ => only_bind Tame (only_send trivial) fun club => ?_⟩
  rw [only_ite]
  refine ⟨fun _ => only_bind Tame (only_getUserByAccount _) fun userTable => only_bind Tame (only_send trivial) fun user => ?_,
    fun _ => trivial⟩
  exact only_bind Tame (only_send trivial) fun _ => trivial

theorem only_decide (n user status : String) (accept : Bool) (l : List String) : Only Tame (decide n user status accept l) := by
  induction l with
  | nil => trivial
  | cons item l ih =>
    unfold decide
    split
    · rw [only_ite]
      refine ⟨fun _ => ih, fun _ => only_bind Tame (only_ofExcept Tame _) fun state => ?_⟩
      rw [only_ite]
      refine ⟨fun _ => ih, fun _ => only_bind Tame (only_send trivial) fun _ => only_bind Tame (only_send trivial) fun _ => ?_⟩
      rw [only_ite]
      refine ⟨fun _ => trivial, fun _ => only_bind Tame (only_add_club _ n) fun b => ?_⟩
      rw [only_ite]
      exact ⟨fun _ => trivial, fun _ => ih⟩
    · trivial

theorem only_audit (sid n user status : String) : Only Tame (apply_club_audit sid n user status) := by
  refine only_bind Tame (only_infoOf sid) fun info => ?_
  rw [only_ite]
  refine ⟨fun _ => trivial, fun _ => ?_⟩
  rw [only_ite]
  refine ⟨fun _ => trivial, fun _ => ?_⟩
  rw [only_ite]
  refine ⟨fun _ => trivial, fun _ => only_bind Tame (only_ofExcept Tame _) fun decision => ?_⟩
  rw [only_ite]
  refine ⟨fun _ => trivial, fun _ => ?_⟩
  rw [only_ite]
  refine ⟨fun _ => trivial, fun _ => only_bind Tame ?_ fun b => ?_⟩
  · refine only_bind Tame (only_send trivial) fun club => ?_
    rw [only_ite]
    exact ⟨fun _ => only_bind Tame (only_evalManager n) fun data => only_stranger n _ data, fun _ => trivial⟩
  · rw [only_ite]
    exact ⟨fun _ => trivial, fun _ => only_bind Tame (only_send trivial) fun l => only_decide n user status _ _⟩

theorem only_autoRefusal (sid n : String) (info : Info) : Only Tame (autoRefusal sid n info) := by
  refine only_bind Tame (only_room _) fun lives => ?_
  rw [only_ite]
  refine ⟨fun _ => trivial, fun _ => ?_⟩
  rw [only_ite]
  refine ⟨fun _ => trivial, fun _ => ?_⟩
  rw [only_ite]
  refine ⟨fun _ => trivial, fun _ => only_bind Tame (only_send trivial) fun club => ?_⟩
  rw [only_ite]
  exact ⟨fun _ => trivial, fun _ => trivial⟩

theorem only_shutOut (n : String) (account : Option String) : Only Tame (shutOut n account) := by
  refine only_bind Tame (only_send trivial) fun owner => ?_
  rw [only_ite]
  refine ⟨fun _ => trivial, fun _ => ?_⟩
  cases account with
  | none => trivial
  | some account =>
    rw [only_ite]
    exact ⟨fun _ => trivial, fun _ => only_bind Tame (only_evalManager n) fun _ => trivial⟩

theorem only_agClubNumber (n : String) : Only Tame (agClubNumber n) :=
  only_bind Tame (only_send trivial) fun _ => only_bind Tame (only_getUserByAccount _) fun _ =>
    only_bind Tame (only_room _) fun _ => trivial

theorem only_hundredCards (n : String) : Only Tame (hundredCards n) := by
  refine only_bind Tame (only_send trivial) fun owner => only_bind Tame (only_room _) fun userTable => only_bind Tame (only_room _) fun user => ?_
  refine only_bind Tame (only_orRaise _ _) fun userTable => only_bind Tame (only_orRaise _ _) fun id => ?_
  exact only_bind Tame (only_room _) fun cards => only_bind Tame (only_ofExcept Tame _) fun _ => trivial

theorem only_settingAllow (sid n : String) : Only Tame (settting_auto_create_allow sid n) := by
  refine only_bind Tame (only_infoOf sid) fun info => only_bind Tame (only_autoRefusal sid n info) fun refusal => ?_
  cases refusal with
  | some reply => trivial
  | none =>
    refine only_bind Tame (only_shutOut n _) fun b => ?_
    rw [only_ite]
    refine ⟨fun _ => trivial, fun _ => only_bind Tame (only_bind Tame (only_send trivial) fun allow => ?_) fun next => ?_⟩
    · dsimp only
      rw [only_ite]
      refine ⟨fun _ => only_bind Tame (only_hundredCards n) fun b => ?_, fun _ => trivial⟩
      rw [only_ite]
      exact ⟨fun _ => trivial, fun _ => trivial⟩
    · cases next with
      | none => trivial
      | some settingAllow => exact only_bind Tame (only_send trivial) fun _ => trivial

theorem only_autoCreate (sid n gameid rule id : String) : Only Tame (setting_auto_create sid n gameid rule id) := by
  refine only_bind Tame (only_infoOf sid) fun info => only_bind Tame (only_agClubNumber n) fun key => ?_
  refine only_bind Tame (only_autoRefusal sid n info) fun refusal => ?_
  cases refusal with
  | some reply => trivial
  | none =>
    rw [only_ite]
    refine ⟨fun _ => trivial, fun _ => only_bind Tame (only_shutOut n _) fun b => ?_⟩
    rw [only_ite]
    exact ⟨fun _ => trivial, fun _ => only_bind Tame (only_send trivial) fun _ => trivial⟩

theorem only_clearAuto (sid n : String) : Only Tame (clear_auto_create sid n) := by
  refine only_bind Tame (only_infoOf sid) fun info => only_bind Tame (only_autoRefusal sid n info) fun refusal => ?_
  cases refusal with
  | some reply => trivial
  | none =>
    refine only_bind Tame (only_shutOut n _) fun b => ?_
    rw [only_ite]
    refine ⟨fun _ => trivial, fun _ => only_bind Tame (only_agClubNumber n) fun key => ?_⟩
    refine only_bind Tame (only_forEach Tame fun id _ => only_bind Tame (only_send trivial) fun b => ?_) fun _ => trivial
    rw [only_ite]
    exact ⟨fun _ => only_send trivial, fun _ => only_bind Tame (only_send trivial) fun _ => only_send trivial⟩

theorem only_createRoom (form : RoomForm) : Only Tame (doCreateRoom form) := by
  refine only_bind Tame (only_orRaise _ _) fun gameId => only_bind Tame (only_infoOf form.sid) fun info => ?_
  refine only_bind Tame (only_send trivial) fun club => ?_
  rw [only_ite]
  refine ⟨fun _ => trivial, fun _ => only_bind Tame (only_bind Tame (only_send trivial) fun owner => ?_) fun refusal => ?_⟩
  · rw [only_ite]
    refine ⟨fun _ => trivial, fun _ => only_bind Tame (only_send trivial) fun players => ?_⟩
    rw [only_ite]
    refine ⟨fun _ => trivial, fun _ => only_bind Tame (only_send trivial) fun use => only_bind Tame (only_orRaise _ _) fun b => ?_⟩
    rw [only_ite]
    exact ⟨fun _ => trivial, fun _ => trivial⟩
  · cases refusal with
    | some reply => trivial
    | none =>
      refine only_bind Tame (only_send trivial) fun owner => ?_
      rw [only_ite]
      refine ⟨fun _ => trivial, fun _ => only_bind Tame (only_room _) fun lives => ?_⟩
      rw [only_ite]
      refine ⟨fun _ => trivial, fun _ => only_bind Tame (only_getUserByAccount _) fun userTable => only_bind Tame (only_room _) fun b => ?_⟩
      rw [only_ite]
      exact ⟨fun _ => trivial, fun _ => only_bind Tame (only_room _) fun _ => trivial⟩

/-! ## A step -/

theorem Kept.setAttr {attr : Attr} (hk : Kept s) (hn : (s.attr n).isSome) (hattr : attr.club_manager.isSome) : Kept (s.setAttr n attr) where
  listed := listed_setAttr hk.listed hn
  numerals := hk.numerals
  manager m hm := by
    rw [attrOf_setAttr]
    split
    · exact hattr
    · rw [attr_setAttr_isSome hn] at hm
      exact hk.manager m hm

theorem Kept.create {club_name ag : String} {n : Int} (hk : Kept s) (hn : s.nextIdOf = .ok n) : Kept (s.create account n club_name ag) := by
  obtain ⟨⟨k, rfl⟩, -⟩ := nextIdOf_fresh hk.numerals hn
  refine ⟨listed_create hk.listed, numerals_sadd hk.numerals k, fun m hm => ?_⟩
  show ((Function.update s.attr (toString (k : Int)) _ m).getD .empty).club_manager.isSome
  have hm' : (Function.update s.attr (toString (k : Int)) _ m).isSome := hm
  by_cases heq : m = toString (k : Int)
  · rw [heq, Function.update_self]
    rfl
  · rw [Function.update_of_ne heq] at hm' ⊢
    exact hk.manager m hm'

theorem Kept.disband {l : List String} (hk : Kept s) : Kept (s.disband n account l) := by
  refine ⟨listed_disband hk.listed, fun m hm => hk.numerals m ((MemberSet.mem_srem _ _ _).1 hm).2, fun m hm => ?_⟩
  show ((Function.update s.attr n none m).getD .empty).club_manager.isSome
  have hm' : (Function.update s.attr n none m).isSome := hm
  by_cases heq : m = n
  · rw [heq, Function.update_self] at hm'
    cases hm'
  · rw [Function.update_of_ne heq] at hm' ⊢
    exact hk.manager m hm'

theorem Kept.effect {req : Req} {r : Except Err Reply} {l : List Event} {s' : St} (hk : Kept s) (h : Effect s req r l s') : Kept s' := by
  cases h with
  | create sid club_name ag n hn hcount => exact hk.create hn
  | delete sid n hclub howner => exact hk.disband
  | edit sid n club_content hclub hmay => exact hk.setAttr hclub (hk.manager n hclub)
  | manager req n data hclub hreq => exact hk.setAttr hclub rfl
  | audit sid n user status r items audit joined hnew hmay hitems hnone hjoined =>
    split <;> exact ⟨hk.listed, hk.numerals, hk.manager⟩
  | _ => exact ⟨hk.listed, hk.numerals, hk.manager⟩

theorem Kept.step (x : Step) (hk : Kept s) : Kept (step x s) := by
  cases x with
  | request req => exact hk.effect (effect_of req s)
  | elsewhere room profile => exact ⟨hk.listed, hk.numerals, hk.manager⟩

/-- A member leaves. -/
theorem Guarded.leave (hg : Guarded s) (hn : ∀ data, (s.attrOf n).club_manager = some data → account ∉ data) :
    Guarded (s.leave account n) := by
  intro m data h
  refine ⟨(hg m data h).1, fun hplain b hb => mem_leave.2 ⟨fun hj => hplain account hj.1, ?_, (hg m data h).2 hplain b hb⟩⟩
  rintro ⟨hj, rfl⟩
  obtain rfl : m = n := hj
  exact hn data h hb

/-- A request of tame commands keeps the managers. -/
theorem managed_of_only {req : Req} (hk : Kept s) (hm : Managed s) (h : Only Tame req.handler) : Managed (step (.request req) s) :=
  Guarded.managed (h.run_inv Guarded.exec hm.guarded) (hk.step (.request req))

theorem addManager_iff (hk : Kept s) (hm : Managed s) (sid n a : String) :
    Sound (.request (.addManager sid n a)) s ↔ Minds (.request (.addManager sid n a)) s := by
  rcases addManager_cases (s := s) sid n a with ⟨hstep, hno⟩ | ⟨data, hasks, hfew, hstep⟩
  · refine ⟨fun _ data hasks hfew => absurd hfew (hno data hasks), fun _ => ⟨?_, trivial⟩⟩
    rw [hstep]
    exact hm
  · constructor
    · intro h data' hasks' _
      have hmembers := h.1.members n (data.sadd a)
      rw [hstep, attrOf_setAttr, if_pos rfl] at hmembers
      exact hmembers rfl a ((MemberSet.mem_sadd _ _ _).2 (.inl rfl))
    · intro h
      have hmember := h data hasks hfew
      refine ⟨Guarded.managed ?_ (hk.step _), trivial⟩
      rw [hstep]
      refine hm.guarded.setAttr (fun data' h => ?_) fun data' h _ account ha => ?_ <;> obtain rfl := Option.some.inj h
      · have := MemberSet.scard_sadd_le data a
        omega
      · rcases (MemberSet.mem_sadd _ _ _).1 ha with rfl | ha
        · exact hmember
        · exact hm.members n data hasks.1 account ha

theorem relieveManager_iff (hk : Kept s) (hm : Managed s) (sid n a : String) :
    Sound (.request (.relieveManager sid n a)) s ↔ Minds (.request (.relieveManager sid n a)) s := by
  rcases relieveManager_cases hk sid n a with ⟨hstep, hno, hanswered⟩ | ⟨data, hasks, hanswered, hstep⟩
  · refine ⟨fun _ data hasks => absurd hasks (hno data), fun _ => ⟨?_, hanswered⟩⟩
    rw [hstep]
    exact hm
  · constructor
    · intro h data' hasks'
      obtain rfl := Option.some.inj (hasks.1.symm.trans hasks'.1)
      exact hanswered.2 h.2
    · intro h
      have hin := h data hasks
      refine ⟨Guarded.managed ?_ (hk.step _), hanswered.1 hin⟩
      rw [hstep, if_pos hin]
      refine hm.guarded.setAttr (fun data' h => ?_) fun data' h _ account ha => ?_ <;> obtain rfl := Option.some.inj h
      · exact (MemberSet.scard_srem_le data a).trans (hm.few n data hasks.1)
      · exact hm.members n data hasks.1 account ((MemberSet.mem_srem _ _ _).1 ha).2

theorem signOut_iff (hk : Kept s) (hm : Managed s) (sid n : String) :
    Sound (.request (.signOut sid n)) s ↔ Minds (.request (.signOut sid n)) s := by
  have hstep := step_signOut (s := s) sid n
  cases hhere : elsewhere sid (s.room.shared.info sid) with
  | true =>
    rw [hhere] at hstep
    refine ⟨fun _ h => absurd (hhere.symm.trans h) (by simp), fun _ => ⟨?_, trivial⟩⟩
    rw [hstep]
    exact hm
  | false =>
    rw [hhere] at hstep
    constructor
    · intro h _ data hdata hin
      have hmember := h.1.members n data
      rw [hstep] at hmember
      exact (mem_leave.1 (hmember hdata _ hin)).2.1 ⟨rfl, rfl⟩
    · intro h
      refine ⟨Guarded.managed ?_ (hk.step _), trivial⟩
      rw [hstep]
      exact hm.guarded.leave (h hhere)

theorem sound_iff (hk : Kept s) (hm : Managed s) (x : Step) : Sound x s ↔ Minds x s := by
  have hof : ∀ req, Only Tame (Req.handler req) → Managed (step (.request req) s) := fun req h => managed_of_only hk hm h
  cases x with
  | elsewhere room profile => exact iff_of_true ⟨⟨hm.members, hm.few⟩, trivial⟩ trivial
  | request req =>
  cases req with
  | addManager sid n a => exact addManager_iff hk hm sid n a
  | relieveManager sid n a => exact relieveManager_iff hk hm sid n a
  | signOut sid n => exact signOut_iff hk hm sid n
  | forceOut builder_sid member n =>
    refine iff_of_true ⟨Guarded.managed ?_ (hk.step _), trivial⟩ trivial
    rcases forceOut_cases (s := s) builder_sid member n with hstep | ⟨data, hdata, hout, hstep⟩ <;> rw [hstep]
    · exact hm.guarded
    · refine hm.guarded.leave fun data' h => ?_
      obtain rfl := Option.some.inj (hdata.symm.trans h)
      exact hout
  | create sid club_name => exact iff_of_true ⟨hof _ (only_create sid club_name), trivial⟩ trivial
  | delete sid n => exact iff_of_true ⟨hof _ (only_delete sid n), trivial⟩ trivial
  | edit sid n club_content => exact iff_of_true ⟨hof _ (only_edit sid n club_content), trivial⟩ trivial
  | join sid n => exact iff_of_true ⟨hof _ (only_join sid n), trivial⟩ trivial
  | apply sid n => exact iff_of_true ⟨hof _ (only_apply sid n), trivial⟩ trivial
  | audit sid n user status => exact iff_of_true ⟨hof _ (only_audit sid n user status), trivial⟩ trivial
  | settingAllow sid n => exact iff_of_true ⟨hof _ (only_settingAllow sid n), trivial⟩ trivial
  | autoCreate sid n gameid rule id => exact iff_of_true ⟨hof _ (only_autoCreate sid n gameid rule id), trivial⟩ trivial
  | clearAuto sid n => exact iff_of_true ⟨hof _ (only_clearAuto sid n), trivial⟩ trivial
  | createRoom form => exact iff_of_true ⟨hof _ (only_createRoom form), trivial⟩ trivial

theorem kept_init (room : Room.St) (profile : String → Profile) : Kept (init room profile) where
  listed _ := by simp [init]
  numerals _ h := absurd h List.not_mem_nil
  manager _ h := nomatch h

theorem managed_init (room : Room.St) (profile : String → Profile) : Managed (init room profile) where
  members _ _ h := nomatch h
  few _ _ h := nomatch h

end Managers

/-- In every run from no clubs: after each step every manager is a member, of three at most, and each relief is answered, if and
only if each step minds the managers. -/
theorem managers_are_members (room : Room.St) (profile : String → Profile) (steps : List Step) :
    All step Sound steps (init room profile) ↔ All step Minds steps (init room profile) :=
  all_iff (I := fun s => Kept s ∧ Managed s) (fun x _ hi => sound_iff hi.1 hi.2 x)
    (fun x _ hx hi => ⟨hi.1.step x, ((sound_iff hi.1 hi.2 x).2 hx).1⟩) ⟨kept_init room profile, managed_init room profile⟩

/-- Ann's club, of which Cid is made a manager who is no member. -/
theorem manager_is_stranger : ¬All step Sound [.request (.create "a" "club"), .request (.addManager "a" "2000" "cid")] noClubs := by
  rintro ⟨-, ⟨hm, -⟩, -⟩
  have hdata : ((after step [.request (.create "a" "club"), .request (.addManager "a" "2000" "cid")] noClubs).attrOf "2000").club_manager =
      some ((∅ : MemberSet String).sadd "cid") := by decide +kernel
  have hmember := hm.members "2000" _ hdata "cid" (by decide)
  exact absurd hmember (by decide +kernel)

end FishWeb.Club
