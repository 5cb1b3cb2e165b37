import FishWeb.Guild.Membership
/-!
# Applications that block an agent

`/agent/comfirmJoin` reads the result of each user on the list of the agent. A cancellation
takes a user off one list and deletes his result, a login of `hall/hall.py` deletes the result
of who is accepted, and a new application writes over it. The entries on other lists stay.

Left out: of the login, all but the join and the clean-up after it.
-/
open Python Prog Runs
open Function (update)

namespace FishWeb.Guild.Join.Stale

open Common

/-! ## The login of the hall -/

inductive Own : Type → Type
  | deleteMessage (id : String) : Own Unit

inductive Cmd (β : Type) : Type
  | join (c : Join.Cmd β)
  | own (c : Own β)

/-- The result of the user is deleted. -/
def cleaned (s : St) (id : String) : St := { s with message := update s.message id none }

instance : Exec Own Hall where
  exec
    | .deleteMessage id, s => ((), { s with guild := cleaned s.guild id })

instance : Exec Cmd Hall where
  exec
    | .join c, s => Exec.exec c s
    | .own c, s => Exec.exec c s

instance : Note Cmd Event where
  note
    | .join c, b => Note.note c b
    | .own _, _ => []

/-- A handler of `Guild.Join`. -/
def join {α : Type} (p : Prog Err Join.Cmd α) : Prog Err Cmd α := p.lift fun _ => .join

/-- The clean-up of `do_login`. -/
def cleanUp (id : String) : Prog Err Cmd Unit := do
  match ← join (guild (send (.getMessage id))) with
  | none => return ()
  | some joinMessage =>
    let _joinNum ← orRaise .ValueError (int (← orRaise .IndexError joinMessage[0]?))
    let joinResult ← orRaise .ValueError (int (← orRaise .IndexError joinMessage[1]?))
    if joinResult = 1 then .cmd (.own (.deleteMessage id)) .ret

/-- What follows the join of `do_login`. -/
def afterJoin (login_type : Int) (reAccount : String) : Prog Err Cmd Unit := do
  let realAccount ← join (realAccount login_type reAccount)
  let userTable ← orRaise .AttributeError (← join (guild (ask (.getUserTable (fmt realAccount)))))
  let id ← join (guild (idOf userTable))
  cleanUp id

/-- A login that is not turned away between the join and the clean-up. -/
def login (curTime : String) (login_type : Int) (reAccount : String) : Prog Err Cmd Unit := do
  join (autoJoin curTime login_type reAccount)
  afterJoin login_type reAccount

inductive Req where
  /-- A login among them is turned away after the join, as of a frozen account. -/
  | early (req : Join.Req)
  | login (curTime : String) (login_type : Int) (reAccount : String)

def Req.handler (fuel : Nat) : Req → Prog Err Cmd Unit
  | .early req => join (req.handler fuel)
  | .login curTime login_type reAccount => Stale.login curTime login_type reAccount

def next (fuel : Nat) (req : Req) (h : History) : History :=
  ⟨(run (req.handler fuel) h.st).2, (trace Event (req.handler fuel) h.st).foldl tell h.latest⟩

/-! ## What is expected -/

/-- The latest application of the user that he did not cancel, and that was not rejected, is to the agent, and not decided. -/
def Pending (h : History) (selfUid id : String) : Prop :=
  h.latest id = some selfUid ∧ ∃ joinMessage status, h.st.guild.message id = some joinMessage ∧ joinMessage[1]? = some status ∧
    int status = some 0

/-- A request of the agent ends, and if there is one on his list to approve, it approves one. -/
def Right (selfUid : String) (h : History) : Prop := ∃ reply s', run (comfirmJoin selfUid) h.st = (.ok reply, s') ∧
  ((∃ id ∈ h.st.guild.applied selfUid, Pending h selfUid id) →
    ∃ id ∈ h.st.guild.applied selfUid, Pending h selfUid id ∧ s' = { h.st with guild := comfirmed h.st.guild selfUid id })

/-- The user is on no other list. -/
def OnlyOn (s : St) (id groupId : String) : Prop := ∀ a, id ∈ s.applied a → a = groupId

/-- The result of the user is that he is accepted. -/
def Accepted (s : St) (id : String) : Prop :=
  ∃ joinMessage status, s.message id = some joinMessage ∧ joinMessage[1]? = some status ∧ int status = some 1

/-- No request leaves a user on a list whose result it deletes, or writes over by one that waits for another guild. -/
def Fits : Req → History → Prop
  | .early (.join _ sid groupId), h => ∀ account id, h.st.guild.shared.hall sid = .ok (account, userTableOf id) →
      (h.st.guild.agentOf groupId).auto_check.bind int = some 0 → OnlyOn h.st.guild id groupId
  | .early (.cancle sid), h => ∀ account id joinMessage joinNum, h.st.guild.shared.hall sid = .ok (account, userTableOf id) →
      h.st.guild.message id = some joinMessage → joinMessage[0]?.bind int = some joinNum → OnlyOn h.st.guild id (toString joinNum)
  | .early (.login _ login_type reAccount), h => ∀ id groupId, h.st.Logs login_type reAccount id → h.st.joins reAccount = some groupId →
      ∃ k, int (joinStatus h.st.guild groupId) = some k ∧ (k = 0 → OnlyOn h.st.guild id groupId)
  | .login _ login_type reAccount, h => ∀ id, h.st.Logs login_type reAccount id →
      (∀ groupId, h.st.joins reAccount = some groupId →
        ∃ k, int (joinStatus h.st.guild groupId) = some k ∧ k ≠ 1 ∧ (k = 0 → OnlyOn h.st.guild id groupId)) ∧
      (h.st.joins reAccount = none → Accepted h.st.guild id → ∀ a, id ∉ h.st.guild.applied a)
  | _, _ => True

/-! ## Lists in good order -/

section Tidy
variable {s : St} {id g : String}

/-- The user has a number and a result, which waits for this agent or is decided. -/
def Sound (s : St) (selfUid id : String) : Prop :=
  (∃ n, int id = some n ∧ 0 < n) ∧ ∃ joinNum status rest k, s.message id = some (joinNum :: status :: rest) ∧ int status = some k ∧
    (k = 0 → joinNum = selfUid)

def Tidy (s : St) : Prop := ∀ a, ∀ u ∈ s.applied a, Sound s a u

/-- The entries of the other users stay in order. -/
theorem Sound.of_message {s' : St} {a u : String} (h : Sound s a u) (hmessage : s'.message u = s.message u) : Sound s' a u := by
  unfold Sound
  rw [hmessage]
  exact h

theorem Tidy.applies (ht : Tidy s) (hid : ∃ n, int id = some n ∧ 0 < n) {status t : String} {k : Int} (hk : int status = some k)
    (honly : k = 0 → OnlyOn s id g) : Tidy (applies s id g [g, status, t]) := by
  intro a u hu
  have hu' : u ∈ update s.applied g (id :: s.applied g) a := hu
  by_cases hself : u = id
  · subst hself
    refine ⟨hid, g, status, [t], k, Function.update_self .., hk, fun hzero => ?_⟩
    by_cases ha : a = g
    · exact ha.symm
    · rw [Function.update_of_ne ha] at hu'
      exact (honly hzero a hu').symm
  · refine (ht a u ?_).of_message (Function.update_of_ne hself ..)
    by_cases ha : a = g
    · rw [ha, Function.update_self] at hu'
      rw [ha]
      exact (List.mem_cons.1 hu').resolve_left hself
    · rwa [Function.update_of_ne ha] at hu'

theorem Tidy.struck (ht : Tidy s) : Tidy (struck s g id) := by
  intro a u hu
  exact ht a u ((mem_strike s.applied u a).1 hu).2

theorem Tidy.comfirmed (ht : Tidy s) : Tidy (comfirmed s g id) := by
  intro a u hu
  have hsound := ht a u ((mem_strike s.applied u a).1 hu).2
  by_cases hself : u = id
  · subst hself
    exact ⟨hsound.1, g, "1", [], 1, Function.update_self .., by decide, fun hzero => nomatch hzero⟩
  · exact hsound.of_message (Function.update_of_ne hself ..)

theorem Tidy.cancelled (ht : Tidy s) {joinNum : Int} (honly : OnlyOn s id (toString joinNum)) : Tidy (cancelled s joinNum id) := by
  intro a u hu
  obtain ⟨hoff, hon⟩ := (mem_strike s.applied u a).1 hu
  have hself : u ≠ id := by
    rintro rfl
    exact hoff ⟨honly a hon, rfl⟩
  exact (ht a u hon).of_message (Function.update_of_ne hself ..)

theorem Tidy.cleaned (ht : Tidy s) (hoff : ∀ a, id ∉ s.applied a) : Tidy (cleaned s id) := by
  intro a u hu
  have hself : u ≠ id := by
    rintro rfl
    exact hoff a hu
  exact (ht a u hu).of_message (Function.update_of_ne hself ..)

end Tidy

/-! ## The scan -/

section Scan
variable {s : Hall} {selfUid : String} {l : List String}

/-- Over a list in good order, the scan ends, and the first who waits is let in. -/
theorem run_comfirmFirst (hsound : ∀ u ∈ l, Sound s.guild selfUid u) :
    (∀ u ∈ l, ¬Waiting s.guild u) ∧ run (comfirmFirst selfUid l) s = (.ok (bare 1), s) ∨
      ∃ reply, ∃ u ∈ l, Waiting s.guild u ∧
        run (comfirmFirst selfUid l) s = (.ok reply, { s with guild := comfirmed s.guild selfUid u }) := by
  induction l with
  | nil => exact .inl ⟨fun u hu => (nomatch hu), rfl⟩
  | cons id l ih =>
    obtain ⟨⟨n, hn, hpos⟩, joinNum, status, rest, k, hmessage, hk, -⟩ := hsound id List.mem_cons_self
    have hround : run (comfirmFirst selfUid (id :: l)) s = run (do
        if k = 0 then
          guild (memberJoinComfirm selfUid id)
          return .fail 0 ("会员[" ++ id ++ "]审核成功.")
        else comfirmFirst selfUid l : Prog Err Join.Cmd Reply) s := by
      have hread : Ran (guild (send (.getMessage id))) s (.ok (s.guild.message id)) s ([] : List Event) :=
        Ran.guild (read s.guild (.getMessage id) rfl rfl)
      rw [comfirmFirst, hn, orRaise_some, ret_bind, if_neg (not_le.2 hpos), run_bind_ok hread.run, hmessage, orRaise_some, ret_bind,
        List.getElem?_cons_succ, List.getElem?_cons_zero, orRaise_some, ret_bind, hk, orRaise_some, ret_bind]
    rw [hround]
    by_cases hzero : k = 0
    · refine .inr ⟨.fail 0 ("会员[" ++ id ++ "]审核成功."), id, List.mem_cons_self, ⟨⟨n, hn, hpos⟩, _, status, hmessage, rfl, ?_⟩, ?_⟩
      · rw [hk, hzero]
      · rw [if_pos hzero]
        rfl
    · rw [if_neg hzero]
      rcases ih fun u hu => hsound u (List.mem_cons_of_mem _ hu) with ⟨hnone, hrun⟩ | ⟨reply, u, hu, hwait, hrun⟩
      · refine .inl ⟨fun u hu => ?_, hrun⟩
        rcases List.mem_cons.1 hu with rfl | hu
        · rintro ⟨-, m, st, hm, hst, hint⟩
          rw [hmessage] at hm
          obtain rfl := Option.some.inj hm
          obtain rfl : status = st := Option.some.inj hst
          exact hzero (Option.some.inj (hk.symm.trans hint))
        · exact hnone u hu
      · exact .inr ⟨reply, u, List.mem_cons_of_mem _ hu, hwait, hrun⟩

end Scan

/-- What a run keeps. -/
structure Kept (h : History) : Prop where
  tables : Tables h.st.guild.shared
  /-- Users are numbered. -/
  numbered : ∀ account id, h.st.guild.shared.userTable account = some (userTableOf id) → ∃ n, int id = some n ∧ 0 < n
  told : Told h.st.guild h.latest
  tidy : Tidy h.st.guild

theorem Kept.right {h : History} (hk : Kept h) (selfUid : String) : Right selfUid h := by
  have hrun : run (comfirmJoin selfUid) h.st = run (comfirmFirst selfUid (h.st.guild.applied selfUid)) h.st := rfl
  unfold Right
  rw [hrun]
  rcases run_comfirmFirst (hk.tidy selfUid) with ⟨hnone, hscan⟩ | ⟨reply, id, hid, hwait, hscan⟩
  · refine ⟨_, _, hscan, ?_⟩
    rintro ⟨id, hid, -, hundecided⟩
    exact absurd ⟨(hk.tidy selfUid id hid).1, hundecided⟩ (hnone id hid)
  · refine ⟨reply, _, hscan, fun _ => ⟨id, hid, ⟨?_, hwait.2⟩, rfl⟩⟩
    obtain ⟨-, joinNum, status, rest, k, hmessage, hint, hself⟩ := hk.tidy selfUid id hid
    obtain ⟨-, m, st, hm, hst, hzero⟩ := hwait
    rw [hmessage] at hm
    obtain rfl := Option.some.inj hm
    obtain rfl : status = st := Option.some.inj hst
    obtain rfl : k = 0 := Option.some.inj (hint.symm.trans hzero)
    rw [hself rfl] at hmessage
    exact hk.told id selfUid _ hid hmessage

/-! ## The requests, one by one -/

/-- What the history is after a part of a request. -/
def After {α : Type} (h : History) (_ : Except Err α) (s' : Hall) (l : List Event) : Prop := Kept ⟨s', l.foldl tell h.latest⟩

section Steps
variable {h : History} {id g : String}

theorem Kept.nothing {α : Type} (hk : Kept h) {r : Except Err α} : After h r h.st [] := hk

/-- A user applies, from a store that has the lists and the results as they were. -/
theorem Kept.applies (hk : Kept h) (hid : ∃ n, int id = some n ∧ 0 < n) {s' : St} (hshared : s'.shared = h.st.guild.shared)
    (happlied : s'.applied = h.st.guild.applied) (hmessage : s'.message = h.st.guild.message) {status t : String} {k : Int}
    (hstatus : int status = some k) (honly : k = 0 → OnlyOn h.st.guild id g) :
    Kept ⟨{ h.st with guild := applies s' id g [g, status, t] }, update h.latest id (some g)⟩ := by
  have htold : Told s' h.latest := by
    unfold Told
    rw [happlied, hmessage]
    exact hk.told
  have htidy : Tidy s' := by
    unfold Tidy Sound
    rw [happlied, hmessage]
    exact hk.tidy
  have honly' : k = 0 → OnlyOn s' id g := by
    unfold OnlyOn
    rw [happlied]
    exact honly
  exact ⟨hshared ▸ hk.tables, hshared ▸ hk.numbered, Told.applies htold _, htidy.applies hid hstatus honly'⟩

theorem Leaves.same {s s' : St} (hl : Leaves s id s') : s'.shared = s.shared ∧ s'.applied = s.applied ∧ s'.message = s.message := by
  rcases hl with ⟨-, rfl⟩ | ⟨topAgId, roomcard, rfl⟩
  · exact ⟨rfl, rfl, rfl⟩
  · exact ⟨rfl, rfl, rfl⟩

/-- Who is let in at once has the lists and the results as they were. -/
theorem entered_same (id g : String) (accepted : Bool) (s : St) : (if accepted then entered s id g else s).shared = s.shared ∧
    (if accepted then entered s id g else s).applied = s.applied ∧ (if accepted then entered s id g else s).message = s.message := by
  cases accepted with
  | true => exact ⟨rfl, rfl, rfl⟩
  | false => exact ⟨rfl, rfl, rfl⟩

theorem autoCheck_pending {auto_check : Option String} (h : autoCheck auto_check = .ret 0) : auto_check.bind int = some 0 := by
  unfold autoCheck at h
  cases auto_check with
  | none => cases h
  | some text =>
    rw [Option.getD_some, fmt_some] at h
    split at h
    · cases h
    · rw [Option.bind_some]
      cases hint : int text with
      | none =>
        rw [hint] at h
        cases h
      | some k =>
        rw [hint] at h
        cases h
        rfl

/-- The user of a session has a number. -/
theorem Kept.number (hk : Kept h) {sid : String} {account : Option String} (hall : h.st.guild.shared.hall sid = .ok (account, userTableOf id)) :
    ∃ n, int id = some n ∧ 0 < n := by
  obtain ⟨-, -, htable, -⟩ := Shared.hall_ok hall
  cases huser : h.st.guild.shared.userTable (fmt account) with
  | none =>
    rw [huser] at htable
    have hlist := congrArg String.toList htable
    simp [userTableOf, fmt] at hlist
  | some table =>
    rw [huser, fmt_some] at htable
    exact hk.numbered (fmt account) id (htable ▸ huser)

/-- What is kept is about the guilds. -/
theorem Kept.of_guild (hk : Kept h) {w : Hall} (hw : w.guild = h.st.guild) : Kept ⟨w, h.latest⟩ :=
  ⟨hw ▸ hk.tables, hw ▸ hk.numbered, hw ▸ hk.told, hw ▸ hk.tidy⟩

theorem Kept.comfirmed (hk : Kept h) : Kept ⟨{ h.st with guild := comfirmed h.st.guild g id }, h.latest⟩ :=
  ⟨hk.tables, hk.numbered, Told.comfirmed hk.told, hk.tidy.comfirmed⟩

theorem comes_early (hk : Kept h) (fuel : Nat) (req : Join.Req) (hfits : Fits (.early req) h) :
    Comes (After h) (req.handler fuel) h.st := by
  cases req with
  | join curTime sid groupId =>
    refine comes_ignore ((comes_guild (comes_joinGroup hk.tables fuel curTime sid groupId)).mono ?_)
    rintro _ _ l ⟨g, rfl, ⟨rfl, rfl⟩ | ⟨account, id, s', k, hall, hcheck, hleaves, -, rfl, rfl⟩⟩
    · exact hk
    · obtain ⟨hshared, happlied, hmessage⟩ := Leaves.same hleaves
      obtain ⟨hshared', happlied', hmessage'⟩ := entered_same id groupId (decide (k = CHECK_SUCCESS)) s'
      refine hk.applies (hk.number hall) (hshared'.trans hshared) (happlied'.trans happlied) (hmessage'.trans hmessage)
        (int_toString_int k) fun hzero => ?_
      rw [hzero] at hcheck
      exact hfits account id hall (autoCheck_pending hcheck)
  | cancle sid =>
    refine comes_ignore ((comes_cancleJoin hk.tables sid).mono ?_)
    rintro _ _ l (⟨rfl, rfl⟩ | ⟨account, id, joinMessage, joinNum, hall, hmessage, hnum, rfl, rfl⟩)
    · exact hk
    · exact ⟨hk.tables, hk.numbered, Told.cancelled hk.told joinNum, hk.tidy.cancelled (hfits account id joinMessage joinNum hall hmessage hnum)⟩
  | login curTime login_type reAccount =>
    refine (comes_autoJoin hk.tables curTime login_type reAccount).mono ?_
    rintro _ _ l (⟨rfl, rfl, -⟩ | ⟨id, groupId, hlogs, hjoins, rfl, rfl⟩)
    · exact hk
    · obtain ⟨k, hstatus, honly⟩ := hfits id groupId hlogs hjoins
      obtain ⟨hshared, happlied, hmessage⟩ := entered_same id groupId _ h.st.guild
      exact hk.applies (hk.numbered _ id hlogs) hshared happlied hmessage hstatus honly
  | comfirmJoin selfUid =>
    have hscan : Comes (Does h.st (.comfirmJoin selfUid)) (comfirmFirst selfUid (h.st.guild.applied selfUid)) h.st :=
      comes_comfirmFirst [] _ rfl fun _ hu => absurd hu List.not_mem_nil
    refine comes_ignore ((comes_bind (ran_quiet rfl (ran_ret _ _)) hscan).mono ?_)
    rintro _ w l ⟨heffect, -, -⟩
    generalize hw : w.guild = g at heffect
    cases heffect with
    | nothing => exact hk.of_guild hw
    | comfirmJoin => exact hk.comfirmed.of_guild hw
  | comfirm selfUid memberId =>
    show Comes _ ((if memberId = "" then _ else _) >>= fun _ => _) h.st
    split
    · exact hk
    · exact hk.comfirmed
  | reject selfUid memberId =>
    show Comes _ ((if memberId = "" then _ else _) >>= fun _ => _) h.st
    split
    · exact hk
    · exact ⟨hk.tables, hk.numbered, Told.struck hk.told, hk.tidy.struck⟩

theorem part_join : Part (C := Join.Cmd) (D := Cmd) (fun _ => Cmd.join) (fun s : Hall => s) (fun _ s => s) where
  exec _ _ _ := rfl
  view_put _ _ := rfl
  put_put _ _ _ := rfl
  put_view _ := rfl

theorem Ran.join {α : Type} {p : Prog Err Join.Cmd α} {s s' : Hall} {r : Except Err α} {l : List Event} (hp : Ran p s r s' l) :
    Ran (join p) s r s' l := by
  have hl : Ran (Stale.join p) s r s' (l.map id) := hp.lift part_join fun _ _ _ => (List.map_id _).symm
  rwa [List.map_id] at hl

/-- The clean-up deletes the result of who is accepted. -/
theorem comes_cleanUp (s : Hall) (id : String) :
    Comes (fun _ s' l => l = ([] : List Event) ∧ (s' = s ∨ Accepted s.guild id ∧ s' = { s with guild := cleaned s.guild id })) (cleanUp id) s := by
  have hread : Ran (Stale.join (guild (send (.getMessage id)))) s (.ok (s.guild.message id)) s ([] : List Event) :=
    Ran.join (Ran.guild (read s.guild (.getMessage id) rfl rfl))
  unfold cleanUp Accepted
  refine comes_bind hread ?_
  cases s.guild.message id with
  | none => exact ⟨rfl, .inl rfl⟩
  | some joinMessage =>
    dsimp only
    cases joinMessage[0]? with
    | none => exact ⟨rfl, .inl rfl⟩
    | some joinNum =>
    rw [orRaise_some, ret_bind]
    cases int joinNum with
    | none => exact ⟨rfl, .inl rfl⟩
    | some n =>
    rw [orRaise_some, ret_bind]
    cases hstatus : joinMessage[1]? with
    | none => exact ⟨rfl, .inl rfl⟩
    | some status =>
    rw [orRaise_some, ret_bind]
    cases hint : int status with
    | none => exact ⟨rfl, .inl rfl⟩
    | some joinResult =>
    rw [orRaise_some, ret_bind]
    split
    · rename_i hone
      exact ⟨rfl, .inr ⟨⟨joinMessage, status, rfl, hstatus, hone ▸ hint⟩, rfl⟩⟩
    · exact ⟨rfl, .inl rfl⟩

theorem comes_afterJoin {s : Hall} (ht : Tables s.guild.shared) (login_type : Int) (reAccount : String) :
    Comes (fun _ s' l => l = ([] : List Event) ∧ (s' = s ∨ ∃ id, s.Logs login_type reAccount id ∧ Accepted s.guild id ∧
      s' = { s with guild := cleaned s.guild id })) (afterJoin login_type reAccount) s := by
  have hreal : Ran (realAccount login_type reAccount) s (.ok (if login_type ≠ 0 then s.weixin reAccount else some reAccount)) s
      ([] : List Event) := by
    unfold realAccount
    split
    · exact ran_quiet rfl (ran_ret _ _)
    · exact ran_ret _ _
  unfold afterJoin
  refine comes_bind (Ran.join hreal) (comes_bind (Ran.join (Ran.guild (ran_quiet rfl (ran_ret _ _)))) ?_)
  show Comes _ (orRaise Err.AttributeError (s.guild.shared.userTable (fmt (if login_type ≠ 0 then s.weixin reAccount else some reAccount))) >>= _) s
  unfold Hall.Logs
  cases htable : s.guild.shared.userTable (fmt (if login_type ≠ 0 then s.weixin reAccount else some reAccount)) with
  | none => exact ⟨rfl, .inl rfl⟩
  | some userTable =>
    obtain ⟨id, rfl, hid⟩ := ht _ _ htable
    rw [orRaise_some, ret_bind]
    refine comes_bind (Ran.join (Ran.guild (ran_idOf hid))) ((comes_cleanUp s id).mono ?_)
    rintro _ _ l ⟨rfl, rfl | ⟨haccepted, rfl⟩⟩
    · exact ⟨rfl, .inl rfl⟩
    · exact ⟨rfl, .inr ⟨id, rfl, haccepted, rfl⟩⟩

theorem Kept.cleaned (hk : Kept h) (hoff : ∀ a, id ∉ h.st.guild.applied a) :
    Kept ⟨{ h.st with guild := cleaned h.st.guild id }, h.latest⟩ where
  tables := hk.tables
  numbered := hk.numbered
  told u a r hu hmessage := by
    have hself : u ≠ id := by
      rintro rfl
      exact hoff a hu
    have hold : update h.st.guild.message id none u = some (a :: r) := hmessage
    rw [Function.update_of_ne hself] at hold
    exact hk.told u a r hu hold
  tidy := hk.tidy.cleaned hoff

/-- Who is in no other guild's way joins at login, and his result is not deleted while he is on a list. -/
theorem kept_joined (hk : Kept h) {curTime : String} {login_type : Int} {reAccount : String}
    (hfits : Fits (.login curTime login_type reAccount) h) :
    Comes (fun _ s₁ l => Kept ⟨s₁, l.foldl tell h.latest⟩ ∧
      ∀ id, s₁.Logs login_type reAccount id → Accepted s₁.guild id → ∀ a, id ∉ s₁.guild.applied a)
      (autoJoin curTime login_type reAccount) h.st := by
  refine (comes_autoJoin hk.tables curTime login_type reAccount).mono ?_
  rintro _ _ l (⟨rfl, rfl, hnone⟩ | ⟨id, groupId, hlogs, hjoins, rfl, rfl⟩)
  · exact ⟨hk, fun id hlogs haccepted => (hfits id hlogs).2 (hnone id hlogs) haccepted⟩
  · obtain ⟨k, hstatus, hone, honly⟩ := (hfits id hlogs).1 groupId hjoins
    obtain ⟨hshared, happlied, hmessage⟩ := entered_same id groupId
      (decide ((h.st.guild.agentOf groupId).auto_check.getD "" = "")) h.st.guild
    refine ⟨hk.applies (hk.numbered _ id hlogs) hshared happlied hmessage hstatus honly, ?_⟩
    rintro id' hlogs' ⟨joinMessage, status, hm, hst, haccepted⟩
    -- the result is the one just written, which does not accept
    have hsame : id' = id := by
      have htable : (if (decide ((h.st.guild.agentOf groupId).auto_check.getD "" = "") : Bool) then entered h.st.guild id groupId
          else h.st.guild).shared.userTable _ = some (userTableOf id') := hlogs'
      rw [hshared] at htable
      exact userTableOf_inj (Option.some.inj (htable.symm.trans hlogs))
    subst hsame
    have hwritten := hm.symm.trans (Function.update_self ..)
    obtain rfl := Option.some.inj hwritten
    obtain rfl : joinStatus h.st.guild groupId = status := Option.some.inj hst
    exact absurd (Option.some.inj (hstatus.symm.trans haccepted)) hone

theorem comes_login (hk : Kept h) (curTime : String) (login_type : Int) (reAccount : String)
    (hfits : Fits (.login curTime login_type reAccount) h) : Comes (After h) (login curTime login_type reAccount) h.st := by
  obtain ⟨hjoined, hoff⟩ := kept_joined hk hfits
  unfold login
  generalize hl : trace Event (autoJoin curTime login_type reAccount) h.st = l at hjoined
  cases hrun : run (autoJoin curTime login_type reAccount) h.st with
  | mk r s₁ =>
  rw [hrun] at hjoined hoff
  have hran : Ran (join (autoJoin curTime login_type reAccount)) h.st r s₁ l := Ran.join ⟨hrun, hl⟩
  cases r with
  | error e => exact hran.bind_error.comes hjoined
  | ok u =>
    have hrest := comes_afterJoin hjoined.tables login_type reAccount
    refine (hran.bind ⟨rfl, rfl⟩).comes ?_
    obtain ⟨hquiet, hstays | ⟨id, hlogs, haccepted, hcleaned⟩⟩ := hrest
    · rw [hquiet, hstays, List.append_nil]
      exact hjoined
    · rw [hquiet, hcleaned, List.append_nil]
      exact hjoined.cleaned (hoff id hlogs haccepted)

end Steps

/-- What a request that fits keeps. -/
theorem Kept.next {h : History} (hk : Kept h) (fuel : Nat) {req : Req} (hfits : Fits req h) : Kept (next fuel req h) := by
  cases req with
  | early req =>
    have hran : Ran (Stale.join (req.handler fuel)) h.st _ _ _ := Ran.join ⟨rfl, rfl⟩
    exact hran.comes (comes_early hk fuel req hfits)
  | login curTime login_type reAccount => exact comes_login hk curTime login_type reAccount hfits

/-! ## Runs -/

/-- What requests do not change, where users have their number from a counter. -/
structure Registered extends Setup where
  numbered : ∀ account id, shared.userTable account = some (userTableOf id) → ∃ n, int id = some n ∧ 0 < n

theorem kept_start (c : Registered) : Kept c.start where
  tables := c.tables
  numbered := c.numbered
  told _ _ _ hu _ := absurd hu List.not_mem_nil
  tidy _ _ hu := absurd hu List.not_mem_nil

/-- In every run of requests that fit, no application blocks an agent in any state reached. -/
theorem stale_never_block (fuel : Nat) (c : Registered) (reqs : List Req) (hfits : All (next fuel) Fits reqs c.start) :
    (∀ selfUid, Right selfUid c.start) ∧ All (next fuel) (fun req h => ∀ selfUid, Right selfUid (next fuel req h)) reqs c.start := by
  refine ⟨(kept_start c).right, ?_⟩
  exact all_of_inv (I := Kept) (fun _ _ hfits hk => hk.next fuel hfits) (fun _ _ hfits hk => (hk.next fuel hfits).right) hfits (kept_start c)

/-- The guilds `2` and `3` with the user `7`. -/
def registered : Registered where
  toSetup := twoGuilds
  numbered account id h := by
    have htable : (if account = "acc" then some (userTableOf "7") else none) = some (userTableOf id) := h
    split at htable
    · obtain rfl := userTableOf_inj (Option.some.inj htable)
      exact ⟨7, by decide, by decide⟩
    · cases htable

/-- The user applies, and the agent lets him in. -/
theorem stale_never_block_applied : (∀ selfUid, Right selfUid registered.start) ∧
    All (next 2) (fun req h => ∀ selfUid, Right selfUid (next 2 req h)) [.early (.join "" "s" "2"), .early (.comfirmJoin "2")] registered.start :=
  stale_never_block 2 registered _ ⟨fun _ _ _ _ _ hon => absurd hon List.not_mem_nil, trivial, trivial⟩

/-- He applies to both guilds and cancels, which leaves him on the list of the first. -/
theorem cancelled_blocks : ¬((∀ selfUid, Right selfUid registered.start) ∧
    All (next 2) (fun req h => ∀ selfUid, Right selfUid (next 2 req h))
      [.early (.join "" "s" "2"), .early (.join "" "s" "3"), .early (.cancle "s")] registered.start) := by
  rintro ⟨-, -, -, hright, -⟩
  obtain ⟨reply, s', hrun, -⟩ := hright "2"
  have hraises : (run (comfirmJoin "2") (next 2 (.early (.cancle "s")) (next 2 (.early (.join "" "s" "3"))
      (next 2 (.early (.join "" "s" "2")) registered.start))).st).1.isOk = false := by decide +kernel
  rw [hrun] at hraises
  cases hraises

end FishWeb.Guild.Join.Stale
