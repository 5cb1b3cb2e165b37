import FishWeb.Lib.Calendar
import FishWeb.Lib.Prog
/-!
# What most handlers begin with

`getInfoBySid` of `common/utilt.py`, `check_session_verfiy` of
`model/hallModel.py` and `check_spring_time` of `model/fishModel.py`, beside
the commands of the handler itself (`With`). The first two are written for any server that
has their commands (`SessionCmds`). The record of a session is found under its
sid; the newest sid of a user is kept apart from the records, under the user's id.
Left out: the lifetime of a session.
-/
open Python Calendar

namespace FishWeb.Common

/-- `convert_util.to_int` -/
def toInt (x : Option String) : Int := (x.bind int).getD 0

/-! ## Commands -/

/-- What the shared parts ask. -/
inductive Ask : Type → Type
  /-- `hmget (FORMAT_USER_HALL_SESSION % sid, ('account', 'uid'))` -/
  | hmgetSession (sid : String) : Ask (Option String × Option String)
  /-- `get (FORMAT_USER_PLATFORM_SESSION % uid)` -/
  | getPlatform (uid : String) : Ask (Option String)
  /-- `exists('kick:session:%s' % sid)` -/
  | existsKick (sid : String) : Ask Bool
  | existsSession (sid : String) : Ask Bool
  /-- `get (FORMAT_ACCOUNT2USER_TABLE % account)` -/
  | getUserTable (account : String) : Ask (Option String)
  | existsUser (userTable : String) : Ask Bool
  /-- `exists(ACTIVE_CONFIG_ONE_HESH % active_id)` -/
  | existsActive (active_id : Nat) : Ask Bool
  /-- `hmget (ACTIVE_CONFIG_ONE_HESH % active_id, ('start_time', 'end_time'))` -/
  | hmgetActive (active_id : Nat) : Ask (Option String × Option String)

/-- What the answers come from. -/
structure Shared where
  /-- The account and the user id of the record of a session. -/
  session : String → Option (String × String)
  platform : String → Option String
  kick : String → Bool
  userTable : String → Option String
  isUser : String → Bool
  /-- The dates of an activity. -/
  active : Nat → Option (Option String × Option String)

def Shared.answer {β : Type} (s : Shared) : Ask β → β
  | .hmgetSession sid => ((s.session sid).map Prod.fst, (s.session sid).map Prod.snd)
  | .getPlatform uid => s.platform uid
  | .existsKick sid => s.kick sid
  | .existsSession sid => (s.session sid).isSome
  | .getUserTable account => s.userTable account
  | .existsUser userTable => s.isUser userTable
  | .existsActive active_id => (s.active active_id).isSome
  | .hmgetActive active_id => (s.active active_id).getD (none, none)

/-- The commands of the shared parts and those of `D`. -/
inductive With (D : Type → Type) (β : Type) : Type
  | ask (a : Ask β)
  | own (c : D β)

/-- The part of a store that the shared parts read. -/
class HasShared (S : Type) where
  shared : S → Shared

instance {D : Type → Type} {S : Type} [HasShared S] [Exec D S] : Exec (With D) S where
  exec
    | .ask a, s => ((HasShared.shared s).answer a, s)
    | .own c, s => Exec.exec c s

instance {D : Type → Type} {Ev : Type} [Note D Ev] : Note (With D) Ev where
  note
    | .ask _, _ => []
    | .own c, b => Note.note c b

section Handlers
variable {D : Type → Type}

open Prog (orRaise)

def ask {β : Type} (a : Ask β) : Prog Err (With D) β := .cmd (.ask a) .ret

def send {β : Type} (c : D β) : Prog Err (With D) β := .cmd (.own c) .ret

/-! ## Sessions -/

/-- What `getInfoBySid` returns, without the key of the session. -/
structure Info where
  account : Option String
  uid : Option String
  verfiySid : Option String

/-- `{'code': .., 'msg': ..}`, with an `osid` where the user logged in elsewhere. -/
structure Refusal where
  code : Int
  msg : String
  osid : Option String
  deriving Repr, DecidableEq

/-- What the check of a session asks, among the commands of a server. -/
structure SessionCmds (C : Type → Type) where
  hmgetSession (sid : String) : C (Option String × Option String)
  getPlatform (uid : String) : C (Option String)
  existsKick (sid : String) : C Bool
  existsSession (sid : String) : C Bool
  getUserTable (account : String) : C (Option String)
  existsUser (userTable : String) : C Bool

namespace SessionCmds
variable {C : Type → Type} (cmds : SessionCmds C)

open Prog (call)

/-- `getInfoBySid` -/
def getInfoBySid (sid : String) : Prog Err C Info := do
  let (account, uid) ← call (cmds.hmgetSession sid)
  let verfiySid ← call (cmds.getPlatform (fmt uid))
  return ⟨account, uid, verfiySid⟩

/-- `check_session_verfiy`: what to answer, or the table of the user. -/
def checkSessionVerfiy (sid : String) (info : Info) : Prog Err C (Except Refusal String) := do
  let verfiySid := info.verfiySid.getD ""
  if verfiySid ≠ "" ∧ sid ≠ verfiySid then return .error ⟨-4, "账号已在其他地方登录", some "1"⟩
  if ← call (cmds.existsKick sid) then return .error ⟨-4, "账号已在其他地方登录", some "1"⟩
  if !(← call (cmds.existsSession sid)) then return .error ⟨-3, "sid 超时", none⟩
  let user_table := fmt (← call (cmds.getUserTable (fmt info.account)))
  if !(← call (cmds.existsUser user_table)) then return .error ⟨-5, "该用户不存在", none⟩
  return .ok user_table

end SessionCmds

/-- What is asked here. -/
def asked : SessionCmds (With D) where
  hmgetSession sid := .ask (.hmgetSession sid)
  getPlatform uid := .ask (.getPlatform uid)
  existsKick sid := .ask (.existsKick sid)
  existsSession sid := .ask (.existsSession sid)
  getUserTable account := .ask (.getUserTable account)
  existsUser userTable := .ask (.existsUser userTable)

def getInfoBySid (sid : String) : Prog Err (With D) Info := asked.getInfoBySid sid

def checkSessionVerfiy (sid : String) (info : Info) : Prog Err (With D) (Except Refusal String) := asked.checkSessionVerfiy sid info

/-- What the handlers of the hall begin with: what to answer, or the account and the table of the user. -/
def hallUser (sid : String) : Prog Err (With D) (Except Refusal (Option String × String)) := do
  let info ← getInfoBySid sid
  let verfiySid := info.verfiySid.getD ""
  if verfiySid ≠ "" ∧ sid ≠ verfiySid then return .error ⟨-4, "账号已在其他地方登录", some sid⟩
  if !(← ask (.existsSession sid)) then return .error ⟨-3, "sid 超时", none⟩
  let userTable := fmt (← ask (.getUserTable (fmt info.account)))
  if !(← ask (.existsUser userTable)) then return .error ⟨-5, "该用户不存在", none⟩
  return .ok (info.account, userTable)

/-! ## Activities -/

/-- `time.strptime(date, '%Y-%m-%d')` of a date that may be missing. -/
def strptimeOf (date : Option String) : Prog Err (With D) Date := do
  let date ← orRaise .TypeError date
  orRaise .ValueError (strptime date)

/-- `check_spring_time(redis, active_id)` on the day `curTime`. -/
def checkSpringTime (curTime : Date) (active_id : Nat) : Prog Err (With D) (Bool × String) := do
  let springTime ← ask (.existsActive active_id)
  let (start_date, end_date) ← ask (.hmgetActive active_id)
  if springTime then
    let s_time ← strptimeOf start_date
    let e_time ← strptimeOf end_date
    if curTime < s_time then return (false, "活动未开始")
    if e_time < curTime then return (false, "活动已结束")
    return (true, "活动开放中")
  else return (false, "活动未开始")

end Handlers

/-! ## What they come to -/

/-- What `getInfoBySid` reads. -/
def Shared.info (s : Shared) (sid : String) : Info where
  account := (s.session sid).map Prod.fst
  uid := (s.session sid).map Prod.snd
  verfiySid := s.platform (fmt ((s.session sid).map Prod.snd))

/-- What `check_session_verfiy` says to the session. -/
def Shared.verfiy (s : Shared) (sid : String) : Except Refusal String :=
  let user_table := fmt (s.userTable (fmt (s.info sid).account))
  if (s.info sid).verfiySid.getD "" ≠ "" ∧ sid ≠ (s.info sid).verfiySid.getD "" then
    .error ⟨-4, "账号已在其他地方登录", some "1"⟩
  else if s.kick sid then .error ⟨-4, "账号已在其他地方登录", some "1"⟩
  else if !(s.session sid).isSome then .error ⟨-3, "sid 超时", none⟩
  else if !s.isUser user_table then .error ⟨-5, "该用户不存在", none⟩
  else .ok user_table

/-- What the handlers of the hall say to the session. -/
def Shared.hall (s : Shared) (sid : String) : Except Refusal (Option String × String) :=
  let userTable := fmt (s.userTable (fmt (s.info sid).account))
  if (s.info sid).verfiySid.getD "" ≠ "" ∧ sid ≠ (s.info sid).verfiySid.getD "" then
    .error ⟨-4, "账号已在其他地方登录", some sid⟩
  else if !(s.session sid).isSome then .error ⟨-3, "sid 超时", none⟩
  else if !s.isUser userTable then .error ⟨-5, "该用户不存在", none⟩
  else .ok ((s.info sid).account, userTable)

section Run
variable {D : Type → Type} {S : Type} [HasShared S] [Exec D S]

open Prog HasShared

@[simp] theorem exec_ask {β : Type} (a : Ask β) (s : S) : Exec.exec (With.ask a : With D β) s = ((shared s).answer a, s) := rfl

@[simp] theorem exec_own {β : Type} (c : D β) (s : S) : Exec.exec (With.own c : With D β) s = Exec.exec c s := rfl

theorem run_getInfoBySid (sid : String) (s : S) : run (getInfoBySid sid : Prog Err (With D) Info) s = (.ok ((shared s).info sid), s) :=
  rfl

theorem run_checkSessionVerfiy (sid : String) (s : S) :
    run (checkSessionVerfiy sid ((shared s).info sid) : Prog Err (With D) (Except Refusal String)) s =
      (.ok ((shared s).verfiy sid), s) := by
  unfold checkSessionVerfiy SessionCmds.checkSessionVerfiy Shared.verfiy
  dsimp only
  by_cases hnew : ((shared s).info sid).verfiySid.getD "" ≠ "" ∧ sid ≠ ((shared s).info sid).verfiySid.getD ""
  · rw [if_pos hnew, if_pos hnew]
    rfl
  rw [if_neg hnew, if_neg hnew]
  cases hkick : (shared s).kick sid with
  | true => simp [asked, Shared.answer, hkick]
  | false =>
  cases hlive : ((shared s).session sid).isSome with
  | false => simp [asked, Shared.answer, hkick, hlive]
  | true =>
  cases huser : (shared s).isUser (fmt ((shared s).userTable (fmt ((shared s).info sid).account))) with
  | false => simp [asked, Shared.answer, hkick, hlive, huser]
  | true => simp [asked, Shared.answer, hkick, hlive, huser]

theorem run_hallUser (sid : String) (s : S) :
    run (hallUser sid : Prog Err (With D) (Except Refusal (Option String × String))) s = (.ok ((shared s).hall sid), s) := by
  unfold hallUser Shared.hall
  rw [run_bind_ok (run_getInfoBySid sid s)]
  dsimp only
  by_cases hnew : ((shared s).info sid).verfiySid.getD "" ≠ "" ∧ sid ≠ ((shared s).info sid).verfiySid.getD ""
  · rw [if_pos hnew, if_pos hnew]
    rfl
  rw [if_neg hnew, if_neg hnew]
  cases hlive : ((shared s).session sid).isSome with
  | false => simp [ask, Shared.answer, hlive]
  | true =>
  cases huser : (shared s).isUser (fmt ((shared s).userTable (fmt ((shared s).info sid).account))) with
  | false => simp [ask, Shared.answer, hlive, huser]
  | true => simp [ask, Shared.answer, hlive, huser]

/-- A session that passes has a record, and names a user. -/
theorem Shared.verfiy_ok {s : Shared} {sid user_table : String} (h : s.verfiy sid = .ok user_table) :
    ∃ account uid, s.session sid = some (account, uid) ∧ user_table = fmt (s.userTable account) := by
  unfold Shared.verfiy at h
  dsimp only at h
  split at h
  · cases h
  split at h
  · cases h
  split at h
  · cases h
  next hlive =>
  split at h
  · cases h
  cases hrec : s.session sid with
  | none => simp [hrec] at hlive
  | some r =>
    refine ⟨r.1, r.2, rfl, ?_⟩
    simpa [Shared.info, hrec, eq_comm] using h

/-- A refusal has a negative code. -/
theorem Shared.verfiy_error {s : Shared} {sid : String} {e : Refusal} (h : s.verfiy sid = .error e) : e.code < 0 := by
  have hcases : e.code = -4 ∨ e.code = -3 ∨ e.code = -5 := by
    unfold Shared.verfiy at h
    dsimp only at h
    repeat' split at h
    all_goals cases h <;> simp
  omega

/-- A session that passes has a record, and names a user there is. -/
theorem Shared.hall_ok {s : Shared} {sid userTable : String} {account : Option String} (h : s.hall sid = .ok (account, userTable)) :
    (s.session sid).isSome ∧ account = (s.session sid).map Prod.fst ∧ userTable = fmt (s.userTable (fmt account)) ∧
      s.isUser userTable = true := by
  unfold Shared.hall at h
  dsimp only at h
  split at h
  · cases h
  split at h
  · cases h
  next hlive =>
  split at h
  · cases h
  next huser =>
  obtain ⟨rfl, rfl⟩ := Prod.mk.inj (Except.ok.inj h)
  exact ⟨by simpa [Option.isSome_iff_ne_none] using hlive, rfl, rfl, by simpa using huser⟩

end Run

/-! ## What they issue -/

section Only
variable {D : Type → Type} {P : ⦃β : Type⦄ → With D β → Prop}

open Prog

theorem only_strptimeOf (date : Option String) : Only P (strptimeOf date) := by
  unfold strptimeOf
  cases date with
  | none => trivial
  | some date => cases h : strptime date <;> simp [h]

theorem only_getInfoBySid (hP : ∀ ⦃β : Type⦄ (a : Ask β), P (.ask a)) (sid : String) : Only P (getInfoBySid sid) :=
  ⟨hP _, fun _ => ⟨hP _, fun _ => trivial⟩⟩

theorem only_checkSessionVerfiy (hP : ∀ ⦃β : Type⦄ (a : Ask β), P (.ask a)) (sid : String) (info : Info) :
    Only P (checkSessionVerfiy sid info) := by
  simp [checkSessionVerfiy, SessionCmds.checkSessionVerfiy, Prog.call, asked, hP]

theorem only_checkSpringTime (hP : ∀ ⦃β : Type⦄ (a : Ask β), P (.ask a)) (curTime : Date) (active_id : Nat) :
    Only P (checkSpringTime curTime active_id) := by
  refine ⟨hP _, fun springTime => ⟨hP _, ?_⟩⟩
  rintro ⟨start_date, end_date⟩
  cases springTime with
  | false => trivial
  | true =>
    apply only_bind P (only_strptimeOf start_date)
    intro s_time
    apply only_bind P (only_strptimeOf end_date)
    intro e_time
    simp

/-- The command is one of the shared parts. -/
def IsAsk ⦃β : Type⦄ : With D β → Prop
  | .ask _ => True
  | .own _ => False

/-- The shared parts only read. -/
theorem run_isAsk {S α : Type} [HasShared S] [Exec D S] {p : Prog Err (With D) α} (hp : Only IsAsk p) (s : S) :
    (run p s).2 = s := by
  refine hp.run_inv (I := (· = s)) ?_ rfl
  rintro β (a | c) s' hc h
  · exact h
  · exact hc.elim

theorem trace_isAsk {S α Ev : Type} [HasShared S] [Exec D S] [Note D Ev] {p : Prog Err (With D) α} (hp : Only IsAsk p) (s : S) :
    trace Ev p s = [] := by
  refine hp.trace_nil ?_ s
  rintro β (a | c) b hc
  · rfl
  · exact hc.elim

theorem only_hallUser (hP : ∀ ⦃β : Type⦄ (a : Ask β), P (.ask a)) (sid : String) : Only P (hallUser sid) := by
  refine only_bind P (only_getInfoBySid hP sid) fun info => ?_
  simp [ask, hP]

theorem ran_hallUser {S Ev : Type} [HasShared S] [Exec D S] [Note D Ev] (sid : String) (s : S) :
    Ran (hallUser sid : Prog Err (With D) _) s (.ok ((HasShared.shared s).hall sid)) s ([] : List Ev) :=
  ⟨run_hallUser sid s, trace_isAsk (only_hallUser (fun _ _ => trivial) sid) s⟩

theorem run_checkSpringTime {S : Type} [HasShared S] [Exec D S] (curTime : Date) (active_id : Nat) (s : S) :
    (run (checkSpringTime curTime active_id : Prog Err (With D) _) s).2 = s :=
  run_isAsk (only_checkSpringTime (fun _ _ => trivial) curTime active_id) s

end Only

/-! ## Refusals -/

section Refused
variable {D : Type → Type} {S α Ev : Type} [HasShared S] [Exec D S] [Note D Ev] {sid : String} {s : S}

open Prog HasShared

/-- A handler that begins with the session goes on with what `check_session_verfiy` says. -/
theorem run_session (k : Info → Except Refusal String → Prog Err (With D) α) (sid : String) (s : S) :
    run (getInfoBySid sid >>= fun info => checkSessionVerfiy sid info >>= k info) s =
      run (k ((shared s).info sid) ((shared s).verfiy sid)) s := by
  rw [run_bind_ok (run_getInfoBySid sid s), run_bind_ok (run_checkSessionVerfiy (D := D) sid s)]

theorem trace_refused {k : Info → Except Refusal String → Prog Err (With D) α} {e : Refusal} (h : (shared s).verfiy sid = .error e) :
    trace Ev (getInfoBySid sid >>= fun info => checkSessionVerfiy sid info >>= k info) s =
      trace Ev (k ((shared s).info sid) (.error e)) s := by
  have hcheck := run_checkSessionVerfiy (D := D) sid s
  rw [h] at hcheck
  have hquiet : trace Ev (checkSessionVerfiy sid ((shared s).info sid) : Prog Err (With D) _) s = [] :=
    trace_isAsk (only_checkSessionVerfiy (fun _ _ => trivial) sid _) s
  rw [trace_bind_ok (run_getInfoBySid sid s), trace_bind_ok hcheck, hquiet]
  rfl

end Refused

end FishWeb.Common
