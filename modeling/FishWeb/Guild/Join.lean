import FishWeb.Guild.Model
/-!
# Joining a guild

`/cancleJoinGroup` and the join at login of `hall/hall.py`, and what agents do with who
applied: `/agent/comfirmJoin` of `admin/admin_agent.py`, `/member/join/comfirm` and
`/member/join/reject` of `admin/admin_member.py`. `/joinGroup` is in `Guild.Model`.

Left out: of the login, all but the join; the same lines of `fish/fish.py`, where
`CHECK_SUCCESS` is not bound, so that they end in a NameError; the operation log of an agent.
-/
open Python Prog

namespace FishWeb.Guild.Join

open Common
open Function (update)

/-! ## The store -/

/-- The guilds, and who is asked into one at login. -/
structure Hall where
  guild : St
  /-- `WEIXIN2ACCOUNT % reAccount` -/
  weixin : String → Option String
  /-- `UNIONID2GROUP % unionId` -/
  unionid2group : String → Option String

/-- The commands that `Guild.Model` has no use for. -/
inductive Desk : Type → Type
  | getWeixin (reAccount : String) : Desk (Option String)
  | getUnionid2group (unionId : String) : Desk (Option String)
  | lrangeApplied (agentId : String) : Desk (List String)
  /-- The pipeline of `/cancleJoinGroup`. -/
  | cancle (joinNum : Int) (id : String) : Desk Unit
  | reject (agentId memberId : String) : Desk Unit

inductive Cmd (β : Type) : Type
  | guild (c : With Own β)
  | desk (c : Desk β)

/-- The user is taken off the list of who applied. -/
def struck (s : St) (agentId id : String) : St :=
  { s with applied := update s.applied agentId ((s.applied agentId).filter (· ≠ id)) }

def cancelled (s : St) (joinNum : Int) (id : String) : St :=
  { struck s (toString joinNum) id with message := update s.message id none }

instance : Exec Desk Hall where
  exec
    | .getWeixin reAccount, s => (s.weixin reAccount, s)
    | .getUnionid2group unionId, s => (s.unionid2group unionId, s)
    | .lrangeApplied agentId, s => (s.guild.applied agentId, s)
    | .cancle joinNum id, s => ((), { s with guild := cancelled s.guild joinNum id })
    | .reject agentId memberId, s => ((), { s with guild := struck s.guild agentId memberId })

instance : Exec Cmd Hall where
  exec
    | .guild c, s => ((Exec.exec c s.guild).1, { s with guild := (Exec.exec c s.guild).2 })
    | .desk c, s => Exec.exec c s

/-- What becomes of applications. -/
inductive Event where
  | applied (id groupId : String)
  | cancelled (id : String)
  | rejected (agentId id : String)
  deriving Repr, DecidableEq

instance : Note Own Event where
  note
    | .join id groupId _ _, _ => [.applied id groupId]
    | _, _ => []

instance : Note Desk Event where
  note
    | .cancle _ id, _ => [.cancelled id]
    | .reject agentId memberId, _ => [.rejected agentId memberId]
    | _, _ => []

instance : Note Cmd Event where
  note
    | .guild c, b => Note.note c b
    | .desk c, b => Note.note c b

/-! ## Handlers -/

/-- A handler of `Guild.Model`. -/
def guild {α : Type} (p : Handler α) : Prog Err Cmd α := p.lift fun _ => .guild

def desk {β : Type} (c : Desk β) : Prog Err Cmd β := .cmd (.desk c) .ret

/-- `{'code': ..}` -/
def bare (code : Int) : Reply := ⟨code, none, none, none, none⟩

/-- `/cancleJoinGroup` -/
def cancleJoin (sid : String) : Prog Err Cmd Reply := do
  match ← guild (hallUser sid) with
  | .error e => return .refused e
  | .ok (_, userTable) =>
    let id ← guild (idOf userTable)
    match ← guild (send (.getMessage id)) with
    | none => return bare 0
    | some joinMessage =>
      -- the `except` of a group that is no number prints a name that is not bound
      let joinNum ← orRaise .NameError (joinMessage[0]?.bind int)
      desk (.cancle joinNum id)
      return bare 0

/-- `realAccount` of `do_login` -/
def realAccount (login_type : Int) (reAccount : String) : Prog Err Cmd (Option String) :=
  if login_type ≠ 0 then desk (.getWeixin reAccount) else return some reAccount

/-- The join of `do_login`. -/
def autoJoin (curTime : String) (login_type : Int) (reAccount : String) : Prog Err Cmd Unit := do
  let realAccount ← realAccount login_type reAccount
  let userTable ← orRaise .AttributeError (← guild (ask (.getUserTable (fmt realAccount))))
  let id ← guild (idOf userTable)
  match ← desk (.getUnionid2group reAccount) with
  | none => return ()
  | some needJoinGroup =>
    if !(← guild (send (.existsAgent needJoinGroup))) then return ()
    let (agValid, auto_check) ← guild (send (.hmgetAgent needJoinGroup))
    let groupType ← guild (send (.hgetType needJoinGroup))
    if agValid = some "1" ∧ groupType ≠ some "1" then
      let auto_check := auto_check.getD ""
      -- what is stored is a text, and no text is the number `CHECK_SUCCESS`
      guild (send (.join id needJoinGroup (auto_check = "")
        [needJoinGroup, if auto_check = "" then toString CHECK_SUCCESS else auto_check, curTime]))

/-- The loop of `/agent/comfirmJoin`: the first on the list whose join is not decided is let in. -/
def comfirmFirst (selfUid : String) : List String → Prog Err Cmd Reply
  | [] => return bare 1
  | memberId :: rest => do
    let n ← orRaise .ValueError (int memberId)
    if n ≤ 0 then comfirmFirst selfUid rest
    else
      let joinMessage ← orRaise .AttributeError (← guild (send (.getMessage memberId)))
      let status ← orRaise .ValueError (int (← orRaise .IndexError joinMessage[1]?))
      if status = 0 then
        guild (memberJoinComfirm selfUid memberId)
        return .fail 0 ("会员[" ++ memberId ++ "]审核成功.")
      else comfirmFirst selfUid rest

/-- `/agent/comfirmJoin` -/
def comfirmJoin (selfUid : String) : Prog Err Cmd Reply := do
  comfirmFirst selfUid (← desk (.lrangeApplied selfUid))

/-- `/member/join/comfirm` -/
def doMemberJoinComfirm (selfUid memberId : String) : Prog Err Cmd Reply := do
  if memberId = "" then return .fail 1 ("会员编号[" ++ memberId ++ "]错误")
  guild (memberJoinComfirm selfUid memberId)
  return .fail 0 ("会员[" ++ memberId ++ "]审核通过.")

/-- `/member/join/reject` -/
def doMemberJoinReject (selfUid memberId : String) : Prog Err Cmd Reply := do
  if memberId = "" then return .fail 1 ("会员编号[" ++ memberId ++ "]错误")
  desk (.reject selfUid memberId)
  return .fail 0 ("会员[" ++ memberId ++ "]已拒绝加入公会")

/-! ## Requests -/

inductive Req where
  | join (curTime sid groupId : String)
  | cancle (sid : String)
  | login (curTime : String) (login_type : Int) (reAccount : String)
  | comfirmJoin (selfUid : String)
  | comfirm (selfUid memberId : String)
  | reject (selfUid memberId : String)

def Req.handler (fuel : Nat) : Req → Prog Err Cmd Unit
  | .join curTime sid groupId => do let _ ← guild (joinGroup fuel curTime sid groupId)
  | .cancle sid => do let _ ← cancleJoin sid
  | .login curTime login_type reAccount => autoJoin curTime login_type reAccount
  | .comfirmJoin selfUid => do let _ ← Join.comfirmJoin selfUid
  | .comfirm selfUid memberId => do let _ ← doMemberJoinComfirm selfUid memberId
  | .reject selfUid memberId => do let _ ← doMemberJoinReject selfUid memberId

end FishWeb.Guild.Join
