import FishWeb.Common.Model
import FishWeb.Lib.Counters
import FishWeb.Lib.Sets
/-!
# Guilds and their cards

`/joinGroup`, `/exitGroup` and `/checkjoinGroup` of `hall/hall.py`, with `tryExitGroup` of
`model/hallModel.py`, `getDefaultRoomCard` of `hall/hall_func.py`, `getTopAgentId` of
`model/agentModel.py` and `memberJoinComfirm` of `model/userModel.py`.

A guild is an agent; the agents above it end at a company, whose type is `'1'`. The
cards of a user are kept for each guild, and for the company when he leaves. `fuel`
bounds the turns of the `while 1` of `getTopAgentId`. A message of a join is the parts it
is split into. Left out: the message box of the user, the waiting room he is taken out of,
and `isVolntExitGroup`.
-/
open Python Prog Counters

namespace FishWeb.Guild

open Common

/-! ## The store -/

/-- `AGENT_TABLE % id` -/
structure Agent where
  type : Option String
  parent_id : Option String
  defaultRoomCard : Option String
  valid : Option String
  auto_check : Option String
  deriving Repr, DecidableEq

structure St where
  shared : Shared
  agent : String → Option Agent
  /-- `hget (user_table, 'parentAg')` -/
  parentAg : String → Option String
  /-- `hget (user_table, 'lastGroup')` -/
  lastGroup : String → Option String
  /-- `hget (user_table, 'baseScore')` -/
  baseScore : String → Option String
  /-- `FORMAT_ADMIN_ACCOUNT_MEMBER_TABLE % groupId` -/
  members : String → MemberSet String
  /-- `JOIN_GROUP_LIST % groupId` -/
  applied : String → List String
  /-- `JOIN_GROUP_RESULT % id`, at its colons -/
  message : String → Option (List String)
  /-- `USER4AGENT_CARD % (groupId, id)` -/
  card : Table (String × String)

instance : HasShared St := ⟨fun s => s.shared⟩

def St.agentOf (s : St) (id : String) : Agent := (s.agent id).getD ⟨none, none, none, none, none⟩

/-- `FORMAT_USER_TABLE % id` -/
def userTableOf (id : String) : String := "users:" ++ id

/-! ## Commands -/

open Function (update)

inductive Own : Type → Type
  | existsAgent (agentId : String) : Own Bool
  | hgetType (agentId : String) : Own (Option String)
  | hgetParentId (agentId : String) : Own (Option String)
  | hgetDefaultRoomCard (agentId : String) : Own (Option String)
  /-- `hmget (adminTable, ('valid', 'auto_check'))` -/
  | hmgetAgent (agentId : String) : Own (Option String × Option String)
  /-- `hmget (userTable, ('parentAg', 'lastGroup'))` -/
  | hmgetGroups (userTable : String) : Own (Option String × Option String)
  | getMessage (id : String) : Own (Option (List String))
  | getCard (groupId id : String) : Own (Option Int)
  | setCard (groupId id : String) (n : Int) : Own Unit
  | hsetBaseScore (userTable baseScore : String) : Own Unit
  /-- The pipeline of `tryExitGroup`. -/
  | exit (userTable id groupId topAgId : String) (roomcard : Int) : Own Unit
  /-- The pipeline of `/joinGroup`. -/
  | join (id groupId : String) (accepted : Bool) (message : List String) : Own Unit
  /-- The pipeline of `memberJoinComfirm`. -/
  | comfirm (agentId memberId : String) : Own Unit

def exited (s : St) (userTable id groupId topAgId : String) (roomcard : Int) : St :=
  { s with
    members := update s.members groupId ((s.members groupId).srem id)
    parentAg := update s.parentAg userTable (some "")
    lastGroup := update s.lastGroup userTable (some groupId)
    card := update s.card (topAgId, id) (some roomcard) }

/-- The user is a member of the guild. -/
def entered (s : St) (id groupId : String) : St :=
  { s with
    parentAg := update s.parentAg (userTableOf id) (some groupId)
    members := update s.members groupId ((s.members groupId).sadd id) }

def applies (s : St) (id groupId : String) (message : List String) : St :=
  { s with applied := update s.applied groupId (id :: s.applied groupId), message := update s.message id (some message) }

def comfirmed (s : St) (agentId memberId : String) : St :=
  { entered s memberId agentId with
    message := update s.message memberId (some [agentId, "1"])
    applied := update s.applied agentId ((s.applied agentId).filter (· ≠ memberId)) }

instance : Exec Own St where
  exec
    | .existsAgent agentId, s => ((s.agent agentId).isSome, s)
    | .hgetType agentId, s => ((s.agentOf agentId).type, s)
    | .hgetParentId agentId, s => ((s.agentOf agentId).parent_id, s)
    | .hgetDefaultRoomCard agentId, s => ((s.agentOf agentId).defaultRoomCard, s)
    | .hmgetAgent agentId, s => (((s.agentOf agentId).valid, (s.agentOf agentId).auto_check), s)
    | .hmgetGroups userTable, s => ((s.parentAg userTable, s.lastGroup userTable), s)
    | .getMessage id, s => (s.message id, s)
    | .getCard groupId id, s => (s.card (groupId, id), s)
    | .setCard groupId id n, s => ((), { s with card := update s.card (groupId, id) (some n) })
    | .hsetBaseScore userTable baseScore, s => ((), { s with baseScore := update s.baseScore userTable (some baseScore) })
    | .exit userTable id groupId topAgId roomcard, s => ((), exited s userTable id groupId topAgId roomcard)
    | .join id groupId accepted message, s => ((), applies (if accepted then entered s id groupId else s) id groupId message)
    | .comfirm agentId memberId, s => ((), comfirmed s agentId memberId)

abbrev Handler := Prog Err (With Own)

/-! ## Companies -/

/-- The `while 1` of `getTopAgentId`. -/
def climb : Nat → Option String → Handler (Option String)
  -- the loop has not ended
  | 0, _ => .raise .RuntimeError
  | fuel + 1, agentId => do
    let agentId ← send (.hgetParentId (fmt agentId))
    let agType ← send (.hgetType (fmt agentId))
    match agType.bind int with
    | some n => if n = 1 then return agentId else climb fuel agentId
    | none => return agentId

/-- `getTopAgentId` -/
def getTopAgentId (fuel : Nat) (agentId : Option String) : Handler (Option String) := do
  let agType ← send (.hgetType (fmt agentId))
  if agType = some "0" ∨ agType = some "1" then return agentId
  climb fuel agentId

/-! ## Cards -/

/-- What stands in a record of cards, or for a company. -/
inductive Amount where
  | number (n : Int)
  | text (t : String)
  deriving Repr, DecidableEq

/-- `int(x)` -/
def Amount.toInt : Amount → Handler Int
  | .number n => .ret n
  | .text t => orRaise .ValueError (int t)

/-- `x`, or zero if there is none. -/
def orZero (card : Option Int) : Amount := .number (card.getD 0)

/-- `getDefaultRoomCard` -/
def getDefaultRoomCard (fuel : Nat) (groupId : Option String) (userId : String) (lastGroup : Bool) : Handler Amount := do
  let provinceAgId ← getTopAgentId fuel groupId
  match ← send (.getCard (fmt provinceAgId) userId) with
  | some defaultCard => return .number defaultCard
  | none =>
    if lastGroup then return orZero (← send (.getCard (fmt groupId) userId))
    let defaultCard := (← send (.hgetDefaultRoomCard (fmt provinceAgId))).getD ""
    if defaultCard = "" then return .number 0 else return .text defaultCard

/-! ## Handlers -/

/-- `tryExitGroup` -/
def tryExitGroup (fuel : Nat) (userTable id groupId : String) : Handler Unit := do
  let topAgId ← getTopAgentId fuel (some groupId)
  let roomcard ← send (.getCard groupId id)
  send (.exit userTable id groupId (fmt topAgId) (roomcard.getD 0))

structure Reply where
  code : Int
  msg : Option String
  osid : Option String
  joinResult : Option Int
  group_id : Option String
  deriving Repr, DecidableEq

def Reply.refused (e : Refusal) : Reply := ⟨e.code, some e.msg, e.osid, none, none⟩

/-- `{'code': .., 'msg': ..}` -/
def Reply.fail (code : Int) (msg : String) : Reply := ⟨code, some msg, none, none, none⟩

/-- `userTable.split(':')[1]` -/
def idOf (userTable : String) : Handler String := orRaise .IndexError (split ':' userTable)[1]?

/-- `/exitGroup` -/
def exitGroup (fuel : Nat) (sid : String) : Handler Reply := do
  if !(← ask (.existsSession sid)) then return .fail (-3) "sid 超时"
  let (account, _) ← ask (.hmgetSession sid)
  let userTable := fmt (← ask (.getUserTable (fmt account)))
  if !(← ask (.existsUser userTable)) then return .fail (-5) "该用户不存在"
  let (groupId, _) ← send (.hmgetGroups userTable)
  let id ← idOf userTable
  if ← send (.existsAgent (fmt groupId)) then
    tryExitGroup fuel userTable id (fmt groupId)
    return ⟨0, some "退出公会成功", none, none, none⟩
  return .fail (-1) "退出公会失败"

def CHECK_SUCCESS : Int := 1

/-- `if not auto_check: auto_check = CHECK_SUCCESS`, then `int(auto_check)` -/
def autoCheck (auto_check : Option String) : Handler Int :=
  if auto_check.getD "" = "" then return CHECK_SUCCESS else orRaise .ValueError (int (fmt auto_check))

/-- `/joinGroup` -/
def joinGroup (fuel : Nat) (curTime sid groupId : String) : Handler Reply := do
  match ← hallUser sid with
  | .error e => return .refused e
  | .ok (_, userTable) =>
    if !(← send (.existsAgent groupId)) then return .fail (-1) "加入公会失败, 公会不存在"
    let (agValid, auto_check) ← send (.hmgetAgent groupId)
    let auto_check ← autoCheck auto_check
    if agValid ≠ some "1" then return .fail (-7) "该公会已被冻结,不能申请加入"
    let type ← orRaise .TypeError (← send (.hgetType groupId))
    if (← orRaise .ValueError (int type)) = 1 then return .fail (-1) "加入公会失败，不能直接加入总公司。"
    let id ← idOf userTable
    let (groupId4old, _) ← send (.hmgetGroups userTable)
    if ← send (.existsAgent (fmt groupId4old)) then tryExitGroup fuel userTable id (fmt groupId4old)
    send (.join id groupId (auto_check = CHECK_SUCCESS) [groupId, toString auto_check, curTime])
    return ⟨0, some "等待公会确认中", none, none, none⟩

/-- `memberJoinComfirm` -/
def memberJoinComfirm (agentId memberId : String) : Handler Unit := send (.comfirm agentId memberId)

/-- The cards that `/checkjoinGroup` gives a user whose join is decided. -/
def cardsOf (fuel : Nat) (id : String) (ag lastGroup : Option String) : Handler Amount := do
  if lastGroup.getD "" = "" then getDefaultRoomCard fuel ag id false
  else
    let lastParentAg ← getTopAgentId fuel lastGroup
    let nowParentAg ← getTopAgentId fuel ag
    if lastParentAg = nowParentAg then return orZero (← send (.getCard (fmt lastGroup) id))
    getDefaultRoomCard fuel ag id true

/-- `/checkjoinGroup` -/
def checkjoinGroup (fuel : Nat) (sid : String) : Handler Reply := do
  match ← hallUser sid with
  | .error e => return .refused e
  | .ok (_, userTable) =>
    let id ← idOf userTable
    let (ag, lastGroup) ← send (.hmgetGroups userTable)
    -- `joinResult` is bound by a message only
    let joinMessage ← orRaise .NameError (← send (.getMessage id))
    let joinNum ← orRaise .IndexError joinMessage[0]?
    let joinResult ← orRaise .ValueError (int (← orRaise .IndexError joinMessage[1]?))
    -- the message stays
    if joinResult ≠ 0 then
      let defaultCard ← cardsOf fuel id ag lastGroup
      send (.setCard (fmt ag) id (← defaultCard.toInt))
      send (.hsetBaseScore userTable "[1]")
    if joinResult ≠ 2 then return ⟨0, none, none, some joinResult, some joinNum⟩
    else return ⟨0, some "加入公会失败", none, some joinResult, some joinNum⟩

end FishWeb.Guild
