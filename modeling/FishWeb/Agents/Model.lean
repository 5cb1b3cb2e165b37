import FishWeb.Rate.Model
import FishWeb.Lib.Sets
/-!
# Agents and their shares

`/agent/create` and `/agent/modify` of `admin/admin_agent.py`, with `getAgentIdNo` of
`model/agentModel.py`, over the store that `db_init.py` leaves.

The record of an agent is the part that sales read (`Rate.Model`) and the rest. A form
is its fields, stripped. `idNo` is what `random` gives and `depth` how many calls of a
recursion the interpreter has left. Left out: the access of the session, the games, the
rights and the password of an agent, the indexes by date and by parent, and the log.
-/
open Python Prog

namespace FishWeb.Agents

/-! ## The store -/

/-- The fields of `AGENT_TABLE % id` that no sale reads. -/
structure Detail where
  account : Option String
  name : Option String
  defaultRoomCard : Option String
  deriving Repr, DecidableEq

structure St where
  rate : Rate.St
  /-- `none`: there is no `AGENT_TABLE % id`. -/
  detail : String → Option Detail
  /-- `AGENT_ID_TABLE` -/
  ids : MemberSet String
  /-- `AGENT_ACCOUNT_TO_ID % account` -/
  account : String → Option String
  /-- `AGENT_RATE_SET % id` -/
  rateSet : String → MemberSet String
  /-- `AGENT_ROOMCARD_PER_PRICE % id` -/
  perPrice : String → MemberSet String

/-! ## Commands -/

open Function (update)

/-- The fields that `/agent/create` writes. -/
structure AgentInfo where
  id : String
  account : String
  shareRate : String
  parent_id : String
  unitPrice : String
  type : String
  defaultRoomCard : String

def AgentInfo.agent (info : AgentInfo) : Rate.Agent :=
  ⟨some info.type, some info.shareRate, some info.parent_id, some info.unitPrice⟩

/-- The fields that `/agent/modify` writes. -/
structure ModifyInfo where
  shareRate : String
  unitPrice : String
  name : String
  defaultRoomCard : String

def ModifyInfo.agent (info : ModifyInfo) (a : Rate.Agent) : Rate.Agent :=
  { a with shareRate := some info.shareRate, unitPrice := some info.unitPrice }

/-- The commands of a pipeline. -/
inductive Write where
  | saddId (agentId : String)
  | saddRate (agentId rate : String)
  | saddPrice (agentId : String) (unitPrice : Option String)
  | hmsetCreate (info : AgentInfo)
  | hmsetModify (agentId : String) (info : ModifyInfo)
  | setAccount (account agentId : String)

def Write.apply (s : St) : Write → St
  | .saddId agentId => { s with ids := s.ids.sadd agentId }
  | .saddRate agentId rate => { s with rateSet := SetTable.add s.rateSet agentId rate }
  | .saddPrice agentId unitPrice => { s with perPrice := SetTable.add s.perPrice agentId (fmt unitPrice) }
  | .hmsetCreate info =>
    { s with
      rate := { s.rate with agent := update s.rate.agent info.id info.agent }
      detail := update s.detail info.id (some ⟨some info.account, some "", some info.defaultRoomCard⟩) }
  | .hmsetModify agentId info =>
    { s with
      rate := { s.rate with agent := update s.rate.agent agentId (info.agent (s.rate.agent agentId)) }
      detail := update s.detail agentId
        (some ⟨(s.detail agentId).bind Detail.account, some info.name, some info.defaultRoomCard⟩) }
  | .setAccount account agentId => { s with account := update s.account account (some agentId) }

inductive Own : Type → Type
  /-- `hmget (AGENT_TABLE % parentAg, ('type', 'unitPrice'))` -/
  | hmgetParent (parentAg : String) : Own (Option String × Option String)
  | hgetType (agentId : String) : Own (Option String)
  | existsAgent (agentId : String) : Own Bool
  | existsAccount (account : String) : Own Bool
  /-- `sadd (AGENT_ID_TABLE, agentId)`: is it new? -/
  | saddId (agentId : String) : Own Bool
  | execute (pipe : List Write) : Own Unit

instance : Exec Own St where
  exec
    | .hmgetParent parentAg, s => (((s.rate.agent parentAg).type, (s.rate.agent parentAg).unitPrice), s)
    | .hgetType agentId, s => ((s.rate.agent agentId).type, s)
    | .existsAgent agentId, s => ((s.detail agentId).isSome, s)
    | .existsAccount account, s => ((s.account account).isSome, s)
    | .saddId agentId, s => (decide (agentId ∉ s.ids), { s with ids := s.ids.sadd agentId })
    | .execute pipe, s => ((), pipe.foldl Write.apply s)

/-- The commands of the back office and those of a sale. -/
inductive Cmd (β : Type) : Type
  | own (c : Own β)
  | rate (c : Rate.Cmd β)

instance : Exec Cmd St where
  exec
    | .own c, s => Exec.exec c s
    | .rate c, s => ((Exec.exec c s.rate).1, { s with rate := (Exec.exec c s.rate).2 })

abbrev Handler := Prog Err Cmd

def send {β : Type} (c : Own β) : Handler β := .cmd (.own c) .ret

/-- `get_user_card_money` -/
def getUserCardMoney (depth : Nat) (agentId : String) : Handler (Option String) :=
  (Rate.getCardMoney depth agentId).lift fun _ => .rate

/-! ## Handlers -/

structure CreateForm where
  account : String
  passwd : String
  comfirPasswd : String
  shareRate : String
  unitPrice : String
  myRate : String
  defaultRoomCard : String
  agentId : String

structure ModifyForm where
  agentId : String
  account : String
  unitPrice : String
  shareRate : String
  myRate : String
  name : String
  defaultRoomCard : String

structure Reply where
  code : Int
  msg : String
  jumpUrl : String
  deriving Repr, DecidableEq

/-- `{'code': 1, 'msg': ..}` -/
def Reply.fail (msg : String) : Reply := ⟨1, msg, ""⟩

/-- `limit and shareRate and float(shareRate) > float(limit)` -/
def exceeds (shareRate limit : String) : Handler Bool := do
  if limit = "" ∨ shareRate = "" then return false
  return (← orRaise .ValueError (number shareRate)).gt (← orRaise .ValueError (number limit))

/-- What `getAgentIdNo` draws: six digits below nine. -/
abbrev IdNo := Fin 6 → Fin 9

def IdNo.text (idNo : IdNo) : String := String.join ((List.ofFn idNo).map fun a => toString a.val)

/-- `getAgentIdNo`: its second try names a variable there is not. -/
def getAgentIdNo (idNo : IdNo) : Handler String := do
  if !(← send (.saddId idNo.text)) then Prog.raise .NameError
  return idNo.text

/-- The types that `TYPE2ACCESS` and `TYPE2ACCESSLIST` have. -/
def accessTypes : List String := ["0", "1", "2", "3"]

/-- The access lists of the type, which are left out. -/
def accessOf (agentType : String) : Handler Unit :=
  if agentType ∈ accessTypes then return () else .raise .KeyError

/-- `if not agentId: agentId = getAgentIdNo(redis)` -/
def agentIdOf (idNo : IdNo) (agentId : String) : Handler String :=
  if agentId = "" then getAgentIdNo idNo else return agentId

/-- The price that `/agent/create` files beside a rate. -/
def priceOfRate (depth : Nat) (parentAg : String) (agent_type parent_unitPrice : Option String) (unitPrice : String) :
    Handler (Option String) :=
  if agent_type = some "1" then return parent_unitPrice
  else if agent_type = some "2" then getUserCardMoney depth parentAg
  else return some unitPrice

/-- The writes of `/agent/create` about prices. -/
def createPrices (depth : Nat) (agentId parentAg : String) (agent_type parent_unitPrice : Option String) (form : CreateForm) :
    Handler (List Write) := do
  let own := if form.unitPrice = "" then [] else [Write.saddPrice agentId (some form.unitPrice)]
  if form.shareRate ≠ "" ∧ agent_type ∈ [some "0", some "1", some "2"] then
    let unitPrice ← priceOfRate depth parentAg agent_type parent_unitPrice form.unitPrice
    return own ++ [.saddRate agentId form.shareRate, .saddPrice agentId unitPrice]
  return own

/-- `/agent/create/<agent_id:int>` -/
def doCreateAgent (depth : Nat) (idNo : IdNo) (agent_id : Option Int) (form : CreateForm) : Handler Reply := do
  let n := agent_id.getD 0
  if n = 0 then return .fail "非法创建代理!"
  let parentAg := toString n
  let (agent_type, parent_unitPrice) ← send (.hmgetParent parentAg)
  if form.account = "" then return .fail "代理账号不能为空"
  if form.passwd = "" then return .fail "密码不能为空"
  if form.comfirPasswd = "" then return .fail "密码不能为空"
  if ← exceeds form.shareRate form.unitPrice then return .fail "给下级分成不能大于钻石单价!"
  if ← exceeds form.shareRate form.myRate then return .fail "给下级分成不能大于自己的分成!"
  if ← send (.existsAgent form.agentId) then return .fail ("代理ID[" ++ form.agentId ++ "]已存在")
  if ← send (.existsAccount form.account) then return .fail ("代理账号(" ++ form.account ++ ")已经存在.")
  let agentId ← agentIdOf idNo form.agentId
  let agentType := (← orRaise .ValueError (int (← orRaise .TypeError agent_type))) + 1
  let prices ← createPrices depth agentId parentAg agent_type parent_unitPrice form
  accessOf (toString agentType)
  send (.execute ((if form.agentId = "" then [] else [.saddId agentId]) ++ prices ++
    [.hmsetCreate ⟨agentId, form.account, form.shareRate, parentAg, form.unitPrice, toString agentType, form.defaultRoomCard⟩,
      .setAccount form.account agentId]))
  return ⟨0, "创建代理[" ++ form.account ++ "]成功", "/admin/agent/list"⟩

/-- The writes of `/agent/modify` about prices. -/
def modifyPrices (depth : Nat) (agent_type : Option String) (form : ModifyForm) : Handler (List Write) := do
  let own := if form.unitPrice = "" then [] else [Write.saddPrice form.agentId (some form.unitPrice)]
  if form.shareRate ≠ "" ∧ agent_type ∈ [some "1", some "2"] then
    let unitPrice ← getUserCardMoney depth form.agentId
    return own ++ [.saddRate form.agentId form.shareRate] ++
      if unitPrice.getD "" = "" then [] else [.saddPrice form.agentId unitPrice]
  if form.myRate ≠ "" ∧ agent_type = some "3" then
    let unitPrice ← getUserCardMoney depth form.agentId
    return own ++ [.saddRate form.agentId form.myRate, .saddPrice form.agentId unitPrice]
  return own

/-- `/agent/modify` -/
def doAgentModify (depth : Nat) (form : ModifyForm) : Handler Reply := do
  if form.agentId = "" then return .fail "非法修改代理!"
  let agent_type ← send (.hgetType form.agentId)
  if ← exceeds form.shareRate form.unitPrice then return .fail "给下级分成不能大于钻石单价!"
  if ← exceeds form.shareRate form.myRate then return .fail "给下级分成不能大于父代理的分成!"
  let prices ← modifyPrices depth agent_type form
  accessOf (fmt agent_type)
  send (.execute (prices ++ [.hmsetModify form.agentId ⟨form.shareRate, form.unitPrice, form.name, form.defaultRoomCard⟩]))
  return ⟨0, "修改代理[" ++ form.account ++ "]成功", "/admin/agent/list"⟩

/-! ## Runs -/

inductive Request where
  | create (idNo : IdNo) (agent_id : Option Int) (form : CreateForm)
  | modify (form : ModifyForm)

def Request.handler (depth : Nat) : Request → Handler Reply
  | .create idNo agent_id form => doCreateAgent depth idNo agent_id form
  | .modify form => doAgentModify depth form

/-- The state after the request. -/
def step (depth : Nat) (r : Request) (s : St) : St := (run (r.handler depth) s).2

def blank : Rate.Agent := ⟨none, none, none, none⟩

/-- What `db_init.py` leaves: the system administrator. -/
def init : St where
  rate :=
    { agent := update (fun _ => blank) "1" ⟨some "0", some "0.5", some "0", none⟩
      record := fun _ => ⟨0, none, none, fun _ => 0⟩ }
  detail := update (fun _ => none) "1" (some ⟨some "sysadmin", some "dawei", none⟩)
  ids := ∅
  account := update (fun _ => none) "sysadmin" (some "1")
  rateSet := fun _ => ∅
  perPrice := fun _ => ∅

end FishWeb.Agents
