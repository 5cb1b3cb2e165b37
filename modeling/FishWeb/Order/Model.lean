import FishWeb.Lib.Counters
import FishWeb.Lib.Prog
import FishWeb.Lib.Python
/-!
# Orders of cards between agents

The order endpoints of `admin/admin_order.py`, `createOrder` of
`model/orderModel.py` and `do_memberRecharge` of `admin/admin_member.py`. An agent
orders cards from another, who looks the order up and confirms it; either may
cancel it. An agent also gives cards to a member.

A pipeline is a transaction: its writes are made in one step, and one that is
refused stops none of the others. `session[key] = None` stores the text `None`.
The clock of a request is an input, and so is the random number of a new order.
Left out: the lifetime of a session, and the `op` and `type` columns of a list.
-/
open Python Counters

namespace FishWeb.Order

/-! ## The store -/

/-- What no order endpoint writes. -/
structure Setup where
  /-- `session['account']` of the session that a cookie names. -/
  account : String → Option String
  /-- `session['id']` -/
  id : String → Option String
  /-- `AGENT_ACCOUNT_TO_ID % account` -/
  agentId : String → Option String
  /-- A login writes the account, and the id that it has. -/
  login : ∀ sid acc, account sid = some acc → ∃ i, id sid = some i ∧ agentId acc = some i
  /-- The session lists the path in its `access`. -/
  access : String → String → Bool
  /-- `hget (AGENT_TABLE % id, 'type')` -/
  type : String → Option String
  passwd : String → Option String
  parent_id : String → Option String
  /-- `AGENT_BUY_TOTAL % id` and `AGENT_SALE_TOTAL % id`, which nothing writes. -/
  buyTotal : String → Option Int
  saleTotal : String → Option Int

/-- `ORDER_TABLE % orderNo`. -/
structure OrderInfo where
  id : Option Nat := none
  orderNo : Option String := none
  cardNums : Option String := none
  card_present : Option String := none
  applyAccount : Option String := none
  status : Option String := none
  apply_date : Option String := none
  finish_date : Option String := none
  note : Option String := none
  saleAccount : Option String := none
  deriving Repr, DecidableEq

inductive Side where
  | buy | sale
  deriving Repr, DecidableEq

inductive Stage where
  | order | pending | success
  deriving Repr, DecidableEq

inductive Listing where
  /-- `ORDER_LIST` -/
  | orders
  /-- `agent:%s:buy:order:%s`, `agent:%s:buyPending:%s` and so on. -/
  | agent (side : Side) (stage : Stage) (id date : String)
  deriving Repr, DecidableEq

/-- `AGENT_BUY_CARD_DATE % (id, date)` or `AGENT_SALE_CARD_DATE % (id, date)`. -/
structure Report where
  side : Side
  id : String
  date : String
  deriving Repr, DecidableEq

structure CardDate where
  cardNums : Int
  totalNums : Int
  date : Option String
  deriving Repr, DecidableEq

/-- Whose cards. -/
inductive Purse where
  /-- `hget (AGENT_TABLE % id, 'roomcard')` -/
  | roomcard (id : String)
  /-- `USER4AGENT_CARD % (id, memberId)` -/
  | member (id memberId : String)
  deriving Repr, DecidableEq

/-- The field of the session that a page writes and a form must repeat. -/
inductive Token where
  | comfirm | recharge
  deriving Repr, DecidableEq

structure St where
  setup : Setup
  amounts : Table Purse
  order : String → Option OrderInfo
  /-- `ORDER_COUNT` -/
  count : Nat
  list : Listing → List String
  report : Report → Option CardDate
  token : Token → String → Option String

/-- What is read of `AGENT_TABLE % id`. -/
structure Agent where
  roomcard : Option Int
  type : Option String
  passwd : Option String
  parent_id : Option String
  deriving Repr, DecidableEq

def St.agent (s : St) (id : String) : Agent :=
  ⟨s.amounts (.roomcard id), s.setup.type id, s.setup.passwd id, s.setup.parent_id id⟩

/-! ## Commands -/

inductive Write where
  | hincrby (p : Purse) (n : Int)
  /-- `incrby` with the text of the form. -/
  | incrbyText (p : Purse) (n : String)
  | lrem (l : Listing) (orderNo : String)
  | lpush (l : Listing) (orderNo : String)
  | hmsetOrder (orderNo : String) (info : OrderInfo)
  /-- `hmset (orderTable, orderUpdateInfo)` -/
  | hmsetStatus (orderNo status finish_date : String)
  | deleteOrder (orderNo : String)
  /-- `hincrby` of `cardNums` and of `totalNums`. -/
  | hincrbyReport (r : Report) (n : Int)
  | hmsetReport (r : Report) (v : CardDate)
  deriving Repr, DecidableEq

open Function (update)

/-- What the write adds to whose cards. -/
def Write.increments : Write → List (Purse × Int)
  | .hincrby p n => [(p, n)]
  | .incrbyText p n => ((redisInt n).map fun n => (p, n)).toList
  | .lrem _ _ | .lpush _ _ | .hmsetOrder _ _ | .hmsetStatus _ _ _ | .deleteOrder _ | .hincrbyReport _ _
  | .hmsetReport _ _ => []

def Write.refused : Write → Bool
  | .incrbyText _ n => (redisInt n).isNone
  | .hincrby _ _ | .lrem _ _ | .lpush _ _ | .hmsetOrder _ _ | .hmsetStatus _ _ _ | .deleteOrder _ | .hincrbyReport _ _
  | .hmsetReport _ _ => false

/-- What the write does besides. -/
def Write.apply (w : Write) (s : St) : St :=
  match w with
  | .hincrby _ _ | .incrbyText _ _ => s
  | .lrem l orderNo => { s with list := update s.list l ((s.list l).filter (· ≠ orderNo)) }
  | .lpush l orderNo => { s with list := update s.list l (orderNo :: s.list l) }
  | .hmsetOrder orderNo info => { s with order := update s.order orderNo (some info) }
  | .hmsetStatus orderNo status finish_date =>
    let info := (s.order orderNo).getD {}
    let info := { info with status := some status, finish_date := some finish_date }
    { s with order := update s.order orderNo (some info) }
  | .deleteOrder orderNo => { s with order := update s.order orderNo none }
  | .hincrbyReport r n =>
    let v := (s.report r).getD ⟨0, 0, none⟩
    { s with report := update s.report r (some { v with cardNums := v.cardNums + n, totalNums := v.totalNums + n }) }
  | .hmsetReport r v => { s with report := update s.report r (some v) }

/-- The writes of a pipeline, in order. -/
def applyAll (l : List Write) (s : St) : St :=
  { l.foldl (fun s w => w.apply s) s with amounts := incrAll (l.flatMap Write.increments) s.amounts }

inductive Cmd : Type → Type
  | sessionAccount (sid : String) : Cmd (Option String)
  | sessionId (sid : String) : Cmd (Option String)
  | hasAccess (sid path : String) : Cmd Bool
  | getToken (t : Token) (sid : String) : Cmd (Option String)
  | setToken (t : Token) (sid value : String) : Cmd Unit
  | getAgentId (account : String) : Cmd (Option String)
  | hmgetOrder (orderNo : String) : Cmd OrderInfo
  | existsOrder (orderNo : String) : Cmd Bool
  | hmgetAgent (id : String) : Cmd Agent
  | existsReport (r : Report) : Cmd Bool
  | getTotal (side : Side) (id : String) : Cmd (Option Int)
  | incrCount : Cmd Nat
  /-- The transaction of a pipeline. -/
  | execute (l : List Write) : Cmd Unit

instance : Exec Cmd St where
  exec
    | .sessionAccount sid, s => (s.setup.account sid, s)
    | .sessionId sid, s => (s.setup.id sid, s)
    | .hasAccess sid path, s => (s.setup.access sid path, s)
    | .getToken t sid, s => (s.token t sid, s)
    | .setToken t sid v, s => ((), { s with token := update s.token t (update (s.token t) sid (some v)) })
    | .getAgentId account, s => (s.setup.agentId account, s)
    | .hmgetOrder orderNo, s => ((s.order orderNo).getD {}, s)
    | .existsOrder orderNo, s => ((s.order orderNo).isSome, s)
    | .hmgetAgent id, s => (s.agent id, s)
    | .existsReport r, s => ((s.report r).isSome, s)
    | .getTotal .buy id, s => (s.setup.buyTotal id, s)
    | .getTotal .sale id, s => (s.setup.saleTotal id, s)
    | .incrCount, s => (s.count + 1, { s with count := s.count + 1 })
    | .execute l, s => ((), applyAll l s)

/-- Whose cards a command changes. -/
instance : Note Cmd (Purse × Int) where
  note
    | .execute l, _ => l.flatMap Write.increments
    | _, _ => []

section Exec
open Exec
variable (s : St)

@[simp] theorem exec_sessionAccount (sid : String) : exec (Cmd.sessionAccount sid) s = (s.setup.account sid, s) := rfl

@[simp] theorem exec_sessionId (sid : String) : exec (Cmd.sessionId sid) s = (s.setup.id sid, s) := rfl

@[simp] theorem exec_hasAccess (sid path : String) : exec (Cmd.hasAccess sid path) s = (s.setup.access sid path, s) := rfl

@[simp] theorem exec_getToken (t : Token) (sid : String) : exec (Cmd.getToken t sid) s = (s.token t sid, s) := rfl

@[simp] theorem exec_setToken (t : Token) (sid v : String) :
    exec (Cmd.setToken t sid v) s = ((), { s with token := update s.token t (update (s.token t) sid (some v)) }) := rfl

@[simp] theorem exec_getAgentId (account : String) : exec (Cmd.getAgentId account) s = (s.setup.agentId account, s) := rfl

@[simp] theorem exec_hmgetOrder (orderNo : String) :
    exec (Cmd.hmgetOrder orderNo) s = ((s.order orderNo).getD {}, s) := rfl

@[simp] theorem exec_existsOrder (orderNo : String) :
    exec (Cmd.existsOrder orderNo) s = ((s.order orderNo).isSome, s) := rfl

@[simp] theorem exec_hmgetAgent (id : String) : exec (Cmd.hmgetAgent id) s = (s.agent id, s) := rfl

@[simp] theorem exec_existsReport (r : Report) : exec (Cmd.existsReport r) s = ((s.report r).isSome, s) := rfl

@[simp] theorem exec_incrCount : exec Cmd.incrCount s = (s.count + 1, { s with count := s.count + 1 }) := rfl

@[simp] theorem exec_execute (l : List Write) : exec (Cmd.execute l) s = ((), applyAll l s) := rfl

end Exec

abbrev Handler := Prog Err Cmd

open Prog (call orRaise attempt)

/-! ## What the endpoints share -/

/-- Dates as the formats of one clock. -/
structure Clock where
  /-- `%Y-%m-%d %H:%M:%S` -/
  now : String
  /-- `%Y-%m-%d` -/
  date : String
  /-- `%Y%m%d%H%M%S` -/
  stamp : String
  deriving Repr, DecidableEq

inductive Response where
  | json (code : Int) (msg : String) (jumpUrl : Option String)
  | redirect (url : String)
  | abort (code : Nat)
  /-- `return None` -/
  | nothing
  /-- `orderInfo`, as json or in a template. -/
  | orderInfo (title token status : String) (info : OrderInfo)
  deriving Repr, DecidableEq

/-- `{'code': .., 'msg': ..}`. -/
def Response.msg (code : Int) (msg : String) : Response := .json code msg none

/-- `if x` for a string or `None`. -/
def truthy (x : Option String) : Bool := x.any (· ≠ "")

/-- `int(x)` for a string or `None`. -/
def intOf : Option String → Except Err Int
  | none => .error .TypeError
  | some x => match int x with
    | some n => .ok n
    | none => .error .ValueError

/-- `int(x)` of a field that holds an integer. -/
def intField : Option Int → Except Err Int
  | none => .error .TypeError
  | some n => .ok n

/-- `pipe.execute()`, which raises after the fact if a write was refused. -/
def execute (l : List Write) : Handler Unit := do
  call (.execute l)
  if l.any Write.refused then .raise .ResponseError

/-- `createOrder`. -/
def createOrder (orderNo : String) (info : OrderInfo) : Handler Unit := do
  let id ← call .incrCount
  execute [.hmsetOrder orderNo { info with id := some id }, .lpush .orders orderNo]

/-- `getOrderNo`. -/
def getOrderNo (now : Clock) (agentId : String) (rand : Nat) : String := now.stamp ++ agentId ++ toString rand

/-- The report of the day is counted up, or begun. -/
def countCards (r : Report) (n : Int) : Handler (List Write) := do
  if ← call (.existsReport r) then return [.hincrbyReport r n]
  let his_total_nums := (← call (.getTotal r.side r.id)).getD 0
  return [.hmsetReport r ⟨n, his_total_nums + n, some r.date⟩]

/-! ## The endpoints -/

section Endpoints
-- `hashlib.sha256(s).hexdigest()`
variable (sha256 : String → String)

structure BuyForm where
  parentAg : String
  cardNums : String
  present_card : String
  passwd : String
  note : String
  deriving Repr, DecidableEq

/-- `/order/buy`. -/
def doBuyPage (now : Clock) (rand : Nat) (sid : String) (form : BuyForm) : Handler Response := do
  if !truthy (← call (.sessionAccount sid)) then return .redirect "/admin/login"
  if !(← call (.hasAccess sid "/admin/order/buy")) then return .abort 403
  let selfAccount ← call (.sessionAccount sid)
  let selfId := fmt (← call (.sessionId sid))
  match int form.cardNums with
  | none => return .msg 1 "非法的钻石数."
  | some n =>
    if n ≤ 0 then return .msg 1 "充值的钻石数必须大于0."
    if form.parentAg = "" then return .msg 1 "售钻方不存在"
    if form.cardNums = "" then return .msg 1 "请选择充值钻石数"
    if form.passwd = "" then return .msg 1 "请填写你的登录密码"
    let self ← call (.hmgetAgent selfId)
    if self.passwd ≠ some (sha256 form.passwd) then return .msg 1 "请输入正确的密码,才能进行此操作"
    let orderNo := getOrderNo now selfId rand
    createOrder orderNo
      { orderNo := some orderNo, cardNums := some form.cardNums, card_present := some form.present_card,
        applyAccount := selfAccount, status := some "0", apply_date := some now.now, finish_date := some "",
        note := some form.note, saleAccount := some form.parentAg }
    let parent_id := fmt self.parent_id
    execute [.lpush (.agent .buy .order selfId now.date) orderNo, .lpush (.agent .buy .pending selfId now.date) orderNo,
      .lpush (.agent .sale .order parent_id now.date) orderNo, .lpush (.agent .sale .pending parent_id now.date) orderNo]
    return .json 0 ("申请购买钻石成功,订单号[" ++ orderNo ++ "]") (some "/admin/order/buy/record")

/-- `/order/info`. Whoever asks gets the token of the order. -/
def getOrderInfo (sid orderNo : String) : Handler Response := do
  if !(← call (.existsOrder orderNo)) then return .nothing
  let info ← call (.hmgetOrder orderNo)
  let submit_token := sha256 orderNo
  call (.setToken .comfirm sid submit_token)
  return .orderInfo ("订单[" ++ orderNo ++ "]详情") submit_token (if info.status = some "1" then "已确认" else "未确认") info

def notEnough : Response := .json 4 "钻石不足,是否前往购买钻石" (some "/admin/order/buy")

/-- What a confirmation answers that goes through. -/
def comfirmed (orderNo : String) : Response := .json 0 ("订单[" ++ orderNo ++ "]确认成功") (some "/admin/order/sale/record")

/-- The cards, the lists and the order's status. `SYSTEM_ADMIN` alone sells what he does not have. -/
def settleWrites (now : Clock) (orderNo buyerId selfUid : String) (type n : Int) : List Write :=
  (if type ≠ 0 then [.hincrby (.roomcard selfUid) (-n)] else []) ++
    [.hincrby (.roomcard buyerId) n,
      .lrem (.agent .buy .pending buyerId now.date) orderNo, .lpush (.agent .buy .success buyerId now.date) orderNo,
      .lrem (.agent .sale .pending selfUid now.date) orderNo, .lpush (.agent .sale .success selfUid now.date) orderNo,
      .hmsetStatus orderNo "1" now.now]

/-- The `try` of `do_orderComfirm`: the pipeline, unless the cards are not enough. -/
def comfirmPipe (now : Clock) (orderNo buyerId selfUid : String) (cardNums saleType : Option String)
    (salerRoomCard : Int) : Handler (Option (List Write)) := do
  let type ← Prog.ofExcept (intOf saleType)
  let n ← Prog.ofExcept (intOf cardNums)
  if type ≠ 0 ∧ salerRoomCard < n then return none
  let bought ← countCards ⟨.buy, buyerId, now.date⟩ n
  let sold ← countCards ⟨.sale, selfUid, now.date⟩ n
  return some (settleWrites now orderNo buyerId selfUid type n ++ bought ++ sold)

/-- `/order/comfirm` from where the token has been compared. The order's status and its seller are not looked at. -/
def settleOrder (now : Clock) (sid orderNo selfUid : String) : Handler Response := do
  let info ← call (.hmgetOrder orderNo)
  let buyerId := fmt (← call (.getAgentId (fmt info.applyAccount)))
  let saler ← call (.hmgetAgent selfUid)
  call (.setToken .comfirm sid "None")
  match ← attempt (comfirmPipe now orderNo buyerId selfUid info.cardNums saler.type (saler.roomcard.getD 0)) with
  | .error _ => return .msg 1 "订单确认失败."
  | .ok none => return notEnough
  | .ok (some pipe) =>
    execute pipe
    return comfirmed orderNo

/-- `/order/comfirm`. -/
def doOrderComfirm (now : Clock) (sid orderNo token : String) : Handler Response := do
  if !truthy (← call (.sessionAccount sid)) then return .redirect "/admin/login"
  let _selfAccount ← call (.sessionAccount sid)
  let selfUid := fmt (← call (.sessionId sid))
  let _logged ← call (.getToken .comfirm sid)
  if !truthy (← call (.getToken .comfirm sid)) then return .msg 1 "不合法的操作!"
  if some token ≠ (← call (.getToken .comfirm sid)) then
    return .json 0 "请勿重复确认订单" (some "/admin/order/sale/record")
  settleOrder now sid orderNo selfUid

/-- The pipeline of the two cancellations. -/
def cancelWrites (now : Clock) (orderNo buyerId salerId : String) : List Write :=
  [.lrem (.agent .buy .pending buyerId now.date) orderNo, .lrem (.agent .buy .order buyerId now.date) orderNo,
    .lrem (.agent .sale .order salerId now.date) orderNo, .lrem (.agent .sale .pending salerId now.date) orderNo,
    .lrem .orders orderNo, .deleteOrder orderNo]

/-- The `try` of the two cancellations. Neither looks at the order's status, or at who cancels it. -/
def cancelOrder (orderNo : String) (writes : List Write) (jumpUrl : String) : Handler Response := do
  match ← attempt (execute writes) with
  | .error _ => return .msg 1 "订单取消失败"
  | .ok _ => return .json 0 ("订单[" ++ orderNo ++ "]取消成功") (some jumpUrl)

/-- `/order/cancel`, the buyer's. -/
def doOrderCancel (now : Clock) (sid orderNo : String) : Handler Response := do
  let _selfAccount ← call (.sessionAccount sid)
  let selfUid := fmt (← call (.sessionId sid))
  let info ← call (.hmgetOrder orderNo)
  let salerId := fmt (← call (.getAgentId (fmt info.saleAccount)))
  cancelOrder orderNo (cancelWrites now orderNo selfUid salerId) "/admin/order/buy/record"

/-- `/order/sale/cancel`, the seller's. -/
def doOrderSaleCancel (now : Clock) (sid orderNo : String) : Handler Response := do
  let _selfAccount ← call (.sessionAccount sid)
  let selfUid := fmt (← call (.sessionId sid))
  let info ← call (.hmgetOrder orderNo)
  let buyerId := fmt (← call (.getAgentId (fmt info.applyAccount)))
  cancelOrder orderNo (cancelWrites now orderNo buyerId selfUid) "/admin/order/sale/record"

structure RechargeForm where
  memberId : String
  cardNums : String
  passwd : String
  token : String
  deriving Repr, DecidableEq

/-- `/member/recharge` from where the agent has been charged. -/
def giveCards (now : Clock) (rand : Nat) (sid selfUid : String) (selfAccount : Option String) (form : RechargeForm)
    (debit : List Write) : Handler Response := do
  let pipe := debit ++ [.incrbyText (.member selfUid form.memberId) form.cardNums]
  let orderNo := getOrderNo now selfUid rand
  call (.setToken .recharge sid "None")
  createOrder orderNo
    { orderNo := some orderNo, cardNums := some form.cardNums, applyAccount := some (form.memberId ++ "(玩家)"),
      status := some "1", apply_date := some now.now, finish_date := some now.now, note := some "",
      saleAccount := selfAccount }
  let cardNums := (int form.cardNums).getD 0
  let sold ← countCards ⟨.sale, selfUid, now.date⟩ cardNums
  execute (pipe ++
    [.lpush (.agent .sale .order selfUid now.date) orderNo, .lpush (.agent .sale .success selfUid now.date) orderNo] ++
    sold)
  return .json 0 ("成功向[" ++ form.memberId ++ "]充值了钻石[" ++ toString cardNums ++ "]张")
    (some "/admin/member/search/hall")

/-- `/member/recharge`. -/
def doMemberRecharge (now : Clock) (rand : Nat) (sid : String) (form : RechargeForm) : Handler Response := do
  if !truthy (← call (.sessionAccount sid)) then return .redirect "/admin/login"
  let selfAccount ← call (.sessionAccount sid)
  let selfUid := fmt (← call (.sessionId sid))
  if !truthy (← call (.getToken .recharge sid)) then return .msg 1 "非法提交订单"
  if some form.token ≠ (← call (.getToken .recharge sid)) then
    return .json 0 "不能重复确认订单." (some "/admin/member/search")
  let self ← call (.hmgetAgent selfUid)
  if form.cardNums = "" then return .msg 1 "充值钻石数不能为空"
  if form.passwd = "" then return .msg 1 "请输入你的密码"
  if self.passwd ≠ some (sha256 form.passwd) then return .msg 1 "您的密码不正确"
  let type ← Prog.ofExcept (intOf self.type)
  if type = 0 ∨ type = 1 then giveCards now rand sid selfUid selfAccount form []
  else do
    let roomcard ← Prog.ofExcept (intField self.roomcard)
    let n ← Prog.ofExcept (intOf (some form.cardNums))
    if roomcard < n then return notEnough
    giveCards now rand sid selfUid selfAccount form [.hincrby (.roomcard selfUid) (-n)]

end Endpoints

end FishWeb.Order
