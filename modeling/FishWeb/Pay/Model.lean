import Mathlib.Data.List.Sort
import FishWeb.Common.Model
import FishWeb.Lib.Decimal
import FishWeb.Lib.Counters
import FishWeb.Lib.Sets
/-!
# Orders and payments

`fish/fish_pay.py` and `fish/fish_util/fish_pay_func.py`: an order is created
when the app asks to pay with WeChat, and is paid when WeChat notifies the
server.

A pipeline is one command. The fields of a hash may be missing. A request brings
the clock, the random digits it draws and what WeChat answers; a notification is
the fields of its XML. `md5` is a parameter. Left out: what only goes out to
WeChat or the app, and the lists of order numbers by day and by player.
-/
open Python Counters

namespace FishWeb.Pay

/-- `goods:id:%s`. -/
structure Goods where
  cards : Option String
  present_cards : Option String
  price : Option String
  deriving Repr, DecidableEq

/-- `orders4fish:id:%s`. -/
structure Order where
  money : Option String
  account : Option String
  num : Option String
  type : Option String
  roomCards : Option String
  presentCards : Option String
  endTime : Option String
  currency : Option String
  orderNum : Option String
  CheckNum : Option Int
  groupId : Option String
  /-- The key goes after an hour. -/
  expires : Bool
  deriving Repr, DecidableEq

/-- The key without fields. -/
def Order.blank : Order := ⟨none, none, none, none, none, none, none, none, none, none, none, false⟩

/-- What a payment is recorded in. -/
structure Ledger where
  /-- `hget (user_table, 'coin')` -/
  coin : Table String
  /-- `hget (user_table, 'recharge_coin_total')` -/
  recharge : String → Option ℚ
  /-- `fish:sys:recharge:total` -/
  total : Option ℚ
  /-- `hget ('fish:sys:date:%s:recharge:total' % date) 'recharge_coin_total'` -/
  day : String → Option ℚ
  /-- `hget ('fish:sys:date:%s:recharge:total' % date) 'recharge_user_total'` -/
  dayUsers : Table String
  /-- `fish:recharge:user:id:sets` -/
  payers : MemberSet String

structure St where
  /-- `hall:session:%s`: the account and the uid. -/
  session : String → Option (Option String × Option String)
  /-- `session:%s` -/
  platform : String → Option String
  /-- `kick:session:%s` exists. -/
  kicked : String → Bool
  /-- `users:account:%s` -/
  userTable : String → Option String
  /-- The table of a user exists. -/
  isUser : String → Bool
  parentAg : String → Option String
  goods : String → Option Goods
  /-- `goodsNum4fish:%s:key` -/
  index : Table String
  order : String → Option Order
  /-- `pendingGoods4fish:set` -/
  pending : MemberSet String
  /-- `succeedGoods4fish:set` -/
  succeeded : MemberSet String
  ledger : Ledger

/-- `ORDER_TABLE4FISH % no`. -/
def orderTable (no : String) : String := "orders4fish:id:" ++ no

/-! ## Commands -/

/-- What a new order is written with. -/
structure NewOrder where
  money : Int
  account : String
  num : String
  roomCards : String
  presentCards : String
  deriving Repr, DecidableEq

/-- What a notification writes over the order. -/
structure Update where
  money : String
  endTime : String
  currency : String
  orderNum : String
  deriving Repr, DecidableEq

/-- What `do_pay_record` sends: `yuan` is the value of `repr(int(price)*0.01)`. -/
structure Payment where
  today : String
  user_id : String
  user_table : String
  coin : Int
  price : String
  yuan : ℚ
  newUser : Bool
  deriving Repr, DecidableEq

inductive Cmd : Type → Type
  | hmgetSession (sid : String) : Cmd (Option String × Option String)
  | existsSession (sid : String) : Cmd Bool
  | getPlatform (uid : String) : Cmd (Option String)
  | existsKick (sid : String) : Cmd Bool
  | getUserTable (account : String) : Cmd (Option String)
  | existsUser (user_table : String) : Cmd Bool
  | hgetParentAg (user_table : String) : Cmd (Option String)
  | hgetCoin (user_table : String) : Cmd (Option Int)
  | existsGoods (goodsId : String) : Cmd Bool
  | hmgetGoods (goodsId : String) : Cmd Goods
  | incrIndex (goodsId : String) : Cmd Int
  | setIndex (goodsId : String) (n : Int) : Cmd Unit
  | existsOrder (no : String) : Cmd Bool
  | hmgetOrder (no : String) : Cmd Order
  | place (no : String) (o : NewOrder) : Cmd Unit
  | settle (no : String) (u : Update) : Cmd Unit
  | existsSucceeded : Cmd Bool
  | sismemberSucceeded (member : String) : Cmd Bool
  | hincrbyCheckNum (no : String) : Cmd Int
  | hsetGroupId (no groupId : String) : Cmd Unit
  | sismemberPayer (user_id : String) : Cmd Bool
  | payRecord (p : Payment) : Cmd Unit

open Function (update)

def getOrder (s : St) (no : String) : Order := (s.order no).getD .blank

def putOrder (s : St) (no : String) (o : Option Order) : St := { s with order := update s.order no o }

/-- `hmset`, `sadd` and `expire` of a new order. -/
def placed (s : St) (no : String) (o : NewOrder) : St :=
  { putOrder s no (some { getOrder s no with
      money := some (toString o.money), account := some o.account, num := some o.num, type := some "pending",
      roomCards := some o.roomCards, presentCards := some o.presentCards, expires := true }) with
    pending := s.pending.sadd no }

/-- `hmset`, `srem`, `sadd` and `persist` of a paid order. -/
def settled (s : St) (no : String) (u : Update) : St :=
  { putOrder s no (some { getOrder s no with
      money := some u.money, endTime := some u.endTime, currency := some u.currency, orderNum := some u.orderNum,
      type := some "successful", expires := false }) with
    pending := s.pending.srem (orderTable no), succeeded := s.succeeded.sadd (orderTable no) }

/-- The commands of `do_pay_record`. An increment by a price Redis cannot read changes nothing. -/
def record (p : Payment) (l : Ledger) : Ledger where
  coin := incrby l.coin p.user_table p.coin
  recharge := update l.recharge p.user_table (some (addFloat (l.recharge p.user_table) (toLong p.yuan)))
  total := match redisFloat p.price with
    | some x => some (addFloat l.total x)
    | none => l.total
  day := update l.day p.today (some (addFloat (l.day p.today) (toLong p.yuan)))
  dayUsers := if p.newUser then incrby l.dayUsers p.today 1 else l.dayUsers
  payers := if p.newUser then l.payers.sadd p.user_id else l.payers

instance : Exec Cmd St where
  exec
    | .hmgetSession sid, s => ((s.session sid).getD (none, none), s)
    | .existsSession sid, s => ((s.session sid).isSome, s)
    | .getPlatform uid, s => (s.platform uid, s)
    | .existsKick sid, s => (s.kicked sid, s)
    | .getUserTable account, s => (s.userTable account, s)
    | .existsUser user_table, s => (s.isUser user_table, s)
    | .hgetParentAg user_table, s => (s.parentAg user_table, s)
    | .hgetCoin user_table, s => (s.ledger.coin user_table, s)
    | .existsGoods goodsId, s => ((s.goods goodsId).isSome, s)
    | .hmgetGoods goodsId, s => ((s.goods goodsId).getD ⟨none, none, none⟩, s)
    | .incrIndex goodsId, s => (val s.index goodsId + 1, { s with index := incrby s.index goodsId 1 })
    | .setIndex goodsId n, s => ((), { s with index := update s.index goodsId (some n) })
    | .existsOrder no, s => ((s.order no).isSome, s)
    | .hmgetOrder no, s => (getOrder s no, s)
    | .place no o, s => ((), placed s no o)
    | .settle no u, s => ((), settled s no u)
    | .existsSucceeded, s => (s.succeeded.members ≠ [], s)
    | .sismemberSucceeded member, s => (member ∈ s.succeeded, s)
    | .hincrbyCheckNum no, s =>
      ((getOrder s no).CheckNum.getD 0 + 1,
        putOrder s no (some { getOrder s no with CheckNum := some ((getOrder s no).CheckNum.getD 0 + 1) }))
    | .hsetGroupId no groupId, s => ((), putOrder s no (some { getOrder s no with groupId := some groupId }))
    | .sismemberPayer user_id, s => (user_id ∈ s.ledger.payers, s)
    | .payRecord p, s => ((), { s with ledger := record p s.ledger })

/-- What the pipelines write: an order with its amount, and a payment. -/
inductive Ev where
  | placed (no : String) (money : Int)
  | recorded (p : Payment)
  deriving Repr, DecidableEq

instance : Note Cmd Ev where
  note
    | .place no o, _ => [.placed no o.money]
    | .payRecord p, _ => [.recorded p]
    | _, _ => []

abbrev Handler := Prog Err Cmd

open Prog (call orRaise)

/-- A dictionary, as a list of its items. -/
abbrev Dict := List (String × String)

def get (d : Dict) (k : String) : Option String := (d.find? (·.1 = k)).map Prod.snd

structure Reply where
  code : Int
  msg : Option String
  osid : Option String
  outTradeNo : Option String
  roomCard : Option Int
  deriving Repr, DecidableEq

/-- `{'code': .., 'msg': ..}`. -/
def Reply.fail (code : Int) (msg : String) : Reply := ⟨code, some msg, none, none, none⟩

def Reply.refused (e : Common.Refusal) : Reply := ⟨e.code, some e.msg, e.osid, none, none⟩

/-! ## Sessions -/

def asked : Common.SessionCmds Cmd := ⟨.hmgetSession, .getPlatform, .existsKick, .existsSession, .getUserTable, .existsUser⟩

/-- What the handlers begin with: what to answer, or the account and the table of its user. -/
def checkSession (sid : String) : Handler (Except Reply (Option String × String)) := do
  let info ← asked.getInfoBySid sid
  match ← asked.checkSessionVerfiy sid info with
  | .error e => return .error (.refused e)
  | .ok user_table => return .ok (info.account, user_table)

/-! ## Creating an order -/

/-- `"%0wd" % n`. -/
def zeroPad (w : Nat) (n : Int) : String :=
  let digits := toString n.natAbs
  let sign := if n < 0 then "-" else ""
  sign ++ String.ofList (List.replicate (w - (sign.length + digits.length)) '0') ++ digits

/-- `getOutTradeNo`: the clock, the goods, the index and random digits up to 32. -/
def getOutTradeNo (stamp goodsNum : String) (num : Int) (rand : Nat → Fin 10) : Option String :=
  (int goodsNum).map fun goodsNum =>
    let no := stamp ++ zeroPad 3 goodsNum ++ zeroPad 10 num
    no ++ String.join ((List.range (32 - no.length)).map fun i => toString (rand i).val)

/-- A request to `/onWeChatPay`: its form, the clock, the digits it draws, and what WeChat answers. -/
structure OrderReq where
  sid : String
  goodsId : String
  stamp : String
  rand : Nat → Fin 10
  answer : Dict

/-- The index of the next order of the goods. -/
def nextIndex (goodsId : String) : Handler Int := do
  let orderIndex ← call (.incrIndex goodsId)
  if 10000000000 ≤ orderIndex then
    call (.setIndex goodsId 0)
    call (.incrIndex goodsId)
  else return orderIndex

/-- `/onWeChatPay`, up to what it writes: what to answer, or the order. -/
def newOrder (r : OrderReq) : Handler (Except Reply (String × NewOrder)) := do
  match ← checkSession r.sid with
  | .error reply => return .error reply
  | .ok (account, _) =>
    let goods ← call (.hmgetGoods r.goodsId)
    if !(← call (.existsGoods r.goodsId)) then return .error (.fail (-1) "goods not found")
    let orderIndex ← nextIndex r.goodsId
    let outTradeNo ← orRaise .ValueError (getOutTradeNo r.stamp r.goodsId orderIndex r.rand)
    let goodsPrice ← orRaise .TypeError goods.price
    let goodsPrice ← orRaise .ValueError (float goodsPrice)
    -- the index is counted, whatever WeChat answers
    if r.answer = [] then return .error (.fail (-1) "微信支付失败")
    let return_code ← orRaise .KeyError (get r.answer "return_code")
    if return_code ≠ "SUCCESS" then return .error (.fail (-1) "微信支付未开启")
    let _prepayID ← orRaise .KeyError (get r.answer "prepay_id")
    return .ok (outTradeNo,
      { money := truncate (floatMul 100 goodsPrice), account := fmt account, num := r.goodsId
        roomCards := fmt goods.cards, presentCards := fmt goods.present_cards })

/-- `/onWeChatPay`. -/
def onWeChatPay (r : OrderReq) : Handler Reply := do
  match ← newOrder r with
  | .error reply => return reply
  | .ok (outTradeNo, o) =>
    call (.place outTradeNo o)
    -- the order is written before these fields of the answer are looked up
    let _info ← orRaise .KeyError (get r.answer "app_prepay_info")
    let _appid ← orRaise .KeyError (get r.answer "sub_appid")
    return ⟨0, none, none, some outTradeNo, none⟩

/-! ## Notifications -/

/-- The answer to WeChat. -/
structure WxReply where
  return_code : String
  return_msg : String
  deriving Repr, DecidableEq

/-- `convert_util.to_int`. -/
def toInt (x : Option String) : Int := (x.bind int).getD 0

section Notify
variable (md5 : String → String)

def MCH_KEY_FISH : String := "974a0bbae55f0dc9bb2270cbb63679b5"

def genSign4fish (params : Dict) : String :=
  let param_list := ((params.insertionSort fun p q => p.1 ≤ q.1).filter (·.2 ≠ "")).map fun p => p.1 ++ "=" ++ p.2
  (md5 (String.intercalate "&" (param_list ++ ["key=" ++ MCH_KEY_FISH]))).toUpper

def paraFilter (params : Dict) : Dict := params.filter fun p => p.1.toLower ≠ "sign" ∧ p.2 ≠ ""

def checkSign (params : Dict) : Bool :=
  match get params "sign" with
  | none => false
  | some wx_sign => wx_sign = genSign4fish md5 (paraFilter params)

/-- `verfiyRcvDatas`: nothing of the notification is compared with the order. -/
def verfiyRcvDatas (params : Dict) : Handler Bool := do
  let outTradeNo ← orRaise .KeyError (get params "out_trade_no")
  if !(← call (.existsOrder outTradeNo)) then return false
  let total_fee ← orRaise .KeyError (get params "total_fee")
  let time_end ← orRaise .KeyError (get params "time_end")
  let fee_type ← orRaise .KeyError (get params "fee_type")
  let transaction_id ← orRaise .KeyError (get params "transaction_id")
  -- over the order's own amount
  call (.settle outTradeNo ⟨total_fee, time_end, fee_type, transaction_id⟩)
  return true

/-- `do_pay_record`. Where the price is no integer nothing is sent. -/
def doPayRecord (today user_id user_table : String) (coin : Int) (price : Option String) : Handler Unit := do
  match price with
  | none => return ()
  | some price => match int price with
    | none => return ()
    | some n =>
      let known ← call (.sismemberPayer user_id)
      let yuan := shortest (floatMul n (toDouble (1 / 100)))
      call (.payRecord { today, user_id, user_table, coin, price, yuan, newUser := !known })
      -- the pipeline is executed all the same
      if (redisFloat price).isNone then Prog.raise .ResponseError

/-- `do_add_fishcoin_2_members`. -/
def doAddFishcoin2Members (today transNo : String) : Handler Unit := do
  -- the log line of a missing order names a variable there is not
  if !(← call (.existsOrder transNo)) then Prog.raise .NameError
  let o ← call (.hmgetOrder transNo)
  let userTable ← orRaise .AttributeError (← call (.getUserTable (fmt o.account)))
  let user_id ← orRaise .IndexError (split ':' userTable)[1]?
  doPayRecord today user_id userTable (toInt o.roomCards) o.money

/-- `/notifyServer`. -/
def paymentNotifyServer (today : String) (params : Dict) : Handler WxReply := do
  if !checkSign md5 params then return ⟨"FAIL", "签名校验失败"⟩
  let result_code ← orRaise .KeyError (get params "result_code")
  if result_code ≠ "SUCCESS" then return ⟨"FAIL", "请求失败"⟩
  if !(← verfiyRcvDatas params) then return ⟨"FAIL", "数据校验失败"⟩
  let outTradeNo ← orRaise .KeyError (get params "out_trade_no")
  doAddFishcoin2Members today outTradeNo
  return ⟨"SUCCESS", "支付成功"⟩

end Notify

/-! ## Checking an order -/

/-- `/checkOrder`. -/
def checkOrder (sid outTradeNo : String) : Handler Reply := do
  match ← checkSession sid with
  | .error reply => return reply
  | .ok (_, user_table) =>
    if outTradeNo = "" then return .fail (-1) "outTradeNo不存在"
    if !(← call .existsSucceeded) then return ⟨-9, none, none, none, none⟩
    if !(← call (.sismemberSucceeded (orderTable outTradeNo))) then return ⟨-9, none, none, none, none⟩
    -- the next two write to the order even if there is no record of it
    let _checkNum ← call (.hincrbyCheckNum outTradeNo)
    let groupId ← call (.hgetParentAg user_table)
    call (.hsetGroupId outTradeNo (fmt groupId))
    let roomCard ← call (.hgetCoin user_table)
    return ⟨0, none, none, none, roomCard⟩

end FishWeb.Pay
