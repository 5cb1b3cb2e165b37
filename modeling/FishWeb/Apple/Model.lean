import FishWeb.Pay.Model
import FishWeb.Lib.Connection
/-!
# Purchases with Apple's store

`do_onAppleStorePay` of `fish/fish_pay.py`, which sells coins, and of
`hall/hall.py`, which sells diamonds. A receipt is validated, and its
transaction is credited unless a key says that it was before.

Both handlers use names of `pyinapp`, whose import is commented out. Which of them a server
binds is a parameter (`Names`); a name that is not bound raises where it is evaluated.

Any command may fail. A request brings what the validator makes of its receipt.
Left out: what the agents of the hall earn, which is counted after the purchase.
-/
open Python Counters

namespace FishWeb.Apple

inductive Shop where
  | fish | hall
  deriving Repr, DecidableEq

/-- `APP_PAY_ORDER_ITEM4FISH % transaction_id`, or `APP_PAY_ORDER_ITEM % transaction_id` of the hall. -/
structure Receipt where
  shop : Shop
  transaction_id : String
  deriving Repr, DecidableEq

/-- The counter of what a user has. -/
inductive Purse where
  /-- `hget (userTable, 'coin')` -/
  | coin (userTable : String)
  /-- `USER4AGENT_CARD % (groupId, id)` -/
  | card (groupId id : String)
  deriving Repr, DecidableEq

/-- What a purchase only reads. -/
structure Setup where
  /-- `hget (FISH_CONSTS_CONFIG, 'wechat_switch')`, or `ORDER2WEIXIN_SWITCH` of the hall. -/
  orderSwitch : Shop → Option String
  /-- `hall:session:%s`: the account and the uid. -/
  session : String → Option (Option String × Option String)
  /-- `session:%s` -/
  platform : String → Option String
  /-- `users:account:%s` -/
  userTable : String → Option String
  /-- The table of a user exists. -/
  isUser : String → Bool
  parentAg : String → Option String
  /-- `cards` of `GOODS_TABLE4FISH % bundle_id`, or of `GOODS_TABLE % bundle_id` of the hall. -/
  goods : Shop → String → Option (Option String)

structure St where
  setup : Setup
  purse : Table Purse
  receipt : Receipt → Option String
  /-- `PLAYER_DAY_USE_CARD % (id, ymd)` -/
  dayUse : String → String → List String

/-! ## Commands -/

inductive Cmd : Type → Type
  | getOrderSwitch (shop : Shop) : Cmd (Answer (Option String))
  | hmgetSession (sid : String) : Cmd (Answer (Option String × Option String))
  | getPlatform (uid : String) : Cmd (Answer (Option String))
  | existsSession (sid : String) : Cmd (Answer Bool)
  | getUserTable (account : String) : Cmd (Answer (Option String))
  | existsUser (userTable : String) : Cmd (Answer Bool)
  | hgetParentAg (userTable : String) : Cmd (Answer (Option String))
  | existsReceipt (t : Receipt) : Cmd (Answer Bool)
  | existsGoods (shop : Shop) (bundle_id : String) : Cmd (Answer Bool)
  | hgetCards (shop : Shop) (bundle_id : String) : Cmd (Answer (Option String))
  | incrby (p : Purse) (n : Int) : Cmd (Answer Int)
  | setReceipt (t : Receipt) (productid : String) : Cmd (Answer Unit)
  | lpushDayUse (id ymd useStr : String) : Cmd (Answer Unit)
  | getPurse (p : Purse) : Cmd (Answer (Option Int))

open Function (update)

instance : Exec Cmd (Line St) where
  exec
    | .getOrderSwitch shop, s => s.send fun s => (s.setup.orderSwitch shop, s)
    | .hmgetSession sid, s => s.send fun s => ((s.setup.session sid).getD (none, none), s)
    | .getPlatform uid, s => s.send fun s => (s.setup.platform uid, s)
    | .existsSession sid, s => s.send fun s => ((s.setup.session sid).isSome, s)
    | .getUserTable account, s => s.send fun s => (s.setup.userTable account, s)
    | .existsUser userTable, s => s.send fun s => (s.setup.isUser userTable, s)
    | .hgetParentAg userTable, s => s.send fun s => (s.setup.parentAg userTable, s)
    | .existsReceipt t, s => s.send fun s => ((s.receipt t).isSome, s)
    | .existsGoods shop bundle_id, s => s.send fun s => ((s.setup.goods shop bundle_id).isSome, s)
    | .hgetCards shop bundle_id, s => s.send fun s => ((s.setup.goods shop bundle_id).join, s)
    | .incrby p n, s => s.send fun s => (val s.purse p + n, { s with purse := Counters.incrby s.purse p n })
    | .setReceipt t productid, s => s.send fun s => ((), { s with receipt := update s.receipt t (some productid) })
    | .lpushDayUse id ymd useStr, s => s.send fun s =>
      ((), { s with dayUse := update s.dayUse id (update (s.dayUse id) ymd (useStr :: s.dayUse id ymd)) })
    | .getPurse p, s => s.send fun s => (s.purse p, s)

/-- What can be seen of a purchase: its transaction is found unused, a purse is credited, the transaction is recorded. -/
inductive Ev where
  | unused (t : Receipt)
  | credited (p : Purse) (n : Int)
  | recorded (t : Receipt)
  deriving Repr, DecidableEq

/-- A test shows something if its answer comes back. -/
def Receipt.tested (t : Receipt) : Answer Bool → List Ev
  | .ok false => [.unused t]
  | .ok true | .refused | .lost _ => []

instance : Note Cmd Ev where
  note
    | .existsReceipt t, a => t.tested a
    | .incrby p n, a => (a.executed.map fun _ => .credited p n).toList
    | .setReceipt t _, a => (a.executed.map fun _ => .recorded t).toList
    | _, _ => []

abbrev Handler := Prog Err Cmd

open Prog (orRaise attempt loadName)

def send {β : Type} (c : Cmd (Answer β)) : Handler β := Prog.ask .ConnectionError c

structure Reply where
  code : Int
  msg : String
  osid : Option String
  roomCard : Option Int
  deriving Repr, DecidableEq

/-- `{'code': .., 'msg': ..}`. -/
def Reply.fail (code : Int) (msg : String) : Reply := ⟨code, msg, none, none⟩

/-! ## Names -/

/-- The names that the handlers use of `pyinapp`. -/
inductive Name where
  | AppStoreValidator | InAppValidationError

/-- The names that a server binds. -/
abbrev Names := Name → Bool

/-- The servers bind neither: `#from pyinapp import *`. -/
def servers : Names := fun _ => false

/-- A server that imports `pyinapp`. -/
def imported : Names := fun _ => true

/-! ## Handlers -/

structure Purchase where
  product_id : String
  transaction_id : String
  deriving Repr, DecidableEq

/-- A request: its form, what the validator makes of its data (an error's text, or purchases), and the day. -/
structure Req where
  shop : Shop
  sid : String
  bundle_id : String
  purchases : Except String (List Purchase)
  today : String

/-- `getInfoBySid` and the checks after it: what to answer, or the table, the agent and the id of the user. -/
def getUser (sid : String) : Handler (Except Reply (String × Option String × String)) := do
  let (account, uid) ← send (.hmgetSession sid)
  let verfiySid := (← send (.getPlatform (fmt uid))).getD ""
  if verfiySid ≠ "" ∧ sid ≠ verfiySid then return .error ⟨-4, "账号已在其他地方登录", some sid, none⟩
  if !(← send (.existsSession sid)) then return .error (.fail (-3) "sid 超时")
  let userTable ← send (.getUserTable (fmt account))
  if !(← send (.existsUser (fmt userTable))) then return .error (.fail (-5) "该用户不存在")
  let groupId ← send (.hgetParentAg (fmt userTable))
  let userTable ← orRaise .AttributeError userTable
  let id ← orRaise .IndexError (split ':' userTable)[1]?
  return .ok (userTable, groupId, id)

/-- What the inner `try` comes to. -/
inductive Bought where
  | recorded | noGoods
  | cards (cardNums : Int)
  deriving Repr, DecidableEq

/-- The inner `try`. Nothing marks the transaction between the test and the record of it. -/
def buy (t : Receipt) (productid bundle_id : String) (p : Purse) (note : Int → Int → Handler Unit) : Handler Bought := do
  if ← send (.existsReceipt t) then return .recorded
  if !(← send (.existsGoods t.shop bundle_id)) then return .noGoods
  let cardNums ← orRaise .TypeError (← send (.hgetCards t.shop bundle_id))
  let cardNums ← orRaise .ValueError (int cardNums)
  -- a failure from here on leaves the credit without its record
  let roomCards ← send (.incrby p cardNums)
  send (.setReceipt t productid)
  note cardNums roomCards
  return .cards cardNums

def Shop.purse : Shop → String → Option String → String → Purse
  | .fish, userTable, _, _ => .coin userTable
  | .hall, _, groupId, id => .card (fmt groupId) id

section
variable (names : Names)

/-- What the two handlers share. They differ in how they read the switch, in what they note of a sale, in what they
do after the `try`, and in two messages. -/
def onAppleStorePay (shop : Shop) (r : Req) (orderSwitch : Int) (note : String → Int → Int → Handler Unit)
    (afterTry : Bought → Handler Unit) (failed bought : String) : Handler Reply := do
  if orderSwitch = 0 then return .fail (-1) "暂未开放"
  loadName .NameError names .AppStoreValidator
  match r.purchases with
  | .error e =>
    loadName .NameError names .InAppValidationError
    return .fail (-1) ("支付失败:" ++ e)
  | .ok purchases =>
    -- further purchases of the receipt are not looked at
    let purchase ← orRaise .IndexError purchases[0]?
    match ← getUser r.sid with
    | .error reply => return reply
    | .ok (userTable, groupId, id) =>
      let t : Receipt := ⟨shop, purchase.transaction_id⟩
      let p := shop.purse userTable groupId id
      match ← attempt (buy t purchase.product_id r.bundle_id p (note id)) with
      | .error _ => return .fail (-1) failed
      | .ok .recorded => return .fail (-8) ("交易ID[" ++ purchase.transaction_id ++ "]已存在")
      | .ok res =>
        afterTry res
        let roomCard ← send (.getPurse p)
        return ⟨0, bought, none, roomCard⟩

/-- `/fish/onAppleStorePay`. -/
def fishOnAppleStorePay (r : Req) : Handler Reply := do
  let orderSwitch ← send (.getOrderSwitch .fish)
  onAppleStorePay names .fish r (Pay.toInt orderSwitch) (fun _ _ _ => .ret ()) (fun _ => .ret ()) "购买失败" "购买成功"

/-- `/hall/onAppleStorePay`. After a `try` that found no goods, `cardNums` is unbound. -/
def hallOnAppleStorePay (r : Req) : Handler Reply := do
  let orderSwitch := match ← attempt (send (.getOrderSwitch .hall)) with
    | .ok orderSwitch => Pay.toInt orderSwitch
    | .error _ => 0
  let note := fun id cardNums roomCards =>
    send (.lpushDayUse id r.today (String.intercalate ";" [toString cardNums, "5", toString roomCards]))
  let afterTry := fun
    | .noGoods => Prog.raise .NameError
    | .recorded | .cards _ => .ret ()
  onAppleStorePay names .hall r orderSwitch note afterTry "购买钻石失败" "购买钻石成功"

def Req.handler (r : Req) : Handler Reply :=
  match r.shop with
  | .fish => fishOnAppleStorePay names r
  | .hall => hallOnAppleStorePay names r

end

end FishWeb.Apple
