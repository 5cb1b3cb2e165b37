import FishWeb.Pay.Model
import FishWeb.Rate.Model
import FishWeb.Wealth.Model
/-!
# Diamonds for money

`/notifyServer` of `hall/hall.py`, with `verfiyRcvDatas` and `addRoomCard2Member` of
`hall/hall_func.py`: a notification of WeChat marks its order and credits the user, and the
agents above him get their shares. `addGold2Merber` is in `Wealth.Model`.

As in `Pay.Model` a pipeline is one command, a notification is the fields of its XML
and `md5` is a parameter. `today` is the day and `depth` how many calls of a recursion
the interpreter has left. Left out: `saveBuyGoldRecord`, which catches its exceptions.
-/
open Python Prog Counters

namespace FishWeb.Diamond

open Pay (Dict get Order Update WxReply paraFilter)

/-! ## The store -/

/-- The integers that a payment adds to. -/
inductive Counter where
  /-- `USER4AGENT_CARD % (groupId, id)` -/
  | card (groupId id : String)
  /-- `USER4AGENT_RECHARGE % (groupId, id)` -/
  | recharge (groupId id : String)
  /-- `hget (FORMAT_USER_TABLE % uid, 'gold')` -/
  | gold (uid : String)
  /-- `DAILY_GOLD2_SUM % ymd` -/
  | dailyGold (ymd : String)
  /-- `DAILY_ACCOUNT_GOLD2_SUM % (account, ymd)` -/
  | dailyAccountGold (account ymd : String)
  /-- `DAILY_ACCOUNT_GOLD2_MONEY_SUM % (account, ymd)` -/
  | dailyAccountMoney (account ymd : String)
  /-- `DAILY_GOLD2_MONEY_SUM % ymd` -/
  | dailyMoney (ymd : String)
  /-- `allplayer:charge:rmb:sum` -/
  | charge
  deriving Repr, DecidableEq

structure St where
  /-- `ORDER_TABLE % no` -/
  order : String → Option Order
  /-- `PENDING_ORDER` -/
  pending : MemberSet String
  /-- `SUCCEED_ORDER` -/
  succeeded : MemberSet String
  /-- `hget (GOODS_TABLE % goodid, 'type')` -/
  goodsType : String → Option String
  /-- `FORMAT_ACCOUNT2USER_TABLE % account` -/
  userTable : String → Option String
  parentAg : String → Option String
  rate : Rate.St
  counter : Table Counter
  /-- `DAILY_USER_GOLD2_SET % ymd` -/
  goldUsers : String → MemberSet String
  /-- `PLAYER_DAY_USE_CARD % (id, ymd)` -/
  dayUse : String → String → List String

/-- `ORDER_TABLE % no`. -/
def orderTable (no : String) : String := "orders:id:" ++ no

/-! ## Commands -/

open Function (update)

/-- The commands of a pipeline. `incrby` of no amount is one that Redis refuses. -/
inductive Write where
  | incrby (k : Counter) (amount : Option Int)
  | set (k : Counter) (n : Int)
  | saddGoldUser (ymd account : String)

def Write.apply (s : St) : Write → St
  | .incrby k (some n) => { s with counter := Counters.incrby s.counter k n }
  | .incrby _ none => s
  | .set k n => { s with counter := update s.counter k (some n) }
  | .saddGoldUser ymd account => { s with goldUsers := update s.goldUsers ymd ((s.goldUsers ymd).sadd account) }

def Write.refused : Write → Bool
  | .incrby _ none => true
  | _ => false

/-- What `execute()[0]` of a pipeline is, unless a command is refused. -/
def answer (s : St) (pipe : List Write) : Option Int :=
  if pipe.any Write.refused then none
  else match pipe with
    | .incrby k (some n) :: _ => some (val s.counter k + n)
    | _ => some 0

inductive Own : Type → Type
  | existsOrder (no : String) : Own Bool
  | settle (no : String) (u : Update) : Own Unit
  | hmgetOrder (no : String) : Own Order
  | hgetGoodsType (goodid : String) : Own (Option String)
  | getUserTable (account : String) : Own (Option String)
  | hgetParentAg (userTable : String) : Own (Option String)
  | existsRecharge (groupId id : String) : Own Bool
  | execute (pipe : List Write) : Own (Option Int)
  | lpushDayUse (id ymd useStr : String) : Own Unit

/-- The commands of the payment and those of the shares. -/
inductive Cmd (β : Type) : Type
  | own (c : Own β)
  | rate (c : Rate.Cmd β)

def getOrder (s : St) (no : String) : Order := (s.order no).getD .blank

/-- `hmset`, `srem`, `sadd` and `persist` of a paid order. -/
def settled (s : St) (no : String) (u : Update) : St :=
  { s with
    order := update s.order no (some { getOrder s no with
      money := some u.money, endTime := some u.endTime, currency := some u.currency, orderNum := some u.orderNum,
      type := some "successful", expires := false })
    pending := s.pending.srem (orderTable no), succeeded := s.succeeded.sadd (orderTable no) }

instance : Exec Own St where
  exec
    | .existsOrder no, s => ((s.order no).isSome, s)
    | .settle no u, s => ((), settled s no u)
    | .hmgetOrder no, s => (getOrder s no, s)
    | .hgetGoodsType goodid, s => (s.goodsType goodid, s)
    | .getUserTable account, s => (s.userTable account, s)
    | .hgetParentAg userTable, s => (s.parentAg userTable, s)
    | .existsRecharge groupId id, s => ((s.counter (.recharge groupId id)).isSome, s)
    | .execute pipe, s => (answer s pipe, pipe.foldl Write.apply s)
    | .lpushDayUse id ymd useStr, s =>
      ((), { s with dayUse := update s.dayUse id (update (s.dayUse id) ymd (useStr :: s.dayUse id ymd)) })

instance : Exec Cmd St where
  exec
    | .own c, s => Exec.exec c s
    | .rate c, s => ((Exec.exec c s.rate).1, { s with rate := (Exec.exec c s.rate).2 })

/-- What a payment leaves: a sale recorded with an agent, and what a counter has grown by. -/
inductive Ev where
  | shared (sale : Rate.Sale)
  | added (k : Counter) (n : Int)
  deriving DecidableEq

def Write.event : Write → Option Ev
  | .incrby k (some n) => some (.added k n)
  | _ => none

instance : Note Own Ev where
  note
    | .execute pipe, _ => pipe.filterMap Write.event
    | _, _ => []

instance : Note Cmd Ev where
  note
    | .own c, b => Note.note c b
    | .rate c, b => (Note.note c b).map .shared

abbrev Handler := Prog Err Cmd

def send {β : Type} (c : Own β) : Handler β := .cmd (.own c) .ret

/-- A handler of `Rate.Model`. -/
def rate {α : Type} (p : Rate.Handler α) : Handler α := p.lift fun _ => .rate

/-! ## Signatures -/

section Notify
variable (md5 : String → String)

def MCH_KEY : String := "F82461BB1DA6946271F3457AF94BBE9B"

def MCH_KEY_TX : String := "ed6daadda7ddd245f60e4ef20b8d543d"

def signWith (key : String) (params : Dict) : String :=
  let param_list := ((params.insertionSort fun p q => p.1 ≤ q.1).filter (·.2 ≠ "")).map fun p => p.1 ++ "=" ++ p.2
  (md5 (String.intercalate "&" (param_list ++ ["key=" ++ key]))).toUpper

def genSign (params : Dict) : String := signWith md5 MCH_KEY params

def genSign4TX (params : Dict) : String := signWith md5 MCH_KEY_TX params

def checkSign (params : Dict) : Bool :=
  match get params "sign" with
  | none => false
  | some wx_sign => wx_sign = genSign md5 (paraFilter params) ∨ wx_sign = genSign4TX md5 (paraFilter params)

/-! ## Handlers -/

/-- `verfiyRcvDatas`: the order is marked whatever it was before. -/
def verfiyRcvDatas (params : Dict) : Handler Bool := do
  let outTradeNo ← orRaise .KeyError (get params "out_trade_no")
  if !(← send (.existsOrder outTradeNo)) then return false
  let total_fee ← orRaise .KeyError (get params "total_fee")
  let time_end ← orRaise .KeyError (get params "time_end")
  let fee_type ← orRaise .KeyError (get params "fee_type")
  let transaction_id ← orRaise .KeyError (get params "transaction_id")
  send (.settle outTradeNo ⟨total_fee, time_end, fee_type, transaction_id⟩)
  return true

/-- `pipe.execute()`. -/
def execute (pipe : List Write) : Handler Int := do
  orRaise .ResponseError (← send (.execute pipe))

/-- The pipeline of `addGold2Merber`. -/
def goldPipe (today account uid money num : String) : List Write :=
  [.incrby (.gold uid) (redisInt num), .saddGoldUser today account, .incrby (.dailyGold today) (redisInt num),
    .incrby (.dailyAccountGold account today) (redisInt num), .incrby (.dailyAccountMoney account today) (redisInt money),
    .incrby (.dailyMoney today) (redisInt money)]

def goldSale (today : String) : Wealth.GoldSale Cmd where
  getUserTable account := send (.getUserTable account)
  execute uid account money num := do let _ ← execute (goldPipe today account uid money num)
  saveBuyGoldRecord _ := return ()

/-- `int(rType) if rType else None`. -/
def goodsKind : Option String → Except Err (Option Int)
  | none => .ok none
  | some rType =>
    if rType = "" then .ok none
    else match int rType with
      | some n => .ok (some n)
      | none => .error .ValueError

/-- `int(present_card)`, or zero. -/
def presentOf (present_card : Option String) : Int := (present_card.bind int).getD 0

/-- `int(cardNums)`. -/
def cardNumsOf : Option String → Handler Int
  | some cardNums => orRaise .ValueError (int cardNums)
  | none => .raise .TypeError

/-- The pipeline of `addRoomCard2Member`. -/
def cardPipe (groupId id : String) (cardNums present_card : Int) (known : Bool) : List Write :=
  [.incrby (.card groupId id) (some (cardNums + present_card))] ++
    (if known then [] else [.set (.recharge groupId id) 0]) ++ [.incrby (.recharge groupId id) (some cardNums)]

/-- `addRoomCard2Member4Type2`. -/
def addRoomCard2Member4Type2 (today : String) (o : Order) : Handler Unit :=
  (goldSale today).addGold2Merber (fmt o.account) (fmt o.money) (fmt o.roomCards)

/-- `addRoomCard2Member`, for goods of another type. -/
def addRoomCards (today : String) (depth : Nat) (o : Order) : Handler Unit := do
  let userTable ← send (.getUserTable (fmt o.account))
  let groupId := fmt (← send (.hgetParentAg (fmt userTable)))
  let id ← orRaise .IndexError (split ':' (← orRaise .AttributeError userTable))[1]?
  let cardNums ← cardNumsOf o.roomCards
  let known ← send (.existsRecharge groupId id)
  let cardMoney ← rate (Rate.getCardMoney depth groupId)
  rate (Rate.countRateOfAgent today cardNums cardMoney depth groupId none)
  -- the credit is in the queue up to here
  let roomCards ← execute (cardPipe groupId id cardNums (presentOf o.presentCards) known)
  send (.lpushDayUse id today (toString cardNums ++ ";4;" ++ toString roomCards))

/-- `addRoomCard2Member`. -/
def addRoomCard2Member (today : String) (depth : Nat) (transNo : String) : Handler Unit := do
  -- the log line of a missing order names a variable there is not
  if !(← send (.existsOrder transNo)) then Prog.raise .NameError
  let o ← send (.hmgetOrder transNo)
  let rType ← ofExcept (goodsKind (← send (.hgetGoodsType (fmt o.num))))
  if rType = some 2 then addRoomCard2Member4Type2 today o else addRoomCards today depth o

/-- `/notifyServer`. -/
def paymentNotifyServer (today : String) (depth : Nat) (params : Dict) : Handler WxReply := do
  if !checkSign md5 params then return ⟨"FAIL", "签名校验失败"⟩
  let result_code ← orRaise .KeyError (get params "result_code")
  if result_code ≠ "SUCCESS" then return ⟨"FAIL", "请求失败"⟩
  if !(← verfiyRcvDatas params) then return ⟨"FAIL", "数据校验失败"⟩
  addRoomCard2Member today depth (← orRaise .KeyError (get params "out_trade_no"))
  let total_fee ← orRaise .KeyError (get params "total_fee")
  let _ ← execute [.incrby .charge (some (← orRaise .ValueError (int total_fee)))]
  return ⟨"SUCCESS", "支付成功"⟩

end Notify

end FishWeb.Diamond
