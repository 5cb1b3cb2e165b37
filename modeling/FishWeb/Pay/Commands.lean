import FishWeb.Pay.Model
import FishWeb.Lib.Runs
/-!
# What creating and paying an order do

`effect_of`: a request leaves all but an index as it was, or it writes one order,
pays one, or lets one expire.
-/
open Python Prog Counters Runs
open Function (update)

namespace FishWeb.Pay

/-! ## Creating an order -/

/-- The command reads, or counts an order of some goods. -/
def Quiet ⦃β : Type⦄ (c : Cmd β) : Prop :=
  match c with
  | .place .. | .settle .. | .payRecord .. | .hincrbyCheckNum .. | .hsetGroupId .. => False
  | _ => True

/-- The store with other indices. -/
def withIndex (s : St) (i : Table String) : St := { s with index := i }

theorem quiet_exec {s : St} ⦃β : Type⦄ (c : Cmd β) (s' : St) (h : Quiet c) (hs : ∃ i, s' = withIndex s i) :
    ∃ i, (Exec.exec c s').2 = withIndex s i := by
  obtain ⟨i, rfl⟩ := hs
  cases c with
  | place | settle | payRecord | hincrbyCheckNum | hsetGroupId => exact h.elim
  | incrIndex | setIndex => exact ⟨_, rfl⟩
  | _ => exact ⟨i, rfl⟩

theorem quiet_note ⦃β : Type⦄ (c : Cmd β) (b : β) (h : Quiet c) : (Note.note c b : List Ev) = [] := by
  cases c with
  | place | settle | payRecord | hincrbyCheckNum | hsetGroupId => exact h.elim
  | _ => rfl

theorem quiet_checkSession (sid : String) : Only Quiet (checkSession sid) := by
  unfold checkSession
  have hinfo : Only Quiet (asked.getInfoBySid sid) := ⟨trivial, fun _ => ⟨trivial, fun _ => trivial⟩⟩
  apply only_bind _ hinfo
  intro info
  have hcheck : Only Quiet (asked.checkSessionVerfiy sid info) := by
    simp [Common.SessionCmds.checkSessionVerfiy, call, asked, Quiet]
  apply only_bind _ hcheck
  rintro (e | user_table) <;> trivial

theorem quiet_nextIndex (goodsId : String) : Only Quiet (nextIndex goodsId) := by
  simp [nextIndex, call, Quiet]

theorem quiet_newOrder (r : OrderReq) : Only Quiet (newOrder r) := by
  unfold newOrder
  apply only_bind _ (quiet_checkSession r.sid)
  rintro (reply | ⟨account, user_table⟩)
  · trivial
  · simp only [call, cmd_bind, ret_bind, only_cmd, only_ite, only_ret, pure_eq, implies_true, true_and]
    refine ⟨trivial, fun goods => ⟨trivial, fun b _ => ?_⟩⟩
    apply only_bind _ (quiet_nextIndex r.goodsId)
    intro orderIndex
    simp

/-- At most an index is counted, or one order is written. -/
theorem run_onWeChatPay (r : OrderReq) (s : St) :
    (∃ i, (run (onWeChatPay r) s).2 = withIndex s i ∧ trace Ev (onWeChatPay r) s = []) ∨
      ∃ no o i, (run (onWeChatPay r) s).2 = placed (withIndex s i) no o ∧
        trace Ev (onWeChatPay r) s = [.placed no o.money] := by
  obtain ⟨i, hi⟩ := (quiet_newOrder r).run_inv (I := fun s' => ∃ i, s' = withIndex s i) quiet_exec ⟨s.index, rfl⟩
  have ht := (quiet_newOrder r).trace_nil quiet_note s
  obtain ⟨res, hrun⟩ : ∃ res, run (newOrder r) s = (res, withIndex s i) := ⟨_, Prod.ext rfl hi⟩
  unfold onWeChatPay
  rcases res with e | ⟨reply | ⟨no, o⟩⟩
  · left
    rw [run_bind_error hrun, trace_bind_error hrun, ht]
    exact ⟨i, rfl, rfl⟩
  · left
    rw [run_bind_ok hrun, trace_bind_ok hrun, ht]
    exact ⟨i, rfl, rfl⟩
  · right
    rw [run_bind_ok hrun, trace_bind_ok hrun, ht]
    refine ⟨no, o, i, ?_, ?_⟩
    · cases get r.answer "app_prepay_info" <;> cases get r.answer "sub_appid" <;> rfl
    · cases get r.answer "app_prepay_info" <;> cases get r.answer "sub_appid" <;> rfl

/-! ## A notification -/

section Notify
variable (md5 : String → String)

/-- The notification is signed, says the payment succeeded, and names an order there is; `u` is what it writes over
the order. -/
structure Settles (params : Dict) (no : String) (u : Update) (s : St) : Prop where
  signed : checkSign md5 params = true
  result : get params "result_code" = some "SUCCESS"
  out_trade_no : get params "out_trade_no" = some no
  order : (s.order no).isSome
  money : get params "total_fee" = some u.money
  endTime : get params "time_end" = some u.endTime
  currency : get params "fee_type" = some u.currency
  orderNum : get params "transaction_id" = some u.orderNum

/-- What is recorded of a paid order, if its account has a user and its amount is an integer. -/
def paymentOf (today : String) (o : Order) (s : St) : Option Payment :=
  (s.userTable (fmt o.account)).bind fun user_table =>
    (split ':' user_table)[1]?.bind fun user_id =>
      o.money.bind fun price => (int price).map fun n =>
        { today, user_id, user_table, coin := toInt o.roomCards, price
          yuan := shortest (floatMul n (toDouble (1 / 100))), newUser := !decide (user_id ∈ s.ledger.payers) }

/-- The store after a payment is recorded. -/
def recorded (p : Option Payment) (s : St) : St :=
  match p with
  | some p => { s with ledger := record p s.ledger }
  | none => s

section Paid
variable (today : String) {no : String} {s : St}

/-- What `do_pay_record` sends is recorded, also if Redis refuses one of its commands. -/
theorem run_doPayRecord (user_id user_table price : String) (coin n : Int) (h : int price = some n) :
    (run (doPayRecord today user_id user_table coin (some price)) s).2 = recorded (some
        { today, user_id, user_table, coin, price
          yuan := shortest (floatMul n (toDouble (1 / 100))), newUser := !decide (user_id ∈ s.ledger.payers) }) s ∧
      trace Ev (doPayRecord today user_id user_table coin (some price)) s = [.recorded
        { today, user_id, user_table, coin, price
          yuan := shortest (floatMul n (toDouble (1 / 100))), newUser := !decide (user_id ∈ s.ledger.payers) }] := by
  unfold doPayRecord
  simp only [h, call, cmd_bind, ret_bind, run_step, trace_step, Exec.exec, Note.note, List.nil_append]
  cases redisFloat price <;> exact ⟨rfl, rfl⟩

theorem run_doAddFishcoin2Members (h : (s.order no).isSome) :
    (run (doAddFishcoin2Members today no) s).2 = recorded (paymentOf today (getOrder s no) s) s ∧
      trace Ev (doAddFishcoin2Members today no) s = (paymentOf today (getOrder s no) s).toList.map .recorded := by
  unfold doAddFishcoin2Members paymentOf
  simp only [call, cmd_bind, ret_bind, run_step, trace_step, Exec.exec, Note.note, h, List.nil_append, Bool.not_true,
    Bool.false_eq_true, if_false]
  cases hu : s.userTable (fmt (getOrder s no).account) with
  | none => exact ⟨rfl, rfl⟩
  | some user_table =>
  simp only [orRaise_some, ret_bind, Option.bind_some]
  cases hid : (split ':' user_table)[1]? with
  | none => exact ⟨rfl, rfl⟩
  | some user_id =>
  simp only [orRaise_some, ret_bind, Option.bind_some]
  cases hm : (getOrder s no).money with
  | none => exact ⟨rfl, rfl⟩
  | some price =>
  simp only [Option.bind_some]
  cases hn : int price with
  | none =>
    constructor <;> simp [doPayRecord, hn, recorded]
  | some n => exact run_doPayRecord today user_id user_table price (toInt (getOrder s no).roomCards) n hn

/-- The store after an order is paid. -/
def credited (today no : String) (u : Update) (s : St) : St :=
  recorded (paymentOf today (getOrder (settled s no u) no) (settled s no u)) (settled s no u)

variable {params : Dict} {u : Update}

theorem run_verfiyRcvDatas (h : Settles md5 params no u s) : run (verfiyRcvDatas params) s = (.ok true, settled s no u) ∧
    trace Ev (verfiyRcvDatas params) s = [] := by
  unfold verfiyRcvDatas
  simp only [h.out_trade_no, h.money, h.endTime, h.currency, h.orderNum, orRaise_some, ret_bind, call, cmd_bind]
  constructor <;> simp [Exec.exec, Note.note, h.order]

theorem run_notify (h : Settles md5 params no u s) :
    (run (paymentNotifyServer md5 today params) s).2 = credited today no u s ∧
      trace Ev (paymentNotifyServer md5 today params) s =
        (paymentOf today (getOrder (settled s no u) no) (settled s no u)).toList.map .recorded := by
  obtain ⟨hrun, htrace⟩ := run_verfiyRcvDatas md5 h
  have horder : ((settled s no u).order no).isSome := by simp [settled, putOrder]
  obtain ⟨hadd, haddt⟩ := run_doAddFishcoin2Members today horder
  unfold paymentNotifyServer
  simp only [h.signed, h.result, h.out_trade_no, orRaise_some, ret_bind, Bool.not_true, Bool.false_eq_true, if_false,
    ne_eq, not_true_eq_false]
  rw [run_bind_ok hrun, trace_bind_ok hrun, htrace]
  simp only [Bool.not_true, Bool.false_eq_true, if_false, List.nil_append, pure_eq]
  rw [run_bind_ret, trace_bind_ret]
  exact ⟨hadd, haddt⟩

/-- A notification that passes the check of its result is refused by the check of its order, or a field is missing. -/
theorem run_verfiyRcvDatas_refused (hsign : checkSign md5 params = true) (hres : get params "result_code" = some "SUCCESS")
    (h : ∀ no u, ¬Settles md5 params no u s) :
    ((∃ e, run (verfiyRcvDatas params) s = (.error e, s)) ∨ run (verfiyRcvDatas params) s = (.ok false, s)) ∧
      trace Ev (verfiyRcvDatas params) s = [] := by
  unfold verfiyRcvDatas
  cases hno : get params "out_trade_no" with
  | none => exact ⟨.inl ⟨_, rfl⟩, rfl⟩
  | some no =>
  cases horder : (s.order no).isSome with
  | false => constructor <;> simp [call, Exec.exec, Note.note, horder]
  | true =>
  cases hmoney : get params "total_fee" with
  | none => constructor <;> simp [call, Exec.exec, Note.note, horder]
  | some money =>
  cases hend : get params "time_end" with
  | none => constructor <;> simp [call, Exec.exec, Note.note, horder]
  | some endTime =>
  cases hcur : get params "fee_type" with
  | none => constructor <;> simp [call, Exec.exec, Note.note, horder]
  | some currency =>
  cases hnum : get params "transaction_id" with
  | none => constructor <;> simp [call, Exec.exec, Note.note, horder]
  | some orderNum =>
    exact absurd ⟨hsign, hres, hno, horder, hmoney, hend, hcur, hnum⟩ (h no ⟨money, endTime, currency, orderNum⟩)

theorem run_notify_refused (h : ∀ no u, ¬Settles md5 params no u s) :
    (run (paymentNotifyServer md5 today params) s).2 = s ∧ trace Ev (paymentNotifyServer md5 today params) s = [] := by
  unfold paymentNotifyServer
  cases hsign : checkSign md5 params with
  | false => constructor <;> simp
  | true =>
  cases hres : get params "result_code" with
  | none => constructor <;> simp
  | some result_code =>
  by_cases hs : result_code = "SUCCESS"
  · subst hs
    obtain ⟨hrun, htrace⟩ := run_verfiyRcvDatas_refused md5 hsign hres h
    simp only [orRaise_some, ret_bind, Bool.not_true, Bool.false_eq_true, if_false, ne_eq, not_true_eq_false]
    rcases hrun with ⟨e, hrun⟩ | hrun
    · rw [run_bind_error hrun, trace_bind_error hrun]
      exact ⟨rfl, htrace⟩
    · rw [run_bind_ok hrun, trace_bind_ok hrun, htrace]
      exact ⟨rfl, rfl⟩
  · constructor <;> simp [hs]

end Paid

/-! ## Orders after a write -/

section Orders
variable (no : String)

theorem order_putOrder (s : St) (n : String) (o : Option Order) :
    (putOrder s n o).order no = if no = n then o else s.order no := by
  unfold putOrder
  by_cases h : no = n
  · subst h; simp
  · simp [h]

theorem getOrder_putOrder (s : St) (n : String) (o : Option Order) :
    getOrder (putOrder s n o) no = if no = n then o.getD .blank else getOrder s no := by
  unfold getOrder
  rw [order_putOrder]
  split <;> rfl

theorem order_placed (s : St) (n : String) (o : NewOrder) (h : no ≠ n) : (placed s n o).order no = s.order no :=
  (order_putOrder ..).trans (if_neg h)

theorem order_settled (s : St) (n : String) (u : Update) (h : no ≠ n) : (settled s n u).order no = s.order no :=
  (order_putOrder ..).trans (if_neg h)

/-- The order as it is written. -/
def NewOrder.written (o : NewOrder) (old : Order) : Order :=
  { old with
    money := some (toString o.money), account := some o.account, num := some o.num, type := some "pending",
    roomCards := some o.roomCards, presentCards := some o.presentCards, expires := true }

/-- The order as it is paid. -/
def Update.written (u : Update) (old : Order) : Order :=
  { old with
    money := some u.money, endTime := some u.endTime, currency := some u.currency, orderNum := some u.orderNum,
    type := some "successful", expires := false }

theorem getOrder_placed (s : St) (n : String) (o : NewOrder) :
    getOrder (placed s n o) no = if no = n then o.written (getOrder s n) else getOrder s no := getOrder_putOrder ..

theorem getOrder_settled (s : St) (n : String) (u : Update) :
    getOrder (settled s n u) no = if no = n then u.written (getOrder s n) else getOrder s no := getOrder_putOrder ..

theorem order_recorded (p : Option Payment) (s : St) : (recorded p s).order no = s.order no := by
  cases p <;> rfl

theorem getOrder_credited (today : String) (s : St) (n : String) (u : Update) :
    getOrder (credited today n u s) no = getOrder (settled s n u) no := by
  unfold getOrder credited
  rw [order_recorded]

end Orders

/-! ## Requests -/

/-- A request, or an order whose hour is over. -/
inductive Req where
  | create (r : OrderReq)
  | notify (today : String) (params : Dict)
  | expire (no : String)

/-- The store after a request. A key goes only if it was to expire. -/
def step (r : Req) (s : St) : St :=
  match r with
  | .create r => (run (onWeChatPay r) s).2
  | .notify today params => (run (paymentNotifyServer md5 today params) s).2
  | .expire no => if (getOrder s no).expires then putOrder s no none else s

/-- What a request writes of note. -/
def events (r : Req) (s : St) : List Ev :=
  match r with
  | .create r => trace Ev (onWeChatPay r) s
  | .notify today params => trace Ev (paymentNotifyServer md5 today params) s
  | .expire _ => []

/-- What a request does to the store, and what it writes. -/
inductive Effect (s : St) : Req → List Ev → St → Prop
  | nothing (r : OrderReq) (i : Table String) : Effect s (.create r) [] (withIndex s i)
  | placed (r : OrderReq) (no : String) (o : NewOrder) (i : Table String) :
      Effect s (.create r) [.placed no o.money] (placed (withIndex s i) no o)
  | paid (today : String) (params : Dict) (no : String) (u : Update) (h : Settles md5 params no u s) :
      Effect s (.notify today params)
        ((paymentOf today (getOrder (settled s no u) no) (settled s no u)).toList.map .recorded) (credited today no u s)
  | refused (today : String) (params : Dict) (h : ∀ no u, ¬Settles md5 params no u s) :
      Effect s (.notify today params) [] s
  | expired (no : String) (h : (getOrder s no).expires = true) : Effect s (.expire no) [] (putOrder s no none)
  | unexpired (no : String) : Effect s (.expire no) [] s

theorem effect_of (r : Req) (s : St) : Effect md5 s r (events md5 r s) (step md5 r s) := by
  unfold events step
  cases r with
  | create r =>
    dsimp only
    rcases run_onWeChatPay r s with ⟨i, hrun, htrace⟩ | ⟨no, o, i, hrun, htrace⟩
    · rw [hrun, htrace]
      exact .nothing r i
    · rw [hrun, htrace]
      exact .placed r no o i
  | notify today params =>
    dsimp only
    by_cases h : ∃ no u, Settles md5 params no u s
    · obtain ⟨no, u, h⟩ := h
      obtain ⟨hrun, htrace⟩ := run_notify md5 today h
      rw [hrun, htrace]
      exact .paid today params no u h
    · have h : ∀ no u, ¬Settles md5 params no u s := fun no u hs => h ⟨no, u, hs⟩
      obtain ⟨hrun, htrace⟩ := run_notify_refused md5 today h
      rw [hrun, htrace]
      exact .refused today params h
  | expire no =>
    dsimp only
    split
    · rename_i h
      exact .expired no h
    · exact .unexpired no

end Notify

/-! ## A small shop -/

/-- The number of an order. -/
def sampleNo : String := "20180601120000001000000000112345"

/-- A notification of the order, of this fee. -/
def sampleParams (fee sign : String) : Dict :=
  [("fee_type", "CNY"), ("out_trade_no", sampleNo), ("result_code", "SUCCESS"), ("sign", sign),
    ("time_end", "20180601120100"), ("total_fee", fee), ("transaction_id", "4200000001")]

/-- The digests of two notifications. -/
def sampleMd5 (s : String) : String :=
  if s = "fee_type=CNY&out_trade_no=20180601120000001000000000112345&result_code=SUCCESS&time_end=20180601120100" ++
      "&total_fee=600&transaction_id=4200000001&key=974a0bbae55f0dc9bb2270cbb63679b5" then
    "f92c5081567812703f7b434bef98501f"
  else if s = "fee_type=CNY&out_trade_no=20180601120000001000000000112345&result_code=SUCCESS&time_end=20180601120100" ++
      "&total_fee=1&transaction_id=4200000001&key=974a0bbae55f0dc9bb2270cbb63679b5" then
    "6f99544ddd8ec8f1d60731f13c0889de"
  else ""

/-- One user, no orders. -/
def emptyShop : St where
  session := fun sid => if sid = "sid" then some (some "acc", some "7") else none
  platform := fun _ => none
  kicked := fun _ => false
  userTable := fun account => if account = "acc" then some "users:7" else none
  isUser := fun user_table => user_table = "users:7"
  parentAg := fun _ => none
  goods := fun id => if id = "1" then some ⟨some "60", some "0", some "6"⟩ else none
  index := fun _ => none
  order := fun _ => none
  pending := ∅
  succeeded := ∅
  ledger := ⟨fun _ => none, fun _ => none, none, fun _ => none, fun _ => none, ∅⟩

/-- The user has ordered 60 coins for 6 yuan. -/
def sampleShop : St := placed emptyShop sampleNo ⟨600, "acc", "1", "60", "0"⟩

end FishWeb.Pay
