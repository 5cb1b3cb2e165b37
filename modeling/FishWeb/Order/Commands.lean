import FishWeb.Order.Model
import FishWeb.Lib.Shelves
/-!
# What the order requests do

A confirmation goes through for whoever repeats the token of his session, which
`/order/info` gives out for any order and which is the text `None` after a
confirmation. `Effect` says what each request does to the cards and the orders;
nothing after it looks at the handlers again.
-/
open Python Prog Counters Shelves
open Function (update)

namespace FishWeb.Order

inductive Req where
  | buy (now : Clock) (rand : Nat) (sid : String) (form : BuyForm)
  | info (sid orderNo : String)
  | comfirm (now : Clock) (sid orderNo token : String)
  | cancel (now : Clock) (sid orderNo : String)
  | saleCancel (now : Clock) (sid orderNo : String)
  deriving Repr, DecidableEq

section Requests
variable (sha256 : String → String)

def Req.handler : Req → Handler Response
  | .buy now rand sid form => doBuyPage sha256 now rand sid form
  | .info sid orderNo => getOrderInfo sha256 sid orderNo
  | .comfirm now sid orderNo token => doOrderComfirm now sid orderNo token
  | .cancel now sid orderNo => doOrderCancel now sid orderNo
  | .saleCancel now sid orderNo => doOrderSaleCancel now sid orderNo

def step (r : Req) (s : St) : St := (run (r.handler sha256) s).2

end Requests

/-! ## What a confirmation does -/

def getOrder (s : St) (orderNo : String) : OrderInfo := (s.order orderNo).getD {}

/-- `session['id']`, as it formats into a key. -/
def uidOf (s : St) (sid : String) : String := fmt (s.setup.id sid)

def buyerOf (s : St) (orderNo : String) : String := fmt (s.setup.agentId (fmt (getOrder s orderNo).applyAccount))

/-- A confirmation goes through: the token is that of the session, and the cards are enough. -/
structure Payable (s : St) (sid orderNo token : String) (type n : Int) : Prop where
  login : truthy (s.setup.account sid) = true
  repeated : s.token .comfirm sid = some token
  token_ne : token ≠ ""
  saler : intOf (s.setup.type (uidOf s sid)) = .ok type
  cards : intOf (getOrder s orderNo).cardNums = .ok n
  enough : type = 0 ∨ n ≤ val s.amounts (.roomcard (uidOf s sid))

/-- Who pays and who is paid. -/
def payment (type n : Int) (seller buyer : String) : List (Purse × Int) :=
  (if type ≠ 0 then [(.roomcard seller, -n)] else []) ++ [(.roomcard buyer, n)]

def settled (now : Clock) (s : St) (orderNo : String) : OrderInfo :=
  { getOrder s orderNo with status := some "1", finish_date := some now.now }

/-- What `countCards` puts into the pipeline. -/
def reportWrite (s : St) (r : Report) (n : Int) : Write :=
  if (s.report r).isSome then .hincrbyReport r n
  else .hmsetReport r ⟨n, ((match r.side with
    | .buy => s.setup.buyTotal r.id
    | .sale => s.setup.saleTotal r.id).getD 0) + n, some r.date⟩

theorem run_countCards (s : St) (r : Report) (n : Int) :
    run (countCards r n) s = (.ok [reportWrite s r n], s) := by
  obtain ⟨side, id, date⟩ := r
  cases hr : (s.report ⟨side, id, date⟩).isSome with
  | true => simp [countCards, call, reportWrite, hr]
  | false => cases side <;> simp [countCards, call, reportWrite, hr, Exec.exec]

theorem reportWrite_increments (s : St) (r : Report) (n : Int) : (reportWrite s r n).increments = [] := by
  unfold reportWrite
  split <;> rfl

theorem reportWrite_accepted (s : St) (r : Report) (n : Int) : (reportWrite s r n).refused = false := by
  unfold reportWrite
  split <;> rfl

theorem reportWrite_frame (s : St) (r : Report) (n : Int) (s' : St) :
    ((reportWrite s r n).apply s').order = s'.order ∧ ((reportWrite s r n).apply s').count = s'.count ∧
      ((reportWrite s r n).apply s').setup = s'.setup ∧ ((reportWrite s r n).apply s').list = s'.list := by
  unfold reportWrite
  split <;> exact ⟨rfl, rfl, rfl, rfl⟩

/-- The pipeline of a confirmation that goes through. -/
def comfirmWrites (now : Clock) (s : St) (orderNo buyer seller : String) (type n : Int) : List Write :=
  settleWrites now orderNo buyer seller type n ++ [reportWrite s ⟨.buy, buyer, now.date⟩ n] ++
    [reportWrite s ⟨.sale, seller, now.date⟩ n]

theorem run_comfirmPipe {now : Clock} {orderNo buyer seller : String} {cardNums saleType : Option String} {card type n : Int}
    {s : St} (ht : intOf saleType = .ok type) (hn : intOf cardNums = .ok n) (hc : type = 0 ∨ n ≤ card) :
    run (comfirmPipe now orderNo buyer seller cardNums saleType card) s =
      (.ok (some (comfirmWrites now s orderNo buyer seller type n)), s) := by
  have hnot : ¬(type ≠ 0 ∧ card < n) := by omega
  simp only [comfirmPipe, ht, hn, ofExcept_ok, ret_bind, if_neg hnot]
  rw [run_bind_ok (run_countCards s _ n), run_bind_ok (run_countCards s _ n)]
  rfl

/-- Without the numbers, or the cards, nothing is read and written. -/
theorem comfirmPipe_not (now : Clock) (orderNo buyer seller : String) {cardNums saleType : Option String} {card : Int}
    (h : ¬∃ type n, intOf saleType = .ok type ∧ intOf cardNums = .ok n ∧ ¬(type ≠ 0 ∧ card < n)) :
    (∃ e, comfirmPipe now orderNo buyer seller cardNums saleType card = .raise e) ∨
      comfirmPipe now orderNo buyer seller cardNums saleType card = .ret none := by
  unfold comfirmPipe
  cases ht : intOf saleType with
  | error e => exact .inl ⟨e, rfl⟩
  | ok type =>
    cases hn : intOf cardNums with
    | error e => exact .inl ⟨e, rfl⟩
    | ok n =>
      have hpoor : type ≠ 0 ∧ card < n := by
        by_contra hc
        exact h ⟨type, n, ht, hn, hc⟩
      right
      simp only [ofExcept_ok, ret_bind, if_pos hpoor]
      rfl

theorem run_comfirmPipe_not {now : Clock} {orderNo buyer seller : String} {cardNums saleType : Option String} {card : Int}
    {s : St} (h : ¬∃ type n, intOf saleType = .ok type ∧ intOf cardNums = .ok n ∧ (type = 0 ∨ n ≤ card)) :
    (∃ e, run (comfirmPipe now orderNo buyer seller cardNums saleType card) s = (.error e, s)) ∨
      run (comfirmPipe now orderNo buyer seller cardNums saleType card) s = (.ok none, s) := by
  have hnot : ¬∃ type n, intOf saleType = .ok type ∧ intOf cardNums = .ok n ∧ ¬(type ≠ 0 ∧ card < n) :=
    fun ⟨type, n, ht, hn, hc⟩ => h ⟨type, n, ht, hn, by omega⟩
  rcases comfirmPipe_not now orderNo buyer seller hnot with ⟨e, heq⟩ | heq
  · exact .inl ⟨e, by rw [heq]; rfl⟩
  · exact .inr (by rw [heq]; rfl)

theorem settleWrites_accepted (now : Clock) (orderNo buyer seller : String) (type n : Int) :
    (settleWrites now orderNo buyer seller type n).any Write.refused = false := by
  unfold settleWrites
  split <;> rfl

theorem settleWrites_increments (now : Clock) (orderNo buyer seller : String) (type n : Int) :
    (settleWrites now orderNo buyer seller type n).flatMap Write.increments = payment type n seller buyer := by
  unfold settleWrites payment
  split <;> rfl

theorem comfirmWrites_accepted (now : Clock) (s : St) (orderNo buyer seller : String) (type n : Int) :
    (comfirmWrites now s orderNo buyer seller type n).any Write.refused = false := by
  simp only [comfirmWrites, List.any_append, settleWrites_accepted, List.any_cons, List.any_nil, reportWrite_accepted,
    Bool.or_false]

theorem comfirmWrites_increments (now : Clock) (s : St) (orderNo buyer seller : String) (type n : Int) :
    (comfirmWrites now s orderNo buyer seller type n).flatMap Write.increments = payment type n seller buyer := by
  simp only [comfirmWrites, List.flatMap_append, settleWrites_increments, List.flatMap_cons, List.flatMap_nil,
    reportWrite_increments, List.append_nil]

/-- What a confirmation moves: the order from the pending to the settled ones of the day, of buyer and seller. -/
def settledMoves (date buyer seller : String) : List (Listing × Move) :=
  [(.agent .buy .pending buyer date, .off), (.agent .buy .success buyer date, .on),
    (.agent .sale .pending seller date, .off), (.agent .sale .success seller date, .on)]

/-- Of the writes after the payment only the order's status and the moves are about orders. -/
theorem comfirmWrites_frame (now : Clock) (s s₀ : St) (orderNo buyer seller : String) (type n : Int) :
    (applyAll (comfirmWrites now s orderNo buyer seller type n) s₀).order = update s₀.order orderNo (some (settled now s₀ orderNo)) ∧
      (applyAll (comfirmWrites now s orderNo buyer seller type n) s₀).count = s₀.count ∧
      (applyAll (comfirmWrites now s orderNo buyer seller type n) s₀).setup = s₀.setup ∧
      (applyAll (comfirmWrites now s orderNo buyer seller type n) s₀).list =
        moves orderNo (settledMoves now.date buyer seller) s₀.list := by
  unfold comfirmWrites settleWrites applyAll
  split <;>
    simp only [List.cons_append, List.nil_append, List.foldl_cons, List.foldl_nil, reportWrite_frame] <;>
      exact ⟨rfl, rfl, rfl, rfl⟩

/-! ## The requests -/

/-- The session's token is used up, whatever becomes of the confirmation. -/
def withToken (s : St) (sid v : String) : St :=
  { s with token := update s.token .comfirm (update (s.token .comfirm) sid (some v)) }

theorem run_execute {l : List Write} (h : l.any Write.refused = false) (s : St) :
    run (execute l) s = (.ok (), applyAll l s) := by
  simp [execute, call, h]

theorem settleOrder_paid {now : Clock} {sid orderNo : String} {s : St} {type n : Int}
    (ht : intOf (s.setup.type (uidOf s sid)) = .ok type) (hn : intOf (getOrder s orderNo).cardNums = .ok n)
    (hc : type = 0 ∨ n ≤ val s.amounts (.roomcard (uidOf s sid))) :
    run (settleOrder now sid orderNo (uidOf s sid)) s = (.ok (comfirmed orderNo),
      applyAll (comfirmWrites now (withToken s sid "None") orderNo (buyerOf s orderNo) (uidOf s sid) type n)
        (withToken s sid "None")) := by
  have hattempt := run_attempt (comfirmPipe now orderNo (buyerOf s orderNo) (uidOf s sid) (getOrder s orderNo).cardNums
    (s.setup.type (uidOf s sid)) (val s.amounts (.roomcard (uidOf s sid)))) (withToken s sid "None")
  rw [run_comfirmPipe ht hn hc] at hattempt
  simp only [settleOrder, call_bind, run_step, exec_hmgetOrder, exec_getAgentId, exec_hmgetAgent, exec_setToken]
  exact (run_bind_ok hattempt).trans (run_bind_ok (run_execute (comfirmWrites_accepted ..) _))

theorem settleOrder_not (now : Clock) {sid orderNo : String} {s : St}
    (h : ¬∃ type n, intOf (s.setup.type (uidOf s sid)) = .ok type ∧ intOf (getOrder s orderNo).cardNums = .ok n ∧
      (type = 0 ∨ n ≤ val s.amounts (.roomcard (uidOf s sid)))) :
    ∃ reply, reply ≠ comfirmed orderNo ∧
      run (settleOrder now sid orderNo (uidOf s sid)) s = (.ok reply, withToken s sid "None") := by
  have hattempt := run_attempt (comfirmPipe now orderNo (buyerOf s orderNo) (uidOf s sid) (getOrder s orderNo).cardNums
    (s.setup.type (uidOf s sid)) (val s.amounts (.roomcard (uidOf s sid)))) (withToken s sid "None")
  simp only [settleOrder, call_bind, run_step, exec_hmgetOrder, exec_getAgentId, exec_hmgetAgent, exec_setToken]
  rcases run_comfirmPipe_not h with ⟨e, he⟩ | he
  · rw [he] at hattempt
    exact ⟨.msg 1 "订单确认失败.", by simp [Response.msg, comfirmed], run_bind_ok hattempt⟩
  · rw [he] at hattempt
    exact ⟨notEnough, by simp [notEnough, comfirmed], run_bind_ok hattempt⟩

theorem comfirm_paid (now : Clock) {sid orderNo token : String} {s : St} {type n : Int}
    (h : Payable s sid orderNo token type n) :
    run (doOrderComfirm now sid orderNo token) s = (.ok (comfirmed orderNo),
      applyAll (comfirmWrites now (withToken s sid "None") orderNo (buyerOf s orderNo) (uidOf s sid) type n)
        (withToken s sid "None")) := by
  have htok : truthy (some token) = true := by simp [truthy, h.token_ne]
  rw [← settleOrder_paid h.saler h.cards h.enough]
  simp [doOrderComfirm, call, h.login, h.repeated, htok, uidOf]

theorem repeated_ne_comfirmed (orderNo : String) (url : Option String) :
    Response.json 0 "请勿重复确认订单" url ≠ comfirmed orderNo := by
  intro h
  have hmsg := congrArg String.toList (Response.json.inj h).2.1
  rw [String.toList_append, String.toList_append] at hmsg
  -- the two messages begin with different characters
  exact absurd (congrArg List.head? hmsg) (by simp)

theorem comfirm_unpaid (now : Clock) {sid orderNo token : String} {s : St}
    (h : ∀ type n, ¬Payable s sid orderNo token type n) :
    ∃ reply, reply ≠ comfirmed orderNo ∧ ((run (doOrderComfirm now sid orderNo token) s) = (.ok reply, s) ∨
      (run (doOrderComfirm now sid orderNo token) s) = (.ok reply, withToken s sid "None")) := by
  by_cases hlogin : truthy (s.setup.account sid) = true
  swap
  · exact ⟨.redirect "/admin/login", by simp [comfirmed], .inl (by simp [doOrderComfirm, call, hlogin])⟩
  by_cases htok : truthy (s.token .comfirm sid) = true
  swap
  · exact ⟨.msg 1 "不合法的操作!", by simp [comfirmed, Response.msg], .inl (by simp [doOrderComfirm, call, hlogin, htok])⟩
  by_cases hsame : some token = s.token .comfirm sid
  swap
  · exact ⟨.json 0 "请勿重复确认订单" (some "/admin/order/sale/record"), repeated_ne_comfirmed orderNo _,
      .inl (by simp [doOrderComfirm, call, hlogin, htok, hsame])⟩
  have hne : token ≠ "" := by
    rw [← hsame] at htok
    simpa [truthy] using htok
  have hpoor : ¬∃ type n, intOf (s.setup.type (uidOf s sid)) = .ok type ∧ intOf (getOrder s orderNo).cardNums = .ok n ∧
      (type = 0 ∨ n ≤ val s.amounts (.roomcard (uidOf s sid))) := by
    rintro ⟨type, n, ht, hn, hc⟩
    exact h type n ⟨hlogin, hsame.symm, hne, ht, hn, hc⟩
  obtain ⟨reply, hreply, hrun⟩ := settleOrder_not now hpoor
  refine ⟨reply, hreply, .inr ?_⟩
  rw [← hrun]
  simp [doOrderComfirm, call, hlogin, htok, hsame, uidOf]

/-- The record of a new order. -/
def newOrder (now : Clock) (orderNo acc : String) (form : BuyForm) (id : Nat) : OrderInfo where
  id := some id
  orderNo := some orderNo
  cardNums := some form.cardNums
  card_present := some form.present_card
  applyAccount := some acc
  status := some "0"
  apply_date := some now.now
  finish_date := some ""
  note := some form.note
  saleAccount := some form.parentAg

theorem truthy_some {x : Option String} (h : truthy x = true) : ∃ y, x = some y := by
  cases x with
  | none => cases h
  | some y => exact ⟨y, rfl⟩

/-- Where a new order is listed: of all orders, and of its buyer and the buyer's parent under the day. -/
def newListings (date buyerId parentId : String) : List Listing :=
  [.orders, .agent .buy .order buyerId date, .agent .buy .pending buyerId date, .agent .sale .order parentId date,
    .agent .sale .pending parentId date]

/-- The store with a new order. -/
def bought (now : Clock) (rand : Nat) (sid acc : String) (form : BuyForm) (s : St) : St :=
  let orderNo := getOrderNo now (uidOf s sid) rand
  { s with
    order := update s.order orderNo (some (newOrder now orderNo acc form (s.count + 1)))
    count := s.count + 1
    list := moves orderNo ((newListings now.date (uidOf s sid) (fmt (s.setup.parent_id (uidOf s sid)))).map (·, .on))
      s.list }

/-- A purchase goes through: of more than zero cards, with the agent's password. -/
structure Buys (sha256 : String → String) (s : St) (sid : String) (form : BuyForm) (n : Int) : Prop where
  login : truthy (s.setup.account sid) = true
  access : s.setup.access sid "/admin/order/buy" = true
  cards : int form.cardNums = some n
  pos : 0 < n
  parentAg : form.parentAg ≠ ""
  passwd_ne : form.passwd ≠ ""
  passwd : s.setup.passwd (uidOf s sid) = some (sha256 form.passwd)

/-- A purchase changes nothing, or it goes through and places an order. -/
theorem buy_cases (sha256 : String → String) (now : Clock) (rand : Nat) (sid : String) (form : BuyForm) (s : St) :
    (run (doBuyPage sha256 now rand sid form) s).2 = s ∨
      ∃ n acc, Buys sha256 s sid form n ∧ s.setup.account sid = some acc ∧
        (run (doBuyPage sha256 now rand sid form) s).2 = bought now rand sid acc form s := by
  by_cases hlogin : truthy (s.setup.account sid) = true
  swap
  · left; simp [doBuyPage, call, hlogin]
  by_cases haccess : s.setup.access sid "/admin/order/buy" = true
  swap
  · left; simp [doBuyPage, call, hlogin, haccess]
  cases hn : int form.cardNums with
  | none => left; simp [doBuyPage, call, hlogin, haccess, hn]
  | some n =>
    by_cases hpos : n ≤ 0
    · left; simp [doBuyPage, call, hlogin, haccess, hn, hpos]
    by_cases hparent : form.parentAg = ""
    · left; simp [doBuyPage, call, hlogin, haccess, hn, hpos, hparent]
    by_cases hcards : form.cardNums = ""
    · have hnone : int "" = none := by decide
      rw [hcards, hnone] at hn
      cases hn
    by_cases hpasswd : form.passwd = ""
    · left; simp [doBuyPage, call, hlogin, haccess, hn, hpos, hparent, hcards, hpasswd]
    by_cases hdigest : s.setup.passwd (uidOf s sid) = some (sha256 form.passwd)
    swap
    · left
      have hdigest : ¬s.setup.passwd (fmt (s.setup.id sid)) = some (sha256 form.passwd) := hdigest
      simp [doBuyPage, call, hlogin, haccess, hn, hpos, hparent, hcards, hpasswd, hdigest, St.agent]
    right
    obtain ⟨acc, hacc⟩ := truthy_some hlogin
    refine ⟨n, acc, ⟨hlogin, haccess, hn, by omega, hparent, hpasswd, hdigest⟩, hacc, ?_⟩
    have hdigest : s.setup.passwd (fmt (s.setup.id sid)) = some (sha256 form.passwd) := hdigest
    rw [hacc] at hlogin
    simp [doBuyPage, call, hlogin, haccess, hn, hpos, hparent, hcards, hpasswd, hdigest, createOrder, execute,
      applyAll, Write.apply, Write.increments, Write.refused, newOrder, hacc, bought, uidOf, newListings, moved, St.agent]

theorem info_frame (sha256 : String → String) (sid orderNo : String) (s : St) :
    (run (getOrderInfo sha256 sid orderNo) s).2 = s ∨
      (run (getOrderInfo sha256 sid orderNo) s).2 = withToken s sid (sha256 orderNo) := by
  cases ho : (s.order orderNo).isSome with
  | false => left; simp [getOrderInfo, call, ho]
  | true => right; simp [getOrderInfo, call, ho, withToken]

/-- What a cancellation takes off: the order from the lists of the day. -/
def cancelledMoves (date buyer seller : String) : List (Listing × Move) :=
  [(.agent .buy .pending buyer date, .off), (.agent .buy .order buyer date, .off),
    (.agent .sale .order seller date, .off), (.agent .sale .pending seller date, .off), (.orders, .off)]

/-- A cancellation deletes the order, whoever asks for it. -/
theorem run_cancelOrder (now : Clock) (orderNo buyerId salerId url : String) (s : St) :
    (run (cancelOrder orderNo (cancelWrites now orderNo buyerId salerId) url) s).2.amounts = s.amounts ∧
      (run (cancelOrder orderNo (cancelWrites now orderNo buyerId salerId) url) s).2.order = update s.order orderNo none ∧
      (run (cancelOrder orderNo (cancelWrites now orderNo buyerId salerId) url) s).2.count = s.count ∧
      (run (cancelOrder orderNo (cancelWrites now orderNo buyerId salerId) url) s).2.setup = s.setup ∧
      (run (cancelOrder orderNo (cancelWrites now orderNo buyerId salerId) url) s).2.list =
        moves orderNo (cancelledMoves now.date buyerId salerId) s.list := by
  have hok : (cancelWrites now orderNo buyerId salerId).any Write.refused = false := rfl
  have hattempt := run_attempt (execute (cancelWrites now orderNo buyerId salerId)) s
  rw [run_execute hok] at hattempt
  unfold cancelOrder
  rw [run_bind_ok hattempt]
  simp only [run_ret, pure_eq, applyAll, cancelWrites, List.foldl_cons, List.foldl_nil, Write.apply, List.flatMap_cons,
    List.flatMap_nil, Write.increments, List.append_nil, incrAll_nil, true_and]
  rfl

/-! ## Effects -/

section Effects
variable (sha256 : String → String)

/-- The request is a confirmation that goes through. -/
def comfirms (r : Req) (s : St) : Bool :=
  match r with
  | .comfirm _ _ orderNo _ => match (run (r.handler sha256) s).1 with
    | .ok reply => reply = comfirmed orderNo
    | .error _ => false
  | .buy _ _ _ _ | .info _ _ | .cancel _ _ _ | .saleCancel _ _ _ => false

/-- The agent cancels the order. -/
def Req.cancels : Req → String → String → Prop
  | .cancel _ sid orderNo, sid', orderNo' => sid = sid' ∧ orderNo = orderNo'
  | .saleCancel _ sid orderNo, sid', orderNo' => sid = sid' ∧ orderNo = orderNo'
  | .buy _ _ _ _, _, _ | .info _ _, _, _ | .comfirm _ _ _ _, _, _ => False

/-- What a request does to the cards and the orders. -/
inductive Effect (r : Req) (s s' : St) : Prop
  | nothing (hno : comfirms sha256 r s = false) (hcan : ∀ sid orderNo, ¬r.cancels sid orderNo)
      (ha : s'.amounts = s.amounts) (ho : s'.order = s.order) (hc : s'.count = s.count)
  | placed (now : Clock) (form : BuyForm) (sid acc orderNo : String) (n : Int)
      (hno : comfirms sha256 r s = false) (hcan : ∀ sid orderNo, ¬r.cancels sid orderNo)
      (hn : int form.cardNums = some n) (hpos : 0 < n) (hacc : s.setup.account sid = some acc)
      (ha : s'.amounts = s.amounts)
      (ho : s'.order = update s.order orderNo (some (newOrder now orderNo acc form (s.count + 1))))
      (hc : s'.count = s.count + 1)
  | settled (now : Clock) (sid orderNo token : String) (type n : Int) (hr : r = .comfirm now sid orderNo token)
      (hyes : comfirms sha256 r s = true) (hpay : Payable s sid orderNo token type n)
      (ha : s'.amounts = incrAll (payment type n (uidOf s sid) (buyerOf s orderNo)) s.amounts)
      (ho : s'.order = update s.order orderNo (some (settled now s orderNo))) (hc : s'.count = s.count)
  | cancelled (sid orderNo : String) (hno : comfirms sha256 r s = false) (hr : r.cancels sid orderNo)
      (ha : s'.amounts = s.amounts) (ho : s'.order = update s.order orderNo none) (hc : s'.count = s.count)

theorem effect_token {r : Req} {s s' : St} (hno : comfirms sha256 r s = false)
    (hcan : ∀ sid orderNo, ¬r.cancels sid orderNo) (h : s' = s ∨ ∃ sid v, s' = withToken s sid v) :
    Effect sha256 r s s' ∧ s'.setup = s.setup := by
  rcases h with rfl | ⟨sid, v, rfl⟩
  · exact ⟨.nothing hno hcan rfl rfl rfl, rfl⟩
  · exact ⟨.nothing hno hcan rfl rfl rfl, rfl⟩

theorem effect_comfirm (now : Clock) (sid orderNo token : String) (s : St) :
    Effect sha256 (.comfirm now sid orderNo token) s (step sha256 (.comfirm now sid orderNo token) s) ∧
      (step sha256 (.comfirm now sid orderNo token) s).setup = s.setup := by
  unfold step
  by_cases h : ∃ type n, Payable s sid orderNo token type n
  · obtain ⟨type, n, hpay⟩ := h
    have hrun := comfirm_paid now hpay
    have hyes : comfirms sha256 (.comfirm now sid orderNo token) s = true := by simp [comfirms, Req.handler, hrun]
    obtain ⟨ho, hc, hsetup, -⟩ := comfirmWrites_frame now (withToken s sid "None") (withToken s sid "None") orderNo
      (buyerOf s orderNo) (uidOf s sid) type n
    simp only [Req.handler, hrun]
    refine ⟨.settled now sid orderNo token type n rfl hyes hpay ?_ ho hc, hsetup⟩
    rw [← comfirmWrites_increments now (withToken s sid "None") orderNo]
    rfl
  · have hnot : ∀ type n, ¬Payable s sid orderNo token type n := fun type n hp => h ⟨type, n, hp⟩
    obtain ⟨reply, hreply, hrun⟩ := comfirm_unpaid now hnot
    have hno : comfirms sha256 (.comfirm now sid orderNo token) s = false := by
      rcases hrun with hrun | hrun <;> simp [comfirms, Req.handler, hrun, hreply]
    apply effect_token sha256 hno fun _ _ hc => hc
    rcases hrun with hrun | hrun
    · exact .inl (congrArg Prod.snd hrun)
    · exact .inr ⟨sid, "None", congrArg Prod.snd hrun⟩

theorem effect_of (r : Req) (s : St) :
    Effect sha256 r s (step sha256 r s) ∧ (step sha256 r s).setup = s.setup := by
  cases r with
  | buy now rand sid form =>
    rcases buy_cases sha256 now rand sid form s with h | ⟨n, acc, hbuys, hacc, h⟩
    · exact effect_token sha256 rfl (fun _ _ hc => hc) (.inl h)
    · unfold step
      rw [Req.handler, h]
      exact ⟨.placed now form sid acc _ n rfl (fun _ _ hc => hc) hbuys.cards hbuys.pos hacc rfl rfl rfl, rfl⟩
  | info sid orderNo =>
    apply effect_token sha256 (r := .info sid orderNo) rfl fun _ _ hc => hc
    exact (info_frame sha256 sid orderNo s).imp_right fun h => ⟨sid, _, h⟩
  | comfirm now sid orderNo token => exact effect_comfirm sha256 now sid orderNo token s
  | cancel now sid orderNo =>
    obtain ⟨ha, ho, hc, hsetup, -⟩ := run_cancelOrder now orderNo (uidOf s sid) (fmt (s.setup.agentId (fmt (getOrder s orderNo).saleAccount)))
      "/admin/order/buy/record" s
    exact ⟨.cancelled sid orderNo rfl ⟨rfl, rfl⟩ ha ho hc, hsetup⟩
  | saleCancel now sid orderNo =>
    obtain ⟨ha, ho, hc, hsetup, -⟩ := run_cancelOrder now orderNo (buyerOf s orderNo) (uidOf s sid) "/admin/order/sale/record" s
    exact ⟨.cancelled sid orderNo rfl ⟨rfl, rfl⟩ ha ho hc, hsetup⟩

end Effects

end FishWeb.Order
