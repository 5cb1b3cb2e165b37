import FishWeb.Order.Settle
/-!
# The lists of orders

An order stands on the pending list of its buyer and of its seller, under the day of
its application, and moves to their settled ones. The requests that move it or take it
off look under their own day. So what is confirmed or cancelled a day later stays where
it was.
-/
open Python Prog Counters Runs Shelves
open Function (update)

namespace FishWeb.Order

/-! ## What is listed where -/

def buyerId (f : Setup) (o : OrderInfo) : String := fmt (f.agentId (fmt o.applyAccount))

def sellerId (f : Setup) (o : OrderInfo) : String := fmt (f.agentId (fmt o.saleAccount))

/-- The list of an order that has its status. -/
def stageOf (o : OrderInfo) : Stage := if o.status = some "0" then .pending else .success

/-- Under one date, once, the order stands on the agent's list of the stage, and on no other of his lists of pending
and of settled orders. -/
def ListedOnce (s : St) (side : Side) (id : String) (stage : Stage) (orderNo : String) : Prop :=
  ∃ date, ∀ stage' date', stage' ≠ .order →
    (s.list (.agent side stage' id date')).count orderNo = if stage' = stage ∧ date' = date then 1 else 0

/-- Every order is listed once for its buyer and once for its seller, as pending or settled; what is no order is not
listed. -/
structure Partition (s : St) : Prop where
  buyer : ∀ orderNo o, s.order orderNo = some o → ListedOnce s .buy (buyerId s.setup o) (stageOf o) orderNo
  seller : ∀ orderNo o, s.order orderNo = some o → ListedOnce s .sale (sellerId s.setup o) (stageOf o) orderNo
  gone : ∀ orderNo, s.order orderNo = none → ∀ l, orderNo ∉ s.list l

/-! ## The condition -/

/-- The date of a time. -/
def dayOf (time : Option String) : String := String.ofList ((time.getD "").toList.take 10)

/-- A purchase is of the parent that the form names, under a new number; what is confirmed or cancelled is pending, and
that by its seller or its buyer, and on the day of its application. -/
def Timely (sha256 : String → String) : Req → St → Prop
  | .buy now rand sid form, s => ∀ n, Buys sha256 s sid form n →
    s.order (getOrderNo now (uidOf s sid) rand) = none ∧ dayOf (some now.now) = now.date ∧
      fmt (s.setup.agentId form.parentAg) = fmt (s.setup.parent_id (uidOf s sid))
  | .info _ _, _ => True
  | .comfirm now sid orderNo token, s => ∀ type n, Payable s sid orderNo token type n →
    (getOrder s orderNo).status = some "0" ∧ uidOf s sid = sellerId s.setup (getOrder s orderNo) ∧
      dayOf (getOrder s orderNo).apply_date = now.date
  | .cancel now sid orderNo, s => ∀ o, s.order orderNo = some o →
    o.status = some "0" ∧ uidOf s sid = buyerId s.setup o ∧ dayOf o.apply_date = now.date
  | .saleCancel now sid orderNo, s => ∀ o, s.order orderNo = some o →
    o.status = some "0" ∧ uidOf s sid = sellerId s.setup o ∧ dayOf o.apply_date = now.date

/-! ## Where an order stands -/

/-- The lists of an order: of all orders, and four under the day of its application. -/
def shelf (f : Setup) (o : OrderInfo) : List Listing :=
  [.orders, .agent .buy .order (buyerId f o) (dayOf o.apply_date),
    .agent .buy (stageOf o) (buyerId f o) (dayOf o.apply_date),
    .agent .sale .order (sellerId f o) (dayOf o.apply_date),
    .agent .sale (stageOf o) (sellerId f o) (dayOf o.apply_date)]

def shelves (s : St) (orderNo : String) : List Listing := ((s.order orderNo).map (shelf s.setup)).getD []

theorem shelves_some {s : St} {orderNo : String} {o : OrderInfo} (h : s.order orderNo = some o) :
    shelves s orderNo = shelf s.setup o := by
  rw [shelves, h]
  rfl

theorem shelves_none {s : St} {orderNo : String} (h : s.order orderNo = none) : shelves s orderNo = [] := by
  rw [shelves, h]
  rfl

/-- The other orders keep their lists. -/
theorem shelves_other {s s' : St} {orderNo : String} {v : Option OrderInfo} (hsetup : s'.setup = s.setup)
    (ho : s'.order = update s.order orderNo v) : ∀ no ≠ orderNo, shelves s' no = shelves s no := by
  intro no hno
  rw [shelves, shelves, hsetup, ho, Function.update_of_ne hno]

theorem listedOnce {s : St} (h : Shelved s.list (shelves s)) {orderNo : String} {o : OrderInfo}
    (ho : s.order orderNo = some o) :
    ListedOnce s .buy (buyerId s.setup o) (stageOf o) orderNo ∧
      ListedOnce s .sale (sellerId s.setup o) (stageOf o) orderNo := by
  constructor <;>
  · refine ⟨dayOf o.apply_date, fun stage date hstage => ?_⟩
    rw [h orderNo, shelves_some ho]
    simp [shelf, hstage]

theorem Partition.of_shelved {s : St} (h : Shelved s.list (shelves s)) : Partition s where
  buyer := fun _ _ ho => (listedOnce h ho).1
  seller := fun _ _ ho => (listedOnce h ho).2
  gone := fun orderNo ho l hm => by
    rw [h.mem_iff, shelves_none ho] at hm
    cases hm

/-! ## One request -/

section Step
variable {sha256 : String → String}

theorem shelved_buy (now : Clock) (rand : Nat) (sid acc : String) (form : BuyForm) (s : St)
    (hacc : s.setup.account sid = some acc) (hnew : s.order (getOrderNo now (uidOf s sid) rand) = none)
    (hday : dayOf (some now.now) = now.date)
    (hparent : fmt (s.setup.agentId form.parentAg) = fmt (s.setup.parent_id (uidOf s sid)))
    (h : Shelved s.list (shelves s)) :
    Shelved (bought now rand sid acc form s).list (shelves (bought now rand sid acc form s)) := by
  obtain ⟨i, hid, hagent⟩ := s.setup.login sid acc hacc
  have huid : uidOf s sid = i := by
    rw [uidOf, hid]
    rfl
  have hself : shelves (bought now rand sid acc form s) (getOrderNo now (uidOf s sid) rand) =
      newListings now.date (uidOf s sid) (fmt (s.setup.parent_id (uidOf s sid))) := by
    rw [shelves_some (o := newOrder now (getOrderNo now (uidOf s sid) rand) acc form (s.count + 1))
      (Function.update_self ..)]
    have hbuyer : fmt (s.setup.agentId acc) = uidOf s sid := by rw [huid, hagent]; rfl
    simp [shelf, newListings, newOrder, bought, buyerId, sellerId, stageOf, hday, hbuyer, hparent]
  refine h.moves ?_ ?_ (shelves_other rfl rfl) ?_
  · simp [newListings]
  · rw [shelves_none hnew]
    exact fun _ _ => List.not_mem_nil
  · intro k
    rw [hself, shelves_none hnew]
    simp

/-- A pending order of the day moves to the settled ones. -/
theorem shelved_settled {s s' : St} {now : Clock} {orderNo : String} {o : OrderInfo} (hsetup : s'.setup = s.setup)
    (ho : s.order orderNo = some o) (hpending : o.status = some "0") (hday : dayOf o.apply_date = now.date)
    (ho' : s'.order = update s.order orderNo (some { o with status := some "1", finish_date := some now.now }))
    (hlist : s'.list = moves orderNo (settledMoves now.date (buyerId s.setup o) (sellerId s.setup o)) s.list)
    (h : Shelved s.list (shelves s)) : Shelved s'.list (shelves s') := by
  have hbefore := shelves_some ho
  have hafter : shelves s' orderNo = shelf s.setup { o with status := some "1", finish_date := some now.now } := by
    rw [← hsetup]
    exact shelves_some (by rw [ho', Function.update_self])
  simp only [shelf, stageOf, hpending, hday, if_true] at hbefore
  simp only [shelf, stageOf, buyerId, sellerId, hday] at hafter
  rw [hlist]
  refine h.moves ?_ ?_ (shelves_other hsetup ho') ?_
  · simp [settledMoves]
  · intro k hk
    rw [hbefore]
    simp only [settledMoves, List.mem_cons, List.not_mem_nil, or_false, Prod.mk.injEq, reduceCtorEq, and_false,
      and_true, false_or] at hk
    rcases hk with rfl | rfl <;> simp
  · intro k
    rw [hbefore, hafter]
    simp only [settledMoves, buyerId, sellerId]
    constructor
    · intro hk
      simp only [List.mem_cons, List.not_mem_nil, or_false] at hk
      rcases hk with rfl | rfl | rfl | rfl | rfl <;> simp
    · rintro (hk | ⟨hk, hoff⟩)
      · simp only [List.mem_cons, List.not_mem_nil, or_false, Prod.mk.injEq, reduceCtorEq, and_false, and_true,
          false_or] at hk
        rcases hk with rfl | rfl <;> simp
      · simp only [List.mem_cons, List.not_mem_nil, or_false] at hk
        rcases hk with rfl | rfl | rfl | rfl | rfl <;> simp at hoff ⊢

/-- A pending order of the day is taken off its lists. -/
theorem shelved_cancelled {s s' : St} {now : Clock} {orderNo : String} (hsetup : s'.setup = s.setup)
    (ho' : s'.order = update s.order orderNo none) {buyer seller : String}
    (hlist : s'.list = moves orderNo (cancelledMoves now.date buyer seller) s.list)
    (hfits : ∀ o, s.order orderNo = some o → o.status = some "0" ∧ buyer = buyerId s.setup o ∧
      seller = sellerId s.setup o ∧ dayOf o.apply_date = now.date)
    (h : Shelved s.list (shelves s)) : Shelved s'.list (shelves s') := by
  have hafter : shelves s' orderNo = [] := shelves_none (by rw [ho', Function.update_self])
  rw [hlist]
  refine h.moves ?_ ?_ (shelves_other hsetup ho') ?_
  · simp [cancelledMoves]
  · intro k hk
    simp [cancelledMoves] at hk
  · intro k
    rw [hafter]
    cases ho : s.order orderNo with
    | none =>
      rw [shelves_none ho]
      simp [cancelledMoves]
    | some o =>
      obtain ⟨hpending, rfl, rfl, hday⟩ := hfits o ho
      rw [shelves_some ho]
      simp only [shelf, stageOf, hpending, hday, if_true]
      refine ⟨fun hk => absurd hk List.not_mem_nil, ?_⟩
      rintro (hk | ⟨hk, hoff⟩)
      · simp [cancelledMoves] at hk
      · simp only [List.mem_cons, List.not_mem_nil, or_false] at hk
        rcases hk with rfl | rfl | rfl | rfl | rfl <;> simp [cancelledMoves] at hoff

theorem shelved_step (r : Req) (s : St) (ht : Timely sha256 r s) (h : Shelved s.list (shelves s)) :
    Shelved (step sha256 r s).list (shelves (step sha256 r s)) := by
  cases r with
  | buy now rand sid form =>
    rw [step, Req.handler]
    rcases buy_cases sha256 now rand sid form s with heq | ⟨n, acc, hbuys, hacc, heq⟩
    · rwa [heq]
    · rw [heq]
      obtain ⟨hnew, hday, hparent⟩ := ht n hbuys
      exact shelved_buy now rand sid acc form s hacc hnew hday hparent h
  | info sid orderNo =>
    rw [step, Req.handler]
    rcases info_frame sha256 sid orderNo s with heq | heq <;> rw [heq] <;> exact h
  | comfirm now sid orderNo token =>
    rw [step, Req.handler]
    by_cases hpay : ∃ type n, Payable s sid orderNo token type n
    · obtain ⟨type, n, hpay⟩ := hpay
      obtain ⟨hpending, hseller, hday⟩ := ht type n hpay
      obtain ⟨ho, -, hsetup, hlist⟩ := comfirmWrites_frame now (withToken s sid "None") (withToken s sid "None") orderNo
        (buyerOf s orderNo) (uidOf s sid) type n
      rw [comfirm_paid now hpay]
      rw [hseller] at hlist ho hsetup ⊢
      exact shelved_settled hsetup hpay.order hpending hday ho hlist h
    · obtain ⟨reply, -, hrun⟩ := comfirm_unpaid now fun type n hp => hpay ⟨type, n, hp⟩
      rcases hrun with heq | heq <;> rw [heq] <;> exact h
  | cancel now sid orderNo =>
    obtain ⟨-, ho, -, hsetup, hlist⟩ := run_cancelOrder now orderNo (uidOf s sid)
      (fmt (s.setup.agentId (fmt (getOrder s orderNo).saleAccount))) "/admin/order/buy/record" s
    refine shelved_cancelled hsetup ho hlist (fun o hs => ?_) h
    obtain ⟨hpending, hbuyer, hday⟩ := ht o hs
    exact ⟨hpending, hbuyer, by rw [getOrder_some hs]; rfl, hday⟩
  | saleCancel now sid orderNo =>
    obtain ⟨-, ho, -, hsetup, hlist⟩ := run_cancelOrder now orderNo (buyerOf s orderNo) (uidOf s sid)
      "/admin/order/sale/record" s
    refine shelved_cancelled hsetup ho hlist (fun o hs => ?_) h
    obtain ⟨hpending, hseller, hday⟩ := ht o hs
    exact ⟨hpending, by rw [buyerOf, getOrder_some hs]; rfl, hseller, hday⟩

end Step

/-! ## Runs -/

/-- No orders and no lists. -/
def noLists (s : St) : St := { noOrders s with list := fun _ => [] }

/-- In every run of timely requests from a store without orders, the lists are a partition of the orders. -/
theorem lists_partition (sha256 : String → String) (s : St) (rs : List Req)
    (h : All (step sha256) (Timely sha256) rs (noLists s)) : Partition (after (step sha256) rs (noLists s)) :=
  .of_shelved (after_inv (I := fun s => Shelved s.list (shelves s)) shelved_step h shelved_empty)

/-- Agent 2 orders ten cards, and agent 1 looks the order up and confirms it at the time `now`. -/
def bought10 (now : Clock) : List Req :=
  [.buy noon 7 "b" ⟨"seller", "10", "", "pw", ""⟩, .info "s" "2020010112000027",
    .comfirm now "s" "2020010112000027" "a7f552d515958dd9fa3b0ec57b988f6e3f5c0872952a2c8398fb20854125b110"]

theorem lists_partition_same_day : Partition (after (step digests) (bought10 noon) (noLists hundredCards)) := by
  refine lists_partition digests hundredCards _ ⟨fun n _ => ?_, trivial, fun type n _ => ?_, trivial⟩
  · exact ⟨rfl, by decide, by decide⟩
  · exact ⟨by decide +kernel, by decide +kernel, by decide +kernel⟩

def nextNoon : Clock := ⟨"2020-01-02 12:00:00", "2020-01-02", "20200102120000"⟩

/-- Confirmed a day later, the order is settled and still pending. -/
theorem confirmed_next_day :
    (after (step digests) (bought10 nextNoon) (noLists hundredCards)).list (.agent .buy .pending "2" "2020-01-01") =
      ["2020010112000027"] ∧
    (after (step digests) (bought10 nextNoon) (noLists hundredCards)).list (.agent .buy .success "2" "2020-01-02") =
      ["2020010112000027"] ∧
    ¬Partition (after (step digests) (bought10 nextNoon) (noLists hundredCards)) := by
  have hpending : (after (step digests) (bought10 nextNoon) (noLists hundredCards)).list
      (.agent .buy .pending "2" "2020-01-01") = ["2020010112000027"] := by decide +kernel
  have hsettled : (after (step digests) (bought10 nextNoon) (noLists hundredCards)).list
      (.agent .buy .success "2" "2020-01-02") = ["2020010112000027"] := by decide +kernel
  refine ⟨hpending, hsettled, fun h => ?_⟩
  have ho : (after (step digests) (bought10 nextNoon) (noLists hundredCards)).order "2020010112000027" =
      some { newOrder noon "2020010112000027" "buyer" ⟨"seller", "10", "", "pw", ""⟩ 1 with
        status := some "1", finish_date := some nextNoon.now } := by decide +kernel
  obtain ⟨date, hcount⟩ := h.buyer _ _ ho
  have hzero := hcount .pending "2020-01-01" (by decide)
  have hbuyer : buyerId (after (step digests) (bought10 nextNoon) (noLists hundredCards)).setup
      { newOrder noon "2020010112000027" "buyer" ⟨"seller", "10", "", "pw", ""⟩ 1 with
        status := some "1", finish_date := some nextNoon.now } = "2" := by decide +kernel
  rw [hbuyer, hpending] at hzero
  exact absurd hzero (by simp [stageOf])

end FishWeb.Order
