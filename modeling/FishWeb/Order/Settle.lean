import FishWeb.Order.Commands
import FishWeb.Lib.Runs
import Mathlib.Algebra.BigOperators.Group.Finset.Piecewise
/-!
# Settling an order

The requests of any agents on orders, one after another. Orders are settled once
and by their sellers exactly if nobody confirms or cancels another's order, or
one that is settled.
-/
open Python Prog Counters Runs
open Function (update)

namespace FishWeb.Order

section Claims
variable (sha256 : String → String)

/-! ## What is asked of the orders -/

/-- The order is settled by its seller, for the first time, and its cards go to its buyer. A system
administrator does not pay for what he sells. -/
structure Sale (s s' : St) (sid orderNo seller buyer : String) (o : OrderInfo) (type n : Int) : Prop where
  found : s.order orderNo = some o
  unsettled : o.status = some "0"
  cards : intOf o.cardNums = .ok n
  by_seller : s.setup.account sid = o.saleAccount
  from_seller : o.saleAccount.bind s.setup.agentId = some seller
  to_buyer : o.applyAccount.bind s.setup.agentId = some buyer
  saler : intOf (s.setup.type seller) = .ok type
  amounts : s'.amounts = incrAll (payment type n seller buyer) s.amounts
  settled : (s'.order orderNo).bind (·.status) = some "1"

structure Lawful (r : Req) (s : St) : Prop where
  /-- A confirmation that goes through is a sale. -/
  sale : comfirms sha256 r s = true → ∃ now sid orderNo token seller buyer o type n,
    r = .comfirm now sid orderNo token ∧ Sale s (step sha256 r s) sid orderNo seller buyer o type n
  /-- Nothing else moves cards. -/
  frame : comfirms sha256 r s = false → (step sha256 r s).amounts = s.amounts
  /-- The sum over the agents changes only when a system administrator confirms. -/
  total : ∀ F : Finset String,
    (∀ a, a ∉ F → val (step sha256 r s).amounts (.roomcard a) = val s.amounts (.roomcard a)) →
      (∑ a ∈ F, val (step sha256 r s).amounts (.roomcard a)) = (∑ a ∈ F, val s.amounts (.roomcard a)) ∨
        ∃ now sid orderNo token, r = .comfirm now sid orderNo token ∧ intOf (s.setup.type (uidOf s sid)) = .ok 0
  /-- An order is cancelled by its buyer or its seller, while it is not settled. -/
  cancel : ∀ orderNo o, s.order orderNo = some o → (step sha256 r s).order orderNo = none →
    o.status = some "0" ∧ ∃ sid acc, r.cancels sid orderNo ∧ s.setup.account sid = some acc ∧
      (o.applyAccount = some acc ∨ o.saleAccount = some acc)

/-- The request settles the order that was placed as the `k`-th. -/
def settles (k : Nat) (r : Req) (s : St) : Bool :=
  match r with
  | .comfirm _ _ orderNo _ => comfirms sha256 r s && (getOrder s orderNo).id = some k
  | .buy _ _ _ _ | .info _ _ | .cancel _ _ _ | .saleCancel _ _ _ => false

end Claims

/-- A confirmation that goes through is of an unsettled order of the caller's own; who cancels an order is its
buyer or its seller, and it is unsettled. -/
def Proper : Req → St → Prop
  | .comfirm _ sid orderNo token, s => ∀ type n, Payable s sid orderNo token type n →
    (getOrder s orderNo).status = some "0" ∧ (getOrder s orderNo).saleAccount = s.setup.account sid
  | .cancel _ sid orderNo, s | .saleCancel _ sid orderNo, s => ∀ o, s.order orderNo = some o →
    o.status = some "0" ∧ ∃ acc, s.setup.account sid = some acc ∧ (o.applyAccount = some acc ∨ o.saleAccount = some acc)
  | .buy _ _ _ _, _ | .info _ _, _ => True

/-- Every order was placed by an agent, and no two as the same. -/
structure Records (s : St) : Prop where
  placed : ∀ orderNo o, s.order orderNo = some o → ∃ k buyer, o.id = some k ∧ k ≤ s.count ∧
    o.applyAccount.bind s.setup.agentId = some buyer
  distinct : ∀ orderNo orderNo' o o', s.order orderNo = some o → s.order orderNo' = some o' → o.id = o'.id →
    orderNo = orderNo'

/-- The `k`-th order may still be settled: it is unsettled, or not placed yet. -/
def Open (k : Nat) (s : St) : Prop :=
  s.count < k ∨ ∃ orderNo o, s.order orderNo = some o ∧ o.id = some k ∧ o.status = some "0"

/-- No orders are placed yet. -/
def noOrders (s : St) : St := { s with order := fun _ => none }

/-! ## One request -/

section Step
variable {sha256 : String → String}

theorem getOrder_some {s : St} {orderNo : String} {o : OrderInfo} (h : s.order orderNo = some o) :
    getOrder s orderNo = o := by
  simp [getOrder, h]

/-- What is payable is an order. -/
theorem Payable.order {s : St} {sid orderNo token : String} {type n : Int} (h : Payable s sid orderNo token type n) :
    s.order orderNo = some (getOrder s orderNo) := by
  have hcards := h.cards
  unfold getOrder at hcards ⊢
  cases ho : s.order orderNo with
  | none => rw [ho] at hcards; cases hcards
  | some o => rfl

theorem records_step (r : Req) (s : St) (h : Records s) : Records (step sha256 r s) := by
  obtain ⟨he, hsetup⟩ := effect_of sha256 r s
  generalize step sha256 r s = s' at he hsetup
  cases he with
  | nothing _ _ _ ho hc =>
    constructor
    · rw [ho, hc, hsetup]
      exact h.placed
    · rw [ho]
      exact h.distinct
  | placed now form sid acc orderNo n _ _ _ _ hacc _ ho hc =>
    obtain ⟨i, -, hi⟩ := s.setup.login sid acc hacc
    constructor
    · intro no o hno
      rw [hc, hsetup]
      rw [ho] at hno
      by_cases hsame : no = orderNo
      · rw [hsame, Function.update_self] at hno
        cases hno
        exact ⟨s.count + 1, i, rfl, Nat.le_refl _, hi⟩
      · rw [Function.update_of_ne hsame] at hno
        obtain ⟨k, buyer, hk, hle, hb⟩ := h.placed no o hno
        exact ⟨k, buyer, hk, Nat.le_succ_of_le hle, hb⟩
    · -- the new id is above all that were given out
      have hnew : ∀ no o, no ≠ orderNo → s.order no = some o → o.id ≠ some (s.count + 1) := by
        intro no o _ hno hid
        obtain ⟨k, buyer, hk, hle, -⟩ := h.placed no o hno
        have : k = s.count + 1 := Option.some.inj (hk.symm.trans hid)
        omega
      intro no no' o o' hno hno' hid
      rw [ho] at hno hno'
      by_cases hsame : no = orderNo <;> by_cases hsame' : no' = orderNo
      · rw [hsame, hsame']
      · rw [hsame, Function.update_self] at hno
        rw [Function.update_of_ne hsame'] at hno'
        cases hno
        exact absurd hid.symm (hnew no' o' hsame' hno')
      · rw [Function.update_of_ne hsame] at hno
        rw [hsame', Function.update_self] at hno'
        cases hno'
        exact absurd hid (hnew no o hsame hno)
      · rw [Function.update_of_ne hsame] at hno
        rw [Function.update_of_ne hsame'] at hno'
        exact h.distinct no no' o o' hno hno' hid
  | settled now sid orderNo token type n _ _ hpay _ ho hc =>
    -- the record keeps its id and its buyer
    have hold : ∀ no o, s'.order no = some o →
        ∃ o₀, s.order no = some o₀ ∧ o₀.id = o.id ∧ o₀.applyAccount = o.applyAccount := by
      intro no o hno
      rw [ho] at hno
      by_cases hsame : no = orderNo
      · rw [hsame, Function.update_self] at hno
        cases hno
        exact ⟨getOrder s orderNo, hsame ▸ hpay.order, rfl, rfl⟩
      · rw [Function.update_of_ne hsame] at hno
        exact ⟨o, hno, rfl, rfl⟩
    constructor
    · intro no o hno
      obtain ⟨o₀, hno₀, hid, happly⟩ := hold no o hno
      rw [hc, hsetup, ← hid, ← happly]
      exact h.placed no o₀ hno₀
    · intro no no' o o' hno hno' hid
      obtain ⟨o₀, hno₀, hid₀, -⟩ := hold no o hno
      obtain ⟨o₀', hno₀', hid₀', -⟩ := hold no' o' hno'
      exact h.distinct no no' o₀ o₀' hno₀ hno₀' (by rw [hid₀, hid₀', hid])
  | cancelled sid orderNo _ _ _ ho hc =>
    have hold : ∀ no o, s'.order no = some o → s.order no = some o := by
      intro no o hno
      rw [ho] at hno
      by_cases hsame : no = orderNo
      · rw [hsame, Function.update_self] at hno
        cases hno
      · rwa [Function.update_of_ne hsame] at hno
    constructor
    · intro no o hno
      rw [hc, hsetup]
      exact h.placed no o (hold no o hno)
    · intro no no' o o' hno hno' hid
      exact h.distinct no no' o o' (hold no o hno) (hold no' o' hno') hid

/-! ### Sums -/

theorem net_payment (type n : Int) (seller buyer a : String) : net (payment type n seller buyer) (.roomcard a) =
    (if seller = a then (if type ≠ 0 then -n else 0) else 0) + if buyer = a then n else 0 := by
  unfold payment
  by_cases ht : type = 0 <;> simp [ht]

/-- What a seller pays and a buyer gets adds up to nothing over agents outside of whom nothing changes. -/
theorem sum_payment {type n : Int} (ht : type ≠ 0) {seller buyer : String} (t : Table Purse) {F : Finset String}
    (hF : ∀ a, a ∉ F → val (incrAll (payment type n seller buyer) t) (.roomcard a) = val t (.roomcard a)) :
    (∑ a ∈ F, val (incrAll (payment type n seller buyer) t) (.roomcard a)) = ∑ a ∈ F, val t (.roomcard a) := by
  have hout : ∀ a, a ∉ F → (if seller = a then -n else 0) + (if buyer = a then n else 0) = 0 := by
    intro a ha
    have h := hF a ha
    rw [val_incrAll, net_payment] at h
    simp only [if_pos ht] at h
    omega
  have hsum : (∑ a ∈ F, ((if seller = a then -n else 0) + if buyer = a then n else 0)) = 0 := by
    rw [Finset.sum_add_distrib, Finset.sum_ite_eq, Finset.sum_ite_eq]
    by_cases hs : seller ∈ F <;> by_cases hb : buyer ∈ F <;> simp only [hs, hb, if_true, if_false]
    · omega
    · have h := hout buyer hb
      have hne : seller ≠ buyer := fun he => hb (he ▸ hs)
      simp only [if_neg hne, if_true] at h
      omega
    · have h := hout seller hs
      have hne : buyer ≠ seller := fun he => hs (he ▸ hb)
      simp only [if_neg hne, if_true] at h
      omega
    · rfl
  simp only [val_incrAll, net_payment, if_pos ht]
  rw [Finset.sum_add_distrib, hsum, Int.add_zero]

/-! ### Proper requests are lawful -/

theorem Payable.unique {s : St} {sid orderNo token : String} {type n type' n' : Int}
    (h : Payable s sid orderNo token type n) (h' : Payable s sid orderNo token type' n') : type = type' ∧ n = n' :=
  ⟨Except.ok.inj (h.saler.symm.trans h'.saler), Except.ok.inj (h.cards.symm.trans h'.cards)⟩

/-- A confirmation of the caller's own unsettled order is a sale. -/
theorem sale_of_payable {s s' : St} {now : Clock} {sid orderNo token : String} {type n : Int} (hrec : Records s)
    (hpay : Payable s sid orderNo token type n) (hst : (getOrder s orderNo).status = some "0")
    (hown : (getOrder s orderNo).saleAccount = s.setup.account sid)
    (ha : s'.amounts = incrAll (payment type n (uidOf s sid) (buyerOf s orderNo)) s.amounts)
    (ho : s'.order = update s.order orderNo (some (settled now s orderNo))) :
    Sale s s' sid orderNo (uidOf s sid) (buyerOf s orderNo) (getOrder s orderNo) type n := by
  obtain ⟨acc, hacc⟩ := truthy_some hpay.login
  obtain ⟨seller, hid, hseller⟩ := s.setup.login sid acc hacc
  obtain ⟨k, buyer, -, -, hbuyer⟩ := hrec.placed orderNo _ hpay.order
  obtain ⟨apply, happly, hb⟩ := Option.bind_eq_some_iff.1 hbuyer
  refine ⟨hpay.order, hst, hpay.cards, hown.symm, ?_, ?_, hpay.saler, ha, ?_⟩
  · rw [hown, hacc, uidOf, hid]
    exact hseller
  · rw [hbuyer, buyerOf, happly, fmt_some, hb]
    rfl
  · rw [ho, Function.update_self]
    rfl

theorem lawful_of_proper (r : Req) (s : St) (hrec : Records s) (hp : Proper r s) : Lawful sha256 r s := by
  obtain ⟨he, -⟩ := effect_of sha256 r s
  constructor
  · intro hyes
    generalize step sha256 r s = s' at he
    cases he with
    | nothing hno | placed _ _ _ _ _ _ hno | cancelled _ _ hno => rw [hno] at hyes; cases hyes
    | settled now sid orderNo token type n hr _ hpay ha ho =>
      subst hr
      obtain ⟨hst, hown⟩ := hp type n hpay
      exact ⟨now, sid, orderNo, token, _, _, _, type, n, rfl, sale_of_payable hrec hpay hst hown ha ho⟩
  · intro hno
    generalize step sha256 r s = s' at he
    cases he with
    | nothing _ _ ha | placed _ _ _ _ _ _ _ _ _ _ _ ha | cancelled _ _ _ _ ha => exact ha
    | settled _ _ _ _ _ _ _ hyes => rw [hno] at hyes; cases hyes
  · intro F hF
    generalize step sha256 r s = s' at he hF
    cases he with
    | nothing _ _ ha | placed _ _ _ _ _ _ _ _ _ _ _ ha | cancelled _ _ _ _ ha => exact .inl (by rw [ha])
    | settled now sid orderNo token type n hr _ hpay ha =>
      by_cases ht : type = 0
      · exact .inr ⟨now, sid, orderNo, token, hr, ht ▸ hpay.saler⟩
      · left
        rw [ha] at hF ⊢
        exact sum_payment ht s.amounts hF
  · intro orderNo o ho hnone
    generalize step sha256 r s = s' at he hnone
    cases he with
    | nothing _ _ _ hsame => rw [hsame, ho] at hnone; cases hnone
    | placed _ _ _ _ no _ _ _ _ _ _ _ hnew =>
      -- a record that is written is not deleted
      rw [hnew] at hnone
      by_cases hno : orderNo = no
      · rw [hno, Function.update_self] at hnone
        cases hnone
      · rw [Function.update_of_ne hno, ho] at hnone
        cases hnone
    | settled _ _ no _ _ _ _ _ _ _ hnew =>
      rw [hnew] at hnone
      by_cases hno : orderNo = no
      · rw [hno, Function.update_self] at hnone
        cases hnone
      · rw [Function.update_of_ne hno, ho] at hnone
        cases hnone
    | cancelled sid no _ hr _ hdel =>
      have hno : orderNo = no := by
        by_contra hne
        rw [hdel, Function.update_of_ne hne, ho] at hnone
        cases hnone
      subst hno
      cases r with
      | buy | info | comfirm => exact hr.elim
      | cancel | saleCancel =>
        obtain ⟨rfl, rfl⟩ := hr
        obtain ⟨hst, acc, hacc, hwho⟩ := hp o ho
        exact ⟨hst, _, acc, ⟨rfl, rfl⟩, hacc, hwho⟩

theorem comfirms_of_payable {now : Clock} {sid orderNo token : String} {s : St} {type n : Int}
    (h : Payable s sid orderNo token type n) : comfirms sha256 (.comfirm now sid orderNo token) s = true := by
  have hrun := comfirm_paid now h
  simp [comfirms, Req.handler, hrun]

theorem proper_of_lawful (r : Req) (s : St) (h : Lawful sha256 r s) : Proper r s := by
  cases r with
  | buy | info => trivial
  | comfirm now sid orderNo token =>
    intro type n hpay
    obtain ⟨_, _, _, _, _, _, o, _, _, hr, hsale⟩ := h.sale (comfirms_of_payable hpay)
    obtain ⟨rfl, rfl, rfl, rfl⟩ := Req.comfirm.inj hr
    rw [getOrder_some hsale.found]
    exact ⟨hsale.unsettled, hsale.by_seller.symm⟩
  | cancel now sid orderNo =>
    intro o ho
    have hgone : (step sha256 (.cancel now sid orderNo) s).order orderNo = none := by
      have horder := (run_cancelOrder now orderNo (uidOf s sid)
        (fmt (s.setup.agentId (fmt (getOrder s orderNo).saleAccount))) "/admin/order/buy/record" s).2.1
      exact (congrFun horder orderNo).trans (Function.update_self ..)
    obtain ⟨hst, sid', acc, ⟨rfl, -⟩, hacc, hwho⟩ := h.cancel orderNo o ho hgone
    exact ⟨hst, acc, hacc, hwho⟩
  | saleCancel now sid orderNo =>
    intro o ho
    have hgone : (step sha256 (.saleCancel now sid orderNo) s).order orderNo = none := by
      have horder := (run_cancelOrder now orderNo (buyerOf s orderNo) (uidOf s sid) "/admin/order/sale/record" s).2.1
      exact (congrFun horder orderNo).trans (Function.update_self ..)
    obtain ⟨hst, sid', acc, ⟨rfl, -⟩, hacc, hwho⟩ := h.cancel orderNo o ho hgone
    exact ⟨hst, acc, hacc, hwho⟩

/-! ### Once -/

/-- A settlement finds its order open and leaves it closed. -/
theorem settles_closes (k : Nat) (r : Req) (s : St) (hp : Proper r s) (hrec : Records s)
    (h : settles sha256 k r s = true) : Open k s ∧ ¬Open k (step sha256 r s) := by
  cases r with
  | buy | info | cancel | saleCancel => cases h
  | comfirm now sid orderNo token =>
    simp only [settles, Bool.and_eq_true, decide_eq_true_eq] at h
    obtain ⟨hyes, hid⟩ := h
    obtain ⟨he, -⟩ := effect_of sha256 (.comfirm now sid orderNo token) s
    generalize step sha256 (.comfirm now sid orderNo token) s = s' at he
    cases he with
    | nothing hno | placed _ _ _ _ _ _ hno | cancelled _ _ hno => rw [hno] at hyes; cases hyes
    | settled now' sid' no token' type n hr _ hpay _ ho hc =>
      obtain ⟨rfl, rfl, rfl, rfl⟩ := Req.comfirm.inj hr
      obtain ⟨hst, -⟩ := hp type n hpay
      refine ⟨.inr ⟨orderNo, _, hpay.order, hid, hst⟩, ?_⟩
      rintro (hlt | ⟨no', o, hno', hid', hst'⟩)
      · obtain ⟨k', _, hk', hle, -⟩ := hrec.placed orderNo _ hpay.order
        have : k' = k := Option.some.inj (hk'.symm.trans hid)
        omega
      · rw [ho] at hno'
        by_cases hsame : no' = orderNo
        · -- the record that was settled
          rw [hsame, Function.update_self] at hno'
          cases hno'
          exact absurd hst' (by simp [settled])
        · rw [Function.update_of_ne hsame] at hno'
          exact hsame (hrec.distinct no' orderNo o _ hno' hpay.order (hid'.trans hid.symm))

/-- What is closed stays closed. -/
theorem closed_step (k : Nat) (r : Req) (s : St) (h : ¬Open k s) : ¬Open k (step sha256 r s) := by
  obtain ⟨he, -⟩ := effect_of sha256 r s
  generalize step sha256 r s = s' at he
  intro hopen
  apply h
  cases he with
  | nothing _ _ _ ho hc =>
    unfold Open at hopen ⊢
    rwa [ho, hc] at hopen
  | placed now form sid acc orderNo n _ _ _ _ _ _ ho hc =>
    rcases hopen with hlt | ⟨no, o, hno, hid, hst⟩
    · exact .inl (by omega)
    · rw [ho] at hno
      by_cases hsame : no = orderNo
      · rw [hsame, Function.update_self] at hno
        cases hno
        have : s.count + 1 = k := Option.some.inj hid
        exact .inl (by omega)
      · rw [Function.update_of_ne hsame] at hno
        exact .inr ⟨no, o, hno, hid, hst⟩
  | settled now sid orderNo token type n _ _ _ _ ho hc =>
    rcases hopen with hlt | ⟨no, o, hno, hid, hst⟩
    · exact .inl (by omega)
    · rw [ho] at hno
      by_cases hsame : no = orderNo
      · rw [hsame, Function.update_self] at hno
        cases hno
        exact absurd hst (by simp [settled])
      · rw [Function.update_of_ne hsame] at hno
        exact .inr ⟨no, o, hno, hid, hst⟩
  | cancelled sid orderNo _ _ _ ho hc =>
    rcases hopen with hlt | ⟨no, o, hno, hid, hst⟩
    · exact .inl (by omega)
    · rw [ho] at hno
      by_cases hsame : no = orderNo
      · rw [hsame, Function.update_self] at hno
        cases hno
      · rw [Function.update_of_ne hsame] at hno
        exact .inr ⟨no, o, hno, hid, hst⟩

end Step

/-! ## Every run -/

theorem noOrders_records (s : St) : Records (noOrders s) := by
  constructor
  · intro orderNo o h
    cases h
  · intro orderNo orderNo' o o' h
    cases h

/-- Agents 1, who sells, and 2, each with a session. -/
def twoAgents : Setup where
  account sid := if sid = "s" then some "seller" else if sid = "b" then some "buyer" else none
  id sid := if sid = "s" then some "1" else if sid = "b" then some "2" else none
  agentId acc := if acc = "seller" then some "1" else if acc = "buyer" then some "2" else none
  login := by
    intro sid acc h
    by_cases hs : sid = "s"
    · subst hs
      obtain rfl : "seller" = acc := Option.some.inj h
      exact ⟨"1", rfl, rfl⟩
    by_cases hb : sid = "b"
    · subst hb
      obtain rfl : "buyer" = acc := Option.some.inj h
      exact ⟨"2", rfl, rfl⟩
    · rw [if_neg hs, if_neg hb] at h
      cases h
  access _ _ := true
  type _ := some "2"
  passwd _ := some "30c952fab122c3f9759f02a6d95c3758b246b4fee239957b2d4fee46e26170c4"
  parent_id _ := some "1"
  buyTotal _ := none
  saleTotal _ := none

/-- Agent 1 has 100 cards. -/
def hundredCards : St where
  setup := twoAgents
  amounts p := if p = .roomcard "1" then some 100 else none
  order _ := none
  count := 0
  list _ := []
  report _ := none
  token _ _ := none

/-- SHA-256 of a password and of an order's number. -/
def digests (x : String) : String :=
  if x = "pw" then "30c952fab122c3f9759f02a6d95c3758b246b4fee239957b2d4fee46e26170c4"
  else if x = "2020010112000027" then "a7f552d515958dd9fa3b0ec57b988f6e3f5c0872952a2c8398fb20854125b110"
  else ""

def noon : Clock := ⟨"2020-01-01 12:00:00", "2020-01-01", "20200101120000"⟩

/-- Agent 2 orders ten cards, and agent 1 looks the order up and confirms it, then once more with the text `None`. -/
def twice : List Req :=
  [.buy noon 7 "b" ⟨"seller", "10", "", "pw", ""⟩, .info "s" "2020010112000027",
    .comfirm noon "s" "2020010112000027" "a7f552d515958dd9fa3b0ec57b988f6e3f5c0872952a2c8398fb20854125b110",
    .comfirm noon "s" "2020010112000027" "None"]

end FishWeb.Order
