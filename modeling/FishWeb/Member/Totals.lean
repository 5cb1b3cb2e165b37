import FishWeb.Lib.Tally
import FishWeb.Member.Transfer
/-!
# The totals of sales and purchases

A confirmation is counted in the day's reports of its buyer and of its seller, and a
recharge in that of its seller. The first of a day starts from `AGENT_BUY_TOTAL` or
`AGENT_SALE_TOTAL`, which nothing writes. So a total is right if and only if that is what
was sold on the other days (`totals_iff`).
-/
open Python Prog Counters Tally
open Function (update)

namespace FishWeb.Member

open FishWeb.Order (Purse RechargeForm Clock Report CardDate Side truthy intOf uidOf buyerOf getOrder reportWrite)

/-! ## Reports -/

/-- What the first report of a day starts from. -/
def carry (f : Order.Setup) (r : Report) : Int :=
  (match r.side with
    | .buy => f.buyTotal r.id
    | .sale => f.saleTotal r.id).getD 0

/-- The cards are counted in the report, which is begun if it is not there. -/
def countIn (f : Order.Setup) (t : Report → Option CardDate) (p : Report × Int) : Report → Option CardDate :=
  update t p.1 (some (match t p.1 with
    | some v => { v with cardNums := v.cardNums + p.2, totalNums := v.totalNums + p.2 }
    | none => ⟨p.2, carry f p.1 + p.2, some p.1.date⟩))

/-- The reports that a list of sales and purchases leaves. -/
def reports (f : Order.Setup) (l : List (Report × Int)) (r : Report) : Option CardDate :=
  (tally (carry f) l r).map fun e => ⟨e.own, e.total, some r.date⟩

theorem countIn_reports (f : Order.Setup) (l : List (Report × Int)) (p : Report × Int) :
    countIn f (reports f l) p = reports f (l ++ [p]) := by
  funext r
  simp only [reports, tally_append, List.foldl_cons, List.foldl_nil, enter, countIn]
  by_cases hr : r = p.1
  · subst hr
    simp only [Function.update_self, Option.map_some]
    cases tally (carry f) l p.1 <;> rfl
  · rw [Function.update_of_ne hr, Function.update_of_ne hr]
    rfl

theorem foldl_countIn (f : Order.Setup) (l l' : List (Report × Int)) : l'.foldl (countIn f) (reports f l) = reports f (l ++ l') := by
  induction l' generalizing l with
  | nil => rw [List.foldl_nil, List.append_nil]
  | cons p l' ih => rw [List.foldl_cons, countIn_reports, ih, List.append_assoc, List.singleton_append]

/-- The write of `countCards` counts, also when other writes come before it. -/
theorem reportWrite_report {s s' : Order.St} {r : Report} (h : s'.report r = s.report r) (n : Int) :
    ((reportWrite s r n).apply s').report = countIn s.setup s'.report (r, n) := by
  unfold reportWrite countIn
  cases hr : s.report r with
  | none =>
    rw [hr] at h
    simp only [Option.isSome_none, Bool.false_eq_true, if_false, h, Order.Write.apply]
    rfl
  | some v =>
    rw [hr] at h
    simp only [Option.isSome_some, if_true, h, Order.Write.apply, Option.getD_some]

/-- The write leaves the reports. -/
def Uncounted (w : Order.Write) : Prop := ∀ s, (w.apply s).report = s.report

theorem foldl_uncounted {l : List Order.Write} (h : ∀ w ∈ l, Uncounted w) (s : Order.St) :
    (l.foldl (fun s w => w.apply s) s).report = s.report := by
  induction l generalizing s with
  | nil => rfl
  | cons w l ih =>
    obtain ⟨hw, hl⟩ := List.forall_mem_cons.1 h
    rw [List.foldl_cons, ih hl, hw]

/-! ## A confirmation -/

theorem settleWrites_uncounted (now : Clock) (orderNo buyer seller : String) (type n : Int) :
    ∀ w ∈ Order.settleWrites now orderNo buyer seller type n, Uncounted w := by
  intro w hw s
  unfold Order.settleWrites at hw
  split at hw <;> simp only [List.cons_append, List.nil_append, List.mem_cons, List.not_mem_nil, or_false] at hw
  · rcases hw with rfl | rfl | rfl | rfl | rfl | rfl | rfl <;> rfl
  · rcases hw with rfl | rfl | rfl | rfl | rfl | rfl <;> rfl

theorem intOf_ok {x : Option String} {n : Int} (h : intOf x = .ok n) : (x.bind int).getD 0 = n := by
  cases x with
  | none => cases h
  | some x =>
    cases hx : int x with
    | none =>
      rw [intOf, hx] at h
      cases h
    | some m =>
      rw [intOf, hx] at h
      rw [Option.bind_some, hx]
      exact Except.ok.inj h

/-- A confirmation counts for its buyer and for its seller. -/
theorem comfirmWrites_report (now : Clock) (s : Order.St) (orderNo buyer seller : String) (type n : Int) :
    (Order.applyAll (Order.comfirmWrites now s orderNo buyer seller type n) s).report =
      [(⟨.buy, buyer, now.date⟩, n), (⟨.sale, seller, now.date⟩, n)].foldl (countIn s.setup) s.report := by
  have hsettle := foldl_uncounted (settleWrites_uncounted now orderNo buyer seller type n) s
  have hbuy := reportWrite_report (congrFun hsettle ⟨.buy, buyer, now.date⟩) n
  have hother : (⟨.sale, seller, now.date⟩ : Report) ≠ ⟨.buy, buyer, now.date⟩ := fun h => Side.noConfusion (congrArg Report.side h)
  have hsale : ((reportWrite s ⟨.buy, buyer, now.date⟩ n).apply
      ((Order.settleWrites now orderNo buyer seller type n).foldl (fun s w => w.apply s) s)).report ⟨.sale, seller, now.date⟩ =
        s.report ⟨.sale, seller, now.date⟩ := by
    rw [hbuy, countIn, Function.update_of_ne hother, hsettle]
  have hboth := reportWrite_report hsale n
  rw [hbuy, hsettle] at hboth
  unfold Order.comfirmWrites Order.applyAll
  rw [List.foldl_append, List.foldl_append]
  exact hboth

theorem comfirm_report (sha256 : String → String) (now : Clock) (sid orderNo token : String) (s : Order.St) :
    (Order.step sha256 (.comfirm now sid orderNo token) s).report =
      (if Order.comfirms sha256 (.comfirm now sid orderNo token) s then
        [(⟨.buy, buyerOf s orderNo, now.date⟩, ((getOrder s orderNo).cardNums.bind int).getD 0),
          (⟨.sale, uidOf s sid, now.date⟩, ((getOrder s orderNo).cardNums.bind int).getD 0)]
      else []).foldl (countIn s.setup) s.report := by
  by_cases h : ∃ type n, Order.Payable s sid orderNo token type n
  · obtain ⟨type, n, hpay⟩ := h
    have hn : ((getOrder s orderNo).cardNums.bind int).getD 0 = n := intOf_ok hpay.cards
    rw [if_pos (Order.comfirms_of_payable hpay), hn, Order.step, Order.Req.handler, Order.comfirm_paid now hpay]
    exact comfirmWrites_report now (Order.withToken s sid "None") orderNo (buyerOf s orderNo) (uidOf s sid) type n
  · have hnot : ∀ type n, ¬Order.Payable s sid orderNo token type n := fun type n hp => h ⟨type, n, hp⟩
    obtain ⟨reply, hreply, hrun⟩ := Order.comfirm_unpaid now hnot
    have hno : Order.comfirms sha256 (.comfirm now sid orderNo token) s = false := by
      rcases hrun with hrun | hrun <;> simp [Order.comfirms, Order.Req.handler, hrun, hreply]
    rw [hno, if_neg Bool.false_ne_true, Order.step, Order.Req.handler]
    rcases hrun with hrun | hrun <;> rw [hrun] <;> rfl

/-- A cancellation is not counted. -/
theorem cancel_report (now : Clock) (orderNo buyerId salerId url : String) (s : Order.St) :
    (run (Order.cancelOrder orderNo (Order.cancelWrites now orderNo buyerId salerId) url) s).2.report = s.report := by
  have hok : (Order.cancelWrites now orderNo buyerId salerId).any Order.Write.refused = false := rfl
  have hattempt := run_attempt (Order.execute (Order.cancelWrites now orderNo buyerId salerId)) s
  rw [Order.run_execute hok] at hattempt
  unfold Order.cancelOrder
  rw [run_bind_ok hattempt]
  rfl

/-! ## A recharge -/

section Recharge
variable (s : Order.St) (sid : String) (form : RechargeForm)

/-- What a recharge debits, where the cards are enough. -/
def debitOf : Option (List Order.Write) :=
  match intOf (s.setup.type (uidOf s sid)) with
  | .error _ => none
  | .ok type =>
    if type = 0 ∨ type = 1 then some []
    else match s.amounts (.roomcard (uidOf s sid)), int form.cardNums with
      | some roomcard, some n => if roomcard < n then none else some [.hincrby (.roomcard (uidOf s sid)) (-n)]
      | _, _ => none

/-- The recharge passes its checks, and the cards are enough. -/
def Sells (sha256 : String → String) : Prop := Passes sha256 s sid form ∧ (debitOf s sid form).isSome

instance (sha256 : String → String) : Decidable (Sells s sid form sha256) := inferInstanceAs (Decidable (_ ∧ _))

variable {s sid form}

theorem debitOf_uncounted {debit : List Order.Write} (h : debitOf s sid form = some debit) : ∀ w ∈ debit, Uncounted w := by
  intro w hw s'
  unfold debitOf at h
  split at h
  · cases h
  split at h
  · cases h
    cases hw
  split at h
  · split at h
    · cases h
    · cases h
      rw [List.mem_singleton.1 hw]
      rfl
  · cases h

/-- Cards that are given are counted for the seller. -/
theorem giveCards_report (now : Clock) (rand : Nat) (me : String) (acc : Option String) {debit : List Order.Write}
    (hdebit : ∀ w ∈ debit, Uncounted w) :
    (run (Order.giveCards now rand sid me acc form debit) s).2.report =
      countIn s.setup s.report (⟨.sale, me, now.date⟩, (int form.cardNums).getD 0) ∧
    (run (Order.giveCards now rand sid me acc form debit) s).2.setup = s.setup := by
  have htoken : run (call (.setToken .recharge sid "None") : Order.Handler Unit) s =
      (.ok (), { s with token := update s.token .recharge (update (s.token .recharge) sid (some "None")) }) := rfl
  unfold Order.giveCards
  dsimp only
  obtain ⟨s₂, hcreate, hsetup, hreport⟩ : ∃ s₂, run (Order.createOrder (Order.getOrderNo now me rand)
      { orderNo := some (Order.getOrderNo now me rand), cardNums := some form.cardNums,
        applyAccount := some (form.memberId ++ "(玩家)"), status := some "1", apply_date := some now.now,
        finish_date := some now.now, note := some "", saleAccount := acc })
      { s with token := update s.token .recharge (update (s.token .recharge) sid (some "None")) } = (.ok (), s₂) ∧
        s₂.setup = s.setup ∧ s₂.report = s.report := ⟨_, rfl, rfl, rfl⟩
  rw [run_bind_ok htoken, run_bind_ok hcreate, run_bind_ok (Order.run_countCards s₂ _ _)]
  have hfront : ∀ w ∈ debit ++ [.incrbyText (.member me form.memberId) form.cardNums] ++
      [.lpush (.agent .sale .order me now.date) (Order.getOrderNo now me rand),
        .lpush (.agent .sale .success me now.date) (Order.getOrderNo now me rand)], Uncounted w := by
    intro w hw
    simp only [List.mem_append, List.mem_cons, List.not_mem_nil, or_false] at hw
    rcases hw with (hw | rfl) | rfl | rfl
    · exact hdebit w hw
    · exact fun _ => rfl
    · exact fun _ => rfl
    · exact fun _ => rfl
  have hlast : ∀ (l : List Order.Write) (x : Order.Response), (run (Order.execute l >>= fun _ => .ret x) s₂).2 = Order.applyAll l s₂ := by
    intro l x
    rw [run_bind_ret, (ran_execute l s₂).run]
  simp only [pure_eq]
  rw [hlast]
  refine ⟨?_, (foldl_apply_frame _ s₂).1.trans hsetup⟩
  have hcount := reportWrite_report (congrFun (foldl_uncounted hfront s₂) ⟨.sale, me, now.date⟩) ((int form.cardNums).getD 0)
  rw [foldl_uncounted hfront, hsetup, hreport] at hcount
  unfold Order.applyAll
  rw [List.foldl_append]
  exact hcount

theorem recharge_refused {sha256 : String → String} (hpasses : ¬Passes sha256 s sid form) (now : Clock) (rand : Nat) :
    (run (Order.doMemberRecharge sha256 now rand sid form) s).2 = s := by
  unfold Order.doMemberRecharge
  by_cases hlogin : truthy (s.setup.account sid) = true
  swap
  · simp [call, hlogin]
  by_cases hissued : truthy (s.token .recharge sid) = true
  swap
  · simp [call, hlogin, hissued]
  by_cases htoken : some form.token = s.token .recharge sid
  swap
  · simp [call, hlogin, hissued, htoken]
  by_cases hnums : form.cardNums = ""
  · simp [call, hlogin, hissued, htoken, hnums]
  by_cases hempty : form.passwd = ""
  · simp [call, hlogin, hissued, htoken, hnums, hempty]
  have hpasswd : ¬s.setup.passwd (fmt (s.setup.id sid)) = some (sha256 form.passwd) := fun h =>
    hpasses ⟨hlogin, hissued, htoken.symm, hnums, hempty, h⟩
  simp [call, hlogin, hissued, htoken, hnums, hempty, hpasswd, Order.St.agent]

/-- Past the checks it is left to ask for the agent's type, and for his cards if he is no company. -/
theorem recharge_passed {sha256 : String → String} (hpasses : Passes sha256 s sid form) (now : Clock) (rand : Nat) :
    run (Order.doMemberRecharge sha256 now rand sid form) s = run (do
      let type ← Prog.ofExcept (intOf (s.setup.type (uidOf s sid)))
      if type = 0 ∨ type = 1 then Order.giveCards now rand sid (uidOf s sid) (s.setup.account sid) form []
      else do
        let roomcard ← Prog.ofExcept (Order.intField (s.amounts (.roomcard (uidOf s sid))))
        let n ← Prog.ofExcept (intOf (some form.cardNums))
        if roomcard < n then return Order.notEnough
        Order.giveCards now rand sid (uidOf s sid) (s.setup.account sid) form [.hincrby (.roomcard (uidOf s sid)) (-n)]) s := by
  obtain ⟨hlogin, hissued, htoken, hnums, hempty, hpasswd⟩ := hpasses
  have hpasswd : s.setup.passwd (fmt (s.setup.id sid)) = some (sha256 form.passwd) := hpasswd
  have htruthy : truthy (some form.token) = true := htoken ▸ hissued
  simp [Order.doMemberRecharge, call, hlogin, htruthy, htoken, hnums, hempty, hpasswd, Order.St.agent, uidOf]

/-- A recharge is refused and leaves the store, or the cards are given. -/
theorem recharge_cases (sha256 : String → String) (now : Clock) (rand : Nat) :
    (¬Sells s sid form sha256 ∧ (run (Order.doMemberRecharge sha256 now rand sid form) s).2 = s) ∨
      Sells s sid form sha256 ∧ ∃ debit, debitOf s sid form = some debit ∧
        run (Order.doMemberRecharge sha256 now rand sid form) s =
          run (Order.giveCards now rand sid (uidOf s sid) (s.setup.account sid) form debit) s := by
  by_cases hpasses : Passes sha256 s sid form
  swap
  · exact .inl ⟨fun h => hpasses h.1, recharge_refused hpasses now rand⟩
  rw [recharge_passed hpasses]
  unfold Sells debitOf
  cases htype : intOf (s.setup.type (uidOf s sid)) with
  | error e => exact .inl ⟨fun h => by simp at h, rfl⟩
  | ok type =>
  by_cases hc : type = 0 ∨ type = 1
  · refine .inr ⟨⟨hpasses, ?_⟩, [], ?_, ?_⟩
    · simp [hc]
    · simp [hc]
    · simp [hc]
  cases hroom : s.amounts (.roomcard (uidOf s sid)) with
  | none => exact .inl ⟨fun h => by simp [hc] at h, by simp [hc, Order.intField]⟩
  | some roomcard =>
  cases hn : int form.cardNums with
  | none => exact .inl ⟨fun h => by simp [hc] at h, by simp [hc, Order.intField, intOf, hn]⟩
  | some n =>
  by_cases hpoor : roomcard < n
  · exact .inl ⟨fun h => by simp [hc, hpoor] at h, by simp [hc, Order.intField, intOf, hn, hpoor]⟩
  · refine .inr ⟨⟨hpasses, ?_⟩, [.hincrby (.roomcard (uidOf s sid)) (-n)], ?_, ?_⟩
    · simp [hc, hpoor]
    · simp [hc, hpoor]
    · simp [hc, hpoor, Order.intField, intOf, hn]

theorem recharge_report (sha256 : String → String) (now : Clock) (rand : Nat) :
    (run (Order.doMemberRecharge sha256 now rand sid form) s).2.report =
      (if Sells s sid form sha256 then [(⟨.sale, uidOf s sid, now.date⟩, (int form.cardNums).getD 0)] else []).foldl
        (countIn s.setup) s.report ∧
    (run (Order.doMemberRecharge sha256 now rand sid form) s).2.setup = s.setup := by
  rcases recharge_cases sha256 now rand with ⟨hnot, hrun⟩ | ⟨hsells, debit, hdebit, hrun⟩
  · rw [hrun, if_neg hnot]
    exact ⟨rfl, rfl⟩
  · rw [hrun, if_pos hsells]
    exact giveCards_report now rand (uidOf s sid) (s.setup.account sid) (debitOf_uncounted hdebit)

end Recharge

/-! ## Requests that are not counted -/

/-- The command leaves the reports, and what no order endpoint writes. -/
def Quiet ⦃β : Type⦄ (c : Cmd β) : Prop :=
  ∀ s : St, (Exec.exec c s).2.order.report = s.order.report ∧ (Exec.exec c s).2.order.setup = s.order.setup

theorem quiet_own {β : Type} (c : Own β) : Quiet (.own c) := by
  intro s
  cases c <;> exact ⟨rfl, rfl⟩

theorem run_quiet {α : Type} {p : Handler α} (hp : Only Quiet p) (s : St) :
    (run p s).2.order.report = s.order.report ∧ (run p s).2.order.setup = s.order.setup := by
  refine hp.run_inv (I := fun s' : St => s'.order.report = s.order.report ∧ s'.order.setup = s.order.setup) ?_ ⟨rfl, rfl⟩
  rintro β c s' hc ⟨hreport, hsetup⟩
  exact ⟨(hc s').1.trans hreport, (hc s').2.trans hsetup⟩

theorem quiet_loggedIn (sid : String) : Only Quiet (loggedIn sid) := ⟨fun _ => ⟨rfl, rfl⟩, fun _ => trivial⟩

theorem quiet_remove (sid : String) (pageNumber : Nat) (remove_type : String) (form : RemoveForm) :
    Only Quiet (doRemoveCard sid pageNumber remove_type form) := by
  refine only_bind Quiet (quiet_loggedIn sid) fun logged => ?_
  simp [send, quiet_own]

theorem quiet_page (md5 : String → String) (time sid action memberId : String) :
    Only Quiet (getMemberRecharge md5 time sid action memberId) := by
  refine only_bind Quiet (quiet_loggedIn sid) fun logged => ?_
  have hknown : ∀ selfUid, Only Quiet (memberKnown action selfUid memberId) := by
    intro selfUid
    unfold memberKnown
    split
    · exact ⟨quiet_own _, fun _ => ⟨quiet_own _, fun _ => trivial⟩⟩
    · exact ⟨quiet_own _, fun _ => ⟨quiet_own _, fun _ => trivial⟩⟩
  have hcard : ∀ selfUid, Only Quiet (initCard action selfUid memberId) := by
    intro selfUid
    unfold initCard
    split
    · refine ⟨quiet_own _, fun found => ?_⟩
      cases found with
      | true => trivial
      | false => exact ⟨quiet_own _, fun _ => trivial⟩
    · trivial
  cases logged with
  | false => trivial
  | true =>
    have hid : Only Quiet (order (call (.sessionId sid))) := ⟨fun _ => ⟨rfl, rfl⟩, fun _ => trivial⟩
    refine only_bind Quiet hid fun selfUid => only_bind Quiet (hknown _) fun known => ?_
    cases known with
    | false => trivial
    | true => exact only_bind Quiet (hcard _) fun _ => ⟨fun _ => ⟨rfl, rfl⟩, fun _ => trivial⟩

/-! ## What is sold and bought -/

inductive Request where
  | order (r : Order.Req)
  | member (r : Req)

section Requests
variable (md5 sha256 : String → String)

/-- The state after the request. -/
def Request.step : Request → St → St
  | .order r, s => { s with order := Order.step sha256 r s.order }
  | .member r, s => FishWeb.Member.step md5 sha256 r s

/-- What the request sells, and to which agent: the cards of the order it confirms, or those of the recharge. -/
def deals : Request → St → List (Report × Int)
  | .order (.comfirm now sid orderNo token), s =>
    let n := ((getOrder s.order orderNo).cardNums.bind int).getD 0
    if Order.comfirms sha256 (.comfirm now sid orderNo token) s.order then
      [(⟨.buy, buyerOf s.order orderNo, now.date⟩, n), (⟨.sale, uidOf s.order sid, now.date⟩, n)]
    else []
  | .member (.recharge now _ sid form), s =>
    if Sells s.order sid form sha256 then [(⟨.sale, uidOf s.order sid, now.date⟩, (int form.cardNums).getD 0)] else []
  | _, _ => []

/-- A request counts what it sells. -/
theorem step_report (r : Request) (s : St) :
    (r.step md5 sha256 s).order.report = (deals sha256 r s).foldl (countIn s.order.setup) s.order.report ∧
      (r.step md5 sha256 s).order.setup = s.order.setup := by
  cases r with
  | order r =>
    refine ⟨?_, (Order.effect_of sha256 r s.order).2⟩
    cases r with
    | buy now rand sid form =>
      show (run (Order.doBuyPage sha256 now rand sid form) s.order).2.report = s.order.report
      rcases Order.buy_cases sha256 now rand sid form s.order with h | ⟨n, acc, -, -, h⟩ <;> rw [h]
      rfl
    | info sid orderNo =>
      show (run (Order.getOrderInfo sha256 sid orderNo) s.order).2.report = s.order.report
      rcases Order.info_frame sha256 sid orderNo s.order with h | h <;> rw [h]
      rfl
    | comfirm now sid orderNo token => exact comfirm_report sha256 now sid orderNo token s.order
    | cancel now sid orderNo =>
      exact cancel_report now orderNo (uidOf s.order sid)
        (fmt (s.order.setup.agentId (fmt (getOrder s.order orderNo).saleAccount))) "/admin/order/buy/record" s.order
    | saleCancel now sid orderNo =>
      exact cancel_report now orderNo (buyerOf s.order orderNo) (uidOf s.order sid) "/admin/order/sale/record" s.order
  | member r =>
    cases r with
    | page time sid action memberId => exact run_quiet (quiet_page md5 time sid action memberId) s
    | recharge now rand sid form =>
      have hrun : (FishWeb.Member.step md5 sha256 (.recharge now rand sid form) s).order =
          (run (Order.doMemberRecharge sha256 now rand sid form) s.order).2 := by
        have hlift := run_lift (D := Cmd) part_order (Order.doMemberRecharge sha256 now rand sid form) s
        rw [FishWeb.Member.step, Req.handler, doMemberRecharge]
        simp only [pure_eq]
        rw [run_bind_ret, order, hlift]
      rw [Request.step, hrun]
      exact recharge_report sha256 now rand
    | coin sid form =>
      have hcoin : (FishWeb.Member.step md5 sha256 (.coin sid form) s).order = s.order := by
        show (run (doMemberRechargeCoin sha256 sid form) s).2.order = s.order
        rcases comes_coin sha256 s sid form with ⟨h, -⟩ | ⟨-, h, -⟩ <;> rw [h]
      rw [Request.step, hcoin]
      exact ⟨rfl, rfl⟩
    | remove sid pageNumber remove_type form => exact run_quiet (quiet_remove sid pageNumber remove_type form) s

/-! ## Histories -/

/-- The store, and what has been sold and bought so far. -/
structure Book where
  st : St
  entries : List (Report × Int)

def Book.next (r : Request) (b : Book) : Book := ⟨r.step md5 sha256 b.st, b.entries ++ deals sha256 r b.st⟩

/-- Whose report it is, and whether it is of sales. -/
def owner (r : Report) : Side × String := (r.side, r.id)

/-- No report yet. -/
def opened (s : St) : Book := ⟨{ s with order := { s.order with report := fun _ => none } }, []⟩

/-- The reports are those of the deals so far. -/
def Kept (f : Order.Setup) (b : Book) : Prop := b.st.order.report = reports f b.entries ∧ b.st.order.setup = f

theorem kept_next {f : Order.Setup} (r : Request) {b : Book} (h : Kept f b) : Kept f (b.next md5 sha256 r) := by
  obtain ⟨hreport, hsetup⟩ := step_report md5 sha256 r b.st
  refine ⟨?_, hsetup.trans h.2⟩
  rw [Book.next, hreport, h.1, h.2, foldl_countIn]

/-- After the request the total of each report that it counts in is all that its owner has sold, or has bought. -/
def TotalsRight (r : Request) (b : Book) : Prop :=
  ∀ p ∈ deals sha256 r b.st, ((b.next md5 sha256 r).st.order.report p.1).map CardDate.totalNums =
    some (entered owner (b.next md5 sha256 r).entries (owner p.1))

/-- What its owner has sold or bought on other days is what the report starts from. -/
def CarriedOver (r : Request) (b : Book) : Prop :=
  ∀ p ∈ deals sha256 r b.st, carry b.st.order.setup p.1 = elsewhere owner (b.next md5 sha256 r).entries p.1

theorem totalsRight_iff {f : Order.Setup} {r : Request} {b : Book} (h : Kept f b) :
    TotalsRight md5 sha256 r b ↔ CarriedOver md5 sha256 r b := by
  refine forall₂_congr fun p hp => ?_
  have hmem : p.1 ∈ (b.next md5 sha256 r).entries.map Prod.fst :=
    List.mem_map_of_mem (List.mem_append_right b.entries hp)
  rw [(kept_next md5 sha256 r h).1, h.2, ← total_eq_iff hmem, reports, Option.map_map]
  rfl

end Requests

/-! ## Two days -/

/-- Agent 1 gives five cards to his member, and three the day after. -/
def twoDays : List Request :=
  let nextNoon : Clock := ⟨"2020-01-02 12:00:00", "2020-01-02", "20200102120000"⟩
  [.member (.page "1577880000.0" "s" "hall" "9"),
    .member (.recharge Order.noon 7 "s" ⟨"9", "5", "pw", "eab71a390d6ff1b3f65eae24a437ff64"⟩),
    .member (.page "1577880000.0" "s" "hall" "9"),
    .member (.recharge nextNoon 7 "s" ⟨"9", "3", "pw", "eab71a390d6ff1b3f65eae24a437ff64"⟩)]

def afterTwoDays : Book := Runs.after (Book.next md5OfNine Order.digests) twoDays (opened oneMember)

end FishWeb.Member
