import FishWeb.Member.Model
import FishWeb.Order.Settle
import FishWeb.Lib.Runs
/-!
# Transfers to and from members

What each request moves is read off the handler once (`ran_recharge`, `ran_coin`,
`ran_remove`). A recharge consumes its token and a coin recharge does not, and the
handlers take any amount a form gives: `Meets` is what they leave to the client.
-/
open Python Prog Counters
open Function (update)

namespace FishWeb.Member

open FishWeb.Order (Purse RechargeForm Clock truthy intOf uidOf)

/-! ## A recharge of the orders -/

section Recharge
variable (sha256 : String → String)

/-- The checks of the two recharges: a session with a token, the token and the password again, and an amount. -/
def Passes (s : Order.St) (sid : String) (form : RechargeForm) : Prop :=
  truthy (s.setup.account sid) = true ∧ truthy (s.token .recharge sid) = true ∧ s.token .recharge sid = some form.token ∧
    form.cardNums ≠ "" ∧ form.passwd ≠ "" ∧ s.setup.passwd (uidOf s sid) = some (sha256 form.passwd)

instance (s : Order.St) (sid : String) (form : RechargeForm) : Decidable (Passes sha256 s sid form) :=
  inferInstanceAs (Decidable (_ ∧ _))

end Recharge

/-- What the `incrby` of a recharge adds: Redis reads the text of the form. -/
def credit (me : String) (form : RechargeForm) : List (Purse × Int) :=
  ((redisInt form.cardNums).map fun n => (Purse.member me form.memberId, n)).toList

/-- What a recharge answers that goes through. -/
def given (form : RechargeForm) : Order.Response :=
  .json 0 ("成功向[" ++ form.memberId ++ "]充值了钻石[" ++ toString ((int form.cardNums).getD 0) ++ "]张") (some "/admin/member/search/hall")

/-- The token of the session is gone, and cards have moved. -/
structure Spent (s s' : Order.St) (sid : String) (l : List (Purse × Int)) : Prop where
  setup : s'.setup = s.setup
  token : s'.token = update s.token .recharge (update (s.token .recharge) sid (some "None"))
  amounts : s'.amounts = incrAll l s.amounts

theorem foldl_apply_frame (l : List Order.Write) (s : Order.St) :
    (l.foldl (fun s w => w.apply s) s).setup = s.setup ∧ (l.foldl (fun s w => w.apply s) s).token = s.token := by
  induction l generalizing s with
  | nil => exact ⟨rfl, rfl⟩
  | cons w l ih =>
    obtain ⟨hsetup, htoken⟩ := ih (w.apply s)
    rw [List.foldl_cons, hsetup, htoken]
    cases w <;> exact ⟨rfl, rfl⟩

theorem ran_countCards (s : Order.St) (r : Order.Report) (n : Int) :
    Ran (Order.countCards r n) s (.ok [Order.reportWrite s r n]) s ([] : List (Purse × Int)) := by
  refine ⟨Order.run_countCards s r n, ?_⟩
  refine Only.trace_nil (P := fun _ c => ∀ b, (Note.note c b : List (Purse × Int)) = []) (fun β c b hc => hc b) ?_ s
  unfold Order.countCards
  refine ⟨fun _ => rfl, fun found => ?_⟩
  cases found with
  | true => trivial
  | false => exact ⟨fun _ => rfl, fun _ => trivial⟩

theorem ran_execute (l : List Order.Write) (s : Order.St) :
    Ran (Order.execute l) s (if l.any Order.Write.refused then .error .ResponseError else .ok ()) (Order.applyAll l s)
      (l.flatMap Order.Write.increments) := by
  unfold Order.execute
  constructor
  · show run (if _ then _ else _) (Order.applyAll l s) = _
    split <;> rfl
  · show l.flatMap Order.Write.increments ++ trace _ (if _ then _ else _) _ = _
    split <;> exact List.append_nil _

theorem ran_createOrder (orderNo : String) (info : Order.OrderInfo) (s : Order.St) :
    ∃ s', Ran (Order.createOrder orderNo info) s (.ok ()) s' ([] : List (Purse × Int)) ∧ s'.setup = s.setup ∧ s'.token = s.token ∧
      s'.amounts = s.amounts :=
  ⟨_, ⟨rfl, rfl⟩, rfl, rfl, rfl⟩

/-- The last pipeline of a recharge: the debit, the credit, and writes that move nothing. -/
theorem ran_pay (me : String) (form : RechargeForm) {debit : List Order.Write} (hdebit : debit.any Order.Write.refused = false)
    {rest : List Order.Write} (hrest : rest.any Order.Write.refused = false) (hquiet : rest.flatMap Order.Write.increments = []) (s : Order.St) :
    let l := debit ++ [.incrbyText (.member me form.memberId) form.cardNums] ++ rest
    Ran (Order.execute l >>= fun _ => .ret (given form)) s
        (if (redisInt form.cardNums).isSome then .ok (given form) else .error .ResponseError) (Order.applyAll l s)
        (debit.flatMap Order.Write.increments ++ credit me form) ∧
      l.flatMap Order.Write.increments = debit.flatMap Order.Write.increments ++ credit me form := by
  intro l
  have hincr : l.flatMap Order.Write.increments = debit.flatMap Order.Write.increments ++ credit me form := by
    simp [l, List.flatMap_append, hquiet, credit, Order.Write.increments]
  have hrefused : l.any Order.Write.refused = (redisInt form.cardNums).isNone := by
    simp [l, List.any_append, hdebit, hrest, Order.Write.refused]
  refine ⟨?_, hincr⟩
  have hran := ran_execute l s
  rw [hrefused, hincr] at hran
  have hret : Ran (.ret (given form) : Order.Handler Order.Response) (Order.applyAll l s) (.ok (given form))
      (Order.applyAll l s) ([] : List (Purse × Int)) := ran_ret _ _
  cases hn : redisInt form.cardNums with
  | none =>
    rw [hn] at hran
    exact hran.bind_error
  | some n =>
    rw [hn] at hran
    have hbind := hran.bind (f := fun _ => .ret (given form)) hret
    rwa [List.append_nil] at hbind

/-- The order is listed and counted, which moves nothing. -/
theorem quiet_sale (s : Order.St) (me date orderNo : String) (n : Int) :
    let l : List Order.Write := [.lpush (.agent .sale .order me date) orderNo, .lpush (.agent .sale .success me date) orderNo] ++
      [Order.reportWrite s ⟨.sale, me, date⟩ n]
    l.any Order.Write.refused = false ∧ l.flatMap Order.Write.increments = [] := by
  intro l
  constructor
  · show (_ || (_ || ((Order.reportWrite s ⟨.sale, me, date⟩ n).refused || false))) = false
    rw [Order.reportWrite_accepted]
    rfl
  · show _ ++ (_ ++ ((Order.reportWrite s ⟨.sale, me, date⟩ n).increments ++ [])) = []
    rw [Order.reportWrite_increments]
    rfl

/-- Cards are given: the debit and the credit in one transaction, of which the credit may be refused. -/
theorem ran_giveCards (now : Clock) (rand : Nat) (sid me : String) (acc : Option String) (form : RechargeForm)
    (debit : List Order.Write) (hdebit : debit.any Order.Write.refused = false) (s : Order.St) :
    ∃ s', Ran (Order.giveCards now rand sid me acc form debit) s
        (if (redisInt form.cardNums).isSome then .ok (given form) else .error .ResponseError) s'
        (debit.flatMap Order.Write.increments ++ credit me form) ∧
      Spent s s' sid (debit.flatMap Order.Write.increments ++ credit me form) := by
  have htoken : Ran (call (.setToken .recharge sid "None") : Order.Handler Unit) s (.ok ())
      { s with token := update s.token .recharge (update (s.token .recharge) sid (some "None")) } ([] : List (Purse × Int)) :=
    ⟨rfl, rfl⟩
  unfold Order.giveCards
  dsimp only
  obtain ⟨s₂, horder, hsetup, htok, hamounts⟩ := ran_createOrder (Order.getOrderNo now me rand)
    { orderNo := some (Order.getOrderNo now me rand), cardNums := some form.cardNums,
      applyAccount := some (form.memberId ++ "(玩家)"), status := some "1", apply_date := some now.now,
      finish_date := some now.now, note := some "", saleAccount := acc }
    { s with token := update s.token .recharge (update (s.token .recharge) sid (some "None")) }
  obtain ⟨haccepted, hquiet⟩ := quiet_sale s₂ me now.date (Order.getOrderNo now me rand) ((int form.cardNums).getD 0)
  obtain ⟨hran, hincr⟩ := ran_pay me form hdebit haccepted hquiet s₂
  rw [← List.append_assoc] at hran hincr
  refine ⟨_, htoken.bind (horder.bind ((ran_countCards s₂ _ _).bind hran)), ?_, ?_, ?_⟩
  · exact (foldl_apply_frame _ s₂).1.trans hsetup
  · exact (foldl_apply_frame _ s₂).2.trans htok
  · show incrAll _ s₂.amounts = _
    rw [hincr, hamounts]

section Recharge
variable (sha256 : String → String) (sid : String) (form : RechargeForm) (s : Order.St)

/-- What a recharge debits: nothing of a company, and of another agent what Python reads. -/
inductive Debit : List (Purse × Int) → Prop
  | company {type : Int} (h : intOf (s.setup.type (uidOf s sid)) = .ok type) (hc : type = 0 ∨ type = 1) : Debit []
  | agent {type n : Int} (h : intOf (s.setup.type (uidOf s sid)) = .ok type) (hc : ¬(type = 0 ∨ type = 1))
      (hn : int form.cardNums = some n) (hle : n ≤ val s.amounts (.roomcard (uidOf s sid))) :
      Debit [(.roomcard (uidOf s sid), -n)]

/-- A recharge is refused and leaves the store, or it passes its checks, pays and consumes its token. -/
def Outcome (r : Except Err Order.Response) (s' : Order.St) (l : List (Purse × Int)) : Prop :=
  (s' = s ∧ l = [] ∧ ∀ msg, r ≠ .ok (.json 0 msg (some "/admin/member/search/hall"))) ∨
    Passes sha256 s sid form ∧ ∃ debit, Debit sid form s debit ∧ l = debit ++ credit (uidOf s sid) form ∧
      r = (if (redisInt form.cardNums).isSome then .ok (given form) else .error .ResponseError) ∧ Spent s s' sid l

variable {sha256 sid form s}

theorem refused_ret {r : Order.Response} (h : ∀ msg, r ≠ .json 0 msg (some "/admin/member/search/hall")) :
    Comes (Outcome sha256 sid form s) (.ret r : Order.Handler Order.Response) s :=
  comes_ret (.inl ⟨rfl, rfl, fun msg he => h msg (Except.ok.inj he)⟩)

theorem refused_raise (e : Err) : Comes (Outcome sha256 sid form s) (.raise e : Order.Handler Order.Response) s :=
  comes_raise (.inl ⟨rfl, rfl, fun _ he => by cases he⟩)

variable (sha256 sid form s) in
theorem comes_orderRecharge (now : Clock) (rand : Nat) :
    Comes (Outcome sha256 sid form s) (Order.doMemberRecharge sha256 now rand sid form) s := by
  unfold Order.doMemberRecharge
  show Comes _ (if !truthy (s.setup.account sid) then _ else _) s
  cases hlogin : truthy (s.setup.account sid) with
  | false => exact refused_ret fun msg => by simp
  | true =>
  show Comes _ (if !truthy (s.token .recharge sid) then _ else _) s
  cases hissued : truthy (s.token .recharge sid) with
  | false => exact refused_ret fun msg => by simp [Order.Response.msg]
  | true =>
  show Comes _ (if some form.token ≠ s.token .recharge sid then _ else _) s
  refine comes_ite (fun _ => refused_ret fun msg => by simp) fun htoken => ?_
  show Comes _ (if form.cardNums = "" then _ else if form.passwd = "" then _ else
    if (s.agent (uidOf s sid)).passwd ≠ some (sha256 form.passwd) then _ else
    Prog.ofExcept (intOf (s.agent (uidOf s sid)).type) >>= _) s
  refine comes_ite (fun _ => refused_ret fun msg => by simp [Order.Response.msg]) fun hnums => ?_
  refine comes_ite (fun _ => refused_ret fun msg => by simp [Order.Response.msg]) fun hempty => ?_
  refine comes_ite (fun _ => refused_ret fun msg => by simp [Order.Response.msg]) fun hpasswd => ?_
  have hpasses : Passes sha256 s sid form :=
    ⟨hlogin, hissued, (not_not.1 htoken).symm, hnums, hempty, not_not.1 hpasswd⟩
  cases htype : intOf (s.setup.type (uidOf s sid)) with
  | error e =>
    rw [show intOf (s.agent (uidOf s sid)).type = _ from htype]
    exact refused_raise e
  | ok type =>
  rw [show intOf (s.agent (uidOf s sid)).type = _ from htype, ofExcept_ok, ret_bind]
  refine comes_ite (fun hc => ?_) fun hc => ?_
  · obtain ⟨s', hran, hspent⟩ := ran_giveCards now rand sid (uidOf s sid) (s.setup.account sid) form
      [] rfl s
    exact hran.comes (.inr ⟨hpasses, [], .company htype hc, rfl, rfl, hspent⟩)
  show Comes _ (Prog.ofExcept (Order.intField (s.amounts (.roomcard (uidOf s sid)))) >>= fun roomcard =>
    Prog.ofExcept (intOf (some form.cardNums)) >>= fun n => if roomcard < n then .ret Order.notEnough
      else Order.giveCards now rand sid (uidOf s sid) (s.setup.account sid) form [.hincrby (.roomcard (uidOf s sid)) (-n)]) s
  cases hroom : s.amounts (.roomcard (uidOf s sid)) with
  | none => exact refused_raise .TypeError
  | some roomcard =>
  cases hn : int form.cardNums with
  | none =>
    rw [show intOf (some form.cardNums) = .error .ValueError by rw [intOf, hn]]
    exact refused_raise .ValueError
  | some n =>
  have hint : intOf (some form.cardNums) = .ok n := by rw [intOf, hn]
  rw [hint, Order.intField, ofExcept_ok, ret_bind, ofExcept_ok, ret_bind]
  refine comes_ite (fun _ => refused_ret fun msg => by simp [Order.notEnough]) fun hpoor => ?_
  have hdebit : Debit sid form s [(.roomcard (uidOf s sid), -n)] := by
    refine .agent htype hc hn ?_
    rw [val, hroom]
    exact not_lt.1 hpoor
  obtain ⟨s', hran, hspent⟩ := ran_giveCards now rand sid (uidOf s sid) (s.setup.account sid) form
    [.hincrby (.roomcard (uidOf s sid)) (-n)] rfl s
  exact hran.comes (.inr ⟨hpasses, _, hdebit, rfl, rfl, hspent⟩)

end Recharge

/-! ## What moves -/

/-- The balances have changed by `l`, and by nothing else. -/
def Moves (s s' : St) (l : List (Fund × Int)) : Prop := ∀ f, val s'.balance f = val s.balance f + net l f

theorem Moves.refl (s : St) : Moves s s [] := fun _ => (Int.add_zero _).symm

theorem net_ofPurse (l : List (Purse × Int)) (p : Purse) : net (l.map Fund.ofPurse) (.purse p) = net l p := by
  induction l with
  | nil => rfl
  | cons q l ih => rw [List.map_cons, net_cons, net_cons, ih]; simp [Fund.ofPurse]

theorem net_ofPurse_coin (l : List (Purse × Int)) (memberId : String) : net (l.map Fund.ofPurse) (.coin memberId) = 0 := by
  refine net_eq_zero fun q hq => ?_
  obtain ⟨p, -, rfl⟩ := List.mem_map.1 hq
  exact fun h => by cases h

theorem moves_purses {s s' : St} {l : List (Purse × Int)} (horder : s'.order.amounts = incrAll l s.order.amounts)
    (hcoin : s'.coin = s.coin) : Moves s s' (l.map Fund.ofPurse) := by
  intro f
  cases f with
  | purse p =>
    rw [net_ofPurse]
    show val s'.order.amounts p = val s.order.amounts p + net l p
    rw [horder, val_incrAll]
  | coin memberId =>
    rw [net_ofPurse_coin, Int.add_zero]
    show val s'.coin memberId = val s.coin memberId
    rw [hcoin]

theorem moves_coin (s : St) (memberId : String) (n : Int) :
    Moves s { s with coin := incrby s.coin memberId n } [(.coin memberId, n)] := by
  intro f
  cases f with
  | purse p => simp [net, val, St.balance]
  | coin m =>
    show val (incrby s.coin memberId n) m = val s.coin m + _
    rw [val_incrby]
    simp

theorem part_order : Part (C := Order.Cmd) (D := Cmd) (fun _ => Cmd.order) St.order fun s order => { s with order := order } where
  exec _ _ _ := rfl
  view_put _ _ := rfl
  put_put _ _ _ := rfl
  put_view _ := rfl

theorem ran_order {α : Type} {p : Order.Handler α} {s : St} {r : Except Err α} {o : Order.St} {l : List (Purse × Int)}
    (h : Ran p s.order r o l) : Ran (order p) s r { s with order := o } (l.map Fund.ofPurse) :=
  Ran.lift (D := Cmd) part_order (fun _ _ _ => rfl) h

/-! ## What the requests move -/

/-- A recharge that goes through. -/
def Accepted (r : Except Err Reply) : Prop := ∃ msg, r = .ok (.order (.json 0 msg (some "/admin/member/search/hall")))

section Requests
variable {sha256 : String → String} {s : St} {sid : String} {form : RechargeForm}

/-- A recharge is refused and leaves the store, or it passes its checks, pays and consumes its token. -/
def Recharged (sha256 : String → String) (sid : String) (form : RechargeForm) (s : St) (r : Except Err Reply) (s' : St)
    (l : List (Fund × Int)) : Prop :=
  (s' = s ∧ l = [] ∧ ¬Accepted r) ∨
    Passes sha256 s.order sid form ∧ ∃ debit o, Debit sid form s.order debit ∧ s' = { s with order := o } ∧
      l = (debit ++ credit (uidOf s.order sid) form).map Fund.ofPurse ∧
      r = (if (redisInt form.cardNums).isSome then .ok (.order (given form)) else .error .ResponseError) ∧
      Spent s.order o sid (debit ++ credit (uidOf s.order sid) form)

variable (sha256 s sid form) in
theorem comes_recharge (now : Clock) (rand : Nat) :
    Comes (Recharged sha256 sid form s) (doMemberRecharge sha256 now rand sid form) s := by
  have hcomes := comes_orderRecharge sha256 sid form s.order now rand
  unfold Comes at hcomes
  generalize hr : (run (Order.doMemberRecharge sha256 now rand sid form) s.order).1 = r at hcomes
  generalize ho : (run (Order.doMemberRecharge sha256 now rand sid form) s.order).2 = o at hcomes
  generalize hl : (trace (Purse × Int) (Order.doMemberRecharge sha256 now rand sid form) s.order) = l at hcomes
  have horder := ran_order (s := s) ⟨Prod.ext hr ho, hl⟩
  -- the response is passed on
  have hret : ∀ (x : Order.Response) (t : St), Ran (.ret (.order x) : Handler Reply) t (.ok (.order x)) t ([] : List (Fund × Int)) :=
    fun x t => ran_ret _ _
  have hran : Ran (doMemberRecharge sha256 now rand sid form) s (r.map Reply.order) { s with order := o } (l.map Fund.ofPurse) := by
    cases r with
    | error e => exact horder.bind_error
    | ok x =>
      have hbind := horder.bind (f := fun x => .ret (Reply.order x)) (hret x _)
      rwa [List.append_nil] at hbind
  refine hran.comes ?_
  rcases hcomes with ⟨rfl, rfl, hno⟩ | ⟨hpasses, debit, hdebit, rfl, rfl, hspent⟩
  · refine .inl ⟨rfl, rfl, ?_⟩
    rintro ⟨msg, he⟩
    cases r with
    | error e => cases he
    | ok x =>
      injection he with he
      injection he with he
      exact hno msg (congrArg Except.ok he)
  · refine .inr ⟨hpasses, debit, o, hdebit, rfl, rfl, ?_, hspent⟩
    split <;> rfl

/-- A coin recharge is refused and leaves the store, or it passes its checks and pays. -/
def Coined (sha256 : String → String) (sid : String) (form : RechargeForm) (s : St) (_ : Except Err Reply) (s' : St)
    (l : List (Fund × Int)) : Prop :=
  s' = s ∧ l = [] ∧ ¬Passes sha256 s.order sid form ∨
    Passes sha256 s.order sid form ∧ s' = { s with coin := incrby s.coin form.memberId ((int form.cardNums).getD 0) } ∧
      l = [(Fund.coin form.memberId, (int form.cardNums).getD 0)]

variable (sha256 s sid form) in
theorem comes_coin : Comes (Coined sha256 sid form s) (doMemberRechargeCoin sha256 sid form) s := by
  show Comes (Coined sha256 sid form s) (if !truthy (s.order.setup.account sid) then _ else _ : Handler Reply) s
  cases hlogin : truthy (s.order.setup.account sid) with
  | false => exact comes_ret (.inl ⟨rfl, rfl, fun h => by rw [h.1] at hlogin; cases hlogin⟩)
  | true =>
  show Comes (Coined sha256 sid form s) (if !truthy (s.order.token .recharge sid) then _ else _ : Handler Reply) s
  cases hissued : truthy (s.order.token .recharge sid) with
  | false => exact comes_ret (.inl ⟨rfl, rfl, fun h => by rw [h.2.1] at hissued; cases hissued⟩)
  | true =>
  show Comes (Coined sha256 sid form s) (if some form.token ≠ s.order.token .recharge sid then _ else _ : Handler Reply) s
  refine comes_ite (fun htoken => comes_ret (.inl ⟨rfl, rfl, fun h => htoken h.2.2.1.symm⟩)) fun htoken => ?_
  show Comes (Coined sha256 sid form s) (if form.cardNums = "" then _ else if form.passwd = "" then _ else
    if (s.order.agent (uidOf s.order sid)).passwd ≠ some (sha256 form.passwd) then _ else _ : Handler Reply) s
  refine comes_ite (fun hnums => comes_ret (.inl ⟨rfl, rfl, fun h => h.2.2.2.1 hnums⟩)) fun hnums => ?_
  refine comes_ite (fun hempty => comes_ret (.inl ⟨rfl, rfl, fun h => h.2.2.2.2.1 hempty⟩)) fun hempty => ?_
  refine comes_ite (fun hpasswd => comes_ret (.inl ⟨rfl, rfl, fun h => hpasswd h.2.2.2.2.2⟩)) fun hpasswd => ?_
  exact .inr ⟨⟨hlogin, hissued, (not_not.1 htoken).symm, hnums, hempty, not_not.1 hpasswd⟩, rfl, rfl⟩

/-- Whose cards, or whose coins, a removal takes. -/
def RemoveForm.fund (remove_type : String) (form : RemoveForm) : Fund :=
  if remove_type = "cards" then .purse (.member form.agentId form.memberId) else .coin form.memberId

def RemoveForm.amount (form : RemoveForm) : Int := (int form.remove).getD 0

/-- A removal passes its checks: the amount is compared with one of the form. -/
def RemoveForm.Passes (form : RemoveForm) (s : Order.St) (sid : String) : Prop :=
  truthy (s.setup.account sid) = true ∧ form.remove ≠ "" ∧ form.amount ≤ (int form.roomcard).getD 0

theorem moves_card (s : St) (id memberId : String) (n : Int) :
    Moves s (s.withAmounts (incrby s.order.amounts (.member id memberId) n)) [(.purse (.member id memberId), n)] :=
  moves_purses (l := [(.member id memberId, n)]) rfl rfl

/-- A removal is refused and leaves the store, or it takes the amount of the form. -/
def Removed (sid remove_type : String) (form : RemoveForm) (s : St) (r : Except Err Reply) (s' : St) (l : List (Fund × Int)) : Prop :=
  s' = s ∧ l = [] ∧ (∀ msg url, r ≠ .ok (.order (.json 0 msg url))) ∨
    form.Passes s.order sid ∧ s'.order.token = s.order.token ∧ s'.order.setup = s.order.setup ∧
      Moves s s' [(form.fund remove_type, -form.amount)] ∧ l = [(form.fund remove_type, -form.amount)] ∧
      ∃ msg url, r = .ok (.order (.json 0 msg url))

variable (s sid) in
theorem comes_remove (pageNumber : Nat) (remove_type : String) (form : RemoveForm) :
    Comes (Removed sid remove_type form s) (doRemoveCard sid pageNumber remove_type form) s := by
  show Comes (Removed sid remove_type form s) (if !truthy (s.order.setup.account sid) then _ else _ : Handler Reply) s
  cases hlogin : truthy (s.order.setup.account sid) with
  | false => exact comes_ret (.inl ⟨rfl, rfl, fun msg url h => by simp at h⟩)
  | true =>
  show Comes (Removed sid remove_type form s) (if form.remove = "" then _ else if form.amount > (int form.roomcard).getD 0 then _ else
    if remove_type = "cards" then _ else _ : Handler Reply) s
  refine comes_ite (fun _ => comes_ret (.inl ⟨rfl, rfl, fun msg url h => ?_⟩)) fun hempty => ?_
  · simp [Reply.msg, Order.Response.msg] at h
  refine comes_ite (fun _ => comes_ret (.inl ⟨rfl, rfl, fun msg url h => ?_⟩)) fun hlimit => ?_
  · simp [Reply.msg, Order.Response.msg] at h
  have hpasses : form.Passes s.order sid := ⟨hlogin, hempty, not_lt.1 hlimit⟩
  by_cases hcards : remove_type = "cards"
  · rw [if_pos hcards]
    have hfund : form.fund remove_type = .purse (.member form.agentId form.memberId) := if_pos hcards
    exact .inr ⟨hpasses, rfl, rfl, by rw [hfund]; exact moves_card s _ _ _, by rw [hfund]; rfl, _, _, rfl⟩
  · rw [if_neg hcards]
    have hfund : form.fund remove_type = .coin form.memberId := if_neg hcards
    exact .inr ⟨hpasses, rfl, rfl, by rw [hfund]; exact moves_coin s _ _, by rw [hfund]; rfl, _, _, rfl⟩

/-- The member is one that the page of this action is for. -/
def Known (s : St) (action selfUid memberId : String) : Bool :=
  if action.toUpper = "HALL" then s.isUser memberId && decide (memberId ∈ s.members selfUid)
  else decide (fmt (s.account memberId) ∈ s.weixin)

/-- The page has a form, and its token is the session's. -/
def Shown (s : St) (sid action memberId : String) : Bool :=
  truthy (s.order.setup.account sid) && Known s action (uidOf s.order sid) memberId

/-- A page leaves the store, or it issues a token. It moves nothing. -/
def Paged (sid action memberId : String) (s : St) (_ : Except Err Reply) (s' : St) (l : List (Fund × Int)) : Prop :=
  l = [] ∧ Moves s s' [] ∧ s'.order.setup = s.order.setup ∧
    if Shown s sid action memberId then
      ∃ token, s'.order.token = update s.order.token .recharge (update (s.order.token .recharge) sid (some token))
    else s' = s

theorem ran_memberKnown (action selfUid memberId : String) :
    Ran (memberKnown action selfUid memberId) s (.ok (Known s action selfUid memberId)) s ([] : List (Fund × Int)) := by
  unfold memberKnown Known
  split <;> exact ⟨rfl, rfl⟩

/-- A card balance that is not there is set to zero, and was zero. -/
theorem ran_initCard (action selfUid memberId : String) : ∃ amounts,
    Ran (initCard action selfUid memberId) s (.ok ()) (s.withAmounts amounts) ([] : List (Fund × Int)) ∧
      ∀ p, val amounts p = val s.order.amounts p := by
  unfold initCard
  by_cases hall : action.toUpper = "HALL"
  · rw [if_pos hall]
    cases hcard : s.order.amounts (.member selfUid memberId) with
    | some n =>
      refine ⟨s.order.amounts, ⟨?_, ?_⟩, fun _ => rfl⟩
      · show run (if !(s.order.amounts (.member selfUid memberId)).isSome then _ else _) s = _
        rw [hcard]
        rfl
      · show trace _ (if !(s.order.amounts (.member selfUid memberId)).isSome then _ else _) s = _
        rw [hcard]
        rfl
    | none =>
      refine ⟨update s.order.amounts (.member selfUid memberId) (some 0), ⟨?_, ?_⟩, fun p => ?_⟩
      · show run (if !(s.order.amounts (.member selfUid memberId)).isSome then _ else _) s = _
        rw [hcard]
        rfl
      · show trace _ (if !(s.order.amounts (.member selfUid memberId)).isSome then _ else _) s = _
        rw [hcard]
        rfl
      · by_cases hp : p = .member selfUid memberId
        · rw [hp, val, val, Function.update_self, hcard]
          rfl
        · rw [val, val, Function.update_of_ne hp]
  · rw [if_neg hall]
    exact ⟨s.order.amounts, ⟨rfl, rfl⟩, fun _ => rfl⟩

variable (s sid) in
theorem comes_page (md5 : String → String) (time action memberId : String) :
    Comes (Paged sid action memberId s) (getMemberRecharge md5 time sid action memberId) s := by
  have hkeep : ∀ {r : Reply}, Shown s sid action memberId = false → Comes (Paged sid action memberId s) (.ret r : Handler Reply) s :=
    fun h => comes_ret ⟨rfl, Moves.refl s, rfl, by rw [h]; exact (if_neg Bool.false_ne_true).mpr rfl⟩
  show Comes (Paged sid action memberId s) (if !truthy (s.order.setup.account sid) then _ else _ : Handler Reply) s
  cases hlogin : truthy (s.order.setup.account sid) with
  | false => exact hkeep (by rw [Shown, hlogin]; rfl)
  | true =>
  simp only [Bool.not_true, Bool.false_eq_true, if_false]
  show Comes (Paged sid action memberId s) (memberKnown action (uidOf s.order sid) memberId >>= _ : Handler Reply) s
  refine comes_bind (ran_memberKnown action (uidOf s.order sid) memberId) ?_
  cases hknown : Known s action (uidOf s.order sid) memberId with
  | false => exact hkeep (by rw [Shown, hlogin, hknown]; rfl)
  | true =>
  simp only [Bool.not_true, Bool.false_eq_true, if_false]
  obtain ⟨amounts, hran, hval⟩ := ran_initCard (s := s) action (uidOf s.order sid) memberId
  refine comes_bind hran ?_
  refine ⟨rfl, fun f => ?_, rfl, ?_⟩
  · cases f with
    | purse p => exact (hval p).trans (Int.add_zero _).symm
    | coin m => exact (Int.add_zero _).symm
  · rw [Shown, hlogin, hknown]
    exact ⟨md5 (memberId ++ time), rfl⟩

end Requests

/-! ## Runs -/

section Runs
variable (md5 sha256 : String → String)

/-- The state after the request. -/
def step (r : Req) (s : St) : St := (run (r.handler md5 sha256) s).2

/-- The request issues a token to the session. -/
def issues (sid : String) (r : Req) (s : St) : Bool :=
  match r with
  | .page _ sid' action memberId => sid' = sid && Shown s sid action memberId
  | _ => false

/-- The request credits somebody by the session's token. -/
def credits (sid : String) (r : Req) (s : St) : Bool :=
  match r with
  | .recharge now rand sid' form =>
    sid' = sid && !(trace (Fund × Int) (doMemberRecharge sha256 now rand sid' form) s).isEmpty
  | .coin sid' form => sid' = sid && !(trace (Fund × Int) (doMemberRechargeCoin sha256 sid' form) s).isEmpty
  | _ => false

/-- A coin recharge in the session passes its checks. -/
def usesCoin (sid : String) (r : Req) (s : St) : Bool :=
  match r with
  | .coin sid' form => sid' = sid && decide (Passes sha256 s.order sid form)
  | _ => false

/-- A state, and the sessions in which a coin recharge has passed since their last token. -/
structure History where
  st : St
  used : String → Bool

def next (r : Req) (h : History) : History where
  st := step md5 sha256 r h.st
  used sid := if issues sid r h.st then false else usesCoin sha256 sid r h.st || h.used sid

/-- The amount of a recharge is one that both Python and Redis take for a positive number; a company's leaves the
member's balance where it may be. -/
def AmountFits (sid : String) (form : RechargeForm) (s : St) : Prop :=
  if intOf (s.order.setup.type (uidOf s.order sid)) = .ok 0 ∨ intOf (s.order.setup.type (uidOf s.order sid)) = .ok 1 then
    ∀ n, redisInt form.cardNums = some n → 0 ≤ val s.order.amounts (.member (uidOf s.order sid) form.memberId) + n
  else ∀ n, int form.cardNums = some n → n ≤ val s.order.amounts (.roomcard (uidOf s.order sid)) →
    0 < n ∧ redisInt form.cardNums = some n

/-- What the handlers leave to the client: a token that is a token and sent once, and amounts that are there. -/
def Meets (r : Req) (h : History) : Prop :=
  match r with
  | .page .. => True
  | .recharge _ _ sid form => Passes sha256 h.st.order sid form →
    form.token ≠ "None" ∧ h.used sid = false ∧ AmountFits sid form h.st
  | .coin sid form => Passes sha256 h.st.order sid form →
    form.token ≠ "None" ∧ h.used sid = false ∧ 0 ≤ val h.st.coin form.memberId + (int form.cardNums).getD 0
  | .remove sid _ remove_type form => form.Passes h.st.order sid →
    0 ≤ form.amount ∧ form.amount ≤ val h.st.balance (form.fund remove_type)

/-- An accepted recharge moves a positive number of cards from the agent to the member, and another moves nothing. -/
def GivesCards (sid : String) (form : RechargeForm) (s : St) (r : Except Err Reply) (s' : St) (_ : List (Fund × Int)) : Prop :=
  (Accepted r ∧ ∃ n, 0 < n ∧ Moves s s'
    [(.purse (.roomcard (uidOf s.order sid)), -n), (.purse (.member (uidOf s.order sid) form.memberId), n)]) ∨
  (¬Accepted r ∧ Moves s s' [])

/-- An accepted removal takes from a balance what is there, and another moves nothing. -/
def TakesStored (remove_type : String) (form : RemoveForm) (s : St) (r : Except Err Reply) (s' : St) (_ : List (Fund × Int)) : Prop :=
  ((∃ msg url, r = .ok (.order (.json 0 msg url))) ∧ ∃ n, 0 ≤ n ∧ n ≤ val s.balance (form.fund remove_type) ∧
    Moves s s' [(form.fund remove_type, -n)]) ∨
  ((∀ msg url, r ≠ .ok (.order (.json 0 msg url))) ∧ Moves s s' [])

/-- A request moves what it should. The agent of a recharge is no system administrator and no company. -/
def Safe (r : Req) (s : St) : Prop :=
  match r with
  | .recharge now rand sid form =>
    intOf (s.order.setup.type (uidOf s.order sid)) ≠ .ok 0 → intOf (s.order.setup.type (uidOf s.order sid)) ≠ .ok 1 →
      Comes (GivesCards sid form s) (doMemberRecharge sha256 now rand sid form) s
  | .remove sid pageNumber remove_type form =>
    Comes (TakesStored remove_type form s) (doRemoveCard sid pageNumber remove_type form) s
  | _ => True

/-- No balance is negative. -/
def Covered (s : St) : Prop := ∀ f, 0 ≤ val s.balance f

variable {md5 sha256}

theorem credit_eq {me : String} {form : RechargeForm} {n : Int} (h : redisInt form.cardNums = some n) :
    credit me form = [(.member me form.memberId, n)] := by
  rw [credit, h]
  rfl

theorem credit_refused {me : String} {form : RechargeForm} (h : redisInt form.cardNums = none) : credit me form = [] := by
  rw [credit, h]
  rfl

/-- What a recharge that pays moves. -/
theorem moves_recharge {s : St} {sid : String} {form : RechargeForm} {debit : List (Purse × Int)} {o : Order.St}
    (h : Spent s.order o sid (debit ++ credit (uidOf s.order sid) form)) :
    Moves s { s with order := o } ((debit ++ credit (uidOf s.order sid) form).map Fund.ofPurse) :=
  moves_purses h.amounts rfl

theorem safe_of_meets {r : Req} {h : History} (hm : Meets sha256 r h) : Safe sha256 r h.st := by
  cases r with
  | page time sid action memberId => trivial
  | coin sid form => trivial
  | recharge now rand sid form =>
    intro hzero hone
    refine (comes_recharge sha256 h.st sid form now rand).mono fun x s' l h => ?_
    rcases h with ⟨rfl, -, hno⟩ | ⟨hpasses, debit, o, hdebit, rfl, -, hx, hspent⟩
    · exact .inr ⟨hno, Moves.refl _⟩
    · obtain ⟨-, -, hfits⟩ := hm hpasses
      rw [AmountFits, if_neg (not_or.2 ⟨hzero, hone⟩)] at hfits
      cases hdebit with
      | company htype hc => rcases hc with rfl | rfl <;> contradiction
      | agent htype hc hn hle =>
        obtain ⟨hpos, hredis⟩ := hfits _ hn hle
        have hmoves := moves_recharge hspent
        rw [credit_eq hredis] at hmoves
        rw [hredis] at hx
        exact .inl ⟨⟨_, hx⟩, _, hpos, hmoves⟩
  | remove sid pageNumber remove_type form =>
    show Comes (TakesStored remove_type form h.st) (doRemoveCard sid pageNumber remove_type form) h.st
    refine (comes_remove h.st sid pageNumber remove_type form).mono fun x s' l h => ?_
    rcases h with ⟨rfl, -, hno⟩ | ⟨hpasses, -, -, hmoves, -, hok⟩
    · exact .inr ⟨hno, Moves.refl _⟩
    · obtain ⟨h0, hle⟩ := hm hpasses
      exact .inl ⟨hok, form.amount, h0, hle, hmoves⟩

theorem Moves.covered {s s' : St} {l : List (Fund × Int)} (h : Moves s s' l) (hs : Covered s)
    (hl : ∀ p ∈ l, 0 ≤ val s.balance p.1 + net l p.1) : Covered s' := by
  intro f
  rw [h f]
  by_cases hf : ∃ p ∈ l, p.1 = f
  · obtain ⟨p, hp, rfl⟩ := hf
    exact hl p hp
  · rw [net_eq_zero fun p hp he => hf ⟨p, hp, he⟩, Int.add_zero]
    exact hs f

theorem covered_step (r : Req) {h : History} (hm : Meets sha256 r h) (hs : Covered h.st) : Covered (step md5 sha256 r h.st) := by
  cases r with
  | page time sid action memberId =>
    exact (comes_page h.st sid md5 time action memberId).2.1.covered hs fun p hp => absurd hp List.not_mem_nil
  | recharge now rand sid form =>
    rcases comes_recharge sha256 h.st sid form now rand with
      ⟨heq, -, -⟩ | ⟨hpasses, debit, o, hdebit, heq, -, hr, hspent⟩
    · show Covered (run (doMemberRecharge sha256 now rand sid form) h.st).2
      rw [heq]
      exact hs
    · show Covered (run (doMemberRecharge sha256 now rand sid form) h.st).2
      rw [heq]
      obtain ⟨-, -, hfits⟩ := hm hpasses
      refine (moves_recharge hspent).covered hs ?_
      cases hdebit with
      | @company type htype hc =>
        rw [AmountFits, if_pos (by rcases hc with rfl | rfl <;> simp [htype])] at hfits
        cases hn : redisInt form.cardNums with
        | none =>
          rw [credit_refused hn]
          exact fun p hp => absurd hp List.not_mem_nil
        | some n =>
          rw [credit_eq hn]
          intro p hp
          obtain rfl := List.mem_singleton.1 hp
          have hle : 0 ≤ val h.st.balance (.purse (.member (uidOf h.st.order sid) form.memberId)) + n := hfits n hn
          simpa [Fund.ofPurse, net] using hle
      | @agent type n htype hc hn hle =>
        rw [AmountFits, if_neg (by rw [htype]; rintro (he | he) <;> cases he <;> simp at hc)] at hfits
        obtain ⟨hpos, hredis⟩ := hfits n hn hle
        rw [credit_eq hredis]
        intro p hp
        have hroom : 0 ≤ val h.st.balance (.purse (.roomcard (uidOf h.st.order sid))) + -n := by
          show 0 ≤ val h.st.order.amounts _ + -n
          omega
        have hmember := hs (.purse (.member (uidOf h.st.order sid) form.memberId))
        simp only [List.singleton_append, List.map_cons, List.map_nil, List.mem_cons, List.not_mem_nil, or_false] at hp
        rcases hp with rfl | rfl
        · simpa [Fund.ofPurse, net] using hroom
        · simp [Fund.ofPurse, net]
          omega
  | coin sid form =>
    rcases comes_coin sha256 h.st sid form with ⟨heq, -, -⟩ | ⟨hpasses, heq, -⟩
    · show Covered (run (doMemberRechargeCoin sha256 sid form) h.st).2
      rw [heq]
      exact hs
    · show Covered (run (doMemberRechargeCoin sha256 sid form) h.st).2
      rw [heq]
      obtain ⟨-, -, hle⟩ := hm hpasses
      change 0 ≤ val h.st.balance (.coin form.memberId) + _ at hle
      refine (moves_coin h.st _ _).covered hs fun p hp => ?_
      obtain rfl := List.mem_singleton.1 hp
      simpa [net] using hle
  | remove sid pageNumber remove_type form =>
    rcases comes_remove h.st sid pageNumber remove_type form with ⟨heq, -, -⟩ | ⟨hpasses, -, -, hmoves, -, -⟩
    · show Covered (run (doRemoveCard sid pageNumber remove_type form) h.st).2
      rw [heq]
      exact hs
    · obtain ⟨h0, hle⟩ := hm hpasses
      refine hmoves.covered hs fun p hp => ?_
      obtain rfl := List.mem_singleton.1 hp
      simp only [net_cons, net_nil, if_pos]
      omega

/-! ### Tokens -/

/-- The session has a token that nothing was credited by. -/
def Live (sid : String) (h : History) : Prop := h.used sid = false ∧ h.st.order.token .recharge sid ≠ some "None"

variable (sha256) in
theorem step_recharge_token (now : Clock) (rand : Nat) (sid : String) (form : RechargeForm) (s : St) :
    (trace (Fund × Int) (doMemberRecharge sha256 now rand sid form) s = [] ∧ (run (doMemberRecharge sha256 now rand sid form) s).2 = s) ∨
      Passes sha256 s.order sid form ∧ (run (doMemberRecharge sha256 now rand sid form) s).2.order.token =
        update s.order.token .recharge (update (s.order.token .recharge) sid (some "None")) := by
  rcases comes_recharge sha256 s sid form now rand with
    ⟨hs, hl, -⟩ | ⟨hpasses, debit, o, -, hs, -, -, hspent⟩
  · exact .inl ⟨hl, hs⟩
  · refine .inr ⟨hpasses, ?_⟩
    rw [hs]
    exact hspent.token

theorem step_coin_token (sid : String) (form : RechargeForm) (s : St) :
    ((run (doMemberRechargeCoin sha256 sid form) s).2.order = s.order) ∧
      (¬Passes sha256 s.order sid form → trace (Fund × Int) (doMemberRechargeCoin sha256 sid form) s = []) := by
  rcases comes_coin sha256 s sid form with ⟨hs, hl, -⟩ | ⟨hpasses, hs, -⟩
  · exact ⟨by rw [hs], fun _ => hl⟩
  · exact ⟨by rw [hs], fun h => absurd hpasses h⟩

theorem step_remove_token (sid : String) (pageNumber : Nat) (remove_type : String) (form : RemoveForm) (s : St) :
    (run (doRemoveCard sid pageNumber remove_type form) s).2.order.token = s.order.token := by
  rcases comes_remove s sid pageNumber remove_type form with ⟨hs, -⟩ | ⟨-, htoken, -⟩
  · rw [hs]
  · exact htoken

theorem live_of_credits {sid : String} {r : Req} {h : History} (hm : Meets sha256 r h) (hc : credits sha256 sid r h.st = true) :
    Live sid h ∧ ¬Live sid (next md5 sha256 r h) := by
  cases r with
  | page time sid' action memberId => cases hc
  | remove sid' pageNumber remove_type form => cases hc
  | recharge now rand sid' form =>
    simp only [credits, Bool.and_eq_true, decide_eq_true_eq, Bool.not_eq_true', List.isEmpty_eq_false_iff] at hc
    obtain ⟨rfl, htrace⟩ := hc
    rcases step_recharge_token sha256 now rand sid' form h.st with ⟨hnil, -⟩ | ⟨hpasses, htoken⟩
    · exact absurd hnil htrace
    · obtain ⟨hne, hused, -⟩ := hm hpasses
      refine ⟨⟨hused, ?_⟩, fun hlive => hlive.2 ?_⟩
      · rw [hpasses.2.2.1]
        exact fun he => hne (Option.some.inj he)
      · show (run (doMemberRecharge sha256 now rand sid' form) h.st).2.order.token .recharge sid' = _
        rw [htoken, Function.update_self, Function.update_self]
  | coin sid' form =>
    simp only [credits, Bool.and_eq_true, decide_eq_true_eq, Bool.not_eq_true', List.isEmpty_eq_false_iff] at hc
    obtain ⟨rfl, htrace⟩ := hc
    have hpasses : Passes sha256 h.st.order sid' form := by
      by_contra hno
      exact htrace ((step_coin_token sid' form h.st).2 hno)
    obtain ⟨hne, hused, -⟩ := hm hpasses
    refine ⟨⟨hused, ?_⟩, fun hlive => ?_⟩
    · rw [hpasses.2.2.1]
      exact fun he => hne (Option.some.inj he)
    · have hmark : (next md5 sha256 (.coin sid' form) h).used sid' = true := by
        simp [next, issues, usesCoin, hpasses]
      rw [hlive.1] at hmark
      cases hmark

theorem dead_next {sid : String} {r : Req} {h : History} (hi : issues sid r h.st = false) (hdead : ¬Live sid h) :
    ¬Live sid (next md5 sha256 r h) := by
  rintro ⟨hused, htoken⟩
  have hu : h.used sid = false := by
    simp only [next, hi, Bool.false_eq_true, if_false, Bool.or_eq_false_iff] at hused
    exact hused.2
  refine hdead ⟨hu, fun hnone => htoken ?_⟩
  -- what was consumed stays so, unless a page issues another
  cases r with
  | page time sid' action memberId =>
    show (run (getMemberRecharge md5 time sid' action memberId) h.st).2.order.token .recharge sid = _
    obtain ⟨-, -, -, hpage⟩ := comes_page h.st sid' md5 time action memberId
    split at hpage
    · next hshown =>
      obtain ⟨token, htok⟩ := hpage
      have hne : sid ≠ sid' := by
        rintro rfl
        simp [issues, hshown] at hi
      rw [htok, Function.update_self, Function.update_of_ne hne]
      exact hnone
    · rw [hpage]
      exact hnone
  | recharge now rand sid' form =>
    show (run (doMemberRecharge sha256 now rand sid' form) h.st).2.order.token .recharge sid = _
    rcases step_recharge_token sha256 now rand sid' form h.st with ⟨-, hs⟩ | ⟨-, htok⟩
    · rw [hs]
      exact hnone
    · rw [htok, Function.update_self]
      by_cases he : sid = sid'
      · rw [he, Function.update_self]
      · rw [Function.update_of_ne he]
        exact hnone
  | coin sid' form =>
    show (run (doMemberRechargeCoin sha256 sid' form) h.st).2.order.token .recharge sid = _
    rw [(step_coin_token sid' form h.st).1]
    exact hnone
  | remove sid' pageNumber remove_type form =>
    show (run (doRemoveCard sid' pageNumber remove_type form) h.st).2.order.token .recharge sid = _
    rw [step_remove_token]
    exact hnone

/-- Without another token the session credits once. -/
theorem credits_le_one {sid : String} {rs : List Req} {h : History} (hm : Runs.All (next md5 sha256) (Meets sha256) rs h)
    (hi : Runs.All (next md5 sha256) (fun r h => issues sid r h.st = false) rs h) :
    Runs.count (next md5 sha256) (fun r h => credits sha256 sid r h.st) rs h ≤ 1 :=
  (Runs.count_le_one (G := fun r h => Meets sha256 r h ∧ issues sid r h.st = false) (I := fun _ => True) (L := Live sid)
    (fun _ _ _ _ => trivial) (fun _ _ hg _ hc => live_of_credits hg.1 hc) (fun _ _ hg _ hd => dead_next hg.2 hd)
    (Runs.all_and hm hi) trivial).1

end Runs

/-! ## An agent and his member -/

/-- Agent 1 has 100 cards and a member, 9. -/
def oneMember : St where
  order := Order.hundredCards
  coin _ := none
  isUser memberId := memberId = "9"
  members id := if id = "1" then (∅ : MemberSet String).sadd "9" else ∅
  account memberId := if memberId = "9" then some "player" else none
  weixin := ∅

/-- MD5 of the member's id and the clock. -/
def md5OfNine (x : String) : String := if x = "91577880000.0" then "eab71a390d6ff1b3f65eae24a437ff64" else ""

def startOf (s : St) : History := ⟨s, fun _ => false⟩

/-- The page of a recharge, and the recharge. -/
def recharges (cardNums : String) : List Req :=
  [.page "1577880000.0" "s" "hall" "9", .recharge Order.noon 7 "s" ⟨"9", cardNums, "pw", "eab71a390d6ff1b3f65eae24a437ff64"⟩]

theorem oneMember_covered : Covered oneMember := by
  intro f
  rcases f with (p | p)
  · show 0 ≤ (if p = Purse.roomcard "1" then some (100 : Int) else none).getD 0
    split <;> decide
  · exact le_refl 0

end FishWeb.Member
