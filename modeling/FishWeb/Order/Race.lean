import FishWeb.Order.Commands
import FishWeb.Lib.Escrow
/-!
# One seller at several counters

Confirmations and recharges of one agent, interleaved command by command. Each
reads his cards, compares, and pays in a pipeline of its own, so two of them may
both pass against the same cards. A pipeline that pays credits what it debits.
-/
open Python Prog Counters Pool Escrow

namespace FishWeb.Order

/-- Commands after whose answer the payment is what it was. -/
def Cmd.blind {β : Type} : Cmd β → Option β
  | .execute _ => some ()
  | .setToken _ _ _ => some ()
  | .existsReport _ => some true
  | .getTotal _ _ => some none
  | .incrCount => some 0
  | .sessionAccount _ | .sessionId _ | .hasAccess _ _ | .getToken _ _ | .getAgentId _ | .hmgetOrder _ | .existsOrder _
  | .hmgetAgent _ => none

def ledger : Ledger Cmd St Purse where
  amounts := St.amounts
  blind := Cmd.blind
  amounts_exec := by
    intro β c s
    cases c with
    | getTotal side id => cases side <;> rfl
    | _ => rfl
  note_of_blind := by
    intro β c b h b'
    cases c with
    | execute l => rfl
    | _ => rfl

/-! ## What a request commits to -/

/-- Any increments: the check is on the agent's own cards alone. -/
def Any (_ : List (Purse × Int)) : Prop := True

theorem commits_quiet {α β : Type} {c : Cmd β} {b : β} (hb : ledger.blind c = some b)
    (hn : (Note.note c b : List (Purse × Int)) = []) {k : β → Handler α} {l : List (Purse × Int)}
    (h : ∀ b', Commits ledger Any l (k b')) : Commits ledger Any l (.cmd c k) := by
  have hc := commits_blind hb h
  rwa [hn, List.nil_append] at hc

theorem commits_countCards {α : Type} {r : Report} {n : Int} {f : List Write → Handler α} {l : List (Purse × Int)}
    (h : ∀ w, w.flatMap Write.increments = [] → Commits ledger Any l (f w)) :
    Commits ledger Any l (countCards r n >>= f) := by
  refine commits_quiet (c := .existsReport r) (b := true) rfl rfl fun found => ?_
  cases found with
  | true => exact h [.hincrbyReport r n] rfl
  | false =>
    refine commits_quiet (c := .getTotal r.side r.id) (b := none) rfl rfl fun his_total_nums => ?_
    exact h [.hmsetReport r ⟨n, his_total_nums.getD 0 + n, some r.date⟩] rfl

/-- The last pipeline, which may be refused in part. -/
theorem commits_execute_ret {α : Type} (ws : List Write) (a : α) :
    Commits ledger Any (ws.flatMap Write.increments) (execute ws >>= fun _ => .ret a) := by
  rw [← List.append_nil (ws.flatMap Write.increments)]
  refine commits_blind (L := ledger) (c := .execute ws) (b := ()) rfl fun _ => ?_
  cases ws.any Write.refused with
  | true => exact commits_raise _
  | false => exact commits_ret _

/-! ### Confirmations -/

/-- Counting raises nothing. -/
theorem attempt_countCards {α : Type} (r : Report) (n : Int) (f : List Write → Handler α) :
    attempt (countCards r n >>= f) = countCards r n >>= fun w => attempt (f w) := by
  unfold countCards
  refine congrArg (Prog.cmd (Cmd.existsReport r)) (funext fun found => ?_)
  cases found <;> rfl

/-- Where the cards are enough, the rest of a confirmation counts, pays and answers. -/
theorem attempt_comfirmPipe {α : Type} {now : Clock} {orderNo buyer seller : String} {cardNums saleType : Option String}
    {card type n : Int} (ht : intOf saleType = .ok type) (hn : intOf cardNums = .ok n) (hc : ¬(type ≠ 0 ∧ card < n))
    (f : Except Err (Option (List Write)) → Handler α) :
    (attempt (comfirmPipe now orderNo buyer seller cardNums saleType card) >>= f) =
      countCards ⟨.buy, buyer, now.date⟩ n >>= fun bought => countCards ⟨.sale, seller, now.date⟩ n >>= fun sold =>
        f (.ok (some (settleWrites now orderNo buyer seller type n ++ bought ++ sold))) := by
  simp only [comfirmPipe, ht, hn, ofExcept_ok, ret_bind, if_neg hc]
  rw [attempt_countCards, Prog.bind_assoc]
  refine congrArg (countCards ⟨.buy, buyer, now.date⟩ n >>= ·) (funext fun bought => ?_)
  rw [attempt_countCards, Prog.bind_assoc]
  rfl

theorem attempt_comfirmPipe_not {α : Type} {now : Clock} {orderNo buyer seller : String}
    {cardNums saleType : Option String} {card : Int}
    (h : ¬∃ type n, intOf saleType = .ok type ∧ intOf cardNums = .ok n ∧ ¬(type ≠ 0 ∧ card < n))
    (f : Except Err (Option (List Write)) → Handler α) :
    (∃ e, (attempt (comfirmPipe now orderNo buyer seller cardNums saleType card) >>= f) = f (.error e)) ∨
      (attempt (comfirmPipe now orderNo buyer seller cardNums saleType card) >>= f) = f (.ok none) := by
  rcases comfirmPipe_not now orderNo buyer seller h with ⟨e, heq⟩ | heq
  · exact .inl ⟨e, by rw [heq]; rfl⟩
  · exact .inr (by rw [heq]; rfl)

theorem commits_settleOrder (now : Clock) (sid orderNo selfUid : String) :
    Commits ledger Any [] (settleOrder now sid orderNo selfUid) := by
  refine commits_read (L := ledger) (c := .hmgetOrder orderNo) rfl (fun _ => rfl) fun info => ⟨[], trivial, ?_⟩
  refine commits_read (L := ledger) (c := .getAgentId (fmt info.applyAccount)) rfl (fun _ => rfl) fun buyerId => ⟨[], trivial, ?_⟩
  refine commits_read (L := ledger) (c := .hmgetAgent selfUid) rfl (fun _ => rfl) fun saler => ?_
  -- the cards are compared with what was read
  by_cases h : ∃ type n, intOf saler.type = .ok type ∧ intOf info.cardNums = .ok n ∧
      ¬(type ≠ 0 ∧ saler.roomcard.getD 0 < n)
  · obtain ⟨type, n, ht, hn, hc⟩ := h
    refine ⟨payment type n selfUid (fmt buyerId), trivial, ?_⟩
    refine commits_quiet (c := .setToken .comfirm sid "None") rfl rfl fun _ => ?_
    rw [attempt_comfirmPipe ht hn hc]
    refine commits_countCards fun bought hb => commits_countCards fun sold hs => ?_
    have hl : (settleWrites now orderNo (fmt buyerId) selfUid type n ++ bought ++ sold).flatMap Write.increments =
        payment type n selfUid (fmt buyerId) := by
      rw [List.flatMap_append, List.flatMap_append, settleWrites_increments, hb, hs, List.append_nil, List.append_nil]
    rw [← hl]
    exact commits_execute_ret _ _
  · refine ⟨[], trivial, ?_⟩
    refine commits_quiet (c := .setToken .comfirm sid "None") rfl rfl fun _ => ?_
    rcases attempt_comfirmPipe_not h _ with ⟨e, he⟩ | he
    · rw [he]
      exact commits_ret _
    · rw [he]
      exact commits_ret _

theorem commits_ask {α β : Type} {c : Cmd β} (hb : ledger.blind c = none) (hc : ∀ b, (Note.note c b : List (Purse × Int)) = [])
    {k : β → Handler α} (h : ∀ b, Commits ledger Any [] (k b)) : Commits ledger Any [] (.cmd c k) :=
  commits_read hb hc fun b => ⟨[], trivial, h b⟩

theorem commits_ite {α : Type} {b : Prop} [Decidable b] {p q : Handler α} {l : List (Purse × Int)}
    (hp : b → Commits ledger Any l p) (hq : ¬b → Commits ledger Any l q) : Commits ledger Any l (if b then p else q) := by
  split
  · exact hp ‹_›
  · exact hq ‹_›

theorem commits_doOrderComfirm (now : Clock) (sid orderNo token : String) :
    Commits ledger Any [] (doOrderComfirm now sid orderNo token) := by
  unfold doOrderComfirm
  refine commits_ask (c := .sessionAccount sid) rfl (fun _ => rfl) fun account => ?_
  refine commits_ite (fun _ => commits_ret _) fun _ => ?_
  refine commits_ask (c := .sessionAccount sid) rfl (fun _ => rfl) fun _ => ?_
  refine commits_ask (c := .sessionId sid) rfl (fun _ => rfl) fun selfUid => ?_
  refine commits_ask (c := .getToken .comfirm sid) rfl (fun _ => rfl) fun _ => ?_
  refine commits_ask (c := .getToken .comfirm sid) rfl (fun _ => rfl) fun held => ?_
  refine commits_ite (fun _ => commits_ret _) fun _ => ?_
  refine commits_ask (c := .getToken .comfirm sid) rfl (fun _ => rfl) fun held => ?_
  refine commits_ite (fun _ => commits_ret _) fun _ => ?_
  exact commits_settleOrder now sid orderNo (fmt selfUid)

/-! ### Recharges -/

/-- What a recharge takes from the agent and gives to the member. -/
def rechargeWrites (selfUid : String) (form : RechargeForm) (debit : List Write) : List Write :=
  debit ++ [.incrbyText (.member selfUid form.memberId) form.cardNums]

theorem commits_createOrder {orderNo : String} {info : OrderInfo} {f : Unit → Handler Response} {l : List (Purse × Int)}
    (h : Commits ledger Any l (f ())) : Commits ledger Any l (createOrder orderNo info >>= f) := by
  refine commits_quiet (c := .incrCount) (b := 0) rfl rfl fun id => ?_
  exact commits_quiet (c := .execute _) (b := ()) rfl rfl fun _ => h

theorem commits_giveCards (now : Clock) (rand : Nat) (sid selfUid : String) (selfAccount : Option String) (form : RechargeForm)
    (debit : List Write) : Commits ledger Any ((rechargeWrites selfUid form debit).flatMap Write.increments)
      (giveCards now rand sid selfUid selfAccount form debit) := by
  unfold giveCards
  refine commits_quiet (c := .setToken .recharge sid "None") rfl rfl fun _ => ?_
  refine commits_createOrder ?_
  refine commits_countCards fun sold hs => ?_
  have hl : (rechargeWrites selfUid form debit ++
      [Write.lpush (.agent .sale .order selfUid now.date) (getOrderNo now selfUid rand),
        .lpush (.agent .sale .success selfUid now.date) (getOrderNo now selfUid rand)] ++ sold).flatMap Write.increments =
      (rechargeWrites selfUid form debit).flatMap Write.increments := by
    rw [List.flatMap_append, List.flatMap_append, hs, List.append_nil]
    exact List.append_nil _
  rw [← hl]
  exact commits_execute_ret _ _

/-- The program commits to something at once, whatever it is. -/
def Decided (p : Handler Response) : Prop := ∃ l, Any l ∧ Commits ledger Any l p

theorem decided_ret (reply : Response) : Decided (.ret reply) := ⟨[], trivial, commits_ret _⟩

theorem decided_ite {b : Prop} [Decidable b] {p q : Handler Response} (hp : Decided p) (hq : Decided q) :
    Decided (if b then p else q) := by
  split
  · exact hp
  · exact hq

theorem decided_ofExcept {β : Type} (x : Except Err β) {f : β → Handler Response} (h : ∀ b, Decided (f b)) :
    Decided (Prog.ofExcept x >>= f) := by
  cases x with
  | ok b => exact h b
  | error e => exact ⟨[], trivial, commits_raise e⟩

theorem commits_doMemberRecharge (sha256 : String → String) (now : Clock) (rand : Nat) (sid : String) (form : RechargeForm) :
    Commits ledger Any [] (doMemberRecharge sha256 now rand sid form) := by
  unfold doMemberRecharge
  refine commits_ask (c := .sessionAccount sid) rfl (fun _ => rfl) fun account => ?_
  refine commits_ite (fun _ => commits_ret _) fun _ => ?_
  refine commits_ask (c := .sessionAccount sid) rfl (fun _ => rfl) fun selfAccount => ?_
  refine commits_ask (c := .sessionId sid) rfl (fun _ => rfl) fun selfUid => ?_
  refine commits_ask (c := .getToken .recharge sid) rfl (fun _ => rfl) fun held => ?_
  refine commits_ite (fun _ => commits_ret _) fun _ => ?_
  refine commits_ask (c := .getToken .recharge sid) rfl (fun _ => rfl) fun held => ?_
  refine commits_ite (fun _ => commits_ret _) fun _ => ?_
  refine commits_read (L := ledger) (c := .hmgetAgent (fmt selfUid)) rfl (fun _ => rfl) fun self => ?_
  refine decided_ite (decided_ret _) (decided_ite (decided_ret _) (decided_ite (decided_ret _) ?_))
  refine decided_ofExcept (intOf self.type) fun type => ?_
  refine decided_ite ⟨_, trivial, commits_giveCards now rand sid _ selfAccount form []⟩ ?_
  refine decided_ofExcept (intField self.roomcard) fun roomcard => ?_
  refine decided_ofExcept (intOf (some form.cardNums)) fun n => ?_
  exact decided_ite (decided_ret _) ⟨_, trivial, commits_giveCards now rand sid _ selfAccount form _⟩

/-! ## Pipelines pay for what they credit -/

theorem applyAll_setup (l : List Write) (s : St) : (applyAll l s).setup = s.setup := by
  suffices h : ∀ s : St, (l.foldl (fun s w => w.apply s) s).setup = s.setup from h s
  induction l with
  | nil => exact fun _ => rfl
  | cons w l ih =>
    intro s
    rw [List.foldl_cons, ih]
    cases w <;> rfl

theorem exec_setup {β : Type} (c : Cmd β) (s : St) : (Exec.exec c s).2.setup = s.setup := by
  cases c with
  | execute l => exact applyAll_setup l s
  | getTotal side id => cases side <;> rfl
  | _ => rfl

/-- What the increments add up to. -/
def sumOf (l : List (Purse × Int)) : Int := (l.map Prod.snd).sum

@[simp] theorem sumOf_append (l l' : List (Purse × Int)) : sumOf (l ++ l') = sumOf l + sumOf l' := by
  simp [sumOf]

def Balances ⦃β : Type⦄ : Cmd β → Prop
  | .execute l => sumOf (l.flatMap Write.increments) = 0
  | .sessionAccount _ | .sessionId _ | .hasAccess _ _ | .getToken _ _ | .setToken _ _ _ | .getAgentId _ | .hmgetOrder _
  | .existsOrder _ | .hmgetAgent _ | .existsReport _ | .getTotal _ _ | .incrCount => True

section Balanced
variable {σ : Setup}

/-- Every pipeline of the program balances, as long as the agents are as in `σ`. -/
abbrev Balanced (σ : Setup) {α : Type} : Handler α → Prop := Issues (fun s : St => s.setup = σ) Balances

theorem balanced_cmd {α β : Type} {c : Cmd β} (hc : Balances c) {k : β → Handler α} (h : ∀ b, Balanced σ (k b)) :
    Balanced σ (.cmd c k) :=
  ⟨hc, fun _ _ => h _⟩

theorem balanced_ite {α : Type} {b : Prop} [Decidable b] {p q : Handler α} (hp : b → Balanced σ p) (hq : ¬b → Balanced σ q) :
    Balanced σ (if b then p else q) := by
  split
  · exact hp ‹_›
  · exact hq ‹_›

theorem balanced_countCards {α : Type} {r : Report} {n : Int} {f : List Write → Handler α}
    (h : ∀ w, w.flatMap Write.increments = [] → Balanced σ (f w)) : Balanced σ (countCards r n >>= f) := by
  refine balanced_cmd (c := .existsReport r) trivial fun found => ?_
  cases found with
  | true => exact h [.hincrbyReport r n] rfl
  | false => exact balanced_cmd (c := .getTotal r.side r.id) trivial fun _ => h _ rfl

theorem balanced_execute_ret {α : Type} {ws : List Write} (h : sumOf (ws.flatMap Write.increments) = 0) (a : α) :
    Balanced σ (execute ws >>= fun _ => .ret a) := by
  refine balanced_cmd (c := .execute ws) h fun _ => ?_
  cases ws.any Write.refused <;> trivial

theorem sumOf_payment {type : Int} (h : type ≠ 0) (n : Int) (seller buyer : String) :
    sumOf (payment type n seller buyer) = 0 := by
  unfold payment
  rw [if_pos h]
  simp [sumOf]

theorem balanced_settleOrder {me : String} (hme : intOf (σ.type me) ≠ .ok 0) (now : Clock) (sid orderNo : String) :
    Balanced σ (settleOrder now sid orderNo me) := by
  refine balanced_cmd (c := .hmgetOrder orderNo) trivial fun info => ?_
  refine balanced_cmd (c := .getAgentId (fmt info.applyAccount)) trivial fun buyerId => ?_
  refine ⟨trivial, fun s hs => ?_⟩
  refine balanced_cmd (c := .setToken .comfirm sid "None") trivial fun _ => ?_
  by_cases h : ∃ type n, intOf (s.agent me).type = .ok type ∧ intOf info.cardNums = .ok n ∧
      ¬(type ≠ 0 ∧ (s.agent me).roomcard.getD 0 < n)
  · obtain ⟨type, n, ht, hn, hc⟩ := h
    -- the agent is not a system administrator
    have htype : type ≠ 0 := by
      rintro rfl
      rw [← hs] at hme
      exact hme ht
    rw [exec_hmgetAgent, attempt_comfirmPipe ht hn hc]
    refine balanced_countCards fun bought hb => balanced_countCards fun sold hsold => balanced_execute_ret ?_ _
    rw [List.flatMap_append, List.flatMap_append, settleWrites_increments, hb, hsold, List.append_nil, List.append_nil]
    exact sumOf_payment htype n me (fmt buyerId)
  · rw [exec_hmgetAgent]
    rcases attempt_comfirmPipe_not h _ with ⟨e, he⟩ | he
    · rw [he]
      trivial
    · rw [he]
      trivial

theorem balanced_doOrderComfirm {me sid : String} (hsid : σ.id sid = some me) (hme : intOf (σ.type me) ≠ .ok 0)
    (now : Clock) (orderNo token : String) : Balanced σ (doOrderComfirm now sid orderNo token) := by
  unfold doOrderComfirm
  refine balanced_cmd (c := .sessionAccount sid) trivial fun account => ?_
  refine balanced_ite (fun _ => trivial) fun _ => ?_
  refine balanced_cmd (c := .sessionAccount sid) trivial fun _ => ?_
  refine ⟨trivial, fun s hs => ?_⟩
  rw [exec_sessionId, hs, hsid]
  refine balanced_cmd (c := .getToken .comfirm sid) trivial fun _ => ?_
  refine balanced_cmd (c := .getToken .comfirm sid) trivial fun held => ?_
  refine balanced_ite (fun _ => trivial) fun _ => ?_
  refine balanced_cmd (c := .getToken .comfirm sid) trivial fun held => ?_
  refine balanced_ite (fun _ => trivial) fun _ => ?_
  exact balanced_settleOrder hme now sid orderNo

theorem balanced_createOrder {orderNo : String} {info : OrderInfo} {f : Unit → Handler Response}
    (h : Balanced σ (f ())) : Balanced σ (createOrder orderNo info >>= f) := by
  refine balanced_cmd (c := .incrCount) trivial fun id => ?_
  have hzero : Balances (.execute [.hmsetOrder orderNo { info with id := some id }, .lpush .orders orderNo]) := rfl
  exact balanced_cmd hzero fun _ => h

theorem balanced_giveCards (now : Clock) (rand : Nat) (sid selfUid : String) (selfAccount : Option String)
    (form : RechargeForm) {debit : List Write}
    (h : sumOf ((rechargeWrites selfUid form debit).flatMap Write.increments) = 0) :
    Balanced σ (giveCards now rand sid selfUid selfAccount form debit) := by
  unfold giveCards
  refine balanced_cmd (c := .setToken .recharge sid "None") trivial fun _ => ?_
  refine balanced_createOrder ?_
  refine balanced_countCards fun sold hs => balanced_execute_ret ?_ _
  rw [List.flatMap_append, List.flatMap_append, hs, List.append_nil, sumOf_append]
  unfold rechargeWrites at h
  rw [h]
  rfl

theorem int_of_intOf {x : String} {n : Int} (h : intOf (some x) = .ok n) : int x = some n := by
  unfold intOf at h
  dsimp only at h
  split at h
  · rename_i m hm
    rw [hm, Except.ok.inj h]
  · cases h

/-- The agent pays for what he gives, and Redis reads the number of cards as Python does. -/
def RechargeForm.Plain (form : RechargeForm) : Prop := ∀ n, int form.cardNums = some n → redisInt form.cardNums = some n

theorem balanced_doMemberRecharge (sha256 : String → String) {me sid : String} (hsid : σ.id sid = some me)
    (hme : intOf (σ.type me) ≠ .ok 0) (hme1 : intOf (σ.type me) ≠ .ok 1) (now : Clock) (rand : Nat) {form : RechargeForm}
    (hform : form.Plain) : Balanced σ (doMemberRecharge sha256 now rand sid form) := by
  unfold doMemberRecharge
  refine balanced_cmd (c := .sessionAccount sid) trivial fun account => ?_
  refine balanced_ite (fun _ => trivial) fun _ => ?_
  refine balanced_cmd (c := .sessionAccount sid) trivial fun selfAccount => ?_
  refine ⟨trivial, fun s hs => ?_⟩
  rw [exec_sessionId, hs, hsid]
  refine balanced_cmd (c := .getToken .recharge sid) trivial fun held => ?_
  refine balanced_ite (fun _ => trivial) fun _ => ?_
  refine balanced_cmd (c := .getToken .recharge sid) trivial fun held => ?_
  refine balanced_ite (fun _ => trivial) fun _ => ?_
  refine ⟨trivial, fun s hs => ?_⟩
  rw [exec_hmgetAgent]
  refine balanced_ite (fun _ => trivial) fun _ => balanced_ite (fun _ => trivial) fun _ =>
    balanced_ite (fun _ => trivial) fun _ => ?_
  have htype : (s.agent me).type = σ.type me := congrArg (fun σ : Setup => σ.type me) hs
  rw [fmt_some, htype]
  cases ht : intOf (σ.type me) with
  | error e => trivial
  | ok type =>
    have hnot : ¬(type = 0 ∨ type = 1) := by
      rintro (rfl | rfl)
      · exact hme ht
      · exact hme1 ht
    rw [ofExcept_ok, ret_bind, if_neg hnot]
    cases intField (s.agent me).roomcard with
    | error e => trivial
    | ok roomcard =>
      cases hn : intOf (some form.cardNums) with
      | error e => trivial
      | ok n =>
        refine balanced_ite (fun _ => trivial) fun _ => balanced_giveCards now rand sid me selfAccount form ?_
        simp [rechargeWrites, Write.increments, hform n (int_of_intOf hn), sumOf]

end Balanced

/-! ## Interleavings -/

/-- What an agent does with his cards. -/
inductive Deal where
  | comfirm (now : Clock) (sid orderNo token : String)
  | recharge (now : Clock) (rand : Nat) (sid : String) (form : RechargeForm)
  deriving Repr, DecidableEq

def Deal.sid : Deal → String
  | .comfirm _ sid _ _ | .recharge _ _ sid _ => sid

def Deal.handler (sha256 : String → String) : Deal → Handler Response
  | .comfirm now sid orderNo token => doOrderComfirm now sid orderNo token
  | .recharge now rand sid form => doMemberRecharge sha256 now rand sid form

/-- The deals, none of which has begun. -/
def start (sha256 : String → String) (rs : List Deal) (s : St) : Conf (Purse × Int) Err Cmd St Response :=
  ⟨⟨s, []⟩, rs.map (Deal.handler sha256)⟩

/-- The deals are of one agent, who is no system administrator. -/
structure OneSeller (me : String) (rs : List Deal) (s : St) : Prop where
  sid : ∀ r ∈ rs, s.setup.id r.sid = some me
  not_admin : intOf (s.setup.type me) ≠ .ok 0

/-- A recharge charges its agent, and Redis reads its number of cards as Python does. -/
def Deal.Charged (me : String) (s : St) : Deal → Prop
  | .comfirm _ _ _ _ => True
  | .recharge _ _ _ form => intOf (s.setup.type me) ≠ .ok 1 ∧ form.Plain

/-- What the increments give to others than `me`. -/
def credited (me : String) (l : List (Purse × Int)) : Int := sumOf (l.filter fun e => e.1 ≠ .roomcard me)

theorem sumOf_eq (me : String) (l : List (Purse × Int)) : sumOf l = net l (.roomcard me) + credited me l := by
  induction l with
  | nil => rfl
  | cons e l ih =>
    unfold credited sumOf at *
    rw [List.map_cons, List.sum_cons, ih, net_cons]
    by_cases he : e.1 = .roomcard me
    · simp only [he, if_true, List.filter_cons, ne_eq, not_true, decide_false, Bool.false_eq_true, if_false]
      omega
    · simp only [he, if_false, List.filter_cons, ne_eq, not_false_iff, decide_true, if_true, List.map_cons, List.sum_cons]
      omega

section Run
variable {sha256 : String → String} {me : String} {rs : List Deal} {s : St} {c : Conf (Purse × Int) Err Cmd St Response}

theorem commits_handler (r : Deal) : Commits ledger Any [] (r.handler sha256) := by
  cases r with
  | comfirm now sid orderNo token => exact commits_doOrderComfirm now sid orderNo token
  | recharge now rand sid form => exact commits_doMemberRecharge sha256 now rand sid form

theorem start_shape : ∀ h ∈ (start sha256 rs s).progs, Shape ledger Any h := by
  intro h hh
  obtain ⟨r, -, rfl⟩ := List.mem_map.1 hh
  exact (commits_handler r).shape

theorem start_fresh : ∀ h ∈ (start sha256 rs s).progs, rest ledger h = [] := by
  intro h hh
  obtain ⟨r, -, rfl⟩ := List.mem_map.1 hh
  exact (commits_handler r).rest

theorem start_balanced (hs : OneSeller me rs s) (hc : ∀ r ∈ rs, r.Charged me s) :
    ∀ h ∈ (start sha256 rs s).progs, Balanced s.setup h := by
  intro h hh
  obtain ⟨r, hr, rfl⟩ := List.mem_map.1 hh
  have hsid := hs.sid r hr
  cases r with
  | comfirm now sid orderNo token => exact balanced_doOrderComfirm hsid hs.not_admin now orderNo token
  | recharge now rand sid form =>
    obtain ⟨hone, hplain⟩ := hc _ hr
    exact balanced_doMemberRecharge sha256 hsid hs.not_admin hone now rand hplain

/-- The cards are those of the start with what the log says was added, and that is nothing in all. -/
structure Booked (s : St) (σ : World (Purse × Int) St) : Prop where
  setup : σ.store.setup = s.setup
  amounts : σ.store.amounts = incrAll (σ.log.map Prod.snd) s.amounts
  sum : sumOf (σ.log.map Prod.snd) = 0

theorem booked_after ⦃β : Type⦄ (b : Cmd β) (i : Nat) (σ : World (Purse × Int) St) (hb : Balances b) (h : Booked s σ) :
    Booked s (after i b σ) := by
  have hlog : (after i b σ).log.map Prod.snd = σ.log.map Prod.snd ++ Note.note b (Exec.exec b σ.store).1 := by
    simp [Function.comp_def]
  constructor
  · exact (exec_setup b σ.store).trans h.setup
  · rw [hlog, incrAll_append, ← h.amounts]
    exact ledger.amounts_exec b σ.store
  · rw [hlog, sumOf_append, h.sum]
    cases b with
    | execute l => exact (Int.zero_add _).trans hb
    | _ => rfl

/-- Whatever the schedule, what others have gained is what the agent has lost. -/
theorem booked_reach {G : Guard (Purse × Int) Err Cmd St Response} (hs : OneSeller me rs s) (hc : ∀ r ∈ rs, r.Charged me s)
    (hr : Reach G (start sha256 rs s) c) : Booked s c.world := by
  refine reach_issues (J := Booked s) (fun σ hσ => hσ.setup) booked_after hr (start_balanced hs hc) ?_
  exact ⟨rfl, rfl, rfl⟩

end Run

/-! ### Ten cards for two -/

/-- Every session is of agent 1. -/
def oneAccount : Setup where
  account _ := some "seller"
  id _ := some "1"
  agentId acc := if acc = "buyer" then some "2" else some "1"
  login := by
    intro sid acc h
    obtain rfl : "seller" = acc := Option.some.inj h
    exact ⟨"1", rfl, rfl⟩
  access _ _ := true
  type _ := some "2"
  passwd _ := some "30c952fab122c3f9759f02a6d95c3758b246b4fee239957b2d4fee46e26170c4"
  parent_id _ := some "0"
  buyTotal _ := none
  saleTotal _ := none

def tenOrder : OrderInfo where
  cardNums := some "10"
  applyAccount := some "buyer"
  status := some "0"
  saleAccount := some "seller"

/-- Agent 1 has ten cards and the token of an order of ten. -/
def tenCards : St where
  setup := oneAccount
  amounts p := if p = .roomcard "1" then some 10 else none
  order no := if no = "7" then some tenOrder else none
  count := 1
  list _ := []
  report _ := none
  token _ _ := some "t"

def evening : Clock := ⟨"2020-01-01 18:00:00", "2020-01-01", "20200101180000"⟩

/-- The same order twice, from two browsers. -/
def twoBrowsers : List Deal := [.comfirm evening "a" "7" "t", .comfirm evening "b" "7" "t"]

theorem twoBrowsers_oneSeller : OneSeller "1" twoBrowsers tenCards := ⟨fun _ _ => rfl, by decide⟩

end FishWeb.Order
