import FishWeb.Diamond.Model
import FishWeb.Lib.Runs
import FishWeb.Rate.Split
/-!
# A payment is once and whole

A notification marks its order before it credits the user, whether the order was
marked already or not. Where every notification that is accepted finds its order not
marked, and finds what is due for it (`Due`), each order that is marked has left
exactly what is due, once, and no other order has left anything.
-/
open Python Prog Counters Runs
open Function (update)

namespace FishWeb.Diamond

open Pay (Dict get Order Update WxReply)
open Rate (Chain Link Sale Readable priceOf decimalOf tableOf)

/-! ## What is due -/

/-- Gold for a user, and what is counted of it. -/
def goldEvents (today account uid : String) (num money : Int) : List Ev :=
  [.added (.gold uid) num, .added (.dailyGold today) num, .added (.dailyAccountGold account today) num,
    .added (.dailyAccountMoney account today) money, .added (.dailyMoney today) money]

/-- Cards for a member of a guild, after the shares. -/
def cardEvents (groupId id : String) (cards present : Int) (shares : List Sale) : List Ev :=
  shares.map .shared ++ [.added (.card groupId id) (cards + present), .added (.recharge groupId id) cards]

/-- What a payment of the order leaves, by the store it is received in: gold for a user there is, or cards for a
member of a guild, with one sale for each agent above him. -/
inductive Due (today : String) (depth : Nat) (s : St) (o : Order) : List Ev → Prop
  | gold {userTable uid : String} {num money : Int}
      (htype : goodsKind (s.goodsType (fmt o.num)) = .ok (some 2))
      (huser : s.userTable (fmt o.account) = some userTable) (hne : userTable ≠ "")
      (hid : (split ':' userTable)[1]? = some uid)
      (hnum : redisInt (fmt o.roomCards) = some num) (hmoney : redisInt (fmt o.money) = some money) :
      Due today depth s o (goldEvents today (fmt o.account) uid num money)
  | cards {kind : Option Int} {userTable id price text : String} {cards : Int} {u : ℚ} {links : List Link} {company : Link}
      {shares : List Sale}
      (htype : goodsKind (s.goodsType (fmt o.num)) = .ok kind) (hkind : kind ≠ some 2)
      (huser : s.userTable (fmt o.account) = some userTable) (hid : (split ':' userTable)[1]? = some id)
      (htext : o.roomCards = some text) (hcards : int text = some cards)
      (hchain : Chain s.rate (fmt (s.parentAg userTable)) links company) (hdepth : links.length < depth)
      (hprice : priceOf links company = some price) (hu : decimalOf price = some u) (hrates : Readable u 0 links company)
      (htables : shares.map Sale.table = ((links ++ [company]).map (tableOf today price)).reverse)
      (hnumber : ∀ x ∈ shares, x.number = cards) :
      Due today depth s o (cardEvents (fmt (s.parentAg userTable)) id cards (presentOf o.presentCards) shares)

/-! ## A notification -/

section Notify
variable (md5 : String → String)

/-- The notification is signed, says the payment succeeded, and names an order there is; `u` is what it writes over
the order. -/
structure Settles (params : Dict) (no : String) (u : Update) (s : St) : Prop where
  signed : checkSign md5 params = true
  result : get params "result_code" = some "SUCCESS"
  out_trade_no : get params "out_trade_no" = some no
  order : (s.order no).isSome
  money : get params "total_fee" = some u.money
  endTime : get params "time_end" = some u.endTime
  currency : get params "fee_type" = some u.currency
  orderNum : get params "transaction_id" = some u.orderNum

variable {md5} {s : St} {params : Dict} {no : String} {u : Update}

theorem ran_verfiyRcvDatas (h : Settles md5 params no u s) :
    Ran (verfiyRcvDatas params) s (.ok true) (settled s no u) ([] : List Ev) := by
  unfold verfiyRcvDatas
  simp only [h.out_trade_no, h.money, h.endTime, h.currency, h.orderNum, orRaise_some, ret_bind]
  refine ran_quiet rfl ?_
  dsimp only [Exec.exec]
  rw [h.order]
  exact ⟨rfl, rfl⟩

/-- A notification that settles no order is refused, or a field is missing. -/
theorem ran_verfiyRcvDatas_ignored (hsign : checkSign md5 params = true) (hres : get params "result_code" = some "SUCCESS")
    (h : ∀ no u, ¬Settles md5 params no u s) :
    (∃ e, Ran (verfiyRcvDatas params) s (.error e) s ([] : List Ev)) ∨
      Ran (verfiyRcvDatas params) s (.ok false) s ([] : List Ev) := by
  unfold verfiyRcvDatas
  cases hno : get params "out_trade_no" with
  | none => exact .inl ⟨_, rfl, rfl⟩
  | some no =>
  have hexists : Ran (send (.existsOrder no) : Handler Bool) s (.ok (s.order no).isSome) s ([] : List Ev) := ⟨rfl, rfl⟩
  cases horder : (s.order no).isSome with
  | false =>
    rw [horder] at hexists
    exact .inr (hexists.bind ⟨rfl, rfl⟩)
  | true =>
  rw [horder] at hexists
  left
  cases hmoney : get params "total_fee" with
  | none => exact ⟨_, hexists.bind ⟨rfl, rfl⟩⟩
  | some money =>
  cases hend : get params "time_end" with
  | none => exact ⟨_, hexists.bind ⟨rfl, rfl⟩⟩
  | some endTime =>
  cases hcur : get params "fee_type" with
  | none => exact ⟨_, hexists.bind ⟨rfl, rfl⟩⟩
  | some currency =>
  cases hnum : get params "transaction_id" with
  | none => exact ⟨_, hexists.bind ⟨rfl, rfl⟩⟩
  | some orderNum =>
    exact absurd ⟨hsign, hres, hno, horder, hmoney, hend, hcur, hnum⟩ (h no ⟨money, endTime, currency, orderNum⟩)

/-- A notification that settles no order leaves nothing. -/
theorem ran_notify_ignored (today : String) (depth : Nat) (h : ∀ no u, ¬Settles md5 params no u s) :
    ∃ r, Ran (paymentNotifyServer md5 today depth params) s r s ([] : List Ev) := by
  unfold paymentNotifyServer
  cases hsign : checkSign md5 params with
  | false => exact ⟨_, rfl, rfl⟩
  | true =>
  cases hres : get params "result_code" with
  | none => exact ⟨_, rfl, rfl⟩
  | some result_code =>
  by_cases hs : result_code = "SUCCESS"
  · subst hs
    rcases ran_verfiyRcvDatas_ignored hsign hres h with ⟨e, hran⟩ | hran
    · exact ⟨_, hran.bind_error⟩
    · exact ⟨_, hran.bind ⟨rfl, rfl⟩⟩
  · refine ⟨.ok ⟨"FAIL", "请求失败"⟩, ?_⟩
    simp only [Bool.not_true, Bool.false_eq_true, if_false, orRaise_some, ret_bind, ne_eq, hs, not_false_eq_true, if_true]
    exact ⟨rfl, rfl⟩

/-! ## The credit -/

theorem order_foldl (pipe : List Write) (s : St) : (pipe.foldl Write.apply s).order = s.order := by
  induction pipe generalizing s with
  | nil => rfl
  | cons w pipe ih =>
    rw [List.foldl_cons, ih]
    rcases w with ⟨k, _ | n⟩ | ⟨k, n⟩ | ⟨ymd, account⟩ <;> rfl

theorem ran_execute {pipe : List Write} {n : Int} {l : List Ev} (h : answer s pipe = some n)
    (hl : pipe.filterMap Write.event = l) : ∃ s', Ran (execute pipe) s (.ok n) s' l ∧ s'.order = s.order := by
  have hran : Ran (send (.execute pipe) : Handler (Option Int)) s (.ok (some n)) (pipe.foldl Write.apply s) l := by
    rw [← h, ← hl]
    exact ⟨rfl, List.append_nil _⟩
  have hbind := hran.bind (f := fun x => (orRaise .ResponseError x : Handler Int)) (ran_ret n _)
  rw [List.append_nil] at hbind
  exact ⟨_, hbind, order_foldl pipe s⟩

variable {today : String} {depth : Nat}

theorem part_rate : Part (C := Rate.Cmd) (D := Cmd) (fun _ => Cmd.rate) St.rate fun s rate => { s with rate } where
  exec _ _ _ := rfl
  view_put _ _ := rfl
  put_put _ _ _ := rfl
  put_view _ := rfl

/-- The shares are recorded with the agents alone. -/
theorem ran_rate {α : Type} {p : Rate.Handler α} {r : Except Err α} {s' : Rate.St} {l : List Sale} (h : Ran p s.rate r s' l) :
    Ran (rate p) s r { s with rate := s' } (l.map Ev.shared) :=
  Ran.lift (D := Cmd) part_rate (fun _ _ _ => rfl) h

theorem ran_addRoomCard2Member4Type2 {o : Order} {userTable uid : String} {num money : Int}
    (huser : s.userTable (fmt o.account) = some userTable) (hne : userTable ≠ "") (hid : (split ':' userTable)[1]? = some uid)
    (hnum : redisInt (fmt o.roomCards) = some num) (hmoney : redisInt (fmt o.money) = some money) :
    ∃ s', Ran (addRoomCard2Member4Type2 today o) s (.ok ()) s' (goldEvents today (fmt o.account) uid num money) ∧
      s'.order = s.order := by
  obtain ⟨s', hran, horder⟩ : ∃ s', Ran (execute (goldPipe today (fmt o.account) uid (fmt o.money) (fmt o.roomCards))) s
      (.ok (val s.counter (.gold uid) + num)) s' (goldEvents today (fmt o.account) uid num money) ∧ s'.order = s.order := by
    unfold goldPipe
    rw [hnum, hmoney]
    exact ran_execute rfl rfl
  refine ⟨s', ?_, horder⟩
  unfold addRoomCard2Member4Type2 Wealth.GoldSale.addGold2Merber
  refine ran_call_bind rfl ?_
  dsimp only [Exec.exec]
  rw [huser, Option.getD_some, if_neg hne, hid, orRaise_some, ret_bind]
  have hbind := (hran.bind (f := fun _ => (.ret () : Handler Unit)) (ran_ret () _)).bind (f := fun _ => (.ret () : Handler Unit)) (ran_ret () _)
  rwa [List.append_nil, List.append_nil] at hbind

theorem ran_addRoomCards {o : Order} {userTable id price text : String} {cards : Int} {u : ℚ} {links : List Link}
    {company : Link} (huser : s.userTable (fmt o.account) = some userTable) (hid : (split ':' userTable)[1]? = some id)
    (htext : o.roomCards = some text) (hcards : int text = some cards)
    (hchain : Chain s.rate (fmt (s.parentAg userTable)) links company) (hdepth : links.length < depth)
    (hprice : priceOf links company = some price) (hu : decimalOf price = some u) (hrates : Readable u 0 links company) :
    ∃ s' shares, Ran (addRoomCards today depth o) s (.ok ()) s'
        (cardEvents (fmt (s.parentAg userTable)) id cards (presentOf o.presentCards) shares) ∧ s'.order = s.order ∧
      shares.map Sale.table = ((links ++ [company]).map (tableOf today price)).reverse ∧ ∀ x ∈ shares, x.number = cards := by
  generalize hgroup : fmt (s.parentAg userTable) = groupId at hchain ⊢
  -- the two recursions
  have hmoney : Ran (rate (Rate.getCardMoney depth groupId)) s (.ok (some price)) s ([] : List Ev) := by
    rw [← hprice]
    exact ran_rate (Rate.ran_getCardMoney hchain hdepth)
  have hzero : Readable u (Rate.rateOf none) links company := hrates
  obtain ⟨rate', hshares, -⟩ := Rate.ran_countRateOfAgent today cards hu hchain hzero rfl hdepth
  have hshares := ran_rate hshares
  -- the credit
  obtain ⟨known, hknown⟩ : ∃ known, (s.counter (.recharge groupId id)).isSome = known := ⟨_, rfl⟩
  obtain ⟨n, s', hcredit, horder⟩ : ∃ n s', Ran (execute (cardPipe groupId id cards (presentOf o.presentCards) known))
      { s with rate := rate' } (.ok n) s'
      [Ev.added (.card groupId id) (cards + presentOf o.presentCards), Ev.added (.recharge groupId id) cards] ∧
      s'.order = s.order := by
    refine ⟨val s.counter (.card groupId id) + (cards + presentOf o.presentCards), ?_⟩
    cases known with
    | true => exact ran_execute rfl rfl
    | false => exact ran_execute rfl rfl
  have huse : ∃ s'', Ran (send (.lpushDayUse id today (toString cards ++ ";4;" ++ toString n)) : Handler Unit) s' (.ok ()) s''
      ([] : List Ev) ∧ s''.order = s'.order := ⟨_, ⟨rfl, rfl⟩, rfl⟩
  obtain ⟨s'', huse, hkept⟩ := huse
  refine ⟨s'', _, ?_, hkept.trans horder, Rate.tables_sales today price cards u (Rate.rateOf none) links company,
    Rate.number_sales today price cards u (Rate.rateOf none) links company⟩
  unfold addRoomCards
  refine ran_call_bind rfl (ran_call_bind rfl ?_)
  dsimp only [Exec.exec]
  rw [huser, fmt_some, hgroup, orRaise_some, ret_bind, hid, orRaise_some, ret_bind, htext, cardNumsOf, hcards, orRaise_some,
    ret_bind]
  refine ran_call_bind rfl ?_
  dsimp only [Exec.exec]
  rw [hknown]
  rw [cardEvents, ← List.append_nil (List.map Ev.shared _ ++ _), List.append_assoc]
  exact hmoney.bind (hshares.bind (hcredit.bind huse))

/-- Where something is due, it is left. -/
theorem ran_addRoomCard2Member (hdue : ∃ l, Due today depth s (getOrder s no) l) (h : (s.order no).isSome) :
    ∃ l s', Due today depth s (getOrder s no) l ∧ Ran (addRoomCard2Member today depth no) s (.ok ()) s' l ∧
      s'.order = s.order := by
  have hexists : Ran (send (.existsOrder no) : Handler Bool) s (.ok true) s ([] : List Ev) := by
    rw [← h]
    exact ⟨rfl, rfl⟩
  suffices hrest : ∃ l s', Due today depth s (getOrder s no) l ∧ Ran (do
      let rType ← ofExcept (goodsKind (s.goodsType (fmt (getOrder s no).num)))
      if rType = some 2 then addRoomCard2Member4Type2 today (getOrder s no) else addRoomCards today depth (getOrder s no))
      s (.ok ()) s' l ∧ s'.order = s.order by
    obtain ⟨l, s', hdue, hran, horder⟩ := hrest
    exact ⟨l, s', hdue, hexists.bind (ran_call_bind rfl (ran_call_bind rfl hran)), horder⟩
  obtain ⟨l, hdue⟩ := hdue
  cases hdue with
  | gold htype huser hne hid hnum hmoney =>
    rw [htype, ofExcept_ok, ret_bind, if_pos rfl]
    obtain ⟨s', hran, horder⟩ := ran_addRoomCard2Member4Type2 huser hne hid hnum hmoney
    exact ⟨_, s', .gold htype huser hne hid hnum hmoney, hran, horder⟩
  | cards htype hkind huser hid htext hcards hchain hdepth hprice hu hrates =>
    rw [htype, ofExcept_ok, ret_bind, if_neg hkind]
    obtain ⟨s', shares, hran, horder, htables, hnumber⟩ := ran_addRoomCards huser hid htext hcards hchain hdepth hprice hu hrates
    exact ⟨_, s', .cards htype hkind huser hid htext hcards hchain hdepth hprice hu hrates htables hnumber, hran, horder⟩

/-- The mark on an order changes nothing of what is due. -/
theorem due_settled {o : Order} {l : List Ev} : Due today depth (settled s no u) o l ↔ Due today depth s o l := by
  constructor
  · intro h
    cases h with
    | gold htype huser hne hid hnum hmoney => exact .gold htype huser hne hid hnum hmoney
    | cards htype hkind huser hid htext hcards hchain hdepth hprice hu hrates htables hnumber =>
      exact .cards htype hkind huser hid htext hcards hchain hdepth hprice hu hrates htables hnumber
  · intro h
    cases h with
    | gold htype huser hne hid hnum hmoney => exact .gold htype huser hne hid hnum hmoney
    | cards htype hkind huser hid htext hcards hchain hdepth hprice hu hrates htables hnumber =>
      exact .cards htype hkind huser hid htext hcards hchain hdepth hprice hu hrates htables hnumber

/-- The charge comes after what is due. -/
def paid (fee : Int) (l : List Ev) : List Ev := l ++ [.added .charge fee]

theorem order_settled : (settled s no u).order no = some { getOrder s no with
    money := some u.money, endTime := some u.endTime, currency := some u.currency, orderNum := some u.orderNum,
    type := some "successful", expires := false } :=
  Function.update_self ..

/-- A notification that settles an order for which something is due. -/
theorem ran_notify (h : Settles md5 params no u s) {fee : Int} (hfee : int u.money = some fee)
    (hdue : ∃ l, Due today depth s (getOrder (settled s no u) no) l) :
    ∃ l r s', Due today depth s (getOrder (settled s no u) no) l ∧
      Ran (paymentNotifyServer md5 today depth params) s r s' (paid fee l) ∧ s'.order = (settled s no u).order := by
  have hexists : ((settled s no u).order no).isSome := by rw [order_settled]; rfl
  obtain ⟨l, s', hdue, hran, horder⟩ := ran_addRoomCard2Member (hdue.imp fun _ => due_settled.2) hexists
  obtain ⟨s'', hcharge, hkept⟩ : ∃ s'', Ran (execute [.incrby .charge (some fee)]) s' (.ok (val s'.counter .charge + fee)) s''
      [Ev.added .charge fee] ∧ s''.order = s'.order := ran_execute rfl rfl
  refine ⟨l, .ok ⟨"SUCCESS", "支付成功"⟩, s'', due_settled.1 hdue, ?_, hkept.trans horder⟩
  have hsplit : paid fee l = [] ++ (l ++ ([Ev.added .charge fee] ++ [])) := by rw [List.nil_append, List.append_nil]; rfl
  unfold paymentNotifyServer
  simp only [h.signed, h.result, h.out_trade_no, h.money, hfee, orRaise_some, ret_bind, Bool.not_true, Bool.false_eq_true,
    if_false, ne_eq, not_true_eq_false]
  rw [hsplit]
  exact (ran_verfiyRcvDatas h).bind (hran.bind (hcharge.bind (ran_ret _ _)))

/-! ## Runs -/

/-- What others do to the store: an order that is marked they leave, and they mark none. -/
structure Other where
  change : St → St
  keeps : ∀ s no, (getOrder s no).type = some "successful" → getOrder (change s) no = getOrder s no
  marks : ∀ s no, (getOrder s no).type ≠ some "successful" → (getOrder (change s) no).type ≠ some "successful"

/-- A notification, or anything else. -/
inductive Req where
  | notify (today : String) (depth : Nat) (params : Dict)
  | others (other : Other)

/-- A notification of an order: the store that received it, and what it left. -/
structure Delivery where
  no : String
  today : String
  depth : Nat
  before : St
  left : List Ev

/-- The store with the notifications so far. -/
structure Hist where
  st : St
  log : List Delivery

variable (md5) in
def step (r : Req) (h : Hist) : Hist :=
  match r with
  | .notify today depth params => ⟨(run (paymentNotifyServer md5 today depth params) h.st).2,
      h.log ++ [⟨fmt (get params "out_trade_no"), today, depth, h.st, trace Ev (paymentNotifyServer md5 today depth params) h.st⟩]⟩
  | .others other => ⟨other.change h.st, h.log⟩

/-- The notifications of an order that have left anything. -/
def Hist.of (h : Hist) (no : String) : List Delivery := h.log.filter fun d => d.no = no ∧ d.left ≠ []

/-- The notification has left what was due for the order, and the charge. -/
def Delivery.Pays (d : Delivery) (o : Order) : Prop :=
  ∃ l fee, Due d.today d.depth d.before o l ∧ o.money.bind int = some fee ∧ d.left = paid fee l

/-- An order is marked if and only if it has been paid, once and in whole. Else nothing has been left for it. -/
def Exact (h : Hist) : Prop := ∀ no,
  ((getOrder h.st no).type = some "successful" ∧ ∃ d, h.of no = [d] ∧ d.Pays (getOrder h.st no)) ∨
    ((getOrder h.st no).type ≠ some "successful" ∧ h.of no = [])

variable (md5) in
/-- A notification that is accepted finds its order not marked, its charge an integer, and something due for the order. -/
def Sound (r : Req) (h : Hist) : Prop :=
  match r with
  | .notify today depth params => ∀ no u, Settles md5 params no u h.st → (getOrder h.st no).type ≠ some "successful" ∧
      (∃ fee, int u.money = some fee) ∧ ∃ l, Due today depth h.st (getOrder (settled h.st no u) no) l
  | .others _ => True

theorem of_step (h : Hist) (st : St) (d : Delivery) (no : String) :
    Hist.of ⟨st, h.log ++ [d]⟩ no = h.of no ++ if d.no = no ∧ d.left ≠ [] then [d] else [] := by
  unfold Hist.of
  rw [List.filter_append]
  by_cases hd : d.no = no ∧ d.left ≠ [] <;> simp [hd]

theorem getOrder_of_order {s' : St} (h : s'.order = (settled s no u).order) (n : String) :
    getOrder s' n = if n = no then getOrder (settled s no u) no else getOrder s n := by
  unfold getOrder
  rw [h]
  split
  · next hn => rw [hn]
  · next hn => exact congrArg (Option.getD · Pay.Order.blank) (Function.update_of_ne hn ..)

/-- A notification that is accepted pays its order, and no other. -/
theorem exact_paid {h : Hist} (he : Exact h) {no : String} (hno : (getOrder h.st no).type ≠ some "successful") {s' : St}
    (horder : s'.order = (settled h.st no u).order) {d : Delivery} (hd : d.no = no)
    (hpays : d.Pays (getOrder (settled h.st no u) no)) : Exact ⟨s', h.log ++ [d]⟩ := by
  intro n
  rw [of_step, getOrder_of_order horder]
  by_cases hn : n = no
  · -- nothing has been left for it before
    obtain rfl := hn
    have hleft : d.left ≠ [] := by
      obtain ⟨l, fee, -, -, hleft⟩ := hpays
      rw [hleft]
      exact List.append_ne_nil_of_right_ne_nil l (List.cons_ne_nil _ _)
    rcases he n with ⟨hmark, -⟩ | ⟨-, hof⟩
    · exact absurd hmark hno
    · rw [if_pos rfl, if_pos ⟨hd, hleft⟩, hof]
      refine .inl ⟨?_, d, rfl, hpays⟩
      rw [getOrder, order_settled]
      rfl
  · rw [if_neg hn, if_neg fun h => hn (h.1.symm.trans hd), List.append_nil]
    exact he n

theorem exact_step {r : Req} {h : Hist} (hr : Sound md5 r h) (he : Exact h) : Exact (step md5 r h) := by
  cases r with
  | others other =>
    intro no
    rcases he no with ⟨hmark, d, hof, hpays⟩ | ⟨hmark, hof⟩
    · have hkeeps := other.keeps h.st no hmark
      exact .inl ⟨by rw [step, hkeeps]; exact hmark, d, hof, by rw [step, hkeeps]; exact hpays⟩
    · exact .inr ⟨other.marks h.st no hmark, hof⟩
  | notify today depth params =>
    simp only [step]
    by_cases hs : ∃ no u, Settles md5 params no u h.st
    · obtain ⟨no, u, hs⟩ := hs
      obtain ⟨hmark, ⟨fee, hfee⟩, hdue⟩ := hr no u hs
      obtain ⟨l, r, s', hdue, hran, horder⟩ := ran_notify hs hfee hdue
      rw [hran.run, hran.trace, hs.out_trade_no]
      refine exact_paid he hmark horder rfl ⟨l, fee, hdue, ?_, rfl⟩
      rw [getOrder, order_settled]
      exact hfee
    · obtain ⟨r, hran⟩ := ran_notify_ignored today depth fun no u h => hs ⟨no, u, h⟩
      rw [hran.run, hran.trace]
      intro no
      rw [of_step, if_neg fun h => h.2 rfl, List.append_nil]
      exact he no

end Notify

/-- What `md5` is at the notification. -/
def sampleMd5 (s : String) : String :=
  if s = "fee_type=CNY&out_trade_no=20180601120000001000000000112345&result_code=SUCCESS&time_end=20180601120100" ++
      "&total_fee=600&transaction_id=4200000001&key=F82461BB1DA6946271F3457AF94BBE9B" then
    "899925445eee6d03607c6ba142e8b3a2"
  else if s = "fee_type=CNY&out_trade_no=20180601120000001000000000112345&result_code=SUCCESS&time_end=20180601120100" ++
      "&total_fee=600&transaction_id=4200000001&key=ed6daadda7ddd245f60e4ef20b8d543d" then
    "a9d28e01f487ce72d42588b6a6ee5a45"
  else ""

def sampleNo : String := "20180601120000001000000000112345"

def sampleParams : Dict :=
  [("fee_type", "CNY"), ("out_trade_no", sampleNo), ("result_code", "SUCCESS"), ("time_end", "20180601120100"),
    ("total_fee", "600"), ("transaction_id", "4200000001"), ("sign", "899925445EEE6D03607C6BA142E8B3A2")]

/-- The user `7`, in the guild given, has ordered 60 diamonds and 6 more for 6 yuan. -/
def sampleShop (parentAg : String) : St where
  order := fun no => if no = sampleNo then
      some { Pay.Order.blank with
        money := some "600", account := some "acc", num := some "1", type := some "pending", roomCards := some "60"
        presentCards := some "6", expires := true }
    else none
  pending := ∅
  succeeded := ∅
  goodsType := fun _ => none
  userTable := fun account => if account = "acc" then some "users:7" else none
  parentAg := fun _ => some parentAg
  rate := Rate.demo
  counter := fun _ => none
  goldUsers := fun _ => ∅
  dayUse := fun _ _ => []

def sampleReq : Req := .notify "2018-06-01" 3 sampleParams

theorem sample_pending (parentAg no : String) : (getOrder (sampleShop parentAg) no).type ≠ some "successful" := by
  unfold getOrder sampleShop
  dsimp only
  split
  · decide
  · decide

end FishWeb.Diamond
