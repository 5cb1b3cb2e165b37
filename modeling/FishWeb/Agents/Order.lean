import FishWeb.Agents.Model
import FishWeb.Lib.Forest
import FishWeb.Lib.Runs
import FishWeb.Rate.Split
/-!
# The order of the shares

The share rates and the prices form a forest: above the rate of an agent is the rate of
his parent, or the price where the parent is a company. A request writes the values of
one agent (`create_cases`, `modify_cases`), so it keeps the order if they fit what is
above and what is below (`Fits`). The handlers check neither.
-/
open Python Prog
open Function (update update_self update_of_ne forall_update_iff)

namespace FishWeb.Agents

open Rate (rateOf decimalOf)

/-! ## Agents, parents and companies -/

/-- The records of the agents. -/
abbrev Records := String → Rate.Agent

/-- `int(type)` -/
def typeOf (a : Rate.Agent) : Option Int := a.type.bind int

def priceOf (a : Rate.Agent) : Option ℚ := a.unitPrice.bind decimalOf

/-- The parent of an agent. -/
def above (agent : Records) (id : String) : String := fmt (agent id).parent_id

/-- The company at the top of the agents above. -/
inductive CompanyOf (agent : Records) : String → String → Prop
  | self {id : String} (h : typeOf (agent id) = some 1) : CompanyOf agent id id
  | above {id c : String} {n : Int} (h : typeOf (agent id) = some n) (hn : 1 < n) (hup : CompanyOf agent (above agent id) c) :
      CompanyOf agent id c

/-- No agent's share rate passes his parent's, nor the price of his company. -/
structure ShareOrder (agent : Records) : Prop where
  parent : ∀ id n m, typeOf (agent id) = some n → 1 ≤ n → typeOf (agent (above agent id)) = some m → 2 ≤ m →
    rateOf (agent id).shareRate ≤ rateOf (agent (above agent id)).shareRate
  company : ∀ id n, typeOf (agent id) = some n → 1 ≤ n →
    ∃ c u, CompanyOf agent id c ∧ priceOf (agent c) = some u ∧ Rate.Decimal u (agent id).shareRate

/-- What is granted for a card, from an agent up: the rates, and the price at the end. -/
inductive Grants (agent : Records) : String → List ℚ → Prop
  | company {id : String} {u : ℚ} (h : typeOf (agent id) = some 1) (hu : priceOf (agent id) = some u) :
      Grants agent id [rateOf (agent id).shareRate, u]
  | first {id : String} {u : ℚ} (h : typeOf (agent id) = some 2) (hu : priceOf (agent (above agent id)) = some u) :
      Grants agent id [rateOf (agent id).shareRate, u]
  | deeper {id : String} {n : Int} {l : List ℚ} (h : typeOf (agent id) = some n) (hn : 2 < n) (hup : Grants agent (above agent id) l) :
      Grants agent id (rateOf (agent id).shareRate :: l)

/-- The split of a sale has no negative part. -/
def FairSplit (agent : Records) : Prop :=
  ∀ id n, typeOf (agent id) = some n → 1 ≤ n → ∃ l, Grants agent id l ∧ ∀ part ∈ Cascade.kept 0 l, 0 ≤ part

/-! ## The forest of rates and prices -/

inductive Node where
  | rate (id : String)
  | price (id : String)
  deriving DecidableEq

def up (agent : Records) : Node → Option Node
  | .rate id =>
    if typeOf (agent id) = some 1 then some (.price id)
    else if typeOf (agent id) = some 2 then some (.price (above agent id))
    else if typeOf (agent id) = some 3 then some (.rate (above agent id))
    else none
  | .price _ => none

def value (agent : Records) : Node → ℚ
  | .rate id => rateOf (agent id).shareRate
  | .price id => (priceOf (agent id)).getD 0

/-- A rate that is missing, or a decimal that is not negative. -/
def Readable (rate : Option String) : Prop := ∀ text, Rate.orZero rate = some text → ∃ r, decimalOf text = some r ∧ 0 ≤ r

theorem Readable.rateOf_nonneg {rate : Option String} (h : Readable rate) : 0 ≤ rateOf rate := by
  unfold rateOf
  cases ho : Rate.orZero rate with
  | none => exact le_refl 0
  | some text =>
    obtain ⟨r, hr, hr0⟩ := h text ho
    rw [Option.bind_some, hr]
    exact hr0

/-- A rate that can be read and does not pass the price. -/
theorem Readable.decimal {rate : Option String} {u : ℚ} (h : Readable rate) (hu : rateOf rate ≤ u) : Rate.Decimal u rate := by
  intro text ht
  obtain ⟨r, hr, hr0⟩ := h text ht
  refine ⟨r, hr, hr0, ?_⟩
  rwa [rateOf, ht, Option.bind_some, hr] at hu

/-- Each type is a number up to three, and the parent's is one less. -/
def Leveled (agent : Records) (id : String) : Prop :=
  ∀ t, (agent id).type = some t → ∃ n : Int, t = toString n ∧ 0 ≤ n ∧ n ≤ 3 ∧
    (n ≠ 0 → (agent (above agent id)).type = some (toString (n - 1)))

structure Inv (s : St) : Prop where
  record : ∀ id, s.detail id = none → s.rate.agent id = blank
  ids : ∀ id, s.detail id ≠ none → id = "1" ∨ id ∈ s.ids
  tree : ∀ id, Leveled s.rate.agent id
  rates : ∀ id n, typeOf (s.rate.agent id) = some n → 1 ≤ n → Readable (s.rate.agent id).shareRate
  prices : ∀ id, typeOf (s.rate.agent id) = some 1 → priceOf (s.rate.agent id) ≠ none
  order : Forest.Ordered (up s.rate.agent) (value s.rate.agent)

theorem typeOf_toString {a : Rate.Agent} {n : Int} (h : a.type = some (toString n)) : typeOf a = some n := by
  rw [typeOf, h]
  exact int_toString_int n

section Inv
variable {s : St} (hi : Inv s)
include hi

/-- What an agent's type says: he is of a level, under an agent of the level above. -/
theorem Inv.level {id : String} {n : Int} (h : typeOf (s.rate.agent id) = some n) :
    0 ≤ n ∧ n ≤ 3 ∧ (n ≠ 0 → typeOf (s.rate.agent (above s.rate.agent id)) = some (n - 1)) := by
  cases ht : (s.rate.agent id).type with
  | none => rw [typeOf, ht] at h; cases h
  | some t =>
    obtain ⟨m, rfl, h0, h3, hup⟩ := hi.tree id t ht
    obtain rfl : m = n := Option.some.inj ((typeOf_toString ht).symm.trans h)
    exact ⟨h0, h3, fun hm => typeOf_toString (hup hm)⟩

theorem Inv.rate_le {id : String} {b : Node} (hup : up s.rate.agent (.rate id) = some b) :
    rateOf (s.rate.agent id).shareRate ≤ value s.rate.agent b :=
  hi.order (.rate id) b hup

theorem Inv.price {id : String} (h : typeOf (s.rate.agent id) = some 1) :
    ∃ u, priceOf (s.rate.agent id) = some u ∧ value s.rate.agent (.price id) = u := by
  obtain ⟨u, hu⟩ := Option.ne_none_iff_exists'.1 (hi.prices id h)
  exact ⟨u, hu, by rw [value, hu]; rfl⟩

end Inv

theorem up_company {agent : Records} {id : String} (h : typeOf (agent id) = some 1) :
    up agent (.rate id) = some (.price id) := if_pos h

theorem up_first {agent : Records} {id : String} (h : typeOf (agent id) = some 2) :
    up agent (.rate id) = some (.price (above agent id)) := by
  rw [up, h]
  rfl

theorem up_second {agent : Records} {id : String} (h : typeOf (agent id) = some 3) :
    up agent (.rate id) = some (.rate (above agent id)) := by
  rw [up, h]
  rfl

section Inv
variable {s : St} (hi : Inv s)
include hi

/-- The way from an agent's rate to the price of his company, and what is granted on it. -/
theorem Inv.path {id : String} {n : Int} (h : typeOf (s.rate.agent id) = some n) (hn : 1 ≤ n) :
    ∃ c u p, ∃ hp : Forest.Path (up s.rate.agent) (.rate id) p, CompanyOf s.rate.agent id c ∧ priceOf (s.rate.agent c) = some u ∧
      value s.rate.agent (p.getLast hp.ne_nil) = u ∧ Grants s.rate.agent id (p.map (value s.rate.agent)) := by
  obtain ⟨-, h3, hup⟩ := hi.level h
  obtain rfl | rfl | rfl : n = 1 ∨ n = 2 ∨ n = 3 := by omega
  · obtain ⟨u, hu, rfl⟩ := hi.price h
    exact ⟨id, _, _, .next (up_company h) (.top rfl), .self h, hu, rfl, .company h hu⟩
  · have hc := hup (by decide)
    obtain ⟨u, hu, rfl⟩ := hi.price hc
    exact ⟨_, _, _, .next (up_first h) (.top rfl), .above h (by decide) (.self hc), hu, rfl, .first h hu⟩
  · have hp := hup (by decide)
    have hc := (hi.level hp).2.2 (by decide)
    obtain ⟨u, hu, rfl⟩ := hi.price hc
    exact ⟨_, _, _, .next (up_second h) (.next (up_first hp) (.top rfl)), .above h (by decide) (.above hp (by decide) (.self hc)),
      hu, rfl, .deeper h (by decide) (.first hp hu)⟩

theorem Inv.shareOrder : ShareOrder s.rate.agent where
  parent id n m h hn hm hm2 := by
    obtain ⟨-, h3, hup⟩ := hi.level h
    have hm' := (hup (by omega)).symm.trans hm
    obtain rfl : n = 3 := by injection hm' with he; omega
    exact hi.rate_le (up_second h)
  company id n h hn := by
    obtain ⟨c, u, p, hp, hc, hu, rfl, -⟩ := hi.path h hn
    exact ⟨c, _, hc, hu, (hi.rates id n h hn).decimal (hi.order.le_getLast hp)⟩

theorem Inv.fairSplit : FairSplit s.rate.agent := by
  intro id n h hn
  obtain ⟨c, u, p, hp, -, -, -, hgrants⟩ := hi.path h hn
  refine ⟨_, hgrants, (Cascade.kept_nonneg_iff 0 _).2 ?_⟩
  have hchain := hi.order.isChain hp
  obtain ⟨t, rfl⟩ := hp.head
  exact List.isChain_cons_cons.2 ⟨(hi.rates id n h hn).rateOf_nonneg, hchain⟩

end Inv

/-! ## What a request does -/

/-- The records are as they were; a number may have been drawn. -/
structure Kept (s s' : St) : Prop where
  rate : s'.rate = s.rate
  detail : s'.detail = s.detail
  ids : ∀ id ∈ s.ids, id ∈ s'.ids

theorem Kept.refl (s : St) : Kept s s := ⟨rfl, rfl, fun _ h => h⟩

theorem exceeds_cases (shareRate limit : String) :
    (∃ b, exceeds shareRate limit = .ret b) ∨ exceeds shareRate limit = .raise .ValueError := by
  unfold exceeds
  split
  · exact .inl ⟨_, rfl⟩
  cases number shareRate with
  | none => exact .inr rfl
  | some a =>
    cases number limit with
    | none => exact .inr rfl
    | some b => exact .inl ⟨_, rfl⟩

theorem accessOf_cases (agentType : String) :
    accessOf agentType = .ret () ∧ agentType ∈ accessTypes ∨ accessOf agentType = .raise .KeyError := by
  unfold accessOf
  split
  · next h => exact .inl ⟨rfl, h⟩
  · exact .inr rfl

theorem part_rate : Part (C := Rate.Cmd) (D := Cmd) (fun _ => Cmd.rate) St.rate fun s rate => { s with rate := rate } where
  exec _ _ _ := rfl
  view_put _ _ := rfl
  put_put _ _ _ := rfl
  put_view _ := rfl

theorem run_getCardMoney (depth : Nat) (groupId : String) (s : Rate.St) : (run (Rate.getCardMoney depth groupId) s).2 = s := by
  induction depth generalizing groupId with
  | zero => rfl
  | succ depth ih =>
    rw [Rate.getCardMoney]
    show (run (if _ then _ else _) s).2 = s
    split
    · exact ih _
    · rfl

/-- The price is read and nothing is written. -/
theorem run_getUserCardMoney (depth : Nat) (agentId : String) (s : St) :
    ∃ r, run (getUserCardMoney depth agentId) s = (r, s) := by
  refine ⟨(run (Rate.getCardMoney depth agentId) s.rate).1, ?_⟩
  rw [getUserCardMoney, run_lift part_rate, run_getCardMoney]

/-! ## Pipelines -/

/-- The writes about prices. -/
def Write.IsPrice : Write → Prop
  | .saddRate _ _ => True
  | .saddPrice _ _ => True
  | _ => False

/-- They change no record. -/
theorem foldl_isPrice {pipe : List Write} (h : ∀ w ∈ pipe, w.IsPrice) (s : St) :
    ∃ rateSet perPrice, pipe.foldl Write.apply s = { s with rateSet := rateSet, perPrice := perPrice } := by
  induction pipe generalizing s with
  | nil => exact ⟨s.rateSet, s.perPrice, rfl⟩
  | cons w pipe ih =>
    obtain ⟨hw, hpipe⟩ := List.forall_mem_cons.1 h
    obtain ⟨rateSet, perPrice, heq⟩ := ih hpipe (w.apply s)
    cases w with
    | saddRate agentId rate => exact ⟨rateSet, perPrice, heq⟩
    | saddPrice agentId unitPrice => exact ⟨rateSet, perPrice, heq⟩
    | saddId _ => exact hw.elim
    | hmsetCreate _ => exact hw.elim
    | hmsetModify _ _ => exact hw.elim
    | setAccount _ _ => exact hw.elim

/-- A program that reads and returns writes about prices. -/
def Prices (p : Handler (List Write)) (s : St) : Prop :=
  ∃ r, run p s = (r, s) ∧ ∀ pipe, r = .ok pipe → ∀ w ∈ pipe, w.IsPrice

theorem Prices.ret {pipe : List Write} (h : ∀ w ∈ pipe, w.IsPrice) (s : St) : Prices (.ret pipe) s := by
  refine ⟨_, rfl, fun pipe' hpipe => ?_⟩
  rwa [← Except.ok.inj hpipe]

theorem Prices.bind {α : Type} {p : Handler α} {f : α → Handler (List Write)} {s : St} (hp : ∃ r, run p s = (r, s))
    (hf : ∀ a, Prices (f a) s) : Prices (p >>= f) s := by
  obtain ⟨r, hr⟩ := hp
  cases r with
  | error e => exact ⟨.error e, run_bind_error hr, fun pipe h => by cases h⟩
  | ok a =>
    obtain ⟨r, hr', hpipe⟩ := hf a
    exact ⟨r, by rw [run_bind_ok hr, hr'], hpipe⟩

theorem isPrice_own (agentId unitPrice : String) :
    ∀ w ∈ (if unitPrice = "" then [] else [Write.saddPrice agentId (some unitPrice)]), w.IsPrice := by
  split <;> simp [Write.IsPrice]

theorem prices_createPrices (depth : Nat) (agentId parentAg : String) (agent_type parent_unitPrice : Option String)
    (form : CreateForm) (s : St) : Prices (createPrices depth agentId parentAg agent_type parent_unitPrice form) s := by
  have hown := isPrice_own agentId form.unitPrice
  unfold createPrices
  dsimp only
  split
  · refine Prices.bind ?_ fun unitPrice => Prices.ret (fun w hw => ?_) s
    · unfold priceOfRate
      split
      · exact ⟨_, rfl⟩
      · split
        · exact run_getUserCardMoney depth parentAg s
        · exact ⟨_, rfl⟩
    · rcases List.mem_append.1 hw with hw | hw
      · exact hown w hw
      · rcases List.mem_cons.1 hw with rfl | hw
        · trivial
        · obtain rfl := List.mem_singleton.1 hw
          trivial
  · exact Prices.ret hown s

theorem prices_modifyPrices (depth : Nat) (agent_type : Option String) (form : ModifyForm) (s : St) :
    Prices (modifyPrices depth agent_type form) s := by
  have hown := isPrice_own form.agentId form.unitPrice
  unfold modifyPrices
  dsimp only
  split
  · refine Prices.bind (run_getUserCardMoney depth form.agentId s) fun unitPrice => Prices.ret (fun w hw => ?_) s
    rcases List.mem_append.1 hw with hw | hw
    · rcases List.mem_append.1 hw with hw | hw
      · exact hown w hw
      · obtain rfl := List.mem_singleton.1 hw
        trivial
    · split at hw
      · cases hw
      · obtain rfl := List.mem_singleton.1 hw
        trivial
  split
  · refine Prices.bind (run_getUserCardMoney depth form.agentId s) fun unitPrice => Prices.ret (fun w hw => ?_) s
    rcases List.mem_append.1 hw with hw | hw
    · exact hown w hw
    · rcases List.mem_cons.1 hw with rfl | hw
      · trivial
      · obtain rfl := List.mem_singleton.1 hw
        trivial
  · exact Prices.ret hown s

/-! ## Requests -/

/-- The form passes the checks of `/agent/create`. -/
structure CreateForm.Passes (form : CreateForm) (s : St) : Prop where
  account : form.account ≠ "" ∧ s.account form.account = none
  passwd : form.passwd ≠ "" ∧ form.comfirPasswd ≠ ""
  unitPrice : exceeds form.shareRate form.unitPrice = .ret false
  myRate : exceeds form.shareRate form.myRate = .ret false
  unknown : s.detail form.agentId = none

/-- A new agent is stored under `id`, below the agent `n`, whose type is `k`. -/
structure Created (idNo : IdNo) (n k : Int) (form : CreateForm) (id : String) (s s' : St) : Prop where
  passes : form.Passes s
  parent : ∃ t, (s.rate.agent (toString n)).type = some t ∧ int t = some k
  type : toString (k + 1) ∈ accessTypes
  number : form.agentId ≠ "" ∧ id = form.agentId ∨ form.agentId = "" ∧ id = idNo.text ∧ id ∉ s.ids
  agent : s'.rate.agent = update s.rate.agent id ⟨some (toString (k + 1)), some form.shareRate, some (toString n), some form.unitPrice⟩
  detail : ∃ d, s'.detail = update s.detail id (some d)
  known : id ∈ s'.ids
  ids : ∀ x ∈ s.ids, x ∈ s'.ids

/-- The pipeline of a new agent stores his record. -/
theorem foldl_create {pipe : List Write} (h : ∀ w ∈ pipe, w.IsPrice) (info : AgentInfo) (number : String) (s : St) :
    ∃ s', ((if number = "" then [] else [Write.saddId info.id]) ++ pipe ++
        [Write.hmsetCreate info, Write.setAccount info.account info.id]).foldl Write.apply s = s' ∧
      s'.rate.agent = update s.rate.agent info.id info.agent ∧ (∃ d, s'.detail = update s.detail info.id (some d)) ∧
      (number ≠ "" → info.id ∈ s'.ids) ∧ ∀ x ∈ s.ids, x ∈ s'.ids := by
  refine ⟨_, rfl, ?_⟩
  rw [List.foldl_append, List.foldl_append]
  by_cases hnumber : number = ""
  · rw [if_pos hnumber]
    obtain ⟨rateSet, perPrice, heq⟩ := foldl_isPrice h s
    rw [List.foldl_nil, heq]
    exact ⟨rfl, ⟨_, rfl⟩, fun hne => absurd hnumber hne, fun _ hx => hx⟩
  · rw [if_neg hnumber]
    obtain ⟨rateSet, perPrice, heq⟩ := foldl_isPrice h (Write.apply s (.saddId info.id))
    rw [show List.foldl Write.apply s [.saddId info.id] = Write.apply s (.saddId info.id) from rfl, heq]
    exact ⟨rfl, ⟨_, rfl⟩, fun _ => (MemberSet.mem_sadd ..).2 (.inl rfl), fun _ hx => (MemberSet.mem_sadd ..).2 (.inr hx)⟩

/-- An id that is drawn is registered, and returned if it is new. -/
theorem run_getAgentIdNo (idNo : IdNo) (s : St) : run (getAgentIdNo idNo) s =
    (if idNo.text ∉ s.ids then .ok idNo.text else .error .NameError, { s with ids := s.ids.sadd idNo.text }) := by
  have hadd : run (send (.saddId idNo.text) : Handler Bool) s =
      (.ok (decide (idNo.text ∉ s.ids)), { s with ids := s.ids.sadd idNo.text }) := rfl
  unfold getAgentIdNo
  rw [run_bind_ok hadd]
  by_cases hnew : idNo.text ∉ s.ids
  · rw [decide_eq_true hnew, if_pos hnew]
    rfl
  · rw [decide_eq_false hnew, if_neg hnew]
    rfl

/-- The number of a new agent: the one of the form, or one that is drawn. -/
theorem run_agentIdOf (idNo : IdNo) (agentId : String) (s : St) :
    (∃ e s', run (agentIdOf idNo agentId) s = (.error e, s') ∧ Kept s s') ∨
    ∃ id s', run (agentIdOf idNo agentId) s = (.ok id, s') ∧ Kept s s' ∧ (agentId = "" → id ∈ s'.ids) ∧
      (agentId ≠ "" ∧ id = agentId ∨ agentId = "" ∧ id = idNo.text ∧ id ∉ s.ids) := by
  unfold agentIdOf
  by_cases hform : agentId = ""
  · rw [if_pos hform]
    have hids : ∀ x ∈ s.ids, x ∈ s.ids.sadd idNo.text := fun x hx => (MemberSet.mem_sadd ..).2 (.inr hx)
    rw [run_getAgentIdNo]
    by_cases hnew : idNo.text ∉ s.ids
    · rw [if_pos hnew]
      exact .inr ⟨idNo.text, _, rfl, ⟨rfl, rfl, hids⟩, fun _ => (MemberSet.mem_sadd ..).2 (.inl rfl), .inr ⟨hform, rfl, hnew⟩⟩
    · rw [if_neg hnew]
      exact .inl ⟨.NameError, _, rfl, rfl, rfl, hids⟩
  · rw [if_neg hform]
    exact .inr ⟨agentId, s, rfl, Kept.refl s, fun h => absurd h hform, .inl ⟨hform, rfl⟩⟩

theorem create_cases (depth : Nat) (idNo : IdNo) (agent_id : Option Int) (form : CreateForm) (s : St) :
    Kept s (run (doCreateAgent depth idNo agent_id form) s).2 ∨
      ∃ n k id, agent_id = some n ∧ Created idNo n k form id s (run (doCreateAgent depth idNo agent_id form) s).2 := by
  unfold doCreateAgent
  dsimp only
  cases agent_id with
  | none => exact .inl (Kept.refl s)
  | some n =>
  rw [Option.getD_some]
  by_cases hzero : n = 0
  · rw [if_pos hzero]
    exact .inl (Kept.refl s)
  have hparent : run (send (.hmgetParent (toString n)) : Handler _) s =
      (.ok ((s.rate.agent (toString n)).type, (s.rate.agent (toString n)).unitPrice), s) := rfl
  rw [if_neg hzero, run_bind_ok hparent]
  dsimp only
  by_cases haccount : form.account = ""
  · rw [if_pos haccount]
    exact .inl (Kept.refl s)
  by_cases hpasswd : form.passwd = ""
  · rw [if_neg haccount, if_pos hpasswd]
    exact .inl (Kept.refl s)
  by_cases hcomfir : form.comfirPasswd = ""
  · rw [if_neg haccount, if_neg hpasswd, if_pos hcomfir]
    exact .inl (Kept.refl s)
  rw [if_neg haccount, if_neg hpasswd, if_neg hcomfir]
  rcases exceeds_cases form.shareRate form.unitPrice with ⟨b, hb⟩ | hb
  swap
  · rw [hb]
    exact .inl (Kept.refl s)
  rcases exceeds_cases form.shareRate form.myRate with ⟨b', hb'⟩ | hb'
  swap
  · rw [hb, hb']
    cases b <;> exact .inl (Kept.refl s)
  cases b with
  | true => rw [hb]; exact .inl (Kept.refl s)
  | false =>
  cases b' with
  | true => rw [hb, hb']; exact .inl (Kept.refl s)
  | false =>
  simp only [hb, hb', ret_bind, Bool.false_eq_true, if_false]
  have hexists : run (send (.existsAgent form.agentId) : Handler Bool) s = (.ok (s.detail form.agentId).isSome, s) := rfl
  rw [run_bind_ok hexists]
  cases hknown : s.detail form.agentId with
  | some d => exact .inl (Kept.refl s)
  | none =>
  have htaken : run (send (.existsAccount form.account) : Handler Bool) s = (.ok (s.account form.account).isSome, s) := rfl
  simp only [Option.isSome_none, Bool.false_eq_true, if_false]
  rw [run_bind_ok htaken]
  cases hfree : s.account form.account with
  | some d => exact .inl (Kept.refl s)
  | none =>
  simp only [Option.isSome_none, Bool.false_eq_true, if_false]
  rcases run_agentIdOf idNo form.agentId s with ⟨e, s', hrun, hkept⟩ | ⟨id, s', hrun, hkept, hin, hnumber⟩
  · rw [run_bind_error hrun]
    exact .inl hkept
  rw [run_bind_ok hrun]
  cases htype : (s.rate.agent (toString n)).type with
  | none => exact .inl hkept
  | some t =>
  cases hint : int t with
  | none => rw [orRaise_some, ret_bind, hint]; exact .inl hkept
  | some k =>
  rw [orRaise_some, ret_bind, hint, orRaise_some, ret_bind]
  obtain ⟨r, hprices, hpipe⟩ := prices_createPrices depth id (toString n) (some t) (s.rate.agent (toString n)).unitPrice form s'
  cases r with
  | error e =>
    rw [run_bind_error hprices]
    exact .inl hkept
  | ok pipe =>
  rw [run_bind_ok hprices]
  rcases accessOf_cases (toString (k + 1)) with ⟨hok, haccess⟩ | hkey
  swap
  · rw [hkey]
    exact .inl hkept
  rw [hok, ret_bind]
  obtain ⟨s'', hpipeline, hagent, ⟨d, hdetail⟩, hnew, hids⟩ := foldl_create (hpipe pipe rfl)
    ⟨id, form.account, form.shareRate, toString n, form.unitPrice, toString (k + 1), form.defaultRoomCard⟩ form.agentId s'
  have hexecute : run (send (.execute ((if form.agentId = "" then [] else [.saddId id]) ++ pipe ++
      [.hmsetCreate ⟨id, form.account, form.shareRate, toString n, form.unitPrice, toString (k + 1), form.defaultRoomCard⟩,
        .setAccount form.account id])) : Handler Unit) s' = (.ok (), s'') := by
    rw [← hpipeline]
    rfl
  rw [run_bind_ok hexecute]
  rw [hkept.rate] at hagent
  rw [hkept.detail] at hdetail
  refine .inr ⟨n, k, id, rfl, ⟨⟨haccount, hfree⟩, ⟨hpasswd, hcomfir⟩, hb, hb', hknown⟩, ⟨t, htype, hint⟩, haccess, hnumber,
    hagent, ⟨d, hdetail⟩, ?_, fun x hx => hids x (hkept.ids x hx)⟩
  rcases hnumber with ⟨hne, -⟩ | ⟨he, -⟩
  · exact hnew hne
  · exact hids id (hin he)

/-- The form passes the checks of `/agent/modify`. -/
structure ModifyForm.Passes (form : ModifyForm) : Prop where
  number : form.agentId ≠ ""
  unitPrice : exceeds form.shareRate form.unitPrice = .ret false
  myRate : exceeds form.shareRate form.myRate = .ret false

/-- The values of an agent are stored. -/
structure Modified (form : ModifyForm) (s s' : St) : Prop where
  passes : form.Passes
  type : fmt (s.rate.agent form.agentId).type ∈ accessTypes
  agent : s'.rate.agent = update s.rate.agent form.agentId
    { s.rate.agent form.agentId with shareRate := some form.shareRate, unitPrice := some form.unitPrice }
  detail : ∃ d, s'.detail = update s.detail form.agentId (some d)
  ids : s'.ids = s.ids

theorem modify_cases (depth : Nat) (form : ModifyForm) (s : St) :
    (run (doAgentModify depth form) s).2 = s ∨ Modified form s (run (doAgentModify depth form) s).2 := by
  unfold doAgentModify
  by_cases hnumber : form.agentId = ""
  · rw [if_pos hnumber]
    exact .inl rfl
  have htype : run (send (.hgetType form.agentId) : Handler _) s = (.ok (s.rate.agent form.agentId).type, s) := rfl
  rw [if_neg hnumber, run_bind_ok htype]
  rcases exceeds_cases form.shareRate form.unitPrice with ⟨b, hb⟩ | hb
  swap
  · rw [hb]
    exact .inl rfl
  rcases exceeds_cases form.shareRate form.myRate with ⟨b', hb'⟩ | hb'
  swap
  · rw [hb, hb']
    cases b <;> exact .inl rfl
  cases b with
  | true => rw [hb]; exact .inl rfl
  | false =>
  cases b' with
  | true => rw [hb, hb']; exact .inl rfl
  | false =>
  simp only [hb, hb', ret_bind, Bool.false_eq_true, if_false]
  obtain ⟨r, hprices, hpipe⟩ := prices_modifyPrices depth (s.rate.agent form.agentId).type form s
  cases r with
  | error e =>
    rw [run_bind_error hprices]
    exact .inl rfl
  | ok pipe =>
  rw [run_bind_ok hprices]
  rcases accessOf_cases (fmt (s.rate.agent form.agentId).type) with ⟨hok, haccess⟩ | hkey
  swap
  · rw [hkey]
    exact .inl rfl
  rw [hok, ret_bind]
  obtain ⟨rateSet, perPrice, heq⟩ := foldl_isPrice (hpipe pipe rfl) s
  have hexecute : run (send (.execute (pipe ++
      [.hmsetModify form.agentId ⟨form.shareRate, form.unitPrice, form.name, form.defaultRoomCard⟩])) : Handler Unit) s =
      (.ok (), Write.apply { s with rateSet := rateSet, perPrice := perPrice }
        (.hmsetModify form.agentId ⟨form.shareRate, form.unitPrice, form.name, form.defaultRoomCard⟩)) := by
    show (Except.ok (), List.foldl Write.apply s _) = _
    rw [List.foldl_append, heq]
    rfl
  rw [run_bind_ok hexecute]
  exact .inr ⟨⟨hnumber, hb, hb'⟩, haccess, rfl, ⟨_, rfl⟩, rfl⟩

/-! ## What fits -/

/-- The rate of a new agent fits what is above it. -/
structure CreateForm.Fits (form : CreateForm) (agent : Records) (parentAg : String) : Prop where
  readable : Readable (some form.shareRate)
  company : typeOf (agent parentAg) = some 0 → ∃ u, decimalOf form.unitPrice = some u ∧ rateOf (some form.shareRate) ≤ u
  first : typeOf (agent parentAg) = some 1 → ∀ u, priceOf (agent parentAg) = some u → rateOf (some form.shareRate) ≤ u
  second : typeOf (agent parentAg) = some 2 → rateOf (some form.shareRate) ≤ rateOf (agent parentAg).shareRate

/-- The new values of an agent fit what is above and what is below. -/
structure ModifyForm.Fits (form : ModifyForm) (agent : Records) : Prop where
  readable : Readable (some form.shareRate)
  company : typeOf (agent form.agentId) = some 1 → ∃ u, decimalOf form.unitPrice = some u ∧ rateOf (some form.shareRate) ≤ u ∧
    ∀ id, typeOf (agent id) = some 2 → above agent id = form.agentId → rateOf (agent id).shareRate ≤ u
  first : typeOf (agent form.agentId) = some 2 → ∀ u, priceOf (agent (above agent form.agentId)) = some u →
    rateOf (some form.shareRate) ≤ u
  second : typeOf (agent form.agentId) = some 3 → rateOf (some form.shareRate) ≤ rateOf (agent (above agent form.agentId)).shareRate
  below : ∀ id, typeOf (agent id) = some 3 → above agent id = form.agentId →
    rateOf (agent id).shareRate ≤ rateOf (some form.shareRate)

/-- What the handlers do not check: the values of a form they pass fit the records. -/
def Fits : Request → St → Prop
  | .create _ agent_id form, s => ∀ n, agent_id = some n → form.Passes s → form.Fits s.rate.agent (toString n)
  | .modify form, s => form.Passes → (∃ n, typeOf (s.rate.agent form.agentId) = some n ∧ 1 ≤ n) → form.Fits s.rate.agent

theorem up_cases {agent : Records} {i j : Node} (h : up agent i = some j) : ∃ id, i = .rate id ∧
    (typeOf (agent id) = some 1 ∧ j = .price id ∨ typeOf (agent id) = some 2 ∧ j = .price (above agent id) ∨
      typeOf (agent id) = some 3 ∧ j = .rate (above agent id)) := by
  cases i with
  | price id => cases h
  | rate id =>
    refine ⟨id, rfl, ?_⟩
    unfold up at h
    dsimp only at h
    split at h
    · next ht => exact .inl ⟨ht, (Option.some.inj h).symm⟩
    split at h
    · next ht => exact .inr (.inl ⟨ht, (Option.some.inj h).symm⟩)
    split at h
    · next ht => exact .inr (.inr ⟨ht, (Option.some.inj h).symm⟩)
    · cases h

theorem Inv.kept {s s' : St} (hi : Inv s) (h : Kept s s') : Inv s' where
  record := by rw [h.rate, h.detail]; exact hi.record
  ids id hid := by
    rw [h.detail] at hid
    exact (hi.ids id hid).imp_right (h.ids id)
  tree := by rw [h.rate]; exact hi.tree
  rates := by rw [h.rate]; exact hi.rates
  prices := by rw [h.rate]; exact hi.prices
  order := by rw [h.rate]; exact hi.order

theorem IdNo.text_length (idNo : IdNo) : idNo.text.toList.length = 6 := by
  have hdigit : ∀ a : Fin 9, (Nat.toDigits 10 a.val).length = 1 := by decide
  simp [IdNo.text, List.ofFn_succ, String.join, hdigit]

theorem Inv.blank {s : St} (hi : Inv s) {idNo : IdNo} {form : CreateForm} {id : String} (hform : s.detail form.agentId = none)
    (h : form.agentId ≠ "" ∧ id = form.agentId ∨ form.agentId = "" ∧ id = idNo.text ∧ id ∉ s.ids) : s.detail id = none := by
  rcases h with ⟨-, rfl⟩ | ⟨-, rfl, hnew⟩
  · exact hform
  by_contra hid
  rcases hi.ids _ hid with hone | hin
  · have hlen := idNo.text_length
    rw [hone] at hlen
    exact absurd hlen (by decide)
  · exact hnew hin

/-- A record of another agent is as it was, and so is what is above. -/
theorem above_update {agent : Records} {id x : String} (a : Rate.Agent) (h : x ≠ id) :
    above (update agent id a) x = above agent x := by
  rw [above, update_of_ne h]
  rfl

theorem up_update {agent : Records} {id x : String} (a : Rate.Agent) (h : x ≠ id) :
    up (update agent id a) (.rate x) = up agent (.rate x) := by
  unfold up
  dsimp only
  rw [above_update a h, update_of_ne h]

theorem value_update {agent : Records} {id : String} (a : Rate.Agent) {i : Node} (hr : i ≠ .rate id) (hp : i ≠ .price id) :
    value (update agent id a) i = value agent i := by
  cases i with
  | rate x => rw [value, update_of_ne fun h => hr (by rw [h])]; rfl
  | price x => rw [value, update_of_ne fun h => hp (by rw [h])]; rfl

/-- What an agent's values must fit to keep the order: what is above him, and what is below. -/
theorem Inv.order_update {s : St} (hi : Inv s) {id : String} {a : Rate.Agent}
    (habove : ∀ j, up (update s.rate.agent id a) (.rate id) = some j →
      rateOf a.shareRate ≤ value (update s.rate.agent id a) j)
    (hrate : ∀ x, x ≠ id → typeOf (s.rate.agent x) = some 3 → above s.rate.agent x = id →
      rateOf (s.rate.agent x).shareRate ≤ rateOf a.shareRate)
    (hprice : ∀ x, x ≠ id → typeOf (s.rate.agent x) = some 2 → above s.rate.agent x = id →
      rateOf (s.rate.agent x).shareRate ≤ (priceOf a).getD 0) :
    Forest.Ordered (up (update s.rate.agent id a)) (value (update s.rate.agent id a)) := by
  have hself : update s.rate.agent id a id = a := update_self ..
  have hvr : value (update s.rate.agent id a) (.rate id) = rateOf a.shareRate := by rw [value, hself]
  have hvp : value (update s.rate.agent id a) (.price id) = (priceOf a).getD 0 := by rw [value, hself]
  refine hi.order.change {.rate id, .price id} ?_ ?_ ?_ ?_
  · intro i hout
    obtain ⟨hr, hp⟩ := not_or.1 hout
    cases i with
    | rate x => exact up_update a fun h => hr (by rw [h])
    | price x => rfl
  · intro i hout
    obtain ⟨hr, hp⟩ := not_or.1 hout
    exact value_update a hr hp
  · rintro i (rfl | rfl) j hj
    · rw [hvr]
      exact habove j hj
    · cases hj
  · intro i hout j hin hij
    obtain ⟨hr, hp⟩ := not_or.1 hout
    obtain ⟨x, rfl, hcases⟩ := up_cases hij
    have hx : x ≠ id := fun h => hr (by rw [h])
    rcases hcases with ⟨-, rfl⟩ | ⟨ht, rfl⟩ | ⟨ht, rfl⟩
    · rcases hin with h | h
      · cases h
      · cases h
        exact absurd rfl hx
    · rcases hin with h | h
      · cases h
      · injection h with h
        rw [h, hvp]
        exact hprice x hx ht h
    · rcases hin with h | h
      · injection h with h
        rw [h, hvr]
        exact hrate x hx ht h
      · cases h

/-- The values of one agent are stored and the others are as they were. -/
theorem Inv.change {s s' : St} (hi : Inv s) {id : String} {a : Rate.Agent} (hagent : s'.rate.agent = update s.rate.agent id a)
    (hdetail : ∃ d, s'.detail = update s.detail id (some d)) (hids : ∀ x ∈ s.ids, x ∈ s'.ids) (hown : id = "1" ∨ id ∈ s'.ids)
    (hrates : ∀ n, typeOf a = some n → 1 ≤ n → Readable a.shareRate) (hprices : typeOf a = some 1 → priceOf a ≠ none)
    (htree : ∀ x, Leveled (update s.rate.agent id a) x)
    (horder : Forest.Ordered (up (update s.rate.agent id a)) (value (update s.rate.agent id a))) : Inv s' := by
  obtain ⟨d, hd⟩ := hdetail
  constructor
  case record =>
    intro x hx
    rw [hd] at hx
    rw [hagent]
    by_cases hxi : x = id
    · rw [hxi, update_self] at hx
      cases hx
    · rw [update_of_ne hxi] at hx ⊢
      exact hi.record x hx
  case ids =>
    rw [hd]
    exact (forall_update_iff _ fun x d => d ≠ none → x = "1" ∨ x ∈ s'.ids).2
      ⟨fun _ => hown, fun x _ hx => (hi.ids x hx).imp_right (hids x)⟩
  case tree =>
    rw [hagent]
    exact htree
  case rates =>
    rw [hagent]
    exact (forall_update_iff _ fun _ a => ∀ n, typeOf a = some n → 1 ≤ n → Readable a.shareRate).2
      ⟨hrates, fun x _ => hi.rates x⟩
  case prices =>
    rw [hagent]
    exact (forall_update_iff _ fun _ a => typeOf a = some 1 → priceOf a ≠ none).2 ⟨hprices, fun x _ => hi.prices x⟩
  case order =>
    rw [hagent]
    exact horder

theorem accessTypes_level {k : Int} (h : toString (k + 1) ∈ accessTypes) : k + 1 ≤ 3 := by
  have hint : ∀ text ∈ accessTypes, ∃ n, int text = some n ∧ n ≤ 3 := by decide +kernel
  obtain ⟨n, hn, h3⟩ := hint _ h
  rw [int_toString_int] at hn
  rw [Option.some.inj hn]
  exact h3

theorem typeOf_blank {a : Rate.Agent} (h : a.type = none) (n : Int) : typeOf a ≠ some n := by
  rw [typeOf, h]
  simp

theorem Inv.created {s s' : St} (hi : Inv s) {idNo : IdNo} {n k : Int} {form : CreateForm} {id : String}
    (h : Created idNo n k form id s s') (hfits : form.Fits s.rate.agent (toString n)) : Inv s' := by
  have hnone := hi.blank h.passes.unknown h.number
  have hblank : (s.rate.agent id).type = none := by rw [hi.record id hnone]; rfl
  -- the parent has a level, and is another agent
  obtain ⟨t, htype, hint⟩ := h.parent
  obtain ⟨m, rfl, h0, h3, hpar⟩ := hi.tree _ t htype
  obtain rfl : m = k := Option.some.inj ((int_toString_int m).symm.trans hint)
  have hne : toString n ≠ id := by
    intro he
    rw [he, hblank] at htype
    cases htype
  have hlevel := accessTypes_level h.type
  have hpt := typeOf_toString htype
  generalize ha : (⟨some (toString (m + 1)), some form.shareRate, some (toString n), some form.unitPrice⟩ : Rate.Agent) = a at *
  have hagent : s'.rate.agent = update s.rate.agent id a := by rw [h.agent, ha]
  have hself : update s.rate.agent id a id = a := update_self ..
  have habove : above (update s.rate.agent id a) id = toString n := by rw [above, hself, ← ha]; rfl
  have hat : typeOf a = some (m + 1) := by rw [← ha]; exact typeOf_toString rfl
  -- nobody stands below a number that is not given away
  have hleaf : ∀ x j, typeOf (s.rate.agent x) = some j → j ≠ 0 → above s.rate.agent x ≠ id := by
    intro x j hx hj he
    have hup := (hi.level hx).2.2 hj
    rw [he] at hup
    exact typeOf_blank hblank _ hup
  refine hi.change hagent h.detail h.ids (.inr h.known) ?rates ?prices ?tree ?order
  case rates =>
    intro j _ _
    rw [← ha]
    exact hfits.readable
  case prices =>
    -- a new company
    intro hx
    rw [hat] at hx
    obtain rfl : m = 0 := by injection hx with hm; omega
    obtain ⟨u, hu, -⟩ := hfits.company hpt
    rw [← ha, priceOf, Option.bind_some, hu]
    exact Option.some_ne_none u
  case tree =>
    intro x t' ht'
    by_cases hxi : x = id
    · rw [hxi, hself, ← ha] at ht'
      refine ⟨m + 1, (Option.some.inj ht').symm, by omega, hlevel, fun _ => ?_⟩
      rw [hxi, habove, update_of_ne hne, htype, Int.add_sub_cancel]
    · rw [update_of_ne hxi] at ht'
      obtain ⟨j, rfl, hj0, hj3, hup⟩ := hi.tree x t' ht'
      refine ⟨j, rfl, hj0, hj3, fun hj => ?_⟩
      rw [above_update a hxi, update_of_ne (hleaf x j (typeOf_toString ht') hj)]
      exact hup hj
  case order =>
    have hrate : rateOf a.shareRate = rateOf (some form.shareRate) := by rw [← ha]
    refine hi.order_update (fun j hj => ?_) (fun x _ hx he => absurd he (hleaf x 3 hx (by decide)))
      fun x _ hx he => absurd he (hleaf x 2 hx (by decide))
    rw [hrate]
    obtain ⟨x, hx, hcases⟩ := up_cases hj
    cases hx
    rw [hself, habove, hat] at hcases
    rcases hcases with ⟨ht, rfl⟩ | ⟨ht, rfl⟩ | ⟨ht, rfl⟩
    · obtain rfl : m = 0 := by injection ht with hm; omega
      obtain ⟨u, hu, hle⟩ := hfits.company hpt
      rw [value, hself, ← ha, priceOf, Option.bind_some, hu]
      exact hle
    · obtain rfl : m = 1 := by injection ht with hm; omega
      obtain ⟨u, hu, hval⟩ := hi.price hpt
      rw [value, update_of_ne hne, hu]
      exact hfits.first hpt u hu
    · obtain rfl : m = 2 := by injection ht with hm; omega
      rw [value, update_of_ne hne]
      exact hfits.second hpt

theorem Inv.modified {s s' : St} (hi : Inv s) {form : ModifyForm} (h : Modified form s s')
    (hfits : (∃ n, typeOf (s.rate.agent form.agentId) = some n ∧ 1 ≤ n) → form.Fits s.rate.agent) : Inv s' := by
  have hagent := h.agent
  generalize ha : ({ s.rate.agent form.agentId with
    shareRate := some form.shareRate, unitPrice := some form.unitPrice } : Rate.Agent) = a at hagent
  have hself : update s.rate.agent form.agentId a form.agentId = a := update_self ..
  -- the agent is there, and stays where he is
  obtain ⟨n, hat⟩ : ∃ n, (s.rate.agent form.agentId).type = some n := by
    cases hn : (s.rate.agent form.agentId).type with
    | some n => exact ⟨n, rfl⟩
    | none =>
      have hno := h.type
      rw [hn] at hno
      exact absurd hno (by decide)
  have htypes : ∀ x, (update s.rate.agent form.agentId a x).type = (s.rate.agent x).type := by
    intro x
    by_cases hx : x = form.agentId
    · rw [hx, hself, ← ha]
    · rw [update_of_ne hx]
  have habove : ∀ x, above (update s.rate.agent form.agentId a) x = above s.rate.agent x := by
    intro x
    by_cases hx : x = form.agentId
    · rw [hx, above, hself, ← ha]
      rfl
    · exact above_update a hx
  have htypeOf : ∀ x, typeOf (update s.rate.agent form.agentId a x) = typeOf (s.rate.agent x) := fun x => by
    rw [typeOf, htypes, typeOf]
  have hown : typeOf a = typeOf (s.rate.agent form.agentId) := by rw [← htypeOf, hself]
  have hrate : rateOf a.shareRate = rateOf (some form.shareRate) := by rw [← ha]
  refine hi.change hagent h.detail (fun x hx => by rw [h.ids]; exact hx) ?own ?rates ?prices ?tree ?order
  case own =>
    rw [h.ids]
    refine hi.ids _ fun hnone => ?_
    rw [hi.record _ hnone] at hat
    cases hat
  case rates =>
    intro j hj hj1
    rw [hown] at hj
    rw [← ha]
    exact (hfits ⟨j, hj, hj1⟩).readable
  case prices =>
    intro hx
    rw [hown] at hx
    obtain ⟨u, hu, -⟩ := (hfits ⟨1, hx, le_refl 1⟩).company hx
    rw [← ha, priceOf, Option.bind_some, hu]
    exact Option.some_ne_none u
  case tree =>
    intro x t ht
    rw [htypes] at ht
    obtain ⟨m, rfl, h0, h3, hup⟩ := hi.tree x t ht
    refine ⟨m, rfl, h0, h3, fun hm => ?_⟩
    rw [habove, htypes]
    exact hup hm
  case order =>
    refine hi.order_update (fun j hj => ?_) (fun x _ hx he => ?_) fun x _ hx he => ?_
    · rw [hrate]
      obtain ⟨x, hx, hcases⟩ := up_cases hj
      cases hx
      rw [htypeOf, habove] at hcases
      rcases hcases with ⟨ht, rfl⟩ | ⟨ht, rfl⟩ | ⟨ht, rfl⟩
      · obtain ⟨u, hu, hle, -⟩ := (hfits ⟨1, ht, le_refl 1⟩).company ht
        rw [value, hself, ← ha, priceOf, Option.bind_some, hu]
        exact hle
      · have hup := (hi.level ht).2.2 (by decide)
        have hne : above s.rate.agent form.agentId ≠ form.agentId := fun he => by rw [he, ht] at hup; cases hup
        obtain ⟨u, hu, -⟩ := hi.price hup
        rw [value, update_of_ne hne, hu]
        exact (hfits ⟨2, ht, by decide⟩).first ht u hu
      · have hup := (hi.level ht).2.2 (by decide)
        have hne : above s.rate.agent form.agentId ≠ form.agentId := fun he => by rw [he, ht] at hup; cases hup
        rw [value, update_of_ne hne]
        exact (hfits ⟨3, ht, by decide⟩).second ht
    · have hup := (hi.level hx).2.2 (by decide)
      rw [he] at hup
      rw [hrate]
      exact (hfits ⟨2, hup, by decide⟩).below x hx he
    · have hup := (hi.level hx).2.2 (by decide)
      rw [he] at hup
      obtain ⟨u, hu, -, hbelow⟩ := (hfits ⟨1, hup, le_refl 1⟩).company hup
      rw [← ha, priceOf, Option.bind_some, hu]
      exact hbelow x hx he

/-! ## Runs -/

theorem Inv.step {s : St} (hi : Inv s) (depth : Nat) (r : Request) (h : Fits r s) : Inv (step depth r s) := by
  cases r with
  | create idNo agent_id form =>
    rcases create_cases depth idNo agent_id form s with hkept | ⟨n, k, id, rfl, hcreated⟩
    · exact hi.kept hkept
    · exact hi.created hcreated (h n rfl hcreated.passes)
  | modify form =>
    rcases modify_cases depth form s with heq | hmodified
    · exact hi.kept (by rw [Agents.step, Request.handler, heq]; exact Kept.refl s)
    · exact hi.modified hmodified (h hmodified.passes)

theorem init_inv : Inv init := by
  have hother : ∀ id, id ≠ "1" → init.rate.agent id = Agents.blank := by
    intro id h
    simp [init, h]
  have hone : init.rate.agent "1" = ⟨some "0", some "0.5", some "0", none⟩ := by
    simp [init]
  have htype : ∀ id n, typeOf (init.rate.agent id) = some n → n = 0 := by
    intro id n h
    by_cases hid : id = "1"
    · rw [hid, hone] at h
      exact Option.some.inj (h.symm.trans (by decide +kernel))
    · rw [hother id hid] at h
      cases h
  constructor
  case record =>
    intro id h
    by_cases hid : id = "1"
    · rw [hid] at h
      exact absurd h (by decide)
    · exact hother id hid
  case ids =>
    intro id h
    by_contra hid
    exact h (by simp [init, (not_or.1 hid).1])
  case tree =>
    intro id t h
    by_cases hid : id = "1"
    · rw [hid, hone] at h
      exact ⟨0, (Option.some.inj h).symm, le_refl 0, by decide, fun h0 => absurd rfl h0⟩
    · rw [hother id hid] at h
      cases h
  case rates =>
    intro id n h hn
    have := htype id n h
    omega
  case prices =>
    intro id h
    exact absurd (htype id 1 h) (by decide)
  case order =>
    intro i j h
    obtain ⟨id, -, ⟨ht, -⟩ | ⟨ht, -⟩ | ⟨ht, -⟩⟩ := up_cases h
    · exact absurd (htype id 1 ht) (by decide)
    · exact absurd (htype id 2 ht) (by decide)
    · exact absurd (htype id 3 ht) (by decide)

theorem readable_some {text : String} {r : ℚ} (h : decimalOf text = some r) (h0 : 0 ≤ r) : Readable (some text) := by
  intro text' ht
  unfold Rate.orZero at ht
  split at ht
  · cases ht
  · cases ht
    exact ⟨r, h, h0⟩

/-- A company that sells at 10, and an agent below it. -/
def demoCompany : Request := .create (fun _ => 0) (some 1) ⟨"company", "pw", "pw", "8", "10", "", "0", "100001"⟩

def demoAgent : Request := .create (fun _ => 0) (some 100001) ⟨"agent", "pw", "pw", "5", "", "8", "0", "100002"⟩

/-- The agent's own agent is granted as much as he is, who is then lowered. -/
def demoLowered : List Request :=
  [demoCompany, demoAgent, .create (fun _ => 0) (some 100002) ⟨"below", "pw", "pw", "5", "", "5", "0", "100003"⟩,
    .modify ⟨"100002", "agent", "", "3", "8", "", ""⟩]

end FishWeb.Agents
