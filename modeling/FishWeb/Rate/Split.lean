import FishWeb.Rate.Model
import FishWeb.Lib.Cascade
import Mathlib.Algebra.BigOperators.Ring.List
/-!
# Who keeps what of the price

The agents above a member form a chain that ends at the company (`Chain`). What one
call adds to their records is read off the chain (`amounts`, `run_countRateOfAgent`).
By the data model an agent keeps what he is granted less what the one below is
granted (`Cascade.kept`), which always adds up to the price (`sum_granted`). The two
agree exactly where nobody who is granted less than the price passes anything on.
-/
open Python Prog

namespace FishWeb.Rate

/-! ## The chain above a member -/

/-- An agent with his record. -/
abbrev Link := String × Agent

/-- The agents from `id` up to the company. -/
inductive Chain (s : St) : String → List Link → Link → Prop
  | company {id : String} (h : (s.agent id).type = some "0") : Chain s id [] (id, s.agent id)
  | agent {id : String} {links : List Link} {company : Link} (h : (s.agent id).type ≠ some "0")
      (hp : Chain s (fmt (s.agent id).parent_id) links company) : Chain s id ((id, s.agent id) :: links) company

/-- Who is above: the next agent, or the company. -/
def above : List Link → Link → Link
  | [], company => company
  | link :: _, _ => link

section Chain
variable {s : St} {id : String} {links : List Link} {company : Link}

theorem Chain.above (h : Chain s id links company) : Rate.above links company = (id, s.agent id) := by
  cases h <;> rfl

theorem Chain.company_type (h : Chain s id links company) : company.2.type = some "0" := by
  induction h with
  | company h => exact h
  | agent _ _ ih => exact ih

theorem Chain.type_ne (h : Chain s id links company) : ∀ link ∈ links, link.2.type ≠ some "0" := by
  induction h with
  | company _ => exact fun link hlink => absurd hlink List.not_mem_nil
  | agent h _ ih => exact List.forall_mem_cons.2 ⟨h, ih⟩

/-- The chain of an agent in the chain is what is above him. -/
theorem Chain.of_mem (h : Chain s id links company) {link : Link} (hlink : link ∈ links) :
    ∃ links', Chain s link.1 links' company ∧ links'.length ≤ links.length := by
  induction h with
  | company _ => cases hlink
  | agent h hp ih =>
    rcases List.mem_cons.1 hlink with rfl | hlink
    · exact ⟨_, .agent h hp, Nat.le_refl _⟩
    · obtain ⟨links', hc, hle⟩ := ih hlink
      exact ⟨links', hc, Nat.le_succ_of_le hle⟩

theorem Chain.unique (h : Chain s id links company) {links' : List Link} {company' : Link} (h' : Chain s id links' company') :
    links' = links ∧ company' = company := by
  induction h generalizing links' company' with
  | company h =>
    cases h' with
    | company _ => exact ⟨rfl, rfl⟩
    | agent hne _ => exact absurd h hne
  | agent h hp ih =>
    cases h' with
    | company he => exact absurd he h
    | agent _ hp' =>
      obtain ⟨rfl, rfl⟩ := ih hp'
      exact ⟨rfl, rfl⟩

/-- Nobody is twice in a chain that ends. -/
theorem Chain.nodup (h : Chain s id links company) : (links.map Prod.fst).Nodup := by
  induction h with
  | company _ => exact List.nodup_nil
  | @agent id links company h hp ih =>
    refine List.nodup_cons.2 ⟨fun hmem => ?_, ih⟩
    obtain ⟨link, hlink, rfl⟩ := List.mem_map.1 hmem
    obtain ⟨links', hc, hle⟩ := hp.of_mem hlink
    obtain ⟨rfl, -⟩ := (Chain.agent h hp).unique hc
    exact Nat.not_succ_le_self _ hle

end Chain

/-! ## Rates as numbers -/

/-- The rate that the text gives. Without a text it is zero. -/
def rateOf (rate : Option String) : ℚ := ((orZero rate).bind decimalOf).getD 0

/-- The text is missing, or a decimal between zero and the price. -/
def Decimal (u : ℚ) (rate : Option String) : Prop :=
  ∀ text, orZero rate = some text → ∃ r, decimalOf text = some r ∧ 0 ≤ r ∧ r ≤ u

theorem Decimal.bounds {u : ℚ} {rate : Option String} (h : Decimal u rate) (hu : 0 ≤ u) : 0 ≤ rateOf rate ∧ rateOf rate ≤ u := by
  unfold rateOf
  cases ho : orZero rate with
  | none => exact ⟨le_refl 0, hu⟩
  | some text =>
    obtain ⟨r, hr, hbounds⟩ := h text ho
    rw [Option.bind_some, hr]
    exact hbounds

theorem orZero_orZero (rate : Option String) : orZero (orZero rate) = orZero rate := by
  unfold orZero
  split <;> simp_all

theorem rateOf_orZero (rate : Option String) : rateOf (orZero rate) = rateOf rate := by
  rw [rateOf, orZero_orZero, rateOf]

/-! ## What one call adds -/

/-- The rate that the code goes by. -/
def effective (agent parent : Agent) : ℚ := rateOf (clamp agent.shareRate parent.type parent.shareRate)

/-- What an agent's record gets for a card, where `lower` was taken below. -/
def share (u lower e : ℚ) : ℚ := if u - lower ≤ 0 then 0 else if u - e ≤ 0 then u - lower else e

/-- What is taken then. -/
def taken (u lower e : ℚ) : ℚ := if u - lower ≤ 0 then lower else e

/-- What the records of a chain get for a card, from the bottom to the company. -/
def amounts (u lower : ℚ) : List Link → Link → List ℚ
  | [], _ => [if u - lower > 0 then u - lower else 0]
  | link :: links, company =>
    share u lower (effective link.2 (above links company).2) ::
      amounts u (taken u lower (effective link.2 (above links company).2)) links company

/-- The record of an agent for a sale. -/
def tableOf (date unitPrice : String) (link : Link) : RateTable :=
  if link.2.type = some "0" then .company link.1 date else .agent link.1 (fmt link.2.shareRate) unitPrice date

/-- What a run has added to the total of a record. -/
def added (s s' : St) (table : RateTable) : ℚ := (s'.record table).amount .rateTotal - (s.record table).amount .rateTotal

/-- The sales that one call records, the company's first. -/
def sales (date unitPrice : String) (n : Int) (u lower : ℚ) : List Link → Link → List Sale
  | [], company => [⟨tableOf date unitPrice company, n, (if u - lower > 0 then u - lower else 0) * n⟩]
  | link :: links, company =>
    sales date unitPrice n u (taken u lower (effective link.2 (above links company).2)) links company ++
      [⟨tableOf date unitPrice link, n, share u lower (effective link.2 (above links company).2) * n⟩]

theorem tables_sales (date unitPrice : String) (n : Int) (u lower : ℚ) (links : List Link) (company : Link) :
    (sales date unitPrice n u lower links company).map Sale.table =
      ((links ++ [company]).map (tableOf date unitPrice)).reverse := by
  induction links generalizing lower with
  | nil => rfl
  | cons link links ih =>
    rw [sales, List.map_append, ih]
    exact List.reverse_cons.symm

theorem number_sales (date unitPrice : String) (n : Int) (u lower : ℚ) (links : List Link) (company : Link) :
    ∀ x ∈ sales date unitPrice n u lower links company, x.number = n := by
  induction links generalizing lower with
  | nil =>
    intro x hx
    obtain rfl := List.mem_singleton.1 hx
    rfl
  | cons link links ih =>
    intro x hx
    rcases List.mem_append.1 hx with hx | hx
    · exact ih _ x hx
    · obtain rfl := List.mem_singleton.1 hx
      rfl

/-- What a run has done to the records: the totals of `tables` have grown by `xs`, and the other records are as they were. -/
structure Recorded (s s' : St) (tables : List RateTable) (xs : List ℚ) : Prop where
  agent : s'.agent = s.agent
  added : tables.map (added s s') = xs
  others : ∀ table, table ∉ tables → s'.record table = s.record table

theorem recorded_nil (s : St) : Recorded s s [] [] := ⟨rfl, rfl, fun _ _ => rfl⟩

/-- The pipeline adds `x` to the total, and records `n` cards. -/
structure Adds (pipe : List Write) (n : Int) (x : ℚ) : Prop where
  total : ∀ r, (pipe.foldl Write.apply r).amount .rateTotal = r.amount .rateTotal + x
  sale : (pipe.map Write.number).sum = n ∧ (pipe.map Write.total).sum = x

/-- One more record, by a pipeline of its own. -/
theorem Recorded.execute {s s' : St} {tables : List RateTable} {xs : List ℚ} (h : Recorded s s' tables xs) {table : RateTable}
    (hnew : table ∉ tables) {pipe : List Write} {n : Int} {x : ℚ} (hx : Adds pipe n x) :
    ∃ s'', Ran (send (.execute table pipe)) s' (.ok ()) s'' [Sale.mk table n x] ∧
      Recorded s s'' (table :: tables) (x :: xs) := by
  refine ⟨{ s' with record := Function.update s'.record table (pipe.foldl Write.apply (s'.record table)) }, ⟨rfl, ?_⟩,
    h.agent, ?_, ?_⟩
  · show [Sale.mk table _ _] = _
    rw [hx.sale.1, hx.sale.2]
  · rw [List.map_cons, ← h.added]
    refine congrArg₂ _ ?_ (List.map_congr_left fun t ht => ?_)
    · show (Function.update s'.record table _ table).amount .rateTotal - _ = _
      rw [Function.update_self, hx.total, h.others table hnew, add_sub_cancel_left]
    · have hne : t ≠ table := fun he => hnew (by rw [← he]; exact ht)
      show (Function.update s'.record table _ t).amount .rateTotal - _ = _
      rw [Function.update_of_ne hne]
      rfl
  · intro t ht
    obtain ⟨hne, ht⟩ := not_or.1 (fun h => ht (List.mem_cons.2 h))
    show Function.update s'.record table _ t = _
    rw [Function.update_of_ne hne]
    exact h.others t ht

theorem fst_of_tableOf {date unitPrice : String} {a b : Link} (h : tableOf date unitPrice a = tableOf date unitPrice b) :
    a.1 = b.1 := by
  unfold tableOf at h
  split at h <;> split at h <;> injection h

/-- The record of an agent is of none above him. -/
theorem tableOf_notMem {s : St} {id : String} {links : List Link} {company : Link} (date unitPrice : String)
    (h : Chain s id ((id, s.agent id) :: links) company) :
    tableOf date unitPrice (id, s.agent id) ∉ (links ++ [company]).map (tableOf date unitPrice) := by
  rw [List.mem_map]
  rintro ⟨link, hlink, he⟩
  have hid : link.1 = id := fst_of_tableOf he
  rcases List.mem_append.1 hlink with hlink | hlink
  · exact (List.nodup_cons.1 h.nodup).1 (List.mem_map.2 ⟨link, hlink, hid⟩)
  · -- the company is of another type
    obtain rfl := List.mem_singleton.1 hlink
    have htype := h.type_ne _ List.mem_cons_self
    have hcompany := h.company_type
    unfold tableOf at he
    rw [if_pos hcompany, if_neg htype] at he
    cases he

/-- The text, if there is one, is a decimal. -/
def Numeric (rate : Option String) : Prop := ∀ text, orZero rate = some text → ∃ r, decimalOf text = some r

theorem Numeric.toFloat {rate : Option String} (h : Numeric rate) : Rate.toFloat (orZero rate) = .ret (rateOf rate) := by
  unfold rateOf
  cases ho : orZero rate with
  | none => rfl
  | some text =>
    obtain ⟨r, hr⟩ := h text ho
    rw [Rate.toFloat, Option.bind_some, hr]
    rfl

/-- The rates that the call reads are decimals. Where nothing is left of the price it reads none. -/
def Readable (u : ℚ) : ℚ → List Link → Link → Prop
  | _, [], _ => True
  | lower, link :: links, company =>
    (¬u - lower ≤ 0 → Numeric (clamp link.2.shareRate (above links company).2.type (above links company).2.shareRate)) ∧
      Readable u (taken u lower (effective link.2 (above links company).2)) links company

theorem orZero_clamp (a b c : Option String) : orZero (clamp a b c) = clamp a b c := orZero_orZero _

theorem readable_of_decimal {u : ℚ} {links : List Link} {company : Link} (hrates : ∀ link ∈ links, Decimal u link.2.shareRate)
    (hcompany : company.2.type = some "0") (lower : ℚ) : Readable u lower links company := by
  induction links generalizing lower with
  | nil => trivial
  | cons link links ih =>
    obtain ⟨hlink, hlinks⟩ := List.forall_mem_cons.1 hrates
    refine ⟨fun _ text ht => ?_, ih hlinks _⟩
    rw [orZero_clamp] at ht
    unfold clamp at ht
    split at ht
    · next hc =>
      cases links with
      | nil => exact absurd hcompany hc.1
      | cons parent links =>
        obtain ⟨r, hr, -⟩ := hlinks parent List.mem_cons_self text ht
        exact ⟨r, hr⟩
    · obtain ⟨r, hr, -⟩ := hlink text ht
      exact ⟨r, hr⟩

/-- A call for what is above, and the pipeline after it. -/
theorem ran_execute {s s' : St} {table : RateTable} {tables : List RateTable} {xs : List ℚ} {pipe : List Write} {n : Int}
    {x : ℚ} {p : Handler Unit} {l : List Sale} (hran : Ran p s (.ok ()) s' l) (hrec : Recorded s s' tables xs)
    (hnew : table ∉ tables) (hx : Adds pipe n x) :
    ∃ s'', Ran (p >>= fun _ => send (.execute table pipe)) s (.ok ()) s'' (l ++ [⟨table, n, x⟩]) ∧
      Recorded s s'' (table :: tables) (x :: xs) := by
  obtain ⟨s'', hexecute, hrec⟩ := hrec.execute hnew hx
  exact ⟨s'', hran.bind hexecute, hrec⟩

/-- One call for a sale returns, records the sale along the chain, and adds the amounts of the chain. -/
theorem ran_countRateOfAgent (date : String) (n : Int) {price : String} {u : ℚ} (hprice : decimalOf price = some u) {s : St}
    {id : String} {links : List Link} {company : Link} (h : Chain s id links company) {lower : Option String}
    (hrates : Readable u (rateOf lower) links company) (hlow : toFloat lower = .ret (rateOf lower)) {depth : Nat}
    (hdepth : links.length < depth) :
    ∃ s', Ran (countRateOfAgent date n (some price) depth id lower) s (.ok ()) s'
        (sales date price n u (rateOf lower) links company) ∧
      Recorded s s' ((links ++ [company]).map (tableOf date price)) ((amounts u (rateOf lower) links company).map (· * (n : ℚ))) := by
  have hfloat : priceFloat (some price) = .ret u := by rw [priceFloat, hprice]; rfl
  induction h generalizing depth lower with
  | @company id h =>
    obtain ⟨depth, rfl⟩ := Nat.exists_eq_succ_of_ne_zero (Nat.ne_of_gt (Nat.lt_of_le_of_lt (Nat.zero_le _) hdepth))
    have htable : tableOf date price (id, s.agent id) = .company id date := if_pos h
    have hadds : Adds ([.hincrbyNumber n, .hsetUnitPrice price, .hsetRate (fmt (s.agent id).shareRate)] ++
        if u - rateOf lower > 0 then [.hincrbyfloat .rateTotal ((u - rateOf lower) * n)] else [])
        n ((if u - rateOf lower > 0 then u - rateOf lower else 0) * n) := by
      split <;> constructor <;> simp [Write.apply, Write.number, Write.total]
    obtain ⟨s', hran, hrec⟩ := (recorded_nil s).execute (List.not_mem_nil : RateTable.company id date ∉ []) hadds
    simp only [List.nil_append, List.map_cons, List.map_nil, htable, amounts, sales]
    refine ⟨s', ?_, hrec⟩
    rw [countRateOfAgent, hfloat, hlow]
    refine ran_call_bind rfl ?_
    dsimp only [Exec.exec, ret_bind]
    rw [if_pos h, if_pos h]
    exact hran
  | @agent id links company h hp ih =>
    obtain ⟨depth, rfl⟩ := Nat.exists_eq_succ_of_ne_zero (Nat.ne_of_gt (Nat.lt_of_le_of_lt (Nat.zero_le _) hdepth))
    have htable : tableOf date price (id, s.agent id) = .agent id (fmt (s.agent id).shareRate) price date := if_neg h
    have hnew := tableOf_notMem date price (.agent h hp)
    rw [htable] at hnew
    have hdepth : links.length < depth := Nat.lt_of_succ_lt_succ hdepth
    obtain ⟨hown, hrest⟩ := hrates
    simp only [List.cons_append, List.map_cons, htable, amounts, sales]
    suffices hcall : ∃ s', Ran (_ : Handler Unit) s (.ok ()) s' _ ∧ Recorded s s' _ _ by
      obtain ⟨s', hran, hrec⟩ := hcall
      refine ⟨s', ?_, hrec⟩
      rw [countRateOfAgent, hfloat, hlow]
      refine ran_call_bind rfl ?_
      dsimp only [Exec.exec, ret_bind]
      rw [if_neg h, if_neg h]
      exact hran
    by_cases hall : u - rateOf lower ≤ 0
    · -- nothing is left of the price: the call above goes on with the same rate
      rw [if_pos hall]
      have htaken : taken u (rateOf lower) (effective (s.agent id) (above links company).2) = rateOf lower := if_pos hall
      have hshare : share u (rateOf lower) (effective (s.agent id) (above links company).2) = 0 := if_pos hall
      rw [htaken] at hrest ⊢
      rw [hshare]
      obtain ⟨s', hran, hrec⟩ := ih hrest hlow hdepth
      exact ran_execute hran hrec hnew ⟨fun r => by simp [Write.apply], by simp [Write.number, Write.total]⟩
    · -- the call above goes on with the rate of this agent
      rw [if_neg hall]
      have hrate := (hown hall).toFloat
      rw [orZero_clamp] at hrate
      rw [effective, hp.above] at *
      generalize he : clamp (s.agent id).shareRate (s.agent (fmt (s.agent id).parent_id)).type
        (s.agent (fmt (s.agent id).parent_id)).shareRate = e at hrate hrest ⊢
      have htaken : taken u (rateOf lower) (rateOf e) = rateOf e := if_neg hall
      have hshare : share u (rateOf lower) (rateOf e) = if u - rateOf e ≤ 0 then u - rateOf lower else rateOf e := if_neg hall
      rw [htaken] at hrest ⊢
      rw [hshare]
      obtain ⟨s', hran, hrec⟩ := ih hrest hrate hdepth
      suffices hcall : ∃ s', Ran (_ : Handler Unit) s (.ok ()) s' _ ∧ Recorded s s' _ _ by
        obtain ⟨s', hran, hrec⟩ := hcall
        refine ⟨s', ?_, hrec⟩
        refine ran_call_bind rfl ?_
        dsimp only [Exec.exec, ret_bind]
        rw [he, hrate]
        exact hran
      dsimp only [ret_bind]
      split
      · exact ran_execute hran hrec hnew ⟨fun r => by simp [Write.apply], by simp [Write.number, Write.total]⟩
      · exact ran_execute hran hrec hnew ⟨fun r => by simp [Write.apply], by simp [Write.number, Write.total]⟩

/-! ## What the data model says -/

/-- What an agent is granted: his rate, but no more than his parent's if that is not the company. -/
def grant (agent parent : Agent) : ℚ :=
  if parent.type = some "0" then rateOf agent.shareRate else min (rateOf agent.shareRate) (rateOf parent.shareRate)

/-- What the chain is granted, from the bottom. The company has the price. -/
def granted (u : ℚ) : List Link → Link → List ℚ
  | [], _ => [u]
  | link :: links, company => grant link.2 (above links company).2 :: granted u links company

theorem granted_ne_nil (u : ℚ) (links : List Link) (company : Link) : granted u links company ≠ [] := by
  cases links <;> exact List.cons_ne_nil _ _

theorem getLast_granted (u : ℚ) (links : List Link) (company : Link) :
    (granted u links company).getLast (granted_ne_nil u links company) = u := by
  induction links with
  | nil => rfl
  | cons link links ih => exact (List.getLast_cons (granted_ne_nil u links company)).trans ih

/-- What is kept of the grants adds up to the price. -/
theorem sum_granted (u : ℚ) (links : List Link) (company : Link) : (Cascade.kept 0 (granted u links company)).sum = u := by
  rw [Cascade.sum_kept 0 (granted_ne_nil u links company), getLast_granted, sub_zero]

/-- The texts of the two rates compare as the numbers do. -/
def Compares (agent parent : Agent) : Prop :=
  parent.type = some "0" ∨
    if greater agent.shareRate parent.shareRate then rateOf parent.shareRate ≤ rateOf agent.shareRate
    else rateOf agent.shareRate ≤ rateOf parent.shareRate

/-- The rates of every two neighbours compare as numbers, and whoever is granted less than the price passes nothing on. -/
def Fair (u : ℚ) : ℚ → List Link → Link → Prop
  | _, [], _ => True
  | below, link :: links, company => Compares link.2 (above links company).2 ∧
      (grant link.2 (above links company).2 = u ∨ below = 0) ∧ Fair u (grant link.2 (above links company).2) links company

theorem effective_eq (agent parent : Agent) : effective agent parent =
    if parent.type ≠ some "0" ∧ greater agent.shareRate parent.shareRate then rateOf parent.shareRate
    else rateOf agent.shareRate := by
  unfold effective clamp
  rw [rateOf_orZero]
  split <;> rfl

theorem grant_le_effective (agent parent : Agent) : grant agent parent ≤ effective agent parent := by
  rw [effective_eq, grant]
  by_cases ht : parent.type = some "0"
  · rw [if_pos ht, if_neg fun h => h.1 ht]
  · rw [if_neg ht]
    split
    · exact min_le_right _ _
    · exact min_le_left _ _

theorem effective_eq_grant_iff (agent parent : Agent) : effective agent parent = grant agent parent ↔ Compares agent parent := by
  rw [effective_eq, grant, Compares]
  by_cases ht : parent.type = some "0"
  · rw [if_pos ht, if_neg fun h => h.1 ht]
    exact iff_of_true rfl (.inl ht)
  · cases greater agent.shareRate parent.shareRate with
    | true => simp [ht]
    | false => simp [ht]

/-- A grant is between zero and the price. -/
theorem grant_bounds {u : ℚ} (hu : 0 ≤ u) {links : List Link} {company link : Link} (hlink : Decimal u link.2.shareRate)
    (hrates : ∀ link ∈ links, Decimal u link.2.shareRate) (hcompany : company.2.type = some "0") :
    0 ≤ grant link.2 (above links company).2 ∧ effective link.2 (above links company).2 ≤ u := by
  have hown := hlink.bounds hu
  have hparent : (above links company).2.type ≠ some "0" →
      0 ≤ rateOf (above links company).2.shareRate ∧ rateOf (above links company).2.shareRate ≤ u := by
    intro hne
    cases links with
    | nil => exact absurd hcompany hne
    | cons parent links => exact (hrates parent List.mem_cons_self).bounds hu
  rw [effective_eq, grant]
  by_cases ht : (above links company).2.type = some "0"
  · rw [if_pos ht, if_neg fun h => h.1 ht]
    exact hown
  · rw [if_neg ht]
    refine ⟨le_min hown.1 (hparent ht).1, ?_⟩
    split
    · exact (hparent ht).2
    · exact hown.2

/-- The amounts are what is kept of the grants if and only if the chain is fair. -/
theorem amounts_eq_iff {u : ℚ} {links : List Link} {company : Link} (hrates : ∀ link ∈ links, Decimal u link.2.shareRate)
    (hcompany : company.2.type = some "0") {below : ℚ} (hbelow : 0 ≤ below) (hle : below ≤ u) :
    amounts u below links company = Cascade.kept below (granted u links company) ↔ Fair u below links company := by
  induction links generalizing below with
  | nil =>
    refine iff_of_true ?_ trivial
    rw [amounts, granted, Cascade.kept_cons, Cascade.kept_nil]
    split
    · rfl
    · have : u - below = 0 := by linarith
      rw [this]
  | cons link links ih =>
    obtain ⟨hlink, hlinks⟩ := List.forall_mem_cons.1 hrates
    obtain ⟨hg, he⟩ := grant_bounds (hbelow.trans hle) hlink hlinks hcompany
    have hge := grant_le_effective link.2 (above links company).2
    rw [amounts, granted, Cascade.kept_cons, List.cons.injEq, Fair, ← effective_eq_grant_iff, share, taken]
    have ih := @ih hlinks
    generalize grant link.2 (above links company).2 = g at *
    generalize effective link.2 (above links company).2 = e at *
    by_cases hall : u - below ≤ 0
    · -- the price is taken below, so nothing may be granted but the price
      obtain rfl : below = u := by linarith
      rw [if_pos hall, if_pos hall]
      constructor
      · rintro ⟨hzero, htail⟩
        obtain rfl : g = below := by linarith
        exact ⟨by linarith, .inl rfl, (ih hbelow (le_refl _)).1 htail⟩
      · rintro ⟨heq, hor, hfair⟩
        obtain rfl : g = below := by rcases hor with h | h <;> linarith
        exact ⟨by linarith, (ih hbelow (le_refl _)).2 hfair⟩
    · rw [if_neg hall, if_neg hall]
      by_cases htop : u - e ≤ 0
      · -- he takes what is left
        obtain rfl : e = u := by linarith
        rw [if_pos htop]
        constructor
        · rintro ⟨hzero, htail⟩
          obtain rfl : g = e := by linarith
          exact ⟨rfl, .inl rfl, (ih hg (le_refl _)).1 htail⟩
        · rintro ⟨rfl, -, hfair⟩
          exact ⟨rfl, (ih hg (le_refl _)).2 hfair⟩
      · -- nothing is taken off for the one below
        rw [if_neg htop]
        constructor
        · rintro ⟨hshare, htail⟩
          obtain rfl : g = e := by linarith
          exact ⟨rfl, .inr (by linarith), (ih hg he).1 htail⟩
        · rintro ⟨rfl, hor, hfair⟩
          refine ⟨?_, (ih hg he).2 hfair⟩
          rcases hor with h | h <;> linarith

theorem amounts_nonneg {u : ℚ} {links : List Link} {company : Link} (hrates : ∀ link ∈ links, Decimal u link.2.shareRate)
    (hcompany : company.2.type = some "0") {below : ℚ} (hbelow : 0 ≤ below) (hle : below ≤ u) :
    ∀ x ∈ amounts u below links company, 0 ≤ x := by
  induction links generalizing below with
  | nil =>
    intro x hx
    obtain rfl := List.mem_singleton.1 hx
    split <;> linarith
  | cons link links ih =>
    obtain ⟨hlink, hlinks⟩ := List.forall_mem_cons.1 hrates
    obtain ⟨hg, he⟩ := grant_bounds (hbelow.trans hle) hlink hlinks hcompany
    have hge := grant_le_effective link.2 (above links company).2
    refine List.forall_mem_cons.2 ⟨?_, ih hlinks ?_ ?_⟩
    · unfold share
      split
      · exact le_refl 0
      · split <;> linarith
    · unfold taken
      split <;> linarith
    · unfold taken
      split <;> linarith

/-! ## The price -/

/-- The price of the first agent up the chain who is of type neither 2 nor 3. -/
def priceOf : List Link → Link → Option String
  | [], company => company.2.unitPrice
  | link :: links, company =>
    if link.2.type = some "2" ∨ link.2.type = some "3" then priceOf links company else link.2.unitPrice

theorem ran_getCardMoney {s : St} {id : String} {links : List Link} {company : Link} (h : Chain s id links company)
    {depth : Nat} (hdepth : links.length < depth) :
    Ran (getCardMoney depth id) s (.ok (priceOf links company)) s ([] : List Sale) := by
  induction h generalizing depth with
  | @company id h =>
    obtain ⟨depth, rfl⟩ := Nat.exists_eq_succ_of_ne_zero (Nat.ne_of_gt (Nat.lt_of_le_of_lt (Nat.zero_le _) hdepth))
    refine ran_call_bind rfl ?_
    dsimp only [Exec.exec]
    rw [if_neg (by rw [h]; decide)]
    exact ran_ret _ s
  | @agent id links company h hp ih =>
    obtain ⟨depth, rfl⟩ := Nat.exists_eq_succ_of_ne_zero (Nat.ne_of_gt (Nat.lt_of_le_of_lt (Nat.zero_le _) hdepth))
    refine ran_call_bind rfl ?_
    dsimp only [Exec.exec]
    rw [priceOf]
    split
    · exact ih (Nat.lt_of_succ_lt_succ hdepth)
    · exact ran_ret _ s

/-! ## One call -/

/-- The call has split the price of the cards: no total has fallen, they have grown by the price together, and each by
what the agent is granted less what he passes on. -/
structure Splits (u : ℚ) (n : Int) (s s' : St) (tables : List RateTable) (grants : List ℚ) : Prop where
  nonneg : ∀ table ∈ tables, 0 ≤ added s s' table
  sum : (tables.map (added s s')).sum = u * n
  each : tables.map (added s s') = (Cascade.kept 0 grants).map (· * (n : ℚ))

/-- An agent with a share of 1, under one with a share of 2, under the company. -/
def demo : St where
  agent := fun id =>
    if id = "3" then ⟨some "2", some "1", some "2", none⟩
    else if id = "2" then ⟨some "1", some "2", some "1", some "3"⟩
    else if id = "1" then ⟨some "0", none, none, none⟩
    else ⟨none, none, none, none⟩
  record := fun _ => ⟨0, none, none, fun _ => 0⟩

def demoLinks : List Link := [("3", demo.agent "3"), ("2", demo.agent "2")]

theorem demo_chain : Chain demo "2" [("2", demo.agent "2")] ("1", demo.agent "1") :=
  .agent (by decide) (.company rfl)

theorem demo_price : decimalOf "3" = some 3 := by decide +kernel

theorem demo_decimal : ∀ link ∈ demoLinks, Decimal 3 link.2.shareRate := by
  have h : ∀ rate : String, (∃ r, decimalOf rate = some r ∧ 0 ≤ r ∧ r ≤ 3) → Decimal 3 (some rate) := by
    intro rate hr text ht
    unfold orZero at ht
    split at ht
    · cases ht
    · rwa [← Option.some.inj ht]
  intro link hlink
  rcases List.mem_cons.1 hlink with rfl | hlink
  · exact h "1" ⟨1, by decide +kernel, by norm_num, by norm_num⟩
  · obtain rfl := List.mem_singleton.1 hlink
    exact h "2" ⟨2, by decide +kernel, by norm_num, by norm_num⟩

end FishWeb.Rate
