import Mathlib.Data.List.Infix
import Mathlib.Tactic.Common
/-!
# Patterns

Python's `re` on patterns that are a sequence of character classes, each with how often it
may stand. A matcher tries the lengths of each class in an order (`rests`), the longest
first but for `lazy`; what it can find at all is what the pattern describes (`mem_rests`).
-/

namespace Regex

variable {α : Type}

/-- A class, and how often: once, `?`, `*`, `+` and `*?`. -/
inductive Item (α : Type) where
  | one (p : α → Bool)
  | opt (p : α → Bool)
  | star (p : α → Bool)
  | plus (p : α → Bool)
  | lazy (p : α → Bool)

abbrev Pattern (α : Type) := List (Item α)

/-! ## Matching -/

def oneRests (p : α → Bool) : List α → List (List α)
  | [] => []
  | c :: s => if p c then [s] else []

def starRests (p : α → Bool) : List α → List (List α)
  | [] => [[]]
  | c :: s => if p c then starRests p s ++ [c :: s] else [c :: s]

/-- What can be left behind the item, in the order it is tried. -/
def Item.rests : Item α → List α → List (List α)
  | .one p, s => oneRests p s
  | .opt p, s => oneRests p s ++ [s]
  | .star p, s => starRests p s
  | .plus p, s => (oneRests p s).flatMap (starRests p)
  | .lazy p, s => (starRests p s).reverse

def rests : Pattern α → List α → List (List α)
  | [], s => [s]
  | i :: r, s => (i.rests s).flatMap (rests r)

/-- `r.match(s)`: what is behind the match. -/
def match? (r : Pattern α) (s : List α) : Option (List α) := (rests r s).head?

/-- `r.search(s)`: what is before the first match, the match, and what is behind it. -/
def search (r : Pattern α) : List α → Option (List α × List α × List α)
  | [] => (match? r []).map fun _ => ([], [], [])
  | c :: s =>
    match match? r (c :: s) with
    | some t => some ([], (c :: s).take ((c :: s).length - t.length), t)
    | none => (search r s).map fun x => (c :: x.1, x.2)

/-- What `sub` makes of a text, of which it is to skip so many characters first. -/
def subFrom (r : Pattern α) (repl : List α → List α) : (skip : Nat) → List α → List α
  | _, [] => []
  | skip + 1, _ :: s => subFrom r repl skip s
  | 0, c :: s =>
    match match? r (c :: s) with
    | some t => repl ((c :: s).take ((c :: s).length - t.length)) ++ subFrom r repl (s.length - t.length) s
    | none => c :: subFrom r repl 0 s

/-- `r.sub(repl, s)` of a pattern that does not match the empty text. -/
def sub (r : Pattern α) (repl : List α → List α) (s : List α) : List α := subFrom r repl 0 s

/-- `r.sub(repl, s, 1)` -/
def subOnce (r : Pattern α) (repl : List α → List α) (s : List α) : List α :=
  match search r s with
  | none => s
  | some (a, m, b) => a ++ repl m ++ b

/-! ## What a pattern describes -/

def Item.Matches : Item α → List α → Prop
  | .one p, m => ∃ c, m = [c] ∧ p c = true
  | .opt p, m => m = [] ∨ ∃ c, m = [c] ∧ p c = true
  | .star p, m | .lazy p, m => ∀ c ∈ m, p c = true
  | .plus p, m => m ≠ [] ∧ ∀ c ∈ m, p c = true

def Matches : Pattern α → List α → Prop
  | [], m => m = []
  | i :: r, m => ∃ m₁ m₂, m = m₁ ++ m₂ ∧ i.Matches m₁ ∧ Matches r m₂

/-- What the item accepts. -/
def Item.cls : Item α → α → Bool
  | .one p | .opt p | .star p | .plus p | .lazy p => p

theorem Item.Matches.cls {i : Item α} {m : List α} (h : i.Matches m) : ∀ c ∈ m, i.cls c = true := by
  cases i with
  | one p =>
    obtain ⟨c, rfl, hc⟩ := h
    exact List.forall_mem_singleton.2 hc
  | opt p =>
    rcases h with rfl | ⟨c, rfl, hc⟩
    · simp
    · exact List.forall_mem_singleton.2 hc
  | star p => exact h
  | plus p => exact h.2
  | lazy p => exact h

theorem matches_append {r r' : Pattern α} {m : List α} :
    Matches (r ++ r') m ↔ ∃ m₁ m₂, m = m₁ ++ m₂ ∧ Matches r m₁ ∧ Matches r' m₂ := by
  induction r generalizing m with
  | nil => simp [Matches]
  | cons i r ih =>
    simp only [List.cons_append, Matches, ih]
    constructor
    · rintro ⟨m₁, _, rfl, h₁, m₂, m₃, rfl, h₂, h₃⟩
      exact ⟨m₁ ++ m₂, m₃, by simp, ⟨m₁, m₂, rfl, h₁, h₂⟩, h₃⟩
    · rintro ⟨_, m₃, rfl, ⟨m₁, m₂, rfl, h₁, h₂⟩, h₃⟩
      exact ⟨m₁, m₂ ++ m₃, by simp, h₁, m₂, m₃, rfl, h₂, h₃⟩

/-- What no item accepts is in no match. -/
theorem Matches.not_mem {r : Pattern α} {m : List α} {z : α} (h : Matches r m) (hr : ∀ i ∈ r, i.cls z = false) : z ∉ m := by
  induction r generalizing m with
  | nil =>
    obtain rfl : m = [] := h
    exact List.not_mem_nil
  | cons i r ih =>
    obtain ⟨m₁, m₂, rfl, h₁, h₂⟩ := h
    obtain ⟨hi, hr⟩ := List.forall_mem_cons.1 hr
    rw [List.mem_append, not_or]
    refine ⟨fun hmem => ?_, ih h₂ hr⟩
    rw [h₁.cls z hmem] at hi
    cases hi

/-- Somewhere in the text the pattern matches. -/
def Occurs (r : Pattern α) (s : List α) : Prop := ∃ m, m <:+: s ∧ Matches r m

section Rests
variable {p : α → Bool} {r : Pattern α} {s t : List α}

theorem mem_oneRests : t ∈ oneRests p s ↔ ∃ c, s = c :: t ∧ p c = true := by
  cases s with
  | nil => simp [oneRests]
  | cons c s =>
    rw [oneRests]
    split
    · rename_i hc
      simp only [List.mem_singleton, List.cons.injEq]
      exact ⟨fun h => ⟨c, ⟨rfl, h.symm⟩, hc⟩, fun ⟨_, ⟨_, h⟩, _⟩ => h.symm⟩
    · rename_i hc
      simp only [List.not_mem_nil, List.cons.injEq, false_iff]
      rintro ⟨d, ⟨rfl, -⟩, hd⟩
      exact hc hd

theorem mem_starRests : t ∈ starRests p s ↔ ∃ m, s = m ++ t ∧ ∀ c ∈ m, p c = true := by
  induction s with
  | nil =>
    simp only [starRests, List.mem_singleton, List.nil_eq, List.append_eq_nil_iff]
    exact ⟨fun h => ⟨[], ⟨rfl, h⟩, by simp⟩, fun ⟨_, ⟨_, h⟩, _⟩ => h⟩
  | cons c s ih =>
    -- nothing, or `c` and then something
    have hsplit : (∃ m, c :: s = m ++ t ∧ ∀ d ∈ m, p d = true) ↔
        t = c :: s ∨ p c = true ∧ ∃ m, s = m ++ t ∧ ∀ d ∈ m, p d = true := by
      constructor
      · rintro ⟨m, heq, hm⟩
        cases m with
        | nil => exact .inl heq.symm
        | cons d m =>
          obtain ⟨rfl, hrest⟩ := List.cons.inj heq
          exact .inr ⟨hm c List.mem_cons_self, m, hrest, fun d hd => hm d (List.mem_cons_of_mem c hd)⟩
      · rintro (rfl | ⟨hc, m, rfl, hm⟩)
        · exact ⟨[], rfl, by simp⟩
        · exact ⟨c :: m, rfl, List.forall_mem_cons.2 ⟨hc, hm⟩⟩
    rw [hsplit, starRests]
    split
    · rename_i hc
      simp [ih, hc, or_comm]
    · rename_i hc
      simp [hc]

theorem Item.mem_rests {i : Item α} : t ∈ i.rests s ↔ ∃ m, s = m ++ t ∧ i.Matches m := by
  cases i with
  | one p =>
    rw [Item.rests, mem_oneRests]
    exact ⟨fun ⟨c, h, hc⟩ => ⟨[c], h, c, rfl, hc⟩, fun ⟨m, h, c, hm, hc⟩ => ⟨c, by rw [h, hm]; rfl, hc⟩⟩
  | opt p =>
    rw [Item.rests, List.mem_append, mem_oneRests, List.mem_singleton]
    constructor
    · rintro (⟨c, h, hc⟩ | h)
      · exact ⟨[c], h, .inr ⟨c, rfl, hc⟩⟩
      · exact ⟨[], h.symm, .inl rfl⟩
    · rintro ⟨m, h, rfl | ⟨c, rfl, hc⟩⟩
      · exact .inr h.symm
      · exact .inl ⟨c, h, hc⟩
  | star p => exact mem_starRests
  | lazy p => exact List.mem_reverse.trans mem_starRests
  | plus p =>
    rw [Item.rests, List.mem_flatMap]
    constructor
    · rintro ⟨u, hu, ht⟩
      obtain ⟨c, rfl, hc⟩ := mem_oneRests.1 hu
      obtain ⟨m, rfl, hm⟩ := mem_starRests.1 ht
      exact ⟨c :: m, rfl, by simp, List.forall_mem_cons.2 ⟨hc, hm⟩⟩
    · rintro ⟨m, rfl, hne, hm⟩
      obtain ⟨c, m, rfl⟩ := List.exists_cons_of_ne_nil hne
      obtain ⟨hc, hm⟩ := List.forall_mem_cons.1 hm
      exact ⟨m ++ t, mem_oneRests.2 ⟨c, rfl, hc⟩, mem_starRests.2 ⟨m, rfl, hm⟩⟩

/-- The matcher can leave behind what the pattern leaves. -/
theorem mem_rests : t ∈ rests r s ↔ ∃ m, s = m ++ t ∧ Matches r m := by
  induction r generalizing s with
  | nil => simp [rests, Matches, eq_comm]
  | cons i r ih =>
    simp only [rests, List.mem_flatMap, Item.mem_rests, ih, Matches]
    constructor
    · rintro ⟨u, ⟨m₁, rfl, h₁⟩, m₂, rfl, h₂⟩
      exact ⟨m₁ ++ m₂, by simp, m₁, m₂, rfl, h₁, h₂⟩
    · rintro ⟨m, rfl, m₁, m₂, rfl, h₁, h₂⟩
      exact ⟨m₂ ++ t, ⟨m₁, by simp, h₁⟩, m₂, rfl, h₂⟩

theorem of_match? (h : match? r s = some t) : ∃ m, s = m ++ t ∧ Matches r m := mem_rests.1 (List.mem_of_head? h)

theorem match?_eq_none_iff : match? r s = none ↔ ∀ m t, s = m ++ t → ¬Matches r m := by
  rw [match?, List.head?_eq_none_iff, List.eq_nil_iff_forall_not_mem]
  simp only [mem_rests, not_exists, not_and]
  exact ⟨fun h m t => h t m, fun h t m => h m t⟩

end Rests

/-! ## Searching and replacing -/

section Search
variable {r : Pattern α} {repl : List α → List α} {s t m : List α}

theorem take_match (m t : List α) : (m ++ t).take ((m ++ t).length - t.length) = m := by simp

theorem of_search {a b : List α} (h : search r s = some (a, m, b)) : s = a ++ m ++ b ∧ Matches r m := by
  induction s generalizing a with
  | nil =>
    obtain ⟨t, ht, heq⟩ := Option.map_eq_some_iff.1 h
    obtain ⟨m', hm', hmatch⟩ := of_match? ht
    obtain ⟨rfl, -⟩ := List.append_eq_nil_iff.1 hm'.symm
    cases heq
    exact ⟨rfl, hmatch⟩
  | cons c s ih =>
    rw [search] at h
    split at h
    · rename_i t ht
      obtain ⟨m', hm', hmatch⟩ := of_match? ht
      rw [hm', take_match] at h
      cases h
      exact ⟨hm', hmatch⟩
    · obtain ⟨⟨a', m', b'⟩, hx, heq⟩ := Option.map_eq_some_iff.1 h
      cases heq
      obtain ⟨rfl, hmatch⟩ := ih hx
      exact ⟨rfl, hmatch⟩

theorem search_eq_none_iff : search r s = none ↔ ¬Occurs r s := by
  induction s with
  | nil =>
    rw [search, Option.map_eq_none_iff, match?_eq_none_iff]
    constructor
    · rintro h ⟨m, hm, hmatch⟩
      obtain rfl := List.infix_nil.1 hm
      exact h [] [] rfl hmatch
    · intro h m t heq hmatch
      obtain ⟨rfl, rfl⟩ := List.append_eq_nil_iff.1 heq.symm
      exact h ⟨[], List.infix_refl _, hmatch⟩
  | cons c s ih =>
    rw [search]
    split
    · rename_i t ht
      obtain ⟨m, hm, hmatch⟩ := of_match? ht
      exact iff_of_false (by simp) fun h => h ⟨m, ⟨[], t, by simp [hm]⟩, hmatch⟩
    · rename_i hnone
      rw [Option.map_eq_none_iff, ih, not_iff_not]
      constructor
      · rintro ⟨m, hm, hmatch⟩
        exact ⟨m, hm.trans (List.suffix_cons c s).isInfix, hmatch⟩
      · rintro ⟨m, hm, hmatch⟩
        rcases List.infix_cons_iff.1 hm with ⟨t, ht⟩ | hm
        · exact absurd hmatch (match?_eq_none_iff.1 hnone m t ht.symm)
        · exact ⟨m, hm, hmatch⟩

theorem subFrom_skip (l s : List α) : subFrom r repl l.length (l ++ s) = subFrom r repl 0 s := by
  induction l with
  | nil => rfl
  | cons c l ih => exact ih

/-- A match is replaced. -/
theorem sub_match (hm : m ≠ []) (h : match? r (m ++ t) = some t) : sub r repl (m ++ t) = repl m ++ sub r repl t := by
  obtain ⟨c, m, rfl⟩ := List.exists_cons_of_ne_nil hm
  have hskip : (m ++ t).length - t.length = m.length := by simp
  have htake : (c :: (m ++ t)).take ((c :: (m ++ t)).length - t.length) = c :: m := take_match (c :: m) t
  rw [sub, List.cons_append, subFrom, show match? r (c :: (m ++ t)) = some t from h]
  simp only
  rw [htake, hskip, subFrom_skip]
  rfl

/-- Where nothing matches the character stays. -/
theorem sub_cons {c : α} (h : match? r (c :: s) = none) : sub r repl (c :: s) = c :: sub r repl s := by
  rw [sub, subFrom, h]
  rfl

/-- No match goes on where another one ends. -/
def PrefixFree (r : Pattern α) : Prop :=
  ∀ {m m' t t' : List α}, Matches r m → Matches r m' → m ++ t = m' ++ t' → m = m'

theorem match?_of_matches (hfree : PrefixFree r) (h : Matches r m) : match? r (m ++ t) = some t := by
  cases hmatch : match? r (m ++ t) with
  | none => exact absurd h (match?_eq_none_iff.1 hmatch m t rfl)
  | some t' =>
    obtain ⟨m', heq, h'⟩ := of_match? hmatch
    obtain rfl := hfree h h' heq
    rw [List.append_cancel_left heq]

/-- Where no match lies across, the parts are replaced one by one. -/
theorem sub_append (hfree : PrefixFree r) (hnil : ¬Matches r []) {a b : List α}
    (h : ∀ u v, u ≠ [] → v ≠ [] → u <:+ a → v <+: b → ¬Matches r (u ++ v)) :
    sub r repl (a ++ b) = sub r repl a ++ sub r repl b := by
  have hne : ∀ {m}, Matches r m → m ≠ [] := by
    rintro m hm rfl
    exact hnil hm
  induction hn : a.length using Nat.strong_induction_on generalizing a with
  | _ n ih =>
    subst hn
    have hrest : ∀ {a'}, a' <:+ a → a'.length < a.length → sub r repl (a' ++ b) = sub r repl a' ++ sub r repl b :=
      fun ha hlen => ih _ hlen (fun u v hu hv hua => h u v hu hv (hua.trans ha)) rfl
    rcases a with - | ⟨c, a⟩
    · rfl
    cases hmatch : match? r (c :: a ++ b) with
    | some t =>
      obtain ⟨m, heq, hm⟩ := of_match? hmatch
      -- what matches ends in the first part
      obtain ⟨u, hu, rfl⟩ : ∃ u, c :: a = m ++ u ∧ t = u ++ b := by
        rcases List.append_eq_append_iff.1 heq with ⟨u, rfl, rfl⟩ | ⟨u, hu, ht⟩
        · rcases u with - | ⟨x, u⟩
          · exact ⟨[], by simp, rfl⟩
          · exact absurd hm (h _ _ (by simp) (by simp) List.suffix_rfl (List.prefix_append _ t))
        · exact ⟨u, hu, ht⟩
      have hpos := List.length_pos_iff.2 (hne hm)
      have hparts := hrest (hu ▸ List.suffix_append m u) (by simp [hu, hpos])
      rw [hu, List.append_assoc, sub_match (hne hm) (match?_of_matches hfree hm),
        sub_match (hne hm) (match?_of_matches hfree hm), hparts, List.append_assoc]
    | none =>
      have hnone : match? r (c :: a) = none := by
        rw [match?_eq_none_iff] at hmatch ⊢
        intro m t heq
        exact hmatch m (t ++ b) (by rw [heq, List.append_assoc])
      have hparts := hrest (List.suffix_cons c a) (by simp)
      have hfirst : sub r repl (c :: (a ++ b)) = c :: sub r repl (a ++ b) := sub_cons hmatch
      rw [List.cons_append, hfirst, hparts, sub_cons hnone]
      rfl

end Search

/-! ## Runs of one element -/

/-- The second text is the first with some of its runs of `z` shortened, to one of them each. -/
inductive Thin (z : α) : List α → List α → Prop
  | nil : Thin z [] []
  | cons {s t : List α} (c : α) : Thin z s t → Thin z (c :: s) (c :: t)
  | run {m s t : List α} : m ≠ [] → (∀ c ∈ m, c = z) → Thin z s t → Thin z (m ++ s) (z :: t)

namespace Thin
variable {z : α} {s t u x y : List α}

theorem of_append (h : Thin z (x ++ y) t) : ∃ x' y', t = x' ++ y' ∧ Thin z y y' := by
  generalize hs : x ++ y = s at h
  induction h generalizing x with
  | nil =>
    obtain ⟨rfl, rfl⟩ := List.append_eq_nil_iff.1 hs
    exact ⟨[], [], rfl, .nil⟩
  | @cons s t c h ih =>
    rcases x with - | ⟨d, x⟩
    · exact ⟨[], c :: t, rfl, (show y = c :: s from hs) ▸ .cons c h⟩
    · obtain ⟨x', y', rfl, hy⟩ := ih (List.cons.inj hs).2
      exact ⟨c :: x', y', rfl, hy⟩
  | @run m s t hm hz h ih =>
    rcases List.append_eq_append_iff.1 hs with ⟨l, rfl, rfl⟩ | ⟨l, rfl, rfl⟩
    · rcases l with - | ⟨d, l⟩
      · exact ⟨[z], t, rfl, h⟩
      · -- the rest of the run is one too
        exact ⟨[], z :: t, rfl, .run (by simp) (fun c hc => hz c (List.mem_append_right x hc)) h⟩
    · obtain ⟨x', y', rfl, hy⟩ := ih rfl
      exact ⟨z :: x', y', rfl, hy⟩

theorem append_of (h : Thin z s (x ++ y)) : ∃ x' y', s = x' ++ y' ∧ Thin z y' y := by
  generalize ht : x ++ y = t at h
  induction h generalizing x with
  | nil =>
    obtain ⟨rfl, rfl⟩ := List.append_eq_nil_iff.1 ht
    exact ⟨[], [], rfl, .nil⟩
  | @cons s t c h ih =>
    rcases x with - | ⟨d, x⟩
    · exact ⟨[], c :: s, rfl, (show y = c :: t from ht) ▸ .cons c h⟩
    · obtain ⟨x', y', rfl, hy⟩ := ih (List.cons.inj ht).2
      exact ⟨c :: x', y', rfl, hy⟩
  | @run m s t hm hz h ih =>
    rcases x with - | ⟨d, x⟩
    · exact ⟨[], m ++ s, rfl, (show y = z :: t from ht) ▸ .run hm hz h⟩
    · obtain ⟨x', y', rfl, hy⟩ := ih (List.cons.inj ht).2
      exact ⟨m ++ x', y', (List.append_assoc m x' y').symm, hy⟩

/-- What has no `z` in it stays. -/
theorem append_left (hu : z ∉ u) (h : Thin z (u ++ y) t) : ∃ y', t = u ++ y' ∧ Thin z y y' := by
  induction u generalizing t with
  | nil => exact ⟨t, rfl, h⟩
  | cons c u ih =>
    obtain ⟨hc, hu⟩ : z ≠ c ∧ z ∉ u := by simpa using hu
    generalize hs : c :: u ++ y = s at h
    cases h with
    | nil => cases hs
    | cons d h =>
      obtain ⟨rfl, rfl⟩ := List.cons.inj hs
      obtain ⟨y', rfl, hy⟩ := ih hu h
      exact ⟨y', rfl, hy⟩
    | @run m s t hm hz h =>
      obtain ⟨d, m, rfl⟩ := List.exists_cons_of_ne_nil hm
      obtain rfl := (List.cons.inj hs).1
      exact absurd (hz c List.mem_cons_self).symm hc

theorem left_append (hu : z ∉ u) (h : Thin z s (u ++ y)) : ∃ y', s = u ++ y' ∧ Thin z y' y := by
  induction u generalizing s with
  | nil => exact ⟨s, rfl, h⟩
  | cons c u ih =>
    obtain ⟨hc, hu⟩ : z ≠ c ∧ z ∉ u := by simpa using hu
    generalize ht : c :: u ++ y = t at h
    cases h with
    | nil => cases ht
    | cons d h =>
      obtain ⟨rfl, rfl⟩ := List.cons.inj ht
      obtain ⟨y', rfl, hy⟩ := ih hu h
      exact ⟨y', rfl, hy⟩
    | run hm hz h => exact absurd (List.cons.inj ht).1.symm hc

/-- Two texts without `z`, the one behind the other, are in both or in neither. -/
theorem infix_iff (h : Thin z s t) {v : List α} (hu : z ∉ u) (hv : z ∉ v) :
    (∃ a b c, s = a ++ u ++ b ++ v ++ c) ↔ ∃ a b c, t = a ++ u ++ b ++ v ++ c := by
  constructor
  · rintro ⟨a, b, c, rfl⟩
    simp only [List.append_assoc] at h
    obtain ⟨a', _, rfl, h₁⟩ := h.of_append
    obtain ⟨_, rfl, h₂⟩ := h₁.append_left hu
    obtain ⟨b', _, rfl, h₃⟩ := h₂.of_append
    obtain ⟨c', rfl, -⟩ := h₃.append_left hv
    exact ⟨a', b', c', by simp⟩
  · rintro ⟨a, b, c, rfl⟩
    simp only [List.append_assoc] at h
    obtain ⟨a', _, rfl, h₁⟩ := h.append_of
    obtain ⟨_, rfl, h₂⟩ := h₁.left_append hu
    obtain ⟨b', _, rfl, h₃⟩ := h₂.append_of
    obtain ⟨c', rfl, -⟩ := h₃.left_append hv
    exact ⟨a', b', c', by simp⟩

end Thin

/-- Runs of `z` are replaced by one. -/
theorem thin_sub [BEq α] [LawfulBEq α] (z : α) (s : List α) : Thin z s (sub [.plus (· == z)] (fun _ => [z]) s) := by
  induction hn : s.length using Nat.strong_induction_on generalizing s with
  | _ n ih =>
    subst hn
    rcases s with - | ⟨c, s⟩
    · exact .nil
    cases hmatch : match? [.plus (· == z)] (c :: s) with
    | none =>
      rw [sub_cons hmatch]
      exact .cons c (ih s.length (Nat.lt_succ_self _) s rfl)
    | some t =>
      obtain ⟨m, heq, hm⟩ := of_match? hmatch
      obtain ⟨_, _, rfl, ⟨hne, hz⟩, rfl⟩ := hm
      rw [List.append_nil] at heq
      rw [heq] at hmatch ⊢
      have hshort : t.length < (c :: s).length := by
        have hpos := List.length_pos_iff.2 hne
        rw [heq, List.length_append]
        omega
      rw [sub_match hne hmatch]
      exact .run hne (fun d hd => by simpa using hz d hd) (ih _ hshort t rfl)

end Regex
