import Mathlib.Algebra.BigOperators.Ring.Finset
import Mathlib.Algebra.Order.BigOperators.Group.List
import Mathlib.Algebra.Order.Ring.Int
import Mathlib.Logic.Function.Basic
/-!
# Tables of counters

Integer fields that change by increments only. A field that was never written is
absent and counts as zero. `net` adds up a list of increments field by field, so
what a run of increments does to a field is read off the list.
-/
open Function (update)

namespace Counters

variable {K : Type} [DecidableEq K]

/-- The fields of a store, each absent or an integer. -/
abbrev Table (K : Type) := K → Option Int

/-- `int(hget(k) or 0)`. -/
def val (t : Table K) (k : K) : Int := (t k).getD 0

/-- `hincrby(k, n)`: an absent field starts from zero. -/
def incrby (t : Table K) (k : K) (n : Int) : Table K := update t k (some (val t k + n))

/-- A list of increments, in order. -/
def incrAll (l : List (K × Int)) (t : Table K) : Table K := l.foldl (fun t p => incrby t p.1 p.2) t

/-- What the increments add to the field `k`. -/
def net (l : List (K × Int)) (k : K) : Int := (l.map fun p => if p.1 = k then p.2 else 0).sum

theorem val_incrby (t : Table K) (k j : K) (n : Int) :
    val (incrby t k n) j = val t j + if k = j then n else 0 := by
  by_cases h : j = k
  · subst h; simp [val, incrby]
  · simp [val, incrby, h, Ne.symm h]

@[simp] theorem incrAll_nil (t : Table K) : incrAll [] t = t := rfl

@[simp] theorem incrAll_cons (p : K × Int) (l : List (K × Int)) (t : Table K) :
    incrAll (p :: l) t = incrAll l (incrby t p.1 p.2) := rfl

theorem incrAll_append (l l' : List (K × Int)) (t : Table K) : incrAll (l ++ l') t = incrAll l' (incrAll l t) :=
  List.foldl_append ..

@[simp] theorem net_nil (k : K) : net [] k = 0 := rfl

@[simp] theorem net_cons (p : K × Int) (l : List (K × Int)) (k : K) :
    net (p :: l) k = (if p.1 = k then p.2 else 0) + net l k := rfl

@[simp] theorem net_append (l l' : List (K × Int)) (k : K) : net (l ++ l') k = net l k + net l' k := by
  simp [net]

/-- Increments change a field by their net amount. -/
theorem val_incrAll (l : List (K × Int)) (t : Table K) (k : K) : val (incrAll l t) k = val t k + net l k := by
  induction l generalizing t with
  | nil => simp
  | cons p l ih => rw [incrAll_cons, ih, val_incrby, net_cons, Int.add_assoc]

theorem net_eq_zero {l : List (K × Int)} {k : K} (h : ∀ p ∈ l, p.1 ≠ k) : net l k = 0 := by
  induction l with
  | nil => rfl
  | cons p l ih =>
    rw [net_cons, if_neg (h p (by simp)), ih fun q hq => h q (by simp [hq]), Int.add_zero]

/-- A field without an increment stays as it is. -/
theorem incrAll_other {l : List (K × Int)} {k : K} (h : ∀ p ∈ l, p.1 ≠ k) (t : Table K) : incrAll l t k = t k := by
  induction l generalizing t with
  | nil => rfl
  | cons p l ih =>
    rw [incrAll_cons, ih fun q hq => h q (List.mem_cons_of_mem p hq)]
    exact Function.update_of_ne (Ne.symm (h p List.mem_cons_self)) _ t

/-- Increments under different keys. -/
theorem incrAll_keyed {α : Type} {key : α → K} (hkey : Function.Injective key) {l : List α} (hnd : l.Nodup)
    (g : α → Int) (t : Table K) {a : α} (ha : a ∈ l) :
    incrAll (l.map fun a => (key a, g a)) t (key a) = some (val t (key a) + g a) := by
  induction l generalizing t with
  | nil => cases ha
  | cons b l ih =>
    obtain ⟨hb, hnd⟩ := List.nodup_cons.1 hnd
    rw [List.map_cons, incrAll_cons]
    rcases List.mem_cons.1 ha with rfl | ha
    · rw [incrAll_other]
      · simp [incrby]
      · intro p hp heq
        obtain ⟨c, hc, rfl⟩ := List.mem_map.1 hp
        exact hb (hkey heq ▸ hc)
    · have hne : key a ≠ key b := fun he => hb (hkey he ▸ ha)
      rw [ih hnd _ ha]
      simp [val, incrby, hne]

theorem net_nonneg {l : List (K × Int)} (h : ∀ p ∈ l, 0 ≤ p.2) (k : K) : 0 ≤ net l k := by
  apply List.sum_nonneg
  intro x hx
  obtain ⟨p, hp, rfl⟩ := List.mem_map.1 hx
  split
  · exact h p hp
  · exact Int.le_refl 0

/-- Increments by one add up to how many there are. -/
theorem net_ones (l : List K) (k : K) : net (l.map (·, 1)) k = l.count k := by
  induction l with
  | nil => rfl
  | cons j l ih =>
    rw [List.map_cons, net_cons, ih, List.count_cons]
    by_cases hj : j = k <;> simp [hj, Int.add_comm]

/-- A sum changes by what changes at the only place that does. -/
theorem sum_change {F : Finset K} {a : K} {f g : K → Int} (ha : a ∈ F) (h : ∀ x, x ≠ a → f x = g x) :
    ∑ x ∈ F, f x = ∑ x ∈ F, g x + (f a - g a) := by
  have hf := Finset.add_sum_erase F f ha
  have hg := Finset.add_sum_erase F g ha
  have hrest : ∑ x ∈ F.erase a, f x = ∑ x ∈ F.erase a, g x :=
    Finset.sum_congr rfl fun x hx => h x (Finset.ne_of_mem_erase hx)
  omega

/-- `n` is the sum of all values, of which finitely many are not zero. -/
def Sums (f : K → Int) (n : Int) : Prop := ∃ F : Finset K, (∀ k ∉ F, f k = 0) ∧ n = ∑ k ∈ F, f k

omit [DecidableEq K] in
theorem sums_zero : Sums (fun _ : K => 0) 0 := ⟨∅, fun _ _ => rfl, rfl⟩

/-- One more for each item of a list, and the sum grows by its length. -/
theorem Sums.add_count {f : K → Int} {n : Int} (h : Sums f n) (l : List K) : Sums (fun k => f k + l.count k) (n + l.length) := by
  obtain ⟨F, hzero, rfl⟩ := h
  refine ⟨F ∪ l.toFinset, fun k hk => ?_, ?_⟩
  · rw [Finset.notMem_union, List.mem_toFinset] at hk
    dsimp only
    rw [hzero k hk.1, List.count_eq_zero_of_not_mem hk.2]
    rfl
  · have hold : ∑ k ∈ F ∪ l.toFinset, f k = ∑ k ∈ F, f k :=
      (Finset.sum_subset Finset.subset_union_left fun k _ hk => hzero k hk).symm
    have hnew : ∑ k ∈ F ∪ l.toFinset, l.count k = l.length := by
      rw [← Multiset.coe_card, ← Multiset.sum_count_eq_card fun k hk => Finset.mem_union_right F (List.mem_toFinset.2 hk)]
      simp only [Multiset.coe_count]
    rw [Finset.sum_add_distrib, hold, ← hnew, Nat.cast_sum]

end Counters
