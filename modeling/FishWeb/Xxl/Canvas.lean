import Mathlib.Data.List.Nodup
import Mathlib.Tactic.Common
/-!
# The match-3 board

The board of `model/xiaoxiaole_db_define.py` and the straight segments on it. A canvas
maps a cell (row, column) to the type of its piece, with 0 for a free cell.
-/

namespace FishWeb.Xxl

def HEIGHT : Nat := 8
def WIDTH : Nat := 8
def TYPECount : Nat := 5

abbrev Point := Nat × Nat

abbrev Canvas := Point → Nat

/-- `X` runs over the rows of a column, `Y` over the columns of a row. -/
inductive Axis where
  | X
  | Y
  deriving DecidableEq, Repr

/-- The cell `i` of the line `c` along the axis. -/
def Axis.cell : Axis → Nat → Nat → Point
  | .X, c, i => (i, c)
  | .Y, c, i => (c, i)

/-- The lines along the axis, and the cells of each. -/
def SIZE : Nat := 8

theorem Axis.cell_injective (a : Axis) (c : Nat) : Function.Injective (a.cell c) := by
  cases a <;> exact fun i j h => by simpa [Axis.cell] using h

/-- `n` cells of a line from its cell `i` on. -/
def segment (a : Axis) (c i n : Nat) : List Point := (List.range' i n).map (a.cell c)

@[simp] theorem length_segment (a : Axis) (c i n : Nat) : (segment a c i n).length = n := by simp [segment]

theorem mem_segment {a : Axis} {c i n : Nat} {p : Point} :
    p ∈ segment a c i n ↔ ∃ j, i ≤ j ∧ j < i + n ∧ a.cell c j = p := by
  simp only [segment, List.mem_map, List.mem_range'_1, and_assoc]

theorem nodup_segment (a : Axis) (c i n : Nat) : (segment a c i n).Nodup :=
  (List.nodup_range' 1).map (a.cell_injective c)

theorem cell_mem_segment {a : Axis} {c i j n : Nat} : a.cell c j ∈ segment a c i n ↔ i ≤ j ∧ j < i + n := by
  rw [mem_segment]
  exact ⟨fun ⟨k, hik, hk, hc⟩ => a.cell_injective c hc ▸ ⟨hik, hk⟩, fun h => ⟨j, h.1, h.2, rfl⟩⟩

theorem Axis.cell_eq_iff (a : Axis) {c c' i i' : Nat} : a.cell c i = a.cell c' i' ↔ c = c' ∧ i = i' := by
  cases a
  · simp [Axis.cell, and_comm]
  · simp [Axis.cell]

/-- Every cell is on one line of the axis. -/
theorem Axis.exists_cell (a : Axis) (p : Point) : ∃ c i, p = a.cell c i := by
  cases a
  · exact ⟨p.2, p.1, rfl⟩
  · exact ⟨p.1, p.2, rfl⟩

/-! ## Free segments -/

/-- The cells from `i` to `i + n` of the line are on the board, and free. -/
structure Free (table : Canvas) (a : Axis) (c i n : Nat) : Prop where
  line : c < SIZE
  inside : i + n ≤ SIZE
  free : ∀ j, i ≤ j → j < i + n → table (a.cell c j) = 0

/-- A free segment that cannot be extended. -/
structure Maximal (table : Canvas) (a : Axis) (c i n : Nat) : Prop extends Free table a c i n where
  pos : 0 < n
  first : i = 0 ∨ table (a.cell c (i - 1)) ≠ 0
  last : i + n = SIZE ∨ table (a.cell c (i + n)) ≠ 0

section Free
variable {table : Canvas} {a : Axis} {c i n : Nat}

theorem Free.mono (h : Free table a c i n) {j m : Nat} (hj : i ≤ j) (hm : j + m ≤ i + n) : Free table a c j m where
  line := h.line
  inside := Nat.le_trans hm h.inside
  free k hjk hk := h.free k (Nat.le_trans hj hjk) (Nat.lt_of_lt_of_le hk hm)

/-- A free segment is part of a maximal one. -/
theorem Free.exists_maximal (h : Free table a c i n) (hn : 0 < n) :
    ∃ j m, Maximal table a c j m ∧ j ≤ i ∧ i + n ≤ j + m := by
  -- extended backwards as far as it goes, and then forwards
  have hback : ∀ i n, Free table a c i n → 0 < n → ∃ j m, Free table a c j m ∧ j ≤ i ∧ i + n = j + m ∧
      (j = 0 ∨ table (a.cell c (j - 1)) ≠ 0) := by
    intro i
    induction i with
    | zero => exact fun n h _ => ⟨0, n, h, Nat.le_refl 0, rfl, .inl rfl⟩
    | succ i ih =>
      intro n h hn
      by_cases hi : table (a.cell c i) = 0
      · have h' : Free table a c i (n + 1) := ⟨h.line, by have := h.inside; omega, fun k hik hk => by
          by_cases hki : k = i
          · rw [hki, hi]
          · exact h.free k (by omega) (by omega)⟩
        obtain ⟨j, m, hf, hj, hm, hfirst⟩ := ih (n + 1) h' (by omega)
        exact ⟨j, m, hf, by omega, by omega, hfirst⟩
      · exact ⟨i + 1, n, h, Nat.le_refl _, rfl, .inr hi⟩
  have hahead : ∀ d i n, SIZE - (i + n) = d → Free table a c i n → ∃ m, n ≤ m ∧ Free table a c i m ∧
      (i + m = SIZE ∨ table (a.cell c (i + m)) ≠ 0) := by
    intro d
    induction d with
    | zero =>
      intro i n hd h
      exact ⟨n, Nat.le_refl n, h, .inl (by have := h.inside; omega)⟩
    | succ d ih =>
      intro i n hd h
      by_cases hi : table (a.cell c (i + n)) = 0
      · have h' : Free table a c i (n + 1) := ⟨h.line, by omega, fun k hik hk => by
          by_cases hki : k = i + n
          · rw [hki, hi]
          · exact h.free k hik (by omega)⟩
        obtain ⟨m, hm, hf, hlast⟩ := ih i (n + 1) (by omega) h'
        exact ⟨m, by omega, hf, hlast⟩
      · exact ⟨n, Nat.le_refl n, h, .inr hi⟩
  obtain ⟨j, m, hf, hj, hm, hfirst⟩ := hback i n h hn
  obtain ⟨m', hm', hf', hlast⟩ := hahead _ j m rfl hf
  exact ⟨j, m', ⟨hf', by omega, hfirst, hlast⟩, hj, by omega⟩

/-- Two maximal segments with a common cell are the same. -/
theorem Maximal.unique (h : Maximal table a c i n) {c' i' n' : Nat} (h' : Maximal table a c' i' n') {p : Point}
    (hp : p ∈ segment a c i n) (hp' : p ∈ segment a c' i' n') : c = c' ∧ i = i' ∧ n = n' := by
  obtain ⟨j, hij, hj, rfl⟩ := mem_segment.1 hp
  obtain ⟨j', hij', hj', hcell⟩ := mem_segment.1 hp'
  obtain ⟨rfl, rfl⟩ := a.cell_eq_iff.1 hcell
  have hstart : ∀ {i n i' n'}, Maximal table a c' i n → Maximal table a c' i' n' → i ≤ j' → i' ≤ j' → j' < i + n →
      ¬i < i' := fun {i n i' n'} h h' hi hi' hj hlt => by
    rcases h'.first with hz | hne
    · omega
    · exact hne (h.free _ (by omega) (by omega))
  have hend : ∀ {i n i' n'}, Maximal table a c' i n → Maximal table a c' i' n' → i ≤ j' → j' < i + n → j' < i' + n' →
      ¬i' + n' < i + n := fun {i n i' n'} h h' hi hj hj' hlt => by
    rcases h'.last with hz | hne
    · have := h.inside
      omega
    · exact hne (h.free _ (by omega) (by omega))
  have h1 := hstart h h' hij hij' hj
  have h2 := hstart h' h hij' hij hj'
  have h3 := hend h h' hij hj hj'
  have h4 := hend h' h hij' hj' hj
  exact ⟨rfl, by omega, by omega⟩

end Free

end FishWeb.Xxl
