import Mathlib.Data.List.Nodup
import Mathlib.Data.List.TakeDrop
import Mathlib.Data.List.Range
/-!
# The full blocks of a queue

`blocks n l` cuts a list into its consecutive full blocks of `n` elements, in
order; what is left over, fewer than `n` elements, stays behind.
-/

namespace Blocks

variable {α : Type}

/-- Block number `i`. -/
def block (n : Nat) (l : List α) (i : Nat) : List α := (l.drop (i * n)).take n

def blocks (n : Nat) (l : List α) : List (List α) := (List.range (l.length / n)).map (block n l)

/-- What the blocks leave behind. -/
def rest (n : Nat) (l : List α) : List α := l.drop (l.length / n * n)

@[simp] theorem length_blocks (n : Nat) (l : List α) : (blocks n l).length = l.length / n := by
  simp [blocks]

theorem block_zero (n : Nat) (l : List α) : block n l 0 = l.take n := by simp [block]

theorem flatten_range_block (n : Nat) (l : List α) (r : Nat) :
    ((List.range r).map (block n l)).flatten = l.take (r * n) := by
  induction r with
  | zero => simp
  | succ r ih =>
    rw [List.range_succ, List.map_append, List.flatten_append, ih, Nat.add_mul, Nat.one_mul, List.take_add]
    simp [block]

/-- The blocks in order are the front of the list. -/
theorem flatten_blocks (n : Nat) (l : List α) : (blocks n l).flatten = l.take (l.length / n * n) :=
  flatten_range_block n l _

/-- Blocks and remainder make up the list. -/
theorem flatten_append_rest (n : Nat) (l : List α) : (blocks n l).flatten ++ rest n l = l := by
  rw [flatten_blocks, rest, List.take_append_drop]

theorem mem_flatten_iff {n : Nat} {l : List α} (hl : l.Nodup) {a : α} (ha : a ∈ l) :
    a ∈ (blocks n l).flatten ↔ a ∉ rest n l := by
  have hd := flatten_append_rest n l ▸ hl
  rw [List.nodup_append] at hd
  constructor
  · intro h1 h2; exact hd.2.2 a h1 a h2 rfl
  · intro h; rw [← flatten_append_rest n l, List.mem_append] at ha; exact ha.resolve_right h

theorem countP_mem_flatten [DecidableEq α] (ls : List (List α)) (h : ls.flatten.Nodup) (a : α) :
    ls.countP (a ∈ ·) = if a ∈ ls.flatten then 1 else 0 := by
  induction ls with
  | nil => simp
  | cons b ls ih =>
    rw [List.flatten_cons, List.nodup_append] at h
    have hi := ih h.2.1
    by_cases hb : a ∈ b
    · have : a ∉ ls.flatten := fun hx => h.2.2 a hb a hx rfl
      rw [if_neg this] at hi
      simp [hb, hi]
    · simp only [List.countP_cons, hb, decide_false, Bool.false_eq_true, if_false, Nat.add_zero, hi,
        List.flatten_cons, List.mem_append, false_or]

/-- Below two blocks' length every block is the first one. -/
theorem blocks_eq_replicate {n : Nat} {l : List α} (h : l.length < 2 * n) :
    blocks n l = List.replicate (l.length / n) (l.take n) := by
  have hr : l.length / n < 2 := Nat.div_lt_of_lt_mul (by omega)
  rcases Nat.le_one_iff_eq_zero_or_eq_one.1 (Nat.le_of_lt_succ hr) with h0 | h1
  · simp [blocks, h0]
  · simp [blocks, h1, block_zero]

/-- With distinct elements and two full blocks, the second block is not the first. -/
theorem blocks_ne_replicate {n : Nat} (hn : 0 < n) {l : List α} (hl : l.Nodup) (h : 2 * n ≤ l.length) :
    blocks n l ≠ List.replicate (l.length / n) (l.take n) := by
  intro he
  have hr : 1 < l.length / n := (Nat.le_div_iff_mul_le hn).2 h
  have h1 : block n l 1 = l.take n := by
    have := congrArg (·[1]?) he
    simpa [blocks, hr] using this
  have hlen : 0 < (l.take n).length := by simp only [List.length_take]; omega
  obtain ⟨a, ha⟩ := List.exists_mem_of_length_pos hlen
  have hd := List.take_append_drop n l ▸ hl
  rw [List.nodup_append] at hd
  have hb : a ∈ l.drop n := by
    rw [← h1] at ha
    simp only [block, Nat.one_mul] at ha
    exact List.mem_of_mem_take ha
  exact hd.2.2 a ha a hb rfl

end Blocks
