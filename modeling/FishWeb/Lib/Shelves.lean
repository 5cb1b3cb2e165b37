import Mathlib.Data.List.Count
import Mathlib.Data.List.Nodup
import Mathlib.Logic.Function.Basic
/-!
# Shelves

Lists under keys, on which an item is put in front and from which it is taken, as
`lpush` and `lrem` do. `Shelved` says of every item on which lists it stands, once.
-/
open Function (update)

namespace Shelves

variable {K α : Type} [DecidableEq K] [DecidableEq α]

inductive Move where
  | on | off
  deriving DecidableEq

/-- One list with the item put on it, or taken off it. -/
def moved (a : α) (l : List α) : Move → List α
  | .on => a :: l
  | .off => l.filter (· ≠ a)

/-- The moves of one item, in order. -/
def moves (a : α) (ms : List (K × Move)) (t : K → List α) : K → List α :=
  ms.foldl (fun t m => update t m.1 (moved a (t m.1) m.2)) t

section Moves
variable (a : α) (ms : List (K × Move)) (t : K → List α)

@[simp] theorem moves_nil : moves a [] t = t := rfl

@[simp] theorem moves_cons (m : K × Move) :
    moves a (m :: ms) t = moves a ms (update t m.1 (moved a (t m.1) m.2)) := rfl

/-- What no move of the item changes of a list, no run of them does. -/
theorem moves_keeps {β : Type} {F : List α → β} (hF : ∀ l m, F (moved a l m) = F l) (k : K) : F (moves a ms t k) = F (t k) := by
  induction ms generalizing t with
  | nil => rfl
  | cons m ms ih =>
    rw [moves_cons, ih]
    by_cases hk : k = m.1
    · subst hk
      rw [Function.update_self, hF]
    · rw [Function.update_of_ne hk]

/-- The other items stay where they are. -/
theorem count_moves_other {b : α} (hb : b ≠ a) (k : K) : (moves a ms t k).count b = (t k).count b := by
  refine moves_keeps a ms t (F := List.count b) (fun l m => ?_) k
  cases m with
  | on => exact List.count_cons_of_ne (Ne.symm hb)
  | off => exact List.count_filter (decide_eq_true hb)

/-- A list without a move stays as it is. -/
theorem moves_of_not_mem {k : K} (hk : k ∉ ms.map Prod.fst) : moves a ms t k = t k := by
  induction ms generalizing t with
  | nil => rfl
  | cons m ms ih =>
    simp only [List.map_cons, List.mem_cons, not_or] at hk
    rw [moves_cons, ih _ hk.2, Function.update_of_ne hk.1]

/-- A list with one move is moved by it. -/
theorem moves_of_mem (hms : (ms.map Prod.fst).Nodup) {k : K} {m : Move} (hm : (k, m) ∈ ms) :
    moves a ms t k = moved a (t k) m := by
  induction ms generalizing t with
  | nil => cases hm
  | cons m' ms ih =>
    rw [List.map_cons, List.nodup_cons] at hms
    rw [moves_cons]
    rcases List.mem_cons.1 hm with rfl | hm
    · rw [moves_of_not_mem a ms _ hms.1, Function.update_self]
    · have hne : k ≠ m'.1 := fun he => hms.1 (he ▸ List.mem_map_of_mem hm)
      rw [ih _ hms.2 hm, Function.update_of_ne hne]

/-- One item moves the same way on several lists. -/
theorem moves_map_of_mem {l : List K} (hl : l.Nodup) {m : Move} {k : K} (hk : k ∈ l) :
    moves a (l.map (·, m)) t k = moved a (t k) m := by
  refine moves_of_mem a _ t ?_ (List.mem_map_of_mem hk)
  rw [List.map_map]
  exact (List.map_id l).symm ▸ hl

theorem moves_map_of_not_mem {l : List K} {m : Move} {k : K} (hk : k ∉ l) : moves a (l.map (·, m)) t k = t k := by
  refine moves_of_not_mem a _ t ?_
  rw [List.map_map]
  exact (List.map_id l).symm ▸ hk

theorem mem_moves_other {b : α} (hb : b ≠ a) (k : K) : b ∈ moves a ms t k ↔ b ∈ t k := by
  rw [← List.count_pos_iff, count_moves_other a ms t hb, List.count_pos_iff]

/-- What is left when an item is taken off everywhere does not depend on its moves. -/
theorem filter_moves_self (k : K) : (moves a ms t k).filter (· ≠ a) = (t k).filter (· ≠ a) := by
  refine moves_keeps a ms t (F := List.filter (· ≠ a)) (fun l m => ?_) k
  cases m with
  | on => exact List.filter_cons_of_neg (by simp)
  | off => exact (List.filter_filter ..).trans (by simp)

/-- The moves of one item are the same with another taken off everywhere. -/
theorem filter_moves_other {b : α} (hb : b ≠ a) (k : K) :
    (moves a ms t k).filter (· ≠ b) = moves a ms (fun k => (t k).filter (· ≠ b)) k := by
  induction ms generalizing t with
  | nil => rfl
  | cons m ms ih =>
    rw [moves_cons, ih, moves_cons]
    refine congrArg (fun t => moves a ms t k) (funext fun j => ?_)
    by_cases hj : j = m.1
    · subst hj
      rw [Function.update_self, Function.update_self]
      cases m.2 with
      | on => exact List.filter_cons_of_pos (decide_eq_true (Ne.symm hb))
      | off => exact List.filter_comm ..
    · rw [Function.update_of_ne hj, Function.update_of_ne hj]

end Moves

/-- Every item stands on its shelves, once on each, and nowhere else. -/
def Shelved (t : K → List α) (shelves : α → List K) : Prop :=
  ∀ a k, (t k).count a = if k ∈ shelves a then 1 else 0

section Shelved
variable {t : K → List α} {shelves shelves' : α → List K}

theorem Shelved.mem_iff (h : Shelved t shelves) {a : α} {k : K} : a ∈ t k ↔ k ∈ shelves a := by
  rw [← List.count_pos_iff, h a k]
  split <;> simp_all

/-- No item stands twice on a list. -/
theorem Shelved.nodup (h : Shelved t shelves) (k : K) : (t k).Nodup := by
  rw [List.nodup_iff_count_le_one]
  intro a
  rw [h a k]
  split <;> omega

theorem shelved_empty : Shelved (fun _ : K => ([] : List α)) fun _ => [] := fun _ _ => rfl

/-- The moves of one item from its shelves to others. -/
theorem Shelved.moves (h : Shelved t shelves) {a : α} {ms : List (K × Move)} (hms : (ms.map Prod.fst).Nodup)
    (hon : ∀ k, (k, Move.on) ∈ ms → k ∉ shelves a) (hother : ∀ b ≠ a, shelves' b = shelves b)
    (hself : ∀ k, k ∈ shelves' a ↔ (k, Move.on) ∈ ms ∨ k ∈ shelves a ∧ (k, Move.off) ∉ ms) :
    Shelved (moves a ms t) shelves' := by
  intro b k
  by_cases hb : b = a
  · subst hb
    by_cases hput : (k, Move.on) ∈ ms
    · rw [moves_of_mem b ms t hms hput, if_pos ((hself k).2 (.inl hput)), moved, List.count_cons_self, h b k,
        if_neg (hon k hput)]
    by_cases htaken : (k, Move.off) ∈ ms
    · have hnot : k ∉ shelves' b := fun hk => by
        rcases (hself k).1 hk with hk | hk
        · exact hput hk
        · exact hk.2 htaken
      rw [moves_of_mem b ms t hms htaken, if_neg hnot, moved, List.count_eq_zero]
      exact fun hm => of_decide_eq_true (List.mem_filter.1 hm).2 rfl
    · have hk : k ∉ ms.map Prod.fst := by
        intro hk
        obtain ⟨⟨k', m⟩, hm, rfl⟩ := List.mem_map.1 hk
        cases m with
        | on => exact hput hm
        | off => exact htaken hm
      rw [moves_of_not_mem b ms t hk, h b k]
      simp only [hself, hput, htaken, false_or, not_false_eq_true, and_true]
  · rw [count_moves_other a ms t hb, h b k, hother b hb]

end Shelved

end Shelves
