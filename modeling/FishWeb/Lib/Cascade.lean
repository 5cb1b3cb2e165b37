import Mathlib.Algebra.Order.Group.Defs
import Mathlib.Algebra.BigOperators.Group.List.Basic
import Mathlib.Data.List.Chain
import Mathlib.Tactic.Abel
/-!
# What is passed down a chain

Along a chain from the bottom to the top, each member is granted something by the
next and passes on what the one below is granted. He keeps the difference. What all
of them keep is what the top is granted (`sum_kept`), and nobody keeps less than
nothing if and only if the grants do not fall on the way up (`kept_nonneg_iff`).
-/

namespace Cascade

variable {α : Type*} [AddCommGroup α]

/-- What the members keep, who are granted `gs`, where the first passes on `below`. -/
def kept (below : α) : List α → List α
  | [] => []
  | g :: gs => (g - below) :: kept g gs

@[simp] theorem kept_nil (below : α) : kept below [] = [] := rfl

@[simp] theorem kept_cons (below g : α) (gs : List α) : kept below (g :: gs) = (g - below) :: kept g gs := rfl

/-- What is kept adds up to what the top is granted, less what the bottom passes on. -/
theorem sum_kept (below : α) {gs : List α} (h : gs ≠ []) : (kept below gs).sum = gs.getLast h - below := by
  induction gs generalizing below with
  | nil => exact absurd rfl h
  | cons g gs ih =>
    cases gs with
    | nil => simp
    | cons g' gs =>
      rw [kept_cons, List.sum_cons, ih g (List.cons_ne_nil g' gs), List.getLast_cons (List.cons_ne_nil g' gs)]
      abel

theorem kept_nonneg_iff [PartialOrder α] [IsOrderedAddMonoid α] (below : α) (gs : List α) :
    (∀ a ∈ kept below gs, 0 ≤ a) ↔ (below :: gs).IsChain (· ≤ ·) := by
  induction gs generalizing below with
  | nil => simp
  | cons g gs ih => rw [kept_cons, List.forall_mem_cons, sub_nonneg, ih, List.isChain_cons_cons]

end Cascade
