import Mathlib.Data.List.Chain
import Mathlib.Data.Set.Insert
import Mathlib.Order.Basic
/-!
# Order along a forest

`up i` is the node above `i`, if there is one. Values are ordered along the forest when
none passes the one above it. Changing some nodes keeps the order if what is changed fits
what is above it and what is below it (`Ordered.change`). Along a path to the top the
values ascend (`Ordered.isChain`).
-/

namespace Forest

variable {I α : Type*}

/-- No value passes the one above it. -/
def Ordered [LE α] (up : I → Option I) (v : I → α) : Prop := ∀ i j, up i = some j → v i ≤ v j

/-- The nodes from `i` to the top. -/
inductive Path (up : I → Option I) : I → List I → Prop
  | top {i : I} (h : up i = none) : Path up i [i]
  | next {i j : I} {l : List I} (h : up i = some j) (hp : Path up j l) : Path up i (i :: l)

section
variable {up up' : I → Option I} {i : I} {l l' : List I}

theorem Path.ne_nil (h : Path up i l) : l ≠ [] := by
  cases h <;> exact List.cons_ne_nil _ _

theorem Path.head (h : Path up i l) : ∃ t, l = i :: t := by
  cases h <;> exact ⟨_, rfl⟩

theorem Path.unique (h : Path up i l) (h' : Path up i l') : l' = l := by
  induction h generalizing l' with
  | top h =>
    cases h' with
    | top _ => rfl
    | next h'' _ => rw [h] at h''; cases h''
  | next h hp ih =>
    cases h' with
    | top h'' => rw [h] at h''; cases h''
    | next h'' hp' =>
      obtain rfl := Option.some.inj (h.symm.trans h'')
      rw [ih hp']

end

section Order
variable {up up' : I → Option I} {v v' : I → α}

/-- A change of the nodes in `S` that fits what is above them and what is below them. -/
theorem Ordered.change [LE α] (h : Ordered up v) (S : Set I) (hup : ∀ i ∉ S, up' i = up i) (hv : ∀ i ∉ S, v' i = v i)
    (habove : ∀ i ∈ S, ∀ j, up' i = some j → v' i ≤ v' j) (hbelow : ∀ i ∉ S, ∀ j ∈ S, up i = some j → v i ≤ v' j) :
    Ordered up' v' := by
  intro i j hij
  by_cases hi : i ∈ S
  · exact habove i hi j hij
  rw [hup i hi] at hij
  rw [hv i hi]
  by_cases hj : j ∈ S
  · exact hbelow i hi j hj hij
  · rw [hv j hj]
    exact h i j hij

theorem Ordered.isChain [Preorder α] (h : Ordered up v) {i : I} {l : List I} (hp : Path up i l) : (l.map v).IsChain (· ≤ ·) := by
  induction hp with
  | top _ => exact List.IsChain.singleton _
  | @next i j l hij hp ih =>
    obtain ⟨t, rfl⟩ := hp.head
    exact List.IsChain.cons_cons (h i j hij) ih

/-- The top bounds whatever is on the way to it. -/
theorem Ordered.le_getLast [Preorder α] (h : Ordered up v) {i : I} {l : List I} (hp : Path up i l) :
    v i ≤ v (l.getLast hp.ne_nil) := by
  induction hp with
  | top _ => exact le_refl _
  | next hij hp ih =>
    rw [List.getLast_cons hp.ne_nil]
    exact le_trans (h _ _ hij) ih

end Order

end Forest
