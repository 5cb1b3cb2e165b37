import Mathlib.Algebra.BigOperators.Group.List.Basic
import Mathlib.Algebra.Order.Ring.Int
import Mathlib.Data.List.Forall2
import Mathlib.Tactic.Linarith
/-!
# Spending a budget, item by item

A buyer goes along a list of items and buys some of each, no more than a cap and no
more than the budget pays (`Buys`). What is spent is the price of what is bought
(`Buys.left`). The least that is wanted of each item is bought in order, up to the first
that the budget does not pay (`firsts`): of every item if the budget pays them all
(`firsts_eq_map`), and all of the budget if it is what some items from the front cost
(`cost_firsts_eq_iff`).
-/

namespace Budget

variable {I α : Type*}

/-- What `ns` of the items come to, at the weight of each. -/
def cost (w : I → Int) (is : List I) (ns : List Nat) : Int := (is.zipWith (fun i (n : Nat) => w i * n) ns).sum

/-- What is bought: `ns` of the items. -/
def bought (f : I → α) (is : List I) (ns : List Nat) : List α := (is.zipWith (fun i n => List.replicate n (f i)) ns).flatten

@[simp] theorem cost_nil (w : I → Int) (ns : List Nat) : cost w [] ns = 0 := rfl

@[simp] theorem cost_cons (w : I → Int) (i : I) (is : List I) (n : Nat) (ns : List Nat) :
    cost w (i :: is) (n :: ns) = w i * n + cost w is ns := rfl

@[simp] theorem bought_nil (f : I → α) (ns : List Nat) : bought f [] ns = [] := rfl

@[simp] theorem bought_cons (f : I → α) (i : I) (is : List I) (n : Nat) (ns : List Nat) :
    bought f (i :: is) (n :: ns) = List.replicate n (f i) ++ bought f is ns := rfl

/-- What is bought weighs what it costs. -/
theorem sum_bought (f : I → α) (w : α → Int) (is : List I) (ns : List Nat) :
    ((bought f is ns).map w).sum = cost (fun i => w (f i)) is ns := by
  induction is generalizing ns with
  | nil => rfl
  | cons i is ih =>
    cases ns with
    | nil => rfl
    | cons n ns => simp [ih, mul_comm]

theorem mem_bought {f : I → α} {is : List I} {ns : List Nat} {a : α} (h : a ∈ bought f is ns) : ∃ i ∈ is, f i = a := by
  induction is generalizing ns with
  | nil => cases h
  | cons i is ih =>
    cases ns with
    | nil => cases h
    | cons n ns =>
      rw [bought_cons, List.mem_append] at h
      rcases h with h | h
      · exact ⟨i, List.mem_cons_self, (List.mem_replicate.1 h).2.symm⟩
      · obtain ⟨j, hj, hf⟩ := ih h
        exact ⟨j, List.mem_cons_of_mem i hj, hf⟩

theorem cost_congr {w w' : I → Int} {is : List I} (h : ∀ i ∈ is, w i = w' i) (ns : List Nat) : cost w is ns = cost w' is ns := by
  induction is generalizing ns with
  | nil => rfl
  | cons i is ih =>
    cases ns with
    | nil => rfl
    | cons n ns => rw [cost_cons, cost_cons, h i List.mem_cons_self, ih fun j hj => h j (List.mem_cons_of_mem i hj)]

theorem cost_zero (w : I → Int) (is : List I) (k : Nat) : cost w is (List.replicate k 0) = 0 := by
  induction is generalizing k with
  | nil => rfl
  | cons i is ih =>
    cases k with
    | zero => rfl
    | succ k => simp [List.replicate_succ, ih]

theorem bought_zero (f : I → α) (is : List I) (k : Nat) : bought f is (List.replicate k 0) = [] := by
  induction is generalizing k with
  | nil => rfl
  | cons i is ih =>
    cases k with
    | zero => rfl
    | succ k => simp [List.replicate_succ, ih]

theorem cost_append (w : I → Int) {is js : List I} {ns ms : List Nat} (h : ns.length = is.length) :
    cost w (is ++ js) (ns ++ ms) = cost w is ns + cost w js ms := by
  unfold cost
  rw [List.zipWith_append h.symm, List.sum_append]

theorem bought_append (f : I → α) {is js : List I} {ns ms : List Nat} (h : ns.length = is.length) :
    bought f (is ++ js) (ns ++ ms) = bought f is ns ++ bought f js ms := by
  unfold bought
  rw [List.zipWith_append h.symm, List.flatten_append]

theorem cost_nonneg {w : I → Int} {is : List I} (hw : ∀ i ∈ is, 0 ≤ w i) (ns : List Nat) : 0 ≤ cost w is ns := by
  induction is generalizing ns with
  | nil => exact le_refl 0
  | cons i is ih =>
    cases ns with
    | nil => exact le_refl 0
    | cons n ns =>
      have hi : 0 ≤ w i * n := mul_nonneg (hw i List.mem_cons_self) (Int.natCast_nonneg n)
      have hrest := ih (fun j hj => hw j (List.mem_cons_of_mem i hj)) ns
      rw [cost_cons]
      omega

/-! ## A pass over the items -/

/-- From the budget `b` the buyer buys `ns` of the items, which leaves `b'`. -/
inductive Buys (price : I → Int) (cap : I → Nat) : Int → List I → List Nat → Int → Prop
  | nil (b : Int) : Buys price cap b [] [] b
  | cons {b b' : Int} {i : I} {is : List I} {n : Nat} {ns : List Nat} (hcap : n ≤ cap i) (hpays : price i * n ≤ b)
      (h : Buys price cap (b - price i * n) is ns b') : Buys price cap b (i :: is) (n :: ns) b'

section Buys
variable {price : I → Int} {cap : I → Nat} {b b' b'' : Int} {is js : List I} {ns ms : List Nat}

theorem Buys.length (h : Buys price cap b is ns b') : ns.length = is.length := by
  induction h with
  | nil b => rfl
  | cons hcap hpays h ih => rw [List.length_cons, List.length_cons, ih]

theorem Buys.left (h : Buys price cap b is ns b') : b' = b - cost price is ns := by
  induction h with
  | nil b => simp
  | cons hcap hpays h ih =>
    rw [ih, cost_cons]
    omega

/-- Nobody spends what he does not have. -/
theorem Buys.nonneg (h : Buys price cap b is ns b') (hb : 0 ≤ b) : 0 ≤ b' := by
  induction h with
  | nil b => exact hb
  | cons hcap hpays h ih => exact ih (by omega)

theorem Buys.append (h : Buys price cap b is ns b') (h' : Buys price cap b' js ms b'') :
    Buys price cap b (is ++ js) (ns ++ ms) b'' := by
  induction h with
  | nil b => exact h'
  | cons hcap hpays h ih => exact .cons hcap hpays (ih h')

/-- Nothing is bought. -/
theorem buys_none (hb : 0 ≤ b) (is : List I) : Buys price cap b is (List.replicate is.length 0) b := by
  induction is with
  | nil => exact .nil b
  | cons i is ih =>
    refine .cons (Nat.zero_le _) (by simpa using hb) ?_
    rw [Int.natCast_zero, mul_zero, Int.sub_zero]
    exact ih

/-- What two passes buy, within the sum of their caps. -/
theorem Buys.le_add {cap' : I → Nat} {c c' : Int} (h : Buys price cap b is ns b') (h' : Buys price cap' c is ms c') :
    List.Forall₂ (fun n i => n ≤ cap i + cap' i) (ns.zipWith (· + ·) ms) is := by
  induction h generalizing ms c with
  | nil b =>
    cases h'
    exact .nil
  | cons hcap hpays h ih =>
    cases h' with
    | cons hcap' hpays' h' => exact .cons (Nat.add_le_add hcap hcap') (ih h')

end Buys

/-- The least of each, and some more. -/
theorem le_map_add (lo : I → Nat) {is : List I} {ms : List Nat} (h : ms.length = is.length) :
    List.Forall₂ (fun n i => lo i ≤ n) ((is.map lo).zipWith (· + ·) ms) is := by
  induction is generalizing ms with
  | nil => exact .nil
  | cons i is ih =>
    cases ms with
    | nil => cases h
    | cons m ms => exact .cons (Nat.le_add_right _ _) (ih (Nat.succ.inj h))

/-! ## The least of each -/

section Firsts
variable (price : I → Int) (lo : I → Nat)

/-- `lo` of each item, up to the first that the budget does not pay. -/
def firsts : Int → List I → List Nat
  | _, [] => []
  | b, i :: is => if b - price i * lo i < 0 then List.replicate (is.length + 1) 0 else lo i :: firsts (b - price i * lo i) is

variable {price lo} {b : Int} {is : List I}

theorem buys_firsts (hb : 0 ≤ b) : Buys price lo b is (firsts price lo b is) (b - cost price is (firsts price lo b is)) := by
  induction is generalizing b with
  | nil =>
    rw [cost_nil, Int.sub_zero]
    exact .nil b
  | cons i is ih =>
    unfold firsts
    split
    · rw [cost_zero, Int.sub_zero]
      exact buys_none hb (i :: is)
    · next hpays =>
      rw [cost_cons, ← Int.sub_sub]
      exact .cons (le_refl _) (by omega) (ih (by omega))

/-- A budget that pays for the least of every item. -/
theorem firsts_eq_map (hprice : ∀ i ∈ is, 0 ≤ price i) (hb : cost price is (is.map lo) ≤ b) :
    firsts price lo b is = is.map lo := by
  induction is generalizing b with
  | nil => rfl
  | cons i is ih =>
    obtain ⟨hi, his⟩ := List.forall_mem_cons.1 hprice
    rw [List.map_cons, cost_cons] at hb
    have hrest := cost_nonneg his (is.map lo)
    rw [firsts, if_neg (by omega), ih his (by omega), List.map_cons]

/-- Who owes buys nothing. -/
theorem firsts_neg (hprice : ∀ i ∈ is, 0 < price i) (hb : b < 0) : firsts price lo b is = List.replicate is.length 0 := by
  cases is with
  | nil => rfl
  | cons i is =>
    have hcost : 0 ≤ price i * lo i := mul_nonneg (hprice i List.mem_cons_self).le (Int.natCast_nonneg _)
    rw [firsts, if_pos (by omega)]
    rfl

theorem firsts_zero (hprice : ∀ i ∈ is, 0 < price i) : firsts price lo 0 is = List.replicate is.length 0 := by
  induction is with
  | nil => rfl
  | cons i is ih =>
    obtain ⟨hi, his⟩ := List.forall_mem_cons.1 hprice
    unfold firsts
    split
    · rfl
    · next hpays =>
      have hlo : (lo i : Int) = 0 := by
        have hle : price i * lo i ≤ 0 := by omega
        have hge : 0 ≤ (lo i : Int) := Int.natCast_nonneg _
        nlinarith
      rw [hlo, mul_zero, Int.sub_zero, ih his, Int.natCast_eq_zero.1 hlo]
      rfl

/-- Where some items from the front cost all of the budget, nothing is bought of the others. -/
theorem firsts_append {pre post : List I} (hprice : ∀ i ∈ pre ++ post, 0 < price i) (hpre : cost price pre (pre.map lo) = b) :
    firsts price lo b (pre ++ post) = pre.map lo ++ List.replicate post.length 0 := by
  induction pre generalizing b with
  | nil =>
    obtain rfl : 0 = b := hpre
    exact firsts_zero hprice
  | cons i pre ih =>
    obtain ⟨hi, hrest⟩ := List.forall_mem_cons.1 hprice
    rw [List.map_cons, cost_cons] at hpre
    have hnonneg := cost_nonneg (fun j hj => (hrest j (List.mem_append_left post hj)).le) (pre.map lo)
    rw [List.cons_append, firsts, if_neg (by omega), ih hrest (by omega), List.map_cons, List.cons_append]

/-- The budget is spent to the last if and only if it is what some items from the front cost. -/
theorem cost_firsts_eq_iff (hprice : ∀ i ∈ is, 0 < price i) :
    cost price is (firsts price lo b is) = b ↔ ∃ pre post, is = pre ++ post ∧ cost price pre (pre.map lo) = b := by
  constructor
  · intro h
    induction is generalizing b with
    | nil => exact ⟨[], [], rfl, h⟩
    | cons i is ih =>
      obtain ⟨hi, his⟩ := List.forall_mem_cons.1 hprice
      unfold firsts at h
      split at h
      · rw [cost_zero] at h
        exact ⟨[], i :: is, rfl, h⟩
      · rw [cost_cons] at h
        obtain ⟨pre, post, rfl, hpre⟩ := ih (b := b - price i * lo i) his (by omega)
        exact ⟨i :: pre, post, rfl, by rw [List.map_cons, cost_cons, hpre]; omega⟩
  · rintro ⟨pre, post, rfl, hpre⟩
    rw [firsts_append hprice hpre, cost_append price (List.length_map _), cost_zero, hpre, Int.add_zero]

end Firsts

end Budget
