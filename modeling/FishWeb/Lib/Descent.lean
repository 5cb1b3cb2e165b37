import Mathlib.Tactic.Common
import Mathlib.Data.List.Nodup
/-!
# Levels of a tree

`child p c` says that `c` hangs directly on `p`, and `Below child a n x` that `x` is `n`
levels below `a`. In a tree nothing hangs on two nodes and nothing is below itself. So the
level of a node is unique (`Tree.level_unique`). Where each node has finitely many
children, `firstTwo` lists the first two levels below a node, each node once
(`Tree.nodup_firstTwo`).
-/

namespace Descent

variable {I : Type*}

/-- `x` is `n` levels below `a`. -/
inductive Below (child : I → I → Prop) : I → Nat → I → Prop
  | here (a : I) : Below child a 0 a
  | step {a c x : I} {n : Nat} (h : child a c) (hx : Below child c n x) : Below child a (n + 1) x

section Below
variable {child : I → I → Prop} {a b c x y : I} {m n : Nat}

@[simp] theorem below_zero : Below child a 0 x ↔ x = a := by
  constructor
  · intro h
    cases h
    rfl
  · rintro rfl
    exact .here x

theorem below_succ : Below child a (n + 1) x ↔ ∃ c, child a c ∧ Below child c n x := by
  constructor
  · intro h
    cases h with
    | step h hx => exact ⟨_, h, hx⟩
  · rintro ⟨c, h, hx⟩
    exact .step h hx

@[simp] theorem below_one : Below child a 1 x ↔ child a x := by
  rw [below_succ]
  constructor
  · rintro ⟨c, h, hx⟩
    exact below_zero.1 hx ▸ h
  · exact fun h => ⟨x, h, .here x⟩

theorem below_two : Below child a 2 x ↔ ∃ c, child a c ∧ child c x := by
  simp only [below_succ (n := 1), below_one]

theorem Below.trans (h : Below child a m b) (hx : Below child b n x) : Below child a (m + n) x := by
  induction h with
  | here a => rwa [Nat.zero_add]
  | step h _ ih => exact Nat.succ_add_eq_add_succ _ n ▸ .step h (ih hx)

theorem Below.split (h : Below child a (m + n) x) : ∃ b, Below child a m b ∧ Below child b n x := by
  induction m generalizing a with
  | zero => exact ⟨a, .here a, Nat.zero_add n ▸ h⟩
  | succ m ih =>
    obtain ⟨c, hc, hx⟩ := below_succ.1 (Nat.succ_add_eq_add_succ m n ▸ h)
    obtain ⟨b, hb, hx⟩ := ih hx
    exact ⟨b, .step hc hb, hx⟩

/-- The level above the last. -/
theorem below_succ_last : Below child a (n + 1) x ↔ ∃ p, Below child a n p ∧ child p x := by
  constructor
  · intro h
    induction n generalizing a with
    | zero => exact ⟨a, .here a, below_one.1 h⟩
    | succ n ih =>
      obtain ⟨c, hc, hx⟩ := below_succ.1 h
      obtain ⟨p, hp, hx⟩ := ih hx
      exact ⟨p, .step hc hp, hx⟩
  · rintro ⟨p, hp, hx⟩
    exact hp.trans (below_one.2 hx)

end Below

/-- Nothing hangs on two nodes, and nothing is below itself. -/
structure Tree (child : I → I → Prop) : Prop where
  unique : ∀ {p q c : I}, child p c → child q c → p = q
  acyclic : ∀ {a : I} {n : Nat}, ¬Below child a (n + 1) a

namespace Tree
variable {child : I → I → Prop} (t : Tree child) {a c d x : I} {m n : Nat}
include t

theorem level_unique (hm : Below child a m x) (hn : Below child a n x) : m = n := by
  induction m generalizing n x with
  | zero =>
    obtain rfl := below_zero.1 hm
    cases n with
    | zero => rfl
    | succ n => exact absurd hn t.acyclic
  | succ m ih =>
    cases n with
    | zero =>
      obtain rfl := below_zero.1 hn
      exact absurd hm t.acyclic
    | succ n =>
      obtain ⟨p, hp, hx⟩ := below_succ_last.1 hm
      obtain ⟨q, hq, hx'⟩ := below_succ_last.1 hn
      obtain rfl := t.unique hx hx'
      rw [ih hp hq]

end Tree

/-- Ranks that rise from each node to its children rise by the level at least. -/
theorem Below.rank_le {child : I → I → Prop} {rank : I → Nat} (hrank : ∀ p c, child p c → rank p < rank c) {a x : I} {n : Nat}
    (h : Below child a n x) : rank a + n ≤ rank x := by
  induction h with
  | here a => exact Nat.le_refl _
  | step h hx ih =>
    have := hrank _ _ h
    omega

theorem Tree.of_rank {child : I → I → Prop} (rank : I → Nat) (hrank : ∀ p c, child p c → rank p < rank c)
    (unique : ∀ {p q c : I}, child p c → child q c → p = q) : Tree child where
  unique := unique
  acyclic := fun h => by
    have := h.rank_le hrank
    omega

/-! ## Two levels -/

/-- The children of a node, each before its own. -/
def firstTwo (children : I → List I) (a : I) : List I := (children a).flatMap fun c => c :: children c

section Two
variable {children : I → List I} {a x : I}

/-- The relation that the lists of children give. -/
def Hangs (children : I → List I) (p c : I) : Prop := c ∈ children p

theorem mem_firstTwo : x ∈ firstTwo children a ↔ Below (Hangs children) a 1 x ∨ Below (Hangs children) a 2 x := by
  rw [below_one, below_two]
  simp only [firstTwo, Hangs, List.mem_flatMap, List.mem_cons]
  constructor
  · rintro ⟨c, hc, rfl | hx⟩
    · exact .inl hc
    · exact .inr ⟨c, hc, hx⟩
  · rintro (hx | ⟨c, hc, hx⟩)
    · exact ⟨x, hx, .inl rfl⟩
    · exact ⟨c, hc, .inr hx⟩

theorem Tree.nodup_firstTwo (t : Tree (Hangs children)) (h : ∀ p, (children p).Nodup) : (firstTwo children a).Nodup := by
  refine List.nodup_flatMap.2 ⟨fun c _ => List.nodup_cons.2 ⟨fun hc => ?_, h c⟩, ?_⟩
  · exact t.acyclic (below_one.2 hc)
  · -- what is at or under two children is at different levels, or hangs on both
    refine (h a).imp_of_mem fun {c d} hc hd hne => ?_
    rintro x hxc hxd
    rcases List.mem_cons.1 hxc with rfl | hxc <;> rcases List.mem_cons.1 hxd with rfl | hxd
    · exact hne rfl
    · exact absurd (t.level_unique (below_one.2 hc) (below_two.2 ⟨d, hd, hxd⟩)) (by decide)
    · exact absurd (t.level_unique (below_one.2 hd) (below_two.2 ⟨c, hc, hxc⟩)) (by decide)
    · exact hne (t.unique hxc hxd)

end Two

end Descent
