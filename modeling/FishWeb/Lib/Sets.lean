import Mathlib.Data.List.Nodup
import Mathlib.Data.List.Perm.Basic
import Mathlib.Logic.Function.Basic
/-!
# Tables of sets

A stored set is the list of its members, each once, so its size is the length.
A table holds one set for each key; the members are added and removed one at a
time. Where keys and members are of one type a table is a relation: `Symm` and
`Bounded` are kept by adding and removing pairs both ways.
-/
open Function (update)

/-- A finite set as a store keeps it. -/
structure MemberSet (α : Type) where
  members : List α
  nodup : members.Nodup
  deriving DecidableEq

namespace MemberSet

variable {α : Type} (s : MemberSet α) (a b : α)

instance : Membership α (MemberSet α) := ⟨fun s a => a ∈ s.members⟩

instance : EmptyCollection (MemberSet α) := ⟨⟨[], List.nodup_nil⟩⟩

instance : Inhabited (MemberSet α) := ⟨∅⟩

def scard : Nat := s.members.length

@[simp] theorem not_mem_empty : a ∉ (∅ : MemberSet α) := List.not_mem_nil

@[simp] theorem scard_empty : (∅ : MemberSet α).scard = 0 := rfl

variable [DecidableEq α]

instance : Decidable (a ∈ s) := inferInstanceAs (Decidable (a ∈ s.members))

def sadd : MemberSet α := ⟨s.members.insert a, s.nodup.insert⟩

def srem : MemberSet α := ⟨s.members.erase a, s.nodup.erase a⟩

@[simp] theorem mem_sadd : b ∈ s.sadd a ↔ b = a ∨ b ∈ s := List.mem_insert_iff

@[simp] theorem mem_srem : b ∈ s.srem a ↔ b ≠ a ∧ b ∈ s := s.nodup.mem_erase_iff

theorem scard_sadd_le : (s.sadd a).scard ≤ s.scard + 1 := by
  by_cases h : a ∈ s.members
  · simp [scard, sadd, List.insert_of_mem h]
  · simp [scard, sadd, List.insert_of_not_mem h]

theorem scard_sadd_of_not_mem (h : a ∉ s) : (s.sadd a).scard = s.scard + 1 := by
  have hl : (s.members.insert a).length = s.members.length + 1 := by
    rw [List.insert_of_not_mem h, List.length_cons]
  exact hl

theorem sadd_of_mem (h : a ∈ s) : s.sadd a = s := by
  unfold sadd
  congr
  exact List.insert_of_mem h

theorem scard_srem_le : (s.srem a).scard ≤ s.scard := List.length_erase_le

end MemberSet

/-! ## Tables -/

namespace SetTable

variable {K α : Type} [DecidableEq K] [DecidableEq α] (t : K → MemberSet α) (k j : K) (a b : α)

def add : K → MemberSet α := update t k ((t k).sadd a)

def remove : K → MemberSet α := update t k ((t k).srem a)

theorem mem_add : b ∈ add t k a j ↔ (j = k ∧ b = a) ∨ b ∈ t j := by
  by_cases h : j = k
  · subst h; simp [add]
  · simp [add, h]

theorem mem_remove : b ∈ remove t k a j ↔ ¬(j = k ∧ b = a) ∧ b ∈ t j := by
  by_cases h : j = k
  · subst h; simp [remove]
  · simp [remove, h]

theorem add_other (h : j ≠ k) : add t k a j = t j := Function.update_of_ne h ..

theorem remove_other (h : j ≠ k) : remove t k a j = t j := Function.update_of_ne h ..

/-- No set has more than `n` members. -/
def Bounded (n : Nat) : Prop := ∀ k, (t k).scard ≤ n

variable {t k j a b} {n : Nat}

theorem Bounded.add (h : Bounded t n) (hk : (t k).scard < n) : Bounded (add t k a) n := by
  intro j
  by_cases hj : j = k
  · subst hj
    simp only [SetTable.add, Function.update_self]
    have := MemberSet.scard_sadd_le (t j) a
    omega
  · rw [add_other _ _ _ _ hj]
    exact h j

theorem Bounded.remove (h : Bounded t n) : Bounded (remove t k a) n := by
  intro j
  by_cases hj : j = k
  · subst hj
    simp only [SetTable.remove, Function.update_self]
    exact Nat.le_trans (MemberSet.scard_srem_le _ _) (h j)
  · rw [remove_other _ _ _ _ hj]
    exact h j

/-! ## Relations -/

section Relation
variable {t : K → MemberSet K} {a b : K}

/-- Who has a member is a member of it. -/
def Symm (t : K → MemberSet K) : Prop := ∀ a b, b ∈ t a → a ∈ t b

/-- The table with the pair, in both directions. -/
def link (t : K → MemberSet K) (a b : K) : K → MemberSet K := add (add t a b) b a

/-- The table without the pair. -/
def unlink (t : K → MemberSet K) (a b : K) : K → MemberSet K := remove (remove t a b) b a

theorem Symm.link (h : Symm t) : Symm (link t a b) := by
  intro x y hxy
  simp only [SetTable.link, mem_add] at hxy ⊢
  rcases hxy with ⟨rfl, rfl⟩ | ⟨rfl, rfl⟩ | hxy
  · exact .inr (.inl ⟨rfl, rfl⟩)
  · exact .inl ⟨rfl, rfl⟩
  · exact .inr (.inr (h x y hxy))

theorem Symm.unlink (h : Symm t) : Symm (unlink t a b) := by
  intro x y hxy
  simp only [SetTable.unlink, mem_remove] at hxy ⊢
  obtain ⟨hba, hab, hxy⟩ := hxy
  exact ⟨fun ⟨hy, hx⟩ => hab ⟨hx, hy⟩, fun ⟨hy, hx⟩ => hba ⟨hx, hy⟩, h x y hxy⟩

/-- A pair fits where both sets have room, also if they are the same set. -/
theorem Bounded.link (h : Bounded t n) (ha : (t a).scard < n) (hb : (t b).scard < n) : Bounded (link t a b) n := by
  by_cases hab : b = a
  · subst hab
    have hmem : b ∈ SetTable.add t b b b := (mem_add ..).2 (.inl ⟨rfl, rfl⟩)
    rw [SetTable.link, SetTable.add, MemberSet.sadd_of_mem _ _ hmem, Function.update_eq_self]
    exact h.add ha
  · refine (h.add ha).add ?_
    rwa [add_other _ _ _ _ hab]

theorem Bounded.unlink (h : Bounded t n) : Bounded (unlink t a b) n := h.remove.remove

end Relation
end SetTable
