import FishWeb.Lib.Sets
/-!
# An index of names

Users have names, at most one each. The set of the names in use and the owner of
each are stored apart from the users. A rename writes both: the new name gets its
owner, then the old one loses its own, and the set loses the old name and gets the
new one. The writes fit the users only if the old name was the user's to give up.
-/
open Function (update)

/-- The set has the names of the users, and each name its owner. -/
structure Indexes {U N : Type} (name : U → Option N) (names : MemberSet N) (owner : N → Option U) : Prop where
  mem : ∀ n, n ∈ names ↔ ∃ u, name u = some n
  owner : ∀ u n, name u = some n → owner n = some u

namespace Indexes

variable {U N : Type} {name : U → Option N} {names : MemberSet N} {owner : N → Option U} {u v : U} {old new : N}

theorem empty (h : ∀ u, name u = none) (owner : N → Option U) : Indexes name ∅ owner where
  mem n := by simp [h]
  owner u n hu := by simp [h] at hu

/-- No two users have one name. -/
theorem injective (h : Indexes name names owner) {n : N} (hu : name u = some n) (hv : name v = some n) : u = v :=
  Option.some.inj ((h.owner u n hu).symm.trans (h.owner v n hv))

variable [DecidableEq U] [DecidableEq N]

/-- A user takes a name that is free. The one given up for it is another, and no other user's. -/
theorem write (h : Indexes name names owner) (hu : name u = none ∨ name u = some old) (hnew : new ∉ names)
    (hfree : ∀ v, name v = some old → v = u) (hne : old ≠ new) :
    Indexes (update name u (some new)) ((names.srem old).sadd new) (update (update owner new (some u)) old none) := by
  constructor
  · intro n
    rw [MemberSet.mem_sadd, MemberSet.mem_srem, h.mem]
    constructor
    · rintro (rfl | ⟨hn, v, hv⟩)
      · exact ⟨u, Function.update_self ..⟩
      · have hvu : v ≠ u := by
          rintro rfl
          rcases hu with hnone | hold
          · rw [hnone] at hv
            cases hv
          · exact hn (Option.some.inj (hv.symm.trans hold))
        exact ⟨v, (Function.update_of_ne hvu ..).trans hv⟩
    · rintro ⟨v, hv⟩
      by_cases hvu : v = u
      · subst hvu
        rw [Function.update_self] at hv
        exact .inl (Option.some.inj hv).symm
      · rw [Function.update_of_ne hvu] at hv
        refine .inr ⟨?_, v, hv⟩
        rintro rfl
        exact hvu (hfree v hv)
  · intro v n hv
    by_cases hvu : v = u
    · subst hvu
      rw [Function.update_self] at hv
      obtain rfl := Option.some.inj hv
      rw [Function.update_of_ne (Ne.symm hne), Function.update_self]
    · rw [Function.update_of_ne hvu] at hv
      have hnOld : n ≠ old := by
        rintro rfl
        exact hvu (hfree v hv)
      have hnNew : n ≠ new := by
        rintro rfl
        exact hnew ((h.mem n).2 ⟨v, hv⟩)
      rw [Function.update_of_ne hnOld, Function.update_of_ne hnNew]
      exact h.owner v n hv

/-- The writes keep the index if and only if the old name was the user's, or nobody's and not the new one. -/
theorem write_iff (h : Indexes name names owner) (hu : name u = none ∨ name u = some old) (hnew : new ∉ names) :
    Indexes (update name u (some new)) ((names.srem old).sadd new) (update (update owner new (some u)) old none) ↔
      name u = some old ∨ old ∉ names ∧ old ≠ new := by
  constructor
  · intro hafter
    refine hu.symm.imp_right fun hnone => ⟨fun hold => ?_, ?_⟩
    · -- another user's name has lost its owner
      obtain ⟨v, hv⟩ := (h.mem old).1 hold
      have hvu : v ≠ u := by
        rintro rfl
        rw [hnone] at hv
        cases hv
      have hlost := hafter.owner v old ((Function.update_of_ne hvu ..).trans hv)
      rw [Function.update_self] at hlost
      cases hlost
    · -- the new name has
      rintro rfl
      have hlost := hafter.owner u old (Function.update_self ..)
      rw [Function.update_self] at hlost
      cases hlost
  · rintro (hold | ⟨hold, hne⟩)
    · refine h.write hu hnew (fun v hv => h.injective hv hold) ?_
      rintro rfl
      exact hnew ((h.mem old).2 ⟨u, hold⟩)
    · exact h.write hu hnew (fun v hv => absurd ((h.mem old).2 ⟨v, hv⟩) hold) hne

end Indexes
