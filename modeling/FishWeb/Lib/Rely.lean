import FishWeb.Lib.Pool
/-!
# Rely and guarantee

Reasoning about one of two interleaved programs at a time. A program is `Good`
under a rely `R` and a guarantee `A` when each of its commands makes a change
`A` allows, however the other has changed the world by `R` before. Each
program's guarantee is the other's rely, so two good programs stay good along
every interleaving.
-/

namespace Rely

open Exec Note Pool

variable {E : Type} {C : Type → Type} {Ev S α β : Type} [Exec C S] [Note C Ev]

/-- How a program, or the other one, may change the world. -/
abbrev Change (Ev S : Type) := World Ev S → World Ev S → Prop

/-- A guard that reads the world, the program that moves and its events. -/
abbrev Allow (Ev S : Type) := World Ev S → Nat → List Ev → Prop

/-- The guard on configurations. -/
def Allow.guard (G : Allow Ev S) : Guard Ev E C S α := fun c i evs _ => G c.world i evs

instance (G : Allow Ev S) [∀ σ i evs, Decidable (G σ i evs)] (c : Conf Ev E C S α) (i : Nat) (evs : List Ev)
    (c' : Conf Ev E C S α) : Decidable (G.guard c i evs c') :=
  inferInstanceAs (Decidable (G c.world i evs))

/-- Program `i`, with `p` to go, changes the world by `A` only and ends in `Q`,
if the other changes it by `R` only and its commands meet the guard. -/
def Good (G : Allow Ev S) (R A : Change Ev S) (i : Nat) :
    Prog E C α → (Except E α → World Ev S → Prop) → World Ev S → Prop
  | .ret a, Q, σ => ∀ σ', R σ σ' → Q (.ok a) σ'
  | .raise e, Q, σ => ∀ σ', R σ σ' → Q (.error e) σ'
  | .cmd c k, Q, σ => ∀ σ', R σ σ' → G σ' i (note c (exec c σ'.store).1) →
      A σ' (after i c σ') ∧ Good G R A i (k (exec c σ'.store).1) Q (after i c σ')

variable {G : Allow Ev S} {R A : Change Ev S} {i : Nat}

/-- What the other does keeps the program good. -/
theorem Good.env [IsPreorder _ R] {p : Prog E C α} {Q : Except E α → World Ev S → Prop} {σ σ' : World Ev S}
    (h : Good G R A i p Q σ) (hσ : R σ σ') : Good G R A i p Q σ' := by
  cases p with
  | ret a => exact fun τ hτ => h τ (trans_of R hσ hτ)
  | raise e => exact fun τ hτ => h τ (trans_of R hσ hτ)
  | cmd c k => exact fun τ hτ => h τ (trans_of R hσ hτ)

theorem Good.mono {p : Prog E C α} {Q Q' : Except E α → World Ev S → Prop} {σ : World Ev S}
    (h : Good G R A i p Q σ) (hQ : ∀ r σ', Q r σ' → Q' r σ') : Good G R A i p Q' σ := by
  induction p generalizing σ with
  | ret a => exact fun τ hτ => hQ _ _ (h τ hτ)
  | raise e => exact fun τ hτ => hQ _ _ (h τ hτ)
  | cmd c k ih => exact fun τ hτ hg => ⟨(h τ hτ hg).1, ih _ (h τ hτ hg).2⟩

/-- The postcondition of the first part of a sequence: the second part is good
where the first returns, and an exception ends both. -/
def Then (G : Allow Ev S) (R A : Change Ev S) (i : Nat) (f : α → Prog E C β) (Q : Except E β → World Ev S → Prop) :
    Except E α → World Ev S → Prop
  | .ok a, σ => Good G R A i (f a) Q σ
  | .error e, σ => Q (.error e) σ

theorem Good.bind [IsPreorder _ R] {p : Prog E C α} {f : α → Prog E C β} {Q : Except E β → World Ev S → Prop}
    {σ : World Ev S} (h : Good G R A i p (Then G R A i f Q) σ) : Good G R A i (p >>= f) Q σ := by
  induction p generalizing σ with
  | ret a => exact h σ (refl_of R σ)
  | raise e => exact fun τ hτ => h τ hτ
  | cmd c k ih => exact fun τ hτ hg => ⟨(h τ hτ hg).1, ih _ (h τ hτ hg).2⟩

theorem Good.attempt {p : Prog E C α} {Q : Except E (Except E α) → World Ev S → Prop} {σ : World Ev S}
    (h : Good G R A i p (fun r => Q (.ok r)) σ) : Good G R A i p.attempt Q σ := by
  induction p generalizing σ with
  | ret a => exact h
  | raise e => exact h
  | cmd c k ih => exact fun τ hτ hg => ⟨(h τ hτ hg).1, ih _ (h τ hτ hg).2⟩

/-- A loop with the invariant `J` of what is left of its list. -/
theorem good_forEach [IsPreorder _ R] {ι : Type} {body : ι → Prog E C Unit} {J : List ι → World Ev S → Prop}
    {Q : Except E Unit → World Ev S → Prop}
    (hbody : ∀ x l σ, J (x :: l) σ → Good G R A i (body x) (fun r σ' => match r with
      | .ok () => J l σ'
      | .error e => Q (.error e) σ') σ)
    (hend : ∀ σ σ', J [] σ → R σ σ' → Q (.ok ()) σ') {l : List ι} {σ : World Ev S} (h : J l σ) :
    Good G R A i (Prog.forEach l body) Q σ := by
  induction l generalizing σ with
  | nil => exact fun τ hτ => hend σ τ h hτ
  | cons x l ih =>
    refine Good.bind ((hbody x l σ h).mono fun r σ' hr => ?_)
    cases r with
    | ok u => exact ih hr
    | error e => exact hr

/-! ## Two programs -/

section Two
variable {R₀ R₁ : Change Ev S} {p q : Prog E C α} {Q₀ Q₁ : Except E α → World Ev S → Prop} {σ : World Ev S}
  {c : Conf Ev E C S α}

/-- Two programs, each good under what the other guarantees. -/
def Both (G : Allow Ev S) (R₀ R₁ : Change Ev S) (Q₀ Q₁ : Except E α → World Ev S → Prop) (c : Conf Ev E C S α) :
    Prop :=
  ∃ p q, c.progs = [p, q] ∧ Good G R₀ R₁ 0 p Q₀ c.world ∧ Good G R₁ R₀ 1 q Q₁ c.world

theorem both_step [IsPreorder _ R₀] [IsPreorder _ R₁] {I : World Ev S → Prop} (hI₀ : ∀ σ σ', R₀ σ σ' → I σ → I σ') (hI₁ : ∀ σ σ', R₁ σ σ' → I σ → I σ')
    {c c' : Conf Ev E C S α} (hs : Step G.guard c c') (h : Both G R₀ R₁ Q₀ Q₁ c ∧ I c.world) :
    Both G R₀ R₁ Q₀ Q₁ c' ∧ I c'.world := by
  obtain ⟨σ, pre, post, b, k, hg⟩ := hs
  obtain ⟨⟨p, q, hpq, hp, hq⟩, hi⟩ := h
  rcases pre with _ | ⟨x, _ | ⟨y, pre⟩⟩
  · simp only [List.nil_append, List.cons.injEq] at hpq
    obtain ⟨rfl, rfl⟩ := hpq
    obtain ⟨ha, hk⟩ := hp σ (refl_of R₀ σ) hg
    exact ⟨⟨_, q, rfl, hk, hq.env ha⟩, hI₁ _ _ ha hi⟩
  · simp only [List.cons_append, List.nil_append, List.cons.injEq] at hpq
    obtain ⟨rfl, rfl, rfl⟩ := hpq
    obtain ⟨ha, hk⟩ := hq σ (refl_of R₁ σ) hg
    exact ⟨⟨x, _, rfl, hp.env ha, hk⟩, hI₀ _ _ ha hi⟩
  · simp at hpq

/-- Along every guarded interleaving both stay good, and what both relies keep is kept. -/
theorem reach_both [IsPreorder _ R₀] [IsPreorder _ R₁] {I : World Ev S → Prop} (hI₀ : ∀ σ σ', R₀ σ σ' → I σ → I σ') (hI₁ : ∀ σ σ', R₁ σ σ' → I σ → I σ')
    (hp : Good G R₀ R₁ 0 p Q₀ σ) (hq : Good G R₁ R₀ 1 q Q₁ σ) (hi : I σ)
    (h : Reach G.guard ⟨σ, [p, q]⟩ c) : Both G R₀ R₁ Q₀ Q₁ c ∧ I c.world :=
  reach_inv (I := fun c => Both G R₀ R₁ Q₀ Q₁ c ∧ I c.world) (fun _ _ hs => both_step hI₀ hI₁ hs) h
    ⟨⟨p, q, rfl, hp, hq⟩, hi⟩

/-- Once the first program has ended, its postcondition holds. -/
theorem Both.first [IsPreorder _ R₀] (h : Both G R₀ R₁ Q₀ Q₁ c) (hf : Finished c) :
    ∃ r, Q₀ r c.world := by
  obtain ⟨p, q, hpq, hp, -⟩ := h
  rcases hf p (by simp [hpq]) with ⟨a, rfl⟩ | ⟨e, rfl⟩
  · exact ⟨_, hp _ (refl_of R₀ _)⟩
  · exact ⟨_, hp _ (refl_of R₀ _)⟩

end Two
end Rely
