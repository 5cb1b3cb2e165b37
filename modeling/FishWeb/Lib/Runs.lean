import Mathlib.Tactic.Common
/-!
# Runs of requests, one after another

`after step rs s` is the state a server reaches from `s` by handling the requests
`rs` in order. `All step P rs s` says that every request of the run meets `P` in
the state that handles it: a guard on inputs when it is assumed, a postcondition
when it is proved.
-/

namespace Runs

variable {R S : Type} (step : R → S → S)

/-- The state after the requests `rs`. -/
def after : List R → S → S
  | [], s => s
  | r :: rs, s => after rs (step r s)

/-- How many requests of the run meet `P` in the state they are handled in. -/
def count (P : R → S → Bool) : List R → S → Nat
  | [], _ => 0
  | r :: rs, s => (P r s).toNat + count P rs (step r s)

/-- Every request of the run meets `P` in the state it is handled in. -/
def All (P : R → S → Prop) : List R → S → Prop
  | [], _ => True
  | r :: rs, s => P r s ∧ All P rs (step r s)

variable {step}

@[simp] theorem after_nil (s : S) : after step [] s = s := rfl

@[simp] theorem after_cons (r : R) (rs : List R) (s : S) : after step (r :: rs) s = after step rs (step r s) := rfl

theorem after_append (rs rs' : List R) (s : S) : after step (rs ++ rs') s = after step rs' (after step rs s) := by
  induction rs generalizing s with
  | nil => rfl
  | cons r rs ih => exact ih _

@[simp] theorem all_nil (P : R → S → Prop) (s : S) : All step P [] s := trivial

@[simp] theorem all_cons (P : R → S → Prop) (r : R) (rs : List R) (s : S) :
    All step P (r :: rs) s ↔ P r s ∧ All step P rs (step r s) := Iff.rfl

theorem all_append (P : R → S → Prop) (rs rs' : List R) (s : S) :
    All step P (rs ++ rs') s ↔ All step P rs s ∧ All step P rs' (after step rs s) := by
  induction rs generalizing s with
  | nil => simp
  | cons r rs ih => rw [List.cons_append, all_cons, all_cons, after_cons, ih, and_assoc]

theorem All.mono {P Q : R → S → Prop} (h : ∀ r s, P r s → Q r s) {rs : List R} {s : S} (hp : All step P rs s) :
    All step Q rs s := by
  induction rs generalizing s with
  | nil => trivial
  | cons r rs ih => exact ⟨h r s hp.1, ih hp.2⟩

theorem all_and {P Q : R → S → Prop} {rs : List R} {s : S} (hp : All step P rs s) (hq : All step Q rs s) :
    All step (fun r s => P r s ∧ Q r s) rs s := by
  induction rs generalizing s with
  | nil => trivial
  | cons r rs ih => exact ⟨⟨hp.1, hq.1⟩, ih hp.2 hq.2⟩

/-- What every request keeps, the run keeps. `G` is the guard the run's requests meet. -/
theorem after_inv {G : R → S → Prop} {I : S → Prop} (hstep : ∀ r s, G r s → I s → I (step r s))
    {rs : List R} {s : S} (hg : All step G rs s) (hs : I s) : I (after step rs s) := by
  induction rs generalizing s with
  | nil => exact hs
  | cons r rs ih => exact ih hg.2 (hstep r s hg.1 hs)

theorem after_keeps {I : S → Prop} (hstep : ∀ r s, I s → I (step r s)) (rs : List R) {s : S} (hs : I s) :
    I (after step rs s) := by
  induction rs generalizing s with
  | nil => exact hs
  | cons r rs ih => exact ih (hstep r s hs)

/-- An invariant of the run turns its guard into a postcondition of every request. -/
theorem all_of_inv {G P : R → S → Prop} {I : S → Prop} (hstep : ∀ r s, G r s → I s → I (step r s))
    (hpost : ∀ r s, G r s → I s → P r s) {rs : List R} {s : S} (hg : All step G rs s) (hs : I s) :
    All step P rs s := by
  induction rs generalizing s with
  | nil => trivial
  | cons r rs ih => exact ⟨hpost r s hg.1 hs, ih hg.2 (hstep r s hg.1 hs)⟩

theorem all_of_mem {P : R → Prop} {rs : List R} (h : ∀ r ∈ rs, P r) (s : S) : All step (fun r _ => P r) rs s := by
  induction rs generalizing s with
  | nil => trivial
  | cons r rs ih => exact ⟨h r List.mem_cons_self, ih (fun q hq => h q (List.mem_cons_of_mem r hq)) _⟩

/-- A condition on the requests alone holds along a run if it holds of each. -/
theorem all_iff_forall {P : R → Prop} {rs : List R} {s : S} : All step (fun r _ => P r) rs s ↔ ∀ r ∈ rs, P r := by
  refine ⟨fun h => ?_, fun h => all_of_mem h s⟩
  induction rs generalizing s with
  | nil => exact fun r hr => absurd hr List.not_mem_nil
  | cons r rs ih => exact List.forall_mem_cons.2 ⟨h.1, ih h.2⟩

/-- Two conditions that agree on the states of a run. The invariant is kept by the requests that meet them. -/
theorem all_congr {G P Q : R → S → Prop} {I : S → Prop} (hiff : ∀ r s, G r s → I s → (P r s ↔ Q r s))
    (hstep : ∀ r s, G r s → Q r s → I s → I (step r s)) {rs : List R} {s : S} (hg : All step G rs s) (hs : I s) :
    All step P rs s ↔ All step Q rs s := by
  induction rs generalizing s with
  | nil => exact Iff.rfl
  | cons r rs ih =>
    -- the state after `r` has the invariant from whichever of the two holds
    constructor
    · rintro ⟨hp, hrest⟩
      have hq := (hiff r s hg.1 hs).1 hp
      exact ⟨hq, (ih hg.2 (hstep r s hg.1 hq hs)).1 hrest⟩
    · rintro ⟨hq, hrest⟩
      exact ⟨(hiff r s hg.1 hs).2 hq, (ih hg.2 (hstep r s hg.1 hq hs)).2 hrest⟩

/-- Two conditions that agree on the states of any run. -/
theorem all_iff {P Q : R → S → Prop} {I : S → Prop} (hiff : ∀ r s, I s → (P r s ↔ Q r s))
    (hstep : ∀ r s, Q r s → I s → I (step r s)) {rs : List R} {s : S} (hs : I s) : All step P rs s ↔ All step Q rs s :=
  all_congr (G := fun _ _ => True) (fun r s _ => hiff r s) (fun r s _ => hstep r s)
    (all_of_mem (P := fun _ => True) (fun _ _ => trivial) s) hs

/-- What an invariant of any run gives, every request of it gives. -/
theorem all_of_keeps {P : R → S → Prop} {I : S → Prop} (hstep : ∀ r s, I s → I (step r s)) (hpost : ∀ r s, I s → P r s)
    {rs : List R} {s : S} (hs : I s) : All step P rs s :=
  all_of_inv (G := fun _ _ => True) (fun r s _ => hstep r s) (fun r s _ => hpost r s)
    (all_of_mem (P := fun _ => True) (fun _ _ => trivial) s) hs

/-- A token that `Q` makes and `P` uses up, of which there are `φ`. -/
theorem count_le {G : R → S → Prop} {I : S → Prop} {P Q : R → S → Bool} {φ : S → Nat}
    (hstep : ∀ r s, G r s → I s → I (step r s))
    (huse : ∀ r s, G r s → I s → (P r s).toNat + φ (step r s) ≤ (Q r s).toNat + φ s)
    {rs : List R} {s : S} (hg : All step G rs s) (hs : I s) : count step P rs s ≤ count step Q rs s + φ s := by
  induction rs generalizing s with
  | nil => exact Nat.zero_le _
  | cons r rs ih =>
    have hone := huse r s hg.1 hs
    have hrest := ih hg.2 (hstep r s hg.1 hs)
    unfold count
    omega

/-- What only a live state admits, and never leaves one live, happens once. -/
theorem count_le_one {G : R → S → Prop} {I L : S → Prop} {P : R → S → Bool}
    (hstep : ∀ r s, G r s → I s → I (step r s)) (huse : ∀ r s, G r s → I s → P r s = true → L s ∧ ¬L (step r s))
    (hdead : ∀ r s, G r s → I s → ¬L s → ¬L (step r s)) {rs : List R} {s : S} (hg : All step G rs s) (hs : I s) :
    count step P rs s ≤ 1 ∧ (¬L s → count step P rs s = 0) := by
  induction rs generalizing s with
  | nil => exact ⟨Nat.zero_le 1, fun _ => rfl⟩
  | cons r rs ih =>
    obtain ⟨hle, hzero⟩ := ih hg.2 (hstep r s hg.1 hs)
    unfold count
    cases hp : P r s with
    | false =>
      rw [Bool.toNat_false, Nat.zero_add]
      exact ⟨hle, fun hl => hzero (hdead r s hg.1 hs hl)⟩
    | true =>
      -- the state after is not live, so nothing follows
      obtain ⟨hlive, hafter⟩ := huse r s hg.1 hs hp
      rw [hzero hafter]
      exact ⟨Nat.le_refl 1, fun hl => absurd hlive hl⟩

end Runs
