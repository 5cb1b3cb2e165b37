import Mathlib.Logic.Relation
import Mathlib.Data.List.Nodup
import Mathlib.Data.List.Pairwise
import Mathlib.Tactic.Common
/-!
# Overlapping lists and their components

Lists of points, of which two are neighbours when they share a point. `Components ls rs`
says that `rs` are the unions of the connected components of `ls`, one list each.
-/

namespace Overlap

variable {α : Type}

/-- The lists share a point. -/
def Meet (a b : List α) : Prop := ∃ p ∈ a, p ∈ b

theorem Meet.symm {a b : List α} (h : Meet a b) : Meet b a := h.imp fun _ ⟨ha, hb⟩ => ⟨hb, ha⟩

theorem meet_self {a : List α} (h : a ≠ []) : Meet a a := (List.exists_mem_of_ne_nil a h).imp fun _ hp => ⟨hp, hp⟩

instance [DecidableEq α] (a b : List α) : Decidable (Meet a b) := inferInstanceAs (Decidable (∃ p ∈ a, p ∈ b))

/-- A chain of lists with `P` leads from one to the other, each sharing a point with the next. -/
def LinkedBy (P : List α → Prop) : List α → List α → Prop := Relation.ReflTransGen fun a b => P b ∧ Meet a b

/-- A chain of lists of the family. -/
abbrev Linked (ls : List (List α)) : List α → List α → Prop := LinkedBy (· ∈ ls)

section Linked
variable {ls ls' : List (List α)} {a b : List α}

theorem LinkedBy.mono {P Q : List α → Prop} (h : LinkedBy P a b) (hPQ : ∀ c, P c → Q c) : LinkedBy Q a b :=
  Relation.ReflTransGen.mono (fun _ c hc => ⟨hPQ c hc.1, hc.2⟩) _ _ h

/-- What the steps of a chain keep, the chain keeps. -/
theorem LinkedBy.closed {P Q : List α → Prop} (h : LinkedBy Q a b) (ha : P a) (hP : ∀ c d, P c → Q d → Meet c d → P d) :
    P b := by
  induction h with
  | refl => exact ha
  | tail _ hstep ih => exact hP _ _ ih hstep.1 hstep.2

theorem LinkedBy.mem (h : Linked ls a b) (ha : a ∈ ls) : b ∈ ls := h.closed ha fun _ _ _ hd _ => hd

theorem LinkedBy.symm (h : Linked ls a b) (ha : a ∈ ls) : Linked ls b a := by
  induction h with
  | refl => exact .refl
  | tail hab hstep ih => exact .head ⟨LinkedBy.mem hab ha, hstep.2.symm⟩ ih

/-- A chain of lists that are all parts of lists of the family. -/
theorem LinkedBy.cover {P : List α → Prop} (h : LinkedBy P a b) (hcov : ∀ c, P c → ∃ d ∈ ls, c ⊆ d) {a' : List α}
    (ha' : a' ∈ ls) (hsub : a ⊆ a') : ∃ b' ∈ ls, b ⊆ b' ∧ Linked ls a' b' := by
  induction h with
  | refl => exact ⟨a', ha', hsub, .refl⟩
  | tail _ hstep ih =>
    obtain ⟨b', -, hbb', hlink⟩ := ih
    obtain ⟨c', hc', hcc'⟩ := hcov _ hstep.1
    obtain ⟨p, hpb, hpc⟩ := hstep.2
    exact ⟨c', hc', hcc', .tail hlink ⟨hc', p, hbb' hpb, hcc' hpc⟩⟩

end Linked

/-- The lists `rs` are the connected components of `ls`: duplicate-free, without a common
point, each of them all the points linked to some list, and every list in one of them. -/
structure Components (ls rs : List (List α)) : Prop where
  nodup : ∀ r ∈ rs, r.Nodup
  disjoint : rs.Pairwise List.Disjoint
  component : ∀ r ∈ rs, ∃ a ∈ ls, ∀ p, p ∈ r ↔ ∃ b, Linked ls a b ∧ p ∈ b
  cover : ∀ a ∈ ls, ∃ r ∈ rs, a ⊆ r

theorem components_nil : Components ([] : List (List α)) [] := by
  constructor <;> simp

section Components
variable {ls rs : List (List α)}

/-- The component that a list of the family is in. -/
theorem Components.of_mem (h : Components ls rs) (hne : ∀ a ∈ ls, a ≠ []) {a r : List α} (ha : a ∈ ls) (hr : r ∈ rs)
    (hsub : a ⊆ r) (p : α) : p ∈ r ↔ ∃ b, Linked ls a b ∧ p ∈ b := by
  obtain ⟨c, hc, hcomp⟩ := h.component r hr
  -- `a` has a point, which is in a list linked to the root of `r`
  obtain ⟨q, hq⟩ := List.exists_mem_of_ne_nil a (hne a ha)
  obtain ⟨d, hcd, hqd⟩ := (hcomp q).1 (hsub hq)
  have hca : Linked ls c a := .tail hcd ⟨ha, q, hqd, hq⟩
  rw [hcomp p]
  exact ⟨fun ⟨b, hb, hp⟩ => ⟨b, (hca.symm hc).trans hb, hp⟩, fun ⟨b, hb, hp⟩ => ⟨b, hca.trans hb, hp⟩⟩

/-- Two lists are in one component exactly when they are linked. -/
theorem Components.linked_iff (h : Components ls rs) (hne : ∀ a ∈ ls, a ≠ []) {a b : List α} (ha : a ∈ ls)
    (hb : b ∈ ls) : (∃ r ∈ rs, a ⊆ r ∧ b ⊆ r) ↔ Linked ls a b := by
  constructor
  · rintro ⟨r, hr, har, hbr⟩
    obtain ⟨q, hq⟩ := List.exists_mem_of_ne_nil b (hne b hb)
    obtain ⟨c, hac, hqc⟩ := (h.of_mem hne ha hr har q).1 (hbr hq)
    exact .tail hac ⟨hb, q, hqc, hq⟩
  · intro hab
    obtain ⟨r, hr, har⟩ := h.cover a ha
    exact ⟨r, hr, har, fun p hp => (h.of_mem hne ha hr har p).2 ⟨b, hab, hp⟩⟩

/-- The points of the components are the points of the lists. -/
theorem Components.mem_iff (h : Components ls rs) (p : α) : (∃ r ∈ rs, p ∈ r) ↔ ∃ a ∈ ls, p ∈ a := by
  constructor
  · rintro ⟨r, hr, hp⟩
    obtain ⟨a, ha, hcomp⟩ := h.component r hr
    obtain ⟨b, hab, hpb⟩ := (hcomp p).1 hp
    exact ⟨b, hab.mem ha, hpb⟩
  · rintro ⟨a, ha, hp⟩
    obtain ⟨r, hr, hsub⟩ := h.cover a ha
    exact ⟨r, hr, hsub hp⟩

/-- A point is in one component at most. -/
theorem Components.eq_of_mem (h : Components ls rs) {p : α} {r r' : List α} (hr : r ∈ rs) (hr' : r' ∈ rs) (hp : p ∈ r)
    (hp' : p ∈ r') : r = r' := by
  have hsymm : Std.Symm (List.Disjoint (α := α)) := ⟨fun _ _ hd _ hp hq => hd hq hp⟩
  by_contra hne
  exact h.disjoint.forall hr hr' hne hp hp'

/-- Two points are in one component of a family exactly when a chain of lists with `P` leads from one to
the other, where the family has lists with `P` only and all others are parts of them. -/
theorem Components.chained_iff (h : Components ls rs) (hne : ∀ a ∈ ls, a ≠ []) {P : List α → Prop}
    (hP : ∀ a ∈ ls, P a) (hcov : ∀ a, P a → ∃ b ∈ ls, a ⊆ b) (p q : α) :
    (∃ r ∈ rs, p ∈ r ∧ q ∈ r) ↔ ∃ a b, P a ∧ p ∈ a ∧ q ∈ b ∧ LinkedBy P a b := by
  constructor
  · rintro ⟨r, hr, hp, hq⟩
    obtain ⟨c, hc, hcomp⟩ := h.component r hr
    obtain ⟨a, hca, hpa⟩ := (hcomp p).1 hp
    obtain ⟨b, hcb, hqb⟩ := (hcomp q).1 hq
    have hab : Linked ls a b := (hca.symm hc).trans hcb
    exact ⟨a, b, hP a (hca.mem hc), hpa, hqb, hab.mono hP⟩
  · rintro ⟨a, b, ha, hpa, hqb, hab⟩
    obtain ⟨a', ha', haa'⟩ := hcov a ha
    obtain ⟨b', hb', hbb', hlink⟩ := hab.cover hcov ha' haa'
    obtain ⟨r, hr, har, hbr⟩ := (h.linked_iff hne ha' hb').2 hlink
    exact ⟨r, hr, har (haa' hpa), hbr (hbb' hqb)⟩

/-- A family splits into a connected part and a rest that does not meet it. -/
theorem Components.cons {part rest : List (List α)} {a r : List α} (h : Components rest rs)
    (hls : ∀ b, b ∈ ls ↔ b ∈ part ∨ b ∈ rest) (ha : a ∈ part) (hlink : ∀ b ∈ part, Linked ls a b)
    (hapart : ∀ b ∈ part, ∀ c ∈ rest, ¬Meet b c) (hnd : r.Nodup) (hr : ∀ p, p ∈ r ↔ ∃ b ∈ part, p ∈ b) :
    Components ls (r :: rs) := by
  have hpart : ∀ b, Linked ls a b → b ∈ part := fun b hb =>
    hb.closed ha fun c d hc hd hmeet => ((hls d).1 hd).resolve_right fun hrest => hapart c hc d hrest hmeet
  have hrest : ∀ b c, b ∈ rest → (Linked ls b c ↔ Linked rest b c) := by
    refine fun b c hb => ⟨fun hbc => ?_, fun hbc => hbc.mono fun d hd => (hls d).2 (.inr hd)⟩
    -- a chain that starts in the rest stays there
    have hstay : c ∈ rest ∧ Linked rest b c :=
      hbc.closed (P := fun c => c ∈ rest ∧ Linked rest b c) ⟨hb, .refl⟩ fun d e ⟨hd, hbd⟩ he hmeet => by
        have her : e ∈ rest := ((hls e).1 he).resolve_left fun hep => hapart e hep d hd hmeet.symm
        exact ⟨her, .tail hbd ⟨her, hmeet⟩⟩
    exact hstay.2
  refine ⟨?_, ?_, ?_, ?_⟩
  · exact List.forall_mem_cons.2 ⟨hnd, h.nodup⟩
  · refine List.pairwise_cons.2 ⟨fun r' hr' p hp hp' => ?_, h.disjoint⟩
    obtain ⟨b, hb, hpb⟩ := (hr p).1 hp
    obtain ⟨c, hc, hpc⟩ := (h.mem_iff p).1 ⟨r', hr', hp'⟩
    exact hapart b hb c hc ⟨p, hpb, hpc⟩
  · refine List.forall_mem_cons.2 ⟨⟨a, (hls a).2 (.inl ha), fun p => ?_⟩, fun r' hr' => ?_⟩
    · rw [hr p]
      exact ⟨fun ⟨b, hb, hp⟩ => ⟨b, hlink b hb, hp⟩, fun ⟨b, hb, hp⟩ => ⟨b, hpart b hb, hp⟩⟩
    · obtain ⟨c, hc, hcomp⟩ := h.component r' hr'
      exact ⟨c, (hls c).2 (.inr hc), fun p => by simp only [hcomp p, hrest c _ hc]⟩
  · intro b hb
    rcases (hls b).1 hb with hbp | hbr
    · exact ⟨r, List.mem_cons_self, fun p hp => (hr p).2 ⟨b, hbp, hp⟩⟩
    · obtain ⟨r', hr', hsub⟩ := h.cover b hbr
      exact ⟨r', List.mem_cons_of_mem r hr', hsub⟩

end Components

end Overlap
