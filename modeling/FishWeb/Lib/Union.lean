import FishWeb.Lib.SortedSet
import Mathlib.Data.List.MinMax
/-!
# Unions of sorted sets

A union has the members of all its sets. Where several have one, its scores are combined
one after the other (`zscore_union`). The entries of a union stand in one order, by score
and those of the same score by member, so the first `n` are those that fewer than `n` are
ahead of (`mem_take_iff`).
-/

/-- In a list that stands in order, the first `n` are those that fewer than `n` are before. -/
theorem List.Pairwise.mem_take_iff {α : Type} {R : α → α → Prop} [DecidableRel R] {l : List α} (h : l.Pairwise R)
    (hasymm : ∀ a b, R a b → ¬R b a) {n : Nat} {a : α} : a ∈ l.take n ↔ a ∈ l ∧ l.countP (R · a) < n := by
  induction l generalizing n with
  | nil => simp
  | cons b l ih =>
    obtain ⟨hb, hl⟩ := List.pairwise_cons.1 h
    cases n with
    | zero => simp
    | succ n =>
      have hself : ¬R b b := fun hr => hasymm b b hr hr
      rw [List.take_succ_cons, List.mem_cons, ih hl, List.mem_cons, List.countP_cons]
      by_cases hab : a = b
      · subst hab
        have hnone : l.countP (R · a) = 0 := by
          rw [List.countP_eq_zero]
          exact fun c hc => by simpa using hasymm a c (hb c hc)
        simp [hnone, hself]
      · simp only [hab, false_or]
        refine and_congr_right fun ha => ?_
        rw [if_pos (decide_eq_true (hb a ha))]
        omega

namespace SortedSet

variable {μ σ : Type} [LinearOrder σ]

/-! ## Scores -/

section Scores
variable [DecidableEq μ] {s : SortedSet μ σ} {m k : μ} {x : σ}

theorem zscore_eq_some_iff : s.zscore m = some x ↔ (m, x) ∈ s := by
  unfold zscore
  rw [Option.map_eq_some_iff]
  constructor
  · rintro ⟨e, he, rfl⟩
    have hm : e.1 = m := by simpa using List.find?_some he
    subst hm
    exact List.mem_of_find?_eq_some he
  · intro hmem
    cases hfind : s.entries.find? (·.1 = m) with
    | none => exact absurd (decide_eq_true rfl) (List.find?_eq_none.1 hfind (m, x) hmem)
    | some e =>
      have hm : e.1 = m := by simpa using List.find?_some hfind
      have he := List.inj_on_of_nodup_map s.nodup (List.mem_of_find?_eq_some hfind) hmem hm
      exact ⟨e, rfl, by rw [he]⟩

/-- The entries of a member are its score. -/
theorem filter_member (s : SortedSet μ σ) (m : μ) : (s.entries.filter (·.1 = m)).map Prod.snd = (s.zscore m).toList := by
  have hs := s.nodup
  unfold zscore
  generalize s.entries = l at hs
  induction l with
  | nil => rfl
  | cons e l ih =>
    obtain ⟨he, hl⟩ := List.nodup_cons.1 hs
    by_cases hm : e.1 = m
    · subst hm
      have hnone : l.filter (·.1 = e.1) = [] := by
        rw [List.filter_eq_nil_iff]
        exact fun b hb => by simpa using fun heq : b.1 = e.1 => he (heq ▸ List.mem_map_of_mem hb)
      simp [hnone]
    · simpa [hm] using ih hl

variable [LT μ] [DecidableLT μ]

theorem zscore_zadd : (s.zadd m x).zscore k = if k = m then some x else s.zscore k := by
  split
  · next heq => exact heq ▸ zscore_eq_some_iff.2 (mem_zadd.2 (.inl rfl))
  · next hne =>
    refine Option.ext fun y => ?_
    rw [zscore_eq_some_iff, mem_zadd, zscore_eq_some_iff]
    constructor
    · rintro (heq | ⟨hmem, -⟩)
      · exact absurd (congrArg Prod.fst heq) hne
      · exact hmem
    · exact fun hmem => .inr ⟨hmem, hne⟩

end Scores

/-! ## The union -/

section Union
variable [LinearOrder μ] (combine : σ → σ → σ)

/-- The score with one more. -/
def joined : Option σ → σ → Option σ
  | none, x => some x
  | some y, x => some (combine y x)

/-- One more entry. -/
def join (s : SortedSet μ σ) (e : μ × σ) : SortedSet μ σ := s.zadd e.1 ((joined combine (s.zscore e.1) e.2).getD e.2)

/-- `zunionstore` -/
def union (sets : List (SortedSet μ σ)) : SortedSet μ σ := (sets.flatMap entries).foldl (join combine) ∅

variable {combine}

theorem zscore_join {s : SortedSet μ σ} {e : μ × σ} {m : μ} :
    (s.join combine e).zscore m = if m = e.1 then joined combine (s.zscore m) e.2 else s.zscore m := by
  unfold join
  rw [zscore_zadd]
  split
  · next heq =>
    rw [heq]
    cases s.zscore e.1 <;> rfl
  · rfl

theorem zscore_foldl_join {l : List (μ × σ)} {s : SortedSet μ σ} {m : μ} :
    (l.foldl (join combine) s).zscore m = ((l.filter (·.1 = m)).map Prod.snd).foldl (joined combine) (s.zscore m) := by
  induction l generalizing s with
  | nil => rfl
  | cons e l ih =>
    rw [List.foldl_cons, ih, zscore_join]
    by_cases hm : e.1 = m
    · rw [if_pos hm.symm, List.filter_cons_of_pos (by simpa using hm)]
      rfl
    · rw [if_neg (Ne.symm hm), List.filter_cons_of_neg (by simpa using hm)]

/-- A member of the union has its scores in the sets, combined. -/
theorem zscore_union (sets : List (SortedSet μ σ)) (m : μ) :
    (union combine sets).zscore m = (sets.filterMap (·.zscore m)).foldl (joined combine) none := by
  have hscores : ((sets.flatMap entries).filter (·.1 = m)).map Prod.snd = sets.filterMap (·.zscore m) := by
    induction sets with
    | nil => rfl
    | cons s sets ih =>
      rw [List.flatMap_cons, List.filter_append, List.map_append, ih, filter_member, List.filterMap_cons]
      cases s.zscore m <;> rfl
  have hempty : (∅ : SortedSet μ σ).zscore m = none := rfl
  rw [union, zscore_foldl_join, hscores, hempty]

/-- The greater of all scores. -/
theorem foldl_joined_max (xs : List σ) : xs.foldl (joined max) none = xs.max? := by
  have hsome : ∀ (xs : List σ) y, xs.foldl (joined max) (some y) = some (xs.foldl max y) := by
    intro xs
    induction xs with
    | nil => exact fun y => rfl
    | cons x xs ih => exact fun y => ih (max y x)
  cases xs with
  | nil => rfl
  | cons x xs => exact hsome xs x

/-! ## The order -/

/-- In the order of a ranking: a higher score, or the same and a greater member. -/
def Ahead (a b : μ × σ) : Prop := b.2 < a.2 ∨ b.2 = a.2 ∧ b.1 < a.1

instance : DecidableRel (Ahead (μ := μ) (σ := σ)) := fun a b => inferInstanceAs (Decidable (b.2 < a.2 ∨ b.2 = a.2 ∧ b.1 < a.1))

theorem Ahead.asymm {a b : μ × σ} (h : Ahead a b) : ¬Ahead b a := by
  rcases h with hlt | ⟨heq, hlt⟩
  · rintro (hlt' | ⟨heq', -⟩)
    · exact lt_asymm hlt hlt'
    · exact hlt.ne' heq'
  · rintro (hlt' | ⟨-, hlt'⟩)
    · exact hlt'.ne' heq
    · exact lt_asymm hlt hlt'

theorem Ahead.trans {a b c : μ × σ} (hab : Ahead a b) (hbc : Ahead b c) : Ahead a c := by
  rcases hab with hab | ⟨hab, hab'⟩ <;> rcases hbc with hbc | ⟨hbc, hbc'⟩
  · exact .inl (hbc.trans hab)
  · exact .inl (hbc.trans_lt hab)
  · exact .inl (hbc.trans_eq hab)
  · exact .inr ⟨hbc.trans hab, hbc'.trans hab'⟩

theorem place_ahead {m : μ} {x : σ} {l : List (μ × σ)} (h : l.Pairwise Ahead) (hm : m ∉ l.map Prod.fst) :
    (place m x l).Pairwise Ahead := by
  induction l with
  | nil => exact List.pairwise_singleton _ _
  | cons e l ih =>
    obtain ⟨he, hl⟩ := List.pairwise_cons.1 h
    rw [List.map_cons, List.mem_cons, not_or] at hm
    unfold place
    split
    next hahead =>
      refine List.pairwise_cons.2 ⟨fun b hb => ?_, h⟩
      rcases List.mem_cons.1 hb with rfl | hb
      · exact hahead
      · exact Ahead.trans (b := e) hahead (he b hb)
    next hahead =>
      -- the two differ, so one of them is ahead
      have hbehind : Ahead e (m, x) := by
        rw [not_or, not_lt] at hahead
        rcases hahead.1.lt_or_eq with hlt | heq
        · exact .inl hlt
        · exact .inr ⟨heq, (lt_or_gt_of_ne hm.1).resolve_right fun hlt => hahead.2 ⟨heq.symm, hlt⟩⟩
      refine List.pairwise_cons.2 ⟨fun b hb => ?_, ih hl hm.2⟩
      rcases List.mem_cons.1 ((place_perm m x l).mem_iff.1 hb) with rfl | hb
      · exact hbehind
      · exact he b hb

theorem join_ahead {s : SortedSet μ σ} (h : s.entries.Pairwise Ahead) (e : μ × σ) : (s.join combine e).entries.Pairwise Ahead := by
  refine place_ahead (h.sublist List.filter_sublist) ?_
  rw [List.mem_map]
  rintro ⟨b, hb, heq⟩
  simp [heq] at hb

/-- The entries of a union stand in order. -/
theorem union_ahead (sets : List (SortedSet μ σ)) : (union combine sets).entries.Pairwise Ahead := by
  unfold union
  generalize sets.flatMap entries = l
  have hfold : ∀ (l : List (μ × σ)) (s : SortedSet μ σ), s.entries.Pairwise Ahead → (l.foldl (join combine) s).entries.Pairwise Ahead := by
    intro l
    induction l with
    | nil => exact fun s h => h
    | cons e l ih => exact fun s h => ih _ (join_ahead h e)
  exact hfold l ∅ .nil

end Union

end SortedSet
