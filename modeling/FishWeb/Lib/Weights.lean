import Mathlib
/-!
# Weighted choice

A draw falls to the first kind up to which the weights add up to it. With weights that are
not negative the draws of a kind are an interval as long as its weight, and these intervals
follow one another in the order of the kinds (`choose_eq_some_iff`, `card_draws`).
-/

namespace Weights

variable {κ : Type} {w : κ → Int} {num acc : Int} {k : κ} {kinds : List κ}

/-- The first kind at which the sum of the weights, from `acc` on, reaches `num`. -/
def choose (w : κ → Int) (num : Int) : List κ → Int → Option κ
  | [], _ => none
  | k :: kinds, acc => if num ≤ acc + w k then some k else choose w num kinds (acc + w k)

/-- The weights of all kinds. -/
def total (w : κ → Int) (kinds : List κ) : Int := (kinds.map w).sum

@[simp] theorem total_nil : total w [] = 0 := rfl

@[simp] theorem total_cons : total w (k :: kinds) = w k + total w kinds := by simp [total]

theorem total_nonneg (hw : ∀ k ∈ kinds, 0 ≤ w k) : 0 ≤ total w kinds :=
  List.sum_nonneg fun _ hx => by
    obtain ⟨k, hk, rfl⟩ := List.mem_map.1 hx
    exact hw k hk

/-- There is no kind only for a draw beyond all weights. -/
theorem choose_eq_none_iff (hw : ∀ k ∈ kinds, 0 ≤ w k) (hacc : acc < num) :
    choose w num kinds acc = none ↔ acc + total w kinds < num := by
  induction kinds generalizing acc with
  | nil => simpa [choose] using hacc
  | cons k kinds ih =>
    have hrest : ∀ j ∈ kinds, 0 ≤ w j := fun j hj => hw j (List.mem_cons_of_mem k hj)
    rw [choose, total_cons]
    split
    · rename_i hle
      have := total_nonneg hrest
      exact iff_of_false (by simp) (by omega)
    · rename_i hgt
      rw [ih hrest (not_le.1 hgt)]
      omega

/-- The draws of a kind: those after the weights of the kinds before it, up to its own. -/
theorem choose_eq_some_iff (hw : ∀ k ∈ kinds, 0 ≤ w k) (hacc : acc < num) :
    choose w num kinds acc = some k ↔
      ∃ before after, kinds = before ++ k :: after ∧ acc + total w before < num ∧ num ≤ acc + total w before + w k := by
  induction kinds generalizing acc with
  | nil => simp [choose]
  | cons j kinds ih =>
    have hrest : ∀ i ∈ kinds, 0 ≤ w i := fun i hi => hw i (List.mem_cons_of_mem j hi)
    rw [choose]
    split
    · rename_i hle
      constructor
      · intro hjk
        obtain rfl := Option.some.inj hjk
        exact ⟨[], kinds, rfl, by simpa using hacc, by simpa using hle⟩
      · rintro ⟨before, after, heq, hlow, hhigh⟩
        cases before with
        | nil => exact congrArg some (List.cons.inj heq).1
        | cons i before =>
          -- the sum has been reached before
          obtain ⟨rfl, rfl⟩ := List.cons.inj heq
          have := total_nonneg fun b hb => hrest b (List.mem_append_left _ hb)
          rw [total_cons] at hlow
          omega
    · rename_i hgt
      rw [ih hrest (not_le.1 hgt)]
      constructor
      · rintro ⟨before, after, rfl, hlow, hhigh⟩
        refine ⟨j :: before, after, rfl, ?_, ?_⟩ <;> rw [total_cons] <;> omega
      · rintro ⟨before, after, heq, hlow, hhigh⟩
        cases before with
        | nil =>
          obtain ⟨rfl, rfl⟩ := List.cons.inj heq
          rw [total_nil] at hhigh
          omega
        | cons i before =>
          obtain ⟨rfl, rfl⟩ := List.cons.inj heq
          rw [total_cons] at hlow hhigh
          exact ⟨before, after, rfl, by omega, by omega⟩

/-- What is chosen is a kind with a weight. -/
theorem pos_of_choose (hw : ∀ k ∈ kinds, 0 ≤ w k) (hacc : acc < num) (h : choose w num kinds acc = some k) :
    k ∈ kinds ∧ 0 < w k := by
  obtain ⟨before, after, rfl, hlow, hhigh⟩ := (choose_eq_some_iff hw hacc).1 h
  exact ⟨List.mem_append_right _ List.mem_cons_self, by omega⟩

/-- As many draws from one to the sum of all weights fall to a kind as its weight says. -/
theorem card_draws [DecidableEq κ] (hw : ∀ k ∈ kinds, 0 ≤ w k) (hnd : kinds.Nodup) (hk : k ∈ kinds) :
    (((Finset.Icc 1 (total w kinds)).filter fun num => choose w num kinds 0 = some k).card : Int) = w k := by
  obtain ⟨before, after, rfl⟩ := List.append_of_mem hk
  have hbefore : 0 ≤ total w before := total_nonneg fun b hb => hw b (List.mem_append_left _ hb)
  have hafter : 0 ≤ total w after := total_nonneg fun b hb => hw b (List.mem_append_right _ (List.mem_cons_of_mem k hb))
  have hwk := hw k hk
  have htotal : total w (before ++ k :: after) = total w before + w k + total w after := by
    simp [total, add_assoc]
  have hdraws : (Finset.Icc 1 (total w (before ++ k :: after))).filter (fun num => choose w num (before ++ k :: after) 0 = some k) =
      Finset.Ioc (total w before) (total w before + w k) := by
    ext num
    rw [Finset.mem_filter, Finset.mem_Icc, Finset.mem_Ioc, htotal]
    constructor
    · rintro ⟨⟨h1, -⟩, hchoose⟩
      obtain ⟨b, a, heq, hlow, hhigh⟩ := (choose_eq_some_iff hw (by omega)).1 hchoose
      -- the kind stands once in the list
      obtain rfl : before = b := by
        have hpos := congrArg (List.idxOf k) heq
        have hb : k ∉ b := fun hb => (List.nodup_append.1 (heq ▸ hnd)).2.2 k hb k List.mem_cons_self rfl
        have hb' : k ∉ before := fun hb' => (List.nodup_append.1 hnd).2.2 k hb' k List.mem_cons_self rfl
        rw [List.idxOf_append_of_notMem hb, List.idxOf_append_of_notMem hb', List.idxOf_cons_self, List.idxOf_cons_self] at hpos
        exact (List.append_inj heq (by omega)).1
      omega
    · rintro ⟨hlow, hhigh⟩
      exact ⟨by omega, (choose_eq_some_iff hw (by omega)).2 ⟨before, after, rfl, by omega, by omega⟩⟩
  rw [hdraws, Int.card_Ioc]
  omega

end Weights
