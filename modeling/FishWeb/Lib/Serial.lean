import FishWeb.Lib.Pool
import Mathlib.Algebra.Order.BigOperators.Group.List
import Mathlib.Algebra.Order.Ring.Int
/-!
# Rations, tested one at a time

A mark in the store counts how often something was handed out, up to a limit. A
program tests the mark, hands out and writes the mark, in separate commands.
`Outside` programs have not tested yet; from its test to its mark a program is in
its `Window`; after the mark it `Spends` what the mark accounts for. If no program
tests while another is in its window (`oneAtATime`), no interleaving hands out
more than the limit (`handed_le`).
-/

open Exec Note Pool

/-- A mark, its limit, and the events that show a test of it, a writing of it and a handing out. -/
structure Ration (Ev S : Type) where
  uses : S → Int
  limit : Int
  tests : Ev → Bool
  marks : Ev → Bool
  hands : Ev → Bool

namespace Ration

variable {E : Type} {C : Type → Type} {Ev S α β : Type} [Exec C S] [Note C Ev]

/-! ## What a program does -/

section Program
variable (I : S → Prop) (R : Ration Ev S)

/-- The program hands out at most `a` times, and leaves the mark. -/
def Spends : Nat → Prog E C α → Prop
  | _, .ret _ => True
  | _, .raise _ => True
  | a, .cmd c k => ∀ s, I s → R.uses (exec c s).2 = R.uses s ∧ (note c (exec c s).1).countP R.hands ≤ a ∧
      Spends (a - (note c (exec c s).1).countP R.hands) (k (exec c s).1)

/-- The program has read `m` uses and handed out `q` times that the mark does not show yet. -/
def Window (m : Int) : Nat → Prog E C α → Prop
  | q, .ret _ => q = 0
  | q, .raise _ => q = 0
  | q, .cmd c k => m + q ≤ max R.limit m ∧ ∀ s, I s → R.uses s = m →
      if (note c (exec c s).1).any R.marks then
        ∃ a : Nat, m + q + (note c (exec c s).1).countP R.hands + a ≤ R.uses (exec c s).2 ∧
          R.uses (exec c s).2 ≤ max R.limit m ∧ Spends I R a (k (exec c s).1)
      else
        R.uses (exec c s).2 = m ∧ Window m (q + (note c (exec c s).1).countP R.hands) (k (exec c s).1)

/-- The program leaves the mark and hands nothing out before it has tested. -/
def Outside : Prog E C α → Prop
  | .ret _ => True
  | .raise _ => True
  | .cmd c k => ∀ s, I s → R.uses (exec c s).2 = R.uses s ∧ (note c (exec c s).1).countP R.hands = 0 ∧
      (note c (exec c s).1).any R.marks = false ∧
      if (note c (exec c s).1).any R.tests then Window I R (R.uses s) 0 (k (exec c s).1)
      else Outside (k (exec c s).1)

end Program

/-! ## The guard -/

/-- The program has a command to issue. -/
def running : Prog E C α → Bool
  | .cmd _ _ => true
  | .ret _ | .raise _ => false

/-- Program `j` has shown an event with `P`. -/
def shown (P : Ev → Bool) (log : List (Nat × Ev)) (j : Nat) : Bool := log.any fun e => e.1 == j && P e.2

/-- Program `j` has tested the mark, has not written it, and will go on. -/
def atWork (R : Ration Ev S) (c : Conf Ev E C S α) (j : Nat) : Bool :=
  shown R.tests c.world.log j && !shown R.marks c.world.log j && (c.progs[j]?.any running)

/-- A program tests the mark only while no other is between its test and its mark. -/
def oneAtATime (R : Ration Ev S) : Guard Ev E C S α := fun c i evs _ =>
  evs.any R.tests = true → ∀ j ∈ List.range c.progs.length, j ≠ i → R.atWork c j = false

instance (R : Ration Ev S) (c : Conf Ev E C S α) (i : Nat) (evs : List Ev) (c' : Conf Ev E C S α) :
    Decidable (R.oneAtATime c i evs c') :=
  inferInstanceAs (Decidable (_ → _))

/-- How often the log hands out. -/
def handed (R : Ration Ev S) (log : List (Nat × Ev)) : Nat := log.countP fun e => R.hands e.2

section Run
variable {I : S → Prop} {R : Ration Ev S}

/-! ## Rules for programs -/

/-- The command leaves the mark and shows nothing of the ration. -/
def Quiet (I : S → Prop) (R : Ration Ev S) ⦃β : Type⦄ (c : C β) : Prop :=
  ∀ s, I s → R.uses (exec c s).2 = R.uses s ∧ (note c (exec c s).1).any R.tests = false ∧
    (note c (exec c s).1).any R.marks = false ∧ (note c (exec c s).1).countP R.hands = 0

theorem outside_cmd {c : C β} {k : β → Prog E C α} (hc : Quiet I R c) (hk : ∀ s, I s → Outside I R (k (exec c s).1)) :
    Outside I R (.cmd c k) := by
  intro s hs
  obtain ⟨huses, htests, hmarks, hhands⟩ := hc s hs
  refine ⟨huses, hhands, hmarks, ?_⟩
  rw [htests, if_neg Bool.false_ne_true]
  exact hk s hs

/-- The test of the mark. -/
theorem outside_test {c : C β} {k : β → Prog E C α} (hc : ∀ s, I s → R.uses (exec c s).2 = R.uses s ∧
      (note c (exec c s).1).countP R.hands = 0 ∧ (note c (exec c s).1).any R.marks = false ∧
      (note c (exec c s).1).any R.tests = true)
    (hk : ∀ s, I s → Window I R (R.uses s) 0 (k (exec c s).1)) : Outside I R (.cmd c k) := by
  intro s hs
  obtain ⟨huses, hhands, hmarks, htests⟩ := hc s hs
  refine ⟨huses, hhands, hmarks, ?_⟩
  rw [if_pos htests]
  exact hk s hs

theorem outside_bind {p : Prog E C α} {f : α → Prog E C β} (hp : Prog.Only (Quiet I R) p) (hf : ∀ a, Outside I R (f a)) :
    Outside I R (p >>= f) := by
  induction p with
  | ret a => exact hf a
  | raise e => trivial
  | cmd c k ih => exact outside_cmd hp.1 fun s _ => ih _ (hp.2 _)

theorem window_cmd {m : Int} {q : Nat} {c : C β} {k : β → Prog E C α} (hle : m + q ≤ max R.limit m) (hc : Quiet I R c)
    (hk : ∀ s, I s → R.uses s = m → Window I R m q (k (exec c s).1)) : Window I R m q (.cmd c k) := by
  refine ⟨hle, fun s hs hm => ?_⟩
  obtain ⟨huses, -, hmarks, hhands⟩ := hc s hs
  rw [hmarks, if_neg Bool.false_ne_true, hhands]
  exact ⟨huses.trans hm, hk s hs hm⟩

/-- A command that hands out before the mark is written. -/
theorem window_hand {m : Int} {q : Nat} {c : C β} {k : β → Prog E C α} (n : Nat) (hle : m + q ≤ max R.limit m)
    (hc : ∀ s, I s → R.uses (exec c s).2 = R.uses s ∧ (note c (exec c s).1).any R.marks = false ∧
      (note c (exec c s).1).countP R.hands = n)
    (hk : ∀ s, I s → Window I R m (q + n) (k (exec c s).1)) : Window I R m q (.cmd c k) := by
  refine ⟨hle, fun s hs hm => ?_⟩
  obtain ⟨huses, hmarks, hhands⟩ := hc s hs
  rw [hmarks, if_neg Bool.false_ne_true, hhands]
  exact ⟨huses.trans hm, hk s hs⟩

/-- Before anything is handed out, a window may end at any time. -/
theorem window_bind {m : Int} {p : Prog E C α} {f : α → Prog E C β} (hp : Prog.Only (Quiet I R) p)
    (hf : ∀ a, Window I R m 0 (f a)) : Window I R m 0 (p >>= f) := by
  induction p with
  | ret a => exact hf a
  | raise e => rfl
  | cmd c k ih => exact window_cmd (by simp) hp.1 fun s _ _ => ih _ (hp.2 _)

/-- A command that writes the mark, and may hand out as well. -/
theorem window_mark {m : Int} {q : Nat} {c : C β} {k : β → Prog E C α} (a : Nat) (hle : m + q ≤ max R.limit m)
    (hc : ∀ s, I s → R.uses s = m → (note c (exec c s).1).any R.marks = true ∧
      m + q + (note c (exec c s).1).countP R.hands + a ≤ R.uses (exec c s).2 ∧ R.uses (exec c s).2 ≤ max R.limit m)
    (hk : ∀ s, I s → Spends I R a (k (exec c s).1)) : Window I R m q (.cmd c k) := by
  refine ⟨hle, fun s hs hm => ?_⟩
  obtain ⟨hmarks, hroom, hlimit⟩ := hc s hs hm
  rw [if_pos hmarks]
  exact ⟨a, hroom, hlimit, hk s hs⟩

theorem spends_cmd {a : Nat} {c : C β} {k : β → Prog E C α} (hc : Quiet I R c) (hk : ∀ s, I s → Spends I R a (k (exec c s).1)) :
    Spends I R a (.cmd c k) := by
  intro s hs
  obtain ⟨huses, -, -, hhands⟩ := hc s hs
  rw [hhands]
  exact ⟨huses, Nat.zero_le a, hk s hs⟩

/-- A command that hands out what the mark accounts for. -/
theorem spends_hand {a : Nat} {c : C β} {k : β → Prog E C α}
    (hc : ∀ s, I s → R.uses (exec c s).2 = R.uses s ∧ (note c (exec c s).1).countP R.hands ≤ 1)
    (hk : ∀ s, I s → ∀ a, Spends I R a (k (exec c s).1)) : Spends I R (a + 1) (.cmd c k) := by
  intro s hs
  obtain ⟨huses, hhands⟩ := hc s hs
  exact ⟨huses, by omega, hk s hs _⟩

/-! ## One step -/

/-- What program `j`, with `p` left to run, may still hand out beyond what it has handed out unmarked. -/
inductive Standing (I : S → Prop) (R : Ration Ev S) (σ : World Ev S) (j : Nat) : Int → Prog E C α → Prop
  | outside {p : Prog E C α} (h : Outside I R p) (hmarks : shown R.marks σ.log j = false) : Standing I R σ j 0 p
  | window {p : Prog E C α} {q : Nat} (h : Window I R (R.uses σ.store) q p) (htests : shown R.tests σ.log j = true)
      (hmarks : shown R.marks σ.log j = false) : Standing I R σ j (-q) p
  | spends {p : Prog E C α} {a : Nat} (h : Spends I R a p) : Standing I R σ j a p

theorem shown_after (P : Ev → Bool) (i : Nat) (c : C β) (σ : World Ev S) (j : Nat) :
    shown P (after i c σ).log j = (shown P σ.log j || (i == j && (note c (exec c σ.store).1).any P)) := by
  unfold shown
  rw [after_log, List.any_append, List.any_map]
  congr 1
  cases h : i == j <;> simp [Function.comp_def, h]

theorem handed_after (i : Nat) (c : C β) (σ : World Ev S) :
    R.handed (after i c σ).log = R.handed σ.log + (note c (exec c σ.store).1).countP R.hands := by
  unfold handed
  rw [after_log, List.countP_append, List.countP_map]
  rfl

/-- The program that moves. What it hands out, it takes from what it may or adds to the mark. -/
theorem Standing.step {σ : World Ev S} {i : Nat} {d : Int} {c : C β} {k : β → Prog E C α} (hs : I σ.store)
    (h : Standing I R σ i d (.cmd c k)) : ∃ d', Standing I R (after i c σ) i d' (k (exec c σ.store).1) ∧
      (note c (exec c σ.store).1).countP R.hands + d' - d ≤ R.uses (exec c σ.store).2 - R.uses σ.store ∧
      R.uses (exec c σ.store).2 ≤ max R.limit (R.uses σ.store) ∧
      (R.uses (exec c σ.store).2 = R.uses σ.store ∨ shown R.tests σ.log i = true ∧ shown R.marks σ.log i = false) := by
  cases h with
  | outside h hmarks =>
    obtain ⟨huses, hhands, hnone, hnext⟩ := h σ.store hs
    have hafter : shown R.marks (after i c σ).log i = false := by rw [shown_after, hmarks, hnone]; simp
    refine ⟨0, ?_, by omega, by omega, .inl huses⟩
    split at hnext
    · next htests =>
      refine .window (q := 0) (huses.symm ▸ hnext) ?_ hafter
      rw [shown_after, htests]
      simp
    · exact .outside hnext hafter
  | @window _ q h htests hmarks =>
    obtain ⟨hle, h⟩ := h
    have hnext := h σ.store hs rfl
    split at hnext
    · obtain ⟨a, hroom, hlimit, hk⟩ := hnext
      exact ⟨a, .spends hk, by omega, hlimit, .inr ⟨htests, hmarks⟩⟩
    · next hnone =>
      obtain ⟨huses, hk⟩ := hnext
      refine ⟨_, .window (huses.symm ▸ hk) ?_ ?_, by push_cast; omega, by omega, .inl huses⟩
      · rw [shown_after, htests, Bool.true_or]
      · rw [shown_after, hmarks, Bool.eq_false_iff.2 hnone]
        simp
  | @spends _ a h =>
    obtain ⟨huses, hle, hk⟩ := h σ.store hs
    exact ⟨_, .spends hk, by omega, by omega, .inl huses⟩

/-- The programs that wait. A mark is written only while no other program is at work. -/
theorem Standing.frame {σ : World Ev S} {i j : Nat} {d : Int} {c : C β} {p : Prog E C α} (hij : i ≠ j)
    (h : Standing I R σ j d p)
    (huses : R.uses (exec c σ.store).2 = R.uses σ.store ∨
      ¬(shown R.tests σ.log j = true ∧ shown R.marks σ.log j = false ∧ running p = true)) :
    Standing I R (after i c σ) j d p := by
  have hshown : ∀ P : Ev → Bool, shown P (after i c σ).log j = shown P σ.log j := by
    intro P
    rw [shown_after, beq_eq_false_iff_ne.2 hij, Bool.false_and, Bool.or_false]
  cases h with
  | outside h hmarks => exact .outside h (by rw [hshown, hmarks])
  | spends h => exact .spends h
  | @window _ q h htests hmarks =>
    rcases huses with huses | hidle
    · exact .window (by rw [after_store, huses]; exact h) (by rw [hshown, htests]) (by rw [hshown, hmarks])
    · -- a program that has ended in its window has nothing unmarked
      cases p with
      | ret a => cases h; exact .outside trivial (by rw [hshown, hmarks])
      | raise e => cases h; exact .outside trivial (by rw [hshown, hmarks])
      | cmd b k => exact absurd ⟨htests, hmarks, rfl⟩ hidle

theorem Standing.nonneg {σ : World Ev S} {j : Nat} {d : Int} {p : Prog E C α} (h : Standing I R σ j d p) :
    R.uses σ.store - max R.limit (R.uses σ.store) ≤ d ∧
      (d < 0 → shown R.tests σ.log j = true ∧ shown R.marks σ.log j = false ∧ running p = true) := by
  cases h with
  | outside h hmarks => exact ⟨by omega, fun h => absurd h (Int.lt_irrefl 0)⟩
  | spends h => exact ⟨by omega, fun h => by omega⟩
  | @window _ q h htests hmarks =>
    cases p with
    | ret a => cases h; exact ⟨by simp, fun h => by simp at h⟩
    | raise e => cases h; exact ⟨by simp, fun h => by simp at h⟩
    | cmd b k => exact ⟨by have := h.1; omega, fun _ => ⟨htests, hmarks, rfl⟩⟩

/-! ## Runs -/

/-- At most one program is at work. -/
def Alone (R : Ration Ev S) (c : Conf Ev E C S α) : Prop := ∀ i j, R.atWork c i = true → R.atWork c j = true → i = j

theorem alone_step {c c' : Conf Ev E C S α} (hs : Step R.oneAtATime c c') (h : R.Alone c) : R.Alone c' := by
  obtain ⟨σ, pre, post, b, k, hg⟩ := hs
  -- the others are at work as before, and the one that moves was, unless it tests now
  have hother : ∀ j, j ≠ pre.length → R.atWork ⟨after pre.length b σ, pre ++ k (exec b σ.store).1 :: post⟩ j =
      R.atWork ⟨σ, pre ++ .cmd b k :: post⟩ j := by
    intro j hj
    simp only [atWork, shown_after, getElem?_replace hj _ (Prog.cmd b k), beq_eq_false_iff_ne.2 (Ne.symm hj), Bool.false_and, Bool.or_false]
  have hself : R.atWork ⟨after pre.length b σ, pre ++ k (exec b σ.store).1 :: post⟩ pre.length = true →
      R.atWork ⟨σ, pre ++ .cmd b k :: post⟩ pre.length = true ∨ (note b (exec b σ.store).1).any R.tests = true := by
    simp only [atWork, shown_after, beq_self_eq_true, Bool.true_and, Bool.and_eq_true, Bool.or_eq_true,
      Bool.not_eq_true', Bool.or_eq_false_iff]
    rintro ⟨⟨ht | ht, hm, -⟩, -⟩
    · exact .inl ⟨⟨ht, hm⟩, by simp [running]⟩
    · exact .inr ht
  have hbusy : ∀ j, j ≠ pre.length → R.atWork ⟨after pre.length b σ, pre ++ k (exec b σ.store).1 :: post⟩ j = true →
      R.atWork ⟨after pre.length b σ, pre ++ k (exec b σ.store).1 :: post⟩ pre.length = false := by
    intro j hj hw
    rw [hother j hj] at hw
    refine Bool.eq_false_iff.2 fun hi => ?_
    rcases hself hi with hi | htests
    · exact hj (h _ _ hw hi)
    · have hmem : j ∈ List.range (pre ++ Prog.cmd b k :: post).length := by
        rw [List.mem_range]
        by_contra hlen
        simp [atWork, List.getElem?_eq_none (Nat.le_of_not_lt hlen)] at hw
      exact Bool.eq_false_iff.1 (hg htests j hmem hj) hw
  intro i j hi hj
  by_cases hij : i = pre.length
  · subst hij
    by_contra hne
    exact Bool.eq_false_iff.1 (hbusy j (Ne.symm hne) hj) hi
  · by_cases hjj : j = pre.length
    · subst hjj
      exact absurd hj (Bool.eq_false_iff.1 (hbusy i hij hi))
    · rw [hother i hij] at hi
      rw [hother j hjj] at hj
      exact h i j hi hj

/-- Every program has its standing, and what was handed out is on the mark or accounted for. -/
structure Booked (I : S → Prop) (R : Ration Ev S) (m : Int) (c : Conf Ev E C S α) : Prop where
  alone : R.Alone c
  store : I c.world.store
  limit : R.uses c.world.store ≤ max R.limit m
  books : ∃ ds : List Int, ds.length = c.progs.length ∧
    (∀ j d p, ds[j]? = some d → c.progs[j]? = some p → Standing I R c.world j d p) ∧
    m + R.handed c.world.log + ds.sum ≤ R.uses c.world.store

theorem neg_le_sum {b : Int} (hb : 0 ≤ b) {ds : List Int} (h : ∀ d ∈ ds, -b ≤ d)
    (hone : ∀ (i j : Nat) (d e : Int), ds[i]? = some d → ds[j]? = some e → d < 0 → e < 0 → i = j) : -b ≤ ds.sum := by
  induction ds with
  | nil => simpa using hb
  | cons d ds ih =>
    rw [List.sum_cons]
    have htail := ih (fun e he => h e (List.mem_cons_of_mem d he)) fun i j d' e' hi hj hd' he' =>
      Nat.succ.inj (hone (i + 1) (j + 1) d' e' hi hj hd' he')
    have hd := h d List.mem_cons_self
    rcases Int.lt_or_le d 0 with hneg | hpos
    · -- the others are not negative
      have hrest : 0 ≤ ds.sum := by
        refine List.sum_nonneg fun e he => ?_
        by_contra hlt
        obtain ⟨i, hi⟩ := List.mem_iff_getElem?.1 he
        exact absurd (hone 0 (i + 1) d e rfl hi hneg (by omega)) (by omega)
      omega
    · omega

theorem Booked.handed_le {m : Int} {c : Conf Ev E C S α} (h : Booked I R m c) :
    m + R.handed c.world.log ≤ max R.limit m := by
  obtain ⟨ds, hlen, hds, hsum⟩ := h.books
  have hstand : ∀ j d, ds[j]? = some d → ∃ p, c.progs[j]? = some p ∧ Standing I R c.world j d p := by
    intro j d hd
    have hj : j < c.progs.length := by
      rw [← hlen]
      exact (List.getElem?_eq_some_iff.1 hd).1
    exact ⟨c.progs[j], List.getElem?_eq_getElem hj, hds j d _ hd (List.getElem?_eq_getElem hj)⟩
  have hbound : -(max R.limit (R.uses c.world.store) - R.uses c.world.store) ≤ ds.sum := by
    apply neg_le_sum
    · omega
    · intro d hd
      obtain ⟨j, hj⟩ := List.mem_iff_getElem?.1 hd
      obtain ⟨p, -, hp⟩ := hstand j d hj
      have := hp.nonneg.1
      omega
    · intro i j d e hi hj hd he
      obtain ⟨p, hp, hps⟩ := hstand i d hi
      obtain ⟨p', hp', hps'⟩ := hstand j e hj
      refine h.alone i j ?_ ?_
      · obtain ⟨ht, hm, hr⟩ := hps.nonneg.2 hd
        simp [atWork, ht, hm, hp, hr]
      · obtain ⟨ht, hm, hr⟩ := hps'.nonneg.2 he
        simp [atWork, ht, hm, hp', hr]
  have := h.limit
  omega

theorem Booked.step {m : Int} (hI : ∀ ⦃β : Type⦄ (c : C β) s, I s → I (exec c s).2) {c c' : Conf Ev E C S α}
    (hs : Step R.oneAtATime c c') (h : Booked I R m c) : Booked I R m c' := by
  have halone := alone_step hs h.alone
  obtain ⟨σ, pre, post, b, k, -⟩ := hs
  obtain ⟨ds, hlen, hds, hsum⟩ := h.books
  obtain ⟨dpre, d, dpost, rfl, hpre⟩ : ∃ dpre d dpost, ds = dpre ++ d :: dpost ∧ dpre.length = pre.length := by
    have hi : pre.length < ds.length := by rw [hlen]; simp
    refine ⟨ds.take pre.length, ds[pre.length], ds.drop (pre.length + 1), ?_, ?_⟩
    · rw [List.getElem_cons_drop, List.take_append_drop]
    · rw [List.length_take, Nat.min_eq_left hi.le]
  have hd : Standing I R σ pre.length d (.cmd b k) := hds _ d _ (by rw [← hpre]; simp) (by simp)
  obtain ⟨d', hstand, hroom, hlimit, hfree⟩ := hd.step h.store
  have hmax := h.limit
  refine ⟨halone, hI b _ h.store, by simp only [after_store] at *; omega, dpre ++ d' :: dpost, ?_, ?_, ?_⟩
  · simpa using hlen
  · intro j e p he hp
    by_cases hj : j = pre.length
    · subst hj
      rw [← hpre] at he
      simp at he hp
      rw [← he, ← hp]
      exact hstand
    · rw [getElem?_replace (hpre ▸ hj) d' d] at he
      rw [getElem?_replace hj _ (Prog.cmd b k)] at hp
      have hw := hds j e p he hp
      refine hw.frame (Ne.symm hj) (hfree.imp_right fun hown => ?_)
      -- the program that moves is at work, so no other is
      rintro ⟨ht, hm, hr⟩
      refine hj (h.alone j pre.length ?_ ?_)
      · simp only [atWork, ht, hm, hp, Option.any_some, hr, Bool.not_false, Bool.and_self]
      · simp [atWork, hown, running]
  · rw [handed_after]
    simp only [List.sum_append, List.sum_cons, after_store, Nat.cast_add] at hsum hroom ⊢
    omega

/-- Where no two tests overlap, what was used before and what is handed out keep to the limit. -/
theorem handed_le (hI : ∀ ⦃β : Type⦄ (c : C β) s, I s → I (exec c s).2) {c c' : Conf Ev E C S α}
    (hr : Reach R.oneAtATime c c') (hp : ∀ p ∈ c.progs, Outside I R p) (hs : I c.world.store) (hlog : c.world.log = []) :
    R.uses c.world.store + R.handed c'.world.log ≤ max R.limit (R.uses c.world.store) := by
  refine (reach_inv (I := Booked I R (R.uses c.world.store)) (fun _ _ hs h => h.step hI hs) hr ?_).handed_le
  refine ⟨?_, hs, by omega, List.replicate c.progs.length 0, by simp, ?_, ?_⟩
  · intro i j hi
    simp [atWork, shown, hlog] at hi
  · intro j d p hd hpj
    obtain rfl : d = 0 := List.eq_of_mem_replicate (List.mem_of_getElem? hd)
    exact .outside (hp p (List.mem_of_getElem? hpj)) (by simp [shown, hlog])
  · simp [handed, hlog]

end Run

end Ration
