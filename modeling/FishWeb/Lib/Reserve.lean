import FishWeb.Lib.Past
import Mathlib.Data.Finset.Card
import Mathlib.Data.Finset.Range
/-!
# A reserve that many draw on

A number in the store is looked at by a program and taken from later, one at a
time and without a test. A program that has seen something left and has not taken
it yet has it in mind. If whoever looks finds more than the others have in mind
(`roomy`), no interleaving takes what is not there (`left_nonneg`).
-/

open Exec Note Pool Script Past

/-- What is left, and the events that show that something was seen or taken. -/
structure Reserve (Ev S : Type) where
  left : S → Int
  sees : Ev → Bool
  takes : Ev → Bool

namespace Reserve

variable {E : Type} {C : Type → Type} {Ev S α : Type}

/-- A program takes one at most, once, and only if it has seen something left. -/
structure Fair (K : Reserve Ev S) (l : List Ev) (s : S) (evs : List Ev) (s' : S) : Prop where
  left : K.left s' = K.left s - evs.countP K.takes
  takes : evs.any K.takes = true → evs.countP K.takes = 1 ∧ l.any K.sees = true ∧ l.any K.takes = false

/-- A command that takes nothing, and leaves the number. -/
theorem fair_of_not {K : Reserve Ev S} {l evs : List Ev} {s s' : S} (hleft : K.left s' = K.left s)
    (h : evs.any K.takes = false) : K.Fair l s evs s' where
  left := by
    have hzero : evs.countP K.takes = 0 := by
      rw [List.countP_eq_zero]
      simpa using h
    rw [hleft, hzero]
    simp
  takes := fun ht => by rw [h] at ht; cases ht

/-- Program `j` has seen something left, has not taken it, and will go on. -/
def inMind (K : Reserve Ev S) (c : Conf Ev E C S α) (j : Nat) : Bool :=
  (eventsOf j c.world.log).any K.sees && !(eventsOf j c.world.log).any K.takes &&
    c.progs[j]?.any fun | .cmd _ _ => true | .ret _ | .raise _ => false

/-- The programs that have one in mind. -/
def minded (K : Reserve Ev S) (c : Conf Ev E C S α) : Finset Nat := (Finset.range c.progs.length).filter (K.inMind c ·)

/-- A program sees something left only while that is more than the others have in mind. -/
def roomy (K : Reserve Ev S) : Guard Ev E C S α := fun c i evs _ =>
  evs.any K.sees = true → (((K.minded c).erase i).card : Int) < K.left c.world.store

instance (K : Reserve Ev S) (c : Conf Ev E C S α) (i : Nat) (evs : List Ev) (c' : Conf Ev E C S α) :
    Decidable (K.roomy c i evs c') :=
  inferInstanceAs (Decidable (_ → _))

/-- How many the log takes. -/
def taken (K : Reserve Ev S) (log : List (Nat × Ev)) : Nat := log.countP fun e => K.takes e.2

variable {K : Reserve Ev S}

theorem inMind_iff {c : Conf Ev E C S α} {j : Nat} : K.inMind c j = true ↔ (eventsOf j c.world.log).any K.sees = true ∧
    (eventsOf j c.world.log).any K.takes = false ∧ ∃ (β : Type) (b : C β) (k : β → Prog E C α), c.progs[j]? = some (.cmd b k) := by
  unfold inMind
  rw [Bool.and_eq_true, Bool.and_eq_true, Bool.not_eq_true', and_assoc]
  refine and_congr_right fun _ => and_congr_right fun _ => ?_
  cases hp : c.progs[j]? with
  | none => simp
  | some p => cases p <;> simp

/-! ## One step -/

variable [Exec C S] [Note C Ev]

/-- The other programs have in mind what they had. -/
theorem erase_minded {β : Type} (σ : World Ev S) (pre post : List (Prog E C α)) (b : C β) (k : β → Prog E C α) :
    (K.minded ⟨after pre.length b σ, pre ++ k (exec b σ.store).1 :: post⟩).erase pre.length =
      (K.minded ⟨σ, pre ++ .cmd b k :: post⟩).erase pre.length := by
  ext j
  simp only [minded, Finset.mem_erase, Finset.mem_filter, Finset.mem_range, List.length_append, List.length_cons]
  refine and_congr_right fun hj => and_congr_right fun _ => ?_
  have hevents : eventsOf j (after pre.length b σ).log = eventsOf j σ.log := by
    rw [after_log, eventsOf_other (Ne.symm hj)]
  simp only [inMind, hevents, getElem?_replace hj (k (exec b σ.store).1) (.cmd b k)]

/-- What is left covers what the programs have in mind. -/
def Covered (K : Reserve Ev S) (c : Conf Ev E C S α) : Prop := ((K.minded c).card : Int) ≤ K.left c.world.store

theorem covered_step {I : S → Prop} {R : Rule Ev S} {Q : Nat → List Ev → α → Prop} (hR : ∀ l s evs s', R l s evs s' → K.Fair l s evs s')
    {c c' : Conf Ev E C S α} (hs : Step K.roomy c c') (hk : Known I R Q c) (h : K.Covered c) : K.Covered c' := by
  obtain ⟨σ, pre, post, b, k, hg⟩ := hs
  have hfair := hR _ _ _ _ (hk.meets pre.length (.cmd b k) (by simp) σ.store hk.store).1
  have hothers := erase_minded (K := K) σ pre post b k
  unfold Covered at h ⊢
  rw [after_store, hfair.left]
  have hlen : pre.length < (pre ++ Prog.cmd b k :: post).length := by simp
  by_cases ht : (note b (exec b σ.store).1).any K.takes = true
  · -- it had one in mind, and has none now
    obtain ⟨hone, hsees, hnone⟩ := hfair.takes ht
    have hmem : pre.length ∈ K.minded ⟨σ, pre ++ .cmd b k :: post⟩ := by
      rw [minded, Finset.mem_filter, Finset.mem_range]
      exact ⟨hlen, inMind_iff.2 ⟨hsees, hnone, _, b, k, by simp⟩⟩
    have hnot : pre.length ∉ K.minded ⟨after pre.length b σ, pre ++ k (exec b σ.store).1 :: post⟩ := by
      rw [minded, Finset.mem_filter]
      rintro ⟨-, hmind⟩
      have htaken := (inMind_iff.1 hmind).2.1
      rw [after_log, eventsOf_same, List.any_append, ht, Bool.or_true] at htaken
      cases htaken
    rw [Finset.erase_eq_of_notMem hnot] at hothers
    have hcard := Finset.card_erase_add_one hmem
    rw [hothers, hone]
    dsimp only at h ⊢
    omega
  · have hzero : (note b (exec b σ.store).1).countP K.takes = 0 := by
      rw [List.countP_eq_zero]
      simpa using ht
    rw [hzero, Int.natCast_zero, Int.sub_zero]
    by_cases hsees : (note b (exec b σ.store).1).any K.sees = true
    · -- the guard leaves room for one more
      have hroom := hg hsees
      have hle := Finset.card_le_card (Finset.insert_erase_subset pre.length
        (K.minded ⟨after pre.length b σ, pre ++ k (exec b σ.store).1 :: post⟩))
      rw [hothers] at hle
      have := Finset.card_insert_le pre.length ((K.minded ⟨σ, pre ++ .cmd b k :: post⟩).erase pre.length)
      dsimp only at hroom
      omega
    · -- nobody has one in mind who had none
      refine le_trans (Int.ofNat_le.2 (Finset.card_le_card ?_)) h
      intro j hj
      by_cases hi : j = pre.length
      · subst hi
        rw [minded, Finset.mem_filter, Finset.mem_range] at hj ⊢
        obtain ⟨hseen, hnone, -⟩ := inMind_iff.1 hj.2
        rw [after_log, eventsOf_same, List.any_append, Bool.or_eq_false_iff] at hnone
        rw [after_log, eventsOf_same, List.any_append, Bool.eq_false_iff.2 hsees, Bool.or_false] at hseen
        exact ⟨hlen, inMind_iff.2 ⟨hseen, hnone.1, _, b, k, by simp⟩⟩
      · exact Finset.mem_of_mem_erase (hothers ▸ Finset.mem_erase.2 ⟨hi, hj⟩)

/-! ## Runs -/

section Run
variable {I : S → Prop} {R : Rule Ev S} {Q : Nat → List Ev → α → Prop} {G : Guard Ev E C S α} {c c' : Conf Ev E C S α}

/-- What was taken is gone from what was left, under any schedule. -/
theorem left_eq (hI : ∀ l s evs s', I s → R l s evs s' → I s') (hR : ∀ l s evs s', R l s evs s' → K.Fair l s evs s')
    (hr : Reach G c c') (hk : Known I R Q c) (hlog : c.world.log = []) :
    K.left c'.world.store = K.left c.world.store - K.taken c'.world.log := by
  refine (reach_inv (I := fun c' => Known I R Q c' ∧ K.left c'.world.store = K.left c.world.store - K.taken c'.world.log)
    ?_ hr ⟨hk, by simp [taken, hlog]⟩).2
  rintro d d' hs ⟨hd, hleft⟩
  refine ⟨known_step hI hs hd, ?_⟩
  obtain ⟨σ, pre, post, b, k, -⟩ := hs
  have hfair := hR _ _ _ _ (hd.meets pre.length (.cmd b k) (by simp) σ.store hd.store).1
  have htaken : K.taken (after pre.length b σ).log = K.taken σ.log + (note b (exec b σ.store).1).countP K.takes := by
    unfold taken
    rw [after_log, List.countP_append, List.countP_map]
    rfl
  rw [htaken, after_store, hfair.left, hleft]
  push_cast
  omega

/-- Where whoever looks finds room, no more is taken than there is. -/
theorem left_nonneg (hI : ∀ l s evs s', I s → R l s evs s' → I s') (hR : ∀ l s evs s', R l s evs s' → K.Fair l s evs s')
    (hG : ∀ c i evs c', G c i evs c' → K.roomy c i evs c') (hr : Reach G c c') (hk : Known I R Q c)
    (hlog : c.world.log = []) (hleft : 0 ≤ K.left c.world.store) : 0 ≤ K.left c'.world.store := by
  have hcovered : K.Covered c := by
    have hnone : K.minded c = ∅ := by
      apply Finset.filter_eq_empty_iff.2
      intro j _
      simp [inMind, hlog, eventsOf]
    rw [Covered, hnone]
    simpa using hleft
  have h := (reach_inv (I := fun c => Known I R Q c ∧ K.Covered c)
    (fun _ _ hs h => ⟨known_step hI hs h.1, covered_step hR hs h.1 h.2⟩) (hr.guard_mono hG) ⟨hk, hcovered⟩).2
  exact le_trans (Int.natCast_nonneg _) h

end Run

/-- No more programs have taken than was taken. -/
theorem card_le_taken (K : Reserve Ev S) {F : Finset Nat} {log : List (Nat × Ev)}
    (h : ∀ i ∈ F, (eventsOf i log).any K.takes = true) : F.card ≤ K.taken log := by
  have hsub : F ⊆ ((log.filter fun e => K.takes e.2).map Prod.fst).toFinset := by
    intro i hi
    obtain ⟨e, he, ht⟩ := List.any_eq_true.1 (h i hi)
    rw [List.mem_toFinset, List.mem_map]
    exact ⟨(i, e), List.mem_filter.2 ⟨mem_eventsOf.1 he, ht⟩, rfl⟩
  calc F.card ≤ ((log.filter fun e => K.takes e.2).map Prod.fst).toFinset.card := Finset.card_le_card hsub
    _ ≤ ((log.filter fun e => K.takes e.2).map Prod.fst).length := List.toFinset_card_le _
    _ = K.taken log := by rw [List.length_map, taken, List.countP_eq_length_filter]

end Reserve
