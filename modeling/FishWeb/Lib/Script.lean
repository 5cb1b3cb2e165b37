import FishWeb.Lib.Connection
import FishWeb.Lib.Pool
/-!
# Programs that keep to a script

A program keeps to a script if its events are those of the script, in their
order, whatever a store with the invariant `I` answers. It may end before the
script does. Interleaved programs keep to their scripts each.
-/

namespace Script

open Exec Note Pool Prog

variable {E : Type} {C : Type → Type} {Ev S α β : Type} [Exec C S] [Note C Ev]

section Keeps
variable (I : S → Prop)

def Keeps : List Ev → Prog E C α → Prop
  | _, .ret _ => True
  | _, .raise _ => True
  | l, .cmd c k => ∀ s : S, I s → ∃ l' : List Ev, l = note c (exec c s).1 ++ l' ∧ Keeps l' (k (exec c s).1)

variable {I} {l : List Ev}

/-- What follows a program may be anything that keeps to what the program leaves of the script. -/
theorem keeps_bind {p : Prog E C α} {f : α → Prog E C β} (hp : Keeps I l p) (hf : ∀ a (l' : List Ev), Keeps I l' (f a)) :
    Keeps I l (p >>= f) := by
  induction p generalizing l with
  | ret a => exact hf a l
  | raise e => trivial
  | cmd c k ih =>
    intro s hs
    obtain ⟨l', hl, hk⟩ := hp s hs
    exact ⟨l', hl, ih _ hk⟩

theorem keeps_attempt {p : Prog E C α} (hp : Keeps I l p) : Keeps I l p.attempt := by
  induction p generalizing l with
  | ret a => trivial
  | raise e => trivial
  | cmd c k ih =>
    intro s hs
    obtain ⟨l', hl, hk⟩ := hp s hs
    exact ⟨l', hl, ih _ hk⟩

/-- A failure ends the program, so only the answer that comes back matters. -/
theorem keeps_ask {e : E} {c : C (Answer β)} {f : β → Prog E C α}
    (h : ∀ s, I s → ∃ l', l = (note c (exec c s).1 : List Ev) ++ l' ∧ ∀ b, (exec c s).1 = .ok b → Keeps I l' (f b)) :
    Keeps I l (ask e c >>= f) := by
  intro s hs
  obtain ⟨l', hl, hb⟩ := h s hs
  refine ⟨l', hl, ?_⟩
  cases ha : (exec c s).1 with
  | ok b => exact hb b ha
  | refused => trivial
  | lost b => trivial

end Keeps

/-! ## Interleavings -/

/-- The events of program `i`. -/
def eventsOf (i : Nat) (log : List (Nat × Ev)) : List Ev := (log.filter (·.1 = i)).map Prod.snd

theorem mem_eventsOf {i : Nat} {log : List (Nat × Ev)} {e : Ev} : e ∈ eventsOf i log ↔ (i, e) ∈ log := by
  unfold eventsOf
  constructor
  · intro h
    obtain ⟨⟨j, e'⟩, hm, rfl⟩ := List.mem_map.1 h
    obtain ⟨hm, hj⟩ := List.mem_filter.1 hm
    rwa [← of_decide_eq_true hj]
  · intro h
    exact List.mem_map.2 ⟨(i, e), List.mem_filter.2 ⟨h, decide_eq_true rfl⟩, rfl⟩

theorem countP_eventsOf (i : Nat) (log : List (Nat × Ev)) (φ : Ev → Bool) :
    (eventsOf i log).countP φ = log.countP fun x => x.1 = i && φ x.2 := by
  rw [eventsOf, List.countP_map, List.countP_filter]
  apply List.countP_congr
  intro x _
  simp [and_comm]

theorem eventsOf_same (i : Nat) (log : List (Nat × Ev)) (evs : List Ev) :
    eventsOf i (log ++ evs.map (i, ·)) = eventsOf i log ++ evs := by
  simp [eventsOf, List.filter_map, Function.comp_def]

theorem eventsOf_other {i j : Nat} (h : j ≠ i) (log : List (Nat × Ev)) (evs : List Ev) :
    eventsOf i (log ++ evs.map (j, ·)) = eventsOf i log := by
  simp [eventsOf, List.filter_map, Function.comp_def, h]

variable (I : S → Prop) (script : Nat → List Ev)

/-- Every program has kept to its script, and keeps to what is left of it. -/
structure Kept (c : Conf Ev E C S α) : Prop where
  store : I c.world.store
  issued : ∀ x ∈ c.world.log, x.1 < c.progs.length
  script : ∀ i p, c.progs[i]? = some p → ∃ l, script i = eventsOf i c.world.log ++ l ∧ Keeps I l p

variable {I script} {c c' : Conf Ev E C S α}

theorem kept_step {G : Guard Ev E C S α} (hI : ∀ ⦃β : Type⦄ (c : C β) (s : S), I s → I (exec c s).2) (hs : Step G c c')
    (h : Kept I script c) : Kept I script c' := by
  obtain ⟨σ, pre, post, b, k, -⟩ := hs
  obtain ⟨hstore, hissued, hscript⟩ := h
  refine ⟨hI b _ hstore, ?_, ?_⟩
  · simp only [after_log, List.forall_mem_append, List.forall_mem_map, List.length_append, List.length_cons] at hissued ⊢
    exact ⟨hissued, fun e _ => by omega⟩
  · intro i p hp
    rw [after_log]
    by_cases hi : i = pre.length
    · -- the program that moves
      subst hi
      obtain ⟨l, hl, hk⟩ := hscript pre.length (.cmd b k) (by simp)
      obtain ⟨l', rfl, hk'⟩ := hk σ.store hstore
      have hp : k (exec b σ.store).1 = p := by simpa using hp
      rw [eventsOf_same, ← hp]
      exact ⟨l', by rw [hl, List.append_assoc], hk'⟩
    · rw [eventsOf_other (Ne.symm hi)]
      apply hscript i p
      rw [← hp]
      exact (getElem?_replace hi _ _).symm

theorem reach_kept {G : Guard Ev E C S α} (hI : ∀ ⦃β : Type⦄ (c : C β) (s : S), I s → I (exec c s).2) (hr : Reach G c c')
    (h : Kept I script c) : Kept I script c' :=
  reach_inv (I := Kept I script) (fun _ _ hs => kept_step hI hs) hr h

/-- Programs that have not begun. -/
theorem kept_start {s : S} (hs : I s) {progs : List (Prog E C α)}
    (h : ∀ i p, progs[i]? = some p → Keeps I (script i) p) : Kept I script ⟨⟨s, []⟩, progs⟩ :=
  ⟨hs, fun _ hx => absurd hx (by simp), fun i p hp => ⟨script i, rfl, h i p hp⟩⟩

theorem Kept.prefix_script (h : Kept I script c) (i : Nat) : eventsOf i c.world.log <+: script i := by
  cases hp : c.progs[i]? with
  | some p =>
    obtain ⟨l, hl, -⟩ := h.script i p hp
    exact ⟨l, hl.symm⟩
  | none =>
    have hnil : eventsOf i c.world.log = [] := by
      apply List.eq_nil_iff_forall_not_mem.2
      intro e he
      have := h.issued _ (mem_eventsOf.1 he)
      have := List.getElem?_eq_none_iff.1 hp
      omega
    rw [hnil]
    exact List.nil_prefix

/-- An event of the script comes after those before it. -/
theorem Kept.before (h : Kept I script c) {i : Nat} {pre post : List Ev} {e : Ev} (hs : script i = pre ++ e :: post)
    (he : (i, e) ∈ c.world.log) (hpre : e ∉ pre) : ∀ e' ∈ pre, (i, e') ∈ c.world.log := by
  have hprefix := h.prefix_script i
  rw [hs, List.append_cons] at hprefix
  intro e' he'
  apply mem_eventsOf.1
  -- what the program has done and `pre` with `e` begin the same script
  rcases List.prefix_or_prefix_of_prefix hprefix (List.prefix_append (pre ++ [e]) post) with hle | hle
  · rcases List.prefix_concat_iff.1 hle with heq | hle
    · rw [heq]
      exact List.mem_append_left _ he'
    · exact absurd (hle.subset (mem_eventsOf.2 he)) hpre
  · exact hle.subset (List.mem_append_left _ he')

end Script
