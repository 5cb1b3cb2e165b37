import Mathlib.Logic.Relation
import FishWeb.Lib.Prog
/-!
# Interleaved programs

Several programs share one store; a step runs one command of one of them. A
command is indivisible and nothing else is, so the reachable configurations are
those of every interleaving at command granularity. The events of each command
are logged with the number of the program that issued it. A `Guard` restricts
which steps a run may take: a theorem about guarded runs says under which
schedules it holds, and `noGuard` is every schedule.
-/

/-- What the programs share: the store, and the events so far. -/
structure World (Ev S : Type) where
  store : S
  log : List (Nat × Ev)

namespace Pool

open Exec Note

variable {E : Type} {C : Type → Type} {Ev S α β : Type} [Exec C S] [Note C Ev]

/-- The shared world and what is left of each program. -/
structure Conf (Ev E : Type) (C : Type → Type) (S α : Type) where
  world : World Ev S
  progs : List (Prog E C α)

/-- The world after program `i` issues the command `c`. -/
def after (i : Nat) (c : C β) (σ : World Ev S) : World Ev S :=
  ⟨(exec c σ.store).2, σ.log ++ (note c (exec c σ.store).1).map (i, ·)⟩

@[simp] theorem after_store (i : Nat) (c : C β) (σ : World Ev S) : (after i c σ).store = (exec c σ.store).2 := rfl

@[simp] theorem after_log (i : Nat) (c : C β) (σ : World Ev S) :
    (after i c σ).log = σ.log ++ (note c (exec c σ.store).1).map (i, ·) := rfl

/-- A condition on a step: where it starts, the program that moves, the events
of its command, and where it leads. -/
abbrev Guard (Ev E : Type) (C : Type → Type) (S α : Type) : Type 1 :=
  Conf Ev E C S α → Nat → List Ev → Conf Ev E C S α → Prop

def noGuard : Guard Ev E C S α := fun _ _ _ _ => True

/-- Program `i` issues its next command, unless it has ended. -/
def turn (i : Nat) (c : Conf Ev E C S α) : Conf Ev E C S α :=
  match c.progs[i]? with
  | some (.cmd b k) => ⟨after i b c.world, c.progs.set i (k (exec b c.world.store).1)⟩
  | _ => c

inductive Step (G : Guard Ev E C S α) : Conf Ev E C S α → Conf Ev E C S α → Prop
  | mk {β : Type} (σ : World Ev S) (pre post : List (Prog E C α)) (c : C β) (k : β → Prog E C α)
      (hg : G ⟨σ, pre ++ .cmd c k :: post⟩ pre.length (note c (exec c σ.store).1)
        ⟨after pre.length c σ, pre ++ k (exec c σ.store).1 :: post⟩) :
      Step G ⟨σ, pre ++ .cmd c k :: post⟩ ⟨after pre.length c σ, pre ++ k (exec c σ.store).1 :: post⟩

/-- The configurations of guarded interleavings from `c`. -/
def Reach (G : Guard Ev E C S α) : Conf Ev E C S α → Conf Ev E C S α → Prop := Relation.ReflTransGen (Step G)

/-- What a guard allows, a weaker one does. -/
theorem Reach.guard_mono {G G' : Guard Ev E C S α} (h : ∀ c i evs c', G c i evs c' → G' c i evs c')
    {c c' : Conf Ev E C S α} (hr : Reach G c c') : Reach G' c c' := by
  induction hr with
  | refl => exact .refl
  | tail _ hs ih =>
    obtain ⟨σ, pre, post, b, k, hg⟩ := hs
    exact .tail ih (.mk σ pre post b k (h _ _ _ _ hg))

/-- The other programs are where they were. -/
theorem getElem?_replace {γ : Type*} {pre post : List γ} {i : Nat} (h : i ≠ pre.length) (a b : γ) :
    (pre ++ a :: post)[i]? = (pre ++ b :: post)[i]? := by
  rcases Nat.lt_or_ge i pre.length with hlt | hge
  · rw [List.getElem?_append_left hlt, List.getElem?_append_left hlt]
  · rw [List.getElem?_append_right hge, List.getElem?_append_right hge]
    obtain ⟨n, hn⟩ : ∃ n, i - pre.length = n + 1 := ⟨i - pre.length - 1, by omega⟩
    rw [hn, List.getElem?_cons_succ, List.getElem?_cons_succ]

/-- What every guarded step keeps holds in every reachable configuration. -/
theorem reach_inv {G : Guard Ev E C S α} {I : Conf Ev E C S α → Prop} (hstep : ∀ c c', Step G c c' → I c → I c')
    {c c' : Conf Ev E C S α} (h : Reach G c c') (hc : I c) : I c' := by
  induction h with
  | refl => exact hc
  | tail _ hs ih => exact hstep _ _ hs ih

/-- Every command the program can issue meets `P`, if a store with `I` answers each. -/
def Issues (I : S → Prop) (P : ⦃β : Type⦄ → C β → Prop) : Prog E C α → Prop
  | .ret _ => True
  | .raise _ => True
  | .cmd c k => P c ∧ ∀ s, I s → Issues I P (k (exec c s).1)

section Issues
variable {I : S → Prop} {P : ⦃β : Type⦄ → C β → Prop}

theorem issues_bind {p : Prog E C α} {f : α → Prog E C β} (hp : Prog.Only P p) (hf : ∀ a, Issues I P (f a)) :
    Issues I P (p >>= f) := by
  induction p with
  | ret a => exact hf a
  | raise e => trivial
  | cmd c k ih => exact ⟨hp.1, fun s _ => ih _ (hp.2 _)⟩

end Issues

/-- What the issued commands keep of the world holds in every reachable configuration. -/
theorem reach_issues {G : Guard Ev E C S α} {I : S → Prop} {P : ⦃β : Type⦄ → C β → Prop} {J : World Ev S → Prop}
    (hJ : ∀ σ, J σ → I σ.store) (hstep : ∀ ⦃β : Type⦄ (c : C β) i σ, P c → J σ → J (after i c σ))
    {c c' : Conf Ev E C S α} (hr : Reach G c c') (hp : ∀ p ∈ c.progs, Issues I P p) (hc : J c.world) : J c'.world := by
  refine (reach_inv (I := fun c => (∀ p ∈ c.progs, Issues I P p) ∧ J c.world) ?_ hr ⟨hp, hc⟩).2
  rintro _ _ ⟨σ, pre, post, b, k, -⟩ ⟨hp, hσ⟩
  simp only [List.forall_mem_append, List.forall_mem_cons] at hp ⊢
  exact ⟨⟨hp.1, hp.2.1.2 σ.store (hJ σ hσ), hp.2.2⟩, hstep b pre.length σ hp.2.1.1 hσ⟩

/-- Every program has returned or raised. -/
def Finished (c : Conf Ev E C S α) : Prop := ∀ p ∈ c.progs, (∃ a, p = .ret a) ∨ ∃ e, p = .raise e

instance (p : Prog E C α) : Decidable ((∃ a, p = .ret a) ∨ ∃ e, p = .raise e) :=
  match p with
  | .ret a => .isTrue (.inl ⟨a, rfl⟩)
  | .raise e => .isTrue (.inr ⟨e, rfl⟩)
  | .cmd _ _ => .isFalse (by rintro (⟨a, ha⟩ | ⟨e, he⟩) <;> contradiction)

instance (c : Conf Ev E C S α) : Decidable (Finished c) :=
  inferInstanceAs (Decidable (∀ p ∈ c.progs, (∃ a, p = .ret a) ∨ ∃ e, p = .raise e))

/-! ## Schedules -/

/-- The turns of the programs `is`, in order. -/
def turns : List Nat → Conf Ev E C S α → Conf Ev E C S α
  | [], c => c
  | i :: is, c => turns is (turn i c)

/-- The events of the command program `i` issues next. -/
def nextNote (i : Nat) (c : Conf Ev E C S α) : List Ev :=
  match c.progs[i]? with
  | some (.cmd b _) => note b (exec b c.world.store).1
  | _ => []

/-- Every turn of the schedule meets the guard. -/
def Allowed (G : Guard Ev E C S α) : List Nat → Conf Ev E C S α → Prop
  | [], _ => True
  | i :: is, c => G c i (nextNote i c) (turn i c) ∧ Allowed G is (turn i c)

instance instDecidableAllowed (G : Guard Ev E C S α) [∀ c i evs c', Decidable (G c i evs c')] :
    (is : List Nat) → (c : Conf Ev E C S α) → Decidable (Allowed G is c)
  | [], _ => inferInstanceAs (Decidable True)
  | i :: is, c =>
    have := instDecidableAllowed G is (turn i c)
    inferInstanceAs (Decidable (G c i (nextNote i c) (turn i c) ∧ Allowed G is (turn i c)))

/-- A turn is a step, or no change. -/
theorem step_turn {G : Guard Ev E C S α} {i : Nat} {c : Conf Ev E C S α} (hg : G c i (nextNote i c) (turn i c)) :
    turn i c = c ∨ Step G c (turn i c) := by
  obtain ⟨σ, progs⟩ := c
  cases hp : progs[i]? with
  | none => left; simp [turn, hp]
  | some p =>
    obtain ⟨hi, hpi⟩ := List.getElem?_eq_some_iff.1 hp
    have hsplit : progs = progs.take i ++ p :: progs.drop (i + 1) := by
      rw [← hpi, List.getElem_cons_drop, List.take_append_drop]
    have hlen : (progs.take i).length = i := by simp [Nat.le_of_lt hi]
    cases p with
    | ret a => left; simp [turn, hp]
    | raise e => left; simp [turn, hp]
    | cmd b k =>
      right
      have hturn : turn i ⟨σ, progs⟩ = ⟨after (progs.take i).length b σ,
          progs.take i ++ k (exec b σ.store).1 :: progs.drop (i + 1)⟩ := by
        simp only [turn, hp, hlen, List.set_eq_take_append_cons_drop, if_pos hi]
      have hnext : nextNote i ⟨σ, progs⟩ = note b (exec b σ.store).1 := by simp only [nextNote, hp]
      rw [hnext, hturn] at hg
      rw [hturn]
      generalize progs.take i = pre, progs.drop (i + 1) = post at *
      subst hsplit hlen
      exact .mk σ pre post b k hg

/-- A schedule whose turns meet the guard reaches where it leads. -/
theorem reach_turns {G : Guard Ev E C S α} {is : List Nat} {c : Conf Ev E C S α} (h : Allowed G is c) :
    Reach G c (turns is c) := by
  induction is generalizing c with
  | nil => exact .refl
  | cons i is ih =>
    rcases step_turn h.1 with heq | hs
    · simpa only [turns, heq] using ih h.2
    · exact .head hs (ih h.2)

theorem allowed_noGuard (is : List Nat) (c : Conf Ev E C S α) : Allowed noGuard is c := by
  induction is generalizing c with
  | nil => trivial
  | cons i is ih => exact ⟨trivial, ih _⟩

end Pool
