import FishWeb.Lib.Prog
/-!
# Commands that may fail

A connection may break: a command is refused before the store sees it, or it is
executed and its answer is lost. The `outcomes` of a `Line` say how the commands
fare, in the order they arrive; past their end none fails. The program cannot
tell the two failures apart and raises the same exception.
-/

/-- How a command fares. -/
inductive Outcome where
  | done | refused | lost
  deriving Repr, DecidableEq

/-- What comes back from a command. The program does not see an answer that is lost. -/
inductive Answer (β : Type) where
  | ok (b : β)
  | refused
  | lost (b : β)

/-- What the store answered, if it executed the command. -/
def Answer.executed {β : Type} : Answer β → Option β
  | .ok b => some b
  | .refused => none
  | .lost b => some b

/-- A store behind a connection. -/
structure Line (S : Type) where
  store : S
  outcomes : List Outcome

namespace Line

variable {S β : Type}

/-- Send a command that the store executes by `f`. -/
def send (f : S → β × S) (s : Line S) : Answer β × Line S :=
  match s.outcomes with
  | [] => (.ok (f s.store).1, ⟨(f s.store).2, []⟩)
  | .done :: l => (.ok (f s.store).1, ⟨(f s.store).2, l⟩)
  | .refused :: l => (.refused, ⟨s.store, l⟩)
  | .lost :: l => (.lost (f s.store).1, ⟨(f s.store).2, l⟩)

/-- A command is executed or changes nothing. -/
theorem send_cases (f : S → β × S) (s : Line S) :
    ((send f s).1.executed = some (f s.store).1 ∧ (send f s).2.store = (f s.store).2) ∨
      ((send f s).1.executed = none ∧ (send f s).2.store = s.store) := by
  unfold send
  split
  · exact .inl ⟨rfl, rfl⟩
  · exact .inl ⟨rfl, rfl⟩
  · exact .inr ⟨rfl, rfl⟩
  · exact .inl ⟨rfl, rfl⟩

/-- What holds if the command is executed and if it is not. -/
theorem send_rule {P : Option β → S → Prop} {f : S → β × S} {s : Line S} (hf : P (some (f s.store).1) (f s.store).2)
    (h : P none s.store) : P (send f s).1.executed (send f s).2.store := by
  rcases send_cases f s with ⟨ha, hs⟩ | ⟨ha, hs⟩
  · rw [ha, hs]
    exact hf
  · rw [ha, hs]
    exact h

/-- The answer that comes back is the store's. -/
theorem send_ok {f : S → β × S} {s : Line S} {b : β} (h : (send f s).1 = .ok b) : b = (f s.store).1 := by
  have he : (send f s).1.executed = some b := by rw [h]; rfl
  rcases send_cases f s with ⟨hs, -⟩ | ⟨hs, -⟩
  · exact Option.some.inj (he.symm.trans hs)
  · rw [hs] at he
    cases he

end Line

namespace Prog

variable {E : Type} {C : Type → Type} {α β : Type}

/-- Issue a command and return its answer, or raise `e` if none comes back. -/
def ask (e : E) (c : C (Answer β)) : Prog E C β :=
  .cmd c fun a => match a with
    | .ok b => .ret b
    | .refused => .raise e
    | .lost _ => .raise e

end Prog
