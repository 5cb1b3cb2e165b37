import Mathlib.Tactic.Common
/-!
# Programs of store commands

A request handler is a program that talks to a shared store one command at a
time and computes in between. `Prog E C α` is such a program over any command
type `C`: it returns an `α`, raises an `E`, or issues a command and goes on with
its answer. `Exec C S` says what a command does to a store `S`. `run` is the
program run alone; `Lib.Pool` interleaves several.
-/

/-- A program: its result, an uncaught exception, or a command and what follows its answer. -/
inductive Prog (E : Type) (C : Type → Type) (α : Type) : Type 1 where
  | ret (a : α)
  | raise (e : E)
  | cmd {β : Type} (c : C β) (k : β → Prog E C α)

/-- What each command answers and does to the store, in one indivisible step. -/
class Exec (C : Type → Type) (S : Type) where
  exec {β : Type} : C β → S → β × S

/-- The events an observer notes when a command is answered. -/
class Note (C : Type → Type) (Ev : Type) where
  note {β : Type} : C β → β → List Ev

namespace Prog

open Exec Note

variable {E : Type} {C : Type → Type} {S α β γ : Type}

def bind : Prog E C α → (α → Prog E C β) → Prog E C β
  | .ret a, f => f a
  | .raise e, _ => .raise e
  | .cmd c k, f => .cmd c (fun b => (k b).bind f)

instance : Monad (Prog E C) where
  pure := .ret
  bind := bind

/-- Issue one command and return its answer. -/
def call (c : C β) : Prog E C β := .cmd c .ret

/-- Raise unless there is a value. -/
def orRaise (e : E) : Option α → Prog E C α
  | some a => .ret a
  | none => .raise e

/-- What a pure computation returns or raises. -/
def ofExcept : Except E α → Prog E C α
  | .ok a => .ret a
  | .error e => .raise e

/-- A name is evaluated. `binds` tells which names the module binds. -/
def loadName {ι : Type} (e : E) (binds : ι → Bool) (x : ι) : Prog E C Unit := if binds x then .ret () else .raise e

/-- A `for` loop: the body for each element in order. An exception ends it. -/
def forEach {ι : Type} (l : List ι) (body : ι → Prog E C Unit) : Prog E C Unit :=
  match l with
  | [] => .ret ()
  | i :: l => (body i).bind fun _ => forEach l body

/-- A `for` loop that appends what its body returns. -/
def collect {ι : Type} (l : List ι) (body : ι → Prog E C α) : Prog E C (List α) :=
  match l with
  | [] => .ret []
  | i :: l => (body i).bind fun a => (collect l body).bind fun as => .ret (a :: as)

/-- `try` … `except` around a program: what it returned or raised. -/
def attempt : Prog E C α → Prog E C (Except E α)
  | .ret a => .ret (.ok a)
  | .raise e => .ret (.error e)
  | .cmd c k => .cmd c (fun b => attempt (k b))

/-! ## The monad laws, as rewriting rules -/

@[simp] theorem pure_eq (a : α) : (pure a : Prog E C α) = .ret a := rfl

@[simp] theorem ret_bind (a : α) (f : α → Prog E C β) : (Prog.ret a >>= f) = f a := rfl

@[simp] theorem raise_bind (e : E) (f : α → Prog E C β) : (Prog.raise e >>= f) = .raise e := rfl

@[simp] theorem cmd_bind (c : C γ) (k : γ → Prog E C α) (f : α → Prog E C β) :
    (Prog.cmd c k >>= f) = .cmd c (fun b => k b >>= f) := rfl

@[simp] theorem call_bind (c : C α) (f : α → Prog E C β) : (call c >>= f) = .cmd c f := rfl

@[simp] theorem orRaise_some (e : E) (a : α) : (orRaise e (some a) : Prog E C α) = .ret a := rfl

@[simp] theorem orRaise_none (e : E) : (orRaise e none : Prog E C α) = .raise e := rfl

@[simp] theorem forEach_nil {ι : Type} (body : ι → Prog E C Unit) : forEach [] body = .ret () := rfl

@[simp] theorem forEach_cons {ι : Type} (i : ι) (l : List ι) (body : ι → Prog E C Unit) :
    forEach (i :: l) body = (body i >>= fun _ => forEach l body) := rfl

@[simp] theorem ofExcept_ok (a : α) : (ofExcept (.ok a) : Prog E C α) = .ret a := rfl

@[simp] theorem ofExcept_error (e : E) : (ofExcept (.error e) : Prog E C α) = .raise e := rfl

@[simp] theorem collect_nil {ι : Type} (body : ι → Prog E C α) : collect [] body = .ret [] := rfl

@[simp] theorem collect_cons {ι : Type} (i : ι) (l : List ι) (body : ι → Prog E C α) :
    collect (i :: l) body = (body i >>= fun a => collect l body >>= fun as => .ret (a :: as)) := rfl

theorem bind_ret (p : Prog E C α) : (p >>= Prog.ret) = p := by
  induction p with
  | ret a => rfl
  | raise e => rfl
  | cmd c k ih => simp only [cmd_bind, ih]

theorem bind_assoc (p : Prog E C α) (f : α → Prog E C β) (g : β → Prog E C γ) :
    (p >>= f >>= g) = (p >>= fun a => f a >>= g) := by
  induction p with
  | ret a => rfl
  | raise e => rfl
  | cmd c k ih => simp only [cmd_bind, ih]

instance : LawfulMonad (Prog E C) :=
  LawfulMonad.mk' _ bind_ret (fun _ _ => rfl) bind_assoc

/-! ## Running alone -/

variable [Exec C S]

/-- The program run alone from `s`: its outcome and the store it leaves. -/
def run : Prog E C α → S → Except E α × S
  | .ret a, s => (.ok a, s)
  | .raise e, s => (.error e, s)
  | .cmd c k, s => run (k (exec c s).1) (exec c s).2

@[simp] theorem run_ret (a : α) (s : S) : run (.ret a : Prog E C α) s = (.ok a, s) := rfl

@[simp] theorem run_raise (e : E) (s : S) : run (.raise e : Prog E C α) s = (.error e, s) := rfl

@[simp] theorem run_step (c : C β) (k : β → Prog E C α) (s : S) :
    run (.cmd c k) s = run (k (exec c s).1) (exec c s).2 := rfl

@[simp] theorem run_call (c : C α) (s : S) :
    run (call c : Prog E C α) s = (.ok (exec c s).1, (exec c s).2) := rfl

/-- A sequence runs its second part from where the first left the store. -/
theorem run_bind (p : Prog E C α) (f : α → Prog E C β) (s : S) :
    run (p >>= f) s = match run p s with
      | (.ok a, s') => run (f a) s'
      | (.error e, s') => (.error e, s') := by
  induction p generalizing s with
  | ret a => rfl
  | raise e => rfl
  | cmd c k ih => exact ih _ _

theorem run_bind_ok {p : Prog E C α} {f : α → Prog E C β} {s s' : S} {a : α} (h : run p s = (.ok a, s')) :
    run (p >>= f) s = run (f a) s' := by
  rw [run_bind, h]

theorem run_bind_error {p : Prog E C α} {f : α → Prog E C β} {s s' : S} {e : E} (h : run p s = (.error e, s')) :
    run (p >>= f) s = (.error e, s') := by
  rw [run_bind, h]

/-- A sequence that returns has returned from both parts. -/
theorem run_bind_eq_ok {p : Prog E C α} {f : α → Prog E C β} {s s' : S} {b : β} (h : run (p >>= f) s = (.ok b, s')) :
    ∃ a t, run p s = (.ok a, t) ∧ run (f a) t = (.ok b, s') := by
  rw [run_bind] at h
  cases hp : run p s with
  | mk r t =>
    rw [hp] at h
    cases r with
    | ok a => exact ⟨a, t, rfl, h⟩
    | error e => cases h

/-- What is done with the result of a program, without a command, leaves the store. -/
theorem run_bind_ret (p : Prog E C α) (f : α → β) (s : S) : (run (p >>= fun a => .ret (f a)) s).2 = (run p s).2 := by
  rw [run_bind]
  split <;> simp_all

/-- `attempt` turns what a program returns or raises into a result. -/
theorem run_attempt (p : Prog E C α) (s : S) : run p.attempt s = (.ok (run p s).1, (run p s).2) := by
  induction p generalizing s with
  | ret a => rfl
  | raise e => rfl
  | cmd c k ih => exact ih _ _

/-- A loop whose body only reads returns the list of what it reads. -/
theorem run_collect {ι : Type} {l : List ι} {body : ι → Prog E C α} {f : ι → α} {s : S}
    (h : ∀ i ∈ l, run (body i) s = (.ok (f i), s)) : run (collect l body) s = (.ok (l.map f), s) := by
  induction l with
  | nil => rfl
  | cons i l ih =>
    rw [collect_cons, run_bind_ok (h i List.mem_cons_self), run_bind_ok (ih fun j hj => h j (List.mem_cons_of_mem i hj))]
    rfl

/-- A loop whose body only reads raises where one of its rounds does. -/
theorem run_collect_raises {ι : Type} {l : List ι} {body : ι → Prog E C α} {s : S} (hreads : ∀ i ∈ l, (run (body i) s).2 = s)
    {i : ι} (hi : i ∈ l) {e : E} (hraises : (run (body i) s).1 = .error e) : ∃ e, run (collect l body) s = (.error e, s) := by
  induction l with
  | nil => cases hi
  | cons j l ih =>
    rw [collect_cons]
    have hj := hreads j List.mem_cons_self
    cases hround : run (body j) s with
    | mk r t =>
      rw [hround] at hj
      subst hj
      cases r with
      | error e' => exact ⟨e', run_bind_error hround⟩
      | ok a =>
        -- it is a later round that raises
        rcases List.mem_cons.1 hi with rfl | hi
        · rw [hround] at hraises
          cases hraises
        · obtain ⟨e', hrest⟩ := ih (fun k hk => hreads k (List.mem_cons_of_mem j hk)) hi
          exact ⟨e', (run_bind_ok hround).trans (run_bind_error hrest)⟩

/-- A loop whose body ends in a known store folds over its list. `I` is what the body needs. -/
theorem run_forEach {ι : Type} {body : ι → Prog E C Unit} {f : S → ι → S} {I : ι → Prop}
    (h : ∀ i s, I i → run (body i) s = (.ok (), f s i)) {l : List ι} (hl : ∀ i ∈ l, I i) (s : S) :
    run (forEach l body) s = (.ok (), l.foldl f s) := by
  induction l generalizing s with
  | nil => rfl
  | cons i l ih =>
    rw [forEach_cons, run_bind_ok (h i s (hl i List.mem_cons_self)), List.foldl_cons]
    exact ih (fun j hj => hl j (List.mem_cons_of_mem i hj)) (f s i)

/-! ## Frames -/

/-- Every command the program can issue, whatever the answers, meets `P`. -/
def Only (P : ⦃β : Type⦄ → C β → Prop) : Prog E C α → Prop
  | .ret _ => True
  | .raise _ => True
  | .cmd c k => P c ∧ ∀ b, Only P (k b)

section Only
variable (P : ⦃β : Type⦄ → C β → Prop)

@[simp] theorem only_ret (a : α) : Only P (.ret a : Prog E C α) := trivial

@[simp] theorem only_raise (e : E) : Only P (.raise e : Prog E C α) := trivial

@[simp] theorem only_cmd (c : C β) (k : β → Prog E C α) : Only P (.cmd c k) ↔ P c ∧ ∀ b, Only P (k b) := Iff.rfl

@[simp] theorem only_ite (b : Prop) [Decidable b] (p q : Prog E C α) :
    Only P (if b then p else q) ↔ (b → Only P p) ∧ (¬b → Only P q) := by
  by_cases h : b <;> simp [h]

theorem only_bind {p : Prog E C α} {f : α → Prog E C β} (hp : Only P p) (hf : ∀ a, Only P (f a)) :
    Only P (p >>= f) := by
  induction p with
  | ret a => exact hf a
  | raise e => trivial
  | cmd c k ih => exact ⟨hp.1, fun b => ih b (hp.2 b)⟩

theorem only_collect {ι : Type} {l : List ι} {body : ι → Prog E C α} (h : ∀ i ∈ l, Only P (body i)) :
    Only P (collect l body) := by
  induction l with
  | nil => trivial
  | cons i l ih =>
    rw [collect_cons]
    apply only_bind P (h i List.mem_cons_self)
    intro a
    exact only_bind P (ih fun j hj => h j (List.mem_cons_of_mem i hj)) fun _ => trivial

theorem only_forEach {ι : Type} {l : List ι} {body : ι → Prog E C Unit} (h : ∀ i ∈ l, Only P (body i)) :
    Only P (forEach l body) := by
  induction l with
  | nil => trivial
  | cons i l ih => exact only_bind P (h i List.mem_cons_self) fun _ => ih fun j hj => h j (List.mem_cons_of_mem i hj)

theorem only_ofExcept (x : Except E α) : Only P (ofExcept x : Prog E C α) := by
  cases x <;> trivial

@[simp] theorem only_orRaise_bind (e : E) (o : Option α) (f : α → Prog E C β) :
    Only P (orRaise e o >>= f) ↔ ∀ a, o = some a → Only P (f a) := by
  cases o <;> simp

variable {P}

/-- What every command of the program keeps, its run keeps. -/
theorem Only.run_inv {I : S → Prop} (hP : ∀ ⦃β : Type⦄ (c : C β) (s : S), P c → I s → I (exec c s).2)
    {p : Prog E C α} (hp : Only P p) {s : S} (hs : I s) : I (run p s).2 := by
  induction p generalizing s with
  | ret a => exact hs
  | raise e => exact hs
  | cmd c k ih => exact ih _ (hp.2 _) (hP c s hp.1 hs)

end Only

/-- What the program returns meets `V`, whatever the answers. -/
def Returns (V : α → Prop) : Prog E C α → Prop
  | .ret a => V a
  | .raise _ => True
  | .cmd _ k => ∀ b, Returns V (k b)

section Returns
omit [Exec C S]

theorem returns_any (p : Prog E C α) : Returns (fun _ => True) p := by
  induction p with
  | ret a => trivial
  | raise e => trivial
  | cmd c k ih => exact ih

theorem returns_bind {U : α → Prop} {V : β → Prop} {p : Prog E C α} {f : α → Prog E C β} (hp : Returns U p)
    (hf : ∀ a, U a → Returns V (f a)) : Returns V (p >>= f) := by
  induction p with
  | ret a => exact hf a hp
  | raise e => trivial
  | cmd c k ih => exact fun b => ih b (hp b)

theorem returns_orRaise (e : E) (o : Option α) : Returns (fun a => o = some a) (orRaise e o : Prog E C α) := by
  cases o with
  | none => trivial
  | some a => exact rfl

theorem only_bind_returns {P : ⦃β : Type⦄ → C β → Prop} {V : α → Prop} {p : Prog E C α} {f : α → Prog E C β} (hp : Only P p)
    (hV : Returns V p) (hf : ∀ a, V a → Only P (f a)) : Only P (p >>= f) := by
  induction p with
  | ret a => exact hf a hV
  | raise e => trivial
  | cmd c k ih => exact ⟨hp.1, fun b => ih b (hp.2 b) (hV b)⟩

theorem Only.mono {P P' : ⦃β : Type⦄ → C β → Prop} (h : ∀ ⦃β : Type⦄ (c : C β), P c → P' c) {p : Prog E C α} (hp : Only P p) :
    Only P' p := by
  induction p with
  | ret a => trivial
  | raise e => trivial
  | cmd c k ih => exact ⟨h c hp.1, fun b => ih b (hp.2 b)⟩

theorem only_any (p : Prog E C α) : Only (fun _ _ => True) p := by
  induction p with
  | ret a => trivial
  | raise e => trivial
  | cmd c k ih => exact ⟨trivial, ih⟩

end Returns

/-! ## What a run shows -/

section Trace
variable {Ev : Type} [Note C Ev]

/-- The events of the program run alone from `s`. -/
def trace (Ev : Type) [Note C Ev] : Prog E C α → S → List Ev
  | .ret _, _ => []
  | .raise _, _ => []
  | .cmd c k, s => note c (exec c s).1 ++ trace Ev (k (exec c s).1) (exec c s).2

@[simp] theorem trace_ret (a : α) (s : S) : trace Ev (.ret a : Prog E C α) s = [] := rfl

@[simp] theorem trace_raise (e : E) (s : S) : trace Ev (.raise e : Prog E C α) s = [] := rfl

@[simp] theorem trace_step (c : C β) (k : β → Prog E C α) (s : S) :
    trace Ev (.cmd c k) s = note c (exec c s).1 ++ trace Ev (k (exec c s).1) (exec c s).2 := rfl

theorem trace_bind_ok {p : Prog E C α} {f : α → Prog E C β} {s s' : S} {a : α} (h : run p s = (.ok a, s')) :
    trace Ev (p >>= f) s = trace Ev p s ++ trace Ev (f a) s' := by
  induction p generalizing s with
  | ret b => cases h; rfl
  | raise e => cases h
  | cmd c k ih => simp only [cmd_bind, trace_step, ih _ h, List.append_assoc]

theorem trace_bind_error {p : Prog E C α} {f : α → Prog E C β} {s s' : S} {e : E} (h : run p s = (.error e, s')) :
    trace Ev (p >>= f) s = trace Ev p s := by
  induction p generalizing s with
  | ret b => cases h
  | raise e => rfl
  | cmd c k ih => simp only [cmd_bind, trace_step, ih _ h]

theorem trace_bind_ret (p : Prog E C α) (f : α → β) (s : S) :
    trace Ev (p >>= fun a => .ret (f a)) s = trace Ev p s := by
  induction p generalizing s with
  | ret a => rfl
  | raise e => rfl
  | cmd c k ih => simp only [cmd_bind, trace_step, ih]

/-- What every command of the program notes, its run shows. -/
theorem Only.trace_all {Q : Ev → Prop} {P : ⦃β : Type⦄ → C β → Prop}
    (hP : ∀ ⦃β : Type⦄ (c : C β) (b : β), P c → ∀ e ∈ (note c b : List Ev), Q e) {p : Prog E C α} (hp : Only P p) (s : S) :
    ∀ e ∈ trace Ev p s, Q e := by
  induction p generalizing s with
  | ret a => exact fun e he => absurd he List.not_mem_nil
  | raise x => exact fun e he => absurd he List.not_mem_nil
  | cmd c k ih =>
    intro e he
    rcases List.mem_append.1 he with he | he
    · exact hP c _ hp.1 e he
    · exact ih _ (hp.2 _) _ e he

theorem Only.trace_nil {P : ⦃β : Type⦄ → C β → Prop} (hP : ∀ ⦃β : Type⦄ (c : C β) (b : β), P c → (note c b : List Ev) = [])
    {p : Prog E C α} (hp : Only P p) (s : S) : trace Ev p s = [] := by
  induction p generalizing s with
  | ret a => rfl
  | raise e => rfl
  | cmd c k ih => rw [trace_step, hP c _ hp.1, ih _ (hp.2 _), List.append_nil]

end Trace

/-! ## Run and trace together -/

/-- Run alone from `s`, the program comes to `r`, leaves `s'` and shows `l`. -/
structure Ran {Ev : Type} [Note C Ev] (p : Prog E C α) (s : S) (r : Except E α) (s' : S) (l : List Ev) : Prop where
  run : Prog.run p s = (r, s')
  trace : Prog.trace Ev p s = l

section Ran
variable {Ev : Type} [Note C Ev] {s s' s'' : S} {l l' : List Ev}

theorem ran_ret (a : α) (s : S) : Ran (.ret a : Prog E C α) s (.ok a) s ([] : List Ev) := ⟨rfl, rfl⟩

theorem ran_cmd {c : C β} {k : β → Prog E C α} {r : Except E α} (h : Ran (k (exec c s).1) (exec c s).2 r s' l) :
    Ran (.cmd c k) s r s' (note c (exec c s).1 ++ l) :=
  ⟨h.run, congrArg _ h.trace⟩

/-- A command that shows nothing. -/
theorem ran_quiet {c : C β} {k : β → Prog E C α} {r : Except E α} (hc : (note c (exec c s).1 : List Ev) = [])
    (h : Ran (k (exec c s).1) (exec c s).2 r s' l) : Ran (.cmd c k) s r s' l := by
  have hcmd := ran_cmd h
  rwa [hc, List.nil_append] at hcmd

/-- A command that shows nothing, before the rest. -/
theorem ran_call_bind {c : C β} {f : β → Prog E C α} {r : Except E α} (hc : (note c (exec c s).1 : List Ev) = [])
    (h : Ran (f (exec c s).1) (exec c s).2 r s' l) : Ran (call c >>= f) s r s' l :=
  ran_quiet hc h

theorem Ran.bind {p : Prog E C α} {f : α → Prog E C β} {a : α} {r : Except E β} (hp : Ran p s (.ok a) s' l)
    (hf : Ran (f a) s' r s'' l') : Ran (p >>= f) s r s'' (l ++ l') where
  run := by rw [run_bind_ok hp.run, hf.run]
  trace := by rw [trace_bind_ok hp.run, hp.trace, hf.trace]

theorem Ran.bind_nil {p : Prog E C α} {f : α → Prog E C β} {a : α} {r : Except E β} (hp : Ran p s (.ok a) s' ([] : List Ev))
    (hf : Ran (f a) s' r s'' l) : Ran (p >>= f) s r s'' l :=
  hp.bind hf

theorem Ran.bind_error {p : Prog E C α} {f : α → Prog E C β} {e : E} (hp : Ran p s (.error e) s' l) :
    Ran (p >>= f) s (.error e) s' l :=
  ⟨run_bind_error hp.run, (trace_bind_error hp.run).trans hp.trace⟩

/-- What is caught is what it came to. -/
theorem Ran.attempt {p : Prog E C α} {r : Except E α} (h : Ran p s r s' l) : Ran p.attempt s (.ok r) s' l := by
  induction p generalizing s l with
  | ret a =>
    obtain ⟨hrun, rfl⟩ := h
    cases hrun
    exact ran_ret _ _
  | raise e =>
    obtain ⟨hrun, rfl⟩ := h
    cases hrun
    exact ran_ret _ _
  | cmd c k ih =>
    obtain ⟨hrun, rfl⟩ := h
    exact ran_cmd (k := fun b => (k b).attempt) (ih _ ⟨hrun, rfl⟩)

/-- A loop whose body only reads shows nothing. -/
theorem ran_collect {ι : Type} {l : List ι} {body : ι → Prog E C α} {f : ι → α}
    (h : ∀ i ∈ l, Ran (body i) s (.ok (f i)) s ([] : List Ev)) : Ran (collect l body) s (.ok (l.map f)) s ([] : List Ev) := by
  induction l with
  | nil => exact ran_ret [] s
  | cons i l ih =>
    rw [collect_cons]
    exact (h i List.mem_cons_self).bind ((ih fun j hj => h j (List.mem_cons_of_mem i hj)).bind (ran_ret _ s))

end Ran

/-- Run alone from `s`, the program comes to an outcome, a store and events that meet `Q`. -/
def Comes {Ev : Type} [Note C Ev] (Q : Except E α → S → List Ev → Prop) (p : Prog E C α) (s : S) : Prop :=
  Q (Prog.run p s).1 (Prog.run p s).2 (Prog.trace Ev p s)

section Comes
variable {Ev : Type} [Note C Ev] {Q : Except E α → S → List Ev → Prop} {s : S}

theorem comes_ret {a : α} (h : Q (.ok a) s []) : Comes Q (.ret a : Prog E C α) s := h

theorem comes_raise {e : E} (h : Q (.error e) s []) : Comes Q (.raise e : Prog E C α) s := h

/-- A check, and what the program goes on with. -/
theorem comes_ite {c : Prop} [Decidable c] {p q : Prog E C α} (hp : c → Comes Q p s) (hq : ¬c → Comes Q q s) :
    Comes Q (if c then p else q) s := by
  split
  · rename_i h
    exact hp h
  · rename_i h
    exact hq h

theorem Ran.comes {p : Prog E C α} {r : Except E α} {s' : S} {l : List Ev} (h : Ran p s r s' l) (hQ : Q r s' l) : Comes Q p s := by
  rwa [Comes, h.run, h.trace]

/-- What is run first comes to something that shows nothing. -/
theorem comes_bind {p : Prog E C β} {f : β → Prog E C α} {b : β} {s' : S} (hp : Ran p s (.ok b) s' ([] : List Ev))
    (h : Comes Q (f b) s') : Comes Q (p >>= f) s := by
  rw [Comes, run_bind_ok hp.run, trace_bind_ok hp.run, hp.trace]
  exact h

theorem Ran.comes_bind_iff {p : Prog E C β} {f : β → Prog E C α} {b : β} {s' : S} (hp : Ran p s (.ok b) s' ([] : List Ev)) :
    Comes Q (p >>= f) s ↔ Comes Q (f b) s' := by
  rw [Comes, run_bind_ok hp.run, trace_bind_ok hp.run, hp.trace]
  rfl

theorem Ran.comes_error_iff {p : Prog E C β} {f : β → Prog E C α} {e : E} {s' : S} {l : List Ev} (hp : Ran p s (.error e) s' l) :
    Comes Q (p >>= f) s ↔ Q (.error e) s' l := by
  rw [Comes, (hp.bind_error (f := f)).run, (hp.bind_error (f := f)).trace]

/-- What must be there is there, where an exception does not meet `Q`. -/
theorem comes_orRaise_iff {e : E} {x : Option β} {f : β → Prog E C α} (hQ : ∀ e s l, ¬Q (.error e) s l) :
    Comes Q (orRaise e x >>= f) s ↔ ∃ b, x = some b ∧ Comes Q (f b) s := by
  cases x with
  | some b => exact ⟨fun h => ⟨b, rfl, h⟩, fun ⟨_, hb, h⟩ => Option.some.inj hb ▸ h⟩
  | none => exact ⟨fun h => absurd h (hQ _ _ _), fun ⟨_, hb, _⟩ => nomatch hb⟩

/-- What is answered does not matter. -/
theorem comes_ignore {Q : S → List Ev → Prop} {p : Prog E C α} {b : β} (h : Comes (fun _ s' l => Q s' l) p s) :
    Comes (fun _ s' l => Q s' l) (p >>= fun _ => .ret b) s := by
  rw [Comes, run_bind_ret, trace_bind_ret]
  exact h

theorem Comes.mono {Q' : Except E α → S → List Ev → Prop} {p : Prog E C α} (h : Comes Q p s) (hQ : ∀ r s' l, Q r s' l → Q' r s' l) :
    Comes Q' p s :=
  hQ _ _ _ h

end Comes

/-! ## Programs of a part of the store -/

section Lift
variable {D : Type → Type} {T : Type}

/-- The program with its commands among others. -/
def lift (inj : ⦃β : Type⦄ → C β → D β) : Prog E C α → Prog E D α
  | .ret a => .ret a
  | .raise e => .raise e
  | .cmd c k => .cmd (inj c) fun b => lift inj (k b)

/-- The commands that `inj` puts among others act on a part of the store. -/
structure Part [Exec D T] (inj : ⦃β : Type⦄ → C β → D β) (view : T → S) (put : T → S → T) : Prop where
  exec : ∀ ⦃β : Type⦄ (c : C β) t, exec (inj c) t = ((exec c (view t)).1, put t (exec c (view t)).2)
  view_put : ∀ t s, view (put t s) = s
  put_put : ∀ t s s', put (put t s) s' = put t s'
  put_view : ∀ t, put t (view t) = t

theorem returns_lift {V : α → Prop} {inj : ⦃β : Type⦄ → C β → D β} {p : Prog E C α} (h : Returns V p) :
    Returns V (p.lift inj) := by
  induction p with
  | ret a => exact h
  | raise e => trivial
  | cmd c k ih => exact fun b => ih b (h b)

theorem only_lift {P : ⦃β : Type⦄ → D β → Prop} {inj : ⦃β : Type⦄ → C β → D β} {p : Prog E C α}
    (h : Only (fun _ c => P (inj c)) p) : Only P (p.lift inj) := by
  induction p with
  | ret a => trivial
  | raise e => trivial
  | cmd c k ih => exact ⟨h.1, fun b => ih b (h.2 b)⟩

theorem run_lift [Exec D T] {inj : ⦃β : Type⦄ → C β → D β} {view : T → S} {put : T → S → T} (hpart : Part inj view put)
    (p : Prog E C α) (t : T) : Prog.run (p.lift inj) t = ((Prog.run p (view t)).1, put t (Prog.run p (view t)).2) := by
  induction p generalizing t with
  | ret a => exact Prod.ext rfl (hpart.put_view t).symm
  | raise e => exact Prod.ext rfl (hpart.put_view t).symm
  | cmd c k ih =>
    show Prog.run (Prog.lift inj (k (exec (inj c) t).1)) (exec (inj c) t).2 = _
    rw [hpart.exec, ih, hpart.view_put, hpart.put_put]
    rfl

/-- It does to its part of the store what it does to that part alone. -/
theorem Ran.lift [Exec D T] {Ev Ev' : Type} [Note C Ev] [Note D Ev'] {inj : ⦃β : Type⦄ → C β → D β} {view : T → S}
    {put : T → S → T} (hpart : Part inj view put) {g : Ev → Ev'}
    (hnote : ∀ ⦃β : Type⦄ (c : C β) b, (note (inj c) b : List Ev') = (note c b).map g)
    {p : Prog E C α} {t : T} {r : Except E α} {s' : S} {l : List Ev} (h : Ran p (view t) r s' l) :
    Ran (p.lift inj) t r (put t s') (l.map g) := by
  induction p generalizing t l with
  | ret a =>
    obtain ⟨hrun, rfl⟩ := h
    cases hrun
    exact ⟨by rw [hpart.put_view]; rfl, rfl⟩
  | raise e =>
    obtain ⟨hrun, rfl⟩ := h
    cases hrun
    exact ⟨by rw [hpart.put_view]; rfl, rfl⟩
  | cmd c k ih =>
    obtain ⟨hrun, rfl⟩ := h
    have hnext := ih (exec c (view t)).1 (t := put t (exec c (view t)).2) (by rw [hpart.view_put]; exact ⟨hrun, rfl⟩)
    rw [hpart.put_put] at hnext
    rw [trace_step, List.map_append, ← hnote]
    refine ⟨?_, ?_⟩
    · show Prog.run (Prog.lift inj (k (exec (inj c) t).1)) (exec (inj c) t).2 = _
      rw [hpart.exec]
      exact hnext.run
    · show note (inj c) (exec (inj c) t).1 ++ Prog.trace Ev' (Prog.lift inj (k (exec (inj c) t).1)) (exec (inj c) t).2 = _
      rw [hpart.exec, hnext.trace]

end Lift

end Prog
