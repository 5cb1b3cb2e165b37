import FishWeb.Lib.Prog
import Mathlib.Logic.Function.Iterate
/-!
# One server behind a lock

Threads take messages from what they share with the rest of the world, one at a time, and
run the program of each. A thread takes messages while it has the lock, until there is none.
However the threads take their turns, and whatever the others do meanwhile, they are one loop
(`threads_refine`), and the loop serves the messages one after another, in the order in which
they were taken (`serial_step`). Where the others leave the data alone, the data and the answers
are those of running each program alone (`Serves.alone`). When the others do nothing, the
threads come to rest (`threads_rest`).
-/

namespace Served

open Prog

variable {E A M O Ev σ ι : Type} {C : Type → Type}

/-! ## The loop -/

/-- What a thread finds outside of its data, what it does there, and what others do. -/
structure Service (E A M O Ev σ : Type) (C : Type → Type) where
  /-- Whether a thread that has the lock begins to take messages. -/
  opened : O → Bool
  take : O → Option M × O
  handle : M → Option (Prog E C A)
  /-- What a command does beside the data. -/
  touch : ⦃β : Type⦄ → C β → O → O
  answer : M → A → O → O
  /-- What follows an answer. -/
  mark : M → O → O
  other : Ev → O → O
  /-- What others do to the data. -/
  meddle : Ev → σ → σ

/-- What the thread with the lock does next. -/
inductive Stage (E : Type) (C : Type → Type) (A M : Type) : Type 1 where
  | look
  | take
  | work (m : M) (p : Prog E C A)
  | mark (m : M)
  | leave

/-- The data and what is outside, and beside them which messages were taken and which answers given. -/
structure Books (σ O M A : Type) where
  data : σ
  out : O
  taken : List M
  answers : List (M × A)

/-- No stage is before the lock. -/
structure Loop (E : Type) (C : Type → Type) (A M O σ : Type) : Type 1 where
  stage : Option (Stage E C A M)
  books : Books σ O M A

section Steps
variable [Exec C σ] (S : Service E A M O Ev σ C)

/-- The next command of a thread that has the lock, or is given it. -/
def advance (s : Loop E C A M O σ) : Loop E C A M O σ :=
  let b := s.books
  match s.stage with
  | none => ⟨some .look, b⟩
  | some .look => ⟨some (if S.opened b.out then .take else .leave), b⟩
  | some .take =>
    match S.take b.out with
    | (none, out) => ⟨some .leave, { b with out }⟩
    | (some m, out) =>
      ⟨some (match S.handle m with | none => .take | some p => .work m p), { b with out, taken := b.taken ++ [m] }⟩
  | some (.work m (.cmd c k)) =>
    ⟨some (.work m (k (Exec.exec c b.data).1)), { b with data := (Exec.exec c b.data).2, out := S.touch c b.out }⟩
  | some (.work m (.ret a)) =>
    ⟨some (.mark m), { b with out := S.answer m a b.out, answers := b.answers ++ [(m, a)] }⟩
  | some (.work _ (.raise _)) => ⟨some .take, b⟩
  | some (.mark m) => ⟨some .take, { b with out := S.mark m b.out }⟩
  | some .leave => ⟨none, b⟩

/-- One step of the loop, or of the others. -/
def loopStep (s : Loop E C A M O σ) : Option Ev → Loop E C A M O σ
  | none => advance S s
  | some e => { s with books := { s.books with data := S.meddle e s.books.data, out := S.other e s.books.out } }

end Steps

/-! ## The threads -/

structure Threads (ι E : Type) (C : Type → Type) (A M O σ : Type) : Type 1 where
  locked : Bool
  /-- The threads that are past the lock. -/
  inside : ι → Option (Stage E C A M)
  books : Books σ O M A

inductive Move (ι Ev : Type) where
  | turn (i : ι)
  | other (e : Ev)
  deriving Repr, DecidableEq

/-- What the others do in a move. -/
def Move.event : Move ι Ev → Option Ev
  | .turn _ => none
  | .other e => some e

/-- Nobody is past the lock. -/
def Threads.start (b : Books σ O M A) : Threads ι E C A M O σ := ⟨false, fun _ => none, b⟩

section Turns
variable [Exec C σ] [DecidableEq ι] (S : Service E A M O Ev σ C)

/-- A thread's turn: before the lock it takes it if it is free, and past it does what comes next. -/
def turn (i : ι) (s : Threads ι E C A M O σ) : Threads ι E C A M O σ :=
  match s.inside i with
  | none => if s.locked then s else ⟨true, Function.update s.inside i (some .look), s.books⟩
  | some st =>
    let l := advance S ⟨some st, s.books⟩
    ⟨if l.stage.isNone then false else s.locked, Function.update s.inside i l.stage, l.books⟩

def threadStep (s : Threads ι E C A M O σ) : Move ι Ev → Threads ι E C A M O σ
  | .turn i => turn S i s
  | .other e => { s with books := { s.books with data := S.meddle e s.books.data, out := S.other e s.books.out } }

theorem turn_outside {i : ι} {s : Threads ι E C A M O σ} (h : s.inside i = none) :
    turn S i s = if s.locked then s else ⟨true, Function.update s.inside i (some .look), s.books⟩ := by
  unfold turn
  rw [h]

theorem turn_inside {i : ι} {s : Threads ι E C A M O σ} {st : Stage E C A M} (h : s.inside i = some st) :
    turn S i s = ⟨if (advance S ⟨some st, s.books⟩).stage.isNone then false else s.locked,
      Function.update s.inside i (advance S ⟨some st, s.books⟩).stage, (advance S ⟨some st, s.books⟩).books⟩ := by
  unfold turn
  rw [h]

/-- A turn does to the books what a step of the loop does, or nothing. -/
theorem turn_books (i : ι) (s : Threads ι E C A M O σ) :
    (turn S i s).books = s.books ∨ ∃ st, s.inside i = some st ∧ (turn S i s).books = (advance S ⟨some st, s.books⟩).books := by
  cases h : s.inside i with
  | none =>
    refine .inl ?_
    rw [turn_outside S h]
    split <;> rfl
  | some st => exact .inr ⟨st, rfl, by rw [turn_inside S h]⟩

end Turns

/-! ## Threads are one loop -/

section Refine
variable [DecidableEq ι]

/-- The thread with the lock is where the loop is; no other is past the lock. -/
inductive Refines : Threads ι E C A M O σ → Loop E C A M O σ → Prop
  | free (b : Books σ O M A) : Refines ⟨false, fun _ => none, b⟩ ⟨none, b⟩
  | held (i : ι) (st : Stage E C A M) (b : Books σ O M A) : Refines ⟨true, Function.update (fun _ => none) i (some st), b⟩ ⟨some st, b⟩

theorem Refines.books_eq {s : Threads ι E C A M O σ} {l : Loop E C A M O σ} (h : Refines s l) : s.books = l.books := by
  cases h <;> rfl

/-- At most one thread is past the lock. -/
theorem Refines.alone {s : Threads ι E C A M O σ} {l : Loop E C A M O σ} (h : Refines s l) {i j : ι}
    (hi : s.inside i ≠ none) (hj : s.inside j ≠ none) : i = j := by
  cases h with
  | free => exact absurd rfl hi
  | held k =>
    have heq (i : ι) (hi : Function.update (fun _ => none) k (some ‹Stage E C A M›) i ≠ none) : i = k := by
      by_contra h
      exact hi (Function.update_of_ne h ..)
    exact (heq i hi).trans (heq j hj).symm

variable [Exec C σ] (S : Service E A M O Ev σ C)

/-- The turn of a thread is a step of the loop, unless the thread waits for the lock. -/
theorem refines_turn {s : Threads ι E C A M O σ} {l : Loop E C A M O σ} (h : Refines s l) (i : ι) :
    (turn S i s = s ∧ s.locked = true ∧ s.inside i = none) ∨ Refines (turn S i s) (advance S l) := by
  cases h with
  | free b => exact .inr (.held i .look b)
  | held k st b =>
    by_cases hik : i = k
    · subst hik
      refine .inr ?_
      have hinside : (⟨true, Function.update (fun _ => none) i (some st), b⟩ : Threads ι E C A M O σ).inside i = some st :=
        Function.update_self i (some st) fun _ => none
      rw [turn_inside S hinside]
      rcases advance S ⟨some st, b⟩ with ⟨_ | st', books⟩
      · rw [Function.update_idem, Function.update_eq_self_iff.2 rfl]
        exact .free books
      · rw [Function.update_idem]
        exact .held i st' books
    · have hnone : Function.update (fun _ => none) k (some st) i = none := Function.update_of_ne hik ..
      exact .inl ⟨turn_outside S hnone, rfl, hnone⟩

/-- What others do to the threads they do to the loop. -/
theorem refines_other {s : Threads ι E C A M O σ} {l : Loop E C A M O σ} (h : Refines s l) (e : Ev) :
    Refines (threadStep S s (.other e)) (loopStep S l (some e)) := by
  cases h with
  | free b => exact .free _
  | held k st b => exact .held k st _

/-- Whatever turns they take, the threads go where the loop goes, with the others doing the same in the same order. -/
theorem threads_refine {s : Threads ι E C A M O σ} {l : Loop E C A M O σ} (h : Refines s l) (ms : List (Move ι Ev)) :
    ∃ es : List (Option Ev), es.filterMap id = ms.filterMap Move.event ∧ Refines (ms.foldl (threadStep S) s) (es.foldl (loopStep S) l) := by
  induction ms generalizing s l with
  | nil => exact ⟨[], rfl, h⟩
  | cons m ms ih =>
    cases m with
    | turn i =>
      rcases refines_turn S h i with ⟨hstay, -⟩ | hgo
      · obtain ⟨es, hes, hr⟩ := ih h
        refine ⟨es, hes, ?_⟩
        rwa [List.foldl_cons, threadStep, hstay]
      · obtain ⟨es, hes, hr⟩ := ih hgo
        exact ⟨none :: es, hes, hr⟩
    | other e =>
      obtain ⟨es, hes, hr⟩ := ih (refines_other S h e)
      exact ⟨some e :: es, congrArg (e :: ·) hes, hr⟩

/-- What every step of the loop keeps holds of a loop that the threads are. -/
theorem threads_inv {I : Loop E C A M O σ → Prop} (hI : ∀ l e, I l → I (loopStep S l e)) {s : Threads ι E C A M O σ}
    {l : Loop E C A M O σ} (h : Refines s l) (hl : I l) (ms : List (Move ι Ev)) :
    ∃ l', Refines (ms.foldl (threadStep S) s) l' ∧ I l' := by
  obtain ⟨es, -, hr⟩ := threads_refine S h ms
  refine ⟨_, hr, ?_⟩
  clear hr h
  induction es generalizing l with
  | nil => exact hl
  | cons e es ih => exact ih (hI l e hl)

end Refine

/-! ## The loop serves one message after another -/

section Serial
variable [Exec C σ] (S : Service E A M O Ev σ C)

/-- What a program comes to when others may change the data by `R` whenever they like. -/
inductive RunsTo (R : σ → σ → Prop) : Prog E C A → σ → Except E A → σ → Prop
  | ret (a : A) (d : σ) : RunsTo R (.ret a) d (.ok a) d
  | raise (e : E) (d : σ) : RunsTo R (.raise e) d (.error e) d
  | cmd {β : Type} {c : C β} {k : β → Prog E C A} {d d' : σ} {r : Except E A} :
    RunsTo R (k (Exec.exec c d).1) (Exec.exec c d).2 r d' → RunsTo R (.cmd c k) d r d'
  | other {p : Prog E C A} {d d₁ d' : σ} {r : Except E A} : R d d₁ → RunsTo R p d₁ r d' → RunsTo R p d r d'

/-- The answer to a message, if its program returns. -/
def reply (m : M) : Except E A → List (M × A)
  | .ok a => [(m, a)]
  | .error _ => []

/-- The messages are served one after another, with these answers. -/
inductive Serves (R : σ → σ → Prop) (d₀ : σ) : List M → List (M × A) → σ → Prop
  | start : Serves R d₀ [] [] d₀
  | pass {ms : List M} {as : List (M × A)} {d : σ} {m : M} : Serves R d₀ ms as d → S.handle m = none → Serves R d₀ (ms ++ [m]) as d
  | work {ms : List M} {as : List (M × A)} {d d' : σ} {m : M} {p : Prog E C A} {r : Except E A} :
    Serves R d₀ ms as d → S.handle m = some p → RunsTo R p d r d' → Serves R d₀ (ms ++ [m]) (as ++ reply m r) d'
  | other {ms : List M} {as : List (M × A)} {d d' : σ} : Serves R d₀ ms as d → R d d' → Serves R d₀ ms as d'

theorem mem_reply {m m' : M} {a : A} {r : Except E A} : (m, a) ∈ reply m' r ↔ m' = m ∧ r = .ok a := by
  cases r <;> simp [reply, eq_comm]

/-- An answer is what the program of its message comes to, run when the messages before it have been served. -/
theorem Serves.of_mem {R : σ → σ → Prop} {d₀ d : σ} {ms : List M} {as : List (M × A)} {m : M} {a : A} (h : Serves S R d₀ ms as d)
    (hmem : (m, a) ∈ as) :
    ∃ pre post as' p d₁ d₂, ms = pre ++ m :: post ∧ Serves S R d₀ pre as' d₁ ∧ S.handle m = some p ∧ RunsTo R p d₁ (.ok a) d₂ := by
  induction h with
  | start => cases hmem
  | @pass ms _ _ m' _ _ ih =>
    obtain ⟨pre, post, as', p, d₁, d₂, rfl, hrest⟩ := ih hmem
    exact ⟨pre, post ++ [m'], as', p, d₁, d₂, by simp, hrest⟩
  | @work ms _ d d' m' p _ hserves hm hruns ih =>
    rcases List.mem_append.1 hmem with hmem | hmem
    · obtain ⟨pre, post, as', p, d₁, d₂, rfl, hrest⟩ := ih hmem
      exact ⟨pre, post ++ [m'], as', p, d₁, d₂, by simp, hrest⟩
    · obtain ⟨rfl, rfl⟩ := mem_reply.1 hmem
      exact ⟨ms, [], _, p, d, d', rfl, hserves, hm, hruns⟩
  | other _ _ ih => exact ih hmem

/-- Each message that was served was served in its turn, and its answer, if there is one, is among the answers. -/
theorem Serves.of_served {R : σ → σ → Prop} {d₀ d : σ} {ms : List M} {as : List (M × A)} {m : M} {p : Prog E C A}
    (h : Serves S R d₀ ms as d) (hmem : m ∈ ms) (hp : S.handle m = some p) :
    ∃ pre post as' d₁ r d₂, ms = pre ++ m :: post ∧ Serves S R d₀ pre as' d₁ ∧ RunsTo R p d₁ r d₂ ∧
      ∀ a, r = .ok a → (m, a) ∈ as := by
  induction h with
  | start => cases hmem
  | @pass ms _ _ m' _ hm ih =>
    rcases List.mem_append.1 hmem with hmem | hmem
    · obtain ⟨pre, post, as', d₁, r, d₂, rfl, hrest⟩ := ih hmem
      exact ⟨pre, post ++ [m'], as', d₁, r, d₂, by simp, hrest⟩
    · rw [List.mem_singleton.1 hmem, hm] at hp
      cases hp
  | @work ms as d d' m' p' r hserves hm hruns ih =>
    rcases List.mem_append.1 hmem with hmem | hmem
    · obtain ⟨pre, post, as', d₁, r, d₂, rfl, hpre, hrun, hans⟩ := ih hmem
      exact ⟨pre, post ++ [m'], as', d₁, r, d₂, by simp, hpre, hrun, fun a ha => List.mem_append_left _ (hans a ha)⟩
    · obtain rfl := List.mem_singleton.1 hmem
      rw [hm] at hp
      cases hp
      exact ⟨ms, [], as, d, r, d', rfl, hserves, hruns, fun a ha => List.mem_append_right _ (mem_reply.2 ⟨rfl, ha⟩)⟩
  | other _ _ ih => exact ih hmem

/-- Each message has one answer at most, in their order. -/
theorem Serves.sublist {R : σ → σ → Prop} {d₀ d : σ} {ms : List M} {as : List (M × A)} (h : Serves S R d₀ ms as d) :
    (as.map Prod.fst).Sublist ms := by
  induction h with
  | start => exact .slnil
  | pass _ _ ih => exact ih.trans (List.sublist_append_left ..)
  | @work ms as _ _ m _ r _ _ _ ih =>
    rw [List.map_append]
    refine ih.append ?_
    cases r with
    | ok a => exact List.Sublist.refl _
    | error e => exact List.nil_sublist _
  | other _ _ ih => exact ih

/-- What others do to the data. -/
def Meddles (d d' : σ) : Prop := ∃ e, d' = S.meddle e d

/-- While a program runs, what is left of it comes to what all of it may come to. -/
def Serial (d₀ : σ) (s : Loop E C A M O σ) : Prop :=
  match s.stage with
  | some (.work m p) => ∃ ms p₀ d, s.books.taken = ms ++ [m] ∧ S.handle m = some p₀ ∧ Serves S (Meddles S) d₀ ms s.books.answers d ∧
      ∀ r d', RunsTo (Meddles S) p s.books.data r d' → RunsTo (Meddles S) p₀ d r d'
  | _ => Serves S (Meddles S) d₀ s.books.taken s.books.answers s.books.data

theorem serial_advance {d₀ : σ} {s : Loop E C A M O σ} (h : Serial S d₀ s) : Serial S d₀ (advance S s) := by
  obtain ⟨stage, b⟩ := s
  cases stage with
  | none => exact h
  | some st =>
  cases st with
  | look => cases ho : S.opened b.out <;> simpa [advance, ho, Serial] using h
  | take =>
    have h : Serves S (Meddles S) d₀ b.taken b.answers b.data := h
    rcases ht : S.take b.out with ⟨_ | m, out⟩
    · simpa [advance, ht, Serial] using h
    · cases hm : S.handle m with
      | none => simpa [advance, ht, hm, Serial] using h.pass hm
      | some p =>
        simp only [advance, ht, hm]
        exact ⟨b.taken, p, b.data, rfl, hm, h, fun _ _ hr => hr⟩
  | work m p =>
    obtain ⟨ms, p₀, d, htaken, hm, hserves, hruns⟩ := h
    dsimp only at htaken hserves hruns
    have hdone {r : Except E A} {d' : σ} (hr : RunsTo (Meddles S) p b.data r d') :
        Serves S (Meddles S) d₀ b.taken (b.answers ++ reply m r) d' :=
      htaken ▸ hserves.work hm (hruns _ _ hr)
    cases p with
    | cmd c k => exact ⟨ms, p₀, d, htaken, hm, hserves, fun _ _ hr => hruns _ _ (.cmd hr)⟩
    | ret a => exact hdone (.ret a b.data)
    | raise e =>
      have h := hdone (.raise e b.data)
      rw [reply, List.append_nil] at h
      exact h
  | mark m => exact h
  | leave => exact h

theorem serial_step {d₀ : σ} {s : Loop E C A M O σ} (h : Serial S d₀ s) (e : Option Ev) : Serial S d₀ (loopStep S s e) := by
  cases e with
  | none => exact serial_advance S h
  | some e =>
    obtain ⟨stage, b⟩ := s
    have hother : Meddles S b.data (S.meddle e b.data) := ⟨e, rfl⟩
    rcases stage with _ | _ | _ | ⟨m, p⟩ | _ | _
    case some.work =>
      obtain ⟨ms, p₀, d, htaken, hm, hserves, hruns⟩ := h
      exact ⟨ms, p₀, d, htaken, hm, hserves, fun _ _ hr => hruns _ _ (.other hother hr)⟩
    all_goals exact Serves.other h hother

/-- The answers so far, and the messages that they are to. -/
theorem Serial.serves {d₀ : σ} {s : Loop E C A M O σ} (h : Serial S d₀ s) :
    ∃ ms d, ms <+: s.books.taken ∧ Serves S (Meddles S) d₀ ms s.books.answers d := by
  obtain ⟨stage, b⟩ := s
  rcases stage with _ | _ | _ | ⟨m, p⟩ | _ | _
  case some.work =>
    obtain ⟨ms, -, d, htaken, -, hserves, -⟩ := h
    exact ⟨ms, d, ⟨[m], htaken.symm⟩, hserves⟩
  all_goals exact ⟨b.taken, b.data, List.prefix_rfl, h⟩

/-! ### When nobody meddles -/

theorem RunsTo.alone {R : σ → σ → Prop} (hR : ∀ d d', R d d' → d' = d) {p : Prog E C A} {d d' : σ} {r : Except E A}
    (h : RunsTo R p d r d') : run p d = (r, d') := by
  induction h with
  | ret a d => rfl
  | raise e d => rfl
  | cmd _ ih => exact ih
  | other h _ ih => exact hR _ _ h ▸ ih

/-- A message served at once: what its program comes to, if it has one, and the data then. -/
def serve (m : M) (d : σ) : List (M × A) × σ :=
  match S.handle m with
  | none => ([], d)
  | some p => (reply m (run p d).1, (run p d).2)

/-- The messages served one after another, each at once. -/
def serveAll (ms : List M) (d : σ) : List (M × A) × σ :=
  ms.foldl (fun x m => (x.1 ++ (serve S m x.2).1, (serve S m x.2).2)) ([], d)

theorem serveAll_concat (ms : List M) (m : M) (d : σ) :
    serveAll S (ms ++ [m]) d =
      ((serveAll S ms d).1 ++ (serve S m (serveAll S ms d).2).1, (serve S m (serveAll S ms d).2).2) :=
  List.foldl_append

/-- With nobody meddling there is one way to serve the messages. -/
theorem Serves.alone {R : σ → σ → Prop} (hR : ∀ d d', R d d' → d' = d) {d₀ d : σ} {ms : List M} {as : List (M × A)}
    (h : Serves S R d₀ ms as d) : serveAll S ms d₀ = (as, d) := by
  induction h with
  | start => rfl
  | pass _ hm ih =>
    rw [serveAll_concat, ih]
    simp [serve, hm]
  | work _ hm hruns ih =>
    rw [serveAll_concat, ih]
    simp [serve, hm, hruns.alone hR]
  | other _ h ih => exact hR _ _ h ▸ ih

end Serial

/-! ## The loop comes to rest -/

section Rest
variable [Exec C σ] {S : Service E A M O Ev σ C} {size : O → Nat} {Done : O → Prop}

/-- Each message taken makes fewer, nothing makes more; what is done stays done, and until then the service is open. -/
structure Draining (S : Service E A M O Ev σ C) (size : O → Nat) (Done : O → Prop) : Prop where
  take_lt : ∀ {o}, (¬Done o ∨ (S.take o).1 ≠ none) → size (S.take o).2 < size o
  touch_le : ∀ ⦃β⦄ (c : C β) o, size (S.touch c o) ≤ size o
  answer_le : ∀ m a o, size (S.answer m a o) ≤ size o
  mark_le : ∀ m o, size (S.mark m o) ≤ size o
  done_take : ∀ {o}, Done o → Done (S.take o).2
  opened : ∀ {o}, ¬Done o → S.opened o = true
  empty : ∀ {o}, Done o → S.opened o = true → (S.take o).1 = none

/-- Nothing is left to do: the loop is at no message, and will not take one. -/
def Resting (S : Service E A M O Ev σ C) (Done : O → Prop) (s : Loop E C A M O σ) : Prop :=
  Done s.books.out ∧ match s.stage with
    | some .take => (S.take s.books.out).1 = none
    | some (.work _ _) | some (.mark _) => False
    | _ => True

theorem Resting.serves {d₀ : σ} {s : Loop E C A M O σ} (h : Resting S Done s) (hs : Serial S d₀ s) :
    Serves S (Meddles S) d₀ s.books.taken s.books.answers s.books.data := by
  obtain ⟨stage, b⟩ := s
  rcases stage with _ | _ | _ | ⟨m, p⟩ | _ | _
  case some.work => exact h.2.elim
  all_goals exact hs

/-- Some number of steps of the loop leads to `P`. -/
def Leads (S : Service E A M O Ev σ C) (P : Loop E C A M O σ → Prop) (s : Loop E C A M O σ) : Prop := ∃ k, P ((advance S)^[k] s)

theorem leads_here {P : Loop E C A M O σ → Prop} {s : Loop E C A M O σ} (h : P s) : Leads S P s := ⟨0, h⟩

theorem leads_next {P : Loop E C A M O σ → Prop} {s : Loop E C A M O σ} (h : Leads S P (advance S s)) : Leads S P s :=
  h.imp' (· + 1) fun _ hk => hk

theorem Leads.trans {P Q : Loop E C A M O σ → Prop} {s : Loop E C A M O σ} (h : Leads S P s) (hPQ : ∀ s, P s → Leads S Q s) :
    Leads S Q s := by
  obtain ⟨k, hk⟩ := h
  obtain ⟨n, hn⟩ := hPQ _ hk
  exact ⟨n + k, by rwa [Function.iterate_add_apply]⟩

/-- A program ends, and the thread is back where messages are taken, of which there are no more than before. -/
theorem leads_take (hS : Draining S size Done) (m : M) (p : Prog E C A) (b : Books σ O M A) :
    Leads S (fun s => s.stage = some .take ∧ size s.books.out ≤ size b.out) ⟨some (.work m p), b⟩ := by
  induction p generalizing b with
  | ret a => exact ⟨2, rfl, Nat.le_trans (hS.mark_le ..) (hS.answer_le ..)⟩
  | raise e => exact ⟨1, rfl, Nat.le_refl _⟩
  | cmd c k ih =>
    obtain ⟨n, hstage, hsize⟩ := ih (Exec.exec c b.data).1 { b with data := (Exec.exec c b.data).2, out := S.touch c b.out }
    exact ⟨n + 1, hstage, Nat.le_trans hsize (hS.touch_le c _)⟩

/-- From where messages are taken the loop comes to rest. -/
theorem leads_resting_take (hS : Draining S size Done) (b : Books σ O M A) : Leads S (Resting S Done) ⟨some .take, b⟩ := by
  -- by induction on the number of messages: the loop is back here with fewer, after a program or through the lock
  induction hn : size b.out using Nat.strongRecOn generalizing b with
  | ind n ih =>
  subst hn
  refine leads_next ?_
  rcases ht : S.take b.out with ⟨_ | m, out⟩
  · simp only [advance, ht]
    by_cases hdone : Done out
    · exact leads_here ⟨hdone, trivial⟩
    have hlt : size out < size b.out := by
      have hdone' : ¬Done b.out := fun h => hdone (by simpa [ht] using hS.done_take h)
      simpa [ht] using hS.take_lt (.inl hdone')
    refine leads_next (leads_next (leads_next ?_))
    simpa [advance, hS.opened hdone] using ih _ hlt { b with out } rfl
  · have hlt : size out < size b.out := by
      simpa [ht] using hS.take_lt (o := b.out) (.inr (by simp [ht]))
    cases hm : S.handle m with
    | none => simpa [advance, ht, hm] using ih _ hlt { b with out, taken := b.taken ++ [m] } rfl
    | some p =>
      simp only [advance, ht, hm]
      refine (leads_take hS m p _).trans fun ⟨stage, b'⟩ ⟨hstage, hsize⟩ => ?_
      cases hstage
      exact ih _ (Nat.lt_of_le_of_lt hsize hlt) b' rfl

/-- From everywhere the loop comes to rest. -/
theorem leads_resting (hS : Draining S size Done) (s : Loop E C A M O σ) : Leads S (Resting S Done) s := by
  obtain ⟨stage, b⟩ := s
  have hlook : Leads S (Resting S Done) ⟨some .look, b⟩ := by
    by_cases hdone : Done b.out
    · exact leads_here ⟨hdone, trivial⟩
    · refine leads_next ?_
      simpa [advance, hS.opened hdone] using leads_resting_take hS b
  cases stage with
  | none => exact leads_next hlook
  | some st =>
  cases st with
  | look => exact hlook
  | take => exact leads_resting_take hS b
  | work m p =>
    refine (leads_take hS m p b).trans fun ⟨stage, b'⟩ ⟨hstage, _⟩ => ?_
    cases hstage
    exact leads_resting_take hS b'
  | mark m => exact leads_next (leads_resting_take hS _)
  | leave => exact leads_next (leads_next hlook)

theorem resting_advance (hS : Draining S size Done) {s : Loop E C A M O σ} (h : Resting S Done s) :
    Resting S Done (advance S s) := by
  obtain ⟨stage, b⟩ := s
  obtain ⟨hdone, h⟩ := h
  cases stage with
  | none => exact ⟨hdone, trivial⟩
  | some st =>
  cases st with
  | look =>
    cases ho : S.opened b.out with
    | false => simpa [advance, ho, Resting] using hdone
    | true => simpa [advance, ho, Resting] using And.intro hdone (hS.empty hdone ho)
  | take =>
    rcases ht : S.take b.out with ⟨_ | m, out⟩
    · simpa [advance, ht, Resting] using hS.done_take hdone
    · exact absurd h (by simp [ht])
  | work m p => exact h.elim
  | mark m => exact h.elim
  | leave => exact ⟨hdone, trivial⟩

end Rest

/-! ## The threads come to rest -/

section Rounds
variable [Exec C σ] [DecidableEq ι] {S : Service E A M O Ev σ C} {size : O → Nat} {Done : O → Prop}

/-- Some turns: either all of them wait for the lock, or the loop has moved. -/
theorem refines_turns {s : Threads ι E C A M O σ} {l : Loop E C A M O σ} (h : Refines s l) (r : List ι) :
    (r.foldl (fun s i => turn S i s) s = s ∧ ∀ i ∈ r, s.locked = true ∧ s.inside i = none) ∨
      ∃ n, Refines (r.foldl (fun s i => turn S i s) s) ((advance S)^[n + 1] l) := by
  induction r generalizing s l with
  | nil => exact .inl ⟨rfl, fun i hi => by cases hi⟩
  | cons i r ih =>
    rcases refines_turn S h i with ⟨hstay, hlocked, hnone⟩ | hgo
    · rw [List.foldl_cons, hstay]
      rcases ih h with ⟨hr, hall⟩ | hr
      · exact .inl ⟨hr, List.forall_mem_cons.2 ⟨⟨hlocked, hnone⟩, hall⟩⟩
      · exact .inr hr
    · rcases ih hgo with ⟨hr, -⟩ | ⟨n, hr⟩
      · refine .inr ⟨0, ?_⟩
        rw [List.foldl_cons, hr]
        exact hgo
      · exact .inr ⟨n + 1, hr⟩

/-- In a round in which everybody has a turn the loop moves. -/
theorem refines_round [Nonempty ι] {s : Threads ι E C A M O σ} {l : Loop E C A M O σ} (h : Refines s l) {r : List ι}
    (hr : ∀ i, i ∈ r) : ∃ n, Refines (r.foldl (fun s i => turn S i s) s) ((advance S)^[n + 1] l) := by
  refine (refines_turns h r).resolve_left fun ⟨_, hall⟩ => ?_
  cases h with
  | free b => simpa using hall (Classical.arbitrary ι) (hr _)
  | held i st b => simpa using hall i (hr i)

/-- After enough rounds in which everybody has a turn, and nobody else does anything, the threads are at rest. -/
theorem threads_rest [Nonempty ι] (hS : Draining S size Done) {s : Threads ι E C A M O σ} {l : Loop E C A M O σ}
    (h : Refines s l) :
    ∃ N, ∀ rounds : List (List ι), N ≤ rounds.length → (∀ r ∈ rounds, ∀ i, i ∈ r) →
      ∃ n, Refines (rounds.flatten.foldl (fun s i => turn S i s) s) ((advance S)^[n] l) ∧ Resting S Done ((advance S)^[n] l) := by
  have hrounds (rounds : List (List ι)) (hall : ∀ r ∈ rounds, ∀ i, i ∈ r) :
      ∃ n, rounds.length ≤ n ∧ Refines (rounds.flatten.foldl (fun s i => turn S i s) s) ((advance S)^[n] l) := by
    induction rounds generalizing s l with
    | nil => exact ⟨0, Nat.le_refl _, h⟩
    | cons r rounds ih =>
      obtain ⟨n, hn⟩ := refines_round h (hall r List.mem_cons_self)
      obtain ⟨n', hle, hn'⟩ := ih hn fun r hr => hall r (List.mem_cons_of_mem _ hr)
      refine ⟨n' + (n + 1), ?_, ?_⟩
      · rw [List.length_cons]
        omega
      · rw [List.flatten_cons, List.foldl_append, Function.iterate_add_apply]
        exact hn'
  obtain ⟨k, hk⟩ := leads_resting hS l
  refine ⟨k, fun rounds hle hall => ?_⟩
  obtain ⟨n, hn, href⟩ := hrounds rounds hall
  refine ⟨n, href, ?_⟩
  obtain ⟨d, rfl⟩ := Nat.exists_eq_add_of_le (Nat.le_trans hle hn)
  rw [Nat.add_comm, Function.iterate_add_apply]
  exact Function.Iterate.rec (Resting S Done) hk (fun _ h => resting_advance hS h) d

end Rounds

/-! ## Readers -/

/-- What a program answers whose commands find the stores one after another, as others have left them. `none` is that it has
not ended. -/
def along {S : Type} [Exec C S] : Prog E C A → List S → Option (Except E A)
  | .ret a, _ => some (.ok a)
  | .raise e, _ => some (.error e)
  | .cmd _ _, [] => none
  | .cmd c k, s :: ss => along (k (Exec.exec c s).1) ss

end Served
