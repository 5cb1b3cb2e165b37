import Mathlib.Data.List.Perm.Basic
import Mathlib.Tactic.Common
/-!
# Random programs

A program with random choices reads numbers off a stream. A property that holds whatever
the stream is (`Always`) holds for every outcome of the choices. `e` is the exception of a
choice among nothing.
-/

namespace Dice

variable {E α β ι : Type}

/-- The numbers that `random` comes up with, in order. -/
abbrev Draws := Nat → Nat

/-- Programs that draw numbers and can raise. -/
abbrev Rand (E α : Type) := StateT Draws (Except E) α

/-- The element of a list that a number stands for. -/
def pick (n : Nat) (l : List α) : Option α := l[n % l.length]?

theorem pick_eq_none_iff {n : Nat} {l : List α} : pick n l = none ↔ l = [] := by
  rw [pick, List.getElem?_eq_none_iff, List.eq_nil_iff_length_eq_zero]
  refine ⟨fun h => ?_, fun h => by omega⟩
  by_contra hne
  exact absurd (Nat.mod_lt n (Nat.pos_of_ne_zero hne)) (Nat.not_lt.2 h)

theorem mem_of_pick {n : Nat} {l : List α} {a : α} (h : pick n l = some a) : a ∈ l := List.mem_of_getElem? h

/-- The next number. -/
def draw : Rand E Nat := fun σ => .ok (σ 0, fun n => σ (n + 1))

/-- `random.choice`. -/
def choice (e : E) (l : List α) : Rand E α := do
  match pick (← draw) l with
  | some a => return a
  | none => throw e

/-- `random.randint`, where `a ≤ b`. -/
def randint (a b : Nat) : Rand E Nat := do return a + (← draw) % (b - a + 1)

/-- `random.shuffle` of at most `len` elements: a first one, and the others shuffled. -/
def shuffleLen : (len : Nat) → List α → Rand E (List α)
  | 0, _ => return []
  | len + 1, l => do
    let n ← draw
    match l[n % l.length]? with
    | none => return []
    | some a => return a :: (← shuffleLen len (l.eraseIdx (n % l.length)))

/-- `random.shuffle`: every order of the list can come out. -/
def shuffle (l : List α) : Rand E (List α) := shuffleLen l.length l

/-- `random.sample`: the first `k` of a shuffled list. -/
def sample (e : E) (l : List α) (k : Nat) : Rand E (List α) :=
  if l.length < k then throw e else do return (← shuffle l).take k

/-- Whatever is drawn, the program returns and its result has the property. -/
def Always (Q : α → Prop) (p : Rand E α) : Prop := ∀ σ, ∃ a σ', p σ = .ok (a, σ') ∧ Q a

/-- What is chosen is one of the list. -/
theorem mem_of_choice {e : E} {l : List α} {σ σ' : Draws} {a : α} (h : choice e l σ = .ok (a, σ')) : a ∈ l := by
  change (match pick (σ 0) l with | some a => pure a | none => throw e : Rand E α) (fun n => σ (n + 1)) = _ at h
  cases hpick : pick (σ 0) l with
  | none =>
    rw [hpick] at h
    cases h
  | some b =>
    rw [hpick] at h
    cases h
    exact mem_of_pick hpick

section Always
variable {P : α → Prop} {Q : β → Prop}

theorem always_pure {a : α} (h : P a) : Always P (pure a : Rand E α) := fun σ => ⟨a, σ, rfl, h⟩

theorem always_draw : Always (fun _ => True) (draw : Rand E Nat) := fun σ => ⟨σ 0, fun n => σ (n + 1), rfl, trivial⟩

theorem always_bind {p : Rand E α} {f : α → Rand E β} (hp : Always P p) (hf : ∀ a, P a → Always Q (f a)) :
    Always Q (p >>= f) := by
  intro σ
  obtain ⟨a, σ', hrun, ha⟩ := hp σ
  obtain ⟨b, σ'', hrest, hb⟩ := hf a ha σ'
  refine ⟨b, σ'', ?_, hb⟩
  show (p σ >>= fun x => f x.1 x.2) = _
  rw [hrun]
  exact hrest

/-- A program that always returns has a first part that does. -/
theorem Always.of_bind {p : Rand E α} {f : α → Rand E β} (h : Always Q (p >>= f)) : Always (fun _ => True) p := by
  intro σ
  obtain ⟨b, σ', hrun, -⟩ := h σ
  cases hp : p σ with
  | error e =>
    have hbind : (p >>= f) σ = .error e := by
      show (p σ >>= fun x => f x.1 x.2) = _
      rw [hp]
      rfl
    rw [hbind] at hrun
    cases hrun
  | ok x => exact ⟨x.1, x.2, rfl, trivial⟩

theorem not_always_throw (e : E) : ¬Always P (throw e : Rand E α) := by
  intro h
  obtain ⟨a, σ', hrun, -⟩ := h fun n => n
  cases hrun

theorem Always.mono {P' : α → Prop} {p : Rand E α} (h : Always P p) (hP : ∀ a, P a → P' a) : Always P' p := fun σ =>
  (h σ).imp fun a => Exists.imp fun _ ⟨hrun, ha⟩ => ⟨hrun, hP a ha⟩

theorem always_choice (e : E) {l : List α} (hl : l ≠ []) : Always (· ∈ l) (choice e l) := by
  refine always_bind always_draw fun n _ => ?_
  cases hpick : pick n l with
  | none => exact absurd (pick_eq_none_iff.1 hpick) hl
  | some a => exact always_pure (mem_of_pick hpick)

theorem always_shuffle (l : List α) : Always (·.Perm l) (shuffle l : Rand E (List α)) := by
  have hlen : ∀ (len : Nat) (l : List α), l.length = len → Always (·.Perm l) (shuffleLen len l : Rand E (List α)) := by
    intro len
    induction len with
    | zero =>
      intro l hl
      rw [List.length_eq_zero_iff.1 hl]
      exact always_pure .nil
    | succ len ih =>
      intro l hl
      refine always_bind always_draw fun n _ => ?_
      have hlt : n % l.length < l.length := Nat.mod_lt n (by omega)
      rw [List.getElem?_eq_getElem hlt]
      refine always_bind (ih (l.eraseIdx (n % l.length)) (by rw [List.length_eraseIdx_of_lt hlt]; omega)) fun l' hl' => ?_
      exact always_pure ((hl'.cons _).trans (List.getElem_cons_eraseIdx_perm hlt))
  exact hlen l.length l rfl

/-- A sample of a list that is long enough: so many of its elements, at different places. -/
theorem always_sample (e : E) {l : List α} {k : Nat} (hk : k ≤ l.length) :
    Always (fun r => r.length = k ∧ r.Subperm l) (sample e l k) := by
  unfold sample
  rw [if_neg (Nat.not_lt.2 hk)]
  refine always_bind (always_shuffle l) fun l' hl' => always_pure ⟨?_, ?_⟩
  · rw [List.length_take, hl'.length_eq, Nat.min_eq_left hk]
  · exact (List.take_sublist k l').subperm.trans hl'.subperm

/-- A loop, with what holds after a part of its rounds. -/
theorem always_foldlM_prefix {I : List ι → α → Prop} {f : α → ι → Rand E α} {l : List ι}
    (h : ∀ done i rest, l = done ++ i :: rest → ∀ a, I done a → Always (I (done ++ [i])) (f a i)) {a : α} (ha : I [] a) :
    Always (I l) (l.foldlM f a) := by
  have hrest : ∀ rest done, l = done ++ rest → ∀ a, I done a → Always (I l) (rest.foldlM f a) := by
    intro rest
    induction rest with
    | nil => exact fun done hl a ha => always_pure (by rwa [hl, List.append_nil])
    | cons i rest ih =>
      intro done hl a ha
      rw [List.foldlM_cons]
      exact always_bind (h done i rest hl a ha) fun b hb => ih (done ++ [i]) (by rw [hl, List.append_assoc]; rfl) b hb
  exact hrest l [] rfl a ha

/-- What every round of a loop keeps, the loop keeps. -/
theorem always_foldlM {I : α → Prop} {f : α → ι → Rand E α} {l : List ι}
    (h : ∀ a, ∀ i ∈ l, I a → Always I (f a i)) {a : α} (ha : I a) : Always I (l.foldlM f a) :=
  always_foldlM_prefix (I := fun _ => I) (fun done i rest hl a =>
    h a i (by rw [hl]; exact List.mem_append_right done List.mem_cons_self)) ha

end Always

end Dice
