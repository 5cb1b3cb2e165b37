import FishWeb.Lib.Script
/-!
# Programs that know what they have done

A program is judged by its own events so far: `Meets` asks of each of its commands
a relation `R` between these events and what the command does, and of its result a
relation `Q` to all it has done. `R` keeps an invariant of the store, so interleaved
programs go on meeting what each of them meets.
-/

namespace Past

open Exec Note Pool Script

variable {E : Type} {C : Type → Type} {Ev S α β : Type} [Exec C S] [Note C Ev]

/-- What a command may do: the events before it, the store, its own events, and the store after it. -/
abbrev Rule (Ev S : Type) := List Ev → S → List Ev → S → Prop

/-- From the events `l`, every command the program issues obeys `R`, and what it returns is as `Q` says. -/
def Meets (I : S → Prop) (R : Rule Ev S) (Q : List Ev → α → Prop) : List Ev → Prog E C α → Prop
  | l, .ret a => Q l a
  | _, .raise _ => True
  | l, .cmd c k => ∀ s, I s → R l s (note c (exec c s).1) (exec c s).2 ∧
      Meets I R Q (l ++ note c (exec c s).1) (k (exec c s).1)

section Rules
variable {I : S → Prop} {R : Rule Ev S} {Q : List Ev → α → Prop} {l : List Ev}

theorem meets_bind {p : Prog E C β} {f : β → Prog E C α} {P : List Ev → β → Prop} (hp : Meets I R P l p)
    (hf : ∀ l b, P l b → Meets I R Q l (f b)) : Meets I R Q l (p >>= f) := by
  induction p generalizing l with
  | ret b => exact hf l b hp
  | raise e => trivial
  | cmd c k ih =>
    intro s hs
    obtain ⟨hR, hk⟩ := hp s hs
    exact ⟨hR, ih _ hk⟩

theorem Meets.mono {p : Prog E C α} {Q' : List Ev → α → Prop} (h : Meets I R Q l p) (hQ : ∀ l a, Q l a → Q' l a) :
    Meets I R Q' l p := by
  induction p generalizing l with
  | ret a => exact hQ l a h
  | raise e => trivial
  | cmd c k ih => exact fun s hs => ⟨(h s hs).1, ih _ (h s hs).2⟩

theorem Meets.rule_mono {R' : Rule Ev S} (hR : ∀ l s evs s', R l s evs s' → R' l s evs s') {p : Prog E C α}
    (h : Meets I R Q l p) : Meets I R' Q l p := by
  induction p generalizing l with
  | ret a => exact h
  | raise e => trivial
  | cmd c k ih => exact fun s hs => ⟨hR _ _ _ _ (h s hs).1, ih _ (h s hs).2⟩

/-- A command that shows nothing and obeys `R` after any events. -/
def Silent (I : S → Prop) (R : Rule Ev S) ⦃β : Type⦄ (c : C β) : Prop :=
  ∀ s, I s → (note c (exec c s).1 : List Ev) = [] ∧ ∀ l, R l s [] (exec c s).2

theorem meets_cmd {c : C β} {k : β → Prog E C α} (hc : Silent I R c) (hk : ∀ s, I s → Meets I R Q l (k (exec c s).1)) :
    Meets I R Q l (.cmd c k) := by
  intro s hs
  obtain ⟨hnote, hR⟩ := hc s hs
  rw [hnote, List.append_nil]
  exact ⟨hR l, hk s hs⟩

/-- A part whose commands show nothing. -/
theorem meets_skip {p : Prog E C β} {f : β → Prog E C α} (hp : Prog.Only (Silent I R) p) (hf : ∀ b, Meets I R Q l (f b)) :
    Meets I R Q l (p >>= f) := by
  induction p with
  | ret b => exact hf b
  | raise e => trivial
  | cmd c k ih => exact meets_cmd hp.1 fun s _ => ih _ (hp.2 _)

/-- A command that obeys `R` after any events. -/
def Free (I : S → Prop) (R : Rule Ev S) ⦃β : Type⦄ (c : C β) : Prop :=
  ∀ s, I s → ∀ l, R l s (note c (exec c s).1) (exec c s).2

/-- A part whose commands may come after any events. What is known of the events before it is known after it. -/
theorem meets_free {P : List Ev → Prop} (hP : ∀ l l', P l → P (l ++ l')) {V : β → Prop} {p : Prog E C β} {f : β → Prog E C α}
    (hp : Prog.Only (Free I R) p) (hV : Prog.Returns V p) (hl : P l) (hf : ∀ b l, V b → P l → Meets I R Q l (f b)) :
    Meets I R Q l (p >>= f) := by
  induction p generalizing l with
  | ret b => exact hf b l hV hl
  | raise e => trivial
  | cmd c k ih => exact fun s hs => ⟨hp.1 s hs l, ih _ (hp.2 _) (hV _) (hP l _ hl)⟩

/-- A program of such commands alone. -/
theorem meets_free_end {p : Prog E C α} (hp : Prog.Only (Free I R) p) (hQ : ∀ l a, Q l a) : Meets I R Q l p := by
  induction p generalizing l with
  | ret a => exact hQ l a
  | raise e => trivial
  | cmd c k ih => exact fun s hs => ⟨hp.1 s hs l, ih _ (hp.2 _)⟩

/-- A `try` around a program: every exception is as `Q` says. -/
theorem meets_attempt {p : Prog E C β} {Q : List Ev → Except E β → Prop} (hp : Meets I R (fun l b => Q l (.ok b)) l p)
    (herror : ∀ l e, Q l (.error e)) : Meets I R Q l p.attempt := by
  induction p generalizing l with
  | ret b => exact hp
  | raise e => exact herror l e
  | cmd c k ih =>
    intro s hs
    obtain ⟨hR, hk⟩ := hp s hs
    exact ⟨hR, ih _ hk⟩

theorem meets_orRaise {e : E} {o : Option β} {f : β → Prog E C α} (hf : ∀ b, o = some b → Meets I R Q l (f b)) :
    Meets I R Q l (Prog.orRaise e o >>= f) := by
  cases o with
  | none => trivial
  | some b => exact hf b rfl

theorem meets_ofExcept {x : Except E β} {f : β → Prog E C α} (hf : ∀ b, x = .ok b → Meets I R Q l (f b)) :
    Meets I R Q l (Prog.ofExcept x >>= f) := by
  cases x with
  | error e => trivial
  | ok b => exact hf b rfl

end Rules

/-! ## Interleavings -/

/-- Every program goes on meeting what it meets. -/
structure Known (I : S → Prop) (R : Rule Ev S) (Q : Nat → List Ev → α → Prop) (c : Conf Ev E C S α) : Prop where
  store : I c.world.store
  meets : ∀ i p, c.progs[i]? = some p → Meets I R (Q i) (eventsOf i c.world.log) p

section Run
variable {I : S → Prop} {R : Rule Ev S} {Q : Nat → List Ev → α → Prop} {G : Guard Ev E C S α} {c c' : Conf Ev E C S α}

theorem known_step (hI : ∀ l s evs s', I s → R l s evs s' → I s') (hs : Step G c c') (h : Known I R Q c) : Known I R Q c' := by
  obtain ⟨σ, pre, post, b, k, -⟩ := hs
  obtain ⟨hR, hk⟩ := h.meets pre.length (.cmd b k) (by simp) σ.store h.store
  refine ⟨hI _ _ _ _ h.store hR, ?_⟩
  intro i p hp
  rw [after_log]
  by_cases hi : i = pre.length
  · -- the program that moves
    subst hi
    obtain rfl : k (exec b σ.store).1 = p := by simpa using hp
    rw [eventsOf_same]
    exact hk
  · rw [eventsOf_other (Ne.symm hi)]
    apply h.meets i p
    rw [← hp]
    exact (getElem?_replace hi _ _).symm

theorem reach_known (hI : ∀ l s evs s', I s → R l s evs s' → I s') (hr : Reach G c c') (h : Known I R Q c) : Known I R Q c' :=
  reach_inv (fun _ _ hs => known_step hI hs) hr h

/-- Programs that have not begun. -/
theorem known_start {s : S} (hs : I s) {progs : List (Prog E C α)} (h : ∀ i p, progs[i]? = some p → Meets I R (Q i) [] p) :
    Known I R Q ⟨⟨s, []⟩, progs⟩ :=
  ⟨hs, h⟩

/-- What a program that has returned has done. -/
theorem Known.returned (h : Known I R Q c) {i : Nat} {a : α} (hi : c.progs[i]? = some (.ret a)) :
    Q i (eventsOf i c.world.log) a :=
  h.meets i _ hi

end Run

/-! ## A rule for each program -/

/-- Every program goes on meeting what it meets, by a rule of its own. -/
structure KnownEach (I : S → Prop) (R : Nat → Rule Ev S) (Q : Nat → List Ev → α → Prop) (c : Conf Ev E C S α) : Prop where
  store : I c.world.store
  meets : ∀ i p, c.progs[i]? = some p → Meets I (R i) (Q i) (eventsOf i c.world.log) p

section Each
variable {I : S → Prop} {R : Nat → Rule Ev S} {Q : Nat → List Ev → α → Prop} {G : Guard Ev E C S α} {c c' : Conf Ev E C S α}

/-- A step obeys the rule of the program that moves. `J` is what the rules and the guard keep of the world. -/
theorem each_step {J : World Ev S → Prop} (hI : ∀ i l s evs s', I s → R i l s evs s' → I s')
    (hJ : ∀ (σ : World Ev S) i evs s', I σ.store → R i (eventsOf i σ.log) σ.store evs s' → J σ → J ⟨s', σ.log ++ evs.map (i, ·)⟩)
    (hs : Step G c c') (h : KnownEach I R Q c ∧ J c.world) : KnownEach I R Q c' ∧ J c'.world := by
  obtain ⟨σ, pre, post, b, k, -⟩ := hs
  obtain ⟨hk, hj⟩ := h
  obtain ⟨hR, hnext⟩ := hk.meets pre.length (.cmd b k) (by simp) σ.store hk.store
  refine ⟨⟨hI _ _ _ _ _ hk.store hR, fun i p hp => ?_⟩, hJ σ _ _ _ hk.store hR hj⟩
  rw [after_log]
  by_cases hi : i = pre.length
  · -- the program that moves
    subst hi
    obtain rfl : k (exec b σ.store).1 = p := by simpa using hp
    rw [eventsOf_same]
    exact hnext
  · rw [eventsOf_other (Ne.symm hi)]
    apply hk.meets i p
    rw [← hp]
    exact (getElem?_replace hi _ _).symm

/-- What the rules keep of the world holds in every reachable configuration. -/
theorem reach_each {J : World Ev S → Prop} (hI : ∀ i l s evs s', I s → R i l s evs s' → I s')
    (hJ : ∀ (σ : World Ev S) i evs s', I σ.store → R i (eventsOf i σ.log) σ.store evs s' → J σ → J ⟨s', σ.log ++ evs.map (i, ·)⟩)
    (hr : Reach G c c') (hk : KnownEach I R Q c) (hj : J c.world) : J c'.world :=
  (reach_inv (I := fun c => KnownEach I R Q c ∧ J c.world) (fun _ _ hs => each_step hI hJ hs) hr ⟨hk, hj⟩).2

end Each

end Past
