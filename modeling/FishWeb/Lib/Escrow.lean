import FishWeb.Lib.Counters
import FishWeb.Lib.Pool
/-!
# Programs that check, then pay

Interleaved programs over a store of counters, each of which reads, compares and
then increments without looking back. From where a program only increments, the
increments to come are its `rest`: what it is committed to. The lower bound of a
counter survives an interleaving if every program commits while the counter
still covers what all of them are committed to take (`Backed`). A sum of counters
that each commitment leaves alone is the same once all programs have ended.
-/
open Counters

namespace Escrow

open Exec Note Pool

/-- How the counters of a store move: by the increments the commands note, and by nothing else. `blind` are the
commands whose answer a program may ignore, with an answer to go on with. -/
structure Ledger (C : Type → Type) (S K : Type) [DecidableEq K] [Exec C S] [Note C (K × Int)] where
  amounts : S → Table K
  blind : {β : Type} → C β → Option β
  amounts_exec : ∀ {β : Type} (c : C β) (s : S), amounts (exec c s).2 = incrAll (note c (exec c s).1) (amounts s)
  note_of_blind : ∀ {β : Type} {c : C β} {b : β}, blind c = some b → ∀ b', note c b' = (note c b : List (K × Int))

variable {E : Type} {C : Type → Type} {S K α β : Type} [DecidableEq K] [Exec C S] [Note C (K × Int)]

/-! ## What is committed -/

section Rest
variable (L : Ledger C S K)

/-- The increments to come: none as long as the program still reads. -/
def rest : Prog E C α → List (K × Int)
  | .ret _ => []
  | .raise _ => []
  | .cmd c k =>
    match L.blind c with
    | some b => note c b ++ rest (k b)
    | none => []

/-- What a program is committed to does not depend on the answers it gets from then on, and it is `ok`. Until then
the program changes no counter. -/
def Shape (ok : List (K × Int) → Prop) : Prog E C α → Prop
  | .ret _ => True
  | .raise _ => True
  | .cmd c k =>
    match L.blind c with
    | some b => ∀ b', rest L (k b') = rest L (k b) ∧ Shape ok (k b')
    | none => ∀ b, note c b = ([] : List (K × Int)) ∧ ok (rest L (k b)) ∧ Shape ok (k b)

@[simp] theorem rest_ret (a : α) : rest L (.ret a : Prog E C α) = [] := rfl

@[simp] theorem rest_raise (e : E) : rest L (.raise e : Prog E C α) = [] := rfl

variable {L}

theorem rest_read {c : C β} (h : L.blind c = none) (k : β → Prog E C α) : rest L (.cmd c k) = [] := by
  simp [rest, h]

theorem rest_blind {c : C β} {b : β} (h : L.blind c = some b) (k : β → Prog E C α) :
    rest L (.cmd c k) = note c b ++ rest L (k b) := by
  simp [rest, h]

theorem shape_read {ok : List (K × Int) → Prop} {c : C β} (h : L.blind c = none) {k : β → Prog E C α} :
    Shape L ok (.cmd c k) ↔ ∀ b, note c b = ([] : List (K × Int)) ∧ ok (rest L (k b)) ∧ Shape L ok (k b) := by
  simp [Shape, h]

theorem shape_blind {ok : List (K × Int) → Prop} {c : C β} {b : β} (h : L.blind c = some b) {k : β → Prog E C α} :
    Shape L ok (.cmd c k) ↔ ∀ b', rest L (k b') = rest L (k b) ∧ Shape L ok (k b') := by
  simp [Shape, h]

/-- The program is committed to `l`, whatever it is answered. -/
structure Commits (L : Ledger C S K) (ok : List (K × Int) → Prop) (l : List (K × Int)) (p : Prog E C α) : Prop where
  rest : rest L p = l
  shape : Shape L ok p

variable {ok : List (K × Int) → Prop}

theorem commits_ret (a : α) : Commits L ok [] (.ret a : Prog E C α) := ⟨rfl, trivial⟩

theorem commits_raise (e : E) : Commits L ok [] (.raise e : Prog E C α) := ⟨rfl, trivial⟩

theorem commits_blind {c : C β} {b : β} (hb : L.blind c = some b) {k : β → Prog E C α} {l : List (K × Int)}
    (h : ∀ b', Commits L ok l (k b')) : Commits L ok (note c b ++ l) (.cmd c k) := by
  refine ⟨?_, (shape_blind hb).2 fun b' => ⟨?_, (h b').shape⟩⟩
  · rw [rest_blind hb, (h b).rest]
  · rw [(h b').rest, (h b).rest]

theorem commits_read {c : C β} (hb : L.blind c = none) {k : β → Prog E C α} (hc : ∀ b, note c b = ([] : List (K × Int)))
    (h : ∀ b, ∃ l, ok l ∧ Commits L ok l (k b)) : Commits L ok [] (.cmd c k) := by
  refine ⟨rest_read hb k, (shape_read hb).2 fun b => ⟨hc b, ?_⟩⟩
  obtain ⟨l, hl, hk⟩ := h b
  rw [hk.rest]
  exact ⟨hl, hk.shape⟩

end Rest

/-- What a list of increments takes from `p`. -/
def debt (l : List (K × Int)) (p : K) : Int := (l.map fun e => if e.1 = p then max 0 (-e.2) else 0).sum

@[simp] theorem debt_nil (p : K) : debt [] p = 0 := rfl

@[simp] theorem debt_cons (e : K × Int) (l : List (K × Int)) (p : K) :
    debt (e :: l) p = (if e.1 = p then max 0 (-e.2) else 0) + debt l p := rfl

@[simp] theorem debt_append (l l' : List (K × Int)) (p : K) : debt (l ++ l') p = debt l p + debt l' p := by
  simp [debt]

theorem debt_nonneg (l : List (K × Int)) (p : K) : 0 ≤ debt l p := by
  induction l with
  | nil => exact Int.le_refl 0
  | cons e l ih =>
    rw [debt_cons]
    split <;> omega

theorem neg_debt_le_net (l : List (K × Int)) (p : K) : -debt l p ≤ net l p := by
  induction l with
  | nil => exact Int.le_refl 0
  | cons e l ih =>
    rw [debt_cons, net_cons]
    split <;> omega

theorem exists_of_debt_pos {l : List (K × Int)} {p : K} (h : 0 < debt l p) : ∃ e ∈ l, e.1 = p ∧ e.2 < 0 := by
  induction l with
  | nil => exact absurd h (Int.lt_irrefl 0)
  | cons e l ih =>
    by_cases he : e.1 = p ∧ e.2 < 0
    · exact ⟨e, by simp, he⟩
    · rw [debt_cons] at h
      have hzero : (if e.1 = p then max 0 (-e.2) else 0) = 0 := by
        split
        · next hp => have := mt (And.intro hp) he; omega
        · rfl
      rw [hzero, Int.zero_add] at h
      obtain ⟨e', hmem, he'⟩ := ih h
      exact ⟨e', by simp [hmem], he'⟩

section Pool
variable (L : Ledger C S K)

/-- What all programs together are committed to take from `p`. -/
def owing (progs : List (Prog E C α)) (p : K) : Int := (progs.map fun h => debt (rest L h) p).sum

/-- What all programs together are committed to add to `p`. -/
def pending (progs : List (Prog E C α)) (p : K) : Int := (progs.map fun h => net (rest L h) p).sum

def restAt (c : Conf (K × Int) E C S α) (i : Nat) : List (K × Int) :=
  match c.progs[i]? with
  | some h => rest L h
  | none => []

/-- A program commits to take from a counter only while the counter covers what all of them, itself
included, are then committed to take from it. -/
def Backed : Guard (K × Int) E C S α := fun c i _ c' =>
  restAt L c i = [] → ∀ e ∈ restAt L c' i, e.2 < 0 → owing L c'.progs e.1 ≤ val (L.amounts c.world.store) e.1

/-- The same of one counter: a program commits to take from `p` only while `p` covers it. -/
def BackedAt (p : K) : Guard (K × Int) E C S α := fun c i _ c' =>
  restAt L c i = [] → 0 < debt (restAt L c' i) p → owing L c'.progs p ≤ val (L.amounts c.world.store) p

instance (p : K) (c : Conf (K × Int) E C S α) (i : Nat) (evs : List (K × Int)) (c' : Conf (K × Int) E C S α) :
    Decidable (BackedAt L p c i evs c') :=
  inferInstanceAs (Decidable (restAt L c i = [] → 0 < debt (restAt L c' i) p →
    owing L c'.progs p ≤ val (L.amounts c.world.store) p))

instance (c : Conf (K × Int) E C S α) (i : Nat) (evs : List (K × Int)) (c' : Conf (K × Int) E C S α) :
    Decidable (Backed L c i evs c') :=
  inferInstanceAs (Decidable (restAt L c i = [] → ∀ e ∈ restAt L c' i, e.2 < 0 →
    owing L c'.progs e.1 ≤ val (L.amounts c.world.store) e.1))

end Pool

variable {L : Ledger C S K} {ok : List (K × Int) → Prop}

theorem owing_split (pre post : List (Prog E C α)) (h : Prog E C α) (p : K) :
    owing L (pre ++ h :: post) p = debt (rest L h) p + owing L (pre ++ post) p := by
  simp only [owing, List.map_append, List.map_cons, List.sum_append, List.sum_cons]
  omega

theorem pending_split (pre post : List (Prog E C α)) (h : Prog E C α) (p : K) :
    pending L (pre ++ h :: post) p = net (rest L h) p + pending L (pre ++ post) p := by
  simp only [pending, List.map_append, List.map_cons, List.sum_append, List.sum_cons]
  omega

theorem owing_nonneg (progs : List (Prog E C α)) (p : K) : 0 ≤ owing L progs p := by
  apply List.sum_nonneg
  intro x hx
  obtain ⟨h, -, rfl⟩ := List.mem_map.1 hx
  exact debt_nonneg ..

/-! ## One step -/

/-- What a step does: a program reads and may commit, or it makes the first of its increments. -/
inductive Moved (L : Ledger C S K) (ok : List (K × Int) → Prop) (c c' : Conf (K × Int) E C S α) (h h' : Prog E C α) : Prop
  | read (hr : rest L h = []) (ha : L.amounts c'.world.store = L.amounts c.world.store) (hok : ok (rest L h'))
  | paid (evs : List (K × Int)) (hr : rest L h = evs ++ rest L h')
      (ha : L.amounts c'.world.store = incrAll evs (L.amounts c.world.store))

theorem step_cases {G : Guard (K × Int) E C S α} {c c' : Conf (K × Int) E C S α} (hs : Step G c c')
    (hc : ∀ h ∈ c.progs, Shape L ok h) :
    ∃ pre h h' post evs, c.progs = pre ++ h :: post ∧ c'.progs = pre ++ h' :: post ∧ G c pre.length evs c' ∧
      Shape L ok h' ∧ Moved L ok c c' h h' := by
  obtain ⟨σ, pre, post, b, k, hg⟩ := hs
  have hb := hc (.cmd b k) (by simp)
  refine ⟨pre, .cmd b k, k (exec b σ.store).1, post, _, rfl, rfl, hg, ?_⟩
  cases hbl : L.blind b with
  | none =>
    obtain ⟨hnote, hok, hshape⟩ := (shape_read hbl).1 hb (exec b σ.store).1
    refine ⟨hshape, .read (rest_read hbl k) ?_ hok⟩
    rw [after_store, L.amounts_exec, hnote, incrAll_nil]
  | some a =>
    obtain ⟨hk, hshape⟩ := (shape_blind hbl).1 hb (exec b σ.store).1
    refine ⟨hshape, .paid (note b a) ?_ ?_⟩
    · rw [hk]
      exact rest_blind hbl k
    · rw [after_store, L.amounts_exec, L.note_of_blind hbl]

theorem forall_replace {P : Prog E C α → Prop} {pre post : List (Prog E C α)} {h h' : Prog E C α}
    (hP : ∀ x ∈ pre ++ h :: post, P x) (hh : P h') : ∀ x ∈ pre ++ h' :: post, P x := by
  simp only [List.forall_mem_append, List.forall_mem_cons] at hP ⊢
  exact ⟨hP.1, hh, hP.2.2⟩

theorem shape_step {G : Guard (K × Int) E C S α} {c c' : Conf (K × Int) E C S α} (hs : Step G c c')
    (hc : ∀ h ∈ c.progs, Shape L ok h) : ∀ h ∈ c'.progs, Shape L ok h := by
  obtain ⟨pre, h, h', post, -, hp, hp', -, hshape, -⟩ := step_cases hs hc
  rw [hp] at hc
  rw [hp']
  exact forall_replace hc hshape

/-! ## Bounds -/

theorem restAt_of_progs {c : Conf (K × Int) E C S α} {pre post : List (Prog E C α)} {h : Prog E C α}
    (hp : c.progs = pre ++ h :: post) : restAt L c pre.length = rest L h := by
  simp [restAt, hp]

theorem mem_restAt {c : Conf (K × Int) E C S α} {i : Nat} {e : K × Int} (he : e ∈ restAt L c i) :
    ∃ h ∈ c.progs, e ∈ rest L h := by
  unfold restAt at he
  split at he
  · next h hi => exact ⟨h, List.mem_of_getElem? hi, he⟩
  · exact absurd he (by simp)

theorem owing_none {progs : List (Prog E C α)} (h : ∀ x ∈ progs, rest L x = []) (p : K) : owing L progs p = 0 := by
  apply List.sum_eq_zero
  intro n hn
  obtain ⟨x, hx, rfl⟩ := List.mem_map.1 hn
  rw [h x hx, debt_nil]

/-- Who is backed at every counter is backed at each. -/
theorem Backed.backedAt {c c' : Conf (K × Int) E C S α} {i : Nat} {evs : List (K × Int)} (h : Backed L c i evs c') (p : K) :
    BackedAt L p c i evs c' := by
  intro hr hpos
  obtain ⟨e, he, rfl, hneg⟩ := exists_of_debt_pos hpos
  exact h hr e he hneg

theorem backed_step {c c' : Conf (K × Int) E C S α} {p : K} (hs : Step (BackedAt L p) c c')
    (hc : ∀ h ∈ c.progs, Shape L ok h) (hle : owing L c.progs p ≤ val (L.amounts c.world.store) p) :
    owing L c'.progs p ≤ val (L.amounts c'.world.store) p := by
  obtain ⟨pre, h, h', post, evs, hp, hp', hg, -, hm⟩ := step_cases hs hc
  cases hm with
  | read hr ha _ =>
    rw [ha]
    by_cases hpos : 0 < debt (rest L h') p
    · -- the step commits to take from `p`: the guard covers it
      unfold BackedAt at hg
      rw [restAt_of_progs hp, restAt_of_progs hp'] at hg
      exact hg hr hpos
    · rw [hp, owing_split, hr, debt_nil] at hle
      rw [hp', owing_split]
      omega
  | paid evs hr ha =>
    rw [hp, owing_split, hr, debt_append] at hle
    rw [hp', owing_split, ha, val_incrAll]
    have := neg_debt_le_net evs p
    omega

/-- Along every interleaving whose commitments are backed, a counter covers what is still to be taken from it. -/
theorem owing_le_val {c c' : Conf (K × Int) E C S α} {p : K} (hr : Reach (BackedAt L p) c c')
    (hc : ∀ h ∈ c.progs, Shape L ok h) (hle : owing L c.progs p ≤ val (L.amounts c.world.store) p) :
    owing L c'.progs p ≤ val (L.amounts c'.world.store) p :=
  (reach_inv (I := fun c => (∀ h ∈ c.progs, Shape L ok h) ∧ owing L c.progs p ≤ val (L.amounts c.world.store) p)
    (fun _ _ hs hi => ⟨shape_step hs hi.1, backed_step hs hi.1 hi.2⟩) hr ⟨hc, hle⟩).2

theorem backedAt_nonneg {c c' : Conf (K × Int) E C S α} {p : K} (hr : Reach (BackedAt L p) c c')
    (hc : ∀ h ∈ c.progs, Shape L ok h) (hfresh : ∀ h ∈ c.progs, rest L h = [])
    (hp : 0 ≤ val (L.amounts c.world.store) p) : 0 ≤ val (L.amounts c'.world.store) p := by
  have hle := owing_le_val hr hc (p := p) (by rwa [owing_none hfresh])
  have := owing_nonneg (L := L) c'.progs p
  omega

theorem backed_nonneg {c c' : Conf (K × Int) E C S α} {p : K} (hr : Reach (Backed L) c c')
    (hc : ∀ h ∈ c.progs, Shape L ok h) (hfresh : ∀ h ∈ c.progs, rest L h = [])
    (hp : 0 ≤ val (L.amounts c.world.store) p) : 0 ≤ val (L.amounts c'.world.store) p :=
  backedAt_nonneg (hr.guard_mono fun _ _ _ _ hg => hg.backedAt p) hc hfresh hp

/-! ## Sums -/

/-- The sum of the counters `ps`, together with what is committed. -/
def worth (L : Ledger C S K) (ps : List K) (c : Conf (K × Int) E C S α) : Int :=
  (ps.map fun p => val (L.amounts c.world.store) p + pending L c.progs p).sum

theorem worth_step {G : Guard (K × Int) E C S α} {c c' : Conf (K × Int) E C S α} {ps : List K} (hs : Step G c c')
    (hc : ∀ h ∈ c.progs, Shape L ok h) (hok : ∀ l, ok l → (ps.map (net l)).sum = 0) :
    worth L ps c' = worth L ps c := by
  obtain ⟨pre, h, h', post, -, hp, hp', -, -, hm⟩ := step_cases hs hc
  cases hm with
  | read hr ha hl =>
    have hzero := hok _ hl
    unfold worth
    calc (ps.map fun p => val (L.amounts c'.world.store) p + pending L c'.progs p).sum
        = (ps.map fun p => (val (L.amounts c.world.store) p + pending L c.progs p) + net (rest L h') p).sum := by
          congr 1
          apply List.map_congr_left
          intro p _
          rw [ha, hp, hp', pending_split, pending_split, hr, net_nil]
          omega
      _ = _ := by rw [List.sum_map_add, hzero, Int.add_zero]
  | paid evs hr ha =>
    unfold worth
    congr 1
    apply List.map_congr_left
    intro p _
    rw [ha, hp, hp', pending_split, pending_split, hr, net_append, val_incrAll]
    omega

theorem pending_none {progs : List (Prog E C α)} (h : ∀ x ∈ progs, rest L x = []) (p : K) : pending L progs p = 0 := by
  apply List.sum_eq_zero
  intro n hn
  obtain ⟨x, hx, rfl⟩ := List.mem_map.1 hn
  rw [h x hx, net_nil]

theorem worth_none {c : Conf (K × Int) E C S α} (h : ∀ x ∈ c.progs, rest L x = []) (ps : List K) :
    worth L ps c = (ps.map (val (L.amounts c.world.store))).sum := by
  unfold worth
  congr 1
  apply List.map_congr_left
  intro p _
  rw [pending_none h, Int.add_zero]

theorem rest_finished {c : Conf (K × Int) E C S α} (hf : Finished c) : ∀ x ∈ c.progs, rest L x = [] := by
  intro x hx
  rcases hf x hx with ⟨a, rfl⟩ | ⟨e, rfl⟩ <;> rfl

/-- Once all programs have ended, a sum that no commitment changes is what it was before they began. -/
theorem sum_finished {G : Guard (K × Int) E C S α} {c c' : Conf (K × Int) E C S α} {ps : List K} (hr : Reach G c c')
    (hc : ∀ h ∈ c.progs, Shape L ok h) (hok : ∀ l, ok l → (ps.map (net l)).sum = 0)
    (hfresh : ∀ h ∈ c.progs, rest L h = []) (hf : Finished c') :
    (ps.map (val (L.amounts c'.world.store))).sum = (ps.map (val (L.amounts c.world.store))).sum := by
  rw [← worth_none (rest_finished hf), ← worth_none hfresh]
  exact (reach_inv (I := fun x => (∀ h ∈ x.progs, Shape L ok h) ∧ worth L ps x = worth L ps c)
    (fun _ _ hs hi => ⟨shape_step hs hi.1, (worth_step hs hi.1 hok).trans hi.2⟩) hr ⟨hc, rfl⟩).2

/-! ## The bound is sharp -/

/-- What holds of every commitment, and of what is left of one, holds of every program's rest. -/
theorem rest_step {G : Guard (K × Int) E C S α} {P : List (K × Int) → Prop} (hok : ∀ l, ok l → P l)
    (hleft : ∀ l l', P (l ++ l') → P l') {c c' : Conf (K × Int) E C S α} (hs : Step G c c')
    (hc : ∀ h ∈ c.progs, Shape L ok h) (hP : ∀ h ∈ c.progs, P (rest L h)) : ∀ h ∈ c'.progs, P (rest L h) := by
  obtain ⟨pre, h, h', post, -, hp, hp', -, -, hm⟩ := step_cases hs hc
  rw [hp] at hP
  rw [hp']
  refine forall_replace hP ?_
  cases hm with
  | read _ _ hl => exact hok _ hl
  | paid evs hr _ =>
    apply hleft evs
    rw [← hr]
    exact hP h (by simp)

/-- A program that is committed can make all its increments before anybody else moves. -/
theorem drain (σ : World (K × Int) S) (pre post : List (Prog E C α)) {h : Prog E C α} (hs : Shape L ok h) :
    ∃ σ' h', Reach noGuard (Conf.mk σ (pre ++ h :: post)) ⟨σ', pre ++ h' :: post⟩ ∧ Shape L ok h' ∧ rest L h' = [] ∧
      L.amounts σ'.store = incrAll (rest L h) (L.amounts σ.store) := by
  induction h generalizing σ with
  | ret a => exact ⟨σ, _, .refl, hs, rfl, rfl⟩
  | raise e => exact ⟨σ, _, .refl, hs, rfl, rfl⟩
  | cmd c k ih =>
    cases hb : L.blind c with
    | none => exact ⟨σ, _, .refl, hs, rest_read hb k, by rw [rest_read hb, incrAll_nil]⟩
    | some b =>
      obtain ⟨hk, hshape⟩ := (shape_blind hb).1 hs (exec c σ.store).1
      obtain ⟨σ', h', hr, hs', hrest, ha⟩ := ih (exec c σ.store).1 (after pre.length c σ) hshape
      refine ⟨σ', h', .head (.mk σ pre post c k trivial) hr, hs', hrest, ?_⟩
      rw [ha, hk, rest_blind hb, incrAll_append, after_store, L.amounts_exec, L.note_of_blind hb]

/-- Increments of which none adds to a counter that another takes from. -/
def OneSided (l : List (K × Int)) : Prop := ∀ e ∈ l, ∀ e' ∈ l, e.1 = e'.1 → e.2 < 0 → e'.2 ≤ 0

omit [DecidableEq K] in
theorem OneSided.left {l l' : List (K × Int)} (h : OneSided (l ++ l')) : OneSided l' :=
  fun e he e' he' => h e (by simp [he]) e' (by simp [he'])

theorem OneSided.net_eq {l : List (K × Int)} (h : OneSided l) {p : K} (hpos : 0 < debt l p) : net l p = -debt l p := by
  obtain ⟨e, he, rfl, hneg⟩ := exists_of_debt_pos hpos
  have hle : ∀ e' ∈ l, e'.1 = e.1 → e'.2 ≤ 0 := fun e' he' heq => h e he e' he' heq.symm hneg
  clear h he hpos
  induction l with
  | nil => rfl
  | cons e' l ih =>
    rw [debt_cons, net_cons, ih fun x hx => hle x (by simp [hx])]
    split
    · next heq =>
      have := hle e' (by simp) heq
      omega
    · omega

/-- A counter that does not cover what is committed can be taken below zero. -/
theorem exists_overdrawn {c : Conf (K × Int) E C S α} {p : K} (hc : ∀ h ∈ c.progs, Shape L ok h)
    (hside : ∀ h ∈ c.progs, OneSided (rest L h)) (hlt : val (L.amounts c.world.store) p < owing L c.progs p) :
    ∃ c', Reach noGuard c c' ∧ val (L.amounts c'.world.store) p < 0 := by
  -- each program that takes from `p` makes its increments in turn
  induction hn : c.progs.countP fun h => 0 < debt (rest L h) p generalizing c with
  | zero =>
    refine ⟨c, .refl, ?_⟩
    have hzero : owing L c.progs p = 0 := by
      apply List.sum_eq_zero
      intro n hn'
      obtain ⟨h, hmem, rfl⟩ := List.mem_map.1 hn'
      have := List.countP_eq_zero.1 hn h hmem
      have := debt_nonneg (rest L h) p
      simp only [decide_eq_true_eq] at *
      omega
    rwa [hzero] at hlt
  | succ n ih =>
    obtain ⟨h, hmem, hpos⟩ := List.countP_pos_iff.1 (by omega : 0 < c.progs.countP fun h => 0 < debt (rest L h) p)
    simp only [decide_eq_true_eq] at hpos
    obtain ⟨σ, progs⟩ := c
    obtain ⟨pre, post, rfl⟩ := List.append_of_mem hmem
    obtain ⟨σ', h', hr, hshape, hrest, ha⟩ := drain σ pre post (hc h (by simp))
    have hnet := (hside h (by simp)).net_eq hpos
    have hc' : ∀ x ∈ pre ++ h' :: post, Shape L ok x := forall_replace hc hshape
    have hside' : ∀ x ∈ pre ++ h' :: post, OneSided (rest L x) := by
      apply forall_replace hside
      rw [hrest]
      exact fun e he => absurd he (by simp)
    have hlt' : val (L.amounts σ'.store) p < owing L (pre ++ h' :: post) p := by
      dsimp only at hlt
      rw [owing_split] at hlt
      rw [owing_split, hrest, debt_nil, ha, val_incrAll, hnet]
      omega
    have hn' : ((pre ++ h' :: post).countP fun x => 0 < debt (rest L x) p) = n := by
      rw [List.countP_append, List.countP_cons] at hn ⊢
      simp only [hrest, debt_nil, hpos, decide_true, if_true, Int.lt_irrefl, decide_false, Bool.false_eq_true, if_false] at hn ⊢
      omega
    obtain ⟨c', hr', hneg⟩ := ih (c := ⟨σ', pre ++ h' :: post⟩) hc' hside' hlt' hn'
    exact ⟨c', hr.trans hr', hneg⟩

/-- After a step that commits without backing, the counter it commits to take from can be taken below zero. -/
theorem unbacked_overdrawn {c : Conf (K × Int) E C S α} {i : Nat} (hc : ∀ h ∈ c.progs, Shape L ok h)
    (hok : ∀ l, ok l → OneSided l) (hside : ∀ h ∈ c.progs, OneSided (rest L h))
    (hback : ¬Backed L c i (nextNote i c) (turn i c)) :
    ∃ e ∈ restAt L (turn i c) i, e.2 < 0 ∧
      ∃ c', Reach noGuard (turn i c) c' ∧ val (L.amounts c'.world.store) e.1 < 0 := by
  unfold Backed at hback
  push Not at hback
  obtain ⟨hnil, e, he, hneg, hlt⟩ := hback
  rcases step_turn (G := fun _ j _ _ => j = i) (c := c) (i := i) rfl with heq | hs
  · rw [heq, hnil] at he
    exact absurd he (by simp)
  obtain ⟨pre, h, h', post, -, hp, hp', rfl, -, hm⟩ := step_cases hs hc
  rw [restAt_of_progs hp] at hnil
  cases hm with
  | read _ ha _ =>
    refine ⟨e, he, hneg, exists_overdrawn (shape_step hs hc) ?_ (by rwa [ha])⟩
    exact rest_step hok (fun _ _ => OneSided.left) hs hc hside
  | paid evs hr _ =>
    rw [restAt_of_progs hp'] at he
    rw [hr, List.append_eq_nil_iff] at hnil
    rw [hnil.2] at he
    exact absurd he (by simp)

end Escrow
