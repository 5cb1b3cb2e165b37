import FishWeb.Service.Answers
/-!
# Every request is answered

When nobody else does anything and the threads go on, the list of messages empties. If no
message closes the service, every message that was pushed has been taken by then, and each
that waited is answered if its handler returns.
-/
open Python Prog Served
open Function (update)

namespace FishWeb.Service

variable {C : Type → Type} {σ X ι : Type} [Exec C σ] [DecidableEq ι] {looks : Bool} {calls : Calls C} {rest : X → σ → σ}

/-! ## The list empties -/

/-- Nothing waits, or the service is closed. -/
def Done (looks : Bool) (k : Keys) : Prop := k.protocols = [] ∨ looks = true ∧ k.status = false

omit [Exec C σ] in
theorem draining (looks : Bool) (calls : Calls C) (rest : X → σ → σ) :
    Draining (service looks calls rest) (fun k => k.protocols.length) (Done looks) where
  take_lt := by
    rintro ⟨protocols, status, result, pushed⟩ h
    cases protocols with
    | nil => simp [Done, service, lpop] at h
    | cons m ms => exact Nat.lt_succ_self _
  touch_le _ c k := by
    rcases c with c | c
    · cases c with
      | deleteProtocols => exact Nat.zero_le _
      | deleteStatus => exact Nat.le_refl _
    · exact Nat.le_refl _
  answer_le _ _ _ := Nat.le_refl _
  mark_le _ _ := Nat.le_refl _
  done_take := by
    rintro ⟨protocols, status, result, pushed⟩ (h | h)
    · subst h
      exact .inl rfl
    · cases protocols <;> exact .inr h
  opened := by
    intro k h
    rw [Done, not_or, not_and] at h
    cases looks with
    | false => rfl
    | true => simpa [service] using h.2 rfl
  empty := by
    rintro ⟨protocols, status, result, pushed⟩ (h | ⟨hlooks, hstatus⟩) hopen
    · subst h
      rfl
    · subst hlooks hstatus
      cases hopen

/-! ## Messages that do not close -/

/-- A message that is not empty and does not close the service. -/
def Plain (m : String) : Prop := m ≠ "" ∧ ∀ args, split '|' (protoOf m) ≠ "close" :: args

/-- The commands of the handlers but the closing one. -/
def OnRest ⦃β : Type⦄ : Cmd C β → Prop
  | .keys _ => False
  | .rest _ => True

theorem only_protoCall {m : String} {p : Prog Err (Cmd C) String} (hm : Plain m) (hp : protoCall calls m = some p) : Only OnRest p := by
  unfold protoCall serviceProtoCalls at hp
  split at hp
  · cases hp
  next protoHead args hsplit =>
    have hhead : protoHead ≠ "close" := fun h => hm.2 args (h ▸ hsplit)
    rw [if_neg hhead, Option.map_map, Option.map_eq_some_iff] at hp
    obtain ⟨f, -, rfl⟩ := hp
    exact only_lift ((only_any _).mono fun _ _ _ => trivial)

/-- All that was pushed was taken or waits, and no handler touches the keys. -/
def Calm (l : Loop Err (Cmd C) String String Keys σ) : Prop :=
  (∀ m ∈ l.books.out.pushed, Plain m) → l.books.out.pushed = l.books.taken ++ l.books.out.protocols ∧
    ∀ m p, l.stage = some (.work m p) → Only OnRest p

theorem calm_advance {l : Loop Err (Cmd C) String String Keys σ} (h : Calm l) : Calm (advance (service looks calls rest) l) := by
  obtain ⟨stage, ⟨d, ⟨protocols, status, result, pushed⟩, taken, answers⟩⟩ := l
  cases stage with
  | none => exact fun hplain => ⟨(h hplain).1, fun m p hst => by cases hst⟩
  | some st =>
  cases st with
  | look =>
    refine fun hplain => ⟨(h hplain).1, fun m p hst => ?_⟩
    simp only [advance] at hst
    split at hst <;> cases hst
  | take =>
    cases protocols with
    | nil => exact fun hplain => ⟨(h hplain).1, fun m p hst => by cases hst⟩
    | cons m ms =>
      intro hplain
      by_cases hm : m = ""
      · subst hm
        have hpushed := (h (by simpa [advance, service, lpop] using hplain)).1
        have hmem : "" ∈ pushed := by
          rw [show pushed = taken ++ "" :: ms from hpushed]
          simp
        exact absurd rfl ((by simpa [advance, service, lpop] using hplain : ∀ m ∈ pushed, Plain m) "" hmem).1
      · have hplain : ∀ m ∈ pushed, Plain m := by simpa [advance, service, lpop, hm] using hplain
        have hpushed : pushed = taken ++ m :: ms := (h hplain).1
        refine ⟨by simpa [advance, service, lpop, hm] using hpushed, fun m' p hst => ?_⟩
        cases hp : protoCall calls m with
        | none => simp [advance, service, lpop, hm, hp] at hst
        | some p' =>
          have heq : m = m' ∧ p' = p := by simpa [advance, service, lpop, hm, hp] using hst
          exact heq.2 ▸ only_protoCall (hplain m (by rw [hpushed]; simp)) hp
  | work m p =>
    cases p with
    | ret a => exact fun hplain => ⟨(h hplain).1, fun m p hst => by cases hst⟩
    | raise e => exact fun hplain => ⟨(h hplain).1, fun m p hst => by cases hst⟩
    | cmd c k =>
      rcases c with c | c
      · intro hplain
        have hplain : ∀ m ∈ pushed, Plain m := by cases c <;> exact hplain
        exact ((h hplain).2 m _ rfl).1.elim
      · refine fun hplain => ⟨(h hplain).1, fun m' p' hst => ?_⟩
        cases hst
        exact ((h hplain).2 m _ rfl).2 _
  | mark m => exact fun hplain => ⟨(h hplain).1, fun m p hst => by cases hst⟩
  | leave => exact fun hplain => ⟨(h hplain).1, fun m p hst => by cases hst⟩

theorem calm_step {l : Loop Err (Cmd C) String String Keys σ} (h : Calm l) (e : Option (Ev X)) :
    Calm (loopStep (service looks calls rest) l e) := by
  cases e with
  | none => exact calm_advance h
  | some e =>
    cases e with
    | rpush m =>
      intro hplain
      obtain ⟨hpushed, hstage⟩ := h fun m' hm' => hplain m' (List.mem_append_left _ hm')
      refine ⟨?_, hstage⟩
      show l.books.out.pushed ++ [m] = l.books.taken ++ (l.books.out.protocols ++ [m])
      rw [hpushed, List.append_assoc]
    | _ => exact h

/-! ## Rounds in which nobody else does anything -/

/-- Since `b₀` nothing was pushed, the status is what it was, and what was answered is there. -/
structure Quiet (b₀ b : Book σ) : Prop where
  pushed : b.out.pushed = b₀.out.pushed
  status : (∀ m ∈ b₀.out.pushed, Plain m) → b.out.status = b₀.out.status
  fresh : ∃ new, b.answers = b₀.answers ++ new ∧
    ((b.answers.map fun x => uuidOf x.1).Nodup → ∀ x ∈ new, b.out.result (uuidOf x.1) = some x.2)

theorem quiet_refl (b : Book σ) : Quiet b b := ⟨rfl, fun _ => rfl, [], (List.append_nil _).symm, fun _ _ h => by cases h⟩

theorem quiet_answer {b₀ b : Book σ} (h : Quiet b₀ b) (m a : String) :
    Quiet b₀ { b with out := { b.out with result := update b.out.result (uuidOf m) (some a) }, answers := b.answers ++ [(m, a)] } := by
  obtain ⟨hpushed, hstatus, new, hanswers, hnew⟩ := h
  refine ⟨hpushed, hstatus, new ++ [(m, a)], by rw [hanswers, List.append_assoc], fun hnodup x hx => ?_⟩
  rw [List.map_append, List.nodup_append] at hnodup
  rcases List.mem_append.1 hx with hx | hx
  · have hne : uuidOf x.1 ≠ uuidOf m :=
      hnodup.2.2 _ (List.mem_map_of_mem (hanswers ▸ List.mem_append_right _ hx)) _ (by simp)
    dsimp only
    rw [Function.update_of_ne hne]
    exact hnew hnodup.1 x hx
  · rw [List.mem_singleton.1 hx]
    dsimp only
    rw [Function.update_self]

theorem quiet_advance {b₀ : Book σ} {l : Loop Err (Cmd C) String String Keys σ} (hcalm : Calm l) (h : Quiet b₀ l.books) :
    Quiet b₀ (advance (service looks calls rest) l).books := by
  obtain ⟨stage, b⟩ := l
  cases stage with
  | none => exact h
  | some st =>
  cases st with
  | look => exact h
  | take =>
    obtain ⟨d, ⟨protocols, status, result, pushed⟩, taken, answers⟩ := b
    cases protocols with
    | nil => exact h
    | cons m ms =>
      obtain ⟨hpushed, hstatus, hfresh⟩ := h
      by_cases hm : m = ""
      · simpa [advance, service, lpop, hm] using ⟨hpushed, hstatus, hfresh⟩
      · simpa [advance, service, lpop, hm] using ⟨hpushed, hstatus, hfresh⟩
  | work m p =>
    cases p with
    | ret a => exact quiet_answer h m a
    | raise e => exact h
    | cmd c k =>
      rcases c with c | c
      · obtain ⟨hpushed, hstatus, hfresh⟩ := h
        refine ⟨by cases c <;> exact hpushed, fun hplain => ?_, by cases c <;> exact hfresh⟩
        exact ((hcalm (hpushed.symm ▸ hplain)).2 m _ rfl).1.elim
      · exact ⟨h.pushed, h.status, h.fresh⟩
  | mark m => exact h
  | leave => exact h

section Answered
variable {protocols : List String} {status : Bool} {d : σ}

/-- At rest, quiet since `l`, each message has been taken, and each without an answer has been handled since. -/
theorem answered_at_rest {l l' : Loop Err (Cmd C) String String Keys σ} (hserial : Serial (service looks calls rest) d l')
    (hcalm : Calm l') (hquiet : Quiet l.books l'.books) (hrest : Resting (service looks calls rest) (Done looks) l')
    (hnodup : (l.books.out.pushed.map uuidOf).Nodup) (hplain : ∀ m ∈ l.books.out.pushed, Plain m)
    (hopen : looks = false ∨ l.books.out.status = true) :
    l'.books.out.protocols = [] ∧ l'.books.taken = l.books.out.pushed ∧
      ∀ m ∈ l.books.out.pushed, ∀ p, protoCall calls m = some p → (∀ a, (m, a) ∉ l.books.answers) →
        ∃ r, Handled looks calls rest d l'.books.taken m r ∧ ∀ text, r = .ok text → l'.books.out.result (uuidOf m) = some text := by
  have hlist : l'.books.out.protocols = [] := by
    refine hrest.1.resolve_right fun ⟨hlooks, hstatus⟩ => ?_
    rw [hquiet.status hplain] at hstatus
    rcases hopen with h | h
    · exact Bool.noConfusion (h.symm.trans hlooks)
    · exact Bool.noConfusion (h.symm.trans hstatus)
  have htaken : l'.books.taken = l.books.out.pushed := by
    have h := (hcalm (hquiet.pushed.symm ▸ hplain)).1
    rwa [hlist, List.append_nil, hquiet.pushed, eq_comm] at h
  have hserves := hrest.serves hserial
  have hnd : l'.books.taken.Nodup := by
    rw [htaken]
    exact List.Nodup.of_map _ hnodup
  refine ⟨hlist, htaken, fun m hm p hp hnone => ?_⟩
  have hmem : m ∈ l'.books.taken := by rwa [htaken]
  obtain ⟨pre, post, as, d₁, r, d₂, hsplit, has, hruns, hanswer⟩ := hserves.of_served _ hmem (by rw [service_handle, hp])
  refine ⟨r, ⟨pre, post, as, p, d₁, d₂, hsplit, ?_, hp, has, hruns⟩, fun text hr => ?_⟩
  · rw [hsplit] at hnd
    exact (List.nodup_middle.1 hnd).notMem
  · obtain ⟨new, hnew, hfresh⟩ := hquiet.fresh
    -- the uuids of the answers differ, for their messages are some of those that were pushed
    have hdiffer : (l'.books.answers.map fun x => uuidOf x.1).Nodup := by
      have hsub := (hserves.sublist.map uuidOf).nodup (by rwa [htaken])
      rwa [List.map_map] at hsub
    have hmem := hanswer text hr
    rw [hnew, List.mem_append] at hmem
    exact hfresh hdiffer (m, text) (hmem.resolve_left (hnone text))

/-- After enough rounds in which every thread has a turn, and nobody else does anything, each message has been taken, and
each that had no answer has been handled, and has one if its handler returned. -/
theorem all_answered [Nonempty ι] (ms : List (Move ι (Ev X)))
    (hnodup : ((reached looks calls rest protocols status d ms).books.out.pushed.map uuidOf).Nodup)
    (hplain : ∀ m ∈ (reached looks calls rest protocols status d ms).books.out.pushed, Plain m)
    (hopen : looks = false ∨ (reached looks calls rest protocols status d ms).books.out.status = true) :
    ∃ N, ∀ rounds : List (List ι), N ≤ rounds.length → (∀ r ∈ rounds, ∀ i, i ∈ r) →
      let s := reached looks calls rest protocols status d ms
      let s' := reached looks calls rest protocols status d (ms ++ rounds.flatten.map Move.turn)
      s'.books.out.protocols = [] ∧ s'.books.taken = s.books.out.pushed ∧
      ∀ m ∈ s.books.out.pushed, ∀ p, protoCall calls m = some p → (∀ a, (m, a) ∉ s.books.answers) →
        ∃ r, Handled looks calls rest d s'.books.taken m r ∧ ∀ text, r = .ok text → s'.books.out.result (uuidOf m) = some text := by
  obtain ⟨l, hr, hserial, hcalm⟩ := reached_loop looks calls rest protocols status d ms
    (I := fun l => Serial (service looks calls rest) d l ∧ Calm l)
    (fun l e h => ⟨serial_step _ h.1 e, calm_step h.2 e⟩) ⟨.start, fun _ => ⟨rfl, fun _ _ h => by cases h⟩⟩
  obtain ⟨N, hN⟩ := threads_rest (draining looks calls rest) hr
  refine ⟨N, fun rounds hle hall => ?_⟩
  obtain ⟨n, hr', hrest⟩ := hN rounds hle hall
  have hlater (n : Nat) : Serial (service looks calls rest) d ((advance (service looks calls rest))^[n] l) ∧
      Calm ((advance (service looks calls rest))^[n] l) ∧ Quiet l.books ((advance (service looks calls rest))^[n] l).books := by
    induction n with
    | zero => exact ⟨hserial, hcalm, quiet_refl l.books⟩
    | succ n ih =>
      rw [Function.iterate_succ_apply']
      exact ⟨serial_advance _ ih.1, calm_advance ih.2.1, quiet_advance ih.2.1 ih.2.2⟩
  have hs' : reached looks calls rest protocols status d (ms ++ rounds.flatten.map Move.turn) =
      rounds.flatten.foldl (fun s i => turn (service looks calls rest) i s) (reached looks calls rest protocols status d ms) := by
    rw [reached, List.foldl_append, List.foldl_map]
    rfl
  dsimp only
  rw [hr.books_eq] at hnodup hplain hopen ⊢
  rw [hs', hr'.books_eq]
  exact answered_at_rest (hlater n).1 (hlater n).2.1 (hlater n).2.2 hrest hnodup hplain hopen

end Answered

theorem all_answered_demo :
    ∃ N, ∀ rounds : List (List Bool), N ≤ rounds.length → (∀ r ∈ rounds, ∀ i, i ∈ r) →
      let s := demoReached (demoMoves.take 3)
      let s' := demoReached (demoMoves.take 3 ++ rounds.flatten.map Move.turn)
      s'.books.out.protocols = [] ∧ s'.books.taken = s.books.out.pushed ∧
      ∀ m ∈ s.books.out.pushed, ∀ p, protoCall demoCalls m = some p → (∀ a, (m, a) ∉ s.books.answers) →
        ∃ r, Handled false demoCalls demoRest demoStore s'.books.taken m r ∧
          ∀ text, r = .ok text → s'.books.out.result (uuidOf m) = some text :=
  @all_answered _ _ _ _ _ _ false demoCalls demoRest [] false demoStore _ (demoMoves.take 3) (by decide +kernel)
    (fun m hm => by
      have hpushed : (demoReached (demoMoves.take 3)).books.out.pushed = ["joinGoldRoom|a|1|555" ++ demoUuid] := rfl
      rw [hpushed] at hm
      obtain rfl := List.mem_singleton.1 hm
      refine ⟨by decide +kernel, fun args h => ?_⟩
      have hsplit : split '|' (protoOf ("joinGoldRoom|a|1|555" ++ demoUuid)) = ["joinGoldRoom", "a", "1", "555"] := by decide +kernel
      rw [hsplit] at h
      exact absurd (List.cons.inj h).1 (by decide))
    (.inl rfl)

end FishWeb.Service
