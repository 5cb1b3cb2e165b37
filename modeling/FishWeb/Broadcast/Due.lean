import FishWeb.Broadcast.Player
/-!
# Broadcasts are shown when they are due

A round leaves exactly the broadcasts in the play set that have begun and are not over, and in
the other set those that are over, whatever rounds, posts, deletions and restarts there were.
So the hall shows what was due at the last round and has not been deleted since. The clock
does not go back. A broadcast that is deleted under the wrong name ends the player.
-/
open Python Prog Runs Shelves
open Function (update update_self update_of_ne)

namespace FishWeb.Broadcast.Player

open Undo (Info Key Store Form push_broacast do_deleteBroads broadcastInfo step_push step_push_nothing step_delete pushed removed nodup_pushed)

variable {τ : Type} [LinearOrder τ] {strptime : String → Option τ}

/-! ## The stages of a broadcast -/

section Stages
variable {t t' : τ} {d : τ × Option τ}

theorem begun_iff : stageOf t d ≠ .waiting ↔ d.1 ≤ t := by
  unfold stageOf
  by_cases hlt : t < d.1
  · rw [if_pos hlt]
    exact iff_of_false (fun h => h rfl) hlt.not_ge
  · rw [if_neg hlt]
    refine iff_of_true ?_ (not_lt.1 hlt)
    cases d.2 with
    | none => exact Stage.noConfusion
    | some e =>
      dsimp only
      split <;> exact Stage.noConfusion

theorem ended_iff : stageOf t d = .ended ↔ d.1 ≤ t ∧ ∃ e, d.2 = some e ∧ e ≤ t := by
  unfold stageOf
  by_cases hlt : t < d.1
  · rw [if_pos hlt]
    exact iff_of_false Stage.noConfusion fun h => hlt.not_ge h.1
  · rw [if_neg hlt, and_iff_right (not_lt.1 hlt)]
    cases d.2 with
    | none => simp
    | some e => by_cases he : e ≤ t <;> simp [he]

/-- Begun stays begun. -/
theorem begun_mono (hle : t ≤ t') (h : stageOf t d ≠ .waiting) : stageOf t' d ≠ .waiting :=
  begun_iff.2 ((begun_iff.1 h).trans hle)

/-- What is over stays over. -/
theorem ended_mono (hle : t ≤ t') (h : stageOf t d = .ended) : stageOf t' d = .ended := by
  obtain ⟨hstart, e, he, hend⟩ := ended_iff.1 h
  exact ended_iff.2 ⟨hstart.trans hle, e, he, hend.trans hle⟩

end Stages

/-! ## A round -/

section Round
variable (strptime) (nowDate : τ)

/-- The stage of a broadcast that the round looks at: it is not out, has a record and dates. -/
def looked (s : Store) (b : String) : Option Stage :=
  if s.outSet b then none else (s.info b).bind fun i => (dates strptime i).toOption.map (stageOf nowDate)

/-- The status that a round writes. -/
def written (s : Store) (b : String) : Option Int :=
  match looked strptime nowDate s b with
  | some .ended => some 2
  | some .playing => if s.playSet b then none else some 1
  | _ => none

/-- The store once a round has seen to the broadcasts of `bs`. -/
def played (s : Store) (bs : List String) : Store where
  list := s.list
  info b := (s.info b).map fun i => if b ∈ bs then { i with status := (written strptime nowDate s b).getD i.status } else i
  playSet b := if b ∈ bs then match looked strptime nowDate s b with
    | some .ended => false
    | some .playing => true
    | _ => s.playSet b
    else s.playSet b
  outSet b := if b ∈ bs ∧ looked strptime nowDate s b = some .ended then true else s.outSet b

variable {strptime nowDate} {s : Store}

theorem played_nil : played strptime nowDate s [] = s := by
  simp [played]

theorem store_ext {s₁ s₂ : Store} (hinfo : ∀ b, s₁.info b = s₂.info b) (hlist : s₁.list = s₂.list)
    (hout : ∀ b, s₁.outSet b = s₂.outSet b) (hplay : ∀ b, s₁.playSet b = s₂.playSet b) : s₁ = s₂ := by
  obtain ⟨info, list, outSet, playSet⟩ := s₁
  obtain rfl : info = _ := funext hinfo
  obtain rfl : list = _ := hlist
  obtain rfl : outSet = _ := funext hout
  obtain rfl : playSet = _ := funext hplay
  rfl

/-- A round goes on past a broadcast that is out, or has a record with dates that can be read. -/
def Fine (strptime : String → Option τ) (s : Store) (b : String) : Prop :=
  s.outSet b = true ∨ ∃ i d, s.info b = some i ∧ dates strptime i = .ok d

theorem looked_of_out {b : String} (h : s.outSet b = true) : looked strptime nowDate s b = none := if_pos h

theorem looked_of_dates {b : String} {i : Info} {d : τ × Option τ} (hout : s.outSet b = false) (hi : s.info b = some i)
    (hd : dates strptime i = .ok d) : looked strptime nowDate s b = some (stageOf nowDate d) := by
  rw [looked, hout, hi, Option.bind_some, hd]
  rfl

/-- The record that a round has got to may have a new status; its dates are as they were. -/
theorem played_info (bs : List String) {b : String} {i : Info} (hi : s.info b = some i) :
    ∃ n, (played strptime nowDate s bs).info b = some { i with status := n } := by
  by_cases hb : b ∈ bs
  · exact ⟨(written strptime nowDate s b).getD i.status, by simp [played, hi, hb]⟩
  · exact ⟨i.status, by simp [played, hi, hb]⟩

section Step
variable (bs : List String) {b : String} {i : Info}

/-- The others are as they were before `b`. -/
theorem played_other {x : String} (hx : x ≠ b) :
    (played strptime nowDate s (bs ++ [b])).info x = (played strptime nowDate s bs).info x ∧
      (played strptime nowDate s (bs ++ [b])).outSet x = (played strptime nowDate s bs).outSet x ∧
      (played strptime nowDate s (bs ++ [b])).playSet x = (played strptime nowDate s bs).playSet x := by
  simp [played, hx]

/-- Nothing happens to a broadcast that is out or waiting. -/
theorem played_same (h : looked strptime nowDate s b ≠ some .ended) (h' : looked strptime nowDate s b ≠ some .playing) :
    played strptime nowDate s (bs ++ [b]) = played strptime nowDate s bs := by
  have hwritten : written strptime nowDate s b = none := by
    unfold written
    split <;> simp_all
  refine store_ext (fun x => ?_) rfl (fun x => ?_) fun x => ?_ <;> by_cases hx : x = b
  · subst hx
    simp [played, hwritten]
  · exact (played_other bs hx).1
  · subst hx
    simp [played, h]
  · exact (played_other bs hx).2.1
  · subst hx
    simp only [played, List.mem_append, List.mem_singleton, or_true, ite_self]
  · exact (played_other bs hx).2.2

theorem played_ended (hl : looked strptime nowDate s b = some .ended) :
    played strptime nowDate s (bs ++ [b]) =
      { played strptime nowDate s bs with
        info := update (played strptime nowDate s bs).info b (((played strptime nowDate s bs).info b).map fun i => { i with status := 2 })
        playSet := update (played strptime nowDate s bs).playSet b false
        outSet := update (played strptime nowDate s bs).outSet b true } := by
  refine store_ext (fun x => ?_) rfl (fun x => ?_) fun x => ?_ <;> by_cases hx : x = b
  · subst hx
    dsimp only
    rw [update_self]
    cases hi : s.info x <;> by_cases hb : x ∈ bs <;> simp [played, written, hl, hi, hb]
  · exact (played_other bs hx).1.trans (update_of_ne hx ..).symm
  · subst hx
    dsimp only
    rw [update_self]
    simp [played, hl]
  · exact (played_other bs hx).2.1.trans (update_of_ne hx ..).symm
  · subst hx
    dsimp only
    rw [update_self]
    simp [played, hl]
  · exact (played_other bs hx).2.2.trans (update_of_ne hx ..).symm

theorem played_playing (hl : looked strptime nowDate s b = some .playing) :
    played strptime nowDate s (bs ++ [b]) = if s.playSet b then played strptime nowDate s bs else
      { played strptime nowDate s bs with
        info := update (played strptime nowDate s bs).info b (((played strptime nowDate s bs).info b).map fun i => { i with status := 1 })
        playSet := update (played strptime nowDate s bs).playSet b true } := by
  by_cases hp : s.playSet b = true
  · rw [if_pos hp]
    refine store_ext (fun x => ?_) rfl (fun x => ?_) fun x => ?_ <;> by_cases hx : x = b
    · subst hx
      cases hi : s.info x <;> by_cases hb : x ∈ bs <;> simp [played, written, hl, hi, hb, hp]
    · exact (played_other bs hx).1
    · subst hx
      simp [played, hl]
    · exact (played_other bs hx).2.1
    · subst hx
      simp [played, hl, hp]
    · exact (played_other bs hx).2.2
  · rw [if_neg hp]
    refine store_ext (fun x => ?_) rfl (fun x => ?_) fun x => ?_ <;> by_cases hx : x = b
    · subst hx
      dsimp only
      rw [update_self]
      cases hi : s.info x <;> by_cases hb : x ∈ bs <;> simp [played, written, hl, hi, hb, hp]
    · exact (played_other bs hx).1.trans (update_of_ne hx ..).symm
    · subst hx
      simp [played, hl]
    · exact (played_other bs hx).2.1
    · subst hx
      dsimp only
      rw [update_self]
      simp [played, hl]
    · exact (played_other bs hx).2.2.trans (update_of_ne hx ..).symm

theorem run_playOne (hfine : Fine strptime s b) :
    run (playOne strptime nowDate s.outSet s.playSet b) (played strptime nowDate s bs) = (.ok (), played strptime nowDate s (bs ++ [b])) := by
  unfold playOne
  cases hout : s.outSet b with
  | true =>
    have hl : looked strptime nowDate s b = none := looked_of_out hout
    rw [if_pos rfl, played_same bs (by simp [hl]) (by simp [hl])]
    rfl
  | false =>
    obtain ⟨i, d, hi, hd⟩ := hfine.resolve_left (by simp [hout])
    obtain ⟨n, hn⟩ := @played_info _ _ strptime nowDate s bs b i hi
    have hl := @looked_of_dates _ _ strptime nowDate s b i d hout hi hd
    have hdates : dates strptime { i with status := n } = .ok d := hd
    cases hst : stageOf nowDate d with
    | waiting =>
      rw [hst] at hl
      rw [played_same bs (by simp [hl]) (by simp [hl])]
      simp [call, Exec.exec, hn, hdates, hst]
    | playing =>
      rw [hst] at hl
      rw [played_playing bs hl]
      cases hp : s.playSet b <;> simp [call, Exec.exec, hn, hdates, hst]
    | ended =>
      rw [hst] at hl
      rw [played_ended bs hl]
      simp [call, Exec.exec, hn, hdates, hst]

/-- A broadcast that is not fine ends the round where it stands. -/
theorem run_playOne_raises (hfine : ¬Fine strptime s b) :
    ∃ e, run (playOne strptime nowDate s.outSet s.playSet b) (played strptime nowDate s bs) = (.error e, played strptime nowDate s bs) := by
  rw [Fine, not_or] at hfine
  unfold playOne
  rw [if_neg hfine.1]
  cases hi : s.info b with
  | none =>
    have hn : (played strptime nowDate s bs).info b = none := by simp [played, hi]
    exact ⟨.KeyError, by simp [call, Exec.exec, hn]⟩
  | some i =>
    obtain ⟨n, hn⟩ := @played_info _ _ strptime nowDate s bs b i hi
    have hdates : dates strptime { i with status := n } = dates strptime i := rfl
    cases hd : dates strptime i with
    | error e => exact ⟨e, by simp [call, Exec.exec, hn, hdates, hd]⟩
    | ok d => exact absurd ⟨i, d, hi, hd⟩ hfine.2

end Step

/-- The broadcasts that a round sees to. -/
abbrev listed (s : Store) : List String := s.list .hallList ++ s.list .fishList

theorem run_playAll {bs : List String} (hfine : ∀ b ∈ bs, Fine strptime s b) (before : List String) :
    run (forEach bs (playOne strptime nowDate s.outSet s.playSet)) (played strptime nowDate s before) =
      (.ok (), played strptime nowDate s (before ++ bs)) := by
  induction bs generalizing before with
  | nil => rw [List.append_nil]; rfl
  | cons b bs ih =>
    rw [forEach_cons, run_bind_ok (run_playOne before (hfine b List.mem_cons_self)), ih (fun x hx => hfine x (List.mem_cons_of_mem b hx)),
      List.append_assoc]
    rfl

/-- Or it has seen to some of them when it raises. -/
theorem run_playAll_raises {bs : List String} {x : String} (hx : x ∈ bs) (hfine : ¬Fine strptime s x) (before : List String) :
    ∃ e done, (∀ b ∈ done, b ∈ bs) ∧ run (forEach bs (playOne strptime nowDate s.outSet s.playSet)) (played strptime nowDate s before) =
      (.error e, played strptime nowDate s (before ++ done)) := by
  induction bs generalizing before with
  | nil => cases hx
  | cons b bs ih =>
    by_cases hb : Fine strptime s b
    · have hrest : x ∈ bs := (List.mem_cons.1 hx).resolve_left fun he => hfine (he ▸ hb)
      obtain ⟨e, done, hdone, hrun⟩ := ih hrest (before ++ [b])
      refine ⟨e, b :: done, fun y hy => ?_, ?_⟩
      · rcases List.mem_cons.1 hy with rfl | hy
        · exact List.mem_cons_self
        · exact List.mem_cons_of_mem b (hdone y hy)
      · rw [forEach_cons, run_bind_ok (run_playOne before hb), hrun, List.append_assoc]
        rfl
    · obtain ⟨e, hrun⟩ := @run_playOne_raises _ _ strptime nowDate s before b hb
      refine ⟨e, [], fun y hy => absurd hy List.not_mem_nil, ?_⟩
      rw [forEach_cons, run_bind_error hrun, List.append_nil]

theorem run_round (hfine : ∀ b ∈ listed s, Fine strptime s b) :
    run (round strptime nowDate) s = (.ok (), played strptime nowDate s (listed s)) := by
  have hall := @run_playAll _ _ strptime nowDate s _ hfine []
  rw [played_nil] at hall
  exact hall

theorem run_round_raises {x : String} (hx : x ∈ listed s) (hfine : ¬Fine strptime s x) :
    ∃ e done, (∀ b ∈ done, b ∈ listed s) ∧ run (round strptime nowDate) s = (.error e, played strptime nowDate s done) := by
  have hsome := @run_playAll_raises _ _ strptime nowDate s _ _ hx hfine []
  rw [played_nil] at hsome
  exact hsome

/-- A round goes through all broadcasts exactly when it can go past each. -/
theorem step_round {s : St τ} (hrunning : s.running = true) : ∃ done, (∀ b ∈ done, b ∈ listed s.store) ∧
    ((∀ b ∈ listed s.store, Fine strptime s.store b) → done = listed s.store ∧ (step strptime (.round nowDate) s).running = true) ∧
    (step strptime (.round nowDate) s).store = played strptime nowDate s.store done ∧
    (step strptime (.round nowDate) s).count = s.count ∧ (step strptime (.round nowDate) s).last = some nowDate := by
  unfold step
  dsimp only
  rw [if_pos hrunning]
  by_cases hfine : ∀ b ∈ listed s.store, Fine strptime s.store b
  · rw [run_round hfine]
    exact ⟨_, fun b hb => hb, fun _ => ⟨rfl, hrunning⟩, rfl, rfl, rfl⟩
  · obtain ⟨x, hx⟩ := not_forall.1 hfine
    obtain ⟨hlisted, hnot⟩ := Classical.not_imp.1 hx
    obtain ⟨e, done, hdone, hrun⟩ := @run_round_raises _ _ strptime nowDate s.store x hlisted hnot
    rw [hrun]
    exact ⟨done, hdone, fun h => absurd h hfine, rfl, rfl, rfl⟩

end Round

/-! ## What holds of a broadcast between the rounds -/

/-- What the dates of a broadcast said at the last round. -/
def seen (strptime : String → Option τ) (last : Option τ) (s : Store) (b : String) : Option Stage :=
  last.bind fun t => (s.info b).bind fun i => (dates strptime i).toOption.map (stageOf t)

/-- A broadcast with a record is on a list; what the player has done with it has been due. -/
structure Kept (strptime : String → Option τ) (last : Option τ) (s : Store) (b : String) : Prop where
  listed : ∀ i, s.info b = some i → b ∈ listed s
  begun : ∀ i, s.info b = some i → i.status ≠ 0 → ∃ st, seen strptime last s b = some st ∧ st ≠ .waiting
  play : s.playSet b = true → s.outSet b = false ∧ ∃ i, s.info b = some i ∧ i.status = 1
  out : s.outSet b = true → seen strptime last s b = some .ended ∧ ∃ i, s.info b = some i ∧ i.status = 2

section Kept
variable {last : Option τ} {s s' : Store} {b : String} {t : τ}

theorem seen_eq_some {st : Stage} (h : seen strptime last s b = some st) :
    ∃ t i d, last = some t ∧ s.info b = some i ∧ dates strptime i = .ok d ∧ stageOf t d = st := by
  unfold seen at h
  obtain ⟨t, ht, h⟩ := Option.bind_eq_some_iff.1 h
  obtain ⟨i, hi, h⟩ := Option.bind_eq_some_iff.1 h
  obtain ⟨d, hd, hst⟩ := Option.map_eq_some_iff.1 h
  refine ⟨t, i, d, ht, hi, ?_, hst⟩
  cases hdates : dates strptime i with
  | error e =>
    rw [hdates] at hd
    cases hd
  | ok d' =>
    rw [hdates] at hd
    exact congrArg _ (Option.some.inj hd)

theorem seen_of_dates {i : Info} {d : τ × Option τ} (hi : s.info b = some i) (hd : dates strptime i = .ok d) :
    seen strptime (some t) s b = some (stageOf t d) := by
  rw [seen, Option.bind_some, hi, Option.bind_some, hd]
  rfl

/-- What a round writes is no date. -/
theorem seen_played (bs : List String) : seen strptime last (played strptime t s bs) b = seen strptime last s b := by
  unfold seen
  cases hi : s.info b with
  | none =>
    have hnone : (played strptime t s bs).info b = none := by simp [played, hi]
    rw [hnone]
  | some i =>
    obtain ⟨n, hn⟩ := @played_info _ _ strptime t s bs b i hi
    rw [hn]
    rfl

theorem looked_eq (hout : s.outSet b = false) : looked strptime t s b = seen strptime (some t) s b := by
  rw [looked, hout]
  rfl

/-- As the clock goes on, what has begun has begun. -/
theorem seen_begun (hle : ∀ t₀, last = some t₀ → t₀ ≤ t) (h : ∃ st, seen strptime last s b = some st ∧ st ≠ .waiting) :
    ∃ st, seen strptime (some t) s b = some st ∧ st ≠ .waiting := by
  obtain ⟨st, hseen, hst⟩ := h
  obtain ⟨t₀, i, d, ht₀, hi, hd, rfl⟩ := seen_eq_some hseen
  exact ⟨_, seen_of_dates hi hd, begun_mono (hle t₀ ht₀) hst⟩

theorem seen_ended (hle : ∀ t₀, last = some t₀ → t₀ ≤ t) (h : seen strptime last s b = some .ended) :
    seen strptime (some t) s b = some .ended := by
  obtain ⟨t₀, i, d, ht₀, hi, hd, hst⟩ := seen_eq_some h
  rw [seen_of_dates hi hd, ended_mono (hle t₀ ht₀) hst]

/-- A broadcast that nothing happens to. -/
theorem Kept.same (h : Kept strptime last s b) (hinfo : s'.info b = s.info b) (hlist : b ∈ Player.listed s → b ∈ Player.listed s')
    (hplay : s'.playSet b = true → s.playSet b = true) (hout : s'.outSet b = s.outSet b) : Kept strptime last s' b := by
  have hseen : seen strptime last s' b = seen strptime last s b := by rw [seen, seen, hinfo]
  refine ⟨fun i hi => hlist (h.listed i (hinfo ▸ hi)), fun i hi hne => ?_, fun hp => ?_, fun ho => ?_⟩
  · rw [hseen]
    exact h.begun i (hinfo ▸ hi) hne
  · rw [hout, hinfo]
    exact h.play (hplay hp)
  · rw [hseen, hinfo]
    exact h.out (hout ▸ ho)

/-- A broadcast that there is not. -/
theorem kept_none (hinfo : s.info b = none) (hplay : s.playSet b = false) (hout : s.outSet b = false) : Kept strptime last s b := by
  refine ⟨fun i hi => ?_, fun i hi => ?_, fun hp => ?_, fun ho => ?_⟩
  · cases hinfo.symm.trans hi
  · cases hinfo.symm.trans hi
  · cases hplay.symm.trans hp
  · cases hout.symm.trans ho

/-- The clock goes on. -/
theorem Kept.later (h : Kept strptime last s b) (hle : ∀ t₀, last = some t₀ → t₀ ≤ t) : Kept strptime (some t) s b where
  listed := h.listed
  begun i hi hne := seen_begun hle (h.begun i hi hne)
  play := h.play
  out ho := ⟨seen_ended hle (h.out ho).1, (h.out ho).2⟩

variable {done : List String}

/-- A round comes past a broadcast with nothing to do. -/
theorem played_idle (h : looked strptime t s b ≠ some .ended) (h' : looked strptime t s b ≠ some .playing) :
    (played strptime t s done).info b = s.info b ∧ (played strptime t s done).playSet b = s.playSet b ∧
      (played strptime t s done).outSet b = s.outSet b := by
  have hwritten : written strptime t s b = none := by
    unfold written
    split <;> simp_all
  refine ⟨by simp [played, hwritten], ?_, by simp [played, h]⟩
  simp only [played, ite_self]

theorem played_ends (hb : b ∈ done) (h : looked strptime t s b = some .ended) :
    (played strptime t s done).info b = (s.info b).map (fun i => { i with status := 2 }) ∧
      (played strptime t s done).playSet b = false ∧ (played strptime t s done).outSet b = true := by
  simp [played, written, hb, h]

theorem played_plays (hb : b ∈ done) (h : looked strptime t s b = some .playing) :
    (played strptime t s done).info b = (s.info b).map (fun i => { i with status := if s.playSet b then i.status else 1 }) ∧
      (played strptime t s done).playSet b = true ∧ (played strptime t s done).outSet b = s.outSet b := by
  refine ⟨?_, by simp [played, hb, h], by simp [played, h]⟩
  cases hp : s.playSet b <;> simp [played, written, hb, h, hp]

theorem looked_seen {st : Stage} (h : looked strptime t s b = some st) : s.outSet b = false ∧ seen strptime (some t) s b = some st := by
  cases hout : s.outSet b with
  | true => cases (looked_of_out hout).symm.trans h
  | false => exact ⟨rfl, (looked_eq hout).symm.trans h⟩

theorem Kept.played (h : Kept strptime (some t) s b) : Kept strptime (some t) (played strptime t s done) b := by
  by_cases hb : b ∈ done
  · by_cases hends : looked strptime t s b = some .ended
    · obtain ⟨-, hseen⟩ := looked_seen hends
      obtain ⟨-, i, -, -, hi, -, -⟩ := seen_eq_some hseen
      obtain ⟨hinfo, hplay, hout⟩ := played_ends hb hends
      rw [hi] at hinfo
      refine ⟨fun _ _ => h.listed i hi, fun _ _ _ => ?_, fun hp => ?_, fun _ => ?_⟩
      · exact ⟨_, (seen_played done).trans hseen, Stage.noConfusion⟩
      · cases hplay.symm.trans hp
      · exact ⟨(seen_played done).trans hseen, _, hinfo, rfl⟩
    by_cases hplays : looked strptime t s b = some .playing
    · obtain ⟨hnot, hseen⟩ := looked_seen hplays
      obtain ⟨-, i, -, -, hi, -, -⟩ := seen_eq_some hseen
      obtain ⟨hinfo, hplay, hout⟩ := played_plays hb hplays
      rw [hi] at hinfo
      refine ⟨fun _ _ => h.listed i hi, fun _ _ _ => ?_, fun _ => ?_, fun ho => ?_⟩
      · exact ⟨_, (seen_played done).trans hseen, Stage.noConfusion⟩
      · refine ⟨hout.trans hnot, _, hinfo, ?_⟩
        cases hp : s.playSet b with
        | false => rfl
        | true =>
          obtain ⟨i', hi', hone⟩ := (h.play hp).2
          cases hi.symm.trans hi'
          exact hone
      · cases (hout.trans hnot).symm.trans ho
    · obtain ⟨hinfo, hplay, hout⟩ := @played_idle _ _ strptime s b t done hends hplays
      exact h.same hinfo id (fun hp => hplay ▸ hp) hout
  · refine h.same ?_ id ?_ ?_
    · simp [Player.played, hb]
    · simp [Player.played, hb]
    · simp [Player.played, hb]

/-- 0 waits, 1 is played, 2 is out. -/
def statusOf : Option Stage → Int
  | some .playing => 1
  | some .ended => 2
  | _ => 0

/-- What is due is done: the broadcast is in the sets and has the status of its stage. -/
structure AsDue (strptime : String → Option τ) (t : τ) (s : Store) (b : String) : Prop where
  play : s.playSet b = true ↔ seen strptime (some t) s b = some .playing
  out : s.outSet b = true ↔ seen strptime (some t) s b = some .ended
  status : ∀ i, s.info b = some i → i.status = statusOf (seen strptime (some t) s b)

/-- Nothing is done that is not due. -/
theorem Kept.asDue (h : Kept strptime (some t) s b) (hplays : seen strptime (some t) s b = some .playing → s.playSet b = true)
    (hends : seen strptime (some t) s b = some .ended → s.outSet b = true) : AsDue strptime t s b := by
  have hstatus : ∀ {i n}, (∃ i, s.info b = some i ∧ i.status = n) → s.info b = some i → i.status = n := by
    rintro i n ⟨i', hi', hn⟩ hi
    cases hi.symm.trans hi'
    exact hn
  refine ⟨⟨fun hp => ?_, hplays⟩, ⟨fun ho => (h.out ho).1, hends⟩, fun i hi => ?_⟩
  · obtain ⟨hnot, i, hi, hone⟩ := h.play hp
    obtain ⟨st, hseen, hst⟩ := h.begun i hi (by omega)
    cases st with
    | waiting => exact absurd rfl hst
    | playing => exact hseen
    | ended => cases hnot.symm.trans (hends hseen)
  · have hzero : (∀ st, seen strptime (some t) s b = some st → st = .waiting) → i.status = 0 := by
      intro hwaits
      by_contra hne
      obtain ⟨st, hseen, hst⟩ := h.begun i hi hne
      exact hst (hwaits st hseen)
    rcases hseen : seen strptime (some t) s b with _ | (_ | _ | _)
    · exact hzero (by simp [hseen])
    · exact hzero (by simp [hseen])
    · exact hstatus (h.play (hplays hseen)).2 hi
    · exact hstatus (h.out (hends hseen)).2 hi

/-- After a round that has seen to the broadcast. -/
theorem Kept.asDue_played (h : Kept strptime (some t) s b) (hb : b ∈ done) : AsDue strptime t (Player.played strptime t s done) b := by
  refine h.played.asDue (fun hseen => ?_) fun hseen => ?_
  · rw [seen_played] at hseen
    cases hout : s.outSet b with
    | false => exact (played_plays hb ((looked_eq hout).trans hseen)).2.1
    | true => cases hseen.symm.trans (h.out hout).1
  · rw [seen_played] at hseen
    cases hout : s.outSet b with
    | false => exact (played_ends hb ((looked_eq hout).trans hseen)).2.2
    | true => simp [Player.played, hout]

end Kept

/-! ## Runs -/

/-- The numbers above the counter are free. -/
def Numbered (s : St τ) : Prop := ∀ n, s.count < n → Undo.Fresh s.store (toString n)

/-- What holds between the requests. -/
structure Inv (strptime : String → Option τ) (s : St τ) : Prop where
  fresh : Numbered s
  kept : ∀ b, Kept strptime s.last s.store b

/-- The clock does not go back. -/
def OnTime : Req τ → St τ → Prop
  | .round nowDate, s => ∀ t, s.last = some t → t ≤ nowDate
  | _, _ => True

section Runs
variable {s : St τ}

omit [LinearOrder τ] in
theorem numbered_init : Numbered (St.init : St τ) := fun n _ => Undo.fresh_empty (toString n)

theorem inv_init : Inv strptime (St.init : St τ) := ⟨numbered_init, fun _ => kept_none rfl rfl rfl⟩

theorem Inv.not_played (h : Inv strptime s) {n : Nat} (hn : s.count < n) :
    s.store.playSet (toString n) = false ∧ s.store.outSet (toString n) = false := by
  have hinfo := (h.fresh n hn).info
  constructor
  · refine Bool.eq_false_iff.2 fun hp => ?_
    obtain ⟨-, i, hi, -⟩ := (h.kept _).play hp
    cases hinfo.symm.trans hi
  · refine Bool.eq_false_iff.2 fun ho => ?_
    obtain ⟨-, i, hi, -⟩ := (h.kept _).out ho
    cases hinfo.symm.trans hi

/-- A push puts the broadcast on one of the two lists of the rounds. -/
theorem listed_pushed {broad_type selfUid broad_belone : String} (h : pushed broad_type selfUid broad_belone ≠ []) :
    .hallList ∈ pushed broad_type selfUid broad_belone ∨ .fishList ∈ pushed broad_type selfUid broad_belone := by
  unfold pushed at h ⊢
  split at h
  · cases hint : int selfUid with
    | none =>
      rw [hint] at h
      exact absurd rfl h
    | some n =>
      rw [if_pos ‹_›]
      exact .inl (List.mem_append_right _ List.mem_cons_self)
  · rw [if_neg ‹_›]
    split at h
    · rw [if_pos ‹_›]
      exact .inr List.mem_cons_self
    · exact absurd rfl h

theorem mem_moves_on {b : String} (list : Key → List String) {keys : List Key} (hkeys : keys.Nodup) {key : Key} (hkey : key ∈ keys) :
    b ∈ moves b (keys.map (·, Move.on)) list key := by
  rw [moves_map_of_mem _ _ hkeys hkey]
  exact List.mem_cons_self

theorem step_post (form : Form) (selfUid broad_title : String) : step strptime (.post form selfUid broad_title) s =
    { s with
      store := Undo.step (.push (broadcastInfo form selfUid (toString (s.count + 1)) broad_title) form.broad_type selfUid form.broad_belone) s.store
      count := s.count + 1 } := rfl

theorem Numbered.post (h : Numbered s) (form : Form) (selfUid broad_title : String) :
    Numbered (step strptime (.post form selfUid broad_title) s) := by
  intro n hn
  have hn : s.count + 1 < n := hn
  have hold := h n (Nat.lt_of_succ_lt hn)
  rw [step_post]
  by_cases hnot : pushed form.broad_type selfUid form.broad_belone = []
  · rw [step_push_nothing hnot]
    exact hold
  · rw [step_push hnot]
    have hne : toString n ≠ toString (s.count + 1) := fun he => Nat.ne_of_gt hn (toString_injective he)
    exact ⟨fun key hkey => hold.list key ((mem_moves_other _ _ _ hne key).1 hkey), (update_of_ne hne ..).trans hold.info⟩

theorem Inv.post (h : Inv strptime s) (form : Form) (selfUid broad_title : String) :
    Inv strptime (step strptime (.post form selfUid broad_title) s) := by
  refine ⟨h.fresh.post form selfUid broad_title, fun b => ?_⟩
  rw [step_post]
  by_cases hnot : pushed form.broad_type selfUid form.broad_belone = []
  · rw [step_push_nothing hnot]
    exact h.kept b
  · rw [step_push hnot]
    by_cases hb : b = toString (s.count + 1)
    · -- the new broadcast waits for its first round
      subst hb
      obtain ⟨hplay, hout⟩ := h.not_played (Nat.lt_succ_self _)
      refine ⟨fun _ _ => ?_, fun i hi hne => ?_, fun hp => ?_, fun ho => ?_⟩
      · exact List.mem_append.2 ((listed_pushed hnot).imp (mem_moves_on _ nodup_pushed) (mem_moves_on _ nodup_pushed))
      · have hi : update s.store.info (toString (s.count + 1)) (some (broadcastInfo form selfUid (toString (s.count + 1)) broad_title))
            (toString (s.count + 1)) = some i := hi
        rw [update_self] at hi
        cases hi
        exact absurd rfl hne
      · cases hplay.symm.trans hp
      · cases hout.symm.trans ho
    · refine (h.kept b).same (update_of_ne hb ..) (fun hlisted => ?_) id rfl
      exact List.mem_append.2 ((List.mem_append.1 hlisted).imp (mem_moves_other _ _ _ hb _).2 (mem_moves_other _ _ _ hb _).2)

theorem mem_of_mem_moves_off {b : String} {keys : List Key} (hkeys : keys.Nodup) {list : Key → List String} {key : Key} {x : String}
    (hx : x ∈ moves b (keys.map (·, Move.off)) list key) : x ∈ list key := by
  by_cases hkey : key ∈ keys
  · rw [moves_map_of_mem _ _ hkeys hkey] at hx
    exact (List.mem_filter.1 hx).1
  · rwa [moves_map_of_not_mem _ _ hkey] at hx

section Delete
variable {t : Store} {broad_id : String} (broad_belone : String)

theorem delete_self : (Undo.step (.delete broad_id broad_belone) t).info broad_id = none ∧
    (Undo.step (.delete broad_id broad_belone) t).playSet broad_id = false ∧ (Undo.step (.delete broad_id broad_belone) t).outSet broad_id = false := by
  rw [step_delete]
  refine ⟨update_self .., ?_, ?_⟩
  · dsimp only
    split
    · exact update_self ..
    · exact Bool.eq_false_iff.2 ‹_›
  · dsimp only
    split
    · exact update_self ..
    · exact Bool.eq_false_iff.2 ‹_›

theorem delete_other {b : String} (hb : b ≠ broad_id) : (Undo.step (.delete broad_id broad_belone) t).info b = t.info b ∧
    (Undo.step (.delete broad_id broad_belone) t).playSet b = t.playSet b ∧
    (Undo.step (.delete broad_id broad_belone) t).outSet b = t.outSet b := by
  rw [step_delete]
  refine ⟨update_of_ne hb .., ?_, ?_⟩
  · dsimp only
    split
    · exact update_of_ne hb ..
    · rfl
  · dsimp only
    split
    · exact update_of_ne hb ..
    · rfl

end Delete

theorem Numbered.delete (h : Numbered s) (broad_id broad_belone : String) :
    Numbered (step strptime (.delete broad_id broad_belone) s) := by
  refine fun n hn => ⟨fun key hkey => ?_, ?_⟩
  · have hmem : toString n ∈ (Undo.step (.delete broad_id broad_belone) s.store).list key := hkey
    rw [step_delete] at hmem
    exact (h n hn).list key (mem_of_mem_moves_off Undo.nodup_removed hmem)
  · by_cases hself : toString n = broad_id
    · rw [hself]
      exact (delete_self broad_belone).1
    · exact (delete_other broad_belone hself).1.trans (h n hn).info

/-- The other broadcasts stay on their lists. -/
theorem mem_delete_other {t : Store} {broad_id b : String} (hb : b ≠ broad_id) (broad_belone : String) {key : Key} (hmem : b ∈ t.list key) :
    b ∈ (Undo.step (.delete broad_id broad_belone) t).list key := by
  rw [step_delete]
  exact (mem_moves_other _ _ _ hb key).2 hmem

theorem Inv.delete (h : Inv strptime s) (broad_id broad_belone : String) :
    Inv strptime (step strptime (.delete broad_id broad_belone) s) := by
  refine ⟨h.fresh.delete broad_id broad_belone, fun b => ?_⟩
  by_cases hb : b = broad_id
  · subst hb
    obtain ⟨hinfo, hplay, hout⟩ := @delete_self s.store b broad_belone
    exact kept_none hinfo hplay hout
  · obtain ⟨hinfo, hplay, hout⟩ := @delete_other s.store broad_id broad_belone b hb
    refine (h.kept b).same hinfo (fun hlisted => ?_) (fun hp => hplay ▸ hp) hout
    exact List.mem_append.2 ((List.mem_append.1 hlisted).imp (mem_delete_other hb broad_belone) (mem_delete_other hb broad_belone))

/-- Whatever the clock says, a round gives no number away. -/
theorem Numbered.round (h : Numbered s) (nowDate : τ) : Numbered (step strptime (.round nowDate) s) := by
  by_cases hrunning : s.running = true
  · obtain ⟨done, -, -, hstore, hcount, -⟩ := @step_round _ _ strptime nowDate s hrunning
    intro n hn
    rw [hcount] at hn
    obtain ⟨hlist, hinfo⟩ := h n hn
    rw [hstore]
    exact ⟨hlist, Option.map_eq_none_iff.2 hinfo⟩
  · have hstay : step strptime (.round nowDate) s = s := if_neg hrunning
    rw [hstay]
    exact h

theorem Inv.round (h : Inv strptime s) {nowDate : τ} (hclock : ∀ t, s.last = some t → t ≤ nowDate) :
    Inv strptime (step strptime (.round nowDate) s) := by
  refine ⟨h.fresh.round nowDate, fun b => ?_⟩
  by_cases hrunning : s.running = true
  · obtain ⟨done, -, -, hstore, -, hlast⟩ := @step_round _ _ strptime nowDate s hrunning
    rw [hstore, hlast]
    exact ((h.kept b).later hclock).played
  · have hstay : step strptime (.round nowDate) s = s := if_neg hrunning
    rw [hstay]
    exact h.kept b

/-- The restart clears, no more. -/
theorem run_clear (s : Store) : ∃ play : String → Bool, (run do_clearContainBrocast s).2 = { s with playSet := play } ∧
    ∀ b, play b = true → s.playSet b = true := by
  let Clears (s' : Store) : Prop := ∃ play : String → Bool, s' = { s with playSet := play } ∧ ∀ b, play b = true → s.playSet b = true
  let Reads : ⦃β : Type⦄ → Cmd β → Prop := fun _ c => match c with
    | .lrange _ | .smembersPlay | .sremPlay _ => True
    | _ => False
  have honly : Only Reads do_clearContainBrocast := by
    unfold do_clearContainBrocast
    refine ⟨trivial, fun _ => ⟨trivial, fun _ => ⟨trivial, fun _ => ⟨trivial, fun play_set => ?_⟩⟩⟩⟩
    refine only_forEach (P := Reads) fun bro _ => ?_
    split
    · exact ⟨trivial, fun _ => trivial⟩
    · trivial
  refine honly.run_inv (I := Clears) ?_ ⟨s.playSet, rfl, fun _ hp => hp⟩
  rintro β c _ hc ⟨play, rfl, hplay⟩
  cases c with
  | lrange key => exact ⟨play, rfl, hplay⟩
  | smembersPlay => exact ⟨play, rfl, hplay⟩
  | sremPlay id =>
    refine ⟨update play id false, rfl, fun b hb => ?_⟩
    by_cases hself : b = id
    · rw [hself, update_self] at hb
      cases hb
    · rw [update_of_ne hself] at hb
      exact hplay b hb
  | smembersOut => exact hc.elim
  | hgetall => exact hc.elim
  | hsetStatus => exact hc.elim
  | saddPlay => exact hc.elim
  | saddOut => exact hc.elim

theorem step_restart : ∃ play : String → Bool,
    step strptime .restart s = { s with store := { s.store with playSet := play }, running := true } ∧
      ∀ b, play b = true → s.store.playSet b = true := by
  obtain ⟨play, hstore, hplay⟩ := run_clear s.store
  refine ⟨play, ?_, hplay⟩
  rw [step, hstore]

theorem Numbered.restart (h : Numbered s) : Numbered (step strptime .restart s) := by
  obtain ⟨play, hstep, -⟩ := @step_restart _ _ strptime s
  rw [hstep]
  exact fun n hn => ⟨(h n hn).list, (h n hn).info⟩

theorem Inv.restart (h : Inv strptime s) : Inv strptime (step strptime .restart s) := by
  refine ⟨h.fresh.restart, ?_⟩
  obtain ⟨play, hstep, hplay⟩ := @step_restart _ _ strptime s
  rw [hstep]
  exact fun b => (h.kept b).same rfl id (hplay b) rfl

theorem Numbered.step (r : Req τ) (s : St τ) (h : Numbered s) : Numbered (step strptime r s) := by
  cases r with
  | post form selfUid broad_title => exact h.post form selfUid broad_title
  | delete broad_id broad_belone => exact h.delete broad_id broad_belone
  | round nowDate => exact h.round nowDate
  | restart => exact h.restart

theorem Inv.step (r : Req τ) (s : St τ) (hr : OnTime r s) (h : Inv strptime s) : Inv strptime (step strptime r s) := by
  cases r with
  | post form selfUid broad_title => exact h.post form selfUid broad_title
  | delete broad_id broad_belone => exact h.delete broad_id broad_belone
  | round nowDate => exact h.round hr
  | restart => exact h.restart

end Runs

/-! ## What the hall shows -/

section Hall
variable {s : Store}

def detailOf (s : Store) (b : String) : Option Detail := (s.info b).map fun i => ⟨i.content, i.per_sec⟩

/-- All broadcasts of type 1 that meet `due`, and the first of the others of which there is to be one. -/
def shown (due : String → Bool) (s : Store) (group_id : String) (broad_table : BroadTable) (broad_belone : String) : List Detail :=
  let one := s.list (broad_table "0") ++
    if broad_belone = "HALL" then s.list (.hallContainAgList "2" group_id) ++ s.list (.hallContainAgList "3" group_id) else []
  ((s.list (broad_table "1")).filter due ++ (one.find? due).toList).filterMap (detailOf s)

theorem run_detail {b : String} (h : (s.info b).isSome) : ∃ d, detailOf s b = some d ∧ run (detail b) s = (.ok d, s) := by
  obtain ⟨i, hi⟩ := Option.isSome_iff_exists.1 h
  refine ⟨⟨i.content, i.per_sec⟩, by rw [detailOf, hi]; rfl, ?_⟩
  simp [detail, Exec.exec, hi]

theorem run_details {bs : List String} (h : ∀ b ∈ bs, (s.info b).isSome) : run (collect bs detail) s = (.ok (bs.filterMap (detailOf s)), s) := by
  induction bs with
  | nil => rfl
  | cons b bs ih =>
    obtain ⟨d, hd, hrun⟩ := run_detail (h b List.mem_cons_self)
    rw [collect_cons, run_bind_ok hrun, run_bind_ok (ih fun x hx => h x (List.mem_cons_of_mem b hx)), List.filterMap_cons_some hd]
    rfl

variable (hrecord : ∀ b, s.playSet b = true → (s.info b).isSome)
include hrecord

theorem run_firstOf (bs : List String) : run (firstOf s.playSet bs) s = (.ok ((bs.find? s.playSet).bind (detailOf s)), s) := by
  unfold firstOf
  cases hfind : bs.find? s.playSet with
  | none => rfl
  | some b =>
    obtain ⟨d, hd, hrun⟩ := run_detail (hrecord b (List.find?_some hfind))
    rw [Option.bind_some, hd]
    exact run_bind_ok hrun

theorem run_getHallBroadInfo (group_id : String) (broad_table : BroadTable) (broad_belone : String) :
    run (getHallBroadInfo group_id broad_table broad_belone) s = (.ok (shown s.playSet s group_id broad_table broad_belone), s) := by
  have hall := @run_details s ((s.list (broad_table "1")).filter s.playSet) fun b hb => hrecord b (List.mem_filter.1 hb).2
  have hone : ∀ {bs : List String} {b : String}, bs.find? s.playSet = some b → ∃ d, detailOf s b = some d := fun hb =>
    (run_detail (hrecord _ (List.find?_some hb))).imp fun _ h => h.1
  unfold getHallBroadInfo shown
  rw [call_bind, run_step, call_bind, run_step]
  refine (run_bind_ok hall).trans ?_
  rw [call_bind, run_step]
  refine (run_bind_ok (run_firstOf hrecord _)).trans ?_
  rw [List.filterMap_append, List.find?_append]
  cases hzero : (s.list (broad_table "0")).find? s.playSet with
  | some b =>
    obtain ⟨d, hd⟩ := hone hzero
    simp [hd]
  | none =>
    rw [Option.none_or]
    by_cases hhall : broad_belone = "HALL"
    · rw [if_pos hhall, if_pos hhall, List.find?_append]
      refine (run_bind_ok (run_firstOf hrecord _)).trans ?_
      dsimp only [Exec.exec]
      cases htwo : (s.list (.hallContainAgList "2" group_id)).find? s.playSet with
      | some b =>
        obtain ⟨d, hd⟩ := hone htwo
        simp [hd]
      | none =>
        refine (run_bind_ok (run_firstOf hrecord _)).trans ?_
        dsimp only [Exec.exec]
        cases hthree : (s.list (.hallContainAgList "3" group_id)).find? s.playSet with
        | some b =>
          obtain ⟨d, hd⟩ := hone hthree
          simp [hd]
        | none => simp
    · simp [hhall]

end Hall

/-! ## As due -/

/-- A broadcast that the dates called for at `nowDate`, and that has a record still. -/
def due (strptime : String → Option τ) (nowDate : τ) (before s : Store) (b : String) : Bool :=
  decide (seen strptime (some nowDate) before b = some .playing) && (s.info b).isSome

/-- The requests of the backstage. -/
def Req.posts : Req τ → Bool
  | .post .. | .delete .. => true
  | .round _ | .restart => false

/-- A broadcast plays on, with its record, until it is deleted. -/
structure Stays (s₁ s : Store) (b : String) : Prop where
  play : s.playSet b = true ↔ s₁.playSet b = true ∧ (s.info b).isSome = true
  info : ∀ i, s₁.info b = some i → s.info b = some i ∨ s.info b = none

/-- Broadcasts come and go between two rounds. -/
structure Since (strptime : String → Option τ) (s₁ s : St τ) : Prop where
  inv : Inv strptime s
  count : s₁.count ≤ s.count
  running : s.running = s₁.running
  stays : ∀ b, Stays s₁.store s.store b

section Since

theorem Stays.same {s₁ s s' : Store} {b : String} (h : Stays s₁ s b) (hinfo : s'.info b = s.info b) (hplay : s'.playSet b = s.playSet b) :
    Stays s₁ s' b :=
  ⟨by rw [hinfo, hplay, h.play], by rw [hinfo]; exact h.info⟩

variable {s₁ s : St τ}

theorem since_refl (h : Inv strptime s) : Since strptime s s := by
  refine ⟨h, Nat.le_refl _, rfl, fun b => ⟨⟨fun hp => ⟨hp, ?_⟩, And.left⟩, fun _ => .inl⟩⟩
  obtain ⟨-, i, hi, -⟩ := (h.kept b).play hp
  exact Option.isSome_iff_exists.2 ⟨i, hi⟩

theorem Since.post (h₁ : Inv strptime s₁) (h : Since strptime s₁ s) (form : Form) (selfUid broad_title : String) :
    Since strptime s₁ (step strptime (.post form selfUid broad_title) s) := by
  have hlt : s₁.count < s.count + 1 := Nat.lt_succ_of_le h.count
  refine ⟨h.inv.post form selfUid broad_title, Nat.le_succ_of_le h.count, h.running, fun b => ?_⟩
  rw [step_post]
  by_cases hnot : pushed form.broad_type selfUid form.broad_belone = []
  · rw [step_push_nothing hnot]
    exact h.stays b
  · rw [step_push hnot]
    by_cases hb : b = toString (s.count + 1)
    · subst hb
      refine ⟨iff_of_false ?_ fun hp => ?_, fun i hi => ?_⟩
      · exact Bool.eq_false_iff.1 (h.inv.not_played (Nat.lt_succ_self _)).1
      · exact Bool.eq_false_iff.1 (h₁.not_played hlt).1 hp.1
      · cases (h₁.fresh _ hlt).info.symm.trans hi
    · exact (h.stays b).same (update_of_ne hb ..) rfl

theorem Since.delete (h : Since strptime s₁ s) (broad_id broad_belone : String) :
    Since strptime s₁ (step strptime (.delete broad_id broad_belone) s) := by
  refine ⟨h.inv.delete broad_id broad_belone, h.count, h.running, fun b => ?_⟩
  by_cases hb : b = broad_id
  · subst hb
    obtain ⟨hinfo, hplay, -⟩ := @delete_self s.store b broad_belone
    refine ⟨iff_of_false (Bool.eq_false_iff.1 hplay) fun hp => ?_, fun _ _ => .inr hinfo⟩
    have hsome := hp.2
    rw [show (step strptime (.delete b broad_belone) s).store.info b = none from hinfo] at hsome
    cases hsome
  · obtain ⟨hinfo, hplay, -⟩ := @delete_other s.store broad_id broad_belone b hb
    exact (h.stays b).same hinfo hplay

theorem Since.after (h₁ : Inv strptime s₁) (h : Since strptime s₁ s) {rest : List (Req τ)} (hrest : ∀ r ∈ rest, r.posts = true) :
    Since strptime s₁ (after (step strptime) rest s) := by
  refine after_inv (G := fun r _ => r.posts = true) (I := Since strptime s₁) (fun r s hr h => ?_) (all_of_mem hrest s) h
  cases r with
  | post form selfUid broad_title => exact h.post h₁ form selfUid broad_title
  | delete broad_id broad_belone => exact h.delete broad_id broad_belone
  | round nowDate => cases hr
  | restart => cases hr

end Since

/-- A round that all listed broadcasts let pass leaves everything as it is due. -/
theorem round_as_due {s : St τ} (h : Inv strptime s) {nowDate : τ} (hclock : ∀ t, s.last = some t → t ≤ nowDate) (hrunning : s.running = true)
    (hfine : ∀ b ∈ listed s.store, Fine strptime s.store b) : (step strptime (.round nowDate) s).running = true ∧
      ∀ b, seen strptime (some nowDate) (step strptime (.round nowDate) s).store b = seen strptime (some nowDate) s.store b ∧
        ((step strptime (.round nowDate) s).store.info b).isSome = (s.store.info b).isSome ∧
        AsDue strptime nowDate (step strptime (.round nowDate) s).store b := by
  obtain ⟨done, -, hdone, hstore, -, -⟩ := @step_round _ _ strptime nowDate s hrunning
  obtain ⟨rfl, hruns⟩ := hdone hfine
  refine ⟨hruns, fun b => ?_⟩
  rw [hstore]
  refine ⟨seen_played _, Option.isSome_map, ?_⟩
  have hlater := (h.kept b).later hclock
  by_cases hb : b ∈ listed s.store
  · exact hlater.asDue_played hb
  · -- what is not listed has no record
    have hnone : seen strptime (some nowDate) s.store b = none := by
      refine Option.eq_none_iff_forall_ne_some.2 fun st hseen => ?_
      obtain ⟨-, i, -, -, hi, -, -⟩ := seen_eq_some hseen
      exact hb (hlater.listed i hi)
    refine hlater.played.asDue (fun hseen => ?_) fun hseen => ?_
    · rw [seen_played, hnone] at hseen
      cases hseen
    · rw [seen_played, hnone] at hseen
      cases hseen

/-- Whatever was posted, deleted, restarted and played before, and whatever is posted and deleted since: after a round that goes
through, the hall shows what was due at that round and is not deleted, with the statuses of their stages. -/
theorem shown_as_due (strptime : String → Option τ) (rs : List (Req τ)) (nowDate : τ) (rest : List (Req τ))
    (hclock : All (step strptime) OnTime (rs ++ [.round nowDate]) .init) (hrunning : (after (step strptime) rs .init).running = true)
    (hfine : ∀ b ∈ listed (after (step strptime) rs .init).store, Fine strptime (after (step strptime) rs .init).store b)
    (hrest : ∀ r ∈ rest, r.posts = true) :
    let s := after (step strptime) rs .init
    let s' := after (step strptime) rest (step strptime (.round nowDate) s)
    s'.running = true ∧
      (∀ group_id broad_table broad_belone, run (getHallBroadInfo group_id broad_table broad_belone) s'.store =
        (.ok (shown (due strptime nowDate s.store s'.store) s'.store group_id broad_table broad_belone), s'.store)) ∧
      ∀ b i, (s.store.info b).isSome → s'.store.info b = some i → i.status = statusOf (seen strptime (some nowDate) s.store b) := by
  intro s s'
  obtain ⟨hbefore, honce⟩ := (all_append ..).1 hclock
  have hinv : Inv strptime s := after_inv (G := OnTime) (I := Inv strptime) Inv.step hbefore inv_init
  obtain ⟨hruns, hround⟩ := round_as_due hinv honce.1 hrunning hfine
  have hafter : Inv strptime (step strptime (.round nowDate) s) := hinv.round honce.1
  have hsince : Since strptime (step strptime (.round nowDate) s) s' := Since.after hafter (since_refl hafter) hrest
  have hplay : s'.store.playSet = due strptime nowDate s.store s'.store := by
    funext b
    obtain ⟨hseen, -, hdue⟩ := hround b
    have hiff : s'.store.playSet b = true ↔ due strptime nowDate s.store s'.store b = true := by
      rw [(hsince.stays b).play, hdue.play, hseen, due, Bool.and_eq_true, decide_eq_true_iff]
    exact Bool.eq_iff_iff.2 hiff
  refine ⟨hsince.running.trans hruns, fun group_id broad_table broad_belone => ?_, fun b i hsome hi => ?_⟩
  · rw [← hplay]
    exact run_getHallBroadInfo (fun b hp => ((hsince.stays b).play.1 hp).2) group_id broad_table broad_belone
  · obtain ⟨hseen, hrecord, hdue⟩ := hround b
    obtain ⟨i₁, hi₁⟩ := Option.isSome_iff_exists.1 (hrecord.trans hsome)
    rw [← hseen]
    refine hdue.status i ?_
    rcases (hsince.stays b).info i₁ hi₁ with hsame | hnone
    · rw [hi₁, ← hsame, hi]
    · cases hnone.symm.trans hi

/-- The minutes of January 2020. -/
def minutes (date : String) : Option Nat :=
  [("2020-01-01 00:00", 0), ("2020-01-01 00:30", 30), ("2020-01-01 00:50", 50)].lookup date

/-- One broadcast for all and one of the agent 5, a round, and a restart. -/
def demoRun : List (Req Nat) :=
  [.post ⟨"1", "2020-01-01 00:00", "2020-01-01 00:50", "all", 5, "HALL"⟩ "1" "!",
    .post ⟨"3", "2020-01-01 00:30", "2020-01-01 00:50", "region", 9, "HALL"⟩ "5" "?", .round 10, .restart]

def demoRest : List (Req Nat) := [.post ⟨"1", "2020-01-01 00:00", "2020-01-01 00:50", "late", 1, "HALL"⟩ "1" "!"]

/-- The broadcast of the agent begins with the round; a new one waits. -/
theorem shown_as_due_demo :
    (run (getHallBroadInfo "5" .hallContainAllList "HALL") (after (step minutes) demoRest
      (step minutes (.round 40) (after (step minutes) demoRun .init))).store).1 = .ok [⟨"!all", 5⟩, ⟨"?region", 9⟩] := by
  have hlisted : listed (after (step minutes) demoRun .init).store = ["2", "1"] := by decide +kernel
  have hfine : ∀ b ∈ listed (after (step minutes) demoRun .init).store, Fine minutes (after (step minutes) demoRun .init).store b := by
    rw [hlisted]
    intro b hb
    rcases List.mem_pair.1 hb with rfl | rfl
    · exact .inr ⟨_, _, rfl, rfl⟩
    · exact .inr ⟨_, _, rfl, rfl⟩
  have hclock : All (step minutes) OnTime (demoRun ++ [.round 40]) .init := by
    refine ⟨trivial, trivial, fun t ht => ?_, trivial, fun t ht => ?_, trivial⟩
    · cases ht
    · have hten : some 10 = some t := ht
      cases hten
      decide
  have h := (shown_as_due minutes demoRun 40 demoRest hclock (by decide +kernel) hfine
    (List.forall_mem_singleton.2 rfl)).2.1 "5" .hallContainAllList "HALL"
  rw [h]
  exact congrArg Except.ok (by decide +kernel)

/-! ## A broadcast that is deleted under the wrong name -/

/-- The list of the rounds that a deletion names. -/
def listOf (broad_belone : String) : Option Key :=
  if broad_belone = "HALL" then some .hallList else if broad_belone = "FISH" then some .fishList else none

/-- The broadcast has no record and is on the list. -/
structure Stale (b : String) (key : Key) (s : Store) : Prop where
  mem : b ∈ s.list key
  info : s.info b = none
  out : s.outSet b = false

/-- The request does not take the broadcast off the list. -/
def Leaves (b : String) (key : Key) : Req τ → Prop
  | .delete broad_id broad_belone => broad_id = b → listOf broad_belone ≠ some key
  | _ => True

section Stale
variable {b : String} {key : Key} {s : St τ}

/-- A deletion takes from no other list of the rounds than the one it names. -/
theorem mem_removed {send_ag send_type : Option String} {broad_belone : String} (hkey : key = .hallList ∨ key = .fishList)
    (hmem : key ∈ removed send_ag send_type broad_belone) : listOf broad_belone = some key := by
  unfold removed at hmem
  unfold listOf
  split at hmem
  · rw [if_pos ‹_›]
    rcases hkey with rfl | rfl <;> simp at hmem ⊢
  · rw [if_neg ‹_›]
    split at hmem
    · rw [if_pos ‹_›]
      rcases hkey with rfl | rfl <;> simp at hmem ⊢
    · cases hmem

theorem stale_delete {t : Store} (hkey : key = .hallList ∨ key = .fishList) (hmem : b ∈ t.list key) {broad_belone : String}
    (hwrong : listOf broad_belone ≠ some key) : Stale b key (Undo.step (.delete b broad_belone) t) := by
  obtain ⟨hinfo, -, hout⟩ := @delete_self t b broad_belone
  refine ⟨?_, hinfo, hout⟩
  rw [step_delete]
  have hstay : moves b ((removed ((t.info b).map Info.parent_ag) ((t.info b).map Info.broad_type) broad_belone).map (·, Move.off)) t.list key =
      t.list key := moves_map_of_not_mem _ _ fun hmem => hwrong (mem_removed hkey hmem)
  dsimp only
  rw [hstay]
  exact hmem

theorem Stale.round (h : Stale b key s.store) (nowDate : τ) : Stale b key (step strptime (.round nowDate) s).store := by
  by_cases hrunning : s.running = true
  · obtain ⟨done, -, -, hstore, -, -⟩ := @step_round _ _ strptime nowDate s hrunning
    have hidle : looked strptime nowDate s.store b = none := by
      rw [looked, h.out, h.info]
      rfl
    obtain ⟨hinfo, -, hout⟩ := @played_idle _ _ strptime s.store b nowDate done (by simp [hidle]) (by simp [hidle])
    rw [hstore]
    exact ⟨h.mem, hinfo.trans h.info, hout.trans h.out⟩
  · have hstay : step strptime (.round nowDate) s = s := if_neg hrunning
    rw [hstay]
    exact h

/-- The round raises where it comes to the broadcast, or before. -/
theorem Stale.stops (h : Stale b key s.store) (hkey : key = .hallList ∨ key = .fishList) (nowDate : τ) :
    (step strptime (.round nowDate) s).running = false := by
  have hfine : ¬Fine strptime s.store b := by
    rintro (hout | ⟨i, -, hi, -⟩)
    · cases h.out.symm.trans hout
    · cases h.info.symm.trans hi
  have hlisted : b ∈ listed s.store := by
    rcases hkey with rfl | rfl
    · exact List.mem_append_left _ h.mem
    · exact List.mem_append_right _ h.mem
  obtain ⟨e, done, -, hrun⟩ := @run_round_raises _ _ strptime nowDate s.store b hlisted hfine
  unfold step
  dsimp only
  split
  · rw [hrun]
  · exact Bool.eq_false_iff.2 ‹_›

theorem Stale.step (hnum : Numbered s) (h : Stale b key s.store) (hkey : key = .hallList ∨ key = .fishList) {r : Req τ} (hr : Leaves b key r) :
    Stale b key (step strptime r s).store := by
  cases r with
  | post form selfUid broad_title =>
    have hne : b ≠ toString (s.count + 1) := fun he => (hnum _ (Nat.lt_succ_self _)).list key (he ▸ h.mem)
    rw [step_post]
    by_cases hnot : pushed form.broad_type selfUid form.broad_belone = []
    · rw [step_push_nothing hnot]
      exact h
    · rw [step_push hnot]
      exact ⟨(mem_moves_other _ _ _ hne key).2 h.mem, (update_of_ne hne ..).trans h.info, h.out⟩
  | delete broad_id broad_belone =>
    by_cases hb : b = broad_id
    · subst hb
      exact stale_delete hkey h.mem (hr rfl)
    · obtain ⟨hinfo, -, hout⟩ := @delete_other s.store broad_id broad_belone b hb
      exact ⟨mem_delete_other hb broad_belone h.mem, hinfo.trans h.info, hout.trans h.out⟩
  | round nowDate => exact h.round nowDate
  | restart =>
    obtain ⟨play, hstep, -⟩ := @step_restart _ _ strptime s
    rw [hstep]
    exact ⟨h.mem, h.info, h.out⟩

end Stale

/-- A broadcast that is deleted under the name of the other list, or of none, stays on its own without a record. From then on, and
whatever the clock says, each round ends the player, however often it is restarted, until the broadcast is deleted under the right
name. -/
theorem wrong_name_stops (strptime : String → Option τ) (rs : List (Req τ)) (b : String) (key : Key) (broad_belone : String) (rest : List (Req τ))
    (hkey : key = .hallList ∨ key = .fishList) (hmem : b ∈ (after (step strptime) rs .init).store.list key)
    (hwrong : listOf broad_belone ≠ some key) (hrest : ∀ r ∈ rest, Leaves b key r) :
    let s := after (step strptime) (rs ++ .delete b broad_belone :: rest) .init
    Stale b key s.store ∧ ∀ nowDate, (step strptime (.round nowDate) s).running = false := by
  intro s
  have hnum : Numbered (after (step strptime) rs .init) := after_keeps Numbered.step rs numbered_init
  have hstale : Stale b key (step strptime (.delete b broad_belone) (after (step strptime) rs .init)).store := stale_delete hkey hmem hwrong
  have hboth : Numbered s ∧ Stale b key s.store := by
    have hafter : s = after (step strptime) rest (step strptime (.delete b broad_belone) (after (step strptime) rs .init)) := by
      rw [← after_cons, ← after_append]
    rw [hafter]
    refine after_inv (G := fun r _ => Leaves b key r) (I := fun s => Numbered s ∧ Stale b key s.store) ?_ (all_of_mem hrest _)
      ⟨hnum.delete b broad_belone, hstale⟩
    exact fun r s hr h => ⟨h.1.step r s, h.2.step h.1 hkey hr⟩
  exact ⟨hboth.2, hboth.2.stops hkey⟩

/-- A broadcast of the fish is deleted with those of the hall. The player ends, also after a restart and with the clock put back. -/
theorem wrong_name_stops_demo :
    let s := after (step minutes)
      ([.post ⟨"1", "2020-01-01 00:00", "2020-01-01 00:50", "all", 5, "FISH"⟩ "1" "!"] ++ .delete "1" "HALL" :: [.round 10, .restart]) .init
    Stale "1" .fishList s.store ∧ ∀ nowDate, (step minutes (.round nowDate) s).running = false := by
  refine wrong_name_stops minutes _ "1" .fishList "HALL" _ (.inr rfl) (by decide +kernel) (by decide) ?_
  intro r hr
  rcases List.mem_pair.1 hr with rfl | rfl <;> trivial

end FishWeb.Broadcast.Player
