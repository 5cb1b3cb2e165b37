import FishWeb.Activity.Moves
/-!
# What was passed is what is shown

An activity of an agent that is passed, ready or started has the fields that it had when
the system agent passed it (`passed_as_reviewed`): whoever changes one has it checked
again, and nobody else may change it.
-/
open Python Runs

namespace FishWeb.Activity

variable {C : Config}

/-- The states behind the review. -/
def Live (C : Config) (t : Fields) : Prop :=
  t "status" = some C.pass ∨ t "status" = some C.ready ∨ t "status" = some C.starting

/-- The fields are the same, but for the status. -/
def Alike (t t' : Fields) : Prop := ∀ f, f ≠ "status" → t' f = t f

theorem Alike.trans {t t' t'' : Fields} (h : Alike t t') (h' : Alike t' t'') : Alike t t'' := fun f hf => (h' f hf).trans (h f hf)

theorem alike_update (t : Fields) (st : Option String) : Alike t (Function.update t "status" st) := fun _ hf => Function.update_of_ne hf ..

theorem not_live {t : Fields} {st : String} (hst : t "status" = some st)
    (h : st = C.nonChecked ∨ st = C.checking ∨ st = C.fail ∨ st = C.close) : ¬Live C t := by
  have hnodup := C.nodup
  simp only [List.nodup_cons, List.mem_cons, List.not_mem_nil, or_false, not_or] at hnodup
  unfold Live
  rw [hst]
  grind

/-- The table of an activity after its status was set. -/
theorem table_setStatus {s : St} {id st : String} {t' : Fields} (h : (setStatus s id st).table id = some t') :
    ∃ t, s.table id = some t ∧ t' = Function.update t "status" (some st) := by
  cases ht : s.table id with
  | none => simp [setStatus, ht] at h
  | some t => exact ⟨t, rfl, by simpa [setStatus, ht] using h.symm⟩

variable {r : Request} {s s' : St} {a id : String} {t t' : Fields}

/-- A status that is set and not behind the review. -/
theorem live_set {i new : String} (ht : (setStatus s i new).table id = some t') (hlive : Live C t')
    (hnew : Live C (fun _ => some new) → ∃ old, statusOf s i = some old ∧ Live C fun _ => some old) :
    ∃ t, s.table id = some t ∧ Live C t ∧ Alike t t' := by
  by_cases hi : id = i
  · subst hi
    obtain ⟨t, htable, rfl⟩ := table_setStatus ht
    obtain ⟨old, hold, hliveOld⟩ := hnew (by simpa [Live] using hlive)
    have hstatus : t "status" = some old := by simpa [statusOf, htable] using hold
    exact ⟨t, htable, by simpa [Live, hstatus] using hliveOld, alike_update t _⟩
  · rw [table_setStatus_ne hi] at ht
    exact ⟨t', ht, hlive, fun _ _ => rfl⟩

/-- No request but the one that passes an activity brings it behind the review. -/
theorem Move.live (hm : Move C r s s') (hpass : ∀ admin, r ≠ .confirm admin id "1") (hs : Shelved s) (hin : id ∈ s'.lists a)
    (hsys : int a ≠ some C.systemId) (ht : s'.table id = some t') (hlive : Live C t') :
    id ∈ s.lists a ∧ ∃ t, s.table id = some t ∧ Live C t ∧ Alike t t' := by
  cases hm with
  | same h =>
    rw [h.lists] at hin
    rw [h.table] at ht
    exact ⟨hin, t', ht, hlive, fun _ _ => rfl⟩
  | @created agent i _ _ tnew _ _ h =>
    obtain rfl := h.id_eq
    by_cases hi : id = toString (s.count + 1)
    · exfalso
      rw [h.table, hi, Function.update_self] at ht
      obtain rfl : tnew = t' := Option.some.inj ht
      have ha : a = agent := by
        by_contra ha
        rw [h.lists, Function.update_of_ne ha, hi] at hin
        exact hs.fresh a hin
      obtain ⟨n, hn, hst⟩ := h.author
      rw [if_neg fun hsame => hsys (by rw [ha, hn, hsame])] at hst
      exact not_live hst (.inl rfl) hlive
    · rw [h.table, Function.update_of_ne hi] at ht
      refine ⟨?_, t', ht, hlive, fun _ _ => rfl⟩
      rw [h.lists] at hin
      by_cases ha : a = agent
      · subst ha
        rw [Function.update_self] at hin
        exact (List.mem_cons.1 hin).resolve_left hi
      · rwa [Function.update_of_ne ha] at hin
  | @edited agent i body _ h =>
    refine ⟨hin, ?_⟩
    by_cases hi : id = i
    · exfalso
      subst hi
      obtain rfl : a = agent := hs.owner a agent id hin h
      obtain ⟨n, hn⟩ := hs.author a id hin
      dsimp only at ht
      rw [Function.update_self, modified, if_pos ⟨n, hn, fun hsame => hsys (hsame ▸ hn)⟩] at ht
      obtain rfl := Option.some.inj ht
      exact not_live (Function.update_self ..) (.inl rfl) hlive
    · dsimp only at ht
      rw [Function.update_of_ne hi] at ht
      exact ⟨t', ht, hlive, fun _ _ => rfl⟩
  | @deleted agent i _ =>
    by_cases hi : id = i
    · simp [hi] at ht
    · dsimp only at ht hin
      rw [Function.update_of_ne hi] at ht
      refine ⟨?_, t', ht, hlive, fun _ _ => rfl⟩
      by_cases ha : a = agent
      · subst ha
        rw [Function.update_self] at hin
        exact List.mem_of_mem_filter hin
      · rwa [Function.update_of_ne ha] at hin
  | @set _ i old new _ h hold =>
    rw [lists_setStatus] at hin
    refine ⟨hin, ?_⟩
    by_cases hi : id = i
    · subst hi
      refine live_set ht hlive fun hnew => ⟨old, hold, ?_⟩
      cases h with
      | check => exact absurd hnew (not_live rfl (.inr (.inl rfl)))
      | fail => exact absurd hnew (not_live rfl (.inr (.inr (.inl rfl))))
      | pass => exact absurd rfl (hpass _)
      | ready => exact .inl rfl
      | close => exact absurd hnew (not_live rfl (.inr (.inr (.inr rfl))))
    · rw [table_setStatus_ne hi] at ht
      exact ⟨t', ht, hlive, fun _ _ => rfl⟩
  | started _ h =>
    refine ⟨by simpa [online, lists_setStatus] using hin, live_set ht hlive fun _ => ⟨_, h, .inr (.inl rfl)⟩⟩
  | ended =>
    exact ⟨by simpa [offline, lists_setStatus] using hin,
      live_set ht hlive fun h => absurd h (not_live rfl (.inr (.inr (.inr rfl))))⟩
  | taken =>
    exact ⟨by simpa [offline, lists_setStatus] using hin,
      live_set ht hlive fun h => absurd h (not_live rfl (.inr (.inr (.inr rfl))))⟩

/-- An activity behind the review was there before, or is passed now. -/
theorem live_step (hs : Shelved s) (hin : id ∈ (step C r s).lists a) (hsys : int a ≠ some C.systemId)
    (ht : (step C r s).table id = some t') (hlive : Live C t') :
    id ∈ s.lists a ∧ ∃ t, s.table id = some t ∧ Alike t t' ∧
      (Live C t ∨ ∃ admin, r = .confirm admin id "1" ∧ int admin = some C.systemId ∧ t "status" = some C.checking) := by
  by_cases hpass : ∃ admin, r = .confirm admin id "1"
  · obtain ⟨admin, rfl⟩ := hpass
    rw [step_confirm] at ht hin
    split at ht
    · next h =>
      rw [if_pos h] at hin
      rw [if_neg (by decide), if_pos rfl] at ht hin
      rw [lists_setStatus] at hin
      obtain ⟨t, htable, rfl⟩ := table_setStatus ht
      have hst : t "status" = some C.checking := by simpa [statusOf, htable] using h.2.2
      exact ⟨hin, t, htable, alike_update t _, .inr ⟨admin, rfl, h.2.1, hst⟩⟩
    · next h =>
      rw [if_neg h] at hin
      exact ⟨hin, t', ht, fun _ _ => rfl, .inl hlive⟩
  · -- what the moves since `s` have not brought about was there in `s`
    have hkeep : ∀ t', Shelved (step C r s) ∧ (id ∈ (step C r s).lists a → (step C r s).table id = some t' → Live C t' →
        id ∈ s.lists a ∧ ∃ t, s.table id = some t ∧ Live C t ∧ Alike t t') := by
      intro t'
      refine step_keeps (I := fun s₁ => ∀ t', Shelved s₁ ∧ (id ∈ s₁.lists a → s₁.table id = some t' → Live C t' →
        id ∈ s.lists a ∧ ∃ t, s.table id = some t ∧ Live C t ∧ Alike t t')) (fun s₁ s₂ hm ih t' => ⟨(ih t').1.move hm, ?_⟩)
        (fun t' => ⟨hs, fun hin ht hlive => ⟨hin, t', ht, hlive, fun _ _ => rfl⟩⟩) t'
      intro hin ht hlive
      obtain ⟨hin₁, t₁, ht₁, hlive₁, halike₁⟩ := hm.live (fun admin h => hpass ⟨admin, h⟩) (ih t').1 hin hsys ht hlive
      obtain ⟨hin₀, t, ht₀, hlive₀, halike₀⟩ := (ih t₁).2 hin₁ ht₁ hlive₁
      exact ⟨hin₀, t, ht₀, hlive₀, halike₀.trans halike₁⟩
    obtain ⟨hin₀, t, ht₀, hlive₀, halike⟩ := (hkeep t').2 hin ht hlive
    exact ⟨hin₀, t, ht₀, halike, .inl hlive₀⟩

/-- In every run, an activity of an agent that is passed, ready or started has the fields that were before the system
agent when he passed it. -/
theorem passed_as_reviewed (rs : List Request) {a id : String} {t : Fields} (hin : id ∈ (after (step C) rs init).lists a)
    (hsys : int a ≠ some C.systemId) (ht : (after (step C) rs init).table id = some t) (hlive : Live C t) :
    ∃ before later admin t₀, rs = before ++ .confirm admin id "1" :: later ∧ int admin = some C.systemId ∧
      (after (step C) before init).table id = some t₀ ∧ t₀ "status" = some C.checking ∧ Alike t₀ t := by
  induction rs using List.reverseRecOn generalizing t with
  | nil => cases ht
  | append_singleton rs r ih =>
    rw [after_append] at hin ht
    obtain ⟨hin₁, t₁, ht₁, halike, hcase⟩ := live_step (shelved_after rs) hin hsys ht hlive
    rcases hcase with hlive₁ | ⟨admin, rfl, hadmin, hst⟩
    · obtain ⟨before, later, admin, t₀, rfl, hadmin, ht₀, hst, halike₀⟩ := ih hin₁ ht₁ hlive₁
      exact ⟨before, later ++ [r], admin, t₀, by simp, hadmin, ht₀, hst, halike₀.trans halike⟩
    · exact ⟨rs, [], admin, t₁, rfl, hadmin, ht₁, hst, halike⟩

/-! ## A run -/

def demoConfig : Config where
  nonChecked := "0"
  checking := "1"
  pass := "2"
  fail := "3"
  ready := "4"
  starting := "5"
  close := "6"
  nodup := by decide
  starting_apart := by decide
  systemId := 1
  ONE_DAY := 86400
  HALL_PRE := "/hall"
  BACK_PRE := "/admin"
  str2timestamp d := if d = "2018-01-01" then some 0 else if d = "2018-01-03" then some 172800 else none

def demoBody : Body :=
  [("title", ⟨"a", true⟩), ("startdate", ⟨"2018-01-01", true⟩), ("enddate", ⟨"2018-01-03", true⟩), ("type", ⟨"turnlate", true⟩),
    ("missionList", ⟨"[m]", true⟩), ("rewardList", ⟨"[r]", true⟩)]

/-- The agent `2` writes an activity and hands it in, the system agent passes it, and it is made ready. -/
def demoRun : List Request :=
  [.create "2" demoBody [⟨some "7", none⟩], .check "1", .confirm "1" "1" "1", .ready "1"]

theorem passed_as_reviewed_demo :
    ∃ before later admin t₀, demoRun = before ++ .confirm admin "1" "1" :: later ∧ int admin = some demoConfig.systemId ∧
      (after (step demoConfig) before init).table "1" = some t₀ ∧ t₀ "status" = some demoConfig.checking ∧
      Alike t₀ (infoOf (after (step demoConfig) demoRun init) "1") :=
  @passed_as_reviewed demoConfig demoRun "2" "1" (infoOf (after (step demoConfig) demoRun init) "1") (List.mem_singleton.2 rfl)
    (by decide) rfl (.inr (.inl rfl))

end FishWeb.Activity
