import FishWeb.Activity.Review
/-!
# The activities that are online

The list of an agent that the hall reads holds his started activities, each once, for as
long as no deletion meets a started activity and no change turns a status to started, or
from it, or renames an agent: neither page looks at the status (`online_exact_iff`). The timer that keeps the lists has no
handler for exceptions: it goes on for as long as every round can read every activity that
is on a list (`timer_goes_on_iff`).
-/
open Python Runs

namespace FishWeb.Activity

open Function (update)

variable {C : Config}

/-! ## The lists -/

/-- What is online is what is started. -/
structure Exact (C : Config) (s : St) : Prop where
  nodup : ∀ a, (s.online a).Nodup
  mem : ∀ a id, id ∈ s.online a ↔ id ∈ s.lists a ∧ statusOf s id = some C.starting
  agentid : ∀ a id t, id ∈ s.lists a → s.table id = some t → t "agentid" = some a

/-- A change or a deletion that the list does not follow: a change that leaves the activity under another agent's name,
or changes whether its status is the started one, and a deletion of a started activity. A change by the system agent
keeps what its body posts as the status, and one of an activity without a table makes a new table. -/
def Stray (C : Config) (s : St) : Request → Prop
  | .modify agent id body => id ≠ "" ∧ id ∈ s.lists agent ∧ body ≠ [] ∧
    ¬(modified C s agent id body "agentid" = some agent ∧
      (modified C s agent id body "status" = some C.starting ↔ statusOf s id = some C.starting))
  | .del _ id => id ≠ "" ∧ statusOf s id = some C.starting
  | _ => False

theorem statusOf_setStatus_ne {s : St} {id i : String} (h : i ≠ id) (st : String) : statusOf (setStatus s id st) i = statusOf s i := by
  rw [statusOf, table_setStatus_ne h, statusOf]

theorem statusOf_setStatus {s : St} {id old : String} (h : statusOf s id = some old) (st : String) :
    statusOf (setStatus s id st) id = some st := by
  obtain ⟨t, ht, -⟩ := exists_of_statusOf h
  simp [setStatus, ht, statusOf]

theorem agentid_setStatus {s : St} (h : ∀ a id t, id ∈ s.lists a → s.table id = some t → t "agentid" = some a) (i st : String) :
    ∀ a id t, id ∈ s.lists a → (setStatus s i st).table id = some t → t "agentid" = some a := by
  intro a id t hin ht
  by_cases hi : id = i
  · subst hi
    obtain ⟨t₀, ht₀, rfl⟩ := table_setStatus ht
    rw [alike_update t₀ _ "agentid" (by decide)]
    exact h a id t₀ hin ht₀
  · rw [table_setStatus_ne hi] at ht
    exact h a id t hin ht

/-- The names of the states that no page sets and none leaves, but for the timer. -/
theorem starting_ne : C.starting ≠ C.nonChecked ∧ C.starting ≠ C.checking ∧ C.starting ≠ C.pass ∧ C.starting ≠ C.fail ∧
    C.starting ≠ C.ready ∧ C.starting ≠ C.close := by
  have hnodup := C.nodup
  simp only [List.nodup_cons, List.mem_cons, List.not_mem_nil, or_false, not_or] at hnodup
  grind

theorem Exact.set {s : St} (h : Exact C s) {id old st : String} (hold : statusOf s id = some old) (hne : old ≠ C.starting)
    (hnew : st ≠ C.starting) : Exact C (setStatus s id st) := by
  refine ⟨by simpa [online_setStatus] using h.nodup, fun a i => ?_, ?_⟩
  · rw [online_setStatus, lists_setStatus, h.mem]
    by_cases hi : i = id
    · subst hi
      simp [statusOf_setStatus hold, hold, hne, hnew]
    · rw [statusOf_setStatus_ne hi]
  · rw [lists_setStatus]
    exact agentid_setStatus h.agentid id st

theorem Exact.online {s : St} (h : Exact C s) (hs : Shelved s) {agent id : String} (hin : id ∈ s.lists agent)
    (hready : statusOf s id = some C.ready) : Exact C (online (setStatus s id C.starting) agent id) := by
  have hnot (a : String) : id ∉ s.online a := fun hon =>
    starting_ne.2.2.2.2.1 (Option.some.inj (((h.mem a id).1 hon).2.symm.trans hready))
  refine ⟨fun a => ?_, fun a i => ?_, ?_⟩
  · by_cases ha : a = agent
    · subst ha
      simpa [Activity.online, online_setStatus] using ⟨hnot a, h.nodup a⟩
    · simpa [Activity.online, online_setStatus, ha] using h.nodup a
  · have hstatus : statusOf (Activity.online (setStatus s id C.starting) agent id) i = statusOf (setStatus s id C.starting) i := rfl
    rw [hstatus]
    simp only [Activity.online, online_setStatus, lists_setStatus]
    by_cases hi : i = id
    · subst hi
      rw [statusOf_setStatus hready]
      by_cases ha : a = agent
      · subst ha
        simp [hin]
      · rw [Function.update_of_ne ha]
        exact ⟨fun hon => absurd hon (hnot a), fun hl => absurd (hs.owner a agent i hl.1 hin) ha⟩
    · rw [statusOf_setStatus_ne hi, ← h.mem]
      by_cases ha : a = agent
      · subst ha
        simp [hi]
      · rw [Function.update_of_ne ha]
  · exact fun a i t hl => agentid_setStatus h.agentid id C.starting a i t (by simpa [Activity.online, lists_setStatus] using hl)

theorem Exact.offline {s : St} (h : Exact C s) (hs : Shelved s) {agent id old : String} (hin : id ∈ s.lists agent)
    (hold : statusOf s id = some old) : Exact C (offline (setStatus s id C.close) agent id) := by
  refine ⟨fun a => ?_, fun a i => ?_, ?_⟩
  · by_cases ha : a = agent
    · subst ha
      simpa [Activity.offline, online_setStatus] using (h.nodup a).filter _
    · simpa [Activity.offline, online_setStatus, ha] using h.nodup a
  · have hstatus : statusOf (Activity.offline (setStatus s id C.close) agent id) i = statusOf (setStatus s id C.close) i := rfl
    rw [hstatus]
    simp only [Activity.offline, online_setStatus, lists_setStatus]
    by_cases hi : i = id
    · subst hi
      rw [statusOf_setStatus hold]
      have hclose : ¬some C.close = some C.starting := fun h => starting_ne.2.2.2.2.2 (Option.some.inj h).symm
      refine iff_of_false ?_ fun h => hclose h.2
      by_cases ha : a = agent
      · subst ha
        simp
      · rw [Function.update_of_ne ha, h.mem]
        exact fun hl => ha (hs.owner a agent i hl.1 hin)
    · rw [statusOf_setStatus_ne hi, ← h.mem]
      by_cases ha : a = agent
      · subst ha
        simp [hi]
      · rw [Function.update_of_ne ha]
  · exact fun a i t hl => agentid_setStatus h.agentid id C.close a i t (by simpa [Activity.offline, lists_setStatus] using hl)

theorem Exact.created {s s' : St} (h : Exact C s) (hs : Shelved s) {agent id : String} {t : Fields} (hc : Created C agent id t s s') :
    Exact C s' := by
  obtain rfl := hc.id_eq
  have hnew (a : String) : toString (s.count + 1) ∉ s.online a := fun hon => hs.fresh a ((h.mem a _).1 hon).1
  have hlists {a i : String} (hi : i ≠ toString (s.count + 1)) : i ∈ s'.lists a ↔ i ∈ s.lists a := by
    rw [hc.lists]
    by_cases ha : a = agent
    · subst ha
      rw [Function.update_self, List.mem_cons, or_iff_right hi]
    · rw [Function.update_of_ne ha]
  refine ⟨by simpa [hc.online] using h.nodup, fun a i => ?_, fun a i t' hin ht => ?_⟩
  · rw [hc.online]
    by_cases hi : i = toString (s.count + 1)
    · subst hi
      refine iff_of_false (hnew a) fun hl => ?_
      obtain ⟨n, -, hst⟩ := hc.author
      have hstatus : statusOf s' (toString (s.count + 1)) = t "status" := by simp [statusOf, hc.table]
      rw [hstatus, hst] at hl
      have := Option.some.inj hl.2
      split at this
      · exact starting_ne.2.2.1 this.symm
      · exact starting_ne.1 this.symm
    · rw [hlists hi, statusOf, hc.table, Function.update_of_ne hi]
      exact h.mem a i
  · by_cases hi : i = toString (s.count + 1)
    · rw [hc.table, hi, Function.update_self] at ht
      obtain rfl := Option.some.inj ht
      rw [hc.agentid]
      by_contra hne
      rw [hc.lists, Function.update_of_ne (fun ha => hne (congrArg some ha.symm)), hi] at hin
      exact hs.fresh a hin
    · rw [hc.table, Function.update_of_ne hi] at ht
      exact h.agentid a i t' ((hlists hi).1 hin) ht

/-- The pages that set a status, and the timer. -/
theorem Exact.move {r : Request} {s s' : St} (h : Exact C s) (hs : Shelved s) (hm : Move C r s s')
    (hmodify : ∀ agent id body, r ≠ .modify agent id body) (hdel : ∀ agent id, r ≠ .del agent id) : Exact C s' := by
  cases hm with
  | same hsame =>
    refine ⟨by simpa [hsame.online] using h.nodup, fun a id => ?_, fun a id t hin ht => ?_⟩
    · rw [hsame.online, hsame.lists, statusOf, hsame.table]
      exact h.mem a id
    · rw [hsame.lists] at hin
      rw [hsame.table] at ht
      exact h.agentid a id t hin ht
  | created hc => exact h.created hs hc
  | edited => exact absurd rfl (hmodify _ _ _)
  | deleted => exact absurd rfl (hdel _ _)
  | set hsets hold =>
    obtain ⟨h1, h2, h3, h4, h5, h6⟩ := starting_ne (C := C)
    cases hsets with
    | check hst => exact h.set hold (by rcases hst with rfl | rfl; exacts [h1.symm, h4.symm]) h2.symm
    | fail => exact h.set hold h2.symm h4.symm
    | pass => exact h.set hold h2.symm h3.symm
    | ready => exact h.set hold h3.symm h5.symm
    | close hinfix => exact h.set hold (fun heq => C.starting_apart (heq ▸ hinfix)) h6.symm
  | started hin hready => exact h.online hs hin hready
  | ended hin hst => exact h.offline hs hin hst
  | @taken agent id st _ hst hagent =>
    obtain ⟨t, ht, -⟩ := exists_of_statusOf hst
    obtain ⟨a, ha⟩ := hs.listed id (by simp [ht])
    have : t "agentid" = some agent := by simpa [ht] using hagent
    obtain rfl : a = agent := Option.some.inj ((h.agentid a id t ha ht).symm.trans this)
    exact h.offline hs ha hst

theorem exact_modify {s : St} (h : Exact C s) (hs : Shelved s) {agent id : String} (hin : id ∈ s.lists agent) (t : Fields) :
    Exact C { s with table := update s.table id (some t) } ↔
      t "agentid" = some agent ∧ (t "status" = some C.starting ↔ statusOf s id = some C.starting) := by
  have hstatus : statusOf { s with table := update s.table id (some t) } id = t "status" := by simp [statusOf]
  constructor
  · intro h'
    refine ⟨h'.agentid agent id t hin (by simp), ?_⟩
    have hold := h.mem agent id
    have hnew := h'.mem agent id
    rw [hstatus] at hnew
    dsimp only at hnew
    rw [hnew] at hold
    simpa [hin] using hold
  · rintro ⟨hagent, hiff⟩
    refine ⟨h.nodup, fun a i => ?_, fun a i t' hi ht => ?_⟩
    · by_cases hid : i = id
      · subst hid
        rw [hstatus, hiff]
        exact h.mem a i
      · have : statusOf { s with table := update s.table id (some t) } i = statusOf s i := by simp [statusOf, hid]
        rw [this]
        exact h.mem a i
    · by_cases hid : i = id
      · subst hid
        obtain rfl : a = agent := hs.owner a agent i hi hin
        simp only [Function.update_self, Option.some.injEq] at ht
        exact ht ▸ hagent
      · simp only [Function.update_of_ne hid] at ht
        exact h.agentid a i t' hi ht

theorem exact_del {s : St} (h : Exact C s) (hs : Shelved s) (agent id : String) :
    Exact C { s with table := update s.table id none, lists := update s.lists agent ((s.lists agent).filter (· ≠ id)) } ↔
      statusOf s id ≠ some C.starting := by
  constructor
  · intro h' hst
    obtain ⟨t, ht, -⟩ := exists_of_statusOf hst
    obtain ⟨a, ha⟩ := hs.listed id (by simp [ht])
    have hon := (h.mem a id).2 ⟨ha, hst⟩
    simpa [statusOf] using ((h'.mem a id).1 hon).2
  · intro hst
    have hlists {a i : String} (hi : i ≠ id) : i ∈ update s.lists agent ((s.lists agent).filter (· ≠ id)) a ↔ i ∈ s.lists a := by
      by_cases ha : a = agent
      · subst ha
        simp [hi]
      · rw [Function.update_of_ne ha]
    refine ⟨h.nodup, fun a i => ?_, fun a i t hin ht => ?_⟩
    · by_cases hi : i = id
      · subst hi
        exact iff_of_false (fun hon => hst ((h.mem a i).1 hon).2) fun hl => by simpa [statusOf] using hl.2
      · dsimp only
        rw [hlists hi, statusOf]
        dsimp only
        rw [Function.update_of_ne hi]
        exact h.mem a i
    · by_cases hi : i = id
      · simp [hi] at ht
      · simp only [Function.update_of_ne hi] at ht
        exact h.agentid a i t ((hlists hi).1 hin) ht

theorem exact_step_iff {s : St} (hs : Shelved s) (h : Exact C s) (r : Request) : Exact C (step C r s) ↔ ¬Stray C s r := by
  by_cases hmodify : ∃ agent id body, r = .modify agent id body
  · obtain ⟨agent, id, body, rfl⟩ := hmodify
    rw [step_modify]
    by_cases hdone : id ≠ "" ∧ id ∈ s.lists agent ∧ body ≠ []
    · rw [if_pos hdone, exact_modify h hs hdone.2.1]
      simp only [Stray, hdone.1, hdone.2.1, hdone.2.2, ne_eq, not_false_eq_true, true_and, not_not]
    · rw [if_neg hdone]
      exact iff_of_true h fun hstray => hdone ⟨hstray.1, hstray.2.1, hstray.2.2.1⟩
  · by_cases hdel : ∃ agent id, r = .del agent id
    · obtain ⟨agent, id, rfl⟩ := hdel
      rw [step_del]
      by_cases hid : id = ""
      · rw [if_pos hid]
        exact iff_of_true h fun hstray => hstray.1 hid
      · rw [if_neg hid, exact_del h hs]
        simp [Stray, hid]
    · have hkept : Shelved (step C r s) ∧ Exact C (step C r s) :=
        step_keeps (I := fun s => Shelved s ∧ Exact C s) (fun s₁ s₂ hm hI => ⟨hI.1.move hm, hI.2.move hI.1 hm
          (fun agent id body h => hmodify ⟨agent, id, body, h⟩) fun agent id h => hdel ⟨agent, id, h⟩⟩) ⟨hs, h⟩
      refine iff_of_true hkept.2 fun hstray => ?_
      cases r with
      | modify agent id body => exact hmodify ⟨agent, id, body, rfl⟩
      | del agent id => exact hdel ⟨agent, id, rfl⟩
      | _ => exact hstray

theorem exact_init : Exact C init :=
  ⟨fun _ => List.nodup_nil, (fun _ _ => iff_of_false List.not_mem_nil fun h => nomatch h.1), fun _ _ _ h => nomatch h⟩

/-- In every run, the lists of what is online are right after every request if and only if no change leaves an activity
under another agent's name or changes whether its status is the started one, and no deletion meets a started activity. -/
theorem online_exact_iff (rs : List Request) :
    All (step C) (fun r s => Exact C (step C r s)) rs init ↔ All (step C) (fun r s => ¬Stray C s r) rs init :=
  all_iff (I := fun s => Shelved s ∧ Exact C s) (fun r _ hI => exact_step_iff hI.1 hI.2 r)
    (fun r _ hstray hI => ⟨shelved_step hI.1 r, (exact_step_iff hI.1 hI.2 r).2 hstray⟩) ⟨shelved_init, exact_init⟩

/-- An agent changes his started activity: it is to be checked again, and is still shown. -/
example :
    let s := after (step demoConfig) (demoRun ++ [.tick ["2"] 1, .modify "2" "1" [("title", ⟨"b", true⟩)]]) init
    s.online "2" = ["1"] ∧ statusOf s "1" = some demoConfig.nonChecked := by decide +kernel

/-! ## The timer -/

/-- What a round leaves of an activity that it can read. -/
def due (C : Config) (now : Rat) (info : Fields) : Fields :=
  match timesOf C info now with
  | none => info
  | some (ts, last) =>
    if 0 < ts ∧ info "status" = some C.ready then update info "status" (some C.starting)
    else if last < 0 ∧ info "status" = some C.starting then update info "status" (some C.close)
    else info

theorem infoOf_setStatus {s : St} {id old : String} (h : infoOf s id "status" = some old) (st : String) :
    infoOf (setStatus s id st) id = update (infoOf s id) "status" (some st) := by
  rw [infoOf_status] at h
  obtain ⟨t, ht, -⟩ := exists_of_statusOf h
  simp [infoOf, setStatus, ht]

theorem infoOf_visited (now : Rat) (agent : String) (s : St) (id : String) :
    infoOf (visited C now agent s id) id = due C now (infoOf s id) := by
  unfold visited due
  cases timesOf C (infoOf s id) now with
  | none => rfl
  | some p =>
    dsimp only
    by_cases hready : 0 < p.1 ∧ infoOf s id "status" = some C.ready
    · rw [if_pos hready, if_pos hready]
      exact infoOf_setStatus hready.2 C.starting
    · rw [if_neg hready, if_neg hready]
      by_cases hover : p.2 < 0 ∧ infoOf s id "status" = some C.starting
      · rw [if_pos hover, if_pos hover]
        exact infoOf_setStatus hover.2 C.close
      · rw [if_neg hover, if_neg hover]

theorem infoOf_visited_ne (now : Rat) (agent : String) (s : St) {id i : String} (h : i ≠ id) :
    infoOf (visited C now agent s id) i = infoOf s i := by
  have hset (st : String) : infoOf (setStatus s id st) i = infoOf s i := by rw [infoOf, table_setStatus_ne h, infoOf]
  unfold visited
  split
  · rfl
  · split
    · exact hset _
    · split
      · exact hset _
      · rfl

/-- Every activity is visited once. -/
theorem infoOf_foldl (now : Rat) {l : List (String × String)} (hl : (l.map Prod.snd).Nodup) (s : St) (i : String) :
    infoOf (l.foldl (fun s p => visited C now p.1 s p.2) s) i =
      if i ∈ l.map Prod.snd then due C now (infoOf s i) else infoOf s i := by
  induction l generalizing s with
  | nil => rfl
  | cons p l ih =>
    rw [List.map_cons, List.nodup_cons] at hl
    rw [List.foldl_cons, ih hl.2]
    by_cases hi : i = p.2
    · subst hi
      simp [hl.1, infoOf_visited]
    · rw [infoOf_visited_ne now p.1 s hi, List.map_cons]
      simp only [List.mem_cons, hi, false_or]

theorem Shelved.nodup_targets {s : St} (hs : Shelved s) {keys : List String} (hkeys : keys.Nodup) :
    ((targets s keys).map Prod.snd).Nodup := by
  induction keys with
  | nil => exact List.nodup_nil
  | cons agent keys ih =>
    rw [List.nodup_cons] at hkeys
    rw [targets, List.flatMap_cons, List.map_append]
    refine List.Nodup.append ?_ (ih hkeys.2) ?_
    · rw [List.map_map]
      exact (List.map_id (s.lists agent)).symm ▸ hs.nodup agent
    · intro i hi hi'
      obtain ⟨p, hp, rfl⟩ := List.mem_map.1 hi
      obtain ⟨q, hq, hqp⟩ := List.mem_map.1 hi'
      obtain ⟨id, hid, rfl⟩ := List.mem_map.1 hp
      obtain ⟨hq₁, hq₂⟩ := mem_targets.1 hq
      rw [hqp] at hq₂
      exact hkeys.1 (hs.owner agent q.1 id hid hq₂ ▸ hq₁)

/-- What `KEYS` answers: every key that there is, once. -/
def Scan (s : St) (r : Request) : Prop := ∀ keys now, r = .tick keys now → keys.Nodup ∧ ∀ a, a ∈ keys ↔ s.lists a ≠ []

/-- A round comes to activities that it can read. -/
def Readable (C : Config) (s : St) (r : Request) : Prop :=
  ∀ keys now, r = .tick keys now → ∀ a, ∀ id ∈ s.lists a, Legible C (infoOf s id) now

/-- A round has started and closed what is due, on every list. -/
def Due (C : Config) (s s' : St) (r : Request) : Prop :=
  ∀ keys now, r = .tick keys now → s'.alive = true → ∀ a, ∀ id ∈ s.lists a, infoOf s' id = due C now (infoOf s id)

theorem alive_exec (s : St) : ∀ {β : Type} (c : Cmd β), (Exec.exec c s).2.alive = s.alive
  | _, .incrCount | _, .lrange _ | _, .exists _ | _, .hget _ _ | _, .hgetall _ | _, .existsOnline _ => rfl
  | _, .pipe ws => by
    show (ws.foldl Write.apply s).alive = s.alive
    induction ws generalizing s with
    | nil => rfl
    | cons w ws ih => exact (ih _).trans (by cases w <;> rfl)

/-- No page stops the timer, and none starts it. -/
theorem alive_run {α : Type} (p : Handler α) (s : St) : (Prog.run p s).2.alive = s.alive :=
  Prog.Only.run_inv (I := fun s' => s'.alive = s.alive) (fun _ c s' _ h => (alive_exec s' c).trans h) (Prog.only_any p) rfl

theorem alive_step_iff {s : St} {r : Request} (hscan : Scan s r) :
    (step C r s).alive = true ↔ s.alive = true ∧ Readable C s r := by
  by_cases htick : ∃ keys now, r = .tick keys now
  · obtain ⟨keys, now, rfl⟩ := htick
    cases halive : s.alive with
    | false => simp [step, halive]
    | true =>
      obtain ⟨-, hkeys⟩ := hscan keys now rfl
      obtain ⟨l, -, -, -, hiff⟩ := step_tick (C := C) keys now halive
      rw [hiff]
      constructor
      · rintro h
        refine ⟨rfl, fun keys' now' heq a id hid => ?_⟩
        cases heq
        exact h (a, id) (mem_targets.2 ⟨(hkeys a).2 (List.ne_nil_of_mem hid), hid⟩)
      · rintro ⟨-, h⟩ p hp
        exact h keys now rfl p.1 p.2 (mem_targets.1 hp).2
  · have hreadable : Readable C s r := fun keys now h => absurd ⟨keys, now, h⟩ htick
    have hsame : (step C r s).alive = s.alive := by
      cases r with
      | tick keys now => exact absurd ⟨keys, now, rfl⟩ htick
      | _ => exact alive_run _ s
    rw [hsame, and_iff_left hreadable]

theorem due_step {s : St} (hs : Shelved s) {r : Request} (hscan : Scan s r) : Due C s (step C r s) r := by
  rintro keys now rfl halive' a id hid
  obtain ⟨hnodup, hkeys⟩ := hscan keys now rfl
  have halive : s.alive = true := ((alive_step_iff hscan).1 halive').1
  obtain ⟨l, -, hsame, hall, -⟩ := step_tick (C := C) keys now halive
  obtain rfl := hall halive'
  rw [infoOf, hsame.table, ← infoOf, infoOf_foldl now (hs.nodup_targets hnodup), if_pos]
  exact List.mem_map.2 ⟨(a, id), mem_targets.2 ⟨(hkeys a).2 (List.ne_nil_of_mem hid), hid⟩, rfl⟩

/-- In every run the timer goes on if and only if every round so far could read every activity on a list; and each of its
rounds but a last one that raises has started what was ready and begun, and closed what was started and over. -/
theorem timer_goes_on_iff (rs : List Request) (hscan : All (step C) (fun r s => Scan s r) rs init) :
    ((after (step C) rs init).alive = true ↔ All (step C) (fun r s => Readable C s r) rs init) ∧
      All (step C) (fun r s => Due C s (step C r s) r) rs init := by
  refine ⟨?_, all_of_inv (I := Shelved) (fun r _ _ h => shelved_step h r) (fun _ _ hscan h => due_step h hscan) hscan shelved_init⟩
  have hrun : ∀ (rs : List Request) (s : St), All (step C) (fun r s => Scan s r) rs s →
      ((after (step C) rs s).alive = true ↔ s.alive = true ∧ All (step C) (fun r s => Readable C s r) rs s) := by
    intro rs
    induction rs with
    | nil => simp
    | cons r rs ih =>
      intro s h
      rw [after_cons, ih _ h.2, alive_step_iff h.1, all_cons, and_assoc]
  simpa [init] using hrun rs init hscan

theorem demo_scan : All (step demoConfig) (fun r s => Scan s r) (demoRun ++ [.tick ["2"] 1]) init := by
  refine ⟨(fun _ _ h => nomatch h), (fun _ _ h => nomatch h), (fun _ _ h => nomatch h), (fun _ _ h => nomatch h), ?_, trivial⟩
  rintro keys now h
  obtain ⟨rfl, rfl⟩ := Request.tick.inj h
  refine ⟨by decide, fun a => ?_⟩
  show a ∈ ["2"] ↔ update (fun _ => []) "2" ["1"] a ≠ []
  by_cases ha : a = "2"
  · simp [ha]
  · simp [ha]

theorem timer_goes_on_demo :
    ((after (step demoConfig) (demoRun ++ [.tick ["2"] 1]) init).alive = true ↔
        All (step demoConfig) (fun r s => Readable demoConfig s r) (demoRun ++ [.tick ["2"] 1]) init) ∧
      All (step demoConfig) (fun r s => Due demoConfig s (step demoConfig r s) r) (demoRun ++ [.tick ["2"] 1]) init :=
  timer_goes_on_iff (demoRun ++ [.tick ["2"] 1]) demo_scan

/-- Any agent may delete the table of an activity that another has on his list, and the next round is the last. -/
example :
    (after (step demoConfig) (demoRun ++ [.del "3" "1", .tick ["2"] 1]) init).alive = false := by decide +kernel

end FishWeb.Activity
