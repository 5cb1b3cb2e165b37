import FishWeb.Xxl.Record
/-!
# Calls of a year and of several

A weekly record is found under the number of its week, without the year, and started with a
Monday that is counted from `%w`, where Sunday comes first. So the records are right as long
as no two years meet in a number or in a week, and no week starts with a call of a Sunday.
-/
open Calendar Counters Function

namespace FishWeb.Xxl

/-- A call of `saveXxlRecord` and the day it is made. -/
structure Call where
  now_time : Date
  get_gold : Int
  put_gold : Int
  money : MoneyType
  uid : String

def Call.save (c : Call) : Records → Option Records :=
  Record.saveXxlRecord c.now_time c.get_gold c.put_gold c.money c.uid

def saveAll (calls : List Call) (s : Records) : Option Records := calls.foldlM (fun s c => c.save s) s

/-- No call was made yet. -/
def unsaved (pct : String → Option String) : Records := ⟨fun _ => none, fun _ => none, pct⟩

/-- Calls of one weekly record are those of one week; the record starts with its Monday, and has the sums of the
records of its days. -/
structure Consistent (calls : List Call) (s : Records) : Prop where
  shared : ∀ c ∈ calls, ∀ e ∈ calls,
    c.now_time.weekText = e.now_time.weekText ↔ c.now_time.mondayWeek = e.now_time.mondayWeek
  start : ∀ c ∈ calls, ∃ day, s.start_day c.now_time.weekText = some day ∧ day.date.dayNumber = c.now_time.inWeek 0
  sums : ∀ c ∈ calls, ∀ f, val s.hash (.moneyWeek c.now_time.weekText, f) =
    (c.now_time.weekDates.map fun d => val s.hash (.moneyDay d.isoDate, f)).sum

/-- A call after others: a call of another year had another week and another number, and the call that starts
the record of its week is not made on a Sunday. -/
structure Fits (done : List Call) (c : Call) : Prop where
  years : ∀ e ∈ done, e.now_time.year ≠ c.now_time.year →
    e.now_time.week ≠ c.now_time.week ∧ e.now_time.mondayWeek ≠ c.now_time.mondayWeek
  opening : (∀ e ∈ done, e.now_time.week ≠ c.now_time.week) → c.now_time.weekday ≠ 6

def Fitting (calls : List Call) : Prop := ∀ done c rest, calls = done ++ c :: rest → Fits done c

/-! ## What the calls leave -/

/-- The increments of a call. -/
def Call.pipe (c : Call) : List (Field × Int) :=
  recordPipe ⟨c.now_time.isoDate, c.now_time.weekText⟩ c.get_gold c.put_gold c.money c.uid

/-- What a call adds to a field of each of its records. -/
def Call.amount (c : Call) (f : String) : Int := net c.pipe (.moneyWeek c.now_time.weekText, f)

/-- The start day that a call would give a week. -/
def Call.startDay (c : Call) : Option StartDay := (getNowTimeInfo c.now_time).map Prod.snd

section Call
variable (c : Call)

theorem net_week (w f : String) :
    net c.pipe (.moneyWeek w, f) = if c.now_time.weekText = w then c.amount f else 0 := by
  by_cases hw : c.now_time.weekText = w
  · rw [if_pos hw, Call.amount, hw]
  · rw [if_neg hw]
    refine net_eq_zero fun p hp => ?_
    simp only [Call.pipe, recordPipe, List.mem_append] at hp
    rcases hp with hp | hp <;> split at hp <;> simp at hp <;> rcases hp with rfl | rfl | rfl <;> simp [hw]

theorem net_day (t f : String) :
    net c.pipe (.moneyDay t, f) = if c.now_time.isoDate = t then c.amount f else 0 := by
  by_cases ht : c.now_time.isoDate = t
  · subst ht
    rw [if_pos rfl]
    simp only [Call.amount, Call.pipe, recordPipe, net_append]
    by_cases hg : c.get_gold = 0 <;> by_cases hp : c.put_gold = 0 <;> simp [hg, hp, net]
  · rw [if_neg ht]
    refine net_eq_zero fun p hp => ?_
    simp only [Call.pipe, recordPipe, List.mem_append] at hp
    rcases hp with hp | hp <;> split at hp <;> simp at hp <;> rcases hp with rfl | rfl | rfl <;> simp [ht]

theorem startDay_eq : ∃ day, c.startDay = some day ∧
    day.date.dayNumber = if c.now_time.weekday = 6 then c.now_time.dayNumber + 1 else c.now_time.inWeek 0 := by
  obtain ⟨day, hinfo, hnum⟩ := getNowTimeInfo_eq c.now_time
  exact ⟨day, by rw [Call.startDay, hinfo]; rfl, hnum⟩

/-- The week's record that a call writes has a field, if only its start day. -/
theorem save_eq (s : Records) : c.save s = some { s with
    start_day := if s.noWeek c.now_time.weekText then update s.start_day c.now_time.weekText c.startDay else s.start_day,
    hash := incrAll c.pipe s.hash } := by
  obtain ⟨day, hinfo, -⟩ := getNowTimeInfo_eq c.now_time
  simp [Call.save, Record.saveXxlRecord, Call.startDay, hinfo, Call.pipe]

theorem pipe_week {w f : String} (h : c.now_time.weekText ≠ w) (t : Table Field) :
    incrAll c.pipe t (.moneyWeek w, f) = t (.moneyWeek w, f) := by
  refine incrAll_other (fun p hp => ?_) t
  simp only [Call.pipe, recordPipe, List.mem_append] at hp
  rcases hp with hp | hp <;> split at hp <;> simp at hp <;> rcases hp with rfl | rfl | rfl <;> simp [h]

end Call

/-- The records after the calls `done`. -/
structure Saved (done : List Call) (s : Records) : Prop where
  hash : s.hash = incrAll (done.flatMap Call.pipe) fun _ => none
  start : ∀ w, s.start_day w = (done.find? (·.now_time.weekText = w)).bind Call.startDay
  absent : ∀ w f, s.start_day w = none → s.hash (.moneyWeek w, f) = none

theorem Saved.save {done : List Call} {s : Records} (h : Saved done s) (c : Call) :
    ∃ s', c.save s = some s' ∧ Saved (done ++ [c]) s' := by
  obtain ⟨day, hday, -⟩ := startDay_eq c
  have hno : s.noWeek c.now_time.weekText = (s.start_day c.now_time.weekText).isNone := by
    cases hstart : s.start_day c.now_time.weekText with
    | none => simp [Records.noWeek, hstart, h.absent _ _ hstart]
    | some d => simp [Records.noWeek, hstart]
  refine ⟨_, save_eq c s, ?_, fun w => ?_, fun w f => ?_⟩
  · simp [h.hash, incrAll_append]
  · simp only [hno, List.find?_append, List.find?_singleton]
    by_cases hw : c.now_time.weekText = w
    · subst hw
      have hfound := h.start c.now_time.weekText
      cases hfind : done.find? (·.now_time.weekText = c.now_time.weekText) with
      | none =>
        rw [hfind] at hfound
        simp [hfound]
      | some e =>
        -- an earlier call has started the record
        obtain ⟨day', hday', -⟩ := startDay_eq e
        rw [hfind, Option.bind_some, hday'] at hfound
        simp [hfound, hday']
    · have hsame : (if (s.start_day c.now_time.weekText).isNone = true then
          update s.start_day c.now_time.weekText c.startDay else s.start_day) w = s.start_day w := by
        split
        · exact update_of_ne (Ne.symm hw) _ _
        · rfl
      rw [hsame, h.start w]
      simp [hw]
  · simp only [hno]
    intro hnone
    have hw : c.now_time.weekText ≠ w := by
      rintro rfl
      cases hstart : s.start_day c.now_time.weekText with
      | none => simp [hstart, hday] at hnone
      | some d => simp [hstart] at hnone
    rw [pipe_week c hw]
    refine h.absent w f ?_
    split at hnone
    · rwa [update_of_ne (Ne.symm hw)] at hnone
    · exact hnone

theorem saveAll_saved (pct : String → Option String) (calls : List Call) :
    ∃ s, saveAll calls (unsaved pct) = some s ∧ Saved calls s := by
  have hrun : ∀ rest done s, Saved done s → ∃ s', saveAll rest s = some s' ∧ Saved (done ++ rest) s' := by
    intro rest
    induction rest with
    | nil => exact fun done s h => ⟨s, rfl, by rwa [List.append_nil]⟩
    | cons c rest ih =>
      intro done s h
      obtain ⟨s', hc, h'⟩ := h.save c
      obtain ⟨s'', hrest, h''⟩ := ih (done ++ [c]) s' h'
      refine ⟨s'', ?_, by rwa [List.append_assoc] at h''⟩
      rw [saveAll, List.foldlM_cons, hc]
      exact hrest
  exact hrun calls [] (unsaved pct) ⟨rfl, fun w => rfl, fun w f _ => rfl⟩

/-! ## Sums -/

theorem net_flatMap (calls : List Call) (k : Field) : net (calls.flatMap Call.pipe) k = (calls.map fun c => net c.pipe k).sum := by
  induction calls with
  | nil => rfl
  | cons c calls ih => rw [List.flatMap_cons, net_append, ih, List.map_cons, List.sum_cons]

section Saved
variable {calls : List Call} {s : Records}

theorem Saved.week_sum (h : Saved calls s) (w f : String) :
    val s.hash (.moneyWeek w, f) = (calls.map fun c => if c.now_time.weekText = w then c.amount f else 0).sum := by
  rw [h.hash, val_incrAll, net_flatMap]
  simp [net_week, val]

theorem Saved.day_sum (h : Saved calls s) (t f : String) :
    val s.hash (.moneyDay t, f) = (calls.map fun c => if c.now_time.isoDate = t then c.amount f else 0).sum := by
  rw [h.hash, val_incrAll, net_flatMap]
  simp [net_day, val]

theorem sum_dates {ds : List Date} (hnd : ds.Nodup) (d : Date) (x : Int) :
    (ds.map fun e => if d.isoDate = e.isoDate then x else 0).sum = if d ∈ ds then x else 0 := by
  induction ds with
  | nil => rfl
  | cons e ds ih =>
    obtain ⟨he, hnd⟩ := List.nodup_cons.1 hnd
    rw [List.map_cons, List.sum_cons, ih hnd]
    by_cases hde : d = e
    · subst hde
      simp [he]
    · have hiso : d.isoDate ≠ e.isoDate := fun h => hde (Date.isoDate_injective h)
      simp [hde, hiso]

/-- The days of a week add up to its calls. -/
theorem Saved.days_sum (h : Saved calls s) (d : Date) (f : String) :
    (d.weekDates.map fun e => val s.hash (.moneyDay e.isoDate, f)).sum =
      (calls.map fun c => if c.now_time.mondayWeek = d.mondayWeek then c.amount f else 0).sum := by
  simp only [h.day_sum]
  clear h
  induction calls with
  | nil => simp
  | cons c calls ih =>
    simp only [List.map_cons, List.sum_cons, List.sum_map_add, ih]
    rw [sum_dates d.nodup_weekDates]
    simp only [Date.mem_weekDates]

end Saved

/-! ## Runs that fit -/

section Fitting
variable {calls done : List Call} {s : Records}

theorem Fitting.before (h : Fitting calls) {rest : List Call} (hcalls : calls = done ++ rest) : Fitting done :=
  fun first c last hdone => h first c (last ++ rest) (by rw [hcalls, hdone, List.append_assoc]; rfl)

/-- Calls of two years have different weeks, and different numbers of their weeks. -/
theorem Fitting.years (h : Fitting calls) {c e : Call} (hc : c ∈ calls) (he : e ∈ calls)
    (hyear : c.now_time.year ≠ e.now_time.year) :
    c.now_time.week ≠ e.now_time.week ∧ c.now_time.mondayWeek ≠ e.now_time.mondayWeek := by
  obtain ⟨first, last, rfl⟩ := List.append_of_mem hc
  rcases List.mem_append.1 he with he | he
  · obtain ⟨hweek, hmonday⟩ := (h first c last rfl).years e he (Ne.symm hyear)
    exact ⟨Ne.symm hweek, Ne.symm hmonday⟩
  · rcases List.mem_cons.1 he with rfl | he
    · exact absurd rfl hyear
    · obtain ⟨between, last, rfl⟩ := List.append_of_mem he
      exact (h (first ++ c :: between) e last (by simp)).years c (by simp) hyear

theorem Fitting.shared (h : Fitting calls) {c e : Call} (hc : c ∈ calls) (he : e ∈ calls) :
    c.now_time.weekText = e.now_time.weekText ↔ c.now_time.mondayWeek = e.now_time.mondayWeek := by
  rw [Date.weekText_eq_iff]
  by_cases hyear : c.now_time.year = e.now_time.year
  · exact Date.week_iff hyear
  · obtain ⟨hweek, hmonday⟩ := h.years hc he hyear
    exact iff_of_false hweek hmonday

theorem Fitting.consistent (h : Fitting calls) (hs : Saved calls s) : Consistent calls s where
  shared c hc e he := h.shared hc he
  start c hc := by
    have hsome : (calls.find? (·.now_time.weekText = c.now_time.weekText)).isSome := by
      rw [List.find?_isSome]
      exact ⟨c, hc, decide_eq_true rfl⟩
    obtain ⟨e, hfind⟩ := Option.isSome_iff_exists.1 hsome
    obtain ⟨htext, first, last, hcalls, hfirst⟩ := List.find?_eq_some_iff_append.1 hfind
    have hweek : e.now_time.weekText = c.now_time.weekText := of_decide_eq_true htext
    have he : e ∈ calls := List.mem_of_find?_eq_some hfind
    have hopening : e.now_time.weekday ≠ 6 := (h first e last hcalls).opening fun e' he' hsame => by
      have := hfirst e' he'
      rw [Date.weekText_eq_iff.2 hsame, hweek] at this
      simp at this
    obtain ⟨day, hday, hnum⟩ := startDay_eq e
    refine ⟨day, by rw [hs.start, hfind, Option.bind_some, hday], ?_⟩
    rw [hnum, if_neg hopening, Date.inWeek, Date.inWeek, (h.shared he hc).1 hweek]
  sums c hc f := by
    rw [hs.week_sum, hs.days_sum]
    congr 1
    refine List.map_congr_left fun e he => ?_
    simp only [h.shared he hc]

/-- A call after which the records are still right did fit. -/
theorem fits_of_consistent {c : Call} (h : Consistent (done ++ [c]) s) (hs : Saved (done ++ [c]) s) : Fits done c where
  years e he hyear := by
    have hshared := h.shared e (List.mem_append_left [c] he) c (List.mem_append_right done (List.mem_singleton_self c))
    rw [Date.weekText_eq_iff] at hshared
    have hmonday : e.now_time.mondayWeek ≠ c.now_time.mondayWeek := fun hm => Date.week_ne hyear hm (hshared.2 hm)
    exact ⟨fun hweek => hmonday (hshared.1 hweek), hmonday⟩
  opening hno hsunday := by
    obtain ⟨day, hstart, hnum⟩ := h.start c (List.mem_append_right done (List.mem_singleton_self c))
    have hfind : (done ++ [c]).find? (·.now_time.weekText = c.now_time.weekText) = some c := by
      rw [List.find?_append, List.find?_eq_none.2 fun e he => ?_]
      · simp
      · simpa [Date.weekText_eq_iff] using hno e he
    obtain ⟨day', hday', hnum'⟩ := startDay_eq c
    rw [hs.start, hfind, Option.bind_some, hday'] at hstart
    obtain rfl := Option.some.inj hstart
    -- on a Sunday the start day is the day after it
    rw [if_pos hsunday, hnum] at hnum'
    have hwd := c.now_time.inWeek_weekday
    unfold Date.inWeek at hnum' hwd
    omega

end Fitting

/-- A Sunday of one year, and a week of the next one with the same number. -/
def twoYears : List Call :=
  [⟨⟨2018, 13, by decide⟩, 100, 0, .GOLD, "7"⟩, ⟨⟨2019, 15, by decide⟩, 200, 0, .GOLD, "7"⟩]

end FishWeb.Xxl
