import FishWeb.Lib.Months
/-!
# The honour log between two days

`get_xiaoxiaole_log` of `model/xiaoxiaoleModel.py`. The query ends at midnight of the day
after the last one, which it takes in, and that day is computed from numbers: after the
last of December there is none, and a year before 1000 is no longer read (`log_right_iff`).

A row of `xxlHonorBill` is its `date` and its `uid`; the other columns are only handed on.
-/
open Calendar Python

namespace FishWeb.Xxl

/-! ## Times -/

/-- A `datetime`: the day and what of it has passed. -/
structure Stamp where
  day : Date
  time : Nat
  deriving Repr, DecidableEq

namespace Stamp

instance : LE Stamp := ⟨fun s t => s.day < t.day ∨ s.day = t.day ∧ s.time ≤ t.time⟩

instance (s t : Stamp) : Decidable (s ≤ t) := inferInstanceAs (Decidable (_ ∨ _))

/-- What `strptime` makes of a date: its first moment. -/
def midnight (d : Date) : Stamp := ⟨d, 0⟩

theorem midnight_le {d : Date} {s : Stamp} : midnight d ≤ s ↔ d.dayNumber ≤ s.day.dayNumber := by
  constructor
  · rintro (hlt | ⟨rfl, -⟩)
    · exact Nat.le_of_lt hlt
    · exact Nat.le_refl _
  · intro hle
    rcases Nat.eq_or_lt_of_le hle with heq | hlt
    · exact .inr ⟨Date.dayNumber_injective heq, Nat.zero_le _⟩
    · exact .inl hlt

theorem le_midnight {d : Date} {s : Stamp} : s ≤ midnight d ↔ s.day.dayNumber < d.dayNumber ∨ s = midnight d := by
  refine or_congr Iff.rfl ?_
  constructor
  · rintro ⟨hday, htime⟩
    cases s
    cases hday
    cases Nat.le_zero.1 htime
    rfl
  · rintro rfl
    exact ⟨rfl, Nat.le_refl _⟩

end Stamp

/-! ## The log -/

/-- A row of `xxlHonorBill`. -/
structure Bill where
  date : Stamp
  uid : String
  deriving Repr, DecidableEq

/-- `calendar.monthrange(year, mon)[1]`; `none` is its exception. -/
def monthrange (year mon : Int) : Option Int :=
  if 1 ≤ mon ∧ mon ≤ 12 ∧ 1 ≤ year ∧ year ≤ 9999 then some ((Date.months year.toNat).getD (mon.toNat - 1) 0) else none

/-- The end of the query; `none` is an exception. -/
def endOf (endDate : String) : Option Date := do
  match ← (split '-' endDate).mapM int with
  | [year, mon, day] =>
    let last ← monthrange year mon
    let (mon, day) := if day ≠ last then (mon, day + 1) else (mon + 1, 1)
    strptime (toString year ++ "-" ++ toString mon ++ "-" ++ toString day)
  | _ => none

/-- `get_xiaoxiaole_log` on the rows of the table; `none` is an exception. -/
def getXiaoxiaoleLog (bills : List Bill) (startDate endDate uid : String) : Option (List Bill) := do
  let answers ←
    if startDate ≠ "" ∧ endDate ≠ "" then do
      let startDate ← strptime startDate
      let endDate ← endOf endDate
      some (bills.filter fun b => Stamp.midnight startDate ≤ b.date ∧ b.date ≤ Stamp.midnight endDate ∧ (uid = "" ∨ b.uid = uid))
    else some (bills.filter fun b => uid = "" ∨ b.uid = uid)
  return answers.reverse

/-! ## The end of the query -/

theorem monthrange_eq {d : Date} (h : d.year ≤ 9999) : monthrange d.year d.month.2 = some (d.monthDays : Int) := by
  have hone : 1 ≤ d.month.2 := Nat.le_add_left 1 _
  have htwelve := d.month_le
  have hv := d.valid.1
  rw [monthrange, if_pos ⟨by omega, by omega, by omega, by omega⟩]
  rfl

theorem int_pad {w n : Nat} : int (String.ofList (pad w n)) = some (n : Int) := by
  have hdigit : ∀ c ∈ (String.ofList (pad w n)).toList, c.isDigit = true := by
    rw [String.toList_ofList]
    exact fun c hc => isDigit_of_mem_pad hc
  have hdigits : digits (String.ofList (pad w n)).toList = some n := by rw [String.toList_ofList, digits_pad]
  have hne : (String.ofList (pad w n)).toList ≠ [] := by
    intro h
    rw [h] at hdigits
    cases hdigits
  rw [int_of_isDigit hne hdigit]
  unfold digits at hdigits
  rw [if_pos ⟨hne, List.all_eq_true.2 hdigit⟩] at hdigits
  exact congrArg some (congrArg Int.ofNat (Option.some.inj hdigits))

theorem mapM_isoDate (d : Date) : (split '-' d.isoDate).mapM int = some [(d.year : Int), (d.month.2 : Int), (d.day : Int)] := by
  have hdash : ∀ w n, '-' ∉ pad w n := fun w n hmem => absurd (isDigit_of_mem_pad hmem) (by decide)
  have hparts : split '-' d.isoDate = [String.ofList (pad 4 d.year), String.ofList (pad 2 d.month.2), String.ofList (pad 2 d.day)] := by
    rw [split, Date.isoDate, String.toList_ofList, splitChars_append (hdash 4 _), splitChars_append (hdash 2 _), splitChars_eq (hdash 2 _)]
    rfl
  rw [hparts]
  simp [int_pad]

/-- The end is the next day, but for two kinds of dates. -/
theorem endOf_isoDate {d : Date} (h : d.year ≤ 9999) :
    endOf d.isoDate = if 1000 ≤ d.year ∧ ¬(d.month.2 = 12 ∧ d.day = 31) then some d.next else none := by
  have hmonth := d.month_le
  have hday := d.day_le
  have hlast : d.monthDays ≤ 31 := Date.months_le _ _
  have htext : ∀ m n : Nat, m < 100 → n < 100 →
      strptime (toString (d.year : Int) ++ "-" ++ toString (m : Int) ++ "-" ++ toString (n : Int)) =
        if 1000 ≤ d.year then ofMonthDay d.year m n else none := by
    intro m n hm hn
    rw [show toString (d.year : Int) ++ "-" ++ toString (m : Int) ++ "-" ++ toString (n : Int) =
      toString d.year ++ "-" ++ toString m ++ "-" ++ toString n from rfl, strptime_numbers hm hn]
    simp only [h, and_true]
  have hend : endOf d.isoDate = if d.day ≠ d.monthDays then
      if 1000 ≤ d.year then ofMonthDay d.year d.month.2 (d.day + 1) else none
      else if 1000 ≤ d.year then ofMonthDay d.year (d.month.2 + 1) 1 else none := by
    rw [← htext _ _ (by omega) (by omega), ← htext _ _ (by omega) (by decide), endOf, mapM_isoDate, Option.bind_eq_bind, Option.bind_some]
    dsimp only
    rw [monthrange_eq h, Option.bind_eq_bind, Option.bind_some]
    by_cases hd : d.day = d.monthDays
    · rw [if_neg (not_not.2 hd), if_neg (not_not.2 (congrArg Nat.cast hd))]
      rfl
    · rw [if_pos hd, if_pos fun heq => hd (Int.ofNat_inj.1 heq)]
      rfl
  rw [hend]
  by_cases hyear : 1000 ≤ d.year
  · rw [if_pos hyear, if_pos hyear]
    by_cases hd : d.day = d.monthDays
    · rw [if_neg (not_not.2 hd)]
      by_cases hm : d.month.2 = 12
      · -- there is no month 13
        have h31 : d.day = 31 := hd.trans (Date.monthDays_december hm)
        rw [if_neg fun hand => hand.2 ⟨hm, h31⟩, hm]
        rfl
      · rw [ofMonthDay_month_succ hd hm, if_pos ⟨hyear, fun hand => hm hand.1⟩]
    · have hnot : ¬(d.month.2 = 12 ∧ d.day = 31) := fun hand => hd (by rw [hand.2, Date.monthDays_december hand.1])
      rw [if_pos hd, ofMonthDay_day_succ hd, if_pos ⟨hyear, hnot⟩]
  · rw [if_neg hyear, if_neg hyear, ite_self, if_neg fun hand : _ ∧ _ => hyear hand.1]

/-! ## What it shows -/

/-- The row lies on one of the days. -/
def Bill.OnDays (b : Bill) (start last : Date) : Prop :=
  start.dayNumber ≤ b.date.day.dayNumber ∧ b.date.day.dayNumber ≤ last.dayNumber

instance (b : Bill) (start last : Date) : Decidable (b.OnDays start last) := inferInstanceAs (Decidable (_ ∧ _))

/-- The log of the days is shown: of everybody, or of a user. -/
def Right (bills : List Bill) (start last : Date) (uid : String) : Prop :=
  getXiaoxiaoleLog bills start.isoDate last.isoDate uid =
    some (bills.filter fun b => b.OnDays start last ∧ (uid = "" ∨ b.uid = uid)).reverse

theorem isoDate_ne (d : Date) : d.isoDate ≠ "" := by
  intro h
  have hlist := congrArg String.toList h
  rw [Date.isoDate, String.toList_ofList] at hlist
  exact absurd (List.append_eq_nil_iff.1 hlist).2 (List.cons_ne_nil _ _)

theorem getXiaoxiaoleLog_isoDate {start last : Date} (hle : start.dayNumber ≤ last.dayNumber) (hyear : last.year ≤ 9999)
    (bills : List Bill) (uid : String) :
    getXiaoxiaoleLog bills start.isoDate last.isoDate uid =
      if 1000 ≤ last.year ∧ ¬(last.month.2 = 12 ∧ last.day = 31) then
        some (bills.filter fun b => Stamp.midnight start ≤ b.date ∧ b.date ≤ Stamp.midnight last.next ∧ (uid = "" ∨ b.uid = uid)).reverse
      else none := by
  have hstart : start.year ≤ 9999 := by
    by_contra h
    exact absurd (Date.dayNumber_lt (d := last) (e := start) (by omega)) (by omega)
  unfold getXiaoxiaoleLog
  rw [if_pos ⟨isoDate_ne _, isoDate_ne _⟩, strptime_isoDate hstart, endOf_isoDate hyear]
  split <;> rfl

instance (bills : List Bill) (start last : Date) (uid : String) : Decidable (Right bills start last uid) :=
  inferInstanceAs (Decidable (_ = _))

/-- For every table and every two days of `datetime`: the log of the days is shown exactly when the last is neither
before the year 1000 nor a last of December, and no row that is asked for is of the midnight after it. -/
theorem log_right_iff {start last : Date} (hle : start.dayNumber ≤ last.dayNumber) (hyear : last.year ≤ 9999)
    (bills : List Bill) (uid : String) :
    Right bills start last uid ↔ (1000 ≤ last.year ∧ ¬(last.month.2 = 12 ∧ last.day = 31)) ∧
      ∀ b ∈ bills, (uid = "" ∨ b.uid = uid) → b.date ≠ Stamp.midnight last.next := by
  unfold Right
  rw [getXiaoxiaoleLog_isoDate hle hyear]
  by_cases hend : 1000 ≤ last.year ∧ ¬(last.month.2 = 12 ∧ last.day = 31)
  · rw [if_pos hend, and_iff_right hend, Option.some_inj, List.reverse_inj]
    have hnext := last.dayNumber_next
    constructor
    · intro hsame b hb huid heq
      -- such a row is selected, and lies on the day after the last one
      have hselected : b ∈ bills.filter fun b =>
          Stamp.midnight start ≤ b.date ∧ b.date ≤ Stamp.midnight last.next ∧ (uid = "" ∨ b.uid = uid) := by
        refine List.mem_filter.2 ⟨hb, decide_eq_true ⟨Stamp.midnight_le.2 ?_, Stamp.le_midnight.2 (.inr heq), huid⟩⟩
        rw [heq]
        show start.dayNumber ≤ last.next.dayNumber
        omega
      rw [hsame] at hselected
      have hlast := (of_decide_eq_true (List.mem_filter.1 hselected).2).1.2
      rw [heq] at hlast
      have : last.next.dayNumber ≤ last.dayNumber := hlast
      omega
    · intro hnone
      refine List.filter_congr fun b hb => decide_eq_decide.2 ?_
      rw [Stamp.midnight_le, Stamp.le_midnight, hnext, Nat.lt_succ_iff]
      unfold Bill.OnDays
      constructor
      · rintro ⟨hstart, hlast | heq, huid⟩
        · exact ⟨⟨hstart, hlast⟩, huid⟩
        · exact absurd heq (hnone b hb huid)
      · rintro ⟨⟨hstart, hlast⟩, huid⟩
        exact ⟨hstart, .inl hlast, huid⟩
  · rw [if_neg hend]
    exact ⟨fun h => (nomatch h), fun h => absurd h.1 hend⟩

/-- The log of a day is shown, with a row of its last second and without one of the day after. -/
theorem log_right_march : Right [⟨⟨⟨2018, 59, by decide⟩, 86399⟩, "7"⟩, ⟨⟨⟨2018, 60, by decide⟩, 1⟩, "7"⟩]
    ⟨2018, 59, by decide⟩ ⟨2018, 59, by decide⟩ "" :=
  (log_right_iff (Nat.le_refl _) (by decide) _ _).2 ⟨by decide, by decide⟩

/-- On the last of December an exception is raised. -/
theorem log_december : ¬Right [] ⟨2018, 364, by decide⟩ ⟨2018, 364, by decide⟩ "" := by decide +kernel

end FishWeb.Xxl
