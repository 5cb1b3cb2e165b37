import Mathlib.Tactic.Common
import FishWeb.Lib.Python
/-!
# Dates

The calendar of Python's `datetime`: a date is a year and a day of it, days are
counted from the first of January of year 1, a Monday, and `%W` counts the weeks
of a year from its first Monday. `strptimeWeek` is
`strptime('%s, %s, %s' % (year, week, weekday), '%Y, %W, %a')`, which may leave the
year at either end. The last year of `datetime` is left out.
-/

namespace Calendar

def isLeap (y : Nat) : Bool := y % 4 = 0 ∧ (y % 100 ≠ 0 ∨ y % 400 = 0)

def yearDays (y : Nat) : Nat := if isLeap y then 366 else 365

/-- The days before the first of January of year `y`. -/
def daysBefore (y : Nat) : Nat := 365 * (y - 1) + (y - 1) / 4 - (y - 1) / 100 + (y - 1) / 400

theorem daysBefore_succ {y : Nat} (hy : 1 ≤ y) : daysBefore (y + 1) = daysBefore y + yearDays y := by
  -- each kind of leap day is counted when its year is over
  have h4 : y / 4 = (y - 1) / 4 + if y % 4 = 0 then 1 else 0 := by split <;> omega
  have h100 : y / 100 = (y - 1) / 100 + if y % 100 = 0 then 1 else 0 := by split <;> omega
  have h400 : y / 400 = (y - 1) / 400 + if y % 400 = 0 then 1 else 0 := by split <;> omega
  have hdvd : (y % 100 = 0 → y % 4 = 0) ∧ (y % 400 = 0 → y % 100 = 0) := by omega
  have hle : (y - 1) / 100 ≤ (y - 1) / 4 := Nat.div_le_div_left (by decide) (by decide)
  unfold daysBefore yearDays isLeap
  rw [Nat.add_sub_cancel, h4, h100, h400]
  generalize (y - 1) / 4 = a, (y - 1) / 100 = b, (y - 1) / 400 = c at *
  by_cases h1 : y % 4 = 0 <;> by_cases h2 : y % 100 = 0 <;> by_cases h3 : y % 400 = 0 <;> simp [h1, h2, h3] at hdvd ⊢ <;> omega

theorem yearDays_pos (y : Nat) : 365 ≤ yearDays y := by
  unfold yearDays
  split <;> omega

theorem daysBefore_mono {y z : Nat} (hy : 1 ≤ y) (h : y < z) : daysBefore y + yearDays y ≤ daysBefore z := by
  induction z, h using Nat.le_induction with
  | base => exact (daysBefore_succ hy).ge
  | succ z hz ih =>
    rw [daysBefore_succ (by omega)]
    omega

/-- A day, counted from 0 in its year. -/
@[ext] structure Date where
  year : Nat
  yday : Nat
  valid : 1 ≤ year ∧ yday < yearDays year
  deriving DecidableEq, Repr

namespace Date

/-- `toordinal() - 1` -/
def dayNumber (d : Date) : Nat := daysBefore d.year + d.yday

theorem dayNumber_lt {d e : Date} (h : d.year < e.year) : d.dayNumber < e.dayNumber := by
  have := daysBefore_mono d.valid.1 h
  have := d.valid.2
  unfold dayNumber
  omega

theorem dayNumber_injective {d e : Date} (h : d.dayNumber = e.dayNumber) : d = e := by
  have hyear : d.year = e.year := by
    rcases Nat.lt_trichotomy d.year e.year with hlt | heq | hgt
    · exact absurd h (dayNumber_lt hlt).ne
    · exact heq
    · exact absurd h (dayNumber_lt hgt).ne'
  have hyday : d.yday = e.yday := by
    unfold dayNumber at h
    rw [hyear] at h
    omega
  exact Date.ext hyear hyday

instance : LT Date := ⟨fun d e => d.dayNumber < e.dayNumber⟩

instance (d e : Date) : Decidable (d < e) := inferInstanceAs (Decidable (d.dayNumber < e.dayNumber))

/-- `weekday()`: Monday is 0. -/
def weekday (d : Date) : Nat := d.dayNumber % 7

/-- `strftime('%W')`: the days before the first Monday are in week 0. -/
def week (d : Date) : Nat := (d.yday + 7 - d.weekday) / 7

/-- Which week from Monday to Sunday, counted from year 1. -/
def mondayWeek (d : Date) : Nat := d.dayNumber / 7

/-- The lengths of the months. -/
def months (y : Nat) : List Nat := [31, if isLeap y then 29 else 28, 31, 30, 31, 30, 31, 31, 30, 31, 30, 31]

/-- How many of the months are over on the day. -/
def monthsOver : List Nat → Nat → Nat
  | [], _ => 0
  | m :: ms, n => if n < m then 0 else monthsOver ms (n - m) + 1

/-- `strftime('%Y-%m')` -/
def month (d : Date) : Nat × Nat := (d.year, monthsOver (months d.year) d.yday + 1)

end Date

/-- The day of the year that `strptime` computes; it may be negative, or past the end. -/
def julian (year week weekday : Nat) : Int :=
  let first_weekday := daysBefore year % 7
  let week_0_length := (7 - first_weekday) % 7
  if week = 0 then (weekday : Int) - first_weekday else week_0_length + 7 * ((week : Int) - 1) + weekday

/-- The day `n` of the year, in this year or a neighbour of it. -/
def ofYearDay (year : Nat) (n : Int) : Option Date :=
  if hy : 1 ≤ year then
    if n < 0 then
      if h : 1 ≤ year - 1 ∧ (yearDays (year - 1) + n).toNat < yearDays (year - 1) then
        some ⟨year - 1, (yearDays (year - 1) + n).toNat, h⟩
      else none
    else if h : n.toNat < yearDays year then some ⟨year, n.toNat, hy, h⟩
    else if h : n.toNat - yearDays year < yearDays (year + 1) then some ⟨year + 1, n.toNat - yearDays year, by omega, h⟩
    else none
  else none

/-- `strptime('%s, %s, %s' % (year, week, weekday), '%Y, %W, %a').date()`; `none` is its `ValueError`. -/
def strptimeWeek (year week weekday : Nat) : Option Date := ofYearDay year (julian year week weekday)

/-- The day number of the `k`-th day of the week of a date, from Monday. -/
def Date.inWeek (d : Date) (k : Nat) : Nat := 7 * d.mondayWeek + k

theorem Date.inWeek_weekday (d : Date) : d.inWeek d.weekday = d.dayNumber := Nat.div_add_mod d.dayNumber 7

theorem Date.weekday_of_inWeek {d e : Date} {k : Nat} (hk : k < 7) (h : e.dayNumber = d.inWeek k) : e.weekday = k := by
  unfold Date.weekday
  rw [h, Date.inWeek]
  omega

theorem Date.mondayWeek_of_inWeek {d e : Date} {k : Nat} (hk : k < 7) (h : e.dayNumber = d.inWeek k) :
    e.mondayWeek = d.mondayWeek := by
  unfold Date.inWeek at h
  unfold Date.mondayWeek at h ⊢
  omega

/-- The days of a week that lie in one year have one week number. -/
theorem Date.week_eq {d e : Date} (hyear : d.year = e.year) (hweek : d.mondayWeek = e.mondayWeek) : d.week = e.week := by
  unfold Date.week Date.weekday
  unfold Date.mondayWeek at hweek
  have hd : d.dayNumber = daysBefore d.year + d.yday := rfl
  have he : e.dayNumber = daysBefore d.year + e.yday := by rw [hyear]; rfl
  omega

theorem daysBefore_one : daysBefore 1 = 0 := by decide

/-- Counted from its year, a day of the week of `d` is where `strptime` looks for it. -/
theorem julian_eq (d : Date) (k : Nat) : daysBefore d.year + julian d.year d.week k = d.inWeek k := by
  unfold julian Date.week Date.weekday Date.inWeek Date.mondayWeek Date.dayNumber
  generalize daysBefore d.year = b
  generalize d.yday = y
  -- week 0 is cut off by the first of January, the others are whole
  rcases Nat.lt_or_ge y ((b + y) % 7) with hcut | hwhole
  · have hweek : (y + 7 - (b + y) % 7) / 7 = 0 := by omega
    rw [hweek, if_pos rfl]
    omega
  · have hweek : (y + 7 - (b + y) % 7) / 7 ≠ 0 := by omega
    rw [if_neg hweek]
    omega

theorem ofYearDay_eq {year : Nat} (hy : 1 ≤ year) {n : Int} (hlow : 0 ≤ daysBefore year + n)
    (hprev : -365 ≤ n) (hnext : n < yearDays year + 365) :
    ∃ e, ofYearDay year n = some e ∧ (e.dayNumber : Int) = daysBefore year + n := by
  unfold ofYearDay
  rw [dif_pos hy]
  have hlen := yearDays_pos (year - 1)
  have hlen' := yearDays_pos (year + 1)
  split
  · next hneg =>
    have hone : 1 ≤ year - 1 := by
      by_contra h
      have : year = 1 := by omega
      subst this
      rw [daysBefore_one] at hlow
      omega
    have hbefore := daysBefore_succ hone
    rw [Nat.sub_add_cancel hy] at hbefore
    rw [dif_pos ⟨hone, by omega⟩]
    refine ⟨_, rfl, ?_⟩
    simp only [Date.dayNumber]
    omega
  · split
    · refine ⟨_, rfl, ?_⟩
      simp only [Date.dayNumber]
      omega
    · next hpos hover =>
      rw [dif_pos (by omega)]
      refine ⟨_, rfl, ?_⟩
      simp only [Date.dayNumber, daysBefore_succ hy]
      omega

/-- The date that `strptime` makes of this year, this week and a weekday is the one in the week of `d`, whichever year
it lies in. -/
theorem strptimeWeek_eq (d : Date) {k : Nat} (hk : k < 7) :
    ∃ e, strptimeWeek d.year d.week k = some e ∧ e.dayNumber = d.inWeek k := by
  have hj := julian_eq d k
  have hweek : d.inWeek k < d.dayNumber + 7 ∧ d.dayNumber < d.inWeek k + 7 := by
    unfold Date.inWeek Date.mondayWeek
    omega
  have hday : d.dayNumber = daysBefore d.year + d.yday := rfl
  have hv := d.valid
  have := yearDays_pos d.year
  obtain ⟨e, he, hnum⟩ := ofYearDay_eq hv.1 (n := julian d.year d.week k) (by omega) (by omega) (by omega)
  exact ⟨e, he, by omega⟩

/-! ## `%Y-%m-%d` -/

/-- One or two digits. -/
def twoDigits (cs : List Char) : Option Nat := if cs.length ≤ 2 then Python.digits cs else none

/-- One or two digits, the first of two may be a blank. -/
def dayDigits : List Char → Option Nat
  | [' ', c] => twoDigits [c]
  | cs => twoDigits cs

/-- `date(y, m, d)` -/
def ofMonthDay (y m d : Nat) : Option Date :=
  let n := ((Date.months y).take (m - 1)).sum + (d - 1)
  if 1 ≤ m ∧ 1 ≤ d ∧ d ≤ (Date.months y).getD (m - 1) 0 then
    if h : 1 ≤ y ∧ n < yearDays y then some ⟨y, n, h⟩ else none
  else none

/-- `strptime(s, '%Y-%m-%d')`; `none` is its `ValueError`. -/
def strptime (s : String) : Option Date :=
  match Python.splitChars '-' s.toList with
  | [y, m, d] => do
    let y ← if y.length = 4 then Python.digits y else none
    ofMonthDay y (← twoDigits m) (← dayDigits d)
  | _ => none

example : (strptime "2024-12-30").map (fun d => (d.weekday, d.week, d.month)) = some (0, 53, 2024, 12) := by decide

end Calendar
