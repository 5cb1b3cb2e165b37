import FishWeb.Lib.Weeks
import Mathlib.Logic.Function.Iterate
/-!
# Days one after another

A day and the day after it, and the dates that `while first <= last` goes through. The days
of a month have its first day before them, and its number of the day tells them apart. There
is no day before the first of `datetime`; here it stays.
-/

namespace Calendar

namespace Date

/-- `d + timedelta(days=1)` -/
def next (d : Date) : Date :=
  if h : d.yday + 1 < yearDays d.year then ⟨d.year, d.yday + 1, d.valid.1, h⟩
  else ⟨d.year + 1, 0, Nat.le_add_left 1 _, Nat.lt_of_lt_of_le (by decide) (yearDays_pos _)⟩

/-- `d - timedelta(days=1)` -/
def prev (d : Date) : Date :=
  if d.yday ≠ 0 then ⟨d.year, d.yday - 1, d.valid.1, by have := d.valid.2; omega⟩
  else if h : 1 ≤ d.year - 1 then ⟨d.year - 1, yearDays (d.year - 1) - 1, h, by have := yearDays_pos (d.year - 1); omega⟩
  else d

theorem dayNumber_next (d : Date) : d.next.dayNumber = d.dayNumber + 1 := by
  unfold next
  split
  · rfl
  · rename_i hlast
    have hyear := daysBefore_succ d.valid.1
    have hv := d.valid.2
    simp only [dayNumber]
    omega

theorem dayNumber_prev (d : Date) : d.prev.dayNumber = d.dayNumber - 1 := by
  unfold prev
  have hv := d.valid
  split
  · simp only [dayNumber]
    omega
  · rename_i hfirst
    split
    · rename_i hyear
      have hbefore := daysBefore_succ hyear
      have hlen := yearDays_pos (d.year - 1)
      rw [Nat.sub_add_cancel hv.1] at hbefore
      simp only [dayNumber]
      omega
    · have hone : d.year = 1 := by omega
      simp only [dayNumber, hone, daysBefore_one]
      omega

/-- `d + timedelta(days=n)` -/
def plus (d : Date) (n : Nat) : Date := next^[n] d

/-- `d - timedelta(days=n)` -/
def minus (d : Date) (n : Nat) : Date := prev^[n] d

theorem dayNumber_plus (d : Date) (n : Nat) : (d.plus n).dayNumber = d.dayNumber + n := by
  induction n with
  | zero => rfl
  | succ n ih => rw [plus, Function.iterate_succ_apply', dayNumber_next, ← plus, ih, Nat.add_assoc]

theorem dayNumber_minus (d : Date) (n : Nat) : (d.minus n).dayNumber = d.dayNumber - n := by
  induction n with
  | zero => rfl
  | succ n ih => rw [minus, Function.iterate_succ_apply', dayNumber_prev, ← minus, ih, Nat.sub_sub]

end Date

/-! ## Ranges -/

/-- The dates of `while first <= last: ..; first += timedelta(1)`. -/
def datesTo (first last : Date) : List Date := (List.range (last.dayNumber + 1 - first.dayNumber)).map first.plus

theorem mem_datesTo {first last e : Date} : e ∈ datesTo first last ↔ first.dayNumber ≤ e.dayNumber ∧ e.dayNumber ≤ last.dayNumber := by
  unfold datesTo
  rw [List.mem_map]
  constructor
  · rintro ⟨n, hn, rfl⟩
    rw [List.mem_range] at hn
    rw [Date.dayNumber_plus]
    omega
  · rintro ⟨hfirst, hlast⟩
    refine ⟨e.dayNumber - first.dayNumber, List.mem_range.2 (by omega), Date.dayNumber_injective ?_⟩
    rw [Date.dayNumber_plus]
    omega

/-! ## Months -/

namespace Date

theorem monthsOver_between {ms : List Nat} {n m : Nat} (hle : (ms.take (monthsOver ms n)).sum ≤ m) (hmn : m ≤ n) :
    monthsOver ms m = monthsOver ms n := by
  induction ms generalizing n m with
  | nil => rfl
  | cons k ms ih =>
    by_cases hn : n < k
    · rw [monthsOver, if_pos (by omega), monthsOver, if_pos hn]
    · rw [monthsOver, if_neg hn, List.take_succ_cons, List.sum_cons] at hle
      have hk : ¬m < k := by omega
      rw [monthsOver, if_neg hk, monthsOver, if_neg hn, ih (n := n - k) (by omega) (by omega)]

variable {d e : Date}

theorem over_eq (h : d.month = e.month) : d.year = e.year ∧ d.over = e.over := by
  obtain ⟨hyear, hmonth⟩ := Prod.mk.inj h
  refine ⟨hyear, ?_⟩
  have hover : monthsOver (months d.year) d.yday = monthsOver (months e.year) e.yday := by omega
  unfold Date.over
  rw [hover, hyear]

theorem over_le (d : Date) : d.over ≤ d.yday := sum_take_monthsOver _ _

/-- The day tells the days of a month apart. -/
theorem eq_of_month_day (hmonth : d.month = e.month) (hday : d.day = e.day) : d = e := by
  obtain ⟨hyear, hover⟩ := over_eq hmonth
  have hd := d.over_le
  have he := e.over_le
  refine Date.ext hyear ?_
  unfold day at hday
  omega

/-- The days of the month before a day are those from its first day on. -/
theorem month_iff (h : e < d) : e.month = d.month ↔ (d.minus (d.day - 1)).dayNumber ≤ e.dayNumber := by
  have hlt : e.dayNumber < d.dayNumber := h
  have hd := d.over_le
  have hfirst : (d.minus (d.day - 1)).dayNumber = daysBefore d.year + d.over := by
    rw [dayNumber_minus]
    unfold day dayNumber
    omega
  rw [hfirst]
  constructor
  · intro hmonth
    obtain ⟨hyear, hover⟩ := over_eq hmonth
    have he := e.over_le
    unfold dayNumber
    rw [hyear]
    omega
  · intro hle
    have hyear : e.year = d.year := by
      have hv := e.valid.2
      rcases Nat.lt_trichotomy e.year d.year with hlt' | heq | hgt
      · have hbefore := daysBefore_mono e.valid.1 hlt'
        unfold dayNumber at hle
        omega
      · exact heq
      · exact absurd (dayNumber_lt hgt) (by omega)
    have hmonths : monthsOver (months d.year) e.yday = monthsOver (months d.year) d.yday := by
      unfold dayNumber at hle hlt
      rw [hyear] at hle hlt
      exact monthsOver_between (by unfold Date.over at hle; omega) (by omega)
    unfold month
    rw [hyear, hmonths]

end Date

end Calendar
