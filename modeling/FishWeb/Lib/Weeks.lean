import Mathlib.Data.List.Nodup
import FishWeb.Lib.Calendar
/-!
# Dates and weeks as texts

`strftime` of a date and of the number of its week, each with its leading zeros, and the
dates from a Monday to a Sunday. Within one year `%W` tells these weeks apart.
-/

namespace Calendar

/-! ## Texts -/

/-- A number of at least `w` digits. -/
def pad (w n : Nat) : List Char := List.replicate (w - (Nat.toDigits 10 n).length) '0' ++ Nat.toDigits 10 n

theorem isDigit_of_mem_pad {w n : Nat} {c : Char} (h : c ∈ pad w n) : c.isDigit = true := by
  rcases List.mem_append.1 h with h | h
  · rw [List.eq_of_mem_replicate h]
    decide
  · exact Python.isDigit_toDigits h

theorem digits_pad (w n : Nat) : Python.digits (pad w n) = some n := by
  have hne : pad w n ≠ [] := List.append_ne_nil_of_right_ne_nil _ Nat.toDigits_ne_nil
  unfold Python.digits
  rw [if_pos ⟨hne, List.all_eq_true.2 fun c hc => isDigit_of_mem_pad hc⟩, pad, List.foldl_append]
  have hzeros : ∀ k, (List.replicate k '0').foldl (fun n c => 10 * n + (c.toNat - '0'.toNat)) 0 = 0 := by
    intro k
    induction k with
    | zero => rfl
    | succ k ih => exact ih
  rw [hzeros]
  exact congrArg some Nat.ofDigitChars_ten_toDigits

theorem pad_injective (w : Nat) : Function.Injective (pad w) := fun n m h =>
  Option.some.inj (by rw [← digits_pad w n, ← digits_pad w m, h])

/-- A number of as many digits is written without zeros. -/
theorem pad_eq_toDigits_iff {w n m : Nat} : pad w n = Nat.toDigits 10 m ↔ n = m ∧ w ≤ (Nat.toDigits 10 n).length := by
  constructor
  · intro h
    have hnm : n = m := Option.some.inj (by rw [← digits_pad w n, h, Python.digits_toDigits])
    have hlength := congrArg List.length h
    rw [pad, List.length_append, List.length_replicate, ← hnm] at hlength
    exact ⟨hnm, by omega⟩
  · rintro ⟨rfl, hle⟩
    rw [pad, Nat.sub_eq_zero_of_le hle]
    rfl

/-- The days of the months that are over. -/
def Date.over (d : Date) : Nat := ((months d.year).take (monthsOver (months d.year) d.yday)).sum

/-- `day` -/
def Date.day (d : Date) : Nat := d.yday - d.over + 1

theorem sum_take_monthsOver (ms : List Nat) (n : Nat) : (ms.take (Date.monthsOver ms n)).sum ≤ n := by
  induction ms generalizing n with
  | nil => simp [Date.monthsOver]
  | cons m ms ih =>
    unfold Date.monthsOver
    split
    · simp
    · have := ih (n - m)
      rw [List.take_succ_cons, List.sum_cons]
      omega

/-- `strftime('%Y-%m-%d')` -/
def Date.isoDate (d : Date) : String :=
  String.ofList (pad 4 d.year ++ '-' :: (pad 2 d.month.2 ++ '-' :: pad 2 d.day))

/-- `strftime('%W')` -/
def Date.weekText (d : Date) : String := String.ofList (pad 2 d.week)

theorem Date.isoDate_injective : Function.Injective Date.isoDate := by
  intro d e h
  have hdash : ∀ w n, '-' ∉ pad w n := fun w n hmem => absurd (isDigit_of_mem_pad hmem) (by decide)
  have hparts : ∀ d : Date, Python.splitChars '-' d.isoDate.toList = [pad 4 d.year, pad 2 d.month.2, pad 2 d.day] := fun d => by
    rw [Date.isoDate, String.toList_ofList, Python.splitChars_append (hdash 4 _), Python.splitChars_append (hdash 2 _),
      Python.splitChars_eq (hdash 2 _)]
  have hsame : [pad 4 d.year, pad 2 d.month.2, pad 2 d.day] = [pad 4 e.year, pad 2 e.month.2, pad 2 e.day] := by
    rw [← hparts d, ← hparts e, h]
  simp only [List.cons.injEq, and_true] at hsame
  obtain ⟨hy, hm, hd⟩ := hsame
  have hyear := pad_injective 4 hy
  have hmonth : monthsOver (months d.year) d.yday = monthsOver (months e.year) e.yday := by
    have := pad_injective 2 hm
    simp only [Date.month] at this
    omega
  have hover : d.over = e.over := by unfold Date.over; rw [hmonth, hyear]
  have hday := pad_injective 2 hd
  have hled : d.over ≤ d.yday := sum_take_monthsOver _ _
  have hlee : e.over ≤ e.yday := sum_take_monthsOver _ _
  refine Date.ext hyear ?_
  unfold Date.day at hday
  omega

theorem Date.weekText_eq_iff {d e : Date} : d.weekText = e.weekText ↔ d.week = e.week := by
  unfold Date.weekText
  rw [String.ofList_inj]
  exact (pad_injective 2).eq_iff

example : (strptime "2018-07-01").map (fun d => (d.isoDate, d.weekText)) = some ("2018-07-01", "26") := by decide

/-! ## Weeks from Monday to Sunday -/

section Week
variable {d e : Date}

/-- Within a year the week number tells the weeks apart. -/
theorem Date.week_iff (hyear : d.year = e.year) : d.week = e.week ↔ d.mondayWeek = e.mondayWeek := by
  refine ⟨fun h => ?_, Date.week_eq hyear⟩
  have hd : d.dayNumber = daysBefore d.year + d.yday := rfl
  have he : e.dayNumber = daysBefore d.year + e.yday := by rw [hyear]; rfl
  unfold Date.week Date.weekday at h
  unfold Date.mondayWeek
  omega

/-- A week that two years share has two numbers. -/
theorem Date.week_ne (hyear : d.year ≠ e.year) (h : d.mondayWeek = e.mondayWeek) : d.week ≠ e.week := by
  have hlt : ∀ d e : Date, d.year < e.year → d.mondayWeek = e.mondayWeek → d.week ≠ e.week := by
    intro d e hlt h
    have hmono := daysBefore_mono d.valid.1 hlt
    have hlen := yearDays_pos d.year
    have hd : d.dayNumber = daysBefore d.year + d.yday := rfl
    have he : e.dayNumber = daysBefore e.year + e.yday := rfl
    have hv := d.valid.2
    unfold Date.week Date.weekday
    unfold Date.mondayWeek at h
    omega
  rcases Nat.lt_or_gt_of_ne hyear with hlt' | hgt
  · exact hlt d e hlt' h
  · exact (hlt e d hgt h.symm).symm

/-- The seven dates of the week of a date. -/
def Date.weekDates (d : Date) : List Date :=
  (List.range 7).filterMap fun k : Nat => ofYearDay d.year ((d.yday : Int) - d.weekday + k)

theorem Date.exists_inWeek (d : Date) {k : Nat} (hk : k < 7) :
    ∃ e, ofYearDay d.year ((d.yday : Int) - d.weekday + k) = some e ∧ e.dayNumber = d.inWeek k := by
  have hwd := d.inWeek_weekday
  have hday : d.dayNumber = daysBefore d.year + d.yday := rfl
  have hlt : d.weekday < 7 := Nat.mod_lt _ (by decide)
  have hv := d.valid
  have := yearDays_pos d.year
  unfold Date.inWeek at hwd ⊢
  obtain ⟨e, he, hnum⟩ := ofYearDay_eq hv.1 (n := (d.yday : Int) - d.weekday + k) (by omega) (by omega) (by omega)
  exact ⟨e, he, by omega⟩

theorem Date.mem_weekDates : e ∈ d.weekDates ↔ e.mondayWeek = d.mondayWeek := by
  rw [Date.weekDates, List.mem_filterMap]
  constructor
  · rintro ⟨k, hk, hke⟩
    obtain ⟨e', he', hnum⟩ := d.exists_inWeek (List.mem_range.1 hk)
    obtain rfl : e' = e := Option.some.inj (he'.symm.trans hke)
    exact Date.mondayWeek_of_inWeek (List.mem_range.1 hk) hnum
  · intro h
    have hk : e.weekday < 7 := Nat.mod_lt _ (by decide)
    obtain ⟨e', he', hnum⟩ := d.exists_inWeek hk
    have hsame : e'.dayNumber = e.dayNumber := by
      rw [hnum, ← e.inWeek_weekday, Date.inWeek, Date.inWeek, h]
    exact ⟨e.weekday, List.mem_range.2 hk, by rw [he', Date.dayNumber_injective hsame]⟩

theorem Date.nodup_weekDates (d : Date) : d.weekDates.Nodup := by
  have hnumbers : d.weekDates.map Date.dayNumber = (List.range 7).map d.inWeek := by
    rw [Date.weekDates, List.map_filterMap, ← List.filterMap_eq_map]
    refine List.filterMap_congr fun k hk => ?_
    obtain ⟨e, he, hnum⟩ := d.exists_inWeek (List.mem_range.1 hk)
    rw [he]
    exact congrArg some hnum
  refine List.Nodup.of_map Date.dayNumber ?_
  rw [hnumbers]
  exact List.nodup_range.map fun i j h => Nat.add_left_cancel h

end Week

end Calendar
