import FishWeb.Lib.Days
/-!
# The days of a month

`calendar.monthrange`, the day after the last one of a month, and the dates that `strptime`
reads back from texts: from that of `strftime`, and from one whose numbers have no zeros
before them, where a year before 1000 is not read.
-/

namespace Calendar

namespace Date

theorem sum_months (y : Nat) : (months y).sum = yearDays y := by
  unfold months yearDays
  cases isLeap y <;> rfl

theorem length_months (y : Nat) : (months y).length = 12 := rfl

theorem months_pos (y : Nat) {k : Nat} (hk : k < 12) : 28 ≤ (months y).getD k 0 := by
  revert k
  unfold months
  cases isLeap y <;> decide

theorem months_le (y k : Nat) : (months y).getD k 0 ≤ 31 := by
  rcases Nat.lt_or_ge k 12 with hk | hk
  · revert k
    unfold months
    cases isLeap y <;> decide
  · rw [List.getD_eq_getElem?_getD, List.getElem?_eq_none (by rw [length_months]; exact hk)]
    exact Nat.zero_le 31

/-- A day within the months lies in the one after those that are over. -/
theorem monthsOver_lt {ms : List Nat} {n : Nat} (h : n < ms.sum) :
    monthsOver ms n < ms.length ∧ n < (ms.take (monthsOver ms n)).sum + ms.getD (monthsOver ms n) 0 := by
  induction ms generalizing n with
  | nil => exact absurd h (Nat.not_lt_zero n)
  | cons m ms ih =>
    rw [List.sum_cons] at h
    unfold monthsOver
    split
    · next hlt => exact ⟨Nat.succ_pos _, by simpa using hlt⟩
    · next hge =>
      obtain ⟨hlen, hlt⟩ := ih (n := n - m) (by omega)
      refine ⟨Nat.succ_lt_succ hlen, ?_⟩
      rw [List.take_succ_cons, List.sum_cons, List.getD_cons_succ]
      omega

theorem sum_take_succ (ms : List Nat) {k : Nat} (hk : k < ms.length) : (ms.take (k + 1)).sum = (ms.take k).sum + ms.getD k 0 := by
  rw [List.sum_take_succ ms k hk, List.getD_eq_getElem?_getD, List.getElem?_eq_getElem hk]
  rfl

/-- How many days the month of the date has. -/
def monthDays (d : Date) : Nat := (months d.year).getD (monthsOver (months d.year) d.yday) 0

variable (d : Date)

theorem yday_lt_sum : d.yday < (months d.year).sum := by
  rw [sum_months]
  exact d.valid.2

theorem monthsOver_lt_twelve : monthsOver (months d.year) d.yday < 12 :=
  (monthsOver_lt d.yday_lt_sum).1

theorem month_le : d.month.2 ≤ 12 := d.monthsOver_lt_twelve

theorem monthDays_december {d : Date} (h : d.month.2 = 12) : d.monthDays = 31 := by
  have hover : monthsOver (months d.year) d.yday = 11 := Nat.succ_injective h
  rw [monthDays, hover]
  rfl

theorem yday_lt : d.yday < d.over + d.monthDays :=
  (monthsOver_lt d.yday_lt_sum).2

theorem day_le : d.day ≤ d.monthDays := by
  have hlt := d.yday_lt
  have hle := d.over_le
  unfold day
  omega

theorem yday_eq : d.yday = d.over + (d.day - 1) := by
  have hle := d.over_le
  unfold day
  omega

end Date

/-! ## Dates by their month and day -/

theorem ofMonthDay_eq {m n : Nat} {e : Date} (hm : 1 ≤ m) (hn : 1 ≤ n) (hle : n ≤ (Date.months e.year).getD (m - 1) 0)
    (he : e.yday = ((Date.months e.year).take (m - 1)).sum + (n - 1)) : ofMonthDay e.year m n = some e := by
  unfold ofMonthDay
  dsimp only
  rw [if_pos ⟨hm, hn, hle⟩]
  have hv := e.valid
  rw [he] at hv
  rw [dif_pos hv]
  exact congrArg some (Date.ext rfl he.symm)

theorem ofMonthDay_self (d : Date) : ofMonthDay d.year d.month.2 d.day = some d :=
  ofMonthDay_eq (Nat.le_add_left 1 _) (Nat.le_add_left 1 _) d.day_le d.yday_eq

/-- The day after one that is not the last of its month. -/
theorem ofMonthDay_day_succ {d : Date} (h : d.day ≠ d.monthDays) : ofMonthDay d.year d.month.2 (d.day + 1) = some d.next := by
  have hday := d.day_le
  have hyday := d.yday_eq
  have hone : 1 ≤ d.day := Nat.le_add_left 1 _
  have hsum := Date.sum_take_succ (Date.months d.year) (k := Date.monthsOver (Date.months d.year) d.yday) d.monthsOver_lt_twelve
  have hle : ((Date.months d.year).take (Date.monthsOver (Date.months d.year) d.yday + 1)).sum ≤ yearDays d.year := by
    rw [← Date.sum_months]
    exact (List.take_sublist _ _).sum_le_sum fun _ _ => Nat.zero_le _
  have hlt : d.yday + 1 < yearDays d.year := by
    unfold Date.over at hyday
    unfold Date.monthDays at h hday
    omega
  have hnext : d.next = ⟨d.year, d.yday + 1, d.valid.1, hlt⟩ := dif_pos hlt
  rw [hnext]
  refine ofMonthDay_eq (e := ⟨d.year, d.yday + 1, d.valid.1, hlt⟩) (Nat.le_add_left 1 _) (Nat.le_add_left 1 _) ?_ ?_
  · show d.day + 1 ≤ d.monthDays
    omega
  · show d.yday + 1 = d.over + (d.day + 1 - 1)
    omega

/-- The day after the last one of a month that is not December. -/
theorem ofMonthDay_month_succ {d : Date} (h : d.day = d.monthDays) (hm : d.month.2 ≠ 12) :
    ofMonthDay d.year (d.month.2 + 1) 1 = some d.next := by
  have hyday := d.yday_eq
  have hone : 1 ≤ d.day := Nat.le_add_left 1 _
  have hmonth : d.month.2 = Date.monthsOver (Date.months d.year) d.yday + 1 := rfl
  have htwelve := d.month_le
  have hk : Date.monthsOver (Date.months d.year) d.yday + 1 < 12 := by omega
  have hsum := Date.sum_take_succ (Date.months d.year) (k := Date.monthsOver (Date.months d.year) d.yday) d.monthsOver_lt_twelve
  have hsum' := Date.sum_take_succ (Date.months d.year) (k := Date.monthsOver (Date.months d.year) d.yday + 1) hk
  have hpos := Date.months_pos d.year hk
  have hle : ((Date.months d.year).take (Date.monthsOver (Date.months d.year) d.yday + 1 + 1)).sum ≤ yearDays d.year := by
    rw [← Date.sum_months]
    exact (List.take_sublist _ _).sum_le_sum fun _ _ => Nat.zero_le _
  have hstart : d.yday + 1 = ((Date.months d.year).take (Date.monthsOver (Date.months d.year) d.yday + 1)).sum := by
    unfold Date.over at hyday
    unfold Date.monthDays at h
    omega
  have hlt : d.yday + 1 < yearDays d.year := by omega
  have hnext : d.next = ⟨d.year, d.yday + 1, d.valid.1, hlt⟩ := dif_pos hlt
  rw [hnext]
  refine ofMonthDay_eq (e := ⟨d.year, d.yday + 1, d.valid.1, hlt⟩) (Nat.le_add_left 1 _) (Nat.le_refl 1) ?_ ?_
  · show 1 ≤ (Date.months d.year).getD (Date.monthsOver (Date.months d.year) d.yday + 1) 0
    omega
  · show d.yday + 1 = ((Date.months d.year).take (Date.monthsOver (Date.months d.year) d.yday + 1)).sum + (1 - 1)
    omega

/-! ## Texts -/

theorem length_toDigits {n k : Nat} (hk : 0 < k) : (Nat.toDigits 10 n).length ≤ k ↔ n < 10 ^ k :=
  Nat.length_toDigits_le_iff (by decide) hk

theorem length_pad {w n : Nat} (hw : 0 < w) (h : n < 10 ^ w) : (pad w n).length = w := by
  have hle := (length_toDigits hw).2 h
  rw [pad, List.length_append, List.length_replicate]
  omega

theorem twoDigits_of {cs : List Char} (h : cs.length ≤ 2) : twoDigits cs = Python.digits cs := if_pos h

theorem dayDigits_of {cs : List Char} (hd : ∀ c ∈ cs, c.isDigit = true) (h : cs.length ≤ 2) : dayDigits cs = Python.digits cs := by
  unfold dayDigits
  split
  · exact absurd (hd ' ' List.mem_cons_self) (by decide)
  · exact twoDigits_of h

/-- What `strptime` makes of three runs of digits. -/
theorem strptime_dashed {y m d : List Char} (hy : ∀ c ∈ y, c.isDigit = true) (hm : ∀ c ∈ m, c.isDigit = true)
    (hd : ∀ c ∈ d, c.isDigit = true) (hm2 : m.length ≤ 2) (hd2 : d.length ≤ 2) :
    strptime (String.ofList (y ++ '-' :: (m ++ '-' :: d))) =
      (if y.length = 4 then Python.digits y else none).bind fun y =>
        (Python.digits m).bind fun m => (Python.digits d).bind fun d => ofMonthDay y m d := by
  have hdash : ∀ {l : List Char}, (∀ c ∈ l, c.isDigit = true) → '-' ∉ l := fun h hmem => absurd (h '-' hmem) (by decide)
  unfold strptime
  rw [String.toList_ofList, Python.splitChars_append (hdash hy), Python.splitChars_append (hdash hm), Python.splitChars_eq (hdash hd),
    ← twoDigits_of hm2, ← dayDigits_of hd hd2]
  dsimp only
  split <;> rfl

theorem strptime_isoDate {d : Date} (h : d.year ≤ 9999) : strptime d.isoDate = some d := by
  have hdigit : ∀ {w n : Nat}, ∀ c ∈ pad w n, c.isDigit = true := fun c hc => isDigit_of_mem_pad hc
  have hmonth := d.month_le
  have hday := Nat.le_trans d.day_le (Date.months_le _ _)
  rw [Date.isoDate, strptime_dashed hdigit hdigit hdigit (length_pad (by decide) (by omega)).le (length_pad (by decide) (by omega)).le,
    if_pos (length_pad (by decide) (by omega)), digits_pad, digits_pad, digits_pad]
  exact ofMonthDay_self d

/-- Numbers without zeros before them: the year needs four digits. -/
theorem strptime_numbers {y m d : Nat} (hm : m < 100) (hd : d < 100) :
    strptime (toString y ++ "-" ++ toString m ++ "-" ++ toString d) =
      if 1000 ≤ y ∧ y ≤ 9999 then ofMonthDay y m d else none := by
  have htext : toString y ++ "-" ++ toString m ++ "-" ++ toString d =
      String.ofList (Nat.toDigits 10 y ++ '-' :: (Nat.toDigits 10 m ++ '-' :: Nat.toDigits 10 d)) := by
    have hrepr : ∀ n : Nat, (toString n).toList = Nat.toDigits 10 n := fun _ => Nat.toList_repr
    apply String.toList_injective
    simp only [String.toList_append, String.toList_ofList, hrepr]
    simp
  have hdigit : ∀ {n : Nat}, ∀ c ∈ Nat.toDigits 10 n, c.isDigit = true := fun c hc => Python.isDigit_toDigits hc
  rw [htext, strptime_dashed hdigit hdigit hdigit ((length_toDigits (by decide)).2 hm) ((length_toDigits (by decide)).2 hd),
    Python.digits_toDigits, Python.digits_toDigits, Python.digits_toDigits]
  have hfour := length_toDigits (n := y) (k := 4) (by decide)
  have hthree := length_toDigits (n := y) (k := 3) (by decide)
  by_cases hy : 1000 ≤ y ∧ y ≤ 9999
  · rw [if_pos hy, if_pos (by omega)]
    rfl
  · rw [if_neg hy, if_neg (by omega)]
    rfl

end Calendar
