import FishWeb.Lib.Decimal
import FishWeb.Lib.Value
import FishWeb.Lib.Weeks
import FishWeb.Xxl.Model
/-!
# The records of a day and of a week

`getNowTimeInfo` of `model/xiaoxiaole_db_define.py` and the functions of
`model/xiaoxiaoleModel.py` that go by it: `saveXxlRecord`, with the start day of a week that
a round leaves out, and `getXxlChangeTableType`, which chooses the chance table of the day.

The thresholds of `getXxlChangeTableType` are read as floats, but compared as the texts that
redis has, and in Python 2 every number comes before every text.
-/
open Calendar Counters Function Python

namespace FishWeb.Xxl

/-! ## Dates -/

/-- The date `n` days before; `none` is its `OverflowError`. -/
def getday (d : Date) (n : Int) : Option Date := ofYearDay d.year (d.yday - n)

/-- `week_startDay`: the text of a date, or `now_time` itself with its time of day. -/
inductive StartDay where
  | text (d : Date)
  | now_time (d : Date)
  deriving Repr, DecidableEq

def StartDay.date : StartDay → Date
  | .text d => d
  | .now_time d => d

/-- `date`, `week` and `week_startDay`. In `%w` Sunday is 0. -/
def getNowTimeInfo (now_time : Date) : Option (Clock × StartDay) := do
  let weekday : Int := ((now_time.weekday + 1) % 7 : Nat) - 1
  let week_startDay ← if weekday ≠ 0 then (getday now_time weekday).map .text else some (.now_time now_time)
  return (⟨now_time.isoDate, now_time.weekText⟩, week_startDay)

/-! ## Records -/

structure Records where
  hash : Table Field
  /-- `start_day` of `XXL_MONEY_RECORD_WEEK % week` -/
  start_day : String → Option StartDay
  /-- `XXL_CHANCE_TALBE_PCT` -/
  pct : String → Option String

/-- The counters of a record. -/
def counters : List String := ["get_gold", "get_gold_byHonor", "put_gold", "put_honor"]

/-- `not redis.hgetall(xxl_record_week_key)` -/
def Records.noWeek (s : Records) (week : String) : Bool :=
  (s.start_day week).isNone && counters.all fun f => (s.hash (.moneyWeek week, f)).isNone

namespace Record

def saveXxlRecord (now_time : Date) (get_gold put_gold : Int) (money : MoneyType) (uid : String) (s : Records) :
    Option Records := do
  let (now, week_startDay) ← getNowTimeInfo now_time
  let start_day := if s.noWeek now.week then update s.start_day now.week (some week_startDay) else s.start_day
  return { s with start_day, hash := incrAll (recordPipe now get_gold put_gold money uid) s.hash }

end Record

/-! ## The chance table of the day -/

def DEFAULT : Int := 1
def RELEASE : Int := 2
def RECOVERY : Int := 3

/-- `release` and `recovery` as floats, or zeros where one is no number. -/
def thresholds (XXL_Chance_Table_Pct : String → Option String) : Number × Number :=
  match (XXL_Chance_Table_Pct "release").elim (some (.finite 0)) number,
    (XXL_Chance_Table_Pct "recovery").elim (some (.finite 1)) number with
  | some release, some recovery => (release, recovery)
  | _, _ => (.finite 0, .finite 0)

/-- `put_gold_week * 1.0 / get_gold_week` -/
def quotient (put_gold_week get_gold_week : Int) : ℚ := toDouble (toDouble put_gold_week / toDouble get_gold_week)

/-- The comparison of the quotient with what the hash has. -/
def compareRaw (XXL_Chance_Table_Pct : String → Option String) (pct : ℚ) : Int :=
  if ((XXL_Chance_Table_Pct "release").elim (Value.float (toDouble (97 / 100))) .str).geFloat pct then RELEASE
  else if ((XXL_Chance_Table_Pct "recovery").elim (Value.float (toDouble (103 / 100))) .str).leFloat pct then RECOVERY
  else DEFAULT

/-- `redis.hset(xxl_record_day_key, 'now_type', table_type)` -/
def Records.setType (s : Records) (date : String) (table_type : Int) : Records :=
  { s with hash := update s.hash (.moneyDay date, "now_type") (some table_type) }

def getXxlChangeTableType (now_time : Date) (s : Records) : Option (Int × Records) := do
  let (now, _) ← getNowTimeInfo now_time
  let redis_table_type := val s.hash (.moneyDay now.date, "now_type")
  if redis_table_type = 0 then
    let get_gold_week := val s.hash (.moneyWeek now.week, "get_gold")
    let put_gold_week := val s.hash (.moneyWeek now.week, "put_gold")
    let (release, recovery) := thresholds s.pct
    let table_type := if get_gold_week ≠ 0 ∧ put_gold_week ≠ 0 ∧ release.truthy ∧ recovery.truthy then
      compareRaw s.pct (quotient put_gold_week get_gold_week) else DEFAULT
    return (table_type, s.setType now.date table_type)
  else return (redis_table_type, s)

section TimeInfo
variable (d : Date)

/-- What `%w` makes of the days of a week. -/
theorem getNowTimeInfo_eq : ∃ day, getNowTimeInfo d = some (⟨d.isoDate, d.weekText⟩, day) ∧
    day.date.dayNumber = if d.weekday = 6 then d.dayNumber + 1 else d.inWeek 0 := by
  have hlt : d.weekday < 7 := Nat.mod_lt _ (by decide)
  have hwd := d.inWeek_weekday
  have hday : d.dayNumber = daysBefore d.year + d.yday := rfl
  have hv := d.valid
  have := yearDays_pos d.year
  unfold Date.inWeek at hwd ⊢
  unfold getNowTimeInfo
  by_cases hmonday : d.weekday = 0
  · refine ⟨.now_time d, by simp [hmonday], ?_⟩
    rw [if_neg (by omega)]
    simp only [StartDay.date]
    omega
  · have hne : (((d.weekday + 1) % 7 : Nat) : Int) - 1 ≠ 0 := by omega
    obtain ⟨e, he, hnum⟩ := ofYearDay_eq hv.1 (n := (d.yday : Int) - ((((d.weekday + 1) % 7 : Nat) : Int) - 1))
      (by omega) (by omega) (by omega)
    refine ⟨.text e, ?_, ?_⟩
    · simp only [hne, ne_eq, not_false_eq_true, if_true, getday, he]
      rfl
    · simp only [StartDay.date]
      split <;> omega

end TimeInfo

/-! ## The thresholds -/

/-- Both thresholds are configured, above zero and in their order. -/
structure Configured (s : Records) (release recovery : Number) : Prop where
  read_release : (s.pct "release").bind number = some release
  read_recovery : (s.pct "recovery").bind number = some recovery
  pos : release.gt (.finite 0) = true
  lt : recovery.gt release = true

/-- The table that the thresholds ask for. -/
def tableFor (pct : ℚ) (release recovery : Number) : Int :=
  if Number.gt (.finite pct) release = false then RELEASE
  else if recovery.gt (.finite pct) = false then RECOVERY
  else DEFAULT

/-- Whatever the week's quotient is, the table of release is chosen and stored. -/
theorem getXxlChangeTableType_configured {s : Records} {d : Date} {release recovery : Number}
    (hconf : Configured s release recovery) (hday : val s.hash (.moneyDay d.isoDate, "now_type") = 0)
    (hget : val s.hash (.moneyWeek d.weekText, "get_gold") ≠ 0)
    (hput : val s.hash (.moneyWeek d.weekText, "put_gold") ≠ 0) :
    getXxlChangeTableType d s = some (RELEASE, s.setType d.isoDate RELEASE) := by
  obtain ⟨day, hinfo, -⟩ := getNowTimeInfo_eq d
  obtain ⟨r, hr, hrel⟩ := Option.bind_eq_some_iff.1 hconf.read_release
  obtain ⟨c, hc, hrec⟩ := Option.bind_eq_some_iff.1 hconf.read_recovery
  have hthresholds : thresholds s.pct = (release, recovery) := by simp only [thresholds, hr, hc, Option.elim, hrel, hrec]
  have hraw : ∀ pct, compareRaw s.pct pct = RELEASE := fun pct => by simp [compareRaw, hr, Value.geFloat]
  have hboth : release.truthy = true ∧ recovery.truthy = true :=
    ⟨Number.truthy_of_gt hconf.pos, Number.truthy_of_gt (Number.gt_trans hconf.lt hconf.pos)⟩
  unfold getXxlChangeTableType
  simp [hinfo, hday, hget, hput, hthresholds, hboth, hraw]

/-- For all sums of the week and configured thresholds: the choice follows the thresholds, and is stored, exactly
when the quotient is not above the threshold of release. -/
theorem changeTable_follows_iff {s : Records} {d : Date} {release recovery : Number}
    (hconf : Configured s release recovery) (hday : val s.hash (.moneyDay d.isoDate, "now_type") = 0)
    {get_gold put_gold : Int} (hget : val s.hash (.moneyWeek d.weekText, "get_gold") = get_gold) (hget0 : get_gold ≠ 0)
    (hput : val s.hash (.moneyWeek d.weekText, "put_gold") = put_gold) (hput0 : put_gold ≠ 0) :
    (getXxlChangeTableType d s = some (tableFor (put_gold / get_gold) release recovery,
      s.setType d.isoDate (tableFor (put_gold / get_gold) release recovery))) ↔
      Number.gt (.finite (put_gold / get_gold)) release = false := by
  rw [getXxlChangeTableType_configured hconf hday (hget ▸ hget0) (hput ▸ hput0)]
  constructor
  · intro h
    have htable : RELEASE = tableFor (put_gold / get_gold) release recovery := congrArg Prod.fst (Option.some.inj h)
    by_contra hgt
    rw [tableFor, if_neg hgt] at htable
    split at htable <;> exact absurd htable (by decide)
  · intro h
    rw [tableFor, if_pos h]

/-- A week in which as much was put as was got, with the thresholds that the code has as defaults. -/
def evenWeek : Records where
  hash := fun f => if f = (.moneyWeek "26", "get_gold") ∨ f = (.moneyWeek "26", "put_gold") then some 100 else none
  start_day _ := none
  pct := fun f => if f = "release" then some "0.97" else if f = "recovery" then some "1.03" else none

/-- The first of July 2018. -/
def july : Date := ⟨2018, 181, by decide⟩

theorem evenWeek_configured : Configured evenWeek (.finite (toDouble (97 / 100))) (.finite (toDouble (103 / 100))) where
  read_release := by decide +kernel
  read_recovery := by decide +kernel
  pos := by decide +kernel
  lt := by decide +kernel

theorem changeTable_follows_iff_even : (getXxlChangeTableType july evenWeek =
    some (tableFor ((100 : Int) / (100 : Int)) (.finite (toDouble (97 / 100))) (.finite (toDouble (103 / 100))),
      evenWeek.setType july.isoDate
        (tableFor ((100 : Int) / (100 : Int)) (.finite (toDouble (97 / 100))) (.finite (toDouble (103 / 100)))))) ↔
      Number.gt (.finite ((100 : Int) / (100 : Int))) (.finite (toDouble (97 / 100))) = false :=
  changeTable_follows_iff evenWeek_configured (by decide +kernel) (by decide +kernel) (by decide) (by decide +kernel)
    (by decide)

/-- A quotient of one, between the thresholds, gets the table of release. -/
theorem evenWeek_released : ¬∀ (s : Records) (d : Date) (release recovery : Number) (get_gold put_gold : Int),
    Configured s release recovery → val s.hash (.moneyDay d.isoDate, "now_type") = 0 →
    val s.hash (.moneyWeek d.weekText, "get_gold") = get_gold → get_gold ≠ 0 →
    val s.hash (.moneyWeek d.weekText, "put_gold") = put_gold → put_gold ≠ 0 →
    getXxlChangeTableType d s = some (tableFor (put_gold / get_gold) release recovery,
      s.setType d.isoDate (tableFor (put_gold / get_gold) release recovery)) := by
  intro hall
  have hget : val evenWeek.hash (.moneyWeek july.weekText, "get_gold") = 100 := by decide +kernel
  have hput : val evenWeek.hash (.moneyWeek july.weekText, "put_gold") = 100 := by decide +kernel
  have hday : val evenWeek.hash (.moneyDay july.isoDate, "now_type") = 0 := by decide +kernel
  have hasked := hall evenWeek july _ _ 100 100 evenWeek_configured hday hget (by decide) hput (by decide)
  rw [getXxlChangeTableType_configured evenWeek_configured hday (by rw [hget]; decide) (by rw [hput]; decide)] at hasked
  have htable : RELEASE = tableFor ((100 : Int) / (100 : Int)) (.finite (toDouble (97 / 100))) (.finite (toDouble (103 / 100))) :=
    congrArg Prod.fst (Option.some.inj hasked)
  exact absurd htable (by decide +kernel)

end FishWeb.Xxl
