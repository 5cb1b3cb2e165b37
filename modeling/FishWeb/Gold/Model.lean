import FishWeb.Lib.Days
import FishWeb.Lib.Prog
import FishWeb.Lib.Sets
/-!
# Gold

`model/goldModel.py`: a day is signed in afterwards, what the page of the welfare shows of
the days, and what is given of gold. All keys but those of `users:%s` are those of one user.
The private data base is there or not; of it only that a rank is written matters. Left out:
the rewards and missions that the page shows.
-/
open Python Prog Calendar

namespace FishWeb.Gold

open Function (update)

/-! ## The store -/

/-- The fields of `users:%s`. -/
structure User where
  parentAg : Option String
  gold : Option String
  deriving DecidableEq

structure St where
  /-- `get (FORMAT_ACCOUNT2USER_TABLE % account)` -/
  userTable : Option String
  user : String → User
  /-- `USER4AGENT_CARD % (agentid, uid)` -/
  card : String × String → Option String
  /-- The set of a month, by the text of the month. -/
  patch : String → MemberSet String
  /-- `exists(WELFARE_USER_SIGN % (account, date))` -/
  sign : String → Bool
  /-- `WELFARE_USER_INSURANCE % (account, today)` -/
  insurance : String → List Int
  /-- `hget (GOLD_REWARD_NEW_PRESENT_HASH, account)` -/
  newPresent : Option String
  /-- `hget (GOLD_REWARD_DAY_BUY_GOLD_HASH % today, account)` -/
  dayBuy : String → Option String
  /-- `sismember(DAILY_USER_GOLD2_SET % today, account)` -/
  bought : String → Bool
  /-- `getPrivateRedisInst` finds the data base. -/
  prredis : Bool

/-- `FORMAT_USER_TABLE % uid` -/
def FORMAT_USER_TABLE (uid : String) : String := "users:" ++ uid

def PATCH_SIGN_MAX : Nat := 5

def PATCH_SIGN_FEE : Int := 2

def SIGN_MAX : Nat := 2

def SIGN_LINE : Int := 2000

def SIGN_COINNUM : Int := 2000

def MESSION_STATUS_OVER : String := "2"

/-! ## Commands -/

inductive Cmd : Type → Type
  | getUserTable : Cmd (Option String)
  | hgetallUser (user_table : String) : Cmd User
  | hgetGold (user_table : String) : Cmd (Option String)
  /-- `hincrby (user_table, 'gold', gold)`: whether the field was a number. -/
  | hincrbyGold (user_table : String) (gold : Int) : Cmd Bool
  /-- `prredis.zadd`, where there is a `prredis`. -/
  | zaddMoneyRank : Cmd Bool
  | getCard (key : String × String) : Cmd (Option String)
  | sismemberPatch (month date : String) : Cmd Bool
  | scardPatch (month : String) : Cmd Nat
  | saddPatch (month date : String) : Cmd Unit
  | llenInsurance (today : String) : Cmd Nat
  | lpushInsurance (today : String) (gold : Int) : Cmd Unit
  | hgetNewPresent : Cmd (Option String)
  | hsetNewPresent (status : String) : Cmd Unit
  | sismemberBought (today : String) : Cmd Bool
  | hgetDayBuy (today : String) : Cmd (Option String)

/-- The gold of a table, as Redis counts it; nothing counts as zero. -/
def St.counted (s : St) (user_table : String) : Option Int :=
  match (s.user user_table).gold with
  | none => some 0
  | some gold => redisInt gold

def St.setGold (s : St) (user_table : String) (gold : Int) : St :=
  { s with user := update s.user user_table { s.user user_table with gold := some (toString gold) } }

instance : Exec Cmd St where
  exec
    | .getUserTable, s => (s.userTable, s)
    | .hgetallUser user_table, s => (s.user user_table, s)
    | .hgetGold user_table, s => ((s.user user_table).gold, s)
    | .hincrbyGold user_table gold, s =>
      match s.counted user_table with
      | some n => (true, s.setGold user_table (n + gold))
      | none => (false, s)
    | .zaddMoneyRank, s => (s.prredis, s)
    | .getCard key, s => (s.card key, s)
    | .sismemberPatch month date, s => (date ∈ s.patch month, s)
    | .scardPatch month, s => ((s.patch month).scard, s)
    | .saddPatch month date, s => ((), { s with patch := SetTable.add s.patch month date })
    | .llenInsurance today, s => ((s.insurance today).length, s)
    | .lpushInsurance today gold, s => ((), { s with insurance := update s.insurance today (gold :: s.insurance today) })
    | .hgetNewPresent, s => (s.newPresent, s)
    | .hsetNewPresent status, s => ((), { s with newPresent := some status })
    | .sismemberBought today, s => (s.bought today, s)
    | .hgetDayBuy today, s => (s.dayBuy today, s)

abbrev Handler := Prog Err Cmd

/-- `{'code': .., 'msg': ..}` -/
structure Reply where
  code : Int
  msg : String
  deriving DecidableEq

/-- The reply says that it was done. -/
def succeeded : Except Err Reply → Bool
  | .ok reply => reply.code = 0
  | .error _ => false

/-! ## Handlers -/

/-- What `get_user_info` adds to the fields of the user. -/
structure UserInfo where
  uid : String
  user : User

/-- Nothing for an account without a table. -/
def get_user_info : Handler (Option UserInfo) := do
  let user_table ← call .getUserTable
  if user_table.getD "" = "" then return none
  let user ← call (.hgetallUser (fmt user_table))
  return some ⟨← orRaise .IndexError (split ':' (fmt user_table))[1]?, user⟩

/-- `int(x) if x else 0` -/
def intOr0 (x : Option String) : Handler Int :=
  if x.getD "" = "" then return 0 else orRaise .ValueError (x.bind int)

/-- `strptime(date, '%Y-%m-%d').month` as the writer puts it in a key. -/
def monthKey (d : Date) : String := toString d.month.2

/-- The cards of the user in his guild. -/
def guildCards : Handler Int := do
  let user_info ← orRaise .KeyError (← get_user_info)
  let agentid ← orRaise .KeyError user_info.user.parentAg
  intOr0 (← call (.getCard (agentid, user_info.uid)))

/-- `{'code': 0, 'msg': "补签成功"}` -/
def patched : Reply := ⟨0, "补签成功"⟩

def doPatchSign (date : String) : Handler Reply := do
  let roomcard ← guildCards
  if roomcard < PATCH_SIGN_FEE then return ⟨1, "钻石不足"⟩
  let month := monthKey (← orRaise .ValueError (strptime date))
  if ← call (.sismemberPatch month date) then return ⟨1, "已补签过"⟩
  let times ← call (.scardPatch month)
  if times ≠ 0 ∧ times > PATCH_SIGN_MAX then return ⟨1, "当月补签已达上限"⟩
  call (.saddPatch month date)
  return patched

/-- Nothing but `True` and `None` are returned. -/
def player_add_gold (gold : Int) : Handler (Option Bool) := do
  let user_table ← call .getUserTable
  if user_table.getD "" = "" then return none
  if !(← call (.hincrbyGold (fmt user_table) gold)) then Prog.raise .ResponseError else
  match ← get_user_info with
  | none => return none
  | some user_info =>
    let _ ← orRaise .KeyError user_info.user.parentAg
    -- `None` has no `zadd`
    if !(← call .zaddMoneyRank) then Prog.raise .AttributeError else return some true

/-- `{'code': 0, 'msg': u'领取成功'}` -/
def taken : Reply := ⟨0, "领取成功"⟩

/-- The allowance of those who have little gold. -/
def allowance (today uid : String) : Handler Reply := do
  let playerCoin ← intOr0 (← call (.hgetGold (FORMAT_USER_TABLE uid)))
  if playerCoin ≥ SIGN_LINE then return ⟨1, "未达到低保线无法领取"⟩
  if (← call (.llenInsurance today)) ≥ SIGN_MAX then return ⟨1, "已经领取了 " ++ toString SIGN_MAX ++ " 次"⟩
  call (.lpushInsurance today SIGN_COINNUM)
  let _ ← player_add_gold SIGN_COINNUM
  return taken

/-- The gift for newcomers. -/
def newPresent : Handler Reply := do
  if (← call .hgetNewPresent) = some MESSION_STATUS_OVER then return ⟨1, "您已领取，无法再次领取"⟩
  call (.hsetNewPresent MESSION_STATUS_OVER)
  return taken

/-- The reward of the first purchase of a day. -/
def dayReward (today : String) : Handler Reply := do
  if !(← call (.sismemberBought today)) then return ⟨1, "您今日还未完成首冲"⟩
  if (← call (.hgetDayBuy today)) = some MESSION_STATUS_OVER then return ⟨1, "您已领取，无法再次领取"⟩
  -- `hget` takes no third argument
  Prog.raise .TypeError

def doWelfareById (today uid id : String) : Handler Reply :=
  if id = "2" then allowance today uid
  else if id = "1" then newPresent
  else if id = "0" then dayReward today
  else return taken

/-! ## The page -/

/-- What the page shows of the days. -/
structure WelfareInfo where
  date : String
  issigned : Bool
  signed : List String
  unsinged : List String

/-- `strftime('%m')` -/
def monthText (d : Date) : String := String.ofList (pad 2 d.month.2)

/-- `strftime('%d')` -/
def dayText (d : Date) : String := String.ofList (pad 2 d.day)

def first_day_of_month (today : Date) : Date := today.minus (today.day - 1)

/-- A day of the loop is signed in, at once or afterwards. -/
def St.signedDay (s : St) (first : Date) : Bool := s.sign first.isoDate || first.isoDate ∈ s.patch (monthText first)

/-- The page only reads. The loop ends before today. -/
def get_welfare_info (today : Date) (s : St) : WelfareInfo where
  date := today.isoDate
  issigned := s.sign today.isoDate
  signed := ((datesTo (first_day_of_month today) (today.minus 1)).filter (s.signedDay ·)).map dayText
  unsinged := ((datesTo (first_day_of_month today) (today.minus 1)).filter (!s.signedDay ·)).map dayText

/-! ## What is shown -/

/-- The page looks for a month under its number where that has two digits. -/
theorem monthText_eq_iff {d : Date} {m : Nat} : monthText d = toString m ↔ d.month.2 = m ∧ 10 ≤ d.month.2 := by
  have hlength : 2 ≤ (Nat.toDigits 10 d.month.2).length ↔ 10 ≤ d.month.2 := by
    have hle := Nat.length_toDigits_le_iff (b := 10) (n := d.month.2) (k := 1) (by decide) (by decide)
    omega
  have htext : toString m = String.ofList (Nat.toDigits 10 m) := Nat.repr_eq_ofList_toDigits
  rw [htext, monthText, String.ofList_inj, pad_eq_toDigits_iff, hlength]

theorem dayText_inj {d e : Date} : dayText d = dayText e ↔ d.day = e.day := by
  unfold dayText
  rw [String.ofList_inj]
  exact (pad_injective 2).eq_iff

/-- The page lists a day of the month that is over if and only if it is signed in. -/
theorem mem_signed_iff {today d : Date} {s : St} (hover : d < today) (hmonth : d.month = today.month) :
    dayText d ∈ (get_welfare_info today s).signed ↔ s.signedDay d = true := by
  have hlt : d.dayNumber < today.dayNumber := hover
  have hloop : ∀ e : Date, e ∈ datesTo (first_day_of_month today) (today.minus 1) ↔ e < today ∧ e.month = today.month := by
    intro e
    have hlast : e.dayNumber ≤ (today.minus 1).dayNumber ↔ e < today := by
      rw [Date.dayNumber_minus]
      show _ ↔ e.dayNumber < today.dayNumber
      omega
    rw [mem_datesTo, hlast, and_comm]
    exact and_congr_right fun he => (Date.month_iff he).symm
  unfold get_welfare_info
  rw [List.mem_map]
  constructor
  · rintro ⟨e, he, htext⟩
    obtain ⟨hmem, hsigned⟩ := List.mem_filter.1 he
    obtain rfl := Date.eq_of_month_day (((hloop e).1 hmem).2.trans hmonth.symm) (dayText_inj.1 htext)
    exact hsigned
  · exact fun hsigned => ⟨d, List.mem_filter.2 ⟨(hloop d).2 ⟨hover, hmonth⟩, hsigned⟩, rfl⟩

/-! ## What is read -/

/-- What `get_user_info` comes to. -/
def St.userInfo (s : St) : Except Err (Option UserInfo) :=
  if s.userTable.getD "" = "" then .ok none
  else match (split ':' (fmt s.userTable))[1]? with
    | some uid => .ok (some ⟨uid, s.user (fmt s.userTable)⟩)
    | none => .error .IndexError

theorem run_get_user_info (s : St) : run get_user_info s = (s.userInfo, s) := by
  unfold St.userInfo
  show run (if s.userTable.getD "" = "" then _ else _ : Handler (Option UserInfo)) s = _
  split
  · rfl
  · show run (orRaise .IndexError (split ':' (fmt s.userTable))[1]? >>= _ : Handler (Option UserInfo)) s = _
    cases (split ':' (fmt s.userTable))[1]? <;> rfl

/-- A number that may be missing. -/
def numberOf (x : Option String) : Option Int := if x.getD "" = "" then some 0 else x.bind int

theorem run_intOr0 (x : Option String) (s : St) :
    run (intOr0 x) s = (match numberOf x with
      | some n => .ok n
      | none => .error .ValueError, s) := by
  unfold intOr0 numberOf
  split
  · rfl
  · cases x.bind int <;> rfl

end FishWeb.Gold
