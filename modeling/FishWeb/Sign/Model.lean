import FishWeb.Common.Model
import FishWeb.Lib.Counters
/-!
# Signing in

`/doSign` and `/getSignInfo` of `fish/fish_benefit.py`, with `check_sign_valid`,
`get_user_sign_info` and `get_should_sign_warheads` of
`fish/fish_util/fish_benefit_fun.py`. A user signs in for a day of the current
week, and the list of those who did is kept under the date of the day and a week
number.

The clock of a request is an input, read once. A pipeline is a transaction. A list
that is not there is empty. Left out: the field `title` of a sign table, on whose
text a `/doSign` for the day `title` raises as it does for any other text that is no day.
-/
open Python Prog Counters Calendar FishWeb.Common

namespace FishWeb.Sign

/-! ## The store -/

/-- A day of a sign table. -/
structure DayInfo where
  give_type : String
  coin : String
  image : String
  deriving Repr, DecidableEq

/-- What signing in does not write. -/
structure Setup where
  shared : Shared
  /-- `FISH_TABLE_NOW_RUN` -/
  nowRun : Option String
  /-- `hget ('users:%s' % uid, 'vip_level')` -/
  vip_level : String → Option String
  /-- `FISH_SIGN_TABLE_USER_RECEIVE % month`, as JSON. -/
  receive : Nat × Nat → String → Option String

/-- The key of `FISH_SIGN_TABLE_WEEK`: the sign table, a date and a week number. -/
@[ext] structure WeekKey where
  sign_id : String
  date : Date
  week : Nat
  deriving DecidableEq

structure St where
  setup : Setup
  /-- `FISH_SIGN_TABLE % sign_id`: the days, Monday first. -/
  table : String → Option (Fin 7 → Option DayInfo)
  /-- The users that signed in, by day. -/
  users : WeekKey → Fin 7 → List String
  /-- `hget (user_table, 'warhead')` -/
  warhead : Table String
  /-- `FISH_SIGN_TABLE_USER_NUMBER % month` -/
  number : Table ((Nat × Nat) × String)
  last_sign_date : String → Option Date

instance : HasShared St := ⟨fun s => s.setup.shared⟩

/-- The day that a text names: `'1'` to `'7'`. -/
def dayOf (signDay : String) : Option (Fin 7) := (List.finRange 7).find? fun d => toString (d.val + 1) = signDay

/-! ## Commands -/

inductive Own : Type → Type
  | getNowRun : Own (Option String)
  | existsTable (sign_id : String) : Own Bool
  /-- `hget (sign_table, signDay)` -/
  | getDay (sign_id : String) (signDay : Fin 7) : Own (Option DayInfo)
  /-- `hgetall (sign_table)` -/
  | hgetallTable (sign_id : String) : Own (List (Fin 7 × DayInfo))
  | getUsers (k : WeekKey) (day : Fin 7) : Own (List String)
  | setUsers (k : WeekKey) (day : Fin 7) (users : List String) : Own Unit
  | getVipLevel (uid : String) : Own (Option String)
  | getNumber (month : Nat × Nat) (account : String) : Own (Option Int)
  | incrNumber (month : Nat × Nat) (account : String) : Own Unit
  | setNumber (month : Nat × Nat) (account : String) (n : Int) : Own Unit
  /-- The pipeline that gives the warheads. -/
  | takeSign (user_table : String) (warheads : Int) (sign_id : String) (day : Fin 7) (info : DayInfo) (k : WeekKey)
      (users : List String) (uid : String) (today : Date) : Own Unit
  /-- The pipeline of a day that gives something else. -/
  | setLastSign (uid : String) (today : Date) : Own Unit
  | getReceive (month : Nat × Nat) (account : String) : Own (Option String)

open Function (update)

/-- `hset` of the users of a day. -/
def setUsers (t : WeekKey → Fin 7 → List String) (k : WeekKey) (day : Fin 7) (users : List String) :
    WeekKey → Fin 7 → List String :=
  update t k (update (t k) day users)

instance : Exec Own St where
  exec
    | .getNowRun, s => (s.setup.nowRun, s)
    | .existsTable sign_id, s => ((s.table sign_id).isSome, s)
    | .getDay sign_id signDay, s => ((s.table sign_id).bind (· signDay), s)
    | .hgetallTable sign_id, s =>
      ((List.finRange 7).filterMap fun d => ((s.table sign_id).bind (· d)).map (d, ·), s)
    | .getUsers k day, s => (s.users k day, s)
    | .setUsers k day users, s => ((), { s with users := setUsers s.users k day users })
    | .getVipLevel uid, s => (s.setup.vip_level uid, s)
    | .getNumber month account, s => (s.number (month, account), s)
    | .incrNumber month account, s => ((), { s with number := Counters.incrby s.number (month, account) 1 })
    | .setNumber month account n, s => ((), { s with number := update s.number (month, account) (some n) })
    | .takeSign user_table warheads sign_id day info k users uid today, s =>
      ((), { s with
        warhead := Counters.incrby s.warhead user_table warheads
        table := update s.table sign_id (some (update ((s.table sign_id).getD fun _ => none) day (some info)))
        users := setUsers s.users k day users
        last_sign_date := update s.last_sign_date uid (some today) })
    | .setLastSign uid today, s => ((), { s with last_sign_date := update s.last_sign_date uid (some today) })
    | .getReceive month account, s => (s.setup.receive month account, s)

/-- A user is rewarded for a day, by a request that came on a date. -/
structure Ev where
  uid : String
  day : Fin 7
  today : Date
  deriving DecidableEq

instance : Note Own Ev where
  note
    | .takeSign _ _ _ day _ _ _ uid today, _ => [⟨uid, day, today⟩]
    | _, _ => []

abbrev Cmd := With Own

abbrev Handler := Prog Err Cmd

/-! ## Handlers -/

/-- `consts.GIVE_COIN` -/
def GIVE_COIN : Int := 1

/-- What `/getSignInfo` shows of a day. -/
structure DayView where
  day : Fin 7
  status : Nat
  image : String
  num : Int
  deriving Repr, DecidableEq

structure Reply where
  code : Int
  msg : String
  osid : Option String := none
  signInfo : List DayView := []
  nowDay : Option Nat := none
  number : Option Int := none
  receive : Option String := none
  deriving Repr, DecidableEq

def Reply.refused (e : Refusal) : Reply := { code := e.code, msg := e.msg, osid := e.osid }

def getShouldSignWarheads (uid : String) : Handler Int := do
  let vip_level := (← send (.getVipLevel uid)).getD ""
  -- `int(vip_level or 0)`
  let vip_level ← if vip_level = "" then .ret 0 else orRaise .ValueError (int vip_level)
  return 1000000 * (vip_level + 1)

/-- The running sign table, or the first. -/
def signId (nowRun : Option String) : String := if nowRun.getD "" = "" then "1" else nowRun.getD ""

/-- The key of a day of the current week: its date, in the year of today, and the week number of today. -/
def curKey (sign_id : String) (now : Date) (day : Fin 7) : Option WeekKey :=
  (strptimeWeek now.year now.week day).map fun date => ⟨sign_id, date, now.week⟩

/-- `check_sign_valid`: a code and a message, or the day and its record. The user is on the list when it returns the record. -/
def checkSignValid (now : Date) (uid signDay sign_id : String) : Handler (Except (Int × String) (Fin 7 × DayInfo)) := do
  if !(← send (.existsTable sign_id)) then return .error (-10001, "签到表已失效")
  let day ← orRaise .TypeError (dayOf signDay)
  let sign_day_info ← orRaise .TypeError (← send (.getDay sign_id day))
  let key ← orRaise .ValueError (curKey sign_id now day)
  if now.weekday < day.val then return .error (-1003, "还没到该日签到日期")
  let users ← send (.getUsers key day)
  if uid ∈ users then return .error (-10002, "你今天已经签到过.")
  send (.setUsers key day (users ++ [uid]))
  return .ok (day, sign_day_info)

/-- `get_user_sign_info`: the days of the running table. -/
def getUserSignInfo (now : Date) (uid sign_id : String) : Handler (Except (Int × String) (List DayView)) := do
  if !(← send (.existsTable sign_id)) then return .error (-10001, "签到表已失效")
  let sign_day_info ← send (.hgetallTable sign_id)
  let views ← collect sign_day_info fun (day, val) => do
    let key ← orRaise .ValueError (curKey sign_id now day)
    let users ← send (.getUsers key day)
    return (⟨day, if uid ∈ users then 1 else 0, val.image, 1000000⟩ : DayView)
  return .ok views

/-- `do_take_sign_reward` from where `check_sign_valid` has returned. -/
def takeSignReward (now : Date) (user_table account uid sign_id : String) (day : Fin 7) (sign_day_info : DayInfo) :
    Handler Reply := do
  let coin := (int sign_day_info.give_type).getD 0 = GIVE_COIN
  -- the user is on the list of today as well, under the day that he signed in for
  let weekTime : WeekKey := ⟨sign_id, now, now.week⟩
  let warheads ← if coin then getShouldSignWarheads uid else .ret 0
  let users ← if coin then send (.getUsers weekTime day) else .ret []
  let number ← send (.getNumber now.month account)
  if number.isSome then send (.incrNumber now.month account) else send (.setNumber now.month account 1)
  if coin then
    send (.takeSign user_table warheads sign_id day sign_day_info weekTime (users ++ [uid]) uid now)
    return { code := 0, msg := "签到成功,获取" ++ toString warheads, number := some (number.getD 0 + 1) }
  else
    send (.setLastSign uid now)
    -- `sign_warheads` is unbound
    .raise .NameError

/-- `/doSign`. -/
def doSign (now : Date) (sid signDay : String) : Handler Reply := do
  let info ← getInfoBySid sid
  match ← checkSessionVerfiy sid info with
  | .error e => return .refused e
  | .ok user_table =>
    let uid := fmt info.uid
    let sign_id := signId (← send .getNowRun)
    match ← checkSignValid now uid signDay sign_id with
    | .error (code, msg) => return { code, msg }
    | .ok (day, sign_day_info) => takeSignReward now user_table (fmt info.account) uid sign_id day sign_day_info

/-- `/getSignInfo`. -/
def getSignInfo (now : Date) (sid : String) : Handler Reply := do
  let info ← getInfoBySid sid
  match ← checkSessionVerfiy sid info with
  | .error e => return .refused e
  | .ok _ =>
    let account := fmt info.account
    let sign_id := signId (← send .getNowRun)
    match ← getUserSignInfo now (fmt info.uid) sign_id with
    | .error (code, msg) => return { code, msg }
    | .ok signInfo =>
      let number ← send (.getNumber now.month account)
      let receive ← send (.getReceive now.month account)
      return { code := 0, msg := "", signInfo, nowDay := some (now.weekday + 1), number := some (number.getD 0), receive }

/-! ## Requests -/

inductive Req where
  | doSign (now : Date) (sid signDay : String)
  | getSignInfo (now : Date) (sid : String)

def Req.handler : Req → Handler Reply
  | .doSign now sid signDay => Sign.doSign now sid signDay
  | .getSignInfo now sid => Sign.getSignInfo now sid

def step (r : Req) (s : St) : St := (run r.handler s).2

end FishWeb.Sign
