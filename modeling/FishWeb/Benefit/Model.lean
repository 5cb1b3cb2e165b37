import FishWeb.Share.Model
import FishWeb.Lib.Counters
import FishWeb.Lib.Sets
/-!
# One-time and daily rewards

`/takeBenefit`, `/getBenefitInfo` and `/doSignMonth` of `fish/fish_benefit.py`,
`/onGetShareReward` and `/exchageCode` of `fish/fish.py`. Each tests a mark of its
own kind, credits coins and writes the mark. A pipeline is a transaction.

The clock of a request is an input, read once, and so is the token it makes. Left
out: the protocol messages to the game services, and what a handler only logs.
-/
open Python Prog Counters Calendar FishWeb.Common

namespace FishWeb.Benefit

/-! ## The store -/

/-- What no reward writes. -/
structure Setup where
  shared : Shared
  /-- `hmget (FISH_CONSTS_CONFIG, ('save_min_money', 'save_times', 'save_money'))` -/
  save_min_money : Option String
  save_times : Option String
  save_money : Option String
  share_coin : Option String
  /-- `FISH_SIGN_TABLE_USER_NUMBER % month`: on how many days the account signed in. -/
  number : Nat × Nat → String → Option Int

/-- The thresholds of a month, and 1 for those taken. -/
abbrev Receive := String → Option Int

/-- `{5: 0, 10: 0, 15: 0, 20: 0}`, through JSON. -/
def noReceive : Receive := fun day => if day ∈ ["5", "10", "15", "20"] then some 0 else none

/-- `{5: 100000, 10: 250000, 15: 500000, 20: 1000000}`, through JSON. -/
def receiveMoney (day : String) : Option Int :=
  if day = "5" then some 100000
  else if day = "10" then some 250000
  else if day = "15" then some 500000
  else if day = "20" then some 1000000
  else none

/-- The sets of users that shared. -/
inductive Sharing where
  /-- `FISH_FIRST_SHARE_PER_DAY_SET % day` -/
  | first (day : Date)
  /-- `FISH_SHARE_NOT_TAKE_SETS` -/
  | notTake
  /-- `FISH_SHARE_TAKE_SETS % day` -/
  | take (day : Date)
  deriving Repr, DecidableEq

structure St where
  setup : Setup
  /-- `hget (user_table, 'coin')` -/
  coin : Table String
  exchange_ticket : String → Option Int
  /-- `FISH_BENEFIT_COIN_TABLE % day` -/
  benefit : Table (Date × String)
  /-- `USER_BENEFIT_TOKEN % uid` -/
  token : String → Option String
  /-- `FISH_SIGN_TABLE_USER_RECEIVE % month` -/
  receive : (Nat × Nat) × String → Option Receive
  sharing : Sharing → MemberSet String
  /-- `fish:exchageCode:hesh` -/
  code : String → Option String

instance : HasShared St := ⟨fun s => s.setup.shared⟩

/-! ## Commands -/

/-- What a credit is for. -/
inductive Reward where
  | benefit (day : Date) (uid : String)
  | signMonth (month : Nat × Nat) (account day : String)
  | share (day : Date) (uid : String)
  | code (account : String)
  deriving Repr, DecidableEq

/-- What is tested and written. The thresholds of a month share one record. -/
inductive Mark where
  | benefit (day : Date) (uid : String)
  | receive (month : Nat × Nat) (account : String)
  | share (day : Date) (uid : String)
  | code (account : String)
  deriving Repr, DecidableEq

def Reward.mark : Reward → Mark
  | .benefit day uid => .benefit day uid
  | .signMonth month account _ => .receive month account
  | .share day uid => .share day uid
  | .code account => .code account

inductive Own : Type → Type
  | getToken (uid : String) : Own (Option String)
  | setToken (uid token : String) : Own Unit
  | hmgetConfig : Own (Option String × Option String × Option String)
  | getCoin (user_table : String) : Own (Option Int)
  | getBenefit (day : Date) (uid : String) : Own (Option Int)
  /-- The pipeline of `do_take_benefit`. -/
  | takeBenefit (day : Date) (uid user_table : String) (benefit_coin : Int) : Own Unit
  | expireBenefit (day : Date) : Own Unit
  | getReceive (month : Nat × Nat) (account : String) : Own (Option Receive)
  | getNumber (month : Nat × Nat) (account : String) : Own (Option Int)
  /-- `hincrby(userTable, 'coin', money)`, for a reward. -/
  | hincrbyCoin (r : Reward) (userTable : String) (money : Int) : Own Unit
  | hsetReceive (month : Nat × Nat) (account : String) (receive : Receive) : Own Unit
  /-- `uid in smembers(..)` -/
  | inSharing (k : Sharing) (uid : String) : Own Bool
  | getShareCoin : Own (Option String)
  /-- The pipeline of `get_fish_share_reward`: whether Redis refused the text `share_coin`. -/
  | takeShare (day : Date) (uid user_table share_coin : String) : Own Bool
  | getCode (account : String) : Own (Option String)
  | setCode (account value : String) : Own Unit
  | hmgetCoin (userTable : String) : Own (Option Int × Option Int)

open Function (update)

instance : Exec Own St where
  exec
    | .getToken uid, s => (s.token uid, s)
    | .setToken uid token, s => ((), { s with token := update s.token uid (some token) })
    | .hmgetConfig, s => ((s.setup.save_min_money, s.setup.save_times, s.setup.save_money), s)
    | .getCoin user_table, s => (s.coin user_table, s)
    | .getBenefit day uid, s => (s.benefit (day, uid), s)
    | .takeBenefit day uid user_table benefit_coin, s =>
      ((), { s with
        benefit := Counters.incrby s.benefit (day, uid) 1
        coin := Counters.incrby s.coin user_table benefit_coin
        token := update s.token uid none })
    | .expireBenefit _, s => ((), s)
    | .getReceive month account, s => (s.receive (month, account), s)
    | .getNumber month account, s => (s.setup.number month account, s)
    | .hincrbyCoin _ userTable money, s => ((), { s with coin := Counters.incrby s.coin userTable money })
    | .hsetReceive month account receive, s =>
      ((), { s with receive := update s.receive (month, account) (some receive) })
    | .inSharing k uid, s => (decide (uid ∈ s.sharing k), s)
    | .getShareCoin, s => (s.setup.share_coin, s)
    | .takeShare day uid user_table share_coin, s =>
      ((redisInt share_coin).isNone, { s with
        sharing := SetTable.add (SetTable.remove s.sharing .notTake uid) (.take day) uid
        coin := Share.credited s.coin user_table share_coin })
    | .getCode account, s => (s.code account, s)
    | .setCode account value, s => ((), { s with code := update s.code account (some value) })
    | .hmgetCoin userTable, s => ((s.coin userTable, s.exchange_ticket userTable), s)

/-- What can be seen of a reward: a mark is tested or written, or coins are credited for it. -/
inductive Ev where
  | tested (m : Mark)
  | marked (m : Mark)
  | paid (r : Reward) (userTable : String) (n : Int)
  deriving Repr, DecidableEq

instance : Note Own Ev where
  note
    | .getBenefit day uid, _ => [.tested (.benefit day uid)]
    | .takeBenefit day uid user_table benefit_coin, _ =>
      [.marked (.benefit day uid), .paid (.benefit day uid) user_table benefit_coin]
    | .getReceive month account, _ => [.tested (.receive month account)]
    | .hincrbyCoin r userTable money, _ => [.paid r userTable money]
    | .hsetReceive month account _, _ => [.marked (.receive month account)]
    | .inSharing (.take day) uid, _ => [.tested (.share day uid)]
    | .takeShare day uid user_table share_coin, _ =>
      .marked (.share day uid) :: (redisInt share_coin).toList.map (.paid (.share day uid) user_table ·)
    | .getCode account, _ => [.tested (.code account)]
    | .setCode account _, _ => [.marked (.code account)]
    | _, _ => []

abbrev Cmd := With Own

abbrev Handler := Prog Err Cmd

/-! ## Handlers -/

structure Clock where
  /-- `strftime('%Y-%m-%d')` -/
  date : Date
  /-- `strftime('%H')` -/
  hour : Nat

/-- `strftime('%Y-%m')` -/
def Clock.month (now : Clock) : Nat × Nat := now.date.month

structure BenefitInfo where
  user_take_count : Int
  min_coin : Int
  take_count : Int
  benefit_coin : Int
  deriving Repr, DecidableEq

/-- A response, with the numbers and the token it gives. -/
structure Reply where
  code : Int
  msg : String
  osid : Option String := none
  coin : Option Int := none
  number : Option Int := none
  benefitInfo : Option (BenefitInfo × Bool) := none
  token : Option String := none
  deriving Repr, DecidableEq

def Reply.refused (e : Refusal) : Reply := { code := e.code, msg := e.msg, osid := e.osid }

/-- The day's benefit, and whether it may be taken: the code, the message and the numbers. -/
def canTakeBenefit (now : Clock) (uid user_table : String) : Handler (Int × String × BenefitInfo) := do
  let (min_coin, take_count, benefit_coin) ← send .hmgetConfig
  let _user_coin ← send (.getCoin user_table)
  let user_take_count := (← send (.getBenefit now.date uid)).getD 0
  let (isSpring, _) ← checkSpringTime now.date 2
  let multiple := if isSpring ∧ now.hour = 19 then 3 else 1
  let benefit_info : BenefitInfo := ⟨user_take_count, toInt min_coin, toInt take_count, toInt benefit_coin * multiple⟩
  -- the coins the user holds are not compared with `min_coin`
  if toInt take_count ≤ user_take_count then return (-9002, "今日领取救济金次数已用完.", benefit_info)
  return (0, "", benefit_info)

/-- `/takeBenefit`. -/
def doTakeBenefit (now : Clock) (sid token : String) : Handler Reply := do
  let info ← getInfoBySid sid
  match ← checkSessionVerfiy sid info with
  | .error e => return .refused e
  | .ok user_table =>
    let uid := fmt info.uid
    let server_token ← send (.getToken uid)
    if some token ≠ server_token then return { code := -9003, msg := "不能重复领取!" }
    let (code, msg, benefit_info) ← canTakeBenefit now uid user_table
    if code < 0 then return { code, msg }
    -- the count is written here, and is not read again
    send (.takeBenefit now.date uid user_table benefit_info.benefit_coin)
    send (.expireBenefit now.date)
    return { code := 0, msg := "领取救济金成功" }

/-- `/getBenefitInfo`. -/
def getBenefitInfo (now : Clock) (sid token : String) : Handler Reply := do
  let info ← getInfoBySid sid
  match ← checkSessionVerfiy sid info with
  | .error e => return .refused e
  | .ok user_table =>
    let uid := fmt info.uid
    let (code, _, benefit) ← canTakeBenefit now uid user_table
    send (.setToken uid token)
    return { code := 0, msg := "", benefitInfo := some (benefit, decide (0 ≤ code)), token := some token }

/-- `/doSignMonth`. -/
def doSignMonth (now : Clock) (sid day : String) : Handler Reply := do
  let info ← getInfoBySid sid
  match ← checkSessionVerfiy sid info with
  | .error e => return .refused e
  | .ok _ =>
    let account := fmt info.account
    let userTable := fmt (← ask (.getUserTable account))
    let receive := (← send (.getReceive now.month account)).getD noReceive
    let number := (← send (.getNumber now.month account)).getD 0
    let n ← orRaise .ValueError (int day)
    if n ≤ number then
      match receive day with
      | none => return { code := 1, msg := "不存在这一天" }
      | some taken =>
        let money ← orRaise .KeyError (receiveMoney day)
        if taken = 0 then
          send (.hincrbyCoin (.signMonth now.month account day) userTable money)
          -- the whole record is written, as it was read but for this day
          send (.hsetReceive now.month account (update receive day (some 1)))
          return { code := 0, msg := "成功", number := some 1000000 }
        else return { code := 1, msg := "你已经领取过了" }
    else return { code := 1, msg := "暂时还不能领取" }

def Reply.ofShare (r : Share.Reply) : Reply := { code := r.code, msg := r.msg, osid := r.osid, coin := r.coin }

def shareCmds : Share.RewardCmds Date Own where
  inFirst day uid := .inSharing (.first day) uid
  inNotTake uid := .inSharing .notTake uid
  inTake day uid := .inSharing (.take day) uid
  getShareCoin := .getShareCoin
  takeReward := .takeShare
  getCoin := .getCoin

/-- `/onGetShareReward` -/
def getFishShareReward (now : Clock) (sid : String) : Handler Reply := shareCmds.getFishShareReward .ofShare now.date sid

/-- `/exchageCode`. -/
def doExchageCode (sid code : String) : Handler Reply := do
  let info ← getInfoBySid sid
  if !(← ask (.existsSession sid)) then return { code := -3, msg := "sid 超时" }
  let account := fmt info.account
  if (← send (.getCode account)) = some "1" then return { code := 1, msg := "你已经领取过了" }
  if code = "4c445de82c3537a5995a497b1c8202d7" then
    send (.setCode account "1")
    let userTable := fmt (← ask (.getUserTable account))
    send (.hincrbyCoin (.code account) userTable 888888)
    let (coin, _) ← send (.hmgetCoin userTable)
    return { code := 0, msg := "成功", coin, number := some 888888 }
  return { code := 1, msg := "失败, 兑换码不正确" }

/-! ## Requests -/

inductive Req where
  | takeBenefit (now : Clock) (sid token : String)
  | getBenefitInfo (now : Clock) (sid token : String)
  | signMonth (now : Clock) (sid day : String)
  | share (now : Clock) (sid : String)
  | exchageCode (sid code : String)

def Req.handler : Req → Handler Reply
  | .takeBenefit now sid token => doTakeBenefit now sid token
  | .getBenefitInfo now sid token => Benefit.getBenefitInfo now sid token
  | .signMonth now sid day => doSignMonth now sid day
  | .share now sid => getFishShareReward now sid
  | .exchageCode sid code => doExchageCode sid code

end FishWeb.Benefit
