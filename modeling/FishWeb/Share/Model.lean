import FishWeb.Common.Model
import FishWeb.Lib.Counters
import FishWeb.Lib.Sets
/-!
# Rewards for sharing

`/onShareCallback` and `/onGetShareReward` of `fish/fish.py`, and what `/refresh` tells
of the reward. A share is reported once a day; it puts the user in the set of those who
have not taken their reward, which has no day, and a reward moves him to those of the day
who have.

The day of a request is an input. A pipeline is a transaction, and one whose increment
is refused has made its other writes. The reward is written for any server that has its
commands (`RewardCmds`). Left out: what else `/refresh` answers, which changes none of the
sets, and the lifetime of a session.
-/
open Python Prog Counters FishWeb.Common

namespace FishWeb.Share

structure Setup where
  shared : Shared
  /-- `hget (FISH_CONSTS_CONFIG, 'share_coin')` -/
  share_coin : Option String

structure St where
  setup : Setup
  /-- `FISH_FIRST_SHARE_PER_DAY_SET % day` -/
  first : String → MemberSet String
  /-- `FISH_SHARE_NOT_TAKE_SETS` -/
  notTake : MemberSet String
  /-- `FISH_SHARE_TAKE_SETS % day` -/
  take : String → MemberSet String
  /-- `FISH_SHARE_TOTAL` -/
  total : Int
  /-- `hget (user_table, 'coin')` -/
  coin : Table String

instance : HasShared St := ⟨fun s => s.setup.shared⟩

@[simp] theorem shared_eq (s : St) : HasShared.shared s = s.setup.shared := rfl

/-! ## Commands -/

inductive Own : Type → Type
  /-- `uid in smembers(..)`, as with the next two -/
  | inFirst (day uid : String) : Own Bool
  | inNotTake (uid : String) : Own Bool
  | inTake (day uid : String) : Own Bool
  | sismemberNotTake (uid : String) : Own Bool
  | sismemberTake (day uid : String) : Own Bool
  | getShareCoin : Own (Option String)
  /-- The pipeline of a share. -/
  | report (day uid : String) : Own Unit
  /-- The pipeline of a reward: whether Redis refuses the text `share_coin`. -/
  | takeReward (day uid user_table share_coin : String) : Own Bool
  | getCoin (user_table : String) : Own (Option Int)

/-- The reward adds what redis reads as an integer. -/
def credited (t : Table String) (user_table share_coin : String) : Table String :=
  ((redisInt share_coin).map (incrby t user_table)).getD t

instance : Exec Own St where
  exec
    | .inFirst day uid, s => (uid ∈ s.first day, s)
    | .inNotTake uid, s => (uid ∈ s.notTake, s)
    | .inTake day uid, s => (uid ∈ s.take day, s)
    | .sismemberNotTake uid, s => (uid ∈ s.notTake, s)
    | .sismemberTake day uid, s => (uid ∈ s.take day, s)
    | .getShareCoin, s => (s.setup.share_coin, s)
    | .report day uid, s =>
      ((), { s with first := SetTable.add s.first day uid, notTake := s.notTake.sadd uid, total := s.total + 1 })
    | .takeReward day uid user_table share_coin, s =>
      ((redisInt share_coin).isNone, { s with
        notTake := s.notTake.srem uid
        take := SetTable.add s.take day uid
        coin := credited s.coin user_table share_coin })
    | .getCoin user_table, s => (s.coin user_table, s)

abbrev Cmd := With Own

abbrev Handler := Prog Err Cmd

structure Reply where
  code : Int
  msg : String := ""
  osid : Option String := none
  coin : Option Int := none
  isTakeReward : Option Nat := none
  deriving Repr, DecidableEq

def Reply.refused (e : Refusal) : Reply := { code := e.code, msg := e.msg, osid := e.osid }

/-! ## The endpoints -/

/-- `/onShareCallback`. -/
def onShareCallback (today sid : String) : Handler Reply := do
  let info ← getInfoBySid sid
  match ← checkSessionVerfiy sid info with
  | .error e => return .refused e
  | .ok _ =>
    let uid := fmt info.uid
    if ← send (.inFirst today uid) then return { code := -4001, msg := "uid[" ++ uid ++ "] already share." }
    send (.report today uid)
    return { code := 0 }

/-- The commands of `/onGetShareReward`, among those of a server whose days are in `δ`. -/
structure RewardCmds (δ : Type) (D : Type → Type) where
  inFirst (day : δ) (uid : String) : D Bool
  inNotTake (uid : String) : D Bool
  inTake (day : δ) (uid : String) : D Bool
  getShareCoin : D (Option String)
  takeReward (day : δ) (uid user_table share_coin : String) : D Bool
  getCoin (user_table : String) : D (Option Int)

/-- `/onGetShareReward`, with what the server makes of a reply. That the user has shared is read, and not asked for. -/
def RewardCmds.getFishShareReward {δ α : Type} {D : Type → Type} (cmds : RewardCmds δ D) (reply : Reply → α) (today : δ)
    (sid : String) : Prog Err (With D) α := do
  let info ← getInfoBySid sid
  match ← checkSessionVerfiy sid info with
  | .error e => return reply (.refused e)
  | .ok user_table =>
    let uid := fmt info.uid
    let _has_share_users ← send (cmds.inFirst today uid)
    let _is_ready_share ← send (cmds.inNotTake uid)
    let is_take_share ← send (cmds.inTake today uid)
    if is_take_share then return reply { code := -3002, msg := "你今天已经领取过奖励!" }
    let share_coin := (← send cmds.getShareCoin).getD ""
    if share_coin = "" then return reply { code := -3001, msg := "error in get share_coin,try again." }
    if ← send (cmds.takeReward today uid user_table share_coin) then .raise .ResponseError
    else
      let coin ← send (cmds.getCoin user_table)
      return reply { code := 0, coin := some (coin.getD 0) }

def rewardCmds : RewardCmds String Own := ⟨.inFirst, .inNotTake, .inTake, .getShareCoin, .takeReward, .getCoin⟩

/-- `/onGetShareReward` -/
def getFishShareReward (today sid : String) : Handler Reply := rewardCmds.getFishShareReward id today sid

/-- `is_take_reward` of `/refresh`: 1 for a reward that is not taken, 2 for one taken today, 0 without a share. -/
def isTakeReward (today uid : String) : Handler Nat := do
  if ← send (.sismemberNotTake uid) then return 1
  if ← send (.sismemberTake today uid) then return 2
  return 0

/-- `/refresh` as far as the reward. -/
def doRefresh (today sid : String) : Handler Reply := do
  if ← ask (.existsKick sid) then return { code := -4, msg := "您的账号已在其它地方登录。", osid := some "1" }
  let info ← getInfoBySid sid
  match ← checkSessionVerfiy sid info with
  | .error e => return .refused e
  | .ok _ =>
    let is_take_reward ← isTakeReward today (fmt info.uid)
    return { code := 0, isTakeReward := some is_take_reward }

/-! ## Requests -/

inductive Req where
  | share (today sid : String)
  | reward (today sid : String)
  | refresh (today sid : String)
  deriving Repr, DecidableEq

def Req.handler : Req → Handler Reply
  | .share today sid => onShareCallback today sid
  | .reward today sid => getFishShareReward today sid
  | .refresh today sid => doRefresh today sid

def step (r : Req) (s : St) : St := (run r.handler s).2

end FishWeb.Share
