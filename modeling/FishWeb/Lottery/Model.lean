import FishWeb.Common.Model
import FishWeb.Lib.Counters
import FishWeb.Lib.Dice
import FishWeb.Lib.Pool
/-!
# The lottery of an activity

`/activice/draw` of `hall/hall_activice.py` with the counters of
`model/activeModel.py`. A user has chances in an activity, and a reward may have a
stock there. A draw looks at both before it picks, and takes one from each after.

The clock and the random draws of a request are inputs, and so is its `id`, without
spaces at either end. What `eval` reads is stored as read. The formats of the keys
are not among the sources; keys of different kinds or arguments are different. Left
out: the branch for `AC_TYPE_NIUNIU`, which reads and writes nothing.
-/
open Python Prog Counters Calendar FishWeb.Common
open Dice (Draws pick)

namespace FishWeb.Lottery

/-! ## The store -/

/-- The constants that the sources use and do not define. -/
structure Consts where
  STATUS_STARTING : String
  HALL_PRE : String

/-- A reward of an activity. The rate is `int(float(rewardRate) * 100)`, `none` where that raises. -/
structure Listed where
  rewardId : String
  rewardRate : Option Int
  rewardSide : Option Int

/-- A reward of a plan. -/
structure Planned where
  planRewardId : String
  planRewardRate : Option Int

/-- What is drawn instead if the number of the draw meets a condition. -/
structure Plan where
  planNeedType : String
  planNeedNum : Option Int
  planNeedLevel : Option Int
  specialRate : List Planned

structure Activice where
  status : Option String
  rewardList : List Listed
  specialPlan : List Plan

/-- How many of a reward a pack holds. -/
structure Single where
  singleId : String
  minCount : Option Int
  maxCount : Option Int
  deriving Repr, DecidableEq

/-- The record of a reward. -/
structure RewardInfo where
  id : String
  title : Option String
  type : Option String
  baseRewardCount : Option String
  priceTotal : Option String
  isRecord : Option String
  singleData : Option (List Single)
  deriving Repr, DecidableEq

/-- `REWARD_TABLE`. `addReward` stores a reward under its id. -/
structure Rewards where
  table : String → Option RewardInfo
  id_eq : ∀ k r, table k = some r → r.id = k

/-- What the lottery does not write. -/
structure Setup where
  shared : Shared
  /-- `hget (userTable, 'parentAg')` and `hget (userTable, 'nickname')` -/
  parentAg : String → Option String
  nickname : String → Option String
  /-- `ACTIVICE_TABLE % acid` -/
  activice : String → Option Activice
  rewards : Rewards

/-- The record of who won. -/
structure Awardee where
  date : Date
  id : String
  name : String
  rewardTitle : String
  rewardId : String
  rewardNum : Int
  type : String
  record : Bool

/-- What is added to a reward that is handed over. -/
structure Record where
  recordId : Int
  acid : String
  jumpUrl : String
  deriving Repr, DecidableEq

/-- A reward as it is returned. -/
structure Prize where
  info : RewardInfo
  record : Option Record
  deriving Repr, DecidableEq

structure St where
  setup : Setup
  /-- `LOTTERY_NUM_TABLE % (acid, account)` -/
  num : Table (String × String)
  /-- `LOTTERY_COUNT_AC_TOTAL % acid` -/
  count : Table String
  /-- `ACTIVICE_REWARD_NUM % (acid, reid)` -/
  stock : Table (String × String)
  /-- `USER4AGENT_CARD % (groupId, id)` -/
  card : Table (String × String)
  /-- `ACTIVICE_REWAREES_COUNT` -/
  awardeesCount : Int
  /-- `ACTIVICE_REWAREES_TABLE % (acid, reid)` -/
  awardees : String × Int → Option Awardee
  /-- `ACTIVICE_REWAREES_LIST % (acid, groupid)` -/
  awardeesList : String × String → List Int
  /-- `ACTIVICE_NOREWARD_KEY % (account, acid, reid)` -/
  noreward : String × String × Int → Option (List Prize)

instance : HasShared St := ⟨fun s => s.setup.shared⟩

/-! ## Commands -/

inductive Own : Type → Type
  | hgetParentAg (userTable : String) : Own (Option String)
  | hgetNickname (userTable : String) : Own (Option String)
  | existsNum (acid account : String) : Own Bool
  | getNum (acid account : String) : Own (Option Int)
  | decrNum (acid account : String) : Own Unit
  | hgetStatus (acid : String) : Own (Option String)
  | existsActivice (acid : String) : Own Bool
  | hgetallActivice (acid : String) : Own (Option Activice)
  | existsCount (acid : String) : Own Bool
  | getCount (acid : String) : Own (Option Int)
  | incrCount (acid : String) : Own Unit
  | existsStock (acid reid : String) : Own Bool
  | getStock (acid reid : String) : Own (Option Int)
  | decrStock (acid reid : String) : Own Unit
  | existsReward (key_id : String) : Own Bool
  | hgetallReward (key_id : String) : Own (Option RewardInfo)
  | incrAwardees : Own Int
  /-- The pipeline of `set_awardees`. -/
  | setAwardee (acid groupid : String) (reid : Int) (info : Awardee) : Own Unit
  | setNoreward (account acid : String) (reid : Int) (info : List Prize) : Own Unit
  /-- The pipeline of a draw. -/
  | execute (l : List ((String × String) × Int)) : Own Unit

open Function (update)

instance : Exec Own St where
  exec
    | .hgetParentAg userTable, s => (s.setup.parentAg userTable, s)
    | .hgetNickname userTable, s => (s.setup.nickname userTable, s)
    | .existsNum acid account, s => ((s.num (acid, account)).isSome, s)
    | .getNum acid account, s => (s.num (acid, account), s)
    | .decrNum acid account, s => ((), { s with num := incrby s.num (acid, account) (-1) })
    | .hgetStatus acid, s => ((s.setup.activice acid).bind (·.status), s)
    | .existsActivice acid, s => ((s.setup.activice acid).isSome, s)
    | .hgetallActivice acid, s => (s.setup.activice acid, s)
    | .existsCount acid, s => ((s.count acid).isSome, s)
    | .getCount acid, s => (s.count acid, s)
    | .incrCount acid, s => ((), { s with count := incrby s.count acid 1 })
    | .existsStock acid reid, s => ((s.stock (acid, reid)).isSome, s)
    | .getStock acid reid, s => (s.stock (acid, reid), s)
    | .decrStock acid reid, s => ((), { s with stock := incrby s.stock (acid, reid) (-1) })
    | .existsReward key_id, s => ((s.setup.rewards.table key_id).isSome, s)
    | .hgetallReward key_id, s => (s.setup.rewards.table key_id, s)
    | .incrAwardees, s => (s.awardeesCount + 1, { s with awardeesCount := s.awardeesCount + 1 })
    | .setAwardee acid groupid reid info, s =>
      ((), { s with
        awardees := update s.awardees (acid, reid) (some info)
        awardeesList := update s.awardeesList (acid, groupid) (reid :: s.awardeesList (acid, groupid)) })
    | .setNoreward account acid reid info, s =>
      ((), { s with noreward := update s.noreward (account, acid, reid) (some info) })
    | .execute l, s => ((), { s with card := incrAll l s.card })

/-- What is counted down. -/
inductive Key where
  /-- The chances of an account in an activity. -/
  | num (acid account : String)
  /-- The stock of a reward in an activity. -/
  | stock (acid reid : String)
  deriving Repr, DecidableEq

inductive Ev where
  /-- There was something left. -/
  | saw (k : Key)
  | took (k : Key)
  /-- Someone won the reward. -/
  | won (acid reid : String)
  deriving Repr, DecidableEq

/-- The event of a look at a number. -/
def seen (k : Key) (n : Option Int) : List Ev := if 0 < n.getD 0 then [.saw k] else []

instance : Note Own Ev where
  note
    | .getNum acid account, n => seen (.num acid account) n
    | .decrNum acid account, _ => [.took (.num acid account)]
    | .getStock acid reid, n => seen (.stock acid reid) n
    | .decrStock acid reid, _ => [.took (.stock acid reid)]
    | .setAwardee acid _ _ info, _ => [.won acid info.rewardId]
    | _, _ => []

abbrev Cmd := With Own

abbrev Handler := Prog Err Cmd

/-! ## The counters -/

/-- `get_lottery_num` -/
def getLotteryNum (acid account : String) : Handler Int := do
  if ← send (.existsNum acid account) then orRaise .TypeError (← send (.getNum acid account)) else return 0

/-- `desc_lottery_num` -/
def descLotteryNum (acid account : String) : Handler Unit := send (.decrNum acid account)

/-- `get_lottery_activice_count` -/
def getLotteryActiviceCount (acid : String) : Handler Int := do
  if ← send (.existsCount acid) then orRaise .TypeError (← send (.getCount acid)) else return 0

/-- `set_lottery_activice_count` -/
def setLotteryActiviceCount (acid : String) : Handler Unit := send (.incrCount acid)

/-- `get_active_reward_num` -/
def getActiveRewardNum (acid reid : String) : Handler Int := do
  if !(← send (.existsStock acid reid)) then return 9999999
  orRaise .TypeError (← send (.getStock acid reid))

/-- `redis.get(key) == 0`: what is compared with the number is a text. -/
def eqZero (_text : Option Int) : Bool := false

/-- `decr_active_reward_num` -/
def decrActiveRewardNum (acid reid : String) : Handler Unit := do
  if !(← send (.existsStock acid reid)) then return ()
  if eqZero (← send (.getStock acid reid)) then return ()
  send (.decrStock acid reid)

/-! ## What is drawn from -/

/-- `check_activice_isonline` -/
def checkActiviceIsonline (consts : Consts) (acid : String) : Handler Bool := do
  return (← send (.hgetStatus acid)) = some consts.STATUS_STARTING

/-- `getActiciveInfo` -/
def getActiciveInfo (tableid : String) : Handler (Option Activice) := do
  if ← send (.existsActivice tableid) then send (.hgetallActivice tableid) else return none

/-- `getRewardInfo` -/
def getRewardInfo (key_id : String) : Handler (Option RewardInfo) := do
  if ← send (.existsReward key_id) then
    let data ← send (.hgetallReward key_id)
    match data with
    | none => return none
    | some data =>
      if data.type = some "pack" ∧ data.singleData = none then .raise .KeyError else return some data
  else return none

/-- The condition of a plan. -/
def Plan.meets (total : Int) (plan : Plan) (plan_num : Int) : Except Err Bool :=
  if plan.planNeedType = "multiple" ∧ plan_num ≤ total then
    if plan_num = 0 then .error .ZeroDivisionError else .ok (total.fmod plan_num = 0)
  else .ok (plan.planNeedType = "equal" ∧ total = plan_num)

/-- The last plan of the highest level among those whose condition is met. -/
def meetPlan (total : Int) : List Plan → Option (Int × Plan) → Except Err (Option Plan)
  | [], best => .ok (best.map Prod.snd)
  | plan :: plans, best =>
    match plan.planNeedNum, plan.planNeedLevel with
    | some plan_num, some plan_level =>
      match plan.meets total plan_num with
      | .error e => .error e
      | .ok true => meetPlan total plans (if best.any fun b => plan_level < b.1 then best else some (plan_level, plan))
      | .ok false => meetPlan total plans best
    | _, _ => .error .ValueError

/-- `get_meet_confidion` -/
def getMeetConfidion (acid : String) (plans : List Plan) : Handler (Option Plan) := do
  let total := (← getLotteryActiviceCount acid) + 1
  ofExcept (meetPlan total plans none)

/-- A reward with its rate and its side. -/
structure Rated where
  searchId : String
  rate : Option Int
  side : Option Int

def Listed.rated (reward : Listed) : Rated := ⟨reward.rewardId, reward.rewardRate, reward.rewardSide⟩

/-- The sides of a plan's rewards are their places. -/
def Plan.rated (plan : Plan) : List Rated :=
  plan.specialRate.zipIdx.map fun (reward, side) => ⟨reward.planRewardId, reward.planRewardRate, some (side : Int)⟩

/-- The reward of each side, the last one first, and each side as often as it is likely. -/
structure Wheel where
  rewards : List (Int × String)
  probabilitys : List Int

/-- The loop over the rewards. -/
def fillWheel (acid : String) : List Rated → Wheel → Handler Wheel
  | [], w => .ret w
  | reward :: rest, w => do
    if (← getActiveRewardNum acid reward.searchId) ≤ 0 then fillWheel acid rest w
    else
      let rate ← orRaise .ValueError reward.rate
      let side ← orRaise .ValueError reward.side
      fillWheel acid rest ⟨(side, reward.searchId) :: w.rewards, w.probabilitys ++ List.replicate rate.toNat side⟩

/-- The rewards of a plan whose condition is met, else those of the activity. -/
def getWheel (acid : String) (activice_info : Activice) : Handler Wheel := do
  let plan ← if activice_info.specialPlan = [] then .ret none else getMeetConfidion acid activice_info.specialPlan
  match plan with
  | some plan => fillWheel acid plan.rated ⟨[], []⟩
  | none => fillWheel acid (activice_info.rewardList.map Listed.rated) ⟨[], []⟩

/-! ## What a reward comes to -/

/-- `int(reward.get('baseRewardCount', '0')) * n`, of diamonds. -/
def diamonds (reward : RewardInfo) (n : Int) : Except Err Int :=
  if reward.type = some "diamonds" then
    match int (reward.baseRewardCount.getD "0") with
    | some count => .ok (count * n)
    | none => .error .ValueError
  else .ok 0

/-- `int(reward['priceTotal'])` -/
def priceOf (reward : RewardInfo) : Except Err Int :=
  match reward.priceTotal with
  | none => .error .KeyError
  | some text =>
    match int text with
    | some price => .ok price
    | none => .error .ValueError

/-- A pack as it fills up. -/
structure Pack where
  price_total : Int
  reward_num : Int
  ret_reward_list : List RewardInfo

/-- `n` of a reward go into the pack. -/
def Pack.extend (p : Pack) (reward : RewardInfo) (price n : Int) : Except Err Pack :=
  match diamonds reward n with
  | .ok num => .ok ⟨p.price_total - price * n, p.reward_num + num, p.ret_reward_list ++ List.replicate n.toNat reward⟩
  | .error e => .error e

/-- The first loop over a pack: as many of each reward as it must hold, while the price lasts. -/
def packMin : List Single → Pack → Handler Pack
  | [], p => .ret p
  | singleData :: rest, p => do
    let mincount ← orRaise .ValueError singleData.minCount
    let reward ← orRaise .TypeError (← getRewardInfo singleData.singleId)
    let price ← ofExcept (priceOf reward)
    if p.price_total - price * mincount < 0 then return p
    packMin rest (← ofExcept (p.extend reward price mincount))

/-- How many more of a reward may go into the pack: the reward, its price, and the count. -/
def singleCount (singleData : Single) (price_total : Int) : Handler (RewardInfo × Int × Int) := do
  let mincount ← orRaise .ValueError singleData.minCount
  let maxcount ← orRaise .ValueError singleData.maxCount
  let reward ← orRaise .TypeError (← getRewardInfo singleData.singleId)
  let price ← ofExcept (priceOf reward)
  if price = 0 then .raise .ZeroDivisionError
  let count := if price_total.fdiv price > maxcount - mincount then maxcount - mincount else price_total.fdiv price
  return (reward, price, count)

/-- The second loop: some more of each reward but the last. -/
def packMore (rnd : Draws) : List Single → Pack → Handler Pack
  | [], p => .ret p
  | singleData :: rest, p => do
    let (reward, price, count) ← singleCount singleData p.price_total
    if count ≤ 0 then packMore rnd rest p
    else
      -- `random.choice(xrange(count+1))`
      let real_count : Int := (rnd (rest.length + 1) % (count.toNat + 1) : Nat)
      packMore rnd rest (← ofExcept (p.extend reward price real_count))

/-- As many more of the last reward as fit. -/
def packLast (singleData : List Single) (p : Pack) : Handler Pack := do
  let singleData ← orRaise .IndexError singleData.getLast?
  let (reward, price, count) ← singleCount singleData p.price_total
  ofExcept (p.extend reward price count)

/-- What is returned, the cards that are credited, and whether the reward is handed over. -/
structure Given where
  ret_reward_list : List RewardInfo
  cards : Option Int
  isRecord : Bool

/-- A pack. -/
def givePack (rnd : Draws) (reward_info : RewardInfo) : Handler Given := do
  let price_total ← ofExcept (priceOf reward_info)
  let singleData ← orRaise .KeyError reward_info.singleData
  let p ← packMin singleData ⟨price_total, 0, []⟩
  if p.price_total ≤ 0 then return ⟨p.ret_reward_list, none, false⟩
  let p ← packMore rnd singleData.dropLast p
  let p ← if p.price_total > 0 then packLast singleData p else .ret p
  return ⟨p.ret_reward_list, if p.price_total ≥ 0 then some p.reward_num else none, false⟩

/-- The branches on the type of the reward. -/
def give (rnd : Draws) (reward_info : RewardInfo) : Handler Given := do
  if reward_info.type = some "diamonds" then
    let cardNums ← ofExcept (diamonds reward_info 1)
    return if cardNums > 0 then ⟨[reward_info], some cardNums, false⟩ else ⟨[], none, false⟩
  else if reward_info.type = some "pack" then givePack rnd reward_info
  else if reward_info.type = some "goods" then
    let isRecord ← orRaise .KeyError reward_info.isRecord
    return ⟨[], none, isRecord = "1"⟩
  else return ⟨[reward_info], none, false⟩

/-! ## Draws -/

/-- `set_awardees` -/
def setAwardees (groupid acid : String) (info : Awardee) : Handler Int := do
  let reid ← send .incrAwardees
  send (.setAwardee acid groupid reid info)
  return reid

/-- What is answered; the position and the rewards of a draw that succeeds. -/
structure Reply where
  code : Int
  msg : String
  osid : Option String := none
  data : Option (Int × List Prize) := none
  deriving Repr, DecidableEq

/-- `/activice/draw` from where the record of the reward has been read. -/
def award (consts : Consts) (rnd : Draws) (now : Date) (acid account userTable : String) (groupId nickname : Option String)
    (pos : Int) (reward_info : RewardInfo) : Handler Reply := do
  let id ← orRaise .IndexError (split ':' userTable)[1]?
  let given ← give rnd reward_info
  decrActiveRewardNum acid reward_info.id
  let rewardTitle ← orRaise .KeyError reward_info.title
  let rewardNum ← orRaise .ValueError (int (reward_info.baseRewardCount.getD "1"))
  let name := if nickname.getD "" = "" then account else nickname.getD ""
  let reid ← setAwardees (fmt groupId) acid
    ⟨now, id, name, rewardTitle, reward_info.id, rewardNum, reward_info.type.getD "", given.isRecord⟩
  let ret_reward_list := given.ret_reward_list.map (⟨·, none⟩) ++
    if given.isRecord then [⟨reward_info, some ⟨reid, acid, consts.HALL_PRE ++ "/activice/draw/phone"⟩⟩] else []
  if given.isRecord then
    -- the list of what has not been fetched
    send (.setNoreward account acid reid ret_reward_list)
  descLotteryNum acid account
  send (.execute (given.cards.toList.map fun cards => ((fmt groupId, id), cards)))
  return { code := 0, msg := "", data := some (pos, ret_reward_list) }

/-- `/activice/draw` from where the user is known. -/
def draw (consts : Consts) (rnd : Draws) (now : Date) (acid account userTable : String) : Handler Reply := do
  let groupId ← send (.hgetParentAg userTable)
  let nickname ← send (.hgetNickname userTable)
  if (← getLotteryNum acid account) ≤ 0 then return { code := 1, msg := "抽奖失败" }
  if !(← checkActiviceIsonline consts acid) then return { code := 301, msg := "活动已关闭" }
  let activice_info ← orRaise .AttributeError (← getActiciveInfo acid)
  let w ← getWheel acid activice_info
  setLotteryActiviceCount acid
  match pick (rnd 0) w.probabilitys with
  | none => return { code := 1, msg := "没有库存了" }
  | some pos =>
    let searchId ← orRaise .KeyError (w.rewards.lookup pos)
    match ← getRewardInfo searchId with
    | none => return { code := 0, msg := "", data := some (pos, []) }
    | some reward_info => award consts rnd now acid account userTable groupId nickname pos reward_info

/-- `/activice/draw` -/
def drawReward (consts : Consts) (rnd : Draws) (now : Date) (id : String) : Handler Reply := do
  let sid ← orRaise .IndexError (split '_' id)[0]?
  let acid ← orRaise .IndexError (split '_' id)[1]?
  let info ← getInfoBySid sid
  let verfiySid := info.verfiySid.getD ""
  if verfiySid ≠ "" ∧ sid ≠ verfiySid then return { code := -4, msg := "账号已在其他地方登录", osid := some sid }
  if !(← Common.ask (.existsSession sid)) then return { code := -3, msg := "sid 超时" }
  let account := fmt info.account
  let userTable := fmt (← Common.ask (.getUserTable account))
  if !(← Common.ask (.existsUser userTable)) then return { code := -5, msg := "该用户不存在" }
  draw consts rnd now acid account userTable

/-! ## Requests -/

/-- A request to draw. -/
structure Req where
  now : Date
  rnd : Draws
  id : String

def Req.handler (consts : Consts) (q : Req) : Handler Reply := drawReward consts q.rnd q.now q.id

end FishWeb.Lottery
