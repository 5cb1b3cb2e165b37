import FishWeb.Guild.Join
import FishWeb.Lib.Decimal
/-!
# Gold and its ranking

`player_add_gold`, `player_set_gold` and `saveBuyGoldRecord` of `model/goldModel.py`, with
`/welfare/coin/GMSet` of `hall/hall_gold.py`, `addGold2Merber` of `hall/hall_func.py` and
the credit of `xiaoxiaole_run` of `hall/hall_xiaoxiaole.py`. Beside them, what takes users
into guilds and out of them.

A guild ranks its users by their gold, in a sorted set that is refreshed after some
updates of the gold. The gold is kept as the text that is stored. Left out: the records and
sums of purchases, whose counters are integers, and what else a round of the match-3 game
does.
-/
open Python Prog
open Function (update)

namespace FishWeb.Wealth

open Common
open Guild (userTableOf)
open Guild.Join (Hall)

/-! ## The store -/

structure St where
  hall : Hall
  /-- `hget (user_table, 'gold')` -/
  gold : String → Option String
  /-- Whether `getPrivateRedisInst` finds an instance. -/
  prredis : Bool
  /-- `zscore (GOLD_MONEY_RANK_WITH_AGENT_ZSET % agentid, account)` -/
  rank : String → String → Option ℚ

def St.userTable (s : St) (account : String) : Option String := s.hall.guild.shared.userTable account

def St.parentAg (s : St) (user_table : String) : Option String := s.hall.guild.parentAg user_table

/-! ## Commands -/

/-- What a counter holds after an increment; `none` where Redis refuses it. -/
def incrText (stored : Option String) (n : String) : Option Int :=
  (match stored with
    | none => some 0
    | some text => redisInt text).bind fun old => ((redisInt n).map (old + ·)).filter isInt64

/-- The score that Redis reads in the argument of `zadd`. -/
def score (gold : String) : Option ℚ := (decimal gold.toList).map toDouble

inductive Own : Type → Type
  | getUserTable (account : String) : Own (Option String)
  /-- `hgetall (user_table)`: the guild and the gold -/
  | hgetall (user_table : String) : Own (Option String × Option String)
  /-- Whether the increment is carried out. -/
  | hincrbyGold (user_table n : String) : Own Bool
  | hsetGold (user_table gold : String) : Own Unit
  | privateRedisInst : Own Bool
  /-- Whether the score is a number. -/
  | zadd (agentid account gold : String) : Own Bool
  /-- The pipeline of `addGold2Merber`: whether every command of it is carried out. -/
  | buy (user_table money num : String) : Own Bool

inductive Cmd (β : Type) : Type
  | own (c : Own β)
  | hall (c : Guild.Join.Cmd β)

/-- The gold after an increment, if it is carried out. -/
def St.incrGold (s : St) (user_table n : String) : St :=
  match incrText (s.gold user_table) n with
  | some gold => { s with gold := update s.gold user_table (some (toString gold)) }
  | none => s

def St.ranked (s : St) (agentid account : String) (q : ℚ) : St :=
  { s with rank := update s.rank agentid (update (s.rank agentid) account (some q)) }

instance : Exec Own St where
  exec
    | .getUserTable account, s => (s.userTable account, s)
    | .hgetall user_table, s => ((s.parentAg user_table, s.gold user_table), s)
    | .hincrbyGold user_table n, s => ((incrText (s.gold user_table) n).isSome, s.incrGold user_table n)
    | .hsetGold user_table gold, s => ((), { s with gold := update s.gold user_table (some gold) })
    | .privateRedisInst, s => (s.prredis, s)
    | .zadd agentid account gold, s =>
      match score gold with
      | some q => (true, s.ranked agentid account q)
      | none => (false, s)
    | .buy user_table money num, s =>
      ((incrText (s.gold user_table) num).isSome && (redisInt num).isSome && (redisInt money).isSome, s.incrGold user_table num)

instance : Exec Cmd St where
  exec
    | .own c, s => Exec.exec c s
    | .hall c, s => ((Exec.exec c s.hall).1, { s with hall := (Exec.exec c s.hall).2 })

abbrev Handler := Prog Err Cmd

def send {β : Type} (c : Own β) : Handler β := .cmd (.own c) .ret

/-- A handler of the guilds. -/
def hall {α : Type} (p : Prog Err Guild.Join.Cmd α) : Handler α := p.lift fun _ => .hall

/-! ## Handlers -/

/-- `get_user_info`: the guild and the gold. -/
def getUserInfo (account : String) : Handler (Option (Option String × Option String)) := do
  let user_table := (← send (.getUserTable account)).getD ""
  if user_table = "" then return none
  let info ← send (.hgetall user_table)
  let _uid ← orRaise .IndexError (split ':' user_table)[1]?
  return some info

/-- The end of the functions that refresh the ranking. -/
def refresh (account : String) : Handler Bool := do
  let prredis ← send .privateRedisInst
  match ← getUserInfo account with
  | none => return false
  | some (parentAg, gold) =>
    let agentid ← orRaise .KeyError parentAg
    let gold ← orRaise .KeyError gold
    if !prredis then .raise .AttributeError
    else if ← send (.zadd agentid account gold) then return true
    else .raise .ResponseError

/-- `player_add_gold` -/
def playerAddGold (account : String) (gold : Int) : Handler Bool := do
  let user_table := (← send (.getUserTable account)).getD ""
  if user_table = "" then return false
  if ← send (.hincrbyGold user_table (toString gold)) then refresh account else .raise .ResponseError

/-- `player_set_gold` -/
def playerSetGold (account gold : String) : Handler Bool := do
  let user_table := (← send (.getUserTable account)).getD ""
  if user_table = "" then return false
  send (.hsetGold user_table gold)
  refresh account

/-- `all(c in "0123456789.+-" for c in coinNum)` -/
def isNumber (coinNum : String) : Bool := coinNum.toList.all fun c => c ∈ "0123456789.+-".toList

/-- `/welfare/coin/GMSet` -/
def checkWelfareIsGM (sid coinNum : String) : Handler Bool := do
  if coinNum = "" ∨ !isNumber coinNum then return false
  let info ← hall (Guild.Join.guild (getInfoBySid sid))
  playerSetGold (fmt info.account) coinNum

/-- `saveBuyGoldRecord`, which catches every exception. -/
def saveBuyGoldRecord (account : String) : Handler Unit := do
  let _ ← (refresh account).attempt

/-- What a purchase of gold does to the store of a server. -/
structure GoldSale (C : Type → Type) where
  getUserTable (account : String) : Prog Err C (Option String)
  /-- `pipe.execute()` -/
  execute (uid account money num : String) : Prog Err C Unit
  saveBuyGoldRecord (account : String) : Prog Err C Unit

/-- `addGold2Merber` -/
def GoldSale.addGold2Merber {C : Type → Type} (sale : GoldSale C) (account money num : String) : Prog Err C Unit := do
  let user_table := (← sale.getUserTable account).getD ""
  if user_table = "" then return ()
  let uid ← orRaise .IndexError (split ':' user_table)[1]?
  sale.execute uid account money num
  sale.saveBuyGoldRecord account

def goldSale : GoldSale Cmd where
  getUserTable account := send (.getUserTable account)
  execute uid _ money num := do
    if ← send (.buy (userTableOf uid) money num) then return () else .raise .ResponseError
  saveBuyGoldRecord := saveBuyGoldRecord

/-- `redis.hincrby(userTable, moneyType, winScore)` of a round that is settled in gold. -/
def credit (userTable : String) (winScore : Int) : Handler Unit := do
  if ← send (.hincrbyGold userTable (toString winScore)) then return () else .raise .ResponseError

/-! ## Requests -/

inductive Req where
  | add (account : String) (gold : Int)
  | gmSet (sid coinNum : String)
  | buy (account money num : String)
  | credit (userTable : String) (winScore : Int)
  | guild (r : Guild.Join.Req)
  | exitGroup (sid : String)

def Req.handler (fuel : Nat) : Req → Handler Unit
  | .add account gold => do let _ ← playerAddGold account gold
  | .gmSet sid coinNum => do let _ ← checkWelfareIsGM sid coinNum
  | .buy account money num => goldSale.addGold2Merber account money num
  | .credit userTable winScore => Wealth.credit userTable winScore
  | .guild r => hall (r.handler fuel)
  | .exitGroup sid => do let _ ← hall (Guild.Join.guild (Guild.exitGroup fuel sid))

def step (fuel : Nat) (r : Req) (s : St) : St := (run (r.handler fuel) s).2

end FishWeb.Wealth
