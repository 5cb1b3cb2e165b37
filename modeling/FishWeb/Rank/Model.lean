import FishWeb.Common.Model
import FishWeb.Lib.SortedSet
/-!
# Rankings

`/getRank` of `fish/fish.py`, and the script `rankRefresh.py` that copies the best of a
board into the snapshot the page reads. There are two boards, one of profits and one of
coins, and what is done for one is done for the other but for what is said here.

Scores are doubles that are integers. Redis writes them as `'%.17g'` does, and the casts
with `int` do not read an exponent. The time of day is an input of the script. Left out:
the log of the script and the ranks it counts for it, and the lifetime of a session.
-/
open Python Prog FishWeb.Common

namespace FishWeb.Rank

def RANK_COUNT : Nat := 10

def MY_MAX_RANK : Nat := 50

def NOT_RANK_USE_NUM : Nat := 10000

def REFRESH_TIMES : List String := ["00:00", "06:00", "12:00", "18:00"]

def REFRESH_COIN_RAKN_TIMES : List String := ["00:00"]

inductive Board where
  | coinDelta
  | coin
  deriving Repr, DecidableEq

inductive Key where
  /-- `FORMAT_USER_COINDELTA_TABLE`, `FORMAT_USER_COIN_TABLE` -/
  | user (b : Board)
  /-- `TMP_FORMAT_USER_COINDELTA_TABLE`, `TMP_FORMAT_USER_COIN_TABLE` -/
  | tmp (b : Board)
  deriving Repr, DecidableEq

structure St where
  shared : Shared
  board : Key → SortedSet String Int
  /-- `hmget (user_table, ('nickname', 'headImgUrl'))` -/
  profile : String → Option String × Option String
  /-- `hget (user_table, 'coin')` -/
  coin : String → Option String

instance : HasShared St := ⟨St.shared⟩

@[simp] theorem shared_eq (s : St) : HasShared.shared s = s.shared := rfl

def St.setBoard (s : St) (key : Key) (t : SortedSet String Int) : St :=
  { s with board := Function.update s.board key t }

/-! ## Commands -/

inductive Own : Type → Type
  /-- With the scores, as texts. -/
  | zrevrange (key : Key) (start stop : Nat) : Own (List (String × String))
  | zrevrangebyscore (key : Key) (max min : Int) : Own (List String)
  | zrevrank (key : Key) (member : String) : Own (Option Nat)
  | zscore (key : Key) (member : String) : Own (Option Int)
  | hmgetProfile (user_table : String) : Own (Option String × Option String)
  | hgetCoin (user_table : String) : Own (Option String)
  | delete (key : Key) : Own Unit
  /-- A pipeline of `zadd`. -/
  | zaddAll (key : Key) (players : List (String × Int)) : Own Unit

instance : Exec Own St where
  exec
    | .zrevrange key start stop, s => (((s.board key).zrevrange start stop).map fun e => (e.1, formatG17 e.2), s)
    | .zrevrangebyscore key max min, s => ((s.board key).zrevrangebyscore max min, s)
    | .zrevrank key member, s => ((s.board key).zrevrank member, s)
    | .zscore key member, s => ((s.board key).zscore member, s)
    | .hmgetProfile user_table, s => (s.profile user_table, s)
    | .hgetCoin user_table, s => (s.coin user_table, s)
    | .delete key, s => ((), s.setBoard key ∅)
    | .zaddAll key players, s => ((), s.setBoard key ((s.board key).zaddAll players))

abbrev Cmd := With Own

abbrev Handler := Prog Err Cmd

/-! ## The players of a board -/

/-- What `score_cast_func=int` makes of a reply. -/
def castScores (reply : List (String × String)) : Option (List (String × Int)) :=
  reply.mapM fun (member, score) => do return (member, ← int score)

/-- `redis.zrevrange(key, start, stop, True, int)` -/
def zrevrange (key : Key) (start stop : Nat) : Handler (List (String × Int)) := do
  orRaise .ValueError (castScores (← send (.zrevrange key start stop)))

/-- The best `MY_MAX_RANK`, and whoever is level with the last of them. -/
def topPlayers (key : Key) : Handler (List (String × Int)) := do
  let lastRank := MY_MAX_RANK - 1
  match ← zrevrange key lastRank lastRank with
  | [] => zrevrange key 0 lastRank
  | (_, score) :: _ =>
    let lastPlayers ← send (.zrevrangebyscore key score score)
    let first ← orRaise .IndexError lastPlayers.head?
    let firstRank ← orRaise .TypeError (← send (.zrevrank key first))
    zrevrange key 0 (firstRank + lastPlayers.length - 1)

/-- `less0RankPlayers`: whoever comes after the last player with 0. -/
def less0RankPlayers (key : Key) : Handler (List String) := do
  match (← send (.zrevrangebyscore key 0 0)).getLast? with
  | none => return []
  | some last =>
    let less0Rank ← orRaise .TypeError (← send (.zrevrank key last))
    let players ← send (.zrevrange key (less0Rank + 1) (less0Rank + 1))
    return players.map Prod.fst

/-! ## The script -/

/-- What `rankRefresh.py` does for a board. -/
def refresh (b : Board) : Handler Unit := do
  send (.delete (.tmp b))
  let players ← topPlayers (.user b)
  let _less0RankPlayers ← less0RankPlayers (.user b)
  send (.zaddAll (.tmp b) players)

/-- One turn of the main loop of `rankRefresh.py`. -/
def turn (nowHour : String) : Handler Unit := do
  if nowHour ∈ REFRESH_TIMES then refresh .coinDelta
  if nowHour ∈ REFRESH_COIN_RAKN_TIMES then refresh .coin

/-! ## The page -/

structure Row (σ : Type) where
  rank : Nat
  nickname : Option String
  headImgUrl : Option String
  score : σ
  uid : Int
  deriving Repr, DecidableEq

def pbAppendRank {σ : Type} (rankList : List (Row σ)) (rank : Nat) (nickname headImgUrl : Option String) (score : σ)
    (uid : Int) : List (Row σ) :=
  rankList ++ [{ rank := rank, nickname := nickname, headImgUrl := headImgUrl, score := score, uid := uid }]

/-- `int(user_table.split(':')[1])` -/
def userId (user_table : Option String) : Handler Int := do
  let user_table ← orRaise .AttributeError user_table
  let part ← orRaise .IndexError (split ':' user_table)[1]?
  orRaise .ValueError (int part)

/-- The ranks as they are counted along the players. -/
structure Count where
  rank : Nat := 1
  prevRank : Nat := 1
  sameCount : Nat := 0
  prevCoinDelta : Int

def Count.next (c : Count) (score : Int) : Count :=
  if score ≥ c.prevCoinDelta then
    { rank := c.prevRank, sameCount := c.sameCount + 1, prevRank := c.prevRank, prevCoinDelta := score }
  else
    { rank := c.prevRank + c.sameCount, sameCount := 1, prevRank := c.prevRank + c.sameCount, prevCoinDelta := score }

structure Shown where
  count : Count
  selfRank : Nat := 0
  selfTicketDelta : Int := 0
  rankList : List (Row Int) := []

/-- The turn of a player; the profits drop those who have lost. -/
def showPlayer (dropsLoss : Bool) (account : Option String) (less0 : List String) (acc : Shown)
    (player : String × Int) : Handler Shown := do
  let acc := { acc with count := acc.count.next player.2 }
  if dropsLoss ∧ acc.count.prevCoinDelta < 0 then return acc
  let playerTable ← ask (.getUserTable player.1)
  let (nickname, headImgUrl) ← send (.hmgetProfile (fmt playerTable))
  let uid ← userId playerTable
  let rankList := pbAppendRank acc.rankList acc.count.rank nickname headImgUrl player.2 uid
  if some player.1 = account then
    return { acc with selfRank := acc.count.rank, selfTicketDelta := player.2, rankList := rankList }
  if player.2 ≠ 0 ∨ less0 ≠ [] then return { acc with rankList := rankList }
  return acc

def showPlayers (dropsLoss : Bool) (account : Option String) (less0 : List String) :
    List (String × Int) → Shown → Handler Shown
  | [], acc => return acc
  | player :: players, acc => do
    let acc ← showPlayer dropsLoss account less0 acc player
    showPlayers dropsLoss account less0 players acc

/-- The rank and the score of a user who is not among those shown. -/
def selfOutside (key : Key) (account : Option String) (rank : Nat) : Handler (Nat × Int) := do
  match ← send (.zscore key (fmt account)) with
  | none => return (NOT_RANK_USE_NUM, 0)
  | some selfTicketDelta =>
    if selfTicketDelta = 0 then return (NOT_RANK_USE_NUM, 0)
    match ← send (.zrevrangebyscore key selfTicketDelta selfTicketDelta) with
    | [] => return (rank + 1, selfTicketDelta)
    | first :: _ =>
      let firstRank ← orRaise .TypeError (← send (.zrevrank key first))
      return (firstRank + 1, selfTicketDelta)

/-- `for index, otherData in enumerate(rankList)`: before the first of his score with a greater id. -/
def insertTied (rankData : Row Int) : List (Row Int) → List (Row Int)
  | [] => []
  | otherData :: rankList =>
    if rankData.score = otherData.score ∧ rankData.uid < otherData.uid then rankData :: otherData :: rankList
    else otherData :: insertTied rankData rankList

def place (rankList : List (Row Int)) (rankData : Row Int) : List (Row Int) :=
  let rankList := insertTied rankData rankList
  if rankData ∈ rankList then rankList else rankList ++ [rankData]

def ordered : List (Row Int) → List (Row Int)
  | [] => []
  | first :: rest => rest.foldl place [first]

/-- `data['rank'] = _rank + 1` -/
def numbered (rankList : List (Row Int)) : List (Row Int) :=
  rankList.zipIdx.map fun (data, _rank) => { data with rank := _rank + 1 }

/-- The rank of the last row with the id. -/
def rankOf (uid : Int) (selfRank : Nat) (rankList : List (Row Int)) : Nat :=
  rankList.foldl (fun selfRank data => if data.uid = uid then data.rank else selfRank) selfRank

/-- A ranking without the user's own row, and what goes into it. -/
structure Ranking where
  rankList : List (Row Int)
  selfRank : Nat
  nickname : Option String
  headImgUrl : Option String
  selfTicketDelta : Int
  uid : Int

/-- The rows in order, and the rank of the user among them if he is there. -/
def listed (rows : List (Row Int)) (user_table : String) (self : Nat × Int) : Handler Ranking := do
  let (selfRank, selfTicketDelta) := self
  let (nickname, headImgUrl) ← send (.hmgetProfile user_table)
  let uid ← userId (some user_table)
  let rankList := numbered (ordered rows)
  let selfRank := rankOf uid selfRank rankList
  return {
    rankList := rankList.take RANK_COUNT
    selfRank := if selfRank > MY_MAX_RANK then NOT_RANK_USE_NUM else selfRank
    nickname := nickname
    headImgUrl := headImgUrl
    selfTicketDelta := if selfTicketDelta < 0 then 0 else selfTicketDelta
    uid := uid }

def ranking (b : Board) (dropsLoss : Bool) (account : Option String) (user_table : String) : Handler Ranking := do
  let players ← topPlayers (.tmp b)
  let less0 ← less0RankPlayers (.tmp b)
  let count : Count := { prevCoinDelta := (players.head?.map Prod.snd).getD 0 }
  let acc ← showPlayers dropsLoss account less0 players { count := count }
  if acc.selfRank = 0 then
    let self ← selfOutside (.tmp b) account acc.count.rank
    listed acc.rankList user_table self
  else listed acc.rankList user_table (acc.selfRank, acc.selfTicketDelta)

/-- The score of a row of coins: the user's own is what his table says. -/
inductive Score where
  | int (n : Int)
  | field (x : Option String)
  deriving Repr, DecidableEq

def rankForProfit (account : Option String) (user_table : String) : Handler (List (Row Int)) := do
  let r ← ranking .coinDelta true account user_table
  return pbAppendRank r.rankList r.selfRank r.nickname r.headImgUrl r.selfTicketDelta r.uid

def rankForCoin (account : Option String) (user_table : String) (curScore : Option String) :
    Handler (List (Row Score)) := do
  let r ← ranking .coin false account user_table
  let rankList := r.rankList.map fun row => { row with score := Score.int row.score }
  return pbAppendRank rankList r.selfRank r.nickname r.headImgUrl (.field curScore) r.uid

structure Reply where
  code : Int
  msg : String := ""
  osid : Option String := none
  rankForProfit : List (Row Int) := []
  rankForCoin : List (Row Score) := []
  deriving Repr, DecidableEq

def Reply.refused (e : Refusal) : Reply := { code := e.code, msg := e.msg, osid := e.osid }

/-- `/getRank`. -/
def doGetRank (sid : String) : Handler Reply := do
  let info ← getInfoBySid sid
  match ← checkSessionVerfiy sid info with
  | .error e => return .refused e
  | .ok user_table =>
    let curTable := fmt (← ask (.getUserTable (fmt info.account)))
    let curScore ← send (.hgetCoin curTable)
    let profit ← rankForProfit info.account user_table
    let coin ← rankForCoin info.account user_table curScore
    return { code := 0, rankForProfit := profit, rankForCoin := coin }

end FishWeb.Rank
