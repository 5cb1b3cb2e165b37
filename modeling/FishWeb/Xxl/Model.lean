import FishWeb.Lib.Prog
import FishWeb.Lib.Python
import FishWeb.Lib.Counters
/-!
# The match-3 game

`/xiaoxiaole/run` of `hall/hall_xiaoxiaole.py` with the functions it uses of
`model/xiaoxiaoleModel.py`. A round takes the stakes off the player's coin, draws
a board, and credits what the connected groups of the board win, in coin or,
while the player has an honour budget, in honour.

The board generator is random: what it drew is an input of the round. Numbers in
redis hashes are `Counters.Table` fields. Left out: the choice of a chance table
and its `now_type`, the canvas and the coordinates in the answer, the start day
of a week's record, and the rows written to MySQL.
-/
open Python Counters

namespace FishWeb.Xxl

/-- A key of the parsed `bets`: any literal of the request. -/
inductive BetKey where
  | int (n : Int)
  | str (s : String)
  | other (literal : String)
  deriving Repr, DecidableEq

/-- The parsed `bets`, a dict. -/
structure Bets where
  items : List (BetKey × Int)
  nodup : (items.map Prod.fst).Nodup

def Bets.get (bets : Bets) (key : BetKey) : Option Int := bets.items.lookup key

def Bets.values (bets : Bets) : List Int := bets.items.map Prod.snd

inductive MoneyType where
  | GOLD | HONOR
  deriving Repr, DecidableEq

/-- The constants `GOLD` and `HONOR`. -/
def MoneyType.name : MoneyType → String
  | .GOLD => "gold"
  | .HONOR => "honor"

/-- `money` in the answer. -/
def MoneyType.flag : MoneyType → Int
  | .GOLD => 0
  | .HONOR => 1

/-- A connected group on the board. -/
structure Group where
  type : Int
  len : Int
  deriving Repr, DecidableEq

/-- The odds by type and length; entry 0 of a type is for lengths it does not list. -/
abbrev OddsTable := Int → Option (Int → Option ℚ)

/-- The hashes a round counts in. -/
inductive Key where
  /-- `users:%s` -/
  | user (uid : String)
  /-- `XXL_SHONOR_PLAYER_INFO % uid` -/
  | sHonorPlayer (uid : String)
  /-- `XXL_SHONOR_TOTAL_INFO` -/
  | sHonorTotal
  /-- `XXL_SHONOR_TOTAL_DATE % date` -/
  | sHonorTotalDate (date : String)
  /-- `XXL_MONEY_RECORD_DAY % date` -/
  | moneyDay (date : String)
  /-- `XXL_MONEY_RECORD_WEEK % week` -/
  | moneyWeek (week : String)
  /-- `XXL_MONEY_RECORD_PLAYER % uid` -/
  | moneyPlayer (uid : String)
  /-- `XXL_PLAYNUM_RECORD_DATE % date` -/
  | playNum (date : String)
  /-- `XXL_PLAYERNUM_RECORD_DATE % (date, kind)` -/
  | playerNum (date kind : String)
  deriving Repr, DecidableEq

/-- A field of a hash. -/
abbrev Field := Key × String

def coin (uid : String) : Field := (.user uid, "coin")
def honor (uid : String) : Field := (.user uid, "honor")
def surplus (uid : String) : Field := (.sHonorPlayer uid, "sHonor_Surplus")
def converted (uid : String) : Field := (.sHonorPlayer uid, "sHonor_Converted")
def totalSurplus : Field := (.sHonorTotal, "sHonor_Surplus")
def totalConverted : Field := (.sHonorTotal, "sHonor_Converted")

/-- A row of `record_player_balance_change`; the game is always `xxl` and the type 9. -/
structure BalanceChange where
  uid : String
  currency_id : Int
  quantity_change : Int
  quantity_final : Option Int
  deriving Repr, DecidableEq

structure St where
  hash : Table Field
  users : String → Bool
  /-- `XXL_OODS_DEFAULT`, its values evaluated; one that does not evaluate reads as `some` empty table -/
  odds : Option OddsTable
  balanceChanges : List BalanceChange

/-! ## Commands -/

inductive Cmd : Type → Type
  | existsUser (uid : String) : Cmd Bool
  | existsOdds : Cmd Bool
  | getXxlOdds : Cmd OddsTable
  | hget (field : Field) : Cmd (Option Int)
  | hincrby (field : Field) (n : Int) : Cmd Int
  | pipe (incrs : List (Field × Int)) : Cmd Unit
  | lpushBalanceChange (row : BalanceChange) : Cmd Unit

instance : Exec Cmd St where
  exec
    | .existsUser uid, s => (s.users uid, s)
    | .existsOdds, s => (s.odds.isSome, s)
    | .getXxlOdds, s => (s.odds.getD (fun _ => none), s)
    | .hget f, s => (s.hash f, s)
    | .hincrby f n, s => (val s.hash f + n, { s with hash := incrby s.hash f n })
    | .pipe l, s => ((), { s with hash := incrAll l s.hash })
    | .lpushBalanceChange row, s => ((), { s with balanceChanges := row :: s.balanceChanges })

/-- The increments of a command, in order. -/
instance : Note Cmd (Field × Int) where
  note
    | .hincrby f n, _ => [(f, n)]
    | .pipe l, _ => l
    | .existsUser _, _ | .existsOdds, _ | .getXxlOdds, _ | .hget _, _ | .lpushBalanceChange _, _ => []

section Exec
open Exec Note
variable (s : St)

@[simp] theorem exec_existsUser (uid : String) : exec (Cmd.existsUser uid) s = (s.users uid, s) := rfl

@[simp] theorem exec_existsOdds : exec Cmd.existsOdds s = (s.odds.isSome, s) := rfl

@[simp] theorem exec_getXxlOdds : exec Cmd.getXxlOdds s = (s.odds.getD (fun _ => none), s) := rfl

@[simp] theorem exec_hget (f : Field) : exec (Cmd.hget f) s = (s.hash f, s) := rfl

@[simp] theorem exec_hincrby (f : Field) (n : Int) :
    exec (Cmd.hincrby f n) s = (val s.hash f + n, { s with hash := incrby s.hash f n }) := rfl

@[simp] theorem exec_pipe (l : List (Field × Int)) :
    exec (Cmd.pipe l) s = ((), { s with hash := incrAll l s.hash }) := rfl

@[simp] theorem exec_lpushBalanceChange (row : BalanceChange) :
    exec (Cmd.lpushBalanceChange row) s = ((), { s with balanceChanges := row :: s.balanceChanges }) := rfl

@[simp] theorem note_existsUser (uid : String) (b : Bool) : note (Cmd.existsUser uid) b = ([] : List (Field × Int)) :=
  rfl

@[simp] theorem note_existsOdds (b : Bool) : note Cmd.existsOdds b = ([] : List (Field × Int)) := rfl

@[simp] theorem note_getXxlOdds (t : OddsTable) : note Cmd.getXxlOdds t = ([] : List (Field × Int)) := rfl

@[simp] theorem note_hget (f : Field) (n : Option Int) : note (Cmd.hget f) n = ([] : List (Field × Int)) := rfl

@[simp] theorem note_hincrby (f : Field) (n m : Int) : note (Cmd.hincrby f n) m = [(f, n)] := rfl

@[simp] theorem note_pipe (l : List (Field × Int)) (u : Unit) : note (Cmd.pipe l) u = l := rfl

@[simp] theorem note_lpushBalanceChange (row : BalanceChange) (u : Unit) :
    note (Cmd.lpushBalanceChange row) u = ([] : List (Field × Int)) := rfl

/-- A command changes the hashes by its increments, and nothing else does. -/
theorem exec_hash {β : Type} (c : Cmd β) : (exec c s).2.hash = incrAll (note c (exec c s).1) s.hash := by
  cases c <;> rfl

end Exec

abbrev Handler := Prog Err Cmd

open Prog (call orRaise)

/-! ## Odds and stakes -/

/-- `getOdds`; `none` is the `KeyError` of a type without odds. -/
def getOdds (oddTable : OddsTable) (type count : Int) : Option ℚ :=
  (oddTable type).map fun odds => match odds count with
    | some o => o
    | none => (odds 0).getD 0

/-- `bets.get(numtype, 0) or bets.get(str(numtype), 0)`. -/
def stake (bets : Bets) (numtype : Int) : Int :=
  match bets.get (.int numtype) with
  | some n => if n ≠ 0 then n else (bets.get (.str (toString numtype))).getD 0
  | none => (bets.get (.str (toString numtype))).getD 0

/-- What the odds multiply: the stake, or its hundreds in honour. -/
def wager (moneyType : MoneyType) (bets : Bets) (numtype : Int) : Int :=
  match moneyType with
  | .GOLD => stake bets numtype
  | .HONOR => stake bets numtype / 100

/-- A result of the round: a group of the board and its score. -/
structure Rep where
  len : Int
  type : Int
  score : Int
  deriving Repr, DecidableEq

/-- One round of the loop over the results. -/
def score (moneyType : MoneyType) (oddsTable : OddsTable) (bets : Bets) (g : Group) : Option Rep :=
  (getOdds oddsTable g.type g.len).map fun odds =>
    ⟨g.len, g.type, truncate (floatMul (wager moneyType bets g.type) odds)⟩

/-- `getMoneyType`. -/
def getMoneyType (uid : String) (totalPayGold : Int) : Handler MoneyType := do
  let sHonor_Surplus := (← call (.hget (surplus uid))).getD 0
  return if sHonor_Surplus ≠ 0 ∧ totalPayGold / 100 ≤ sHonor_Surplus then .HONOR else .GOLD

/-- The `moneyType` of `xiaoxiaole_run`: honour is possible from a stake of 100 on. -/
def roundMoneyType (uid : String) (bets : Bets) : Handler MoneyType :=
  let isMore100 := bets.values.any (fun _bet => 1 ≤ _bet / 100)
  if isMore100 then getMoneyType uid bets.values.sum else return .GOLD

/-- The list `mathsList_type_len` of an honour round reads `bets[_num]` for each
of the five types that is bet on, under an integer or a string key; with only
the string it raises. What it draws is part of the board. -/
def mathsListTypeLen (bets : Bets) : Option Unit :=
  if ∃ num ∈ ([1, 2, 3, 4, 5] : List Int),
      (bets.get (.int num)).isNone ∧ (bets.get (.str (toString num))).isSome then none
  else some ()

/-! ## Records -/

structure Clock where
  date : String
  week : String
  deriving Repr, DecidableEq

/-- The pipeline of `saveXxlRecord`. -/
def recordPipe (now : Clock) (get_gold put_gold : Int) (money : MoneyType) (uid : String) : List (Field × Int) :=
  let fields := [Key.moneyDay now.date, .moneyWeek now.week, .moneyPlayer uid]
  let getField := match money with
    | .GOLD => "get_gold"
    | .HONOR => "get_gold_byHonor"
  (if get_gold ≠ 0 then fields.map fun k => ((k, getField), get_gold) else []) ++
    (if put_gold ≠ 0 then fields.map fun k => ((k, "put_" ++ money.name), put_gold) else [])

def saveXxlRecord (now : Clock) (get_gold put_gold : Int) (money : MoneyType) (uid : String) : Handler Unit :=
  call (.pipe (recordPipe now get_gold put_gold money uid))

/-- The pipeline of `saveXxlHonorTrade`; the bill it then writes to MySQL is left out. -/
def honorTradePipe (now : Clock) (uid : String) (winHonor : Int) : List (Field × Int) :=
  [(surplus uid, -winHonor), (converted uid, winHonor),
    (totalSurplus, -winHonor), (totalConverted, winHonor),
    ((.sHonorTotalDate now.date, "sHonor_Surplus"), -winHonor),
    ((.sHonorTotalDate now.date, "sHonor_Converted"), winHonor)]

def saveXxlHonorTrade (now : Clock) (uid : String) (winHonor : Int) : Handler Unit :=
  call (.pipe (honorTradePipe now uid winHonor))

/-- The pipeline of `saveXxlPlayRecord`. -/
def playRecordPipe (now : Clock) (uid : String) (moneyType : MoneyType) : List (Field × Int) :=
  [((.playNum now.date, "PlayNumTotal"), 1),
    ((.playNum now.date, match moneyType with | .HONOR => "PlayNum_Honor" | .GOLD => "PlayNum_Gold"), 1),
    ((.playerNum now.date "total", uid), 1),
    ((.playerNum now.date moneyType.name, uid), 1)]

def saveXxlPlayRecord (now : Clock) (uid : String) (moneyType : MoneyType) : Handler Unit :=
  call (.pipe (playRecordPipe now uid moneyType))

/-! ## The round -/

structure Req where
  uid : String
  /-- the literal of the `bets` parameter, unless it is no dict -/
  bets : Option Bets
  /-- the groups of the board drawn, unless the generator failed its assertion -/
  board : Option (List Group)
  now : Clock

structure Done where
  winScore : Int
  money : Int
  datas : List Rep
  gold_coin : Int
  honor_coin : Int
  deriving Repr, DecidableEq

inductive Reply where
  | refused (code : Int) (msg : String)
  | done (d : Done)
  deriving Repr, DecidableEq

/-- The end of `xiaoxiaole_run`, once the board is scored. -/
def settle (req : Req) (moneyType : MoneyType) (totalPayGold : Int) (datas : List Rep) : Handler Reply := do
  let winScore := (datas.map Rep.score).sum
  let _ ← call (.hincrby (coin req.uid) (-totalPayGold))
  call (.lpushBalanceChange ⟨req.uid, 2, -totalPayGold, ← call (.hget (coin req.uid))⟩)
  let _ ← call (.hincrby (.user req.uid, moneyType.name) winScore)
  let gold := (← call (.hget (coin req.uid))).getD 0
  let honor := (← call (.hget (honor req.uid))).getD 0
  match moneyType with
  | .HONOR => call (.lpushBalanceChange ⟨req.uid, 16, winScore, some honor⟩)
  | .GOLD => call (.lpushBalanceChange ⟨req.uid, 2, winScore, some gold⟩)
  saveXxlRecord req.now totalPayGold winScore moneyType req.uid
  match moneyType with
  | .HONOR => saveXxlHonorTrade req.now req.uid winScore
  | .GOLD => pure ()
  saveXxlPlayRecord req.now req.uid moneyType
  -- added by default, whatever the round was settled in
  let gold ← call (.hincrby (coin req.uid) winScore)
  return .done ⟨winScore, moneyType.flag, datas, gold, honor⟩

/-- The middle of `xiaoxiaole_run`: the board is drawn and scored. -/
def playBoard (req : Req) (bets : Bets) (moneyType : MoneyType) : Handler Reply := do
  match moneyType with
  | .GOLD => pure ()
  | .HONOR => orRaise .KeyError (mathsListTypeLen bets)
  let results ← orRaise .AssertionError req.board
  let oddsTable ← call .getXxlOdds
  let datas ← orRaise .KeyError (results.mapM (score moneyType oddsTable bets))
  settle req moneyType bets.values.sum datas

/-- `xiaoxiaole_run`. -/
def xiaoxiaoleRun (req : Req) : Handler Reply := do
  if !(← call (.existsUser req.uid)) then return .refused (-5) "该用户不存在"
  match req.bets with
  | none => return .refused (-1) "参数错误"
  | some bets =>
    let gold ← call (.hget (coin req.uid))
    let totalPayGold := bets.values.sum
    match gold with
    | none => return .refused (-1) "金币不足"
    | some gold =>
      if gold < totalPayGold then return .refused (-1) "金币不足"
      if !(← call .existsOdds) then return .refused (-1) "配置错误"
      let moneyType ← roundMoneyType req.uid bets
      playBoard req bets moneyType

end FishWeb.Xxl
