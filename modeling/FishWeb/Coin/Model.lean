import FishWeb.Lib.Dice
import FishWeb.Lib.Prog
import FishWeb.Lib.Python
/-!
# Coins and what is given of them

`model/partyModel.py`: the coins of a user and their journal, what a sign-in gives, and the
allowance of those who have few. All keys are those of one user. The lists hold what was
dumped in them; the newest is at the head.

`partyModel.py` uses names of keys that it does not import: `USER4COIN` is defined nowhere in
the repository, and the others are in `model/gold_db_define.py`, for two values each. Which of
them a module binds is a parameter (`Names`); a name that is not bound raises where it is
evaluated.

The local calendar is not the code's to say: `day` and `text` are the date and the text of a
timestamp. The numbers that `random` comes up with are a parameter.
-/
open Python Prog Dice

namespace FishWeb.Coin

/-! ## The store -/

/-- An entry of the journal. -/
structure Entry where
  source : String
  date : String
  account : String
  coinChange : String
  coinTotal : Int
  deriving DecidableEq

/-- An entry of `WELFARE_USER_SIGN % uid`. -/
structure Sign where
  timestamp : Int
  uid : String
  coinNum : Int
  deriving DecidableEq

/-- An entry of `WELFARE_USER_INSURANCE % uid`. -/
structure Insurance where
  timestamp : Int
  uid : String
  coinNum : Int
  signTimes : Int
  deriving DecidableEq

structure St where
  /-- `get (USER4COIN % uid)` -/
  coin : Option Int
  /-- `RECORD4USER_COIN % uid` -/
  journal : List Entry
  sign : List Sign
  insurance : List Insurance
  deriving DecidableEq

/-! ## Commands -/

/-- What a pipeline does to the coins. -/
inductive Change where
  | incrby (n : Int)
  | set (n : Int)

inductive Cmd : Type → Type
  | getCoin : Cmd (Option Int)
  | lindexSign : Cmd (Option Sign)
  | lindexInsurance : Cmd (Option Insurance)
  /-- The pipeline of `do_PlayerCoin`. -/
  | execute (change : Change) (info : Entry) : Cmd Unit
  | lpushSign (info : Sign) : Cmd Unit
  | lpushInsurance (info : Insurance) : Cmd Unit

def Change.apply (coin : Option Int) : Change → Option Int
  | .incrby n => some (coin.getD 0 + n)
  | .set n => some n

instance : Exec Cmd St where
  exec
    | .getCoin, s => (s.coin, s)
    | .lindexSign, s => (s.sign.head?, s)
    | .lindexInsurance, s => (s.insurance.head?, s)
    | .execute change info, s => ((), { s with coin := change.apply s.coin, journal := info :: s.journal })
    | .lpushSign info, s => ((), { s with sign := info :: s.sign })
    | .lpushInsurance info, s => ((), { s with insurance := info :: s.insurance })

abbrev Handler := Prog Err Cmd

/-! ## Names -/

/-- The names that `partyModel.py` uses for the keys of the user. -/
inductive Name where
  | USER4COIN | RECORD4USER_COIN | WELFARE_USER_SIGN | WELFARE_USER_INSURANCE

/-- The names that a module binds. -/
abbrev Names := Name → Bool

/-- `partyModel.py` imports none of them. -/
def partyModel : Names := fun _ => false

/-- A module that imports all of them. -/
def imported : Names := fun _ => true

/-! ## Coins -/

section
variable (names : Names) (day text : Int → String)

/-- `"+{0}".format(n) if n > 0 else str(n)` -/
def signed (n : Int) : String := if n > 0 then "+" ++ toString n else toString n

def do_PlayerCoin (timestamp : Int) (action account : String) (coinNum : Int) (source : String) : Handler Bool := do
  loadName .NameError names .USER4COIN
  let coinTotal := (← call .getCoin).getD 0
  if action = "" then return false
  if action = "add" then
    loadName .NameError names .RECORD4USER_COIN
    call (.execute (.incrby coinNum) ⟨source, text timestamp, account, "+" ++ toString coinNum, coinTotal + coinNum⟩)
    return true
  if action = "to" then
    loadName .NameError names .RECORD4USER_COIN
    call (.execute (.set coinNum) ⟨source, text timestamp, account, signed (coinNum - coinTotal), coinNum⟩)
    return true
  -- `coinChange` has no value
  .raise .NameError

/-- `{'code': .., 'msg': ..}`, or what is not one. -/
inductive Reply where
  | msg (code : Int) (msg : String)
  | bool (b : Bool)
  deriving DecidableEq

def do_PlayerWelfareSign (timestamp : Int) (draws : Draws) (uid account : String) : Handler Reply := do
  loadName .NameError names .WELFARE_USER_SIGN
  let isSign := (← call .lindexSign).any fun lastInfo => day lastInfo.timestamp = day timestamp
  if isSign then return .bool false
  let (coinNum, _) ← ofExcept (randint 100 2000 draws)
  let res ← do_PlayerCoin names text timestamp "add" account coinNum "签到获得"
  if !res then return .msg 1 "增加金币失败"
  call (.lpushSign ⟨timestamp, uid, coinNum⟩)
  return .bool res

/-! ## The allowance -/

def SIGN_MAX : Int := 2

def SIGN_LINE : Int := 2000

def SIGN_COINNUM : Int := 2000

def do_PlayerWelfareInsurance (timestamp : Int) (uid account : String) : Handler Reply := do
  loadName .NameError names .WELFARE_USER_INSURANCE
  loadName .NameError names .USER4COIN
  let playerCoin := (← call .getCoin).getD 0
  if playerCoin ≥ SIGN_LINE then return .msg 1 "未达到低保线无法领取"
  let lastInfo ← call .lindexInsurance
  let isSign := lastInfo.any fun lastInfo => day lastInfo.timestamp = day timestamp
  let isTimesOverflow := lastInfo.any fun lastInfo => day lastInfo.timestamp = day timestamp ∧ lastInfo.signTimes ≥ SIGN_MAX
  if isSign && isTimesOverflow then return .msg 1 ("已经领取了 " ++ toString SIGN_MAX ++ " 次")
  let res ← do_PlayerCoin names text timestamp "add" account SIGN_COINNUM "低保获得"
  if !res then return .msg 1 "增加金币失败"
  -- the times are counted on from the last entry, whatever its day
  let signTimes := (lastInfo.map fun lastInfo => lastInfo.signTimes + 1).getD 1
  call (.lpushInsurance ⟨timestamp, uid, SIGN_COINNUM, signTimes⟩)
  return .msg 0 "领取低保成功"

end

/-! ## What they come to -/

section
variable {names : Names} {day text : Int → String} {s : St}

/-- The store after coins are added. -/
def St.added (s : St) (text : Int → String) (timestamp : Int) (account : String) (n : Int) (source : String) : St :=
  { s with
    coin := some (s.coin.getD 0 + n)
    journal := ⟨source, text timestamp, account, "+" ++ toString n, s.coin.getD 0 + n⟩ :: s.journal }

theorem run_add (timestamp : Int) (account : String) (n : Int) (source : String) :
    run (do_PlayerCoin imported text timestamp "add" account n source) s = (.ok true, s.added text timestamp account n source) :=
  rfl

/-- What a sign-in gives. -/
def signCoins (draws : Draws) : Nat := 100 + draws 0 % 1901

theorem run_sign (timestamp : Int) (draws : Draws) (uid account : String) :
    run (do_PlayerWelfareSign imported day text timestamp draws uid account) s =
      if s.sign.head?.any fun lastInfo => day lastInfo.timestamp = day timestamp then (.ok (.bool false), s)
      else (.ok (.bool true), { s.added text timestamp account (signCoins draws) "签到获得" with
        sign := ⟨timestamp, uid, signCoins draws⟩ :: s.sign }) := by
  unfold do_PlayerWelfareSign
  show run (if s.sign.head?.any _ then _ else _) s = _
  split <;> rfl

/-- The newest allowance is of this day, and the limit is reached. -/
def St.overflow (s : St) (day : Int → String) (timestamp : Int) : Bool :=
  s.insurance.head?.any fun lastInfo => day lastInfo.timestamp = day timestamp ∧ lastInfo.signTimes ≥ SIGN_MAX

/-- The store after an allowance. -/
def St.allowed (s : St) (text : Int → String) (timestamp : Int) (uid account : String) : St :=
  { s.added text timestamp account SIGN_COINNUM "低保获得" with
    insurance := ⟨timestamp, uid, SIGN_COINNUM, (s.insurance.head?.map fun lastInfo => lastInfo.signTimes + 1).getD 1⟩ :: s.insurance }

theorem run_allowance (timestamp : Int) (uid account : String) :
    run (do_PlayerWelfareInsurance imported day text timestamp uid account) s =
      if s.coin.getD 0 ≥ SIGN_LINE then (.ok (.msg 1 "未达到低保线无法领取"), s)
      else if s.overflow day timestamp then (.ok (.msg 1 "已经领取了 2 次"), s)
      else (.ok (.msg 0 "领取低保成功"), s.allowed text timestamp uid account) := by
  unfold do_PlayerWelfareInsurance
  show run (if s.coin.getD 0 ≥ SIGN_LINE then _ else _) s = _
  split
  · rfl
  · -- the limit is of the same day already
    have hsame : (s.insurance.head?.any (fun lastInfo => day lastInfo.timestamp = day timestamp) && s.overflow day timestamp) =
        s.overflow day timestamp := by
      unfold St.overflow
      cases s.insurance.head? with
      | none => rfl
      | some lastInfo => by_cases hday : day lastInfo.timestamp = day timestamp <;> simp [hday]
    show run (if s.insurance.head?.any (fun lastInfo => day lastInfo.timestamp = day timestamp) && s.overflow day timestamp then _ else _) s = _
    rw [hsame]
    cases s.overflow day timestamp with
    | true => rfl
    | false => rfl

/-! ## Names that are not bound -/

/-- `p` stops at a name that is not bound, with nothing done, or does what `q` does. -/
def Stops {α : Type} (p q : Handler α) (s : St) : Prop := run p s = (.error .NameError, s) ∨ run p s = run q s

theorem Stops.bind {α β : Type} {p q : Handler α} (h : Stops p q s) (f : α → Handler β) : Stops (p >>= f) (q >>= f) s := by
  rcases h with herror | hsame
  · exact .inl (run_bind_error herror)
  · exact .inr (by rw [run_bind, run_bind, hsame])

theorem stops_loadName {α : Type} {p : Unit → Handler α} {q : Handler α} {x : Name} (h : Stops (p ()) q s) :
    Stops (loadName .NameError names x >>= p) q s := by
  unfold loadName
  split
  · exact h
  · exact .inl rfl

theorem stops_coin {action : String} (haction : action = "add" ∨ action = "to") (timestamp : Int) (account : String) (n : Int)
    (source : String) :
    Stops (do_PlayerCoin names text timestamp action account n source)
      (do_PlayerCoin imported text timestamp action account n source) s := by
  refine stops_loadName ?_
  rcases haction with rfl | rfl
  · exact stops_loadName (.inr rfl)
  · exact stops_loadName (.inr rfl)

theorem stops_sign (timestamp : Int) (draws : Draws) (uid account : String) :
    Stops (do_PlayerWelfareSign names day text timestamp draws uid account)
      (do_PlayerWelfareSign imported day text timestamp draws uid account) s := by
  refine stops_loadName ?_
  show Stops (if s.sign.head?.any _ then _ else _) (if s.sign.head?.any _ then _ else _) s
  split
  · exact .inr rfl
  · exact (stops_coin (.inl rfl) ..).bind _

theorem stops_allowance (timestamp : Int) (uid account : String) :
    Stops (do_PlayerWelfareInsurance names day text timestamp uid account)
      (do_PlayerWelfareInsurance imported day text timestamp uid account) s := by
  refine stops_loadName (stops_loadName ?_)
  show Stops (if s.coin.getD 0 ≥ SIGN_LINE then _ else _) (if s.coin.getD 0 ≥ SIGN_LINE then _ else _) s
  split
  · exact .inr rfl
  · show Stops (if _ && _ then _ else _) (if _ && _ then _ else _) s
    split
    · exact .inr rfl
    · exact (stops_coin (.inl rfl) ..).bind _

end

end FishWeb.Coin
