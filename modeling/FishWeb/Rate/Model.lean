import FishWeb.Lib.Decimal
import FishWeb.Lib.Prog
/-!
# Shares of a sale

`countRateOfAgent` and `getCardMoney` of `hall/hall_func.py`. A sale is recorded
with the agent of the member and, call by call, with each agent above him up to the
company, whose type is `'0'`.

Amounts are exact decimals. `depth` is how many calls the interpreter has left. A
field of a record that was never written counts as zero. A pipeline is a
transaction.
-/
open Python Prog

namespace FishWeb.Rate

/-! ## The store -/

/-- `AGENT_TABLE % id`. An agent without a record has none of the fields. -/
structure Agent where
  type : Option String
  shareRate : Option String
  parent_id : Option String
  unitPrice : Option String
  deriving Repr, DecidableEq

inductive RateTable where
  /-- `AGENT_COMPAY_RATE_DATE % (agentId, date)` -/
  | company (agentId date : String)
  /-- `AGENT_RATE_DATE % (agentId, parentrate, unitPrice, date)` -/
  | agent (agentId parentrate unitPrice date : String)
  deriving Repr, DecidableEq

/-- The amounts of a record. -/
inductive Amount where
  | rateTotal | meAndNextTotal | superRateTotal
  deriving Repr, DecidableEq

structure Record where
  number : Int
  unitPrice : Option String
  rate : Option String
  amount : Amount → ℚ

structure St where
  agent : String → Agent
  record : RateTable → Record

/-! ## Commands -/

/-- The commands of a pipeline on one record. -/
inductive Write where
  | hincrbyNumber (amount : Int)
  | hsetUnitPrice (unitPrice : String)
  | hsetRate (rate : String)
  | hincrbyfloat (field : Amount) (amount : ℚ)

open Function (update)

def Write.apply (r : Record) : Write → Record
  | .hincrbyNumber amount => { r with number := r.number + amount }
  | .hsetUnitPrice unitPrice => { r with unitPrice := some unitPrice }
  | .hsetRate rate => { r with rate := some rate }
  | .hincrbyfloat field amount => { r with amount := update r.amount field (r.amount field + amount) }

inductive Cmd : Type → Type
  /-- `hmget (AGENT_TABLE % agentId, ('type', 'shareRate', 'parent_id'))` -/
  | hmgetAgent (agentId : String) : Cmd (Option String × Option String × Option String)
  /-- `hmget (AGENT_TABLE % parentId, ('type', 'shareRate'))` -/
  | hmgetParent (parentId : String) : Cmd (Option String × Option String)
  /-- `hmget (AGENT_TABLE % groupId, 'unitPrice', 'parent_id', 'type')` -/
  | hmgetPrice (groupId : String) : Cmd (Option String × Option String × Option String)
  | execute (table : RateTable) (pipe : List Write) : Cmd Unit

instance : Exec Cmd St where
  exec
    | .hmgetAgent agentId, s => (((s.agent agentId).type, (s.agent agentId).shareRate, (s.agent agentId).parent_id), s)
    | .hmgetParent parentId, s => (((s.agent parentId).type, (s.agent parentId).shareRate), s)
    | .hmgetPrice groupId, s => (((s.agent groupId).unitPrice, (s.agent groupId).parent_id, (s.agent groupId).type), s)
    | .execute table pipe, s => ((), { s with record := update s.record table (pipe.foldl Write.apply (s.record table)) })

/-- What a pipeline records of a sale: the cards, and what they add to the total. -/
structure Sale where
  table : RateTable
  number : Int
  total : ℚ
  deriving DecidableEq

def Write.number : Write → Int
  | .hincrbyNumber amount => amount
  | _ => 0

def Write.total : Write → ℚ
  | .hincrbyfloat .rateTotal amount => amount
  | _ => 0

instance : Note Cmd Sale where
  note
    | .execute table pipe, _ => [⟨table, (pipe.map Write.number).sum, (pipe.map Write.total).sum⟩]
    | _, _ => []

abbrev Handler := Prog Err Cmd

def send {β : Type} (c : Cmd β) : Handler β := .cmd c .ret

/-! ## Rates -/

/-- `float(text)`, exact. -/
def decimalOf (text : String) : Option ℚ := decimal (strip text.toList)

/-- `float(rate)` of a text, or of the number zero. -/
def toFloat : Option String → Handler ℚ
  | some text => orRaise .ValueError (decimalOf text)
  | none => .ret 0

/-- `float(unitPrice)` -/
def priceFloat : Option String → Handler ℚ
  | some text => orRaise .ValueError (decimalOf text)
  | none => .raise .TypeError

/-- `a > b` of texts that may be missing: nothing is smaller than a text. -/
def greater : Option String → Option String → Bool
  | some a, some b => b < a
  | some _, none => true
  | none, _ => false

/-- `if not parentrate: parentrate = 0.00` -/
def orZero (parentrate : Option String) : Option String := if parentrate = some "" then none else parentrate

/-- The rate of an agent, cut to his parent's if that is not the company and the text is smaller. -/
def clamp (parentrate parent1Type parent1Rate : Option String) : Option String :=
  orZero (if parent1Type ≠ some "0" ∧ greater parentrate parent1Rate then parent1Rate else parentrate)

/-! ## Handlers -/

/-- `countRateOfAgent` -/
def countRateOfAgent (date : String) (roomcardNumber : Int) (unitPrice : Option String) : Nat → String → Option String → Handler Unit
  | 0, _, _ => .raise .RuntimeError
  | depth + 1, agentId, lowerRate => do
    let (parentType, parentrate, parentId) ← send (.hmgetAgent agentId)
    let table :=
      if parentType = some "0" then RateTable.company agentId date
      else RateTable.agent agentId (fmt parentrate) (fmt unitPrice) date
    let pipe := [.hincrbyNumber roomcardNumber, .hsetUnitPrice (fmt unitPrice), .hsetRate (fmt parentrate)]
    let remainPrice := (← priceFloat unitPrice) - (← toFloat lowerRate)
    if parentType = some "0" then
      send (.execute table (pipe ++ if remainPrice > 0 then [.hincrbyfloat .rateTotal (remainPrice * roomcardNumber)] else []))
    else if remainPrice ≤ 0 then
      countRateOfAgent date roomcardNumber unitPrice depth (fmt parentId) lowerRate
      send (.execute table pipe)
    else
      let (parent1Type, parent1Rate) ← send (.hmgetParent (fmt parentId))
      let parentrate := clamp parentrate parent1Type parent1Rate
      let firstRemainPrice := (← priceFloat unitPrice) - (← toFloat parentrate)
      countRateOfAgent date roomcardNumber unitPrice depth (fmt parentId) parentrate
      if firstRemainPrice ≤ 0 then
        -- what the agent below is granted is taken off here only
        let price ← priceFloat unitPrice
        send (.execute table (pipe ++
          [.hincrbyfloat .rateTotal (remainPrice * roomcardNumber), .hincrbyfloat .meAndNextTotal (price * roomcardNumber)]))
      else
        let rate ← toFloat parentrate
        send (.execute table (pipe ++
          [.hincrbyfloat .rateTotal (rate * roomcardNumber), .hincrbyfloat .meAndNextTotal (rate * roomcardNumber),
            .hincrbyfloat .superRateTotal (firstRemainPrice * roomcardNumber)]))

/-- `getCardMoney` -/
def getCardMoney : Nat → String → Handler (Option String)
  | 0, _ => .raise .RuntimeError
  | depth + 1, groupId => do
    let (unitPrice, parentId, atype) ← send (.hmgetPrice groupId)
    if atype = some "2" ∨ atype = some "3" then getCardMoney depth (fmt parentId) else return unitPrice

end FishWeb.Rate
