import FishWeb.Common.Model
import FishWeb.Lib.Counters
import FishWeb.Lib.Dice
/-!
# The questionnaire

`/question`, `/question/opening` and `/question/answer` of `fish/fish_spring.py`. A
user is shown some questions, opens the questionnaire, and sends a map from
question ids to answers; each right answer earns a ticket from a pool of limited
prizes, or coins where the pool is empty.

The clock and the random draws of a request are inputs. A pipeline is a
transaction. The prizes are stored under their ids, so no two have the same.
-/
open Python Prog Counters Calendar Dice FishWeb.Common

namespace FishWeb.Question

/-! ## The store -/

def ACTIVICE_QUESTION_SELECT : Nat := 4

def ACTIVICE_QUESTION_TIME : Nat := 7

def ACTIVICE_QUESTION_TITLE : String := "超级问答"

def ACTIVICE_QUESTION_DESC : String := "超级问答,一共四道题，每答对一题可获取一个红包，每天每个用户只能参与一次。"

def ACTIVICE_QUESTION_GOLD_MIN : Nat := 10000

def ACTIVICE_QUESTION_GOLD_MAX : Nat := 50000

/-- A question of the bank. -/
structure Entry where
  question : String
  answer : List String
  formType : Nat
  /-- The right answers, as their numbers with commas between. -/
  correct : String
  deriving Repr, DecidableEq

/-- A prize. -/
structure Item where
  id : Nat
  title : String
  total : Int
  max : Int
  deriving Repr, DecidableEq

/-- The stored prizes. -/
structure RewardList where
  items : List Item
  nodup : (items.map (·.id)).Nodup

/-- What the questionnaire does not write. -/
structure Setup where
  shared : Shared
  /-- `ACTIVICE_QUESTION_ALL_HESH` -/
  questions : List (String × Entry)
  /-- `ACTIVICE_QUESTION_REWARD_LIST` -/
  rewards : RewardList

inductive Purse where
  /-- `hget (userTable, 'coin')` -/
  | coin (userTable : String)
  /-- `hget (userTable, 'exchange_ticket')` -/
  | exchange_ticket (userTable : String)
  /-- `hget ('fish:redpick:account:hesh', account)` -/
  | redpick (account : String)
  /-- `ACTIVICE_SEND_REDPACK_COUNT`, `ACTIVICE_SEND_GOLD_COUNT` and `ACTIVICE_SEND_TICK_COUNT`, by date. -/
  | sendRedpack (date : Date)
  | sendGold (date : Date)
  | sendTick (date : Date)
  deriving DecidableEq

structure St where
  setup : Setup
  /-- `ACTIVICE_QUESTION_ANSWER`: the date of the last submission of an account. -/
  answer : String → Option Date
  /-- `ACTIVICE_QUESTION_START` -/
  start : String → Option Date
  /-- `ACTIVICE_QUESTION_REWARD_COUNT % rid`, by date. -/
  count : Table (Nat × Date)
  amounts : Table Purse

instance : HasShared St := ⟨fun s => s.setup.shared⟩

/-! ## Commands -/

inductive Own : Type → Type
  | getAnswer (account : String) : Own (Option Date)
  | getStart (account : String) : Own (Option Date)
  | setStart (account : String) (date : Date) : Own Unit
  /-- `hkeys (ACTIVICE_QUESTION_ALL_HESH)` -/
  | hkeys : Own (List String)
  | getEntry (tid : String) : Own (Option Entry)
  | hgetallRewards : Own (List Item)
  | getCount (rid : Nat) (date : Date) : Own (Option Int)
  | hincrbyCount (rid : Nat) (date : Date) : Own Unit
  /-- The pipeline of an answer: the increments, and the date of the submission. -/
  | execute (l : List (Purse × Int)) (account : String) (date : Date) : Own Unit

open Function (update)

instance : Exec Own St where
  exec
    | .getAnswer account, s => (s.answer account, s)
    | .getStart account, s => (s.start account, s)
    | .setStart account date, s => ((), { s with start := update s.start account (some date) })
    | .hkeys, s => (s.setup.questions.map Prod.fst, s)
    | .getEntry tid, s => ((s.setup.questions.find? (·.1 = tid)).map Prod.snd, s)
    | .hgetallRewards, s => (s.setup.rewards.items, s)
    | .getCount rid date, s => (s.count (rid, date), s)
    | .hincrbyCount rid date, s => ((), { s with count := incrby s.count (rid, date) 1 })
    | .execute l account date, s =>
      ((), { s with amounts := incrAll l s.amounts, answer := update s.answer account (some date) })

abbrev Cmd := With Own

abbrev Handler := Prog Err Cmd

/-! ## Handlers -/

/-- A prize, or coins, as the user is told. -/
structure Sent where
  title : String
  total : Int
  deriving Repr, DecidableEq

/-- What a user is shown. -/
structure Sheet where
  list : List Entry
  title : String
  desc : String
  timeLimit : Nat
  /-- The method and the address to answer at. -/
  route : String × String
  deriving Repr, DecidableEq

structure Reply where
  code : Int
  msg : String
  sheet : Option Sheet := none
  data : List Sent := []
  deriving Repr, DecidableEq

/-- `/question`. -/
def question (now : Date) (draws : Draws) (sid : String) : Handler Reply := do
  let info ← getInfoBySid sid
  if !(← ask (.existsSession sid)) then return { code := -3, msg := "sid超时" }
  let (isIntime, msg) ← checkSpringTime now 4
  if !isIntime then return { code := 1, msg }
  let account := fmt info.account
  let answer ← send (.getAnswer account)
  let isStart ← send (.getStart account)
  if answer = some now ∨ isStart = some now then return { code := 1, msg := "你已经答过题了" }
  let questions ← send .hkeys
  let selectCount := min ACTIVICE_QUESTION_SELECT questions.length
  let (selectKeys, _) ← ofExcept (sample .ValueError questions selectCount draws)
  let list ← collect selectKeys fun key => do orRaise .TypeError (← send (.getEntry key))
  return {
    code := 0
    msg := "获取题库成功"
    sheet := some {
      list
      title := ACTIVICE_QUESTION_TITLE
      desc := ACTIVICE_QUESTION_DESC
      timeLimit := ACTIVICE_QUESTION_TIME
      route := ("POST", "/fish/question/answer") } }

/-- `/question/opening`. -/
def setQuestionStart (now : Date) (sid : String) : Handler Reply := do
  let info ← getInfoBySid sid
  if !(← ask (.existsSession sid)) then return { code := -3, msg := "sid超时" }
  let (isIntime, msg) ← checkSpringTime now 4
  if !isIntime then return { code := 1, msg }
  send (.setStart (fmt info.account) now)
  return { code := 0, msg := "开始答题" }

/-- What `json.loads` makes of the submitted text. -/
inductive Submitted where
  | unreadable
  /-- A map from question ids to what `','.join([str(i) for i in ans])` gives, or `none` where it raises. -/
  | map (answers : List (String × Option String))
  /-- Anything else, and its length if it has one. -/
  | other (len : Option Nat)
  deriving Repr, DecidableEq

/-- The number of right answers. A question that is not there, like an answer that cannot be joined, is not right. -/
def countCorrect : List (String × Option String) → Handler Nat
  | [] => .ret 0
  | (tid, ans) :: answers => do
    let info ← send (.getEntry tid)
    let rest ← countCorrect answers
    return if info.isSome ∧ ans.isSome ∧ info.map (·.correct) = ans then rest + 1 else rest

/-- The prizes that are left today, each as often as it is left. -/
def getProbabilitys (now : Date) : List Item → Handler (List Item)
  | [] => .ret []
  | item :: rewards => do
    let curCount := (← send (.getCount item.id now)).getD 0
    let rest ← getProbabilitys now rewards
    return List.replicate (item.max - curCount).toNat item ++ rest

/-- One prize or some coins for each right answer. A prize that was drawn is out of the pool. -/
def sendRewards (now : Date) (goldPreMin goldPreMax : Nat) : Draws → Nat → List Item → Handler (List (Item ⊕ Nat))
  | _, 0, _ => .ret []
  | draws, n + 1, probabilitys => do
    match choice Err.IndexError probabilitys draws with
    | .ok (item, draws) =>
      send (.hincrbyCount item.id now)
      let rest ← sendRewards now goldPreMin goldPreMax draws n (probabilitys.erase item)
      return .inl item :: rest
    | .error _ =>
      let (r_gold, draws) ← ofExcept (randint goldPreMin goldPreMax draws)
      let rest ← sendRewards now goldPreMin goldPreMax draws n probabilitys
      return .inr r_gold :: rest

def tickTotal (pool : List (Item ⊕ Nat)) : Int := (pool.map fun | .inl item => item.total | .inr _ => 0).sum

def goldTotal (pool : List (Item ⊕ Nat)) : Nat := (pool.map fun | .inl _ => 0 | .inr r_gold => r_gold).sum

def sent : Item ⊕ Nat → Sent
  | .inl item => ⟨item.title, item.total⟩
  | .inr r_gold => ⟨"金币" ++ toString r_gold, r_gold⟩

/-- The increments of the pipeline. -/
def answerPipe (now : Date) (account userTable : String) (correctCount : Nat) (pool : List (Item ⊕ Nat)) :
    List (Purse × Int) :=
  (.sendRedpack now, (correctCount : Int)) ::
    (if goldTotal pool ≠ 0 then [(.coin userTable, (goldTotal pool : Int)), (.sendGold now, (goldTotal pool : Int))] else []) ++
    (if tickTotal pool ≠ 0 then
      [(.redpick account, tickTotal pool), (.exchange_ticket userTable, tickTotal pool * 8),
        (.sendTick now, tickTotal pool * 8)]
    else [])

/-- `/question/answer` from where the answers are scored. -/
def scoreAnswers (now : Date) (draws : Draws) (account : String) (answers : List (String × Option String)) : Handler Reply := do
  let correctCount ← countCorrect answers
  -- no mark is written here
  if correctCount = 0 then return { code := 1, msg := "您没有答对题，请明天再试一次。" }
  let rewards ← send .hgetallRewards
  let probabilitys ← getProbabilitys now rewards
  let pool ← sendRewards now (ACTIVICE_QUESTION_GOLD_MIN / correctCount) (ACTIVICE_QUESTION_GOLD_MAX / correctCount) draws
    correctCount probabilitys
  let userTable := fmt (← ask (.getUserTable account))
  send (.execute (answerPipe now account userTable correctCount pool) account now)
  return { code := 0, msg := "恭喜您获得" ++ toString correctCount ++ "个红包", data := pool.map sent }

/-- `/question/answer`. Whether the questionnaire was opened, and which questions were shown, is not looked at. -/
def answer (now : Date) (draws : Draws) (sid : String) (submitted : Submitted) : Handler Reply := do
  if submitted = .unreadable then return { code := 1, msg := "参数错误" }
  let info ← getInfoBySid sid
  if !(← ask (.existsSession sid)) then return { code := -3, msg := "sid超时" }
  let (isIntime, msg) ← checkSpringTime now 4
  if !isIntime then return { code := 1, msg }
  let account := fmt info.account
  let lastDate ← send (.getAnswer account)
  if lastDate = some now then return { code := 1, msg := "你已经答过题了" }
  let questions ← send .hkeys
  let selectCount := min ACTIVICE_QUESTION_SELECT questions.length
  match submitted with
  | .unreadable => .raise .NameError
  | .map answers =>
    if answers.length < selectCount then return { code := 1, msg := "请提交完整答案" }
    scoreAnswers now draws account answers
  | .other len =>
    let len ← orRaise .TypeError len
    if len < selectCount then return { code := 1, msg := "请提交完整答案" }
    .raise .AttributeError

/-! ## Requests -/

inductive Req where
  | question (now : Date) (draws : Draws) (sid : String)
  | opening (now : Date) (sid : String)
  | answer (now : Date) (draws : Draws) (sid : String) (submitted : Submitted)

def Req.handler : Req → Handler Reply
  | .question now draws sid => Question.question now draws sid
  | .opening now sid => setQuestionStart now sid
  | .answer now draws sid submitted => Question.answer now draws sid submitted

def step (r : Req) (s : St) : St := (run r.handler s).2

end FishWeb.Question
