import FishWeb.Lib.Served
import FishWeb.Match.Model
/-!
# The messages to a service

The threads of `tasks/gold_worker.py` and `tasks/party_worker.py`, which read the messages of
one list under a mutex, and the web's side of it: `isPartyServiceOpening`,
`sendProtocol2OnePartyService` and `getProtocolFromPartyServiceResult` of
`model/partyModel.py`, whose siblings for gold are the same code. A message is a text and
the 32 characters of a uuid; what the handler of the text returns is stored under the uuid.

The handlers are those of `serviceProtoCalls`: the one that closes the service, and others
that have the rest of the store to themselves, but for what other processes do there. A
handler's result is the text that `json.dumps` makes of it. Left out: the logs, and the
pauses of the threads.
-/
open Python Prog Served
open Function (update)

namespace FishWeb.Service

/-! ## The keys of a service -/

structure Keys where
  /-- `PROTOCOL_KEY`, the oldest message first. -/
  protocols : List String
  /-- `SERVICE_STATUS_KEY`: whether the key is there. -/
  status : Bool
  /-- `PROTOCOL_RESULT % uuid` -/
  result : String → Option String
  /-- Beside the store: all messages that were pushed. -/
  pushed : List String

/-- The keys when the service starts, with the messages that wait. -/
def Keys.start (protocols : List String) (status : Bool) : Keys := ⟨protocols, status, fun _ => none, protocols⟩

def rpush (m : String) (k : Keys) : Keys := { k with protocols := k.protocols ++ [m], pushed := k.pushed ++ [m] }

/-- `lpop`. The loop ends at no message, and at an empty one. -/
def lpop (k : Keys) : Option String × Keys :=
  match k.protocols with
  | [] => (none, k)
  | m :: protocols => (if m = "" then none else some m, { k with protocols })

/-! ## Messages -/

/-- `protoName[-32:]` -/
def uuidOf (protoName : String) : String := String.ofList (protoName.toList.drop (protoName.toList.length - 32))

/-- `protoName[:-32]` -/
def protoOf (protoName : String) : String := String.ofList (protoName.toList.take (protoName.toList.length - 32))

/-! ## Handlers -/

inductive OwnKeys : Type → Type
  /-- `delete (PROTOCOL_KEY)` -/
  | deleteProtocols : OwnKeys Unit
  /-- `delete (SERVICE_STATUS_KEY)` -/
  | deleteStatus : OwnKeys Unit

instance : Exec OwnKeys Keys where
  exec
    | .deleteProtocols, k => ((), { k with protocols := [] })
    | .deleteStatus, k => ((), { k with status := false })

/-- What is answered does not depend on the keys. -/
def OwnKeys.answer {β : Type} : OwnKeys β → β
  | .deleteProtocols => ()
  | .deleteStatus => ()

/-- The commands of the handlers, on the keys of the service and on the rest of the store. -/
inductive Cmd (C : Type → Type) (β : Type) : Type
  | keys (c : OwnKeys β)
  | rest (c : C β)

variable {C : Type → Type} {σ X : Type}

/-- What a command does to the rest of the store. -/
instance [Exec C σ] : Exec (Cmd C) σ where
  exec
    | .keys c, d => (c.answer, d)
    | .rest c, d => Exec.exec c d

/-- What a command does to the keys. -/
def touch ⦃β : Type⦄ : Cmd C β → Keys → Keys
  | .keys c, k => (Exec.exec c k).2
  | .rest _, k => k

/-- `onGoldServiceClose` and `onPartyServiceClose`. -/
def onServiceClose : List String → Prog Err (Cmd C) String
  | [] => do
    Prog.call (.keys .deleteProtocols)
    Prog.call (.keys .deleteStatus)
    return "\x7b\"code\": 0\x7d"
  | _ => .raise .TypeError

/-- The other handlers, by their names. -/
abbrev Calls (C : Type → Type) := String → Option (List String → Prog Err C String)

/-- `serviceProtoCalls` -/
def serviceProtoCalls (calls : Calls C) (protoHead : String) : Option (List String → Prog Err (Cmd C) String) :=
  if protoHead = "close" then some onServiceClose else (calls protoHead).map fun f args => (f args).lift fun _ => .rest

/-- The call that a message makes, if its head is that of a handler. -/
def protoCall (calls : Calls C) (protoName : String) : Option (Prog Err (Cmd C) String) :=
  match split '|' (protoOf protoName) with
  | [] => none
  | protoHead :: args => (serviceProtoCalls calls protoHead).map fun f => f args

/-! ## The service -/

/-- What other processes do. -/
inductive Ev (X : Type) where
  | rpush (m : String)
  /-- `onFeedServiceStatus` -/
  | feed
  /-- The status expires. -/
  | lapse
  /-- A result expires. -/
  | expire (uuid : String)
  /-- Something in the rest of the store. -/
  | rest (x : X)

def Ev.keys : Ev X → Keys → Keys
  | .rpush m, k => FishWeb.Service.rpush m k
  | .feed, k => { k with status := true }
  | .lapse, k => { k with status := false }
  | .expire uuid, k => { k with result := update k.result uuid none }
  | .rest _, k => k

def Ev.data (rest : X → σ → σ) : Ev X → σ → σ
  | .rest x, d => rest x d
  | _, d => d

/-- `readPartyServiceProtocol`. The worker of the parties looks at the status first (`looks`), that of gold does not.
The time a result has to live is set after it, which changes nothing here. -/
def service (looks : Bool) (calls : Calls C) (rest : X → σ → σ) : Service Err String String Keys (Ev X) σ (Cmd C) where
  opened k := !looks || k.status
  take := lpop
  handle := protoCall calls
  touch := touch
  answer m a k := { k with result := update k.result (uuidOf m) (some a) }
  mark _ k := k
  other := Ev.keys
  meddle := Ev.data rest

/-- The threads when the service starts. -/
def start {ι : Type} (protocols : List String) (status : Bool) (d : σ) : Threads ι Err (Cmd C) String String Keys σ :=
  .start ⟨d, .start protocols status, [], []⟩

/-! ## The web -/

inductive Ask : Type → Type
  | existsStatus : Ask Bool
  | rpush (m : String) : Ask Unit
  | existsResult (uuid : String) : Ask Bool
  | getResult (uuid : String) : Ask (Option String)

instance : Exec Ask Keys where
  exec
    | .existsStatus, k => (k.status, k)
    | .rpush m, k => ((), rpush m k)
    | .existsResult uuid, k => ((k.result uuid).isSome, k)
    | .getResult uuid, k => (k.result uuid, k)

/-- `isPartyServiceOpening` -/
def isPartyServiceOpening : Prog Err Ask Bool := Prog.call .existsStatus

/-- `sendProtocol2OnePartyService`, with `None` where the service is not open. -/
def sendProtocol2OnePartyService (protostr : String) : Prog Err Ask (Option Bool) := do
  if !(← isPartyServiceOpening) then return none
  Prog.call (.rpush protostr)
  return some true

/-- `getProtocolFromPartyServiceResult`, with the text that `json.loads` reads. The timeout is how often the loop is gone
through. -/
def getProtocolFromPartyServiceResult (uuid : String) : (timeout : Nat) → Prog Err Ask (Option String)
  | 0 => return none
  | timeout + 1 => do
    if ← Prog.call (.existsResult uuid) then
      -- a result that has expired since is None, which json.loads does not take
      match ← Prog.call (.getResult uuid) with
      | none => .raise .TypeError
      | some text => return some text
    else getProtocolFromPartyServiceResult uuid timeout

/-! ## The handlers of the waiting lists -/

/-- `onJoinGoldRoom` and `onCancelJoinGoldRoom` among the handlers. What `eval` makes of a message is `gameidOf`, and
`json.dumps` is `dumps`. -/
def goldCalls (gameidOf : String → Except Err String) (dumps : Match.Reply → String) : Calls Match.Cmd
  | "joinGoldRoom" => some fun
    | [account, playid, message] => do
      let gameid ← ofExcept (gameidOf message)
      return dumps (← Match.onJoinGoldRoom account playid gameid)
    | _ => .raise .TypeError
  | "cancelJoinGoldRoom" => some fun
    | [account] => do return dumps (← Match.onCancelJoinRoom account)
    | _ => .raise .TypeError
  | _ => none

end FishWeb.Service
