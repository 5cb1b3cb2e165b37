import Mathlib.Logic.Function.Basic
import FishWeb.Lib.Prog
import FishWeb.Lib.Python
/-!
# The matchmaking workers

`tasks/gold_worker.py` and `tasks/party_worker.py`: players join a waiting list,
a tick of `self_check` takes full groups off each list and sends them to a game
server. The two files are the same code over different key prefixes, so a
`Worker` holds the strings in which they differ.

Each map of `St` is one family of redis keys, indexed by what the `%` fills in,
or by the whole key where the code passes the key around. The prefixes are
distinct, so keys of two families never meet. A list that does not exist is
empty. Left out: the robots' websocket thread, log lines, and the day's
operating record of the party worker, none of which a waiting list depends on.
-/
open Python

namespace FishWeb.Match

/-- Where gold_worker.py and party_worker.py differ. -/
structure Worker where
  prefixWait : String
  joinHead : String

def gold : Worker := ⟨"WaitJoinGoldRoomPlayers", "joinGoldRoom"⟩

def party : Worker := ⟨"testWaitJoinPartyRoomPlayers", "joinPartyRoom"⟩

/-- `PREFIX_WAIT % (playid, gameid, rule)`. -/
def Worker.waitKey (w : Worker) (playid gameid rule : String) : String :=
  w.prefixWait ++ ":" ++ playid ++ ":" ++ gameid ++ ":" ++ rule ++ ":list"

/-- `PREFIX_INGAME % (playid, gameid, rule, ip, port)` of gold_worker.py. -/
def ingameKey (playid gameid rule ip port : String) : String :=
  "GameInGoldRoomPlayers:" ++ playid ++ ":" ++ gameid ++ ":" ++ rule ++ ":" ++ ip ++ ":" ++ port ++ ":list"

/-- A message `"joinGoldRoom|<players>|<playid>|<rule>"` to a game server. -/
structure JoinMsg where
  head : String
  players : List String
  playid : String
  rule : String
  deriving Repr, DecidableEq

/-- The answer to a request: a code, and a text when it is refused. -/
structure Reply where
  code : Int
  msg : String
  deriving Repr, DecidableEq

def Reply.ok : Reply := ⟨0, ""⟩

/-- The answer to a cancel of an account without a waiting list. -/
def Reply.notWaiting : Reply := ⟨-1, "玩家没有加入金币场"⟩

/-- The redis keys of the workers. -/
@[ext] structure St where
  /-- `PREFIX_WAIT % …`, by the whole key -/
  wait : String → List String
  /-- `PREFIX_ACCOUNT2WAIT % account` -/
  account2wait : String → Option String
  /-- `PREFIX_MATCH_FINISH % account` -/
  matchFinish : String → Option Nat
  /-- `PREFIX_INGAME % …`, by the whole key -/
  ingame : String → List String
  /-- `PREFIX_ACCOUNT2INGAME % account` -/
  account2ingame : String → Option String
  /-- `hget (GAME_TABLE % gameid) 'party_player_count'` -/
  partyPlayerCount : String → Option String
  /-- `exists (EXIT_PLAYER % account)` -/
  exitPlayer : String → Bool
  /-- `FORMAT_GAME_SERVICE_SET % gameid` -/
  servers : String → List String
  /-- `FORMAT_SERVICE_PROTOCOL_TABLE % (gameid, tag)`, by the whole key -/
  protocols : String → List JoinMsg
  /-- `PROTOCOL_RESULT % uuid` -/
  result : String → Option Reply

/-- A store with the given waiting lists, player counts and servers, nobody
matched or playing, and each pointer at the first list that holds its account. -/
def St.ofLists (waits : List (String × List String)) (counts : List (String × String))
    (servers : List (String × List String)) : St where
  wait key := (waits.lookup key).getD []
  account2wait a := (waits.find? (a ∈ ·.2)).map (·.1)
  matchFinish _ := none
  ingame _ := []
  account2ingame _ := none
  partyPlayerCount g := counts.lookup g
  exitPlayer _ := false
  servers g := (servers.lookup g).getD []
  protocols _ := []
  result _ := none

/-! ## Commands -/

/-- The writes, alone or in a `MULTI` pipeline. -/
inductive Write where
  | rpushWait (key account : String)
  | lremWait (key account : String)
  | setAccount2wait (account key : String)
  | deleteAccount2wait (account : String)
  | setMatchFinish (account : String) (player_count : Nat)
  | deleteMatchFinish (account : String)
  | rpushIngame (key account : String)
  | setAccount2ingame (account key : String)
  | rpushProtocol (queue : String) (msg : JoinMsg)
  | setResult (uuid : String) (reply : Reply)
  deriving DecidableEq

open Function (update)

def applyWrite (s : St) : Write → St
  | .rpushWait key a => { s with wait := update s.wait key (s.wait key ++ [a]) }
  | .lremWait key a => { s with wait := update s.wait key ((s.wait key).filter (· ≠ a)) }
  | .setAccount2wait a key => { s with account2wait := update s.account2wait a (some key) }
  | .deleteAccount2wait a => { s with account2wait := update s.account2wait a none }
  | .setMatchFinish a n => { s with matchFinish := update s.matchFinish a (some n) }
  | .deleteMatchFinish a => { s with matchFinish := update s.matchFinish a none }
  | .rpushIngame key a => { s with ingame := update s.ingame key (s.ingame key ++ [a]) }
  | .setAccount2ingame a key => { s with account2ingame := update s.account2ingame a (some key) }
  | .rpushProtocol q m => { s with protocols := update s.protocols q (s.protocols q ++ [m]) }
  | .setResult u r => { s with result := update s.result u (some r) }

inductive Cmd : Type → Type
  | lrangeWait (key : String) : Cmd (List String)
  | existsWait (key : String) : Cmd Bool
  | lpopWait (key : String) : Cmd (Option String)
  | existsAccount2wait (account : String) : Cmd Bool
  | getAccount2wait (account : String) : Cmd (Option String)
  | hgetPartyPlayerCount (gameid : String) : Cmd (Option String)
  | existsExitPlayer (account : String) : Cmd Bool
  | lrangeServers (gameid : String) : Cmd (List String)
  | write (w : Write) : Cmd Unit
  | pipe (ws : List Write) : Cmd Unit

instance : Exec Cmd St where
  exec
    | .lrangeWait key, s => (s.wait key, s)
    | .existsWait key, s => (!(s.wait key).isEmpty, s)
    | .lpopWait key, s => ((s.wait key).head?, { s with wait := update s.wait key (s.wait key).tail })
    | .existsAccount2wait a, s => ((s.account2wait a).isSome, s)
    | .getAccount2wait a, s => (s.account2wait a, s)
    | .hgetPartyPlayerCount g, s => (s.partyPlayerCount g, s)
    | .existsExitPlayer a, s => (s.exitPlayer a, s)
    | .lrangeServers g, s => (s.servers g, s)
    | .write w, s => ((), applyWrite s w)
    | .pipe ws, s => ((), ws.foldl applyWrite s)

section Exec
open Exec
variable (s : St)

@[simp] theorem exec_lrangeWait (key : String) : exec (Cmd.lrangeWait key) s = (s.wait key, s) := rfl

@[simp] theorem exec_existsWait (key : String) : exec (Cmd.existsWait key) s = (!(s.wait key).isEmpty, s) := rfl

@[simp] theorem exec_lpopWait (key : String) :
    exec (Cmd.lpopWait key) s = ((s.wait key).head?, { s with wait := update s.wait key (s.wait key).tail }) := rfl

@[simp] theorem exec_existsAccount2wait (a : String) :
    exec (Cmd.existsAccount2wait a) s = ((s.account2wait a).isSome, s) := rfl

@[simp] theorem exec_getAccount2wait (a : String) : exec (Cmd.getAccount2wait a) s = (s.account2wait a, s) := rfl

@[simp] theorem exec_hgetPartyPlayerCount (g : String) :
    exec (Cmd.hgetPartyPlayerCount g) s = (s.partyPlayerCount g, s) := rfl

@[simp] theorem exec_existsExitPlayer (a : String) : exec (Cmd.existsExitPlayer a) s = (s.exitPlayer a, s) := rfl

@[simp] theorem exec_lrangeServers (g : String) : exec (Cmd.lrangeServers g) s = (s.servers g, s) := rfl

@[simp] theorem exec_write (w : Write) : exec (Cmd.write w) s = ((), applyWrite s w) := rfl

@[simp] theorem exec_pipe (ws : List Write) : exec (Cmd.pipe ws) s = ((), ws.foldl applyWrite s) := rfl

end Exec

/-- What a watcher of the commands sees: a list read, a player popped off a
list, a pointer deleted, a player marked as matched, a message pushed to a
server, a join, an answered request. -/
inductive Ev where
  | listed (key : String) (players : List String)
  | popped (key account : String)
  | unpointed (account : String)
  | matched (account : String)
  | sent (queue : String) (msg : JoinMsg)
  | joined (key account : String)
  | answered (uuid : String) (reply : Reply)
  deriving DecidableEq

def noteWrite : Write → List Ev
  | .rpushWait key a => [.joined key a]
  | .deleteAccount2wait a => [.unpointed a]
  | .setMatchFinish a _ => [.matched a]
  | .rpushProtocol q m => [.sent q m]
  | .setResult u r => [.answered u r]
  | _ => []

instance : Note Cmd Ev where
  note
    | .lrangeWait key, players => [.listed key players]
    | .lpopWait key, account => (account.map (.popped key)).toList
    | .write w, _ => noteWrite w
    | .pipe ws, _ => ws.flatMap noteWrite
    | .existsWait _, _ | .existsAccount2wait _, _ | .getAccount2wait _, _ | .hgetPartyPlayerCount _, _
    | .existsExitPlayer _, _ | .lrangeServers _, _ => []

section Note
open Note

@[simp] theorem note_lrangeWait (key : String) (l : List String) : note (Cmd.lrangeWait key) l = [Ev.listed key l] :=
  rfl

@[simp] theorem note_lpopWait (key : String) (a : Option String) :
    note (Cmd.lpopWait key) a = (a.map (Ev.popped key)).toList := rfl

@[simp] theorem note_write (w : Write) : note (Cmd.write w) () = noteWrite w := rfl

@[simp] theorem note_pipe (ws : List Write) : note (Cmd.pipe ws) () = ws.flatMap noteWrite := rfl

@[simp] theorem note_existsWait (key : String) (b : Bool) : note (Cmd.existsWait key) b = ([] : List Ev) := rfl

@[simp] theorem note_existsAccount2wait (a : String) (b : Bool) :
    note (Cmd.existsAccount2wait a) b = ([] : List Ev) := rfl

@[simp] theorem note_getAccount2wait (a : String) (key : Option String) :
    note (Cmd.getAccount2wait a) key = ([] : List Ev) := rfl

@[simp] theorem note_hgetPartyPlayerCount (g : String) (n : Option String) :
    note (Cmd.hgetPartyPlayerCount g) n = ([] : List Ev) := rfl

@[simp] theorem note_existsExitPlayer (a : String) (b : Bool) : note (Cmd.existsExitPlayer a) b = ([] : List Ev) := rfl

@[simp] theorem note_lrangeServers (g : String) (l : List String) : note (Cmd.lrangeServers g) l = ([] : List Ev) := rfl

end Note

abbrev Handler := Prog Err Cmd

open Prog (call orRaise forEach)

/-! ## The tick -/

/-- The protocol queue of a server in `FORMAT_GAME_SERVICE_SET`: its last three
of six fields. `none` is the `ValueError` of the unpacking. -/
def protocolQueue (gameId serverTable : String) : Option String :=
  match split ':' serverTable with
  | [_, _, _, currency, ip, port] =>
    some ("service:protocols:game:" ++ gameId ++ ":" ++ (currency ++ ":" ++ ip ++ ":" ++ port))
  | _ => none

/-- Sends a message to the first server of the game, if there is one. -/
def sendProtocol2OneGameService (gameId : String) (protocolStr : JoinMsg) : Handler Unit := do
  match ← call (.lrangeServers gameId) with
  | [] => return ()
  | serverTable :: _ =>
    let queue ← orRaise .ValueError (protocolQueue gameId serverTable)
    call (.write (.rpushProtocol queue protocolStr))

/-- `get_party_game_player_count` on the stored field: 4 unless it is a positive
number. `none` is the `ValueError` of `int`. -/
def getPartyGamePlayerCount (player_count : Option String) : Option Nat :=
  match player_count with
  | none => some 4
  | some t => if t = "" then some 4 else (int t).map (fun n => if n ≤ 0 then 4 else n.toNat)

/-- `playid`, `gameid`, `rule`: parts 1 to 3 of a waiting list's key. -/
def nameList (key : String) : Option (String × String × String) :=
  match split ':' key with
  | _ :: playid :: gameid :: rule :: _ => some (playid, gameid, rule)
  | _ => none

/-- The inner loop of `self_check`: one pop for each player of the group. -/
def popGroup (key : String) (player_count : Nat) (players : List String) : Handler Unit :=
  forEach players fun account => do
    let _ ← call (.lpopWait key)
    call (.write (.deleteAccount2wait account))
    call (.write (.setMatchFinish account player_count))

/-- The `while` loop of `self_check`. The group is the slice
`waitplayers[:player_count]` in every round. A round takes at least one off
`len`, so `len` rounds are as many as the loop can make. -/
def groupLoop (w : Worker) (key playid gameid rule : String) (waitplayers : List String) (player_count : Nat) :
    (rounds len : Nat) → Handler Unit
  | 0, _ => return ()
  | rounds + 1, len =>
    if player_count ≤ len then do
      let players := waitplayers.take player_count
      popGroup key player_count players
      sendProtocol2OneGameService gameid ⟨w.joinHead, players, playid, rule⟩
      groupLoop w key playid gameid rule waitplayers player_count rounds (len - player_count)
    else return ()

/-- One waiting list of `self_check`. -/
def selfCheckList (w : Worker) (key : String) : Handler Unit := do
  let waitplayers ← call (.lrangeWait key)
  let (playid, gameid, rule) ← orRaise .IndexError (nameList key)
  let raw ← call (.hgetPartyPlayerCount gameid)
  let player_count ← orRaise .ValueError (getPartyGamePlayerCount raw)
  groupLoop w key playid gameid rule waitplayers player_count waitplayers.length waitplayers.length

/-- `self_check`; `keys` is the answer of `redis.keys(PREFIX_WAIT % ('*', '*', '*'))`,
which comes in no particular order. -/
def selfCheck (w : Worker) (keys : List String) : Handler Unit := forEach keys (selfCheckList w)

/-! ## Requests -/

/-- The rule of every list a request can join. -/
def joinRule : String := "[0,0,[0],1]"

/-- `redis.exists(key) and account in redis.lrange(key, 0, -1)`. -/
def isWaiting (key account : String) : Handler Bool := do
  if ← call (.existsWait key) then
    let players ← call (.lrangeWait key)
    return account ∈ players
  else return false

/-- `onJoinGoldRoom` with the `gameid` of its decoded message, `onJoinPartyRoom` with its `ag`. -/
def onJoinRoom (w : Worker) (account playid gameid : String) : Handler Reply := do
  let raw ← call (.hgetPartyPlayerCount gameid)
  let player_count ← orRaise .TypeError raw
  let _maxplayers ← orRaise .ValueError (int player_count)
  if ← call (.existsExitPlayer account) then return .ok
  let wait_join_list := w.waitKey playid gameid joinRule
  if ← isWaiting wait_join_list account then return .ok
  call (.pipe [.rpushWait wait_join_list account, .setAccount2wait account wait_join_list])
  return .ok

def onJoinGoldRoom (account playid gameid : String) : Handler Reply := onJoinRoom gold account playid gameid

def onJoinPartyRoom (account ag gameid : String) : Handler Reply := onJoinRoom party account ag gameid

/-- `onCancelJoinGoldRoom` and `onCancelJoinPartyRoom`. -/
def onCancelJoinRoom (account : String) : Handler Reply := do
  if ← call (.existsAccount2wait account) then
    -- a key that is gone by now reads as None, which the calls below format
    let wait_join_key ← call (.getAccount2wait account)
    let listed ← isWaiting (wait_join_key.getD "None") account
    call (.pipe (.deleteAccount2wait account ::
      if listed then [.lremWait (wait_join_key.getD "None") account] else []))
    return .ok
  else return .notWaiting

/-- How `PREFIX_INGAME % (playid, gameid, rule, ip, port)` is written; of party_worker.py the sources do not define it. -/
abbrev Format := String → String → String → String → String → String

/-- `already_in_list`: parts 3, 5 and 6 of the server's key name its game and address. -/
def alreadyInList (prefix_ingame : Format) (server_table playid rule : String) : Option String :=
  match split ':' server_table with
  | _ :: _ :: _ :: gameid :: _ :: ip :: port :: _ => some (prefix_ingame playid gameid rule ip port)
  | _ => none

/-- The writes of `onJoinGoldRoomSuccess` and `onJoinPartyRoomSuccess` for the accounts of a created room. -/
def joinSuccessWrites (already_in_list : String) (accountlist : List String) : List Write :=
  accountlist.flatMap fun account =>
    [.rpushIngame already_in_list account, .setAccount2ingame account already_in_list, .deleteMatchFinish account]

def onJoinGoldRoomSuccess (server_table : String) (accountlist : List String) (playid rule : String) :
    Handler Reply := do
  let already_in_list ← orRaise .IndexError (alreadyInList ingameKey server_table playid rule)
  call (.pipe (joinSuccessWrites already_in_list accountlist))
  return .ok

/-- The requests that move a player between waiting and not waiting. -/
inductive Request where
  | join (account playid gameid : String)
  | cancel (account : String)
  deriving DecidableEq

def handle (w : Worker) : Request → Handler Reply
  | .join account playid gameid => onJoinRoom w account playid gameid
  | .cancel account => onCancelJoinRoom account

/-- `readPartyServiceProtocol`: each request of the queue is handled and its
result stored under its uuid; one that raises has no result. The worker's
threads hold its mutex while they read the queue, so together they are this one
program. -/
def readPartyServiceProtocol (w : Worker) (queue : List (String × Request)) : Handler Unit :=
  forEach queue fun (uuid, request) => do
    match ← (handle w request).attempt with
    | .ok result => call (.write (.setResult uuid result))
    | .error _ => return ()

end FishWeb.Match
