import FishWeb.Common.Model
import FishWeb.Lib.Counters
import FishWeb.Lib.Sets
import FishWeb.Lib.Value
/-!
# Joining a room

`/joinRoom` of `fish/fish.py`. A request may name a house; then it is sent to one of the
registered servers of the game that is not full. The limits come from two records as
strings, and the product with a string is Python's.

The day and the domain of a request are inputs. Fields of servers are integers. Left
out: the agent of the user, which is read and not used, and how long a record lives.
-/
open Python Prog Counters FishWeb.Common

namespace FishWeb.JoinRoom

structure Setup where
  shared : Shared
  /-- The number of `keys('hall:session:*')`. -/
  online_tables : Nat
  /-- `hget (GAME_TABLE % gameId, 'maxRoomCount')` -/
  maxRoomCount : Int → Option String
  /-- `hget (FISH_ROOM_TABLE % gameid, 'max_player_count')` -/
  maxPlayerCount : String → Option String
  /-- `hget ('fish:%s:house:%s:info' % (gameid, house_no), 'player_num')` -/
  playerNum : String → String → Option String
  /-- `lrange (FORMAT_GAME_SERVICE_SET % gameId, 0, -1)` -/
  servers : Int → List String
  /-- The address in `EXIT_PLAYER_FISH % (account, gameId)`. -/
  exitPlayer : String → Int → Option (Option String × Option String)

structure St where
  setup : Setup
  /-- `playerCount` of a server. -/
  playerCount : Table String
  /-- `roomCount` of a server. -/
  roomCount : Table String
  /-- `'active:users:date:%s' % now_day` -/
  active : String → MemberSet String
  /-- `'fish:%s:player:%s:houseNo' % (gameid, uid)` -/
  houseNo : String → String → Option String

instance : HasShared St := ⟨fun s => s.setup.shared⟩

@[simp] theorem shared_eq (s : St) : HasShared.shared s = s.setup.shared := rfl

/-! ## Commands -/

inductive Own : Type → Type
  | hgetMaxRoomCount (gameId : Int) : Own (Option String)
  | hgetMaxPlayerCount (gameid : String) : Own (Option String)
  | hgetPlayerNum (gameid house_no : String) : Own (Option String)
  | keysOnline : Own Nat
  | saddActive (now_day uid : String) : Own Unit
  | lrangeServers (gameId : Int) : Own (List String)
  /-- `hincrby (serverTable, 'playerCount', n)` -/
  | hincrbyPlayerCount (serverTable : String) (n : Int) : Own Int
  /-- `hincrby (serverTable, 'roomCount', n)` -/
  | hincrbyRoomCount (serverTable : String) (n : Int) : Own Int
  | existsExitPlayer (account : String) (gameId : Int) : Own Bool
  | hmgetExitPlayer (account : String) (gameId : Int) : Own (Option String × Option String)
  | setexHouseNo (gameid uid house_no : String) : Own Unit

instance : Exec Own St where
  exec
    | .hgetMaxRoomCount gameId, s => (s.setup.maxRoomCount gameId, s)
    | .hgetMaxPlayerCount gameid, s => (s.setup.maxPlayerCount gameid, s)
    | .hgetPlayerNum gameid house_no, s => (s.setup.playerNum gameid house_no, s)
    | .keysOnline, s => (s.setup.online_tables, s)
    | .saddActive now_day uid, s => ((), { s with active := SetTable.add s.active now_day uid })
    | .lrangeServers gameId, s => (s.setup.servers gameId, s)
    | .hincrbyPlayerCount serverTable n, s =>
      (val s.playerCount serverTable + n, { s with playerCount := incrby s.playerCount serverTable n })
    | .hincrbyRoomCount serverTable n, s =>
      (val s.roomCount serverTable + n, { s with roomCount := incrby s.roomCount serverTable n })
    | .existsExitPlayer account gameId, s => ((s.setup.exitPlayer account gameId).isSome, s)
    | .hmgetExitPlayer account gameId, s => ((s.setup.exitPlayer account gameId).getD (none, none), s)
    | .setexHouseNo gameid uid house_no, s =>
      ((), { s with
        houseNo := Function.update s.houseNo gameid (Function.update (s.houseNo gameid) uid (some house_no)) })

abbrev Cmd := With Own

abbrev Handler := Prog Err Cmd

structure Reply where
  code : Int
  msg : String := ""
  osid : Option String := none
  ip : Option String := none
  port : Option String := none
  deriving Repr, DecidableEq

def Reply.refused (e : Refusal) : Reply := { code := e.code, msg := e.msg, osid := e.osid }

def Reply.busy : Reply := { code := -1, msg := "服务器忙碌或维护中" }

/-! ## The house -/

/-- `int(x or 0)` -/
def intOr0 (x : Option String) : Handler Int :=
  if x.getD "" = "" then pure 0 else orRaise .ValueError (int (x.getD ""))

/-- What to answer to a house that does not exist or is full. -/
def checkHouse (gameid house_no : String) : Handler (Option Reply) := do
  if house_no = "" then return none
  let max_player_count ← orRaise .TypeError (← send (.hgetMaxPlayerCount gameid))
  let max_player_count ← orRaise .ValueError (int max_player_count)
  let player_num ← intOr0 (← send (.hgetPlayerNum gameid house_no))
  let online_tables ← send .keysOnline
  if house_no ∉ (List.range (11 + online_tables)).map (fun i => toString (i + 1)) then
    return some { code := 1, msg := "房间不存在！" }
  if player_num ≥ max_player_count then return some { code := 1, msg := "房间已满员！" }
  return none

/-! ## The servers -/

structure Server where
  currency : String
  ip : String
  port : String
  deriving Repr, DecidableEq

/-- `_, _, _, currency, ipData, portData = serverTable.split(':')` -/
def serverOf (serverTable : String) : Option Server :=
  match split ':' serverTable with
  | [_, _, _, currency, ipData, portData] => some { currency := currency, ip := ipData, port := portData }
  | _ => none

/-- `n >= v` -/
def geValue (n : Int) (v : Value) : Bool := !v.gtInt n

/-- `countPlayerLimit` and `maxRoomCount`: the number of rooms times a string. -/
def playerLimit (gameId : Int) : Handler (Value × Value) := do
  let maxRoomCount := (← send (.hgetMaxRoomCount gameId)).getD ""
  let maxPlayerCount := (← send (.hgetMaxPlayerCount (toString gameId))).getD ""
  let roomLimit := if maxRoomCount = "" then Value.int 0 else .str maxRoomCount
  if maxRoomCount ≠ "" ∧ maxPlayerCount ≠ "" then
    let n ← orRaise .ValueError (int maxRoomCount)
    return (.str (times n maxPlayerCount), roomLimit)
  return (.int 0, roomLimit)

/-- The loop over the servers; the limit is made an integer on the way. -/
def reserve (maxRoomCount : Value) : List String → Value → Handler (List Server)
  | [], _ => return []
  | serverTable :: serverList, countPlayerLimit => do
    let playerCount ← send (.hincrbyPlayerCount serverTable 0)
    let roomCount ← send (.hincrbyRoomCount serverTable 0)
    let countPlayerLimit ← ofExcept countPlayerLimit.toInt
    if countPlayerLimit ≠ 0 ∧ (playerCount ≥ countPlayerLimit ∨ geValue roomCount maxRoomCount) then
      reserve maxRoomCount serverList (.int countPlayerLimit)
    else
      let server ← orRaise .ValueError (serverOf serverTable)
      let reservedServers ← reserve maxRoomCount serverList (.int countPlayerLimit)
      return server :: reservedServers

def reservedServers (gameId : Int) : Handler (List Server) := do
  let (countPlayerLimit, maxRoomCount) ← playerLimit gameId
  let serverList ← send (.lrangeServers gameId)
  reserve maxRoomCount serverList countPlayerLimit

/-- The server the player left, if it is among those reserved. -/
def exitServer (reserved : List Server) (address : Option String × Option String) : Option Server :=
  reserved.find? fun server => some server.ip = address.1 ∧ some server.port = address.2

def chooseServer (account : String) (gameId : Int) (first : Server) (reserved : List Server) : Handler Server := do
  if ← send (.existsExitPlayer account gameId) then
    let address ← send (.hmgetExitPlayer account gameId)
    return (exitServer reserved address).getD first
  return first

structure Req where
  sid : String
  gameid : String
  house_no : String
  now_day : String
  domain : String
  deriving Repr, DecidableEq

/-- The user is active on the day. -/
def setActive (now_day : String) (uid : Option String) : Handler Unit :=
  if uid.getD "" = "" then pure () else send (.saddActive now_day (uid.getD ""))

/-- What follows once the session is checked. -/
def sendToServer (r : Req) (gameId : Int) (info : Info) : Handler Reply := do
  match ← reservedServers gameId with
  | [] => return .busy
  | first :: rest =>
    let server ← chooseServer (fmt info.account) gameId first (first :: rest)
    if r.house_no ≠ "" then send (.setexHouseNo r.gameid (fmt info.uid) r.house_no)
    return { code := 0, ip := some r.domain, port := some server.port }

/-- `/joinRoom`. -/
def doJoinRoom (r : Req) : Handler Reply := do
  match ← checkHouse r.gameid r.house_no with
  | some refusal => return refusal
  | none =>
  match int r.gameid with
  | none => return { code := -300, msg := "接口参数错误" }
  | some gameId =>
    let info ← getInfoBySid r.sid
    setActive r.now_day info.uid
    match ← checkSessionVerfiy r.sid info with
    | .error e => return .refused e
    | .ok _ => sendToServer r gameId info

end FishWeb.JoinRoom
