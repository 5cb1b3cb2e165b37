import FishWeb.Lib.Counters
import FishWeb.Lib.Dict
import FishWeb.Match.Model
/-!
# Parties

`tasks/party_worker.py`: what the service of the parties does when players have joined a
room and when a room is settled. A pipeline is executed as a whole, at its end; what is not
queued in it is done at once.

The worker uses names that it does not import: the keys of the parties are in
`hall/hall_party.py` and `getUserByAccount` is in `model/hallModel.py`. Which of them a
module binds is a parameter (`Names`); a name that is not bound raises where it is evaluated.

The format of the lists of players in game and the key of the day's record are defined
nowhere in the repository. Nor are `get_party_game_winner` and `get_party_game_loser`, which
read the store and return a pair, so they are parameters. `math.ceil` of an integer is that
integer. Left out: the printing, and what the service sends to the games.
-/
open Python Prog Counters

namespace FishWeb.Party

open Function (update)

/-! ## The store -/

/-- A day, an agent and an account. -/
abbrev Key := String × Option String × String

/-- `desc` of a record: `'平'`, `'负'` and `'胜'`. -/
inductive Desc where
  | draw | loss | win
  deriving DecidableEq

/-- `{'result': result, 'desc': desc, 'win_rate': 0}` -/
structure Result where
  result : Int
  desc : Desc
  win_rate : Int
  deriving DecidableEq

/-- A field of `record_info`. -/
inductive Info where
  | id (table_id : Int)
  | text (s : String)
  | result (r : Result)
  deriving DecidableEq

/-- `PARTY_GAME_OPERATE_BY_DAY_TABLE % today`: the fields that are set. -/
structure Operate where
  date : Option String
  player_count : Option String
  party_count : Option String
  online_count : Option String
  online_max : Option String
  winner : Option (Int × Int)
  loser : Option (Int × Int)
  deriving DecidableEq

def Operate.empty : Operate := ⟨none, none, none, none, none, none, none⟩

structure St where
  /-- The lists of players, and `hget (GAME_TABLE % gameid, 'party_player_count')`. -/
  queue : Match.St
  /-- `get (FORMAT_ACCOUNT2USER_TABLE % account)` -/
  userTable : String → Option String
  /-- `hget (userTable, 'parentAg')` -/
  parentAg : String → Option String
  /-- `get (PARTY_GAME_ENTER_ROOM_CRADS)` -/
  enterRoomCards : Option String
  /-- `get (PARTY_GAME_RECORD_COUNT_TABLE)` -/
  recordCount : Option Int
  /-- `PARTY_GAME_ROOM_CRADS_BY_DAY` -/
  cards : Table Key
  /-- The scores of `PARTY_GAME_RANK_WITH_AGENT_TABLE % (today, agentid)`. -/
  rank : Table Key
  /-- `PARTY_GAME_RECORD_ACCOUNT_WIN_LIST` -/
  winList : Key → List Int
  /-- `PARTY_GAME_RECORD_ACCOUNT_TOTAL_LIST` -/
  totalList : Key → List Int
  /-- `PARTY_GAME_RECORD_TABLE % (today, table_id)` -/
  record : String × Int → List (String × Info)
  operate : String → Option Operate

def St.operateOf (s : St) (today : String) : Operate := (s.operate today).getD .empty

/-! ## Commands -/

/-- A count that was made, or what `hmget` answered. -/
inductive Count where
  | num (n : Int)
  | field (x : Option String)

/-- `int(count)` -/
def Count.int : Count → Except Err Int
  | .num n => .ok n
  | .field none => .error .TypeError
  | .field (some s) => match Python.int s with
    | some n => .ok n
    | none => .error .ValueError

/-- The count as `hmset` writes it. -/
def Count.text : Count → String
  | .num n => toString n
  | .field x => fmt x

/-- `n > count`: a number comes after `None` and before every string. -/
def Count.under (n : Int) : Count → Bool
  | .num m => m < n
  | .field none => true
  | .field (some _) => false

/-- The counts of a day, as the handler of a group that joins reads them. -/
structure Counts where
  player_count : Count
  online_count : Count
  online_max : Count
  party_count : Count

/-- The counts that it writes. -/
structure Joined where
  player_count : Int
  party_count : Int
  online_count : Int
  online_max : Count

/-- What a pipeline queues. -/
inductive Write where
  | queue (w : Match.Write)
  | setEnterRoomCards (n : Int)
  | hmsetJoined (today : String) (counts : Joined)
  | zincrbyRank (key : Key)
  | lpushWin (key : Key) (table_id : Int)
  | lpushTotal (key : Key) (table_id : Int)
  | hmsetRecord (key : String × Int) (record_info : List (String × Info))
  | hmsetSettled (today : String) (online_count : Int) (winner loser : Int × Int)

inductive Cmd : Type → Type
  | existsOperate (today : String) : Cmd Bool
  | hmgetOperate (today : String) : Cmd Counts
  | hgetOnlineCount (today : String) : Cmd (Option String)
  | getEnterRoomCards : Cmd (Option String)
  | hgetPlayerCount (gameid : String) : Cmd (Option String)
  | getUserTable (account : String) : Cmd (Option String)
  | hgetParentAg (userTable : String) : Cmd (Option String)
  | incrRecordCount : Cmd Int
  | incrCards (key : Key) (result : Int) : Cmd Unit
  /-- A function of the store that is not in the repository. -/
  | look (f : St → Int × Int) : Cmd (Int × Int)
  | execute (pipe : List Write) : Cmd Unit

def St.push (t : Key → List Int) (key : Key) (table_id : Int) : Key → List Int := update t key (table_id :: t key)

/-- The record after a group has joined. -/
def Operate.joined (o : Operate) (today : String) (counts : Joined) : Operate :=
  { o with
    date := some today
    player_count := some (toString counts.player_count)
    party_count := some (toString counts.party_count)
    online_count := some (toString counts.online_count)
    online_max := some counts.online_max.text }

def St.write (s : St) : Write → St
  | .queue w => { s with queue := Match.applyWrite s.queue w }
  | .setEnterRoomCards n => { s with enterRoomCards := some (toString n) }
  | .hmsetJoined today counts => { s with operate := update s.operate today (some ((s.operateOf today).joined today counts)) }
  | .zincrbyRank key => { s with rank := incrby s.rank key 1 }
  | .lpushWin key table_id => { s with winList := St.push s.winList key table_id }
  | .lpushTotal key table_id => { s with totalList := St.push s.totalList key table_id }
  | .hmsetRecord key record_info => { s with record := update s.record key (Dict.update (s.record key) record_info) }
  | .hmsetSettled today online_count winner loser =>
    { s with
      operate := update s.operate today (some { s.operateOf today with
        online_count := some (toString online_count)
        winner := some winner
        loser := some loser }) }

instance : Exec Cmd St where
  exec
    | .existsOperate today, s => ((s.operate today).isSome, s)
    | .hmgetOperate today, s =>
      (⟨.field (s.operateOf today).player_count, .field (s.operateOf today).online_count, .field (s.operateOf today).online_max,
        .field (s.operateOf today).party_count⟩, s)
    | .hgetOnlineCount today, s => ((s.operateOf today).online_count, s)
    | .getEnterRoomCards, s => (s.enterRoomCards, s)
    | .hgetPlayerCount gameid, s => (s.queue.partyPlayerCount gameid, s)
    | .getUserTable account, s => (s.userTable account, s)
    | .hgetParentAg userTable, s => (s.parentAg userTable, s)
    | .incrRecordCount, s => (s.recordCount.getD 0 + 1, { s with recordCount := some (s.recordCount.getD 0 + 1) })
    | .incrCards key result, s => ((), { s with cards := incrby s.cards key result })
    | .look f, s => (f s, s)
    | .execute pipe, s => ((), pipe.foldl St.write s)

abbrev Handler := Prog Err Cmd

/-! ## Names -/

/-- The names that `party_worker.py` uses and other modules define. -/
inductive Name where
  | PARTY_GAME_ENTER_ROOM_CRADS | PARTY_GAME_RECORD_COUNT_TABLE | PARTY_GAME_RECORD_TABLE
  | PARTY_GAME_RECORD_ACCOUNT_TOTAL_LIST | PARTY_GAME_RECORD_ACCOUNT_WIN_LIST
  | PARTY_GAME_RANK_WITH_AGENT_TABLE | PARTY_GAME_ROOM_CRADS_BY_DAY | getUserByAccount

/-- The names that a module binds. -/
abbrev Names := Name → Bool

/-- `party_worker.py` imports none of them. -/
def party_worker : Names := fun _ => false

/-- A worker that imports all of them. -/
def imported : Names := fun _ => true

section
variable (names : Names)

/-! ## Players have joined -/

/-- The counts of the day, before a group joins. -/
def countsOf (today : String) : Handler Counts := do
  if !(← call (.existsOperate today)) then return ⟨.num 0, .num 0, .num 0, .num 0⟩
  call (.hmgetOperate today)

/-- `online_max`, after a group has joined. -/
def topOf (online_count : Int) (online_max : Count) : Except Err Count := do
  if online_max.under online_count then return .num ((← online_max.int) + online_count) else return online_max

/-- The counts after a group of `n` has joined. -/
def Counts.joined (counts : Counts) (n : Nat) : Except Err Joined := do
  let player_count := (← counts.player_count.int) + n
  let online_count := (← counts.online_count.int) + n
  let party_count := (← counts.party_count.int) + 1
  return ⟨player_count, party_count, online_count, ← topOf online_count counts.online_max⟩

/-- The commands of the pipeline wait for `execute`, so an exception on the way leaves all of them out. -/
def onJoinPartyRoomSuccess (prefix_ingame : Match.Format) (today server_table : String) (accountlist : List String)
    (ag rule : String) : Handler Int := do
  let already_in_list ← orRaise .IndexError (Match.alreadyInList prefix_ingame server_table ag rule)
  let pipe := (Match.joinSuccessWrites already_in_list accountlist).map .queue
  loadName .NameError names .PARTY_GAME_ENTER_ROOM_CRADS
  let counts ← countsOf today
  let counts ← ofExcept (counts.joined accountlist.length)
  call (.execute (pipe ++ [.setEnterRoomCards 1, .hmsetJoined today counts]))
  return 0

/-! ## A room is settled -/

/-- The dictionary of the accounts and their scores, in the order of its keys. -/
structure ScoreMap where
  items : List (String × Int)
  nodup : (items.map Prod.fst).Nodup

def ScoreMap.keys (data : ScoreMap) : List String := data.items.map Prod.fst

def ScoreMap.values (data : ScoreMap) : List Int := data.items.map Prod.snd

/-- The accounts with the score `max_score`. -/
def ScoreMap.maxList (data : ScoreMap) (max_score : Int) : List String := (data.items.filter (·.2 = max_score)).map Prod.fst

/-- `get_party_game_player_count`, of the field of the game. -/
def playersOf (player_count : Option String) : Except Err Int :=
  if player_count.getD "" = "" then .ok 4
  else match (Count.field player_count).int with
    | .ok n => .ok (if n ≤ 0 then 4 else n)
    | .error e => .error e

def get_party_game_player_count (gameid : String) : Handler Int := do
  ofExcept (playersOf (← call (.hgetPlayerCount gameid)))

/-- What an account is booked with. -/
structure Row where
  key : Key
  result : Result
  deriving DecidableEq

def descOf (max_score result : Int) : Desc := if max_score = 0 then .draw else if result < 0 then .loss else .win

/-- The names of what the loop queues for an account, which is `Row.writes`. -/
def loadLists (desc : Desc) : Handler Unit := do
  if desc = .win then
    loadName .NameError names .PARTY_GAME_RANK_WITH_AGENT_TABLE
    loadName .NameError names .PARTY_GAME_RECORD_ACCOUNT_WIN_LIST
  loadName .NameError names .PARTY_GAME_RECORD_ACCOUNT_TOTAL_LIST

/-- The body of the loop over the accounts. -/
def book (today : String) (max_score per_persume per_count : Int) (max_list : List String) (account : String) : Handler Row := do
  let result := if account ∈ max_list then per_count - per_persume else 0 - per_persume
  let desc := descOf max_score result
  loadName .NameError names .getUserByAccount
  let agentid ← call (.hgetParentAg (fmt (← call (.getUserTable account))))
  loadName .NameError names .PARTY_GAME_ROOM_CRADS_BY_DAY
  call (.incrCards (today, agentid, account) result)
  loadLists names desc
  return ⟨(today, agentid, account), ⟨result, desc, 0⟩⟩

/-- What the loop queues for an account. -/
def Row.writes (table_id : Int) (row : Row) : List Write :=
  (if row.result.desc = .win then [.zincrbyRank row.key, .lpushWin row.key table_id] else []) ++ [.lpushTotal row.key table_id]

/-- `record_info`, after the loop. -/
def recordInfo (now gameid : String) (table_id : Int) (rows : List Row) : List (String × Info) :=
  Dict.update [("id", .id table_id), ("date", .text now), ("gameid", .text gameid)]
    (rows.map fun row => (row.key.2.2, .result row.result))

def onPartyRoomBalanceSuccess (get_party_game_winner get_party_game_loser : St → String → Int × Int) (today now server_table : String)
    (data : ScoreMap) : Handler Int := do
  let gameid ← orRaise .IndexError (split ':' server_table)[3]?
  let max_score ← orRaise .ValueError data.values.max?
  loadName .NameError names .PARTY_GAME_ENTER_ROOM_CRADS
  let per_persume ← ofExcept (Count.field (← call .getEnterRoomCards)).int
  let max_list := data.maxList max_score
  -- both are integers, so the quotient is rounded down before `ceil` sees it
  let per_count := ((← get_party_game_player_count gameid) - 1) / (max_list.length : Int)
  loadName .NameError names .PARTY_GAME_RECORD_COUNT_TABLE
  let table_id ← call .incrRecordCount
  let rows ← collect data.keys (book names today max_score per_persume per_count max_list)
  loadName .NameError names .PARTY_GAME_RECORD_TABLE
  let online_count := (← ofExcept (Count.field (← call (.hgetOnlineCount today))).int) - data.keys.length
  let winner ← call (.look (get_party_game_winner · today))
  let loser ← call (.look (get_party_game_loser · today))
  call (.execute (rows.flatMap (Row.writes table_id) ++
    [.hmsetRecord (today, table_id) (recordInfo now gameid table_id rows), .hmsetSettled today online_count winner loser]))
  return 0

end

/-! ## What a group that joins comes to -/

/-- The counts of the day in the store. -/
def St.counts (s : St) (today : String) : Counts :=
  match s.operate today with
  | none => ⟨.num 0, .num 0, .num 0, .num 0⟩
  | some o => ⟨.field o.player_count, .field o.online_count, .field o.online_max, .field o.party_count⟩

theorem run_countsOf (today : String) (s : St) : run (countsOf today) s = (.ok (s.counts today), s) := by
  unfold countsOf St.counts
  show run (if !(s.operate today).isSome then _ else _) s = _
  cases ho : s.operate today with
  | none => rfl
  | some o =>
    show (Except.ok (Counts.mk (.field (s.operateOf today).player_count) _ _ _), s) = _
    rw [St.operateOf, ho]
    rfl

/-- The store after a group has joined. -/
def St.join (s : St) (key : String) (accountlist : List String) (today : String) (counts : Joined) : St :=
  { s with
    queue := (Match.joinSuccessWrites key accountlist).foldl Match.applyWrite s.queue
    enterRoomCards := some "1"
    operate := update s.operate today (some ((s.operateOf today).joined today counts)) }

theorem foldl_queue (ws : List Match.Write) (s : St) :
    (ws.map Write.queue).foldl St.write s = { s with queue := ws.foldl Match.applyWrite s.queue } := by
  induction ws generalizing s with
  | nil => rfl
  | cons w ws ih => exact ih _

/-- A group joins where its list has a name, `PARTY_GAME_ENTER_ROOM_CRADS` is bound and the counts can be read. -/
theorem run_join (names : Names) (prefix_ingame : Match.Format) (today server_table : String) (accountlist : List String)
    (ag rule : String) (s : St) :
    run (onJoinPartyRoomSuccess names prefix_ingame today server_table accountlist ag rule) s =
      match Match.alreadyInList prefix_ingame server_table ag rule with
      | none => (.error .IndexError, s)
      | some key =>
        if names .PARTY_GAME_ENTER_ROOM_CRADS then
          match (s.counts today).joined accountlist.length with
          | .ok counts => (.ok 0, s.join key accountlist today counts)
          | .error e => (.error e, s)
        else (.error .NameError, s) := by
  unfold onJoinPartyRoomSuccess
  cases Match.alreadyInList prefix_ingame server_table ag rule with
  | none => rfl
  | some key =>
  rw [orRaise_some, ret_bind]
  dsimp only
  unfold loadName
  split
  · rw [ret_bind, run_bind_ok (run_countsOf today s)]
    cases (s.counts today).joined accountlist.length with
    | error e => rfl
    | ok counts =>
      show (Except.ok 0, (_ ++ _ : List Write).foldl St.write s) = _
      rw [List.foldl_append, foldl_queue]
      rfl
  · rfl

end FishWeb.Party
