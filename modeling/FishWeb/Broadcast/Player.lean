import FishWeb.Broadcast.Undo
/-!
# The player of the broadcasts

`broad_manage.py`, a process of its own: round after round it starts the broadcasts that have
begun and ends those that are over, until a round raises; it is started again by hand.
`getHallBroadInfo` of `model/hallModel.py` shows what is being played. Broadcasts come from
`/game/broadcast` of `admin/admin_game.py` and go with `do_deleteBroads`.

Times are of any linear order, and `strptime` is what `datetime.strptime` makes of a date, if
it takes it. The requests and the rounds come one after another. A record that is gone reads
as none, also where a status was written since. Left out: the log, and the pause of a round.
-/
open Python Prog
open Function (update)

namespace FishWeb.Broadcast.Player

open Undo (Info Key Store Form push_broacast do_deleteBroads broadcastInfo)

variable {τ : Type} [LinearOrder τ] (strptime : String → Option τ)

/-! ## The commands -/

inductive Cmd : Type → Type
  | lrange (key : Key) : Cmd (List String)
  | smembersOut : Cmd (String → Bool)
  | smembersPlay : Cmd (String → Bool)
  /-- `hgetall (HALL_BRO_TABLE % id)` -/
  | hgetall (id : String) : Cmd (Option Info)
  | hsetStatus (id : String) (status : Int) : Cmd Unit
  | sremPlay (id : String) : Cmd Unit
  | saddPlay (id : String) : Cmd Unit
  | saddOut (id : String) : Cmd Unit

instance : Exec Cmd Store where
  exec
    | .lrange key, s => (s.list key, s)
    | .smembersOut, s => (s.outSet, s)
    | .smembersPlay, s => (s.playSet, s)
    | .hgetall id, s => (s.info id, s)
    | .hsetStatus id status, s => ((), { s with info := update s.info id ((s.info id).map fun i => { i with status }) })
    | .sremPlay id, s => ((), { s with playSet := update s.playSet id false })
    | .saddPlay id, s => ((), { s with playSet := update s.playSet id true })
    | .saddOut id, s => ((), { s with outSet := update s.outSet id true })

abbrev Handler := Prog Err Cmd

/-! ## A round -/

inductive Stage where
  | waiting
  | playing
  | ended
  deriving Repr, DecidableEq

/-- `start_date` and `end_date`. -/
def dates (boradInfo : Info) : Except Err (τ × Option τ) := do
  let start_date ← (strptime boradInfo.start_date).elim (.error .ValueError) .ok
  if boradInfo.end_date = "" then return (start_date, none)
  let end_date ← (strptime boradInfo.end_date).elim (.error .ValueError) .ok
  return (start_date, some end_date)

/-- What the dates of a broadcast say at `nowDate`. -/
def stageOf (nowDate : τ) (d : τ × Option τ) : Stage :=
  if nowDate < d.1 then .waiting
  else match d.2 with
    | none => .playing
    | some end_date => if end_date ≤ nowDate then .ended else .playing

/-- One broadcast of a round that has read the two sets. -/
def playOne (nowDate : τ) (out_set play_set : String → Bool) (borad : String) : Handler Unit := do
  if out_set borad then return ()
  let boradInfo ← orRaise .KeyError (← call (.hgetall borad))
  let d ← ofExcept (dates strptime boradInfo)
  match stageOf nowDate d with
  | .waiting => return ()
  | .ended =>
    call (.hsetStatus borad 2)
    call (.sremPlay borad)
    call (.saddOut borad)
  | .playing =>
    if play_set borad then return ()
    call (.hsetStatus borad 1)
    call (.saddPlay borad)

/-- One round of the loop. -/
def round (nowDate : τ) : Handler Unit := do
  let borads ← call (.lrange .hallList)
  let borads_fish ← call (.lrange .fishList)
  let out_set ← call .smembersOut
  let play_set ← call .smembersPlay
  forEach (borads ++ borads_fish) (playOne strptime nowDate out_set play_set)

/-- What the process does first. -/
def do_clearContainBrocast : Handler Unit := do
  let system_contain_bro ← call (.lrange (.hallContainAllList "0"))
  let fish_system_bro ← call (.lrange (.fishContainAllList "0"))
  let agent_contain_bro ← call (.lrange (.hallContainAllList "2"))
  let play_set ← call .smembersPlay
  forEach (system_contain_bro ++ agent_contain_bro ++ fish_system_bro) fun bro =>
    if play_set bro then call (.sremPlay bro) else return ()

/-! ## What the hall shows -/

structure Detail where
  content : String
  repeatInterval : Int
  deriving Repr, DecidableEq

/-- `broadDetail` -/
def detail (broad : String) : Handler Detail := do
  let broadInfo ← orRaise .KeyError (← call (.hgetall broad))
  return ⟨broadInfo.content, broadInfo.per_sec⟩

/-- The first of the broadcasts that is being played. -/
def firstOf (play_set : String → Bool) (broads : List String) : Handler (Option Detail) :=
  match broads.find? play_set with
  | none => return none
  | some broad => do return some (← detail broad)

/-- `HALL_BRO_CONTAIN_ALL_LIST` or `FISH_BRO_CONTAIN_ALL_LIST`. -/
abbrev BroadTable := String → Key

def getHallBroadInfo (group_id : String) (broad_table : BroadTable) (broad_belone : String) : Handler (List Detail) := do
  let play_set ← call .smembersPlay
  let broads ← call (.lrange (broad_table "1"))
  let broad_list ← collect (broads.filter play_set) detail
  if let some d ← firstOf play_set (← call (.lrange (broad_table "0"))) then return broad_list ++ [d]
  if broad_belone = "HALL" then
    if let some d ← firstOf play_set (← call (.lrange (.hallContainAgList "2" group_id))) then return broad_list ++ [d]
    if let some d ← firstOf play_set (← call (.lrange (.hallContainAgList "3" group_id))) then return broad_list ++ [d]
  return broad_list

/-! ## Runs -/

structure St (τ : Type) where
  store : Store
  /-- `HALL_BRO_COUNT` -/
  count : Nat
  /-- Whether the process runs. -/
  running : Bool
  /-- Beside the store: when the last round was. -/
  last : Option τ

/-- A process that has done no round yet, and no broadcast. -/
def St.init : St τ := ⟨.empty, 0, true, none⟩

inductive Req (τ : Type) where
  /-- `/game/broadcast` with a form that it takes, and the title of the type. -/
  | post (form : Form) (selfUid broad_title : String)
  | delete (broad_id broad_belone : String)
  | round (nowDate : τ)
  | restart

def step : Req τ → St τ → St τ
  | .post form selfUid broad_title, s =>
    let broadcastInfo := broadcastInfo form selfUid (toString (s.count + 1)) broad_title
    { s with
      store := (run (push_broacast broadcastInfo form.broad_type selfUid form.broad_belone) s.store).2
      count := s.count + 1 }
  | .delete broad_id broad_belone, s => { s with store := (run (do_deleteBroads broad_id broad_belone) s.store).2 }
  | .round nowDate, s =>
    if s.running then
      match run (round strptime nowDate) s.store with
      | (.ok _, store) => { s with store, last := some nowDate }
      | (.error _, store) => { s with store, running := false, last := some nowDate }
    else s
  | .restart, s => { s with store := (run do_clearContainBrocast s.store).2, running := true }

end FishWeb.Broadcast.Player
