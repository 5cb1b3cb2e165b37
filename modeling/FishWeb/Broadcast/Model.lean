import FishWeb.Lib.Prog
import FishWeb.Lib.Python
/-!
# What a guild hears

`getGroupIds` and `getBroadcasts` of `model/hallModel.py`. `depth` is how many calls of the
recursion the interpreter has left. The ids of broadcasts come from a counter; a stored
record is a dict. `redis.lrem (name, value, num)` takes the value before the number, as the
client of the sources has it.
-/
open Python Prog

namespace FishWeb.Broadcast

/-! ## The store -/

/-- What `hgetall` gives. -/
abbrev Dict := List (String × String)

structure St where
  /-- Is there an `AGENT_TABLE % id`? -/
  isAgent : String → Bool
  /-- `AGENT2PARENT % id` -/
  parent : String → Option String
  /-- `FORMAT_BROADCAST_TABLE % bid` -/
  broadcast : Nat → Option Dict
  /-- `HALL_BROADCAST_LIST` -/
  hallList : List Nat
  /-- `FORMAT_BROADCAST_LIST_TABLE` -/
  list : List Nat

/-- `lrem`: the first `num` of a value go, or all where `num` is 0. -/
def lrem (value num : Nat) (l : List Nat) : List Nat :=
  if num = 0 then l.filter (· ≠ value) else (fun l => l.erase value)^[num] l

inductive Cmd : Type → Type
  | existsAgent (groupId : String) : Cmd Bool
  | getParent (groupId : String) : Cmd (Option String)
  | lrangeHall : Cmd (List Nat)
  | existsBroadcast (bid : Nat) : Cmd Bool
  | hgetallBroadcast (bid : Nat) : Cmd Dict
  /-- `lrem (FORMAT_BROADCAST_LIST_TABLE, value, num)` -/
  | lremList (value num : Nat) : Cmd Unit

instance : Exec Cmd St where
  exec
    | .existsAgent groupId, s => (s.isAgent groupId, s)
    | .getParent groupId, s => (s.parent groupId, s)
    | .lrangeHall, s => (s.hallList, s)
    | .existsBroadcast bid, s => ((s.broadcast bid).isSome, s)
    | .hgetallBroadcast bid, s => ((s.broadcast bid).getD [], s)
    | .lremList value num, s => ((), { s with list := lrem value num s.list })

abbrev Handler := Prog Err Cmd

/-! ## The guilds above -/

def getGroupIds : Nat → String → Handler (List (Option String))
  | 0, _ => .raise .RuntimeError
  | depth + 1, groupId => do
    if ← call (.existsAgent groupId) then
      match ← call (.getParent groupId) with
      | some parentId =>
        -- an empty text is no parent
        if parentId = "" then return [some parentId]
        if (← orRaise .ValueError (int parentId)) = 1 then return [some "1"]
        getGroupIds depth parentId
      | none => return [none]
    else return []

/-! ## The broadcasts -/

/-- `{'broadcasts': .., 'isNew': ..}` -/
structure Broadcasts where
  broadcasts : List Dict
  isNew : Option String
  deriving Repr, DecidableEq

/-- The body of the loop over the ids. -/
def hearBroadcast (groupIds : List (Option String)) (bid : Nat) : Handler (List Dict) := do
  if ← call (.existsBroadcast bid) then
    let bInfos ← call (.hgetallBroadcast bid)
    let ag ← orRaise .KeyError (bInfos.lookup "ag")
    return if groupIds.contains (some ag) then [bInfos] else []
  else
    call (.lremList 1 bid)
    return []

def getBroadcasts (depth : Nat) (groupId isNew : String) : Handler Broadcasts := do
  let bIds ← call .lrangeHall
  let groupIds ← getGroupIds depth groupId
  let broadInfos ← collect bIds (hearBroadcast (groupIds ++ [some groupId]))
  return ⟨broadInfos.flatten, if isNew = "" then none else some isNew⟩

end FishWeb.Broadcast
