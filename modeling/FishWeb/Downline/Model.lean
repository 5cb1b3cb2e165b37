import FishWeb.Lib.Descent
import FishWeb.Lib.Prog
import FishWeb.Lib.Python
import FishWeb.Lib.Sets
/-!
# An agent and all below it

`agentFreeze`, `doAgentChange`, `getAllChildAgentId` and `getAgentAllMembers` of
`model/agentModel.py`, and `getAgentAllMemberIds` of `model/userModel.py`. The first four
go two levels down in two loops, the last goes down by recursion; `depth` is how many of
its calls the interpreter has left.

The members of a stored set come in the order of its list. A number that is stored is its
text.
-/
open Python Prog

namespace FishWeb.Downline

/-! ## The store -/

structure St where
  /-- The fields of `AGENT_TABLE % id`. -/
  agent : String → String → Option String
  /-- `AGENT_CHILD_TABLE % id` -/
  child : String → MemberSet String
  /-- `FORMAT_ADMIN_ACCOUNT_MEMBER_TABLE % id` -/
  member : String → MemberSet String

open Function (update)

/-- `hset (AGENT_TABLE % agentId, field, value)` in a pipeline. -/
structure Hset where
  agentId : String
  field : String
  value : String

def Hset.apply (s : St) (w : Hset) : St :=
  { s with agent := update s.agent w.agentId (update (s.agent w.agentId) w.field (some w.value)) }

inductive Cmd : Type → Type
  | smembersChild (agentId : String) : Cmd (MemberSet String)
  | smembersMember (agentId : String) : Cmd (MemberSet String)
  | scardMember (agentId : String) : Cmd Nat
  /-- `hmget (AGENT_TABLE % agentId, ('type', 'id'))` -/
  | hmgetAgent (agentId : String) : Cmd (Option String × Option String)
  | execute (pipe : List Hset) : Cmd Unit

instance : Exec Cmd St where
  exec
    | .smembersChild agentId, s => (s.child agentId, s)
    | .smembersMember agentId, s => (s.member agentId, s)
    | .scardMember agentId, s => ((s.member agentId).scard, s)
    | .hmgetAgent agentId, s => ((s.agent agentId "type", s.agent agentId "id"), s)
    | .execute pipe, s => ((), pipe.foldl Hset.apply s)

abbrev Handler := Prog Err Cmd

/-! ## Switches -/

/-- The loops of `agentFreeze` and `doAgentChange`. The children of children get `last`. -/
def setBelow (agentId field change last : String) : Handler Unit := do
  let childList ← call (.smembersChild agentId)
  let pipe ← collect childList.members fun child => do
    let childSonList ← call (.smembersChild child)
    return ⟨child, field, change⟩ :: childSonList.members.map (⟨·, field, last⟩)
  call (.execute (⟨agentId, field, change⟩ :: pipe.flatten))

def agentFreeze (agentId : String) : Handler Unit := setBelow agentId "valid" "0" "0"

def doAgentChange (agentId field change : String) : Handler Unit := setBelow agentId field change "0"

/-! ## Queries -/

def getAllChildAgentId (agentId : String) : Handler (List String) := do
  let downLines ← call (.smembersChild agentId)
  let agentIdList ← collect downLines.members fun downline => do
    let subDownlines ← call (.smembersChild downline)
    return downline :: subDownlines.members
  return agentIdList.flatten

def getAgentAllMembers (agentId : String) : Handler Nat := do
  let agentIdChilds ← getAllChildAgentId agentId
  let downLineCount ← call (.scardMember agentId)
  let subCounts ← collect agentIdChilds fun subId => call (.scardMember subId)
  return downLineCount + subCounts.sum

/-- `set(l)` -/
def setOf (l : List String) : MemberSet String := ⟨l.dedup, l.nodup_dedup⟩

def getAgentAllMemberIds : Nat → String → Handler (MemberSet String)
  | 0, _ => .raise .RuntimeError
  | depth + 1, agentId => do
    let (_, aId) ← call (.hmgetAgent agentId)
    let subIds ← call (.smembersChild (fmt aId))
    let TotalMember ← collect subIds.members fun subId => do
      let members ← getAgentAllMemberIds depth subId
      let childMemberIds ← call (.smembersMember subId)
      return members.members ++ childMemberIds.members
    return setOf TotalMember.flatten

end FishWeb.Downline
