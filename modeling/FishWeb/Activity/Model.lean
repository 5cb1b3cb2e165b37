import Mathlib.Data.Rat.Defs
import Mathlib.Logic.Function.Basic
import FishWeb.Lib.Prog
import FishWeb.Lib.Python
import FishWeb.Lib.Runs
/-!
# The activities of the agents

`model/activeModel.py`, the requests about activities of `admin/admin_activice.py` and
`admin/admin_activice_check.py`, and the timer of `tasks/schedule.py`. An agent writes an
activity and hands it in, the system agent passes it, the agent makes it ready, and the
timer puts it on the list of those that are online, and takes it off.

A table is its hash, all of it text. A body is the dict of the request, with what `hmset`
stores of each value and whether it is true. The keys that the timer scans come in any
order. The constants of the database module, the prefix of the urls and the time zone are
those of `Config`. Left out: the mission records that the timer drops at midnight, the
pages, and the pictures.
-/
open Python Prog

namespace FishWeb.Activity

/-! ## The constants -/

/-- The names of the states of an activity, and what else is configured. -/
structure Config where
  nonChecked : String
  checking : String
  pass : String
  fail : String
  ready : String
  starting : String
  close : String
  /-- The states have names of their own. -/
  nodup : [nonChecked, checking, pass, fail, ready, starting, close].Nodup
  /-- `STATUS_STARTING` is no part of `STATUS_READY`, which the page that closes asks with `in`. -/
  starting_apart : ¬starting.toList <:+: ready.toList
  systemId : Int
  ONE_DAY : Rat
  HALL_PRE : String
  BACK_PRE : String
  /-- `time.mktime` of a date `%Y-%m-%d`; `none` is the `ValueError` of `strptime`. -/
  str2timestamp : String → Option Rat

/-! ## The store -/

/-- A hash. -/
abbrev Fields := String → Option String

open Function (update)

/-- `hmset` -/
def Fields.hmset (t : Fields) (l : List (String × String)) : Fields := l.foldl (fun t p => update t p.1 (some p.2)) t

structure St where
  /-- `ACTIVICE_TABLE % id`, by the id -/
  table : String → Option Fields
  /-- `ACTIVICE_LIST_TABLE % agent` -/
  lists : String → List String
  /-- `ONLINE_ACTIVICE_LIST % agent` -/
  online : String → List String
  /-- `ACTIVICE_REWARD_NUM % (id, rewardId)` -/
  rewardNum : String → String → Option String
  /-- `ACTIVICE_COUNT_TABLE` -/
  count : Nat
  /-- There is a timer that has not raised. -/
  alive : Bool

def init : St := ⟨fun _ => none, fun _ => [], fun _ => [], fun _ _ => none, 0, true⟩

/-! ## Commands -/

inductive Write where
  | setRewardNum (id rewardId num : String)
  | hmset (id : String) (l : List (String × String))
  | lpush (agent id : String)
  | delete (id : String)
  | lrem (agent id : String)
  | lpushOnline (agent id : String)
  | lremOnline (agent id : String)
  deriving Repr, DecidableEq

def Write.apply (s : St) : Write → St
  | .setRewardNum id r n => { s with rewardNum := update s.rewardNum id (update (s.rewardNum id) r (some n)) }
  | .hmset id l => { s with table := update s.table id (some (Fields.hmset ((s.table id).getD fun _ => none) l)) }
  | .lpush a id => { s with lists := update s.lists a (id :: s.lists a) }
  | .delete id => { s with table := update s.table id none }
  | .lrem a id => { s with lists := update s.lists a ((s.lists a).filter (· ≠ id)) }
  | .lpushOnline a id => { s with online := update s.online a (id :: s.online a) }
  | .lremOnline a id => { s with online := update s.online a ((s.online a).filter (· ≠ id)) }

inductive Cmd : Type → Type
  | incrCount : Cmd Nat
  | lrange (agent : String) : Cmd (List String)
  | exists (id : String) : Cmd Bool
  | hget (id field : String) : Cmd (Option String)
  | hgetall (id : String) : Cmd Fields
  | existsOnline (agent : String) : Cmd Bool
  | pipe (ws : List Write) : Cmd Unit

instance : Exec Cmd St where
  exec
    | .incrCount, s => (s.count + 1, { s with count := s.count + 1 })
    | .lrange a, s => (s.lists a, s)
    | .exists id, s => ((s.table id).isSome, s)
    | .hget id f, s => ((s.table id).bind (· f), s)
    | .hgetall id, s => ((s.table id).getD fun _ => none, s)
    | .existsOnline a, s => (decide (s.online a ≠ []), s)
    | .pipe ws, s => ((), ws.foldl Write.apply s)

abbrev Handler := Prog Err Cmd

def send {α : Type} (c : Cmd α) : Handler α := .call c

/-- One write, not in a transaction. -/
def write (w : Write) : Handler Unit := send (.pipe [w])

/-! ## Requests -/

/-- A value of a body: what the store makes of it, and whether it is true. -/
structure Json where
  text : String
  truthy : Bool
  deriving Repr, DecidableEq

abbrev Body := List (String × Json)

def texts (body : Body) : List (String × String) := body.map fun p => (p.1, p.2.text)

/-- An entry of `rewardList`. -/
structure Reward where
  rewardId : Option String
  rewardPut : Option Json
  deriving Repr, DecidableEq

inductive Reply where
  | json (code : Int) (msg : String) (jumpUrl : Option String)
  | redirect (url : String)
  | nothing
  deriving Repr, DecidableEq

section Handlers
variable (C : Config)

def listUrl : String := C.BACK_PRE ++ "/activice/list"

def getActiviceStatus (id : String) : Handler (Option String) := do
  if ← send (.exists id) then send (.hget id "status") else return none

def getActiciveAgentid (id : String) : Handler (Option String) := do
  if ← send (.exists id) then send (.hget id "agentid") else return none

def setActiviceStatus (id status : String) : Handler Unit := do
  if ← send (.exists id) then write (.hmset id [("status", status)]) else return ()

/-- What `createActivice` puts aside of a reward. -/
def rewardPuts (activeid : String) : List Reward → Handler (List Write)
  | [] => return []
  | r :: l => do
    let rewardid ← orRaise .KeyError r.rewardId
    let ws ← rewardPuts activeid l
    match r.rewardPut with
    | some put => return if put.truthy then .setRewardNum activeid rewardid put.text :: ws else ws
    | none => return ws

def createActivice (agentid : String) (body : Body) (rewardList : List Reward) : Handler Unit := do
  let activeid ← send .incrCount
  let id := toString activeid
  let type ← orRaise .KeyError (body.lookup "type")
  let readurl := C.HALL_PRE ++ "/activice/route?type=" ++ type.text ++ "&id=" ++ id ++ "&agentId=" ++ agentid
  let number ← orRaise .ValueError (int agentid)
  let status := if number = C.systemId then C.pass else C.nonChecked
  let puts ← rewardPuts id rewardList
  send (.pipe (puts ++
    [.hmset id (texts body ++ [("read", "0"), ("id", id), ("link", readurl), ("agentid", agentid), ("status", status)]),
      .lpush agentid id]))

/-- The field of a body is missing or empty. -/
def blank (body : Body) (field : String) : Bool := (body.lookup field).all (!·.truthy)

def doActiviceCreate (agentid : String) (body : Body) (rewardList : List Reward) : Handler Reply := do
  if blank body "title" then return .json 1 "请输入你的活动标题" none
  if blank body "startdate" then return .json 1 "请输入活动开始时间" none
  if blank body "enddate" then return .json 1 "请输入活动结束时间" none
  if blank body "type" then return .json 1 "请输入你的活动类型" none
  if blank body "missionList" then return .json 1 "请添加你的任务列表" none
  if blank body "rewardList" then return .json 1 "请添加你的奖品列表" none
  match ← (createActivice C agentid body rewardList).attempt with
  | .error _ => return .json 1 "添加新活动失败" none
  | .ok _ => return .json 0 "新增活动成功." (some (listUrl C))

/-- `hmset` refuses an empty dict. -/
def editActivice (agentId tableid : String) (body : Body) : Handler Unit := do
  if tableid ∉ (← send (.lrange agentId)) then .raise .RuntimeError
  else if body = [] then .raise .RuntimeError
  else write (.hmset tableid (texts body))

/-- `POST /activice/modify` -/
def doModify (agentId acid : String) (body : Body) : Handler Reply := do
  if acid = "" then return .nothing
  match ← Prog.attempt (do
    editActivice agentId acid body
    let number ← orRaise .ValueError (int agentId)
    if number ≠ C.systemId then setActiviceStatus acid C.nonChecked else return ()) with
  | .error _ => return .json 1 "修改活动失败." (some (listUrl C))
  | .ok _ => return .json 0 "修改活动成功." (some (listUrl C))

/-- `GET /activice/del` -/
def doDel (agentId tableid : String) : Handler Reply := do
  if tableid = "" then return .json 1 "删除活动失败." (some (listUrl C))
  send (.pipe [.delete tableid, .lrem agentId tableid])
  return .json 0 "删除活动成功." (some (listUrl C))

/-- `GET /activice/check` -/
def check (tableid : String) : Handler Reply := do
  if tableid = "" then return .nothing
  let status ← getActiviceStatus tableid
  if status = some C.nonChecked ∨ status = some C.fail then setActiviceStatus tableid C.checking else pure ()
  return .redirect (listUrl C)

/-- `GET /activice/confirm` -/
def confirm (agentId tableid result : String) : Handler Reply := do
  if tableid = "" then return .json 1 "没有tableid权限" none
  let number ← orRaise .ValueError (int agentId)
  if number ≠ C.systemId then return .json 1 "不是系统管理员" none
  let status ← getActiviceStatus tableid
  if status = some C.checking then
    if result = "0" then setActiviceStatus tableid C.fail
    else if result = "1" then setActiviceStatus tableid C.pass
    else pure ()
  else pure ()
  return .json 0 "审核通过" (some (listUrl C))

/-- `GET /activice/ready` -/
def ready (tableid : String) : Handler Reply := do
  if tableid = "" then return .nothing
  let status ← getActiviceStatus tableid
  if status = some C.pass then setActiviceStatus tableid C.ready else pure ()
  return .redirect (listUrl C)

def addOnlineActivice (agentid acid : String) : Handler Unit := do
  setActiviceStatus acid C.starting
  write (.lpushOnline agentid acid)

def rmOnlineActivice (agentid acid : String) : Handler Unit := do
  setActiviceStatus acid C.close
  write (.lremOnline agentid acid)

/-- `GET /activice/close`. Without a table there is no status, and `in` raises. -/
def close (tableid : String) : Handler Reply := do
  if tableid = "" then return .nothing
  match ← getActiviceStatus tableid with
  | none => return .json 0 "关闭失败" (some (listUrl C))
  | some status =>
    if status.toList <:+: C.ready.toList then setActiviceStatus tableid C.close
    else if status.toList <:+: C.starting.toList then
      match ← getActiciveAgentid tableid with
      | none => pure ()
      | some agentid =>
        if agentid ≠ "" ∧ (← send (.existsOnline agentid)) then rmOnlineActivice C agentid tableid else pure ()
    else pure ()
    return .json 0 "关闭成功" (some (listUrl C))

/-! ## The timer -/

/-- `cur_time - start_time` and `end_time + ONE_DAY - cur_time` of an activity. -/
def times (info : Fields) (now : Rat) : Handler (Rat × Rat) := do
  let startdate ← orRaise .KeyError (info "startdate")
  let start_time ← orRaise .ValueError (C.str2timestamp startdate)
  let enddate ← orRaise .KeyError (info "enddate")
  let end_time ← orRaise .ValueError (C.str2timestamp enddate)
  return (now - start_time, end_time + C.ONE_DAY - now)

/-- `b and info['status'] == status` -/
def statusIs (info : Fields) (b : Bool) (status : String) : Handler Bool :=
  if b then do
    let st ← orRaise .KeyError (info "status")
    return decide (st = status)
  else return false

/-- What the timer does about one activity. -/
def visit (now : Rat) (agentId id : String) : Handler Unit := do
  let info ← send (.hgetall id)
  let (ts, last) ← times C info now
  if ← statusIs info (decide (0 < ts)) C.ready then addOnlineActivice C agentId id
  else if ← statusIs info (decide (last < 0)) C.starting then rmOnlineActivice C agentId id
  else return ()

/-- A round reads the clock once here, and at each activity in the source. -/
def getActivices (keys : List String) (now : Rat) : Handler Unit :=
  forEach keys fun agentId => do
    let tableIds ← send (.lrange agentId)
    forEach tableIds (visit C now agentId)

end Handlers

/-! ## Runs -/

inductive Request where
  | create (agent : String) (body : Body) (rewardList : List Reward)
  | modify (agent id : String) (body : Body)
  | del (agent id : String)
  | check (id : String)
  | confirm (agent id result : String)
  | ready (id : String)
  | close (id : String)
  /-- A round of the timer: what `KEYS` answers, and the time. -/
  | tick (keys : List String) (now : Rat)

/-- The store after a request. A round that raises is the last. -/
def step (C : Config) : Request → St → St
  | .create agent body rewardList, s => (run (doActiviceCreate C agent body rewardList) s).2
  | .modify agent id body, s => (run (doModify C agent id body) s).2
  | .del agent id, s => (run (doDel C agent id) s).2
  | .check id, s => (run (Activity.check C id) s).2
  | .confirm agent id result, s => (run (Activity.confirm C agent id result) s).2
  | .ready id, s => (run (Activity.ready C id) s).2
  | .close id, s => (run (Activity.close C id) s).2
  | .tick keys now, s =>
    if s.alive then
      match run (getActivices C keys now) s with
      | (.ok _, s') => s'
      | (.error _, s') => { s' with alive := false }
    else s

end FishWeb.Activity
