import FishWeb.Admin.Access
import FishWeb.Agents.Model
import FishWeb.Downline.Model
/-!
# Sessions and rights of the back office

`bottle_session.py`, the guard `checkAccess` of `common/utilt.py`, `admin/admin_auth.py`,
the password page of `admin/admin_self.py`, the rights in `model/agentModel.py`, and the
requests of `admin/admin_agent.py` that decide who may log in and what he may do.

The store is that of `Agents.Model` (records, rates and prices) and that of
`Downline.Model` (the other fields of a record, and who is below whom) with the sessions
and the rights. A session may be gone at any time: `lapse` is its end. A form is its
fields, stripped; `fresh` is the id that `getUuid` would draw. Left out: the lifetime
itself, the games and the shop of an agent, the indexes by date, and the logs.
-/
open Python Prog

namespace FishWeb.Admin

/-! ## The store -/

/-- The fields of a session that hold one text. -/
inductive Field where
  | maj_vcode | lastLoginIp | lastLoginDate | type | account | id
  deriving Repr, DecidableEq

/-- A hash `session:%s`. `access` is the text of a set, which `eval` reads back. -/
structure Session where
  text : Field → Option String := fun _ => none
  access : Option (List String) := none

inductive Rights where
  | access | ban
  deriving Repr, DecidableEq

/-- `AGENT2ACCESS % id` and `AGENT2ACCESSBAN % id`. -/
def Rights.key (r : Rights) (agentId : String) : String :=
  match r with
  | .access => "agent:" ++ agentId ++ ":accesses"
  | .ban => "agent:" ++ agentId ++ ":ban:accesses"

/-- What is banned of an agent is where the rights of the agent `id:ban` are. -/
theorem Rights.key_ban (id : String) : Rights.ban.key id = Rights.access.key (id ++ ":ban") := by
  show "agent:" ++ id ++ (":ban" ++ ":accesses") = "agent:" ++ (id ++ ":ban") ++ ":accesses"
  simp only [String.append_assoc]

theorem Rights.key_access_inj {id id' : String} : Rights.access.key id = Rights.access.key id' ↔ id = id' := by
  simp [Rights.key, ← String.toList_inj]

theorem Rights.key_access_eq_ban {id id' : String} : Rights.access.key id = Rights.ban.key id' ↔ id = id' ++ ":ban" := by
  rw [Rights.key_ban, Rights.key_access_inj]

theorem Rights.key_ban_inj {id id' : String} : Rights.ban.key id = Rights.ban.key id' ↔ id = id' := by
  simp [Rights.key, ← String.toList_inj]

structure St where
  agents : Agents.St
  down : Downline.St
  /-- By the key of the set. -/
  rights : String → MemberSet String
  session : String → Option Session

/-! ## Commands -/

open Function (update)

/-- The writes of a transaction that `Agents.Model` does not have. -/
inductive Write where
  | hset (w : Downline.Hset)
  | saddChild (parentId agentId : String)

def Write.apply (s : St) : Write → St
  | .hset w => { s with down := w.apply s.down }
  | .saddChild parentId agentId => { s with down := { s.down with child := SetTable.add s.down.child parentId agentId } }

/-- What `hset` leaves of the session. -/
def setText (s : St) (sid : String) (f : Field) (v : String) : St :=
  let session := (s.session sid).getD {}
  { s with session := update s.session sid (some { session with text := update session.text f (some v) }) }

def setAccess (s : St) (sid : String) (l : List String) : St :=
  { s with session := update s.session sid (some { (s.session sid).getD {} with access := some l }) }

inductive Own : Type → Type
  | existsSession (sid : String) : Own Bool
  | hget (sid : String) (f : Field) : Own (Option String)
  | hset (sid : String) (f : Field) (v : String) : Own Unit
  | hgetAccess (sid : String) : Own (Option (List String))
  | hsetAccess (sid : String) (l : List String) : Own Unit
  /-- The session is gone. -/
  | lapse (sid : String) : Own Unit
  /-- `getAgentId` -/
  | getAgentId (account : String) : Own (Option String)
  /-- `hmget (AGENT_TABLE % id, ('passwd', 'valid', 'type'))` -/
  | hmgetLogin (agentId : String) : Own (Option String × Option String × Option String)
  /-- `hmget (AGENT_TABLE % id, ('lastLoginIp', 'lastLoginDate', 'type'))` -/
  | hmgetLast (agentId : String) : Own (Option String × Option String × Option String)
  | hgetAgent (agentId field : String) : Own (Option String)
  /-- `hget (AGENT_TABLE % id, 'recharge')`, for the line that the guard logs of the path. -/
  | enter (sid path agentId : String) : Own (Option String)
  | sadd (r : Rights) (agentId url : String) : Own Unit
  | srem (r : Rights) (agentId : String) (urls : List String) : Own Unit
  | smembers (r : Rights) (agentId : String) : Own (List String)
  | execute (pipe : List Agents.Write) (own : List Write) : Own Unit

instance : Exec Own St where
  exec
    | .existsSession sid, s => ((s.session sid).isSome, s)
    | .hget sid f, s => ((s.session sid).bind fun x => x.text f, s)
    | .hset sid f v, s => ((), setText s sid f v)
    | .hgetAccess sid, s => ((s.session sid).bind Session.access, s)
    | .hsetAccess sid l, s => ((), setAccess s sid l)
    | .lapse sid, s => ((), { s with session := update s.session sid none })
    | .getAgentId account, s => (s.agents.account account, s)
    | .hmgetLogin agentId, s =>
      ((s.down.agent agentId "passwd", s.down.agent agentId "valid", (s.agents.rate.agent agentId).type), s)
    | .hmgetLast agentId, s =>
      ((s.down.agent agentId "lastLoginIp", s.down.agent agentId "lastLoginDate", (s.agents.rate.agent agentId).type), s)
    | .hgetAgent agentId field, s => (s.down.agent agentId field, s)
    | .enter _ _ agentId, s => (s.down.agent agentId "recharge", s)
    | .sadd r agentId url, s => ((), { s with rights := SetTable.add s.rights (r.key agentId) url })
    | .srem r agentId l, s => ((), { s with rights := l.foldl (fun t url => SetTable.remove t (r.key agentId) url) s.rights })
    | .smembers r agentId, s => ((s.rights (r.key agentId)).members, s)
    | .execute pipe own, s => ((), own.foldl Write.apply { s with agents := pipe.foldl Agents.Write.apply s.agents })

/-- The commands on each part of the store. -/
inductive Cmd (β : Type) : Type
  | own (c : Own β)
  | agents (c : Agents.Cmd β)
  | down (c : Downline.Cmd β)

instance : Exec Cmd St where
  exec
    | .own c, s => Exec.exec c s
    | .agents c, s => ((Exec.exec c s.agents).1, { s with agents := (Exec.exec c s.agents).2 })
    | .down c, s => ((Exec.exec c s.down).1, { s with down := (Exec.exec c s.down).2 })

abbrev Handler := Prog Err Cmd

def send {β : Type} (c : Own β) : Handler β := .cmd (.own c) .ret

def agents {α : Type} (p : Agents.Handler α) : Handler α := p.lift fun _ => .agents

def down {α : Type} (p : Downline.Handler α) : Handler α := p.lift fun _ => .down

/-! ## Sessions -/

/-- The cookie of a request. `uuid.UUID` does not read every text. -/
inductive Cookie where
  | absent
  | malformed
  | uuid (sid : String)
  deriving Repr, DecidableEq

/-- `Session.__init__`: the session that the cookie names, or a new one. -/
def getSession (cookie : Cookie) (fresh : String) : Handler String :=
  match cookie with
  | .absent => return fresh
  | .malformed => .raise .ValueError
  | .uuid sid => do
    if ← send (.existsSession sid) then return sid
    return fresh

inductive Reply where
  | page (message : String)
  | redirect (url : String)
  | abort (code : Nat)
  | json (code : Int) (msg jumpUrl : String)
  deriving Repr, DecidableEq

def Reply.fail (msg : String) : Reply := .json 1 msg ""

/-- `str.upper` of bytes. -/
def upper (s : String) : String := String.ofList (s.toList.map Char.toUpper)

/-- `if not value` -/
def blank (value : Option String) : Bool := value.getD "" = ""

/-- `checkAccess`: a session with an account, whose rights have the path. -/
def checkAccess (path : String) (cookie : Cookie) (fresh : String) (body : String → Handler Reply) : Handler Reply := do
  let sid ← getSession cookie fresh
  if blank (← send (.hget sid .account)) then return .redirect (BACK_PRE ++ "/login")
  let access ← send (.hgetAccess sid)
  if path ∉ access.getD [] then return .abort 403
  let agentId ← send (.hget sid .id)
  let _recharge ← send (.enter sid path (fmt agentId))
  body sid

/-! ## Rights -/

variable (T : AccessModule)

/-- A table that lacks the role. -/
def roleOf {α : Type} (table : Option α) : Handler α := orRaise .KeyError table

/-- `setAgentAccess` -/
def setAgentAccess (agentType agentId : String) : Handler Unit := do
  let access ← roleOf (T.access agentType)
  forEach access fun o => send (.sadd .access agentId o.url)

/-- `banAgentAccess`: what the form about a new agent leaves unticked. -/
def banAgentAccess (ticked : String → Bool) (agentType agentId : String) : Handler Unit := do
  let accesslists ← roleOf (T.getAgentNewListAccessUrl agentType)
  forEach accesslists fun url => if ticked url then return () else send (.sadd .ban agentId url)

/-- `banAgentAccessModify` -/
def banAgentAccessModify (ticked : String → Bool) (agentType agentId : String) : Handler Unit := do
  let accesslists ← roleOf (T.getAgentNewListAccessUrl agentType)
  forEach accesslists fun url => if ticked url then send (.srem .ban agentId [url]) else send (.sadd .ban agentId url)

/-- `getNewAccess`: the role's rights and no others, less the banned ones. -/
def getNewAccess (agentId : String) : Handler Unit := do
  let aType ← agents (Agents.send (.hgetType agentId))
  let access ← roleOf (aType.bind T.access)
  forEach access fun o => send (.sadd .access agentId o.url)
  let s2 ← send (.smembers .access agentId)
  let deleteUrls := s2.filter fun url => url ∉ urls access
  if deleteUrls ≠ [] then send (.srem .access agentId deleteUrls)
  let accessBan ← send (.smembers .ban agentId)
  if accessBan ≠ [] then send (.srem .access agentId accessBan)

/-! ## Requests -/

/-- `/vcode`: the code of the picture. -/
def changeVerfiyCode (cookie : Cookie) (fresh vcode : String) : Handler Reply := do
  let sid ← getSession cookie fresh
  send (.hset sid .maj_vcode (upper vcode))
  return .page ""

structure LoginForm where
  account : String
  passwd : String
  code : String

/-- The right that a login adds for a company. -/
def OPEN_AUTH : String := "/admin/agent/open_auth"

variable (sha256 : String → String)

/-- What a login writes to the session, the rights last. -/
def fillSession (sid : String) (form : LoginForm) (id remote_addr now : String) : Handler Reply := do
  let (lastLoginIp, lastLoginDate, type) ← send (.hmgetLast id)
  send (.hset sid .lastLoginIp (fmt lastLoginIp))
  send (.hset sid .lastLoginDate (fmt lastLoginDate))
  send (.hset sid .type (fmt type))
  send (.execute [] [.hset ⟨id, "lastLoginIp", remote_addr⟩, .hset ⟨id, "lastLoginDate", now⟩])
  send (.hset sid .account form.account)
  send (.hset sid .id id)
  getNewAccess T id
  let access ← send (.smembers .access id)
  send (.hsetAccess sid access)
  return .redirect "/admin/FISH"

/-- What a login does once the password is right. -/
def logIn (sid : String) (form : LoginForm) (agentId : Option String) (type : Option String) (remote_addr now : String) :
    Handler Reply := do
  let id := fmt agentId
  if type = some "1" then send (.sadd .access id OPEN_AUTH)
  fillSession T sid form id remote_addr now

/-- The post of `/login`. -/
def doLogin (cookie : Cookie) (fresh : String) (form : LoginForm) (remote_addr now : String) : Handler Reply := do
  let sid ← getSession cookie fresh
  if form.account = "" ∨ form.passwd = "" then return .page "请填写账号和密码"
  match ← send (.hget sid .maj_vcode) with
  | none => return .page "验证码过期,请重新登录"
  | some maj_vcode =>
    if upper form.code ≠ upper maj_vcode then return .page "验证码无效"
    let agentId ← send (.getAgentId form.account)
    if !(← agents (Agents.send (.existsAgent (fmt agentId)))) then return .page "无效的账号或密码"
    let (adminPasswd, valid, type) ← send (.hmgetLogin (fmt agentId))
    if adminPasswd ≠ some (sha256 form.passwd) then return .page "无效的账号或密码"
    if valid ≠ some "1" then return .page "账号已被冻结"
    logIn T sid form agentId type remote_addr now

/-- What the record of a new agent holds besides `Agents.AgentInfo`. -/
def authInfo (agentId passwd : String) : List Write :=
  [.hset ⟨agentId, "passwd", sha256 passwd⟩, .hset ⟨agentId, "valid", "1"⟩]

/-- The checks of `/agent/create` on the form, and the reply where one fails. -/
def createChecks (form : Agents.CreateForm) : Agents.Handler (Option Reply) := do
  if form.account = "" then return some (.fail "代理账号不能为空")
  if form.passwd = "" then return some (.fail "密码不能为空")
  if form.comfirPasswd = "" then return some (.fail "密码不能为空")
  if ← Agents.exceeds form.shareRate form.unitPrice then return some (.fail "给下级分成不能大于钻石单价!")
  if ← Agents.exceeds form.shareRate form.myRate then return some (.fail "给下级分成不能大于自己的分成!")
  if ← Agents.send (.existsAgent form.agentId) then return some (.fail ("代理ID[" ++ form.agentId ++ "]已存在"))
  if ← Agents.send (.existsAccount form.account) then return some (.fail ("代理账号(" ++ form.account ++ ")已经存在."))
  return none

/-- `/agent/create/<agent_id:int>`, which no guard stands before. -/
def doCreateAgent (depth : Nat) (cookie : Cookie) (fresh : String) (idNo : Agents.IdNo) (agent_id : Option Int)
    (form : Agents.CreateForm) (ticked : String → Bool) : Handler Reply := do
  let sid ← getSession cookie fresh
  let _selfUid ← send (.hget sid .id)
  let n := agent_id.getD 0
  if n = 0 then return .fail "非法创建代理!"
  let parentAg := toString n
  let (agent_type, parent_unitPrice) ← agents (Agents.send (.hmgetParent parentAg))
  match ← agents (createChecks form) with
  | some reply => return reply
  | none =>
    let agentId ← agents (Agents.agentIdOf idNo form.agentId)
    let agentType := toString ((← orRaise .ValueError (int (← orRaise .TypeError agent_type))) + 1)
    let prices ← agents (Agents.createPrices depth agentId parentAg agent_type parent_unitPrice form)
    setAgentAccess T agentType agentId
    banAgentAccess T ticked agentType agentId
    send (.execute
      ((if form.agentId = "" then [] else [.saddId agentId]) ++ prices ++
        [.hmsetCreate ⟨agentId, form.account, form.shareRate, parentAg, form.unitPrice, agentType, form.defaultRoomCard⟩,
          .setAccount form.account agentId])
      (authInfo sha256 agentId form.passwd ++ [.saddChild parentAg agentId]))
    return .json 0 ("创建代理[" ++ form.account ++ "]成功") "/admin/agent/list"

/-- `/agent/modify`, behind the guard. -/
def doAgentModify (depth : Nat) (form : Agents.ModifyForm) (ticked : String → Bool) : Handler Reply := do
  if form.agentId = "" then return .fail "非法修改代理!"
  let agent_type ← agents (Agents.send (.hgetType form.agentId))
  if ← agents (Agents.exceeds form.shareRate form.unitPrice) then return .fail "给下级分成不能大于钻石单价!"
  if ← agents (Agents.exceeds form.shareRate form.myRate) then return .fail "给下级分成不能大于父代理的分成!"
  let prices ← agents (Agents.modifyPrices depth agent_type form)
  banAgentAccessModify T ticked (fmt agent_type) form.agentId
  send (.execute
    (prices ++ [.hmsetModify form.agentId ⟨form.shareRate, form.unitPrice, form.name, form.defaultRoomCard⟩]) [])
  return .json 0 ("修改代理[" ++ form.account ++ "]成功") "/admin/agent/list"

/-- `/agent/freeze`, behind the guard. -/
def doAgFreeze (agentId : String) : Handler Reply := do
  if !(← agents (Agents.send (.existsAgent agentId))) then return .abort 403
  if (← send (.hgetAgent agentId "valid")) = some "1" then down (Downline.agentFreeze agentId)
  else send (.execute [] [.hset ⟨agentId, "valid", "1"⟩])
  return .json 0 ("(" ++ agentId ++ ")状态更改成功!") "/admin/agent/list"

structure PasswdForm where
  passwd : String
  comfirmPasswd : String
  comfirmPasswd1 : String

/-- The post of `/self/modifyPasswd`, which no guard stands before. -/
def doModifyPasswd (cookie : Cookie) (fresh : String) (form : PasswdForm) : Handler Reply := do
  let sid ← getSession cookie fresh
  let _selfAccount ← send (.hget sid .account)
  let selfUid ← send (.hget sid .id)
  if form.passwd = "" then return .fail "请输入你的登录密码"
  if form.comfirmPasswd = "" then return .fail "请输入新的登录密码"
  if form.comfirmPasswd1 = "" then return .fail "请再次输入新的登录密码"
  let passwd ← send (.hgetAgent (fmt selfUid) "passwd")
  if passwd ≠ some (sha256 form.passwd) then return .fail "你的登录密码不正确"
  send (.execute [] [.hset ⟨fmt selfUid, "passwd", sha256 form.comfirmPasswd⟩])
  return .json 0 "密码修改成功,请牢记." (BACK_PRE ++ "/self/modifyPasswd")

/-! ## Runs -/

/-- What comes to the back office. `page` is any other guarded request; what it does to orders and goods is left out. -/
inductive Request where
  | vcode (cookie : Cookie) (fresh code : String)
  | login (cookie : Cookie) (fresh : String) (form : LoginForm) (remote_addr now : String)
  | create (cookie : Cookie) (fresh : String) (idNo : Agents.IdNo) (agent_id : Option Int) (form : Agents.CreateForm)
    (ticked : String → Bool)
  | modify (cookie : Cookie) (fresh : String) (form : Agents.ModifyForm) (ticked : String → Bool)
  | freeze (cookie : Cookie) (fresh agentId : String)
  | modifyPasswd (cookie : Cookie) (fresh : String) (form : PasswdForm)
  | page (path : String) (cookie : Cookie) (fresh : String)
  | lapse (sid : String)

def Request.handler (depth : Nat) : Request → Handler Reply
  | .vcode cookie fresh code => changeVerfiyCode cookie fresh code
  | .login cookie fresh form remote_addr now => doLogin T sha256 cookie fresh form remote_addr now
  | .create cookie fresh idNo agent_id form ticked => doCreateAgent T sha256 depth cookie fresh idNo agent_id form ticked
  | .modify cookie fresh form ticked =>
    checkAccess (BACK_PRE ++ "/agent/modify") cookie fresh fun _ => doAgentModify T depth form ticked
  | .freeze cookie fresh agentId => checkAccess (BACK_PRE ++ "/agent/freeze") cookie fresh fun _ => doAgFreeze agentId
  | .modifyPasswd cookie fresh form => doModifyPasswd sha256 cookie fresh form
  | .page path cookie fresh => checkAccess path cookie fresh fun _ => return .page ""
  | .lapse sid => do
    send (.lapse sid)
    return .page ""

/-- The state after the request. -/
def step (depth : Nat) (r : Request) (s : St) : St := (run (r.handler T sha256 depth) s).2

/-- What `db_init.py` leaves: the system administrator, and his password. -/
def init : St where
  agents := Agents.init
  down :=
    { agent := update (fun _ _ => none) "1" (update (update (fun _ => none) "passwd" (some (sha256 "sysadmin"))) "valid" (some "1"))
      child := fun _ => ∅
      member := fun _ => ∅ }
  rights := fun key =>
    if key = Rights.access.key "1" then ⟨(urls T.accessSadminModules).dedup, List.nodup_dedup _⟩ else ∅
  session := fun _ => none

end FishWeb.Admin
