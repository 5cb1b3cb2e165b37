import Mathlib.Data.List.Sort
import FishWeb.Lib.Prog
import FishWeb.Lib.Python
import FishWeb.Lib.Counters
import FishWeb.Lib.Sets
/-!
# Mails

The mail endpoints of `fish/fish_friend.py`. A mail is a record under its id and
the id is a member of one set of its reader; an attachment is a list of amounts
that its reader is paid when he takes it.

A record is a hash whose fields may be missing: reading a mail writes one field,
whether or not there is a record. A session that has ended reads as `None`, which
formats into a key as `None`. The clock of a request is an input, read once. Left out: the
page that chooses an attachment, which only shows a balance.
-/
open Python Counters

namespace FishWeb.Mail

/-- The two amounts that are mailed: the fields `coin` and `warhead` of `users:%s`. -/
inductive Currency where
  | coin
  | warhead
  deriving Repr, DecidableEq

/-- `{'id': .., 'num': ..}`. -/
structure Attach where
  id : Int
  num : Int
  deriving Repr, DecidableEq

/-- `fish:mail:%s`. -/
structure Record where
  eid : Option String
  sender : Option String
  from_uid : Option String
  attach : Option (List Attach)
  timestamp : Option Int
  send_time : Option String
  type : Option String
  isRead : Option String
  deriving Repr, DecidableEq

/-- The key without fields. -/
def Record.blank : Record := ⟨none, none, none, none, none, none, none, none⟩

/-- The families of sets, by user. -/
inductive SetName where
  /-- `user:%s:system:mails` -/
  | systemMails
  /-- `user:%s:player:mails` -/
  | playerMails
  /-- `user:%s:player:mail` -/
  | playerMail
  deriving Repr, DecidableEq

structure St where
  /-- `hget ('hall:session:%s' % sid) 'uid'` -/
  session : String → Option String
  /-- `hget ('users:%s' % uid) 'nickname'` -/
  nickname : String → Option String
  amounts : Table (Currency × String)
  mails : SetName × String → MemberSet String
  mail : String → Option Record

/-! ## Commands -/

inductive Cmd : Type → Type
  | sessionUid (sid : String) : Cmd (Option String)
  | hgetNickname (uid : String) : Cmd (Option String)
  | hgetAmount (c : Currency) (uid : String) : Cmd (Option Int)
  | hincrby (c : Currency) (uid : String) (n : Int) : Cmd Unit
  | smembers (n : SetName) (uid : String) : Cmd (List String)
  | scard (n : SetName) (uid : String) : Cmd Nat
  | sadd (n : SetName) (uid eid : String) : Cmd Unit
  | srem (n : SetName) (uid eid : String) : Cmd Unit
  | hgetAttach (eid : String) : Cmd (Option (List Attach))
  | hgetType (eid : String) : Cmd (Option String)
  | hgetIsRead (eid : String) : Cmd (Option String)
  | hgetall (eid : String) : Cmd Record
  | hmset (eid : String) (m : Record) : Cmd Unit
  | hsetIsRead (eid value : String) : Cmd Unit
  | delete (eid : String) : Cmd Unit

open Function (update)

/-- A field of a mail; a record that does not exist has none. -/
def field {α : Type} (s : St) (eid : String) (f : Record → Option α) : Option α := (s.mail eid).bind f

/-- `sadd` on a set of mails. -/
def addMail (s : St) (n : SetName) (uid eid : String) : St := { s with mails := SetTable.add s.mails (n, uid) eid }

/-- `srem` on a set of mails. -/
def remMail (s : St) (n : SetName) (uid eid : String) : St := { s with mails := SetTable.remove s.mails (n, uid) eid }

def putMail (s : St) (eid : String) (m : Option Record) : St := { s with mail := update s.mail eid m }

instance : Exec Cmd St where
  exec
    | .sessionUid sid, s => (s.session sid, s)
    | .hgetNickname uid, s => (s.nickname uid, s)
    | .hgetAmount c uid, s => (s.amounts (c, uid), s)
    | .hincrby c uid n, s => ((), { s with amounts := incrby s.amounts (c, uid) n })
    | .smembers n uid, s => ((s.mails (n, uid)).members, s)
    | .scard n uid, s => ((s.mails (n, uid)).scard, s)
    | .sadd n uid eid, s => ((), addMail s n uid eid)
    | .srem n uid eid, s => ((), remMail s n uid eid)
    | .hgetAttach eid, s => (field s eid Record.attach, s)
    | .hgetType eid, s => (field s eid Record.type, s)
    | .hgetIsRead eid, s => (field s eid Record.isRead, s)
    | .hgetall eid, s => ((s.mail eid).getD .blank, s)
    | .hmset eid m, s => ((), putMail s eid (some m))
    | .hsetIsRead eid v, s => ((), putMail s eid (some { (s.mail eid).getD .blank with isRead := some v }))
    | .delete eid, s => ((), putMail s eid none)

section Exec
open Exec
variable (s : St)

@[simp] theorem exec_sessionUid (sid : String) : exec (Cmd.sessionUid sid) s = (s.session sid, s) := rfl

@[simp] theorem exec_hgetNickname (uid : String) : exec (Cmd.hgetNickname uid) s = (s.nickname uid, s) := rfl

@[simp] theorem exec_hgetAmount (c : Currency) (uid : String) :
    exec (Cmd.hgetAmount c uid) s = (s.amounts (c, uid), s) := rfl

@[simp] theorem exec_hincrby (c : Currency) (uid : String) (n : Int) :
    exec (Cmd.hincrby c uid n) s = ((), { s with amounts := incrby s.amounts (c, uid) n }) := rfl

@[simp] theorem exec_smembers (n : SetName) (uid : String) :
    exec (Cmd.smembers n uid) s = ((s.mails (n, uid)).members, s) := rfl

@[simp] theorem exec_scard (n : SetName) (uid : String) :
    exec (Cmd.scard n uid) s = ((s.mails (n, uid)).scard, s) := rfl

@[simp] theorem exec_sadd (n : SetName) (uid eid : String) :
    exec (Cmd.sadd n uid eid) s = ((), addMail s n uid eid) := rfl

@[simp] theorem exec_srem (n : SetName) (uid eid : String) :
    exec (Cmd.srem n uid eid) s = ((), remMail s n uid eid) := rfl

@[simp] theorem exec_hgetAttach (eid : String) : exec (Cmd.hgetAttach eid) s = (field s eid Record.attach, s) := rfl

@[simp] theorem exec_hgetType (eid : String) : exec (Cmd.hgetType eid) s = (field s eid Record.type, s) := rfl

@[simp] theorem exec_hgetIsRead (eid : String) : exec (Cmd.hgetIsRead eid) s = (field s eid Record.isRead, s) := rfl

@[simp] theorem exec_hgetall (eid : String) : exec (Cmd.hgetall eid) s = ((s.mail eid).getD .blank, s) := rfl

@[simp] theorem exec_hmset (eid : String) (m : Record) :
    exec (Cmd.hmset eid m) s = ((), putMail s eid (some m)) := rfl

@[simp] theorem exec_hsetIsRead (eid v : String) : exec (Cmd.hsetIsRead eid v) s =
    ((), putMail s eid (some { (s.mail eid).getD .blank with isRead := some v })) := rfl

@[simp] theorem exec_delete (eid : String) : exec (Cmd.delete eid) s = ((), putMail s eid none) := rfl

end Exec

abbrev Handler := Prog Err Cmd

open Prog (call orRaise forEach collect)

structure Reply where
  code : Int
  msg : String
  deriving Repr, DecidableEq

/-! ## The endpoints -/

/-- `int(time.time())`, and the date and time as text. -/
structure Clock where
  time : Nat
  date : String
  deriving Repr, DecidableEq

/-- The set a mail of this type is in. -/
def mailSet (type : Option String) : SetName := if type = some "0" then .systemMails else .playerMails

/-- The credit for one entry of an attachment. -/
def payAttach (uid : String) (c : Attach) : Handler Unit :=
  if c.id = 1 then call (.hincrby .coin uid c.num)
  else if c.id = 2 then call (.hincrby .warhead uid c.num)
  else return ()

/-- `/get/attach`. Whose mail it is, is not looked at. -/
def getAttach (sid eid : String) : Handler Reply := do
  let uid := fmt (← call (.sessionUid sid))
  match ← call (.hgetAttach eid) with
  | some attach =>
    forEach attach (payAttach uid)
    let type ← call (.hgetType eid)
    call (.srem (mailSet type) uid eid)
    call (.delete eid)
    return ⟨0, "ok"⟩
  | none => return ⟨1, "领取失败！"⟩

/-- The attachment of a new mail. -/
def attachList (coin warhead : Int) : List Attach :=
  (if coin ≠ 0 then [⟨1, coin⟩] else []) ++ (if warhead ≠ 0 then [⟨2, warhead⟩] else [])

/-- `uid + "|" + str(int(time.time()))`. -/
def mailId (uid : String) (now : Clock) : String := uid ++ "|" ++ toString now.time

/-- The record `/send/mail` writes. -/
def newMail (uid : String) (nickname : Option String) (now : Clock) (attach : List Attach) : Record where
  eid := some (mailId uid now)
  sender := some (fmt nickname)
  from_uid := some uid
  attach := some attach
  timestamp := some now.time
  send_time := some now.date
  type := some "1"
  isRead := some "0"

/-- `/send/mail`. The amount of coins in the form is read and then replaced by the sender's balance; the
capacity is that of another set than the one the mail goes into. -/
def sendMail (now : Clock) (sid recv_uid coin warhead : String) : Handler Reply := do
  let uid ← call (.sessionUid sid)
  let _coin ← orRaise .ValueError (int coin)
  let warhead ← orRaise .ValueError (int warhead)
  let coin := (← call (.hgetAmount .coin (fmt uid))).getD 0
  if coin - 1000 < 0 then return ⟨1, "发送失败！需要邮递费用1000金币!"⟩
  if 20 ≤ (← call (.scard .playerMail recv_uid)) then return ⟨1, "发送失败！对方邮件箱已满!"⟩
  call (.hincrby .coin (fmt uid) (-1000))
  let uid ← orRaise .TypeError uid
  let eid := mailId uid now
  call (.sadd .playerMails recv_uid eid)
  let nickname ← call (.hgetNickname uid)
  call (.hmset eid (newMail uid nickname now (attachList coin warhead)))
  return ⟨0, "发送成功!"⟩

/-- `int(eid.split('|')[1])`. -/
def sendStamp (eid : String) : Except Err Int :=
  match (split '|' eid)[1]? with
  | none => .error .IndexError
  | some t => match int t with
    | none => .error .ValueError
    | some n => .ok n

/-- The pass of `/show/mails` over one mail: one sent more than thirty days ago goes. -/
def expireMail (now : Nat) (uid eid : String) : Handler Unit := do
  let send_ts ← Prog.ofExcept (sendStamp eid)
  if 3600 * 24 * 30 < (now : Int) - send_ts then
    let type ← call (.hgetType eid)
    call (.delete eid)
    call (.srem (mailSet type) uid eid)

/-- One mail as it is shown, and whether it is unread. -/
def showMail (eid : String) : Handler (Bool × Record) := do
  let dic ← call (.hgetall eid)
  let _attach ← orRaise .KeyError dic.attach
  let isRead ← call (.hgetIsRead eid)
  return (isRead = some "0", dic)

/-- `sorted(.., key=lambda x: int(x['timestamp']), reverse=True)`. -/
def sortByTime (l : List Record) : Handler (List Record) := do
  let keyed ← collect l fun dic => do
    let timestamp ← orRaise .KeyError dic.timestamp
    return (timestamp, dic)
  return (keyed.insertionSort fun a b => b.1 ≤ a.1).map Prod.snd

/-- `/show/mails`. -/
def showMails (now : Nat) (sid : String) : Handler (List Record) := do
  let uid := fmt (← call (.sessionUid sid))
  let system ← call (.smembers .systemMails uid)
  let player ← call (.smembers .playerMails uid)
  forEach (system ++ player) (expireMail now uid)
  let system ← call (.smembers .systemMails uid)
  let player ← call (.smembers .playerMails uid)
  let dics ← collect (system ++ player) showMail
  let data_not_read ← sortByTime ((dics.filter (·.1)).map Prod.snd)
  let data_is_read ← sortByTime ((dics.filter (!·.1)).map Prod.snd)
  return data_not_read ++ data_is_read

/-- `/read/mail`. It has no session. -/
def readMail (eid : String) : Handler Reply := do
  call (.hsetIsRead eid "1")
  return ⟨0, "ok!"⟩

/-- `/del/mail`. -/
def delMail (sid eid : String) : Handler Reply := do
  let uid := fmt (← call (.sessionUid sid))
  let type ← call (.hgetType eid)
  call (.srem (mailSet type) uid eid)
  call (.delete eid)
  return ⟨0, "删除成功!"⟩

end FishWeb.Mail
