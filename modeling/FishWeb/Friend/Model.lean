import FishWeb.Lib.Prog
import FishWeb.Lib.Python
import FishWeb.Lib.Sets
/-!
# Friends

The endpoints of `fish/fish_friend.py` that make and end friendships: a request
goes on the other user's list, accepting it puts each user in the other's set.

A session that has ended reads as `None`, which formats into a key as `None`.
The clock of a request is an input. Left out: the comments, the room invitations
and the lists the pages show, which change no friend set.
-/
open Python

namespace FishWeb.Friend

/-- `friend:invite:%s`. -/
structure Invite where
  uid : String
  msg : String
  send_time : String
  nickname : String
  deriving Repr, DecidableEq

structure St where
  /-- `hget ('hall:session:%s' % sid) 'uid'` -/
  session : String → Option String
  /-- the fields of `users:%s` -/
  user : String → String → Option String
  /-- `user:%s:friend:set` -/
  friends : String → MemberSet String
  /-- `user:%s:friend:req:list` -/
  reqs : String → List String
  /-- `friend:invite:%s` -/
  invite : String → Option Invite

/-! ## Commands -/

inductive Cmd : Type → Type
  | sessionUid (sid : String) : Cmd (Option String)
  | hget (uid field : String) : Cmd (Option String)
  | smembers (uid : String) : Cmd (List String)
  | scard (uid : String) : Cmd Nat
  | sadd (uid member : String) : Cmd Unit
  | srem (uid member : String) : Cmd Unit
  | lrange (uid : String) : Cmd (List String)
  | llen (uid : String) : Cmd Nat
  | lpush (uid invite_id : String) : Cmd Unit
  | lrem (uid invite_id : String) : Cmd Unit
  | hmsetInvite (invite_id : String) (fields : Invite) : Cmd Unit
  | deleteInvite (invite_id : String) : Cmd Unit

open Function (update)

instance : Exec Cmd St where
  exec
    | .sessionUid sid, s => (s.session sid, s)
    | .hget uid f, s => (s.user uid f, s)
    | .smembers uid, s => ((s.friends uid).members, s)
    | .scard uid, s => ((s.friends uid).scard, s)
    | .sadd uid m, s => ((), { s with friends := SetTable.add s.friends uid m })
    | .srem uid m, s => ((), { s with friends := SetTable.remove s.friends uid m })
    | .lrange uid, s => (s.reqs uid, s)
    | .llen uid, s => ((s.reqs uid).length, s)
    | .lpush uid i, s => ((), { s with reqs := update s.reqs uid (i :: s.reqs uid) })
    | .lrem uid i, s => ((), { s with reqs := update s.reqs uid ((s.reqs uid).filter (· ≠ i)) })
    | .hmsetInvite i v, s => ((), { s with invite := update s.invite i (some v) })
    | .deleteInvite i, s => ((), { s with invite := update s.invite i none })

section Exec
open Exec
variable (s : St)

@[simp] theorem exec_sessionUid (sid : String) : exec (Cmd.sessionUid sid) s = (s.session sid, s) := rfl

@[simp] theorem exec_hget (uid f : String) : exec (Cmd.hget uid f) s = (s.user uid f, s) := rfl

@[simp] theorem exec_smembers (uid : String) : exec (Cmd.smembers uid) s = ((s.friends uid).members, s) := rfl

@[simp] theorem exec_scard (uid : String) : exec (Cmd.scard uid) s = ((s.friends uid).scard, s) := rfl

@[simp] theorem exec_sadd (uid m : String) :
    exec (Cmd.sadd uid m) s = ((), { s with friends := SetTable.add s.friends uid m }) := rfl

@[simp] theorem exec_srem (uid m : String) :
    exec (Cmd.srem uid m) s = ((), { s with friends := SetTable.remove s.friends uid m }) := rfl

@[simp] theorem exec_lrange (uid : String) : exec (Cmd.lrange uid) s = (s.reqs uid, s) := rfl

@[simp] theorem exec_llen (uid : String) : exec (Cmd.llen uid) s = ((s.reqs uid).length, s) := rfl

@[simp] theorem exec_lpush (uid i : String) :
    exec (Cmd.lpush uid i) s = ((), { s with reqs := update s.reqs uid (i :: s.reqs uid) }) := rfl

@[simp] theorem exec_hmsetInvite (i : String) (v : Invite) :
    exec (Cmd.hmsetInvite i v) s = ((), { s with invite := update s.invite i (some v) }) := rfl

@[simp] theorem exec_lrem (uid i : String) :
    exec (Cmd.lrem uid i) s = ((), { s with reqs := update s.reqs uid ((s.reqs uid).filter (· ≠ i)) }) := rfl

@[simp] theorem exec_deleteInvite (i : String) :
    exec (Cmd.deleteInvite i) s = ((), { s with invite := update s.invite i none }) := rfl

end Exec

abbrev Handler := Prog Err Cmd

open Prog (call orRaise)

structure Reply where
  code : Int
  msg : String
  deriving Repr, DecidableEq

/-! ## The endpoints -/

/-- `int(time.time())`, and the date and time as text. -/
structure Clock where
  time : Nat
  date : String
  deriving Repr, DecidableEq

/-- `/friend/invite`. -/
def friendInvite (now : Clock) (sid to_uid msg : String) : Handler Reply := do
  let uid ← call (.sessionUid sid)
  let nickname ← call (.hget (fmt uid) "nickname")
  if uid = some to_uid then return ⟨1, "您不能添加自己为好友！"⟩
  -- `None` is in no set, whatever its members are
  let theirs ← call (.smembers to_uid)
  if uid.any (· ∈ theirs) then return ⟨1, "您已是对方好友，不能重复发送好友请求！"⟩
  let ours ← call (.smembers (fmt uid))
  if to_uid ∈ ours then return ⟨1, "对方好友已是您好友，不能重复发送好友请求！"⟩
  if 30 < (← call (.scard (fmt uid))) then return ⟨1, "您的好友已达到上限,无法添加好友！"⟩
  if 30 < (← call (.scard to_uid)) then return ⟨1, "对方好友已达到上限,无法添加好友！"⟩
  let _account ← call (.hget to_uid "account")
  let iids ← call (.lrange to_uid)
  if iids.any fun iid => (split '|' iid).head? = uid then return ⟨1, "您已发送过好友请求，不可重复发送！"⟩
  let uid ← orRaise .TypeError uid
  let invite_id := uid ++ "|" ++ toString now.time
  -- the list is trimmed by a name that is not defined
  if 30 < (← call (.llen to_uid)) then .raise .NameError
  call (.lpush to_uid invite_id)
  call (.hmsetInvite invite_id { uid, msg, send_time := now.date, nickname := fmt nickname })
  return ⟨0, "发送成功！"⟩

/-- `/friend/accept/invite`. -/
def friendAcceptInvite (sid from_uid invite_id : String) : Handler Reply := do
  let uid := fmt (← call (.sessionUid sid))
  if 30 < (← call (.scard uid)) then return ⟨1, "添加失败，您的好友已达到上限！"⟩
  if 30 < (← call (.scard from_uid)) then return ⟨1, "添加失败，对方好友已达到上限！"⟩
  call (.sadd uid from_uid)
  call (.sadd from_uid uid)
  call (.deleteInvite invite_id)
  call (.lrem uid invite_id)
  return ⟨0, "添加成功！"⟩

/-- `/friend/refuse/invite`. -/
def friendRefuseInvite (sid invite_id : String) : Handler Reply := do
  let uid := fmt (← call (.sessionUid sid))
  call (.lrem uid invite_id)
  call (.deleteInvite invite_id)
  return ⟨0, "ok！"⟩

/-- `/friend/del`. -/
def friendDel (sid del_uid : String) : Handler Reply := do
  let uid := fmt (← call (.sessionUid sid))
  call (.srem del_uid uid)
  call (.srem uid del_uid)
  return ⟨0, "删除成功！"⟩

end FishWeb.Friend
