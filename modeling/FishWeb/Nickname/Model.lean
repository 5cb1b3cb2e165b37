import FishWeb.Lib.Prog
import FishWeb.Lib.Python
import FishWeb.Lib.Sets
/-!
# Nicknames

`register_by_account` of `model/hallModel.py` and `/info/complete` of
`fish/fish_bag.py`. A new user is called by his account. When he completes his
information he takes a nickname, which goes into a set and is mapped to him.

A pipeline is a transaction. The numbers of the users come from a counter, and a
session is of a user that is registered. The random password of a request, what the
SMS service says and the clock are inputs. A phone number is of ASCII characters.
-/
open Python Prog

namespace FishWeb.Nickname

/-! ## The store -/

/-- The sets of accounts and of users. -/
inductive SetName where
  /-- `FORMAT_REG_DATE_TABLE4FISH % day` -/
  | regDate (day : String)
  /-- `register:account:set` -/
  | account
  /-- `FORMAT_ADMIN_ACCOUNT_MEMBER_TABLE % agent_id` -/
  | member (agent_id : String)
  deriving DecidableEq

structure St where
  /-- `FORMAT_USER_COUNT_TABLE` -/
  count : Nat
  /-- `hget ('hall:session:%s' % sid, 'uid')` -/
  session : String → Option Nat
  /-- `users:%s`, by field. -/
  user : Nat → String → Option String
  /-- `FORMAT_ACCOUNT2USER_TABLE % account`: the user whose table it is. -/
  account2user : String → Option Nat
  sets : SetName → MemberSet String
  /-- `user:%s:code:info` -/
  code : String → Option String
  /-- `fish:nickname:set` -/
  nicknames : MemberSet String
  /-- `nickname2uid:%s` -/
  nickname2uid : String → Option Nat

/-! ## Commands -/

inductive Cmd : Type → Type
  | incrCount : Cmd Nat
  /-- The pipeline of `register_by_account`. -/
  | executeRegister (uid : Nat) (fields : List (String × String)) (account day agent_id : String) : Cmd Unit
  | hgetSession (sid : String) : Cmd (Option Nat)
  /-- `hmget ('users:%s' % uid, 'nickname', 'openid', 'info_comp')` -/
  | hmgetUser (uid : Nat) : Cmd (Option String × Option String × Option String)
  /-- `nickname in smembers ('fish:nickname:set')` -/
  | isNickname (nickname : String) : Cmd Bool
  | getCode (phone : String) : Cmd (Option String)
  /-- The pipeline of `/info/complete`. -/
  | executeComplete (uid : Nat) (dic : List (String × String)) (past_nn nickname : String) : Cmd Unit

open Function (update)

/-- `hmset` on a hash. -/
def hmset (h : String → Option String) (l : List (String × String)) : String → Option String :=
  l.foldl (fun h p => update h p.1 (some p.2)) h

instance : Exec Cmd St where
  exec
    | .incrCount, s => (s.count + 1, { s with count := s.count + 1 })
    | .executeRegister uid fields account day agent_id, s =>
      ((), { s with
        user := update s.user uid (hmset (s.user uid) fields)
        account2user := update s.account2user account (some uid)
        sets := SetTable.add (SetTable.add (SetTable.add s.sets (.regDate day) account) .account account)
          (.member agent_id) (toString uid) })
    | .hgetSession sid, s => (s.session sid, s)
    | .hmgetUser uid, s => ((s.user uid "nickname", s.user uid "openid", s.user uid "info_comp"), s)
    | .isNickname nickname, s => (decide (nickname ∈ s.nicknames), s)
    | .getCode phone, s => (s.code phone, s)
    | .executeComplete uid dic past_nn nickname, s =>
      ((), { s with
        user := update s.user uid (hmset (s.user uid) dic)
        -- the code is under the phone, and the key of the user is deleted
        code := update s.code (toString uid) none
        nickname2uid := update (update s.nickname2uid nickname (some uid)) past_nn none
        nicknames := (s.nicknames.srem past_nn).sadd nickname })

abbrev Handler := Prog Err Cmd

structure Reply where
  code : Int
  msg : String
  deriving Repr, DecidableEq

/-! ## Registration -/

structure Clock where
  /-- `strftime('%Y-%m-%d')` -/
  day : String
  /-- `strftime('%Y-%m-%d %H:%M:%S')` -/
  time : String

section Register
variable (md5 : String → String)

/-- The table of a new user. -/
def newUser (now : Clock) (ip account passwd agent_id : String) : List (String × String) :=
  [("account", account), ("password", md5 passwd), ("nickname", account), ("name", ""), ("currency", "CNY"),
    ("money", "0.0"), ("wallet", "0.0"), ("vip_level", "0"), ("exp", "0"), ("level", "0"), ("charge", "0.0"),
    ("charge_count", "0"), ("game_count", "0"), ("coin_delta", "0"), ("parentAg", agent_id), ("email", ""),
    ("phone", ""), ("valid", "1"), ("lastJoinIP", ""), ("lastJoinDate", ""), ("lastExitIP", ""), ("lastExitDate", ""),
    ("lastLoginIP", ""), ("lastLoginDate", ""), ("lastLogoutIP", ""), ("lastLogoutDate", ""), ("lastPresentDate", ""),
    ("newcomer_present_date", ""), ("reg_ip", ip), ("reg_date", now.time), ("coin", "0"), ("accessToken", ""),
    ("refreshToken", ""), ("openid", ""), ("sex", "1"), ("roomCard", "5"), ("headImgUrl", ""), ("unionID", ""),
    ("playCount", "0"), ("info_comp", "0")]

/-- `register_by_account`. The nickname is not put into the set. -/
def registerByAccount (now : Clock) (ip account passwd agent_id : String) : Handler Nat := do
  let uid ← call .incrCount
  call (.executeRegister uid (newUser md5 now ip account passwd agent_id) account now.day agent_id)
  return uid

end Register

/-! ## Completing the information -/

/-- The form of `/info/complete`, the new password and whether the SMS with it was sent. -/
structure Form where
  sid : String
  phone : String
  check_code : String
  real_name : String
  id_card_no : String
  nickname : String
  pwd : String
  sent : Bool

/-- `/info/complete`. The old nickname is given up whether or not it was in the set. -/
def infoComplete (md5 : String → String) (f : Form) : Handler Reply := do
  match ← call (.hgetSession f.sid) with
  | none => return ⟨0, "登录超时！"⟩
  | some uid =>
    let (past_nn, openid, _info_comp) ← call (.hmgetUser uid)
    if f.phone.length ≠ 11 then return ⟨1, "手机号必须是11位！"⟩
    if ← call (.isNickname f.nickname) then return ⟨1, "昵称已存在!"⟩
    let real_cc := (← call (.getCode f.phone)).getD ""
    if real_cc = "" then return ⟨1, "验证码无效！"⟩
    if f.check_code ≠ real_cc then return ⟨1, "验证码不正确！"⟩
    if !f.sent then return ⟨1, "信息完善失败!请稍后再试！"⟩
    let dic := [("phone", f.phone), ("nickname", f.nickname), ("info_comp", "1"), ("id_card_no", f.id_card_no),
      ("real_name", f.real_name)]
    let dic := if openid.getD "" = "" then ("password", md5 f.pwd) :: dic else dic
    call (.executeComplete uid dic (fmt past_nn) f.nickname)
    let p := String.ofList (f.phone.toList.take 3) ++ "****" ++ String.ofList (f.phone.toList.drop 7)
    return ⟨0, "信息完善成功！您的新密码已发送至您的手机号" ++ p ++ "。"⟩

/-! ## Requests -/

/-- A request, a login or the end of a session, or what becomes of the code of a phone. -/
inductive Req where
  | register (now : Clock) (ip account passwd agent_id : String)
  | complete (f : Form)
  /-- The session of a user that is registered. -/
  | session (sid : String) (uid : Nat)
  | expire (sid : String)
  | code (phone : String) (code : Option String)

def step (md5 : String → String) : Req → St → St
  | .register now ip account passwd agent_id, s => (run (registerByAccount md5 now ip account passwd agent_id) s).2
  | .complete f, s => (run (infoComplete md5 f) s).2
  | .session sid uid, s => if 1 ≤ uid ∧ uid ≤ s.count then { s with session := update s.session sid (some uid) } else s
  | .expire sid, s => { s with session := update s.session sid none }
  | .code phone code, s => { s with code := update s.code phone code }

end FishWeb.Nickname
