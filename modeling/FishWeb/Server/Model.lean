import FishWeb.Apple.Model
import FishWeb.Benefit.Model
import FishWeb.Box.Model
import FishWeb.Mail.Model
import FishWeb.Question.Model
import FishWeb.Sign.Model
/-!
# The server

`do_login` of `fish/fish.py` beside the endpoints that pay a user or take from
him. Each endpoint runs on its own part of the store, as its module has it; the
sessions and the amounts are the same for all, so a part is looked at with those of
the server in it, and what an endpoint adds to an amount is added to the server's.

Requests are handled one after another. What `onRegFish` says of an account is an
input, and so is the digest of the user's id and the time, which becomes the sid.
Left out: what a login does for groups and games, and after its session is
recorded.
-/
open Python Prog Counters Calendar FishWeb.Common

namespace FishWeb.Server

/-! ## The store -/

/-- What a user has, and two sums of the shop. -/
inductive Amount where
  /-- `hget (userTable, field)` -/
  | user (userTable field : String)
  /-- `player:item:uid:%s:hesh` -/
  | item (uid item_id : String)
  /-- `box:user:%s:hesh` -/
  | box (uid item_id : String)
  /-- `player:uid:%s:hesh` -/
  | playerUid (uid item_id : String)
  | sum (key : String)
  deriving Repr, DecidableEq

/-- `'users:%s' % uid` -/
def userTable (uid : String) : String := "users:" ++ uid

/-- The amount is the user's. -/
def Amount.of (uid : String) : Amount → Prop
  | .user table _ => table = userTable uid
  | .item u _ | .box u _ | .playerUid u _ => u = uid
  | .sum _ => False

inductive SurverCount where
  /-- `ACTIVICE_SURVER_RESULT % (SURVER_NUMBER, tid)` -/
  | result (tid aid : String)
  /-- `ACTIVICE_SEND_SURVER_GOLD_COUNT % SURVER_NUMBER` -/
  | gold (date : Date)
  deriving DecidableEq

structure St where
  shared : Shared
  amounts : Table Amount
  /-- `WEIXIN2ACCOUNT % unionid` -/
  weixin : String → Option String
  /-- `hget (userTable, 'account')` -/
  account : String → Option String
  /-- `hget (userTable, 'valid')` -/
  valid : String → Option String
  /-- `ACCOUNT4WEIXIN_SET4FISH` -/
  registered : MemberSet String
  /-- `ACTIVICE_SURVER_ANSWER % SURVER_NUMBER` -/
  surverAnswer : MemberSet String
  surver : Table SurverCount
  box : Box.St
  mail : Mail.St
  benefit : Benefit.St
  sign : Sign.St
  question : Question.St
  apple : Apple.St

instance : HasShared St := ⟨fun s => s.shared⟩

/-! ## Parts -/

def Amount.ofPlace : Box.Place → Amount
  | .diamond uid => .user (userTable uid) "diamond"
  | .coin uid => .user (userTable uid) "coin"
  | .vipCharge uid => .user (userTable uid) "vip_charge"
  | .item uid item_id => .item uid item_id
  | .box uid item_id => .box uid item_id
  | .playerUid uid item_id => .playerUid uid item_id
  | .diamondChargeSum => .sum "fish:diamond:charge:sum"
  | .diamond2coinSum => .sum "fish:diamond2coin:sum"

def Amount.ofMail (c : Mail.Currency) (uid : String) : Amount :=
  .user (userTable uid) (match c with | .coin => "coin" | .warhead => "warhead")

def Amount.ofPurse : Question.Purse → Option Amount
  | .coin table => some (.user table "coin")
  | .exchange_ticket table => some (.user table "exchange_ticket")
  | .redpick _ | .sendRedpack _ | .sendGold _ | .sendTick _ => none

/-! ### What a part sees -/

section View
variable (s : St)

def St.uid (sid : String) : Option String := (s.shared.session sid).map Prod.snd

def St.boxView : Box.St := { s.box with session := s.uid, amounts := fun p => s.amounts (.ofPlace p) }

def St.mailView : Mail.St := { s.mail with session := s.uid, amounts := fun c => s.amounts (.ofMail c.1 c.2) }

def St.benefitView : Benefit.St :=
  { s.benefit with
    setup := { s.benefit.setup with shared := s.shared }
    coin := fun table => s.amounts (.user table "coin")
    exchange_ticket := fun table => s.amounts (.user table "exchange_ticket") }

def St.signView : Sign.St :=
  { s.sign with
    setup := { s.sign.setup with shared := s.shared }
    warhead := fun table => s.amounts (.user table "warhead") }

def St.questionView : Question.St :=
  { s.question with
    setup := { s.question.setup with shared := s.shared }
    amounts := fun p => match Amount.ofPurse p with
      | some a => s.amounts a
      | none => s.question.amounts p }

/-- No command fails. -/
def St.appleView : Line Apple.St :=
  ⟨{ s.apple with
    setup := { s.apple.setup with
      session := fun sid => (s.shared.session sid).map fun r => (some r.1, some r.2)
      platform := s.shared.platform
      userTable := s.shared.userTable
      isUser := s.shared.isUser }
    purse := fun p => match p with
      | .coin table => s.amounts (.user table "coin")
      | .card _ _ => s.apple.purse p }, []⟩

end View

/-! ### What a part adds -/

instance : Note Box.Cmd (Amount × Int) where
  note c b := (Note.note c b : List (Box.Place × Int)).map fun p => (.ofPlace p.1, p.2)

instance : Note Mail.Cmd (Amount × Int) where
  note
    | .hincrby c uid n, _ => [(.ofMail c uid, n)]
    | _, _ => []

instance : Note Benefit.Own (Amount × Int) where
  note
    | .takeBenefit _ _ user_table benefit_coin, _ => [(.user user_table "coin", benefit_coin)]
    | .hincrbyCoin _ table money, _ => [(.user table "coin", money)]
    | .takeShare _ _ user_table share_coin, _ => (redisInt share_coin).toList.map (.user user_table "coin", ·)
    | _, _ => []

instance : Note Sign.Own (Amount × Int) where
  note
    | .takeSign user_table warheads _ _ _ _ _ _ _, _ => [(.user user_table "warhead", warheads)]
    | _, _ => []

instance : Note Question.Own (Amount × Int) where
  note
    | .execute l _ _, _ => l.filterMap fun p => (Amount.ofPurse p.1).map (·, p.2)
    | _, _ => []

instance : Note Apple.Cmd (Amount × Int) where
  note
    | .incrby (.coin table) n, a => (a.executed.map fun _ => (.user table "coin", n)).toList
    | _, _ => []

/-- A handler run on a part of the store, which is put back, with its increments added to the amounts. -/
def serve {C : Type → Type} {S α : Type} [Exec C S] [Note C (Amount × Int)] (handler : Prog Err C α) (view : S)
    (put : S → St → St) (s : St) : St :=
  { put (run handler view).2 s with
    amounts := incrAll (trace (Amount × Int) handler view) s.amounts
    shared := s.shared }

/-! ## Commands -/

inductive Own : Type → Type
  | getWeixin (unionid : String) : Own (Option String)
  | hgetBoxPwd (id : String) : Own (Option String)
  | hsetBoxLock (id value : String) : Own Unit
  | isRegistered (account : String) : Own Bool
  | register (account : String) : Own Unit
  | hsetCoin (userTable : String) (n : Int) : Own Unit
  /-- `hmget (userTable, ('account', 'valid'))` -/
  | hmgetUser (userTable : String) : Own (Option String × Option String)
  | setPlatform (id sid : String) : Own Unit
  | hmsetSession (sid account id : String) : Own Unit
  | isAnswered (account : String) : Own Bool
  /-- The pipeline of `/surver/answer`. -/
  | executeSurver (l : List (String × String)) (userTable : String) (goldTotal : Int) (date : Date) (account : String) : Own Unit

open Function (update)

/-- The sessions after `sid` was set as the newest sid of the user. -/
def newest (s : Shared) (id sid : String) : Shared := { s with platform := update s.platform id (some sid) }

/-- The sessions after a record was written. -/
def recorded (s : Shared) (sid account id : String) : Shared :=
  { s with session := update s.session sid (some (account, id)) }

instance : Exec Own St where
  exec
    | .getWeixin unionid, s => (s.weixin unionid, s)
    | .hgetBoxPwd id, s => (s.box.user id "box_pwd", s)
    | .hsetBoxLock id value, s => ((), { s with box := Box.setField s.box id "box_lock" value })
    | .isRegistered account, s => (decide (account ∈ s.registered), s)
    | .register account, s => ((), { s with registered := s.registered.sadd account })
    | .hsetCoin table n, s => ((), { s with amounts := update s.amounts (.user table "coin") (some n) })
    | .hmgetUser table, s => ((s.account table, s.valid table), s)
    | .setPlatform id sid, s => ((), { s with shared := newest s.shared id sid })
    | .hmsetSession sid account id, s => ((), { s with shared := recorded s.shared sid account id })
    | .isAnswered account, s => (decide (account ∈ s.surverAnswer), s)
    | .executeSurver l table goldTotal date account, s =>
      ((), { s with
        surver := incrby (incrAll (l.map fun p => (.result p.1 p.2, 1)) s.surver) (.gold date) goldTotal
        amounts := incrby s.amounts (.user table "coin") goldTotal
        surverAnswer := s.surverAnswer.sadd account })

/-- A login has come up with a session. -/
structure Started where
  sid : String
  uid : String
  deriving Repr, DecidableEq

instance : Note Own Started where
  note
    | .hmsetSession sid _ id, _ => [⟨sid, id⟩]
    | _, _ => []

abbrev Cmd := With Own

abbrev Handler := Prog Err Cmd

/-! ## Logging in -/

/-- `consts.GIVE_COIN_FIRST_LOGIN` -/
def GIVE_COIN_FIRST_LOGIN : Int := 1500

/-- What `hexdigest` returns. -/
abbrev Digest := { text : String // text ≠ "" }

/-- A login: its type, the account or the union id that `onRegFish` found, and the digest of the user's id and the time. -/
structure Form where
  login_type : Int
  reAccount : Option String
  digest : Digest

structure Reply where
  code : Int
  msg : String
  sid : Option String := none
  deriving Repr, DecidableEq

/-- `do_login` up to the session: the account and the id of the user. -/
def findUser (f : Form) : Handler (Except Reply (String × String)) := do
  let reAccount := f.reAccount.getD ""
  if reAccount = "" then return .error { code := 101, msg := "账号或密码错误或者微信授权失败" }
  let realAccount ← if f.login_type ≠ 0 then send (.getWeixin reAccount) else .ret (some reAccount)
  let userTable ← orRaise .AttributeError (← ask (.getUserTable (fmt realAccount)))
  let id ← orRaise .IndexError (split ':' userTable)[1]?
  let box_pwd ← send (.hgetBoxPwd id)
  if box_pwd.getD "" ≠ "" then send (.hsetBoxLock id "1")
  if !(← send (.isRegistered (fmt realAccount))) then
    send (.register (fmt realAccount))
    send (.hsetCoin userTable GIVE_COIN_FIRST_LOGIN)
  let (account, valid) ← send (.hmgetUser userTable)
  let valid ← orRaise .TypeError valid
  let valid ← orRaise .ValueError (int valid)
  if valid = 0 then return .error { code := 105, msg := "该帐号被冻结,请与客服联系" }
  return .ok (fmt account, id)

/-- The session of a login. The source compares the built-in `type` with 3, so a web login, too, becomes the newest. -/
def openSession (sid account id : String) : Handler Reply := do
  if ← ask (.existsSession sid) then return { code := -1, msg := "链接超时" }
  send (.setPlatform id sid)
  send (.hmsetSession sid account id)
  return { code := 0, msg := "", sid := some sid }

/-- `/login`. -/
def doLogin (f : Form) : Handler Reply := do
  match ← findUser f with
  | .error reply => return reply
  | .ok (account, id) =>
    let sid := if f.login_type = 3 then "0" else f.digest.val
    openSession sid account id

/-! ## The survey -/

def SURVER_SEND_GOLD : Int := 500000

/-- `/surver/answer`. The data is no JSON, or the loops over it raise, or it has some pairs of a question and an answer. -/
def surverAnswer (now : Date) (sid : String) (data : Option (Except Err (List (String × String)))) : Handler Reply := do
  match data with
  | none => return { code := 1, msg := "参数错误" }
  | some data =>
    let info ← getInfoBySid sid
    if !(← ask (.existsSession sid)) then return { code := -3, msg := "sid超时" }
    let account := fmt info.account
    if ← send (.isAnswered account) then return { code := 1, msg := "你已经回答过问卷了" }
    let userTable := fmt (← ask (.getUserTable account))
    let l ← ofExcept data
    send (.executeSurver l userTable SURVER_SEND_GOLD now account)
    return { code := 0, msg := "感谢您完成问卷，谢谢您的大力支持！\n获得" ++ toString SURVER_SEND_GOLD ++ "金币" }

/-! ## Requests -/

/-- The requests, and the end of a session's life. -/
inductive Req where
  | login (f : Form)
  | expire (sid : String)
  | boxSave (sid item_id num : String)
  | boxTake (sid item_id num : String)
  | currencyExchange (cid sid : String)
  | buyCoin (sid price goodId : String)
  | getAttach (sid eid : String)
  | sendMail (now : Mail.Clock) (sid recv_uid coin warhead : String)
  | surverAnswer (now : Date) (sid : String) (data : Option (Except Err (List (String × String))))
  | benefit (r : Benefit.Req)
  | sign (r : Sign.Req)
  | question (r : Question.Req)
  /-- A purchase of a server that binds these names. -/
  | apple (names : Apple.Names) (r : Apple.Req)

def step : Req → St → St
  | .login f, s => (run (doLogin f) s).2
  | .expire sid, s => { s with shared := { s.shared with session := update s.shared.session sid none } }
  | .boxSave sid item_id num, s => serve (Box.boxSave sid item_id num) s.boxView (fun box s => { s with box }) s
  | .boxTake sid item_id num, s => serve (Box.boxTake sid item_id num) s.boxView (fun box s => { s with box }) s
  | .currencyExchange cid sid, s => serve (Box.currencyExchange cid sid) s.boxView (fun box s => { s with box }) s
  | .buyCoin sid price goodId, s => serve (Box.buyCoin sid price goodId) s.boxView (fun box s => { s with box }) s
  | .getAttach sid eid, s => serve (Mail.getAttach sid eid) s.mailView (fun mail s => { s with mail }) s
  | .sendMail now sid recv_uid coin warhead, s =>
    serve (Mail.sendMail now sid recv_uid coin warhead) s.mailView (fun mail s => { s with mail }) s
  | .surverAnswer now sid data, s => (run (Server.surverAnswer now sid data) s).2
  | .benefit r, s => serve r.handler s.benefitView (fun benefit s => { s with benefit }) s
  | .sign r, s => serve r.handler s.signView (fun sign s => { s with sign }) s
  | .question r, s => serve r.handler s.questionView (fun question s => { s with question }) s
  | .apple names r, s => serve (r.handler names) s.appleView (fun apple s => { s with apple := apple.store }) s

/-- The sid that a request carries. -/
def Req.sid : Req → Option String
  | .login _ | .expire _ => none
  | .boxSave sid _ _ | .boxTake sid _ _ | .currencyExchange _ sid | .buyCoin sid _ _ | .getAttach sid _
  | .sendMail _ sid _ _ _ | .surverAnswer _ sid _ => some sid
  | .benefit (.takeBenefit _ sid _) | .benefit (.getBenefitInfo _ sid _) | .benefit (.signMonth _ sid _)
  | .benefit (.share _ sid) | .benefit (.exchageCode sid _) => some sid
  | .sign (.doSign _ sid _) | .sign (.getSignInfo _ sid) => some sid
  | .question (.question _ _ sid) | .question (.opening _ sid) | .question (.answer _ _ sid _) => some sid
  | .apple _ r => some r.sid

/-- The sessions that a request starts. -/
def Req.started : Req → St → List Started
  | .login f, s => trace Started (doLogin f) s
  | _, _ => []

end FishWeb.Server
