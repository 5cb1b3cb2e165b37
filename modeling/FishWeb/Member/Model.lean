import FishWeb.Order.Model
import FishWeb.Lib.Sets
/-!
# Cards and coins of members

`/member/recharge`, `/member/recharge/coin` and `/member/removeCard` of
`admin/admin_member.py`, and the page that issues the token of a recharge. The recharge
with cards is `Order.doMemberRecharge`, on the store of the orders.

`time` is the text of the clock that a token is made of. Left out: the operation log of
a removal and what the page shows of the member.
-/
open Python Prog Counters

namespace FishWeb.Member

open FishWeb.Order (Purse RechargeForm Clock truthy)

/-! ## The store -/

structure St where
  order : Order.St
  /-- `hget (FORMAT_USER_TABLE % memberId, 'coin')` -/
  coin : Table String
  isUser : String → Bool
  /-- `FORMAT_ADMIN_ACCOUNT_MEMBER_TABLE % id` -/
  members : String → MemberSet String
  /-- `hget (FORMAT_USER_TABLE % memberId, 'account')` -/
  account : String → Option String
  /-- `ACCOUNT4WEIXIN_SET4FISH` -/
  weixin : MemberSet String

/-- Whose cards, or whose coins. -/
inductive Fund where
  | purse (p : Purse)
  | coin (memberId : String)
  deriving Repr, DecidableEq

/-- What is stored of each. -/
def St.balance (s : St) : Table Fund
  | .purse p => s.order.amounts p
  | .coin memberId => s.coin memberId

/-! ## Commands -/

open Function (update)

inductive Own : Type → Type
  | existsUser (memberId : String) : Own Bool
  /-- `memberId in smembers (FORMAT_ADMIN_ACCOUNT_MEMBER_TABLE % id)` -/
  | isMember (id memberId : String) : Own Bool
  | hgetAccount (memberId : String) : Own (Option String)
  | sismemberWeixin (account : String) : Own Bool
  | existsCard (id memberId : String) : Own Bool
  | setCard (id memberId : String) : Own Unit
  | incrbyCard (id memberId : String) (n : Int) : Own Unit
  | hincrbyCoin (memberId : String) (n : Int) : Own Unit

/-- The commands of the member pages and those of the orders. -/
inductive Cmd (β : Type) : Type
  | own (c : Own β)
  | order (c : Order.Cmd β)

def St.withAmounts (s : St) (amounts : Table Purse) : St := { s with order := { s.order with amounts := amounts } }

instance : Exec Own St where
  exec
    | .existsUser memberId, s => (s.isUser memberId, s)
    | .isMember id memberId, s => (decide (memberId ∈ s.members id), s)
    | .hgetAccount memberId, s => (s.account memberId, s)
    | .sismemberWeixin account, s => (decide (account ∈ s.weixin), s)
    | .existsCard id memberId, s => ((s.order.amounts (.member id memberId)).isSome, s)
    | .setCard id memberId, s => ((), s.withAmounts (update s.order.amounts (.member id memberId) (some 0)))
    | .incrbyCard id memberId n, s => ((), s.withAmounts (incrby s.order.amounts (.member id memberId) n))
    | .hincrbyCoin memberId n, s => ((), { s with coin := incrby s.coin memberId n })

instance : Exec Cmd St where
  exec
    | .own c, s => Exec.exec c s
    | .order c, s => ((Exec.exec c s.order).1, { s with order := (Exec.exec c s.order).2 })

/-- What a command adds to whose cards or coins. -/
instance : Note Own (Fund × Int) where
  note
    | .incrbyCard id memberId n, _ => [(.purse (.member id memberId), n)]
    | .hincrbyCoin memberId n, _ => [(.coin memberId, n)]
    | _, _ => []

def Fund.ofPurse (p : Purse × Int) : Fund × Int := (.purse p.1, p.2)

instance : Note Cmd (Fund × Int) where
  note
    | .own c, b => Note.note c b
    | .order c, b => (Note.note c b).map Fund.ofPurse

abbrev Handler := Prog Err Cmd

def send {β : Type} (c : Own β) : Handler β := .cmd (.own c) .ret

/-- A handler of `Order.Model`. -/
def order {α : Type} (p : Order.Handler α) : Handler α := p.lift fun _ => .order

/-! ## Handlers -/

inductive Reply where
  | order (r : Order.Response)
  /-- The page of a recharge, with the token for its form. -/
  | page (submit_token : String)
  | search (message : String)
  deriving Repr, DecidableEq

/-- `{'code': .., 'msg': ..}` -/
def Reply.msg (code : Int) (msg : String) : Reply := .order (.msg code msg)

section Handlers
-- `hashlib` digests
variable (md5 sha256 : String → String)

/-- What `@checkLogin` asks. -/
def loggedIn (sid : String) : Handler Bool := do
  return truthy (← order (call (.sessionAccount sid)))

/-- The member is one that the page of this action is for. -/
def memberKnown (action selfUid memberId : String) : Handler Bool := do
  if action.toUpper = "HALL" then
    let isUser ← send (.existsUser memberId)
    let isMember ← send (.isMember selfUid memberId)
    return isUser && isMember
  else
    let account ← send (.hgetAccount memberId)
    send (.sismemberWeixin (fmt account))

/-- A member without a card balance gets one. -/
def initCard (action selfUid memberId : String) : Handler Unit := do
  if action.toUpper = "HALL" then
    if !(← send (.existsCard selfUid memberId)) then send (.setCard selfUid memberId)

/-- `GET /member/recharge/<action>` -/
def getMemberRecharge (time sid action memberId : String) : Handler Reply := do
  if !(← loggedIn sid) then return .order (.redirect "/admin/login")
  let selfUid := fmt (← order (call (.sessionId sid)))
  if !(← memberKnown action selfUid memberId) then return .search ("会员[" ++ memberId ++ "]不存在")
  initCard action selfUid memberId
  let submit_token := md5 (memberId ++ time)
  order (call (.setToken .recharge sid submit_token))
  return .page submit_token

/-- `/member/recharge` -/
def doMemberRecharge (now : Clock) (rand : Nat) (sid : String) (form : RechargeForm) : Handler Reply := do
  return .order (← order (Order.doMemberRecharge sha256 now rand sid form))

/-- `/member/recharge/coin`: the token stays. -/
def doMemberRechargeCoin (sid : String) (form : RechargeForm) : Handler Reply := do
  if !(← loggedIn sid) then return .order (.redirect "/admin/login")
  let selfUid := fmt (← order (call (.sessionId sid)))
  if !truthy (← order (call (.getToken .recharge sid))) then return .msg 1 "非法提交订单"
  if some form.token ≠ (← order (call (.getToken .recharge sid))) then
    return .order (.json 0 "不能重复确认订单." (some "/admin/member/search"))
  let self ← order (call (.hmgetAgent selfUid))
  if form.cardNums = "" then return .msg 1 "充值金币数不能为空"
  if form.passwd = "" then return .msg 1 "请输入你的密码"
  if self.passwd ≠ some (sha256 form.passwd) then return .msg 1 "您的密码不正确"
  let cardNums := (int form.cardNums).getD 0
  send (.hincrbyCoin form.memberId cardNums)
  return .order (.json 0 ("成功向[" ++ form.memberId ++ "]充值了金币[" ++ toString cardNums ++ "]个") (some "/admin/member/search/fish"))

structure RemoveForm where
  roomcard : String
  agentId : String
  remove : String
  memberId : String
  deriving Repr, DecidableEq

/-- `/member/removeCard/<page>/<remove_type>`: the limit is a field of the form. -/
def doRemoveCard (sid : String) (page : Nat) (remove_type : String) (form : RemoveForm) : Handler Reply := do
  if !(← loggedIn sid) then return .order (.redirect "/admin/login")
  if form.remove = "" then return .msg 1 "请填写移除的钻石数"
  let remove := (int form.remove).getD 0
  let roomcard := (int form.roomcard).getD 0
  if remove > roomcard then return .msg 1 "钻石不等大于会员现有的钻石数"
  if remove_type = "cards" then
    send (.incrbyCard form.agentId form.memberId (-remove))
    return .order (.json 0 ("移除会员[" ++ form.memberId ++ "] " ++ toString remove ++ "个钻石成功")
      (some ("/admin/member/list?&pageNumber=" ++ toString page)))
  else
    send (.hincrbyCoin form.memberId (-remove))
    return .order (.json 0 ("移除会员[" ++ form.memberId ++ "] " ++ toString remove ++ "个金币成功")
      (some ("/admin/fish/member/list?&pageNumber=" ++ toString page)))

end Handlers

/-! ## Requests -/

inductive Req where
  | page (time sid action memberId : String)
  | recharge (now : Clock) (rand : Nat) (sid : String) (form : RechargeForm)
  | coin (sid : String) (form : RechargeForm)
  | remove (sid : String) (page : Nat) (remove_type : String) (form : RemoveForm)
  deriving Repr, DecidableEq

def Req.handler (md5 sha256 : String → String) : Req → Handler Reply
  | .page time sid action memberId => getMemberRecharge md5 time sid action memberId
  | .recharge now rand sid form => doMemberRecharge sha256 now rand sid form
  | .coin sid form => doMemberRechargeCoin sha256 sid form
  | .remove sid pageNumber remove_type form => doRemoveCard sid pageNumber remove_type form

end FishWeb.Member
