import FishWeb.Room.Model
/-!
# Clubs

`hall/club.py`: a club is created, joined, left and disbanded; applications are decided,
managers named, rooms opened and their automatic creation set.

The sets `club:players:%s:set` of the members of a club and `club:players:accounts:%s:set`
of the clubs of an account have keys of one form, so they are one table of sets under the
text between `club:players:` and `:set`. The set that `eval` makes of `club_manager` is
kept as a set, and `agClubNumber` as the pair of its parts. Left out: the pages that list
clubs, members, applications and rooms, `/club/club_into`, the marks of the history,
the texts of the automatic rules, and the fields of a club that nothing reads.
-/
open Python Prog

namespace FishWeb.Club

open Common
open Room (Forward)

/-! ## The store -/

/-- `CLUB_ATTR % club_number`: the fields that are set. -/
structure Attr where
  club_name : Option String
  club_user : Option String
  club_content : Option String
  club_use_create_room : Option Int
  club_manager : Option (MemberSet String)
  club_agent : Option String
  deriving DecidableEq

/-- `CLUB_EXTENDS_ATTRIBUTE % (agClubNumber, id)` -/
structure Auto where
  id : Option String
  rule : Option String
  gameid : Option String
  deriving Repr, DecidableEq

/-- What an application copies of a user. -/
structure Profile where
  nickname : Option String
  headImgUrl : Option String
  account : Option String
  deriving Repr, DecidableEq

structure St where
  room : Room.St
  profile : String → Profile
  /-- `CLUB_LIST` -/
  clubs : MemberSet String
  attr : String → Option Attr
  /-- `CLUB_ACCOUNT_LIST % account` -/
  owned : String → MemberSet String
  /-- `club:players:%s:set` -/
  players : String → MemberSet String
  /-- `CLUB_AUDI_LIST % club_number` -/
  audit : String → MemberSet String
  /-- `hget ('club:auto_create:allow', club_number)` -/
  allow : String → Option Int
  auto : (String × String) × String → Option Auto
  /-- The ids in `CLUB_EXTENDS_LIST_ATTRIBUTE % agClubNumber`. -/
  autoList : String × String → MemberSet String

/-- The text of `CLUB_PLAYER_LIST % club_number` between `club:players:` and `:set`. -/
def playerList (club_number : String) : String := club_number

/-- The same of `CLUB_PLAYER_TO_CLUB_LIST % account`. -/
def playerToClubList (account : String) : String := "accounts:" ++ account

def Attr.empty : Attr := ⟨none, none, none, none, none, none⟩

/-- The fields of a club, none where there is no club. -/
def St.attrOf (s : St) (club_number : String) : Attr := (s.attr club_number).getD .empty

def St.autoOf (s : St) (key : (String × String) × String) : Auto := (s.auto key).getD ⟨none, none, none⟩

/-! ## Commands -/

open Function (update)

inductive Own : Type → Type
  | hmgetProfile (userTable : String) : Own Profile
  | existsAttr (club_number : String) : Own Bool
  | hgetUser (club_number : String) : Own (Option String)
  | hgetManager (club_number : String) : Own (Option (MemberSet String))
  | hgetUseCreateRoom (club_number : String) : Own (Option Int)
  | hmsetAttr (club_number : String) (attr : Attr) : Own Unit
  | hsetContent (club_number club_content : String) : Own Unit
  | hsetManager (club_number : String) (data : MemberSet String) : Own Unit
  | smembersClubs : Own (MemberSet String)
  | saddClubs (club_number : String) : Own Unit
  | smembersOwned (account : String) : Own (MemberSet String)
  | saddOwned (account club_number : String) : Own Unit
  | smembersPlayers (key : String) : Own (MemberSet String)
  | saddPlayers (key member : String) : Own Unit
  | sremPlayers (key member : String) : Own Unit
  /-- The transaction of `/club/disbandment`. -/
  | disband (club_number account : String) (players : List String) : Own Unit
  | smembersAudit (club_number : String) : Own (MemberSet String)
  | saddAudit (club_number item : String) : Own Unit
  | sremAudit (club_number item : String) : Own Unit
  | hgetAllow (club_number : String) : Own (Option Int)
  | hsetAllow (club_number : String) (settingAllow : Int) : Own Unit
  | existsAuto (key : (String × String) × String) : Own Bool
  | saddAutoList (agClubNumber : String × String) (id : String) : Own Unit
  | hsetAutoId (key : (String × String) × String) : Own Unit
  | hmsetAuto (key : (String × String) × String) (id : Option String) (gameid rule : String) : Own Unit

/-- The commands of the clubs and those of the rooms. -/
inductive Cmd (β : Type) : Type
  | own (c : Own β)
  | room (c : With Room.Own β)

def St.setAttr (s : St) (club_number : String) (attr : Attr) : St := { s with attr := update s.attr club_number (some attr) }

/-- The stored lists, after a club is disbanded. -/
def St.disband (s : St) (club_number account : String) (players : List String) : St :=
  { s with
    attr := update s.attr club_number none
    clubs := s.clubs.srem club_number
    owned := SetTable.remove s.owned account club_number
    players := update (players.foldl (fun t player => SetTable.remove t (playerToClubList player) club_number) s.players)
      (playerList club_number) ∅ }

def St.setAuto (s : St) (key : (String × String) × String) (auto : Auto) : St := { s with auto := update s.auto key (some auto) }

instance : Exec Own St where
  exec
    | .hmgetProfile userTable, s => (s.profile userTable, s)
    | .existsAttr club_number, s => ((s.attr club_number).isSome, s)
    | .hgetUser club_number, s => ((s.attrOf club_number).club_user, s)
    | .hgetManager club_number, s => ((s.attrOf club_number).club_manager, s)
    | .hgetUseCreateRoom club_number, s => ((s.attrOf club_number).club_use_create_room, s)
    | .hmsetAttr club_number attr, s => ((), s.setAttr club_number attr)
    | .hsetContent club_number club_content, s =>
      ((), s.setAttr club_number { s.attrOf club_number with club_content := some club_content })
    | .hsetManager club_number data, s => ((), s.setAttr club_number { s.attrOf club_number with club_manager := some data })
    | .smembersClubs, s => (s.clubs, s)
    | .saddClubs club_number, s => ((), { s with clubs := s.clubs.sadd club_number })
    | .smembersOwned account, s => (s.owned account, s)
    | .saddOwned account club_number, s => ((), { s with owned := SetTable.add s.owned account club_number })
    | .smembersPlayers key, s => (s.players key, s)
    | .saddPlayers key member, s => ((), { s with players := SetTable.add s.players key member })
    | .sremPlayers key member, s => ((), { s with players := SetTable.remove s.players key member })
    | .disband club_number account players, s => ((), s.disband club_number account players)
    | .smembersAudit club_number, s => (s.audit club_number, s)
    | .saddAudit club_number item, s => ((), { s with audit := SetTable.add s.audit club_number item })
    | .sremAudit club_number item, s => ((), { s with audit := SetTable.remove s.audit club_number item })
    | .hgetAllow club_number, s => (s.allow club_number, s)
    | .hsetAllow club_number settingAllow, s => ((), { s with allow := update s.allow club_number (some settingAllow) })
    | .existsAuto key, s => ((s.auto key).isSome, s)
    | .saddAutoList agClubNumber id, s => ((), { s with autoList := SetTable.add s.autoList agClubNumber id })
    | .hsetAutoId key, s => ((), s.setAuto key { s.autoOf key with id := some key.2 })
    | .hmsetAuto key id gameid rule, s =>
      ((), s.setAuto key ⟨id.or (s.autoOf key).id, some rule, some gameid⟩)

instance : Exec Cmd St where
  exec
    | .own c, s => Exec.exec c s
    | .room c, s => ((Exec.exec c s.room).1, { s with room := (Exec.exec c s.room).2 })

/-- What is done in a club's name. -/
inductive Event where
  | allow (club_number : String)
  | rules (club_number : String)
  | decided (club_number item : String)
  | forward (f : Forward)

instance : Note Own Event where
  note
    | .hsetAllow club_number _, _ => [.allow club_number]
    | .hsetAutoId key, _ => [.rules key.1.1]
    | .hmsetAuto key _ _ _, _ => [.rules key.1.1]
    | .sremAudit club_number item, _ => [.decided club_number item]
    | _, _ => []

instance : Note Cmd Event where
  note
    | .own c, b => Note.note c b
    | .room c, b => (Note.note c b).map Event.forward

abbrev Handler := Prog Err Cmd

def send {β : Type} (c : Own β) : Handler β := .cmd (.own c) .ret

/-- A handler of `Room.Model`. -/
def room {α : Type} (p : Room.Handler α) : Handler α := p.lift fun _ => .room

/-! ## Handlers -/

inductive Reply where
  | refused (r : Refusal)
  | ok (msg : String)
  /-- `{'code': 0, 'msg': .., 'club_number': ..}` -/
  | created (msg : String) (club_number : Int)
  /-- `{'code': 0, 'msg': .., 'allow': ..}` -/
  | allow (msg : String) (settingAllow : Int)
  /-- `{'code': 0, 'list': ..}` -/
  | autos (l : List Auto)
  | room (r : Room.Reply)
  deriving Repr, DecidableEq

/-- `{'code': .., 'msg': ..}` -/
def Reply.msg (code : Int) (msg : String) : Reply := .refused ⟨code, msg, none⟩

def Reply.code : Reply → Int
  | .refused r => r.code
  | .room r => r.code
  | _ => 0

section Handlers

/-- `getInfoBySid` -/
def infoOf (sid : String) : Handler Info := room (getInfoBySid sid)

/-- `verfiySid and sid != verfiySid` -/
def elsewhere (sid : String) (info : Info) : Bool := info.verfiySid.getD "" ≠ "" ∧ sid ≠ info.verfiySid.getD ""

/-- The answer to who logged in elsewhere. -/
def kicked (sid : String) : Reply := .refused ⟨-4, "账号已在其他地方登录", some sid⟩

/-- `exists(SessionTable)` -/
def sessionLives (sid : String) : Handler Bool := room (ask (.existsSession sid))

/-- `getUserByAccount` -/
def getUserByAccount (account : Option String) : Handler String := do
  return fmt (← room (ask (.getUserTable (fmt account))))

/-- `account not in data` -/
def outside (account : Option String) (data : MemberSet String) : Bool := account.all fun account => account ∉ data

/-- `eval` of the managers of a club. -/
def evalManager (club_number : String) : Handler (MemberSet String) := do
  orRaise .TypeError (← send (.hgetManager club_number))

/-- `club_user != account and account not in data` -/
def stranger (club_number : String) (account : Option String) (data : MemberSet String) : Handler Bool := do
  return (← send (.hgetUser club_number)) ≠ account && outside account data

/-! ### Membership -/

namespace ClubOperation

def create_club (account : String) (club_number : Int) (club_name ag club_content : String) : Handler Unit := do
  send (.saddClubs (toString club_number))
  send (.hmsetAttr (toString club_number) ⟨some club_name, some account, some club_content, some 1, some ∅, some ag⟩)
  send (.saddOwned account (toString club_number))

def add_club (account club_number : String) : Handler Bool := do
  if ← send (.existsAttr club_number) then
    send (.saddPlayers (playerToClubList account) club_number)
    send (.saddPlayers (playerList club_number) account)
    return true
  return false

def sign_out_club (account club_number : String) : Handler Bool := do
  send (.sremPlayers (playerList club_number) account)
  send (.sremPlayers (playerToClubList account) club_number)
  return true

end ClubOperation

/-- `next_id.replace('4', '5')` -/
def withoutFour (n : Int) : String := String.ofList ((toString n).toList.map fun c => if c = '4' then '5' else c)

/-- The number after the greatest, or 2000; no number has a 4. -/
def nextId (club_list : List Int) : Except Err Int :=
  match int (withoutFour ((club_list.max?.map (· + 1)).getD 2000)) with
  | some n => .ok n
  | none => .error .ValueError

/-- `[int(i) for i in ..]` -/
def ints : List String → Except Err (List Int)
  | [] => .ok []
  | i :: l => do return (← (Value.str i).toInt) :: (← ints l)

/-- The number of the next club, from the list as it is. -/
def nextNumber : Handler Int := do
  let club_list ← ofExcept (ints (← send .smembersClubs).members)
  ofExcept (nextId club_list)

/-- The `try` of `/club/create`. -/
def tryCreate (sid club_name : String) : Handler Reply := do
  if club_name = "" then return .msg 1 "俱乐部名称不能为空"
  let info ← infoOf sid
  if elsewhere sid info then return kicked sid
  let userTable ← getUserByAccount info.account
  let ag ← orRaise .KeyError (← room (Common.send (.hmgetUser userTable))).parentAg
  if ag = "" then return .msg 1 "你没有任何公会，不能创建俱乐部"
  if (← send (.smembersOwned (fmt info.account))).scard ≥ 10 then return .msg 1 "你已经超出了创建俱乐部的上限"
  let next_id ← nextNumber
  -- `club_content` is read from the field `club_name`
  ClubOperation.create_club (fmt info.account) next_id club_name ag club_name
  return .created "创建成功" next_id

/-- `except Exception` -/
def orFail (msg : String) (p : Handler Reply) : Handler Reply := do
  match ← p.attempt with
  | .ok reply => return reply
  | .error _ => return .msg 1 msg

/-- `/club/create` -/
def create_club (sid club_name : String) : Handler Reply := orFail "创建失败" (tryCreate sid club_name)

def tryDelete (sid club_number : String) : Handler Reply := do
  let info ← infoOf sid
  if elsewhere sid info then return kicked sid
  if ← send (.existsAttr club_number) then
    if (← send (.hgetUser club_number)) ≠ info.account then return .msg 1 "你无法删除这个俱乐部"
    let players ← send (.smembersPlayers (playerList club_number))
    send (.disband club_number (fmt info.account) players.members)
    return .ok "删除成功"
  return .msg 1 "不存在这个俱乐部号"

/-- `/club/disbandment` -/
def delete_club (sid club_number : String) : Handler Reply := orFail "删除失败" (tryDelete sid club_number)

/-- `/club/edit` -/
def edit_club (sid club_number club_content : String) : Handler Reply := do
  if club_number = "" then return .msg 1 "没有俱乐部ID"
  let info ← infoOf sid
  if ← send (.existsAttr club_number) then
    let data ← evalManager club_number
    if ← stranger club_number info.account data then return .msg 1 "你没有操作这个俱乐部的权限"
    send (.hsetContent club_number club_content)
    return .ok "成功"
  return .msg 1 "失败"

/-- `{'code': 0, 'msg': '成功'}` where it went well. -/
def outcome (result : Bool) : Reply := if result then .ok "成功" else .msg 1 "失败"

/-- `/club/join_club` -/
def join_club (sid club_number : String) : Handler Reply := do
  if club_number = "" then return .msg 1 "不能没有俱乐部ID"
  let info ← infoOf sid
  if elsewhere sid info then return kicked sid
  if (← send (.hgetUser club_number)) = info.account then return .msg 1 "创建人不需要加入自己的俱乐部"
  return outcome (← ClubOperation.add_club (fmt info.account) club_number)

/-- `/club/sign_out_club` -/
def sign_out_club (sid club_number : String) : Handler Reply := do
  let info ← infoOf sid
  if elsewhere sid info then return kicked sid
  return outcome (← ClubOperation.sign_out_club (fmt info.account) club_number)

/-- `/club/force_sign_out_club` -/
def force_sign_out_club (builder_sid member_account club_number : String) : Handler Reply := do
  let builder ← infoOf builder_sid
  if builder.account.getD "" = "" then return .msg 1 "用户不生效"
  if ← send (.existsAttr club_number) then
    let data ← evalManager club_number
    if ← stranger club_number builder.account data then return .msg 1 "你没有操作这个俱乐部的权限"
    if member_account ∈ data then return .msg 1 "该用户是管理员！无法踢出。"
    return outcome (← ClubOperation.sign_out_club member_account club_number)
  return .msg 1 "失败"

/-! ### Applications -/

/-- `"%s|---|%s|---|%s|---|%s"` -/
def application (account nickname avatar_url status : String) : String :=
  account ++ "|---|" ++ nickname ++ "|---|" ++ avatar_url ++ "|---|" ++ status

/-- `/club/apply` -/
def apply_club (sid club_number : String) : Handler Reply := do
  if club_number = "" then return .msg 1 "不能没有俱乐部ID"
  let info ← infoOf sid
  if elsewhere sid info then return kicked sid
  if (← send (.hgetUser club_number)) = info.account then return .msg 1 "创建人不需要加入自己的俱乐部"
  if ← send (.existsAttr club_number) then
    let user ← send (.hmgetProfile (← getUserByAccount info.account))
    send (.saddAudit club_number (application (fmt user.account) (fmt user.nickname) (fmt user.headImgUrl) "0"))
    return .ok "成功"
  return .msg 1 "该俱乐部ID不存在，请重新输入"

/-- The loop over the applications: the first pending one of the user is decided. -/
def decide (club_number apply_user_account status : String) (accept : Bool) : List String → Handler Reply
  | [] => return .msg 1 "失败"
  | item :: rest =>
    match splitOn "|---|" item with
    | [account, nickname, avatar_url, state] =>
      if account ≠ apply_user_account then decide club_number apply_user_account status accept rest
      else do
        let state ← ofExcept (Value.str state).toInt
        if state ≠ 0 then decide club_number apply_user_account status accept rest
        else
          send (.sremAudit club_number item)
          send (.saddAudit club_number (application account nickname avatar_url status))
          if !accept then return .ok "成功"
          -- where there is no club the loop goes on
          if ← ClubOperation.add_club account club_number then return .ok "成功"
          decide club_number apply_user_account status accept rest
    | _ => .raise .ValueError

/-- Who may not decide. Where there is no club nobody is asked. -/
def mayNotAudit (club_number : String) (account : Option String) : Handler Bool := do
  if ← send (.existsAttr club_number) then
    let data ← evalManager club_number
    stranger club_number account data
  else return false

/-- `/club/apply/audit` -/
def apply_club_audit (sid club_number apply_user_account status : String) : Handler Reply := do
  let info ← infoOf sid
  if club_number = "" then return .msg 1 "不能没有俱乐部ID"
  if apply_user_account = "" then return .msg 1 "不能没有用户信息"
  if status = "" then return .msg 1 "请填写你的申请状态"
  let decision ← ofExcept (Value.str status).toInt
  if decision = 0 then return .msg 1 "请填写你的申请状态"
  if elsewhere sid info then return kicked sid
  if ← mayNotAudit club_number info.account then return .msg 1 "你不能操作这个俱乐部"
  let apply_list ← send (.smembersAudit club_number)
  decide club_number apply_user_account status (decision = 1) apply_list.members

/-! ### Managers -/

/-- `/club/add_manager` -/
def add_manager (sid club_number manager_account : String) : Handler Reply := do
  let info ← infoOf sid
  if ← send (.existsAttr club_number) then
    if (← send (.hgetUser club_number)) ≠ info.account then return .msg 1 "你不能操作这个俱乐部"
    let data ← evalManager club_number
    if data.scard ≥ 3 then return .msg 1 "管理员已达上限数量，无法增加更多的管理员"
    send (.hsetManager club_number (data.sadd manager_account))
    return .ok "成功"
  return .msg 1 "失败"

/-- `/club/relieve_manager` -/
def relieve_manager (sid club_number manager_account : String) : Handler Reply := do
  let info ← infoOf sid
  if ← send (.existsAttr club_number) then
    if (← send (.hgetUser club_number)) ≠ info.account then return .msg 1 "你不能操作这个俱乐部"
    let data ← evalManager club_number
    -- `data.remove(manager_account)`
    if manager_account ∉ data then .raise .KeyError
    else
      send (.hsetManager club_number (data.srem manager_account))
      return .ok "成功"
  return .msg 1 "失败"

/-! ### Automatic rooms -/

/-- `club_user != account and account not in account in eval(..)` -/
def shutOut (club_number : String) (account : Option String) : Handler Bool := do
  if (← send (.hgetUser club_number)) = account then return false
  match account with
  | none => .raise .TypeError
  | some account =>
    -- a text is in itself, and the chain ends at its first part that is false
    if account.toList <:+: account.toList then return false
    return account ∈ (← evalManager club_number)

/-- What the handlers of the automatic rooms ask before `shutOut`. -/
def autoRefusal (sid club_number : String) (info : Info) : Handler (Option Reply) := do
  if !(← sessionLives sid) then return some (.msg (-3) "sid 超时")
  if elsewhere sid info then return some (kicked sid)
  if club_number = "" then return some (.msg 1 "俱乐部编号没有传递")
  if !(← send (.existsAttr club_number)) then return some (.msg 1 "不存在这个俱乐部")
  return none

/-- The owner has the cards for automatic rooms. -/
def hundredCards (club_number : String) : Handler Bool := do
  let userTable ← room (ask (.getUserTable (fmt (← send (.hgetUser club_number)))))
  let user ← room (Common.send (.hmgetUser (fmt userTable)))
  let userTable ← orRaise .AttributeError userTable
  let id ← orRaise .IndexError (split ':' userTable)[1]?
  let roomCards := (← room (Common.send (.getCards (fmt user.parentAg) id))).getD ""
  let roomCards ← ofExcept (Value.str (if roomCards = "" then "0" else roomCards)).toInt
  return 100 ≤ roomCards

/-- What the switch is set to, or nothing where the cards do not do. -/
def nextAllow (club_number : String) : Handler (Option Int) := do
  let allow := (← send (.hgetAllow club_number)).getD 0
  if allow = 0 then
    if ← hundredCards club_number then return some 1
    return none
  return some 0

/-- `/club/settting_auto_create_allow` -/
def settting_auto_create_allow (sid club_number : String) : Handler Reply := do
  let info ← infoOf sid
  match ← autoRefusal sid club_number info with
  | some reply => return reply
  | none =>
    if ← shutOut club_number info.account then return .msg 1 "失败, 你不能操作"
    match ← nextAllow club_number with
    | none => return .msg 1 "俱乐部所属群主砖石不足100，请充值后开启。 "
    | some settingAllow =>
      send (.hsetAllow club_number settingAllow)
      return .allow "成功" settingAllow

/-- `agClubNumber`, of the guild that the owner is in now. -/
def agClubNumber (club_number : String) : Handler (String × String) := do
  let userTable ← getUserByAccount (← send (.hgetUser club_number))
  let user ← room (Common.send (.hmgetUser userTable))
  return (club_number, fmt user.parentAg)

/-- `/club/auto_create` -/
def setting_auto_create (sid club_number gameid rule id : String) : Handler Reply := do
  let info ← infoOf sid
  let key ← agClubNumber club_number
  match ← autoRefusal sid club_number info with
  | some reply => return reply
  | none =>
    if id = "" then return .msg 1 "ID不能为空"
    if ← shutOut club_number info.account then return .msg 0 "失败, 你不能操作"
    send (.hmsetAuto (key, id) none gameid rule)
    return .ok "成功"

/-- `range(1, 6)` -/
def autoIds : List String := ["1", "2", "3", "4", "5"]

/-- An automatic room that has no record gets one. -/
def initAuto (key : String × String) (id : String) : Handler Unit := do
  send (.saddAutoList key id)
  send (.hsetAutoId (key, id))

def clearAuto (key : String × String) (id : String) : Handler Unit := do
  if ← send (.existsAuto (key, id)) then send (.hmsetAuto (key, id) (some id) "" "")
  else initAuto key id

/-- `/club/clear_auto_create`: `id` is the built-in function, which is not empty. -/
def clear_auto_create (sid club_number : String) : Handler Reply := do
  let info ← infoOf sid
  match ← autoRefusal sid club_number info with
  | some reply => return reply
  | none =>
    if ← shutOut club_number info.account then return .msg 0 "失败, 你不能操作"
    let key ← agClubNumber club_number
    forEach autoIds (clearAuto key)
    return .ok "成功"

/-! ### Rooms -/

/-- `/club/createRoom` -/
structure RoomForm where
  gameid : String
  /-- `eval(rule)` -/
  rule : List Value
  sid : String
  club_number : String

/-- What the club says to who is not its owner. The set asked is that of the account named like the club. -/
def memberRefusal (club_number : String) (account : Option String) : Handler (Option Reply) := do
  if (← send (.hgetUser club_number)) = account then return none
  if club_number ∉ (← send (.smembersPlayers (playerToClubList club_number))) then
    return some (.msg 1 "你没有加入这个俱乐部！不能创建房间")
  let club_use_create_room ← orRaise .TypeError (← send (.hgetUseCreateRoom club_number))
  if club_use_create_room ≠ 1 then return some (.msg 1 "你不能创建房间！请和俱乐部创始人联系")
  return none

/-- The room is sent to its server in the name of the club. -/
def sendRoom (gameId : Int) (account ag : String) (fitted : Room.Fitted) (server : Room.Server) : Room.Handler Room.Reply := do
  let ruleText ← Room.getRuleText fitted.rule gameId
  Common.send (.rpushProtocol (toString gameId) server.tag (.createOtherRoom account ag (fitted.rule ++ [.int 1]) ruleText))
  return .opened "房间开启成功" "" ""

/-- The user of the session opens a room that the user of `userTable` pays for. -/
def openRoom (gameId : Int) (account : String) (userTable : String) (form : RoomForm) : Room.Handler Room.Reply := do
  match ← Room.getPayer userTable with
  | .error reply => return reply
  | .ok payer =>
  match ← Room.fitRule gameId userTable payer form.rule with
  | .error reply => return reply
  | .ok fitted =>
  match ← Room.freeServer gameId with
  | none => return .msg (-1) "服务器忙碌或维护中"
  | some server => sendRoom gameId account (payer.ag ++ "-" ++ form.club_number) fitted server

def doCreateRoom (form : RoomForm) : Handler Reply := do
  let gameId ← orRaise .ValueError (int form.gameid)
  let info ← infoOf form.sid
  if !(← send (.existsAttr form.club_number)) then return .msg 1 "俱乐部不存在"
  match ← memberRefusal form.club_number info.account with
  | some reply => return reply
  | none =>
    let club_admin_user ← send (.hgetUser form.club_number)
    if elsewhere form.sid info then return kicked form.sid
    if !(← sessionLives form.sid) then return .msg (-3) "sid 超时"
    let userTable ← getUserByAccount club_admin_user
    if !(← room (ask (.existsUser userTable))) then return .msg (-5) "该用户不存在"
    return .room (← room (openRoom gameId (fmt info.account) userTable form))

end Handlers

/-! ## Requests -/

inductive Req where
  | create (sid club_name : String)
  | delete (sid club_number : String)
  | edit (sid club_number club_content : String)
  | join (sid club_number : String)
  | signOut (sid club_number : String)
  | forceOut (builder_sid member_account club_number : String)
  | apply (sid club_number : String)
  | audit (sid club_number apply_user_account status : String)
  | addManager (sid club_number manager_account : String)
  | relieveManager (sid club_number manager_account : String)
  | settingAllow (sid club_number : String)
  | autoCreate (sid club_number gameid rule id : String)
  | clearAuto (sid club_number : String)
  | createRoom (form : RoomForm)

def Req.handler : Req → Handler Reply
  | .create sid club_name => create_club sid club_name
  | .delete sid club_number => delete_club sid club_number
  | .edit sid club_number club_content => edit_club sid club_number club_content
  | .join sid club_number => join_club sid club_number
  | .signOut sid club_number => sign_out_club sid club_number
  | .forceOut builder_sid member_account club_number => force_sign_out_club builder_sid member_account club_number
  | .apply sid club_number => apply_club sid club_number
  | .audit sid club_number apply_user_account status => apply_club_audit sid club_number apply_user_account status
  | .addManager sid club_number manager_account => add_manager sid club_number manager_account
  | .relieveManager sid club_number manager_account => relieve_manager sid club_number manager_account
  | .settingAllow sid club_number => settting_auto_create_allow sid club_number
  | .autoCreate sid club_number gameid rule id => setting_auto_create sid club_number gameid rule id
  | .clearAuto sid club_number => clear_auto_create sid club_number
  | .createRoom form => doCreateRoom form

/-- One thing that happens: a request to the clubs, or users, sessions and rooms change elsewhere. -/
inductive Step where
  | request (r : Req)
  | elsewhere (room : Room.St) (profile : String → Profile)

def step : Step → St → St
  | .request r, s => (run r.handler s).2
  | .elsewhere room profile, s => { s with room := room, profile := profile }

/-- No club yet. -/
def init (room : Room.St) (profile : String → Profile) : St where
  room := room
  profile := profile
  clubs := ∅
  attr _ := none
  owned _ := ∅
  players _ := ∅
  audit _ := ∅
  allow _ := none
  auto _ := none
  autoList _ := ∅

end FishWeb.Club
