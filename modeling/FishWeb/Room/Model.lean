import FishWeb.Common.Model
import FishWeb.Lib.Sets
import FishWeb.Lib.Value
import Mathlib.Data.String.Basic
/-!
# Creating rooms

`/createRoom` of `hall/hall.py`, with `getRuleText` of `model/hallModel.py` and
`get_user_open_auth` of `model/userModel.py`, and `/member/modify` of
`admin/admin_member.py`, which sets the base scores of a user.

A form has the list that `eval` makes of its rule, and a rule is sent on as a list. The
text of a base score is the one that was selected; cards are texts of numbers. Left out:
the operation log of `/member/modify`.
-/
open Python Prog

namespace FishWeb.Room

open Common

/-! ## The store -/

/-- What `FORMAT_USER_TABLE % id` has of a user. -/
structure User where
  parentAg : Option String
  maxScore : Option String
  open_auth : Option String
  baseScore : List String
  deriving Repr, DecidableEq

/-- `GAME2RULE_DATA % (gameId, ruleNum)` -/
structure GameRule where
  title : Option String
  type : Option String
  rule : Option String
  deriving Repr, DecidableEq

/-- What the servers of a game are told. -/
inductive Protocol where
  | createOtherRoom (account ag : String) (rule : List Value) (ruleText : String)
  | notJoinPartyRoom (account ag : String)
  deriving Repr

/-- What a session keeps for the room of its user. -/
structure Pending where
  rule : List Value
  ruleText : String
  hidden : String
  deriving Repr

structure St where
  shared : Shared
  user : String → User
  /-- `hmget (AGENT_TABLE % ag, ('valid', 'open_auth'))` -/
  agent : String → Option String × Option String
  /-- `GOLD_GAMEID_SET` -/
  goldGames : MemberSet String
  /-- `USER4AGENT_CARD % (ag, id)` -/
  cards : String → String → Option String
  /-- `USE_ROOM_CARDS_RULE % gameId` -/
  cardRules : Int → List String
  /-- `GAME2RULE % gameId` -/
  gameRules : Int → List String
  gameRule : Int → String → GameRule
  /-- `hget (GAME_TABLE % gameId, 'maxRoomCount')` -/
  maxRoomCount : Int → Option String
  /-- `FORMAT_GAME_SERVICE_SET % gameId` -/
  servers : Int → List String
  /-- The players and the rooms of a server. -/
  counts : String → Int × Int
  /-- `ACCOUNT2WAIT_JOIN_PARTY_TABLE % account` -/
  waitKey : String → Option String
  waiting : String → List String
  /-- `'account:%s:wantServer' % account` -/
  wantServer : String → Option String
  /-- `FORMAT_SERVICE_PROTOCOL_TABLE % (gameId, serviceTag)` -/
  protocols : String → String → List Protocol
  pending : String → Option Pending
  /-- The account of an administrator's session. -/
  admin : String → Option String

instance : HasShared St := ⟨fun s => s.shared⟩

/-- `FORMAT_USER_TABLE % id` -/
def userTableOf (id : String) : String := "users:" ++ id

/-! ## Commands -/

open Function (update)

inductive Own : Type → Type
  /-- `hmget (userTable, ('parentAg', 'maxScore', 'open_auth'))` -/
  | hmgetUser (userTable : String) : Own User
  | hmgetAgent (ag : String) : Own (Option String × Option String)
  | smembersGold : Own (MemberSet String)
  | getCards (ag id : String) : Own (Option String)
  | lrangeCardRules (gameId : Int) : Own (List String)
  | lrangeGameRules (gameId : Int) : Own (List String)
  | hmgetGameRule (gameId : Int) (ruleNum : String) : Own GameRule
  | hgetMaxRoomCount (gameId : Int) : Own (Option String)
  | lrangeServers (gameId : Int) : Own (List String)
  /-- `hincrby (serverTable, .., 0)`, of both counts -/
  | hincrbyCounts (serverTable : String) : Own (Int × Int)
  | getWaitKey (account : String) : Own (Option String)
  | lrangeWaiting (key : String) : Own (List String)
  | getWantServer (account : String) : Own (Option String)
  | lremWaiting (key account : String) : Own Unit
  | lpushProtocol (gameId serviceTag : String) (p : Protocol) : Own Unit
  | rpushProtocol (gameId serviceTag : String) (p : Protocol) : Own Unit
  | hmsetSession (sid : String) (p : Pending) : Own Unit
  | sessionAccount (sid : String) : Own (Option String)
  | hmsetScores (userTable maxScore : String) (baseScore : List String) : Own Unit

def St.push (s : St) (gameId serviceTag : String) (l : List Protocol) : St :=
  { s with protocols := update s.protocols gameId (update (s.protocols gameId) serviceTag l) }

instance : Exec Own St where
  exec
    | .hmgetUser userTable, s => (s.user userTable, s)
    | .hmgetAgent ag, s => (s.agent ag, s)
    | .smembersGold, s => (s.goldGames, s)
    | .getCards ag id, s => (s.cards ag id, s)
    | .lrangeCardRules gameId, s => (s.cardRules gameId, s)
    | .lrangeGameRules gameId, s => (s.gameRules gameId, s)
    | .hmgetGameRule gameId ruleNum, s => (s.gameRule gameId ruleNum, s)
    | .hgetMaxRoomCount gameId, s => (s.maxRoomCount gameId, s)
    | .lrangeServers gameId, s => (s.servers gameId, s)
    | .hincrbyCounts serverTable, s => (s.counts serverTable, s)
    | .getWaitKey account, s => (s.waitKey account, s)
    | .lrangeWaiting key, s => (s.waiting key, s)
    | .getWantServer account, s => (s.wantServer account, s)
    | .lremWaiting key account, s => ((), { s with waiting := update s.waiting key ((s.waiting key).filter (· ≠ account)) })
    | .lpushProtocol gameId serviceTag p, s => ((), s.push gameId serviceTag (p :: s.protocols gameId serviceTag))
    | .rpushProtocol gameId serviceTag p, s => ((), s.push gameId serviceTag (s.protocols gameId serviceTag ++ [p]))
    | .hmsetSession sid p, s => ((), { s with pending := update s.pending sid (some p) })
    | .sessionAccount sid, s => (s.admin sid, s)
    | .hmsetScores userTable maxScore baseScore, s =>
      ((), { s with user := update s.user userTable { s.user userTable with maxScore := some maxScore, baseScore := baseScore } })

/-- A room rule that is sent on. -/
inductive Forward where
  | other (account ag : String) (rule : List Value)
  | own (sid : String) (rule : List Value)

instance : Note Own Forward where
  note
    | .lpushProtocol _ _ (.createOtherRoom account ag rule _), _ => [.other account ag rule]
    | .rpushProtocol _ _ (.createOtherRoom account ag rule _), _ => [.other account ag rule]
    | .hmsetSession sid p, _ => [.own sid p.rule]
    | _, _ => []

abbrev Handler := Prog Err (With Own)

/-! ## The rule of a room -/

/-- What `/createRoom` makes of the list of the client. -/
structure Fitted where
  isOther : Value
  rule : List Value
  needRoomCards : Int
  deriving Repr

/-- The loop over the card rules: the last `playCount`, and the cost where it breaks. -/
def findCards (needRoomCards : Int) : Nat → Option Int → List String → Except Err (Option Int × Option Int)
  | _, playCount, [] => .ok (playCount, none)
  | index, _, data :: rest =>
    let datas := split ':' data
    match datas[1]? with
    | none => .error .IndexError
    | some cards =>
      if (index : Int) = needRoomCards then
        match int cards with
        | none => .error .ValueError
        | some cards => .ok (some ((datas[2]?.bind int).getD 0), some cards)
      else findCards needRoomCards (index + 1) (some (-1)) rest

/-- `isOther`, as an integer where it is one. -/
def tryInt (v : Value) : Value :=
  match v.toInt with
  | .ok n => .int n
  | .error _ => v

/-- `if params[-1] > maxScore: params[-1] = maxScore`. Without a `maxScore` it is the integer 1. -/
def limitBase (maxScore : Option String) (base : Value) : Value :=
  let maxScore := maxScore.getD ""
  if maxScore = "" then if base.gtInt 1 then .int 1 else base
  else if base.gtStr maxScore then .str maxScore else base

/-- From `params = eval(rule)` to `params.insert(-2, playCount)`; nothing where the rules were changed. -/
def rewriteRule (maxScore : Option String) (cardRules : List String) : List Value → Except Err (Option Fitted)
  | [] => .error .IndexError
  | isOther :: params =>
    match params.reverse with
    | base :: needRoomCards :: front => do
      let k ← needRoomCards.toInt
      match ← findCards k 0 none cardRules with
      -- the loop did not set `playCount`
      | (none, _) => .error .NameError
      | (some playCount, cards) =>
        if playCount < 0 then .ok none
        else
          let cards := cards.getD k
          .ok (some ⟨tryInt isOther, front.reverse ++ [.int playCount, .int cards, limitBase maxScore base], cards⟩)
    | _ => .error .IndexError

/-! ## The text of a rule -/

/-- The line of the rounds, for the entries that cost what the room does. -/
def cardLines (cost : Value) : List String → Except Err String
  | [] => .ok ""
  | data :: rest => do
    let datas := split ':' data
    match datas[1]? with
    | none => .error .IndexError
    | some cards =>
      let playCount := match datas[2]?.bind int with
        | some n => toString n
        | none => datas.headD ""
      match int cards with
      | none => .error .ValueError
      | some cards =>
        let lines ← cardLines cost rest
        return (if cost.eqInt cards then "局数: " ++ playCount ++ "\n" else "") ++ lines

/-- `ruleDataList[int(choice)]`, or of its first part where that fails. -/
def choose (ruleDataList : List String) (choice : Value) : Except Err String :=
  match choice.toInt >>= fun i => (Value.int i).indexInto ruleDataList with
  | .ok text => .ok text
  | .error _ => do
    let i ← (← choice.first).toInt
    (Value.int i).indexInto ruleDataList

/-- The line of an option. -/
def optionLine (r : GameRule) (choice : Option Value) : Except Err String := do
  let rule ← match r.rule with
    | some rule => .ok rule
    | none => .error .AttributeError
  let ruleDataList := split ',' rule
  let type ← match r.type with
    | some type => (Value.str type).toInt
    | none => .error .TypeError
  match choice with
  | none => .error .IndexError
  | some choice =>
    if type = 1 then
      return fmt r.title ++ ": " ++ (← choose ruleDataList choice) ++ "\n"
    else
      let textList ← (← choice.items).mapM fun ruleData => ruleData.indexInto ruleDataList
      return fmt r.title ++ ": " ++ ",".intercalate textList ++ "\n"

/-- The lines of the options, each with its own value of the rule. -/
def optionLines : List GameRule → List Value → Except Err String
  | [], _ => .ok ""
  | r :: rest, ruleList => do
    let line ← optionLine r ruleList.head?
    return line ++ (← optionLines rest ruleList.tail)

/-- The text that `getRuleText` makes of what it reads. -/
def ruleText (cardRules : List String) (gameRules : List GameRule) (ruleList : List Value) : Except Err String :=
  match ruleList.reverse with
  | base :: cost :: _ => do
    let base ← base.toInt
    let cards ← cardLines cost cardRules
    let options ← optionLines gameRules ruleList
    return "底分: " ++ toString (max base 1) ++ "\n" ++ cards ++ options
  | _ => .error .IndexError

/-! ## Servers -/

structure Server where
  currency : String
  ip : String
  port : String
  deriving Repr, DecidableEq

/-- The servers that are not full. -/
def reservedServers (countPlayerLimit : Int) : List (String × Int × Int) → Except Err (List Server)
  | [] => .ok []
  | (serverTable, playerCount, roomCount) :: rest =>
    if countPlayerLimit ≠ 0 ∧ (playerCount ≥ countPlayerLimit ∨ roomCount ≥ countPlayerLimit / 4) then
      reservedServers countPlayerLimit rest
    else match split ':' serverTable with
      | [_, _, _, currency, ipData, portData] => do return ⟨currency, ipData, portData⟩ :: (← reservedServers countPlayerLimit rest)
      | _ => .error .ValueError

/-- `maxRoomCount`, for four players each, or 30. -/
def countPlayerLimit (maxRoomCount : Option String) : Except Err Int :=
  let maxRoomCount := maxRoomCount.getD ""
  if maxRoomCount = "" then .ok 30 else (Value.str maxRoomCount).toInt.map (· * 4)

/-! ## Handlers -/

inductive Reply where
  | refused (r : Refusal)
  | opened (msg ip port : String)
  /-- `{'code': 0, 'msg': .., 'jumpUrl': ..}` -/
  | modified (msg jumpUrl : String)
  | redirect (url : String)
  deriving Repr, DecidableEq

/-- `{'code': .., 'msg': ..}` -/
def Reply.msg (code : Int) (msg : String) : Reply := .refused ⟨code, msg, none⟩

def Reply.code : Reply → Int
  | .refused r => r.code
  | _ => 0

section Handlers

/-- `get_user_open_auth` -/
def getUserOpenAuth (user_open_auth agent_open_auth : Option String) : Except Err Int :=
  if agent_open_auth = some "1" then
    let user_open_auth := user_open_auth.getD ""
    if user_open_auth = "" then .ok 0 else (Value.str user_open_auth).toInt
  else .ok 1

/-- Who pays for a room. -/
structure Payer where
  ag : String
  maxScore : Option String
  open_room : Int

/-- What is asked of the user who pays: he may, or his guild is frozen. -/
def getPayer (userTable : String) : Handler (Except Reply Payer) := do
  let user ← send (.hmgetUser userTable)
  let ag := fmt user.parentAg
  let (agValid, agent_open_auth) ← send (.hmgetAgent ag)
  let open_room ← ofExcept (getUserOpenAuth user.open_auth agent_open_auth)
  if agValid ≠ some "1" then return .error (.msg (-7) "该公会已被冻结,不能创建或加入该公会的房间")
  return .ok ⟨ag, user.maxScore, open_room⟩

/-- `int(roomCards)` -/
def cardsOf : Option String → Except Err Int
  | some roomCards => (Value.str roomCards).toInt
  | none => .error .TypeError

/-- The part of both handlers that rewrites the rule and asks for its cost. -/
def fitRule (gameId : Int) (userTable : String) (payer : Payer) (rule : List Value) : Handler (Except Reply Fitted) := do
  let id ← orRaise .IndexError (split ':' userTable)[1]?
  let roomCards ← send (.getCards payer.ag id)
  let cardRules ← send (.lrangeCardRules gameId)
  match ← ofExcept (rewriteRule payer.maxScore cardRules rule) with
  | none => return .error (.msg (-1) "房间规则已修改，请重新加载创房页面")
  | some fitted =>
    let roomCards ← ofExcept (cardsOf roomCards)
    if roomCards < fitted.needRoomCards then return .error (.msg (-6) "钻石不足")
    return .ok fitted

/-- The message to the server that the user waits for, if he waits for one. -/
def notJoin (account ag : String) : Handler Unit := do
  match ← send (.getWantServer account) with
  -- the source catches what is raised here
  | none => return ()
  | some wanted => match split ',' wanted with
    | [game, serviceTag] => send (.lpushProtocol game serviceTag (.notJoinPartyRoom account ag))
    | _ => return ()

/-- A user who opens a room waits for no party any more. -/
def leaveWaiting (account ag : String) : Handler Unit := do
  let key := (← send (.getWaitKey account)).getD ""
  if key = "" then return ()
  if account ∈ (← send (.lrangeWaiting key)) then do
    notJoin account ag
    send (.lremWaiting key account)

def leaveUnlessOther (fitted : Fitted) (account ag : String) : Handler Unit :=
  if fitted.isOther.truthy then return () else leaveWaiting account ag

/-- The first server of a game that is not full. -/
def freeServer (gameId : Int) : Handler (Option Server) := do
  let limit ← ofExcept (countPlayerLimit (← send (.hgetMaxRoomCount gameId)))
  let serverList ← send (.lrangeServers gameId)
  let loads ← collect serverList fun serverTable => do
    let counts ← send (.hincrbyCounts serverTable)
    return (serverTable, counts)
  let reserved ← ofExcept (reservedServers limit loads)
  return reserved.head?

def getRuleText (rule : List Value) (gameId : Int) : Handler String := do
  let cardRules ← send (.lrangeCardRules gameId)
  let ruleNums ← send (.lrangeGameRules gameId)
  let gameRules ← collect ruleNums fun ruleNum => send (.hmgetGameRule gameId ruleNum)
  ofExcept (ruleText cardRules gameRules rule)

/-- Where a server takes its protocols. -/
def Server.tag (server : Server) : String := server.currency ++ ":" ++ server.ip ++ ":" ++ server.port

/-- `/createRoom` -/
structure RoomForm where
  gameid : String
  /-- `eval(rule)` -/
  rule : List Value
  sid : String
  hidden : String
  /-- `urlparse(request.url).netloc` -/
  netloc : String

/-- The room is sent to its server, or kept for the user who goes there. -/
def sendRoom (form : RoomForm) (gameId : Int) (account : String) (payer : Payer) (fitted : Fitted) (server : Server) : Handler Reply := do
  let ruleText ← getRuleText fitted.rule gameId
  if fitted.isOther.truthy then
    if payer.open_room = 0 then return .msg (-1000) "没有代开房间权限"
    let hidden ← ofExcept (Value.str form.hidden).toInt
    send (.rpushProtocol (toString gameId) server.tag (.createOtherRoom account payer.ag (fitted.rule ++ [.int hidden]) ruleText))
    return .opened "房间开启成功" "" ""
  send (.hmsetSession form.sid ⟨fitted.rule, ruleText, form.hidden⟩)
  return .opened "" ((split ':' form.netloc).headD "") server.port

def doCreateRoom (form : RoomForm) : Handler Reply := do
  let gameId ← orRaise .ValueError (int form.gameid)
  match ← hallUser form.sid with
  | .error e => return .refused e
  | .ok (account, userTable) =>
  match ← getPayer userTable with
  | .error reply => return reply
  | .ok payer =>
  -- only 557 of the gold games is opened by users
  if toString gameId ∈ (← send .smembersGold) ∧ toString gameId ≠ "557" then
    return .msg (-1) "该游戏不能通过代开房间或房主开房启动"
  match ← fitRule gameId userTable payer form.rule with
  | .error reply => return reply
  | .ok fitted =>
  leaveUnlessOther fitted (fmt account) payer.ag
  match ← freeServer gameId with
  | none => return .msg (-1) "服务器忙碌或维护中"
  | some server => sendRoom form gameId (fmt account) payer fitted server

/-! ## Base scores -/

/-- `/member/modify`: the scores are the fields `score1` to `score20`, and `maxScore` is not read. -/
structure ModifyForm where
  memberId : String
  scores : Fin 20 → String
  cur_page : String

def doModifyMember (sid : String) (modify_type : String) (form : ModifyForm) : Handler Reply := do
  if (← send (.sessionAccount sid)).getD "" = "" then return .redirect "/admin/login"
  let cur_page := if form.cur_page = "" then 1 else (int form.cur_page).getD 0
  if form.memberId = "" then return .msg 1 "非法修改会员!"
  let score_list := List.ofFn form.scores
  let base_score_list := score_list.filter (· ≠ "")
  send (.hmsetScores (userTableOf form.memberId) (score_list.max?.getD "") base_score_list)
  let jump_url := if modify_type = "cards" then "/admin/member/list?&pageNumber=" ++ toString cur_page
    else "/admin/fish/member/list?&pageNumber=" ++ toString cur_page
  return .modified ("修改会员(" ++ form.memberId ++ ")成功") jump_url

end Handlers

end FishWeb.Room
