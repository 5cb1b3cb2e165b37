import FishWeb.Common.Model
/-!
# Admission to a room of gold

`/joinGoldRoom` of `hall/hall_gold.py` and the classes of `model/partyModel.py`. What a class
needs is a field of the request, `need`, beside the class itself, `id`: the gold is compared
with what was sent, and the class is handed on. So the gold is within the need of the class
only where the request says so or is turned away (`join_right_iff`).

The `uuid` is an input. Left out: how long the record of a waiting user lives, and what else
a class has.
-/
open Python Prog

namespace FishWeb.GoldRoom

open Common

/-! ## The classes -/

structure RoomClass where
  id : Nat
  need : List Int
  gameid : String
  deriving Repr, DecidableEq

def PARTY_GOLD_GAME_LIST : List RoomClass :=
  [⟨0, [2000, 150000], "1"⟩, ⟨1, [20000, 750000], "1"⟩, ⟨2, [30000], "1"⟩, ⟨3, [80000], "1"⟩, ⟨4, [200000], "1"⟩, ⟨5, [600000], "1"⟩]

/-- The gold is at least the lower need, and at most the upper one where there is one. -/
def RoomClass.Admits (c : RoomClass) (coin : Int) : Prop := (∀ lo ∈ c.need[0]?, lo ≤ coin) ∧ ∀ hi ∈ c.need[1]?, coin ≤ hi

instance (c : RoomClass) (coin : Int) : Decidable (c.Admits coin) := inferInstanceAs (Decidable (_ ∧ _))

/-! ## The store -/

structure St where
  shared : Shared
  /-- The field `parentAg` of a user. -/
  parentAg : String → Option String
  /-- The games that have a table. -/
  isGame : String → Bool
  /-- `FORMAT_GAME_SERVICE_SET % gameid` -/
  servers : String → List String
  /-- `GOLD_ROOM_ACCOUNT_KEY % account` -/
  roomKey : String → Option String
  /-- The fields `roomid` and `playid` of a room. -/
  room : String → Option String × Option String
  /-- The fields `ip`, `port` and `gameid` of `ROOM2SERVER % roomid`. -/
  room2server : String → Option String × Option String × Option String
  /-- The field `gold` of `FORMAT_USER_TABLE % uid`. -/
  gold : String → Option String
  /-- `FORMAT_SERVICE_PROTOCOL_TABLE % (gameid, service)` -/
  protocol : String → String → List String
  /-- The fields `playid` and `gameid` of `GOLD_ACCOUNT_WAIT_JOIN_TABLE % account`. -/
  wait : String → Option (String × String)

instance : HasShared St := ⟨St.shared⟩

inductive Cmd : Type → Type
  | hgetParentAg (userTable : String) : Cmd (Option String)
  | existsGame (gameid : String) : Cmd Bool
  | lrangeServers (gameid : String) : Cmd (List String)
  | getRoomKey (account : String) : Cmd (Option String)
  | hmgetRoom (key : String) : Cmd (Option String × Option String)
  | hmgetRoom2server (roomid : String) : Cmd (Option String × Option String × Option String)
  | deleteRoomKey (account : String) : Cmd Unit
  | hgetGold (uid : String) : Cmd (Option String)
  | rpushProtocol (gameid service protocolStr : String) : Cmd Unit
  | hmsetWait (account playid gameid : String) : Cmd Unit

open Function (update)

instance : Exec Cmd St where
  exec
    | .hgetParentAg userTable, s => (s.parentAg userTable, s)
    | .existsGame gameid, s => (s.isGame gameid, s)
    | .lrangeServers gameid, s => (s.servers gameid, s)
    | .getRoomKey account, s => (s.roomKey account, s)
    | .hmgetRoom key, s => (s.room key, s)
    | .hmgetRoom2server roomid, s => (s.room2server roomid, s)
    | .deleteRoomKey account, s => ((), { s with roomKey := update s.roomKey account none })
    | .hgetGold uid, s => (s.gold uid, s)
    | .rpushProtocol gameid service protocolStr, s =>
      ((), { s with protocol := update s.protocol gameid (update (s.protocol gameid) service (s.protocol gameid service ++ [protocolStr])) })
    | .hmsetWait account playid gameid, s => ((), { s with wait := update s.wait account (some (playid, gameid)) })

/-- A protocol is handed to a server of a game. -/
structure Handed where
  gameid : String
  protocolStr : String
  deriving Repr, DecidableEq

instance : Note Cmd Handed where
  note
    | .rpushProtocol gameid _ protocolStr, _ => [⟨gameid, protocolStr⟩]
    | _, _ => []

abbrev Handler := Prog Err (With Cmd)

/-! ## The handler -/

structure Reply where
  code : Int
  msg : String
  osid : Option String := none
  deriving Repr, DecidableEq

/-- The form, and the `uuid` of the request. -/
structure Request where
  gameid : String
  playid : String
  sid : String
  need : String
  cost : String
  baseScore : String
  uuid : String
  deriving Repr, DecidableEq

/-- `'%s:%s:%s' % (currency, ip, port)` of `_, _, _, currency, ip, port = serverTable.split(':')` -/
def serviceOf (serverTable : String) : Option String :=
  match split ':' serverTable with
  | [_, _, _, currency, ip, port] => some (currency ++ ":" ++ ip ++ ":" ++ port)
  | _ => none

def sendProtocol2GameService (gameid protocolStr : String) : Handler Unit := do
  let serverList ← send (.lrangeServers gameid)
  forEach serverList fun serverTable => do
    let service ← orRaise .ValueError (serviceOf serverTable)
    send (.rpushProtocol gameid service protocolStr)

/-- What to answer to a user who has a room. -/
def checkRoom (r : Request) (account : String) : Handler (Option Reply) := do
  let myroom_key := (← send (.getRoomKey account)).getD ""
  if myroom_key = "" then return none
  let (roomid, myplayid) ← send (.hmgetRoom myroom_key)
  let (ip, port, gameid) ← send (.hmgetRoom2server (fmt roomid))
  if ip.getD "" ≠ "" ∧ port.getD "" ≠ "" ∧ gameid.getD "" ≠ "" then
    if some r.playid ≠ myplayid ∨ gameid ≠ some r.gameid then return some ⟨-1, "您正在别的场次游戏中", none⟩
    else return some ⟨0, "已经在金币场中", none⟩
  else
    send (.deleteRoomKey account)
    return none

/-- `int(x)`, where a missing number is 0. -/
def numberOr0 (x : String) : Option Int := if x = "" then some 0 else int x

/-- `min_need` and `max_need`; `none` is a `ValueError`. -/
def needOf (need : String) : Option (Int × Int) :=
  match split ',' need with
  | [] => none
  | [min_need] => (numberOr0 min_need).map (·, 9999999999)
  | min_need :: max_need :: _ => do return (← numberOr0 min_need, ← int max_need)

/-- `"joinGoldRoom|%s|%s|%s" % (account, playid, _uuid)` -/
def joinProtocol (account playid uuid : String) : String := "joinGoldRoom|" ++ account ++ "|" ++ playid ++ "|" ++ uuid

/-- `do_JoinGoldRoom` -/
def doJoinGoldRoom (r : Request) : Handler Reply := do
  let _ ← orRaise .ValueError (int r.cost)
  let _ ← orRaise .ValueError (int r.baseScore)
  match ← hallUser r.sid with
  | .error e => return ⟨e.code, e.msg, e.osid⟩
  | .ok (account, userTable) =>
    if (← send (.hgetParentAg userTable)).getD "" = "" then return ⟨-7, "您已被移出公会，请重新加入公会", none⟩
    if !(← send (.existsGame r.gameid)) then return ⟨-1, "gameId 不存在", none⟩
    if (← send (.lrangeServers r.gameid)) = [] then return ⟨-1, "服务器忙碌或维护中", none⟩
    match ← checkRoom r (fmt account) with
    | some reply => return reply
    | none =>
      let uid ← orRaise .IndexError (split ':' userTable)[1]?
      let coin ← orRaise .ValueError (numberOr0 ((← send (.hgetGold uid)).getD ""))
      let (min_need, max_need) ← orRaise .ValueError (needOf r.need)
      if coin < min_need then return ⟨-2, "您携带的金币数不足以进入本场次游戏，请充值后进入。", none⟩
      if coin > max_need then return ⟨-1, "您携带的金币数超出本场次上限，请进入更高一级的场次游戏。", none⟩
      sendProtocol2GameService r.gameid (joinProtocol (fmt account) r.playid r.uuid)
      send (.hmsetWait (fmt account) r.playid r.gameid)
      return ⟨0, "加入金币场成功", none⟩

/-! ## Which requests are handed on -/

/-- The gold of the user whose session it is. -/
def St.coin (s : St) (sid : String) : Option Int :=
  match s.shared.hall sid with
  | .ok (_, userTable) => (split ':' userTable)[1]?.bind fun uid => numberOr0 ((s.gold uid).getD "")
  | .error _ => none

/-- The user has a room, and the room a server. -/
def St.InRoom (s : St) (account : String) : Prop :=
  (s.roomKey account).getD "" ≠ "" ∧
    let (ip, port, gameid) := s.room2server (fmt (s.room ((s.roomKey account).getD "")).1)
    ip.getD "" ≠ "" ∧ port.getD "" ≠ "" ∧ gameid.getD "" ≠ ""

instance (s : St) (account : String) : Decidable (s.InRoom account) := inferInstanceAs (Decidable (_ ∧ _ ∧ _ ∧ _))

/-- Nothing but the need of its class keeps the request from a server: the gold is within the need that it sends. -/
structure Passes (r : Request) (s : St) (coin : Int) : Prop where
  cost : (int r.cost).isSome
  baseScore : (int r.baseScore).isSome
  user : ∃ account userTable, s.shared.hall r.sid = .ok (account, userTable) ∧ (s.parentAg userTable).getD "" ≠ "" ∧ ¬s.InRoom (fmt account)
  game : s.isGame r.gameid = true
  server : ∃ serverTable, (s.servers r.gameid).head? = some serverTable ∧ (serviceOf serverTable).isSome
  gold : s.coin r.sid = some coin
  need : ∃ min_need max_need, needOf r.need = some (min_need, max_need) ∧ min_need ≤ coin ∧ coin ≤ max_need

/-- The protocol that lets the user join the class is among those handed to servers of the game. -/
def Joins (r : Request) (l : List Handed) : Prop := ∃ account, ⟨r.gameid, joinProtocol account r.playid r.uuid⟩ ∈ l

theorem not_joins_nil (r : Request) : ¬Joins r [] := fun ⟨_, h⟩ => absurd h List.not_mem_nil

variable {r : Request} {s : St}

/-- A user who has no room with a server goes on. -/
theorem ran_checkRoom (r : Request) (account : String) (s : St) :
    (s.InRoom account ∧ ∃ reply, Ran (checkRoom r account) s (.ok (some reply)) s ([] : List Handed)) ∨
    ¬s.InRoom account ∧ ∃ key, Ran (checkRoom r account) s (.ok none) { s with roomKey := key } ([] : List Handed) := by
  unfold checkRoom St.InRoom
  by_cases hkey : (s.roomKey account).getD "" = ""
  · refine .inr ⟨fun h => h.1 hkey, s.roomKey, ?_, ?_⟩
    · simp [send, Exec.exec, hkey]
    · simp [send, Exec.exec, hkey, Note.note]
  generalize hroom : s.room ((s.roomKey account).getD "") = room
  generalize hserver : s.room2server (fmt room.1) = server
  by_cases hlive : server.1.getD "" ≠ "" ∧ server.2.1.getD "" ≠ "" ∧ server.2.2.getD "" ≠ ""
  · refine .inl ⟨⟨hkey, hlive⟩, ?_⟩
    by_cases helse : some r.playid ≠ room.2 ∨ server.2.2 ≠ some r.gameid
    · refine ⟨⟨-1, "您正在别的场次游戏中", none⟩, ?_, ?_⟩
      · simp [send, Exec.exec, hkey, hroom, hserver, hlive, helse]
      · simp [send, Exec.exec, hkey, hroom, hserver, hlive, helse, Note.note]
    · refine ⟨⟨0, "已经在金币场中", none⟩, ?_, ?_⟩
      · simp [send, Exec.exec, hkey, hroom, hserver, hlive, helse]
      · simp [send, Exec.exec, hkey, hroom, hserver, hlive, helse, Note.note]
  · refine .inr ⟨fun h => hlive h.2, update s.roomKey account none, ?_, ?_⟩
    · simp [send, Exec.exec, hkey, hroom, hserver, hlive]
    · simp [send, Exec.exec, hkey, hroom, hserver, hlive, Note.note]

/-- A protocol is handed on unless the first server is not read. -/
theorem trace_send (gameid protocolStr : String) {serverTable : String} (h : (s.servers gameid).head? = some serverTable) (k : Unit → Handler Reply) :
    (serviceOf serverTable).isSome ∧ ⟨gameid, protocolStr⟩ ∈ trace Handed (sendProtocol2GameService gameid protocolStr >>= k) s ∨
    serviceOf serverTable = none ∧ trace Handed (sendProtocol2GameService gameid protocolStr >>= k) s = [] := by
  obtain ⟨rest, hservers⟩ := List.head?_eq_some_iff.1 h
  unfold sendProtocol2GameService
  have htrace : trace Handed ((send (.lrangeServers gameid) : Handler _) >>= fun serverList => forEach serverList (fun serverTable => do
      let service ← orRaise .ValueError (serviceOf serverTable)
      send (.rpushProtocol gameid service protocolStr)) >>= k) s =
      trace Handed (forEach (s.servers gameid) (fun serverTable => do
      let service ← orRaise .ValueError (serviceOf serverTable)
      send (.rpushProtocol gameid service protocolStr)) >>= k) s := rfl
  rw [bind_assoc, htrace, hservers, forEach_cons]
  cases hservice : serviceOf serverTable with
  | none => exact .inr ⟨rfl, rfl⟩
  | some service => exact .inl ⟨rfl, List.mem_cons_self⟩

/-- For a user who passes the checks before, the gold decides, and whether the first server is read. -/
theorem joins_rest_iff (account : Option String) (userTable : String) (hservers : s.servers r.gameid ≠ []) :
    Comes (fun _ _ l => Joins r l) (do
      let uid ← orRaise .IndexError (split ':' userTable)[1]?
      let coin ← orRaise .ValueError (numberOr0 ((← send (.hgetGold uid)).getD ""))
      let (min_need, max_need) ← orRaise .ValueError (needOf r.need)
      if coin < min_need then return ⟨-2, "您携带的金币数不足以进入本场次游戏，请充值后进入。", none⟩
      if coin > max_need then return ⟨-1, "您携带的金币数超出本场次上限，请进入更高一级的场次游戏。", none⟩
      sendProtocol2GameService r.gameid (joinProtocol (fmt account) r.playid r.uuid)
      send (.hmsetWait (fmt account) r.playid r.gameid)
      return ⟨0, "加入金币场成功", none⟩ : Handler Reply) s ↔
    ∃ coin, ((split ':' userTable)[1]?.bind fun uid => numberOr0 ((s.gold uid).getD "")) = some coin ∧
      (∃ min_need max_need, needOf r.need = some (min_need, max_need) ∧ min_need ≤ coin ∧ coin ≤ max_need) ∧
      ∃ serverTable, (s.servers r.gameid).head? = some serverTable ∧ (serviceOf serverTable).isSome := by
  cases huid : (split ':' userTable)[1]? with
  | none => exact iff_of_false (not_joins_nil r) fun ⟨_, h, _⟩ => nomatch h
  | some uid =>
  rw [orRaise_some, ret_bind, Option.bind_some]
  show Comes (fun _ _ l => Joins r l) (orRaise .ValueError (numberOr0 ((s.gold uid).getD "")) >>= _ : Handler Reply) s ↔ _
  cases hgold : numberOr0 ((s.gold uid).getD "") with
  | none => exact iff_of_false (not_joins_nil r) fun ⟨_, h, _⟩ => nomatch h
  | some coin =>
  rw [orRaise_some, ret_bind]
  cases hneed : needOf r.need with
  | none => exact iff_of_false (not_joins_nil r) fun ⟨_, _, ⟨_, _, h, _⟩, _⟩ => nomatch h
  | some need =>
  obtain ⟨min_need, max_need⟩ := need
  rw [orRaise_some, ret_bind]
  dsimp only
  by_cases hmin : coin < min_need
  · rw [if_pos hmin]
    refine iff_of_false (not_joins_nil r) ?_
    rintro ⟨_, ⟨⟩, ⟨_, _, ⟨⟩, hle, -⟩, -⟩
    exact absurd hle (not_le.2 hmin)
  rw [if_neg hmin]
  by_cases hmax : coin > max_need
  · rw [if_pos hmax]
    refine iff_of_false (not_joins_nil r) ?_
    rintro ⟨_, ⟨⟩, ⟨_, _, ⟨⟩, -, hle⟩, -⟩
    exact absurd hle (not_le.2 hmax)
  rw [if_neg hmax]
  obtain ⟨serverTable, rest, hlist⟩ := List.exists_cons_of_ne_nil hservers
  have hhead : (s.servers r.gameid).head? = some serverTable := by rw [hlist]; rfl
  rcases trace_send r.gameid (joinProtocol (fmt account) r.playid r.uuid) hhead _ with ⟨hservice, hmem⟩ | ⟨hservice, hnil⟩
  · exact iff_of_true ⟨fmt account, hmem⟩
      ⟨coin, rfl, ⟨min_need, max_need, rfl, not_lt.1 hmin, not_lt.1 hmax⟩, serverTable, hhead, hservice⟩
  · refine iff_of_false ?_ ?_
    · have hnot := not_joins_nil r
      rw [← hnil] at hnot
      exact hnot
    · rintro ⟨_, -, -, serverTable', hhead', hsome⟩
      obtain rfl : serverTable = serverTable' := Option.some.inj (hhead.symm.trans hhead')
      rw [hservice] at hsome
      cases hsome

/-- What of the store decides is not written before a protocol is handed on. -/
theorem joins_iff : Comes (fun _ _ l => Joins r l) (doJoinGoldRoom r) s ↔ ∃ coin, Passes r s coin := by
  unfold doJoinGoldRoom
  cases hcost : int r.cost with
  | none => exact iff_of_false (not_joins_nil r) fun ⟨_, h⟩ => by simpa [hcost] using h.cost
  | some cost =>
  cases hbase : int r.baseScore with
  | none => exact iff_of_false (not_joins_nil r) fun ⟨_, h⟩ => by simpa [hbase] using h.baseScore
  | some baseScore =>
  rw [orRaise_some, ret_bind, orRaise_some, ret_bind, (ran_hallUser r.sid s).comes_bind_iff, show HasShared.shared s = s.shared from rfl]
  cases huser : s.shared.hall r.sid with
  | error e =>
    refine iff_of_false (not_joins_nil r) fun ⟨_, h⟩ => ?_
    obtain ⟨account, userTable, hok, -⟩ := h.user
    rw [huser] at hok
    cases hok
  | ok u =>
  obtain ⟨account, userTable⟩ := u
  dsimp only
  have honly : ∀ {coin}, Passes r s coin → (s.parentAg userTable).getD "" ≠ "" ∧ ¬s.InRoom (fmt account) := by
    rintro coin h
    obtain ⟨account', userTable', hok, hguild⟩ := h.user
    rw [huser] at hok
    cases hok
    exact hguild
  show Comes (fun _ _ l => Joins r l) (if (s.parentAg userTable).getD "" = "" then _ else _ : Handler Reply) s ↔ _
  by_cases hguild : (s.parentAg userTable).getD "" = ""
  · rw [if_pos hguild]
    exact iff_of_false (not_joins_nil r) fun ⟨_, h⟩ => (honly h).1 hguild
  rw [if_neg hguild]
  show Comes (fun _ _ l => Joins r l) (if !s.isGame r.gameid then _ else _ : Handler Reply) s ↔ _
  cases hgame : s.isGame r.gameid with
  | false => exact iff_of_false (not_joins_nil r) fun ⟨_, h⟩ => by simpa [hgame] using h.game
  | true =>
  show Comes (fun _ _ l => Joins r l) (if s.servers r.gameid = [] then _ else _ : Handler Reply) s ↔ _
  by_cases hservers : s.servers r.gameid = []
  · rw [if_pos hservers]
    refine iff_of_false (not_joins_nil r) fun ⟨_, h⟩ => ?_
    obtain ⟨serverTable, hhead, -⟩ := h.server
    rw [hservers] at hhead
    cases hhead
  rw [if_neg hservers]
  rcases ran_checkRoom r (fmt account) s with ⟨hroom, reply, hran⟩ | ⟨hroom, key, hran⟩
  · rw [hran.comes_bind_iff]
    exact iff_of_false (not_joins_nil r) fun ⟨_, h⟩ => (honly h).2 hroom
  rw [hran.comes_bind_iff]
  dsimp only
  rw [joins_rest_iff account userTable (s := { s with roomKey := key }) hservers]
  have hcoin : s.coin r.sid = (split ':' userTable)[1]?.bind fun uid => numberOr0 ((s.gold uid).getD "") := by
    unfold St.coin
    rw [huser]
  dsimp only
  rw [← hcoin]
  constructor
  · rintro ⟨coin, hgold, hneed, hserver⟩
    exact ⟨coin, by rw [hcost]; rfl, by rw [hbase]; rfl, ⟨account, userTable, huser, hguild, hroom⟩, hgame, hserver, hgold, hneed⟩
  · rintro ⟨coin, h⟩
    exact ⟨coin, h.gold, h.need, h.server⟩

/-! ## Admission -/

/-- The class is the one the request names. -/
def RoomClass.Named (c : RoomClass) (r : Request) : Prop := toString c.id = r.playid ∧ c.gameid = r.gameid

/-- A request that is handed on for a class has gold within its need. -/
def Right (classes : List RoomClass) (r : Request) (s : St) : Prop :=
  Comes (fun _ _ l => Joins r l → ∃ coin, s.coin r.sid = some coin ∧ ∀ c ∈ classes, c.Named r → c.Admits coin) (doJoinGoldRoom r) s

/-- For every request and every store: only gold within the need of the class is handed on exactly when the gold that the
request lets pass is within it. -/
theorem join_right_iff (classes : List RoomClass) (r : Request) (s : St) :
    Right classes r s ↔ ∀ coin, Passes r s coin → ∀ c ∈ classes, c.Named r → c.Admits coin := by
  constructor
  · intro hright coin hpass c hc hnamed
    obtain ⟨coin', hcoin', hadmits⟩ := hright (joins_iff.2 ⟨coin, hpass⟩)
    obtain rfl : coin = coin' := Option.some.inj (hpass.gold.symm.trans hcoin')
    exact hadmits c hc hnamed
  · intro hall hjoins
    obtain ⟨coin, hpass⟩ := joins_iff.1 hjoins
    exact ⟨coin, hpass.gold, hall coin hpass⟩

/-- A user with 10 pieces of gold, a session `s` and one server of the game. -/
def poor : St where
  shared :=
    { session := fun _ => some ("a", "7"), platform := fun _ => some "s", kick := fun _ => false, userTable := fun _ => some "users:7"
      isUser := fun _ => true, active := fun _ => none }
  parentAg := fun _ => some "2"
  isGame := fun _ => true
  servers := fun _ => ["service:game:1:c:10.0.0.1:80"]
  roomKey := fun _ => none
  room := fun _ => (none, none)
  room2server := fun _ => (none, none, none)
  gold := fun _ => some "10"
  protocol := fun _ _ => []
  wait := fun _ => none

/-- The class of 600000 is joined with 10, since the request says that 0 is needed. -/
theorem join_poor : ¬Right PARTY_GOLD_GAME_LIST ⟨"1", "5", "s", "0", "1", "1", "u"⟩ poor := by
  intro hright
  obtain ⟨coin, hcoin, hadmits⟩ := hright ⟨"a", by decide +kernel⟩
  obtain rfl : 10 = coin := Option.some.inj ((show some 10 = poor.coin "s" by decide +kernel).trans hcoin)
  exact absurd (hadmits ⟨5, [600000], "1"⟩ (by decide) ⟨by decide, rfl⟩) (by decide)

end FishWeb.GoldRoom
