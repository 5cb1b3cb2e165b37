import FishWeb.JoinRoom.Model
/-!
# Which servers admit players

The limit of players is the digits of `max_player_count` written `maxRoomCount` times,
which is at least the product; the number of rooms is compared with a string and never
reaches it. So every server below the product is offered, and one between the product
and the limit, or with all its rooms, is offered too.
-/
open Python Prog Counters FishWeb.Common

namespace FishWeb.JoinRoom

/-- A string of digits, and its number. -/
structure IsDecimal (x : String) (n : Nat) : Prop where
  ne_nil : x.toList ≠ []
  digits : ∀ c ∈ x.toList, c.isDigit = true
  int_eq : int x = some (n : Int)

/-- The limits of the game. -/
structure Configured (s : Setup) (gameId : Int) (R S : Nat) : Prop where
  rooms : ∃ x, s.maxRoomCount gameId = some x ∧ IsDecimal x R
  players : ∃ x, s.maxPlayerCount (toString gameId) = some x ∧ IsDecimal x S
  rooms_pos : 0 < R
  players_pos : 0 < S

/-- `'service:game:%s:%s:%s:%s' % (gameId, currency, ip, port)` -/
def Registered (gameId : Int) (serverTable : String) : Prop :=
  ∃ currency ip port, split ':' serverTable = ["service", "game", toString gameId, currency, ip, port]

/-- The server has less than `R * S` players and less than `R` rooms. -/
def Qualifies (s : St) (R S : Nat) (serverTable : String) : Prop :=
  val s.playerCount serverTable < R * S ∧ val s.roomCount serverTable < R

/-- The string `max_player_count` written `R` times. -/
def Setup.written (s : Setup) (gameId : Int) (R : Nat) : Option Int :=
  (s.maxPlayerCount (toString gameId)).bind fun x => int (times R x)

/-- What is offered qualifies, and the answer is busy when nothing does. -/
structure Admission (s : St) (r : Req) (gameId : Int) (R S : Nat) : Prop where
  offered : ∀ l, (run (reservedServers gameId) s).1 = .ok l → ∀ server ∈ l, ∀ t ∈ s.setup.servers gameId,
    serverOf t = some server → Qualifies s R S t
  sent : ∀ reply, (run (doJoinRoom r) s).1 = .ok reply → reply.code = 0 → ∃ t ∈ s.setup.servers gameId,
    ∃ server, serverOf t = some server ∧ reply.port = some server.port ∧ Qualifies s R S t
  busy : (run (doJoinRoom r) s).1 = .ok .busy ↔ ∀ t ∈ s.setup.servers gameId, ¬Qualifies s R S t

/-- Every server with fewer players than the number written qualifies. -/
def Fits (s : St) (gameId : Int) (R S : Nat) : Prop :=
  ∀ t ∈ s.setup.servers gameId, ∀ limit, s.setup.written gameId R = some limit → val s.playerCount t < limit →
    Qualifies s R S t

/-! ## Servers -/

theorem serverOf_isSome {gameId : Int} {t : String} (h : Registered gameId t) : (serverOf t).isSome := by
  obtain ⟨currency, ip, port, h⟩ := h
  unfold serverOf
  rw [h]
  rfl

/-- A registered server is known by its address. -/
theorem serverOf_injective {gameId : Int} {t t' : String} (h : Registered gameId t) (h' : Registered gameId t')
    (heq : serverOf t = serverOf t') : t = t' := by
  obtain ⟨currency, ip, port, h⟩ := h
  obtain ⟨currency', ip', port', h'⟩ := h'
  unfold serverOf at heq
  rw [h, h'] at heq
  obtain ⟨rfl, rfl, rfl⟩ := Server.mk.inj (Option.some.inj heq)
  exact split_injective ':' (h.trans h'.symm)

/-! ## What is reserved -/

theorem val_incrby_zero (t : Table String) (k : String) : val (incrby t k 0) = val t := by
  funext j
  rw [val_incrby]
  simp

/-- The loop keeps the servers with fewer players than the limit. -/
theorem run_reserve {rooms : String} {limit : Int} (hlimit : 0 < limit) (servers : List String)
    (hreg : ∀ t ∈ servers, (serverOf t).isSome) {v : Value} (hv : v.toInt = .ok limit) (s : St) :
    ∃ s', run (reserve (.str rooms) servers v) s =
        (.ok ((servers.filter (val s.playerCount · < limit)).filterMap serverOf), s') ∧ s'.setup = s.setup := by
  induction servers generalizing v s with
  | nil => exact ⟨s, rfl, rfl⟩
  | cons t servers ih =>
    obtain ⟨server, hserver⟩ := Option.isSome_iff_exists.1 (hreg t List.mem_cons_self)
    -- an increment by zero leaves the numbers as they are
    obtain ⟨s₂, hs₂⟩ : ∃ s₂ : St, s₂ = { s with
        playerCount := incrby s.playerCount t 0, roomCount := incrby s.roomCount t 0 } := ⟨_, rfl⟩
    have hval : val s₂.playerCount = val s.playerCount := by rw [hs₂]; exact val_incrby_zero ..
    have hsetup : s₂.setup = s.setup := by rw [hs₂]
    obtain ⟨s', hrun, hs'⟩ := ih (fun t ht => hreg t (List.mem_cons_of_mem _ ht)) (v := .int limit) rfl s₂
    rw [hval] at hrun
    refine ⟨s', ?_, hs'.trans hsetup⟩
    have hplayers : run (send (.hincrbyPlayerCount t 0) : Handler Int) s =
        (.ok (val s.playerCount t), { s with playerCount := incrby s.playerCount t 0 }) := by
      simp [send, Exec.exec]
    have hrooms : run (send (.hincrbyRoomCount t 0) : Handler Int) { s with playerCount := incrby s.playerCount t 0 } =
        (.ok (val s.roomCount t), s₂) := by
      simp [send, Exec.exec, hs₂]
    unfold reserve
    rw [run_bind_ok hplayers, run_bind_ok hrooms, hv, ofExcept_ok, ret_bind]
    by_cases hfull : val s.playerCount t < limit
    · have hcond : ¬(limit ≠ 0 ∧ (val s.playerCount t ≥ limit ∨ geValue (val s.roomCount t) (.str rooms) = true)) := by
        simp [geValue, Value.gtInt, hfull]
      rw [if_neg hcond, hserver, orRaise_some, ret_bind, run_bind_ok hrun]
      simp [hfull, hserver]
    · have hcond : limit ≠ 0 ∧ (val s.playerCount t ≥ limit ∨ geValue (val s.roomCount t) (.str rooms) = true) :=
        ⟨hlimit.ne', .inl (not_lt.1 hfull)⟩
      rw [if_pos hcond, hrun]
      simp [hfull]

/-- Servers with fewer players than the number written are reserved. -/
theorem run_reservedServers {s : St} {gameId : Int} {R S : Nat} (hconf : Configured s.setup gameId R S)
    (hreg : ∀ t ∈ s.setup.servers gameId, Registered gameId t) :
    ∃ limit : Int, R * S ≤ limit ∧ s.setup.written gameId R = some limit ∧
      ∃ s', run (reservedServers gameId) s =
        (.ok (((s.setup.servers gameId).filter (val s.playerCount · < limit)).filterMap serverOf), s') ∧
        s'.setup = s.setup := by
  obtain ⟨rooms, hrooms, hR⟩ := hconf.rooms
  obtain ⟨players, hplayers, hS⟩ := hconf.players
  obtain ⟨k, m, hk, hm, hle⟩ := int_times hconf.rooms_pos hS.ne_nil hS.digits
  obtain rfl : m = S := Int.ofNat.inj (Option.some.inj (hm.symm.trans hS.int_eq))
  have hlimit : (0 : Int) < k := by
    have hpos := Nat.mul_pos hconf.rooms_pos hconf.players_pos
    omega
  have hrooms' : rooms ≠ "" := fun h => hR.ne_nil (by rw [h]; rfl)
  have hplayers' : players ≠ "" := fun h => hS.ne_nil (by rw [h]; rfl)
  have hwritten : s.setup.written gameId R = some (k : Int) := by
    unfold Setup.written
    rw [hplayers]
    exact hk
  refine ⟨k, by exact_mod_cast hle, hwritten, ?_⟩
  have hplayerLimit : run (playerLimit gameId) s = (.ok (.str (times R players), .str rooms), s) := by
    have hgetRooms : run (send (.hgetMaxRoomCount gameId) : Handler _) s = (.ok (some rooms), s) := by
      simp [send, Exec.exec, hrooms]
    have hgetPlayers : run (send (.hgetMaxPlayerCount (toString gameId)) : Handler _) s = (.ok (some players), s) := by
      rw [← hplayers]
      rfl
    unfold playerLimit
    rw [run_bind_ok hgetRooms, run_bind_ok hgetPlayers]
    simp [hrooms', hplayers', hR.int_eq]
  have hlist : run (send (.lrangeServers gameId) : Handler _) s = (.ok (s.setup.servers gameId), s) := rfl
  have hint : (Value.str (times R players)).toInt = .ok (k : Int) := by simp [Value.toInt, hk]
  unfold reservedServers
  rw [run_bind_ok hplayerLimit, run_bind_ok hlist]
  exact run_reserve hlimit _ (fun t ht => serverOf_isSome (hreg t ht)) hint s

/-! ## The answer -/

theorem run_setActive (now_day : String) (uid : Option String) (s : St) :
    ∃ s', run (setActive now_day uid) s = (.ok (), s') ∧ s'.setup = s.setup ∧ s'.playerCount = s.playerCount := by
  unfold setActive
  split
  · exact ⟨s, rfl, rfl, rfl⟩
  · exact ⟨_, rfl, rfl, rfl⟩

/-- The server chosen is one of those reserved. -/
theorem run_chooseServer (account : String) (gameId : Int) (first : Server) (rest : List Server) (s : St) :
    ∃ server ∈ first :: rest, run (chooseServer account gameId first (first :: rest)) s = (.ok server, s) := by
  unfold chooseServer
  cases hexit : s.setup.exitPlayer account gameId with
  | none => exact ⟨first, List.mem_cons_self, by simp [send, Exec.exec, hexit]⟩
  | some address =>
    refine ⟨(exitServer (first :: rest) address).getD first, ?_, by simp [send, Exec.exec, hexit]⟩
    cases hfind : exitServer (first :: rest) address with
    | none => exact List.mem_cons_self
    | some server => exact List.mem_of_find?_eq_some hfind

/-- The answer is busy when no server is reserved, and else the port of one. -/
theorem run_sendToServer {r : Req} {gameId : Int} {info : Info} {s s' : St} {l : List Server}
    (h : run (reservedServers gameId) s = (.ok l, s')) :
    l = [] ∧ (run (sendToServer r gameId info) s).1 = .ok .busy ∨
      ∃ server ∈ l, (run (sendToServer r gameId info) s).1 =
        .ok { code := 0, ip := some r.domain, port := some server.port } := by
  unfold sendToServer
  rw [run_bind_ok h]
  cases l with
  | nil => exact .inl ⟨rfl, rfl⟩
  | cons first rest =>
    obtain ⟨server, hmem, hchoose⟩ := run_chooseServer (fmt info.account) gameId first rest s'
    refine .inr ⟨server, hmem, ?_⟩
    dsimp only
    rw [run_bind_ok hchoose]
    by_cases hhouse : r.house_no = "" <;> simp [hhouse, send, Exec.exec]

/-- The request reaches the servers: no house stops it, and the session passes. -/
structure Passes (s : St) (r : Req) (gameId : Int) : Prop where
  house : run (checkHouse r.gameid r.house_no) s = (.ok none, s)
  game : int r.gameid = some gameId
  session : ∃ user_table, s.setup.shared.verfiy r.sid = .ok user_table

/-- A request that passes is answered busy when no server is reserved, and else with the port of one. -/
theorem run_doJoinRoom {s : St} {r : Req} {gameId : Int} {R S : Nat} (hpass : Passes s r gameId)
    (hconf : Configured s.setup gameId R S) (hreg : ∀ t ∈ s.setup.servers gameId, Registered gameId t) :
    ∃ l, (run (reservedServers gameId) s).1 = .ok l ∧
      (l = [] ∧ (run (doJoinRoom r) s).1 = .ok .busy ∨
        ∃ server ∈ l, (run (doJoinRoom r) s).1 = .ok { code := 0, ip := some r.domain, port := some server.port }) := by
  obtain ⟨user_table, hver⟩ := hpass.session
  obtain ⟨s₁, hactive, hsetup, hcount⟩ := run_setActive r.now_day (s.setup.shared.info r.sid).uid s
  have hver₁ : (HasShared.shared s₁).verfiy r.sid = .ok user_table := by rw [shared_eq, hsetup, hver]
  have hcheck := run_checkSessionVerfiy (D := Own) r.sid s₁
  rw [hver₁, shared_eq, hsetup] at hcheck
  have hrun : run (doJoinRoom r) s = run (sendToServer r gameId (s.setup.shared.info r.sid)) s₁ := by
    unfold doJoinRoom
    rw [run_bind_ok hpass.house]
    dsimp only
    rw [hpass.game]
    dsimp only
    rw [run_bind_ok (run_getInfoBySid r.sid s), shared_eq, run_bind_ok hactive, run_bind_ok hcheck]
  -- marking the user active changes no server
  obtain ⟨limit, -, hwritten, _, hres, -⟩ := run_reservedServers hconf hreg
  rw [← hsetup] at hconf hreg
  obtain ⟨limit', -, hwritten', _, hres', -⟩ := run_reservedServers hconf hreg
  rw [hsetup, hwritten, Option.some_inj] at hwritten'
  rw [hsetup, hcount, ← hwritten'] at hres'
  rw [hres, hrun]
  exact ⟨_, rfl, run_sendToServer hres'⟩

/-- Only servers with room are offered, and the answer is busy just when there are none, if and only if every server with
fewer players than the number written has room. -/
theorem joinRoom_admission_iff (s : St) (r : Req) (gameId : Int) (R S : Nat) (hpass : Passes s r gameId)
    (hconf : Configured s.setup gameId R S) (hreg : ∀ t ∈ s.setup.servers gameId, Registered gameId t) :
    Admission s r gameId R S ↔ Fits s gameId R S := by
  obtain ⟨limit, hle, hwritten, s', hres, -⟩ := run_reservedServers hconf hreg
  obtain ⟨l, hl, hanswer⟩ := run_doJoinRoom hpass hconf hreg
  rw [hres] at hl
  obtain rfl := Except.ok.inj hl
  have hmem (server : Server) : server ∈ ((s.setup.servers gameId).filter (val s.playerCount · < limit)).filterMap serverOf ↔
      ∃ t ∈ s.setup.servers gameId, val s.playerCount t < limit ∧ serverOf t = some server := by
    simp [List.mem_filterMap, and_assoc]
  constructor
  · intro h t ht limit' hlimit' hlt
    rw [hwritten, Option.some_inj] at hlimit'
    obtain ⟨server, hserver⟩ := Option.isSome_iff_exists.1 (serverOf_isSome (hreg t ht))
    have hoffer : server ∈ _ := (hmem server).2 ⟨t, ht, hlimit' ▸ hlt, hserver⟩
    exact h.offered _ (by rw [hres]) server hoffer t ht hserver
  · intro h
    have hqualifies : ∀ server ∈ ((s.setup.servers gameId).filter (val s.playerCount · < limit)).filterMap serverOf,
        ∀ t ∈ s.setup.servers gameId, serverOf t = some server → Qualifies s R S t := by
      intro server hserver t ht hof
      obtain ⟨t', ht', hlt, hof'⟩ := (hmem server).1 hserver
      rw [serverOf_injective (hreg t ht) (hreg t' ht') (hof.trans hof'.symm)]
      exact h t' ht' limit hwritten hlt
    -- what qualifies is below the product, and so below the number written
    have hreserved : ∀ t ∈ s.setup.servers gameId, Qualifies s R S t → ∃ server,
        server ∈ ((s.setup.servers gameId).filter (val s.playerCount · < limit)).filterMap serverOf := by
      intro t ht hq
      obtain ⟨server, hserver⟩ := Option.isSome_iff_exists.1 (serverOf_isSome (hreg t ht))
      exact ⟨server, (hmem server).2 ⟨t, ht, hq.1.trans_le hle, hserver⟩⟩
    generalize ((s.setup.servers gameId).filter (val s.playerCount · < limit)).filterMap serverOf = reserved at *
    refine ⟨?_, ?_, ?_⟩
    · intro l hl
      rw [hres] at hl
      obtain rfl := Except.ok.inj hl
      exact hqualifies
    · intro reply hreply hcode
      rcases hanswer with ⟨-, hbusy⟩ | ⟨server, hserver, hsent⟩
      · rw [hbusy] at hreply
        obtain rfl := Except.ok.inj hreply
        cases hcode
      · rw [hsent] at hreply
        obtain rfl := Except.ok.inj hreply
        obtain ⟨t, ht, -, hof⟩ := (hmem server).1 hserver
        exact ⟨t, ht, server, hof, rfl, hqualifies server hserver t ht hof⟩
    · rcases hanswer with ⟨hnil, hbusy⟩ | ⟨server, hserver, hsent⟩
      · refine iff_of_true hbusy fun t ht hq => ?_
        obtain ⟨server, hserver⟩ := hreserved t ht hq
        rw [hnil] at hserver
        cases hserver
      · obtain ⟨t, ht, -, hof⟩ := (hmem server).1 hserver
        refine iff_of_false ?_ fun hnone => hnone t ht (hqualifies server hserver t ht hof)
        rw [hsent]
        simp [Reply.busy]

/-! ## One server -/

/-- A game with 2 rooms of 3 players, and one server. -/
def oneServer (players : Int) : St where
  setup := {
    shared := {
      session := fun sid => if sid = "s" then some ("a", "1") else none
      platform := fun _ => none
      kick := fun _ => false
      userTable := fun _ => some "users:1"
      isUser := fun _ => true
      active := fun _ => none }
    online_tables := 1
    maxRoomCount := fun _ => some "2"
    maxPlayerCount := fun _ => some "3"
    playerNum := fun _ _ => none
    servers := fun _ => ["service:game:7:0:10.0.0.1:5000"]
    exitPlayer := fun _ _ => none }
  playerCount := fun _ => some players
  roomCount := fun _ => some 0
  active := fun _ => ∅
  houseNo := fun _ _ => none

/-- A request for game 7, to no house. -/
def request : Req where
  sid := "s"
  gameid := "7"
  house_no := ""
  now_day := "2020-01-01"
  domain := "fish"

theorem passes_oneServer (players : Int) : Passes (oneServer players) request 7 :=
  ⟨rfl, by decide, "users:1", rfl⟩

theorem configured_oneServer (players : Int) : Configured (oneServer players).setup 7 2 3 where
  rooms := ⟨"2", rfl, by decide, List.all_eq_true.1 (by decide), by decide⟩
  players := ⟨"3", rfl, by decide, List.all_eq_true.1 (by decide), by decide⟩
  rooms_pos := by decide
  players_pos := by decide

theorem registered_oneServer (players : Int) : ∀ t ∈ (oneServer players).setup.servers 7, Registered 7 t := by
  intro t ht
  obtain rfl := List.mem_singleton.1 ht
  exact ⟨"0", "10.0.0.1", "5000", by decide⟩

/-- A server with five players has room. -/
theorem joinRoom_admission_five : Admission (oneServer 5) request 7 2 3 :=
  (joinRoom_admission_iff (oneServer 5) request 7 2 3 (passes_oneServer 5) (configured_oneServer 5)
    (registered_oneServer 5)).2 fun _ _ _ _ _ => by
      change (5 : Int) < (2 : Nat) * (3 : Nat) ∧ (0 : Int) < (2 : Nat)
      decide

/-- A server with ten players is offered, though six are as many as it holds. -/
theorem joinRoom_overfull :
    (run (doJoinRoom request) (oneServer 10)).1 = .ok { code := 0, ip := some "fish", port := some "5000" } ∧
      ¬Admission (oneServer 10) request 7 2 3 := by
  have hrun : (run (doJoinRoom request) (oneServer 10)).1 = .ok { code := 0, ip := some "fish", port := some "5000" } := by
    decide +kernel
  refine ⟨hrun, fun h => ?_⟩
  obtain ⟨t, -, -, -, -, hplayers, -⟩ := h.sent _ hrun rfl
  have hten : val (oneServer 10).playerCount t = 10 := rfl
  rw [hten] at hplayers
  exact absurd hplayers (by decide)

end FishWeb.JoinRoom
