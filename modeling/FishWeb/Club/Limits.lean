import FishWeb.Club.Model
import FishWeb.Room.Limits
/-!
# The limits of a room, in both handlers

`/createRoom` and `/club/createRoom` share the part that `Room.RuleSound` is about. A
number is never greater than a text, so the limit of the base score, which is kept as a
text, holds no number back.
-/
open Python Prog

namespace FishWeb.Club

open Common
open Room (Forward Fair SetThroughModify Selection RuleSound BaseOk Granted)

/-! ## A room as part of a club -/

section Lift
variable {Q : Except Err Reply → St → List Event → Prop} {s : St}

theorem part_room : Part (C := With Room.Own) (D := Cmd) (fun _ => Cmd.room) St.room fun s room => { s with room := room } where
  exec _ _ _ := rfl
  view_put _ _ := rfl
  put_put _ _ _ := rfl
  put_view _ := rfl

theorem ran_room {α : Type} {p : Room.Handler α} {r : Except Err α} {room' : Room.St} {l : List Forward} (h : Ran p s.room r room' l) :
    Ran (room p) s r { s with room := room' } (l.map Event.forward) :=
  Ran.lift part_room (fun _ _ _ => rfl) h

/-- The table of the user who made the club. -/
def St.ownerTable (s : St) (club_number : String) : String :=
  fmt (s.room.shared.userTable (fmt (s.attrOf club_number).club_user))

theorem ran_infoOf (sid : String) : Ran (infoOf sid) s (.ok (s.room.shared.info sid)) s ([] : List Event) := ⟨rfl, rfl⟩

theorem ran_getUserByAccount (account : Option String) :
    Ran (getUserByAccount account) s (.ok (fmt (s.room.shared.userTable (fmt account)))) s ([] : List Event) := ⟨rfl, rfl⟩

theorem ran_sessionLives (sid : String) :
    Ran (sessionLives sid) s (.ok (s.room.shared.session sid).isSome) s ([] : List Event) := ⟨rfl, rfl⟩

end Lift

/-! ## Requests for rooms -/

inductive RoomReq where
  | hall (form : Room.RoomForm)
  | club (form : RoomForm)

def RoomReq.handler : RoomReq → Handler Reply
  | .hall form => do return .room (← room (Room.doCreateRoom form))
  | .club form => doCreateRoom form

def RoomReq.gameid : RoomReq → String
  | .hall form => form.gameid
  | .club form => form.gameid

def RoomReq.rule : RoomReq → List Value
  | .hall form => form.rule
  | .club form => form.rule

/-- Who pays: the user, or the user who made the club. -/
def RoomReq.payer (s : St) : RoomReq → Option String
  | .hall form => match s.room.shared.hall form.sid with
    | .ok (_, userTable) => some userTable
    | .error _ => none
  | .club form => if (s.attr form.club_number).isSome then some (s.ownerTable form.club_number) else none

/-- A refusal has an error code, and every rule that is sent on is fair. -/
def RoomReq.Granted (s : St) (req : RoomReq) (scores : Fin 20 → String) (r : Except Err Reply) (_ : St) (l : List Event) : Prop :=
  ∃ reply, r = .ok reply ∧ (l = [] → reply.code ≠ 0) ∧ ∀ f, Event.forward f ∈ l →
    ∀ gameId userTable, int req.gameid = some gameId → req.payer s = some userTable → Fair s.room gameId userTable req.rule scores f.sent

/-- The club lets the user open a room, and the session and the owner are there. -/
structure Passes (s : St) (form : RoomForm) : Prop where
  exists_ : (s.attr form.club_number).isSome
  member : (s.attrOf form.club_number).club_user ≠ (s.room.shared.info form.sid).account →
    form.club_number ∈ s.players (playerToClubList form.club_number) ∧ (s.attrOf form.club_number).club_use_create_room = some 1
  here : elsewhere form.sid (s.room.shared.info form.sid) = false
  lives : (s.room.shared.session form.sid).isSome
  owner : s.room.shared.isUser (s.ownerTable form.club_number) = true

/-- The requests to `/club/createRoom` that are granted as they should. -/
def ClubSound (s : St) (form : RoomForm) (scores : Fin 20 → String) : Prop :=
  ∃ gameId, int form.gameid = some gameId ∧
    ((s.attr form.club_number).isSome → (s.attrOf form.club_number).club_user ≠ (s.room.shared.info form.sid).account →
      form.club_number ∈ s.players (playerToClubList form.club_number) → (s.attrOf form.club_number).club_use_create_room.isSome) ∧
    (Passes s form →
      ∃ open_room, Room.getUserOpenAuth (s.room.user (s.ownerTable form.club_number)).open_auth
          (s.room.agent (fmt (s.room.user (s.ownerTable form.club_number)).parentAg)).2 = .ok open_room ∧
        ((s.room.agent (fmt (s.room.user (s.ownerTable form.club_number)).parentAg)).1 = some "1" →
          RuleSound s.room gameId (s.ownerTable form.club_number) form.rule fun a => BaseOk scores a.base))

/-- The requests that are granted as they should: each text that is read as a number is one, and a score that is sent on is
not above the limit, or is taken for greater than it. -/
def RoomReq.Sound (s : St) (scores : Fin 20 → String) : RoomReq → Prop
  | .hall form => Room.HallSound s.room form scores
  | .club form => ClubSound s form scores

section Granted
variable {s : St} {scores : Fin 20 → String}

/-- A room that the common handlers open, seen from the clubs. -/
theorem comes_room {req : RoomReq} {p : Room.Handler Room.Reply} :
    Comes (req.Granted s scores) (room p >>= fun reply => .ret (.room reply) : Handler Reply) s ↔
      Comes (Granted fun sent => ∀ gameId userTable, int req.gameid = some gameId → req.payer s = some userTable →
        Fair s.room gameId userTable req.rule scores sent) p s.room := by
  have hran : Ran p s.room (run p s.room).1 (run p s.room).2 (trace Forward p s.room) := ⟨rfl, rfl⟩
  unfold Comes
  rcases hrun : (run p s.room).1 with e | reply
  · rw [hrun] at hran
    have hall := (ran_room hran).bind_error (f := fun reply => (.ret (.room reply) : Handler Reply))
    rw [hall.run]
    constructor
    · rintro ⟨_, h, -⟩
      cases h
    · rintro ⟨_, h, -⟩
      cases h
  · rw [hrun] at hran
    have hall := (ran_room hran).bind (f := fun reply => (.ret (.room reply) : Handler Reply)) (ran_ret _ _)
    rw [hall.run, hall.trace, List.append_nil]
    constructor
    · rintro ⟨_, h, hcode, hl⟩
      obtain rfl := Except.ok.inj h
      refine ⟨reply, rfl, fun hnil => hcode (by rw [hnil]; rfl), fun f hf => ?_⟩
      exact hl f (List.mem_map_of_mem hf)
    · rintro ⟨_, h, hcode, hl⟩
      obtain rfl := Except.ok.inj h
      refine ⟨.room reply, rfl, fun hnil => hcode (List.map_eq_nil_iff.1 hnil), fun f hf => ?_⟩
      obtain ⟨f', hf', heq⟩ := List.mem_map.1 hf
      obtain rfl := Event.forward.inj heq
      exact hl f' hf'

theorem granted_error {req : RoomReq} (e : Err) (s' : St) (l : List Event) : ¬req.Granted s scores (.error e) s' l := by
  rintro ⟨_, h, -⟩
  cases h

theorem granted_refused {req : RoomReq} (reply : Reply) (h : reply.code ≠ 0) {s' : St} :
    Comes (req.Granted s scores) (.ret reply : Handler Reply) s' :=
  ⟨reply, rfl, fun _ => h, fun _ hf => absurd hf List.not_mem_nil⟩

theorem comes_sendRoom {F : List Value → Prop} {s : Room.St} {gameId : Int} {account ag : String} {fitted : Room.Fitted}
    {server : Room.Server} :
    Comes (Granted F) (sendRoom gameId account ag fitted server) s ↔
      (∃ text, Room.textOf s gameId fitted.rule = .ok text) ∧ F fitted.rule := by
  unfold sendRoom
  rw [Room.comes_getRuleText Room.granted_error]
  constructor
  · rintro ⟨text, htext, reply, -, -, hl⟩
    have hsent := hl (.other account ag (fitted.rule ++ [.int 1])) List.mem_cons_self
    exact ⟨⟨text, htext⟩, by simpa [Forward.sent] using hsent⟩
  · rintro ⟨⟨text, htext⟩, hF⟩
    refine ⟨text, htext, .opened "房间开启成功" "" "", rfl, fun hl => (by cases hl), ?_⟩
    rintro f (_ | ⟨_, hf⟩)
    · simpa [Forward.sent] using hF
    · cases hf

theorem comes_openRoom {s : Room.St} {gameId : Int} {account userTable : String} {form : RoomForm} (hsel : Selection scores)
    (hset : SetThroughModify s userTable scores) :
    Comes (Granted (Fair s gameId userTable form.rule scores)) (openRoom gameId account userTable form) s ↔
      ∃ open_room, Room.getUserOpenAuth (s.user userTable).open_auth (s.agent (fmt (s.user userTable).parentAg)).2 = .ok open_room ∧
        ((s.agent (fmt (s.user userTable).parentAg)).1 = some "1" →
          RuleSound s gameId userTable form.rule fun a => BaseOk scores a.base) := by
  unfold openRoom
  rw [Room.comes_getPayer Room.granted_error fun reply h => Room.granted_refused reply h]
  refine exists_congr fun open_room => and_congr_right fun _ => imp_congr_right fun _ => ?_
  refine Room.comes_rule (fun _ => rfl) fun a k data cost id roomCards hr hn hid hcards hle => ?_
  dsimp only
  rw [Room.comes_freeServer Room.granted_error]
  refine exists_congr fun l => and_congr_right fun _ => ?_
  cases l with
  | nil => exact ⟨fun _ h => absurd rfl h, fun _ => Room.granted_refused _ (by decide)⟩
  | cons server l =>
    rw [imp_iff_right (List.cons_ne_nil server l)]
    show Comes _ (sendRoom gameId _ _ _ server) _ ↔ _
    rw [comes_sendRoom, Room.fair_sent_iff hsel hset.maxScore hr hn hid hcards hle]

theorem comes_memberRefusal {req : RoomReq} {club_number : String} {account : Option String} {f : Option Reply → Handler Reply}
    (hrefused : ∀ reply, f (some reply) = .ret reply) :
    Comes (req.Granted s scores) (memberRefusal club_number account >>= f) s ↔
      ((s.attrOf club_number).club_user ≠ account → club_number ∈ s.players (playerToClubList club_number) →
        (s.attrOf club_number).club_use_create_room.isSome) ∧
      (((s.attrOf club_number).club_user ≠ account →
        club_number ∈ s.players (playerToClubList club_number) ∧ (s.attrOf club_number).club_use_create_room = some 1) →
          Comes (req.Granted s scores) (f none) s) := by
  by_cases howner : (s.attrOf club_number).club_user = account
  · have hran : Ran (memberRefusal club_number account) s (.ok none) s ([] : List Event) := by
      constructor <;> simp [memberRefusal, send, Exec.exec, Note.note, howner]
    rw [hran.comes_bind_iff]
    simp [howner]
  by_cases hlisted : club_number ∈ s.players (playerToClubList club_number)
  · cases huse : (s.attrOf club_number).club_use_create_room with
    | none =>
      have hran : Ran (memberRefusal club_number account) s (.error .TypeError) s ([] : List Event) := by
        constructor <;> simp [memberRefusal, send, Exec.exec, Note.note, howner, hlisted, huse]
      rw [hran.comes_error_iff]
      simp [granted_error, howner, hlisted]
    | some n =>
      by_cases hn : n = 1
      · have hran : Ran (memberRefusal club_number account) s (.ok none) s ([] : List Event) := by
          constructor <;> simp [memberRefusal, send, Exec.exec, Note.note, howner, hlisted, huse, hn]
        rw [hran.comes_bind_iff]
        simp [howner, hlisted, hn]
      · have hran : Ran (memberRefusal club_number account) s (.ok (some (.msg 1 "你不能创建房间！请和俱乐部创始人联系"))) s
            ([] : List Event) := by
          constructor <;> simp [memberRefusal, send, Exec.exec, Note.note, howner, hlisted, huse, hn]
        rw [hran.comes_bind_iff, hrefused]
        exact ⟨fun _ => ⟨fun _ _ => rfl, fun h => absurd (Option.some.inj (h howner).2) hn⟩, fun _ => granted_refused _ (by decide)⟩
  · have hran : Ran (memberRefusal club_number account) s (.ok (some (.msg 1 "你没有加入这个俱乐部！不能创建房间"))) s
        ([] : List Event) := by
      constructor <;> simp [memberRefusal, send, Exec.exec, Note.note, howner, hlisted]
    rw [hran.comes_bind_iff, hrefused]
    exact ⟨fun _ => ⟨fun _ h => absurd h hlisted, fun h => absurd (h howner).1 hlisted⟩, fun _ => granted_refused _ (by decide)⟩

theorem comes_doCreateRoom {form : RoomForm} (hsel : Selection scores)
    (hset : ∀ userTable, (RoomReq.club form).payer s = some userTable → SetThroughModify s.room userTable scores) :
    Comes ((RoomReq.club form).Granted s scores) (doCreateRoom form) s ↔ ClubSound s form scores := by
  unfold doCreateRoom ClubSound
  rw [comes_orRaise_iff granted_error]
  refine exists_congr fun gameId => and_congr_right fun hgame => ?_
  rw [(ran_infoOf form.sid).comes_bind_iff]
  show Comes _ (if !(s.attr form.club_number).isSome then _ else _ : Handler Reply) s ↔ _
  cases hattr : (s.attr form.club_number).isSome with
  | false =>
    refine ⟨fun _ => ⟨fun h => (by cases h), fun h => ?_⟩, fun _ => granted_refused _ (by decide)⟩
    rw [h.exists_] at hattr
    cases hattr
  | true =>
  have hpays : (RoomReq.club form).payer s = some (s.ownerTable form.club_number) := by
    show (if (s.attr form.club_number).isSome then _ else _) = _
    rw [hattr]
    rfl
  have hF : (fun sent => ∀ gameId' userTable', int (RoomReq.club form).gameid = some gameId' →
      (RoomReq.club form).payer s = some userTable' → Fair s.room gameId' userTable' (RoomReq.club form).rule scores sent) =
        Fair s.room gameId (s.ownerTable form.club_number) form.rule scores := by
    funext sent
    apply propext
    constructor
    · intro h
      exact h gameId _ hgame hpays
    · rintro h gameId' userTable' hgame' htable
      obtain rfl := Option.some.inj (hgame.symm.trans hgame')
      obtain rfl := Option.some.inj (hpays.symm.trans htable)
      exact h
  show Comes _ (memberRefusal form.club_number _ >>= _) s ↔ _
  rw [comes_memberRefusal fun _ => rfl]
  refine and_congr (by simp) ?_
  dsimp only
  by_cases hmember : (s.attrOf form.club_number).club_user ≠ (s.room.shared.info form.sid).account →
      form.club_number ∈ s.players (playerToClubList form.club_number) ∧ (s.attrOf form.club_number).club_use_create_room = some 1
  swap
  · exact ⟨fun _ h => absurd h.member hmember, fun _ h => absurd h hmember⟩
  rw [imp_iff_right hmember]
  show Comes _ (if elsewhere form.sid (s.room.shared.info form.sid) then _ else _ : Handler Reply) s ↔ _
  cases hhere : elsewhere form.sid (s.room.shared.info form.sid) with
  | true =>
    refine ⟨fun _ h => ?_, fun _ => granted_refused (kicked form.sid) (show (-4 : Int) ≠ 0 by decide)⟩
    rw [h.here] at hhere
    cases hhere
  | false =>
  show Comes _ (if !(s.room.shared.session form.sid).isSome then _ else _ : Handler Reply) s ↔ _
  cases hlives : (s.room.shared.session form.sid).isSome with
  | false =>
    refine ⟨fun _ h => ?_, fun _ => granted_refused _ (by decide)⟩
    rw [h.lives] at hlives
    cases hlives
  | true =>
  show Comes _ (if !(s.room.shared.isUser (s.ownerTable form.club_number)) then _ else _ : Handler Reply) s ↔ _
  cases huser : s.room.shared.isUser (s.ownerTable form.club_number) with
  | false =>
    refine ⟨fun _ h => ?_, fun _ => granted_refused _ (by decide)⟩
    rw [h.owner] at huser
    cases huser
  | true =>
  have hpasses : Passes s form := ⟨hattr, hmember, hhere, hlives, huser⟩
  rw [imp_iff_right hpasses]
  refine comes_room.trans ?_
  rw [hF]
  exact comes_openRoom hsel (hset _ hpays)

/-- For a user whose base scores were selected at `/member/modify`, a request for a room is refused with an error code or sends
on a rule that keeps to the limits, exactly when it is one of `Sound`. -/
theorem room_limits (s : St) (req : RoomReq) (scores : Fin 20 → String) (hsel : Selection scores)
    (hset : ∀ userTable, req.payer s = some userTable → SetThroughModify s.room userTable scores) :
    Comes (req.Granted s scores) req.handler s ↔ req.Sound s scores := by
  cases req with
  | club form => exact comes_doCreateRoom hsel hset
  | hall form =>
    have hpays : ∀ userTable, (RoomReq.hall form).payer s = some userTable ↔
        ∃ account, s.room.shared.hall form.sid = .ok (account, userTable) := by
      intro userTable
      unfold RoomReq.payer
      rcases hhall : s.room.shared.hall form.sid with e | ⟨account, userTable'⟩ <;> simp [hhall]
    refine comes_room.trans ?_
    have hF : (fun sent => ∀ gameId userTable, int (RoomReq.hall form).gameid = some gameId →
        (RoomReq.hall form).payer s = some userTable → Fair s.room gameId userTable (RoomReq.hall form).rule scores sent) =
          fun sent => ∀ gameId account userTable, int form.gameid = some gameId →
            s.room.shared.hall form.sid = .ok (account, userTable) → Fair s.room gameId userTable form.rule scores sent := by
      funext sent
      apply propext
      constructor
      · intro h gameId account userTable hgame huser
        exact h gameId userTable hgame ((hpays userTable).2 ⟨account, huser⟩)
      · intro h gameId userTable hgame huser
        obtain ⟨account, huser⟩ := (hpays userTable).1 huser
        exact h gameId account userTable hgame huser
    rw [hF]
    exact Room.comes_doCreateRoom hsel fun account userTable huser => hset userTable ((hpays userTable).2 ⟨account, huser⟩)

end Granted

/-! ## One guild -/

/-- The scores 1 to 5 are selected. -/
def five (i : Fin 20) : String := if i.val < 5 then toString (i.val + 1) else ""

/-- A user of guild 7 with ten cards, and a game whose only entry gives eight rounds for two cards. -/
def hallOfOne : Room.St where
  shared := {
    session := fun sid => if sid = "s" then some ("ann", "1") else none
    platform := fun _ => none
    kick := fun _ => false
    userTable := fun account => if account = "ann" then some "users:1" else none
    isUser := fun userTable => userTable = "users:1"
    active := fun _ => none }
  user _ := ⟨some "7", some "5", none, []⟩
  agent _ := (some "1", none)
  goldGames := ∅
  cards _ _ := some "10"
  cardRules _ := ["eight:2:8"]
  gameRules _ := []
  gameRule _ _ := ⟨none, none, none⟩
  maxRoomCount _ := none
  servers _ := ["services:game:3:rmb:10.0.0.1:80"]
  counts _ := (0, 0)
  waitKey _ := none
  waiting _ := []
  wantServer _ := none
  protocols _ _ := []
  pending _ := none
  admin sid := if sid = "a" then some "root" else none

def guildOfOne : St := init hallOfOne fun _ => ⟨none, none, none⟩

def asksBase (base : Int) : RoomReq := .hall ⟨"3", [.int 0, .int 0, .int base], "s", "0", "hall:80"⟩

theorem five_selection : Selection five := by
  intro i
  by_cases hi : i.val < 5
  · refine .inr ⟨(i.val + 1 : Nat), ?_, by omega⟩
    rw [five, if_pos hi]
    exact int_toString _
  · exact .inl (if_neg hi)

theorem five_set : SetThroughModify hallOfOne "users:1" five :=
  ⟨"a", "cards", "1", "", hallOfOne, _, _, by decide +kernel, rfl, by decide +kernel⟩

theorem five_payer (base : Int) (userTable : String)
    (h : (asksBase base).payer guildOfOne = some userTable) : SetThroughModify hallOfOne userTable five := by
  obtain rfl : "users:1" = userTable := Option.some.inj h
  exact five_set

theorem largest_five : Room.largest five = 5 := by decide +kernel

/-- A base score of 5 is granted. -/
theorem room_limits_five : (asksBase 5).Sound guildOfOne five := by
  refine (room_limits guildOfOne (asksBase 5) five five_selection (five_payer 5)).1
    ⟨.room (.opened "" "hall" "80"), rfl, fun hnil => (by cases hnil), ?_⟩
  rintro f hf gameId userTable hgame hpays
  obtain rfl := Option.some.inj (hgame.symm.trans (rfl : int "3" = some 3))
  obtain rfl : "users:1" = userTable := Option.some.inj hpays
  rcases hf with _ | ⟨_, hf⟩
  · exact ⟨⟨.int 0, [], .int 0, .int 5⟩, 0, "eight:2:8", 2, .int 5, "1", 10, rfl, rfl, ⟨rfl, rfl, by decide⟩, ⟨[], rfl⟩,
      ⟨5, rfl, by rw [largest_five]; norm_num⟩, rfl, rfl, by decide⟩
  · cases hf

/-- A base score of 100 is sent on as it is, where 5 is the largest that was selected. -/
theorem base_score_unlimited : Selection five ∧
    (∀ userTable, (asksBase 100).payer guildOfOne = some userTable → SetThroughModify guildOfOne.room userTable five) ∧
    ¬Comes ((asksBase 100).Granted guildOfOne five) (asksBase 100).handler guildOfOne := by
  refine ⟨five_selection, five_payer 100, ?_⟩
  rintro ⟨reply, -, -, hl⟩
  have hfair := hl (.own "s" [.int 8, .int 2, .int 100]) List.mem_cons_self 3 "users:1" rfl rfl
  obtain ⟨a, k, data, cost, base, id, roomCards, -, -, -, ⟨front, hsent⟩, ⟨x, hx, hle⟩, -⟩ := hfair
  have hbase : Value.int 100 = base := by simpa [Forward.sent] using congrArg List.getLast? hsent
  subst hbase
  obtain rfl : (100 : ℚ) = x := Option.some.inj hx
  rw [largest_five] at hle
  norm_num at hle

end FishWeb.Club
