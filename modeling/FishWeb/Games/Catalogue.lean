import FishWeb.Lib.Dict
import FishWeb.Lib.Prog
import FishWeb.Lib.Python
import FishWeb.Lib.Runs
import FishWeb.Lib.Sets
/-!
# The catalogue of games

`do_create_game` and `gameDelete` of `model/gameModel.py`, `create_fish_room` and
`delete_fishroom` of `model/fishModel.py`. A game and a fish room have each a record and a
list, and share the set of ids. `game_id in GAMEID_SET` looks for the id in the name of the
key, a fish room is created without a look, and deleting one leaves it in its own set of ids.
The record of a game `set` would have the key of the set of ids, which is deleted with it.

Left out: the rules of a game and the bets of a room, which none of the four reads.
-/
open Python Prog Runs
open Function (update update_self update_of_ne)

namespace FishWeb.Games

/-! ## The store -/

/-- The fields of a record. -/
abbrev Info := List (String × String)

structure Store where
  /-- `GAME_TABLE % id` -/
  game : String → Option Info
  /-- `GAME_LIST` -/
  gameList : List String
  /-- What `GAMEID_SET` names. -/
  ids : MemberSet String
  /-- `FISH_ROOM_TABLE % id` -/
  room : String → Option Info
  /-- `FISH_ROOM_LIST` -/
  roomList : List String
  /-- `FISH_ROOM_ID_SETS` -/
  roomIds : MemberSet String

def Store.empty : Store := ⟨fun _ => none, [], ∅, fun _ => none, [], ∅⟩

/-- `hmset` -/
def hmset (t : String → Option Info) (id : String) (info : Info) : String → Option Info :=
  update t id (some (Dict.update ((t id).getD []) info))

/-- The name of the key. -/
def GAMEID_SET : String := "games:id:set"

/-- The name of the key of a record. -/
def GAME_TABLE (id : String) : String := "games:id:" ++ id

inductive Write where
  | hmsetGame (id : String) (info : Info)
  | deleteGame (id : String)
  | lpushGames (id : String)
  | lremGames (id : String)
  | saddIds (id : String)
  | sremIds (id : String)
  | hmsetRoom (id : String) (info : Info)
  | deleteRoom (id : String)
  | lpushRooms (id : String)
  | lremRooms (id : String)
  | saddRoomIds (id : String)

/-- A record is never written under the name of the set of ids: `do_create_game` refuses that id. -/
def applyWrite (s : Store) : Write → Store
  | .hmsetGame id info => { s with game := hmset s.game id info }
  | .deleteGame id =>
    { s with
      game := update s.game id none
      ids := if GAME_TABLE id = GAMEID_SET then ∅ else s.ids }
  | .lpushGames id => { s with gameList := id :: s.gameList }
  | .lremGames id => { s with gameList := s.gameList.filter (· ≠ id) }
  | .saddIds id => { s with ids := s.ids.sadd id }
  | .sremIds id => { s with ids := s.ids.srem id }
  | .hmsetRoom id info => { s with room := hmset s.room id info }
  | .deleteRoom id => { s with room := update s.room id none }
  | .lpushRooms id => { s with roomList := id :: s.roomList }
  | .lremRooms id => { s with roomList := s.roomList.filter (· ≠ id) }
  | .saddRoomIds id => { s with roomIds := s.roomIds.sadd id }

inductive Cmd : Type → Type
  | existsRoom (id : String) : Cmd Bool
  | pipe (ws : List Write) : Cmd Unit

instance : Exec Cmd Store where
  exec
    | .existsRoom id, s => ((s.room id).isSome, s)
    | .pipe ws, s => ((), ws.foldl applyWrite s)

abbrev Handler := Prog Err Cmd

/-! ## The operations -/

/-- `x in text` of two texts. -/
def isIn (x text : String) : Prop := x.toList <:+: text.toList

instance (x text : String) : Decidable (isIn x text) := inferInstanceAs (Decidable (_ <:+: _))

def do_create_game (game_id : String) (gameInfo : Info) : Handler (Option String) := do
  if isIn game_id GAMEID_SET then return none
  -- `hmset` raises on an empty dict, which is caught
  if gameInfo = [] then return none
  call (.pipe [.hmsetGame game_id gameInfo, .saddIds game_id, .lpushGames game_id])
  return some game_id

/-- `GAME2DESC % gameId` is the record of the game `gameId:desc`. -/
def gameDelete (gameId : String) : Handler Unit :=
  call (.pipe [.deleteGame gameId, .deleteGame (gameId ++ ":desc"), .lremGames gameId, .sremIds gameId])

def create_fish_room (roomInfo : Info) : Handler Unit := do
  let channel_id ← orRaise .KeyError (roomInfo.lookup "room_id")
  call (.pipe [.hmsetRoom channel_id roomInfo, .saddRoomIds channel_id, .saddIds channel_id, .lpushRooms channel_id])

def delete_fishroom (room_id : String) : Handler Unit := do
  if !(← call (.existsRoom room_id)) then return ()
  call (.pipe [.deleteRoom room_id, .lremRooms room_id, .sremIds room_id])

/-! ## Requests -/

inductive Req where
  | do_create_game (game_id : String) (gameInfo : Info)
  | gameDelete (gameId : String)
  | create_fish_room (roomInfo : Info)
  | delete_fishroom (room_id : String)

/-- What is returned is `None` but for a game created. -/
def Req.handler : Req → Handler (Option String)
  | .do_create_game game_id gameInfo => Games.do_create_game game_id gameInfo
  | .gameDelete gameId => do Games.gameDelete gameId; return none
  | .create_fish_room roomInfo => do Games.create_fish_room roomInfo; return none
  | .delete_fishroom room_id => do Games.delete_fishroom room_id; return none

def step (r : Req) (s : Store) : Store := (run r.handler s).2

/-! ## What is expected -/

/-- There is a game or a fish room with the id. -/
def Exists (s : Store) (id : String) : Prop := id ∈ s.gameList ∨ id ∈ s.roomList

/-- The lists name each once, and the sets say what is on them. -/
structure Aligned (s : Store) : Prop where
  games_nodup : s.gameList.Nodup
  rooms_nodup : s.roomList.Nodup
  ids : ∀ id, id ∈ s.ids ↔ Exists s id
  roomIds : ∀ id, id ∈ s.roomIds ↔ id ∈ s.roomList

/-- The id that a request creates. -/
def Req.creates : Req → Option String
  | .do_create_game game_id _ => some game_id
  | .create_fish_room roomInfo => roomInfo.lookup "room_id"
  | _ => none

/-- After the request all is aligned, and if it creates what there is, it is refused and changes nothing. -/
def Right (r : Req) (s : Store) : Prop :=
  Aligned (step r s) ∧ ∀ id, r.creates = some id → Exists s id → run r.handler s = (.ok none, s)

/-- New ids are created, a deleted game is no fish room, nor `set` while there is another, and no fish room is deleted. -/
def Fits : Req → Store → Prop
  | .do_create_game game_id gameInfo, s => isIn game_id GAMEID_SET ∨ gameInfo = [] ∨ ¬Exists s game_id
  | .gameDelete gameId, s => gameId ∉ s.roomList ∧ (GAME_TABLE gameId = GAMEID_SET → ∀ id, Exists s id → id = gameId)
  | .create_fish_room roomInfo, s => ∀ id, roomInfo.lookup "room_id" = some id → ¬Exists s id
  | .delete_fishroom room_id, s => room_id ∉ s.roomList

/-! ## The requests, one by one -/

/-- What a run keeps: also the fish rooms listed are those with a record. -/
structure Kept (s : Store) : Prop where
  aligned : Aligned s
  listed : ∀ id, (s.room id).isSome ↔ id ∈ s.roomList

section Steps
variable {s : Store} {id : String} {info : Info}

theorem kept_empty : Kept .empty := by
  refine ⟨⟨List.nodup_nil, List.nodup_nil, fun id => ?_, fun id => ?_⟩, fun id => ?_⟩
  · exact iff_of_false (MemberSet.not_mem_empty id) (by simp [Exists, Store.empty])
  · exact iff_of_false (MemberSet.not_mem_empty id) List.not_mem_nil
  · exact iff_of_false (nofun) List.not_mem_nil

theorem run_refused (h : isIn id GAMEID_SET ∨ info = []) : run (Req.handler (.do_create_game id info)) s = (.ok none, s) := by
  show run (do_create_game id info) s = _
  unfold do_create_game
  by_cases hin : isIn id GAMEID_SET
  · rw [if_pos hin]
    rfl
  · rw [if_neg hin, if_pos (h.resolve_left hin)]
    rfl

theorem run_create_game (hin : ¬isIn id GAMEID_SET) (hinfo : info ≠ []) : run (Req.handler (.do_create_game id info)) s =
    (.ok (some id), { s with game := hmset s.game id info, ids := s.ids.sadd id, gameList := id :: s.gameList }) := by
  show run (do_create_game id info) s = _
  unfold do_create_game
  rw [if_neg hin, if_neg hinfo]
  rfl

theorem run_create_room (hid : info.lookup "room_id" = some id) : run (Req.handler (.create_fish_room info)) s =
    (.ok none, { s with room := hmset s.room id info, roomIds := s.roomIds.sadd id, ids := s.ids.sadd id, roomList := id :: s.roomList }) := by
  show run (create_fish_room info >>= fun _ => .ret none) s = _
  unfold create_fish_room
  rw [hid]
  rfl

theorem step_create_room_missing (hid : info.lookup "room_id" = none) : step (.create_fish_room info) s = s := by
  show (run (create_fish_room info >>= fun _ => .ret none) s).2 = s
  unfold create_fish_room
  rw [hid]
  rfl

theorem step_delete_room_missing (hroom : s.room id = none) : step (.delete_fishroom id) s = s := by
  show (run (delete_fishroom id >>= fun _ => .ret none) s).2 = s
  simp [delete_fishroom, call, Exec.exec, hroom]

theorem step_delete_room (hroom : (s.room id).isSome) : step (.delete_fishroom id) s =
    { s with room := update s.room id none, roomList := s.roomList.filter (· ≠ id), ids := s.ids.srem id } := by
  show (run (delete_fishroom id >>= fun _ => .ret none) s).2 = _
  simp [delete_fishroom, call, Exec.exec, hroom, applyWrite]

theorem table_eq_iff : GAME_TABLE id = GAMEID_SET ↔ id = "set" := by
  have hset : GAMEID_SET = GAME_TABLE "set" := by decide
  rw [hset]
  unfold GAME_TABLE
  rw [← String.toList_inj, String.toList_append, String.toList_append, List.append_cancel_left_eq, String.toList_inj]

/-- The description of a game has another key. -/
theorem desc_ne : GAME_TABLE (id ++ ":desc") ≠ GAMEID_SET := by
  rw [Ne, table_eq_iff]
  intro h
  have hlast := congrArg (fun s => s.toList.getLast?) h
  simp at hlast

/-- The ids that are left when a game is deleted. -/
def Store.leftIds (s : Store) (id : String) : MemberSet String := (if GAME_TABLE id = GAMEID_SET then ∅ else s.ids).srem id

theorem step_delete_game : step (.gameDelete id) s =
    { s with
      game := update (update s.game id none) (id ++ ":desc") none
      gameList := s.gameList.filter (· ≠ id)
      ids := s.leftIds id } := by
  show [Write.deleteGame id, .deleteGame (id ++ ":desc"), .lremGames id, .sremIds id].foldl applyWrite s = _
  simp only [List.foldl_cons, List.foldl_nil, applyWrite, if_neg desc_ne]
  rfl

/-- A new id is put on the list of the games. -/
theorem Aligned.game_created (h : Aligned s) (hnew : ¬Exists s id) (game : String → Option Info) :
    Aligned { s with game := game, ids := s.ids.sadd id, gameList := id :: s.gameList } where
  games_nodup := List.nodup_cons.2 ⟨fun hmem => hnew (.inl hmem), h.games_nodup⟩
  rooms_nodup := h.rooms_nodup
  ids j := by
    unfold Exists
    rw [MemberSet.mem_sadd, h.ids, List.mem_cons, Exists, or_assoc]
  roomIds := h.roomIds

theorem Aligned.room_created (h : Aligned s) (hnew : ¬Exists s id) (room : String → Option Info) :
    Aligned { s with room := room, roomIds := s.roomIds.sadd id, ids := s.ids.sadd id, roomList := id :: s.roomList } where
  games_nodup := h.games_nodup
  rooms_nodup := List.nodup_cons.2 ⟨fun hmem => hnew (.inr hmem), h.rooms_nodup⟩
  ids j := by
    unfold Exists
    rw [MemberSet.mem_sadd, h.ids, List.mem_cons, Exists]
    exact or_left_comm
  roomIds j := by rw [MemberSet.mem_sadd, h.roomIds, List.mem_cons]

theorem Aligned.mem_leftIds (h : Aligned s) {j : String} :
    j ∈ s.leftIds id ↔ j ≠ id ∧ GAME_TABLE id ≠ GAMEID_SET ∧ Exists s j := by
  unfold Store.leftIds
  rw [MemberSet.mem_srem]
  split
  · next hset => simp [hset]
  · next hset => simp [hset, h.ids]

/-- A game goes off the list and out of the set of ids, where the fish rooms have to be as well. -/
theorem Aligned.game_deleted_iff (h : Aligned s) (game : String → Option Info) :
    Aligned { s with game := game, gameList := s.gameList.filter (· ≠ id), ids := s.leftIds id } ↔
      id ∉ s.roomList ∧ (GAME_TABLE id = GAMEID_SET → ∀ j, Exists s j → j = id) := by
  constructor
  · intro h'
    refine ⟨fun hroom => ?_, fun hset j hj => ?_⟩
    · exact (h.mem_leftIds.1 ((h'.ids id).2 (.inr hroom))).1 rfl
    · by_contra hne
      have hleft : j ∈ s.leftIds id := by
        refine (h'.ids j).2 (hj.imp_left fun hgame => ?_)
        exact List.mem_filter.2 ⟨hgame, decide_eq_true hne⟩
      exact (h.mem_leftIds.1 hleft).2.1 hset
  · rintro ⟨hroom, hset⟩
    refine ⟨h.games_nodup.filter _, h.rooms_nodup, fun j => ?_, h.roomIds⟩
    have hother : j ∈ s.roomList → j ≠ id := fun hj he => hroom (he ▸ hj)
    have hleft : Exists s j → j ≠ id → GAME_TABLE id ≠ GAMEID_SET := fun hj hne hkey => hne (hset hkey j hj)
    unfold Exists at hleft ⊢
    rw [h.mem_leftIds, List.mem_filter, decide_eq_true_eq, Exists]
    tauto

end Steps

section Each
variable {s : Store} (h : Kept s)
include h

theorem Kept.create_game_iff (id : String) (info : Info) : Right (.do_create_game id info) s ↔ Fits (.do_create_game id info) s := by
  unfold Right step
  by_cases hquiet : isIn id GAMEID_SET ∨ info = []
  · rw [run_refused hquiet]
    refine iff_of_true ⟨h.aligned, fun _ _ _ => rfl⟩ ?_
    rcases hquiet with hin | hinfo
    · exact .inl hin
    · exact .inr (.inl hinfo)
  · rw [not_or] at hquiet
    rw [run_create_game hquiet.1 hquiet.2]
    constructor
    · rintro ⟨-, hrefused⟩
      refine .inr (.inr fun hexists => ?_)
      obtain ⟨hreply, -⟩ := Prod.mk.inj (hrefused id rfl hexists)
      cases hreply
    · rintro (hin | hinfo | hnew)
      · exact absurd hin hquiet.1
      · exact absurd hinfo hquiet.2
      · refine ⟨h.aligned.game_created hnew _, ?_⟩
        rintro j hj hexists
        obtain rfl : id = j := Option.some.inj hj
        exact absurd hexists hnew

theorem Kept.create_room_iff (info : Info) : Right (.create_fish_room info) s ↔ Fits (.create_fish_room info) s := by
  unfold Right
  cases hid : info.lookup "room_id" with
  | none =>
    rw [step_create_room_missing hid]
    refine iff_of_true ⟨h.aligned, ?_⟩ ?_
    · intro id hcreates
      exact nomatch hid.symm.trans hcreates
    · intro id hcreates
      exact nomatch hid.symm.trans hcreates
  | some id =>
    unfold step
    rw [run_create_room hid]
    constructor
    · rintro ⟨-, hrefused⟩ j hj hexists
      obtain rfl : id = j := Option.some.inj (hid.symm.trans hj)
      obtain ⟨-, hsame⟩ := Prod.mk.inj (hrefused id hid hexists)
      have hlist := congrArg (fun s => s.roomList.length) hsame
      simp at hlist
    · intro hfits
      have hnew := hfits id hid
      refine ⟨h.aligned.room_created hnew _, ?_⟩
      rintro j hj hexists
      exact absurd hexists (hfits j hj)

theorem Kept.delete_game_iff (id : String) : Right (.gameDelete id) s ↔ Fits (.gameDelete id) s := by
  unfold Right
  rw [step_delete_game, and_iff_left (nofun)]
  exact h.aligned.game_deleted_iff _

/-- A fish room that is deleted stays in its own set of ids. -/
theorem Kept.delete_room_iff (id : String) : Right (.delete_fishroom id) s ↔ Fits (.delete_fishroom id) s := by
  unfold Right
  rw [and_iff_left (nofun)]
  cases hroom : s.room id with
  | none =>
    rw [step_delete_room_missing hroom]
    refine iff_of_true h.aligned fun hlisted => ?_
    rw [← h.listed, hroom] at hlisted
    cases hlisted
  | some info =>
    have hsome : (s.room id).isSome := by rw [hroom]; rfl
    have hlisted := (h.listed id).1 hsome
    rw [step_delete_room hsome]
    refine iff_of_false (fun h' => ?_) (fun hfits => hfits hlisted)
    have hmem := (h'.roomIds id).1 ((h.aligned.roomIds id).2 hlisted)
    exact of_decide_eq_true (List.mem_filter.1 hmem).2 rfl

theorem Kept.right_iff (r : Req) : Right r s ↔ Fits r s := by
  cases r with
  | do_create_game game_id gameInfo => exact h.create_game_iff game_id gameInfo
  | gameDelete gameId => exact h.delete_game_iff gameId
  | create_fish_room roomInfo => exact h.create_room_iff roomInfo
  | delete_fishroom room_id => exact h.delete_room_iff room_id

theorem Kept.step {r : Req} (hfits : Fits r s) : Kept (step r s) := by
  refine ⟨((h.right_iff r).2 hfits).1, ?_⟩
  cases r with
  | do_create_game game_id gameInfo =>
    by_cases hquiet : isIn game_id GAMEID_SET ∨ gameInfo = []
    · rw [Games.step, run_refused hquiet]
      exact h.listed
    · rw [not_or] at hquiet
      rw [Games.step, run_create_game hquiet.1 hquiet.2]
      exact h.listed
  | gameDelete gameId => exact h.listed
  | create_fish_room roomInfo =>
    cases hid : roomInfo.lookup "room_id" with
    | none =>
      rw [step_create_room_missing hid]
      exact h.listed
    | some id =>
      rw [Games.step, run_create_room hid]
      intro j
      by_cases hj : j = id
      · subst hj
        simp [hmset]
      · show (hmset s.room id roomInfo j).isSome ↔ j ∈ id :: s.roomList
        rw [hmset, update_of_ne hj, h.listed, List.mem_cons]
        exact (or_iff_right hj).symm
  | delete_fishroom room_id =>
    have hnone : s.room room_id = none := by
      cases hroom : s.room room_id with
      | none => rfl
      | some info => exact absurd ((h.listed room_id).1 (by rw [hroom]; rfl)) hfits
    rw [step_delete_room_missing hnone]
    exact h.listed

end Each

/-- For every run: the four structures are aligned and what exists is not created again exactly when every request fits. -/
theorem games_right_iff (rs : List Req) : All step Right rs .empty ↔ All step Fits rs .empty :=
  all_iff (fun r _ h => h.right_iff r) (fun _ _ hfits h => h.step hfits) kept_empty

/-- A game is created twice, since its id is not in the name of the key. -/
theorem created_twice : ¬All step Right [.do_create_game "7" [("id", "7")], .do_create_game "7" [("id", "7")]] .empty := by
  rintro ⟨-, ⟨haligned, -⟩, -⟩
  have hnodup := haligned.games_nodup
  revert hnodup
  decide +kernel

end FishWeb.Games
