import FishWeb.Lib.Prog
import FishWeb.Lib.Python
import FishWeb.Lib.Runs
import FishWeb.Lib.Shelves
/-!
# Taking a broadcast back

`push_broacast` and `do_deleteBroads` of `model/gameModel.py`, and the record that
`/game/broadcast` of `admin/admin_game.py` hands over. The push names its lists from its
arguments, the removal from the record. One of the keys has two parts, and the removal fills
them in the other way round.

A key is its format and what is filled in; numbers of agents and types of broadcasts have no
colon. Ids are drawn from a counter. Left out: the pages, and the player of the broadcasts.
-/
open Python Prog Runs Shelves
open Function (update update_self update_of_ne)

namespace FishWeb.Broadcast.Undo

/-! ## The store -/

inductive Key where
  /-- `HALL_BRO_LIST` -/
  | hallList
  /-- `HALL_BRO_AG_LIST % ag` -/
  | hallAgList (ag : String)
  /-- `HALL_BRO_CONTAIN_AG_LIST % (type, ag)` -/
  | hallContainAgList (type ag : String)
  /-- `HALL_BRO_CONTAIN_ALL_LIST % type` -/
  | hallContainAllList (type : String)
  /-- `FISH_BRO_LIST` -/
  | fishList
  /-- `FISH_BRO_CONTAIN_ALL_LIST % type` -/
  | fishContainAllList (type : String)
  deriving Repr, DecidableEq

/-- `HALL_BRO_TABLE % id` -/
structure Info where
  broad_id : String
  parent_ag : String
  content : String
  per_sec : Int
  start_date : String
  end_date : String
  status : Int
  broad_type : String
  deriving Repr, DecidableEq

structure Store where
  info : String → Option Info
  list : Key → List String
  /-- `HALL_BRO_OUT_SET` -/
  outSet : String → Bool
  /-- `HALL_BRO_PLAY_SET` -/
  playSet : String → Bool

def Store.empty : Store := ⟨fun _ => none, fun _ => [], fun _ => false, fun _ => false⟩

inductive Write where
  | hmset (id : String) (info : Info)
  | lpush (key : Key) (id : String)
  | lrem (key : Key) (id : String)
  | delete (id : String)

def applyWrite (s : Store) : Write → Store
  | .hmset id info => { s with info := update s.info id (some info) }
  | .lpush key id => { s with list := update s.list key (id :: s.list key) }
  | .lrem key id => { s with list := update s.list key ((s.list key).filter (· ≠ id)) }
  | .delete id => { s with info := update s.info id none }

inductive Cmd : Type → Type
  | smembersOut : Cmd (String → Bool)
  | smembersPlay : Cmd (String → Bool)
  /-- `hmget (HALL_BRO_TABLE % id, ('parent_ag', 'broad_type'))` -/
  | hmget (id : String) : Cmd (Option String × Option String)
  | lpush (key : Key) (id : String) : Cmd Unit
  | sremOut (id : String) : Cmd Unit
  | sremPlay (id : String) : Cmd Unit
  | pipe (ws : List Write) : Cmd Unit

instance : Exec Cmd Store where
  exec
    | .smembersOut, s => (s.outSet, s)
    | .smembersPlay, s => (s.playSet, s)
    | .hmget id, s => (((s.info id).map Info.parent_ag, (s.info id).map Info.broad_type), s)
    | .lpush key id, s => ((), applyWrite s (.lpush key id))
    | .sremOut id, s => ((), { s with outSet := update s.outSet id false })
    | .sremPlay id, s => ((), { s with playSet := update s.playSet id false })
    | .pipe ws, s => ((), ws.foldl applyWrite s)

abbrev Handler := Prog Err Cmd

/-! ## The operations -/

def push_broacast (broadcastInfo : Info) (broad_type selfUid broad_belone : String) : Handler Unit := do
  let broad_id := broadcastInfo.broad_id
  let pipe := [Write.hmset broad_id broadcastInfo]
  if broad_belone = "HALL" then
    let pipe := pipe ++ [.lpush .hallList broad_id]
    if (← orRaise .ValueError (int selfUid)) ≠ 1 then
      call (.lpush (.hallAgList selfUid) broad_id)
      call (.lpush (.hallContainAgList broad_type selfUid) broad_id)
    call (.pipe (pipe ++ [.lpush (.hallContainAllList broad_type) broad_id]))
  else if broad_belone = "FISH" then
    call (.pipe (pipe ++ [.lpush .fishList broad_id, .lpush (.fishContainAllList broad_type) broad_id]))

def do_deleteBroads (broad_id broad_belone : String) : Handler Unit := do
  let out_set ← call .smembersOut
  let play_set ← call .smembersPlay
  let (send_ag, send_type) ← call (.hmget broad_id)
  let pipe :=
    if broad_belone = "HALL" then
      [Write.lrem .hallList broad_id, .lrem (.hallAgList (fmt send_ag)) broad_id,
        .lrem (.hallContainAgList (fmt send_ag) (fmt send_type)) broad_id, .lrem (.hallContainAllList (fmt send_type)) broad_id]
    else if broad_belone = "FISH" then [.lrem .fishList broad_id, .lrem (.fishContainAllList (fmt send_type)) broad_id]
    else []
  if out_set broad_id then call (.sremOut broad_id)
  if play_set broad_id then call (.sremPlay broad_id)
  call (.pipe (pipe ++ [.delete broad_id]))

/-- The fields of the form of `/game/broadcast`. -/
structure Form where
  broad_type : String
  start_date : String
  end_date : String
  content : String
  per_sec : Int
  broad_belone : String
  deriving Repr, DecidableEq

/-- What `do_GameBroadCast` hands to `push_broacast`. -/
def broadcastInfo (f : Form) (selfUid broad_id broad_title : String) : Info where
  broad_id := broad_id
  parent_ag := selfUid
  content := broad_title ++ f.content
  per_sec := f.per_sec
  start_date := f.start_date
  end_date := if f.broad_type ∈ ["0", "2"] then "" else f.end_date
  status := 0
  broad_type := f.broad_type

inductive Req where
  | push (broadcastInfo : Info) (broad_type selfUid broad_belone : String)
  | delete (broad_id broad_belone : String)

/-- The broadcast that a request is about. -/
def Req.broad_id : Req → String
  | .push broadcastInfo _ _ _ => broadcastInfo.broad_id
  | .delete broad_id _ => broad_id

def Req.handler : Req → Handler Unit
  | .push broadcastInfo broad_type selfUid broad_belone => push_broacast broadcastInfo broad_type selfUid broad_belone
  | .delete broad_id broad_belone => do_deleteBroads broad_id broad_belone

def step (r : Req) (s : Store) : Store := (run r.handler s).2

/-! ## What is expected -/

/-- The id is on no list and has no record. -/
structure Fresh (s : Store) (id : String) : Prop where
  list : ∀ key, id ∉ s.list key
  info : s.info id = none

/-- The broadcast is pushed, other requests come, and it is deleted: every list is as if there had been the others only. -/
def Restored (broadcastInfo : Info) (broad_type selfUid broad_belone : String) (others : List Req) (s : Store) : Prop :=
  ∀ key, (after step (.push broadcastInfo broad_type selfUid broad_belone :: others ++ [.delete broadcastInfo.broad_id broad_belone]) s).list key =
    (after step others s).list key

/-! ## What the requests do to the lists -/

/-- The lists that a push puts the broadcast on. -/
def pushed (broad_type selfUid broad_belone : String) : List Key :=
  if broad_belone = "HALL" then
    match int selfUid with
    | none => []
    | some n => (if n ≠ 1 then [.hallAgList selfUid, .hallContainAgList broad_type selfUid] else []) ++ [.hallList, .hallContainAllList broad_type]
  else if broad_belone = "FISH" then [.fishList, .fishContainAllList broad_type]
  else []

/-- The lists that a removal takes it from. -/
def removed (send_ag send_type : Option String) (broad_belone : String) : List Key :=
  if broad_belone = "HALL" then
    [.hallList, .hallAgList (fmt send_ag), .hallContainAgList (fmt send_ag) (fmt send_type), .hallContainAllList (fmt send_type)]
  else if broad_belone = "FISH" then [.fishList, .fishContainAllList (fmt send_type)]
  else []

section Steps
variable {s : Store} {info : Info} {broad_type selfUid broad_belone broad_id : String}

/-- A push writes the record and the lists, or nothing. -/
theorem step_push (hnot : pushed broad_type selfUid broad_belone ≠ []) : step (.push info broad_type selfUid broad_belone) s =
    { s with
      info := update s.info info.broad_id (some info)
      list := moves info.broad_id ((pushed broad_type selfUid broad_belone).map (·, Move.on)) s.list } := by
  show (run (push_broacast info broad_type selfUid broad_belone) s).2 = _
  unfold push_broacast pushed at *
  by_cases hhall : broad_belone = "HALL"
  · rw [if_pos hhall] at hnot ⊢
    rw [if_pos hhall]
    cases hint : int selfUid with
    | none =>
      rw [hint] at hnot
      exact absurd rfl hnot
    | some n =>
      rw [orRaise_some, ret_bind]
      dsimp only
      by_cases hone : n ≠ 1
      · rw [if_pos hone, if_pos hone]
        rfl
      · rw [if_neg hone, if_neg hone]
        rfl
  · rw [if_neg hhall] at hnot ⊢
    rw [if_neg hhall]
    by_cases hfish : broad_belone = "FISH"
    · rw [if_pos hfish, if_pos hfish]
      rfl
    · rw [if_neg hfish] at hnot
      exact absurd rfl hnot

theorem step_push_nothing (hno : pushed broad_type selfUid broad_belone = []) : step (.push info broad_type selfUid broad_belone) s = s := by
  show (run (push_broacast info broad_type selfUid broad_belone) s).2 = s
  unfold push_broacast
  unfold pushed at hno
  by_cases hhall : broad_belone = "HALL"
  · rw [if_pos hhall] at hno ⊢
    cases hint : int selfUid with
    | none => rfl
    | some n =>
      rw [hint] at hno
      exact absurd hno (List.append_ne_nil_of_right_ne_nil _ (List.cons_ne_nil _ _))
  · rw [if_neg hhall] at hno ⊢
    by_cases hfish : broad_belone = "FISH"
    · rw [if_pos hfish] at hno
      cases hno
    · rw [if_neg hfish]
      rfl

theorem step_delete : step (.delete broad_id broad_belone) s =
    { s with
      info := update s.info broad_id none
      list := moves broad_id ((removed ((s.info broad_id).map Info.parent_ag) ((s.info broad_id).map Info.broad_type) broad_belone).map
        (·, Move.off)) s.list
      outSet := if s.outSet broad_id then update s.outSet broad_id false else s.outSet
      playSet := if s.playSet broad_id then update s.playSet broad_id false else s.playSet } := by
  show (run (do_deleteBroads broad_id broad_belone) s).2 = _
  unfold do_deleteBroads removed
  cases hout : s.outSet broad_id <;> cases hplay : s.playSet broad_id <;>
    by_cases hhall : broad_belone = "HALL" <;> by_cases hfish : broad_belone = "FISH" <;>
    simp [call, Exec.exec, hout, hplay, hhall, hfish, applyWrite, moved]

theorem nodup_pushed : (pushed broad_type selfUid broad_belone).Nodup := by
  unfold pushed
  split
  · split
    · exact List.nodup_nil
    · split <;> simp
  · split <;> simp

theorem nodup_removed {send_ag send_type : Option String} : (removed send_ag send_type broad_belone).Nodup := by
  unfold removed
  split
  · simp
  · split <;> simp

end Steps

/-! ## With the broadcast and without it -/

section Apart
variable {b : String} {own : Option Info} {keys : List Key} {s₁ s₂ : Store}

/-- The first store has one broadcast more, with its record, and on the lists `keys`. -/
structure Apart (b : String) (own : Option Info) (keys : List Key) (s₁ s₂ : Store) : Prop where
  list : ∀ key, (s₁.list key).filter (· ≠ b) = s₂.list key
  on : ∀ key, b ∈ s₁.list key ↔ key ∈ keys
  info : ∀ id ≠ b, s₁.info id = s₂.info id
  own : s₁.info b = own

/-- One item moves on both sides. -/
theorem Apart.moves (h : Apart b own keys s₁ s₂) {id : String} (hid : b ≠ id) (ms : List (Key × Move)) (o : Option Info) {s₁' s₂' : Store}
    (hlist₁ : s₁'.list = moves id ms s₁.list) (hlist₂ : s₂'.list = moves id ms s₂.list) (hinfo₁ : s₁'.info = update s₁.info id o)
    (hinfo₂ : s₂'.info = update s₂.info id o) : Apart b own keys s₁' s₂' where
  list key := by
    rw [hlist₁, hlist₂, filter_moves_other id ms s₁.list hid, funext h.list]
  on key := by rw [hlist₁, mem_moves_other id ms s₁.list hid, h.on]
  info j hj := by
    rw [hinfo₁, hinfo₂]
    by_cases hself : j = id
    · rw [hself, update_self, update_self]
    · rw [update_of_ne hself, update_of_ne hself, h.info j hj]
  own := by rw [hinfo₁, update_of_ne hid, h.own]

theorem Apart.step (h : Apart b own keys s₁ s₂) {r : Req} (hr : r.broad_id ≠ b) : Apart b own keys (step r s₁) (step r s₂) := by
  cases r with
  | push info broad_type selfUid broad_belone =>
    by_cases hnot : pushed broad_type selfUid broad_belone = []
    · rw [step_push_nothing hnot, step_push_nothing hnot]
      exact h
    · rw [step_push hnot, step_push hnot]
      exact h.moves (Ne.symm hr) _ (some info) rfl rfl rfl rfl
  | delete broad_id broad_belone =>
    rw [step_delete, step_delete, h.info broad_id hr]
    exact h.moves (Ne.symm hr) _ none rfl rfl rfl rfl

theorem Apart.after (h : Apart b own keys s₁ s₂) {others : List Req} (hothers : ∀ r ∈ others, r.broad_id ≠ b) :
    Apart b own keys (after Undo.step others s₁) (after Undo.step others s₂) := by
  induction others generalizing s₁ s₂ with
  | nil => exact h
  | cons r others ih => exact ih (h.step (hothers r List.mem_cons_self)) fun r' hr' => hothers r' (List.mem_cons_of_mem _ hr')

/-- A new broadcast is pushed. -/
theorem apart_push {info : Info} (broad_type selfUid broad_belone : String) {s : Store} (hnew : Fresh s info.broad_id) :
    Apart info.broad_id (if pushed broad_type selfUid broad_belone = [] then none else some info) (pushed broad_type selfUid broad_belone)
      (step (.push info broad_type selfUid broad_belone) s) s := by
  have hall : ∀ key, (s.list key).filter (· ≠ info.broad_id) = s.list key := by
    intro key
    rw [List.filter_eq_self]
    intro j hj
    exact decide_eq_true fun he => hnew.list key (he ▸ hj)
  by_cases hnot : pushed broad_type selfUid broad_belone = []
  · rw [step_push_nothing hnot, hnot, if_pos rfl]
    exact ⟨hall, fun key => iff_of_false (hnew.list key) List.not_mem_nil, fun _ _ => rfl, hnew.info⟩
  · rw [step_push hnot, if_neg hnot]
    refine ⟨fun key => ?_, fun key => ?_, fun id hid => update_of_ne hid .., update_self ..⟩
    · rw [filter_moves_self, hall]
    · dsimp only
      by_cases hkey : key ∈ pushed broad_type selfUid broad_belone
      · rw [moves_map_of_mem _ _ nodup_pushed hkey]
        exact iff_of_true List.mem_cons_self hkey
      · rw [moves_map_of_not_mem _ _ hkey]
        exact iff_of_false (hnew.list key) hkey

/-- The removal leaves a list as it is without the broadcast exactly where it stands on none that is passed over. -/
theorem Apart.delete_iff (h : Apart b own keys s₁ s₂) (broad_belone : String) (key : Key) :
    (Undo.step (.delete b broad_belone) s₁).list key = s₂.list key ↔
      (key ∈ keys → key ∈ removed (own.map Info.parent_ag) (own.map Info.broad_type) broad_belone) := by
  rw [step_delete, h.own]
  dsimp only
  generalize hl : removed (own.map Info.parent_ag) (own.map Info.broad_type) broad_belone = l
  have hnodup : l.Nodup := hl ▸ nodup_removed
  by_cases hkey : key ∈ l
  · rw [moves_map_of_mem _ _ hnodup hkey]
    exact iff_of_true (h.list key) fun _ => hkey
  · rw [moves_map_of_not_mem _ _ hkey, ← h.list key, ← h.on key]
    constructor
    · intro hsame hon
      rw [hsame] at hon
      exact absurd rfl (of_decide_eq_true (List.mem_filter.1 hon).2)
    · intro hoff
      rw [eq_comm, List.filter_eq_self]
      intro j hj
      exact decide_eq_true fun he => hkey (hoff (he ▸ hj))

end Apart

/-! ## The removal undoes the push -/

section Undone
variable {s : Store}

/-- The removal looks where the push has been. -/
theorem restored_iff (info : Info) {broad_belone : String} (hnew : Fresh s info.broad_id) {others : List Req}
    (hothers : ∀ r ∈ others, r.broad_id ≠ info.broad_id) :
    Restored info info.broad_type info.parent_ag broad_belone others s ↔
      ∀ key ∈ pushed info.broad_type info.parent_ag broad_belone,
        key ∈ removed (some info.parent_ag) (some info.broad_type) broad_belone := by
  have hapart := (apart_push info.broad_type info.parent_ag broad_belone hnew).after hothers
  have hrun : ∀ s : Store, after step (.push info info.broad_type info.parent_ag broad_belone :: others ++ [.delete info.broad_id broad_belone]) s =
      step (.delete info.broad_id broad_belone) (after step others (step (.push info info.broad_type info.parent_ag broad_belone) s)) :=
    fun s => after_append (_ :: others) _ s
  unfold Restored
  simp only [hrun, hapart.delete_iff]
  refine forall_congr' fun key => forall_congr' fun hkey => ?_
  rw [if_neg (List.ne_nil_of_mem hkey)]
  rfl

theorem covered_iff (broad_type selfUid broad_belone : String) :
    (∀ key ∈ pushed broad_type selfUid broad_belone, key ∈ removed (some selfUid) (some broad_type) broad_belone) ↔
      (broad_belone = "HALL" → ∀ n, int selfUid = some n → n ≠ 1 → broad_type = selfUid) := by
  unfold pushed removed
  by_cases hhall : broad_belone = "HALL"
  · rw [if_pos hhall, if_pos hhall, forall_prop_of_true hhall]
    cases int selfUid with
    | none => exact iff_of_true (fun _ hkey => absurd hkey List.not_mem_nil) fun _ hn => nomatch hn
    | some n =>
      dsimp only
      by_cases hone : n = 1
      · subst hone
        refine iff_of_true (by simp) fun m hm hne => ?_
        exact absurd (Option.some.inj hm).symm hne
      · -- of the four lists only that of the two parts can be missed
        simp [hone, eq_comm]
  · rw [if_neg hhall, if_neg hhall]
    exact iff_of_true (fun _ hkey => hkey) fun he => absurd he hhall

/-- For every broadcast and whatever else is pushed and deleted, the removal undoes the push exactly when the broadcast is no
hall broadcast of an agent other than 1, or its type is the number of the agent. -/
theorem removal_restores_iff (f : Form) (selfUid broad_id broad_title : String) (s : Store) (hnew : Fresh s broad_id) (others : List Req)
    (hothers : ∀ r ∈ others, r.broad_id ≠ broad_id) :
    Restored (broadcastInfo f selfUid broad_id broad_title) f.broad_type selfUid f.broad_belone others s ↔
      (f.broad_belone = "HALL" → ∀ n, int selfUid = some n → n ≠ 1 → f.broad_type = selfUid) :=
  (restored_iff (broadcastInfo f selfUid broad_id broad_title) hnew hothers).trans (covered_iff f.broad_type selfUid f.broad_belone)

end Undone

theorem fresh_empty (id : String) : Fresh .empty id := ⟨fun _ => List.not_mem_nil, rfl⟩

/-- What the agent 5 fills in, for a broadcast that is repeated in his region. -/
def regional (broad_belone : String) : Form := ⟨"3", "2020-01-01 00:00", "2020-02-01 00:00", "hello", 5, broad_belone⟩

/-- A broadcast of the fish system goes, with another one pushed in between. -/
theorem removal_restores_fish :
    Restored (broadcastInfo (regional "FISH") "5" "7" "t") "3" "5" "FISH" [.push (broadcastInfo (regional "HALL") "5" "8" "t") "3" "5" "HALL"] .empty :=
  (removal_restores_iff (regional "FISH") "5" "7" "t" .empty (fresh_empty "7") _ (by decide)).2 fun he => absurd he (by decide)

/-- A broadcast of the hall stays on the list of its type and agent. -/
theorem removal_leaves_hall : ¬Restored (broadcastInfo (regional "HALL") "5" "7" "t") "3" "5" "HALL" [] .empty := by
  intro hrestored
  have hlist := hrestored (.hallContainAgList "3" "5")
  revert hlist
  decide +kernel

end FishWeb.Broadcast.Undo
