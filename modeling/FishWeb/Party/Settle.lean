import FishWeb.Party.Model
import Mathlib.Data.Rat.Floor
/-!
# What a settlement books

The worker stops at the first name that it does not import, before anything is counted
(`run_worker`): no settlement is right (`settlement_never_right`), and each is all or nothing
(`all_or_nothing`).

Where the names are imported, a settlement that reaches its loop counts up the cards of each
account at once (`charged`). The records, the ranks and the record of the day are queued, and
are written only where the record of the day has a count of the players online (`settled`). So
such a settlement is all or nothing where it has, where the loop is not reached, and where
nothing is counted (`imported_all_or_nothing_iff`). The winners share the pot of the others
rounded down (`imported_right_iff`).
-/
open Python Prog Counters

namespace FishWeb.Party

open Function (update)

/-! ## The accounts with the greatest score -/

/-- Who has the greatest score. -/
def ScoreMap.winners (data : ScoreMap) : List String :=
  (data.items.filter fun x => ∀ y ∈ data.items, y.2 ≤ x.2).map Prod.fst

theorem ScoreMap.maxList_eq {data : ScoreMap} {max_score : Int} (h : data.values.max? = some max_score) :
    data.maxList max_score = data.winners := by
  obtain ⟨hmem, hmax⟩ := List.max?_eq_some_iff.1 h
  obtain ⟨x, hx, rfl⟩ := List.mem_map.1 hmem
  have hle : ∀ y ∈ data.items, y.2 ≤ x.2 := fun y hy => hmax y.2 (List.mem_map_of_mem hy)
  unfold ScoreMap.maxList ScoreMap.winners
  refine congrArg _ (List.filter_congr fun y hy => decide_eq_decide.2 ⟨?_, fun h => ?_⟩)
  · exact fun h z hz => h ▸ hle z hz
  · exact le_antisymm (hle y hy) (h x hx)

theorem ScoreMap.max_some {data : ScoreMap} (h : data.items ≠ []) : ∃ max_score, data.values.max? = some max_score := by
  cases hmax : data.values.max? with
  | some max_score => exact ⟨max_score, rfl⟩
  | none => exact absurd (List.map_eq_nil_iff.1 (List.max?_eq_none_iff.1 hmax)) h

theorem ScoreMap.winners_ne_nil {data : ScoreMap} (h : data.items ≠ []) : data.winners ≠ [] := by
  obtain ⟨max_score, hmax⟩ := data.max_some h
  rw [← maxList_eq hmax]
  obtain ⟨x, hx, hscore⟩ := List.mem_map.1 (List.max?_eq_some_iff.1 hmax).1
  exact List.ne_nil_of_mem (List.mem_map_of_mem (List.mem_filter.2 ⟨hx, decide_eq_true hscore⟩))

theorem ScoreMap.winners_sub {data : ScoreMap} {account : String} (h : account ∈ data.winners) : account ∈ data.keys := by
  obtain ⟨x, hx, rfl⟩ := List.mem_map.1 h
  exact List.mem_map_of_mem (List.mem_filter.1 hx).1

/-! ## What the loop comes to -/

/-- Where an account is booked on a day. -/
def St.key (s : St) (today account : String) : Key := (today, s.parentAg (fmt (s.userTable account)), account)

/-- The result of an account, for a fee and a share. -/
def resultOf (per_persume per_count : Int) (max_list : List String) (account : String) : Int :=
  if account ∈ max_list then per_count - per_persume else 0 - per_persume

def St.row (s : St) (today : String) (max_score : Int) (result : String → Int) (account : String) : Row :=
  ⟨s.key today account, ⟨result account, descOf max_score (result account), 0⟩⟩

/-- The number of the next record. -/
def St.tableId (s : St) : Int := s.recordCount.getD 0 + 1

/-- What the loop adds to the cards. -/
def St.charges (s : St) (today : String) (result : String → Int) (accounts : List String) : List (Key × Int) :=
  accounts.map fun account => (s.key today account, result account)

theorem run_loadLists (desc : Desc) (s : St) : run (loadLists imported desc) s = (.ok (), s) := by cases desc <;> rfl

theorem run_book (today : String) (max_score per_persume per_count : Int) (max_list : List String) (account : String) (s : St) :
    run (book imported today max_score per_persume per_count max_list account) s =
      (.ok (s.row today max_score (resultOf per_persume per_count max_list) account),
        { s with cards := incrby s.cards (s.key today account) (resultOf per_persume per_count max_list account) }) := by
  unfold book
  show run (loadLists imported _ >>= _) { s with cards := incrby s.cards (s.key today account) _ } = _
  rw [run_bind_ok (run_loadLists ..)]
  rfl

theorem run_collect_book (today : String) (max_score per_persume per_count : Int) (max_list accounts : List String) (s : St) :
    run (collect accounts (book imported today max_score per_persume per_count max_list)) s =
      (.ok (accounts.map (s.row today max_score (resultOf per_persume per_count max_list))),
        { s with cards := incrAll (s.charges today (resultOf per_persume per_count max_list) accounts) s.cards }) := by
  induction accounts generalizing s with
  | nil => rfl
  | cons account accounts ih =>
    rw [collect_cons, run_bind_ok (run_book ..), run_bind_ok (ih _)]
    rfl

/-! ## What the pipeline writes -/

/-- The record pushed on each list. -/
def pushAll (table_id : Int) (keys : List Key) (t : Key → List Int) : Key → List Int :=
  keys.foldl (fun t key => St.push t key table_id) t

theorem pushAll_eq {table_id : Int} {keys : List Key} (hnd : keys.Nodup) (t : Key → List Int) (key : Key) :
    pushAll table_id keys t key = if key ∈ keys then table_id :: t key else t key := by
  induction keys generalizing t with
  | nil => rfl
  | cons j keys ih =>
    obtain ⟨hj, hnd⟩ := List.nodup_cons.1 hnd
    show pushAll table_id keys (St.push t j table_id) key = _
    rw [ih hnd, St.push]
    by_cases hkey : key = j
    · subst hkey
      simp [hj]
    · simp [hkey]

/-- Where a win is booked. -/
def wonKeys (rows : List Row) : List Key := (rows.filter (·.result.desc = .win)).map Row.key

theorem foldl_rows (table_id : Int) (rows : List Row) (s : St) :
    (rows.flatMap (Row.writes table_id)).foldl St.write s = { s with
      rank := incrAll ((wonKeys rows).map fun key => (key, 1)) s.rank
      winList := pushAll table_id (wonKeys rows) s.winList
      totalList := pushAll table_id (rows.map Row.key) s.totalList } := by
  induction rows generalizing s with
  | nil => rfl
  | cons row rows ih =>
    rw [List.flatMap_cons, List.foldl_append, ih]
    by_cases hwin : row.result.desc = .win
    · have hwon : wonKeys (row :: rows) = row.key :: wonKeys rows := by simp [wonKeys, hwin]
      rw [hwon, Row.writes, if_pos hwin]
      rfl
    · have hwon : wonKeys (row :: rows) = wonKeys rows := by simp [wonKeys, hwin]
      rw [hwon, Row.writes, if_neg hwin]
      rfl

/-! ## The whole settlement -/

section Settle
variable (get_party_game_winner get_party_game_loser : St → String → Int × Int) (today now : String) {server_table gameid : String}
  {data : ScoreMap} {s : St} {per_persume players : Int}

/-- The loop is reached, with the fee and the number of players there are. -/
structure Reaches (s : St) (server_table gameid : String) (data : ScoreMap) (per_persume players : Int) : Prop where
  game : (split ':' server_table)[3]? = some gameid
  some : data.items ≠ []
  fee : (Count.field s.enterRoomCards).int = .ok per_persume
  players : playersOf (s.queue.partyPlayerCount gameid) = .ok players

/-- The results of a settlement. -/
def ScoreMap.result (data : ScoreMap) (per_persume players : Int) : String → Int :=
  resultOf per_persume ((players - 1) / (data.winners.length : Int)) data.winners

/-- The store after the loop. -/
def St.charged (s : St) (today : String) (data : ScoreMap) (result : String → Int) : St :=
  { s with
    recordCount := some s.tableId
    cards := incrAll (s.charges today result data.keys) s.cards }

/-- The store after the pipeline. -/
def St.settled (s : St) (get_party_game_winner get_party_game_loser : St → String → Int × Int) (today now gameid : String)
    (data : ScoreMap) (max_score : Int) (result : String → Int) (online_count : Int) : St :=
  let rows := data.keys.map (s.row today max_score result)
  let t := s.charged today data result
  { t with
    rank := incrAll ((wonKeys rows).map fun key => (key, 1)) s.rank
    winList := pushAll s.tableId (wonKeys rows) s.winList
    totalList := pushAll s.tableId (rows.map Row.key) s.totalList
    record := update s.record (today, s.tableId) (Dict.update (s.record (today, s.tableId)) (recordInfo now gameid s.tableId rows))
    operate := update s.operate today (some { s.operateOf today with
      online_count := some (toString (online_count - data.keys.length))
      winner := some (get_party_game_winner t today)
      loser := some (get_party_game_loser t today) }) }

/-- A settlement that reaches the loop. -/
theorem run_settle (h : Reaches s server_table gameid data per_persume players) {max_score : Int}
    (hmax : data.values.max? = some max_score) :
    run (onPartyRoomBalanceSuccess imported get_party_game_winner get_party_game_loser today now server_table data) s =
      match (Count.field (s.operateOf today).online_count).int with
      | .ok online_count => (.ok 0, s.settled get_party_game_winner get_party_game_loser today now gameid data max_score
          (data.result per_persume players) online_count)
      | .error e => (.error e, s.charged today data (data.result per_persume players)) := by
  have hplayers : run (get_party_game_player_count gameid) s = (.ok players, s) := by
    unfold get_party_game_player_count
    show run (ofExcept (playersOf (s.queue.partyPlayerCount gameid))) s = _
    rw [h.players]
    rfl
  unfold onPartyRoomBalanceSuccess
  rw [h.game, hmax]
  show run (ofExcept (Count.field s.enterRoomCards).int >>= _) s = _
  rw [h.fee, data.maxList_eq hmax]
  show run (get_party_game_player_count gameid >>= _) s = _
  rw [run_bind_ok hplayers]
  show run (collect data.keys _ >>= _) { s with recordCount := some s.tableId } = _
  rw [run_bind_ok (run_collect_book ..)]
  show run (ofExcept (Count.field (s.operateOf today).online_count).int >>= _) (s.charged today data (data.result per_persume players)) = _
  cases (Count.field (s.operateOf today).online_count).int with
  | error e => rfl
  | ok online_count =>
    show (_, (_ ++ _ : List Write).foldl St.write _) = _
    rw [List.foldl_append, foldl_rows]
    rfl

/-- A settlement that does not reach the loop changes nothing. -/
theorem run_stopped (h : ∀ gameid per_persume players, ¬Reaches s server_table gameid data per_persume players) :
    ∃ e, run (onPartyRoomBalanceSuccess imported get_party_game_winner get_party_game_loser today now server_table data) s = (.error e, s) := by
  unfold onPartyRoomBalanceSuccess
  cases hgame : (split ':' server_table)[3]? with
  | none => exact ⟨_, rfl⟩
  | some gameid =>
  cases hmax : data.values.max? with
  | none => exact ⟨_, rfl⟩
  | some max_score =>
  cases hfee : (Count.field s.enterRoomCards).int with
  | error e => exact ⟨e, by show run (ofExcept (Count.field s.enterRoomCards).int >>= _) s = _; rw [hfee]; rfl⟩
  | ok per_persume =>
  have hsome : data.items ≠ [] := fun hnil => by
    rw [ScoreMap.values, hnil] at hmax
    cases hmax
  cases hplayers : playersOf (s.queue.partyPlayerCount gameid) with
  | ok players => exact absurd ⟨hgame, hsome, hfee, hplayers⟩ (h gameid per_persume players)
  | error e =>
    have hraised : run (get_party_game_player_count gameid) s = (.error e, s) := by
      unfold get_party_game_player_count
      show run (ofExcept (playersOf (s.queue.partyPlayerCount gameid))) s = _
      rw [hplayers]
      rfl
    refine ⟨e, ?_⟩
    show run (ofExcept (Count.field s.enterRoomCards).int >>= _) s = _
    rw [hfee]
    show run (get_party_game_player_count gameid >>= _) s = _
    exact run_bind_error hraised

/-- The worker imports no name of the parties: a settlement changes nothing. -/
theorem run_worker (server_table : String) (data : ScoreMap) (s : St) :
    ∃ e, run (onPartyRoomBalanceSuccess party_worker get_party_game_winner get_party_game_loser today now server_table data) s =
      (.error e, s) := by
  unfold onPartyRoomBalanceSuccess
  cases (split ':' server_table)[3]? with
  | none => exact ⟨_, rfl⟩
  | some gameid =>
  cases data.values.max? with
  | none => exact ⟨_, rfl⟩
  | some max_score => exact ⟨.NameError, rfl⟩

end Settle

/-! ## Books -/

/-- What the record says of an account. -/
def St.recorded (s : St) (today : String) (table_id : Int) (account : String) : Option Result :=
  match (s.record (today, table_id)).lookup account with
  | some (.result r) => some r
  | _ => none

/-- The record describes the account as winning. -/
def St.Described (s : St) (today : String) (table_id : Int) (account : String) : Prop :=
  (s.recorded today table_id account).map Result.desc = some .win

/-- The counters, the records and the day's record are written for the accounts, from `s` to `s'`. -/
structure Booked (s : St) (today : String) (data : ScoreMap) (s' : St) : Prop where
  recorded : ∀ account ∈ data.keys, ∃ r, s'.recorded today s.tableId account = some r ∧
    s'.cards (s.key today account) = some (val s.cards (s.key today account) + r.result)
  uncounted : ∀ k, (∀ account ∈ data.keys, k ≠ s.key today account) → s'.cards k = s.cards k
  won : ∀ account ∈ data.keys, s'.Described today s.tableId account →
    val s'.rank (s.key today account) = val s.rank (s.key today account) + 1 ∧
      s'.winList (s.key today account) = s.tableId :: s.winList (s.key today account)
  unwon : ∀ k, (∀ account ∈ data.keys, s'.Described today s.tableId account → k ≠ s.key today account) →
    s'.rank k = s.rank k ∧ s'.winList k = s.winList k
  total : ∀ account ∈ data.keys, s'.totalList (s.key today account) = s.tableId :: s.totalList (s.key today account)
  untotal : ∀ k, (∀ account ∈ data.keys, k ≠ s.key today account) → s'.totalList k = s.totalList k
  operate : ∃ n, (Count.field (s.operateOf today).online_count).int = .ok n ∧
    (s'.operateOf today).online_count = some (toString (n - data.keys.length)) ∧
    (s'.operateOf today).winner.isSome ∧ (s'.operateOf today).loser.isSome

theorem key_injective (s : St) (today : String) : Function.Injective (s.key today) := fun _ _ h =>
  (Prod.mk.inj (Prod.mk.inj h).2).2

section Booked
variable {today now gameid : String} {data : ScoreMap} {s : St} {winner loser : St → String → Int × Int} {max_score : Int}
  {result : String → Int} {online_count : Int}

/-- The record says of each account what the loop has put there, also where it is named as another field. -/
theorem recorded_settled {account : String} (h : account ∈ data.keys) :
    (s.settled winner loser today now gameid data max_score result online_count).recorded today s.tableId account =
      some ⟨result account, descOf max_score (result account), 0⟩ := by
  have hinfo : (recordInfo now gameid s.tableId (data.keys.map (s.row today max_score result))).lookup account =
      some (.result ⟨result account, descOf max_score (result account), 0⟩) := by
    have hkeys : ((data.keys.map (s.row today max_score result)).map fun row => (row.key.2.2, Info.result row.result)).map Prod.fst =
        data.keys := by
      rw [List.map_map, List.map_map]
      exact List.map_id _
    have hnodup : (((data.keys.map (s.row today max_score result)).map fun row => (row.key.2.2, Info.result row.result)).map Prod.fst).Nodup :=
      hkeys.symm ▸ data.nodup
    exact Dict.lookup_update hnodup (List.mem_map_of_mem (List.mem_map_of_mem h))
  have hnodup : (Dict.keys (recordInfo now gameid s.tableId (data.keys.map (s.row today max_score result)))).Nodup :=
    Dict.nodup_keys_update (by simp [Dict.keys]) _
  have hlookup : (Dict.update (s.record (today, s.tableId)) _).lookup account = _ :=
    Dict.lookup_update hnodup (Dict.mem_of_lookup hinfo)
  unfold St.recorded St.settled
  simp only [Function.update_self]
  rw [hlookup]

/-- The keys at which a win is booked are those of the accounts that the record describes as winning. -/
theorem mem_wonKeys (k : Key) :
    k ∈ wonKeys (data.keys.map (s.row today max_score result)) ↔
      ∃ account ∈ data.keys,
        (s.settled winner loser today now gameid data max_score result online_count).Described today s.tableId account ∧
        k = s.key today account := by
  unfold wonKeys
  simp only [List.mem_map, List.mem_filter, decide_eq_true_eq]
  constructor
  · rintro ⟨_, ⟨⟨account, haccount, rfl⟩, hwin⟩, rfl⟩
    refine ⟨account, haccount, ?_, rfl⟩
    rw [St.Described, recorded_settled haccount]
    exact congrArg some hwin
  · rintro ⟨account, haccount, hdescribed, rfl⟩
    rw [St.Described, recorded_settled haccount] at hdescribed
    exact ⟨_, ⟨⟨account, haccount, rfl⟩, Option.some.inj hdescribed⟩, rfl⟩

theorem nodup_rows : ((data.keys.map (s.row today max_score result)).map Row.key).Nodup := by
  rw [List.map_map]
  exact data.nodup.map (key_injective s today)

theorem nodup_wonKeys : (wonKeys (data.keys.map (s.row today max_score result))).Nodup :=
  (nodup_rows (s := s)).sublist (List.filter_sublist.map _)

theorem booked_settled (hread : (Count.field (s.operateOf today).online_count).int = .ok online_count) :
    Booked s today data (s.settled winner loser today now gameid data max_score result online_count) where
  recorded account h := by
    refine ⟨_, recorded_settled h, ?_⟩
    exact incrAll_keyed (key_injective s today) data.nodup result s.cards h
  uncounted k h := by
    refine incrAll_other (fun p hp heq => ?_) s.cards
    obtain ⟨account, haccount, rfl⟩ := List.mem_map.1 hp
    exact h account haccount heq.symm
  won account h hdescribed := by
    have hmem : s.key today account ∈ wonKeys (data.keys.map (s.row today max_score result)) :=
      (mem_wonKeys _).2 ⟨account, h, hdescribed, rfl⟩
    refine ⟨?_, ?_⟩
    · have hcount : incrAll ((wonKeys (data.keys.map (s.row today max_score result))).map fun key => (key, 1)) s.rank
          (s.key today account) = some (val s.rank (s.key today account) + 1) :=
        incrAll_keyed Function.injective_id nodup_wonKeys (fun _ => 1) s.rank hmem
      show (incrAll _ s.rank (s.key today account)).getD 0 = _
      rw [hcount]
      rfl
    · show pushAll _ _ s.winList _ = _
      rw [pushAll_eq nodup_wonKeys, if_pos hmem]
  unwon k h := by
    have hmem : k ∉ wonKeys (data.keys.map (s.row today max_score result)) := fun hmem => by
      obtain ⟨account, haccount, hdescribed, hk⟩ := (mem_wonKeys k).1 hmem
      exact h account haccount hdescribed hk
    refine ⟨?_, ?_⟩
    · refine incrAll_other (fun p hp heq => ?_) s.rank
      obtain ⟨j, hj, rfl⟩ := List.mem_map.1 hp
      exact hmem (heq ▸ hj)
    · show pushAll _ _ s.winList _ = _
      rw [pushAll_eq nodup_wonKeys, if_neg hmem]
  total account h := by
    show pushAll _ _ s.totalList _ = _
    have hmem : s.key today account ∈ (data.keys.map (s.row today max_score result)).map Row.key := by
      rw [List.map_map]
      exact List.mem_map_of_mem (f := Row.key ∘ s.row today max_score result) h
    rw [pushAll_eq nodup_rows, if_pos hmem]
  untotal k h := by
    show pushAll _ _ s.totalList _ = _
    rw [pushAll_eq nodup_rows, if_neg]
    rw [List.map_map]
    rintro hmem
    obtain ⟨account, haccount, rfl⟩ := List.mem_map.1 hmem
    exact h account haccount rfl
  operate := by
    refine ⟨online_count, hread, ?_⟩
    simp [St.operateOf, St.settled]

end Booked

/-! ## The share -/

/-- The share rounded down is the share rounded up where nothing is left over. -/
theorem share_eq_iff {n : Int} {w : Nat} (hw : 0 < w) : n / (w : Int) = ⌈(n : ℚ) / w⌉ ↔ (w : Int) ∣ n := by
  have hfloor : n / (w : Int) = ⌊(n : ℚ) / w⌋ := by
    rw [Rat.floor_intCast_div_natCast]
  have hpos : (0 : ℚ) < w := by exact_mod_cast hw
  constructor
  · intro h
    have hle : (n : ℚ) / w ≤ (n / (w : Int) : Int) := h ▸ Int.le_ceil _
    have hge : ((n / (w : Int) : Int) : ℚ) ≤ (n : ℚ) / w := hfloor ▸ Int.floor_le _
    have heq := le_antisymm hle hge
    rw [div_eq_iff hpos.ne'] at heq
    exact ⟨n / w, by rw [Int.mul_comm]; exact_mod_cast heq⟩
  · rintro ⟨k, rfl⟩
    have hw' : (w : Int) ≠ 0 := by exact_mod_cast hw.ne'
    rw [Int.mul_ediv_cancel_left k hw']
    have hcast : (((w : Int) * k : Int) : ℚ) / w = (k : Int) := by
      push_cast
      field_simp
    rw [hcast, Int.ceil_intCast]

/-- The share of a winner, for `players` and as many winners. -/
def shareOf (players : Int) (winners : Nat) : Int := ⌈((players - 1 : Int) : ℚ) / winners⌉

/-- The settlement books the share rounded up less the fee on each winner and the fee on each other account. -/
def Right (s : St) (today : String) (data : ScoreMap) (per_persume players : Int) (r : Except Err Int × St) : Prop :=
  r.1 = .ok 0 ∧ Booked s today data r.2 ∧
    ∀ account ∈ data.keys, (r.2.recorded today s.tableId account).map Result.result =
      some (if account ∈ data.winners then shareOf players data.winners.length - per_persume else -per_persume)

/-- Where the names are imported, a settlement with a fee and a number of players is right if and only if the day has a count of the
players online, and the share of the others is one of whole cards. -/
theorem imported_right_iff (get_party_game_winner get_party_game_loser : St → String → Int × Int) (today now : String)
    {server_table gameid : String} {data : ScoreMap} {s : St} {per_persume players : Int}
    (h : Reaches s server_table gameid data per_persume players) :
    Right s today data per_persume players
        (run (onPartyRoomBalanceSuccess imported get_party_game_winner get_party_game_loser today now server_table data) s) ↔
      (∃ n, (Count.field (s.operateOf today).online_count).int = .ok n) ∧ (data.winners.length : Int) ∣ players - 1 := by
  obtain ⟨max_score, hmax⟩ := data.max_some h.some
  have hwinners := List.length_pos_iff.2 (data.winners_ne_nil h.some)
  rw [run_settle get_party_game_winner get_party_game_loser today now h hmax]
  cases hread : (Count.field (s.operateOf today).online_count).int with
  | error e => exact ⟨fun hright => (nomatch hright.1), fun ⟨⟨_, hn⟩, _⟩ => nomatch hn⟩
  | ok n =>
    rw [← share_eq_iff hwinners]
    constructor
    · rintro ⟨-, -, hresult⟩
      refine ⟨⟨n, rfl⟩, ?_⟩
      obtain ⟨account, haccount⟩ := List.exists_mem_of_ne_nil _ (data.winners_ne_nil h.some)
      have hone := hresult account (ScoreMap.winners_sub haccount)
      rw [recorded_settled (ScoreMap.winners_sub haccount), if_pos haccount] at hone
      have hone : resultOf _ _ _ account = _ := Option.some.inj hone
      rw [resultOf, if_pos haccount, shareOf] at hone
      omega
    · rintro ⟨-, hshare⟩
      refine ⟨rfl, booked_settled hread, fun account haccount => ?_⟩
      rw [recorded_settled haccount, shareOf, ← hshare]
      show some (resultOf _ _ _ account) = _
      unfold resultOf
      rw [Int.zero_sub]

/-- The service of the parties on the second of October, when four players are in a room of game 560. -/
def fourPlayers : St where
  queue := Match.St.ofLists [] [] []
  userTable account := some ("users:" ++ account)
  parentAg _ := some "7"
  enterRoomCards := some "1"
  recordCount := none
  cards _ := none
  rank _ := none
  winList _ := []
  totalList _ := []
  record _ := []
  operate today := if today = "2017-10-02" then some { Operate.empty with online_count := some "4" } else none

def roomServer : String := "service:1:game:560:addr:10.0.0.1:8000"

/-- Ann has the greatest score. -/
def annWins : ScoreMap := ⟨[("ann", 12), ("bob", 3), ("cid", -5), ("dan", -10)], by decide⟩

/-- Ann and Bob have the greatest score. -/
def annAndBobWin : ScoreMap := ⟨[("ann", 9), ("bob", 9), ("cid", -8), ("dan", -10)], by decide⟩

theorem reaches_four (data : ScoreMap) (h : data.items ≠ []) : Reaches fourPlayers roomServer "560" data 1 4 where
  game := by decide
  some := h
  fee := rfl
  players := rfl

/-- Were the names imported, two winners would share the three cards of a room of four: each gets one, and one is lost. -/
example : ((run (onPartyRoomBalanceSuccess imported (fun _ _ => (0, 0)) (fun _ _ => (0, 0)) "2017-10-02" "2017-10-02 20:00:00" roomServer
    annAndBobWin) fourPlayers).2.recorded "2017-10-02" 1 "ann").map Result.result = some 0 := by decide +kernel

/-- No settlement of the worker is right: it stops before it counts or records anything. -/
theorem settlement_never_right (get_party_game_winner get_party_game_loser : St → String → Int × Int) (today now : String)
    {server_table gameid : String} {data : ScoreMap} {s : St} {per_persume players : Int}
    (h : Reaches s server_table gameid data per_persume players) :
    let r := run (onPartyRoomBalanceSuccess party_worker get_party_game_winner get_party_game_loser today now server_table data) s
    r = (.error .NameError, s) ∧ ¬Right s today data per_persume players r := by
  intro r
  obtain ⟨max_score, hmax⟩ := data.max_some h.some
  have hr : r = (.error .NameError, s) := by
    show run (onPartyRoomBalanceSuccess ..) s = _
    unfold onPartyRoomBalanceSuccess
    rw [h.game, hmax]
    rfl
  refine ⟨hr, fun hright => ?_⟩
  have hok := hright.1
  rw [hr] at hok
  cases hok

theorem settlement_never_right_ann :
    run (onPartyRoomBalanceSuccess party_worker (fun _ _ => (0, 0)) (fun _ _ => (0, 0)) "2017-10-02" "2017-10-02 20:00:00" roomServer annWins)
        fourPlayers = (.error .NameError, fourPlayers) :=
  (settlement_never_right _ _ "2017-10-02" "2017-10-02 20:00:00" (reaches_four annWins (by decide))).1

/-- A room of four with one winner is not recorded. -/
theorem nothing_recorded :
    let r := run (onPartyRoomBalanceSuccess party_worker (fun _ _ => (0, 0)) (fun _ _ => (0, 0)) "2017-10-02" "2017-10-02 20:00:00" roomServer
      annWins) fourPlayers
    r.2.recorded "2017-10-02" 1 "ann" = none ∧ ¬Right fourPlayers "2017-10-02" annWins 1 4 r := by
  intro r
  have hr : r = (.error .NameError, fourPlayers) := by rfl
  refine ⟨by rw [hr]; rfl, fun hright => ?_⟩
  have hok := hright.1
  rw [hr] at hok
  cases hok

/-! ## All or nothing -/

/-- The cards, the ranks and the records of the accounts are as they were. -/
structure Untouched (s s' : St) : Prop where
  cards : s'.cards = s.cards
  rank : s'.rank = s.rank
  record : s'.record = s.record
  winList : s'.winList = s.winList
  totalList : s'.totalList = s.totalList

/-- Everything is booked, or the settlement ends in an error and nothing is. -/
def AllOrNothing (s : St) (today : String) (data : ScoreMap) (r : Except Err Int × St) : Prop :=
  r.1 = .ok 0 ∧ Booked s today data r.2 ∨ (∃ e, r.1 = .error e) ∧ Untouched s r.2

/-- The worker's settlements are all or nothing, whatever the store. -/
theorem all_or_nothing (get_party_game_winner get_party_game_loser : St → String → Int × Int) (today now server_table : String)
    (data : ScoreMap) (s : St) :
    AllOrNothing s today data
      (run (onPartyRoomBalanceSuccess party_worker get_party_game_winner get_party_game_loser today now server_table data) s) := by
  obtain ⟨e, hrun⟩ := run_worker get_party_game_winner get_party_game_loser today now server_table data s
  rw [hrun]
  exact .inr ⟨⟨e, rfl⟩, rfl, rfl, rfl, rfl, rfl⟩

/-- The fee and the share take nothing from any account and give nothing to it, and each has its counter. -/
structure Idle (s : St) (today : String) (data : ScoreMap) (per_persume players : Int) : Prop where
  counters : ∀ account ∈ data.keys, (s.cards (s.key today account)).isSome
  share : (players - 1) / (data.winners.length : Int) = per_persume
  fee : per_persume = 0 ∨ ∀ account ∈ data.keys, account ∈ data.winners

theorem charged_untouched_iff {s : St} {today : String} {data : ScoreMap} {per_persume players : Int} (hsome : data.items ≠ []) :
    Untouched s (s.charged today data (data.result per_persume players)) ↔ Idle s today data per_persume players := by
  have hcards : ∀ account ∈ data.keys, (s.charged today data (data.result per_persume players)).cards (s.key today account) =
      some (val s.cards (s.key today account) + data.result per_persume players account) := fun account haccount =>
    incrAll_keyed (key_injective s today) data.nodup (data.result per_persume players) s.cards haccount
  constructor
  · intro h
    have hzero : ∀ account ∈ data.keys, (s.cards (s.key today account)).isSome ∧ data.result per_persume players account = 0 := by
      intro account haccount
      have hone := hcards account haccount
      rw [h.cards] at hone
      refine ⟨by rw [hone]; rfl, ?_⟩
      rw [val, hone, Option.getD_some] at hone
      have hsum := Option.some.inj hone
      omega
    obtain ⟨winner, hwinner⟩ := List.exists_mem_of_ne_nil _ (data.winners_ne_nil hsome)
    have hwon := (hzero winner (ScoreMap.winners_sub hwinner)).2
    rw [ScoreMap.result, resultOf, if_pos hwinner] at hwon
    refine ⟨fun account haccount => (hzero account haccount).1, by omega, ?_⟩
    by_cases hall : ∀ account ∈ data.keys, account ∈ data.winners
    · exact .inr hall
    · simp only [not_forall] at hall
      obtain ⟨account, haccount, hlost⟩ := hall
      have hlost' := (hzero account haccount).2
      rw [ScoreMap.result, resultOf, if_neg hlost] at hlost'
      exact .inl (by omega)
  · rintro ⟨hcounters, hshare, hfee⟩
    refine ⟨funext fun k => ?_, rfl, rfl, rfl, rfl⟩
    by_cases hk : ∃ account ∈ data.keys, k = s.key today account
    · obtain ⟨account, haccount, rfl⟩ := hk
      have hzero : data.result per_persume players account = 0 := by
        unfold ScoreMap.result resultOf
        split
        · omega
        · rename_i hlost
          rcases hfee with hfee | hall
          · omega
          · exact absurd (hall account haccount) hlost
      obtain ⟨n, hn⟩ := Option.isSome_iff_exists.1 (hcounters account haccount)
      rw [hcards account haccount, hzero, val, hn]
      simp
    · refine incrAll_other (fun p hp heq => hk ?_) s.cards
      obtain ⟨account, haccount, rfl⟩ := List.mem_map.1 hp
      exact ⟨account, haccount, heq.symm⟩

/-- Where the names are imported, a settlement is all or nothing if and only if the day has a count of the players online, or the loop
is not reached, or it counts nothing. -/
theorem imported_all_or_nothing_iff (get_party_game_winner get_party_game_loser : St → String → Int × Int) (today now server_table : String)
    (data : ScoreMap) (s : St) :
    AllOrNothing s today data
        (run (onPartyRoomBalanceSuccess imported get_party_game_winner get_party_game_loser today now server_table data) s) ↔
      (∃ n, (Count.field (s.operateOf today).online_count).int = .ok n) ∨
        ∀ gameid per_persume players, Reaches s server_table gameid data per_persume players →
          Idle s today data per_persume players := by
  by_cases hreach : ∃ gameid per_persume players, Reaches s server_table gameid data per_persume players
  · obtain ⟨gameid, per_persume, players, h⟩ := hreach
    obtain ⟨max_score, hmax⟩ := data.max_some h.some
    rw [run_settle get_party_game_winner get_party_game_loser today now h hmax]
    cases hread : (Count.field (s.operateOf today).online_count).int with
    | ok n => exact ⟨fun _ => .inl ⟨n, rfl⟩, fun _ => .inl ⟨rfl, booked_settled hread⟩⟩
    | error e =>
      have honly : ∀ {gameid' f n}, Reaches s server_table gameid' data f n → f = per_persume ∧ n = players := fun h' =>
        ⟨Except.ok.inj (h'.fee.symm.trans h.fee), by
          have hgame := Option.some.inj (h'.game.symm.trans h.game)
          exact Except.ok.inj (h'.players.symm.trans (hgame ▸ h.players))⟩
      constructor
      · rintro (⟨hok, -⟩ | ⟨-, huntouched⟩)
        · cases hok
        · refine .inr fun gameid' f n h' => ?_
          obtain ⟨rfl, rfl⟩ := honly h'
          exact (charged_untouched_iff h.some).1 huntouched
      · rintro (⟨n, hn⟩ | hidle)
        · cases hn
        · exact .inr ⟨⟨e, rfl⟩, (charged_untouched_iff h.some).2 (hidle gameid per_persume players h)⟩
  · have hnone : ∀ gameid per_persume players, ¬Reaches s server_table gameid data per_persume players :=
      fun gameid f n h => hreach ⟨gameid, f, n, h⟩
    obtain ⟨e, hrun⟩ := run_stopped get_party_game_winner get_party_game_loser today now hnone
    rw [hrun]
    exact ⟨fun _ => .inr fun gameid f n h => absurd h (hnone gameid f n), fun _ => .inr ⟨⟨e, rfl⟩, rfl, rfl, rfl, rfl, rfl⟩⟩

/-- Were the names imported, the first settlement after midnight would take the cards and record nothing. -/
example :
    let r := run (onPartyRoomBalanceSuccess imported (fun _ _ => (0, 0)) (fun _ _ => (0, 0)) "2017-10-03" "2017-10-03 00:05:00" roomServer annWins)
      fourPlayers
    r.2.cards ("2017-10-03", some "7", "bob") = some (-1) ∧ r.2.recorded "2017-10-03" 1 "bob" = none := by decide +kernel

end FishWeb.Party
