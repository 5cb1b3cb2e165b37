import FishWeb.Rank.Model
/-!
# The snapshot of a board

Both the script and the page find the top of a board: nobody level with the last is cut
off. The script leaves a copy of the top of the board in the snapshot, which depends on the
scores alone and is its own top. A score that is written with an exponent ends it with an
exception, after it has deleted the snapshot (`refresh_snapshot_iff`).
-/
open Python Prog FishWeb.Common

namespace FishWeb.Rank

/-! ## What is read -/

/-- A score that is written without an exponent. -/
def Plain (score : Int) : Prop := score.natAbs < 10 ^ 17

instance (score : Int) : Decidable (Plain score) := inferInstanceAs (Decidable (_ < _))

/-- No score of the top of a board is written with an exponent. -/
def Readable (t : SortedSet String Int) : Prop := ∀ e ∈ t.top MY_MAX_RANK, Plain e.2

instance (t : SortedSet String Int) : Decidable (Readable t) := inferInstanceAs (Decidable (∀ e ∈ t.top MY_MAX_RANK, Plain e.2))

/-- The cast fails at a score that is written with an exponent. -/
theorem castScores_formatG17 (l : List (String × Int)) :
    castScores (l.map fun e => (e.1, formatG17 e.2)) = if ∀ e ∈ l, Plain e.2 then some l else none := by
  induction l with
  | nil => rfl
  | cons e l ih =>
    unfold castScores at ih ⊢
    rw [List.map_cons, List.mapM_cons, ih]
    dsimp only
    rw [int_formatG17]
    have hcons : (∀ x ∈ e :: l, Plain x.2) ↔ Plain e.2 ∧ ∀ x ∈ l, Plain x.2 := List.forall_mem_cons
    simp only [hcons]
    by_cases he : Plain e.2
    · rw [if_pos (show e.2.natAbs < 10 ^ 17 from he)]
      by_cases hl : ∀ x ∈ l, Plain x.2
      · rw [if_pos hl, if_pos ⟨he, hl⟩]
        rfl
      · rw [if_neg hl, if_neg fun h => hl h.2]
        rfl
    · have hnot : ¬(Plain e.2 ∧ ∀ x ∈ l, Plain x.2) := fun h => he h.1
      rw [if_neg (show ¬e.2.natAbs < 10 ^ 17 from he), if_neg hnot]
      rfl

theorem run_zrevrange (key : Key) (start stop : Nat) (s : St) :
    run (zrevrange key start stop) s =
      if ∀ e ∈ (s.board key).zrevrange start stop, Plain e.2 then (.ok ((s.board key).zrevrange start stop), s)
      else (.error .ValueError, s) := by
  show run (orRaise Err.ValueError (castScores (((s.board key).zrevrange start stop).map _))) s = _
  rw [castScores_formatG17]
  split <;> rfl

theorem run_topPlayers (key : Key) (s : St) :
    run (topPlayers key) s =
      if Readable (s.board key) then (.ok ((s.board key).top MY_MAX_RANK), s) else (.error .ValueError, s) := by
  unfold topPlayers
  cases hlast : (s.board key).entries[MY_MAX_RANK - 1]? with
  | none =>
    have hnil : run (zrevrange key (MY_MAX_RANK - 1) (MY_MAX_RANK - 1)) s = (.ok [], s) := by
      rw [run_zrevrange, SortedSet.zrevrange_self, hlast]
      rfl
    dsimp only
    rw [run_bind_ok hnil]
    dsimp only
    rw [run_zrevrange, SortedSet.zrevrange_all hlast]
    rfl
  | some last =>
    obtain ⟨m, r, hm, hr, htop⟩ := SortedSet.zrevrange_top hlast
    have hself : run (zrevrange key (MY_MAX_RANK - 1) (MY_MAX_RANK - 1)) s =
        if Plain last.2 then (.ok [last], s) else (.error .ValueError, s) := by
      rw [run_zrevrange, SortedSet.zrevrange_self, hlast]
      simp
    dsimp only
    by_cases hplain : Plain last.2
    · rw [if_pos hplain] at hself
      rw [run_bind_ok hself]
      have htied : run (send (.zrevrangebyscore key last.2 last.2) : Handler _) s =
          (.ok ((s.board key).zrevrangebyscore last.2 last.2), s) := rfl
      have hrank : run (send (.zrevrank key m) : Handler _) s = (.ok (some r), s) := by rw [← hr]; rfl
      dsimp only
      rw [run_bind_ok htied, hm, orRaise_some, ret_bind, run_bind_ok hrank, orRaise_some, ret_bind, run_zrevrange, htop]
      rfl
    · -- the last of the top is one of it
      have hmem : last ∈ (s.board key).top MY_MAX_RANK := by
        refine SortedSet.mem_top.2 ⟨List.mem_of_getElem? hlast, fun last' hlast' => ?_⟩
        rw [hlast] at hlast'
        cases hlast'
        exact le_rfl
      rw [if_neg hplain] at hself
      rw [run_bind_error hself, if_neg fun h => hplain (h last hmem)]

/-- Somebody comes after the players with 0 just when there are such players and others with less. -/
theorem run_less0RankPlayers (key : Key) (s : St) :
    ∃ l, run (less0RankPlayers key) s = (.ok l, s) ∧
      (l ≠ [] ↔ (∃ e ∈ s.board key, e.2 = 0) ∧ ∃ e ∈ s.board key, e.2 < 0) := by
  unfold less0RankPlayers
  have hmem : (∃ e ∈ s.board key, e.2 = 0) ↔ (s.board key).zrevrangebyscore 0 0 ≠ [] := by
    rw [SortedSet.zrevrangebyscore_self]
    constructor
    · rintro ⟨e, he, h0⟩
      exact List.ne_nil_of_mem (List.mem_map_of_mem (List.mem_filter.2 ⟨he, by simpa using h0⟩))
    · intro hne
      obtain ⟨m, hm⟩ := List.exists_mem_of_ne_nil _ hne
      obtain ⟨e, he, -⟩ := List.mem_map.1 hm
      obtain ⟨he, h0⟩ := List.mem_filter.1 he
      exact ⟨e, he, by simpa using h0⟩
  cases hlast : ((s.board key).zrevrangebyscore 0 0).getLast? with
  | none =>
    refine ⟨[], by simp [send, Exec.exec, hlast], ?_⟩
    rw [hmem, List.getLast?_eq_none_iff.1 hlast]
    simp
  | some m =>
    obtain ⟨r, hr, hafter⟩ := SortedSet.zrevrange_after hlast
    refine ⟨((s.board key).zrevrange (r + 1) (r + 1)).map Prod.fst, by simp [send, Exec.exec, hlast, hr], ?_⟩
    have hzero : ∃ e ∈ s.board key, e.2 = 0 := by
      rw [hmem]
      intro hnil
      rw [hnil] at hlast
      cases hlast
    rw [and_iff_right hzero, ← hafter, Ne, List.map_eq_nil_iff]

/-! ## What is left -/

/-- The copy that the script leaves of a board. -/
def copyTop (t : SortedSet String Int) : SortedSet String Int := (∅ : SortedSet String Int).zaddAll (t.top MY_MAX_RANK)

theorem mem_copyTop {t : SortedSet String Int} {e : String × Int} : e ∈ copyTop t ↔ e ∈ t.top MY_MAX_RANK :=
  (SortedSet.zaddAll_perm (t.top_nodup MY_MAX_RANK)).mem_iff

/-- The copy is its own top, and can be read where the board can. -/
theorem top_copyTop (t : SortedSet String Int) : (copyTop t).top MY_MAX_RANK = (copyTop t).entries := SortedSet.top_zaddAll ..

theorem readable_copyTop {t : SortedSet String Int} (h : Readable t) : Readable (copyTop t) := by
  intro e he
  rw [top_copyTop] at he
  exact h e (mem_copyTop.1 he)

/-- The store after a refresh of a board: the snapshot is deleted before the scores are read. -/
def St.refreshed (s : St) (b : Board) : St :=
  s.setBoard (.tmp b) (if Readable (s.board (.user b)) then copyTop (s.board (.user b)) else ∅)

theorem refreshed_board (s : St) (b : Board) (key : Key) :
    (s.refreshed b).board key =
      if key = .tmp b then (if Readable (s.board (.user b)) then copyTop (s.board (.user b)) else ∅) else s.board key :=
  Function.update_apply ..

theorem run_refresh (b : Board) (s : St) :
    run (refresh b) s = (if Readable (s.board (.user b)) then .ok () else .error .ValueError, s.refreshed b) := by
  have hdelete : run (send (.delete (.tmp b)) : Handler Unit) s = (.ok (), s.setBoard (.tmp b) ∅) := rfl
  have huser : (s.setBoard (.tmp b) ∅).board (.user b) = s.board (.user b) := by simp [St.setBoard]
  have htop := run_topPlayers (.user b) (s.setBoard (.tmp b) ∅)
  unfold refresh St.refreshed
  rw [huser] at htop
  rw [run_bind_ok hdelete]
  split
  · next hread =>
    obtain ⟨l, hless, -⟩ := run_less0RankPlayers (.user b) (s.setBoard (.tmp b) ∅)
    rw [if_pos hread] at htop
    rw [run_bind_ok htop, run_bind_ok hless]
    simp [send, Exec.exec, St.setBoard, copyTop]
  · next hread =>
    rw [if_neg hread] at htop
    rw [run_bind_error htop]

/-- The hours at which a board is refreshed. -/
def Board.times : Board → List String
  | .coinDelta => REFRESH_TIMES
  | .coin => REFRESH_COIN_RAKN_TIMES

/-- The boards that are refreshed before a board in a turn, and the board. -/
def Board.upTo : Board → List Board
  | .coinDelta => [.coinDelta]
  | .coin => [.coinDelta, .coin]

/-- The store after a turn of the script. -/
def St.turned (s : St) (nowHour : String) : St := (run (turn nowHour) s).2

section Turned
variable {nowHour : String}

/-- The profits are refreshed at every hour of the coins too, and the coins only after them. -/
theorem turned_eq (h : nowHour ∈ REFRESH_TIMES) (s : St) :
    s.turned nowHour =
      if Readable (s.board (.user .coinDelta)) ∧ nowHour ∈ REFRESH_COIN_RAKN_TIMES then (s.refreshed .coinDelta).refreshed .coin
      else s.refreshed .coinDelta := by
  have hrefresh := run_refresh .coinDelta s
  unfold St.turned turn
  rw [if_pos h]
  by_cases hread : Readable (s.board (.user .coinDelta))
  · rw [if_pos hread] at hrefresh
    rw [run_bind_ok hrefresh]
    by_cases hcoin : nowHour ∈ REFRESH_COIN_RAKN_TIMES
    · rw [if_pos hcoin, if_pos ⟨hread, hcoin⟩, run_refresh]
    · rw [if_neg hcoin, if_neg fun h => hcoin h.2]
      rfl
  · rw [if_neg hread] at hrefresh
    rw [run_bind_error hrefresh, if_neg fun h => hread h.1]

theorem turned_user (h : nowHour ∈ REFRESH_TIMES) (s : St) (b : Board) : (s.turned nowHour).board (.user b) = s.board (.user b) := by
  rw [turned_eq h]
  split <;> simp [refreshed_board]

theorem turned_coinDelta (h : nowHour ∈ Board.coinDelta.times) (s : St) :
    (s.turned nowHour).board (.tmp .coinDelta) =
      if Readable (s.board (.user .coinDelta)) then copyTop (s.board (.user .coinDelta)) else ∅ := by
  rw [turned_eq h]
  split <;> simp [refreshed_board]

theorem turned_coin (h : nowHour ∈ Board.coin.times) (s : St) :
    (s.turned nowHour).board (.tmp .coin) =
      if Readable (s.board (.user .coinDelta)) then
        if Readable (s.board (.user .coin)) then copyTop (s.board (.user .coin)) else ∅
      else s.board (.tmp .coin) := by
  rw [turned_eq (by rw [List.mem_singleton.1 h]; decide)]
  by_cases hread : Readable (s.board (.user .coinDelta))
  · rw [if_pos ⟨hread, h⟩, if_pos hread]
    simp [refreshed_board]
  · rw [if_neg fun h => hread h.1, if_neg hread]
    simp [refreshed_board]

end Turned

/-! ## The snapshot -/

/-- After a turn the snapshot holds those whose score is at least the one at position `MY_MAX_RANK`, the scores are as they were,
another turn with the same scores leaves the same snapshot, and the page's own cut selects all of it. -/
structure Copied (nowHour : String) (b : Board) (s : St) : Prop where
  scores : (s.turned nowHour).board (.user b) = s.board (.user b)
  members : ∀ e, e ∈ (s.turned nowHour).board (.tmp b) ↔
    e ∈ s.board (.user b) ∧ ∀ last, (s.board (.user b)).entries[MY_MAX_RANK - 1]? = some last → last.2 ≤ e.2
  again : ∀ nowHour' ∈ b.times, ∀ t : St, (∀ b', t.board (.user b') = s.board (.user b')) →
    (t.turned nowHour').board (.tmp b) = (s.turned nowHour).board (.tmp b)
  cut : run (topPlayers (.tmp b)) (s.turned nowHour) =
    (.ok ((s.turned nowHour).board (.tmp b)).entries, s.turned nowHour)

section Copied
variable {nowHour : String} {b : Board} {s : St}

/-- Where all that is read can be read, a turn leaves the copy. -/
theorem turned_board (h : nowHour ∈ b.times) (hread : ∀ b' ∈ b.upTo, Readable (s.board (.user b'))) :
    (s.turned nowHour).board (.tmp b) = copyTop (s.board (.user b)) := by
  cases b with
  | coinDelta => rw [turned_coinDelta h, if_pos (hread .coinDelta List.mem_cons_self)]
  | coin =>
    rw [turned_coin h, if_pos (hread .coinDelta List.mem_cons_self), if_pos (hread .coin (List.mem_cons_of_mem _ List.mem_cons_self))]

theorem times_sub (h : nowHour ∈ b.times) : nowHour ∈ REFRESH_TIMES := by
  cases b with
  | coinDelta => exact h
  | coin =>
    rw [List.mem_singleton.1 h]
    decide

theorem copied_of_readable (h : nowHour ∈ b.times) (hread : ∀ b' ∈ b.upTo, Readable (s.board (.user b'))) : Copied nowHour b s where
  scores := turned_user (times_sub h) s b
  members e := by rw [turned_board h hread, mem_copyTop, SortedSet.mem_top]
  again nowHour' h' t ht := by
    have hread' : ∀ b' ∈ b.upTo, Readable (t.board (.user b')) := fun b' hb' => by rw [ht]; exact hread b' hb'
    rw [turned_board h hread, turned_board h' hread', ht]
  cut := by
    have hself : b ∈ b.upTo := by cases b <;> decide
    rw [run_topPlayers, turned_board h hread, if_pos (readable_copyTop (hread b hself)), top_copyTop]

/-- A board that cannot be read has somebody for its snapshot. -/
theorem not_members_of_empty {t : SortedSet String Int} (h : ¬Readable t) :
    ¬∀ e, e ∈ (∅ : SortedSet String Int) ↔ e ∈ t ∧ ∀ last, t.entries[MY_MAX_RANK - 1]? = some last → last.2 ≤ e.2 := by
  intro hmembers
  refine h fun e he => absurd ((hmembers e).2 (SortedSet.mem_top.1 he)) ?_
  exact List.not_mem_nil

/-- A snapshot that a turn leaves alone can be any. -/
theorem Copied.turns_coin (h : nowHour ∈ Board.coin.times) (hs : Copied nowHour .coin s) : Readable (s.board (.user .coinDelta)) := by
  by_contra hread
  have hany : ∀ t, s.board (.tmp .coin) = t := by
    intro t
    have hagain := hs.again nowHour h (s.setBoard (.tmp .coin) t) fun b' => by simp [St.setBoard]
    have huser : (s.setBoard (.tmp .coin) t).board (.user .coinDelta) = s.board (.user .coinDelta) := by simp [St.setBoard]
    rw [turned_coin h, turned_coin h, huser, if_neg hread, if_neg hread] at hagain
    rw [← hagain]
    simp [St.setBoard]
  have hempty := (hany ∅).symm.trans (hany ((∅ : SortedSet String Int).zadd "" 0))
  exact absurd (congrArg SortedSet.entries hempty) (by decide)

/-- A turn of the script leaves in the snapshot of a board what it should, whatever was there before, if and only if no score that
it reads for the board, or for one refreshed before it, is written with an exponent. -/
theorem refresh_snapshot_iff (nowHour : String) (b : Board) (h : nowHour ∈ b.times) (s : St) :
    Copied nowHour b s ↔ ∀ b' ∈ b.upTo, Readable (s.board (.user b')) := by
  refine ⟨fun hs => ?_, copied_of_readable h⟩
  cases b with
  | coinDelta =>
    rintro b' hb'
    obtain rfl := List.mem_singleton.1 hb'
    by_contra hread
    have hmembers := hs.members
    rw [turned_coinDelta h, if_neg hread] at hmembers
    exact not_members_of_empty hread hmembers
  | coin =>
    have hdelta := hs.turns_coin h
    have hcoin : Readable (s.board (.user .coin)) := by
      by_contra hread
      have hmembers := hs.members
      rw [turned_coin h, if_pos hdelta, if_neg hread] at hmembers
      exact not_members_of_empty hread hmembers
    rintro b' hb'
    rcases List.mem_cons.1 hb' with rfl | hb'
    · exact hdelta
    · rw [List.mem_singleton.1 hb']
      exact hcoin

end Copied

/-- A store with the same players on its boards. -/
def boards (players : List (String × Int)) : St where
  shared := {
    session := fun _ => none
    platform := fun _ => none
    kick := fun _ => false
    userTable := fun _ => none
    isUser := fun _ => false
    active := fun _ => none }
  board := fun _ => (∅ : SortedSet String Int).zaddAll players
  profile := fun _ => (none, none)
  coin := fun _ => none

/-- Two players are fewer than the snapshot holds. -/
theorem refresh_snapshot_two : Copied "00:00" .coin (boards [("a", -2), ("b", 7)]) :=
  (refresh_snapshot_iff "00:00" .coin (by decide) _).2 (by decide +kernel)

/-- A player with `10 ^ 17` coins: the script ends with an exception, and the snapshot is empty. -/
theorem refresh_exponent :
    (run (turn "00:00") (boards [("a", 10 ^ 17)])).1 = .error .ValueError ∧
      (((boards [("a", 10 ^ 17)]).turned "00:00").board (.tmp .coinDelta)).entries = [] ∧
      ¬Copied "00:00" .coinDelta (boards [("a", 10 ^ 17)]) := by
  have hempty : (((boards [("a", 10 ^ 17)]).turned "00:00").board (.tmp .coinDelta)).entries = [] := by decide +kernel
  have hboard : ((boards [("a", 10 ^ 17)]).board (.user .coinDelta)).entries = [("a", 10 ^ 17)] := by decide +kernel
  refine ⟨by decide +kernel, hempty, fun hs => ?_⟩
  have hmem := (hs.members ("a", 10 ^ 17)).2 ⟨by rw [← SortedSet.mem_entries, hboard]; exact List.mem_cons_self, fun last hlast => by
    rw [hboard] at hlast
    cases hlast⟩
  rw [← SortedSet.mem_entries, hempty] at hmem
  cases hmem

end FishWeb.Rank
