import FishWeb.Lib.Days
import FishWeb.Lib.Prog
import FishWeb.Lib.Union
import Mathlib.Algebra.Order.BigOperators.Group.Finset
import Mathlib.Data.Set.Card
import Mathlib.Data.String.Basic
import Mathlib.Order.Lattice.Nat
/-!
# The wins of the week

`get_gold_week_win_rank` of `model/goldModel.py`. The wins of a guild are kept by days, and
the ranking of a week is a union of the tables of eight days, the next Monday with them. It
has the greatest number of wins on one day, where their sum is meant. So it is right if and
only if, for all who lead, one day has all the wins of the week (`week_rank_right_iff`).
-/
open Python Prog Calendar
open SortedSet (Ahead)

namespace FishWeb.Gold.Rank

/-! ## The store -/

inductive Aggregate
  | SUM | MIN | MAX

def Aggregate.combine : Aggregate → Nat → Nat → Nat
  | SUM => (· + ·)
  | MIN => min
  | MAX => max

structure St where
  zset : String → SortedSet String Nat

def GOLD_WIN_RANK_WITH_AGENT_ZSET_BYDAY (groupid date : String) : String := "gold:win:rank:" ++ groupid ++ ":" ++ date ++ ":zset"

inductive Cmd : Type → Type
  | zunionstore (dest : String) (keys : List String) (aggregate : Aggregate) : Cmd Unit
  | zrevrange (key : String) (start stop : Nat) : Cmd (List (String × Nat))

instance : Exec Cmd St where
  exec
    | .zunionstore dest keys aggregate, s => ((), ⟨Function.update s.zset dest (.union aggregate.combine (keys.map s.zset))⟩)
    | .zrevrange key start stop, s => ((s.zset key).zrevrange start stop, s)

abbrev Handler := Prog Err Cmd

/-! ## The ranking -/

def first_day_of_week (today : Date) : Date := today.minus today.weekday

def get_gold_week_win_rank (today : Date) (groupid : String) : Handler (List (String × Nat)) := do
  let first := first_day_of_week today
  let last := first.plus 7
  let keys := (datesTo first last).map fun first => GOLD_WIN_RANK_WITH_AGENT_ZSET_BYDAY groupid first.isoDate
  call (.zunionstore ("gold:win:rank:" ++ groupid ++ ":thisweek:zset") keys .MAX)
  call (.zrevrange ("gold:win:rank:" ++ groupid ++ ":thisweek:zset") 0 (10 - 1))

/-! ## What is expected -/

section
variable (s : St) (groupid : String) (today : Date)

/-- The table of a day. -/
def St.day (d : Date) : SortedSet String Nat := s.zset (GOLD_WIN_RANK_WITH_AGENT_ZSET_BYDAY groupid d.isoDate)

def St.wins (account : String) (d : Date) : Nat := ((s.day groupid d).zscore account).getD 0

/-- Some of the days has the account in its table. -/
def St.Plays (days : Finset Date) (account : String) : Prop := ∃ d ∈ days, (s.day groupid d).zscore account ≠ none

/-- From Monday to Sunday. -/
def week : Finset Date := today.weekDates.toFinset

def St.weekSum (account : String) : Nat := ∑ d ∈ week today, s.wins groupid account d

/-- The ten best accounts by the sum of their wins in the week, or all where there are fewer. -/
structure St.Best (l : List (String × Nat)) : Prop where
  sorted : l.Pairwise fun a b => b.2 ≤ a.2
  once : (l.map Prod.fst).Nodup
  ten : l.length ≤ 10
  sums : ∀ e ∈ l, s.Plays groupid (week today) e.1 ∧ e.2 = s.weekSum groupid today e.1
  others : ∀ account, s.Plays groupid (week today) account → account ∉ l.map Prod.fst →
    l.length = 10 ∧ ∀ e ∈ l, s.weekSum groupid today account ≤ e.2

def St.Right : Prop := ∃ l, (run (get_gold_week_win_rank today groupid) s).1 = .ok l ∧ s.Best groupid today l

/-! ## Where it holds -/

def nextMonday : Date := (first_day_of_week today).plus 7

/-- The days that the loop goes through. -/
def loopDays : Finset Date := insert (nextMonday today) (week today)

/-- The greatest number of wins on one of these days. -/
def St.greatest (account : String) : Nat := (loopDays today).sup (s.wins groupid account)

/-- Fewer than ten accounts have a greater number, or the same and a greater name. -/
def St.Leads (account : String) : Prop := s.Plays groupid (loopDays today) account ∧
  {b | s.Plays groupid (loopDays today) b ∧ Ahead (b, s.greatest groupid today b) (account, s.greatest groupid today account)}.ncard < 10

/-- The account plays in the week, one of the days has as many wins as the week, and the next Monday has not more. -/
structure St.OneDay (account : String) : Prop where
  plays : s.Plays groupid (week today) account
  day : ∃ d ∈ loopDays today, s.wins groupid account d = s.weekSum groupid today account
  next : s.wins groupid account (nextMonday today) ≤ s.weekSum groupid today account

/-- All who lead have their wins on one day, and nobody else has more in the week than one of them. -/
structure St.Told : Prop where
  leading : ∀ account, s.Leads groupid today account → s.OneDay groupid today account
  others : ∀ account leader, s.Plays groupid (week today) account → ¬s.Leads groupid today account → s.Leads groupid today leader →
    s.weekSum groupid today account ≤ s.weekSum groupid today leader

end

/-! ## The days -/

section
variable {s : St} {groupid : String} {today d : Date} {account : String}

theorem mem_week : d ∈ week today ↔ d.mondayWeek = today.mondayWeek := by
  rw [week, List.mem_toFinset, Date.mem_weekDates]

theorem dayNumber_first_day_of_week (today : Date) : (first_day_of_week today).dayNumber = 7 * today.mondayWeek := by
  have hweek := today.inWeek_weekday
  unfold Date.inWeek at hweek
  rw [first_day_of_week, Date.dayNumber_minus]
  omega

theorem mem_loopDays : d ∈ loopDays today ↔ d = nextMonday today ∨ d ∈ week today := by rw [loopDays, Finset.mem_insert]

theorem nextMonday_mem (today : Date) : nextMonday today ∈ loopDays today := mem_loopDays.2 (.inl rfl)

theorem mem_datesTo_iff : d ∈ datesTo (first_day_of_week today) (nextMonday today) ↔ d ∈ loopDays today := by
  have hfirst := dayNumber_first_day_of_week today
  have hnext : (nextMonday today).dayNumber = 7 * today.mondayWeek + 7 := by rw [nextMonday, Date.dayNumber_plus, hfirst]
  have hmonday : d = nextMonday today ↔ d.dayNumber = (nextMonday today).dayNumber := ⟨congrArg _, Date.dayNumber_injective⟩
  rw [mem_datesTo, mem_loopDays, mem_week, hmonday]
  unfold Date.mondayWeek at *
  omega

theorem greatest_eq_iff : s.greatest groupid today account = s.weekSum groupid today account ↔
    (∃ d ∈ loopDays today, s.wins groupid account d = s.weekSum groupid today account) ∧
      s.wins groupid account (nextMonday today) ≤ s.weekSum groupid today account := by
  have hday : ∀ d ∈ week today, s.wins groupid account d ≤ s.weekSum groupid today account := fun d hd =>
    Finset.single_le_sum (fun _ _ => Nat.zero_le _) hd
  unfold St.greatest
  constructor
  · intro heq
    obtain ⟨d, hd, hsup⟩ := Finset.exists_mem_eq_sup (loopDays today) ⟨_, nextMonday_mem today⟩ (s.wins groupid account)
    refine ⟨⟨d, hd, hsup.symm.trans heq⟩, ?_⟩
    rw [← heq]
    exact Finset.le_sup (nextMonday_mem today)
  · rintro ⟨⟨d, hd, heq⟩, hnext⟩
    refine le_antisymm (Finset.sup_le fun e he => ?_) ?_
    swap
    · rw [← heq]
      exact Finset.le_sup hd
    rcases mem_loopDays.1 he with heq | he
    · rw [heq]
      exact hnext
    · exact hday e he

/-! ## The union -/

/-- The union that the ranking is taken from. -/
def St.union (s : St) (groupid : String) (today : Date) : SortedSet String Nat :=
  .union max ((datesTo (first_day_of_week today) (nextMonday today)).map (s.day groupid))

theorem run_rank (s : St) (groupid : String) (today : Date) :
    (run (get_gold_week_win_rank today groupid) s).1 = .ok ((s.union groupid today).entries.take 10) := by
  have hkeys : ((datesTo (first_day_of_week today) ((first_day_of_week today).plus 7)).map fun first =>
      GOLD_WIN_RANK_WITH_AGENT_ZSET_BYDAY groupid first.isoDate).map s.zset =
      (datesTo (first_day_of_week today) (nextMonday today)).map (s.day groupid) := List.map_map ..
  show Except.ok ((Function.update s.zset ("gold:win:rank:" ++ groupid ++ ":thisweek:zset") (SortedSet.union max _)
    ("gold:win:rank:" ++ groupid ++ ":thisweek:zset")).zrevrange 0 9) = _
  rw [Function.update_self, hkeys]
  rfl

/-- The union has the greatest number of wins of everybody who plays on one of the days. -/
theorem mem_union {x : Nat} :
    (account, x) ∈ s.union groupid today ↔ s.Plays groupid (loopDays today) account ∧ x = s.greatest groupid today account := by
  rw [← SortedSet.zscore_eq_some_iff, St.union, SortedSet.zscore_union, SortedSet.foldl_joined_max, List.max?_eq_some_iff]
  have hscores : ∀ y, y ∈ ((datesTo (first_day_of_week today) (nextMonday today)).map (s.day groupid)).filterMap (·.zscore account) ↔
      ∃ d ∈ loopDays today, (s.day groupid d).zscore account = some y := by
    intro y
    rw [List.filterMap_map, List.mem_filterMap]
    exact exists_congr fun d => and_congr_left fun _ => mem_datesTo_iff
  have hwins : ∀ {d y}, (s.day groupid d).zscore account = some y → s.wins groupid account d = y := fun h => by
    rw [St.wins, h, Option.getD_some]
  simp only [hscores]
  constructor
  · rintro ⟨⟨d, hd, hx⟩, hle⟩
    refine ⟨⟨d, hd, by rw [hx]; exact Option.some_ne_none x⟩, le_antisymm (hwins hx ▸ Finset.le_sup hd) (Finset.sup_le fun e he => ?_)⟩
    unfold St.wins
    cases hy : (s.day groupid e).zscore account with
    | none => exact Nat.zero_le _
    | some y => exact hle y ⟨e, he, hy⟩
  · rintro ⟨⟨d, hd, hplays⟩, rfl⟩
    have hle : ∀ y, (∃ d ∈ loopDays today, (s.day groupid d).zscore account = some y) → y ≤ s.greatest groupid today account := by
      rintro y ⟨e, he, hy⟩
      exact hwins hy ▸ Finset.le_sup he
    refine ⟨?_, hle⟩
    obtain ⟨e, he, hsup⟩ := Finset.exists_mem_eq_sup (loopDays today) ⟨d, hd⟩ (s.wins groupid account)
    cases hy : (s.day groupid e).zscore account with
    | some y => exact ⟨e, he, by rw [hy, St.greatest, hsup, hwins hy]⟩
    | none =>
      -- nobody has a greater number than zero
      have hzero : s.greatest groupid today account = 0 := by rw [St.greatest, hsup, St.wins, hy, Option.getD_none]
      obtain ⟨y, hy⟩ := Option.ne_none_iff_exists'.1 hplays
      have hy0 := hle y ⟨d, hd, hy⟩
      rw [hzero] at hy0 ⊢
      exact ⟨d, hd, by rw [hy, Nat.le_zero.1 hy0]⟩

/-! ## The ten first -/

/-- Those who lead are the ten first of the union. -/
theorem mem_first {x : Nat} : (account, x) ∈ (s.union groupid today).entries.take 10 ↔
    s.Leads groupid today account ∧ x = s.greatest groupid today account := by
  have horder : (s.union groupid today).entries.Pairwise Ahead := SortedSet.union_ahead _
  rw [horder.mem_take_iff fun a b => Ahead.asymm, SortedSet.mem_entries, mem_union, and_assoc, St.Leads, and_assoc]
  refine and_congr_right fun _ => and_comm.trans (and_congr_left ?_)
  rintro rfl
  -- those ahead, as a list of accounts
  generalize hahead : ((s.union groupid today).entries.filter (Ahead · (account, s.greatest groupid today account))).map Prod.fst = ahead
  have hnodup : ahead.Nodup := hahead ▸ (s.union groupid today).nodup.sublist (List.filter_sublist.map _)
  have hset : {b | s.Plays groupid (loopDays today) b ∧ Ahead (b, s.greatest groupid today b) (account, s.greatest groupid today account)} =
      (ahead.toFinset : Set String) := by
    ext b
    rw [List.coe_toFinset, Set.mem_ofPred_eq, Set.mem_ofPred_eq, ← hahead, List.mem_map]
    constructor
    · rintro ⟨hplays, hb⟩
      exact ⟨(b, _), List.mem_filter.2 ⟨SortedSet.mem_entries.2 (mem_union.2 ⟨hplays, rfl⟩), decide_eq_true hb⟩, rfl⟩
    · rintro ⟨⟨b, y⟩, hy, rfl⟩
      obtain ⟨hmem, hb⟩ := List.mem_filter.1 hy
      obtain ⟨hplays, rfl⟩ := mem_union.1 (SortedSet.mem_entries.1 hmem)
      exact ⟨hplays, of_decide_eq_true hb⟩
  rw [hset, Set.ncard_coe_finset, List.toFinset_card_of_nodup hnodup, ← hahead, List.length_map, List.countP_eq_length_filter]

theorem Plays.loop (h : s.Plays groupid (week today) account) : s.Plays groupid (loopDays today) account := by
  obtain ⟨d, hd, hplays⟩ := h
  exact ⟨d, mem_loopDays.2 (.inr hd), hplays⟩

end

/-- The ranking of the week is right if and only if, for all who lead by their greatest number of wins on a day, that number
is all their wins of the week, and nobody else has more than one of them. -/
theorem week_rank_right_iff (s : St) (groupid : String) (today : Date) : s.Right groupid today ↔ s.Told groupid today := by
  have hrun := run_rank s groupid today
  have hright : s.Right groupid today ↔ s.Best groupid today ((s.union groupid today).entries.take 10) := by
    unfold St.Right
    rw [hrun]
    exact ⟨fun ⟨l, hl, hbest⟩ => Except.ok.inj hl ▸ hbest, fun hbest => ⟨_, rfl, hbest⟩⟩
  have hlisted : ∀ account, account ∈ ((s.union groupid today).entries.take 10).map Prod.fst ↔ s.Leads groupid today account := by
    intro account
    rw [List.mem_map]
    constructor
    · rintro ⟨⟨a, x⟩, he, rfl⟩
      exact (mem_first.1 he).1
    · exact fun hleads => ⟨(account, _), mem_first.2 ⟨hleads, rfl⟩, rfl⟩
  rw [hright]
  constructor
  · intro hbest
    have hsum : ∀ account, s.Leads groupid today account →
        s.Plays groupid (week today) account ∧ s.greatest groupid today account = s.weekSum groupid today account :=
      fun account hleads => hbest.sums (account, _) (mem_first.2 ⟨hleads, rfl⟩)
    refine ⟨fun account hleads => ?_, fun account leader hplays hnot hleads => ?_⟩
    · obtain ⟨hplays, hgreatest⟩ := hsum account hleads
      obtain ⟨hday, hnext⟩ := greatest_eq_iff.1 hgreatest
      exact ⟨hplays, hday, hnext⟩
    · rw [← (hsum leader hleads).2]
      exact (hbest.others account hplays fun hmem => hnot ((hlisted account).1 hmem)).2 (leader, _) (mem_first.2 ⟨hleads, rfl⟩)
  · intro htold
    have hfirst : ((s.union groupid today).entries.take 10).Sublist (s.union groupid today).entries := List.take_sublist ..
    have hgreatest : ∀ account, s.Leads groupid today account → s.greatest groupid today account = s.weekSum groupid today account :=
      fun account hleads => greatest_eq_iff.2 ⟨(htold.leading account hleads).day, (htold.leading account hleads).next⟩
    refine ⟨(s.union groupid today).sorted.sublist hfirst, (s.union groupid today).nodup.sublist (hfirst.map _),
      List.length_take_le .., fun e he => ?_, fun account hplays hnot => ⟨?_, fun e he => ?_⟩⟩
    · obtain ⟨hleads, heq⟩ := mem_first.1 he
      exact ⟨(htold.leading e.1 hleads).plays, heq.trans (hgreatest e.1 hleads)⟩
    · -- the account is in the union and not among the first ten
      have hmem : (account, s.greatest groupid today account) ∈ (s.union groupid today).entries := mem_union.2 ⟨Plays.loop hplays, rfl⟩
      rw [List.length_take, Nat.min_eq_left]
      by_contra hshort
      rw [List.take_of_length_le (Nat.not_le.1 hshort).le] at hnot
      exact hnot (List.mem_map_of_mem (f := Prod.fst) hmem)
    · obtain ⟨hleads, heq⟩ := mem_first.1 he
      rw [heq, hgreatest e.1 hleads]
      exact htold.others account e.1 hplays (fun h => hnot ((hlisted account).2 h)) hleads

/-- On Monday bob wins four and ann three, and on Tuesday ann wins three more. -/
def twoDays : St where
  zset key :=
    if key = "gold:win:rank:g:2017-01-02:zset" then ⟨[("bob", 4), ("ann", 3)], by decide, by decide⟩
    else if key = "gold:win:rank:g:2017-01-03:zset" then ⟨[("ann", 3)], by decide, by decide⟩
    else ∅

/-- On Thursday the ranking has bob first. -/
theorem bob_leads : ¬twoDays.Right "g" ⟨2017, 4, by decide⟩ := by
  rintro ⟨l, hl, hbest⟩
  have hrun : (run (get_gold_week_win_rank ⟨2017, 4, by decide⟩ "g") twoDays).1 = .ok [("bob", 4), ("ann", 3)] := by decide +kernel
  rw [hrun] at hl
  obtain rfl := Except.ok.inj hl
  have hsum : twoDays.weekSum "g" ⟨2017, 4, by decide⟩ "ann" = 6 := by decide +kernel
  have hann := (hbest.sums ("ann", 3) (by simp)).2
  rw [hsum] at hann
  exact absurd hann (by decide)

end FishWeb.Gold.Rank
