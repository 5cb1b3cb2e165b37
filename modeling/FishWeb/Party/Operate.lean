import FishWeb.Party.Settle
import FishWeb.Lib.Runs
/-!
# The record of a day

Groups join and rooms are settled within one day, which has no record at first. What the
players have done is counted beside the store (`Day`). The worker stops at a name that it does
not import and records nothing, so its record is right in every state if and only if nothing
that should be recorded is reported (`day_right_iff`).

Where the names are imported, the stored maximum is a text from the second group on, and no
number comes after a text: it stays what the first group made it. So the record is right in
every state if and only if no later group takes the number of the players online above that
(`imported_day_right_iff`).
-/
open Python Prog Counters Runs

namespace FishWeb.Party

open Function (update)

/-- A success that the games report. -/
inductive Event where
  | join (server_table : String) (accountlist : List String) (ag rule : String)
  | balance (now server_table : String) (data : ScoreMap)

/-- The store, and what has been reported of the day. -/
structure Day where
  st : St
  joined : Int
  settled : Int
  parties : Nat
  /-- The greatest number of players online so far. -/
  peak : Int
  /-- The size of the first group. -/
  first : Int

/-- The players online. -/
def Day.online (d : Day) : Int := d.joined - d.settled

section
variable (names : Names) (prefix_ingame : Match.Format) (get_party_game_winner get_party_game_loser : St → String → Int × Int)
  (today : String)

def Event.handler : Event → Handler Int
  | .join server_table accountlist ag rule => onJoinPartyRoomSuccess names prefix_ingame today server_table accountlist ag rule
  | .balance now server_table data => onPartyRoomBalanceSuccess names get_party_game_winner get_party_game_loser today now server_table data

/-- What an event counts for. -/
def Day.report (d : Day) : Event → Day
  | .join _ accountlist _ _ =>
    { d with
      joined := d.joined + accountlist.length
      parties := d.parties + 1
      peak := max d.peak (d.online + accountlist.length)
      first := if d.parties = 0 then accountlist.length else d.first }
  | .balance _ _ data =>
    { d with
      settled := d.settled + data.keys.length
      peak := max d.peak (d.online - data.keys.length) }

/-- The events count whose handler has completed. -/
def Day.next (e : Event) (d : Day) : Day :=
  let r := run (e.handler names prefix_ingame get_party_game_winner get_party_game_loser today) d.st
  { if r.1 = .ok 0 then d.report e else d with st := r.2 }

/-- The event names its room, and a settlement somebody. -/
def Event.Due : Event → Prop
  | .join server_table _ _ _ => (split ':' server_table)[6]?.isSome
  | .balance _ server_table data => (split ':' server_table)[3]?.isSome ∧ data.items ≠ []

instance : DecidablePred Event.Due
  | .join server_table _ _ _ => inferInstanceAs (Decidable ((split ':' server_table)[6]?.isSome = true))
  | .balance _ server_table data => inferInstanceAs (Decidable ((split ':' server_table)[3]?.isSome = true ∧ data.items ≠ []))

/-- The events count that are due, whatever their handler does. -/
def Day.told (e : Event) (d : Day) : Day :=
  let r := run (e.handler names prefix_ingame get_party_game_winner get_party_game_loser today) d.st
  { if e.Due then d.report e else d with st := r.2 }

end

/-- The record of the day says what has been reported; a field that is not there says zero. -/
structure Day.Right (today : String) (d : Day) : Prop where
  player_count : (d.st.operateOf today).player_count.getD "0" = toString d.joined
  party_count : (d.st.operateOf today).party_count.getD "0" = toString (d.parties : Int)
  online_count : (d.st.operateOf today).online_count.getD "0" = toString d.online
  online_max : (d.st.operateOf today).online_max.getD "0" = toString d.peak

/-- The group is the first of the day, or takes the players online no higher than the first did. A room without an address takes
nobody. -/
def Within : Event → Day → Prop
  | .join server_table accountlist _ _, d =>
    (split ':' server_table)[6]?.isSome → d.parties = 0 ∨ d.online + accountlist.length ≤ d.first
  | .balance _ _ _, _ => True

/-! ## What the handlers do to the record -/

theorem alreadyInList_isSome (prefix_ingame : Match.Format) (server_table ag rule : String) :
    (Match.alreadyInList prefix_ingame server_table ag rule).isSome ↔ (split ':' server_table)[6]?.isSome := by
  unfold Match.alreadyInList
  split
  · rename_i h
    simp [h]
  · rename_i h
    rcases hsplit : split ':' server_table with _ | ⟨_, _ | ⟨_, _ | ⟨_, _ | ⟨_, _ | ⟨_, _ | ⟨_, _ | ⟨_, _⟩⟩⟩⟩⟩⟩⟩ <;> simp
    exact h _ _ _ _ _ _ _ _ hsplit

section Handlers
variable {today : String} {s : St}

variable (today s) in
/-- A settlement takes its players off the count, or leaves the record. -/
theorem run_balance (get_party_game_winner get_party_game_loser : St → String → Int × Int) (now server_table : String) (data : ScoreMap) :
    (∃ n winner loser, (Count.field (s.operateOf today).online_count).int = .ok n ∧
      (run (onPartyRoomBalanceSuccess imported get_party_game_winner get_party_game_loser today now server_table data) s).1 = .ok 0 ∧
      (run (onPartyRoomBalanceSuccess imported get_party_game_winner get_party_game_loser today now server_table data) s).2.operate =
        update s.operate today (some { s.operateOf today with
          online_count := some (toString (n - data.keys.length)), winner := some winner, loser := some loser })) ∨
    (∃ e, (run (onPartyRoomBalanceSuccess imported get_party_game_winner get_party_game_loser today now server_table data) s).1 = .error e) ∧
      (run (onPartyRoomBalanceSuccess imported get_party_game_winner get_party_game_loser today now server_table data) s).2.operate =
        s.operate := by
  by_cases hreach : ∃ gameid per_persume players, Reaches s server_table gameid data per_persume players
  · obtain ⟨gameid, per_persume, players, h⟩ := hreach
    obtain ⟨max_score, hmax⟩ := data.max_some h.some
    rw [run_settle get_party_game_winner get_party_game_loser today now h hmax]
    cases (Count.field (s.operateOf today).online_count).int with
    | ok n => exact .inl ⟨n, _, _, rfl, rfl, rfl⟩
    | error e => exact .inr ⟨⟨e, rfl⟩, rfl⟩
  · obtain ⟨e, hrun⟩ := run_stopped get_party_game_winner get_party_game_loser today now
      fun gameid per_persume players h => hreach ⟨gameid, per_persume, players, h⟩
    rw [hrun]
    exact .inr ⟨⟨e, rfl⟩, rfl⟩

end Handlers

/-! ## The record along a day -/

/-- What the record is after any events: the maximum is the size of the first group. -/
structure Day.Kept (today : String) (d : Day) : Prop where
  none : d.parties = 0 → d.st.operate today = .none ∧ d.joined = 0 ∧ d.settled = 0 ∧ d.peak = 0
  some : d.parties ≠ 0 → ∃ o, d.st.operate today = .some o ∧ o.player_count = .some (toString d.joined) ∧
    o.party_count = .some (toString (d.parties : Int)) ∧ o.online_count = .some (toString d.online) ∧
    o.online_max = .some (toString d.first)
  first : 0 ≤ d.first
  peak : d.online ≤ d.peak

theorem toString_int_injective {m n : Int} (h : toString m = toString n) : m = n := by
  have hint := congrArg int h
  rw [int_toString_int, int_toString_int] at hint
  exact Option.some.inj hint

/-- Where there is no record, nothing may have been reported. -/
theorem Day.right_of_none {today : String} {d : Day} (h : d.st.operate today = none) :
    d.Right today ↔ d.joined = 0 ∧ d.parties = 0 ∧ d.online = 0 ∧ d.peak = 0 := by
  have ho : d.st.operateOf today = .empty := by rw [St.operateOf, h]; rfl
  have hzero : ∀ n : Int, "0" = toString n ↔ n = 0 := fun n => ⟨fun hn => (toString_int_injective (m := 0) hn).symm, by rintro rfl; rfl⟩
  constructor
  · rintro ⟨hplayer, hparty, honline, hmax⟩
    rw [ho] at hplayer hparty honline hmax
    exact ⟨(hzero _).1 hplayer, by exact_mod_cast (hzero _).1 hparty, (hzero _).1 honline, (hzero _).1 hmax⟩
  · rintro ⟨hjoined, hparties, honline, hpeak⟩
    exact ⟨by rw [ho, hjoined]; rfl, by rw [ho, hparties]; rfl, by rw [ho, honline]; rfl, by rw [ho, hpeak]; rfl⟩

theorem Day.Kept.right_iff {today : String} {d : Day} (h : d.Kept today) : d.Right today ↔ d.parties = 0 ∨ d.peak = d.first := by
  by_cases hparties : d.parties = 0
  · obtain ⟨hnone, hjoined, hsettled, hpeak⟩ := h.none hparties
    exact iff_of_true ((Day.right_of_none hnone).2 ⟨hjoined, hparties, by rw [Day.online, hjoined, hsettled]; rfl, hpeak⟩) (.inl hparties)
  · obtain ⟨o, ho, hplayer, hparty, honline, hmax⟩ := h.some hparties
    have hof : d.st.operateOf today = o := by rw [St.operateOf, ho]; rfl
    constructor
    · intro hright
      have htop := hright.online_max
      rw [hof, hmax] at htop
      exact .inr (toString_int_injective htop).symm
    · rintro (hzero | hpeak)
      · exact absurd hzero hparties
      · exact ⟨by rw [hof, hplayer]; rfl, by rw [hof, hparty]; rfl, by rw [hof, honline]; rfl, by rw [hof, hmax, hpeak]; rfl⟩

section
variable {prefix_ingame : Match.Format} {get_party_game_winner get_party_game_loser : St → String → Int × Int} {today : String} {d : Day}

theorem count_int (n : Int) : (Count.field (some (toString n))).int = .ok n := by
  rw [Count.int, int_toString_int]

/-- The first group sets the maximum. -/
theorem topOf_first (n : Nat) : ∃ top, topOf n (.num 0) = .ok top ∧ top.text = toString (n : Int) := by
  by_cases hn : (0 : Int) < n
  · refine ⟨.num n, ?_, rfl⟩
    have hunder : (Count.num 0).under n = true := decide_eq_true hn
    rw [topOf, if_pos hunder]
    simp [Count.int]
  · have hzero : n = 0 := by omega
    subst hzero
    exact ⟨.num 0, rfl, rfl⟩

/-- What a group that joins makes of the record. -/
theorem Day.Kept.run_join (h : d.Kept today) {server_table key : String} {ag rule : String}
    (haddress : Match.alreadyInList prefix_ingame server_table ag rule = .some key) (accountlist : List String) :
    (run (onJoinPartyRoomSuccess imported prefix_ingame today server_table accountlist ag rule) d.st).1 = .ok 0 ∧
    ∃ o, (run (onJoinPartyRoomSuccess imported prefix_ingame today server_table accountlist ag rule) d.st).2.operate today = .some o ∧
      o.player_count = .some (toString (d.joined + accountlist.length)) ∧ o.party_count = .some (toString ((d.parties : Int) + 1)) ∧
      o.online_count = .some (toString (d.online + accountlist.length)) ∧
      o.online_max = .some (toString (if d.parties = 0 then (accountlist.length : Int) else d.first)) := by
  have hjoins : ∀ {counts : Joined}, (d.st.counts today).joined accountlist.length = .ok counts →
      run (onJoinPartyRoomSuccess imported prefix_ingame today server_table accountlist ag rule) d.st =
        (.ok 0, d.st.join key accountlist today counts) := by
    intro counts hcounts
    rw [Party.run_join, haddress]
    dsimp only
    rw [if_pos (show imported .PARTY_GAME_ENTER_ROOM_CRADS = true from rfl), hcounts]
  by_cases hparties : d.parties = 0
  · obtain ⟨hnone, hjoined, hsettled, -⟩ := h.none hparties
    obtain ⟨top, htop, htext⟩ := topOf_first accountlist.length
    have hcounts : (d.st.counts today).joined accountlist.length = .ok ⟨0 + accountlist.length, 0 + 1, 0 + accountlist.length, top⟩ := by
      rw [St.counts, hnone]
      show (do return Joined.mk _ _ _ (← topOf (0 + accountlist.length) (.num 0)) : Except Err Joined) = _
      rw [Int.zero_add, htop]
      rfl
    rw [hjoins hcounts]
    refine ⟨rfl, _, Function.update_self .., ?_, ?_, ?_, ?_⟩
    · rw [hjoined]; rfl
    · rw [hparties]; rfl
    · rw [Day.online, hjoined, hsettled]; rfl
    · rw [if_pos hparties, ← htext]; rfl
  · obtain ⟨o, ho, hplayer, hparty, honline, hmax⟩ := h.some hparties
    -- no number comes after the text of the maximum
    have hcounts : (d.st.counts today).joined accountlist.length =
        .ok ⟨d.joined + accountlist.length, d.parties + 1, d.online + accountlist.length, .field (.some (toString d.first))⟩ := by
      rw [St.counts, ho]
      dsimp only
      rw [hplayer, hparty, honline, hmax]
      unfold Counts.joined
      rw [count_int, count_int, count_int]
      rfl
    rw [hjoins hcounts]
    refine ⟨rfl, _, Function.update_self .., rfl, rfl, rfl, ?_⟩
    rw [if_neg hparties]
    rfl

theorem Day.Kept.join (h : d.Kept today) (server_table : String) (accountlist : List String) (ag rule : String) :
    (d.next imported prefix_ingame get_party_game_winner get_party_game_loser today (.join server_table accountlist ag rule)).Kept today := by
  unfold Day.next
  dsimp only [Event.handler]
  cases haddress : Match.alreadyInList prefix_ingame server_table ag rule with
  | some key =>
    obtain ⟨hok, o, ho, hplayer, hparty, honline, hmax⟩ := h.run_join haddress accountlist
    rw [if_pos hok]
    refine ⟨fun hzero => absurd hzero (Nat.succ_ne_zero _), fun _ => ⟨o, ho, hplayer, by exact_mod_cast hparty, ?_, hmax⟩, ?_, ?_⟩
    · rw [honline]
      have hsum : d.online + accountlist.length = d.joined + accountlist.length - d.settled := by
        show d.joined - d.settled + accountlist.length = _
        omega
      exact congrArg (fun n : Int => Option.some (toString n)) hsum
    · show 0 ≤ if d.parties = 0 then (accountlist.length : Int) else d.first
      split
      · exact Int.natCast_nonneg _
      · exact h.first
    · show d.joined + accountlist.length - d.settled ≤ max d.peak (d.online + accountlist.length)
      have honline : d.online = d.joined - d.settled := rfl
      omega
  | none =>
    rw [Party.run_join, haddress]
    exact h

theorem Day.Kept.balance (h : d.Kept today) (now server_table : String) (data : ScoreMap) :
    (d.next imported prefix_ingame get_party_game_winner get_party_game_loser today (.balance now server_table data)).Kept today := by
  unfold Day.next
  dsimp only [Event.handler]
  rcases run_balance today d.st get_party_game_winner get_party_game_loser now server_table data with
    ⟨n, winner, loser, hread, hok, hoperate⟩ | ⟨⟨e, he⟩, hoperate⟩
  · rw [if_pos hok]
    have hparties : d.parties ≠ 0 := fun hzero => by
      rw [St.operateOf, (h.none hzero).1] at hread
      cases hread
    obtain ⟨o, ho, hplayer, hparty, honline, hmax⟩ := h.some hparties
    have hn : n = d.online := by
      rw [St.operateOf, ho, Option.getD_some, honline, count_int] at hread
      exact (Except.ok.inj hread).symm
    refine ⟨fun hzero => absurd hzero hparties, fun _ => ⟨_, by rw [hoperate, Function.update_self], ?_, ?_, ?_, ?_⟩, h.first, ?_⟩
    · rw [St.operateOf, ho]; exact hplayer
    · rw [St.operateOf, ho]; exact hparty
    · rw [hn, Day.online, Day.online, Day.report, Int.sub_sub]
    · rw [St.operateOf, ho]; exact hmax
    · show d.joined - (d.settled + data.keys.length) ≤ max d.peak (d.online - data.keys.length)
      have honline : d.online = d.joined - d.settled := rfl
      omega
  · have hfailed : ¬(run (onPartyRoomBalanceSuccess imported get_party_game_winner get_party_game_loser today now server_table data) d.st).1 = .ok 0 := by
      rw [he]
      exact fun hok => by cases hok
    rw [if_neg hfailed]
    exact ⟨fun hzero => ⟨by rw [hoperate]; exact (h.none hzero).1, (h.none hzero).2⟩, fun hparties => by
      rw [hoperate]; exact h.some hparties, h.first, h.peak⟩

/-- The record is right after an event if and only if the event is within the first group. -/
theorem Day.Kept.next_right_iff (h : d.Kept today) (hpeak : d.parties = 0 ∨ d.peak = d.first) (e : Event) :
    (d.next imported prefix_ingame get_party_game_winner get_party_game_loser today e).Right today ↔ Within e d := by
  cases e with
  | join server_table accountlist ag rule =>
    rw [(h.join server_table accountlist ag rule).right_iff]
    unfold Day.next
    dsimp only [Event.handler]
    cases haddress : Match.alreadyInList prefix_ingame server_table ag rule with
    | some key =>
      have hsome : (split ':' server_table)[6]?.isSome := (alreadyInList_isSome prefix_ingame server_table ag rule).1 (by rw [haddress]; rfl)
      rw [if_pos (h.run_join haddress accountlist).1]
      have hwithin : Within (.join server_table accountlist ag rule) d ↔ d.parties = 0 ∨ d.online + accountlist.length ≤ d.first :=
        ⟨fun hw => hw hsome, fun hw _ => hw⟩
      rw [hwithin]
      show d.parties + 1 = 0 ∨ max d.peak (d.online + accountlist.length) = (if d.parties = 0 then _ else _) ↔ _
      by_cases hparties : d.parties = 0
      · obtain ⟨-, hjoined, hsettled, hzero⟩ := h.none hparties
        rw [if_pos hparties, Day.online, hjoined, hsettled, hzero]
        simp [hparties]
      · have hfirst := hpeak.resolve_left hparties
        rw [if_neg hparties, hfirst]
        simp [hparties]
    | none =>
      rw [Party.run_join, haddress]
      refine ⟨fun _ ha => ?_, fun _ => hpeak⟩
      have hkey := (alreadyInList_isSome prefix_ingame server_table ag rule).2 ha
      rw [haddress] at hkey
      cases hkey
  | balance now server_table data =>
    rw [(h.balance now server_table data).right_iff]
    refine ⟨fun _ => trivial, fun _ => ?_⟩
    have honline := h.peak
    unfold Day.next
    dsimp only
    split
    · refine hpeak.imp_right fun hfirst => ?_
      show max d.peak (d.online - data.keys.length) = d.first
      omega
    · exact hpeak

/-- Where the names are imported, the record of a day is right in every state if and only if no group after the first takes the players
online above its size. -/
theorem imported_day_right_iff (prefix_ingame : Match.Format) (get_party_game_winner get_party_game_loser : St → String → Int × Int)
    (today : String) {s : St} (h : s.operate today = none) (events : List Event) :
    All (Day.next imported prefix_ingame get_party_game_winner get_party_game_loser today)
        (fun e d => (d.next imported prefix_ingame get_party_game_winner get_party_game_loser today e).Right today) events
        ⟨s, 0, 0, 0, 0, 0⟩ ↔
      All (Day.next imported prefix_ingame get_party_game_winner get_party_game_loser today) Within events ⟨s, 0, 0, 0, 0, 0⟩ := by
  refine all_iff (I := fun d => d.Kept today ∧ (d.parties = 0 ∨ d.peak = d.first))
    (fun e d hd => hd.1.next_right_iff hd.2 e) (fun e d hw hd => ?_) ?_
  · have hkept : (d.next imported prefix_ingame get_party_game_winner get_party_game_loser today e).Kept today := by
      cases e with
      | join server_table accountlist ag rule => exact hd.1.join server_table accountlist ag rule
      | balance now server_table data => exact hd.1.balance now server_table data
    exact ⟨hkept, hkept.right_iff.1 ((hd.1.next_right_iff hd.2 e).2 hw)⟩
  · exact ⟨⟨fun _ => ⟨h, rfl, rfl, rfl⟩, fun hzero => absurd rfl hzero, le_refl 0, le_refl 0⟩, .inl rfl⟩

/-- Were the names imported, two pairs would be online, and the maximum two. -/
example :
    let d := after (Day.next imported Match.ingameKey (fun _ _ => (0, 0)) (fun _ _ => (0, 0)) "2017-10-03")
      [.join roomServer ["ann", "bob"] "7" "rule", .join roomServer ["cid", "dan"] "7" "rule"] ⟨fourPlayers, 0, 0, 0, 0, 0⟩
    d.online = 4 ∧ (d.st.operateOf "2017-10-03").online_max = some "2" := by decide +kernel

end

/-! ## The worker's own day -/

section
variable {prefix_ingame : Match.Format} {get_party_game_winner get_party_game_loser : St → String → Int × Int} {today : String} {d : Day}

/-- A day of which nothing is recorded and nothing has been reported. -/
structure Day.Blank (today : String) (d : Day) : Prop where
  operate : d.st.operate today = none
  joined : d.joined = 0
  settled : d.settled = 0
  parties : d.parties = 0
  peak : d.peak = 0

variable (prefix_ingame get_party_game_winner get_party_game_loser today d) in
/-- The worker records nothing of an event. -/
theorem told_operate (e : Event) :
    (d.told party_worker prefix_ingame get_party_game_winner get_party_game_loser today e).st.operate = d.st.operate := by
  cases e with
  | join server_table accountlist ag rule =>
    show (run (onJoinPartyRoomSuccess ..) d.st).2.operate = _
    rw [run_join]
    cases Match.alreadyInList prefix_ingame server_table ag rule <;> rfl
  | balance now server_table data =>
    obtain ⟨e, hrun⟩ := run_worker get_party_game_winner get_party_game_loser today now server_table data d.st
    show (run (onPartyRoomBalanceSuccess ..) d.st).2.operate = _
    rw [hrun]

theorem Day.Blank.right (h : d.Blank today) : d.Right today :=
  (Day.right_of_none h.operate).2 ⟨h.joined, h.parties, by rw [Day.online, h.joined, h.settled]; rfl, h.peak⟩

theorem Day.Blank.told (h : d.Blank today) {e : Event} (hdue : ¬e.Due) :
    (d.told party_worker prefix_ingame get_party_game_winner get_party_game_loser today e).Blank today := by
  have hoperate := congrFun (told_operate prefix_ingame get_party_game_winner get_party_game_loser today d e) today
  unfold Day.told at hoperate ⊢
  dsimp only at hoperate ⊢
  rw [if_neg hdue]
  exact ⟨hoperate.trans h.operate, h.joined, h.settled, h.parties, h.peak⟩

/-- What is due is missing from the record. -/
theorem Day.Blank.told_right_iff (h : d.Blank today) (e : Event) :
    (d.told party_worker prefix_ingame get_party_game_winner get_party_game_loser today e).Right today ↔ ¬e.Due := by
  refine ⟨fun hright hdue => ?_, fun hdue => (h.told hdue).right⟩
  have hoperate := congrFun (told_operate prefix_ingame get_party_game_winner get_party_game_loser today d e) today
  obtain ⟨-, hparties, honline, -⟩ := (Day.right_of_none (hoperate.trans h.operate)).1 hright
  unfold Day.told at hparties honline
  dsimp only at hparties honline
  rw [if_pos hdue] at hparties honline
  cases e with
  | join server_table accountlist ag rule => exact Nat.succ_ne_zero _ hparties
  | balance now server_table data =>
    have hsettled : d.joined - (d.settled + data.keys.length) = 0 := honline
    have hlength : 0 < data.keys.length := by
      rw [ScoreMap.keys, List.length_map]
      exact List.length_pos_iff.2 hdue.2
    rw [h.joined, h.settled] at hsettled
    omega

/-- The worker's record of a day is right in every state if and only if no event of the day is due. -/
theorem day_right_iff (prefix_ingame : Match.Format) (get_party_game_winner get_party_game_loser : St → String → Int × Int)
    (today : String) {s : St} (h : s.operate today = none) (events : List Event) :
    All (Day.told party_worker prefix_ingame get_party_game_winner get_party_game_loser today)
        (fun e d => (d.told party_worker prefix_ingame get_party_game_winner get_party_game_loser today e).Right today) events
        ⟨s, 0, 0, 0, 0, 0⟩ ↔
      ∀ e ∈ events, ¬e.Due := by
  have hblank : Day.Blank today ⟨s, 0, 0, 0, 0, 0⟩ := ⟨h, rfl, rfl, rfl, rfl⟩
  exact (all_iff (I := Day.Blank today) (fun e d hd => hd.told_right_iff e) (fun e d hdue hd => hd.told hdue) hblank).trans all_iff_forall

/-- A report without an address, and a settlement of nobody. -/
theorem day_right_idle :
    All (Day.told party_worker Match.ingameKey (fun _ _ => (0, 0)) (fun _ _ => (0, 0)) "2017-10-03")
      (fun e d => (d.told party_worker Match.ingameKey (fun _ _ => (0, 0)) (fun _ _ => (0, 0)) "2017-10-03" e).Right "2017-10-03")
      [.join "service:1" ["ann"] "7" "rule", .balance "2017-10-03 20:00:00" roomServer ⟨[], by decide⟩] ⟨fourPlayers, 0, 0, 0, 0, 0⟩ :=
  (day_right_iff Match.ingameKey (fun _ _ => (0, 0)) (fun _ _ => (0, 0)) "2017-10-03" rfl _).2 (by decide +kernel)

/-- A pair has joined, and the day has no record. -/
theorem join_unrecorded :
    let d := Day.told party_worker Match.ingameKey (fun _ _ => (0, 0)) (fun _ _ => (0, 0)) "2017-10-03"
      (.join roomServer ["ann", "bob"] "7" "rule") ⟨fourPlayers, 0, 0, 0, 0, 0⟩
    d.online = 2 ∧ d.st.operate "2017-10-03" = none ∧ ¬d.Right "2017-10-03" := by
  intro d
  have hnone : d.st.operate "2017-10-03" = none := by rfl
  have honline : d.online = 2 := by decide +kernel
  refine ⟨honline, hnone, fun hright => ?_⟩
  obtain ⟨-, -, hzero, -⟩ := (Day.right_of_none hnone).1 hright
  rw [honline] at hzero
  cases hzero

end

end FishWeb.Party
