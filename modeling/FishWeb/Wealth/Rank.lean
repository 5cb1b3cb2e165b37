import FishWeb.Guild.Membership
import FishWeb.Wealth.Model
/-!
# The ranking of the gold

The ranking is a copy. It is refreshed where gold is added, set or bought, and where the
refresh is refused or left out (a round of the match-3 game, leaving a guild) an entry that
is there goes stale.
-/
open Python Prog Runs
open Function (update)

namespace FishWeb.Wealth

open Common
open Guild (userTableOf)
open Guild.Join (Tables)

/-- Who has an entry in the ranking of a guild is of that guild, and the score is his gold. -/
def Ranks (s : St) : Prop := ∀ g account q, g ≠ "" → s.rank g account = some q →
  ∃ table gold, s.userTable account = some table ∧ s.parentAg table = some g ∧ s.gold table = some gold ∧ decimal gold.toList = some q

/-! ## What keeps the ranking -/

/-- The account of the table has no entry. -/
def Unranked (s : St) (table : String) : Prop := ∀ account g, s.userTable account = some table → g ≠ "" → s.rank g account = none

/-- The ranking of the user's guild shows the gold as it is, or refuses it and has no entry of the account. -/
def Fits (s : St) (account table gold : String) : Prop := s.prredis = true → ∀ g, s.parentAg table = some g → g ≠ "" →
  match score gold with
  | some q => decimal gold.toList = some q
  | none => s.rank g account = none

/-- Whoever the request takes out of a guild has no entry in its ranking. -/
def Stays (fuel : Nat) (r : Req) (s : St) : Prop := ∀ account table g, s.userTable account = some table → s.parentAg table = some g →
  g ≠ "" → (step fuel r s).parentAg table ≠ some g → s.rank g account = none

/-- The account that a session is of. -/
def St.account (s : St) (sid : String) : String := fmt ((s.hall.guild.shared.session sid).map Prod.fst)

/-- What leaves the ranking as it should be: the new gold is shown as it is, and what does not refresh has nothing to. -/
def Sound (fuel : Nat) (r : Req) (s : St) : Prop :=
  match r with
  | .add account gold => ∀ table n, s.userTable account = some table → incrText (s.gold table) (toString gold) = some n →
      Fits s account table (toString n)
  | .gmSet sid coinNum => ∀ table, coinNum ≠ "" → isNumber coinNum = true → s.userTable (s.account sid) = some table →
      Fits s (s.account sid) table coinNum
  | .buy account money num => ∀ table n, s.userTable account = some table → incrText (s.gold table) num = some n →
      if (redisInt money).isSome then Fits s account table (toString n) else Unranked s table
  | .credit table winScore => ∀ n, incrText (s.gold table) (toString winScore) = some n → winScore = 0 ∨ Unranked s table
  | .guild _ | .exitGroup _ => Stays fuel r s

/-- The ranking is right; an account has a table of its own, and without an instance there is no ranking. -/
structure Inv (s : St) : Prop where
  ranks : Ranks s
  tables : Tables s.hall.guild.shared
  own : ∀ a b table, s.userTable a = some table → s.userTable b = some table → a = b
  off : s.prredis = false → ∀ g account, s.rank g account = none

/-! ## Changes of the gold -/

def St.withGold (s : St) (table gold : String) : St := { s with gold := update s.gold table (some gold) }

section Gold
variable {s : St} {account table gold : String}

/-- The entries of the other accounts are as they were. -/
theorem Inv.others (hi : Inv s) (ht : s.userTable account = some table) {g b : String} {q : ℚ} (hg : g ≠ "") (hb : b ≠ account)
    (hq : s.rank g b = some q) : ∃ t x, (s.withGold table gold).userTable b = some t ∧ (s.withGold table gold).parentAg t = some g ∧
      (s.withGold table gold).gold t = some x ∧ decimal x.toList = some q := by
  obtain ⟨t, x, hut, hp, hx, hd⟩ := hi.ranks g b q hg hq
  refine ⟨t, x, hut, hp, ?_, hd⟩
  have hne : t ≠ table := by
    rintro rfl
    exact hb (hi.own b account t hut ht)
  exact (Function.update_of_ne hne _ _).trans hx

/-- Who has no entry may have any gold. -/
theorem Inv.unranked (hi : Inv s) (hu : Unranked s table) : Inv (s.withGold table gold) := by
  refine ⟨fun g b q hg hq => ?_, hi.tables, hi.own, hi.off⟩
  obtain ⟨t, x, hut, hp, hx, hd⟩ := hi.ranks g b q hg hq
  refine ⟨t, x, hut, hp, ?_, hd⟩
  have hne : t ≠ table := by
    rintro rfl
    exact absurd ((hu b g hut hg).symm.trans hq) (by simp)
  exact (Function.update_of_ne hne _ _).trans hx

/-- A text of the same number changes nothing. -/
theorem Inv.same (hi : Inv s) (h : ∀ text q, s.gold table = some text → decimal text.toList = some q →
    decimal gold.toList = some q) : Inv (s.withGold table gold) := by
  refine ⟨fun g b q hg hq => ?_, hi.tables, hi.own, hi.off⟩
  obtain ⟨t, x, hut, hp, hx, hd⟩ := hi.ranks g b q hg hq
  by_cases ht : t = table
  · subst ht
    exact ⟨t, gold, hut, hp, Function.update_self .., h x q hx hd⟩
  · exact ⟨t, x, hut, hp, (Function.update_of_ne ht _ _).trans hx, hd⟩

theorem table_parts (ht : Tables s.hall.guild.shared) (hut : s.userTable account = some table) :
    ∃ id, table = userTableOf id ∧ table ≠ "" ∧ (split ':' table)[1]? = some id := by
  obtain ⟨id, rfl, hid⟩ := ht account table hut
  have htable : userTableOf id = "users" ++ String.singleton ':' ++ id := rfl
  refine ⟨id, rfl, fun h => ?_, ?_⟩
  · have hl := congrArg String.length h
    simp [userTableOf] at hl
  · rw [htable, split_append (by decide) hid]
    rfl

/-- What the end of the updates does to the ranking. -/
def St.refreshed (s : St) (account table : String) : St :=
  match s.parentAg table, s.gold table with
  | some g, some gold =>
    if s.prredis then
      match score gold with
      | some q => s.ranked g account q
      | none => s
    else s
  | _, _ => s

theorem run_getUserTable (hut : s.userTable account = some table) :
    run (send (.getUserTable account)) s = (.ok (some table), s) := by
  rw [← hut]
  rfl

theorem run_getUserInfo (ht : Tables s.hall.guild.shared) (hut : s.userTable account = some table) :
    run (getUserInfo account) s = (.ok (some (s.parentAg table, s.gold table)), s) := by
  obtain ⟨id, -, hne, hid⟩ := table_parts ht hut
  have hgetall : run (send (.hgetall table)) s = (.ok (s.parentAg table, s.gold table), s) := rfl
  unfold getUserInfo
  rw [run_bind_ok (run_getUserTable hut)]
  dsimp only [Option.getD_some]
  rw [if_neg hne, run_bind_ok hgetall, hid]
  rfl

theorem run_refresh (ht : Tables s.hall.guild.shared) (hut : s.userTable account = some table) :
    (run (refresh account) s).2 = s.refreshed account table := by
  have hinst : run (send .privateRedisInst) s = (.ok s.prredis, s) := rfl
  unfold refresh St.refreshed
  rw [run_bind_ok hinst, run_bind_ok (run_getUserInfo ht hut)]
  dsimp only
  cases s.parentAg table with
  | none => rfl
  | some g =>
  cases s.gold table with
  | none => rfl
  | some gold =>
  cases s.prredis with
  | false => rfl
  | true =>
    have hzadd : run (send (.zadd g account gold)) s = match score gold with
        | some q => (.ok true, s.ranked g account q)
        | none => (.ok false, s) := by
      show (Except.ok (Exec.exec (Own.zadd g account gold) s).1, (Exec.exec (Own.zadd g account gold) s).2) = _
      cases hs : score gold <;> simp [Exec.exec, hs]
    simp only [orRaise_some, ret_bind, Bool.not_true, Bool.false_eq_true, if_false, if_true]
    cases hs : score gold with
    | none =>
      rw [hs] at hzadd
      rw [run_bind_ok hzadd]
      rfl
    | some q =>
      rw [hs] at hzadd
      rw [run_bind_ok hzadd]
      rfl

/-- The gold is set and the ranking refreshed. -/
theorem Inv.refreshed (hi : Inv s) (ht : s.userTable account = some table) (hf : Fits s account table gold) :
    Inv ((s.withGold table gold).refreshed account table) := by
  have hgold : (s.withGold table gold).gold table = some gold := Function.update_self ..
  have hstale : (∀ g, s.parentAg table = some g → g ≠ "" → s.rank g account = none) → Inv (s.withGold table gold) := by
    intro h
    refine hi.unranked fun b g hb hg => ?_
    obtain rfl := hi.own b account table hb ht
    by_contra hrank
    obtain ⟨q, hq⟩ := Option.ne_none_iff_exists'.1 hrank
    obtain ⟨t, x, hut, hp, -⟩ := hi.ranks g b q hg hq
    obtain rfl : t = table := Option.some.inj (hut.symm.trans ht)
    exact hrank (h g hp hg)
  unfold St.refreshed
  rw [hgold]
  cases hp : (s.withGold table gold).parentAg table with
  | none => exact hstale fun g hg => absurd (hp.symm.trans hg) (by simp)
  | some g =>
  have hp' : s.parentAg table = some g := hp
  dsimp only
  cases hinst : s.prredis with
  | false =>
    rw [if_neg (by rw [show (s.withGold table gold).prredis = false from hinst]; decide)]
    exact hstale fun g _ _ => hi.off hinst g account
  | true =>
  rw [if_pos (show (s.withGold table gold).prredis = true from hinst)]
  have hfits := hf hinst
  cases hs : score gold with
  | none =>
    rw [hs] at hfits
    exact hstale hfits
  | some q =>
    rw [hs] at hfits
    refine ⟨fun g' b q' hg' hq' => ?_, hi.tables, hi.own, fun hoff => absurd (hinst.symm.trans hoff) (by decide)⟩
    have hq'' : update s.rank g (update (s.rank g) account (some q)) g' b = some q' := hq'
    by_cases hgg : g' = g
    · subst hgg
      rw [Function.update_self] at hq''
      by_cases hb : b = account
      · rw [hb, Function.update_self] at hq''
        rw [hb]
        exact ⟨table, gold, ht, hp, hgold, Option.some.inj hq'' ▸ hfits g' hp' hg'⟩
      · rw [Function.update_of_ne hb] at hq''
        exact hi.others ht hg' hb hq''
    · rw [Function.update_of_ne hgg] at hq''
      by_cases hb : b = account
      · -- his entries are of his own guild
        obtain ⟨t, x, hut, hpt, -⟩ := hi.ranks g' b q' hg' hq''
        obtain rfl : t = table := Option.some.inj (hut.symm.trans (hb ▸ ht))
        exact absurd (Option.some.inj (hpt.symm.trans hp')) hgg
      · exact hi.others ht hg' hb hq''

end Gold

/-! ## Each request -/

section Requests
variable {s : St} {fuel : Nat}

/-- The increments are of a table that is some account's, or there is none. -/
theorem userTable_cases (s : St) (account : String) : run (send (.getUserTable account)) s = (.ok (s.userTable account), s) := rfl

section Increment
variable {table num : String} {n : Int}

theorem incrGold_refused (hn : incrText (s.gold table) num = none) : s.incrGold table num = s := by rw [St.incrGold, hn]

theorem incrGold_done (hn : incrText (s.gold table) num = some n) : s.incrGold table num = s.withGold table (toString n) := by
  rw [St.incrGold, hn]
  rfl

/-- An increment that is carried out is by a number. -/
theorem incrText_some {stored : Option String} (hn : incrText stored num = some n) : ∃ m k, redisInt num = some k ∧ n = m + k ∧
    ∀ text, stored = some text → redisInt text = some m := by
  obtain ⟨m, hm, hsum⟩ := Option.bind_eq_some_iff.1 hn
  obtain ⟨k, hk, rfl⟩ := Option.map_eq_some_iff.1 (Option.filter_eq_some_iff.1 hsum).1
  refine ⟨m, k, hk, rfl, ?_⟩
  rintro text rfl
  exact hm

theorem run_hincrbyGold : run (send (.hincrbyGold table num)) s = (.ok (incrText (s.gold table) num).isSome, s.incrGold table num) := rfl

end Increment

theorem inv_playerAddGold (hi : Inv s) {account : String} {gold : Int} (hsound : Sound fuel (.add account gold) s) :
    Inv (run (playerAddGold account gold) s).2 := by
  unfold playerAddGold
  rw [run_bind_ok (userTable_cases s account)]
  cases ht : s.userTable account with
  | none => exact hi
  | some table =>
    obtain ⟨-, -, hne, -⟩ := table_parts hi.tables ht
    dsimp only [Option.getD_some]
    rw [if_neg hne, run_bind_ok run_hincrbyGold]
    cases hn : incrText (s.gold table) (toString gold) with
    | none =>
      rw [incrGold_refused hn]
      exact hi
    | some n =>
      rw [incrGold_done hn]
      show Inv (run (refresh account) (s.withGold table (toString n))).2
      rw [run_refresh (s := s.withGold table (toString n)) hi.tables ht]
      exact hi.refreshed ht (hsound table n ht hn)

theorem inv_gmSet (hi : Inv s) {sid coinNum : String} (hsound : Sound fuel (.gmSet sid coinNum) s) :
    Inv (run (checkWelfareIsGM sid coinNum) s).2 := by
  unfold checkWelfareIsGM
  split
  · exact hi
  rename_i hcheck
  rw [not_or] at hcheck
  have hinfo : run (hall (Guild.Join.guild (getInfoBySid sid))) s = (.ok (s.hall.guild.shared.info sid), s) := rfl
  rw [run_bind_ok hinfo]
  show Inv (run (playerSetGold (s.account sid) coinNum) s).2
  unfold playerSetGold
  rw [run_bind_ok (userTable_cases s _)]
  cases ht : s.userTable (s.account sid) with
  | none => exact hi
  | some table =>
    obtain ⟨-, -, hne, -⟩ := table_parts hi.tables ht
    dsimp only [Option.getD_some]
    rw [if_neg hne]
    show Inv (run (refresh (s.account sid)) (s.withGold table coinNum)).2
    rw [run_refresh (s := s.withGold table coinNum) hi.tables ht]
    exact hi.refreshed ht (hsound table hcheck.1 (by simpa using hcheck.2) ht)

theorem run_saveBuyGoldRecord (account : String) (s : St) : (run (saveBuyGoldRecord account) s).2 = (run (refresh account) s).2 := by
  have hret : (run (saveBuyGoldRecord account) s).2 = (run (refresh account).attempt s).2 := run_bind_ret _ (fun _ => ()) s
  rw [hret, run_attempt]

theorem inv_buy (hi : Inv s) {account money num : String} (hsound : Sound fuel (.buy account money num) s) :
    Inv (run (goldSale.addGold2Merber account money num) s).2 := by
  unfold GoldSale.addGold2Merber
  dsimp only [goldSale]
  rw [run_bind_ok (userTable_cases s account)]
  cases ht : s.userTable account with
  | none => exact hi
  | some table =>
    obtain ⟨id, rfl, hne, hid⟩ := table_parts hi.tables ht
    dsimp only [Option.getD_some]
    rw [if_neg hne, hid, orRaise_some, ret_bind]
    have hbuy : run (send (.buy (userTableOf id) money num)) s = (.ok ((incrText (s.gold (userTableOf id)) num).isSome &&
        (redisInt num).isSome && (redisInt money).isSome), s.incrGold (userTableOf id) num) := rfl
    rw [bind_assoc, run_bind_ok hbuy]
    cases hn : incrText (s.gold (userTableOf id)) num with
    | none =>
      rw [incrGold_refused hn]
      exact hi
    | some n =>
      obtain ⟨-, k, hk, -⟩ := incrText_some hn
      have hsound := hsound (userTableOf id) n ht hn
      rw [incrGold_done hn, hk]
      cases hmoney : (redisInt money).isSome with
      | false =>
        rw [hmoney] at hsound
        exact hi.unranked hsound
      | true =>
        rw [hmoney] at hsound
        show Inv (run (saveBuyGoldRecord account) (s.withGold (userTableOf id) (toString n))).2
        rw [run_saveBuyGoldRecord, run_refresh (s := s.withGold (userTableOf id) (toString n)) hi.tables ht]
        exact hi.refreshed ht hsound

theorem inv_credit (hi : Inv s) {table : String} {winScore : Int} (hsound : Sound fuel (.credit table winScore) s) :
    Inv (run (credit table winScore) s).2 := by
  unfold credit
  rw [run_bind_ok run_hincrbyGold]
  cases hn : incrText (s.gold table) (toString winScore) with
  | none =>
    rw [incrGold_refused hn]
    exact hi
  | some n =>
    rw [incrGold_done hn]
    show Inv (s.withGold table (toString n))
    rcases hsound n hn with rfl | hu
    · -- the text may change, but not the number
      obtain ⟨m, k, hk, rfl, htext⟩ := incrText_some hn
      obtain rfl : k = 0 := Option.some.inj (hk.symm.trans (by decide))
      refine hi.same fun text q hgold hq => ?_
      rw [Int.add_zero, decimal_toString, decimal_of_redisInt (htext text hgold) hq]
    · exact hi.unranked hu

/-! ### Guilds -/

theorem part_hall : Part (C := Guild.Join.Cmd) (D := Cmd) (fun _ => Cmd.hall) St.hall (fun s h => { s with hall := h }) where
  exec _ _ _ := rfl
  view_put _ _ := rfl
  put_put _ _ _ := rfl
  put_view _ := rfl

/-- No command of the guilds changes the users and their sessions. -/
theorem shared_exec {β : Type} (c : Guild.Join.Cmd β) (h : Guild.Join.Hall) : (Exec.exec c h).2.guild.shared = h.guild.shared := by
  cases c with
  | guild c =>
    cases c with
    | ask a => rfl
    | own c =>
      cases c with
      | join id groupId accepted message => cases accepted <;> rfl
      | _ => rfl
  | desk c => cases c <;> rfl

theorem shared_run {α : Type} (p : Prog Err Guild.Join.Cmd α) (h : Guild.Join.Hall) : (run p h).2.guild.shared = h.guild.shared := by
  induction p generalizing h with
  | ret a => rfl
  | raise e => rfl
  | cmd c k ih => exact (ih _ _).trans (shared_exec c h)

theorem inv_hall {α : Type} (hi : Inv s) (p : Prog Err Guild.Join.Cmd α) (hstays : ∀ account table g,
    s.userTable account = some table → s.parentAg table = some g → g ≠ "" → (run (hall p) s).2.parentAg table ≠ some g →
      s.rank g account = none) : Inv (run (hall p) s).2 := by
  have hrun : (run (hall p) s).2 = { s with hall := (run p s.hall).2 } := by rw [hall, run_lift part_hall]
  have hshared : (run p s.hall).2.guild.shared = s.hall.guild.shared := shared_run p s.hall
  rw [hrun] at hstays ⊢
  refine ⟨fun g b q hg hq => ?_, ?_, fun a b table ha hb => ?_, hi.off⟩
  · obtain ⟨table, gold, hut, hp, hgold, hd⟩ := hi.ranks g b q hg hq
    refine ⟨table, gold, ?_, ?_, hgold, hd⟩
    · show (run p s.hall).2.guild.shared.userTable b = some table
      rwa [hshared]
    · by_contra hout
      exact absurd ((hstays b table g hut hp hg hout).symm.trans hq) (by simp)
  · show Tables (run p s.hall).2.guild.shared
    rw [hshared]
    exact hi.tables
  · have ha' : (run p s.hall).2.guild.shared.userTable a = some table := ha
    have hb' : (run p s.hall).2.guild.shared.userTable b = some table := hb
    rw [hshared] at ha' hb'
    exact hi.own a b table ha' hb'

end Requests

/-! ## Runs -/

theorem inv_step {s : St} {fuel : Nat} {r : Req} (hsound : Sound fuel r s) (hi : Inv s) : Inv (step fuel r s) := by
  cases r with
  | add account gold =>
    have hstore : step fuel (.add account gold) s = (run (playerAddGold account gold) s).2 := run_bind_ret _ (fun _ => ()) s
    rw [hstore]
    exact inv_playerAddGold hi hsound
  | gmSet sid coinNum =>
    have hstore : step fuel (.gmSet sid coinNum) s = (run (checkWelfareIsGM sid coinNum) s).2 := run_bind_ret _ (fun _ => ()) s
    rw [hstore]
    exact inv_gmSet hi hsound
  | buy account money num => exact inv_buy hi hsound
  | credit table winScore => exact inv_credit hi hsound
  | guild r => exact inv_hall hi (r.handler fuel) hsound
  | exitGroup sid =>
    have hstore : step fuel (.exitGroup sid) s = (run (hall (Guild.Join.guild (Guild.exitGroup fuel sid))) s).2 :=
      run_bind_ret _ (fun _ => ()) s
    rw [hstore]
    refine inv_hall hi _ fun account table g ht hp hg hout => hsound account table g ht hp hg ?_
    rwa [hstore]

/-- Guilds and users as they may be, gold as it may be, and no ranking yet. -/
structure Start where
  hall : Guild.Join.Hall
  gold : String → Option String
  prredis : Bool
  tables : Tables hall.guild.shared
  own : ∀ a b table, hall.guild.shared.userTable a = some table → hall.guild.shared.userTable b = some table → a = b

def Start.st (c : Start) : St := ⟨c.hall, c.gold, c.prredis, fun _ _ => none⟩

/-- User 7 is in guild 2. -/
def inGuild : Start where
  hall := { Guild.Join.twoGuilds.start.st with
    guild := { Guild.Join.twoGuilds.start.st.guild with
      parentAg := fun table => if table = userTableOf "7" then some "2" else none
      members := fun g => if g = "2" then (∅ : MemberSet String).sadd "7" else ∅ } }
  gold _ := none
  prredis := true
  tables := Guild.Join.twoGuilds.tables
  own := by
    intro a b table ha hb
    have hacc : ∀ c, Guild.Join.twoGuilds.shared.userTable c = some table → c = "acc" := by
      intro c hc
      by_contra hne
      simp [Guild.Join.twoGuilds, hne] at hc
    rw [hacc a ha, hacc b hb]

end FishWeb.Wealth
