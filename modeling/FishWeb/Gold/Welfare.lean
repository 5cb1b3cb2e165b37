import FishWeb.Gold.Model
import FishWeb.Lib.Runs
/-!
# Claims of gold

The claims of a user on any days, with the successful ones kept beside the store. The marks
of the allowance and of the gift for newcomers are set before the claim succeeds, so neither
succeeds too often. The reward of a first purchase cannot be claimed, since the call that
should set its mark raises. Of what succeeds only the allowance pays, and it pays the user
where the account has his table (`claims_right_iff`).
-/
open Python Prog Calendar Runs

namespace FishWeb.Gold

open Function (update)

/-! ## What a claim comes to -/

/-- The gold of the user, as the handler reads it. -/
def St.goldOf (s : St) (uid : String) : Option Int := numberOf (s.user (FORMAT_USER_TABLE uid)).gold

def St.pushed (s : St) (today : String) : St :=
  { s with insurance := update s.insurance today (SIGN_COINNUM :: s.insurance today) }

/-- The store after `player_add_gold`, whatever it returns or raises. -/
def St.paid (s : St) (gold : Int) : St :=
  if s.userTable.getD "" = "" then s
  else match s.counted (fmt s.userTable) with
    | some n => s.setGold (fmt s.userTable) (n + gold)
    | none => s

/-- What `player_add_gold` returns or raises. -/
def St.payment (s : St) : Except Err (Option Bool) :=
  if s.userTable.getD "" = "" then .ok none
  else match s.counted (fmt s.userTable), (split ':' (fmt s.userTable))[1]?, (s.user (fmt s.userTable)).parentAg, s.prredis with
    | none, _, _, _ => .error .ResponseError
    | some _, none, _, _ => .error .IndexError
    | some _, some _, none, _ => .error .KeyError
    | some _, some _, some _, false => .error .AttributeError
    | some _, some _, some _, true => .ok (some true)

theorem setGold_parentAg (s : St) (user_table : String) (gold : Int) :
    ((s.setGold user_table gold).user user_table).parentAg = (s.user user_table).parentAg := by
  unfold St.setGold
  dsimp only
  rw [Function.update_self]

theorem run_hincrbyGold (user_table : String) (gold : Int) (s : St) :
    run (call (.hincrbyGold user_table gold) : Handler Bool) s = match s.counted user_table with
      | some n => (.ok true, s.setGold user_table (n + gold))
      | none => (.ok false, s) := by
  show (Except.ok (match s.counted user_table with
    | some n => (true, s.setGold user_table (n + gold))
    | none => (false, s)).1, (match s.counted user_table with
    | some n => (true, s.setGold user_table (n + gold))
    | none => (false, s)).2) = _
  cases s.counted user_table <;> rfl

theorem run_player_add_gold (gold : Int) (s : St) : run (player_add_gold gold) s = (s.payment, s.paid gold) := by
  have htable : Exec.exec (.getUserTable : Cmd _) s = (s.userTable, s) := rfl
  unfold player_add_gold St.payment St.paid
  rw [run_bind_ok (run_call ..), htable]
  dsimp only
  split
  · rfl
  · next htable =>
    rw [run_bind, run_hincrbyGold]
    cases s.counted (fmt s.userTable) with
    | none => rfl
    | some n =>
      have hsame : (s.setGold (fmt s.userTable) (n + gold)).userTable = s.userTable := rfl
      show run (get_user_info >>= _ : Handler (Option Bool)) _ = _
      rw [run_bind, run_get_user_info, St.userInfo, hsame, if_neg htable]
      cases (split ':' (fmt s.userTable))[1]? with
      | none => rfl
      | some uid =>
        show run (orRaise .KeyError ((s.setGold (fmt s.userTable) (n + gold)).user (fmt s.userTable)).parentAg >>= _ :
          Handler (Option Bool)) _ = _
        rw [setGold_parentAg]
        cases (s.user (fmt s.userTable)).parentAg with
        | none => rfl
        | some agentid =>
          have hprredis : (s.setGold (fmt s.userTable) (n + gold)).prredis = s.prredis := rfl
          show run (if !(s.setGold (fmt s.userTable) (n + gold)).prredis then _ else _ : Handler (Option Bool)) _ = _
          rw [hprredis]
          cases s.prredis <;> rfl

theorem run_allowance (today uid : String) (s : St) :
    run (allowance today uid) s = match s.goldOf uid with
      | none => (.error .ValueError, s)
      | some playerCoin =>
        if playerCoin ≥ SIGN_LINE then (.ok ⟨1, "未达到低保线无法领取"⟩, s)
        else if (s.insurance today).length ≥ SIGN_MAX then (.ok ⟨1, "已经领取了 " ++ toString SIGN_MAX ++ " 次"⟩, s)
        else (s.payment.map fun _ => taken, (s.pushed today).paid SIGN_COINNUM) := by
  unfold allowance St.goldOf
  rw [run_bind_ok (run_call ..), run_bind]
  have hgold : Exec.exec (.hgetGold (FORMAT_USER_TABLE uid) : Cmd _) s = ((s.user (FORMAT_USER_TABLE uid)).gold, s) := rfl
  rw [hgold, run_intOr0]
  cases numberOf (s.user (FORMAT_USER_TABLE uid)).gold with
  | none => rfl
  | some playerCoin =>
    dsimp only
    split
    · rfl
    · show run (if (s.insurance today).length ≥ SIGN_MAX then _ else _ : Handler Reply) s = _
      split
      · rfl
      · have hpayment : (s.pushed today).payment = s.payment := rfl
        show run (player_add_gold SIGN_COINNUM >>= _ : Handler Reply) (s.pushed today) = _
        rw [run_bind, run_player_add_gold, hpayment]
        cases s.payment <;> rfl

/-- An allowance is given: there is little gold, fewer than two were given today, and the payment does not raise. -/
structure Allows (s : St) (today uid : String) : Prop where
  low : ∃ n, s.goldOf uid = some n ∧ n < SIGN_LINE
  few : (s.insurance today).length < SIGN_MAX
  payment : ∃ r, s.payment = .ok r

/-- The claim succeeds. -/
def Takes (s : St) (today uid id : String) : Prop :=
  id = "2" ∧ Allows s today uid ∨ id = "1" ∧ s.newPresent ≠ some MESSION_STATUS_OVER ∨ id ∉ ["0", "1", "2"]

theorem allowance_cases (s : St) (today uid : String) :
    Allows s today uid ∧ run (allowance today uid) s = (.ok taken, (s.pushed today).paid SIGN_COINNUM) ∨
    ¬Allows s today uid ∧ succeeded (run (allowance today uid) s).1 = false ∧
      ((run (allowance today uid) s).2 = s ∨ (run (allowance today uid) s).2 = (s.pushed today).paid SIGN_COINNUM) := by
  rw [run_allowance]
  cases hgold : s.goldOf uid with
  | none =>
    refine .inr ⟨fun h => ?_, rfl, .inl rfl⟩
    obtain ⟨n, hn, -⟩ := h.low
    rw [hgold] at hn
    cases hn
  | some n =>
    dsimp only
    by_cases hline : n ≥ SIGN_LINE
    · rw [if_pos hline]
      refine .inr ⟨fun h => ?_, rfl, .inl rfl⟩
      obtain ⟨m, hm, hlow⟩ := h.low
      rw [hgold] at hm
      cases hm
      omega
    rw [if_neg hline]
    by_cases hmany : (s.insurance today).length ≥ SIGN_MAX
    · rw [if_pos hmany]
      exact .inr ⟨fun h => absurd h.few (Nat.not_lt.2 hmany), rfl, .inl rfl⟩
    rw [if_neg hmany]
    cases hpayment : s.payment with
    | error e =>
      refine .inr ⟨fun h => ?_, rfl, .inr rfl⟩
      obtain ⟨r, hr⟩ := h.payment
      rw [hpayment] at hr
      cases hr
    | ok r => exact .inl ⟨⟨⟨n, hgold, not_le.1 hline⟩, Nat.not_le.1 hmany, r, hpayment⟩, rfl⟩

theorem run_newPresent (s : St) :
    run newPresent s = if s.newPresent = some MESSION_STATUS_OVER then (.ok ⟨1, "您已领取，无法再次领取"⟩, s)
      else (.ok taken, { s with newPresent := some MESSION_STATUS_OVER }) := by
  show run (if s.newPresent = some MESSION_STATUS_OVER then _ else _ : Handler Reply) s = _
  split <;> rfl

/-- No one is given the reward of a first purchase. -/
theorem dayReward_fails (s : St) (today : String) : succeeded (run (dayReward today) s).1 = false ∧ (run (dayReward today) s).2 = s := by
  show succeeded (run (if !s.bought today then _ else _ : Handler Reply) s).1 = false ∧
    (run (if !s.bought today then _ else _ : Handler Reply) s).2 = s
  split
  · exact ⟨rfl, rfl⟩
  · show succeeded (run (if s.dayBuy today = some MESSION_STATUS_OVER then _ else _ : Handler Reply) s).1 = false ∧
      (run (if s.dayBuy today = some MESSION_STATUS_OVER then _ else _ : Handler Reply) s).2 = s
    split <;> exact ⟨rfl, rfl⟩

theorem paid_marks (s : St) (gold : Int) : (s.paid gold).insurance = s.insurance ∧ (s.paid gold).newPresent = s.newPresent := by
  unfold St.paid
  split
  · exact ⟨rfl, rfl⟩
  · split <;> exact ⟨rfl, rfl⟩

/-! ## Claims one after another -/

namespace Welfare

/-- A claim, and the store it finds but for the marks. -/
structure Claim where
  found : St
  today : Date
  id : String

/-- The marks, and the claims that succeeded, the latest first. -/
structure History where
  insurance : String → List Int
  newPresent : Option String
  done : List (Date × String)

/-- The store with the marks of the history. -/
def History.within (h : History) (s : St) : St := { s with insurance := h.insurance, newPresent := h.newPresent }

section
variable (uid : String)

def Claim.run (c : Claim) (h : History) : Except Err Reply × St :=
  Prog.run (doWelfareById c.today.isoDate uid c.id) (h.within c.found)

def History.next (c : Claim) (h : History) : History where
  insurance := (c.run uid h).2.insurance
  newPresent := (c.run uid h).2.newPresent
  done := if succeeded (c.run uid h).1 then (c.today, c.id) :: h.done else h.done

/-! ## What is expected -/

/-- How many gifts for newcomers were given. -/
def History.gifts (h : History) : Nat := h.done.countP (·.2 = "1")

/-- The gift for newcomers is given once. -/
def Claim.Once (c : Claim) (h : History) : Prop := (h.next uid c).gifts ≤ 1

/-- An allowance is given where there is little gold, and two on a day at most. -/
structure Claim.Allowed (c : Claim) (h : History) : Prop where
  low : c.id = "2" → succeeded (c.run uid h).1 = true → ∃ n, (h.within c.found).goldOf uid = some n ∧ n < SIGN_LINE
  few : ∀ day, (h.next uid c).done.count (day, "2") ≤ SIGN_MAX

/-- Once the reward of the day was claimed after a purchase, it was given once on the day. -/
def Claim.Rewarded (c : Claim) (h : History) : Prop :=
  c.id = "0" → c.found.bought c.today.isoDate = true → (h.next uid c).done.count (c.today, "0") = 1

/-- What succeeds raises the gold. -/
def Claim.Raised (c : Claim) (h : History) : Prop :=
  succeeded (c.run uid h).1 = true →
    ∃ n m, (h.within c.found).goldOf uid = some n ∧ (c.run uid h).2.goldOf uid = some m ∧ n < m

structure Claim.Right (c : Claim) (h : History) : Prop where
  once : c.Once uid h
  allowed : c.Allowed uid h
  rewarded : c.Rewarded uid h
  raised : c.Raised uid h

/-! ## Where it holds -/

/-- The reward of the day is claimed after a purchase. -/
def Claim.Due (c : Claim) : Prop := c.id = "0" ∧ c.found.bought c.today.isoDate = true

/-- The claim succeeds and is not an allowance, or the account does not have the table of the user. -/
def Claim.Unpaid (c : Claim) (h : History) : Prop :=
  Takes (h.within c.found) c.today.isoDate uid c.id ∧ (c.id = "2" → c.found.userTable ≠ some (FORMAT_USER_TABLE uid))

/-! ## What a claim does -/

/-- Whether a claim succeeds, and the store and the history after it. -/
inductive Effect (c : Claim) (h : History) : Bool → St → History → Prop
  | allowance (hid : c.id = "2") (hallows : Allows (h.within c.found) c.today.isoDate uid) :
      Effect c h true (((h.within c.found).pushed c.today.isoDate).paid SIGN_COINNUM)
        ⟨((h.within c.found).pushed c.today.isoDate).insurance, h.newPresent, (c.today, "2") :: h.done⟩
  | newPresent (hid : c.id = "1") (hfree : h.newPresent ≠ some MESSION_STATUS_OVER) :
      Effect c h true { h.within c.found with newPresent := some MESSION_STATUS_OVER }
        ⟨h.insurance, some MESSION_STATUS_OVER, (c.today, "1") :: h.done⟩
  | nothing (hid : c.id ∉ ["0", "1", "2"]) : Effect c h true (h.within c.found) ⟨h.insurance, h.newPresent, (c.today, c.id) :: h.done⟩
  | refused (hnot : ¬Takes (h.within c.found) c.today.isoDate uid c.id) : Effect c h false (h.within c.found) h
  | raised (hnot : ¬Takes (h.within c.found) c.today.isoDate uid c.id) :
      Effect c h false (((h.within c.found).pushed c.today.isoDate).paid SIGN_COINNUM)
        ⟨((h.within c.found).pushed c.today.isoDate).insurance, h.newPresent, h.done⟩

end

theorem effect (uid : String) (c : Claim) (h : History) :
    Effect uid c h (succeeded (c.run uid h).1) (c.run uid h).2 (h.next uid c) := by
  have hmarks := paid_marks ((h.within c.found).pushed c.today.isoDate) SIGN_COINNUM
  have hpushed : ((h.within c.found).pushed c.today.isoDate).newPresent = h.newPresent := rfl
  unfold History.next Claim.run doWelfareById
  by_cases h2 : c.id = "2"
  · rw [if_pos h2]
    rcases allowance_cases (h.within c.found) c.today.isoDate uid with ⟨hallows, hrun⟩ | ⟨hnot, hfail, hsame⟩
    · rw [hrun]
      have hdone : succeeded (.ok taken) = true := rfl
      dsimp only
      rw [hmarks.1, hmarks.2, hpushed, hdone, if_pos rfl, h2]
      exact .allowance h2 hallows
    · have hnot : ¬Takes (h.within c.found) c.today.isoDate uid c.id := by
        rw [h2]
        unfold Takes
        simpa using hnot
      rw [hfail]
      rcases hsame with hsame | hsame
      · rw [hsame]
        exact .refused hnot
      · rw [hsame, hmarks.1, hmarks.2, hpushed]
        exact .raised hnot
  rw [if_neg h2]
  by_cases h1 : c.id = "1"
  · rw [if_pos h1, run_newPresent]
    by_cases hover : h.newPresent = some MESSION_STATUS_OVER
    · have hover' : (h.within c.found).newPresent = some MESSION_STATUS_OVER := hover
      rw [if_pos hover']
      refine .refused ?_
      rw [h1]
      unfold Takes
      simpa using hover'
    · have hover' : (h.within c.found).newPresent ≠ some MESSION_STATUS_OVER := hover
      rw [if_neg hover', h1]
      exact .newPresent h1 hover
  rw [if_neg h1]
  by_cases h0 : c.id = "0"
  · obtain ⟨hfail, hsame⟩ := dayReward_fails (h.within c.found) c.today.isoDate
    rw [if_pos h0, hfail, hsame]
    refine .refused ?_
    rw [h0]
    unfold Takes
    simp
  · rw [if_neg h0]
    exact .nothing (by simp [h0, h1, h2])

/-! ## The marks -/

/-- There is a mark for all that was given. -/
structure History.Kept (h : History) : Prop where
  recorded : ∀ day, h.done.count (day, "2") ≤ (h.insurance day.isoDate).length
  few : ∀ day, h.done.count (day, "2") ≤ SIGN_MAX
  once : h.gifts ≤ 1
  free : h.newPresent ≠ some MESSION_STATUS_OVER → h.gifts = 0
  unrewarded : ∀ day, h.done.count (day, "0") = 0

theorem kept_start (insurance : String → List Int) (newPresent : Option String) : History.Kept ⟨insurance, newPresent, []⟩ :=
  ⟨fun _ => Nat.zero_le _, fun _ => Nat.zero_le _, Nat.zero_le _, fun _ => rfl, fun _ => rfl⟩

section
variable {uid : String} {h : History}

theorem length_pushed (s : St) (today day : Date) :
    ((s.pushed today.isoDate).insurance day.isoDate).length = (s.insurance day.isoDate).length + if today = day then 1 else 0 := by
  unfold St.pushed
  by_cases hday : today = day
  · subst hday
    simp
  · have hne : day.isoDate ≠ today.isoDate := fun heq => hday (Date.isoDate_injective heq).symm
    simp [hne, hday]

theorem History.Kept.next (hk : h.Kept) (uid : String) (c : Claim) : (h.next uid c).Kept := by
  have he := effect uid c h
  generalize succeeded (c.run uid h).1 = done, (c.run uid h).2 = s, h.next uid c = h' at he
  have hpushed : ∀ day, h.done.count (day, "2") ≤ (((h.within c.found).pushed c.today.isoDate).insurance day.isoDate).length := by
    intro day
    rw [length_pushed]
    exact Nat.le_add_right_of_le (hk.recorded day)
  cases he with
  | allowance hid hallows =>
    have hcount : ∀ day, List.count (day, "2") ((c.today, "2") :: h.done) = h.done.count (day, "2") + if c.today = day then 1 else 0 := by
      intro day
      rw [List.count_cons]
      simp
    have hfew : (h.insurance c.today.isoDate).length < SIGN_MAX := hallows.few
    refine ⟨fun day => ?_, fun day => ?_, ?_, fun hfree => ?_, fun day => ?_⟩
    · rw [hcount]
      dsimp only
      rw [length_pushed]
      exact Nat.add_le_add_right (hk.recorded day) _
    · have hbefore := hk.recorded day
      rw [hcount]
      split
      · next hday =>
        subst hday
        omega
      · exact hk.few day
    · simpa [History.gifts] using hk.once
    · simpa [History.gifts] using hk.free hfree
    · simpa using hk.unrewarded day
  | newPresent hid hfree =>
    have hnone := hk.free hfree
    refine ⟨fun day => ?_, fun day => ?_, ?_, fun hfree => absurd rfl hfree, fun day => ?_⟩
    · simpa using hk.recorded day
    · simpa using hk.few day
    · unfold History.gifts at hnone ⊢
      rw [List.countP_cons, hnone]
      simp
    · simpa using hk.unrewarded day
  | nothing hid =>
    simp only [List.mem_cons, List.not_mem_nil, or_false, not_or] at hid
    obtain ⟨h0, h1, h2⟩ := hid
    refine ⟨fun day => ?_, fun day => ?_, ?_, fun hfree => ?_, fun day => ?_⟩
    · simpa [h2] using hk.recorded day
    · simpa [h2] using hk.few day
    · simpa [History.gifts, h1] using hk.once
    · simpa [History.gifts, h1] using hk.free hfree
    · simpa [h0] using hk.unrewarded day
  | refused hnot => exact hk
  | raised hnot =>
    -- the history is rewritten first, or the marks are evaluated
    constructor
    all_goals dsimp only [History.gifts]
    · exact hpushed
    · exact hk.few
    · exact hk.once
    · exact hk.free
    · exact hk.unrewarded

theorem succeeded_iff (uid : String) (c : Claim) (h : History) :
    succeeded (c.run uid h).1 = true ↔ Takes (h.within c.found) c.today.isoDate uid c.id := by
  have he := effect uid c h
  generalize succeeded (c.run uid h).1 = done, (c.run uid h).2 = s, h.next uid c = h' at he ⊢
  cases he with
  | allowance hid hallows => exact iff_of_true rfl (.inl ⟨hid, hallows⟩)
  | newPresent hid hfree => exact iff_of_true rfl (.inr (.inl ⟨hid, hfree⟩))
  | nothing hid => exact iff_of_true rfl (.inr (.inr hid))
  | refused hnot | raised hnot => exact iff_of_false Bool.false_ne_true hnot

theorem History.Kept.allowed (hk : h.Kept) (uid : String) (c : Claim) : c.Allowed uid h := by
  refine ⟨fun hid hdone => ?_, (hk.next uid c).few⟩
  rcases (succeeded_iff uid c h).1 hdone with ⟨-, hallows⟩ | ⟨hone, -⟩ | hother
  · exact hallows.low
  · exact absurd (hid.symm.trans hone) (by decide)
  · exact absurd (by simp [hid]) hother

theorem History.Kept.rewarded_iff (hk : h.Kept) (uid : String) (c : Claim) : c.Rewarded uid h ↔ ¬c.Due := by
  unfold Claim.Rewarded Claim.Due
  rw [(hk.next uid c).unrewarded]
  simp

/-! ## The gold -/

theorem numberOf_toString (n : Int) : numberOf (some (toString n)) = some n := by
  have hne : toString n ≠ "" := by
    intro hempty
    have hint := int_toString_int n
    have hnone : int "" = none := by decide
    rw [hempty, hnone] at hint
    cases hint
  unfold numberOf
  rw [Option.getD_some, if_neg hne]
  exact int_toString_int n

/-- What the handler reads, Redis counts as the same. -/
theorem counted_of_numberOf {s : St} {user_table : String} {k n : Int} (hk : numberOf (s.user user_table).gold = some k)
    (hn : s.counted user_table = some n) : k = n := by
  unfold St.counted at hn
  unfold numberOf at hk
  cases hgold : (s.user user_table).gold with
  | none =>
    rw [hgold] at hk hn
    exact Option.some.inj (hk.symm.trans hn)
  | some gold =>
    rw [hgold] at hk hn
    rw [Option.getD_some] at hk
    split at hk
    · rename_i hempty
      rw [hempty] at hn
      exact Option.some.inj (hk.symm.trans hn)
    · rcases redisInt_of_int (show int gold = some k from hk) with hr | hr
      · exact nomatch hr.symm.trans hn
      · exact Option.some.inj (hr.symm.trans hn)

/-- Where the gold is as it was, it is not raised. -/
theorem not_raised {s t : St} {uid : String} (h : t.goldOf uid = s.goldOf uid) :
    ¬∃ n m, s.goldOf uid = some n ∧ t.goldOf uid = some m ∧ n < m := by
  rintro ⟨n, m, hn, hm, hlt⟩
  rw [h, hn] at hm
  cases hm
  exact lt_irrefl _ hlt

/-- A payment that does not raise raises the gold of the user, where it can be read, if and only if the account has his
table. -/
theorem paid_iff {s : St} {gold : Int} (hgold : 0 < gold) (hpayment : ∃ r, s.payment = .ok r) {uid : String} {k : Int}
    (hread : s.goldOf uid = some k) :
    (∃ n m, s.goldOf uid = some n ∧ (s.paid gold).goldOf uid = some m ∧ n < m) ↔ s.userTable = some (FORMAT_USER_TABLE uid) := by
  obtain ⟨r, hr⟩ := hpayment
  have hne : FORMAT_USER_TABLE uid ≠ "" := by
    intro hempty
    have hlist := congrArg String.toList hempty
    rw [FORMAT_USER_TABLE, String.toList_append] at hlist
    exact absurd hlist (by simp)
  unfold St.payment at hr
  unfold St.paid
  by_cases htable : s.userTable.getD "" = ""
  · rw [if_pos htable]
    refine iff_of_false (not_raised rfl) fun hsome => ?_
    rw [hsome] at htable
    exact hne htable
  rw [if_neg htable] at hr ⊢
  cases hsome : s.userTable with
  | none =>
    rw [hsome] at htable
    exact absurd rfl htable
  | some user_table =>
  rw [hsome, fmt_some] at hr
  cases hcounted : s.counted user_table with
  | none =>
    rw [hcounted] at hr
    cases hr
  | some n =>
  rw [fmt_some, hcounted]
  dsimp only
  by_cases heq : user_table = FORMAT_USER_TABLE uid
  · subst heq
    obtain rfl := counted_of_numberOf hread hcounted
    refine iff_of_true ⟨k, k + gold, hread, ?_, by omega⟩ rfl
    unfold St.goldOf St.setGold
    dsimp only
    rw [Function.update_self]
    exact numberOf_toString _
  · have hsame : (s.setGold user_table (n + gold)).goldOf uid = s.goldOf uid := by
      unfold St.goldOf St.setGold
      dsimp only
      rw [Function.update_of_ne (Ne.symm heq)]
    exact iff_of_false (not_raised hsame) fun h => heq (Option.some.inj h)

theorem raised_iff (uid : String) (c : Claim) (h : History) : c.Raised uid h ↔ ¬c.Unpaid uid h := by
  unfold Claim.Raised Claim.Unpaid
  rw [← succeeded_iff]
  have he := effect uid c h
  generalize succeeded (c.run uid h).1 = done, (c.run uid h).2 = s, h.next uid c = h' at he ⊢
  cases he with
  | allowance hid hallows =>
    have hpositive : 0 < SIGN_COINNUM := by decide
    obtain ⟨k, hk, -⟩ := hallows.low
    have hpaid := @paid_iff ((h.within c.found).pushed c.today.isoDate) _ hpositive hallows.payment uid k hk
    refine (forall_prop_of_true rfl).trans (hpaid.trans ?_)
    have htable : ((h.within c.found).pushed c.today.isoDate).userTable = c.found.userTable := rfl
    rw [htable]
    simp [hid]
  | newPresent hid hfree => exact iff_of_false (fun hraised => not_raised rfl (hraised rfl)) (not_not_intro ⟨rfl, by simp [hid]⟩)
  | nothing hid => exact iff_of_false (fun hraised => not_raised rfl (hraised rfl)) (not_not_intro ⟨rfl, fun h2 => absurd (by simp [h2]) hid⟩)
  | refused hnot | raised hnot => exact iff_of_true (fun hdone => nomatch hdone) fun hunpaid => nomatch hunpaid.1

theorem History.Kept.right_iff (hk : h.Kept) (uid : String) (c : Claim) : c.Right uid h ↔ ¬c.Due ∧ ¬c.Unpaid uid h :=
  ⟨fun hright => ⟨(hk.rewarded_iff uid c).1 hright.rewarded, (raised_iff uid c h).1 hright.raised⟩, fun ⟨hdue, hunpaid⟩ =>
    ⟨(hk.next uid c).once, hk.allowed uid c, (hk.rewarded_iff uid c).2 hdue, (raised_iff uid c h).2 hunpaid⟩⟩

end

/-- Along any claims of a user, whatever the marks are at first. The gift is given once, and the allowance twice a day and for
little gold. All that is expected holds if and only if the reward of the day is not claimed after a purchase and nothing
succeeds unpaid. -/
theorem claims_right_iff (uid : String) (claims : List Claim) (insurance : String → List Int) (newPresent : Option String) :
    (All (History.next uid) (fun c h => c.Right uid h) claims ⟨insurance, newPresent, []⟩ ↔
      All (History.next uid) (fun c h => ¬c.Due ∧ ¬c.Unpaid uid h) claims ⟨insurance, newPresent, []⟩) ∧
    All (History.next uid) (fun c h => c.Once uid h) claims ⟨insurance, newPresent, []⟩ ∧
    All (History.next uid) (fun c h => c.Allowed uid h) claims ⟨insurance, newPresent, []⟩ ∧
    (All (History.next uid) (fun c h => c.Rewarded uid h) claims ⟨insurance, newPresent, []⟩ ↔
      All (History.next uid) (fun c _ => ¬c.Due) claims ⟨insurance, newPresent, []⟩) ∧
    (All (History.next uid) (fun c h => c.Raised uid h) claims ⟨insurance, newPresent, []⟩ ↔
      All (History.next uid) (fun c h => ¬c.Unpaid uid h) claims ⟨insurance, newPresent, []⟩) := by
  have hstart := kept_start insurance newPresent
  refine ⟨?_, ?_, ?_, ?_, ?_⟩
  · exact all_iff (I := History.Kept) (fun c h hk => hk.right_iff uid c) (fun c h _ hk => hk.next uid c) hstart
  · exact all_of_keeps (I := History.Kept) (fun c h hk => hk.next uid c) (fun c h hk => (hk.next uid c).once) hstart
  · exact all_of_keeps (I := History.Kept) (fun c h hk => hk.next uid c) (fun c h hk => hk.allowed uid c) hstart
  · exact all_iff (I := History.Kept) (fun c h hk => hk.rewarded_iff uid c) (fun c h _ hk => hk.next uid c) hstart
  · exact all_iff (I := History.Kept) (fun c h _ => raised_iff uid c h) (fun c h _ hk => hk.next uid c) hstart

/-- A user who bought gold on every day. -/
def buyer : St where
  userTable := some "users:7"
  user _ := ⟨some "guild", some "100"⟩
  card _ := none
  patch _ := ∅
  sign _ := false
  insurance _ := []
  newPresent := none
  dayBuy _ := none
  bought _ := true
  prredis := true

def nothingGiven : History := ⟨fun _ => [], none, []⟩

/-- He is not given the reward of the day, and the gift for newcomers leaves him his hundred. -/
theorem welfare_not_right :
    ¬All (History.next "7") (fun c h => c.Right "7" h) [⟨buyer, ⟨2017, 4, by decide⟩, "0"⟩] nothingGiven ∧
    ¬All (History.next "7") (fun c h => c.Right "7" h) [⟨buyer, ⟨2017, 4, by decide⟩, "1"⟩] nothingGiven := by
  refine ⟨fun h => ?_, fun h => ?_⟩
  · exact absurd (h.1.rewarded rfl rfl) (by decide +kernel)
  · obtain ⟨n, m, hn, hm, hlt⟩ := h.1.raised (by decide +kernel)
    have hsame : (nothingGiven.within buyer).goldOf "7" =
        ((Claim.mk buyer ⟨2017, 4, by decide⟩ "1").run "7" nothingGiven).2.goldOf "7" := by decide +kernel
    rw [hn, hm] at hsame
    cases hsame
    exact lt_irrefl _ hlt

end Welfare

end FishWeb.Gold
