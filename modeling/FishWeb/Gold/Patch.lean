import FishWeb.Gold.Model
import FishWeb.Lib.Runs
/-!
# Days that are signed in afterwards

What the requests of a user have signed in is kept beside the store. A request is accepted
or changes nothing (`patch_cases`). It takes no card; it writes a set that the page reads
from October on only, and under the same text of the date only; and it is refused when
there are more than five in the set of its month, which is one for all years. Each part of
what is expected holds in a run under a condition of its own (`patches_right_iff`).
-/
open Python Prog Calendar Runs

namespace FishWeb.Gold

open Function (update)

/-! ## What a request comes to -/

/-- The cards of the user in his guild, where they can be read. -/
def St.roomcard (s : St) : Option Int :=
  match s.userInfo with
  | .ok (some user_info) => user_info.user.parentAg.bind fun agentid => numberOf (s.card (agentid, user_info.uid))
  | _ => none

theorem run_guildCards (s : St) : (∃ n, s.roomcard = some n ∧ run guildCards s = (.ok n, s)) ∨
    s.roomcard = none ∧ ∃ e, run guildCards s = (.error e, s) := by
  unfold St.roomcard guildCards
  cases hinfo : s.userInfo with
  | error e => exact .inr ⟨rfl, e, run_bind_error (by rw [run_get_user_info, hinfo])⟩
  | ok user_info =>
  rw [run_bind_ok (by rw [run_get_user_info, hinfo])]
  cases user_info with
  | none => exact .inr ⟨rfl, .KeyError, rfl⟩
  | some user_info =>
  rw [orRaise_some, ret_bind]
  dsimp only
  cases user_info.user.parentAg with
  | none => exact .inr ⟨rfl, .KeyError, rfl⟩
  | some agentid =>
    show (∃ n, numberOf (s.card (agentid, user_info.uid)) = some n ∧ run (intOr0 (s.card (agentid, user_info.uid))) s = _) ∨
      numberOf (s.card (agentid, user_info.uid)) = none ∧ ∃ e, run (intOr0 (s.card (agentid, user_info.uid))) s = _
    rw [run_intOr0]
    cases numberOf (s.card (agentid, user_info.uid)) with
    | none => exact .inr ⟨rfl, .ValueError, rfl⟩
    | some n => exact .inl ⟨n, rfl, rfl⟩

/-- The request for the day `d` is accepted. -/
structure Accepts (s : St) (date : String) (d : Date) : Prop where
  day : strptime date = some d
  cards : ∃ n, s.roomcard = some n ∧ PATCH_SIGN_FEE ≤ n
  fresh : date ∉ s.patch (monthKey d)
  room : (s.patch (monthKey d)).scard ≤ PATCH_SIGN_MAX

theorem Accepts.day_eq {s : St} {date : String} {d e : Date} (hd : Accepts s date d) (he : Accepts s date e) : e = d :=
  Option.some.inj (he.day.symm.trans hd.day)

/-- The store after a request for the day `d` was accepted. -/
def St.patched (s : St) (date : String) (d : Date) : St := { s with patch := SetTable.add s.patch (monthKey d) date }

theorem patch_cases (s : St) (date : String) :
    (∃ d, Accepts s date d ∧ run (doPatchSign date) s = (.ok Gold.patched, s.patched date d)) ∨
    (∀ d, ¬Accepts s date d) ∧ succeeded (run (doPatchSign date) s).1 = false ∧ (run (doPatchSign date) s).2 = s := by
  unfold doPatchSign
  rcases run_guildCards s with ⟨n, hn, hrun⟩ | ⟨hnone, e, hrun⟩
  · rw [run_bind_ok hrun]
    by_cases hfee : n < PATCH_SIGN_FEE
    · rw [if_pos hfee]
      refine .inr ⟨fun d h => ?_, rfl, rfl⟩
      obtain ⟨m, hm, hle⟩ := h.cards
      rw [hn] at hm
      cases hm
      omega
    rw [if_neg hfee]
    cases hdate : strptime date with
    | none => exact .inr ⟨fun d h => (nomatch hdate.symm.trans h.day), rfl, rfl⟩
    | some d =>
    have honly : ∀ {e}, Accepts s date e → e = d := fun h => Option.some.inj (h.day.symm.trans hdate)
    have htail : run (do
        let month := monthKey (← orRaise .ValueError (some d))
        if ← call (.sismemberPatch month date) then return ⟨1, "已补签过"⟩
        let times ← call (.scardPatch month)
        if times ≠ 0 ∧ times > PATCH_SIGN_MAX then return ⟨1, "当月补签已达上限"⟩
        call (.saddPatch month date)
        return Gold.patched : Handler Reply) s =
        if date ∈ s.patch (monthKey d) then (.ok ⟨1, "已补签过"⟩, s)
        else if (s.patch (monthKey d)).scard > PATCH_SIGN_MAX then (.ok ⟨1, "当月补签已达上限"⟩, s)
        else (.ok Gold.patched, s.patched date d) := by
      show run (if decide (date ∈ s.patch (monthKey d)) then _ else _ : Handler Reply) s = _
      by_cases hmem : date ∈ s.patch (monthKey d)
      · rw [if_pos hmem, decide_eq_true hmem]
        rfl
      rw [if_neg hmem, decide_eq_false hmem]
      show run (if (s.patch (monthKey d)).scard ≠ 0 ∧ (s.patch (monthKey d)).scard > PATCH_SIGN_MAX then _ else _ : Handler Reply) s = _
      by_cases hmany : (s.patch (monthKey d)).scard > PATCH_SIGN_MAX
      · rw [if_pos hmany, if_pos ⟨Nat.ne_of_gt (Nat.lt_of_le_of_lt (Nat.zero_le _) hmany), hmany⟩]
        rfl
      · rw [if_neg hmany, if_neg fun h => hmany h.2]
        rfl
    rw [htail]
    by_cases hmem : date ∈ s.patch (monthKey d)
    · rw [if_pos hmem]
      exact .inr ⟨fun e h => h.fresh (honly h ▸ hmem), rfl, rfl⟩
    rw [if_neg hmem]
    by_cases hmany : (s.patch (monthKey d)).scard > PATCH_SIGN_MAX
    · rw [if_pos hmany]
      exact .inr ⟨fun e h => absurd h.room (honly h ▸ Nat.not_le.2 hmany), rfl, rfl⟩
    · rw [if_neg hmany]
      exact .inl ⟨d, ⟨hdate, ⟨n, hn, not_lt.1 hfee⟩, hmem, Nat.not_lt.1 hmany⟩, rfl⟩
  · rw [run_bind_error hrun]
    refine .inr ⟨fun d h => ?_, rfl, rfl⟩
    obtain ⟨n, hn, -⟩ := h.cards
    rw [hnone] at hn
    cases hn

/-! ## Requests one after another -/

/-- A request, and the store it finds but for the sets of the months. -/
structure Request where
  found : St
  date : String

/-- The sets of the months, and the dates of the requests that succeeded, the latest first. -/
structure History where
  patch : String → MemberSet String
  done : List String

def History.none : History := ⟨fun _ => ∅, []⟩

/-- The store with the sets of the history. -/
def History.within (h : History) (s : St) : St := { s with patch := h.patch }

def Request.run (r : Request) (h : History) : Except Err Reply × St := Prog.run (doPatchSign r.date) (h.within r.found)

def History.next (r : Request) (h : History) : History where
  patch := (r.run h).2.patch
  done := if succeeded (r.run h).1 then r.date :: h.done else h.done

/-- How many requests for days of a month of a year succeeded. -/
def History.patches (h : History) (month : Nat × Nat) : Nat := h.done.countP fun date => (strptime date).map Date.month = some month

/-! ## What is expected -/

/-- A request that succeeds takes two cards. -/
def Request.Charged (r : Request) (h : History) : Prop :=
  succeeded (r.run h).1 = true →
    ∃ n, (h.within r.found).roomcard = some n ∧ (r.run h).2.roomcard = some (n - PATCH_SIGN_FEE)

/-- After a request that succeeds, and whatever follows, the page lists the day among those of its month that are over. -/
def Request.Listed (r : Request) (h : History) : Prop :=
  succeeded (r.run h).1 = true → ∀ d, strptime r.date = some d → ∀ (more : List Request) (s : St) (today : Date),
    (∀ k, r.found.sign k = true → s.sign k = true) → d < today → d.month = today.month →
      dayText d ∈ (get_welfare_info today ((after History.next more (h.next r)).within s)).signed

/-- No more than five succeed for a month of a year. -/
def Request.Limited (r : Request) (h : History) : Prop := ∀ month, (h.next r).patches month ≤ PATCH_SIGN_MAX

/-- A request that does not succeed changes nothing. -/
def Request.Idle (r : Request) (h : History) : Prop := succeeded (r.run h).1 = false → (r.run h).2 = h.within r.found

structure Request.Right (r : Request) (h : History) : Prop where
  charged : r.Charged h
  listed : r.Listed h
  limited : r.Limited h
  idle : r.Idle h

/-! ## Where it holds -/

def Request.Accepted (r : Request) (h : History) : Prop := ∃ d, Accepts (h.within r.found) r.date d

/-- An accepted day is the last of its month, or is signed in, or has a month of two digits and is in its set as the page
looks for it. -/
def Request.Shown (r : Request) (h : History) : Prop :=
  ∀ d, Accepts (h.within r.found) r.date d → d.next.month ≠ d.month ∨ r.found.sign d.isoDate = true ∨
    10 ≤ d.month.2 ∧ (r.date = d.isoDate ∨ d.isoDate ∈ h.patch (monthKey d))

/-- A day is accepted after five others of the same month and year. -/
def Request.Sixth (r : Request) (h : History) : Prop :=
  ∃ d, Accepts (h.within r.found) r.date d ∧ (h.patch (monthKey d)).scard = PATCH_SIGN_MAX ∧
    ∀ other ∈ h.patch (monthKey d), (strptime other).map Date.year = some d.year

/-! ## The sets of the months -/

/-- The set of a month has the dates of all its years, and no other set has any. -/
structure History.Kept (h : History) : Prop where
  months : ∀ m : Nat, (h.patch (toString m)).members = h.done.filter fun date => (strptime date).map (·.month.2) = some m
  others : ∀ k, (∀ m : Nat, k ≠ toString m) → h.patch k = ∅

section
variable {r : Request} {h : History}

theorem request_cases (r : Request) (h : History) :
    (∃ d, Accepts (h.within r.found) r.date d ∧ succeeded (r.run h).1 = true ∧ (r.run h).2 = (h.within r.found).patched r.date d ∧
      h.next r = ⟨SetTable.add h.patch (monthKey d) r.date, r.date :: h.done⟩) ∨
    ¬r.Accepted h ∧ succeeded (r.run h).1 = false ∧ (r.run h).2 = h.within r.found ∧ h.next r = h := by
  unfold History.next Request.run
  rcases patch_cases (h.within r.found) r.date with ⟨d, hd, hrun⟩ | ⟨hnot, hfail, hsame⟩
  · rw [hrun]
    exact .inl ⟨d, hd, rfl, rfl, rfl⟩
  · rw [hfail, hsame]
    exact .inr ⟨fun ⟨d, hd⟩ => hnot d hd, rfl, rfl, rfl⟩

theorem History.Kept.next (hk : h.Kept) (r : Request) : (h.next r).Kept := by
  rcases request_cases r h with ⟨d, hd, -, -, hnext⟩ | ⟨-, -, -, hnext⟩
  · rw [hnext]
    refine ⟨fun m => ?_, fun k hother => ?_⟩
    · dsimp only
      by_cases hm : d.month.2 = m
      · subst hm
        have hfresh : r.date ∉ (h.patch (monthKey d)).members := hd.fresh
        rw [List.filter_cons_of_pos (by simp [hd.day]), ← hk.months]
        show (Function.update h.patch (monthKey d) _ (monthKey d)).members = _
        rw [Function.update_self]
        exact List.insert_of_not_mem hfresh
      · have hne : toString m ≠ monthKey d := fun heq => hm (toString_injective heq).symm
        rw [SetTable.add_other _ _ _ _ hne, List.filter_cons_of_neg (by simp [hd.day, hm])]
        exact hk.months m
    · have hne : k ≠ monthKey d := hother d.month.2
      exact (SetTable.add_other _ _ _ _ hne).trans (hk.others k hother)
  · rwa [hnext]

theorem History.kept_none : History.none.Kept := ⟨fun _ => rfl, fun _ _ => rfl⟩

/-! ## The fee -/

theorem charged_iff (r : Request) (h : History) : r.Charged h ↔ ¬r.Accepted h := by
  unfold Request.Charged
  rcases request_cases r h with ⟨d, hd, hdone, hst, -⟩ | ⟨hnot, hfail, -, -⟩
  · rw [hdone, hst]
    refine iff_of_false (fun hcharged => ?_) (not_not_intro ⟨d, hd⟩)
    obtain ⟨n, hbefore, hafter⟩ := hcharged rfl
    have hsame : ((h.within r.found).patched r.date d).roomcard = (h.within r.found).roomcard := rfl
    rw [hsame, hbefore, PATCH_SIGN_FEE] at hafter
    have := Option.some.inj hafter
    omega
  · rw [hfail]
    exact iff_of_true (fun hdone => nomatch hdone) hnot

/-! ## The page -/

/-- A day that the sets have stays in them. -/
theorem mem_patch_after {k date : String} (more : List Request) (hmem : date ∈ h.patch k) :
    date ∈ (after History.next more h).patch k := by
  refine after_keeps (I := fun h : History => date ∈ h.patch k) (fun r h hmem => ?_) more hmem
  rcases request_cases r h with ⟨d, -, -, -, hnext⟩ | ⟨-, -, -, hnext⟩
  · rw [hnext]
    exact (SetTable.mem_add ..).2 (.inr hmem)
  · rwa [hnext]

/-- A day that has a later one in its month is before its month's last day. -/
theorem next_month_eq {d today : Date} (hlt : d < today) (hmonth : d.month = today.month) : d.next.month = d.month := by
  have hd : d.dayNumber < today.dayNumber := hlt
  have hnext := d.dayNumber_next
  by_cases heq : d.next = today
  · rw [heq, hmonth]
  · have hbefore : d.next < today := by
      have hne : d.next.dayNumber ≠ today.dayNumber := fun h => heq (Date.dayNumber_injective h)
      show d.next.dayNumber < today.dayNumber
      omega
    have hfirst := (Date.month_iff hlt).1 hmonth
    rw [(Date.month_iff hbefore).2 (by omega), hmonth]

theorem History.Kept.listed_iff (hk : h.Kept) (r : Request) : r.Listed h ↔ r.Shown h := by
  unfold Request.Listed Request.Shown
  rcases request_cases r h with ⟨d, hd, hdone, -, hnext⟩ | ⟨hnot, hfail, -, -⟩
  · rw [hdone, hnext]
    constructor
    · intro hlisted e he
      obtain rfl := hd.day_eq he
      by_cases hlast : e.next.month = e.month
      swap
      · exact .inl hlast
      -- the page of the next day
      have hlt : e < e.next := by
        show e.dayNumber < e.next.dayNumber
        rw [Date.dayNumber_next]
        omega
      have hpage := (mem_signed_iff hlt hlast.symm).1 (hlisted rfl e hd.day [] r.found e.next (fun _ hk => hk) hlt hlast.symm)
      rcases Bool.or_eq_true_iff.1 hpage with hsign | hpatch
      · exact .inr (.inl hsign)
      · refine .inr (.inr ?_)
        have hmem : e.isoDate ∈ SetTable.add h.patch (monthKey e) r.date (monthText e) := of_decide_eq_true hpatch
        by_cases hten : 10 ≤ e.month.2
        · refine ⟨hten, ?_⟩
          rw [show monthText e = monthKey e from monthText_eq_iff.2 ⟨rfl, hten⟩, SetTable.mem_add] at hmem
          exact hmem.imp (fun hdate => hdate.2.symm) id
        · -- no set is written under the text that the page reads
          have hother : ∀ m : Nat, monthText e ≠ toString m := fun m heq => hten (monthText_eq_iff.1 heq).2
          have hne : monthText e ≠ monthKey e := hother _
          rw [SetTable.add_other _ _ _ _ hne, hk.others _ hother] at hmem
          exact absurd hmem (MemberSet.not_mem_empty _)
    · intro hshown _ e he more s today hsigns hlt hmonth
      obtain rfl : e = d := Option.some.inj (he.symm.trans hd.day)
      rw [mem_signed_iff hlt hmonth]
      refine Bool.or_eq_true_iff.2 ?_
      rcases hshown e hd with hlast | hsign | ⟨hten, hmem⟩
      · exact absurd (next_month_eq hlt hmonth) hlast
      · exact .inl (hsigns _ hsign)
      · refine .inr (decide_eq_true (mem_patch_after more ?_))
        rw [show monthText e = monthKey e from monthText_eq_iff.2 ⟨rfl, hten⟩, SetTable.mem_add]
        exact hmem.imp (fun hdate => ⟨rfl, hdate.symm⟩) id
  · rw [hfail]
    exact iff_of_true (fun hdone => nomatch hdone) fun d hd => absurd ⟨d, hd⟩ hnot

/-! ## The limit -/

/-- The requests for a month of a year are those of its set that have the year. -/
theorem History.Kept.patches_eq (hk : h.Kept) (month : Nat × Nat) :
    h.patches month = (h.patch (toString month.2)).members.countP fun date => (strptime date).map Date.year = some month.1 := by
  rw [hk.months, List.countP_filter]
  refine List.countP_congr fun date _ => ?_
  cases strptime date with
  | none => simp
  | some d =>
    have hyear : d.month.1 = d.year := rfl
    simp [Prod.ext_iff, hyear]

def History.Few (h : History) : Prop := ∀ month, h.patches month ≤ PATCH_SIGN_MAX

theorem History.Kept.limited_iff (hk : h.Kept) (hfew : h.Few) (r : Request) : r.Limited h ↔ ¬r.Sixth h := by
  unfold Request.Limited Request.Sixth
  rcases request_cases r h with ⟨d, hd, -, -, hnext⟩ | ⟨hnot, -, -, hnext⟩
  · rw [hnext]
    have hcount : ∀ month, History.patches ⟨SetTable.add h.patch (monthKey d) r.date, r.date :: h.done⟩ month =
        h.patches month + if d.month = month then 1 else 0 := by
      intro month
      show List.countP _ (r.date :: h.done) = _
      rw [List.countP_cons, hd.day]
      simp [History.patches]
    have hscard : (h.patch (monthKey d)).members.length ≤ PATCH_SIGN_MAX := hd.room
    have hsixth : h.patches d.month = PATCH_SIGN_MAX ↔ (h.patch (monthKey d)).scard = PATCH_SIGN_MAX ∧
        ∀ other ∈ h.patch (monthKey d), (strptime other).map Date.year = some d.year := by
      rw [hk.patches_eq]
      show List.countP (fun date => decide ((strptime date).map Date.year = some d.year)) (h.patch (monthKey d)).members = _ ↔ _
      have hle := List.countP_le_length (p := fun date => decide ((strptime date).map Date.year = some d.year))
        (l := (h.patch (monthKey d)).members)
      have hall := List.countP_eq_length (p := fun date => decide ((strptime date).map Date.year = some d.year))
        (l := (h.patch (monthKey d)).members)
      simp only [decide_eq_true_eq] at hall
      constructor
      · intro hfive
        have hlength : (h.patch (monthKey d)).members.length = PATCH_SIGN_MAX := by omega
        exact ⟨hlength, hall.1 (by omega)⟩
      · rintro ⟨hlength, hyears⟩
        exact (hall.2 hyears).trans hlength
    constructor
    · rintro hlimited ⟨e, he, hfull⟩
      obtain rfl := hd.day_eq he
      have hmore := hlimited e.month
      rw [hcount, if_pos rfl, hsixth.2 hfull] at hmore
      omega
    · intro hnot month
      have hbefore := hfew month
      rw [hcount]
      split
      · next hmonth =>
        have hne : h.patches month ≠ PATCH_SIGN_MAX := fun hfull => hnot ⟨d, hd, hsixth.1 (hmonth ▸ hfull)⟩
        omega
      · exact hbefore
  · rw [hnext]
    exact iff_of_true hfew fun ⟨d, hd, _⟩ => hnot ⟨d, hd⟩

theorem idle (r : Request) (h : History) : r.Idle h := by
  rcases request_cases r h with ⟨d, -, hdone, -, -⟩ | ⟨-, -, hsame, -⟩
  · exact fun hfail => absurd (hdone.symm.trans hfail) (by decide)
  · exact fun _ => hsame

theorem right_iff (hk : h.Kept) (hfew : h.Few) (r : Request) : r.Right h ↔ ¬r.Accepted h := by
  refine ⟨fun hright => (charged_iff r h).1 hright.charged, fun hnot => ⟨(charged_iff r h).2 hnot, ?_, ?_, idle r h⟩⟩
  · exact (hk.listed_iff r).2 fun d hd => absurd ⟨d, hd⟩ hnot
  · exact (hk.limited_iff hfew r).2 fun ⟨d, hd, _⟩ => hnot ⟨d, hd⟩

end

/-- Along any requests, from no patches. All that is expected holds if and only if no request is accepted, since none takes
cards. What is accepted is shown, is not too much and is all that changes, each under its own condition. -/
theorem patches_right_iff (requests : List Request) :
    (All History.next (fun r h => r.Right h) requests History.none ↔
      All History.next (fun r h => ¬r.Accepted h) requests History.none) ∧
    (All History.next (fun r h => r.Listed h) requests History.none ↔
      All History.next (fun r h => r.Shown h) requests History.none) ∧
    (All History.next (fun r h => r.Limited h) requests History.none ↔
      All History.next (fun r h => ¬r.Sixth h) requests History.none) ∧
    All History.next (fun r h => r.Idle h) requests History.none := by
  have hstart : History.none.Kept ∧ History.none.Few := ⟨History.kept_none, fun _ => Nat.zero_le _⟩
  refine ⟨?_, ?_, ?_, ?_⟩
  · refine all_iff (I := fun h => h.Kept ∧ h.Few) (fun r h hi => right_iff hi.1 hi.2 r) (fun r h hnot hi => ⟨hi.1.next r, ?_⟩) hstart
    exact (hi.1.limited_iff hi.2 r).2 fun ⟨d, hd, _⟩ => hnot ⟨d, hd⟩
  · exact all_iff (I := History.Kept) (fun r h hk => hk.listed_iff r) (fun r h _ hk => hk.next r) hstart.1
  · exact all_iff (I := fun h => h.Kept ∧ h.Few) (fun r h hi => hi.1.limited_iff hi.2 r)
      (fun r h hnot hi => ⟨hi.1.next r, (hi.1.limited_iff hi.2 r).2 hnot⟩) hstart
  · exact all_of_keeps (I := History.Kept) (fun r h hk => hk.next r) (fun r h _ => idle r h) hstart.1

/-- A user of the guild `guild` with six cards. -/
def rich : St where
  userTable := some "users:7"
  user _ := ⟨some "guild", none⟩
  card _ := some "6"
  patch _ := ∅
  sign _ := false
  insurance _ := []
  newPresent := none
  dayBuy _ := none
  bought _ := false
  prredis := true

/-- The six cards are there after the patch, the page of the tenth does not show the fifth, and a sixth day is accepted. -/
theorem patch_not_right :
    ¬All History.next (fun r h => r.Right h) [⟨rich, "2017-01-05"⟩] History.none ∧
    ¬(Request.mk rich "2017-01-05").Listed History.none ∧
    ¬(Request.mk rich "2017-01-09").Limited
      (after History.next (["2017-01-04", "2017-01-05", "2017-01-06", "2017-01-07", "2017-01-08"].map (Request.mk rich)) History.none) := by
  refine ⟨fun h => ?_, fun h => ?_, fun h => ?_⟩
  · obtain ⟨n, hbefore, hafter⟩ := h.1.charged (by decide +kernel)
    have hsix : ((Request.mk rich "2017-01-05").run History.none).2.roomcard = (History.none.within rich).roomcard := by decide +kernel
    rw [hafter, hbefore, PATCH_SIGN_FEE] at hsix
    have := Option.some.inj hsix
    omega
  · have hpage := h (by decide +kernel) ⟨2017, 4, by decide⟩ (by decide +kernel) [] rich ⟨2017, 9, by decide⟩ (fun _ h => h)
      (by decide +kernel) (by decide +kernel)
    exact absurd hpage (by decide +kernel)
  · exact absurd (h (2017, 1)) (by decide +kernel)

end FishWeb.Gold
