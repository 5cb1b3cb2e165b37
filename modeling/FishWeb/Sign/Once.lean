import FishWeb.Sign.Model
import FishWeb.Lib.Runs
/-!
# One reward for each date

Requests one after another, with the rewards of a run kept beside the state.
`curKey` finds the date of a day of the current week whichever year it lies in, but
takes the week number from today: a week with a first of January inside has two
numbers, and a date of it two lists. A user who is on the list of one of them is
not on the other.
-/
open Python Prog Counters Calendar Runs FishWeb.Common

namespace FishWeb.Sign

open Function (update)

/-! ## What a request does -/

/-- The table that requests sign in to. -/
def St.signId (s : St) : String := Sign.signId s.setup.nowRun

/-- What `/doSign` finds out on its way to the list. -/
structure Pass where
  user_table : String
  account : String
  uid : String
  day : Fin 7
  info : DayInfo
  key : WeekKey

/-- The request puts the user on the list of the day. -/
structure Passes (now : Date) (sid signDay : String) (s : St) (p : Pass) : Prop where
  verfiy : s.setup.shared.verfiy sid = .ok p.user_table
  session : s.setup.shared.session sid = some (p.account, p.uid)
  day : dayOf signDay = some p.day
  info : (s.table s.signId).bind (· p.day) = some p.info
  key : curKey s.signId now p.day = some p.key
  due : p.day.val ≤ now.weekday
  fresh : p.uid ∉ s.users p.key p.day

/-- The day gives coins, and the level of the user is a number: the reward that follows does not fail. -/
structure Rewardable (s : St) (p : Pass) : Prop where
  coin : (int p.info.give_type).getD 0 = GIVE_COIN
  level : (s.setup.vip_level p.uid).getD "" = "" ∨ ∃ n, int ((s.setup.vip_level p.uid).getD "") = some n

/-- The lists with the user on those of the day: under its date, and under today. -/
def listed (s : St) (now : Date) (p : Pass) : WeekKey → Fin 7 → List String :=
  let marked := setUsers s.users p.key p.day (s.users p.key p.day ++ [p.uid])
  let weekTime : WeekKey := ⟨s.signId, now, now.week⟩
  setUsers marked weekTime p.day (marked weekTime p.day ++ [p.uid])

section Effect
variable {now : Date} {sid signDay : String} {s : St}

theorem run_checkSignValid {p : Pass} (h : Passes now sid signDay s p) :
    run (checkSignValid now p.uid signDay s.signId) s =
      (.ok (.ok (p.day, p.info)), { s with users := setUsers s.users p.key p.day (s.users p.key p.day ++ [p.uid]) }) := by
  have htable : (s.table s.signId).isSome = true := by
    cases ht : s.table s.signId with
    | none => have := h.info; simp [ht] at this
    | some t => rfl
  simp [checkSignValid, send, Exec.exec, htable, h.day, h.info, h.key, Nat.not_lt.2 h.due, h.fresh]

/-- Otherwise nothing is written. -/
theorem run_checkSignValid_not (now : Date) (uid signDay : String) (s : St)
    (h : ∀ day info key, dayOf signDay = some day → (s.table s.signId).bind (· day) = some info →
      curKey s.signId now day = some key → day.val ≤ now.weekday → uid ∈ s.users key day) :
    (∃ e, run (checkSignValid now uid signDay s.signId) s = (.error e, s)) ∨
      ∃ e, e.1 < 0 ∧ run (checkSignValid now uid signDay s.signId) s = (.ok (.error e), s) := by
  cases htable : (s.table s.signId).isSome with
  | false => exact .inr ⟨(-10001, "签到表已失效"), by decide, by simp [checkSignValid, send, Exec.exec, htable]⟩
  | true =>
  cases hday : dayOf signDay with
  | none => exact .inl ⟨.TypeError, by simp [checkSignValid, send, Exec.exec, htable, hday]⟩
  | some day =>
  cases hinfo : (s.table s.signId).bind (· day) with
  | none => exact .inl ⟨.TypeError, by simp [checkSignValid, send, Exec.exec, htable, hday, hinfo]⟩
  | some info =>
  cases hkey : curKey s.signId now day with
  | none => exact .inl ⟨.ValueError, by simp [checkSignValid, send, Exec.exec, htable, hday, hinfo, hkey]⟩
  | some key =>
  by_cases hdue : now.weekday < day.val
  · exact .inr ⟨(-1003, "还没到该日签到日期"), by decide,
      by simp [checkSignValid, send, Exec.exec, htable, hday, hinfo, hkey, hdue]⟩
  · have hin := h day info key hday hinfo hkey (Nat.not_lt.1 hdue)
    exact .inr ⟨(-10002, "你今天已经签到过."), by decide,
      by simp [checkSignValid, send, Exec.exec, htable, hday, hinfo, hkey, hdue, hin]⟩

/-- The command rewards nobody. -/
def Unrewarding ⦃β : Type⦄ (c : Cmd β) : Prop := ∀ b, (Note.note c b : List Ev) = []

theorem only_session (sid : String) : Only Unrewarding (getInfoBySid sid : Handler Info) :=
  only_getInfoBySid (fun _ _ _ => rfl) sid

theorem only_verfiy (sid : String) (info : Info) : Only Unrewarding (checkSessionVerfiy sid info : Handler _) :=
  only_checkSessionVerfiy (fun _ _ _ => rfl) sid info

theorem only_checkSignValid (uid sign_id : String) : Only Unrewarding (checkSignValid now uid signDay sign_id) := by
  refine ⟨fun _ => rfl, fun live => ?_⟩
  cases live with
  | false => trivial
  | true =>
  apply (only_orRaise_bind Unrewarding _ _ _).2
  rintro day -
  refine ⟨fun _ => rfl, fun info => (only_orRaise_bind Unrewarding _ _ _).2 fun info _ => ?_⟩
  apply (only_orRaise_bind Unrewarding _ _ _).2
  rintro key -
  apply (only_ite Unrewarding _ _ _).2
  refine ⟨fun _ => trivial, fun _ => ⟨fun _ => rfl, fun users => ?_⟩⟩
  apply (only_ite Unrewarding _ _ _).2
  exact ⟨fun _ => trivial, fun _ => ⟨fun _ => rfl, fun _ => trivial⟩⟩

/-- The reward of a user, if his level is a number. -/
def warheads (s : St) (uid : String) : Option Int :=
  (if (s.setup.vip_level uid).getD "" = "" then some 0 else int ((s.setup.vip_level uid).getD "")).map
    fun vip_level => 1000000 * (vip_level + 1)

theorem warheads_of_level {uid : String}
    (h : (s.setup.vip_level uid).getD "" = "" ∨ ∃ n, int ((s.setup.vip_level uid).getD "") = some n) :
    ∃ n, warheads s uid = some n := by
  unfold warheads
  by_cases hempty : (s.setup.vip_level uid).getD "" = ""
  · exact ⟨_, by rw [if_pos hempty]; rfl⟩
  · obtain ⟨n, hn⟩ := h.resolve_left hempty
    exact ⟨_, by rw [if_neg hempty, hn]; rfl⟩

theorem run_getShouldSignWarheads {uid : String} {n : Int} (h : warheads s uid = some n) :
    run (getShouldSignWarheads uid) s = (.ok n, s) ∧ trace Ev (getShouldSignWarheads uid) s = [] := by
  obtain ⟨level, hlevel, rfl⟩ := Option.map_eq_some_iff.1 h
  by_cases hempty : (s.setup.vip_level uid).getD "" = ""
  · rw [if_pos hempty] at hlevel
    cases hlevel
    simp [getShouldSignWarheads, send, Exec.exec, Note.note, hempty]
  · rw [if_neg hempty] at hlevel
    simp [getShouldSignWarheads, send, Exec.exec, Note.note, hempty, hlevel]

/-- A day whose record is written again is as it was. -/
theorem table_rewrite {sign_id : String} {day : Fin 7} {info : DayInfo} (h : (s.table sign_id).bind (· day) = some info) :
    update s.table sign_id (some (update ((s.table sign_id).getD fun _ => none) day (some info))) = s.table := by
  cases ht : s.table sign_id with
  | none => simp [ht] at h
  | some t =>
    rw [ht, Option.bind_some] at h
    rw [Option.getD_some, ← h, Function.update_eq_self, ← ht, Function.update_eq_self]

/-- The state that a reward of `n` warheads leaves of the one that the check left. -/
def St.rewarded (s : St) (now : Date) (user_table account uid : String) (day : Fin 7) (n : Int) : St :=
  { s with
    warhead := Counters.incrby s.warhead user_table n
    users := setUsers s.users ⟨s.signId, now, now.week⟩ day (s.users ⟨s.signId, now, now.week⟩ day ++ [uid])
    number := Counters.incrby s.number (now.month, account) 1
    last_sign_date := update s.last_sign_date uid (some now) }

theorem takeSignReward_coin (now : Date) (user_table account : String) {uid : String} {day : Fin 7} {info : DayInfo}
    (hinfo : (s.table s.signId).bind (· day) = some info) (hcoin : (int info.give_type).getD 0 = GIVE_COIN)
    {n : Int} (hn : warheads s uid = some n) :
    run (takeSignReward now user_table account uid s.signId day info) s =
        (.ok { code := 0, msg := "签到成功,获取" ++ toString n, number := some ((s.number (now.month, account)).getD 0 + 1) },
          s.rewarded now user_table account uid day n) ∧
      trace Ev (takeSignReward now user_table account uid s.signId day info) s = [⟨uid, day, now⟩] := by
  obtain ⟨hrun, htrace⟩ := run_getShouldSignWarheads hn
  have hsame := table_rewrite hinfo
  unfold takeSignReward St.rewarded
  simp only [if_pos hcoin]
  rw [run_bind_ok hrun, trace_bind_ok hrun, htrace, List.nil_append]
  cases hnumber : s.number (now.month, account) with
  | none => simp [send, Exec.exec, Note.note, hnumber, hsame, incrby, val]
  | some k => simp [send, Exec.exec, Note.note, hnumber, hsame]

/-- The parts of `/doSign` before the reward. -/
theorem doSign_bind (now : Date) (sid signDay : String) (s : St) {user_table account uid : String}
    (hver : s.setup.shared.verfiy sid = .ok user_table) (hsession : s.setup.shared.session sid = some (account, uid)) :
    let rest := checkSignValid now uid signDay s.signId >>= fun
      | .error (code, msg) => .ret { code, msg }
      | .ok (day, sign_day_info) => takeSignReward now user_table account uid s.signId day sign_day_info
    run (doSign now sid signDay) s = run rest s ∧ trace Ev (doSign now sid signDay) s = trace Ev rest s := by
  have hinfo : s.setup.shared.info sid = ⟨some account, some uid, s.setup.shared.platform uid⟩ := by
    simp [Shared.info, hsession]
  have hrun : run (checkSessionVerfiy sid (s.setup.shared.info sid) : Handler _) s = (.ok (.ok user_table), s) := by
    rw [← hver]
    exact run_checkSessionVerfiy sid s
  have hnil : trace Ev (getInfoBySid sid : Handler Info) s = [] ∧
      trace Ev (checkSessionVerfiy sid (s.setup.shared.info sid) : Handler _) s = [] :=
    ⟨(only_session sid).trace_nil (fun _ c b hc => hc b) s, (only_verfiy sid _).trace_nil (fun _ c b hc => hc b) s⟩
  have hget : run (getInfoBySid sid : Handler Info) s = (.ok (s.setup.shared.info sid), s) := run_getInfoBySid sid s
  unfold doSign
  rw [run_bind_ok hget, trace_bind_ok hget, hnil.1, run_bind_ok hrun, trace_bind_ok hrun, hnil.2, hinfo]
  exact ⟨rfl, rfl⟩

/-- The check has put the user on the list of the day. -/
def St.marked (s : St) (p : Pass) : St :=
  { s with users := setUsers s.users p.key p.day (s.users p.key p.day ++ [p.uid]) }

/-- A request that passes and can be rewarded is. -/
theorem run_doSign_rewarded {p : Pass} (h : Passes now sid signDay s p) (hr : Rewardable s p) :
    ∃ n, warheads s p.uid = some n ∧ run (doSign now sid signDay) s =
        (.ok { code := 0, msg := "签到成功,获取" ++ toString n, number := some ((s.number (now.month, p.account)).getD 0 + 1) },
          (s.marked p).rewarded now p.user_table p.account p.uid p.day n) ∧
      trace Ev (doSign now sid signDay) s = [⟨p.uid, p.day, now⟩] := by
  obtain ⟨hrun, htrace⟩ := doSign_bind now sid signDay s h.verfiy h.session
  have hcheck : run (checkSignValid now p.uid signDay s.signId) s = (.ok (.ok (p.day, p.info)), s.marked p) :=
    run_checkSignValid h
  have hquiet : trace Ev (checkSignValid now p.uid signDay s.signId) s = [] :=
    (only_checkSignValid p.uid s.signId).trace_nil (fun _ c b hc => hc b) s
  obtain ⟨n, hn⟩ := warheads_of_level hr.level
  have hn' : warheads (s.marked p) p.uid = some n := hn
  obtain ⟨hreward, hev⟩ := takeSignReward_coin now p.user_table p.account (s := s.marked p) h.info hr.coin hn'
  rw [hrun, htrace, run_bind_ok hcheck, trace_bind_ok hcheck, hquiet]
  exact ⟨n, hn, hreward, hev⟩

theorem doSign_rewarded {p : Pass} (h : Passes now sid signDay s p) (hr : Rewardable s p) :
    ∃ reply s', run (doSign now sid signDay) s = (.ok reply, s') ∧ s'.users = listed s now p ∧ s'.setup = s.setup ∧
      s'.table = s.table ∧ trace Ev (doSign now sid signDay) s = [⟨p.uid, p.day, now⟩] := by
  obtain ⟨n, -, hrun, htrace⟩ := run_doSign_rewarded h hr
  exact ⟨_, _, hrun, rfl, rfl, rfl, htrace⟩

/-- A request that does not pass is refused, changes nothing and rewards nobody. -/
theorem doSign_not (h : ∀ p, ¬Passes now sid signDay s p) :
    (run (doSign now sid signDay) s).2 = s ∧ (∀ reply, (run (doSign now sid signDay) s).1 = .ok reply → reply.code ≠ 0) ∧
      trace Ev (doSign now sid signDay) s = [] := by
  have hget : run (getInfoBySid sid : Handler Info) s = (.ok (s.setup.shared.info sid), s) := run_getInfoBySid sid s
  have hchk := run_checkSessionVerfiy (D := Own) sid s
  have hnil : trace Ev (getInfoBySid sid : Handler Info) s = [] ∧
      trace Ev (checkSessionVerfiy sid (s.setup.shared.info sid) : Handler _) s = [] :=
    ⟨(only_session sid).trace_nil (fun _ c b hc => hc b) s, (only_verfiy sid _).trace_nil (fun _ c b hc => hc b) s⟩
  cases hver : s.setup.shared.verfiy sid with
  | error e =>
    have hrun : run (checkSessionVerfiy sid (s.setup.shared.info sid) : Handler _) s = (.ok (.error e), s) := hver ▸ hchk
    unfold doSign
    rw [run_bind_ok hget, trace_bind_ok hget, hnil.1, run_bind_ok hrun, trace_bind_ok hrun, hnil.2]
    refine ⟨rfl, ?_, rfl⟩
    rintro reply ⟨⟩
    exact (Shared.verfiy_error hver).ne
  | ok user_table =>
    obtain ⟨account, uid, hsession, -⟩ := Shared.verfiy_ok hver
    obtain ⟨hrun, htrace⟩ := doSign_bind now sid signDay s hver hsession
    have hquiet : trace Ev (checkSignValid now uid signDay s.signId) s = [] :=
      (only_checkSignValid uid s.signId).trace_nil (fun _ c b hc => hc b) s
    rw [hrun, htrace]
    have hin : ∀ day info key, dayOf signDay = some day → (s.table s.signId).bind (· day) = some info →
        curKey s.signId now day = some key → day.val ≤ now.weekday → uid ∈ s.users key day := by
      intro day info key hday hinfo hkey hdue
      by_contra hfresh
      exact h ⟨user_table, account, uid, day, info, key⟩ ⟨hver, hsession, hday, hinfo, hkey, hdue, hfresh⟩
    rcases run_checkSignValid_not now uid signDay s hin with ⟨e, he⟩ | ⟨e, hneg, he⟩
    · rw [run_bind_error he, trace_bind_error he]
      exact ⟨rfl, nofun, hquiet⟩
    · rw [run_bind_ok he, trace_bind_ok he, hquiet]
      refine ⟨rfl, ?_, rfl⟩
      rintro reply ⟨⟩
      exact hneg.ne

end Effect

/-! ## What a user is shown -/

/-- The running table has all seven days. -/
def Configured (s : St) : Prop := ∃ days, s.table s.signId = some days ∧ ∀ d, (days d).isSome = true

section Shown
variable (now : Date) {sid : String} {s : St}

/-- The key of a day of the current week. -/
theorem curKey_eq (sign_id : String) (now : Date) (day : Fin 7) :
    ∃ key, curKey sign_id now day = some key ∧ key.sign_id = sign_id ∧ key.date.dayNumber = now.inWeek day ∧
      key.week = now.week := by
  obtain ⟨date, hdate, hnum⟩ := strptimeWeek_eq now day.isLt
  exact ⟨⟨sign_id, date, now.week⟩, by rw [curKey, hdate]; rfl, rfl, hnum, rfl⟩

/-- `/getSignInfo` of a configured table shows every day, and those as signed whose list under its key has the user. -/
theorem run_getSignInfo {user_table account uid : String} (hconf : Configured s)
    (hver : s.setup.shared.verfiy sid = .ok user_table) (hsession : s.setup.shared.session sid = some (account, uid)) :
    ∃ reply, run (getSignInfo now sid) s = (.ok reply, s) ∧ reply.signInfo.map (·.day) = List.finRange 7 ∧
      ∀ v ∈ reply.signInfo, ∀ key, curKey s.signId now v.day = some key → (v.status = 1 ↔ uid ∈ s.users key v.day) := by
  obtain ⟨days, htable, hall⟩ := hconf
  choose key hkey using fun day => curKey_eq s.signId now day
  let items := (List.finRange 7).filterMap fun d => ((s.table s.signId).bind (· d)).map (d, ·)
  let view : Fin 7 × DayInfo → DayView := fun i => ⟨i.1, if uid ∈ s.users (key i.1) i.1 then 1 else 0, i.2.image, 1000000⟩
  have hitems : items.map Prod.fst = List.finRange 7 := by
    have hsome : ∀ d, (((s.table s.signId).bind (· d)).map (d, ·)).map Prod.fst = some d := by
      intro d
      obtain ⟨info, hinfo⟩ := Option.isSome_iff_exists.1 (hall d)
      rw [htable, Option.bind_some, hinfo]
      rfl
    rw [List.map_filterMap, funext hsome]
    exact List.filterMap_some
  have hviews : run (getUserSignInfo now uid s.signId) s = (.ok (.ok (items.map view)), s) := by
    have hexists : run (send (Own.existsTable s.signId) : Handler Bool) s = (.ok true, s) := by
      simp [send, Exec.exec, htable]
    have hget : run (send (Own.hgetallTable s.signId) : Handler _) s = (.ok items, s) := rfl
    unfold getUserSignInfo
    rw [run_bind_ok hexists]
    simp only [Bool.not_true, Bool.false_eq_true, if_false]
    rw [run_bind_ok hget, run_bind_ok (run_collect (f := view) ?_)]
    · rfl
    · rintro ⟨day, info⟩ -
      simp [hkey, send, Exec.exec, view]
  have hinfo : s.setup.shared.info sid = ⟨some account, some uid, s.setup.shared.platform uid⟩ := by
    simp [Shared.info, hsession]
  have hget : run (getInfoBySid sid : Handler Info) s = (.ok (s.setup.shared.info sid), s) := run_getInfoBySid sid s
  have hrun : run (checkSessionVerfiy sid (s.setup.shared.info sid) : Handler _) s = (.ok (.ok user_table), s) := by
    rw [← hver]
    exact run_checkSessionVerfiy sid s
  have hnow : run (send Own.getNowRun : Handler _) s = (.ok s.setup.nowRun, s) := rfl
  refine ⟨⟨0, "", none, items.map view, some (now.weekday + 1), some ((s.number (now.month, account)).getD 0),
    s.setup.receive now.month account⟩, ?_, ?_, ?_⟩
  · unfold getSignInfo
    rw [run_bind_ok hget, run_bind_ok hrun, hinfo]
    simp only [fmt_some]
    rw [run_bind_ok hnow]
    exact run_bind_ok hviews
  · rw [List.map_map, ← hitems]
    rfl
  · intro v hv k hk
    obtain ⟨i, -, rfl⟩ := List.mem_map.1 hv
    obtain rfl : key i.1 = k := Option.some.inj ((hkey i.1).1.symm.trans hk)
    simp [view]

end Shown

/-! ## Runs -/

/-- The rewards of a request: to whom, and for which date. -/
def rewards (r : Req) (s : St) : List (String × Nat) :=
  (trace Ev r.handler s).map fun e => (e.uid, e.today.inWeek e.day)

/-- A request, with the rewards so far. -/
def hstep (r : Req) (σ : St × List (String × Nat)) : St × List (String × Nat) := (step r σ.1, σ.2 ++ rewards r σ.1)

/-- The user is on a list of the date under another week number than today's. -/
def Elsewhere (s : St) (now : Date) (uid : String) (day : Fin 7) : Prop :=
  ∃ k : WeekKey, k.sign_id = s.signId ∧ k.date.dayNumber = now.inWeek day ∧ k.week ≠ now.week ∧ uid ∈ s.users k day

/-- A request that would put a user on a list finds a reward that can be given, and the user on no other list of the
date. A user who is shown his week is on no other list of its dates. -/
def Sound : Req → St × List (String × Nat) → Prop
  | .doSign now sid signDay, (s, _) =>
    ∀ p, Passes now sid signDay s p → Rewardable s p ∧ ¬Elsewhere s now p.uid p.day
  | .getSignInfo now sid, (s, _) =>
    ∀ account uid, s.setup.shared.session sid = some (account, uid) → ∀ day, ¬Elsewhere s now uid day

/-- A user who is let in is shown the seven days of the week, and those as signed that he was rewarded for. -/
def Tells : Req → St × List (String × Nat) → Prop
  | .getSignInfo now sid, (s, hist) =>
    ∀ user_table account uid, s.setup.shared.verfiy sid = .ok user_table →
      s.setup.shared.session sid = some (account, uid) →
      ∃ reply, run (getSignInfo now sid) s = (.ok reply, s) ∧ reply.signInfo.map (·.day) = List.finRange 7 ∧
        ∀ v ∈ reply.signInfo, (v.status = 1 ↔ (uid, now.inWeek v.day) ∈ hist)
  | .doSign _ _ _, _ => True

/-- Each date was rewarded once, and the lists of the dates hold the users that were rewarded for them. -/
structure Kept (σ : St × List (String × Nat)) : Prop where
  configured : Configured σ.1
  once : σ.2.Nodup
  lists : ∀ uid n, (uid, n) ∈ σ.2 ↔ ∃ (k : WeekKey) (day : Fin 7), k.sign_id = σ.1.signId ∧ k.date.dayNumber = n ∧
    day.val = k.date.weekday ∧ uid ∈ σ.1.users k day

theorem Passes.key_spec {now : Date} {sid signDay : String} {s : St} {p : Pass} (h : Passes now sid signDay s p) :
    p.key.sign_id = s.signId ∧ p.key.date.dayNumber = now.inWeek p.day ∧ p.key.week = now.week := by
  obtain ⟨key, hkey, hspec⟩ := curKey_eq s.signId now p.day
  obtain rfl : key = p.key := Option.some.inj (hkey.symm.trans h.key)
  exact hspec

/-- The second list that a reward writes is the first, or is one of a day that it is never read for. -/
theorem mem_listed {now : Date} {sid signDay : String} {s : St} {p : Pass} (h : Passes now sid signDay s p) {k : WeekKey}
    {day : Fin 7} (hday : day.val = k.date.weekday) (uid : String) :
    uid ∈ listed s now p k day ↔ uid ∈ s.users k day ∨ (uid = p.uid ∧ k = p.key ∧ day = p.day) := by
  obtain ⟨hid, hnum, hweek⟩ := h.key_spec
  -- today's list of the day is the day's own only if the day is today
  have htoday : k = ⟨s.signId, now, now.week⟩ → day = p.day → k = p.key := by
    rintro rfl rfl
    have hnow : now.inWeek p.day = now.dayNumber := by rw [hday]; exact now.inWeek_weekday
    exact WeekKey.ext hid.symm (Date.dayNumber_injective (hnum.trans hnow)).symm hweek.symm
  unfold listed setUsers
  by_cases hk : k = ⟨s.signId, now, now.week⟩ <;> by_cases hd : day = p.day <;> by_cases hkk : k = p.key <;>
    simp_all [Function.update_apply]

section Kept
variable {s : St} {hist : List (String × Nat)}

/-- A date was rewarded if the user is on its list of today's week number, or on another. -/
theorem Kept.mem_hist (h : Kept (s, hist)) {now : Date} {uid : String} {day : Fin 7} {key : WeekKey}
    (hid : key.sign_id = s.signId) (hnum : key.date.dayNumber = now.inWeek day) (hweek : key.week = now.week) :
    (uid, now.inWeek day) ∈ hist ↔ uid ∈ s.users key day ∨ Elsewhere s now uid day := by
  rw [h.lists]
  constructor
  · rintro ⟨k, day', hk, hn, hd, hmem⟩
    obtain rfl : day' = day := Fin.ext (hd.trans (Date.weekday_of_inWeek day.isLt hn))
    by_cases hw : k.week = now.week
    · left
      obtain rfl : k = key :=
        WeekKey.ext (hk.trans hid.symm) (Date.dayNumber_injective (hn.trans hnum.symm)) (hw.trans hweek.symm)
      exact hmem
    · exact .inr ⟨k, hk, hn, hw, hmem⟩
  · rintro (hmem | ⟨k, hk, hn, -, hmem⟩)
    · exact ⟨key, day, hid, hnum, (Date.weekday_of_inWeek day.isLt hnum).symm, hmem⟩
    · exact ⟨k, day, hk, hn, (Date.weekday_of_inWeek day.isLt hn).symm, hmem⟩

theorem Kept.rewarded (h : Kept (s, hist)) {now : Date} {sid signDay : String} {p : Pass} (hp : Passes now sid signDay s p)
    (helse : ¬Elsewhere s now p.uid p.day) {s' : St} (husers : s'.users = listed s now p) (hsetup : s'.setup = s.setup)
    (htable : s'.table = s.table) : Kept (s', hist ++ [(p.uid, now.inWeek p.day)]) := by
  obtain ⟨hid, hnum, hweek⟩ := hp.key_spec
  have hsign : s'.signId = s.signId := by unfold St.signId; rw [hsetup]
  refine ⟨?_, ?_, ?_⟩
  · obtain ⟨days, hdays, hall⟩ := h.configured
    exact ⟨days, by rw [htable, hsign, hdays], hall⟩
  · -- the date is new to the user: he is neither on this list nor on another
    have hnew : (p.uid, now.inWeek p.day) ∉ hist := by
      rw [h.mem_hist hid hnum hweek]
      exact not_or.2 ⟨hp.fresh, helse⟩
    exact h.once.append (List.nodup_singleton _) (List.disjoint_singleton.2 hnew)
  · intro uid n
    rw [List.mem_append, List.mem_singleton, h.lists uid n, hsign, husers]
    constructor
    · rintro (⟨k, day, hk, hn, hd, hmem⟩ | heq)
      · exact ⟨k, day, hk, hn, hd, (mem_listed hp hd uid).2 (.inl hmem)⟩
      · cases heq
        have hd := (Date.weekday_of_inWeek p.day.isLt hnum).symm
        exact ⟨p.key, p.day, hid, hnum, hd, (mem_listed hp hd _).2 (.inr ⟨rfl, rfl, rfl⟩)⟩
    · rintro ⟨k, day, hk, hn, hd, hmem⟩
      rcases (mem_listed hp hd uid).1 hmem with hold | ⟨rfl, rfl, rfl⟩
      · exact .inl ⟨k, day, hk, hn, hd, hold⟩
      · exact .inr (by rw [← hn, hnum])

end Kept

/-- The command only reads. -/
def Reads ⦃β : Type⦄ (c : Cmd β) : Prop := (∀ s : St, (Exec.exec c s).2 = s) ∧ ∀ b, (Note.note c b : List Ev) = []

theorem only_getUserSignInfo (now : Date) (uid sign_id : String) : Only Reads (getUserSignInfo now uid sign_id) := by
  have hread : ∀ {β : Type} {c : Own β}, (∀ s, (Exec.exec c s).2 = s) → (∀ b, (Note.note c b : List Ev) = []) →
      Reads (With.own c : Cmd β) := fun h h' => ⟨h, h'⟩
  refine ⟨hread (fun _ => rfl) fun _ => rfl, fun live => ?_⟩
  cases live with
  | false => trivial
  | true =>
  refine only_bind Reads (p := send (Own.hgetallTable sign_id)) ⟨hread (fun _ => rfl) fun _ => rfl, fun _ => trivial⟩ ?_
  intro items
  refine only_bind Reads (only_collect Reads ?_) fun _ => trivial
  rintro ⟨day, info⟩ -
  apply (only_orRaise_bind Reads _ _ _).2
  rintro key -
  exact ⟨hread (fun _ => rfl) fun _ => rfl, fun _ => trivial⟩

theorem only_getSignInfo (now : Date) (sid : String) : Only Reads (getSignInfo now sid) := by
  have hask : ∀ ⦃β : Type⦄ (a : Ask β), Reads (With.ask a : Cmd β) := fun _ _ => ⟨fun _ => rfl, fun _ => rfl⟩
  apply only_bind Reads (only_getInfoBySid hask sid)
  intro info
  apply only_bind Reads (only_checkSessionVerfiy hask sid info)
  intro res
  cases res with
  | error e => trivial
  | ok user_table =>
  refine ⟨⟨fun _ => rfl, fun _ => rfl⟩, fun nowRun => ?_⟩
  apply only_bind Reads (only_getUserSignInfo now _ _)
  intro views
  cases views with
  | error e => trivial
  | ok signInfo => exact ⟨⟨fun _ => rfl, fun _ => rfl⟩, fun _ => ⟨⟨fun _ => rfl, fun _ => rfl⟩, fun _ => trivial⟩⟩

/-- Being shown the week changes nothing. -/
theorem hstep_getSignInfo (now : Date) (sid : String) (σ : St × List (String × Nat)) : hstep (.getSignInfo now sid) σ = σ := by
  obtain ⟨s, hist⟩ := σ
  have hstay : (run (getSignInfo now sid) s).2 = s :=
    (only_getSignInfo now sid).run_inv (I := (· = s)) (fun _ c s' hc h => (hc.1 s').trans h) rfl
  have htrace : trace Ev (getSignInfo now sid) s = [] := (only_getSignInfo now sid).trace_nil (fun _ c b hc => hc.2 b) s
  unfold hstep step rewards Req.handler
  rw [hstay, htrace, List.map_nil, List.append_nil]

theorem kept_hstep (r : Req) (σ : St × List (String × Nat)) (hs : Sound r σ) (h : Kept σ) : Kept (hstep r σ) := by
  obtain ⟨s, hist⟩ := σ
  cases r with
  | getSignInfo now sid => exact (hstep_getSignInfo now sid (s, hist)).symm ▸ h
  | doSign now sid signDay =>
    by_cases hp : ∃ p, Passes now sid signDay s p
    · obtain ⟨p, hp⟩ := hp
      obtain ⟨hr, helse⟩ := hs p hp
      obtain ⟨reply, s', hrun, husers, hsetup, htable, htrace⟩ := doSign_rewarded hp hr
      have hstate : hstep (.doSign now sid signDay) (s, hist) = (s', hist ++ [(p.uid, now.inWeek p.day)]) := by
        unfold hstep step rewards Req.handler
        rw [hrun, htrace]
        rfl
      rw [hstate]
      exact h.rewarded hp helse husers hsetup htable
    · obtain ⟨hstay, -, htrace⟩ := doSign_not (not_exists.1 hp)
      have hstate : hstep (.doSign now sid signDay) (s, hist) = (s, hist) := by
        unfold hstep step rewards Req.handler
        rw [hstay, htrace, List.map_nil, List.append_nil]
      rw [hstate]
      exact h

theorem tells_of_kept (r : Req) (σ : St × List (String × Nat)) (hs : Sound r σ) (h : Kept σ) : Tells r σ := by
  obtain ⟨s, hist⟩ := σ
  cases r with
  | doSign now sid signDay => trivial
  | getSignInfo now sid =>
    intro user_table account uid hver hsession
    obtain ⟨reply, hrun, hdays, hstatus⟩ := run_getSignInfo now h.configured hver hsession
    refine ⟨reply, hrun, hdays, fun v hv => ?_⟩
    obtain ⟨key, hkey, hid, hnum, hweek⟩ := curKey_eq s.signId now v.day
    rw [hstatus v hv key hkey, h.mem_hist hid hnum hweek, or_iff_left (hs account uid hsession v.day)]

def demoDays : Fin 7 → Option DayInfo := fun _ => some ⟨"1", "1000", ""⟩

/-- A user with a session, and a table with coins for every day. -/
def demo : St where
  setup := {
    shared := {
      session := fun sid => if sid = "s" then some ("a", "1") else none
      platform := fun _ => none
      kick := fun _ => false
      userTable := fun _ => some "users:1"
      isUser := fun _ => true
      active := fun _ => none }
    nowRun := some "1"
    vip_level := fun _ => some "0"
    receive := fun _ _ => none }
  table := fun _ => some demoDays
  users := fun _ _ => []
  warhead := fun _ => none
  number := fun _ => none
  last_sign_date := fun _ => none

/-- Monday, 30 December 2024, and the Wednesday after it. -/
def demoMonday : Date := ⟨2024, 364, by decide⟩

def demoWednesday : Date := ⟨2025, 0, by decide⟩

/-- The week of the date has no first of January inside. -/
def WholeWeek (now : Date) : Prop := ∀ e : Date, e.mondayWeek = now.mondayWeek → e.year = now.year

def Req.now : Req → Date
  | .doSign now _ _ | .getSignInfo now _ => now

/-- Whoever would be put on a list gets a reward for it. -/
def Gives : Req → St × List (String × Nat) → Prop
  | .doSign now sid signDay, (s, _) => ∀ p, Passes now sid signDay s p → Rewardable s p
  | .getSignInfo _ _, _ => True

/-- Every list is under the week number of its date. -/
def Plain (σ : St × List (String × Nat)) : Prop := ∀ k day uid, uid ∈ σ.1.users k day → k.week = k.date.week

theorem plain_elsewhere {s : St} {hist : List (String × Nat)} (h : Plain (s, hist)) {now : Date} (hw : WholeWeek now)
    (uid : String) (day : Fin 7) : ¬Elsewhere s now uid day := by
  rintro ⟨k, -, hnum, hne, hmem⟩
  have hmonday := Date.mondayWeek_of_inWeek day.isLt hnum
  exact hne ((h k day uid hmem).trans (Date.week_eq (hw _ hmonday) hmonday))

theorem plain_hstep {r : Req} {σ : St × List (String × Nat)} (hw : WholeWeek r.now) (hg : Gives r σ) (h : Plain σ) :
    Plain (hstep r σ) := by
  obtain ⟨s, hist⟩ := σ
  cases r with
  | getSignInfo now sid => exact (hstep_getSignInfo now sid (s, hist)).symm ▸ h
  | doSign now sid signDay =>
    by_cases hp : ∃ p, Passes now sid signDay s p
    · obtain ⟨p, hp⟩ := hp
      obtain ⟨reply, s', hrun, husers, -⟩ := doSign_rewarded hp (hg p hp)
      obtain ⟨-, hnum, hweek⟩ := hp.key_spec
      have hmonday := Date.mondayWeek_of_inWeek p.day.isLt hnum
      intro k day uid hmem
      unfold hstep step Req.handler at hmem
      rw [hrun] at hmem
      simp only [husers, listed, setUsers, Function.update_apply] at hmem
      by_cases hk : k = p.key
      · rw [hk, hweek]
        exact (Date.week_eq (hw _ hmonday) hmonday).symm
      · by_cases hk' : k = ⟨s.signId, now, now.week⟩
        · rw [hk']
        · simp only [if_neg hk, if_neg hk'] at hmem
          exact h k day uid hmem
    · obtain ⟨hstay, -⟩ := doSign_not (not_exists.1 hp)
      intro k day uid hmem
      unfold hstep step Req.handler at hmem
      rw [hstay] at hmem
      exact h k day uid hmem

/-- Requests in weeks that lie in one year are sound. -/
theorem sound_of_wholeWeek {s : St} (hnew : ∀ k day, s.users k day = []) {rs : List Req} (hw : ∀ r ∈ rs, WholeWeek r.now)
    (hg : All hstep Gives rs (s, [])) : All hstep Sound rs (s, []) := by
  have hplain : Plain (s, []) := by
    intro k day uid hmem
    simp only [hnew] at hmem
    exact absurd hmem List.not_mem_nil
  refine all_of_inv (G := fun (r : Req) σ => WholeWeek r.now ∧ Gives r σ) (fun r σ h hσ => plain_hstep h.1 h.2 hσ) ?_ ?_ hplain
  · rintro r ⟨s, hist⟩ ⟨hw, hg⟩ hσ
    cases r with
    | doSign now sid signDay => exact fun p hp => ⟨hg p hp, plain_elsewhere hσ hw p.uid p.day⟩
    | getSignInfo now sid => exact fun account uid _ day => plain_elsewhere hσ hw uid day
  · exact all_and (all_of_mem hw _) hg

end FishWeb.Sign
