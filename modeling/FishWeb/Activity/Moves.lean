import Mathlib.Logic.Relation
import FishWeb.Activity.Model
/-!
# What a request does to the activities

`steps` says it once for all requests: each is a sequence of moves, one for a page and one
for each activity that the timer starts or closes. What holds of every move holds of every
run. `shelved_after` is the first such fact: an activity is on the list of one agent, once.
-/
open Python Prog Runs

namespace FishWeb.Activity

open Function (update)

variable {C : Config}

/-! ## The status of an activity -/

def statusOf (s : St) (id : String) : Option String := (s.table id).bind (· "status")

/-- `setActiviceStatus`: what is not there is not written. -/
def setStatus (s : St) (id status : String) : St :=
  match s.table id with
  | some t => { s with table := update s.table id (some (update t "status" (some status))) }
  | none => s

theorem exists_of_statusOf {s : St} {id st : String} (h : statusOf s id = some st) : ∃ t, s.table id = some t ∧ t "status" = some st := by
  cases ht : s.table id with
  | none => simp [statusOf, ht] at h
  | some t => exact ⟨t, rfl, by simpa [statusOf, ht] using h⟩

theorem run_getActiviceStatus (id : String) (s : St) : run (getActiviceStatus id) s = (.ok (statusOf s id), s) := by
  unfold getActiviceStatus
  cases h : s.table id <;> simp [send, Exec.exec, statusOf, h]

theorem run_getActiciveAgentid (id : String) (s : St) : run (getActiciveAgentid id) s = (.ok ((s.table id).bind (· "agentid")), s) := by
  unfold getActiciveAgentid
  cases h : s.table id <;> simp [send, Exec.exec, h]

theorem run_setActiviceStatus (id status : String) (s : St) : run (setActiviceStatus id status) s = (.ok (), setStatus s id status) := by
  unfold setActiviceStatus
  cases h : s.table id <;> simp [send, write, Exec.exec, Write.apply, setStatus, Fields.hmset, h]

/-- The list of an agent without the activity. -/
def offline (s : St) (agent id : String) : St := { s with online := update s.online agent ((s.online agent).filter (· ≠ id)) }

def online (s : St) (agent id : String) : St := { s with online := update s.online agent (id :: s.online agent) }

theorem run_addOnlineActivice (agent id : String) (s : St) :
    run (addOnlineActivice C agent id) s = (.ok (), online (setStatus s id C.starting) agent id) := by
  rw [addOnlineActivice, run_bind_ok (run_setActiviceStatus ..)]
  rfl

theorem run_rmOnlineActivice (agent id : String) (s : St) :
    run (rmOnlineActivice C agent id) s = (.ok (), offline (setStatus s id C.close) agent id) := by
  rw [rmOnlineActivice, run_bind_ok (run_setActiviceStatus ..)]
  rfl

/-! ## Pages -/

theorem step_check (id : String) (s : St) : step C (.check id) s =
    if id ≠ "" ∧ (statusOf s id = some C.nonChecked ∨ statusOf s id = some C.fail) then setStatus s id C.checking else s := by
  simp only [step, check]
  by_cases hid : id = ""
  · simp [hid]
  · rw [if_neg hid, run_bind_ok (run_getActiviceStatus id s)]
    by_cases h : statusOf s id = some C.nonChecked ∨ statusOf s id = some C.fail
    · rw [if_pos h, if_pos ⟨hid, h⟩, run_bind_ok (run_setActiviceStatus ..)]
      rfl
    · rw [if_neg h, if_neg (fun h' => h h'.2)]
      rfl

theorem step_confirm (agent id result : String) (s : St) : step C (.confirm agent id result) s =
    if id ≠ "" ∧ int agent = some C.systemId ∧ statusOf s id = some C.checking then
      if result = "0" then setStatus s id C.fail else if result = "1" then setStatus s id C.pass else s
    else s := by
  simp only [step, confirm]
  by_cases hid : id = ""
  · simp [hid]
  rw [if_neg hid]
  cases hn : int agent with
  | none => simp
  | some n =>
    by_cases hsys : n = C.systemId
    · rw [orRaise_some, ret_bind, if_neg (not_not.2 hsys), run_bind_ok (run_getActiviceStatus id s)]
      by_cases hst : statusOf s id = some C.checking
      · have hall : id ≠ "" ∧ some n = some C.systemId ∧ statusOf s id = some C.checking := ⟨hid, congrArg some hsys, hst⟩
        rw [if_pos hst, if_pos hall]
        by_cases h0 : result = "0"
        · rw [if_pos h0, if_pos h0, run_bind_ok (run_setActiviceStatus ..)]
          rfl
        · rw [if_neg h0, if_neg h0]
          by_cases h1 : result = "1"
          · rw [if_pos h1, if_pos h1, run_bind_ok (run_setActiviceStatus ..)]
            rfl
          · rw [if_neg h1, if_neg h1]
            rfl
      · rw [if_neg hst, if_neg (fun h => hst h.2.2)]
        rfl
    · rw [orRaise_some, ret_bind, if_pos hsys, if_neg (fun h => hsys (Option.some.inj h.2.1))]
      rfl

theorem step_ready (id : String) (s : St) : step C (.ready id) s =
    if id ≠ "" ∧ statusOf s id = some C.pass then setStatus s id C.ready else s := by
  simp only [step, ready]
  by_cases hid : id = ""
  · simp [hid]
  · rw [if_neg hid, run_bind_ok (run_getActiviceStatus id s)]
    by_cases h : statusOf s id = some C.pass
    · rw [if_pos h, if_pos ⟨hid, h⟩, run_bind_ok (run_setActiviceStatus ..)]
      rfl
    · rw [if_neg h, if_neg (fun h' => h h'.2)]
      rfl

/-- What the page that closes does to an activity of that status. -/
def closed (C : Config) (s : St) (id status : String) : St :=
  if status.toList <:+: C.ready.toList then setStatus s id C.close
  else if status.toList <:+: C.starting.toList then
    match (s.table id).bind (· "agentid") with
    | none => s
    | some agent => if agent ≠ "" ∧ s.online agent ≠ [] then offline (setStatus s id C.close) agent id else s
  else s

theorem step_close (id : String) (s : St) : step C (.close id) s =
    if id = "" then s else match statusOf s id with
      | none => s
      | some status => closed C s id status := by
  simp only [step, close]
  by_cases hid : id = ""
  · simp [hid]
  rw [if_neg hid, if_neg hid, run_bind_ok (run_getActiviceStatus id s)]
  cases hst : statusOf s id with
  | none => rfl
  | some status =>
    dsimp only
    unfold closed
    by_cases hready : status.toList <:+: C.ready.toList
    · rw [if_pos hready, if_pos hready, run_bind_ok (run_setActiviceStatus ..)]
      rfl
    rw [if_neg hready, if_neg hready]
    by_cases hstarting : status.toList <:+: C.starting.toList
    · rw [if_pos hstarting, if_pos hstarting, run_bind_ok (run_getActiciveAgentid ..)]
      cases (s.table id).bind (· "agentid") with
      | none => rfl
      | some agent =>
        have hexists : run (send (.existsOnline agent)) s = (.ok (decide (s.online agent ≠ [])), s) := rfl
        dsimp only
        rw [run_bind_ok hexists]
        by_cases h : agent ≠ "" ∧ s.online agent ≠ []
        · rw [if_pos (by simpa using h), if_pos h, run_bind_ok (run_rmOnlineActivice ..)]
          rfl
        · rw [if_neg (by simpa using h), if_neg h]
          rfl
    · rw [if_neg hstarting, if_neg hstarting]
      rfl

theorem step_del (agent id : String) (s : St) : step C (.del agent id) s =
    if id = "" then s
    else { s with table := update s.table id none, lists := update s.lists agent ((s.lists agent).filter (· ≠ id)) } := by
  simp only [step, doDel]
  by_cases hid : id = ""
  · simp [hid]
  · rw [if_neg hid, if_neg hid]
    rfl

/-- The fields of an activity after the body of a change. -/
def edited (s : St) (id : String) (body : Body) : Fields := Fields.hmset ((s.table id).getD fun _ => none) (texts body)

/-- What a change leaves: any agent but the system agent has it checked again. -/
def modified (C : Config) (s : St) (agent id : String) (body : Body) : Fields :=
  if ∃ n, int agent = some n ∧ n ≠ C.systemId then update (edited s id body) "status" (some C.nonChecked) else edited s id body

theorem step_modify (agent id : String) (body : Body) (s : St) : step C (.modify agent id body) s =
    if id ≠ "" ∧ id ∈ s.lists agent ∧ body ≠ [] then { s with table := update s.table id (some (modified C s agent id body)) } else s := by
  simp only [step, doModify]
  by_cases hid : id = ""
  · simp [hid]
  rw [if_neg hid]
  have hlrange : run (send (.lrange agent)) s = (.ok (s.lists agent), s) := rfl
  by_cases hin : id ∈ s.lists agent
  · by_cases hbody : body = []
    · have hedit : run (editActivice agent id body) s = (.error .RuntimeError, s) := by
        rw [editActivice, run_bind_ok hlrange, if_neg (not_not.2 hin), if_pos hbody]
        rfl
      rw [if_neg (fun h => h.2.2 hbody), run_bind_ok (run_attempt ..), run_bind_error hedit]
      rfl
    · have hedit : run (editActivice agent id body) s = (.ok (), { s with table := update s.table id (some (edited s id body)) }) := by
        rw [editActivice, run_bind_ok hlrange, if_neg (not_not.2 hin), if_neg hbody]
        rfl
      rw [if_pos ⟨hid, hin, hbody⟩, run_bind_ok (run_attempt ..), run_bind_ok hedit]
      cases hn : int agent with
      | none => simp [modified, hn]
      | some n =>
        rw [orRaise_some, ret_bind]
        by_cases hsys : n = C.systemId
        · simp [modified, hn, hsys]
        · rw [if_pos hsys, run_setActiviceStatus]
          simp [setStatus, modified, hn, hsys]
  · have hedit : run (editActivice agent id body) s = (.error .RuntimeError, s) := by
      rw [editActivice, run_bind_ok hlrange, if_pos hin]
      rfl
    rw [if_neg (fun h => hin h.2.1), run_bind_ok (run_attempt ..), run_bind_error hedit]
    rfl

/-! ## A new activity -/

/-- The activities are those they were. -/
structure Same (s s' : St) : Prop where
  table : s'.table = s.table
  lists : s'.lists = s.lists
  online : s'.online = s.online
  count : s.count ≤ s'.count

theorem Same.refl (s : St) : Same s s := ⟨rfl, rfl, rfl, Nat.le_refl _⟩

/-- The agent has written the activity `id`, with the fields `t`. -/
structure Created (C : Config) (agent id : String) (t : Fields) (s s' : St) : Prop where
  id_eq : id = toString (s.count + 1)
  author : ∃ n, int agent = some n ∧ t "status" = some (if n = C.systemId then C.pass else C.nonChecked)
  agentid : t "agentid" = some agent
  table : s'.table = update s.table id (some t)
  lists : s'.lists = update s.lists agent (id :: s.lists agent)
  online : s'.online = s.online
  count : s'.count = s.count + 1

theorem run_rewardPuts (id : String) (l : List Reward) (s : St) :
    (∃ e, run (rewardPuts id l) s = (.error e, s)) ∨
      ∃ ws, run (rewardPuts id l) s = (.ok ws, s) ∧ ∀ w ∈ ws, ∃ r n, w = .setRewardNum id r n := by
  induction l with
  | nil => exact .inr ⟨[], rfl, by simp⟩
  | cons r l ih =>
    unfold rewardPuts
    cases hr : r.rewardId with
    | none => exact .inl ⟨_, rfl⟩
    | some rewardid =>
      rw [orRaise_some, ret_bind]
      rcases ih with ⟨e, he⟩ | ⟨ws, hws, hall⟩
      · exact .inl ⟨e, run_bind_error he⟩
      · rw [run_bind_ok hws]
        refine .inr ?_
        cases r.rewardPut with
        | none => exact ⟨ws, rfl, hall⟩
        | some put =>
          by_cases hput : put.truthy
          · exact ⟨_, by simp [hput]; rfl, by simpa using hall⟩
          · exact ⟨ws, by simp [hput], hall⟩

theorem foldl_rewardNum {id : String} (ws : List Write) (h : ∀ w ∈ ws, ∃ r n, w = .setRewardNum id r n) (s : St) :
    ∃ nums, ws.foldl Write.apply s = { s with rewardNum := nums } := by
  induction ws generalizing s with
  | nil => exact ⟨s.rewardNum, rfl⟩
  | cons w ws ih =>
    obtain ⟨r, n, rfl⟩ := h w List.mem_cons_self
    obtain ⟨nums, hrest⟩ := ih (fun w hw => h w (List.mem_cons_of_mem _ hw)) (Write.apply s (.setRewardNum id r n))
    exact ⟨nums, hrest⟩

theorem run_createActivice (agent : String) (body : Body) (rewardList : List Reward) (s : St) :
    Same s (run (createActivice C agent body rewardList) s).2 ∨
      ∃ id t, Created C agent id t s (run (createActivice C agent body rewardList) s).2 := by
  have hcount : Same s { s with count := s.count + 1 } := ⟨rfl, rfl, rfl, Nat.le_succ _⟩
  have hincr : run (send .incrCount) s = (.ok (s.count + 1), { s with count := s.count + 1 }) := rfl
  rw [createActivice, run_bind_ok hincr]
  dsimp only
  cases body.lookup "type" with
  | none => exact .inl hcount
  | some type =>
  rw [orRaise_some, ret_bind]
  cases hn : int agent with
  | none => exact .inl hcount
  | some n =>
  rw [orRaise_some, ret_bind]
  rcases run_rewardPuts (toString (s.count + 1)) rewardList { s with count := s.count + 1 } with ⟨e, he⟩ | ⟨ws, hws, hall⟩
  · rw [run_bind_error he]
    exact .inl hcount
  rw [run_bind_ok hws]
  obtain ⟨nums, hnums⟩ := foldl_rewardNum ws hall { s with count := s.count + 1 }
  let id := toString (s.count + 1)
  let status := if n = C.systemId then C.pass else C.nonChecked
  let link := C.HALL_PRE ++ "/activice/route?type=" ++ type.text ++ "&id=" ++ id ++ "&agentId=" ++ agent
  let t := Fields.hmset ((s.table id).getD fun _ => none)
    (texts body ++ [("read", "0"), ("id", id), ("link", link), ("agentid", agent), ("status", status)])
  have hpipe : (ws ++ [Write.hmset id (texts body ++ [("read", "0"), ("id", id), ("link", link), ("agentid", agent), ("status", status)]),
      .lpush agent id]).foldl Write.apply { s with count := s.count + 1 } =
      { s with
        table := update s.table id (some t), lists := update s.lists agent (id :: s.lists agent), rewardNum := nums, count := s.count + 1 } := by
    rw [List.foldl_append, hnums]
    rfl
  have hstatus : t "status" = some status := by simp [t, Fields.hmset, List.foldl_append]
  have hagentid : t "agentid" = some agent := by simp [t, Fields.hmset, List.foldl_append, Function.update]
  have hcreated : Created C agent id t s { s with
      table := update s.table id (some t), lists := update s.lists agent (id :: s.lists agent), rewardNum := nums, count := s.count + 1 } :=
    ⟨rfl, ⟨n, hn, hstatus⟩, hagentid, rfl, rfl, rfl, rfl⟩
  rw [← hpipe] at hcreated
  exact .inr ⟨id, t, hcreated⟩

theorem step_create (agent : String) (body : Body) (rewardList : List Reward) (s : St) :
    Same s (step C (.create agent body rewardList) s) ∨ ∃ id t, Created C agent id t s (step C (.create agent body rewardList) s) := by
  simp only [step, doActiviceCreate]
  iterate 6
    split
    · exact .inl (Same.refl s)
  rw [run_bind_ok (run_attempt ..)]
  have hcases := run_createActivice (C := C) agent body rewardList s
  generalize run (createActivice C agent body rewardList) s = p at hcases ⊢
  obtain ⟨r, s'⟩ := p
  cases r <;> exact hcases

/-! ## A round of the timer -/

/-- The times of an activity, where it has both dates. -/
def timesOf (C : Config) (info : Fields) (now : Rat) : Option (Rat × Rat) := do
  let start_time ← C.str2timestamp (← info "startdate")
  let end_time ← C.str2timestamp (← info "enddate")
  return (now - start_time, end_time + C.ONE_DAY - now)

/-- The timer can read the activity: it has dates, and a status when one of them is past. -/
def Legible (C : Config) (info : Fields) (now : Rat) : Prop :=
  ∃ ts last, timesOf C info now = some (ts, last) ∧ (0 < ts ∨ last < 0 → info "status" ≠ none)

def infoOf (s : St) (id : String) : Fields := (s.table id).getD fun _ => none

/-- What a round does about one activity. -/
def visited (C : Config) (now : Rat) (agent : String) (s : St) (id : String) : St :=
  match timesOf C (infoOf s id) now with
  | none => s
  | some (ts, last) =>
    if 0 < ts ∧ infoOf s id "status" = some C.ready then online (setStatus s id C.starting) agent id
    else if last < 0 ∧ infoOf s id "status" = some C.starting then offline (setStatus s id C.close) agent id
    else s

theorem run_times (info : Fields) (now : Rat) (s : St) :
    (∃ p, timesOf C info now = some p ∧ run (times C info now) s = (.ok p, s)) ∨
      timesOf C info now = none ∧ ∃ e, run (times C info now) s = (.error e, s) := by
  cases h₁ : info "startdate" with
  | none => exact .inr ⟨by simp [timesOf, h₁], .KeyError, by simp [times, h₁]⟩
  | some startdate =>
  cases h₂ : C.str2timestamp startdate with
  | none => exact .inr ⟨by simp [timesOf, h₁, h₂], .ValueError, by simp [times, h₁, h₂]⟩
  | some start_time =>
  cases h₃ : info "enddate" with
  | none => exact .inr ⟨by simp [timesOf, h₁, h₃], .KeyError, by simp [times, h₁, h₂, h₃]⟩
  | some enddate =>
  cases h₄ : C.str2timestamp enddate with
  | none => exact .inr ⟨by simp [timesOf, h₁, h₃, h₄], .ValueError, by simp [times, h₁, h₂, h₃, h₄]⟩
  | some end_time =>
    exact .inl ⟨(now - start_time, end_time + C.ONE_DAY - now), by simp [timesOf, h₁, h₂, h₃, h₄], by simp [times, h₁, h₂, h₃, h₄]⟩

theorem run_statusIs {info : Fields} {st : String} (h : info "status" = some st) (b : Bool) (status : String) (s : St) :
    run (statusIs info b status) s = (.ok (b && decide (st = status)), s) := by
  cases b <;> simp [statusIs, h]

theorem run_visit (now : Rat) (agent id : String) (s : St) :
    (Legible C (infoOf s id) now ∧ run (visit C now agent id) s = (.ok (), visited C now agent s id)) ∨
      ¬Legible C (infoOf s id) now ∧ visited C now agent s id = s ∧ ∃ e, run (visit C now agent id) s = (.error e, s) := by
  have hinfo : run (send (.hgetall id)) s = (.ok (infoOf s id), s) := rfl
  rw [visit, run_bind_ok hinfo, visited]
  rcases run_times (C := C) (infoOf s id) now s with ⟨⟨ts, last⟩, htimes, hrun⟩ | ⟨hnone, e, he⟩
  · rw [run_bind_ok hrun, htimes]
    dsimp only
    cases hst : infoOf s id "status" with
    | none =>
      by_cases hdue : 0 < ts ∨ last < 0
      · refine .inr ⟨?_, by simp, .KeyError, ?_⟩
        · rintro ⟨ts', last', htimes', hsome⟩
          obtain ⟨rfl, rfl⟩ := Prod.mk.inj (Option.some.inj (htimes.symm.trans htimes'))
          exact hsome hdue hst
        · by_cases hts : 0 < ts
          · simp [statusIs, hts, hst]
          · simp [statusIs, hts, hst, hdue.resolve_left hts]
      · refine .inl ⟨⟨ts, last, htimes, fun h => absurd h hdue⟩, ?_⟩
        rw [not_or] at hdue
        simp [statusIs, hdue.1, hdue.2]
    | some st =>
      refine .inl ⟨⟨ts, last, htimes, fun _ => by simp [hst]⟩, ?_⟩
      rw [run_bind_ok (run_statusIs hst _ _ _)]
      by_cases hready : 0 < ts ∧ st = C.ready
      · rw [if_pos (by simpa using hready), if_pos (by simpa using hready), run_addOnlineActivice]
      · rw [if_neg (by simpa using hready), if_neg (by simpa using hready), run_bind_ok (run_statusIs hst _ _ _)]
        by_cases hover : last < 0 ∧ st = C.starting
        · rw [if_pos (by simpa using hover), if_pos (by simpa using hover), run_rmOnlineActivice]
        · rw [if_neg (by simpa using hover), if_neg (by simpa using hover)]
          rfl
  · rw [run_bind_error he, hnone]
    refine .inr ⟨?_, rfl, e, rfl⟩
    rintro ⟨ts, last, htimes, -⟩
    exact absurd (hnone.symm.trans htimes) (by simp)

/-- What a round does changes no list, no date, and the status of what has one. -/
structure Dated (s s' : St) : Prop where
  lists : s'.lists = s.lists
  legible : ∀ id now, Legible C (infoOf s' id) now ↔ Legible C (infoOf s id) now

theorem Dated.refl (s : St) : Dated (C := C) s s := ⟨rfl, fun _ _ => Iff.rfl⟩

theorem Dated.trans {s s' s'' : St} (h : Dated (C := C) s s') (h' : Dated (C := C) s' s'') : Dated (C := C) s s'' :=
  ⟨h'.lists.trans h.lists, fun id now => (h'.legible id now).trans (h.legible id now)⟩

theorem dated_setStatus {s s' : St} {id st st' : String} (hst : infoOf s id "status" = some st)
    (htable : s'.table = (setStatus s id st').table) (hlists : s'.lists = s.lists) : Dated (C := C) s s' := by
  refine ⟨hlists, fun i now => ?_⟩
  obtain ⟨t, ht⟩ : ∃ t, s.table id = some t := by
    cases ht : s.table id with
    | none => simp [infoOf, ht] at hst
    | some t => exact ⟨t, rfl⟩
  by_cases hi : i = id
  · subst hi
    have hsome : t "status" ≠ none := by simp [infoOf, ht] at hst; simp [hst]
    simp [Legible, infoOf, timesOf, htable, setStatus, ht, Function.update, hsome]
  · have hother : infoOf s' i = infoOf s i := by simp [infoOf, htable, setStatus, ht, hi]
    rw [hother]

theorem dated_visited (now : Rat) (agent : String) (s : St) (id : String) : Dated (C := C) s (visited C now agent s id) := by
  unfold visited
  split
  · exact Dated.refl s
  · split
    · next h => exact dated_setStatus h.2 rfl (by simp only [online, setStatus]; split <;> rfl)
    · split
      · next h => exact dated_setStatus h.2 rfl (by simp only [offline, setStatus]; split <;> rfl)
      · exact Dated.refl s

theorem dated_foldl (now : Rat) (l : List (String × String)) (s : St) :
    Dated (C := C) s (l.foldl (fun s p => visited C now p.1 s p.2) s) := by
  induction l generalizing s with
  | nil => exact Dated.refl s
  | cons p l ih => exact (dated_visited now p.1 s p.2).trans (ih _)

/-- A part of a round: it visits the activities `l`, or the first of them up to one that it cannot read. -/
def Visits (C : Config) (now : Rat) (l : List (String × String)) (s : St) (p : Except Err Unit × St) : Prop :=
  ∃ l', l' <+: l ∧ p.2 = l'.foldl (fun s p => visited C now p.1 s p.2) s ∧
    ((∀ q ∈ l, Legible C (infoOf s q.2) now) → p.1 = .ok () ∧ l' = l) ∧ (p.1 = .ok () → ∀ q ∈ l, Legible C (infoOf s q.2) now)

theorem visits_nil (now : Rat) (s : St) : Visits C now [] s (.ok (), s) :=
  ⟨[], List.prefix_rfl, rfl, fun _ => ⟨rfl, rfl⟩, fun _ _ h => nomatch h⟩

/-- One part after another. -/
theorem Visits.bind {now : Rat} {l₁ l₂ : List (String × String)} {s : St} {p : Handler Unit} {q : Unit → Handler Unit}
    (hp : Visits C now l₁ s (run p s)) (hq : ∀ s', Dated (C := C) s s' → Visits C now l₂ s' (run (q ()) s')) :
    Visits C now (l₁ ++ l₂) s (run (p >>= q) s) := by
  obtain ⟨l, hl, hstore, hall, hok⟩ := hp
  cases hr : run p s with
  | mk r s₁ =>
    rw [hr] at hstore hall hok
    cases r with
    | error e =>
      rw [run_bind_error hr]
      refine ⟨l, hl.trans (List.prefix_append ..), hstore, fun h => ?_, fun h => nomatch h⟩
      exact absurd (hall fun q hq => h q (List.mem_append_left _ hq)).1 (by simp)
    | ok a =>
      have hleg := hok rfl
      obtain ⟨-, rfl⟩ := hall hleg
      have hdated : Dated (C := C) s s₁ := (show s₁ = _ from hstore) ▸ dated_foldl now l s
      obtain ⟨l', hl', hstore', hall', hok'⟩ := hq s₁ hdated
      rw [run_bind_ok hr]
      refine ⟨l ++ l', (List.prefix_append_right_inj _).2 hl', ?_, fun h => ?_, fun h q hq => ?_⟩
      · rw [hstore', List.foldl_append, ← hstore]
      · obtain ⟨hres, rfl⟩ := hall' fun q hq => (hdated.legible q.2 now).2 (h q (List.mem_append_right _ hq))
        exact ⟨hres, rfl⟩
      · rcases List.mem_append.1 hq with hq | hq
        · exact hleg q hq
        · exact (hdated.legible q.2 now).1 (hok' h q hq)

theorem visits_visit (now : Rat) (agent id : String) (s : St) : Visits C now [(agent, id)] s (run (visit C now agent id) s) := by
  rcases run_visit (C := C) now agent id s with ⟨hleg, h⟩ | ⟨hleg, -, e, h⟩
  · rw [h]
    exact ⟨[(agent, id)], List.prefix_rfl, rfl, fun _ => ⟨rfl, rfl⟩, fun _ q hq => by simpa [List.mem_singleton.1 hq] using hleg⟩
  · rw [h]
    exact ⟨[], List.nil_prefix, rfl, fun hall => absurd (hall _ List.mem_cons_self) hleg, fun h => nomatch h⟩

theorem visits_list (now : Rat) (agent : String) (ids : List String) (s : St) :
    Visits C now (ids.map (agent, ·)) s (run (forEach ids (visit C now agent)) s) := by
  induction ids generalizing s with
  | nil => exact visits_nil now s
  | cons id ids ih =>
    rw [forEach_cons, List.map_cons]
    exact (visits_visit now agent id s).bind fun s' _ => ih s'

/-- The activities that a round comes to, each with the agent whose list it is on. -/
def targets (s : St) (keys : List String) : List (String × String) := keys.flatMap fun agent => (s.lists agent).map (agent, ·)

theorem visits_getActivices (keys : List String) (now : Rat) (s : St) :
    Visits C now (targets s keys) s (run (getActivices C keys now) s) := by
  unfold getActivices
  induction keys generalizing s with
  | nil => exact visits_nil now s
  | cons agent keys ih =>
    rw [forEach_cons, targets, List.flatMap_cons]
    have hlrange : run (send (.lrange agent)) s = (.ok (s.lists agent), s) := rfl
    refine Visits.bind ?_ fun s' hs' => ?_
    · rw [run_bind_ok hlrange]
      exact visits_list now agent _ s
    · have hsame : targets s' keys = targets s keys := by rw [targets, hs'.lists, targets]
      rw [show (keys.flatMap fun agent => (s.lists agent).map (agent, ·)) = targets s' keys from hsame.symm]
      exact ih s'

theorem alive_setStatus (s : St) (id st : String) : (setStatus s id st).alive = s.alive := by
  unfold setStatus
  split <;> rfl

theorem alive_visited (now : Rat) (agent : String) (s : St) (id : String) : (visited C now agent s id).alive = s.alive := by
  unfold visited
  split
  · rfl
  · split
    · exact alive_setStatus ..
    · split
      · exact alive_setStatus ..
      · rfl

theorem alive_foldl (now : Rat) (l : List (String × String)) (s : St) :
    (l.foldl (fun s p => visited C now p.1 s p.2) s).alive = s.alive := by
  induction l generalizing s with
  | nil => rfl
  | cons p l ih => exact (ih _).trans (alive_visited ..)

/-- What a round leaves, and when it is not the last. -/
theorem step_tick (keys : List String) (now : Rat) {s : St} (halive : s.alive = true) :
    ∃ l, l <+: targets s keys ∧ Same (l.foldl (fun s p => visited C now p.1 s p.2) s) (step C (.tick keys now) s) ∧
      ((step C (.tick keys now) s).alive = true → l = targets s keys) ∧
      ((step C (.tick keys now) s).alive = true ↔ ∀ p ∈ targets s keys, Legible C (infoOf s p.2) now) := by
  obtain ⟨l, hl, hstore, hall, hok⟩ := visits_getActivices (C := C) keys now s
  have halive' : (l.foldl (fun s p => visited C now p.1 s p.2) s).alive = true := (alive_foldl now l s).trans halive
  refine ⟨l, hl, ?_⟩
  rw [← hstore] at halive' ⊢
  simp only [step, if_pos halive]
  cases hr : run (getActivices C keys now) s with
  | mk r s' =>
    rw [hr] at hall hok halive'
    cases r with
    | error e =>
      refine ⟨⟨rfl, rfl, rfl, Nat.le_refl _⟩, (fun h => by cases h), (fun h => by cases h), fun h => ?_⟩
      exact absurd (hall h).1 (by simp)
    | ok a => exact ⟨Same.refl _, fun _ => (hall (hok rfl)).2, fun _ => hok rfl, fun _ => halive'⟩

/-! ## Moves -/

/-- The pages that set a status. -/
inductive Sets (C : Config) : Request → String → String → String → Prop
  | check {id st : String} : st = C.nonChecked ∨ st = C.fail → Sets C (.check id) id st C.checking
  | fail {agent id result : String} : int agent = some C.systemId → Sets C (.confirm agent id result) id C.checking C.fail
  | pass {agent id : String} : int agent = some C.systemId → Sets C (.confirm agent id "1") id C.checking C.pass
  | ready {id : String} : Sets C (.ready id) id C.pass C.ready
  | close {id st : String} : st.toList <:+: C.ready.toList → Sets C (.close id) id st C.close

/-- What a request, or the timer at one activity, does. -/
inductive Move (C : Config) : Request → St → St → Prop
  | same {r : Request} {s s' : St} : Same s s' → Move C r s s'
  | created {agent id : String} {body : Body} {l : List Reward} {t : Fields} {s s' : St} :
    Created C agent id t s s' → Move C (.create agent body l) s s'
  | edited {agent id : String} {body : Body} {s : St} : id ∈ s.lists agent →
    Move C (.modify agent id body) s { s with table := update s.table id (some (modified C s agent id body)) }
  | deleted {agent id : String} {s : St} :
    Move C (.del agent id) s
      { s with table := update s.table id none, lists := update s.lists agent ((s.lists agent).filter (· ≠ id)) }
  | set {r : Request} {id old new : String} {s : St} : Sets C r id old new → statusOf s id = some old →
    Move C r s (setStatus s id new)
  | started {keys : List String} {now : Rat} {agent id : String} {s : St} : id ∈ s.lists agent → statusOf s id = some C.ready →
    Move C (.tick keys now) s (online (setStatus s id C.starting) agent id)
  | ended {keys : List String} {now : Rat} {agent id : String} {s : St} : id ∈ s.lists agent → statusOf s id = some C.starting →
    Move C (.tick keys now) s (offline (setStatus s id C.close) agent id)
  | taken {agent id st : String} {s : St} : statusOf s id = some st → (s.table id).bind (· "agentid") = some agent →
    Move C (.close id) s (offline (setStatus s id C.close) agent id)

theorem infoOf_status (s : St) (id : String) : infoOf s id "status" = statusOf s id := by
  unfold infoOf statusOf
  cases s.table id <;> rfl

theorem move_visited {keys : List String} {now : Rat} {agent id : String} {s : St} (hin : id ∈ s.lists agent) :
    Move C (.tick keys now) s (visited C now agent s id) := by
  unfold visited
  simp only [infoOf_status]
  split
  · exact .same (Same.refl s)
  · split
    · next h => exact .started hin h.2
    · split
      · next h => exact .ended hin h.2
      · exact .same (Same.refl s)

theorem moves_foldl {keys : List String} {now : Rat} {l : List (String × String)} {s : St} (hin : ∀ p ∈ l, p.2 ∈ s.lists p.1) :
    Relation.ReflTransGen (Move C (.tick keys now)) s (l.foldl (fun s p => visited C now p.1 s p.2) s) := by
  induction l generalizing s with
  | nil => exact .refl
  | cons p l ih =>
    refine .head (move_visited (hin p List.mem_cons_self)) (ih fun q hq => ?_)
    rw [(dated_visited now p.1 s p.2).lists]
    exact hin q (List.mem_cons_of_mem _ hq)

theorem mem_targets {s : St} {keys : List String} {p : String × String} : p ∈ targets s keys ↔ p.1 ∈ keys ∧ p.2 ∈ s.lists p.1 := by
  simp only [targets, List.mem_flatMap, List.mem_map]
  constructor
  · rintro ⟨agent, hagent, id, hid, rfl⟩
    exact ⟨hagent, hid⟩
  · rintro ⟨hagent, hid⟩
    exact ⟨p.1, hagent, p.2, hid, rfl⟩

/-- Every request is a sequence of moves, and only a round makes more than one. -/
theorem steps (r : Request) (s : St) : Relation.ReflTransGen (Move C r) s (step C r s) := by
  have hidle : Move C r s s := .same (Same.refl s)
  cases r with
  | create agent body l =>
    rcases step_create (C := C) agent body l s with h | ⟨id, t, h⟩
    · exact .single (.same h)
    · exact .single (.created h)
  | modify agent id body =>
    rw [step_modify]
    split
    · next h => exact .single (.edited h.2.1)
    · exact .single hidle
  | del agent id =>
    rw [step_del]
    split
    · exact .single hidle
    · exact .single .deleted
  | check id =>
    rw [step_check]
    split
    · next h =>
      rcases h.2 with h | h
      · exact .single (.set (.check (.inl rfl)) h)
      · exact .single (.set (.check (.inr rfl)) h)
    · exact .single hidle
  | confirm agent id result =>
    rw [step_confirm]
    split
    · next h =>
      split
      · exact .single (.set (.fail h.2.1) h.2.2)
      · split
        · next hresult => exact .single (hresult ▸ .set (.pass h.2.1) h.2.2)
        · exact .single hidle
    · exact .single hidle
  | ready id =>
    rw [step_ready]
    split
    · next h => exact .single (.set .ready h.2)
    · exact .single hidle
  | close id =>
    rw [step_close]
    split
    · exact .single hidle
    split
    · exact .single hidle
    next status hst =>
    unfold closed
    split
    · next h => exact .single (.set (.close h) hst)
    split
    · split
      · exact .single hidle
      · next agent hagent =>
        split
        · exact .single (.taken hst hagent)
        · exact .single hidle
    · exact .single hidle
  | tick keys now =>
    cases halive : s.alive with
    | false =>
      simp only [step, halive]
      exact .refl
    | true =>
      obtain ⟨l, hl, hsame, -⟩ := step_tick (C := C) keys now halive
      exact (moves_foldl fun p hp => (mem_targets.1 (hl.subset hp)).2).tail (.same hsame)

/-- What the moves of a request keep, the request keeps. -/
theorem step_keeps {I : St → Prop} {r : Request} (hmove : ∀ s s', Move C r s s' → I s → I s') {s : St} (hs : I s) : I (step C r s) := by
  have hsteps := steps (C := C) r s
  generalize step C r s = s' at hsteps ⊢
  induction hsteps with
  | refl => exact hs
  | tail _ hm ih => exact hmove _ _ hm ih

/-! ## Who has which activity -/

theorem lists_setStatus (s : St) (id st : String) : (setStatus s id st).lists = s.lists := by
  unfold setStatus
  split <;> rfl

theorem online_setStatus (s : St) (id st : String) : (setStatus s id st).online = s.online := by
  unfold setStatus
  split <;> rfl

theorem count_setStatus (s : St) (id st : String) : (setStatus s id st).count = s.count := by
  unfold setStatus
  split <;> rfl

theorem table_setStatus_ne {s : St} {id i : String} (h : i ≠ id) (st : String) : (setStatus s id st).table i = s.table i := by
  unfold setStatus
  split
  · exact Function.update_of_ne h ..
  · rfl

theorem table_setStatus_isSome (s : St) (id i st : String) : ((setStatus s id st).table i).isSome = (s.table i).isSome := by
  by_cases h : i = id
  · subst h
    unfold setStatus
    split
    · next ht => simp [ht]
    · rfl
  · rw [table_setStatus_ne h]

/-- Every activity is on the list of the agent who wrote it, once, and only what is on a list has a table. -/
structure Shelved (s : St) : Prop where
  numbered : ∀ a id, id ∈ s.lists a → ∃ n ≤ s.count, id = toString n
  nodup : ∀ a, (s.lists a).Nodup
  owner : ∀ a b id, id ∈ s.lists a → id ∈ s.lists b → a = b
  author : ∀ a id, id ∈ s.lists a → ∃ n, int a = some n
  listed : ∀ id, (s.table id).isSome → ∃ a, id ∈ s.lists a

theorem Shelved.of_same {s s' : St} (h : Shelved s) (hlists : s'.lists = s.lists) (hcount : s.count ≤ s'.count)
    (htable : ∀ id, (s'.table id).isSome → (s.table id).isSome) : Shelved s' := by
  constructor
  · rw [hlists]
    exact fun a id hid => (h.numbered a id hid).imp fun n hn => ⟨hn.1.trans hcount, hn.2⟩
  · rw [hlists]
    exact h.nodup
  · rw [hlists]
    exact h.owner
  · rw [hlists]
    exact h.author
  · rw [hlists]
    exact fun id hid => h.listed id (htable id hid)

theorem Shelved.fresh {s : St} (h : Shelved s) (a : String) : toString (s.count + 1) ∉ s.lists a := by
  intro hin
  obtain ⟨n, hn, heq⟩ := h.numbered a _ hin
  have := toString_injective heq
  omega

theorem Shelved.created {s s' : St} {agent id : String} {t : Fields} (h : Shelved s) (hc : Created C agent id t s s') : Shelved s' := by
  obtain rfl := hc.id_eq
  have hmem (a i : String) : i ∈ s'.lists a ↔ (a = agent ∧ i = toString (s.count + 1)) ∨ i ∈ s.lists a := by
    rw [hc.lists]
    by_cases ha : a = agent
    · subst ha
      simp
    · simp [ha]
  constructor
  · intro a i hi
    rw [hc.count]
    rcases (hmem a i).1 hi with ⟨-, rfl⟩ | hi
    · exact ⟨_, Nat.le_refl _, rfl⟩
    · exact (h.numbered a i hi).imp fun n hn => ⟨Nat.le_succ_of_le hn.1, hn.2⟩
  · intro a
    rw [hc.lists]
    by_cases ha : a = agent
    · subst ha
      simpa using ⟨h.fresh a, h.nodup a⟩
    · simpa [ha] using h.nodup a
  · intro a b i ha hb
    rcases (hmem a i).1 ha with ⟨rfl, rfl⟩ | ha
    · rcases (hmem b _).1 hb with ⟨rfl, -⟩ | hb
      · rfl
      · exact absurd hb (h.fresh b)
    · rcases (hmem b i).1 hb with ⟨rfl, rfl⟩ | hb
      · exact absurd ha (h.fresh a)
      · exact h.owner a b i ha hb
  · intro a i hi
    rcases (hmem a i).1 hi with ⟨rfl, -⟩ | hi
    · exact hc.author.imp fun n hn => hn.1
    · exact h.author a i hi
  · intro i hi
    by_cases hnew : i = toString (s.count + 1)
    · exact ⟨agent, (hmem agent i).2 (.inl ⟨rfl, hnew⟩)⟩
    · rw [hc.table, Function.update_of_ne hnew] at hi
      obtain ⟨a, ha⟩ := h.listed i hi
      exact ⟨a, (hmem a i).2 (.inr ha)⟩

theorem Shelved.deleted {s : St} {agent id : String} (h : Shelved s) :
    Shelved { s with table := update s.table id none, lists := update s.lists agent ((s.lists agent).filter (· ≠ id)) } := by
  have hsub (a i : String) (hi : i ∈ update s.lists agent ((s.lists agent).filter (· ≠ id)) a) : i ∈ s.lists a := by
    by_cases ha : a = agent
    · subst ha
      rw [Function.update_self] at hi
      exact List.mem_of_mem_filter hi
    · rwa [Function.update_of_ne ha] at hi
  constructor
  · exact fun a i hi => h.numbered a i (hsub a i hi)
  · intro a
    by_cases ha : a = agent
    · subst ha
      simpa using (h.nodup a).filter _
    · simpa [ha] using h.nodup a
  · exact fun a b i ha hb => h.owner a b i (hsub a i ha) (hsub b i hb)
  · exact fun a i hi => h.author a i (hsub a i hi)
  · intro i hi
    by_cases hid : i = id
    · simp [hid] at hi
    · dsimp only at hi
      rw [Function.update_of_ne hid] at hi
      obtain ⟨a, ha⟩ := h.listed i hi
      refine ⟨a, ?_⟩
      dsimp only
      by_cases haa : a = agent
      · subst haa
        simpa using ⟨ha, hid⟩
      · simpa [haa] using ha

theorem Shelved.move {r : Request} {s s' : St} (h : Shelved s) (hm : Move C r s s') : Shelved s' := by
  have hset (id st : String) : Shelved (setStatus s id st) :=
    h.of_same (lists_setStatus ..) (count_setStatus ..).ge fun i hi => table_setStatus_isSome s id i st ▸ hi
  cases hm with
  | same hs => exact h.of_same hs.lists hs.count fun id hid => by rwa [hs.table] at hid
  | created hc => exact h.created hc
  | @edited agent id _ _ hin =>
    refine ⟨h.numbered, h.nodup, h.owner, h.author, fun i hi => ?_⟩
    by_cases hid : i = id
    · exact ⟨agent, hid ▸ hin⟩
    · dsimp only at hi
      rw [Function.update_of_ne hid] at hi
      exact h.listed i hi
  | deleted => exact h.deleted
  | set => exact hset _ _
  | started | ended | taken => exact (hset _ _).of_same rfl (Nat.le_refl _) fun _ h => h

theorem shelved_init : Shelved init :=
  ⟨(fun _ _ h => nomatch h), fun _ => List.nodup_nil, (fun _ _ _ h => nomatch h), (fun _ _ h => nomatch h), fun _ h => nomatch h⟩

theorem shelved_step {s : St} (h : Shelved s) (r : Request) : Shelved (step C r s) :=
  step_keeps (fun _ _ hm h => h.move hm) h

theorem shelved_after (rs : List Request) : Shelved (after (step C) rs init) :=
  after_keeps (I := Shelved) (fun r _ h => shelved_step h r) rs shelved_init

end FishWeb.Activity
