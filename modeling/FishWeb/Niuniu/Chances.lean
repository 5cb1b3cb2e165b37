import FishWeb.Lib.Counters
import FishWeb.Lib.Days
import FishWeb.Lib.Prog
import FishWeb.Lib.Runs
/-!
# Chances to draw in the bull event

`on_niuniu_balance` and `on_niuniu_share` of `tasks/niuniu_tasks.py`, with
`is_niuniu_active_openning` of `model/niuniuModel.py`. A chance is counted for its account and
in the number of all chances that are left. A hand is meant to bring one on the first three days
of the event; the handler turns it away from the fifth day on.

The accounts of trial guilds are looked up in another database, and `localtime` is the day of
`time.localtime`. Both are parameters, and the accounts change between two events. Left out: the log.
-/
open Calendar Counters Python Prog Runs
open Function (update update_self update_of_ne)

namespace FishWeb.Niuniu

/-! ## The store -/

/-- `NIUNIU_ACTIVI_CONFIG_TABLE` -/
structure Active where
  start_date : Option String
  status : Option String
  deriving Repr, DecidableEq

/-- The fields of `NIUNIU_ACCOUNT_STACTICS_TABLE`. -/
inductive Stactics where
  | niuniu_count | draw_times | share_count
  deriving Repr, DecidableEq

inductive Counter where
  /-- `NIUNIU_ACCOUNT_STACTICS_TABLE % account` -/
  | stactics (account : String) (field : Stactics)
  /-- `NIUNIU_COUNT_LARGE_TABLE_BY_DAY % date` -/
  | large (date : Date) (account : String)
  /-- `draw_last_count` of `NIUNIU_GAME_OPERATE_TABLE` -/
  | draw_last_count
  deriving DecidableEq

structure Store where
  active : Option Active
  /-- `check_account_in_try_play_groups` -/
  trial : String → Bool
  counts : Table Counter
  /-- `NIUNIU_GAME_SHARE_ACCOUNTS_SET % date` -/
  shared : Date → String → Bool

inductive Write where
  | hincrby (counter : Counter)
  | sadd (date : Date) (account : String)

def applyWrite (s : Store) : Write → Store
  | .hincrby counter => { s with counts := incrby s.counts counter 1 }
  | .sadd date account => { s with shared := update s.shared date (update (s.shared date) account true) }

inductive Cmd : Type → Type
  | hgetall : Cmd (Option Active)
  | hget_start_date : Cmd (Option String)
  | check_account_in_try_play_groups (account : String) : Cmd Bool
  | smembers (date : Date) : Cmd (String → Bool)
  | pipe (ws : List Write) : Cmd Unit

instance : Exec Cmd Store where
  exec
    | .hgetall, s => (s.active, s)
    | .hget_start_date, s => (s.active.bind Active.start_date, s)
    | .check_account_in_try_play_groups account, s => (s.trial account, s)
    | .smembers date, s => (s.shared date, s)
    | .pipe ws, s => ((), ws.foldl applyWrite s)

abbrev Handler := Prog Err Cmd

/-! ## The operations -/

def is_niuniu_active_openning : Handler Bool := do
  match ← call .hgetall with
  | none => return false
  | some info => return info.status.getD "" = "1"

/-- `text[:10]` -/
def day (text : String) : String := String.ofList (text.toList.take 10)

def get_next_day (baseday : String) (n : Nat) : Handler Date := do
  return (← orRaise .ValueError (strptime baseday)).plus n

/-- The message of a hand: the accounts and their bulls stand in the same places of two lists. -/
structure Data where
  /-- in milliseconds -/
  start_time : Int
  accounts : String
  bull_info : String
  deriving Repr, DecidableEq

/-- The loop for the account at a place: what is put on the pipe, and the account where it has a bull. -/
def hand (data : Data) (date : Date) (place : String × Nat) : Handler (List Counter × List String) := do
  let (account, index) := place
  if ← call (.check_account_in_try_play_groups account) then return ([], [])
  let bull ← orRaise .ValueError (int (← orRaise .IndexError (split '|' data.bull_info)[index]?))
  if bull < 10 then return ([], [])
  return ((if bull = 10 then [.stactics account .niuniu_count] else []) ++
    [.large date account, .stactics account .draw_times, .draw_last_count], if bull = 10 then [account] else [])

structure Balance where
  result : Bool
  data : List String
  content : String
  deriving Repr, DecidableEq

def on_niuniu_balance (localtime : Int → Date) (data : Data) : Handler (Option Balance) := do
  if !(← is_niuniu_active_openning) then return none
  let cur_date := localtime (data.start_time / 1000)
  let start_date ← orRaise .TypeError (← call .hget_start_date)
  if !decide (cur_date < (← get_next_day (day start_date) 4)) then return none
  let hands ← collect (split '|' data.accounts).zipIdx (hand data cur_date)
  call (.pipe ((hands.flatMap Prod.fst).map .hincrby))
  return some ⟨true, hands.flatMap Prod.snd, "恭喜您获得一次抽奖机会！！！"⟩

structure Share where
  code : Nat
  msg : String
  deriving Repr, DecidableEq

def on_niuniu_share (account : String) (today : Date) : Handler (Option Share) := do
  if !(← is_niuniu_active_openning) then return none
  if ← call (.check_account_in_try_play_groups account) then return some ⟨1, "您是试玩工会玩家"⟩
  if (← call (.smembers today)) account then return some ⟨1, "您已经分享过"⟩
  call (.pipe [.sadd today account, .hincrby (.stactics account .share_count), .hincrby (.stactics account .draw_times),
    .hincrby .draw_last_count])
  return some ⟨0, "分享成功"⟩

inductive Req where
  | balance (data : Data)
  | share (account : String) (today : Date)
  /-- the service that opens and closes the event -/
  | schedule (active : Option Active)
  /-- the guilds of the other database -/
  | regroup (trial : String → Bool)

section Steps
variable (localtime : Int → Date)

def step (r : Req) (s : Store) : Store :=
  match r with
  | .balance data => (run (on_niuniu_balance localtime data) s).2
  | .share account today => (run (on_niuniu_share account today) s).2
  | .schedule active => { s with active }
  | .regroup trial => { s with trial }

/-! ## What is expected -/

/-- The event is open. -/
def Store.Open (s : Store) : Prop := ∃ info ∈ s.active, info.status = some "1"

instance (s : Store) : Decidable s.Open := inferInstanceAs (Decidable (∃ info ∈ s.active, info.status = some "1"))

/-- The first day of the event. -/
def Store.start (s : Store) : Option Date := (s.active.bind Active.start_date).bind fun start_date => strptime (day start_date)

/-- One of the first three days. -/
def InDays (s : Store) (date : Date) : Prop := ∃ start ∈ s.start, ¬date < start ∧ date < start.plus 3

instance (s : Store) (date : Date) : Decidable (InDays s date) :=
  inferInstanceAs (Decidable (∃ start ∈ s.start, ¬date < start ∧ date < start.plus 3))

def Data.places (data : Data) : List (String × Nat) := (split '|' data.accounts).zipIdx

/-- The bull in a place, where there is one. -/
def Data.bull (data : Data) (index : Nat) : Option Int := (split '|' data.bull_info)[index]?.bind int

/-- An account outside the trial guilds that has at least bull 10. -/
def Wins (trial : String → Bool) (data : Data) (place : String × Nat) : Prop :=
  trial place.1 = false ∧ ∃ bull ∈ data.bull place.2, 10 ≤ bull

instance (trial : String → Bool) (data : Data) (place : String × Nat) : Decidable (Wins trial data place) :=
  inferInstanceAs (Decidable (trial place.1 = false ∧ ∃ bull ∈ data.bull place.2, 10 ≤ bull))

/-- The accounts that win, once for each of their hands. -/
def winners (trial : String → Bool) (data : Data) : List String := (data.places.filter (Wins trial data ·)).map Prod.fst

/-- The accounts that a hand is to bring a chance. -/
def due (s : Store) (data : Data) : List String :=
  if s.Open ∧ InDays s (localtime (data.start_time / 1000)) then winners s.trial data else []

/-- The store, and what has happened: the hands that count and the days of sharing, of accounts outside the trial guilds. -/
structure State where
  store : Store
  hands : String → Nat
  days : String → Finset Date

def next (r : Req) (s : State) : State where
  store := step localtime r s.store
  hands account := s.hands account +
    match r with
    | .balance data => (due localtime s.store data).count account
    | _ => 0
  days account :=
    match r with
    | .share sharer today =>
      if account = sharer ∧ s.store.Open ∧ s.store.trial sharer = false then insert today (s.days account) else s.days account
    | _ => s.days account

/-- Every account has a chance for each hand and each day, and the sum of all is kept. -/
structure Fair (s : State) : Prop where
  gains : ∀ account, val s.store.counts (.stactics account .draw_times) = s.hands account + (s.days account).card
  sum : Sums (fun account => val s.store.counts (.stactics account .draw_times)) (val s.store.counts .draw_last_count)

def Store.new (active : Option Active) (trial : String → Bool) : Store := ⟨active, trial, fun _ => none, fun _ _ => false⟩

/-- No chances yet. -/
def State.new (active : Option Active) (trial : String → Bool) : State := ⟨.new active trial, fun _ => 0, fun _ => ∅⟩

/-! ## When it holds -/

/-- The handler does not turn a hand of this day away. -/
def Admitted (s : Store) (date : Date) : Prop := ∃ start ∈ s.start, date < start.plus 4

/-- Every account outside the trial guilds has an integer in its place. -/
def Readable (s : Store) (data : Data) : Prop := ∀ place ∈ data.places, s.trial place.1 = false → (data.bull place.2).isSome

/-- Where someone wins, the hand is of the first three days exactly where it is taken and can be read. -/
def Fits (r : Req) (s : State) : Prop :=
  match r with
  | .balance data =>
    let date := localtime (data.start_time / 1000)
    s.store.Open → winners s.store.trial data ≠ [] → (InDays s.store date ↔ Admitted s.store date ∧ Readable s.store data)
  | _ => True

instance (s : Store) (date : Date) : Decidable (Admitted s date) :=
  inferInstanceAs (Decidable (∃ start ∈ s.start, date < start.plus 4))

instance (s : Store) (data : Data) : Decidable (Readable s data) :=
  inferInstanceAs (Decidable (∀ place ∈ data.places, s.trial place.1 = false → (data.bull place.2).isSome))

end Steps

/-! ## The loop over the accounts -/

section Loop
variable {s : Store} {data : Data} {date : Date} {place : String × Nat}

/-- What a round of the loop returns. -/
def round (trial : String → Bool) (data : Data) (date : Date) (place : String × Nat) : List Counter × List String :=
  if Wins trial data place then
    ((if data.bull place.2 = some 10 then [.stactics place.1 .niuniu_count] else []) ++
      [.large date place.1, .stactics place.1 .draw_times, .draw_last_count], if data.bull place.2 = some 10 then [place.1] else [])
  else ([], [])

theorem run_hand_trial (htrial : s.trial place.1 = true) : run (hand data date place) s = (.ok ([], []), s) := by
  show run (if s.trial place.1 then _ else _) s = _
  rw [if_pos htrial]
  rfl

/-- Outside the trial guilds the bull is read. -/
theorem run_hand_outside (htrial : s.trial place.1 = false) : run (hand data date place) s =
    run (do
      let bull ← orRaise .ValueError (int (← orRaise .IndexError (split '|' data.bull_info)[place.2]?))
      if bull < 10 then return ([], [])
      return ((if bull = 10 then [.stactics place.1 .niuniu_count] else []) ++
        [.large date place.1, .stactics place.1 .draw_times, .draw_last_count], if bull = 10 then [place.1] else []) :
      Handler (List Counter × List String)) s := by
  show run (if s.trial place.1 then _ else _) s = _
  rw [htrial]
  rfl

theorem run_hand (hread : s.trial place.1 = false → (data.bull place.2).isSome) :
    run (hand data date place) s = (.ok (round s.trial data date place), s) := by
  unfold round
  by_cases htrial : s.trial place.1 = true
  · rw [run_hand_trial htrial, if_neg fun hwins => absurd (hwins.1.symm.trans htrial) (by decide)]
  · rw [Bool.not_eq_true] at htrial
    obtain ⟨bull, hbull⟩ := Option.isSome_iff_exists.1 (hread htrial)
    obtain ⟨text, htext, hint⟩ := Option.bind_eq_some_iff.1 hbull
    rw [run_hand_outside htrial, htext, orRaise_some, ret_bind, hint, orRaise_some, ret_bind, hbull]
    by_cases hlow : bull < 10
    · have hloses : ¬Wins s.trial data place := by
        rintro ⟨-, b, hb, hle⟩
        cases hbull.symm.trans hb
        omega
      rw [if_pos hlow, if_neg hloses]
      rfl
    · have hwins : Wins s.trial data place := ⟨htrial, bull, hbull, by omega⟩
      rw [if_neg hlow, if_pos hwins]
      simp only [Option.some.injEq]
      rfl

theorem run_hand_raises (date : Date) (htrial : s.trial place.1 = false) (hbull : data.bull place.2 = none) :
    ∃ e, run (hand data date place) s = (.error e, s) := by
  rw [run_hand_outside htrial]
  cases htext : (split '|' data.bull_info)[place.2]? with
  | none => exact ⟨.IndexError, rfl⟩
  | some text =>
    have hint : int text = none := by
      unfold Data.bull at hbull
      rwa [htext] at hbull
    rw [orRaise_some, ret_bind, hint]
    exact ⟨.ValueError, rfl⟩

theorem hand_reads (data : Data) (date : Date) (place : String × Nat) (s : Store) : (run (hand data date place) s).2 = s := by
  by_cases hread : s.trial place.1 = false → (data.bull place.2).isSome
  · rw [run_hand hread]
  · rw [Classical.not_imp, Option.not_isSome_iff_eq_none] at hread
    obtain ⟨e, hrun⟩ := run_hand_raises date hread.1 hread.2
    rw [hrun]

/-- Where one place cannot be read, the loop raises. -/
theorem run_hands_raises (date : Date) (hread : ¬Readable s data) : ∃ e, run (collect (split '|' data.accounts).zipIdx (hand data date)) s = (.error e, s) := by
  unfold Readable at hread
  push Not at hread
  obtain ⟨place, hplace, htrial, hbull⟩ := hread
  obtain ⟨e, hround⟩ := run_hand_raises date htrial (Option.not_isSome_iff_eq_none.1 hbull)
  exact run_collect_raises (fun place _ => hand_reads data date place s) hplace (congrArg Prod.fst hround)

/-- What a hand puts on the pipe. -/
def moved (trial : String → Bool) (data : Data) (date : Date) : List Counter :=
  (data.places.map (round trial data date)).flatMap Prod.fst

theorem count_draw_times (trial : String → Bool) (data : Data) (date : Date) (account : String) :
    (moved trial data date).count (.stactics account .draw_times) = (winners trial data).count account := by
  unfold moved winners
  induction data.places with
  | nil => rfl
  | cons place places ih =>
    rw [List.map_cons, List.flatMap_cons, List.count_append, ih, List.filter_cons]
    by_cases hwins : Wins trial data place
    · rw [round, if_pos hwins, if_pos (decide_eq_true hwins), List.map_cons, List.count_cons]
      by_cases hbull : data.bull place.2 = some 10 <;> by_cases ha : place.1 = account <;> simp [hbull, ha, Nat.add_comm]
    · rw [round, if_neg hwins, if_neg (by simpa using hwins), List.count_nil, Nat.zero_add]

theorem count_draw_last_count (trial : String → Bool) (data : Data) (date : Date) :
    (moved trial data date).count .draw_last_count = (winners trial data).length := by
  unfold moved winners
  induction data.places with
  | nil => rfl
  | cons place places ih =>
    rw [List.map_cons, List.flatMap_cons, List.count_append, ih, List.filter_cons]
    by_cases hwins : Wins trial data place
    · rw [round, if_pos hwins, if_pos (decide_eq_true hwins), List.map_cons, List.length_cons]
      by_cases hbull : data.bull place.2 = some 10 <;> simp [hbull, Nat.add_comm]
    · rw [round, if_neg hwins, if_neg (by simpa using hwins), List.count_nil, Nat.zero_add]

end Loop

/-! ## What the events do -/

section Events
variable {localtime : Int → Date} {s : Store} {data : Data} {account : String} {today : Date}

theorem run_openning : run is_niuniu_active_openning s = (.ok (decide s.Open), s) := by
  unfold is_niuniu_active_openning
  rw [call_bind, run_step]
  cases hactive : s.active with
  | none =>
    have hclosed : ¬s.Open := by
      rintro ⟨info, hinfo, -⟩
      rw [hactive] at hinfo
      cases hinfo
    rw [decide_eq_false hclosed]
    simp [Exec.exec, hactive]
  | some info =>
    have hiff : s.Open ↔ info.status.getD "" = "1" := by
      unfold Store.Open
      rw [hactive]
      cases hstatus : info.status <;> simp [hstatus]
    have hsame : decide s.Open = decide (info.status.getD "" = "1") := decide_eq_decide.2 hiff
    simp [Exec.exec, hactive, hsame]

theorem foldl_hincrby (l : List Counter) (s : Store) :
    (l.map Write.hincrby).foldl applyWrite s = { s with counts := incrAll (l.map (·, 1)) s.counts } := by
  induction l generalizing s with
  | nil => rfl
  | cons counter l ih => exact ih _

/-- A hand that is taken and can be read. -/
def Taken (localtime : Int → Date) (s : Store) (data : Data) : Prop :=
  s.Open ∧ Admitted s (localtime (data.start_time / 1000)) ∧ Readable s data

instance : Decidable (Taken localtime s data) :=
  inferInstanceAs (Decidable (s.Open ∧ Admitted s (localtime (data.start_time / 1000)) ∧ Readable s data))

theorem step_taken (h : Taken localtime s data) : step localtime (.balance data) s =
    { s with counts := incrAll ((moved s.trial data (localtime (data.start_time / 1000))).map (·, 1)) s.counts } := by
  obtain ⟨hopen, ⟨start, hstart, hdate⟩, hread⟩ := h
  obtain ⟨start_date, htext, hday⟩ := Option.bind_eq_some_iff.1 hstart
  have hhands : run (collect (split '|' data.accounts).zipIdx (hand data (localtime (data.start_time / 1000)))) s =
      (.ok (data.places.map (round s.trial data (localtime (data.start_time / 1000)))), s) :=
    run_collect fun place hplace => run_hand (hread place hplace)
  show (run (on_niuniu_balance localtime data) s).2 = _
  unfold on_niuniu_balance get_next_day
  rw [run_bind_ok run_openning, decide_eq_true hopen, Bool.not_true, if_neg (by decide), call_bind, run_step]
  dsimp only [Exec.exec]
  rw [htext, orRaise_some, ret_bind, hday, orRaise_some, ret_bind, pure_eq, ret_bind, decide_eq_true hdate, Bool.not_true,
    if_neg (by decide)]
  rw [run_bind_ok hhands]
  exact foldl_hincrby _ s

theorem step_not_taken (h : ¬Taken localtime s data) : step localtime (.balance data) s = s := by
  show (run (on_niuniu_balance localtime data) s).2 = _
  unfold on_niuniu_balance get_next_day
  rw [run_bind_ok run_openning]
  by_cases hopen : s.Open
  · rw [decide_eq_true hopen, Bool.not_true, if_neg (by decide), call_bind, run_step]
    dsimp only [Exec.exec]
    cases htext : s.active.bind Active.start_date with
    | none => rfl
    | some start_date =>
      rw [orRaise_some, ret_bind]
      cases hday : strptime (day start_date) with
      | none => rfl
      | some start =>
        have hstart : s.start = some start := by rw [Store.start, htext]; exact hday
        rw [orRaise_some, ret_bind, pure_eq, ret_bind]
        by_cases hdate : localtime (data.start_time / 1000) < start.plus 4
        · rw [decide_eq_true hdate, Bool.not_true, if_neg (by decide)]
          have hread : ¬Readable s data := fun hread => h ⟨hopen, ⟨start, hstart, hdate⟩, hread⟩
          obtain ⟨e, hhands⟩ := run_hands_raises (localtime (data.start_time / 1000)) hread
          exact congrArg Prod.snd (run_bind_error hhands)
        · rw [decide_eq_false hdate]
          rfl
  · rw [decide_eq_false hopen]
    rfl

theorem step_share_gains (hopen : s.Open) (htrial : s.trial account = false) (hnew : s.shared today account = false) :
    step localtime (.share account today) s =
      { s with
        shared := update s.shared today (update (s.shared today) account true)
        counts := incrAll ([Counter.stactics account .share_count, .stactics account .draw_times, .draw_last_count].map (·, 1)) s.counts } := by
  show (run (on_niuniu_share account today) s).2 = _
  unfold on_niuniu_share
  rw [run_bind_ok run_openning, decide_eq_true hopen]
  simp [call, Exec.exec, htrial, hnew, applyWrite]

theorem step_share_stays (h : ¬(s.Open ∧ s.trial account = false ∧ s.shared today account = false)) :
    step localtime (.share account today) s = s := by
  show (run (on_niuniu_share account today) s).2 = s
  unfold on_niuniu_share
  rw [run_bind_ok run_openning]
  by_cases hopen : s.Open
  · cases htrial : s.trial account <;> cases hshared : s.shared today account <;> simp_all [call, Exec.exec]
  · rw [decide_eq_false hopen]
    rfl

end Events

/-! ## The chances after an event -/

/-- One more chance for each account of the list, and as many more in all. -/
structure Gain (l : List String) (s s' : Store) : Prop where
  draw : ∀ account, val s'.counts (.stactics account .draw_times) = val s.counts (.stactics account .draw_times) + l.count account
  last : val s'.counts .draw_last_count = val s.counts .draw_last_count + l.length

section Gains
variable {localtime : Int → Date} {s : Store} {t : State} {account : String} {today : Date} {l l' : List String}

theorem gain_nil (s : Store) : Gain [] s s := ⟨fun _ => (Int.add_zero _).symm, (Int.add_zero _).symm⟩

theorem gain_balance (localtime : Int → Date) (s : Store) (data : Data) :
    Gain (if Taken localtime s data then winners s.trial data else []) s (step localtime (.balance data) s) := by
  by_cases htaken : Taken localtime s data
  · rw [if_pos htaken, step_taken htaken]
    refine ⟨fun account => ?_, ?_⟩
    · dsimp only
      rw [val_incrAll, net_ones, count_draw_times]
    · dsimp only
      rw [val_incrAll, net_ones, count_draw_last_count]
  · rw [if_neg htaken, step_not_taken htaken]
    exact gain_nil s

theorem gain_share (localtime : Int → Date) (s : Store) (account : String) (today : Date) :
    Gain (if s.Open ∧ s.trial account = false ∧ s.shared today account = false then [account] else []) s
      (step localtime (.share account today) s) := by
  by_cases hgains : s.Open ∧ s.trial account = false ∧ s.shared today account = false
  · rw [if_pos hgains, step_share_gains hgains.1 hgains.2.1 hgains.2.2]
    refine ⟨fun other => ?_, ?_⟩
    · dsimp only
      rw [val_incrAll, net_ones]
      by_cases ho : other = account <;> simp [ho, List.count_cons]
    · dsimp only
      rw [val_incrAll, net_ones]
      simp
  · rw [if_neg hgains, step_share_stays hgains]
    exact gain_nil s

/-- The sum is kept whoever gains; the chances are those expected where those gain who are to. -/
theorem Fair.next_iff {t' : State} (h : Fair t) (hgain : Gain l t.store t'.store)
    (hdue : ∀ account, t'.hands account + (t'.days account).card = t.hands account + (t.days account).card + l'.count account) :
    Fair t' ↔ ∀ account, l.count account = l'.count account := by
  have hsum := h.sum.add_count l
  rw [← hgain.last] at hsum
  constructor
  · intro hfair account
    have hbefore := h.gains account
    have hafter := hfair.gains account
    have hd := hdue account
    rw [hgain.draw account, hbefore] at hafter
    omega
  · intro hcount
    refine ⟨fun account => ?_, ?_⟩
    · have hd := hdue account
      rw [hgain.draw account, h.gains account, hcount account]
      omega
    · simp only [hgain.draw]
      exact hsum

theorem count_ite_iff {P Q : Prop} [Decidable P] [Decidable Q] :
    (∀ account, (if P then l else []).count account = (if Q then l else []).count account) ↔ (l ≠ [] → (P ↔ Q)) := by
  cases l with
  | nil => simp
  | cons first l =>
    constructor
    · intro hcount _
      have hfirst := hcount first
      by_cases hp : P <;> by_cases hq : Q <;> simp [hp, hq] at hfirst ⊢
    · intro hiff account
      have hpq := hiff (List.cons_ne_nil first l)
      by_cases hq : Q
      · rw [if_pos (hpq.2 hq), if_pos hq]
      · rw [if_neg fun hp => hq (hpq.1 hp), if_neg hq]

end Gains

/-! ## Runs -/

section Runs
variable {localtime : Int → Date} {s : State}

/-- What the events keep: the chances, and each day's accounts in the set of the day. -/
structure Kept (s : State) : Prop where
  fair : Fair s
  shared : ∀ today account, s.store.shared today account = true ↔ today ∈ s.days account

theorem kept_new (active : Option Active) (trial : String → Bool) : Kept (.new active trial) where
  fair := ⟨fun _ => rfl, sums_zero⟩
  shared _ _ := iff_of_false Bool.false_ne_true (Finset.notMem_empty _)

/-- A hand brings the chances it is to bring exactly where it fits. -/
theorem balance_fair_iff (h : Kept s) (data : Data) :
    Fair (next localtime (.balance data) s) ↔ Fits localtime (.balance data) s := by
  have hdue : ∀ account, (next localtime (.balance data) s).hands account + ((next localtime (.balance data) s).days account).card =
      s.hands account + (s.days account).card + (due localtime s.store data).count account := by
    intro account
    show s.hands account + (due localtime s.store data).count account + (s.days account).card = _
    omega
  rw [h.fair.next_iff (gain_balance localtime s.store data) hdue]
  unfold due
  rw [count_ite_iff]
  unfold Taken Fits
  by_cases hopen : s.store.Open
  · simp [hopen, iff_comm]
  · simp [hopen]

theorem days_share (account : String) (today : Date) (other : String) : (next localtime (.share account today) s).days other =
    if other = account ∧ s.store.Open ∧ s.store.trial account = false then insert today (s.days other) else s.days other := rfl

theorem share_fair (h : Kept s) (account : String) (today : Date) : Fair (next localtime (.share account today) s) := by
  refine (h.fair.next_iff (gain_share localtime s.store account today) fun other => ?_).2 fun _ => rfl
  rw [days_share]
  show s.hands other + 0 + _ = _
  have hshared := h.shared today account
  by_cases hsharer : other = account
  · subst hsharer
    by_cases hcounts : s.store.Open ∧ s.store.trial other = false
    · rw [if_pos ⟨rfl, hcounts⟩]
      by_cases hdone : today ∈ s.days other
      · rw [Finset.insert_eq_of_mem hdone, if_neg (by simp [hshared.2 hdone])]
        rfl
      · have hnew : s.store.shared today other = false := by simpa [hdone] using hshared
        rw [Finset.card_insert_of_notMem hdone, if_pos ⟨hcounts.1, hcounts.2, hnew⟩, List.count_singleton_self]
        rfl
    · rw [if_neg fun hc => hcounts hc.2, if_neg fun hc => hcounts ⟨hc.1, hc.2.1⟩]
      rfl
  · rw [if_neg fun hc => hsharer hc.1]
    have hnone : (if s.store.Open ∧ s.store.trial account = false ∧ s.store.shared today account = false then [account] else []).count
        other = 0 := by
      split <;> simp [Ne.symm hsharer]
    rw [hnone]
    rfl

theorem shared_share (h : Kept s) (account : String) (today date : Date) (other : String) :
    (next localtime (.share account today) s).store.shared date other = true ↔ date ∈ (next localtime (.share account today) s).days other := by
  show (step localtime (.share account today) s.store).shared date other = true ↔ _
  rw [days_share]
  have hshared := h.shared date other
  by_cases hgains : s.store.Open ∧ s.store.trial account = false ∧ s.store.shared today account = false
  · rw [step_share_gains hgains.1 hgains.2.1 hgains.2.2]
    dsimp only
    by_cases hsharer : other = account
    · rw [if_pos ⟨hsharer, hgains.1, hgains.2.1⟩, Finset.mem_insert, ← hshared, hsharer]
      by_cases hdate : date = today
      · simp [hdate]
      · simp [hdate]
    · rw [if_neg fun hc => hsharer hc.1, ← hshared]
      by_cases hdate : date = today
      · rw [hdate, update_self, update_of_ne hsharer]
      · rw [update_of_ne hdate]
  · rw [step_share_stays hgains]
    by_cases hcounts : other = account ∧ s.store.Open ∧ s.store.trial account = false
    · -- the day is already in the set of the account
      have hdone : s.store.shared today account = true := by simpa [hcounts.2.1, hcounts.2.2] using hgains
      have hday := (h.shared today other).1 (hcounts.1 ▸ hdone)
      rw [if_pos hcounts, Finset.insert_eq_of_mem hday]
      exact hshared
    · rw [if_neg hcounts]
      exact hshared

theorem Kept.next (h : Kept s) (r : Req) (hfits : Fits localtime r s) : Kept (next localtime r s) := by
  cases r with
  | balance data =>
    refine ⟨(balance_fair_iff h data).2 hfits, fun date other => ?_⟩
    have hsame : (step localtime (.balance data) s.store).shared = s.store.shared := by
      by_cases htaken : Taken localtime s.store data
      · rw [step_taken htaken]
      · rw [step_not_taken htaken]
    show (step localtime (.balance data) s.store).shared date other = true ↔ _
    rw [hsame]
    exact h.shared date other
  | share account today => exact ⟨share_fair h account today, shared_share h account today⟩
  | schedule active => exact ⟨⟨h.fair.gains, h.fair.sum⟩, h.shared⟩
  | regroup trial => exact ⟨⟨h.fair.gains, h.fair.sum⟩, h.shared⟩

/-- For every order of events, every account has exactly the chances of its hands and its days, and the sum of all is kept,
exactly when every hand that brings a chance is of the first three days, or there are none on it. -/
theorem chances_right_iff (localtime : Int → Date) (active : Option Active) (trial : String → Bool) (rs : List Req) :
    All (next localtime) (fun r s => Fair (next localtime r s)) rs (.new active trial) ↔
      All (next localtime) (Fits localtime) rs (.new active trial) := by
  apply all_iff (I := Kept)
  · intro r s h
    cases r with
    | balance data => exact balance_fair_iff h data
    | share account today => exact iff_of_true (share_fair h account today) trivial
    | schedule active => exact iff_of_true ⟨h.fair.gains, h.fair.sum⟩ trivial
    | regroup trial => exact iff_of_true ⟨h.fair.gains, h.fair.sum⟩ trivial
  · exact fun r s hfits h => h.next r hfits
  · exact kept_new active trial

end Runs

/-- `time.localtime` in UTC, from the first day of 2018 on. -/
def utc (seconds : Int) : Date := (⟨2018, 0, by decide, by decide⟩ : Date).plus ((seconds - 1514764800) / 86400).toNat

/-- An event that was opened on the first day of 2018. -/
def january : Active := ⟨some "2018-01-01 00:00:00", some "1"⟩

/-- A hand of the fourth day, at noon. -/
def late : Data := ⟨1515067200000, "7", "10"⟩

/-- The hand of the fourth day brings a chance. -/
theorem fourth_day_gains : ¬All (next utc) (fun r s => Fair (next utc r s)) [.balance late] (.new (some january) fun _ => false) := by
  rintro ⟨hfair, -⟩
  have hgains := hfair.gains "7"
  revert hgains
  decide +kernel

end FishWeb.Niuniu
