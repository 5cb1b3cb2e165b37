import FishWeb.Xxl.Model
/-!
# What a round does

A round is refused and changes nothing, or it is accepted and its increments are
the list `increments`: `round_cases` says so once, and the theorems about money
read only that.
-/
open Python Prog Counters

namespace FishWeb.Xxl

/-- A program changes the hashes by the increments of its trace. -/
theorem run_hash {α : Type} (p : Handler α) (s : St) :
    (run p s).2.hash = incrAll (trace (Field × Int) p s) s.hash := by
  induction p generalizing s with
  | ret a => rfl
  | raise e => rfl
  | cmd c k ih => rw [run_step, ih, exec_hash, trace_step, incrAll_append]

/-! ## The parts of a round -/

/-- The currency a round is settled in, by the stakes and the budget. -/
def moneyTypeOf (s : St) (uid : String) (bets : Bets) : MoneyType :=
  if bets.values.any (fun _bet => 1 ≤ _bet / 100) ∧ val s.hash (surplus uid) ≠ 0 ∧
      bets.values.sum / 100 ≤ val s.hash (surplus uid) then .HONOR else .GOLD

/-- The increments of an accepted round. The prize is added twice: under the
name of the currency, and in the end to the coin. -/
def increments (now : Clock) (uid : String) (money : MoneyType) (total win : Int) : List (Field × Int) :=
  (coin uid, -total) :: ((.user uid, money.name), win) ::
    (recordPipe now total win money uid ++ (if money = .HONOR then honorTradePipe now uid win else []) ++
      playRecordPipe now uid money ++ [(coin uid, win)])

/-- The round is accepted: what its checks found, and what its board scored. -/
structure Accepts (req : Req) (s : St) (bets : Bets) (money : MoneyType) (datas : List Rep) : Prop where
  user : s.users req.uid = true
  parsed : req.bets = some bets
  funds : ∃ gold, s.hash (coin req.uid) = some gold ∧ bets.values.sum ≤ gold
  settled : money = moneyTypeOf s req.uid bets
  maths : money = .HONOR → mathsListTypeLen bets = some ()
  scored : ∃ odds board, s.odds = some odds ∧ req.board = some board ∧ board.mapM (score money odds bets) = some datas

/-- What the settlement answers, and its increments. -/
theorem run_settle (req : Req) (money : MoneyType) (total : Int) (datas : List Rep) (s : St) :
    (∃ gold honor, (run (settle req money total datas) s).1 =
      .ok (.done ⟨(datas.map Rep.score).sum, money.flag, datas, gold, honor⟩)) ∧
    trace (Field × Int) (settle req money total datas) s =
      increments req.now req.uid money total (datas.map Rep.score).sum := by
  cases money with
  | GOLD =>
    simp [settle, increments, call, saveXxlRecord, saveXxlPlayRecord]
  | HONOR =>
    simp [settle, increments, call, saveXxlRecord, saveXxlPlayRecord, saveXxlHonorTrade]

/-- The board scores, or the round raises before it touches the store. -/
theorem run_playBoard (req : Req) (bets : Bets) (money : MoneyType) {odds : OddsTable} {s : St}
    (ho : s.odds = some odds) :
    (∃ board datas, req.board = some board ∧ board.mapM (score money odds bets) = some datas ∧
      (money = .HONOR → mathsListTypeLen bets = some ()) ∧
      run (playBoard req bets money) s = run (settle req money bets.values.sum datas) s ∧
      trace (Field × Int) (playBoard req bets money) s =
        trace (Field × Int) (settle req money bets.values.sum datas) s) ∨
    ((∃ e, (run (playBoard req bets money) s).1 = .error e) ∧ trace (Field × Int) (playBoard req bets money) s = []) := by
  cases hb : req.board with
  | none =>
    right
    cases money with
    | GOLD => simp [playBoard, hb]
    | HONOR => cases hm : mathsListTypeLen bets <;> simp [playBoard, hb, hm]
  | some board =>
    cases hd : board.mapM (score money odds bets) with
    | none =>
      right
      cases money with
      | GOLD => simp [playBoard, hb, call, ho, hd]
      | HONOR => cases hm : mathsListTypeLen bets <;> simp [playBoard, hb, hm, call, ho, hd]
    | some datas =>
      cases money with
      | GOLD => left; exact ⟨board, datas, rfl, hd, nofun, by simp [playBoard, hb, call, ho, hd]⟩
      | HONOR =>
        cases hm : mathsListTypeLen bets with
        | none => right; simp [playBoard, hm]
        | some u => left; exact ⟨board, datas, rfl, hd, fun _ => rfl, by simp [playBoard, hb, hm, call, ho, hd]⟩

/-- The currency is chosen without touching the store. -/
theorem run_roundMoneyType (uid : String) (bets : Bets) (s : St) :
    run (roundMoneyType uid bets) s = (.ok (moneyTypeOf s uid bets), s) ∧
      trace (Field × Int) (roundMoneyType uid bets) s = [] := by
  unfold moneyTypeOf roundMoneyType
  by_cases hmore : bets.values.any (fun _bet => 1 ≤ _bet / 100)
  · simp [hmore, getMoneyType, call, val]
  · simp [hmore]

/-- A round is accepted, with these increments and this prize, or changes nothing. -/
theorem round_cases (req : Req) (s : St) :
    (∃ bets money datas gold honor, Accepts req s bets money datas ∧
      (run (xiaoxiaoleRun req) s).1 =
        .ok (.done ⟨(datas.map Rep.score).sum, money.flag, datas, gold, honor⟩) ∧
      trace (Field × Int) (xiaoxiaoleRun req) s =
        increments req.now req.uid money bets.values.sum (datas.map Rep.score).sum) ∨
    ((∀ d, (run (xiaoxiaoleRun req) s).1 ≠ .ok (.done d)) ∧ trace (Field × Int) (xiaoxiaoleRun req) s = []) := by
  cases hu : s.users req.uid with
  | false => right; simp [xiaoxiaoleRun, call, hu]
  | true =>
  cases hb : req.bets with
  | none => right; simp [xiaoxiaoleRun, call, hu, hb]
  | some bets =>
  cases hg : s.hash (coin req.uid) with
  | none => right; simp [xiaoxiaoleRun, call, hu, hb, hg]
  | some gold =>
  by_cases hfunds : gold < bets.values.sum
  · right; simp [xiaoxiaoleRun, call, hu, hb, hg, hfunds]
  cases ho : s.odds with
  | none => right; simp [xiaoxiaoleRun, call, hu, hb, hg, hfunds, ho]
  | some odds =>
  -- the checks have passed: what is left is the choice of the currency and the board
  obtain ⟨hmoney, htrace⟩ := run_roundMoneyType req.uid bets s
  have hrun : run (xiaoxiaoleRun req) s = run (playBoard req bets (moneyTypeOf s req.uid bets)) s := by
    simp only [xiaoxiaoleRun, call, cmd_bind, ret_bind, run_step, exec_existsUser, hu, hb, exec_hget, hg, hfunds,
      exec_existsOdds, ho, Bool.not_true, Option.isSome_some, Bool.false_eq_true, if_false]
    exact run_bind_ok hmoney
  have htr : trace (Field × Int) (xiaoxiaoleRun req) s =
      trace (Field × Int) (playBoard req bets (moneyTypeOf s req.uid bets)) s := by
    simp only [xiaoxiaoleRun, call, cmd_bind, ret_bind, trace_step, exec_existsUser, hu, hb, exec_hget, hg, hfunds,
      exec_existsOdds, ho, Bool.not_true, Option.isSome_some, Bool.false_eq_true, if_false, note_existsUser, note_hget,
      note_existsOdds, List.nil_append]
    rw [trace_bind_ok hmoney, htrace, List.nil_append]
  rw [hrun, htr]
  rcases run_playBoard req bets (moneyTypeOf s req.uid bets) ho with
    ⟨board, datas, hboard, hd, hm, hplay, hptr⟩ | ⟨⟨e, he⟩, hptr⟩
  · left
    obtain ⟨⟨g, h, hset⟩, hstr⟩ := run_settle req (moneyTypeOf s req.uid bets) bets.values.sum datas s
    refine ⟨bets, _, datas, g, h, ⟨hu, hb, ⟨gold, hg, Int.not_lt.1 hfunds⟩, rfl, hm, ⟨odds, board, ho, hboard, hd⟩⟩, ?_, ?_⟩
    · rw [hplay, hset]
    · rw [hptr, hstr]
  · right
    exact ⟨fun d => by rw [he]; nofun, hptr⟩

end FishWeb.Xxl
