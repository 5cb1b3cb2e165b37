import FishWeb.Question.Model
import FishWeb.Lib.Runs
import Mathlib.Data.List.Perm.Subperm
/-!
# One submission a day, and no more prizes than there are

Requests one after another, with the scored submissions and the openings of a run
kept beside the state. `answer_cases` says what a submission comes to. The counts of
the prizes keep to their maxima in every run. Only a submission with a right answer
is marked, as many right answers as are sent are rewarded, and nothing asks for the
opening.
-/
open Python Prog Counters Calendar Dice Runs FishWeb.Common

namespace FishWeb.Question

open Function (update)

/-! ## What a submission comes to -/

/-- The number of right answers. -/
def right (f : Setup) (answers : List (String × Option String)) : Nat :=
  answers.countP fun a =>
    let info := (f.questions.find? (·.1 = a.1)).map Prod.snd
    decide (info.isSome ∧ a.2.isSome ∧ info.map (·.correct) = a.2)

/-- The prizes that are left, each as often as it is left. -/
def left (now : Date) (s : St) (rewards : List Item) : List Item :=
  rewards.flatMap fun item => List.replicate (item.max - val s.count (item.id, now)).toNat item

/-- What is given for `n` right answers out of a pool. -/
def deal (goldPreMin goldPreMax : Nat) : Draws → Nat → List Item → List (Item ⊕ Nat)
  | _, 0, _ => []
  | draws, n + 1, probabilitys =>
    match choice Err.IndexError probabilitys draws with
    | .ok (item, draws) => .inl item :: deal goldPreMin goldPreMax draws n (probabilitys.erase item)
    | .error _ =>
      .inr (goldPreMin + draws 0 % (goldPreMax - goldPreMin + 1)) ::
        deal goldPreMin goldPreMax (fun i => draws (i + 1)) n probabilitys

/-- The prizes among what is given. -/
def prizes (pool : List (Item ⊕ Nat)) : List Item := pool.filterMap fun | .inl item => some item | .inr _ => none

/-- What the prizes add to the counts. -/
def counted (now : Date) (pool : List (Item ⊕ Nat)) : List ((Nat × Date) × Int) :=
  (prizes pool).map fun item => ((item.id, now), 1)

section Score
variable (now : Date) (draws : Draws) (s : St)

theorem run_countCorrect (answers : List (String × Option String)) :
    run (countCorrect answers) s = (.ok (right s.setup answers), s) := by
  induction answers with
  | nil => rfl
  | cons a answers ih =>
    obtain ⟨tid, ans⟩ := a
    have hget : run (send (Own.getEntry tid) : Handler _) s =
        (.ok ((s.setup.questions.find? (·.1 = tid)).map Prod.snd), s) := rfl
    unfold countCorrect right
    rw [run_bind_ok hget, run_bind_ok ih, List.countP_cons]
    split
    · next h => rw [if_pos (decide_eq_true h)]; rfl
    · next h => rw [if_neg (by simpa only [decide_eq_true_eq] using h)]; rfl

theorem run_getProbabilitys (rewards : List Item) : run (getProbabilitys now rewards) s = (.ok (left now s rewards), s) := by
  induction rewards with
  | nil => rfl
  | cons item rewards ih =>
    have hget : run (send (Own.getCount item.id now) : Handler _) s = (.ok (s.count (item.id, now)), s) := rfl
    unfold getProbabilitys
    rw [run_bind_ok hget, run_bind_ok ih]
    rfl

theorem run_sendRewards (goldPreMin goldPreMax n : Nat) (probabilitys : List Item) :
    run (sendRewards now goldPreMin goldPreMax draws n probabilitys) s =
      (.ok (deal goldPreMin goldPreMax draws n probabilitys),
        { s with count := incrAll (counted now (deal goldPreMin goldPreMax draws n probabilitys)) s.count }) := by
  induction n generalizing s draws probabilitys with
  | zero => rfl
  | succ n ih =>
    unfold sendRewards deal
    cases choice Err.IndexError probabilitys draws with
    | error e =>
      have hgold : run (ofExcept (randint goldPreMin goldPreMax draws) : Handler _) s =
          (.ok (goldPreMin + draws 0 % (goldPreMax - goldPreMin + 1), fun i => draws (i + 1)), s) := rfl
      dsimp only
      rw [run_bind_ok hgold, run_bind_ok (ih _ s probabilitys)]
      rfl
    | ok drawn =>
      obtain ⟨item, draws⟩ := drawn
      have hincr : run (send (Own.hincrbyCount item.id now) : Handler _) s =
          (.ok (), { s with count := incrby s.count (item.id, now) 1 }) := rfl
      dsimp only
      rw [run_bind_ok hincr, run_bind_ok (ih draws _ (probabilitys.erase item))]
      rfl

/-- The user whose answers are scored. -/
structure Scores (now : Date) (sid : String) (answers : List (String × Option String)) (s : St) (account : String) : Prop where
  session : (s.setup.shared.session sid).map Prod.fst = some account
  inTime : ∃ msg, run (checkSpringTime now 4 : Handler _) s = (.ok (true, msg), s)
  notYet : s.answer account ≠ some now
  enough : min ACTIVICE_QUESTION_SELECT s.setup.questions.length ≤ answers.length

/-- What is given for the right answers. -/
def St.given (s : St) (now : Date) (draws : Draws) (answers : List (String × Option String)) : List (Item ⊕ Nat) :=
  deal (ACTIVICE_QUESTION_GOLD_MIN / right s.setup answers) (ACTIVICE_QUESTION_GOLD_MAX / right s.setup answers) draws
    (right s.setup answers) (left now s s.setup.rewards.items)

/-- The state that a submission with a right answer leaves. -/
def St.rewarded (s : St) (now : Date) (draws : Draws) (account : String) (answers : List (String × Option String)) : St :=
  { s with
    count := incrAll (counted now (s.given now draws answers)) s.count
    amounts := incrAll (answerPipe now account (fmt (s.setup.shared.userTable account)) (right s.setup answers)
      (s.given now draws answers)) s.amounts
    answer := update s.answer account (some now) }

variable {now} {s} {sid account : String} {answers : List (String × Option String)}

theorem answer_scores (h : Scores now sid answers s account) :
    run (answer now draws sid (.map answers)) s = run (scoreAnswers now draws account answers) s := by
  obtain ⟨msg, hspring⟩ := h.inTime
  have hget : run (getInfoBySid sid : Handler _) s = (.ok (s.setup.shared.info sid), s) := run_getInfoBySid sid s
  have haccount : fmt (s.setup.shared.info sid).account = account := by
    rw [Shared.info, h.session, fmt_some]
  have hlive : run (ask (.existsSession sid) : Handler Bool) s = (.ok true, s) := by
    have hsome : (s.setup.shared.session sid).isSome = true := by
      have := congrArg Option.isSome h.session
      simpa using this
    show (Except.ok (s.setup.shared.session sid).isSome, s) = _
    rw [hsome]
  have hlast : run (send (Own.getAnswer account) : Handler _) s = (.ok (s.answer account), s) := rfl
  have hkeys : run (send Own.hkeys : Handler _) s = (.ok (s.setup.questions.map Prod.fst), s) := rfl
  unfold answer
  rw [if_neg (by simp), run_bind_ok hget, run_bind_ok hlive, if_neg (by simp), run_bind_ok hspring]
  simp only [Bool.not_true, Bool.false_eq_true, if_false, haccount]
  rw [run_bind_ok hlast, if_neg h.notYet, run_bind_ok hkeys, List.length_map]
  rw [if_neg (Nat.not_lt.2 h.enough)]

theorem run_scoreAnswers (account : String) (answers : List (String × Option String)) :
    (run (scoreAnswers now draws account answers) s).2 =
      if right s.setup answers = 0 then s else s.rewarded now draws account answers := by
  unfold scoreAnswers
  rw [run_bind_ok (run_countCorrect s answers)]
  split
  · rfl
  · have hget : run (send Own.hgetallRewards : Handler _) s = (.ok s.setup.rewards.items, s) := rfl
    rw [run_bind_ok hget, run_bind_ok (run_getProbabilitys now s s.setup.rewards.items),
      run_bind_ok (run_sendRewards now draws s _ _ _ _)]
    rfl

/-- A submission that is not scored changes nothing. -/
theorem answer_not {submitted : Submitted} (h : ∀ account answers, submitted = .map answers → ¬Scores now sid answers s account) :
    (run (answer now draws sid submitted) s).2 = s := by
  have hget : run (getInfoBySid sid : Handler _) s = (.ok (s.setup.shared.info sid), s) := run_getInfoBySid sid s
  have hlive : run (ask (.existsSession sid) : Handler Bool) s = (.ok (s.setup.shared.session sid).isSome, s) := rfl
  unfold answer
  split
  · rfl
  rw [run_bind_ok hget, run_bind_ok hlive]
  cases hsession : s.setup.shared.session sid with
  | none => rfl
  | some r =>
  rw [if_neg (by simp)]
  obtain ⟨out, hspring⟩ : ∃ out, run (checkSpringTime now 4 : Handler _) s = (out, s) :=
    ⟨_, Prod.ext rfl (run_checkSpringTime now 4 s)⟩
  rcases out with e | ⟨isIntime, msg⟩
  · rw [run_bind_error hspring]
  rw [run_bind_ok hspring]
  cases isIntime with
  | false => rfl
  | true =>
  have hlast : run (send (Own.getAnswer (fmt (s.setup.shared.info sid).account)) : Handler _) s =
      (.ok (s.answer (fmt (s.setup.shared.info sid).account)), s) := rfl
  have hkeys : run (send Own.hkeys : Handler _) s = (.ok (s.setup.questions.map Prod.fst), s) := rfl
  simp only [Bool.not_true, Bool.false_eq_true, if_false]
  rw [run_bind_ok hlast]
  split
  · rfl
  next hnotYet =>
  rw [run_bind_ok hkeys, List.length_map]
  cases submitted with
  | unreadable => rfl
  | other len =>
    cases len with
    | none => rfl
    | some len =>
      dsimp only
      rw [orRaise_some, ret_bind]
      split <;> rfl
  | map answers =>
    dsimp only
    split
    · rfl
    next henough =>
    have haccount : (s.setup.shared.info sid).account = some r.1 := by simp [Shared.info, hsession]
    rw [haccount, fmt_some] at hnotYet
    exact absurd ⟨by rw [hsession]; rfl, ⟨msg, hspring⟩, hnotYet, Nat.not_lt.1 henough⟩ (h r.1 answers rfl)

end Score

/-! ## The counts of the prizes -/

/-- What is given was in the pool, and no prize twice. -/
theorem prizes_deal (goldPreMin goldPreMax : Nat) (draws : Draws) (n : Nat) (probabilitys : List Item) :
    (prizes (deal goldPreMin goldPreMax draws n probabilitys)).Subperm probabilitys := by
  induction n generalizing draws probabilitys with
  | zero => exact List.nil_subperm
  | succ n ih =>
    unfold deal
    cases h : choice Err.IndexError probabilitys draws with
    | error e => exact ih _ probabilitys
    | ok drawn =>
      obtain ⟨item, draws⟩ := drawn
      have hmem := mem_of_choice h
      exact ((List.subperm_cons item).2 (ih draws _)).trans (List.perm_cons_erase hmem).symm.subperm

/-- A prize is in the pool as often as it is left. -/
theorem countP_left (now : Date) (s : St) {rewards : List Item} (hnodup : (rewards.map (·.id)).Nodup) {item : Item}
    (hitem : item ∈ rewards) :
    (left now s rewards).countP (·.id = item.id) = (item.max - val s.count (item.id, now)).toNat := by
  induction rewards with
  | nil => cases hitem
  | cons i rewards ih =>
    obtain ⟨hnew, hnodup⟩ := List.nodup_cons.1 hnodup
    have hcons : left now s (i :: rewards) =
        List.replicate (i.max - val s.count (i.id, now)).toNat i ++ left now s rewards := rfl
    rw [hcons, List.countP_append, List.countP_replicate]
    rcases List.mem_cons.1 hitem with rfl | hitem
    · -- no other prize has its id
      have hzero : (left now s rewards).countP (·.id = item.id) = 0 := by
        refine List.countP_eq_zero.2 fun j hj => ?_
        obtain ⟨k, hk, hjk⟩ := List.mem_flatMap.1 hj
        obtain rfl := List.eq_of_mem_replicate hjk
        have hne : j.id ≠ item.id := fun h => hnew (List.mem_map.2 ⟨j, hk, h⟩)
        simpa using hne
      rw [hzero]
      simp
    · have hne : i.id ≠ item.id := fun h => hnew (List.mem_map.2 ⟨item, hitem, h.symm⟩)
      rw [ih hnodup hitem, if_neg (by simpa using hne), Nat.zero_add]

theorem net_counted (now : Date) (pool : List (Item ⊕ Nat)) (rid : Nat) (d : Date) :
    net (counted now pool) (rid, d) = if now = d then ((prizes pool).countP (·.id = rid) : Int) else 0 := by
  unfold counted
  induction prizes pool with
  | nil => simp
  | cons item l ih =>
    rw [List.map_cons, net_cons, ih, List.countP_cons]
    by_cases hd : now = d <;> by_cases hi : item.id = rid <;> simp [hd, hi]
    omega

/-- A submission gives no more of a prize than is left of it. -/
theorem count_rewarded (s : St) (now : Date) (draws : Draws) (account : String) (answers : List (String × Option String))
    {item : Item} (hitem : item ∈ s.setup.rewards.items) (d : Date) :
    val (s.rewarded now draws account answers).count (item.id, d) ≤ max item.max (val s.count (item.id, d)) := by
  have hle := (prizes_deal (ACTIVICE_QUESTION_GOLD_MIN / right s.setup answers)
    (ACTIVICE_QUESTION_GOLD_MAX / right s.setup answers) draws (right s.setup answers) (left now s s.setup.rewards.items)).countP_le
      (·.id = item.id)
  rw [countP_left now s s.setup.rewards.nodup hitem] at hle
  have hcount : val (s.rewarded now draws account answers).count (item.id, d) =
      val s.count (item.id, d) + net (counted now (s.given now draws answers)) (item.id, d) := val_incrAll _ _ _
  rw [hcount, net_counted]
  unfold St.given
  split
  · next hd =>
    subst hd
    omega
  · omega

/-! ## Runs -/

/-- The account that a request is let in as. -/
def admits (now : Date) (sid : String) (s : St) : Option String :=
  match s.setup.shared.session sid, (run (checkSpringTime now 4 : Handler _) s).1 with
  | some (account, _), .ok (true, _) => some account
  | _, _ => none

/-- The submission that a request has scored: of whom, on which day, and how many answers are right. -/
def Req.scored : Req → St → List (String × Date × Nat)
  | .answer now _ sid (.map answers), s =>
    match admits now sid s with
    | some account =>
      if s.answer account ≠ some now ∧ min ACTIVICE_QUESTION_SELECT s.setup.questions.length ≤ answers.length then
        [(account, now, right s.setup answers)]
      else []
    | none => []
  | _, _ => []

/-- The opening that a request makes. -/
def Req.opened : Req → St → List (String × Date)
  | .opening now sid, s => (admits now sid s).toList.map (·, now)
  | _, _ => []

/-- The state, and what has happened in the run. -/
structure Hist where
  st : St
  scored : List (String × Date × Nat)
  opened : List (String × Date)

def hstep (r : Req) (h : Hist) : Hist := ⟨step r h.st, h.scored ++ r.scored h.st, h.opened ++ r.opened h.st⟩

/-- The scored submissions of an account on a day. -/
def Hist.of (h : Hist) (account : String) (d : Date) : List (String × Date × Nat) :=
  h.scored.filter fun x => x.1 = account ∧ x.2.1 = d

/-- A submission that is scored has a right answer and no more right ones than are asked, of a user who opened the
questionnaire today and has not submitted on a later day. -/
def Sound (r : Req) (h : Hist) : Prop :=
  ∀ x ∈ r.scored h.st, x.2.2 ≠ 0 ∧ x.2.2 ≤ ACTIVICE_QUESTION_SELECT ∧ h.st.start x.1 = some x.2.1 ∧
    ∀ d, h.st.answer x.1 = some d → ¬x.2.1 < d

/-- Who is rewarded has opened the questionnaire that day, in the run or before it. -/
def Opened (s : St) (r : Req) (h : Hist) : Prop :=
  ∀ x ∈ r.scored h.st, 0 < x.2.2 → (x.1, x.2.1) ∈ h.opened ∨ s.start x.1 = some x.2.1

section Step
variable {now : Date} {sid : String} {s : St}

theorem scored_map (now : Date) (draws : Draws) (sid : String) (answers : List (String × Option String)) (s : St) :
    (Req.answer now draws sid (.map answers)).scored s =
      match admits now sid s with
      | some account =>
        if s.answer account ≠ some now ∧ min ACTIVICE_QUESTION_SELECT s.setup.questions.length ≤ answers.length then
          [(account, now, right s.setup answers)]
        else []
      | none => [] := rfl

theorem opened_opening (now : Date) (sid : String) (s : St) :
    (Req.opening now sid).opened s = (admits now sid s).toList.map (·, now) := rfl

theorem admits_eq_some {account : String} : admits now sid s = some account ↔
    (s.setup.shared.session sid).map Prod.fst = some account ∧
      ∃ msg, run (checkSpringTime now 4 : Handler _) s = (.ok (true, msg), s) := by
  obtain ⟨out, hspring⟩ : ∃ out, run (checkSpringTime now 4 : Handler _) s = (out, s) :=
    ⟨_, Prod.ext rfl (run_checkSpringTime now 4 s)⟩
  unfold admits
  rw [hspring]
  cases s.setup.shared.session sid with
  | none => simp
  | some r => rcases out with e | ⟨_ | _, msg⟩ <;> simp

/-- Who is scored: let in, not marked for today, with enough answers. -/
theorem scores_iff {answers : List (String × Option String)} {account : String} :
    Scores now sid answers s account ↔ admits now sid s = some account ∧ s.answer account ≠ some now ∧
      min ACTIVICE_QUESTION_SELECT s.setup.questions.length ≤ answers.length := by
  rw [admits_eq_some]
  exact ⟨fun ⟨h₁, h₂, h₃, h₄⟩ => ⟨⟨h₁, h₂⟩, h₃, h₄⟩, fun ⟨⟨h₁, h₂⟩, h₃, h₄⟩ => ⟨h₁, h₂, h₃, h₄⟩⟩

/-- The command only reads. -/
def Reads : ⦃β : Type⦄ → Cmd β → Prop
  | _, .own (.setStart _ _) | _, .own (.hincrbyCount _ _) | _, .own (.execute _ _ _) => False
  | _, _ => True

theorem only_question (now : Date) (draws : Draws) (sid : String) : Only Reads (question now draws sid) := by
  have hask : ∀ ⦃β : Type⦄ (a : Ask β), Reads (With.ask a) := fun _ _ => trivial
  apply only_bind Reads (only_getInfoBySid hask sid)
  intro info
  refine ⟨trivial, fun live => (only_ite Reads _ _ _).2 ⟨fun _ => trivial, fun _ => ?_⟩⟩
  apply only_bind Reads (only_checkSpringTime hask now 4)
  rintro ⟨isIntime, msg⟩
  refine (only_ite Reads _ _ _).2 ⟨fun _ => trivial, fun _ => ⟨trivial, fun _ => ⟨trivial, fun _ => ?_⟩⟩⟩
  refine (only_ite Reads _ _ _).2 ⟨fun _ => trivial, fun _ => ⟨trivial, fun questions => ?_⟩⟩
  show Only Reads (ofExcept _ >>= _)
  refine only_bind Reads (only_ofExcept Reads _) fun drawn => ?_
  refine only_bind Reads (only_collect Reads ?_) fun _ => trivial
  intro key _
  refine ⟨trivial, fun entry => ?_⟩
  cases entry <;> trivial

/-- Being shown the questions changes nothing. -/
theorem run_question (now : Date) (draws : Draws) (sid : String) (s : St) : (run (question now draws sid) s).2 = s := by
  refine (only_question now draws sid).run_inv (I := (· = s)) ?_ rfl
  rintro β (a | c) s' hc rfl
  · rfl
  · cases c <;> first | rfl | exact hc.elim

theorem run_setQuestionStart (now : Date) (sid : String) (s : St) : (run (setQuestionStart now sid) s).2 =
    match admits now sid s with
    | some account => { s with start := update s.start account (some now) }
    | none => s := by
  have hget : run (getInfoBySid sid : Handler _) s = (.ok (s.setup.shared.info sid), s) := run_getInfoBySid sid s
  have hlive : run (ask (.existsSession sid) : Handler Bool) s = (.ok (s.setup.shared.session sid).isSome, s) := rfl
  obtain ⟨out, hspring⟩ : ∃ out, run (checkSpringTime now 4 : Handler _) s = (out, s) :=
    ⟨_, Prod.ext rfl (run_checkSpringTime now 4 s)⟩
  unfold setQuestionStart admits
  rw [run_bind_ok hget, run_bind_ok hlive, hspring]
  cases hsession : s.setup.shared.session sid with
  | none => rfl
  | some r =>
  rw [if_neg (by simp)]
  rcases out with e | ⟨isIntime, msg⟩
  · rw [run_bind_error hspring]
  rw [run_bind_ok hspring]
  cases isIntime with
  | false => rfl
  | true =>
    have haccount : fmt (s.setup.shared.info sid).account = r.1 := by
      rw [Shared.info, hsession]
      rfl
    simp only [Bool.not_true, Bool.false_eq_true, if_false, haccount]
    rfl

/-- What a request does to the state. -/
theorem step_cases (r : Req) (s : St) :
    (r.scored s = [] ∧ r.opened s = [] ∧ step r s = s) ∨
    (∃ account now, r.scored s = [] ∧ r.opened s = [(account, now)] ∧
      step r s = { s with start := update s.start account (some now) }) ∨
    (∃ account now draws answers, r.scored s = [(account, now, right s.setup answers)] ∧ r.opened s = [] ∧
      s.answer account ≠ some now ∧
      step r s = if right s.setup answers = 0 then s else s.rewarded now draws account answers) := by
  cases r with
  | question now draws sid => exact .inl ⟨rfl, rfl, run_question now draws sid s⟩
  | opening now sid =>
    have hrun := run_setQuestionStart now sid s
    rw [opened_opening]
    cases hadmits : admits now sid s with
    | none =>
      rw [hadmits] at hrun
      exact .inl ⟨rfl, rfl, hrun⟩
    | some account =>
      rw [hadmits] at hrun
      exact .inr (.inl ⟨account, now, rfl, rfl, hrun⟩)
  | answer now draws sid submitted =>
    by_cases h : ∃ account answers, submitted = .map answers ∧ Scores now sid answers s account
    · obtain ⟨account, answers, rfl, hscores⟩ := h
      obtain ⟨hadmits, hnotYet, henough⟩ := scores_iff.1 hscores
      refine .inr (.inr ⟨account, now, draws, answers, ?_, rfl, hnotYet, ?_⟩)
      · rw [scored_map, hadmits]
        exact if_pos ⟨hnotYet, henough⟩
      · unfold step Req.handler
        rw [answer_scores draws hscores, run_scoreAnswers]
    · have hnot : ∀ account answers, submitted = .map answers → ¬Scores now sid answers s account :=
        fun account answers hmap hscores => h ⟨account, answers, hmap, hscores⟩
      refine .inl ⟨?_, rfl, answer_not draws hnot⟩
      cases submitted with
      | unreadable => rfl
      | other len => rfl
      | map answers =>
        rw [scored_map]
        cases hadmits : admits now sid s with
        | none => rfl
        | some account =>
          exact if_neg fun hscored => hnot account answers rfl (scores_iff.2 ⟨hadmits, hscored⟩)

end Step

/-! ## What every run keeps -/

/-- A prize that was not over its maximum is not over it after any request. -/
theorem count_hstep (r : Req) (h : Hist) {item : Item} (hitem : item ∈ h.st.setup.rewards.items) (d : Date) :
    (hstep r h).st.setup = h.st.setup ∧
      (val h.st.count (item.id, d) ≤ item.max → val (hstep r h).st.count (item.id, d) ≤ item.max) := by
  have hst : (hstep r h).st = step r h.st := rfl
  rw [hst]
  rcases step_cases r h.st with ⟨-, -, hstep⟩ | ⟨account, now, -, -, hstep⟩ | ⟨account, now, draws, answers, -, -, -, hstep⟩
  · rw [hstep]
    exact ⟨rfl, id⟩
  · rw [hstep]
    exact ⟨rfl, id⟩
  · rw [hstep]
    split
    · exact ⟨rfl, id⟩
    · exact ⟨rfl, fun hle => (count_rewarded h.st now draws account answers hitem d).trans (max_le le_rfl hle)⟩

/-- What holds in a run whose requests are sound. -/
structure Kept (s : St) (h : Hist) : Prop where
  once : (h.scored.map fun x => (x.1, x.2.1)).Nodup
  marked : ∀ x ∈ h.scored, ∃ d, h.st.answer x.1 = some d ∧ ¬d < x.2.1
  few : ∀ x ∈ h.scored, x.2.2 ≤ ACTIVICE_QUESTION_SELECT
  opened : ∀ account d, h.st.start account = some d → (account, d) ∈ h.opened ∨ s.start account = some d

theorem kept_start (s : St) : Kept s ⟨s, [], []⟩ where
  once := List.nodup_nil
  marked _ hx := absurd hx List.not_mem_nil
  few _ hx := absurd hx List.not_mem_nil
  opened _ _ hd := .inr hd

/-- An opening. -/
theorem Kept.open {s : St} {h : Hist} (hk : Kept s h) (account : String) (now : Date) :
    Kept s ⟨{ h.st with start := update h.st.start account (some now) }, h.scored, h.opened ++ [(account, now)]⟩ where
  once := hk.once
  marked := hk.marked
  few := hk.few
  opened a d hd := by
    simp only [Function.update_apply] at hd
    split at hd
    · next ha =>
      cases hd
      subst ha
      exact .inl (List.mem_append_right _ List.mem_cons_self)
    · exact (hk.opened a d hd).imp_left (List.mem_append_left _)

/-- A submission with right answers, of a user without a mark of today or later. -/
theorem Kept.score {s : St} {h : Hist} (hk : Kept s h) {account : String} {now : Date} {n : Nat} (draws : Draws)
    (answers : List (String × Option String)) (hnotYet : h.st.answer account ≠ some now)
    (hlater : ∀ d, h.st.answer account = some d → ¬now < d) (hfew : n ≤ ACTIVICE_QUESTION_SELECT) :
    Kept s ⟨h.st.rewarded now draws account answers, h.scored ++ [(account, now, n)], h.opened⟩ where
  once := by
    rw [List.map_append, List.nodup_append]
    refine ⟨hk.once, List.nodup_singleton _, ?_⟩
    intro p hp q hq hpq
    obtain ⟨⟨a, d, k⟩, hx, hxp⟩ := List.mem_map.1 hp
    rw [List.map_singleton, List.mem_singleton] at hq
    obtain ⟨rfl, rfl⟩ := Prod.mk.inj (hxp.trans (hpq.trans hq))
    -- the mark is neither before nor after the day, so it is of the day
    obtain ⟨e, hmark, hbefore⟩ := hk.marked _ hx
    have heq : e = d := Date.dayNumber_injective (Nat.le_antisymm (Nat.not_lt.1 (hlater e hmark)) (Nat.not_lt.1 hbefore))
    exact hnotYet (heq ▸ hmark)
  marked x hx := by
    rcases List.mem_append.1 hx with hx | hx
    · obtain ⟨d, hmark, hbefore⟩ := hk.marked x hx
      by_cases ha : x.1 = account
      · rw [ha] at hmark
        refine ⟨now, by simp [St.rewarded, ha], fun hlt => hbefore ?_⟩
        exact Nat.lt_of_le_of_lt (Nat.not_lt.1 (hlater d hmark)) hlt
      · exact ⟨d, by simpa [St.rewarded, Function.update_apply, ha] using hmark, hbefore⟩
    · obtain rfl := List.mem_singleton.1 hx
      exact ⟨now, by simp [St.rewarded], Nat.lt_irrefl _⟩
  few x hx := by
    rcases List.mem_append.1 hx with hx | hx
    · exact hk.few x hx
    · obtain rfl := List.mem_singleton.1 hx
      exact hfew
  opened := hk.opened

theorem kept_hstep {s : St} (r : Req) (h : Hist) (hs : Sound r h) (hk : Kept s h) : Kept s (hstep r h) := by
  have hst : hstep r h = ⟨step r h.st, h.scored ++ r.scored h.st, h.opened ++ r.opened h.st⟩ := rfl
  rw [hst]
  rcases step_cases r h.st with ⟨hscored, hopened, hstep⟩ | ⟨account, now, hscored, hopened, hstep⟩ |
    ⟨account, now, draws, answers, hscored, hopened, hnotYet, hstep⟩
  · rw [hscored, hopened, hstep, List.append_nil, List.append_nil]
    exact hk
  · rw [hscored, hopened, hstep, List.append_nil]
    exact hk.open account now
  · obtain ⟨hright, hfew, -, hlater⟩ := hs _ (hscored ▸ List.mem_singleton_self _)
    rw [hscored, hopened, hstep, List.append_nil, if_neg hright]
    exact hk.score draws answers hnotYet hlater hfew

theorem opened_of_kept {s : St} (r : Req) (h : Hist) (hs : Sound r h) (hk : Kept s h) : Opened s r h := by
  rintro ⟨account, now, n⟩ hx -
  obtain ⟨-, -, hstart, -⟩ := hs _ hx
  exact hk.opened account now hstart

/-- The scored submissions of a user on a day are at most one, with no more right answers than are asked. -/
theorem Kept.limits {s : St} {h : Hist} (hk : Kept s h) (account : String) (d : Date) :
    (h.of account d).length ≤ 1 ∧ ((h.of account d).map (·.2.2)).sum ≤ ACTIVICE_QUESTION_SELECT := by
  have hsub : (h.of account d).Sublist h.scored := List.filter_sublist
  have hall : ∀ x ∈ h.of account d, (x.1, x.2.1) = (account, d) := by
    intro x hx
    have hx := (List.mem_filter.1 hx).2
    simpa using hx
  have hnodup := hk.once.sublist (hsub.map fun x => (x.1, x.2.1))
  match hof : h.of account d with
  | [] => exact ⟨Nat.zero_le 1, Nat.zero_le _⟩
  | [x] =>
    refine ⟨Nat.le_refl 1, ?_⟩
    have hx := hk.few x (hsub.subset (hof ▸ List.mem_singleton_self x))
    simpa using hx
  | x :: y :: l =>
    rw [hof] at hnodup hall
    have hxy : (x.1, x.2.1) = (y.1, y.2.1) :=
      (hall x List.mem_cons_self).trans (hall y (List.mem_cons_of_mem x List.mem_cons_self)).symm
    refine absurd ?_ (List.nodup_cons.1 hnodup).1
    dsimp only
    rw [hxy]
    exact List.mem_cons_self

/-- In every run no prize goes over its maximum. Where every submission that is scored has a right answer, and no more
right ones than are asked, of a user who opened the questionnaire, there is one a day, rewarded for no more than are
asked, and only after the opening. -/
theorem question_limits (s : St) (rs : List Req) :
    (∀ item ∈ s.setup.rewards.items, ∀ d, val s.count (item.id, d) ≤ item.max →
      val (after hstep rs ⟨s, [], []⟩).st.count (item.id, d) ≤ item.max) ∧
    (All hstep Sound rs ⟨s, [], []⟩ → All hstep (Opened s) rs ⟨s, [], []⟩ ∧
      ∀ account d, ((after hstep rs ⟨s, [], []⟩).of account d).length ≤ 1 ∧
        (((after hstep rs ⟨s, [], []⟩).of account d).map (·.2.2)).sum ≤ ACTIVICE_QUESTION_SELECT) := by
  constructor
  · intro item hitem d hle
    have hkept : (after hstep rs ⟨s, [], []⟩).st.setup = s.setup ∧
        val (after hstep rs ⟨s, [], []⟩).st.count (item.id, d) ≤ item.max := by
      refine after_keeps (I := fun h : Hist => h.st.setup = s.setup ∧ val h.st.count (item.id, d) ≤ item.max) ?_ rs ⟨rfl, hle⟩
      rintro r h ⟨hsetup, hle⟩
      obtain ⟨hsame, hcount⟩ := count_hstep r h (hsetup ▸ hitem) d
      exact ⟨hsame.trans hsetup, hcount hle⟩
    exact hkept.2
  · intro hs
    refine ⟨all_of_inv kept_hstep opened_of_kept hs (kept_start s), fun account d => ?_⟩
    exact (after_inv kept_hstep hs (kept_start s)).limits account d

/-! ### Without the opening -/

def demoEntry : Entry := ⟨"", ["A", "B"], 1, "0"⟩

/-- A user with a session, five questions, and one prize a day. -/
def demo : St where
  setup := {
    shared := {
      session := fun sid => if sid = "s" then some ("a", "1") else none
      platform := fun _ => none
      kick := fun _ => false
      userTable := fun _ => some "users:1"
      isUser := fun _ => true
      active := fun n => if n = 4 then some (some "2024-01-01", some "2024-12-31") else none }
    questions := [("1", demoEntry), ("2", demoEntry), ("3", demoEntry), ("4", demoEntry), ("5", demoEntry)]
    rewards := ⟨[⟨1, "红包", 1, 1⟩], by decide⟩ }
  answer := fun _ => none
  start := fun _ => none
  count := fun _ => none
  amounts := fun _ => none

def demoDay : Date := ⟨2024, 40, by decide⟩

/-- The answer `ans` to each of the questions. -/
def demoAnswers (tids : List String) (ans : String) : Submitted := .map (tids.map (·, some ans))

/-- The answers are sent without opening the questionnaire, first wrong and then right, and to more questions than are
asked. -/
theorem question_scored_twice :
    let h := after hstep [.answer demoDay id "s" (demoAnswers ["1", "2", "3", "4"] "1"),
      .answer demoDay id "s" (demoAnswers ["1", "2", "3", "4", "5"] "0")] ⟨demo, [], []⟩
    h.of "a" demoDay = [("a", demoDay, 0), ("a", demoDay, 5)] ∧ h.opened = [] ∧ demo.start "a" = none ∧
      ACTIVICE_QUESTION_SELECT = 4 := by
  decide +kernel

/-- A questionnaire opened and then answered. -/
def demoRun : List Req := [.opening demoDay "s", .answer demoDay id "s" (demoAnswers ["1", "2", "3", "4"] "0")]

theorem question_limits_opened :
    (after hstep demoRun ⟨demo, [], []⟩).of "a" demoDay = [("a", demoDay, 4)] ∧
      ((after hstep demoRun ⟨demo, [], []⟩).of "a" demoDay).length ≤ 1 ∧
      val (after hstep demoRun ⟨demo, [], []⟩).st.count (1, demoDay) ≤ 1 := by
  have hopening : (Req.opening demoDay "s").scored demo = [] := rfl
  have hscored : (Req.answer demoDay id "s" (demoAnswers ["1", "2", "3", "4"] "0")).scored
      (hstep (.opening demoDay "s") ⟨demo, [], []⟩).st = [("a", demoDay, 4)] := by decide +kernel
  have hs : All hstep Sound demoRun ⟨demo, [], []⟩ := by
    refine ⟨fun x hx => absurd (hopening ▸ hx) List.not_mem_nil, fun x hx => ?_, trivial⟩
    obtain rfl := List.mem_singleton.1 (hscored ▸ hx)
    refine ⟨by decide, by decide, by decide +kernel, fun d hd => ?_⟩
    have hnone : (hstep (.opening demoDay "s") ⟨demo, [], []⟩).st.answer "a" = none := by decide +kernel
    rw [hnone] at hd
    cases hd
  obtain ⟨hcount, hlimits⟩ := question_limits demo demoRun
  refine ⟨by decide +kernel, ((hlimits hs).2 "a" demoDay).1, ?_⟩
  exact hcount ⟨1, "红包", 1, 1⟩ List.mem_cons_self demoDay (by decide)

end FishWeb.Question
