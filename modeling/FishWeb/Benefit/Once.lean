import FishWeb.Benefit.Model
import FishWeb.Lib.Serial
/-!
# Rewards, at most as often as allowed

Any requests, interleaved command by command. A reward is a ration: its mark
counts the uses. `outside_handler` says how each handler goes about the ration of
any reward: it tests the mark, then pays and marks, or marks and pays. Two
requests that test one mark before either has written it may both be paid.
-/
open Python Prog Counters Calendar Pool Ration FishWeb.Common

namespace FishWeb.Benefit

/-! ## The rewards as rations -/

/-- How often the store says that the reward was taken. -/
def Reward.uses (s : St) : Reward → Int
  | .benefit day uid => val s.benefit (day, uid)
  | .signMonth month account day => if (s.receive (month, account)).getD noReceive day = some 0 then 0 else 1
  | .share day uid => if uid ∈ s.sharing (.take day) then 1 else 0
  | .code account => if s.code account = some "1" then 1 else 0

/-- How often it may be taken. -/
def Reward.limit (f : Setup) : Reward → Int
  | .benefit _ _ => toInt f.save_times
  | .signMonth _ _ _ | .share _ _ | .code _ => 1

def Ev.pays (r : Reward) : Ev → Bool
  | .paid r' _ _ => r' = r
  | .tested _ | .marked _ => false

def Reward.ration (r : Reward) (f : Setup) : Ration Ev St where
  uses s := r.uses s
  limit := r.limit f
  tests e := e == .tested r.mark
  marks e := e == .marked r.mark
  hands e := e.pays r

/-- What no reward writes is as it was. -/
def Fixed (f : Setup) (s : St) : Prop := s.setup = f

theorem exec_fixed {f : Setup} ⦃β : Type⦄ (c : Cmd β) (s : St) (h : Fixed f s) : Fixed f (Exec.exec c s).2 := by
  cases c with
  | ask a => exact h
  | own c => cases c <;> exact h

/-! ## Which commands concern a reward -/

/-- The command tests or writes the mark of the reward, or pays it. -/
def Own.concerns {β : Type} (r : Reward) : Own β → Prop
  | .getBenefit day uid | .takeBenefit day uid _ _ => r.mark = .benefit day uid
  | .getReceive month account | .hsetReceive month account _ => r.mark = .receive month account
  | .inSharing (.take day) uid | .takeShare day uid _ _ => r.mark = .share day uid
  | .getCode account | .setCode account _ => r.mark = .code account
  | .hincrbyCoin r' _ _ => r' = r
  | _ => False

section Quiet
variable (f : Setup) (r : Reward)

theorem quiet_ask ⦃β : Type⦄ (a : Ask β) : Quiet (Fixed f) (r.ration f) (With.ask a : Cmd β) :=
  fun _ _ => ⟨rfl, rfl, rfl, rfl⟩

/-- The mark is as it was. -/
theorem uses_own {β : Type} {c : Own β} (h : ¬c.concerns r) (s : St) : r.uses (Exec.exec c s).2 = r.uses s := by
  cases c with
  | takeBenefit day uid user_table n =>
    cases r with
    | benefit day' uid' =>
      have hne : ¬(day' = day ∧ uid' = uid) := by simpa [Own.concerns, Reward.mark] using h
      have hne' : ¬((day, uid) = (day', uid')) := fun h => hne ⟨(congrArg Prod.fst h).symm, (congrArg Prod.snd h).symm⟩
      simp only [Reward.uses, Exec.exec, val_incrby, if_neg hne', Int.add_zero]
    | _ => rfl
  | hsetReceive month account receive =>
    cases r with
    | signMonth month' account' day' =>
      have hne : ¬(month' = month ∧ account' = account) := by simpa [Own.concerns, Reward.mark] using h
      simp [Reward.uses, Exec.exec, hne]
    | _ => rfl
  | takeShare day uid user_table share_coin =>
    cases r with
    | share day' uid' =>
      have hne : ¬(day' = day ∧ uid' = uid) := by simpa [Own.concerns, Reward.mark] using h
      simp [Reward.uses, Exec.exec, SetTable.mem_add, SetTable.mem_remove, hne]
    | _ => rfl
  | setCode account value =>
    cases r with
    | code account' =>
      have hne : account' ≠ account := by simpa [Own.concerns, Reward.mark] using h
      simp [Reward.uses, Exec.exec, hne]
    | _ => rfl
  | _ => rfl

/-- Nothing of the reward is shown. -/
theorem note_own {β : Type} {c : Own β} (h : ¬c.concerns r) (b : β) {e : Ev} (he : e ∈ (Note.note c b : List Ev)) :
    e ≠ .tested r.mark ∧ e ≠ .marked r.mark ∧ e.pays r = false := by
  have hpays : ∀ r' t n, r'.mark ≠ r.mark → (Ev.paid r' t n).pays r = false := by
    intro r' t n hr
    exact decide_eq_false fun heq => hr (congrArg Reward.mark heq)
  cases c with
  | getBenefit day uid =>
    obtain rfl := List.mem_singleton.1 he
    simpa [Own.concerns, Ev.pays, eq_comm] using h
  | takeBenefit day uid user_table n =>
    rcases List.mem_cons.1 he with rfl | he
    · simpa [Own.concerns, Ev.pays, eq_comm] using h
    · obtain rfl := List.mem_singleton.1 he
      exact ⟨nofun, nofun, hpays _ _ _ (Ne.symm h)⟩
  | getReceive month account =>
    obtain rfl := List.mem_singleton.1 he
    simpa [Own.concerns, Ev.pays, eq_comm] using h
  | hincrbyCoin r' t n =>
    obtain rfl := List.mem_singleton.1 he
    simpa [Own.concerns, Ev.pays] using h
  | hsetReceive month account receive =>
    obtain rfl := List.mem_singleton.1 he
    simpa [Own.concerns, Ev.pays, eq_comm] using h
  | inSharing k uid =>
    cases k with
    | take day =>
      obtain rfl := List.mem_singleton.1 he
      simpa [Own.concerns, Ev.pays, eq_comm] using h
    | _ => cases he
  | takeShare day uid user_table share_coin =>
    rcases List.mem_cons.1 he with rfl | he
    · simpa [Own.concerns, Ev.pays, eq_comm] using h
    · obtain ⟨n, -, rfl⟩ := List.mem_map.1 he
      exact ⟨nofun, nofun, hpays _ _ _ (Ne.symm h)⟩
  | getCode account =>
    obtain rfl := List.mem_singleton.1 he
    simpa [Own.concerns, Ev.pays, eq_comm] using h
  | setCode account value =>
    obtain rfl := List.mem_singleton.1 he
    simpa [Own.concerns, Ev.pays, eq_comm] using h
  | _ => cases he

theorem quiet_own {β : Type} {c : Own β} (h : ¬c.concerns r) : Quiet (Fixed f) (r.ration f) (With.own c : Cmd β) := by
  intro s _
  refine ⟨uses_own r h s, ?_, ?_, ?_⟩
  · exact List.any_eq_false.2 fun e he => by simpa [Reward.ration] using (note_own r h _ he).1
  · exact List.any_eq_false.2 fun e he => by simpa [Reward.ration] using (note_own r h _ he).2.1
  · exact List.countP_eq_zero.2 fun e he => by simpa [Reward.ration] using (note_own r h _ he).2.2

theorem quiet_spring (curTime : Date) (active_id : Nat) :
    Only (Quiet (Fixed f) (r.ration f)) (checkSpringTime curTime active_id : Handler (Bool × String)) :=
  only_checkSpringTime (quiet_ask f r) curTime active_id

end Quiet

/-! ## What each handler does about a reward -/

section Handlers
variable {f : Setup} {r : Reward}

/-- The checks that most handlers begin with. -/
theorem outside_session {sid : String} {k : Info → Except Refusal String → Handler Reply}
    (h : ∀ info res, Outside (Fixed f) (r.ration f) (k info res)) :
    Outside (Fixed f) (r.ration f) (getInfoBySid sid >>= fun info => checkSessionVerfiy sid info >>= k info) := by
  apply outside_bind (only_getInfoBySid (quiet_ask f r) sid)
  intro info
  exact outside_bind (only_checkSessionVerfiy (quiet_ask f r) sid info) (h info)

theorem outside_ask {β : Type} {a : Ask β} {k : β → Handler Reply} (hk : ∀ b, Outside (Fixed f) (r.ration f) (k b)) :
    Outside (Fixed f) (r.ration f) (ask a >>= k) :=
  outside_cmd (quiet_ask f r a) fun _ _ => hk _

theorem outside_own {β : Type} {c : Own β} (h : ¬c.concerns r) {k : β → Handler Reply}
    (hk : ∀ b, Outside (Fixed f) (r.ration f) (k b)) : Outside (Fixed f) (r.ration f) (send c >>= k) :=
  outside_cmd (quiet_own f r h) fun _ _ => hk _

/-- The test of the mark of the reward. -/
theorem outside_tested {β : Type} {c : Own β} (huses : ∀ s, r.uses (Exec.exec c s).2 = r.uses s)
    (hnote : ∀ b, Note.note c b = [Ev.tested r.mark]) {k : β → Handler Reply}
    (hk : ∀ s, Fixed f s → Window (Fixed f) (r.ration f) (r.uses s) 0 (k (Exec.exec c s).1)) :
    Outside (Fixed f) (r.ration f) (send c >>= k) := by
  refine outside_test (fun s _ => ⟨huses s, ?_⟩) hk
  have hevs : (Note.note (With.own c : Cmd β) (Exec.exec (With.own c) s).1 : List Ev) = [.tested r.mark] := hnote _
  rw [hevs]
  exact ⟨rfl, rfl, by simp [Reward.ration]⟩

theorem window_own {β : Type} {m : Int} {c : Own β} (h : ¬c.concerns r) {k : β → Handler Reply}
    (hk : ∀ s, Fixed f s → Window (Fixed f) (r.ration f) m 0 (k (Exec.exec c s).1)) :
    Window (Fixed f) (r.ration f) m 0 (send c >>= k) :=
  window_cmd (by simp) (quiet_own f r h) fun s hs _ => hk s hs

/-- The mark of the reward is written. -/
theorem window_marked {β : Type} {m : Int} {q : Nat} (a : Nat) {c : Own β} (hle : m + q ≤ max (r.limit f) m)
    (hmarks : ∀ b, (Note.note c b).any (r.ration f).marks = true)
    (huses : ∀ s, r.uses s = m → m + q + (Note.note c (Exec.exec c s).1).countP (Ev.pays r) + a ≤ r.uses (Exec.exec c s).2 ∧
      r.uses (Exec.exec c s).2 ≤ max (r.limit f) m)
    {k : β → Handler Reply} (hk : ∀ b, Spends (Fixed f) (r.ration f) a (k b)) :
    Window (Fixed f) (r.ration f) m q (send c >>= k) :=
  window_mark a hle (fun s _ hm => ⟨hmarks _, huses s hm⟩) fun _ _ => hk _

theorem spends_own {β : Type} {a : Nat} {c : Own β} (h : ¬c.concerns r) {k : β → Handler Reply}
    (hk : ∀ b, Spends (Fixed f) (r.ration f) a (k b)) : Spends (Fixed f) (r.ration f) a (send c >>= k) :=
  spends_cmd (quiet_own f r h) fun _ _ => hk _

/-! ### The benefit -/

/-- The count is read, and compared with the times allowed. -/
theorem outside_canTakeBenefit {now : Clock} {uid user_table : String} {k : Int × String × BenefitInfo → Handler Reply}
    (hother : r ≠ .benefit now.date uid → ∀ res, Outside (Fixed f) (r.ration f) (k res))
    (hsame : r = .benefit now.date uid → ∀ m code msg info, (0 ≤ code → m < r.limit f) →
      Window (Fixed f) (r.ration f) m 0 (k (code, msg, info))) :
    Outside (Fixed f) (r.ration f) (canTakeBenefit now uid user_table >>= k) := by
  unfold canTakeBenefit
  simp only [Prog.bind_assoc]
  apply outside_cmd (quiet_own f r id)
  rintro s rfl
  apply outside_own id
  intro user_coin
  by_cases hr : r = .benefit now.date uid
  · subst hr
    apply outside_tested (fun _ => rfl) (fun _ => rfl)
    intro s' _
    apply window_bind (quiet_spring _ _ _ _)
    rintro ⟨isSpring, msg⟩
    dsimp only
    split
    · rw [pure_eq, ret_bind]
      exact hsame rfl _ _ _ _ fun h => absurd h (by decide)
    · next hlt =>
      rw [pure_eq, ret_bind]
      exact hsame rfl _ _ _ _ fun _ => Int.not_le.1 hlt
  · apply outside_own (fun h => hr (by cases r <;> simp_all [Own.concerns, Reward.mark]))
    intro count
    apply outside_bind (quiet_spring _ _ _ _)
    rintro ⟨isSpring, msg⟩
    dsimp only
    split
    · exact hother hr _
    · exact hother hr _

theorem outside_doTakeBenefit (now : Clock) (sid token : String) :
    Outside (Fixed f) (r.ration f) (doTakeBenefit now sid token) := by
  apply outside_session
  intro info res
  cases res with
  | error e => trivial
  | ok user_table =>
  apply outside_own id
  intro server_token
  dsimp only
  split
  · trivial
  apply outside_canTakeBenefit
  · rintro hr ⟨code, msg, benefit_info⟩
    have hmark : r.mark ≠ .benefit now.date (fmt info.uid) := fun h => hr (by cases r <;> simp_all [Reward.mark])
    dsimp only
    split
    · trivial
    apply outside_own (by simpa [Own.concerns] using hmark)
    intro _
    exact outside_own id fun _ => trivial
  · rintro rfl m code msg benefit_info hlt
    dsimp only
    split
    · rfl
    next hcode =>
    -- the count is below the limit, and the pipeline raises it by one
    have hroom := hlt (Int.not_lt.1 hcode)
    apply window_marked 0 (by simp) (fun _ => by simp [Note.note, Reward.ration, Reward.mark])
    · intro s hm
      have huses : (Reward.benefit now.date (fmt info.uid)).uses
          (Exec.exec (Own.takeBenefit now.date (fmt info.uid) user_table benefit_info.benefit_coin) s).2 = m + 1 := by
        rw [← hm]
        simp [Reward.uses, Exec.exec, val_incrby]
      rw [huses]
      refine ⟨?_, by omega⟩
      simp [Note.note, Ev.pays]
    · intro _
      exact spends_own id fun _ => trivial

theorem outside_getBenefitInfo (now : Clock) (sid token : String) :
    Outside (Fixed f) (r.ration f) (getBenefitInfo now sid token) := by
  apply outside_session
  intro info res
  cases res with
  | error e => trivial
  | ok user_table =>
  apply outside_canTakeBenefit
  · rintro - ⟨code, msg, benefit⟩
    exact outside_own id fun _ => trivial
  · rintro - m code msg benefit -
    exact window_own id fun _ _ => rfl

/-! ### The thresholds of a month -/

theorem outside_doSignMonth (now : Clock) (sid day : String) : Outside (Fixed f) (r.ration f) (doSignMonth now sid day) := by
  apply outside_session
  intro info res
  cases res with
  | error e => trivial
  | ok user_table =>
  apply outside_ask
  intro userTable
  by_cases hr : r.mark = .receive now.month (fmt info.account)
  · obtain ⟨threshold, rfl⟩ : ∃ threshold, r = .signMonth now.month (fmt info.account) threshold := by
      cases r <;> simp_all [Reward.mark]
    apply outside_tested (fun _ => rfl) (fun _ => rfl)
    intro s _
    generalize hreceive : (Exec.exec (With.own (.getReceive now.month (fmt info.account)) : Cmd _) s).1.getD noReceive = receive
    have hm : (Reward.signMonth now.month (fmt info.account) threshold).uses s = if receive threshold = some 0 then 0 else 1 := by
      rw [← hreceive]
      rfl
    generalize Reward.uses s _ = m at hm ⊢
    apply window_own id
    intro _ _
    cases int day with
    | none => rfl
    | some n =>
    rw [orRaise_some, ret_bind]
    split
    · split
      · rfl
      next taken htaken =>
      cases receiveMoney day with
      | none => rfl
      | some money =>
      rw [orRaise_some, ret_bind]
      split
      · next hzero =>
        subst hzero
        by_cases hday : day = threshold
        · -- the threshold is paid, and then marked
          subst hday
          rw [if_pos htaken] at hm
          subst hm
          apply window_hand 1 (by simp)
          · exact fun _ _ => ⟨rfl, rfl, by simp [Note.note, Reward.ration, Ev.pays]⟩
          intro _ _
          apply window_marked 0 (by simp [Reward.limit]) (fun _ => by simp [Note.note, Reward.ration, Reward.mark])
          · intro s' _
            simp [Note.note, Reward.limit, Reward.uses, Exec.exec, Ev.pays]
          · exact fun _ => trivial
        · -- another one is, and the record keeps this one
          apply window_own (by simpa [Own.concerns] using hday)
          intro _ _
          apply window_marked 0 (by simp) (fun _ => by simp [Note.note, Reward.ration, Reward.mark])
          · intro s' _
            simp [Note.note, Reward.uses, Exec.exec, Ev.pays, Ne.symm hday, hm]
          · exact fun _ => trivial
      · rfl
    · rfl
  · apply outside_own (by simpa [Own.concerns] using hr)
    intro receive
    apply outside_own id
    intro number
    cases int day with
    | none => trivial
    | some n =>
    rw [orRaise_some, ret_bind]
    split
    · split
      · trivial
      · cases receiveMoney day with
        | none => trivial
        | some money =>
        rw [orRaise_some, ret_bind]
        split
        · apply outside_own (fun h => hr (by rw [← h]; rfl))
          intro _
          exact outside_own (by simpa [Own.concerns] using hr) fun _ => trivial
        · trivial
    · trivial

/-! ### Sharing -/

theorem outside_getFishShareReward (now : Clock) (sid : String) :
    Outside (Fixed f) (r.ration f) (getFishShareReward now sid) := by
  unfold getFishShareReward Share.RewardCmds.getFishShareReward
  dsimp only [shareCmds]
  apply outside_session
  intro info res
  cases res with
  | error e => trivial
  | ok user_table =>
  apply outside_own id
  intro has_share_users
  apply outside_own id
  intro is_ready_share
  by_cases hr : r.mark = .share now.date (fmt info.uid)
  · obtain rfl : r = .share now.date (fmt info.uid) := by cases r <;> simp_all [Reward.mark]
    apply outside_tested (fun _ => rfl) (fun _ => rfl)
    intro s _
    split
    · rfl
    next hnew =>
    have hm : (Reward.share now.date (fmt info.uid)).uses s = 0 := if_neg (by simpa [Exec.exec] using hnew)
    rw [hm]
    apply window_own id
    intro _ _
    split
    · rfl
    apply window_marked 0 (by simp) (fun _ => by simp [Note.note, Reward.ration, Reward.mark])
    · intro s' _
      generalize Option.getD _ "" = share_coin
      have huses : (Reward.share now.date (fmt info.uid)).uses
          (Exec.exec (Own.takeShare now.date (fmt info.uid) user_table share_coin) s').2 = 1 :=
        if_pos ((SetTable.mem_add _ _ _ _ _).2 (.inl ⟨rfl, rfl⟩))
      rw [huses]
      refine ⟨?_, by simp [Reward.limit]⟩
      -- a text that is no integer pays nothing
      cases hn : redisInt share_coin <;> simp [Note.note, Ev.pays, hn]
    · intro refused
      cases refused with
      | true => trivial
      | false => exact spends_own id fun _ => trivial
  · apply outside_own (by simpa [Own.concerns] using hr)
    intro is_take_share
    split
    · trivial
    apply outside_own id
    intro share_coin
    split
    · trivial
    apply outside_own (by simpa [Own.concerns] using hr)
    intro refused
    cases refused with
    | true => trivial
    | false => exact outside_own id fun _ => trivial

/-! ### The code -/

/-- Here the mark is written before the coins are paid. -/
theorem outside_doExchageCode (sid code : String) : Outside (Fixed f) (r.ration f) (doExchageCode sid code) := by
  apply outside_bind (only_getInfoBySid (quiet_ask f r) sid)
  intro info
  apply outside_ask
  intro live
  split
  · trivial
  by_cases hr : r.mark = .code (fmt info.account)
  · obtain rfl : r = .code (fmt info.account) := by cases r <;> simp_all [Reward.mark]
    apply outside_tested (fun _ => rfl) (fun _ => rfl)
    intro s _
    split
    · rfl
    next hnew =>
    have hm : (Reward.code (fmt info.account)).uses s = 0 := if_neg hnew
    rw [hm]
    split
    · apply window_marked 1 (by simp) (fun _ => by simp [Note.note, Reward.ration, Reward.mark])
      · intro s' _
        simp [Note.note, Reward.limit, Reward.uses, Exec.exec, Ev.pays]
      intro _
      apply spends_cmd (quiet_ask _ _ _)
      intro _ _
      apply spends_hand
      · exact fun _ _ => ⟨rfl, by simp [Note.note, Reward.ration, Ev.pays]⟩
      intro _ _ a
      exact spends_own id fun _ => trivial
    · rfl
  · apply outside_own (by simpa [Own.concerns] using hr)
    intro mark
    split
    · trivial
    split
    · apply outside_own (by simpa [Own.concerns] using hr)
      intro _
      apply outside_ask
      intro userTable
      apply outside_own (fun h => hr (by rw [← h]; rfl))
      intro _
      exact outside_own id fun _ => trivial
    · trivial

/-- Every request, and every reward. -/
theorem outside_handler (r : Reward) (f : Setup) (q : Req) : Outside (Fixed f) (r.ration f) q.handler := by
  cases q with
  | takeBenefit now sid token => exact outside_doTakeBenefit now sid token
  | getBenefitInfo now sid token => exact outside_getBenefitInfo now sid token
  | signMonth now sid day => exact outside_doSignMonth now sid day
  | share now sid => exact outside_getFishShareReward now sid
  | exchageCode sid code => exact outside_doExchageCode sid code

end Handlers

/-! ## What is credited -/

/-- What one payment of the reward may be. -/
def Reward.Worth (f : Setup) (n : Int) : Reward → Prop
  | .benefit _ _ => n = toInt f.save_money ∨ n = toInt f.save_money * 3
  | .signMonth _ _ day => receiveMoney day = some n
  | .share _ _ => f.share_coin.bind redisInt = some n
  | .code _ => n = 888888

/-- Every payment the event shows is worth its reward. -/
def Ev.Right (f : Setup) : Ev → Prop
  | .paid r _ n => r.Worth f n
  | .tested _ | .marked _ => True

/-- The command pays no more than a reward is worth. -/
def Pays (f : Setup) ⦃β : Type⦄ (c : Cmd β) : Prop := ∀ b, ∀ e ∈ (Note.note c b : List Ev), e.Right f

section Credited
variable {f : Setup}

theorem pays_ask ⦃β : Type⦄ (a : Ask β) : Pays f (With.ask a) := fun _ _ he => absurd he List.not_mem_nil

theorem pays_own {β : Type} {c : Own β} (h : ∀ b, ∀ e ∈ (Note.note c b : List Ev), ∀ r t n, e ≠ .paid r t n) :
    Pays f (With.own c) := by
  intro b e he
  cases e with
  | paid r t n => exact absurd rfl (h b _ he r t n)
  | _ => trivial

theorem issues_session {sid : String} {k : Info → Except Refusal String → Handler Reply}
    (h : ∀ info res, Issues (Fixed f) (Pays f) (k info res)) :
    Issues (Fixed f) (Pays f) (getInfoBySid sid >>= fun info => checkSessionVerfiy sid info >>= k info) := by
  apply issues_bind (only_getInfoBySid pays_ask sid)
  intro info
  exact issues_bind (only_checkSessionVerfiy pays_ask sid info) (h info)

theorem issues_ask {β : Type} {a : Ask β} {k : β → Handler Reply} (hk : ∀ b, Issues (Fixed f) (Pays f) (k b)) :
    Issues (Fixed f) (Pays f) (ask a >>= k) :=
  ⟨pays_ask a, fun _ _ => hk _⟩

theorem issues_own {β : Type} {c : Own β} (h : ∀ b, ∀ e ∈ (Note.note c b : List Ev), ∀ r t n, e ≠ .paid r t n)
    {k : β → Handler Reply} (hk : ∀ s, Fixed f s → Issues (Fixed f) (Pays f) (k (Exec.exec c s).1)) :
    Issues (Fixed f) (Pays f) (send c >>= k) :=
  ⟨pays_own h, hk⟩

/-- A command that pays what the reward is worth. -/
theorem issues_pay {β : Type} {c : Own β} (h : ∀ b, ∀ e ∈ (Note.note c b : List Ev), e.Right f) {k : β → Handler Reply}
    (hk : ∀ b, Issues (Fixed f) (Pays f) (k b)) : Issues (Fixed f) (Pays f) (send c >>= k) :=
  ⟨h, fun _ _ => hk _⟩

theorem issues_canTakeBenefit {now : Clock} {uid user_table : String} {k : Int × String × BenefitInfo → Handler Reply}
    (hk : ∀ code msg info, (Reward.benefit now.date uid).Worth f info.benefit_coin → Issues (Fixed f) (Pays f) (k (code, msg, info))) :
    Issues (Fixed f) (Pays f) (canTakeBenefit now uid user_table >>= k) := by
  unfold canTakeBenefit
  simp only [Prog.bind_assoc]
  apply issues_own (by simp [Note.note])
  rintro s rfl
  apply issues_own (by simp [Note.note])
  intro _ _
  apply issues_own (by simp [Note.note])
  intro _ _
  apply issues_bind (only_checkSpringTime pays_ask _ _)
  rintro ⟨isSpring, msg⟩
  have hworth : (Reward.benefit now.date uid).Worth s.setup
      (toInt s.setup.save_money * if isSpring = true ∧ now.hour = 19 then 3 else 1) := by
    by_cases hm : isSpring = true ∧ now.hour = 19
    · exact .inr (by rw [if_pos hm])
    · exact .inl (by rw [if_neg hm, Int.mul_one])
  dsimp only
  split
  · exact hk _ _ _ hworth
  · exact hk _ _ _ hworth

theorem issues_doTakeBenefit (now : Clock) (sid token : String) : Issues (Fixed f) (Pays f) (doTakeBenefit now sid token) := by
  apply issues_session
  intro info res
  cases res with
  | error e => trivial
  | ok user_table =>
  apply issues_own (by simp [Note.note])
  intro _ _
  split
  · trivial
  apply issues_canTakeBenefit
  intro code msg benefit_info hworth
  dsimp only
  split
  · trivial
  apply issues_pay
  · intro b e he
    rcases List.mem_cons.1 he with rfl | he
    · trivial
    · obtain rfl := List.mem_singleton.1 he
      exact hworth
  · exact fun _ => issues_own (by simp [Note.note]) fun _ _ => trivial

theorem issues_getBenefitInfo (now : Clock) (sid token : String) : Issues (Fixed f) (Pays f) (getBenefitInfo now sid token) := by
  apply issues_session
  intro info res
  cases res with
  | error e => trivial
  | ok user_table =>
  apply issues_canTakeBenefit
  intro code msg benefit _
  exact issues_own (by simp [Note.note]) fun _ _ => trivial

theorem issues_doSignMonth (now : Clock) (sid day : String) : Issues (Fixed f) (Pays f) (doSignMonth now sid day) := by
  apply issues_session
  intro info res
  cases res with
  | error e => trivial
  | ok user_table =>
  apply issues_ask
  intro userTable
  apply issues_own (by simp [Note.note])
  intro _ _
  apply issues_own (by simp [Note.note])
  intro _ _
  cases int day with
  | none => trivial
  | some n =>
  rw [orRaise_some, ret_bind]
  split
  · split
    · trivial
    · cases hmoney : receiveMoney day with
      | none => trivial
      | some money =>
      rw [orRaise_some, ret_bind]
      split
      · apply issues_pay
        · intro b e he
          obtain rfl := List.mem_singleton.1 he
          exact hmoney
        · exact fun _ => issues_own (by simp [Note.note]) fun _ _ => trivial
      · trivial
  · trivial

theorem issues_getFishShareReward (now : Clock) (sid : String) :
    Issues (Fixed f) (Pays f) (getFishShareReward now sid) := by
  unfold getFishShareReward Share.RewardCmds.getFishShareReward
  dsimp only [shareCmds]
  apply issues_session
  intro info res
  cases res with
  | error e => trivial
  | ok user_table =>
  apply issues_own (by simp [Note.note])
  intro _ _
  apply issues_own (by simp [Note.note])
  intro _ _
  apply issues_own (by simp [Note.note])
  intro _ _
  split
  · trivial
  apply issues_own (by simp [Note.note])
  rintro s rfl
  generalize hcoin : (Exec.exec Own.getShareCoin s).1.getD "" = share_coin
  split
  · trivial
  next hne =>
  apply issues_pay
  · intro b e he
    rcases List.mem_cons.1 he with rfl | he
    · trivial
    obtain ⟨n, hn, rfl⟩ := List.mem_map.1 he
    have hsome : s.setup.share_coin = some share_coin := by
      cases h : s.setup.share_coin with
      | none => exact absurd (by rw [← hcoin]; simp [Exec.exec, h]) hne
      | some c => rw [← hcoin]; simp [Exec.exec, h]
    show s.setup.share_coin.bind redisInt = some n
    rw [hsome]
    exact Option.mem_toList.1 hn
  · intro refused
    cases refused with
    | true => trivial
    | false => exact issues_own (by simp [Note.note]) fun _ _ => trivial

theorem issues_doExchageCode (sid code : String) : Issues (Fixed f) (Pays f) (doExchageCode sid code) := by
  apply issues_bind (only_getInfoBySid pays_ask sid)
  intro info
  apply issues_ask
  intro live
  split
  · trivial
  apply issues_own (by simp [Note.note])
  intro _ _
  split
  · trivial
  split
  · apply issues_own (by simp [Note.note])
    intro _ _
    apply issues_ask
    intro userTable
    apply issues_pay
    · intro b e he
      obtain rfl := List.mem_singleton.1 he
      rfl
    · exact fun _ => issues_own (by simp [Note.note]) fun _ _ => trivial
  · trivial

theorem issues_handler (q : Req) : Issues (Fixed f) (Pays f) q.handler := by
  cases q with
  | takeBenefit now sid token => exact issues_doTakeBenefit now sid token
  | getBenefitInfo now sid token => exact issues_getBenefitInfo now sid token
  | signMonth now sid day => exact issues_doSignMonth now sid day
  | share now sid => exact issues_getFishShareReward now sid
  | exchageCode sid code => exact issues_doExchageCode sid code

end Credited

/-! ## Runs -/

/-- The payments of a reward that the log shows. -/
def credits (r : Reward) (log : List (Nat × Ev)) : List Int := log.filterMap fun e =>
  match e.2 with
  | .paid r' _ n => if r' = r then some n else none
  | .tested _ | .marked _ => none

/-- To whom the log pays, and how much. -/
def payments (log : List (Nat × Ev)) : List (String × Int) := log.filterMap fun e =>
  match e.2 with
  | .paid _ userTable n => some (userTable, n)
  | .tested _ | .marked _ => none

theorem payments_append (l l' : List (Nat × Ev)) : payments (l ++ l') = payments l ++ payments l' :=
  List.filterMap_append ..

theorem length_credits (r : Reward) (f : Setup) (log : List (Nat × Ev)) : (credits r log).length = (r.ration f).handed log := by
  unfold credits handed
  rw [List.length_filterMap_eq_countP]
  congr 1
  funext e
  obtain ⟨i, e⟩ := e
  cases e with
  | paid r' t n => by_cases h : r' = r <;> simp [Reward.ration, Ev.pays, h]
  | _ => rfl

/-- What has happened to the coins. -/
structure Accounted (s : St) (σ : World Ev St) : Prop where
  setup : Fixed s.setup σ.store
  coin : σ.store.coin = incrAll (payments σ.log) s.coin
  right : ∀ e ∈ σ.log, e.2.Right s.setup

theorem coin_after {β : Type} (c : Cmd β) (i : Nat) (σ : World Ev St) :
    (after i c σ).store.coin = incrAll (payments ((Note.note c (Exec.exec c σ.store).1).map (i, ·))) σ.store.coin := by
  cases c with
  | ask a => rfl
  | own c =>
    cases c with
    | takeShare day uid user_table share_coin =>
      cases h : redisInt share_coin <;> simp [Exec.exec, Note.note, payments, Share.credited, h]
    | inSharing k uid => cases k <;> rfl
    | _ => rfl

theorem accounted_after {s : St} ⦃β : Type⦄ (c : Cmd β) (i : Nat) (σ : World Ev St) (hc : Pays s.setup c)
    (h : Accounted s σ) : Accounted s (after i c σ) where
  setup := exec_fixed c _ h.setup
  coin := by
    rw [coin_after, h.coin, after_log, payments_append, incrAll_append]
  right := by
    intro e he
    rcases List.mem_append.1 he with he | he
    · exact h.right e he
    · obtain ⟨ev, hev, rfl⟩ := List.mem_map.1 he
      exact hc _ ev hev

/-- The requests, none of which has begun. -/
def start (s : St) (qs : List Req) : Conf Ev Err Cmd St Reply := ⟨⟨s, []⟩, qs.map Req.handler⟩

/-- While no two requests test the mark of a reward at once, the reward is paid at most as often as it may be, and
with what it is worth. Coins are credited by payments only. -/
theorem rewards_within_limits {s : St} {qs : List Req} {c : Conf Ev Err Cmd St Reply} (r : Reward)
    (hr : Reach (r.ration s.setup).oneAtATime (start s qs) c) :
    r.uses s + (credits r c.world.log).length ≤ max (r.limit s.setup) (r.uses s) ∧
      (∀ n ∈ credits r c.world.log, r.Worth s.setup n) ∧
      ∀ t, val c.world.store.coin t = val s.coin t + net (payments c.world.log) t := by
  have hacc : Accounted s c.world := by
    refine reach_issues (J := Accounted s) (I := Fixed s.setup) (fun _ h => h.setup) accounted_after hr ?_ ⟨rfl, rfl, ?_⟩
    · intro p hp
      obtain ⟨q, -, rfl⟩ := List.mem_map.1 hp
      exact issues_handler q
    · exact fun e he => absurd he List.not_mem_nil
  refine ⟨?_, ?_, fun t => by rw [hacc.coin, val_incrAll]⟩
  · rw [length_credits r s.setup]
    refine handed_le exec_fixed hr ?_ rfl rfl
    intro p hp
    obtain ⟨q, -, rfl⟩ := List.mem_map.1 hp
    exact outside_handler r s.setup q
  · intro n hn
    obtain ⟨⟨i, e⟩, he, hsome⟩ := List.mem_filterMap.1 hn
    cases e with
    | paid r' t m =>
      by_cases h : r' = r
      · have hright := hacc.right _ he
        simp only [h, if_true, Option.some.injEq] at hsome
        rw [← hsome, ← h]
        exact hright
      · simp [h] at hsome
    | _ => cases hsome

/-! ## Two requests at once -/

/-- A user who may take each reward once. -/
def demo : St where
  setup := {
    shared := {
      session := fun sid => if sid = "s" then some ("a", "1") else none
      platform := fun _ => none
      kick := fun _ => false
      userTable := fun account => if account = "a" then some "users:1" else none
      isUser := fun userTable => userTable = "users:1"
      active := fun _ => none }
    save_min_money := none
    save_times := some "1"
    save_money := some "1000"
    share_coin := some "500"
    number := fun _ _ => some 5 }
  coin := fun _ => none
  exchange_ticket := fun _ => none
  benefit := fun _ => none
  token := fun _ => some "t"
  receive := fun _ => none
  sharing := fun _ => ∅
  code := fun _ => none

def demoClock : Clock := ⟨⟨2024, 0, by decide⟩, 12⟩

/-- A request for the reward, of that user. -/
def demoReq : Reward → Req
  | .benefit _ _ => .takeBenefit demoClock "s" "t"
  | .signMonth _ _ day => .signMonth demoClock "s" day
  | .share _ _ => .share demoClock "s"
  | .code _ => .exchageCode "s" "4c445de82c3537a5995a497b1c8202d7"

def demoRewards : List Reward :=
  [.benefit demoClock.date "1", .signMonth demoClock.month "a" "5", .share demoClock.date "1", .code "a"]

/-- Two requests that take turns. -/
def demoTurns (r : Reward) : Conf Ev Err Cmd St Reply :=
  turns (List.replicate 16 [0, 1]).flatten (start demo [demoReq r, demoReq r])

/-- Two requests that take turns are both paid, for each of the four kinds. -/
theorem rewards_paid_twice : demoRewards.length = 4 ∧ ∀ r ∈ demoRewards, r.uses demo = 0 ∧ r.limit demo.setup = 1 ∧
    ∃ c, Reach noGuard (start demo [demoReq r, demoReq r]) c ∧ (credits r c.world.log).length = 2 := by
  refine ⟨rfl, ?_⟩
  have hlen : ∀ r ∈ demoRewards, r.uses demo = 0 ∧ r.limit demo.setup = 1 ∧
      (credits r (demoTurns r).world.log).length = 2 := by decide +kernel
  intro r hr
  obtain ⟨huses, hlimit, htwo⟩ := hlen r hr
  exact ⟨huses, hlimit, demoTurns r, reach_turns (allowed_noGuard _ _), htwo⟩

/-- One after the other, the second is refused. -/
theorem rewards_within_limits_code :
    (credits (.code "a") (turns (List.replicate 10 0 ++ List.replicate 10 1)
      (start demo [demoReq (.code "a"), demoReq (.code "a")])).world.log).length = 1 ∧
    (Reward.code "a").uses demo + (credits (.code "a") (turns (List.replicate 10 0 ++ List.replicate 10 1)
      (start demo [demoReq (.code "a"), demoReq (.code "a")])).world.log).length ≤ 1 :=
  ⟨by decide +kernel, (rewards_within_limits (.code "a") (reach_turns (by decide +kernel))).1⟩

end FishWeb.Benefit
