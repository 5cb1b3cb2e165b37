import FishWeb.Share.Model
import FishWeb.Lib.Runs
/-!
# A reward for a share

Requests one after another, with the shares and rewards of the run kept beside the
state. Who has shared since his last reward is in the set of those who have not taken it,
whatever the days. A reward is paid to whoever has not taken one that day; the refresh
tells of the other set.
-/
open Python Prog Counters Runs FishWeb.Common

namespace FishWeb.Share

/-! ## Shares and rewards of a run -/

inductive Event where
  | shared (uid : String)
  | paid (uid : String)
  deriving DecidableEq

/-- The user has reported a share, and no reward of his came after it. -/
def Unrewarded (hist : List Event) (uid : String) : Prop :=
  ∃ pre post, hist = pre ++ .shared uid :: post ∧ .paid uid ∉ post

theorem unrewarded_snoc (hist : List Event) (e : Event) (uid : String) :
    Unrewarded (hist ++ [e]) uid ↔ e = .shared uid ∨ e ≠ .paid uid ∧ Unrewarded hist uid := by
  constructor
  · rintro ⟨pre, post, heq, hpost⟩
    rcases List.eq_nil_or_concat post with rfl | ⟨post, e', rfl⟩
    · exact .inl (List.append_inj_right' heq rfl |> List.cons.inj).1
    · rw [List.concat_eq_append] at heq hpost
      have heq : hist ++ [e] = (pre ++ .shared uid :: post) ++ [e'] := by simpa using heq
      obtain ⟨rfl, he⟩ := List.append_inj' heq rfl
      obtain rfl := (List.cons.inj he).1
      rw [List.mem_append, not_or] at hpost
      exact .inr ⟨fun h => hpost.2 (by simp [h]), pre, post, rfl, hpost.1⟩
  · rintro (rfl | ⟨hne, pre, post, rfl, hpost⟩)
    · exact ⟨hist, [], rfl, List.not_mem_nil⟩
    · refine ⟨pre, post ++ [e], by simp, ?_⟩
      rw [List.mem_append, not_or]
      exact ⟨hpost, fun h => hne (List.mem_singleton.1 h).symm⟩

/-- A share that is accepted, or a reward that is paid. -/
def events (r : Req) (s : St) : List Event :=
  match r, (run r.handler s).1 with
  | .share _ sid, .ok reply => if reply.code = 0 then [.shared (fmt (s.setup.shared.info sid).uid)] else []
  | .reward _ sid, .ok reply => if reply.code = 0 then [.paid (fmt (s.setup.shared.info sid).uid)] else []
  | .refresh _ _, _ | _, .error _ => []

/-- A request, with the shares and rewards so far. -/
def hstep (r : Req) (σ : St × List Event) : St × List Event := (step r σ.1, σ.2 ++ events r σ.1)

/-! ## The protocol and its condition -/

/-- A reward request made now would be paid. -/
def Paid (today sid : String) (s : St) : Prop :=
  ∃ reply, (run (getFishShareReward today sid) s).1 = .ok reply ∧ reply.code = 0

/-- A reward is paid for a share that has not been rewarded; a refresh tells of one just when it would be paid. -/
def Protocol : Req → St × List Event → Prop
  | .share _ _, _ => True
  | .reward today sid, (s, hist) => Paid today sid s → Unrewarded hist (fmt (s.setup.shared.info sid).uid)
  | .refresh today sid, (s, _) => ∀ reply, (run (doRefresh today sid) s).1 = .ok reply → reply.code = 0 →
    (reply.isTakeReward = some 1 ↔ Paid today sid s)

/-- The session passes. -/
def Admitted (sid : String) (s : St) : Prop := ∃ user_table, s.setup.shared.verfiy sid = .ok user_table

/-- The user has taken no reward that day, and the reward is set to an integer. -/
structure Payable (today uid : String) (s : St) : Prop where
  untaken : uid ∉ s.take today
  coin : ∃ c n, s.setup.share_coin = some c ∧ c ≠ "" ∧ redisInt c = some n

/-- A reward that can be paid is asked for by a user who has not taken his; a refresh finds him there just when it
can be paid. -/
def Fits : Req → St × List Event → Prop
  | .share _ _, _ => True
  | .reward today sid, (s, _) => Admitted sid s → Payable today (fmt (s.setup.shared.info sid).uid) s →
    fmt (s.setup.shared.info sid).uid ∈ s.notTake
  | .refresh today sid, (s, _) => Admitted sid s →
    (fmt (s.setup.shared.info sid).uid ∈ s.notTake ↔ Payable today (fmt (s.setup.shared.info sid).uid) s)

/-! ## What the requests do -/

section Effect
variable {today sid : String} {s : St}

theorem refused_code {e : Refusal} (h : s.setup.shared.verfiy sid = .error e) : (Reply.refused e).code ≠ 0 :=
  (Shared.verfiy_error h).ne

/-- The store after a reward of `n` coins. -/
def St.rewarded (s : St) (today uid user_table share_coin : String) : St :=
  { s with
    notTake := s.notTake.srem uid
    take := SetTable.add s.take today uid
    coin := credited s.coin user_table share_coin }

theorem run_getFishShareReward {user_table : String} (h : s.setup.shared.verfiy sid = .ok user_table) :
    run (getFishShareReward today sid) s =
      let uid := fmt (s.setup.shared.info sid).uid
      let share_coin := s.setup.share_coin.getD ""
      if uid ∈ s.take today then (.ok { code := -3002, msg := "你今天已经领取过奖励!" }, s)
      else if share_coin = "" then (.ok { code := -3001, msg := "error in get share_coin,try again." }, s)
      else if (redisInt share_coin).isNone then (.error .ResponseError, s.rewarded today uid user_table share_coin)
      else (.ok { code := 0, coin := some ((credited s.coin user_table share_coin user_table).getD 0) },
        s.rewarded today uid user_table share_coin) := by
  unfold getFishShareReward RewardCmds.getFishShareReward
  rw [run_session, shared_eq, h]
  dsimp only [rewardCmds]
  by_cases htaken : fmt (s.setup.shared.info sid).uid ∈ s.take today
  · simp [send, Exec.exec, htaken]
  by_cases hempty : s.setup.share_coin.getD "" = ""
  · simp [send, Exec.exec, htaken, hempty]
  · cases hn : redisInt (s.setup.share_coin.getD "") <;>
      simp [send, Exec.exec, htaken, hempty, hn, St.rewarded]

/-- The reward is set to an integer. -/
def Numeric (s : St) : Prop := ∃ c n, s.setup.share_coin = some c ∧ c ≠ "" ∧ redisInt c = some n

theorem numeric_iff : Numeric s ↔ s.setup.share_coin.getD "" ≠ "" ∧ (redisInt (s.setup.share_coin.getD "")).isSome := by
  constructor
  · rintro ⟨c, n, hc, hne, hn⟩
    rw [hc, Option.getD_some, hn]
    exact ⟨hne, rfl⟩
  · rintro ⟨hne, hn⟩
    obtain ⟨n, hn⟩ := Option.isSome_iff_exists.1 hn
    cases hc : s.setup.share_coin with
    | none => rw [hc] at hne; exact absurd rfl hne
    | some c =>
      rw [hc, Option.getD_some] at hne hn
      exact ⟨c, n, hc, hne, hn⟩

/-- What a reward request does: it pays, or it is refused, or it pays nothing and takes the share off. -/
inductive Reward (today sid : String) (s : St) : Except Err Reply × St → Prop
  | paid (user_table : String) (reply : Reply) (hcode : reply.code = 0) (hadmitted : Admitted sid s)
    (hpay : Payable today (fmt (s.setup.shared.info sid).uid) s) : Reward today sid s
      (.ok reply, s.rewarded today (fmt (s.setup.shared.info sid).uid) user_table (s.setup.share_coin.getD ""))
  | refused (reply : Reply) (hcode : reply.code ≠ 0)
    (hnot : ¬(Admitted sid s ∧ Payable today (fmt (s.setup.shared.info sid).uid) s)) : Reward today sid s (.ok reply, s)
  | lost (user_table : String) (e : Err) (hnot : ¬Numeric s) : Reward today sid s
      (.error e, s.rewarded today (fmt (s.setup.shared.info sid).uid) user_table (s.setup.share_coin.getD ""))

theorem reward_of (today sid : String) (s : St) : Reward today sid s (run (getFishShareReward today sid) s) := by
  cases hver : s.setup.shared.verfiy sid with
  | error e =>
    unfold getFishShareReward RewardCmds.getFishShareReward
    rw [run_session, shared_eq, hver]
    refine .refused _ (refused_code hver) ?_
    rintro ⟨⟨user_table, hok⟩, -⟩
    rw [hver] at hok
    cases hok
  | ok user_table =>
    rw [run_getFishShareReward hver]
    dsimp only
    split
    · rename_i htaken
      exact .refused _ (by decide) fun h => h.2.untaken htaken
    rename_i htaken
    split
    · rename_i hempty
      exact .refused _ (by decide) fun h => (numeric_iff.1 h.2.coin).1 hempty
    rename_i hempty
    split
    · rename_i hnone
      refine .lost user_table _ fun h => ?_
      have hsome := (numeric_iff.1 h).2
      rw [Option.isNone_iff_eq_none.1 hnone] at hsome
      cases hsome
    · rename_i hsome
      refine .paid user_table _ rfl ⟨user_table, hver⟩ ⟨htaken, numeric_iff.2 ⟨hempty, ?_⟩⟩
      simpa [Option.isSome_iff_ne_none] using hsome

/-- A reward is paid just when the session passes and it can be. -/
theorem paid_iff : Paid today sid s ↔ Admitted sid s ∧ Payable today (fmt (s.setup.shared.info sid).uid) s := by
  have h := reward_of today sid s
  unfold Paid
  generalize run (getFishShareReward today sid) s = r at h
  cases h with
  | paid user_table reply hcode hadmitted hpay => exact iff_of_true ⟨reply, rfl, hcode⟩ ⟨hadmitted, hpay⟩
  | refused reply hcode hnot => exact iff_of_false (fun ⟨_, hok, h0⟩ => hcode (by cases hok; exact h0)) hnot
  | lost user_table e hnot => exact iff_of_false (fun ⟨_, hok, _⟩ => nomatch hok) fun h => hnot h.2.coin

/-- What a report does: it is accepted, or refused. -/
theorem share_of (today sid : String) (s : St) :
    (∃ reply : Reply, reply.code = 0 ∧ run (onShareCallback today sid) s = (.ok reply,
        { s with
          first := SetTable.add s.first today (fmt (s.setup.shared.info sid).uid)
          notTake := s.notTake.sadd (fmt (s.setup.shared.info sid).uid)
          total := s.total + 1 })) ∨
      ∃ reply : Reply, reply.code ≠ 0 ∧ run (onShareCallback today sid) s = (.ok reply, s) := by
  unfold onShareCallback
  rw [run_session, shared_eq]
  cases hver : s.setup.shared.verfiy sid with
  | error e => exact .inr ⟨_, refused_code hver, rfl⟩
  | ok user_table =>
    dsimp only
    by_cases hshared : fmt (s.setup.shared.info sid).uid ∈ s.first today
    · exact .inr ⟨{ code := -4001, msg := "uid[" ++ fmt (s.setup.shared.info sid).uid ++ "] already share." }, nofun,
        by simp [send, Exec.exec, hshared]⟩
    · exact .inl ⟨{ code := 0 }, rfl, by simp [send, Exec.exec, hshared]⟩

/-- A refresh tells of the set of those who have not taken their reward. -/
theorem refresh_of (today sid : String) (s : St) :
    (Admitted sid s ∧ ∃ n, run (doRefresh today sid) s = (.ok { code := 0, isTakeReward := some n }, s) ∧
        (n = 1 ↔ fmt (s.setup.shared.info sid).uid ∈ s.notTake)) ∨
      ¬Admitted sid s ∧ ∃ reply : Reply, reply.code ≠ 0 ∧ run (doRefresh today sid) s = (.ok reply, s) := by
  have hnot : ∀ e, s.setup.shared.verfiy sid = .error e → ¬Admitted sid s := by
    rintro e he ⟨user_table, hok⟩
    rw [he] at hok
    cases hok
  cases hkick : s.setup.shared.kick sid with
  | true =>
    have hrefused : ∃ e, s.setup.shared.verfiy sid = .error e := by
      unfold Shared.verfiy
      dsimp only
      split <;> exact ⟨_, rfl⟩
    obtain ⟨e, he⟩ := hrefused
    exact .inr ⟨hnot e he, { code := -4, msg := "您的账号已在其它地方登录。", osid := some "1" }, nofun,
      by simp [doRefresh, Common.ask, Shared.answer, hkick]⟩
  | false =>
    have hkicked : run (Common.ask (.existsKick sid) : Handler Bool) s = (.ok false, s) := by
      simp [Common.ask, Shared.answer, hkick]
    unfold doRefresh
    rw [run_bind_ok hkicked]
    simp only [Bool.false_eq_true, if_false]
    rw [run_session, shared_eq]
    cases hver : s.setup.shared.verfiy sid with
    | error e => exact .inr ⟨hnot e hver, _, refused_code hver, rfl⟩
    | ok user_table =>
      refine .inl ⟨⟨user_table, hver⟩, ?_⟩
      by_cases hn : fmt (s.setup.shared.info sid).uid ∈ s.notTake
      · exact ⟨1, by simp [isTakeReward, send, Exec.exec, hn], iff_of_true rfl hn⟩
      by_cases ht : fmt (s.setup.shared.info sid).uid ∈ s.take today
      · exact ⟨2, by simp [isTakeReward, send, Exec.exec, hn, ht], iff_of_false (by decide) hn⟩
      · exact ⟨0, by simp [isTakeReward, send, Exec.exec, hn, ht], iff_of_false (by decide) hn⟩

end Effect

/-! ## Runs -/

/-- Who has not taken his reward has shared since his last one, and while the reward is an integer also the other way
round. -/
structure Kept (σ : St × List Event) : Prop where
  shared : ∀ uid, uid ∈ σ.1.notTake → Unrewarded σ.2 uid
  untaken : Numeric σ.1 → ∀ uid, Unrewarded σ.2 uid → uid ∈ σ.1.notTake

theorem protocol_iff_fits (r : Req) (σ : St × List Event) (h : Kept σ) : Protocol r σ ↔ Fits r σ := by
  obtain ⟨s, hist⟩ := σ
  cases r with
  | share today sid => exact Iff.rfl
  | reward today sid =>
    simp only [Protocol, Fits, paid_iff]
    constructor
    · intro hp hadmitted hpay
      exact h.untaken hpay.coin _ (hp ⟨hadmitted, hpay⟩)
    · rintro hf ⟨hadmitted, hpay⟩
      exact h.shared _ (hf hadmitted hpay)
  | refresh today sid =>
    simp only [Protocol, Fits, paid_iff]
    rcases refresh_of today sid s with ⟨hadmitted, n, hrun, hn⟩ | ⟨hnot, reply, hcode, hrun⟩
    · rw [hrun]
      constructor
      · intro hp _
        have hone := hp _ rfl rfl
        rw [Option.some_inj, hn] at hone
        exact ⟨fun hm => (hone.1 hm).2, fun hpay => hone.2 ⟨hadmitted, hpay⟩⟩
      · rintro hf reply ⟨⟩ -
        rw [Option.some_inj, hn, hf hadmitted]
        exact ⟨fun hpay => ⟨hadmitted, hpay⟩, And.right⟩
    · rw [hrun]
      refine iff_of_true ?_ fun hadmitted => absurd hadmitted hnot
      rintro reply' ⟨⟩ h0
      exact absurd h0 hcode

theorem kept_hstep (r : Req) (σ : St × List Event) (h : Kept σ) : Kept (hstep r σ) := by
  obtain ⟨s, hist⟩ := σ
  cases r with
  | share today sid =>
    rcases share_of today sid s with ⟨reply, hcode, hrun⟩ | ⟨reply, hcode, hrun⟩
    · have hstate : hstep (.share today sid) (s, hist) = ((run (onShareCallback today sid) s).2,
          hist ++ [.shared (fmt (s.setup.shared.info sid).uid)]) := by
        simp [hstep, step, events, Req.handler, hrun, hcode]
      rw [hstate, hrun]
      constructor
      · intro uid hm
        rw [unrewarded_snoc]
        rcases (MemberSet.mem_sadd _ _ _).1 hm with rfl | hm
        · exact .inl rfl
        · exact .inr ⟨by simp, h.shared uid hm⟩
      · intro hnum uid hu
        rw [unrewarded_snoc] at hu
        rcases hu with heq | ⟨-, hu⟩
        · exact (MemberSet.mem_sadd _ _ _).2 (.inl (Event.shared.inj heq).symm)
        · exact (MemberSet.mem_sadd _ _ _).2 (.inr (h.untaken hnum uid hu))
    · have hstate : hstep (.share today sid) (s, hist) = (s, hist) := by
        simp [hstep, step, events, Req.handler, hrun, hcode]
      rw [hstate]
      exact h
  | reward today sid =>
    have hreward := reward_of today sid s
    generalize hrun : run (getFishShareReward today sid) s = r at hreward
    cases hreward with
    | paid user_table reply hcode hadmitted hpay =>
      have hstate : hstep (.reward today sid) (s, hist) = (s.rewarded today (fmt (s.setup.shared.info sid).uid) user_table
          (s.setup.share_coin.getD ""), hist ++ [.paid (fmt (s.setup.shared.info sid).uid)]) := by
        simp [hstep, step, events, Req.handler, hrun, hcode]
      rw [hstate]
      constructor
      · intro uid hm
        obtain ⟨hne, hm⟩ := (MemberSet.mem_srem _ _ _).1 hm
        exact (unrewarded_snoc ..).2 (.inr ⟨fun heq => hne (Event.paid.inj heq).symm, h.shared uid hm⟩)
      · intro hnum uid hu
        rcases (unrewarded_snoc ..).1 hu with heq | ⟨hne, hu⟩
        · cases heq
        · exact (MemberSet.mem_srem _ _ _).2 ⟨fun heq => hne (by rw [heq]), h.untaken hnum uid hu⟩
    | refused reply hcode hnot =>
      have hstate : hstep (.reward today sid) (s, hist) = (s, hist) := by
        simp [hstep, step, events, Req.handler, hrun, hcode]
      rw [hstate]
      exact h
    | lost user_table e hnot =>
      have hstate : hstep (.reward today sid) (s, hist) = (s.rewarded today (fmt (s.setup.shared.info sid).uid) user_table
          (s.setup.share_coin.getD ""), hist) := by
        simp [hstep, step, events, Req.handler, hrun]
      rw [hstate]
      exact ⟨fun uid hm => h.shared uid ((MemberSet.mem_srem _ _ _).1 hm).2, fun hnum => absurd hnum hnot⟩
  | refresh today sid =>
    have hstate : hstep (.refresh today sid) (s, hist) = (s, hist) := by
      rcases refresh_of today sid s with ⟨-, n, hrun, -⟩ | ⟨-, reply, -, hrun⟩ <;>
        simp [hstep, step, events, Req.handler, hrun]
    rw [hstate]
    exact h

/-- Nobody has shared yet. -/
def noShares (s : St) : St := { s with first := fun _ => ∅, notTake := ∅, take := fun _ => ∅ }

/-- A user with a session, and a reward of 1000 coins. -/
def oneUser : St where
  setup := {
    shared := {
      session := fun sid => if sid = "s" then some ("a", "1") else none
      platform := fun _ => none
      kick := fun _ => false
      userTable := fun _ => some "users:1"
      isUser := fun _ => true
      active := fun _ => none }
    share_coin := some "1000" }
  first := fun _ => ∅
  notTake := ∅
  take := fun _ => ∅
  total := 0
  coin := fun _ => none

end FishWeb.Share
