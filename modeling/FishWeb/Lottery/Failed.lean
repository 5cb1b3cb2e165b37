import FishWeb.Lottery.Pack
/-!
# Draws that fail

A draw that answers with a code other than zero is to leave everything as it was. The
draws of an activity are counted before it is known whether there is anything to draw
from. So a draw that finds nothing is counted, though it fails; every other failure
leaves the store (`failed_draw_iff`).
-/
open Python Prog Counters Calendar FishWeb.Common
open Dice (Draws pick)

namespace FishWeb.Lottery

/-! ## What a draw looks up -/

section Looks
variable (s : St) (acid : String)

theorem run_getLotteryNum (account : String) : run (getLotteryNum acid account) s = (.ok (val s.num (acid, account)), s) := by
  unfold getLotteryNum
  cases hnum : s.num (acid, account) <;> simp [send, Exec.exec, hnum, val]

theorem run_getLotteryActiviceCount : run (getLotteryActiviceCount acid) s = (.ok (val s.count acid), s) := by
  unfold getLotteryActiviceCount
  cases hcount : s.count acid <;> simp [send, Exec.exec, hcount, val]

/-- What is left of a reward; nearly ten million where it has no stock. -/
def St.stockOf (reid : String) : Int := (s.stock (acid, reid)).getD 9999999

theorem run_getActiveRewardNum (reid : String) : run (getActiveRewardNum acid reid) s = (.ok (s.stockOf acid reid), s) := by
  unfold getActiveRewardNum
  cases hstock : s.stock (acid, reid) <;> simp [send, Exec.exec, hstock, St.stockOf]

theorem run_getActiciveInfo : run (getActiciveInfo acid) s = (.ok (s.setup.activice acid), s) := by
  unfold getActiciveInfo
  cases hactivice : s.setup.activice acid <;> simp [send, Exec.exec, hactivice]

/-- The rewards that the next draw is from: those of a plan whose condition it meets, else those of the activity. -/
def St.inForce (a : Activice) : Except Err (List Rated) :=
  if a.specialPlan = [] then .ok (a.rewardList.map Listed.rated)
  else (meetPlan (val s.count acid + 1) a.specialPlan none).map fun plan =>
    (plan.map Plan.rated).getD (a.rewardList.map Listed.rated)

/-- The reward is sold out, or is never drawn. -/
def St.Idle (r : Rated) : Prop :=
  s.stockOf acid r.searchId ≤ 0 ∨ ∃ rate side, r.rate = some rate ∧ rate ≤ 0 ∧ r.side = some side

end Looks

section Wheel
variable {s : St} {acid : String}

theorem run_getWheel (a : Activice) : run (getWheel acid a) s = match s.inForce acid a with
    | .ok rs => run (fillWheel acid rs ⟨[], []⟩) s
    | .error e => (.error e, s) := by
  unfold getWheel St.inForce
  by_cases hplans : a.specialPlan = []
  · rw [if_pos hplans, if_pos hplans]
    rfl
  rw [if_neg hplans, if_neg hplans, getMeetConfidion, Prog.bind_assoc, run_bind_ok (run_getLotteryActiviceCount s acid)]
  dsimp only
  cases hmeet : meetPlan (val s.count acid + 1) a.specialPlan none with
  | error e => rfl
  | ok plan => cases plan <;> rfl

/-- The wheel leaves the store, and is empty if and only if the rewards are sold out or never drawn. -/
theorem run_fillWheel (rs : List Rated) (w : Wheel) : (run (fillWheel acid rs w) s).2 = s ∧
    ((∃ w', (run (fillWheel acid rs w) s).1 = .ok w' ∧ w'.probabilitys = []) ↔ w.probabilitys = [] ∧ ∀ r ∈ rs, s.Idle acid r) := by
  induction rs generalizing w with
  | nil => exact ⟨rfl, by simp [fillWheel]⟩
  | cons reward rest ih =>
    rw [fillWheel, run_bind_ok (run_getActiveRewardNum s acid reward.searchId), List.forall_mem_cons]
    by_cases hsold : s.stockOf acid reward.searchId ≤ 0
    · rw [if_pos hsold]
      have hidle : s.Idle acid reward := .inl hsold
      simpa only [hidle, true_and] using ih w
    rw [if_neg hsold]
    cases hrate : reward.rate with
    | none => simp [St.Idle, hsold, hrate]
    | some rate =>
    cases hside : reward.side with
    | none => simp [St.Idle, hsold, hrate, hside]
    | some side =>
    rw [orRaise_some, orRaise_some, ret_bind, ret_bind]
    obtain ⟨hstore, hempty⟩ := ih ⟨(side, reward.searchId) :: w.rewards, w.probabilitys ++ List.replicate rate.toNat side⟩
    refine ⟨hstore, hempty.trans ?_⟩
    simp [St.Idle, hsold, hrate, hside, and_assoc]

end Wheel

/-! ## What a draw answers -/

section Answers
variable {s s' : St} {consts : Consts} {rnd : Draws} {now : Date} {acid account userTable : String}

/-- A draw that comes to the record of the reward does not fail. -/
theorem award_code {groupId nickname : Option String} {pos : Int} {reward_info : RewardInfo} {reply : Reply}
    (h : run (award consts rnd now acid account userTable groupId nickname pos reward_info) s = (.ok reply, s')) : reply.code = 0 := by
  unfold award at h
  obtain ⟨id, t, -, h⟩ := run_bind_eq_ok h
  obtain ⟨given, t, -, h⟩ := run_bind_eq_ok h
  obtain ⟨_, t, -, h⟩ := run_bind_eq_ok h
  obtain ⟨rewardTitle, t, -, h⟩ := run_bind_eq_ok h
  obtain ⟨rewardNum, t, -, h⟩ := run_bind_eq_ok h
  obtain ⟨reid, t, -, h⟩ := run_bind_eq_ok h
  dsimp only at h
  split at h <;> cases h <;> rfl

theorem run_checkActiviceIsonline : run (checkActiviceIsonline consts acid) s =
    (.ok ((s.setup.activice acid).bind (·.status) = some consts.STATUS_STARTING : Bool), s) := rfl

/-- A chance is spent on an activity whose rewards are all sold out or never drawn. -/
structure Fruitless (consts : Consts) (s : St) (acid account : String) (a : Activice) (rs : List Rated) : Prop where
  chances : 0 < val s.num (acid, account)
  activice : s.setup.activice acid = some a
  online : a.status = some consts.STATUS_STARTING
  inForce : s.inForce acid a = .ok rs
  idle : ∀ r ∈ rs, s.Idle acid r

/-- The store after such a draw. -/
def St.counted (s : St) (acid : String) : St := { s with count := incrby s.count acid 1 }

theorem counted_ne : s.counted acid ≠ s := by
  intro h
  have hval := congrArg (fun t => val t.count acid) h
  simp [St.counted, incrby, val] at hval

theorem run_setLotteryActiviceCount : run (setLotteryActiviceCount acid) s = (.ok (), s.counted acid) := rfl

/-- Such a draw is counted, and fails. -/
theorem draw_fruitless {a : Activice} {rs : List Rated} (h : Fruitless consts s acid account a rs) :
    run (draw consts rnd now acid account userTable) s = (.ok { code := 1, msg := "没有库存了" }, s.counted acid) := by
  obtain ⟨hstore, hempty⟩ := @run_fillWheel s acid rs ⟨[], []⟩
  obtain ⟨w, hw, hnil⟩ := hempty.2 ⟨rfl, h.idle⟩
  have hparent : run (send (Own.hgetParentAg userTable)) s = (.ok (s.setup.parentAg userTable), s) := rfl
  have hnick : run (send (Own.hgetNickname userTable)) s = (.ok (s.setup.nickname userTable), s) := rfl
  have hwheel : run (getWheel acid a) s = (.ok w, s) := by
    rw [run_getWheel, h.inForce]
    exact Prod.ext hw hstore
  have honline : run (checkActiviceIsonline consts acid) s = (.ok true, s) := by
    simp [run_checkActiviceIsonline, h.activice, h.online]
  unfold draw
  rw [run_bind_ok hparent, run_bind_ok hnick, run_bind_ok (run_getLotteryNum s acid account), if_neg (Int.not_le.2 h.chances),
    run_bind_ok honline]
  simp only [Bool.not_true, Bool.false_eq_true, if_false]
  rw [run_bind_ok (run_getActiciveInfo s acid), h.activice, orRaise_some, ret_bind, run_bind_ok hwheel,
    run_bind_ok run_setLotteryActiviceCount, Dice.pick_eq_none_iff.2 hnil]
  rfl

/-- A draw that fails leaves the store, or is such a draw. -/
theorem draw_fails {reply : Reply} (h : run (draw consts rnd now acid account userTable) s = (.ok reply, s')) (hcode : reply.code ≠ 0) :
    s' = s ∨ s' = s.counted acid ∧ ∃ a rs, Fruitless consts s acid account a rs := by
  have hparent : run (send (Own.hgetParentAg userTable)) s = (.ok (s.setup.parentAg userTable), s) := rfl
  have hnick : run (send (Own.hgetNickname userTable)) s = (.ok (s.setup.nickname userTable), s) := rfl
  unfold draw at h
  rw [run_bind_ok hparent, run_bind_ok hnick, run_bind_ok (run_getLotteryNum s acid account)] at h
  by_cases hnum : val s.num (acid, account) ≤ 0
  · rw [if_pos hnum] at h
    cases h
    exact .inl rfl
  rw [if_neg hnum, run_bind_ok run_checkActiviceIsonline] at h
  by_cases honline : (s.setup.activice acid).bind (·.status) = some consts.STATUS_STARTING
  swap
  · simp only [honline, decide_false, Bool.not_false, if_true] at h
    cases h
    exact .inl rfl
  obtain ⟨a, ha, hstatus⟩ := Option.bind_eq_some_iff.1 honline
  simp only [honline, decide_true, Bool.not_true, Bool.false_eq_true, if_false] at h
  rw [run_bind_ok (run_getActiciveInfo s acid), ha, orRaise_some, ret_bind] at h
  cases hrs : s.inForce acid a with
  | error e =>
    have hwheel : run (getWheel acid a) s = (.error e, s) := by rw [run_getWheel, hrs]
    rw [run_bind_error hwheel] at h
    cases h
  | ok rs =>
  obtain ⟨hstore, hempty⟩ := @run_fillWheel s acid rs ⟨[], []⟩
  obtain ⟨w, t, hwheel, h⟩ := run_bind_eq_ok h
  rw [run_getWheel, hrs] at hwheel
  dsimp only at hwheel
  rw [hwheel] at hstore hempty
  obtain rfl : t = s := hstore
  rw [run_bind_ok run_setLotteryActiviceCount] at h
  cases hpos : pick (rnd 0) w.probabilitys with
  | none =>
    rw [hpos] at h
    cases h
    exact .inr ⟨rfl, a, rs, Int.not_le.1 hnum, ha, hstatus, hrs, (hempty.1 ⟨w, rfl, Dice.pick_eq_none_iff.1 hpos⟩).2⟩
  | some pos =>
    rw [hpos] at h
    obtain ⟨searchId, t, -, h⟩ := run_bind_eq_ok h
    obtain ⟨found, t, -, h⟩ := run_bind_eq_ok h
    cases found with
    | none =>
      cases h
      exact absurd rfl hcode
    | some reward_info => exact absurd (award_code h) hcode

theorem run_drawReward {id sid : String} (hsid : (split '_' id)[0]? = some sid) (hacid : (split '_' id)[1]? = some acid) :
    run (drawReward consts rnd now id) s = match s.setup.shared.hall sid with
      | .error e => (.ok { code := e.code, msg := e.msg, osid := e.osid }, s)
      | .ok (account, userTable) => run (draw consts rnd now acid (fmt account) userTable) s := by
  unfold drawReward Shared.hall
  rw [hsid, hacid, orRaise_some, orRaise_some, ret_bind, ret_bind, run_bind_ok (run_getInfoBySid sid s)]
  dsimp only
  by_cases hnew : (s.setup.shared.info sid).verfiySid.getD "" ≠ "" ∧ sid ≠ (s.setup.shared.info sid).verfiySid.getD ""
  · rw [if_pos hnew]
    exact congrArg (fun x => run x s) (if_pos hnew)
  rw [if_neg hnew]
  refine (congrArg (fun x => run x s) (if_neg hnew)).trans ?_
  cases hlive : (s.setup.shared.session sid).isSome with
  | false => simp [Common.ask, Shared.answer, HasShared.shared, hlive]
  | true =>
  cases huser : s.setup.shared.isUser (fmt (s.setup.shared.userTable (fmt (s.setup.shared.info sid).account))) with
  | false => simp [Common.ask, Shared.answer, HasShared.shared, hlive, huser]
  | true => simp [Common.ask, Shared.answer, HasShared.shared, hlive, huser]

end Answers

/-! ## Requests that fail -/

/-- The request is a user's, and comes to a draw of that kind. -/
def NothingToDraw (consts : Consts) (s : St) (id : String) : Prop :=
  ∃ sid acid account userTable a rs, (split '_' id)[0]? = some sid ∧ (split '_' id)[1]? = some acid ∧
    s.setup.shared.hall sid = .ok (account, userTable) ∧ Fruitless consts s acid (fmt account) a rs

section Requests
variable (consts : Consts) (q : Req) (s : St)

/-- A request that fails leaves the store, but for the number of draws of the activity. -/
theorem failed_draw_frame {reply : Reply} {s' : St} (h : run (q.handler consts) s = (.ok reply, s')) (hcode : reply.code ≠ 0) :
    s' = s ∨ (∃ acid, s' = s.counted acid) ∧ NothingToDraw consts s q.id := by
  obtain ⟨sid, hsid⟩ : ∃ sid, (split '_' q.id)[0]? = some sid := by
    cases hsid : (split '_' q.id)[0]? with
    | some sid => exact ⟨sid, rfl⟩
    | none =>
      rw [Req.handler, drawReward, hsid] at h
      cases h
  obtain ⟨acid, hacid⟩ : ∃ acid, (split '_' q.id)[1]? = some acid := by
    cases hacid : (split '_' q.id)[1]? with
    | some acid => exact ⟨acid, rfl⟩
    | none =>
      rw [Req.handler, drawReward, hsid, hacid] at h
      cases h
  rw [Req.handler, run_drawReward hsid hacid] at h
  cases hhall : s.setup.shared.hall sid with
  | error e =>
    rw [hhall] at h
    cases h
    exact .inl rfl
  | ok user =>
  obtain ⟨account, userTable⟩ := user
  rw [hhall] at h
  refine (draw_fails h hcode).imp_right ?_
  rintro ⟨hs', a, rs, hnone⟩
  exact ⟨⟨acid, hs'⟩, sid, acid, account, userTable, a, rs, hsid, hacid, hhall, hnone⟩

theorem failed_draw_iff :
    (∀ reply s', run (q.handler consts) s = (.ok reply, s') → reply.code ≠ 0 → s' = s) ↔ ¬NothingToDraw consts s q.id := by
  constructor
  · rintro hquiet ⟨sid, acid, account, userTable, a, rs, hsid, hacid, hhall, hnone⟩
    have hrun : run (q.handler consts) s = (.ok { code := 1, msg := "没有库存了" }, s.counted acid) := by
      rw [Req.handler, run_drawReward hsid hacid, hhall]
      exact draw_fruitless hnone
    exact counted_ne (hquiet _ _ hrun (by decide))
  · intro hnot reply s' h hcode
    exact (failed_draw_frame consts q s h hcode).resolve_right fun hnone => hnot hnone.2

end Requests

/-- The pack is sold out. -/
def demoSoldOut : St := { demoPacked "20" with stock := fun _ => some 0 }

def demoFailed : Except Err Reply × St := run (drawReward ⟨"1", "/hall"⟩ (fun _ => 0) demoDay "s_7") demoSoldOut

theorem sold_out_counted : demoFailed.1.toOption.map Reply.code = some 1 ∧ demoSoldOut.count "7" = none ∧
    demoFailed.2.count "7" = some 1 := by
  decide +kernel

end FishWeb.Lottery
