import FishWeb.Lottery.Model
import FishWeb.Lib.Reserve
/-!
# No more than there is

Draws of any users, interleaved command by command. A draw takes one of a chance
or a stock at most once, and only after it has seen something left of it
(`does_drawReward`); a draw that succeeds has taken one chance. If a draw that sees
something left always sees more than the others have in mind, no number falls below
zero, and no reward is won more often than there are.
-/
open Python Prog Counters Calendar Pool Past Script FishWeb.Common
open Dice (Draws pick)

namespace FishWeb.Lottery

/-! ## What is left -/

def St.left (s : St) : Key → Int
  | .num acid account => val s.num (acid, account)
  | .stock acid reid => val s.stock (acid, reid)

def Key.reserve (k : Key) : Reserve Ev St where
  left s := s.left k
  sees e := e = .saw k
  takes e := e = .took k

/-- What a draw does not change: the setup, and which rewards have a stock. -/
structure Same (s s' : St) : Prop where
  setup : s'.setup = s.setup
  limited : ∀ k, (s'.stock k).isSome = (s.stock k).isSome

theorem same_refl (s : St) : Same s s := ⟨rfl, fun _ => rfl⟩

theorem Same.trans {s s' s'' : St} (h : Same s s') (h' : Same s' s'') : Same s s'' :=
  ⟨h'.setup.trans h.setup, fun k => (h'.limited k).trans (h.limited k)⟩

/-- What a draw may do, of all the numbers at once. -/
def rule : Rule Ev St := fun l s evs s' => Same s s' ∧ ∀ k : Key, k.reserve.Fair l s evs s'

theorem seen_pos {k : Key} {n : Int} (h : 0 < n) : seen k (some n) = [.saw k] := if_pos h

theorem eq_of_mem_seen {k : Key} {n : Option Int} {e : Ev} (h : e ∈ seen k n) : e = .saw k := by
  unfold seen at h
  split at h
  · exact List.mem_singleton.1 h
  · cases h

theorem rule_look (l : List Ev) (s : St) (k : Key) (n : Option Int) : rule l s (seen k n) s := by
  refine ⟨same_refl s, fun k' => Reserve.fair_of_not rfl ?_⟩
  unfold seen
  split <;> simp [Key.reserve]

theorem rule_won (l : List Ev) {s s' : St} (acid reid : String) (hsame : Same s s') (hleft : ∀ k, s'.left k = s.left k) :
    rule l s [.won acid reid] s' :=
  ⟨hsame, fun k => Reserve.fair_of_not (hleft k) (by simp [Key.reserve])⟩

/-- One is taken, that was seen and not taken before. -/
theorem rule_took {l : List Ev} {s s' : St} {k : Key} (hsame : Same s s')
    (hleft : ∀ k', s'.left k' = s.left k' - if k = k' then 1 else 0) (hsaw : .saw k ∈ l) (hnew : .took k ∉ l) :
    rule l s [.took k] s' := by
  refine ⟨hsame, fun k' => ?_⟩
  by_cases hk : k = k'
  · subst hk
    refine ⟨?_, fun _ => ⟨by simp [Key.reserve], ?_, ?_⟩⟩
    · have := hleft k
      simpa [Key.reserve] using this
    · simpa [Key.reserve] using hsaw
    · refine List.any_eq_false.2 fun e he ht => hnew ?_
      rwa [← of_decide_eq_true ht]
  · refine Reserve.fair_of_not ?_ (by simp [Key.reserve, hk])
    have := hleft k'
    simpa [Key.reserve, hk] using this

/-! ## The parts of a draw -/

/-- The command shows nothing and leaves the numbers. -/
def Own.plain {β : Type} : Own β → Bool
  | .getNum _ _ | .decrNum _ _ | .getStock _ _ | .decrStock _ _ | .setAwardee _ _ _ _ => false
  | _ => true

section Parts
variable {s₀ : St} {α : Type} {Q : List Ev → α → Prop} {l : List Ev}

/-- What a part of a draw does, from any store a draw may find. -/
abbrev Does (s₀ : St) (Q : List Ev → α → Prop) (l : List Ev) (p : Handler α) : Prop := Meets (Same s₀) rule Q l p

theorem silent_ask ⦃β : Type⦄ (a : Ask β) : Silent (Same s₀) rule (With.ask a : Cmd β) :=
  fun s _ => ⟨rfl, fun _ => ⟨same_refl s, fun _ => Reserve.fair_of_not rfl rfl⟩⟩

theorem silent_own {β : Type} {c : Own β} (h : c.plain = true) : Silent (Same s₀) rule (With.own c : Cmd β) := by
  intro s _
  cases c with
  | getNum | decrNum | getStock | decrStock | setAwardee => cases h
  | _ => exact ⟨rfl, fun _ => ⟨⟨rfl, fun _ => rfl⟩, fun k => Reserve.fair_of_not (by cases k <;> rfl) rfl⟩⟩

theorem does_own {β : Type} {c : Own β} {k : β → Handler α} (h : c.plain = true)
    (hk : ∀ s, Same s₀ s → Does s₀ Q l (k (Exec.exec c s).1)) : Does s₀ Q l (send c >>= k) :=
  meets_cmd (silent_own h) hk

theorem does_ask {β : Type} {a : Ask β} {k : β → Handler α} (hk : ∀ b, Does s₀ Q l (k b)) :
    Does s₀ Q l (Common.ask a >>= k) :=
  meets_cmd (silent_ask a) fun _ _ => hk _

/-- A command that shows something. -/
theorem does_shown {β : Type} {c : Own β} {k : β → Handler α}
    (h : ∀ s, Same s₀ s → rule l s (Note.note c (Exec.exec c s).1) (Exec.exec c s).2 ∧
      Does s₀ Q (l ++ Note.note c (Exec.exec c s).1) (k (Exec.exec c s).1)) : Does s₀ Q l (send c >>= k) := h

theorem does_getLotteryNum (acid account : String) :
    Does s₀ (fun l' n => 0 < n → l' = l ++ [.saw (.num acid account)]) l (getLotteryNum acid account) := by
  apply does_own rfl
  intro s _
  cases (Exec.exec (Own.existsNum acid account) s).1 with
  | false => exact fun h => absurd h (Int.lt_irrefl 0)
  | true =>
    refine does_shown fun s' _ => ⟨rule_look _ _ _ _, ?_⟩
    show Meets _ _ _ (l ++ seen _ (s'.num (acid, account))) (orRaise _ (s'.num (acid, account)))
    cases s'.num (acid, account) with
    | none => trivial
    | some n =>
      intro hn
      rw [seen_pos hn]

theorem does_getActiveRewardNum (acid reid : String) :
    Does s₀ (fun l' n => (∀ e ∈ l', e ∈ l ∨ e = .saw (.stock acid reid)) ∧ (∀ e ∈ l, e ∈ l') ∧
      (0 < n → (s₀.stock (acid, reid)).isSome = true → .saw (.stock acid reid) ∈ l')) l (getActiveRewardNum acid reid) := by
  apply does_own rfl
  intro s hs
  have hexists : (Exec.exec (Own.existsStock acid reid) s).1 = (s₀.stock (acid, reid)).isSome := hs.limited _
  rw [hexists]
  cases (s₀.stock (acid, reid)).isSome with
  | false => exact ⟨fun e he => .inl he, fun e he => he, fun _ h => by cases h⟩
  | true =>
    refine does_shown fun s' _ => ⟨rule_look _ _ _ _, ?_⟩
    show Meets _ _ _ (l ++ seen _ (s'.stock (acid, reid))) (orRaise _ (s'.stock (acid, reid)))
    cases s'.stock (acid, reid) with
    | none => trivial
    | some n =>
      refine ⟨?_, fun e he => List.mem_append_left _ he, fun hn _ => ?_⟩
      · exact fun e he => (List.mem_append.1 he).imp_right eq_of_mem_seen
      · rw [seen_pos hn]
        exact List.mem_append_right _ (List.mem_singleton.2 rfl)

/-- One of the stock is taken, if the reward has one. -/
theorem does_decrActiveRewardNum {acid reid : String}
    (hsaw : (s₀.stock (acid, reid)).isSome = true → .saw (.stock acid reid) ∈ l) (hnew : .took (.stock acid reid) ∉ l) :
    Does s₀ (fun l' _ => ∃ n ts, l' = l ++ (seen (.stock acid reid) n ++ ts) ∧
      (ts = [.took (.stock acid reid)] ∨ ts = [] ∧ (s₀.stock (acid, reid)).isSome = false)) l
      (decrActiveRewardNum acid reid) := by
  apply does_own rfl
  intro s hs
  have hexists : (Exec.exec (Own.existsStock acid reid) s).1 = (s₀.stock (acid, reid)).isSome := hs.limited _
  rw [hexists]
  cases hlimited : (s₀.stock (acid, reid)).isSome with
  | false => exact ⟨none, [], by simp [seen], .inr ⟨rfl, rfl⟩⟩
  | true =>
    refine does_shown fun s' _ => ⟨rule_look _ _ _ _, ?_⟩
    refine fun t ht => ⟨rule_took ⟨rfl, ?_⟩ ?_ (List.mem_append_left _ (hsaw hlimited)) ?_, _, _,
      List.append_assoc .., .inl rfl⟩
    · -- the reward had a stock already
      intro k
      have hsome := ht.limited (acid, reid)
      show (Function.update t.stock (acid, reid) _ k).isSome = _
      by_cases hk : k = (acid, reid)
      · rw [hk, Function.update_self, hsome, hlimited]
        rfl
      · rw [Function.update_of_ne hk]
    · intro k
      cases k with
      | num a b => exact (Int.sub_zero _).symm
      | stock a b =>
        show val (incrby t.stock (acid, reid) (-1)) (a, b) = val t.stock (a, b) - _
        rw [val_incrby]
        simp only [Prod.mk.injEq, Key.stock.injEq]
        split <;> rfl
    · rw [List.mem_append]
      rintro (h | h)
      · exact hnew h
      · cases eq_of_mem_seen h

/-! ### What is drawn from -/

/-- The draw has looked at numbers only, and has seen a chance. -/
structure Looked (acid account : String) (l : List Ev) : Prop where
  all : ∀ e ∈ l, ∃ k, e = .saw k
  chance : .saw (.num acid account) ∈ l

/-- The rewards that an activity names. -/
def Activice.rewardIds (a : Activice) : List String :=
  a.rewardList.map (·.rewardId) ++ a.specialPlan.flatMap fun plan => plan.specialRate.map (·.planRewardId)

/-- The draw has looked, and has seen what is left of the rewards of the wheel. -/
structure Filled (s₀ : St) (acid account : String) (ids : List String) (l : List Ev) (w : Wheel) : Prop where
  looked : Looked acid account l
  named : ∀ r ∈ w.rewards, r.2 ∈ ids
  seen : ∀ r ∈ w.rewards, (s₀.stock (acid, r.2)).isSome = true → .saw (.stock acid r.2) ∈ l

theorem does_fillWheel {acid account : String} {ids : List String} {rs : List Rated} (hids : ∀ r ∈ rs, r.searchId ∈ ids)
    {w : Wheel} (h : Filled s₀ acid account ids l w) : Does s₀ (Filled s₀ acid account ids) l (fillWheel acid rs w) := by
  induction rs generalizing l w with
  | nil => exact h
  | cons reward rest ih =>
    obtain ⟨hreward, hrest⟩ := List.forall_mem_cons.1 hids
    refine meets_bind (does_getActiveRewardNum acid reward.searchId) ?_
    rintro l' n ⟨hle, hge, hpos⟩
    -- what was looked at before has still been looked at
    have hlooked : Looked acid account l' := by
      refine ⟨fun e he => ?_, hge _ h.looked.chance⟩
      rcases hle e he with he | rfl
      · exact h.looked.all e he
      · exact ⟨_, rfl⟩
    have hseen : ∀ r ∈ w.rewards, (s₀.stock (acid, r.2)).isSome = true → .saw (.stock acid r.2) ∈ l' :=
      fun r hr hlimited => hge _ (h.seen r hr hlimited)
    split
    · exact ih hrest ⟨hlooked, h.named, hseen⟩
    next hn =>
    refine meets_orRaise fun rate _ => meets_orRaise fun side _ => ih hrest ⟨hlooked, ?_, ?_⟩
    · exact List.forall_mem_cons.2 ⟨hreward, h.named⟩
    · exact List.forall_mem_cons.2 ⟨hpos (Int.not_le.1 hn), hseen⟩

theorem mem_meetPlan {total : Int} {plans : List Plan} {best : Option (Int × Plan)} {plan : Plan}
    (h : meetPlan total plans best = .ok (some plan)) : plan ∈ plans ∨ best.map Prod.snd = some plan := by
  induction plans generalizing best with
  | nil => exact .inr (Except.ok.inj h)
  | cons p plans ih =>
    unfold meetPlan at h
    split at h
    · split at h
      · cases h
      · rcases ih h with hmem | hbest
        · exact .inl (List.mem_cons_of_mem p hmem)
        · split at hbest
          · exact .inr hbest
          · exact .inl (Option.some.inj hbest ▸ List.mem_cons_self)
      · exact (ih h).imp_left (List.mem_cons_of_mem p)
    · cases h

theorem does_getMeetConfidion (acid : String) (plans : List Plan) :
    Does s₀ (fun l' plan => l' = l ∧ ∀ p, plan = some p → p ∈ plans) l (getMeetConfidion acid plans) := by
  unfold getMeetConfidion
  apply meets_skip
  · refine ⟨silent_own rfl, fun b => ?_⟩
    cases b with
    | false => trivial
    | true => exact ⟨silent_own rfl, fun n => by cases n <;> trivial⟩
  intro count
  dsimp only
  cases hplan : meetPlan (count + 1) plans none with
  | error e => trivial
  | ok plan =>
    refine ⟨rfl, ?_⟩
    rintro p rfl
    exact (mem_meetPlan hplan).resolve_right (fun h => by cases h)

theorem does_getWheel {acid account : String} {a : Activice} (hl : Looked acid account l) :
    Does s₀ (Filled s₀ acid account a.rewardIds) l (getWheel acid a) := by
  have hempty : Filled s₀ acid account a.rewardIds l ⟨[], []⟩ :=
    ⟨hl, fun r hr => absurd hr List.not_mem_nil, fun r hr => absurd hr List.not_mem_nil⟩
  have hlist : Does s₀ (Filled s₀ acid account a.rewardIds) l
      (fillWheel acid (a.rewardList.map Listed.rated) ⟨[], []⟩) := by
    refine does_fillWheel ?_ hempty
    intro r hr
    obtain ⟨listed, hlisted, rfl⟩ := List.mem_map.1 hr
    exact List.mem_append_left _ (List.mem_map.2 ⟨listed, hlisted, rfl⟩)
  have hplan : ∀ plan ∈ a.specialPlan, Does s₀ (Filled s₀ acid account a.rewardIds) l
      (fillWheel acid plan.rated ⟨[], []⟩) := by
    intro plan hmem
    refine does_fillWheel ?_ hempty
    intro r hr
    obtain ⟨⟨planned, i⟩, hplanned, rfl⟩ := List.mem_map.1 hr
    refine List.mem_append_right _ (List.mem_flatMap.2 ⟨plan, hmem, List.mem_map.2 ⟨planned, ?_, rfl⟩⟩)
    exact List.fst_mem_of_mem_zipIdx hplanned
  unfold getWheel
  split
  · exact hlist
  · refine meets_bind (does_getMeetConfidion acid a.specialPlan) ?_
    rintro l' plan ⟨rfl, hmem⟩
    cases plan with
    | none => exact hlist
    | some plan => exact hplan plan (hmem plan rfl)

theorem does_getActiciveInfo (acid : String) :
    Does s₀ (fun l' o => l' = l ∧ ∀ a, o = some a → s₀.setup.activice acid = some a) l (getActiciveInfo acid) := by
  apply does_own rfl
  intro s _
  cases (Exec.exec (Own.existsActivice acid) s).1 with
  | false => exact ⟨rfl, fun a ha => by cases ha⟩
  | true =>
    apply meets_cmd (silent_own rfl)
    intro s' hs'
    refine ⟨rfl, fun a ha => ?_⟩
    rw [← hs'.setup]
    exact ha

/-! ### The reward -/

theorem does_getRewardInfo (key_id : String) :
    Does s₀ (fun l' o => l' = l ∧ o = s₀.setup.rewards.table key_id) l (getRewardInfo key_id) := by
  apply does_own rfl
  intro s hs
  have hexists : (Exec.exec (Own.existsReward key_id) s).1 = (s₀.setup.rewards.table key_id).isSome :=
    congrArg (fun f : Setup => (f.rewards.table key_id).isSome) hs.setup
  rw [hexists]
  cases htable : s₀.setup.rewards.table key_id with
  | none => exact ⟨rfl, rfl⟩
  | some data =>
    refine does_own rfl fun s' hs' => ?_
    have hget : (Exec.exec (Own.hgetallReward key_id) s').1 = some data := by
      rw [← htable, ← hs'.setup]
      rfl
    rw [hget]
    dsimp only
    split
    · trivial
    · exact ⟨rfl, rfl⟩

theorem only_getRewardInfo (key_id : String) : Only (Silent (Same s₀) rule) (getRewardInfo key_id) := by
  refine ⟨silent_own rfl, fun b => ?_⟩
  cases b with
  | false => trivial
  | true =>
    refine ⟨silent_own rfl, fun data => ?_⟩
    cases data with
    | none => trivial
    | some data => exact (only_ite _ _ _ _).2 ⟨fun _ => trivial, fun _ => trivial⟩

theorem only_packMin (singles : List Single) (p : Pack) : Only (Silent (Same s₀) rule) (packMin singles p) := by
  induction singles generalizing p with
  | nil => trivial
  | cons singleData rest ih =>
    refine (only_orRaise_bind _ _ _ _).2 fun mincount _ => ?_
    apply only_bind _ (only_getRewardInfo singleData.singleId)
    intro o
    refine (only_orRaise_bind _ _ _ _).2 fun reward _ => ?_
    apply only_bind _ (only_ofExcept _ _)
    intro price
    split
    · trivial
    · exact only_bind _ (only_ofExcept _ _) ih

theorem only_singleCount (singleData : Single) (price_total : Int) :
    Only (Silent (Same s₀) rule) (singleCount singleData price_total) := by
  refine (only_orRaise_bind _ _ _ _).2 fun mincount _ => (only_orRaise_bind _ _ _ _).2 fun maxcount _ => ?_
  apply only_bind _ (only_getRewardInfo singleData.singleId)
  intro o
  refine (only_orRaise_bind _ _ _ _).2 fun reward _ => ?_
  apply only_bind _ (only_ofExcept _ _)
  intro price
  dsimp only
  split <;> trivial

theorem only_packMore (rnd : Draws) (singles : List Single) (p : Pack) :
    Only (Silent (Same s₀) rule) (packMore rnd singles p) := by
  induction singles generalizing p with
  | nil => trivial
  | cons singleData rest ih =>
    apply only_bind _ (only_singleCount singleData p.price_total)
    rintro ⟨reward, price, count⟩
    dsimp only
    split
    · exact ih p
    · exact only_bind _ (only_ofExcept _ _) ih

theorem only_packLast (singles : List Single) (p : Pack) : Only (Silent (Same s₀) rule) (packLast singles p) := by
  refine (only_orRaise_bind _ _ _ _).2 fun singleData _ => ?_
  apply only_bind _ (only_singleCount singleData p.price_total)
  rintro ⟨reward, price, count⟩
  exact only_ofExcept _ _

theorem only_givePack (rnd : Draws) (reward_info : RewardInfo) : Only (Silent (Same s₀) rule) (givePack rnd reward_info) := by
  apply only_bind _ (only_ofExcept _ _)
  intro price_total
  refine (only_orRaise_bind _ _ _ _).2 fun singles _ => ?_
  apply only_bind _ (only_packMin singles _)
  intro p
  split
  · trivial
  apply only_bind _ (only_packMore rnd _ p)
  intro p
  dsimp only
  split
  · exact only_bind _ (only_packLast singles p) fun _ => trivial
  · trivial

/-- What a reward comes to is looked up only. -/
theorem only_give (rnd : Draws) (reward_info : RewardInfo) : Only (Silent (Same s₀) rule) (give rnd reward_info) := by
  unfold give
  split
  · exact only_bind _ (only_ofExcept _ _) fun _ => trivial
  split
  · exact only_givePack rnd reward_info
  split
  · exact (only_orRaise_bind _ _ _ _).2 fun _ _ => trivial
  · trivial

/-! ### Draws -/

/-- The chances that the events take, as activity and account. -/
def chances (l : List Ev) : List (String × String) := l.filterMap fun
  | .took (.num acid account) => some (acid, account)
  | _ => none

/-- The rewards that the events show as won. -/
def wins (l : List Ev) : List (String × String) := l.filterMap fun
  | .won acid reid => some (acid, reid)
  | _ => none

/-- A draw that succeeds has taken one chance and won one reward, and one of its stock if it has any. -/
def Ends (s₀ : St) (acid account : String) (l : List Ev) (reply : Reply) : Prop :=
  reply.code = 0 → chances l = [(acid, account)] ∧ ∃ reid, wins l = [(acid, reid)] ∧
    ((s₀.stock (acid, reid)).isSome = true → .took (.stock acid reid) ∈ l)

/-- What a draw has shown by its pipeline. -/
theorem ends_of {acid account reid : String} {l ts : List Ev} {n : Option Int} (hl : Looked acid account l)
    (hts : ts = [.took (.stock acid reid)] ∨ ts = [] ∧ (s₀.stock (acid, reid)).isSome = false) (reply : Reply) :
    Ends s₀ acid account (l ++ (seen (.stock acid reid) n ++ ts) ++ [.won acid reid] ++ [.took (.num acid account)]) reply := by
  have hlooks : ∀ l' : List Ev, (∀ e ∈ l', ∃ k, e = .saw k) → chances l' = [] ∧ wins l' = [] := by
    intro l' h
    refine ⟨List.filterMap_eq_nil_iff.2 fun e he => ?_, List.filterMap_eq_nil_iff.2 fun e he => ?_⟩
    · obtain ⟨k, rfl⟩ := h e he
      rfl
    · obtain ⟨k, rfl⟩ := h e he
      rfl
  obtain ⟨hc, hw⟩ := hlooks l hl.all
  obtain ⟨hc', hw'⟩ := hlooks (seen (.stock acid reid) n) fun e he => ⟨_, eq_of_mem_seen he⟩
  unfold chances at hc hc'
  unfold wins at hw hw'
  intro _
  unfold chances wins
  rcases hts with rfl | ⟨rfl, hnone⟩
  · refine ⟨?_, reid, ?_, fun _ => by simp⟩
    · simp [hc, hc']
    · simp [hw, hw']
  · refine ⟨?_, reid, ?_, fun h => by rw [hnone] at h; cases h⟩
    · simp [hc, hc']
    · simp [hw, hw']

theorem does_award (consts : Consts) (rnd : Draws) (now : Date) {acid account : String} (userTable : String)
    (groupId nickname : Option String) (pos : Int) (reward_info : RewardInfo) (hl : Looked acid account l)
    (hsaw : (s₀.stock (acid, reward_info.id)).isSome = true → .saw (.stock acid reward_info.id) ∈ l) :
    Does s₀ (Ends s₀ acid account) l (award consts rnd now acid account userTable groupId nickname pos reward_info) := by
  have hnew : ∀ k, Ev.took k ∉ l := by
    intro k h
    obtain ⟨k', hk'⟩ := hl.all _ h
    cases hk'
  refine meets_orRaise fun id _ => ?_
  apply meets_skip (only_give rnd reward_info)
  intro given
  refine meets_bind (does_decrActiveRewardNum hsaw (hnew _)) ?_
  rintro l' - ⟨n, ts, rfl, hts⟩
  refine meets_orRaise fun rewardTitle _ => meets_orRaise fun rewardNum _ => ?_
  refine does_own rfl fun s _ => does_shown fun s' _ => ⟨?_, ?_⟩
  · exact rule_won _ _ _ ⟨rfl, fun _ => rfl⟩ fun k => by cases k <;> rfl
  -- the record of what has not been fetched, where there is one
  have hlast : ∀ ret_reward_list : List Prize, Does s₀ (Ends s₀ acid account)
      (l ++ (seen (.stock acid reward_info.id) n ++ ts) ++ [.won acid reward_info.id]) (do
        descLotteryNum acid account
        send (.execute (given.cards.toList.map fun cards => ((fmt groupId, id), cards)))
        return { code := 0, msg := "", data := some (pos, ret_reward_list) }) := by
    intro ret_reward_list
    refine does_shown fun t _ => ⟨rule_took ⟨rfl, fun _ => rfl⟩ ?_ ?_ ?_, ?_⟩
    · intro k
      cases k with
      | num a b =>
        show val (incrby t.num (acid, account) (-1)) (a, b) = val t.num (a, b) - _
        rw [val_incrby]
        simp only [Prod.mk.injEq, Key.num.injEq]
        split <;> rfl
      | stock a b => exact (Int.sub_zero _).symm
    · exact List.mem_append_left _ (List.mem_append_left _ hl.chance)
    · have hne : Ev.took (.num acid account) ∉ ts := by rcases hts with rfl | ⟨rfl, -⟩ <;> simp
      simp only [List.mem_append, List.mem_singleton, reduceCtorEq, or_false, not_or]
      exact ⟨hnew _, fun h => (by cases eq_of_mem_seen h), hne⟩
    · exact does_own rfl fun _ _ => ends_of hl hts _
  obtain ⟨ret_reward_list, cards, isRecord⟩ := given
  cases isRecord with
  | true => exact does_own rfl fun _ _ => hlast _
  | false => exact hlast _

theorem does_draw (consts : Consts) (rnd : Draws) (now : Date) {acid account : String} (userTable : String)
    (hrewards : ∀ a, s₀.setup.activice acid = some a → ∀ id ∈ a.rewardIds, (s₀.setup.rewards.table id).isSome = true) :
    Does s₀ (Ends s₀ acid account) [] (draw consts rnd now acid account userTable) := by
  refine does_own rfl fun _ _ => does_own rfl fun _ _ => ?_
  refine meets_bind (does_getLotteryNum acid account) ?_
  intro l n hn
  split
  · exact fun h => by cases h
  next hpos =>
  obtain rfl := hn (Int.not_le.1 hpos)
  have hlooked : Looked acid account [.saw (.num acid account)] :=
    ⟨fun e he => ⟨_, List.mem_singleton.1 he⟩, List.mem_singleton.2 rfl⟩
  apply meets_skip (p := checkActiviceIsonline consts acid) ⟨silent_own rfl, fun _ => trivial⟩
  intro online
  split
  · exact fun h => by cases h
  refine meets_bind (does_getActiciveInfo acid) ?_
  rintro l o ⟨rfl, ho⟩
  refine meets_orRaise fun a ha => ?_
  refine meets_bind (does_getWheel hlooked) ?_
  intro l w hw
  refine does_own rfl fun _ _ => ?_
  cases pick (rnd 0) w.probabilitys with
  | none => exact fun h => by cases h
  | some pos =>
  refine meets_orRaise fun searchId hlookup => ?_
  obtain ⟨l₁, l₂, hsplit, -⟩ := List.lookup_eq_some_iff.1 hlookup
  have hmem : (pos, searchId) ∈ w.rewards := by
    rw [hsplit]
    exact List.mem_append_right _ List.mem_cons_self
  refine meets_bind (does_getRewardInfo searchId) ?_
  rintro l o ⟨rfl, rfl⟩
  obtain ⟨reward_info, htable⟩ := Option.isSome_iff_exists.1 (hrewards a (ho a ha) searchId (hw.named _ hmem))
  obtain rfl := s₀.setup.rewards.id_eq searchId reward_info htable
  rw [htable]
  exact does_award consts rnd now userTable _ _ pos reward_info hw.looked (hw.seen _ hmem)

/-- The activity and the user of a request. -/
def Req.acid (q : Req) : Option String := (split '_' q.id)[1]?

def Req.account (f : Setup) (q : Req) : String := fmt (f.shared.info ((split '_' q.id)[0]?.getD "")).account

/-- The rewards that the activity names all exist. -/
def Setup.RewardsExist (f : Setup) (acid : String) : Prop :=
  ∀ a, f.activice acid = some a → ∀ id ∈ a.rewardIds, (f.rewards.table id).isSome = true

/-- What a request has done if it succeeds. -/
def Req.Ends (s₀ : St) (q : Req) (l : List Ev) (reply : Reply) : Prop :=
  reply.code = 0 → ∃ acid, q.acid = some acid ∧ Lottery.Ends s₀ acid (q.account s₀.setup) l reply

theorem does_getInfoBySid (sid : String) :
    Does s₀ (fun l' info => l' = l ∧ info.account = (s₀.setup.shared.info sid).account) l (getInfoBySid sid) := by
  refine meets_cmd (silent_ask _) fun s hs => meets_cmd (silent_ask _) fun _ _ => ⟨rfl, ?_⟩
  rw [← hs.setup]
  rfl

theorem does_drawReward (consts : Consts) (q : Req) (hrewards : ∀ acid, q.acid = some acid → s₀.setup.RewardsExist acid) :
    Does s₀ (q.Ends s₀) [] (q.handler consts) := by
  refine meets_orRaise fun sid hsid => meets_orRaise fun acid hacid => ?_
  refine meets_bind (does_getInfoBySid sid) ?_
  rintro l info ⟨rfl, hinfo⟩
  have haccount : fmt info.account = q.account s₀.setup := by
    rw [Req.account, hsid, hinfo]
    rfl
  dsimp only
  split
  · exact fun h => by cases h
  refine does_ask fun live => ?_
  split
  · exact fun h => by cases h
  refine does_ask fun userTable => does_ask fun found => ?_
  split
  · exact fun h => by cases h
  rw [haccount, ← Prog.bind_ret (draw _ _ _ _ _ _)]
  refine meets_bind (does_draw consts q.rnd q.now _ (hrewards acid hacid)) ?_
  exact fun l reply h _ => ⟨acid, hacid, h⟩

end Parts

/-! ## Runs -/

/-- The requests, none of which has begun. -/
def start (consts : Consts) (s : St) (qs : List Req) : Conf Ev Err Cmd St Reply := ⟨⟨s, []⟩, qs.map (Req.handler consts)⟩

/-- The draw has returned with success. -/
def succeeded : Option (Handler Reply) → Bool
  | some (.ret reply) => reply.code = 0
  | _ => false

theorem exists_of_succeeded {p : Option (Handler Reply)} (h : succeeded p = true) :
    ∃ reply, p = some (.ret reply) ∧ reply.code = 0 := by
  cases p with
  | none => cases h
  | some p =>
    cases p with
    | ret reply => exact ⟨reply, rfl, of_decide_eq_true h⟩
    | raise e => cases h
    | cmd b k => cases h

/-- How many draws have returned the reward. -/
def returned (acid reid : String) (c : Conf Ev Err Cmd St Reply) : Nat :=
  ((Finset.range c.progs.length).filter fun i =>
    succeeded c.progs[i]? && (wins (eventsOf i c.world.log)).contains (acid, reid)).card

/-- If whoever sees something left of a number sees more than the others have in mind, the number does not fall below
zero, and a reward is returned no more often than its stock allows. Under any schedule, a draw that succeeds takes one
chance, of its user. -/
theorem lottery_counters {consts : Consts} {s : St} {qs : List Req} {G : Guard Ev Err Cmd St Reply}
    {c : Conf Ev Err Cmd St Reply} (hr : Reach G (start consts s qs) c)
    (hrewards : ∀ q ∈ qs, ∀ acid, q.acid = some acid → s.setup.RewardsExist acid) :
    (∀ k : Key, (∀ c i evs c', G c i evs c' → k.reserve.roomy c i evs c') → 0 ≤ s.left k →
      0 ≤ c.world.store.left k ∧
      ∀ acid reid, k = .stock acid reid → (s.stock (acid, reid)).isSome = true → (returned acid reid c : Int) ≤ s.left k) ∧
    ∀ i reply, c.progs[i]? = some (.ret reply) → reply.code = 0 → ∃ q acid, qs[i]? = some q ∧ q.acid = some acid ∧
      chances (eventsOf i c.world.log) = [(acid, q.account s.setup)] := by
  have hI : ∀ l t evs t', Same s t → rule l t evs t' → Same s t' := fun _ _ _ _ h h' => h.trans h'.1
  have hstart : Known (Same s) rule (fun i l reply => ∃ q, qs[i]? = some q ∧ q.Ends s l reply) (start consts s qs) := by
    refine known_start (same_refl s) ?_
    intro i p hp
    rw [List.getElem?_map] at hp
    obtain ⟨q, hq, rfl⟩ := Option.map_eq_some_iff.1 hp
    rw [← Prog.bind_ret (q.handler consts)]
    refine meets_bind (does_drawReward consts q (hrewards q (List.mem_of_getElem? hq))) ?_
    exact fun l reply h => ⟨q, hq, h⟩
  have hknown := reach_known hI hr hstart
  constructor
  · intro k hG hleft
    have hfair : ∀ l t evs t', rule l t evs t' → k.reserve.Fair l t evs t' := fun _ _ _ _ h => h.2 k
    have hnonneg : 0 ≤ c.world.store.left k := Reserve.left_nonneg hI hfair hG hr hstart rfl hleft
    refine ⟨hnonneg, ?_⟩
    rintro acid reid rfl hlimited
    have heq : c.world.store.left (.stock acid reid) =
        s.left (.stock acid reid) - (Key.stock acid reid).reserve.taken c.world.log := Reserve.left_eq hI hfair hr hstart rfl
    have hcard : returned acid reid c ≤ (Key.stock acid reid).reserve.taken c.world.log := by
      refine Reserve.card_le_taken _ fun i hi => ?_
      rw [Finset.mem_filter, Bool.and_eq_true] at hi
      obtain ⟨-, hret, hwins⟩ := hi
      -- it has returned with success, so it has taken one of what it won
      obtain ⟨reply, hreply, hcode⟩ := exists_of_succeeded hret
      obtain ⟨q, -, hends⟩ := hknown.returned hreply
      obtain ⟨acid', -, hdone⟩ := hends hcode
      obtain ⟨-, reid', hwon, htook⟩ := hdone hcode
      rw [hwon, List.contains_iff_mem, List.mem_singleton] at hwins
      obtain ⟨rfl, rfl⟩ := Prod.mk.inj hwins
      exact List.any_eq_true.2 ⟨_, htook hlimited, decide_eq_true rfl⟩
    omega
  · intro i reply hi hcode
    obtain ⟨q, hq, hends⟩ := hknown.returned hi
    obtain ⟨acid, hacid, hdone⟩ := hends hcode
    exact ⟨q, acid, hq, hacid, (hdone hcode).1⟩

/-! ## Two draws at once -/

def demoReward : RewardInfo := ⟨"5", some "phone", none, none, none, none, none⟩

/-- A user with one chance, in an activity with one reward, of which there is one. -/
def demo : St where
  setup := {
    shared := {
      session := fun sid => if sid = "s" then some ("a", "1") else none
      platform := fun _ => none
      kick := fun _ => false
      userTable := fun account => if account = "a" then some "users:1" else none
      isUser := fun userTable => userTable = "users:1"
      active := fun _ => none }
    parentAg := fun _ => some "9"
    nickname := fun _ => none
    activice := fun acid => if acid = "7" then some ⟨some "1", [⟨"5", some 100, some 0⟩], []⟩ else none
    rewards := ⟨fun k => if k = "5" then some demoReward else none, by
      intro k r h
      split at h
      · next hk => rw [hk, ← Option.some.inj h]; rfl
      · cases h⟩ }
  num := fun k => if k = ("7", "a") then some 1 else none
  count := fun _ => none
  stock := fun k => if k = ("7", "5") then some 1 else none
  card := fun _ => none
  awardeesCount := 0
  awardees := fun _ => none
  awardeesList := fun _ => []
  noreward := fun _ => none

def demoConsts : Consts := ⟨"1", "/hall"⟩

theorem newYear_valid : 1 ≤ 2024 ∧ 0 < Calendar.yearDays 2024 := by decide

/-- A draw of that user. -/
def demoReq : Req := ⟨⟨2024, 0, newYear_valid⟩, fun _ => 0, "s_7"⟩

theorem demo_rewards : ∀ q ∈ [demoReq, demoReq], ∀ acid, q.acid = some acid → demo.setup.RewardsExist acid := by
  intro q _ acid _ a ha id hid
  have hact : demo.setup.activice acid = if acid = "7" then some ⟨some "1", [⟨"5", some 100, some 0⟩], []⟩ else none := rfl
  rw [hact] at ha
  split at ha
  · obtain rfl := Option.some.inj ha
    obtain rfl : id = "5" := by simpa [Activice.rewardIds] using hid
    rfl
  · cases ha

/-- Two draws that take turns. -/
def demoTurns : Conf Ev Err Cmd St Reply := turns (List.replicate 40 [0, 1]).flatten (start demoConsts demo [demoReq, demoReq])

/-- Both take the one chance, and both return the one reward. -/
theorem lottery_overdrawn : demo.left (.num "7" "a") = 1 ∧ demo.left (.stock "7" "5") = 1 ∧
    ∃ c, Reach noGuard (start demoConsts demo [demoReq, demoReq]) c ∧ c.world.store.left (.num "7" "a") = -1 ∧
      c.world.store.left (.stock "7" "5") = -1 ∧ returned "7" "5" c = 2 :=
  ⟨by decide +kernel, by decide +kernel, demoTurns, reach_turns (allowed_noGuard _ _), by decide +kernel, by decide +kernel,
    by decide +kernel⟩

/-- No draw sees the chance or the stock while the other has it in mind. -/
def demoGuard : Guard Ev Err Cmd St Reply := fun c i evs c' =>
  (Key.num "7" "a").reserve.roomy c i evs c' ∧ (Key.stock "7" "5").reserve.roomy c i evs c'

instance (c : Conf Ev Err Cmd St Reply) (i : Nat) (evs : List Ev) (c' : Conf Ev Err Cmd St Reply) :
    Decidable (demoGuard c i evs c') :=
  inferInstanceAs (Decidable (_ ∧ _))

/-- One draw after the other. -/
def demoOrder : Conf Ev Err Cmd St Reply :=
  turns (List.replicate 40 0 ++ List.replicate 40 1) (start demoConsts demo [demoReq, demoReq])

/-- The second draw is refused. -/
theorem lottery_counters_in_order : 0 ≤ demoOrder.world.store.left (.num "7" "a") ∧
    0 ≤ demoOrder.world.store.left (.stock "7" "5") ∧ (returned "7" "5" demoOrder : Int) ≤ demo.left (.stock "7" "5") ∧
    ∃ q acid, [demoReq, demoReq][0]? = some q ∧ q.acid = some acid ∧
      chances (eventsOf 0 demoOrder.world.log) = [(acid, q.account demo.setup)] := by
  have hr : Reach demoGuard (start demoConsts demo [demoReq, demoReq]) demoOrder := reach_turns (by decide +kernel)
  obtain ⟨hkeys, hdone⟩ := lottery_counters hr demo_rewards
  have hstock := hkeys (.stock "7" "5") (fun _ _ _ _ h => h.2) (by decide +kernel)
  obtain ⟨reply, hreply, hcode⟩ := exists_of_succeeded (p := demoOrder.progs[0]?) (by decide +kernel)
  refine ⟨(hkeys (.num "7" "a") (fun _ _ _ _ h => h.1) (by decide +kernel)).1, hstock.1,
    hstock.2 "7" "5" rfl (by decide +kernel), hdone 0 reply hreply hcode⟩

end FishWeb.Lottery
