import FishWeb.Box.Model
import FishWeb.Lib.Runs
/-!
# Saving and taking

A save or a take moves an amount between the wallet and the box: each item's sum
stays, and nothing goes below zero. A take of diamonds also adds to the player's
items, so the runs that keep every amount are those that take none.
-/
open Python Prog Counters Runs

namespace FishWeb.Box

/-- A program changes the amounts by the increments of its trace. -/
theorem run_amounts {α : Type} (p : Handler α) (s : St) :
    (run p s).2.amounts = incrAll (trace (Place × Int) p s) s.amounts := by
  induction p generalizing s with
  | ret a => rfl
  | raise e => rfl
  | cmd c k ih => rw [run_step, ih, exec_amounts, trace_step, incrAll_append]

/-- Where a user carries an item outside the box. -/
def wallet (uid item_id : String) : Place :=
  if item_id = "1" then .diamond uid else if item_id = "2" then .coin uid else .item uid item_id

theorem wallet_injective {uid uid' i i' : String} (h : wallet uid i = wallet uid' i') : uid = uid' ∧ i = i' := by
  unfold wallet at h
  by_cases h1 : i = "1" <;> by_cases h2 : i = "2" <;> by_cases h1' : i' = "1" <;> by_cases h2' : i' = "2" <;>
    simp_all

/-- Each item has a wallet and a box of its own. -/
theorem wallet_eq_iff {uid uid' i i' : String} : wallet uid i = wallet uid' i' ↔ Place.box uid i = .box uid' i' := by
  constructor
  · intro h
    obtain ⟨rfl, rfl⟩ := wallet_injective h
    rfl
  · intro h
    cases h
    rfl

theorem wallet_ne_box (uid i uid' i' : String) : wallet uid i ≠ .box uid' i' := by
  unfold wallet
  split
  · simp
  · split <;> simp

/-- The item table's entry for diamonds is nobody's wallet. -/
theorem wallet_ne_item_one (uid i uid' : String) : wallet uid i ≠ .item uid' "1" := by
  unfold wallet
  split
  · simp
  · split
    · simp
    · simp_all

theorem wallet_one (uid : String) : wallet uid "1" = .diamond uid := rfl

theorem wallet_two (uid : String) : wallet uid "2" = .coin uid := by simp [wallet]

theorem wallet_other {i : String} (h1 : i ≠ "1") (h2 : i ≠ "2") (uid : String) : wallet uid i = .item uid i := by
  simp [wallet, h1, h2]

/-- The places a take credits: diamonds go to two. -/
def credits (uid item_id : String) : List Place :=
  if item_id = "1" then [.diamond uid, .item uid "1"] else [wallet uid item_id]

/-! ## The increments of a request -/

/-- One increment after another, then an answer. -/
def pay (l : List (Place × Int)) (reply : Reply) : Handler Reply :=
  match l with
  | [] => .ret reply
  | e :: l => .cmd (.hincrby e.1 e.2) fun _ => pay l reply

theorem trace_pay (l : List (Place × Int)) (reply : Reply) (s : St) : trace (Place × Int) (pay l reply) s = l := by
  induction l generalizing s with
  | nil => rfl
  | cons e l ih => exact congrArg (e :: ·) (ih _)

section Increments
variable {num : String} {n : Int} (uid item_id : String)

theorem saveInto_eq (hr : redisInt num = some n) (w : Place) :
    saveInto uid item_id w num n = pay [(.box uid item_id, n), (w, -n)] (say 0 "存放成功！") := by
  simp [saveInto, hincrbyStr, hr, pay, call]

theorem saveInto_malformed (hr : redisInt num = none) (w : Place) :
    saveInto uid item_id w num n = .raise .ResponseError := by
  simp [saveInto, hincrbyStr, hr]

theorem takeOut_eq (hr : redisInt num = some n) : takeOut uid item_id num n =
    pay ((credits uid item_id).map (·, n) ++ [(.box uid item_id, -n)]) (say 0 "提取成功!") := by
  by_cases h1 : item_id = "1"
  · subst h1; simp [takeOut, takeCredit, hincrbyStr, hr, pay, call, credits]
  by_cases h2 : item_id = "2"
  · subst h2; simp [takeOut, takeCredit, hincrbyStr, hr, pay, call, credits, wallet_two]
  · simp [takeOut, takeCredit, hincrbyStr, hr, pay, call, credits, h1, h2, wallet_other h1 h2]

theorem takeOut_malformed (hr : redisInt num = none) : takeOut uid item_id num n = .raise .ResponseError := by
  by_cases h1 : item_id = "1" <;> by_cases h2 : item_id = "2" <;> simp [takeOut, takeCredit, hincrbyStr, hr, h1, h2]

end Increments

/-! ## What the requests are made of -/

def Cmd.Reads {β : Type} : Cmd β → Prop
  | .hset _ _ _ | .hmset _ _ | .hincrby _ _ | .hincrbyCharge _ _ | .deleteCode _ => False
  | .sessionUid _ | .hget _ _ | .hgetAmount _ | .hgetTitle _ | .getCode _ | .hmgetCourse _ | .hmgetGoods _ => True

theorem exec_reads {β : Type} {c : Cmd β} (h : c.Reads) (s : St) : (Exec.exec c s).2 = s := by
  cases c with
  | hset | hmset | hincrby | hincrbyCharge | deleteCode => exact h.elim
  | _ => rfl

theorem note_reads {β : Type} {c : Cmd β} (h : c.Reads) (b : β) : (Note.note c b : List (Place × Int)) = [] := by
  cases c with
  | hset | hmset | hincrby | hincrbyCharge | deleteCode => exact h.elim
  | _ => rfl

section Rules
variable {P : Handler Reply → Prop} (hret : ∀ reply, P (.ret reply)) (hraise : ∀ e, P (.raise e))
  (hread : ∀ {β : Type} (c : Cmd β) (f : β → Handler Reply), c.Reads → (∀ b, P (f b)) → P (call c >>= f))

include hret hraise hread

/-- What holds of every answer and of the increments, and is kept by reading, holds of a save. -/
theorem boxSave_rule (sid item_id num : String)
    (hpay : ∀ n uid, int num = some n → 0 < n → P (saveInto uid item_id (wallet uid item_id) num n)) :
    P (boxSave sid item_id num) := by
  unfold boxSave
  cases hn : int num with
  | none => exact hraise _
  | some n =>
  rw [orRaise_some, ret_bind]
  split
  · exact hret _
  next hpos =>
  replace hpos := Int.not_le.1 hpos
  refine hread _ _ (by trivial) fun session => ?_
  split
  · exact hret _
  split
  · next h1 =>
    subst h1
    refine hread _ _ (by trivial) fun cur_d => ?_
    dsimp only
    split
    · exact hret _
    · exact hpay n (uidStr session) hn hpos
  split
  · next h2 =>
    subst h2
    refine hread _ _ (by trivial) fun cur_c => ?_
    dsimp only
    split
    · exact hret _
    · rw [← wallet_two]
      exact hpay n (uidStr session) hn hpos
  next h1 h2 =>
  refine hread _ _ (by trivial) fun cur_item_num => ?_
  refine hread _ _ (by trivial) fun title => ?_
  split
  · cases title with
    | none => exact hraise _
    | some title => exact hret _
  · rw [← wallet_other h1 h2]
    exact hpay n (uidStr session) hn hpos

theorem boxTake_rule (sid item_id num : String)
    (hpay : ∀ n uid, int num = some n → 0 ≤ n → P (takeOut uid item_id num n)) : P (boxTake sid item_id num) := by
  unfold boxTake
  cases hn : int num with
  | none => exact hraise _
  | some n =>
  rw [orRaise_some, ret_bind]
  split
  · exact hret _
  next hneg =>
  refine hread _ _ (by trivial) fun session => ?_
  refine hread _ _ (by trivial) fun box_lock => ?_
  split
  · exact hret _
  refine hread _ _ (by trivial) fun cur_num => ?_
  dsimp only
  split
  · exact hret _
  · exact hpay n (uidStr session) hn (Int.not_lt.1 hneg)

end Rules

/-! ## The two requests -/

/-- What a save comes to once its session is found: it is refused, or it moves what the wallet holds. -/
theorem trace_boxSave {sid num : String} {n : Int} {s : St} (item_id : String) (hn : int num = some n) (hpos : 0 < n)
    (hsid : isEmpty (s.session sid) = false) :
    trace (Place × Int) (boxSave sid item_id num) s = [] ∨
      n ≤ val s.amounts (wallet (uidStr (s.session sid)) item_id) ∧
        trace (Place × Int) (boxSave sid item_id num) s =
          trace (Place × Int) (saveInto (uidStr (s.session sid)) item_id (wallet (uidStr (s.session sid)) item_id) num n)
            s := by
  have hpos' : ¬n ≤ 0 := by omega
  by_cases h1 : item_id = "1"
  · subst h1
    by_cases hle : (s.amounts (.diamond (uidStr (s.session sid)))).getD 0 < n
    · left; simp [boxSave, hn, hpos', call, hsid, hle]
    · right; simp [boxSave, hn, hpos', call, hsid, hle, wallet_one, val, Int.not_lt.1 hle]
  by_cases h2 : item_id = "2"
  · subst h2
    by_cases hle : (s.amounts (.coin (uidStr (s.session sid)))).getD 0 < n
    · left; simp [boxSave, hn, hpos', call, hsid, hle]
    · right; simp [boxSave, hn, hpos', call, hsid, hle, wallet_two, val, Int.not_lt.1 hle]
  · by_cases hle : (s.amounts (.item (uidStr (s.session sid)) item_id)).getD 0 < n
    · left
      cases ht : s.title item_id <;> simp [boxSave, hn, hpos', call, hsid, h1, h2, hle, ht]
    · right
      simp [boxSave, hn, hpos', call, hsid, h1, h2, hle, wallet_other h1 h2, val, Int.not_lt.1 hle]

/-- A save moves a positive amount that the wallet holds into the box, or does nothing. -/
theorem save_cases (sid item_id num : String) (s : St) :
    trace (Place × Int) (boxSave sid item_id num) s = [] ∨
      ∃ n, 0 < n ∧ n ≤ val s.amounts (wallet (uidStr (s.session sid)) item_id) ∧
        trace (Place × Int) (boxSave sid item_id num) s =
          [(.box (uidStr (s.session sid)) item_id, n), (wallet (uidStr (s.session sid)) item_id, -n)] := by
  cases hn : int num with
  | none => left; simp [boxSave, hn]
  | some n =>
  by_cases hpos : n ≤ 0
  · left; simp [boxSave, hn, hpos]
  cases hsid : isEmpty (s.session sid) with
  | true => left; simp [boxSave, hn, hpos, call, hsid]
  | false =>
  rcases trace_boxSave item_id hn (Int.not_le.1 hpos) hsid with htr | ⟨hle, htr⟩
  · exact .inl htr
  rw [htr]
  rcases redisInt_of_int hn with hr | hr
  · left
    rw [saveInto_malformed _ _ hr, trace_raise]
  · right
    refine ⟨n, Int.not_le.1 hpos, hle, ?_⟩
    rw [saveInto_eq _ _ hr, trace_pay]

theorem net_credits (uid item_id : String) (n : Int) (p : Place) :
    net ((credits uid item_id).map (·, n)) p =
      (if wallet uid item_id = p then n else 0) + if item_id = "1" ∧ p = .item uid "1" then n else 0 := by
  by_cases h1 : item_id = "1"
  · subst h1
    simp [credits, wallet_one, eq_comm]
  · simp [credits, h1]

/-- The take passes its checks and moves `n`. -/
structure Takes (sid item_id num : String) (n : Int) (s : St) : Prop where
  amount : int num = some n
  read : redisInt num = some n
  nonneg : 0 ≤ n
  unlocked : s.user (uidStr (s.session sid)) "box_lock" = some "2"
  enough : n ≤ val s.amounts (.box (uidStr (s.session sid)) item_id)

/-- A take that passes its checks credits its places and takes the amount off the box. -/
theorem trace_boxTake {sid item_id num : String} {n : Int} {s : St} (h : Takes sid item_id num n s) :
    trace (Place × Int) (boxTake sid item_id num) s =
      (credits (uidStr (s.session sid)) item_id).map (·, n) ++ [(.box (uidStr (s.session sid)) item_id, -n)] := by
  have hn : ¬n < 0 := Int.not_lt.2 h.nonneg
  have hle : ¬(s.amounts (.box (uidStr (s.session sid)) item_id)).getD 0 < n := Int.not_lt.2 h.enough
  have hbody : trace (Place × Int) (boxTake sid item_id num) s =
      trace (Place × Int) (takeOut (uidStr (s.session sid)) item_id num n) s := by
    simp [boxTake, h.amount, hn, call, h.unlocked, hle]
  rw [hbody, takeOut_eq _ _ h.read, trace_pay]

/-- Any other take changes nothing. -/
theorem trace_boxTake_refused {sid item_id num : String} {s : St} (h : ∀ n, ¬Takes sid item_id num n s) :
    trace (Place × Int) (boxTake sid item_id num) s = [] := by
  cases hn : int num with
  | none => simp [boxTake, hn]
  | some n =>
  by_cases hpos : n < 0
  · simp [boxTake, hn, hpos]
  by_cases hlock : s.user (uidStr (s.session sid)) "box_lock" = some "2"
  case neg => simp [boxTake, hn, hpos, call, hlock]
  by_cases hle : (s.amounts (.box (uidStr (s.session sid)) item_id)).getD 0 < n
  · simp [boxTake, hn, hpos, call, hlock, hle]
  have hbody : trace (Place × Int) (boxTake sid item_id num) s =
      trace (Place × Int) (takeOut (uidStr (s.session sid)) item_id num n) s := by
    simp [boxTake, hn, hpos, call, hlock, hle]
  rcases redisInt_of_int hn with hr | hr
  · rw [hbody, takeOut_malformed _ _ hr, trace_raise]
  · exact absurd ⟨hn, hr, Int.not_lt.1 hpos, hlock, Int.not_lt.1 hle⟩ (h n)

/-! ## What is moved is moved whole -/

/-- Increments that leave every item's sum alone. -/
def Balanced (l : List (Place × Int)) : Prop := ∀ uid item_id, net l (wallet uid item_id) + net l (.box uid item_id) = 0

theorem balanced_nil : Balanced [] := fun _ _ => rfl

theorem balanced_save (uid item_id : String) (n : Int) : Balanced [(.box uid item_id, n), (wallet uid item_id, -n)] := by
  intro uid' i
  simp only [net_cons, net_nil, wallet_eq_iff, if_neg (wallet_ne_box uid item_id uid' i),
    if_neg (Ne.symm (wallet_ne_box uid' i uid item_id))]
  split <;> omega

theorem balanced_take (uid item_id : String) (n : Int) :
    Balanced ((credits uid item_id).map (·, n) ++ [(.box uid item_id, -n)]) := by
  intro uid' i
  have hw : ¬(item_id = "1" ∧ wallet uid' i = .item uid "1") := fun h => wallet_ne_item_one _ _ _ h.2
  simp only [net_append, net_credits, net_cons, net_nil, wallet_eq_iff, if_neg (wallet_ne_box uid item_id uid' i),
    if_neg (Ne.symm (wallet_ne_box uid' i uid item_id)), if_neg hw, reduceCtorEq, and_false, if_false]
  split <;> omega

/-! ## Runs of saves and takes -/

inductive Req where
  | save (sid item_id num : String)
  | take (sid item_id num : String)
  deriving Repr, DecidableEq

namespace Req

def handler : Req → Handler Reply
  | .save sid item_id num => boxSave sid item_id num
  | .take sid item_id num => boxTake sid item_id num

def uid (s : St) : Req → String
  | .save sid _ _ | .take sid _ _ => uidStr (s.session sid)

def item : Req → String
  | .save _ item_id _ | .take _ item_id _ => item_id

end Req

def step (r : Req) (s : St) : St := (run r.handler s).2

/-- What the user has of the item, outside the box and in it. -/
def total (s : St) (uid item_id : String) : Int := val s.amounts (wallet uid item_id) + val s.amounts (.box uid item_id)

/-- No wallet and no box is below zero. -/
structure Covered (s : St) : Prop where
  wallet : ∀ uid item_id, 0 ≤ val s.amounts (wallet uid item_id)
  box : ∀ uid item_id, 0 ≤ val s.amounts (.box uid item_id)

/-- The request takes diamonds out of the box. -/
def TakesDiamonds : Req → St → Prop
  | .save _ _ _, _ => False
  | .take sid item_id num, s => item_id = "1" ∧ ∃ n, 0 < n ∧ Takes sid "1" num n s

/-- What a request adds to the amount at `p`. -/
def change (r : Req) (s : St) (p : Place) : Int := net (trace (Place × Int) r.handler s) p

theorem val_step (r : Req) (s : St) (p : Place) : val (step r s).amounts p = val s.amounts p + change r s p := by
  rw [step, run_amounts, val_incrAll, change]

/-- What a request adds to a box it takes from the wallet of the item, and the other way round. -/
theorem balanced_step (r : Req) (s : St) : Balanced (trace (Place × Int) r.handler s) := by
  cases r with
  | save sid item_id num =>
    rcases save_cases sid item_id num s with htr | ⟨n, -, -, htr⟩ <;> rw [Req.handler, htr]
    · exact balanced_nil
    · exact balanced_save _ _ _
  | take sid item_id num =>
    by_cases h : ∃ n, Takes sid item_id num n s
    · obtain ⟨n, h⟩ := h
      rw [Req.handler, trace_boxTake h]
      exact balanced_take _ _ _
    · rw [Req.handler, trace_boxTake_refused (not_exists.1 h)]
      exact balanced_nil

/-- What a request does to the amounts: it moves `d` from the wallet to the box, no more than there is, and
only a take of diamonds adds anything elsewhere. -/
structure Moves (r : Req) (s : St) (d : Int) : Prop where
  box : change r s (.box (r.uid s) r.item) = d
  into : d ≤ 0 ∨ d ≤ val s.amounts (wallet (r.uid s) r.item)
  out : 0 ≤ d ∨ -d ≤ val s.amounts (.box (r.uid s) r.item)
  elsewhere : ∀ p, .box (r.uid s) r.item ≠ p → wallet (r.uid s) r.item ≠ p →
    ¬TakesDiamonds r s ∨ p ≠ .item (r.uid s) "1" → change r s p = 0

theorem moves_nothing {r : Req} {s : St} (h : trace (Place × Int) r.handler s = []) : Moves r s 0 where
  box := by rw [change, h]; rfl
  into := .inl (Int.le_refl 0)
  out := .inl (Int.le_refl 0)
  elsewhere := fun p _ _ _ => by rw [change, h]; rfl

theorem moves_save (sid item_id num : String) (s : St) : ∃ d, Moves (.save sid item_id num) s d := by
  rcases save_cases sid item_id num s with htr | ⟨n, hpos, hle, htr⟩
  · exact ⟨0, moves_nothing htr⟩
  have hc : ∀ p, change (.save sid item_id num) s p = net _ p := fun p => congrArg (net · p) htr
  have hwb := wallet_ne_box (uidStr (s.session sid)) item_id (uidStr (s.session sid)) item_id
  refine ⟨n, ?_, .inr hle, .inl (by omega), fun p hb hw _ => ?_⟩
  · rw [hc]
    simp [Req.uid, Req.item, hwb]
  · simp only [Req.uid, Req.item] at hb hw
    rw [hc]
    simp [hb, hw]

theorem moves_take (sid item_id num : String) (s : St) : ∃ d, Moves (.take sid item_id num) s d := by
  by_cases h : ∃ n, Takes sid item_id num n s
  case neg => exact ⟨0, moves_nothing (trace_boxTake_refused (not_exists.1 h))⟩
  obtain ⟨n, h⟩ := h
  have hn := h.nonneg
  have hc : ∀ p, change (.take sid item_id num) s p =
      (if wallet (uidStr (s.session sid)) item_id = p then n else 0) +
        (if item_id = "1" ∧ p = .item (uidStr (s.session sid)) "1" then n else 0) +
          if .box (uidStr (s.session sid)) item_id = p then -n else 0 := by
    intro p
    unfold change
    rw [Req.handler, trace_boxTake h, net_append, net_credits]
    simp
  have hwb := wallet_ne_box (uidStr (s.session sid)) item_id (uidStr (s.session sid)) item_id
  refine ⟨-n, ?_, .inl (by omega), .inr ?_, fun p hb hw he => ?_⟩
  · rw [hc]
    simp [Req.uid, Req.item, hwb]
  · rw [Int.neg_neg]
    exact h.enough
  · -- the entry for diamonds among the items is left alone by a take of nothing
    have hi : (if item_id = "1" ∧ p = .item (uidStr (s.session sid)) "1" then n else 0) = 0 := by
      by_cases hi : item_id = "1" ∧ p = .item (uidStr (s.session sid)) "1"
      · obtain ⟨rfl, rfl⟩ := hi
        have hd : ¬∃ n, 0 < n ∧ Takes sid "1" num n s := by simpa [TakesDiamonds, Req.uid] using he
        have hzero : ¬0 < n := fun hpos => hd ⟨n, hpos, h⟩
        rw [if_pos ⟨rfl, rfl⟩]
        omega
      · exact if_neg hi
    simp only [Req.uid, Req.item] at hb hw
    rw [hc, hi, if_neg hb, if_neg hw]
    rfl

theorem req_moves (r : Req) (s : St) : ∃ d, Moves r s d := by
  cases r with
  | save sid item_id num => exact moves_save sid item_id num s
  | take sid item_id num => exact moves_take sid item_id num s

/-- A take of diamonds adds to the player's items. -/
theorem change_takesDiamonds {r : Req} {s : St} (h : TakesDiamonds r s) : 0 < change r s (.item (r.uid s) "1") := by
  cases r with
  | save sid item_id num => exact h.elim
  | take sid item_id num =>
    obtain ⟨rfl, n, hpos, h⟩ := h
    unfold change
    rw [Req.handler, trace_boxTake h]
    simpa [Req.uid, credits] using hpos

/-! ## What a run keeps -/

theorem step_total (r : Req) (s : St) (uid item_id : String) : total (step r s) uid item_id = total s uid item_id := by
  have hb : change r s (wallet uid item_id) + change r s (.box uid item_id) = 0 := balanced_step r s uid item_id
  unfold total
  rw [val_step, val_step]
  omega

theorem step_covered {r : Req} {s : St} (hs : Covered s) : Covered (step r s) := by
  obtain ⟨d, h⟩ := req_moves r s
  constructor
  · intro uid item_id
    rw [val_step]
    by_cases hp : wallet (r.uid s) r.item = wallet uid item_id
    · have hb : change r s (wallet (r.uid s) r.item) + change r s (.box (r.uid s) r.item) = 0 :=
        balanced_step r s (r.uid s) r.item
      have := hs.wallet (r.uid s) r.item
      rw [h.box] at hb
      rw [← hp]
      rcases h.into with hd | hd <;> omega
    · rw [h.elsewhere _ (Ne.symm (wallet_ne_box _ _ _ _)) hp (.inr (wallet_ne_item_one _ _ _)), Int.add_zero]
      exact hs.wallet uid item_id
  · intro uid item_id
    rw [val_step]
    by_cases hp : Place.box (r.uid s) r.item = .box uid item_id
    · have := hs.box (r.uid s) r.item
      rw [← hp, h.box]
      rcases h.out with hd | hd <;> omega
    · rw [h.elsewhere _ hp (wallet_ne_box _ _ _ _) (.inr (by simp)), Int.add_zero]
      exact hs.box uid item_id

/-- What the safe box owes its users, run from `s₀`: the request `r` leaves every item's sum what it was at the
start and no amount below zero, and it changes no amount but its own item's, in the wallet and in the box. -/
structure Conserves (s₀ : St) (r : Req) (s : St) : Prop where
  total : ∀ uid item_id, total (step r s) uid item_id = total s₀ uid item_id
  other : ∀ p, .box (r.uid s) r.item ≠ p → wallet (r.uid s) r.item ≠ p →
    val (step r s).amounts p = val s.amounts p
  covered : Covered (step r s)

/-- Sums and signs need no condition. -/
theorem run_total {s₀ : St} (hs : Covered s₀) (rs : List Req) :
    (∀ uid item_id, total (after step rs s₀) uid item_id = total s₀ uid item_id) ∧ Covered (after step rs s₀) := by
  induction rs generalizing s₀ with
  | nil => exact ⟨fun _ _ => rfl, hs⟩
  | cons r rs ih =>
    obtain ⟨ht, hc⟩ := ih (step_covered (r := r) hs)
    exact ⟨fun uid item_id => (ht uid item_id).trans (step_total ..), hc⟩

/-- The runs that conserve are those that take no diamonds out of a box. -/
theorem box_conserves_iff {s₀ : St} (hs : Covered s₀) (rs : List Req) :
    All step (Conserves s₀) rs s₀ ↔ All step (fun r s => ¬TakesDiamonds r s) rs s₀ := by
  constructor
  · refine fun h => h.mono fun r s hc hd => ?_
    have hpos := change_takesDiamonds hd
    have hother := hc.other (.item (r.uid s) "1") (by simp) (wallet_ne_item_one _ _ _)
    rw [val_step] at hother
    omega
  · refine fun h => all_of_inv (I := fun s => Covered s ∧ ∀ uid item_id, total s uid item_id = total s₀ uid item_id)
      (fun r s _ hi => ⟨step_covered hi.1, fun uid i => (step_total ..).trans (hi.2 uid i)⟩) ?_ h ⟨hs, fun _ _ => rfl⟩
    intro r s hd hi
    obtain ⟨d, hm⟩ := req_moves r s
    refine ⟨fun uid i => (step_total ..).trans (hi.2 uid i), fun p hb hw => ?_, step_covered hi.1⟩
    rw [val_step, hm.elsewhere p hb hw (.inl hd), Int.add_zero]

/-- One user with an unlocked box. -/
def openBox (l : List (Place × Int)) : St where
  session := fun sid => if sid = "sid" then some "7" else none
  user := fun uid f => if uid = "7" ∧ f = "box_lock" then some "2" else none
  amounts := incrAll l fun _ => none
  title := fun _ => none
  boxCode := fun _ => none
  course := fun _ => ⟨none, none, none, none⟩
  goods := fun _ => ⟨none, none, none⟩

theorem openBox_covered {l : List (Place × Int)} (h : ∀ p ∈ l, 0 ≤ p.2) : Covered (openBox l) := by
  have hv : ∀ p, 0 ≤ val (openBox l).amounts p := by
    intro p
    have : val (openBox l).amounts p = 0 + net l p := val_incrAll l _ p
    have := net_nonneg h p
    omega
  exact ⟨fun _ _ => hv _, fun _ _ => hv _⟩

theorem box_conserves_coins : All step (Conserves (openBox [(.coin "7", 10)]))
    [.save "sid" "2" "10", .take "sid" "2" "4"] (openBox [(.coin "7", 10)]) :=
  (box_conserves_iff (openBox_covered (by decide)) _).2 ⟨id, fun h => absurd h.1 (by decide), trivial⟩

/-- Five diamonds taken out of the box are five in the wallet and five among the items. -/
theorem take_mints_diamonds : Covered (openBox [(.box "7" "1", 5)]) ∧
    ¬All step (Conserves (openBox [(.box "7" "1", 5)])) [.take "sid" "1" "5"] (openBox [(.box "7" "1", 5)]) := by
  refine ⟨openBox_covered (by decide), fun h => ?_⟩
  have hother := h.1.other (.item "7" "1") (by decide) (by decide)
  exact absurd hother (by decide)

end FishWeb.Box
