import FishWeb.Pay.Commands
/-!
# Paying once

A notification is not asked whether its order is paid already. Where each one
that is accepted finds its order pending, an order is credited at most once for
each time it was created, and what is recorded is always the order's.
-/
open Python Prog Counters Runs
open Function (update)

namespace FishWeb.Pay

section Once
variable (md5 : String → String) (no : String)

def Ev.isPlaced : Ev → Bool
  | .placed n _ => n = no
  | .recorded _ => false

def Ev.isRecorded : Ev → Bool
  | .placed _ _ => false
  | .recorded _ => true

/-- The request is a notification of this order. -/
def Req.names : Req → Bool
  | .notify _ params => get params "out_trade_no" = some no
  | .create _ | .expire _ => false

/-- The request writes a new order under this number. -/
def creates (r : Req) (s : St) : Bool := (events md5 r s).any (Ev.isPlaced no)

/-- The request is a notification of this order, and its payment is recorded. -/
def credits (r : Req) (s : St) : Bool := r.names no && (events md5 r s).any Ev.isRecorded

/-- A notification that is accepted finds its order pending. -/
def First (r : Req) (s : St) : Prop :=
  match r with
  | .notify _ params => ∀ no u, Settles md5 params no u s → (getOrder s no).type = some "pending"
  | .create _ | .expire _ => True

/-- The ledger changes by a payment of an order, of its coins to its user, and by nothing else. -/
def Booked (r : Req) (s : St) : Prop :=
  ((∀ no, credits md5 no r s = false) ∧ (step md5 r s).ledger = s.ledger) ∨
    ∃ no p, (∀ n, credits md5 n r s = true ↔ n = no) ∧ p.coin = toInt (getOrder s no).roomCards ∧
      s.userTable (fmt (getOrder s no).account) = some p.user_table ∧ (step md5 r s).ledger = record p s.ledger

/-- The order is pending. -/
def unpaid (s : St) : Nat := (decide ((getOrder s no).type = some "pending")).toNat

theorem unpaid_le (s : St) : unpaid no s ≤ 1 := Bool.toNat_le _

variable {md5}

theorem paymentOf_some {today : String} {o : Order} {s : St} {p : Payment} (h : paymentOf today o s = some p) :
    p.coin = toInt o.roomCards ∧ s.userTable (fmt o.account) = some p.user_table := by
  unfold paymentOf at h
  obtain ⟨user_table, hu, h⟩ := Option.bind_eq_some_iff.1 h
  obtain ⟨user_id, -, h⟩ := Option.bind_eq_some_iff.1 h
  obtain ⟨price, -, h⟩ := Option.bind_eq_some_iff.1 h
  obtain ⟨n, -, rfl⟩ := Option.map_eq_some_iff.1 h
  exact ⟨rfl, hu⟩

theorem booked_step (r : Req) (s : St) : Booked md5 r s := by
  have he := effect_of md5 r s
  unfold Booked credits
  generalize events md5 r s = evs, step md5 r s = s' at he ⊢
  cases he with
  | nothing | placed | expired | unexpired => exact .inl ⟨fun _ => rfl, rfl⟩
  | refused today params h => exact .inl ⟨fun _ => Bool.and_false _, rfl⟩
  | paid today params no u h =>
    unfold credited
    simp only [Req.names, h.out_trade_no]
    cases hp : paymentOf today (getOrder (settled s no u) no) (settled s no u) with
    | none => exact .inl ⟨fun _ => Bool.and_false _, rfl⟩
    | some p =>
      obtain ⟨hcoin, huser⟩ := paymentOf_some hp
      rw [getOrder_settled, if_pos rfl] at hcoin huser
      refine .inr ⟨no, p, fun n => ?_, hcoin, huser, rfl⟩
      simp [Ev.isRecorded, eq_comm]

/-- A pending order is used up by its payment. -/
theorem unpaid_step {r : Req} {s : St} (hf : First md5 r s) :
    (credits md5 no r s).toNat + unpaid no (step md5 r s) ≤ (creates md5 no r s).toNat + unpaid no s := by
  have he := effect_of md5 r s
  have hone := Bool.toNat_le (credits md5 no r s)
  unfold credits creates at *
  generalize events md5 r s = evs, step md5 r s = s' at he hone ⊢
  cases he with
  | nothing r i => exact Nat.le_refl _
  | placed r n o i =>
    by_cases hn : no = n
    · -- the order is pending, once more if it was
      have hafter := unpaid_le no (placed (withIndex s i) n o)
      have hplaced : [Ev.placed n o.money].any (Ev.isPlaced no) = true := by simp [Ev.isPlaced, hn]
      rw [hplaced]
      simp only [Req.names, Bool.false_and, Bool.toNat_false, Bool.toNat_true]
      omega
    · have hsame : unpaid no (placed (withIndex s i) n o) = unpaid no s := by
        unfold unpaid
        rw [getOrder_placed, if_neg hn]
        rfl
      rw [hsame]
      simp [Req.names]
  | paid today params n u h =>
    by_cases hn : no = n
    · -- pending before and successful after
      subst hn
      have hbefore : unpaid no s = 1 := by simp [unpaid, hf no u h]
      have hafter : unpaid no (credited today no u s) = 0 := by
        unfold unpaid
        rw [getOrder_credited, getOrder_settled, if_pos rfl]
        rfl
      rw [hbefore, hafter]
      omega
    · have hother : Req.names no (.notify today params) = false := by
        simp only [Req.names, h.out_trade_no]
        exact decide_eq_false fun he => hn (Option.some.inj he).symm
      have hsame : unpaid no (credited today n u s) = unpaid no s := by
        unfold unpaid
        rw [getOrder_credited, getOrder_settled, if_neg hn]
      rw [hother, hsame]
      simp
  | refused today params h => simp
  | expired n h =>
    have hle : unpaid no (putOrder s n none) ≤ unpaid no s := by
      unfold unpaid
      rw [getOrder_putOrder]
      split
      · exact Nat.zero_le _
      · exact Nat.le_refl _
    simpa [Req.names] using hle
  | unexpired n => exact Nat.le_refl _

end Once

/-- Where every notification that is accepted finds its order pending, an order is credited at most once for each
time it is created, and the ledger changes only by these credits. -/
theorem credited_once (md5 : String → String) {s : St} (rs : List Req) (h : All (step md5) (First md5) rs s) :
    (∀ no, count (step md5) (credits md5 no) rs s ≤
      count (step md5) (creates md5 no) rs s + (decide ((getOrder s no).type = some "pending")).toNat) ∧
      All (step md5) (Booked md5) rs s :=
  ⟨fun no => count_le (I := fun _ => True) (φ := unpaid no) (fun _ _ _ _ => trivial) (fun _ _ hf _ => unpaid_step no hf) h
    trivial, h.mono fun r s _ => booked_step r s⟩

theorem credited_once_delivered : count (step sampleMd5) (credits sampleMd5 sampleNo)
    [.notify "2018-06-01" (sampleParams "600" "F92C5081567812703F7B434BEF98501F"), .expire sampleNo] sampleShop ≤ 1 := by
  have hfirst : All (step sampleMd5) (First sampleMd5)
      [.notify "2018-06-01" (sampleParams "600" "F92C5081567812703F7B434BEF98501F"), .expire sampleNo] sampleShop := by
    refine ⟨fun no u h => ?_, trivial, trivial⟩
    have hno : some sampleNo = some no := h.out_trade_no
    obtain rfl := Option.some.inj hno
    decide
  have honce := (credited_once sampleMd5 _ hfirst).1 sampleNo
  have hcreated : count (step sampleMd5) (creates sampleMd5 sampleNo)
      [.notify "2018-06-01" (sampleParams "600" "F92C5081567812703F7B434BEF98501F"), .expire sampleNo] sampleShop = 0 := by
    decide +kernel
  have hpending := unpaid_le sampleNo sampleShop
  unfold unpaid at hpending
  omega

/-- A notification that is delivered twice is credited twice. -/
theorem redelivery_credits_again : ¬count (step sampleMd5) (credits sampleMd5 sampleNo)
      [.notify "2018-06-01" (sampleParams "600" "F92C5081567812703F7B434BEF98501F"),
        .notify "2018-06-01" (sampleParams "600" "F92C5081567812703F7B434BEF98501F")] sampleShop ≤
    count (step sampleMd5) (creates sampleMd5 sampleNo)
      [.notify "2018-06-01" (sampleParams "600" "F92C5081567812703F7B434BEF98501F"),
        .notify "2018-06-01" (sampleParams "600" "F92C5081567812703F7B434BEF98501F")] sampleShop +
      (decide ((getOrder sampleShop sampleNo).type = some "pending")).toNat := by
  decide +kernel

end FishWeb.Pay
