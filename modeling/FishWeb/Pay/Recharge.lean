import Mathlib.Algebra.BigOperators.Group.Finset.Piecewise
import Mathlib.Algebra.Order.BigOperators.Group.Finset
import FishWeb.Pay.Commands
/-!
# The recharge total

`do_pay_record` adds the price in fen to the total and the same in yuan to its
day; `do_create_recharge_total` in `scripts/calc_logNreg_per_day.py` adds up the
days that are a whole number of yuan. A day counts for less than what was paid
on it, whatever the roundings, unless that was nothing.
-/
open Python Prog Counters Runs
open Function (update)

namespace FishWeb.Pay

/-! ## The two totals -/

/-- A call of `do_pay_record` with an integer price. -/
structure Recharge where
  today : String
  user_id : String
  user_table : String
  coin : Int
  price : Int
  deriving Repr, DecidableEq

def payRecord (p : Recharge) (s : St) : St :=
  (run (doPayRecord p.today p.user_id p.user_table p.coin (some (toString p.price))) s).2

/-- `to_int` of a stored amount: one that is no integer is written with a point, and read as 0. -/
def storedInt (x : Option ℚ) : Int :=
  match x with
  | some q => if q.den = 1 then q.num else 0
  | none => 0

/-- `do_create_recharge_total`, with the days `keys`. -/
def doCreateRechargeTotal (keys : List String) (l : Ledger) : Ledger :=
  { l with total := some ((keys.map fun date => storedInt (l.day date)).sum : Int) }

/-- What `keys` answers: the days that have a record, in any order. -/
structure Keys (keys : List String) (l : Ledger) : Prop where
  nodup : keys.Nodup
  mem : ∀ date, date ∈ keys ↔ (l.day date).isSome ∨ (l.dayUsers date).isSome

/-- The total is the one that is computed from the days. -/
def Agree (keys : List String) (l : Ledger) : Prop := (doCreateRechargeTotal keys l).total = some (l.total.getD 0)

/-- Nothing is recorded. -/
structure Unrecorded (l : Ledger) : Prop where
  total : l.total = none
  day : ∀ date, l.day date = none

/-! ## A day's amount, in halves -/

/-- Twice the bound of what a day counts for, by the fen that were paid. -/
def cap (fen : Int) : Int := if fen = 0 then 0 else 2 * fen - 1

theorem cap_add (m n : Int) : cap m + cap n ≤ cap (m + n) := by
  unfold cap
  split <;> split <;> split <;> omega

theorem cap_le (n : Int) : cap n ≤ 2 * n := by
  unfold cap
  split <;> omega

/-- A price in yuan, as it is sent, is less than half of it in fen. -/
theorem yuan_le {n : Int} (hn : 0 ≤ n) : 0 ≤ shortest (floatMul n (toDouble (1 / 100))) ∧
    shortest (floatMul n (toDouble (1 / 100))) ≤ n / 50 := by
  have hn' : (0 : ℚ) ≤ n := by exact_mod_cast hn
  have hc : 0 ≤ toDouble (1 / 100) := toDouble_nonneg (by norm_num)
  have hc' : toDouble (1 / 100) ≤ 1001 / 1000 * (1 / 100) := toDouble_le (by norm_num)
  have hd : 0 ≤ toDouble (n : ℚ) := toDouble_nonneg hn'
  have hd' : toDouble (n : ℚ) ≤ 1001 / 1000 * n := toDouble_le hn'
  have hf : 0 ≤ floatMul n (toDouble (1 / 100)) := floatMul_nonneg hn hc
  have hf' : floatMul n (toDouble (1 / 100)) ≤ 1001 / 1000 * (toDouble n * toDouble (1 / 100)) :=
    toDouble_le (mul_nonneg hd hc)
  have hprod : toDouble n * toDouble (1 / 100) ≤ 1001 / 1000 * n * (1001 / 1000 * (1 / 100)) :=
    mul_le_mul hd' hc' hc (by positivity)
  obtain ⟨hs, hs'⟩ := shortest_le hf
  refine ⟨hs, ?_⟩
  linarith

theorem yuan_le_cap {n : Int} (hn : 0 ≤ n) : shortest (floatMul n (toDouble (1 / 100))) ≤ (cap n : ℚ) / 2 := by
  obtain ⟨-, hle⟩ := yuan_le hn
  refine hle.trans ?_
  unfold cap
  split
  · rename_i h
    rw [h]
    norm_num
  · rename_i h
    have h1 : (1 : ℚ) ≤ n := by exact_mod_cast (by omega : (1 : Int) ≤ n)
    push_cast
    linarith

/-! ## What has been paid -/

/-- The ledger after `T` fen, of which `fen` were paid on each day. -/
structure Tally (T : Int) (fen : String → Int) (l : Ledger) : Prop where
  nonneg : ∀ date, 0 ≤ fen date
  le : ∀ date, fen date ≤ T
  low : ∀ date, 0 ≤ (l.day date).getD 0
  high : ∀ date, (l.day date).getD 0 ≤ (cap (fen date) : ℚ) / 2
  total : l.total.getD 0 = T
  seen : ∀ date, fen date ≠ 0 → (l.day date).isSome
  sum : ∀ K : Finset String, (∀ date, fen date ≠ 0 → date ∈ K) → ∑ date ∈ K, fen date = T

theorem tally_unrecorded {l : Ledger} (h : Unrecorded l) : Tally 0 (fun _ => 0) l where
  nonneg _ := Int.le_refl 0
  le _ := Int.le_refl 0
  low date := by rw [h.day]; exact le_refl _
  high date := by rw [h.day]; simp [cap]
  total := by rw [h.total]; rfl
  seen _ hne := absurd rfl hne
  sum K _ := Finset.sum_const_zero

theorem abs_lt_of_halves {x : ℚ} {m : Int} (h0 : 0 ≤ x) (h : x ≤ (m : ℚ) / 2) (hm : m < 2 * 2 ^ 62) : |x| < 2 ^ 62 := by
  have hm' : (m : ℚ) < 2 * 2 ^ 62 := by exact_mod_cast hm
  rw [abs_of_nonneg h0]
  linarith

/-- An increment by less than its fen keeps a day's amount less than its fen. -/
theorem addFloat_le {x : Option ℚ} {y : ℚ} {m n : Int} (hm : 0 ≤ m) (hn : 0 ≤ n) (hb : m + n < 2 ^ 62)
    (hx : 0 ≤ x.getD 0) (hx' : x.getD 0 ≤ (cap m : ℚ) / 2) (hy : 0 ≤ y) (hy' : y ≤ (cap n : ℚ) / 2) :
    0 ≤ addFloat x (toLong y) ∧ addFloat x (toLong y) ≤ (cap (m + n) : ℚ) / 2 := by
  have hcm := cap_le m
  have hcn := cap_le n
  have hcmn := cap_le (m + n)
  have hadd : (cap m : ℚ) + cap n ≤ cap (m + n) := by exact_mod_cast cap_add m n
  have hX := toLong_le (abs_lt_of_halves hx hx' (by omega)) hx'
  have hY := toLong_le (abs_lt_of_halves hy hy' (by omega)) hy'
  have hX0 := toLong_nonneg hx
  have hY0 := toLong_nonneg hy
  have hsum : toLong (x.getD 0) + toLong y ≤ (cap (m + n) : ℚ) / 2 := by linarith
  have hsum0 : 0 ≤ toLong (x.getD 0) + toLong y := add_nonneg hX0 hY0
  unfold addFloat
  exact ⟨fixed17_nonneg (toLong_nonneg hsum0), fixed17_le (toLong_le (abs_lt_of_halves hsum0 hsum (by omega)) hsum)⟩

/-- Integers are added exactly. -/
theorem addFloat_intCast {x : Option ℚ} {T n : Int} (hx : x.getD 0 = T) (hT : 0 ≤ T) (hn : 0 ≤ n) (hb : T + n < 2 ^ 62) :
    addFloat x (toLong n) = ((T + n : Int) : ℚ) := by
  have habs : ∀ {k : Int}, 0 ≤ k → k < 2 ^ 62 → |(k : ℚ)| < 2 ^ 62 := by
    intro k h0 hk
    rw [abs_of_nonneg (by exact_mod_cast h0)]
    exact_mod_cast hk
  unfold addFloat
  rw [hx, toLong_intCast (habs hT (by omega)), toLong_intCast (habs hn (by omega)), ← Int.cast_add,
    toLong_intCast (habs (Int.add_nonneg hT hn) hb), fixed17_intCast]

/-- What `do_pay_record` sends for a price. -/
theorem payRecord_ledger (p : Recharge) (s : St) : ∃ q : Payment, q.today = p.today ∧ q.price = toString p.price ∧
    q.yuan = shortest (floatMul p.price (toDouble (1 / 100))) ∧ (payRecord p s).ledger = record q s.ledger := by
  obtain ⟨hrun, -⟩ := run_doPayRecord p.today (s := s) p.user_id p.user_table (toString p.price) p.coin p.price
    (int_toString_int p.price)
  refine ⟨⟨p.today, p.user_id, p.user_table, p.coin, toString p.price, shortest (floatMul p.price (toDouble (1 / 100))),
    !decide (p.user_id ∈ s.ledger.payers)⟩, rfl, rfl, rfl, ?_⟩
  rw [payRecord, hrun]
  rfl

/-- What it does to the day and to the total. -/
theorem payRecord_totals (p : Recharge) (s : St) :
    (payRecord p s).ledger.day = update s.ledger.day p.today (some (addFloat (s.ledger.day p.today)
      (toLong (shortest (floatMul p.price (toDouble (1 / 100))))))) ∧
    (payRecord p s).ledger.total = some (addFloat s.ledger.total (toLong p.price)) := by
  obtain ⟨q, htoday, hprice, hyuan, hl⟩ := payRecord_ledger p s
  have hread : redisFloat q.price = some (toLong p.price) := by
    rw [hprice, redisFloat, decimal_toString]
    rfl
  rw [hl, ← htoday, ← hyuan]
  unfold record
  rw [hread]
  exact ⟨rfl, rfl⟩

/-- A sum over every day that counts grows by what is added to one. -/
theorem sum_recharged {T n : Int} {fen : String → Int} {today : String} (hn : 0 ≤ n) (h0 : 0 ≤ fen today)
    (hsum : ∀ K : Finset String, (∀ date, fen date ≠ 0 → date ∈ K) → ∑ date ∈ K, fen date = T) (K : Finset String)
    (hK : ∀ date, update fen today (fen today + n) date ≠ 0 → date ∈ K) :
    ∑ date ∈ K, update fen today (fen today + n) date = T + n := by
  -- no day falls back to 0
  have hold : ∀ date, fen date ≠ 0 → date ∈ K := by
    intro date hne
    apply hK
    rcases eq_or_ne date today with rfl | hd
    · rw [Function.update_self]
      omega
    · rwa [Function.update_of_ne hd]
  by_cases hmem : today ∈ K
  · rw [sum_change hmem fun date hd => Function.update_of_ne hd (fen today + n) fen, Function.update_self, hsum K hold]
    omega
  · have hzero : fen today + n = 0 := by
      by_contra hne
      exact hmem (hK today (by rwa [Function.update_self]))
    rw [Finset.sum_update_of_notMem hmem, hsum K hold]
    omega

theorem tally_payRecord {T : Int} {fen : String → Int} {p : Recharge} {s : St} (h : Tally T fen s.ledger)
    (hp : 0 ≤ p.price) (hb : T + p.price < 2 ^ 62) :
    Tally (T + p.price) (update fen p.today (fen p.today + p.price)) (payRecord p s).ledger := by
  obtain ⟨hday, htotal⟩ := payRecord_totals p s
  have h0 := h.nonneg p.today
  have hle := h.le p.today
  obtain ⟨hlow, hhigh⟩ := addFloat_le h0 hp (by omega) (h.low p.today) (h.high p.today) (yuan_le hp).1 (yuan_le_cap hp)
  refine ⟨fun date => ?_, fun date => ?_, fun date => ?_, fun date => ?_, ?_, fun date hne => ?_,
    sum_recharged hp h0 h.sum⟩
  · rcases eq_or_ne date p.today with rfl | hd
    · rw [Function.update_self]
      exact Int.add_nonneg h0 hp
    · rw [Function.update_of_ne hd]
      exact h.nonneg date
  · rcases eq_or_ne date p.today with rfl | hd
    · rw [Function.update_self]
      omega
    · rw [Function.update_of_ne hd]
      have := h.le date
      omega
  · rw [hday]
    rcases eq_or_ne date p.today with rfl | hd
    · rw [Function.update_self]
      exact hlow
    · rw [Function.update_of_ne hd]
      exact h.low date
  · rw [hday]
    rcases eq_or_ne date p.today with rfl | hd
    · rw [Function.update_self, Function.update_self]
      exact hhigh
    · rw [Function.update_of_ne hd, Function.update_of_ne hd]
      exact h.high date
  · rw [htotal]
    exact addFloat_intCast h.total (Int.le_trans h0 hle) hp hb
  · rw [hday]
    rcases eq_or_ne date p.today with rfl | hd
    · rw [Function.update_self]
      rfl
    · rw [Function.update_of_ne hd] at hne ⊢
      exact h.seen date hne

theorem tally_after {ps : List Recharge} {T : Int} {fen : String → Int} {s : St} (h : Tally T fen s.ledger)
    (hp : ∀ p ∈ ps, 0 ≤ p.price) (hb : T + (ps.map Recharge.price).sum < 2 ^ 62) :
    ∃ fen', Tally (T + (ps.map Recharge.price).sum) fen' (after payRecord ps s).ledger := by
  induction ps generalizing T fen s with
  | nil => exact ⟨fen, by simpa using h⟩
  | cons p ps ih =>
    have hrest : 0 ≤ (ps.map Recharge.price).sum := List.sum_nonneg fun x hx => by
      obtain ⟨q, hq, rfl⟩ := List.mem_map.1 hx
      exact hp q (List.mem_cons_of_mem p hq)
    rw [List.map_cons, List.sum_cons, ← Int.add_assoc] at hb ⊢
    exact ih (tally_payRecord h (hp p List.mem_cons_self) (by omega)) (fun q hq => hp q (List.mem_cons_of_mem p hq)) hb

/-! ## Agreement -/

/-- What a day counts for. -/
theorem storedInt_le {x : Option ℚ} {n : Int} (h0 : 0 ≤ x.getD 0) (h : x.getD 0 ≤ (cap n : ℚ) / 2) :
    0 ≤ storedInt x ∧ storedInt x ≤ n ∧ (n ≠ 0 → storedInt x < n) := by
  have hn : 0 ≤ n := by
    by_contra hneg
    have hcap : cap n < 0 := by
      unfold cap
      split <;> omega
    have : (cap n : ℚ) < 0 := by exact_mod_cast hcap
    linarith
  unfold storedInt
  cases x with
  | none => exact ⟨Int.le_refl 0, hn, fun hne => by dsimp only; omega⟩
  | some q =>
    dsimp only
    split
    · rename_i hden
      have hq : q = (q.num : ℚ) := (Rat.den_eq_one_iff q).1 hden |>.symm
      have hle : q.num * 2 ≤ cap n := by
        have hle : (q.num : ℚ) * 2 ≤ cap n := by
          rw [← hq]
          have := h
          simp only [Option.getD_some] at this
          linarith
        exact_mod_cast hle
      have hnum : 0 ≤ q.num := Rat.num_nonneg.2 h0
      unfold cap at hle
      split at hle <;> exact ⟨hnum, by omega, fun hne => by omega⟩
    · exact ⟨Int.le_refl 0, hn, fun hne => by omega⟩

/-- Where `T` fen were paid, the totals agree only if `T` is 0. -/
theorem agree_iff {T : Int} {fen : String → Int} {l : Ledger} (h : Tally T fen l) {keys : List String} (hk : Keys keys l) :
    Agree keys l ↔ T = 0 := by
  have hin : ∀ date, fen date ≠ 0 → date ∈ keys.toFinset := fun date hne =>
    List.mem_toFinset.2 ((hk.mem date).2 (.inl (h.seen date hne)))
  have hle : ∀ date ∈ keys.toFinset, storedInt (l.day date) ≤ fen date := fun date _ =>
    (storedInt_le (h.low date) (h.high date)).2.1
  have hagree : Agree keys l ↔
      ∑ date ∈ keys.toFinset, storedInt (l.day date) = ∑ date ∈ keys.toFinset, fen date := by
    unfold Agree doCreateRechargeTotal
    rw [h.total, h.sum _ hin, List.sum_toFinset _ hk.nodup, Option.some_inj, Int.cast_inj]
  rw [hagree, Finset.sum_eq_sum_iff_of_le hle]
  constructor
  · intro heq
    rw [← h.sum _ hin]
    apply Finset.sum_eq_zero
    intro date hd
    by_contra hne
    have hlt := (storedInt_le (h.low date) (h.high date)).2.2 hne
    have := heq date hd
    omega
  · rintro rfl date hd
    have h0 := (storedInt_le (h.low date) (h.high date)).1
    have := hle date hd
    have := h.le date
    omega

theorem sum_eq_zero_iff {ps : List Recharge} (hp : ∀ p ∈ ps, 0 ≤ p.price) :
    (ps.map Recharge.price).sum = 0 ↔ ∀ p ∈ ps, p.price = 0 := by
  induction ps with
  | nil => simp
  | cons p ps ih =>
    have hrest : ∀ q ∈ ps, 0 ≤ q.price := fun q hq => hp q (List.mem_cons_of_mem p hq)
    have hsum : 0 ≤ (ps.map Recharge.price).sum := List.sum_nonneg fun x hx => by
      obtain ⟨q, hq, rfl⟩ := List.mem_map.1 hx
      exact hrest q hq
    have hone := hp p List.mem_cons_self
    rw [List.map_cons, List.sum_cons, List.forall_mem_cons, ← ih hrest]
    omega

/-- The total is what is computed from the days if every price is 0; where no price is negative and they sum up to less
than `2 ^ 62` fen, only then. -/
theorem recharge_agrees_iff {s : St} (hs : Unrecorded s.ledger) (ps : List Recharge) {keys : List String}
    (hk : Keys keys (after payRecord ps s).ledger) :
    ((∀ p ∈ ps, p.price = 0) → Agree keys (after payRecord ps s).ledger) ∧
      ((∀ p ∈ ps, 0 ≤ p.price) → (ps.map Recharge.price).sum < 2 ^ 62 → Agree keys (after payRecord ps s).ledger →
        ∀ p ∈ ps, p.price = 0) := by
  constructor
  · intro h
    have hp : ∀ p ∈ ps, 0 ≤ p.price := fun p hp => (h p hp).ge
    have hsum := (sum_eq_zero_iff hp).2 h
    obtain ⟨fen, ht⟩ := tally_after (tally_unrecorded hs) hp (by rw [hsum]; norm_num)
    exact (agree_iff ht hk).2 (by rw [hsum]; rfl)
  · intro hp hb h
    obtain ⟨fen, ht⟩ := tally_after (tally_unrecorded hs) hp (by rw [Int.zero_add]; exact hb)
    have hsum := (agree_iff ht hk).1 h
    rw [Int.zero_add] at hsum
    exact (sum_eq_zero_iff hp).1 hsum

theorem emptyShop_unrecorded : Unrecorded emptyShop.ledger := ⟨rfl, fun _ => rfl⟩

/-- One payment makes the record of its day. -/
theorem keys_single (p : Recharge) : Keys [p.today] (after payRecord [p] emptyShop).ledger := by
  refine ⟨List.nodup_singleton _, fun date => ?_⟩
  obtain ⟨q, htoday, -, -, hl⟩ := payRecord_ledger p emptyShop
  rw [after_cons, after_nil, hl, List.mem_singleton, ← htoday]
  by_cases hd : date = q.today
  · subst hd
    simp [record]
  · have hday : (record q emptyShop.ledger).day date = none := Function.update_of_ne hd ..
    have husers : (record q emptyShop.ledger).dayUsers date = none := by
      unfold record
      dsimp only
      split
      · exact Function.update_of_ne hd ..
      · rfl
    simp [hd, hday, husers]

theorem recharge_agrees_free : Agree ["2018-06-01"] (after payRecord [⟨"2018-06-01", "7", "users:7", 60, 0⟩] emptyShop).ledger :=
  (recharge_agrees_iff emptyShop_unrecorded [⟨"2018-06-01", "7", "users:7", 60, 0⟩] (keys_single _)).1 (by decide)

/-- After 100 fen the total is 100 and the day counts for 1. -/
theorem recharge_in_two_units : Unrecorded emptyShop.ledger ∧
    Keys ["2018-06-01"] (after payRecord [⟨"2018-06-01", "7", "users:7", 60, 100⟩] emptyShop).ledger ∧
    ¬Agree ["2018-06-01"] (after payRecord [⟨"2018-06-01", "7", "users:7", 60, 100⟩] emptyShop).ledger := by
  refine ⟨emptyShop_unrecorded, keys_single ⟨"2018-06-01", "7", "users:7", 60, 100⟩, ?_⟩
  unfold Agree
  decide +kernel

end FishWeb.Pay
