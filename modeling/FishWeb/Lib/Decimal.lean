import Mathlib.Data.List.TakeWhile
import Mathlib.Tactic.Ring
import Mathlib.Tactic.NormNum
import Mathlib.Algebra.Order.Floor.Ring
import FishWeb.Lib.Python
/-!
# Decimals, doubles and long doubles

Amounts that are not integers. Python reads a decimal numeral as a double and
sends a double as the shortest decimal that is read as itself. Redis reads that
as a long double, which has 64 binary digits, and writes a sum with 17 places. A
rounded number does not pass an integer, or a half, that was above it.
-/

namespace Python

/-! ## Numerals -/

def pow10 : Int → ℚ
  | .ofNat n => 10 ^ n
  | .negSucc n => 1 / 10 ^ (n + 1)

/-- Digits, with or without a point. -/
def mantissa (cs : List Char) : Option ℚ :=
  let whole := cs.takeWhile (·.isDigit)
  match cs.dropWhile (·.isDigit) with
  | [] => (digits whole).map fun n : Nat => (n : ℚ)
  | c :: frac => if c = '.' then (digits (whole ++ frac)).map fun n : Nat => (n : ℚ) / 10 ^ frac.length else none

def unsignedDecimal (cs : List Char) : Option ℚ :=
  let isExp := fun c : Char => c = 'e' || c = 'E'
  match cs.dropWhile fun c => !isExp c with
  | [] => mantissa cs
  | _ :: e => (mantissa (cs.takeWhile fun c => !isExp c)).bind fun m => (numeral e).map fun e => m * pow10 e

/-- A signed decimal numeral, with or without an exponent. -/
def decimal : List Char → Option ℚ
  | '-' :: cs => (unsignedDecimal cs).map (- ·)
  | '+' :: cs => unsignedDecimal cs
  | cs => unsignedDecimal cs

/-- `float(s)` of a decimal numeral. -/
def float (s : String) : Option ℚ := (decimal (strip s.toList)).map toDouble

/-- What `float(s)` can be. -/
inductive Number where
  | finite (x : ℚ)
  | infinity (negative : Bool)
  | nan
  deriving Repr, DecidableEq

/-- The names `float` knows, in any case. -/
def special (negative : Bool) (cs : List Char) : Option Number :=
  let word := String.ofList (cs.map Char.toLower)
  if word = "nan" then some .nan
  else if word = "inf" ∨ word = "infinity" then some (.infinity negative)
  else none

/-- `float(s)`, infinities with it; `none` is its `ValueError`. -/
def number (s : String) : Option Number :=
  match float s with
  | some x => some (.finite x)
  | none =>
    match strip s.toList with
    | '-' :: cs => special true cs
    | '+' :: cs => special false cs
    | cs => special false cs

/-- `a > b`. Nothing is greater than what is not a number, nor is that. -/
def Number.gt : Number → Number → Bool
  | .finite x, .finite y => y < x
  | .finite _, .infinity negative => negative
  | .infinity negative, .finite _ => !negative
  | .infinity a, .infinity b => !a && b
  | _, _ => false

def Number.truthy : Number → Bool
  | .finite x => x ≠ 0
  | _ => true

theorem Number.truthy_of_gt {a : Number} (h : a.gt (.finite 0) = true) : a.truthy = true := by
  cases a with
  | finite x =>
    have hx : (0 : ℚ) < x := of_decide_eq_true h
    exact decide_eq_true hx.ne'
  | infinity negative => rfl
  | nan => rfl

theorem Number.gt_trans {a b c : Number} (hab : a.gt b = true) (hbc : b.gt c = true) : a.gt c = true := by
  cases a <;> cases b <;> cases c <;> simp_all [Number.gt]
  exact lt_trans hbc hab

/-- The decimal nearest to `d` with `j` places. -/
def place (d : ℚ) (j : Int) : ℚ := roundHalfEven (d * pow10 j) / pow10 j

/-- The value of `repr(d)`: the decimal with the fewest digits that is read as `d`. -/
def shortest (d : ℚ) : ℚ :=
  let places := (List.range 400).map fun i : Nat => (i : Int) - Nat.log2 (d.num.natAbs / d.den)
  ((places.map (place d)).find? fun r => toDouble r = d).getD d

/-! ## Redis -/

/-- The long double nearest to `x`. -/
def toLong (x : ℚ) : ℚ := roundHalfEven (x / (ulp x / 2 ^ 11)) * (ulp x / 2 ^ 11)

/-- The amount Redis reads in the argument of an increment by a float. -/
def redisFloat (s : String) : Option ℚ := (decimal s.toList).map toLong

/-- What `%.17Lf` writes. -/
def fixed17 (x : ℚ) : ℚ := roundHalfEven (x * 10 ^ 17) / 10 ^ 17

/-- The sum of a stored amount, if there is one, and `x`, as it is stored. -/
def addFloat (stored : Option ℚ) (x : ℚ) : ℚ := fixed17 (toLong (toLong (stored.getD 0) + x))

theorem isDigit_of_digits {cs : List Char} {n : Nat} (h : digits cs = some n) : ∀ c ∈ cs, c.isDigit = true := by
  unfold digits at h
  split at h
  · rename_i hall
    exact List.all_eq_true.1 hall.2
  · cases h

theorem unsignedDecimal_digits {cs : List Char} {n : Nat} (h : digits cs = some n) : unsignedDecimal cs = some (n : ℚ) := by
  have hdigit := isDigit_of_digits h
  have hexp : ∀ c ∈ cs, (!(c = 'e' || c = 'E')) = true := by
    intro c hc
    have hd := hdigit c hc
    cases he : decide (c = 'e') || decide (c = 'E') with
    | false => rfl
    | true =>
      simp only [Bool.or_eq_true, decide_eq_true_eq] at he
      rcases he with rfl | rfl <;> exact absurd hd (by decide)
  unfold unsignedDecimal
  dsimp only
  rw [List.dropWhile_eq_nil_iff.2 hexp]
  simp only [mantissa, List.dropWhile_eq_nil_iff.2 hdigit, List.takeWhile_eq_self_iff.2 hdigit, h, Option.map_some]

/-- An integer is a decimal. -/
theorem decimal_of_numeral {cs : List Char} {n : Int} (h : numeral cs = some n) : decimal cs = some (n : ℚ) := by
  unfold numeral at h
  unfold decimal
  split at h
  all_goals
    obtain ⟨k, hk, rfl⟩ := Option.map_eq_some_iff.1 h
    simp [unsignedDecimal_digits hk]

/-- An integer is sent as its numeral, and read as it is. -/
theorem decimal_toString (n : Int) : decimal (toString n).toList = some (n : ℚ) := decimal_of_numeral (numeral_toString n)

theorem mantissa_chars {cs : List Char} {q : ℚ} (h : mantissa cs = some q) : ∀ c ∈ cs, c = '.' ∨ c.isDigit = true := by
  unfold mantissa at h
  dsimp only at h
  intro c hc
  rw [← List.takeWhile_append_dropWhile (p := fun c : Char => c.isDigit) (l := cs), List.mem_append] at hc
  rcases hc with hc | hc
  · exact .inr (List.mem_takeWhile_imp hc)
  · split at h
    · rename_i hnil
      rw [hnil] at hc
      cases hc
    · rename_i hcons
      split at h
      · rename_i hdot
        obtain ⟨n, hn, -⟩ := Option.map_eq_some_iff.1 h
        rw [hcons] at hc
        rcases List.mem_cons.1 hc with rfl | hc
        · exact .inl hdot
        · exact .inr (isDigit_of_digits hn c (List.mem_append_right _ hc))
      · cases h

/-- A decimal has no NUL. -/
theorem nul_not_mem_unsignedDecimal {cs : List Char} {q : ℚ} (h : unsignedDecimal cs = some q) : '\x00' ∉ cs := by
  have hmantissa : ∀ {l : List Char} {q : ℚ}, mantissa l = some q → '\x00' ∉ l := by
    intro l q hl hmem
    exact absurd (mantissa_chars hl _ hmem) (by decide)
  have hsplit := List.takeWhile_append_dropWhile (p := fun c : Char => !(c = 'e' || c = 'E')) (l := cs)
  unfold unsignedDecimal at h
  dsimp only at h
  intro hmem
  split at h
  · exact hmantissa h hmem
  · rename_i e he
    obtain ⟨m, hm, hexp⟩ := Option.bind_eq_some_iff.1 h
    obtain ⟨n, hn, -⟩ := Option.map_eq_some_iff.1 hexp
    rw [← hsplit, List.mem_append, he] at hmem
    rcases hmem with hmem | hmem
    · exact hmantissa hm hmem
    rcases List.mem_cons.1 hmem with rfl | hmem
    · have hhead := List.head?_dropWhile_not (fun c : Char => !(c = 'e' || c = 'E')) cs
      rw [he] at hhead
      cases hhead
    · exact absurd (numeral_chars hn _ hmem) (by decide)

theorem nul_not_mem_decimal {cs : List Char} {q : ℚ} (h : decimal cs = some q) : '\x00' ∉ cs := by
  have hcons : ∀ {c : Char} {l : List Char}, c ≠ '\x00' → '\x00' ∉ l → '\x00' ∉ c :: l := by
    intro c l hc hl hmem
    rcases List.mem_cons.1 hmem with rfl | hmem
    · exact hc rfl
    · exact hl hmem
  unfold decimal at h
  split at h
  · obtain ⟨x, hx, -⟩ := Option.map_eq_some_iff.1 h
    exact hcons (by decide) (nul_not_mem_unsignedDecimal hx)
  · exact hcons (by decide) (nul_not_mem_unsignedDecimal h)
  · exact nul_not_mem_unsignedDecimal h

/-- What is a decimal, Redis reads as that number or not as an integer. -/
theorem decimal_of_redisInt {s : String} {n : Int} {q : ℚ} (h : redisInt s = some n) (hq : decimal s.toList = some q) :
    q = n := by
  have hne : s.toList ≠ [] := by
    intro hnil
    rw [hnil] at hq
    cases hq
  rw [redisInt_of_not_nul hne (nul_not_mem_decimal hq)] at h
  exact Option.some.inj (hq.symm.trans (decimal_of_numeral (Option.filter_eq_some_iff.1 h).1))

/-! ## Rounding -/

theorem floor_le_self (x : ℚ) : (x.floor : ℚ) ≤ x := Rat.le_floor_iff.1 (Int.le_refl _)

theorem lt_floor_add_one (x : ℚ) : x < x.floor + 1 := by
  by_contra h
  have : x.floor + 1 ≤ x.floor := Rat.le_floor_iff.2 (by push_cast; exact not_lt.1 h)
  omega

theorem roundHalfEven_err (x : ℚ) : |(roundHalfEven x : ℚ) - x| ≤ 1 / 2 := by
  have hlow := floor_le_self x
  have hhigh := lt_floor_add_one x
  have hmid : ∀ y : ℚ, x - 1 / 2 ≤ y → y ≤ x + 1 / 2 → |y - x| ≤ 1 / 2 := fun y h h' =>
    abs_le.2 ⟨by linarith, by linarith⟩
  unfold roundHalfEven
  split
  · exact hmid _ (by linarith) (by linarith)
  · split
    · refine hmid _ ?_ ?_ <;> push_cast <;> linarith
    · split
      · exact hmid _ (by linarith) (by linarith)
      · refine hmid _ ?_ ?_ <;> push_cast <;> linarith

/-- An integer above is not passed. -/
theorem roundHalfEven_le {x : ℚ} {m : Int} (h : x ≤ m) : roundHalfEven x ≤ m := by
  by_contra hc
  have hge : (m : ℚ) + 1 ≤ roundHalfEven x := by exact_mod_cast not_le.1 hc
  have herr := (abs_le.1 (roundHalfEven_err x)).2
  linarith

theorem le_roundHalfEven {x : ℚ} {m : Int} (h : (m : ℚ) ≤ x) : m ≤ roundHalfEven x := by
  by_contra hc
  have hle : (roundHalfEven x : ℚ) + 1 ≤ m := by exact_mod_cast not_le.1 hc
  have herr := (abs_le.1 (roundHalfEven_err x)).1
  linarith

theorem roundHalfEven_intCast (m : Int) : roundHalfEven (m : ℚ) = m :=
  Int.le_antisymm (roundHalfEven_le (le_refl _)) (le_roundHalfEven (le_refl _))

theorem pow2_eq_zpow (e : Int) : pow2 e = (2 : ℚ) ^ e := by
  cases e with
  | ofNat n => simp [pow2]
  | negSucc n => simp [pow2, zpow_negSucc]

/-- The binary exponent of `x`. -/
def expo (x : ℚ) : Int :=
  let e : Int := (Nat.log2 x.num.natAbs : Int) - Nat.log2 x.den
  if pow2 e ≤ |x| then e else e - 1

theorem ulp_eq (x : ℚ) : ulp x = (2 : ℚ) ^ (expo x - 52) := by
  unfold ulp expo
  exact pow2_eq_zpow _

theorem expo_le {x : ℚ} (hx : x ≠ 0) : (2 : ℚ) ^ expo x ≤ |x| := by
  have hnum : x.num.natAbs ≠ 0 := by simpa using hx
  have hlow : ((2 : ℚ)) ^ (Nat.log2 x.num.natAbs) ≤ x.num.natAbs := by exact_mod_cast Nat.log2_self_le hnum
  have hden : (x.den : ℚ) ≤ (2 : ℚ) ^ (Nat.log2 x.den + 1) := by exact_mod_cast Nat.lt_log2_self.le
  have habs : |x| = x.num.natAbs / x.den := by
    conv_lhs => rw [← Rat.num_div_den x]
    rw [abs_div, Nat.abs_cast, Nat.cast_natAbs]
    push_cast
    rfl
  have hpos : (0 : ℚ) < x.den := by exact_mod_cast x.den_pos
  unfold expo
  dsimp only
  split
  · rename_i h
    rwa [pow2_eq_zpow] at h
  · rw [habs, le_div_iff₀ hpos]
    calc (2 : ℚ) ^ ((Nat.log2 x.num.natAbs : Int) - Nat.log2 x.den - 1) * x.den
        ≤ (2 : ℚ) ^ ((Nat.log2 x.num.natAbs : Int) - Nat.log2 x.den - 1) * (2 : ℚ) ^ (Nat.log2 x.den + 1) :=
          mul_le_mul_of_nonneg_left hden (zpow_nonneg (by norm_num) _)
      _ = (2 : ℚ) ^ (Nat.log2 x.num.natAbs) := by
          rw [← zpow_natCast, ← zpow_natCast, ← zpow_add₀ (by norm_num)]
          congr 1
          push_cast
          ring
      _ ≤ _ := hlow

theorem ulp_le {x : ℚ} (hx : x ≠ 0) : ulp x ≤ |x| / 2 ^ 52 := by
  rw [ulp_eq, zpow_sub₀ (by norm_num), le_div_iff₀ (by positivity)]
  calc (2 : ℚ) ^ expo x / 2 ^ (52 : Int) * 2 ^ 52 = (2 : ℚ) ^ expo x := by
        rw [div_mul_eq_mul_div, div_eq_iff (by positivity)]
        norm_cast
    _ ≤ |x| := expo_le hx

/-- A double is near. -/
theorem toDouble_err (x : ℚ) : |toDouble x - x| ≤ |x| / 1000 := by
  rcases eq_or_ne x 0 with rfl | hx
  · have h0 : toDouble 0 = 0 := by
      unfold toDouble
      rw [zero_div, ← Int.cast_zero, roundHalfEven_intCast, Int.cast_zero, zero_mul]
    simp [h0]
  · have hu := ulp_pos x
    have herr := roundHalfEven_err (x / ulp x)
    have heq : toDouble x - x = ((roundHalfEven (x / ulp x) : ℚ) - x / ulp x) * ulp x := by
      rw [toDouble, sub_mul, div_mul_cancel₀ _ hu.ne']
    calc |toDouble x - x| = |(roundHalfEven (x / ulp x) : ℚ) - x / ulp x| * ulp x := by
          rw [heq, abs_mul, abs_of_pos hu]
      _ ≤ 1 / 2 * (|x| / 2 ^ 52) := mul_le_mul herr (ulp_le hx) hu.le (by norm_num)
      _ ≤ |x| / 1000 := by
          have := abs_nonneg x
          linarith

theorem toDouble_le {x : ℚ} (h : 0 ≤ x) : toDouble x ≤ 1001 / 1000 * x := by
  have herr := (abs_le.1 (toDouble_err x)).2
  rw [abs_of_nonneg h] at herr
  linarith

/-- What is read as a double is not much more than it. -/
theorem le_of_toDouble {x d : ℚ} (hd : 0 ≤ d) (h : toDouble x = d) : 0 ≤ x ∧ x ≤ 1002 / 1000 * d := by
  have herr := abs_le.1 (toDouble_err x)
  rw [h] at herr
  have hx : 0 ≤ x := by
    by_contra hneg
    rw [abs_of_neg (not_le.1 hneg)] at herr
    linarith
  rw [abs_of_nonneg hx] at herr
  exact ⟨hx, by linarith⟩

theorem shortest_le {d : ℚ} (hd : 0 ≤ d) : 0 ≤ shortest d ∧ shortest d ≤ 1002 / 1000 * d := by
  unfold shortest
  dsimp only
  cases hf : List.find? (fun r => decide (toDouble r = d))
      (((List.range 400).map fun i : Nat => (i : Int) - Nat.log2 (d.num.natAbs / d.den)).map (place d)) with
  | none => exact ⟨hd, by simp; linarith⟩
  | some r => exact le_of_toDouble hd (by simpa using List.find?_some hf)

/-- The last place of a long double below `2 ^ 62` divides a half. -/
theorem half_dvd {x : ℚ} (hx : |x| < 2 ^ 62) : ∃ k : Nat, ulp x / 2 ^ 11 = 1 / (2 * 2 ^ k) := by
  have hexpo : expo x ≤ 62 := by
    rcases eq_or_ne x 0 with rfl | hx0
    · decide
    · have hlt : (2 : ℚ) ^ expo x < (2 : ℚ) ^ (62 : Int) := by
        calc (2 : ℚ) ^ expo x ≤ |x| := expo_le hx0
          _ < 2 ^ 62 := hx
          _ = (2 : ℚ) ^ (62 : Int) := by norm_cast
      exact ((zpow_lt_zpow_iff_right₀ (by norm_num)).1 hlt).le
  obtain ⟨k, hk⟩ := Int.eq_ofNat_of_zero_le (show 0 ≤ 62 - expo x by omega)
  refine ⟨k, ?_⟩
  have he : expo x - 52 - 11 = -((1 : Int) + k) := by omega
  have h11 : (2 : ℚ) ^ 11 = (2 : ℚ) ^ (11 : Int) := by norm_cast
  rw [ulp_eq, h11, ← zpow_sub₀ (by norm_num), he, zpow_neg, zpow_add₀ (by norm_num), zpow_one, zpow_natCast, one_div]

/-- A half above is not passed. -/
theorem toLong_le {x : ℚ} {m : Int} (hx : |x| < 2 ^ 62) (h : x ≤ m / 2) : toLong x ≤ m / 2 := by
  obtain ⟨k, hk⟩ := half_dvd hx
  have hle : roundHalfEven (x / (1 / (2 * 2 ^ k))) ≤ m * 2 ^ k := by
    apply roundHalfEven_le
    push_cast
    rw [div_le_iff₀ (by positivity)]
    calc x ≤ m / 2 := h
      _ = m * 2 ^ k * (1 / (2 * 2 ^ k)) := by field_simp
  have hcast : (roundHalfEven (x / (1 / (2 * 2 ^ k))) : ℚ) ≤ m * 2 ^ k := by exact_mod_cast hle
  unfold toLong
  rw [hk, mul_one_div, div_le_iff₀ (by positivity)]
  calc (roundHalfEven (x / (1 / (2 * 2 ^ k))) : ℚ) ≤ m * 2 ^ k := hcast
    _ = m / 2 * (2 * 2 ^ k) := by field_simp

theorem toLong_nonneg {x : ℚ} (h : 0 ≤ x) : 0 ≤ toLong x := by
  have hu : (0 : ℚ) < ulp x / 2 ^ 11 := div_pos (ulp_pos x) (by positivity)
  exact mul_nonneg (by exact_mod_cast roundHalfEven_nonneg (div_nonneg h hu.le)) hu.le

theorem toLong_intCast {m : Int} (h : |(m : ℚ)| < 2 ^ 62) : toLong (m : ℚ) = m := by
  obtain ⟨k, hk⟩ := half_dvd h
  have hm : (m : ℚ) / (1 / (2 * 2 ^ k)) = ((m * (2 * 2 ^ k) : Int) : ℚ) := by
    push_cast
    field_simp
  unfold toLong
  rw [hk, hm, roundHalfEven_intCast]
  push_cast
  field_simp

theorem fixed17_le {x : ℚ} {m : Int} (h : x ≤ m / 2) : fixed17 x ≤ m / 2 := by
  have hle : roundHalfEven (x * 10 ^ 17) ≤ m * (5 * 10 ^ 16) := by
    apply roundHalfEven_le
    push_cast
    linarith
  have hcast : (roundHalfEven (x * 10 ^ 17) : ℚ) ≤ m * (5 * 10 ^ 16) := by exact_mod_cast hle
  unfold fixed17
  rw [div_le_iff₀ (by positivity)]
  calc (roundHalfEven (x * 10 ^ 17) : ℚ) ≤ m * (5 * 10 ^ 16) := hcast
    _ = m / 2 * 10 ^ 17 := by ring

theorem fixed17_nonneg {x : ℚ} (h : 0 ≤ x) : 0 ≤ fixed17 x :=
  div_nonneg (by exact_mod_cast roundHalfEven_nonneg (by positivity)) (by positivity)

theorem fixed17_intCast (m : Int) : fixed17 (m : ℚ) = m := by
  have hm : (m : ℚ) * 10 ^ 17 = ((m * 10 ^ 17 : Int) : ℚ) := by push_cast; rfl
  unfold fixed17
  rw [hm, roundHalfEven_intCast, div_eq_iff (by positivity)]
  push_cast
  rfl

end Python
