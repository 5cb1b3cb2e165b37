import FishWeb.Lib.Decimal
import FishWeb.Lib.Grouping
/-!
# Amounts as they are shown

`format_credit` of `common/string_util.py`: two places, and a comma between groups of three
digits before the point. `float` is what reads the amount.
-/
open Python Grouping

namespace FishWeb.Text

/-- `'%.2f' % x` -/
def fixed2 (x : ℚ) : List Char :=
  let n := (roundHalfEven (|x| * 100)).toNat
  (if x < 0 then ['-'] else []) ++ Nat.toDigits 10 (n / 100) ++ ['.', Nat.digitChar (n % 100 / 10), Nat.digitChar (n % 10)]

/-- `l[i]`, counted from the end where `i` is negative. -/
def index {α : Type} (l : List α) (i : Int) : Except Err α :=
  match l[(if i < 0 then l.length + i else i).toNat]? with
  | some a => if -l.length ≤ i then .ok a else .error .IndexError
  | none => .error .IndexError

/-- `xrange(start, stop, -1)` -/
def countdown (start stop : Int) : List Int := (List.range (start - stop).toNat).map fun k : Nat => start - k

/-- A round of the loop: the character with the index `i` comes to the front, with a comma behind it or not. -/
def putDigit (digits s : List Char) (i : Int) : Except Err (List Char) := do
  let char ← index digits i
  let s := if char.isDigit ∧ i % 3 = 2 ∧ i ≠ -1 then ',' :: s else s
  return char :: s

def format_credit {α : Type} (float : α → ℚ) (credit : α) : Except Err (List Char) := do
  let credit_str := fixed2 (float credit)
  let l := splitChars '.' credit_str
  let digits ← index l 0
  let _end : Int := -(digits.length : Int) - 1
  let s ← (countdown (-1) _end).foldlM (putDigit digits) []
  return s ++ '.' :: (← index l 1)

example : format_credit (fun n : Int => (n : ℚ)) (-1234567) = .ok "-1,234,567.00".toList := by decide +kernel

/-! ## The loop -/

theorem index_last {α : Type} {l : List α} {m : Nat} (hm : m < l.length) :
    index l (-1 - m) = .ok (l.get ⟨l.length - 1 - m, by omega⟩) := by
  have hpos : ((if (-1 - m : Int) < 0 then (l.length : Int) + (-1 - m) else -1 - m)).toNat = l.length - 1 - m := by
    rw [if_pos (by omega)]
    omega
  unfold index
  rw [hpos, List.getElem?_eq_getElem (by omega)]
  simp only
  rw [if_pos (by omega)]
  rfl

/-- After `m` rounds the last `m` characters are in groups. -/
theorem foldlM_putDigit {digits : List Char} {m : Nat} (hm : m ≤ digits.length) :
    ((List.range m).map fun k : Nat => (-1 : Int) - k).foldlM (putDigit digits) [] =
      .ok (grouped 3 ',' Char.isDigit (digits.drop (digits.length - m))) := by
  induction m with
  | zero =>
    rw [Nat.sub_zero, List.drop_length]
    rfl
  | succ m ih =>
    have hlt : digits.length - 1 - m < digits.length := by omega
    have hdrop : digits.drop (digits.length - (m + 1)) = digits.get ⟨_, hlt⟩ :: digits.drop (digits.length - m) := by
      rw [show digits.length - (m + 1) = digits.length - 1 - m by omega, List.drop_eq_getElem_cons hlt,
        show digits.length - 1 - m + 1 = digits.length - m by omega]
      rfl
    have hlen : (digits.drop (digits.length - m)).length = m := by
      rw [List.length_drop]
      omega
    rw [List.range_succ, List.map_append, List.foldlM_append, ok_bind (ih (by omega))]
    show putDigit digits _ _ >>= _ = _
    rw [putDigit, ok_bind (index_last hm), hdrop, grouped, hlen]
    -- the index from the end, and how many characters it has behind it
    have hmod : (-1 - (m : Int)) % 3 = 2 ↔ m % 3 = 0 := by omega
    have hfirst : -1 - (m : Int) ≠ -1 ↔ digits.drop (digits.length - m) ≠ [] := by
      rw [← List.length_pos_iff, hlen]
      omega
    simp only [hmod, hfirst]
    split <;> rfl

/-! ## Two places -/

/-- The digits of an integer, with its sign. -/
theorem toString_int (n : Int) : (toString n).toList = (if n < 0 then ['-'] else []) ++ Nat.toDigits 10 n.natAbs := by
  cases n with
  | ofNat n =>
    rw [if_neg (by simp), List.nil_append]
    exact Nat.toList_repr
  | negSucc n =>
    have h : (toString (n + 1)).toList = Nat.toDigits 10 (n + 1) := Nat.toList_repr
    rw [if_pos (Int.negSucc_lt_zero n), Int.natAbs_negSucc, ← h]
    exact String.toList_append

/-- An integer has no hundredths. -/
theorem fixed2_intCast (n : Int) : fixed2 (n : ℚ) = (toString n).toList ++ ['.', '0', '0'] := by
  have hround : roundHalfEven (|(n : ℚ)| * 100) = n.natAbs * 100 := by
    have hcast : |(n : ℚ)| * 100 = ((n.natAbs * 100 : Int) : ℚ) := by
      push_cast
      rfl
    rw [hcast, roundHalfEven_intCast]
  have hnat : (roundHalfEven (|(n : ℚ)| * 100)).toNat = n.natAbs * 100 := by
    rw [hround]
    omega
  have hsign : (n : ℚ) < 0 ↔ n < 0 := by exact_mod_cast Iff.rfl
  have htens : n.natAbs * 100 % 100 / 10 = 0 := by omega
  have hones : n.natAbs * 100 % 10 = 0 := by omega
  simp only [fixed2, hnat, hsign, htens, hones, Nat.mul_div_cancel _ (show 0 < 100 by decide), toString_int]
  rfl

/-! ## The groups -/

/-- What the text of an amount of `n` should be: its digits and two places, in groups of three. -/
structure Thousands (n : Int) (s : List Char) : Prop where
  plain : s.filter (· ≠ ',') = (toString n ++ ".00").toList
  /-- A comma stands between digits, before the point. -/
  between : ∀ a b, s = a ++ ',' :: b →
    (∃ c, a.getLast? = some c ∧ c.isDigit = true) ∧ (∃ c, b.head? = some c ∧ c.isDigit = true) ∧ '.' ∉ a
  threes : ∀ a b, s = a ++ ',' :: b → 3 ∣ (b.takeWhile (· ≠ '.')).countP Char.isDigit
  short : ∀ g, g <:+: s.takeWhile (· ≠ '.') → (∀ c ∈ g, c.isDigit = true) → g.length ≤ 3

/-- The text of an integer has its sign and digits alone. -/
theorem of_mem_toString {n : Int} {c : Char} (h : c ∈ (toString n).toList) : c = '-' ∨ c.isDigit = true := by
  rw [toString_int, List.mem_append] at h
  rcases h with h | h
  · split at h
    · exact .inl (List.mem_singleton.1 h)
    · cases h
  · exact .inr (isDigit_toDigits h)

/-- Behind the sign there are digits. -/
theorem isDigit_of_suffix {n : Int} {c : Char} {cs d : List Char} (h : d ++ c :: cs = (toString n).toList) (hd : d ≠ []) :
    ∀ x ∈ c :: cs, x.isDigit = true := by
  intro x hx
  rw [toString_int] at h
  split at h
  · obtain ⟨e, d, rfl⟩ := List.exists_cons_of_ne_nil hd
    have hdigits : d ++ c :: cs = Nat.toDigits 10 n.natAbs := (List.cons.inj h).2
    exact isDigit_toDigits (hdigits ▸ List.mem_append_right d hx)
  · exact isDigit_toDigits ((show d ++ c :: cs = Nat.toDigits 10 n.natAbs from h) ▸ List.mem_append_right d hx)

theorem format_credit_eq (n : Int) : format_credit (fun n : Int => (n : ℚ)) n =
    .ok (grouped 3 ',' Char.isDigit (toString n).toList ++ ".00".toList) := by
  have hpoint : '.' ∉ (toString n).toList := fun h => by
    rcases of_mem_toString h with h | h <;> simp at h
  have hsplit : splitChars '.' (fixed2 (n : ℚ)) = [(toString n).toList, ['0', '0']] := by
    rw [fixed2_intCast, splitChars_append hpoint]
    rfl
  have hloop : (countdown (-1) (-((toString n).toList.length : Int) - 1)).foldlM (putDigit (toString n).toList) [] =
      .ok (grouped 3 ',' Char.isDigit (toString n).toList) := by
    have hrounds := foldlM_putDigit (le_refl (toString n).toList.length)
    rw [Nat.sub_self, List.drop_zero] at hrounds
    rw [← hrounds, countdown]
    congr 3
    omega
  unfold format_credit
  simp only [hsplit]
  rw [ok_bind (show index [(toString n).toList, ['0', '0']] 0 = .ok (toString n).toList from rfl), ok_bind hloop]
  rfl

section Parts
variable {n : Int}

theorem comma_not_mem (n : Int) : ',' ∉ (toString n).toList := fun h => by
  rcases of_mem_toString h with h | h <;> simp at h

theorem point_not_mem (n : Int) : '.' ∉ grouped 3 ',' Char.isDigit (toString n).toList := fun h => by
  have hmem : '.' ∈ (grouped 3 ',' Char.isDigit (toString n).toList).filter (· ≠ ',') := List.mem_filter.2 ⟨h, by decide⟩
  rw [filter_grouped (comma_not_mem n)] at hmem
  rcases of_mem_toString hmem with h | h <;> simp at h

/-- What is before the point. -/
theorem takeWhile_point {l : List Char} (h : '.' ∉ l) (rest : List Char) :
    (l ++ '.' :: rest).takeWhile (· ≠ '.') = l := by
  have hne : ∀ x ∈ l, decide (x ≠ '.') = true := by
    intro x hx
    rw [decide_eq_true_eq]
    rintro rfl
    exact h hx
  rw [List.takeWhile_append_of_pos hne]
  simp

/-- A comma is one between groups. -/
theorem of_comma {a b : List Char} (h : grouped 3 ',' Char.isDigit (toString n).toList ++ ".00".toList = a ++ ',' :: b) :
    ∃ c d ds, a.getLast? = some c ∧ c.isDigit = true ∧ (∀ x ∈ d :: ds, x.isDigit = true) ∧ 3 ∣ (d :: ds).length ∧
      '.' ∉ a ∧ '.' ∉ grouped 3 ',' Char.isDigit (d :: ds) ∧
      b = grouped 3 ',' Char.isDigit (d :: ds) ++ ".00".toList := by
  have hpoint := point_not_mem n
  rcases List.append_eq_append_iff.1 h with ⟨t, -, ht⟩ | ⟨t, ht, hb⟩
  · have hcomma : ',' ∈ ".00".toList := ht ▸ List.mem_append_right t List.mem_cons_self
    exact absurd hcomma (by decide)
  · rcases t with - | ⟨x, t⟩
    · cases hb
    · obtain ⟨rfl, rfl⟩ := List.cons.inj hb
      obtain ⟨c, cs, hlast, hc, ⟨before, hsuffix⟩, hne, hdvd, rfl⟩ := of_separator (comma_not_mem n) ht
      obtain ⟨d, ds, rfl⟩ := List.exists_cons_of_ne_nil hne
      rw [ht, List.mem_append, not_or] at hpoint
      refine ⟨c, d, ds, hlast, hc, ?_, hdvd, hpoint.1, fun h => hpoint.2 (List.mem_cons_of_mem _ h), rfl⟩
      exact isDigit_of_suffix (d := before ++ [c]) (by rw [← hsuffix]; simp) (by simp)

end Parts

/-- For every integer: its digits and two places, in groups of three. -/
theorem format_credit_thousands (n : Int) :
    ∃ s, format_credit (fun n : Int => (n : ℚ)) n = .ok s ∧ Thousands n s := by
  refine ⟨_, format_credit_eq n, ?_, fun a b h => ?_, fun a b h => ?_, fun g hg hdigit => ?_⟩
  · rw [List.filter_append, filter_grouped (comma_not_mem n), String.toList_append]
    rfl
  · obtain ⟨c, d, ds, hlast, hc, hall, -, hpoint, -, rfl⟩ := of_comma h
    refine ⟨⟨c, hlast, hc⟩, ⟨d, ?_, hall d List.mem_cons_self⟩, hpoint⟩
    rw [grouped]
    split <;> rfl
  · obtain ⟨c, d, ds, -, -, hall, hdvd, -, hpoint, rfl⟩ := of_comma h
    have hcomma : ',' ∉ d :: ds := fun hin => absurd (hall _ hin) (by decide)
    have hbefore := takeWhile_point hpoint ['0', '0']
    have hcount : (d :: ds).countP Char.isDigit = (d :: ds).length := List.countP_eq_length.2 hall
    rw [show ".00".toList = '.' :: ['0', '0'] from rfl, hbefore, countP_grouped hcomma (by decide), hcount]
    exact hdvd
  · have hbefore := takeWhile_point (point_not_mem n) ['0', '0']
    rw [show ".00".toList = '.' :: ['0', '0'] from rfl, hbefore] at hg
    exact length_infix_le (by decide) (by decide) hdigit hg

/-! ## Doubles -/

/-- Integers below `2 ^ 53` are doubles. -/
theorem toDouble_intCast {n : Int} (h : |(n : ℚ)| < 2 ^ 53) : toDouble (n : ℚ) = n := by
  rcases eq_or_ne (n : ℚ) 0 with hzero | hne
  · rw [hzero, toDouble, zero_div, ← Int.cast_zero, roundHalfEven_intCast, Int.cast_zero, zero_mul]
  · have hexpo : expo (n : ℚ) ≤ 52 := by
      have hlt : (2 : ℚ) ^ expo (n : ℚ) < (2 : ℚ) ^ (53 : Int) := by
        calc (2 : ℚ) ^ expo (n : ℚ) ≤ |(n : ℚ)| := expo_le hne
          _ < 2 ^ 53 := h
          _ = (2 : ℚ) ^ (53 : Int) := by norm_cast
      have := (zpow_lt_zpow_iff_right₀ (by norm_num)).1 hlt
      omega
    obtain ⟨k, hk⟩ := Int.eq_ofNat_of_zero_le (show 0 ≤ 52 - expo (n : ℚ) by omega)
    have hulp : ulp (n : ℚ) = 1 / 2 ^ k := by
      rw [ulp_eq, show expo (n : ℚ) - 52 = -(k : Int) by omega, zpow_neg, zpow_natCast, one_div]
    have hscaled : (n : ℚ) / (1 / 2 ^ k) = ((n * 2 ^ k : Int) : ℚ) := by
      push_cast
      field_simp
    rw [toDouble, hulp, hscaled, roundHalfEven_intCast]
    push_cast
    field_simp

/-- So a double shows them as they are. -/
theorem format_credit_double {n : Int} (h : |(n : ℚ)| < 2 ^ 53) :
    format_credit (fun n : Int => toDouble n) n = .ok (grouped 3 ',' Char.isDigit (toString n).toList ++ ".00".toList) := by
  rw [← format_credit_eq, format_credit, toDouble_intCast h]
  rfl

end FishWeb.Text
