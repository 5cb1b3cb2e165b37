import Mathlib.Data.List.TakeWhile
import Mathlib.Data.Rat.Floor
import Mathlib.Tactic.Linarith
import Mathlib.Tactic.Positivity
import Mathlib.Tactic.FieldSimp
/-!
# Python's strings, integers and floats

The built-in operations the handlers compute with: `str.split(c)`, `int(s)`,
Redis' own reading of an integer argument and writing of a score, and the product
of an integer with a `float`, rounded to 53 bits as IEEE doubles are.
-/

namespace Python

/-- The exceptions the handlers can raise. -/
inductive Err where
  | ValueError | IndexError | TypeError | KeyError | AttributeError | AssertionError | ResponseError | NameError
  | ConnectionError | ZeroDivisionError | RuntimeError
  deriving Repr, DecidableEq

section Exceptions
variable {ε α β : Type} {f : α → Except ε β}

theorem ok_bind {x : Except ε α} {a : α} (h : x = .ok a) (f : α → Except ε β) : (x >>= f) = f a := h ▸ rfl

/-- A loop that returns has returned from its first round and from the others. -/
theorem mapM_cons_ok {a : α} {l : List α} {ys : List β} :
    (a :: l).mapM f = .ok ys ↔ ∃ y zs, f a = .ok y ∧ l.mapM f = .ok zs ∧ ys = y :: zs := by
  rw [List.mapM_cons]
  cases f a with
  | error e => exact ⟨fun h => (nomatch h), fun ⟨_, _, h, _⟩ => nomatch h⟩
  | ok y =>
    cases l.mapM f with
    | error e => exact ⟨fun h => (nomatch h), fun ⟨_, _, _, h, _⟩ => nomatch h⟩
    | ok zs =>
      constructor
      · exact fun h => ⟨y, zs, rfl, rfl, (Except.ok.inj h).symm⟩
      · rintro ⟨_, _, hy, hzs, rfl⟩
        rw [← Except.ok.inj hy, ← Except.ok.inj hzs]
        rfl

theorem mapM_ok {g : α → β} {l : List α} (h : ∀ a ∈ l, f a = .ok (g a)) : l.mapM f = .ok (l.map g) := by
  induction l with
  | nil => rfl
  | cons a l ih => exact mapM_cons_ok.2 ⟨_, _, h a List.mem_cons_self, ih fun b hb => h b (List.mem_cons_of_mem a hb), rfl⟩

end Exceptions

/-- `'%s' % x` for a string or `None`. -/
def fmt (x : Option String) : String := x.getD "None"

@[simp] theorem fmt_some (x : String) : fmt (some x) = x := rfl

/-! ## `str.split` -/

def splitChars (c : Char) : List Char → List (List Char)
  | [] => [[]]
  | x :: xs =>
    if x = c then [] :: splitChars c xs
    else match splitChars c xs with
      | [] => [[x]]
      | y :: ys => (x :: y) :: ys

/-- `s.split(c)`: at least one part, and one more than `s` has separators. -/
def split (c : Char) (s : String) : List String := (splitChars c s.toList).map String.ofList

theorem splitChars_eq {c : Char} {cs : List Char} (h : c ∉ cs) : splitChars c cs = [cs] := by
  induction cs with
  | nil => rfl
  | cons x xs ih =>
    simp only [List.mem_cons, not_or] at h
    rw [splitChars, if_neg (Ne.symm h.1), ih h.2]

theorem splitChars_append {c : Char} {cs : List Char} (h : c ∉ cs) (ds : List Char) :
    splitChars c (cs ++ c :: ds) = cs :: splitChars c ds := by
  induction cs with
  | nil => simp [splitChars]
  | cons x xs ih =>
    simp only [List.mem_cons, not_or] at h
    rw [List.cons_append, splitChars, if_neg (Ne.symm h.1), ih h.2]

/-- `(s + c + t).split(c)`, where `c` is in neither. -/
theorem split_append {c : Char} {s t : String} (hs : c ∉ s.toList) (ht : c ∉ t.toList) :
    split c (s ++ String.singleton c ++ t) = [s, t] := by
  unfold split
  have hl : (s ++ String.singleton c ++ t).toList = s.toList ++ c :: t.toList := by simp
  rw [hl, splitChars_append hs, splitChars_eq ht]
  simp

theorem not_mem_of_mem_splitChars {c : Char} {cs p : List Char} (h : p ∈ splitChars c cs) : c ∉ p := by
  induction cs generalizing p with
  | nil =>
    rw [List.mem_singleton.1 h]
    exact List.not_mem_nil
  | cons x xs ih =>
    rw [splitChars] at h
    split at h
    · rcases List.mem_cons.1 h with rfl | h
      · exact List.not_mem_nil
      · exact ih h
    · rename_i hx
      cases hxs : splitChars c xs with
      | nil =>
        simp only [hxs, List.mem_singleton] at h
        simpa [h] using Ne.symm hx
      | cons y ys =>
        simp only [hxs] at h
        rcases List.mem_cons.1 h with rfl | h
        · have hy := ih (hxs ▸ List.mem_cons_self)
          simpa [hy] using Ne.symm hx
        · exact ih (hxs ▸ List.mem_cons_of_mem _ h)

/-- No part holds the separator. -/
theorem not_mem_of_mem_split {c : Char} {s p : String} (h : p ∈ split c s) : c ∉ p.toList := by
  obtain ⟨cs, hcs, rfl⟩ := List.mem_map.1 h
  rw [String.toList_ofList]
  exact not_mem_of_mem_splitChars hcs

theorem splitChars_ne_nil (c : Char) (cs : List Char) : splitChars c cs ≠ [] := by
  cases cs with
  | nil => exact List.cons_ne_nil _ _
  | cons x xs =>
    rw [splitChars]
    split
    · exact List.cons_ne_nil _ _
    · split <;> exact List.cons_ne_nil _ _

/-- The parts and the separator make up the string. -/
theorem intercalate_splitChars (c : Char) (cs : List Char) : [c].intercalate (splitChars c cs) = cs := by
  induction cs with
  | nil => rfl
  | cons x xs ih =>
    obtain ⟨y, ys, hxs⟩ := List.exists_cons_of_ne_nil (splitChars_ne_nil c xs)
    rw [splitChars, hxs]
    rw [hxs] at ih
    split
    · rename_i hx
      rw [hx, ← ih]
      simp [List.intercalate, List.intersperse]
    · rw [← ih]
      cases ys <;> simp [List.intercalate, List.intersperse]

theorem split_injective (c : Char) : Function.Injective (split c) := by
  intro s t h
  have hchars : splitChars c s.toList = splitChars c t.toList :=
    List.map_injective_iff.2 (fun _ _ => String.ofList_injective) h
  apply String.toList_injective
  rw [← intercalate_splitChars c s.toList, hchars, intercalate_splitChars]

/-- The parts of `cs` between the separators; `skip` characters of one are still to pass. -/
def splitSep (sep : List Char) (skip : Nat) (part : List Char) : List Char → List (List Char)
  | [] => [part.reverse]
  | c :: cs =>
    if skip > 0 then splitSep sep (skip - 1) part cs
    else if sep.isPrefixOf (c :: cs) then part.reverse :: splitSep sep (sep.length - 1) [] cs
    else splitSep sep 0 (c :: part) cs

/-- `s.split(sep)` -/
def splitOn (sep s : String) : List String := (splitSep sep.toList 0 [] s.toList).map String.ofList

example : splitOn "|---|" "a|---||---|b|-" = ["a", "", "b|-"] := by decide

/-! ## `int` -/

/-- The characters `int` strips. -/
def isSpace (c : Char) : Bool := c = ' ' || c = '\t' || c = '\n' || c = '\r' || c = '\x0b' || c = '\x0c'

def strip (cs : List Char) : List Char := ((cs.dropWhile isSpace).reverse.dropWhile isSpace).reverse

/-- The value of a non-empty run of decimal digits. -/
def digits (cs : List Char) : Option Nat :=
  if cs ≠ [] ∧ cs.all (·.isDigit) then some (cs.foldl (fun n c => 10 * n + (c.toNat - '0'.toNat)) 0) else none

/-- A signed decimal numeral. -/
def numeral : List Char → Option Int
  | '-' :: cs => (digits cs).map (fun n : Nat => -(n : Int))
  | '+' :: cs => (digits cs).map (fun n : Nat => (n : Int))
  | cs => (digits cs).map (fun n : Nat => (n : Int))

/-- `int` also skips the spaces after the sign. -/
def closeSign : List Char → List Char
  | '-' :: cs => '-' :: cs.dropWhile isSpace
  | '+' :: cs => '+' :: cs.dropWhile isSpace
  | cs => cs

/-- `int(s)`; `none` is its `ValueError`. -/
def int (s : String) : Option Int := numeral (closeSign (strip s.toList))

/-- A `long long`. -/
def isInt64 (n : Int) : Bool := -2 ^ 63 ≤ n ∧ n < 2 ^ 63

/-- The integer Redis reads in an argument or a value: what `strtoll` makes of it, with either
sign, leading zeros and no space before it, within 64 bits. The text ends at a NUL, and an
empty one is 0. -/
def redisInt (s : String) : Option Int :=
  match s.toList.takeWhile (· ≠ '\x00') with
  | [] => some 0
  | cs => (numeral cs).filter isInt64

example : int "- 5" = some (-5) ∧ redisInt "- 5" = none := by decide

example : [redisInt "", redisInt "+3", redisInt "-05", redisInt "9223372036854775808", redisInt " 3", redisInt "3 "] =
    [some 0, some 3, some (-5), none, none, none] := by decide

theorem not_isSpace_of_isDigit {c : Char} (h : c.isDigit = true) : isSpace c = false := by
  cases hs : isSpace c with
  | false => rfl
  | true =>
    simp only [isSpace, Bool.or_eq_true, decide_eq_true_eq] at hs
    rcases hs with ((((rfl | rfl) | rfl) | rfl) | rfl) | rfl <;> simp at h

theorem dropWhile_isSpace {cs : List Char} (h : ∀ c ∈ cs, isSpace c = false) : cs.dropWhile isSpace = cs := by
  cases cs with
  | nil => rfl
  | cons c cs => simp [h c (by simp)]

theorem strip_eq {cs : List Char} (h : ∀ c ∈ cs, isSpace c = false) : strip cs = cs := by
  rw [strip, dropWhile_isSpace h, dropWhile_isSpace fun c hc => h c (List.mem_reverse.1 hc), List.reverse_reverse]

theorem closeSign_eq {cs : List Char} (h : ∀ c ∈ cs, isSpace c = false) : closeSign cs = cs := by
  unfold closeSign
  split
  · rw [dropWhile_isSpace fun c hc => h c (List.mem_cons_of_mem _ hc)]
  · rw [dropWhile_isSpace fun c hc => h c (List.mem_cons_of_mem _ hc)]
  · rfl

/-- Without spaces, `int` reads the numeral. -/
theorem int_eq {s : String} (h : ∀ c ∈ s.toList, isSpace c = false) : int s = numeral s.toList := by
  rw [int, strip_eq h, closeSign_eq h]

/-- A numeral is made of digits and a sign. -/
theorem numeral_chars {cs : List Char} {n : Int} (h : numeral cs = some n) :
    ∀ c ∈ cs, c = '-' ∨ c = '+' ∨ c.isDigit = true := by
  have hdigits : ∀ {l : List Char} {m : Nat}, digits l = some m → ∀ c ∈ l, c.isDigit = true := by
    intro l m hl c hc
    unfold digits at hl
    split at hl
    · rename_i hall
      exact List.all_eq_true.1 hall.2 c hc
    · cases hl
  unfold numeral at h
  split at h
  · obtain ⟨m, hm, -⟩ := Option.map_eq_some_iff.1 h
    intro c hc
    rcases List.mem_cons.1 hc with rfl | hc
    · exact .inl rfl
    · exact .inr (.inr (hdigits hm c hc))
  · obtain ⟨m, hm, -⟩ := Option.map_eq_some_iff.1 h
    intro c hc
    rcases List.mem_cons.1 hc with rfl | hc
    · exact .inr (.inl rfl)
    · exact .inr (.inr (hdigits hm c hc))
  · obtain ⟨m, hm, -⟩ := Option.map_eq_some_iff.1 h
    exact fun c hc => .inr (.inr (hdigits hm c hc))

/-- A numeral has no spaces. -/
theorem numeral_not_isSpace {cs : List Char} {n : Int} (h : numeral cs = some n) : ∀ c ∈ cs, isSpace c = false := by
  intro c hc
  rcases numeral_chars h c hc with rfl | rfl | hd
  · decide
  · decide
  · exact not_isSpace_of_isDigit hd

theorem isDigit_toDigits {n : Nat} {c : Char} (h : c ∈ Nat.toDigits 10 n) : c.isDigit = true :=
  Nat.isDigit_of_mem_toDigits (by decide) (by decide) h

theorem digits_toDigits (n : Nat) : digits (Nat.toDigits 10 n) = some n := by
  unfold digits
  rw [if_pos ⟨Nat.toDigits_ne_nil, List.all_eq_true.2 fun c hc => isDigit_toDigits hc⟩]
  exact congrArg some Nat.ofDigitChars_ten_toDigits

/-- A numeral of digits alone. -/
theorem int_of_isDigit {s : String} (hne : s.toList ≠ []) (hd : ∀ c ∈ s.toList, c.isDigit = true) :
    int s = some (Nat.ofDigitChars 10 s.toList 0 : Int) := by
  have hdigits : digits s.toList = some (Nat.ofDigitChars 10 s.toList 0) := by
    unfold digits
    rw [if_pos ⟨hne, List.all_eq_true.2 hd⟩]
    rfl
  rw [int_eq fun c hc => not_isSpace_of_isDigit (hd c hc)]
  -- a digit is neither sign
  unfold numeral
  split
  · rename_i h
    exact absurd (hd '-' (h ▸ List.mem_cons_self)) (by decide)
  · rename_i h
    exact absurd (hd '+' (h ▸ List.mem_cons_self)) (by decide)
  · rw [hdigits]
    rfl

/-- `int(str(n))`. -/
theorem int_toString (n : Nat) : int (toString n) = some (n : Int) := by
  have hlist : (toString n).toList = Nat.toDigits 10 n := Nat.toList_repr
  rw [int_of_isDigit (hlist ▸ Nat.toDigits_ne_nil) (hlist ▸ fun c hc => isDigit_toDigits hc), hlist,
    Nat.ofDigitChars_ten_toDigits]

theorem toString_injective {m n : Nat} (h : toString m = toString n) : m = n := by
  have hint := congrArg int h
  rw [int_toString, int_toString] at hint
  exact Int.ofNat_inj.1 (Option.some.inj hint)

theorem numeral_toString (n : Int) : numeral (toString n).toList = some n := by
  cases n with
  | ofNat n =>
    have hlist : (toString (Int.ofNat n)).toList = Nat.toDigits 10 n := Nat.toList_repr
    have hd : ∀ c ∈ Nat.toDigits 10 n, c.isDigit = true := fun c hc => isDigit_toDigits hc
    rw [hlist]
    -- a digit is neither sign
    unfold numeral
    split
    · rename_i h
      exact absurd (hd '-' (h ▸ List.mem_cons_self)) (by decide)
    · rename_i h
      exact absurd (hd '+' (h ▸ List.mem_cons_self)) (by decide)
    · rw [digits_toDigits]
      rfl
  | negSucc n =>
    have hlist : (toString (Int.negSucc n)).toList = '-' :: Nat.toDigits 10 (n + 1) := by
      have h : (toString (n + 1)).toList = Nat.toDigits 10 (n + 1) := Nat.toList_repr
      rw [← h]
      exact String.toList_append
    rw [hlist, numeral, digits_toDigits]
    rfl

theorem int_toString_int (n : Int) : int (toString n) = some n := by
  have hnum := numeral_toString n
  rw [int_eq (numeral_not_isSpace hnum), hnum]

/-- `n * s`: a string written `n` times. -/
def times (n : Int) (s : String) : String := String.ofList (List.replicate n.toNat s.toList).flatten

/-- Digits written `n` times are at least `n` times their number. -/
theorem int_times {n : Nat} (hn : 0 < n) {s : String} (hne : s.toList ≠ []) (hd : ∀ c ∈ s.toList, c.isDigit = true) :
    ∃ k m : Nat, int (times n s) = some (k : Int) ∧ int s = some (m : Int) ∧ n * m ≤ k := by
  have htimes : (times n s).toList = (List.replicate n s.toList).flatten := by
    simp [times]
  refine ⟨_, _, int_of_isDigit ?_ ?_, int_of_isDigit hne hd, ?_⟩
  · obtain ⟨k, rfl⟩ := Nat.exists_eq_add_of_lt hn
    rw [htimes, List.replicate_succ, List.flatten_cons]
    exact List.append_ne_nil_of_left_ne_nil hne _
  · rw [htimes]
    intro c hc
    obtain ⟨l, hl, hcl⟩ := List.mem_flatten.1 hc
    exact hd c ((List.mem_replicate.1 hl).2 ▸ hcl)
  · rw [htimes]
    clear htimes hn
    induction n with
    | zero => simp
    | succ n ih =>
      -- the digits in front weigh at least their own number
      rw [List.replicate_succ, List.flatten_cons, Nat.ofDigitChars_append]
      generalize Nat.ofDigitChars 10 s.toList 0 = m at ih ⊢
      rw [Nat.ofDigitChars_eq_ofDigitChars_zero, Nat.add_mul]
      have hpow : 1 * m ≤ 10 ^ ((List.replicate n s.toList).flatten.length) * m :=
        Nat.mul_le_mul_right m (Nat.one_le_pow _ 10 (by decide))
      omega

/-! ## Redis' integers -/

theorem mem_dropWhile_isSpace {cs : List Char} {c : Char} (hs : isSpace c = false) (hc : c ∈ cs) : c ∈ cs.dropWhile isSpace := by
  rw [← List.takeWhile_append_dropWhile (p := isSpace) (l := cs), List.mem_append] at hc
  rcases hc with hc | hc
  · have hspace := List.mem_takeWhile_imp hc
    rw [hs] at hspace
    cases hspace
  · exact hc

theorem mem_strip {cs : List Char} {c : Char} (hs : isSpace c = false) (hc : c ∈ cs) : c ∈ strip cs :=
  List.mem_reverse.2 (mem_dropWhile_isSpace hs (List.mem_reverse.2 (mem_dropWhile_isSpace hs hc)))

theorem mem_closeSign {cs : List Char} {c : Char} (hs : isSpace c = false) (hc : c ∈ cs) : c ∈ closeSign cs := by
  have hcons : ∀ {d : Char} {l : List Char}, c ∈ d :: l → c ∈ d :: l.dropWhile isSpace := by
    intro d l h
    rcases List.mem_cons.1 h with rfl | h
    · exact List.mem_cons_self
    · exact List.mem_cons_of_mem _ (mem_dropWhile_isSpace hs h)
  unfold closeSign
  split
  · exact hcons hc
  · exact hcons hc
  · exact hc

/-- What `int` reads is made of spaces, digits and a sign. -/
theorem int_chars {s : String} {n : Int} (h : int s = some n) :
    ∀ c ∈ s.toList, isSpace c = true ∨ c = '-' ∨ c = '+' ∨ c.isDigit = true := by
  intro c hc
  cases hs : isSpace c with
  | true => exact .inl rfl
  | false => exact .inr (numeral_chars h c (mem_closeSign hs (mem_strip hs hc)))

/-- What `int` reads has no NUL. -/
theorem nul_not_mem_of_int {s : String} {n : Int} (h : int s = some n) : '\x00' ∉ s.toList :=
  fun hmem => absurd (int_chars h _ hmem) (by decide)

theorem redisInt_of_not_nul {s : String} (hne : s.toList ≠ []) (h : '\x00' ∉ s.toList) :
    redisInt s = (numeral s.toList).filter isInt64 := by
  have htake : s.toList.takeWhile (· ≠ '\x00') = s.toList :=
    List.takeWhile_eq_self_iff.2 fun c hc => decide_eq_true fun hc' => h (hc' ▸ hc)
  unfold redisInt
  rw [htake]
  split
  · contradiction
  · rfl

/-- What `int` reads, Redis reads as the same or not at all. -/
theorem redisInt_of_int {s : String} {n : Int} (h : int s = some n) : redisInt s = none ∨ redisInt s = some n := by
  have hne : s.toList ≠ [] := by
    intro hnil
    rw [int, hnil] at h
    cases h
  rw [redisInt_of_not_nul hne (nul_not_mem_of_int h)]
  cases hnum : numeral s.toList with
  | none => exact .inl rfl
  | some m =>
    have hm : m = n := by
      rw [int_eq (numeral_not_isSpace hnum), hnum] at h
      exact Option.some.inj h
    rw [hm, Option.filter_some]
    split
    · exact .inr rfl
    · exact .inl rfl

/-! ## `float` -/

/-- The nearest integer, ties to even. -/
def roundHalfEven (x : ℚ) : Int :=
  if x - x.floor < 1 / 2 then x.floor
  else if 1 / 2 < x - x.floor then x.floor + 1
  else if x.floor % 2 = 0 then x.floor else x.floor + 1

/-- `2 ^ e`, for a binary exponent of either sign. -/
def pow2 : Int → ℚ
  | .ofNat n => 2 ^ n
  | .negSucc n => 1 / 2 ^ (n + 1)

/-- The weight of the last of 53 binary digits of `x`. -/
def ulp (x : ℚ) : ℚ :=
  let e : Int := (Nat.log2 x.num.natAbs : Int) - Nat.log2 x.den
  pow2 ((if pow2 e ≤ |x| then e else e - 1) - 52)

/-- The double nearest to `x`. Overflow and subnormals are left out. -/
def toDouble (x : ℚ) : ℚ := roundHalfEven (x / ulp x) * ulp x

/-- `n * f` for an integer `n` and a float `f`. -/
def floatMul (n : Int) (f : ℚ) : ℚ := toDouble (toDouble n * f)

/-- `int(f)`: the integer part, towards zero. -/
def truncate (f : ℚ) : Int := if 0 ≤ f then f.floor else -((-f).floor)

theorem pow2_pos (e : Int) : 0 < pow2 e := by
  cases e <;> simp only [pow2] <;> positivity

theorem ulp_pos (x : ℚ) : 0 < ulp x := pow2_pos _

theorem roundHalfEven_nonneg {x : ℚ} (h : 0 ≤ x) : 0 ≤ roundHalfEven x := by
  have hf : 0 ≤ x.floor := Rat.le_floor_iff.2 (by simpa using h)
  unfold roundHalfEven
  split
  · exact hf
  · split
    · omega
    · split <;> omega

theorem toDouble_nonneg {x : ℚ} (h : 0 ≤ x) : 0 ≤ toDouble x := by
  have hr : 0 ≤ roundHalfEven (x / ulp x) := roundHalfEven_nonneg (div_nonneg h (ulp_pos x).le)
  exact mul_nonneg (by exact_mod_cast hr) (ulp_pos x).le

theorem floatMul_nonneg {n : Int} {f : ℚ} (hn : 0 ≤ n) (hf : 0 ≤ f) : 0 ≤ floatMul n f :=
  toDouble_nonneg (mul_nonneg (toDouble_nonneg (by exact_mod_cast hn)) hf)

theorem truncate_nonneg {f : ℚ} (h : 0 ≤ f) : 0 ≤ truncate f := by
  rw [truncate, if_pos h]
  exact Rat.le_floor_iff.2 (by simpa using h)

theorem floor_eq_zero_iff {f : ℚ} (h : 0 ≤ f) : f.floor = 0 ↔ f < 1 := by
  have hf : 0 ≤ f.floor := Rat.le_floor_iff.2 (by simpa using h)
  have h1 : (1 : Int) ≤ f.floor ↔ (1 : ℚ) ≤ f := by rw [Rat.le_floor_iff]; simp
  constructor
  · intro h0
    by_contra hc
    have := h1.2 (not_lt.1 hc)
    omega
  · intro hlt
    have hn : ¬(1 : Int) ≤ f.floor := fun hc => absurd (h1.1 hc) (not_le.2 hlt)
    omega

theorem truncate_eq_zero_iff (f : ℚ) : truncate f = 0 ↔ |f| < 1 := by
  unfold truncate
  split
  · rename_i h
    rw [abs_of_nonneg h, floor_eq_zero_iff h]
  · rename_i h
    have hneg : 0 ≤ -f := by linarith
    rw [abs_of_neg (not_le.1 h), Int.neg_eq_zero, floor_eq_zero_iff hneg]

example : truncate (floatMul 10 (23 / 10)) = 23 := by decide +kernel

/-! ## `'%.17g'` -/

/-- `'%.17g'` of a double that is an integer: the digits of the integer, or, from `10 ^ 17` on, the first 17 of them
without the zeros at their end, and an exponent. -/
def formatG17 (x : Int) : String :=
  if x.natAbs < 10 ^ 17 then toString x
  else
    let exponent := (Nat.toDigits 10 x.natAbs).length - 1
    let ds := Nat.toDigits 10 (roundHalfEven (x.natAbs / 10 ^ (exponent - 16) : ℚ)).toNat
    -- the rounding can carry to another digit
    let exponent := exponent + (ds.length - 17)
    let fraction := ((ds.drop 1).reverse.dropWhile (· = '0')).reverse
    String.ofList ((if x < 0 then ['-'] else []) ++ ds.take 1 ++ (if fraction = [] then [] else '.' :: fraction) ++
      'e' :: '+' :: Nat.toDigits 10 exponent)

example : [formatG17 99999999999999984, formatG17 (10 ^ 17), formatG17 (-9223372036854775808)] =
    ["99999999999999984", "1e+17", "-9.2233720368547758e+18"] := by decide +kernel

/-- `int` does not read an exponent. -/
theorem int_formatG17 (x : Int) : int (formatG17 x) = if x.natAbs < 10 ^ 17 then some x else none := by
  by_cases hx : x.natAbs < 10 ^ 17
  · rw [formatG17, if_pos hx, if_pos hx]
    exact int_toString_int x
  · have he : 'e' ∈ (formatG17 x).toList := by
      rw [formatG17, if_neg hx, String.toList_ofList]
      exact List.mem_append_right _ List.mem_cons_self
    rw [if_neg hx]
    cases hint : int (formatG17 x) with
    | none => rfl
    | some n => exact absurd (int_chars hint _ he) (by decide)

end Python
