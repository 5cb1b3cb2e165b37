import Mathlib.Data.List.Basic
import Mathlib.Tactic.Common
import Mathlib.Tactic.Ring
/-!
# Bytes

Numbers in bytes, the highest first, and a header spliced into a text. What was spliced in
at a position is cut out there again.
-/

namespace Bytes

/-! ## Numbers -/

/-- `n` in `k` bytes. -/
def bigEndian : (k n : Nat) → List UInt8
  | 0, _ => []
  | k + 1, n => bigEndian k (n / 256) ++ [UInt8.ofNat n]

/-- The number that the bytes are. -/
def value (bytes : List UInt8) : Nat := bytes.foldl (fun n b => 256 * n + b.toNat) 0

@[simp] theorem length_bigEndian (k n : Nat) : (bigEndian k n).length = k := by
  induction k generalizing n with
  | zero => rfl
  | succ k ih => simp [bigEndian, ih]

theorem value_concat (bytes : List UInt8) (b : UInt8) : value (bytes ++ [b]) = 256 * value bytes + b.toNat := by
  simp [value]

/-- A number that has room is read back. -/
theorem value_bigEndian {k n : Nat} (h : n < 256 ^ k) : value (bigEndian k n) = n := by
  induction k generalizing n with
  | zero =>
    rw [pow_zero] at h
    simp [bigEndian, value]
    omega
  | succ k ih =>
    have hquot : n / 256 < 256 ^ k := Nat.div_lt_of_lt_mul (by rwa [← pow_succ'])
    rw [bigEndian, value_concat, ih hquot, UInt8.toNat_ofNat']
    omega

/-! ## Splicing -/

variable {α : Type} (i : Nat) (header text : List α)

/-- The text with the header after its first `i` elements. -/
def splice : List α := text.take i ++ header ++ text.drop i

/-- The text without the `k` elements from the position on. -/
def cut (k : Nat) : List α := text.take i ++ text.drop (i + k)

theorem length_splice : (splice i header text).length = text.length + header.length := by
  simp [splice]
  omega

variable {i header text}

theorem cut_splice (hi : i ≤ text.length) : cut i (splice i header text) header.length = text := by
  have hpast : (text.take i).drop (i + header.length) = [] := List.drop_eq_nil_of_le (by simp)
  simp [cut, splice, List.drop_append, hi, hpast]

end Bytes
