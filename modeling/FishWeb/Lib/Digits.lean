import Mathlib.Data.Nat.Digits.Defs
import Mathlib.Order.Bounds.Basic
/-!
# Numbers without a digit

A number is free of a digit when it is none of its digits. `skip` writes the next digit
for it. The number after a free one has the digit at most once, with zeros behind it, so
skipping it there gives the next free number (`isLeast_skip`).
-/

namespace Digits

variable {b d : Nat}

def Free (b d n : Nat) : Prop := d ∉ Nat.digits b n

/-- The number with `d + 1` for each digit `d`. -/
def skip (b d n : Nat) : Nat := Nat.ofDigits b ((Nat.digits b n).map fun e => if e = d then d + 1 else e)

theorem skip_of_free {n : Nat} (h : Free b d n) : skip b d n = n := by
  have hmap : (Nat.digits b n).map (fun e => if e = d then d + 1 else e) = Nat.digits b n := by
    conv_rhs => rw [← List.map_id (Nat.digits b n)]
    refine List.map_congr_left fun e he => if_neg ?_
    rintro rfl
    exact h he
  rw [skip, hmap, Nat.ofDigits_digits]

/-! ## The last digit -/

/-- A number by its last digit. -/
theorem exists_last (hb : 0 < b) (n : Nat) : ∃ r q, r < b ∧ n = r + b * q :=
  ⟨n % b, n / b, Nat.mod_lt n hb, (Nat.mod_add_div n b).symm⟩

theorem digits_last (hb : 1 < b) {r : Nat} (hr : r < b) {q : Nat} (h : 0 < r + b * q) :
    Nat.digits b (r + b * q) = r :: Nat.digits b q := by
  rw [Nat.digits_def' hb h, Nat.add_mul_mod_self_left, Nat.mod_eq_of_lt hr, Nat.add_mul_div_left _ _ (by omega),
    Nat.div_eq_of_lt hr, Nat.zero_add]

theorem free_last (hb : 1 < b) (hd : 0 < d) {r : Nat} (hr : r < b) (q : Nat) : Free b d (r + b * q) ↔ r ≠ d ∧ Free b d q := by
  unfold Free
  rcases (r + b * q).eq_zero_or_pos with hzero | hpos
  · obtain ⟨rfl, hq⟩ := Nat.add_eq_zero_iff.1 hzero
    obtain rfl : q = 0 := (Nat.mul_eq_zero.1 hq).resolve_left (by omega)
    simp [hd.ne]
  · rw [digits_last hb hr hpos, List.mem_cons, not_or, ne_comm]

theorem skip_last (hb : 1 < b) (hd : 0 < d) {r : Nat} (hr : r < b) (q : Nat) :
    skip b d (r + b * q) = (if r = d then d + 1 else r) + b * skip b d q := by
  unfold skip
  rcases (r + b * q).eq_zero_or_pos with hzero | hpos
  · obtain ⟨rfl, hq⟩ := Nat.add_eq_zero_iff.1 hzero
    obtain rfl : q = 0 := (Nat.mul_eq_zero.1 hq).resolve_left (by omega)
    simp [hd.ne]
  · rw [digits_last hb hr hpos, List.map_cons, Nat.ofDigits_cons]

theorem le_skip (hb : d + 1 < b) (hd : 0 < d) (n : Nat) : n ≤ skip b d n := by
  induction n using Nat.base_induction b (by omega) with
  | single r hr =>
    have hlast := skip_last (show 1 < b by omega) hd hr 0
    rw [Nat.mul_zero, Nat.add_zero] at hlast
    rw [hlast]
    split <;> omega
  | digit q r hr hq ih =>
    have := Nat.mul_le_mul_left b ih
    rw [Nat.add_comm, skip_last (by omega) hd hr]
    split <;> omega

/-- Numbers are compared by what is before the last digit, and then by it. -/
theorem last_lt {r t q p : Nat} (hr : r < b) (ht : t < b) : r + b * q < t + b * p ↔ q < p ∨ q = p ∧ r < t := by
  rcases Nat.lt_trichotomy q p with hlt | rfl | hgt
  · have := Nat.mul_le_mul_left b (Nat.succ_le_of_lt hlt)
    rw [Nat.mul_succ] at this
    omega
  · omega
  · have := Nat.mul_le_mul_left b (Nat.succ_le_of_lt hgt)
    rw [Nat.mul_succ] at this
    omega

/-! ## The next free number -/

/-- Where the last digit can be counted up, it is, past `d`. -/
theorem isLeast_counted (hb : 1 < b) (hd : 0 < d) {r q e : Nat} (hr : r < b) (hq : Free b d q) (he : e < b) (hed : e ≠ d)
    (hre : r < e) (hmin : ∀ t, r < t → t ≠ d → e ≤ t) : IsLeast {n | r + b * q < n ∧ Free b d n} (e + b * q) := by
  refine ⟨⟨by omega, (free_last hb hd he q).2 ⟨hed, hq⟩⟩, ?_⟩
  rintro n ⟨hlt, hn⟩
  obtain ⟨t, p, ht, rfl⟩ := exists_last (show 0 < b by omega) n
  have htd := ((free_last hb hd ht p).1 hn).1
  by_contra hnot
  rcases (last_lt hr ht).1 hlt with hqp | ⟨rfl, hrt⟩
  · exact hnot ((last_lt he ht).2 (.inl hqp)).le
  · have := hmin t hrt htd
    omega

/-- Where it is carried, zero is left. -/
theorem isLeast_carried (hb : 1 < b) (hd : 0 < d) {r q k : Nat} (hr : r < b) (hlast : b ≤ r + 1)
    (hk : IsLeast {n | q < n ∧ Free b d n} k) : IsLeast {n | r + b * q < n ∧ Free b d n} (0 + b * k) := by
  obtain ⟨⟨hqk, hfree⟩, hleast⟩ := hk
  have hb0 : 0 < b := by omega
  refine ⟨⟨(last_lt hr hb0).2 (.inl hqk), (free_last hb hd hb0 k).2 ⟨hd.ne, hfree⟩⟩, ?_⟩
  rintro n ⟨hlt, hn⟩
  obtain ⟨t, p, ht, rfl⟩ := exists_last hb0 n
  have hqp : q < p := by
    rcases (last_lt hr ht).1 hlt with hqp | ⟨-, hrt⟩
    · exact hqp
    · omega
  have := Nat.mul_le_mul_left b (hleast ⟨hqp, ((free_last hb hd ht p).1 hn).2⟩)
  omega

/-- What is skipped after a free number is the next free number. -/
theorem isLeast_skip (hb : d + 1 < b) (hd : 0 < d) {m : Nat} (hm : Free b d m) :
    IsLeast {n | m < n ∧ Free b d n} (skip b d (m + 1)) := by
  have hb1 : 1 < b := by omega
  induction m using Nat.strong_induction_on with
  | h m ih =>
    obtain ⟨r, q, hr, rfl⟩ := exists_last (show 0 < b by omega) m
    have hq := ((free_last hb1 hd hr q).1 hm).2
    rcases Nat.lt_or_ge (r + 1) b with hnext | hlast
    · rw [Nat.add_right_comm, skip_last hb1 hd hnext, skip_of_free hq]
      split
      · exact isLeast_counted hb1 hd hr hq (by omega) (by omega) (by omega) fun t _ _ => by omega
      · exact isLeast_counted hb1 hd hr hq (by omega) (by omega) (by omega) fun t _ _ => by omega
    · have hsucc : r + b * q + 1 = 0 + b * (q + 1) := by
        rw [Nat.mul_succ]
        omega
      have hsmall : q < r + b * q := by
        have := Nat.mul_le_mul_right q (show 2 ≤ b from hb1)
        omega
      rw [hsucc, skip_last hb1 hd (by omega), if_neg hd.ne]
      exact isLeast_carried hb1 hd hr hlast (ih q hsmall hq)

end Digits
