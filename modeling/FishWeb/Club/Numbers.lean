import FishWeb.Club.Effects
import FishWeb.Lib.Digits
/-!
# Numbers of clubs

A club gets the number after the greatest one, with a 5 for each 4. Where the numbers in
use have no 4, that is the least number after all of them that has none (`nextIdOf_least`).
The number of a club is no account's key in the table of members.
-/
open Python Digits

namespace FishWeb.Club

open Common

/-- The text is not that of a set of clubs. -/
def Plain (n : String) : Prop := ∀ account, n ≠ playerToClubList account

theorem playerToClubList_inj {a b : String} (h : playerToClubList a = playerToClubList b) : a = b := by
  have hl := congrArg String.toList h
  simp only [playerToClubList, String.toList_append, List.append_cancel_left_eq] at hl
  exact String.toList_inj.1 hl

theorem plain_toString (k : Nat) : Plain (toString k) := by
  intro account h
  have hl : Nat.toDigits 10 k = (playerToClubList account).toList := Nat.toList_repr.symm.trans (congrArg String.toList h)
  have ha : 'a' ∈ Nat.toDigits 10 k := by
    rw [hl, playerToClubList, String.toList_append]
    exact List.mem_append_left _ (by decide)
  exact absurd (isDigit_toDigits ha) (by decide)

/-! ## Fours -/

/-- `'4' not in str(n)` -/
def Fourless (n : Nat) : Prop := '4' ∉ (toString n).toList

/-- The digit that stands for `c` in a number of a club. -/
def noFour (c : Char) : Char := if c = '4' then '5' else c

theorem noFour_isDigit {c : Char} (h : c.isDigit = true) : (noFour c).isDigit = true := by
  unfold noFour
  split
  · decide
  · exact h

theorem digitChar_eq_four {r : Nat} (hr : r < 10) : '4' = Nat.digitChar r ↔ r = 4 := by
  decide +revert

theorem noFour_digitChar {r : Nat} (hr : r < 10) :
    (noFour (Nat.digitChar r)).toNat - '0'.toNat = if r = 4 then 4 + 1 else r := by
  decide +revert

theorem fourless_iff (n : Nat) : Fourless n ↔ Digits.Free 10 4 n := by
  have hlist : (toString n).toList = Nat.toDigits 10 n := Nat.toList_repr
  rw [Fourless, hlist]
  clear hlist
  induction n using Nat.base_induction 10 (by decide) with
  | single r hr =>
    have hlast := free_last (d := 4) (show 1 < 10 by decide) (by decide) hr 0
    rw [Nat.mul_zero, Nat.add_zero] at hlast
    rw [hlast, Nat.toDigits_of_lt_base hr, List.mem_singleton, digitChar_eq_four hr]
    simp [Digits.Free]
  | digit q r hr hq ih =>
    have ih : '4' ∉ Nat.toDigits 10 q ↔ Digits.Free 10 4 q := ih
    rw [← Nat.toDigits_append_toDigits (by decide) hq hr, List.mem_append, not_or, ih, Nat.toDigits_of_lt_base hr,
      List.mem_singleton, digitChar_eq_four hr, Nat.add_comm, free_last (by decide) (by decide) hr, and_comm]

theorem ofDigitChars_noFour (n : Nat) : Nat.ofDigitChars 10 ((Nat.toDigits 10 n).map noFour) 0 = skip 10 4 n := by
  induction n using Nat.base_induction 10 (by decide) with
  | single r hr =>
    have hlast := skip_last (d := 4) (show 1 < 10 by decide) (by decide) hr 0
    rw [Nat.mul_zero, Nat.add_zero] at hlast
    rw [hlast, Nat.toDigits_of_lt_base hr, List.map_singleton, Nat.ofDigitChars_cons, Nat.ofDigitChars_nil, noFour_digitChar hr]
    simp [skip]
  | digit q r hr hq ih =>
    rw [← Nat.toDigits_append_toDigits (by decide) hq hr, List.map_append, Nat.ofDigitChars_append, ih, Nat.toDigits_of_lt_base hr,
      List.map_singleton, Nat.ofDigitChars_cons, Nat.ofDigitChars_nil, noFour_digitChar hr, Nat.add_comm,
      Nat.add_comm (10 * q) r, skip_last (by decide) (by decide) hr]

/-- The number with a 5 for each 4. -/
theorem int_withoutFour (n : Nat) : int (withoutFour n) = some (skip 10 4 n : Int) := by
  have hlist : (withoutFour n).toList = (Nat.toDigits 10 n).map noFour := by
    have hn : (toString (n : Int)).toList = Nat.toDigits 10 n := Nat.toList_repr
    rw [withoutFour, hn, String.toList_ofList]
    rfl
  rw [int_of_isDigit, hlist, ofDigitChars_noFour]
  · rw [hlist]
    exact fun h => Nat.toDigits_ne_nil (List.map_eq_nil_iff.1 h)
  · rw [hlist]
    intro c hc
    obtain ⟨e, he, rfl⟩ := List.mem_map.1 hc
    exact noFour_isDigit (isDigit_toDigits he)

/-! ## The numbers in use -/

/-- Every number that is listed is a numeral. -/
def Numerals (l : List String) : Prop := ∀ n ∈ l, ∃ k : Nat, n = toString k

theorem Numerals.exists_map {l : List String} (h : Numerals l) : ∃ ks : List Nat, l = ks.map toString := by
  induction l with
  | nil => exact ⟨[], rfl⟩
  | cons n l ih =>
    obtain ⟨k, rfl⟩ := h n List.mem_cons_self
    obtain ⟨ks, rfl⟩ := ih fun m hm => h m (List.mem_cons_of_mem _ hm)
    exact ⟨k :: ks, rfl⟩

theorem ints_map (ks : List Nat) : ints (ks.map toString) = .ok (ks.map (Nat.cast : Nat → Int)) := by
  induction ks with
  | nil => rfl
  | cons k ks ih =>
    rw [List.map_cons, ints, Value.toInt, int_toString, ih]
    rfl

/-- The number after the greatest. -/
def following (ks : List Nat) : Nat := (ks.max?.map (· + 1)).getD 2000

theorem lt_following {ks : List Nat} {k : Nat} (h : k ∈ ks) : k < following ks := by
  unfold following
  cases hm : ks.max? with
  | none => exact absurd (List.max?_eq_none_iff.1 hm ▸ h) List.not_mem_nil
  | some m =>
    have hle := (List.max?_le_iff hm).1 le_rfl k h
    exact Nat.lt_succ_of_le hle

theorem max?_cast (ks : List Nat) : (ks.map (Nat.cast : Nat → Int)).max? = ks.max?.map Nat.cast := by
  cases hm : ks.max? with
  | none =>
    rw [List.max?_eq_none_iff.1 hm]
    rfl
  | some m =>
    obtain ⟨hmem, hle⟩ := List.max?_eq_some_iff.1 hm
    refine List.max?_eq_some_iff.2 ⟨List.mem_map_of_mem hmem, fun i hi => ?_⟩
    obtain ⟨k, hk, rfl⟩ := List.mem_map.1 hi
    exact Int.ofNat_le.2 (hle k hk)

/-- The number a new club gets. -/
theorem nextIdOf_eq {s : St} {ks : List Nat} (h : s.clubs.members = ks.map toString) :
    s.nextIdOf = .ok (skip 10 4 (following ks) : Int) := by
  have hfollowing : (((ks.map (Nat.cast : Nat → Int)).max?.map (· + 1)).getD 2000) = (following ks : Int) := by
    rw [max?_cast, following]
    cases ks.max? <;> rfl
  unfold St.nextIdOf
  rw [h, ok_bind (ints_map _), nextId, hfollowing, int_withoutFour]

/-- A new club has a number that no club has. -/
theorem nextIdOf_fresh {s : St} (h : Numerals s.clubs.members) {n : Int} (hn : s.nextIdOf = .ok n) :
    (∃ k : Nat, n = k) ∧ toString n ∉ s.clubs := by
  obtain ⟨ks, hks⟩ := h.exists_map
  rw [nextIdOf_eq hks] at hn
  cases hn
  refine ⟨⟨_, rfl⟩, fun hin => ?_⟩
  have hin : toString (skip 10 4 (following ks)) ∈ s.clubs.members := hin
  rw [hks] at hin
  obtain ⟨k, hk, heq⟩ := List.mem_map.1 hin
  have hlt := lt_following hk
  have hle := le_skip (show 4 + 1 < 10 by decide) (by decide) (following ks)
  have := toString_injective heq
  omega

/-- Numbers of clubs as they are given: at least 2000, and without a 4. -/
def Proper (l : List String) : Prop := ∀ n ∈ l, ∃ k : Nat, n = toString k ∧ 2000 ≤ k ∧ Fourless k

theorem Proper.exists_map {l : List String} (h : Proper l) : ∃ ks : List Nat, l = ks.map toString ∧ ∀ k ∈ ks, 2000 ≤ k ∧ Fourless k := by
  obtain ⟨ks, rfl⟩ := Numerals.exists_map fun n hn => (h n hn).imp fun _ hk => hk.1
  refine ⟨ks, rfl, fun k hk => ?_⟩
  obtain ⟨j, hj, hproper⟩ := h (toString k) (List.mem_map_of_mem hk)
  rwa [toString_injective hj]

/-- The numbers after all of the list that a club may have. -/
def Next (l : List String) : Set Nat := {m | 2000 ≤ m ∧ Fourless m ∧ ∀ k : Nat, toString k ∈ l → k < m}

/-- A new club has the least of them. -/
theorem nextIdOf_least {s : St} (h : Proper s.clubs.members) : ∃ n : Nat, s.nextIdOf = .ok n ∧ IsLeast (Next s.clubs.members) n := by
  obtain ⟨ks, hks, hproper⟩ := h.exists_map
  refine ⟨_, nextIdOf_eq hks, ?_⟩
  have hlisted : ∀ n, (∀ k : Nat, toString k ∈ s.clubs.members → k < n) ↔ ∀ k ∈ ks, k < n := by
    intro n
    rw [hks]
    refine ⟨fun hn k hk => hn k (List.mem_map_of_mem hk), fun hn k hk => ?_⟩
    obtain ⟨j, hj, heq⟩ := List.mem_map.1 hk
    rw [← toString_injective heq]
    exact hn j hj
  obtain ⟨m, hm, hfour, hbound⟩ : ∃ m, following ks = m + 1 ∧ Digits.Free 10 4 m ∧ ∀ n, (2000 ≤ n ∧ ∀ k ∈ ks, k < n) ↔ m < n := by
    unfold following
    cases hm : ks.max? with
    | none =>
      rw [List.max?_eq_none_iff.1 hm]
      refine ⟨1999, rfl, by simp [Digits.Free], fun n => ?_⟩
      simp
      omega
    | some m =>
      obtain ⟨hmem, hle⟩ := List.max?_eq_some_iff.1 hm
      refine ⟨m, rfl, (fourless_iff m).1 (hproper m hmem).2, fun n => ⟨fun hn => hn.2 m hmem, fun hn => ?_⟩⟩
      have hm0 := (hproper m hmem).1
      exact ⟨by omega, fun k hk => (hle k hk).trans_lt hn⟩
  have hset : Next s.clubs.members = {n | m < n ∧ Digits.Free 10 4 n} := by
    ext n
    rw [Next, Set.mem_ofPred_eq, Set.mem_ofPred_eq, fourless_iff, hlisted, ← hbound]
    tauto
  rw [hset, hm]
  exact isLeast_skip (by decide) (by decide) hfour

end FishWeb.Club
