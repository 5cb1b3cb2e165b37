import FishWeb.Lib.Regex
/-!
# Texts with gaps

A text that keeps its positions when something in it is replaced: where characters are taken
out, a gap stays. What is replaced can then be told of each position by itself, by the matches
that it lies in, and of patterns whose matches end together where they meet it is what
`Regex.sub` replaces from the left to the right (`Reads.replace`).
-/
open Regex

namespace Gaps

variable {α : Type}

/-- What stands at each position; nothing stands in a gap, or behind the end. -/
abbrev Text (α : Type) := Nat → Option α

def ofList (s : List α) : Text α := fun i => s[i]?

/-- What stands from `a` on and before `b`. -/
def between (st : Text α) (a b : Nat) : List α := (List.range' a (b - a)).filterMap st

/-- A match ends with the position. -/
def Ends (r : Pattern α) (st : Text α) (i : Nat) : Prop := ∃ a, Matches r (between st a (i + 1))

/-- The position lies in a match. -/
def Covered (r : Pattern α) (st : Text α) (i : Nat) : Prop := ∃ a b, a ≤ i ∧ i < b ∧ Matches r (between st a b)

open Classical in
/-- Of each match nothing stays, but for what is put in the place of its end. -/
noncomputable def replace (r : Pattern α) (new : Option α) (st : Text α) : Text α := fun i =>
  if st i = none then none else if Ends r st i then new else if Covered r st i then none else st i

/-- A match that begins in another ends with it. -/
structure EndsTogether (r : Pattern α) : Prop where
  nonempty : ¬Matches r []
  ends : ∀ {m x m' w w' : List α}, Matches r m → x <:+ m → x ≠ [] → Matches r m' → x ++ w = m' ++ w' → x = m'

/-! ## Stretches -/

section Between
variable {st : Text α} {a b c n : Nat}

theorem between_of_le (h : b ≤ a) : between st a b = [] := by
  rw [between, Nat.sub_eq_zero_of_le h]
  rfl

theorem between_append (hab : a ≤ b) (hbc : b ≤ c) : between st a b ++ between st b c = between st a c := by
  have hrange : List.range' a (b - a) ++ List.range' b (c - b) = List.range' a (c - a) := by
    have happend := List.range'_append_1 (s := a) (m := b - a) (n := c - b)
    rwa [show a + (b - a) = b by omega, show b - a + (c - b) = c - a by omega] at happend
  rw [between, between, between, ← List.filterMap_append, hrange]

theorem between_one (st : Text α) (a : Nat) : between st a (a + 1) = (st a).toList := by
  rw [between, Nat.add_sub_cancel_left, List.range'_one]
  cases h : st a <;> simp [h]

theorem between_cons (h : a < b) : between st a b = (st a).toList ++ between st (a + 1) b := by
  rw [← between_one, between_append (Nat.le_succ a) h]

theorem between_congr {st' : Text α} (h : ∀ i, a ≤ i → i < b → st i = st' i) : between st a b = between st' a b := by
  refine List.filterMap_congr fun i hi => ?_
  rw [List.mem_range'_1] at hi
  exact h i hi.1 (by omega)

theorem between_eq_nil_of (h : ∀ i, a ≤ i → i < b → st i = none) : between st a b = [] := by
  refine List.filterMap_eq_nil_iff.2 fun i hi => ?_
  rw [List.mem_range'_1] at hi
  exact h i hi.1 (by omega)

/-- What stands in a stretch is in it. -/
theorem mem_between {x : α} (ha : a ≤ c) (hb : c < b) (h : st c = some x) : x ∈ between st a b :=
  List.mem_filterMap.2 ⟨c, List.mem_range'_1.2 ⟨ha, by omega⟩, h⟩

theorem between_ne_nil {x : α} (ha : a ≤ c) (hb : c < b) (h : st c = some x) : between st a b ≠ [] :=
  List.ne_nil_of_mem (mem_between ha hb h)

/-- Where a character stands. -/
theorem of_between_eq {l t : List α} {x : α} (h : between st a n = l ++ x :: t) :
    ∃ k, a ≤ k ∧ k < n ∧ st k = some x ∧ between st a k = l ∧ between st (k + 1) n = t := by
  induction hn : n - a generalizing a l with
  | zero =>
    rw [between_of_le (by omega)] at h
    simp at h
  | succ j ih =>
    have han : a < n := by omega
    rw [between_cons han] at h
    have hlater : ∀ l', between st (a + 1) n = l' ++ x :: t → (st a).toList ++ l' = l →
        ∃ k, a ≤ k ∧ k < n ∧ st k = some x ∧ between st a k = l ∧ between st (k + 1) n = t := by
      intro l' hl' hl
      obtain ⟨k, hak, hkn, hk, hbefore, hbehind⟩ := ih hl' (by omega)
      exact ⟨k, by omega, hkn, hk, by rw [between_cons (by omega), hbefore, hl], hbehind⟩
    cases ha : st a with
    | none =>
      rw [ha] at h hlater
      exact hlater l h rfl
    | some y =>
      rw [ha] at h hlater
      rcases l with - | ⟨z, l⟩
      · -- it is the first
        obtain ⟨rfl, rfl⟩ := List.cons.inj h
        exact ⟨a, le_refl a, han, ha, between_of_le (le_refl a), rfl⟩
      · obtain ⟨rfl, hl⟩ := List.cons.inj h
        exact hlater l hl rfl

/-- A stretch in two parts. -/
theorem of_between_append {x y : List α} (h : between st a n = x ++ y) (han : a ≤ n) :
    ∃ b, a ≤ b ∧ b ≤ n ∧ between st a b = x ∧ between st b n = y := by
  rcases y with - | ⟨z, y⟩
  · exact ⟨n, han, le_refl n, by simpa using h, between_of_le (le_refl n)⟩
  · obtain ⟨k, hak, hkn, hk, hbefore, hbehind⟩ := of_between_eq h
    refine ⟨k, hak, hkn.le, hbefore, ?_⟩
    rw [between_cons hkn, hk, hbehind]
    rfl

/-- The text with gaps ends before `n`, and what stands in it is `s`. -/
structure Reads (n : Nat) (st : Text α) (s : List α) : Prop where
  behind : ∀ i, n ≤ i → st i = none
  eq : between st 0 n = s

/-- Two stretches, the one behind the other, are parts of the text. -/
theorem Reads.infix {d : Nat} {s : List α} (h : Reads n st s) (hab : a ≤ b) (hbc : b ≤ c) (hcd : c ≤ d) :
    ∃ x y z, s = x ++ between st a b ++ y ++ between st c d ++ z := by
  refine ⟨between st 0 a, between st b c, between st d (max n d), ?_⟩
  have hbehind : between st n (max n d) = [] := between_eq_nil_of fun i hi _ => h.behind i hi
  rw [between_append (Nat.zero_le a) hab, between_append (Nat.zero_le b) hbc, between_append (Nat.zero_le c) hcd,
    between_append (Nat.zero_le d) (Nat.le_max_right n d), ← between_append (Nat.zero_le n) (Nat.le_max_left n d), hbehind,
    List.append_nil, h.eq]

/-- Two parts of the text are two stretches. -/
theorem Reads.of_infix {s x u y v z : List α} (h : Reads n st s) (hs : s = x ++ u ++ y ++ v ++ z) :
    ∃ a b c d, a ≤ b ∧ b ≤ c ∧ c ≤ d ∧ between st a b = u ∧ between st c d = v := by
  have heq := h.eq.trans hs
  simp only [List.append_assoc] at heq
  obtain ⟨a, -, han, -, ha⟩ := of_between_append heq (Nat.zero_le n)
  obtain ⟨b, hab, hbn, hb, hrest⟩ := of_between_append ha han
  obtain ⟨c, hbc, hcn, -, hc⟩ := of_between_append hrest hbn
  obtain ⟨d, hcd, -, hd, -⟩ := of_between_append hc hcn
  exact ⟨a, b, c, d, hab, hbc, hcd, hb, hd⟩

theorem reads_ofList (s : List α) : Reads s.length (ofList s) s := by
  refine ⟨fun _ hi => List.getElem?_eq_none hi, ?_⟩
  have hfrom : ∀ pre : List α, between (ofList (pre ++ s)) pre.length (pre.length + s.length) = s := by
    induction s with
    | nil => exact fun pre => between_of_le (by simp)
    | cons c s ih =>
      intro pre
      have hc : ofList (pre ++ c :: s) pre.length = some c := by simp [ofList]
      have hrest := ih (pre ++ [c])
      rw [List.append_assoc, List.length_append] at hrest
      rw [between_cons (by simp), hc, List.length_cons, Nat.add_comm s.length 1, ← Nat.add_assoc]
      exact congrArg (c :: ·) hrest
  simpa using hfrom []

end Between

/-! ## Patterns whose matches end together -/

/-- Two texts up to the first element without `P`. -/
theorem span_inj {P : α → Prop} {s t u v : List α} {c d : α} (hs : ∀ x ∈ s, P x) (ht : ∀ x ∈ t, P x) (hc : ¬P c) (hd : ¬P d)
    (h : s ++ c :: u = t ++ d :: v) : s = t ∧ c = d ∧ u = v := by
  rcases List.append_eq_append_iff.1 h with ⟨x, rfl, hx⟩ | ⟨x, rfl, hx⟩ <;> rcases x with - | ⟨y, x⟩
  · exact ⟨by simp, List.cons.inj hx⟩
  · obtain rfl := (List.cons.inj hx).1
    exact absurd (ht c (by simp)) hc
  · obtain ⟨hdc, hvu⟩ := List.cons.inj hx
    exact ⟨by simp, hdc.symm, hvu.symm⟩
  · obtain rfl := (List.cons.inj hx).1
    exact absurd (hs d (by simp)) hd

/-- Two texts up to the first `z`. -/
theorem append_first_inj {z : α} {s t u v : List α} (hs : z ∉ s) (ht : z ∉ t) (h : s ++ z :: u = t ++ z :: v) : s = t ∧ u = v := by
  have hspan := span_inj (P := (· ≠ z)) (fun x hx he => hs (he ▸ hx)) (fun x hx he => ht (he ▸ hx)) (by simp) (by simp) h
  exact ⟨hspan.1, hspan.2.2⟩

/-- So do the matches that go up to a certain character. -/
theorem endsTogether_of_close {r : Pattern α} {z : α} (h : ∀ {m}, Matches r m → ∃ m', m = m' ++ [z] ∧ z ∉ m') : EndsTogether r := by
  refine ⟨fun hnil => ?_, fun {m x m' w w'} hm hx hne hm' heq => ?_⟩
  · obtain ⟨m', heq, -⟩ := h hnil
    simp at heq
  obtain ⟨l, rfl, hl⟩ := h hm
  obtain ⟨l', rfl, hl'⟩ := h hm'
  obtain ⟨t, rfl⟩ : ∃ t, x = t ++ [z] := by
    obtain ⟨t, y, rfl⟩ := (List.eq_nil_or_concat' x).resolve_left hne
    obtain ⟨u, hu⟩ := hx
    rw [← List.append_assoc] at hu
    exact ⟨t, by rw [(List.append_inj' hu rfl).2]⟩
  have ht : z ∉ t := by
    obtain ⟨u, hu⟩ := hx
    rw [← List.append_assoc] at hu
    obtain rfl := (List.append_inj' hu rfl).1
    exact fun hmem => hl (List.mem_append_right u hmem)
  rw [List.append_assoc, List.append_assoc] at heq
  rw [(append_first_inj ht hl' heq).1]

theorem endsTogether_of_last {r : Pattern α} {p : α → Bool} {z : α} (hr : ∀ i ∈ r, i.cls z = false) (hp : ∀ c, p c = true → c = z) :
    EndsTogether (r ++ [.one p]) := by
  refine endsTogether_of_close (z := z) fun hm => ?_
  obtain ⟨l, _, rfl, hl, c, _, rfl, ⟨_, rfl, hc⟩, rfl⟩ := matches_append.1 hm
  obtain rfl := hp _ hc
  exact ⟨l, rfl, hl.not_mem hr⟩

/-! ## Replacing -/

section Replace
variable {r : Pattern α} {new : Option α} {st : Text α} {a i n : Nat}

theorem replace_none (h : st i = none) : replace r new st i = none := if_pos h

/-- What stands is new, or stood there in no match. -/
theorem of_replace {x : α} (h : replace r new st i = some x) :
    new = some x ∧ Ends r st i ∨ st i = some x ∧ ¬Covered r st i := by
  unfold replace at h
  split at h
  · cases h
  split at h
  · exact .inl ⟨h, ‹_›⟩
  split at h
  · cases h
  · exact .inr ⟨h, ‹_›⟩

/-- Where matches are taken out, what stands is in none. -/
theorem of_replace_none {x : α} (h : replace r none st i = some x) : st i = some x ∧ ¬Covered r st i := by
  rcases of_replace h with ⟨hnone, -⟩ | hstay
  · cases hnone
  · exact hstay

/-- Nothing lies across the position that has something on both sides of it. -/
def Apart (r : Pattern α) (st : Text α) (a : Nat) : Prop :=
  ∀ p q, Matches r (between st p q) → p < a → a < q → between st p a = [] ∨ between st a q = []

/-- A gap changes nothing. -/
theorem Apart.succ (ha : Apart r st a) (hst : st a = none) : Apart r st (a + 1) := by
  intro p q hm hp hq
  rcases Nat.eq_or_lt_of_le (Nat.le_of_lt_succ hp) with rfl | hpa
  · exact .inl (by rw [between_one, hst]; rfl)
  · refine (ha p q hm hpa (by omega)).imp (fun hnil => ?_) fun hnil => ?_
    · rw [← between_append hpa.le (Nat.le_succ a), hnil, between_one, hst]
      rfl
    · rwa [between_cons (by omega), hst] at hnil

/-- Where no match begins, none lies. -/
theorem Apart.not_covered {c : α} (ha : Apart r st a) (hst : st a = some c) (han : a ≤ n) (hend : ∀ i, n ≤ i → st i = none)
    (hnone : ∀ m t, between st a n = m ++ t → ¬Matches r m) : ¬Covered r st a := by
  rintro ⟨p, q, hpa, haq, hm⟩
  have hm : Matches r (between st a q) := by
    rcases Nat.eq_or_lt_of_le hpa with rfl | hpa
    · exact hm
    · have hnil := (ha p q hm hpa haq).resolve_right (between_ne_nil (le_refl a) haq hst)
      rwa [← between_append hpa.le haq.le, hnil] at hm
  -- behind the end there is nothing
  have hcut : between st a q ++ between st (min q n) n = between st a n := by
    have hmin : between st a q = between st a (min q n) := by
      have hbehind : between st (min q n) q = [] := between_eq_nil_of fun i hi hq => hend i (by omega)
      rw [← between_append (show a ≤ min q n by omega) (Nat.min_le_left q n), hbehind, List.append_nil]
    rw [hmin, between_append (by omega) (Nat.min_le_right q n)]
  exact hnone _ _ hcut.symm hm

variable (hr : EndsTogether r)
include hr

theorem covered_of_ends (h : Ends r st i) : Covered r st i := by
  obtain ⟨a, ha⟩ := h
  rcases Nat.lt_or_ge i a with hlt | hle
  · rw [between_of_le hlt] at ha
    exact absurd ha hr.nonempty
  · exact ⟨a, i + 1, hle, Nat.lt_succ_self i, ha⟩

/-- A match that begins where none lies across, and any other that lies in it somewhere: they end together. -/
theorem ends_with {k p q : Nat} {x y : α} (ha : Apart r st a) (hm : Matches r (between st a (k + 1))) (hk : st k = some y)
    (hpq : Matches r (between st p q)) (hai : a ≤ i) (hik : i ≤ k) (hpi : p ≤ i) (hiq : i < q) (hi : st i = some x) :
    k < q ∧ between st (k + 1) q = [] := by
  -- it begins in the first match, or nothing of it stands before
  obtain ⟨p, hap, hpi, hpq⟩ : ∃ p, a ≤ p ∧ p ≤ i ∧ Matches r (between st p q) := by
    rcases Nat.lt_or_ge p a with hlt | hge
    · rcases ha p q hpq hlt (by omega) with hnil | hnil
      · refine ⟨a, le_refl a, hai, ?_⟩
        rwa [← between_append hlt.le (show a ≤ q by omega), hnil] at hpq
      · exact absurd hnil (between_ne_nil hai hiq hi)
    · exact ⟨p, hge, hpi, hpq⟩
  have hsuffix : between st p (k + 1) <:+ between st a (k + 1) := ⟨between st a p, between_append hap (by omega)⟩
  have hboth : between st p (k + 1) ++ between st (k + 1) (max (k + 1) q) = between st p q ++ between st q (max (k + 1) q) := by
    rw [between_append (by omega) (by omega), between_append (by omega) (by omega)]
  have hsame := hr.ends hm hsuffix (between_ne_nil hpi (by omega) hi) hpq hboth
  rcases Nat.lt_or_ge k q with hlt | hge
  · refine ⟨hlt, ?_⟩
    rw [← between_append (show p ≤ k + 1 by omega) (show k + 1 ≤ q by omega)] at hsame
    exact List.self_eq_append_right.1 hsame
  · rw [← between_append (show p ≤ q by omega) (show q ≤ k + 1 by omega)] at hsame
    exact absurd (List.append_right_eq_self.1 hsame) (between_ne_nil hge (Nat.lt_succ_self k) hk)

/-- A match is replaced by what is put in the place of its end. -/
theorem between_replace_match {k : Nat} {y : α} (ha : Apart r st a) (hak : a ≤ k) (hm : Matches r (between st a (k + 1)))
    (hk : st k = some y) : between (replace r new st) a (k + 1) = new.toList := by
  have hbefore : between (replace r new st) a k = [] := by
    refine between_eq_nil_of fun i hai hik => ?_
    cases hi : st i with
    | none => exact replace_none hi
    | some x =>
      have hends : ¬Ends r st i := by
        rintro ⟨p, hp⟩
        have hpi : p ≤ i := by
          by_contra hlt
          rw [between_of_le (by omega)] at hp
          exact hr.nonempty hp
        have hlast := (ends_with hr ha hm hk hp hai hik.le hpi (Nat.lt_succ_self i) hi).1
        omega
      have hcovered : Covered r st i := ⟨a, k + 1, hai, by omega, hm⟩
      rw [replace, if_neg (by simp [hi]), if_neg hends, if_pos hcovered]
  have hlast : replace r new st k = new := by
    rw [replace, if_neg (by simp [hk]), if_pos ⟨a, hm⟩]
  rw [← between_append hak (Nat.le_succ k), hbefore, between_one, hlast]
  rfl

theorem between_replace_from (ha : Apart r st a) (han : a ≤ n) (hend : ∀ i, n ≤ i → st i = none) :
    between (replace r new st) a n = sub r (fun _ => new.toList) (between st a n) := by
  induction hn : n - a using Nat.strong_induction_on generalizing a with
  | _ j ih =>
    subst hn
    rcases Nat.eq_or_lt_of_le han with rfl | hlt
    · rw [between_of_le (le_refl a), between_of_le (le_refl a)]
      rfl
    cases hst : st a with
    | none =>
      rw [between_cons hlt, replace_none hst, @between_cons _ st _ _ hlt, hst]
      exact ih _ (by omega) (ha.succ hst) hlt rfl
    | some c =>
      have hbetween : between st a n = c :: between st (a + 1) n := by rw [between_cons hlt, hst]; rfl
      cases hmatch : match? r (between st a n) with
      | none =>
        have hnot : ¬Covered r st a := ha.not_covered hst han hend (match?_eq_none_iff.1 hmatch)
        have hnext : Apart r st (a + 1) := fun p q hm hp hq => absurd ⟨p, q, Nat.le_of_lt_succ hp, by omega, hm⟩ hnot
        have hstay : replace r new st a = some c := by
          rw [replace, if_neg (by simp [hst]), if_neg fun h => hnot (covered_of_ends hr h), if_neg hnot, hst]
        rw [hbetween] at hmatch
        rw [between_cons hlt, hstay, hbetween, sub_cons hmatch, ih _ (by omega) hnext hlt rfl]
        rfl
      | some t =>
        obtain ⟨m, heq, hm⟩ := of_match? hmatch
        obtain ⟨l, y, rfl⟩ := (List.eq_nil_or_concat' m).resolve_left fun hnil => hr.nonempty (hnil ▸ hm)
        have hparts : between st a n = l ++ y :: t := by simpa using heq
        obtain ⟨k, hak, hkn, hk, hl, ht⟩ := of_between_eq hparts
        have hfirst : between st a (k + 1) = l ++ [y] := by
          rw [← between_append hak (Nat.le_succ k), hl, between_one, hk]
          rfl
        rw [← hfirst] at hm
        have hnext : Apart r st (k + 1) := fun p q hpq hp hq =>
          .inr (ends_with hr ha hm hk hpq hak (le_refl k) (Nat.le_of_lt_succ hp) (by omega) hk).2
        rw [heq, ← ht] at hmatch
        rw [← between_append (show a ≤ k + 1 by omega) hkn, between_replace_match hr ha hak hm hk,
          ih _ (by omega) hnext hkn rfl, heq, ← ht, sub_match (by simp) hmatch]

/-- What is replaced at each position is what is replaced from the left to the right. -/
theorem Reads.replace {s : List α} (h : Reads n st s) (new : Option α) : Reads n (Gaps.replace r new st) (sub r (fun _ => new.toList) s) := by
  refine ⟨fun i hi => replace_none (h.behind i hi), ?_⟩
  have happart : Apart r st 0 := fun _ _ _ hp => absurd hp (Nat.not_lt_zero _)
  rw [between_replace_from hr happart (Nat.zero_le n) h.behind, h.eq]

end Replace

end Gaps
