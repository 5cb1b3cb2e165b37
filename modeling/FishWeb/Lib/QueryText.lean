import Mathlib.Data.List.Basic
import Mathlib.Tactic.Common
/-!
# Texts of a query

`str.find`, percent-encoding, and the pairs of a query: a mark, a name, `=` and a value each.
A name that is looked for between a mark and `=` is found at the first pair that has it, as
long as neither is in a name and no mark in a value.
-/

namespace QueryText

/-! ## `str.find` -/

/-- `s.find(pat)`; `none` is its -1. -/
def find (pat : List Char) : List Char → Option Nat
  | [] => if pat = [] then some 0 else none
  | c :: cs => if pat <+: c :: cs then some 0 else (find pat cs).map (· + 1)

/-- `s.find(pat, start)` -/
def findFrom (pat : List Char) (start : Nat) (s : List Char) : Option Nat := (find pat (s.drop start)).map (· + start)

section Find
variable {m : Char} {p s u : List Char}

theorem find_of_prefix (h : p <+: s) : find p s = some 0 := by
  cases s with
  | nil => exact if_pos (List.prefix_nil.1 h)
  | cons c cs => exact if_pos h

theorem not_prefix_cons {c : Char} (h : m ≠ c) : ¬m :: p <+: c :: s := fun hp => h (List.cons_prefix_cons.1 hp).1

/-- What comes before the first mark is passed over. -/
theorem find_append (h : m ∉ u) (s : List Char) : find (m :: p) (u ++ s) = (find (m :: p) s).map (· + u.length) := by
  induction u with
  | nil => exact Option.map_id'.symm
  | cons c u ih =>
    rw [List.mem_cons, not_or] at h
    rw [List.cons_append, find, if_neg (not_prefix_cons h.1), ih h.2, Option.map_map]
    rfl

theorem find_eq_none (h : m ∉ s) : find (m :: p) s = none := by
  have hfind := find_append (p := p) h []
  rwa [List.append_nil] at hfind

end Find

/-! ## Percent-encoding -/

def unreserved (c : Char) : Bool := c.isAlphanum || c = '_' || c = '.' || c = '-'

def hexDigit (n : Nat) : Char := (Nat.digitChar n).toUpper

def percent (b : UInt8) : List Char := ['%', hexDigit (b.toNat / 16), hexDigit (b.toNat % 16)]

def quoteChar (c : Char) : List Char := if unreserved c then [c] else (String.utf8EncodeChar c).flatMap percent

/-- `urllib.quote(s, '')` -/
def quote (s : List Char) : List Char := s.flatMap quoteChar

example : quote "a b张".toList = "a%20b%E5%BC%A0".toList := by decide +kernel

variable {c : Char} {s : List Char}

theorem unreserved_hexDigit {n : Nat} (h : n < 16) : unreserved (hexDigit n) = true := by
  revert n
  decide +kernel

theorem of_mem_percent {b : UInt8} (h : c ∈ percent b) : unreserved c = true ∨ c = '%' := by
  have hb := b.toNat_lt
  simp only [percent, List.mem_cons, List.not_mem_nil, or_false] at h
  rcases h with rfl | rfl | rfl
  · exact .inr rfl
  · exact .inl (unreserved_hexDigit (by omega))
  · exact .inl (unreserved_hexDigit (Nat.mod_lt _ (by decide)))

theorem of_mem_quote (h : c ∈ quote s) : unreserved c = true ∨ c = '%' := by
  obtain ⟨d, -, hd⟩ := List.mem_flatMap.1 h
  unfold quoteChar at hd
  split at hd
  · next hu => exact .inl (List.mem_singleton.1 hd ▸ hu)
  · obtain ⟨b, -, hb⟩ := List.mem_flatMap.1 hd
    exact of_mem_percent hb

/-- A text that needs no encoding. -/
theorem quote_eq_self (h : ∀ c ∈ s, unreserved c = true) : quote s = s := by
  induction s with
  | nil => rfl
  | cons c s ih =>
    rw [quote, List.flatMap_cons, ← quote, ih fun d hd => h d (List.mem_cons_of_mem c hd), quoteChar, if_pos (h c List.mem_cons_self)]
    rfl

theorem percent_mem_quote (hc : c ∈ s) (hu : unreserved c = false) : '%' ∈ quote s := by
  refine List.mem_flatMap.2 ⟨c, hc, ?_⟩
  rw [quoteChar, if_neg (by simp [hu])]
  have hne : String.utf8EncodeChar c ≠ [] := by
    intro h
    have hlength := String.length_utf8EncodeChar c
    rw [h] at hlength
    exact absurd hlength.symm (Nat.ne_of_gt c.utf8Size_pos)
  obtain ⟨b, bs, hbs⟩ := List.exists_cons_of_ne_nil hne
  rw [hbs, List.flatMap_cons]
  exact List.mem_append_left _ List.mem_cons_self

theorem quote_eq_nil : quote s = [] ↔ s = [] := by
  constructor
  · intro h
    cases s with
    | nil => rfl
    | cons c s =>
      exfalso
      cases hu : unreserved c with
      | true =>
        rw [quote, List.flatMap_cons, quoteChar, if_pos hu] at h
        cases h
      | false =>
        have hmem := percent_mem_quote (s := c :: s) List.mem_cons_self hu
        rw [h] at hmem
        cases hmem
  · rintro rfl
    rfl

/-! ## Pairs -/

abbrev Pair := List Char × List Char

/-- A pair after its mark. -/
def marked (m : Char) (p : Pair) : List Char := m :: (p.1 ++ '=' :: p.2)

def ands (ps : List Pair) : List Char := ps.flatMap (marked '&')

/-- The query string of the pairs. -/
def queryString : List Pair → List Char
  | [] => []
  | p :: ps => p.1 ++ '=' :: p.2 ++ ands ps

/-- Neither mark is in the pair, and `=` is not in its name. -/
structure Clean (p : Pair) : Prop where
  name : '=' ∉ p.1
  and : '&' ∉ p.1 ++ '=' :: p.2
  question : '?' ∉ p.1 ++ '=' :: p.2

section Pairs
variable {m : Char} {n : List Char} {p : Pair} {ps : List Pair}

theorem name_prefix_iff {l t : List Char} (hn : '=' ∉ n) (hl : '=' ∉ l) : n ++ ['='] <+: l ++ '=' :: t ↔ n = l := by
  induction n generalizing l with
  | nil =>
    cases l with
    | nil => exact iff_of_true ⟨t, rfl⟩ rfl
    | cons d l =>
      refine iff_of_false (fun h => hl ?_) (List.cons_ne_nil d l).symm
      exact List.mem_cons.2 (.inl (List.cons_prefix_cons.1 h).1)
  | cons c n ih =>
    rw [List.mem_cons, not_or] at hn
    cases l with
    | nil => exact iff_of_false (fun h => hn.1 (List.cons_prefix_cons.1 h).1.symm) (List.cons_ne_nil c n)
    | cons d l =>
      rw [List.mem_cons, not_or] at hl
      rw [List.cons_append, List.cons_append, List.cons_prefix_cons, ih hn.2 hl.2, List.cons.injEq]

/-- At the mark of a pair its name is found, or another is looked for behind it. -/
theorem find_marked (hn : '=' ∉ n) (hp : '=' ∉ p.1) (hm : m ∉ p.1 ++ '=' :: p.2) (s : List Char) :
    find (m :: (n ++ ['='])) (marked m p ++ s) =
      if n = p.1 then some 0 else (find (m :: (n ++ ['='])) s).map (· + (marked m p).length) := by
  have hfirst : m :: (n ++ ['=']) <+: marked m p ++ s ↔ n = p.1 := by
    rw [marked, List.cons_append, List.cons_prefix_cons, List.append_assoc, List.cons_append, name_prefix_iff hn hp, and_iff_right rfl]
  by_cases h : n = p.1
  · rw [if_pos h, find_of_prefix (hfirst.2 h)]
  · rw [if_neg h]
    show (if m :: (n ++ ['=']) <+: marked m p ++ s then _ else _) = _
    rw [if_neg (mt hfirst.1 h), List.append_eq, find_append hm, Option.map_map]
    rfl

theorem find_ands_none (hn : '=' ∉ n) (hps : ∀ p ∈ ps, Clean p) (h : ps.find? (fun p => p.1 = n) = none) :
    find ('&' :: (n ++ ['='])) (ands ps) = none := by
  induction ps with
  | nil => rfl
  | cons p ps ih =>
    have hclean := hps p List.mem_cons_self
    rw [List.find?_cons] at h
    have hne : n ≠ p.1 := by
      rintro rfl
      simp at h
    rw [decide_eq_false hne.symm] at h
    rw [ands, List.flatMap_cons, ← ands, find_marked hn hclean.name hclean.and, if_neg hne,
      ih (fun q hq => hps q (List.mem_cons_of_mem p hq)) h]
    rfl

theorem find_ands_some (hn : '=' ∉ n) (hps : ∀ p ∈ ps, Clean p) (h : ps.find? (fun p => p.1 = n) = some p) :
    ∃ i rest, find ('&' :: (n ++ ['='])) (ands ps) = some i ∧ (ands ps).drop i = marked '&' p ++ ands rest := by
  induction ps with
  | nil => cases h
  | cons q ps ih =>
    have hclean := hps q List.mem_cons_self
    rw [List.find?_cons] at h
    rw [ands, List.flatMap_cons, ← ands, find_marked hn hclean.name hclean.and]
    by_cases hq : q.1 = n
    · rw [decide_eq_true hq] at h
      cases h
      exact ⟨0, ps, if_pos hq.symm, rfl⟩
    · rw [decide_eq_false hq] at h
      obtain ⟨i, rest, hi, hdrop⟩ := ih (fun q hq => hps q (List.mem_cons_of_mem _ hq)) h
      refine ⟨i + (marked '&' q).length, rest, ?_, ?_⟩
      · rw [if_neg (Ne.symm hq), hi]
        rfl
      · rw [Nat.add_comm, ← List.drop_drop, List.drop_left, hdrop]

end Pairs

end QueryText
