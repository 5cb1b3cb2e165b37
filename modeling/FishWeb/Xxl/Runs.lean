import Mathlib.Data.List.SplitBy
import Mathlib.Data.List.Nodup
import Mathlib.Data.List.Iterate
import Mathlib.Algebra.Ring.Int.Defs
import Mathlib.Algebra.Order.Monoid.Unbundled.Basic
import Mathlib.Data.Int.Basic
import Mathlib.Tactic.Common
/-!
# Runs in a line

`checkIncrease` of `xiaoxiaoleNumObj` (`model/xiaoxiaoleModel.py`). Its loop cuts a list
where the next value is not the following one, and keeps the pieces of at least three. In a
list that increases these are the maximal blocks of consecutive values.
-/

namespace FishWeb.Xxl

section Scan
variable {α : Type} [DecidableEq α] [Add α] [OfNat α 1]

/-- `results.append(tmp_list)`, unless it is too short or there already. -/
def flush (tmp_list : List α) (results : List (List α)) : List (List α) :=
  if 3 ≤ tmp_list.length ∧ !results.contains tmp_list then results ++ [tmp_list] else results

/-- `tmp_list`, which the index begins if it is empty. -/
def begun (tmp_list : List α) (value : α) : List α := if tmp_list = [] then [value] else tmp_list

/-- The loop of `checkIncrease` from an index on, with the run it is in. -/
def scan : (index_list tmp_list : List α) → List (List α) → List (List α)
  | [], tmp_list, results => flush tmp_list results
  | [value], tmp_list, results => flush (begun tmp_list value) results
  | value :: next :: rest, tmp_list, results =>
    if value + 1 ≠ next then scan (next :: rest) [] (flush (begun tmp_list value) results)
    else scan (next :: rest) (begun tmp_list value ++ [value + 1]) results

def checkIncrease (index_list : List α) : List (List α) := scan index_list [] []

example : checkIncrease [0, 1, 2, 4, 5] = [[0, 1, 2]] := by decide

/-! ## The pieces -/

/-- The values follow one another. -/
def follows (a b : α) : Bool := a + 1 = b

/-- The list, cut where the next value does not follow. -/
def pieces (l : List α) : List (List α) := l.splitBy follows

variable {l r : List α} {value : α}

theorem flatten_pieces (l : List α) : (pieces l).flatten = l := List.flatten_splitBy _ _

theorem ne_nil_of_mem_pieces (h : r ∈ pieces l) : r ≠ [] := List.ne_nil_of_mem_splitBy h

/-- The loop flushes the piece it is in, as far as it goes, and then the others. -/
theorem scan_eq {u rest tmp : List α} {results : List (List α)} (htmp : begun tmp value = u ++ [value])
    (hchain : (u ++ [value]).IsChain fun a b => follows a b) :
    scan (value :: rest) tmp results = (pieces (u ++ value :: rest)).foldl (fun results r => flush r results) results := by
  induction rest generalizing value u tmp results with
  | nil =>
    have hone : pieces (u ++ [value]) = [u ++ [value]] := List.splitBy_of_isChain (by simp) hchain
    rw [scan, htmp, hone]
    rfl
  | cons next rest ih =>
    rw [scan, htmp]
    split
    · rename_i hne
      have hcut : pieces (u ++ value :: next :: rest) = (u ++ [value]) :: pieces (next :: rest) := by
        have happend : pieces ((u ++ [value]) ++ next :: rest) = pieces (u ++ [value]) ++ pieces (next :: rest) := by
          refine List.splitBy_append_cons rest fun x hx => ?_
          have hx : x = value := by simpa using hx.symm
          simpa [follows, hx] using hne
        have hone : pieces (u ++ [value]) = [u ++ [value]] := List.splitBy_of_isChain (by simp) hchain
        simpa [hone] using happend
      rw [ih (u := []) rfl (by simp), hcut]
      rfl
    · rename_i heq
      obtain rfl : value + 1 = next := not_not.1 heq
      have hlonger : ((u ++ [value]) ++ [value + 1]).IsChain fun a b => follows a b := by
        refine List.isChain_append.2 ⟨hchain, by simp, fun x hx y hy => ?_⟩
        have hx : x = value := by simpa using hx.symm
        have hy : y = value + 1 := by simpa using hy.symm
        simp [follows, hx, hy]
      rw [ih (by simp [begun]) hlonger]
      simp

/-- The scan flushes the pieces, one after another. -/
theorem checkIncrease_eq (l : List α) : checkIncrease l = (pieces l).foldl (fun results r => flush r results) [] := by
  cases l with
  | nil => rfl
  | cons value rest => exact scan_eq (u := []) rfl (by simp)

omit [Add α] [OfNat α 1] in
theorem foldl_flush {rs results : List (List α)} (h : (results ++ rs).Nodup) :
    rs.foldl (fun results r => flush r results) results = results ++ rs.filter (3 ≤ ·.length) := by
  induction rs generalizing results with
  | nil => simp
  | cons r rs ih =>
    have hr : r ∉ results := fun hr => (List.nodup_append.1 h).2.2 r hr r List.mem_cons_self rfl
    rw [List.foldl_cons, List.filter_cons]
    by_cases hlen : 3 ≤ r.length
    · have hflush : flush r results = results ++ [r] := if_pos ⟨hlen, by simpa using hr⟩
      rw [hflush, ih (by simpa using h)]
      simp [hlen]
    · have hflush : flush r results = results := if_neg fun hc => hlen hc.1
      rw [hflush, ih (h.sublist (List.Sublist.append_left (List.sublist_cons_self r rs) results))]
      simp [hlen]

end Scan

/-- Values that follow one another. -/
theorem eq_iterate_of_isChain {α : Type} [DecidableEq α] [Add α] [OfNat α 1] {a : α} {r : List α}
    (h : (a :: r).IsChain fun a b => follows a b) : a :: r = List.iterate (· + 1) a (r.length + 1) := by
  induction r generalizing a with
  | nil => rfl
  | cons b r ih =>
    obtain ⟨hab, hr⟩ := List.isChain_cons_cons.1 h
    obtain rfl : a + 1 = b := by simpa [follows] using hab
    calc a :: (a + 1) :: r = a :: List.iterate (· + 1) (a + 1) (r.length + 1) := by rw [ih hr]
      _ = List.iterate (· + 1) a (r.length + 1 + 1) := rfl

/-! ## Lists that increase -/

section Increasing
variable {α : Type} [LinearOrder α] [Add α] [OfNat α 1] {l r : List α}

/-- The pieces increase, and follow one another. -/
theorem pairwise_pieces (hl : l.Pairwise (· < ·)) :
    (∀ r ∈ pieces l, r.Pairwise (· < ·)) ∧ (pieces l).Pairwise fun r r' => ∀ x ∈ r, ∀ y ∈ r', x < y :=
  List.pairwise_flatten.1 (by rwa [flatten_pieces])

theorem nodup_pieces (hl : l.Pairwise (· < ·)) : (pieces l).Nodup := by
  refine (pairwise_pieces hl).2.imp_of_mem fun {r r'} hr _ hlt => ?_
  rintro rfl
  obtain ⟨x, hx⟩ := List.exists_mem_of_ne_nil r (ne_nil_of_mem_pieces hr)
  exact lt_irrefl x (hlt x hx x hx)

/-- What the scan of a list that increases finds. -/
theorem checkIncrease_eq_filter (hl : l.Pairwise (· < ·)) : checkIncrease l = (pieces l).filter (3 ≤ ·.length) := by
  rw [checkIncrease_eq, foldl_flush (by simpa using nodup_pieces hl), List.nil_append]

theorem mem_checkIncrease (hl : l.Pairwise (· < ·)) : r ∈ checkIncrease l ↔ r ∈ pieces l ∧ 3 ≤ r.length := by
  rw [checkIncrease_eq_filter hl]
  simp

/-- Of a value and the following one, the second is in no later piece. -/
theorem not_follows_later (hsucc : ∀ a b : α, a < b ↔ a + 1 ≤ b) (hl : l.Pairwise (· < ·)) {before after : List (List α)}
    (heq : pieces l = before ++ r :: after) {x : α} (hx : x ∈ r) : x + 1 ∉ after.flatten := by
  intro hy
  obtain ⟨r', after, rfl⟩ : ∃ r' after', after = r' :: after' := by
    cases after with
    | nil => cases hy
    | cons r' after => exact ⟨r', after, rfl⟩
  -- the last value of the one piece and the first one of the next do not follow one another
  have hchain := List.isChain_getLast_head_splitBy follows l
  rw [show l.splitBy follows = before ++ r :: r' :: after from heq] at hchain
  obtain ⟨hne, hne', hgap⟩ := (List.isChain_cons_cons.1 (List.isChain_append.1 hchain).2.1).1
  obtain ⟨hin, hout⟩ := pairwise_pieces hl
  rw [heq] at hin hout
  obtain ⟨hnext, hlater⟩ := List.pairwise_cons.1 (List.pairwise_append.1 hout).2.1
  have hlast : x ≤ r.getLast hne := ((hin r (by simp)).imp le_of_lt).rel_getLast hx
  have hfirst : r'.head hne' ≤ x + 1 := by
    rcases List.mem_append.1 hy with hy | hy
    · exact ((hin r' (by simp)).imp le_of_lt).rel_head hy
    · obtain ⟨s, hs, hy⟩ := List.mem_flatten.1 hy
      exact ((List.pairwise_cons.1 hlater).1 s hs _ (List.head_mem hne') _ hy).le
  have hlt : r.getLast hne < r'.head hne' := hnext r' (by simp) _ (List.getLast_mem hne) _ (List.head_mem hne')
  rcases hlast.lt_or_eq with hx | hx
  · exact absurd (hlt.trans_le hfirst) (not_lt.2 ((hsucc _ _).1 hx))
  · have hnext : r.getLast hne + 1 = r'.head hne' := le_antisymm ((hsucc _ _).1 hlt) (hx ▸ hfirst)
    simp [follows, hnext] at hgap

/-- A piece has the values of the list that follow one of its own, and those that one of its own follows. -/
theorem pieces_closed (hsucc : ∀ a b : α, a < b ↔ a + 1 ≤ b) (hl : l.Pairwise (· < ·)) (hr : r ∈ pieces l) {x : α}
    (hx : x ∈ l) (hy : x + 1 ∈ l) : x ∈ r ↔ x + 1 ∈ r := by
  obtain ⟨before, after, heq⟩ := List.append_of_mem hr
  have hmem : ∀ z ∈ l, z ∈ before.flatten ∨ z ∈ r ∨ z ∈ after.flatten := fun z hz => by
    rw [← flatten_pieces l, heq] at hz
    simpa using hz
  have hlt : x < x + 1 := (hsucc _ _).2 le_rfl
  constructor
  · intro hxr
    rcases hmem _ hy with hyb | hyr | hya
    · obtain ⟨s, hs, hys⟩ := List.mem_flatten.1 hyb
      have hout := (pairwise_pieces hl).2
      rw [heq] at hout
      exact absurd hlt ((List.pairwise_append.1 hout).2.2 s hs r List.mem_cons_self _ hys _ hxr).asymm
    · exact hyr
    · exact absurd hya (not_follows_later hsucc hl heq hxr)
  · intro hyr
    rcases hmem _ hx with hxb | hxr | hxa
    · -- the piece of `x` is before that of the following value
      obtain ⟨s, hs, hxs⟩ := List.mem_flatten.1 hxb
      obtain ⟨first, between, rfl⟩ := List.append_of_mem hs
      rw [List.append_assoc, List.cons_append] at heq
      refine absurd ?_ (not_follows_later hsucc hl heq hxs)
      exact List.mem_flatten.2 ⟨r, List.mem_append_right _ List.mem_cons_self, hyr⟩
    · exact hxr
    · obtain ⟨s, hs, hxs⟩ := List.mem_flatten.1 hxa
      have hout := (pairwise_pieces hl).2
      rw [heq] at hout
      exact absurd hlt ((List.pairwise_cons.1 (List.pairwise_append.1 hout).2.1).1 s hs _ hyr _ hxs).asymm

end Increasing

/-! ## Blocks of integers -/

/-- `n` integers from `a` on. -/
def block (a : Int) (n : Nat) : List Int := (List.range n).map fun i : Nat => a + i

theorem mem_block {a x : Int} {n : Nat} : x ∈ block a n ↔ a ≤ x ∧ x < a + n := by
  simp only [block, List.mem_map, List.mem_range]
  constructor
  · rintro ⟨i, hi, rfl⟩
    omega
  · rintro ⟨hlow, hhigh⟩
    exact ⟨(x - a).toNat, by omega, by omega⟩

@[simp] theorem length_block (a : Int) (n : Nat) : (block a n).length = n := by simp [block]

theorem iterate_eq_block (a : Int) (n : Nat) : List.iterate (· + 1) a n = block a n := by
  rw [← List.range_map_iterate, block]
  refine List.map_congr_left fun i _ => ?_
  rw [add_right_iterate_apply]
  simp

/-- A block of the list that cannot be extended. -/
structure MaximalBlock (l : List Int) (a : Int) (n : Nat) : Prop where
  pos : 0 < n
  inside : ∀ x ∈ block a n, x ∈ l
  first : a - 1 ∉ l
  last : a + n ∉ l

/-- Two maximal blocks with a common integer are the same. -/
theorem MaximalBlock.unique {l : List Int} {a b : Int} {m n : Nat} (hm : MaximalBlock l a m) (hn : MaximalBlock l b n)
    {x : Int} (hxm : x ∈ block a m) (hxn : x ∈ block b n) : a = b ∧ m = n := by
  rw [mem_block] at hxm hxn
  have hstart : ∀ {a b : Int} {m n : Nat}, MaximalBlock l a m → MaximalBlock l b n → b ≤ x → x < a + m → ¬a < b :=
    fun ha hb _ _ hlt => hb.first (ha.inside _ (mem_block.2 ⟨by omega, by omega⟩))
  have hend : ∀ {a b : Int} {m n : Nat}, MaximalBlock l a m → MaximalBlock l b n → a ≤ x → x < b + n → ¬b + n < a + m :=
    fun ha hb _ _ hlt => hb.last (ha.inside _ (mem_block.2 ⟨by omega, by omega⟩))
  have h1 := hstart hm hn hxn.1 hxm.2
  have h2 := hstart hn hm hxm.1 hxn.2
  have h3 := hend hm hn hxm.1 hxn.2
  have h4 := hend hn hm hxn.1 hxm.2
  omega

section Blocks
variable {l r : List Int}

/-- The pieces of a list that increases are its maximal blocks. -/
theorem mem_pieces_iff (hl : l.Pairwise (· < ·)) : r ∈ pieces l ↔ ∃ a n, r = block a n ∧ MaximalBlock l a n := by
  have hsound : ∀ {r}, r ∈ pieces l → ∃ a n, r = block a n ∧ MaximalBlock l a n := fun {r} hr => by
    have hinside : ∀ x ∈ r, x ∈ l := fun x hx => flatten_pieces l ▸ List.mem_flatten.2 ⟨r, hr, hx⟩
    obtain ⟨a, tail, rfl⟩ := List.exists_cons_of_ne_nil (ne_nil_of_mem_pieces hr)
    have hblock := eq_iterate_of_isChain (List.isChain_of_mem_splitBy hr)
    rw [iterate_eq_block] at hblock
    have hclosed : ∀ x, x ∈ l → x + 1 ∈ l → (x ∈ block a (tail.length + 1) ↔ x + 1 ∈ block a (tail.length + 1)) :=
      fun x hx hy => hblock ▸ pieces_closed (fun _ _ => Int.lt_iff_add_one_le) hl hr hx hy
    rw [hblock] at hinside ⊢
    simp only [mem_block] at hclosed
    refine ⟨a, tail.length + 1, rfl, Nat.succ_pos _, hinside, fun hfirst => ?_, fun hlast => ?_⟩
    · have := hclosed (a - 1) hfirst (by simpa using hinside a (mem_block.2 (by omega)))
      omega
    · rw [Int.natCast_succ, ← Int.add_assoc] at hlast
      have := hclosed (a + tail.length) (hinside _ (mem_block.2 (by omega))) hlast
      omega
  refine ⟨hsound, ?_⟩
  rintro ⟨a, n, rfl, hmax⟩
  have ha : a ∈ block a n := mem_block.2 ⟨le_rfl, by have := hmax.pos; omega⟩
  have hflat := hmax.inside a ha
  rw [← flatten_pieces l] at hflat
  obtain ⟨r, hr, har⟩ := List.mem_flatten.1 hflat
  obtain ⟨b, m, rfl, hmax'⟩ := hsound hr
  obtain ⟨rfl, rfl⟩ := hmax.unique hmax' ha har
  exact hr

/-- For every list that increases: the scan finds its maximal blocks of at least three, in increasing order, each once. -/
theorem checkIncrease_exact (hl : l.Pairwise (· < ·)) :
    (∀ r, r ∈ checkIncrease l ↔ ∃ a n, 3 ≤ n ∧ r = block a n ∧ MaximalBlock l a n) ∧
      (checkIncrease l).Pairwise (fun r r' => ∀ x ∈ r, ∀ y ∈ r', x < y) ∧ (checkIncrease l).Nodup := by
  refine ⟨fun r => ?_, ?_, ?_⟩
  · rw [mem_checkIncrease hl, mem_pieces_iff hl]
    constructor
    · rintro ⟨⟨a, n, rfl, hmax⟩, hlen⟩
      exact ⟨a, n, by simpa using hlen, rfl, hmax⟩
    · rintro ⟨a, n, hn, rfl, hmax⟩
      exact ⟨⟨a, n, rfl, hmax⟩, by simpa using hn⟩
  · rw [checkIncrease_eq_filter hl]
    exact (pairwise_pieces hl).2.filter _
  · rw [checkIncrease_eq_filter hl]
    exact (nodup_pieces hl).filter _

theorem checkIncrease_exact_gap :
    [-2, -1, 0, 2, 3, 5, 6, 7].Pairwise (· < · : Int → Int → Prop) ∧
    (∀ r, r ∈ checkIncrease [-2, -1, 0, 2, 3, 5, 6, 7] ↔
      ∃ a n, 3 ≤ n ∧ r = block a n ∧ MaximalBlock [-2, -1, 0, 2, 3, 5, 6, 7] a n) ∧
      (checkIncrease [-2, -1, 0, 2, 3, 5, 6, 7]).Pairwise (fun r r' => ∀ x ∈ r, ∀ y ∈ r', (x : Int) < y) ∧
      (checkIncrease ([-2, -1, 0, 2, 3, 5, 6, 7] : List Int)).Nodup :=
  ⟨by decide, checkIncrease_exact (by decide)⟩

end Blocks

end FishWeb.Xxl
