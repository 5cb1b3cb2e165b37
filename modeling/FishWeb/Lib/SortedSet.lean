import Mathlib.Data.List.Perm.Basic
import Mathlib.Data.List.Sort
import Mathlib.Data.Option.Basic
/-!
# Sorted sets

Members with scores, kept by descending score. How members of one score stand among each
other is left open. `top n` is what a ranking of `n` shows when nobody is cut off from
those he is level with: everybody whose score is at least the one at position `n`. The
commands find it from the rank of the first member of that score and their number
(`zrevrange_top`), and a copy of the top is its own top (`top_zaddAll`).
-/

structure SortedSet (μ σ : Type) [LinearOrder σ] where
  entries : List (μ × σ)
  sorted : entries.Pairwise fun a b => b.2 ≤ a.2
  nodup : (entries.map Prod.fst).Nodup

namespace SortedSet

variable {μ σ : Type} [LinearOrder σ]

instance : Membership (μ × σ) (SortedSet μ σ) := ⟨fun s e => e ∈ s.entries⟩

theorem mem_entries {s : SortedSet μ σ} {e : μ × σ} : e ∈ s.entries ↔ e ∈ s := Iff.rfl

instance : EmptyCollection (SortedSet μ σ) := ⟨⟨[], .nil, .nil⟩⟩

@[simp] theorem entries_empty : (∅ : SortedSet μ σ).entries = [] := rfl

@[ext] theorem ext {s t : SortedSet μ σ} (h : s.entries = t.entries) : s = t := by
  cases s
  cases t
  cases h
  rfl

/-! ## Reading -/

/-- `zrevrange(start, stop)` with scores. -/
def zrevrange (s : SortedSet μ σ) (start stop : Nat) : List (μ × σ) := (s.entries.take (stop + 1)).drop start

/-- `zrevrangebyscore(max, min)` -/
def zrevrangebyscore (s : SortedSet μ σ) (max min : σ) : List μ :=
  (s.entries.filter fun e => min ≤ e.2 ∧ e.2 ≤ max).map Prod.fst

def zrevrank [DecidableEq μ] (s : SortedSet μ σ) (m : μ) : Option Nat := s.entries.findIdx? (·.1 = m)

def zscore [DecidableEq μ] (s : SortedSet μ σ) (m : μ) : Option σ := (s.entries.find? (·.1 = m)).map Prod.snd

/-- Everybody whose score is at least the one at position `n`, or everybody when there are fewer. -/
def top (s : SortedSet μ σ) (n : Nat) : List (μ × σ) := s.entries.filter fun e => s.entries[n - 1]?.all (·.2 ≤ e.2)

theorem mem_top {s : SortedSet μ σ} {n : Nat} {e : μ × σ} :
    e ∈ s.top n ↔ e ∈ s ∧ ∀ last, s.entries[n - 1]? = some last → last.2 ≤ e.2 := by
  unfold top
  rw [List.mem_filter, mem_entries]
  cases s.entries[n - 1]? <;> simp

theorem top_sublist (s : SortedSet μ σ) (n : Nat) : (s.top n).Sublist s.entries := List.filter_sublist

theorem top_sorted (s : SortedSet μ σ) (n : Nat) : (s.top n).Pairwise fun a b => b.2 ≤ a.2 :=
  s.sorted.sublist (s.top_sublist n)

theorem top_nodup (s : SortedSet μ σ) (n : Nat) : ((s.top n).map Prod.fst).Nodup :=
  s.nodup.sublist ((s.top_sublist n).map _)

theorem zrevrange_self (s : SortedSet μ σ) (i : Nat) : s.zrevrange i i = s.entries[i]?.toList := by
  unfold zrevrange
  rw [List.take_add_one, List.drop_append]
  cases h : s.entries[i]? with
  | none =>
    rw [List.getElem?_eq_none_iff] at h
    simp [h]
  | some e =>
    obtain ⟨hlt, rfl⟩ := List.getElem?_eq_some_iff.1 h
    simp [Nat.min_eq_left hlt.le]

/-- Those above a score, those at it and those below it. -/
theorem entries_eq (s : SortedSet μ σ) (x : σ) :
    s.entries = s.entries.filter (x < ·.2) ++ (s.entries.filter (·.2 = x) ++ s.entries.filter (·.2 < x)) := by
  have hs := s.sorted
  generalize s.entries = l at hs
  induction l with
  | nil => rfl
  | cons e l ih =>
    obtain ⟨he, hl⟩ := List.pairwise_cons.1 hs
    have habove (hx : e.2 ≤ x) : l.filter (x < ·.2) = [] :=
      List.filter_eq_nil_iff.2 fun b hb => by simpa using (he b hb).trans hx
    have hat (hx : e.2 < x) : l.filter (·.2 = x) = [] :=
      List.filter_eq_nil_iff.2 fun b hb => by simpa using ((he b hb).trans_lt hx).ne
    rcases lt_trichotomy e.2 x with hx | hx | hx
    · have ih := ih hl
      rw [habove hx.le, hat hx, List.nil_append, List.nil_append] at ih
      simp [hx, hx.ne, hx.not_gt, habove hx.le, hat hx, ← ih]
    · have ih := ih hl
      rw [habove hx.le, List.nil_append] at ih
      simp [hx, habove hx.le, ← ih]
    · simp [hx, hx.ne', hx.not_gt, ← ih hl]

theorem filter_le_eq (s : SortedSet μ σ) (x : σ) :
    s.entries.filter (x ≤ ·.2) = s.entries.filter (x < ·.2) ++ s.entries.filter (·.2 = x) := by
  conv_lhs => rw [s.entries_eq x]
  rw [List.filter_append, List.filter_append, List.filter_filter, List.filter_filter, List.filter_filter]
  have hbelow : s.entries.filter (fun e => decide (x ≤ e.2) && decide (e.2 < x)) = [] :=
    List.filter_eq_nil_iff.2 fun e _ => by simp
  rw [hbelow, List.append_nil]
  congr 1 <;> refine List.filter_congr fun e _ => ?_
  · simpa using le_of_lt
  · simpa using fun h : e.2 = x => h.ge

variable [DecidableEq μ]

/-- The rank of a member is the number of those before him. -/
theorem zrevrank_of_split {s : SortedSet μ σ} {pre post : List (μ × σ)} {e : μ × σ} (h : s.entries = pre ++ e :: post) :
    s.zrevrank e.1 = some pre.length := by
  have hnodup := s.nodup
  rw [h, List.map_append, List.map_cons, List.nodup_append] at hnodup
  unfold zrevrank
  rw [h, List.findIdx?_append]
  have hpre : pre.findIdx? (fun b => decide (b.1 = e.1)) = none := by
    rw [List.findIdx?_eq_none_iff]
    intro b hb
    simpa using hnodup.2.2 b.1 (List.mem_map_of_mem hb) e.1 List.mem_cons_self
  simp [hpre, List.findIdx?_cons]

omit [DecidableEq μ] in
theorem zrevrangebyscore_self (s : SortedSet μ σ) (x : σ) :
    s.zrevrangebyscore x x = (s.entries.filter (·.2 = x)).map Prod.fst := by
  unfold zrevrangebyscore
  congr 1
  refine List.filter_congr fun e _ => ?_
  simp [le_antisymm_iff, and_comm]

/-- The first of those at a score comes after those above it. -/
theorem zrevrank_first {s : SortedSet μ σ} {x : σ} {m : μ} (h : (s.zrevrangebyscore x x).head? = some m) :
    s.zrevrank m = some (s.entries.filter (x < ·.2)).length := by
  rw [zrevrangebyscore_self] at h
  cases htied : s.entries.filter (·.2 = x) with
  | nil => rw [htied] at h; cases h
  | cons e l =>
    rw [htied] at h
    obtain rfl : e.1 = m := Option.some.inj h
    have heq := s.entries_eq x
    rw [htied, List.cons_append] at heq
    exact zrevrank_of_split heq

/-- The last of those at a score comes before those below it. -/
theorem zrevrank_last {s : SortedSet μ σ} {x : σ} {m : μ} (h : (s.zrevrangebyscore x x).getLast? = some m) :
    ∃ r, s.zrevrank m = some r ∧ r + 1 = (s.entries.filter (x ≤ ·.2)).length := by
  rw [zrevrangebyscore_self] at h
  rcases List.eq_nil_or_concat (s.entries.filter (·.2 = x)) with htied | ⟨l, e, htied⟩
  · rw [htied] at h; cases h
  · rw [List.concat_eq_append] at htied
    rw [htied, List.map_append, List.map_singleton, List.getLast?_append] at h
    obtain rfl : e.1 = m := Option.some.inj h
    have heq := s.entries_eq x
    rw [htied, List.append_assoc, List.singleton_append, ← List.append_assoc] at heq
    refine ⟨_, zrevrank_of_split heq, ?_⟩
    rw [s.filter_le_eq, htied]
    simp [Nat.add_assoc]

omit [DecidableEq μ] in
/-- Those of at least a score come first. -/
theorem take_filter_le (s : SortedSet μ σ) (x : σ) :
    s.entries.take (s.entries.filter (x ≤ ·.2)).length = s.entries.filter (x ≤ ·.2) := by
  have heq := s.entries_eq x
  rw [← List.append_assoc, ← s.filter_le_eq] at heq
  have hpre : s.entries.filter (x ≤ ·.2) <+: s.entries := ⟨_, heq.symm⟩
  exact (List.prefix_iff_eq_take.1 hpre).symm

omit [DecidableEq μ] in
/-- The top is what comes first. -/
theorem top_eq_take (s : SortedSet μ σ) (n : Nat) : s.top n = s.entries.take (s.top n).length := by
  unfold top
  cases h : s.entries[n - 1]? with
  | none => simp
  | some last =>
    simp only [Option.all_some]
    rw [s.take_filter_le last.2]

/-- The commands that cut a ranking find its top. -/
theorem zrevrange_top {s : SortedSet μ σ} {n : Nat} {last : μ × σ} (h : s.entries[n - 1]? = some last) :
    ∃ m r, (s.zrevrangebyscore last.2 last.2).head? = some m ∧ s.zrevrank m = some r ∧
      s.zrevrange 0 (r + (s.zrevrangebyscore last.2 last.2).length - 1) = s.top n := by
  have htied : last ∈ s.entries.filter (·.2 = last.2) := List.mem_filter.2 ⟨List.mem_of_getElem? h, by simp⟩
  have hne : s.zrevrangebyscore last.2 last.2 ≠ [] := by
    rw [zrevrangebyscore_self]
    exact List.ne_nil_of_mem (List.mem_map_of_mem htied)
  obtain ⟨m, ms, hms⟩ := List.exists_cons_of_ne_nil hne
  have hm : (s.zrevrangebyscore last.2 last.2).head? = some m := by rw [hms, List.head?_cons]
  refine ⟨m, _, hm, zrevrank_first hm, ?_⟩
  have hpos := List.length_pos_of_mem htied
  have htop : s.top n = s.entries.filter (last.2 ≤ ·.2) := by
    unfold top
    rw [h]
    rfl
  rw [htop, ← s.take_filter_le, s.filter_le_eq, List.length_append, zrevrangebyscore_self, List.length_map]
  unfold zrevrange
  rw [List.drop_zero, Nat.sub_add_cancel (by omega)]

omit [DecidableEq μ] in
theorem zrevrange_all {s : SortedSet μ σ} {n : Nat} (h : s.entries[n - 1]? = none) :
    s.zrevrange 0 (n - 1) = s.top n := by
  unfold zrevrange top
  rw [h]
  rw [List.getElem?_eq_none_iff] at h
  simp [List.take_of_length_le (h.trans (Nat.le_succ _))]

/-- Whether somebody comes after the last of those at a score. -/
theorem zrevrange_after {s : SortedSet μ σ} {x : σ} {m : μ} (h : (s.zrevrangebyscore x x).getLast? = some m) :
    ∃ r, s.zrevrank m = some r ∧ (s.zrevrange (r + 1) (r + 1) ≠ [] ↔ ∃ e ∈ s, e.2 < x) := by
  obtain ⟨r, hr, hlen⟩ := zrevrank_last h
  refine ⟨r, hr, ?_⟩
  rw [zrevrange_self, hlen]
  constructor
  · intro hne
    cases hget : s.entries[(s.entries.filter (x ≤ ·.2)).length]? with
    | none => rw [hget] at hne; exact absurd rfl hne
    | some e =>
      have hlt := (List.getElem?_eq_some_iff.1 hget).1
      by_contra hnone
      have hall : s.entries.filter (x ≤ ·.2) = s.entries := by
        rw [List.filter_eq_self]
        intro b hb
        have hb : ¬b.2 < x := fun hlt => hnone ⟨b, hb, hlt⟩
        simpa using hb
      rw [hall] at hlt
      exact lt_irrefl _ hlt
  · rintro ⟨e, he, hx⟩ hnil
    have hlen : (s.entries.filter (x ≤ ·.2)).length < s.entries.length :=
      List.length_filter_lt_length_iff_exists.2 ⟨e, he, by simpa using hx⟩
    rw [List.getElem?_eq_getElem hlen] at hnil
    cases hnil

/-! ## Adding -/

section Place
variable [LT μ] [DecidableLT μ]

/-- The entry after those of a higher score, and among those of the same score after the greater members. -/
def place (m : μ) (x : σ) : List (μ × σ) → List (μ × σ)
  | [] => [(m, x)]
  | e :: l => if e.2 < x ∨ e.2 = x ∧ e.1 < m then (m, x) :: e :: l else e :: place m x l

omit [DecidableEq μ] in
theorem place_perm (m : μ) (x : σ) (l : List (μ × σ)) : (place m x l).Perm ((m, x) :: l) := by
  induction l with
  | nil => exact .refl _
  | cons e l ih =>
    unfold place
    split
    · exact .refl _
    · exact (ih.cons e).trans (.swap ..)

omit [DecidableEq μ] in
theorem place_sorted (m : μ) (x : σ) {l : List (μ × σ)} (h : l.Pairwise fun a b => b.2 ≤ a.2) :
    (place m x l).Pairwise fun a b => b.2 ≤ a.2 := by
  induction l with
  | nil => exact List.pairwise_singleton _ _
  | cons e l ih =>
    obtain ⟨he, hl⟩ := List.pairwise_cons.1 h
    unfold place
    split
    next hlt =>
      have hx : e.2 ≤ x := hlt.elim le_of_lt fun h => h.1.le
      refine List.pairwise_cons.2 ⟨fun b hb => ?_, h⟩
      rcases List.mem_cons.1 hb with rfl | hb
      · exact hx
      · exact (he b hb).trans hx
    next hlt =>
      have hx : x ≤ e.2 := not_lt.1 fun hlt' => hlt (.inl hlt')
      refine List.pairwise_cons.2 ⟨fun b hb => ?_, ih hl⟩
      rcases List.mem_cons.1 ((place_perm m x l).mem_iff.1 hb) with rfl | hb
      · exact hx
      · exact he b hb

/-- `zadd` of one member; one that is there takes the new score. -/
def zadd (s : SortedSet μ σ) (m : μ) (x : σ) : SortedSet μ σ where
  entries := place m x (s.entries.filter (·.1 ≠ m))
  sorted := place_sorted m x (s.sorted.sublist List.filter_sublist)
  nodup := by
    rw [((place_perm m x _).map Prod.fst).nodup_iff, List.map_cons, List.nodup_cons]
    refine ⟨?_, s.nodup.sublist (List.filter_sublist.map _)⟩
    intro hm
    obtain ⟨e, he, rfl⟩ := List.mem_map.1 hm
    simp at he

theorem mem_zadd {s : SortedSet μ σ} {m : μ} {x : σ} {e : μ × σ} :
    e ∈ s.zadd m x ↔ e = (m, x) ∨ e ∈ s ∧ e.1 ≠ m := by
  rw [← mem_entries, zadd, (place_perm m x _).mem_iff, List.mem_cons, List.mem_filter, mem_entries]
  simp

/-- `zadd` of one entry after the other. -/
def zaddAll (s : SortedSet μ σ) (l : List (μ × σ)) : SortedSet μ σ := l.foldl (fun s e => s.zadd e.1 e.2) s

theorem mem_zaddAll {s : SortedSet μ σ} {l : List (μ × σ)} (h : (l.map Prod.fst).Nodup) {e : μ × σ} :
    e ∈ s.zaddAll l ↔ e ∈ l ∨ e ∈ s ∧ e.1 ∉ l.map Prod.fst := by
  induction l generalizing s with
  | nil => simp [zaddAll]
  | cons a l ih =>
    rw [List.map_cons, List.nodup_cons] at h
    have hcons : s.zaddAll (a :: l) = (s.zadd a.1 a.2).zaddAll l := rfl
    rw [hcons, ih h.2, mem_zadd, List.map_cons, List.mem_cons, List.mem_cons]
    constructor
    · rintro (hl | ⟨rfl | ⟨hs, hne⟩, hnot⟩)
      · exact .inl (.inr hl)
      · exact .inl (.inl rfl)
      · exact .inr ⟨hs, fun hor => hor.elim hne hnot⟩
    · rintro ((rfl | hl) | ⟨hs, hnot⟩)
      · exact .inr ⟨.inl rfl, h.1⟩
      · exact .inl hl
      · exact .inr ⟨.inr ⟨hs, fun heq => hnot (.inl heq)⟩, fun hl => hnot (.inr hl)⟩

/-- A copy has the entries of the list. -/
theorem zaddAll_perm {l : List (μ × σ)} (h : (l.map Prod.fst).Nodup) :
    ((∅ : SortedSet μ σ).zaddAll l).entries.Perm l := by
  refine (List.perm_ext_iff_of_nodup (List.Nodup.of_map _ (nodup _)) (List.Nodup.of_map _ h)).2 fun e => ?_
  rw [mem_entries, mem_zaddAll h, ← mem_entries (s := ∅)]
  simp

/-- The copy of a top is its own top. -/
theorem top_zaddAll (s : SortedSet μ σ) (n : Nat) :
    ((∅ : SortedSet μ σ).zaddAll (s.top n)).top n = ((∅ : SortedSet μ σ).zaddAll (s.top n)).entries := by
  have hperm := zaddAll_perm (s.top_nodup n)
  generalize hcopy : (∅ : SortedSet μ σ).zaddAll (s.top n) = t at hperm
  -- the copy has the scores of the top in the same order
  have hscores : t.entries.map Prod.snd = (s.top n).map Prod.snd := by
    have hcopied : (t.entries.map Prod.snd).Pairwise fun a b => b ≤ a := List.pairwise_map.2 t.sorted
    have htop : ((s.top n).map Prod.snd).Pairwise fun a b => b ≤ a := List.pairwise_map.2 (s.top_sorted n)
    exact List.Perm.eq_of_pairwise (fun a b _ _ hba hab => le_antisymm hab hba) hcopied htop (hperm.map _)
  unfold top
  rw [List.filter_eq_self]
  intro e he
  cases hlast : t.entries[n - 1]? with
  | none => rfl
  | some last =>
    have hget : ((s.top n).map Prod.snd)[n - 1]? = some last.2 := by
      rw [← hscores, List.getElem?_map, hlast]
      rfl
    rw [List.getElem?_map] at hget
    obtain ⟨b, hb, hscore⟩ := Option.map_eq_some_iff.1 hget
    have hentry : s.entries[n - 1]? = some b := by
      rw [s.top_eq_take, List.getElem?_take] at hb
      split at hb
      · exact hb
      · cases hb
    have hle := (mem_top.1 (hperm.mem_iff.1 he)).2 b hentry
    simpa [← hscore] using hle

end Place

end SortedSet
