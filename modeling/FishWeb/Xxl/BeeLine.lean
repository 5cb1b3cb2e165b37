import FishWeb.Lib.Buckets
import FishWeb.Xxl.Canvas
/-!
# Free straight segments

`CheckBeeLine` of `model/xiaoxiaole_arith.py`: from every free cell of a table it goes along
an axis as long as the cells are free, marks them, and keeps what is long enough under its
length.
-/
open Buckets Function

namespace FishWeb.Xxl

/-- The cell after one along the axis. -/
def Axis.ahead : Axis → Point → Option Point
  | .Y, (x, y) => if y + 1 < WIDTH then some (x, y + 1) else none
  | .X, (x, y) => if x + 1 < HEIGHT then some (x + 1, y) else none

/-- The cell before one along the axis. -/
def Axis.behind : Axis → Point → Option Point
  | .Y, (x, y) => if 1 ≤ y then some (x, y - 1) else none
  | .X, (x, y) => if 1 ≤ x then some (x - 1, y) else none

/-- One of the two directions of `getNear`: a neighbour that is free and new is appended,
and the search goes on from it. -/
def goOn (getNear : Point → Canvas × List Point → Option (Canvas × List Point)) (neighbour : Option Point)
    (s : Canvas × List Point) : Option (Canvas × List Point) :=
  match neighbour with
  | none => some s
  | some q => if s.1 q = 0 ∧ q ∉ s.2 then getNear q (s.1, s.2 ++ [q]) else some s

/-- `getNear` with the table and the list `Points` that its calls share. `none` is more than
`depth` nested calls. -/
def getNear (axis : Axis) : (depth : Nat) → Point → Canvas × List Point → Option (Canvas × List Point)
  | 0, _, _ => none
  | depth + 1, p, (table, Points) => do
    let s ← goOn (getNear axis depth) (axis.ahead p) (update table p 1, Points)
    goOn (getNear axis depth) (axis.behind p) s

/-- The end of the first `getNear` from a cell: what is long enough is kept in `dictTiles`. -/
def keep (minLen : Nat) (dictTiles : List (Nat × List (List Point))) (s : Canvas × List Point) :
    Canvas × List (Nat × List (List Point)) :=
  if minLen ≤ s.2.length then (s.2.foldl (fun table p => update table p 1) s.1, put dictTiles s.2.length s.2)
  else (s.1, dictTiles)

/-- One cell of the loops of `run`. -/
def visitCell (axis : Axis) (minLen : Nat) (s : Canvas × List (Nat × List (List Point))) (p : Point) :
    Option (Canvas × List (Nat × List (List Point))) :=
  if s.1 p = 0 then do
    let (table, dictTiles) := keep minLen s.2 (← getNear axis (HEIGHT * WIDTH) p (s.1, [p]))
    return (update table p 1, dictTiles)
  else some s

/-- The cells of the board, row after row. -/
def cells : List Point := (List.range HEIGHT).flatMap fun x => (List.range WIDTH).map fun y => (x, y)

/-- `CheckBeeLine(table, axis, minLen).dictTiles`. -/
def checkBeeLine (table : Canvas) (axis : Axis) (minLen : Nat) : Option (List (Nat × List (List Point))) :=
  (cells.foldlM (visitCell axis minLen) (table, [])).map Prod.snd

/-! ## One search -/

/-- The table with the cells of a list taken. -/
def mark (table : Canvas) (l : List Point) : Canvas := fun p => if p ∈ l then 1 else table p

theorem foldl_update (l : List Point) (table : Canvas) : l.foldl (fun table p => update table p 1) table = mark table l := by
  induction l generalizing table with
  | nil => rfl
  | cons q l ih =>
    rw [List.foldl_cons, ih]
    funext p
    by_cases hp : p ∈ l
    · simp [mark, hp]
    · by_cases hq : p = q
      · simp [mark, hq]
      · simp [mark, hp, hq]

theorem ahead_cell (a : Axis) (c i : Nat) : a.ahead (a.cell c i) = if i + 1 < SIZE then some (a.cell c (i + 1)) else none := by
  cases a <;> rfl

theorem behind_cell (a : Axis) (c i : Nat) : a.behind (a.cell c i) = if 1 ≤ i then some (a.cell c (i - 1)) else none := by
  cases a <;> rfl

/-- A neighbour that is taken, or off the board, ends the direction. -/
theorem goOn_taken {g : Point → Canvas × List Point → Option (Canvas × List Point)} {neighbour : Option Point}
    {s : Canvas × List Point} (h : ∀ q, neighbour = some q → s.1 q ≠ 0) : goOn g neighbour s = some s := by
  cases neighbour with
  | none => rfl
  | some q => exact if_neg fun hfree => h q rfl hfree.1

theorem mark_cons (table : Canvas) (p : Point) (l : List Point) : mark (update table p 1) l = mark table (p :: l) := by
  funext q
  by_cases hq : q ∈ l
  · simp [mark, hq]
  · by_cases hqp : q = p
    · simp [mark, hqp]
    · simp [mark, hq, hqp]

theorem mark_segment_one (table : Canvas) (a : Axis) (c i : Nat) :
    update table (a.cell c i) 1 = mark table (segment a c i 1) := mark_cons table (a.cell c i) []

/-- Whatever is marked from `i` on, the cell before stays taken. -/
theorem goOn_behind (g : Point → Canvas × List Point → Option (Canvas × List Point)) {a : Axis} {c i : Nat}
    {table : Canvas} (hfirst : i = 0 ∨ table (a.cell c (i - 1)) ≠ 0) (n : Nat) (l : List Point) :
    goOn g (a.behind (a.cell c i)) (mark table (segment a c i n), l) = some (mark table (segment a c i n), l) := by
  refine goOn_taken fun q hq => ?_
  rw [behind_cell] at hq
  split at hq
  · cases hq
    have hnot : a.cell c (i - 1) ∉ segment a c i n := fun hmem => by
      have := cell_mem_segment.1 hmem
      omega
    simp only [mark, hnot, if_false]
    exact hfirst.resolve_left (by omega)
  · cases hq

/-- From a cell without a free one before it the search takes the free cells that follow. -/
theorem getNear_segment (a : Axis) {c : Nat} (n : Nat) {depth i : Nat} {table : Canvas} {Points : List Point}
    (hd : n ≤ depth) (hin : i + n < SIZE) (hfree : ∀ j, i < j → j ≤ i + n → table (a.cell c j) = 0)
    (hnew : ∀ j, i < j → a.cell c j ∉ Points) (hfirst : i = 0 ∨ table (a.cell c (i - 1)) ≠ 0)
    (hlast : i + n + 1 = SIZE ∨ table (a.cell c (i + n + 1)) ≠ 0) :
    getNear a (depth + 1) (a.cell c i) (table, Points) =
      some (mark table (segment a c i (n + 1)), Points ++ segment a c (i + 1) n) := by
  induction n generalizing depth i table Points with
  | zero =>
    have hahead : goOn (getNear a depth) (a.ahead (a.cell c i)) (mark table (segment a c i 1), Points) =
        some (mark table (segment a c i 1), Points) := by
      refine goOn_taken fun q hq => ?_
      rw [ahead_cell] at hq
      split at hq
      · cases hq
        have hnot : a.cell c (i + 1) ∉ segment a c i 1 := fun hmem => by
          have := cell_mem_segment.1 hmem
          omega
        simp only [mark, hnot, if_false]
        exact hlast.resolve_left (by omega)
      · cases hq
    unfold getNear
    rw [mark_segment_one, hahead]
    show goOn (getNear a depth) (a.behind (a.cell c i)) (mark table (segment a c i 1), Points) = _
    rw [goOn_behind _ hfirst]
    simp [segment]
  | succ n ih =>
    obtain ⟨depth, rfl⟩ := Nat.exists_eq_add_one_of_ne_zero (by omega : depth ≠ 0)
    have hne : ∀ j, i < j → a.cell c j ≠ a.cell c i := fun j hj he => by
      have := a.cell_injective c he
      omega
    have hother : ∀ j, i < j → update table (a.cell c i) 1 (a.cell c j) = table (a.cell c j) := fun j hj =>
      update_of_ne (hne j hj) 1 table
    have hcall : getNear a (depth + 1) (a.cell c (i + 1)) (update table (a.cell c i) 1, Points ++ [a.cell c (i + 1)]) =
        some (mark (update table (a.cell c i) 1) (segment a c (i + 1) (n + 1)),
          Points ++ [a.cell c (i + 1)] ++ segment a c (i + 1 + 1) n) := ih (by omega) (by omega)
      (fun j hj hjn => by rw [hother j (by omega)]; exact hfree j (by omega) (by omega))
      (fun j hj => by
        rw [List.mem_append, List.mem_singleton, not_or]
        exact ⟨hnew j (by omega), fun he => by have := a.cell_injective c he; omega⟩)
      (.inr (by rw [Nat.add_sub_cancel, update_self]; exact Nat.one_ne_zero))
      (hlast.imp (fun h => by omega) fun h => by
        rw [hother _ (by omega)]
        rwa [show i + 1 + n + 1 = i + (n + 1) + 1 by omega])
    have hahead : goOn (getNear a (depth + 1)) (a.ahead (a.cell c i)) (update table (a.cell c i) 1, Points) =
        some (mark table (segment a c i (n + 2)), Points ++ segment a c (i + 1) (n + 1)) := by
      rw [ahead_cell, if_pos (by omega)]
      have hgo : update table (a.cell c i) 1 (a.cell c (i + 1)) = 0 ∧ a.cell c (i + 1) ∉ Points :=
        ⟨by rw [hother _ (by omega)]; exact hfree _ (by omega) (by omega), hnew _ (by omega)⟩
      show (if update table (a.cell c i) 1 (a.cell c (i + 1)) = 0 ∧ a.cell c (i + 1) ∉ Points then _ else _) = _
      rw [if_pos hgo, hcall, mark_cons, List.append_assoc]
      rfl
    unfold getNear
    rw [hahead]
    exact goOn_behind _ hfirst _ _

/-! ## The scan -/

/-- A maximal segment whose first cell the scan has been at. -/
def Started (T : Canvas) (a : Axis) (done : List Point) (c i n : Nat) : Prop := Maximal T a c i n ∧ a.cell c i ∈ done

def Swallowed (T : Canvas) (a : Axis) (done : List Point) (p : Point) : Prop :=
  ∃ c i n, Started T a done c i n ∧ p ∈ segment a c i n

def Found (T : Canvas) (a : Axis) (minLen : Nat) (done : List Point) (l : List Point) : Prop :=
  ∃ c i n, Started T a done c i n ∧ minLen ≤ n ∧ l = segment a c i n

/-- After the cells `done` of the table `T`: the free cells left are those of the other
segments, and `dictTiles` has the segments found, once each, under their lengths. -/
structure Scanned (T : Canvas) (a : Axis) (minLen : Nat) (done : List Point)
    (s : Canvas × List (Nat × List (List Point))) : Prop where
  table : ∀ p, s.1 p = 0 ↔ T p = 0 ∧ ¬Swallowed T a done p
  tiles : ∃ found : List (List Point), s.2 = gather (found.map fun l => (l.length, l)) ∧ found.Nodup ∧
    ∀ l, l ∈ found ↔ Found T a minLen done l

section Scan
variable {T : Canvas} {a : Axis} {c i n minLen : Nat} {done : List Point} {p : Point}

theorem Maximal.first_mem (h : Maximal T a c i n) : a.cell c i ∈ segment a c i n :=
  cell_mem_segment.2 ⟨Nat.le_refl i, by have := h.pos; omega⟩

/-- At the first cell of a maximal segment. -/
theorem started_first (h : Maximal T a c i n) {c' i' n' : Nat} : Started T a (done ++ [a.cell c i]) c' i' n' ↔
    Started T a done c' i' n' ∨ c' = c ∧ i' = i ∧ n' = n := by
  rw [Started, Started, List.mem_append, List.mem_singleton, and_or_left]
  refine or_congr_right ⟨fun ⟨h', hcell⟩ => ?_, ?_⟩
  · exact h'.unique h h'.first_mem (hcell ▸ h.first_mem)
  · rintro ⟨rfl, rfl, rfl⟩
    exact ⟨h, rfl⟩

/-- At any other cell. -/
theorem started_other (hno : ∀ c i n, Maximal T a c i n → a.cell c i ≠ p) {c' i' n' : Nat} :
    Started T a (done ++ [p]) c' i' n' ↔ Started T a done c' i' n' := by
  rw [Started, Started, List.mem_append, List.mem_singleton]
  exact and_congr_right fun h => or_iff_left (hno _ _ _ h)

theorem swallowed_first (h : Maximal T a c i n) (q : Point) :
    Swallowed T a (done ++ [a.cell c i]) q ↔ Swallowed T a done q ∨ q ∈ segment a c i n := by
  simp only [Swallowed, started_first h, or_and_right, exists_or]
  refine or_congr_right ⟨?_, fun hq => ⟨c, i, n, ⟨rfl, rfl, rfl⟩, hq⟩⟩
  rintro ⟨_, _, _, ⟨rfl, rfl, rfl⟩, hq⟩
  exact hq

theorem found_first (h : Maximal T a c i n) (l : List Point) :
    Found T a minLen (done ++ [a.cell c i]) l ↔ Found T a minLen done l ∨ minLen ≤ n ∧ l = segment a c i n := by
  simp only [Found, started_first h, or_and_right, exists_or]
  refine or_congr_right ⟨?_, fun hl => ⟨c, i, n, ⟨rfl, rfl, rfl⟩, hl⟩⟩
  rintro ⟨_, _, _, ⟨rfl, rfl, rfl⟩, hl⟩
  exact hl

/-- A segment is not found before the scan is at its first cell. -/
theorem not_found_before (h : Maximal T a c i n) (hdone : a.cell c i ∉ done) : ¬Found T a minLen done (segment a c i n) := by
  rintro ⟨c', i', n', ⟨h', hstart⟩, -, heq⟩
  obtain ⟨rfl, rfl, -⟩ := h.unique h' h.first_mem (heq ▸ h.first_mem)
  exact hdone hstart

/-- What is taken of the table after a segment is kept or not. -/
theorem keep_table (minLen : Nat) (d : List (Nat × List (List Point))) (table : Canvas) {l : List Point} (hp : p ∈ l)
    (q : Point) : update (keep minLen d (mark table l, l)).1 p 1 q = 0 ↔ mark table l q = 0 := by
  have hkeep : (keep minLen d (mark table l, l)).1 = mark table l := by
    unfold keep
    split
    · rw [foldl_update]
      funext r
      by_cases hr : r ∈ l <;> simp [mark, hr]
    · rfl
  rw [hkeep]
  by_cases hq : q = p
  · subst hq
    simp [mark, hp]
  · rw [update_of_ne hq]

/-- The first cell of a segment, which is found free. -/
theorem visitCell_first {s : Canvas × List (Nat × List (List Point))} (hs : Scanned T a minLen done s)
    (h : Maximal T a c i n) (hdone : a.cell c i ∉ done) :
    ∃ s', visitCell a minLen s (a.cell c i) = some s' ∧ Scanned T a minLen (done ++ [a.cell c i]) s' := by
  have hfresh : ∀ q ∈ segment a c i n, ¬Swallowed T a done q := by
    rintro q hq ⟨c', i', n', ⟨h', hstart⟩, hq'⟩
    obtain ⟨rfl, rfl, -⟩ := h.unique h' hq hq'
    exact hdone hstart
  have hfree : ∀ j, i ≤ j → j < i + n → s.1 (a.cell c j) = 0 := fun j hij hj =>
    (hs.table _).2 ⟨h.free j hij hj, hfresh _ (cell_mem_segment.2 ⟨hij, hj⟩)⟩
  have htaken : ∀ q, T q ≠ 0 → s.1 q ≠ 0 := fun q hq h0 => hq ((hs.table q).1 h0).1
  obtain ⟨m, rfl⟩ := Nat.exists_eq_add_one_of_ne_zero (by have := h.pos; omega : n ≠ 0)
  have hrun : getNear a (63 + 1) (a.cell c i) (s.1, [a.cell c i]) =
      some (mark s.1 (segment a c i (m + 1)), segment a c i (m + 1)) := by
    have hin : i + m < SIZE := h.inside
    refine getNear_segment a m (by simp only [SIZE] at hin; omega) hin (fun j hj hjm => hfree j (by omega) (by omega))
      (fun j hj hmem => ?_) (h.first.imp_right (htaken _)) (h.last.imp_right (htaken _))
    have := a.cell_injective c (List.mem_singleton.1 hmem)
    omega
  have hvisit : visitCell a minLen s (a.cell c i) =
      some (update (keep minLen s.2 (mark s.1 (segment a c i (m + 1)), segment a c i (m + 1))).1 (a.cell c i) 1,
        (keep minLen s.2 (mark s.1 (segment a c i (m + 1)), segment a c i (m + 1))).2) := by
    rw [visitCell, if_pos (hfree i (Nat.le_refl i) (by omega))]
    show (getNear a (63 + 1) (a.cell c i) (s.1, [a.cell c i]) >>= _) = _
    rw [hrun]
    rfl
  refine ⟨_, hvisit, fun q => ?_, ?_⟩
  · rw [keep_table minLen s.2 s.1 h.first_mem, swallowed_first h]
    by_cases hq : q ∈ segment a c i (m + 1)
    · simp [mark, hq]
    · simp [mark, hq, hs.table q]
  · obtain ⟨found, hdict, hnd, hmem⟩ := hs.tiles
    simp only [found_first h]
    by_cases hlen : minLen ≤ m + 1
    · refine ⟨found ++ [segment a c i (m + 1)], ?_, ?_, fun l => ?_⟩
      · simp [keep, hlen, hdict, gather_concat]
      · exact List.nodup_append.2 ⟨hnd, List.nodup_singleton _, fun l hl l' hl' he =>
          not_found_before h hdone ((hmem _).1 (List.mem_singleton.1 hl' ▸ he ▸ hl))⟩
      · rw [List.mem_append, hmem, List.mem_singleton]
        simp [hlen]
    · refine ⟨found, ?_, hnd, fun l => ?_⟩
      · simp [keep, hlen, hdict]
      · rw [hmem]
        simp [hlen]

/-- The scan comes to a cell after the cells before it on its line. -/
theorem visitCell_scanned {s : Canvas × List (Nat × List (List Point))} (hs : Scanned T a minLen done s)
    (hp : p ∉ done) (hline : ∃ c i, p = a.cell c i ∧ c < SIZE ∧ i < SIZE ∧ ∀ j < i, a.cell c j ∈ done) :
    ∃ s', visitCell a minLen s p = some s' ∧ Scanned T a minLen (done ++ [p]) s' := by
  obtain ⟨c, i, rfl, hc, hi, hbefore⟩ := hline
  by_cases h0 : s.1 (a.cell c i) = 0
  · -- it is free, so the first cell of its segment
    obtain ⟨hfree, hcov⟩ := (hs.table _).1 h0
    have hone : Free T a c i 1 := ⟨hc, hi, fun j hij hj => by rwa [show j = i by omega]⟩
    obtain ⟨j, m, hmax, hji, hm⟩ := hone.exists_maximal Nat.one_pos
    obtain rfl : j = i := by
      by_contra hne
      exact hcov ⟨c, j, m, ⟨hmax, hbefore j (by omega)⟩, cell_mem_segment.2 ⟨hji, by omega⟩⟩
    exact visitCell_first hs hmax hp
  · refine ⟨s, if_neg h0, ?_⟩
    have hno : ∀ c' i' n', Maximal T a c' i' n' → a.cell c' i' ≠ a.cell c i := by
      rintro c' i' n' h' he
      obtain ⟨rfl, rfl⟩ := a.cell_eq_iff.1 he
      -- a first cell that is taken is covered, by its own segment
      have hcov : Swallowed T a done (a.cell c' i') := by
        by_contra hcov
        exact h0 ((hs.table _).2 ⟨h'.free i' (Nat.le_refl _) (by have := h'.pos; omega), hcov⟩)
      obtain ⟨d, j, m, ⟨hd, hstart⟩, hmem⟩ := hcov
      obtain ⟨rfl, rfl, -⟩ := h'.unique hd h'.first_mem hmem
      exact hp hstart
    obtain ⟨found, hdict, hnd, hmem⟩ := hs.tiles
    refine ⟨fun q => ?_, found, hdict, hnd, fun l => ?_⟩
    · simp only [hs.table q, Swallowed, started_other hno]
    · simp only [hmem l, Found, started_other hno]

end Scan

/-- The order of the cells: by rows, and by columns within a row. -/
def Before (p q : Point) : Prop := p.1 < q.1 ∨ p.1 = q.1 ∧ p.2 < q.2

instance (p q : Point) : Decidable (Before p q) := inferInstanceAs (Decidable (p.1 < q.1 ∨ p.1 = q.1 ∧ p.2 < q.2))

theorem cells_sorted : cells.Pairwise Before := by decide +kernel

theorem mem_cells {p : Point} : p ∈ cells ↔ p.1 < SIZE ∧ p.2 < SIZE := by
  obtain ⟨x, y⟩ := p
  simp [cells, HEIGHT, WIDTH, SIZE]

theorem before_cell (a : Axis) {c i j : Nat} (h : j < i) : Before (a.cell c j) (a.cell c i) := by
  cases a
  · exact .inl h
  · exact .inr ⟨rfl, h⟩

theorem Before.irrefl {p q : Point} (h : Before p q) : ¬Before q p := by
  unfold Before at h ⊢
  omega

theorem cell_mem_cells (a : Axis) {c i : Nat} : a.cell c i ∈ cells ↔ c < SIZE ∧ i < SIZE := by
  rw [mem_cells]
  cases a
  · exact and_comm
  · exact Iff.rfl

/-- The cells of a line come in their order. -/
theorem line_before (a : Axis) {done rest : List Point} {p : Point} (h : done ++ p :: rest = cells) :
    ∃ c i, p = a.cell c i ∧ c < SIZE ∧ i < SIZE ∧ ∀ j < i, a.cell c j ∈ done := by
  obtain ⟨c, i, rfl⟩ := a.exists_cell p
  obtain ⟨hc, hi⟩ := (cell_mem_cells a).1 (h ▸ List.mem_append_right done List.mem_cons_self)
  refine ⟨c, i, rfl, hc, hi, fun j hj => ?_⟩
  have hmem : a.cell c j ∈ done ++ a.cell c i :: rest := h ▸ (cell_mem_cells a).2 ⟨hc, by omega⟩
  refine (List.mem_append.1 hmem).resolve_right fun hlate => ?_
  rcases List.mem_cons.1 hlate with he | hrest
  · have := a.cell_injective c he
    omega
  · have hsorted := (List.pairwise_append.1 (h ▸ cells_sorted)).2.1
    exact (before_cell a hj).irrefl ((List.pairwise_cons.1 hsorted).1 _ hrest)

theorem not_mem_before {done rest : List Point} {p : Point} (h : done ++ p :: rest = cells) : p ∉ done := fun hp => by
  have := (List.pairwise_append.1 (h ▸ cells_sorted)).2.2 p hp p List.mem_cons_self
  exact this.irrefl this

theorem foldlM_visitCell {T : Canvas} {a : Axis} {minLen : Nat} {done rest : List Point}
    {s : Canvas × List (Nat × List (List Point))} (h : done ++ rest = cells) (hs : Scanned T a minLen done s) :
    ∃ s', rest.foldlM (visitCell a minLen) s = some s' ∧ Scanned T a minLen cells s' := by
  induction rest generalizing done s with
  | nil =>
    rw [List.append_nil] at h
    exact ⟨s, rfl, h ▸ hs⟩
  | cons p rest ih =>
    obtain ⟨s', hp, hs'⟩ := visitCell_scanned hs (not_mem_before h) (line_before a h)
    obtain ⟨s'', hrest, hs''⟩ := ih (by rw [List.append_assoc]; exact h) hs'
    exact ⟨s'', by rw [List.foldlM_cons, hp]; exact hrest, hs''⟩

/-- `dictTiles` of a table: under each length the maximal free segments that are that long, once each. -/
theorem checkBeeLine_items (table : Canvas) (a : Axis) (minLen : Nat) :
    ∃ d, checkBeeLine table a minLen = some d ∧ (keys d).Nodup ∧ ∀ k, (items d k).Nodup ∧
      ∀ l, l ∈ items d k ↔ minLen ≤ k ∧ ∃ c i, Maximal table a c i k ∧ l = segment a c i k := by
  have h0 : Scanned table a minLen [] (table, []) :=
    ⟨fun p => by simp [Swallowed, Started], [], rfl, List.nodup_nil, fun l => by simp [Found, Started]⟩
  obtain ⟨s, hrun, hs⟩ := foldlM_visitCell (List.nil_append cells) h0
  obtain ⟨found, hdict, hnd, hmem⟩ := hs.tiles
  have hitems : ∀ k, items s.2 k = found.filter (·.length = k) := fun k => by
    rw [hdict, items_gather, List.filter_map, List.map_map]
    simp [Function.comp_def]
  refine ⟨s.2, by rw [checkBeeLine, hrun]; rfl, hdict ▸ nodup_keys_gather _, fun k => ?_⟩
  rw [hitems]
  refine ⟨hnd.filter _, fun l => ?_⟩
  rw [List.mem_filter, hmem, decide_eq_true_eq]
  constructor
  · rintro ⟨⟨c, i, n, ⟨hmax, -⟩, hlen, rfl⟩, hk⟩
    rw [length_segment] at hk
    exact ⟨hk ▸ hlen, c, i, hk ▸ hmax, by rw [hk]⟩
  · rintro ⟨hlen, c, i, hmax, rfl⟩
    have hstart : a.cell c i ∈ cells := (cell_mem_cells a).2 ⟨hmax.line, by have := hmax.pos; have := hmax.inside; omega⟩
    exact ⟨⟨c, i, k, ⟨hmax, hstart⟩, hlen, rfl⟩, length_segment a c i k⟩

end FishWeb.Xxl
