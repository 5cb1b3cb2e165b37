import Mathlib.Data.List.Sort
import FishWeb.Lib.Dice
import FishWeb.Lib.Python
import FishWeb.Xxl.BeeLine
import FishWeb.Xxl.Relevance
/-!
# Boards made to order

`Maths_Mgr` of `model/xiaoxiaole_arith.py`: `do_job` plants a piece for every requested
pair of a type and a length, the longest first, and fills the rest of the board so that
no filler is next to its own type.
-/
open Buckets Dice Function Python

namespace FishWeb.Xxl

/-! ## Shapes -/

/-- Sorted by rows, and by columns within a row. -/
def Sort_point (PointList : List Point) : List Point :=
  PointList.insertionSort fun p q => p.1 < q.1 ∨ p.1 = q.1 ∧ p.2 ≤ q.2

/-- A row of `lenY` and a column of `lenX` cells that cross, in the box at (axisX, axisY). -/
def crossing (lenX lenY axisX axisY x y : Nat) : List Point :=
  Sort_point (((List.range lenY).map fun j => (axisX + x, axisY + j)) ++
    (List.range lenX).map fun i => (axisX + i, axisY + y)).dedup

def get_Type_L (XRange YRange len_count : Nat) : List (List Point) :=
  if len_count < 5 ∨ 15 < len_count then []
  else
    let lenList := if len_count % 2 = 0 then [(len_count / 2, len_count / 2 + 1), (len_count / 2 + 1, len_count / 2)]
      else [((len_count + 1) / 2, (len_count + 1) / 2)]
    if lenList.any fun (lenX, lenY) => XRange + 1 < lenX || YRange + 1 < lenY then []
    else appendNew [] (lenList.flatMap fun (lenX, lenY) =>
      (List.range (XRange + 1 - lenX)).flatMap fun axisX => (List.range (YRange + 1 - lenY)).flatMap fun axisY =>
        (List.range lenX).flatMap fun x => (List.range lenY).map fun y => crossing lenX lenY axisX axisY x y)

/-- The crosses, T and L shapes of five cells. -/
def Type_Five_L_ALL : List (List Point) := get_Type_L 8 8 5

/-! ## Placing a piece -/

def checkAllIn (table : Canvas) (Points : List Point) : Bool := Points.all fun point => table point = 0

def Math_T (table : Canvas) : Rand Err (List Point) := do
  let tmp_five ← shuffle Type_Five_L_ALL
  return (tmp_five.find? (checkAllIn table)).getD []

/-- The dictionary of a search, which never runs out of its depth. -/
def tiles : Option (List (Nat × List (List Point))) → Rand Err (List (Nat × List (List Point)))
  | some dictTiles => return dictTiles
  | none => throw .RuntimeError

/-- The choice goes by position, so the order in which a dictionary lists its values is any. -/
def Math_I (table : Canvas) (_len : Nat) : Rand Err (List Point) := do
  let BeeLineX ← tiles (checkBeeLine table .X _len)
  let BeeLineY ← tiles (checkBeeLine table .Y _len)
  let Tmp_beeLine := values BeeLineX ++ values BeeLineY
  if Tmp_beeLine ≠ [] then
    let Sort_points := Sort_point (← choice .IndexError Tmp_beeLine)
    let sIndex ← choice .IndexError (List.range (Sort_points.length + 1 - _len))
    return (Sort_points.drop sIndex).take _len
  else return []

def Set_type (table : Canvas) (type : Nat) (Points : List Point) : Canvas :=
  Points.foldl (fun table _Point => update table _Point type) table

/-- `TYPE_FIVE_L` and `TYPE_FIVE_I`. -/
inductive Five where
  | L
  | I
  deriving DecidableEq, Repr

/-- The loop over `type_five`. -/
def placeFive (table : Canvas) (_type : Nat) : List Five → Rand Err Canvas
  | [] => return table
  | .L :: type_five => do
    let resultPoint ← Math_T table
    if resultPoint ≠ [] then return Set_type table _type resultPoint
    else placeFive table _type type_five
  | .I :: _ => do
    let resultPoint ← Math_I table 5
    return Set_type table _type resultPoint

/-- One requested piece of `do_job`. -/
def place (table : Canvas) (_type : Nat) (_len : Int) : Rand Err Canvas := do
  if _len = 5 then placeFive table _type (← shuffle [.L, .I])
  else if _len ∈ [3, 4, 5, 6, 7, 8] then return Set_type table _type (← Math_I table _len.toNat)
  else return table

/-- The requests in the order of the loops: the lengths descending, and the types of a length as they came. -/
def ordered (mathsList_type_len : List (Nat × Int)) : List (Nat × Int) :=
  let mathsDict_len_type := gather (mathsList_type_len.map Prod.swap)
  ((keys mathsDict_len_type).insertionSort (· ≥ ·)).flatMap fun _len =>
    (items mathsDict_len_type _len).map fun _type => (_type, _len)

/-- Places pieces one after another. -/
def plant (requests : List (Nat × Int)) (table : Canvas) : Rand Err Canvas :=
  requests.foldlM (fun table r => place table r.1 r.2) table

/-! ## Filling the rest -/

/-- The cells next to a cell. -/
def neighbours (p : Point) : List Point := [Axis.X.behind p, Axis.X.ahead p, Axis.Y.behind p, Axis.Y.ahead p].reduceOption

/-- The types next to a cell. -/
def ignores (table : Canvas) (p : Point) : List Nat := ((neighbours p).map table).filter (· ≠ 0)

def fill (table : Canvas) (p : Point) : Rand Err Canvas := do
  if table p = 0 then
    let _type ← choice .IndexError ((List.range' 1 TYPECount).filter (· ∉ ignores table p))
    return update table p _type
  else return table

def full_table (table : Canvas) : Rand Err Canvas := cells.foldlM fill table

def do_job (mathsList_type_len : List (Nat × Int)) : Rand Err Canvas := do
  let table ← plant (ordered mathsList_type_len) fun _ => 0
  full_table table

/-! ## Straight pieces -/

theorem sort_segment (a : Axis) (c i n : Nat) : Sort_point (segment a c i n) = segment a c i n := by
  refine List.Pairwise.insertionSort_eq ?_
  refine List.pairwise_map.2 ((List.pairwise_lt_range' 1).imp fun {j k} hjk => ?_)
  cases a
  · exact .inl hjk
  · exact .inr ⟨rfl, Nat.le_of_lt hjk⟩

theorem segment_slice (a : Axis) {c i k d n : Nat} (h : d + n ≤ k) :
    ((segment a c i k).drop d).take n = segment a c (i + d) n := by
  rw [segment, ← List.map_drop, ← List.map_take, List.drop_range', List.take_range'_of_length_ge (by omega), Nat.mul_one]
  rfl

/-- `Math_I` returns a free segment of the length, and nothing only if there is none. -/
theorem always_Math_I (table : Canvas) {n : Nat} (hn : 1 ≤ n) :
    Always (fun l => (∃ a c i, Free table a c i n ∧ l = segment a c i n) ∨ l = [] ∧ ∀ a c i, ¬Free table a c i n)
      (Math_I table n) := by
  obtain ⟨dX, hX, hkX, hdX⟩ := checkBeeLine_items table .X n
  obtain ⟨dY, hY, hkY, hdY⟩ := checkBeeLine_items table .Y n
  have hmem : ∀ l, l ∈ values dX ++ values dY ↔ ∃ a c i k, n ≤ k ∧ Maximal table a c i k ∧ l = segment a c i k := by
    intro l
    rw [List.mem_append, mem_values hkX, mem_values hkY]
    constructor
    · rintro (⟨k, hl⟩ | ⟨k, hl⟩)
      · obtain ⟨hk, c, i, hmax, rfl⟩ := ((hdX k).2 l).1 hl
        exact ⟨.X, c, i, k, hk, hmax, rfl⟩
      · obtain ⟨hk, c, i, hmax, rfl⟩ := ((hdY k).2 l).1 hl
        exact ⟨.Y, c, i, k, hk, hmax, rfl⟩
    · rintro ⟨a, c, i, k, hk, hmax, rfl⟩
      cases a
      · exact .inl ⟨k, ((hdX k).2 _).2 ⟨hk, c, i, hmax, rfl⟩⟩
      · exact .inr ⟨k, ((hdY k).2 _).2 ⟨hk, c, i, hmax, rfl⟩⟩
  simp only [Math_I, hX, hY, tiles, pure_bind]
  by_cases hTmp : values dX ++ values dY = []
  · simp only [hTmp, ne_eq, not_true_eq_false, if_false]
    refine always_pure (.inr ⟨rfl, fun a c i hfree => ?_⟩)
    -- a free segment is part of a maximal one, which is long enough
    obtain ⟨j, m, hmax, hj, hm⟩ := hfree.exists_maximal hn
    have := (hmem _).2 ⟨a, c, j, m, by omega, hmax, rfl⟩
    rw [hTmp] at this
    cases this
  · simp only [ne_eq, hTmp, not_false_eq_true, if_true]
    refine always_bind (always_choice _ hTmp) fun l hl => ?_
    obtain ⟨a, c, i, k, hk, hmax, rfl⟩ := (hmem l).1 hl
    rw [sort_segment, length_segment]
    have hne : List.range (k + 1 - n) ≠ [] := by
      rw [ne_eq, List.range_eq_nil]
      omega
    refine always_bind (always_choice _ hne) fun d hd => always_pure (.inl ⟨a, c, i + d, ?_⟩)
    have hd' := List.mem_range.1 hd
    exact ⟨hmax.toFree.mono (by omega) (by omega), segment_slice a (by omega)⟩

/-- For every table: `dictTiles` has under each length the maximal free segments that are at least
`minLen` long, once each and without repeated points, along either axis; and `Math_I` finds a free
segment of that length whenever there is one. -/
theorem beeLine_exact (table : Canvas) (minLen : Nat) (h : 1 ≤ minLen) :
    (∀ a, ∃ d, checkBeeLine table a minLen = some d ∧ (keys d).Nodup ∧ ∀ k, (items d k).Nodup ∧
      (∀ l ∈ items d k, l.Nodup) ∧
      ∀ l, l ∈ items d k ↔ minLen ≤ k ∧ ∃ c i, Maximal table a c i k ∧ l = segment a c i k) ∧
    Always (fun l => (∃ a c i, Free table a c i minLen ∧ l = segment a c i minLen) ∨
      l = [] ∧ ∀ a c i, ¬Free table a c i minLen) (Math_I table minLen) := by
  refine ⟨fun a => ?_, always_Math_I table h⟩
  obtain ⟨d, hrun, hkeys, hd⟩ := checkBeeLine_items table a minLen
  refine ⟨d, hrun, hkeys, fun k => ⟨(hd k).1, fun l hl => ?_, (hd k).2⟩⟩
  obtain ⟨-, c, i, -, rfl⟩ := ((hd k).2 l).1 hl
  exact nodup_segment a c i k

/-- A board whose row 3 is taken: five in a row are still free. -/
theorem beeLine_exact_row : Always (fun l => (∃ a c i, Free (fun p => if p.1 = 3 then 1 else 0) a c i 5 ∧
    l = segment a c i 5) ∨ l = [] ∧ ∀ a c i, ¬Free (fun p => if p.1 = 3 then 1 else 0) a c i 5)
      (Math_I (fun p => if p.1 = 3 then 1 else 0) 5) :=
  (beeLine_exact (fun p => if p.1 = 3 then 1 else 0) 5 (by decide)).2

/-! ## One piece -/

theorem Set_type_apply (table : Canvas) (_type : Nat) (l : List Point) (p : Point) :
    Set_type table _type l p = if p ∈ l then _type else table p := by
  induction l generalizing table with
  | nil => rfl
  | cons q l ih =>
    have hcons : Set_type table _type (q :: l) = Set_type (update table q _type) _type l := rfl
    rw [hcons, ih]
    by_cases hp : p ∈ l
    · simp [hp]
    · by_cases hq : p = q
      · simp [hq]
      · simp [hp, hq]

theorem checkAllIn_iff {table : Canvas} {l : List Point} : checkAllIn table l = true ↔ ∀ p ∈ l, table p = 0 := by
  simp [checkAllIn]

/-- `Math_T` returns a free shape, and nothing only if there is none. -/
theorem always_Math_T (table : Canvas) : Always (fun l => (l ∈ Type_Five_L_ALL ∧ checkAllIn table l = true) ∨
    l = [] ∧ ∀ l ∈ Type_Five_L_ALL, checkAllIn table l ≠ true) (Math_T table) := by
  refine always_bind (always_shuffle Type_Five_L_ALL) fun tmp_five hperm => always_pure ?_
  cases hfind : tmp_five.find? (checkAllIn table) with
  | none => exact .inr ⟨rfl, fun l hl => List.find?_eq_none.1 hfind l (hperm.mem_iff.2 hl)⟩
  | some l => exact .inl ⟨hperm.mem_iff.1 (List.mem_of_find?_eq_some hfind), List.find?_some hfind⟩

theorem mem_Type_Five_L_ALL {l : List Point} : l ∈ Type_Five_L_ALL ↔
    ∃ axisX < 6, ∃ axisY < 6, ∃ x < 3, ∃ y < 3, crossing 3 3 axisX axisY x y = l := by
  have hall : Type_Five_L_ALL = appendNew [] ((List.range 6).flatMap fun axisX => (List.range 6).flatMap fun axisY =>
      (List.range 3).flatMap fun x => (List.range 3).map fun y => crossing 3 3 axisX axisY x y) := by
    simp [Type_Five_L_ALL, get_Type_L]
  rw [hall, mem_appendNew]
  simp only [List.not_mem_nil, false_or, List.mem_flatMap, List.mem_map, List.mem_range]

theorem mem_crossing {axisX axisY x y : Nat} {p : Point} : p ∈ crossing 3 3 axisX axisY x y ↔
    p ∈ segment .Y (axisX + x) axisY 3 ∨ p ∈ segment .X (axisY + y) axisX 3 := by
  have hrow : ∀ q : Point, q ∈ ((List.range 3).map fun j => (axisX + x, axisY + j)) ↔
      q ∈ segment .Y (axisX + x) axisY 3 := fun q => by
    simp [segment, List.range_succ, List.range'_succ, Axis.cell, Nat.add_assoc]
  have hcol : ∀ q : Point, q ∈ ((List.range 3).map fun i => (axisX + i, axisY + y)) ↔
      q ∈ segment .X (axisY + y) axisX 3 := fun q => by
    simp [segment, List.range_succ, List.range'_succ, Axis.cell, Nat.add_assoc]
  rw [crossing, Sort_point, List.mem_insertionSort, List.mem_dedup, List.mem_append, hrow, hcol]

theorem crossing_five : ∀ axisX axisY : Fin 6, ∀ x y : Fin 3, (crossing 3 3 axisX axisY x y).length = 5 ∧
    (crossing 3 3 axisX axisY x y).Nodup := by
  decide +kernel

/-- Five cells make up every shape. -/
theorem length_of_mem_Type_Five {l : List Point} (h : l ∈ Type_Five_L_ALL) : l.length = 5 ∧ l.Nodup := by
  obtain ⟨axisX, hX, axisY, hY, x, hx, y, hy, rfl⟩ := mem_Type_Five_L_ALL.1 h
  exact crossing_five ⟨axisX, hX⟩ ⟨axisY, hY⟩ ⟨x, hx⟩ ⟨y, hy⟩

/-- The cells of one piece of a length. -/
def Shape (_len : Int) (l : List Point) : Prop :=
  (∃ (a : Axis) (c i n : Nat), n = _len ∧ 3 ≤ n ∧ c < SIZE ∧ i + n ≤ SIZE ∧ l = segment a c i n) ∨
    _len = 5 ∧ l ∈ Type_Five_L_ALL

/-- No straight segment of the length is free, where `do_job` has a piece of that length. -/
def Crowded (table : Canvas) (_len : Int) : Prop :=
  ∀ n : Nat, n = _len → 3 ≤ n → n ≤ SIZE → ∀ a c i, ¬Free table a c i n

/-- What one request plants: a piece of its length on free cells, or nothing for want of a straight segment. -/
def Piece (table : Canvas) (_len : Int) (l : List Point) : Prop :=
  Shape _len l ∧ (∀ p ∈ l, table p = 0) ∨ l = [] ∧ Crowded table _len

theorem piece_straight {table : Canvas} {n : Nat} (hn : 3 ≤ n) {l : List Point}
    (h : (∃ a c i, Free table a c i n ∧ l = segment a c i n) ∨ l = [] ∧ ∀ a c i, ¬Free table a c i n) :
    Piece table n l := by
  rcases h with ⟨a, c, i, hfree, rfl⟩ | ⟨rfl, hnone⟩
  · refine .inl ⟨.inl ⟨a, c, i, n, rfl, hn, hfree.line, hfree.inside, rfl⟩, fun p hp => ?_⟩
    obtain ⟨j, hij, hj, rfl⟩ := mem_segment.1 hp
    exact hfree.free j hij hj
  · refine .inr ⟨rfl, fun m hm _ _ => ?_⟩
    rw [Int.ofNat_inj.1 hm]
    exact hnone

/-- What the loop over `type_five` plants, in either order. -/
theorem always_placeFive (table : Canvas) (_type : Nat) {type_five : List Five} (hI : .I ∈ type_five) :
    Always (fun table' => ∃ l, Piece table 5 l ∧ table' = Set_type table _type l) (placeFive table _type type_five) := by
  induction type_five with
  | nil => cases hI
  | cons five type_five ih =>
    cases five with
    | L =>
      refine always_bind (always_Math_T table) fun l hl => ?_
      rcases hl with ⟨hmem, hfree⟩ | ⟨rfl, -⟩
      · have hne : l ≠ [] := List.ne_nil_of_length_pos (by rw [(length_of_mem_Type_Five hmem).1]; decide)
        rw [if_pos hne]
        exact always_pure ⟨l, .inl ⟨.inr ⟨rfl, hmem⟩, checkAllIn_iff.1 hfree⟩, rfl⟩
      · exact ih ((List.mem_cons.1 hI).resolve_left Five.noConfusion)
    | I =>
      refine always_bind (always_Math_I table (by decide)) fun l hl => always_pure ⟨l, ?_, rfl⟩
      exact piece_straight (by decide) hl

/-- Every request is placed, whatever the choices, and only on free cells. -/
theorem always_place (table : Canvas) (_type : Nat) (_len : Int) :
    Always (fun table' => ∃ l, Piece table _len l ∧ table' = Set_type table _type l) (place table _type _len) := by
  unfold place
  split
  · rename_i h
    subst h
    exact always_bind (always_shuffle [Five.L, Five.I]) fun type_five hperm =>
      always_placeFive table _type (hperm.mem_iff.2 (by decide))
  · split
    · rename_i h
      have hlen : ∃ n : Nat, n = _len ∧ 3 ≤ n := by
        simp only [List.mem_cons, List.not_mem_nil, or_false] at h
        exact ⟨_len.toNat, by omega, by omega⟩
      obtain ⟨n, rfl, hn⟩ := hlen
      refine always_bind (always_Math_I table (by simpa using (by omega : 1 ≤ n))) fun l hl => always_pure ⟨l, ?_, rfl⟩
      exact piece_straight hn hl
    · rename_i h
      refine always_pure ⟨[], .inr ⟨rfl, fun n hn h3 h8 => absurd ?_ h⟩, rfl⟩
      simp only [SIZE] at h8
      simp only [List.mem_cons, List.not_mem_nil, or_false]
      omega

end FishWeb.Xxl
