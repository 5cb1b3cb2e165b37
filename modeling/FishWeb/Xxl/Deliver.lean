import Mathlib.Data.List.ReduceOption
import FishWeb.Xxl.Evaluate
import FishWeb.Xxl.Maths
/-!
# What was requested is on the board

`Plot` holds after every piece of `do_job`, and `Filled` after every filler: a filler never
has its own type next to it, so every run on the board is made of planted cells, and the
evaluation finds the pieces.
-/
open Buckets Dice Function Overlap Python

namespace FishWeb.Xxl

/-! ## The pieces -/

theorem segment_subset_cells {a : Axis} {c i n : Nat} (hc : c < SIZE) (hi : i + n ≤ SIZE) : ∀ p ∈ segment a c i n, p ∈ cells := by
  intro p hp
  obtain ⟨j, hij, hj, rfl⟩ := mem_segment.1 hp
  exact (cell_mem_cells a).2 ⟨hc, by omega⟩

section Shape
variable {_len : Int} {l : List Point}

/-- A crossing of five is a row and a column of three that share a cell. -/
theorem exists_crossing (h : l ∈ Type_Five_L_ALL) : ∃ r c i j, r < SIZE ∧ c < SIZE ∧ i + 3 ≤ SIZE ∧ j + 3 ≤ SIZE ∧
    (∀ p, p ∈ l ↔ p ∈ segment .Y r i 3 ∨ p ∈ segment .X c j 3) ∧ Meet (segment .Y r i 3) (segment .X c j 3) := by
  obtain ⟨axisX, hX, axisY, hY, x, hx, y, hy, rfl⟩ := mem_Type_Five_L_ALL.1 h
  refine ⟨axisX + x, axisY + y, axisY, axisX, ?_, ?_, ?_, ?_, fun p => mem_crossing, ?_⟩
  · simp only [SIZE]; omega
  · simp only [SIZE]; omega
  · simp only [SIZE]; omega
  · simp only [SIZE]; omega
  · refine ⟨(axisX + x, axisY + y), ?_, ?_⟩
    · exact (cell_mem_segment (a := .Y)).2 ⟨by omega, by omega⟩
    · exact (cell_mem_segment (a := .X)).2 ⟨by omega, by omega⟩

theorem Shape.mem_cells (h : Shape _len l) : ∀ p ∈ l, p ∈ cells := by
  rcases h with ⟨a, c, i, n, -, -, hc, hi, rfl⟩ | ⟨-, hl⟩
  · exact segment_subset_cells hc hi
  · obtain ⟨r, c, i, j, hr, hc, hi, hj, hmem, -⟩ := exists_crossing hl
    exact fun p hp => ((hmem p).1 hp).elim (segment_subset_cells hr hi p) (segment_subset_cells hc hj p)

theorem Shape.length_eq (h : Shape _len l) : (l.length : Int) = _len ∧ l.Nodup := by
  rcases h with ⟨a, c, i, n, rfl, -, -, -, rfl⟩ | ⟨rfl, hl⟩
  · exact ⟨by rw [length_segment], nodup_segment a c i n⟩
  · obtain ⟨hlen, hnd⟩ := length_of_mem_Type_Five hl
    exact ⟨by rw [hlen]; rfl, hnd⟩

theorem Shape.ne_nil (h : Shape _len l) : l ≠ [] := by
  rcases h with ⟨a, c, i, n, -, hn, -, -, rfl⟩ | ⟨-, hl⟩
  · exact List.ne_nil_of_length_pos (by rw [length_segment]; omega)
  · exact List.ne_nil_of_length_pos (by rw [(length_of_mem_Type_Five hl).1]; decide)

/-- The runs of a piece lead from each of its cells to each. -/
theorem Shape.chained (h : Shape _len l) {board : Canvas} {t : Nat} (hl : ∀ p ∈ l, board p = t) :
    ∀ p ∈ l, ∀ q ∈ l, Chained board t p q := by
  rcases h with ⟨a, c, i, n, -, hn, hc, hi, rfl⟩ | ⟨-, hfive⟩
  · have hrun : Run board t (segment a c i n) := ⟨a, c, i, n, hn, hc, hi, rfl, hl⟩
    exact fun p hp q hq => ⟨_, _, hrun, hp, hq, .refl⟩
  · obtain ⟨r, c, i, j, hr, hc, hi, hj, hmem, hmeet⟩ := exists_crossing hfive
    have hrow : Run board t (segment .Y r i 3) := ⟨.Y, r, i, 3, by decide, hr, hi, rfl, fun p hp => hl p ((hmem p).2 (.inl hp))⟩
    have hcol : Run board t (segment .X c j 3) := ⟨.X, c, j, 3, by decide, hc, hj, rfl, fun p hp => hl p ((hmem p).2 (.inr hp))⟩
    intro p hp q hq
    rcases (hmem p).1 hp with hp | hp <;> rcases (hmem q).1 hq with hq | hq
    · exact ⟨_, _, hrow, hp, hq, .refl⟩
    · exact ⟨_, _, hrow, hp, hq, .single ⟨hcol, hmeet⟩⟩
    · exact ⟨_, _, hcol, hp, hq, .single ⟨hrow, hmeet.symm⟩⟩
    · exact ⟨_, _, hcol, hp, hq, .refl⟩

end Shape

/-! ## Planting -/

/-- The cells of the type are one piece of the length, or there are none for want of a straight segment. -/
def OnePiece (table : Canvas) (_type : Nat) (_len : Int) : Prop :=
  (∃ l, Shape _len l ∧ ∀ p, table p = _type ↔ p ∈ l) ∨ (∀ p, table p ≠ _type) ∧ Crowded table _len

/-- The table after the requests `done`. -/
structure Plot (done : List (Nat × Int)) (table : Canvas) : Prop where
  taken : ∀ p, table p ≠ 0 → p ∈ cells ∧ ∃ r ∈ done, r.1 = table p
  once : ∀ t _len, t ≠ 0 → done.filter (·.1 = t) = [(t, _len)] → OnePiece table t _len

section Plant
variable {done : List (Nat × Int)} {table : Canvas} {_type : Nat} {_len : Int} {l : List Point}

theorem Piece.free (h : Piece table _len l) : ∀ p ∈ l, table p = 0 := by
  rcases h with ⟨-, hfree⟩ | ⟨rfl, -⟩
  · exact hfree
  · exact fun p hp => nomatch hp

theorem Piece.mem_cells (h : Piece table _len l) : ∀ p ∈ l, p ∈ cells := by
  rcases h with ⟨hshape, -⟩ | ⟨rfl, -⟩
  · exact hshape.mem_cells
  · exact fun p hp => nomatch hp

/-- No segment gets free. -/
theorem Crowded.set_type (h : Crowded table _len) (ht : _type ≠ 0) (l : List Point) : Crowded (Set_type table _type l) _len := by
  refine fun n hn h3 h8 a c i hfree => h n hn h3 h8 a c i ⟨hfree.line, hfree.inside, fun j hij hj => ?_⟩
  have hcell := hfree.free j hij hj
  rw [Set_type_apply] at hcell
  split at hcell
  · exact absurd hcell ht
  · exact hcell

/-- A piece of another type leaves the piece of a type as it is. -/
theorem OnePiece.other {t : Nat} {L : Int} (h : OnePiece table t L) (ht : t ≠ 0) (hl : ∀ p ∈ l, table p = 0)
    (htype : _type ≠ 0) (hne : _type ≠ t) : OnePiece (Set_type table _type l) t L := by
  have hcell : ∀ p, Set_type table _type l p = t ↔ table p = t := fun p => by
    rw [Set_type_apply]
    split
    · rename_i hp
      rw [hl p hp]
      exact iff_of_false hne (Ne.symm ht)
    · exact Iff.rfl
  simp only [OnePiece, hcell, ne_eq]
  exact h.imp_right fun ⟨hno, hcrowded⟩ => ⟨hno, hcrowded.set_type htype l⟩

/-- The only request of a type. -/
theorem OnePiece.first (h : ∀ p, table p ≠ _type) (hl : Piece table _len l) :
    OnePiece (Set_type table _type l) _type _len := by
  rcases hl with ⟨hshape, -⟩ | ⟨rfl, hcrowded⟩
  · refine .inl ⟨l, hshape, fun p => ?_⟩
    rw [Set_type_apply]
    split
    · rename_i hp
      exact iff_of_true rfl hp
    · rename_i hp
      exact iff_of_false (h p) hp
  · exact .inr ⟨h, hcrowded⟩

/-- One request. -/
theorem Plot.place (h : Plot done table) (ht : _type ≠ 0) (hl : Piece table _len l) :
    Plot (done ++ [(_type, _len)]) (Set_type table _type l) where
  taken p hp := by
    rw [Set_type_apply] at hp ⊢
    split at hp
    · rename_i hpl
      rw [if_pos hpl]
      exact ⟨hl.mem_cells p hpl, _, List.mem_append_right done (List.mem_singleton_self _), rfl⟩
    · rename_i hpl
      rw [if_neg hpl]
      obtain ⟨hcells, r, hr, htype⟩ := h.taken p hp
      exact ⟨hcells, r, List.mem_append_left _ hr, htype⟩
  once t L ht0 hfilter := by
    rw [List.filter_append] at hfilter
    by_cases htype : _type = t
    · subst htype
      rw [List.filter_singleton] at hfilter
      simp only [decide_true, cond_true] at hfilter
      obtain ⟨hnone, hlast⟩ := List.append_eq_singleton_iff.1 hfilter |>.resolve_right fun h' => by cases h'.2
      cases hlast
      refine .first (fun p hp => ?_) hl
      obtain ⟨-, r, hr, hrp⟩ := h.taken p (hp ▸ ht0)
      have : r ∈ done.filter (·.1 = _type) := List.mem_filter.2 ⟨hr, decide_eq_true (hrp.trans hp)⟩
      rw [hnone] at this
      cases this
    · rw [List.filter_singleton] at hfilter
      simp only [htype, decide_false, cond_false, List.append_nil] at hfilter
      exact (h.once t L ht0 hfilter).other ht0 hl.free ht htype

/-- All requests, one after another. -/
theorem always_plant {requests : List (Nat × Int)} (h : ∀ r ∈ requests, r.1 ≠ 0) :
    Always (Plot requests) (plant requests fun _ => 0) := by
  refine always_foldlM_prefix (fun done r rest hreq table hplot => ?_) ⟨fun p hp => absurd rfl hp, fun t L _ hone => by cases hone⟩
  have hr : r.1 ≠ 0 := h r (by rw [hreq]; exact List.mem_append_right done List.mem_cons_self)
  refine (always_place table r.1 r.2).mono fun table' hl => ?_
  obtain ⟨l, hpiece, rfl⟩ := hl
  exact hplot.place hr hpiece

end Plant

/-! ## Filling -/

theorem neighbours_symm : ∀ p ∈ cells, ∀ q ∈ neighbours p, p ∈ neighbours q ∧ q ≠ p := by decide +kernel

theorem next_mem_neighbours (a : Axis) {c i : Nat} (hi : i + 1 < SIZE) : a.cell c (i + 1) ∈ neighbours (a.cell c i) := by
  have hahead : a.ahead (a.cell c i) = some (a.cell c (i + 1)) := by rw [ahead_cell, if_pos hi]
  rw [neighbours, List.reduceOption_mem_iff]
  cases a <;> simp [hahead]

theorem previous_mem_neighbours (a : Axis) (c i : Nat) : a.cell c i ∈ neighbours (a.cell c (i + 1)) := by
  have hbehind : a.behind (a.cell c (i + 1)) = some (a.cell c i) := by
    rw [behind_cell, if_pos (Nat.le_add_left 1 i), Nat.add_sub_cancel]
  rw [neighbours, List.reduceOption_mem_iff]
  cases a <;> simp [hbehind]

/-- The planted table after the fillers of the cells `done`. -/
structure Filled (planted : Canvas) (done : List Point) (table : Canvas) : Prop where
  kept : ∀ p, planted p ≠ 0 → table p = planted p
  taken : ∀ p ∈ done, table p ≠ 0
  filler : ∀ p, planted p = 0 → table p ≠ 0 → p ∈ cells ∧ table p ≤ TYPECount ∧ ∀ q ∈ neighbours p, table q ≠ table p

section Fill
variable {planted table : Canvas} {done : List Point} {p : Point}

theorem mem_ignores {q : Point} (hq : q ∈ neighbours p) (h : table q ≠ 0) : table q ∈ ignores table p :=
  List.mem_filter.2 ⟨List.mem_map_of_mem hq, decide_eq_true h⟩

/-- Four neighbours leave one of five types. -/
theorem choices_ne_nil (table : Canvas) (p : Point) : (List.range' 1 TYPECount).filter (· ∉ ignores table p) ≠ [] := by
  intro hnil
  have hsub : List.range' 1 TYPECount ⊆ ignores table p := fun x hx => by
    have := List.filter_eq_nil_iff.1 hnil x hx
    simpa using this
  have h5 : (List.range' 1 TYPECount).length ≤ (ignores table p).length :=
    ((List.nodup_range' 1).subperm hsub).length_le
  have h4 : (ignores table p).length ≤ 4 := by
    refine (List.length_filter_le _ _).trans ?_
    rw [List.length_map]
    exact List.reduceOption_length_le _
  rw [List.length_range'] at h5
  exact absurd (h5.trans h4) (by decide)

/-- A filler that no neighbour has. -/
theorem Filled.fill (h : Filled planted done table) (hp : p ∈ cells) (h0 : table p = 0) {x : Nat} (h1 : 1 ≤ x)
    (h5 : x ≤ TYPECount) (hx : x ∉ ignores table p) : Filled planted (done ++ [p]) (update table p x) := by
  have hother : ∀ q ∈ neighbours p, table q ≠ x := fun q hq he => hx (he ▸ mem_ignores hq (by omega))
  have hfree : planted p = 0 := by
    by_contra hne
    exact hne (h.kept p hne ▸ h0)
  refine ⟨fun q hq => ?_, fun q hq => ?_, fun q hq hq0 => ?_⟩
  · have hne : q ≠ p := fun he => hq (he ▸ hfree)
    rw [update_of_ne hne, h.kept q hq]
  · by_cases hqp : q = p
    · rw [hqp, update_self]
      omega
    · rw [update_of_ne hqp]
      exact h.taken q ((List.mem_append.1 hq).resolve_right fun he => hqp (List.mem_singleton.1 he))
  · by_cases hqp : q = p
    · subst hqp
      rw [update_self]
      refine ⟨hp, h5, fun r hr => ?_⟩
      rw [update_of_ne (neighbours_symm q hp r hr).2]
      exact hother r hr
    · rw [update_of_ne hqp] at hq0 ⊢
      obtain ⟨hcells, hle, hdiff⟩ := h.filler q hq hq0
      refine ⟨hcells, hle, fun r hr => ?_⟩
      by_cases hrp : r = p
      · -- the new filler is a neighbour of an old one, which it avoids
        subst hrp
        rw [update_self]
        exact (hother q (neighbours_symm q hcells r hr).1).symm
      · rw [update_of_ne hrp]
        exact hdiff r hr

theorem always_fill (h : Filled planted done table) (hp : p ∈ cells) : Always (Filled planted (done ++ [p])) (fill table p) := by
  unfold Xxl.fill
  split
  · rename_i h0
    refine always_bind (always_choice _ (choices_ne_nil table p)) fun x hx => always_pure ?_
    obtain ⟨hrange, hign⟩ := List.mem_filter.1 hx
    have hbound := List.mem_range'_1.1 hrange
    exact h.fill hp h0 hbound.1 (by omega) (of_decide_eq_true hign)
  · rename_i h0
    refine always_pure ⟨h.kept, fun q hq => ?_, h.filler⟩
    rcases List.mem_append.1 hq with hq | hq
    · exact h.taken q hq
    · rw [List.mem_singleton.1 hq]
      exact h0

/-- All cells, one after another. -/
theorem always_full_table (planted : Canvas) : Always (Filled planted cells) (full_table planted) := by
  refine always_foldlM_prefix (fun done p rest hcells table h => ?_)
    ⟨fun p _ => rfl, fun p hp => (nomatch hp), fun p h0 hne => absurd h0 hne⟩
  exact always_fill h (by rw [hcells]; exact List.mem_append_right done List.mem_cons_self)

end Fill

/-! ## The evaluation of the board -/

section Board
variable {planted board : Canvas} {t : Nat}

/-- The cells of the runs are planted ones: a filler has no neighbour of its type. -/
theorem Filled.planted_of_onRun (h : Filled planted cells board) {p : Point} (hrun : OnRun board t p) : planted p = t := by
  obtain ⟨seg, ⟨a, c, i, n, hn, hc, hi, rfl, hseg⟩, hp⟩ := hrun
  have hcells : p ∈ cells := segment_subset_cells hc hi p hp
  have hnext : ∃ q ∈ neighbours p, q ∈ segment a c i n := by
    obtain ⟨j, hij, hj, rfl⟩ := mem_segment.1 hp
    by_cases hlast : j + 1 < i + n
    · exact ⟨a.cell c (j + 1), next_mem_neighbours a (by omega), cell_mem_segment.2 ⟨by omega, hlast⟩⟩
    · obtain ⟨k, rfl⟩ : ∃ k, j = k + 1 := ⟨j - 1, by omega⟩
      exact ⟨a.cell c k, previous_mem_neighbours a c k, cell_mem_segment.2 ⟨by omega, by omega⟩⟩
  obtain ⟨q, hq, hqseg⟩ := hnext
  have hplanted : planted p ≠ 0 := fun h0 => by
    refine (h.filler p h0 (h.taken p hcells)).2.2 q hq ?_
    rw [hseg q hqseg, hseg p hp]
  rw [← h.kept p hplanted, hseg p hp]

theorem Chained.onRun {p q : Point} (h : Chained board t p q) : OnRun board t p := by
  obtain ⟨a, -, ha, hp, -⟩ := h
  exact ⟨a, ha, hp⟩

variable {rs : List Result}

theorem Exact.eq_nil (h : Exact board t rs) (hne : ∀ r ∈ rs, r.coordinates ≠ []) (hno : ∀ p, ¬OnRun board t p) : rs = [] := by
  refine List.eq_nil_iff_forall_not_mem.2 fun r hr => ?_
  obtain ⟨p, hp⟩ := List.exists_mem_of_ne_nil _ (hne r hr)
  exact hno p ((h.union p).1 ⟨r, hr, hp⟩)

/-- Cells that are all chained to each other are one result. -/
theorem Exact.single (h : Exact board t rs) (hne : ∀ r ∈ rs, r.coordinates ≠ []) {l : List Point} (hl : l ≠ [])
    (honly : ∀ p, OnRun board t p → p ∈ l) (hchain : ∀ p ∈ l, ∀ q ∈ l, Chained board t p q) :
    ∃ r, rs = [r] ∧ ∀ p, p ∈ r.coordinates ↔ p ∈ l := by
  obtain ⟨p, hp⟩ := List.exists_mem_of_ne_nil l hl
  obtain ⟨r, hr, hpr⟩ := (h.union p).2 (hchain p hp p hp).onRun
  have hsymm : Std.Symm fun r r' : Result => r.coordinates.Disjoint r'.coordinates := ⟨fun _ _ hd => hd.symm⟩
  have hsame : ∀ r' ∈ rs, ∀ q ∈ r.coordinates, q ∈ r'.coordinates → r' = r := fun r' hr' q hq hq' => by
    by_contra hdiff
    exact h.disjoint.forall hr hr' (Ne.symm hdiff) hq hq'
  have hall : ∀ q ∈ l, q ∈ r.coordinates := fun q hq => by
    obtain ⟨r', hr', hpr', hqr'⟩ := (h.grouped p q).2 (hchain p hp q hq)
    exact hsame r' hr' p hpr hpr' ▸ hqr'
  have hrs : ∀ r' ∈ rs, r' = r := fun r' hr' => by
    obtain ⟨q, hq⟩ := List.exists_mem_of_ne_nil _ (hne r' hr')
    exact hsame r' hr' q (hall q (honly q ((h.union q).1 ⟨r', hr', hq⟩))) hq
  refine ⟨r, ?_, fun q => ⟨fun hq => honly q ((h.union q).1 ⟨r, hr, hq⟩), hall q⟩⟩
  -- a second copy of `r` would be disjoint from the first
  match rs, hr, hrs, h.disjoint with
  | [r'], _, hrs, _ => rw [hrs r' List.mem_cons_self]
  | r' :: r'' :: rest, _, hrs, hdisj =>
    have hr' := hrs r' List.mem_cons_self
    have hr'' := hrs r'' (List.mem_cons_of_mem r' List.mem_cons_self)
    have := (List.pairwise_cons.1 hdisj).1 r'' List.mem_cons_self
    rw [hr', hr''] at this
    exact absurd hpr (this hpr)

/-- What the evaluation finds of a type: one result, its planted cells, or nothing planted for want of a
straight segment, and no result. -/
def Delivered (planted : Canvas) (t : Nat) (_len : Int) (rs : List Result) : Prop :=
  (∃ r, rs = [r] ∧ r.coordinates.Nodup ∧ (r.coordinates.length : Int) = _len ∧ (r.len : Int) = _len ∧
    ∀ p, p ∈ r.coordinates ↔ planted p = t) ∨ rs = [] ∧ (∀ p, planted p ≠ t) ∧ Crowded planted _len

theorem Filled.delivered (h : Filled planted cells board) (ht : t ≠ 0) {_len : Int} (hone : OnePiece planted t _len)
    (hrs : Exact board t rs) (hne : ∀ r ∈ rs, r.coordinates ≠ []) : Delivered planted t _len rs := by
  rcases hone with ⟨l, hshape, hl⟩ | ⟨hno, hcrowded⟩
  · have hboard : ∀ p ∈ l, board p = t := fun p hp => by
      have htype := (hl p).2 hp
      rw [h.kept p (htype ▸ ht), htype]
    obtain ⟨r, rfl, hr⟩ := hrs.single hne hshape.ne_nil (fun p hp => (hl p).1 (h.planted_of_onRun hp)) (hshape.chained hboard)
    have hnd := hrs.nodup r (List.mem_singleton_self r)
    obtain ⟨hlen, hlnd⟩ := hshape.length_eq
    have hperm : r.coordinates.Perm l := (List.perm_ext_iff_of_nodup hnd hlnd).2 hr
    refine .inl ⟨r, rfl, hnd, by rw [hperm.length_eq, hlen], ?_, fun p => (hr p).trans (hl p).symm⟩
    rw [hrs.len r (List.mem_singleton_self r), List.toFinset_card_of_nodup hnd, hperm.length_eq, hlen]
  · exact .inr ⟨hrs.eq_nil hne fun p hp => hno p (h.planted_of_onRun hp), hno, hcrowded⟩

end Board

theorem ordered_perm (mathsList_type_len : List (Nat × Int)) : (ordered mathsList_type_len).Perm mathsList_type_len := by
  have hgather := flatMap_gather_perm (mathsList_type_len.map Prod.swap) (List.perm_insertionSort (· ≥ ·) _)
  have hswap := hgather.map Prod.swap
  rw [List.map_flatMap, List.map_map] at hswap
  simpa [ordered, Function.comp_def] using hswap

/-- The planted table, the board and its results, for requests of types that there are. -/
structure Job (mathsList_type_len : List (Nat × Int)) (planted board : Canvas) (results : List Result) : Prop where
  plot : Plot (ordered mathsList_type_len) planted
  filled : Filled planted cells board
  evaluated : getResults board = some results
  types : ∀ r ∈ results, 1 ≤ r.type ∧ r.type ≤ TYPECount
  exact : ∀ t, 1 ≤ t → t ≤ TYPECount → Exact board t (results.filter (·.type = t))
  ne_nil : ∀ r ∈ results, r.coordinates ≠ []

section Job
variable {mathsList_type_len : List (Nat × Int)} {planted board : Canvas} {results : List Result} {t : Nat}

/-- Nothing is on a run of a type that was not requested. -/
theorem Job.not_requested (h : Job mathsList_type_len planted board results) (h1 : 1 ≤ t) (h5 : t ≤ TYPECount)
    (hno : ∀ r ∈ mathsList_type_len, r.1 ≠ t) : results.filter (·.type = t) = [] := by
  have hne : ∀ r ∈ results.filter (·.type = t), r.coordinates ≠ [] := fun r hr => h.ne_nil r (List.mem_of_mem_filter hr)
  refine (h.exact t h1 h5).eq_nil hne fun p hp => ?_
  have htype := h.filled.planted_of_onRun hp
  obtain ⟨-, r, hr, hrp⟩ := h.plot.taken p (by omega)
  exact hno r ((ordered_perm mathsList_type_len).mem_iff.1 hr) (hrp.trans htype)

theorem Job.delivered (h : Job mathsList_type_len planted board results) (h1 : 1 ≤ t) (h5 : t ≤ TYPECount) {_len : Int}
    (hone : mathsList_type_len.filter (·.1 = t) = [(t, _len)]) : Delivered planted t _len (results.filter (·.type = t)) := by
  have hne : ∀ r ∈ results.filter (·.type = t), r.coordinates ≠ [] := fun r hr => h.ne_nil r (List.mem_of_mem_filter hr)
  have honce : (ordered mathsList_type_len).filter (·.1 = t) = [(t, _len)] :=
    List.perm_singleton.1 (hone ▸ (ordered_perm mathsList_type_len).filter _)
  exact h.filled.delivered (by omega) (h.plot.once t _len (by omega) honce) (h.exact t h1 h5) hne

end Job

/-- `do_job` returns, whatever it draws. -/
theorem run_do_job {mathsList_type_len : List (Nat × Int)} (h : ∀ r ∈ mathsList_type_len, 1 ≤ r.1 ∧ r.1 ≤ TYPECount) (σ : Draws) :
    ∃ planted σ' board σ'' results, plant (ordered mathsList_type_len) (fun _ => 0) σ = .ok (planted, σ') ∧
      full_table planted σ' = .ok (board, σ'') ∧ do_job mathsList_type_len σ = .ok (board, σ'') ∧
      Job mathsList_type_len planted board results := by
  have htypes : ∀ r ∈ ordered mathsList_type_len, r.1 ≠ 0 := fun r hr => by
    have := h r ((ordered_perm mathsList_type_len).mem_iff.1 hr)
    omega
  obtain ⟨planted, σ', hplant, hplot⟩ := always_plant htypes σ
  obtain ⟨board, σ'', hfull, hfilled⟩ := always_full_table planted σ'
  obtain ⟨f, hresults, hf, hfilter⟩ := getResults_types board
  have hof {r : Result} (hr : r ∈ (List.range' 1 TYPECount).flatMap f) : ∃ t ∈ List.range' 1 TYPECount, r ∈ f t :=
    List.mem_flatMap.1 hr
  refine ⟨planted, σ', board, σ'', _, hplant, hfull, ?_, hplot, hfilled, hresults, fun r hr => ?_, fun t h1 h5 => ?_, fun r hr => ?_⟩
  · show (plant (ordered mathsList_type_len) (fun _ => 0) σ >>= fun x => full_table x.1 x.2) = _
    rw [hplant]
    exact hfull
  · obtain ⟨t, ht, hrt⟩ := hof hr
    rw [(hf t).2.1 r hrt]
    have := List.mem_range'_1.1 ht
    omega
  · rw [hfilter t h1 h5]
    exact (hf t).2.2
  · obtain ⟨t, -, hrt⟩ := hof hr
    exact getResult_ne_nil (hf t).1 r hrt

/-- For all requests of types that there are, and all choices: a piece is only planted on free cells, the board
is full, and its evaluation finds of each type that was requested once the planted piece, and nothing of a type
that was not requested. -/
theorem do_job_delivers (mathsList_type_len : List (Nat × Int))
    (h : ∀ r ∈ mathsList_type_len, 1 ≤ r.1 ∧ r.1 ≤ TYPECount) :
    (∀ table _type _len, Always (fun table' => ∃ l, (∀ p ∈ l, table p = 0) ∧ table' = Set_type table _type l)
      (place table _type _len)) ∧
    ∀ σ, ∃ planted σ' board σ'' results, plant (ordered mathsList_type_len) (fun _ => 0) σ = .ok (planted, σ') ∧
      full_table planted σ' = .ok (board, σ'') ∧ do_job mathsList_type_len σ = .ok (board, σ'') ∧
      (∀ p ∈ cells, 1 ≤ board p ∧ board p ≤ TYPECount) ∧ (∀ p, planted p ≠ 0 → board p = planted p) ∧
      getResults board = some results ∧ ∀ t, 1 ≤ t → t ≤ TYPECount →
        ((∀ r ∈ mathsList_type_len, r.1 ≠ t) → results.filter (·.type = t) = []) ∧
        ∀ _len, mathsList_type_len.filter (·.1 = t) = [(t, _len)] →
          Delivered planted t _len (results.filter (·.type = t)) := by
  refine ⟨fun table _type _len => (always_place table _type _len).mono fun table' hl => ?_, fun σ => ?_⟩
  · obtain ⟨l, hpiece, hset⟩ := hl
    exact ⟨l, hpiece.free, hset⟩
  · obtain ⟨planted, σ', board, σ'', results, hplant, hfull, hrun, hjob⟩ := run_do_job h σ
    refine ⟨planted, σ', board, σ'', results, hplant, hfull, hrun, fun p hp => ?_, hjob.filled.kept, hjob.evaluated,
      fun t h1 h5 => ⟨hjob.not_requested h1 h5, fun _len => hjob.delivered h1 h5⟩⟩
    have hp0 := hjob.filled.taken p hp
    by_cases hplanted : planted p = 0
    · have := (hjob.filled.filler p hplanted hp0).2.1
      omega
    · obtain ⟨-, r, hr, htype⟩ := hjob.plot.taken p hplanted
      rw [hjob.filled.kept p hplanted, ← htype]
      exact h r ((ordered_perm mathsList_type_len).mem_iff.1 hr)

/-- Four pieces, of which two have the same type. -/
theorem do_job_delivers_four :
    (∀ table _type _len, Always (fun table' => ∃ l, (∀ p ∈ l, table p = 0) ∧ table' = Set_type table _type l)
      (place table _type _len)) ∧
    ∀ σ, ∃ planted σ' board σ'' results,
      plant (ordered [(1, 5), (2, 3), (5, 8), (2, 5)]) (fun _ => 0) σ = .ok (planted, σ') ∧
      full_table planted σ' = .ok (board, σ'') ∧ do_job [(1, 5), (2, 3), (5, 8), (2, 5)] σ = .ok (board, σ'') ∧
      (∀ p ∈ cells, 1 ≤ board p ∧ board p ≤ TYPECount) ∧ (∀ p, planted p ≠ 0 → board p = planted p) ∧
      getResults board = some results ∧ ∀ t, 1 ≤ t → t ≤ TYPECount →
        ((∀ r ∈ [((1 : Nat), (5 : Int)), (2, 3), (5, 8), (2, 5)], r.1 ≠ t) → results.filter (·.type = t) = []) ∧
        ∀ _len, [((1 : Nat), (5 : Int)), (2, 3), (5, 8), (2, 5)].filter (·.1 = t) = [(t, _len)] →
          Delivered planted t _len (results.filter (·.type = t)) :=
  do_job_delivers [(1, 5), (2, 3), (5, 8), (2, 5)] (by decide)

end FishWeb.Xxl
