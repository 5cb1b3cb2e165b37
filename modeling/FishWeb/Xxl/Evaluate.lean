import FishWeb.Xxl.Canvas
import FishWeb.Xxl.Relevance
import FishWeb.Xxl.Runs
import Mathlib.Data.Finset.Card
/-!
# What a board yields

`xiaoxiaoleNumObj` and `xiaoxiaoleMgr.getResults` (`model/xiaoxiaoleModel.py`): for each
type the runs of at least three in the rows and the columns, grouped where they cross.

Left out: the tables of the cells on a run, which nothing reads.
-/
open Overlap

namespace FishWeb.Xxl

/-! ## The board -/

/-- `filter`: the runs of the rows, then those of the columns. -/
def pointList (canvas : Canvas) (num : Nat) : List (List Point) :=
  ((List.range HEIGHT).flatMap fun row =>
    (checkIncrease ((List.range WIDTH).filter fun col => canvas (row, col) = num)).map (·.map fun _y => (row, _y))) ++
  (List.range WIDTH).flatMap fun col =>
    (checkIncrease ((List.range HEIGHT).filter fun row => canvas (row, col) = num)).map (·.map fun _x => (_x, col))

structure Result where
  len : Nat
  coordinates : List Point
  type : Nat
  deriving Repr, DecidableEq

/-- `xiaoxiaoleNumObj(mgr, num).getResult()`. -/
def getResult (canvas : Canvas) (num : Nat) : Option (List Result) := do
  let copyPointList := pointList canvas num
  let (_, s) ← relevance (copyPointList.length + 1) [] [] true ⟨copyPointList, []⟩
  return s.resultLists.map fun _result => ⟨_result.length, _result, num⟩

/-- `getResults` of a board, type after type. -/
def getResults (canvas : Canvas) : Option (List Result) := do
  let results ← (List.range' 1 TYPECount).mapM (getResult canvas)
  return results.flatten

/-! ## The runs that a scan finds -/

theorem iterate_eq_range' (a n : Nat) : List.iterate (· + 1) a n = List.range' a n := by
  induction n generalizing a with
  | zero => rfl
  | succ n ih => exact congrArg (a :: ·) (ih (a + 1))

theorem checkIncrease_sound {L r : List Nat} (hL : L.Pairwise (· < ·)) (hr : r ∈ checkIncrease L) :
    ∃ a n, 3 ≤ n ∧ r = List.range' a n ∧ ∀ x ∈ r, x ∈ L := by
  obtain ⟨hpiece, hlen⟩ := (mem_checkIncrease hL).1 hr
  obtain ⟨a, tail, rfl⟩ := List.exists_cons_of_ne_nil (ne_nil_of_mem_pieces hpiece)
  have hrange := eq_iterate_of_isChain (List.isChain_of_mem_splitBy hpiece)
  refine ⟨a, tail.length + 1, hlen, by rwa [iterate_eq_range'] at hrange, fun x hx => ?_⟩
  exact flatten_pieces L ▸ List.mem_flatten.2 ⟨_, hpiece, hx⟩

theorem checkIncrease_complete {L : List Nat} (hL : L.Pairwise (· < ·)) {b m : Nat} (hm : 3 ≤ m)
    (hrun : ∀ x ∈ List.range' b m, x ∈ L) : ∃ r ∈ checkIncrease L, List.range' b m ⊆ r := by
  have hb := hrun b (List.mem_range'_1.2 (by omega))
  rw [← flatten_pieces L] at hb
  obtain ⟨r, hr, hbr⟩ := List.mem_flatten.1 hb
  -- the run goes on in the piece that it begins in
  have hin : ∀ i, i < m → b + i ∈ r := by
    intro i
    induction i with
    | zero => exact fun _ => hbr
    | succ i ih =>
      intro hi
      have hclosed := pieces_closed (fun _ _ => Nat.lt_iff_add_one_le) hL hr (x := b + i) (hrun _ (List.mem_range'_1.2 (by omega)))
        (hrun _ (List.mem_range'_1.2 (by omega)))
      exact hclosed.1 (ih (by omega))
  have hsub : List.range' b m ⊆ r := fun x hx => by
    obtain ⟨hlow, hhigh⟩ := List.mem_range'_1.1 hx
    simpa [Nat.add_sub_cancel' hlow] using hin (x - b) (by omega)
  refine ⟨r, (mem_checkIncrease hL).2 ⟨hr, ?_⟩, hsub⟩
  have hlen := ((List.nodup_range' 1).subperm hsub).length_le
  rw [List.length_range'] at hlen
  omega

/-! ## The runs on a board -/

/-- At least three cells of the type in a row or a column, next to each other. -/
def Run (canvas : Canvas) (t : Nat) (seg : List Point) : Prop :=
  ∃ a c i n, 3 ≤ n ∧ c < SIZE ∧ i + n ≤ SIZE ∧ seg = segment a c i n ∧ ∀ p ∈ seg, canvas p = t

theorem Run.ne_nil {canvas : Canvas} {t : Nat} {seg : List Point} (h : Run canvas t seg) : seg ≠ [] := by
  obtain ⟨a, c, i, n, hn, -, -, rfl, -⟩ := h
  intro hnil
  have := congrArg List.length hnil
  rw [length_segment, List.length_nil] at this
  omega

/-- The runs along an axis that `filter` finds. -/
def lineRuns (canvas : Canvas) (t : Nat) (a : Axis) : List (List Point) :=
  (List.range SIZE).flatMap fun c =>
    (checkIncrease ((List.range SIZE).filter fun i => canvas (a.cell c i) = t)).map (·.map (a.cell c))

theorem pointList_eq (canvas : Canvas) (t : Nat) : pointList canvas t = lineRuns canvas t .Y ++ lineRuns canvas t .X := rfl

theorem run_of_mem_lineRuns {canvas : Canvas} {t : Nat} {a : Axis} {seg : List Point} (h : seg ∈ lineRuns canvas t a) :
    Run canvas t seg := by
  obtain ⟨c, hc, hseg⟩ := List.mem_flatMap.1 h
  obtain ⟨r, hr, rfl⟩ := List.mem_map.1 hseg
  obtain ⟨i, n, hn, rfl, hmem⟩ := checkIncrease_sound (List.pairwise_lt_range.filter _) hr
  have hcell : ∀ x, i ≤ x → x < i + n → x < SIZE ∧ canvas (a.cell c x) = t := fun x hle hlt => by
    have := List.mem_filter.1 (hmem x (List.mem_range'_1.2 ⟨hle, hlt⟩))
    exact ⟨List.mem_range.1 this.1, of_decide_eq_true this.2⟩
  refine ⟨a, c, i, n, hn, List.mem_range.1 hc, ?_, rfl, fun p hp => ?_⟩
  · have := (hcell (i + n - 1) (by omega) (by omega)).1
    omega
  · obtain ⟨x, hx, rfl⟩ := List.mem_map.1 hp
    obtain ⟨hle, hlt⟩ := List.mem_range'_1.1 hx
    exact (hcell x hle hlt).2

theorem run_of_mem {canvas : Canvas} {t : Nat} {seg : List Point} (h : seg ∈ pointList canvas t) : Run canvas t seg := by
  rw [pointList_eq] at h
  exact (List.mem_append.1 h).elim run_of_mem_lineRuns run_of_mem_lineRuns

/-- Every run is part of one in the point list. -/
theorem exists_mem_of_run {canvas : Canvas} {t : Nat} {seg : List Point} (h : Run canvas t seg) :
    ∃ b ∈ pointList canvas t, seg ⊆ b := by
  obtain ⟨a, c, i, n, hn, hc, hi, rfl, hcells⟩ := h
  have hrun : ∀ x ∈ List.range' i n, x ∈ (List.range SIZE).filter fun x => canvas (a.cell c x) = t := fun x hx => by
    refine List.mem_filter.2 ⟨List.mem_range.2 ?_, decide_eq_true (hcells _ (List.mem_map_of_mem hx))⟩
    have := List.mem_range'_1.1 hx
    omega
  obtain ⟨r, hr, hsub⟩ := checkIncrease_complete (List.pairwise_lt_range.filter _) hn hrun
  have hline : r.map (a.cell c) ∈ lineRuns canvas t a :=
    List.mem_flatMap.2 ⟨c, List.mem_range.2 hc, List.mem_map_of_mem hr⟩
  refine ⟨_, ?_, List.map_subset _ hsub⟩
  rw [pointList_eq, List.mem_append]
  cases a with
  | X => exact .inr hline
  | Y => exact .inl hline

/-! ## What the results are -/

/-- The cell lies in a run of the type. -/
def OnRun (canvas : Canvas) (t : Nat) (p : Point) : Prop := ∃ seg, Run canvas t seg ∧ p ∈ seg

/-- A chain of runs of the type, each sharing a cell with the next, leads from cell to cell. -/
def Chained (canvas : Canvas) (t : Nat) (p q : Point) : Prop :=
  ∃ a b, Run canvas t a ∧ p ∈ a ∧ q ∈ b ∧ LinkedBy (Run canvas t) a b

/-- The results are the cells on runs of the type, grouped by chains of runs, once each. -/
structure Exact (canvas : Canvas) (t : Nat) (rs : List Result) : Prop where
  nodup : ∀ r ∈ rs, r.coordinates.Nodup
  disjoint : rs.Pairwise fun r r' => r.coordinates.Disjoint r'.coordinates
  union : ∀ p, (∃ r ∈ rs, p ∈ r.coordinates) ↔ OnRun canvas t p
  grouped : ∀ p q, (∃ r ∈ rs, p ∈ r.coordinates ∧ q ∈ r.coordinates) ↔ Chained canvas t p q
  len : ∀ r ∈ rs, r.len = r.coordinates.toFinset.card

/-- The results of one type are the components of its runs. -/
theorem getResult_groups (canvas : Canvas) (t : Nat) : ∃ groups, Components (pointList canvas t) groups ∧
    getResult canvas t = some (groups.map fun _result => ⟨_result.length, _result, t⟩) := by
  obtain ⟨groups, hrun, hcomp⟩ := relevance_first ((pointList canvas t).length + 1) ⟨pointList canvas t, []⟩
    (fun a ha => (run_of_mem ha).ne_nil) (Nat.lt_succ_self _)
  refine ⟨groups, hcomp, ?_⟩
  simp only [getResult, hrun]
  rfl

/-- The results of one type. -/
theorem getResult_exact (canvas : Canvas) (t : Nat) :
    ∃ rs, getResult canvas t = some rs ∧ (∀ r ∈ rs, r.type = t) ∧ Exact canvas t rs := by
  have hne : ∀ a ∈ pointList canvas t, a ≠ [] := fun a ha => (run_of_mem ha).ne_nil
  obtain ⟨groups, hcomp, hrun⟩ := getResult_groups canvas t
  refine ⟨_, hrun, ?_, ?_, ?_, fun p => ?_, fun p q => ?_, ?_⟩
  · exact List.forall_mem_map.2 fun r _ => rfl
  · exact List.forall_mem_map.2 hcomp.nodup
  · exact List.pairwise_map.2 hcomp.disjoint
  · have hmem := hcomp.mem_iff p
    simp only [List.mem_map, exists_exists_and_eq_and, OnRun]
    rw [hmem]
    exact ⟨fun ⟨a, ha, hp⟩ => ⟨a, run_of_mem ha, hp⟩, fun ⟨a, ha, hp⟩ =>
      (exists_mem_of_run ha).imp fun b ⟨hb, hsub⟩ => ⟨hb, hsub hp⟩⟩
  · have hchain := hcomp.chained_iff hne (fun a => run_of_mem) (fun a => exists_mem_of_run) p q
    simp only [List.mem_map, exists_exists_and_eq_and]
    exact hchain
  · exact List.forall_mem_map.2 fun r hr => (List.toFinset_card_of_nodup (hcomp.nodup r hr)).symm

/-- No result is empty. -/
theorem getResult_ne_nil {canvas : Canvas} {t : Nat} {rs : List Result} (h : getResult canvas t = some rs) :
    ∀ r ∈ rs, r.coordinates ≠ [] := by
  obtain ⟨groups, hcomp, hrun⟩ := getResult_groups canvas t
  rw [hrun] at h
  cases h
  refine List.forall_mem_map.2 fun group hgroup => ?_
  obtain ⟨a, ha, hmem⟩ := hcomp.component group hgroup
  obtain ⟨p, hp⟩ := List.exists_mem_of_ne_nil a (run_of_mem ha).ne_nil
  exact List.ne_nil_of_mem ((hmem p).2 ⟨a, .refl, hp⟩)

/-- Of results that carry their type, those of one type. -/
theorem filter_flatMap_type {f : Nat → List Result} (hf : ∀ t, ∀ r ∈ f t, r.type = t) {ts : List Nat} (hnd : ts.Nodup)
    {t : Nat} (ht : t ∈ ts) : (ts.flatMap f).filter (·.type = t) = f t := by
  induction ts with
  | nil => cases ht
  | cons u ts ih =>
    rw [List.flatMap_cons, List.filter_append]
    obtain ⟨hu, hnd⟩ := List.nodup_cons.1 hnd
    by_cases hut : u = t
    · subst hut
      have hrest : (ts.flatMap f).filter (·.type = u) = [] := by
        refine List.filter_eq_nil_iff.2 fun r hr => ?_
        obtain ⟨v, hv, hr⟩ := List.mem_flatMap.1 hr
        have hne : v ≠ u := fun he => hu (he ▸ hv)
        simpa [hf v r hr] using hne
      rw [hrest, List.append_nil, List.filter_eq_self]
      exact fun r hr => by simpa using hf u r hr
    · have hhead : (f u).filter (·.type = t) = [] :=
        List.filter_eq_nil_iff.2 fun r hr => by simpa [hf u r hr] using hut
      rw [hhead, List.nil_append]
      exact ih hnd ((List.mem_cons.1 ht).resolve_left (Ne.symm hut))

/-- The results of a board, type after type. -/
theorem getResults_types (canvas : Canvas) : ∃ f : Nat → List Result,
    getResults canvas = some ((List.range' 1 TYPECount).flatMap f) ∧
      (∀ t, getResult canvas t = some (f t) ∧ (∀ r ∈ f t, r.type = t) ∧ Exact canvas t (f t)) ∧
      ∀ t, 1 ≤ t → t ≤ TYPECount → ((List.range' 1 TYPECount).flatMap f).filter (·.type = t) = f t := by
  choose f hf using getResult_exact canvas
  have hmap : getResult canvas = fun t => pure (f t) := funext fun t => (hf t).1
  refine ⟨f, ?_, hf, fun t h1 h5 => ?_⟩
  · rw [getResults, hmap, List.mapM_pure, List.flatMap_def]
    rfl
  · exact filter_flatMap_type (fun t => (hf t).2.1) (List.nodup_range' 1) (List.mem_range'_1.2 (by omega))

/-- For every board and type: the results of the type are the cells on its runs, grouped by chains of runs. -/
theorem getResults_exact (canvas : Canvas) :
    ∃ rs, getResults canvas = some rs ∧ (∀ r ∈ rs, 1 ≤ r.type ∧ r.type ≤ TYPECount) ∧
      ∀ t, 1 ≤ t → t ≤ TYPECount → Exact canvas t (rs.filter (·.type = t)) := by
  obtain ⟨f, hrun, hf, hfilter⟩ := getResults_types canvas
  refine ⟨_, hrun, fun r hr => ?_, fun t h1 h5 => ?_⟩
  · obtain ⟨t, ht, hr⟩ := List.mem_flatMap.1 hr
    rw [(hf t).2.1 r hr]
    have := List.mem_range'_1.1 ht
    omega
  · rw [hfilter t h1 h5]
    exact (hf t).2.2

end FishWeb.Xxl
