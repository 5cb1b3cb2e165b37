import FishWeb.Lib.Dict
import FishWeb.Lib.Python
import FishWeb.Lib.Weights
import FishWeb.Xxl.Canvas
/-!
# A board by chance

`getCanvas_by_chance` of `model/xiaoxiaoleModel.py`: each cell has a kind that is drawn with
the weights of a table. `num` is what `random.randrange` gives.
-/
open Python Weights

namespace FishWeb.Xxl

variable {κ : Type} [LinearOrder κ]

/-- A chance table. -/
structure ChanceTable (κ : Type) where
  entries : List (κ × Int)
  nodup : (Dict.keys entries).Nodup
  nonneg : ∀ x ∈ entries, 0 ≤ x.2

/-- `chance_table[_kind]` -/
def ChanceTable.weight (chance_table : ChanceTable κ) (_kind : κ) : Int := Dict.get chance_table.entries _kind 0

/-- `sum(chance_table.values())` -/
def ChanceTable.sum (chance_table : ChanceTable κ) : Int := (chance_table.entries.map Prod.snd).sum

/-- `sorted(chance_table.keys())` -/
def ChanceTable.sorted (chance_table : ChanceTable κ) : List κ := (Dict.keys chance_table.entries).mergeSort (· ≤ ·)

/-- `random.randrange(1, stop)` raises where the range is empty. -/
def randrange (stop num : Int) : Except Err Int := if 1 < stop then .ok num else .error .ValueError

/-- `random_type`: `tmp_num` is the sum of the weights so far. -/
def random_type (num : Int) (chance_table : ChanceTable κ) : Except Err (Option κ) := do
  let num ← randrange (chance_table.sum + 1) num
  return choose chance_table.weight num chance_table.sorted 0

/-- `getRandomType` -/
def getRandomType (nums : Nat → Int) (chance_table : ChanceTable κ) : Except Err (List (Option κ)) :=
  (List.range (HEIGHT * WIDTH)).mapM fun _c => random_type (nums _c) chance_table

/-! ## The kinds -/

namespace ChanceTable

variable (t : ChanceTable κ)

theorem mem_sorted {k : κ} : k ∈ t.sorted ↔ k ∈ Dict.keys t.entries := List.mem_mergeSort

theorem nodup_sorted : t.sorted.Nodup := (List.mergeSort_perm _ _).nodup_iff.2 t.nodup

theorem weight_of_mem {x : κ × Int} (hx : x ∈ t.entries) : t.weight x.1 = x.2 := by
  have hlookup : t.entries.lookup x.1 = some x.2 := by
    obtain ⟨before, after, heq⟩ := List.append_of_mem hx
    refine List.lookup_eq_some_iff.2 ⟨before, after, heq, fun y hy => bne_iff_ne.2 fun hxy => ?_⟩
    have hnd := t.nodup
    rw [heq, Dict.keys, List.map_append, List.map_cons] at hnd
    exact (List.nodup_append.1 hnd).2.2 _ (List.mem_map_of_mem hy) _ List.mem_cons_self hxy.symm
  rw [weight, Dict.get, hlookup, Option.getD_some]

theorem weight_nonneg (k : κ) : 0 ≤ t.weight k := by
  unfold weight Dict.get
  cases h : t.entries.lookup k with
  | none => exact Int.le_refl 0
  | some v => exact t.nonneg _ (Dict.mem_of_lookup h)

/-- The weights of the kinds add up to those of the table, in whatever order. -/
theorem total_sorted : total t.weight t.sorted = t.sum := by
  have hperm : (t.sorted.map t.weight).Perm ((Dict.keys t.entries).map t.weight) := (List.mergeSort_perm _ _).map _
  rw [total, hperm.sum_eq, Dict.keys, List.map_map, ChanceTable.sum]
  exact congrArg List.sum (List.map_congr_left fun x hx => t.weight_of_mem hx)

end ChanceTable

/-- A draw that `random` can give is answered by the choice. -/
theorem random_type_eq {t : ChanceTable κ} (hS : 0 < t.sum) (num : Int) :
    random_type num t = .ok (choose t.weight num t.sorted 0) := by
  unfold random_type randrange
  rw [if_pos (by omega)]
  rfl

/-- Every draw has a kind, and that has a weight. -/
theorem random_type_kind {t : ChanceTable κ} {num : Int} (hlow : 1 ≤ num) (hhigh : num ≤ t.sum) :
    ∃ k, random_type num t = .ok (some k) ∧ k ∈ Dict.keys t.entries ∧ 0 < t.weight k := by
  have hw : ∀ k ∈ t.sorted, 0 ≤ t.weight k := fun k _ => t.weight_nonneg k
  rw [random_type_eq (by omega)]
  cases hchoose : choose t.weight num t.sorted 0 with
  | none =>
    have := (choose_eq_none_iff hw (by omega)).1 hchoose
    rw [t.total_sorted] at this
    omega
  | some k =>
    obtain ⟨hk, hpos⟩ := pos_of_choose hw (by omega) hchoose
    exact ⟨k, rfl, t.mem_sorted.1 hk, hpos⟩

/-- For every table with a positive sum: each kind has as many draws as its weight, each draw has a kind, and that has a weight. -/
theorem random_type_exact (t : ChanceTable κ) (hS : 0 < t.sum) :
    (∀ k ∈ Dict.keys t.entries,
      (((Finset.Icc 1 t.sum).filter fun num => random_type num t = .ok (some k)).card : Int) = t.weight k) ∧
    ∀ num, 1 ≤ num → num ≤ t.sum →
      ∃ k, random_type num t = .ok (some k) ∧ k ∈ Dict.keys t.entries ∧ 0 < t.weight k := by
  refine ⟨fun k hk => ?_, fun num hlow hhigh => random_type_kind hlow hhigh⟩
  simp only [random_type_eq hS, Except.ok.injEq]
  rw [← t.total_sorted]
  exact card_draws (fun k _ => t.weight_nonneg k) t.nodup_sorted (t.mem_sorted.2 hk)

/-- Kinds 2, 1 and 3, of which the second has no weight. -/
def threeKinds : ChanceTable Nat := ⟨[(2, 3), (1, 0), (3, 1)], by decide, by decide⟩

theorem random_type_exact_three :
    0 < threeKinds.sum ∧
    (∀ k ∈ Dict.keys threeKinds.entries,
      (((Finset.Icc 1 threeKinds.sum).filter fun num => random_type num threeKinds = .ok (some k)).card : Int) =
        threeKinds.weight k) ∧
    ∀ num, 1 ≤ num → num ≤ threeKinds.sum →
      ∃ k, random_type num threeKinds = .ok (some k) ∧ k ∈ Dict.keys threeKinds.entries ∧ 0 < threeKinds.weight k :=
  ⟨by decide, random_type_exact threeKinds (by decide)⟩

/-- A board has a kind with a weight in each cell. -/
theorem getRandomType_kinds {t : ChanceTable κ} {nums : Nat → Int} (hnums : ∀ c, 1 ≤ nums c ∧ nums c ≤ t.sum) :
    ∃ kinds : List κ, getRandomType nums t = .ok (kinds.map some) ∧ kinds.length = HEIGHT * WIDTH ∧
      ∀ k ∈ kinds, k ∈ Dict.keys t.entries ∧ 0 < t.weight k := by
  choose f hf using fun c => random_type_kind (hnums c).1 (hnums c).2
  refine ⟨(List.range (HEIGHT * WIDTH)).map f, ?_, by simp, ?_⟩
  · rw [List.map_map]
    exact mapM_ok fun c _ => (hf c).1
  · exact List.forall_mem_map.2 fun c _ => (hf c).2

end FishWeb.Xxl
