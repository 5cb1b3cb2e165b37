import Mathlib.Data.List.Induction
import Mathlib.Data.List.Nodup
import Mathlib.Tactic.Common
/-!
# Dictionaries that add up

`d[k] = add(d.get(k, zero), v)` over a run of pairs: under each key what its values add up
to, in order. Which keys there are is the same whatever is added up.
-/

namespace Dict

variable {κ α β : Type} [DecidableEq κ]

/-- `d.get(k, zero)` -/
def get (d : List (κ × β)) (k : κ) (zero : β) : β := (d.lookup k).getD zero

/-- `d[k] = v` -/
def set : List (κ × β) → κ → β → List (κ × β)
  | [], k, v => [(k, v)]
  | (j, w) :: d, k, v => if j = k then (j, v) :: d else (j, w) :: set d k v

/-- `d.keys()` -/
def keys (d : List (κ × β)) : List κ := d.map Prod.fst

theorem lookup_set (d : List (κ × β)) (k j : κ) (v : β) : (set d k v).lookup j = if j = k then some v else d.lookup j := by
  induction d with
  | nil =>
    by_cases hj : j = k
    · simp [set, hj]
    · simp [set, List.lookup_cons, hj, beq_false_of_ne hj]
  | cons x d ih =>
    obtain ⟨i, w⟩ := x
    by_cases hi : i = k
    · by_cases hj : j = i
      · simp [set, hi, hj]
      · have hjk : j ≠ k := hi ▸ hj
        simp [set, hi, hjk, List.lookup_cons, beq_false_of_ne hjk]
    · by_cases hj : j = i
      · simp [set, hi, hj]
      · simp [set, hi, List.lookup_cons, beq_false_of_ne hj, ih]

theorem get_set (d : List (κ × β)) (k j : κ) (v zero : β) : get (set d k v) j zero = if j = k then v else get d j zero := by
  unfold get
  rw [lookup_set]
  split <;> rfl

theorem keys_set (d : List (κ × β)) (k : κ) (v : β) : keys (set d k v) = if k ∈ keys d then keys d else keys d ++ [k] := by
  induction d with
  | nil => simp [set, keys]
  | cons x d ih =>
    obtain ⟨j, w⟩ := x
    by_cases hj : j = k
    · simp [set, keys, hj]
    · have hk : k ≠ j := fun he => hj he.symm
      simp only [keys] at ih
      by_cases hkd : k ∈ d.map Prod.fst <;> simp only [set, hj, if_false, keys, List.map_cons, ih, List.mem_cons, hk,
        false_or, hkd, if_true, List.cons_append]

theorem nodup_keys_set {d : List (κ × β)} (h : (keys d).Nodup) (k : κ) (v : β) : (keys (set d k v)).Nodup := by
  rw [keys_set]
  split
  · exact h
  · rename_i hk
    refine List.nodup_append.2 ⟨h, List.nodup_singleton _, fun a ha b hb hab => hk ?_⟩
    rw [← List.mem_singleton.1 hb, ← hab]
    exact ha

/-- `d.update(l)` -/
def update (d l : List (κ × β)) : List (κ × β) := l.foldl (fun d x => set d x.1 x.2) d

theorem update_cons (d : List (κ × β)) (x : κ × β) (l : List (κ × β)) : update d (x :: l) = update (set d x.1 x.2) l := rfl

theorem lookup_update_other {d l : List (κ × β)} {k : κ} (h : k ∉ l.map Prod.fst) : (update d l).lookup k = d.lookup k := by
  induction l generalizing d with
  | nil => rfl
  | cons x l ih =>
    rw [List.map_cons, List.mem_cons, not_or] at h
    rw [update_cons, ih h.2, lookup_set, if_neg h.1]

theorem lookup_update {d l : List (κ × β)} (hnd : (l.map Prod.fst).Nodup) {x : κ × β} (hx : x ∈ l) :
    (update d l).lookup x.1 = some x.2 := by
  induction l generalizing d with
  | nil => cases hx
  | cons y l ih =>
    obtain ⟨hy, hnd⟩ := List.nodup_cons.1 hnd
    rw [update_cons]
    rcases List.mem_cons.1 hx with rfl | hx
    · rw [lookup_update_other hy, lookup_set, if_pos rfl]
    · exact ih hnd hx

theorem nodup_keys_update {d : List (κ × β)} (h : (keys d).Nodup) (l : List (κ × β)) : (keys (update d l)).Nodup := by
  induction l generalizing d with
  | nil => exact h
  | cons x l ih => exact ih (nodup_keys_set h x.1 x.2)

theorem mem_of_lookup {d : List (κ × β)} {k : κ} {v : β} (h : d.lookup k = some v) : (k, v) ∈ d := by
  obtain ⟨l, l', rfl, -⟩ := List.lookup_eq_some_iff.1 h
  exact List.mem_append_right l List.mem_cons_self

/-! ## A run of pairs -/

section Accumulate
variable (add : β → α → β) (zero : β) (l : List (κ × α))

/-- Each value added to what is under its key. -/
def addTo (d : List (κ × β)) (x : κ × α) : List (κ × β) := set d x.1 (add (get d x.1 zero) x.2)

def accumulate : List (κ × β) := l.foldl (addTo add zero) []

theorem accumulate_concat (x : κ × α) : accumulate add zero (l ++ [x]) = addTo add zero (accumulate add zero l) x := by
  simp [accumulate]

/-- The values that came with a key. -/
def valuesOf (k : κ) : List α := (l.filter (·.1 = k)).map Prod.snd

theorem valuesOf_concat (x : κ × α) (k : κ) : valuesOf (l ++ [x]) k = valuesOf l k ++ if x.1 = k then [x.2] else [] := by
  by_cases hk : x.1 = k <;> simp [valuesOf, hk]

theorem get_accumulate (k : κ) : get (accumulate add zero l) k zero = (valuesOf l k).foldl add zero := by
  induction l using List.reverseRecOn with
  | nil => rfl
  | append_singleton l x ih =>
    rw [accumulate_concat, addTo, get_set, valuesOf_concat]
    by_cases hk : x.1 = k
    · rw [if_pos hk.symm, if_pos hk, List.foldl_append, ← ih, hk]
      rfl
    · rw [if_neg (Ne.symm hk), if_neg hk, List.append_nil, ih]

theorem mem_keys_accumulate (k : κ) : k ∈ keys (accumulate add zero l) ↔ ∃ x ∈ l, x.1 = k := by
  induction l using List.reverseRecOn with
  | nil => simp [accumulate, keys]
  | append_singleton l x ih =>
    rw [accumulate_concat, addTo, keys_set]
    split
    · rename_i hx
      rw [ih]
      simp only [List.mem_append, List.mem_singleton]
      refine ⟨fun ⟨y, hy, hk⟩ => ⟨y, .inl hy, hk⟩, ?_⟩
      rintro ⟨y, hy | rfl, hk⟩
      · exact ⟨y, hy, hk⟩
      · exact ih.1 (hk ▸ hx)
    · rw [List.mem_append, ih, List.mem_singleton]
      simp only [List.mem_append, List.mem_singleton, or_and_right, exists_or, exists_eq_left]
      rw [@eq_comm κ k]

theorem nodup_keys_accumulate : (keys (accumulate add zero l)).Nodup := by
  induction l using List.reverseRecOn with
  | nil => exact List.nodup_nil
  | append_singleton l x ih =>
    rw [accumulate_concat]
    exact nodup_keys_set ih ..

end Accumulate

end Dict
