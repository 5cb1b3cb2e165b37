import FishWeb.Lib.Dict
/-!
# Dictionaries of lists

`d.setdefault(k, []).append(v)` over a run of pairs: under each key the values that came
with it, in order.
-/

namespace Buckets

variable {κ β : Type} [DecidableEq κ]

/-- `d.setdefault(k, []); d[k].append(v)`. -/
def put : List (κ × List β) → κ → β → List (κ × List β)
  | [], k, v => [(k, [v])]
  | (j, vs) :: d, k, v => if j = k then (j, vs ++ [v]) :: d else (j, vs) :: put d k v

/-- `d[k]`, or an empty list. -/
def items (d : List (κ × List β)) (k : κ) : List β := (d.lookup k).getD []

/-- `d.keys()`. -/
def keys (d : List (κ × List β)) : List κ := d.map Prod.fst

/-- It is what is under the key, and the value behind it. -/
theorem put_eq (d : List (κ × List β)) (k : κ) (v : β) : put d k v = Dict.set d k (items d k ++ [v]) := by
  induction d with
  | nil => rfl
  | cons x d ih =>
    obtain ⟨j, vs⟩ := x
    by_cases hj : j = k
    · simp [put, Dict.set, items, hj]
    · simp only [items] at ih
      simp [put, Dict.set, items, hj, List.lookup_cons, beq_false_of_ne (Ne.symm hj), ih]

/-- `d.values()`, one after another. -/
def values (d : List (κ × List β)) : List β := d.flatMap Prod.snd

theorem mem_values {d : List (κ × List β)} (h : (keys d).Nodup) {v : β} : v ∈ values d ↔ ∃ k, v ∈ items d k := by
  induction d with
  | nil => simp [values, items]
  | cons x d ih =>
    obtain ⟨j, vs⟩ := x
    obtain ⟨hj, hd⟩ := List.nodup_cons.1 h
    have hnone : items d j = [] := by
      rw [items, List.lookup_eq_none_iff.2 fun y hy => ?_]
      · rfl
      · have hne : j ≠ y.1 := fun he => hj (List.mem_map.2 ⟨y, hy, he.symm⟩)
        simpa using hne
    have hcons : ∀ k, items ((j, vs) :: d) k = if k = j then vs else items d k := fun k => by
      by_cases hk : k = j
      · simp [items, hk]
      · simp [items, List.lookup_cons, hk, beq_false_of_ne hk]
    simp only [values, List.flatMap_cons, List.mem_append, hcons] at ih ⊢
    rw [ih hd]
    constructor
    · rintro (hv | ⟨k, hv⟩)
      · exact ⟨j, by simpa using hv⟩
      · by_cases hk : k = j
        · rw [hk, hnone] at hv
          cases hv
        · exact ⟨k, by simpa [hk] using hv⟩
    · rintro ⟨k, hv⟩
      by_cases hk : k = j
      · exact .inl (by simpa [hk] using hv)
      · exact .inr ⟨k, by simpa [hk] using hv⟩

/-- The pairs, gathered under their keys. -/
def gather (l : List (κ × β)) : List (κ × List β) := l.foldl (fun d x => put d x.1 x.2) []

theorem gather_concat (l : List (κ × β)) (x : κ × β) : gather (l ++ [x]) = put (gather l) x.1 x.2 := by
  simp [gather]

theorem gather_eq (l : List (κ × β)) : gather l = Dict.accumulate (fun vs v => vs ++ [v]) [] l :=
  congrArg (fun f => l.foldl f []) (funext fun d => funext fun x => put_eq d x.1 x.2)

theorem items_gather (l : List (κ × β)) (k : κ) : items (gather l) k = (l.filter (·.1 = k)).map Prod.snd := by
  rw [gather_eq]
  have hget : items (Dict.accumulate (fun vs v => vs ++ [v]) [] l) k = (Dict.valuesOf l k).foldl (fun vs v => vs ++ [v]) [] :=
    Dict.get_accumulate _ _ l k
  have hfold : ∀ vs : List β, vs.foldl (fun vs v => vs ++ [v]) [] = vs := fun vs => by
    rw [List.foldl_append_eq_append (f := fun v => [v]), ← List.flatMap_def]
    simp
  rw [hget, hfold]
  rfl

theorem nodup_keys_gather (l : List (κ × β)) : (keys (gather l)).Nodup := by
  rw [gather_eq]
  exact Dict.nodup_keys_accumulate _ _ l

theorem mem_keys_gather (l : List (κ × β)) (k : κ) : k ∈ keys (gather l) ↔ ∃ x ∈ l, x.1 = k := by
  rw [gather_eq]
  exact Dict.mem_keys_accumulate _ _ l k

/-- Any order of the keys lists every pair once. -/
theorem flatMap_gather_perm (l : List (κ × β)) {ks : List κ} (h : ks.Perm (keys (gather l))) :
    (ks.flatMap fun k => (items (gather l) k).map fun v => (k, v)).Perm l := by
  have hitems : ∀ k, ((items (gather l) k).map fun v => (k, v)) = l.filter (·.1 = k) := fun k => by
    rw [items_gather, List.map_map]
    refine (List.map_congr_left fun x hx => ?_).trans (List.map_id _)
    have hk : x.1 = k := of_decide_eq_true (List.mem_filter.1 hx).2
    exact Prod.ext hk.symm rfl
  simp only [hitems]
  -- the pairs of the first key, and then those of the others
  have hsplit : ∀ (ks : List κ) (l : List (κ × β)), ks.Nodup → (∀ x ∈ l, x.1 ∈ ks) →
      (ks.flatMap fun k => l.filter (·.1 = k)).Perm l := by
    intro ks
    induction ks with
    | nil =>
      intro l _ hl
      rw [List.eq_nil_iff_forall_not_mem.2 fun x hx => List.not_mem_nil (hl x hx)]
      rfl
    | cons k ks ih =>
      intro l hnd hl
      obtain ⟨hk, hnd⟩ := List.nodup_cons.1 hnd
      have hothers : (ks.flatMap fun j => l.filter (·.1 = j)) =
          ks.flatMap fun j => (l.filter fun x => !decide (x.1 = k)).filter (·.1 = j) := by
        refine List.flatMap_congr fun j hj => ?_
        rw [List.filter_filter]
        refine List.filter_congr fun x _ => ?_
        by_cases hx : x.1 = j
        · have hne : j ≠ k := fun he => hk (he ▸ hj)
          simp [hx, hne]
        · simp [hx]
      rw [List.flatMap_cons, hothers]
      refine (List.Perm.append_left _ (ih _ hnd fun x hx => ?_)).trans (List.filter_append_perm _ l)
      obtain ⟨hx, hne⟩ := List.mem_filter.1 hx
      exact (List.mem_cons.1 (hl x hx)).resolve_left fun he => by simp [he] at hne
  exact hsplit ks l (h.nodup_iff.2 (nodup_keys_gather l)) fun x hx =>
    h.mem_iff.2 ((mem_keys_gather l x.1).2 ⟨x, hx, rfl⟩)

end Buckets
