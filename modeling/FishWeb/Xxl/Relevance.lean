import FishWeb.Lib.Overlap
/-!
# Grouping the runs of a piece

`relevance` of `xiaoxiaoleNumObj` (`model/xiaoxiaoleModel.py`) merges the point lists
that overlap. It takes a list off the shared `datas_points`, collects its points, and
calls itself on the lists left that share a point with it; the first call then goes on
with the next component.

The depth of the calls is an argument. The interpreter has a limit of its own, which is
left out.
-/
open Overlap

namespace FishWeb.Xxl

variable {α : Type} [DecidableEq α]

/-- The two lists that every call of `relevance` shares. -/
structure Search (α : Type) where
  datas_points : List (List α)
  resultLists : List (List α)
  deriving Repr, DecidableEq

/-- Appends what is not there yet, one after another. -/
def appendNew {β : Type} [DecidableEq β] (tmp new : List β) : List β :=
  new.foldl (fun tmp p => if p ∈ tmp then tmp else tmp ++ [p]) tmp

/-- `relevance_list`: for each point of the sample the lists it is in. -/
def relevanceList (sample_points : List α) (datas_points : List (List α)) : List (List α) :=
  appendNew [] (sample_points.flatMap fun _point => datas_points.filter (_point ∈ ·))

/-- The caller's `tmp_point_lists` after a call that went on to `found`. An empty one is
not the callee's, which then made its own. -/
def callers (tmp_point_lists found : List α) : List α := if tmp_point_lists = [] then [] else found

/-- `relevance`, with `tmp_point_lists` as the caller sees it afterwards. `none` is more
than `depth` nested calls; an argument that is not given is empty. -/
def relevance : (depth : Nat) → (sample_points tmp_point_lists : List α) → (isfirst : Bool) → Search α →
    Option (List α × Search α)
  | 0, _, _, _, _ => none
  | depth + 1, sample_points, tmp_point_lists, isfirst, s =>
    if s.datas_points = [] then some (tmp_point_lists, s)
    else do
      let sample_points := if sample_points = [] then s.datas_points.headD [] else sample_points
      let found := appendNew tmp_point_lists sample_points
      if sample_points ∉ s.datas_points then return (callers tmp_point_lists found, s)
      let s := { s with datas_points := s.datas_points.erase sample_points }
      let (found, s) ← (relevanceList sample_points s.datas_points).foldlM
        (fun (found, s) _relevance => relevance depth _relevance found false s) (found, s)
      if isfirst then
        let s := { s with resultLists := s.resultLists ++ [found] }
        if s.datas_points ≠ [] then
          let (_, s) ← relevance depth [] [] true s
          return (callers tmp_point_lists found, s)
        return (callers tmp_point_lists found, s)
      return (callers tmp_point_lists found, s)

example : relevance 4 [] [] true ⟨[[1, 2], [5, 6], [2, 3], [3, 1]], []⟩ = some ([], ⟨[], [[1, 2, 3], [5, 6]]⟩) := by
  decide

/-! ## The lists it appends to -/

section AppendNew
variable {β : Type} [DecidableEq β]

theorem mem_appendNew {tmp new : List β} {p : β} : p ∈ appendNew tmp new ↔ p ∈ tmp ∨ p ∈ new := by
  induction new generalizing tmp with
  | nil => simp [appendNew]
  | cons q new ih =>
    have hrest := @ih (if q ∈ tmp then tmp else tmp ++ [q])
    simp only [appendNew, List.foldl_cons] at hrest ⊢
    rw [hrest, List.mem_cons]
    by_cases hq : q ∈ tmp
    · rw [if_pos hq]
      exact ⟨fun h => h.imp_right .inr, fun h => h.elim .inl fun h => h.elim (fun h => .inl (h ▸ hq)) .inr⟩
    · rw [if_neg hq, List.mem_append, List.mem_singleton, or_assoc]

theorem nodup_appendNew {tmp new : List β} (h : tmp.Nodup) : (appendNew tmp new).Nodup := by
  induction new generalizing tmp with
  | nil => exact h
  | cons q new ih =>
    refine @ih (if q ∈ tmp then tmp else tmp ++ [q]) ?_
    by_cases hq : q ∈ tmp
    · rw [if_pos hq]; exact h
    · rw [if_neg hq]
      exact List.nodup_append.2 ⟨h, List.nodup_singleton q, fun a ha b hb hab =>
        hq (List.mem_singleton.1 hb ▸ hab ▸ ha)⟩

end AppendNew

theorem mem_relevanceList {sample : List α} {datas : List (List α)} {b : List α} :
    b ∈ relevanceList sample datas ↔ b ∈ datas ∧ Meet sample b := by
  simp only [relevanceList, mem_appendNew, List.not_mem_nil, false_or, List.mem_flatMap, List.mem_filter,
    decide_eq_true_eq, Meet]
  exact ⟨fun ⟨p, hp, hb, hpb⟩ => ⟨hb, p, hp, hpb⟩, fun ⟨hb, p, hp, hpb⟩ => ⟨p, hp, hb, hpb⟩⟩

/-! ## The recursive calls -/

/-- What calls for the lists `roots` do: they take the lists `removed` off `datas`, which
leaves `datas'`, and collect their points. -/
structure Visited (roots removed datas datas' : List (List α)) (tmp tmp' : List α) : Prop where
  split : datas.Perm (removed ++ datas')
  linked : ∀ b ∈ removed, ∃ a ∈ roots, Linked datas a b
  apart : ∀ b ∈ removed, ∀ c ∈ datas', ¬Meet b c
  taken : ∀ a ∈ roots, a ∈ datas → a ∈ removed
  points : ∀ p ∈ tmp', p ∈ tmp ∨ (∃ a ∈ roots, p ∈ a) ∨ ∃ b ∈ removed, p ∈ b
  kept : ∀ p ∈ tmp, p ∈ tmp'
  found : ∀ b ∈ removed, ∀ p ∈ b, p ∈ tmp'
  nodup : tmp.Nodup → tmp'.Nodup

namespace Visited
variable {roots removed removed' datas datas' datas'' : List (List α)} {tmp tmp' tmp'' sample : List α}

omit [DecidableEq α] in
theorem mem_iff (h : Visited roots removed datas datas' tmp tmp') (b : List α) :
    b ∈ datas ↔ b ∈ removed ∨ b ∈ datas' := by
  rw [h.split.mem_iff, List.mem_append]

omit [DecidableEq α] in
/-- No calls. -/
theorem nil (datas : List (List α)) (tmp : List α) : Visited [] [] datas datas tmp tmp := by
  constructor <;> simp

omit [DecidableEq α] in
/-- One call and then others. -/
theorem cons (h : Visited [sample] removed datas datas' tmp tmp')
    (h' : Visited roots removed' datas' datas'' tmp' tmp'') :
    Visited (sample :: roots) (removed ++ removed') datas datas'' tmp tmp'' where
  split := by
    rw [List.append_assoc]
    exact h.split.trans (h'.split.append_left removed)
  linked b hb := by
    rcases List.mem_append.1 hb with hb | hb
    · obtain ⟨a, ha, hab⟩ := h.linked b hb
      exact ⟨a, List.mem_cons.2 (.inl (List.mem_singleton.1 ha)), hab⟩
    · obtain ⟨a, ha, hab⟩ := h'.linked b hb
      exact ⟨a, List.mem_cons_of_mem sample ha, hab.mono fun c hc => (h.mem_iff c).2 (.inr hc)⟩
  apart b hb c hc := by
    rcases List.mem_append.1 hb with hb | hb
    · exact h.apart b hb c ((h'.mem_iff c).2 (.inr hc))
    · exact h'.apart b hb c hc
  taken a ha hdatas := by
    rcases List.mem_cons.1 ha with rfl | ha
    · exact List.mem_append_left _ (h.taken a (List.mem_singleton_self a) hdatas)
    · rcases (h.mem_iff a).1 hdatas with hrem | hleft
      · exact List.mem_append_left _ hrem
      · exact List.mem_append_right _ (h'.taken a ha hleft)
  points p hp := by
    rcases h'.points p hp with hp | ⟨a, ha, hp⟩ | ⟨b, hb, hp⟩
    · rcases h.points p hp with hp | ⟨a, ha, hp⟩ | ⟨b, hb, hp⟩
      · exact .inl hp
      · exact .inr (.inl ⟨a, List.mem_cons.2 (.inl (List.mem_singleton.1 ha)), hp⟩)
      · exact .inr (.inr ⟨b, List.mem_append_left _ hb, hp⟩)
    · exact .inr (.inl ⟨a, List.mem_cons_of_mem sample ha, hp⟩)
    · exact .inr (.inr ⟨b, List.mem_append_right _ hb, hp⟩)
  kept p hp := h'.kept p (h.kept p hp)
  found b hb p hp := by
    rcases List.mem_append.1 hb with hb | hb
    · exact h'.kept p (h.found b hb p hp)
    · exact h'.found b hb p hp
  nodup hnd := h'.nodup (h.nodup hnd)

/-- A call for a list that is gone. -/
theorem gone (hs : sample ∉ datas) : Visited [sample] [] datas datas tmp (appendNew tmp sample) where
  split := .refl _
  linked _ hb := nomatch hb
  apart _ hb := nomatch hb
  taken _ ha hdatas := absurd (List.mem_singleton.1 ha ▸ hdatas) hs
  points _ hp := (mem_appendNew.1 hp).imp_right fun hp => .inl ⟨sample, List.mem_singleton_self sample, hp⟩
  kept _ hp := mem_appendNew.2 (.inl hp)
  found _ hb := nomatch hb
  nodup := nodup_appendNew

/-- A call for a list that is there takes it off, and then makes the calls for its neighbours. -/
theorem neighbours (hs : sample ∈ datas) (hne : ∀ a ∈ datas, a ≠ [])
    (h : Visited (relevanceList sample (datas.erase sample)) removed (datas.erase sample) datas'
      (appendNew tmp sample) tmp') : Visited [sample] (sample :: removed) datas datas' tmp tmp' where
  split := (List.perm_cons_erase hs).trans (h.split.cons sample)
  linked b hb := by
    refine ⟨sample, List.mem_singleton_self sample, ?_⟩
    rcases List.mem_cons.1 hb with rfl | hb
    · exact .refl
    · obtain ⟨a, ha, hab⟩ := h.linked b hb
      obtain ⟨hmem, hmeet⟩ := mem_relevanceList.1 ha
      exact .head ⟨List.mem_of_mem_erase hmem, hmeet⟩ (hab.mono fun c => List.mem_of_mem_erase)
  apart b hb c hc := by
    rcases List.mem_cons.1 hb with rfl | hb
    · -- a neighbour still there was called for, so taken off with everything that meets it
      intro hmeet
      have hce : c ∈ datas.erase b := (h.mem_iff c).2 (.inr hc)
      have hcr := h.taken c (mem_relevanceList.2 ⟨hce, hmeet⟩) hce
      exact h.apart c hcr c hc (meet_self (hne c (List.mem_of_mem_erase hce)))
    · exact h.apart b hb c hc
  taken a ha _ := List.mem_cons.2 (.inl (List.mem_singleton.1 ha))
  points p hp := by
    rcases h.points p hp with hp | ⟨a, ha, hp⟩ | ⟨b, hb, hp⟩
    · exact (mem_appendNew.1 hp).imp_right fun hp => .inl ⟨sample, List.mem_singleton_self sample, hp⟩
    · exact .inr (.inr ⟨a, List.mem_cons_of_mem sample (h.taken a ha (mem_relevanceList.1 ha).1), hp⟩)
    · exact .inr (.inr ⟨b, List.mem_cons_of_mem sample hb, hp⟩)
  kept p hp := h.kept p (mem_appendNew.2 (.inl hp))
  found b hb p hp := by
    rcases List.mem_cons.1 hb with rfl | hb
    · exact h.kept p (mem_appendNew.2 (.inr hp))
    · exact h.found b hb p hp
  nodup hnd := h.nodup (nodup_appendNew hnd)

end Visited

omit [DecidableEq α] in
theorem callers_of_ne_nil {tmp found : List α} (h : tmp ≠ []) : callers tmp found = found := if_neg h

theorem appendNew_ne_nil {tmp new : List α} (h : tmp ≠ [] ∨ new ≠ []) : appendNew tmp new ≠ [] := by
  obtain ⟨p, hp⟩ : ∃ p, p ∈ tmp ∨ p ∈ new := by
    rcases h with h | h
    · exact (List.exists_mem_of_ne_nil tmp h).imp fun _ => .inl
    · exact (List.exists_mem_of_ne_nil new h).imp fun _ => .inr
  exact List.ne_nil_of_mem (mem_appendNew.2 hp)

/-- The loop over the neighbours, given what one call does. -/
theorem foldlM_visited {depth : Nat}
    (ih : ∀ (sample tmp : List α) (s : Search α), sample ≠ [] → tmp ≠ [] → (∀ a ∈ s.datas_points, a ≠ []) →
      s.datas_points.length < depth → ∃ removed tmp' datas', relevance depth sample tmp false s =
        some (tmp', ⟨datas', s.resultLists⟩) ∧ Visited [sample] removed s.datas_points datas' tmp tmp')
    (roots : List (List α)) (tmp : List α) (s : Search α) (hroots : ∀ a ∈ roots, a ≠ []) (htmp : tmp ≠ [])
    (hne : ∀ a ∈ s.datas_points, a ≠ []) (hd : s.datas_points.length < depth) :
    ∃ removed tmp' datas', roots.foldlM (fun (found, s) _relevance => relevance depth _relevance found false s) (tmp, s) =
      some (tmp', ⟨datas', s.resultLists⟩) ∧ Visited roots removed s.datas_points datas' tmp tmp' := by
  induction roots generalizing tmp s with
  | nil => exact ⟨[], tmp, s.datas_points, rfl, .nil _ _⟩
  | cons sample roots ihr =>
    obtain ⟨removed, tmp', datas', hcall, hv⟩ := ih sample tmp s (hroots sample List.mem_cons_self) htmp hne hd
    have hlen : datas'.length < depth := by
      have := hv.split.length_eq
      rw [List.length_append] at this
      omega
    have htmp' : tmp' ≠ [] := by
      obtain ⟨p, hp⟩ := List.exists_mem_of_ne_nil tmp htmp
      exact List.ne_nil_of_mem (hv.kept p hp)
    obtain ⟨removed', tmp'', datas'', hrest, hv'⟩ := ihr tmp' ⟨datas', s.resultLists⟩
      (fun a ha => hroots a (List.mem_cons_of_mem sample ha)) htmp'
      (fun a ha => hne a ((hv.mem_iff a).2 (.inr ha))) hlen
    refine ⟨removed ++ removed', tmp'', datas'', ?_, hv.cons hv'⟩
    rw [List.foldlM_cons]
    show (relevance depth sample tmp false s >>= _) = _
    rw [hcall]
    exact hrest

/-- A recursive call terminates, and takes off all that its list is linked to. -/
theorem relevance_visited (depth : Nat) (sample tmp : List α) (s : Search α) (hs : sample ≠ []) (htmp : tmp ≠ [])
    (hne : ∀ a ∈ s.datas_points, a ≠ []) (hd : s.datas_points.length < depth) :
    ∃ removed tmp' datas', relevance depth sample tmp false s = some (tmp', ⟨datas', s.resultLists⟩) ∧
      Visited [sample] removed s.datas_points datas' tmp tmp' := by
  induction depth generalizing sample tmp s with
  | zero => exact absurd hd (Nat.not_lt_zero _)
  | succ depth ih =>
    unfold relevance
    by_cases hdatas : s.datas_points = []
    · rw [if_pos hdatas]
      refine ⟨[], tmp, s.datas_points, rfl, ?_⟩
      rw [hdatas]
      constructor <;> simp +contextual
    · rw [if_neg hdatas]
      simp only [if_neg hs, callers_of_ne_nil htmp]
      by_cases hin : sample ∈ s.datas_points
      · have hlen : (s.datas_points.erase sample).length < depth := by
          rw [List.length_erase_of_mem hin]
          have := List.length_pos_of_mem hin
          omega
        obtain ⟨removed, tmp', datas', hloop, hv⟩ := foldlM_visited (fun sample tmp s => ih sample tmp s)
          (relevanceList sample (s.datas_points.erase sample)) (appendNew tmp sample)
          { s with datas_points := s.datas_points.erase sample }
          (fun a ha => hne a (List.mem_of_mem_erase (mem_relevanceList.1 ha).1)) (appendNew_ne_nil (.inl htmp))
          (fun a ha => hne a (List.mem_of_mem_erase ha)) hlen
        refine ⟨sample :: removed, tmp', datas', ?_, hv.neighbours hin hne⟩
        rw [if_neg (not_not.2 hin), hloop]
        rfl
      · exact ⟨[], appendNew tmp sample, s.datas_points, by rw [if_pos hin]; rfl, .gone hin⟩

/-- `relevance(datas_points=lists, isfirst=True)` empties the lists and appends their components. -/
theorem relevance_first (depth : Nat) (s : Search α) (hne : ∀ a ∈ s.datas_points, a ≠ [])
    (hd : s.datas_points.length < depth) :
    ∃ rs, relevance depth [] [] true s = some ([], ⟨[], s.resultLists ++ rs⟩) ∧ Components s.datas_points rs := by
  induction depth generalizing s with
  | zero => exact absurd hd (Nat.not_lt_zero _)
  | succ depth ih =>
    unfold relevance
    obtain ⟨datas, results⟩ := s
    cases datas with
    | nil => exact ⟨[], by simp, components_nil⟩
    | cons sample datas =>
      have hs : sample ≠ [] := hne sample List.mem_cons_self
      rw [List.length_cons, Nat.succ_lt_succ_iff] at hd
      obtain ⟨removed, found, datas', hloop, hv⟩ := foldlM_visited (relevance_visited depth)
        (relevanceList sample datas) (appendNew [] sample) ⟨datas, results⟩
        (fun a ha => hne a (List.mem_cons_of_mem _ (mem_relevanceList.1 ha).1)) (appendNew_ne_nil (.inr hs))
        (fun a ha => hne a (List.mem_cons_of_mem _ ha)) hd
      have hfirst : Visited [sample] (sample :: removed) (sample :: datas) datas' [] found :=
        .neighbours List.mem_cons_self hne (by rw [List.erase_cons_head]; exact hv)
      have hlen : datas'.length < depth := by
        have hsplit := hv.split.length_eq
        simp only [List.length_append] at hsplit
        omega
      obtain ⟨rs, hrest, hcomp⟩ := ih ⟨datas', results ++ [found]⟩
        (fun a ha => hne a ((hfirst.mem_iff a).2 (.inr ha))) hlen
      refine ⟨found :: rs, ?_, hcomp.cons hfirst.mem_iff List.mem_cons_self (fun b hb => ?_) hfirst.apart
        (hfirst.nodup List.nodup_nil) fun p => ⟨fun hp => ?_, fun ⟨b, hb, hp⟩ => hfirst.found b hb p hp⟩⟩
      · simp only [reduceCtorEq, if_false, if_true, List.headD_cons, List.mem_cons_self, not_true_eq_false,
          List.erase_cons_head]
        rw [hloop]
        show (if datas' ≠ [] then relevance depth [] [] true ⟨datas', results ++ [found]⟩ >>= fun x => some ([], x.2)
          else some ([], ⟨datas', results ++ [found]⟩)) = _
        by_cases hlast : datas' = []
        · subst hlast
          obtain rfl : rs = [] := List.eq_nil_iff_forall_not_mem.2 fun r hr => by
            obtain ⟨a, ha, -⟩ := hcomp.component r hr
            cases ha
          rfl
        · rw [if_pos hlast, hrest]
          simp
      · obtain ⟨a, ha, hab⟩ := hfirst.linked b hb
        exact List.mem_singleton.1 ha ▸ hab
      · rcases hfirst.points p hp with hp | ⟨a, ha, hp⟩ | hp
        · cases hp
        · exact ⟨sample, List.mem_cons_self, List.mem_singleton.1 ha ▸ hp⟩
        · exact hp

/-- For every family of non-empty lists the search terminates, leaves `datas_points` empty,
and results in the connected components: each of them duplicate-free, and every point of
the family in exactly one. -/
theorem relevance_components (lists : List (List α)) (hne : ∀ a ∈ lists, a ≠ []) (depth : Nat)
    (hd : lists.length < depth) :
    ∃ rs, relevance depth [] [] true ⟨lists, []⟩ = some ([], ⟨[], rs⟩) ∧ Components lists rs ∧
      (∀ a ∈ lists, ∀ b ∈ lists, (∃ r ∈ rs, a ⊆ r ∧ b ⊆ r) ↔ Linked lists a b) ∧
      ∀ a ∈ lists, ∀ p ∈ a, ∃! r, r ∈ rs ∧ p ∈ r := by
  obtain ⟨rs, hrun, hcomp⟩ := relevance_first depth ⟨lists, []⟩ hne hd
  refine ⟨rs, hrun, hcomp, fun a ha b hb => hcomp.linked_iff hne ha hb, fun a ha p hp => ?_⟩
  obtain ⟨r, hr, hpr⟩ := (hcomp.mem_iff p).2 ⟨a, ha, hp⟩
  exact ⟨r, ⟨hr, hpr⟩, fun r' ⟨hr', hpr'⟩ => hcomp.eq_of_mem hr' hr hpr' hpr⟩

theorem relevance_components_ladder : ∃ rs, relevance 5 [] [] true ⟨[[1, 2], [4, 5], [2, 3], [3, 4]], []⟩ =
    some ([], ⟨[], rs⟩) ∧ Components [[1, 2], [4, 5], [2, 3], [3, 4]] rs :=
  (relevance_components [[1, 2], [4, 5], [2, 3], [3, 4]] (by decide) 5 (by decide)).imp fun _ h => ⟨h.1, h.2.1⟩

end FishWeb.Xxl
