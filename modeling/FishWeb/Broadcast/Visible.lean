import FishWeb.Broadcast.Model
/-!
# Which broadcasts a guild hears

The guilds above a guild lead up to agent 1 (`Above`). On the way up only agent 1 is
collected: a guild hears itself and agent 1, and not what is in between. The loop over the
broadcasts takes what has expired out of another list than it reads. `broadcast_visibility`
says when each of the three makes no difference.
-/
open Python Prog

namespace FishWeb.Broadcast

/-- The guild is there, and `l` are the guilds above it, its parent first and agent 1 last. -/
inductive Above (s : St) : String → List String → Prop
  | one (hagent : s.isAgent "1" = true) (hroot : s.parent "1" = none) : Above s "1" []
  | up {g p : String} {n : Int} {l : List String} (hagent : s.isAgent g = true) (hparent : s.parent g = some p)
    (hp : p = toString n) (h : Above s p l) : Above s g (p :: l)

section GroupIds
variable {s : St} {g : String} {l : List String} {depth : Nat}

theorem Above.root (h : Above s g l) : s.parent "1" = none := by
  induction h with
  | one _ hroot => exact hroot
  | up _ _ _ _ ih => exact ih

theorem Above.eq_one (h : Above s g []) : g = "1" := by
  cases h
  rfl

theorem Above.unique {l' : List String} (h : Above s g l) (h' : Above s g l') : l = l' := by
  induction h generalizing l' with
  | one hagent hroot =>
    cases h' with
    | one => rfl
    | up _ hparent => rw [hroot] at hparent; cases hparent
  | @up g p n l _ hparent _ h ih =>
    cases h' with
    | one _ hroot => rw [hroot] at hparent; cases hparent
    | up _ hparent' _ h' =>
      obtain rfl := Option.some.inj (hparent.symm.trans hparent')
      rw [ih h']

theorem Above.of_mem {x : String} (h : Above s g l) (hx : x ∈ l) : ∃ l', Above s x l' ∧ l'.length < l.length := by
  induction h with
  | one => cases hx
  | up _ _ _ h ih =>
    rcases List.mem_cons.1 hx with rfl | hx
    · exact ⟨_, h, Nat.lt_succ_self _⟩
    · obtain ⟨l', hl', hlt⟩ := ih hx
      exact ⟨l', hl', Nat.lt_succ_of_lt hlt⟩

/-- No guild is above itself. -/
theorem Above.not_mem (h : Above s g l) : g ∉ l := by
  intro hg
  obtain ⟨l', hl', hlt⟩ := h.of_mem hg
  rw [h.unique hl'] at hlt
  exact Nat.lt_irrefl _ hlt

theorem Above.one_mem (h : Above s g l) (hl : l ≠ []) : "1" ∈ l := by
  induction h with
  | one => exact absurd rfl hl
  | @up g p n l _ _ _ h ih =>
    cases l with
    | nil => exact h.eq_one ▸ List.mem_cons_self
    | cons q l => exact List.mem_cons_of_mem _ (ih (List.cons_ne_nil q l))

/-- Only agent 1 is collected. -/
def collected (l : List String) : List (Option String) := if l = [] then [none] else [some "1"]

theorem run_getGroupIds (h : Above s g l) (hdepth : l.length < depth) :
    run (getGroupIds depth g) s = (.ok (collected l), s) := by
  unfold collected
  induction h generalizing depth with
  | one hagent hroot =>
    obtain ⟨depth, rfl⟩ := Nat.exists_eq_add_of_lt hdepth
    simp [getGroupIds, Exec.exec, hagent, hroot]
  | @up g p n l hagent hparent hp h ih =>
    cases depth with
    | zero => simp at hdepth
    | succ depth =>
    have hint : int p = some n := hp ▸ int_toString_int n
    have hne : p ≠ "" := by
      intro hempty
      have hnone : int "" = none := by decide
      rw [hempty, hnone] at hint
      cases hint
    have hagain : run (getGroupIds (depth + 1) g) s = run (if n = 1 then .ret [some "1"] else getGroupIds depth p) s := by
      simp [getGroupIds, Exec.exec, hagent, hparent, hne, hint]
    rw [hagain, if_neg (List.cons_ne_nil p l)]
    by_cases hn : n = 1
    · rw [if_pos hn]
      rfl
    · have hl : l ≠ [] := by
        rintro rfl
        have hone : int "1" = some 1 := by decide
        rw [h.eq_one, hone] at hint
        exact hn (Option.some.inj hint).symm
      rw [if_neg hn, ih (Nat.lt_of_succ_lt_succ hdepth), if_neg hl]

end GroupIds

/-! ## The loop over the broadcasts -/

/-- The record is one of these guilds'. -/
def heard (groupIds : List (Option String)) (r : Dict) : Bool := (r.lookup "ag").any fun ag => groupIds.contains (some ag)

theorem heard_eq_true {groupIds : List (Option String)} {r : Dict} {ag : String} (hag : r.lookup "ag" = some ag) :
    heard groupIds r = true ↔ some ag ∈ groupIds := by
  simp [heard, hag]

section Loop
variable {s : St} {groupIds : List (Option String)} {bid : Nat}

variable (groupIds) in
theorem run_hearBroadcast (hag : ∀ r, s.broadcast bid = some r → ∃ ag, r.lookup "ag" = some ag) :
    ∃ list, run (hearBroadcast groupIds bid) s =
      (.ok ((s.broadcast bid).toList.filter (heard groupIds)), { s with list := list }) := by
  unfold hearBroadcast
  cases hr : s.broadcast bid with
  | none => exact ⟨lrem 1 bid s.list, by simp [Exec.exec, hr]⟩
  | some r =>
    obtain ⟨ag, hag⟩ := hag r hr
    by_cases hheard : some ag ∈ groupIds
    · exact ⟨s.list, by simp [Exec.exec, hr, hag, heard, hheard]⟩
    · exact ⟨s.list, by simp [Exec.exec, hr, hag, heard, hheard]⟩

variable (groupIds) in
theorem run_hearBroadcasts {bIds : List Nat} (hag : ∀ bid ∈ bIds, ∀ r, s.broadcast bid = some r → ∃ ag, r.lookup "ag" = some ag) :
    ∃ list, run (collect bIds (hearBroadcast groupIds)) s =
      (.ok (bIds.map fun bid => (s.broadcast bid).toList.filter (heard groupIds)), { s with list := list }) := by
  induction bIds generalizing s with
  | nil => exact ⟨s.list, rfl⟩
  | cons bid bIds ih =>
    obtain ⟨hbid, hrest⟩ := List.forall_mem_cons.1 hag
    obtain ⟨list, hbody⟩ := run_hearBroadcast groupIds hbid
    obtain ⟨list', hloop⟩ := ih (s := { s with list := list }) hrest
    refine ⟨list', ?_⟩
    rw [collect_cons, run_bind_ok hbody, run_bind_ok hloop]
    rfl

theorem flatten_heard (p : Dict → Bool) (bIds : List Nat) :
    (bIds.map fun bid => (s.broadcast bid).toList.filter p).flatten = (bIds.filterMap s.broadcast).filter p := by
  induction bIds with
  | nil => rfl
  | cons bid bIds ih =>
    rw [List.map_cons, List.flatten_cons, ih]
    cases hr : s.broadcast bid with
    | none => simp [hr]
    | some r => cases hp : p r <;> simp [hr, hp]

end Loop

/-! ## What is heard -/

section Heard
variable {s : St} {g : String} {l : List String} {depth : Nat}

theorem run_getBroadcasts (h : Above s g l) (hdepth : l.length < depth)
    (hag : ∀ bid ∈ s.hallList, ∀ r, s.broadcast bid = some r → ∃ ag, r.lookup "ag" = some ag) :
    ∃ list, run (getBroadcasts depth g "") s =
      (.ok ⟨(s.hallList.filterMap s.broadcast).filter (heard (collected l ++ [some g])), none⟩, { s with list := list }) := by
  obtain ⟨list, hloop⟩ := run_hearBroadcasts (collected l ++ [some g]) hag
  have hbids : run (call Cmd.lrangeHall : Handler _) s = (.ok s.hallList, s) := rfl
  refine ⟨list, ?_⟩
  unfold getBroadcasts
  rw [run_bind_ok hbids, run_bind_ok (run_getGroupIds h hdepth), run_bind_ok hloop, flatten_heard]
  rfl

/-- All above are collected if and only if agent 1 is the parent. -/
theorem collected_iff (h : Above s g l) : (∀ o, o ∈ collected l ↔ ∃ x ∈ l, o = some x) ↔ s.parent g = some "1" := by
  cases h with
  | one hagent hroot =>
    rw [hroot]
    refine iff_of_false (fun hall => ?_) (by simp)
    obtain ⟨x, hx, -⟩ := (hall none).1 List.mem_cons_self
    cases hx
  | @up g p n l hagent hparent hp h =>
    rw [hparent, Option.some.injEq, collected, if_neg (List.cons_ne_nil p l)]
    constructor
    · intro hall
      simpa using (hall (some p)).2 ⟨p, List.mem_cons_self, rfl⟩
    · rintro rfl
      obtain rfl := h.unique (.one (by cases h <;> assumption) h.root)
      simp

/-- Every broadcast of a guild above is heard if and only if they are all agent 1's. -/
theorem heard_iff (h : Above s g l) :
    (s.hallList.filterMap s.broadcast).filter (heard (collected l ++ [some g])) =
      (s.hallList.filterMap s.broadcast).filter (heard ((g :: l).map some)) ↔
    ∀ bid ∈ s.hallList, ∀ r, s.broadcast bid = some r → ∀ x ∈ l, r.lookup "ag" = some x → x = "1" := by
  constructor
  · intro heq bid hbid r hr x hx hag
    have hmem : r ∈ (s.hallList.filterMap s.broadcast).filter (heard ((g :: l).map some)) :=
      List.mem_filter.2 ⟨List.mem_filterMap.2 ⟨bid, hbid, hr⟩, by simp [heard, hag, hx]⟩
    rw [← heq] at hmem
    have hheard := (heard_eq_true hag).1 (List.mem_filter.1 hmem).2
    rw [List.mem_append, List.mem_singleton, Option.some.injEq] at hheard
    rcases hheard with hheard | rfl
    · by_cases hl : l = []
      · rw [hl] at hx
        cases hx
      · simpa [collected, hl] using hheard
    · exact absurd hx h.not_mem
  · intro hone
    refine List.filter_congr fun r hr => ?_
    obtain ⟨bid, hbid, hr⟩ := List.mem_filterMap.1 hr
    cases hag : r.lookup "ag" with
    | none => simp [heard, hag]
    | some ag =>
      have hmem : some ag ∈ collected l ++ [some g] ↔ ag = g ∨ ag ∈ l := by
        unfold collected
        by_cases hl : l = []
        · simp [hl]
        rw [if_neg hl, List.singleton_append, List.mem_cons, List.mem_singleton, Option.some.injEq, Option.some.injEq, or_comm]
        refine or_congr_right ⟨?_, fun hag' => hone bid hbid r hr ag hag' hag⟩
        rintro rfl
        exact h.one_mem hl
      have hmem' : some ag ∈ (g :: l).map some ↔ ag = g ∨ ag ∈ l := by simp
      rw [Bool.eq_iff_iff, heard_eq_true hag, heard_eq_true hag, hmem, hmem']

theorem broadcast_visibility (h : Above s g l) (hdepth : l.length < depth)
    (hag : ∀ bid ∈ s.hallList, ∀ r, s.broadcast bid = some r → ∃ ag, r.lookup "ag" = some ag) :
    ∃ ids bs s', run (getGroupIds depth g) s = (.ok ids, s) ∧ run (getBroadcasts depth g "") s = (.ok ⟨bs, none⟩, s') ∧
      ((∀ o, o ∈ ids ↔ ∃ x ∈ l, o = some x) ↔ s.parent g = some "1") ∧
      (bs = (s.hallList.filterMap s.broadcast).filter (heard ((g :: l).map some)) ↔
        ∀ bid ∈ s.hallList, ∀ r, s.broadcast bid = some r → ∀ x ∈ l, r.lookup "ag" = some x → x = "1") ∧
      (s'.hallList = s.hallList.filter (fun bid => (s.broadcast bid).isSome) ↔ ∀ bid ∈ s.hallList, (s.broadcast bid).isSome) := by
  obtain ⟨list, hrun⟩ := run_getBroadcasts h hdepth hag
  refine ⟨_, _, _, run_getGroupIds h hdepth, hrun, collected_iff h, heard_iff h, ?_⟩
  rw [eq_comm, List.filter_eq_self]

end Heard

/-! ## Three guilds -/

/-- Guild 7 under guild 5 under agent 1, and a broadcast of guild 5. -/
def demoGuilds (hallList : List Nat) : St where
  isAgent := fun g => g = "1" ∨ g = "5" ∨ g = "7"
  parent := fun g => if g = "7" then some "5" else if g = "5" then some "1" else none
  broadcast := fun bid => if bid = 3 then some [("id", "3"), ("ag", "5")] else none
  hallList := hallList
  list := [4, 3, 1]

theorem demo_above : Above (demoGuilds [3]) "5" ["1"] :=
  .up (n := 1) (by decide) (by decide) (by decide) (.one (by decide) (by decide))

theorem demo_ag {bid : Nat} {r : Dict} (hr : (demoGuilds [3]).broadcast bid = some r) : r = [("id", "3"), ("ag", "5")] := by
  simp only [demoGuilds] at hr
  split at hr
  · exact (Option.some.inj hr).symm
  · cases hr

/-- Guild 5 hears what it should. -/
theorem guild_hears : ∃ bs s', run (getBroadcasts 2 "5" "") (demoGuilds [3]) = (.ok ⟨bs, none⟩, s') ∧
    bs = ((demoGuilds [3]).hallList.filterMap (demoGuilds [3]).broadcast).filter (heard [some "5", some "1"]) := by
  have hag : ∀ bid ∈ (demoGuilds [3]).hallList, ∀ r, (demoGuilds [3]).broadcast bid = some r → ∃ ag, r.lookup "ag" = some ag := by
    intro bid _ r hr
    exact ⟨"5", by rw [demo_ag hr]; decide⟩
  obtain ⟨ids, bs, s', -, hrun, -, hheard, -⟩ := broadcast_visibility demo_above (by decide : ["1"].length < 2) hag
  refine ⟨bs, s', hrun, hheard.2 fun bid _ r _ x hx _ => List.mem_singleton.1 hx⟩

/-- Guild 7 does not hear guild 5 above it, and what has expired stays in the list. -/
theorem guild_misses : (run (getGroupIds 3 "7") (demoGuilds [4, 3])).1 = .ok [some "1"] ∧
    (run (getBroadcasts 3 "7" "") (demoGuilds [4, 3])).1 = .ok ⟨[], none⟩ ∧
    (run (getBroadcasts 3 "7" "") (demoGuilds [4, 3])).2.hallList = [4, 3] := by
  decide +kernel

end FishWeb.Broadcast
