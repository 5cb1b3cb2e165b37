import FishWeb.Downline.Switch
/-!
# What the pages call all members

One page counts the members of an agent and of two levels below it, another collects those
of all levels below it. In a tree of agents the first names every agent once
(`subtree_queries`). It names all that are below if and only if nothing is three levels
down, and the numbers agree if and only if no agent down there has a member.
-/
open Python Prog Descent

namespace FishWeb.Downline

section Queries
variable {s : St} {a x : String}

theorem run_getAllChildAgentId : run (getAllChildAgentId a) s = (.ok (firstTwo s.children a), s) := by
  have hloop : run (collect (s.children a) fun downline => (do
      let subDownlines ← call (.smembersChild downline)
      return downline :: subDownlines.members : Handler (List String))) s =
        (.ok ((s.children a).map fun c => c :: s.children c), s) :=
    run_collect fun _ _ => rfl
  rw [firstTwo, List.flatMap_def]
  exact run_bind_ok hloop

theorem run_getAgentAllMembers : run (getAgentAllMembers a) s =
    (.ok ((s.member a).scard + ((firstTwo s.children a).map fun x => (s.member x).scard).sum), s) := by
  have hloop : run (collect (firstTwo s.children a) fun subId => (call (.scardMember subId) : Handler Nat)) s =
      (.ok ((firstTwo s.children a).map fun x => (s.member x).scard), s) :=
    run_collect fun _ _ => rfl
  unfold getAgentAllMembers
  rw [run_bind_ok run_getAllChildAgentId]
  exact run_bind_ok hloop

@[simp] theorem mem_setOf {l : List String} {m : String} : m ∈ setOf l ↔ m ∈ l := List.mem_dedup

/-- With a call left for each level the recursion returns the members of all that are below. -/
theorem run_getAgentAllMemberIds {depth : Nat} (hids : ∀ x, s.InSubtree a x → s.agent x "id" = some x)
    (hdepth : ∀ x, ¬s.Below a depth x) : ∃ ids, run (getAgentAllMemberIds depth a) s = (.ok ids, s) ∧
      ∀ m, m ∈ ids ↔ ∃ n x, s.Below a (n + 1) x ∧ m ∈ s.member x := by
  induction depth generalizing a with
  | zero => exact absurd (.here a) (hdepth a)
  | succ depth ih =>
    have hchild : ∀ c ∈ s.children a, ∃ ids, run (getAgentAllMemberIds depth c) s = (.ok ids, s) ∧
        ∀ m, m ∈ ids ↔ ∃ n x, s.Below c (n + 1) x ∧ m ∈ s.member x := by
      intro c hc
      refine ih (fun x ⟨n, hx⟩ => hids x ⟨n + 1, .step hc hx⟩) fun x hx => hdepth x (.step hc hx)
    choose! ids hrun hmem using hchild
    have hloop : run (collect (s.children a) fun subId => (do
        let members ← getAgentAllMemberIds depth subId
        let childMemberIds ← call (.smembersMember subId)
        return members.members ++ childMemberIds.members : Handler (List String))) s =
          (.ok ((s.children a).map fun c => (ids c).members ++ (s.member c).members), s) := by
      refine run_collect fun c hc => ?_
      rw [run_bind_ok (hrun c hc)]
      rfl
    refine ⟨setOf ((s.children a).map fun c => (ids c).members ++ (s.member c).members).flatten, ?_, fun m => ?_⟩
    · have hread : run (call (Cmd.hmgetAgent a) : Handler _) s = (.ok (s.agent a "type", s.agent a "id"), s) := rfl
      rw [getAgentAllMemberIds, run_bind_ok hread, hids a ⟨0, .here a⟩]
      exact run_bind_ok hloop
    · rw [mem_setOf]
      simp only [List.mem_flatten, List.mem_map]
      constructor
      · rintro ⟨_, ⟨c, hc, rfl⟩, hm⟩
        rcases List.mem_append.1 hm with hm | hm
        · obtain ⟨n, x, hx, hm⟩ := (hmem c hc m).1 hm
          exact ⟨n + 1, x, .step hc hx, hm⟩
        · exact ⟨0, c, below_one.2 hc, hm⟩
      · rintro ⟨n, x, hx, hm⟩
        obtain ⟨c, hc, hx⟩ := below_succ.1 hx
        refine ⟨_, ⟨c, hc, rfl⟩, List.mem_append.2 ?_⟩
        cases n with
        | zero =>
          obtain rfl := below_zero.1 hx
          exact .inr hm
        | succ n => exact .inl ((hmem c hc m).2 ⟨n, x, hx, hm⟩)

end Queries

/-! ## Whether they agree -/

/-- The members of the agents that are listed. -/
def St.membersOf (s : St) (agentIds : List String) : List String := agentIds.flatMap fun x => (s.member x).members

section Agree
variable {s : St} {a : String}

theorem length_membersOf (l : List String) : (s.membersOf l).length = (l.map fun x => (s.member x).scard).sum :=
  List.length_flatMap

theorem mem_membersOf {l : List String} {m : String} : m ∈ s.membersOf l ↔ ∃ x ∈ l, m ∈ s.member x := List.mem_flatMap

theorem nodup_membersOf (hmember : ∀ m x y, m ∈ s.member x → m ∈ s.member y → x = y) {l : List String} (h : l.Nodup) :
    (s.membersOf l).Nodup := by
  refine List.nodup_flatMap.2 ⟨fun x _ => (s.member x).nodup, h.imp ?_⟩
  exact fun hne m hx hy => hne (hmember m _ _ hx hy)

/-- Of two lists without duplicates, one within the other, the lengths agree if and only if all is within. -/
theorem length_eq_iff {α : Type} {l l' : List α} (h : l.Nodup) (h' : l'.Nodup) (hsub : l ⊆ l') : l.length = l'.length ↔ l' ⊆ l := by
  refine ⟨fun hlen => ?_, fun hsup => Nat.le_antisymm (h.subperm hsub).length_le (h'.subperm hsup).length_le⟩
  exact ((h.subperm hsub).perm_of_length_le (Nat.le_of_eq hlen.symm)).symm.subset

section Tree
variable (t : Tree (Hangs s.children))
include t

/-- The first two levels are all if and only if nothing is further down. -/
theorem firstTwo_all_iff : (∀ x, x ∈ firstTwo s.children a ↔ ∃ n, s.Below a (n + 1) x) ↔ ∀ x, ¬s.Below a 3 x := by
  constructor
  · intro h x hx
    rcases mem_firstTwo.1 ((h x).2 ⟨2, hx⟩) with hx' | hx'
    · exact absurd (t.level_unique hx hx') (by decide)
    · exact absurd (t.level_unique hx hx') (by decide)
  · intro h x
    rw [mem_firstTwo]
    constructor
    · rintro (hx | hx)
      · exact ⟨0, hx⟩
      · exact ⟨1, hx⟩
    · rintro ⟨n, hx⟩
      match n, hx with
      | 0, hx => exact .inl hx
      | 1, hx => exact .inr hx
      | n + 2, hx =>
        obtain ⟨b, hb, -⟩ := Below.split (m := 3) (n := n) (by rwa [Nat.add_comm])
        exact absurd hb (h b)

/-- Members of the first two levels are all if and only if no agent further down has one. -/
theorem membersOf_all_iff (hmember : ∀ m x y, m ∈ s.member x → m ∈ s.member y → x = y) {ids : MemberSet String}
    (hids : ∀ m, m ∈ ids ↔ ∃ n x, s.Below a (n + 1) x ∧ m ∈ s.member x) :
    ids.members ⊆ s.membersOf (firstTwo s.children a) ↔ ∀ n x m, s.Below a (n + 3) x → m ∉ s.member x := by
  constructor
  · intro h n x m hx hm
    obtain ⟨y, hy, hm'⟩ := mem_membersOf.1 (h ((hids m).2 ⟨n + 2, x, hx, hm⟩))
    obtain rfl := hmember m x y hm hm'
    rcases mem_firstTwo.1 hy with hy | hy <;> exact absurd (t.level_unique hx hy) (by omega)
  · intro h m hm
    obtain ⟨n, x, hx, hm⟩ := (hids m).1 hm
    refine mem_membersOf.2 ⟨x, mem_firstTwo.2 ?_, hm⟩
    match n, hx with
    | 0, hx => exact .inl hx
    | 1, hx => exact .inr hx
    | n + 2, hx => exact absurd hm (h n x m hx)

theorem subtree_queries (hids : ∀ x, s.InSubtree a x → s.agent x "id" = some x)
    (hmember : ∀ m x y, m ∈ s.member x → m ∈ s.member y → x = y) {depth : Nat} (hdepth : ∀ x, ¬s.Below a depth x) :
    ∃ agentIds total memberIds, run (getAllChildAgentId a) s = (.ok agentIds, s) ∧
      run (getAgentAllMembers a) s = (.ok total, s) ∧ run (getAgentAllMemberIds depth a) s = (.ok memberIds, s) ∧
      agentIds.Nodup ∧ (∀ m, m ∈ memberIds ↔ ∃ n x, s.Below a (n + 1) x ∧ m ∈ s.member x) ∧
      ((∀ x, x ∈ agentIds ↔ ∃ n, s.Below a (n + 1) x) ↔ ∀ x, ¬s.Below a 3 x) ∧
      (total = (s.member a).scard + memberIds.scard ↔ ∀ n x m, s.Below a (n + 3) x → m ∉ s.member x) := by
  obtain ⟨memberIds, hrun, hmem⟩ := run_getAgentAllMemberIds hids hdepth
  have hnodup : (firstTwo s.children a).Nodup := t.nodup_firstTwo fun p => (s.child p).nodup
  have hsub : s.membersOf (firstTwo s.children a) ⊆ memberIds.members := by
    intro m hm
    obtain ⟨x, hx, hm⟩ := mem_membersOf.1 hm
    rcases mem_firstTwo.1 hx with hx | hx
    · exact (hmem m).2 ⟨0, x, hx, hm⟩
    · exact (hmem m).2 ⟨1, x, hx, hm⟩
  refine ⟨_, _, memberIds, run_getAllChildAgentId, run_getAgentAllMembers, hrun, hnodup, hmem, firstTwo_all_iff t, ?_⟩
  rw [← membersOf_all_iff t hmember hmem, ← length_eq_iff (nodup_membersOf hmember hnodup) memberIds.nodup hsub, length_membersOf,
    MemberSet.scard.eq_def memberIds]
  exact Nat.add_left_cancel_iff

end Tree

end Agree

/-! ## The line of agents -/

theorem demo_member (m x y : String) (hx : m ∈ demoLine.member x) (hy : m ∈ demoLine.member y) : x = y := by
  have hx : m = "u" ++ x := List.mem_singleton.1 hx
  have hy : m = "u" ++ y := List.mem_singleton.1 hy
  simpa using hx.symm.trans hy

/-- Agent 3 has two levels below it, and the pages agree on their members. -/
theorem demo_agree : ∃ total memberIds, run (getAgentAllMembers "3") demoLine = (.ok total, demoLine) ∧
    run (getAgentAllMemberIds 3 "3") demoLine = (.ok memberIds, demoLine) ∧
    total = (demoLine.member "3").scard + memberIds.scard := by
  have hshort : ∀ n x, ¬demoLine.Below "3" (n + 3) x := by
    intro n x hx
    have hrank := hx.rank_le demo_rank_lt
    have hle := demo_rank_le x
    have htop : demoRank "3" = 1 := rfl
    omega
  obtain ⟨agentIds, total, memberIds, -, htotal, hids, -, -, -, hagree⟩ :=
    subtree_queries demo_tree (a := "3") (fun _ _ => rfl) demo_member (hshort 0)
  exact ⟨total, memberIds, htotal, hids, hagree.2 fun n x m hx => absurd hx (hshort n x)⟩

/-- Agent 2 has three levels below it, with one member each; one page counts three members in all, the other four. -/
theorem demo_disagree : (run (getAllChildAgentId "2") demoLine).1 = .ok ["3", "4"] ∧
    (run (getAgentAllMembers "2") demoLine).1 = .ok 3 ∧
    (run (getAgentAllMemberIds 5 "2") demoLine).1.toOption.map MemberSet.members = some ["u5", "u4", "u3"] := by
  decide +kernel

end FishWeb.Downline
