import FishWeb.Downline.Model
/-!
# Switching an agent and all below it

The switches write to an agent and two levels below it, the second level a constant. In a
tree of agents a freeze covers what is below the agent if and only if what is further down
is frozen already, and another switch moreover if it writes that constant, or nothing is two
levels down (`switch_covers`). What is not below the agent stays as it is.
-/
open Python Prog Descent

namespace FishWeb.Downline

/-! ## What is written -/

section Writes
variable {s : St} {l : List Hset} {x field value : String}

/-- What nothing is written to stays. -/
theorem foldl_hset_other (h : ∀ w ∈ l, w.agentId ≠ x) : (l.foldl Hset.apply s).agent x = s.agent x := by
  induction l generalizing s with
  | nil => rfl
  | cons w l ih =>
    obtain ⟨hw, hl⟩ := List.forall_mem_cons.1 h
    rw [List.foldl_cons, ih hl]
    exact Function.update_of_ne (Ne.symm hw) ..

/-- What one value is written to, if anything is, has it. -/
theorem foldl_hset_same (h : ∀ w ∈ l, w.agentId = x → w.field = field ∧ w.value = value)
    (hs : (∃ w ∈ l, w.agentId = x) ∨ s.agent x field = some value) : (l.foldl Hset.apply s).agent x field = some value := by
  induction l generalizing s with
  | nil => simpa using hs
  | cons w l ih =>
    obtain ⟨hw, hl⟩ := List.forall_mem_cons.1 h
    rw [List.foldl_cons]
    by_cases hx : w.agentId = x
    · obtain ⟨rfl, rfl⟩ := hw hx
      exact ih hl (.inr (by simp [Hset.apply, hx]))
    · refine ih hl ?_
      rcases hs with ⟨w', hw', hx'⟩ | hs
      · rcases List.mem_cons.1 hw' with rfl | hw'
        · exact absurd hx' hx
        · exact .inl ⟨w', hw', hx'⟩
      · exact .inr (by simpa [Hset.apply, Ne.symm hx] using hs)

end Writes

/-! ## The tree of agents -/

def St.children (s : St) (agentId : String) : List String := (s.child agentId).members

/-- `x` is `n` levels below the agent. -/
abbrev St.Below (s : St) (agentId : String) (n : Nat) (x : String) : Prop := Descent.Below (Hangs s.children) agentId n x

/-- The agent itself, or one below it. -/
def St.InSubtree (s : St) (agentId x : String) : Prop := ∃ n, s.Below agentId n x

section Switch
variable {s : St} {a field change last x : String}

/-- The pipeline of a switch. -/
def writes (s : St) (a field change last : String) : List Hset :=
  ⟨a, field, change⟩ ::
    ((s.children a).map fun c => ⟨c, field, change⟩ :: (s.children c).map fun d => ⟨d, field, last⟩).flatten

theorem run_setBelow : run (setBelow a field change last) s = (.ok (), (writes s a field change last).foldl Hset.apply s) := by
  have hloop : run (collect (s.children a) fun child => (do
      let childSonList ← call (.smembersChild child)
      return ⟨child, field, change⟩ :: childSonList.members.map (⟨·, field, last⟩) : Handler (List Hset))) s =
        (.ok ((s.children a).map fun c => ⟨c, field, change⟩ :: (s.children c).map fun d => ⟨d, field, last⟩), s) :=
    run_collect fun _ _ => rfl
  exact run_bind_ok hloop

theorem mem_writes {w : Hset} : w ∈ writes s a field change last ↔ w = ⟨a, field, change⟩ ∨
    (∃ c, s.Below a 1 c ∧ w = ⟨c, field, change⟩) ∨ ∃ d, s.Below a 2 d ∧ w = ⟨d, field, last⟩ := by
  simp only [writes, St.Below, below_one, below_two, List.mem_cons, List.mem_flatten, List.mem_map]
  refine or_congr_right ⟨?_, ?_⟩
  · rintro ⟨_, ⟨c, hc, rfl⟩, hw⟩
    rcases List.mem_cons.1 hw with rfl | hw
    · exact .inl ⟨c, hc, rfl⟩
    · obtain ⟨d, hd, rfl⟩ := List.mem_map.1 hw
      exact .inr ⟨d, ⟨c, hc, hd⟩, rfl⟩
  · rintro (⟨c, hc, rfl⟩ | ⟨d, ⟨c, hc, hd⟩, rfl⟩)
    · exact ⟨_, ⟨c, hc, rfl⟩, List.mem_cons_self⟩
    · exact ⟨_, ⟨c, hc, rfl⟩, List.mem_cons_of_mem _ (List.mem_map_of_mem hd)⟩

/-- The store after the switch. -/
def St.set (s : St) (a field change last : String) : St := (writes s a field change last).foldl Hset.apply s

/-- What is not within two levels stays. -/
theorem set_other (h : ∀ n ≤ 2, ¬s.Below a n x) : (s.set a field change last).agent x = s.agent x := by
  refine foldl_hset_other fun w hw hx => ?_
  rcases mem_writes.1 hw with rfl | ⟨c, hc, rfl⟩ | ⟨d, hd, rfl⟩
  · exact h 0 (by decide) (below_zero.2 hx.symm)
  · exact h 1 (by decide) (hx ▸ hc)
  · exact h 2 (by decide) (hx ▸ hd)

variable (t : Tree (Hangs s.children))
include t

/-- The agent and its children get the value, and the children of children the constant. -/
theorem set_near {n : Nat} (hn : n ≤ 1) (h : s.Below a n x) : (s.set a field change last).agent x field = some change := by
  refine foldl_hset_same (fun w hw hx => ?_) (.inl ?_)
  · rcases mem_writes.1 hw with rfl | ⟨c, hc, rfl⟩ | ⟨d, hd, rfl⟩
    · exact ⟨rfl, rfl⟩
    · exact ⟨rfl, rfl⟩
    · obtain rfl : d = x := hx
      have := t.level_unique h hd
      omega
  · obtain rfl | rfl : n = 0 ∨ n = 1 := by omega
    · exact ⟨_, mem_writes.2 (.inl rfl), (below_zero.1 h).symm⟩
    · exact ⟨_, mem_writes.2 (.inr (.inl ⟨x, h, rfl⟩)), rfl⟩

theorem set_second (h : s.Below a 2 x) : (s.set a field change last).agent x field = some last := by
  refine foldl_hset_same (fun w hw hx => ?_) (.inl ⟨_, mem_writes.2 (.inr (.inr ⟨x, h, rfl⟩)), rfl⟩)
  rcases mem_writes.1 hw with rfl | ⟨c, hc, rfl⟩ | ⟨d, hd, rfl⟩
  · exact absurd (t.level_unique h (below_zero.2 hx.symm)) (by decide)
  · obtain rfl : c = x := hx
    exact absurd (t.level_unique h hc) (by decide)
  · exact ⟨rfl, rfl⟩

/-- A switch covers what is below if and only if the constant is the value, or is written to none, and the rest has it already. -/
theorem set_covers_iff : (∀ x, s.InSubtree a x → (s.set a field change last).agent x field = some change) ↔
    (change = last ∨ ∀ x, ¬s.Below a 2 x) ∧ ∀ n x, s.Below a (n + 3) x → s.agent x field = some change := by
  constructor
  · intro h
    refine ⟨?_, fun n x hx => ?_⟩
    · by_cases hsecond : ∃ x, s.Below a 2 x
      · obtain ⟨x, hx⟩ := hsecond
        have hvalue := h x ⟨2, hx⟩
        rw [set_second t hx] at hvalue
        exact .inl (Option.some.inj hvalue).symm
      · exact .inr (not_exists.1 hsecond)
    · rw [← h x ⟨n + 3, hx⟩, set_other]
      intro m hm hx'
      have := t.level_unique hx hx'
      omega
  · rintro ⟨hlast, hdeep⟩ x ⟨n, hx⟩
    match n, hx with
    | 0, hx => exact set_near t (by decide) hx
    | 1, hx => exact set_near t (by decide) hx
    | 2, hx =>
      rw [set_second t hx]
      exact congrArg some (hlast.resolve_right fun hnone => hnone x hx).symm
    | n + 3, hx =>
      rw [set_other, hdeep n x hx]
      intro m hm hx'
      have := t.level_unique hx hx'
      omega

end Switch

/-! ## What the switches cover -/

section Covers
variable {s : St} (t : Tree (Hangs s.children)) (a field change : String)
include t

theorem switch_covers :
    ((∀ x, s.InSubtree a x → (run (agentFreeze a) s).2.agent x "valid" = some "0") ↔
      ∀ n x, s.Below a (n + 3) x → s.agent x "valid" = some "0") ∧
    ((∀ x, s.InSubtree a x → (run (doAgentChange a field change) s).2.agent x field = some change) ↔
      (change = "0" ∨ ∀ x, ¬s.Below a 2 x) ∧ ∀ n x, s.Below a (n + 3) x → s.agent x field = some change) ∧
    ∀ x, ¬s.InSubtree a x → (run (agentFreeze a) s).2.agent x = s.agent x ∧
      (run (doAgentChange a field change) s).2.agent x = s.agent x := by
  rw [agentFreeze, doAgentChange, run_setBelow, run_setBelow]
  refine ⟨(set_covers_iff t).trans (by simp), set_covers_iff t, fun x hx => ⟨set_other ?_, set_other ?_⟩⟩
  · exact fun n _ hn => hx ⟨n, hn⟩
  · exact fun n _ hn => hx ⟨n, hn⟩

end Covers

/-! ## A line of agents -/

/-- The child of an agent in the line. -/
def demoChild (agentId : String) : Option String :=
  if agentId = "2" then some "3" else if agentId = "3" then some "4" else if agentId = "4" then some "5" else none

/-- Agent 2 above agent 3 above agent 4 above agent 5, with one member each. -/
def demoLine : St where
  agent := fun agentId field => if field = "id" then some agentId else some "1"
  child := fun agentId => (demoChild agentId).elim ∅ fun c => ⟨[c], List.nodup_singleton c⟩
  member := fun agentId => ⟨["u" ++ agentId], List.nodup_singleton _⟩

def demoRank (agentId : String) : Nat :=
  if agentId = "3" then 1 else if agentId = "4" then 2 else if agentId = "5" then 3 else 0

theorem demo_hangs {p c : String} (h : Hangs demoLine.children p c) : (p, c) ∈ [("2", "3"), ("3", "4"), ("4", "5")] := by
  simp only [Hangs, St.children, demoLine, demoChild] at h
  split at h
  · simp_all
  split at h
  · simp_all
  split at h
  · simp_all
  · exact absurd h List.not_mem_nil

theorem demo_rank_lt (p c : String) (h : Hangs demoLine.children p c) : demoRank p < demoRank c := by
  have hpair := demo_hangs h
  simp only [List.mem_cons, List.not_mem_nil, or_false, Prod.mk.injEq] at hpair
  rcases hpair with ⟨rfl, rfl⟩ | ⟨rfl, rfl⟩ | ⟨rfl, rfl⟩ <;> decide

theorem demo_tree : Tree (Hangs demoLine.children) := by
  refine .of_rank demoRank demo_rank_lt fun {p q c} hp hq => ?_
  have hp := demo_hangs hp
  have hq := demo_hangs hq
  simp only [List.mem_cons, List.not_mem_nil, or_false, Prod.mk.injEq] at hp hq
  rcases hp with ⟨rfl, rfl⟩ | ⟨rfl, rfl⟩ | ⟨rfl, rfl⟩ <;> simp_all

theorem demo_rank_le (agentId : String) : demoRank agentId ≤ 3 := by
  unfold demoRank
  split_ifs <;> decide

/-- The line below agent 3 is short enough to be frozen. -/
theorem switch_covers_short : (run (agentFreeze "3") demoLine).2.agent "5" "valid" = some "0" := by
  have hbelow : demoLine.Below "3" 2 "5" := below_two.2 ⟨"4", List.mem_singleton.2 rfl, List.mem_singleton.2 rfl⟩
  refine (switch_covers demo_tree "3" "valid" "0").1.2 (fun n x hx => ?_) "5" ⟨2, hbelow⟩
  have hrank := hx.rank_le demo_rank_lt
  have hle := demo_rank_le x
  have htop : demoRank "3" = 1 := rfl
  omega

/-- The grandchild is switched off when agent 2 is switched on, and its child is not frozen with agent 2. -/
theorem switch_misses : (run (doAgentChange "2" "recharge" "1") demoLine).2.agent "4" "recharge" = some "0" ∧
    (run (agentFreeze "2") demoLine).2.agent "5" "valid" = some "1" := by
  decide +kernel

end FishWeb.Downline
