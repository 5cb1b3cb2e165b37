import FishWeb.Agents.Order
/-!
# Fresh ids of agents

`getAgentIdNo` draws six digits and registers them. Where they are registered already it
calls itself with a variable there is not, so that the first try alone decides.
-/
open Python Prog

namespace FishWeb.Agents

/-- The digits of a try, of those that `random` gives one after another. -/
def drawn (digits : Nat → Fin 9) (k : Nat) : IdNo := fun i => digits (6 * k + i)

/-- An id is returned that was not registered, and is from then on. -/
def ReturnsFresh (digits : Nat → Fin 9) (s : St) : Prop :=
  ∃ id s', run (getAgentIdNo (drawn digits 0)) s = (.ok id, s') ∧ id ∉ s.ids ∧ id ∈ s'.ids

/-- For every set of ids and all digits: the id is fresh exactly when the first six digits are no registered id. -/
theorem fresh_id_iff (digits : Nat → Fin 9) (s : St) : ReturnsFresh digits s ↔ (drawn digits 0).text ∉ s.ids := by
  unfold ReturnsFresh
  rw [run_getAgentIdNo]
  constructor
  · rintro ⟨id, s', hrun, hid, -⟩
    by_contra htaken
    rw [if_neg (not_not.2 htaken)] at hrun
    cases (Prod.mk.inj hrun).1
  · intro hnew
    exact ⟨_, _, by rw [if_pos hnew], hnew, (MemberSet.mem_sadd ..).2 (.inl rfl)⟩

/-- Six zeros, and then ones. -/
def zerosFirst : Nat → Fin 9 := fun n => ⟨if n < 6 then 0 else 1, by split <;> decide⟩

/-- The agent 000000 is registered, and no other. -/
def oneAgent : St := { init with ids := (∅ : MemberSet String).sadd "000000" }

/-- The second try would be free, and is not made. -/
theorem second_try_fails :
    (∃ idNo : IdNo, idNo.text ∉ oneAgent.ids) ∧ (drawn zerosFirst 1).text ∉ oneAgent.ids ∧
      (run (getAgentIdNo (drawn zerosFirst 0)) oneAgent).1 = .error .NameError ∧ ¬ReturnsFresh zerosFirst oneAgent := by
  refine ⟨⟨drawn zerosFirst 1, by decide⟩, by decide, rfl, ?_⟩
  rintro ⟨id, s', hrun, -⟩
  cases (Prod.mk.inj hrun).1

end FishWeb.Agents
