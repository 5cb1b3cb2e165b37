import FishWeb.Sign.Once
/-!
# All or nothing

What a request to sign in leaves behind when it fails. The check writes the list of the
day before the reward is known, and the counter of the month is written before the
pipeline. A day that gives no coins, or a user whose level is no number, ends the request
in an exception after that.
-/
open Python Prog Counters Calendar FishWeb.Common

namespace FishWeb.Sign

/-- A success: the user gets his warheads, is on the list of the day, and has signed in once more this month. -/
structure Success (now : Date) (sid signDay : String) (s s' : St) (p : Pass) : Prop where
  passes : Passes now sid signDay s p
  credited : ∃ n, warheads s p.uid = some n ∧ val s'.warhead p.user_table = val s.warhead p.user_table + n
  recorded : p.uid ∈ s'.users p.key p.day
  counted : val s'.number (now.month, p.account) = val s.number (now.month, p.account) + 1

/-- No list of users, no counter, no date of a user and no balance has changed. -/
structure Untouched (s s' : St) : Prop where
  users : s'.users = s.users
  number : s'.number = s.number
  last_sign_date : s'.last_sign_date = s.last_sign_date
  warhead : s'.warhead = s.warhead

/-- The request succeeds, or ends in an error and changes nothing. -/
def Atomic (now : Date) (sid signDay : String) (s : St) : Prop :=
  (∃ reply p, (run (doSign now sid signDay) s).1 = .ok reply ∧ reply.code = 0 ∧
      Success now sid signDay s (run (doSign now sid signDay) s).2 p) ∨
    (∀ reply, (run (doSign now sid signDay) s).1 = .ok reply → reply.code ≠ 0) ∧
      Untouched s (run (doSign now sid signDay) s).2

section Request
variable {now : Date} {sid signDay : String} {s : St}

theorem mem_marked (s : St) (p : Pass) : p.uid ∈ (s.marked p).users p.key p.day := by
  simp [St.marked, setUsers]

/-- A list keeps its users when one is appended to any list. -/
theorem mem_setUsers {t : WeekKey → Fin 7 → List String} {k k' : WeekKey} {day day' : Fin 7} {uid : String}
    (h : uid ∈ t k' day') (users : List String) : uid ∈ setUsers t k day (t k day ++ users) k' day' := by
  unfold setUsers
  by_cases hk : k' = k
  · subst hk
    rw [Function.update_self]
    by_cases hday : day' = day
    · subst hday
      rw [Function.update_self]
      exact List.mem_append_left _ h
    · rwa [Function.update_of_ne hday]
  · rwa [Function.update_of_ne hk]

/-- A request that is rewarded is a success. -/
theorem success_of_rewardable {p : Pass} (h : Passes now sid signDay s p) (hr : Rewardable s p) :
    ∃ reply, (run (doSign now sid signDay) s).1 = .ok reply ∧ reply.code = 0 ∧
      Success now sid signDay s (run (doSign now sid signDay) s).2 p := by
  obtain ⟨n, hn, hrun, -⟩ := run_doSign_rewarded h hr
  rw [hrun]
  refine ⟨_, rfl, rfl, h, ⟨n, hn, ?_⟩, mem_setUsers (mem_marked s p) [p.uid], ?_⟩
  · rw [St.rewarded, val_incrby, if_pos rfl]
    rfl
  · rw [St.rewarded, val_incrby, if_pos rfl]
    rfl

theorem run_getShouldSignWarheads_not {uid : String} (h : warheads s uid = none) :
    run (getShouldSignWarheads uid) s = (.error .ValueError, s) := by
  have hlevel := Option.map_eq_none_iff.1 h
  by_cases hempty : (s.setup.vip_level uid).getD "" = ""
  · rw [if_pos hempty] at hlevel
    cases hlevel
  · rw [if_neg hempty] at hlevel
    simp [getShouldSignWarheads, send, Exec.exec, hempty, hlevel]

/-- Where no reward can be given, the request ends in an exception with the lists as they were. -/
theorem takeSignReward_fails (now : Date) (user_table account : String) {uid : String} {day : Fin 7} {info : DayInfo}
    (h : ¬((int info.give_type).getD 0 = GIVE_COIN ∧ (warheads s uid).isSome)) :
    ∃ e, (run (takeSignReward now user_table account uid s.signId day info) s).1 = .error e ∧
      (run (takeSignReward now user_table account uid s.signId day info) s).2.users = s.users := by
  unfold takeSignReward
  by_cases hcoin : (int info.give_type).getD 0 = GIVE_COIN
  · have hlevel : warheads s uid = none := by simpa [hcoin] using h
    simp only [if_pos hcoin]
    rw [run_bind_error (run_getShouldSignWarheads_not hlevel)]
    exact ⟨_, rfl, rfl⟩
  · simp only [if_neg hcoin, ret_bind]
    refine ⟨.NameError, ?_⟩
    cases hnumber : s.number (now.month, account) <;> simp [send, Exec.exec, hnumber]

/-- A request that passes and cannot be rewarded ends in an exception, with the user on the list. -/
theorem run_doSign_fails {p : Pass} (h : Passes now sid signDay s p) (hr : ¬Rewardable s p) :
    ∃ e, (run (doSign now sid signDay) s).1 = .error e ∧ p.uid ∈ (run (doSign now sid signDay) s).2.users p.key p.day := by
  obtain ⟨hrun, -⟩ := doSign_bind now sid signDay s h.verfiy h.session
  have hcheck : run (checkSignValid now p.uid signDay s.signId) s = (.ok (.ok (p.day, p.info)), s.marked p) :=
    run_checkSignValid h
  have hnot : ¬((int p.info.give_type).getD 0 = GIVE_COIN ∧ (warheads (s.marked p) p.uid).isSome) := by
    rintro ⟨hcoin, hlevel⟩
    refine hr ⟨hcoin, ?_⟩
    obtain ⟨n, hn⟩ := Option.isSome_iff_exists.1 hlevel
    obtain ⟨level, hl, -⟩ := Option.map_eq_some_iff.1 hn
    by_cases hempty : (s.setup.vip_level p.uid).getD "" = ""
    · exact .inl hempty
    · exact .inr ⟨level, (if_neg hempty).symm.trans hl⟩
  obtain ⟨e, he, husers⟩ := takeSignReward_fails (s := s.marked p) now p.user_table p.account hnot
  rw [hrun, run_bind_ok hcheck]
  refine ⟨e, he, ?_⟩
  show p.uid ∈ (run (takeSignReward now p.user_table p.account p.uid (s.marked p).signId p.day p.info)
    (s.marked p)).2.users p.key p.day
  rw [husers]
  exact mem_marked s p

end Request

/-- Every day gives a prop. -/
def propDays : St := { demo with table := fun _ => some fun _ => some ⟨"2", "1000", ""⟩ }

end FishWeb.Sign
