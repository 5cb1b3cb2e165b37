import FishWeb.Coin.Model
import FishWeb.Lib.Runs
/-!
# Two allowances a day

Calls on any days, each of which finds any balance. The days on which an allowance was paid
are kept beside the store. `partyModel.py` does not import the key of the allowances, so a call
raises and none is ever paid: the calls are right if and only if none finds a low balance
(`allowances_right_iff`).

Where the keys are imported, the times that an entry counts are counted on from the entry
before it, on whatever day that was, so the entry counts all allowances and not those of its
day. A call is right if and only if this makes no difference (`imported_allowances_right_iff`).
-/
open Python Prog Runs

namespace FishWeb.Coin

/-- A call, and the balance it finds. -/
structure Call where
  timestamp : Int
  uid : String
  account : String
  coin : Option Int

/-- The store, and the days on which an allowance was paid, the latest first. -/
structure History where
  st : St
  paid : List String

section
variable (names : Names) (day text : Int → String)

/-- The store that the call finds. -/
def Call.found (c : Call) (h : History) : St := { h.st with coin := c.coin }

def Call.run (c : Call) (h : History) : Except Err Reply × St :=
  Prog.run (do_PlayerWelfareInsurance names day text c.timestamp c.uid c.account) (c.found h)

def IsPaid : Except Err Reply → Bool
  | .ok (.msg code _) => code = 0
  | _ => false

def History.next (c : Call) (h : History) : History where
  st := (c.run names day text h).2
  paid := if IsPaid (c.run names day text h).1 then day c.timestamp :: h.paid else h.paid

/-- The call is paid if and only if the balance is low and fewer than two were paid on the day, and it is paid two thousand. -/
def Call.Right (c : Call) (h : History) : Prop :=
  (IsPaid (c.run names day text h).1 = true ↔ c.coin.getD 0 < 2000 ∧ h.paid.count (day c.timestamp) < 2) ∧
  (IsPaid (c.run names day text h).1 = true → (c.run names day text h).2.coin = some (c.coin.getD 0 + 2000))

/-- Where the balance is low, the latest allowance is of the day and not the first of all, exactly where two were paid on the day. -/
def Call.Told (c : Call) (h : History) : Prop :=
  c.coin.getD 0 < 2000 → (h.paid.head? = some (day c.timestamp) ∧ 2 ≤ h.paid.length ↔ 2 ≤ h.paid.count (day c.timestamp))

/-- The entries are those of the allowances that were paid, and the newest counts them all. -/
structure History.Kept (h : History) : Prop where
  days : h.st.insurance.map (fun e => day e.timestamp) = h.paid
  times : ∀ e ∈ h.st.insurance.head?, e.signTimes = h.paid.length

end

section
variable {day text : Int → String} {h : History}

theorem History.Kept.overflow_iff (hk : h.Kept day) (c : Call) :
    (c.found h).overflow day c.timestamp = true ↔ h.paid.head? = some (day c.timestamp) ∧ 2 ≤ h.paid.length := by
  have hfound : (c.found h).insurance = h.st.insurance := rfl
  rw [St.overflow, hfound, ← hk.days, List.head?_map]
  cases hhead : h.st.insurance.head? with
  | none => simp
  | some e =>
    have htimes := hk.times e hhead
    rw [← hk.days] at htimes
    simp only [Option.any_some, decide_eq_true_eq, htimes, SIGN_MAX, Option.map_some, Option.some.injEq]
    exact and_congr_right fun _ => by omega

/-- A call is refused for the balance or for the limit, or it is paid. -/
theorem call_run (c : Call) (h : History) :
    c.run imported day text h =
      if c.coin.getD 0 ≥ SIGN_LINE then (.ok (.msg 1 "未达到低保线无法领取"), c.found h)
      else if (c.found h).overflow day c.timestamp then (.ok (.msg 1 "已经领取了 2 次"), c.found h)
      else (.ok (.msg 0 "领取低保成功"), (c.found h).allowed text c.timestamp c.uid c.account) :=
  run_allowance ..

theorem isPaid_iff (c : Call) (h : History) :
    IsPaid (c.run imported day text h).1 = true ↔ c.coin.getD 0 < 2000 ∧ (c.found h).overflow day c.timestamp = false := by
  rw [call_run, SIGN_LINE]
  by_cases hlow : c.coin.getD 0 ≥ 2000
  · rw [if_pos hlow]
    simp [IsPaid, not_lt.2 hlow]
  · rw [if_neg hlow]
    cases (c.found h).overflow day c.timestamp <;> simp [IsPaid, not_le.1 hlow]

theorem History.Kept.next (hk : h.Kept day) (c : Call) : (h.next imported day text c).Kept day := by
  unfold History.next
  rw [call_run]
  split
  · exact ⟨hk.days, hk.times⟩
  · split
    · exact ⟨hk.days, hk.times⟩
    · refine ⟨congrArg (day c.timestamp :: ·) hk.days, fun e he => ?_⟩
      rw [← Option.some.inj he]
      show (h.st.insurance.head?.map fun lastInfo => lastInfo.signTimes + 1).getD 1 = ((h.paid.length + 1 : Nat) : Int)
      cases hhead : h.st.insurance.head? with
      | none =>
        have hnil : h.paid = [] := by rw [← hk.days, List.head?_eq_none_iff.1 hhead]; rfl
        rw [hnil]
        rfl
      | some e => simp [hk.times e hhead]

theorem History.Kept.right_iff (hk : h.Kept day) (c : Call) : c.Right imported day text h ↔ c.Told day h := by
  have hpays : IsPaid (c.run imported day text h).1 = true → (c.run imported day text h).2.coin = some (c.coin.getD 0 + 2000) := by
    intro hpaid
    obtain ⟨hlow, hlimit⟩ := (isPaid_iff c h).1 hpaid
    rw [call_run, if_neg (by rw [SIGN_LINE]; omega), hlimit]
    rfl
  unfold Call.Right Call.Told
  have hfew : h.paid.count (day c.timestamp) < 2 ↔ ¬2 ≤ h.paid.count (day c.timestamp) := Nat.not_le.symm
  rw [and_iff_left hpays, isPaid_iff, ← hk.overflow_iff, hfew]
  generalize (2 ≤ h.paid.count (day c.timestamp)) = many
  by_cases hlow : c.coin.getD 0 < 2000
  · cases (c.found h).overflow day c.timestamp with
    | false => simp [hlow]
    | true => simp [hlow]
  · simp [hlow]

/-- Where the allowances of a day are the latest, as they are when time goes on, a low call is told wrong if and only if one
allowance was paid on the day, after others. -/
theorem told_iff_of_latest {c : Call} {k : Nat} {rest : List String} (hpaid : h.paid = List.replicate k (day c.timestamp) ++ rest)
    (hrest : day c.timestamp ∉ rest) : c.Told day h ↔ (c.coin.getD 0 < 2000 → ¬(k = 1 ∧ rest ≠ [])) := by
  have hcount : h.paid.count (day c.timestamp) = k := by
    rw [hpaid, List.count_append, List.count_replicate_self, List.count_eq_zero_of_not_mem hrest, Nat.add_zero]
  have hlength : h.paid.length = k + rest.length := by simp [hpaid]
  have hnone : rest ≠ [] ↔ 0 < rest.length := List.length_pos_iff.symm
  have hhead : h.paid.head? = some (day c.timestamp) ↔ 0 < k := by
    rw [hpaid]
    cases k with
    | zero => exact ⟨fun hh => absurd (List.mem_of_mem_head? hh) hrest, fun hk => absurd hk (lt_irrefl 0)⟩
    | succ k => exact ⟨fun _ => Nat.succ_pos k, fun _ => rfl⟩
  unfold Call.Told
  rw [hcount, hhead, hlength, hnone]
  refine imp_congr_right fun _ => ?_
  omega

end

/-- Where the keys are imported: along any calls, from no allowances, each is right if and only if each is told right. -/
theorem imported_allowances_right_iff (day text : Int → String) {s : St} (h : s.insurance = []) (calls : List Call) :
    All (History.next imported day text) (fun c h => c.Right imported day text h) calls ⟨s, []⟩ ↔
      All (History.next imported day text) (fun c h => c.Told day h) calls ⟨s, []⟩ :=
  all_iff (I := fun h => h.Kept day) (fun c _ hk => hk.right_iff c) (fun c _ _ hk => hk.next c) ⟨by rw [h]; rfl, by rw [h]; simp⟩

/-- The day of a timestamp, in a place where the sun keeps to the clock. -/
def dayOf (timestamp : Int) : String := toString (timestamp / 86400)

/-- A call that finds no coins. -/
def poor (timestamp : Int) : Call := ⟨timestamp, "7", "ann", none⟩

def noAllowances : History := ⟨⟨none, [], [], []⟩, []⟩

/-- On the second day one is paid, and the next is refused. -/
example : (after (History.next imported dayOf dayOf) [poor 0, poor 86400] noAllowances).paid = ["1", "0"] ∧
    ((poor 90000).run imported dayOf dayOf (after (History.next imported dayOf dayOf) [poor 0, poor 86400] noAllowances)).1 =
      .ok (.msg 1 "已经领取了 2 次") := by
  decide +kernel

/-! ## The calls of `partyModel.py` -/

/-- A call stops at the key of the allowances. -/
theorem run_partyModel (day text : Int → String) (c : Call) (h : History) :
    c.run partyModel day text h = (.error .NameError, c.found h) := rfl

/-- Where none was paid, a call is right if and only if the balance is not low. -/
theorem right_iff_not_low {day text : Int → String} {h : History} (hnone : h.paid = []) (c : Call) :
    c.Right partyModel day text h ↔ 2000 ≤ c.coin.getD 0 := by
  unfold Call.Right
  rw [run_partyModel, hnone]
  simp [IsPaid]

theorem next_none {day text : Int → String} {h : History} (hnone : h.paid = []) (c : Call) :
    (h.next partyModel day text c).paid = [] := hnone

/-- Along any calls from any store, from no allowances, each is right if and only if none finds a low balance. -/
theorem allowances_right_iff (day text : Int → String) (s : St) (calls : List Call) :
    All (History.next partyModel day text) (fun c h => c.Right partyModel day text h) calls ⟨s, []⟩ ↔
      ∀ c ∈ calls, 2000 ≤ c.coin.getD 0 := by
  have hiff : All (History.next partyModel day text) (fun c h => c.Right partyModel day text h) calls ⟨s, []⟩ ↔
      All (History.next partyModel day text) (fun c _ => 2000 ≤ c.coin.getD 0) calls ⟨s, []⟩ :=
    all_iff (I := fun h => h.paid = []) (fun c _ hnone => right_iff_not_low hnone c) (fun c _ _ hnone => next_none hnone c) rfl
  exact hiff.trans all_iff_forall

/-- A user without coins calls: a name is missing, and nothing is paid. -/
theorem poor_unpaid :
    ((poor 0).run partyModel dayOf dayOf noAllowances).1 = .error .NameError ∧
      ¬(poor 0).Right partyModel dayOf dayOf noAllowances := by
  refine ⟨rfl, fun hright => ?_⟩
  have hdue : IsPaid ((poor 0).run partyModel dayOf dayOf noAllowances).1 = true := hright.1.2 ⟨by decide, by decide⟩
  exact Bool.false_ne_true hdue

end FishWeb.Coin
