import FishWeb.Pay.Agreement
/-!
# Pending and succeeded orders

An order is put into the pending set by its number. When it is paid, the key of
its table is taken out of that set and put into the succeeded one, where
`/checkOrder` looks for it. So the number stays pending, and the two sets
partition the orders only until one is paid. Here an order is in a set if its
number or its key is.
-/
open Python Prog Counters Runs
open Function (update)

namespace FishWeb.Pay

/-- The order is a member, by its number or by its key. -/
def InSet (no : String) (m : MemberSet String) : Prop := no ∈ m ∨ orderTable no ∈ m

/-- The order is paid. -/
def Paid (no : String) (s : St) : Prop := (getOrder s no).type = some "successful"

/-- The session is let through. -/
def Live (sid : String) (s : St) : Prop :=
  ∃ account user_table, run (checkSession sid) s = (.ok (.ok (account, user_table)), s)

/-- `/checkOrder` answers with code 0. -/
def Checks (sid no : String) (s : St) : Prop := ∃ reply, (run (checkOrder sid no) s).1 = .ok reply ∧ reply.code = 0

/-- An order that was created is pending until it is paid, and succeeded from then on. -/
structure Partitioned (b : Books) : Prop where
  unpaid : ∀ no, (b.asked no).isSome → ¬Paid no b.st → InSet no b.st.pending ∧ ¬InSet no b.st.succeeded
  paid : ∀ no, (b.asked no).isSome → Paid no b.st → InSet no b.st.succeeded ∧ ¬InSet no b.st.pending
  check : ∀ no sid, (b.asked no).isSome → Live sid b.st → (Checks sid no b.st ↔ Paid no b.st)

/-- There are no orders. -/
structure NoOrders (s : St) : Prop where
  order : ∀ no, s.order no = none
  pending : s.pending = ∅
  succeeded : s.succeeded = ∅

/-- The notification is not accepted. -/
def Unaccepted (md5 : String → String) (r : Req) (b : Books) : Prop :=
  match r with
  | .notify _ params => ∀ no u, ¬Settles md5 params no u b.st
  | .create _ | .expire _ => True

/-! ## `/checkOrder` -/

theorem checks_iff {sid no : String} {s : St} (hl : Live sid s) :
    Checks sid no s ↔ no ≠ "" ∧ orderTable no ∈ s.succeeded := by
  obtain ⟨account, user_table, hrun⟩ := hl
  unfold Checks checkOrder
  rw [run_bind_ok hrun]
  dsimp only
  by_cases hno : no = ""
  · simp [hno, Reply.fail]
  by_cases hm : orderTable no ∈ s.succeeded
  · have hne : s.succeeded.members ≠ [] := List.ne_nil_of_mem hm
    simp [call, Exec.exec, hno, hm, hne]
  · by_cases hne : s.succeeded.members = []
    · simp [call, Exec.exec, hno, hm, hne]
    · simp [call, Exec.exec, hno, hm, hne]

/-! ## Until an order is paid -/

/-- Nothing is paid, and every order that was created is pending by its number. -/
structure Unpaid (b : Books) : Prop where
  created : ∀ no, (b.st.order no).isSome → (b.asked no).isSome
  pending : ∀ no, (b.asked no).isSome → no ∈ b.st.pending
  succeeded : b.st.succeeded = ∅
  type : ∀ no, ¬Paid no b.st

theorem unpaid_ofStore {s : St} (hs : NoOrders s) : Unpaid (Books.ofStore s) := by
  have hget : ∀ no, getOrder s no = .blank := by
    intro no
    rw [getOrder, hs.order]
    rfl
  refine ⟨fun no h => ?_, fun no h => ?_, hs.succeeded, fun no h => ?_⟩
  · rw [Books.ofStore, hs.order no] at h
    cases h
  · have hasked : (Books.ofStore s).asked no = amount no s := rfl
    rw [hasked, amount, hget] at h
    cases h
  · rw [Paid, Books.ofStore, hget] at h
    cases h

theorem Unpaid.partitioned {b : Books} (h : Unpaid b) : Partitioned b where
  unpaid no hc _ := by
    refine ⟨.inl (h.pending no hc), ?_⟩
    rw [h.succeeded]
    rintro (hm | hm) <;> exact MemberSet.not_mem_empty _ hm
  paid no _ hp := absurd hp (h.type no)
  check no sid _ hl := by
    rw [checks_iff hl, h.succeeded]
    exact ⟨fun hm => absurd hm.2 (MemberSet.not_mem_empty _), fun hp => absurd hp (h.type no)⟩

section Steps
variable {md5 : String → String} {r : Req} {b : Books}

theorem unpaid_booked (hu : Unaccepted md5 r b) (h : Unpaid b) : Unpaid (booked md5 r b) := by
  have he := effect_of md5 r b.st
  unfold booked
  generalize events md5 r b.st = evs, step md5 r b.st = s' at he ⊢
  cases he with
  | nothing | refused | unexpired => exact ⟨h.created, h.pending, h.succeeded, h.type⟩
  | paid today params no u hs => exact absurd hs (hu no u)
  | placed r n o i =>
    refine ⟨fun no hsome => ?_, fun no hc => ?_, h.succeeded, fun no hp => ?_⟩
    · by_cases hn : no = n
      · simp [asks, hn]
      · dsimp only at hsome
        rw [order_placed no _ n o hn] at hsome
        simpa [asks, hn] using h.created no hsome
    · by_cases hn : no = n
      · exact (MemberSet.mem_sadd ..).2 (.inl hn)
      · have hold : (b.asked no).isSome := by simpa [asks, hn] using hc
        exact (MemberSet.mem_sadd ..).2 (.inr (h.pending no hold))
    · by_cases hn : no = n
      · rw [Paid, getOrder_placed, if_pos hn] at hp
        exact absurd (Option.some.inj hp) (by decide)
      · rw [Paid, getOrder_placed, if_neg hn] at hp
        exact h.type no hp
  | expired n hx =>
    refine ⟨fun no hsome => ?_, h.pending, h.succeeded, fun no hp => ?_⟩
    · dsimp only at hsome
      rw [order_putOrder] at hsome
      split at hsome
      · cases hsome
      · exact h.created no hsome
    · rw [Paid, getOrder_putOrder] at hp
      split at hp
      · cases hp
      · exact h.type no hp

theorem orderTable_ne (no : String) : no ≠ orderTable no := by
  intro h
  have hlen : no.length = ("orders4fish:id:" ++ no).length := congrArg String.length h
  rw [String.length_append] at hlen
  have hprefix : "orders4fish:id:".length = 15 := by decide
  omega

/-- An order that is paid stays pending by its number. -/
theorem not_partitioned {today : String} {params : Dict} {no : String} {u : Update} (h : Unpaid b)
    (hs : Settles md5 params no u b.st) : ¬Partitioned (booked md5 (.notify today params) b) := by
  intro hp
  obtain ⟨hrun, htrace⟩ := run_notify md5 today hs
  have hasked : (booked md5 (.notify today params) b).asked = b.asked := by
    rw [booked, events, htrace]
    cases paymentOf today (getOrder (settled b.st no u) no) (settled b.st no u) <;> rfl
  have hst : (booked md5 (.notify today params) b).st = credited today no u b.st := hrun
  have hcreated := h.created no hs.order
  have hpaid : Paid no (credited today no u b.st) := by
    rw [Paid, getOrder_credited, getOrder_settled, if_pos rfl]
    rfl
  have hpending : (credited today no u b.st).pending = b.st.pending.srem (orderTable no) := by
    unfold credited
    cases paymentOf today (getOrder (settled b.st no u) no) (settled b.st no u) <;> rfl
  obtain ⟨-, hnot⟩ := hp.paid no (by rw [hasked]; exact hcreated) (by rw [hst]; exact hpaid)
  rw [hst, hpending] at hnot
  exact hnot (.inl ((MemberSet.mem_srem ..).2 ⟨orderTable_ne no, h.pending no hcreated⟩))

theorem partitioned_iff (h : Unpaid b) : Partitioned (booked md5 r b) ↔ Unaccepted md5 r b := by
  constructor
  · intro hp
    cases r with
    | create | expire => trivial
    | notify today params => exact fun no u hs => not_partitioned h hs hp
  · exact fun hu => (unpaid_booked hu h).partitioned

end Steps

/-- The pending and the succeeded orders partition those that were created all along a run exactly if none of them
is paid. -/
theorem orders_partitioned_iff (md5 : String → String) {s : St} (hs : NoOrders s) (rs : List Req) :
    All (booked md5) (fun r b => Partitioned (booked md5 r b)) rs (Books.ofStore s) ↔
      All (booked md5) (Unaccepted md5) rs (Books.ofStore s) :=
  all_iff (I := Unpaid) (fun _ _ => partitioned_iff) (fun _ _ => unpaid_booked) (unpaid_ofStore hs)

theorem emptyShop_noOrders : NoOrders emptyShop := ⟨fun _ => rfl, rfl, rfl⟩

/-- A request that orders the goods. -/
def sampleReq : OrderReq where
  sid := "sid"
  goodsId := "1"
  stamp := "20180601120000"
  rand := fun i => if i = 0 then 1 else if i = 1 then 2 else if i = 2 then 3 else if i = 3 then 4 else 5
  answer := [("return_code", "SUCCESS"), ("prepay_id", "wx1"), ("app_prepay_info", "{}"), ("sub_appid", "wx")]

theorem orders_partitioned_created : All (booked sampleMd5) (fun r b => Partitioned (booked sampleMd5 r b))
    [.create sampleReq, .expire sampleNo] (Books.ofStore emptyShop) :=
  (orders_partitioned_iff sampleMd5 emptyShop_noOrders [.create sampleReq, .expire sampleNo]).2 ⟨trivial, trivial, trivial⟩

/-- An order that is created and paid is in both sets. -/
theorem paid_order_pending : NoOrders emptyShop ∧
    ¬All (booked sampleMd5) (fun r b => Partitioned (booked sampleMd5 r b))
      [.create sampleReq, .notify "2018-06-01" (sampleParams "600" "F92C5081567812703F7B434BEF98501F")]
      (Books.ofStore emptyShop) := by
  refine ⟨emptyShop_noOrders, fun h => ?_⟩
  obtain ⟨-, hnot⟩ := h.2.1.paid sampleNo (by decide +kernel) (by unfold Paid; decide +kernel)
  exact hnot (.inl (by decide +kernel))

end FishWeb.Pay
