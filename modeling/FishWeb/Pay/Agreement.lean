import FishWeb.Pay.Once
/-!
# The amount that is paid

A notification's fee is written over the amount that was asked for, never
compared with it. `Books` remembers what was asked: the runs in which only the
fees that were asked for are credited are those in which no other is notified.
-/
open Python Prog Counters Runs
open Function (update)

namespace FishWeb.Pay

/-- The store, and what each order was to cost when it was created. -/
structure Books where
  st : St
  asked : String → Option Int

/-- The amount stored with an order. -/
def amount (no : String) (s : St) : Option Int := (getOrder s no).money.bind int

/-- The amounts that are asked for after orders are written. -/
def asks (evs : List Ev) (asked : String → Option Int) : String → Option Int :=
  evs.foldl (fun asked ev => match ev with
    | .placed no money => update asked no (some money)
    | .recorded _ => asked) asked

/-- The books that are opened with the orders there are. -/
def Books.ofStore (s : St) : Books := ⟨s, fun no => amount no s⟩

section Agreement
variable (md5 : String → String)

def booked (r : Req) (b : Books) : Books := ⟨step md5 r b.st, asks (events md5 r b.st) b.asked⟩

/-- The fee of a notification. -/
def fee (params : Dict) : Option Int := (get params "total_fee").bind int

/-- A payment is of the amount that was asked for; a notification of another one changes neither balances and totals
nor the amount. -/
structure Agrees (r : Req) (b : Books) : Prop where
  credited : ∀ today params no, r = .notify today params → credits md5 no r b.st = true → fee params = b.asked no
  unchanged : ∀ today params no, r = .notify today params → get params "out_trade_no" = some no →
    fee params ≠ b.asked no → (step md5 r b.st).ledger = b.st.ledger ∧ amount no (step md5 r b.st) = amount no b.st

/-- A notification that is accepted is of the amount that was asked for. -/
def Honest (r : Req) (b : Books) : Prop :=
  match r with
  | .notify _ params => ∀ no u, Settles md5 params no u b.st → int u.money = b.asked no
  | .create _ | .expire _ => True

/-- Every order has the amount it was created with. -/
def Kept (b : Books) : Prop := ∀ no, (b.st.order no).isSome → amount no b.st = b.asked no

variable {md5}

theorem Settles.fee {params : Dict} {no : String} {u : Update} {s : St} (h : Settles md5 params no u s) :
    fee params = int u.money := by
  unfold Pay.fee
  rw [h.money]
  rfl

theorem amount_credited (today no : String) (u : Update) (s : St) : amount no (credited today no u s) = int u.money := by
  unfold amount
  rw [getOrder_credited, getOrder_settled, if_pos rfl]
  rfl

theorem agrees_iff {r : Req} {b : Books} (hk : Kept b) : Agrees md5 r b ↔ Honest md5 r b := by
  cases r with
  | create r => exact ⟨fun _ => trivial, fun _ => ⟨fun _ _ _ h => (by cases h), fun _ _ _ h => (by cases h)⟩⟩
  | expire no => exact ⟨fun _ => trivial, fun _ => ⟨fun _ _ _ h => (by cases h), fun _ _ _ h => (by cases h)⟩⟩
  | notify today params =>
    constructor
    · intro ha no u hs
      -- the notification writes its own amount over the order
      by_contra hne
      obtain ⟨hrun, -⟩ := run_notify md5 today hs
      have hsame := (ha.unchanged today params no rfl hs.out_trade_no (hs.fee.trans_ne hne)).2
      rw [step, hrun, amount_credited, hk no hs.order] at hsame
      exact hne hsame
    · intro hh
      by_cases hs : ∃ no u, Settles md5 params no u b.st
      · obtain ⟨no, u, hs⟩ := hs
        have hasked : fee params = b.asked no := hs.fee.trans (hh no u hs)
        have hno : ∀ n, get params "out_trade_no" = some n → n = no := fun n hn =>
          Option.some.inj (hn.symm.trans hs.out_trade_no)
        refine ⟨fun _ _ n heq hc => ?_, fun _ _ n heq hn hne => ?_⟩
        · cases heq
          have hnames := (Bool.and_eq_true _ _ ▸ hc).1
          rw [hno n (of_decide_eq_true hnames)]
          exact hasked
        · cases heq
          rw [hno n hn] at hne
          exact absurd hasked hne
      · have hs : ∀ no u, ¬Settles md5 params no u b.st := fun no u h => hs ⟨no, u, h⟩
        obtain ⟨hrun, htrace⟩ := run_notify_refused md5 today hs
        refine ⟨fun _ _ n heq hc => ?_, fun _ _ n heq _ _ => ?_⟩
        · rw [credits, events, htrace] at hc
          simp at hc
        · rw [step, hrun]
          exact ⟨rfl, rfl⟩

theorem kept_booked {r : Req} {b : Books} (hh : Honest md5 r b) (hk : Kept b) : Kept (booked md5 r b) := by
  have he := effect_of md5 r b.st
  unfold booked Kept
  generalize events md5 r b.st = evs, step md5 r b.st = s' at he ⊢
  intro no hsome
  cases he with
  | nothing | refused | unexpired => exact hk no hsome
  | placed r n o i =>
    by_cases hn : no = n
    · subst hn
      have hamount : amount no (placed (withIndex b.st i) no o) = int (toString o.money) := by
        unfold amount
        rw [getOrder_placed, if_pos rfl]
        rfl
      rw [hamount, int_toString_int]
      simp [asks]
    · have hold : (b.st.order no).isSome := by
        dsimp only at hsome
        rwa [order_placed no _ n o hn] at hsome
      have hamount : amount no (placed (withIndex b.st i) n o) = amount no b.st := by
        unfold amount
        rw [getOrder_placed, if_neg hn]
        rfl
      rw [hamount, hk no hold]
      simp [asks, hn]
  | paid today params n u h =>
    have hasked : asks ((paymentOf today (getOrder (settled b.st n u) n) (settled b.st n u)).toList.map .recorded) b.asked =
        b.asked := by
      cases paymentOf today (getOrder (settled b.st n u) n) (settled b.st n u) <;> rfl
    rw [hasked]
    by_cases hn : no = n
    · subst hn
      rw [amount_credited]
      exact hh no u h
    · have hold : (b.st.order no).isSome := by
        dsimp only at hsome
        rwa [credited, order_recorded, order_settled no _ n u hn] at hsome
      have hamount : amount no (credited today n u b.st) = amount no b.st := by
        unfold amount
        rw [getOrder_credited, getOrder_settled, if_neg hn]
      rw [hamount]
      exact hk no hold
  | expired n h =>
    dsimp only at hsome ⊢
    by_cases hn : no = n
    · rw [order_putOrder, if_pos hn] at hsome
      cases hsome
    · have hamount : amount no (putOrder b.st n none) = amount no b.st := by
        unfold amount
        rw [getOrder_putOrder, if_neg hn]
      rw [order_putOrder, if_neg hn] at hsome
      rw [hamount]
      exact hk no hsome

end Agreement

/-- A run credits only what was asked for, and is not changed by a notification of anything else, exactly if every
notification that is accepted is of the amount that was asked for. -/
theorem amount_agrees_iff (md5 : String → String) (s : St) (rs : List Req) :
    All (booked md5) (Agrees md5) rs (Books.ofStore s) ↔ All (booked md5) (Honest md5) rs (Books.ofStore s) :=
  all_iff (I := Kept) (fun _ _ => agrees_iff) (fun _ _ => kept_booked) fun _ _ => rfl

/-- One fen pays for an order of 600. -/
theorem other_amount_credited : ¬All (booked sampleMd5) (Agrees sampleMd5)
    [.notify "2018-06-01" (sampleParams "1" "6F99544DDD8EC8F1D60731F13C0889DE")] (Books.ofStore sampleShop) := by
  intro h
  have hfee := h.1.credited _ _ sampleNo rfl (by decide +kernel)
  exact absurd hfee (by decide)

end FishWeb.Pay
