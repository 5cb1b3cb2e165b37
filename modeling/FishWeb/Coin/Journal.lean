import FishWeb.Coin.Model
import FishWeb.Lib.Runs
/-!
# The journal of the coins

Coins are added and set, and given by sign-ins and allowances, in any order from an empty
account. An operation changes nothing of the coins, or makes one entry, whose change is the
change of the balance (`Moves`). So the journal adds up to the balance (`journal_ledger`),
whichever names are bound.
-/
open Python Prog Runs Dice

namespace FishWeb.Coin

/-- What is done to the coins of a user. -/
inductive Op where
  | add (timestamp : Int) (account : String) (n : Nat) (source : String)
  | setTo (timestamp : Int) (account : String) (m : Int) (source : String)
  | sign (timestamp : Int) (draws : Draws) (uid account : String)
  | allowance (timestamp : Int) (uid account : String)

section
variable (names : Names) (day text : Int → String)

def step : Op → St → St
  | .add timestamp account n source, s => (run (do_PlayerCoin names text timestamp "add" account n source) s).2
  | .setTo timestamp account m source, s => (run (do_PlayerCoin names text timestamp "to" account m source) s).2
  | .sign timestamp draws uid account, s => (run (do_PlayerWelfareSign names day text timestamp draws uid account) s).2
  | .allowance timestamp uid account, s => (run (do_PlayerWelfareInsurance names day text timestamp uid account) s).2

end

/-! ## The ledger -/

/-- `coinTotal` of the newest entry, or nothing. -/
def total : List Entry → Int
  | [] => 0
  | e :: _ => e.coinTotal

/-- The total of each entry is that of the entry before it and the change. -/
def Chained : List Entry → Prop
  | [] => True
  | e :: l => (∃ n, int e.coinChange = some n ∧ e.coinTotal = total l + n) ∧ Chained l

/-- The changes of the entries, added up. -/
def changes (l : List Entry) : Int := (l.map fun e => (int e.coinChange).getD 0).sum

structure Ledger (s : St) : Prop where
  newest : total s.journal = s.coin.getD 0
  chained : Chained s.journal
  sum : changes s.journal = s.coin.getD 0

/-- One entry is made of the change from `s` to `s'`. -/
def Entered (s s' : St) : Prop :=
  ∃ e n, s'.journal = e :: s.journal ∧ int e.coinChange = some n ∧ e.coinTotal = s.coin.getD 0 + n ∧ s'.coin = some e.coinTotal

/-- Nothing happens to the coins, or one entry is made. -/
def Moves (s s' : St) : Prop := (s'.coin = s.coin ∧ s'.journal = s.journal) ∨ Entered s s'

theorem Ledger.moves {s s' : St} (h : Ledger s) (hs : Moves s s') : Ledger s' := by
  rcases hs with ⟨hcoin, hjournal⟩ | ⟨e, n, hjournal, hchange, htotal, hcoin⟩
  · exact ⟨by rw [hcoin, hjournal]; exact h.newest, by rw [hjournal]; exact h.chained, by rw [hcoin, hjournal]; exact h.sum⟩
  · refine ⟨?_, ?_, ?_⟩
    · rw [hjournal, hcoin]
      rfl
    · rw [hjournal]
      exact ⟨⟨n, hchange, by rw [h.newest]; exact htotal⟩, h.chained⟩
    · have hsum : changes (e :: s.journal) = n + changes s.journal := by simp [changes, hchange]
      rw [hjournal, hsum, h.sum, hcoin, htotal, Option.getD_some, Int.add_comm]

/-! ## The changes are read back -/

/-- `int("+{0}".format(n))` -/
theorem int_plus (n : Nat) : int ("+" ++ toString (n : Int)) = some (n : Int) := by
  have hlist : ("+" ++ toString (n : Int)).toList = '+' :: Nat.toDigits 10 n := by
    have h : (toString n).toList = Nat.toDigits 10 n := Nat.toList_repr
    rw [String.toList_append, ← h]
    rfl
  have hspace : ∀ c ∈ '+' :: Nat.toDigits 10 n, isSpace c = false := by
    intro c hc
    rcases List.mem_cons.1 hc with rfl | hc
    · decide
    · exact not_isSpace_of_isDigit (isDigit_toDigits hc)
  rw [int_eq (hlist ▸ hspace), hlist, numeral, digits_toDigits]
  rfl

theorem int_signed (n : Int) : int (signed n) = some n := by
  unfold signed
  split
  · obtain ⟨k, rfl⟩ := Int.eq_ofNat_of_zero_le (show 0 ≤ n by omega)
    exact int_plus k
  · exact int_toString_int n

/-! ## What the operations do -/

section
variable {names : Names} {day text : Int → String} {s : St}

theorem Stops.moves {α : Type} {p q : Handler α} (h : Stops p q s) (hq : Moves s (run q s).2) : Moves s (run p s).2 := by
  rcases h with herror | hsame
  · exact .inl ⟨by rw [herror], by rw [herror]⟩
  · rw [hsame]
    exact hq

/-- What is added is entered, whatever else is noted. -/
theorem moves_added {s' : St} (timestamp : Int) (account : String) (n : Nat) (source : String)
    (hcoin : s'.coin = (s.added text timestamp account n source).coin)
    (hjournal : s'.journal = (s.added text timestamp account n source).journal) : Moves s s' := by
  refine .inr ⟨_, n, hjournal, int_plus n, rfl, ?_⟩
  rw [hcoin]
  rfl

theorem moves_step (op : Op) : Moves s (step names day text op s) := by
  cases op with
  | add timestamp account n source =>
    refine (stops_coin (.inl rfl) ..).moves ?_
    rw [run_add]
    exact moves_added timestamp account n source rfl rfl
  | setTo timestamp account m source =>
    refine (stops_coin (.inr rfl) ..).moves ?_
    exact .inr ⟨_, m - s.coin.getD 0, rfl, int_signed _, by show m = _; omega, rfl⟩
  | sign timestamp draws uid account =>
    refine (stops_sign ..).moves ?_
    rw [run_sign]
    split
    · exact .inl ⟨rfl, rfl⟩
    · exact moves_added timestamp account (signCoins draws) "签到获得" rfl rfl
  | allowance timestamp uid account =>
    refine (stops_allowance ..).moves ?_
    rw [run_allowance]
    split
    · exact .inl ⟨rfl, rfl⟩
    · split
      · exact .inl ⟨rfl, rfl⟩
      · exact moves_added timestamp account 2000 "低保获得" rfl rfl

end

/-- A user who has no coins yet. -/
def noCoins : St := ⟨none, [], [], []⟩

/-- Along any operations from an empty account, the journal adds up to the balance. -/
theorem journal_ledger (names : Names) (day text : Int → String) (ops : List Op) :
    Ledger (after (step names day text) ops noCoins) :=
  after_keeps (fun _ _ h => h.moves (moves_step _)) ops ⟨rfl, trivial, rfl⟩

end FishWeb.Coin
