import Mathlib.Logic.Function.Basic
import Mathlib.Tactic.Common
/-!
# Values that lapse

A value under a key, and the time in milliseconds until which it is there. At that time it
still is; after it `get` does not find it.
-/

namespace Expiry

/-- A value and the last time at which it is there. -/
structure Cell (V : Type) where
  value : V
  till : Nat
  deriving Repr, DecidableEq

abbrev Table (K V : Type) := K → Option (Cell V)

variable {K V : Type}

def get (s : Table K V) (now : Nat) (k : K) : Option V := ((s k).filter fun c => now ≤ c.till).map Cell.value

/-- `setex(name, value, time)`: the time is in seconds. -/
def setex [DecidableEq K] (s : Table K V) (now : Nat) (k : K) (v : V) (time : Nat) : Table K V :=
  Function.update s k (some ⟨v, now + 1000 * time⟩)

theorem get_of_none {s : Table K V} {k : K} (h : s k = none) (now : Nat) : get s now k = none := by
  rw [get, h]
  rfl

theorem get_of_some {s : Table K V} {k : K} {c : Cell V} (h : s k = some c) (now : Nat) :
    get s now k = if now ≤ c.till then some c.value else none := by
  rw [get, h, Option.filter_some]
  by_cases hlive : now ≤ c.till <;> simp [hlive]

variable [DecidableEq K]

@[simp] theorem setex_same (s : Table K V) (now : Nat) (k : K) (v : V) (time : Nat) :
    setex s now k v time k = some ⟨v, now + 1000 * time⟩ :=
  Function.update_self ..

theorem setex_other {k k' : K} (h : k' ≠ k) (s : Table K V) (now : Nat) (v : V) (time : Nat) :
    setex s now k v time k' = s k' :=
  Function.update_of_ne h ..

end Expiry
