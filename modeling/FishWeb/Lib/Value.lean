import FishWeb.Lib.Python
/-!
# Values of several types

What `eval` makes of a literal, as Python 2 handles it: `int(v)` of any value, its
truth, an index into it, and `>` between values of different types, where numbers come
after `None` and before lists, and lists before texts. Booleans are integers.
-/

namespace Python

inductive Value where
  | none
  | int (n : Int)
  | float (x : ℚ)
  | str (s : String)
  | list (l : List Value)
  deriving Repr

/-- `l[i]`, from the end where `i` is negative. -/
def index {α : Type} (l : List α) (i : Int) : Option α :=
  if 0 ≤ i then l[i.toNat]? else if -i ≤ l.length then l[(l.length + i).toNat]? else none

namespace Value

/-- `int(v)` -/
def toInt : Value → Except Err Int
  | .int n => .ok n
  | .float x => .ok (truncate x)
  | .str s => match Python.int s with
    | some n => .ok n
    | .none => .error .ValueError
  | .none => .error .TypeError
  | .list _ => .error .TypeError

def truthy : Value → Bool
  | .none => false
  | .int n => n ≠ 0
  | .float x => x ≠ 0
  | .str s => s ≠ ""
  | .list l => !l.isEmpty

/-- `v > n` -/
def gtInt (n : Int) : Value → Bool
  | .none => false
  | .int m => n < m
  | .float x => (n : ℚ) < x
  | .str _ => true
  | .list _ => true

/-- `v > s` -/
def gtStr (s : String) : Value → Bool
  | .str t => s < t
  | _ => false

/-- `v >= x` -/
def geFloat (x : ℚ) : Value → Bool
  | .none => false
  | .int n => x ≤ n
  | .float y => x ≤ y
  | .str _ => true
  | .list _ => true

/-- `v <= x` -/
def leFloat (x : ℚ) : Value → Bool
  | .none => true
  | .int n => n ≤ x
  | .float y => y ≤ x
  | .str _ => false
  | .list _ => false

/-- `v == n` -/
def eqInt (n : Int) : Value → Bool
  | .int m => m = n
  | .float x => x = n
  | _ => false

/-- `v[0]` -/
def first : Value → Except Err Value
  | .list (v :: _) => .ok v
  | .list [] => .error .IndexError
  | .str s => match s.toList with
    | c :: _ => .ok (.str (String.singleton c))
    | [] => .error .IndexError
  | _ => .error .TypeError

/-- What `for x in v` goes through. -/
def items : Value → Except Err (List Value)
  | .list l => .ok l
  | .str s => .ok (s.toList.map fun c => .str (String.singleton c))
  | _ => .error .TypeError

/-- `l[v]`: only an integer is an index. -/
def indexInto {α : Type} (l : List α) : Value → Except Err α
  | .int i => match index l i with
    | some a => .ok a
    | .none => .error .IndexError
  | _ => .error .TypeError

/-- The number that `v` is or writes. -/
def number : Value → Option ℚ
  | .int n => some n
  | .float x => some x
  | .str s => (Python.int s).map fun n => (n : ℚ)
  | _ => .none

end Value

end Python
