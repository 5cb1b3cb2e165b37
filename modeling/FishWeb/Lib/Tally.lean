import FishWeb.Lib.Counters
/-!
# Reports with a running total

A report counts what is entered under its key, and keeps a total that starts from what is
carried over. Keys have owners, and an owner has many keys. So the total of a report is all
that has been entered for its owner if and only if what was carried over is what has been
entered for him under other keys (`total_eq_iff`).
-/
open Function (update)
open Counters

namespace Tally

variable {R K : Type} [DecidableEq R] [DecidableEq K]

/-- What is counted under a key, and the total. -/
structure Entry where
  own : Int
  total : Int

/-- The report is counted up, or begun with what is carried over. -/
def enter (carry : R → Int) (t : R → Option Entry) (p : R × Int) : R → Option Entry :=
  update t p.1 (some (match t p.1 with
    | some v => ⟨v.own + p.2, v.total + p.2⟩
    | none => ⟨p.2, carry p.1 + p.2⟩))

/-- The reports of a list of entries. -/
def tally (carry : R → Int) (l : List (R × Int)) : R → Option Entry := l.foldl (enter carry) fun _ => none

/-- What has been entered for an owner. -/
def entered (owner : R → K) (l : List (R × Int)) (k : K) : Int := net (l.map fun p => (owner p.1, p.2)) k

/-- What has been entered for the owner of a key under other keys. -/
def elsewhere (owner : R → K) (l : List (R × Int)) (r : R) : Int := entered owner (l.filter (·.1 ≠ r)) (owner r)

section
variable {carry : R → Int} {owner : R → K} {l : List (R × Int)} {r : R}

theorem tally_append (l l' : List (R × Int)) : tally carry (l ++ l') = l'.foldl (enter carry) (tally carry l) :=
  List.foldl_append ..

/-- A report is what was entered under its key, and the total exceeds that by what was carried over. -/
theorem tally_eq (l : List (R × Int)) (r : R) :
    tally carry l r = if r ∈ l.map Prod.fst then some ⟨net l r, carry r + net l r⟩ else none := by
  induction l using List.reverseRecOn with
  | nil => rfl
  | append_singleton l p ih =>
    obtain ⟨q, n⟩ := p
    rw [tally_append, List.foldl_cons, List.foldl_nil, enter]
    by_cases hq : r = q
    · subst hq
      have hlast : r ∈ (l ++ [(r, n)]).map Prod.fst := List.mem_map_of_mem (List.mem_append_right l List.mem_cons_self)
      rw [Function.update_self, if_pos hlast, ih]
      by_cases hmem : r ∈ l.map Prod.fst
      · rw [if_pos hmem]
        simp [Int.add_assoc]
      · have hzero : net l r = 0 := net_eq_zero fun p hp he => hmem (he ▸ List.mem_map_of_mem hp)
        rw [if_neg hmem]
        simp [hzero]
    · have hmem : r ∈ (l ++ [(q, n)]).map Prod.fst ↔ r ∈ l.map Prod.fst := by
        rw [List.map_append, List.mem_append, List.map_singleton, List.mem_singleton, or_iff_left hq]
      have hnet : net (l ++ [(q, n)]) r = net l r := by simp [Ne.symm hq]
      simp only [Function.update_of_ne hq, ih, hmem, hnet]

theorem entered_eq (owner : R → K) (l : List (R × Int)) (r : R) :
    entered owner l (owner r) = net l r + elsewhere owner l r := by
  unfold elsewhere entered
  induction l with
  | nil => rfl
  | cons p l ih =>
    by_cases hp : p.1 = r
    · simp [hp, ih, Int.add_assoc]
    · simp only [List.map_cons, net_cons, ih, List.filter_cons, hp, ne_eq, not_false_eq_true, decide_true, if_true, if_false]
      omega

/-- The total of a report is what has been entered for its owner if and only if that under other keys was carried over. -/
theorem total_eq_iff (h : r ∈ l.map Prod.fst) :
    (tally carry l r).map Entry.total = some (entered owner l (owner r)) ↔ carry r = elsewhere owner l r := by
  rw [tally_eq, if_pos h, entered_eq]
  simp only [Option.map_some, Option.some.injEq]
  omega

end

end Tally
