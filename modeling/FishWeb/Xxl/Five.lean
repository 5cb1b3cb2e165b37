import FishWeb.Xxl.Maths
/-!
# Requests for five

A request for five tries a straight piece and a shape in a random order. The shape is
only the end of the loop if it was found; the straight piece always is, so a request that
tries it first never comes to the shapes.
-/
open Dice Python

namespace FishWeb.Xxl

/-- A straight segment of five or one of the shapes is free. -/
def Room (table : Canvas) : Prop :=
  (∃ a c i, Free table a c i 5) ∨ ∃ l ∈ Type_Five_L_ALL, checkAllIn table l = true

/-- Five free cells of the table have been given the type. -/
def Planted (table : Canvas) (_type : Nat) (table' : Canvas) : Prop :=
  ∃ l, l.Nodup ∧ l.length = 5 ∧ (∀ p ∈ l, table p = 0) ∧ table' = Set_type table _type l

/-- `type_five` after the shuffle. -/
def armOrder : Rand Err (List Five) := shuffle [.L, .I]

section Five
variable {table : Canvas} {_type : Nat}

theorem planted_straight {a : Axis} {c i : Nat} (h : Free table a c i 5) :
    Planted table _type (Set_type table _type (segment a c i 5)) := by
  refine ⟨_, nodup_segment a c i 5, length_segment a c i 5, fun p hp => ?_, rfl⟩
  obtain ⟨j, hij, hj, rfl⟩ := mem_segment.1 hp
  exact h.free j hij hj

theorem planted_shape {l : List Point} (hl : l ∈ Type_Five_L_ALL) (h : checkAllIn table l = true) :
    Planted table _type (Set_type table _type l) :=
  ⟨l, (length_of_mem_Type_Five hl).2, (length_of_mem_Type_Five hl).1, checkAllIn_iff.1 h, rfl⟩

/-- Nothing is planted by an untouched table, unless the type is the mark of a free cell. -/
theorem not_planted_self (ht : _type ≠ 0) : ¬Planted table _type table := by
  rintro ⟨l, -, hlen, hfree, hset⟩
  obtain ⟨p, hp⟩ := List.exists_mem_of_length_pos (by omega : 0 < l.length)
  have hp' := congrFun hset p
  rw [Set_type_apply, if_pos hp, hfree p hp] at hp'
  exact ht hp'.symm

/-- The mark of a free cell is planted wherever there is room. -/
theorem planted_zero (h : Room table) : Planted table 0 table := by
  have hself : ∀ l : List Point, (∀ p ∈ l, table p = 0) → Set_type table 0 l = table := fun l hl => by
    funext p
    rw [Set_type_apply]
    split
    · rename_i hp
      exact (hl p hp).symm
    · rfl
  rcases h with ⟨a, c, i, hfree⟩ | ⟨l, hl, hfree⟩
  · have hplanted : Planted table 0 (Set_type table 0 (segment a c i 5)) := planted_straight hfree
    obtain ⟨l, hnd, hlen, hl, -⟩ := hplanted
    exact ⟨l, hnd, hlen, hl, (hself l hl).symm⟩
  · exact ⟨l, (length_of_mem_Type_Five hl).2, (length_of_mem_Type_Five hl).1, checkAllIn_iff.1 hfree,
      (hself l (checkAllIn_iff.1 hfree)).symm⟩

/-- The straight piece is the end of the loop, found or not. -/
theorem always_straight_first (table : Canvas) (_type : Nat) (rest : List Five) :
    Always (fun table' => (∃ a c i, Free table a c i 5) ∧ Planted table _type table' ∨
      (∀ a c i, ¬Free table a c i 5) ∧ table' = table) (placeFive table _type (.I :: rest)) := by
  refine always_bind (always_Math_I table (by decide)) fun l hl => always_pure ?_
  rcases hl with ⟨a, c, i, hfree, rfl⟩ | ⟨rfl, hnone⟩
  · exact .inl ⟨⟨a, c, i, hfree⟩, planted_straight hfree⟩
  · exact .inr ⟨hnone, rfl⟩

/-- After the shapes the straight piece is tried. -/
theorem always_shapes_first (table : Canvas) (_type : Nat) :
    Always (fun table' => Room table → Planted table _type table') (placeFive table _type [.L, .I]) := by
  refine always_bind (always_Math_T table) fun l hl => ?_
  rcases hl with ⟨hmem, hfree⟩ | ⟨rfl, hnone⟩
  · have hne : l ≠ [] := List.ne_nil_of_length_pos (by rw [(length_of_mem_Type_Five hmem).1]; decide)
    rw [if_pos hne]
    exact always_pure fun _ => planted_shape hmem hfree
  · refine (always_straight_first table _type []).mono fun table' h hroom => ?_
    rcases hroom with ⟨a, c, i, hstraight⟩ | ⟨l, hl, hfree⟩
    · rcases h with ⟨-, hplanted⟩ | ⟨hno, -⟩
      · exact hplanted
      · exact absurd hstraight (hno a c i)
    · exact absurd hfree (hnone l hl)

theorem shuffled_cases {order : List Five} (h : order.Perm [.L, .I]) : order = [.L, .I] ∨ order = [.I, .L] := by
  obtain ⟨a, b, rfl⟩ := List.length_eq_two.1 h.length_eq
  have hnd : [a, b].Nodup := h.nodup_iff.2 (by decide)
  cases a <;> cases b
  · exact absurd hnd (by decide)
  · exact .inl rfl
  · exact .inr rfl
  · exact absurd hnd (by decide)

/-- What the loop makes of an order of the two arms. -/
theorem always_placeFive_iff (table : Canvas) (_type : Nat) {order : List Five} (h : order.Perm [.L, .I]) :
    Always (fun table' => Room table → (Planted table _type table' ↔
      order = [.L, .I] ∨ (∃ a c i, Free table a c i 5) ∨ _type = 0)) (placeFive table _type order) := by
  rcases shuffled_cases h with rfl | rfl
  · exact (always_shapes_first table _type).mono fun table' h hroom => iff_of_true (h hroom) (.inl rfl)
  · refine (always_straight_first table _type [.L]).mono fun table' h hroom => ?_
    rcases h with ⟨hstraight, hplanted⟩ | ⟨hno, rfl⟩
    · exact iff_of_true hplanted (.inr (.inl hstraight))
    · constructor
      · intro hplanted
        refine .inr (.inr ?_)
        by_contra ht
        exact not_planted_self ht hplanted
      · rintro (horder | ⟨a, c, i, hfree⟩ | rfl)
        · cases horder
        · exact absurd hfree (hno a c i)
        · exact planted_zero hroom

/-- One request for five: its order of the arms, and what comes of it. -/
theorem place_five (table : Canvas) (_type : Nat) (σ : Nat → Nat) :
    ∃ order σ' table' σ'', armOrder σ = .ok (order, σ') ∧ place table _type 5 σ = .ok (table', σ'') ∧
      (Room table → (Planted table _type table' ↔ order = [.L, .I] ∨ (∃ a c i, Free table a c i 5) ∨ _type = 0)) := by
  obtain ⟨order, σ', harms, hperm⟩ := always_shuffle (E := Err) [Five.L, Five.I] σ
  obtain ⟨table', σ'', hfive, hiff⟩ := always_placeFive_iff table _type hperm σ'
  refine ⟨order, σ', table', σ'', harms, ?_, hiff⟩
  rw [place, if_pos rfl]
  show (shuffle [Five.L, Five.I] σ >>= fun x => placeFive table _type x.1 x.2) = _
  rw [harms]
  exact hfive

end Five

/-- For every list of requests and all choices: the run comes to each request for five on some board, and if
there is room on it, plants the piece exactly when the shapes come first or a straight segment is free as well. -/
theorem room_planted_iff (mathsList_type_len : List (Nat × Int)) (σ : Nat → Nat) {done rest : List (Nat × Int)}
    {_type : Nat} (h : ordered mathsList_type_len = done ++ (_type, 5) :: rest) :
    ∃ table σ1 order σ2 table' σ3, plant done (fun _ => 0) σ = .ok (table, σ1) ∧
      armOrder σ1 = .ok (order, σ2) ∧ place table _type 5 σ1 = .ok (table', σ3) ∧
      plant (ordered mathsList_type_len) (fun _ => 0) σ = plant rest table' σ3 ∧
      (Room table → (Planted table _type table' ↔
        order = [.L, .I] ∨ (∃ a c i, Free table a c i 5) ∨ _type = 0)) := by
  have hbefore : Always (fun _ => True) (plant done fun _ => 0) := always_foldlM (fun table r _ _ =>
    (always_place table r.1 r.2).mono fun _ _ => trivial) trivial
  obtain ⟨table, σ1, hdone, -⟩ := hbefore σ
  obtain ⟨order, σ2, table', σ3, harms, hplace, hiff⟩ := place_five table _type σ1
  refine ⟨table, σ1, order, σ2, table', σ3, hdone, harms, hplace, ?_, hiff⟩
  rw [plant, h, List.foldlM_append]
  show (plant done (fun _ => 0) σ >>= fun x => plant ((_type, 5) :: rest) x.1 x.2) = _
  rw [hdone]
  show (place table _type 5 σ1 >>= fun x => plant rest x.1 x.2) = _
  rw [hplace]
  rfl

/-! ## A board without room for a straight piece -/

/-- Five columns, then three pieces of five next to each other, and another one of five. -/
def packed : List (Nat × Int) := List.replicate 5 (1, 8) ++ List.replicate 3 (2, 5) ++ [(3, 5)]

/-- Always the first choice, and in the requests for five the straight piece before the shapes. -/
def packedDraws (n : Nat) : Nat := if 10 ≤ n ∧ n % 4 = 2 then 1 else 0

theorem ordered_packed : ordered packed = packed.take 8 ++ [(3, 5)] := by decide +kernel

theorem room_planted_iff_packed : ∃ table σ1 order σ2 table' σ3,
    plant (packed.take 8) (fun _ => 0) packedDraws = .ok (table, σ1) ∧
      armOrder σ1 = .ok (order, σ2) ∧ place table 3 5 σ1 = .ok (table', σ3) ∧
      plant (ordered packed) (fun _ => 0) packedDraws = plant [] table' σ3 ∧
      (Room table → (Planted table 3 table' ↔ order = [.L, .I] ∨ (∃ a c i, Free table a c i 5) ∨ 3 = 0)) :=
  room_planted_iff packed packedDraws ordered_packed

/-- No five free cells in a line, and a cross in the corner that is left. -/
def onlyShapes (table : Canvas) : Bool :=
  ([Axis.X, Axis.Y].all fun a => (List.range 8).all fun c => (List.range 4).all fun i =>
    (segment a c i 5).any fun p => table p ≠ 0) && checkAllIn table (crossing 3 3 5 5 1 1)

theorem onlyShapes_room {table : Canvas} (h : onlyShapes table = true) :
    Room table ∧ ∀ a c i, ¬Free table a c i 5 := by
  simp only [onlyShapes, Bool.and_eq_true, List.all_eq_true, List.any_eq_true, List.mem_range, decide_eq_true_eq] at h
  obtain ⟨hno, hcross⟩ := h
  refine ⟨.inr ⟨_, mem_Type_Five_L_ALL.2 ⟨5, by decide, 5, by decide, 1, by decide, 1, by decide, rfl⟩, hcross⟩, ?_⟩
  intro a c i hfree
  have hi := hfree.inside
  obtain ⟨p, hp, hne⟩ := hno a (by cases a <;> decide) c hfree.line i (by simp only [SIZE] at hi; omega)
  obtain ⟨j, hij, hj, rfl⟩ := mem_segment.1 hp
  exact hne (hfree.free j hij hj)

/-- The board that the request for the type 3 finds, and the order of its arms. -/
def lastFive : Except Err (Bool × List Five) := do
  let (table, σ) ← plant (packed.take 8) (fun _ => 0) packedDraws
  let (order, _) ← armOrder σ
  return (onlyShapes table, order)

theorem lastFive_eq : lastFive = .ok (true, [.I, .L]) := by
  have hrun : lastFive.toOption = some (true, [.I, .L]) := by decide +kernel
  cases hlast : lastFive with
  | error e => rw [hlast] at hrun; cases hrun
  | ok x => rw [hlast] at hrun; cases hrun; rfl

/-- A request for five that finds room for a shape only, and plants nothing. -/
theorem packed_not_planted : ¬∀ (mathsList_type_len : List (Nat × Int)) (σ : Nat → Nat) (done rest : List (Nat × Int))
    (_type : Nat), ordered mathsList_type_len = done ++ (_type, 5) :: rest → ∀ table σ1 table' σ3,
      plant done (fun _ => 0) σ = .ok (table, σ1) → place table _type 5 σ1 = .ok (table', σ3) →
      Room table → Planted table _type table' := by
  intro hall
  have hlast := lastFive_eq
  unfold lastFive at hlast
  cases hdone : plant (packed.take 8) (fun _ => 0) packedDraws with
  | error e => rw [hdone] at hlast; cases hlast
  | ok x =>
    obtain ⟨table, σ1⟩ := x
    obtain ⟨order, σ2, table', σ3, harms, hplace, hiff⟩ := place_five table 3 σ1
    have hboard : onlyShapes table = true ∧ order = [.I, .L] := by
      rw [hdone] at hlast
      replace hlast : (armOrder σ1 >>= fun y => pure (onlyShapes table, y.1)) = Except.ok (true, [Five.I, Five.L]) := hlast
      rw [harms] at hlast
      have hpair : (onlyShapes table, order) = (true, [Five.I, Five.L]) := Except.ok.inj hlast
      exact Prod.mk.inj hpair
    obtain ⟨hshapes, rfl⟩ := hboard
    obtain ⟨hroom, hno⟩ := onlyShapes_room hshapes
    have hplanted := hall packed packedDraws _ [] 3 ordered_packed table σ1 table' σ3 hdone hplace hroom
    rcases (hiff hroom).1 hplanted with horder | ⟨a, c, i, hfree⟩ | htype
    · cases horder
    · exact hno a c i hfree
    · cases htype

end FishWeb.Xxl
