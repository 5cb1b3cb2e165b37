import FishWeb.Lib.Python
/-!
# Texts joined by a separator

`s.split(sep)` takes the first separator from the left, also where it begins in a text and
ends in the separator that follows. So a text is read back if and only if no separator
begins in it (`Free`).
-/

namespace Python

section Separator
variable {sep : List Char}

/-- No separator begins in `p`, if one follows it. -/
def Free (sep p : List Char) : Prop := ¬sep <:+: p ++ sep.dropLast

instance (sep p : List Char) : Decidable (Free sep p) := inferInstanceAs (Decidable (¬_))

/-- The separator is a beginning of `a ++ sep ++ rest`, where `a` is not empty, if it is one without the last character. -/
theorem prefix_dropLast_iff (c : Char) (p rest : List Char) (hsep : sep ≠ []) :
    sep <+: c :: p ++ sep.dropLast ↔ sep <+: c :: p ++ sep ++ rest := by
  have hsplit : c :: p ++ sep ++ rest = (c :: p ++ sep.dropLast) ++ (sep.getLast hsep :: rest) := by
    rw [List.append_assoc, List.append_assoc, ← List.singleton_append (x := sep.getLast hsep), ← List.append_assoc sep.dropLast,
      List.dropLast_concat_getLast hsep]
  constructor
  · intro h
    rw [hsplit]
    exact h.trans (List.prefix_append _ _)
  · intro h
    rw [hsplit] at h
    refine List.prefix_of_prefix_length_le h (List.prefix_append _ _) ?_
    have hpos := List.length_pos_of_ne_nil hsep
    rw [List.length_append, List.length_cons, List.length_dropLast]
    omega

theorem free_nil (hsep : sep ≠ []) : Free sep [] := by
  intro h
  have hle := h.length_le
  have hpos := List.length_pos_of_ne_nil hsep
  rw [List.nil_append, List.length_dropLast] at hle
  omega

theorem free_cons (c : Char) (p rest : List Char) (hsep : sep ≠ []) :
    Free sep (c :: p) ↔ ¬sep <+: c :: p ++ sep ++ rest ∧ Free sep p := by
  unfold Free
  rw [← prefix_dropLast_iff c p rest hsep, List.cons_append, List.infix_cons_iff, not_or]

/-- The first separator of a text that has one. -/
theorem exists_first {cs : List Char} (hsep : sep ≠ []) (h : sep <:+: cs) : ∃ p rest, cs = p ++ sep ++ rest ∧ Free sep p := by
  induction cs with
  | nil => exact absurd (List.infix_nil.1 h) hsep
  | cons c cs ih =>
    by_cases hc : sep <+: c :: cs
    · obtain ⟨rest, hrest⟩ := hc
      exact ⟨[], rest, by rw [List.nil_append, hrest], free_nil hsep⟩
    · obtain ⟨p, rest, rfl, hp⟩ := ih ((List.infix_cons_iff.1 h).resolve_left hc)
      exact ⟨c :: p, rest, rfl, (free_cons c p rest hsep).2 ⟨hc, hp⟩⟩

/-! ## Splitting -/

/-- What is to be skipped is skipped. -/
theorem splitSep_skip (part l cs : List Char) : splitSep sep l.length part (l ++ cs) = splitSep sep 0 part cs := by
  induction l with
  | nil => rfl
  | cons c l ih =>
    rw [List.cons_append, splitSep, if_pos (by simp), List.length_cons, Nat.add_sub_cancel, ih]

theorem splitSep_first (part rest : List Char) {p : List Char} (hsep : sep ≠ []) (hp : Free sep p) :
    splitSep sep 0 part (p ++ sep ++ rest) = (part.reverse ++ p) :: splitSep sep 0 [] rest := by
  induction p generalizing part with
  | nil =>
    obtain ⟨c, l, rfl⟩ := List.exists_cons_of_ne_nil hsep
    have hprefix : (c :: l).isPrefixOf (c :: (l ++ rest)) = true := List.isPrefixOf_iff_prefix.2 ⟨rest, rfl⟩
    show splitSep (c :: l) 0 part (c :: (l ++ rest)) = _
    rw [splitSep, if_neg (by simp), if_pos hprefix, List.append_nil]
    exact congrArg _ (splitSep_skip [] l rest)
  | cons c p ih =>
    obtain ⟨hc, hp⟩ := (free_cons c p rest hsep).1 hp
    have hno : ¬sep.isPrefixOf (c :: (p ++ sep ++ rest)) = true := fun h => hc (List.isPrefixOf_iff_prefix.1 h)
    show splitSep sep 0 part (c :: (p ++ sep ++ rest)) = _
    rw [splitSep, if_neg (by simp), if_neg hno, ih (c :: part) hp, List.reverse_cons, List.append_assoc, List.singleton_append]

theorem splitSep_none (part : List Char) {cs : List Char} (h : ¬sep <:+: cs) : splitSep sep 0 part cs = [part.reverse ++ cs] := by
  induction cs generalizing part with
  | nil => rw [splitSep, List.append_nil]
  | cons c cs ih =>
    rw [List.infix_cons_iff, not_or] at h
    have hno : ¬sep.isPrefixOf (c :: cs) = true := fun hp => h.1 (List.isPrefixOf_iff_prefix.1 hp)
    rw [splitSep, if_neg (by simp), if_neg hno, ih (c :: part) h.2, List.reverse_cons, List.append_assoc, List.singleton_append]

/-- A text is read as one part if and only if it has no separator. -/
theorem splitSep_singleton {cs a : List Char} (hsep : sep ≠ []) : splitSep sep 0 [] cs = [a] ↔ cs = a ∧ ¬sep <:+: cs := by
  by_cases h : sep <:+: cs
  · obtain ⟨p, rest, rfl, hp⟩ := exists_first hsep h
    rw [splitSep_first [] rest hsep hp]
    refine iff_of_false (fun heq => ?_) fun heq => heq.2 h
    have htail := (List.cons.inj heq).2
    by_cases hrest : sep <:+: rest
    · obtain ⟨p', rest', rfl, hp'⟩ := exists_first hsep hrest
      rw [splitSep_first [] rest' hsep hp'] at htail
      cases htail
    · rw [splitSep_none [] hrest] at htail
      cases htail
  · rw [splitSep_none [] h]
    simp [h]

/-- A part, and others after it. -/
theorem splitSep_cons {cs a b : List Char} {l : List (List Char)} (hsep : sep ≠ []) :
    splitSep sep 0 [] cs = a :: b :: l ↔ ∃ rest, cs = a ++ sep ++ rest ∧ Free sep a ∧ splitSep sep 0 [] rest = b :: l := by
  constructor
  · intro h
    by_cases hcs : sep <:+: cs
    · obtain ⟨p, rest, rfl, hp⟩ := exists_first hsep hcs
      rw [splitSep_first [] rest hsep hp] at h
      obtain ⟨rfl, hrest⟩ := List.cons.inj h
      exact ⟨rest, rfl, hp, hrest⟩
    · rw [splitSep_none [] hcs] at h
      cases h
  · rintro ⟨rest, rfl, ha, hrest⟩
    rw [splitSep_first [] rest hsep ha, hrest]
    rfl

end Separator

/-! ## Strings -/

theorem map_ofList {cs : List (List Char)} {l : List String} : cs.map String.ofList = l ↔ cs = l.map String.toList := by
  constructor
  · rintro rfl
    rw [List.map_map]
    exact ((List.map_congr_left fun c _ => String.toList_ofList).trans (List.map_id cs)).symm
  · rintro rfl
    rw [List.map_map]
    exact (List.map_congr_left fun c _ => String.ofList_toList).trans (List.map_id l)

theorem splitOn_singleton {sep s a : String} (hsep : sep.toList ≠ []) :
    splitOn sep s = [a] ↔ s = a ∧ ¬sep.toList <:+: s.toList := by
  unfold splitOn
  rw [map_ofList, List.map_singleton, splitSep_singleton hsep, String.toList_inj]

/-- `(a + sep + rest).split(sep)` -/
theorem splitOn_cons {sep s a b : String} {l : List String} (hsep : sep.toList ≠ []) :
    splitOn sep s = a :: b :: l ↔ ∃ rest, s = a ++ sep ++ rest ∧ Free sep.toList a.toList ∧ splitOn sep rest = b :: l := by
  unfold splitOn
  rw [map_ofList, List.map_cons, List.map_cons, splitSep_cons hsep]
  constructor
  · rintro ⟨rest, hs, ha, hrest⟩
    refine ⟨String.ofList rest, String.toList_inj.1 ?_, ha, ?_⟩
    · rw [hs, String.toList_append, String.toList_append, String.toList_ofList]
    · rw [map_ofList, String.toList_ofList]
      exact hrest
  · rintro ⟨rest, rfl, ha, hrest⟩
    exact ⟨rest.toList, by rw [String.toList_append, String.toList_append], ha, map_ofList.1 hrest⟩

end Python
