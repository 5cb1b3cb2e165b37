import Mathlib.Data.List.Infix
import Mathlib.Tactic.Common
/-!
# Groups of digits

A separator after each element that has a multiple of `k` others behind it, and has the
property `p`: so the last elements stand in groups of `k`, and what `p` holds of never
stands in a longer one.
-/

namespace Grouping

variable {α : Type} (k : Nat) (sep : α) (p : α → Bool)

def grouped : List α → List α
  | [] => []
  | c :: cs => if p c = true ∧ cs.length % k = 0 ∧ cs ≠ [] then c :: sep :: grouped cs else c :: grouped cs

variable {k sep p} {l : List α}

/-- Without the separators it is the list. -/
theorem filter_grouped [DecidableEq α] (h : sep ∉ l) : (grouped k sep p l).filter (· ≠ sep) = l := by
  induction l with
  | nil => rfl
  | cons c cs ih =>
    rw [List.mem_cons, not_or] at h
    have hc : c ≠ sep := Ne.symm h.1
    have hrest := ih h.2
    rw [grouped]
    split <;> simp_all

/-- A separator stands after an element with the property, and before a multiple of `k` elements. -/
theorem of_separator (h : sep ∉ l) {a b : List α} (heq : grouped k sep p l = a ++ sep :: b) :
    ∃ c cs, a.getLast? = some c ∧ p c = true ∧ c :: cs <:+ l ∧ cs ≠ [] ∧ k ∣ cs.length ∧ b = grouped k sep p cs := by
  induction l generalizing a with
  | nil => simp [grouped] at heq
  | cons c cs ih =>
    obtain ⟨hc, hcs⟩ : sep ≠ c ∧ sep ∉ cs := by simpa using h
    rw [grouped] at heq
    split at heq
    · rename_i hsep
      obtain ⟨hpc, hlen, hne⟩ := hsep
      rcases a with - | ⟨x, - | ⟨y, a⟩⟩
      · exact absurd (List.cons.inj heq).1.symm hc
      · obtain ⟨rfl, hrest⟩ := List.cons.inj heq
        exact ⟨c, cs, rfl, hpc, List.suffix_refl _, hne, Nat.dvd_of_mod_eq_zero hlen, (List.cons.inj hrest).2.symm⟩
      · have hrest : grouped k sep p cs = a ++ sep :: b := (List.cons.inj (List.cons.inj heq).2).2
        obtain ⟨d, ds, hlast, hd, hsuffix, hmore⟩ := ih hcs hrest
        exact ⟨d, ds, by simp [List.getLast?_cons, hlast], hd, hsuffix.trans (List.suffix_cons c cs), hmore⟩
    · rcases a with - | ⟨x, a⟩
      · exact absurd (List.cons.inj heq).1.symm hc
      · have hrest : grouped k sep p cs = a ++ sep :: b := (List.cons.inj heq).2
        obtain ⟨d, ds, hlast, hd, hsuffix, hmore⟩ := ih hcs hrest
        exact ⟨d, ds, by simp [List.getLast?_cons, hlast], hd, hsuffix.trans (List.suffix_cons c cs), hmore⟩

/-- The separators have not the property, and the rest is the list. -/
theorem countP_grouped [DecidableEq α] (h : sep ∉ l) (hsep : p sep = false) : (grouped k sep p l).countP p = l.countP p := by
  conv_rhs => rw [← filter_grouped (k := k) (p := p) h]
  rw [List.countP_filter]
  refine List.countP_congr fun x _ => ?_
  by_cases hx : x = sep <;> simp [hx, hsep]

/-- What the property holds of does not begin with a separator. -/
theorem eq_nil_of_cons (hsep : p sep = false) {g t : List α} (hg : ∀ c ∈ g, p c = true) (h : g <+: sep :: t) : g = [] := by
  cases g with
  | nil => rfl
  | cons d g =>
    obtain rfl : d = sep := (List.cons_prefix_cons.1 h).1
    have := hg d List.mem_cons_self
    simp [hsep] at this

/-- The first group: what is left over from the groups of `k` behind it. -/
theorem length_prefix_le (hk : 0 < k) (hsep : p sep = false) {g : List α} (hg : ∀ c ∈ g, p c = true) (h : g <+: grouped k sep p l) :
    g.length ≤ (l.length - 1) % k + 1 := by
  induction l generalizing g with
  | nil =>
    rw [grouped, List.prefix_nil] at h
    simp [h]
  | cons c cs ih =>
    rcases g with - | ⟨d, g⟩
    · simp
    have hrest : ∀ x ∈ g, p x = true := fun x hx => hg x (List.mem_cons_of_mem d hx)
    have hd : p d = true := hg d List.mem_cons_self
    rw [grouped] at h
    rw [List.length_cons, List.length_cons, Nat.add_sub_cancel]
    split at h
    · have hnil : g = [] := eq_nil_of_cons hsep hrest (List.cons_prefix_cons.1 h).2
      simp [hnil]
    · rename_i hno
      have hbehind := (List.cons_prefix_cons.1 h).2
      have hle := ih hrest hbehind
      rcases cs with - | ⟨e, cs⟩
      · rw [grouped, List.prefix_nil] at hbehind
        simp [hbehind]
      · -- no separator comes next, so that the group behind is not whole
        have hmod : (cs.length + 1) % k ≠ 0 := fun hmod => hno ⟨(List.cons_prefix_cons.1 h).1 ▸ hd, hmod, List.cons_ne_nil e cs⟩
        have hsucc : cs.length % k + 1 = (cs.length + 1) % k := by
          obtain ⟨j, rfl⟩ := Nat.exists_eq_add_one.2 hk
          have hne : cs.length % (j + 1) ≠ j := fun he => hmod (Nat.succ_mod_succ_eq_zero_iff.2 he)
          have hlt := Nat.mod_lt cs.length hk
          rw [← Nat.mod_add_mod cs.length (j + 1) 1]
          exact (Nat.mod_eq_of_lt (by omega)).symm
        rw [List.length_cons, ← hsucc]
        simpa using hle

/-- No group is longer than `k`. -/
theorem length_infix_le (hk : 0 < k) (hsep : p sep = false) {g : List α} (hg : ∀ c ∈ g, p c = true)
    (h : g <:+: grouped k sep p l) : g.length ≤ k := by
  induction l with
  | nil =>
    rw [grouped, List.infix_nil] at h
    simp [h]
  | cons c cs ih =>
    have hfirst : g <+: grouped k sep p (c :: cs) → g.length ≤ k := fun hp => by
      have hle := length_prefix_le hk hsep hg hp
      have := Nat.mod_lt ((c :: cs).length - 1) hk
      omega
    rw [grouped] at h hfirst
    split at h
    · rename_i hc
      rw [if_pos hc] at hfirst
      rcases List.infix_cons_iff.1 h with h | h
      · exact hfirst h
      · rcases List.infix_cons_iff.1 h with h | h
        · simp [eq_nil_of_cons hsep hg h]
        · exact ih h
    · rename_i hc
      rw [if_neg hc] at hfirst
      rcases List.infix_cons_iff.1 h with h | h
      · exact hfirst h
      · exact ih h

end Grouping
