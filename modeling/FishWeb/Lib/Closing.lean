import Mathlib.Data.List.Infix
import Mathlib.Tactic.Common
/-!
# Closed codes

Codes that a character closes: behind the text of a code it stands for at most one
character, the code's value. A text is decoded until no code is left in it, and as values
can be a part of the text of another code, what is read once is read again. The end of it
is `decode`, from the left to the right over what is decoded so far.
-/

/-- The text of a code tells which one it is, wherever it begins. -/
structure Codes (α ρ : Type) where
  close : α
  text : ρ → List α
  value : ρ → Option α
  close_not_mem_text : ∀ r, close ∉ text r
  close_not_mem_value : ∀ r, close ∉ value r
  suffix_free : ∀ {a b : List α} {r r' : ρ}, a ++ text r = b ++ text r' → a = b ∧ r = r'

/-- The last `o` of a text. -/
theorem append_last_inj {α : Type} {o : α} {a b t t' : List α} (ht : o ∉ t) (ht' : o ∉ t') (h : a ++ o :: t = b ++ o :: t') :
    a = b ∧ t = t' := by
  rcases List.append_eq_append_iff.1 h with ⟨u, rfl, hu⟩ | ⟨u, rfl, hu⟩ <;> rcases u with - | ⟨x, u⟩
  · exact ⟨by simp, (List.cons.inj hu).2⟩
  · exact absurd ((List.cons.inj hu).2 ▸ by simp) ht
  · exact ⟨by simp, (List.cons.inj hu).2.symm⟩
  · exact absurd ((List.cons.inj hu).2 ▸ by simp) ht'

namespace Codes

variable {α ρ : Type} (K : Codes α ρ)

/-- What the code closed is replaced by. -/
def result (r : ρ) : List α := (K.value r).toList

open Classical in
/-- The next character: it closes the code that is right before it, or it stays. -/
noncomputable def feed (y : List α) (c : α) : List α :=
  if h : c = K.close ∧ ∃ p : List α × ρ, y = p.1 ++ K.text p.2 then h.2.choose.1 ++ K.result h.2.choose.2 else y ++ [c]

noncomputable def decode (s : List α) : List α := s.foldl K.feed []

/-- No code is closed in the text. -/
def Plain (s : List α) : Prop := ∀ r, ¬K.text r ++ [K.close] <:+: s

variable {K} {r r' : ρ} {a b s w x y : List α} {c : α}

/-! ## A step -/

theorem close_not_mem_result (r : ρ) : K.close ∉ K.result r := fun h => K.close_not_mem_value r (Option.mem_toList.1 h)

theorem length_result_le (r : ρ) : (K.result r).length ≤ 1 := by
  rw [result]
  cases K.value r <;> simp

theorem feed_text : K.feed (y ++ K.text r) K.close = y ++ K.result r := by
  have h : K.close = K.close ∧ ∃ p : List α × ρ, y ++ K.text r = p.1 ++ K.text p.2 := ⟨rfl, (y, r), rfl⟩
  obtain ⟨hy, hr⟩ := K.suffix_free h.2.choose_spec
  rw [feed, dif_pos h, ← hy, ← hr]

theorem feed_stay (h : c = K.close → ∀ r, ¬K.text r <:+ y) : K.feed y c = y ++ [c] := by
  rw [feed, dif_neg]
  rintro ⟨hc, ⟨y', r⟩, hy⟩
  exact h hc r ⟨y', hy.symm⟩

/-- All that a step can do. -/
theorem feed_cases (y : List α) (c : α) :
    (∃ y' r, c = K.close ∧ y = y' ++ K.text r ∧ K.feed y c = y' ++ K.result r) ∨
      (c = K.close → ∀ r, ¬K.text r <:+ y) ∧ K.feed y c = y ++ [c] := by
  by_cases h : c = K.close ∧ ∃ r, K.text r <:+ y
  · obtain ⟨rfl, r, y', rfl⟩ := h
    exact .inl ⟨y', r, rfl, rfl, feed_text⟩
  · have hstay : c = K.close → ∀ r, ¬K.text r <:+ y := fun hc r hr => h ⟨hc, r, hr⟩
    exact .inr ⟨hstay, feed_stay hstay⟩

theorem foldl_feed_plain (h : K.close ∉ s) : s.foldl K.feed y = y ++ s := by
  induction s generalizing y with
  | nil => simp
  | cons c s ih =>
    obtain ⟨hc, hs⟩ : K.close ≠ c ∧ K.close ∉ s := by simpa using h
    rw [List.foldl_cons, feed_stay fun heq => absurd heq.symm hc, ih hs, List.append_assoc]
    rfl

theorem decode_append (a b : List α) : K.decode (a ++ b) = b.foldl K.feed (K.decode a) := List.foldl_append

theorem decode_snoc (a : List α) (c : α) : K.decode (a ++ [c]) = K.feed (K.decode a) c := decode_append a [c]

theorem decode_append_plain (h : K.close ∉ b) : K.decode (a ++ b) = K.decode a ++ b := by
  rw [decode_append, foldl_feed_plain h]

theorem decode_code : K.decode (a ++ K.text r ++ [K.close]) = K.decode a ++ K.result r := by
  rw [decode_snoc, decode_append_plain (K.close_not_mem_text r), feed_text]

/-- One code replaced by its value: the end is the same. -/
theorem decode_replace : K.decode (a ++ (K.text r ++ [K.close]) ++ b) = K.decode (a ++ K.result r ++ b) := by
  rw [decode_append, ← List.append_assoc, decode_code, decode_append _ b, decode_append_plain (close_not_mem_result r)]

/-- With no code left it is the end. -/
theorem decode_of_plain (h : K.Plain s) : K.decode s = s := by
  induction s using List.reverseRecOn with
  | nil => rfl
  | append_singleton s c ih =>
    have hs : K.decode s = s := ih fun r hr => h r (hr.trans (List.prefix_append s [c]).isInfix)
    rw [decode_snoc, hs]
    refine feed_stay ?_
    rintro rfl r ⟨a, rfl⟩
    exact h r ⟨a, [], by simp⟩

/-! ## What a text spells -/

variable (K) in
/-- The first text is a spelling of the second: some of its codes are closed, and replaced. -/
inductive Spells : List α → List α → Prop where
  | nil : Spells [] []
  | char {x y : List α} (c : α) : Spells x y → Spells (x ++ [c]) (y ++ [c])
  | code {x y e : List α} (r : ρ) : Spells x y → Spells e (K.text r) → Spells (x ++ (e ++ [K.close])) (y ++ K.result r)

/-- What ends in at most one more element, and where it is split. -/
theorem split_append {P : List α → List α → Prop} {w p : List α} (hp : p.length ≤ 1) (hnil : P [] [])
    (hw : ∀ {x t}, P x t → P (x ++ w) (t ++ p)) (h : P x y)
    (ih : ∀ y₀ y₁, y = y₀ ++ y₁ → ∃ x₀ x₁, x = x₀ ++ x₁ ∧ P x₀ y₀ ∧ P x₁ y₁) {y₀ y₁ : List α} (heq : y ++ p = y₀ ++ y₁) :
    ∃ x₀ x₁, x ++ w = x₀ ++ x₁ ∧ P x₀ y₀ ∧ P x₁ y₁ := by
  have hbefore : ∀ t, y = y₀ ++ t → y₁ = t ++ p → ∃ x₀ x₁, x ++ w = x₀ ++ x₁ ∧ P x₀ y₀ ∧ P x₁ y₁ := by
    rintro t hy rfl
    obtain ⟨x₀, x₁, rfl, h₀, h₁⟩ := ih y₀ t hy
    exact ⟨x₀, x₁ ++ w, List.append_assoc x₀ x₁ w, h₀, hw h₁⟩
  rcases List.append_eq_append_iff.1 heq with ⟨t, rfl, rfl⟩ | ⟨t, hy, hy₁⟩
  · rcases t with - | ⟨v, t⟩
    · exact hbefore [] (by simp) rfl
    · -- the last element is the whole of what ends it
      obtain ⟨rfl, rfl⟩ : t = [] ∧ y₁ = [] := by simpa using hp
      exact ⟨x ++ w, [], by simp, by simpa using hw h, hnil⟩
  · exact hbefore t hy hy₁

namespace Spells

/-- The parts of what is spelled are spelled by parts. -/
theorem split (h : K.Spells x y) {y₀ y₁ : List α} (heq : y = y₀ ++ y₁) :
    ∃ x₀ x₁, x = x₀ ++ x₁ ∧ K.Spells x₀ y₀ ∧ K.Spells x₁ y₁ := by
  induction h generalizing y₀ y₁ with
  | nil =>
    obtain ⟨rfl, rfl⟩ := List.append_eq_nil_iff.1 heq.symm
    exact ⟨[], [], rfl, .nil, .nil⟩
  | char c h ih => exact split_append (le_refl 1) .nil (.char c) h (fun _ _ => ih) heq
  | code r h he ih _ => exact split_append (length_result_le r) .nil (fun h => .code r h he) h (fun _ _ => ih) heq

/-- What has nothing to close comes out as it is spelled. -/
theorem foldl_feed (h : K.Spells x y) (hy : K.close ∉ y) : x.foldl K.feed w = w ++ y := by
  induction h generalizing w with
  | nil => simp
  | char c h ih =>
    obtain ⟨hy, hc⟩ : K.close ∉ _ ∧ K.close ≠ c := by simpa using hy
    rw [List.foldl_append, ih hy, List.foldl_cons, List.foldl_nil, feed_stay fun heq => absurd heq.symm hc,
      List.append_assoc]
  | code r h he ih ihe =>
    rw [List.mem_append, not_or] at hy
    rw [List.foldl_append, List.foldl_append, ih hy.1, ihe (K.close_not_mem_text r), List.foldl_cons, List.foldl_nil,
      feed_text, List.append_assoc]

theorem decode_append (h : K.Spells x y) (hy : K.close ∉ y) : K.decode (a ++ x) = K.decode a ++ y := by
  rw [Codes.decode_append, h.foldl_feed hy]

/-- What is in no code, and is not what closes them, is spelled by itself only. -/
theorem not_mem (h : K.Spells x y) (hclose : c ≠ K.close) (htext : ∀ r, c ∉ K.text r) (hy : c ∉ y) : c ∉ x := by
  induction h with
  | nil => exact List.not_mem_nil
  | char d h ih =>
    rw [List.mem_append, not_or] at hy ⊢
    exact ⟨ih hy.1, hy.2⟩
  | code r h he ih ihe =>
    rw [List.mem_append, not_or] at hy
    rw [List.mem_append, List.mem_append, not_or, not_or]
    exact ⟨ih hy.1, ihe (htext r), by simpa using hclose⟩

theorem refl (x : List α) : K.Spells x x := by
  induction x using List.reverseRecOn with
  | nil => exact .nil
  | append_singleton x c ih => exact .char c ih

/-- Where nothing is closed the text spells itself only. -/
theorem eq_of_close_not_mem (h : K.Spells x y) (hx : K.close ∉ x) : x = y := by
  induction h with
  | nil => rfl
  | char c h ih => rw [ih fun hmem => hx (List.mem_append_left _ hmem)]
  | code r h he ih ihe => exact absurd (by simp) hx

end Spells

/-- A text spells what it is decoded to. -/
theorem spells_decode (s : List α) : K.Spells s (K.decode s) := by
  induction s using List.reverseRecOn with
  | nil => exact .nil
  | append_singleton s c ih =>
    rw [decode_snoc]
    rcases feed_cases (K := K) (K.decode s) c with ⟨y, r, rfl, hy, heq⟩ | ⟨-, heq⟩
    · obtain ⟨x, e, rfl, hx, he⟩ := ih.split hy
      rw [heq, List.append_assoc]
      exact .code r hx he
    · rw [heq]
      exact .char c ih

/-! ## What stays -/

variable (K) in
/-- No code has a part of the text in its own. -/
def Firm (o : List α) : Prop := ∀ {a z b r}, a ++ o ++ z = b ++ K.text r → ∃ z', b = a ++ o ++ z'

/-- An element that is in no code, and behind it none that a code begins with. -/
theorem firm_cons {o : List α} (hc : ∀ r, c ∉ K.text r) (ho : ∀ r, ∃ d t, K.text r = d :: t ∧ d ∉ o) : K.Firm (c :: o) := by
  intro a z b r heq
  rcases List.append_eq_append_iff.1 heq with ⟨t, rfl, -⟩ | ⟨t, hb, htext⟩
  · exact ⟨t, rfl⟩
  · obtain ⟨d, l, hd, hdo⟩ := ho r
    rcases List.append_eq_append_iff.1 hb with ⟨u, rfl, hu⟩ | ⟨u, -, rfl⟩
    · rcases u with - | ⟨e, u⟩
      · obtain rfl : t = c :: o := hu.symm
        exact absurd (htext ▸ by simp) (hc r)
      · obtain ⟨rfl, rfl⟩ := List.cons.inj hu
        rcases t with - | ⟨f, t⟩
        · exact ⟨[], by simp⟩
        · obtain rfl : d = f := (List.cons.inj (hd.symm.trans htext)).1
          exact absurd (List.mem_append_right u List.mem_cons_self) hdo
    · exact absurd (htext ▸ by simp) (hc r)

/-- What is firm is there to the end. -/
theorem Firm.foldl_feed {o : List α} (ho : K.Firm o) (s : List α) : ∃ z, s.foldl K.feed (a ++ o ++ y) = a ++ o ++ z := by
  induction s generalizing y with
  | nil => exact ⟨y, rfl⟩
  | cons c s ih =>
    rw [List.foldl_cons]
    rcases feed_cases (K := K) (a ++ o ++ y) c with ⟨y', r, -, hy, heq⟩ | ⟨-, heq⟩
    · obtain ⟨z, rfl⟩ := ho hy
      rw [heq, List.append_assoc _ z]
      exact ih
    · rw [heq, List.append_assoc]
      exact ih

/-- A text in which one firm part is spelled, and then another, is decoded to one with both. -/
theorem infix_decode_iff {o p : List α} (ho : K.Firm o) (hp : K.Firm p) (hco : K.close ∉ o) (hcp : K.close ∉ p) :
    (∃ a b c, K.decode s = a ++ o ++ b ++ p ++ c) ↔
      ∃ a u b v c, s = a ++ u ++ b ++ v ++ c ∧ K.Spells u o ∧ K.Spells v p := by
  constructor
  · rintro ⟨a, b, c, heq⟩
    obtain ⟨x₁, s₁, rfl, h₁, -⟩ := (spells_decode s).split heq
    obtain ⟨x₂, v, rfl, h₂, hv⟩ := h₁.split rfl
    obtain ⟨x₃, s₃, rfl, h₃, -⟩ := h₂.split rfl
    obtain ⟨x₄, u, rfl, -, hu⟩ := h₃.split rfl
    exact ⟨x₄, u, s₃, v, s₁, rfl, hu, hv⟩
  · rintro ⟨a, u, b, v, c, rfl, hu, hv⟩
    obtain ⟨z, hz⟩ := ho.foldl_feed (a := K.decode a) (y := []) b
    obtain ⟨t, ht⟩ := hp.foldl_feed (a := K.decode a ++ o ++ z) (y := []) c
    refine ⟨K.decode a, z, t, ?_⟩
    rw [List.append_nil] at hz ht
    rw [decode_append, hv.decode_append hcp, decode_append, hu.decode_append hco, hz, ht]

/-! ## One pass -/

variable (K) in
/-- Over the text once: a code that is written out is replaced, and all else stays. -/
structure Pass (once : List α → List α) : Prop where
  nil : once [] = []
  code : ∀ a r, once (a ++ K.text r ++ [K.close]) = once a ++ K.result r
  char : ∀ a c, (c = K.close → ∀ r, ¬K.text r <:+ a) → once (a ++ [c]) = once a ++ [c]

variable (K) in
/-- No code is spelled through another: what is closed is the text of the code. -/
def Flat (s : List α) : Prop := ∀ r e, K.Spells e (K.text r) → e ++ [K.close] <:+: s → K.text r <:+ e

/-- A code spelled at the end, and written out there. -/
theorem suffix_of_spells {e : List α} (h : K.Spells e (K.text r)) (hr : K.text r' <:+ a ++ e) : K.text r <:+ e := by
  obtain ⟨b, hb⟩ := hr
  have hdecode := h.decode_append (a := a) (K.close_not_mem_text r)
  rw [← hb, decode_append_plain (K.close_not_mem_text r')] at hdecode
  obtain ⟨-, rfl⟩ := K.suffix_free hdecode
  rcases List.suffix_or_suffix_of_suffix ⟨b, hb⟩ (List.suffix_append a e) with hsuffix | hsuffix
  · exact hsuffix
  · -- a part of the code spells itself only
    have hplain : K.close ∉ e := fun hmem => K.close_not_mem_text r' (hsuffix.subset hmem)
    have heq := h.foldl_feed (w := []) (K.close_not_mem_text r')
    rw [foldl_feed_plain hplain, List.nil_append, List.nil_append] at heq
    rw [heq]

section Pass
variable {once : List α → List α} (ho : K.Pass once)
include ho

theorem Pass.append_plain (h : K.close ∉ b) : once (a ++ b) = once a ++ b := by
  induction b using List.reverseRecOn with
  | nil => simp
  | append_singleton b c ih =>
    obtain ⟨hb, hc⟩ : K.close ∉ b ∧ K.close ≠ c := by simpa using h
    rw [← List.append_assoc, ho.char (a ++ b) c fun heq => absurd heq.symm hc, ih hb, List.append_assoc]

/-- Of a flat text the codes are written out. -/
theorem Pass.decode_of_flat (h : K.Flat s) : K.decode s = once s := by
  induction hn : s.length using Nat.strong_induction_on generalizing s with
  | _ n ih =>
    subst hn
    rcases List.eq_nil_or_concat' s with rfl | ⟨s, c, rfl⟩
    · exact ho.nil.symm
    have hflat : ∀ {t}, t <+: s → K.Flat t := fun ht r e he hin =>
      h r e he (hin.trans (ht.trans (List.prefix_append s [c])).isInfix)
    by_cases hclose : c = K.close ∧ ∃ r, K.text r <:+ s
    · obtain ⟨rfl, r, a, rfl⟩ := hclose
      have ha := ih a.length (by simp) (hflat (List.prefix_append a (K.text r))) rfl
      rw [decode_code, ho.code, ha]
    · have hstay : c = K.close → ∀ r, ¬K.text r <:+ s := fun hc r hr => hclose ⟨hc, r, hr⟩
      have hs := ih s.length (by simp) (hflat List.prefix_rfl) rfl
      rw [ho.char s c hstay, decode_snoc, ← hs]
      refine feed_stay ?_
      rintro rfl r ⟨y, hy⟩
      obtain ⟨x, e, rfl, -, he⟩ := (spells_decode s).split hy.symm
      have hsuffix := h r e he ⟨x, [], by simp⟩
      exact hstay rfl r (hsuffix.trans (List.suffix_append x e))

variable [DecidableEq α]

/-- What closes a code in one pass closes it in `decode`. -/
theorem Pass.count_snoc (s : List α) (c : α) : (once s).count K.close + (K.decode (s ++ [c])).count K.close ≤
    (once (s ++ [c])).count K.close + (K.decode s).count K.close := by
  have hvalue : ∀ r, (K.result r).count K.close = 0 := fun r => List.count_eq_zero.2 (close_not_mem_result r)
  have htext : ∀ r, (K.text r).count K.close = 0 := fun r => List.count_eq_zero.2 (K.close_not_mem_text r)
  by_cases hclose : c = K.close ∧ ∃ r, K.text r <:+ s
  · obtain ⟨rfl, r, a, rfl⟩ := hclose
    rw [decode_code, ho.code, ho.append_plain (K.close_not_mem_text r), decode_append_plain (K.close_not_mem_text r)]
    simp [hvalue, htext]
  · rw [ho.char s c fun hc r hr => hclose ⟨hc, r, hr⟩, decode_snoc]
    rcases feed_cases (K := K) (K.decode s) c with ⟨y, r, -, hy, heq⟩ | ⟨-, heq⟩
    · rw [heq, hy]
      simp only [List.count_append, hvalue, htext]
      omega
    · rw [heq]
      simp only [List.count_append]
      omega

theorem Pass.count_append (a b : List α) : (once a).count K.close + (K.decode (a ++ b)).count K.close ≤
    (once (a ++ b)).count K.close + (K.decode a).count K.close := by
  induction b using List.reverseRecOn with
  | nil => simp
  | append_singleton b c ih =>
    have hstep := ho.count_snoc (a ++ b) c
    rw [← List.append_assoc]
    omega

theorem Pass.count_le (s : List α) : (K.decode s).count K.close ≤ (once s).count K.close := by
  have h := ho.count_append [] s
  have hnil : K.decode [] = [] := rfl
  simpa [ho.nil, hnil] using h

omit [DecidableEq α] in
/-- Decoding goes over the text once where it is flat, and only there. -/
theorem Pass.decode_eq_iff : K.decode s = once s ↔ K.Flat s := by
  classical
  refine ⟨fun heq r e he hin => ?_, ho.decode_of_flat⟩
  obtain ⟨a, b, rfl⟩ := hin
  by_contra hnot
  -- the code is closed in `decode` only, so the closing character is left in the other
  have hopen : ∀ r', ¬K.text r' <:+ a ++ e := fun r' hr' => hnot (suffix_of_spells he hr')
  have hbefore := ho.count_le (a ++ e)
  have hbehind := ho.count_append (a ++ e ++ [K.close]) b
  have honce := ho.char (a ++ e) K.close fun _ => hopen
  have hdecode : K.decode (a ++ e ++ [K.close]) = K.decode a ++ K.result r := by
    rw [decode_snoc, he.decode_append (K.close_not_mem_text r), feed_text]
  have hsame := congrArg (List.count K.close) heq
  rw [he.decode_append (K.close_not_mem_text r)] at hbefore
  rw [honce, hdecode] at hbehind
  have htext : (K.text r).count K.close = 0 := List.count_eq_zero.2 (K.close_not_mem_text r)
  have hvalue : (K.result r).count K.close = 0 := List.count_eq_zero.2 (close_not_mem_result r)
  simp only [List.count_append, List.count_singleton_self, List.append_assoc, htext, hvalue] at hbefore hbehind hsame
  omega

end Pass

end Codes
