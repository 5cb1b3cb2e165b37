import FishWeb.Lib.Gaps
import FishWeb.Text.Tags
/-!
# What the filter takes out

Which characters of its text `filter_tag` takes out, told of each position by the matches it
lies in (`stands`), and how a tag can come out of what is left: it is put together over a gap,
or spelled with entities (`Surfaces`). `filter_tag_iff` says that there is no other way, and
that these are ways.
-/
open Regex Gaps

namespace FishWeb.Text

/-! ## Matches that end together -/

/-- A letter in lower case comes after the marks. -/
theorem eq_of_toLower {c d : Char} (hd : d.toNat < 97) (h : c.toLower = d) : c = d := by
  unfold Char.toLower at h
  split at h
  next hup =>
    have hlow : 65 ≤ c.val.toNat := hup.1
    have hhigh : c.val.toNat ≤ 90 := hup.2
    have hval : (c.val + 32).toNat < 97 := by
      rw [← h] at hd
      exact hd
    rw [UInt32.toNat_add] at hval
    have hsmall : c.val.toNat + 32 < 4294967296 := by omega
    have hsum : c.val.toNat + 32 < 97 := by rwa [← Nat.mod_eq_of_lt hsmall]
    omega
  · exact h

theorem endsTogether_cdata : EndsTogether re_cdata := by
  have hinit : ∀ i ∈ ignoreCase "//<![CDATA[" ++ [.star (· != '>')] ++ ignoreCase "//]]", i.cls '>' = false := by decide +kernel
  have hlast : ∀ c : Char, (c.toLower == '>'.toLower) = true → c = '>' := fun c hc =>
    eq_of_toLower (by decide) (beq_iff_eq.1 hc)
  exact endsTogether_of_last hinit hlast

theorem eq_close : ∀ c : Char, (c == '>') = true → c = '>' := fun _ hc => beq_iff_eq.1 hc

theorem endsTogether_br : EndsTogether re_br := by
  have hinit : ∀ i ∈ literally "<br" ++ [.lazy isBlank, .opt (· == '/')], i.cls '>' = false := by decide +kernel
  exact endsTogether_of_last hinit eq_close

theorem endsTogether_h : EndsTogether re_h := by
  have hinit : ∀ i ∈ [.one (· == '<'), .opt (· == '/'), .plus isWord, .star (· != '>')], Item.cls i '>' = false := by decide +kernel
  exact endsTogether_of_last hinit eq_close

theorem endsTogether_comment : EndsTogether re_comment := by
  have hinit : ∀ i ∈ literally "<!--" ++ [.star (· != '>')] ++ literally "--", i.cls '>' = false := by decide +kernel
  exact endsTogether_of_last hinit eq_close

section Element
variable {name : String}

/-- What is in no name. -/
def marks : List Char := ['<', '>', '/', ' ', '\t', '\n', '\r', '\x0b', '\x0c']

/-- The name of an element: no blank is in it, and no mark. -/
structure Named (name : String) : Prop where
  nonempty : ignoreCase name ≠ []
  apart : ∀ i ∈ ignoreCase name, (marks.all fun z => !i.cls z) = true

theorem named_script : Named "script" := ⟨by decide +kernel, by decide +kernel⟩

theorem named_style : Named "style" := ⟨by decide +kernel, by decide +kernel⟩

theorem Named.cls_eq_false (hname : Named name) {z : Char} (hz : z ∈ marks) : ∀ i ∈ ignoreCase name, i.cls z = false := by
  intro i hi
  simpa using List.all_eq_true.1 (hname.apart i hi) z hz

theorem of_mark {d : Char} {m : List Char} (hd : d.toNat < 97) (hlow : d.toLower = d) (h : Matches [.one (·.toLower == d.toLower)] m) :
    m = [d] := by
  obtain ⟨_, _, rfl, ⟨c, rfl, hc⟩, rfl⟩ := h
  rw [hlow] at hc
  rw [eq_of_toLower hd (beq_iff_eq.1 hc), List.append_nil]

/-- A name begins with a letter. -/
theorem Named.of_matches (hname : Named name) {m : List Char} (h : Matches (ignoreCase name) m) :
    ∃ c l, m = c :: l ∧ ¬isBlank c = true ∧ c ≠ '/' := by
  obtain ⟨i, r, hir⟩ := List.exists_cons_of_ne_nil hname.nonempty
  have hi : i ∈ ignoreCase name := hir ▸ List.mem_cons_self
  rw [hir] at h
  obtain ⟨m₁, l, rfl, hm₁, -⟩ := h
  obtain ⟨d, -, rfl⟩ := List.mem_map.1 hi
  obtain ⟨c, rfl, hc⟩ := hm₁
  have hnot : c ∉ marks := fun hmem => by
    have hfalse : (c.toLower == d.toLower) = false := hname.cls_eq_false hmem _ hi
    have htrue : (c.toLower == d.toLower) = true := hc
    rw [htrue] at hfalse
    cases hfalse
  simp only [marks, List.mem_cons, List.not_mem_nil, or_false, not_or] at hnot
  exact ⟨c, l, rfl, by simp [isBlank, hnot], hnot.2.2.1⟩

/-- What opens an element, up to its `>`. -/
def front (name : String) : Pattern Char := ignoreCase "<" ++ [.star isBlank] ++ ignoreCase name ++ [.star (· != '>')]

/-- What closes it, between `<` and `>`. -/
def back (name : String) : Pattern Char := [.star isBlank] ++ ignoreCase "/" ++ [.star isBlank] ++ ignoreCase name ++ [.star isBlank]

theorem element_eq (name : String) :
    element name = front name ++ (ignoreCase ">" ++ ([.star (· != '<')] ++ (ignoreCase "<" ++ (back name ++ ignoreCase ">")))) := by
  simp only [element, front, back, List.append_assoc]

theorem Named.of_front (hname : Named name) {m : List Char} (h : Matches (front name) m) :
    '>' ∉ m ∧ ∃ b c l, m = '<' :: (b ++ c :: l) ∧ (∀ x ∈ b, isBlank x = true) ∧ ¬isBlank c = true ∧ c ≠ '/' := by
  have hfree : ∀ i ∈ front name, i.cls '>' = false := by
    intro i hi
    simp only [front, List.mem_append, or_assoc] at hi
    rcases hi with hi | hi | hi | hi
    · exact (show ∀ i ∈ ignoreCase "<", i.cls '>' = false by decide +kernel) i hi
    · exact (show ∀ i ∈ [Item.star isBlank], i.cls '>' = false by decide) i hi
    · exact hname.cls_eq_false (by simp [marks]) i hi
    · exact (show ∀ i ∈ [Item.star (· != '>')], i.cls '>' = false by decide) i hi
  refine ⟨h.not_mem hfree, ?_⟩
  obtain ⟨m₃, ns, rfl, h₃, -⟩ := matches_append.1 h
  obtain ⟨m₂, n, rfl, h₂, hn⟩ := matches_append.1 h₃
  obtain ⟨o, _, rfl, ho, b, _, rfl, hb, rfl⟩ := matches_append.1 h₂
  obtain rfl := of_mark (d := '<') (by decide) (by decide) ho
  obtain ⟨c, l, rfl, hblank, hslash⟩ := hname.of_matches hn
  exact ⟨b, c, l ++ ns, by simp, hb, hblank, hslash⟩

theorem Named.of_back (hname : Named name) {m : List Char} (h : Matches (back name) m) :
    '<' ∉ m ∧ '>' ∉ m ∧ ∃ b l, m = b ++ '/' :: l ∧ ∀ x ∈ b, isBlank x = true := by
  have hfree : ∀ z, z = '<' ∨ z = '>' → ∀ i ∈ back name, i.cls z = false := by
    intro z hz i hi
    have hmark : z ∈ marks := by rcases hz with rfl | rfl <;> decide
    have hblank : ∀ i ∈ [Item.star isBlank], i.cls z = false := by rcases hz with rfl | rfl <;> decide
    have hslash : ∀ i ∈ ignoreCase "/", i.cls z = false := by rcases hz with rfl | rfl <;> decide +kernel
    simp only [back, List.mem_append, or_assoc] at hi
    rcases hi with hi | hi | hi | hi | hi
    · exact hblank i hi
    · exact hslash i hi
    · exact hblank i hi
    · exact hname.cls_eq_false hmark i hi
    · exact hblank i hi
  refine ⟨h.not_mem (hfree '<' (.inl rfl)), h.not_mem (hfree '>' (.inr rfl)), ?_⟩
  obtain ⟨_, x, rfl, h₁, -⟩ := matches_append.1 h
  obtain ⟨_, y, rfl, h₂, -⟩ := matches_append.1 h₁
  obtain ⟨_, z, rfl, h₃, -⟩ := matches_append.1 h₂
  obtain ⟨_, o, rfl, ⟨b, _, rfl, hb, rfl⟩, ho⟩ := matches_append.1 h₃
  obtain rfl := of_mark (d := '/') (by decide) (by decide) ho
  exact ⟨b, z ++ y ++ x, by simp, hb⟩

/-- An element: what opens it, what is in it, and what closes it. -/
theorem of_element {m : List Char} (h : Matches (element name) m) :
    ∃ f v e, m = f ++ '>' :: (v ++ '<' :: (e ++ ['>'])) ∧ Matches (front name) f ∧ '<' ∉ v ∧ Matches (back name) e := by
  have hclose : ∀ {m}, Matches (ignoreCase ">") m → m = ['>'] := of_mark (by decide) (by decide)
  have hopen : ∀ {m}, Matches (ignoreCase "<") m → m = ['<'] := of_mark (by decide) (by decide)
  rw [element_eq] at h
  obtain ⟨f, _, rfl, hf, h₁⟩ := matches_append.1 h
  obtain ⟨_, _, rfl, hc, h₂⟩ := matches_append.1 h₁
  obtain rfl := hclose hc
  obtain ⟨_, _, rfl, ⟨v, _, rfl, hv, rfl⟩, h₃⟩ := matches_append.1 h₂
  obtain ⟨_, _, rfl, ho, h₄⟩ := matches_append.1 h₃
  obtain rfl := hopen ho
  obtain ⟨e, _, rfl, he, hc⟩ := matches_append.1 h₄
  obtain rfl := hclose hc
  have hinner : '<' ∉ v := fun hmem => absurd (hv '<' hmem) (by decide)
  exact ⟨f, v, e, by simp, hf, hinner, he⟩

/-- The last of a text begins in the first part of it or is in the second. -/
theorem suffix_append_cases {x l l' : List Char} (h : x <:+ l ++ l') : x <:+ l' ∨ ∃ t, t ≠ [] ∧ t <:+ l ∧ x = t ++ l' := by
  obtain ⟨u, hu⟩ := h
  rcases List.append_eq_append_iff.1 hu with ⟨t, rfl, rfl⟩ | ⟨t, rfl, rfl⟩
  · rcases t with - | ⟨c, t⟩
    · exact .inl List.suffix_rfl
    · exact .inr ⟨c :: t, by simp, List.suffix_append u (c :: t), rfl⟩
  · exact .inl (List.suffix_append t x)

/-- A `<` in an element: it closes the element, or it is in what opens it. -/
theorem of_suffix_element {f v e x : List Char} (hv : '<' ∉ v) (he : '<' ∉ e)
    (hx : '<' :: x <:+ f ++ '>' :: (v ++ '<' :: (e ++ ['>']))) :
    x = e ++ ['>'] ∨ ∃ t, t <:+ f ∧ '<' :: x = t ++ '>' :: (v ++ '<' :: (e ++ ['>'])) := by
  have hnot : ∀ {l}, '<' ∉ l → ¬ '<' :: x <:+ l := fun hl hsuffix => hl (hsuffix.subset List.mem_cons_self)
  rcases suffix_append_cases hx with hlast | ⟨t, -, ht, heq⟩
  · left
    rcases List.suffix_cons_iff.1 hlast with heq | hlast
    · exact absurd (List.cons.inj heq).1 (by decide)
    rcases suffix_append_cases hlast with hlast | ⟨t, hne, ht, heq⟩
    · rcases List.suffix_cons_iff.1 hlast with heq | hlast
      · exact (List.cons.inj heq).2
      · exact absurd hlast (hnot (by simpa using he))
    · obtain ⟨c, t, rfl⟩ := List.exists_cons_of_ne_nil hne
      obtain rfl : '<' = c := (List.cons.inj heq).1
      exact absurd (ht.subset List.mem_cons_self) hv
  · exact .inr ⟨t, ht, heq⟩

theorem endsTogether_element (hname : Named name) : EndsTogether (element name) := by
  refine ⟨fun hnil => ?_, fun {m x m' w w'} hm hx hne hm' heq => ?_⟩
  · obtain ⟨f, v, e, heq, -⟩ := of_element hnil
    simp at heq
  obtain ⟨f, v, e, rfl, hf, hv, he⟩ := of_element hm
  obtain ⟨f', v', e', rfl, hf', hv', he'⟩ := of_element hm'
  obtain ⟨hnot', b', c', l', hopens, hb', hblank, hslash⟩ := hname.of_front hf'
  obtain ⟨hopen, hclose, b, l, hback, hb⟩ := hname.of_back he
  obtain ⟨hopen', hclose', -⟩ := hname.of_back he'
  -- as the other element does, it begins with `<`
  obtain ⟨y, rfl⟩ : ∃ y, x = '<' :: y := by
    obtain ⟨c, y, rfl⟩ := List.exists_cons_of_ne_nil hne
    rw [hopens] at heq
    exact ⟨y, by rw [(List.cons.inj heq).1]⟩
  rcases of_suffix_element hv hopen hx with rfl | ⟨t, ht, hxt⟩
  · -- what closes an element opens none
    rw [hback, hopens] at heq
    simp only [List.cons_append, List.append_assoc, List.cons.injEq, true_and] at heq
    have hspan := span_inj hb hb' (by decide) hblank heq
    exact absurd hspan.2.1.symm hslash
  · have hnot : '>' ∉ t := fun hmem => (hname.of_front hf).1 (ht.subset hmem)
    rw [hxt] at heq ⊢
    simp only [List.cons_append, List.append_assoc] at heq
    obtain ⟨rfl, heq₁⟩ := append_first_inj hnot hnot' heq
    obtain ⟨rfl, heq₂⟩ := append_first_inj hv hv' heq₁
    obtain ⟨rfl, -⟩ := append_first_inj hclose hclose' heq₂
    rfl

end Element

/-! ## What stands -/

section Stands
variable {htmlstr : List Char}

/-- What stands when the CDATA, the scripts and the styles are out, with a line break for each `<br>`. -/
noncomputable def tagged (htmlstr : List Char) : Text Char :=
  replace re_br (some '\n') (replace re_style none (replace re_script none (replace re_cdata none (ofList htmlstr))))

/-- What stands when the tags and the comments are out too. -/
noncomputable def stands (htmlstr : List Char) : Text Char := replace re_comment none (replace re_h none (tagged htmlstr))

/-- What the substitutions leave is what stands, with its blank lines shortened. -/
theorem reads_stands (htmlstr : List Char) :
    ∃ s, Reads htmlstr.length (stands htmlstr) s ∧ withoutMarkup htmlstr = sub blank_line (fun _ => ['\n']) s := by
  have hcdata := (reads_ofList htmlstr).replace endsTogether_cdata none
  have hscript := hcdata.replace (endsTogether_element named_script) none
  have hstyle := hscript.replace (endsTogether_element named_style) none
  have hbr := hstyle.replace endsTogether_br (some '\n')
  have hh := hbr.replace endsTogether_h none
  exact ⟨_, hh.replace endsTogether_comment none, rfl⟩

/-! ## Tags that come out -/

theorem Opener.no_line {o : List Char} (h : Opener o) : '\n' ∉ o := by
  cases h with
  | start hw => simpa using ne_of_isWord (by decide) hw
  | stop hw => simpa using ne_of_isWord (by decide) hw

/-- A line break is no part of what spells something else. -/
theorem no_line_of_spells {u o : List Char} (h : entities.Spells u o) (ho : '\n' ∉ o) : '\n' ∉ u :=
  h.not_mem (by decide) (fun _ => Ref.not_mem_text (by decide) (by decide) (by decide)) ho

/-- Where blank lines are shortened a tag is spelled as before. -/
theorem spellsTag_thin {s t : List Char} (h : Thin '\n' s t) : SpellsTag s ↔ SpellsTag t := by
  have hiff : ∀ {o u v}, Opener o → entities.Spells u o → entities.Spells v ['>'] →
      ((∃ a b c, s = a ++ u ++ b ++ v ++ c) ↔ ∃ a b c, t = a ++ u ++ b ++ v ++ c) := fun ho hu hv =>
    h.infix_iff (no_line_of_spells hu ho.no_line) (no_line_of_spells hv (by decide))
  constructor
  · rintro ⟨o, ho, a, u, b, v, c, heq, hu, hv⟩
    obtain ⟨a', b', c', heq'⟩ := (hiff ho hu hv).1 ⟨a, b, c, heq⟩
    exact ⟨o, ho, a', u, b', v, c', heq', hu, hv⟩
  · rintro ⟨o, ho, a, u, b, v, c, heq, hu, hv⟩
    obtain ⟨a', b', c', heq'⟩ := (hiff ho hu hv).2 ⟨a, b, c, heq⟩
    exact ⟨o, ho, a', u, b', v, c', heq', hu, hv⟩

/-- Between characters that stand something is taken out. -/
def Broken (st : Text Char) (a b : Nat) : Prop :=
  ∃ i j k, a ≤ i ∧ i < j ∧ j < k ∧ k < b ∧ (st i).isSome ∧ st j = none ∧ (st k).isSome

/-- The beginning of a tag stands somewhere and a `>` behind it, or entities that spell them: the beginning is put together
over a gap, or there are entities in one of the two. -/
def Surfaces (htmlstr : List Char) : Prop :=
  ∃ o, Opener o ∧ ∃ a b c d, b ≤ c ∧ entities.Spells (between (stands htmlstr) a b) o ∧
    entities.Spells (between (stands htmlstr) c d) ['>'] ∧
    (Broken (stands htmlstr) a b ∨ ';' ∈ between (stands htmlstr) a b ∨ ';' ∈ between (stands htmlstr) c d)

/-- What stands at the end stood before the tags were taken out, and in no tag. -/
theorem tagged_of_stands {i : Nat} {c : Char} (h : stands htmlstr i = some c) :
    tagged htmlstr i = some c ∧ ¬Covered re_h (tagged htmlstr) i := of_replace_none (of_replace_none h).1

/-- The beginning of a tag that stands in one piece had no `>` behind it. -/
theorem no_close {o : List Char} {i k d : Nat} (ho : Opener o) (hpiece : ∀ j, i ≤ j → j ≤ k → (stands htmlstr j).isSome)
    (hik : i ≤ k) (heq : between (stands htmlstr) i (k + 1) = o) (hkd : k < d) : stands htmlstr d ≠ some '>' := by
  intro hd
  have hsame : between (tagged htmlstr) i (k + 1) = o := by
    rw [← heq]
    refine between_congr fun j hij hjk => ?_
    obtain ⟨c, hc⟩ := Option.isSome_iff_exists.1 (hpiece j hij (by omega))
    rw [hc, (tagged_of_stands hc).1]
  -- the tag ends at the first `>`
  obtain ⟨ns, rest, hrest, hns⟩ := List.eq_append_cons_of_mem (mem_between hkd (Nat.lt_succ_self d) (tagged_of_stands hd).1)
  obtain ⟨e, hke, -, he, hbefore, -⟩ := of_between_eq hrest
  obtain ⟨c, hc⟩ := Option.isSome_iff_exists.1 (hpiece i (le_refl i) hik)
  refine (tagged_of_stands hc).2 ⟨i, e + 1, le_refl i, by omega, ?_⟩
  rw [← between_append (show i ≤ k + 1 by omega) (show k + 1 ≤ e + 1 by omega), ← between_append hke (Nat.le_succ e), hsame, hbefore,
    between_one, he, ← List.append_assoc]
  exact ho.matches_tag hns

/-- What is not put together over a gap, and has no entities, would have been taken out with the tags. -/
theorem surfaces_of_spells {o : List Char} {a b c d : Nat} (ho : Opener o) (hbc : b ≤ c)
    (hu : entities.Spells (between (stands htmlstr) a b) o) (hv : entities.Spells (between (stands htmlstr) c d) ['>']) :
    Broken (stands htmlstr) a b ∨ ';' ∈ between (stands htmlstr) a b ∨ ';' ∈ between (stands htmlstr) c d := by
  by_contra hnot
  simp only [not_or] at hnot
  obtain ⟨hbroken, hplain, hplain'⟩ := hnot
  have hopen := hu.eq_of_close_not_mem hplain
  have hclose := hv.eq_of_close_not_mem hplain'
  obtain ⟨o', w, rfl⟩ : ∃ o' w, o = '<' :: (o' ++ [w]) := by
    cases ho with
    | @start w hw => exact ⟨[], w, rfl⟩
    | @stop w hw => exact ⟨['/'], w, rfl⟩
  obtain ⟨i, hai, hib, hi, -, hrest⟩ := of_between_eq (l := []) hopen
  obtain ⟨k, hik, hkb, hk, hmid, -⟩ := of_between_eq hrest
  obtain ⟨e, hce, -, he, -, -⟩ := of_between_eq (l := []) hclose
  refine no_close ho (fun j hij hjk => ?_) (show i ≤ k by omega) ?_ (show k < e by omega) he
  · -- a gap would break it
    rcases Nat.eq_or_lt_of_le hij with rfl | hij
    · simp [hi]
    rcases Nat.eq_or_lt_of_le hjk with rfl | hjk
    · simp [hk]
    by_contra hgap
    exact hbroken ⟨i, j, k, hai, hij, hjk, hkb, by simp [hi], by simpa using hgap, by simp [hk]⟩
  · rw [between_cons (by omega), hi, ← between_append hik (Nat.le_succ k), hmid, between_one, hk]
    rfl

theorem surfaces_iff {s : List Char} (h : Reads htmlstr.length (stands htmlstr) s) : SpellsTag s ↔ Surfaces htmlstr := by
  constructor
  · rintro ⟨o, ho, x, u, y, v, z, heq, hu, hv⟩
    obtain ⟨a, b, c, d, -, hbc, -, rfl, rfl⟩ := h.of_infix heq
    exact ⟨o, ho, a, b, c, d, hbc, hu, hv, surfaces_of_spells ho hbc hu hv⟩
  · rintro ⟨o, ho, a, b, c, d, hbc, hu, hv, -⟩
    have hle : ∀ {a b o}, entities.Spells (between (stands htmlstr) a b) o → o ≠ [] → a ≤ b := by
      intro a b o hspells hne
      by_contra hlt
      rw [between_of_le (by omega)] at hspells
      exact hne (hspells.eq_of_close_not_mem List.not_mem_nil).symm
    have hone : o ≠ [] := by cases ho <;> simp
    obtain ⟨x, y, z, heq⟩ := h.infix (hle hu hone) hbc (hle hv (by simp))
    exact ⟨o, ho, x, _, y, _, z, heq, hu, hv⟩

theorem filter_tag_surfaces_iff : (∃ s, Returns (filter_tag · htmlstr) s ∧ ¬Occurs re_h s) ↔ ¬Surfaces htmlstr := by
  obtain ⟨s, hreads, heq⟩ := reads_stands htmlstr
  have hthin : Thin '\n' s (withoutMarkup htmlstr) := heq ▸ thin_sub '\n' s
  rw [filter_tag_tag_iff, ← spellsTag_thin hthin, surfaces_iff hreads]

/-- What stands is of the text, but for the line breaks. -/
theorem mem_of_stands {i : Nat} {c : Char} (h : stands htmlstr i = some c) : c = '\n' ∨ c ∈ htmlstr := by
  rcases of_replace (tagged_of_stands h).1 with ⟨hline, -⟩ | ⟨hstyle, -⟩
  · exact .inl (Option.some.inj hline).symm
  · have htext : ofList htmlstr i = some c := (of_replace_none (of_replace_none (of_replace_none hstyle).1).1).1
    exact .inr (List.mem_of_getElem? htext)

/-- A text without `;` comes out with a tag just where the beginning of one is put together over a gap, and a `>` stands behind. -/
theorem filter_tag_plain_iff (hplain : ';' ∉ htmlstr) : (∃ s, Returns (filter_tag · htmlstr) s ∧ ¬Occurs re_h s) ↔
    ¬∃ a b d, Opener (between (stands htmlstr) a b) ∧ Broken (stands htmlstr) a b ∧ b ≤ d ∧ stands htmlstr d = some '>' := by
  have hfree : ∀ a b, ';' ∉ between (stands htmlstr) a b := by
    intro a b hmem
    obtain ⟨i, -, hi⟩ := List.mem_filterMap.1 hmem
    rcases mem_of_stands hi with hline | htext
    · exact absurd hline (by decide)
    · exact hplain htext
  rw [filter_tag_surfaces_iff, not_iff_not]
  constructor
  · rintro ⟨o, ho, a, b, c, d, hbc, hu, hv, hgap | hsemi | hsemi⟩
    · obtain rfl := hu.eq_of_close_not_mem (hfree a b)
      obtain ⟨e, hce, -, he, -, -⟩ := of_between_eq (l := []) (hv.eq_of_close_not_mem (hfree c d))
      exact ⟨a, b, e, ho, hgap, by omega, he⟩
    · exact absurd hsemi (hfree a b)
    · exact absurd hsemi (hfree c d)
  · rintro ⟨a, b, d, ho, hgap, hbd, hd⟩
    have hclose : between (stands htmlstr) d (d + 1) = ['>'] := by rw [between_one, hd]; rfl
    exact ⟨_, ho, a, b, d, d + 1, hbd, .refl _, hclose ▸ .refl _, .inl hgap⟩

example : filter_tag 9 "<<b>b>".toList = some "<b>".toList := by decide +kernel

end Stands

/-- The texts that come out without a tag, and are decoded in one pass. -/
theorem filter_tag_iff (htmlstr : List Char) :
    ((∃ s, Returns (filter_tag · htmlstr) s ∧ ¬Occurs re_h s) ∧ Returns (replaceCharEntity · htmlstr) (onePass htmlstr)) ↔
      ¬Surfaces htmlstr ∧ entities.Flat htmlstr :=
  and_congr filter_tag_surfaces_iff replaceCharEntity_once_iff

/-- An entity of an entity is read again, and then there is a tag. -/
theorem tag_comes_back :
    ¬(∃ s, Returns (filter_tag · "&amp;lt;b>".toList) s ∧ ¬Occurs re_h s) ∧
      ¬Returns (replaceCharEntity · "&amp;lt;b>".toList) (onePass "&amp;lt;b>".toList) := by
  have hdecode : entities.decode "&amp;lt;b>".toList = "<b>".toList := by
    have hloop := replaceCharEntity_eq (show "&amp;lt;b>".toList.length < 11 by decide)
    have hrun : replaceCharEntity 11 "&amp;lt;b>".toList = some "<b>".toList := by decide +kernel
    exact Option.some.inj (hloop.symm.trans hrun)
  have hmarkup : withoutMarkup "&amp;lt;b>".toList = "&amp;lt;b>".toList := by decide +kernel
  constructor
  · rintro ⟨s, hs, hno⟩
    obtain rfl : s = "<b>".toList := by rw [hs.unique (returns_filter_tag _), hmarkup, hdecode]
    have htag : search re_h "<b>".toList ≠ none := by decide +kernel
    exact htag (search_eq_none_iff.2 hno)
  · intro h
    have honce : onePass "&amp;lt;b>".toList = "<b>".toList := by rw [h.unique (returns_replaceCharEntity _), hdecode]
    exact absurd honce (by decide +kernel)

end FishWeb.Text
