import FishWeb.Text.Entities
/-!
# Texts without tags

`filter_tag` of `common/string_util.py`: seven substitutions, each of them once over the text,
and the entities last. So what the substitutions leave can be a tag, or spell one, that the
entities then write. Which texts come to that is in `Text.Taken`.
-/
open Regex

namespace FishWeb.Text

/-! ## The patterns -/

/-- `\s` -/
def isBlank (c : Char) : Bool := c ∈ [' ', '\t', '\n', '\r', '\x0b', '\x0c']

def literally (s : String) : Pattern Char := s.toList.map fun d => .one (· == d)

/-- A text in a pattern with `re.I`. -/
def ignoreCase (s : String) : Pattern Char := s.toList.map fun d => .one (·.toLower == d.toLower)

/-- An element that is removed with what it has in it: `<\s*name[^>]*>[^<]*<\s*/\s*name\s*>` -/
def element (name : String) : Pattern Char :=
  ignoreCase "<" ++ [.star isBlank] ++ ignoreCase name ++ [.star (· != '>')] ++ ignoreCase ">" ++
  [.star (· != '<')] ++
  ignoreCase "<" ++ [.star isBlank] ++ ignoreCase "/" ++ [.star isBlank] ++ ignoreCase name ++ [.star isBlank] ++ ignoreCase ">"

/-- `//<!\[CDATA\[[^>]*//\]\]>` -/
def re_cdata : Pattern Char := ignoreCase "//<![CDATA[" ++ [.star (· != '>')] ++ ignoreCase "//]]>"

def re_script : Pattern Char := element "script"

def re_style : Pattern Char := element "style"

/-- `<br\s*?/?>` -/
def re_br : Pattern Char := literally "<br" ++ [.lazy isBlank, .opt (· == '/')] ++ literally ">"

/-- `</?\w+[^>]*>` -/
def re_h : Pattern Char := [.one (· == '<'), .opt (· == '/'), .plus isWord, .star (· != '>'), .one (· == '>')]

/-- `<!--[^>]*-->` -/
def re_comment : Pattern Char := literally "<!--" ++ [.star (· != '>')] ++ literally "-->"

/-- `\n+` -/
def blank_line : Pattern Char := [.plus (· == '\n')]

/-! ## The filter -/

/-- What `filter_tag` has before it replaces the entities. -/
def withoutMarkup (htmlstr : List Char) : List Char :=
  let s := sub re_cdata (fun _ => []) htmlstr
  let s := sub re_script (fun _ => []) s
  let s := sub re_style (fun _ => []) s
  let s := sub re_br (fun _ => ['\n']) s
  let s := sub re_h (fun _ => []) s
  let s := sub re_comment (fun _ => []) s
  sub blank_line (fun _ => ['\n']) s

def filter_tag (fuel : Nat) (htmlstr : List Char) : Option (List Char) :=
  let s := withoutMarkup htmlstr
  replaceCharEntity fuel s

/-- It returns for every text. -/
theorem returns_filter_tag (htmlstr : List Char) : Returns (filter_tag · htmlstr) (entities.decode (withoutMarkup htmlstr)) :=
  returns_replaceCharEntity (withoutMarkup htmlstr)

/-! ## Tags -/

/-- What a tag begins with. -/
inductive Opener : List Char → Prop where
  | start {w : Char} (hw : isWord w = true) : Opener ['<', w]
  | stop {w : Char} (hw : isWord w = true) : Opener ['<', '/', w]

/-- Entities spell the beginning of a tag, and further on a `>`. Each of the characters can stand for itself. -/
def SpellsTag (s : List Char) : Prop :=
  ∃ o, Opener o ∧ ∃ a u b v c, s = a ++ u ++ b ++ v ++ c ∧ entities.Spells u o ∧ entities.Spells v ['>']

theorem not_blank {s : List Char} (h : '>' ∉ s) : ∀ c ∈ s, (c != '>') = true := by
  intro c hc
  rw [bne_iff_ne]
  rintro rfl
  exact h hc

/-- What begins a tag makes one with a `>` behind it. -/
theorem Opener.matches_tag {o ns : List Char} (ho : Opener o) (hns : '>' ∉ ns) : Matches re_h (o ++ ns ++ ['>']) := by
  have hclose : Matches [.star (· != '>'), .one (· == '>')] (ns ++ ['>']) :=
    ⟨ns, ['>'], rfl, not_blank hns, ['>'], [], rfl, ⟨'>', rfl, rfl⟩, rfl⟩
  cases ho with
  | @start w hw => exact ⟨['<'], _, rfl, ⟨'<', rfl, rfl⟩, [], _, rfl, .inl rfl, [w], _, rfl, ⟨by simp, by simpa using hw⟩, hclose⟩
  | @stop w hw =>
    exact ⟨['<'], _, rfl, ⟨'<', rfl, rfl⟩, ['/'], _, rfl, .inr ⟨'/', rfl, rfl⟩, [w], _, rfl, ⟨by simp, by simpa using hw⟩, hclose⟩

theorem of_matches_tag {m : List Char} (h : Matches re_h m) : ∃ o b, Opener o ∧ m = o ++ b ++ ['>'] := by
  simp only [re_h, Matches, Item.Matches, beq_iff_eq] at h
  obtain ⟨_, _, rfl, ⟨_, rfl, rfl⟩, slash, _, rfl, hslash, word, _, rfl, ⟨hne, hword⟩, ns, _, rfl, -, _, _, rfl, ⟨_, rfl, rfl⟩, rfl⟩ := h
  obtain ⟨w, word, rfl⟩ := List.exists_cons_of_ne_nil hne
  have hw := hword w List.mem_cons_self
  rcases hslash with rfl | ⟨_, rfl, rfl⟩
  · exact ⟨['<', w], word ++ ns, .start hw, by simp⟩
  · exact ⟨['<', '/', w], word ++ ns, .stop hw, by simp⟩

/-- There is a tag where one begins and a `>` is behind it. -/
theorem occurs_tag_iff {s : List Char} : Occurs re_h s ↔ ∃ o, Opener o ∧ ∃ a b c, s = a ++ o ++ b ++ ['>'] ++ c := by
  constructor
  · rintro ⟨m, ⟨a, c, rfl⟩, hm⟩
    obtain ⟨o, b, ho, rfl⟩ := of_matches_tag hm
    exact ⟨o, ho, a, b, c, by simp⟩
  · rintro ⟨o, ho, a, b, c, rfl⟩
    -- the tag ends at the first one
    obtain ⟨ns, rest, heq, hns⟩ := List.eq_append_cons_of_mem (show '>' ∈ b ++ '>' :: c by simp)
    refine ⟨_, ⟨a, rest, ?_⟩, ho.matches_tag hns⟩
    have hbehind : b ++ ['>'] ++ c = ns ++ ['>'] ++ rest := by simpa using heq
    simpa [List.append_assoc] using hbehind.symm

theorem firm_cons {c : Char} {o : List Char} (hword : isWord c = false) (hhash : c ≠ '#') (hamp : c ≠ '&') (ho : '&' ∉ o) :
    entities.Firm (c :: o) :=
  Codes.firm_cons (fun _ => Ref.not_mem_text hword hhash hamp) fun r => ⟨'&', r.tail, rfl, ho⟩

theorem firm_close : entities.Firm ['>'] := firm_cons (by decide) (by decide) (by decide) List.not_mem_nil

theorem Opener.firm {o : List Char} (h : Opener o) : entities.Firm o := by
  have hopen : ∀ {o}, '&' ∉ o → entities.Firm ('<' :: o) := firm_cons (by decide) (by decide) (by decide)
  cases h with
  | start hw =>
    apply hopen
    simpa using ne_of_isWord (by decide) hw
  | stop hw =>
    apply hopen
    simpa using ne_of_isWord (by decide) hw

theorem Opener.not_mem {o : List Char} (h : Opener o) : ';' ∉ o := by
  cases h with
  | start hw => simpa using ne_of_isWord (by decide) hw
  | stop hw => simpa using ne_of_isWord (by decide) hw

theorem occurs_decode_iff {s : List Char} : Occurs re_h (entities.decode s) ↔ SpellsTag s := by
  rw [occurs_tag_iff]
  refine exists_congr fun o => and_congr_right fun ho => ?_
  exact Codes.infix_decode_iff ho.firm firm_close ho.not_mem (by decide)

theorem filter_tag_tag_iff {htmlstr : List Char} :
    (∃ s, Returns (filter_tag · htmlstr) s ∧ ¬Occurs re_h s) ↔ ¬SpellsTag (withoutMarkup htmlstr) := by
  rw [← occurs_decode_iff]
  constructor
  · rintro ⟨s, hs, hno⟩
    rwa [hs.unique (returns_filter_tag htmlstr)] at hno
  · exact fun hno => ⟨_, returns_filter_tag htmlstr, hno⟩

example : filter_tag 9 "a<br/><BR>b<script >x</ script><p class='c'>&lt;p&gt;</p><!-- c -->".toList = some "a\nb<p>".toList := by
  decide +kernel

end FishWeb.Text
