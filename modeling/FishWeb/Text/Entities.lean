import FishWeb.Lib.Closing
import FishWeb.Lib.Regex
/-!
# Character entities

`replaceCharEntity` of `common/string_util.py`. It searches its text from the start again
after each entity it has replaced, so it reads what it has written: `decode` is what it comes
to (`replaceCharEntity_eq`), and it is one pass over the text just where no entity is spelled
through another (`replaceCharEntity_once_iff`).
-/
open Regex

namespace FishWeb.Text

/-- `\w` -/
def isWord (c : Char) : Bool := c.isAlphanum || c == '_'

def CHAR_ENTITIES : List (List Char × Char) :=
  [("nbsp".toList, ' '), ("160".toList, ' '), ("lt".toList, '<'), ("60".toList, '<'), ("gt".toList, '>'),
    ("62".toList, '>'), ("amp".toList, '&'), ("38".toList, '&'), ("quot".toList, '"'), ("34".toList, '"')]

/-- `&#?(?P<name>\w+);` -/
def re_charEntity : Pattern Char := [.one (· == '&'), .opt (· == '#'), .plus isWord, .one (· == ';')]

/-- `sz.group('name')`: what else there is in an entity is no `\w`. -/
def groupName (entity : List Char) : List Char := entity.filter isWord

/-- The `while` has a round for each of `fuel`. -/
def replaceCharEntity : (fuel : Nat) → List Char → Option (List Char)
  | 0, _ => none
  | fuel + 1, htmlstr =>
    match search re_charEntity htmlstr with
    | none => some htmlstr
    | some (_, entity, _) =>
      let key := groupName entity
      match CHAR_ENTITIES.lookup key with
      | some c => replaceCharEntity fuel (subOnce re_charEntity (fun _ => [c]) htmlstr)
      | none => replaceCharEntity fuel (subOnce re_charEntity (fun _ => []) htmlstr)

/-- What an entity stands for. -/
def replacement (entity : List Char) : List Char := (CHAR_ENTITIES.lookup (groupName entity)).toList

/-- A single pass over the text from the left to the right. -/
def onePass (htmlstr : List Char) : List Char := sub re_charEntity replacement htmlstr

/-- The call returns, if it has the time. -/
def Returns {α : Type} (f : (fuel : Nat) → Option α) (a : α) : Prop := ∃ n, ∀ fuel ≥ n, f fuel = some a

theorem Returns.unique {α : Type} {f : Nat → Option α} {a b : α} (ha : Returns f a) (hb : Returns f b) : a = b := by
  obtain ⟨n, hn⟩ := ha
  obtain ⟨m, hm⟩ := hb
  have heq := (hn (n + m) (Nat.le_add_right n m)).symm.trans (hm (n + m) (Nat.le_add_left m n))
  exact Option.some.inj heq

/-! ## Entities as codes -/

theorem ne_of_isWord {c w : Char} (hc : isWord c = false) (hw : isWord w = true) : c ≠ w := by
  rintro rfl
  rw [hc] at hw
  cases hw

/-- An entity, but for its `;`. -/
structure Ref where
  hash : Bool
  name : List Char
  nonempty : name ≠ []
  word : ∀ c ∈ name, isWord c = true

namespace Ref
variable (r : Ref)

/-- What is behind the `&`. -/
def tail : List Char := if r.hash then '#' :: r.name else r.name

def text : List Char := '&' :: r.tail

variable {r} {c : Char}

theorem of_mem_tail (h : c ∈ r.tail) : c = '#' ∨ isWord c = true := by
  rw [tail] at h
  split at h
  · exact (List.mem_cons.1 h).imp id (r.word c)
  · exact .inr (r.word c h)

theorem not_mem_tail (hword : isWord c = false) (hhash : c ≠ '#') : c ∉ r.tail := fun h => by
  rcases of_mem_tail h with rfl | hc
  · exact hhash rfl
  · exact ne_of_isWord hword hc rfl

theorem not_mem_text (hword : isWord c = false) (hhash : c ≠ '#') (hamp : c ≠ '&') : c ∉ r.text := fun h =>
  (List.mem_cons.1 h).elim hamp (not_mem_tail hword hhash)

theorem ext_tail {r r' : Ref} (h : r.tail = r'.tail) : r = r' := by
  obtain ⟨hash, name, hne, hword⟩ := r
  obtain ⟨hash₂, name₂, hne₂, hword₂⟩ := r'
  have hno : ∀ {l n : List Char}, (∀ c ∈ n, isWord c = true) → '#' :: l ≠ n := by
    rintro l _ hn rfl
    exact ne_of_isWord (by decide) (hn '#' List.mem_cons_self) rfl
  cases hash <;> cases hash₂ <;> simp only [tail, if_true, Bool.false_eq_true, if_false] at h
  · subst h
    rfl
  · exact absurd h.symm (hno hword)
  · exact absurd h (hno hword₂)
  · obtain rfl : name = name₂ := (List.cons.inj h).2
    rfl

theorem suffix_free {a b : List Char} {r r' : Ref} (h : a ++ r.text = b ++ r'.text) : a = b ∧ r = r' := by
  have hamp : ∀ r : Ref, '&' ∉ r.tail := fun r => not_mem_tail (by decide) (by decide)
  obtain ⟨rfl, htail⟩ := append_last_inj (hamp r) (hamp r') h
  exact ⟨rfl, ext_tail htail⟩

theorem filter_text (r : Ref) : (r.text ++ [';']).filter isWord = r.name := by
  have hname : r.name.filter isWord = r.name := List.filter_eq_self.2 r.word
  rw [text, tail]
  split <;> simp [hname, show isWord '&' = false by decide, show isWord '#' = false by decide, show isWord ';' = false by decide]

end Ref

/-- The entities as codes that `;` closes. -/
def entities : Codes Char Ref where
  close := ';'
  text := Ref.text
  value r := CHAR_ENTITIES.lookup r.name
  close_not_mem_text _ := Ref.not_mem_text (by decide) (by decide) (by decide)
  close_not_mem_value r h := by
    have hvalues : ∀ e ∈ CHAR_ENTITIES, e.2 ≠ ';' := by decide
    obtain ⟨l₁, l₂, hl, -⟩ := List.lookup_eq_some_iff.1 h
    exact hvalues (r.name, ';') (hl ▸ by simp) rfl
  suffix_free := Ref.suffix_free

theorem matches_iff {m : List Char} : Matches re_charEntity m ↔ ∃ r : Ref, m = r.text ++ [';'] := by
  simp only [re_charEntity, Matches, Item.Matches, beq_iff_eq]
  constructor
  · rintro ⟨_, _, rfl, ⟨_, rfl, rfl⟩, _, _, rfl, hhash, name, _, rfl, ⟨hne, hword⟩, _, _, rfl, ⟨_, rfl, rfl⟩, rfl⟩
    rcases hhash with rfl | ⟨_, rfl, rfl⟩
    · exact ⟨⟨false, name, hne, hword⟩, rfl⟩
    · exact ⟨⟨true, name, hne, hword⟩, rfl⟩
  · rintro ⟨⟨hash, name, hne, hword⟩, rfl⟩
    refine ⟨['&'], _, rfl, ⟨'&', rfl, rfl⟩, ?_⟩
    cases hash
    · exact ⟨[], _, rfl, .inl rfl, name, [';'], rfl, ⟨hne, hword⟩, [';'], [], rfl, ⟨';', rfl, rfl⟩, rfl⟩
    · exact ⟨['#'], _, rfl, .inr ⟨'#', rfl, rfl⟩, name, [';'], rfl, ⟨hne, hword⟩, [';'], [], rfl, ⟨';', rfl, rfl⟩, rfl⟩

theorem prefixFree_charEntity : PrefixFree re_charEntity := by
  intro m m' t t' hm hm' h
  obtain ⟨r, rfl⟩ := matches_iff.1 hm
  obtain ⟨r', rfl⟩ := matches_iff.1 hm'
  have hclose : ∀ r : Ref, ';' ∉ r.text := entities.close_not_mem_text
  rw [List.append_assoc, List.append_assoc] at h
  rcases List.append_eq_append_iff.1 h with ⟨u, hu, hrest⟩ | ⟨u, hu, hrest⟩ <;> rcases u with - | ⟨x, u⟩
  · rw [hu, List.append_nil]
  · obtain rfl : ';' = x := (List.cons.inj hrest).1
    exact absurd (hu ▸ by simp) (hclose r')
  · rw [hu, List.append_nil]
  · obtain rfl : ';' = x := (List.cons.inj hrest).1
    exact absurd (hu ▸ by simp) (hclose r)

theorem not_matches_nil : ¬Matches re_charEntity [] := fun h => by
  obtain ⟨r, hr⟩ := matches_iff.1 h
  simp at hr

theorem replacement_text (r : Ref) : replacement (r.text ++ [';']) = entities.result r := by
  rw [replacement, groupName, Ref.filter_text]
  rfl

theorem plain_iff {s : List Char} : entities.Plain s ↔ ¬Occurs re_charEntity s := by
  constructor
  · rintro h ⟨m, hin, hm⟩
    obtain ⟨r, rfl⟩ := matches_iff.1 hm
    exact h r hin
  · exact fun h r hin => h ⟨_, hin, matches_iff.2 ⟨r, rfl⟩⟩

/-! ## The loop -/

/-- A round writes the value of an entity for it. -/
theorem subOnce_eq {s a b m : List Char} {repl : List Char → List Char} (h : search re_charEntity s = some (a, m, b)) :
    subOnce re_charEntity repl s = a ++ repl m ++ b := by
  rw [subOnce, h]

theorem replaceCharEntity_succ {fuel : Nat} {s a m b : List Char} (h : search re_charEntity s = some (a, m, b)) :
    replaceCharEntity (fuel + 1) s = replaceCharEntity fuel (a ++ replacement m ++ b) := by
  rw [replaceCharEntity, h]
  simp only [replacement]
  cases CHAR_ENTITIES.lookup (groupName m) with
  | none => simp only [subOnce_eq h, Option.toList_none]
  | some c => simp only [subOnce_eq h, Option.toList_some]

/-- The loop ends, as each round leaves a shorter text, and what it leaves is decoded. -/
theorem replaceCharEntity_eq {fuel : Nat} {s : List Char} (h : s.length < fuel) :
    replaceCharEntity fuel s = some (entities.decode s) := by
  induction fuel generalizing s with
  | zero => omega
  | succ fuel ih =>
    cases hsearch : search re_charEntity s with
    | none =>
      have hplain := plain_iff.2 (search_eq_none_iff.1 hsearch)
      rw [replaceCharEntity, hsearch, Codes.decode_of_plain hplain]
    | some x =>
      obtain ⟨a, m, b⟩ := x
      obtain ⟨rfl, hm⟩ := of_search hsearch
      obtain ⟨r, rfl⟩ := matches_iff.1 hm
      have hshort : (a ++ entities.result r ++ b).length < fuel := by
        have hvalue := entities.length_result_le r
        simp only [List.length_append, Ref.text, List.length_cons] at h ⊢
        omega
      rw [replaceCharEntity_succ hsearch, replacement_text, ih hshort]
      exact congrArg some Codes.decode_replace.symm

theorem returns_replaceCharEntity (s : List Char) : Returns (replaceCharEntity · s) (entities.decode s) :=
  ⟨s.length + 1, fun _ hfuel => replaceCharEntity_eq hfuel⟩

/-! ## One pass -/

/-- The end of an entity. -/
theorem of_append_eq {u v : List Char} {r : Ref} (hv : v ≠ []) (h : u ++ v = r.text ++ [';']) :
    ∃ v', v = v' ++ [';'] ∧ u ++ v' = r.text := by
  obtain ⟨v', c, rfl⟩ := (List.eq_nil_or_concat' v).resolve_left hv
  obtain ⟨hr, hc⟩ := List.append_inj' ((List.append_assoc u v' [c]).trans h) rfl
  exact ⟨v', by rw [hc], hr⟩

theorem onePass_text (r : Ref) : onePass (r.text ++ [';']) = entities.result r := by
  have hmatch := match?_of_matches (t := []) prefixFree_charEntity (matches_iff.2 ⟨r, rfl⟩)
  have hsub : onePass (r.text ++ [';'] ++ []) = replacement (r.text ++ [';']) ++ onePass [] := sub_match (by simp) hmatch
  rw [List.append_nil] at hsub
  rw [hsub, replacement_text]
  exact List.append_nil _

theorem onePass_singleton (c : Char) : onePass [c] = [c] := by
  have hnone : match? re_charEntity [c] = none := by
    rw [match?_eq_none_iff]
    intro m t heq hm
    obtain ⟨r, rfl⟩ := matches_iff.1 hm
    have hlen := congrArg List.length heq
    simp [Ref.text] at hlen
  exact sub_cons hnone

theorem pass_onePass : entities.Pass onePass := by
  have happend : ∀ {a b}, (∀ u v r, u ≠ [] → v ++ [';'] <+: b → u <:+ a → u ++ v ≠ Ref.text r) →
      onePass (a ++ b) = onePass a ++ onePass b := by
    intro a b h
    refine sub_append prefixFree_charEntity not_matches_nil fun u v hu hv hua hvb hm => ?_
    obtain ⟨r, hr⟩ := matches_iff.1 hm
    obtain ⟨v', rfl, htext⟩ := of_append_eq hv hr
    exact h u v' r hu hvb hua htext
  refine ⟨rfl, fun a r => ?_, fun a c h => ?_⟩
  · show onePass (a ++ r.text ++ [';']) = _
    rw [List.append_assoc, happend, onePass_text]
    intro u v r' hu hv _ hr'
    rcases List.prefix_concat_iff.1 hv with heq | hin
    · -- the entity would begin in another
      obtain rfl := (List.append_inj' heq rfl).1
      exact hu (entities.suffix_free (b := []) hr').1
    · exact entities.close_not_mem_text r (hin.subset (List.mem_append_right v (List.mem_singleton.2 rfl)))
  · rw [happend, onePass_singleton]
    intro u v r _ hv hua hr
    obtain ⟨rfl, hc⟩ : v = [] ∧ ';' = c := by
      rcases v with - | ⟨x, v⟩
      · exact ⟨rfl, (List.cons_prefix_cons.1 hv).1⟩
      · have hlen := hv.length_le
        simp at hlen
    rw [List.append_nil] at hr
    exact h hc.symm r (show r.text <:+ a from hr ▸ hua)

/-- `replaceCharEntity` returns what one pass makes of the text where each `;` that closes
an entity, in whatever way it is spelled, has the entity right before it. -/
theorem replaceCharEntity_once_iff {s : List Char} : Returns (replaceCharEntity · s) (onePass s) ↔ entities.Flat s := by
  rw [← pass_onePass.decode_eq_iff]
  constructor
  · exact fun h => (returns_replaceCharEntity s).unique h
  · intro h
    exact h ▸ returns_replaceCharEntity s

example : replaceCharEntity 9 "&amp;lt;&#62;&none;".toList = some "<>".toList := by decide

end FishWeb.Text
