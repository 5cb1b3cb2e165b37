import FishWeb.Lib.Python
import FishWeb.Lib.QueryText
/-!
# Parameters of a query

`get_query` of `common/web_util.py`. It looks for `&name=` before `?name=`, so a second pair
of the name hides the first one of the query; and `urllib.parse` is no part of the `urllib`
of Python 2, so that nothing is decoded and a value that was encoded has a `%`, which is
refused. `query_right_iff` says which values are returned nonetheless.

A text is the list of its characters, and a byte of `str` one character.
-/
open Python QueryText

namespace FishWeb.Query

/-! ## Text -/

/-- `unicode.isspace` -/
def isSpace (c : Char) : Bool :=
  c.toNat ∈ [0x1680, 0x180e, 0x2028, 0x2029, 0x202f, 0x205f, 0x3000, 0x20, 0x85, 0xa0] ||
    0x9 ≤ c.toNat && c.toNat ≤ 0xd || 0x1c ≤ c.toNat && c.toNat ≤ 0x1f || 0x2000 ≤ c.toNat && c.toNat ≤ 0x200a

/-- `strip()` -/
def strip (cs : List Char) : List Char := ((cs.dropWhile isSpace).reverse.dropWhile isSpace).reverse

/-- `re.search('\||<|>|&|%|~|\^|;|\'', ..)` -/
def isSpecial (c : Char) : Bool := c ∈ ['|', '<', '>', '&', '%', '~', '^', ';', '\'']

/-- `urllib.parse.unquote` of a module that has no `parse`. -/
def unquote (_ : List Char) : Except Err (List Char) := .error .AttributeError

/-! ## The parameter -/

/-- The arguments but for the name. -/
structure Args where
  msg : String
  is_strip : Bool
  lenght : Nat
  is_check_null : Bool
  notify_msg : String
  is_check_special_char : Bool

inductive Outcome where
  | returns (args_value : List Char)
  /-- `return_raise(do_response(state, msg))` -/
  | responds (state : Int) (msg : String)
  | raises (e : Err)
  deriving Repr, DecidableEq

/-- `__get` -/
def get (query_string args_name : List Char) : List Char :=
  let get := '?' :: query_string
  match (find ('&' :: (args_name ++ ['='])) get).or (find ('?' :: (args_name ++ ['='])) get) with
  | none => []
  | some start_index =>
    let value := start_index + (args_name ++ ['=']).length + 1
    match findFrom ['&'] (start_index + 1) get with
    | none => get.drop value
    | some end_index => (get.drop value).take (end_index - value)

/-- `__request_handle` -/
def requestHandle (args_value : List Char) (a : Args) : Outcome :=
  if a.is_check_null ∧ args_value = [] then
    .responds (-1) (if a.notify_msg ≠ "" then a.notify_msg else a.msg ++ " 不允许为空")
  else if args_value = [] then .returns args_value
  else
    let args_value := match unquote args_value with
      | .ok value => value
      | .error _ => args_value
    -- `replace` with a `unicode` decodes the bytes as ASCII
    if args_value.any fun c => 128 ≤ c.toNat then .raises .ValueError
    else
      let args_value := args_value.filter (· ≠ '\u00a0')
      let args_value := if a.is_strip then strip args_value else args_value
      if a.lenght > 0 ∧ args_value.length > a.lenght then .responds (-1) (a.msg ++ " 超出 " ++ toString a.lenght ++ " 个字符")
      else if a.is_check_special_char ∧ args_value.any isSpecial then .responds (-1) (a.msg ++ " 含有特殊字符，请重新输入")
      else .returns args_value

/-- `get_query` -/
def getQuery (query_string args_name : List Char) (a : Args) : Outcome := requestHandle (get query_string args_name) a

/-! ## Queries -/

/-- A name of word characters. -/
structure Name where
  chars : List Char
  ne_nil : chars ≠ []
  word : ∀ c ∈ chars, c.isAlphanum = true ∨ c = '_'

/-- A value without special characters. -/
structure Value where
  chars : List Char
  plain : ∀ c ∈ chars, isSpecial c = false

abbrev Pairs := List (Name × Value)

/-- The pairs as they are sent. -/
def sent (ps : Pairs) : List Pair := ps.map fun p => (p.1.chars, quote p.2.chars)

/-- The value of the first pair of the name. -/
def first (n : Name) (ps : Pairs) : Option Value := (ps.find? fun p => p.1.chars = n.chars).map Prod.snd

/-- The value of the first pair of the name after the first pair of all, or of that one. -/
def behind (n : Name) (ps : Pairs) : Option Value := (first n ps.tail).or (first n ps)

/-! ## What is cut out -/

theorem sent_find (n : Name) (ps : Pairs) :
    (sent ps).find? (fun p => p.1 = n.chars) = (first n ps).map fun v => (n.chars, quote v.chars) := by
  unfold sent first
  rw [List.find?_map, Option.map_map]
  show Option.map _ (ps.find? fun p => p.1.chars = n.chars) = _
  cases h : ps.find? fun p => p.1.chars = n.chars with
  | none => rfl
  | some p =>
    have hname : p.1.chars = n.chars := by simpa using List.find?_some h
    show some (p.1.chars, _) = some (n.chars, _)
    rw [hname]

theorem not_mem_chars (n : Name) {c : Char} (hc : ¬(c.isAlphanum = true ∨ c = '_')) : c ∉ n.chars := fun h => hc (n.word c h)

theorem not_mem_quote {c : Char} (h : unreserved c = false) (hc : c ≠ '%') (v : List Char) : c ∉ quote v := fun hmem =>
  (of_mem_quote hmem).elim (fun hu => by rw [hu] at h; cases h) hc

theorem clean (n : Name) (v : List Char) : Clean (n.chars, quote v) where
  name := not_mem_chars n (by decide)
  and := by
    simp only [List.mem_append, List.mem_cons, not_or]
    exact ⟨not_mem_chars n (by decide), by decide, not_mem_quote (by decide) (by decide) v⟩
  question := by
    simp only [List.mem_append, List.mem_cons, not_or]
    exact ⟨not_mem_chars n (by decide), by decide, not_mem_quote (by decide) (by decide) v⟩

theorem clean_of_mem {ps : Pairs} {p : Pair} (h : p ∈ sent ps) : Clean p := by
  obtain ⟨q, -, rfl⟩ := List.mem_map.1 h
  exact clean q.1 q.2.chars

/-- From where the pair begins its value is cut out. -/
theorem cut {text n : List Char} {m : Char} {p : Pair} {i : Nat} (rest : List Pair) (hdrop : text.drop i = marked m p ++ ands rest)
    (hclean : Clean p) (hn : n = p.1) :
    (match findFrom ['&'] (i + 1) text with
      | none => text.drop (i + (n ++ ['=']).length + 1)
      | some end_index => (text.drop (i + (n ++ ['=']).length + 1)).take (end_index - (i + (n ++ ['=']).length + 1))) = p.2 := by
  have hvalue : text.drop (i + (n ++ ['=']).length + 1) = p.2 ++ ands rest := by
    rw [Nat.add_assoc, ← List.drop_drop, hdrop, marked, hn]
    simp
  have hname : text.drop (i + 1) = (p.1 ++ '=' :: p.2) ++ ands rest := by
    rw [← List.drop_drop, hdrop]
    rfl
  rw [findFrom, hname, find_append hclean.and, hvalue]
  cases rest with
  | nil =>
    show p.2 ++ [] = p.2
    exact List.append_nil _
  | cons q rest =>
    have hend : find ['&'] (ands (q :: rest)) = some 0 := find_of_prefix ⟨_, rfl⟩
    rw [hend]
    have hlen : 0 + (p.1 ++ '=' :: p.2).length + (i + 1) - (i + (n ++ ['=']).length + 1) = p.2.length := by
      rw [hn]
      simp only [List.length_append, List.length_cons, List.length_nil]
      omega
    show (p.2 ++ ands (q :: rest)).take (0 + (p.1 ++ '=' :: p.2).length + (i + 1) - (i + (n ++ ['=']).length + 1)) = p.2
    rw [hlen]
    exact List.take_left

theorem get_sent (n : Name) (ps : Pairs) :
    get (queryString (sent ps)) n.chars = ((behind n ps).map fun v => quote v.chars).getD [] := by
  have hn : '=' ∉ n.chars := not_mem_chars n (by decide)
  cases ps with
  | nil =>
    have hnone : find ('?' :: (n.chars ++ ['='])) ['?'] = none := by
      rw [find, if_neg fun h => by simpa using h.length_le]
      rfl
    unfold get
    show (match (find ('&' :: (n.chars ++ ['='])) ['?']).or (find ('?' :: (n.chars ++ ['='])) ['?']) with | none => _ | some i => _) = _
    rw [find_eq_none (by decide), hnone]
    rfl
  | cons p ps =>
    have htext : '?' :: queryString (sent (p :: ps)) = marked '?' (p.1.chars, quote p.2.chars) ++ ands (sent ps) := rfl
    have hclean := clean p.1 p.2.chars
    have hand : '&' ∉ marked '?' (p.1.chars, quote p.2.chars) := by
      rw [marked, List.mem_cons, not_or]
      exact ⟨by decide, hclean.and⟩
    have hquestion : '?' ∉ ands (sent ps) := by
      intro h
      obtain ⟨q, hq, hmem⟩ := List.mem_flatMap.1 h
      rw [marked, List.mem_cons] at hmem
      exact hmem.elim (by decide) (clean_of_mem hq).question
    unfold get
    dsimp only
    rw [htext, find_append hand, find_marked hn hclean.name hclean.question, find_eq_none hquestion, Option.map_none]
    have hfind := sent_find n ps
    cases hlater : first n ps with
    | some v =>
      rw [hlater] at hfind
      obtain ⟨i, rest, hi, hdrop⟩ := find_ands_some hn (fun q => clean_of_mem) hfind
      have hb : behind n (p :: ps) = some v := by
        show (first n ps).or _ = _
        rw [hlater]
        rfl
      rw [hi, hb]
      refine cut (m := '&') (i := i + (marked '?' (p.1.chars, quote p.2.chars)).length) rest ?_ (clean n v.chars) rfl
      rw [Nat.add_comm, ← List.drop_drop, List.drop_left, hdrop]
    | none =>
      rw [hlater] at hfind
      rw [find_ands_none hn (fun q => clean_of_mem) hfind]
      have hb : behind n (p :: ps) = first n (p :: ps) := by
        show (first n ps).or _ = _
        rw [hlater]
        rfl
      rw [hb]
      by_cases hp : n.chars = p.1.chars
      · have hf : first n (p :: ps) = some p.2 := by simp [first, hp]
        rw [if_pos hp, hf]
        exact cut (i := 0) (sent ps) rfl hclean hp
      · have hf : first n (p :: ps) = none := by
          rw [← hlater]
          simp [first, Ne.symm hp]
        rw [if_neg hp, hf]
        rfl

/-! ## What is made of it -/

theorem toNat_of_unreserved {c : Char} (h : unreserved c = true) : 45 ≤ c.toNat ∧ c.toNat ≤ 122 := by
  delta unreserved Char.isAlphanum Char.isAlpha Char.isUpper Char.isLower Char.isDigit at h
  simp only [Bool.or_eq_true, Bool.and_eq_true, decide_eq_true_eq, ge_iff_le, UInt32.le_iff_toNat_le] at h
  unfold Char.toNat
  rcases h with ((((⟨h1, h2⟩ | ⟨h1, h2⟩) | ⟨h1, h2⟩) | rfl) | rfl) | rfl
  · exact ⟨Nat.le_trans (by decide) h1, Nat.le_trans h2 (by decide)⟩
  · exact ⟨Nat.le_trans (by decide) h1, Nat.le_trans h2 (by decide)⟩
  · exact ⟨Nat.le_trans (by decide) h1, Nat.le_trans h2 (by decide)⟩
  · decide
  · decide
  · decide

theorem isSpace_of_unreserved {c : Char} (h : unreserved c = true) : isSpace c = false := by
  have hrange := toNat_of_unreserved h
  unfold isSpace
  simp
  omega

theorem strip_eq {cs : List Char} (h : ∀ c ∈ cs, isSpace c = false) : strip cs = cs := by
  have hdrop : ∀ l : List Char, (∀ c ∈ l, isSpace c = false) → l.dropWhile isSpace = l := by
    intro l hl
    cases l with
    | nil => rfl
    | cons c l => exact List.dropWhile_cons_of_neg (by simp [hl c List.mem_cons_self])
  rw [strip, hdrop cs h, hdrop cs.reverse fun c hc => h c (List.mem_reverse.1 hc), List.reverse_reverse]

theorem isSpecial_of_unreserved {c : Char} (h : unreserved c = true) : isSpecial c = false := by
  cases hs : isSpecial c with
  | false => rfl
  | true =>
    simp only [isSpecial, List.mem_cons, List.not_mem_nil, or_false, decide_eq_true_eq] at hs
    rcases hs with rfl | rfl | rfl | rfl | rfl | rfl | rfl | rfl | rfl <;> exact absurd h (by decide)

/-- The arguments of a call that leaves the length and both checks of the characters as they are by default. -/
def Args.usual (msg : String) (is_check_null : Bool) (notify_msg : String) : Args := ⟨msg, true, 0, is_check_null, notify_msg, true⟩

/-- A value that was sent is refused, or is handed on as it was sent. -/
theorem handle_quote (v : List Char) (hv : v ≠ []) (msg notify_msg : String) (is_check_null : Bool) :
    requestHandle (quote v) (.usual msg is_check_null notify_msg) =
      if v.all unreserved = true then .returns v else .responds (-1) (msg ++ " 含有特殊字符，请重新输入") := by
  have hne : quote v ≠ [] := mt quote_eq_nil.1 hv
  have hchars : ∀ c ∈ quote v, c.toNat < 128 ∧ c ≠ '\u00a0' ∧ isSpace c = false := by
    intro c hc
    rcases of_mem_quote hc with hu | rfl
    · have hrange := toNat_of_unreserved hu
      refine ⟨by omega, ?_, isSpace_of_unreserved hu⟩
      rintro rfl
      exact absurd hu (by decide)
    · decide
  have hascii : ((quote v).any fun c => 128 ≤ c.toNat) = false := by
    rw [List.any_eq_false]
    intro c hc
    have := (hchars c hc).1
    simp only [decide_eq_true_eq]
    omega
  have hfilter : (quote v).filter (· ≠ '\u00a0') = quote v := List.filter_eq_self.2 fun c hc => decide_eq_true (hchars c hc).2.1
  have hstrip : strip (quote v) = quote v := strip_eq fun c hc => (hchars c hc).2.2
  unfold requestHandle
  rw [if_neg fun h => hne h.2, if_neg hne]
  dsimp only [unquote]
  have hlenght : (Args.usual msg is_check_null notify_msg).lenght = 0 := rfl
  rw [hascii, if_neg Bool.false_ne_true, hfilter, if_pos (show (Args.usual msg is_check_null notify_msg).is_strip = true from rfl), hstrip,
    hlenght, if_neg fun h => absurd h.1 (Nat.lt_irrefl 0)]
  by_cases hu : v.all unreserved = true
  · rw [if_pos hu]
    rw [List.all_eq_true] at hu
    rw [quote_eq_self hu, if_neg]
    rintro ⟨-, hany⟩
    obtain ⟨c, hc, hs⟩ := List.any_eq_true.1 hany
    rw [isSpecial_of_unreserved (hu c hc)] at hs
    cases hs
  · have hex := hu
    rw [Bool.not_eq_true, List.all_eq_false] at hex
    obtain ⟨c, hc, hu'⟩ := hex
    rw [Bool.not_eq_true] at hu'
    have hany : (quote v).any isSpecial = true := List.any_eq_true.2 ⟨'%', percent_mem_quote hc hu', by decide⟩
    rw [if_neg hu, if_pos ⟨rfl, hany⟩]
    rfl

theorem handle_nil (a : Args) : (∃ msg, a.is_check_null = true ∧ requestHandle [] a = .responds (-1) msg) ∨
    a.is_check_null = false ∧ requestHandle [] a = .returns [] := by
  unfold requestHandle
  cases hnull : a.is_check_null with
  | true => exact .inl ⟨_, rfl, if_pos ⟨rfl, rfl⟩⟩
  | false => exact .inr ⟨rfl, by rw [if_neg (by simp), if_pos rfl]⟩

/-! ## Which values are returned -/

/-- What is expected: the stripped value of the first pair of the name, or what becomes of an empty one. -/
def expected (n : Name) (ps : Pairs) (a : Args) : Outcome :=
  match first n ps with
  | some v => .returns (strip v.chars)
  | none => requestHandle [] a

def Right (n : Name) (ps : Pairs) (a : Args) : Prop := getQuery (queryString (sent ps)) n.chars a = expected n ps a

instance (n : Name) (ps : Pairs) (a : Args) : Decidable (Right n ps a) := inferInstanceAs (Decidable (_ = _))

theorem behind_eq_none {n : Name} {ps : Pairs} : behind n ps = none ↔ first n ps = none := by
  unfold behind
  rw [Option.or_eq_none_iff]
  refine and_iff_right_of_imp fun h => ?_
  cases ps with
  | nil => exact h
  | cons p ps =>
    unfold first at h ⊢
    rw [Option.map_eq_none_iff, List.find?_eq_none] at h ⊢
    exact fun q hq => h q (List.mem_cons_of_mem p hq)

/-- For all pairs, and every name that is asked for: what is expected is returned exactly when the pair that is found needs no
encoding, is not empty where that is checked, and says what the first pair of the name does. -/
theorem query_right_iff (n : Name) (ps : Pairs) (msg notify_msg : String) (is_check_null : Bool) :
    Right n ps (.usual msg is_check_null notify_msg) ↔ ∀ v w, first n ps = some v → behind n ps = some w →
      (∀ c ∈ w.chars, unreserved c = true) ∧ (w.chars = [] → is_check_null = false) ∧ w.chars = strip v.chars := by
  unfold Right getQuery expected
  rw [get_sent]
  cases hf : first n ps with
  | none =>
    rw [behind_eq_none.2 hf]
    exact iff_of_true rfl fun v w hv => nomatch hv
  | some v =>
    cases hb : behind n ps with
    | none => exact absurd (behind_eq_none.1 hb) (by simp [hf])
    | some w =>
      show requestHandle (quote w.chars) _ = Outcome.returns (strip v.chars) ↔ _
      have hiff : (∀ v' w', some v = some v' → some w = some w' → (∀ c ∈ w'.chars, unreserved c = true) ∧
          (w'.chars = [] → is_check_null = false) ∧ w'.chars = strip v'.chars) ↔
          (∀ c ∈ w.chars, unreserved c = true) ∧ (w.chars = [] → is_check_null = false) ∧ w.chars = strip v.chars := by
        constructor
        · exact fun h => h v w rfl rfl
        · rintro h _ _ ⟨⟩ ⟨⟩
          exact h
      rw [hiff]
      by_cases hw : w.chars = []
      · -- nothing was sent
        rw [hw, quote_eq_nil.2 rfl]
        rcases handle_nil (.usual msg is_check_null notify_msg) with ⟨m, hnull, hrun⟩ | ⟨hnull, hrun⟩
        · rw [hrun]
          refine iff_of_false (fun h => (nomatch h)) fun h => ?_
          rw [show is_check_null = true from hnull] at h
          exact absurd (h.2.1 rfl) (by decide)
        · rw [hrun, Outcome.returns.injEq]
          exact ⟨fun h => ⟨fun c hc => absurd hc List.not_mem_nil, fun _ => hnull, h⟩, fun h => h.2.2⟩
      · rw [handle_quote w.chars hw, ← List.all_eq_true]
        by_cases hu : w.chars.all unreserved = true
        · rw [if_pos hu, Outcome.returns.injEq]
          exact ⟨fun h => ⟨hu, fun hnil => absurd hnil hw, h⟩, fun h => h.2.2⟩
        · rw [if_neg hu]
          exact iff_of_false (fun h => (nomatch h)) fun h => hu h.1

/-- The name `n`. -/
def oneLetter : Name := ⟨['n'], List.cons_ne_nil _ _, List.forall_mem_singleton.2 (.inl rfl)⟩

/-- A value that was encoded is refused. -/
theorem query_encoded : ¬Right oneLetter [(oneLetter, ⟨['张'], List.forall_mem_singleton.2 rfl⟩)] (.usual "" true "") := by
  decide +kernel

end FishWeb.Query
