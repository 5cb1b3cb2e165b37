import FishWeb.Room.Model
import Mathlib.Data.List.MinMax
/-!
# What a room rule is limited by

The entry of the card rules that a client chooses, the loop that looks for it, and the
limit of the base score. `RuleSound` says, of the list of a client and of what is stored,
when the common part of the two handlers comes to a rule that keeps to the limits.
-/
open Python Prog

namespace FishWeb.Room

open Common

/-! ## The chosen entry -/

/-- The text of the cost of an entry. -/
def costText (data : String) : Option String := (split ':' data)[1]?

/-- The rounds of an entry, 0 where it has none. -/
def roundsOf (data : String) : Int := ((split ':' data)[2]?.bind int).getD 0

/-- The entry that `k` names. -/
def chosen (cardRules : List String) (k : Int) : Option String := if 0 ≤ k then cardRules[k.toNat]? else none

/-- The entries up to the chosen one have a cost, and that of the chosen one is a number. -/
def EntriesRead (cardRules : List String) (k : Int) : Prop :=
  cardRules ≠ [] ∧ ∀ (i : Nat) (data : String), cardRules[i]? = some data → (0 ≤ k → (i : Int) ≤ k) →
    (costText data).isSome ∧ ((i : Int) = k → ((costText data).bind int).isSome)

/-- What the loop needs, from `index` on. -/
def Visits (k : Int) (index : Nat) (cardRules : List String) : Prop :=
  ∀ (i : Nat) (data : String), cardRules[i]? = some data → ((index : Int) ≤ k → ((index + i : Nat) : Int) ≤ k) →
    (costText data).isSome ∧ (((index + i : Nat) : Int) = k → ((costText data).bind int).isSome)

theorem visits_nil (k : Int) (index : Nat) : Visits k index [] := by
  intro i data h
  simp at h

theorem visits_cons {k : Int} {index : Nat} {data : String} {rest : List String} :
    Visits k index (data :: rest) ↔
      (costText data).isSome ∧ if (index : Int) = k then ((costText data).bind int).isSome = true else Visits k (index + 1) rest := by
  constructor
  · intro h
    have h0 := h 0 data rfl (by simp)
    refine ⟨h0.1, ?_⟩
    split
    · rename_i hk
      exact h0.2 (by simpa using hk)
    · rename_i hk
      intro i d hi hle
      have hnext := h (i + 1) d hi fun hindex => by have := hle (by omega); omega
      rwa [show index + (i + 1) = index + 1 + i by omega] at hnext
  · rintro ⟨hcost, h⟩ i d hi hle
    cases i with
    | zero =>
      obtain rfl : data = d := by simpa using hi
      refine ⟨hcost, fun hk => ?_⟩
      rw [if_pos (by simpa using hk)] at h
      exact h
    | succ i =>
      have hk : (index : Int) ≠ k := by
        rintro rfl
        have := hle le_rfl
        omega
      rw [if_neg hk] at h
      have hnext := h i d (by simpa using hi) fun hindex => by have := hle (by omega); omega
      rwa [show index + 1 + i = index + (i + 1) by omega] at hnext

/-- What the loop finds where the entries read. -/
def found (k : Int) (index : Nat) (playCount : Option Int) (cardRules : List String) : Option Int × Option Int :=
  match chosen cardRules (k - index) with
  | some data => (some (roundsOf data), (costText data).bind int)
  | none => (if cardRules = [] then playCount else some (-1), none)

theorem found_skip {k : Int} {index : Nat} {playCount : Option Int} {data : String} {rest : List String} (hk : (index : Int) ≠ k) :
    found k index playCount (data :: rest) = found k (index + 1) (some (-1)) rest := by
  have hchosen : chosen (data :: rest) (k - index) = chosen rest (k - (index + 1 : Nat)) := by
    unfold chosen
    by_cases hle : (index : Int) ≤ k
    · rw [if_pos (by omega), if_pos (by omega), show (k - index).toNat = (k - (index + 1 : Nat)).toNat + 1 by omega]
      rfl
    · rw [if_neg (by omega), if_neg (by omega)]
  unfold found
  rw [hchosen]
  split
  · rfl
  · simp

theorem findCards_found {k : Int} {cardRules : List String} {index : Nat} {playCount : Option Int} (h : Visits k index cardRules) :
    findCards k index playCount cardRules = .ok (found k index playCount cardRules) := by
  induction cardRules generalizing index playCount with
  | nil => simp [findCards, found, chosen]
  | cons data rest ih =>
    obtain ⟨hcost, hrest⟩ := visits_cons.1 h
    obtain ⟨cards, hcards⟩ := Option.isSome_iff_exists.1 hcost
    have hget : (split ':' data)[1]? = some cards := hcards
    unfold findCards
    dsimp only
    rw [hget]
    dsimp only
    split
    · rename_i hk
      rw [if_pos hk] at hrest
      obtain ⟨cost, hint⟩ := Option.isSome_iff_exists.1 hrest
      have hcost' : int cards = some cost := by simpa [hcards] using hint
      subst hk
      simp [found, chosen, hint, hcost', roundsOf]
    · rename_i hk
      rw [if_neg hk] at hrest
      rw [found_skip hk]
      exact ih hrest

theorem findCards_error {k : Int} {cardRules : List String} {index : Nat} (playCount : Option Int) (h : ¬Visits k index cardRules) :
    ∃ e, findCards k index playCount cardRules = .error e := by
  induction cardRules generalizing index playCount with
  | nil => exact absurd (visits_nil k index) h
  | cons data rest ih =>
    rw [visits_cons] at h
    unfold findCards
    dsimp only
    cases hcards : (split ':' data)[1]? with
    | none => exact ⟨_, rfl⟩
    | some cards =>
      have hcost : costText data = some cards := hcards
      dsimp only
      split
      · rename_i hk
        have hint : int cards = none := by simpa [hcost, hk] using h
        rw [hint]
        exact ⟨_, rfl⟩
      · rename_i hk
        exact ih _ (by simpa [hcost, hk] using h)

theorem entriesRead_iff {cardRules : List String} {k : Int} : EntriesRead cardRules k ↔ cardRules ≠ [] ∧ Visits k 0 cardRules := by
  simp [EntriesRead, Visits]

/-! ## The rewritten rule -/

/-- The list of a client: what comes first, what is in front, the index of an entry and the base score. -/
structure Asked where
  isOther : Value
  front : List Value
  needRoomCards : Value
  base : Value

def Asked.rule (a : Asked) : List Value := a.isOther :: (a.front ++ [a.needRoomCards, a.base])

theorem asked_of_length {rule : List Value} (h : 3 ≤ rule.length) : ∃ a : Asked, rule = a.rule := by
  obtain _ | ⟨isOther, params⟩ := rule
  · simp at h
  · rcases hrev : params.reverse with _ | ⟨base, _ | ⟨needRoomCards, front⟩⟩
    · have hlen := congrArg List.length hrev
      rw [List.length_reverse] at hlen
      simp only [List.length_cons, List.length_nil] at hlen h
      omega
    · have hlen := congrArg List.length hrev
      rw [List.length_reverse] at hlen
      simp only [List.length_cons, List.length_nil] at hlen h
      omega
    · refine ⟨⟨isOther, front.reverse, needRoomCards, base⟩, ?_⟩
      have hparams := congrArg List.reverse hrev
      simp only [List.reverse_reverse, List.reverse_cons, List.append_assoc] at hparams
      simpa [Asked.rule] using hparams

/-- The rule that is sent on for an entry. -/
def Asked.sent (a : Asked) (maxScore : Option String) (data : String) (cost : Int) : List Value :=
  a.front ++ [.int (roundsOf data), .int cost, limitBase maxScore a.base]

theorem rewriteRule_asked (maxScore : Option String) (cardRules : List String) (a : Asked) :
    rewriteRule maxScore cardRules a.rule = (do
      let k ← a.needRoomCards.toInt
      match ← findCards k 0 none cardRules with
      | (none, _) => .error .NameError
      | (some playCount, cards) =>
        if playCount < 0 then .ok none
        else .ok (some ⟨tryInt a.isOther, a.front ++ [.int playCount, .int (cards.getD k), limitBase maxScore a.base], cards.getD k⟩)) := by
  obtain ⟨isOther, front, needRoomCards, base⟩ := a
  obtain ⟨front, rfl⟩ : ∃ l : List Value, front = l.reverse := ⟨front.reverse, front.reverse_reverse.symm⟩
  have hrev : (front.reverse ++ [needRoomCards, base]).reverse = base :: needRoomCards :: front := by simp
  rewrite [Asked.rule, rewriteRule, hrev]
  rfl

/-- The list of the client is long enough, its index is a number and the entries read. -/
structure Reads (cardRules : List String) (rule : List Value) (a : Asked) (k : Int) : Prop where
  rule : rule = a.rule
  index : a.needRoomCards.toInt = .ok k
  entries : EntriesRead cardRules k

/-- An entry that `k` names: it costs `cost`, and has rounds. -/
structure Names (cardRules : List String) (k : Int) (data : String) (cost : Int) : Prop where
  chosen : chosen cardRules k = some data
  cost : (costText data).bind int = some cost
  rounds : 0 ≤ roundsOf data

theorem Asked.rule_injective : Function.Injective Asked.rule := by
  intro a a' h
  simp only [Asked.rule, List.cons.injEq] at h
  obtain ⟨hother, htail⟩ := h
  have hlen : a.front.length = a'.front.length := by
    have hlength := congrArg List.length htail
    simpa using hlength
  obtain ⟨hfront, hlast⟩ := List.append_inj htail hlen
  simp only [List.cons.injEq, and_true] at hlast
  cases a
  cases a'
  simp_all

/-- What the client asks for and the index are determined by the list. -/
theorem Reads.unique {cardRules : List String} {rule : List Value} {a a' : Asked} {k k' : Int} (h : Reads cardRules rule a k)
    (h' : Reads cardRules rule a' k') : a' = a ∧ k' = k := by
  obtain rfl : a' = a := Asked.rule_injective (h'.rule.symm.trans h.rule)
  exact ⟨rfl, Except.ok.inj (h'.index.symm.trans h.index)⟩

theorem Names.unique {cardRules : List String} {k : Int} {data data' : String} {cost cost' : Int} (h : Names cardRules k data cost)
    (h' : Names cardRules k data' cost') : data' = data ∧ cost' = cost := by
  obtain rfl : data' = data := Option.some.inj (h'.chosen.symm.trans h.chosen)
  exact ⟨rfl, Option.some.inj (h'.cost.symm.trans h.cost)⟩

theorem rewriteRule_error (maxScore : Option String) {cardRules : List String} {rule : List Value}
    (h : ∀ a k, ¬Reads cardRules rule a k) : ∃ e, rewriteRule maxScore cardRules rule = .error e := by
  by_cases hlen : 3 ≤ rule.length
  · obtain ⟨a, rfl⟩ := asked_of_length hlen
    rw [rewriteRule_asked]
    cases hk : a.needRoomCards.toInt with
    | error e => exact ⟨e, rfl⟩
    | ok k =>
      have hentries : ¬EntriesRead cardRules k := fun hentries => h a k ⟨rfl, hk, hentries⟩
      rw [entriesRead_iff, not_and_or, not_not] at hentries
      by_cases hv : Visits k 0 cardRules
      · obtain rfl := hentries.resolve_right (not_not_intro hv)
        exact ⟨_, rfl⟩
      · obtain ⟨e, he⟩ := findCards_error none hv
        refine ⟨e, ?_⟩
        show (findCards k 0 none cardRules >>= _) = _
        rw [he]
        rfl
  · obtain _ | ⟨isOther, _ | ⟨x, _ | ⟨y, rest⟩⟩⟩ := rule
    · exact ⟨_, rfl⟩
    · exact ⟨_, rfl⟩
    · exact ⟨_, rfl⟩
    · simp at hlen

theorem findCards_reads {cardRules : List String} {k : Int} (h : EntriesRead cardRules k) :
    findCards k 0 none cardRules = .ok (match chosen cardRules k with
      | some data => (some (roundsOf data), (costText data).bind int)
      | none => (some (-1), none)) := by
  obtain ⟨hne, hv⟩ := entriesRead_iff.1 h
  rw [findCards_found hv, found, if_neg hne]
  simp

/-- Without an entry that has rounds the rules were changed. -/
theorem rewriteRule_changed {maxScore : Option String} {cardRules : List String} {rule : List Value} {a : Asked} {k : Int}
    (h : Reads cardRules rule a k) (hno : ∀ data cost, ¬Names cardRules k data cost) :
    rewriteRule maxScore cardRules rule = .ok none := by
  obtain ⟨rfl, hk, hentries⟩ := h
  rw [rewriteRule_asked, hk]
  show (findCards k 0 none cardRules >>= _) = _
  rw [findCards_reads hentries]
  cases hc : chosen cardRules k with
  | none => rfl
  | some data =>
    have hnonneg : 0 ≤ k := by
      unfold chosen at hc
      split at hc
      · assumption
      · cases hc
    have hget : cardRules[k.toNat]? = some data := by rwa [chosen, if_pos hnonneg] at hc
    have hread := (hentries.2 k.toNat data hget fun _ => by omega).2 (by omega)
    obtain ⟨cost, hcost⟩ := Option.isSome_iff_exists.1 hread
    have hneg : roundsOf data < 0 := not_le.1 fun hr => hno data cost ⟨hc, hcost, hr⟩
    show (if roundsOf data < 0 then _ else _) = _
    rw [if_pos hneg]

theorem rewriteRule_names (maxScore : Option String) {cardRules : List String} {rule : List Value} {a : Asked} {k cost : Int}
    {data : String} (h : Reads cardRules rule a k) (hn : Names cardRules k data cost) :
    rewriteRule maxScore cardRules rule = .ok (some ⟨tryInt a.isOther, a.sent maxScore data cost, cost⟩) := by
  obtain ⟨rfl, hk, hentries⟩ := h
  rw [rewriteRule_asked, hk]
  show (findCards k 0 none cardRules >>= _) = _
  rw [findCards_reads hentries, hn.chosen]
  show (if roundsOf data < 0 then _ else _) = _
  rw [if_neg (not_lt.2 hn.rounds), hn.cost]
  rfl

/-! ## Base scores -/

/-- Fields that are empty, or have a positive integer. -/
def Selection (scores : Fin 20 → String) : Prop := ∀ i, scores i = "" ∨ ∃ n, int (scores i) = some n ∧ 0 < n

/-- The largest selected score; without one the limit is 1. -/
def largest (scores : Fin 20 → String) : Int := ((List.ofFn scores).filterMap int).max?.getD 1

/-- What `/member/modify` stores: the greatest text. -/
def storedMax (scores : Fin 20 → String) : String := (List.ofFn scores).max?.getD ""

/-- The score is a number, and not more than the largest one selected. -/
def Within (scores : Fin 20 → String) (base : Value) : Prop := ∃ x, base.number = some x ∧ x ≤ largest scores

/-- The handlers take the score for greater than `maxScore`. -/
def Exceeds (maxScore : String) (base : Value) : Prop :=
  if maxScore = "" then base.gtInt 1 = true else base.gtStr maxScore = true

theorem limitBase_of_exceeds {maxScore : String} {base : Value} (h : Exceeds maxScore base) :
    limitBase (some maxScore) base = if maxScore = "" then .int 1 else .str maxScore := by
  unfold Exceeds at h
  simp only [limitBase, Option.getD_some]
  split at h <;> rename_i hm <;> simp [hm, h]

theorem limitBase_of_not_exceeds {maxScore : String} {base : Value} (h : ¬Exceeds maxScore base) :
    limitBase (some maxScore) base = base := by
  unfold Exceeds at h
  simp only [limitBase, Option.getD_some]
  split at h <;> rename_i hm <;> simp [hm, h]

theorem storedMax_mem (scores : Fin 20 → String) : ∃ i, scores i = storedMax scores := by
  cases hm : (List.ofFn scores).max? with
  | none => simp at hm
  | some m =>
    obtain ⟨i, hi⟩ := (List.mem_ofFn' scores m).1 (List.max?_mem hm)
    exact ⟨i, by rw [hi, storedMax, hm]; rfl⟩

theorem le_storedMax (scores : Fin 20 → String) (i : Fin 20) : scores i ≤ storedMax scores := by
  cases hm : (List.ofFn scores).max? with
  | none => simp at hm
  | some m =>
    rw [storedMax, hm]
    exact (List.max?_le_iff hm).1 le_rfl _ ((List.mem_ofFn' scores _).2 ⟨i, rfl⟩)

theorem le_largest {scores : Fin 20 → String} {i : Fin 20} {n : Int} (h : int (scores i) = some n) : n ≤ largest scores := by
  have hmem : n ∈ (List.ofFn scores).filterMap int :=
    List.mem_filterMap.2 ⟨scores i, (List.mem_ofFn' scores _).2 ⟨i, rfl⟩, h⟩
  cases hm : ((List.ofFn scores).filterMap int).max? with
  | none =>
    rw [List.max?_eq_none_iff.1 hm] at hmem
    cases hmem
  | some m =>
    rw [largest, hm]
    exact (List.max?_le_iff hm).1 le_rfl _ hmem

/-- Nothing is selected where the stored text is empty. -/
theorem largest_of_empty {scores : Fin 20 → String} (h : storedMax scores = "") : largest scores = 1 := by
  have hnone : (List.ofFn scores).filterMap int = [] := by
    rw [List.filterMap_eq_nil_iff]
    intro text htext
    obtain ⟨i, rfl⟩ := (List.mem_ofFn' scores text).1 htext
    have hle : scores i ≤ "" := h ▸ le_storedMax scores i
    have hnot : ¬scores i < "" := by
      rw [String.lt_iff_toList_lt]
      exact List.not_lt_nil _
    have hempty : scores i = "" := le_antisymm hle (not_lt.1 hnot)
    rw [hempty]
    rfl
  rw [largest, hnone]
  rfl

/-- A score that is taken for too great is limited; any other is sent on as it is. -/
theorem within_limitBase {scores : Fin 20 → String} (hsel : Selection scores) (base : Value) :
    Within scores (limitBase (some (storedMax scores)) base) ↔ Exceeds (storedMax scores) base ∨ Within scores base := by
  by_cases hex : Exceeds (storedMax scores) base
  · rw [limitBase_of_exceeds hex]
    refine ⟨fun _ => .inl hex, fun _ => ?_⟩
    split
    · rename_i hempty
      exact ⟨1, by simp [Value.number], by simp [largest_of_empty hempty]⟩
    · rename_i hne
      obtain ⟨i, hi⟩ := storedMax_mem scores
      rcases hsel i with hempty | ⟨n, hn, -⟩
      · exact absurd (hi.symm.trans hempty) hne
      · exact ⟨n, by simp [Value.number, ← hi, hn], by exact_mod_cast le_largest hn⟩
  · rw [limitBase_of_not_exceeds hex]
    exact ⟨.inr, fun h => h.resolve_left hex⟩

/-! ## The common part of the handlers -/

/-- The servers of a game that are not full. -/
def serversOf (s : St) (gameId : Int) : Except Err (List Server) := do
  reservedServers (← countPlayerLimit (s.maxRoomCount gameId)) ((s.servers gameId).map fun serverTable => (serverTable, s.counts serverTable))

/-- The text of a rule. -/
def textOf (s : St) (gameId : Int) (rule : List Value) : Except Err String :=
  ruleText (s.cardRules gameId) ((s.gameRules gameId).map (s.gameRule gameId)) rule

section Wp
variable {α : Type} {Q : Except Err α → St → List Forward → Prop} {s : St}

/-- A frozen guild is refused; any other pays. -/
theorem comes_getPayer (hQ : ∀ e s l, ¬Q (.error e) s l) {userTable : String} {f : Except Reply Payer → Handler α}
    (hrefused : ∀ reply, reply.code ≠ 0 → Comes Q (f (.error reply)) s) :
    Comes Q (getPayer userTable >>= f) s ↔
      ∃ open_room, getUserOpenAuth (s.user userTable).open_auth (s.agent (fmt (s.user userTable).parentAg)).2 = .ok open_room ∧
        ((s.agent (fmt (s.user userTable).parentAg)).1 = some "1" →
          Comes Q (f (.ok ⟨fmt (s.user userTable).parentAg, (s.user userTable).maxScore, open_room⟩)) s) := by
  cases hopen : getUserOpenAuth (s.user userTable).open_auth (s.agent (fmt (s.user userTable).parentAg)).2 with
  | error e =>
    have hran : Ran (getPayer userTable) s (.error e) s ([] : List Forward) := by
      constructor <;> simp [getPayer, Common.send, Exec.exec, Note.note, hopen]
    rw [hran.comes_error_iff]
    simp [hQ]
  | ok open_room =>
    by_cases hvalid : (s.agent (fmt (s.user userTable).parentAg)).1 = some "1"
    · have hran : Ran (getPayer userTable) s
          (.ok (.ok ⟨fmt (s.user userTable).parentAg, (s.user userTable).maxScore, open_room⟩)) s ([] : List Forward) := by
        constructor <;> simp [getPayer, Common.send, Exec.exec, Note.note, hopen, hvalid]
      rw [hran.comes_bind_iff]
      simp [hvalid]
    · have hran : Ran (getPayer userTable) s (.ok (.error (.msg (-7) "该公会已被冻结,不能创建或加入该公会的房间"))) s
          ([] : List Forward) := by
        constructor <;> simp [getPayer, Common.send, Exec.exec, Note.note, hopen, hvalid]
      rw [hran.comes_bind_iff]
      simp only [hvalid, false_implies, and_true, Except.ok.injEq, exists_eq', iff_true]
      exact hrefused _ (by decide)

theorem ran_fitRule (gameId : Int) {userTable id : String} (payer : Payer) (rule : List Value) (hid : (split ':' userTable)[1]? = some id)
    {r : Except Err (Except Reply Fitted)}
    (h : (match rewriteRule payer.maxScore (s.cardRules gameId) rule with
      | .error e => .error e
      | .ok none => .ok (.error (.msg (-1) "房间规则已修改，请重新加载创房页面"))
      | .ok (some fitted) => match cardsOf (s.cards payer.ag id) with
        | .error e => .error e
        | .ok roomCards => .ok (if roomCards < fitted.needRoomCards then .error (.msg (-6) "钻石不足") else .ok fitted)) = r) :
    Ran (fitRule gameId userTable payer rule) s r s ([] : List Forward) := by
  subst h
  cases hrule : rewriteRule payer.maxScore (s.cardRules gameId) rule with
  | error e => constructor <;> simp [fitRule, Common.send, Exec.exec, Note.note, hid, hrule]
  | ok fitted =>
    cases fitted with
    | none => constructor <;> simp [fitRule, Common.send, Exec.exec, Note.note, hid, hrule]
    | some fitted =>
      cases hcards : cardsOf (s.cards payer.ag id) with
      | error e => constructor <;> simp [fitRule, Common.send, Exec.exec, Note.note, hid, hrule, hcards]
      | ok roomCards =>
        by_cases hlt : roomCards < fitted.needRoomCards
        · constructor <;> simp [fitRule, Common.send, Exec.exec, Note.note, hid, hrule, hcards, hlt]
        · constructor <;> simp [fitRule, Common.send, Exec.exec, Note.note, hid, hrule, hcards, hlt]

/-- What the common part comes to: a refusal, or a rule whose cost the user has. -/
theorem comes_fitRule (hQ : ∀ e s l, ¬Q (.error e) s l) {gameId : Int} {userTable : String} {payer : Payer} {rule : List Value}
    {f : Except Reply Fitted → Handler α} (hrefused : ∀ reply, reply.code ≠ 0 → Comes Q (f (.error reply)) s) :
    Comes Q (fitRule gameId userTable payer rule >>= f) s ↔
      ∃ id, (split ':' userTable)[1]? = some id ∧ ∃ a k, Reads (s.cardRules gameId) rule a k ∧
        ∀ data cost, Names (s.cardRules gameId) k data cost →
          ∃ roomCards, cardsOf (s.cards payer.ag id) = .ok roomCards ∧
            (cost ≤ roomCards → Comes Q (f (.ok ⟨tryInt a.isOther, a.sent payer.maxScore data cost, cost⟩)) s) := by
  cases hid : (split ':' userTable)[1]? with
  | none =>
    have hran : Ran (fitRule gameId userTable payer rule) s (.error .IndexError) s ([] : List Forward) := by
      constructor <;> simp [fitRule, hid]
    rw [hran.comes_error_iff]
    simp [hQ]
  | some id =>
    simp only [Option.some.injEq, exists_eq_left']
    have hran := ran_fitRule (s := s) gameId payer rule hid rfl
    by_cases hreads : ∃ a k, Reads (s.cardRules gameId) rule a k
    · obtain ⟨a, k, hr⟩ := hreads
      by_cases hnames : ∃ data cost, Names (s.cardRules gameId) k data cost
      · obtain ⟨data, cost, hn⟩ := hnames
        have hrule := rewriteRule_names payer.maxScore hr hn
        cases hcards : cardsOf (s.cards payer.ag id) with
        | error e =>
          rw [hrule, hcards] at hran
          rw [hran.comes_error_iff]
          refine ⟨fun h => absurd h (hQ _ _ _), ?_⟩
          rintro ⟨a', k', hr', h⟩
          obtain ⟨rfl, rfl⟩ := hr.unique hr'
          obtain ⟨_, hc, -⟩ := h data cost hn
          cases hc
        | ok roomCards =>
          rw [hrule, hcards] at hran
          rw [hran.comes_bind_iff]
          by_cases hlt : roomCards < cost
          · rw [if_pos hlt]
            refine ⟨fun _ => ⟨a, k, hr, fun data' cost' hn' => ⟨roomCards, rfl, fun hle => ?_⟩⟩, fun _ => hrefused _ (by decide)⟩
            obtain ⟨rfl, rfl⟩ := hn.unique hn'
            omega
          · rw [if_neg hlt]
            constructor
            · intro h
              refine ⟨a, k, hr, fun data' cost' hn' => ⟨roomCards, rfl, fun _ => ?_⟩⟩
              obtain ⟨rfl, rfl⟩ := hn.unique hn'
              exact h
            · rintro ⟨a', k', hr', h⟩
              obtain ⟨rfl, rfl⟩ := hr.unique hr'
              obtain ⟨have', hc, h⟩ := h data cost hn
              obtain rfl := Except.ok.inj hc
              exact h (not_lt.1 hlt)
      · have hno : ∀ data cost, ¬Names (s.cardRules gameId) k data cost := fun data cost hn => hnames ⟨data, cost, hn⟩
        rw [rewriteRule_changed hr hno] at hran
        rw [hran.comes_bind_iff]
        exact ⟨fun _ => ⟨a, k, hr, fun data cost hn => absurd hn (hno data cost)⟩, fun _ => hrefused _ (by decide)⟩
    · obtain ⟨e, he⟩ := rewriteRule_error payer.maxScore fun a k hr => hreads ⟨a, k, hr⟩
      rw [he] at hran
      rw [hran.comes_error_iff]
      exact ⟨fun h => absurd h (hQ _ _ _), fun ⟨a, k, hr, _⟩ => absurd ⟨a, k, hr⟩ hreads⟩

theorem comes_freeServer (hQ : ∀ e s l, ¬Q (.error e) s l) {gameId : Int} {f : Option Server → Handler α} :
    Comes Q (freeServer gameId >>= f) s ↔ ∃ l, serversOf s gameId = .ok l ∧ Comes Q (f l.head?) s := by
  have hloads : Ran (collect (s.servers gameId) fun serverTable => (do
      let counts ← Common.send (Own.hincrbyCounts serverTable)
      return (serverTable, counts) : Handler (String × Int × Int))) s
      (.ok ((s.servers gameId).map fun serverTable => (serverTable, s.counts serverTable))) s ([] : List Forward) :=
    ran_collect fun serverTable _ => ⟨rfl, rfl⟩
  have hran : Ran (freeServer gameId) s ((serversOf s gameId).map List.head?) s ([] : List Forward) := by
    unfold freeServer serversOf
    refine ran_call_bind rfl ?_
    show Ran (ofExcept (countPlayerLimit (s.maxRoomCount gameId)) >>= _) s _ s ([] : List Forward)
    cases countPlayerLimit (s.maxRoomCount gameId) with
    | error e => exact ⟨rfl, rfl⟩
    | ok limit =>
      refine ran_call_bind rfl (hloads.bind_nil ?_)
      show Ran (ofExcept (reservedServers limit _) >>= _) s ((reservedServers limit _).map List.head?) s []
      cases reservedServers limit ((s.servers gameId).map fun serverTable => (serverTable, s.counts serverTable)) with
      | error e => exact ⟨rfl, rfl⟩
      | ok l => exact ⟨rfl, rfl⟩
  cases hl : serversOf s gameId with
  | error e =>
    rw [hl] at hran
    rw [hran.comes_error_iff]
    simp [hQ]
  | ok l =>
    rw [hl] at hran
    rw [hran.comes_bind_iff]
    simp

theorem comes_getRuleText (hQ : ∀ e s l, ¬Q (.error e) s l) {rule : List Value} {gameId : Int} {f : String → Handler α} :
    Comes Q (getRuleText rule gameId >>= f) s ↔ ∃ text, textOf s gameId rule = .ok text ∧ Comes Q (f text) s := by
  have hrules : Ran (collect (s.gameRules gameId) fun ruleNum => (Common.send (Own.hmgetGameRule gameId ruleNum) : Handler GameRule)) s
      (.ok ((s.gameRules gameId).map (s.gameRule gameId))) s ([] : List Forward) :=
    ran_collect fun ruleNum _ => ⟨rfl, rfl⟩
  have hran : Ran (getRuleText rule gameId) s (textOf s gameId rule) s ([] : List Forward) := by
    unfold getRuleText textOf
    refine ran_call_bind rfl (ran_call_bind rfl (hrules.bind ?_))
    show Ran (ofExcept (ruleText (s.cardRules gameId) _ rule)) s _ s []
    cases ruleText (s.cardRules gameId) ((s.gameRules gameId).map (s.gameRule gameId)) rule with
    | error e => exact ⟨rfl, rfl⟩
    | ok text => exact ⟨rfl, rfl⟩
  cases htext : textOf s gameId rule with
  | error e =>
    rw [htext] at hran
    rw [hran.comes_error_iff]
    simp [hQ]
  | ok text =>
    rw [htext] at hran
    rw [hran.comes_bind_iff]
    simp

theorem ran_notJoin (account ag : String) :
    ∃ protocols, Ran (notJoin account ag) s (.ok ()) { s with protocols := protocols } ([] : List Forward) := by
  have hskip : Ran (.ret () : Handler Unit) s (.ok ()) { s with protocols := s.protocols } ([] : List Forward) := ⟨rfl, rfl⟩
  cases hwant : s.wantServer account with
  | none =>
    have hask : Ran (Common.send (.getWantServer account) : Handler _) s (.ok none) s ([] : List Forward) := by
      rw [← hwant]
      exact ⟨rfl, rfl⟩
    exact ⟨s.protocols, hask.bind_nil hskip⟩
  | some wanted =>
    have hask : Ran (Common.send (.getWantServer account) : Handler _) s (.ok (some wanted)) s ([] : List Forward) := by
      rw [← hwant]
      exact ⟨rfl, rfl⟩
    by_cases hparts : ∃ game serviceTag, split ',' wanted = [game, serviceTag]
    · obtain ⟨game, serviceTag, hparts⟩ := hparts
      exact ⟨_, hask.bind_nil (by dsimp only; rw [hparts]; exact ⟨rfl, rfl⟩)⟩
    · refine ⟨s.protocols, hask.bind_nil ?_⟩
      dsimp only
      split
      · rename_i game serviceTag hparts'
        exact absurd ⟨game, serviceTag, hparts'⟩ hparts
      · exact hskip

/-- A user who waits no more: nothing is changed but who waits and what the servers are told. -/
theorem ran_leaveUnlessOther (fitted : Fitted) (account ag : String) :
    ∃ waiting protocols, Ran (leaveUnlessOther fitted account ag) s (.ok ()) { s with waiting := waiting, protocols := protocols }
      ([] : List Forward) := by
  have hskip : Ran (.ret () : Handler Unit) s (.ok ()) { s with waiting := s.waiting, protocols := s.protocols } ([] : List Forward) :=
    ⟨rfl, rfl⟩
  by_cases hother : fitted.isOther.truthy = true
  · refine ⟨s.waiting, s.protocols, ?_⟩
    rw [leaveUnlessOther, if_pos hother]
    exact hskip
  rw [leaveUnlessOther, if_neg hother]
  by_cases hkey : (s.waitKey account).getD "" = ""
  · refine ⟨s.waiting, s.protocols, ran_call_bind rfl ?_⟩
    show Ran (if (s.waitKey account).getD "" = "" then _ else _ : Handler Unit) s _ _ _
    rw [if_pos hkey]
    exact hskip
  by_cases hin : account ∈ s.waiting ((s.waitKey account).getD "")
  · obtain ⟨protocols, hran⟩ := ran_notJoin (s := s) account ag
    let key := (s.waitKey account).getD ""
    refine ⟨Function.update s.waiting key ((s.waiting key).filter (· ≠ account)), protocols, ran_call_bind rfl ?_⟩
    show Ran (if (s.waitKey account).getD "" = "" then _ else _ : Handler Unit) s _ _ _
    rw [if_neg hkey]
    refine ran_call_bind rfl ?_
    show Ran (if account ∈ s.waiting ((s.waitKey account).getD "") then _ else _ : Handler Unit) s _ _ _
    rw [if_pos hin]
    exact hran.bind ⟨rfl, rfl⟩
  · refine ⟨s.waiting, s.protocols, ran_call_bind rfl ?_⟩
    show Ran (if (s.waitKey account).getD "" = "" then _ else _ : Handler Unit) s _ _ _
    rw [if_neg hkey]
    refine ran_call_bind rfl ?_
    show Ran (if account ∈ s.waiting ((s.waitKey account).getD "") then _ else _ : Handler Unit) s _ _ _
    rw [if_neg hin]
    exact hskip

end Wp

/-! ## What is granted -/

/-- The rule as it is without `hidden`. -/
def Forward.sent : Forward → List Value
  | .other _ _ rule => rule.dropLast
  | .own _ rule => rule

/-- What a rule that is sent on has to carry: the rounds and the cost of the chosen entry and a score within the limit. The
user of `userTable` has the cards. -/
def Fair (s : St) (gameId : Int) (userTable : String) (rule : List Value) (scores : Fin 20 → String) (sent : List Value) : Prop :=
  ∃ a k data cost base id roomCards, rule = Asked.rule a ∧ a.needRoomCards.toInt = .ok k ∧ Names (s.cardRules gameId) k data cost ∧
    (∃ front, sent = front ++ [.int (roundsOf data), .int cost, base]) ∧ Within scores base ∧
    (split ':' userTable)[1]? = some id ∧ cardsOf (s.cards (fmt (s.user userTable).parentAg) id) = .ok roomCards ∧ cost ≤ roomCards

/-- No exception: a refusal has an error code, and what is sent on meets `F`. -/
def Granted (F : List Value → Prop) (r : Except Err Reply) (_ : St) (l : List Forward) : Prop :=
  ∃ reply, r = .ok reply ∧ (l = [] → reply.code ≠ 0) ∧ ∀ f ∈ l, F f.sent

/-- The score that is sent on keeps to the limit. -/
def BaseOk (scores : Fin 20 → String) (base : Value) : Prop := Exceeds (storedMax scores) base ∨ Within scores base

/-- When the common part comes to no exception, and `last` holds where it comes to a rule that a server takes. -/
def RuleSound (s : St) (gameId : Int) (userTable : String) (rule : List Value) (last : Asked → Prop) : Prop :=
  ∃ id, (split ':' userTable)[1]? = some id ∧ ∃ a k, Reads (s.cardRules gameId) rule a k ∧
    ∀ data cost, Names (s.cardRules gameId) k data cost →
      ∃ roomCards, cardsOf (s.cards (fmt (s.user userTable).parentAg) id) = .ok roomCards ∧
        (cost ≤ roomCards → ∃ l, serversOf s gameId = .ok l ∧ (l ≠ [] →
          (∃ text, textOf s gameId (a.sent (s.user userTable).maxScore data cost) = .ok text) ∧ last a))

/-- What `/createRoom` asks besides: who opens a room for others may, and says whether it is hidden. -/
def lastOfHall (form : RoomForm) (open_room : Int) (scores : Fin 20 → String) (a : Asked) : Prop :=
  if (tryInt a.isOther).truthy = true then open_room ≠ 0 → (int form.hidden).isSome ∧ BaseOk scores a.base else BaseOk scores a.base

/-- The requests to `/createRoom` that are granted as they should. -/
def HallSound (s : St) (form : RoomForm) (scores : Fin 20 → String) : Prop :=
  ∃ gameId, int form.gameid = some gameId ∧ ∀ account userTable, s.shared.hall form.sid = .ok (account, userTable) →
    ∃ open_room, getUserOpenAuth (s.user userTable).open_auth (s.agent (fmt (s.user userTable).parentAg)).2 = .ok open_room ∧
      ((s.agent (fmt (s.user userTable).parentAg)).1 = some "1" → (toString gameId ∈ s.goldGames → toString gameId = "557") →
        RuleSound s gameId userTable form.rule (lastOfHall form open_room scores))

/-- The user's scores were set through `/member/modify`. -/
def SetThroughModify (s : St) (userTable : String) (scores : Fin 20 → String) : Prop :=
  ∃ sid modify_type memberId cur_page s₀ msg jumpUrl, userTable = userTableOf memberId ∧
    (run (doModifyMember sid modify_type ⟨memberId, scores, cur_page⟩) s₀).1 = .ok (.modified msg jumpUrl) ∧
    (s.user userTable).maxScore = (St.user (run (doModifyMember sid modify_type ⟨memberId, scores, cur_page⟩) s₀).2 userTable).maxScore

theorem SetThroughModify.maxScore {s : St} {userTable : String} {scores : Fin 20 → String} (h : SetThroughModify s userTable scores) :
    (s.user userTable).maxScore = some (storedMax scores) := by
  obtain ⟨sid, modify_type, memberId, cur_page, s₀, msg, jumpUrl, rfl, hreply, hscore⟩ := h
  rw [hscore]
  unfold doModifyMember at hreply ⊢
  by_cases hadmin : (s₀.admin sid).getD "" = ""
  · simp [Common.send, Exec.exec, hadmin] at hreply
  by_cases hmember : memberId = ""
  · simp [Common.send, Exec.exec, hadmin, hmember, Reply.msg] at hreply
  simp [Common.send, Exec.exec, hadmin, hmember, storedMax]

theorem fair_sent_iff {s : St} {gameId k cost roomCards : Int} {userTable id data : String} {rule : List Value}
    {scores : Fin 20 → String} {a : Asked} (hsel : Selection scores) (hmax : (s.user userTable).maxScore = some (storedMax scores))
    (hr : Reads (s.cardRules gameId) rule a k) (hn : Names (s.cardRules gameId) k data cost)
    (hid : (split ':' userTable)[1]? = some id) (hcards : cardsOf (s.cards (fmt (s.user userTable).parentAg) id) = .ok roomCards)
    (hle : cost ≤ roomCards) :
    Fair s gameId userTable rule scores (a.sent (s.user userTable).maxScore data cost) ↔ BaseOk scores a.base := by
  unfold BaseOk
  rw [← within_limitBase hsel, hmax]
  constructor
  · rintro ⟨a', k', data', cost', base, id', roomCards', -, -, -, ⟨front, hsent⟩, hwithin, -, -, -⟩
    have hlast := congrArg List.getLast? hsent
    have hbase : limitBase (some (storedMax scores)) a.base = base := by simpa [Asked.sent] using hlast
    rwa [hbase]
  · intro hwithin
    exact ⟨a, k, data, cost, _, id, roomCards, hr.rule, hr.index, hn, ⟨a.front, rfl⟩, hwithin, hid, hcards, hle⟩

section Hall
variable {s : St} {scores : Fin 20 → String}

theorem granted_error {F : List Value → Prop} (e : Err) (s : St) (l : List Forward) : ¬Granted F (.error e) s l := by
  rintro ⟨reply, h, -⟩
  cases h

theorem granted_refused {F : List Value → Prop} (reply : Reply) (h : reply.code ≠ 0) : Comes (Granted F) (.ret reply : Handler Reply) s :=
  ⟨reply, rfl, fun _ => h, fun _ hf => absurd hf List.not_mem_nil⟩

theorem comes_sendRoom {F : List Value → Prop} {form : RoomForm} {gameId : Int} {account : String} {payer : Payer} {fitted : Fitted}
    {server : Server} :
    Comes (Granted F) (sendRoom form gameId account payer fitted server) s ↔
      (∃ text, textOf s gameId fitted.rule = .ok text) ∧
        if fitted.isOther.truthy = true then payer.open_room ≠ 0 → (int form.hidden).isSome ∧ F fitted.rule else F fitted.rule := by
  unfold sendRoom
  rw [comes_getRuleText granted_error]
  constructor
  · rintro ⟨text, htext, h⟩
    refine ⟨⟨text, htext⟩, ?_⟩
    split
    · rename_i hother
      intro hopen
      rw [if_pos hother, if_neg hopen] at h
      cases hhidden : int form.hidden with
      | none =>
        simp only [Value.toInt, hhidden, ofExcept_error] at h
        exact absurd h (granted_error _ _ _)
      | some n =>
        simp only [Value.toInt, hhidden, ofExcept_ok] at h
        obtain ⟨reply, -, -, hl⟩ := h
        have hsent := hl (.other account payer.ag (fitted.rule ++ [.int n])) List.mem_cons_self
        exact ⟨rfl, by simpa [Forward.sent] using hsent⟩
    · rename_i hother
      rw [if_neg hother] at h
      obtain ⟨reply, -, -, hl⟩ := h
      exact hl (.own form.sid fitted.rule) List.mem_cons_self
  · rintro ⟨⟨text, htext⟩, h⟩
    refine ⟨text, htext, ?_⟩
    by_cases hother : fitted.isOther.truthy = true
    · rw [if_pos hother] at h ⊢
      by_cases hopen : payer.open_room = 0
      · rw [if_pos hopen]
        exact granted_refused _ (by decide)
      · rw [if_neg hopen]
        obtain ⟨hhidden, hF⟩ := h hopen
        obtain ⟨n, hn⟩ := Option.isSome_iff_exists.1 hhidden
        simp only [Value.toInt, hn, ofExcept_ok]
        refine ⟨.opened "房间开启成功" "" "", rfl, fun hl => (by cases hl), ?_⟩
        rintro f (_ | ⟨_, hf⟩)
        · simpa [Forward.sent] using hF
        · cases hf
    · rw [if_neg hother] at h ⊢
      refine ⟨.opened "" ((split ':' form.netloc).headD "") server.port, rfl, fun hl => (by cases hl), ?_⟩
      rintro f (_ | ⟨_, hf⟩)
      · exact h
      · cases hf

theorem hall_error_code {shared : Shared} {sid : String} {e : Refusal} (h : shared.hall sid = .error e) : e.code ≠ 0 := by
  unfold Shared.hall at h
  dsimp only at h
  split at h
  · obtain rfl := Except.error.inj h
    exact (by decide : (-4 : Int) ≠ 0)
  split at h
  · obtain rfl := Except.error.inj h
    exact (by decide : (-3 : Int) ≠ 0)
  split at h
  · obtain rfl := Except.error.inj h
    exact (by decide : (-5 : Int) ≠ 0)
  · cases h

/-- The common part, where `next` comes to what `last` says once a server is free. -/
theorem comes_rule {F : List Value → Prop} {gameId : Int} {userTable : String} {open_room : Int} {rule : List Value}
    {last : Asked → Prop} {f : Except Reply Fitted → Handler Reply} (hrefused : ∀ reply, f (.error reply) = .ret reply)
    (hnext : ∀ a k data cost id roomCards, Reads (s.cardRules gameId) rule a k → Names (s.cardRules gameId) k data cost →
      (split ':' userTable)[1]? = some id → cardsOf (s.cards (fmt (s.user userTable).parentAg) id) = .ok roomCards → cost ≤ roomCards →
      (Comes (Granted F) (f (.ok ⟨tryInt a.isOther, a.sent (s.user userTable).maxScore data cost, cost⟩)) s ↔
        ∃ l, serversOf s gameId = .ok l ∧ (l ≠ [] →
          (∃ text, textOf s gameId (a.sent (s.user userTable).maxScore data cost) = .ok text) ∧ last a))) :
    Comes (Granted F)
        (fitRule gameId userTable ⟨fmt (s.user userTable).parentAg, (s.user userTable).maxScore, open_room⟩ rule >>= f) s ↔
      RuleSound s gameId userTable rule last := by
  rw [comes_fitRule granted_error fun reply h => by rw [hrefused]; exact granted_refused _ h]
  refine exists_congr fun id => and_congr_right fun hid => exists_congr fun a => exists_congr fun k => and_congr_right fun hr => ?_
  refine forall_congr' fun data => forall_congr' fun cost => imp_congr_right fun hn => exists_congr fun roomCards => ?_
  exact and_congr_right fun hcards => imp_congr_right fun hle => hnext a k data cost id roomCards hr hn hid hcards hle

/-- `/createRoom` grants what it should for the requests of `HallSound`, and for no others. -/
theorem comes_doCreateRoom (hsel : Selection scores) {form : RoomForm}
    (hset : ∀ account userTable, s.shared.hall form.sid = .ok (account, userTable) → SetThroughModify s userTable scores) :
    Comes (Granted fun sent => ∀ gameId account userTable, int form.gameid = some gameId →
        s.shared.hall form.sid = .ok (account, userTable) → Fair s gameId userTable form.rule scores sent) (doCreateRoom form) s ↔
      HallSound s form scores := by
  unfold doCreateRoom HallSound
  rw [comes_orRaise_iff granted_error]
  refine exists_congr fun gameId => and_congr_right fun hgame => ?_
  rw [(ran_hallUser form.sid s).comes_bind_iff]
  cases huser : s.shared.hall form.sid with
  | error e => exact ⟨fun _ account userTable h => (by cases h), fun _ => granted_refused (.refused e) (hall_error_code huser)⟩
  | ok who =>
  obtain ⟨account, userTable⟩ := who
  have hmax := (hset account userTable huser).maxScore
  have hF : (fun sent => ∀ gameId' account' userTable', int form.gameid = some gameId' →
      (Except.ok (account, userTable) : Except Refusal (Option String × String)) = .ok (account', userTable') →
        Fair s gameId' userTable' form.rule scores sent) = Fair s gameId userTable form.rule scores := by
    funext sent
    apply propext
    constructor
    · intro h
      exact h gameId account userTable hgame rfl
    · rintro h gameId' account' userTable' hgame' heq
      obtain rfl := Option.some.inj (hgame.symm.trans hgame')
      obtain ⟨-, rfl⟩ := Prod.mk.inj (Except.ok.inj heq)
      exact h
  rw [hF]
  have hwho : ∀ {P : String → Prop}, (∀ account' userTable',
      (Except.ok (account, userTable) : Except Refusal (Option String × String)) = .ok (account', userTable') → P userTable') ↔ P userTable := by
    intro P
    constructor
    · intro h
      exact h account userTable rfl
    · rintro h account' userTable' heq
      obtain ⟨-, rfl⟩ := Prod.mk.inj (Except.ok.inj heq)
      exact h
  rw [hwho]
  dsimp only
  rw [comes_getPayer granted_error fun reply h => granted_refused reply h]
  refine exists_congr fun open_room => and_congr_right fun _ => imp_congr_right fun _ => ?_
  show Comes _ (if toString gameId ∈ s.goldGames ∧ toString gameId ≠ "557" then _ else _ : Handler Reply) s ↔ _
  by_cases hgold : toString gameId ∈ s.goldGames ∧ toString gameId ≠ "557"
  · rw [if_pos hgold]
    exact ⟨fun _ h => absurd (h hgold.1) hgold.2, fun _ => granted_refused _ (by decide)⟩
  have hallowed : toString gameId ∈ s.goldGames → toString gameId = "557" := fun h => by_contra fun hne => hgold ⟨h, hne⟩
  rw [if_neg hgold, imp_iff_right hallowed]
  refine comes_rule (fun _ => rfl) fun a k data cost id roomCards hr hn hid hcards hle => ?_
  dsimp only
  obtain ⟨waiting, protocols, hleave⟩ := ran_leaveUnlessOther (s := s)
    ⟨tryInt a.isOther, a.sent (s.user userTable).maxScore data cost, cost⟩ (fmt account) (fmt (s.user userTable).parentAg)
  rw [hleave.comes_bind_iff, comes_freeServer granted_error]
  -- the servers and the texts are those of before
  refine exists_congr fun l => and_congr_right fun _ => ?_
  cases l with
  | nil => exact ⟨fun _ h => absurd rfl h, fun _ => granted_refused _ (by decide)⟩
  | cons server l =>
    rw [imp_iff_right (List.cons_ne_nil server l)]
    show Comes _ (sendRoom form gameId _ _ _ server) _ ↔ _
    rw [comes_sendRoom, fair_sent_iff hsel hmax hr hn hid hcards hle]
    exact Iff.rfl

end Hall

end FishWeb.Room
