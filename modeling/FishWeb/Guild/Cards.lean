import FishWeb.Guild.Handlers
import FishWeb.Lib.Runs
/-!
# What a user owns with a company

The cards of a user are copied between the record of his guild, of the guild he left
last and of the company. What he owns with a company (`owned`) is what his first check
there gave him and what has been added since. The record that is in force is kept at
that (`Books`), as long as a join is checked before the cards change, and checked again
only while they have not.
-/
open Python Prog Counters Runs
open Function (update update_self update_of_ne)

namespace FishWeb.Guild

open Common

/-! ## Guilds and companies -/

section Tree
variable (agent : String → Option Agent) (fuel : Nat)

/-- The guild `g` is below the company `c`. -/
structure IsGuild (g c : String) : Prop where
  isSome : (agent g).isSome
  below : (agentIn agent g).type ≠ some "0" ∧ (agentIn agent g).type ≠ some "1"
  top : topOf agent fuel (some g) = some (some c)
  company : (agentIn agent c).type = some "1"

/-- Nobody is no agent, and the loop has a turn. -/
structure Ids : Prop where
  empty : agent "" = none
  none : agent "None" = none
  fuel : 0 < fuel

/-- The key of a company with whom the cards of a guild are kept. -/
def companyOf (g : String) : String := fmt ((topOf agent fuel (some g)).getD none)

variable {agent fuel} {g g' c c' : String}

theorem IsGuild.companyOf (h : IsGuild agent fuel g c) : companyOf agent fuel g = c := by
  rw [Guild.companyOf, h.top]
  rfl

theorem IsGuild.unique (h : IsGuild agent fuel g c) (h' : IsGuild agent fuel g c') : c' = c := by
  rw [← h.companyOf, ← h'.companyOf]

theorem IsGuild.ne_company (h : IsGuild agent fuel g c) (hc : (agentIn agent c').type = some "1") : g ≠ c' := by
  rintro rfl
  exact h.below.2 hc

section Ids
variable (hids : Ids agent fuel)
include hids

theorem IsGuild.ne_empty (h : IsGuild agent fuel g c) : g ≠ "" := by
  rintro rfl
  have hex := h.isSome
  rw [hids.empty] at hex
  cases hex

theorem IsGuild.ne_none (h : IsGuild agent fuel g c) : g ≠ "None" := by
  rintro rfl
  have hex := h.isSome
  rw [hids.none] at hex
  cases hex

theorem company_ne (hc : (agentIn agent c).type = some "1") : c ≠ "" ∧ c ≠ "None" := by
  constructor
  · rintro rfl
    rw [agentIn, hids.empty] at hc
    cases hc
  · rintro rfl
    rw [agentIn, hids.none] at hc
    cases hc

theorem topOf_empty : topOf agent fuel (some "") = some none := by
  obtain ⟨fuel, rfl⟩ := Nat.exists_eq_succ_of_ne_zero (Nat.ne_of_gt hids.fuel)
  have hempty : agentIn agent "" = ⟨none, none, none, none, none⟩ := by rw [agentIn, hids.empty]; rfl
  have hnone : agentIn agent "None" = ⟨none, none, none, none, none⟩ := by rw [agentIn, hids.none]; rfl
  have hnone' : agentIn agent (fmt none) = ⟨none, none, none, none, none⟩ := hnone
  rw [topOf, fmt_some, climbTo, fmt_some]
  simp [hempty, hnone']

theorem companyOf_empty : companyOf agent fuel "" = "None" := by
  rw [Guild.companyOf, topOf_empty hids]
  rfl

end Ids

end Tree

/-! ## What a user owns -/

/-- What is stored of a user: his guild, the guild he left last, and his cards. -/
structure Row where
  ag : String
  last : Option String
  card : String → Option Int

/-- The row of a user, whether he has joined since his last check, and what he owns with each company. -/
structure Purse where
  row : Row
  joined : Bool
  owned : String → Option Int

section Books
variable (agent : String → Option Agent) (fuel : Nat)

/-- What a check would write is the record of the guild itself: the user has left this guild last, or another company,
and nothing is kept with this one. -/
def OwnRecord (r : Row) : Prop :=
  ∃ g, r.last = some g ∧ (g = r.ag ∨ companyOf agent fuel g ≠ companyOf agent fuel r.ag ∧ r.card (companyOf agent fuel r.ag) = none)

/-- The record of the guild is what the user owns with its company. -/
def InForce (p : Purse) : Prop := p.joined = false ∨ OwnRecord agent fuel p.row

/-- What is kept with a company in whose guilds no record is in force. -/
structure Away (p : Purse) (c : String) : Prop where
  company : (p.row.card c).getD 0 = (p.owned c).getD 0
  blank : p.row.card c = none → ∀ g, IsGuild agent fuel g c → p.row.card g = none
  last : ∀ g, p.row.last = some g → IsGuild agent fuel g c → (p.row.card g).getD 0 = (p.owned c).getD 0

structure Books (p : Purse) : Prop where
  place : (p.row.ag = "" ∧ p.joined = false) ∨ ∃ c, IsGuild agent fuel p.row.ag c
  left : ∀ g, p.row.last = some g → ∃ c, IsGuild agent fuel g c
  outside : p.row.card "None" = none ∧ (p.row.card "").getD 0 = 0 ∧ (p.owned "None").getD 0 = 0
  away : ∀ c, (agentIn agent c).type = some "1" → (c = companyOf agent fuel p.row.ag → ¬InForce agent fuel p) →
    Away agent fuel p c
  here : ∀ c, IsGuild agent fuel p.row.ag c → InForce agent fuel p → (p.row.card p.row.ag).getD 0 = (p.owned c).getD 0
  settled : ∀ c, IsGuild agent fuel p.row.ag c → p.joined = false → p.owned c ≠ none
  new : p.row.last = none → (p.joined = true ∨ p.row.ag = "") → ∀ c, (agentIn agent c).type = some "1" → p.owned c = none

def Purse.leave (p : Purse) : Purse :=
  { p with
    row := if (agent p.row.ag).isSome then
        ⟨"", some p.row.ag, update p.row.card (companyOf agent fuel p.row.ag) (some ((p.row.card p.row.ag).getD 0))⟩
      else p.row
    joined := false }

def Purse.enter (p : Purse) (g : String) : Purse := { p with row := { p.row with ag := g }, joined := true }

def Purse.change (p : Purse) (n : Int) : Purse :=
  let c := companyOf agent fuel p.row.ag
  { p with
    row := { p.row with card := update p.row.card p.row.ag (some ((p.row.card p.row.ag).getD 0 + n)) }
    owned := update p.owned c (some ((p.owned c).getD 0 + n)) }

def Purse.check (p : Purse) (n : Int) : Purse :=
  let c := companyOf agent fuel p.row.ag
  { row := { p.row with card := update p.row.card p.row.ag (some n) }
    joined := false
    owned := update p.owned c (some ((p.owned c).getD n)) }

variable {agent fuel} (hids : Ids agent fuel) {p : Purse} {g c : String}
include hids

theorem Books.leave (h : Books agent fuel p) (hf : InForce agent fuel p) : Books agent fuel (p.leave agent fuel) := by
  rcases h.place with ⟨hag, hjoined⟩ | ⟨c, hg⟩
  · have hsame : p.leave agent fuel = p := by
      unfold Purse.leave
      rw [hag, hids.empty, ← hjoined]
      rfl
    rw [hsame]
    exact h
  · have hc := company_ne hids hg.company
    unfold Purse.leave
    rw [if_pos hg.isSome, hg.companyOf]
    refine ⟨.inl ⟨rfl, rfl⟩, ?_, ?_, ?_, ?_, ?_, ?_⟩
    · intro g' hg'
      obtain rfl := Option.some.inj hg'
      exact ⟨c, hg⟩
    · dsimp only
      rw [update_of_ne hc.2.symm, update_of_ne hc.1.symm]
      exact h.outside
    · intro c' hc' _
      by_cases hcc : c' = c
      · subst hcc
        refine ⟨?_, fun hnone => ?_, fun g' hg' _ => ?_⟩
        · dsimp only
          rw [update_self]
          exact h.here c' hg hf
        · dsimp only at hnone
          rw [update_self] at hnone
          cases hnone
        · obtain rfl := Option.some.inj hg'
          dsimp only
          rw [update_of_ne (hg.ne_company hc')]
          exact h.here c' hg hf
      · have haway := h.away c' hc' fun he => absurd (he.trans hg.companyOf) hcc
        refine ⟨?_, fun hnone g' hg' => ?_, fun g' hl hg' => ?_⟩
        · dsimp only
          rw [update_of_ne hcc]
          exact haway.company
        · dsimp only at hnone ⊢
          rw [update_of_ne hcc] at hnone
          rw [update_of_ne (hg'.ne_company hg.company)]
          exact haway.blank hnone g' hg'
        · obtain rfl := Option.some.inj hl
          exact absurd (hg.unique hg') hcc
    · exact fun c' hg' => absurd rfl (hg'.ne_empty hids)
    · exact fun c' hg' => absurd rfl (hg'.ne_empty hids)
    · exact fun hl => by cases hl

theorem Books.enter (h : Books agent fuel p) (hag : p.row.ag = "") (hg : IsGuild agent fuel g c) :
    Books agent fuel (p.enter g) := by
  have haway : ∀ c', (agentIn agent c').type = some "1" → Away agent fuel p c' := by
    intro c' hc'
    refine h.away c' hc' fun he => ?_
    rw [hag, companyOf_empty hids] at he
    exact absurd he (company_ne hids hc').2
  refine ⟨.inr ⟨c, hg⟩, h.left, h.outside, ?_, ?_, ?_, ?_⟩
  · intro c' hc' _
    exact ⟨(haway c' hc').company, (haway c' hc').blank, (haway c' hc').last⟩
  · rintro c' hg' (hj | ⟨g', hlast, hown⟩)
    · cases hj
    · have hac := haway c' hg'.company
      rcases hown with rfl | ⟨-, hnone⟩
      · exact hac.last _ hlast hg'
      · have hnone : p.row.card c' = none := by rw [← hg'.companyOf]; exact hnone
        have hzero := hac.company
        rw [hnone] at hzero
        show (p.row.card g).getD 0 = _
        rw [hac.blank hnone g hg']
        exact hzero
  · exact fun c' _ hj => by cases hj
  · exact fun hl _ => h.new hl (.inr hag)

omit hids in
theorem inForce_change (hg : IsGuild agent fuel p.row.ag c) (n : Int) (hf : InForce agent fuel p) :
    InForce agent fuel (p.change agent fuel n) := by
  refine hf.imp id ?_
  rintro ⟨g, hlast, rfl | ⟨hne, hnone⟩⟩
  · exact ⟨_, hlast, .inl rfl⟩
  · refine ⟨g, hlast, .inr ⟨hne, ?_⟩⟩
    show update p.row.card p.row.ag _ (companyOf agent fuel p.row.ag) = none
    rw [hg.companyOf] at hnone ⊢
    rw [update_of_ne (hg.ne_company hg.company).symm]
    exact hnone

omit hids in
/-- With the other companies nothing changes when the record of a guild does. -/
theorem Away.write {p' : Purse} {c' : String} (hg : IsGuild agent fuel p.row.ag c) (hne : c' ≠ c)
    (hc' : (agentIn agent c').type = some "1") (h : Away agent fuel p c') {x : Option Int}
    (hcard : p'.row.card = update p.row.card p.row.ag x) (hlast : p'.row.last = p.row.last) (howned : p'.owned c' = p.owned c') :
    Away agent fuel p' c' := by
  have hguild : ∀ g, IsGuild agent fuel g c' → p'.row.card g = p.row.card g := by
    intro g hg'
    have hga : g ≠ p.row.ag := by
      rintro rfl
      exact hne (hg.unique hg')
    rw [hcard, update_of_ne hga]
  have hcompany : p'.row.card c' = p.row.card c' := by rw [hcard, update_of_ne (hg.ne_company hc').symm]
  refine ⟨?_, fun hnone g hg' => ?_, fun g hl hg' => ?_⟩
  · rw [hcompany, howned]
    exact h.company
  · rw [hguild g hg']
    exact h.blank (hcompany ▸ hnone) g hg'
  · rw [hguild g hg', howned]
    exact h.last g (hlast ▸ hl) hg'

theorem Books.change (h : Books agent fuel p) (hg : IsGuild agent fuel p.row.ag c) (hf : InForce agent fuel p) (n : Int) :
    Books agent fuel (p.change agent fuel n) := by
  have hc := company_ne hids hg.company
  have hforce := inForce_change hg n hf
  refine ⟨h.place, h.left, ?_, ?_, ?_, ?_, ?_⟩
  · unfold Purse.change
    dsimp only
    rw [hg.companyOf, update_of_ne (hg.ne_none hids).symm, update_of_ne (hg.ne_empty hids).symm, update_of_ne hc.2.symm]
    exact h.outside
  · intro c' hc' hout
    have hne : c' ≠ c := fun he => hout (he.trans hg.companyOf.symm) hforce
    refine (h.away c' hc' fun he => absurd (he.trans hg.companyOf) hne).write hg hne hc' rfl rfl ?_
    unfold Purse.change
    rw [hg.companyOf]
    exact update_of_ne hne ..
  · intro c' hg' _
    obtain rfl := hg.unique hg'
    unfold Purse.change
    dsimp only
    rw [hg.companyOf, update_self, update_self, Option.getD_some, Option.getD_some, h.here c' hg hf]
  · intro c' hg' _
    obtain rfl := hg.unique hg'
    unfold Purse.change
    dsimp only
    rw [hg.companyOf, update_self]
    exact Option.some_ne_none _
  · intro hl hj
    rcases hj with hj | hag
    · rcases hf with hf | ⟨g', hlast, -⟩
      · exact absurd hf (by rw [show p.joined = true from hj]; decide)
      · exact absurd (hl.symm.trans hlast) (fun h => by cases h)
    · exact absurd hag (hg.ne_empty hids)

/-- What a check writes. -/
def worthOf (agent : String → Option Agent) (fuel : Nat) (r : Row) : Amount :=
  worth agent r.card (some r.ag) r.last ((topOf agent fuel r.last).getD none) ((topOf agent fuel (some r.ag)).getD none)

/-- Outside every guild a check writes no cards. -/
theorem worthOf_out (h : Books agent fuel p) (hag : p.row.ag = "") : worthOf agent fuel p.row = .number 0 := by
  obtain ⟨hnone, hempty, -⟩ := h.outside
  unfold worthOf worth
  rw [hag, topOf_empty hids, Option.getD_some]
  cases hl : p.row.last with
  | none =>
    simp [hnone, defaultOf, agentIn, hids.none, fmt]
  | some g =>
    obtain ⟨c, hg⟩ := h.left g hl
    rw [Option.getD_some, if_neg (hg.ne_empty hids), hg.top, Option.getD_some, if_neg fun h => by cases h]
    simp only [fmt, Option.getD_none, hnone]
    exact congrArg Amount.number hempty

omit hids in
/-- In his first guild a user gets the cards of the company. -/
theorem worthOf_first (hg : IsGuild agent fuel p.row.ag c) (hl : p.row.last = none) :
    worthOf agent fuel p.row = match p.row.card c with | some n => .number n | none => defaultOf agent (some c) := by
  unfold worthOf worth
  rw [hg.top, hl, Option.getD_some, Option.getD_none, if_pos rfl]
  rfl

/-- In another guild of the company that he has left last a user gets the cards of his last guild. -/
theorem worthOf_same (hg : IsGuild agent fuel p.row.ag c) (hl : p.row.last = some g) (hlast : IsGuild agent fuel g c) :
    worthOf agent fuel p.row = orZero (p.row.card g) := by
  unfold worthOf worth
  rw [hg.top, hl, Option.getD_some, Option.getD_some, if_neg (hlast.ne_empty hids), hlast.top, Option.getD_some, if_pos rfl]
  rfl

/-- In a guild of another company a user gets the cards kept with that company, or in the guild. -/
theorem worthOf_other {c' : String} (hg : IsGuild agent fuel p.row.ag c) (hl : p.row.last = some g)
    (hlast : IsGuild agent fuel g c') (hne : c' ≠ c) :
    worthOf agent fuel p.row = match p.row.card c with | some n => .number n | none => orZero (p.row.card p.row.ag) := by
  unfold worthOf worth
  rw [hg.top, hl, Option.getD_some, Option.getD_some, if_neg (hlast.ne_empty hids), hlast.top, Option.getD_some,
    if_neg fun h => hne (Option.some.inj h)]
  rfl

omit hids in
theorem toInt_orZero {card : Option Int} {n : Int} (h : (orZero card).toInt = .ret n) : n = card.getD 0 := by
  injection h with h
  exact h.symm

/-- Where the cards of a company are an integer a check has an amount to write. -/
theorem Books.exists_worth (h : Books agent fuel p) (hdefault : p.row.last = none →
    p.row.card (companyOf agent fuel p.row.ag) = none → ∃ n, (defaultOf agent (some (companyOf agent fuel p.row.ag))).toInt = .ret n) :
    ∃ n, (worthOf agent fuel p.row).toInt = .ret n := by
  rcases h.place with ⟨hag, -⟩ | ⟨c, hg⟩
  · exact ⟨0, congrArg Amount.toInt (worthOf_out hids h hag)⟩
  rw [hg.companyOf] at hdefault
  cases hl : p.row.last with
  | none =>
    rw [worthOf_first hg hl]
    cases hcard : p.row.card c with
    | none => exact hdefault hl hcard
    | some k => exact ⟨k, rfl⟩
  | some g =>
    obtain ⟨c', hlast⟩ := h.left g hl
    by_cases hc : c' = c
    · subst hc
      rw [worthOf_same hids hg hl hlast]
      exact ⟨_, rfl⟩
    · rw [worthOf_other hids hg hl hlast hc]
      cases p.row.card c with
      | none => exact ⟨_, rfl⟩
      | some k => exact ⟨k, rfl⟩

/-- With the record of the guild itself a check writes nothing new. -/
theorem worth_ownRecord (h : Books agent fuel p) {n : Int} (hn : (worthOf agent fuel p.row).toInt = .ret n)
    (hrec : OwnRecord agent fuel p.row) : n = (p.row.card p.row.ag).getD 0 := by
  rcases h.place with ⟨hag, -⟩ | ⟨c, hg⟩
  · rw [worthOf_out hids h hag] at hn
    injection hn with hn
    rw [hag, h.outside.2.1]
    exact hn.symm
  obtain ⟨g, hl, rfl | ⟨hne, hnone⟩⟩ := hrec
  · rw [worthOf_same hids hg hl hg] at hn
    exact toInt_orZero hn
  · obtain ⟨c', hlast⟩ := h.left g hl
    rw [hg.companyOf] at hne hnone
    rw [hlast.companyOf] at hne
    rw [worthOf_other hids hg hl hlast hne, hnone] at hn
    exact toInt_orZero hn

/-- A check writes what the user owns with the company, if he has joined since the last, or the record is in force, or it
writes what is written. -/
theorem worth_owned (h : Books agent fuel p) {n : Int} (hn : (worthOf agent fuel p.row).toInt = .ret n)
    (hown : p.joined = false → OwnRecord agent fuel p.row ∨ p.row.card p.row.ag = some n) {m : Int}
    (hm : p.owned (companyOf agent fuel p.row.ag) = some m) : n = m := by
  rcases h.place with ⟨hag, -⟩ | ⟨c, hg⟩
  · have hzero := h.outside.2.2
    rw [hag, companyOf_empty hids] at hm
    rw [hm] at hzero
    rw [worthOf_out hids h hag] at hn
    injection hn with hn
    exact hn.symm.trans hzero.symm
  rw [hg.companyOf] at hm
  suffices hvalue : n = (p.owned c).getD 0 by rw [hvalue, hm]; rfl
  by_cases hrec : OwnRecord agent fuel p.row
  · -- the record of the guild itself is written
    rw [← h.here c hg (.inr hrec)]
    exact worth_ownRecord hids h hn hrec
  cases hj : p.joined with
  | false =>
    rcases hown hj with hrec' | hcard
    · exact absurd hrec' hrec
    · rw [← h.here c hg (.inl hj), hcard]
      rfl
  | true =>
    -- he has joined, and what is kept is with the last guild or with the company
    have haway := h.away c hg.company fun _ hf => hf.elim (fun hf => by rw [hj] at hf; cases hf) hrec
    cases hl : p.row.last with
    | none => rw [h.new hl (.inl hj) c hg.company] at hm; cases hm
    | some g =>
      obtain ⟨c', hlast⟩ := h.left g hl
      by_cases hc : c' = c
      · subst hc
        rw [worthOf_same hids hg hl hlast] at hn
        exact (toInt_orZero hn).trans (haway.last g hl hlast)
      · rw [worthOf_other hids hg hl hlast hc] at hn
        cases hcard : p.row.card c with
        | some k =>
          rw [hcard] at hn
          injection hn with hn
          rw [← haway.company, hcard]
          exact hn.symm
        | none =>
          refine absurd ⟨g, hl, .inr ⟨?_, ?_⟩⟩ hrec
          · rwa [hg.companyOf, hlast.companyOf]
          · rwa [hg.companyOf]

theorem Books.check (h : Books agent fuel p) {n : Int} (hn : (worthOf agent fuel p.row).toInt = .ret n)
    (hown : p.joined = false → OwnRecord agent fuel p.row ∨ p.row.card p.row.ag = some n) :
    Books agent fuel (p.check agent fuel n) := by
  have hsame : ∀ m, p.owned (companyOf agent fuel p.row.ag) = some m → n = m := fun m => worth_owned hids h hn hown
  have hvalue : (p.owned (companyOf agent fuel p.row.ag)).getD n = n := by
    cases ho : p.owned (companyOf agent fuel p.row.ag) with
    | none => rfl
    | some m => exact (hsame m ho).symm
  rcases h.place with ⟨hag, hjoined⟩ | ⟨c, hg⟩
  · -- outside every guild
    have hzero : n = 0 := by
      rw [worthOf_out hids h hag] at hn
      injection hn with hn
      exact hn.symm
    refine ⟨.inl ⟨hag, rfl⟩, h.left, ?_, ?_, ?_, ?_, ?_⟩
    · unfold Purse.check
      dsimp only
      rw [hvalue, hag, companyOf_empty hids, update_self, update_self, update_of_ne (by decide)]
      exact ⟨h.outside.1, hzero, hzero⟩
    · intro c' hc' _
      have hc := company_ne hids hc'
      have haway := h.away c' hc' fun he => absurd (he.trans (by rw [hag, companyOf_empty hids])) hc.2
      unfold Purse.check
      rw [hag, companyOf_empty hids]
      refine ⟨?_, fun hnone g hg => ?_, fun g hl hg => ?_⟩
      · dsimp only
        rw [update_of_ne hc.1, update_of_ne hc.2]
        exact haway.company
      · dsimp only at hnone ⊢
        rw [update_of_ne hc.1] at hnone
        rw [update_of_ne (hg.ne_empty hids)]
        exact haway.blank hnone g hg
      · dsimp only
        rw [update_of_ne (hg.ne_empty hids), update_of_ne hc.2]
        exact haway.last g hl hg
    · exact fun c' hg => absurd hag (hg.ne_empty hids)
    · exact fun c' hg => absurd hag (hg.ne_empty hids)
    · intro hl _ c' hc'
      unfold Purse.check
      dsimp only
      rw [hag, companyOf_empty hids, update_of_ne (company_ne hids hc').2]
      exact h.new hl (.inr hag) c' hc'
  · have hc := company_ne hids hg.company
    refine ⟨.inr ⟨c, hg⟩, h.left, ?_, ?_, ?_, ?_, ?_⟩
    · unfold Purse.check
      dsimp only
      rw [hg.companyOf, update_of_ne (hg.ne_none hids).symm, update_of_ne (hg.ne_empty hids).symm, update_of_ne hc.2.symm]
      exact h.outside
    · intro c' hc' hout
      have hne : c' ≠ c := fun he => hout (he.trans hg.companyOf.symm) (.inl rfl)
      refine (h.away c' hc' fun he => absurd (he.trans hg.companyOf) hne).write hg hne hc' rfl rfl ?_
      unfold Purse.check
      rw [hg.companyOf]
      exact update_of_ne hne ..
    · intro c' hg' _
      obtain rfl := hg.unique hg'
      unfold Purse.check
      dsimp only
      rw [hvalue, hg.companyOf, update_self, update_self]
    · intro c' hg' _
      obtain rfl := hg.unique hg'
      unfold Purse.check
      dsimp only
      rw [hg.companyOf, update_self]
      exact Option.some_ne_none _
    · rintro - (hj | hag)
      · cases hj
      · exact absurd hag (hg.ne_empty hids)

omit hids in
theorem worth_update {card : String → Option Int} {a : String} {last lastTop top : Option String} {n : Int} (hne : fmt top ≠ a)
    (hn : (worth agent card (some a) last lastTop top).toInt = .ret n) :
    (worth agent (update card a (some n)) (some a) last lastTop top).toInt = .ret n := by
  unfold worth at hn ⊢
  rw [update_of_ne hne]
  split
  · next hl =>
    rw [if_pos hl] at hn
    exact hn
  · next hl =>
    rw [if_neg hl] at hn
    split
    · next he =>
      rw [if_pos he] at hn
      by_cases hla : fmt last = a
      · rw [hla, update_self]
        rfl
      · rw [update_of_ne hla]
        exact hn
    · next he =>
      rw [if_neg he] at hn
      cases hcard : card (fmt top) with
      | some k =>
        rw [hcard] at hn
        exact hn
      | none =>
        show (orZero (update card a (some n) a)).toInt = _
        rw [update_self]
        rfl

/-- What a check writes, the next one writes again. -/
theorem worthOf_check (h : Books agent fuel p) {n : Int} (hn : (worthOf agent fuel p.row).toInt = .ret n) :
    (worthOf agent fuel (p.check agent fuel n).row).toInt = .ret n := by
  refine worth_update ?_ hn
  show fmt ((topOf agent fuel (some p.row.ag)).getD none) ≠ p.row.ag
  rcases h.place with ⟨hag, -⟩ | ⟨c, hg⟩
  · rw [hag, topOf_empty hids]
    decide
  · rw [hg.top]
    exact (hg.ne_company hg.company).symm

end Books

/-! ## Runs -/

/-- A request of the user, a change of his cards in his guild, or the end of his message. -/
inductive Req where
  | check
  | exit
  | join (curTime groupId : String)
  | comfirm (agentId : String)
  | change (n : Int)
  | forget

/-- The store with what the requests so far have come to: whether the user has joined since his last check, whether
nothing but checks has come since the last, what he owns with each company, and how often each has given him its cards. -/
structure Hist where
  st : St
  joined : Bool
  idle : Bool
  owned : String → Option Int
  granted : String → Nat

section Runs
variable (fuel : Nat) (sid id : String)

def guildOf (s : St) : String := fmt (s.parentAg (userTableOf id))

def balance (s : St) : Int := val s.card (guildOf id s, id)

def companyNow (s : St) : String := companyOf s.agent fuel (guildOf id s)

def rowOf (s : St) : Row := ⟨guildOf id s, s.lastGroup (userTableOf id), s.cards id⟩

def Hist.purse (h : Hist) : Purse := ⟨rowOf id h.st, h.joined, h.owned⟩

/-- The store after a check that writes `n` cards. -/
def checked (s : St) (n : Int) : St :=
  { s with
    card := update s.card (guildOf id s, id) (some n), baseScore := update s.baseScore (userTableOf id) (some "[1]") }

/-- The result that the message of the user holds. -/
def decision (s : St) : Option Int := (s.message id).bind fun m => m[1]?.bind int

/-- The join is decided. -/
def Decided (s : St) : Prop := ∃ k, decision id s = some k ∧ k ≠ 0

instance (s : St) : Decidable (Decided id s) :=
  match h : decision id s with
  | some k => decidable_of_iff (k ≠ 0) ⟨fun hk => ⟨k, h, hk⟩, fun ⟨_, hk', hne⟩ => by rw [h] at hk'; cases hk'; exact hne⟩
  | none => isFalse fun ⟨_, hk, _⟩ => by rw [h] at hk; cases hk

/-- The check from `s` to `s'` has given the user the cards of a company. -/
def Grants (s s' : St) : Prop :=
  (s.lastGroup (userTableOf id)).getD "" = "" ∧ s.card (companyNow fuel id s, id) = none ∧
    s'.card (guildOf id s, id) ≠ s.card (guildOf id s, id)

instance (s s' : St) : Decidable (Grants fuel id s s') := instDecidableAnd

def step (r : Req) (h : Hist) : Hist :=
  match r with
  | .check =>
    let s' := (run (checkjoinGroup fuel sid) h.st).2
    let c := companyNow fuel id h.st
    { st := s', joined := h.joined && !decide (Decided id h.st), idle := true
      owned := if Decided id h.st then update h.owned c (some ((h.owned c).getD (balance id s'))) else h.owned
      granted := if Decided id h.st ∧ Grants fuel id h.st s' then update h.granted c (h.granted c + 1) else h.granted }
  | .exit => { h with st := (run (exitGroup fuel sid) h.st).2, joined := false, idle := false }
  | .join curTime groupId =>
    let s' := (run (joinGroup fuel curTime sid groupId) h.st).2
    match (run (joinGroup fuel curTime sid groupId) h.st).1 with
    | .ok reply => if reply.code = 0 then { h with st := s', joined := guildOf id s' = groupId, idle := false } else { h with st := s' }
    | .error _ => { h with st := s' }
  | .comfirm agentId => { h with st := (run (memberJoinComfirm agentId id) h.st).2, joined := true, idle := false }
  | .change n =>
    let c := companyNow fuel id h.st
    { h with
      st := { h.st with card := incrby h.st.card (guildOf id h.st, id) n }
      owned := update h.owned c (some ((h.owned c).getD 0 + n)), idle := false }
  | .forget => { h with st := { h.st with message := update h.st.message id none } }

/-- What a user may expect of a request: a check does not raise. It changes no cards if he has not joined since the last,
it leaves him what he owns with the company, and each company gives him its cards once. What he holds when he leaves a
guild, after a check, is what he owns. -/
def Conserves (r : Req) (h : Hist) : Prop :=
  let h' := step fuel sid id r h
  match r with
  | .check => (∃ reply, (run (checkjoinGroup fuel sid) h.st).1 = .ok reply) ∧
      (h.joined = false → balance id h'.st = balance id h.st) ∧
      (Decided id h.st → ∀ n, h.owned (companyNow fuel id h.st) = some n → balance id h'.st = n) ∧ ∀ c, h'.granted c ≤ 1
  | .exit | .join _ _ => guildOf id h.st ≠ "" → h.joined = false →
      h.owned (companyNow fuel id h.st) = some (balance id h.st)
  | _ => True

/-- A check finds a message with a result. If the join is decided, the user has joined since his last check, or nothing
else has come since, or the record of his guild is what it writes; and the cards his company would give him are an
integer. Cards change, and guilds are left, with the record in force, and guilds are joined below a company. -/
def Sound (r : Req) (h : Hist) : Prop :=
  match r with
  | .check => (∃ m num k, h.st.message id = some m ∧ m[0]? = some num ∧ decision id h.st = some k) ∧
      (Decided id h.st → (h.joined = true ∨ h.idle = true ∨ OwnRecord h.st.agent fuel (rowOf id h.st)) ∧
        (h.st.lastGroup (userTableOf id) = none → h.st.card (companyNow fuel id h.st, id) = none →
          ∃ n, (defaultOf h.st.agent (some (companyNow fuel id h.st))).toInt = .ret n))
  | .exit => InForce h.st.agent fuel (h.purse id)
  | .join _ groupId => InForce h.st.agent fuel (h.purse id) ∧
      ((h.st.agent groupId).isSome → ∃ c, IsGuild h.st.agent fuel groupId c)
  | .comfirm agentId => guildOf id h.st = "" ∧ ∃ c, IsGuild h.st.agent fuel agentId c
  | .change _ => guildOf id h.st ≠ "" ∧ InForce h.st.agent fuel (h.purse id)
  | .forget => True

/-- What the requests keep. -/
structure Kept (h : Hist) : Prop where
  ids : Ids h.st.agent fuel
  login : Login h.st.shared sid id
  parentAg : (h.st.parentAg (userTableOf id)).isSome
  books : Books h.st.agent fuel (h.purse id)
  idle : h.idle = true → Decided id h.st → ∃ n, (worthOf h.st.agent fuel (rowOf id h.st)).toInt = .ret n ∧
    h.st.card (guildOf id h.st, id) = some n
  once : ∀ c, h.granted c ≤ 1
  fresh : h.st.lastGroup (userTableOf id) = none → (h.joined = true ∨ guildOf id h.st = "") → ∀ c, h.granted c = 0

variable {fuel sid id}

theorem cards_update (s : St) (g : String) (x : Option Int) (g' : String) :
    update s.card (g, id) x (g', id) = update (s.cards id) g x g' := by
  by_cases hg : g' = g
  · rw [hg, update_self, update_self]
  · rw [update_of_ne hg, update_of_ne fun h => hg (Prod.mk.inj h).1]
    rfl

/-- The row after cards are written. -/
theorem rowOf_card {s s' : St} {g : String} {x : Option Int} (hag : s'.parentAg = s.parentAg) (hlast : s'.lastGroup = s.lastGroup)
    (hcard : s'.card = update s.card (g, id) x) : rowOf id s' = { rowOf id s with card := update (rowOf id s).card g x } := by
  have hcards : s'.cards id = update (s.cards id) g x := by
    funext g'
    rw [St.cards, hcard]
    exact cards_update s g x g'
  rw [rowOf, guildOf, hag, hlast, hcards]
  rfl

theorem parentAg_eq {s : St} (h : (s.parentAg (userTableOf id)).isSome) : s.parentAg (userTableOf id) = some (guildOf id s) := by
  obtain ⟨a, ha⟩ := Option.isSome_iff_exists.1 h
  rw [guildOf, ha]
  rfl

section Kept
variable {h : Hist} (hk : Kept fuel sid id h)
include hk

/-- The climbs from the guild of the user and from the one he left last end. -/
theorem Kept.tops : ∃ top, topOf h.st.agent fuel (some (guildOf id h.st)) = some top ∧
    ((h.st.lastGroup (userTableOf id)).getD "" ≠ "" → ∃ lastTop, topOf h.st.agent fuel (h.st.lastGroup (userTableOf id)) = some lastTop) := by
  have hlast : (h.st.lastGroup (userTableOf id)).getD "" ≠ "" →
      ∃ lastTop, topOf h.st.agent fuel (h.st.lastGroup (userTableOf id)) = some lastTop := by
    intro hne
    cases hl : h.st.lastGroup (userTableOf id) with
    | none => rw [hl] at hne; exact absurd rfl hne
    | some g =>
      obtain ⟨c', hlast⟩ := hk.books.left g hl
      exact ⟨_, hlast.top⟩
  rcases hk.books.place with ⟨hag, -⟩ | ⟨c, hg⟩
  · rw [show guildOf id h.st = "" from hag]
    exact ⟨_, topOf_empty hk.ids, hlast⟩
  · exact ⟨_, hg.top, hlast⟩

/-- A check of a decided join: it answers, and writes what it is worth. -/
theorem Kept.run_check (hs : Sound fuel id .check h) (hd : Decided id h.st) : ∃ n r,
    (worthOf h.st.agent fuel (rowOf id h.st)).toInt = .ret n ∧
      run (checkjoinGroup fuel sid) h.st = (.ok r, checked id h.st n) := by
  obtain ⟨⟨m, num, k, hmsg, hnum, hdec⟩, hsound⟩ := hs
  obtain ⟨-, hdefault⟩ := hsound hd
  obtain ⟨k', hdec', hne⟩ := hd
  obtain rfl := Option.some.inj (hdec.symm.trans hdec')
  obtain ⟨n, hn⟩ := hk.books.exists_worth hk.ids hdefault
  rw [decision, hmsg, Option.bind_some] at hdec
  obtain ⟨text, htext, hint⟩ := Option.bind_eq_some_iff.1 hdec
  obtain ⟨top, htop, hlast⟩ := hk.tops
  have hag := parentAg_eq hk.parentAg
  have hlast' : (h.st.lastGroup (userTableOf id)).getD "" ≠ "" → topOf h.st.agent fuel (h.st.lastGroup (userTableOf id)) =
      some ((topOf h.st.agent fuel (h.st.lastGroup (userTableOf id))).getD none) := by
    intro hne
    obtain ⟨lastTop, ht⟩ := hlast hne
    rw [ht]
    rfl
  have hworth : (worth h.st.agent (h.st.cards id) (some (guildOf id h.st)) (h.st.lastGroup (userTableOf id))
      ((topOf h.st.agent fuel (h.st.lastGroup (userTableOf id))).getD none) top).toInt = .ret n := by
    rw [← hn, worthOf, show topOf h.st.agent fuel (some (h.purse id).row.ag) = some top from htop]
    rfl
  obtain ⟨r, hrun⟩ := run_checkjoinGroup hk.login hmsg hnum htext hint hne (by rw [hag]; exact htop) hlast'
    (by rw [hag]; exact hworth)
  rw [hag] at hrun
  exact ⟨n, r, hn, hrun⟩

/-- A check of a join that is not decided. -/
theorem Kept.run_pending (hs : Sound fuel id .check h) (hd : ¬Decided id h.st) :
    ∃ r, run (checkjoinGroup fuel sid) h.st = (.ok r, h.st) := by
  obtain ⟨⟨m, num, k, hmsg, hnum, hdec⟩, -⟩ := hs
  have hk0 : k = 0 := by
    by_contra hne
    exact hd ⟨k, hdec, hne⟩
  subst hk0
  rw [decision, hmsg, Option.bind_some] at hdec
  obtain ⟨text, htext, hint⟩ := Option.bind_eq_some_iff.1 hdec
  exact ⟨_, run_checkjoinGroup_pending hk.login hmsg hnum htext hint⟩

/-- What a check writes is the record already, if the user has not joined since the last. -/
theorem Kept.unchanged (hs : Sound fuel id .check h) (hd : Decided id h.st) {n : Int}
    (hn : (worthOf h.st.agent fuel (rowOf id h.st)).toInt = .ret n) (hj : h.joined = false) :
    OwnRecord h.st.agent fuel (rowOf id h.st) ∨ (rowOf id h.st).card (rowOf id h.st).ag = some n := by
  rcases (hs.2 hd).1 with hj' | hidle | hown
  · rw [hj] at hj'
    cases hj'
  · obtain ⟨n', hn', hcard⟩ := hk.idle hidle hd
    rw [hn] at hn'
    injection hn' with hn'
    exact .inr (hn' ▸ hcard)
  · exact .inl hown

omit hk in
theorem balance_checked (s : St) (n : Int) : balance id (checked id s n) = n := by
  show (update s.card (guildOf id s, id) (some n) (guildOf id s, id)).getD 0 = n
  rw [update_self]
  rfl

omit hk in
/-- What a check of a decided join comes to. -/
theorem step_check {n : Int} {r : Reply} (hd : Decided id h.st) (hrun : run (checkjoinGroup fuel sid) h.st = (.ok r, checked id h.st n)) :
    step fuel sid id .check h = {
      st := checked id h.st n, joined := false, idle := true
      owned := update h.owned (companyNow fuel id h.st) (some ((h.owned (companyNow fuel id h.st)).getD n))
      granted := if Grants fuel id h.st (checked id h.st n) then
          update h.granted (companyNow fuel id h.st) (h.granted (companyNow fuel id h.st) + 1)
        else h.granted } := by
  unfold step
  dsimp only
  rw [hrun]
  dsimp only
  rw [balance_checked, if_pos hd, decide_eq_true hd, Bool.not_true, Bool.and_false]
  simp only [hd, true_and]

omit hk in
theorem rowOf_checked (s : St) (n : Int) :
    rowOf id (checked id s n) = { rowOf id s with card := update (rowOf id s).card (rowOf id s).ag (some n) } :=
  rowOf_card rfl rfl rfl

/-- A check gives the cards of a company to a user who has none of any. -/
theorem Kept.grants {n : Int} (hs : Sound fuel id .check h) (hd : Decided id h.st)
    (hn : (worthOf h.st.agent fuel (rowOf id h.st)).toInt = .ret n) (hg : Grants fuel id h.st (checked id h.st n)) :
    h.joined = true ∧ h.st.lastGroup (userTableOf id) = none := by
  obtain ⟨hlast, -, hcard⟩ := hg
  have hl : h.st.lastGroup (userTableOf id) = none := by
    cases hl : h.st.lastGroup (userTableOf id) with
    | none => rfl
    | some g =>
      obtain ⟨c, hg⟩ := hk.books.left g hl
      rw [hl] at hlast
      exact absurd hlast (hg.ne_empty hk.ids)
  refine ⟨?_, hl⟩
  by_contra hj
  rcases hk.unchanged hs hd hn (Bool.eq_false_of_not_eq_true hj) with ⟨g, hlast', -⟩ | hsame
  · exact absurd (hl.symm.trans hlast') fun h => by cases h
  · exact hcard ((update_self ..).trans hsame.symm)

omit hk in
/-- What a check of a join that is not decided comes to. -/
theorem step_pending {r : Reply} (hd : ¬Decided id h.st) (hrun : run (checkjoinGroup fuel sid) h.st = (.ok r, h.st)) :
    step fuel sid id .check h = { h with idle := true } := by
  unfold step
  dsimp only
  rw [hrun]
  dsimp only
  rw [if_neg hd, if_neg fun h => hd h.1, decide_eq_false hd, Bool.not_false, Bool.and_true]

omit hk in
/-- Who has no guild has not joined any. -/
theorem Kept.joined_out (hk : Kept fuel sid id h) (hout : guildOf id h.st = "") : h.joined = false := by
  rcases hk.books.place with ⟨-, hj⟩ | ⟨c, hg⟩
  · exact hj
  · exact absurd hout (hg.ne_empty hk.ids)

theorem Kept.check (hs : Sound fuel id .check h) : Kept fuel sid id (step fuel sid id .check h) := by
  by_cases hd : Decided id h.st
  · obtain ⟨n, r, hn, hrun⟩ := hk.run_check hs hd
    have hbooks := hk.books.check hk.ids hn fun hj => hk.unchanged hs hd hn hj
    have hworth := worthOf_check hk.ids hk.books hn
    rw [step_check hd hrun]
    refine ⟨hk.ids, hk.login, hk.parentAg, ?_, fun _ _ => ⟨n, ?_, ?_⟩, ?_, ?_⟩
    · unfold Hist.purse
      dsimp only
      rw [rowOf_checked]
      exact hbooks
    · rw [rowOf_checked]
      exact hworth
    · exact update_self ..
    · intro c
      dsimp only
      split
      · next hg =>
        obtain ⟨hj, hl⟩ := hk.grants hs hd hn hg
        have hzero := hk.fresh hl (.inl hj)
        by_cases hc : c = companyNow fuel id h.st
        · rw [hc, update_self, hzero]
        · rw [update_of_ne hc, hzero]
          exact Nat.zero_le 1
      · exact hk.once c
    · intro hl hout
      rcases hout with hj | hout
      · cases hj
      · dsimp only
        rw [if_neg fun hg => ?_]
        · exact hk.fresh hl (.inr hout)
        · have hj := (hk.grants hs hd hn hg).1
          rw [hk.joined_out hout] at hj
          cases hj
  · obtain ⟨r, hrun⟩ := hk.run_pending hs hd
    rw [step_pending hd hrun]
    exact ⟨hk.ids, hk.login, hk.parentAg, hk.books, fun _ h => absurd h hd, hk.once, hk.fresh⟩

omit hk in
theorem rowOf_exited (s : St) (g top : String) (n : Int) :
    rowOf id (exited s (userTableOf id) id g top n) = ⟨"", some g, update (s.cards id) top (some n)⟩ := by
  have hag : (exited s (userTableOf id) id g top n).parentAg (userTableOf id) = some "" := update_self ..
  have hlast : (exited s (userTableOf id) id g top n).lastGroup (userTableOf id) = some g := update_self ..
  rw [rowOf, guildOf, hag, hlast, fmt_some]
  congr 1
  funext g'
  exact cards_update s top _ g'

/-- The user leaves his guild, if he has one. -/
theorem Kept.rowOf_unguilded : rowOf id (unguilded fuel h.st id) = ((h.purse id).leave h.st.agent fuel).row := by
  unfold unguilded Purse.leave
  rw [parentAg_eq hk.parentAg]
  dsimp only
  by_cases hex : (h.st.agent (guildOf id h.st)).isSome = true
  · rw [if_pos hex, if_pos (show (h.st.agent (h.purse id).row.ag).isSome = true from hex), rowOf_exited]
    rfl
  · rw [if_neg hex, if_neg (show ¬(h.st.agent (h.purse id).row.ag).isSome = true from hex)]
    rfl

/-- What leaving a guild does to the rest. -/
theorem Kept.unguilded_same : (unguilded fuel h.st id).agent = h.st.agent ∧ (unguilded fuel h.st id).shared = h.st.shared ∧
    (unguilded fuel h.st id).message = h.st.message ∧ ((unguilded fuel h.st id).parentAg (userTableOf id)).isSome := by
  unfold unguilded
  rw [parentAg_eq hk.parentAg]
  dsimp only
  split
  · refine ⟨rfl, rfl, rfl, ?_⟩
    rw [show (exited h.st (userTableOf id) id (guildOf id h.st) _ _).parentAg (userTableOf id) = some "" from update_self ..]
    rfl
  · exact ⟨rfl, rfl, rfl, hk.parentAg⟩

/-- Leaving a guild with the record in force. -/
theorem Kept.leave (hf : InForce h.st.agent fuel (h.purse id)) :
    Kept fuel sid id { h with st := unguilded fuel h.st id, joined := false, idle := false } ∧
      guildOf id (unguilded fuel h.st id) = "" := by
  obtain ⟨hagent, hshared, -, hsome⟩ := hk.unguilded_same
  have hrow := hk.rowOf_unguilded
  have hbooks := hk.books.leave hk.ids hf
  have hout : ((h.purse id).leave h.st.agent fuel).row.ag = "" := by
    unfold Purse.leave
    dsimp only
    split
    · rfl
    · next hex =>
      rcases hk.books.place with ⟨hag, -⟩ | ⟨c, hg⟩
      · exact hag
      · exact absurd hg.isSome hex
  have hguild : guildOf id (unguilded fuel h.st id) = "" := by
    rw [← hout, ← hrow]
    rfl
  refine ⟨⟨?_, ?_, hsome, ?_, fun h => (by cases h), hk.once, ?_⟩, hguild⟩
  · rw [hagent]
    exact hk.ids
  · rw [hshared]
    exact hk.login
  · unfold Hist.purse
    dsimp only
    rw [hagent, hrow]
    exact hbooks
  · intro hl _
    have hlast : ((h.purse id).leave h.st.agent fuel).row.last = none := by
      rw [← hrow]
      exact hl
    unfold Purse.leave at hlast
    dsimp only at hlast
    split at hlast
    · cases hlast
    · next hex =>
      rcases hk.books.place with ⟨hag, -⟩ | ⟨c, hg⟩
      · exact hk.fresh hlast (.inr hag)
      · exact absurd hg.isSome hex

omit hk in
theorem Kept.applies (hk : Kept fuel sid id h) (groupId : String) (message : List String) :
    Kept fuel sid id { h with st := applies h.st id groupId message, idle := false } :=
  ⟨hk.ids, hk.login, hk.parentAg, hk.books, fun h => (by cases h), hk.once, hk.fresh⟩

omit hk in
theorem Kept.enter (hk : Kept fuel sid id h) (hout : guildOf id h.st = "") {g c : String} (hg : IsGuild h.st.agent fuel g c) :
    Kept fuel sid id { h with st := entered h.st id g, joined := true, idle := false } := by
  have hself : (entered h.st id g).parentAg (userTableOf id) = some g := update_self ..
  have hrow : rowOf id (entered h.st id g) = { rowOf id h.st with ag := g } := by
    rw [rowOf, guildOf, hself]
    rfl
  refine ⟨hk.ids, hk.login, by rw [hself]; rfl, ?_, fun h => (by cases h), hk.once, fun hl _ => hk.fresh hl (.inr hout)⟩
  unfold Hist.purse
  dsimp only
  rw [hrow]
  exact hk.books.enter hk.ids hout hg

theorem Kept.exit (hs : Sound fuel id .exit h) : Kept fuel sid id (step fuel sid id .exit h) := by
  have hrun : (run (exitGroup fuel sid) h.st).2 = unguilded fuel h.st id := by
    unfold unguilded
    have hag := parentAg_eq hk.parentAg
    rw [hag]
    dsimp only
    rcases hk.books.place with ⟨hempty, -⟩ | ⟨c, hg⟩
    · have hempty : guildOf id h.st = "" := hempty
      rw [hempty, hk.ids.empty, run_exitGroup_out hk.login (by rw [hag, hempty]; exact hk.ids.empty)]
      rfl
    · have hex : (h.st.agent (guildOf id h.st)).isSome = true := hg.isSome
      have htop : topOf h.st.agent fuel (some (guildOf id h.st)) = some (some c) := hg.top
      rw [if_pos hex, run_exitGroup hk.login hag hex htop, htop]
      rfl
  unfold step
  dsimp only
  rw [hrun]
  exact (hk.leave hs).1

theorem Kept.join {curTime groupId : String} (hs : Sound fuel id (.join curTime groupId) h) :
    Kept fuel sid id (step fuel sid id (.join curTime groupId) h) := by
  have htop : (h.st.agent (guildOf id h.st)).isSome → (topOf h.st.agent fuel (some (guildOf id h.st))).isSome := by
    intro _
    obtain ⟨top, ht, -⟩ := hk.tops
    rw [ht]
    rfl
  rcases run_joinGroup hk.login curTime groupId (parentAg_eq hk.parentAg) htop with ⟨hst, hcode⟩ | ⟨hex, auto_check, accepted, hrun⟩
  · -- refused
    have hsame : step fuel sid id (.join curTime groupId) h = h := by
      unfold step
      dsimp only
      rw [hst]
      cases hres : (run (joinGroup fuel curTime sid groupId) h.st).1 with
      | error e => rfl
      | ok r =>
        dsimp only
        rw [if_neg (hcode r hres)]
    rw [hsame]
    exact hk
  · obtain ⟨hleft, hout⟩ := hk.leave hs.1
    obtain ⟨c, hg⟩ := hs.2 hex
    unfold step
    dsimp only
    rw [hrun]
    dsimp only
    rw [if_pos rfl]
    cases accepted with
    | true =>
      have hg' : IsGuild (unguilded fuel h.st id).agent fuel groupId c := by
        rw [hk.unguilded_same.1]
        exact hg
      have hself : (Guild.applies (entered (unguilded fuel h.st id) id groupId) id groupId [groupId, toString auto_check, curTime]).parentAg
          (userTableOf id) = some groupId := update_self ..
      have hjoined : decide (guildOf id (Guild.applies (entered (unguilded fuel h.st id) id groupId) id groupId
          [groupId, toString auto_check, curTime]) = groupId) = true := by
        rw [guildOf, hself]
        exact decide_eq_true rfl
      rw [if_pos rfl, hjoined]
      exact (hleft.enter hout hg').applies groupId _
    | false =>
      have hjoined : decide (guildOf id (Guild.applies (unguilded fuel h.st id) id groupId [groupId, toString auto_check, curTime]) =
          groupId) = false := by
        refine decide_eq_false fun he => ?_
        rw [show guildOf id (Guild.applies (unguilded fuel h.st id) id groupId _) = guildOf id (unguilded fuel h.st id) from rfl, hout] at he
        exact hg.ne_empty hk.ids he.symm
      rw [if_neg Bool.false_ne_true, hjoined]
      exact hleft.applies groupId _

theorem Kept.comfirm {agentId : String} (hs : Sound fuel id (.comfirm agentId) h) :
    Kept fuel sid id (step fuel sid id (.comfirm agentId) h) := by
  obtain ⟨hout, c, hg⟩ := hs
  have hk' := hk.enter hout hg
  exact ⟨hk'.ids, hk'.login, hk'.parentAg, hk'.books, fun h => (by cases h), hk'.once, hk'.fresh⟩

theorem Kept.change {n : Int} (hs : Sound fuel id (.change n) h) : Kept fuel sid id (step fuel sid id (.change n) h) := by
  obtain ⟨hne, hf⟩ := hs
  rcases hk.books.place with ⟨hag, -⟩ | ⟨c, hg⟩
  · exact absurd hag hne
  refine ⟨hk.ids, hk.login, hk.parentAg, ?_, fun h => (by cases h), hk.once, hk.fresh⟩
  have hrow : rowOf id (step fuel sid id (.change n) h).st = _ := rowOf_card (s := h.st) rfl rfl rfl
  unfold Hist.purse
  rw [hrow]
  exact hk.books.change hk.ids hg hf n

theorem Kept.forget : Kept fuel sid id (step fuel sid id .forget h) := by
  refine ⟨hk.ids, hk.login, hk.parentAg, hk.books, fun _ hd => ?_, hk.once, hk.fresh⟩
  obtain ⟨k, hdec, -⟩ := hd
  have hnone : (step fuel sid id .forget h).st.message id = none := update_self ..
  rw [decision, hnone] at hdec
  cases hdec

end Kept

theorem kept_step (r : Req) (h : Hist) (hs : Sound fuel id r h) (hk : Kept fuel sid id h) : Kept fuel sid id (step fuel sid id r h) := by
  cases r with
  | check => exact hk.check hs
  | exit => exact hk.exit hs
  | join curTime groupId => exact hk.join hs
  | comfirm agentId => exact hk.comfirm hs
  | change n => exact hk.change hs
  | forget => exact hk.forget

theorem conserves_step (r : Req) (h : Hist) (hs : Sound fuel id r h) (hk : Kept fuel sid id h) : Conserves fuel sid id r h := by
  have hleave : guildOf id h.st ≠ "" → h.joined = false → h.owned (companyNow fuel id h.st) = some (balance id h.st) := by
    intro hne hj
    rcases hk.books.place with ⟨hag, -⟩ | ⟨c, hg⟩
    · exact absurd hag hne
    · rw [show companyNow fuel id h.st = c from hg.companyOf]
      have hhere := hk.books.here c hg (.inl hj)
      have hsettled := hk.books.settled c hg hj
      cases ho : h.owned c with
      | none => exact absurd ho hsettled
      | some m =>
        rw [show (h.purse id).owned c = some m from ho] at hhere
        exact congrArg some hhere.symm
  cases r with
  | check =>
    by_cases hd : Decided id h.st
    · obtain ⟨n, r, hn, hrun⟩ := hk.run_check hs hd
      have hk' := hk.check hs
      have hbalance : balance id (step fuel sid id .check h).st = n := by
        rw [step_check hd hrun]
        exact balance_checked h.st n
      refine ⟨⟨r, congrArg Prod.fst hrun⟩, fun hj => ?_, fun _ m hm => ?_, hk'.once⟩
      · rw [hbalance]
        rcases hk.unchanged hs hd hn hj with hrec | hcard
        · exact worth_ownRecord hk.ids hk.books hn hrec
        · exact (congrArg (Option.getD · 0) hcard).symm
      · rw [hbalance]
        exact worth_owned hk.ids hk.books hn (hk.unchanged hs hd hn) hm
    · obtain ⟨r, hrun⟩ := hk.run_pending hs hd
      have hk' := hk.check hs
      refine ⟨⟨r, congrArg Prod.fst hrun⟩, fun _ => ?_, fun h => absurd h hd, hk'.once⟩
      rw [step_pending hd hrun]
  | exit => exact hleave
  | join curTime groupId => exact hleave
  | comfirm agentId => trivial
  | change n => trivial
  | forget => trivial

end Runs

/-- The user has had no guild, and has no cards. -/
structure Newcomer (id : String) (s : St) : Prop where
  parentAg : s.parentAg (userTableOf id) = some ""
  lastGroup : s.lastGroup (userTableOf id) = none
  card : ∀ groupId, s.card (groupId, id) = none

def start (s : St) : Hist := ⟨s, false, false, fun _ => none, fun _ => 0⟩

theorem kept_start {fuel : Nat} {sid id : String} {s : St} (hids : Ids s.agent fuel) (hlogin : Login s.shared sid id)
    (hnew : Newcomer id s) : Kept fuel sid id (start s) := by
  have hag : guildOf id s = "" := by rw [guildOf, hnew.parentAg, fmt_some]
  refine ⟨hids, hlogin, by rw [start, hnew.parentAg]; rfl, ?_, fun h => (by cases h), fun _ => Nat.zero_le 1, fun _ _ _ => rfl⟩
  have hcard : ∀ g, ((start s).purse id).row.card g = none := hnew.card
  have hlast : ((start s).purse id).row.last = none := hnew.lastGroup
  refine ⟨.inl ⟨hag, rfl⟩, ?_, ⟨hcard _, congrArg (Option.getD · 0) (hcard _), rfl⟩, ?_, ?_, ?_, fun _ _ _ _ => rfl⟩
  · intro g hg
    rw [hlast] at hg
    cases hg
  · intro c _ _
    refine ⟨congrArg (Option.getD · 0) (hcard c), fun _ g _ => hcard g, fun g hg => ?_⟩
    rw [hlast] at hg
    cases hg
  · exact fun c hg => absurd hag (hg.ne_empty hids)
  · exact fun c hg => absurd hag (hg.ne_empty hids)

/-- In every run of a newcomer whose requests are sound, his cards are conserved. -/
theorem guild_cards_conserved (fuel : Nat) {sid id : String} {s : St} (hids : Ids s.agent fuel) (hlogin : Login s.shared sid id)
    (hnew : Newcomer id s) (rs : List Req) (h : All (step fuel sid id) (Sound fuel id) rs (start s)) :
    All (step fuel sid id) (Conserves fuel sid id) rs (start s) :=
  all_of_inv kept_step conserves_step h (kept_start hids hlogin hnew)

/-! ## One company -/

/-- The guilds `2` and `3` of the company `1`, which gives ten cards, and the user `7`. -/
def demo : St where
  shared :=
    { session := fun sid => if sid = "s" then some ("acc", "7") else none
      platform := fun _ => none
      kick := fun _ => false
      userTable := fun account => if account = "acc" then some "users:7" else none
      isUser := fun table => table = "users:7"
      active := fun _ => none }
  agent := fun id =>
    if id = "1" then some ⟨some "1", some "0", some "10", some "1", none⟩
    else if id = "2" ∨ id = "3" then some ⟨some "2", some "1", none, some "1", none⟩
    else none
  parentAg := fun _ => some ""
  lastGroup := fun _ => none
  baseScore := fun _ => none
  members := fun _ => ∅
  applied := fun _ => []
  message := fun _ => none
  card := fun _ => none

theorem demo_login : Login demo.shared "s" "7" := ⟨⟨some "acc", by decide +kernel⟩, by decide +kernel⟩

theorem demo_ids : Ids demo.agent 2 := ⟨rfl, rfl, by decide⟩

theorem demo_guild : IsGuild demo.agent 2 "2" "1" := ⟨rfl, by decide, by decide +kernel, rfl⟩

theorem demo_sound {h : Hist} (hmsg : h.st.message "7" = some ["2", "1", ""]) (hdec : decision "7" h.st = some 1)
    (hdefault : defaultOf h.st.agent (some (companyNow 2 "7" h.st)) = .text "10") (hfirst : h.joined = true ∨ h.idle = true) :
    Sound 2 "7" .check h := by
  have hten : int "10" = some 10 := by decide +kernel
  refine ⟨⟨_, _, _, hmsg, rfl, hdec⟩, fun _ => ⟨hfirst.imp_right .inl, fun _ _ => ⟨10, ?_⟩⟩⟩
  rw [hdefault, Amount.toInt, hten]
  rfl

/-- A newcomer joins a guild, is checked twice, and leaves. -/
theorem guild_cards_conserved_once :
    All (step 2 "s" "7") (Conserves 2 "s" "7") [.join "" "2", .check, .check, .exit] (start demo) := by
  refine guild_cards_conserved 2 demo_ids demo_login ⟨rfl, rfl, fun _ => rfl⟩ _ ⟨⟨.inl rfl, fun _ => ⟨"1", demo_guild⟩⟩, ?_, ?_, ?_,
    trivial⟩
  · exact demo_sound (by decide +kernel) (by decide +kernel) (by decide +kernel) (.inl (by decide +kernel))
  · exact demo_sound (by decide +kernel) (by decide +kernel) (by decide +kernel) (.inr (by decide +kernel))
  · exact .inl (by decide +kernel)

/-- Without a message a check raises. A second check after five of the ten cards are spent gives them again. -/
theorem guild_cards_lost :
    ¬All (step 2 "s" "7") (Conserves 2 "s" "7") [.check] (start demo) ∧
      ¬All (step 2 "s" "7") (Conserves 2 "s" "7") [.join "" "2", .check, .change (-5), .check] (start demo) := by
  constructor
  · rintro ⟨⟨⟨r, hr⟩, -⟩, -⟩
    have herr : (run (checkjoinGroup 2 "s") (start demo).st).1 = .error .NameError := by decide +kernel
    rw [herr] at hr
    cases hr
  · rintro ⟨-, -, -, ⟨-, -, -, hgranted⟩, -⟩
    have htwo : (after (step 2 "s" "7") [.join "" "2", .check, .change (-5), .check] (start demo)).granted "1" = 2 := by
      decide +kernel
    have hone := hgranted "1"
    rw [show (step 2 "s" "7" .check _).granted "1" = 2 from htwo] at hone
    exact absurd hone (by decide)

end FishWeb.Guild
