import FishWeb.Server.Model
/-!
# What a part leaves is what the server has

Each part keeps amounts of its own kind. `serve` adds the increments that an
endpoint notes, and they are those that its commands make: what a part of the
store has after a request is what the server's amounts say.
-/
open Prog Counters FishWeb.Common

namespace FishWeb.Server

/-- Amounts of a part, under the server's names. -/
structure Agrees {C : Type → Type} {S K : Type} [Exec C S] [Note C (Amount × Int)] (A : S → Table K) (key : K → Amount) : Prop where
  exec : ∀ ⦃β : Type⦄ (c : C β) (v : S) (T : Table Amount), (∀ k, A v k = T (key k)) →
    ∀ k, A (Exec.exec c v).2 k = incrAll (Note.note c (Exec.exec c v).1) T (key k)

section Serve
variable {C : Type → Type} {S K α : Type} [Exec C S] [Note C (Amount × Int)] {A : S → Table K} {key : K → Amount}

theorem Agrees.run (h : Agrees (C := C) A key) (p : Prog Python.Err C α) (v : S) (T : Table Amount) (hv : ∀ k, A v k = T (key k)) (k : K) :
    A (run p v).2 k = incrAll (trace (Amount × Int) p v) T (key k) := by
  induction p generalizing v T with
  | ret a => exact hv k
  | raise e => exact hv k
  | cmd c f ih =>
    rw [run_step, trace_step, incrAll_append]
    exact ih _ _ _ (h.exec c v T hv)

/-- After a request the part has what the server has. -/
theorem Agrees.serve (h : Agrees (C := C) A key) (handler : Prog Python.Err C α) {view : S} (put : S → St → St) {s : St}
    (hv : ∀ k, A view k = s.amounts (key k)) (k : K) :
    A (Prog.run handler view).2 k = (Server.serve handler view put s).amounts (key k) :=
  h.run handler view s.amounts hv k

end Serve

/-- An increment under the server's name. -/
theorem incrby_key {K : Type} [DecidableEq K] {key : K → Amount} (hkey : Function.Injective key) {t : Table K} {T : Table Amount}
    (h : ∀ k, t k = T (key k)) (j : K) (n : Int) (k : K) : incrby t j n k = incrby T (key j) n (key k) := by
  unfold incrby
  by_cases hk : k = j
  · subst hk
    simp only [Function.update_self, val, h]
  · rw [Function.update_of_ne hk, Function.update_of_ne (fun he => hk (hkey he)), h]

theorem incrAll_key {K : Type} [DecidableEq K] {key : K → Amount} (hkey : Function.Injective key) (l : List (K × Int)) {t : Table K}
    {T : Table Amount} (h : ∀ k, t k = T (key k)) (k : K) :
    incrAll l t k = incrAll (l.map fun p => (key p.1, p.2)) T (key k) := by
  induction l generalizing t T with
  | nil => exact h k
  | cons p l ih =>
    rw [incrAll_cons, List.map_cons, incrAll_cons]
    exact ih (incrby_key hkey h p.1 p.2)

theorem userTable_injective : Function.Injective userTable := fun _ _ h => (String.append_right_inj _).1 h

theorem ofPlace_injective : Function.Injective Amount.ofPlace := by
  intro p q h
  cases p <;> cases q <;> simp [Amount.ofPlace, userTable_injective.eq_iff] at h ⊢ <;> exact h

theorem agrees_box : Agrees (C := Box.Cmd) Box.St.amounts Amount.ofPlace where
  exec β c v T hv k := by
    rw [Box.exec_amounts]
    exact incrAll_key ofPlace_injective _ hv k

theorem ofMail_injective : Function.Injective fun k : Mail.Currency × String => Amount.ofMail k.1 k.2 := by
  rintro ⟨c, u⟩ ⟨d, v⟩ h
  cases c <;> cases d <;> simp [Amount.ofMail, userTable_injective.eq_iff] at h ⊢ <;> exact h

theorem agrees_mail : Agrees (C := Mail.Cmd) Mail.St.amounts fun k => Amount.ofMail k.1 k.2 where
  exec β c v T hv k := by
    cases c
    case hincrby c uid n => exact incrby_key ofMail_injective hv (c, uid) n k
    all_goals exact hv k

/-- `hget (userTable, field)` as a part has it. -/
theorem user_injective (field : String) : Function.Injective fun table => Amount.user table field := by
  intro t u h
  exact (Amount.user.inj h).1

theorem agrees_benefit : Agrees (C := With Benefit.Own) Benefit.St.coin fun table => Amount.user table "coin" where
  exec β c v T hv k := by
    rcases c with a | c
    · exact hv k
    cases c
    case takeBenefit day uid user_table n => exact incrby_key (user_injective "coin") hv user_table n k
    case hincrbyCoin r table money => exact incrby_key (user_injective "coin") hv table money k
    case takeShare day uid user_table share_coin =>
      show Share.credited v.coin user_table share_coin k =
        incrAll ((Python.redisInt share_coin).toList.map (Amount.user user_table "coin", ·)) T (Amount.user k "coin")
      unfold Share.credited
      cases Python.redisInt share_coin with
      | none => exact hv k
      | some n => exact incrby_key (user_injective "coin") hv user_table n k
    all_goals exact hv k

theorem agrees_sign : Agrees (C := With Sign.Own) Sign.St.warhead fun table => Amount.user table "warhead" where
  exec β c v T hv k := by
    rcases c with a | c
    · exact hv k
    cases c
    case takeSign user_table warheads sign_id day info key users uid today =>
      exact incrby_key (user_injective "warhead") hv user_table warheads k
    all_goals exact hv k

/-! ### Parts with amounts of their own besides -/

section Named
variable {J : Type} [DecidableEq J] {name : J → Option Amount} (hname : ∀ i j a, name i = some a → name j = some a → i = j)
include hname

theorem incrby_name {t : Table J} {T : Table Amount} (h : ∀ j a, name j = some a → t j = T a) (i : J) (n : Int) (j : J) (a : Amount)
    (ha : name j = some a) : incrby t i n j = incrAll (((name i).map (·, n)).toList) T a := by
  cases hi : name i with
  | none =>
    have hne : j ≠ i := by
      rintro rfl
      rw [ha] at hi
      cases hi
    exact (Function.update_of_ne hne _ _).trans (h j a ha)
  | some b =>
    show incrby t i n j = incrby T b n a
    unfold incrby
    by_cases hj : j = i
    · subst hj
      obtain rfl := Option.some.inj (ha.symm.trans hi)
      simp only [Function.update_self, val, h j a ha]
    · have hne : a ≠ b := fun he => hj (hname j i a ha (he ▸ hi))
      rw [Function.update_of_ne hj, Function.update_of_ne hne, h j a ha]

theorem incrAll_name (l : List (J × Int)) {t : Table J} {T : Table Amount} (h : ∀ j a, name j = some a → t j = T a) (j : J)
    (a : Amount) (ha : name j = some a) :
    incrAll l t j = incrAll (l.filterMap fun p => (name p.1).map (·, p.2)) T a := by
  induction l generalizing t T with
  | nil => exact h j a ha
  | cons p l ih =>
    have hhead := incrby_name hname h p.1 p.2
    rw [incrAll_cons, ih hhead, ← incrAll_append]
    cases hp : name p.1 with
    | none => simp [hp]
    | some b => simp [hp]

end Named

theorem ofPurse_injective (i j : Question.Purse) (a : Amount) (hi : Amount.ofPurse i = some a) (hj : Amount.ofPurse j = some a) : i = j := by
  cases i <;> cases j <;> simp only [Amount.ofPurse, Option.some.injEq, reduceCtorEq] at hi hj <;> subst hi <;> simp_all

/-- The purses of the questionnaire that are amounts of the server. -/
abbrev NamedPurse := { p : Question.Purse // (Amount.ofPurse p).isSome }

theorem agrees_question : Agrees (C := With Question.Own) (fun v : Question.St => fun p : NamedPurse => v.amounts p.val)
    fun p => (Amount.ofPurse p.val).get p.property where
  exec β c v T hv k := by
    rcases c with a | c
    · exact hv k
    cases c
    case execute l account date =>
      have hnamed : ∀ p a, Amount.ofPurse p = some a → v.amounts p = T a := by
        intro p a ha
        have hp := hv ⟨p, by rw [ha]; rfl⟩
        simpa [ha] using hp
      exact incrAll_name ofPurse_injective l hnamed k.val _ (Option.some_get _).symm
    all_goals exact hv k

/-- The name of a purse of the shop of coins. -/
def ofCoin : Apple.Purse → Option Amount
  | .coin table => some (.user table "coin")
  | .card _ _ => none

theorem ofCoin_injective (i j : Apple.Purse) (a : Amount) (hi : ofCoin i = some a) (hj : ofCoin j = some a) : i = j := by
  cases i <;> cases j <;> simp only [ofCoin, Option.some.injEq, reduceCtorEq] at hi hj
  subst hi
  simp_all

theorem agrees_apple : Agrees (C := Apple.Cmd) (fun v : Line Apple.St => fun table => v.store.purse (.coin table))
    fun table => Amount.user table "coin" where
  exec β c v T hv k := by
    obtain ⟨store, outcomes⟩ := v
    cases c
    case incrby p n =>
      have hnamed : ∀ p a, ofCoin p = some a → store.purse p = T a := by
        intro p a ha
        cases p with
        | coin table => cases ha; exact hv table
        | card groupId id => cases ha
      have hincr := incrby_name ofCoin_injective hnamed p n (.coin k) (.user k "coin") rfl
      -- an answer that is lost was executed
      cases p <;> rcases outcomes with _ | ⟨_ | _ | _, l⟩ <;> first | exact hincr | exact hv k
    all_goals rcases outcomes with _ | ⟨_ | _ | _, l⟩ <;> exact hv k

/-! ## Requests -/

/-- After a request of the safe box its part has the amounts of the server, and so for the others. -/
theorem view_box {α : Type} (handler : Box.Handler α) (s : St) :
    (serve handler s.boxView (fun box s => { s with box }) s).boxView.amounts = (run handler s.boxView).2.amounts :=
  funext fun p => (agrees_box.serve handler (fun box s => { s with box }) (fun _ => rfl) p).symm

theorem view_mail {α : Type} (handler : Mail.Handler α) (s : St) :
    (serve handler s.mailView (fun mail s => { s with mail }) s).mailView.amounts = (run handler s.mailView).2.amounts :=
  funext fun c => (agrees_mail.serve handler (fun mail s => { s with mail }) (fun _ => rfl) c).symm

theorem view_benefit {α : Type} (handler : Benefit.Handler α) (s : St) :
    (serve handler s.benefitView (fun benefit s => { s with benefit }) s).benefitView.coin = (run handler s.benefitView).2.coin :=
  funext fun table => (agrees_benefit.serve handler (fun benefit s => { s with benefit }) (fun _ => rfl) table).symm

theorem view_sign {α : Type} (handler : Sign.Handler α) (s : St) :
    (serve handler s.signView (fun sign s => { s with sign }) s).signView.warhead = (run handler s.signView).2.warhead :=
  funext fun table => (agrees_sign.serve handler (fun sign s => { s with sign }) (fun _ => rfl) table).symm

theorem view_question {α : Type} (handler : Question.Handler α) (s : St) :
    (serve handler s.questionView (fun question s => { s with question }) s).questionView.amounts =
      (run handler s.questionView).2.amounts := by
  funext p
  cases hp : Amount.ofPurse p with
  | none => simp [St.questionView, serve, hp]
  | some a =>
    have hview : ∀ p : NamedPurse, s.questionView.amounts p.val = s.amounts ((Amount.ofPurse p.val).get p.property) := by
      rintro ⟨p, hp⟩
      obtain ⟨a, ha⟩ := Option.isSome_iff_exists.1 hp
      simp [St.questionView, ha]
    have hserve := agrees_question.serve handler (fun question s => { s with question }) hview ⟨p, by rw [hp]; rfl⟩
    simpa [St.questionView, hp] using hserve.symm

theorem view_apple {α : Type} (handler : Apple.Handler α) (s : St) (table : String) :
    (serve handler s.appleView (fun apple s => { s with apple := apple.store }) s).appleView.store.purse (.coin table) =
      (run handler s.appleView).2.store.purse (.coin table) :=
  (agrees_apple.serve handler (fun apple s => { s with apple := apple.store }) (fun _ => rfl) table).symm

end FishWeb.Server
