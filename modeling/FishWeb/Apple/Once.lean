import FishWeb.Apple.Model
import FishWeb.Lib.Script
/-!
# Crediting a transaction once

Purchases of either shop, interleaved command by command, any of whose commands
may fail. A request may stop for good at any point: it is not given another
turn.

The servers do not import the validator, so no purchase comes to its credit
(`transaction_credited_once`). Where it is imported, a purchase finds its
transaction unused, credits its goods and records the transaction, in this
order, and may end in between (`keeps_handler`); a transaction is credited once
where its purchases test it one at a time (`imported_credited_once`).
-/
open Python Prog Counters Pool Script

namespace FishWeb.Apple

/-! ## The script of a purchase -/

/-- The transaction of the receipt. -/
def Req.receipt (r : Req) : Option Receipt :=
  match r.purchases with
  | .ok purchases => purchases[0]?.map fun purchase => ⟨r.shop, purchase.transaction_id⟩
  | .error _ => none

/-- The purse of the user of the session. -/
def Req.purse (r : Req) (f : Setup) : Option Purse :=
  (f.userTable (fmt ((f.session r.sid).getD (none, none)).1)).bind fun userTable =>
    (split ':' userTable)[1]?.map fun id => r.shop.purse userTable (f.parentAg userTable) id

/-- The number of coins or diamonds of the goods. -/
def Req.cards (r : Req) (f : Setup) : Option Int := (f.goods r.shop r.bundle_id).join.bind int

/-- The end of a purchase whose transaction is found unused. -/
def settling (p : Option Purse) (n : Option Int) (t : Receipt) : List Ev :=
  match p, n with
  | some p, some n => [.credited p n, .recorded t]
  | _, _ => []

def script (f : Setup) (r : Req) : List Ev :=
  match r.receipt with
  | some t => .unused t :: settling (r.purse f) (r.cards f) t
  | none => []

/-- What a purchase only reads is as it was. -/
def Fixed (f : Setup) (s : Line St) : Prop := s.store.setup = f

theorem exec_fixed {f : Setup} ⦃β : Type⦄ (c : Cmd β) (s : Line St) (h : Fixed f s) : Fixed f (Exec.exec c s).2 := by
  have hsend : ∀ {γ : Type} (g : St → γ × St), (∀ s, (g s).2.setup = s.setup) → Fixed f (s.send g).2 := by
    intro γ g hg
    unfold Fixed at h ⊢
    rcases s.send_cases g with ⟨-, hs⟩ | ⟨-, hs⟩
    · rw [hs, hg, h]
    · rw [hs, h]
  cases c <;> exact hsend _ fun _ => rfl

section Keeps
variable {f : Setup} {l : List Ev} {α β : Type}

theorem keeps_read {c : Cmd (Answer β)} (g : Setup → β) (hc : ∀ s : Line St, Exec.exec c s = s.send fun s => (g s.setup, s))
    (hn : ∀ a, (Note.note c a : List Ev) = []) {k : β → Handler α} (hk : Keeps (Fixed f) l (k (g f))) :
    Keeps (Fixed f) l (send c >>= k) := by
  apply keeps_ask
  intro s hs
  rw [hn, hc]
  refine ⟨l, rfl, fun b hb => ?_⟩
  rw [Line.send_ok hb, hs]
  exact hk

/-- A command without events, and with any answer. -/
theorem keeps_quiet {c : Cmd (Answer β)} (hn : ∀ a, (Note.note c a : List Ev) = []) {k : β → Handler α}
    (hk : ∀ b, Keeps (Fixed f) l (k b)) : Keeps (Fixed f) l (send c >>= k) :=
  keeps_ask fun _ _ => ⟨l, by rw [hn]; rfl, fun b _ => hk b⟩

theorem keeps_attempt_quiet {c : Cmd (Answer β)} (hn : ∀ a, (Note.note c a : List Ev) = []) {k : Except Err β → Handler α}
    (hk : ∀ res, Keeps (Fixed f) l (k res)) : Keeps (Fixed f) l (attempt (send c) >>= k) := by
  intro s _
  rw [hn]
  refine ⟨l, rfl, ?_⟩
  cases (Exec.exec c s).1 with
  | ok b => exact hk (.ok b)
  | refused => exact hk (.error _)
  | lost b => exact hk (.error _)

/-- A command with an event. -/
theorem keeps_event {c : Cmd (Answer β)} {e : Ev} (hn : ∀ a, Note.note c a = (a.executed.map fun _ => e).toList)
    {k : β → Handler α} (hk : ∀ b, Keeps (Fixed f) l (k b)) : Keeps (Fixed f) (e :: l) (send c >>= k) := by
  apply keeps_ask
  intro s _
  rw [hn]
  cases (Exec.exec c s).1 with
  | ok b => exact ⟨l, rfl, fun b _ => hk b⟩
  | lost b => exact ⟨l, rfl, fun b _ => hk b⟩
  | refused => exact ⟨e :: l, rfl, fun b hb => by cases hb⟩

theorem keeps_orRaise {e : Err} {o : Option β} {k : β → Handler α} (h : ∀ b, o = some b → Keeps (Fixed f) l (k b)) :
    Keeps (Fixed f) l (orRaise e o >>= k) := by
  cases o with
  | none => trivial
  | some b => exact h b rfl

theorem keeps_loadName {names : Names} {x : Name} {k : Unit → Handler α} (hk : Keeps (Fixed f) l (k ())) :
    Keeps (Fixed f) l (loadName .NameError names x >>= k) := by
  unfold loadName
  split
  · exact hk
  · trivial

theorem keeps_getUser {sid : String} {k : Except Reply (String × Option String × String) → Handler α}
    (herr : ∀ reply, Keeps (Fixed f) l (k (.error reply)))
    (hok : ∀ userTable id, f.userTable (fmt ((f.session sid).getD (none, none)).1) = some userTable →
      (split ':' userTable)[1]? = some id → Keeps (Fixed f) l (k (.ok (userTable, f.parentAg userTable, id)))) :
    Keeps (Fixed f) l (getUser sid >>= k) := by
  unfold getUser
  simp only [Prog.bind_assoc]
  apply keeps_read (fun f => (f.session sid).getD (none, none)) (fun _ => rfl) (fun _ => rfl)
  apply keeps_quiet (fun _ => rfl)
  intro verfiySid
  split
  · exact herr _
  simp only [Prog.bind_assoc]
  apply keeps_quiet (fun _ => rfl)
  intro live
  split
  · exact herr _
  simp only [Prog.bind_assoc]
  apply keeps_read (·.userTable _) (fun _ => rfl) (fun _ => rfl)
  apply keeps_quiet (fun _ => rfl)
  intro known
  split
  · exact herr _
  simp only [Prog.bind_assoc]
  apply keeps_read (·.parentAg _) (fun _ => rfl) (fun _ => rfl)
  apply keeps_orRaise
  intro userTable hu
  apply keeps_orRaise
  intro id hid
  rw [hu]
  exact hok userTable id hu hid

theorem keeps_buy {t : Receipt} {productid bundle_id : String} {p : Purse} {note : Int → Int → Handler Unit}
    (hnote : ∀ n m (l : List Ev), Keeps (Fixed f) l (note n m)) :
    Keeps (Fixed f) (.unused t :: settling (some p) ((f.goods t.shop bundle_id).join.bind int) t)
      (buy t productid bundle_id p note) := by
  unfold buy
  apply keeps_ask
  intro s _
  -- only a test that comes back shows something
  cases (Exec.exec (Cmd.existsReceipt t) s).1 with
  | refused => exact ⟨_, rfl, fun b hb => by cases hb⟩
  | lost b => exact ⟨_, rfl, fun b hb => by cases hb⟩
  | ok b =>
  cases b with
  | true => exact ⟨_, rfl, fun b hb => by cases hb; trivial⟩
  | false =>
    refine ⟨_, rfl, fun b hb => ?_⟩
    cases hb
    apply keeps_quiet (fun _ => rfl)
    intro known
    cases known with
    | false => trivial
    | true =>
    apply keeps_read (fun f => (f.goods t.shop bundle_id).join) (fun _ => rfl) (fun _ => rfl)
    apply keeps_orRaise
    intro cards hcards
    apply keeps_orRaise
    intro n hn
    rw [hcards, Option.bind_some, hn]
    apply keeps_event (fun _ => rfl)
    intro roomCards
    apply keeps_event (fun _ => rfl)
    intro _
    exact keeps_bind (hnote n roomCards []) fun _ _ => trivial

end Keeps

section Handlers
variable (names : Names) (f : Setup) (r : Req)

theorem keeps_onAppleStorePay (orderSwitch : Int) {note : String → Int → Int → Handler Unit} {afterTry : Bought → Handler Unit}
    (failed bought : String) (hnote : ∀ id n m (l : List Ev), Keeps (Fixed f) l (note id n m))
    (hafter : ∀ res (l : List Ev), Keeps (Fixed f) l (afterTry res)) :
    Keeps (Fixed f) (script f r) (onAppleStorePay names r.shop r orderSwitch note afterTry failed bought) := by
  unfold onAppleStorePay
  by_cases hs : orderSwitch = 0
  · rw [if_pos hs]
    trivial
  rw [if_neg hs]
  apply keeps_loadName
  cases hp : r.purchases with
  | error e => exact keeps_loadName trivial
  | ok purchases =>
  apply keeps_orRaise
  intro purchase hpurchase
  apply keeps_getUser
  · intro reply
    trivial
  intro userTable id hu hid
  have hscript : script f r = .unused ⟨r.shop, purchase.transaction_id⟩ ::
      settling (some (r.shop.purse userTable (f.parentAg userTable) id)) ((f.goods r.shop r.bundle_id).join.bind int)
        ⟨r.shop, purchase.transaction_id⟩ := by
    simp [script, Req.receipt, Req.purse, Req.cards, hp, hpurchase, hu, hid]
  rw [hscript]
  apply keeps_bind (keeps_attempt (keeps_buy (hnote id)))
  intro res l
  split
  · trivial
  · trivial
  · exact keeps_bind (hafter _ l) fun _ _ => keeps_quiet (fun _ => rfl) fun _ => trivial

/-- A purchase keeps to its script. -/
theorem keeps_handler : Keeps (Fixed f) (script f r) (r.handler names) := by
  unfold Req.handler
  cases hs : r.shop with
  | fish =>
    apply keeps_quiet (fun _ => rfl)
    intro orderSwitch
    rw [← hs]
    exact keeps_onAppleStorePay names f r _ _ _ (fun _ _ _ _ => trivial) fun _ _ => trivial
  | hall =>
    -- the switch is read inside a `try`
    apply keeps_attempt_quiet (fun _ => rfl)
    intro res
    rw [← hs]
    apply keeps_onAppleStorePay names f r
    · intro id n m l
      rw [← Prog.bind_ret (send _)]
      exact keeps_quiet (fun _ => rfl) fun _ => trivial
    · intro res l
      cases res <;> trivial

/-- A purchase of the servers shows nothing: it ends at the validator. -/
theorem keeps_servers : Keeps (Fixed f) ([] : List Ev) (r.handler servers) := by
  have hstop : ∀ shop orderSwitch note afterTry failed bought,
      Keeps (Fixed f) ([] : List Ev) (onAppleStorePay servers shop r orderSwitch note afterTry failed bought) := by
    intro shop orderSwitch note afterTry failed bought
    unfold onAppleStorePay
    split
    · trivial
    · trivial
  unfold Req.handler
  split
  · exact keeps_quiet (fun _ => rfl) fun orderSwitch => hstop ..
  · exact keeps_attempt_quiet (fun _ => rfl) fun res => hstop ..

end Handlers

/-! ## Interleaved purchases -/

def Ev.isUnused : Ev → Bool
  | .unused _ => true
  | .credited _ _ | .recorded _ => false

def Ev.isCredited : Ev → Bool
  | .credited _ _ => true
  | .unused _ | .recorded _ => false

abbrev Shops := Conf Ev Err Cmd (Line St) Reply

/-- The requests, none of which has begun. -/
def start (names : Names) (rs : List Req) (s : Line St) : Shops := ⟨⟨s, []⟩, rs.map (Req.handler names)⟩

/-- How often a purse has been credited for the transaction. -/
def timesCredited (rs : List Req) (t : Receipt) (log : List (Nat × Ev)) : Nat :=
  log.countP fun x => x.2.isCredited && rs[x.1]?.bind Req.receipt = some t

def ended : Option (Handler Reply) → Bool
  | some (.cmd _ _) => false
  | _ => true

/-- The request has ended and has credited nothing. -/
def Spent (c : Shops) (i : Nat) : Prop := ended c.progs[i]? ∧ ∀ x ∈ c.world.log, x.1 = i → x.2.isCredited = false

/-- A request finds its transaction unused only if all that found it so before have ended without crediting it. -/
def Alone : Guard Ev Err Cmd (Line St) Reply := fun c _ evs _ =>
  ∀ x ∈ c.world.log, x.2.isUnused → x.2 ∈ evs → Spent c x.1

instance (c : Shops) (i : Nat) (evs : List Ev) (c' : Shops) : Decidable (Alone c i evs c') :=
  inferInstanceAs (Decidable (∀ x ∈ c.world.log, x.2.isUnused → x.2 ∈ evs →
    ended c.progs[x.1]? ∧ ∀ y ∈ c.world.log, y.1 = x.1 → y.2.isCredited = false))

def scripts (rs : List Req) (f : Setup) (i : Nat) : List Ev :=
  match rs[i]? with
  | some r => script f r
  | none => []

section Interleaved
variable {names : Names} {rs : List Req} {s : Line St} {c : Shops} {G : Guard Ev Err Cmd (Line St) Reply}

theorem kept_of_reach (hr : Reach G (start names rs s) c) : Kept (Fixed s.store.setup) (scripts rs s.store.setup) c := by
  apply reach_kept exec_fixed hr
  refine kept_start (I := Fixed s.store.setup) rfl fun i p hp => ?_
  rw [List.getElem?_map] at hp
  obtain ⟨r, hr, rfl⟩ := Option.map_eq_some_iff.1 hp
  unfold scripts
  rw [hr]
  exact keeps_handler names s.store.setup r

/-! ## What the store shows -/

/-- The credits, in their order. -/
def creditsOf (evs : List Ev) : List (Purse × Int) :=
  evs.filterMap fun
    | .credited p n => some (p, n)
    | .unused _ | .recorded _ => none

/-- The events tell the change of the purses, and of every transaction recorded. -/
structure Told (s : St) (evs : List Ev) (s' : St) : Prop where
  purse : s'.purse = incrAll (creditsOf evs) s.purse
  receipt : ∀ t, (s'.receipt t).isSome → (s.receipt t).isSome ∨ .recorded t ∈ evs

theorem Told.trans {s s' s'' : St} {evs evs' : List Ev} (h : Told s evs s') (h' : Told s' evs' s'') :
    Told s (evs ++ evs') s'' := by
  constructor
  · have happ : creditsOf (evs ++ evs') = creditsOf evs ++ creditsOf evs' := List.filterMap_append
    rw [happ, incrAll_append, ← h.purse, h'.purse]
  · intro t ht
    rw [List.mem_append]
    rcases h'.receipt t ht with ht | ht
    · exact (h.receipt t ht).imp_right .inl
    · exact .inr (.inr ht)

/-- Neither a purse nor a record changes. -/
theorem told_same {s s' : St} {evs : List Ev} (hp : s'.purse = s.purse) (hr : s'.receipt = s.receipt)
    (he : creditsOf evs = []) : Told s evs s' :=
  ⟨by rw [hp, he, incrAll_nil], fun t ht => .inl (by rwa [hr] at ht)⟩

theorem told_recorded (s : St) (t : Receipt) (productid : String) :
    Told s [.recorded t] { s with receipt := Function.update s.receipt t (some productid) } := by
  refine ⟨rfl, fun t' ht => ?_⟩
  by_cases h : t' = t
  · rw [h]
    exact .inr List.mem_cons_self
  · left
    dsimp only at ht
    rwa [Function.update_of_ne h] at ht

theorem creditsOf_tested (t : Receipt) (a : Answer Bool) : creditsOf (t.tested a) = [] := by
  rcases a with b | _ | b
  · cases b <;> rfl
  · rfl
  · rfl

theorem exec_told {β : Type} (c : Cmd β) (s : Line St) :
    Told s.store (Note.note c (Exec.exec c s).1) (Exec.exec c s).2.store := by
  have hread : ∀ {γ : Type} (f : St → γ × St) {evs : List Ev}, (∀ s, (f s).2.purse = s.purse) →
      (∀ s, (f s).2.receipt = s.receipt) → creditsOf evs = [] → Told s.store evs (s.send f).2.store := by
    intro γ f evs hp hr he
    exact Line.send_rule (P := fun _ s' => Told s.store evs s') (told_same (hp _) (hr _) he) (told_same rfl rfl he)
  cases c with
  | incrby p n =>
    exact Line.send_rule (P := fun a s' => Told s.store (a.map fun _ => Ev.credited p n).toList s')
      ⟨rfl, fun t ht => .inl ht⟩ (told_same rfl rfl rfl)
  | setReceipt t productid =>
    exact Line.send_rule (P := fun a s' => Told s.store (a.map fun _ => Ev.recorded t).toList s')
      (told_recorded s.store t productid) (told_same rfl rfl rfl)
  | existsReceipt t => exact hread _ (fun _ => rfl) (fun _ => rfl) (creditsOf_tested t _)
  | _ => exact hread _ (fun _ => rfl) (fun _ => rfl) rfl

theorem told_of_reach (hr : Reach G (start names rs s) c) : Told s.store (c.world.log.map Prod.snd) c.world.store.store := by
  refine reach_inv (I := fun c => Told s.store (c.world.log.map Prod.snd) c.world.store.store) ?_ hr (told_same rfl rfl rfl)
  rintro c c' ⟨σ, pre, post, b, k, -⟩ h
  have he := h.trans (exec_told b σ.store)
  rw [after_log, after_store, List.map_append, List.map_map]
  simpa [Function.comp_def] using he

/-! ## What a request has done -/

theorem scripts_cases (rs : List Req) (f : Setup) (i : Nat) :
    scripts rs f i = [] ∨ ∃ r t, rs[i]? = some r ∧ r.receipt = some t ∧
      (scripts rs f i = [.unused t] ∨ ∃ p n, r.purse f = some p ∧ r.cards f = some n ∧
        scripts rs f i = [.unused t, .credited p n, .recorded t]) := by
  unfold scripts
  cases hr : rs[i]? with
  | none => exact .inl rfl
  | some r =>
  dsimp only
  unfold script
  cases ht : r.receipt with
  | none => exact .inl rfl
  | some t =>
  dsimp only
  refine .inr ⟨r, t, rfl, ht, ?_⟩
  cases hp : r.purse f with
  | none => exact .inl rfl
  | some p =>
  cases hn : r.cards f with
  | none => exact .inl rfl
  | some n => exact .inr ⟨p, n, rfl, rfl, rfl⟩

theorem countP_credited_le (rs : List Req) (f : Setup) (i : Nat) : (scripts rs f i).countP Ev.isCredited ≤ 1 := by
  rcases scripts_cases rs f i with hs | ⟨r, t, -, -, hs | ⟨p, n, -, -, hs⟩⟩
  · simp [hs]
  · simp [hs, Ev.isCredited]
  · simp [hs, List.countP_cons, Ev.isCredited]

variable {f : Setup} {i : Nat}

/-- A request that credits has found the transaction of its receipt unused. -/
theorem unused_of_credited (h : Kept (Fixed f) (scripts rs f) c) {p : Purse} {n : Int}
    (hm : (i, Ev.credited p n) ∈ c.world.log) :
    ∃ r t, rs[i]? = some r ∧ r.receipt = some t ∧ (i, Ev.unused t) ∈ c.world.log := by
  have hmem := (h.prefix_script i).subset (mem_eventsOf.2 hm)
  rcases scripts_cases rs f i with hs | ⟨r, t, hr, ht, hs | ⟨p', n', -, -, hs⟩⟩
  · simp [hs] at hmem
  · simp [hs] at hmem
  · have hpn : Ev.credited p n = .credited p' n' := by simpa [hs] using hmem
    rw [← hpn] at hs
    have hbefore : scripts rs f i = [.unused t] ++ .credited p n :: [.recorded t] := hs
    exact ⟨r, t, hr, ht, h.before hbefore hm (by simp) _ List.mem_cons_self⟩

/-- A request that records a transaction has credited its goods. -/
theorem credited_of_recorded (h : Kept (Fixed f) (scripts rs f) c) {t : Receipt} (hm : (i, Ev.recorded t) ∈ c.world.log) :
    ∃ r p n, rs[i]? = some r ∧ r.receipt = some t ∧ r.purse f = some p ∧ r.cards f = some n ∧
      (i, Ev.credited p n) ∈ c.world.log := by
  have hmem := (h.prefix_script i).subset (mem_eventsOf.2 hm)
  rcases scripts_cases rs f i with hs | ⟨r, t', hr, ht, hs | ⟨p, n, hp, hn, hs⟩⟩
  · simp [hs] at hmem
  · simp [hs] at hmem
  · have htt : t = t' := by simpa [hs] using hmem
    subst htt
    have hbefore : scripts rs f i = [.unused t, .credited p n] ++ .recorded t :: [] := hs
    exact ⟨r, p, n, hr, ht, hp, hn, h.before hbefore hm (by simp) _ (by simp)⟩

/-! ## One at a time -/

/-- Of two requests that have found a transaction unused, one has ended without crediting it. -/
def OneLeft (c : Shops) : Prop :=
  ∀ t i j, i ≠ j → (i, Ev.unused t) ∈ c.world.log → (j, Ev.unused t) ∈ c.world.log → Spent c i ∨ Spent c j

/-- A request that is spent stays so. -/
theorem spent_step {c c' : Shops} (hs : Step G c c') (h : Spent c i) : Spent c' i := by
  obtain ⟨σ, pre, post, b, k, -⟩ := hs
  obtain ⟨hended, hlog⟩ := h
  -- the program that moves has not ended
  have hi : i ≠ pre.length := by
    rintro rfl
    simp [ended] at hended
  constructor
  · rwa [show (pre ++ k (Exec.exec b σ.store).1 :: post)[i]? = (pre ++ .cmd b k :: post)[i]? from getElem?_replace hi _ _]
  · intro x hx hxi
    rw [after_log] at hx
    rcases List.mem_append.1 hx with hx | hx
    · exact hlog x hx hxi
    · obtain ⟨e, -, rfl⟩ := List.mem_map.1 hx
      exact absurd hxi.symm hi

theorem oneLeft_step {c c' : Shops} (hs : Step Alone c c') (h : OneLeft c) : OneLeft c' := by
  intro t i j hij hi hj
  have hkeep : ∀ n, Spent c n → Spent c' n := fun n => spent_step hs
  obtain ⟨σ, pre, post, b, k, hg⟩ := hs
  rw [after_log, List.mem_append] at hi hj
  have hlast : ∀ n, (n, Ev.unused t) ∈ (Note.note b (Exec.exec b σ.store).1).map (pre.length, ·) →
      n = pre.length ∧ Ev.unused t ∈ Note.note b (Exec.exec b σ.store).1 := by
    intro n hn
    obtain ⟨e, he, heq⟩ := List.mem_map.1 hn
    cases heq
    exact ⟨rfl, he⟩
  -- at most one of the two finds it unused in this step
  rcases hi with hi | hi
  · rcases hj with hj | hj
    · exact (h t i j hij hi hj).imp (hkeep i) (hkeep j)
    · -- `j` finds it unused now
      exact .inl (hkeep i (hg _ hi rfl (hlast j hj).2))
  · rcases hj with hj | hj
    · exact .inr (hkeep j (hg _ hj rfl (hlast i hi).2))
    · exact absurd ((hlast i hi).1.trans (hlast j hj).1.symm) hij

/-- A credit counts for the transaction its request has found unused. -/
theorem unused_of_counted (hk : Kept (Fixed f) (scripts rs f) c) {t : Receipt} {e : Ev} (hm : (i, e) ∈ c.world.log)
    (he : e.isCredited) (ht : rs[i]?.bind Req.receipt = some t) : (i, Ev.unused t) ∈ c.world.log := by
  cases e with
  | unused | recorded => cases he
  | credited p n =>
    obtain ⟨r, t', hr, ht', hu⟩ := unused_of_credited hk hm
    rw [hr, Option.bind_some, ht'] at ht
    rwa [← Option.some.inj ht]

theorem timesCredited_le (hk : Kept (Fixed f) (scripts rs f) c) (h : OneLeft c) (t : Receipt) :
    timesCredited rs t c.world.log ≤ 1 := by
  by_cases h0 : timesCredited rs t c.world.log = 0
  · omega
  obtain ⟨⟨j, e⟩, hm, hx⟩ := List.countP_pos_iff.1 (Nat.pos_of_ne_zero h0)
  simp only [Bool.and_eq_true, decide_eq_true_eq] at hx
  -- all credits of the transaction are the request's
  have hsame : ∀ y ∈ c.world.log, (y.2.isCredited && rs[y.1]?.bind Req.receipt = some t) = true →
      (y.1 = j && y.2.isCredited) = true := by
    rintro ⟨i, e'⟩ hm' hy
    simp only [Bool.and_eq_true, decide_eq_true_eq] at hy ⊢
    refine ⟨?_, hy.1⟩
    by_contra hij
    rcases h t i j hij (unused_of_counted hk hm' hy.1 hy.2) (unused_of_counted hk hm hx.1 hx.2) with hs | hs
    · exact Bool.false_ne_true ((hs.2 _ hm' rfl).symm.trans hy.1)
    · exact Bool.false_ne_true ((hs.2 _ hm rfl).symm.trans hx.1)
  calc timesCredited rs t c.world.log
      ≤ c.world.log.countP fun y => y.1 = j && y.2.isCredited := List.countP_mono_left hsame
    _ = (eventsOf j c.world.log).countP Ev.isCredited := (countP_eventsOf ..).symm
    _ ≤ (scripts rs f j).countP Ev.isCredited := (hk.prefix_script j).sublist.countP_le
    _ ≤ 1 := countP_credited_le rs f j

/-- On every schedule a transaction is recorded only after its goods were credited. -/
theorem recorded_credited (hr : Reach G (start names rs s) c) (t : Receipt) (ht : (c.world.store.store.receipt t).isSome) :
    (s.store.receipt t).isSome ∨ ∃ i r p n, rs[i]? = some r ∧ r.receipt = some t ∧ r.purse s.store.setup = some p ∧
      r.cards s.store.setup = some n ∧ (i, Ev.credited p n) ∈ c.world.log := by
  rcases (told_of_reach hr).receipt t ht with ht | ht
  · exact .inl ht
  · obtain ⟨⟨i, e⟩, hm, rfl⟩ := List.mem_map.1 ht
    exact .inr ⟨i, credited_of_recorded (kept_of_reach hr) hm⟩

/-- The purchases of the servers show nothing, on any schedule. -/
theorem log_servers (hr : Reach G (start servers rs s) c) : c.world.log = [] := by
  have hkept : Kept (Fixed s.store.setup) (fun _ => []) c := by
    apply reach_kept exec_fixed hr
    refine kept_start (I := Fixed s.store.setup) rfl fun i p hp => ?_
    rw [List.getElem?_map] at hp
    obtain ⟨r, -, rfl⟩ := Option.map_eq_some_iff.1 hp
    exact keeps_servers s.store.setup r
  refine List.eq_nil_iff_forall_not_mem.2 fun x hx => ?_
  have hmem := (hkept.prefix_script x.1).subset (mem_eventsOf.2 hx)
  exact absurd hmem List.not_mem_nil

end Interleaved

/-- Whatever names are bound: where a request finds its transaction unused only after all others that did have ended
without crediting it, a transaction is credited at most once, and is recorded only after its goods were. The purses
change by the credits and by nothing else. -/
theorem imported_credited_once {names : Names} {rs : List Req} {s : Line St} {c : Shops} (hr : Reach Alone (start names rs s) c) :
    (∀ t, timesCredited rs t c.world.log ≤ 1) ∧
      (∀ t, (c.world.store.store.receipt t).isSome → (s.store.receipt t).isSome ∨
        ∃ i r p n, rs[i]? = some r ∧ r.receipt = some t ∧ r.purse s.store.setup = some p ∧
          r.cards s.store.setup = some n ∧ (i, Ev.credited p n) ∈ c.world.log) ∧
      c.world.store.store.purse = incrAll (creditsOf (c.world.log.map Prod.snd)) s.store.purse := by
  have hleft : OneLeft c :=
    reach_inv (I := OneLeft) (fun _ _ => oneLeft_step) hr fun t i j _ hi => absurd hi (by simp [start])
  exact ⟨timesCredited_le (kept_of_reach hr) hleft, recorded_credited hr, (told_of_reach hr).purse⟩

/-! ## A small shop -/

/-- One user, and goods of 60 coins. -/
def sampleShop (outcomes : List Outcome) : Line St where
  outcomes := outcomes
  store :=
    { setup :=
        { orderSwitch := fun _ => some "1"
          session := fun sid => if sid = "sid" then some (some "acc", some "7") else none
          platform := fun _ => none
          userTable := fun account => if account = "acc" then some "users:7" else none
          isUser := fun userTable => userTable = "users:7"
          parentAg := fun _ => none
          goods := fun _ bundle_id => if bundle_id = "fish.60" then some (some "60") else none }
      purse := fun _ => none
      receipt := fun _ => none
      dayUse := fun _ _ => [] }

def sampleReq : Req := ⟨.fish, "sid", "fish.60", .ok [⟨"coins60", "1000000412345678"⟩], "2018-06-01"⟩

/-- Where the validator is imported, two requests with one receipt both find its transaction unused. -/
example : timesCredited [sampleReq, sampleReq] ⟨.fish, "1000000412345678"⟩ (turns (List.replicate 8 0 ++ List.replicate 8 1 ++
    List.replicate 5 0 ++ List.replicate 5 1) (start imported [sampleReq, sampleReq] (sampleShop []))).world.log = 2 := by
  decide +kernel

/-- A replay after a purchase whose connection broke before its credit. -/
example : timesCredited [sampleReq, sampleReq] ⟨.fish, "1000000412345678"⟩ (turns (List.replicate 11 0 ++ List.replicate 13 1)
    (start imported [sampleReq, sampleReq] (sampleShop (List.replicate 10 .done ++ [.refused])))).world.log ≤ 1 :=
  (imported_credited_once (reach_turns (by decide +kernel))).1 _

/-! ## The servers' own purchases -/

/-- On every schedule of purchases of the servers, a transaction is credited at most once, and is recorded only after
its goods were. The purses change by the credits and by nothing else. -/
theorem transaction_credited_once {rs : List Req} {s : Line St} {c : Shops} (hr : Reach noGuard (start servers rs s) c) :
    (∀ t, timesCredited rs t c.world.log ≤ 1) ∧
      (∀ t, (c.world.store.store.receipt t).isSome → (s.store.receipt t).isSome ∨
        ∃ i r p n, rs[i]? = some r ∧ r.receipt = some t ∧ r.purse s.store.setup = some p ∧
          r.cards s.store.setup = some n ∧ (i, Ev.credited p n) ∈ c.world.log) ∧
      c.world.store.store.purse = incrAll (creditsOf (c.world.log.map Prod.snd)) s.store.purse := by
  refine ⟨fun t => ?_, recorded_credited hr, (told_of_reach hr).purse⟩
  rw [log_servers hr]
  exact Nat.zero_le 1

/-- Two requests with one receipt, each of which has read the switch before the other ends. -/
theorem transaction_credited_once_replayed : timesCredited [sampleReq, sampleReq] ⟨.fish, "1000000412345678"⟩
    (turns [0, 1, 0, 1] (start servers [sampleReq, sampleReq] (sampleShop []))).world.log ≤ 1 :=
  (transaction_credited_once (reach_turns (allowed_noGuard [0, 1, 0, 1] _))).1 _

end FishWeb.Apple
