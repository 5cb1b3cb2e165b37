import FishWeb.Question.Limits
import FishWeb.Server.Parts
/-!
# One active session

The newest sid of a user is kept apart from the records of his sessions, so an
endpoint refuses an older sid only if it compares the two. `Compares` says which
endpoints do. What the others change for an old sid is what they would for the
newest, as long as its record lives.
-/
open Python Prog Counters Calendar Runs FishWeb.Common

namespace FishWeb.Server

open Function (update)

/-! ## What a request leaves alone -/

section Serve
variable {C : Type → Type} {S α : Type} [Exec C S] [Note C (Amount × Int)] {handler : Prog Err C α} {view : S}
  {put : S → St → St} {s : St}

/-- An endpoint changes an amount by its increments. -/
theorem amounts_serve : (serve handler view put s).amounts = incrAll (trace (Amount × Int) handler view) s.amounts := rfl

/-- The endpoint adds nothing to what the user has. -/
def Spares (uid : String) (handler : Prog Err C α) (view : S) : Prop := ∀ p ∈ trace (Amount × Int) handler view, ¬p.1.of uid

theorem spares_of_nil {uid : String} (h : trace (Amount × Int) handler view = []) : Spares uid handler view := by
  intro p hp
  rw [h] at hp
  exact absurd hp List.not_mem_nil

theorem val_serve {uid : String} (h : Spares uid handler view) {a : Amount} (ha : a.of uid) :
    val (serve handler view put s).amounts a = val s.amounts a := by
  rw [amounts_serve, val_incrAll, net_eq_zero, Int.add_zero]
  rintro p hp rfl
  exact h p hp ha

end Serve

/-! ## A sid without a record -/

section Gone
variable {uid sid : String}

/-- The command adds nothing to what the user has. -/
def Spared (uid : String) {C : Type → Type} [Note C (Amount × Int)] ⦃β : Type⦄ (c : C β) : Prop :=
  ∀ b, ∀ p ∈ (Note.note c b : List (Amount × Int)), ¬p.1.of uid

theorem spares_of_only {C : Type → Type} {S α : Type} [Exec C S] [Note C (Amount × Int)] {handler : Prog Err C α}
    (h : Only (Spared uid) handler) (view : S) : Spares uid handler view :=
  h.trace_all (fun _ _ b hc => hc b) view

theorem boxSave_gone {v : Box.St} (h : v.session sid = none) (item_id num : String) :
    Spares uid (Box.boxSave sid item_id num) v := by
  unfold Box.boxSave
  cases int num with
  | none => exact spares_of_nil rfl
  | some n =>
    apply spares_of_nil
    rw [orRaise_some, ret_bind]
    split
    · rfl
    · simp [call, Note.note, h, Box.isEmpty]

theorem spared_hincrby {p : Box.Place} {n : Int} : Spared uid (Box.Cmd.hincrby p n) ↔ ¬(Amount.ofPlace p).of uid := by
  simp [Spared, Note.note]

theorem hincrbyStr_spared {p : Box.Place} (hp : ¬(Amount.ofPlace p).of uid) (num : String) :
    Only (Spared uid) (Box.hincrbyStr p num) := by
  unfold Box.hincrbyStr
  apply (only_orRaise_bind (Spared uid) _ _ _).2
  rintro n -
  exact ⟨spared_hincrby.2 hp, fun _ => trivial⟩

/-- An endpoint whose session has no record goes on as the user `None`. -/
theorem spares_box {α : Type} {v : Box.St} {k : Option String → Box.Handler α} (h : v.session sid = none)
    (hk : Only (Spared uid) (k none)) : Spares uid (call (.sessionUid sid) >>= k) v := by
  have htrace : trace (Amount × Int) (call (Box.Cmd.sessionUid sid) >>= k) v = trace (Amount × Int) (k none) v := by
    rw [call_bind, trace_step, Box.exec_sessionUid, h]
    rfl
  intro p hp
  rw [htrace] at hp
  exact spares_of_only hk v p hp

/-- What the user `None` has is no other user's. -/
structure Nobody (uid : String) : Prop where
  user : ∀ field, ¬(Amount.user (userTable "None") field).of uid
  item : ∀ item_id, ¬(Amount.item "None" item_id).of uid
  box : ∀ item_id, ¬(Amount.box "None" item_id).of uid
  playerUid : ∀ item_id, ¬(Amount.playerUid "None" item_id).of uid
  sum : ∀ key, ¬(Amount.sum key).of uid

theorem nobody (hu : uid ≠ "None") : Nobody uid :=
  ⟨fun _ h => hu (userTable_injective h).symm, fun _ => hu.symm, fun _ => hu.symm, fun _ => hu.symm, fun _ h => h⟩

theorem takeOut_spared (hu : uid ≠ "None") (item_id num : String) (n : Int) :
    Only (Spared uid) (Box.takeOut "None" item_id num n) := by
  have hnone := nobody hu
  have hcredit : Only (Spared uid) (Box.takeCredit "None" item_id num) := by
    have hcoin := hincrbyStr_spared (p := .coin "None") (hnone.user "coin") num
    have hitem := hincrbyStr_spared (p := .item "None" item_id) (hnone.item item_id) num
    have hdiamond := hincrbyStr_spared (p := .diamond "None") (hnone.user "diamond") num
    unfold Box.takeCredit
    by_cases h₁ : item_id = "1"
    · rw [if_pos h₁, if_neg (by simp [h₁])]
      exact only_bind (Spared uid) hdiamond fun _ => hitem
    · rw [if_neg h₁]
      exact (only_ite (Spared uid) _ _ _).2 ⟨fun _ => hcoin, fun _ => hitem⟩
  exact only_bind (Spared uid) hcredit fun _ => ⟨spared_hincrby.2 (hnone.box item_id), fun _ => trivial⟩

theorem boxTake_gone {v : Box.St} (hu : uid ≠ "None") (h : v.session sid = none) (item_id num : String) :
    Spares uid (Box.boxTake sid item_id num) v := by
  unfold Box.boxTake
  cases int num with
  | none => exact spares_of_nil rfl
  | some n =>
    rw [orRaise_some, ret_bind]
    split
    · exact spares_of_nil rfl
    refine spares_box h ?_
    simp [Box.uidStr, call, takeOut_spared hu, Spared, Note.note]

theorem currencyExchange_gone {v : Box.St} (hu : uid ≠ "None") (h : v.session sid = none) (cid : String) :
    Spares uid (Box.currencyExchange cid sid) v := by
  unfold Box.currencyExchange
  refine spares_box h ?_
  have hnone := nobody hu
  simp [Box.uidStr, call, Spared, Note.note, Amount.ofPlace, hnone.user, hnone.box, hnone.playerUid, hnone.sum]

theorem vipChargeRecord_spared (hu : uid ≠ "None") (price : String) : Only (Spared uid) (Box.vipChargeRecord "None" price) := by
  have hcharge : Spared uid (Box.Cmd.hincrbyCharge "None" price) := by
    intro b p hp
    cases b with
    | none => exact absurd hp List.not_mem_nil
    | some n =>
      obtain ⟨e, he, rfl⟩ := List.mem_map.1 hp
      obtain ⟨k, -, rfl⟩ := List.mem_map.1 he
      exact (nobody hu).user "vip_charge"
  unfold Box.vipChargeRecord
  refine ⟨hcharge, fun sum => (only_orRaise_bind (Spared uid) _ _ _).2 ?_⟩
  rintro charge_sum -
  refine only_forEach (Spared uid) ?_
  rintro ⟨door, vip_level⟩ -
  apply (only_ite (Spared uid) _ _ _).2
  exact ⟨fun _ => ⟨fun _ _ hp => absurd hp List.not_mem_nil, fun _ => trivial⟩, fun _ => trivial⟩

theorem buyCoin_gone {v : Box.St} (hu : uid ≠ "None") (h : v.session sid = none) (price goodId : String) :
    Spares uid (Box.buyCoin sid price goodId) v := by
  unfold Box.buyCoin
  refine spares_box h ?_
  have hnone := nobody hu
  simp [Box.uidStr, call, Spared, Note.note, Amount.ofPlace, hnone.box, hnone.sum]
  intro b hb goods price hprice diamond
  exact only_bind (Spared uid) (vipChargeRecord_spared hu _) fun _ => trivial

theorem spares_mail {α : Type} {v : Mail.St} {k : Option String → Mail.Handler α} (h : v.session sid = none)
    (hk : Only (Spared uid) (k none)) : Spares uid (call (.sessionUid sid) >>= k) v := by
  have htrace : trace (Amount × Int) (call (Mail.Cmd.sessionUid sid) >>= k) v = trace (Amount × Int) (k none) v := by
    rw [call_bind, trace_step, Mail.exec_sessionUid, h]
    rfl
  intro p hp
  rw [htrace] at hp
  exact spares_of_only hk v p hp

theorem payAttach_spared (hu : uid ≠ "None") (c : Mail.Attach) : Only (Spared uid) (Mail.payAttach "None" c) := by
  have hnone := nobody hu
  simp [Mail.payAttach, call, Spared, Note.note, Amount.ofMail, hnone.user]

theorem getAttach_gone {v : Mail.St} (hu : uid ≠ "None") (h : v.session sid = none) (eid : String) :
    Spares uid (Mail.getAttach sid eid) v := by
  unfold Mail.getAttach
  refine spares_mail h ⟨fun _ _ hp => absurd hp List.not_mem_nil, fun found => ?_⟩
  cases found with
  | none => trivial
  | some attach =>
    show Only (Spared uid) (forEach attach _ >>= _)
    refine only_bind (Spared uid) (only_forEach (Spared uid) fun c _ => payAttach_spared hu c) fun _ => ?_
    simp [call, Spared, Note.note]

theorem sendMail_gone {v : Mail.St} (hu : uid ≠ "None") (h : v.session sid = none) (now : Mail.Clock)
    (recv_uid coin warhead : String) : Spares uid (Mail.sendMail now sid recv_uid coin warhead) v := by
  unfold Mail.sendMail
  refine spares_mail h ?_
  have hcoin : ¬(Amount.ofMail .coin (fmt none)).of uid := (nobody hu).user "coin"
  simp [call, Spared, Note.note, hcoin]

/-! ### Endpoints that ask for the record -/

theorem surverAnswer_gone {s : St} (h : s.shared.session sid = none) (now : Date)
    (data : Option (Except Err (List (String × String)))) : (run (surverAnswer now sid data) s).2 = s := by
  have hget : run (getInfoBySid sid : Handler Info) s = (.ok (s.shared.info sid), s) := rfl
  have hlive : run (ask (.existsSession sid) : Handler Bool) s = (.ok false, s) := by
    show (Except.ok (s.shared.session sid).isSome, s) = _
    rw [h]
    rfl
  unfold surverAnswer
  cases data with
  | none => rfl
  | some data =>
    dsimp only
    rw [run_bind_ok hget, run_bind_ok hlive]
    rfl

/-- An endpoint that looks for the record, and does not find it. -/
theorem spares_gone {D : Type → Type} {S α : Type} [HasShared S] [Exec D S] [Note D (Amount × Int)] {v : S}
    {k : Info → Bool → Prog Err (With D) α} (h : (HasShared.shared v).session sid = none)
    (hk : Only (Spared uid) (k ((HasShared.shared v).info sid) false)) :
    Spares uid (getInfoBySid sid >>= fun info => ask (.existsSession sid) >>= k info) v := by
  have htrace : trace (Amount × Int) (getInfoBySid sid >>= fun info => ask (.existsSession sid) >>= k info) v =
      trace (Amount × Int) (k ((HasShared.shared v).info sid) ((HasShared.shared v).session sid).isSome) v := rfl
  intro p hp
  rw [htrace, h] at hp
  exact spares_of_only hk v p hp

theorem exchageCode_gone {v : Benefit.St} (h : v.setup.shared.session sid = none) (code : String) :
    Spares uid (Benefit.doExchageCode sid code) v := by
  unfold Benefit.doExchageCode
  exact spares_gone h trivial

theorem question_gone {v : Question.St} (h : v.setup.shared.session sid = none) (now : Date) (draws : Dice.Draws)
    (submitted : Question.Submitted) : Spares uid (Question.answer now draws sid submitted) v := by
  unfold Question.answer
  split
  · exact spares_of_nil rfl
  · exact spares_gone h trivial

/-- Being shown the questions pays nothing. -/
theorem question_spares (now : Date) (draws : Dice.Draws) (sid : String) (v : Question.St) :
    Spares uid (Question.question now draws sid) v := by
  refine (Question.only_question now draws sid).trace_all ?_ v
  rintro β (a | c) b hc p hp
  · exact absurd hp List.not_mem_nil
  · cases c <;> first | exact absurd hp List.not_mem_nil | exact hc.elim

/-- Nor does opening them. -/
theorem opening_spares (now : Date) (sid : String) (v : Question.St) : Spares uid (Question.setQuestionStart now sid) v := by
  have hask : ∀ ⦃β : Type⦄ (a : Ask β), Spared uid (With.ask a : Question.Cmd β) := fun _ _ _ _ hp => absurd hp List.not_mem_nil
  refine spares_of_only ?_ v
  apply only_bind (Spared uid) (only_getInfoBySid hask sid)
  intro info
  refine ⟨hask _, fun live => ?_⟩
  refine (only_ite _ _ _ _).2 ⟨fun _ => trivial, fun _ => only_bind _ (only_checkSpringTime hask now 4) ?_⟩
  rintro ⟨isIntime, msg⟩
  refine (only_ite _ _ _ _).2 ⟨fun _ => trivial, fun _ => ⟨fun _ _ hp => absurd hp List.not_mem_nil, fun _ => trivial⟩⟩

end Gone

/-! ## A sid that another has taken the place of -/

/-- The last login that came up with the sid was one of the user, whose newest login came up with another. The list has
the newest login first. -/
def Stale (logins : List Started) (sid uid : String) : Prop :=
  (logins.find? (·.sid = sid)).map (·.uid) = some uid ∧ (logins.find? (·.uid = uid)).map (·.sid) ≠ some sid

instance (logins : List Started) (sid uid : String) : Decidable (Stale logins sid uid) :=
  inferInstanceAs (Decidable (_ ∧ _))

/-- The newest sid of a user is that of his newest login, and a record is of the last login with its sid. -/
structure Kept (logins : List Started) (s : Shared) : Prop where
  newest : ∀ uid x, logins.find? (·.uid = uid) = some x → s.platform uid = some x.sid ∧ x.sid ≠ ""
  record : ∀ sid x, logins.find? (·.sid = sid) = some x → ∀ r, s.session sid = some r → r.2 = x.uid

theorem Kept.stale {logins : List Started} {s : Shared} (h : Kept logins s) {sid uid : String} (hs : Stale logins sid uid)
    {r : String × String} (hr : s.session sid = some r) :
    r.2 = uid ∧ ∃ newer, s.platform uid = some newer ∧ newer ≠ "" ∧ newer ≠ sid := by
  obtain ⟨hlast, hnewest⟩ := hs
  obtain ⟨x, hx, rfl⟩ := Option.map_eq_some_iff.1 hlast
  refine ⟨h.record sid x hx r hr, ?_⟩
  cases hy : logins.find? (·.uid = x.uid) with
  | none =>
    have hmem := List.mem_of_find?_eq_some hx
    exact absurd (List.find?_eq_none.1 hy x hmem) (by simp)
  | some y =>
    obtain ⟨hplatform, hne⟩ := h.newest x.uid y hy
    rw [hy] at hnewest
    exact ⟨y.sid, hplatform, hne, fun he => hnewest (congrArg some he)⟩

/-- The session check refuses it. -/
theorem Kept.verfiy {logins : List Started} {s : Shared} (h : Kept logins s) {sid uid : String} (hs : Stale logins sid uid) :
    ∃ e, s.verfiy sid = .error e := by
  cases hr : s.session sid with
  | none =>
    unfold Shared.verfiy
    dsimp only
    rw [hr]
    split
    · exact ⟨_, rfl⟩
    split
    · exact ⟨_, rfl⟩
    exact ⟨_, rfl⟩
  | some r =>
    obtain ⟨hrec, newer, hplatform, hne, hother⟩ := h.stale hs hr
    have hinfo : (s.info sid).verfiySid = some newer := by
      rw [Shared.info, hr, ← hplatform, ← hrec]
      rfl
    refine ⟨⟨-4, "账号已在其他地方登录", some "1"⟩, ?_⟩
    unfold Shared.verfiy
    rw [hinfo]
    exact if_pos ⟨hne, hother.symm⟩

/-! ## Endpoints that compare -/

section Compare
variable {uid sid : String}

theorem benefit_refused {v : Benefit.St} {e : Refusal} (h : v.setup.shared.verfiy sid = .error e) {r : Benefit.Req}
    (hsid : (Req.benefit r).sid = some sid) (hcode : ∀ code, r ≠ .exchageCode sid code) : Spares uid r.handler v := by
  apply spares_of_nil
  cases r <;> cases hsid
  case takeBenefit now token => exact trace_refused h
  case getBenefitInfo now token => exact trace_refused h
  case signMonth now day => exact trace_refused h
  case share now => exact trace_refused h
  case exchageCode code => exact absurd rfl (hcode code)

theorem sign_refused {v : Sign.St} {e : Refusal} (h : v.setup.shared.verfiy sid = .error e) {r : Sign.Req}
    (hsid : (Req.sign r).sid = some sid) : Spares uid r.handler v := by
  apply spares_of_nil
  cases r <;> cases hsid
  case doSign now signDay => exact trace_refused h
  case getSignInfo now => exact trace_refused h

/-- An older sid, or one without a record, as a purchase sees it. -/
def Outdated (f : Apple.Setup) (sid : String) : Prop :=
  f.session sid = none ∨ ∃ account uid newer, f.session sid = some (account, uid) ∧ f.platform (fmt uid) = some newer ∧
    newer ≠ "" ∧ newer ≠ sid

theorem getUser_refused {v : Apple.St} (h : Outdated v.setup sid) :
    ∃ reply, run (Apple.getUser sid) (⟨v, []⟩ : Line Apple.St) = (.ok (.error reply), ⟨v, []⟩) := by
  rcases h with hnone | ⟨account, u, newer, hsession, hplatform, hne, hother⟩
  · by_cases hnew : (v.setup.platform "None").getD "" ≠ "" ∧ sid ≠ (v.setup.platform "None").getD ""
    · exact ⟨_, by simp [Apple.getUser, Apple.send, Prog.ask, Exec.exec, Line.send, hnone, fmt, hnew]; rfl⟩
    · exact ⟨_, by simp [Apple.getUser, Apple.send, Prog.ask, Exec.exec, Line.send, hnone, fmt, hnew]; rfl⟩
  · exact ⟨_, by simp [Apple.getUser, Apple.send, Prog.ask, Exec.exec, Line.send, hsession, hplatform, hne, hother.symm]; rfl⟩

theorem spares_bind {C : Type → Type} {S α β : Type} [Exec C S] [Note C (Amount × Int)] {p : Prog Err C α}
    {f : α → Prog Err C β} {a : α} {v v' : S} (hrun : run p v = (.ok a, v')) (hp : Spares uid p v) (hf : Spares uid (f a) v') :
    Spares uid (p >>= f) v := by
  intro e he
  rw [trace_bind_ok hrun] at he
  rcases List.mem_append.1 he with he | he
  · exact hp e he
  · exact hf e he

theorem getUser_spared (sid : String) : Only (Spared uid) (Apple.getUser sid) := by
  have hsend : ∀ {β : Type} (c : Apple.Cmd (Answer β)), Spared uid c → Only (Spared uid) (Apple.send c) := by
    intro β c hc
    refine ⟨hc, fun a => ?_⟩
    cases a <;> trivial
  have hnil : ∀ p ∈ ([] : List (Amount × Int)), ¬p.1.of uid := fun p hp => absurd hp List.not_mem_nil
  refine only_bind _ (hsend _ fun _ => hnil) ?_
  rintro ⟨account, u⟩
  refine only_bind _ (hsend _ fun _ => hnil) fun platform => (only_ite _ _ _ _).2 ⟨fun _ => trivial, fun _ => ?_⟩
  refine only_bind _ (hsend _ fun _ => hnil) fun live => (only_ite _ _ _ _).2 ⟨fun _ => trivial, fun _ => ?_⟩
  refine only_bind _ (hsend _ fun _ => hnil) fun table => only_bind _ (hsend _ fun _ => hnil) fun isUser => ?_
  refine (only_ite _ _ _ _).2 ⟨fun _ => trivial, fun _ => only_bind _ (hsend _ fun _ => hnil) fun groupId => ?_⟩
  simp

theorem spares_loadName {C : Type → Type} {S α ι : Type} [Exec C S] [Note C (Amount × Int)] {p : Unit → Prog Err C α} {v : S}
    (names : ι → Bool) (x : ι) (h : Spares uid (p ()) v) : Spares uid (loadName .NameError names x >>= p) v := by
  unfold loadName
  split
  · exact h
  · exact spares_of_nil rfl

theorem onAppleStorePay_refused {v : Apple.St} {r : Apple.Req} (h : Outdated v.setup r.sid) (names : Apple.Names) (shop : Apple.Shop)
    (orderSwitch : Int) (note : String → Int → Int → Apple.Handler Unit) (afterTry : Apple.Bought → Apple.Handler Unit)
    (failed bought : String) :
    Spares uid (Apple.onAppleStorePay names shop r orderSwitch note afterTry failed bought) (⟨v, []⟩ : Line Apple.St) := by
  unfold Apple.onAppleStorePay
  split
  · exact spares_of_nil rfl
  apply spares_loadName
  split
  · exact spares_loadName names _ (spares_of_nil rfl)
  next purchases _ =>
  cases purchases[0]? with
  | none => exact spares_of_nil rfl
  | some purchase =>
    obtain ⟨reply, hreply⟩ := getUser_refused h
    rw [orRaise_some, ret_bind]
    exact spares_bind hreply (spares_of_only (getUser_spared r.sid) _) (spares_of_nil rfl)

theorem apple_refused {v : Apple.St} {r : Apple.Req} (h : Outdated v.setup r.sid) (names : Apple.Names) :
    Spares uid (r.handler names) (⟨v, []⟩ : Line Apple.St) := by
  unfold Apple.Req.handler
  split
  · have hget : run (Apple.send (.getOrderSwitch .fish)) (⟨v, []⟩ : Line Apple.St) = (.ok (v.setup.orderSwitch .fish), ⟨v, []⟩) := rfl
    exact spares_bind hget (spares_of_nil rfl) (onAppleStorePay_refused h _ _ _ _ _ _ _)
  · have hget : run (attempt (Apple.send (.getOrderSwitch .hall))) (⟨v, []⟩ : Line Apple.St) =
        (.ok (.ok (v.setup.orderSwitch .hall)), ⟨v, []⟩) := rfl
    exact spares_bind hget (spares_of_nil rfl) (onAppleStorePay_refused h _ _ _ _ _ _ _)

end Compare

/-! ## Logging in -/

section Login
variable (f : Form) (s : St)

/-- The command starts no session. -/
def Idle : ⦃β : Type⦄ → Cmd β → Prop
  | _, .own (.setPlatform _ _) | _, .own (.hmsetSession _ _ _) => False
  | _, _ => True

theorem only_findUser : Only Idle (findUser f) := by
  unfold findUser
  simp [send, Common.ask, Idle]

theorem run_idle {α : Type} {p : Handler α} (h : Only Idle p) (s : St) :
    (run p s).2.shared = s.shared ∧ trace Started p s = [] := by
  constructor
  · refine h.run_inv (I := fun s' : St => s'.shared = s.shared) ?_ rfl
    rintro β (a | c) s' hc hs
    · exact hs
    · cases c <;> first | exact hs | exact hc.elim
  · refine h.trace_nil ?_ s
    rintro β (a | c) b hc
    · rfl
    · cases c <;> first | rfl | exact hc.elim

theorem only_surverAnswer (now : Date) (sid : String) (data : Option (Except Err (List (String × String)))) :
    Only Idle (surverAnswer now sid data) := by
  cases data with
  | none => trivial
  | some data =>
    refine ⟨trivial, fun _ => ⟨trivial, fun _ => ⟨trivial, fun live => (only_ite Idle _ _ _).2 ⟨fun _ => trivial, fun _ => ?_⟩⟩⟩⟩
    refine ⟨trivial, fun answered => (only_ite Idle _ _ _).2 ⟨fun _ => trivial, fun _ => ⟨trivial, fun _ => ?_⟩⟩⟩
    cases data with
    | error e => trivial
    | ok l => exact ⟨trivial, fun _ => trivial⟩

/-- A login starts no session, or one that had no record, and is the newest then. -/
theorem login_cases : (trace Started (doLogin f) s = [] ∧ (run (doLogin f) s).2.shared = s.shared) ∨
    ∃ sid account id, trace Started (doLogin f) s = [⟨sid, id⟩] ∧ sid ≠ "" ∧
      (run (doLogin f) s).2.shared = recorded (newest s.shared id sid) sid account id := by
  obtain ⟨hshared, htrace⟩ := run_idle (only_findUser f) s
  unfold doLogin
  match hrun : run (findUser f) s with
  | (.error e, s') =>
    rw [hrun] at hshared
    rw [run_bind_error hrun, trace_bind_error hrun]
    exact .inl ⟨htrace, hshared⟩
  | (.ok (.error reply), s') =>
    rw [hrun] at hshared
    rw [run_bind_ok hrun, trace_bind_ok hrun, htrace]
    exact .inl ⟨rfl, hshared⟩
  | (.ok (.ok (account, id)), s') =>
    rw [hrun] at hshared
    rw [run_bind_ok hrun, trace_bind_ok hrun, htrace]
    dsimp only
    have hsid : (if f.login_type = 3 then "0" else f.digest.val) ≠ "" := by
      split
      · decide
      · exact f.digest.property
    generalize (if f.login_type = 3 then "0" else f.digest.val) = sid at hsid ⊢
    have hlive : run (ask (.existsSession sid) : Handler Bool) s' = (.ok (s'.shared.session sid).isSome, s') := rfl
    have hquiet : trace Started (ask (.existsSession sid) : Handler Bool) s' = [] := rfl
    unfold openSession
    rw [run_bind_ok hlive, trace_bind_ok hlive, hquiet]
    cases (s'.shared.session sid).isSome with
    | true => exact .inl ⟨rfl, hshared⟩
    | false =>
      refine .inr ⟨sid, account, id, rfl, hsid, ?_⟩
      rw [← hshared]
      rfl

end Login

/-! ## Runs -/

/-- The state, and the sessions that logins came up with, the newest first. -/
structure Hist where
  st : St
  logins : List Started

def hstep (r : Req) (h : Hist) : Hist := ⟨step r h.st, (r.started h.st).reverse ++ h.logins⟩

/-- The endpoint compares the sid with the newest of the user, or pays nothing. -/
def Req.compares : Req → Bool
  | .benefit (.exchageCode _ _) => false
  | .benefit _ | .sign _ | .apple _ _ => true
  | .question (.answer _ _ _ _) => false
  | .question _ => true
  | _ => false

/-- An older sid goes to an endpoint that compares, or has no record any more. -/
def Sound (r : Req) (h : Hist) : Prop :=
  ∀ sid uid, r.sid = some sid → Stale h.logins sid uid →
    r.compares = true ∨ h.st.shared.session sid = none ∧ uid ≠ "None"

/-- A request with an older sid of a user leaves what he has. -/
def Single (r : Req) (h : Hist) : Prop :=
  ∀ sid uid, r.sid = some sid → Stale h.logins sid uid →
    ∀ a : Amount, a.of uid → val (step r h.st).amounts a = val h.st.amounts a

theorem kept_nil (s : Shared) : Kept [] s where
  newest _ _ hx := absurd hx (by simp)
  record _ _ hx := absurd hx (by simp)

theorem Kept.login {logins : List Started} {s : Shared} (h : Kept logins s) {sid : String} (hne : sid ≠ "")
    (account id : String) : Kept (⟨sid, id⟩ :: logins) (recorded (Server.newest s id sid) sid account id) where
  newest uid x hx := by
    rw [List.find?_cons] at hx
    by_cases hid : id = uid
    · simp only [hid, decide_true, Option.some.injEq] at hx
      subst hx hid
      exact ⟨Function.update_self .., hne⟩
    · simp only [hid, decide_false] at hx
      have hold := h.newest uid x hx
      refine ⟨?_, hold.2⟩
      exact (Function.update_of_ne (Ne.symm hid) _ _).trans hold.1
  record sid' x hx r hr := by
    rw [List.find?_cons] at hx
    by_cases hsid : sid = sid'
    · simp only [hsid, decide_true, Option.some.injEq] at hx
      subst hx hsid
      have hnow : some r = some (account, id) := hr.symm.trans (Function.update_self ..)
      cases hnow
      rfl
    · simp only [hsid, decide_false] at hx
      refine h.record sid' x hx r ?_
      exact (Function.update_of_ne (Ne.symm hsid) _ _).symm.trans hr

theorem Kept.expire {logins : List Started} {s : Shared} (h : Kept logins s) (sid : String) :
    Kept logins { s with session := update s.session sid none } where
  newest := h.newest
  record sid' x hx r hr := by
    simp only [Function.update_apply] at hr
    split at hr
    · cases hr
    · exact h.record sid' x hx r hr

/-- Only logins and the end of a session change the sessions. -/
theorem kept_hstep (r : Req) (h : Hist) (hk : Kept h.logins h.st.shared) : Kept (hstep r h).logins (hstep r h).st.shared := by
  cases r with
  | login f =>
    rcases login_cases f h.st with ⟨htrace, hshared⟩ | ⟨sid, account, id, htrace, hne, hshared⟩
    · show Kept ((trace Started (doLogin f) h.st).reverse ++ h.logins) (run (doLogin f) h.st).2.shared
      rw [htrace, hshared]
      exact hk
    · show Kept ((trace Started (doLogin f) h.st).reverse ++ h.logins) (run (doLogin f) h.st).2.shared
      rw [htrace, hshared]
      exact hk.login hne account id
  | expire sid => exact hk.expire sid
  | surverAnswer now sid data =>
    have hshared := (run_idle (only_surverAnswer now sid data) h.st).1
    show Kept h.logins (run (surverAnswer now sid data) h.st).2.shared
    rw [hshared]
    exact hk
  | _ => exact hk

theorem single_of_kept (r : Req) (h : Hist) (hs : Sound r h) (hk : Kept h.logins h.st.shared) : Single r h := by
  intro sid uid hsid hstale a ha
  obtain ⟨e, hrefused⟩ := hk.verfiy hstale
  have hgone := hs sid uid hsid hstale
  cases r with
  | login f => cases hsid
  | expire sid => cases hsid
  | boxSave _ item_id num =>
    cases hsid
    obtain ⟨hnone, hu⟩ := hgone.resolve_left Bool.false_ne_true
    exact val_serve (boxSave_gone (congrArg (Option.map Prod.snd) hnone) item_id num) ha
  | boxTake _ item_id num =>
    cases hsid
    obtain ⟨hnone, hu⟩ := hgone.resolve_left Bool.false_ne_true
    exact val_serve (boxTake_gone hu (congrArg (Option.map Prod.snd) hnone) item_id num) ha
  | currencyExchange cid _ =>
    cases hsid
    obtain ⟨hnone, hu⟩ := hgone.resolve_left Bool.false_ne_true
    exact val_serve (currencyExchange_gone hu (congrArg (Option.map Prod.snd) hnone) cid) ha
  | buyCoin _ price goodId =>
    cases hsid
    obtain ⟨hnone, hu⟩ := hgone.resolve_left Bool.false_ne_true
    exact val_serve (buyCoin_gone hu (congrArg (Option.map Prod.snd) hnone) price goodId) ha
  | getAttach _ eid =>
    cases hsid
    obtain ⟨hnone, hu⟩ := hgone.resolve_left Bool.false_ne_true
    exact val_serve (getAttach_gone hu (congrArg (Option.map Prod.snd) hnone) eid) ha
  | sendMail now _ recv_uid coin warhead =>
    cases hsid
    obtain ⟨hnone, hu⟩ := hgone.resolve_left Bool.false_ne_true
    exact val_serve (sendMail_gone hu (congrArg (Option.map Prod.snd) hnone) now recv_uid coin warhead) ha
  | surverAnswer now _ data =>
    cases hsid
    obtain ⟨hnone, -⟩ := hgone.resolve_left Bool.false_ne_true
    show val (run (surverAnswer now sid data) h.st).2.amounts a = _
    rw [surverAnswer_gone hnone now data]
  | benefit r =>
    refine val_serve ?_ ha
    by_cases hcode : ∃ code, r = .exchageCode sid code
    · obtain ⟨code, rfl⟩ := hcode
      obtain ⟨hnone, -⟩ := hgone.resolve_left Bool.false_ne_true
      exact exchageCode_gone hnone code
    · exact benefit_refused hrefused hsid fun code hr => hcode ⟨code, hr⟩
  | sign r => exact val_serve (sign_refused hrefused hsid) ha
  | question r =>
    refine val_serve ?_ ha
    cases r with
    | question now draws sid => exact question_spares now draws sid _
    | opening now sid => exact opening_spares now sid _
    | answer now draws _ submitted =>
      cases hsid
      obtain ⟨hnone, -⟩ := hgone.resolve_left Bool.false_ne_true
      exact question_gone hnone now draws submitted
  | apple names r =>
    cases hsid
    refine val_serve (apple_refused ?_ names) ha
    have hview : h.st.appleView.store.setup.session r.sid =
        (h.st.shared.session r.sid).map fun r => (some r.1, some r.2) := rfl
    cases hr : h.st.shared.session r.sid with
    | none =>
      rw [hr] at hview
      exact .inl hview
    | some rec =>
      rw [hr] at hview
      obtain ⟨rfl, newer, hplatform, hne, hother⟩ := hk.stale hstale hr
      exact .inr ⟨some rec.1, some rec.2, newer, hview, hplatform, hne, hother⟩

/-- In every run where older sids with a record go only to the endpoints that compare, no request with an older sid of a
user changes what he has. -/
theorem single_session {s : St} {rs : List Req} (hs : All hstep Sound rs ⟨s, []⟩) : All hstep Single rs ⟨s, []⟩ :=
  all_of_inv (I := fun h : Hist => Kept h.logins h.st.shared) (fun r h _ hk => kept_hstep r h hk) single_of_kept hs
    (kept_nil s.shared)

/-! ### A sid that was replaced -/

/-- A user with coins in his wallet and in his box. -/
def demo : St where
  shared := {
    session := fun _ => none
    platform := fun _ => none
    kick := fun _ => false
    userTable := fun account => if account = "a" then some "users:1" else none
    isUser := fun _ => true
    active := Question.demo.setup.shared.active }
  amounts := fun a => if a = .user "users:1" "coin" ∨ a = .box "1" "2" then some 1000 else none
  weixin := fun _ => none
  account := fun _ => some "a"
  valid := fun _ => some "1"
  registered := ⟨["a"], by decide⟩
  surverAnswer := ∅
  surver := fun _ => none
  box := {
    session := fun _ => none
    user := fun _ field => if field = "box_lock" then some "2" else none
    amounts := fun _ => none
    title := fun _ => none
    boxCode := fun _ => none
    course := fun _ => ⟨none, none, none, none⟩
    goods := fun _ => ⟨none, none, none⟩ }
  mail := ⟨fun _ => none, fun _ => none, fun _ => none, fun _ => ∅, fun _ => none⟩
  benefit := {
    setup := ⟨Question.demo.setup.shared, none, none, none, none, fun _ _ => none⟩
    coin := fun _ => none
    exchange_ticket := fun _ => none
    benefit := fun _ => none
    token := fun _ => none
    receive := fun _ => none
    sharing := fun _ => ∅
    code := fun _ => none }
  sign := {
    setup := ⟨Question.demo.setup.shared, none, fun _ => none, fun _ _ => none⟩
    table := fun _ => none
    users := fun _ _ => []
    warhead := fun _ => none
    number := fun _ => none
    last_sign_date := fun _ => none }
  question := Question.demo
  apple := {
    setup := ⟨fun _ => none, fun _ => none, fun _ => none, fun _ => none, fun _ => false, fun _ => none, fun _ _ => none⟩
    purse := fun _ => none
    receipt := fun _ => none
    dayUse := fun _ _ => [] }

/-- The first and the second login of the user. -/
def demoLogins : List Req := [.login ⟨0, some "a", ⟨"c4ca", by decide⟩⟩, .login ⟨0, some "a", ⟨"c81e", by decide⟩⟩]

/-- Requests with the first sid. -/
def demoOld : List Req :=
  [.boxSave "c4ca" "2" "100", .boxTake "c4ca" "2" "100", .benefit (.exchageCode "c4ca" "4c445de82c3537a5995a497b1c8202d7"),
    .question (.answer Question.demoDay id "c4ca" (Question.demoAnswers ["1", "2", "3", "4"] "0"))]

/-- Each of them changes the coins of the user, whose newest sid is the second. -/
theorem old_sid_pays : Stale (after hstep demoLogins ⟨demo, []⟩).logins "c4ca" "1" ∧ demoOld ≠ [] ∧ ∀ r ∈ demoOld,
    r.sid = some "c4ca" ∧
      val (step r (after hstep demoLogins ⟨demo, []⟩).st).amounts (.user "users:1" "coin") ≠
        val (after hstep demoLogins ⟨demo, []⟩).st.amounts (.user "users:1" "coin") := by
  decide +kernel

/-- An endpoint that compares refuses the first sid. -/
theorem single_session_refused :
    Stale (after hstep demoLogins ⟨demo, []⟩).logins "c4ca" "1" ∧
      val (after hstep (demoLogins ++ [.benefit (.share ⟨Question.demoDay, 12⟩ "c4ca")]) ⟨demo, []⟩).st.amounts
        (.user "users:1" "coin") = 1000 := by
  have hs : All hstep Sound (demoLogins ++ [.benefit (.share ⟨Question.demoDay, 12⟩ "c4ca")]) ⟨demo, []⟩ :=
    ⟨fun sid uid h => (by cases h), fun sid uid h => (by cases h), fun sid uid _ _ => .inl rfl, trivial⟩
  have hstale : Stale (after hstep demoLogins ⟨demo, []⟩).logins "c4ca" "1" := by decide +kernel
  have hkept := (single_session hs).2.2.1 "c4ca" "1" rfl hstale (.user "users:1" "coin") rfl
  exact ⟨hstale, hkept.trans (by decide +kernel)⟩

end FishWeb.Server
