import FishWeb.Mail.Commands
/-!
# What is mailed

The coins of the users and of the mails together, and the warheads, over any
users and mails that include those of a request. Taking an attachment moves it,
deleting a mail loses it. A mail that is sent holds its sender's whole balance
and costs him the fee alone, so the runs that conserve are those without one.
-/
open Python Counters Runs
open Function (update)

namespace FishWeb.Mail

/-! ## The wealth of users and mails -/

/-- What the attachment of a mail holds. -/
def attachedAt (s : St) (c : Currency) (eid : String) : Int := attached c ((field s eid Record.attach).getD [])

/-- What the users `U` have and the mails `E` hold. -/
def wealth (c : Currency) (U E : Finset String) (s : St) : Int :=
  ∑ u ∈ U, val s.amounts (c, u) + ∑ e ∈ E, attachedAt s c e

/-- Only the balances of `uid` and the mail `eid` differ. -/
structure Near (uid eid : String) (s s' : St) : Prop where
  amounts : ∀ c u, u ≠ uid → val s'.amounts (c, u) = val s.amounts (c, u)
  mail : ∀ e, e ≠ eid → s'.mail e = s.mail e

theorem wealth_near {uid eid : String} {s s' : St} (h : Near uid eid s s') (c : Currency) {U E : Finset String}
    (hU : uid ∈ U) (hE : eid ∈ E) : wealth c U E s' = wealth c U E s +
      (val s'.amounts (c, uid) - val s.amounts (c, uid)) + (attachedAt s' c eid - attachedAt s c eid) := by
  have hmail : ∀ e, e ≠ eid → attachedAt s' c e = attachedAt s c e := by
    intro e he
    unfold attachedAt field
    rw [h.mail e he]
  unfold wealth
  rw [sum_change hU (h.amounts c), sum_change hE hmail]
  omega

/-! ## One request -/

/-- A request that is accepted takes the fee, if it sends a mail. -/
def fee (c : Currency) (r : Req) (accepted : Bool) : Int :=
  match r with
  | .send _ _ _ _ _ => if accepted = true ∧ c = .coin then 1000 else 0
  | .get _ _ | .read _ _ | .del _ _ => 0

/-- A request that deletes a mail loses what it holds. -/
def lost (c : Currency) (r : Req) (s : St) : Int :=
  match r with
  | .del _ eid => attachedAt s c eid
  | .send _ _ _ _ _ | .get _ _ | .read _ _ => 0

/-- A mail goes out although its sender's session has ended, or with another attachment than the record
under its id had before. -/
def Mints (r : Req) (s : St) : Prop :=
  match r with
  | .send now sid recv_uid coin warhead => ∃ w, Passes sid recv_uid coin warhead w s ∧
      ∀ uid, s.session sid = some uid →
        ∃ c, attached c (attachList (val s.amounts (.coin, uid)) w) ≠ attachedAt s c (mailId uid now)
  | .get _ _ | .read _ _ | .del _ _ => False

theorem attachedAt_put (s : St) (c : Currency) (eid : String) (m : Option Record) :
    attachedAt (putMail s eid m) c eid = attached c ((m.bind Record.attach).getD []) := by
  simp [attachedAt, field, putMail]

theorem near_put (s : St) (uid eid : String) (m : Option Record) : Near uid eid s (putMail s eid m) :=
  ⟨fun _ _ _ => rfl, fun _ he => Function.update_of_ne he ..⟩

theorem near_dropMail (s : St) (uid eid : String) : Near uid eid s (dropMail s uid eid) :=
  ⟨fun _ _ _ => rfl, fun _ he => Function.update_of_ne he ..⟩

theorem attachedAt_markRead (s : St) (c : Currency) (eid : String) :
    attachedAt (markRead s eid) c eid = attachedAt s c eid := by
  unfold markRead
  rw [attachedAt_put]
  unfold attachedAt field
  cases s.mail eid <;> rfl

theorem Near.refl (uid eid : String) (s : St) : Near uid eid s s := ⟨fun _ _ _ => rfl, fun _ _ => rfl⟩

theorem Near.trans {uid eid : String} {s s' s'' : St} (h : Near uid eid s s') (h' : Near uid eid s' s'') :
    Near uid eid s s'' :=
  ⟨fun c u hu => (h'.amounts c u hu).trans (h.amounts c u hu), fun e he => (h'.mail e he).trans (h.mail e he)⟩

theorem near_paid (s : St) (uid eid : String) {l : List ((Currency × String) × Int)} (h : ∀ e ∈ l, e.1.2 = uid) :
    Near uid eid s (paid s l) := by
  refine ⟨fun c u hu => ?_, fun _ _ => rfl⟩
  rw [val_paid, net_eq_zero fun e he heq => ?_, Int.add_zero]
  exact hu ((congrArg Prod.snd heq).symm.trans (h e he))

theorem payout_uid (uid : String) (attach : List Attach) : ∀ e ∈ payout uid attach, e.1.2 = uid := by
  intro e he
  obtain ⟨a, -, ha⟩ := List.mem_filterMap.1 he
  split at ha
  · cases ha; rfl
  · split at ha
    · cases ha; rfl
    · cases ha

theorem near_step (r : Req) (s : St) : Near (r.uid s) (r.eid s) s (step r s) := by
  have he := effect_of r s
  generalize r.accepted s = ok, step r s = s' at he
  cases he with
  | refused | untaken => exact .refl _ _ s
  | ended now sid recv_uid coin warhead w hsid h =>
    refine near_paid s _ _ ?_
    simp [Req.uid, Req.sid, hsid, fmt]
  | sent now sid recv_uid coin warhead w uid hsid h =>
    have huid : Req.uid (.send now sid recv_uid coin warhead) s = uid := by rw [Req.uid, Req.sid, hsid, fmt_some]
    rw [huid, Req.eid, huid]
    have hpaid : Near uid (mailId uid now) s (paid s [((.coin, uid), -1000)]) := near_paid s _ _ (by simp)
    exact hpaid.trans ⟨fun _ _ _ => rfl, fun _ he => Function.update_of_ne he ..⟩
  | taken sid eid attach h => exact (near_paid s _ eid (payout_uid _ attach)).trans (near_dropMail ..)
  | marked sid eid => exact near_put ..
  | deleted sid eid => exact near_dropMail ..

/-- What a request adds to its user's balance and to its mail together. -/
def gain (c : Currency) (r : Req) (s s' : St) : Int :=
  val s'.amounts (c, r.uid s) - val s.amounts (c, r.uid s) + (attachedAt s' c (r.eid s) - attachedAt s c (r.eid s))

theorem wealth_step (r : Req) (s : St) (c : Currency) {U E : Finset String} (hU : r.uid s ∈ U) (hE : r.eid s ∈ E) :
    wealth c U E (step r s) = wealth c U E s + gain c r s (step r s) := by
  rw [wealth_near (near_step r s) c hU hE, gain]
  omega

section Gain
variable (c : Currency) {s : St} {sid eid : String}

/-- The fee leaves the sender, and the mail holds its attachment instead of what its record held. -/
theorem gain_sent (now : Clock) {uid : String} (recv_uid coin warhead : String) (attach : List Attach)
    (hsid : s.session sid = some uid) :
    gain c (.send now sid recv_uid coin warhead) s (sentMail s uid recv_uid now attach) =
      -fee c (.send now sid recv_uid coin warhead) true + (attached c attach - attachedAt s c (mailId uid now)) := by
  have huid : Req.uid (.send now sid recv_uid coin warhead) s = uid := by rw [Req.uid, Req.sid, hsid, fmt_some]
  have hmail : attachedAt (sentMail s uid recv_uid now attach) c (mailId uid now) = attached c attach := attachedAt_put ..
  have hval : val (sentMail s uid recv_uid now attach).amounts (c, uid) =
      val s.amounts (c, uid) - fee c (.send now sid recv_uid coin warhead) true := by
    have hv := val_paid s [((.coin, uid), -1000)] (c, uid)
    rw [net_one] at hv
    refine Eq.trans hv ?_
    cases c
    · simp [fee]
      omega
    · simp [fee]
  unfold gain
  rw [Req.eid, huid, hval, hmail]
  omega

/-- The fee leaves nobody's account. -/
theorem gain_ended (now : Clock) (recv_uid coin warhead : String) (hsid : s.session sid = none) :
    gain .coin (.send now sid recv_uid coin warhead) s (paid s [((.coin, "None"), -1000)]) = -1000 := by
  have huid : Req.uid (.send now sid recv_uid coin warhead) s = "None" := by rw [Req.uid, Req.sid, hsid]; rfl
  have hmail : ∀ e, attachedAt (paid s [((.coin, "None"), -1000)]) .coin e = attachedAt s .coin e := fun _ => rfl
  unfold gain
  rw [huid, hmail, val_paid, net_one, if_pos rfl]
  omega

/-- What the mail held is paid. -/
theorem gain_taken {attach : List Attach} (h : field s eid Record.attach = some attach) :
    gain c (.get sid eid) s (dropMail (paid s (payout (fmt (s.session sid)) attach)) (fmt (s.session sid)) eid) = 0 := by
  have hnew : attachedAt (dropMail (paid s (payout (fmt (s.session sid)) attach)) (fmt (s.session sid)) eid) c eid = 0 :=
    attachedAt_put ..
  have hold : attachedAt s c eid = attached c attach := by rw [attachedAt, h]; rfl
  have hval : val (dropMail (paid s (payout (fmt (s.session sid)) attach)) (fmt (s.session sid)) eid).amounts
      (c, fmt (s.session sid)) = val s.amounts (c, fmt (s.session sid)) + attached c attach := by
    have hv := val_paid s (payout (fmt (s.session sid)) attach) (c, fmt (s.session sid))
    rwa [net_payout, if_pos rfl] at hv
  unfold gain
  rw [Req.uid, Req.sid, Req.eid, hval, hnew, hold]
  omega

theorem gain_marked : gain c (.read sid eid) s (markRead s eid) = 0 := by
  have hval : (markRead s eid).amounts = s.amounts := rfl
  unfold gain
  rw [Req.eid, attachedAt_markRead, hval]
  omega

theorem gain_deleted : gain c (.del sid eid) s (dropMail s (fmt (s.session sid)) eid) = -attachedAt s c eid := by
  have hnew : attachedAt (dropMail s (fmt (s.session sid)) eid) c eid = 0 := attachedAt_put ..
  have hval : (dropMail s (fmt (s.session sid)) eid).amounts = s.amounts := rfl
  unfold gain
  rw [Req.eid, hnew, hval]
  omega

end Gain

/-- The wealth changes by the fee and what is deleted, unless the request mints. -/
theorem gain_iff (r : Req) (s : St) :
    (∀ c, gain c r s (step r s) = -fee c r (r.accepted s) - lost c r s) ↔ ¬Mints r s := by
  have he := effect_of r s
  generalize r.accepted s = ok, step r s = s' at he ⊢
  cases he with
  | refused now sid recv_uid coin warhead h =>
    refine ⟨fun _ ⟨w, hp, _⟩ => h w hp, fun _ c => ?_⟩
    cases c <;> simp [gain, fee, lost]
  | ended now sid recv_uid coin warhead w hsid h =>
    -- the fee is taken and the request is not accepted
    refine ⟨fun hg => ?_, fun hm => absurd ⟨w, h, fun uid hu => by rw [hsid] at hu; cases hu⟩ hm⟩
    have hcoin := hg .coin
    rw [gain_ended now recv_uid coin warhead hsid] at hcoin
    simp [fee, lost] at hcoin
  | sent now sid recv_uid coin warhead w uid hsid h =>
    -- conserved only if the attachment is the one it overwrites
    have hgain := fun c => gain_sent c now recv_uid coin warhead (attachList (val s.amounts (.coin, uid)) w) hsid
    constructor
    · rintro hg ⟨w', hp, hne⟩
      obtain rfl : w = w' := Option.some.inj (h.warhead.symm.trans hp.warhead)
      obtain ⟨c, hne⟩ := hne uid hsid
      have := hg c
      rw [hgain, lost] at this
      omega
    · intro hm c
      have heq : attached c (attachList (val s.amounts (.coin, uid)) w) = attachedAt s c (mailId uid now) := by
        by_contra hne
        exact hm ⟨w, h, fun u hu => by rw [hsid] at hu; cases hu; exact ⟨c, hne⟩⟩
      rw [hgain, lost]
      omega
  | untaken sid eid h =>
    refine ⟨fun _ => id, fun _ c => ?_⟩
    simp [gain, fee, lost]
  | taken sid eid attach h =>
    refine ⟨fun _ => id, fun _ c => ?_⟩
    rw [gain_taken c h]
    rfl
  | marked sid eid =>
    refine ⟨fun _ => id, fun _ c => ?_⟩
    rw [gain_marked]
    rfl
  | deleted sid eid =>
    refine ⟨fun _ => id, fun _ c => ?_⟩
    rw [gain_deleted, fee, lost]
    omega

/-! ## Signs -/

/-- No balance is negative, and no mail holds a negative amount. -/
structure Solvent (s : St) : Prop where
  amounts : ∀ c u, 0 ≤ val s.amounts (c, u)
  attach : ∀ eid attach, field s eid Record.attach = some attach → ∀ a ∈ attach, 0 ≤ a.num

/-- The amounts in the form are not negative. -/
def Req.NonNeg (r : Req) : Prop :=
  match r with
  | .send _ _ _ coin warhead => (∀ n, int coin = some n → 0 ≤ n) ∧ ∀ n, int warhead = some n → 0 ≤ n
  | .get _ _ | .read _ _ | .del _ _ => True

theorem field_putMail (s : St) (eid e : String) (m : Option Record) {A : Type} (f : Record → Option A) :
    field (putMail s eid m) e f = if e = eid then m.bind f else field s e f := by
  unfold field putMail
  by_cases he : e = eid
  · subst he; simp
  · simp [he]

theorem solvent_paid {s : St} (hs : Solvent s) {l : List ((Currency × String) × Int)} (hl : ∀ e ∈ l, 0 ≤ e.2) :
    Solvent (paid s l) := by
  refine ⟨fun c u => ?_, hs.attach⟩
  rw [val_paid]
  exact Int.add_nonneg (hs.amounts c u) (net_nonneg hl (c, u))

theorem solvent_put {s : St} (hs : Solvent s) (eid : String) (m : Option Record)
    (hm : ∀ attach, m.bind Record.attach = some attach → ∀ a ∈ attach, 0 ≤ a.num) : Solvent (putMail s eid m) := by
  refine ⟨hs.amounts, fun e attach he => ?_⟩
  rw [field_putMail] at he
  split at he
  · exact hm attach he
  · exact hs.attach e attach he

theorem solvent_dropMail {s : St} (hs : Solvent s) (uid eid : String) : Solvent (dropMail s uid eid) := by
  have hrem : Solvent (remMail s (mailSet (field s eid Record.type)) uid eid) := ⟨hs.amounts, hs.attach⟩
  exact solvent_put hrem eid none (by simp)

theorem attachList_nonneg {coin warhead : Int} (hc : 0 ≤ coin) (hw : 0 ≤ warhead) :
    ∀ a ∈ attachList coin warhead, 0 ≤ a.num := by
  intro a ha
  rcases List.mem_append.1 ha with ha | ha
  · split at ha
    · obtain rfl := List.mem_singleton.1 ha
      exact hc
    · cases ha
  · split at ha
    · obtain rfl := List.mem_singleton.1 ha
      exact hw
    · cases ha

theorem payout_nonneg (uid : String) {attach : List Attach} (h : ∀ a ∈ attach, 0 ≤ a.num) :
    ∀ e ∈ payout uid attach, 0 ≤ e.2 := by
  intro e he
  obtain ⟨a, ha, hsome⟩ := List.mem_filterMap.1 he
  split at hsome
  · cases hsome
    exact h a ha
  · split at hsome
    · cases hsome
      exact h a ha
    · cases hsome

/-- The fee is checked before it is taken. -/
theorem amounts_fee {s : St} (hs : ∀ c u, 0 ≤ val s.amounts (c, u)) {uid : String}
    (h : 1000 ≤ val s.amounts (.coin, uid)) (c : Currency) (u : String) :
    0 ≤ val (paid s [((.coin, uid), -1000)]).amounts (c, u) := by
  rw [val_paid, net_one]
  have := hs c u
  split
  · rename_i heq
    rw [← heq]
    omega
  · omega

theorem solvent_step {r : Req} {s : St} (hs : Solvent s) (hr : r.NonNeg) : Solvent (step r s) := by
  have he := effect_of r s
  generalize r.accepted s = ok, step r s = s' at he ⊢
  cases he with
  | refused | untaken => exact hs
  | ended now sid recv_uid coin warhead w hsid h =>
    have hfee := h.fee
    rw [hsid] at hfee
    exact ⟨amounts_fee hs.amounts hfee, hs.attach⟩
  | sent now sid recv_uid coin warhead w uid hsid h =>
    have hfee := h.fee
    rw [hsid, fmt_some] at hfee
    have hadd : Solvent (addMail (paid s [((.coin, uid), -1000)]) .playerMails recv_uid (mailId uid now)) :=
      ⟨amounts_fee hs.amounts hfee, hs.attach⟩
    refine solvent_put hadd _ _ fun attach ha => ?_
    obtain rfl := Option.some.inj ha
    exact attachList_nonneg (hs.amounts .coin uid) (hr.2 w h.warhead)
  | taken sid eid attach h => exact solvent_dropMail (solvent_paid hs (payout_nonneg _ (hs.attach eid attach h))) _ eid
  | marked sid eid =>
    refine solvent_put hs eid _ fun attach ha => ?_
    cases hm : s.mail eid with
    | none => rw [hm] at ha; cases ha
    | some m =>
      refine hs.attach eid attach ?_
      rw [hm] at ha
      rw [field, hm]
      exact ha
  | deleted sid eid => exact solvent_dropMail hs _ eid

/-! ## Runs -/

/-- The request changes the wealth of any users and mails with its own by the fee and what it deletes, and
leaves no balance negative. -/
structure Conserves (r : Req) (s : St) : Prop where
  total : ∀ c (U E : Finset String), r.uid s ∈ U → r.eid s ∈ E →
    wealth c U E (step r s) = wealth c U E s - fee c r (r.accepted s) - lost c r s
  covered : ∀ c u, 0 ≤ val (step r s).amounts (c, u)

theorem conserves_iff {r : Req} {s : St} (hs : Solvent s) (hr : r.NonNeg) : Conserves r s ↔ ¬Mints r s := by
  rw [← gain_iff]
  constructor
  · intro h c
    have hU := Finset.mem_singleton_self (r.uid s)
    have hE := Finset.mem_singleton_self (r.eid s)
    have := h.total c {r.uid s} {r.eid s} hU hE
    rw [wealth_step r s c hU hE] at this
    omega
  · intro h
    refine ⟨fun c U E hU hE => ?_, (solvent_step hs hr).amounts⟩
    rw [wealth_step r s c hU hE, h c]
    omega

theorem office_solvent {l : List ((Currency × String) × Int)} (h : ∀ p ∈ l, 0 ≤ p.2) : Solvent (office l) := by
  refine ⟨fun c u => ?_, by simp [office, field]⟩
  have : val (office l).amounts (c, u) = 0 + net l (c, u) := val_incrAll l _ (c, u)
  have := net_nonneg h (c, u)
  omega

end FishWeb.Mail
