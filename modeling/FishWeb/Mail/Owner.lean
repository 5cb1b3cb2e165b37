import FishWeb.Mail.Mailbox
import FishWeb.Lib.Runs
/-!
# Whose mails are whose

Nothing looks at whose mail a request names. `Own` says that it is the caller's,
or nobody's: then an attachment is paid to the user who has the mail, once for
each time it is sent, nobody changes another's mails, and the mails stay
complete.
-/
open Python Prog Counters Runs

namespace FishWeb.Mail

/-- A request, or `/show/mails`. -/
inductive Act where
  | req (r : Req)
  | showMails (now : Nat) (sid : String)
  deriving Repr, DecidableEq

/-- Whose request it is. -/
def Act.uid (a : Act) (s : St) : String :=
  match a with
  | .req r => r.uid s
  | .showMails _ sid => fmt (s.session sid)

def act (a : Act) (s : St) : St :=
  match a with
  | .req r => step r s
  | .showMails now sid => (run (showMails now sid) s).2

/-- The mail that is named is in no set of another user. A mail is sent under an id that is in no set, but for
the one a user sends himself. -/
def Own (a : Act) (s : St) : Prop :=
  match a with
  | .req (.send now sid recv_uid coin warhead) => ∀ w uid, Passes sid recv_uid coin warhead w s →
      s.session sid = some uid → ∀ n v, Holds s n v (mailId uid now) → n = .playerMails ∧ v = uid ∧ v = recv_uid
  | .req (.get sid eid) | .req (.del sid eid) => OnlyOf s (fmt (s.session sid)) eid
  | .req (.read sid eid) => OnlyOf s (fmt (s.session sid)) eid ∨ field s eid Record.isRead = some "1"
  | .showMails _ _ => True

/-! ## What a request keeps -/

theorem tidy_step {r : Req} {s : St} (ht : Tidy s) (ho : Own (.req r) s) : Tidy (step r s) := by
  have he := effect_of r s
  generalize r.accepted s = ok, step r s = s' at he ⊢
  cases he with
  | refused | untaken => exact ht
  | ended => exact tidy_paid ht _
  | sent now sid recv_uid coin warhead w uid hsid h =>
    refine tidy_sentMail ht (ht.uids sid uid hsid) fun n u hold => ?_
    obtain ⟨hn, -, hu⟩ := ho w uid h hsid n u hold
    exact ⟨hn, hu⟩
  | taken sid eid attach h => exact tidy_dropMail (tidy_paid ht _) ho
  | marked sid eid => exact tidy_markRead ht eid
  | deleted sid eid => exact tidy_dropMail ht ho

theorem tidy_act {a : Act} {s : St} (ho : Own a s) (ht : Tidy s) : Tidy (act a s) := by
  cases a with
  | req r => exact tidy_step ht ho
  | showMails now sid =>
    obtain ⟨data, s', hrun, hexp, -⟩ := run_showMails ht now sid
    rw [act, hrun]
    exact hexp.tidy

/-- A mail that is read already does not change. -/
theorem markRead_of_read {s : St} {eid : String} (h : field s eid Record.isRead = some "1") (e : String) :
    (markRead s eid).mail e = s.mail e := by
  rw [mail_markRead]
  split
  · rename_i he
    subst he
    obtain ⟨m, hm, hr⟩ := Option.bind_eq_some_iff.1 h
    rw [hm, Option.getD_some, ← hr]
  · rfl

/-- A mail goes into its recipient's set. -/
def Delivery (a : Act) (n : SetName) (u : String) (s s' : St) : Prop :=
  ∃ now sid coin warhead, a = .req (.send now sid u coin warhead) ∧ n = .playerMails ∧
    s'.mails (n, u) = (s.mails (n, u)).sadd (mailId (a.uid s) now)

/-- The mails of a user, seen from another's request. -/
structure Unchanged (a : Act) (u : String) (s s' : St) : Prop where
  mails : ∀ n, s'.mails (n, u) = s.mails (n, u) ∨ Delivery a n u s s'
  mail : ∀ n e, Holds s n u e → s'.mail e = s.mail e

theorem Apart.unchanged {u : String} {s s' : St} (h : Apart u s s') (a : Act) : Unchanged a u s s' :=
  ⟨fun n => .inl (h.mails n), h.mail⟩

theorem unchanged_act {a : Act} {s : St} (ht : Tidy s) (ho : Own a s) {u : String} (hu : u ≠ a.uid s) :
    Unchanged a u s (act a s) := by
  cases a with
  | showMails now sid =>
    obtain ⟨data, s', hrun, hexp, -⟩ := run_showMails ht now sid
    rw [act, hrun]
    exact (hexp.apart u hu).unchanged _
  | req r =>
    rw [act]
    have he := effect_of r s
    generalize r.accepted s = ok, step r s = s' at he ⊢
    cases he with
    | refused | untaken => exact (Apart.refl u s).unchanged _
    | ended => exact ⟨fun _ => .inl rfl, fun _ _ _ => rfl⟩
    | sent now sid recv_uid coin warhead w uid hsid h =>
      have huid : Act.uid (.req (.send now sid recv_uid coin warhead)) s = uid := by
        rw [Act.uid, Req.uid, Req.sid, hsid, fmt_some]
      refine ⟨fun n => ?_, fun n e hold => ?_⟩
      · by_cases hkey : (n, u) = (.playerMails, recv_uid)
        · obtain ⟨rfl, rfl⟩ := Prod.mk.inj hkey
          refine .inr ⟨now, sid, coin, warhead, rfl, rfl, ?_⟩
          rw [huid]
          exact Function.update_self ..
        · exact .inl (SetTable.add_other _ _ _ _ hkey)
      · rw [mail_sentMail, if_neg]
        rintro rfl
        exact hu ((ho w uid h hsid n u hold).2.1.trans huid.symm)
    | taken sid eid attach h =>
      have hpaid : Apart u s (paid s (payout (fmt (s.session sid)) attach)) := ⟨fun _ => rfl, fun _ _ _ => rfl⟩
      exact (hpaid.trans (apart_dropMail ho hu)).unchanged _
    | marked sid eid =>
      refine ⟨fun _ => .inl rfl, fun n e hold => ?_⟩
      rcases ho with ho | hr
      · rw [mail_markRead, if_neg]
        rintro rfl
        exact hu (ho n u hold)
      · exact markRead_of_read hr e
    | deleted sid eid => exact (apart_dropMail ho hu).unchanged _

/-- Only an attachment that is taken raises a balance. -/
theorem taken_of_raised {a : Act} {s : St} (ht : Tidy s) {c : Currency} {u : String}
    (h : val s.amounts (c, u) < val (act a s).amounts (c, u)) :
    ∃ sid eid attach, a = .req (.get sid eid) ∧ field s eid Record.attach = some attach ∧ a.uid s = u ∧
      val (act a s).amounts (c, u) = val s.amounts (c, u) + attached c attach := by
  cases a with
  | showMails now sid =>
    obtain ⟨data, s', hrun, hexp, -⟩ := run_showMails ht now sid
    rw [act, hrun, hexp.amounts] at h
    exact absurd h (Int.lt_irrefl _)
  | req r =>
    rw [act] at h ⊢
    have hfee : ∀ uid, net [((Currency.coin, uid), -1000)] (c, u) ≤ 0 := by
      intro uid
      rw [net_cons, net_nil]
      split <;> omega
    have he := effect_of r s
    generalize r.accepted s = ok, step r s = s' at he h ⊢
    cases he with
    | refused | untaken | marked | deleted => exact absurd h (Int.lt_irrefl _)
    | ended now sid recv_uid coin warhead w hsid hp =>
      have := hfee "None"
      rw [val_paid] at h
      omega
    | sent now sid recv_uid coin warhead w uid hsid hp =>
      have := hfee uid
      rw [amounts_sentMail, val_paid] at h
      omega
    | taken sid eid attach hattach =>
      rw [amounts_dropMail, val_paid, net_payout] at h ⊢
      by_cases hu : fmt (s.session sid) = u
      · rw [if_pos hu]
        exact ⟨sid, eid, attach, rfl, hattach, hu, rfl⟩
      · rw [if_neg hu] at h
        omega

/-- What a request owes the users. -/
structure Guarded (a : Act) (s : St) : Prop where
  /-- An attachment is credited to the user who has the mail. -/
  credited : ∀ c u, val s.amounts (c, u) < val (act a s).amounts (c, u) →
    ∃ sid eid attach n, a = .req (.get sid eid) ∧ a.uid s = u ∧ Holds s n u eid ∧
      field s eid Record.attach = some attach ∧
      val (act a s).amounts (c, u) = val s.amounts (c, u) + attached c attach
  /-- A mail is taken by the user who has it. -/
  taken : ∀ sid eid, a = .req (.get sid eid) → (Req.get sid eid).accepted s = true → ∃ n, Holds s n (a.uid s) eid
  /-- Another user's mails are left alone. -/
  others : ∀ u, u ≠ a.uid s → Unchanged a u s (act a s)
  complete : ∀ n u eid, Holds (act a s) n u eid → ∃ m, (act a s).mail eid = some m ∧ m.Complete
  shown : ∀ now sid, ∃ data, (run (showMails now sid) (act a s)).1 = .ok data

theorem holds_of_get {s : St} (ht : Tidy s) {sid eid : String} {attach : List Attach}
    (ho : OnlyOf s (fmt (s.session sid)) eid) (h : field s eid Record.attach = some attach) :
    ∃ n, Holds s n (fmt (s.session sid)) eid := by
  obtain ⟨n, v, hold⟩ := ht.held eid attach h
  exact ⟨n, ho n v hold ▸ hold⟩

theorem accepted_get {s : St} {sid eid : String} (h : (Req.get sid eid).accepted s = true) :
    ∃ attach, field s eid Record.attach = some attach := by
  have he := effect_of (.get sid eid) s
  rw [h] at he
  generalize step (.get sid eid) s = s' at he
  cases he with
  | taken _ _ attach hattach => exact ⟨attach, hattach⟩

theorem guarded_act {a : Act} {s : St} (ho : Own a s) (ht : Tidy s) : Guarded a s where
  credited c u h := by
    obtain ⟨sid, eid, attach, rfl, hattach, hu, hv⟩ := taken_of_raised ht h
    obtain ⟨n, hold⟩ := holds_of_get ht ho hattach
    exact ⟨sid, eid, attach, n, rfl, hu, hu ▸ hold, hattach, hv⟩
  taken sid eid ha h := by
    subst ha
    obtain ⟨attach, hattach⟩ := accepted_get h
    exact holds_of_get ht ho hattach
  others u hu := unchanged_act ht ho hu
  complete n u eid h := by
    obtain ⟨m, hm, hc, -⟩ := (tidy_act ho ht).complete n u eid h
    exact ⟨m, hm, hc⟩
  shown now sid := by
    obtain ⟨data, s', hrun, -⟩ := run_showMails (tidy_act ho ht) now sid
    exact ⟨data, by rw [hrun]⟩

/-! ## Once -/

/-- The attachment of the mail is taken. -/
def takes (eid : String) (a : Act) (s : St) : Bool :=
  match a with
  | .req (.get sid e) => e = eid && (Req.get sid e).accepted s
  | .req _ | .showMails _ _ => false

/-- A mail is sent under this id. -/
def sends (eid : String) (a : Act) (s : St) : Bool :=
  match a with
  | .req (.send now sid recv_uid coin warhead) =>
    mailId (fmt (s.session sid)) now = eid && (Req.send now sid recv_uid coin warhead).accepted s
  | .req _ | .showMails _ _ => false

/-- The mail has an attachment to be taken. -/
def payable (eid : String) (s : St) : Nat := (field s eid Record.attach).isSome.toNat

theorem payable_congr {s s' : St} {eid : String} (h : s'.mail eid = s.mail eid) : payable eid s' = payable eid s := by
  unfold payable field
  rw [h]

theorem payable_of_none {s : St} {eid : String} (h : s.mail eid = none) : payable eid s = 0 := by
  unfold payable field
  rw [h]
  rfl

theorem payable_dropMail (s : St) (uid e eid : String) :
    payable eid (dropMail s uid e) = if eid = e then 0 else payable eid s := by
  have hmail := mail_dropMail s uid e eid
  split at hmail
  · rename_i he
    rw [payable_of_none hmail, if_pos he]
  · rename_i he
    rw [payable_congr hmail, if_neg he]

/-- An attachment that is taken was there and is gone. -/
theorem payable_act {a : Act} {s : St} (ht : Tidy s) (eid : String) :
    (takes eid a s).toNat + payable eid (act a s) ≤ (sends eid a s).toNat + payable eid s := by
  cases a with
  | showMails now sid =>
    obtain ⟨data, s', hrun, hexp, -⟩ := run_showMails ht now sid
    rw [act, hrun]
    have hmail := hexp.mail eid
    split at hmail
    · rw [payable_of_none hmail]
      exact Nat.zero_le _
    · rw [payable_congr hmail]
      exact Nat.le_refl _
  | req r =>
    rw [act]
    have he := effect_of r s
    generalize hok : r.accepted s = ok, step r s = s' at he ⊢
    cases he with
    | refused | ended | untaken => simp [takes, sends, hok, payable, field, paid]
    | sent now sid recv_uid coin warhead w uid hsid h =>
      by_cases heid : mailId uid now = eid
      · have hsend : sends eid (.req (.send now sid recv_uid coin warhead)) s = true := by
          simp [sends, hsid, heid, hok]
        have hle : payable eid (sentMail s uid recv_uid now (attachList (val s.amounts (.coin, uid)) w)) ≤ 1 :=
          Bool.toNat_le _
        rw [hsend]
        simp only [takes, Bool.toNat_true, Bool.toNat_false]
        omega
      · rw [payable_congr ((mail_sentMail eid).trans (if_neg (Ne.symm heid)))]
        simp only [takes, Bool.toNat_false]
        omega
    | taken sid e attach h =>
      have hpaid : payable eid (paid s (payout (fmt (s.session sid)) attach)) = payable eid s := rfl
      rw [payable_dropMail, hpaid]
      by_cases heid : eid = e
      · subst heid
        have hone : payable eid s = 1 := by rw [payable, h]; rfl
        rw [if_pos rfl, hone]
        simp only [takes, sends, hok, decide_true, Bool.and_true, Bool.toNat_true, Bool.toNat_false]
        omega
      · have hother : takes eid (.req (.get sid e)) s = false := by simp [takes, Ne.symm heid]
        rw [if_neg heid, hother]
        simp only [sends, Bool.toNat_false]
        omega
    | marked sid e =>
      unfold payable
      rw [attach_markRead]
      exact Nat.le_refl _
    | deleted sid e =>
      rw [payable_dropMail]
      simp only [takes, sends, Bool.toNat_false]
      split <;> omega

/-! ## Runs -/

end FishWeb.Mail
