import FishWeb.Mail.Mailbox
import FishWeb.Lib.Runs
/-!
# Delivery

Runs of `/send/mail`. The id of a mail is its sender and the second, and the set
whose size is checked is not the one the mail goes into. So a mail arrives, and
its recipient's set stays within its bound, exactly if its id is not in use and
that set has room.
-/
open Python Prog Counters Runs

namespace FishWeb.Mail

/-- A `/send/mail`. -/
structure Send where
  now : Clock
  sid : String
  recv_uid : String
  coin : String
  warhead : String
  deriving Repr, DecidableEq

def Send.req (p : Send) : Req := .send p.now p.sid p.recv_uid p.coin p.warhead

def mailed (p : Send) (s : St) : St := step p.req s

/-- A mail and who it was sent to. -/
structure Posted where
  eid : String
  recv_uid : String
  attach : List Attach
  deriving Repr, DecidableEq

/-- The mail of a request that is accepted. -/
def post (p : Send) (s : St) : List Posted :=
  if p.req.accepted s then
    [⟨p.req.eid s, p.recv_uid, attachList (val s.amounts (.coin, p.req.uid s)) ((int p.warhead).getD 0)⟩]
  else []

/-- The mails of a run. -/
def posted : List Send → St → List Posted
  | [], _ => []
  | p :: ps, s => post p s ++ posted ps (mailed p s)

/-- The mail goes through: the checks pass in a session that has not ended. -/
def Goes (p : Send) (s : St) : Prop :=
  ∃ w uid, Passes p.sid p.recv_uid p.coin p.warhead w s ∧ s.session p.sid = some uid

/-- A mail that goes through is under an id that is in nobody's set, and its recipient has room for it. -/
def Room (p : Send) (s : St) : Prop :=
  Goes p s → (∀ n v, ¬Holds s n v (p.req.eid s)) ∧ (s.mails (.playerMails, p.recv_uid)).scard < 20

/-- What a request owes: its mail is not one that exists, and nobody has more than 20. -/
structure Arrives (p : Send) (s : St) : Prop where
  fresh : p.req.accepted s = true → ∀ n v, ¬Holds s n v (p.req.eid s)
  bounded : ∀ u, ((mailed p s).mails (.playerMails, u)).scard ≤ 20

/-- Its recipient is shown the mail, for thirty days, with its attachment. -/
def Readable (m : Posted) (s : St) : Prop :=
  ∀ sid now, fmt (s.session sid) = m.recv_uid → ¬Old now m.eid →
    ∃ data, (run (showMails now sid) s).1 = .ok data ∧
      ∃ r ∈ data, r.eid = some m.eid ∧ r.attach = some m.attach

/-! ## One request -/

theorem mailed_cases (p : Send) (s : St) :
    (p.req.accepted s = false ∧ ¬Goes p s ∧ (mailed p s).session = s.session ∧
      (mailed p s).mails = s.mails ∧ (mailed p s).mail = s.mail) ∨
    (∃ uid attach, p.req.accepted s = true ∧ Goes p s ∧ s.session p.sid = some uid ∧
      p.req.eid s = mailId uid p.now ∧ post p s = [⟨mailId uid p.now, p.recv_uid, attach⟩] ∧
      mailed p s = sentMail s uid p.recv_uid p.now attach) := by
  unfold post mailed Send.req
  have he := effect_of (.send p.now p.sid p.recv_uid p.coin p.warhead) s
  generalize hok : Req.accepted (.send p.now p.sid p.recv_uid p.coin p.warhead) s = ok,
    step (.send p.now p.sid p.recv_uid p.coin p.warhead) s = s' at he ⊢
  cases he with
  | refused _ _ _ _ _ h => exact .inl ⟨rfl, fun ⟨w, _, hp, _⟩ => h w hp, rfl, rfl, rfl⟩
  | ended _ _ _ _ _ w hsid h =>
    refine .inl ⟨rfl, fun ⟨_, uid, _, hu⟩ => ?_, rfl, rfl, rfl⟩
    rw [hsid] at hu
    cases hu
  | sent _ _ _ _ _ w uid hsid h =>
    have huid : Req.uid (.send p.now p.sid p.recv_uid p.coin p.warhead) s = uid := by
      rw [Req.uid, Req.sid, hsid, fmt_some]
    refine .inr ⟨uid, _, rfl, ⟨w, uid, h, hsid⟩, hsid, by rw [Req.eid, huid], ?_, rfl⟩
    rw [if_pos rfl, Req.eid, huid, h.warhead]
    rfl

theorem tidy_congr {s s' : St} (hsession : s'.session = s.session) (hmails : s'.mails = s.mails) (hmail : s'.mail = s.mail)
    (ht : Tidy s) : Tidy s' := by
  obtain ⟨session, nickname, amounts, mails, mail⟩ := s
  obtain ⟨session', nickname', amounts', mails', mail'⟩ := s'
  cases hsession
  cases hmails
  cases hmail
  exact ⟨ht.uids, ht.stamp, ht.complete, ht.unique, ht.held⟩

theorem tidy_mailed {p : Send} {s : St} (hr : Room p s) (ht : Tidy s) : Tidy (mailed p s) := by
  rcases mailed_cases p s with ⟨-, -, hsession, hmails, hmail⟩ | ⟨uid, attach, -, hgo, hsid, heid, -, hs⟩
  · exact tidy_congr hsession hmails hmail ht
  · obtain ⟨hfresh, -⟩ := hr hgo
    rw [heid] at hfresh
    rw [hs]
    exact tidy_sentMail ht (ht.uids p.sid uid hsid) fun n u h => absurd h (hfresh n u)

theorem mails_sentMail (s : St) (uid recv_uid u : String) (now : Clock) (attach : List Attach) :
    (sentMail s uid recv_uid now attach).mails (.playerMails, u) =
      if u = recv_uid then (s.mails (.playerMails, u)).sadd (mailId uid now) else s.mails (.playerMails, u) := by
  split
  · rename_i hu
    subst hu
    exact Function.update_self ..
  · rename_i hu
    exact SetTable.add_other _ _ _ _ fun h => hu (congrArg Prod.snd h)

theorem arrives_iff {p : Send} {s : St} (hb : ∀ u, (s.mails (.playerMails, u)).scard ≤ 20) : Arrives p s ↔ Room p s := by
  rcases mailed_cases p s with ⟨hno, hgo, -, hmails, -⟩ | ⟨uid, attach, hok, hgo, -, heid, -, hs⟩
  · refine ⟨fun _ h => absurd h hgo, fun _ => ⟨fun h => ?_, fun u => ?_⟩⟩
    · rw [hno] at h
      cases h
    · rw [hmails]
      exact hb u
  · constructor
    · rintro ⟨hfresh, hbounded⟩ -
      have hnew := hfresh hok
      have hmem : mailId uid p.now ∉ s.mails (.playerMails, p.recv_uid) := fun h =>
        hnew .playerMails p.recv_uid (heid ▸ ⟨by decide, h⟩)
      have hle := hbounded p.recv_uid
      rw [hs, mails_sentMail, if_pos rfl, MemberSet.scard_sadd_of_not_mem _ _ hmem] at hle
      exact ⟨hnew, by omega⟩
    · intro hr
      obtain ⟨hfresh, hroom⟩ := hr hgo
      refine ⟨fun _ => hfresh, fun u => ?_⟩
      rw [hs, mails_sentMail]
      split
      · rename_i hu
        rw [hu]
        have := MemberSet.scard_sadd_le (s.mails (.playerMails, p.recv_uid)) (mailId uid p.now)
        omega
      · exact hb u

/-! ## What has arrived -/

/-- The mail is in its recipient's set, under its id, with its attachment. -/
structure Kept (m : Posted) (s : St) : Prop where
  holds : Holds s .playerMails m.recv_uid m.eid
  mail : ∃ r, s.mail m.eid = some r ∧ r.eid = some m.eid ∧ r.attach = some m.attach

theorem kept_post {p : Send} {s : St} {m : Posted} (hm : m ∈ post p s) : Kept m (mailed p s) := by
  rcases mailed_cases p s with ⟨hno, -⟩ | ⟨uid, attach, -, -, -, -, hpost, hs⟩
  · simp [post, hno] at hm
  · rw [hpost] at hm
    obtain rfl := List.mem_singleton.1 hm
    rw [hs]
    exact ⟨(holds_sentMail ..).2 (.inl ⟨rfl, rfl, rfl⟩), _, (mail_sentMail _).trans (if_pos rfl), rfl, rfl⟩

/-- A mail under another id leaves it. -/
theorem kept_mailed {p : Send} {s : St} {m : Posted} (hr : Room p s) (h : Kept m s) : Kept m (mailed p s) := by
  obtain ⟨hold, r, hmail, hr'⟩ := h
  rcases mailed_cases p s with ⟨-, -, -, hmails, hsame⟩ | ⟨uid, attach, -, hgo, -, heid, -, hs⟩
  · exact ⟨⟨hold.1, by rw [hmails]; exact hold.2⟩, r, by rw [hsame]; exact hmail, hr'⟩
  · have hne : m.eid ≠ mailId uid p.now := by
      intro he
      refine (hr hgo).1 .playerMails m.recv_uid ?_
      rw [heid, ← he]
      exact hold
    rw [hs]
    exact ⟨(holds_sentMail ..).2 (.inr hold), r, ((mail_sentMail _).trans (if_neg hne)).trans hmail, hr'⟩

theorem readable_of_kept {m : Posted} {s : St} (ht : Tidy s) (h : Kept m s) : Readable m s := by
  intro sid now hsid hold
  obtain ⟨hholds, r, hmail, heid, hattach⟩ := h
  obtain ⟨data, s', hrun, -, hdata⟩ := run_showMails ht now sid
  rw [hsid] at hdata
  exact ⟨data, by rw [hrun], r, (hdata r).2 ⟨.playerMails, m.eid, hholds, hold, hmail⟩, heid, hattach⟩

/-! ## Runs -/

theorem kept_posted {ps : List Send} {s : St} (hr : All mailed Room ps s) {m : Posted} (hm : m ∈ posted ps s) :
    Kept m (after mailed ps s) := by
  induction ps generalizing s with
  | nil => cases hm
  | cons p ps ih =>
    rcases List.mem_append.1 hm with hm | hm
    · rw [after_cons]
      exact after_inv (fun _ _ hr h => kept_mailed hr h) hr.2 (kept_post hm)
    · exact ih hr.2 hm

theorem all_arrives_iff {ps : List Send} {s : St} (hb : ∀ u, (s.mails (.playerMails, u)).scard ≤ 20) :
    All mailed Arrives ps s ↔ All mailed Room ps s :=
  all_iff (I := fun s => ∀ u, (s.mails (.playerMails, u)).scard ≤ 20) (fun _ _ => arrives_iff)
    (fun _ _ hr hb => ((arrives_iff hb).2 hr).bounded) hb

/-- Every mail of a run is a new one that its recipient can read after the run, and nobody ever has more than 20,
exactly if every mail that goes through has an id of its own and room. -/
theorem mails_delivered_iff {s : St} (ht : Tidy s) (hb : ∀ u, (s.mails (.playerMails, u)).scard ≤ 20) (ps : List Send) :
    (All mailed Arrives ps s ∧ ∀ m ∈ posted ps s, Readable m (after mailed ps s)) ↔ All mailed Room ps s := by
  rw [all_arrives_iff hb]
  refine ⟨And.left, fun hr => ⟨hr, fun m hm => ?_⟩⟩
  exact readable_of_kept (after_inv (fun _ _ hr ht => tidy_mailed hr ht) hr ht) (kept_posted hr hm)

theorem mails_delivered_two : All mailed Arrives [⟨⟨5, ""⟩, "a", "2", "0", "0"⟩, ⟨⟨6, ""⟩, "a", "3", "0", "0"⟩]
    (office [((.coin, "1"), 5000)]) := by
  have hroom : All mailed Room [⟨⟨5, ""⟩, "a", "2", "0", "0"⟩, ⟨⟨6, ""⟩, "a", "3", "0", "0"⟩]
      (office [((.coin, "1"), 5000)]) := by
    refine ⟨fun _ => ?_, fun _ => ?_, trivial⟩
    · exact ⟨fun n v h => absurd h.2 (MemberSet.not_mem_empty _), by decide⟩
    · refine ⟨fun n v h => ?_, by decide⟩
      have hsent : Holds (sentMail (office [((.coin, "1"), 5000)]) "1" "2" ⟨5, ""⟩ [⟨1, 5000⟩]) n v "1|6" := h
      rcases (holds_sentMail n v _).1 hsent with ⟨-, -, he⟩ | h
      · exact absurd he (by decide)
      · exact absurd h.2 (MemberSet.not_mem_empty _)
  exact ((mails_delivered_iff (tidy_office _) (fun u => Nat.zero_le 20) _).2 hroom).1

/-- Two mails of one sender in one second are one mail. -/
theorem second_mail_lost : Tidy (office [((.coin, "1"), 5000)]) ∧
    (∀ u, ((office [((.coin, "1"), 5000)]).mails (.playerMails, u)).scard ≤ 20) ∧
    ¬All mailed Arrives [⟨⟨5, ""⟩, "a", "2", "0", "0"⟩, ⟨⟨5, ""⟩, "a", "3", "0", "0"⟩]
      (office [((.coin, "1"), 5000)]) := by
  refine ⟨tidy_office _, fun u => Nat.zero_le 20, fun h => ?_⟩
  have hfresh := h.2.1.fresh (by decide) .playerMails "2"
  exact hfresh ⟨by decide, by decide⟩

end FishWeb.Mail
