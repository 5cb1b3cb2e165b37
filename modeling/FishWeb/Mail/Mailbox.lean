import FishWeb.Mail.Commands
/-!
# Mailboxes

`Tidy` is what links the sets of mails to the records: a mail that is in a set
has a whole record whose type is the set's, it is in one set only, and a record
with an attachment is in a set. From a tidy store `/show/mails` succeeds and
shows the mails that are not old. The requests keep it if they are about mails
of their callers.
-/
open Python Prog Counters

namespace FishWeb.Mail

/-! ## Whose mails -/

/-- No field is missing. -/
structure Record.Complete (m : Record) : Prop where
  eid : m.eid.isSome
  sender : m.sender.isSome
  from_uid : m.from_uid.isSome
  attach : m.attach.isSome
  timestamp : m.timestamp.isSome
  send_time : m.send_time.isSome
  type : m.type.isSome
  isRead : m.isRead.isSome

/-- The mail is in this set of the user, which is one of the two that are shown. -/
def Holds (s : St) (n : SetName) (u eid : String) : Prop := n ≠ .playerMail ∧ eid ∈ s.mails (n, u)

/-- Whoever has the mail is this user. -/
def OnlyOf (s : St) (u eid : String) : Prop := ∀ n v, Holds s n v eid → v = u

structure Tidy (s : St) : Prop where
  /-- No user has the separator of mail ids in his uid, which is a number. -/
  uids : ∀ sid uid, s.session sid = some uid → '|' ∉ uid.toList
  stamp : ∀ n u eid, Holds s n u eid → ∃ t, sendStamp eid = .ok t
  complete : ∀ n u eid, Holds s n u eid → ∃ m, s.mail eid = some m ∧ m.Complete ∧ mailSet m.type = n
  unique : ∀ n u n' u' eid, Holds s n u eid → Holds s n' u' eid → n = n' ∧ u = u'
  held : ∀ eid attach, field s eid Record.attach = some attach → ∃ n u, Holds s n u eid

/-! ## The changes keep it -/

theorem mail_putMail (s : St) (eid e : String) (m : Option Record) :
    (putMail s eid m).mail e = if e = eid then m else s.mail e := by
  unfold putMail
  by_cases he : e = eid
  · subst he; simp
  · simp [he]

theorem mail_dropMail (s : St) (uid eid e : String) :
    (dropMail s uid eid).mail e = if e = eid then none else s.mail e := mail_putMail ..

theorem holds_dropMail_of {s : St} {uid eid : String} {n : SetName} {v e : String}
    (h : Holds (dropMail s uid eid) n v e) : Holds s n v e := ⟨h.1, ((SetTable.mem_remove ..).1 h.2).2⟩

/-- A mail leaves the set it is in, because its record names that set. -/
theorem holds_dropMail {s : St} (ht : Tidy s) {uid eid : String} (ho : OnlyOf s uid eid) (n : SetName) (v e : String) :
    Holds (dropMail s uid eid) n v e ↔ e ≠ eid ∧ Holds s n v e := by
  constructor
  · intro h
    have hs := holds_dropMail_of h
    refine ⟨fun he => ?_, hs⟩
    subst he
    obtain ⟨m, hm, -, hset⟩ := ht.complete n v e hs
    have hkey : (n, v) = (mailSet (field s e Record.type), uid) := by
      rw [ho n v hs, ← hset, field, hm]
      rfl
    exact ((SetTable.mem_remove ..).1 h.2).1 ⟨hkey, rfl⟩
  · rintro ⟨he, hn, hmem⟩
    exact ⟨hn, (SetTable.mem_remove ..).2 ⟨fun h => he h.2, hmem⟩⟩

theorem tidy_dropMail {s : St} (ht : Tidy s) {uid eid : String} (ho : OnlyOf s uid eid) : Tidy (dropMail s uid eid) where
  uids := ht.uids
  stamp n u e h := ht.stamp n u e (holds_dropMail_of h)
  complete n u e h := by
    obtain ⟨he, h⟩ := (holds_dropMail ht ho n u e).1 h
    rw [mail_dropMail, if_neg he]
    exact ht.complete n u e h
  unique n u n' u' e h h' := ht.unique n u n' u' e (holds_dropMail_of h) (holds_dropMail_of h')
  held e attach h := by
    rw [field, mail_dropMail] at h
    split at h
    · cases h
    · rename_i he
      obtain ⟨n, u, hold⟩ := ht.held e attach h
      exact ⟨n, u, (holds_dropMail ht ho n u e).2 ⟨he, hold⟩⟩

theorem tidy_paid {s : St} (ht : Tidy s) (l : List ((Currency × String) × Int)) : Tidy (paid s l) :=
  ⟨ht.uids, ht.stamp, ht.complete, ht.unique, ht.held⟩

theorem mail_markRead (s : St) (eid e : String) :
    (markRead s eid).mail e = if e = eid then some { (s.mail eid).getD .blank with isRead := some "1" } else s.mail e :=
  mail_putMail ..

theorem attach_markRead (s : St) (eid e : String) :
    field (markRead s eid) e Record.attach = field s e Record.attach := by
  unfold field
  rw [mail_markRead]
  split
  · rename_i he
    subst he
    cases s.mail e <;> rfl
  · rfl

/-- Marking a mail that is not there leaves a record without an attachment, which is in no set. -/
theorem tidy_markRead {s : St} (ht : Tidy s) (eid : String) : Tidy (markRead s eid) where
  uids := ht.uids
  stamp := ht.stamp
  complete n u e h := by
    obtain ⟨m, hm, hc, hset⟩ := ht.complete n u e h
    rw [mail_markRead]
    split
    · rename_i he
      subst he
      rw [hm]
      exact ⟨_, rfl, { hc with isRead := rfl }, hset⟩
    · exact ⟨m, hm, hc, hset⟩
  unique := ht.unique
  held e attach h := ht.held e attach (by rwa [attach_markRead] at h)

theorem sendStamp_mailId {uid : String} (h : '|' ∉ uid.toList) (now : Clock) :
    sendStamp (mailId uid now) = .ok (now.time : Int) := by
  have hdigit : '|' ∉ (toString now.time).toList := by
    intro hc
    have hl : (toString now.time).toList = Nat.toDigits 10 now.time := Nat.toList_repr
    rw [hl] at hc
    exact absurd (Nat.isDigit_of_mem_toDigits (by decide) (by decide) hc) (by decide)
  have hsplit : split '|' (mailId uid now) = [uid, toString now.time] := split_append h hdigit
  simp only [sendStamp, hsplit, List.getElem?_cons_succ, List.getElem?_cons_zero, int_toString]

theorem complete_newMail (uid : String) (nickname : Option String) (now : Clock) (attach : List Attach) :
    (newMail uid nickname now attach).Complete := ⟨rfl, rfl, rfl, rfl, rfl, rfl, rfl, rfl⟩

section Sent
variable {s : St} {uid recv_uid : String} {now : Clock} {attach : List Attach}

theorem mail_sentMail (e : String) : (sentMail s uid recv_uid now attach).mail e =
    if e = mailId uid now then some (newMail uid (s.nickname uid) now attach) else s.mail e := mail_putMail ..

theorem holds_sentMail (n : SetName) (u e : String) : Holds (sentMail s uid recv_uid now attach) n u e ↔
    (n = .playerMails ∧ u = recv_uid ∧ e = mailId uid now) ∨ Holds s n u e := by
  have hadd : e ∈ (sentMail s uid recv_uid now attach).mails (n, u) ↔
      ((n, u) = (SetName.playerMails, recv_uid) ∧ e = mailId uid now) ∨ e ∈ s.mails (n, u) := SetTable.mem_add ..
  unfold Holds
  rw [hadd, Prod.mk.injEq]
  constructor
  · rintro ⟨hn, ⟨⟨hp, hu⟩, he⟩ | h⟩
    · exact .inl ⟨hp, hu, he⟩
    · exact .inr ⟨hn, h⟩
  · rintro (⟨hp, hu, he⟩ | ⟨hn, h⟩)
    · exact ⟨by rw [hp]; decide, .inl ⟨⟨hp, hu⟩, he⟩⟩
    · exact ⟨hn, .inr h⟩

/-- The id is in no set, except perhaps the one the mail goes into. -/
theorem tidy_sentMail (ht : Tidy s) (huid : '|' ∉ uid.toList)
    (ho : ∀ n u, Holds s n u (mailId uid now) → n = .playerMails ∧ u = recv_uid) :
    Tidy (sentMail s uid recv_uid now attach) := by
  have hplace : ∀ n u, Holds (sentMail s uid recv_uid now attach) n u (mailId uid now) → n = .playerMails ∧ u = recv_uid := by
    intro n u h
    rcases (holds_sentMail n u _).1 h with ⟨hn, hu, -⟩ | h
    · exact ⟨hn, hu⟩
    · exact ho n u h
  have hother : ∀ {n u e}, e ≠ mailId uid now → Holds (sentMail s uid recv_uid now attach) n u e → Holds s n u e := by
    intro n u e he h
    exact ((holds_sentMail n u e).1 h).resolve_left fun h => he h.2.2
  refine ⟨ht.uids, fun n u e h => ?_, fun n u e h => ?_, fun n u n' u' e h h' => ?_, fun e a h => ?_⟩
  · by_cases he : e = mailId uid now
    · exact ⟨_, he ▸ sendStamp_mailId huid now⟩
    · exact ht.stamp n u e (hother he h)
  · rw [mail_sentMail]
    by_cases he : e = mailId uid now
    · subst he
      rw [if_pos rfl, (hplace n u h).1]
      exact ⟨_, rfl, complete_newMail .., rfl⟩
    · rw [if_neg he]
      exact ht.complete n u e (hother he h)
  · by_cases he : e = mailId uid now
    · subst he
      obtain ⟨hn, hu⟩ := hplace n u h
      obtain ⟨hn', hu'⟩ := hplace n' u' h'
      exact ⟨hn.trans hn'.symm, hu.trans hu'.symm⟩
    · exact ht.unique n u n' u' e (hother he h) (hother he h')
  · rw [field, mail_sentMail] at h
    by_cases he : e = mailId uid now
    · exact ⟨.playerMails, recv_uid, (holds_sentMail ..).2 (.inl ⟨rfl, rfl, he⟩)⟩
    · rw [if_neg he] at h
      obtain ⟨n, u, hold⟩ := ht.held e a h
      exact ⟨n, u, (holds_sentMail n u e).2 (.inr hold)⟩

end Sent

theorem tidy_office (l : List ((Currency × String) × Int)) : Tidy (office l) where
  uids sid uid h := by
    unfold office at h
    dsimp only at h
    split at h
    · cases h; decide
    · split at h
      · cases h; decide
      · split at h
        · cases h; decide
        · cases h
  stamp _ _ _ h := absurd h.2 (MemberSet.not_mem_empty _)
  complete _ _ _ h := absurd h.2 (MemberSet.not_mem_empty _)
  unique _ _ _ _ _ h := absurd h.2 (MemberSet.not_mem_empty _)
  held _ _ h := by cases h

/-! ## Everyone else's mails -/

/-- The user's sets, and the mails in them, are as they were. -/
structure Apart (u : String) (s s' : St) : Prop where
  mails : ∀ n, s'.mails (n, u) = s.mails (n, u)
  mail : ∀ n e, Holds s n u e → s'.mail e = s.mail e

theorem Apart.refl (u : String) (s : St) : Apart u s s := ⟨fun _ => rfl, fun _ _ _ => rfl⟩

theorem Apart.trans {u : String} {s s' s'' : St} (h : Apart u s s') (h' : Apart u s' s'') : Apart u s s'' where
  mails n := (h'.mails n).trans (h.mails n)
  mail n e hold := by
    have hold' : Holds s' n u e := ⟨hold.1, by rw [h.mails n]; exact hold.2⟩
    rw [h'.mail n e hold', h.mail n e hold]

theorem apart_dropMail {s : St} {u uid eid : String} (ho : OnlyOf s uid eid) (hu : u ≠ uid) :
    Apart u s (dropMail s uid eid) where
  mails n := SetTable.remove_other _ _ _ _ fun h => hu (congrArg Prod.snd h)
  mail n e hold := by
    rw [mail_dropMail, if_neg]
    rintro rfl
    exact hu (ho n u hold)

/-! ## `/show/mails` -/

/-- Sent more than thirty days ago. -/
def Old (now : Nat) (eid : String) : Prop := ∃ t, sendStamp eid = .ok t ∧ 3600 * 24 * 30 < (now : Int) - t

instance (now : Nat) (eid : String) : Decidable (Old now eid) :=
  match h : sendStamp eid with
  | .ok t => decidable_of_iff (3600 * 24 * 30 < (now : Int) - t)
      ⟨fun ht => ⟨t, h, ht⟩, fun ⟨_, hu, ht⟩ => by rw [h] at hu; cases hu; exact ht⟩
  | .error _ => isFalse fun ⟨_, hu, _⟩ => by rw [h] at hu; cases hu

/-- The store after the pass over one mail. -/
def expire (now : Nat) (uid : String) (s : St) (eid : String) : St := if Old now eid then dropMail s uid eid else s

theorem run_expireMail {now : Nat} {uid eid : String} (h : ∃ t, sendStamp eid = .ok t) (s : St) :
    run (expireMail now uid eid) s = (.ok (), expire now uid s eid) := by
  obtain ⟨t, ht⟩ := h
  have hold : Old now eid ↔ 3600 * 24 * 30 < (now : Int) - t :=
    ⟨fun ⟨_, hu, h⟩ => by rw [ht] at hu; cases hu; exact h, fun h => ⟨t, ht, h⟩⟩
  unfold expireMail expire
  by_cases ho : Old now eid
  · rw [if_pos ho]
    simp only [ht, ofExcept_ok, ret_bind, if_pos (hold.1 ho)]
    rfl
  · rw [if_neg ho]
    simp only [ht, ofExcept_ok, ret_bind, if_neg fun h => ho (hold.2 h)]
    rfl

/-- The store after the pass over mails of `uid`. -/
def expireAll (now : Nat) (uid : String) (l : List String) (s : St) : St := l.foldl (expire now uid) s

theorem tidy_expire {s : St} (ht : Tidy s) (now : Nat) {uid eid : String} (ho : OnlyOf s uid eid) :
    Tidy (expire now uid s eid) := by
  unfold expire
  split
  · exact tidy_dropMail ht ho
  · exact ht

theorem mail_expire (s : St) (now : Nat) (uid eid e : String) :
    (expire now uid s eid).mail e = if e = eid ∧ Old now eid then none else s.mail e := by
  unfold expire
  by_cases h : Old now eid <;> simp [h, mail_dropMail]

theorem holds_expire {s : St} (ht : Tidy s) (now : Nat) {uid eid : String} (ho : OnlyOf s uid eid) (n : SetName)
    (v e : String) : Holds (expire now uid s eid) n v e ↔ ¬(e = eid ∧ Old now eid) ∧ Holds s n v e := by
  unfold expire
  by_cases h : Old now eid
  · simp [h, holds_dropMail ht ho]
  · simp [h]

theorem apart_expire {s : St} (now : Nat) {u uid eid : String} (ho : OnlyOf s uid eid) (hu : u ≠ uid) :
    Apart u s (expire now uid s eid) := by
  unfold expire
  split
  · exact apart_dropMail ho hu
  · exact .refl u s

/-- What the pass of `/show/mails` over the mails `l` of `uid` does. -/
structure Expired (now : Nat) (uid : String) (l : List String) (s s' : St) : Prop where
  tidy : Tidy s'
  amounts : s'.amounts = s.amounts
  mail : ∀ e, s'.mail e = if e ∈ l ∧ Old now e then none else s.mail e
  holds : ∀ n v e, Holds s' n v e ↔ ¬(e ∈ l ∧ Old now e) ∧ Holds s n v e
  apart : ∀ u, u ≠ uid → Apart u s s'

theorem expired_expireAll (now : Nat) {uid : String} {l : List String} {s : St} (ht : Tidy s)
    (ho : ∀ e ∈ l, OnlyOf s uid e) : Expired now uid l s (expireAll now uid l s) := by
  induction l generalizing s with
  | nil => exact ⟨ht, rfl, fun _ => by simp [expireAll], fun _ _ _ => by simp [expireAll], fun u _ => .refl u s⟩
  | cons eid l ih =>
    have heid := ho eid List.mem_cons_self
    have ho' : ∀ e ∈ l, OnlyOf (expire now uid s eid) uid e := fun e he n v h =>
      ho e (List.mem_cons_of_mem eid he) n v ((holds_expire ht now heid n v e).1 h).2
    obtain ⟨htidy, hamounts, hmail, hholds, hapart⟩ := ih (tidy_expire ht now heid) ho'
    refine ⟨htidy, hamounts.trans (by unfold expire; split <;> rfl), fun e => ?_, fun n v e => ?_, fun u hu => ?_⟩
    · refine (hmail e).trans ?_
      rw [mail_expire]
      by_cases he : e = eid <;> by_cases hl : e ∈ l <;> by_cases hold : Old now e <;> simp_all
    · refine (hholds n v e).trans ?_
      rw [holds_expire ht now heid]
      by_cases he : e = eid <;> by_cases hl : e ∈ l <;> by_cases hold : Old now e <;> simp_all
    · exact (apart_expire now heid hu).trans (hapart u hu)

/-- The ids `/show/mails` goes over. -/
def shelf (s : St) (uid : String) : List String :=
  (s.mails (.systemMails, uid)).members ++ (s.mails (.playerMails, uid)).members

theorem mem_shelf {s : St} {uid e : String} : e ∈ shelf s uid ↔ ∃ n, Holds s n uid e := by
  unfold shelf Holds
  rw [List.mem_append]
  constructor
  · rintro (h | h)
    · exact ⟨.systemMails, by decide, h⟩
    · exact ⟨.playerMails, by decide, h⟩
  · rintro ⟨n, hn, h⟩
    cases n with
    | systemMails => exact .inl h
    | playerMails => exact .inr h
    | playerMail => exact absurd rfl hn

theorem onlyOf_shelf {s : St} (ht : Tidy s) (uid : String) : ∀ e ∈ shelf s uid, OnlyOf s uid e := by
  intro e he n v hv
  obtain ⟨n', h⟩ := mem_shelf.1 he
  exact (ht.unique n v n' uid e hv h).2

theorem run_showMail {s : St} {eid : String} {m : Record} (hm : s.mail eid = some m) (ha : m.attach.isSome) :
    run (showMail eid) s = (.ok (m.isRead = some "0", m), s) := by
  obtain ⟨attach, ha⟩ := Option.isSome_iff_exists.1 ha
  simp [showMail, call, hm, ha, field]

theorem run_sortByTime {l : List Record} (hl : ∀ m ∈ l, m.timestamp.isSome) (s : St) :
    ∃ l', run (sortByTime l) s = (.ok l', s) ∧ l'.Perm l := by
  have hkey : ∀ m ∈ l, run (orRaise Err.KeyError m.timestamp >>= fun timestamp => (return (timestamp, m) : Handler _)) s =
      (.ok (m.timestamp.getD 0, m), s) := by
    intro m hm
    obtain ⟨t, ht⟩ := Option.isSome_iff_exists.1 (hl m hm)
    simp [ht]
  refine ⟨_, run_bind_ok (run_collect hkey), ?_⟩
  have hperm := (List.perm_insertionSort (fun a b : Int × Record => b.1 ≤ a.1) (l.map fun m => (m.timestamp.getD 0, m))).map Prod.snd
  rw [List.map_map] at hperm
  exact hperm.trans (.of_eq (List.map_id'' (fun _ => rfl) l))

/-- The mails are shown, and what is shown are the mails that are left. -/
theorem run_shown {s : St} {l : List String} (hl : ∀ e ∈ l, ∃ m, s.mail e = some m ∧ m.Complete) :
    ∃ data, run (do
      let dics ← collect l showMail
      let data_not_read ← sortByTime ((dics.filter (·.1)).map Prod.snd)
      let data_is_read ← sortByTime ((dics.filter (!·.1)).map Prod.snd)
      return data_not_read ++ data_is_read : Handler (List Record)) s = (.ok data, s) ∧
      ∀ m, m ∈ data ↔ ∃ e ∈ l, s.mail e = some m := by
  have hshow : ∀ e ∈ l, run (showMail e) s =
      (.ok (((s.mail e).getD .blank).isRead = some "0", (s.mail e).getD .blank), s) := by
    intro e he
    obtain ⟨m, hm, hc⟩ := hl e he
    rw [hm]
    exact run_showMail hm hc.attach
  rw [run_bind_ok (run_collect hshow)]
  generalize hd : (l.map fun e => (decide (((s.mail e).getD .blank).isRead = some "0"), (s.mail e).getD .blank)) = dics
  have hdics : ∀ b m, (b, m) ∈ dics → ∃ e ∈ l, s.mail e = some m ∧ m.Complete := by
    intro b m hmem
    rw [← hd] at hmem
    obtain ⟨e, he, heq⟩ := List.mem_map.1 hmem
    obtain ⟨m', hm, hc⟩ := hl e he
    rw [hm] at heq
    cases heq
    exact ⟨e, he, hm, hc⟩
  have htime : ∀ (p : Bool × Record → Bool) (m : Record), m ∈ (dics.filter p).map Prod.snd → m.timestamp.isSome := by
    intro p m hm
    obtain ⟨⟨b, m'⟩, hmem, rfl⟩ := List.mem_map.1 hm
    obtain ⟨e, -, -, hc⟩ := hdics b m' (List.mem_filter.1 hmem).1
    exact hc.timestamp
  obtain ⟨l₁, hrun₁, hperm₁⟩ := run_sortByTime (htime (·.1)) s
  obtain ⟨l₂, hrun₂, hperm₂⟩ := run_sortByTime (htime (!·.1)) s
  rw [run_bind_ok hrun₁, run_bind_ok hrun₂]
  refine ⟨l₁ ++ l₂, rfl, fun m => ?_⟩
  rw [List.mem_append, hperm₁.mem_iff, hperm₂.mem_iff]
  constructor
  · rintro (h | h)
    all_goals
      obtain ⟨⟨b, m'⟩, hmem, rfl⟩ := List.mem_map.1 h
      obtain ⟨e, he, hm, -⟩ := hdics b m' (List.mem_filter.1 hmem).1
      exact ⟨e, he, hm⟩
  · rintro ⟨e, he, hm⟩
    have hmem : (decide (m.isRead = some "0"), m) ∈ dics := by
      rw [← hd]
      exact List.mem_map.2 ⟨e, he, by rw [hm]; rfl⟩
    cases hb : decide (m.isRead = some "0") with
    | true => exact .inl (List.mem_map.2 ⟨_, List.mem_filter.2 ⟨hmem, hb⟩, rfl⟩)
    | false => exact .inr (List.mem_map.2 ⟨_, List.mem_filter.2 ⟨hmem, by rw [hb]; rfl⟩, rfl⟩)

/-- From a tidy store `/show/mails` succeeds, drops the caller's old mails and shows the others. -/
theorem run_showMails {s : St} (ht : Tidy s) (now : Nat) (sid : String) :
    ∃ data s', run (showMails now sid) s = (.ok data, s') ∧
      Expired now (fmt (s.session sid)) (shelf s (fmt (s.session sid))) s s' ∧
      ∀ m, m ∈ data ↔ ∃ n e, Holds s n (fmt (s.session sid)) e ∧ ¬Old now e ∧ s.mail e = some m := by
  generalize huid : fmt (s.session sid) = uid
  have hstamp : ∀ e ∈ shelf s uid, ∃ t, sendStamp e = .ok t := by
    intro e he
    obtain ⟨n, h⟩ := mem_shelf.1 he
    exact ht.stamp n uid e h
  have hexp := expired_expireAll now ht (onlyOf_shelf ht uid)
  have hloop : run (forEach (shelf s uid) (expireMail now uid)) s = (.ok (), expireAll now uid (shelf s uid) s) :=
    run_forEach (fun e s he => run_expireMail he s) hstamp s
  generalize expireAll now uid (shelf s uid) s = s' at hexp hloop
  have hcomplete : ∀ e ∈ shelf s' uid, ∃ m, s'.mail e = some m ∧ m.Complete := by
    intro e he
    obtain ⟨n, h⟩ := mem_shelf.1 he
    obtain ⟨m, hm, hc, -⟩ := hexp.tidy.complete n uid e h
    exact ⟨m, hm, hc⟩
  obtain ⟨data, hrun, hdata⟩ := run_shown hcomplete
  refine ⟨data, s', ?_, hexp, fun m => ?_⟩
  · simp only [showMails, call, cmd_bind, ret_bind, run_step, exec_sessionUid, exec_smembers, huid]
    exact (run_bind_ok hloop).trans hrun
  · rw [hdata]
    constructor
    · rintro ⟨e, he, hm⟩
      obtain ⟨n, h⟩ := mem_shelf.1 he
      obtain ⟨hnot, h⟩ := (hexp.holds n uid e).1 h
      have hold : ¬Old now e := fun ho => hnot ⟨mem_shelf.2 ⟨n, h⟩, ho⟩
      rw [hexp.mail, if_neg hnot] at hm
      exact ⟨n, e, h, hold, hm⟩
    · rintro ⟨n, e, h, hold, hm⟩
      have hnot : ¬(e ∈ shelf s uid ∧ Old now e) := fun ho => hold ho.2
      refine ⟨e, mem_shelf.2 ⟨n, (hexp.holds n uid e).2 ⟨hnot, h⟩⟩, ?_⟩
      rw [hexp.mail, if_neg hnot, hm]

end FishWeb.Mail
