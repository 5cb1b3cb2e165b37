import FishWeb.Friend.Symmetry
/-!
# Friends by invitation

An accept names the sender and the invitation, and the endpoint looks at
neither. Beside the store the requests are booked: which invitations were sent
and have not been accepted or refused since. Two users become friends by one of
these exactly if every accept that is carried out names an invitation of the
caller's list and who sent it.
-/
open Python Prog Runs
open Function (update)

namespace FishWeb.Friend

/-! ## The requests, booked -/

structure Invitation where
  from_uid : String
  to_uid : String
  invite_id : String
  deriving Repr, DecidableEq

/-- A store, and the invitations that were sent and neither accepted nor refused since. -/
structure Book where
  st : St
  pending : List Invitation

/-- What a request that succeeds does to the pending invitations. -/
def Req.record (r : Req) (s : St) (pending : List Invitation) : List Invitation :=
  match r with
  | .invite now sid to_uid _ =>
    let uid := fmt (s.session sid)
    ⟨uid, to_uid, uid ++ "|" ++ toString now.time⟩ :: pending
  | .accept sid _ invite_id | .refuse sid invite_id =>
    pending.filter fun i => ¬(i.to_uid = fmt (s.session sid) ∧ i.invite_id = invite_id)
  | .del _ _ => pending

def succeeded : Except Err Reply → Bool
  | .ok reply => reply.code = 0
  | .error _ => false

def bookStep (r : Req) (b : Book) : Book where
  st := step r b.st
  pending := if succeeded (run r.handler b.st).1 then r.record b.st b.pending else b.pending

/-- A store without friends and requests. -/
def emptyBook (session : String → Option String) (user : String → String → Option String) : Book :=
  ⟨empty session user, []⟩

/-- The request is made by the invited user, for this invitation and its sender. -/
def Req.accepts (r : Req) (s : St) (i : Invitation) : Prop :=
  ∃ sid, fmt (s.session sid) = i.to_uid ∧ r = .accept sid i.from_uid i.invite_id

/-- Who become friends by the request do so by a pending invitation of one to the other, which the
request accepts and uses up; and nobody is his own friend. -/
structure Consented (r : Req) (b : Book) : Prop where
  agreed : ∀ x y, y ∉ b.st.friends x → y ∈ (bookStep r b).st.friends x →
    ∃ i ∈ b.pending, (i.from_uid = x ∧ i.to_uid = y ∨ i.from_uid = y ∧ i.to_uid = x) ∧
      i.invite_id ∈ b.st.reqs i.to_uid ∧ r.accepts b.st i ∧ i ∉ (bookStep r b).pending
  no_self : ∀ x, x ∉ (bookStep r b).st.friends x

/-- `iid` is the id of an invitation that `uid` sends. -/
def SentBy (uid iid : String) : Prop := ∃ time : Nat, iid = uid ++ "|" ++ toString time

/-- An accept that makes new friends names an invitation of the caller's list, and its sender. -/
def NamesSender : Req → St → Prop
  | .accept sid from_uid invite_id, s =>
    (s.friends (fmt (s.session sid))).scard ≤ 30 → (s.friends from_uid).scard ≤ 30 →
      from_uid ∉ s.friends (fmt (s.session sid)) →
      invite_id ∈ s.reqs (fmt (s.session sid)) ∧ SentBy from_uid invite_id
  | .invite _ _ _ _, _ | .refuse _ _, _ | .del _ _, _ => True

/-! ## What each request does -/

/-- An invitation is refused, or it goes on the list of another user. -/
theorem invite_cases (now : Clock) (sid to_uid msg : String) (s : St) :
    (succeeded (run (friendInvite now sid to_uid msg) s).1 = false ∧
        (run (friendInvite now sid to_uid msg) s).2 = s) ∨
      ∃ uid, s.session sid = some uid ∧ uid ≠ to_uid ∧
        succeeded (run (friendInvite now sid to_uid msg) s).1 = true ∧
        (run (friendInvite now sid to_uid msg) s).2.friends = s.friends ∧
        (run (friendInvite now sid to_uid msg) s).2.reqs =
          update s.reqs to_uid ((uid ++ "|" ++ toString now.time) :: s.reqs to_uid) := by
  cases hs : s.session sid with
  | none =>
    -- no branch gets past `uid + '|'`
    left
    by_cases hours : to_uid ∈ (s.friends "None").members
    · simp [friendInvite, call, hs, fmt, hours, succeeded]
    by_cases hroom : 30 < (s.friends "None").scard
    · simp [friendInvite, call, hs, fmt, hours, hroom, succeeded]
    by_cases hroom' : 30 < (s.friends to_uid).scard
    · simp [friendInvite, call, hs, fmt, hours, hroom, hroom', succeeded]
    by_cases hagain : ∃ iid ∈ s.reqs to_uid, split '|' iid = []
    · simp [friendInvite, call, hs, fmt, hours, hroom, hroom', hagain, succeeded]
    · simp [friendInvite, call, hs, fmt, hours, hroom, hroom', hagain, succeeded]
  | some uid =>
    by_cases hself : uid = to_uid
    · left; simp [friendInvite, call, hs, hself, succeeded]
    by_cases htheirs : uid ∈ (s.friends to_uid).members
    · left; simp [friendInvite, call, hs, hself, htheirs, succeeded]
    by_cases hours : to_uid ∈ (s.friends uid).members
    · left; simp [friendInvite, call, hs, hself, htheirs, hours, succeeded]
    by_cases hroom : 30 < (s.friends uid).scard
    · left; simp [friendInvite, call, hs, hself, htheirs, hours, hroom, succeeded]
    by_cases hroom' : 30 < (s.friends to_uid).scard
    · left; simp [friendInvite, call, hs, hself, htheirs, hours, hroom, hroom', succeeded]
    by_cases hagain : ∃ iid ∈ s.reqs to_uid, (split '|' iid).head? = some uid
    · left; simp [friendInvite, call, hs, hself, htheirs, hours, hroom, hroom', hagain, succeeded]
    by_cases hfull : 30 < (s.reqs to_uid).length
    · left; simp [friendInvite, call, hs, hself, htheirs, hours, hroom, hroom', hagain, hfull, succeeded]
    · right
      refine ⟨uid, rfl, hself, ?_⟩
      simp [friendInvite, call, hs, hself, htheirs, hours, hroom, hroom', hagain, hfull, succeeded]

/-- An accept is refused, or it links the caller and whom it names, and takes the id it names off his list. -/
theorem accept_cases (sid from_uid invite_id : String) (s : St) :
    (¬((s.friends (fmt (s.session sid))).scard ≤ 30 ∧ (s.friends from_uid).scard ≤ 30) ∧
        succeeded (run (friendAcceptInvite sid from_uid invite_id) s).1 = false ∧
        (run (friendAcceptInvite sid from_uid invite_id) s).2 = s) ∨
      (s.friends (fmt (s.session sid))).scard ≤ 30 ∧ (s.friends from_uid).scard ≤ 30 ∧
        succeeded (run (friendAcceptInvite sid from_uid invite_id) s).1 = true ∧
        (run (friendAcceptInvite sid from_uid invite_id) s).2.friends =
          SetTable.link s.friends (fmt (s.session sid)) from_uid ∧
        (run (friendAcceptInvite sid from_uid invite_id) s).2.reqs =
          update s.reqs (fmt (s.session sid)) ((s.reqs (fmt (s.session sid))).filter (· ≠ invite_id)) := by
  by_cases hu : 30 < (s.friends (fmt (s.session sid))).scard
  · left; simp [friendAcceptInvite, call, hu, succeeded]
  by_cases hf : 30 < (s.friends from_uid).scard
  · left; simp [friendAcceptInvite, call, hu, hf, succeeded]
  · right
    refine ⟨not_lt.1 hu, not_lt.1 hf, ?_⟩
    simp [friendAcceptInvite, call, hu, hf, succeeded, SetTable.link]

theorem refuse_cases (sid invite_id : String) (s : St) :
    succeeded (run (friendRefuseInvite sid invite_id) s).1 = true ∧
      (run (friendRefuseInvite sid invite_id) s).2.friends = s.friends ∧
      (run (friendRefuseInvite sid invite_id) s).2.reqs =
        update s.reqs (fmt (s.session sid)) ((s.reqs (fmt (s.session sid))).filter (· ≠ invite_id)) := by
  simp [friendRefuseInvite, call, succeeded]

theorem del_cases (sid del_uid : String) (s : St) :
    succeeded (run (friendDel sid del_uid) s).1 = true ∧
      (run (friendDel sid del_uid) s).2.friends = SetTable.unlink s.friends del_uid (fmt (s.session sid)) ∧
      (run (friendDel sid del_uid) s).2.reqs = s.reqs := by
  simp [friendDel, call, succeeded, SetTable.unlink]

/-! ## Ids and senders -/

theorem toString_not_bar (n : Nat) : '|' ∉ (toString n).toList := by
  intro h
  have hlist : (toString n).toList = Nat.toDigits 10 n := Nat.toList_repr
  rw [hlist] at h
  exact absurd (isDigit_toDigits h) (by decide)

/-- What stands before the last of the separators. -/
theorem append_bar_inj {c : Char} {s t u v : List Char} (hu : c ∉ u) (hv : c ∉ v) (h : s ++ c :: u = t ++ c :: v) :
    s = t := by
  induction s generalizing t with
  | nil =>
    cases t with
    | nil => rfl
    | cons d t =>
      -- the separator after `t` would be in `u`
      simp only [List.nil_append, List.cons_append, List.cons.injEq] at h
      exact absurd (h.2 ▸ List.mem_append_right t List.mem_cons_self) hu
  | cons d s ih =>
    cases t with
    | nil =>
      simp only [List.nil_append, List.cons_append, List.cons.injEq] at h
      exact absurd (h.2 ▸ List.mem_append_right s List.mem_cons_self) hv
    | cons e t =>
      simp only [List.cons_append, List.cons.injEq] at h
      rw [h.1, ih h.2]

theorem SentBy.unique {a b iid : String} (ha : SentBy a iid) (hb : SentBy b iid) : a = b := by
  obtain ⟨t, rfl⟩ := ha
  obtain ⟨t', h⟩ := hb
  have hl := congrArg String.toList h
  simp only [String.toList_append, List.append_assoc] at hl
  exact String.toList_inj.1 (append_bar_inj (toString_not_bar t) (toString_not_bar t') hl)

/-! ## The lists and the pending invitations -/

/-- The lists hold the ids of the pending invitations, each sent by another user under an id of his. -/
structure Mirrored (reqs : String → List String) (pending : List Invitation) : Prop where
  listed : ∀ i ∈ pending, i.invite_id ∈ reqs i.to_uid
  sent : ∀ x, ∀ iid ∈ reqs x, ∃ i ∈ pending, i.to_uid = x ∧ i.invite_id = iid
  sender : ∀ i ∈ pending, i.from_uid ≠ i.to_uid ∧ SentBy i.from_uid i.invite_id

variable {reqs : String → List String} {pending : List Invitation}

theorem Mirrored.send (h : Mirrored reqs pending) {uid to_uid : String} (hne : uid ≠ to_uid) (time : Nat) :
    Mirrored (update reqs to_uid ((uid ++ "|" ++ toString time) :: reqs to_uid))
      (⟨uid, to_uid, uid ++ "|" ++ toString time⟩ :: pending) := by
  constructor
  · intro i hi
    rcases List.mem_cons.1 hi with rfl | hi
    · simp
    · by_cases hto : i.to_uid = to_uid
      · rw [hto, Function.update_self]
        exact List.mem_cons_of_mem _ (hto ▸ h.listed i hi)
      · rw [Function.update_of_ne hto]
        exact h.listed i hi
  · intro x iid hiid
    by_cases hx : x = to_uid
    · subst hx
      rw [Function.update_self] at hiid
      rcases List.mem_cons.1 hiid with rfl | hiid
      · exact ⟨_, List.mem_cons_self, rfl, rfl⟩
      · obtain ⟨i, hi, hto⟩ := h.sent x iid hiid
        exact ⟨i, List.mem_cons_of_mem _ hi, hto⟩
    · rw [Function.update_of_ne hx] at hiid
      obtain ⟨i, hi, hto⟩ := h.sent x iid hiid
      exact ⟨i, List.mem_cons_of_mem _ hi, hto⟩
  · intro i hi
    rcases List.mem_cons.1 hi with rfl | hi
    · exact ⟨hne, time, rfl⟩
    · exact h.sender i hi

theorem mem_answered {i : Invitation} {uid iid : String} :
    (i ∈ pending.filter fun i => ¬(i.to_uid = uid ∧ i.invite_id = iid)) ↔
      i ∈ pending ∧ ¬(i.to_uid = uid ∧ i.invite_id = iid) := by
  rw [List.mem_filter, decide_eq_true_eq]

/-- An answer takes the id off the list and all its invitations off the book. -/
theorem Mirrored.answer (h : Mirrored reqs pending) (uid iid : String) :
    Mirrored (update reqs uid ((reqs uid).filter (· ≠ iid)))
      (pending.filter fun i => ¬(i.to_uid = uid ∧ i.invite_id = iid)) := by
  constructor
  · intro i hi
    obtain ⟨hi, hother⟩ := mem_answered.1 hi
    have hl := h.listed i hi
    by_cases hto : i.to_uid = uid
    · have hid : i.invite_id ≠ iid := fun he => hother ⟨hto, he⟩
      rw [hto, Function.update_self]
      exact List.mem_filter.2 ⟨hto ▸ hl, decide_eq_true hid⟩
    · rwa [Function.update_of_ne hto]
  · intro x iid' hiid
    by_cases hx : x = uid
    · subst hx
      rw [Function.update_self, List.mem_filter, decide_eq_true_eq] at hiid
      obtain ⟨i, hi, hto, hid⟩ := h.sent x iid' hiid.1
      exact ⟨i, mem_answered.2 ⟨hi, fun he => hiid.2 (hid ▸ he.2)⟩, hto, hid⟩
    · rw [Function.update_of_ne hx] at hiid
      obtain ⟨i, hi, hto, hid⟩ := h.sent x iid' hiid
      exact ⟨i, mem_answered.2 ⟨hi, fun he => hx (hto ▸ he.1)⟩, hto, hid⟩
  · intro i hi
    exact h.sender i (mem_answered.1 hi).1

theorem bookStep_mirrored (r : Req) (b : Book) (h : Mirrored b.st.reqs b.pending) :
    Mirrored (bookStep r b).st.reqs (bookStep r b).pending := by
  unfold bookStep step
  cases r with
  | invite now sid to_uid msg =>
    rcases invite_cases now sid to_uid msg b.st with ⟨hno, hst⟩ | ⟨uid, hsess, hne, hyes, -, hreqs⟩
    · simp only [Req.handler, hno, hst]
      exact h
    · simp only [Req.handler, hyes, hreqs, Req.record, hsess, fmt_some, if_pos]
      exact h.send hne now.time
  | accept sid from_uid invite_id =>
    rcases accept_cases sid from_uid invite_id b.st with ⟨-, hno, hst⟩ | ⟨-, -, hyes, -, hreqs⟩
    · simp only [Req.handler, hno, hst]
      exact h
    · simp only [Req.handler, hyes, hreqs, Req.record, if_pos]
      exact h.answer _ invite_id
  | refuse sid invite_id =>
    obtain ⟨hyes, -, hreqs⟩ := refuse_cases sid invite_id b.st
    simp only [Req.handler, hyes, hreqs, Req.record, if_pos]
    exact h.answer _ invite_id
  | del sid del_uid =>
    obtain ⟨hyes, -, hreqs⟩ := del_cases sid del_uid b.st
    simp only [Req.handler, hyes, hreqs, Req.record, if_pos]
    exact h

/-! ## New friends -/

/-- Only an accept makes friends. -/
theorem friends_of_not_accept {r : Req} {b : Book} (hr : ∀ sid from_uid invite_id, r ≠ .accept sid from_uid invite_id)
    {x y : String} (hy : y ∈ (bookStep r b).st.friends x) : y ∈ b.st.friends x := by
  cases r with
  | invite now sid to_uid msg =>
    have hf : (bookStep (.invite now sid to_uid msg) b).st.friends = b.st.friends :=
      run_keepsFriends (only_friendInvite ..) b.st
    rwa [hf] at hy
  | accept sid from_uid invite_id => exact absurd rfl (hr sid from_uid invite_id)
  | refuse sid invite_id =>
    have hf : (bookStep (.refuse sid invite_id) b).st.friends = b.st.friends :=
      (refuse_cases sid invite_id b.st).2.1
    rwa [hf] at hy
  | del sid del_uid =>
    have hf : (bookStep (.del sid del_uid) b).st.friends = SetTable.unlink b.st.friends del_uid (fmt (b.st.session sid)) :=
      (del_cases sid del_uid b.st).2.1
    rw [hf] at hy
    simp only [SetTable.unlink, SetTable.mem_remove] at hy
    exact hy.2.2

section Accept
variable (sid from_uid invite_id : String) (b : Book)

/-- Both users have room for a friend. -/
def Room (s : St) : Prop := (s.friends (fmt (s.session sid))).scard ≤ 30 ∧ (s.friends from_uid).scard ≤ 30

theorem bookStep_accept (h : Room sid from_uid b.st) :
    (bookStep (.accept sid from_uid invite_id) b).st.friends =
        SetTable.link b.st.friends (fmt (b.st.session sid)) from_uid ∧
      (bookStep (.accept sid from_uid invite_id) b).pending =
        b.pending.filter fun i => ¬(i.to_uid = fmt (b.st.session sid) ∧ i.invite_id = invite_id) := by
  rcases accept_cases sid from_uid invite_id b.st with ⟨hno, -⟩ | ⟨-, -, hyes, hf, -⟩
  · exact absurd h hno
  · refine ⟨hf, ?_⟩
    simp only [bookStep, Req.handler, hyes, Req.record, if_pos]

theorem bookStep_no_room (h : ¬Room sid from_uid b.st) : bookStep (.accept sid from_uid invite_id) b = b := by
  rcases accept_cases sid from_uid invite_id b.st with ⟨-, hno, hst⟩ | ⟨hu, hf, -⟩
  · simp only [bookStep, step, Req.handler, hno, hst]
    rfl
  · exact absurd ⟨hu, hf⟩ h

end Accept

/-- Nobody is a friend of himself, friends are mutual, and the book mirrors the lists. -/
structure Orderly (b : Book) : Prop where
  both : Mutual b.st
  no_self : ∀ x, x ∉ b.st.friends x
  mirrored : Mirrored b.st.reqs b.pending

theorem namesSender_invitation {sid from_uid invite_id : String} {b : Book} (h : Orderly b)
    (hid : invite_id ∈ b.st.reqs (fmt (b.st.session sid))) (hsent : SentBy from_uid invite_id) :
    ⟨from_uid, fmt (b.st.session sid), invite_id⟩ ∈ b.pending := by
  obtain ⟨i, hi, hto, rfl⟩ := h.mirrored.sent _ _ hid
  have hfrom : i.from_uid = from_uid := (h.mirrored.sender i hi).2.unique hsent
  rw [← hfrom, ← hto]
  exact hi

theorem no_self_step (r : Req) (b : Book) (h : Orderly b) (hn : NamesSender r b.st) (x : String) :
    x ∉ (bookStep r b).st.friends x := by
  intro hx
  cases r with
  | accept sid from_uid invite_id =>
    by_cases hroom : Room sid from_uid b.st
    · rw [(bookStep_accept _ _ _ _ hroom).1] at hx
      simp only [SetTable.link, SetTable.mem_add] at hx
      -- the caller would have to be the sender of an invitation of his own list
      have hne : from_uid ≠ fmt (b.st.session sid) := by
        intro he
        obtain ⟨hid, hsent⟩ := hn hroom.1 hroom.2 (he ▸ h.no_self from_uid)
        exact (h.mirrored.sender _ (namesSender_invitation h hid hsent)).1 he
      rcases hx with ⟨hu, hf⟩ | ⟨hf, hu⟩ | hx
      · exact hne (hu.symm.trans hf)
      · exact hne (hu.symm.trans hf)
      · exact h.no_self x hx
    · rw [bookStep_no_room _ _ _ _ hroom] at hx
      exact h.no_self x hx
  | invite | refuse | del => exact h.no_self x (friends_of_not_accept (by simp) hx)

theorem consented_of_namesSender (r : Req) (b : Book) (h : Orderly b) (hn : NamesSender r b.st) : Consented r b := by
  refine ⟨?_, no_self_step r b h hn⟩
  intro x y hnew hy
  cases r with
  | accept sid from_uid invite_id =>
    by_cases hroom : Room sid from_uid b.st
    · obtain ⟨hf, hp⟩ := bookStep_accept sid from_uid invite_id b hroom
      rw [hf] at hy
      simp only [SetTable.link, SetTable.mem_add] at hy
      -- the new friends are the caller and whom he names
      have hpair : from_uid = x ∧ fmt (b.st.session sid) = y ∨ from_uid = y ∧ fmt (b.st.session sid) = x := by
        rcases hy with ⟨hx, hy⟩ | ⟨hx, hy⟩ | hy
        · exact .inl ⟨hx.symm, hy.symm⟩
        · exact .inr ⟨hy.symm, hx.symm⟩
        · exact absurd hy hnew
      have hnot : from_uid ∉ b.st.friends (fmt (b.st.session sid)) := by
        rcases hpair with ⟨rfl, rfl⟩ | ⟨rfl, rfl⟩
        · exact fun hm => hnew (h.both.symm _ _ hm)
        · exact hnew
      obtain ⟨hid, hsent⟩ := hn hroom.1 hroom.2 hnot
      refine ⟨_, namesSender_invitation h hid hsent, hpair, hid, ⟨sid, rfl, rfl⟩, ?_⟩
      rw [hp, mem_answered]
      exact fun hm => hm.2 ⟨rfl, rfl⟩
    · rw [bookStep_no_room _ _ _ _ hroom] at hy
      exact absurd hy hnew
  | invite | refuse | del => exact absurd (friends_of_not_accept (by simp) hy) hnew

theorem namesSender_of_consented (r : Req) (b : Book) (h : Orderly b) (hc : Consented r b) : NamesSender r b.st := by
  cases r with
  | accept sid from_uid invite_id =>
    intro hu hf hnot
    have hlink : from_uid ∈ (bookStep (.accept sid from_uid invite_id) b).st.friends (fmt (b.st.session sid)) := by
      rw [(bookStep_accept _ _ _ _ ⟨hu, hf⟩).1]
      simp [SetTable.link, SetTable.mem_add]
    obtain ⟨i, hi, -, hid, ⟨sid', hto, he⟩, -⟩ := hc.agreed _ _ hnot hlink
    obtain ⟨rfl, rfl, rfl⟩ := Req.accept.inj he
    exact ⟨hto ▸ hid, (h.mirrored.sender i hi).2⟩
  | invite | refuse | del => trivial

theorem bookStep_orderly (r : Req) (b : Book) (hn : NamesSender r b.st) (h : Orderly b) : Orderly (bookStep r b) :=
  ⟨step_mutual r b.st h.both, no_self_step r b h hn, bookStep_mirrored r b h.mirrored⟩

theorem emptyBook_orderly (session : String → Option String) (user : String → String → Option String) :
    Orderly (emptyBook session user) := by
  refine ⟨empty_mutual session user, fun x => MemberSet.not_mem_empty x, ?_⟩
  constructor
  · intro i hi
    exact absurd hi List.not_mem_nil
  · intro x iid hiid
    exact absurd hiid List.not_mem_nil
  · intro i hi
    exact absurd hi List.not_mem_nil

/-! ## Every run -/

/-- In every run: friends are made by consent alone if and only if every accept that makes friends names an
invitation of the caller's list and its sender. -/
theorem friends_by_consent (session : String → Option String) (user : String → String → Option String) (rs : List Req) :
    All bookStep Consented rs (emptyBook session user) ↔
      All bookStep (fun r b => NamesSender r b.st) rs (emptyBook session user) := by
  refine all_iff (I := Orderly) ?_ ?_ (emptyBook_orderly session user)
  · intro r b h
    exact ⟨namesSender_of_consented r b h, consented_of_namesSender r b h⟩
  · intro r b hn h
    exact bookStep_orderly r b hn h

/-- User 1 befriends user 2, who never invited him. -/
theorem friends_without_consent : ¬∀ session user rs, All bookStep Consented rs (emptyBook session user) := by
  intro h
  have hrun := h (fun _ => some "1") (fun _ _ => none) [.accept "s" "2" ""]
  obtain ⟨i, hi, -⟩ := hrun.1.agreed "1" "2" (by decide +kernel) (by decide +kernel)
  exact absurd hi List.not_mem_nil

end FishWeb.Friend
