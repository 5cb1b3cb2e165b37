import FishWeb.Friend.Symmetry
/-!
# The queue of friend requests

A request that passes the checks goes first on the other user's list, once for
each sender. A list of more than 30 should lose its oldest request; the line that
drops it names no variable. A request is its record too, and whoever accepts or
refuses a request of someone else's list takes the record from under it.
-/
open Python Prog Runs

namespace FishWeb.Friend

/-- `iid.split('|')[0]` -/
def sender (iid : String) : Option String := (split '|' iid).head?

def inviteId (uid : String) (now : Clock) : String := uid ++ "|" ++ toString now.time

theorem sender_inviteId {uid : String} (h : '|' ∉ uid.toList) (now : Clock) :
    sender (inviteId uid now) = some uid := by
  have hl : (inviteId uid now).toList = uid.toList ++ '|' :: (toString now.time).toList := by simp [inviteId]
  rw [sender, split, hl, splitChars_append h]
  simp

/-- The checks of `/friend/invite`. -/
structure Passes (sid to_uid : String) (s : St) : Prop where
  other : s.session sid ≠ some to_uid
  notTheirs : ∀ uid, s.session sid = some uid → uid ∉ s.friends to_uid
  notOurs : to_uid ∉ s.friends (fmt (s.session sid))
  ourRoom : (s.friends (fmt (s.session sid))).scard ≤ 30
  theirRoom : (s.friends to_uid).scard ≤ 30
  first : ∀ iid ∈ s.reqs to_uid, sender iid ≠ s.session sid

/-- `friend:invite:%s` of a queued request, as its sender left it. -/
def Recorded (s : St) (iid : String) : Prop := ∃ v, s.invite iid = some v ∧ sender iid = some v.uid

/-- The list of `to_uid` after a request: the new one, and what was there without the oldest of more than 30. -/
structure Queued (s s' : St) (to_uid invite_id : String) : Prop where
  queue : s'.reqs to_uid =
    invite_id :: if 30 < (s.reqs to_uid).length then (s.reqs to_uid).dropLast else s.reqs to_uid
  senders : ((s'.reqs to_uid).map sender).Nodup
  bounded : (s'.reqs to_uid).length ≤ 31
  recorded : ∀ iid ∈ s'.reqs to_uid, Recorded s' iid

/-- A request that passes the checks is answered and queued. -/
def InviteQueued (now : Clock) (sid to_uid msg : String) (s : St) : Prop :=
  Passes sid to_uid s → ∃ r uid, (run (friendInvite now sid to_uid msg) s).1 = .ok r ∧ s.session sid = some uid ∧
    Queued s (run (friendInvite now sid to_uid msg) s).2 to_uid (inviteId uid now)

/-- A user without a bar in his id, and a list that is not full, where no sender is twice and no record is missing. -/
structure Ready (sid to_uid : String) (s : St) : Prop where
  live : ∃ uid, s.session sid = some uid ∧ '|' ∉ uid.toList
  room : (s.reqs to_uid).length ≤ 30
  senders : ((s.reqs to_uid).map sender).Nodup
  recorded : ∀ iid ∈ s.reqs to_uid, Recorded s iid

/-! ## What the endpoint does -/

open Function (update)

/-- The store with a new request. -/
def pushed (now : Clock) (uid to_uid msg : String) (s : St) : St :=
  let invite_id := inviteId uid now
  { s with
    reqs := update s.reqs to_uid (invite_id :: s.reqs to_uid)
    invite := update s.invite invite_id (some ⟨uid, msg, now.date, fmt (s.user uid "nickname")⟩) }

section Invite
variable {now : Clock} {sid to_uid msg : String} {s : St}

/-- The request goes as far as the list. -/
theorem run_friendInvite (h : Passes sid to_uid s) : run (friendInvite now sid to_uid msg) s =
    match s.session sid with
    | none => (.error .TypeError, s)
    | some uid =>
      if 30 < (s.reqs to_uid).length then (.error .NameError, s)
      else (.ok ⟨0, "发送成功！"⟩, pushed now uid to_uid msg s) := by
  have hour : ¬30 < (s.friends (fmt (s.session sid))).scard := Nat.not_lt.2 h.ourRoom
  have htheir : ¬30 < (s.friends to_uid).scard := Nat.not_lt.2 h.theirRoom
  have hnot : to_uid ∉ (s.friends (fmt (s.session sid))).members := h.notOurs
  have hfirst : ¬∃ iid ∈ s.reqs to_uid, (split '|' iid).head? = s.session sid :=
    fun ⟨iid, hi, he⟩ => h.first iid hi he
  cases hsid : s.session sid with
  | none =>
    rw [hsid] at hour hnot hfirst
    simp only [List.head?_eq_none_iff] at hfirst
    simp [friendInvite, call, hsid, hnot, hour, htheir, hfirst]
  | some uid =>
    rw [hsid] at hour hnot hfirst
    simp only [fmt_some] at hour hnot
    have hne : uid ≠ to_uid := fun he => h.other (by rw [hsid, he])
    have htheirs : uid ∉ (s.friends to_uid).members := h.notTheirs uid hsid
    by_cases hfull : 30 < (s.reqs to_uid).length
    · simp [friendInvite, call, hsid, hne, htheirs, hnot, hour, htheir, hfirst, hfull]
    · simp [friendInvite, call, hsid, hne, htheirs, hnot, hour, htheir, hfirst, hfull, pushed, inviteId]

/-- A check that fails leaves the store. -/
theorem run_friendInvite_refused (h : ¬Passes sid to_uid s) : (run (friendInvite now sid to_uid msg) s).2 = s := by
  by_cases hother : s.session sid = some to_uid
  · simp [friendInvite, call, hother]
  by_cases htheirs : (s.session sid).any (· ∈ (s.friends to_uid).members)
  · simp [friendInvite, call, hother, htheirs]
  by_cases hnot : to_uid ∈ (s.friends (fmt (s.session sid))).members
  · simp [friendInvite, call, hother, htheirs, hnot]
  by_cases hour : 30 < (s.friends (fmt (s.session sid))).scard
  · simp [friendInvite, call, hother, htheirs, hnot, hour]
  by_cases htheir : 30 < (s.friends to_uid).scard
  · simp [friendInvite, call, hother, htheirs, hnot, hour, htheir]
  by_cases hfirst : (s.reqs to_uid).any fun iid => (split '|' iid).head? = s.session sid
  · have hfirst : ∃ iid ∈ s.reqs to_uid, (split '|' iid).head? = s.session sid := by simpa using hfirst
    simp [friendInvite, call, hother, htheirs, hnot, hour, htheir, hfirst]
  · refine absurd ⟨hother, fun uid hu hm => htheirs ?_, hnot, Nat.not_lt.1 hour, Nat.not_lt.1 htheir, ?_⟩ h
    · have hm : uid ∈ (s.friends to_uid).members := hm
      simp [hu, hm]
    · intro iid hi he
      exact hfirst (List.any_eq_true.2 ⟨iid, hi, decide_eq_true he⟩)

theorem pushed_recorded {uid : String} (hbar : '|' ∉ uid.toList) {iid : String} (h : Recorded s iid) :
    Recorded (pushed now uid to_uid msg s) iid := by
  by_cases hi : iid = inviteId uid now
  · refine ⟨⟨uid, msg, now.date, fmt (s.user uid "nickname")⟩, by simp [pushed, hi], ?_⟩
    rw [hi, sender_inviteId hbar]
  · obtain ⟨v, hv, hs⟩ := h
    exact ⟨v, by simpa [pushed, hi] using hv, hs⟩

theorem pushed_queued {uid : String} (hsid : s.session sid = some uid) (h : Passes sid to_uid s)
    (hready : Ready sid to_uid s) : Queued s (pushed now uid to_uid msg s) to_uid (inviteId uid now) := by
  obtain ⟨⟨uid', hsid', hbar⟩, hroom, hsenders, hrecorded⟩ := hready
  have hu : uid' = uid := Option.some.inj (hsid'.symm.trans hsid)
  subst hu
  have hqueue : (pushed now uid' to_uid msg s).reqs to_uid = inviteId uid' now :: s.reqs to_uid := by simp [pushed]
  constructor
  · rw [hqueue, if_neg (Nat.not_lt.2 hroom)]
  · rw [hqueue, List.map_cons, sender_inviteId hbar, List.nodup_cons]
    refine ⟨fun hm => ?_, hsenders⟩
    obtain ⟨iid, hi, he⟩ := List.mem_map.1 hm
    exact h.first iid hi (he.trans hsid.symm)
  · rw [hqueue, List.length_cons]
    omega
  · rw [hqueue]
    intro iid hi
    rcases List.mem_cons.1 hi with rfl | hi
    · exact ⟨⟨uid', msg, now.date, fmt (s.user uid' "nickname")⟩, by simp [pushed], sender_inviteId hbar now⟩
    · exact pushed_recorded hbar (hrecorded iid hi)

/-- What is queued and recorded was ready before. -/
theorem ready_of_queued {uid : String} (hsid : s.session sid = some uid) (hroom : (s.reqs to_uid).length ≤ 30)
    (h : Queued s (pushed now uid to_uid msg s) to_uid (inviteId uid now)) : Ready sid to_uid s := by
  have hqueue : (pushed now uid to_uid msg s).reqs to_uid = inviteId uid now :: s.reqs to_uid := by simp [pushed]
  have hnew : (pushed now uid to_uid msg s).invite (inviteId uid now) =
      some ⟨uid, msg, now.date, fmt (s.user uid "nickname")⟩ := by simp [pushed]
  obtain ⟨-, hsenders, -, hrecorded⟩ := h
  rw [hqueue] at hsenders hrecorded
  rw [List.map_cons, List.nodup_cons] at hsenders
  refine ⟨⟨uid, hsid, fun hbar => ?_⟩, hroom, hsenders.2, fun iid hi => ?_⟩
  · -- the part before the bar is not all of the id
    obtain ⟨v, hv, hs⟩ := hrecorded (inviteId uid now) List.mem_cons_self
    rw [hnew] at hv
    cases hv
    have hpart : uid ∈ split '|' (inviteId uid now) := List.mem_of_head? hs
    exact not_mem_of_mem_split hpart hbar
  · have hne : iid ≠ inviteId uid now := fun he => hsenders.1 (List.mem_map.2 ⟨iid, hi, by rw [he]⟩)
    obtain ⟨v, hv, hs⟩ := hrecorded iid (List.mem_cons_of_mem _ hi)
    exact ⟨v, by simpa [pushed, hne] using hv, hs⟩

/-- A request that passes the checks is queued just when the user is signed in and the list has room and is in order. -/
theorem inviteQueued_iff : InviteQueued now sid to_uid msg s ↔ (Passes sid to_uid s → Ready sid to_uid s) := by
  constructor
  · intro h hpasses
    obtain ⟨r, uid, hok, hsid, hqueued⟩ := h hpasses
    have hrun : run (friendInvite now sid to_uid msg) s = _ := run_friendInvite hpasses
    simp only [hsid] at hrun
    by_cases hfull : 30 < (s.reqs to_uid).length
    · rw [if_pos hfull] at hrun
      rw [hrun] at hok
      cases hok
    · rw [if_neg hfull] at hrun
      rw [hrun] at hqueued
      exact ready_of_queued hsid (Nat.not_lt.1 hfull) hqueued
  · intro h hpasses
    have hready := h hpasses
    obtain ⟨uid, hsid, hbar⟩ := hready.live
    have hrun : run (friendInvite now sid to_uid msg) s = _ := run_friendInvite hpasses
    simp only [hsid, if_neg (Nat.not_lt.2 hready.room)] at hrun
    exact ⟨_, uid, by rw [hrun], hsid, by rw [hrun]; exact pushed_queued hsid hpasses hready⟩

end Invite

/-! ## Runs -/

/-- Every list in order: a sender is on it once, each of its requests has its record. -/
structure InOrder (s : St) : Prop where
  senders : ∀ u, ((s.reqs u).map sender).Nodup
  recorded : ∀ u, ∀ iid ∈ s.reqs u, Recorded s iid

/-- A request of a user without a bar in his id, to a list with room, if it passes the checks. Only what is on no other
list is accepted or refused. -/
def Fits : Req → St → Prop
  | .invite _ sid to_uid _, s => Passes sid to_uid s →
      (∃ uid, s.session sid = some uid ∧ '|' ∉ uid.toList) ∧ (s.reqs to_uid).length ≤ 30
  | .accept sid _ invite_id, s | .refuse sid invite_id, s => ∀ u, u ≠ fmt (s.session sid) → invite_id ∉ s.reqs u
  | .del _ _, _ => True

/-- The invitations among the requests are queued. -/
def Queues : Req → St → Prop
  | .invite now sid to_uid msg, s => InviteQueued now sid to_uid msg s
  | .accept _ _ _, _ | .refuse _ _, _ | .del _ _, _ => True

theorem InOrder.ready {s : St} (h : InOrder s) {now : Clock} {sid to_uid msg : String}
    (hfits : Fits (.invite now sid to_uid msg) s) (hpasses : Passes sid to_uid s) : Ready sid to_uid s :=
  ⟨(hfits hpasses).1, (hfits hpasses).2, h.senders to_uid, h.recorded to_uid⟩

theorem InOrder.pushed {s : St} (h : InOrder s) {now : Clock} {sid uid to_uid msg : String}
    (hsid : s.session sid = some uid) (hpasses : Passes sid to_uid s) (hready : Ready sid to_uid s) :
    InOrder (pushed now uid to_uid msg s) := by
  have hqueued : Queued s (Friend.pushed now uid to_uid msg s) to_uid (inviteId uid now) :=
    pushed_queued hsid hpasses hready
  obtain ⟨uid', hsid', hbar⟩ := hready.live
  have hu : uid' = uid := Option.some.inj (hsid'.symm.trans hsid)
  subst hu
  have hother : ∀ u, u ≠ to_uid → (Friend.pushed now uid' to_uid msg s).reqs u = s.reqs u := by
    intro u hu
    simp [Friend.pushed, hu]
  constructor
  · intro u
    by_cases hu : u = to_uid
    · exact hu ▸ hqueued.senders
    · rw [hother u hu]
      exact h.senders u
  · intro u
    by_cases hu : u = to_uid
    · exact hu ▸ hqueued.recorded
    · rw [hother u hu]
      exact fun iid hi => pushed_recorded hbar (h.recorded u iid hi)

/-- A request taken off a list goes with its record, if it is on no other. -/
theorem InOrder.removed {s s' : St} (h : InOrder s) (uid invite_id : String)
    (hreqs : s'.reqs = update s.reqs uid ((s.reqs uid).filter (· ≠ invite_id)))
    (hinvite : s'.invite = update s.invite invite_id none) (hon : ∀ u, u ≠ uid → invite_id ∉ s.reqs u) :
    InOrder s' := by
  have hsub : ∀ u, (s'.reqs u).Sublist (s.reqs u) := by
    intro u
    rw [hreqs]
    by_cases hu : u = uid
    · subst hu
      rw [Function.update_self]
      exact List.filter_sublist
    · rw [Function.update_of_ne hu]
  refine ⟨fun u => (h.senders u).sublist ((hsub u).map sender), fun u iid hi => ?_⟩
  have hne : iid ≠ invite_id := by
    rintro rfl
    by_cases hu : u = uid
    · subst hu
      rw [hreqs, Function.update_self] at hi
      exact absurd rfl (of_decide_eq_true (List.mem_filter.1 hi).2)
    · exact hon u hu ((hsub u).subset hi)
  obtain ⟨v, hv, hs⟩ := h.recorded u iid ((hsub u).subset hi)
  exact ⟨v, by rw [hinvite, Function.update_of_ne hne, hv], hs⟩

theorem step_inOrder (r : Req) (s : St) (hfits : Fits r s) (h : InOrder s) : InOrder (step r s) := by
  cases r with
  | invite now sid to_uid msg =>
    rw [step, Req.handler]
    by_cases hpasses : Passes sid to_uid s
    · have hready := h.ready hfits hpasses
      obtain ⟨uid, hsid, -⟩ := hready.live
      rw [run_friendInvite hpasses]
      simp only [hsid, if_neg (Nat.not_lt.2 hready.room)]
      exact h.pushed hsid hpasses hready
    · rw [run_friendInvite_refused hpasses]
      exact h
  | accept sid from_uid invite_id =>
    by_cases hu : 30 < (s.friends (fmt (s.session sid))).scard
    · simpa [step, Req.handler, friendAcceptInvite, call, hu] using h
    by_cases hf : 30 < (s.friends from_uid).scard
    · simpa [step, Req.handler, friendAcceptInvite, call, hu, hf] using h
    · refine h.removed (fmt (s.session sid)) invite_id ?_ ?_ hfits <;>
        simp [step, Req.handler, friendAcceptInvite, call, hu, hf]
  | refuse sid invite_id =>
    refine h.removed (fmt (s.session sid)) invite_id ?_ ?_ hfits <;>
      simp [step, Req.handler, friendRefuseInvite, call]
  | del sid del_uid =>
    constructor
    · simpa [step, Req.handler, friendDel, call] using h.senders
    · simpa [step, Req.handler, friendDel, call, Recorded] using h.recorded

theorem empty_inOrder (session : String → Option String) (user : String → String → Option String) :
    InOrder (empty session user) :=
  ⟨fun _ => List.nodup_nil, fun _ _ hi => absurd hi List.not_mem_nil⟩

/-- Exactly when a request that passes the checks is queued; and in a run from an empty store whose requests all
meet their condition, every invitation is. -/
theorem invitations_queued (session : String → Option String) (user : String → String → Option String) (rs : List Req) :
    (∀ now sid to_uid msg s, InviteQueued now sid to_uid msg s ↔ (Passes sid to_uid s → Ready sid to_uid s)) ∧
      (All step Fits rs (empty session user) → All step Queues rs (empty session user)) := by
  refine ⟨fun _ _ _ _ _ => inviteQueued_iff, fun h => ?_⟩
  refine all_of_inv step_inOrder (fun r s hfits hi => ?_) h (empty_inOrder session user)
  cases r with
  | invite now sid to_uid msg => exact inviteQueued_iff.2 fun hpasses => hi.ready hfits hpasses
  | accept | refuse | del => trivial

/-- Sessions named after their users. -/
def namedSessions : St := empty some fun _ _ => none

theorem invitations_queued_two : All step Queues
    [.invite ⟨1, "2020-01-01"⟩ "1" "0" "hi", .invite ⟨2, "2020-01-01"⟩ "2" "0" "hi"] namedSessions := by
  refine (invitations_queued some (fun _ _ => none) _).2 ⟨fun _ => ⟨⟨"1", rfl, by decide⟩, by decide⟩, ?_, trivial⟩
  exact fun _ => ⟨⟨"2", rfl, by decide⟩, by decide⟩

/-- Invitations of the users 1 to `n` to user 0, a second apart. -/
def invitations (n : Nat) : List Req :=
  (List.range n).map fun i => .invite ⟨i, "2020-01-01"⟩ (toString (i + 1)) "0" "hi"

/-- The thirty-second invitation ends in an exception. -/
theorem thirty_second_invite_fails : Passes "32" "0" (after step (invitations 31) namedSessions) ∧
    (run (friendInvite ⟨31, "2020-01-01"⟩ "32" "0" "hi") (after step (invitations 31) namedSessions)).1 =
      .error .NameError ∧
    ¬InviteQueued ⟨31, "2020-01-01"⟩ "32" "0" "hi" (after step (invitations 31) namedSessions) := by
  have hsession : (after step (invitations 31) namedSessions).session "32" = some "32" := by decide +kernel
  have hours : ((after step (invitations 31) namedSessions).friends "32").members = [] := by decide +kernel
  have htheirs : ((after step (invitations 31) namedSessions).friends "0").members = [] := by decide +kernel
  have hpasses : Passes "32" "0" (after step (invitations 31) namedSessions) := by
    constructor
    · rw [hsession]
      decide
    · intro uid _ hm
      have hm : uid ∈ ((after step (invitations 31) namedSessions).friends "0").members := hm
      rw [htheirs] at hm
      exact absurd hm List.not_mem_nil
    · rw [hsession, fmt_some]
      intro hm
      have hm : "0" ∈ ((after step (invitations 31) namedSessions).friends "32").members := hm
      rw [hours] at hm
      exact absurd hm List.not_mem_nil
    · rw [hsession]
      decide +kernel
    · decide +kernel
    · decide +kernel
  have hrun : (run (friendInvite ⟨31, "2020-01-01"⟩ "32" "0" "hi") (after step (invitations 31) namedSessions)).1 =
      .error .NameError := by decide +kernel
  refine ⟨hpasses, hrun, fun h => ?_⟩
  obtain ⟨r, _, hok, -⟩ := h hpasses
  rw [hrun] at hok
  cases hok

end FishWeb.Friend
