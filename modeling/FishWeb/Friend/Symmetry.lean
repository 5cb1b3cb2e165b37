import FishWeb.Friend.Model
import FishWeb.Lib.Runs
/-!
# Who is whose friend

Invitations change no friend set. Accepting one links two users in both
directions, if each has at most 30 friends; deleting a friend unlinks them. So
in every run the relation is symmetric and nobody has more than 31 friends.
-/
open Python Prog Runs

namespace FishWeb.Friend

inductive Req where
  | invite (now : Clock) (sid to_uid msg : String)
  | accept (sid from_uid invite_id : String)
  | refuse (sid invite_id : String)
  | del (sid del_uid : String)
  deriving Repr, DecidableEq

def Req.handler : Req → Handler Reply
  | .invite now sid to_uid msg => friendInvite now sid to_uid msg
  | .accept sid from_uid invite_id => friendAcceptInvite sid from_uid invite_id
  | .refuse sid invite_id => friendRefuseInvite sid invite_id
  | .del sid del_uid => friendDel sid del_uid

def step (r : Req) (s : St) : St := (run r.handler s).2

/-- The command leaves the friend sets alone. -/
def KeepsFriends ⦃β : Type⦄ : Cmd β → Prop
  | .sadd _ _ | .srem _ _ => False
  | .sessionUid _ | .hget _ _ | .smembers _ | .scard _ | .lrange _ | .llen _ | .lpush _ _ | .lrem _ _
  | .hmsetInvite _ _ | .deleteInvite _ => True

theorem run_keepsFriends {α : Type} {p : Handler α} (h : Only KeepsFriends p) (s : St) :
    (run p s).2.friends = s.friends := by
  refine h.run_inv (I := fun s' : St => s'.friends = s.friends) ?_ rfl
  intro β c s' hc hs
  cases c with
  | sadd | srem => exact hc.elim
  | _ => exact hs

theorem only_friendInvite (now : Clock) (sid to_uid msg : String) :
    Only KeepsFriends (friendInvite now sid to_uid msg) := by
  simp [friendInvite, call, KeepsFriends]

theorem only_friendRefuseInvite (sid invite_id : String) : Only KeepsFriends (friendRefuseInvite sid invite_id) := by
  simp [friendRefuseInvite, call, KeepsFriends]

/-- An accepted invitation links the two users, where both sets have room. -/
theorem friends_accept (sid from_uid invite_id : String) (s : St) :
    (run (friendAcceptInvite sid from_uid invite_id) s).2.friends = s.friends ∨
      (s.friends (fmt (s.session sid))).scard < 31 ∧ (s.friends from_uid).scard < 31 ∧
        (run (friendAcceptInvite sid from_uid invite_id) s).2.friends =
          SetTable.link s.friends (fmt (s.session sid)) from_uid := by
  by_cases hu : 30 < (s.friends (fmt (s.session sid))).scard
  · left; simp [friendAcceptInvite, call, hu]
  by_cases hf : 30 < (s.friends from_uid).scard
  · left; simp [friendAcceptInvite, call, hu, hf]
  · right
    refine ⟨by omega, by omega, ?_⟩
    simp [friendAcceptInvite, call, hu, hf, SetTable.link]

theorem friends_del (sid del_uid : String) (s : St) : (run (friendDel sid del_uid) s).2.friends =
    SetTable.unlink s.friends del_uid (fmt (s.session sid)) := by
  simp [friendDel, call, SetTable.unlink]

/-- What a request does to the friend sets. -/
inductive Effect (s s' : St) : Prop
  | nothing (h : s'.friends = s.friends)
  | link (a b : String) (ha : (s.friends a).scard < 31) (hb : (s.friends b).scard < 31)
      (h : s'.friends = SetTable.link s.friends a b)
  | unlink (a b : String) (h : s'.friends = SetTable.unlink s.friends a b)

theorem effect_of (r : Req) (s : St) : Effect s (step r s) := by
  cases r with
  | invite now sid to_uid msg => exact .nothing (run_keepsFriends (only_friendInvite ..) s)
  | accept sid from_uid invite_id =>
    rcases friends_accept sid from_uid invite_id s with h | ⟨ha, hb, h⟩
    · exact .nothing h
    · exact .link _ _ ha hb h
  | refuse sid invite_id => exact .nothing (run_keepsFriends (only_friendRefuseInvite ..) s)
  | del sid del_uid => exact .unlink _ _ (friends_del sid del_uid s)

/-- The friend relation of a store. -/
structure Mutual (s : St) : Prop where
  symm : SetTable.Symm s.friends
  bounded : SetTable.Bounded s.friends 31

theorem step_mutual (r : Req) (s : St) (h : Mutual s) : Mutual (step r s) := by
  cases effect_of r s with
  | nothing he =>
    constructor <;> rw [he]
    · exact h.symm
    · exact h.bounded
  | link a b ha hb he =>
    constructor <;> rw [he]
    · exact h.symm.link
    · exact h.bounded.link ha hb
  | unlink a b he =>
    constructor <;> rw [he]
    · exact h.symm.unlink
    · exact h.bounded.unlink

/-- A store without friends and requests. -/
def empty (session : String → Option String) (user : String → String → Option String) : St where
  session := session
  user := user
  friends := fun _ => ∅
  reqs := fun _ => []
  invite := fun _ => none

theorem empty_mutual (session : String → Option String) (user : String → String → Option String) :
    Mutual (empty session user) := by
  constructor
  · intro a b hb
    exact absurd hb (MemberSet.not_mem_empty b)
  · intro a
    exact Nat.zero_le 31

/-- Whatever the users invite, accept, refuse and delete: who has a friend is a friend of his, and nobody
has more than 31. -/
theorem friends_mutual (session : String → Option String) (user : String → String → Option String) (rs : List Req) :
    (∀ a b, b ∈ (after step rs (empty session user)).friends a ↔ a ∈ (after step rs (empty session user)).friends b) ∧
      ∀ a, ((after step rs (empty session user)).friends a).scard ≤ 31 := by
  have h : Mutual (after step rs (empty session user)) := after_keeps step_mutual rs (empty_mutual session user)
  exact ⟨fun a b => ⟨h.symm a b, h.symm b a⟩, h.bounded⟩

end FishWeb.Friend
