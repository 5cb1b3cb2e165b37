import FishWeb.Guild.Model
/-!
# What the guild handlers come to

For a user who is logged in: what each handler answers, and the store it leaves.
-/
open Python Prog Counters
open Function (update)

namespace FishWeb.Guild

open Common

/-! ## Companies -/

section Top
variable (agent : String → Option Agent)

def agentIn (id : String) : Agent := (agent id).getD ⟨none, none, none, none, none⟩

/-- Where `climb` ends, if it does. -/
def climbTo : Nat → Option String → Option (Option String)
  | 0, _ => none
  | fuel + 1, agentId =>
    let parent := (agentIn agent (fmt agentId)).parent_id
    match (agentIn agent (fmt parent)).type.bind int with
    | some n => if n = 1 then some parent else climbTo fuel parent
    | none => some parent

/-- What `getTopAgentId` returns, if it does. -/
def topOf (fuel : Nat) (agentId : Option String) : Option (Option String) :=
  if (agentIn agent (fmt agentId)).type = some "0" ∨ (agentIn agent (fmt agentId)).type = some "1" then some agentId
  else climbTo agent fuel agentId

end Top

theorem run_climb (s : St) (fuel : Nat) {agentId top : Option String} (h : climbTo s.agent fuel agentId = some top) :
    run (climb fuel agentId) s = (.ok top, s) := by
  induction fuel generalizing agentId with
  | zero => cases h
  | succ fuel ih =>
    rw [climbTo] at h
    show run (match ((s.agentOf (fmt (s.agentOf (fmt agentId)).parent_id)).type).bind int with
      | some n => if n = 1 then .ret (s.agentOf (fmt agentId)).parent_id else climb fuel (s.agentOf (fmt agentId)).parent_id
      | none => .ret (s.agentOf (fmt agentId)).parent_id) s = _
    change (match ((s.agentOf (fmt (s.agentOf (fmt agentId)).parent_id)).type).bind int with
      | some n => if n = 1 then some (s.agentOf (fmt agentId)).parent_id else climbTo s.agent fuel (s.agentOf (fmt agentId)).parent_id
      | none => some (s.agentOf (fmt agentId)).parent_id) = _ at h
    cases hn : ((s.agentOf (fmt (s.agentOf (fmt agentId)).parent_id)).type).bind int with
    | none =>
      rw [hn] at h
      rw [← Option.some.inj h]
      rfl
    | some n =>
      rw [hn] at h
      dsimp only at h ⊢
      split at h
      · next hone =>
        rw [if_pos hone, ← Option.some.inj h]
        rfl
      · next hone =>
        rw [if_neg hone]
        exact ih h

theorem run_getTopAgentId {s : St} {fuel : Nat} {agentId top : Option String} (h : topOf s.agent fuel agentId = some top) :
    run (getTopAgentId fuel agentId) s = (.ok top, s) := by
  have htype : run (send (.hgetType (fmt agentId)) : Handler (Option String)) s = (.ok (agentIn s.agent (fmt agentId)).type, s) := rfl
  unfold getTopAgentId
  rw [run_bind_ok htype]
  unfold topOf at h
  split at h
  · next hc =>
    rw [if_pos hc, ← Option.some.inj h]
    rfl
  · next hc =>
    rw [if_neg hc]
    exact run_climb s fuel h

/-! ## Cards -/

/-- The cards that a company gives a user who is new to guilds. -/
def defaultOf (agent : String → Option Agent) (top : Option String) : Amount :=
  let defaultCard := ((agentIn agent (fmt top)).defaultRoomCard).getD ""
  if defaultCard = "" then .number 0 else .text defaultCard

/-- What `cardsOf` returns, for a user with these cards, whose last guild and whose guild are of these companies. -/
def worth (agent : String → Option Agent) (card : String → Option Int) (ag lastGroup lastTop top : Option String) : Amount :=
  if lastGroup.getD "" = "" then
    match card (fmt top) with
    | some n => .number n
    | none => defaultOf agent top
  else if lastTop = top then orZero (card (fmt lastGroup))
  else match card (fmt top) with
    | some n => .number n
    | none => orZero (card (fmt ag))

/-- The cards of a user. -/
def St.cards (s : St) (id : String) (groupId : String) : Option Int := s.card (groupId, id)

theorem run_getDefaultRoomCard {s : St} {fuel : Nat} {ag top : Option String} (h : topOf s.agent fuel ag = some top) (id : String)
    (lastGroup : Bool) : run (getDefaultRoomCard fuel ag id lastGroup) s = (.ok (match s.card (fmt top, id) with
      | some n => .number n
      | none => if lastGroup then orZero (s.card (fmt ag, id)) else defaultOf s.agent top), s) := by
  have hcard : run (send (.getCard (fmt top) id) : Handler (Option Int)) s = (.ok (s.card (fmt top, id)), s) := rfl
  unfold getDefaultRoomCard
  rw [run_bind_ok (run_getTopAgentId h), run_bind_ok hcard]
  cases s.card (fmt top, id) with
  | some n => rfl
  | none =>
    cases lastGroup with
    | true => rfl
    | false =>
      have hdefault : run (send (.hgetDefaultRoomCard (fmt top)) : Handler (Option String)) s =
          (.ok (agentIn s.agent (fmt top)).defaultRoomCard, s) := rfl
      simp only [Bool.false_eq_true, if_false]
      rw [run_bind_ok hdefault]
      unfold defaultOf
      dsimp only
      split <;> rfl

theorem run_cardsOf {s : St} {fuel : Nat} {ag lastGroup lastTop top : Option String} (htop : topOf s.agent fuel ag = some top)
    (hlast : lastGroup.getD "" ≠ "" → topOf s.agent fuel lastGroup = some lastTop) (id : String) :
    run (cardsOf fuel id ag lastGroup) s = (.ok (worth s.agent (s.cards id) ag lastGroup lastTop top), s) := by
  unfold cardsOf worth
  by_cases hl : lastGroup.getD "" = ""
  · rw [if_pos hl, if_pos hl]
    exact run_getDefaultRoomCard htop id false
  · rw [if_neg hl, if_neg hl, run_bind_ok (run_getTopAgentId (hlast hl)), run_bind_ok (run_getTopAgentId htop)]
    by_cases he : lastTop = top
    · rw [if_pos he, if_pos he]
      rfl
    · rw [if_neg he, if_neg he]
      exact run_getDefaultRoomCard htop id true

/-! ## Handlers -/

/-- The session is of the user with this id. -/
structure Login (shared : Shared) (sid id : String) : Prop where
  hall : ∃ account, shared.hall sid = .ok (account, userTableOf id)
  split : (split ':' (userTableOf id))[1]? = some id

section User
variable {s : St} {fuel : Nat} {sid id : String} (hlogin : Login s.shared sid id)
include hlogin

theorem run_idOf : run (idOf (userTableOf id)) s = (.ok id, s) := by
  rw [idOf, hlogin.split]
  rfl

omit hlogin in
theorem run_tryExitGroup {groupId : String} {top : Option String} (htop : topOf s.agent fuel (some groupId) = some top) :
    run (tryExitGroup fuel (userTableOf id) id groupId) s =
      (.ok (), exited s (userTableOf id) id groupId (fmt top) (val s.card (groupId, id))) := by
  unfold tryExitGroup
  rw [run_bind_ok (run_getTopAgentId htop)]
  rfl

/-- `/exitGroup` of a user who is logged in, from where it has read his guild. -/
theorem run_exitGroup_eq : run (exitGroup fuel sid) s = run (do
    if ← send (.existsAgent (fmt (s.parentAg (userTableOf id)))) then
      tryExitGroup fuel (userTableOf id) id (fmt (s.parentAg (userTableOf id)))
      return ⟨0, some "退出公会成功", none, none, none⟩
    return .fail (-1) "退出公会失败" : Handler Reply) s := by
  obtain ⟨account, hall⟩ := hlogin.hall
  obtain ⟨hlive, rfl, htable, huser⟩ := Shared.hall_ok hall
  have hexists : run (ask (.existsSession sid) : Handler Bool) s = (.ok true, s) := by rw [← hlive]; rfl
  have hsession : run (ask (.hmgetSession sid) : Handler _) s =
      (.ok ((s.shared.session sid).map Prod.fst, (s.shared.session sid).map Prod.snd), s) := rfl
  have htable' : run (ask (.getUserTable (fmt ((s.shared.session sid).map Prod.fst))) : Handler (Option String)) s =
      (.ok (s.shared.userTable (fmt ((s.shared.session sid).map Prod.fst))), s) := rfl
  have huser' : run (ask (.existsUser (userTableOf id)) : Handler Bool) s = (.ok true, s) := by rw [← huser]; rfl
  have hgroups : run (send (.hmgetGroups (userTableOf id)) : Handler _) s =
      (.ok (s.parentAg (userTableOf id), s.lastGroup (userTableOf id)), s) := rfl
  unfold exitGroup
  rw [run_bind_ok hexists]
  simp only [Bool.not_true, Bool.false_eq_true, if_false]
  rw [run_bind_ok hsession]
  dsimp only
  rw [run_bind_ok htable', ← htable, run_bind_ok huser']
  simp only [Bool.not_true, Bool.false_eq_true, if_false]
  rw [run_bind_ok hgroups]
  dsimp only
  rw [run_bind_ok (run_idOf hlogin)]

theorem run_exitGroup_out (hnone : s.agent (fmt (s.parentAg (userTableOf id))) = none) :
    run (exitGroup fuel sid) s = (.ok (.fail (-1) "退出公会失败"), s) := by
  rw [run_exitGroup_eq hlogin]
  have hexists : run (send (.existsAgent (fmt (s.parentAg (userTableOf id)))) : Handler Bool) s = (.ok false, s) := by
    show (Except.ok (s.agent (fmt (s.parentAg (userTableOf id)))).isSome, s) = _
    rw [hnone]
    rfl
  rw [run_bind_ok hexists]
  rfl

theorem run_exitGroup {groupId : String} {top : Option String} (hag : s.parentAg (userTableOf id) = some groupId)
    (hex : (s.agent groupId).isSome) (htop : topOf s.agent fuel (some groupId) = some top) :
    run (exitGroup fuel sid) s = (.ok ⟨0, some "退出公会成功", none, none, none⟩,
      exited s (userTableOf id) id groupId (fmt top) (val s.card (groupId, id))) := by
  rw [run_exitGroup_eq hlogin, hag, fmt_some]
  have hexists : run (send (.existsAgent groupId) : Handler Bool) s = (.ok true, s) := by rw [← hex]; rfl
  rw [run_bind_ok hexists, if_pos rfl, run_bind_ok (run_tryExitGroup htop)]
  rfl

omit hlogin in
theorem autoCheck_cases (auto_check : Option String) :
    (∃ k, autoCheck auto_check = .ret k) ∨ autoCheck auto_check = .raise .ValueError := by
  unfold autoCheck
  split
  · exact .inl ⟨_, rfl⟩
  · cases int (fmt auto_check) with
    | none => exact .inr rfl
    | some k => exact .inl ⟨k, rfl⟩

/-- The store that a user leaves behind who joins another guild: he has left his own. -/
def unguilded (fuel : Nat) (s : St) (id : String) : St :=
  match s.parentAg (userTableOf id) with
  | none => s
  | some groupId =>
    if (s.agent groupId).isSome then
      exited s (userTableOf id) id groupId (fmt ((topOf s.agent fuel (some groupId)).getD none)) (val s.card (groupId, id))
    else s

/-- `/joinGroup` refuses and leaves the store, or the user leaves his guild and applies. -/
theorem run_joinGroup (curTime groupId : String) {a : String} (hag : s.parentAg (userTableOf id) = some a)
    (htop : (s.agent a).isSome → (topOf s.agent fuel (some a)).isSome) :
    ((run (joinGroup fuel curTime sid groupId) s).2 = s ∧
        ∀ r, (run (joinGroup fuel curTime sid groupId) s).1 = .ok r → r.code ≠ 0) ∨
      (s.agent groupId).isSome ∧ ∃ auto_check : Int, ∃ accepted : Bool,
        run (joinGroup fuel curTime sid groupId) s = (.ok ⟨0, some "等待公会确认中", none, none, none⟩,
          applies (if accepted then entered (unguilded fuel s id) id groupId else unguilded fuel s id) id groupId
            [groupId, toString auto_check, curTime]) := by
  obtain ⟨account, hall⟩ := hlogin.hall
  have hhall := run_hallUser (D := Own) sid s
  rw [show (HasShared.shared s).hall sid = .ok (account, userTableOf id) from hall] at hhall
  unfold joinGroup
  rw [run_bind_ok hhall]
  dsimp only
  have hexists : ∀ g, run (send (.existsAgent g) : Handler Bool) s = (.ok (s.agent g).isSome, s) := fun _ => rfl
  have hagent : run (send (.hmgetAgent groupId) : Handler _) s =
      (.ok ((s.agentOf groupId).valid, (s.agentOf groupId).auto_check), s) := rfl
  have htype : run (send (.hgetType groupId) : Handler _) s = (.ok (s.agentOf groupId).type, s) := rfl
  have hgroups : run (send (.hmgetGroups (userTableOf id)) : Handler _) s =
      (.ok (s.parentAg (userTableOf id), s.lastGroup (userTableOf id)), s) := rfl
  rw [run_bind_ok (hexists groupId)]
  cases hex : (s.agent groupId).isSome with
  | false =>
    left
    refine ⟨rfl, fun r hr => ?_⟩
    cases hr
    exact by decide
  | true =>
  simp only [Bool.not_true, Bool.false_eq_true, if_false]
  rw [run_bind_ok hagent]
  dsimp only
  rcases autoCheck_cases (s.agentOf groupId).auto_check with ⟨k, hk⟩ | hk
  · rw [hk, ret_bind]
    by_cases hvalid : (s.agentOf groupId).valid ≠ some "1"
    · rw [if_pos hvalid]
      left
      refine ⟨rfl, fun r hr => ?_⟩
      cases hr
      decide
    rw [if_neg hvalid, run_bind_ok htype]
    cases htext : (s.agentOf groupId).type with
    | none => exact .inl ⟨rfl, fun r hr => by cases hr⟩
    | some text =>
    rw [orRaise_some, ret_bind]
    cases hint : int text with
    | none => exact .inl ⟨rfl, fun r hr => by cases hr⟩
    | some n =>
    rw [orRaise_some, ret_bind]
    by_cases hcompany : n = 1
    · rw [if_pos hcompany]
      left
      refine ⟨rfl, fun r hr => ?_⟩
      cases hr
      decide
    rw [if_neg hcompany, run_bind_ok (run_idOf hlogin), run_bind_ok hgroups]
    dsimp only
    rw [run_bind_ok (hexists _), hag, fmt_some]
    refine .inr ⟨trivial, k, decide (k = CHECK_SUCCESS), ?_⟩
    unfold unguilded
    rw [hag]
    dsimp only
    cases ha : (s.agent a).isSome with
    | false => rfl
    | true =>
      obtain ⟨top, ht⟩ := Option.isSome_iff_exists.1 (htop ha)
      rw [if_pos rfl, if_pos rfl, run_bind_ok (run_tryExitGroup ht), ht]
      rfl
  · rw [hk]
    exact .inl ⟨rfl, fun r hr => by cases hr⟩

theorem run_checkjoinGroup_eq {joinMessage : List String} {joinNum text : String} {joinResult : Int}
    (hmsg : s.message id = some joinMessage) (hnum : joinMessage[0]? = some joinNum) (htext : joinMessage[1]? = some text)
    (hres : int text = some joinResult) : run (checkjoinGroup fuel sid) s = run (do
      if joinResult ≠ 0 then
        let defaultCard ← cardsOf fuel id (s.parentAg (userTableOf id)) (s.lastGroup (userTableOf id))
        send (.setCard (fmt (s.parentAg (userTableOf id))) id (← defaultCard.toInt))
        send (.hsetBaseScore (userTableOf id) "[1]")
      if joinResult ≠ 2 then return ⟨0, none, none, some joinResult, some joinNum⟩
      else return ⟨0, some "加入公会失败", none, some joinResult, some joinNum⟩ : Handler Reply) s := by
  obtain ⟨account, hall⟩ := hlogin.hall
  have hhall := run_hallUser (D := Own) sid s
  rw [show (HasShared.shared s).hall sid = .ok (account, userTableOf id) from hall] at hhall
  have hgroups : run (send (.hmgetGroups (userTableOf id)) : Handler _) s =
      (.ok (s.parentAg (userTableOf id), s.lastGroup (userTableOf id)), s) := rfl
  have hmessage : run (send (.getMessage id) : Handler _) s = (.ok (some joinMessage), s) := by rw [← hmsg]; rfl
  unfold checkjoinGroup
  rw [run_bind_ok hhall]
  dsimp only
  rw [run_bind_ok (run_idOf hlogin), run_bind_ok hgroups]
  dsimp only
  rw [run_bind_ok hmessage, orRaise_some, ret_bind, hnum, orRaise_some, ret_bind, htext, orRaise_some, ret_bind, hres,
    orRaise_some, ret_bind]

/-- A join that is not decided changes nothing. -/
theorem run_checkjoinGroup_pending {joinMessage : List String} {joinNum text : String}
    (hmsg : s.message id = some joinMessage) (hnum : joinMessage[0]? = some joinNum) (htext : joinMessage[1]? = some text)
    (hres : int text = some 0) : run (checkjoinGroup fuel sid) s = (.ok ⟨0, none, none, some 0, some joinNum⟩, s) := by
  rw [run_checkjoinGroup_eq hlogin hmsg hnum htext hres]
  rfl

/-- A join that is decided sets the cards. -/
theorem run_checkjoinGroup {joinMessage : List String} {joinNum text : String} {joinResult n : Int}
    (hmsg : s.message id = some joinMessage) (hnum : joinMessage[0]? = some joinNum) (htext : joinMessage[1]? = some text)
    (hres : int text = some joinResult) (hne : joinResult ≠ 0) {lastTop top : Option String}
    (htop : topOf s.agent fuel (s.parentAg (userTableOf id)) = some top)
    (hlast : (s.lastGroup (userTableOf id)).getD "" ≠ "" → topOf s.agent fuel (s.lastGroup (userTableOf id)) = some lastTop)
    (hn : (worth s.agent (s.cards id) (s.parentAg (userTableOf id)) (s.lastGroup (userTableOf id)) lastTop top).toInt = .ret n) :
    ∃ r, run (checkjoinGroup fuel sid) s = (.ok r, { s with
      card := update s.card (fmt (s.parentAg (userTableOf id)), id) (some n)
      baseScore := update s.baseScore (userTableOf id) (some "[1]") }) := by
  rw [run_checkjoinGroup_eq hlogin hmsg hnum htext hres]
  rw [if_pos hne, run_bind_ok (run_cardsOf htop hlast id), hn]
  by_cases hfail : joinResult = 2
  · refine ⟨⟨0, some "加入公会失败", none, some joinResult, some joinNum⟩, ?_⟩
    simp only [hfail]
    rfl
  · refine ⟨⟨0, none, none, some joinResult, some joinNum⟩, ?_⟩
    rw [if_pos hfail]
    rfl

end User

end FishWeb.Guild
