import FishWeb.Guild.Handlers
import FishWeb.Guild.Join
import FishWeb.Lib.Runs
/-!
# Who is in a guild

The guild of a user is kept in his record and in the member set of the guild. An
application is kept on the list of the guild and in the one message of the user. A
rejection leaves the message, an approval asks for neither, and a login joins a guild
without leaving another.
-/
open Python Prog Runs
open Function (update)

namespace FishWeb.Guild.Join

open Common

/-! ## What a request does -/

/-- The user has left his guild, if there is one of its number. -/
def Leaves (s : St) (id : String) (s' : St) : Prop :=
  (s.agent (fmt (s.parentAg (userTableOf id)))).isSome = false ∧ s' = s ∨
    ∃ topAgId roomcard, s' = exited s (userTableOf id) id (fmt (s.parentAg (userTableOf id))) topAgId roomcard

/-- The join of a user with a number is not decided. -/
def Waiting (s : St) (id : String) : Prop :=
  (∃ n, int id = some n ∧ 0 < n) ∧ ∃ joinMessage status, s.message id = some joinMessage ∧ joinMessage[1]? = some status ∧
    int status = some 0

/-- The user of a login. -/
def Hall.Logs (s : Hall) (login_type : Int) (reAccount id : String) : Prop :=
  s.guild.shared.userTable (fmt (if login_type ≠ 0 then s.weixin reAccount else some reAccount)) = some (userTableOf id)

/-- The guild takes in users at login, without a decision of its agent. -/
def TakesIn (s : St) (groupId : String) : Prop :=
  (s.agentOf groupId).valid = some "1" ∧ (s.agentOf groupId).type ≠ some "1" ∧ (s.agentOf groupId).auto_check.getD "" = ""

/-- What a request does to the guilds, and what becomes of applications. -/
inductive Effect (s : Hall) : Req → List Event → St → Prop
  | nothing (req : Req) : Effect s req [] s.guild
  | join (curTime sid groupId id : String) (s' : St) (accepted : Bool) (rest : List String) (hleaves : Leaves s.guild id s')
    (hagent : (s.guild.agent groupId).isSome) :
    Effect s (.join curTime sid groupId) [.applied id groupId]
      (applies (if accepted then entered s' id groupId else s') id groupId (groupId :: rest))
  | login (curTime : String) (login_type : Int) (reAccount id groupId : String) (accepted : Bool) (rest : List String)
    (hlogs : s.Logs login_type reAccount id) (hasked : s.unionid2group reAccount = some groupId)
    (hagent : (s.guild.agent groupId).isSome) (hcheck : accepted = true → TakesIn s.guild groupId) :
    Effect s (.login curTime login_type reAccount) [.applied id groupId]
      (applies (if accepted then entered s.guild id groupId else s.guild) id groupId (groupId :: rest))
  | cancle (sid id : String) (joinNum : Int) : Effect s (.cancle sid) [.cancelled id] (cancelled s.guild joinNum id)
  | comfirmJoin (selfUid id : String) (pre post : List String) (hl : s.guild.applied selfUid = pre ++ id :: post)
    (hpre : ∀ j ∈ pre, ¬Waiting s.guild j) (hid : Waiting s.guild id) :
    Effect s (.comfirmJoin selfUid) [] (comfirmed s.guild selfUid id)
  | comfirm (selfUid memberId : String) (hne : memberId ≠ "") :
    Effect s (.comfirm selfUid memberId) [] (comfirmed s.guild selfUid memberId)
  | reject (selfUid memberId : String) :
    Effect s (.reject selfUid memberId) [.rejected selfUid memberId] (struck s.guild selfUid memberId)

section Requests
variable {s : Hall}

/-- The request comes to one of its effects; who is asked in stays. -/
def Does {α : Type} (s : Hall) (req : Req) (_ : Except Err α) (s' : Hall) (l : List Event) : Prop :=
  Effect s req l s'.guild ∧ s'.weixin = s.weixin ∧ s'.unionid2group = s.unionid2group

theorem part_guild : Part (C := With Own) (D := Cmd) (fun _ => Cmd.guild) Hall.guild (fun s g => { s with guild := g }) where
  exec _ _ _ := rfl
  view_put _ _ := rfl
  put_put _ _ _ := rfl
  put_view _ := rfl

theorem Ran.guild {α : Type} {p : Handler α} {r : Except Err α} {g : St} {l : List Event} (h : Ran p s.guild r g l) :
    Ran (guild p) s r { s with guild := g } l := by
  have hl : Ran (Join.guild p) s r { s with guild := g } (l.map id) :=
    h.lift part_guild fun _ _ _ => (List.map_id _).symm
  rwa [List.map_id] at hl

/-- The user table of an account is that of a number. -/
def Tables (shared : Shared) : Prop := ∀ account table, shared.userTable account = some table → ∃ id, table = userTableOf id ∧ ':' ∉ id.toList

theorem userTableOf_inj {a b : String} (h : userTableOf a = userTableOf b) : a = b := by
  have hl := congrArg String.toList h
  simp only [userTableOf, String.toList_append, List.append_cancel_left_eq] at hl
  exact String.toList_inj.1 hl

theorem ran_idOf {g : St} {id : String} (h : ':' ∉ id.toList) : Ran (idOf (userTableOf id)) g (.ok id) g ([] : List Event) := by
  have htable : userTableOf id = "users" ++ String.singleton ':' ++ id := rfl
  rw [idOf, htable, split_append (by decide) h]
  exact ran_ret id g

/-- What `idOf` makes of the table of an account. -/
theorem idOf_cases {shared : Shared} (ht : Tables shared) (account : String) :
    (∃ id, shared.userTable account = some (userTableOf id) ∧ ':' ∉ id.toList) ∨ idOf (fmt (shared.userTable account)) = .raise .IndexError := by
  cases htable : shared.userTable account with
  | none =>
    right
    have hsplit : split ':' "None" = ["None"] := by decide
    rw [idOf, show fmt none = "None" from rfl, hsplit]
    rfl
  | some table =>
    obtain ⟨id, rfl, hid⟩ := ht account table htable
    exact .inl ⟨id, rfl, hid⟩

/-- A command that only reads. -/
theorem read {β : Type} (g : St) (c : Own β) (hc : (Exec.exec c g).2 = g) (hn : (Note.note c (Exec.exec c g).1 : List Event) = []) :
    Ran (send c) g (.ok (Exec.exec c g).1) g ([] : List Event) :=
  ran_quiet hn (by rw [show (Exec.exec (With.own c : With Own β) g).2 = g from hc]; exact ran_ret _ _)

/-- Climbing to a company changes nothing. -/
theorem ran_climb (g : St) (fuel : Nat) (agentId : Option String) : ∃ r, Ran (climb fuel agentId) g r g ([] : List Event) := by
  induction fuel generalizing agentId with
  | zero => exact ⟨_, rfl, rfl⟩
  | succ fuel ih =>
    have hparent := read g (.hgetParentId (fmt agentId)) rfl rfl
    have htype := read g (.hgetType (fmt (g.agentOf (fmt agentId)).parent_id)) rfl rfl
    unfold climb
    cases hn : ((g.agentOf (fmt (g.agentOf (fmt agentId)).parent_id)).type).bind int with
    | none => exact ⟨_, hparent.bind_nil (htype.bind_nil (by simp only [Exec.exec, hn]; exact ran_ret _ _))⟩
    | some n =>
      by_cases hone : n = 1
      · exact ⟨_, hparent.bind_nil (htype.bind_nil (by simp only [Exec.exec, hn, if_pos hone]; exact ran_ret _ _))⟩
      · obtain ⟨r, hr⟩ := ih (g.agentOf (fmt agentId)).parent_id
        exact ⟨r, hparent.bind_nil (htype.bind_nil (by simp only [Exec.exec, hn, if_neg hone]; exact hr))⟩

theorem ran_getTopAgentId (g : St) (fuel : Nat) (agentId : Option String) :
    ∃ r, Ran (getTopAgentId fuel agentId) g r g ([] : List Event) := by
  have hnext : ∃ r, Ran (if (g.agentOf (fmt agentId)).type = some "0" ∨ (g.agentOf (fmt agentId)).type = some "1" then .ret agentId
      else climb fuel agentId) g r g ([] : List Event) := by
    split
    · exact ⟨_, ran_ret _ _⟩
    · exact ran_climb g fuel agentId
  obtain ⟨r, hr⟩ := hnext
  exact ⟨r, ran_quiet rfl hr⟩

/-- Leaving a guild raises, or the user has left. -/
theorem tryExitGroup_cases (g : St) (fuel : Nat) (userTable id groupId : String) :
    (∃ e, Ran (tryExitGroup fuel userTable id groupId) g (.error e) g ([] : List Event)) ∨
      ∃ topAgId roomcard, Ran (tryExitGroup fuel userTable id groupId) g (.ok ()) (exited g userTable id groupId topAgId roomcard)
        ([] : List Event) := by
  obtain ⟨r, hr⟩ := ran_getTopAgentId g fuel (some groupId)
  cases r with
  | error e => exact .inl ⟨e, hr.bind_error⟩
  | ok topAgId => exact .inr ⟨_, _, hr.bind (ran_quiet rfl (ran_quiet rfl (ran_ret () _)))⟩

/-- What `/joinGroup` does to the guilds: nothing, or the user of the session applies, and `k` is what the guild makes of it. -/
theorem comes_joinGroup {g : St} (ht : Tables g.shared) (fuel : Nat) (curTime sid groupId : String) :
    Comes (fun _ g' l => g' = g ∧ l = ([] : List Event) ∨ ∃ (account : Option String) (id : String) (s' : St) (k : Int),
      g.shared.hall sid = .ok (account, userTableOf id) ∧ autoCheck (g.agentOf groupId).auto_check = .ret k ∧
      Leaves g id s' ∧ (g.agent groupId).isSome ∧ l = [.applied id groupId] ∧
      g' = applies (if decide (k = CHECK_SUCCESS) then entered s' id groupId else s') id groupId [groupId, toString k, curTime])
      (joinGroup fuel curTime sid groupId) g := by
  unfold joinGroup
  have hall : Ran (hallUser sid : Handler _) g (.ok (g.shared.hall sid)) g ([] : List Event) := ran_hallUser sid g
  refine comes_bind hall ?_
  cases hhall : g.shared.hall sid with
  | error e => exact .inl ⟨rfl, rfl⟩
  | ok user =>
    obtain ⟨account, userTable⟩ := user
    obtain ⟨-, -, rfl, -⟩ := Shared.hall_ok hhall
    refine comes_bind (read g (.existsAgent groupId) rfl rfl) ?_
    split
    · exact .inl ⟨rfl, rfl⟩
    rename_i hagent
    refine comes_bind (read g (.hmgetAgent groupId) rfl rfl) ?_
    rcases autoCheck_cases (g.agentOf groupId).auto_check with ⟨k, hk⟩ | hk
    case inr => exact .inl (by simp [hk, Exec.exec])
    dsimp only [Exec.exec]
    rw [hk, ret_bind]
    split
    · exact .inl ⟨rfl, rfl⟩
    refine comes_bind (read g (.hgetType groupId) rfl rfl) ?_
    dsimp only [Exec.exec]
    cases (g.agentOf groupId).type with
    | none => exact .inl ⟨rfl, rfl⟩
    | some type =>
    rw [orRaise_some, ret_bind]
    cases int type with
    | none => exact .inl ⟨rfl, rfl⟩
    | some n =>
    rw [orRaise_some, ret_bind]
    split
    · exact .inl ⟨rfl, rfl⟩
    rcases idOf_cases ht (fmt account) with ⟨id, htable, hid⟩ | hid
    case inr =>
      rw [hid]
      exact .inl ⟨rfl, rfl⟩
    rw [htable, fmt_some] at hhall ⊢
    refine comes_bind (ran_idOf hid) (comes_bind (read g (.hmgetGroups (userTableOf id)) rfl rfl) ?_)
    refine comes_bind (read g (.existsAgent (fmt (g.parentAg (userTableOf id)))) rfl rfl) ?_
    have hex : (g.agent groupId).isSome := Option.isSome_iff_ne_none.2 (by simpa [Exec.exec] using hagent)
    show Comes _ (if (g.agent (fmt (g.parentAg (userTableOf id)))).isSome then _ else _ : Handler Reply) g
    split
    · rcases tryExitGroup_cases g fuel (userTableOf id) id (fmt (g.parentAg (userTableOf id))) with ⟨e, he⟩ | ⟨top, roomcard, hexit⟩
      · exact he.bind_error.comes (.inl ⟨rfl, rfl⟩)
      · exact comes_bind hexit (.inr ⟨account, id, _, k, rfl, rfl, .inr ⟨top, roomcard, rfl⟩, hex, rfl, rfl⟩)
    · rename_i hold
      exact .inr ⟨account, id, g, k, rfl, rfl, .inl ⟨by simpa using hold, rfl⟩, hex, rfl, rfl⟩

/-- A request that ends before it does anything. -/
theorem does_nothing {α : Type} {req : Req} {r : Except Err α} : Does s req r s [] := ⟨.nothing req, rfl, rfl⟩

/-- What a handler of the guilds comes to among the others. -/
theorem comes_guild {α : Type} {Q : St → List Event → Prop} {p : Handler α} (h : Comes (fun _ g l => Q g l) p s.guild) :
    Comes (fun _ s' l => ∃ g, s' = { s with guild := g } ∧ Q g l) (guild p) s :=
  (Ran.guild ⟨rfl, rfl⟩).comes ⟨_, rfl, h⟩

theorem comes_join (ht : Tables s.guild.shared) (fuel : Nat) (curTime sid groupId : String) :
    Comes (Does s (.join curTime sid groupId)) (Req.handler fuel (.join curTime sid groupId)) s := by
  refine comes_ignore ((comes_guild (comes_joinGroup ht fuel curTime sid groupId)).mono ?_)
  rintro _ _ l ⟨g, rfl, ⟨rfl, rfl⟩ | ⟨account, id, s', k, -, -, hleaves, hex, rfl, rfl⟩⟩
  · exact ⟨.nothing _, rfl, rfl⟩
  · exact ⟨.join curTime sid groupId id s' (decide (k = CHECK_SUCCESS)) [toString k, curTime] hleaves hex, rfl, rfl⟩

/-- The user of the session cancels, and `joinNum` is the guild of his message. -/
theorem comes_cancleJoin (ht : Tables s.guild.shared) (sid : String) :
    Comes (fun _ s' l => s' = s ∧ l = ([] : List Event) ∨ ∃ (account : Option String) (id : String) (joinMessage : List String) (joinNum : Int),
      s.guild.shared.hall sid = .ok (account, userTableOf id) ∧ s.guild.message id = some joinMessage ∧
      joinMessage[0]?.bind int = some joinNum ∧ l = [.cancelled id] ∧ s' = { s with guild := cancelled s.guild joinNum id })
      (cancleJoin sid) s := by
  unfold cancleJoin
  have hall : Ran (guild (hallUser sid)) s (.ok (s.guild.shared.hall sid)) s ([] : List Event) := Ran.guild (ran_hallUser sid s.guild)
  refine comes_bind hall ?_
  cases hhall : s.guild.shared.hall sid with
  | error e => exact .inl ⟨rfl, rfl⟩
  | ok user =>
    obtain ⟨account, userTable⟩ := user
    obtain ⟨-, -, rfl, -⟩ := Shared.hall_ok hhall
    dsimp only
    rcases idOf_cases ht (fmt account) with ⟨id, htable, hid⟩ | hid
    case inr =>
      rw [hid]
      exact .inl ⟨rfl, rfl⟩
    rw [htable, fmt_some] at hhall ⊢
    have hmessage : Ran (guild (send (.getMessage id))) s (.ok (s.guild.message id)) s ([] : List Event) :=
      Ran.guild (read s.guild (.getMessage id) rfl rfl)
    refine comes_bind (Ran.guild (ran_idOf hid)) (comes_bind hmessage ?_)
    cases hjoin : s.guild.message id with
    | none => exact .inl ⟨rfl, rfl⟩
    | some joinMessage =>
      show Comes _ (orRaise Err.NameError (joinMessage[0]?.bind int) >>= _) s
      cases hnum : joinMessage[0]?.bind int with
      | none => exact .inl ⟨rfl, rfl⟩
      | some joinNum => exact .inr ⟨account, id, joinMessage, joinNum, rfl, hjoin, hnum, rfl, rfl⟩

theorem comes_cancle (ht : Tables s.guild.shared) (sid : String) : Comes (Does s (.cancle sid)) (cancleJoin sid) s := by
  refine (comes_cancleJoin ht sid).mono ?_
  rintro _ _ l (⟨rfl, rfl⟩ | ⟨account, id, joinMessage, joinNum, -, -, -, rfl, rfl⟩)
  · exact does_nothing
  · exact ⟨.cancle sid id joinNum, rfl, rfl⟩

/-- The guild that a login joins. -/
def Hall.joins (s : Hall) (reAccount : String) : Option String :=
  (s.unionid2group reAccount).filter fun groupId => (s.guild.agent groupId).isSome ∧
    (s.guild.agentOf groupId).valid = some "1" ∧ (s.guild.agentOf groupId).type ≠ some "1"

/-- What a login makes of the join to the guild. -/
def joinStatus (s : St) (groupId : String) : String :=
  if (s.agentOf groupId).auto_check.getD "" = "" then toString CHECK_SUCCESS else (s.agentOf groupId).auto_check.getD ""

/-- The user of a login joins the guild that he is asked into, if there is one. -/
theorem comes_autoJoin (ht : Tables s.guild.shared) (curTime : String) (login_type : Int) (reAccount : String) :
    Comes (fun _ s' l => s' = s ∧ l = ([] : List Event) ∧ (∀ id, s.Logs login_type reAccount id → s.joins reAccount = none) ∨
      ∃ id groupId, s.Logs login_type reAccount id ∧ s.joins reAccount = some groupId ∧ l = [.applied id groupId] ∧
        s' = { s with guild := applies (if decide ((s.guild.agentOf groupId).auto_check.getD "" = "") then entered s.guild id groupId
          else s.guild) id groupId [groupId, joinStatus s.guild groupId, curTime] })
      (autoJoin curTime login_type reAccount) s := by
  have hreal : Ran (realAccount login_type reAccount) s (.ok (if login_type ≠ 0 then s.weixin reAccount else some reAccount)) s
      ([] : List Event) := by
    unfold realAccount
    split
    · exact ran_quiet rfl (ran_ret _ _)
    · exact ran_ret _ _
  unfold autoJoin
  refine comes_bind hreal (comes_bind (Ran.guild (ran_quiet rfl (ran_ret _ _))) ?_)
  show Comes _ (orRaise Err.AttributeError (s.guild.shared.userTable (fmt (if login_type ≠ 0 then s.weixin reAccount else some reAccount))) >>= _) s
  unfold Hall.Logs
  cases htable : s.guild.shared.userTable (fmt (if login_type ≠ 0 then s.weixin reAccount else some reAccount)) with
  | none => exact .inl ⟨rfl, rfl, fun id hlogs => nomatch hlogs⟩
  | some userTable =>
    obtain ⟨id, rfl, hid⟩ := ht _ _ htable
    rw [orRaise_some, ret_bind]
    have hgroup : Ran (desk (.getUnionid2group reAccount)) s (.ok (s.unionid2group reAccount)) s ([] : List Event) :=
      ran_quiet rfl (ran_ret _ _)
    refine comes_bind (Ran.guild (ran_idOf hid)) (comes_bind hgroup ?_)
    unfold Hall.joins
    cases s.unionid2group reAccount with
    | none => exact .inl ⟨rfl, rfl, fun _ _ => rfl⟩
    | some groupId =>
      refine comes_bind (Ran.guild (read s.guild (.existsAgent groupId) rfl rfl)) ?_
      show Comes _ (if !(s.guild.agent groupId).isSome then _ else _) s
      cases hagent : (s.guild.agent groupId).isSome with
      | false => exact .inl ⟨rfl, rfl, fun _ _ => by rw [Option.filter_some, if_neg (by simp [hagent])]⟩
      | true =>
        refine comes_bind (Ran.guild (read s.guild (.hmgetAgent groupId) rfl rfl)) ?_
        refine comes_bind (Ran.guild (read s.guild (.hgetType groupId) rfl rfl)) ?_
        show Comes _ (if (s.guild.agentOf groupId).valid = some "1" ∧ (s.guild.agentOf groupId).type ≠ some "1" then _ else _) s
        split
        · rename_i hopen
          exact .inr ⟨id, groupId, rfl, by rw [Option.filter_some, if_pos (by simpa [hagent] using hopen)], rfl, rfl⟩
        · rename_i hclosed
          exact .inl ⟨rfl, rfl, fun _ _ => by rw [Option.filter_some, if_neg (by simpa [hagent] using hclosed)]⟩

theorem comes_login (ht : Tables s.guild.shared) (curTime : String) (login_type : Int) (reAccount : String) :
    Comes (Does s (.login curTime login_type reAccount)) (autoJoin curTime login_type reAccount) s := by
  refine (comes_autoJoin ht curTime login_type reAccount).mono ?_
  rintro _ _ l (⟨rfl, rfl, -⟩ | ⟨id, groupId, hlogs, hjoins, rfl, rfl⟩)
  · exact does_nothing
  · obtain ⟨hasked, hopen⟩ := Option.filter_eq_some_iff.1 hjoins
    obtain ⟨hagent, hvalid, htype⟩ := of_decide_eq_true hopen
    refine ⟨.login curTime login_type reAccount id groupId _ _ hlogs hasked hagent fun haccepted => ?_, rfl, rfl⟩
    exact ⟨hvalid, htype, of_decide_eq_true haccepted⟩

/-- The loop of `/agent/comfirmJoin`, from where those before are passed over. -/
theorem comes_comfirmFirst {selfUid : String} (pre l : List String) (hl : s.guild.applied selfUid = pre ++ l)
    (hpre : ∀ j ∈ pre, ¬Waiting s.guild j) : Comes (Does s (.comfirmJoin selfUid)) (comfirmFirst selfUid l) s := by
  induction l generalizing pre with
  | nil => exact does_nothing
  | cons id l ih =>
    have hskip : ¬Waiting s.guild id → Comes (Does s (.comfirmJoin selfUid)) (comfirmFirst selfUid l) s := by
      intro hnot
      refine ih (pre ++ [id]) (by rw [hl, List.append_assoc]; rfl) fun j hj => ?_
      rcases List.mem_append.1 hj with hj | hj
      · exact hpre j hj
      · rwa [List.mem_singleton.1 hj]
    unfold comfirmFirst
    cases hn : int id with
    | none => exact does_nothing
    | some n =>
    rw [orRaise_some, ret_bind]
    split
    · rename_i hle
      refine hskip fun hwait => ?_
      obtain ⟨⟨m, hm, hpos⟩, -⟩ := hwait
      obtain rfl : n = m := Option.some.inj (hn.symm.trans hm)
      omega
    rename_i hpos
    refine comes_bind (Ran.guild (read s.guild (.getMessage id) rfl rfl)) ?_
    show Comes _ (orRaise Err.AttributeError (s.guild.message id) >>= _) s
    cases hmessage : s.guild.message id with
    | none => exact does_nothing
    | some joinMessage =>
    rw [orRaise_some, ret_bind]
    cases hstatus : joinMessage[1]? with
    | none => exact does_nothing
    | some status =>
    rw [orRaise_some, ret_bind]
    cases hint : int status with
    | none => exact does_nothing
    | some k =>
    rw [orRaise_some, ret_bind]
    split
    · rename_i hzero
      rw [hzero] at hint
      exact ⟨.comfirmJoin selfUid id pre l hl hpre ⟨⟨n, hn, by omega⟩, joinMessage, status, hmessage, hstatus, hint⟩, rfl, rfl⟩
    · rename_i hne
      refine hskip fun hwait => ?_
      obtain ⟨-, m, st, hm, hst, hzero⟩ := hwait
      obtain rfl : joinMessage = m := Option.some.inj (hmessage.symm.trans hm)
      obtain rfl : status = st := Option.some.inj (hstatus.symm.trans hst)
      exact hne (Option.some.inj (hint.symm.trans hzero))

theorem comes_handler (ht : Tables s.guild.shared) (fuel : Nat) (req : Req) : Comes (Does s req) (req.handler fuel) s := by
  cases req with
  | join curTime sid groupId => exact comes_join ht fuel curTime sid groupId
  | cancle sid => exact comes_ignore (comes_cancle ht sid)
  | login curTime login_type reAccount => exact comes_login ht curTime login_type reAccount
  | comfirmJoin selfUid =>
    exact comes_ignore (comes_bind (ran_quiet rfl (ran_ret _ _)) (comes_comfirmFirst [] _ rfl fun _ h => absurd h List.not_mem_nil))
  | comfirm selfUid memberId =>
    show Comes _ ((if memberId = "" then _ else _) >>= fun _ => _) s
    split
    · exact does_nothing
    · rename_i hne
      exact ⟨.comfirm selfUid memberId hne, rfl, rfl⟩
  | reject selfUid memberId =>
    show Comes _ ((if memberId = "" then _ else _) >>= fun _ => _) s
    split
    · exact does_nothing
    · exact ⟨.reject selfUid memberId, rfl, rfl⟩

end Requests

/-! ## The protocol -/

/-- A user is in the member set of a guild iff it is the guild of his record; the record of who is in none has the empty text. -/
def Mirror (s : St) : Prop := ∀ u g, u ∈ s.members g ↔ g ≠ "" ∧ s.parentAg (userTableOf u) = some g

/-- The store, and the guild of the latest application of each user that was not cancelled or rejected. -/
structure History where
  st : Hall
  latest : String → Option String

/-- An application that was told of is the latest. -/
def tell (latest : String → Option String) : Event → String → Option String
  | .applied id groupId => update latest id (some groupId)
  | .cancelled id => update latest id none
  | .rejected agentId id => if latest id = some agentId then update latest id none else latest

def next (fuel : Nat) (req : Req) (h : History) : History :=
  ⟨(run (req.handler fuel) h.st).2, (trace Event (req.handler fuel) h.st).foldl tell h.latest⟩

/-- Who enters a guild has applied to it last, and neither he nor its agent has taken that back. -/
def Entered (fuel : Nat) (req : Req) (h : History) : Prop := ∀ u g, u ∉ h.st.guild.members g →
  u ∈ (next fuel req h).st.guild.members g → (next fuel req h).latest u = some g

/-- The user is in no guild but `groupId`. -/
def Free (s : St) (id groupId : String) : Prop := ∀ a, s.parentAg (userTableOf id) = some a → a = "" ∨ a = groupId

/-- The user is in the guild, or he is in none, stands on its list and his message is of it. -/
def Due (s : St) (agentId id : String) : Prop := (s.agent agentId).isSome ∧ (s.parentAg (userTableOf id) = some agentId ∨
  (s.parentAg (userTableOf id)).getD "" = "" ∧ id ∈ s.applied agentId ∧ ∃ rest, s.message id = some (agentId :: rest))

/-- What the approvals and the login do not ask: agents let in who is due, and a login takes in who is in no other guild. -/
def Orderly (req : Req) (h : History) : Prop :=
  match req with
  | .login _ login_type reAccount => ∀ id g, h.st.Logs login_type reAccount id → h.st.unionid2group reAccount = some g →
      TakesIn h.st.guild g → Free h.st.guild id g
  | .comfirmJoin a => ∀ pre id post, h.st.guild.applied a = pre ++ id :: post → (∀ j ∈ pre, ¬Waiting h.st.guild j) →
      Waiting h.st.guild id → Due h.st.guild a id
  | .comfirm a id => id ≠ "" → Due h.st.guild a id
  | _ => True

/-- What orderly requests keep. -/
structure Inv (h : History) : Prop where
  mirror : Mirror h.st.guild
  tables : Tables h.st.guild.shared
  /-- No guild has the empty number. -/
  named : h.st.guild.agent "" = none
  guilds : ∀ u g, h.st.guild.parentAg (userTableOf u) = some g → g ≠ "" → (h.st.guild.agent g).isSome
  /-- Who stands on a list with a message of it has applied there last. -/
  applied : ∀ u g rest, u ∈ h.st.guild.applied g → h.st.guild.message u = some (g :: rest) → h.latest u = some g

/-! ### The latest applications -/

section Told
variable {s : St} {latest : String → Option String} {id g : String}

/-- Who stands on a list with a message of it has applied there last. -/
def Told (s : St) (latest : String → Option String) : Prop :=
  ∀ u g rest, u ∈ s.applied g → s.message u = some (g :: rest) → latest u = some g

theorem mem_strike (t : String → List String) (u a : String) :
    u ∈ update t g ((t g).filter (· ≠ id)) a ↔ ¬(a = g ∧ u = id) ∧ u ∈ t a := by
  by_cases ha : a = g
  · subst ha
    simp [and_comm]
  · simp [ha]

theorem Told.applies (ht : Told s latest) (rest : List String) :
    Told (applies s id g (g :: rest)) (update latest id (some g)) := by
  intro u a r hu hmessage
  have hu' : u ∈ update s.applied g (id :: s.applied g) a := hu
  have hm' : update s.message id (some (g :: rest)) u = some (a :: r) := hmessage
  by_cases hid : u = id
  · rw [hid, Function.update_self] at hm'
    rw [hid, Function.update_self, (List.cons.inj (Option.some.inj hm')).1]
  · rw [Function.update_of_ne hid] at hm' ⊢
    refine ht u a r ?_ hm'
    by_cases ha : a = g
    · rw [ha, Function.update_self] at hu'
      rw [ha]
      exact (List.mem_cons.1 hu').resolve_left hid
    · rwa [Function.update_of_ne ha] at hu'

theorem Told.comfirmed (ht : Told s latest) : Told (comfirmed s g id) latest := by
  intro u a r hu hmessage
  have hu' : u ∈ update s.applied g ((s.applied g).filter (· ≠ id)) a := hu
  have hm' : update s.message id (some [g, "1"]) u = some (a :: r) := hmessage
  by_cases hid : u = id
  · -- he is off the list of the guild that let him in
    rw [hid, Function.update_self] at hm'
    exact absurd ⟨(List.cons.inj (Option.some.inj hm')).1.symm, hid⟩ ((mem_strike _ u a).1 hu').1
  · rw [Function.update_of_ne hid] at hm'
    exact ht u a r ((mem_strike _ u a).1 hu').2 hm'

theorem Told.cancelled (ht : Told s latest) (joinNum : Int) : Told (cancelled s joinNum id) (update latest id none) := by
  intro u a r hu hmessage
  have hu' : u ∈ update s.applied (toString joinNum) ((s.applied (toString joinNum)).filter (· ≠ id)) a := hu
  have hm' : update s.message id none u = some (a :: r) := hmessage
  by_cases hid : u = id
  · rw [hid, Function.update_self] at hm'
    cases hm'
  · rw [Function.update_of_ne hid] at hm' ⊢
    exact ht u a r ((mem_strike _ u a).1 hu').2 hm'

theorem Told.struck (ht : Told s latest) : Told (struck s g id) (tell latest (.rejected g id)) := by
  intro u a r hu hmessage
  have hu' : u ∈ update s.applied g ((s.applied g).filter (· ≠ id)) a := hu
  obtain ⟨hoff, hon⟩ := (mem_strike _ u a).1 hu'
  have hlatest := ht u a r hon hmessage
  show (if latest id = some g then update latest id none else latest) u = some a
  split
  · rename_i hsame
    have hid : u ≠ id := by
      rintro rfl
      exact hoff ⟨Option.some.inj (hlatest.symm.trans hsame), rfl⟩
    rwa [Function.update_of_ne hid]
  · exact hlatest

end Told

section Keeps
variable {s : St} {id g : String}

theorem Mirror.only (hm : Mirror s) (hf : Free s id g) {a : String} (ha : id ∈ s.members a) : a = g := by
  obtain ⟨hne, hp⟩ := (hm id a).1 ha
  exact (hf a hp).resolve_left hne

theorem parentAg_entered (u : String) :
    (entered s id g).parentAg (userTableOf u) = if u = id then some g else s.parentAg (userTableOf u) := by
  show update s.parentAg (userTableOf id) (some g) (userTableOf u) = _
  by_cases hu : u = id
  · rw [hu, Function.update_self, if_pos rfl]
  · rw [Function.update_of_ne fun h => hu (userTableOf_inj h), if_neg hu]

theorem mem_entered (u a : String) : u ∈ (entered s id g).members a ↔ a = g ∧ u = id ∨ u ∈ s.members a := by
  show u ∈ update s.members g ((s.members g).sadd id) a ↔ _
  by_cases ha : a = g
  · subst ha
    simp
  · simp [ha]

theorem Mirror.entered (hm : Mirror s) (hf : Free s id g) (hg : g ≠ "") : Mirror (entered s id g) := by
  intro u a
  rw [mem_entered, parentAg_entered]
  by_cases hu : u = id
  · subst hu
    rw [if_pos rfl]
    constructor
    · rintro (⟨rfl, -⟩ | ha)
      · exact ⟨hg, rfl⟩
      · rw [hm.only hf ha]
        exact ⟨hg, rfl⟩
    · rintro ⟨-, ha⟩
      exact .inl ⟨(Option.some.inj ha).symm, rfl⟩
  · rw [if_neg hu, ← hm u a]
    simp [hu]

theorem parentAg_exited {topAgId : String} {roomcard : Int} (u : String) :
    (exited s (userTableOf id) id g topAgId roomcard).parentAg (userTableOf u) =
      if u = id then some "" else s.parentAg (userTableOf u) := by
  show update s.parentAg (userTableOf id) (some "") (userTableOf u) = _
  by_cases hu : u = id
  · rw [hu, Function.update_self, if_pos rfl]
  · rw [Function.update_of_ne fun h => hu (userTableOf_inj h), if_neg hu]

theorem mem_exited {topAgId : String} {roomcard : Int} (u a : String) :
    u ∈ (exited s (userTableOf id) id g topAgId roomcard).members a ↔ ¬(a = g ∧ u = id) ∧ u ∈ s.members a := by
  show u ∈ update s.members g ((s.members g).srem id) a ↔ _
  by_cases ha : a = g
  · subst ha
    simp
  · simp [ha]

theorem Mirror.exited {topAgId : String} {roomcard : Int} (hm : Mirror s) :
    Mirror (exited s (userTableOf id) id (fmt (s.parentAg (userTableOf id))) topAgId roomcard) := by
  intro u a
  rw [mem_exited, parentAg_exited]
  by_cases hu : u = id
  · subst hu
    rw [if_pos rfl]
    constructor
    · rintro ⟨hne, ha⟩
      -- he was in the guild of his record only
      obtain ⟨-, hp⟩ := (hm u a).1 ha
      rw [hp] at hne
      exact absurd ⟨rfl, rfl⟩ hne
    · rintro ⟨hne, ha⟩
      exact absurd (Option.some.inj ha).symm hne
  · rw [if_neg hu, ← hm u a]
    simp [hu]

end Keeps

/-! ### Each request -/

section Each
variable {h : History} {id g : String}

/-- The store that a user applies in: it has his applications, and if he is let in he is in no other guild. -/
structure Ready (h : History) (id g : String) (accepted : Bool) (s' : St) : Prop where
  mirror : Mirror s'
  free : accepted = true → Free s' id g
  shared : s'.shared = h.st.guild.shared
  agent : s'.agent = h.st.guild.agent
  applied : s'.applied = h.st.guild.applied
  message : s'.message = h.st.guild.message
  members : ∀ u a, u ∈ s'.members a → u ∈ h.st.guild.members a
  guilds : ∀ u a, s'.parentAg (userTableOf u) = some a → a ≠ "" → (h.st.guild.agent a).isSome

theorem ready_leaves (hi : Inv h) (accepted : Bool) {s' : St} (hl : Leaves h.st.guild id s') : Ready h id g accepted s' := by
  rcases hl with ⟨hnone, rfl⟩ | ⟨topAgId, roomcard, rfl⟩
  · refine ⟨hi.mirror, fun _ a ha => ?_, rfl, rfl, rfl, rfl, fun _ _ h => h, hi.guilds⟩
    -- a guild that is not there is none
    by_contra hne
    have hsome := hi.guilds id a ha fun he => hne (.inl he)
    rw [ha, fmt_some, hsome] at hnone
    cases hnone
  · refine ⟨hi.mirror.exited, fun _ a ha => ?_, rfl, rfl, rfl, rfl, fun u a hu => ((mem_exited u a).1 hu).2, fun u a ha hne => ?_⟩
    · rw [parentAg_exited, if_pos rfl] at ha
      exact .inl (Option.some.inj ha).symm
    · rw [parentAg_exited] at ha
      split at ha
      · exact absurd (Option.some.inj ha).symm hne
      · exact hi.guilds u a ha hne

theorem ready_login (hi : Inv h) {accepted : Bool} (hf : accepted = true → Free h.st.guild id g) : Ready h id g accepted h.st.guild :=
  ⟨hi.mirror, hf, rfl, rfl, rfl, rfl, fun _ _ h => h, hi.guilds⟩

section Applies
variable {accepted : Bool} {s' : St} (hr : Ready h id g accepted s')
include hr

theorem Ready.mirror_applies (hg : g ≠ "") : Mirror (if accepted then entered s' id g else s') := by
  split
  · rename_i ha
    exact hr.mirror.entered (hr.free ha) hg
  · exact hr.mirror

/-- Only he who applied enters. -/
theorem Ready.enters {u a : String} (hout : u ∉ h.st.guild.members a)
    (hin : u ∈ (if accepted then entered s' id g else s').members a) : a = g ∧ u = id := by
  split at hin
  · rcases (mem_entered u a).1 hin with hnew | hold
    · exact hnew
    · exact absurd (hr.members u a hold) hout
  · exact absurd (hr.members u a hin) hout

theorem Ready.inv {rest : List String} (hi : Inv h) (hagent : (h.st.guild.agent g).isSome) {w : Hall}
    (hw : w.guild = applies (if accepted then entered s' id g else s') id g (g :: rest)) :
    Inv ⟨w, update h.latest id (some g)⟩ := by
  have hg : g ≠ "" := by
    rintro rfl
    rw [hi.named] at hagent
    cases hagent
  refine ⟨?_, ?_, ?_, ?_, ?_⟩ <;> dsimp only <;> rw [hw]
  · exact hr.mirror_applies hg
  · show Tables (if accepted then entered s' id g else s').shared
    split <;> exact hr.shared ▸ hi.tables
  · show (if accepted then entered s' id g else s').agent "" = none
    split <;> exact hr.agent ▸ hi.named
  · intro u a ha hne
    show ((if accepted then entered s' id g else s').agent a).isSome
    have hpa : (if accepted then entered s' id g else s').parentAg (userTableOf u) = some a := ha
    split at hpa
    · rw [parentAg_entered] at hpa
      rw [if_pos ‹_›]
      show (s'.agent a).isSome
      rw [hr.agent]
      split at hpa
      · rwa [← Option.some.inj hpa]
      · exact hr.guilds u a hpa hne
    · rw [if_neg ‹_›, hr.agent]
      exact hr.guilds u a hpa hne
  · have htold : Told (if accepted then entered s' id g else s') h.latest := by
      intro u a r
      have happlied : (if accepted then entered s' id g else s').applied = h.st.guild.applied := by split <;> exact hr.applied
      have hmsg : (if accepted then entered s' id g else s').message = h.st.guild.message := by split <;> exact hr.message
      rw [happlied, hmsg]
      exact hi.applied u a r
    exact htold.applies rest

end Applies

theorem Due.free {s : St} (hd : Due s g id) : Free s id g := by
  intro a ha
  rcases hd.2 with hin | ⟨hnone, -⟩
  · exact .inr (Option.some.inj (ha.symm.trans hin))
  · rw [ha] at hnone
    exact .inl hnone

theorem inv_comfirmed (hi : Inv h) (hd : Due h.st.guild g id) {w : Hall} (hw : w.guild = comfirmed h.st.guild g id) :
    Inv ⟨w, h.latest⟩ := by
  have hg : g ≠ "" := by
    rintro rfl
    have := hd.1
    rw [hi.named] at this
    cases this
  refine ⟨?_, ?_, ?_, ?_, ?_⟩ <;> dsimp only <;> rw [hw]
  · exact hi.mirror.entered hd.free hg
  · exact hi.tables
  · exact hi.named
  · intro u a ha hne
    have hpa : (entered h.st.guild id g).parentAg (userTableOf u) = some a := ha
    rw [parentAg_entered] at hpa
    split at hpa
    · rw [← Option.some.inj hpa]
      exact hd.1
    · exact hi.guilds u a hpa hne
  · exact Told.comfirmed hi.applied

/-- Who is let in and was not in the guild has applied to it last. -/
theorem entered_comfirmed (hi : Inv h) (hd : Due h.st.guild g id) {u a : String} (hout : u ∉ h.st.guild.members a)
    (hin : u ∈ (comfirmed h.st.guild g id).members a) : h.latest u = some a := by
  rcases (mem_entered u a).1 hin with ⟨rfl, rfl⟩ | hold
  · rcases hd.2 with hp | ⟨-, hlist, rest, hmessage⟩
    · refine absurd ((hi.mirror u a).2 ⟨?_, hp⟩) hout
      rintro rfl
      have := hd.1
      rw [hi.named] at this
      cases this
    · exact hi.applied u a rest hlist hmessage
  · exact absurd hold hout

theorem inv_cancelled (hi : Inv h) {joinNum : Int} {w : Hall} (hw : w.guild = cancelled h.st.guild joinNum id) :
    Inv ⟨w, update h.latest id none⟩ := by
  refine ⟨?_, ?_, ?_, ?_, ?_⟩ <;> dsimp only <;> rw [hw]
  · exact hi.mirror
  · exact hi.tables
  · exact hi.named
  · exact hi.guilds
  · exact Told.cancelled hi.applied joinNum

theorem inv_struck (hi : Inv h) {w : Hall} (hw : w.guild = struck h.st.guild g id) :
    Inv ⟨w, tell h.latest (.rejected g id)⟩ := by
  refine ⟨?_, ?_, ?_, ?_, ?_⟩ <;> dsimp only <;> rw [hw]
  · exact hi.mirror
  · exact hi.tables
  · exact hi.named
  · exact hi.guilds
  · exact Told.struck hi.applied

/-- What an orderly request keeps, and who enters by it. -/
theorem step_effect (hi : Inv h) {req : Req} (ho : Orderly req h) {l : List Event} {w : Hall} (he : Effect h.st req l w.guild) :
    Inv ⟨w, l.foldl tell h.latest⟩ ∧
      ∀ u a, u ∉ h.st.guild.members a → u ∈ w.guild.members a → l.foldl tell h.latest u = some a := by
  generalize hw : w.guild = g' at he
  cases he with
  | nothing =>
    exact ⟨⟨hw ▸ hi.mirror, hw ▸ hi.tables, hw ▸ hi.named, hw ▸ hi.guilds, hw ▸ hi.applied⟩, fun u a hout hin => absurd hin hout⟩
  | join curTime sid groupId id s' accepted rest hleaves hagent =>
    have hr : Ready h id groupId accepted s' := ready_leaves hi accepted hleaves
    refine ⟨hr.inv hi hagent hw, fun u a hout hin => ?_⟩
    obtain ⟨rfl, rfl⟩ := hr.enters hout hin
    exact Function.update_self ..
  | login curTime login_type reAccount id groupId accepted rest hlogs hasked hagent hcheck =>
    have hr := ready_login hi fun haccepted => ho id groupId hlogs hasked (hcheck haccepted)
    refine ⟨hr.inv hi hagent hw, fun u a hout hin => ?_⟩
    obtain ⟨rfl, rfl⟩ := hr.enters hout hin
    exact Function.update_self ..
  | cancle sid id joinNum => exact ⟨inv_cancelled hi hw, fun u a hout hin => absurd hin hout⟩
  | comfirmJoin selfUid id pre post hl hpre hid =>
    have hd := ho pre id post hl hpre hid
    exact ⟨inv_comfirmed hi hd hw, fun u a hout hin => entered_comfirmed hi hd hout hin⟩
  | comfirm selfUid memberId hne =>
    exact ⟨inv_comfirmed hi (ho hne) hw, fun u a hout hin => entered_comfirmed hi (ho hne) hout hin⟩
  | reject selfUid memberId => exact ⟨inv_struck hi hw, fun u a hout hin => absurd hin hout⟩

end Each

/-! ## Runs -/

/-- What requests do not change: sessions and users, agents, and who is asked into a guild at login. -/
structure Setup where
  shared : Shared
  agent : String → Option Agent
  weixin : String → Option String
  unionid2group : String → Option String
  tables : Tables shared
  named : agent "" = none

/-- Nobody is in a guild, and nobody has applied. -/
def Setup.start (c : Setup) : History where
  st := {
    guild := {
      shared := c.shared
      agent := c.agent
      parentAg := fun _ => none
      lastGroup := fun _ => none
      baseScore := fun _ => none
      members := fun _ => ∅
      applied := fun _ => []
      message := fun _ => none
      card := fun _ => none }
    weixin := c.weixin
    unionid2group := c.unionid2group }
  latest _ := none

theorem inv_start (c : Setup) : Inv c.start where
  mirror u _ := ⟨fun h => absurd h (MemberSet.not_mem_empty u), fun h => nomatch h.2⟩
  tables := c.tables
  named := c.named
  guilds _ _ h := nomatch h
  applied _ _ _ h := absurd h List.not_mem_nil

/-- A user is in the member set of a guild iff it is the guild of his record, so he is in one at most. -/
structure Members (s : St) : Prop where
  same : ∀ u g, g ≠ "" → (u ∈ s.members g ↔ s.parentAg (userTableOf u) = some g)
  one : ∀ u g g', u ∈ s.members g → u ∈ s.members g' → g = g'

theorem Mirror.members {s : St} (hm : Mirror s) : Members s where
  same u g hg := (hm u g).trans (and_iff_right hg)
  one u _ _ hg hg' := Option.some.inj (((hm u _).1 hg).2.symm.trans ((hm u _).1 hg').2)

theorem step_next (fuel : Nat) {req : Req} {h : History} (ho : Orderly req h) (hi : Inv h) :
    Inv (next fuel req h) ∧ Entered fuel req h := by
  have hd := comes_handler hi.tables fuel req
  exact step_effect hi ho hd.1

/-- In every run of orderly requests, every state has its members in their guilds, and who enters one has applied to it last. -/
theorem guild_membership (fuel : Nat) (c : Setup) (reqs : List Req) (h : All (next fuel) Orderly reqs c.start) :
    All (next fuel) (fun req h => Members (next fuel req h).st.guild ∧ Entered fuel req h) reqs c.start := by
  refine all_of_inv (I := Inv) (fun req h ho hi => (step_next fuel ho hi).1) (fun req h ho hi => ?_) h (inv_start c)
  obtain ⟨hi', hentered⟩ := step_next fuel ho hi
  exact ⟨hi'.mirror.members, hentered⟩

/-- The guilds `2` and `3` of the company `1`, whose agents decide, and the user `7`. -/
def twoGuilds : Setup where
  shared :=
    { session := fun sid => if sid = "s" then some ("acc", "7") else none
      platform := fun _ => none
      kick := fun _ => false
      userTable := fun account => if account = "acc" then some (userTableOf "7") else none
      isUser := fun table => table = userTableOf "7"
      active := fun _ => none }
  agent := fun id =>
    if id = "1" then some ⟨some "1", some "0", none, some "1", none⟩
    else if id = "2" ∨ id = "3" then some ⟨some "2", some "1", none, some "1", some "0"⟩
    else none
  weixin _ := none
  unionid2group _ := none
  tables := by
    intro account table h
    dsimp only at h
    split at h
    · exact ⟨"7", (Option.some.inj h).symm, by decide⟩
    · cases h
  named := rfl

/-- The user applies, and the agent finds him. -/
theorem guild_membership_applied : All (next 2) (fun req h => Members (next 2 req h).st.guild ∧ Entered 2 req h)
    [.join "" "s" "2", .comfirmJoin "2"] twoGuilds.start := by
  refine guild_membership 2 twoGuilds [.join "" "s" "2", .comfirmJoin "2"] ⟨trivial, ?_, trivial⟩
  intro pre id post hl _ _
  have happlied : (next 2 (.join "" "s" "2") twoGuilds.start).st.guild.applied "2" = ["7"] := by decide +kernel
  obtain rfl : id = "7" := by
    have hid : id ∈ ["7"] := happlied ▸ hl ▸ List.mem_append_right pre List.mem_cons_self
    simpa using hid
  exact ⟨by decide +kernel, .inr ⟨by decide +kernel, by decide +kernel, ["0", ""], by decide +kernel⟩⟩

/-- He applies elsewhere, and the agent of the first guild lets him in. -/
theorem latest_passed_over : ¬All (next 2) (fun req h => Members (next 2 req h).st.guild ∧ Entered 2 req h)
    [.join "" "s" "2", .join "" "s" "3", .comfirmJoin "2"] twoGuilds.start := by
  rintro ⟨-, -, ⟨-, hentered⟩, -⟩
  have hlatest := hentered "7" "2" (by decide +kernel) (by decide +kernel)
  revert hlatest
  decide +kernel

end FishWeb.Guild.Join
