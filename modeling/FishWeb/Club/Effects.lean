import FishWeb.Club.Limits
/-!
# What a club request does

`effect_of`: a request does one of few things, with what was asked before. The theorems
about members, new clubs and permissions are cases over these.
-/
open Python Prog

namespace FishWeb.Club

open Common
open Function (update)

/-! ## What is done to the store -/

namespace St

/-- The account of a session, if it has a record. -/
def account (s : St) (sid : String) : Option String := (s.room.shared.info sid).account

def create (s : St) (account : String) (club_number : Int) (club_name ag : String) : St :=
  { s with
    clubs := s.clubs.sadd (toString club_number)
    attr := update s.attr (toString club_number) (some ⟨some club_name, some account, some club_name, some 1, some ∅, some ag⟩)
    owned := SetTable.add s.owned account (toString club_number) }

def join (s : St) (account club_number : String) : St :=
  { s with players := SetTable.add (SetTable.add s.players (playerToClubList account) club_number) (playerList club_number) account }

def leave (s : St) (account club_number : String) : St :=
  { s with
    players := SetTable.remove (SetTable.remove s.players (playerList club_number) account) (playerToClubList account) club_number }

def setAudit (s : St) (club_number : String) (audit : MemberSet String) : St :=
  { s with audit := update s.audit club_number audit }

/-- Who may act for a club: the user who made it and its managers. -/
def May (s : St) (account : Option String) (club_number : String) : Prop :=
  (s.attrOf club_number).club_user = account ∨
    ∃ a data, account = some a ∧ (s.attrOf club_number).club_manager = some data ∧ a ∈ data

/-- The number that `/club/create` gives. -/
def nextIdOf (s : St) : Except Err Int := do nextId (← ints s.clubs.members)

end St

/-- The refusals of who is no member, and of who may not open rooms. -/
def notMember : Reply := .msg 1 "你没有加入这个俱乐部！不能创建房间"

def notAllowed : Reply := .msg 1 "你不能创建房间！请和俱乐部创始人联系"

/-- What a request does to `s`: its answer, what is done in a club's name, and the store it leaves. -/
inductive Effect (s : St) : Req → Except Err Reply → List Event → St → Prop
  | nothing {req : Req} (r : Except Err Reply) (hreq : ∀ form, req ≠ .createRoom form) (hnew : ∀ msg n, r ≠ .ok (.created msg n)) :
    Effect s req r [] s
  | create (sid club_name ag : String) (n : Int) (hn : s.nextIdOf = .ok n) (hcount : (s.owned (fmt (s.account sid))).scard < 10) :
    Effect s (.create sid club_name) (.ok (.created "创建成功" n)) [] (s.create (fmt (s.account sid)) n club_name ag)
  | delete (sid club_number : String) (hclub : (s.attr club_number).isSome)
    (howner : (s.attrOf club_number).club_user = s.account sid) :
    Effect s (.delete sid club_number) (.ok (.ok "删除成功")) []
      (s.disband club_number (fmt (s.account sid)) (s.players (playerList club_number)).members)
  | edit (sid club_number club_content : String) (hclub : (s.attr club_number).isSome) (hmay : s.May (s.account sid) club_number) :
    Effect s (.edit sid club_number club_content) (.ok (.ok "成功")) []
      (s.setAttr club_number { s.attrOf club_number with club_content := some club_content })
  | join (sid club_number : String) (hclub : (s.attr club_number).isSome)
    (howner : (s.attrOf club_number).club_user ≠ s.account sid) :
    Effect s (.join sid club_number) (.ok (.ok "成功")) [] (s.join (fmt (s.account sid)) club_number)
  | signOut (sid club_number : String) :
    Effect s (.signOut sid club_number) (.ok (.ok "成功")) [] (s.leave (fmt (s.account sid)) club_number)
  | forceOut (builder_sid member_account club_number : String) (hclub : (s.attr club_number).isSome)
    (hmay : s.May (s.account builder_sid) club_number) :
    Effect s (.forceOut builder_sid member_account club_number) (.ok (.ok "成功")) [] (s.leave member_account club_number)
  | apply (sid club_number item : String) (hclub : (s.attr club_number).isSome)
    (howner : (s.attrOf club_number).club_user ≠ s.account sid) :
    Effect s (.apply sid club_number) (.ok (.ok "成功")) [] (s.setAudit club_number ((s.audit club_number).sadd item))
  /-- The applications `items` are decided; the user joins if one is accepted and there is a club. -/
  | audit (sid club_number apply_user_account status : String) (r : Except Err Reply) (items : List String) (audit : MemberSet String)
    (joined : Bool) (hnew : ∀ msg n, r ≠ .ok (.created msg n))
    (hmay : (s.attr club_number).isSome → s.May (s.account sid) club_number)
    (hitems : ∀ item ∈ items, item ∈ s.audit club_number) (hnone : items = [] → audit = s.audit club_number)
    (hjoined : joined = true → (s.attr club_number).isSome ∧ int status = some 1) :
    Effect s (.audit sid club_number apply_user_account status) r (items.map (Event.decided club_number))
      (if joined then (s.setAudit club_number audit).join apply_user_account club_number else s.setAudit club_number audit)
  | manager (req : Req) (club_number : String) (data : MemberSet String) (hclub : (s.attr club_number).isSome)
    (hreq : ∀ form, req ≠ .createRoom form) :
    Effect s req (.ok (.ok "成功")) [] (s.setAttr club_number { s.attrOf club_number with club_manager := some data })
  | allow (sid club_number : String) (settingAllow : Int) (hclub : (s.attr club_number).isSome) (hlives : (s.account sid).isSome) :
    Effect s (.settingAllow sid club_number) (.ok (.allow "成功" settingAllow)) [.allow club_number]
      { s with allow := update s.allow club_number (some settingAllow) }
  | auto (sid club_number gameid rule id : String) (ag : String) (hclub : (s.attr club_number).isSome)
    (hlives : (s.account sid).isSome) :
    Effect s (.autoCreate sid club_number gameid rule id) (.ok (.ok "成功")) [.rules club_number]
      (s.setAuto ((club_number, ag), id) ⟨(s.autoOf ((club_number, ag), id)).id, some rule, some gameid⟩)
  | clear (sid club_number : String) (l : List Event) (auto : (String × String) × String → Option Auto)
    (autoList : String × String → MemberSet String) (hclub : (s.attr club_number).isSome) (hlives : (s.account sid).isSome) (hl : ∀ e ∈ l, e = .rules club_number)
    (hauto : ∀ key, key.1.1 ≠ club_number → auto key = s.auto key) :
    Effect s (.clearAuto sid club_number) (.ok (.ok "成功")) l { s with auto := auto, autoList := autoList }
  | roomNotMember (form : RoomForm) (hclub : (s.attr form.club_number).isSome)
    (howner : (s.attrOf form.club_number).club_user ≠ s.account form.sid)
    (hlisted : form.club_number ∉ s.players (playerToClubList form.club_number)) :
    Effect s (.createRoom form) (.ok notMember) [] s
  | roomNotAllowed (form : RoomForm) (hclub : (s.attr form.club_number).isSome)
    (howner : (s.attrOf form.club_number).club_user ≠ s.account form.sid)
    (hallowed : (s.attrOf form.club_number).club_use_create_room ≠ some 1) :
    Effect s (.createRoom form) (.ok notAllowed) [] s
  | roomRefused (form : RoomForm) (r : Except Err Reply) (hnew : ∀ msg n, r ≠ .ok (.created msg n)) (hmember : r ≠ .ok notMember)
    (hallowed : r ≠ .ok notAllowed) :
    Effect s (.createRoom form) r [] s
  | room (form : RoomForm) (r : Except Err Room.Reply) (room : Room.St) (l : List Room.Forward) (hclub : (s.attr form.club_number).isSome)
    (hlives : (s.account form.sid).isSome) (hmember : (s.attrOf form.club_number).club_user ≠ s.account form.sid →
      form.club_number ∈ s.players (playerToClubList form.club_number) ∧
        (s.attrOf form.club_number).club_use_create_room = some 1) :
    Effect s (.createRoom form) (r.map .room) (l.map Event.forward) { s with room := room }

/-! ## Each request -/

section Requests
variable {s : St}

/-- The request comes to one of its effects. -/
def Meets (s : St) (req : Req) (r : Except Err Reply) (s' : St) (l : List Event) : Prop := Effect s req r l s'

/-- Nothing is done, and no club is new. -/
theorem meets_ret {req : Req} (hreq : ∀ form, req ≠ .createRoom form) {reply : Reply} (hnew : ∀ msg n, reply ≠ .created msg n) :
    Comes (Meets s req) (.ret reply : Handler Reply) s :=
  Effect.nothing _ hreq fun msg n h => hnew msg n (Except.ok.inj h)

theorem meets_refused {req : Req} (hreq : ∀ form, req ≠ .createRoom form) (e : Refusal) :
    Comes (Meets s req) (.ret (.refused e) : Handler Reply) s :=
  meets_ret hreq fun _ _ h => nomatch h

theorem meets_raise {req : Req} (hreq : ∀ form, req ≠ .createRoom form) (e : Err) :
    Comes (Meets s req) (.raise e : Handler Reply) s :=
  Effect.nothing _ hreq fun _ _ h => nomatch h

theorem ran_evalManager {club_number : String} {data : MemberSet String} (h : (s.attrOf club_number).club_manager = some data) :
    Ran (evalManager club_number) s (.ok data) s ([] : List Event) := by
  constructor <;> simp [evalManager, send, Exec.exec, Note.note, h]

theorem ran_evalManager_none {club_number : String} (h : (s.attrOf club_number).club_manager = none) :
    Ran (evalManager club_number) s (.error .TypeError) s ([] : List Event) := by
  constructor <;> simp [evalManager, send, Exec.exec, Note.note, h]

/-- Without a list of managers the request raises. -/
theorem comes_evalManager {Q : Except Err Reply → St → List Event → Prop} {club_number : String} {f : MemberSet String → Handler Reply}
    (hnone : (s.attrOf club_number).club_manager = none → Q (.error .TypeError) s [])
    (hf : ∀ data, (s.attrOf club_number).club_manager = some data → Comes Q (f data) s) :
    Comes Q (evalManager club_number >>= f) s := by
  cases hdata : (s.attrOf club_number).club_manager with
  | none =>
    rw [(ran_evalManager_none hdata).comes_error_iff]
    exact hnone hdata
  | some data =>
    rw [(ran_evalManager hdata).comes_bind_iff]
    exact hf data hdata

/-- What a stranger is refused, and the others may do. -/
theorem comes_stranger {Q : Except Err Reply → St → List Event → Prop} {club_number : String} {account : Option String}
    {data : MemberSet String} (hdata : (s.attrOf club_number).club_manager = some data) {f : Bool → Handler Reply}
    (htrue : Comes Q (f true) s) (hfalse : s.May account club_number → Comes Q (f false) s) :
    Comes Q (stranger club_number account data >>= f) s := by
  have hran : Ran (stranger club_number account data) s
      (.ok ((s.attrOf club_number).club_user ≠ account && outside account data)) s ([] : List Event) := ⟨rfl, rfl⟩
  rw [hran.comes_bind_iff]
  cases hb : ((s.attrOf club_number).club_user ≠ account && outside account data : Bool) with
  | true => exact htrue
  | false =>
    apply hfalse
    by_cases howner : (s.attrOf club_number).club_user = account
    · exact .inl howner
    · cases account with
      | none => simp [howner, outside] at hb
      | some a => exact .inr ⟨a, data, rfl, hdata, by simpa [howner, outside] using hb⟩

/-- What is tried comes to an effect, or fails before it does anything. -/
def Tried (s : St) (req : Req) (r : Except Err Reply) (s' : St) (l : List Event) : Prop :=
  match r with
  | .ok reply => Effect s req (.ok reply) l s'
  | .error _ => s' = s ∧ l = []

theorem tried_ret {req : Req} (hreq : ∀ form, req ≠ .createRoom form) {reply : Reply} (hnew : ∀ msg n, reply ≠ .created msg n) :
    Comes (Tried s req) (.ret reply : Handler Reply) s :=
  Effect.nothing _ hreq fun msg n h => hnew msg n (Except.ok.inj h)

theorem comes_orFail {req : Req} {msg : String} {p : Handler Reply} (hreq : ∀ form, req ≠ .createRoom form)
    (h : Comes (Tried s req) p s) : Comes (Meets s req) (orFail msg p) s := by
  have hran : Ran p.attempt s (.ok (run p s).1) (run p s).2 (trace Event p s) := Ran.attempt ⟨rfl, rfl⟩
  unfold Comes Tried at h
  cases hr : (run p s).1 with
  | ok reply =>
    rw [hr] at hran h
    have hall : Ran (orFail msg p) s (.ok reply) (run p s).2 (trace Event p s ++ []) := hran.bind (ran_ret _ _)
    rw [List.append_nil] at hall
    exact hall.comes h
  | error e =>
    rw [hr] at hran h
    obtain ⟨hs, hl⟩ := h
    rw [hs, hl] at hran
    have hall : Ran (orFail msg p) s (.ok (.msg 1 msg)) s ([] ++ [] : List Event) := hran.bind (ran_ret _ _)
    exact hall.comes (Effect.nothing _ hreq fun _ _ h => nomatch h)

theorem ran_ofExcept_bind {α β : Type} (x : Except Err α) (f : α → Except Err β) :
    Ran (ofExcept x >>= fun a => ofExcept (f a) : Handler β) s (x >>= f) s ([] : List Event) := by
  cases x with
  | error e => exact ⟨rfl, rfl⟩
  | ok a =>
    show Ran (ofExcept (f a) : Handler β) s (f a) s ([] : List Event)
    cases f a <;> exact ⟨rfl, rfl⟩

theorem ran_nextNumber {r : Except Err Int} (h : s.nextIdOf = r) : Ran nextNumber s r s ([] : List Event) := by
  subst h
  exact ran_call_bind rfl (ran_ofExcept_bind (ints s.clubs.members) nextId)

theorem comes_create (sid club_name : String) : Comes (Meets s (.create sid club_name)) (create_club sid club_name) s := by
  have hreq : ∀ form, Req.create sid club_name ≠ .createRoom form := fun _ h => nomatch h
  apply comes_orFail hreq
  have hret : ∀ reply : Reply, (∀ msg n, reply ≠ .created msg n) → Comes (Tried s (.create sid club_name)) (.ret reply : Handler Reply) s :=
    fun reply h => tried_ret hreq h
  by_cases hname : club_name = ""
  · subst hname
    exact hret _ fun _ _ h => nomatch h
  unfold tryCreate
  rw [if_neg hname, (ran_infoOf sid).comes_bind_iff]
  cases hhere : elsewhere sid (s.room.shared.info sid) with
  | true => exact hret _ fun _ _ h => nomatch h
  | false =>
  show Comes _ (getUserByAccount (s.account sid) >>= _) s
  rw [(ran_getUserByAccount _).comes_bind_iff]
  show Comes _ (orRaise Err.KeyError (s.room.user (fmt (s.room.shared.userTable (fmt (s.account sid))))).parentAg >>= _) s
  cases hag : (s.room.user (fmt (s.room.shared.userTable (fmt (s.account sid))))).parentAg with
  | none => exact ⟨rfl, rfl⟩
  | some ag =>
  by_cases hempty : ag = ""
  · subst hempty
    exact hret _ fun _ _ h => nomatch h
  show Comes _ (if ag = "" then _ else _ : Handler Reply) s
  rw [if_neg hempty]
  show Comes _ (if (s.owned (fmt (s.account sid))).scard ≥ 10 then _ else _ : Handler Reply) s
  refine comes_ite (fun _ => hret _ fun _ _ h => nomatch h) fun hcount => ?_
  cases hnext : s.nextIdOf with
  | error e =>
    rw [(ran_nextNumber hnext).comes_error_iff]
    exact ⟨rfl, rfl⟩
  | ok n =>
    rw [(ran_nextNumber hnext).comes_bind_iff]
    exact Effect.create sid club_name ag n hnext (not_le.1 hcount)

theorem comes_delete (sid club_number : String) : Comes (Meets s (.delete sid club_number)) (delete_club sid club_number) s := by
  have hreq : ∀ form, Req.delete sid club_number ≠ .createRoom form := fun _ h => nomatch h
  apply comes_orFail hreq
  unfold tryDelete
  rw [(ran_infoOf sid).comes_bind_iff]
  cases hhere : elsewhere sid (s.room.shared.info sid) with
  | true => exact tried_ret hreq fun _ _ h => nomatch h
  | false =>
  show Comes _ (if (s.attr club_number).isSome then _ else _ : Handler Reply) s
  refine comes_ite (fun hclub => ?_) fun _ => tried_ret hreq fun _ _ h => nomatch h
  show Comes _ (if (s.attrOf club_number).club_user ≠ s.account sid then _ else _ : Handler Reply) s
  refine comes_ite (fun _ => tried_ret hreq fun _ _ h => nomatch h) fun howner => ?_
  exact Effect.delete sid club_number hclub (not_not.1 howner)

theorem comes_edit (sid club_number club_content : String) :
    Comes (Meets s (.edit sid club_number club_content)) (edit_club sid club_number club_content) s := by
  have hreq : ∀ form, Req.edit sid club_number club_content ≠ .createRoom form := fun _ h => nomatch h
  by_cases hempty : club_number = ""
  · subst hempty
    exact meets_refused hreq _
  unfold edit_club
  rw [if_neg hempty, (ran_infoOf sid).comes_bind_iff]
  show Comes _ (if (s.attr club_number).isSome then _ else _ : Handler Reply) s
  refine comes_ite (fun hclub => ?_) fun _ => meets_refused hreq _
  show Comes _ (evalManager club_number >>= _) s
  refine comes_evalManager (fun _ => Effect.nothing _ hreq fun _ _ h => nomatch h) fun data hdata => ?_
  refine comes_stranger hdata ?_ fun hmay => ?_
  · exact meets_refused hreq _
  · exact Effect.edit sid club_number club_content hclub hmay

theorem ran_add_club (account club_number : String) (hclub : (s.attr club_number).isSome) :
    Ran (ClubOperation.add_club account club_number) s (.ok true) (s.join account club_number) ([] : List Event) := by
  constructor <;> simp [ClubOperation.add_club, send, Exec.exec, Note.note, hclub, St.join]

theorem ran_add_club_none (account club_number : String) (hclub : (s.attr club_number).isSome = false) :
    Ran (ClubOperation.add_club account club_number) s (.ok false) s ([] : List Event) := by
  constructor <;> simp [ClubOperation.add_club, send, Exec.exec, Note.note, hclub]

theorem comes_join (sid club_number : String) : Comes (Meets s (.join sid club_number)) (join_club sid club_number) s := by
  have hreq : ∀ form, Req.join sid club_number ≠ .createRoom form := fun _ h => nomatch h
  by_cases hempty : club_number = ""
  · subst hempty
    exact meets_refused hreq _
  unfold join_club
  rw [if_neg hempty, (ran_infoOf sid).comes_bind_iff]
  cases hhere : elsewhere sid (s.room.shared.info sid) with
  | true => exact meets_refused hreq _
  | false =>
  show Comes _ (if (s.attrOf club_number).club_user = s.account sid then _ else _ : Handler Reply) s
  refine comes_ite (fun _ => meets_refused hreq _) fun howner => ?_
  show Comes _ (ClubOperation.add_club (fmt (s.account sid)) club_number >>= _) s
  cases hclub : (s.attr club_number).isSome with
  | false =>
    rw [(ran_add_club_none _ _ hclub).comes_bind_iff]
    exact meets_refused hreq _
  | true =>
    rw [(ran_add_club _ _ hclub).comes_bind_iff]
    exact Effect.join sid club_number hclub howner

theorem comes_signOut (sid club_number : String) : Comes (Meets s (.signOut sid club_number)) (sign_out_club sid club_number) s := by
  have hreq : ∀ form, Req.signOut sid club_number ≠ .createRoom form := fun _ h => nomatch h
  unfold sign_out_club
  rw [(ran_infoOf sid).comes_bind_iff]
  cases hhere : elsewhere sid (s.room.shared.info sid) with
  | true => exact meets_refused hreq _
  | false => exact Effect.signOut sid club_number

theorem comes_forceOut (builder_sid member_account club_number : String) :
    Comes (Meets s (.forceOut builder_sid member_account club_number)) (force_sign_out_club builder_sid member_account club_number) s := by
  have hreq : ∀ form, Req.forceOut builder_sid member_account club_number ≠ .createRoom form := fun _ h => nomatch h
  unfold force_sign_out_club
  rw [(ran_infoOf builder_sid).comes_bind_iff]
  show Comes _ (if (s.account builder_sid).getD "" = "" then _ else _ : Handler Reply) s
  refine comes_ite (fun _ => meets_refused hreq _) fun _ => ?_
  show Comes _ (if (s.attr club_number).isSome then _ else _ : Handler Reply) s
  refine comes_ite (fun hclub => ?_) fun _ => meets_refused hreq _
  show Comes _ (evalManager club_number >>= _) s
  refine comes_evalManager (fun _ => Effect.nothing _ hreq fun _ _ h => nomatch h) fun data hdata => ?_
  refine comes_stranger hdata ?_ fun hmay => ?_
  · exact meets_refused hreq _
  · show Comes _ (if member_account ∈ data then _ else _ : Handler Reply) s
    exact comes_ite (fun _ => meets_refused hreq _) fun _ => Effect.forceOut builder_sid member_account club_number hclub hmay

theorem comes_apply (sid club_number : String) : Comes (Meets s (.apply sid club_number)) (apply_club sid club_number) s := by
  have hreq : ∀ form, Req.apply sid club_number ≠ .createRoom form := fun _ h => nomatch h
  by_cases hempty : club_number = ""
  · subst hempty
    exact meets_refused hreq _
  unfold apply_club
  rw [if_neg hempty, (ran_infoOf sid).comes_bind_iff]
  cases hhere : elsewhere sid (s.room.shared.info sid) with
  | true => exact meets_refused hreq _
  | false =>
  show Comes _ (if (s.attrOf club_number).club_user = s.account sid then _ else _ : Handler Reply) s
  refine comes_ite (fun _ => meets_refused hreq _) fun howner => ?_
  show Comes _ (if (s.attr club_number).isSome then _ else _ : Handler Reply) s
  cases hclub : (s.attr club_number).isSome with
  | false => exact meets_refused hreq _
  | true => exact Effect.apply sid club_number _ hclub howner

theorem comes_addManager (sid club_number manager_account : String) :
    Comes (Meets s (.addManager sid club_number manager_account)) (add_manager sid club_number manager_account) s := by
  have hreq : ∀ form, Req.addManager sid club_number manager_account ≠ .createRoom form := fun _ h => nomatch h
  unfold add_manager
  rw [(ran_infoOf sid).comes_bind_iff]
  show Comes _ (if (s.attr club_number).isSome then _ else _ : Handler Reply) s
  refine comes_ite (fun hclub => ?_) fun _ => meets_refused hreq _
  show Comes _ (if (s.attrOf club_number).club_user ≠ s.account sid then _ else _ : Handler Reply) s
  refine comes_ite (fun _ => meets_refused hreq _) fun _ => ?_
  show Comes _ (evalManager club_number >>= _) s
  refine comes_evalManager (fun _ => Effect.nothing _ hreq fun _ _ h => nomatch h) fun data hdata => ?_
  exact comes_ite (fun _ => meets_refused hreq _) fun _ => Effect.manager _ club_number _ hclub hreq

theorem comes_relieveManager (sid club_number manager_account : String) :
    Comes (Meets s (.relieveManager sid club_number manager_account)) (relieve_manager sid club_number manager_account) s := by
  have hreq : ∀ form, Req.relieveManager sid club_number manager_account ≠ .createRoom form := fun _ h => nomatch h
  unfold relieve_manager
  rw [(ran_infoOf sid).comes_bind_iff]
  show Comes _ (if (s.attr club_number).isSome then _ else _ : Handler Reply) s
  refine comes_ite (fun hclub => ?_) fun _ => meets_refused hreq _
  show Comes _ (if (s.attrOf club_number).club_user ≠ s.account sid then _ else _ : Handler Reply) s
  refine comes_ite (fun _ => meets_refused hreq _) fun _ => ?_
  show Comes _ (evalManager club_number >>= _) s
  refine comes_evalManager (fun _ => Effect.nothing _ hreq fun _ _ h => nomatch h) fun data hdata => ?_
  exact comes_ite (fun _ => meets_raise hreq _) fun _ => Effect.manager _ club_number _ hclub hreq

/-- From the applications `a`, the program decides some of `list` and lets `user` join if one is accepted and there is a club. -/
def Decides (s : St) (club_number user : String) (accept : Bool) (a : MemberSet String) (list : List String) (p : Handler Reply) : Prop :=
  ∃ (r : Except Err Reply) (items : List String) (audit : MemberSet String) (joined : Bool),
    Ran p (s.setAudit club_number a) r
      (if joined then (s.setAudit club_number audit).join user club_number else s.setAudit club_number audit)
      (items.map (Event.decided club_number)) ∧
    (∀ item ∈ items, item ∈ list) ∧ (items = [] → audit = a) ∧
    (joined = true → (s.attr club_number).isSome ∧ accept = true) ∧ ∀ msg n, r ≠ .ok (.created msg n)

section Decides
variable {club_number user : String} {accept : Bool} {a : MemberSet String} {item : String} {list : List String}

theorem decides_stay {p : Handler Reply} {r : Except Err Reply} (hnew : ∀ msg n, r ≠ .ok (.created msg n))
    (hran : Ran p (s.setAudit club_number a) r (s.setAudit club_number a) ([] : List Event)) :
    Decides s club_number user accept a list p :=
  ⟨r, [], a, false, hran, fun _ h => absurd h List.not_mem_nil, fun _ => rfl, fun h => absurd h Bool.false_ne_true, hnew⟩

theorem Decides.skip {p : Handler Reply} (h : Decides s club_number user accept a list p) :
    Decides s club_number user accept a (item :: list) p := by
  obtain ⟨r, items, audit, joined, hran, hitems, hrest⟩ := h
  exact ⟨r, items, audit, joined, hran, fun i hi => List.mem_cons_of_mem item (hitems i hi), hrest⟩

/-- An application is decided, and then what `p` decides. -/
theorem Decides.decided {p : Handler Reply} {text : String}
    (h : Decides s club_number user accept ((a.srem item).sadd text) list p) :
    Decides s club_number user accept a (item :: list)
      (send (.sremAudit club_number item) >>= fun _ => send (.saddAudit club_number text) >>= fun _ => p) := by
  obtain ⟨r, items, audit, joined, hran, hitems, hnone, hjoined, hnew⟩ := h
  have hstore : (Exec.exec (Own.saddAudit club_number text) (Exec.exec (Own.sremAudit club_number item) (s.setAudit club_number a)).2).2 =
      s.setAudit club_number ((a.srem item).sadd text) := by
    simp [Exec.exec, St.setAudit, SetTable.add, SetTable.remove]
  refine ⟨r, item :: items, audit, joined, ?_, ?_, fun h => absurd h (List.cons_ne_nil _ _), hjoined, hnew⟩
  · apply ran_cmd
    apply ran_quiet rfl
    rw [show (Exec.exec (Cmd.own (Own.saddAudit club_number text)) (Exec.exec (Cmd.own (Own.sremAudit club_number item))
      (s.setAudit club_number a)).2).2 = _ from hstore]
    exact hran
  · rintro i (_ | ⟨_, hi⟩)
    · exact List.mem_cons_self
    · exact List.mem_cons_of_mem item (hitems i hi)

theorem decides_decide (club_number user status : String) (accept : Bool) (list : List String) (a : MemberSet String) :
    Decides s club_number user accept a list (decide club_number user status accept list) := by
  induction list generalizing a with
  | nil => exact decides_stay (r := .ok (.msg 1 "失败")) (fun _ _ h => nomatch h) ⟨rfl, rfl⟩
  | cons item rest ih =>
    unfold decide
    split
    · rename_i account nickname avatar_url state hparts
      by_cases huser : account ≠ user
      · rw [if_pos huser]
        exact (ih a).skip
      obtain rfl := not_not.1 huser
      rw [if_neg (not_not.2 rfl)]
      cases hstate : (Value.str state).toInt with
      | error e => exact decides_stay (r := .error e) (fun _ _ h => nomatch h) ⟨rfl, rfl⟩
      | ok n =>
      rw [ofExcept_ok, ret_bind]
      by_cases hn : n ≠ 0
      · rw [if_pos hn]
        exact (ih a).skip
      rw [if_neg hn]
      apply Decides.decided
      let a' := (a.srem item).sadd (application account nickname avatar_url status)
      cases haccept : accept with
      | false => exact decides_stay (r := .ok (.ok "成功")) (fun _ _ h => nomatch h) ⟨rfl, rfl⟩
      | true =>
        show Decides s club_number account true a' rest (ClubOperation.add_club account club_number >>= fun joined =>
          if joined then return .ok "成功" else decide club_number account status true rest)
        cases hclub : (s.attr club_number).isSome with
        | false =>
          -- no club: the loop goes on
          obtain ⟨r, items, audit, joined, hran, hrest⟩ := haccept ▸ ih a'
          exact ⟨r, items, audit, joined, (ran_add_club_none (s := s.setAudit club_number a') account club_number hclub).bind hran, hrest⟩
        | true =>
          refine ⟨.ok (.ok "成功"), [], a', true,
            (ran_add_club (s := s.setAudit club_number a') account club_number hclub).bind (ran_ret _ _),
            fun _ h => absurd h List.not_mem_nil, fun _ => rfl, fun _ => ⟨hclub, rfl⟩, fun _ _ h => nomatch h⟩
    · exact decides_stay (r := .error .ValueError) (fun _ _ h => nomatch h) ⟨rfl, rfl⟩

end Decides

theorem ran_mayNotAudit (club_number : String) (account : Option String) :
    ∃ r, Ran (mayNotAudit club_number account) s r s ([] : List Event) ∧
      (r = .ok false → (s.attr club_number).isSome → s.May account club_number) := by
  cases hclub : (s.attr club_number).isSome with
  | false =>
    refine ⟨.ok false, ?_, by simp⟩
    constructor <;> simp [mayNotAudit, send, Exec.exec, Note.note, hclub]
  | true =>
    cases hdata : (s.attrOf club_number).club_manager with
    | none =>
      refine ⟨.error .TypeError, ?_, by simp⟩
      constructor <;> simp [mayNotAudit, evalManager, send, Exec.exec, Note.note, hclub, hdata]
    | some data =>
      refine ⟨.ok ((s.attrOf club_number).club_user ≠ account && outside account data), ?_, ?_⟩
      · constructor <;> simp [mayNotAudit, evalManager, stranger, send, Exec.exec, Note.note, hclub, hdata]
      · intro hb _
        by_cases howner : (s.attrOf club_number).club_user = account
        · exact .inl howner
        · cases account with
          | none => simp [howner, outside] at hb
          | some a => exact .inr ⟨a, data, rfl, hdata, by simpa [howner, outside] using hb⟩

theorem comes_audit (sid club_number user status : String) :
    Comes (Meets s (.audit sid club_number user status)) (apply_club_audit sid club_number user status) s := by
  have hreq : ∀ form, Req.audit sid club_number user status ≠ .createRoom form := by simp
  unfold apply_club_audit
  rw [(ran_infoOf sid).comes_bind_iff]
  refine comes_ite (fun _ => meets_refused hreq _) fun _ => ?_
  refine comes_ite (fun _ => meets_refused hreq _) fun _ => ?_
  refine comes_ite (fun _ => meets_refused hreq _) fun _ => ?_
  cases hint : int status with
  | none =>
    simp only [Value.toInt, hint, ofExcept_error, raise_bind]
    exact meets_raise hreq _
  | some decision =>
  simp only [Value.toInt, hint, ofExcept_ok, ret_bind]
  refine comes_ite (fun _ => meets_refused hreq _) fun _ => ?_
  cases hhere : elsewhere sid (s.room.shared.info sid) with
  | true => exact meets_refused hreq _
  | false =>
  show Comes _ (mayNotAudit club_number (s.account sid) >>= _) s
  obtain ⟨r, hran, hmay⟩ := ran_mayNotAudit (s := s) club_number (s.account sid)
  rcases r with e | b
  · rw [hran.comes_error_iff]
    exact Effect.nothing _ hreq (by simp)
  rw [hran.comes_bind_iff]
  cases b with
  | true => exact meets_refused hreq _
  | false =>
  have hself : s.setAudit club_number (s.audit club_number) = s := by simp [St.setAudit]
  obtain ⟨r, items, audit, joined, hran, hitems, hnone, hjoined, hnew⟩ :=
    decides_decide (s := s) club_number user status (decision = 1) (s.audit club_number).members (s.audit club_number)
  rw [hself] at hran
  refine hran.comes (Effect.audit sid club_number user status r items audit joined hnew (hmay rfl) hitems hnone fun h => ?_)
  obtain ⟨hclub, haccept⟩ := hjoined h
  exact ⟨hclub, by rw [hint, of_decide_eq_true haccept]⟩

/-! ### Automatic rooms -/

/-- A program that only reads: it comes to something and leaves the store. -/
def Quiet {α : Type} (p : Handler α) (s : St) : Prop := ∃ r, Ran p s r s ([] : List Event)

theorem quiet_ret {α : Type} (a : α) : Quiet (.ret a) s := ⟨_, ran_ret a s⟩

theorem quiet_bind {α β : Type} {p : Handler α} {f : α → Handler β} (hp : Quiet p s) (hf : ∀ a, Quiet (f a) s) : Quiet (p >>= f) s := by
  obtain ⟨e | a, hp⟩ := hp
  · exact ⟨_, hp.bind_error⟩
  · obtain ⟨r, hf⟩ := hf a
    exact ⟨r, hp.bind hf⟩

theorem quiet_orRaise {α : Type} (e : Err) (x : Option α) : Quiet (orRaise e x) s := by
  cases x with
  | none => exact ⟨.error e, rfl, rfl⟩
  | some a => exact quiet_ret a

theorem quiet_ofExcept {α : Type} (x : Except Err α) : Quiet (ofExcept x) s := by
  cases x with
  | error e => exact ⟨.error e, rfl, rfl⟩
  | ok a => exact quiet_ret a

theorem quiet_hundredCards (club_number : String) : Quiet (hundredCards club_number) s := by
  refine quiet_bind ⟨_, rfl, rfl⟩ fun owner => quiet_bind ⟨_, rfl, rfl⟩ fun userTable => quiet_bind ⟨_, rfl, rfl⟩ fun user => ?_
  refine quiet_bind (quiet_orRaise _ _) fun userTable => quiet_bind (quiet_orRaise _ _) fun id => quiet_bind ⟨_, rfl, rfl⟩ fun cards => ?_
  exact quiet_bind (quiet_ofExcept _) fun _ => quiet_ret _

theorem quiet_nextAllow (club_number : String) : Quiet (nextAllow club_number) s := by
  refine quiet_bind ⟨_, rfl, rfl⟩ fun allow => ?_
  dsimp only
  split
  · refine quiet_bind (quiet_hundredCards club_number) fun cards => ?_
    cases cards with
    | true => exact quiet_ret _
    | false => exact quiet_ret _
  · exact quiet_ret _

/-- The question is never answered with yes. -/
theorem ran_shutOut (club_number : String) (account : Option String) :
    ∃ r, Ran (shutOut club_number account) s r s ([] : List Event) ∧ r ≠ .ok true := by
  by_cases howner : (s.attrOf club_number).club_user = account
  · refine ⟨.ok false, ?_, by simp⟩
    constructor <;> simp [shutOut, send, Exec.exec, Note.note, howner]
  · cases account with
    | none =>
      refine ⟨.error .TypeError, ?_, by simp⟩
      constructor <;> simp [shutOut, send, Exec.exec, Note.note, howner]
    | some a =>
      refine ⟨.ok false, ?_, by simp⟩
      constructor <;> simp [shutOut, send, Exec.exec, Note.note]

theorem comes_shutOut {req : Req} (hreq : ∀ form, req ≠ .createRoom form) {club_number : String} {account : Option String}
    {f : Bool → Handler Reply} (hf : Comes (Meets s req) (f false) s) : Comes (Meets s req) (shutOut club_number account >>= f) s := by
  obtain ⟨r, hran, hne⟩ := ran_shutOut (s := s) club_number account
  match r, hran, hne with
  | .error e, hran, _ =>
    rw [hran.comes_error_iff]
    exact Effect.nothing _ hreq fun _ _ h => nomatch h
  | .ok true, _, hne => exact absurd rfl hne
  | .ok false, hran, _ => rwa [hran.comes_bind_iff]

/-- A session that has a record has an account. -/
theorem account_isSome {sid : String} (h : (s.room.shared.session sid).isSome) : (s.account sid).isSome := by
  show ((s.room.shared.session sid).map Prod.fst).isSome
  simpa using h

/-- The session and the club are there, or the request is refused. -/
theorem comes_autoRefusal {req : Req} (hreq : ∀ form, req ≠ .createRoom form) {sid club_number : String} {info : Info}
    {f : Option Reply → Handler Reply} (hrefused : ∀ reply, f (some reply) = .ret reply)
    (hf : (s.attr club_number).isSome → (s.account sid).isSome → Comes (Meets s req) (f none) s) :
    Comes (Meets s req) (autoRefusal sid club_number info >>= f) s := by
  have hno : ∀ code msg osid, Ran (autoRefusal sid club_number info) s (.ok (some (.refused ⟨code, msg, osid⟩))) s ([] : List Event) →
      Comes (Meets s req) (autoRefusal sid club_number info >>= f) s := by
    intro code msg osid hran
    rw [hran.comes_bind_iff, hrefused]
    exact meets_refused hreq _
  cases hlives : (s.room.shared.session sid).isSome with
  | false =>
    refine hno (-3) "sid 超时" none ?_
    unfold autoRefusal
    refine (ran_sessionLives sid).bind_nil ?_
    rw [hlives]
    exact ran_ret _ _
  | true =>
  have hstart : ∀ {r : Except Err (Option Reply)}, Ran (do
        if elsewhere sid info then return some (kicked sid)
        if club_number = "" then return some (.msg 1 "俱乐部编号没有传递")
        if !(← send (.existsAttr club_number)) then return some (.msg 1 "不存在这个俱乐部")
        return none : Handler (Option Reply)) s r s ([] : List Event) → Ran (autoRefusal sid club_number info) s r s ([] : List Event) := by
    intro r h
    unfold autoRefusal
    refine (ran_sessionLives sid).bind_nil ?_
    rw [hlives]
    exact h
  cases hhere : elsewhere sid info with
  | true => exact hno (-4) _ _ (hstart (by rw [hhere]; exact ran_ret _ _))
  | false =>
  by_cases hempty : club_number = ""
  · exact hno 1 _ _ (hstart (by rw [hhere, if_pos hempty]; exact ran_ret _ _))
  cases hclub : (s.attr club_number).isSome with
  | false =>
    refine hno 1 "不存在这个俱乐部" none (hstart ?_)
    rw [hhere, if_neg hempty]
    constructor <;> simp [send, Exec.exec, Note.note, hclub, Reply.msg]
  | true =>
    have hran : Ran (autoRefusal sid club_number info) s (.ok none) s ([] : List Event) := by
      refine hstart ?_
      rw [hhere, if_neg hempty]
      constructor <;> simp [send, Exec.exec, Note.note, hclub]
    rw [hran.comes_bind_iff]
    exact hf hclub (account_isSome hlives)

theorem comes_settingAllow (sid club_number : String) :
    Comes (Meets s (.settingAllow sid club_number)) (settting_auto_create_allow sid club_number) s := by
  have hreq : ∀ form, Req.settingAllow sid club_number ≠ .createRoom form := fun _ h => nomatch h
  unfold settting_auto_create_allow
  rw [(ran_infoOf sid).comes_bind_iff]
  refine comes_autoRefusal hreq (fun _ => rfl) fun hclub hlives => comes_shutOut hreq ?_
  obtain ⟨r, hran⟩ := quiet_nextAllow (s := s) club_number
  match r, hran with
  | .error e, hran =>
    refine (hran.comes_error_iff).2 ?_
    exact Effect.nothing _ hreq fun _ _ h => nomatch h
  | .ok none, hran =>
    refine (hran.comes_bind_iff).2 ?_
    exact meets_refused hreq _
  | .ok (some settingAllow), hran =>
    refine (hran.comes_bind_iff).2 ?_
    exact Effect.allow sid club_number settingAllow hclub hlives

theorem ran_agClubNumber (club_number : String) :
    ∃ ag, Ran (agClubNumber club_number) s (.ok (club_number, ag)) s ([] : List Event) := ⟨_, rfl, rfl⟩

theorem comes_autoCreate (sid club_number gameid rule id : String) :
    Comes (Meets s (.autoCreate sid club_number gameid rule id)) (setting_auto_create sid club_number gameid rule id) s := by
  have hreq : ∀ form, Req.autoCreate sid club_number gameid rule id ≠ .createRoom form := fun _ h => nomatch h
  unfold setting_auto_create
  obtain ⟨ag, hkey⟩ := ran_agClubNumber (s := s) club_number
  rw [(ran_infoOf sid).comes_bind_iff, hkey.comes_bind_iff]
  refine comes_autoRefusal hreq (fun _ => rfl) fun hclub hlives => ?_
  dsimp only
  refine comes_ite (fun _ => meets_refused hreq _) fun _ => ?_
  refine comes_shutOut hreq ?_
  exact Effect.auto sid club_number gameid rule id ag hclub hlives

/-- One automatic room is cleared, and those of no other club. -/
theorem ran_clearAuto (key : String × String) (id : String) :
    ∃ auto autoList, Ran (clearAuto key id) s (.ok ()) { s with auto := auto, autoList := autoList } [Event.rules key.1] ∧
      ∀ k, k.1.1 ≠ key.1 → auto k = s.auto k := by
  have hother : ∀ (a : Option Auto) k, k.1.1 ≠ key.1 → update s.auto (key, id) a k = s.auto k := by
    intro a k hk
    have hne : k ≠ (key, id) := by
      rintro rfl
      exact hk rfl
    exact Function.update_of_ne hne _ _
  cases hexists : (s.auto (key, id)).isSome with
  | true =>
    refine ⟨_, s.autoList, ran_call_bind rfl ?_, hother (some ⟨(some id).or (s.autoOf (key, id)).id, some "", some ""⟩)⟩
    show Ran (if (s.auto (key, id)).isSome then _ else _ : Handler Unit) s _ _ _
    rw [if_pos hexists]
    exact ⟨rfl, rfl⟩
  | false =>
    refine ⟨_, SetTable.add s.autoList key id, ran_call_bind rfl ?_, hother (some { s.autoOf (key, id) with id := some id })⟩
    show Ran (if (s.auto (key, id)).isSome then _ else _ : Handler Unit) s _ _ _
    rw [hexists]
    exact ⟨rfl, rfl⟩

theorem ran_clearAutos (key : String × String) (ids : List String) :
    ∃ l auto autoList, Ran (forEach ids (clearAuto key)) s (.ok ()) { s with auto := auto, autoList := autoList } l ∧
      (∀ e ∈ l, e = Event.rules key.1) ∧ ∀ k, k.1.1 ≠ key.1 → auto k = s.auto k := by
  induction ids generalizing s with
  | nil => exact ⟨[], s.auto, s.autoList, ran_ret () s, fun _ h => absurd h List.not_mem_nil, fun _ _ => rfl⟩
  | cons id ids ih =>
    obtain ⟨auto, autoList, hfirst, hauto⟩ := ran_clearAuto (s := s) key id
    obtain ⟨l, auto', autoList', hrest, hl, hauto'⟩ := ih (s := { s with auto := auto, autoList := autoList })
    refine ⟨[Event.rules key.1] ++ l, auto', autoList', hfirst.bind hrest, ?_, fun k hk => (hauto' k hk).trans (hauto k hk)⟩
    rintro e (_ | ⟨_, he⟩)
    · rfl
    · exact hl e he

theorem comes_clearAuto (sid club_number : String) :
    Comes (Meets s (.clearAuto sid club_number)) (clear_auto_create sid club_number) s := by
  have hreq : ∀ form, Req.clearAuto sid club_number ≠ .createRoom form := fun _ h => nomatch h
  unfold clear_auto_create
  rw [(ran_infoOf sid).comes_bind_iff]
  refine comes_autoRefusal hreq (fun _ => rfl) fun hclub hlives => comes_shutOut hreq ?_
  obtain ⟨ag, hkey⟩ := ran_agClubNumber (s := s) club_number
  refine (hkey.comes_bind_iff).2 ?_
  obtain ⟨l, auto, autoList, hran, hl, hauto⟩ := ran_clearAutos (s := s) (club_number, ag) autoIds
  have hall : Ran (forEach autoIds (clearAuto (club_number, ag)) >>= fun _ => (.ret (.ok "成功") : Handler Reply)) s
      (.ok (.ok "成功")) { s with auto := auto, autoList := autoList } (l ++ []) := hran.bind (ran_ret _ _)
  rw [List.append_nil] at hall
  exact hall.comes (Effect.clear sid club_number l auto autoList hclub hlives hl hauto)

/-! ### Rooms -/

theorem ran_memberRefusal (club_number : String) (account : Option String) :
    (Ran (memberRefusal club_number account) s (.ok (some notMember)) s ([] : List Event) ∧
      (s.attrOf club_number).club_user ≠ account ∧ club_number ∉ s.players (playerToClubList club_number)) ∨
    (Ran (memberRefusal club_number account) s (.ok (some notAllowed)) s ([] : List Event) ∧
      (s.attrOf club_number).club_user ≠ account ∧ (s.attrOf club_number).club_use_create_room ≠ some 1) ∨
    (Ran (memberRefusal club_number account) s (.error .TypeError) s ([] : List Event)) ∨
    (Ran (memberRefusal club_number account) s (.ok none) s ([] : List Event) ∧
      ((s.attrOf club_number).club_user ≠ account →
        club_number ∈ s.players (playerToClubList club_number) ∧ (s.attrOf club_number).club_use_create_room = some 1)) := by
  by_cases howner : (s.attrOf club_number).club_user = account
  · refine .inr (.inr (.inr ⟨?_, fun h => absurd howner h⟩))
    constructor <;> simp [memberRefusal, send, Exec.exec, Note.note, howner]
  by_cases hlisted : club_number ∈ s.players (playerToClubList club_number)
  · cases huse : (s.attrOf club_number).club_use_create_room with
    | none =>
      refine .inr (.inr (.inl ?_))
      constructor <;> simp [memberRefusal, send, Exec.exec, Note.note, howner, hlisted, huse]
    | some n =>
      by_cases hn : n = 1
      · refine .inr (.inr (.inr ⟨?_, fun _ => ⟨hlisted, by rw [hn]⟩⟩))
        constructor <;> simp [memberRefusal, send, Exec.exec, Note.note, howner, hlisted, huse, hn]
      · refine .inr (.inl ⟨?_, howner, fun h => hn (Option.some.inj h)⟩)
        constructor <;> simp [memberRefusal, send, Exec.exec, Note.note, howner, hlisted, huse, hn, notAllowed]
  · refine .inl ⟨?_, howner, hlisted⟩
    constructor <;> simp [memberRefusal, send, Exec.exec, Note.note, howner, hlisted, notMember]

theorem comes_createRoom (form : RoomForm) : Comes (Meets s (.createRoom form)) (doCreateRoom form) s := by
  have hrefused : ∀ reply : Reply, (∀ msg n, reply ≠ .created msg n) → reply ≠ notMember → reply ≠ notAllowed →
      Comes (Meets s (.createRoom form)) (.ret reply : Handler Reply) s := fun reply hnew hmember hallowed =>
    Effect.roomRefused form _ (fun msg n h => hnew msg n (Except.ok.inj h)) (fun h => hmember (Except.ok.inj h))
      fun h => hallowed (Except.ok.inj h)
  have hraised : ∀ e : Err, Meets s (.createRoom form) (.error e) s [] := fun e =>
    Effect.roomRefused form _ (fun _ _ h => nomatch h) (fun h => nomatch h) fun h => nomatch h
  unfold doCreateRoom
  cases hgame : int form.gameid with
  | none => exact hraised _
  | some gameId =>
  rw [orRaise_some, ret_bind, (ran_infoOf form.sid).comes_bind_iff]
  show Comes _ (if !(s.attr form.club_number).isSome then _ else _ : Handler Reply) s
  cases hclub : (s.attr form.club_number).isSome with
  | false => exact hrefused (.msg _ _) (fun _ _ h => nomatch h) (by decide) (by decide)
  | true =>
  show Comes _ (memberRefusal form.club_number (s.account form.sid) >>= _) s
  rcases ran_memberRefusal (s := s) form.club_number (s.account form.sid) with
    ⟨hran, howner, hlisted⟩ | ⟨hran, howner, hallowed⟩ | hran | ⟨hran, hmember⟩
  · rw [hran.comes_bind_iff]
    exact Effect.roomNotMember form hclub howner hlisted
  · rw [hran.comes_bind_iff]
    exact Effect.roomNotAllowed form hclub howner hallowed
  · rw [hran.comes_error_iff]
    exact hraised _
  rw [hran.comes_bind_iff]
  show Comes _ (if elsewhere form.sid (s.room.shared.info form.sid) then _ else _ : Handler Reply) s
  cases hhere : elsewhere form.sid (s.room.shared.info form.sid) with
  | true =>
    have hmsg : ∀ msg, kicked form.sid ≠ .msg 1 msg := by
      intro msg h
      have hcode := congrArg Reply.code h
      exact absurd hcode (show (-4 : Int) ≠ 1 by decide)
    exact hrefused (kicked form.sid) (fun _ _ h => nomatch h) (hmsg _) (hmsg _)
  | false =>
  show Comes _ (if !(s.room.shared.session form.sid).isSome then _ else _ : Handler Reply) s
  cases hlives : (s.room.shared.session form.sid).isSome with
  | false => exact hrefused (.msg _ _) (fun _ _ h => nomatch h) (by decide) (by decide)
  | true =>
  show Comes _ (if !(s.room.shared.isUser (s.ownerTable form.club_number)) then _ else _ : Handler Reply) s
  cases huser : s.room.shared.isUser (s.ownerTable form.club_number) with
  | false => exact hrefused (.msg _ _) (fun _ _ h => nomatch h) (by decide) (by decide)
  | true =>
  let p := openRoom gameId (fmt (s.account form.sid)) (s.ownerTable form.club_number) form
  have hran : Ran p s.room (run p s.room).1 (run p s.room).2 (trace Room.Forward p s.room) := ⟨rfl, rfl⟩
  have heffect := Effect.room form (run p s.room).1 (run p s.room).2 (trace Room.Forward p s.room) hclub (account_isSome hlives) hmember
  show Comes _ (room p >>= fun reply => (.ret (.room reply) : Handler Reply)) s
  rcases hr : (run p s.room).1 with e | reply
  · rw [hr] at hran heffect
    rw [(ran_room hran).comes_error_iff]
    exact heffect
  · rw [hr] at hran heffect
    have hall : Ran (room p >>= fun reply => (.ret (.room reply) : Handler Reply)) s (.ok (.room reply))
        { s with room := (run p s.room).2 } ((trace Room.Forward p s.room).map Event.forward ++ []) := (ran_room hran).bind (ran_ret _ _)
    rw [List.append_nil] at hall
    exact hall.comes heffect

/-- A request comes to one of its effects. -/
theorem effect_of (req : Req) (s : St) : Effect s req (run req.handler s).1 (trace Event req.handler s) (run req.handler s).2 := by
  cases req with
  | create sid club_name => exact comes_create sid club_name
  | delete sid club_number => exact comes_delete sid club_number
  | edit sid club_number club_content => exact comes_edit sid club_number club_content
  | join sid club_number => exact comes_join sid club_number
  | signOut sid club_number => exact comes_signOut sid club_number
  | forceOut builder_sid member_account club_number => exact comes_forceOut builder_sid member_account club_number
  | apply sid club_number => exact comes_apply sid club_number
  | audit sid club_number user status => exact comes_audit sid club_number user status
  | addManager sid club_number manager_account => exact comes_addManager sid club_number manager_account
  | relieveManager sid club_number manager_account => exact comes_relieveManager sid club_number manager_account
  | settingAllow sid club_number => exact comes_settingAllow sid club_number
  | autoCreate sid club_number gameid rule id => exact comes_autoCreate sid club_number gameid rule id
  | clearAuto sid club_number => exact comes_clearAuto sid club_number
  | createRoom form => exact comes_createRoom form

end Requests

end FishWeb.Club
