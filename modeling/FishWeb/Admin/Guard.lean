import FishWeb.Admin.Model
import FishWeb.Agents.Order
import FishWeb.Lib.Past
/-!
# Who gets past the guard

Requests of anybody, interleaved command by command, with sessions that end at any time.
Whoever the guard lets through to a path is on a session on which a login gave the code of
a picture and the password of an agent that was not frozen, and read rights with the path
in them. Though anybody may create agents, only the administrator's password opens what is
no right of the roles below his, or that of an agent `1:ban`: his rights are at the key of
what is banned of the administrator.
-/
open Python Prog Pool Past Script

namespace FishWeb.Admin

/-! ## What a request shows -/

inductive Act where
  /-- The code of a picture, for a session. -/
  | drew (sid code : String)
  | sawCode (sid code : String)
  | looked (account : String) (agentId : Option String)
  /-- The password and the mark of a record, as they were read. -/
  | record (agentId : String) (passwd valid : Option String)
  | rights (agentId : String) (l : List String)
  | granted (sid : String) (l : List String)
  | sawAccess (sid : String) (l : List String)
  /-- The guard lets the request through. -/
  | entered (sid path : String)
  deriving DecidableEq

instance : Note Own Act where
  note
    | .hset sid .maj_vcode v, _ => [.drew sid v]
    | .hget sid .maj_vcode, some code => [.sawCode sid code]
    | .getAgentId account, agentId => [.looked account agentId]
    | .hmgetLogin agentId, (passwd, valid, _) => [.record agentId passwd valid]
    | .smembers .access agentId, l => [.rights agentId l]
    | .hsetAccess sid l, _ => [.granted sid l]
    | .hgetAccess sid, some l => [.sawAccess sid l]
    | .enter sid path _, _ => [.entered sid path]
    | _, _ => []

instance : Note Cmd Act where
  note
    | .own c, b => Note.note c b
    | _, _ => []

/-! ## Rights below the administrator's -/

section Below
variable (T : AccessModule)

/-- A right of a role that is not the administrator's. -/
def Below (url : String) : Prop :=
  url = OPEN_AUTH ∨ ∃ agentType menu, agentType ≠ "0" ∧ T.access agentType = some menu ∧ url ∈ urls menu

variable {T} in
theorem below_iff {url : String} :
    Below T url ↔ url = OPEN_AUTH ∨ ∃ menu ∈ ["1", "2", "3"].filterMap T.access, url ∈ urls menu := by
  refine or_congr Iff.rfl ⟨?_, ?_⟩
  · rintro ⟨agentType, menu, hne, hmenu, hurl⟩
    have hrole := (List.mem_cons.1 (AccessModule.access_role hmenu)).resolve_left hne
    exact ⟨menu, List.mem_filterMap.2 ⟨agentType, hrole, hmenu⟩, hurl⟩
  · rintro ⟨menu, hin, hurl⟩
    obtain ⟨agentType, hrole, hmenu⟩ := List.mem_filterMap.1 hin
    refine ⟨agentType, menu, ?_, hmenu, hurl⟩
    rintro rfl
    exact absurd hrole (by decide)

instance (url : String) : Decidable (Below T url) := decidable_of_iff _ below_iff.symm

/-- The administrator, and whoever has the rights at the key of his bans. -/
def Foremost (id : String) : Prop := id = "1" ∨ id = "1:ban"

/-- There is one administrator, and no agent but these two has a right of his alone. -/
structure Sealed (s : St) : Prop where
  admin : (s.agents.detail "1").isSome
  adminType : (s.agents.rate.agent "1").type = some "0"
  types : ∀ id t, id ≠ "1" → (s.agents.rate.agent id).type = some t → ∃ n : Nat, t = toString (n + 1)
  rights : ∀ id, ¬Foremost id → ∀ url ∈ s.rights (Rights.access.key id), Below T url

variable {T} {s s' : St}

theorem Sealed.same (h : Sealed T s) (hagents : s'.agents = s.agents) (hrights : s'.rights = s.rights) :
    Sealed T s' := by
  obtain ⟨hadmin, htype, htypes, hurls⟩ := h
  exact ⟨by rwa [hagents], by rwa [hagents], by rwa [hagents], by rwa [hrights]⟩

theorem below_role {agentType : String} (h : agentType ≠ "0") {menu : List AccessObj} (hmenu : T.access agentType = some menu) :
    ∀ o ∈ menu, Below T o.url :=
  fun _ ho => .inr ⟨agentType, menu, h, hmenu, List.mem_map_of_mem ho⟩

theorem below_form {agentType : String} (h : agentType ≠ "0") {form : List String}
    (hform : T.getAgentNewListAccessUrl agentType = some form) : ∀ u ∈ form, Below T u := by
  intro u hu
  obtain ⟨menu, hmenu, hsubset⟩ := AccessModule.newList_subset hform
  exact .inr ⟨agentType, menu, h, hmenu, hsubset u hu⟩

theorem level_ne_zero (n : Nat) : toString (n + 1) ≠ "0" := by
  intro h
  have hint := int_toString (n + 1)
  rw [h, show int "0" = some 0 by decide] at hint
  have := Option.some.inj hint
  omega

/-- The role of anybody but the administrator. -/
theorem Sealed.role (h : Sealed T s) {id : String} (hid : id ≠ "1") : (s.agents.rate.agent id).type ≠ some "0" := by
  intro ht
  obtain ⟨n, hn⟩ := h.types id "0" hid ht
  exact level_ne_zero n hn.symm

/-- The level of any agent, and that of the agents below it. -/
theorem Sealed.level (h : Sealed T s) {id t : String} (ht : (s.agents.rate.agent id).type = some t) {k : Int} (hk : int t = some k) :
    ∃ n : Nat, toString (k + 1) = toString (n + 1) := by
  by_cases hid : id = "1"
  · subst hid
    obtain rfl := Option.some.inj (h.adminType.symm.trans ht)
    obtain rfl : (0 : Int) = k := Option.some.inj ((show int "0" = some 0 by decide).symm.trans hk)
    exact ⟨0, rfl⟩
  · obtain ⟨n, rfl⟩ := h.types id t hid ht
    obtain rfl : ((n + 1 : Nat) : Int) = k := Option.some.inj ((int_toString _).symm.trans hk)
    exact ⟨n + 1, rfl⟩

end Below

/-! ## What each request may do -/

def accessOf (s : St) (sid : String) : Option (List String) := (s.session sid).bind Session.access

def codeOf (s : St) (sid : String) : Option String := (s.session sid).bind fun x => x.text .maj_vcode

section Rule
variable (T : AccessModule) (sha256 : String → String)

/-- The login that the request is gave the code of the session and the password of a valid agent, whose rights it read. -/
structure Login (sid agentId : String) (rights : List String) (r : Request) (l : List Act) : Prop where
  login : ∃ cookie fresh form remote_addr now code account, r = .login cookie fresh form remote_addr now ∧
    .sawCode sid code ∈ l ∧ upper form.code = upper code ∧
    .looked form.account account ∈ l ∧ agentId = fmt account ∧
    .record agentId (some (sha256 form.passwd)) (some "1") ∈ l
  rights : .rights agentId rights ∈ l

/-- What the request `r` may do after the acts `l`. -/
structure Obeys (r : Request) (l : List Act) (s : St) (evs : List Act) (s' : St) : Prop where
  closed : Sealed T s'
  access : ∀ sid rights, accessOf s' sid = some rights → accessOf s sid = some rights ∨ .granted sid rights ∈ evs
  code : ∀ sid code, codeOf s' sid = some code → codeOf s sid = some code ∨ .drew sid code ∈ evs
  sawAccess : ∀ sid rights, .sawAccess sid rights ∈ evs → accessOf s sid = some rights
  sawCode : ∀ sid code, .sawCode sid code ∈ evs → codeOf s sid = some code
  rights : ∀ id rights, .rights id rights ∈ evs → ¬Foremost id → ∀ url ∈ rights, Below T url
  granted : ∀ sid rights, .granted sid rights ∈ evs → ∃ id, Login sha256 sid id rights r l
  entered : ∀ sid path, .entered sid path ∈ evs → ∃ rights, .sawAccess sid rights ∈ l ∧ path ∈ rights

variable {T sha256} {r : Request}

/-- An act that the store bears out, and neither grants nor enters. -/
def Act.Fair (T : AccessModule) (s : St) : Act → Prop
  | .drew _ _ => True
  | .looked _ _ => True
  | .record _ _ _ => True
  | .sawCode sid code => codeOf s sid = some code
  | .sawAccess sid l => accessOf s sid = some l
  | .rights id l => ¬Foremost id → ∀ url ∈ l, Below T url
  | .granted _ _ => False
  | .entered _ _ => False

theorem obeys_fair {s s' : St} {evs : List Act} (closed : Sealed T s')
    (access : ∀ sid rights, accessOf s' sid = some rights → accessOf s sid = some rights)
    (code : ∀ sid code, codeOf s' sid = some code → codeOf s sid = some code ∨ .drew sid code ∈ evs)
    (hfair : ∀ e ∈ evs, e.Fair T s) (l : List Act) : Obeys T sha256 r l s evs s' where
  closed := closed
  access sid rights hs := .inl (access sid rights hs)
  code := code
  sawAccess _ _ h := hfair _ h
  sawCode _ _ h := hfair _ h
  rights _ _ h := hfair _ h
  granted _ _ h := (hfair _ h).elim
  entered _ _ h := (hfair _ h).elim

/-- A command that leaves the sessions. -/
theorem obeys_still {s s' : St} {evs : List Act} (h : Sealed T s') (hsession : s'.session = s.session)
    (hfair : ∀ e ∈ evs, e.Fair T s) (l : List Act) : Obeys T sha256 r l s evs s' :=
  obeys_fair h (fun sid _ hs => by rwa [accessOf, hsession] at hs) (fun sid _ hs => .inl (by rwa [codeOf, hsession] at hs)) hfair l

theorem fair_nil (s : St) : ∀ e ∈ ([] : List Act), e.Fair T s := fun _ h => nomatch h

theorem fair_one {s : St} {e : Act} (h : e.Fair T s) : ∀ e' ∈ [e], e'.Fair T s := fun _ he => List.mem_singleton.1 he ▸ h

end Rule

/-! ## Commands -/

section Commands
variable {T : AccessModule} {sha256 : String → String} {r : Request}

/-- A write that makes no administrator. -/
def Low : Agents.Write → Prop
  | .hmsetCreate info => info.id ≠ "1" ∧ ∃ n : Nat, info.type = toString (n + 1)
  | _ => True

/-- A command that the rule allows after any acts. -/
def TameOwn (T : AccessModule) ⦃β : Type⦄ : Own β → Prop
  | .hsetAccess _ _ => False
  | .enter _ _ _ => False
  | .sadd _ agentId url => agentId ≠ "1" → Below T url
  | .execute pipe _ => ∀ w ∈ pipe, Low w
  | _ => True

def TameRecord ⦃β : Type⦄ : Agents.Own β → Prop
  | .execute pipe => ∀ w ∈ pipe, Low w
  | _ => True

def TameAgents ⦃β : Type⦄ : Agents.Cmd β → Prop
  | .own c => TameRecord c
  | .rate _ => True

def Tame (T : AccessModule) ⦃β : Type⦄ : Cmd β → Prop
  | .own c => TameOwn T c
  | .agents c => TameAgents c
  | .down _ => True

/-- What keeps the administrator and the levels of the others. -/
def Levels (a : Agents.St) : Prop :=
  (a.detail "1").isSome ∧ (a.rate.agent "1").type = some "0" ∧
    ∀ id t, id ≠ "1" → (a.rate.agent id).type = some t → ∃ n : Nat, t = toString (n + 1)

theorem levels_write {a : Agents.St} (h : Levels a) {w : Agents.Write} (hw : Low w) : Levels (w.apply a) := by
  obtain ⟨hadmin, htype, htypes⟩ := h
  cases w with
  | saddId _ | saddRate _ _ | saddPrice _ _ | setAccount _ _ => exact ⟨hadmin, htype, htypes⟩
  | hmsetCreate info =>
    obtain ⟨hid, n, hn⟩ := hw
    refine ⟨?_, ?_, fun id t hne ht => ?_⟩
    · simpa [Agents.Write.apply, Function.update_of_ne (Ne.symm hid)] using hadmin
    · simpa [Agents.Write.apply, Function.update_of_ne (Ne.symm hid)] using htype
    · by_cases heq : id = info.id
      · subst heq
        simp only [Agents.Write.apply, Function.update_self, Agents.AgentInfo.agent, Option.some.injEq] at ht
        exact ⟨n, ht.symm.trans hn⟩
      · simp only [Agents.Write.apply, Function.update_of_ne heq] at ht
        exact htypes id t hne ht
  | hmsetModify agentId info =>
    have htype' (id : String) : ((Agents.Write.apply a (.hmsetModify agentId info)).rate.agent id).type = (a.rate.agent id).type := by
      by_cases heq : id = agentId
      · subst heq
        simp [Agents.Write.apply, Agents.ModifyInfo.agent]
      · simp [Agents.Write.apply, Function.update_of_ne heq]
    refine ⟨?_, by rw [htype']; exact htype, fun id t hne ht => htypes id t hne (by rwa [htype'] at ht)⟩
    by_cases heq : "1" = agentId
    · subst heq
      simp [Agents.Write.apply]
    · simpa [Agents.Write.apply, Function.update_of_ne heq] using hadmin

theorem levels_execute {pipe : List Agents.Write} (hpipe : ∀ w ∈ pipe, Low w) {a : Agents.St} (h : Levels a) :
    Levels (pipe.foldl Agents.Write.apply a) := by
  induction pipe generalizing a with
  | nil => exact h
  | cons w pipe ih =>
    obtain ⟨hw, hpipe⟩ := List.forall_mem_cons.1 hpipe
    exact ih hpipe (levels_write h hw)

theorem Sealed.levels {s s' : St} (h : Sealed T s) (ha : Levels s.agents → Levels s'.agents)
    (hrights : s'.rights = s.rights) : Sealed T s' := by
  obtain ⟨hadmin, htype, htypes⟩ := ha ⟨h.admin, h.adminType, h.types⟩
  exact ⟨hadmin, htype, htypes, by rw [hrights]; exact h.rights⟩

/-- The writes of a transaction that are not to the records. -/
theorem foldl_write (own : List Write) (s : St) : ∃ down, own.foldl Write.apply s = { s with down := down } := by
  induction own generalizing s with
  | nil => exact ⟨s.down, rfl⟩
  | cons w own ih =>
    obtain ⟨down, hdown⟩ := ih (w.apply s)
    cases w <;> exact ⟨down, hdown⟩

theorem text_setText (s : St) (sid sid' : String) (f f' : Field) (v : String) :
    ((setText s sid f v).session sid').bind (fun x => x.text f') =
      if sid' = sid ∧ f' = f then some v else (s.session sid').bind fun x => x.text f' := by
  unfold setText
  by_cases hs : sid' = sid
  · subst hs
    cases hx : s.session sid' <;> by_cases hf : f' = f <;> simp [hf]
  · simp [hs]

theorem access_setText (s : St) (sid sid' : String) (f : Field) (v : String) : accessOf (setText s sid f v) sid' = accessOf s sid' := by
  unfold accessOf setText
  by_cases hs : sid' = sid
  · subst hs
    cases hx : s.session sid' <;> simp
  · simp [Function.update_of_ne hs]

theorem code_setAccess (s : St) (sid sid' : String) (l : List String) : codeOf (setAccess s sid l) sid' = codeOf s sid' := by
  unfold codeOf setAccess
  by_cases hs : sid' = sid
  · subst hs
    cases hx : s.session sid' <;> simp
  · simp [Function.update_of_ne hs]

theorem access_setAccess (s : St) (sid sid' : String) (l : List String) :
    accessOf (setAccess s sid l) sid' = if sid' = sid then some l else accessOf s sid' := by
  unfold accessOf setAccess
  by_cases hs : sid' = sid
  · subst hs
    simp
  · simp [hs]

theorem mem_foldl_remove {l : List String} {t : String → MemberSet String} {key key' url : String} :
    url ∈ l.foldl (fun t u => SetTable.remove t key u) t key' ↔ url ∈ t key' ∧ ¬(key' = key ∧ url ∈ l) := by
  induction l generalizing t with
  | nil => simp
  | cons u l ih =>
    rw [List.foldl_cons, ih, SetTable.mem_remove, List.mem_cons]
    tauto

/-- The key of somebody's rights is that of his own, or of what is banned of another. -/
theorem sealed_sadd {s : St} (h : Sealed T s) {rt : Rights} {agentId url : String} (hurl : agentId ≠ "1" → Below T url) :
    Sealed T (Exec.exec (Own.sadd rt agentId url) s).2 := by
  refine ⟨h.admin, h.adminType, h.types, fun id hid u hu => ?_⟩
  rcases (SetTable.mem_add ..).1 hu with ⟨hkey, rfl⟩ | hu
  · refine hurl fun hone => hid ?_
    subst hone
    cases rt with
    | access => exact .inl (Rights.key_access_inj.1 hkey)
    | ban => exact .inr (Rights.key_access_eq_ban.1 hkey)
  · exact h.rights id hid u hu

theorem sealed_srem {s : St} (h : Sealed T s) (rt : Rights) (agentId : String) (l : List String) :
    Sealed T (Exec.exec (Own.srem rt agentId l) s).2 :=
  ⟨h.admin, h.adminType, h.types, fun id hid u hu => h.rights id hid u (mem_foldl_remove.1 hu).1⟩

/-- What a command on the records leaves of them. -/
theorem levels_agents ⦃β : Type⦄ {c : Agents.Cmd β} (hc : TameAgents c) {a : Agents.St} (h : Levels a) :
    Levels (Exec.exec c a).2 := by
  cases c with
  | own c =>
    cases c with
    | execute pipe => exact levels_execute hc h
    | hmgetParent _ | hgetType _ | existsAgent _ | existsAccount _ | saddId _ => exact h
  | rate c => cases c <;> exact h

theorem free_tame ⦃β : Type⦄ {c : Cmd β} (hc : Tame T c) : Free (Sealed T) (Obeys T sha256 r) c := by
  intro s hs l
  cases c with
  | agents c => exact obeys_still (hs.levels (by exact levels_agents hc) (by rfl)) (by rfl) (fair_nil s) l
  | down c => exact obeys_still (hs.same (by rfl) (by rfl)) (by rfl) (fair_nil s) l
  | own c =>
    cases c with
    | hsetAccess _ _ | enter _ _ _ => exact hc.elim
    | existsSession _ | hmgetLast _ | hgetAgent _ _ => exact obeys_still hs rfl (fair_nil s) l
    | getAgentId _ | hmgetLogin _ => exact obeys_still hs rfl (fair_one (by trivial)) l
    | srem rt agentId l' => exact obeys_still (sealed_srem hs rt agentId l') (by rfl) (fair_nil s) l
    | sadd rt agentId url =>
      have hsealed : Sealed T (Exec.exec (Own.sadd rt agentId url) s).2 := sealed_sadd hs hc
      exact obeys_still hsealed (by rfl) (fair_nil s) l
    | execute pipe own =>
      obtain ⟨down, hdown⟩ := foldl_write own { s with agents := pipe.foldl Agents.Write.apply s.agents }
      have hs' : (Exec.exec (Own.execute pipe own) s).2 =
          { s with agents := pipe.foldl Agents.Write.apply s.agents, down := down } := hdown
      show Obeys T sha256 r l s [] (Exec.exec (Own.execute pipe own) s).2
      rw [hs']
      exact obeys_still (hs.levels (by exact levels_execute hc) (by rfl)) (by rfl) (fair_nil s) l
    | lapse sid =>
      have hgone {sid' : String} (h : sid' ≠ sid) : Function.update s.session sid none sid' = s.session sid' :=
        Function.update_of_ne h none s.session
      have hsealed : Sealed T (Exec.exec (Own.lapse sid) s).2 := hs.same rfl rfl
      refine obeys_fair hsealed (fun sid' rights h => ?_) (fun sid' code h => ?_) (fair_nil s) l
      · by_cases heq : sid' = sid
        · subst heq
          simp [accessOf, Exec.exec] at h
        · simpa [accessOf, Exec.exec, hgone heq] using h
      · by_cases heq : sid' = sid
        · subst heq
          simp [codeOf, Exec.exec] at h
        · exact .inl (by simpa [codeOf, Exec.exec, hgone heq] using h)
    | hget sid f =>
      refine obeys_still hs rfl ?_ l
      cases f with
      | maj_vcode =>
        show ∀ e ∈ (Note.note (Own.hget sid .maj_vcode) (codeOf s sid) : List Act), e.Fair T s
        cases hcode : codeOf s sid with
        | none => exact fair_nil s
        | some code => exact fair_one hcode
      | lastLoginIp | lastLoginDate | type | account | id => exact fair_nil s
    | hset sid f v =>
      have hsealed : Sealed T (setText s sid f v) := hs.same rfl rfl
      refine obeys_fair hsealed (fun sid' rights h => ?_) (fun sid' code h => ?_) ?_ l
      · exact (access_setText s sid sid' f v).symm.trans h
      · have htext := (text_setText s sid sid' f .maj_vcode v).symm.trans h
        split at htext
        · next heq =>
          obtain ⟨rfl, rfl⟩ := heq
          obtain rfl := Option.some.inj htext
          exact .inr List.mem_cons_self
        · exact .inl htext
      · cases f with
        | maj_vcode => exact fair_one trivial
        | lastLoginIp | lastLoginDate | type | account | id => exact fair_nil s
    | hgetAccess sid =>
      refine obeys_still hs rfl ?_ l
      show ∀ e ∈ (Note.note (Own.hgetAccess sid) (accessOf s sid) : List Act), e.Fair T s
      cases haccess : accessOf s sid with
      | none => exact fair_nil s
      | some rights => exact fair_one haccess
    | smembers rt id =>
      refine obeys_still hs rfl ?_ l
      cases rt with
      | ban => exact fair_nil s
      | access => exact fair_one fun hid url hurl => hs.rights id hid url hurl

end Commands

/-! ## The parts of the requests -/

section Parts
variable {T : AccessModule} {sha256 : String → String} {r : Request}

/-- A part of the request `r`, after the acts `l`. -/
abbrev Keeps {α : Type} (T : AccessModule) (sha256 : String → String) (r : Request) (Q : List Act → α → Prop) (l : List Act)
    (p : Handler α) : Prop :=
  Past.Meets (Sealed T) (Obeys T sha256 r) Q l p

theorem Tame.free {α : Type} {p : Handler α} (hp : Only (Tame T) p) : Only (Free (Sealed T) (Obeys T sha256 r)) p :=
  hp.mono fun _ _ h => free_tame h

theorem keeps_tame {α β : Type} {Q : List Act → α → Prop} {l : List Act} {p : Handler β} {f : β → Handler α} (hp : Only (Tame T) p)
    (hf : ∀ b l, Keeps T sha256 r Q l (f b)) : Keeps T sha256 r Q l (p >>= f) :=
  meets_free (P := fun _ => True) (fun _ _ _ => trivial) (Tame.free hp) (returns_any p) trivial fun b l _ _ => hf b l

theorem only_send {β : Type} {c : Own β} (hc : TameOwn T c) : Only (Tame T) (send c) := ⟨hc, fun _ => trivial⟩

theorem only_getSession (cookie : Cookie) (fresh : String) : Only (Tame T) (getSession cookie fresh) := by
  cases cookie with
  | absent | malformed => trivial
  | uuid sid =>
    refine only_bind _ (only_send trivial) fun known => ?_
    split <;> trivial

/-- A command whose acts are used. -/
theorem keeps_tell {α β : Type} {Q : List Act → α → Prop} {l : List Act} {c : Own β} (hc : TameOwn T c) {f : β → Handler α}
    (h : ∀ b, Keeps T sha256 r Q (l ++ Note.note c b) (f b)) : Keeps T sha256 r Q l (send c >>= f) :=
  fun s hs => ⟨free_tame (c := Cmd.own c) hc s hs l, h _⟩

/-- What has been seen stays seen. -/
theorem mem_more {e : Act} (l l' : List Act) (h : e ∈ l) : e ∈ l ++ l' := List.mem_append_left l' h

theorem obeys_enter {s : St} (hs : Sealed T s) {sid path : String} {rights : List String} {l : List Act}
    (hsaw : .sawAccess sid rights ∈ l) (hpath : path ∈ rights) : Obeys T sha256 r l s [.entered sid path] s where
  closed := hs
  access _ _ h := .inl h
  code _ _ h := .inl h
  sawAccess _ _ h := by simp at h
  sawCode _ _ h := by simp at h
  rights _ _ h := by simp at h
  granted _ _ h := by simp at h
  entered sid' path' he := by
    obtain ⟨rfl, rfl⟩ := Act.entered.inj (List.mem_singleton.1 he)
    exact ⟨rights, hsaw, hpath⟩

theorem obeys_grant {s : St} (hs : Sealed T s) {sid id : String} {rights : List String} {l : List Act}
    (h : Login sha256 sid id rights r l) : Obeys T sha256 r l s [.granted sid rights] (setAccess s sid rights) where
  closed := hs.same rfl rfl
  access sid' rights' ha := by
    rw [access_setAccess] at ha
    split at ha
    · next heq =>
      obtain rfl := Option.some.inj ha
      exact .inr (heq ▸ List.mem_cons_self)
    · exact .inl ha
  code sid' code hc := .inl ((code_setAccess s sid sid' rights).symm.trans hc)
  sawAccess _ _ h := by simp at h
  sawCode _ _ h := by simp at h
  rights _ _ h := by simp at h
  granted sid' rights' hg := by
    obtain ⟨rfl, rfl⟩ := Act.granted.inj (List.mem_singleton.1 hg)
    exact ⟨id, h⟩
  entered _ _ h := by simp at h

theorem keeps_checkAccess {body : String → Handler Reply}
    (hbody : ∀ sid l, Keeps T sha256 r (fun _ _ => True) l (body sid)) (path : String) (cookie : Cookie)
    (fresh : String) : Keeps T sha256 r (fun _ _ => True) [] (checkAccess path cookie fresh body) := by
  unfold checkAccess
  refine keeps_tame (only_getSession cookie fresh) fun sid l => ?_
  refine keeps_tame (only_send trivial) fun account l => ?_
  split
  · trivial
  intro s hs
  have hfree : Free (Sealed T) (Obeys T sha256 r) (Cmd.own (.hgetAccess sid)) := free_tame trivial
  refine ⟨hfree s hs l, ?_⟩
  have hanswer : (Exec.exec (Cmd.own (.hgetAccess sid)) s).1 = accessOf s sid := rfl
  rw [hanswer]
  cases haccess : accessOf s sid with
  | none => trivial
  | some rights =>
    show Keeps T sha256 r _ _ (if path ∉ rights then Prog.ret (Reply.abort 403) else _)
    split
    · trivial
    next hpath =>
    -- what it saw is what lets it in
    refine meets_free (P := fun l => Act.sawAccess sid rights ∈ l) (fun l l' h => mem_more l l' h)
      (Tame.free (only_send trivial)) (returns_any _) (List.mem_append_right l List.mem_cons_self) fun agentId l _ hsaw => ?_
    intro s hs
    exact ⟨obeys_enter hs hsaw (not_not.1 hpath), hbody sid _⟩

theorem only_agents {α : Type} {p : Agents.Handler α} (hp : Only TameAgents p) : Only (Tame T) (agents p) := only_lift hp

theorem only_down {α : Type} (p : Downline.Handler α) : Only (Tame T) (down p) := only_lift (only_any p)

theorem only_roleOf {α : Type} (table : Option α) : Only (Tame T) (roleOf table) := by
  cases table <;> trivial

/-- What nobody below the administrator is given is not given. -/
theorem only_sadd {agentId : String} {menu : List AccessObj} (h : agentId ≠ "1" → ∀ o ∈ menu, Below T o.url) :
    Only (Tame T) (forEach menu fun o => send (.sadd .access agentId o.url)) :=
  only_forEach _ fun o ho => only_send fun hid => h hid o ho

theorem keeps_getNewAccess {P : List Act → Prop} (hP : ∀ l l', P l → P (l ++ l')) {Q : List Act → Reply → Prop}
    {f : Unit → Handler Reply} (agentId : String) {l : List Act} (hl : P l) (hf : ∀ l, P l → Keeps T sha256 r Q l (f ())) :
    Keeps T sha256 r Q l (getNewAccess T agentId >>= f) := by
  unfold getNewAccess
  simp only [bind_assoc]
  intro s hs
  have hfree : Free (Sealed T) (Obeys T sha256 r) (Cmd.agents (.own (.hgetType agentId))) := free_tame trivial
  refine ⟨hfree s hs l, ?_⟩
  have hrole : agentId ≠ "1" → (s.agents.rate.agent agentId).type ≠ some "0" := hs.role
  have hanswer : (Exec.exec (Cmd.agents (.own (.hgetType agentId))) s).1 = (s.agents.rate.agent agentId).type := rfl
  rw [hanswer]
  generalize (s.agents.rate.agent agentId).type = aType at hrole
  show Keeps T sha256 r Q _ (roleOf (aType.bind T.access) >>= _)
  refine meets_orRaise fun menu hmenu => ?_
  obtain ⟨t, rfl, hmenu⟩ := Option.bind_eq_some_iff.1 hmenu
  have hbelow : agentId ≠ "1" → ∀ o ∈ menu, Below T o.url := fun hid =>
    below_role (fun ht => hrole hid (congrArg some ht)) hmenu
  refine meets_free hP (Tame.free (only_sadd hbelow)) (returns_any _) (hP l _ hl) fun _ l _ hl => ?_
  refine meets_free hP (Tame.free (only_send trivial)) (returns_any _) hl fun s2 l _ hl => ?_
  have hban : Only (Tame T) (do
      let accessBan ← send (.smembers .ban agentId)
      if accessBan ≠ [] then send (.srem .access agentId accessBan)) :=
    only_bind _ (only_send trivial) fun _ => (only_ite ..).2 ⟨fun _ => only_send trivial, fun _ => trivial⟩
  have hrest := (only_ite (Tame T) (s2.filter (fun url => url ∉ urls menu) ≠ []) _ _).2
    ⟨fun _ => only_bind _ (only_send (c := .srem .access agentId (s2.filter fun url => url ∉ urls menu)) trivial) fun _ => hban,
      fun _ => hban⟩
  exact meets_free hP (Tame.free hrest) (returns_any _) hl fun _ l _ hl => hf l hl

/-- A login grants the rights that it has read. -/
theorem keeps_logIn {cookie : Cookie} {fresh remote_addr now : String} {form : LoginForm}
    (hr : r = .login cookie fresh form remote_addr now) (sid : String) (agentId type : Option String) {code : String} {l : List Act}
    (hcode : .sawCode sid code ∈ l) (hupper : upper form.code = upper code) (hlooked : .looked form.account agentId ∈ l)
    (hrecord : .record (fmt agentId) (some (sha256 form.passwd)) (some "1") ∈ l) :
    Keeps T sha256 r (fun _ _ => True) l (logIn T sid form agentId type remote_addr now) := by
  let P (l : List Act) : Prop := .sawCode sid code ∈ l ∧ .looked form.account agentId ∈ l ∧
    .record (fmt agentId) (some (sha256 form.passwd)) (some "1") ∈ l
  have hP (l l' : List Act) (h : P l) : P (l ++ l') := ⟨mem_more _ _ h.1, mem_more _ _ h.2.1, mem_more _ _ h.2.2⟩
  have hskip {β : Type} {c : Own β} (hc : TameOwn T c) {f : β → Handler Reply} {l : List Act} (hl : P l)
      (hf : ∀ b l, P l → Keeps T sha256 r (fun _ _ => True) l (f b)) : Keeps T sha256 r (fun _ _ => True) l (send c >>= f) :=
    meets_free hP (Tame.free (only_send hc)) (returns_any _) hl fun b l _ hl => hf b l hl
  have hgrant (l : List Act) (hl : P l) : Keeps T sha256 r (fun _ _ => True) l (do
      let access ← send (.smembers .access (fmt agentId))
      send (.hsetAccess sid access)
      return Reply.redirect "/admin/FISH") := by
    refine keeps_tell (by trivial) fun rights => ?_
    obtain ⟨hcode, hlooked, hrecord⟩ := hP l [.rights (fmt agentId) rights] hl
    have hlogin : Login sha256 sid (fmt agentId) rights r (l ++ [.rights (fmt agentId) rights]) :=
      ⟨⟨cookie, fresh, form, remote_addr, now, code, agentId, hr, hcode, hupper, hlooked, rfl, hrecord⟩,
        List.mem_append_right l List.mem_cons_self⟩
    exact fun s hs => ⟨obeys_grant hs hlogin, trivial⟩
  have hmain (l : List Act) (hl : P l) :
      Keeps T sha256 r (fun _ _ => True) l (fillSession T sid form (fmt agentId) remote_addr now) := by
    refine hskip (by trivial) hl fun last l hl => hskip (by trivial) hl fun _ l hl => ?_
    refine hskip (by trivial) hl fun _ l hl => hskip (by trivial) hl fun _ l hl => ?_
    refine hskip (by exact fun _ h => (List.not_mem_nil h).elim) hl fun _ l hl => hskip (by trivial) hl fun _ l hl => ?_
    exact hskip (by trivial) hl fun _ l hl => keeps_getNewAccess hP (fmt agentId) hl hgrant
  unfold logIn
  dsimp only
  split
  · exact hskip (by exact fun _ => .inl rfl) ⟨hcode, hlooked, hrecord⟩ fun _ => hmain
  · exact hmain l ⟨hcode, hlooked, hrecord⟩

theorem keeps_doLogin {cookie : Cookie} {fresh remote_addr now : String} {form : LoginForm}
    (hr : r = .login cookie fresh form remote_addr now) :
    Keeps T sha256 r (fun _ _ => True) [] (doLogin T sha256 cookie fresh form remote_addr now) := by
  unfold doLogin
  refine keeps_tame (only_getSession cookie fresh) fun sid l => ?_
  split
  · trivial
  refine keeps_tell (by trivial) fun maj_vcode => ?_
  cases maj_vcode with
  | none => trivial
  | some code =>
    show Keeps T sha256 r _ _ (if upper form.code ≠ upper code then Prog.ret (Reply.page "验证码无效") else _)
    split
    · trivial
    next hupper =>
    refine keeps_tell (by trivial) fun agentId => ?_
    have hsaw : .sawCode sid code ∈ l ++ [.sawCode sid code] ++ [.looked form.account agentId] ∧
        .looked form.account agentId ∈ l ++ [.sawCode sid code] ++ [.looked form.account agentId] := by simp
    refine meets_free (P := fun l => .sawCode sid code ∈ l ∧ .looked form.account agentId ∈ l)
      (fun l l' h => ⟨mem_more _ _ h.1, mem_more _ _ h.2⟩) (Tame.free (only_agents ⟨trivial, fun _ => trivial⟩)) (returns_any _)
      hsaw fun known l _ hl => ?_
    split
    · trivial
    refine keeps_tell (by trivial) fun ⟨adminPasswd, valid, type⟩ => ?_
    dsimp only
    split
    · trivial
    next hpasswd =>
    split
    · trivial
    next hvalid =>
    refine keeps_logIn hr sid agentId type (mem_more _ _ hl.1) (not_not.1 hupper) (mem_more _ _ hl.2) ?_
    rw [not_not.1 hpasswd, not_not.1 hvalid]
    exact List.mem_append_right l List.mem_cons_self

/-! ## The forms about an agent -/

theorem tame_getUserCardMoney (depth : Nat) (agentId : String) : Only TameAgents (Agents.getUserCardMoney depth agentId) :=
  only_lift ((only_any _).mono fun _ _ _ => trivial)

theorem tame_exceeds (shareRate limit : String) : Only TameAgents (Agents.exceeds shareRate limit) := by
  rcases Agents.exceeds_cases shareRate limit with ⟨b, h⟩ | h <;> rw [h] <;> trivial

theorem tame_createPrices (depth : Nat) (agentId parentAg : String) (agent_type parent_unitPrice : Option String)
    (form : Agents.CreateForm) : Only TameAgents (Agents.createPrices depth agentId parentAg agent_type parent_unitPrice form) := by
  unfold Agents.createPrices
  dsimp only
  split
  · refine only_bind _ ?_ fun _ => trivial
    unfold Agents.priceOfRate
    split
    · trivial
    · split
      · exact tame_getUserCardMoney depth parentAg
      · trivial
  · trivial

theorem tame_modifyPrices (depth : Nat) (agent_type : Option String) (form : Agents.ModifyForm) :
    Only TameAgents (Agents.modifyPrices depth agent_type form) := by
  unfold Agents.modifyPrices
  dsimp only
  split
  · exact only_bind _ (tame_getUserCardMoney depth form.agentId) fun _ => trivial
  · split
    · exact only_bind _ (tame_getUserCardMoney depth form.agentId) fun _ => trivial
    · trivial

theorem low_createPrices (depth : Nat) (agentId parentAg : String) (agent_type parent_unitPrice : Option String)
    (form : Agents.CreateForm) :
    Returns (fun prices => ∀ w ∈ prices, Low w) (Agents.createPrices depth agentId parentAg agent_type parent_unitPrice form) := by
  unfold Agents.createPrices
  dsimp only
  split
  · refine returns_bind (returns_any _) fun unitPrice _ w hw => ?_
    cases w with
    | hmsetCreate _ => simp at hw
    | _ => trivial
  · intro w hw
    cases w with
    | hmsetCreate _ => simp at hw
    | _ => trivial

theorem low_modifyPrices (depth : Nat) (agent_type : Option String) (form : Agents.ModifyForm) :
    Returns (fun prices => ∀ w ∈ prices, Low w) (Agents.modifyPrices depth agent_type form) := by
  unfold Agents.modifyPrices
  dsimp only
  split
  · refine returns_bind (returns_any _) fun unitPrice _ w hw => ?_
    cases w with
    | hmsetCreate _ => simp at hw
    | _ => trivial
  · split
    · refine returns_bind (returns_any _) fun unitPrice _ w hw => ?_
      cases w with
      | hmsetCreate _ => simp at hw
      | _ => trivial
    · intro w hw
      cases w with
      | hmsetCreate _ => simp at hw
      | _ => trivial

/-- The form about a new agent does not name the administrator. -/
theorem keeps_createChecks (form : Agents.CreateForm) (l : List Act) :
    Keeps T sha256 r (fun _ reply => reply = none → form.agentId ≠ "1") l (agents (createChecks form)) := by
  have hfail (l : List Act) (reply : Reply) :
      Keeps T sha256 r (fun _ reply => reply = none → form.agentId ≠ "1") l (Prog.ret (some reply)) := fun h => nomatch h
  unfold createChecks
  split
  · exact hfail l _
  split
  · exact hfail l _
  split
  · exact hfail l _
  rcases Agents.exceeds_cases form.shareRate form.unitPrice with ⟨b, hunit⟩ | hunit <;> rw [hunit]
  swap
  · trivial
  rw [ret_bind]
  split
  · exact hfail l _
  rcases Agents.exceeds_cases form.shareRate form.myRate with ⟨b, hmy⟩ | hmy <;> rw [hmy]
  swap
  · trivial
  rw [ret_bind]
  split
  · exact hfail l _
  intro s hs
  have hfree : Free (Sealed T) (Obeys T sha256 r) (Cmd.agents (.own (.existsAgent form.agentId))) := free_tame trivial
  refine ⟨hfree s hs l, ?_⟩
  have hanswer : (Exec.exec (Cmd.agents (.own (.existsAgent form.agentId))) s).1 = (s.agents.detail form.agentId).isSome := rfl
  rw [hanswer]
  cases hknown : (s.agents.detail form.agentId).isSome with
  | true => exact hfail _ _
  | false =>
    have hne : form.agentId ≠ "1" := by
      intro hid
      rw [hid, hs.admin] at hknown
      cases hknown
    refine meets_free_end (Tame.free (only_agents (p := do
      if ← Agents.send (.existsAccount form.account) then
        return some (Reply.fail ("代理账号(" ++ form.account ++ ")已经存在."))
      return none) ⟨trivial, fun known => ?_⟩)) fun _ _ _ => hne
    cases known <;> trivial

/-- A drawn id has six digits. -/
theorem agentIdOf_ne {form : Agents.CreateForm} (hid : form.agentId ≠ "1") (idNo : Agents.IdNo) :
    Returns (· ≠ "1") (Agents.agentIdOf idNo form.agentId) := by
  unfold Agents.agentIdOf
  split
  · intro known
    cases known
    · trivial
    · intro h
      have hlen := idNo.text_length
      rw [h] at hlen
      exact absurd hlen (by decide)
  · exact hid

theorem tame_agentIdOf (idNo : Agents.IdNo) (agentId : String) : Only TameAgents (Agents.agentIdOf idNo agentId) := by
  unfold Agents.agentIdOf
  split
  · refine ⟨trivial, fun known => ?_⟩
    cases known <;> trivial
  · trivial

theorem only_banAgentAccess (ticked : String → Bool) {agentType : String} (h : agentType ≠ "0") (agentId : String) :
    Only (Tame T) (banAgentAccess T ticked agentType agentId) :=
  only_bind_returns (only_roleOf _) (returns_orRaise _ _) fun _ hform => only_forEach _ fun u hu =>
    (only_ite ..).2 ⟨fun _ => trivial, fun _ => only_send fun _ => below_form h hform u hu⟩

theorem only_banAgentAccessModify (ticked : String → Bool) {agentType agentId : String} (h : agentId ≠ "1" → agentType ≠ "0") :
    Only (Tame T) (banAgentAccessModify T ticked agentType agentId) :=
  only_bind_returns (only_roleOf _) (returns_orRaise _ _) fun _ hform => only_forEach _ fun u hu =>
    (only_ite ..).2 ⟨fun _ => only_send trivial, fun _ => only_send fun hid => below_form (h hid) hform u hu⟩

theorem only_setAgentAccess {agentType : String} (h : agentType ≠ "0") (agentId : String) :
    Only (Tame T) (setAgentAccess T agentType agentId) := by
  refine only_bind_returns (only_roleOf _) (returns_orRaise _ _) fun menu hmenu => ?_
  exact only_sadd fun _ => below_role h hmenu

theorem keeps_doCreateAgent (depth : Nat) (cookie : Cookie) (fresh : String) (idNo : Agents.IdNo) (agent_id : Option Int)
    (form : Agents.CreateForm) (ticked : String → Bool) :
    Keeps T sha256 r (fun _ _ => True) [] (doCreateAgent T sha256 depth cookie fresh idNo agent_id form ticked) := by
  unfold doCreateAgent
  refine keeps_tame (only_getSession cookie fresh) fun sid l => keeps_tame (only_send trivial) fun selfUid l => ?_
  dsimp only
  split
  · trivial
  intro s hs
  have hfree : Free (Sealed T) (Obeys T sha256 r) (Cmd.agents (.own (.hmgetParent (toString (agent_id.getD 0))))) := free_tame trivial
  refine ⟨hfree s hs l, ?_⟩
  have hlevel (t : String) (k : Int) : (s.agents.rate.agent (toString (agent_id.getD 0))).type = some t → int t = some k →
      ∃ n : Nat, toString (k + 1) = toString (n + 1) := fun ht hk => hs.level ht hk
  have hanswer : (Exec.exec (Cmd.agents (.own (.hmgetParent (toString (agent_id.getD 0))))) s).1 =
      ((s.agents.rate.agent (toString (agent_id.getD 0))).type, (s.agents.rate.agent (toString (agent_id.getD 0))).unitPrice) := rfl
  rw [hanswer]
  generalize (s.agents.rate.agent (toString (agent_id.getD 0))).type = agent_type at hlevel
  show Keeps T sha256 r _ _ (agents (createChecks form) >>= _)
  refine meets_bind (keeps_createChecks form _) fun l reply hreply => ?_
  cases reply with
  | some reply => trivial
  | none =>
    have htrue (l l' : List Act) (h : True) : True := h
    refine meets_free htrue (Tame.free (only_agents (tame_agentIdOf idNo _)))
      (returns_lift (agentIdOf_ne (hreply rfl) idNo)) trivial fun agentId l hid _ => ?_
    refine meets_orRaise fun t ht => meets_orRaise fun k hk => ?_
    obtain ⟨n, hn⟩ := hlevel t k ht hk
    refine meets_free htrue (Tame.free (only_agents (tame_createPrices ..)))
      (returns_lift (low_createPrices ..)) trivial fun prices l hprices _ => ?_
    have hlow : toString (k + 1) ≠ "0" := hn ▸ level_ne_zero n
    refine keeps_tame (only_setAgentAccess hlow agentId) fun _ l => ?_
    refine keeps_tame (only_banAgentAccess ticked hlow agentId) fun _ l => keeps_tame (only_send ?_) fun _ _ => trivial
    intro w hw
    rcases List.mem_append.1 hw with hw | hw
    · rcases List.mem_append.1 hw with hw | hw
      · split at hw
        · cases hw
        · obtain rfl := List.mem_singleton.1 hw
          trivial
      · exact hprices w hw
    · rcases List.mem_cons.1 hw with rfl | hw
      · exact ⟨hid, n, hn⟩
      · obtain rfl := List.mem_singleton.1 hw
        trivial

theorem keeps_doAgentModify (depth : Nat) (form : Agents.ModifyForm) (ticked : String → Bool) (l : List Act) :
    Keeps T sha256 r (fun _ _ => True) l (doAgentModify T depth form ticked) := by
  unfold doAgentModify
  split
  · trivial
  intro s hs
  have hfree : Free (Sealed T) (Obeys T sha256 r) (Cmd.agents (.own (.hgetType form.agentId))) := free_tame trivial
  refine ⟨hfree s hs l, ?_⟩
  have hrole : form.agentId ≠ "1" → (s.agents.rate.agent form.agentId).type ≠ some "0" := hs.role
  have hanswer : (Exec.exec (Cmd.agents (.own (.hgetType form.agentId))) s).1 = (s.agents.rate.agent form.agentId).type := rfl
  rw [hanswer]
  generalize (s.agents.rate.agent form.agentId).type = agent_type at hrole
  have hlow : form.agentId ≠ "1" → fmt agent_type ≠ "0" := by
    intro hid h
    cases agent_type with
    | none => exact absurd h (by decide)
    | some t => exact hrole hid (congrArg some h)
  show Keeps T sha256 r _ _ (agents (Agents.exceeds form.shareRate form.unitPrice) >>= _)
  refine keeps_tame (only_agents (tame_exceeds _ _)) fun high _ => ?_
  split
  · trivial
  refine keeps_tame (only_agents (tame_exceeds _ _)) fun high _ => ?_
  split
  · trivial
  refine meets_free_end (Tame.free ?_) fun _ _ => trivial
  refine only_bind_returns (only_agents (tame_modifyPrices ..)) (returns_lift (low_modifyPrices ..)) fun prices hprices => ?_
  refine only_bind _ (only_banAgentAccessModify ticked hlow) fun _ => only_bind _ (only_send ?_) fun _ => trivial
  intro w hw
  rcases List.mem_append.1 hw with hw | hw
  · exact hprices w hw
  · obtain rfl := List.mem_singleton.1 hw
    trivial

theorem only_doAgFreeze (agentId : String) : Only (Tame T) (doAgFreeze agentId) := by
  unfold doAgFreeze
  refine only_bind _ (only_agents ⟨trivial, fun _ => trivial⟩) fun known => ?_
  split
  · trivial
  refine only_bind _ (only_send trivial) fun valid => ?_
  split
  · exact only_bind _ (only_down _) fun _ => trivial
  · exact only_bind _ (only_send fun _ h => nomatch h) fun _ => trivial

theorem only_doModifyPasswd (cookie : Cookie) (fresh : String) (form : PasswdForm) :
    Only (Tame T) (doModifyPasswd sha256 cookie fresh form) := by
  unfold doModifyPasswd
  refine only_bind _ (only_getSession cookie fresh) fun sid => ?_
  refine only_bind _ (only_send trivial) fun _ => only_bind _ (only_send trivial) fun selfUid => ?_
  split
  · trivial
  split
  · trivial
  split
  · trivial
  refine only_bind _ (only_send trivial) fun passwd => ?_
  split
  · trivial
  · exact only_bind _ (only_send fun _ h => nomatch h) fun _ => trivial

theorem keeps_request (depth : Nat) (r : Request) : Keeps T sha256 r (fun _ _ => True) [] (r.handler T sha256 depth) := by
  have htame {p : Handler Reply} (h : Only (Tame T) p) : Keeps T sha256 r (fun _ _ => True) [] p :=
    meets_free_end (Tame.free h) fun _ _ => trivial
  cases r with
  | vcode cookie fresh code =>
    exact htame (only_bind _ (only_getSession cookie fresh) fun sid => only_bind _ (only_send trivial) fun _ => trivial)
  | login cookie fresh form remote_addr now => exact keeps_doLogin rfl
  | create cookie fresh idNo agent_id form ticked => exact keeps_doCreateAgent depth cookie fresh idNo agent_id form ticked
  | modify cookie fresh form ticked => exact keeps_checkAccess (fun _ => keeps_doAgentModify depth form ticked) _ cookie fresh
  | freeze cookie fresh agentId => exact keeps_checkAccess (fun _ _ => meets_free_end (Tame.free (only_doAgFreeze agentId)) fun _ _ => trivial) _ cookie fresh
  | modifyPasswd cookie fresh form => exact htame (only_doModifyPasswd cookie fresh form)
  | page path cookie fresh => exact keeps_checkAccess (fun _ _ => by trivial) path cookie fresh
  | lapse sid => exact htame (only_bind _ (only_send trivial) fun _ => trivial)

end Parts

/-! ## Requests of anybody -/

section Pool
variable (T : AccessModule) (sha256 : String → String) (depth : Nat) (requests : List Request)

/-- Requests to the store of a new installation, that have not begun. -/
def arrive : Conf Act Err Cmd St Reply := ⟨⟨init T sha256, []⟩, requests.map (Request.handler T sha256 depth)⟩

/-- Where everything that lets somebody in comes from. -/
structure Traced (σ : World Act St) : Prop where
  access : ∀ sid rights, accessOf σ.store sid = some rights → ∃ j, (j, .granted sid rights) ∈ σ.log
  code : ∀ sid code, codeOf σ.store sid = some code → ∃ j, (j, .drew sid code) ∈ σ.log
  sawAccess : ∀ i sid rights, (i, .sawAccess sid rights) ∈ σ.log → ∃ j, (j, .granted sid rights) ∈ σ.log
  sawCode : ∀ i sid code, (i, .sawCode sid code) ∈ σ.log → ∃ j, (j, .drew sid code) ∈ σ.log
  rights : ∀ i id rights, (i, .rights id rights) ∈ σ.log → ¬Foremost id → ∀ url ∈ rights, Below T url
  granted : ∀ j sid rights, (j, .granted sid rights) ∈ σ.log →
    ∃ r id, requests[j]? = some r ∧ Login sha256 sid id rights r (eventsOf j σ.log)
  entered : ∀ i sid path, (i, .entered sid path) ∈ σ.log → ∃ rights, (i, .sawAccess sid rights) ∈ σ.log ∧ path ∈ rights

variable {T sha256 depth requests}

theorem Login.more {sid id : String} {rights : List String} {r : Request} {l : List Act} (h : Login sha256 sid id rights r l)
    (l' : List Act) : Login sha256 sid id rights r (l ++ l') := by
  obtain ⟨⟨cookie, fresh, form, remote_addr, now, code, account, hr, hcode, hupper, hlooked, hid, hrecord⟩, hrights⟩ := h
  exact ⟨⟨cookie, fresh, form, remote_addr, now, code, account, hr, mem_more _ _ hcode, hupper, mem_more _ _ hlooked, hid,
    mem_more _ _ hrecord⟩, mem_more _ _ hrights⟩

/-- The events of a program are before those that are added. -/
theorem eventsOf_extends (i j : Nat) (log : List (Nat × Act)) (evs : List Act) :
    ∃ l', eventsOf j (log ++ evs.map (i, ·)) = eventsOf j log ++ l' := by
  by_cases h : i = j
  · subst h
    exact ⟨evs, eventsOf_same ..⟩
  · exact ⟨[], by rw [eventsOf_other h, List.append_nil]⟩

theorem traced_step {σ : World Act St} {i : Nat} {evs : List Act} {s' : St} {r : Request} (hi : requests[i]? = some r)
    (h : Obeys T sha256 r (eventsOf i σ.log) σ.store evs s') (ht : Traced T sha256 requests σ) :
    Traced T sha256 requests ⟨s', σ.log ++ evs.map (i, ·)⟩ := by
  have hnew {j : Nat} {e : Act} (he : (j, e) ∈ σ.log ++ evs.map (i, ·)) : (j, e) ∈ σ.log ∨ j = i ∧ e ∈ evs := by
    refine (List.mem_append.1 he).imp_right fun he => ?_
    obtain ⟨e', he', heq⟩ := List.mem_map.1 he
    obtain ⟨rfl, rfl⟩ := Prod.mk.inj heq
    exact ⟨rfl, he'⟩
  have hadd {e : Act} (he : e ∈ evs) : (i, e) ∈ σ.log ++ evs.map (i, ·) := List.mem_append_right _ (List.mem_map_of_mem he)
  refine ⟨fun sid rights ha => ?_, fun sid code hc => ?_, fun j sid rights hj => ?_, fun j sid code hj => ?_,
    fun j id rights hj => ?_, fun j sid rights hj => ?_, fun j sid path hj => ?_⟩
  · rcases h.access sid rights ha with ha | hg
    · exact (ht.access sid rights ha).imp fun j hj => List.mem_append_left _ hj
    · exact ⟨i, hadd hg⟩
  · rcases h.code sid code hc with hc | hd
    · exact (ht.code sid code hc).imp fun j hj => List.mem_append_left _ hj
    · exact ⟨i, hadd hd⟩
  · rcases hnew hj with hj | ⟨-, hj⟩
    · exact (ht.sawAccess j sid rights hj).imp fun j hj => List.mem_append_left _ hj
    · exact (ht.access sid rights (h.sawAccess sid rights hj)).imp fun j hj => List.mem_append_left _ hj
  · rcases hnew hj with hj | ⟨-, hj⟩
    · exact (ht.sawCode j sid code hj).imp fun j hj => List.mem_append_left _ hj
    · exact (ht.code sid code (h.sawCode sid code hj)).imp fun j hj => List.mem_append_left _ hj
  · rcases hnew hj with hj | ⟨-, hj⟩
    · exact ht.rights j id rights hj
    · exact h.rights id rights hj
  · obtain ⟨l', hl'⟩ := eventsOf_extends i j σ.log evs
    rcases hnew hj with hj | ⟨rfl, hev⟩
    · obtain ⟨r', id, hr', hlogin⟩ := ht.granted j sid rights hj
      exact ⟨r', id, hr', hl' ▸ hlogin.more l'⟩
    · obtain ⟨id, hlogin⟩ := h.granted sid rights hev
      exact ⟨r, id, hi, hl' ▸ hlogin.more l'⟩
  · rcases hnew hj with hj | ⟨rfl, hev⟩
    · exact (ht.entered j sid path hj).imp fun rights h => h.imp_left fun h => List.mem_append_left _ h
    · obtain ⟨rights, hsaw, hpath⟩ := h.entered sid path hev
      exact ⟨rights, List.mem_append_left _ (mem_eventsOf.1 hsaw), hpath⟩

theorem sealed_init : Sealed T (init T sha256) where
  admin := by simp [init, Agents.init]
  adminType := by simp [init, Agents.init]
  types id t hid ht := by simp [init, Agents.init, Agents.blank, Function.update_of_ne hid] at ht
  rights id hid url hurl := by
    have hid : id ≠ "1" := fun h => hid (.inl h)
    simp [init, Rights.key_access_inj, hid] at hurl

theorem traced_init : Traced T sha256 requests ⟨init T sha256, []⟩ where
  access sid rights h := by simp [accessOf, init] at h
  code sid code h := by simp [codeOf, init] at h
  sawAccess _ _ _ h := nomatch h
  sawCode _ _ _ h := nomatch h
  rights _ _ _ h := nomatch h
  granted _ _ _ h := nomatch h
  entered _ _ _ h := nomatch h

/-- What request `i` may do. -/
def Each (T : AccessModule) (sha256 : String → String) (requests : List Request) (i : Nat) : Rule Act St :=
  fun l s evs s' => ∃ r, requests[i]? = some r ∧ Obeys T sha256 r l s evs s'

theorem reach_traced {c : Conf Act Err Cmd St Reply} (hr : Reach noGuard (arrive T sha256 depth requests) c) :
    Sealed T c.world.store ∧ Traced T sha256 requests c.world := by
  refine reach_each (I := Sealed T) (R := Each T sha256 requests) (Q := fun _ _ _ => True)
    (J := fun σ => Sealed T σ.store ∧ Traced T sha256 requests σ) ?_ ?_ hr ⟨sealed_init, fun i p hp => ?_⟩ ⟨sealed_init, traced_init⟩
  · rintro i l s evs s' - ⟨r, -, h⟩
    exact h.closed
  · rintro σ i evs s' - ⟨r, hi, h⟩ ⟨-, ht⟩
    exact ⟨h.closed, traced_step hi h ht⟩
  · obtain ⟨r, hi, rfl⟩ : ∃ r, requests[i]? = some r ∧ r.handler T sha256 depth = p := by
      simpa [arrive, List.getElem?_map] using hp
    exact (keeps_request depth r).rule_mono fun l s evs s' h => ⟨r, hi, h⟩

/-- The request that the guard let through to `path` on `sid` follows a login `j` on that session, with the code that
`k` drew for it: the login found the password of the agent `id`, who was not frozen, and read rights with the path. -/
structure LetIn (sha256 : String → String) (requests : List Request) (log : List (Nat × Act)) (sid path id : String) : Prop where
  login : ∃ j k cookie fresh form remote_addr now code account rights,
    requests[j]? = some (.login cookie fresh form remote_addr now) ∧
    (k, .drew sid code) ∈ log ∧ upper form.code = upper code ∧
    (j, .looked form.account account) ∈ log ∧ id = fmt account ∧
    (j, .record id (some (sha256 form.passwd)) (some "1")) ∈ log ∧
    (j, .rights id rights) ∈ log ∧ (j, .granted sid rights) ∈ log ∧ path ∈ rights

theorem Traced.letIn {σ : World Act St} (ht : Traced T sha256 requests σ) {i : Nat} {sid path : String}
    (he : (i, .entered sid path) ∈ σ.log) :
    ∃ id, LetIn sha256 requests σ.log sid path id ∧ (¬Foremost id → Below T path) := by
  obtain ⟨rights, hsaw, hpath⟩ := ht.entered i sid path he
  obtain ⟨j, hgranted⟩ := ht.sawAccess i sid rights hsaw
  obtain ⟨r, id, hr, ⟨cookie, fresh, form, remote_addr, now, code, account, rfl, hcode, hupper, hlooked, hid, hrecord⟩, hrights⟩ :=
    ht.granted j sid rights hgranted
  obtain ⟨k, hdrew⟩ := ht.sawCode j sid code (mem_eventsOf.1 hcode)
  refine ⟨id, ⟨j, k, cookie, fresh, form, remote_addr, now, code, account, rights, hr, hdrew, hupper, mem_eventsOf.1 hlooked, hid,
    mem_eventsOf.1 hrecord, mem_eventsOf.1 hrights, hgranted, hpath⟩, fun hne => ?_⟩
  exact ht.rights j id rights (mem_eventsOf.1 hrights) hne path hpath

/-- In every interleaving of any requests, whoever the guard lets through has logged in on that session. -/
theorem entered_logged_in {c : Conf Act Err Cmd St Reply} (hr : Reach noGuard (arrive T sha256 depth requests) c) {i : Nat}
    {sid path : String} (he : (i, .entered sid path) ∈ c.world.log) : ∃ id, LetIn sha256 requests c.world.log sid path id :=
  ((reach_traced hr).2.letIn he).imp fun _ h => h.1

theorem Traced.foremost {σ : World Act St} (ht : Traced T sha256 requests σ) {i : Nat} {sid path : String} (hbelow : ¬Below T path)
    (he : (i, .entered sid path) ∈ σ.log) : ∃ id, Foremost id ∧ LetIn sha256 requests σ.log sid path id := by
  obtain ⟨id, hlet, hid⟩ := ht.letIn he
  by_cases h : Foremost id
  · exact ⟨id, h, hlet⟩
  · exact absurd (hid h) hbelow

/-- In every interleaving of any requests, creations of agents by anybody among them, there is one administrator, and
what is no right below him is entered with his password only, or with that of an agent who was given the id `1:ban`. -/
theorem administrator_only {c : Conf Act Err Cmd St Reply} (hr : Reach noGuard (arrive T sha256 depth requests) c) :
    Sealed T c.world.store ∧ ∀ i sid path, ¬Below T path → (i, .entered sid path) ∈ c.world.log →
      ∃ id, Foremost id ∧ LetIn sha256 requests c.world.log sid path id := by
  obtain ⟨hsealed, htraced⟩ := reach_traced hr
  exact ⟨hsealed, fun i sid path hbelow he => htraced.foremost hbelow he⟩

/-- With the tables as they stand: the cards of a member, the switches of an agent and the settings. -/
theorem switches_foremost {c : Conf Act Err Cmd St Reply} (hr : Reach noGuard (arrive accessModule sha256 depth requests) c)
    {path : String} (hpath : path ∈ ["/admin/member/addCard", "/admin/agent/recharge", "/admin/agent/auto_check",
      "/admin/agent/create_auth", "/admin/setting/system", "/admin/setting/fish/system"])
    {i : Nat} {sid : String} (he : (i, .entered sid path) ∈ c.world.log) :
    ∃ id, Foremost id ∧ LetIn sha256 requests c.world.log sid path id := by
  have hbelow : ∀ url ∈ ["/admin/member/addCard", "/admin/agent/recharge", "/admin/agent/auto_check",
      "/admin/agent/create_auth", "/admin/setting/system", "/admin/setting/fish/system"], ¬Below accessModule url := by
    decide +kernel
  exact (reach_traced hr).2.foremost (hbelow path hpath) he

end Pool

/-! ## A run -/

/-- The administrator may modify and switch agents, a company may look at them, freeze them and see what they are. -/
def demoModule : AccessModule where
  menuModules := [.get "agent" "list" ""]
  fishMenuModules := []
  accessSadminModules := [.get "agent" "list" ""]
  accessCompanyModules := [.get "agent" "list" ""]
  accessAgOneClassModules := []
  accessAgTwoClassModules := []
  accessSadminList := [.get "agent" "create_auth" "", .get "agent" "modify" ""]
  accessCompanyList := [.get "agent" "list" "", .get "agent" "freeze" "", .get "agent" "info" ""]
  accessAgOneClassList := []
  accessAgTwoClassList := []

/-- A picture, a login with its code, and a request to a path that only the administrator has. -/
def demoRequests : List Request :=
  [.vcode .absent "s" "ab", .login (.uuid "s") "t" ⟨"sysadmin", "sysadmin", "AB"⟩ "" "",
    .page "/admin/agent/create_auth" (.uuid "s") "u"]

def demoStart : Conf Act Err Cmd St Reply := arrive demoModule (fun p => p) 0 demoRequests

def demoTurns : List Nat := 0 :: List.replicate 20 1 ++ List.replicate 5 2

theorem demo_entered : (2, .entered "s" "/admin/agent/create_auth") ∈ (turns demoTurns demoStart).world.log := by
  decide

theorem demo_below : ¬Below demoModule "/admin/agent/create_auth" := by decide

theorem entered_logged_in_administrator :
    ∃ id, LetIn (fun p => p) demoRequests (turns demoTurns demoStart).world.log "s" "/admin/agent/create_auth" id :=
  entered_logged_in (reach_turns (allowed_noGuard demoTurns demoStart)) demo_entered

theorem administrator_only_demo :
    ∃ id, Foremost id ∧ LetIn (fun p => p) demoRequests (turns demoTurns demoStart).world.log "s" "/admin/agent/create_auth" id :=
  (administrator_only (reach_turns (allowed_noGuard demoTurns demoStart))).2 2 _ _ demo_below demo_entered

/-- An agent `1:ban` is made, the administrator logs in, and so does the agent. While he does, a form about the
administrator that ticks nothing is sent, and the agent opens what it listed. -/
def banRequests : List Request :=
  [.create .absent "c" (fun _ => ⟨0, Nat.succ_pos _⟩) (some 1) ⟨"ban", "ban", "ban", "", "", "", "", "1:ban"⟩ fun _ => true,
    .vcode .absent "s" "ab", .login (.uuid "s") "t" ⟨"sysadmin", "sysadmin", "ab"⟩ "" "",
    .vcode .absent "t" "ab", .login (.uuid "t") "u" ⟨"ban", "ban", "ab"⟩ "" "",
    .modify (.uuid "s") "u" ⟨"1", "sysadmin", "", "", "", "", ""⟩ fun _ => false,
    .page "/admin/agent/create_auth" (.uuid "t") "u"]

/-- The form comes between what the login takes from his rights and what it reads of them. -/
def banTurns : List Nat :=
  List.replicate 8 0 ++ [1] ++ List.replicate 21 2 ++ [3] ++ List.replicate 20 4 ++ List.replicate 9 5 ++ [4, 4] ++
    List.replicate 5 6

/-- The administrator is on the session `s` only. -/
example : (6, .entered "t" "/admin/agent/create_auth") ∈
    (turns banTurns (arrive demoModule (fun p => p) 9 banRequests)).world.log := by decide +kernel

end FishWeb.Admin
