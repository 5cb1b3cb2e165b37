import FishWeb.Admin.Guard
import FishWeb.Lib.Runs
/-!
# What a form about an agent gives him

Requests one after another. The last form about an agent that was accepted, the one that
created him or one that modified him, decides his rights: at his next login they are all
that his role may open, less what that form lists and leaves unticked. What was stored of
his rights before, and what was banned by earlier forms, does not matter.
-/
open Python Prog

namespace FishWeb.Admin

open Function (update)

/-! ## Parts of the store -/

theorem part_agents : Part (C := Agents.Cmd) (D := Cmd) (fun _ => Cmd.agents) St.agents fun s a => { s with agents := a } where
  exec _ _ _ := rfl
  view_put _ _ := rfl
  put_put _ _ _ := rfl
  put_view _ := rfl

theorem run_agents {α : Type} (p : Agents.Handler α) (s : St) :
    run (agents p) s = ((run p s.agents).1, { s with agents := (run p s.agents).2 }) := run_lift part_agents p s

/-- A program that only reads the records. -/
theorem run_agents_read {α : Type} {p : Agents.Handler α} {r : Except Err α} {s : St} (h : run p s.agents = (r, s.agents)) :
    run (agents p) s = (r, s) := by
  rw [run_agents, h]

theorem run_getSession (cookie : Cookie) (fresh : String) (s : St) : ∃ r, run (getSession cookie fresh) s = (r, s) := by
  cases cookie with
  | absent | malformed => exact ⟨_, rfl⟩
  | uuid sid =>
    show ∃ r, run (if (s.session sid).isSome then (Prog.ret sid : Handler String) else Prog.ret fresh) s = (r, s)
    split <;> exact ⟨_, rfl⟩

/-! ## Rights -/

/-- The loops over urls change the set of one key. -/
abbrev Table := String → MemberSet String

/-- What is banned of an agent. -/
def St.banned (s : St) (agentId : String) : MemberSet String := s.rights (Rights.ban.key agentId)

section Rights
variable {T : AccessModule}

def withRights (s : St) (t : Table) : St := { s with rights := t }

@[simp] theorem withRights_self (s : St) : withRights s s.rights = s := rfl

@[simp] theorem withRights_rights (s : St) (t : Table) : (withRights s t).rights = t := rfl

@[simp] theorem withRights_twice (s : St) (t t' : Table) : withRights (withRights s t) t' = withRights s t' := rfl

/-- A loop that changes the rights, a round for each url. -/
theorem run_forEach_rights {ι : Type} {body : ι → Handler Unit} {f : Table → ι → Table}
    (h : ∀ i s, run (body i) s = (.ok (), withRights s (f s.rights i))) (l : List ι) (s : St) :
    run (forEach l body) s = (.ok (), withRights s (l.foldl f s.rights)) := by
  induction l generalizing s with
  | nil => rfl
  | cons i l ih => rw [forEach_cons, run_bind_ok (h i s), ih, withRights_rights, withRights_twice, List.foldl_cons]

theorem mem_foldl_add {ι : Type} {g : ι → String} {l : List ι} {t : Table} {key key' url : String} :
    url ∈ l.foldl (fun t i => SetTable.add t key (g i)) t key' ↔ (key' = key ∧ url ∈ l.map g) ∨ url ∈ t key' := by
  induction l generalizing t with
  | nil => simp
  | cons i l ih =>
    rw [List.foldl_cons, ih, SetTable.mem_add, List.map_cons, List.mem_cons]
    tauto

/-- A loop that changes the set of one key leaves the others. -/
theorem foldl_other {ι : Type} {f : Table → ι → Table} {key : String} (h : ∀ t i, f t i key = t key) (l : List ι) (t : Table) :
    l.foldl f t key = t key := by
  induction l generalizing t with
  | nil => rfl
  | cons i l ih => rw [List.foldl_cons, ih, h]

/-- What the form about a new agent bans of one url. -/
def banOne (ticked : String → Bool) (key : String) (t : Table) (url : String) : Table :=
  if ticked url then t else SetTable.add t key url

/-- What the form about an agent there is bans of one url. -/
def remarkOne (ticked : String → Bool) (key : String) (t : Table) (url : String) : Table :=
  if ticked url then SetTable.remove t key url else SetTable.add t key url

theorem mem_banOne {ticked : String → Bool} {l : List String} {t : Table} {key key' url : String} :
    url ∈ l.foldl (banOne ticked key) t key' ↔ (key' = key ∧ url ∈ l ∧ ticked url = false) ∨ url ∈ t key' := by
  induction l generalizing t with
  | nil => simp
  | cons u l ih =>
    rw [List.foldl_cons, ih, banOne]
    by_cases hu : ticked u
    · rw [if_pos hu, List.mem_cons]
      have : url = u → ticked url = true := fun h => h ▸ hu
      simp only [← Bool.not_eq_true]
      tauto
    · rw [if_neg hu, SetTable.mem_add, List.mem_cons]
      have : url = u → ticked url = false := fun h => h ▸ Bool.eq_false_iff.2 hu
      tauto

theorem mem_remarkOne {ticked : String → Bool} {l : List String} {t : Table} {key key' url : String} :
    url ∈ l.foldl (remarkOne ticked key) t key' ↔
      if key' = key ∧ url ∈ l then ticked url = false else url ∈ t key' := by
  induction l generalizing t with
  | nil => simp
  | cons u l ih =>
    rw [List.foldl_cons, ih]
    by_cases hin : key' = key ∧ url ∈ l
    · rw [if_pos hin, if_pos ⟨hin.1, List.mem_cons_of_mem u hin.2⟩]
    · rw [if_neg hin, remarkOne]
      by_cases hu : key' = key ∧ url = u
      · obtain ⟨rfl, rfl⟩ := hu
        have hhead : key' = key' ∧ url ∈ url :: l := ⟨rfl, List.mem_cons_self⟩
        rw [if_pos hhead]
        cases ticked url <;> simp [SetTable.mem_add, SetTable.mem_remove]
      · have hin' : ¬(key' = key ∧ url ∈ u :: l) := by
          rw [List.mem_cons]
          tauto
        rw [if_neg hin']
        split
        · simp [SetTable.mem_remove, hu]
        · simp [SetTable.mem_add, hu]

theorem run_setAgentAccess {agentType : String} {menu : List AccessObj} (h : T.access agentType = some menu) (agentId : String) (s : St) :
    ∃ t : Table, run (setAgentAccess T agentType agentId) s = (.ok (), withRights s t) ∧
      ∀ key, key ≠ Rights.access.key agentId → t key = s.rights key := by
  rw [setAgentAccess, h]
  refine ⟨_, run_forEach_rights (f := fun t o => SetTable.add t (Rights.access.key agentId) o.url) (fun _ _ => rfl) menu s, ?_⟩
  exact fun key hkey => foldl_other (fun t o => SetTable.add_other t _ key o.url hkey) menu s.rights

theorem run_banAgentAccess {agentType : String} {form : List String} (h : T.getAgentNewListAccessUrl agentType = some form)
    (ticked : String → Bool) (agentId : String) (s : St) :
    run (banAgentAccess T ticked agentType agentId) s =
      (.ok (), withRights s (form.foldl (banOne ticked (Rights.ban.key agentId)) s.rights)) := by
  rw [banAgentAccess, h]
  refine run_forEach_rights (fun url s => ?_) form s
  unfold banOne
  cases ticked url <;> rfl

theorem run_banAgentAccessModify {agentType : String} {form : List String} (h : T.getAgentNewListAccessUrl agentType = some form)
    (ticked : String → Bool) (agentId : String) (s : St) :
    run (banAgentAccessModify T ticked agentType agentId) s =
      (.ok (), withRights s (form.foldl (remarkOne ticked (Rights.ban.key agentId)) s.rights)) := by
  rw [banAgentAccessModify, h]
  refine run_forEach_rights (fun url s => ?_) form s
  unfold remarkOne
  cases ticked url <;> rfl

theorem run_smembers (r : Rights) (agentId : String) (s : St) :
    run (send (.smembers r agentId)) s = (.ok (s.rights (r.key agentId)).members, s) := rfl

/-- `if urls: redis.srem(table, *urls)`, and what follows. -/
theorem run_srem_if (r : Rights) (agentId : String) (l : List String) (f : Unit → Handler Unit) (s : St) :
    run (if l ≠ [] then send (.srem r agentId l) >>= f else f ()) s =
      run (f ()) (withRights s (l.foldl (fun t u => SetTable.remove t (r.key agentId) u) s.rights)) := by
  cases l with
  | nil =>
    rw [if_neg (not_not.2 rfl), List.foldl_nil, withRights_self]
  | cons u l =>
    rw [if_pos (List.cons_ne_nil u l)]
    rfl

/-- What an agent may open is not where what is banned of him is. -/
theorem ban_ne_access (id : String) : Rights.ban.key id ≠ Rights.access.key id := by
  intro h
  have hlen := congrArg String.length (Rights.key_access_eq_ban.1 h.symm)
  rw [String.length_append] at hlen
  have hlong : ":ban".length = 4 := rfl
  omega

/-- After `getNewAccess` the rights are those of the role that are not banned, whatever they were. -/
theorem run_getNewAccess {agentId t : String} {menu : List AccessObj} {s : St} (ht : (s.agents.rate.agent agentId).type = some t)
    (hmenu : T.access t = some menu) : ∃ table : Table, run (getNewAccess T agentId) s = (.ok (), withRights s table) ∧
      (∀ u, u ∈ table (Rights.access.key agentId) ↔ u ∈ urls menu ∧ u ∉ s.banned agentId) ∧
      table (Rights.ban.key agentId) = s.banned agentId := by
  let key := Rights.access.key agentId
  let added := menu.foldl (fun t o => SetTable.add t key o.url) s.rights
  let stale := (added key).members.filter fun url => url ∉ urls menu
  let fresh := stale.foldl (fun t u => SetTable.remove t key u) added
  let ban := (s.banned agentId).members
  have hother : Rights.ban.key agentId ≠ key := ban_ne_access agentId
  have hremove (l : List String) (t : Table) :
      l.foldl (fun t u => SetTable.remove t key u) t (Rights.ban.key agentId) = t (Rights.ban.key agentId) :=
    foldl_other (fun t u => SetTable.remove_other t _ _ u hother) l t
  have hfresh : fresh (Rights.ban.key agentId) = s.banned agentId :=
    (hremove stale added).trans (foldl_other (fun t o => SetTable.add_other t _ _ o.url hother) menu s.rights)
  have htype : run (agents (Agents.send (.hgetType agentId))) s = (.ok (some t), s) := by
    rw [← ht]
    rfl
  have hadd : run (forEach menu fun o => send (.sadd .access agentId o.url)) s = (.ok (), withRights s added) :=
    run_forEach_rights (f := fun t o => SetTable.add t key o.url) (fun _ _ => rfl) menu s
  have hmembers : run (send (.smembers .access agentId)) (withRights s added) = (.ok (added key).members, withRights s added) := by
    rw [run_smembers, withRights_rights]
  have hbanned : run (send (.smembers .ban agentId)) (withRights s fresh) = (.ok ban, withRights s fresh) := by
    rw [run_smembers, withRights_rights, hfresh]
  have hrest (s : St) : run (if ban ≠ [] then send (.srem .access agentId ban) else Prog.ret ()) s =
      (.ok (), withRights s (ban.foldl (fun t u => SetTable.remove t key u) s.rights)) :=
    run_srem_if .access agentId ban Prog.ret s
  refine ⟨ban.foldl (fun t u => SetTable.remove t key u) fresh, ?_, fun u => ?_, (hremove ban fresh).trans hfresh⟩
  · unfold getNewAccess
    rw [run_bind_ok htype, Option.bind_some, hmenu, roleOf, orRaise_some, ret_bind, run_bind_ok hadd, run_bind_ok hmembers]
    refine (run_srem_if .access agentId stale _ _).trans ?_
    rw [withRights_rights, withRights_twice, run_bind_ok hbanned]
    exact (hrest _).trans (by rw [withRights_rights, withRights_twice])
  · have hstale : u ∈ stale ↔ u ∈ added key ∧ u ∉ urls menu := by
      rw [List.mem_filter, decide_eq_true_iff]
      rfl
    have hadded : u ∈ urls menu → u ∈ added key := fun hu => mem_foldl_add.2 (.inl ⟨rfl, hu⟩)
    rw [mem_foldl_remove, mem_foldl_remove, hstale]
    show (u ∈ added key ∧ ¬(key = key ∧ u ∈ added key ∧ u ∉ urls menu)) ∧ ¬(key = key ∧ u ∈ s.banned agentId) ↔ _
    tauto

/-- A role that the tables lack. -/
theorem run_getNewAccess_error {agentId : String} {s : St} (h : (s.agents.rate.agent agentId).type.bind T.access = none) :
    run (getNewAccess T agentId) s = (.error .KeyError, s) := by
  have htype : run (agents (Agents.send (.hgetType agentId))) s = (.ok (s.agents.rate.agent agentId).type, s) := rfl
  unfold getNewAccess
  rw [run_bind_ok htype, h]
  rfl

end Rights

/-! ## A login -/

section Login
variable {T : AccessModule} {sha256 : String → String}

/-- The session is that of the agent `id`, who has logged in, with the rights of his role that are not banned. -/
structure Entitled (T : AccessModule) (s : St) (sid account agentId : String) : Prop where
  account : (s.session sid).bind (fun x => x.text .account) = some account
  id : (s.session sid).bind (fun x => x.text .id) = some agentId
  rights : ∃ t menu l, (s.agents.rate.agent agentId).type = some t ∧ T.access t = some menu ∧ accessOf s sid = some l ∧
    ∀ u, u ∈ l ↔ u ∈ urls menu ∧ u ∉ s.banned agentId

theorem text_setAccess (s : St) (sid : String) (f : Field) (l : List String) :
    ((setAccess s sid l).session sid).bind (fun x => x.text f) = (s.session sid).bind fun x => x.text f := by
  unfold setAccess
  cases hx : s.session sid <;> simp

/-- The store in which a login works out the rights. -/
theorem run_logIn_start (sid remote_addr now : String) (form : LoginForm) (agentId type : Option String) (s : St) :
    ∃ s₁ : St, s₁.agents = s.agents ∧ s₁.banned (fmt agentId) = s.banned (fmt agentId) ∧
      (s₁.session sid).bind (fun x => x.text .account) = some form.account ∧
      (s₁.session sid).bind (fun x => x.text .id) = some (fmt agentId) ∧
      run (logIn T sid form agentId type remote_addr now) s = run (getNewAccess T (fmt agentId) >>= fun _ => do
        let access ← send (.smembers .access (fmt agentId))
        send (.hsetAccess sid access)
        return Reply.redirect "/admin/FISH") s₁ := by
  let id := fmt agentId
  let last (s : St) : St := setText (setText (setText s sid .lastLoginIp (fmt (s.down.agent id "lastLoginIp")))
    sid .lastLoginDate (fmt (s.down.agent id "lastLoginDate"))) sid .type (fmt (s.agents.rate.agent id).type)
  let stamped (s : St) : St :=
    (Exec.exec (Own.execute [] [.hset ⟨id, "lastLoginIp", remote_addr⟩, .hset ⟨id, "lastLoginDate", now⟩]) (last s)).2
  have haccount (s : St) :
      ((setText (setText s sid .account form.account) sid .id id).session sid).bind (fun x => x.text .account) =
        some form.account := by
    rw [text_setText, if_neg (fun h => nomatch h.2), text_setText, if_pos ⟨rfl, rfl⟩]
  have hid (s : St) :
      ((setText (setText s sid .account form.account) sid .id id).session sid).bind (fun x => x.text .id) = some id := by
    rw [text_setText, if_pos ⟨rfl, rfl⟩]
  unfold logIn
  dsimp only
  split
  · have hban : SetTable.add s.rights (Rights.access.key id) OPEN_AUTH (Rights.ban.key id) = s.rights (Rights.ban.key id) :=
      SetTable.add_other _ _ _ _ (ban_ne_access id)
    exact ⟨setText (setText (stamped (Exec.exec (Own.sadd .access id OPEN_AUTH) s).2) sid .account form.account) sid .id id,
      rfl, hban, haccount _, hid _, rfl⟩
  · exact ⟨setText (setText (stamped s) sid .account form.account) sid .id id, rfl, rfl, haccount _, hid _, rfl⟩

theorem run_logIn {sid remote_addr now url : String} {form : LoginForm} {agentId type : Option String} {s s' : St}
    (h : run (logIn T sid form agentId type remote_addr now) s = (.ok (.redirect url), s')) :
    s'.agents = s.agents ∧ s'.banned (fmt agentId) = s.banned (fmt agentId) ∧ Entitled T s' sid form.account (fmt agentId) := by
  obtain ⟨s₁, hagents, hban, haccount, hid, hrun⟩ := run_logIn_start (T := T) sid remote_addr now form agentId type s
  rw [hrun] at h
  cases htype : (s₁.agents.rate.agent (fmt agentId)).type.bind T.access with
  | none =>
    rw [run_bind_error (run_getNewAccess_error htype)] at h
    cases (Prod.mk.inj h).1
  | some menu =>
    obtain ⟨t, ht, hmenu⟩ := Option.bind_eq_some_iff.1 htype
    obtain ⟨table, hnew, htable, hkept⟩ := run_getNewAccess ht hmenu
    rw [run_bind_ok hnew, run_bind_ok (run_smembers .access (fmt agentId) _), withRights_rights] at h
    obtain ⟨-, rfl⟩ := Prod.mk.inj h
    refine ⟨hagents, hkept.trans hban, ?_, ?_, t, menu, (table (Rights.access.key (fmt agentId))).members, ht, hmenu, ?_, fun u => ?_⟩
    · exact (text_setAccess _ sid .account _).trans haccount
    · exact (text_setAccess _ sid .id _).trans hid
    · exact (access_setAccess _ sid sid _).trans (if_pos rfl)
    · show _ ↔ _ ∧ u ∉ table (Rights.ban.key (fmt agentId))
      rw [hkept]
      exact htable u

/-- A login that succeeds. -/
theorem run_doLogin {cookie : Cookie} {fresh remote_addr now url : String} {form : LoginForm} {s s' : St}
    (h : run (doLogin T sha256 cookie fresh form remote_addr now) s = (.ok (.redirect url), s')) :
    let id := fmt (s.agents.account form.account)
    s'.agents = s.agents ∧ s'.banned id = s.banned id ∧ ∃ sid, Entitled T s' sid form.account id := by
  dsimp only
  unfold doLogin at h
  obtain ⟨r, hsession⟩ := run_getSession cookie fresh s
  cases r with
  | error e => rw [run_bind_error hsession] at h; cases (Prod.mk.inj h).1
  | ok sid =>
  rw [run_bind_ok hsession] at h
  split at h
  · cases (Prod.mk.inj h).1
  have hcode : run (send (.hget sid .maj_vcode)) s = (.ok (codeOf s sid), s) := rfl
  rw [run_bind_ok hcode] at h
  cases hdrawn : codeOf s sid with
  | none => rw [hdrawn] at h; cases (Prod.mk.inj h).1
  | some code =>
  rw [hdrawn] at h
  dsimp only at h
  split at h
  · cases (Prod.mk.inj h).1
  have haccount : run (send (.getAgentId form.account)) s = (.ok (s.agents.account form.account), s) := rfl
  rw [run_bind_ok haccount] at h
  generalize s.agents.account form.account = agentId at h
  have hexists : run (agents (Agents.send (.existsAgent (fmt agentId)))) s = (.ok (s.agents.detail (fmt agentId)).isSome, s) := rfl
  rw [run_bind_ok hexists] at h
  split at h
  · cases (Prod.mk.inj h).1
  have hrecord : run (send (.hmgetLogin (fmt agentId))) s = (.ok (s.down.agent (fmt agentId) "passwd",
      s.down.agent (fmt agentId) "valid", (s.agents.rate.agent (fmt agentId)).type), s) := rfl
  rw [run_bind_ok hrecord] at h
  dsimp only at h
  split at h
  · cases (Prod.mk.inj h).1
  split at h
  · cases (Prod.mk.inj h).1
  obtain ⟨hagents, hban, hentitled⟩ := run_logIn h
  exact ⟨hagents, hban, sid, hentitled⟩

end Login

/-! ## What the other requests leave -/

section Steady
variable {T : AccessModule} {sha256 : String → String}

/-- A command that changes neither the records nor what is banned, other than where the rights of the `known` are. -/
def SteadyOwn (known : String → Prop) ⦃β : Type⦄ : Own β → Prop
  | .sadd .ban _ _ => False
  | .srem .ban _ _ => False
  | .sadd .access agentId _ => known agentId
  | .srem .access agentId _ => known agentId
  | .execute pipe _ => pipe = []
  | _ => True

def SteadyRecord ⦃β : Type⦄ : Agents.Own β → Prop
  | .execute _ => False
  | .saddId _ => False
  | _ => True

def Steady (known : String → Prop) ⦃β : Type⦄ : Cmd β → Prop
  | .own c => SteadyOwn known c
  | .agents (.own c) => SteadyRecord c
  | .agents (.rate _) => False
  | .down _ => True

/-- The records are as they were, and what is banned where no agent has the rights at its key. -/
structure Same (s s' : St) : Prop where
  agent : s'.agents.rate.agent = s.agents.rate.agent
  detail : s'.agents.detail = s.agents.detail
  ids : ∀ id ∈ s.agents.ids, id ∈ s'.agents.ids
  ban : ∀ id, s.agents.detail (id ++ ":ban") = none → s'.banned id = s.banned id

theorem Same.refl (s : St) : Same s s := ⟨rfl, rfl, fun _ h => h, fun _ _ => rfl⟩

variable {known : String → Prop}

theorem steady_exec ⦃β : Type⦄ (c : Cmd β) (s : St) (hc : Steady known c) :
    (Exec.exec c s).2.agents = s.agents ∧ ∀ id, ¬known (id ++ ":ban") → (Exec.exec c s).2.banned id = s.banned id := by
  have hother {agentId id : String} (hknown : known agentId) (hid : ¬known (id ++ ":ban")) :
      Rights.ban.key id ≠ Rights.access.key agentId := by
    intro h
    rw [Rights.key_access_eq_ban.1 h.symm] at hknown
    exact hid hknown
  cases c with
  | down c => exact ⟨rfl, fun _ _ => rfl⟩
  | agents c =>
    cases c with
    | rate _ => exact hc.elim
    | own c =>
      cases c with
      | execute _ | saddId _ => exact hc.elim
      | hmgetParent _ | hgetType _ | existsAgent _ | existsAccount _ => exact ⟨rfl, fun _ _ => rfl⟩
  | own c =>
    cases c with
    | execute pipe own =>
      obtain rfl : pipe = [] := hc
      obtain ⟨down, hdown⟩ := foldl_write own s
      have hs : (Exec.exec (Cmd.own (.execute [] own)) s).2 = { s with down := down } := hdown
      rw [hs]
      exact ⟨rfl, fun _ _ => rfl⟩
    | sadd r agentId url =>
      cases r with
      | ban => exact hc.elim
      | access => exact ⟨rfl, fun id hid => SetTable.add_other _ _ _ url (hother hc hid)⟩
    | srem r agentId l =>
      cases r with
      | ban => exact hc.elim
      | access => exact ⟨rfl, fun id hid => foldl_other (fun t u => SetTable.remove_other t _ _ u (hother hc hid)) l s.rights⟩
    | _ => exact ⟨rfl, fun _ _ => rfl⟩

theorem Same.of_steady {s : St} {p : Handler Reply} (hp : Only (Steady fun id => s.agents.detail id ≠ none) p) :
    Same s (run p s).2 := by
  have h : (run p s).2.agents = s.agents ∧ ∀ id, ¬s.agents.detail (id ++ ":ban") ≠ none → (run p s).2.banned id = s.banned id :=
    hp.run_inv (I := fun s' => s'.agents = s.agents ∧ ∀ id, ¬s.agents.detail (id ++ ":ban") ≠ none → s'.banned id = s.banned id)
      (fun _ c s' hc hs => ⟨(steady_exec c s' hc).1.trans hs.1,
        fun id hid => ((steady_exec c s' hc).2 id hid).trans (hs.2 id hid)⟩) ⟨rfl, fun _ _ => rfl⟩
  obtain ⟨hagents, hban⟩ := h
  exact ⟨by rw [hagents], by rw [hagents], by rw [hagents]; exact fun _ h => h, fun id hid => hban id (not_not.2 hid)⟩

theorem steady_send {β : Type} {c : Own β} (hc : SteadyOwn known c) : Only (Steady known) (send c) := ⟨hc, fun _ => trivial⟩

theorem steady_getSession (cookie : Cookie) (fresh : String) : Only (Steady known) (getSession cookie fresh) := by
  cases cookie with
  | absent | malformed => trivial
  | uuid sid =>
    refine only_bind _ (steady_send trivial) fun known => ?_
    split <;> trivial

theorem steady_getNewAccess {agentId : String} (hid : known agentId) : Only (Steady known) (getNewAccess T agentId) := by
  unfold getNewAccess
  have hban : Only (Steady known) (do
      let accessBan ← send (.smembers .ban agentId)
      if accessBan ≠ [] then send (.srem .access agentId accessBan)) :=
    only_bind _ (steady_send trivial) fun _ => (only_ite ..).2 ⟨fun _ => steady_send hid, fun _ => trivial⟩
  refine only_bind _ (only_lift ⟨trivial, fun _ => trivial⟩) fun aType => (only_orRaise_bind ..).2 fun menu _ => ?_
  refine only_bind _ (only_forEach _ fun o _ => steady_send hid) fun _ => only_bind _ (steady_send trivial) fun s2 => ?_
  exact (only_ite ..).2 ⟨fun _ => only_bind _ (steady_send hid) fun _ => hban, fun _ => hban⟩

theorem steady_logIn (sid : String) (form : LoginForm) {agentId : Option String} (type : Option String) (remote_addr now : String)
    (hid : known (fmt agentId)) : Only (Steady known) (logIn T sid form agentId type remote_addr now) := by
  have hmain : Only (Steady known) (fillSession T sid form (fmt agentId) remote_addr now) := by
    refine only_bind _ (steady_send trivial) fun last => only_bind _ (steady_send trivial) fun _ => ?_
    refine only_bind _ (steady_send trivial) fun _ => only_bind _ (steady_send trivial) fun _ => ?_
    refine only_bind _ (steady_send rfl) fun _ => only_bind _ (steady_send trivial) fun _ => ?_
    refine only_bind _ (steady_send trivial) fun _ => only_bind _ (steady_getNewAccess hid) fun _ => ?_
    exact only_bind _ (steady_send trivial) fun _ => only_bind _ (steady_send trivial) fun _ => trivial
  unfold logIn
  dsimp only
  split
  · exact only_bind _ (steady_send hid) fun _ => hmain
  · exact hmain

/-- Whoever logs in is an agent there is. -/
theorem same_doLogin (cookie : Cookie) (fresh : String) (form : LoginForm) (remote_addr now : String) (s : St) :
    Same s (run (doLogin T sha256 cookie fresh form remote_addr now) s).2 := by
  unfold doLogin
  obtain ⟨r, hsession⟩ := run_getSession cookie fresh s
  cases r with
  | error e =>
    rw [run_bind_error hsession]
    exact Same.refl s
  | ok sid =>
  rw [run_bind_ok hsession]
  split
  · exact Same.refl s
  have hcode : run (send (.hget sid .maj_vcode)) s = (.ok (codeOf s sid), s) := rfl
  rw [run_bind_ok hcode]
  cases codeOf s sid with
  | none => exact Same.refl s
  | some code =>
  dsimp only
  split
  · exact Same.refl s
  have haccount : run (send (.getAgentId form.account)) s = (.ok (s.agents.account form.account), s) := rfl
  rw [run_bind_ok haccount]
  generalize s.agents.account form.account = agentId
  have hexists : run (agents (Agents.send (.existsAgent (fmt agentId)))) s = (.ok (s.agents.detail (fmt agentId)).isSome, s) := rfl
  rw [run_bind_ok hexists]
  split
  · exact Same.refl s
  next hknown =>
  have hid : s.agents.detail (fmt agentId) ≠ none := by
    intro hnone
    rw [hnone] at hknown
    exact hknown rfl
  refine Same.of_steady (only_bind _ (steady_send trivial) fun ⟨adminPasswd, valid, type⟩ => ?_)
  dsimp only
  split
  · trivial
  split
  · trivial
  · exact steady_logIn sid form type remote_addr now hid

theorem steady_doAgFreeze (agentId : String) : Only (Steady known) (doAgFreeze agentId) := by
  unfold doAgFreeze
  refine only_bind _ (only_lift ⟨trivial, fun _ => trivial⟩) fun known => ?_
  split
  · trivial
  refine only_bind _ (steady_send trivial) fun valid => ?_
  split
  · exact only_bind _ (only_lift (only_any _)) fun _ => trivial
  · exact only_bind _ (steady_send rfl) fun _ => trivial

theorem steady_doModifyPasswd (cookie : Cookie) (fresh : String) (form : PasswdForm) :
    Only (Steady known) (doModifyPasswd sha256 cookie fresh form) := by
  unfold doModifyPasswd
  refine only_bind _ (steady_getSession cookie fresh) fun sid => ?_
  refine only_bind _ (steady_send trivial) fun _ => only_bind _ (steady_send trivial) fun selfUid => ?_
  split
  · trivial
  split
  · trivial
  split
  · trivial
  refine only_bind _ (steady_send trivial) fun passwd => ?_
  split
  · trivial
  · exact only_bind _ (steady_send rfl) fun _ => trivial

end Steady

/-! ## The forms -/

section Forms
variable (T : AccessModule)

/-- A new agent: what his form leaves unticked is banned. -/
structure Made (id : String) (ticked : String → Bool) (s s' : St) : Prop where
  new : s.agents.detail id = none ∨ id ≠ "1" ∧ id ∉ s.agents.ids
  role : ∃ a t form, a.type = some t ∧ s'.agents.rate.agent = update s.agents.rate.agent id a ∧
    T.getAgentNewListAccessUrl t = some form ∧
    ∀ i u, id ≠ i ++ ":ban" → (u ∈ s'.banned i ↔ (i = id ∧ u ∈ form ∧ ticked u = false) ∨ u ∈ s.banned i)
  detail : ∃ d, s'.agents.detail = update s.agents.detail id (some d)
  known : id ∈ s'.agents.ids
  ids : ∀ i ∈ s.agents.ids, i ∈ s'.agents.ids

/-- A form about an agent there is: what it lists is banned where it is unticked, and else is not. -/
structure Changed (id : String) (ticked : String → Bool) (s s' : St) : Prop where
  role : ∃ t form, (s.agents.rate.agent id).type = some t ∧ T.getAgentNewListAccessUrl t = some form ∧
    ∀ i u, u ∈ s'.banned i ↔ if i = id ∧ u ∈ form then ticked u = false else u ∈ s.banned i
  type : ∀ i, (s'.agents.rate.agent i).type = (s.agents.rate.agent i).type
  detail : ∃ d, s'.agents.detail = update s.agents.detail id (some d)
  ids : s'.agents.ids = s.agents.ids

variable {T} {sha256 : String → String}

/-- Checks that read the records, and pass a form only if it names no agent there is. -/
def Screens (form : Agents.CreateForm) (a : Agents.St) (p : Agents.Handler (Option Reply)) : Prop :=
  ∃ r, run p a = (r, a) ∧ (r = .ok none → a.detail form.agentId = none) ∧
    ∀ reply, r = .ok (some reply) → ∃ msg, reply = Reply.fail msg

theorem screens_createChecks (form : Agents.CreateForm) (a : Agents.St) : Screens form a (createChecks form) := by
  have hfail (msg : String) : Screens form a (Prog.ret (some (Reply.fail msg))) :=
    ⟨_, rfl, fun h => (nomatch h), fun reply h => ⟨msg, (Option.some.inj (Except.ok.inj h)).symm⟩⟩
  have hraise (e : Err) : Screens form a (Prog.raise e) := ⟨_, rfl, fun h => (nomatch h), fun reply h => (nomatch h)⟩
  unfold createChecks
  split
  · exact hfail _
  split
  · exact hfail _
  split
  · exact hfail _
  rcases Agents.exceeds_cases form.shareRate form.unitPrice with ⟨b, hunit⟩ | hunit <;> rw [hunit]
  swap
  · exact hraise _
  rw [ret_bind]
  split
  · exact hfail _
  rcases Agents.exceeds_cases form.shareRate form.myRate with ⟨b, hmy⟩ | hmy <;> rw [hmy]
  swap
  · exact hraise _
  rw [ret_bind]
  split
  · exact hfail _
  have hexists : run (Agents.send (.existsAgent form.agentId)) a = (.ok (a.detail form.agentId).isSome, a) := rfl
  rw [Screens, run_bind_ok hexists]
  cases hknown : a.detail form.agentId with
  | some d => exact ⟨_, rfl, fun h => (nomatch h), fun reply h => ⟨_, (Option.some.inj (Except.ok.inj h)).symm⟩⟩
  | none =>
    have htaken : run (Agents.send (.existsAccount form.account)) a = (.ok (a.account form.account).isSome, a) := rfl
    simp only [Option.isSome_none, Bool.false_eq_true, if_false]
    rw [run_bind_ok htaken]
    split
    · exact ⟨_, rfl, fun h => (nomatch h), fun reply h => ⟨_, (Option.some.inj (Except.ok.inj h)).symm⟩⟩
    · exact ⟨_, rfl, fun _ => trivial, fun reply h => (nomatch h)⟩

/-- A pipeline among the writes of a transaction. -/
theorem run_execute (pipe : List Agents.Write) (own : List Write) (s : St) :
    ∃ down, run (send (.execute pipe own)) s = (.ok (), { s with agents := pipe.foldl Agents.Write.apply s.agents, down := down }) := by
  obtain ⟨down, hdown⟩ := foldl_write own { s with agents := pipe.foldl Agents.Write.apply s.agents }
  exact ⟨down, Prod.ext rfl hdown⟩

/-- What a request about a new agent comes to. -/
def MadeOrNot (T : AccessModule) (account : String) (ticked : String → Bool) (s : St) (out : Except Err Reply × St) : Prop :=
  (Same s out.2 ∧ ∀ msg url, out.1 ≠ .ok (.json 0 msg url)) ∨
    ∃ id, Made T id ticked s out.2 ∧ out.2.agents.account account = some id

theorem notMade {account : String} {ticked : String → Bool} {s s' : St} (h : Same s s') {r : Except Err Reply}
    (hr : ∀ msg url, r ≠ .ok (.json 0 msg url)) : MadeOrNot T account ticked s (r, s') := .inl ⟨h, hr⟩

/-- The end of a request about a new agent, whose number has been found. -/
theorem create_end (depth : Nat) (parentAg id t : String) (k : Int) (price : Option String) (form : Agents.CreateForm)
    (ticked : String → Bool) {s s' : St} (hkept : Agents.Kept s.agents s'.agents) (hban : s'.rights = s.rights)
    (hknown : form.agentId = "" → id ∈ s'.agents.ids) (hnew : s.agents.detail id = none ∨ id ≠ "1" ∧ id ∉ s.agents.ids) :
    MadeOrNot T form.account ticked s (run (do
      let prices ← agents (Agents.createPrices depth id parentAg (some t) price form)
      setAgentAccess T (toString (k + 1)) id
      banAgentAccess T ticked (toString (k + 1)) id
      send (.execute
        ((if form.agentId = "" then [] else [.saddId id]) ++ prices ++
          [.hmsetCreate ⟨id, form.account, form.shareRate, parentAg, form.unitPrice, toString (k + 1), form.defaultRoomCard⟩,
            .setAccount form.account id])
        (authInfo sha256 id form.passwd ++ [.saddChild parentAg id]))
      return Reply.json 0 ("创建代理[" ++ form.account ++ "]成功") "/admin/agent/list") s') := by
  have hsame : Same s s' := ⟨by rw [hkept.rate], hkept.detail, hkept.ids, fun _ _ => by rw [St.banned, St.banned, hban]⟩
  obtain ⟨r, hprices, hpipe⟩ := Agents.prices_createPrices depth id parentAg (some t) price form s'.agents
  have hprices := run_agents_read hprices
  cases r with
  | error e =>
    rw [run_bind_error hprices]
    exact notMade hsame fun _ _ h => nomatch h
  | ok pipe =>
  rw [run_bind_ok hprices]
  cases hmenu : T.access (toString (k + 1)) with
  | none =>
    have hset : run (setAgentAccess T (toString (k + 1)) id) s' = (.error .KeyError, s') := by
      rw [setAgentAccess, hmenu]
      rfl
    rw [run_bind_error hset]
    exact notMade hsame fun _ _ h => nomatch h
  | some menu =>
  obtain ⟨list, hlist⟩ := AccessModule.form_of_access hmenu
  obtain ⟨table, hset, hother⟩ := run_setAgentAccess hmenu id s'
  let info : Agents.AgentInfo :=
    ⟨id, form.account, form.shareRate, parentAg, form.unitPrice, toString (k + 1), form.defaultRoomCard⟩
  obtain ⟨a, hfold, hagent, hdetail, hin, hids⟩ := Agents.foldl_create (hpipe pipe rfl) info form.agentId s'.agents
  have haccount : a.account form.account = some id := by
    rw [← hfold, List.foldl_append]
    exact Function.update_self ..
  obtain ⟨down, hexecute⟩ := run_execute
    ((if form.agentId = "" then [] else [.saddId id]) ++ pipe ++ [.hmsetCreate info, .setAccount form.account id])
    (authInfo sha256 id form.passwd ++ [.saddChild parentAg id])
    (withRights s' (list.foldl (banOne ticked (Rights.ban.key id)) table))
  have hagents : (withRights s' (list.foldl (banOne ticked (Rights.ban.key id)) table)).agents = s'.agents := rfl
  rw [hagents, hfold] at hexecute
  rw [run_bind_ok hset, run_bind_ok (run_banAgentAccess hlist ticked id _), withRights_twice, withRights_rights,
    run_bind_ok hexecute]
  refine .inr ⟨id, ⟨hnew, ⟨info.agent, toString (k + 1), list, rfl, ?_, hlist, fun i u hi => ?_⟩, ?_, ?_, fun i hi => ?_⟩, haccount⟩
  · rw [← hkept.rate]
    exact hagent
  · have hkey : table (Rights.ban.key i) = s.banned i := by
      rw [hother _ fun h => hi (Rights.key_access_eq_ban.1 h.symm), hban]
      rfl
    show u ∈ list.foldl (banOne ticked (Rights.ban.key id)) table (Rights.ban.key i) ↔ _
    rw [mem_banOne, Rights.key_ban_inj, hkey]
  · rw [← hkept.detail]
    exact hdetail
  · by_cases hblank : form.agentId = ""
    · exact hids id (hknown hblank)
    · exact hin hblank
  · exact hids i (hkept.ids i hi)

theorem create_cases (depth : Nat) (cookie : Cookie) (fresh : String) (idNo : Agents.IdNo) (agent_id : Option Int)
    (form : Agents.CreateForm) (ticked : String → Bool) (s : St) :
    MadeOrNot T form.account ticked s (run (doCreateAgent T sha256 depth cookie fresh idNo agent_id form ticked) s) := by
  unfold doCreateAgent
  obtain ⟨r, hsession⟩ := run_getSession cookie fresh s
  cases r with
  | error e =>
    rw [run_bind_error hsession]
    exact notMade (Same.refl s) fun _ _ h => nomatch h
  | ok sid =>
  have hself : run (send (.hget sid .id)) s = (.ok ((s.session sid).bind fun x => x.text .id), s) := rfl
  rw [run_bind_ok hsession, run_bind_ok hself]
  dsimp only
  split
  · exact notMade (Same.refl s) (by simp [Reply.fail])
  have hparent : run (agents (Agents.send (.hmgetParent (toString (agent_id.getD 0))))) s =
      (.ok ((s.agents.rate.agent (toString (agent_id.getD 0))).type,
        (s.agents.rate.agent (toString (agent_id.getD 0))).unitPrice), s) := rfl
  rw [run_bind_ok hparent]
  dsimp only
  obtain ⟨r, hchecks, hnone, hreply⟩ := screens_createChecks form s.agents
  have hchecks := run_agents_read hchecks
  cases r with
  | error e =>
    rw [run_bind_error hchecks]
    exact notMade (Same.refl s) fun _ _ h => nomatch h
  | ok reply =>
  rw [run_bind_ok hchecks]
  cases reply with
  | some reply =>
    obtain ⟨msg, rfl⟩ := hreply reply rfl
    exact notMade (Same.refl s) (by simp [Reply.fail])
  | none =>
  dsimp only
  have hsame {a : Agents.St} (h : Agents.Kept s.agents a) : Same s { s with agents := a } :=
    ⟨by rw [h.rate], h.detail, h.ids, fun _ _ => rfl⟩
  have hnumber : ∀ r a, run (Agents.agentIdOf idNo form.agentId) s.agents = (r, a) →
      run (agents (Agents.agentIdOf idNo form.agentId)) s = (r, { s with agents := a }) := fun r a h => by rw [run_agents, h]
  rcases Agents.run_agentIdOf idNo form.agentId s.agents with ⟨e, a, hrun, hkept⟩ | ⟨id, a, hrun, hkept, hin, hid⟩
  · rw [run_bind_error (hnumber _ _ hrun)]
    exact notMade (hsame hkept) fun _ _ h => nomatch h
  rw [run_bind_ok (hnumber _ _ hrun)]
  cases htype : (s.agents.rate.agent (toString (agent_id.getD 0))).type with
  | none => exact notMade (hsame hkept) fun _ _ h => nomatch h
  | some t =>
  rw [orRaise_some, ret_bind]
  cases hint : int t with
  | none => exact notMade (hsame hkept) fun _ _ h => nomatch h
  | some k =>
  rw [orRaise_some, ret_bind]
  refine create_end depth _ id t k _ form ticked hkept rfl hin ?_
  rcases hid with ⟨-, rfl⟩ | ⟨-, rfl, hnew⟩
  · exact .inl (hnone rfl)
  · refine .inr ⟨fun hone => ?_, hnew⟩
    have hlen := idNo.text_length
    rw [hone] at hlen
    exact absurd hlen (by decide)

/-- What a request about an agent there is comes to. -/
def ChangedOrNot (T : AccessModule) (id : String) (ticked : String → Bool) (s : St) (out : Except Err Reply × St) : Prop :=
  (Same s out.2 ∧ ∀ msg url, out.1 ≠ .ok (.json 0 msg url)) ∨
    (Changed T id ticked s out.2 ∧ ∃ msg url, out.1 = .ok (.json 0 msg url))

theorem notChanged {id : String} {ticked : String → Bool} {s : St} {r : Except Err Reply}
    (hr : ∀ msg url, r ≠ .ok (.json 0 msg url)) : ChangedOrNot T id ticked s (r, s) := .inl ⟨Same.refl s, hr⟩

theorem modify_cases (depth : Nat) (form : Agents.ModifyForm) (ticked : String → Bool) (s : St) :
    ChangedOrNot T form.agentId ticked s (run (doAgentModify T depth form ticked) s) := by
  have hfail (msg : String) : ChangedOrNot T form.agentId ticked s (.ok (Reply.fail msg), s) := notChanged (by simp [Reply.fail])
  have hraise (e : Err) : ChangedOrNot T form.agentId ticked s (.error e, s) := notChanged fun _ _ h => nomatch h
  unfold doAgentModify
  split
  · exact hfail _
  have htype : run (agents (Agents.send (.hgetType form.agentId))) s = (.ok (s.agents.rate.agent form.agentId).type, s) := rfl
  rw [run_bind_ok htype]
  rcases Agents.exceeds_cases form.shareRate form.unitPrice with ⟨b, hunit⟩ | hunit <;> rw [hunit]
  swap
  · exact hraise _
  have hhigh (b : Bool) : run (agents (Prog.ret b : Agents.Handler Bool)) s = (.ok b, s) := rfl
  rw [run_bind_ok (hhigh b)]
  split
  · exact hfail _
  rcases Agents.exceeds_cases form.shareRate form.myRate with ⟨b, hmy⟩ | hmy <;> rw [hmy]
  swap
  · exact hraise _
  rw [run_bind_ok (hhigh b)]
  split
  · exact hfail _
  obtain ⟨r, hprices, hpipe⟩ := Agents.prices_modifyPrices depth (s.agents.rate.agent form.agentId).type form s.agents
  have hprices := run_agents_read hprices
  cases r with
  | error e =>
    rw [run_bind_error hprices]
    exact hraise e
  | ok pipe =>
  rw [run_bind_ok hprices]
  cases hlist : T.getAgentNewListAccessUrl (fmt (s.agents.rate.agent form.agentId).type) with
  | none =>
    have hban : run (banAgentAccessModify T ticked (fmt (s.agents.rate.agent form.agentId).type) form.agentId) s =
        (.error .KeyError, s) := by
      rw [banAgentAccessModify, hlist]
      rfl
    rw [run_bind_error hban]
    exact hraise _
  | some list =>
  rw [run_bind_ok (run_banAgentAccessModify hlist ticked form.agentId s)]
  let write : Agents.Write := .hmsetModify form.agentId ⟨form.shareRate, form.unitPrice, form.name, form.defaultRoomCard⟩
  obtain ⟨down, hexecute⟩ := run_execute (pipe ++ [write]) []
    (withRights s (list.foldl (remarkOne ticked (Rights.ban.key form.agentId)) s.rights))
  rw [run_bind_ok hexecute]
  obtain ⟨rateSet, perPrice, hfold⟩ := Agents.foldl_isPrice (hpipe pipe rfl) s.agents
  have hagents : (pipe ++ [write]).foldl Agents.Write.apply s.agents =
      write.apply { s.agents with rateSet := rateSet, perPrice := perPrice } := by
    rw [List.foldl_append, hfold]
    rfl
  obtain ⟨t, ht⟩ : ∃ t, (s.agents.rate.agent form.agentId).type = some t := by
    cases htype : (s.agents.rate.agent form.agentId).type with
    | some t => exact ⟨t, rfl⟩
    | none =>
      -- there is no role of the name `None`
      rw [htype] at hlist
      cases hlist
  refine .inr ⟨⟨⟨t, list, ht, by rwa [ht] at hlist, fun i u => ?_⟩, fun i => ?_, ?_, ?_⟩, _, _, rfl⟩
  · show u ∈ list.foldl (remarkOne ticked (Rights.ban.key form.agentId)) s.rights (Rights.ban.key i) ↔ _
    simp only [mem_remarkOne, Rights.key_ban_inj]
    exact Iff.rfl
  · show (((pipe ++ [write]).foldl Agents.Write.apply s.agents).rate.agent i).type = _
    rw [hagents]
    by_cases hi : i = form.agentId
    · subst hi
      simp [write, Agents.Write.apply, Agents.ModifyInfo.agent]
    · simp [write, Agents.Write.apply, Function.update_of_ne hi]
  · show ∃ d, ((pipe ++ [write]).foldl Agents.Write.apply s.agents).detail = _
    rw [hagents]
    exact ⟨_, rfl⟩
  · show ((pipe ++ [write]).foldl Agents.Write.apply s.agents).ids = _
    rw [hagents]
    rfl

end Forms

/-! ## Runs -/

section Runs
variable {T : AccessModule} {sha256 : String → String} {depth : Nat}

/-- Whom a form decides about, and what it ticks: the agent that a form about a new one makes, or the one that it names. -/
def Request.Decides (T : AccessModule) (sha256 : String → String) (depth : Nat) (s : St) (id : String) (ticked : String → Bool) :
    Request → Prop
  | .create cookie fresh idNo agent_id form ticked' =>
    (step T sha256 depth (.create cookie fresh idNo agent_id form ticked') s).agents.account form.account = some id ∧
      ticked' = ticked
  | .modify _ _ form ticked' => form.agentId = id ∧ ticked' = ticked
  | _ => False

/-- The request was answered with the code 0. -/
def Accepted (T : AccessModule) (sha256 : String → String) (depth : Nat) (r : Request) (s : St) : Prop :=
  ∃ msg url, (run (r.handler T sha256 depth) s).1 = .ok (.json 0 msg url)

/-- The guard leaves the store, or runs what it guards. -/
theorem run_checkAccess (path : String) (cookie : Cookie) (fresh : String) (body : Handler Reply) (s : St) :
    let out := run (checkAccess path cookie fresh fun _ => body) s
    (out.2 = s ∧ ∀ msg url, out.1 ≠ .ok (.json 0 msg url)) ∨ out = run body s := by
  dsimp only
  unfold checkAccess
  obtain ⟨r, hsession⟩ := run_getSession cookie fresh s
  cases r with
  | error e =>
    rw [run_bind_error hsession]
    exact .inl ⟨rfl, fun _ _ h => nomatch h⟩
  | ok sid =>
  have haccount : run (send (.hget sid .account)) s = (.ok ((s.session sid).bind fun x => x.text .account), s) := rfl
  have haccess : run (send (.hgetAccess sid)) s = (.ok (accessOf s sid), s) := rfl
  rw [run_bind_ok hsession, run_bind_ok haccount]
  split
  · exact .inl ⟨rfl, fun _ _ h => nomatch (Except.ok.inj h)⟩
  rw [run_bind_ok haccess]
  split
  · exact .inl ⟨rfl, fun _ _ h => nomatch (Except.ok.inj h)⟩
  · exact .inr rfl

/-- A request leaves the records and what is banned, or it makes an agent, or it changes the one that its form names. -/
theorem step_cases (r : Request) (s : St) :
    (Same s (step T sha256 depth r s) ∧ ∀ id ticked, r.Decides T sha256 depth s id ticked → ¬Accepted T sha256 depth r s) ∨
      (∃ id ticked, r.Decides T sha256 depth s id ticked ∧ Made T id ticked s (step T sha256 depth r s)) ∨
      ∃ cookie fresh form ticked, r = .modify cookie fresh form ticked ∧
        Changed T form.agentId ticked s (step T sha256 depth r s) ∧ Accepted T sha256 depth r s := by
  have hsteady (hp : Only (Steady fun id => s.agents.detail id ≠ none) (r.handler T sha256 depth)) :
      Same s (step T sha256 depth r s) := Same.of_steady hp
  have hguard {path : String} {cookie : Cookie} {fresh : String} {body : Handler Reply}
      (hr : r.handler T sha256 depth = checkAccess path cookie fresh fun _ => body)
      (hp : Only (Steady fun id => s.agents.detail id ≠ none) body) : Same s (step T sha256 depth r s) := by
    show Same s (run (r.handler T sha256 depth) s).2
    rw [hr]
    rcases run_checkAccess path cookie fresh body s with ⟨hs, -⟩ | hs
    · rw [hs]
      exact Same.refl s
    · rw [hs]
      exact Same.of_steady hp
  cases r with
  | vcode cookie fresh code =>
    refine .inl ⟨hsteady ?_, fun _ _ h => h.elim⟩
    exact only_bind _ (steady_getSession cookie fresh) fun _ => only_bind _ (steady_send trivial) fun _ => trivial
  | login cookie fresh form remote_addr now => exact .inl ⟨same_doLogin .., fun _ _ h => h.elim⟩
  | create cookie fresh idNo agent_id form ticked =>
    rcases @create_cases T sha256 depth cookie fresh idNo agent_id form ticked s with ⟨hsame, hno⟩ | ⟨id, hmade, hid⟩
    · refine .inl ⟨hsame, fun _ _ _ => ?_⟩
      rintro ⟨msg, url, h⟩
      exact hno msg url h
    · exact .inr (.inl ⟨id, ticked, ⟨hid, rfl⟩, hmade⟩)
  | modify cookie fresh form ticked =>
    rcases run_checkAccess (BACK_PRE ++ "/agent/modify") cookie fresh (doAgentModify T depth form ticked) s with ⟨hs, hno⟩ | hs
    · refine .inl ⟨?_, fun _ _ _ => ?_⟩
      · show Same s (run _ s).2
        rw [Request.handler, hs]
        exact Same.refl s
      · rintro ⟨msg, url, h⟩
        exact hno msg url h
    · rcases modify_cases (T := T) depth form ticked s with ⟨hsame, hno⟩ | ⟨hchanged, haccepted⟩
      · refine .inl ⟨?_, fun _ _ _ => ?_⟩
        · show Same s (run _ s).2
          rw [Request.handler, hs]
          exact hsame
        · rintro ⟨msg, url, h⟩
          rw [Request.handler, hs] at h
          exact hno msg url h
      · refine .inr (.inr ⟨cookie, fresh, form, ticked, rfl, ?_, ?_⟩)
        · show Changed T form.agentId ticked s (run _ s).2
          rw [Request.handler, hs]
          exact hchanged
        · rw [Accepted, Request.handler, hs]
          exact haccepted
  | freeze cookie fresh agentId => exact .inl ⟨hguard rfl (steady_doAgFreeze agentId), fun _ _ h => h.elim⟩
  | modifyPasswd cookie fresh form => exact .inl ⟨hsteady (steady_doModifyPasswd ..), fun _ _ h => h.elim⟩
  | page path cookie fresh => exact .inl ⟨hguard rfl trivial, fun _ _ h => h.elim⟩
  | lapse sid =>
    refine .inl ⟨hsteady ?_, fun _ _ h => h.elim⟩
    exact only_bind _ (steady_send trivial) fun _ => trivial

variable (T) in
/-- What is banned is listed by the form about the agent, where no agent has the rights at its key. -/
structure Marked (s : St) : Prop where
  record : ∀ id, s.agents.detail id = none → (s.agents.rate.agent id).type = none
  ids : ∀ id, s.agents.detail id ≠ none → id = "1" ∨ id ∈ s.agents.ids
  ban : ∀ id u, s.agents.detail (id ++ ":ban") = none → u ∈ s.banned id →
    ∃ t form, (s.agents.rate.agent id).type = some t ∧ T.getAgentNewListAccessUrl t = some form ∧ u ∈ form

variable (T) in
/-- What is banned of the agent is what his form lists and leaves unticked. -/
def Ticked (s : St) (id : String) (ticked : String → Bool) : Prop :=
  ∃ t form, (s.agents.rate.agent id).type = some t ∧ T.getAgentNewListAccessUrl t = some form ∧
    ∀ u, u ∈ s.banned id ↔ u ∈ form ∧ ticked u = false

section Step
variable {s s' : St} {id : String} {ticked : String → Bool}

/-- A form leaves the agents that there are. -/
theorem update_some_eq_none {α : Type} {d : α} {detail : String → Option α} {i : String} :
    update detail id (some d) i = none ↔ i ≠ id ∧ detail i = none := by
  by_cases hi : i = id
  · subst hi
    simp
  · rw [Function.update_of_ne hi]
    exact ⟨fun h => ⟨hi, h⟩, And.right⟩

theorem Marked.same (h : Marked T s) (hs : Same s s') : Marked T s' where
  record id hid := by
    rw [hs.detail] at hid
    rw [hs.agent]
    exact h.record id hid
  ids id hid := by
    rw [hs.detail] at hid
    exact (h.ids id hid).imp_right (hs.ids id)
  ban id u hfree hu := by
    rw [hs.detail] at hfree
    rw [hs.ban id hfree] at hu
    rw [hs.agent]
    exact h.ban id u hfree hu

theorem Marked.fresh (h : Marked T s) (hm : Made T id ticked s s') : s.agents.detail id = none := by
  rcases hm.new with hnone | ⟨hone, hids⟩
  · exact hnone
  · by_contra hid
    exact (h.ids id hid).elim hone hids

/-- Nothing is banned of an agent there is not. -/
theorem Marked.no_ban (h : Marked T s) (hid : s.agents.detail id = none) (hfree : s.agents.detail (id ++ ":ban") = none)
    (u : String) : u ∉ s.banned id := by
  intro hu
  obtain ⟨t, form, ht, -, -⟩ := h.ban id u hfree hu
  rw [h.record id hid] at ht
  cases ht

theorem ne_ban (id : String) : id ≠ id ++ ":ban" := fun h =>
  ban_ne_access id (Rights.key_access_eq_ban.2 h).symm

theorem Marked.ticked_made (h : Marked T s) (hm : Made T id ticked s s') (hfree : s.agents.detail (id ++ ":ban") = none) :
    Ticked T s' id ticked := by
  obtain ⟨a, t, form, ht, hagent, hform, hban⟩ := hm.role
  refine ⟨t, form, ?_, hform, fun u => ?_⟩
  · rw [hagent, Function.update_self]
    exact ht
  · rw [hban id u (ne_ban id)]
    have hno := h.no_ban (h.fresh hm) hfree u
    tauto

theorem Marked.ticked_changed (h : Marked T s) (hc : Changed T id ticked s s') (hfree : s.agents.detail (id ++ ":ban") = none) :
    Ticked T s' id ticked := by
  obtain ⟨t, form, ht, hform, hban⟩ := hc.role
  refine ⟨t, form, by rw [hc.type]; exact ht, hform, fun u => ?_⟩
  rw [hban]
  by_cases hu : u ∈ form
  · rw [if_pos ⟨rfl, hu⟩]
    tauto
  · rw [if_neg fun h => hu h.2]
    -- an earlier form listed the same urls
    have hno : u ∉ s.banned id := by
      intro hin
      obtain ⟨t', form', ht', hform', hu'⟩ := h.ban id u hfree hin
      obtain rfl := Option.some.inj (ht.symm.trans ht')
      obtain rfl := Option.some.inj (hform.symm.trans hform')
      exact hu hu'
    tauto

theorem Marked.made (h : Marked T s) (hm : Made T id ticked s s') : Marked T s' := by
  obtain ⟨a, t, form, ht, hagent, hform, hban⟩ := hm.role
  obtain ⟨d, hdetail⟩ := hm.detail
  refine ⟨fun i hi => ?_, fun i hi => ?_, fun i u hfree hu => ?_⟩
  · rw [hdetail, update_some_eq_none] at hi
    rw [hagent, Function.update_of_ne hi.1]
    exact h.record i hi.2
  · by_cases hid : i = id
    · exact .inr (hid ▸ hm.known)
    · rw [hdetail, Function.update_of_ne hid] at hi
      exact (h.ids i hi).imp_right (hm.ids i)
  · rw [hdetail, update_some_eq_none] at hfree
    obtain ⟨hne, hfree⟩ := hfree
    by_cases hid : i = id
    · subst hid
      obtain ⟨t', form', ht', hform', hiff⟩ := h.ticked_made hm hfree
      exact ⟨t', form', ht', hform', ((hiff u).1 hu).1⟩
    · rw [hagent, Function.update_of_ne hid]
      exact h.ban i u hfree (((hban i u hne.symm).1 hu).resolve_left fun h => hid h.1)

theorem Marked.changed (h : Marked T s) (hc : Changed T id ticked s s') : Marked T s' := by
  obtain ⟨t, form, ht, hform, hban⟩ := hc.role
  obtain ⟨d, hdetail⟩ := hc.detail
  refine ⟨fun i hi => ?_, fun i hi => ?_, fun i u hfree hu => ?_⟩
  · rw [hdetail, update_some_eq_none] at hi
    rw [hc.type]
    exact h.record i hi.2
  · rw [hc.ids]
    by_cases hid : i = id
    · subst hid
      refine h.ids i fun hnone => ?_
      rw [h.record i hnone] at ht
      cases ht
    · rw [hdetail, Function.update_of_ne hid] at hi
      exact h.ids i hi
  · rw [hdetail, update_some_eq_none] at hfree
    by_cases hid : i = id
    · subst hid
      obtain ⟨t', form', ht', hform', hiff⟩ := h.ticked_changed hc hfree.2
      exact ⟨t', form', ht', hform', ((hiff u).1 hu).1⟩
    · rw [hc.type]
      rw [hban, if_neg fun h => hid h.1] at hu
      exact h.ban i u hfree.2 hu

theorem Marked.step (h : Marked T s) (r : Request) : Marked T (step T sha256 depth r s) := by
  rcases @step_cases T sha256 depth r s with ⟨hs, -⟩ | ⟨id, ticked, -, hm⟩ | ⟨_, _, form, ticked, -, hc, -⟩
  · exact h.same hs
  · exact h.made hm
  · exact h.changed hc

/-- Who is no agent was none before. -/
theorem free_step {r : Request} {i : String} (h : (step T sha256 depth r s).agents.detail i = none) : s.agents.detail i = none := by
  have hupdate {id : String} (hd : ∃ d, (step T sha256 depth r s).agents.detail = update s.agents.detail id (some d)) :
      s.agents.detail i = none := by
    obtain ⟨d, hd⟩ := hd
    rw [hd, update_some_eq_none] at h
    exact h.2
  rcases @step_cases T sha256 depth r s with ⟨hs, -⟩ | ⟨id, ticked, -, hm⟩ | ⟨_, _, form, ticked, -, hc, -⟩
  · rwa [hs.detail] at h
  · exact hupdate hm.detail
  · exact hupdate hc.detail

theorem free_after {rs : List Request} {i : String} (h : (Runs.after (Admin.step T sha256 depth) rs s).agents.detail i = none) :
    s.agents.detail i = none := by
  induction rs generalizing s with
  | nil => exact h
  | cons r rs ih => exact free_step (ih h)

theorem marked_init : Marked T (init T sha256) where
  record id hid := by
    by_cases h : id = "1"
    · subst h
      simp [init, Agents.init] at hid
    · simp [init, Agents.init, Agents.blank, Function.update_of_ne h]
  ids id hid := by
    by_cases h : id = "1"
    · exact .inl h
    · simp [init, Agents.init, Function.update_of_ne h] at hid
  ban id u hfree hu := by
    have hkey : Rights.ban.key id ≠ Rights.access.key "1" := by
      intro h
      have hone := congrArg String.toList (Rights.key_access_eq_ban.1 h.symm)
      rw [String.toList_append] at hone
      have hlen := congrArg List.length hone
      rw [List.length_append] at hlen
      have hlong : ":ban".toList.length = 4 := rfl
      have hshort : "1".toList.length = 1 := rfl
      omega
    simp [St.banned, init, hkey] at hu

/-- An accepted form about the agent. -/
theorem Marked.decided (h : Marked T s) {r : Request} (hd : r.Decides T sha256 depth s id ticked)
    (ha : Accepted T sha256 depth r s) (hfree : s.agents.detail (id ++ ":ban") = none) :
    Ticked T (Admin.step T sha256 depth r s) id ticked := by
  rcases @step_cases T sha256 depth r s with ⟨-, hno⟩ | ⟨id', ticked', hd', hm⟩ | ⟨_, _, form, ticked', rfl, hc, -⟩
  · exact absurd ha (hno id ticked hd)
  · have heq : id' = id ∧ ticked' = ticked := by
      cases r with
      | create cookie fresh idNo agent_id form t =>
        exact ⟨Option.some.inj (hd'.1.symm.trans hd.1), hd'.2.symm.trans hd.2⟩
      | modify _ _ form t => exact ⟨hd'.1.symm.trans hd.1, hd'.2.symm.trans hd.2⟩
      | _ => exact hd.elim
    obtain ⟨rfl, rfl⟩ := heq
    exact h.ticked_made hm hfree
  · obtain ⟨rfl, rfl⟩ := hd
    exact h.ticked_changed hc hfree

/-- No form about the agent is accepted. -/
def Unasked (T : AccessModule) (sha256 : String → String) (depth : Nat) (id : String) (r : Request) (s : St) : Prop :=
  ∀ ticked, r.Decides T sha256 depth s id ticked → ¬Accepted T sha256 depth r s

theorem Ticked.step (h : Ticked T s id ticked) (hmark : Marked T s) {r : Request} (hr : Unasked T sha256 depth id r s)
    (hfree : (Admin.step T sha256 depth r s).agents.detail (id ++ ":ban") = none) :
    Ticked T (Admin.step T sha256 depth r s) id ticked := by
  obtain ⟨t, form, ht, hform, hban⟩ := h
  rcases @step_cases T sha256 depth r s with ⟨hs, -⟩ | ⟨id', ticked', hd', hm⟩ | ⟨_, _, form', ticked', rfl, hc, ha⟩
  · refine ⟨t, form, by rw [hs.agent]; exact ht, hform, ?_⟩
    rw [hs.ban id (free_step hfree)]
    exact hban
  · have hne : id ≠ id' := by
      rintro rfl
      rw [hmark.record id (hmark.fresh hm)] at ht
      cases ht
    have hother : id' ≠ id ++ ":ban" := by
      obtain ⟨d, hd⟩ := hm.detail
      rw [hd, update_some_eq_none] at hfree
      exact hfree.1.symm
    obtain ⟨a, t', form', -, hagent, -, hban'⟩ := hm.role
    refine ⟨t, form, by rw [hagent, Function.update_of_ne hne]; exact ht, hform, fun u => ?_⟩
    rw [hban' id u hother, ← hban]
    tauto
  · have hne : form'.agentId ≠ id := fun h => hr ticked' ⟨h, rfl⟩ ha
    obtain ⟨t', list, -, -, hban'⟩ := hc.role
    refine ⟨t, form, by rw [hc.type]; exact ht, hform, fun u => ?_⟩
    rw [hban', if_neg fun h => hne h.1.symm]
    exact hban u

theorem Ticked.after (h : Ticked T s id ticked) (hmark : Marked T s) {rs : List Request}
    (hrs : Runs.All (Admin.step T sha256 depth) (Unasked T sha256 depth id) rs s)
    (hfree : (Runs.after (Admin.step T sha256 depth) rs s).agents.detail (id ++ ":ban") = none) :
    Ticked T (Runs.after (Admin.step T sha256 depth) rs s) id ticked := by
  induction rs generalizing s with
  | nil => exact h
  | cons r rs ih => exact ih (h.step hmark hrs.1 (free_after hfree)) (hmark.step r) hrs.2 hfree

end Step

/-- A company is made, which may not freeze. -/
def demoCreate : Request :=
  .create .absent "c" (fun _ => ⟨0, by decide⟩) (some 1) ⟨"company", "pw", "pw", "", "", "", "", "100001"⟩ fun url => url = "/admin/agent/info"

def demoVcode : Request := .vcode .absent "s" "ab"

def demoLogin : LoginForm := ⟨"company", "pw", "AB"⟩

end Runs

end FishWeb.Admin
