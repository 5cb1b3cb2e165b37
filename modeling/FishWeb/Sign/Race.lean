import FishWeb.Sign.Once
import FishWeb.Lib.Past
/-!
# Signing in at once

Requests of any users, interleaved command by command. The users of a day are one value,
which is read, extended and written back twice: under the day's date, and under today. If
each list that is written is the stored one with a user more, whoever is rewarded stays on
the list of his day. Otherwise a user who was rewarded can be off it.
-/
open Python Prog Pool Past Script Calendar FishWeb.Common

namespace FishWeb.Sign

/-! ## What a request shows -/

/-- A list of users that is written, and a user who is rewarded for a day, by a request of a date. -/
inductive Act where
  | wrote (k : WeekKey) (day : Fin 7) (users : List String)
  | rewarded (uid : String) (day : Fin 7) (today : Date)
  deriving DecidableEq

instance : Note Own Act where
  note
    | .setUsers k day users, _ => [.wrote k day users]
    | .takeSign _ _ _ day _ k users uid today, _ => [.wrote k day users, .rewarded uid day today]
    | _, _ => []

/-- The list is still the one that was read, to which a user was appended. -/
def Act.Current (s : St) : Act → Prop
  | .wrote k day users => s.users k day = users.dropLast
  | .rewarded _ _ _ => True

instance (s : St) : (e : Act) → Decidable (e.Current s)
  | .wrote k day users => inferInstanceAs (Decidable (s.users k day = users.dropLast))
  | .rewarded _ _ _ => inferInstanceAs (Decidable True)

/-- No list is written over one that was not read. -/
def current : Guard Act Err Cmd St Reply := fun c _ evs _ => ∀ e ∈ evs, e.Current c.world.store

instance (c : Conf Act Err Cmd St Reply) (i : Nat) (evs : List Act) (c' : Conf Act Err Cmd St Reply) :
    Decidable (current c i evs c') :=
  inferInstanceAs (Decidable (∀ e ∈ evs, e.Current c.world.store))

/-- The request has put the user on the list of the day. -/
def Signed (s : St) (now : Date) (uid : String) (day : Fin 7) (l : List Act) : Prop :=
  ∃ key users, curKey s.signId now day = some key ∧ .wrote key day users ∈ l ∧ uid ∈ users

/-- What a request may do after the acts `l`. -/
inductive Writes (l : List Act) (s : St) : List Act → St → Prop
  | nothing (s' : St) (husers : s'.users = s.users) (hsetup : s'.setup = s.setup) : Writes l s [] s'
  | sign (k : WeekKey) (day : Fin 7) (users : List String) :
    Writes l s [.wrote k day users] { s with users := setUsers s.users k day users }
  | reward (k : WeekKey) (day : Fin 7) (users : List String) (uid : String) (today : Date) (s' : St)
    (hsigned : Signed s today uid day l) (husers : s'.users = setUsers s.users k day users)
    (hsetup : s'.setup = s.setup) : Writes l s [.wrote k day users, .rewarded uid day today] s'

section Request
variable {s₀ : St}

/-- The sessions and the running table are those of `s₀`. -/
def SameSetup (s₀ s : St) : Prop := s.setup = s₀.setup

theorem sameSetup_writes (l : List Act) (s : St) (evs : List Act) (s' : St) (hs : SameSetup s₀ s)
    (h : Writes l s evs s') : SameSetup s₀ s' := by
  cases h with
  | nothing _ _ hsetup | reward _ _ _ _ _ _ _ _ hsetup => exact hsetup.trans hs
  | sign => exact hs

/-- What a part of a request does, from any store it may find. -/
abbrev Signs {α : Type} (s₀ : St) (Q : List Act → α → Prop) (l : List Act) (p : Handler α) : Prop :=
  Past.Meets (SameSetup s₀) Writes Q l p

theorem silent_ask ⦃β : Type⦄ (a : Ask β) : Silent (SameSetup s₀) Writes (With.ask a : Cmd β) :=
  fun s _ => ⟨rfl, fun _ => .nothing s rfl rfl⟩

/-- A command that shows nothing and leaves the lists and the setup. -/
theorem signs_send {α β : Type} {Q : List Act → α → Prop} {l : List Act} {c : Own β} {f : β → Handler α}
    (hnote : ∀ b, (Note.note c b : List Act) = [])
    (hstay : ∀ s : St, (Exec.exec c s).2.users = s.users ∧ (Exec.exec c s).2.setup = s.setup)
    (h : ∀ b, Signs s₀ Q l (f b)) : Signs s₀ Q l (send c >>= f) :=
  meets_skip ⟨fun s _ => ⟨hnote _, fun _ => .nothing _ (hstay s).1 (hstay s).2⟩, fun _ => trivial⟩ h

/-- A user whom the check lets through is on the list that it has written. -/
theorem signs_checkSignValid (now : Date) (uid signDay : String) (l : List Act) :
    Signs s₀ (fun l r => ∀ day info, r = .ok (day, info) → Signed s₀ now uid day l) l
      (checkSignValid now uid signDay s₀.signId) := by
  refine signs_send (fun _ => rfl) (fun _ => ⟨rfl, rfl⟩) fun live => ?_
  split
  · exact fun _ _ h => nomatch h
  refine meets_orRaise fun day _ => signs_send (fun _ => rfl) (fun _ => ⟨rfl, rfl⟩) fun info => ?_
  refine meets_orRaise fun info _ => meets_orRaise fun key hkey => ?_
  split
  · exact fun _ _ h => nomatch h
  refine signs_send (fun _ => rfl) (fun _ => ⟨rfl, rfl⟩) fun users => ?_
  split
  · exact fun _ _ h => nomatch h
  intro s _
  refine ⟨.sign _ _ _, ?_⟩
  rintro day' info' ⟨⟩
  exact ⟨key, _, hkey, List.mem_append_right l (List.mem_singleton_self _),
    List.mem_append_right _ (List.mem_singleton_self _)⟩

theorem only_getShouldSignWarheads (uid : String) :
    Only (Silent (SameSetup s₀) Writes) (getShouldSignWarheads uid) := by
  simp only [getShouldSignWarheads, send, cmd_bind, ret_bind]
  refine ⟨fun s _ => ⟨rfl, fun _ => .nothing s rfl rfl⟩, fun vip_level => ?_⟩
  dsimp only
  split
  · trivial
  · exact (only_orRaise_bind _ _ _ _).2 fun _ _ => trivial

theorem Signed.same {s : St} {now : Date} {uid : String} {day : Fin 7} {l : List Act} (h : Signed s₀ now uid day l)
    (hs : SameSetup s₀ s) : Signed s now uid day l := by
  have hid : s.signId = s₀.signId := congrArg (fun f : Setup => Sign.signId f.nowRun) hs
  unfold Signed at h ⊢
  rwa [hid]

/-- Who is rewarded has been put on the list of the day. -/
theorem signs_takeSignReward (now : Date) (user_table account uid : String) (day : Fin 7) (info : DayInfo)
    {l : List Act} (h : Signed s₀ now uid day l) :
    Signs s₀ (fun _ _ => True) l (takeSignReward now user_table account uid s₀.signId day info) := by
  unfold takeSignReward
  by_cases hcoin : (int info.give_type).getD 0 = GIVE_COIN
  · simp only [if_pos hcoin]
    refine meets_skip (only_getShouldSignWarheads uid) fun warheads => ?_
    refine signs_send (fun _ => rfl) (fun _ => ⟨rfl, rfl⟩) fun users => ?_
    refine signs_send (fun _ => rfl) (fun _ => ⟨rfl, rfl⟩) fun number => ?_
    split <;>
    · refine signs_send (fun _ => rfl) (fun _ => ⟨rfl, rfl⟩) fun _ => ?_
      exact fun s hs => ⟨.reward _ _ _ _ _ _ (h.same hs) rfl rfl, trivial⟩
  · simp only [if_neg hcoin, ret_bind]
    refine signs_send (fun _ => rfl) (fun _ => ⟨rfl, rfl⟩) fun number => ?_
    split <;>
    · refine signs_send (fun _ => rfl) (fun _ => ⟨rfl, rfl⟩) fun _ => ?_
      exact signs_send (fun _ => rfl) (fun _ => ⟨rfl, rfl⟩) fun _ => trivial

theorem signs_doSign (now : Date) (sid signDay : String) :
    Signs s₀ (fun _ _ => True) [] (doSign now sid signDay) := by
  unfold doSign
  refine meets_skip (only_getInfoBySid silent_ask sid) fun info => ?_
  refine meets_skip (only_checkSessionVerfiy silent_ask sid info) fun res => ?_
  cases res with
  | error e => trivial
  | ok user_table =>
    refine meets_cmd (fun s _ => ⟨rfl, fun _ => .nothing s rfl rfl⟩) fun s hs => ?_
    have hid : Sign.signId (Exec.exec (With.own Own.getNowRun : Cmd _) s).1 = s₀.signId :=
      congrArg (fun f : Setup => Sign.signId f.nowRun) hs
    show Signs s₀ _ _ (checkSignValid now (fmt info.uid) signDay _ >>= _)
    rw [hid]
    refine meets_bind (signs_checkSignValid now (fmt info.uid) signDay []) fun l r hr => ?_
    cases r with
    | error e => trivial
    | ok p => exact signs_takeSignReward now user_table (fmt info.account) (fmt info.uid) p.1 p.2 (hr p.1 p.2 rfl)

end Request

/-! ## Requests of any users -/

/-- Requests, a date, a session and a day each, that have not begun. -/
def signs (s₀ : St) (requests : List (Date × String × String)) : Conf Act Err Cmd St Reply :=
  ⟨⟨s₀, []⟩, requests.map fun r => doSign r.1 r.2.1 r.2.2⟩

/-- Whoever was rewarded for a day is on its list. -/
def Listed (s₀ : St) (c : Conf Act Err Cmd St Reply) : Prop :=
  ∀ i uid day today, (i, .rewarded uid day today) ∈ c.world.log →
    ∃ key, curKey s₀.signId today day = some key ∧ uid ∈ c.world.store.users key day

/-- What was written is still there, and who was rewarded is in what was written. -/
structure Lasting (s₀ : St) (σ : World Act St) : Prop where
  lists : ∀ i k day users, (i, .wrote k day users) ∈ σ.log → users ⊆ σ.store.users k day
  rewarded : ∀ i uid day today, (i, .rewarded uid day today) ∈ σ.log →
    ∃ j key users, curKey s₀.signId today day = some key ∧ (j, .wrote key day users) ∈ σ.log ∧ uid ∈ users

section Step
variable {s₀ : St} {σ : World Act St} {i : Nat}

/-- A list written over the one that was read has all that was on it. -/
theorem subset_setUsers {k : WeekKey} {day : Fin 7} {users : List String} (hread : σ.store.users k day = users.dropLast)
    (k' : WeekKey) (day' : Fin 7) : σ.store.users k' day' ⊆ setUsers σ.store.users k day users k' day' := by
  unfold setUsers
  by_cases hk : k' = k
  · subst hk
    rw [Function.update_self]
    by_cases hday : day' = day
    · subst hday
      rw [Function.update_self, hread]
      exact List.dropLast_subset users
    · rw [Function.update_of_ne hday]
      exact List.Subset.refl _
  · rw [Function.update_of_ne hk]
    exact List.Subset.refl _

theorem lists_write (h : Lasting s₀ σ) {k : WeekKey} {day : Fin 7} {users : List String}
    (hread : σ.store.users k day = users.dropLast) {j : Nat} {k' : WeekKey} {day' : Fin 7} {users' : List String}
    (hwrote : (j, .wrote k' day' users') ∈ σ.log ∨ k' = k ∧ day' = day ∧ users' = users) :
    users' ⊆ setUsers σ.store.users k day users k' day' := by
  rcases hwrote with hold | ⟨rfl, rfl, rfl⟩
  · exact fun u hu => subset_setUsers hread k' day' (h.lists j k' day' users' hold hu)
  · simp [setUsers]

theorem lasting_step {evs : List Act} {s' : St} (hsetup : SameSetup s₀ σ.store)
    (hw : Writes (eventsOf i σ.log) σ.store evs s') (hc : ∀ e ∈ evs, e.Current σ.store) (h : Lasting s₀ σ) :
    Lasting s₀ ⟨s', σ.log ++ evs.map (i, ·)⟩ := by
  cases hw with
  | nothing _ husers _ =>
    refine ⟨fun j k day users hj => ?_, fun j uid day today hj => ?_⟩
    · rw [husers]
      exact h.lists j k day users (by simpa using hj)
    · simpa using h.rewarded j uid day today (by simpa using hj)
  | sign k day users =>
    have hread := hc _ (List.mem_singleton_self _)
    refine ⟨fun j k' day' users' hj => lists_write (j := j) h hread ?_, fun j uid day' today hj => ?_⟩
    · simp only [List.map_cons, List.map_nil, List.mem_append, List.mem_singleton, Prod.mk.injEq, Act.wrote.injEq] at hj
      exact hj.imp_right And.right
    · obtain ⟨j', key, users', hkey, hwrote, hu⟩ := h.rewarded j uid day' today (by simpa using hj)
      exact ⟨j', key, users', hkey, List.mem_append_left _ hwrote, hu⟩
  | reward k day users uid today _ hsigned husers _ =>
    have hread := hc _ List.mem_cons_self
    refine ⟨fun j k' day' users' hj => ?_, fun j uid' day' today' hj => ?_⟩
    · rw [husers]
      refine lists_write (j := j) h hread ?_
      simp only [List.map_cons, List.map_nil, List.mem_append, List.mem_cons, List.not_mem_nil, or_false, Prod.mk.injEq,
        Act.wrote.injEq, reduceCtorEq, and_false] at hj
      exact hj.imp_right And.right
    · simp only [List.map_cons, List.map_nil, List.mem_append, List.mem_cons, List.not_mem_nil, or_false, Prod.mk.injEq,
        Act.rewarded.injEq, reduceCtorEq, and_false, false_or] at hj
      rcases hj with hold | ⟨rfl, rfl, rfl, rfl⟩
      · obtain ⟨j', key, users', hkey, hwrote, hu⟩ := h.rewarded j uid' day' today' hold
        exact ⟨j', key, users', hkey, List.mem_append_left _ hwrote, hu⟩
      · obtain ⟨key, users', hkey, hwrote, hu⟩ := hsigned.same hsetup.symm
        exact ⟨j, key, users', hkey, List.mem_append_left _ (mem_eventsOf.1 hwrote), hu⟩

end Step

/-- In every interleaving of requests where each list written is the stored one with a user more, whoever was rewarded
is on the list of his day. -/
theorem rewarded_listed (s₀ : St) (requests : List (Date × String × String)) {c : Conf Act Err Cmd St Reply}
    (hr : Reach current (signs s₀ requests) c) : Listed s₀ c := by
  have hstart : Known (SameSetup s₀) Writes (fun _ _ _ => True) (signs s₀ requests) := by
    refine known_start (show SameSetup s₀ s₀ from rfl) fun i p hp => ?_
    obtain ⟨r, -, rfl⟩ : ∃ r, requests[i]? = some r ∧ doSign r.1 r.2.1 r.2.2 = p := by
      simpa [signs, List.getElem?_map] using hp
    exact signs_doSign r.1 r.2.1 r.2.2
  have hkept := reach_inv (I := fun c => Known (SameSetup s₀) Writes (fun _ _ _ => True) c ∧ Lasting s₀ c.world) ?_ hr
    ⟨hstart, by simp [signs], by simp [signs]⟩
  · intro i uid day today hi
    obtain ⟨j, key, users, hkey, hwrote, hu⟩ := hkept.2.rewarded i uid day today hi
    exact ⟨key, hkey, hkept.2.lists j key day users hwrote hu⟩
  · rintro d d' hs ⟨hk, hl⟩
    refine ⟨known_step sameSetup_writes hs hk, ?_⟩
    obtain ⟨σ, pre, post, b, k, hg⟩ := hs
    exact lasting_step hk.store (hk.meets pre.length (.cmd b k) (by simp) σ.store hk.store).1 hg hl

/-- Two users with a session each. -/
def twoUsers : St :=
  { demo with setup := { demo.setup with shared := { demo.setup.shared with
      session := fun sid => if sid = "s" then some ("a", "1") else if sid = "t" then some ("b", "2") else none
      userTable := fun account => if account = "a" then some "users:1" else some "users:2" } } }

/-- Wednesday, 8 January 2025. -/
def demoDay : Date := ⟨2025, 7, by decide⟩

/-- Both sign in for Monday. -/
def twoSigns : List (Date × String × String) := [(demoDay, "s", "1"), (demoDay, "t", "1")]

/-- One after the other. -/
theorem rewarded_listed_two :
    Listed twoUsers (turns (List.replicate 16 0 ++ List.replicate 16 1) (signs twoUsers twoSigns)) :=
  rewarded_listed twoUsers twoSigns (reach_turns (by decide +kernel))

/-- Both read the empty list of Monday before either writes it. The first is rewarded; the second writes over him. -/
theorem signed_user_lost : ∃ c, Reach noGuard (signs twoUsers twoSigns) c ∧ Finished c ∧
    (0, .rewarded "1" 0 demoDay) ∈ c.world.log ∧
    (∃ key, curKey "1" demoDay 0 = some key ∧ c.world.store.users key 0 = ["2"]) ∧ ¬Listed twoUsers c := by
  let c := turns (List.replicate 10 0 ++ List.replicate 10 1 ++ List.replicate 6 0 ++ List.replicate 6 1)
    (signs twoUsers twoSigns)
  let key : WeekKey := ⟨"1", ⟨2025, 5, by decide⟩, demoDay.week⟩
  have hkey : curKey "1" demoDay 0 = some key := by decide +kernel
  have hlist : c.world.store.users key 0 = ["2"] := by decide +kernel
  have hlog : (0, .rewarded "1" 0 demoDay) ∈ c.world.log := by decide +kernel
  have hfinished : Finished c := by decide +kernel
  refine ⟨c, reach_turns (allowed_noGuard _ _), hfinished, hlog, ⟨key, hkey, hlist⟩, fun h => ?_⟩
  obtain ⟨key', hkey', hmem⟩ := h 0 "1" 0 demoDay hlog
  have hid : twoUsers.signId = "1" := rfl
  rw [hid, hkey] at hkey'
  cases hkey'
  rw [hlist] at hmem
  exact absurd hmem (by decide)

end FishWeb.Sign
