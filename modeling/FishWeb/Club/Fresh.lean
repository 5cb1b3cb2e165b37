import FishWeb.Club.Mirror
/-!
# New clubs

The number of the newest club is given again once the club is disbanded. What is kept
under the number and not in the record of the club outlives it: the applications, the
switch of the automatic rooms and their rules.
-/
open Python Prog Runs

namespace FishWeb.Club

open Common

/-! ## What a club leaves -/

/-- A record of an automatic room that has no rule. -/
def Auto.Blank (auto : Auto) : Prop := auto.rule.getD "" = "" ∧ auto.gameid.getD "" = ""

/-- No applications, no automatic rooms and no rules for them are kept under the number. -/
structure Forgotten (s : St) (n : String) : Prop where
  applications : ∀ item, item ∉ s.audit n
  off : (s.allow n).getD 0 = 0
  rules : ∀ ag id auto, s.auto ((n, ag), id) = some auto → auto.Blank

/-- A club as it is made: besides, no members and no managers. -/
structure Clean (s : St) (n : String) : Prop extends Forgotten s n where
  members : ∀ account, account ∉ s.players (playerList n)
  managers : (s.attrOf n).club_manager = some ∅

/-- Who disbands a club has nothing left of it. -/
def Forgets : Step → St → Prop
  | .request (.delete sid n), s => (s.attr n).isSome → (s.attrOf n).club_user = s.account sid → Forgotten s n
  | _, _ => True

/-- Under the number of no club nothing is kept. -/
structure NothingLeft (s : St) : Prop where
  listed : ∀ n, n ∈ s.clubs ↔ (s.attr n).isSome
  numerals : Numerals s.clubs.members
  members : ∀ n, Plain n → s.attr n = none → ∀ account, account ∉ s.players (playerList n)
  forgotten : ∀ n, s.attr n = none → Forgotten s n

section Kept
variable {s : St}

theorem NothingLeft.plain (hi : NothingLeft s) {n : String} (h : (s.attr n).isSome) : Plain n := by
  obtain ⟨k, rfl⟩ := hi.numerals n ((hi.listed n).2 h)
  exact plain_toString k

/-- A change that is made under the number of a club leaves the others. -/
theorem NothingLeft.of_same {s' : St} {n : String} (hi : NothingLeft s) (hn : (s.attr n).isSome) (hclubs : s'.clubs = s.clubs)
    (hattr : ∀ m, (s'.attr m).isSome = (s.attr m).isSome) (hplayers : ∀ m, Plain m → m ≠ n → s'.players m = s.players m)
    (haudit : ∀ m, m ≠ n → s'.audit m = s.audit m) (hallow : ∀ m, m ≠ n → s'.allow m = s.allow m)
    (hauto : ∀ (m : String) (key : String × String), m ≠ n → s'.auto ((m, key.1), key.2) = s.auto ((m, key.1), key.2)) : NothingLeft s' := by
  have hnone : ∀ m, s'.attr m = none → s.attr m = none ∧ m ≠ n := by
    intro m hm
    have hm' : s.attr m = none := by
      have h := hattr m
      rw [hm] at h
      simpa using h.symm
    refine ⟨hm', ?_⟩
    rintro rfl
    rw [hm'] at hn
    cases hn
  refine ⟨fun m => ?_, hclubs ▸ hi.numerals, fun m hplain hm account => ?_, fun m hm => ?_⟩
  · rw [hclubs, hi.listed, hattr]
  · obtain ⟨hm', hne⟩ := hnone m hm
    show account ∉ s'.players m
    rw [hplayers m hplain hne]
    exact hi.members m hplain hm' account
  · obtain ⟨hm', hne⟩ := hnone m hm
    obtain ⟨happ, hoff, hrules⟩ := hi.forgotten m hm'
    refine ⟨fun item => haudit m hne ▸ happ item, hallow m hne ▸ hoff, fun ag id auto h => ?_⟩
    exact hrules ag id auto (hauto m (ag, id) hne ▸ h)

theorem attr_setAttr_isSome {n : String} {attr : Attr} (hn : (s.attr n).isSome) (m : String) :
    ((s.setAttr n attr).attr m).isSome = (s.attr m).isSome := by
  show (Function.update s.attr n (some attr) m).isSome = _
  by_cases hm : m = n
  · subst hm
    simp [hn]
  · rw [Function.update_of_ne hm]

/-- Joining changes the members of the club, and no other plain set. -/
theorem join_players {account n m : String} (hm : Plain m) (hne : m ≠ n) : (s.join account n).players m = s.players m := by
  show SetTable.add (SetTable.add s.players (playerToClubList account) n) (playerList n) account m = _
  rw [SetTable.add_other _ _ _ _ (show m ≠ playerList n from hne), SetTable.add_other _ _ _ _ (hm account)]

/-- Whoever leaves, no set gets a member. -/
theorem NothingLeft.leave {account n : String} (hi : NothingLeft s) : NothingLeft (s.leave account n) where
  listed := hi.listed
  numerals := hi.numerals
  members m hplain hm b hb := hi.members m hplain hm b (mem_leave.1 hb).2.2
  forgotten m hm := ⟨(hi.forgotten m hm).1, (hi.forgotten m hm).2, (hi.forgotten m hm).3⟩

theorem NothingLeft.disband {account n : String} (hi : NothingLeft s) (hn : Forgotten s n) :
    NothingLeft (s.disband n account (s.players (playerList n)).members) where
  listed := listed_disband hi.listed
  numerals := fun m hm => hi.numerals m ((MemberSet.mem_srem _ _ _).1 hm).2
  members := by
    intro m hplain hm b hb
    obtain ⟨hne, -, hmem⟩ := mem_disband.1 hb
    have hmn : m ≠ n := hne
    have hattr : Function.update s.attr n none m = none := hm
    rw [Function.update_of_ne hmn] at hattr
    exact hi.members m hplain hattr b hmem
  forgotten := by
    intro m hm
    have hattr : Function.update s.attr n none m = none := hm
    have hforgotten : Forgotten s m := by
      by_cases hmn : m = n
      · rwa [hmn]
      · rw [Function.update_of_ne hmn] at hattr
        exact hi.forgotten m hattr
    exact ⟨hforgotten.1, hforgotten.2, hforgotten.3⟩

/-- The number of a new club is that of no club. -/
theorem NothingLeft.new (hi : NothingLeft s) {n : Int} (hn : s.nextIdOf = .ok n) :
    (∃ k : Nat, n = k) ∧ s.attr (toString n) = none := by
  obtain ⟨hk, hfresh⟩ := nextIdOf_fresh hi.numerals hn
  rw [hi.listed] at hfresh
  exact ⟨hk, by simpa using hfresh⟩

theorem NothingLeft.create {account club_name ag : String} {n : Int} (hi : NothingLeft s) (hn : s.nextIdOf = .ok n) :
    NothingLeft (s.create account n club_name ag) := by
  obtain ⟨⟨k, rfl⟩, hnone⟩ := hi.new hn
  have hold : ∀ m, (s.create account (k : Int) club_name ag).attr m = none → s.attr m = none := by
    intro m hm
    have hattr : Function.update s.attr (toString (k : Int)) _ m = none := hm
    by_cases heq : m = toString (k : Int)
    · rw [heq, Function.update_self] at hattr
      cases hattr
    · rwa [Function.update_of_ne heq] at hattr
  refine ⟨listed_create hi.listed, numerals_sadd hi.numerals k, fun m hplain hm b => hi.members m hplain (hold m hm) b, fun m hm => ?_⟩
  · obtain ⟨happ, hoff, hrules⟩ := hi.forgotten m (hold m hm)
    exact ⟨happ, hoff, hrules⟩

theorem clean_create {account club_name ag : String} {n : Int} (hi : NothingLeft s) (hn : s.nextIdOf = .ok n) :
    Clean (s.create account n club_name ag) (toString n) := by
  obtain ⟨⟨k, rfl⟩, hnone⟩ := hi.new hn
  obtain ⟨happ, hoff, hrules⟩ := hi.forgotten _ hnone
  refine ⟨⟨happ, hoff, hrules⟩, hi.members _ (plain_toString k) hnone, ?_⟩
  show ((Function.update s.attr (toString (k : Int)) _ (toString (k : Int))).getD .empty).club_manager = _
  rw [Function.update_self]
  rfl

theorem NothingLeft.effect {req : Req} {r : Except Err Reply} {l : List Event} {s' : St} (hi : NothingLeft s)
    (hf : Forgets (.request req) s) (h : Effect s req r l s') : NothingLeft s' := by
  cases h with
  | nothing | roomNotMember | roomNotAllowed | roomRefused => exact hi
  | create sid club_name ag n hn hcount => exact hi.create hn
  | delete sid n hclub howner => exact hi.disband (hf hclub howner)
  | edit sid n club_content hclub hmay =>
    exact hi.of_same hclub rfl (attr_setAttr_isSome hclub) (fun _ _ _ => rfl) (fun _ _ => rfl) (fun _ _ => rfl) fun _ _ _ => rfl
  | manager req n data hclub hreq =>
    exact hi.of_same hclub rfl (attr_setAttr_isSome hclub) (fun _ _ _ => rfl) (fun _ _ => rfl) (fun _ _ => rfl) fun _ _ _ => rfl
  | join sid n hclub howner =>
    exact hi.of_same hclub rfl (fun _ => rfl) (fun _ hm hne => join_players hm hne) (fun _ _ => rfl) (fun _ _ => rfl) fun _ _ _ => rfl
  | signOut sid n => exact hi.leave
  | forceOut builder_sid member n hclub hmay => exact hi.leave
  | apply sid n item hclub howner =>
    exact hi.of_same hclub rfl (fun _ => rfl) (fun _ _ _ => rfl) (fun m hne => Function.update_of_ne hne _ _) (fun _ _ => rfl)
      fun _ _ _ => rfl
  | audit sid n user status r items audit joined hnew hmay hitems hnone hjoined =>
    cases hclub : (s.attr n).isSome with
    | false =>
      -- nothing is kept to be decided
      have hempty : items = [] := by
        rw [List.eq_nil_iff_forall_not_mem]
        intro item hitem
        exact (hi.forgotten n (by simpa using hclub)).applications item (hitems item hitem)
      have hj : joined = false := by
        by_contra hj
        have hex := (hjoined (by simpa using hj)).1
        rw [hclub] at hex
        cases hex
      rw [hj, hnone hempty]
      have hself : s.setAudit n (s.audit n) = s := by simp [St.setAudit]
      simpa [hself] using hi
    | true =>
      refine hi.of_same hclub ?_ ?_ ?_ ?_ ?_ ?_
      · split <;> rfl
      · intro m
        split <;> rfl
      · intro m hm hne
        split
        · exact join_players hm hne
        · rfl
      · intro m hne
        split <;> exact Function.update_of_ne hne _ _
      · intro m _
        split <;> rfl
      · intro m key _
        split <;> rfl
  | allow sid n settingAllow hclub hlives =>
    exact hi.of_same hclub rfl (fun _ => rfl) (fun _ _ _ => rfl) (fun _ _ => rfl) (fun m hne => Function.update_of_ne hne _ _)
      fun _ _ _ => rfl
  | auto sid n gameid rule id ag hclub hlives =>
    refine hi.of_same hclub rfl (fun _ => rfl) (fun _ _ _ => rfl) (fun _ _ => rfl) (fun _ _ => rfl) fun m key hne => ?_
    refine Function.update_of_ne ?_ _ _
    rintro ⟨⟩
    exact hne rfl
  | clear sid n l auto autoList hclub hlives hl hauto =>
    exact hi.of_same hclub rfl (fun _ => rfl) (fun _ _ _ => rfl) (fun _ _ => rfl) (fun _ _ => rfl) fun m key hne => hauto _ hne
  | room form r room l hclub hlives hmember =>
    exact hi.of_same hclub rfl (fun _ => rfl) (fun _ _ _ => rfl) (fun _ _ => rfl) (fun _ _ => rfl) fun _ _ _ => rfl

theorem NothingLeft.step {x : Step} (hf : Forgets x s) (hi : NothingLeft s) : NothingLeft (step x s) := by
  cases x with
  | request req => exact hi.effect hf (effect_of req s)
  | elsewhere room profile =>
    exact ⟨hi.listed, hi.numerals, hi.members, fun m hm => ⟨(hi.forgotten m hm).1, (hi.forgotten m hm).2, (hi.forgotten m hm).3⟩⟩

theorem nothingLeft_init (room : Room.St) (profile : String → Profile) : NothingLeft (init room profile) where
  listed _ := by simp [init]
  numerals _ h := absurd h List.not_mem_nil
  members _ _ _ _ := MemberSet.not_mem_empty _
  forgotten _ _ := ⟨fun _ => MemberSet.not_mem_empty _, rfl, fun _ _ _ h => nomatch h⟩

end Kept

/-- After any history in which clubs are disbanded once nothing is left of them, a new club is clean. -/
theorem new_clubs_clean (room : Room.St) (profile : String → Profile) (steps : List Step)
    (h : All step Forgets steps (init room profile)) (sid club_name msg : String) (n : Int)
    (hreply : (run (create_club sid club_name) (after step steps (init room profile))).1 = .ok (.created msg n)) :
    Clean (run (create_club sid club_name) (after step steps (init room profile))).2 (toString n) := by
  have hi := after_inv (fun _ _ hf hi => NothingLeft.step hf hi) h (nothingLeft_init room profile)
  have heffect := effect_of (.create sid club_name) (after step steps (init room profile))
  rw [show Req.handler (.create sid club_name) = create_club sid club_name from rfl, hreply] at heffect
  generalize (run (create_club sid club_name) (after step steps (init room profile))).2 = s' at heffect ⊢
  generalize trace Event (create_club sid club_name) (after step steps (init room profile)) = l at heffect
  cases heffect with
  | nothing r hreq hnew => exact absurd rfl (hnew msg n)
  | create sid club_name ag n hn hcount => exact clean_create hi hn

/-- Ann disbands a club that was applied to by nobody; the next one is clean. -/
theorem new_clubs_clean_again : Clean (run (create_club "b" "next")
    (after step [.request (.create "a" "club"), .request (.delete "a" "2000")] noClubs)).2 "2000" :=
  new_clubs_clean threeUsers profileOf [.request (.create "a" "club"), .request (.delete "a" "2000")]
    ⟨trivial, fun _ _ => ⟨fun _ => MemberSet.not_mem_empty _, rfl, fun _ _ _ h => nomatch h⟩, trivial⟩ "b" "next" "创建成功" 2000
    (by decide +kernel)

/-- Bob applies at Ann's club, which she disbands: his application is kept for the next club of the number. -/
theorem new_club_not_clean :
    (run (create_club "b" "next") (after step
      [.request (.create "a" "club"), .request (.apply "b" "2000"), .request (.delete "a" "2000")] noClubs)).1 =
        .ok (.created "创建成功" 2000) ∧
    ¬Clean (run (create_club "b" "next") (after step
      [.request (.create "a" "club"), .request (.apply "b" "2000"), .request (.delete "a" "2000")] noClubs)).2 "2000" := by
  refine ⟨by decide +kernel, fun h => h.applications "bob|---|B|---|b.png|---|0" ?_⟩
  decide +kernel

end FishWeb.Club
