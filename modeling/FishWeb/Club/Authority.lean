import FishWeb.Club.Fresh
/-!
# Who acts for a club

The chained comparison that guards the automatic rooms shuts out nobody; applications to
a club that is gone are decided by anybody; and a member is looked for in the set of
the account that is named like the club.
-/
open Python Prog Runs

namespace FishWeb.Club

open Common

/-- The session that sends the request. -/
def Req.sid : Req → String
  | .create sid _ => sid
  | .delete sid _ => sid
  | .edit sid _ _ => sid
  | .join sid _ => sid
  | .signOut sid _ => sid
  | .forceOut builder_sid _ _ => builder_sid
  | .apply sid _ => sid
  | .audit sid _ _ _ => sid
  | .addManager sid _ _ => sid
  | .relieveManager sid _ _ => sid
  | .settingAllow sid _ => sid
  | .autoCreate sid _ _ _ _ => sid
  | .clearAuto sid _ => sid
  | .createRoom form => form.sid

namespace St

/-- The account is of the user who made the club. -/
def Owns (s : St) (account : Option String) (n : String) : Prop := ∃ a, account = some a ∧ (s.attrOf n).club_user = some a

/-- The account is of the owner or of a manager. -/
def Acts (s : St) (account : Option String) (n : String) : Prop :=
  s.Owns account n ∨ ∃ a data, account = some a ∧ (s.attrOf n).club_manager = some data ∧ a ∈ data

def Member (s : St) (account : Option String) (n : String) : Prop := ∃ a, account = some a ∧ a ∈ s.players (playerList n)

end St

/-- What a request may do: to the automatic rooms and to the applications, and to whom it opens rooms in the club's name. -/
structure Authorised (s : St) (req : Req) (r : Except Err Reply) (l : List Event) (s' : St) : Prop where
  allow : ∀ n, s'.allow n ≠ s.allow n → s.Acts (s.account req.sid) n
  rules : ∀ n ag id, s'.auto ((n, ag), id) ≠ s.auto ((n, ag), id) → s.Acts (s.account req.sid) n
  decided : ∀ n item, item ∈ s.audit n → item ∉ s'.audit n → s.Acts (s.account req.sid) n
  room : ∀ form f, req = .createRoom form → .forward f ∈ l → s.Owns (s.account form.sid) form.club_number ∨
    s.Member (s.account form.sid) form.club_number ∧ (s.attrOf form.club_number).club_use_create_room = some 1
  served : ∀ form, req = .createRoom form → (s.attr form.club_number).isSome → s.Member (s.account form.sid) form.club_number →
    (s.attrOf form.club_number).club_use_create_room = some 1 → r ≠ .ok notMember ∧ r ≠ .ok notAllowed

def AuthorisedStep : Step → St → Prop
  | .request req, s => Authorised s req (run req.handler s).1 (trace Event req.handler s) (run req.handler s).2
  | .elsewhere _ _, _ => True

/-- What the handlers do not ask: automatic rooms are set by who acts for the club, applications are decided while the club is
there, and the set of the account named like the club has the club exactly if the user is a member. -/
def Rightful : Step → St → Prop
  | .request (.settingAllow sid n), s => (s.attr n).isSome → (s.account sid).isSome → s.Acts (s.account sid) n
  | .request (.autoCreate sid n _ _ _), s => (s.attr n).isSome → (s.account sid).isSome → s.Acts (s.account sid) n
  | .request (.clearAuto sid n), s => (s.attr n).isSome → (s.account sid).isSome → s.Acts (s.account sid) n
  | .request (.audit _ n _ _), s => s.attr n = none → ∀ item, item ∉ s.audit n
  | .request (.createRoom form), s => (s.attr form.club_number).isSome → ∀ a, s.account form.sid = some a →
      (s.attrOf form.club_number).club_user ≠ some a →
      (form.club_number ∈ s.players (playerToClubList form.club_number) ↔ a ∈ s.players (playerList form.club_number))
  | _, _ => True

/-- Every club has an owner. -/
def Owned (s : St) : Prop := ∀ n, (s.attr n).isSome → (s.attrOf n).club_user.isSome

section Step
variable {s : St}

/-- Who may act, where the club has an owner, is its owner or one of its managers. -/
theorem acts_of_may {account : Option String} {n : String} (howned : (s.attrOf n).club_user.isSome) (h : s.May account n) :
    s.Acts account n := by
  rcases h with h | h
  · obtain ⟨a, ha⟩ := Option.isSome_iff_exists.1 howned
    exact .inl ⟨a, h.symm.trans ha, ha⟩
  · exact .inr h

/-- Nothing that needs permission. -/
theorem authorised_of_same {req : Req} {r : Except Err Reply} {l : List Event} {s' : St} (hallow : s'.allow = s.allow)
    (hauto : s'.auto = s.auto) (haudit : ∀ n item, item ∈ s.audit n → item ∈ s'.audit n) (hreq : ∀ form, req ≠ .createRoom form) :
    Authorised s req r l s' where
  allow n h := absurd (congrFun hallow n) h
  rules _ _ _ h := absurd (congrFun hauto _) h
  decided n item hin hout := absurd (haudit n item hin) hout
  room form _ h := absurd h (hreq form)
  served form h := absurd h (hreq form)

/-- A request for a room that opens none. -/
theorem authorised_of_refused {form : RoomForm} {r : Except Err Reply}
    (hserved : (s.attr form.club_number).isSome → s.Member (s.account form.sid) form.club_number →
      (s.attrOf form.club_number).club_use_create_room = some 1 → r ≠ .ok notMember ∧ r ≠ .ok notAllowed) :
    Authorised s (.createRoom form) r [] s where
  allow _ h := absurd rfl h
  rules _ _ _ h := absurd rfl h
  decided _ _ hin hout := absurd hin hout
  room _ _ _ hf := absurd hf List.not_mem_nil
  served form' h := by
    obtain rfl := Req.createRoom.inj h
    exact hserved

theorem authorised_of_effect {req : Req} {r : Except Err Reply} {l : List Event} {s' : St} (howned : Owned s)
    (hr : Rightful (.request req) s) (h : Effect s req r l s') : Authorised s req r l s' := by
  cases h with
  | nothing r hreq hnew => exact authorised_of_same rfl rfl (fun _ _ h => h) hreq
  | create | delete | edit | join | signOut | forceOut => exact authorised_of_same rfl rfl (fun _ _ h => h) fun _ h => nomatch h
  | manager req n data hclub hreq => exact authorised_of_same rfl rfl (fun _ _ h => h) hreq
  | apply sid n item hclub howner =>
    refine authorised_of_same rfl rfl (fun m i hi => ?_) fun _ h => nomatch h
    show i ∈ Function.update s.audit n ((s.audit n).sadd item) m
    by_cases hm : m = n
    · subst hm
      simp [hi]
    · simpa [hm] using hi
  | audit sid n user status r items audit joined hnew hmay hitems hnone hjoined =>
    have hsame : ∀ {s'' : St}, s'' = (if joined then (s.setAudit n audit).join user n else s.setAudit n audit) →
        s''.allow = s.allow ∧ s''.auto = s.auto ∧ s''.audit = Function.update s.audit n audit := by
      rintro s'' rfl
      split <;> exact ⟨rfl, rfl, rfl⟩
    obtain ⟨hallow, hauto, haudit⟩ := hsame rfl
    refine ⟨fun m h => absurd (congrFun hallow m) h, fun m ag id h => absurd (congrFun hauto _) h, fun m item hin hout => ?_,
      fun _ _ h => (nomatch h), fun _ h => (nomatch h)⟩
    rw [haudit] at hout
    have hm : m = n := by
      by_contra hm
      rw [Function.update_of_ne hm] at hout
      exact hout hin
    subst hm
    have hclub : (s.attr m).isSome := by
      cases hattr : s.attr m with
      | some attr => rfl
      | none => exact absurd hin (hr hattr item)
    exact acts_of_may (howned m hclub) (hmay hclub)
  | allow sid n settingAllow hclub hlives =>
    refine ⟨fun m h => ?_, fun _ _ _ h => absurd rfl h, fun _ _ hin hout => absurd hin hout, fun _ _ h => (nomatch h), fun _ h => (nomatch h)⟩
    have hm : m = n := by
      by_contra hm
      exact h (Function.update_of_ne hm _ _)
    subst hm
    exact hr hclub hlives
  | auto sid n gameid rule id ag hclub hlives =>
    refine ⟨fun _ h => absurd rfl h, fun m ag' id' h => ?_, fun _ _ hin hout => absurd hin hout, fun _ _ h => (nomatch h),
      fun _ h => (nomatch h)⟩
    have hm : m = n := by
      by_contra hm
      refine h (Function.update_of_ne ?_ _ _)
      rintro ⟨⟩
      exact hm rfl
    subst hm
    exact hr hclub hlives
  | clear sid n l auto autoList hclub hlives hl hauto =>
    refine ⟨fun _ h => absurd rfl h, fun m ag' id' h => ?_, fun _ _ hin hout => absurd hin hout, fun _ _ h => (nomatch h),
      fun _ h => (nomatch h)⟩
    have hm : m = n := by
      by_contra hm
      exact h (hauto ((m, ag'), id') hm)
    subst hm
    exact hr hclub hlives
  | roomNotMember form hclub howner hlisted =>
    refine authorised_of_refused fun _ hmember _ => ?_
    -- a member is in the set that is asked
    obtain ⟨a, ha, hin⟩ := hmember
    rw [ha] at howner
    exact absurd ((hr hclub a ha howner).2 hin) hlisted
  | roomNotAllowed form hclub howner hallowed => exact authorised_of_refused fun _ _ huse => absurd huse hallowed
  | roomRefused form r hnew hmember hallowed => exact authorised_of_refused fun _ _ _ => ⟨hmember, hallowed⟩
  | room form r room l hclub hlives hmember =>
    refine ⟨fun _ h => absurd rfl h, fun _ _ _ h => absurd rfl h, fun _ _ hin hout => absurd hin hout, ?_, ?_⟩
    · rintro form' f h -
      obtain rfl := Req.createRoom.inj h
      obtain ⟨a, ha⟩ := Option.isSome_iff_exists.1 hlives
      by_cases howner : (s.attrOf form.club_number).club_user = some a
      · exact .inl ⟨a, ha, howner⟩
      · obtain ⟨hlisted, huse⟩ := hmember (by rwa [ha])
        exact .inr ⟨⟨a, ha, (hr hclub a ha howner).1 hlisted⟩, huse⟩
    · intro form' _ _ _ _
      cases r with
      | error e => exact ⟨fun h => (nomatch h), fun h => (nomatch h)⟩
      | ok reply => exact ⟨fun h => (nomatch Except.ok.inj h), fun h => (nomatch Except.ok.inj h)⟩

theorem owned_setAttr {n : String} {attr : Attr} (h : Owned s) (hclub : (s.attr n).isSome) (hattr : attr.club_user = (s.attrOf n).club_user) :
    Owned (s.setAttr n attr) := by
  intro m hm
  rw [attrOf_setAttr]
  split
  · rw [hattr]
    exact h n hclub
  · rw [attr_setAttr_isSome hclub] at hm
    exact h m hm

theorem owned_effect {req : Req} {r : Except Err Reply} {l : List Event} {s' : St} (ho : Owned s) (h : Effect s req r l s') :
    Owned s' := by
  cases h with
  | edit sid n club_content hclub hmay => exact owned_setAttr ho hclub rfl
  | manager req n data hclub hreq => exact owned_setAttr ho hclub rfl
  | create sid club_name ag n hn hcount =>
    intro m hm
    show ((Function.update s.attr (toString n) _ m).getD .empty).club_user.isSome
    by_cases heq : m = toString n
    · rw [heq, Function.update_self]
      rfl
    · have hold : (Function.update s.attr (toString n) _ m).isSome := hm
      rw [Function.update_of_ne heq] at hold ⊢
      exact ho m hold
  | delete sid n hclub howner =>
    intro m hm
    have hold : (Function.update s.attr n none m).isSome := hm
    by_cases heq : m = n
    · rw [heq, Function.update_self] at hold
      cases hold
    · show ((Function.update s.attr n none m).getD .empty).club_user.isSome
      rw [Function.update_of_ne heq] at hold ⊢
      exact ho m hold
  | audit sid n user status r items audit joined hnew hmay hitems hnone hjoined =>
    split <;> exact ho
  | _ => exact ho

theorem owned_step (x : Step) (ho : Owned s) : Owned (step x s) := by
  cases x with
  | request req => exact owned_effect ho (effect_of req s)
  | elsewhere room profile => exact ho

end Step

/-- In every run from no clubs whose steps are rightful, every request is authorised. -/
theorem clubs_authorised (room : Room.St) (profile : String → Profile) (steps : List Step)
    (h : All step Rightful steps (init room profile)) : All step AuthorisedStep steps (init room profile) := by
  refine all_of_inv (I := Owned) (fun x s _ ho => owned_step x ho) (fun x s hr ho => ?_) h fun n hn => nomatch hn
  cases x with
  | request req => exact authorised_of_effect ho hr (effect_of req s)
  | elsewhere room profile => trivial

/-- Ann makes a club and sets an automatic room of it. -/
theorem clubs_authorised_owner : All step AuthorisedStep
    [.request (.create "a" "club"), .request (.autoCreate "a" "2000" "3" "[0, 0, 1]" "1")] noClubs :=
  clubs_authorised threeUsers profileOf [.request (.create "a" "club"), .request (.autoCreate "a" "2000" "3" "[0, 0, 1]" "1")]
    ⟨trivial, fun _ _ => .inl ⟨"ann", by decide +kernel, by decide +kernel⟩, trivial⟩

/-- Cid sets an automatic room of Ann's club, which has no manager. -/
theorem stranger_sets_rules : ¬All step AuthorisedStep
    [.request (.create "a" "club"), .request (.autoCreate "c" "2000" "3" "[0, 0, 1]" "1")] noClubs := by
  rintro ⟨-, h, -⟩
  have hacts := h.rules "2000" "7" "1" (by decide +kernel)
  have howner : ((step (.request (.create "a" "club")) noClubs).attrOf "2000").club_user = some "ann" := by decide +kernel
  have hmanagers : ((step (.request (.create "a" "club")) noClubs).attrOf "2000").club_manager = some ∅ := by decide +kernel
  have haccount : (step (.request (.create "a" "club")) noClubs).account "c" = some "cid" := by decide +kernel
  rcases hacts with ⟨a, ha, hown⟩ | ⟨a, data, ha, hdata, hin⟩
  · obtain rfl := Option.some.inj (haccount.symm.trans ha)
    exact absurd (howner.symm.trans hown) (by decide)
  · obtain rfl := Option.some.inj (hmanagers.symm.trans hdata)
    exact absurd hin (MemberSet.not_mem_empty a)

end FishWeb.Club
