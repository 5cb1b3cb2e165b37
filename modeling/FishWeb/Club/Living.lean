import FishWeb.Club.Mirror
/-!
# The numbers of the clubs that exist

A history keeps the numbers of the clubs that were created and not disbanded since, read
off the answers. It is the list of the clubs in the store (`Registered`), so no two clubs that
exist at a time have one number.
-/
open Python Prog Runs

namespace FishWeb.Club

open Common

/-- The store, and the numbers of the clubs that exist by the answers so far. -/
structure History where
  st : St
  living : List String

/-- The number of the club that the answer says was created. -/
def createdNumber : Except Err Reply → Option String
  | .ok (.created _ n) => some (toString n)
  | _ => none

/-- The clubs that exist after a step. -/
def livingAfter (x : Step) (h : History) : List String :=
  match x with
  | .request (.create sid club_name) => (createdNumber (run (create_club sid club_name) h.st).1).toList ++ h.living
  | .request (.delete sid club_number) =>
    if (run (delete_club sid club_number) h.st).1.map Reply.code = .ok 0 then h.living.erase club_number else h.living
  | _ => h.living

def History.next (x : Step) (h : History) : History := ⟨step x h.st, livingAfter x h⟩

section
variable {s : St}

/-! ## What a step does to the list of clubs -/

/-- A club is disbanded, or the request is refused. -/
def Disbands (s : St) (club_number : String) (r : Except Err Reply) (s' : St) (_ : List Event) : Prop :=
  r.map Reply.code = .ok 0 ∧ s'.clubs = s.clubs.srem club_number ∨ r.map Reply.code ≠ .ok 0 ∧ s' = s

theorem disbands_refused {club_number : String} (reply : Reply) (h : reply.code ≠ 0) :
    Comes (Disbands s club_number) (.ret reply : Handler Reply) s :=
  .inr ⟨fun heq => h (Except.ok.inj heq), rfl⟩

theorem comes_tryDelete (sid club_number : String) : Comes (Disbands s club_number) (tryDelete sid club_number) s := by
  unfold tryDelete
  rw [(ran_infoOf sid).comes_bind_iff]
  cases hhere : elsewhere sid (s.room.shared.info sid) with
  | true => exact disbands_refused (kicked sid) (show (-4 : Int) ≠ 0 by decide)
  | false =>
  show Comes _ (if (s.attr club_number).isSome then _ else _ : Handler Reply) s
  refine comes_ite (fun _ => ?_) fun _ => disbands_refused _ (show (1 : Int) ≠ 0 by decide)
  show Comes _ (if (s.attrOf club_number).club_user ≠ s.account sid then _ else _ : Handler Reply) s
  exact comes_ite (fun _ => disbands_refused _ (show (1 : Int) ≠ 0 by decide)) fun _ => .inl ⟨rfl, rfl⟩

theorem comes_delete_club (sid club_number : String) : Comes (Disbands s club_number) (delete_club sid club_number) s := by
  have htry := comes_tryDelete (s := s) sid club_number
  unfold Comes at htry
  unfold delete_club orFail
  have hran : Ran (tryDelete sid club_number).attempt s (.ok (run (tryDelete sid club_number) s).1)
      (run (tryDelete sid club_number) s).2 (trace Event (tryDelete sid club_number) s) := Ran.attempt ⟨rfl, rfl⟩
  cases hr : (run (tryDelete sid club_number) s).1 with
  | ok reply =>
    rw [hr] at hran htry
    exact (hran.bind (ran_ret reply _)).comes htry
  | error e =>
    rw [hr] at hran htry
    rcases htry with ⟨hcode, -⟩ | ⟨-, hs⟩
    · cases hcode
    · refine (hran.bind (ran_ret (Reply.msg 1 "删除失败") _)).comes (.inr ⟨fun hcode => ?_, hs⟩)
      have hzero : (1 : Int) = 0 := Except.ok.inj hcode
      exact absurd hzero (by decide)

/-- Whatever else is asked, the list of the clubs stays. -/
theorem clubs_step {x : Step} (hcreate : ∀ sid club_name, x ≠ .request (.create sid club_name))
    (hdelete : ∀ sid club_number, x ≠ .request (.delete sid club_number)) : (step x s).clubs = s.clubs := by
  cases x with
  | elsewhere room profile => rfl
  | request req =>
    have heffect := effect_of req s
    show (run req.handler s).2.clubs = s.clubs
    generalize (run req.handler s).1 = r, trace Event req.handler s = l at heffect
    generalize (run req.handler s).2 = s' at heffect ⊢
    cases heffect with
    | create sid club_name ag n hn hcount => exact absurd rfl (hcreate sid club_name)
    | delete sid club_number hclub howner => exact absurd rfl (hdelete sid club_number)
    | audit => split <;> rfl
    | _ => rfl

/-- A new club takes the least number of those that a club may have, and is listed. -/
theorem create_cases (h : Proper s.clubs.members) (sid club_name : String) :
    createdNumber (run (create_club sid club_name) s).1 = none ∧ (run (create_club sid club_name) s).2.clubs = s.clubs ∨
      ∃ n : Nat, IsLeast (Next s.clubs.members) n ∧ createdNumber (run (create_club sid club_name) s).1 = some (toString n) ∧
        (run (create_club sid club_name) s).2.clubs.members = toString n :: s.clubs.members := by
  have heffect := effect_of (.create sid club_name) s
  have hhandler : Req.handler (.create sid club_name) = create_club sid club_name := rfl
  rw [hhandler] at heffect
  generalize trace Event (create_club sid club_name) s = l at heffect
  generalize (run (create_club sid club_name) s).1 = r at heffect ⊢
  generalize (run (create_club sid club_name) s).2 = s' at heffect ⊢
  cases heffect with
  | nothing r hreq hnew =>
    refine .inl ⟨?_, rfl⟩
    unfold createdNumber
    split
    · next msg n => exact absurd rfl (hnew msg n)
    · rfl
  | create sid club_name ag n hn hcount =>
    obtain ⟨k, hk, hleast⟩ := nextIdOf_least h
    rw [hk] at hn
    cases hn
    have hfresh : toString k ∉ s.clubs.members := fun hin => lt_irrefl k (hleast.1.2.2 k hin)
    exact .inr ⟨k, hleast, rfl, List.insert_of_not_mem hfresh⟩
  | manager req club_number data hclub hreq => exact .inl ⟨rfl, rfl⟩

end

/-! ## Along a run -/

/-- The clubs in the store are those that exist by the answers, and their numbers are proper. -/
structure Registered (h : History) : Prop where
  same : h.living = h.st.clubs.members
  proper : Proper h.st.clubs.members

theorem Registered.next {h : History} (hk : Registered h) (x : Step) : Registered (h.next x) := by
  have hst : (h.next x).st = step x h.st := rfl
  have hliving : (h.next x).living = livingAfter x h := rfl
  by_cases hcreate : ∃ sid club_name, x = .request (.create sid club_name)
  · obtain ⟨sid, club_name, rfl⟩ := hcreate
    rcases create_cases hk.proper sid club_name with ⟨hnone, hclubs⟩ | ⟨n, hleast, hsome, hclubs⟩
    · have hsame : (step (.request (.create sid club_name)) h.st).clubs = h.st.clubs := hclubs
      refine ⟨?_, by rw [hst, hsame]; exact hk.proper⟩
      rw [hliving, hst, hsame, livingAfter, hnone]
      exact hk.same
    · have hlisted : (step (.request (.create sid club_name)) h.st).clubs.members = toString n :: h.st.clubs.members := hclubs
      refine ⟨?_, ?_⟩
      · rw [hliving, hst, hlisted, livingAfter, hsome, hk.same]
        rfl
      · rw [hst, hlisted]
        exact List.forall_mem_cons.2 ⟨⟨n, rfl, hleast.1.1, hleast.1.2.1⟩, hk.proper⟩
  by_cases hdelete : ∃ sid club_number, x = .request (.delete sid club_number)
  · obtain ⟨sid, club_number, rfl⟩ := hdelete
    rcases comes_delete_club sid club_number with ⟨hcode, hclubs⟩ | ⟨hcode, hsame⟩
    · have hremoved : (step (.request (.delete sid club_number)) h.st).clubs = h.st.clubs.srem club_number := hclubs
      refine ⟨?_, ?_⟩
      · rw [hliving, hst, hremoved, livingAfter, if_pos hcode, hk.same]
        rfl
      · rw [hst, hremoved]
        exact fun n hn => hk.proper n (List.mem_of_mem_erase hn)
    · have hsame : step (.request (.delete sid club_number)) h.st = h.st := hsame
      refine ⟨?_, by rw [hst, hsame]; exact hk.proper⟩
      rw [hliving, hst, hsame, livingAfter, if_neg hcode]
      exact hk.same
  · have hclubs : (step x h.st).clubs = h.st.clubs := clubs_step (fun sid name hx => hcreate ⟨sid, name, hx⟩)
      fun sid n hx => hdelete ⟨sid, n, hx⟩
    refine ⟨?_, by rw [hst, hclubs]; exact hk.proper⟩
    rw [hliving, hst, hclubs]
    unfold livingAfter
    split
    · next sid name => exact absurd ⟨sid, name, rfl⟩ hcreate
    · next sid n => exact absurd ⟨sid, n, rfl⟩ hdelete
    · exact hk.same

/-- From any clubs with proper numbers, along any run: a creation picks the least number after those that exist which is proper,
and no two clubs that exist at a time have one number. -/
theorem club_numbers {s : St} (h : Proper s.clubs.members) (steps : List Step) :
    (after History.next steps ⟨s, s.clubs.members⟩).living.Nodup ∧
    ∃ n : Nat, IsLeast (Next (after History.next steps ⟨s, s.clubs.members⟩).living) n ∧
      run nextNumber (after History.next steps ⟨s, s.clubs.members⟩).st = (.ok n, (after History.next steps ⟨s, s.clubs.members⟩).st) ∧
      ∀ sid club_name msg m, (run (create_club sid club_name) (after History.next steps ⟨s, s.clubs.members⟩).st).1 = .ok (.created msg m) →
        m = n := by
  have hk : Registered (after History.next steps ⟨s, s.clubs.members⟩) :=
    after_keeps (I := Registered) (fun x _ hk => hk.next x) steps ⟨rfl, h⟩
  generalize after History.next steps ⟨s, s.clubs.members⟩ = h at hk
  refine ⟨by rw [hk.same]; exact h.st.clubs.nodup, ?_⟩
  obtain ⟨n, hn, hleast⟩ := nextIdOf_least hk.proper
  rw [hk.same]
  refine ⟨n, hleast, (ran_nextNumber hn).run, fun sid club_name msg m hcreated => ?_⟩
  have heffect := effect_of (.create sid club_name) h.st
  have hhandler : Req.handler (.create sid club_name) = create_club sid club_name := rfl
  rw [hhandler, hcreated] at heffect
  generalize trace Event (create_club sid club_name) h.st = l at heffect
  generalize (run (create_club sid club_name) h.st).2 = s' at heffect
  cases heffect with
  | nothing r hreq hnew => exact absurd rfl (hnew msg m)
  | create sid club_name ag m hm hcount => exact Except.ok.inj (hm.symm.trans hn)

/-- The club 2039 exists, as far as the list goes. -/
def oneListed : St := { noClubs with clubs := ⟨["2039"], List.nodup_singleton _⟩ }

/-- Ann makes a club, which gets the number 2050, and disbands it. -/
theorem club_numbers_one :
    (after History.next [.request (.create "a" "club")] ⟨oneListed, oneListed.clubs.members⟩).living = ["2050", "2039"] ∧
    (after History.next [.request (.create "a" "club"), .request (.delete "a" "2050")] ⟨oneListed, oneListed.clubs.members⟩).living.Nodup :=
  ⟨by decide +kernel, (club_numbers (fun _ h => ⟨2039, List.mem_singleton.1 h, by decide, by unfold Fourless; decide⟩) _).1⟩

end FishWeb.Club
