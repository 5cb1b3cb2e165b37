import FishWeb.Club.Fresh
import FishWeb.Lib.Past
/-!
# Creations at once

Creations of clubs by any users, interleaved command by command. A creation reads the
list of the clubs and later lists the number after the greatest, and it counts the clubs
of its owner before it adds one. If the list is as it was read when the number is listed,
and the owner still has fewer than ten clubs when one is added, no two creations get one
number, every club keeps its owner, and nobody has more than ten.
-/
open Python Prog Pool Past Script Runs

namespace FishWeb.Club

open Common

/-! ## What a creation shows -/

/-- The list as a creation read it, and what it writes. -/
inductive Act where
  | read (clubs : MemberSet String)
  | listed (club_number : String)
  | recorded (club_user : Option String) (club_number : String)
  | owned (account club_number : String)
  deriving DecidableEq

instance : Note Own Act where
  note
    | .smembersClubs, clubs => [.read clubs]
    | .saddClubs club_number, _ => [.listed club_number]
    | .hmsetAttr club_number attr, _ => [.recorded attr.club_user club_number]
    | .saddOwned account club_number, _ => [.owned account club_number]
    | _, _ => []

instance : Note Cmd Act where
  note
    | .own c, b => Note.note c b
    | .room _, _ => []

/-- What the creation read still holds: the list is as it was, and the owner has fewer than ten clubs. -/
def Act.Current (σ : World Act St) (i : Nat) : Act → Prop
  | .listed _ => .read σ.store.clubs ∈ eventsOf i σ.log
  | .owned account _ => (σ.store.owned account).scard < 10
  | .read _ | .recorded _ _ => True

instance (σ : World Act St) (i : Nat) : (e : Act) → Decidable (e.Current σ i)
  | .listed _ => inferInstanceAs (Decidable (Act.read σ.store.clubs ∈ eventsOf i σ.log))
  | .owned account _ => inferInstanceAs (Decidable ((σ.store.owned account).scard < 10))
  | .read _ | .recorded _ _ => inferInstanceAs (Decidable True)

/-- Every creation writes while what it read still holds. -/
def current : Guard Act Err Cmd St Reply := fun c i evs _ => ∀ e ∈ evs, e.Current c.world i

instance (c : Conf Act Err Cmd St Reply) (i : Nat) (evs : List Act) (c' : Conf Act Err Cmd St Reply) :
    Decidable (current c i evs c') :=
  inferInstanceAs (Decidable (∀ e ∈ evs, e.Current c.world i))

/-- What a creation may do after the acts `l`. -/
inductive Writes (l : List Act) (s : St) : List Act → St → Prop
  | nothing : Writes l s [] s
  | read : Writes l s [.read s.clubs] s
  | list (n : Int) (hn : ∀ t : St, .read t.clubs ∈ l → t.nextIdOf = .ok n) :
    Writes l s [.listed (toString n)] { s with clubs := s.clubs.sadd (toString n) }
  | record (club_number : String) (attr : Attr) (hlisted : .listed club_number ∈ l)
    (hfirst : ∀ club_user m, .recorded club_user m ∉ l) :
    Writes l s [.recorded attr.club_user club_number] (s.setAttr club_number attr)
  | own (account club_number : String) :
    Writes l s [.owned account club_number] { s with owned := SetTable.add s.owned account club_number }

/-- What the user is told of was recorded as his. -/
def Recorded (account : Option String) (l : List Act) (reply : Reply) : Prop :=
  ∀ msg n, reply = .created msg n → .recorded (some (fmt account)) (toString n) ∈ l

section Creation
variable {s₀ : St} {l : List Act}

/-- Rooms and users are those of `s₀`. -/
def SameRooms (s₀ s : St) : Prop := s.room = s₀.room

theorem sameRooms_writes (l : List Act) (s : St) (evs : List Act) (s' : St) (hs : SameRooms s₀ s) (h : Writes l s evs s') :
    SameRooms s₀ s' := by
  cases h <;> exact hs

theorem recorded_msg (account : Option String) (l : List Act) (code : Int) (msg : String) : Recorded account l (.msg code msg) :=
  fun _ _ h => nomatch h

/-- What the shared parts ask shows nothing. -/
theorem silent_ask ⦃β : Type⦄ (a : Ask β) : Silent (SameRooms s₀) Writes (Cmd.room (.ask a)) :=
  fun _ _ => ⟨rfl, fun _ => .nothing⟩

/-- What a part of a creation does, from any store it may find. -/
abbrev Creates {α : Type} (s₀ : St) (Q : List Act → α → Prop) (l : List Act) (p : Handler α) : Prop :=
  Past.Meets (SameRooms s₀) Writes Q l p

theorem creates_create (account : Option String) (n : Int) (club_name ag : String) {clubs : MemberSet String}
    (hn : ∀ t : St, t.clubs = clubs → t.nextIdOf = .ok n) :
    Creates s₀ (fun l _ => .recorded (some (fmt account)) (toString n) ∈ l) [.read clubs]
      (ClubOperation.create_club (fmt account) n club_name ag club_name) := by
  intro s _
  refine ⟨.list n fun t ht => hn t (by simpa using ht), fun s _ => ⟨.record _ _ ?_ ?_, fun s _ => ⟨.own _ _, ?_⟩⟩⟩
  · exact List.mem_append_right _ (List.mem_singleton_self _)
  · simp [Note.note]
  · exact List.mem_append_left _ (List.mem_append_right _ (List.mem_singleton_self _))

theorem creates_infoOf {Q : List Act → Reply → Prop} (sid : String) {f : Info → Handler Reply}
    (h : ∀ info, info.account = s₀.account sid → Creates s₀ Q l (f info)) : Creates s₀ Q l (infoOf sid >>= f) := by
  refine meets_cmd (silent_ask (.hmgetSession sid)) fun s hs => meets_cmd (silent_ask _) fun t _ => h _ ?_
  show (s.room.shared.session sid).map Prod.fst = _
  rw [hs]
  rfl

/-- The number is that of the list as it is read. -/
theorem creates_nextNumber :
    Creates s₀ (fun l' n => ∃ clubs, l' = l ++ [.read clubs] ∧ ∀ t : St, t.clubs = clubs → t.nextIdOf = .ok n) l nextNumber := by
  intro s _
  refine ⟨.read, meets_ofExcept fun club_list hlist => ?_⟩
  cases hn : nextId club_list with
  | error e => trivial
  | ok n =>
    refine ⟨s.clubs, rfl, fun t ht => ?_⟩
    have hints : ints s.clubs.members = .ok club_list := hlist
    rw [St.nextIdOf, ht, ok_bind hints, hn]

theorem creates_tryCreate (sid club_name : String) :
    Creates s₀ (Recorded (s₀.account sid)) [] (tryCreate sid club_name) := by
  unfold tryCreate
  split
  · exact recorded_msg _ _ _ _
  refine creates_infoOf sid fun info haccount => ?_
  split
  · exact fun _ _ h => nomatch h
  refine meets_skip ⟨silent_ask _, fun _ => trivial⟩ fun userTable => ?_
  refine meets_skip ⟨fun _ _ => ⟨rfl, fun _ => .nothing⟩, fun _ => trivial⟩ fun user => meets_orRaise fun ag _ => ?_
  split
  · exact recorded_msg _ _ _ _
  refine meets_skip ⟨fun _ _ => ⟨rfl, fun _ => .nothing⟩, fun _ => trivial⟩ fun owned => ?_
  split
  · exact recorded_msg _ _ _ _
  refine meets_bind creates_nextNumber ?_
  rintro _ n ⟨clubs, rfl, hn⟩
  refine meets_bind (creates_create info.account n club_name ag hn) fun l _ hrecorded => ?_
  rw [haccount] at hrecorded
  rintro msg m ⟨⟩
  exact hrecorded

theorem creates_create_club (sid club_name : String) :
    Creates s₀ (Recorded (s₀.account sid)) [] (create_club sid club_name) := by
  refine meets_bind (P := fun l r => Recorded (s₀.account sid) l (r.toOption.getD (.msg 1 "创建失败")))
    (meets_attempt (creates_tryCreate sid club_name) fun l _ => recorded_msg _ l _ _) fun l r hr => ?_
  cases r <;> exact hr

end Creation

/-! ## Creations of any users -/

/-- What holds of clubs, between any two requests: the list is that of the records and has numerals, and nobody has more than ten. -/
structure Ordered (s : St) : Prop where
  listed : ∀ n, n ∈ s.clubs ↔ (s.attr n).isSome
  numerals : Numerals s.clubs.members
  ten : SetTable.Bounded s.owned 10

/-- The creations so far, from `s₀`: every number listed is new and one creation's, every record is its creator's, and old clubs are
as they were. -/
structure Apart (s₀ : St) (σ : World Act St) : Prop where
  numerals : Numerals σ.store.clubs.members
  ten : SetTable.Bounded σ.store.owned 10
  old : ∀ n, (s₀.attr n).isSome → n ∈ σ.store.clubs ∧ σ.store.attr n = s₀.attr n
  listed : ∀ i n, (i, .listed n) ∈ σ.log → n ∈ σ.store.clubs ∧ s₀.attr n = none
  one : ∀ i j n, (i, .listed n) ∈ σ.log → (j, .listed n) ∈ σ.log → i = j
  recorded : ∀ i club_user n, (i, .recorded club_user n) ∈ σ.log → (i, .listed n) ∈ σ.log ∧ (σ.store.attrOf n).club_user = club_user

/-- An act that neither lists a number nor records a club. -/
theorem Apart.quiet {s₀ : St} {σ : World Act St} {i : Nat} {evs : List Act} {s' : St} (h : Apart s₀ σ)
    (hlisted : ∀ n, .listed n ∉ evs) (hrecorded : ∀ u n, .recorded u n ∉ evs) (hclubs : s'.clubs = σ.store.clubs)
    (hattr : s'.attr = σ.store.attr) (hten : SetTable.Bounded s'.owned 10) : Apart s₀ ⟨s', σ.log ++ evs.map (i, ·)⟩ := by
  have hl : ∀ j n, (j, .listed n) ∈ σ.log ++ evs.map (i, ·) → (j, .listed n) ∈ σ.log := by
    intro j n hj
    simpa [hlisted] using hj
  refine ⟨hclubs ▸ h.numerals, hten, fun n hn => ?_, fun j n hj => ?_, fun j k n hj hk => h.one j k n (hl j n hj) (hl k n hk),
    fun j u n hj => ?_⟩
  · rw [hclubs, hattr]
    exact h.old n hn
  · rw [hclubs]
    exact h.listed j n (hl j n hj)
  · have hold : (j, .recorded u n) ∈ σ.log := by simpa [hrecorded] using hj
    obtain ⟨hlist, huser⟩ := h.recorded j u n hold
    refine ⟨List.mem_append_left _ hlist, ?_⟩
    rw [St.attrOf, hattr]
    exact huser

theorem apart_step {s₀ : St} {σ : World Act St} {i : Nat} {evs : List Act} {s' : St} (hw : Writes (eventsOf i σ.log) σ.store evs s')
    (hc : ∀ e ∈ evs, e.Current σ i) (h : Apart s₀ σ) : Apart s₀ ⟨s', σ.log ++ evs.map (i, ·)⟩ := by
  cases hw with
  | nothing => exact h.quiet (by simp) (by simp) rfl rfl h.ten
  | read => exact h.quiet (by simp) (by simp) rfl rfl h.ten
  | list n hn =>
    -- the list is as it was read, so the number is not on it
    have hread := hc _ (List.mem_singleton_self _)
    obtain ⟨⟨k, hk⟩, hfresh⟩ := nextIdOf_fresh h.numerals (hn σ.store hread)
    have hnone : s₀.attr (toString n) = none := by
      by_contra hsome
      exact hfresh (h.old _ (Option.ne_none_iff_isSome.1 hsome)).1
    have hmem : ∀ j m, (j, .listed m) ∈ σ.log ++ [.listed (toString n)].map (i, ·) →
        (j, .listed m) ∈ σ.log ∨ j = i ∧ m = toString n := by
      intro j m hj
      simpa using hj
    refine ⟨?_, h.ten, fun m hm => ?_, fun j m hj => ?_, fun j j' m hj hj' => ?_, fun j u m hj => ?_⟩
    · rw [hk]
      exact numerals_sadd h.numerals k
    · exact ⟨(MemberSet.mem_sadd _ _ _).2 (.inr (h.old m hm).1), (h.old m hm).2⟩
    · rcases hmem j m hj with hj | ⟨-, rfl⟩
      · exact ⟨(MemberSet.mem_sadd _ _ _).2 (.inr (h.listed j m hj).1), (h.listed j m hj).2⟩
      · exact ⟨(MemberSet.mem_sadd _ _ _).2 (.inl rfl), hnone⟩
    · rcases hmem j m hj with hold | ⟨hi, hm⟩
      · rcases hmem j' m hj' with hold' | ⟨-, hm⟩
        · exact h.one j j' m hold hold'
        · exact absurd (hm ▸ (h.listed j m hold).1) hfresh
      · rcases hmem j' m hj' with hold' | ⟨hi', -⟩
        · exact absurd (hm ▸ (h.listed j' m hold').1) hfresh
        · exact hi.trans hi'.symm
    · have hj' : (j, .recorded u m) ∈ σ.log := by simpa using hj
      exact ⟨List.mem_append_left _ (h.recorded j u m hj').1, (h.recorded j u m hj').2⟩
  | record n attr hlisted hfirst =>
    have hin := h.listed i n (mem_eventsOf.1 hlisted)
    refine ⟨h.numerals, h.ten, fun m hm => ⟨(h.old m hm).1, ?_⟩, fun j m hj => h.listed j m ?_, fun j k m hj hk => h.one j k m ?_ ?_,
      fun j u m hj => ?_⟩
    · -- the old clubs are others
      have hne : m ≠ n := by
        rintro rfl
        rw [hin.2] at hm
        cases hm
      show Function.update σ.store.attr n _ m = _
      rw [Function.update_of_ne hne]
      exact (h.old m hm).2
    · simpa using hj
    · simpa using hj
    · simpa using hk
    · have hmem : (j, .recorded u m) ∈ σ.log ∨ j = i ∧ u = attr.club_user ∧ m = n := by simpa using hj
      rw [attrOf_setAttr]
      rcases hmem with hold | ⟨rfl, rfl, rfl⟩
      · obtain ⟨hl, hu⟩ := h.recorded j u m hold
        have hne : m ≠ n := by
          -- the number is of one creation, which has recorded nothing before
          rintro rfl
          obtain rfl := h.one j i m hl (mem_eventsOf.1 hlisted)
          exact hfirst u m (mem_eventsOf.2 hold)
        rw [if_neg hne]
        exact ⟨List.mem_append_left _ hl, hu⟩
      · rw [if_pos rfl]
        exact ⟨List.mem_append_left _ (mem_eventsOf.1 hlisted), rfl⟩
  | own account n => exact h.quiet (by simp) (by simp) rfl rfl (h.ten.add (hc _ (List.mem_singleton_self _)))

/-! ### From any history -/

theorem Ordered.effect {s : St} {req : Req} {r : Except Err Reply} {l : List Event} {s' : St} (ho : Ordered s)
    (h : Effect s req r l s') : Ordered s' := by
  cases h with
  | create sid club_name ag n hn hcount =>
    obtain ⟨⟨k, rfl⟩, -⟩ := nextIdOf_fresh ho.numerals hn
    exact ⟨listed_create ho.listed, numerals_sadd ho.numerals k, ho.ten.add hcount⟩
  | delete sid n hclub howner =>
    exact ⟨listed_disband ho.listed, fun m hm => ho.numerals m ((MemberSet.mem_srem _ _ _).1 hm).2, ho.ten.remove⟩
  | edit sid n club_content hclub hmay => exact ⟨listed_setAttr ho.listed hclub, ho.numerals, ho.ten⟩
  | manager req n data hclub hreq => exact ⟨listed_setAttr ho.listed hclub, ho.numerals, ho.ten⟩
  | audit sid n user status r items audit joined hnew hmay hitems hnone hjoined =>
    split <;> exact ⟨ho.listed, ho.numerals, ho.ten⟩
  | _ => exact ⟨ho.listed, ho.numerals, ho.ten⟩

theorem ordered_after (room : Room.St) (profile : String → Profile) (steps : List Step) :
    Ordered (after step steps (init room profile)) := by
  refine after_keeps (fun x s ho => ?_) steps ⟨fun n => ?_, fun n hn => absurd hn List.not_mem_nil, fun account => ?_⟩
  · cases x with
    | request req => exact ho.effect (effect_of req s)
    | elsewhere room profile => exact ⟨ho.listed, ho.numerals, ho.ten⟩
  · simp [init]
  · exact Nat.zero_le 10

/-- Creations from `s₀`, a sid and a name each, that have not begun. -/
def creations (s₀ : St) (requests : List (String × String)) : Conf Act Err Cmd St Reply :=
  ⟨⟨s₀, []⟩, requests.map fun r => create_club r.1 r.2⟩

/-- Creation `i` has succeeded, with the number `n`. -/
def Told (c : Conf Act Err Cmd St Reply) (i : Nat) (n : Int) : Prop := ∃ msg, c.progs[i]? = some (Prog.ret (.created msg n))

/-- No two creations have told one number, every club is its creator's, the old ones are whose they were, and nobody has more
than ten. -/
structure Safe (s₀ : St) (requests : List (String × String)) (c : Conf Act Err Cmd St Reply) : Prop where
  numbers : ∀ i j n, Told c i n → Told c j n → i = j
  owner : ∀ i sid club_name n, requests[i]? = some (sid, club_name) → Told c i n →
    (c.world.store.attrOf (toString n)).club_user = some (fmt (s₀.account sid))
  old : ∀ n, (s₀.attr n).isSome → (c.world.store.attrOf n).club_user = (s₀.attrOf n).club_user
  ten : ∀ account, (c.world.store.owned account).scard ≤ 10

section Run
variable {s₀ : St} {requests : List (String × String)} {c : Conf Act Err Cmd St Reply}

/-- What creation `i` records when it succeeds. -/
def Ends (s₀ : St) (requests : List (String × String)) (i : Nat) (l : List Act) (reply : Reply) : Prop :=
  ∃ r, requests[i]? = some r ∧ Recorded (s₀.account r.1) l reply

theorem known_creations : Known (SameRooms s₀) Writes (Ends s₀ requests) (creations s₀ requests) := by
  refine known_start (show SameRooms s₀ s₀ from rfl) fun i p hp => ?_
  obtain ⟨r, hr, rfl⟩ : ∃ r, requests[i]? = some r ∧ create_club r.1 r.2 = p := by
    simpa [creations, List.getElem?_map] using hp
  exact (creates_create_club r.1 r.2).mono fun l reply h => ⟨r, hr, h⟩

theorem apart_reach (ho : Ordered s₀) (hr : Reach current (creations s₀ requests) c) :
    Known (SameRooms s₀) Writes (Ends s₀ requests) c ∧ Apart s₀ c.world := by
  refine reach_inv (I := fun c => Known (SameRooms s₀) Writes (Ends s₀ requests) c ∧ Apart s₀ c.world) ?_ hr ⟨known_creations, ?_⟩
  · rintro d d' hs ⟨hk, ha⟩
    refine ⟨known_step sameRooms_writes hs hk, ?_⟩
    obtain ⟨σ, pre, post, b, k, hg⟩ := hs
    exact apart_step (hk.meets pre.length (.cmd b k) (by simp) σ.store hk.store).1 hg ha
  · exact ⟨ho.numerals, ho.ten, fun n hn => ⟨(ho.listed n).2 hn, rfl⟩, by simp [creations], by simp [creations], by simp [creations]⟩

end Run

/-- After any history of the clubs, in every interleaving of creations that write while what they read still holds. -/
theorem creations_safe (room : Room.St) (profile : String → Profile) (steps : List Step) (requests : List (String × String))
    {c : Conf Act Err Cmd St Reply} (hr : Reach current (creations (after step steps (init room profile)) requests) c) :
    Safe (after step steps (init room profile)) requests c := by
  obtain ⟨hk, ha⟩ := apart_reach (ordered_after room profile steps) hr
  have hrecorded : ∀ i n, Told c i n → ∃ r, requests[i]? = some r ∧
      (i, .recorded (some (fmt ((after step steps (init room profile)).account r.1))) (toString n)) ∈ c.world.log := by
    rintro i n ⟨msg, hret⟩
    obtain ⟨r, hr, h⟩ := hk.returned hret
    exact ⟨r, hr, mem_eventsOf.1 (h msg n rfl)⟩
  refine ⟨fun i j n hi hj => ?_, fun i sid club_name n hreq hi => ?_, fun n hn => ?_, ha.ten⟩
  · obtain ⟨r, -, hr⟩ := hrecorded i n hi
    obtain ⟨r', -, hr'⟩ := hrecorded j n hj
    exact ha.one i j _ (ha.recorded _ _ _ hr).1 (ha.recorded _ _ _ hr').1
  · obtain ⟨r, hr, h⟩ := hrecorded i n hi
    obtain rfl : (sid, club_name) = r := Option.some.inj (hreq.symm.trans hr)
    exact (ha.recorded _ _ _ h).2
  · rw [St.attrOf, (ha.old n hn).2]
    rfl

/-- Ann's and Bob's creations. -/
def twoCreations : List (String × String) := [("a", "club"), ("b", "next")]

/-- One after the other. -/
theorem creations_safe_two : Safe noClubs twoCreations (turns (List.replicate 12 0 ++ List.replicate 12 1) (creations noClubs twoCreations)) :=
  creations_safe threeUsers profileOf [] twoCreations (reach_turns (by decide +kernel))

/-- Both read the list before either lists its number. -/
theorem creations_collide : ∃ c, Reach noGuard (creations noClubs twoCreations) c ∧ ¬Safe noClubs twoCreations c := by
  refine ⟨_, reach_turns (allowed_noGuard (List.replicate 6 0 ++ List.replicate 6 1 ++ List.replicate 6 0 ++ List.replicate 6 1) _), ?_⟩
  intro h
  have hsame := h.numbers 0 1 2000 ⟨"创建成功", rfl⟩ ⟨"创建成功", rfl⟩
  cases hsame

end FishWeb.Club
