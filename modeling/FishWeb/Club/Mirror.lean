import FishWeb.Club.Numbers
import FishWeb.Lib.Runs
/-!
# Members and their clubs

The members of a club and the clubs of an account are kept by the same requests, and a
club that is disbanded takes both away. An application outlives its club, so who makes a
new club under its number can be let in by it.
-/
open Python Prog Runs

namespace FishWeb.Club

open Common

/-! ## The mirror -/

/-- An account is a member of a club iff the club is one of its clubs; these clubs exist, and no owner is his own member. -/
structure Mirror (s : St) : Prop where
  same : ∀ account n, Plain n → (account ∈ s.players (playerList n) ↔ n ∈ s.players (playerToClubList account))
  exists_ : ∀ account n, n ∈ s.players (playerToClubList account) → (s.attr n).isSome
  owner : ∀ account n, (s.attrOf n).club_user = some account → account ∉ s.players (playerList n)

/-- What keeps the mirror: besides, the list of the clubs is that of their records, and has numerals. -/
structure Inv (s : St) : Prop extends Mirror s where
  listed : ∀ n, n ∈ s.clubs ↔ (s.attr n).isSome
  numerals : Numerals s.clubs.members

theorem Inv.plain {s : St} (hi : Inv s) {n : String} (h : (s.attr n).isSome) : Plain n := by
  obtain ⟨k, rfl⟩ := hi.numerals n ((hi.listed n).2 h)
  exact plain_toString k

/-- A club that does not exist has no members. -/
theorem Inv.no_members {s : St} (hi : Inv s) {n : String} (hn : Plain n) (h : s.attr n = none) (account : String) :
    account ∉ s.players (playerList n) := by
  intro hm
  have hex := hi.exists_ account n ((hi.same account n hn).1 hm)
  rw [h] at hex
  cases hex

section Sets
variable {s : St} {account n : String}

theorem mem_join {b j : String} : b ∈ (s.join account n).players j ↔
    (j = playerList n ∧ b = account) ∨ (j = playerToClubList account ∧ b = n) ∨ b ∈ s.players j := by
  show b ∈ SetTable.add (SetTable.add s.players (playerToClubList account) n) (playerList n) account j ↔ _
  rw [SetTable.mem_add, SetTable.mem_add]

theorem mem_leave {b j : String} : b ∈ (s.leave account n).players j ↔
    ¬(j = playerToClubList account ∧ b = n) ∧ ¬(j = playerList n ∧ b = account) ∧ b ∈ s.players j := by
  show b ∈ SetTable.remove (SetTable.remove s.players (playerList n) account) (playerToClubList account) n j ↔ _
  rw [SetTable.mem_remove, SetTable.mem_remove]

theorem mem_foldl_remove {l : List String} {t : String → MemberSet String} {b j : String} :
    b ∈ l.foldl (fun t player => SetTable.remove t (playerToClubList player) n) t j ↔
      ¬(b = n ∧ ∃ player ∈ l, j = playerToClubList player) ∧ b ∈ t j := by
  induction l generalizing t with
  | nil => simp
  | cons player l ih =>
    rw [List.foldl_cons, ih, SetTable.mem_remove, ← and_assoc, ← not_or]
    refine and_congr_left fun _ => not_congr ?_
    constructor
    · rintro (⟨hb, p, hp, hj⟩ | ⟨hj, hb⟩)
      · exact ⟨hb, p, List.mem_cons_of_mem player hp, hj⟩
      · exact ⟨hb, player, List.mem_cons_self, hj⟩
    · rintro ⟨hb, p, hp, hj⟩
      rcases List.mem_cons.1 hp with rfl | hp
      · exact .inr ⟨hj, hb⟩
      · exact .inl ⟨hb, p, hp, hj⟩

theorem mem_disband {l : List String} {b j : String} : b ∈ (s.disband n account l).players j ↔
    j ≠ playerList n ∧ ¬(b = n ∧ ∃ player ∈ l, j = playerToClubList player) ∧ b ∈ s.players j := by
  show b ∈ (Function.update (l.foldl (fun t player => SetTable.remove t (playerToClubList player) n) s.players) (playerList n) ∅ :
    String → MemberSet String) j ↔ _
  by_cases hj : j = playerList n
  · rw [hj, Function.update_self]
    exact ⟨fun h => absurd h (MemberSet.not_mem_empty b), fun h => absurd rfl h.1⟩
  · rw [Function.update_of_ne hj, mem_foldl_remove]
    simp [hj]

/-- The list of the clubs goes with their records. -/
theorem listed_create {club_name ag : String} {k : Int} (h : ∀ m, m ∈ s.clubs ↔ (s.attr m).isSome) (m : String) :
    m ∈ (s.create account k club_name ag).clubs ↔ ((s.create account k club_name ag).attr m).isSome := by
  show m ∈ s.clubs.sadd (toString k) ↔ (Function.update s.attr (toString k) _ m).isSome
  rw [MemberSet.mem_sadd, h]
  by_cases hm : m = toString k
  · subst hm
    simp
  · rw [Function.update_of_ne hm]
    exact or_iff_right hm

theorem listed_disband {l : List String} (h : ∀ m, m ∈ s.clubs ↔ (s.attr m).isSome) (m : String) :
    m ∈ (s.disband n account l).clubs ↔ ((s.disband n account l).attr m).isSome := by
  show m ∈ s.clubs.srem n ↔ (Function.update s.attr n none m).isSome
  rw [MemberSet.mem_srem, h]
  by_cases hm : m = n
  · subst hm
    simp
  · simp [hm]

theorem listed_setAttr {attr : Attr} (h : ∀ m, m ∈ s.clubs ↔ (s.attr m).isSome) (hn : (s.attr n).isSome) (m : String) :
    m ∈ (s.setAttr n attr).clubs ↔ ((s.setAttr n attr).attr m).isSome := by
  show m ∈ s.clubs ↔ (Function.update s.attr n (some attr) m).isSome
  rw [h]
  by_cases hm : m = n
  · subst hm
    simp [hn]
  · simp [hm]

theorem numerals_sadd {clubs : MemberSet String} (h : Numerals clubs.members) (k : Nat) :
    Numerals (clubs.sadd (toString (k : Int))).members := by
  intro m hm
  rcases (MemberSet.mem_sadd _ _ _).1 hm with rfl | hm
  · exact ⟨k, rfl⟩
  · exact h m hm

theorem attrOf_setAttr {attr : Attr} {m : String} : (s.setAttr n attr).attrOf m = if m = n then attr else s.attrOf m := by
  unfold St.attrOf St.setAttr
  by_cases hm : m = n
  · subst hm
    simp
  · simp [hm]

end Sets

/-! ## Each effect -/

section Keeps
variable {s : St}

theorem Inv.join {account n : String} (hi : Inv s) (hn : (s.attr n).isSome) (howner : (s.attrOf n).club_user ≠ some account) :
    Inv (s.join account n) where
  listed := hi.listed
  numerals := hi.numerals
  same := by
    intro b m hm
    rw [mem_join, mem_join, hi.same b m hm]
    have h1 : playerList m ≠ playerToClubList account := hm account
    have h2 : playerToClubList b ≠ playerList n := fun h => hi.plain hn b h.symm
    have h3 : playerToClubList b = playerToClubList account ↔ b = account := ⟨playerToClubList_inj, fun h => h ▸ rfl⟩
    have h4 : playerList m = playerList n ↔ m = n := Iff.rfl
    simp only [h1, h2, h3, h4, false_and, false_or]
    rw [and_comm]
  exists_ := by
    intro b m hm
    rcases mem_join.1 hm with ⟨hj, -⟩ | ⟨-, rfl⟩ | hm
    · exact absurd hj.symm (hi.plain hn b)
    · exact hn
    · exact hi.exists_ b m hm
  owner := by
    intro b m hb hm
    have hplain : Plain m := by
      refine hi.plain ?_
      cases hattr : s.attr m with
      | none =>
        have hnone : (s.attrOf m).club_user = none := by simp [St.attrOf, hattr, Attr.empty]
        rw [show ((s.join account n).attrOf m).club_user = (s.attrOf m).club_user from rfl, hnone] at hb
        cases hb
      | some attr => rfl
    rcases mem_join.1 hm with ⟨hj, rfl⟩ | ⟨hj, -⟩ | hm
    · obtain rfl : m = n := hj
      exact howner hb
    · exact hplain account hj
    · exact hi.owner b m hb hm

/-- A member leaves; the text of the club may be any, if nothing is stored under it as under a set of clubs. -/
theorem Inv.leave {account n : String} (hi : Inv s) (hn : ∀ b, n = playerToClubList b → account ∉ s.players n) :
    Inv (s.leave account n) where
  listed := hi.listed
  numerals := hi.numerals
  same := by
    intro b m hm
    rw [mem_leave, mem_leave, hi.same b m hm]
    have h1 : playerList m ≠ playerToClubList account := hm account
    have h3 : playerToClubList b = playerToClubList account ↔ b = account := ⟨playerToClubList_inj, fun h => h ▸ rfl⟩
    have h4 : playerList m = playerList n ↔ m = n := Iff.rfl
    simp only [h1, h3, h4, false_and, not_false_eq_true, true_and]
    by_cases hmem : m ∈ s.players (playerToClubList b)
    · have hsame : ¬(playerToClubList b = playerList n ∧ m = account) := by
        rintro ⟨hj, rfl⟩
        refine hn b hj.symm ?_
        rwa [show n = playerToClubList b from hj.symm]
      simp [hmem, hsame, and_comm]
    · simp [hmem]
  exists_ := by
    intro b m hm
    exact hi.exists_ b m (mem_leave.1 hm).2.2
  owner := by
    intro b m hb hm
    exact hi.owner b m hb (mem_leave.1 hm).2.2

theorem Inv.disband {account n : String} (hi : Inv s) (hn : (s.attr n).isSome) :
    Inv (s.disband n account (s.players (playerList n)).members) where
  listed := listed_disband hi.listed
  numerals := fun m hm => hi.numerals m ((MemberSet.mem_srem _ _ _).1 hm).2
  same := by
    intro b m hm
    have hplain := hi.plain hn
    rw [mem_disband, mem_disband, hi.same b m hm]
    have h1 : ¬(b = n ∧ ∃ player ∈ (s.players (playerList n)).members, playerList m = playerToClubList player) := by
      rintro ⟨-, p, -, hp⟩
      exact hm p hp
    have h2 : playerToClubList b ≠ playerList n := fun h => hplain b h.symm
    have h3 : (∃ player ∈ (s.players (playerList n)).members, playerToClubList b = playerToClubList player) ↔
        b ∈ s.players (playerList n) := by
      constructor
      · rintro ⟨p, hp, heq⟩
        rwa [playerToClubList_inj heq]
      · intro hb
        exact ⟨b, hb, rfl⟩
    simp only [h1, h2, h3, not_false_eq_true, true_and, ne_eq]
    refine and_congr_left fun hmem => ?_
    constructor
    · rintro hne ⟨rfl, -⟩
      exact hne rfl
    · intro hno heq
      obtain rfl : m = n := heq
      exact hno ⟨rfl, (hi.same b m hm).2 hmem⟩
  exists_ := by
    intro b m hm
    obtain ⟨-, hno, hmem⟩ := mem_disband.1 hm
    have hne : m ≠ n := by
      rintro rfl
      exact hno ⟨rfl, b, (hi.same b m (hi.plain hn)).2 hmem, rfl⟩
    show (Function.update s.attr n none m).isSome
    rw [Function.update_of_ne hne]
    exact hi.exists_ b m hmem
  owner := by
    intro b m hb hm
    obtain ⟨hne, -, hmem⟩ := mem_disband.1 hm
    have hmn : m ≠ n := hne
    have hattr : (s.disband n account (s.players (playerList n)).members).attrOf m = s.attrOf m := by
      show (Function.update s.attr n none m).getD .empty = _
      rw [Function.update_of_ne hmn]
      rfl
    rw [hattr] at hb
    exact hi.owner b m hb hmem

theorem Inv.create {account club_name ag : String} {n : Int} (hi : Inv s) (hn : s.nextIdOf = .ok n) :
    Inv (s.create account n club_name ag) := by
  obtain ⟨⟨k, rfl⟩, hfresh⟩ := nextIdOf_fresh hi.numerals hn
  have hnone : s.attr (toString (k : Int)) = none := by
    rw [hi.listed] at hfresh
    simpa using hfresh
  have hplain : Plain (toString (k : Int)) := plain_toString k
  exact {
    listed := listed_create hi.listed
    numerals := numerals_sadd hi.numerals k
    same := hi.same
    exists_ := by
      intro b m hm
      show (Function.update s.attr (toString (k : Int)) _ m).isSome
      by_cases heq : m = toString (k : Int)
      · subst heq
        simp
      · rw [Function.update_of_ne heq]
        exact hi.exists_ b m hm
    owner := by
      intro b m hb hm
      by_cases heq : m = toString (k : Int)
      · subst heq
        exact hi.no_members hplain hnone b hm
      · have hattr : (s.create account k club_name ag).attrOf m = s.attrOf m := by
          show (Function.update s.attr (toString (k : Int)) _ m).getD .empty = _
          rw [Function.update_of_ne heq]
          rfl
        rw [hattr] at hb
        exact hi.owner b m hb hm }

/-- The record of a club changes, but not who made it. -/
theorem Inv.setAttr {n : String} {attr : Attr} (hi : Inv s) (hn : (s.attr n).isSome) (hattr : attr.club_user = (s.attrOf n).club_user) :
    Inv (s.setAttr n attr) where
  listed := listed_setAttr hi.listed hn
  numerals := hi.numerals
  same := hi.same
  exists_ := by
    intro b m hm
    show (Function.update s.attr n (some attr) m).isSome
    by_cases heq : m = n
    · subst heq
      simp
    · rw [Function.update_of_ne heq]
      exact hi.exists_ b m hm
  owner := by
    intro b m hb hm
    rw [attrOf_setAttr] at hb
    refine hi.owner b m ?_ hm
    split at hb
    · rename_i heq
      rw [heq, ← hattr]
      exact hb
    · exact hb

/-- What the step asks of the state before it. A join without a session is one of the account `'None'`; an accepted application
is not one of the owner; and the text of a club that is left is not that of somebody's set of clubs with the account in it. -/
def Keeps : Step → St → Prop
  | .request (.join sid n), s => s.account sid = none → (s.attrOf n).club_user ≠ some "None"
  | .request (.audit _ n user status), s => int status = some 1 → (s.attrOf n).club_user ≠ some user
  | .request (.signOut sid n), s => ∀ account, n = playerToClubList account → fmt (s.account sid) ∉ s.players n
  | _, _ => True

theorem Inv.effect {req : Req} {r : Except Err Reply} {l : List Event} {s' : St} (hi : Inv s) (hk : Keeps (.request req) s)
    (h : Effect s req r l s') : Inv s' := by
  cases h with
  | nothing | roomNotMember | roomNotAllowed | roomRefused => exact hi
  | create sid club_name ag n hn hcount => exact hi.create hn
  | delete sid n hclub howner => exact hi.disband hclub
  | edit sid n club_content hclub hmay => exact hi.setAttr hclub rfl
  | manager req n data hclub hreq => exact hi.setAttr hclub rfl
  | join sid n hclub howner =>
    refine hi.join hclub fun heq => ?_
    cases hacct : s.account sid with
    | none => exact hk hacct (by rw [heq, hacct]; rfl)
    | some a => exact howner (by rw [heq, hacct]; rfl)
  | signOut sid n => exact hi.leave hk
  | forceOut builder_sid member n hclub hmay => exact hi.leave fun b hb => absurd hb (hi.plain hclub b)
  | apply sid n item hclub howner => exact ⟨⟨hi.same, hi.exists_, hi.owner⟩, hi.listed, hi.numerals⟩
  | audit sid n user status r items audit joined hnew hmay hitems hnone hjoined =>
    have hset : Inv (s.setAudit n audit) := ⟨⟨hi.same, hi.exists_, hi.owner⟩, hi.listed, hi.numerals⟩
    split
    · rename_i hj
      obtain ⟨hclub, hstatus⟩ := hjoined hj
      exact hset.join hclub (hk hstatus)
    · exact hset
  | allow sid n settingAllow hclub hlives => exact ⟨⟨hi.same, hi.exists_, hi.owner⟩, hi.listed, hi.numerals⟩
  | auto sid n gameid rule id ag hclub hlives => exact ⟨⟨hi.same, hi.exists_, hi.owner⟩, hi.listed, hi.numerals⟩
  | clear sid n l auto autoList hclub hlives hl hauto => exact ⟨⟨hi.same, hi.exists_, hi.owner⟩, hi.listed, hi.numerals⟩
  | room form r room l hclub hlives hmember => exact ⟨⟨hi.same, hi.exists_, hi.owner⟩, hi.listed, hi.numerals⟩

theorem Inv.step {x : Step} (hk : Keeps x s) (hi : Inv s) : Inv (step x s) := by
  cases x with
  | request req => exact hi.effect hk (effect_of req s)
  | elsewhere room profile => exact ⟨⟨hi.same, hi.exists_, hi.owner⟩, hi.listed, hi.numerals⟩

theorem inv_init (room : Room.St) (profile : String → Profile) : Inv (init room profile) where
  same _ _ _ := by simp [init]
  exists_ _ _ h := absurd h (MemberSet.not_mem_empty _)
  owner _ _ _ := MemberSet.not_mem_empty _
  listed _ := by simp [init]
  numerals _ h := absurd h List.not_mem_nil

end Keeps

/-- In every run from no clubs whose steps are of `Keeps`, members and clubs mirror each other. -/
theorem members_mirrored (room : Room.St) (profile : String → Profile) (steps : List Step) (h : All step Keeps steps (init room profile)) :
    Mirror (after step steps (init room profile)) :=
  (after_inv (fun _ _ hk hi => Inv.step hk hi) h (inv_init room profile)).toMirror

/-! ## Two users -/

/-- Ann, Bob and Cid are of guild 7. -/
def threeUsers : Room.St :=
  { hallOfOne with
    shared := { hallOfOne.shared with
      session := fun sid =>
        if sid = "a" then some ("ann", "1") else if sid = "b" then some ("bob", "2") else if sid = "c" then some ("cid", "3") else none
      userTable := fun account =>
        if account = "ann" then some "users:1" else if account = "bob" then some "users:2"
        else if account = "cid" then some "users:3" else none } }

def profileOf (userTable : String) : Profile :=
  if userTable = "users:2" then ⟨some "B", some "b.png", some "bob"⟩ else ⟨none, none, none⟩

def noClubs : St := init threeUsers profileOf

/-- Ann's club is joined and left. -/
def joined : List Step :=
  [.request (.create "a" "club"), .request (.apply "b" "2000"), .request (.audit "a" "2000" "bob" "1"), .request (.signOut "b" "2000")]

theorem members_mirrored_joined : Mirror (after step joined noClubs) :=
  members_mirrored threeUsers profileOf joined
    ⟨trivial, trivial, fun _ => by decide +kernel, fun account h => absurd h (plain_toString 2000 account), trivial⟩

/-- Bob applies at Ann's club, which she disbands; he makes a club of that number, and lets himself in. -/
def takenOver : List Step :=
  [.request (.create "a" "club"), .request (.apply "b" "2000"), .request (.delete "a" "2000"), .request (.create "b" "club"),
    .request (.audit "b" "2000" "bob" "1")]

theorem owner_is_member : ¬Mirror (after step takenOver noClubs) := by
  intro h
  have howner : ((after step takenOver noClubs).attrOf "2000").club_user = some "bob" := by decide +kernel
  have hmember : "bob" ∈ (after step takenOver noClubs).players (playerList "2000") := by decide +kernel
  exact h.owner "bob" "2000" howner hmember

end FishWeb.Club
