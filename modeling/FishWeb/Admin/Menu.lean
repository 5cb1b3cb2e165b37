import FishWeb.Lib.Python
import FishWeb.Admin.Access
/-!
# The menu of the back office

`common/menu_util.py`: one pass over a table of menu entries, with the entries that the
session may open. A checked entry opens a main module, an entry of one name a submodule of
it, and an entry of two names goes under the submodule that `j` points at. `j` counts the
submodules of one name only, so the entries of two names that stand before them shift it.
-/

namespace FishWeb.Admin

open Python

/-! ## The pass -/

structure SubsubModule where
  url : String
  txt : String
  deriving Repr, DecidableEq

structure SubModule where
  url : String
  txt : String
  subsubModules : List SubsubModule
  deriving Repr, DecidableEq

structure MainModule where
  url : String
  txt : String
  subModules : List SubModule
  deriving Repr, DecidableEq

/-- `mainModules`, `i` and `j` of the loop. -/
structure Menus where
  mainModules : List MainModule
  i : Int
  j : Int
  deriving Repr, DecidableEq

/-- Where `l[i]` is in a list of `n`: a negative `i` counts from the end. -/
def position (n : Nat) (i : Int) : Option Nat :=
  if 0 ≤ i then if i < n then some i.toNat else none
  else if 0 ≤ n + i then some (n + i).toNat else none

/-- `l[i]` changed in place. -/
def changeAt {α : Type} (l : List α) (i : Int) (f : α → Except Err α) : Except Err (List α) :=
  match position l.length i with
  | none => .error .IndexError
  | some k =>
    match l[k]? with
    | none => .error .IndexError
    | some a => do return l.set k (← f a)

def AccessObj.getTxt (lang : String → Option String) (o : AccessObj) : Except Err String :=
  match lang o.field with
  | none => .error .AttributeError
  | some txt => .ok txt

/-- One round of `init_menus`. -/
def initMenu (lang : String → Option String) (access : List String) (m : Menus) (o : AccessObj) : Except Err Menus :=
  if o.check ∧ o.url ∈ access then do
    let txt ← o.getTxt lang
    return ⟨m.mainModules ++ [⟨o.url, txt, []⟩], m.i + 1, -1⟩
  else if o.tree.len ≠ 2 ∧ o.url ∈ access then do
    let txt ← o.getTxt lang
    let mains ← changeAt m.mainModules m.i fun x => .ok { x with subModules := x.subModules ++ [⟨o.url, txt, []⟩] }
    return ⟨mains, m.i, m.j + 1⟩
  else if o.tree.len = 2 ∧ o.url ∈ access then
    if m.j = -1 then do
      let txt ← o.getTxt lang
      let mains ← changeAt m.mainModules m.i fun x => .ok { x with subModules := x.subModules ++ [⟨o.url, txt, []⟩] }
      return ⟨mains, m.i, m.j⟩
    else do
      let txt ← o.getTxt lang
      let mains ← changeAt m.mainModules m.i fun x => do
        let subs ← changeAt x.subModules m.j fun s => .ok { s with subsubModules := s.subsubModules ++ [⟨o.url, txt⟩] }
        return { x with subModules := subs }
      return ⟨mains, m.i, m.j⟩
  else .ok m

def initMenus (lang : String → Option String) (access : List String) (menus : List AccessObj) : Except Err (List MainModule) := do
  let m ← menus.foldlM (initMenu lang access) ⟨[], -1, -1⟩
  return m.mainModules

/-- The entries that the session may open. -/
def shown (access : List String) (menus : List AccessObj) : List AccessObj := menus.filter fun o => o.url ∈ access

/-! ## The outline of a table -/

abbrev Main := { o : AccessObj // o.check = true }

abbrev Sub := { o : AccessObj // o.check = false ∧ o.tree.len ≠ 2 }

abbrev Leaf := { o : AccessObj // o.check = false ∧ o.tree.len = 2 }

/-- A submodule with the entries that stand under it in the table. -/
structure Group where
  head : Sub
  leaves : List Leaf

/-- A main module: the entries that stand before its first submodule, and its submodules. -/
structure Branch where
  head : Main
  direct : List Leaf
  groups : List Group

def Group.entries (g : Group) : List AccessObj := g.head.1 :: g.leaves.map Subtype.val

def Branch.entries (b : Branch) : List AccessObj := b.head.1 :: (b.direct.map Subtype.val ++ b.groups.flatMap Group.entries)

section Shown
variable (lang : String → Option String)

def AccessObj.txt (o : AccessObj) : String := (lang o.field).getD ""

def AccessObj.link (o : AccessObj) : SubsubModule := ⟨o.url, o.txt lang⟩

def AccessObj.sub (o : AccessObj) (links : List SubsubModule) : SubModule := ⟨o.url, o.txt lang, links⟩

def Group.links (g : Group) : List SubsubModule := g.leaves.map fun o => o.1.link lang

/-- The submodules of a branch, before any entry is under one. -/
def Branch.heads (b : Branch) : List AccessObj := b.direct.map Subtype.val ++ b.groups.map fun g => g.head.1

/-- The menu that the table asks for: every entry under its own submodule. -/
def Branch.menu (b : Branch) : MainModule :=
  ⟨b.head.1.url, b.head.1.txt lang,
    b.direct.map (fun o => o.1.sub lang []) ++ b.groups.map fun g => g.head.1.sub lang (g.links lang)⟩

/-- The menu that comes out: the entries of the first submodule under what stands first. -/
def Branch.filed (b : Branch) : MainModule :=
  ⟨b.head.1.url, b.head.1.txt lang,
    List.zipWith (AccessObj.sub lang) b.heads (b.groups.map (Group.links lang) ++ List.replicate b.direct.length [])⟩

end Shown

/-- The urls of a menu, from the top. -/
def MainModule.urls (x : MainModule) : List String :=
  x.url :: x.subModules.flatMap fun s => s.url :: s.subsubModules.map SubsubModule.url

/-- Every list whose first entry is checked is the entries of its branches. -/
theorem exists_branches (l : List AccessObj) :
    ∃ (direct : List Leaf) (groups : List Group) (bs : List Branch),
      l = direct.map Subtype.val ++ groups.flatMap Group.entries ++ bs.flatMap Branch.entries := by
  induction l with
  | nil => exact ⟨[], [], [], rfl⟩
  | cons o l ih =>
    obtain ⟨direct, groups, bs, rfl⟩ := ih
    by_cases hmain : o.check = true
    · exact ⟨[], [], ⟨⟨o, hmain⟩, direct, groups⟩ :: bs, by simp [Branch.entries]⟩
    have hplain : o.check = false := by simpa using hmain
    by_cases hleaf : o.tree.len = 2
    · exact ⟨⟨o, hplain, hleaf⟩ :: direct, groups, bs, by simp⟩
    · exact ⟨[], ⟨⟨o, hplain, hleaf⟩, direct⟩ :: groups, bs, by simp [Group.entries]⟩

theorem branches_of_head {l : List AccessObj} (h : ∀ o ∈ l.head?, o.check = true) : ∃ bs : List Branch, bs.flatMap Branch.entries = l := by
  obtain ⟨direct, groups, bs, rfl⟩ := exists_branches l
  cases direct with
  | cons o direct =>
    have := h o.1 (by simp)
    exact absurd this (by simp [o.2.1])
  | nil =>
    cases groups with
    | cons g groups =>
      have := h g.head.1 (by simp [Group.entries])
      exact absurd this (by simp [g.head.2.1])
    | nil => exact ⟨bs, by simp⟩

/-! ## What the pass gives -/

section Pass
variable {lang : String → Option String} {access : List String}

theorem changeAt_mid {α : Type} (l₁ l₂ : List α) (a : α) (f : α → Except Err α) :
    changeAt (l₁ ++ a :: l₂) l₁.length f = (f a).map fun b => l₁ ++ b :: l₂ := by
  have hpos : position (l₁ ++ a :: l₂).length l₁.length = some l₁.length := by
    unfold position
    rw [if_pos (by omega), if_pos (by simp), Int.toNat_natCast]
  rw [changeAt, hpos]
  simp only [List.getElem?_append_right (Nat.le_refl _), Nat.sub_self, List.getElem?_cons_zero]
  cases f a with
  | error e => rfl
  | ok b => simp [Except.map, pure, Except.pure, bind, Except.bind, List.set_append_right]

theorem getTxt_of_shown {o : AccessObj} (h : lang o.field ≠ none) : o.getTxt lang = .ok (o.txt lang) := by
  unfold AccessObj.getTxt AccessObj.txt
  cases hl : lang o.field with
  | none => exact absurd hl h
  | some txt => rfl

/-- What the session may not open changes nothing. -/
theorem foldlM_shown (menus : List AccessObj) (m : Menus) :
    menus.foldlM (initMenu lang access) m = (shown access menus).foldlM (initMenu lang access) m := by
  induction menus generalizing m with
  | nil => rfl
  | cons o menus ih =>
    by_cases ho : o.url ∈ access
    · rw [shown, List.filter_cons_of_pos (by simpa using ho), List.foldlM_cons, List.foldlM_cons]
      exact bind_congr fun m => ih m
    · rw [shown, List.filter_cons_of_neg (by simpa using ho), List.foldlM_cons]
      have hskip : initMenu lang access m o = .ok m := by simp [initMenu, ho]
      rw [hskip]
      exact ih m

/-- What the pass needs of an entry: the session may open it, and the language has its name. -/
def Named (lang : String → Option String) (access : List String) (o : AccessObj) : Prop := o.url ∈ access ∧ lang o.field ≠ none

theorem initMenu_main {o : AccessObj} (ho : Named lang access o) (hc : o.check = true) (m : Menus) :
    initMenu lang access m o = .ok ⟨m.mainModules ++ [⟨o.url, o.txt lang, []⟩], m.i + 1, -1⟩ := by
  rw [initMenu, if_pos ⟨hc, ho.1⟩, getTxt_of_shown ho.2]
  rfl

theorem initMenu_sub (o : Sub) (ho : Named lang access o.1) (done : List MainModule) (u t : String) (subs : List SubModule) (j : Int) :
    initMenu lang access ⟨done ++ [⟨u, t, subs⟩], done.length, j⟩ o.1 =
      .ok ⟨done ++ [⟨u, t, subs ++ [o.1.sub lang []]⟩], done.length, j + 1⟩ := by
  rw [initMenu, if_neg (by simp [o.2.1]), if_pos ⟨o.2.2, ho.1⟩, getTxt_of_shown ho.2]
  dsimp only [bind, Except.bind]
  rw [changeAt_mid]
  rfl

theorem initMenu_direct (o : Leaf) (ho : Named lang access o.1) (done : List MainModule) (u t : String) (subs : List SubModule) :
    initMenu lang access ⟨done ++ [⟨u, t, subs⟩], done.length, -1⟩ o.1 =
      .ok ⟨done ++ [⟨u, t, subs ++ [o.1.sub lang []]⟩], done.length, -1⟩ := by
  rw [initMenu, if_neg (by simp [o.2.1]), if_neg (by simp [o.2.2]), if_pos ⟨o.2.2, ho.1⟩, if_pos rfl, getTxt_of_shown ho.2]
  dsimp only [bind, Except.bind]
  rw [changeAt_mid]
  rfl

theorem initMenu_leaf (o : Leaf) (ho : Named lang access o.1) (done : List MainModule) (u t : String) (s₁ s₂ : List SubModule)
    (s : SubModule) :
    initMenu lang access ⟨done ++ [⟨u, t, s₁ ++ s :: s₂⟩], done.length, s₁.length⟩ o.1 =
      .ok ⟨done ++ [⟨u, t, s₁ ++ { s with subsubModules := s.subsubModules ++ [o.1.link lang] } :: s₂⟩], done.length, s₁.length⟩ := by
  rw [initMenu, if_neg (by simp [o.2.1]), if_neg (by simp [o.2.2]), if_pos ⟨o.2.2, ho.1⟩, if_neg (by dsimp only; omega),
    getTxt_of_shown ho.2]
  dsimp only [bind, Except.bind]
  rw [changeAt_mid]
  dsimp only
  rw [changeAt_mid]
  rfl

/-- Before the first submodule every entry stands for itself. -/
theorem foldlM_direct (direct : List Leaf) (hd : ∀ o ∈ direct, Named lang access o.1) (done : List MainModule) (u t : String)
    (subs : List SubModule) :
    (direct.map Subtype.val).foldlM (initMenu lang access) ⟨done ++ [⟨u, t, subs⟩], done.length, -1⟩ =
      .ok ⟨done ++ [⟨u, t, subs ++ direct.map fun o => o.1.sub lang []⟩], done.length, -1⟩ := by
  induction direct generalizing subs with
  | nil => simp [pure, Except.pure]
  | cons o direct ih =>
    rw [List.map_cons, List.foldlM_cons, initMenu_direct o (hd o List.mem_cons_self)]
    refine (ih (fun o ho => hd o (List.mem_cons_of_mem _ ho)) _).trans ?_
    simp

/-- The entries after a submodule all go where `j` points. -/
theorem foldlM_leaves (leaves : List Leaf) (hl : ∀ o ∈ leaves, Named lang access o.1) (done : List MainModule) (u t : String)
    (s₁ s₂ : List SubModule) (o : AccessObj) (links : List SubsubModule) :
    (leaves.map Subtype.val).foldlM (initMenu lang access) ⟨done ++ [⟨u, t, s₁ ++ o.sub lang links :: s₂⟩], done.length, s₁.length⟩ =
      .ok ⟨done ++ [⟨u, t, s₁ ++ o.sub lang (links ++ leaves.map fun o => o.1.link lang) :: s₂⟩], done.length, s₁.length⟩ := by
  induction leaves generalizing links with
  | nil => simp [pure, Except.pure]
  | cons l leaves ih =>
    rw [List.map_cons, List.foldlM_cons, initMenu_leaf l (hl l List.mem_cons_self)]
    refine (ih (fun o ho => hl o (List.mem_cons_of_mem _ ho)) (links ++ [l.1.link lang])).trans ?_
    simp

/-- The submodules so far are `as`, the entries under the first of them `Ls`: each further submodule comes last, and its
entries go under the next that has none. -/
theorem foldlM_groups (groups : List Group) (hg : ∀ g ∈ groups, ∀ o ∈ g.entries, Named lang access o) (done : List MainModule)
    (u t : String) (as : List AccessObj) (Ls : List (List SubsubModule)) (k : Nat) (hlen : as.length = Ls.length + k) :
    (groups.flatMap Group.entries).foldlM (initMenu lang access)
        ⟨done ++ [⟨u, t, List.zipWith (AccessObj.sub lang) as (Ls ++ List.replicate k [])⟩], done.length, Ls.length - 1⟩ =
      .ok ⟨done ++ [⟨u, t, List.zipWith (AccessObj.sub lang) (as ++ groups.map fun g => g.head.1)
        (Ls ++ groups.map (Group.links lang) ++ List.replicate k [])⟩], done.length, (Ls.length + groups.length : Nat) - 1⟩ := by
  induction groups generalizing as Ls with
  | nil => simp [pure, Except.pure]
  | cons g groups ih =>
    obtain ⟨as₁, a, as₂, has, hlen₁⟩ : ∃ as₁ a as₂, as ++ [g.head.1] = as₁ ++ a :: as₂ ∧ as₁.length = Ls.length := by
      have hlt : Ls.length < (as ++ [g.head.1]).length := by simp; omega
      exact ⟨_, _, _, (List.take_append_drop Ls.length _).symm.trans (by rw [List.drop_eq_getElem_cons hlt]),
        List.length_take_of_le (Nat.le_of_lt hlt)⟩
    have hlen₂ : as₂.length = k := by
      have := congrArg List.length has
      simp at this
      omega
    -- the new submodule has no entries, and neither has the one that `j` points at now
    have hsnoc : List.zipWith (AccessObj.sub lang) as (Ls ++ List.replicate k []) ++ [g.head.1.sub lang []] =
        List.zipWith (AccessObj.sub lang) as₁ Ls ++ a.sub lang [] :: List.zipWith (AccessObj.sub lang) as₂ (List.replicate k []) := by
      have hz : List.zipWith (AccessObj.sub lang) as (Ls ++ List.replicate k []) ++ [g.head.1.sub lang []] =
          List.zipWith (AccessObj.sub lang) (as ++ [g.head.1]) (Ls ++ List.replicate k [] ++ [[]]) := by
        rw [List.zipWith_append (by simp [hlen])]
        rfl
      rw [hz, has, List.append_assoc, ← List.replicate_succ', List.replicate_succ, List.zipWith_append hlen₁]
      rfl
    have hentries : ∀ o ∈ g.leaves, Named lang access o.1 := fun o ho =>
      hg g List.mem_cons_self o.1 (List.mem_cons_of_mem _ (List.mem_map_of_mem ho))
    have hj : ((Ls.length : Int) - 1 + 1) = (List.zipWith (AccessObj.sub lang) as₁ Ls).length := by simp [hlen₁]
    rw [List.flatMap_cons, Group.entries, List.cons_append, List.foldlM_cons,
      initMenu_sub g.head (hg g List.mem_cons_self _ List.mem_cons_self), hsnoc, hj]
    refine (List.foldlM_append ..).trans ?_
    rw [foldlM_leaves g.leaves hentries done u t _ _ a []]
    have hnext : List.zipWith (AccessObj.sub lang) as₁ Ls ++
          a.sub lang ([] ++ g.leaves.map fun o => o.1.link lang) :: List.zipWith (AccessObj.sub lang) as₂ (List.replicate k []) =
        List.zipWith (AccessObj.sub lang) (as ++ [g.head.1]) (Ls ++ [g.links lang] ++ List.replicate k []) := by
      rw [has, List.append_assoc, List.zipWith_append hlen₁]
      rfl
    have hlen' : (as ++ [g.head.1]).length = (Ls ++ [g.links lang]).length + k := by simp; omega
    have hpos : ((List.zipWith (AccessObj.sub lang) as₁ Ls).length : Int) = (Ls ++ [g.links lang]).length - 1 := by
      simp [hlen₁]
    dsimp only [bind, Except.bind]
    rw [hnext, hpos, ih (fun g hg' => hg g (List.mem_cons_of_mem _ hg')) _ _ hlen']
    simp [add_comm, add_left_comm]

/-- One branch after others. -/
theorem foldlM_branch (b : Branch) (hb : ∀ o ∈ b.entries, Named lang access o) (done : List MainModule) (j : Int) :
    ∃ j', b.entries.foldlM (initMenu lang access) ⟨done, done.length - 1, j⟩ =
      .ok ⟨done ++ [b.filed lang], (done ++ [b.filed lang]).length - 1, j'⟩ := by
  have hin : ∀ o ∈ b.direct.map Subtype.val ++ b.groups.flatMap Group.entries, Named lang access o := fun o ho =>
    hb o (List.mem_cons_of_mem _ ho)
  have hdirect : ∀ o ∈ b.direct, Named lang access o.1 := fun o ho =>
    hin o.1 (List.mem_append_left _ (List.mem_map_of_mem ho))
  have hgroups : ∀ g ∈ b.groups, ∀ o ∈ g.entries, Named lang access o := fun g hg o ho =>
    hin o (List.mem_append_right _ (List.mem_flatMap.2 ⟨g, hg, ho⟩))
  have hstart : (b.direct.map fun o => o.1.sub lang []) =
      List.zipWith (AccessObj.sub lang) (b.direct.map Subtype.val) ([] ++ List.replicate b.direct.length []) := by
    induction b.direct with
    | nil => rfl
    | cons o direct ih =>
      rw [List.map_cons, ih]
      rfl
  refine ⟨((0 + b.groups.length : Nat) : Int) - 1, ?_⟩
  rw [Branch.entries, List.foldlM_cons, initMenu_main (hb _ List.mem_cons_self) b.head.2]
  dsimp only [bind, Except.bind]
  rw [List.foldlM_append, show (done.length : Int) - 1 + 1 = done.length by omega, foldlM_direct b.direct hdirect]
  dsimp only [bind, Except.bind]
  rw [List.nil_append, hstart]
  refine (foldlM_groups b.groups hgroups done _ _ _ [] _ (by simp)).trans ?_
  simp [Branch.filed, Branch.heads]

theorem foldlM_branches (bs : List Branch) (hbs : ∀ b ∈ bs, ∀ o ∈ b.entries, Named lang access o) (done : List MainModule) (j : Int) :
    ∃ i' j', (bs.flatMap Branch.entries).foldlM (initMenu lang access) ⟨done, done.length - 1, j⟩ =
      .ok ⟨done ++ bs.map (Branch.filed lang), i', j'⟩ := by
  induction bs generalizing done j with
  | nil => exact ⟨done.length - 1, j, by simp [pure, Except.pure]⟩
  | cons b bs ih =>
    obtain ⟨j', hb⟩ := foldlM_branch b (hbs b List.mem_cons_self) done j
    obtain ⟨i'', j'', hrest⟩ := ih (fun b hb' => hbs b (List.mem_cons_of_mem _ hb')) (done ++ [b.filed lang]) j'
    refine ⟨i'', j'', ?_⟩
    rw [List.flatMap_cons, List.foldlM_append, hb]
    refine hrest.trans ?_
    simp

theorem initMenus_filed {menus : List AccessObj} {bs : List Branch} (hbs : bs.flatMap Branch.entries = shown access menus)
    (hl : ∀ o ∈ shown access menus, lang o.field ≠ none) : initMenus lang access menus = .ok (bs.map (Branch.filed lang)) := by
  have hnamed : ∀ b ∈ bs, ∀ o ∈ b.entries, Named lang access o := fun b hb o ho =>
    have hin : o ∈ shown access menus := hbs ▸ List.mem_flatMap.2 ⟨b, hb, ho⟩
    ⟨by simpa using (List.mem_filter.1 hin).2, hl o hin⟩
  obtain ⟨i', j', h⟩ := foldlM_branches bs hnamed [] (-1)
  rw [initMenus, foldlM_shown, ← hbs]
  simp only [List.length_nil, Nat.cast_zero, zero_sub, List.nil_append] at h
  rw [h]
  rfl

/-- There is no main module for what comes before the first. -/
theorem initMenus_headless {menus : List AccessObj} {o : AccessObj} (ho : (shown access menus).head? = some o)
    (hc : o.check = false) (hl : lang o.field ≠ none) : initMenus lang access menus = .error .IndexError := by
  obtain ⟨l, hl'⟩ : ∃ l, shown access menus = o :: l := by
    cases h : shown access menus with
    | nil => simp [h] at ho
    | cons a l => exact ⟨l, by simpa [h] using ho⟩
  have hin : o.url ∈ access := by
    have : o ∈ shown access menus := hl' ▸ List.mem_cons_self
    simpa using (List.mem_filter.1 this).2
  have hfirst : initMenu lang access ⟨[], -1, -1⟩ o = .error .IndexError := by
    rw [initMenu, if_neg (by simp [hc])]
    by_cases hleaf : o.tree.len = 2
    · rw [if_neg (by simp [hleaf]), if_pos ⟨hleaf, hin⟩, if_pos rfl, getTxt_of_shown hl]
      rfl
    · rw [if_pos ⟨hleaf, hin⟩, getTxt_of_shown hl]
      rfl
  rw [initMenus, foldlM_shown, hl', List.foldlM_cons, hfirst]
  rfl

end Pass

/-! ## The menu that comes out -/

section Filed
variable {lang : String → Option String}

/-- Shifting the lists by the empty ones in front changes nothing where there are none of one of them. -/
theorem shifted_iff {α : Type} (k : Nat) (Ls : List (List α)) :
    Ls ++ List.replicate k [] = List.replicate k [] ++ Ls ↔ k = 0 ∨ ∀ L ∈ Ls, L = [] := by
  constructor
  · intro h
    cases k with
    | zero => exact .inl rfl
    | succ k =>
      refine .inr ?_
      induction Ls with
      | nil => simp
      | cons L Ls ih =>
        rw [List.replicate_succ, List.cons_append, List.cons_append, List.cons.injEq] at h
        obtain ⟨rfl, h⟩ := h
        have hrest : Ls ++ List.replicate (k + 1) [] = List.replicate (k + 1) [] ++ Ls := by
          calc Ls ++ List.replicate (k + 1) []
              = List.replicate k [] ++ [] :: Ls := by rw [← h, List.replicate_succ]
            _ = List.replicate (k + 1) [] ++ Ls := by rw [List.replicate_succ', List.append_assoc, List.singleton_append]
        simpa using ih hrest
  · rintro (rfl | h)
    · simp
    · rw [List.eq_replicate_of_mem h]
      simp [Nat.add_comm]

theorem subsubModules_zipWith {as : List AccessObj} {X : List (List SubsubModule)} (h : as.length = X.length) :
    (List.zipWith (AccessObj.sub lang) as X).map SubModule.subsubModules = X := by
  induction as generalizing X with
  | nil => simpa [eq_comm] using h
  | cons a as ih =>
    cases X with
    | nil => cases h
    | cons x X =>
      rw [List.zipWith_cons_cons, List.map_cons, ih (by simpa using h)]
      rfl

theorem zipWith_sub_inj {as : List AccessObj} {X Y : List (List SubsubModule)} (hX : as.length = X.length) (hY : as.length = Y.length) :
    List.zipWith (AccessObj.sub lang) as X = List.zipWith (AccessObj.sub lang) as Y ↔ X = Y := by
  refine ⟨fun h => ?_, fun h => h ▸ rfl⟩
  rw [← subsubModules_zipWith hX, h, subsubModules_zipWith hY]

theorem Branch.menu_eq (b : Branch) :
    b.menu lang = ⟨b.head.1.url, b.head.1.txt lang,
      List.zipWith (AccessObj.sub lang) b.heads (List.replicate b.direct.length [] ++ b.groups.map (Group.links lang))⟩ := by
  have hdirect : (b.direct.map fun o => o.1.sub lang []) =
      List.zipWith (AccessObj.sub lang) (b.direct.map Subtype.val) (List.replicate b.direct.length []) := by
    induction b.direct with
    | nil => rfl
    | cons o direct ih =>
      rw [List.map_cons, ih]
      rfl
  have hgroups : (b.groups.map fun g => g.head.1.sub lang (g.links lang)) =
      List.zipWith (AccessObj.sub lang) (b.groups.map fun g => g.head.1) (b.groups.map (Group.links lang)) := by
    rw [List.zipWith_map, List.zipWith_self]
  rw [Branch.menu, Branch.heads, List.zipWith_append (by simp), hdirect, hgroups]

/-- An entry stands under a wrong submodule where some stand under none. -/
theorem Branch.filed_iff (b : Branch) : b.filed lang = b.menu lang ↔ b.direct = [] ∨ ∀ g ∈ b.groups, g.leaves = [] := by
  rw [Branch.menu_eq, Branch.filed, MainModule.mk.injEq, zipWith_sub_inj (by simp [Branch.heads, Nat.add_comm]) (by simp [Branch.heads]),
    shifted_iff, List.length_eq_zero_iff, List.forall_mem_map]
  simp only [true_and, Group.links, List.map_eq_nil_iff]

theorem perm_zipWith_urls (as : List AccessObj) (X : List (List SubsubModule)) (h : as.length = X.length) :
    ((List.zipWith (AccessObj.sub lang) as X).flatMap fun s => s.url :: s.subsubModules.map SubsubModule.url).Perm
      (urls as ++ X.flatten.map SubsubModule.url) := by
  induction as generalizing X with
  | nil => simp [urls, List.length_eq_zero_iff.1 h.symm]
  | cons a as ih =>
    cases X with
    | nil => cases h
    | cons x X =>
      rw [List.zipWith_cons_cons, List.flatMap_cons, List.flatten_cons, List.map_append, urls, List.map_cons, List.cons_append,
        List.cons_append]
      refine List.Perm.cons _ ?_
      refine (List.Perm.append_left _ (ih X (by simpa using h))).trans ?_
      rw [← List.append_assoc, ← List.append_assoc]
      exact List.Perm.append_right _ List.perm_append_comm

/-- Whatever the submodule, every entry is in the menu, and as often as in the table. -/
theorem Branch.perm_filed (b : Branch) : (b.filed lang).urls.Perm (urls b.entries) := by
  rw [Branch.filed, MainModule.urls, Branch.entries, urls, List.map_cons]
  refine List.Perm.cons _ ((perm_zipWith_urls _ _ (by simp [Branch.heads, Nat.add_comm])).trans ?_)
  rw [Branch.heads, urls, List.map_append, List.map_append, List.append_assoc]
  refine List.Perm.append_left _ ?_
  rw [List.flatten_append, List.map_append]
  simp only [List.flatten_replicate_nil, List.map_nil, List.append_nil]
  induction b.groups with
  | nil => simp
  | cons g groups ih =>
    rw [List.map_cons, List.map_cons, List.map_cons, List.flatten_cons, List.map_append, List.flatMap_cons, List.map_append,
      Group.entries, List.map_cons, List.cons_append, List.cons_append]
    refine List.Perm.cons _ ?_
    rw [← List.append_assoc]
    refine (List.Perm.append_right _ List.perm_append_comm).trans ?_
    rw [List.append_assoc]
    refine List.Perm.append ?_ ih
    rw [Group.links, List.map_map, List.map_map]
    exact List.Perm.refl _

theorem perm_filed (bs : List Branch) : ((bs.map (Branch.filed lang)).flatMap MainModule.urls).Perm (urls (bs.flatMap Branch.entries)) := by
  induction bs with
  | nil => exact List.Perm.refl _
  | cons b bs ih =>
    rw [List.map_cons, List.flatMap_cons, List.flatMap_cons, urls, List.map_append]
    exact List.Perm.append b.perm_filed ih

end Filed

/-- The page raises if what the session may open starts under no main module. Otherwise every entry that it may open is
in the menu once for each time it is in the table, and under its own submodule unless, in some main module, an entry
without a submodule comes before a submodule with entries. -/
theorem init_menus_right_iff {lang : String → Option String} {access : List String} {menus : List AccessObj}
    (hl : ∀ o ∈ shown access menus, lang o.field ≠ none) :
    (∃ o, (shown access menus).head? = some o ∧ o.check = false ∧ initMenus lang access menus = .error .IndexError) ∨
      ∃ bs : List Branch, bs.flatMap Branch.entries = shown access menus ∧
        ∃ menu, initMenus lang access menus = .ok menu ∧ (menu.flatMap MainModule.urls).Perm (urls (shown access menus)) ∧
          (menu = bs.map (Branch.menu lang) ↔ ∀ b ∈ bs, b.direct = [] ∨ ∀ g ∈ b.groups, g.leaves = []) := by
  by_cases hhead : ∀ o ∈ (shown access menus).head?, o.check = true
  · obtain ⟨bs, hbs⟩ := branches_of_head hhead
    refine .inr ⟨bs, hbs, _, initMenus_filed hbs hl, hbs ▸ perm_filed bs, ?_⟩
    rw [List.map_inj_left]
    exact forall₂_congr fun b _ => b.filed_iff
  · simp only [not_forall, Bool.not_eq_true] at hhead
    obtain ⟨o, ho, hc⟩ := hhead
    exact .inl ⟨o, ho, hc, initMenus_headless ho hc (hl o (List.mem_of_mem_head? ho))⟩

/-- A main module with an entry of its own before its submodule. -/
def demoMenus : List AccessObj := [.main "menu" "", .get "a" "x" "", .group "g" "", .get "g" "y" ""]

theorem init_menus_right_demo :
    (∃ o, (shown ["/admin/menu", "/admin/a/x", "/admin/g", "/admin/g/y"] demoMenus).head? = some o ∧ o.check = false ∧
        initMenus some ["/admin/menu", "/admin/a/x", "/admin/g", "/admin/g/y"] demoMenus = .error .IndexError) ∨
      ∃ bs : List Branch, bs.flatMap Branch.entries = shown ["/admin/menu", "/admin/a/x", "/admin/g", "/admin/g/y"] demoMenus ∧
        ∃ menu, initMenus some ["/admin/menu", "/admin/a/x", "/admin/g", "/admin/g/y"] demoMenus = .ok menu ∧
          (menu.flatMap MainModule.urls).Perm (urls (shown ["/admin/menu", "/admin/a/x", "/admin/g", "/admin/g/y"] demoMenus)) ∧
          (menu = bs.map (Branch.menu some) ↔ ∀ b ∈ bs, b.direct = [] ∨ ∀ g ∈ b.groups, g.leaves = []) :=
  init_menus_right_iff fun _ _ h => nomatch h

/-- The entry of the submodule comes out under the one that stands before it. -/
example : initMenus some ["/admin/menu", "/admin/a/x", "/admin/g", "/admin/g/y"] demoMenus =
    .ok [⟨"/admin/menu", "", [⟨"/admin/a/x", "", [⟨"/admin/g/y", ""⟩]⟩, ⟨"/admin/g", "", []⟩]⟩] := by rfl

/-! ## The tables as they stand -/

/-- No entry stands under a submodule where one without a submodule (`d`) came before the first submodule (`s`). -/
def straight (d s : Bool) : List AccessObj → Bool
  | [] => true
  | o :: l =>
    if o.check then straight false false l
    else if o.tree.len ≠ 2 then straight d true l
    else if s then !d && straight d s l
    else straight true s l

section Straight
variable (d : Bool) (l : List AccessObj)

theorem straight_direct (direct : List Leaf) :
    straight d false (direct.map Subtype.val ++ l) = straight (d || !direct.isEmpty) false l := by
  induction direct generalizing d with
  | nil => simp
  | cons o direct ih =>
    obtain ⟨o, hc, ht⟩ := o
    simp only [List.map_cons, List.cons_append, straight, hc, ht, ih]
    simp

theorem straight_leaves (leaves : List Leaf) :
    straight d true (leaves.map Subtype.val ++ l) = ((!d || leaves.isEmpty) && straight d true l) := by
  induction leaves with
  | nil => simp
  | cons o leaves ih =>
    obtain ⟨o, hc, ht⟩ := o
    simp only [List.map_cons, List.cons_append, straight, hc, ht, ih]
    cases d <;> simp

theorem straight_groups (groups : List Group) (s : Bool) :
    ∃ s', straight d s (groups.flatMap Group.entries ++ l) =
      ((!d || groups.all fun g => g.leaves.isEmpty) && straight d s' l) := by
  induction groups generalizing s with
  | nil => exact ⟨s, by simp⟩
  | cons g groups ih =>
    obtain ⟨s', hs'⟩ := ih true
    refine ⟨s', ?_⟩
    have hhead : straight d s (g.head.1 :: (g.leaves.map Subtype.val ++ (groups.flatMap Group.entries ++ l))) =
        straight d true (g.leaves.map Subtype.val ++ (groups.flatMap Group.entries ++ l)) := by
      simp [straight, g.head.2.1, g.head.2.2]
    rw [List.flatMap_cons, Group.entries, List.append_assoc, List.cons_append, hhead, straight_leaves, hs', List.all_cons]
    cases d <;> simp [Bool.and_assoc]

end Straight

/-- A main module begins anew. -/
theorem straight_branches (d s : Bool) (bs : List Branch) :
    straight d s (bs.flatMap Branch.entries) = bs.all fun b => b.direct.isEmpty || b.groups.all fun g => g.leaves.isEmpty := by
  induction bs generalizing d s with
  | nil => rfl
  | cons b bs ih =>
    have hhead : straight d s (b.head.1 :: (b.direct.map Subtype.val ++ (b.groups.flatMap Group.entries ++ bs.flatMap Branch.entries))) =
        straight false false (b.direct.map Subtype.val ++ (b.groups.flatMap Group.entries ++ bs.flatMap Branch.entries)) := by
      simp [straight, b.head.2]
    obtain ⟨s', hgroups⟩ := straight_groups (!b.direct.isEmpty) (bs.flatMap Branch.entries) b.groups false
    rw [List.flatMap_cons, Branch.entries, List.cons_append, List.append_assoc, hhead, straight_direct, Bool.false_or, hgroups, ih,
      Bool.not_not, List.all_cons]

theorem straight_iff {bs : List Branch} {l : List AccessObj} (h : bs.flatMap Branch.entries = l) :
    straight false false l = true ↔ ∀ b ∈ bs, b.direct = [] ∨ ∀ g ∈ b.groups, g.leaves = [] := by
  simp [← h, straight_branches]

/-- The rights of a role below the administrator's, less what a form about an agent takes away. -/
structure RoleRights (agentType : String) (rights : List String) : Prop where
  low : agentType ≠ "0"
  role : ∃ menu listed, accessModule.access agentType = some menu ∧
    accessModule.getAgentNewListAccessUrl agentType = some listed ∧
    (∀ u ∈ rights, u ∈ urls menu) ∧ ∀ u ∈ urls menu, u ∈ rights ∨ u ∈ listed

theorem RoleRights.mem {agentType : String} {rights : List String} (h : RoleRights agentType rights) {menu : List AccessObj}
    (hmenu : accessModule.access agentType = some menu) : agentType ∈ ["1", "2", "3"] :=
  (List.mem_cons.1 (AccessModule.access_role hmenu)).resolve_left h.low

/-- What a form takes away is in no menu. -/
theorem RoleRights.shown {agentType : String} {rights : List String} (h : RoleRights agentType rights) {menus : List AccessObj}
    (hmenus : menus = menuModules ∨ menus = fishMenuModules) :
    Admin.shown rights menus = Admin.shown (urls ((accessModule.access agentType).getD [])) menus := by
  obtain ⟨menu, listed, hmenu, hlisted, hsub, hrest⟩ := h.role
  have hrole := h.mem hmenu
  have hforms : ∀ t ∈ ["1", "2", "3"], ∀ u ∈ (accessModule.getAgentNewListAccessUrl t).getD [],
      u ∉ urls menuModules ∧ u ∉ urls fishMenuModules := by decide +kernel
  rw [hmenu, Option.getD_some]
  refine List.filter_congr fun o ho => ?_
  have hnot : o.url ∉ listed := by
    intro hin
    have hno := hforms agentType hrole o.url (by rwa [hlisted])
    rcases hmenus with rfl | rfl
    · exact hno.1 (List.mem_map_of_mem ho)
    · exact hno.2 (List.mem_map_of_mem ho)
  exact decide_eq_decide.2 ⟨hsub o.url, fun hin => (hrest o.url hin).resolve_right hnot⟩

/-- The menus of the roles below the administrator's are right, whatever a form takes away, but the one of the fish
pages that an agent of the first class has: there the list of agents is under the charges and orders. -/
theorem role_menus_right_iff {agentType : String} {rights : List String} (h : RoleRights agentType rights) {menus : List AccessObj}
    (hmenus : menus = menuModules ∨ menus = fishMenuModules) {bs : List Branch}
    (hbs : bs.flatMap Branch.entries = Admin.shown rights menus) {lang : String → Option String}
    (hl : ∀ o ∈ Admin.shown rights menus, lang o.field ≠ none) :
    initMenus lang rights menus = .ok (bs.map (Branch.menu lang)) ↔ ¬(agentType = "2" ∧ menus = fishMenuModules) := by
  have hroles : ∀ t ∈ ["1", "2", "3"],
      straight false false (Admin.shown (urls ((accessModule.access t).getD [])) menuModules) = true ∧
      straight false false (Admin.shown (urls ((accessModule.access t).getD [])) fishMenuModules) = decide (t ≠ "2") := by
    decide +kernel
  obtain ⟨menu, listed, hmenu, -⟩ := h.role
  obtain ⟨hhall, hfish⟩ := hroles agentType (h.mem hmenu)
  have hright : initMenus lang rights menus = .ok (bs.map (Branch.menu lang)) ↔ straight false false (Admin.shown rights menus) = true := by
    rw [initMenus_filed hbs hl, straight_iff hbs, Except.ok.injEq, List.map_inj_left]
    exact forall₂_congr fun b _ => b.filed_iff
  rw [hright, h.shown hmenus]
  rcases hmenus with rfl | rfl
  · have hne : menuModules ≠ fishMenuModules := by decide +kernel
    simp [hhall, hne]
  · simp [hfish]

end FishWeb.Admin
