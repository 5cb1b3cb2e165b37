import FishWeb.Match.Queue
import FishWeb.Lib.Rely
/-!
# A tick among requests

The tick works from the list it read, the requests change the list meanwhile.
A player is safe where no request touches the group between the tick's read and
its message: `Careful` is that condition on each step, beside those under which
the tick alone is right. The tick and the worker are shown good one at a time,
each under what the other may do.
-/
open Python Prog Function Pool Rely

namespace FishWeb.Match

/-! ## The group being taken -/

/-- The group the tick takes first, having read `players` off the list `key`. -/
def groupOf (s : St) (key : String) (players : List String) : List String :=
  match countOf s key with
  | some n => if n ≤ players.length then players.take n else []
  | none => []

/-- How far the tick is: the group it is taking, from the read to the message;
the players of it whose pointers it has not deleted yet; the players it popped
and has not sent since. -/
structure Taking where
  group : List String
  pointed : List String
  owed : List String

/-- The tick is program 0. -/
def Taking.next (s : St) (t : Taking) : Nat × Ev → Taking
  | (0, .listed key players) => { t with group := groupOf s key players, pointed := groupOf s key players }
  | (0, .popped _ a) => { t with owed := a :: t.owed }
  | (0, .unpointed a) => { t with pointed := t.pointed.filter (· ≠ a) }
  | (0, .sent _ m) => { t with group := [], owed := t.owed.filter (· ∉ m.players) }
  | _ => t

def taking (σ : World Ev St) : Taking := σ.log.foldl (Taking.next σ.store) ⟨[], [], []⟩

/-- `a` was told that its cancel succeeded, and has not joined since. -/
def cancelled (queue : List (String × Request)) (a : String) (log : List (Nat × Ev)) : Bool :=
  log.foldl (fun b e => match e.2 with
    | .joined _ a' => if a' = a then false else b
    | .answered uuid reply => if (uuid, Request.cancel a) ∈ queue ∧ reply = .ok then true else b
    | _ => b) false

/-! ## The property and the condition -/

/-- No message carries a player who was told before that the cancel succeeded. -/
def NoneLate (queue : List (String × Request)) (log : List (Nat × Ev)) : Prop :=
  ∀ pre i q m post, log = pre ++ (i, Ev.sent q m) :: post → ∀ a ∈ m.players, cancelled queue a pre = false

structure NoneLost (queue : List (String × Request)) (c : Conf Ev Err Cmd St Unit) : Prop where
  late : NoneLate queue c.world.log
  /-- in the end every player popped has been sent since, or has cancelled -/
  sent : Finished c → ∀ a ∈ (taking c.world).owed, cancelled queue a c.world.log = true

/-- The steps under which nobody is lost. The tick reads a list with fewer than
two full groups, and a server for the first; no request deletes the pointer of a
player of the group being taken; a join is by an account that waits on no other
list and whose pointer the tick is not about to delete. -/
def CarefulEv (σ : World Ev St) (i : Nat) : Ev → Prop
  | .listed key players => i = 0 → ∀ n ∈ countOf σ.store key,
      players.length < 2 * n ∧ (n ≤ players.length → (queueOf σ.store key).isSome)
  | .unpointed a => i ≠ 0 → a ∉ (taking σ).group
  | .joined key a => a ∉ (taking σ).pointed ∧ ∀ j ∈ σ.store.account2wait a, j = key
  | _ => True

instance (σ : World Ev St) (i : Nat) : (e : Ev) → Decidable (CarefulEv σ i e)
  | .listed key players => inferInstanceAs (Decidable (i = 0 → ∀ n ∈ countOf σ.store key,
      players.length < 2 * n ∧ (n ≤ players.length → (queueOf σ.store key).isSome)))
  | .unpointed a => inferInstanceAs (Decidable (i ≠ 0 → a ∉ (taking σ).group))
  | .joined key a => inferInstanceAs (Decidable (a ∉ (taking σ).pointed ∧ ∀ j ∈ σ.store.account2wait a, j = key))
  | .popped .. | .matched .. | .sent .. | .answered .. => inferInstanceAs (Decidable True)

def Careful : Allow Ev St := fun σ i evs => ∀ e ∈ evs, CarefulEv σ i e

instance (σ : World Ev St) (i : Nat) (evs : List Ev) : Decidable (Careful σ i evs) :=
  inferInstanceAs (Decidable (∀ e ∈ evs, CarefulEv σ i e))

/-- The tick and the worker, before their first commands. -/
def start (w : Worker) (keys : List String) (queue : List (String × Request)) (s : St) : Conf Ev Err Cmd St Unit :=
  ⟨⟨s, []⟩, [selfCheck w keys, readPartyServiceProtocol w queue]⟩

/-! ## One more event -/

theorem taking_snoc (s s' : St) (log : List (Nat × Ev)) (e : Nat × Ev) (h : countOf s' = countOf s) :
    taking ⟨s', log ++ [e]⟩ = (taking ⟨s, log⟩).next s e := by
  have hnext : Taking.next s' = Taking.next s := by
    funext t e
    unfold Taking.next groupOf
    simp only [h]
  simp only [taking, hnext, List.foldl_append, List.foldl_cons, List.foldl_nil]

theorem cancelled_other {queue : List (String × Request)} {a : String} {log : List (Nat × Ev)} {i : Nat} {e : Ev}
    (hjoined : ∀ key b, e ≠ .joined key b) (hanswered : ∀ uuid r, e ≠ .answered uuid r) :
    cancelled queue a (log ++ [(i, e)]) = cancelled queue a log := by
  rw [cancelled, List.foldl_append]
  cases e with
  | joined key b => exact absurd rfl (hjoined key b)
  | answered uuid r => exact absurd rfl (hanswered uuid r)
  | _ => rfl

theorem cancelled_joined (queue : List (String × Request)) (a : String) (log : List (Nat × Ev)) (i : Nat) (key b : String) :
    cancelled queue a (log ++ [(i, Ev.joined key b)]) = if b = a then false else cancelled queue a log := by
  rw [cancelled, List.foldl_append]
  rfl

theorem cancelled_answered (queue : List (String × Request)) (a : String) (log : List (Nat × Ev)) (i : Nat) (uuid : String)
    (reply : Reply) : cancelled queue a (log ++ [(i, Ev.answered uuid reply)]) =
      if (uuid, Request.cancel a) ∈ queue ∧ reply = .ok then true else cancelled queue a log := by
  rw [cancelled, List.foldl_append]
  rfl

theorem noneLate_snoc {queue : List (String × Request)} {log : List (Nat × Ev)} {i : Nat} {e : Ev}
    (h : NoneLate queue log) (he : ∀ q m, e = .sent q m → ∀ a ∈ m.players, cancelled queue a log = false) :
    NoneLate queue (log ++ [(i, e)]) := by
  intro pre j q m post heq
  rcases List.eq_nil_or_concat post with rfl | ⟨post, x, rfl⟩
  · obtain ⟨rfl, hx⟩ := List.append_inj' heq rfl
    cases hx
    exact he q m rfl
  · rw [List.concat_eq_append, ← List.cons_append, ← List.append_assoc] at heq
    exact h pre j q m post (List.append_inj' heq rfl).1

/-! ## What each may do to the other -/

def Nowhere (s : St) (a : String) : Prop := ∀ key, a ∉ s.wait key

/-- On no list, and not being taken off one. -/
def Gone (σ : World Ev St) (a : String) : Prop := Nowhere σ.store a ∧ a ∉ (taking σ).group

/-- The half of `Mirror` that also holds between a pop and the deletion of the pointer. -/
structure Pointed (s : St) : Prop where
  pointer : ∀ key a, a ∈ s.wait key → s.account2wait a = some key
  nodup : ∀ key, (s.wait key).Nodup

/-- What both keep between any two commands. -/
structure Inv (queue : List (String × Request)) (σ : World Ev St) : Prop extends Pointed σ.store where
  late : NoneLate queue σ.log
  gone : ∀ a, cancelled queue a σ.log = true → Gone σ a

/-- What a request may do to the tick. -/
structure ByWorker (queue : List (String × Request)) (σ σ' : World Ev St) : Prop where
  counts : σ'.store.partyPlayerCount = σ.store.partyPlayerCount
  servers : σ'.store.servers = σ.store.servers
  taking : taking σ' = taking σ
  inv : Inv queue σ → Inv queue σ'
  waiting : ∀ key l, (∀ a ∈ l, a ∈ (Match.taking σ).group) → l <+: σ.store.wait key → l <+: σ'.store.wait key
  nowhere : ∀ a ∈ (Match.taking σ).pointed, Nowhere σ.store a → Nowhere σ'.store a

/-- What the tick may do to a request. -/
structure ByTick (queue : List (String × Request)) (σ σ' : World Ev St) : Prop where
  inv : Inv queue σ → Inv queue σ'
  waiting : ∀ key a, a ∈ σ'.store.wait key → a ∈ σ.store.wait key
  group : ∀ a ∈ (taking σ').group, a ∈ (taking σ).group ∨ ∃ key, a ∈ σ.store.wait key

instance (queue : List (String × Request)) : IsPreorder _ (ByWorker queue) where
  refl _ := ⟨rfl, rfl, rfl, id, fun _ _ _ h => h, fun _ _ h => h⟩
  trans _ _ _ h h' :=
    { counts := h'.counts.trans h.counts
      servers := h'.servers.trans h.servers
      taking := h'.taking.trans h.taking
      inv := h'.inv ∘ h.inv
      waiting := fun key l hl hw => h'.waiting key l (by rwa [h.taking]) (h.waiting key l hl hw)
      nowhere := fun a ha hn => h'.nowhere a (by rwa [h.taking]) (h.nowhere a ha hn) }

instance (queue : List (String × Request)) : IsPreorder _ (ByTick queue) where
  refl _ := ⟨id, fun _ _ h => h, fun _ h => .inl h⟩
  trans _ _ _ h h' :=
    { inv := h'.inv ∘ h.inv
      waiting := fun key a ha => h.waiting key a (h'.waiting key a ha)
      group := fun a ha => (h'.group a ha).elim (h.group a) fun ⟨key, hk⟩ => .inr ⟨key, h.waiting key a hk⟩ }

theorem Gone.env {queue : List (String × Request)} {σ σ' : World Ev St} {a : String} (h : Gone σ a)
    (he : ByTick queue σ σ') : Gone σ' a :=
  ⟨fun key hk => h.1 key (he.waiting key a hk), fun hg => (he.group a hg).elim h.2 fun ⟨key, hk⟩ => h.1 key hk⟩

theorem after_quiet {β : Type} {i : Nat} {c : Cmd β} {σ : World Ev St} (hs : (Exec.exec c σ.store).2 = σ.store)
    (hn : (Note.note c (Exec.exec c σ.store).1 : List Ev) = []) : after i c σ = σ := by
  simp only [after, hs, hn, List.map_nil, List.append_nil]

/-- A step that shortens lists, and deletes pointers of players on none, keeps the invariant. -/
theorem Inv.shorter {queue : List (String × Request)} {s s' : St} {log : List (Nat × Ev)} {i : Nat} {e : Ev}
    (h : Inv queue ⟨s, log⟩) (hsub : ∀ j, (s'.wait j).Sublist (s.wait j))
    (hptr : ∀ j b, b ∈ s'.wait j → s'.account2wait b = s.account2wait b)
    (hlate : ∀ q m, e = .sent q m → ∀ a ∈ m.players, a ∈ (taking ⟨s, log⟩).group)
    (hgone : ∀ a, cancelled queue a (log ++ [(i, e)]) = true → Gone ⟨s, log⟩ a)
    (hgroup : ∀ a ∈ (taking ⟨s', log ++ [(i, e)]⟩).group, a ∈ (taking ⟨s, log⟩).group ∨ ∃ key, a ∈ s.wait key) :
    Inv queue ⟨s', log ++ [(i, e)]⟩ where
  pointer key a ha := by
    rw [hptr key a ha]
    exact h.pointer key a ((hsub key).subset ha)
  nodup key := (hsub key).nodup (h.nodup key)
  late := by
    refine noneLate_snoc h.late fun q m he a ha => ?_
    by_contra hc
    exact (h.gone a (by simpa using hc)).2 (hlate q m he a ha)
  gone a ha := by
    obtain ⟨hn, hg⟩ := hgone a ha
    exact ⟨fun key hk => hn key ((hsub key).subset hk), fun hin => (hgroup a hin).elim hg fun ⟨key, hk⟩ => hn key hk⟩

/-! ## The tick -/

section Tick
variable {w : Worker} {key : String} {queue : List (String × Request)} {σ σ' : World Ev St}

theorem byTick_of {s s' : St} {log : List (Nat × Ev)} {e : Ev} (hsub : ∀ j, (s'.wait j).Sublist (s.wait j))
    (hptr : ∀ j b, b ∈ s'.wait j → s'.account2wait b = s.account2wait b)
    (hlate : ∀ q m, e = .sent q m → ∀ a ∈ m.players, a ∈ (taking ⟨s, log⟩).group)
    (hc : ∀ a, cancelled queue a (log ++ [(0, e)]) = cancelled queue a log)
    (hgroup : ∀ a ∈ (taking ⟨s', log ++ [(0, e)]⟩).group, a ∈ (taking ⟨s, log⟩).group ∨ ∃ key, a ∈ s.wait key) :
    ByTick queue ⟨s, log⟩ ⟨s', log ++ [(0, e)]⟩ where
  inv h := h.shorter hsub hptr hlate (fun a ha => h.gone a (by rwa [hc] at ha)) hgroup
  waiting key _ ha := (hsub key).subset ha
  group := hgroup

/-- Between two lists. -/
def Idle (queue : List (String × Request)) (σ : World Ev St) : Prop := Inv queue σ ∧ (taking σ).owed = []

theorem Idle.env (h : Idle queue σ) (he : ByWorker queue σ σ') : Idle queue σ' :=
  ⟨he.inv h.1, by rw [he.taking]; exact h.2⟩

/-- While the tick takes `group` off the list `key`: `todo` is still to be
popped, and the pointers of `pointed` are still to be deleted. -/
structure Took (queue : List (String × Request)) (key : String) (group pointed todo : List String)
    (σ : World Ev St) : Prop where
  inv : Inv queue σ
  taking : (taking σ).group = group ∧ (taking σ).pointed = pointed
  first : todo <+: σ.store.wait key
  sub : ∀ a ∈ todo, a ∈ group
  popped : ∀ a ∈ pointed, a ∉ todo → Nowhere σ.store a
  owed : ∀ a ∈ (Match.taking σ).owed, a ∈ group
  served : (queueOf σ.store key).isSome

variable {group pointed todo : List String}

theorem Took.env (h : Took queue key group pointed todo σ) (he : ByWorker queue σ σ') :
    Took queue key group pointed todo σ' where
  inv := he.inv h.inv
  taking := by rw [he.taking]; exact h.taking
  first := he.waiting key todo (by rw [h.taking.1]; exact h.sub) h.first
  sub := h.sub
  popped a ha hn := he.nowhere a (by rw [h.taking.2]; exact ha) (h.popped a ha hn)
  owed := by rw [he.taking]; exact h.owed
  served := by simpa only [queueOf, he.servers] using h.served

/-- The pop takes the player it is meant for: nobody else can be first. -/
theorem Took.pop {a : String} (h : Took queue key group (a :: todo) (a :: todo) σ) :
    ByTick queue σ (after 0 (Cmd.lpopWait key) σ) ∧
      Took queue key group (a :: todo) todo (after 0 (Cmd.lpopWait key) σ) := by
  obtain ⟨s, log⟩ := σ
  obtain ⟨rest, hwait⟩ := h.first
  replace hwait : s.wait key = a :: (todo ++ rest) := hwait.symm
  have hnodup := h.inv.nodup key
  rw [hwait, List.nodup_cons] at hnodup
  have hafter : after 0 (Cmd.lpopWait key) (⟨s, log⟩ : World Ev St) =
      ⟨{ s with wait := update s.wait key (todo ++ rest) }, log ++ [(0, Ev.popped key a)]⟩ := by
    simp [after, hwait]
  rw [hafter]
  have htaking := taking_snoc s { s with wait := update s.wait key (todo ++ rest) } log (0, .popped key a) rfl
  have hsub : ∀ j, (update s.wait key (todo ++ rest) j).Sublist (s.wait j) := by
    intro j
    by_cases hj : j = key
    · subst hj
      rw [update_self, hwait]
      exact List.sublist_cons_self _ _
    · rw [update_of_ne hj]
  have hby : ByTick queue ⟨s, log⟩ ⟨{ s with wait := update s.wait key (todo ++ rest) }, log ++ [(0, Ev.popped key a)]⟩ :=
    byTick_of hsub (fun _ _ _ => rfl) (by simp) (fun _ => cancelled_other nofun nofun)
      (fun b hb => .inl (by rwa [htaking] at hb))
  refine ⟨hby, hby.inv h.inv, ?_, ?_, fun b hb => h.sub b (List.mem_cons_of_mem _ hb), ?_, ?_, h.served⟩
  · rw [htaking]
    exact h.taking
  · simp only [update_self]
    exact List.prefix_append _ _
  · -- `a` was on this list only, and only once
    intro b hb hbt
    obtain rfl | hb := List.mem_cons.1 hb
    · intro j hj
      have hp := h.inv.pointer j b ((hsub j).subset hj)
      rw [h.inv.pointer key b (by rw [hwait]; simp)] at hp
      obtain rfl := Option.some.inj hp
      simp only [update_self] at hj
      exact hnodup.1 hj
    · exact absurd hb hbt
  · rw [htaking]
    intro b hb
    obtain rfl | hb := List.mem_cons.1 hb
    · exact h.sub b (by simp)
    · exact h.owed b hb

/-- The pointer of a popped player goes; nobody waits by it any more. -/
theorem Took.unpoint {a : String} (h : Took queue key group (a :: todo) todo σ) (ha : a ∉ todo) :
    ByTick queue σ (after 0 (Cmd.write (.deleteAccount2wait a)) σ) ∧
      Took queue key group todo todo (after 0 (Cmd.write (.deleteAccount2wait a)) σ) := by
  obtain ⟨s, log⟩ := σ
  have hafter : after 0 (Cmd.write (.deleteAccount2wait a)) (⟨s, log⟩ : World Ev St) =
      ⟨{ s with account2wait := update s.account2wait a none }, log ++ [(0, Ev.unpointed a)]⟩ := rfl
  rw [hafter]
  have htaking := taking_snoc s { s with account2wait := update s.account2wait a none } log (0, .unpointed a) rfl
  have hnowhere := h.popped a (by simp) ha
  have hby : ByTick queue ⟨s, log⟩
      ⟨{ s with account2wait := update s.account2wait a none }, log ++ [(0, Ev.unpointed a)]⟩ := by
    refine byTick_of (fun _ => List.Sublist.refl _) (fun j b hb => ?_) (by simp)
      (fun _ => cancelled_other nofun nofun) (fun b hb => .inl (by rwa [htaking] at hb))
    exact update_of_ne (by rintro rfl; exact hnowhere j hb) _ _
  refine ⟨hby, hby.inv h.inv, ⟨?_, ?_⟩, h.first, h.sub, fun b hb => absurd hb, ?_, h.served⟩
  · rw [htaking]
    exact h.taking.1
  · rw [htaking]
    simp only [Taking.next, h.taking.2, List.filter_cons]
    simpa using fun b hb (he : b = a) => ha (he ▸ hb)
  · rw [htaking]
    exact h.owed

theorem Took.flag {a : String} {n : Nat} (h : Took queue key group todo todo σ) :
    ByTick queue σ (after 0 (Cmd.write (.setMatchFinish a n)) σ) ∧
      Took queue key group todo todo (after 0 (Cmd.write (.setMatchFinish a n)) σ) := by
  obtain ⟨s, log⟩ := σ
  have hafter : after 0 (Cmd.write (.setMatchFinish a n)) (⟨s, log⟩ : World Ev St) =
      ⟨{ s with matchFinish := update s.matchFinish a (some n) }, log ++ [(0, Ev.matched a)]⟩ := rfl
  rw [hafter]
  have htaking := taking_snoc s { s with matchFinish := update s.matchFinish a (some n) } log (0, .matched a) rfl
  have hby : ByTick queue ⟨s, log⟩
      ⟨{ s with matchFinish := update s.matchFinish a (some n) }, log ++ [(0, Ev.matched a)]⟩ :=
    byTick_of (fun _ => List.Sublist.refl _) (fun _ _ _ => rfl) (by simp) (fun _ => cancelled_other nofun nofun)
      (fun b hb => .inl (by rwa [htaking] at hb))
  exact ⟨hby, hby.inv h.inv, by rw [htaking]; exact h.taking, h.first, h.sub, h.popped,
    by rw [htaking]; exact h.owed, h.served⟩

/-- The group is sent: none of it was told that a cancel succeeded, and nobody is owed a message. -/
theorem Took.send {q : String} {m : JoinMsg} (h : Took queue key group [] [] σ) (hm : m.players = group) :
    ByTick queue σ (after 0 (Cmd.write (.rpushProtocol q m)) σ) ∧
      Idle queue (after 0 (Cmd.write (.rpushProtocol q m)) σ) := by
  obtain ⟨s, log⟩ := σ
  have hafter : after 0 (Cmd.write (.rpushProtocol q m)) (⟨s, log⟩ : World Ev St) =
      ⟨{ s with protocols := update s.protocols q (s.protocols q ++ [m]) }, log ++ [(0, Ev.sent q m)]⟩ := rfl
  rw [hafter]
  have htaking := taking_snoc s { s with protocols := update s.protocols q (s.protocols q ++ [m]) } log (0, .sent q m) rfl
  have hby : ByTick queue ⟨s, log⟩
      ⟨{ s with protocols := update s.protocols q (s.protocols q ++ [m]) }, log ++ [(0, Ev.sent q m)]⟩ := by
    refine byTick_of (fun _ => List.Sublist.refl _) (fun _ _ _ => rfl) (fun q' m' he a ha => ?_)
      (fun _ => cancelled_other nofun nofun) (fun b hb => by rw [htaking] at hb; simp [Taking.next] at hb)
    cases he
    rw [h.taking.1, ← hm]
    exact ha
  refine ⟨hby, hby.inv h.inv, ?_⟩
  rw [htaking]
  simp only [Taking.next, List.filter_eq_nil_iff, decide_not, Bool.not_eq_true', decide_eq_false_iff_not, not_not]
  rw [hm]
  exact h.owed

/-- Reading a list starts a group; the guard says that it is the only one and has a server. -/
theorem Idle.listed (key : String) (h : Idle queue σ) :
    ByTick queue σ (after 0 (Cmd.lrangeWait key) σ) ∧ Idle queue (after 0 (Cmd.lrangeWait key) σ) ∧
      ∀ n, countOf σ.store key = some n → n ≤ (σ.store.wait key).length → (queueOf σ.store key).isSome →
        Took queue key ((σ.store.wait key).take n) ((σ.store.wait key).take n) ((σ.store.wait key).take n)
          (after 0 (Cmd.lrangeWait key) σ) := by
  obtain ⟨s, log⟩ := σ
  have hafter : after 0 (Cmd.lrangeWait key) (⟨s, log⟩ : World Ev St) =
      ⟨s, log ++ [(0, Ev.listed key (s.wait key))]⟩ := rfl
  rw [hafter]
  have htaking := taking_snoc s s log (0, .listed key (s.wait key)) rfl
  have hgroup : ∀ a ∈ groupOf s key (s.wait key), a ∈ s.wait key := by
    intro a ha
    unfold groupOf at ha
    split at ha
    · split at ha
      · exact List.mem_of_mem_take ha
      · simp at ha
    · simp at ha
  have hby : ByTick queue ⟨s, log⟩ ⟨s, log ++ [(0, Ev.listed key (s.wait key))]⟩ :=
    byTick_of (fun _ => List.Sublist.refl _) (fun _ _ _ => rfl) (by simp) (fun _ => cancelled_other nofun nofun)
      (fun b hb => .inr ⟨key, hgroup b (by rwa [htaking] at hb)⟩)
  have hidle : Idle queue ⟨s, log ++ [(0, Ev.listed key (s.wait key))]⟩ :=
    ⟨hby.inv h.1, by rw [htaking]; exact h.2⟩
  refine ⟨hby, hidle, fun n hc hle hq => ?_⟩
  have hg : groupOf s key (s.wait key) = (s.wait key).take n := by
    rw [groupOf, hc]
    exact if_pos hle
  refine ⟨hidle.1, ?_, List.take_prefix _ _, fun _ ha => ha, fun b hb hn => absurd hb hn, ?_, hq⟩
  · rw [htaking]
    exact ⟨hg, hg⟩
  · rw [hidle.2]
    simp

/-! ### The tick is good -/

theorem good_popGroup {n : Nat} (h : Took queue key group todo todo σ) :
    Good Careful (ByWorker queue) (ByTick queue) 0 (popGroup key n todo)
      (fun r σ' => r = .ok () ∧ Took queue key group [] [] σ') σ := by
  refine good_forEach (J := fun l σ' => Took queue key group l l σ') (fun a l σ hl => ?_)
    (fun τ τ' hτ he => ⟨rfl, hτ.env he⟩) h
  simp only [call_bind]
  intro τ₁ he _
  obtain ⟨hby, hpop⟩ := (hl.env he).pop
  refine ⟨hby, ?_⟩
  have hnotin : a ∉ l := by
    obtain ⟨rest, hrest⟩ := (hl.env he).first
    have hnd := (hl.env he).inv.nodup key
    rw [← hrest, List.cons_append, List.nodup_cons] at hnd
    exact fun hin => hnd.1 (List.mem_append_left _ hin)
  intro τ₂ he _
  obtain ⟨hby, hun⟩ := (hpop.env he).unpoint hnotin
  refine ⟨hby, ?_⟩
  intro τ₃ he _
  obtain ⟨hby, hflag⟩ := (hun.env he).flag (a := a) (n := n)
  exact ⟨hby, fun τ₄ he => hflag.env he⟩

theorem good_send {playid gameid rule : String} {m : JoinMsg} (hname : nameList key = some (playid, gameid, rule))
    (h : Took queue key group [] [] σ) (hm : m.players = group) :
    Good Careful (ByWorker queue) (ByTick queue) 0 (sendProtocol2OneGameService gameid m)
      (fun r σ' => r = .ok () ∧ Idle queue σ') σ := by
  simp only [sendProtocol2OneGameService, call_bind]
  intro τ he _
  have hτ := h.env he
  rw [after_quiet rfl rfl]
  refine ⟨refl_of _ τ, ?_⟩
  obtain ⟨q, hq⟩ := Option.isSome_iff_exists.1 hτ.served
  obtain ⟨t, ht, hq⟩ : ∃ t, (τ.store.servers gameid).head? = some t ∧ protocolQueue gameid t = some q := by
    simpa [queueOf, hname, Option.bind_eq_some_iff] using hq
  obtain ⟨ts, hs⟩ := List.head?_eq_some_iff.1 ht
  simp only [exec_lrangeServers, hs, hq, orRaise_some, ret_bind]
  intro τ₂ he _
  obtain ⟨hby, hidle⟩ := (hτ.env he).send hm
  exact ⟨hby, fun τ₃ he => ⟨rfl, hidle.env he⟩⟩

theorem good_selfCheckList (h : Idle queue σ) :
    Good Careful (ByWorker queue) (ByTick queue) 0 (selfCheckList w key) (fun _ σ' => Idle queue σ') σ := by
  simp only [selfCheckList, call_bind]
  intro τ he hg
  have hg := hg (.listed key (τ.store.wait key)) (by simp) rfl
  obtain ⟨hby, hidle, htook⟩ := (h.env he).listed key
  refine ⟨hby, ?_⟩
  simp only [exec_lrangeWait]
  cases hname : nameList key with
  | none => exact fun _ he => hidle.env he
  | some p =>
    obtain ⟨playid, gameid, rule⟩ := p
    simp only [orRaise_some, ret_bind]
    intro τ₁ he₁ _
    rw [after_quiet rfl rfl]
    refine ⟨refl_of _ τ₁, ?_⟩
    have hcount : τ₁.store.partyPlayerCount gameid = τ.store.partyPlayerCount gameid := congrFun he₁.counts gameid
    simp only [exec_hgetPartyPlayerCount, hcount]
    cases hn : getPartyGamePlayerCount (τ.store.partyPlayerCount gameid) with
    | none => exact fun _ he => (hidle.env he₁).env he
    | some n =>
      simp only [orRaise_some, ret_bind]
      have hc : countOf τ.store key = some n := by simp [countOf, hname, hn]
      obtain ⟨htwo, hserved⟩ := hg n hc
      have hpos := countOf_pos hc
      by_cases hle : n ≤ (τ.store.wait key).length
      · obtain ⟨r, hr⟩ := Nat.exists_eq_add_one_of_ne_zero (by omega : (τ.store.wait key).length ≠ 0)
        rw [hr]
        unfold groupLoop
        rw [if_pos (hr ▸ hle)]
        -- one group, and the loop ends
        refine Good.bind ((good_popGroup ((htook n hc hle (hserved hle)).env he₁)).mono ?_)
        rintro _ τ₂ ⟨rfl, htook₂⟩
        refine Good.bind ((good_send hname htook₂ rfl).mono ?_)
        rintro _ τ₃ ⟨rfl, hidle₃⟩
        rw [Then, groupLoop_short (by omega)]
        exact fun _ he => hidle₃.env he
      · rw [groupLoop_short (Nat.lt_of_not_le hle)]
        exact fun _ he => (hidle.env he₁).env he

theorem good_selfCheck (w : Worker) {keys : List String} (h : Idle queue σ) :
    Good Careful (ByWorker queue) (ByTick queue) 0 (selfCheck w keys) (fun _ σ' => Idle queue σ') σ := by
  refine good_forEach (J := fun _ σ' => Idle queue σ') (fun key _ σ hσ => ?_) (fun _ _ hσ he => hσ.env he) h
  refine (good_selfCheckList hσ).mono fun r σ' hr => ?_
  cases r <;> exact hr

end Tick

/-! ## The worker -/

section Worker
variable {w : Worker} {key a : String} {queue : List (String × Request)} {σ σ' : World Ev St}

/-- A request reads the list `key`. -/
theorem byWorker_listed (queue : List (String × Request)) (key : String) (σ : World Ev St) : ByWorker queue σ (after 1 (Cmd.lrangeWait key) σ) := by
  obtain ⟨s, log⟩ := σ
  have hafter : after 1 (Cmd.lrangeWait key) (⟨s, log⟩ : World Ev St) =
      ⟨s, log ++ [(1, Ev.listed key (s.wait key))]⟩ := rfl
  rw [hafter]
  have htaking := taking_snoc s s log (1, .listed key (s.wait key)) rfl
  have hc : ∀ b, cancelled queue b (log ++ [(1, Ev.listed key (s.wait key))]) = cancelled queue b log := by
    exact fun _ => cancelled_other nofun nofun
  exact ⟨rfl, rfl, htaking, fun h => h.shorter (fun _ => List.Sublist.refl _) (fun _ _ _ => rfl) (by simp)
    (fun b hb => h.gone b (by rwa [hc] at hb)) (fun b hb => .inl (by rwa [htaking] at hb)), fun _ _ _ h => h,
    fun _ _ h => h⟩

/-- The write of a join. The guard keeps the pointer of a waiting player the one of its list. -/
theorem byWorker_join (queue : List (String × Request)) (ha : a ∉ σ.store.wait key) (hp : a ∉ (taking σ).pointed)
    (hk : ∀ j, σ.store.account2wait a = some j → j = key) :
    ByWorker queue σ (after 1 (Cmd.pipe [.rpushWait key a, .setAccount2wait a key]) σ) := by
  obtain ⟨s, log⟩ := σ
  have hafter : after 1 (Cmd.pipe [.rpushWait key a, .setAccount2wait a key]) (⟨s, log⟩ : World Ev St) =
      ⟨{ s with
        wait := update s.wait key (s.wait key ++ [a])
        account2wait := update s.account2wait a (some key) }, log ++ [(1, Ev.joined key a)]⟩ := rfl
  rw [hafter]
  have htaking : taking ⟨{ s with
      wait := update s.wait key (s.wait key ++ [a])
      account2wait := update s.account2wait a (some key) }, log ++ [(1, Ev.joined key a)]⟩ = taking ⟨s, log⟩ :=
    taking_snoc s _ log _ rfl
  have hmem : ∀ j b, b ∈ update s.wait key (s.wait key ++ [a]) j → b ∈ s.wait j ∨ (b = a ∧ j = key) := by
    intro j b hb
    by_cases hj : j = key
    · subst hj
      simpa using hb
    · exact .inl (by rwa [update_of_ne hj] at hb)
  refine ⟨rfl, rfl, htaking, fun h => ⟨⟨?_, ?_⟩, ?_, ?_⟩, fun j l _ hl => ?_, fun b hb hn j hj => ?_⟩
  · intro j b hb
    by_cases hba : b = a
    · subst hba
      rcases hmem j b hb with hb | ⟨-, rfl⟩
      · rw [hk j (h.pointer j b hb)]
        exact update_self ..
      · exact update_self ..
    · exact (update_of_ne hba _ _).trans (h.pointer j b ((hmem j b hb).resolve_right fun hh => hba hh.1))
  · intro j
    by_cases hj : j = key
    · subst hj
      simp only [update_self]
      exact List.nodup_append.2 ⟨h.nodup j, by simp, fun x hx y hy => by
        rw [List.mem_singleton] at hy; subst hy; rintro rfl; exact ha hx⟩
    · simp only [update_of_ne hj]
      exact h.nodup j
  · exact noneLate_snoc h.late (by simp)
  · intro b hb
    have hba : b ≠ a := by
      rintro rfl
      rw [cancelled_joined, if_pos rfl] at hb
      cases hb
    obtain ⟨hn, hg⟩ := h.gone b (by rwa [cancelled_joined, if_neg hba.symm] at hb)
    exact ⟨fun j hj => ((hmem j b hj).elim (hn j) fun hh => hba hh.1), by rw [htaking]; exact hg⟩
  · by_cases hj : j = key
    · subst hj
      simp only [update_self]
      exact hl.trans (List.prefix_append _ _)
    · simpa only [update_of_ne hj] using hl
  · rcases hmem j b hj with hj | ⟨rfl, -⟩
    · exact hn j hj
    · exact hp hb

/-- The write of a cancel: the player is on no list, if its lists were those the cancel looked at. -/
theorem byWorker_cancel (queue : List (String × Request)) {listed : Bool} (hg : a ∉ (taking σ).group) (hon : ∀ j, a ∈ σ.store.wait j → j = key)
    (hout : listed = false → a ∉ σ.store.wait key) :
    ByWorker queue σ (after 1 (Cmd.pipe (.deleteAccount2wait a :: if listed then [.lremWait key a] else [])) σ) ∧
      Gone (after 1 (Cmd.pipe (.deleteAccount2wait a :: if listed then [.lremWait key a] else [])) σ) a := by
  obtain ⟨s, log⟩ := σ
  -- where the player is not listed, removing it changes nothing
  have hafter : after 1 (Cmd.pipe (.deleteAccount2wait a :: if listed then [.lremWait key a] else []))
      (⟨s, log⟩ : World Ev St) = ⟨{ s with
        account2wait := update s.account2wait a none
        wait := update s.wait key ((s.wait key).filter (· ≠ a)) }, log ++ [(1, Ev.unpointed a)]⟩ := by
    cases listed with
    | true => rfl
    | false =>
      have hnone : (s.wait key).filter (· ≠ a) = s.wait key :=
        List.filter_eq_self.2 fun b hb => by simpa using fun h : b = a => hout rfl (h ▸ hb)
      simp only [hnone, update_eq_self]
      rfl
  rw [hafter]
  have htaking : taking ⟨{ s with
      account2wait := update s.account2wait a none
      wait := update s.wait key ((s.wait key).filter (· ≠ a)) }, log ++ [(1, Ev.unpointed a)]⟩ = taking ⟨s, log⟩ :=
    taking_snoc s _ log _ rfl
  have hsub : ∀ j, (update s.wait key ((s.wait key).filter (· ≠ a)) j).Sublist (s.wait j) := by
    intro j
    by_cases hj : j = key
    · subst hj
      rw [update_self]
      exact List.filter_sublist
    · rw [update_of_ne hj]
  have hnot : ∀ j, a ∉ update s.wait key ((s.wait key).filter (· ≠ a)) j := by
    intro j hj
    obtain rfl := hon j ((hsub j).subset hj)
    simp at hj
  have hc : ∀ b, cancelled queue b (log ++ [(1, Ev.unpointed a)]) = cancelled queue b log := by
    exact fun _ => cancelled_other nofun nofun
  refine ⟨⟨rfl, rfl, htaking, fun h => ?_, fun j l hlg hpre => ?_, fun b _ hn j hj => hn j ((hsub j).subset hj)⟩,
    hnot, by rw [htaking]; exact hg⟩
  · refine h.shorter hsub (fun j b hb => ?_) (by simp) (fun b hb => h.gone b (by rwa [hc] at hb))
      (fun b hb => .inl (by rwa [htaking] at hb))
    exact update_of_ne (by rintro rfl; exact hnot j hb) _ _
  · by_cases hj : j = key
    · subst hj
      simp only [update_self]
      have hla : l.filter (· ≠ a) = l :=
        List.filter_eq_self.2 fun b hb => by simpa using fun h : b = a => hg (h ▸ hlg b hb)
      rw [← hla]
      exact hpre.filter _
    · simpa only [update_of_ne hj] using hpre

/-! ### The worker is good -/

/-- The lists that may hold `a` while a request of `a` runs; the tick only shortens them. -/
def OnlyOn (D : String → Prop) (a : String) (σ : World Ev St) : Prop := ∀ j, a ∈ σ.store.wait j → D j

theorem OnlyOn.env {D : String → Prop} (h : OnlyOn D a σ) (he : ByTick queue σ σ') : OnlyOn D a σ' :=
  fun j hj => h j (he.waiting j a hj)

/-- `isWaiting`, and what its answer says until the request writes. -/
theorem good_isWaiting {D : String → Prop} (h : Inv queue σ) (hD : OnlyOn D a σ) :
    Good Careful (ByTick queue) (ByWorker queue) 1 (isWaiting key a)
      (fun r σ' => ∃ b, r = .ok b ∧ Inv queue σ' ∧ OnlyOn D a σ' ∧ (b = false → a ∉ σ'.store.wait key)) σ := by
  simp only [isWaiting, call_bind]
  intro τ he _
  have hτ := he.inv h
  have hDτ := hD.env he
  rw [after_quiet rfl rfl]
  refine ⟨refl_of _ τ, ?_⟩
  cases hw : τ.store.wait key with
  | nil =>
    simp only [exec_existsWait, hw, List.isEmpty_nil, Bool.not_true, Bool.false_eq_true, if_false]
    refine fun τ₂ he₂ => ⟨false, rfl, he₂.inv hτ, hDτ.env he₂, fun _ ha => ?_⟩
    have := he₂.waiting key a ha
    simp [hw] at this
  | cons x l =>
    simp only [exec_existsWait, hw, List.isEmpty_cons, Bool.not_false, if_true]
    intro τ₂ he₂ _
    have hby := byWorker_listed queue key τ₂
    refine ⟨hby, fun τ₃ he₃ => ⟨_, rfl, he₃.inv (hby.inv (he₂.inv hτ)), ?_, fun hb ha => ?_⟩⟩
    · have hD₂ := hDτ.env he₂
      exact OnlyOn.env (σ := after 1 (Cmd.lrangeWait key) τ₂) hD₂ he₃
    · exact absurd (he₃.waiting key a ha) (by simpa using hb)

/-- What a request has established when it is answered: a cancel that succeeds has taken its account off. -/
def Answered (queue : List (String × Request)) (request : Request) (r : Except Err Reply) (σ : World Ev St) : Prop :=
  Inv queue σ ∧ ∀ a, request = .cancel a → r = .ok .ok → Gone σ a

theorem Answered.env {request : Request} {r : Except Err Reply} (h : Answered queue request r σ)
    (he : ByTick queue σ σ') : Answered queue request r σ' :=
  ⟨he.inv h.1, fun a hr hok => (h.2 a hr hok).env he⟩

theorem good_onJoinRoom {playid gameid : String} (h : Inv queue σ) :
    Good Careful (ByTick queue) (ByWorker queue) 1 (onJoinRoom w a playid gameid)
      (Answered queue (.join a playid gameid)) σ := by
  have hinv : ∀ {r τ}, Inv queue τ → Answered queue (.join a playid gameid) r τ :=
    fun hτ => ⟨hτ, fun _ hr => by cases hr⟩
  simp only [onJoinRoom, call_bind]
  intro τ he _
  replace h := he.inv h
  rw [after_quiet rfl rfl]
  refine ⟨refl_of _ τ, ?_⟩
  simp only [exec_hgetPartyPlayerCount]
  cases τ.store.partyPlayerCount gameid with
  | none => exact fun τ' he => hinv (he.inv h)
  | some raw =>
    simp only [orRaise_some, ret_bind]
    cases int raw with
    | none => exact fun τ' he => hinv (he.inv h)
    | some n =>
      simp only [orRaise_some, ret_bind]
      intro τ₂ he _
      replace h := he.inv h
      rw [after_quiet rfl rfl]
      refine ⟨refl_of _ τ₂, ?_⟩
      simp only [exec_existsExitPlayer]
      split
      · exact fun τ' he => hinv (he.inv h)
      · refine Good.bind ((good_isWaiting (D := fun _ => True) h (fun _ _ => trivial)).mono ?_)
        rintro _ τ₃ ⟨b, rfl, h, -, hout⟩
        simp only [Then]
        cases b with
        | true => exact fun τ' he => hinv (he.inv h)
        | false =>
          intro τ₄ he hg
          have hout := fun ha => hout rfl (he.waiting _ a ha)
          obtain ⟨hp, hk⟩ := hg (.joined (w.waitKey playid gameid joinRule) a) (by simp [noteWrite])
          have hby := byWorker_join queue hout hp hk
          exact ⟨hby, fun τ' he' => hinv (he'.inv (hby.inv (he.inv h)))⟩

theorem good_onCancelJoinRoom (h : Inv queue σ) :
    Good Careful (ByTick queue) (ByWorker queue) 1 (onCancelJoinRoom a) (Answered queue (.cancel a)) σ := by
  simp only [onCancelJoinRoom, call_bind]
  intro τ he _
  replace h := he.inv h
  rw [after_quiet rfl rfl]
  refine ⟨refl_of _ τ, ?_⟩
  simp only [exec_existsAccount2wait]
  split
  · intro τ₂ he _
    replace h := he.inv h
    rw [after_quiet rfl rfl]
    refine ⟨refl_of _ τ₂, ?_⟩
    simp only [exec_getAccount2wait]
    have hD : OnlyOn (· = (τ₂.store.account2wait a).getD "None") a τ₂ := fun j hj => by simp [h.pointer j a hj]
    generalize (τ₂.store.account2wait a).getD "None" = key at hD
    refine Good.bind ((good_isWaiting h hD).mono ?_)
    rintro _ τ₃ ⟨b, rfl, h, hD, hout⟩
    intro τ₄ he hg
    have hg := hg (.unpointed a) (by cases b <;> simp [noteWrite]) (by decide)
    obtain ⟨hby, hgone⟩ := byWorker_cancel queue hg (hD.env he) fun hb ha => hout hb (he.waiting key a ha)
    refine ⟨hby, fun τ₅ he₅ => Answered.env ⟨hby.inv (he.inv h), fun a' ha' _ => ?_⟩ he₅⟩
    cases ha'
    exact hgone
  · refine fun τ₂ he => ⟨he.inv h, fun _ _ hok => ?_⟩
    simp [Reply.ok, Reply.notWaiting] at hok

/-- Storing the answer: a player told that the cancel succeeded is gone. -/
theorem byWorker_answer {uuid : String} {request : Request} {reply : Reply} (hu : (queue.map Prod.fst).Nodup)
    (hin : (uuid, request) ∈ queue) (ha : Answered queue request (.ok reply) σ) :
    ByWorker queue σ (after 1 (Cmd.write (.setResult uuid reply)) σ) := by
  obtain ⟨s, log⟩ := σ
  have hafter : after 1 (Cmd.write (.setResult uuid reply)) (⟨s, log⟩ : World Ev St) =
      ⟨{ s with result := update s.result uuid (some reply) }, log ++ [(1, Ev.answered uuid reply)]⟩ := rfl
  rw [hafter]
  have htaking : taking ⟨{ s with result := update s.result uuid (some reply) },
      log ++ [(1, Ev.answered uuid reply)]⟩ = taking ⟨s, log⟩ := taking_snoc s _ log _ rfl
  refine ⟨rfl, rfl, htaking, fun h => ?_, fun _ _ _ h => h, fun _ _ h => h⟩
  refine h.shorter (fun _ => List.Sublist.refl _) (fun _ _ _ => rfl) (by simp) (fun b hb => ?_)
    (fun b hb => .inl (by rwa [htaking] at hb))
  rw [cancelled_answered] at hb
  split at hb
  · rename_i hcond
    obtain ⟨hb, rfl⟩ := hcond
    obtain rfl : Request.cancel b = request :=
      congrArg Prod.snd (List.inj_on_of_nodup_map hu hb hin rfl)
    exact ha.2 b rfl rfl
  · exact h.gone b hb

theorem good_readPartyServiceProtocol (w : Worker) (hu : (queue.map Prod.fst).Nodup) (h : Inv queue σ) :
    Good Careful (ByTick queue) (ByWorker queue) 1 (readPartyServiceProtocol w queue) (fun _ σ' => Inv queue σ') σ := by
  refine good_forEach (J := fun l σ' => (∀ x ∈ l, x ∈ queue) ∧ Inv queue σ') (fun x l σ hl => ?_)
    (fun _ _ hσ he => he.inv hσ.2) ⟨fun _ hx => hx, h⟩
  obtain ⟨uuid, request⟩ := x
  obtain ⟨hl, h⟩ := hl
  have hrest := fun x hx => hl x (List.mem_cons_of_mem _ hx)
  have hhandle : Good Careful (ByTick queue) (ByWorker queue) 1 (handle w request) (Answered queue request) σ := by
    cases request with
    | join a playid gameid => exact good_onJoinRoom h
    | cancel a => exact good_onCancelJoinRoom h
  refine Good.bind (Good.attempt (hhandle.mono fun r τ hr => ?_))
  cases r with
  | error e => exact fun τ' he => ⟨hrest, he.inv hr.1⟩
  | ok reply =>
    intro τ₂ he _
    have hby := byWorker_answer hu (hl (uuid, request) (List.mem_cons_self ..)) (hr.env he)
    exact ⟨hby, fun τ₃ he₃ => ⟨hrest, he₃.inv (hby.inv (he.inv hr.1))⟩⟩

end Worker
/-! ## Any interleaving -/

/-- From lists whose players have their pointers, in every interleaving of a
tick with requests whose steps are careful: no message carries a player told
before that the cancel succeeded, and in the end every player popped was sent. -/
theorem race_loses_none (w : Worker) (keys : List String) (queue : List (String × Request))
    (hu : (queue.map Prod.fst).Nodup) (s : St) (hs : Pointed s) (c : Conf Ev Err Cmd St Unit)
    (h : Reach Careful.guard (start w keys queue s) c) : NoneLost queue c := by
  have hinv : Inv queue ⟨s, []⟩ := by
    refine ⟨hs, ?_, fun a ha => by simp [cancelled] at ha⟩
    intro pre i q m post heq
    simp at heq
  obtain ⟨hboth, hi⟩ := reach_both (I := Inv queue) (fun _ _ he => he.inv) (fun _ _ he => he.inv)
    (good_selfCheck w ⟨hinv, rfl⟩) (good_readPartyServiceProtocol w hu hinv) hinv h
  refine ⟨hi.late, fun hf a ha => ?_⟩
  obtain ⟨r, hidle⟩ := hboth.first hf
  rw [hidle.2] at ha
  simp at ha

/-- The tick takes two of three, the third cancels meanwhile. -/
def carefulTurns : List Nat := [0, 1, 0, 0, 1, 1, 0, 0, 1, 0, 0, 1, 0, 0, 1, 0]

theorem race_loses_none_three :
    NoneLost [("u", .cancel "c")]
      (turns carefulTurns (start gold [sampleKey] [("u", .cancel "c")] (sampleSt ["a", "b", "c"]))) := by
  refine race_loses_none gold [sampleKey] [("u", .cancel "c")] (by decide) (sampleSt ["a", "b", "c"]) ⟨?_, ?_⟩ _
    (reach_turns ?_)
  · intro key a ha
    rw [sampleSt_wait] at ha
    split at ha
    · rename_i hk
      have : a = "a" ∨ a = "b" ∨ a = "c" := by simpa using ha
      rcases this with rfl | rfl | rfl <;> exact hk ▸ rfl
    · simp at ha
  · intro key
    rw [sampleSt_wait]
    split <;> decide
  · decide

/-- A cancel between the tick's read and its pops succeeds, and its player is in the message sent after. -/
theorem race_sends_cancelled :
    ∃ c, Reach noGuard (start gold [sampleKey] [("u", .cancel "a")] (sampleSt ["a", "b"])) c ∧
      ¬NoneLost [("u", .cancel "a")] c := by
  refine ⟨turns [0, 1, 1, 1, 1, 1, 1, 0, 0, 0, 0, 0, 0, 0, 0, 0] _, reach_turns (allowed_noGuard _ _), fun h => ?_⟩
  have hlate := h.late _ 0 "service:protocols:game:3:1:10.0.0.1:7000" (groupMsg gold sampleKey ["a", "b"]) []
    (List.dropLast_append_getLast? _ (by decide)).symm "a" (by decide)
  revert hlate
  decide

end FishWeb.Match
