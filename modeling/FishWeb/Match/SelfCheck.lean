import FishWeb.Match.Model
import FishWeb.Lib.Blocks
/-!
# What one tick of `self_check` does

Each function of the tick has one lemma that says what running it alone leaves
behind; the theorems below read only those. On a list with a server the tick is
`dispatched`: it takes `len / player_count` groups off the list, but sends the
first group every time.
-/
open Python Prog Function Blocks

namespace FishWeb.Match

/-! ## The functions of the tick -/

/-- After popping for `players`: as many off the list, their pointers gone, their flags set. -/
def popped (key : String) (player_count : Nat) (players : List String) (s : St) : St :=
  { s with
    wait := update s.wait key ((s.wait key).drop players.length)
    account2wait := fun a => if a ∈ players then none else s.account2wait a
    matchFinish := fun a => if a ∈ players then some player_count else s.matchFinish a }

theorem popped_cons (key : String) (n : Nat) (a : String) (players : List String) (s : St) :
    popped key n players (popped key n [a] s) = popped key n (a :: players) s := by
  ext x <;> simp only [popped, update_self, update_idem, List.length_cons, List.length_nil, List.drop_drop,
    List.mem_cons, List.not_mem_nil, or_false, Nat.zero_add, Nat.add_comm 1]
  all_goals by_cases hx : x = a <;> simp [hx]

theorem run_popGroup (key : String) (n : Nat) (players : List String) (s : St) :
    run (popGroup key n players) s = (.ok (), popped key n players s) := by
  induction players generalizing s with
  | nil => simp [popGroup, popped]
  | cons a players ih =>
    have hrest := ih (popped key n [a] s)
    rw [popped_cons] at hrest
    have hone : { s with
        wait := update s.wait key (s.wait key).tail
        account2wait := update s.account2wait a none
        matchFinish := update s.matchFinish a (some n) } = popped key n [a] s := by
      ext x <;> by_cases hx : x = a <;> simp [popped, update, hx]
    simp only [popGroup, forEach_cons, call, cmd_bind, ret_bind, run_step, exec_lpopWait, exec_write,
      applyWrite] at hrest ⊢
    rw [hone]
    exact hrest

/-- The player count the tick uses for the list `key`, unless reading it raises. -/
def countOf (s : St) (key : String) : Option Nat :=
  (nameList key).bind fun (_, gameid, _) => getPartyGamePlayerCount (s.partyPlayerCount gameid)

/-- The protocol queue the tick sends the groups of the list `key` to, if a server is registered. -/
def queueOf (s : St) (key : String) : Option String :=
  (nameList key).bind fun (_, gameid, _) => (s.servers gameid).head?.bind (protocolQueue gameid)

/-- The message for a group of the list `key`. -/
def groupMsg (w : Worker) (key : String) (players : List String) : JoinMsg :=
  match nameList key with
  | some (playid, _, rule) => ⟨w.joinHead, players, playid, rule⟩
  | none => ⟨w.joinHead, players, "", ""⟩

theorem getPartyGamePlayerCount_pos {raw : Option String} {n : Nat} (h : getPartyGamePlayerCount raw = some n) :
    0 < n := by
  unfold getPartyGamePlayerCount at h
  split at h
  · cases h; decide
  · split at h
    · cases h; decide
    · obtain ⟨i, -, rfl⟩ := Option.map_eq_some_iff.1 h
      split <;> omega

theorem countOf_pos {s : St} {key : String} {n : Nat} (h : countOf s key = some n) : 0 < n := by
  obtain ⟨_, -, h⟩ := Option.bind_eq_some_iff.1 h
  exact getPartyGamePlayerCount_pos h

theorem groupMsg_injective (w : Worker) (key : String) : Function.Injective (groupMsg w key) := by
  intro l l' h
  unfold groupMsg at h
  split at h <;> exact congrArg JoinMsg.players h

@[simp] theorem groupMsg_players (w : Worker) (key : String) (l : List String) : (groupMsg w key l).players = l := by
  unfold groupMsg; split <;> rfl

/-- Without a server nothing is sent, and nothing says so. -/
theorem run_send_none {s : St} {g : String} (h : s.servers g = []) (m : JoinMsg) :
    run (sendProtocol2OneGameService g m) s = (.ok (), s) := by
  simp [sendProtocol2OneGameService, call, h]

theorem run_send_malformed {s : St} {g t : String} {ts : List String} (h : s.servers g = t :: ts)
    (ht : protocolQueue g t = none) (m : JoinMsg) :
    run (sendProtocol2OneGameService g m) s = (.error .ValueError, s) := by
  simp [sendProtocol2OneGameService, call, h, ht]

theorem run_send_queue {s : St} {g t q : String} {ts : List String} (h : s.servers g = t :: ts)
    (ht : protocolQueue g t = some q) (m : JoinMsg) :
    run (sendProtocol2OneGameService g m) s = (.ok (), applyWrite s (.rpushProtocol q m)) := by
  simp [sendProtocol2OneGameService, call, h, ht]

/-! ## A list with a server -/

/-- After `r` rounds of the loop over a list with a server. -/
def dispatched (key : String) (n : Nat) (players : List String) (q : String) (m : JoinMsg) (r : Nat) (s : St) : St :=
  { s with
    wait := update s.wait key ((s.wait key).drop (r * players.length))
    account2wait := fun a => if 0 < r ∧ a ∈ players then none else s.account2wait a
    matchFinish := fun a => if 0 < r ∧ a ∈ players then some n else s.matchFinish a
    protocols := update s.protocols q (s.protocols q ++ List.replicate r m) }

theorem dispatched_zero (key : String) (n : Nat) (players : List String) (q : String) (m : JoinMsg) (s : St) :
    dispatched key n players q m 0 s = s := by
  simp [dispatched]

theorem dispatched_succ (key : String) (n : Nat) (players : List String) (q : String) (m : JoinMsg) (r : Nat)
    (s : St) :
    dispatched key n players q m r (applyWrite (popped key n players s) (.rpushProtocol q m)) =
      dispatched key n players q m (r + 1) s := by
  ext x <;> simp only [dispatched, applyWrite, popped, update_self, update_idem, List.drop_drop, Nat.add_mul,
    Nat.one_mul, List.append_assoc, Nat.zero_lt_succ, true_and, Nat.add_comm players.length]
  · by_cases hx : x ∈ players <;> simp [hx]
  · by_cases hx : x ∈ players <;> simp [hx]
  · simp [List.replicate_succ]

theorem run_groupLoop {w : Worker} {key playid gameid rule q t : String} {ts players : List String} {n : Nat}
    (hn : 0 < n) (ht : protocolQueue gameid t = some q) (rounds len : Nat) (hlen : len ≤ rounds) (s : St)
    (hs : s.servers gameid = t :: ts) :
    run (groupLoop w key playid gameid rule players n rounds len) s =
      (.ok (), dispatched key n (players.take n) q ⟨w.joinHead, players.take n, playid, rule⟩ (len / n) s) := by
  induction rounds generalizing len s with
  | zero =>
    obtain rfl : len = 0 := by omega
    simp [groupLoop, dispatched_zero]
  | succ rounds ih =>
    unfold groupLoop
    by_cases hle : n ≤ len
    · rw [if_pos hle, run_bind_ok (run_popGroup ..),
        run_bind_ok (run_send_queue (by simpa [popped] using hs) ht _),
        ih (len - n) (by omega) _ (by simpa [applyWrite, popped] using hs), dispatched_succ,
        Nat.div_eq_sub_div hn hle]
    · rw [if_neg hle, Nat.div_eq_of_lt (by omega), dispatched_zero]
      rfl

/-- One waiting list of the tick, with a server for its game. -/
def listDone (w : Worker) (key : String) (n : Nat) (q : String) (s : St) : St :=
  dispatched key n ((s.wait key).take n) q (groupMsg w key ((s.wait key).take n)) ((s.wait key).length / n) s

theorem run_selfCheckList {w : Worker} {key q : String} {n : Nat} {s : St} (hc : countOf s key = some n)
    (hq : queueOf s key = some q) : run (selfCheckList w key) s = (.ok (), listDone w key n q s) := by
  have hn := countOf_pos hc
  obtain ⟨⟨playid, gameid, rule⟩, hname, hc⟩ := Option.bind_eq_some_iff.1 hc
  obtain ⟨_, hname', hq⟩ := Option.bind_eq_some_iff.1 hq
  obtain ⟨t, ht, hq⟩ := Option.bind_eq_some_iff.1 hq
  rw [hname] at hname'; cases hname'
  obtain ⟨ts, hs⟩ := List.head?_eq_some_iff.1 ht
  simp only [selfCheckList, call, cmd_bind, ret_bind, run_step, exec_lrangeWait, hname, orRaise_some,
    exec_hgetPartyPlayerCount, hc]
  rw [run_groupLoop hn hq _ _ (Nat.le_refl _) s hs]
  simp [listDone, groupMsg, hname]

/-! ## A tick over several lists -/

/-- `P` holds of every list the tick comes to, in the store it finds there. -/
def AtEachList (w : Worker) (P : String → St → Prop) : List String → St → Prop
  | [], _ => True
  | key :: keys, s => P key s ∧ ∀ s', run (selfCheckList w key) s = (.ok (), s') → AtEachList w P keys s'

/-- What the tick keeps on each list it comes to, it keeps. -/
theorem selfCheck_keeps {w : Worker} {P : String → St → Prop} {I : St → Prop}
    (h : ∀ key s, P key s → I s → I (run (selfCheckList w key) s).2) {keys : List String} {s : St}
    (hp : AtEachList w P keys s) (hs : I s) : I (run (selfCheck w keys) s).2 := by
  induction keys generalizing s with
  | nil => exact hs
  | cons key keys ih =>
    have hi := h key s hp.1 hs
    simp only [selfCheck, forEach_cons]
    rcases hrun : run (selfCheckList w key) s with ⟨r, s'⟩
    rw [hrun] at hi
    cases r with
    | error e => rw [run_bind_error hrun]; exact hi
    | ok u => rw [run_bind_ok hrun]; exact ih (hp.2 s' hrun) hi

/-- `player_count` of the list `key`, where reading it does not raise. -/
def playerCount (s : St) (key : String) : Nat := (countOf s key).getD 0

/-- Every list has a readable player count and a registered server. -/
def Ready (s : St) (keys : List String) : Prop :=
  ∀ key ∈ keys, (countOf s key).isSome ∧ (queueOf s key).isSome

instance (s : St) (keys : List String) : Decidable (Ready s keys) :=
  inferInstanceAs (Decidable (∀ key ∈ keys, (countOf s key).isSome ∧ (queueOf s key).isSome))

/-- The messages the tick sends for the list `key`. -/
def sentBy (w : Worker) (s : St) (key : String) : List JoinMsg :=
  List.replicate ((s.wait key).length / playerCount s key)
    (groupMsg w key ((s.wait key).take (playerCount s key)))

/-- What a tick over the lists `keys` of `s`, all of them ready, leaves in `s'`. -/
structure TickDone (w : Worker) (keys : List String) (s s' : St) : Prop where
  wait : ∀ key ∈ keys, s'.wait key = rest (playerCount s key) (s.wait key)
  other : ∀ key ∉ keys, s'.wait key = s.wait key
  sent : ∀ q, s'.protocols q = s.protocols q ++ (keys.filter (queueOf s · = some q)).flatMap (sentBy w s)
  pointer : ∀ a, (∀ key ∈ keys, a ∈ s.wait key → a ∈ s'.wait key) → s'.account2wait a = s.account2wait a

theorem listDone_wait {w : Worker} {key q : String} {n : Nat} {s : St} :
    (listDone w key n q s).wait = update s.wait key (rest n (s.wait key)) := by
  simp only [listDone, dispatched, rest, List.length_take]
  congr 2
  by_cases h : n ≤ (s.wait key).length
  · rw [Nat.min_eq_left h]
  · rw [Nat.div_eq_of_lt (by omega)]; simp

/-- A pointer survives its list's round if its account does. -/
theorem listDone_pointer {w : Worker} {key q : String} {n : Nat} {s : St} {a : String} (hnd : (s.wait key).Nodup)
    (h : a ∈ s.wait key → a ∈ rest n (s.wait key)) :
    (listDone w key n q s).account2wait a = s.account2wait a := by
  simp only [listDone, dispatched]
  rw [if_neg]
  rintro ⟨hr, ha⟩
  have hmem := h (List.mem_of_mem_take ha)
  have hle : n ≤ (s.wait key).length / n * n := by
    calc n = 1 * n := (Nat.one_mul n).symm
      _ ≤ (s.wait key).length / n * n := Nat.mul_le_mul_right n hr
  have hd := List.take_append_drop n (s.wait key) ▸ hnd
  rw [List.nodup_append] at hd
  refine hd.2.2 a ha a ?_ rfl
  exact (List.drop_subset_drop_left (s.wait key) hle) hmem

theorem run_selfCheck {w : Worker} {keys : List String} (hk : keys.Nodup) {s : St} (hr : Ready s keys)
    (hnd : ∀ key ∈ keys, (s.wait key).Nodup) :
    ∃ s', run (selfCheck w keys) s = (.ok (), s') ∧ TickDone w keys s s' := by
  induction keys generalizing s with
  | nil => exact ⟨s, rfl, by constructor <;> simp⟩
  | cons key keys ih =>
    obtain ⟨hkey, hk⟩ := List.nodup_cons.1 hk
    obtain ⟨n, hc⟩ := Option.isSome_iff_exists.1 (hr key (by simp)).1
    obtain ⟨q, hq⟩ := Option.isSome_iff_exists.1 (hr key (by simp)).2
    have hpc : playerCount s key = n := by simp [playerCount, hc]
    have hw : ∀ j ∈ keys, (listDone w key n q s).wait j = s.wait j := fun j hj => by
      rw [listDone_wait, update_of_ne (by rintro rfl; exact hkey hj)]
    obtain ⟨s', hrun, hdone⟩ := ih (s := listDone w key n q s) hk (fun j hj => hr j (by simp [hj]))
      (fun j hj => by rw [hw j hj]; exact hnd j (by simp [hj]))
    have hthis : s'.wait key = rest n (s.wait key) := by
      rw [hdone.other key hkey, listDone_wait, update_self]
    refine ⟨s', ?_, ?_, ?_, ?_, ?_⟩
    · simp only [selfCheck, forEach_cons]
      rw [run_bind_ok (run_selfCheckList hc hq)]
      exact hrun
    · intro j hj
      rcases List.mem_cons.1 hj with rfl | hj
      · rw [hthis, hpc]
      · rw [hdone.wait j hj, hw j hj]; rfl
    · intro j hj
      simp only [List.mem_cons, not_or] at hj
      rw [hdone.other j hj.2, listDone_wait, update_of_ne hj.1]
    · intro q'
      have hsent : (keys.filter (queueOf s · = some q')).flatMap (sentBy w (listDone w key n q s)) =
          (keys.filter (queueOf s · = some q')).flatMap (sentBy w s) := by
        refine List.flatMap_congr fun j hj => ?_
        simp only [sentBy, hw j (List.mem_filter.1 hj).1]
        rfl
      have hs' := hdone.sent q'
      change s'.protocols q' = _ ++ (keys.filter (queueOf s · = some q')).flatMap _ at hs'
      rw [hs', hsent, List.filter_cons]
      by_cases hqq : q = q'
      · subst hqq
        simp [hq, listDone, dispatched, sentBy, hpc]
      · simp [hq, hqq, listDone, dispatched, update_of_ne (Ne.symm hqq)]
    · intro a ha
      rw [hdone.pointer a fun j hj => by rw [hw j hj]; exact ha j (by simp [hj])]
      exact listDone_pointer (hnd key (by simp)) (by rw [← hthis]; exact ha key (by simp))

/-! ## Do the groups partition the queue? -/

/-- The messages that send every full group of the list `key` once, in order. -/
def blockMsgs (w : Worker) (s : St) (key : String) : List JoinMsg :=
  (blocks (playerCount s key) (s.wait key)).map (groupMsg w key)

/-- The tick from `s` to `s'` partitions each waiting list into the groups it
sends and the players it keeps. -/
structure Partitions (w : Worker) (keys : List String) (s s' : St) : Prop where
  /-- each queue receives the consecutive blocks of its lists, once each -/
  sent : ∀ q, s'.protocols q = s.protocols q ++ (keys.filter (queueOf s · = some q)).flatMap (blockMsgs w s)
  /-- a popped account is in exactly one sent group, a waiting one in none -/
  once : ∀ key ∈ keys, ∀ q, queueOf s key = some q → ∀ a ∈ s.wait key,
    ((s'.protocols q).drop (s.protocols q).length).countP (a ∈ ·.players) = if a ∈ s'.wait key then 0 else 1
  /-- the players of no full group stay, in order -/
  left : ∀ key ∈ keys, s'.wait key = rest (playerCount s key) (s.wait key)
  /-- and keep their pointers -/
  kept : ∀ key ∈ keys, ∀ a ∈ s'.wait key, s'.account2wait a = s.account2wait a

theorem flatMap_eq_of_length {α β : Type} {l : List α} {f g : α → List β} (hlen : ∀ x ∈ l, (f x).length = (g x).length)
    (h : l.flatMap f = l.flatMap g) : ∀ x ∈ l, f x = g x := by
  induction l with
  | nil => simp
  | cons x l ih =>
    simp only [List.flatMap_cons] at h
    obtain ⟨hx, hl⟩ := List.append_inj h (hlen x (by simp))
    intro y hy
    rcases List.mem_cons.1 hy with rfl | hy
    · exact hx
    · exact ih (fun z hz => hlen z (by simp [hz])) hl y hy

/-- The blocks of several lists without a common player put a player into one group. -/
theorem countP_blockMsgs {w : Worker} {s : St} {keys : List String} (hk : keys.Nodup)
    (hnd : ∀ key ∈ keys, (s.wait key).Nodup)
    (hdis : ∀ key ∈ keys, ∀ j ∈ keys, key ≠ j → (s.wait key).Disjoint (s.wait j))
    {key : String} (hkey : key ∈ keys) {a : String} (ha : a ∈ s.wait key) :
    (keys.flatMap (blockMsgs w s)).countP (a ∈ ·.players) =
      if a ∈ rest (playerCount s key) (s.wait key) then 0 else 1 := by
  have hgroups : (keys.flatMap (blockMsgs w s)).countP (a ∈ ·.players) =
      (keys.flatMap fun j => blocks (playerCount s j) (s.wait j)).countP (a ∈ ·) := by
    rw [List.countP_flatMap, List.countP_flatMap]
    congr 1
    refine List.map_congr_left fun j _ => ?_
    simp [blockMsgs, List.countP_map, Function.comp_def]
  have hsub : ∀ j, ∀ x ∈ (blocks (playerCount s j) (s.wait j)).flatten, x ∈ s.wait j := fun j x hx => by
    rw [flatten_blocks] at hx; exact List.mem_of_mem_take hx
  have hflat : (keys.flatMap fun j => blocks (playerCount s j) (s.wait j)).flatten =
      keys.flatMap fun j => (blocks (playerCount s j) (s.wait j)).flatten := by
    simp [List.flatMap_def, List.flatten_flatten, Function.comp_def]
  have hnodup : (keys.flatMap fun j => (blocks (playerCount s j) (s.wait j)).flatten).Nodup := by
    refine List.nodup_flatMap.2 ⟨fun j hj => ?_, ?_⟩
    · rw [flatten_blocks]; exact (hnd j hj).sublist (List.take_sublist _ _)
    · refine hk.imp_of_mem fun hi hj hij x hx hy => ?_
      exact hdis _ hi _ hj hij (hsub _ x hx) (hsub _ x hy)
  rw [hgroups, countP_mem_flatten _ (hflat ▸ hnodup), hflat]
  have hmem : a ∈ (keys.flatMap fun j => (blocks (playerCount s j) (s.wait j)).flatten) ↔
      a ∉ rest (playerCount s key) (s.wait key) := by
    rw [← mem_flatten_iff (hnd key hkey) ha, List.mem_flatMap]
    constructor
    · rintro ⟨j, hj, hx⟩
      by_cases hjk : j = key
      · exact hjk ▸ hx
      · exact absurd (hsub j a hx) (hdis key hkey j hj (Ne.symm hjk) ha)
    · exact fun hx => ⟨key, hkey, hx⟩
  simp only [hmem, ite_not]

/-- A tick partitions its waiting lists exactly when none of them holds two full groups. -/
theorem selfCheck_partitions_iff (w : Worker) (keys : List String) (s : St) (hk : keys.Nodup) (hr : Ready s keys)
    (hnd : ∀ key ∈ keys, (s.wait key).Nodup)
    (hdis : ∀ key ∈ keys, ∀ j ∈ keys, key ≠ j → (s.wait key).Disjoint (s.wait j)) :
    Partitions w keys s (run (selfCheck w keys) s).2 ↔
      ∀ key ∈ keys, (s.wait key).length < 2 * playerCount s key := by
  obtain ⟨s', hrun, hdone⟩ := run_selfCheck (w := w) hk hr hnd
  rw [hrun]
  have hlen : ∀ key, (sentBy w s key).length = (blockMsgs w s key).length := fun key => by
    simp [sentBy, blockMsgs]
  constructor
  · intro hp key hkey
    obtain ⟨n, hc⟩ := Option.isSome_iff_exists.1 (hr key hkey).1
    obtain ⟨q, hq⟩ := Option.isSome_iff_exists.1 (hr key hkey).2
    have hpos : 0 < playerCount s key := by simp [playerCount, hc, countOf_pos hc]
    have heq := List.append_cancel_left ((hdone.sent q).symm.trans (hp.sent q))
    have hone := flatMap_eq_of_length (fun j _ => hlen j) heq key (List.mem_filter.2 ⟨hkey, by simp [hq]⟩)
    by_contra hlt
    refine blocks_ne_replicate hpos (hnd key hkey) (Nat.le_of_not_lt hlt) ?_
    refine List.map_injective_iff.2 (groupMsg_injective w key) ?_
    rw [List.map_replicate]
    exact hone.symm
  · intro hshort
    have hsent : ∀ q, s'.protocols q =
        s.protocols q ++ (keys.filter (queueOf s · = some q)).flatMap (blockMsgs w s) := by
      intro q
      rw [hdone.sent q]
      congr 1
      refine List.flatMap_congr fun key hkey => ?_
      simp only [sentBy, blockMsgs, blocks_eq_replicate (hshort key (List.mem_filter.1 hkey).1), List.map_replicate]
    refine ⟨hsent, ?_, hdone.wait, ?_⟩
    · intro key hkey q hq a ha
      have hsub : ∀ j ∈ keys.filter (queueOf s · = some q), j ∈ keys := fun j hj => (List.mem_filter.1 hj).1
      rw [hsent q, List.drop_left, hdone.wait key hkey]
      exact countP_blockMsgs (hk.filter _) (fun j hj => hnd j (hsub j hj))
        (fun i hi j hj => hdis i (hsub i hi) j (hsub j hj)) (List.mem_filter.2 ⟨hkey, by simp [hq]⟩) ha
    · intro key hkey a ha
      refine hdone.pointer a fun j hj haj => ?_
      by_cases hjk : key = j
      · exact hjk ▸ ha
      · rw [hdone.wait key hkey] at ha
        exact absurd haj (hdis key hkey j hj hjk (List.mem_of_mem_drop ha))

/-- A waiting list of game 3, which is played by two. -/
def sampleKey : String := gold.waitKey "7" "3" joinRule

/-- The list `sampleKey` with the players `players`, and one server for its game. -/
def sampleSt (players : List String) : St :=
  St.ofLists [(sampleKey, players)] [("3", "2")] [("3", ["service:game:3:1:10.0.0.1:7000"])]

theorem sampleSt_wait (players : List String) (key : String) :
    (sampleSt players).wait key = if key = sampleKey then players else [] := by
  by_cases hk : key = sampleKey
  · subst hk; simp [sampleSt, St.ofLists]
  · simp [sampleSt, St.ofLists, List.lookup_cons, hk, beq_false_of_ne hk]

theorem selfCheck_partitions_three :
    Partitions gold [sampleKey] (sampleSt ["a", "b", "c"])
      (run (selfCheck gold [sampleKey]) (sampleSt ["a", "b", "c"])).2 :=
  (selfCheck_partitions_iff gold [sampleKey] (sampleSt ["a", "b", "c"]) (by decide) (by decide) (by decide)
    (by simp)).2 (by decide)

/-- With four players waiting, both messages carry the first two. -/
theorem selfCheck_repeats_group :
    ¬Partitions gold [sampleKey] (sampleSt ["a", "b", "c", "d"])
      (run (selfCheck gold [sampleKey]) (sampleSt ["a", "b", "c", "d"])).2 := by
  intro h
  have hsent := h.sent "service:protocols:game:3:1:10.0.0.1:7000"
  revert hsent
  decide

end FishWeb.Match
