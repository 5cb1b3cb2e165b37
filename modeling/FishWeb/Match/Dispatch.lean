import FishWeb.Match.SelfCheck
/-!
# Groups the tick takes and groups it sends

`self_check` pops a group and flags its players before it looks for a server,
and `sendProtocol2OneGameService` says nothing when there is none. The trace of
a tick shows both: who was popped and flagged, and which messages were pushed.
-/
open Python Prog Function

namespace FishWeb.Match

/-- The events of the tick on one list. -/
def listTrace (w : Worker) (key : String) (s : St) : List Ev := trace Ev (selfCheckList w key) s

/-- No server is registered for the game of the list `key`. -/
def NoServer (s : St) (key : String) : Prop :=
  ∀ playid gameid rule, nameList key = some (playid, gameid, rule) → s.servers gameid = []

/-- The tick on the list `key` loses no player: one it pops and flags is in a
group it sends, and without a server it leaves lists, pointers and flags alone. -/
structure Delivers (w : Worker) (key : String) (s : St) : Prop where
  sent : ∀ a, .popped key a ∈ listTrace w key s → .matched a ∈ listTrace w key s →
    ∃ q players, .sent q (groupMsg w key players) ∈ listTrace w key s ∧ a ∈ players
  untouched : NoServer s key → (run (selfCheckList w key) s).2.wait = s.wait ∧
    (run (selfCheckList w key) s).2.account2wait = s.account2wait ∧
    (run (selfCheckList w key) s).2.matchFinish = s.matchFinish

/-- A full group on the list `key` finds a server: the first one registered for
the game, with the six fields of a server's key. -/
def Served (s : St) (key : String) : Prop :=
  ∀ n, countOf s key = some n → n ≤ (s.wait key).length → (queueOf s key).isSome

/-! ## Traces of the functions -/

theorem mem_trace_popGroup {key : String} {n : Nat} {players : List String} {s : St} {e : Ev}
    (h : e ∈ trace Ev (popGroup key n players) s) :
    (∃ a, e = .popped key a) ∨ ∃ a ∈ players, e = .unpointed a ∨ e = .matched a := by
  induction players generalizing s with
  | nil => simp [popGroup] at h
  | cons a players ih =>
    simp only [popGroup, forEach_cons, call, cmd_bind, ret_bind, trace_step, List.mem_append] at h
    rcases h with h | h | h | h
    · rw [exec_lpopWait] at h
      cases hh : (s.wait key).head? with
      | none => rw [hh] at h; simp at h
      | some b => rw [hh] at h; exact .inl ⟨b, by simpa using h⟩
    · simp only [exec_write, note_write, noteWrite, List.mem_singleton] at h
      exact .inr ⟨a, by simp, .inl h⟩
    · simp only [exec_write, note_write, noteWrite, List.mem_singleton] at h
      exact .inr ⟨a, by simp, .inr h⟩
    · rcases ih h with h | ⟨b, hb, h⟩
      · exact .inl h
      · exact .inr ⟨b, by simp [hb], h⟩

/-- The first player of the group is popped, if first on the list, and flagged. -/
theorem trace_popGroup_head {key a : String} (n : Nat) (players : List String) {waiting : List String} {s : St}
    (hs : s.wait key = a :: waiting) :
    .popped key a ∈ trace Ev (popGroup key n (a :: players)) s ∧
      .matched a ∈ trace Ev (popGroup key n (a :: players)) s := by
  constructor <;>
    simp [popGroup, forEach_cons, call, hs, noteWrite]

theorem trace_send_none {s : St} {g : String} (h : (s.servers g).head?.bind (protocolQueue g) = none) (m : JoinMsg) :
    trace Ev (sendProtocol2OneGameService g m) s = [] := by
  cases hs : s.servers g with
  | nil => simp [sendProtocol2OneGameService, call, hs]
  | cons t ts =>
    have ht : protocolQueue g t = none := by simpa [hs] using h
    simp [sendProtocol2OneGameService, call, hs, ht]

theorem trace_send_some {s : St} {g q : String} (h : (s.servers g).head?.bind (protocolQueue g) = some q)
    (m : JoinMsg) : trace Ev (sendProtocol2OneGameService g m) s = [.sent q m] := by
  cases hs : s.servers g with
  | nil => simp [hs] at h
  | cons t ts =>
    have ht : protocolQueue g t = some q := by simpa [hs] using h
    simp [sendProtocol2OneGameService, call, hs, ht, noteWrite]

/-- Without a usable server the loop sends nothing. -/
theorem groupLoop_sends_nothing {w : Worker} {key playid gameid rule : String} {waitplayers : List String} {n : Nat}
    {rounds len : Nat} {s : St} (h : (s.servers gameid).head?.bind (protocolQueue gameid) = none) (q : String)
    (m : JoinMsg) : .sent q m ∉ trace Ev (groupLoop w key playid gameid rule waitplayers n rounds len) s := by
  induction rounds generalizing len s with
  | zero => simp [groupLoop]
  | succ rounds ih =>
    unfold groupLoop
    split
    · rw [trace_bind_ok (run_popGroup ..)]
      have hp : ((popped key n (waitplayers.take n) s).servers gameid).head?.bind (protocolQueue gameid) = none := h
      simp only [List.mem_append, not_or]
      refine ⟨fun hm => ?_, ?_⟩
      · rcases mem_trace_popGroup hm with ⟨a, ha⟩ | ⟨a, -, ha | ha⟩ <;> cases ha
      · cases hs : s.servers gameid with
        | nil =>
          rw [trace_bind_ok (run_send_none (s := popped key n (waitplayers.take n) s) hs _), trace_send_none hp]
          exact ih h
        | cons t ts =>
          have ht : protocolQueue gameid t = none := by simpa [hs] using h
          rw [trace_bind_error (run_send_malformed (s := popped key n (waitplayers.take n) s) hs ht _),
            trace_send_none hp]
          simp
    · simp

/-- Only players of the first group are flagged. -/
theorem groupLoop_flags {w : Worker} {key playid gameid rule : String} {waitplayers : List String} {n : Nat}
    {rounds len : Nat} {s : St} {q t : String} {ts : List String} (hs : s.servers gameid = t :: ts)
    (ht : protocolQueue gameid t = some q) {a : String}
    (h : .matched a ∈ trace Ev (groupLoop w key playid gameid rule waitplayers n rounds len) s) :
    a ∈ waitplayers.take n ∧ .sent q ⟨w.joinHead, waitplayers.take n, playid, rule⟩ ∈
      trace Ev (groupLoop w key playid gameid rule waitplayers n rounds len) s := by
  induction rounds generalizing len s with
  | zero => simp [groupLoop] at h
  | succ rounds ih =>
    unfold groupLoop at h ⊢
    split at h
    case isFalse => simp at h
    rename_i hle
    have hq : ((popped key n (waitplayers.take n) s).servers gameid).head?.bind (protocolQueue gameid) = some q := by
      simp [popped, hs, ht]
    rw [if_pos hle, trace_bind_ok (run_popGroup ..), trace_bind_ok (run_send_queue (by simpa [popped] using hs) ht _),
      trace_send_some hq] at *
    simp only [List.mem_append, List.mem_singleton, reduceCtorEq, false_or, true_or, or_true, and_true] at h ⊢
    rcases h with h | h
    · rcases mem_trace_popGroup h with ⟨b, hb⟩ | ⟨b, hb, he | he⟩
      · cases hb
      · cases he
      · cases he; exact hb
    · exact (ih (by simpa [applyWrite, popped] using hs) h).1

/-- A full group is taken off the list, whatever happens next. -/
theorem groupLoop_pops (w : Worker) {key : String} (playid gameid rule : String) {a : String} {waiting : List String}
    {n rounds len : Nat} {s : St} (hn : 0 < n) (hle : n ≤ len) (hr : 0 < rounds) (hs : s.wait key = a :: waiting) :
    .popped key a ∈ trace Ev (groupLoop w key playid gameid rule (a :: waiting) n rounds len) s ∧
      .matched a ∈ trace Ev (groupLoop w key playid gameid rule (a :: waiting) n rounds len) s := by
  obtain ⟨rounds, rfl⟩ := Nat.exists_eq_add_one_of_ne_zero (by omega : rounds ≠ 0)
  obtain ⟨n, rfl⟩ := Nat.exists_eq_add_one_of_ne_zero (by omega : n ≠ 0)
  unfold groupLoop
  rw [if_pos hle, trace_bind_ok (run_popGroup ..), List.take_succ_cons]
  obtain ⟨hp, hm⟩ := trace_popGroup_head (n + 1) (waiting.take n) hs
  exact ⟨List.mem_append_left _ hp, List.mem_append_left _ hm⟩

/-- A list too short for a group is left alone. -/
theorem groupLoop_short {w : Worker} {key playid gameid rule : String} {waitplayers : List String} {n rounds len : Nat}
    (h : len < n) : groupLoop w key playid gameid rule waitplayers n rounds len = .ret () := by
  cases rounds with
  | zero => rfl
  | succ rounds => unfold groupLoop; rw [if_neg (by omega)]; rfl

/-- The list's tick is its loop, once the key and the count are read. -/
theorem selfCheckList_loop {w : Worker} {key : String} {n : Nat} {s : St} (hc : countOf s key = some n) :
    ∃ playid gameid rule, nameList key = some (playid, gameid, rule) ∧
      listTrace w key s = .listed key (s.wait key) :: trace Ev (groupLoop w key playid gameid rule (s.wait key) n
        (s.wait key).length (s.wait key).length) s ∧
      run (selfCheckList w key) s = run (groupLoop w key playid gameid rule (s.wait key) n (s.wait key).length
        (s.wait key).length) s := by
  obtain ⟨⟨playid, gameid, rule⟩, hname, hc⟩ := Option.bind_eq_some_iff.1 hc
  refine ⟨playid, gameid, rule, hname, ?_, ?_⟩ <;>
    simp [listTrace, selfCheckList, call, hname, hc]

/-- A list whose key or count cannot be read is left alone. -/
theorem selfCheckList_unread {w : Worker} {key : String} {s : St} (hc : countOf s key = none) :
    listTrace w key s = [.listed key (s.wait key)] ∧ (run (selfCheckList w key) s).2 = s := by
  cases hname : nameList key with
  | none => simp [listTrace, selfCheckList, call, hname]
  | some p =>
    have hp : getPartyGamePlayerCount (s.partyPlayerCount p.2.1) = none := by simpa [countOf, hname] using hc
    simp [listTrace, selfCheckList, call, hname, hp]

/-! ## When a group is lost -/

/-- On one list, in any store: no player is lost exactly when a full group finds a server. -/
theorem delivers_iff (w : Worker) (key : String) (s : St) : Delivers w key s ↔ Served s key := by
  constructor
  · intro hd n hc hle
    by_contra hq
    obtain ⟨playid, gameid, rule, hname, htr, -⟩ := selfCheckList_loop (w := w) hc
    have hnq : (s.servers gameid).head?.bind (protocolQueue gameid) = none := by
      simpa [queueOf, hname] using hq
    have hn := countOf_pos hc
    obtain ⟨a, waiting, hs⟩ := List.exists_cons_of_length_pos (by omega : 0 < (s.wait key).length)
    obtain ⟨hp, hm⟩ := groupLoop_pops w playid gameid rule hn hle
      (by omega : 0 < (s.wait key).length) hs
    rw [← hs] at hp hm
    obtain ⟨q, players, hsent, -⟩ := hd.sent a (by simp [htr, hp]) (by simp [htr, hm])
    simp only [htr, List.mem_cons, reduceCtorEq, false_or] at hsent
    exact groupLoop_sends_nothing hnq q _ hsent
  · intro hserved
    cases hc : countOf s key with
    | none =>
      obtain ⟨htr, hrun⟩ := selfCheckList_unread (w := w) hc
      exact ⟨by simp [htr], by simp [hrun]⟩
    | some n =>
      obtain ⟨playid, gameid, rule, hname, htr, hrun⟩ := selfCheckList_loop (w := w) hc
      by_cases hle : n ≤ (s.wait key).length
      · obtain ⟨q, hq⟩ := Option.isSome_iff_exists.1 (hserved n hc hle)
        obtain ⟨t, ht, hq'⟩ : ∃ t, (s.servers gameid).head? = some t ∧ protocolQueue gameid t = some q := by
          simpa [queueOf, hname, Option.bind_eq_some_iff] using hq
        obtain ⟨ts, hs⟩ := List.head?_eq_some_iff.1 ht
        constructor
        · intro a _ hm
          simp only [htr, List.mem_cons, reduceCtorEq, false_or] at hm ⊢
          obtain ⟨ha, hsent⟩ := groupLoop_flags hs hq' hm
          exact ⟨q, (s.wait key).take n, by simpa [groupMsg, hname] using hsent, ha⟩
        · intro hno
          rw [hno _ _ _ hname] at hs
          cases hs
      · have hshort : groupLoop w key playid gameid rule (s.wait key) n (s.wait key).length (s.wait key).length =
            .ret () := groupLoop_short (Nat.lt_of_not_le hle)
        exact ⟨by simp [htr, hshort], by simp [hrun, hshort]⟩

/-- Over the whole tick, from any store and registry: no list loses a player
exactly when every full group the tick comes to finds a server. -/
theorem selfCheck_delivers_iff (w : Worker) (keys : List String) (s : St) :
    AtEachList w (Delivers w) keys s ↔ AtEachList w (fun key s' => Served s' key) keys s := by
  rw [show Delivers w = fun key s' => Served s' key from funext₂ fun key s' => propext (delivers_iff w key s')]

/-- With no server registered, a full group is popped, flagged and sent nowhere. -/
theorem selfCheck_loses_group :
    ¬AtEachList gold (Delivers gold) [sampleKey] (St.ofLists [(sampleKey, ["a", "b"])] [("3", "2")] []) := by
  intro h
  have hlost := (h.1.untouched fun _ _ _ _ => rfl).1
  have := congrFun hlost sampleKey
  revert this
  decide

end FishWeb.Match
