import FishWeb.Match.Dispatch
import FishWeb.Lib.Runs
/-!
# Waiting lists and pointers

`ACCOUNT2WAIT` is meant to mirror the waiting lists. A join checks only the list
it joins and a tick pops more groups than it cleans up, so the mirror holds along
the runs where neither happens: no join by an account that waits elsewhere, and
no tick over a list with two full groups.
-/
open Python Prog Function Runs

namespace FishWeb.Match

/-! ## Requests -/

inductive Req where
  | join (account playid gameid : String)
  | cancel (account : String)
  /-- a tick of `self_check` over the lists `redis.keys` answers -/
  | tick (keys : List String)
  | success (server_table : String) (accountlist : List String) (playid rule : String)

/-- The store after a request, run to its end or to its exception. -/
def step (w : Worker) : Req → St → St
  | .join a playid gameid, s => (run (onJoinRoom w a playid gameid) s).2
  | .cancel a, s => (run (onCancelJoinRoom a) s).2
  | .tick keys, s => (run (selfCheck w keys) s).2
  | .success t l playid rule, s => (run (onJoinGoldRoomSuccess t l playid rule) s).2

/-- An account is on a list, once, exactly when its pointer names the list. -/
structure Mirror (s : St) : Prop where
  pointer : ∀ key a, a ∈ s.wait key ↔ s.account2wait a = some key
  nodup : ∀ key, (s.wait key).Nodup

def NoneWaiting (s : St) : Prop := (∀ key, s.wait key = []) ∧ ∀ a, s.account2wait a = none

/-- A cancel that succeeds leaves its account on no list. -/
def CancelLeaves (w : Worker) : Req → St → Prop
  | .cancel a, s => (run (onCancelJoinRoom a) s).1 = .ok .ok → ∀ key, a ∉ (step w (.cancel a) s).wait key
  | _, _ => True

/-- The first server of the list's game has a key that does not unpack. -/
def Malformed (s : St) (key : String) : Prop :=
  ∃ playid gameid rule t ts, nameList key = some (playid, gameid, rule) ∧ s.servers gameid = t :: ts ∧
    protocolQueue gameid t = none

/-- The tick takes at most one group off the list: it has no second one, or the
dispatch of the first raises. -/
def OneGroup (s : St) (key : String) : Prop :=
  ∀ n, countOf s key = some n → 2 * n ≤ (s.wait key).length → Malformed s key

/-- The requests under which the mirror holds: a join that goes through is by an
account that waits on no other list, and a tick takes one group per list. -/
def Safe (w : Worker) : Req → St → Prop
  | .join a playid gameid, s => ((s.partyPlayerCount gameid).bind int).isSome → s.exitPlayer a = false →
      ∀ key, s.account2wait a = some key → key = w.waitKey playid gameid joinRule
  | .tick keys, s => AtEachList w (fun key s' => OneGroup s' key) keys s
  | _, _ => True

/-! ## The requests, one by one -/

theorem run_isWaiting (key a : String) (s : St) : run (isWaiting key a) s = (.ok (decide (a ∈ s.wait key)), s) := by
  cases h : s.wait key with
  | nil => simp [isWaiting, call, h]
  | cons b l => simp [isWaiting, call, h]

/-- A join changes nothing, or puts the account at the end of a list that does not hold it. -/
theorem run_join (w : Worker) (a playid gameid : String) (s : St) :
    (run (onJoinRoom w a playid gameid) s).2 = s ∨
      ((s.partyPlayerCount gameid).bind int).isSome ∧ s.exitPlayer a = false ∧
        a ∉ s.wait (w.waitKey playid gameid joinRule) ∧
        (run (onJoinRoom w a playid gameid) s).2 =
          applyWrite (applyWrite s (.rpushWait (w.waitKey playid gameid joinRule) a))
            (.setAccount2wait a (w.waitKey playid gameid joinRule)) := by
  cases hraw : s.partyPlayerCount gameid with
  | none => left; simp [onJoinRoom, call, hraw]
  | some raw =>
    cases hint : int raw with
    | none => left; simp [onJoinRoom, call, hraw, hint]
    | some n =>
      cases hexit : s.exitPlayer a with
      | true => left; simp [onJoinRoom, call, hraw, hint, hexit]
      | false =>
        by_cases hin : a ∈ s.wait (w.waitKey playid gameid joinRule)
        · left
          simp [onJoinRoom, call, hraw, hint, hexit, run_bind_ok (run_isWaiting ..), hin]
        · right
          simp [onJoinRoom, call, hraw, hint, hexit, run_bind_ok (run_isWaiting ..), hin]

/-- A cancel answers by the pointer, and removes the account from the list it names. -/
theorem run_cancel (a : String) (s : St) :
    run (onCancelJoinRoom a) s = match s.account2wait a with
      | none => (.ok .notWaiting, s)
      | some key => (.ok .ok, applyWrite (applyWrite s (.deleteAccount2wait a)) (.lremWait key a)) := by
  cases hp : s.account2wait a with
  | none => simp [onCancelJoinRoom, call, hp]
  | some key =>
    by_cases hin : a ∈ s.wait key
    · simp [onCancelJoinRoom, call, hp, run_bind_ok (run_isWaiting ..), hin]
    · have hnone : (s.wait key).filter (· ≠ a) = s.wait key :=
        List.filter_eq_self.2 fun b hb => by simpa using fun h : b = a => hin (h ▸ hb)
      simp only [applyWrite, hnone, update_eq_self]
      simp [onCancelJoinRoom, call, hp, run_bind_ok (run_isWaiting ..), hin, applyWrite]

theorem joinSuccess_keeps (key : String) (l : List String) (s : St) :
    ((joinSuccessWrites key l).foldl applyWrite s).wait = s.wait ∧
      ((joinSuccessWrites key l).foldl applyWrite s).account2wait = s.account2wait := by
  induction l generalizing s with
  | nil => simp [joinSuccessWrites]
  | cons a l ih =>
    simp only [joinSuccessWrites, List.flatMap_cons, List.foldl_append] at ih ⊢
    exact ih _

theorem step_success_keeps (w : Worker) (t : String) (l : List String) (playid rule : String) (s : St) :
    (step w (.success t l playid rule) s).wait = s.wait ∧
      (step w (.success t l playid rule) s).account2wait = s.account2wait := by
  simp only [step, onJoinGoldRoomSuccess]
  cases alreadyInList ingameKey t playid rule with
  | none => exact ⟨rfl, rfl⟩
  | some key => exact joinSuccess_keeps key l s

/-- One list of the tick leaves lists and pointers as they are, or as after popping one group. -/
theorem selfCheckList_one {w : Worker} {key : String} {s s' : St} (h : OneGroup s key)
    (hs' : (run (selfCheckList w key) s).2 = s') :
    (s'.wait = s.wait ∧ s'.account2wait = s.account2wait) ∨
      ∃ n, n ≤ (s.wait key).length ∧ s'.wait = (popped key n ((s.wait key).take n) s).wait ∧
        s'.account2wait = (popped key n ((s.wait key).take n) s).account2wait := by
  cases hc : countOf s key with
  | none =>
    rw [(selfCheckList_unread hc).2] at hs'
    subst hs'
    exact .inl ⟨rfl, rfl⟩
  | some n =>
    have hn := countOf_pos hc
    obtain ⟨playid, gameid, rule, hname, -, hrun⟩ := selfCheckList_loop (w := w) hc
    rw [hrun] at hs'
    by_cases hle : n ≤ (s.wait key).length
    · right
      refine ⟨n, hle, ?_⟩
      -- the second round of the loop takes nothing
      have hrest : protocolQueue gameid ((s.servers gameid).headD "") ≠ none ∨ s.servers gameid = [] →
          groupLoop w key playid gameid rule (s.wait key) n ((s.wait key).length - 1) ((s.wait key).length - n) =
            .ret () := by
        intro hsrv
        refine groupLoop_short (Nat.lt_of_not_le fun h2 => ?_)
        obtain ⟨_, g, _, t, ts, hname', hts, ht⟩ := h n hc (by omega)
        rw [hname] at hname'; cases hname'
        simp [hts, ht] at hsrv
      obtain ⟨r, hr⟩ := Nat.exists_eq_add_one_of_ne_zero (by omega : (s.wait key).length ≠ 0)
      rw [hr] at hs' hrest
      simp only [Nat.add_sub_cancel] at hrest
      unfold groupLoop at hs'
      rw [if_pos (hr ▸ hle), run_bind_ok (run_popGroup ..)] at hs'
      cases hsrv : s.servers gameid with
      | nil =>
        rw [run_bind_ok (run_send_none (s := popped key n ((s.wait key).take n) s) hsrv _),
          hrest (.inr hsrv)] at hs'
        subst hs'
        exact ⟨rfl, rfl⟩
      | cons t ts =>
        cases ht : protocolQueue gameid t with
        | none =>
          rw [run_bind_error (run_send_malformed (s := popped key n ((s.wait key).take n) s) hsrv ht _)] at hs'
          subst hs'
          exact ⟨rfl, rfl⟩
        | some q =>
          rw [run_bind_ok (run_send_queue (s := popped key n ((s.wait key).take n) s) hsrv ht _),
            hrest (.inl (by simp [hsrv, ht]))] at hs'
          subst hs'
          exact ⟨rfl, rfl⟩
    · left
      rw [groupLoop_short (Nat.lt_of_not_le hle)] at hs'
      subst hs'
      exact ⟨rfl, rfl⟩

/-! ## The mirror along a run -/

theorem Mirror.congr {s s' : St} (h : Mirror s) (hw : s'.wait = s.wait) (hp : s'.account2wait = s.account2wait) :
    Mirror s' :=
  ⟨fun key a => by rw [hw, hp]; exact h.pointer key a, fun key => by rw [hw]; exact h.nodup key⟩

theorem Mirror.popped {s : St} (h : Mirror s) {key : String} {n : Nat} (hn : n ≤ (s.wait key).length) :
    Mirror (popped key n ((s.wait key).take n) s) := by
  have hsplit := List.take_append_drop n (s.wait key) ▸ h.nodup key
  rw [List.nodup_append] at hsplit
  have hlen : ((s.wait key).take n).length = n := by simp [hn]
  refine ⟨fun j a => ?_, fun j => ?_⟩
  · by_cases ha : a ∈ (s.wait key).take n
    · -- a popped account: it was on `key` only, and is not in what is left
      have hp := (h.pointer key a).1 (List.mem_of_mem_take ha)
      simp only [Match.popped, hlen, ha, if_true, reduceCtorEq, iff_false]
      by_cases hj : j = key
      · subst hj
        rw [update_self]
        exact fun hd => hsplit.2.2 a ha a hd rfl
      · rw [update_of_ne hj, h.pointer j a, hp]
        exact fun he => hj (Option.some.inj he).symm
    · simp only [Match.popped, hlen, ha, if_false]
      by_cases hj : j = key
      · subst hj
        rw [update_self, ← h.pointer j a]
        refine ⟨List.mem_of_mem_drop, fun hm => ?_⟩
        rw [← List.take_append_drop n (s.wait j), List.mem_append] at hm
        exact hm.resolve_left ha
      · rw [update_of_ne hj]
        exact h.pointer j a
  · by_cases hj : j = key
    · subst hj
      simp only [Match.popped, hlen, update_self]
      exact hsplit.2.1
    · simp only [Match.popped, update_of_ne hj]
      exact h.nodup j

theorem Mirror.join {s : St} (h : Mirror s) {key a : String} (ha : a ∉ s.wait key)
    (hp : ∀ j, s.account2wait a = some j → j = key) :
    Mirror (applyWrite (applyWrite s (.rpushWait key a)) (.setAccount2wait a key)) := by
  have hnone : ∀ j, a ∉ s.wait j := fun j hj => by
    have := hp j ((h.pointer j a).1 hj)
    exact ha (this ▸ hj)
  refine ⟨fun j b => ?_, fun j => ?_⟩
  · by_cases hb : b = a
    · subst hb
      by_cases hj : j = key
      · subst hj; simp [applyWrite]
      · simp [applyWrite, update_of_ne hj, hnone j, Ne.symm hj]
    · by_cases hj : j = key
      · subst hj; simp [applyWrite, hb, h.pointer]
      · simp [applyWrite, update_of_ne hb, update_of_ne hj, h.pointer]
  · by_cases hj : j = key
    · subst hj
      simp only [applyWrite, update_self]
      exact List.nodup_append.2 ⟨h.nodup j, by simp, fun x hx y hy => by
        rw [List.mem_singleton] at hy; subst hy; rintro rfl; exact ha hx⟩
    · simp only [applyWrite, update_of_ne hj]
      exact h.nodup j

theorem Mirror.cancel {s : St} (h : Mirror s) {key a : String} (hp : s.account2wait a = some key) :
    Mirror (applyWrite (applyWrite s (.deleteAccount2wait a)) (.lremWait key a)) := by
  refine ⟨fun j b => ?_, fun j => ?_⟩
  · by_cases hb : b = a
    · subst hb
      by_cases hj : j = key
      · subst hj; simp [applyWrite]
      · simp [applyWrite, update_of_ne hj, h.pointer, hp, Ne.symm hj]
    · by_cases hj : j = key
      · subst hj; simp [applyWrite, hb, h.pointer]
      · simp [applyWrite, update_of_ne hb, update_of_ne hj, h.pointer]
  · by_cases hj : j = key
    · subst hj
      simp only [applyWrite, update_self]
      exact (h.nodup j).filter _
    · simp only [applyWrite, update_of_ne hj]
      exact h.nodup j

/-- A request under the guard keeps the mirror. -/
theorem mirror_step (w : Worker) (r : Req) (s : St) (hg : Safe w r s) (h : Mirror s) : Mirror (step w r s) := by
  cases r with
  | join a playid gameid =>
    rcases run_join w a playid gameid s with hsame | ⟨hint, hexit, hin, hrun⟩
    · simp only [step, hsame]; exact h
    · simp only [step, hrun]
      exact h.join hin (hg hint hexit)
  | cancel a =>
    simp only [step, run_cancel]
    cases hp : s.account2wait a with
    | none => exact h
    | some key => exact h.cancel hp
  | tick keys =>
    refine selfCheck_keeps (fun key s' hone hm => ?_) hg h
    rcases selfCheckList_one hone rfl with ⟨hw, hp⟩ | ⟨n, hn, hw, hp⟩
    · exact hm.congr hw hp
    · exact (hm.popped hn).congr hw hp
  | success t l playid rule =>
    obtain ⟨hw, hp⟩ := step_success_keeps w t l playid rule s
    exact h.congr hw hp

/-- A cancel from a mirrored store leaves its account nowhere. -/
theorem cancel_leaves (w : Worker) (r : Req) (s : St) (h : Mirror s) : CancelLeaves w r s := by
  cases r with
  | cancel a =>
    intro hok key hin
    simp only [step, run_cancel] at hok hin
    cases hp : s.account2wait a with
    | none => simp [hp, Reply.ok, Reply.notWaiting] at hok
    | some j =>
      rw [hp] at hin
      have := ((h.cancel hp).pointer key a).1 hin
      simp [applyWrite] at this
  | _ => trivial

/-- In every run from a store without waiting accounts whose requests meet
`Safe`, the pointers mirror the lists, and a cancel that succeeds leaves its
account on no list. -/
theorem queue_mirrored (w : Worker) (s : St) (hs : NoneWaiting s) (rs : List Req) (hg : All (step w) (Safe w) rs s) :
    Mirror (after (step w) rs s) ∧ All (step w) (CancelLeaves w) rs s := by
  have h0 : Mirror s := ⟨fun key a => by simp [hs.1, hs.2], fun key => by simp [hs.1]⟩
  exact ⟨after_inv (mirror_step w) hg h0,
    all_of_inv (mirror_step w) (fun r s _ h => cancel_leaves w r s h) hg h0⟩

/-- A run under the guard, for `queue_mirrored`. -/
def pairRun : List Req := [.join "a" "7" "3", .join "b" "7" "3", .tick [sampleKey], .cancel "a"]

theorem pairRun_mirrored : Mirror (after (step gold) pairRun (sampleSt [])) := by
  have hempty : NoneWaiting (sampleSt []) := by
    exact ⟨fun key => by simp [sampleSt_wait], fun a => by simp [sampleSt, St.ofLists]⟩
  refine (queue_mirrored gold (sampleSt []) hempty pairRun ⟨?_, ?_, ⟨?_, fun _ _ => trivial⟩, trivial, trivial⟩).1
  · exact fun _ _ _ h => absurd h.symm (Option.some_ne_none _)
  · exact fun _ _ _ h => absurd h.symm (Option.some_ne_none _)
  · exact fun _ hc hle => absurd (Option.some.inj (hc : some 2 = _) ▸ hle) (by decide)

/-- Two joins to different lists leave the account on both. -/
theorem two_lists_not_mirrored :
    ¬Mirror (after (step gold) [.join "a" "7" "3", .join "a" "8" "3"] (St.ofLists [] [("3", "2")] [])) := by
  intro h
  have hp := (h.pointer (gold.waitKey "7" "3" joinRule) "a").1 (by decide)
  revert hp
  decide

end FishWeb.Match
