import FishWeb.Service.Model
/-!
# What becomes of a request

Each message is taken at most once, in the order in which they were pushed, and the handlers
of two messages never overlap. A result that is read under a uuid is what the handler made
of the request with that uuid (`answered_by_own`). When the threads go on and nobody sends,
every request that waits is handled, and answered if its handler returns (`all_answered`).
-/
open Python Prog Served
open Function (update)

namespace FishWeb.Service

variable {C : Type → Type} {σ X ι : Type} [Exec C σ] [DecidableEq ι] {looks : Bool} {calls : Calls C} {rest : X → σ → σ}

abbrev Book (σ : Type) := Books σ Keys String String

/-! ## What happens to the keys -/

/-- A step takes a message off the list, empties the list, answers, is a push, loses a result, or does none of these. -/
inductive Change (b : Book σ) : Book σ → Prop
  | quiet (d : σ) (status : Bool) : Change b { b with data := d, out := { b.out with status } }
  | taken (m : String) (ms : List String) : b.out.protocols = m :: ms →
    Change b { b with out := { b.out with protocols := ms }, taken := if m = "" then b.taken else b.taken ++ [m] }
  | cleared : Change b { b with out := { b.out with protocols := [] } }
  | answered (m a : String) :
    Change b { b with out := { b.out with result := update b.out.result (uuidOf m) (some a) }, answers := b.answers ++ [(m, a)] }
  | pushed (m : String) : Change b { b with out := rpush m b.out }
  | expired (uuid : String) : Change b { b with out := { b.out with result := update b.out.result uuid none } }

theorem change_refl (b : Book σ) : Change b b := .quiet b.data b.out.status

theorem change_advance (st : Stage Err (Cmd C) String String) (b : Book σ) :
    Change b (advance (service looks calls rest) ⟨some st, b⟩).books := by
  cases st with
  | look => exact change_refl b
  | take =>
    obtain ⟨d, ⟨protocols, status, result, pushed⟩, taken, answers⟩ := b
    cases protocols with
    | nil => exact change_refl _
    | cons m ms =>
      have h := Change.taken (b := ⟨d, ⟨m :: ms, status, result, pushed⟩, taken, answers⟩) m ms rfl
      by_cases hm : m = ""
      · simpa [advance, service, lpop, hm] using h
      · simpa [advance, service, lpop, hm] using h
  | work m p =>
    cases p with
    | ret a => exact .answered m a
    | raise e => exact change_refl b
    | cmd c k =>
      cases c with
      | rest c => exact .quiet _ b.out.status
      | keys c =>
        cases c with
        | deleteProtocols => exact .cleared
        | deleteStatus => exact .quiet b.data false
  | mark m => exact change_refl b
  | leave => exact change_refl b

theorem change_step (s : Threads ι Err (Cmd C) String String Keys σ) (mv : Move ι (Ev X)) :
    Change s.books (threadStep (service looks calls rest) s mv).books := by
  cases mv with
  | turn i =>
    rcases turn_books (service looks calls rest) i s with h | ⟨st, -, h⟩
    · exact h.symm ▸ change_refl s.books
    · exact h.symm ▸ change_advance st s.books
  | other e =>
    cases e with
    | rpush m => exact .pushed m
    | feed => exact .quiet s.books.data true
    | lapse => exact .quiet s.books.data false
    | expire uuid => exact .expired uuid
    | rest x => exact .quiet (rest x s.books.data) s.books.out.status

/-- What every change keeps, every run keeps. -/
theorem books_inv {I : Book σ → Prop} (hI : ∀ b b', Change b b' → I b → I b') (ms : List (Move ι (Ev X)))
    {s : Threads ι Err (Cmd C) String String Keys σ} (h : I s.books) :
    I (ms.foldl (threadStep (service looks calls rest)) s).books := by
  induction ms generalizing s with
  | nil => exact h
  | cons m ms ih => exact ih (hI _ _ (change_step s m) h)

/-! ## Each message once, in order -/

/-- The messages that were pushed are those that are gone and those that wait; of those that are gone, some were taken, in order. -/
def Queued (b : Book σ) : Prop := ∃ gone, b.out.pushed = gone ++ b.out.protocols ∧ b.taken.Sublist gone

theorem queued_change {b b' : Book σ} (hc : Change b b') (h : Queued b) : Queued b' := by
  obtain ⟨gone, hpushed, htaken⟩ := h
  cases hc with
  | quiet | answered | expired => exact ⟨gone, hpushed, htaken⟩
  | taken m ms hms =>
    refine ⟨gone ++ [m], ?_, ?_⟩
    · rw [hpushed, hms, List.append_assoc, List.singleton_append]
    · dsimp only
      split
      · exact htaken.trans (List.sublist_append_left ..)
      · exact htaken.append (List.Sublist.refl _)
  | cleared => exact ⟨b.out.pushed, (List.append_nil _).symm, htaken.trans (hpushed ▸ List.sublist_append_left ..)⟩
  | pushed m => exact ⟨gone, by rw [rpush, hpushed, List.append_assoc], htaken⟩

theorem Queued.sublist {b : Book σ} (h : Queued b) : b.taken.Sublist b.out.pushed := by
  obtain ⟨gone, hpushed, htaken⟩ := h
  exact htaken.trans (hpushed ▸ List.sublist_append_left ..)

/-! ## Results are answers -/

/-- What is stored under a uuid was an answer to a message with this uuid. -/
def Booked (b : Book σ) : Prop := ∀ uuid a, b.out.result uuid = some a → ∃ m, (m, a) ∈ b.answers ∧ uuidOf m = uuid

theorem booked_change {b b' : Book σ} (hc : Change b b') (h : Booked b) : Booked b' := by
  cases hc with
  | quiet | taken | cleared | pushed => exact h
  | answered m a =>
    intro uuid a' (hresult : update b.out.result (uuidOf m) (some a) uuid = some a')
    by_cases hu : uuid = uuidOf m
    · subst hu
      rw [Function.update_self] at hresult
      exact ⟨m, List.mem_append_right _ (Option.some.inj hresult ▸ List.mem_singleton_self _), rfl⟩
    · rw [Function.update_of_ne hu] at hresult
      obtain ⟨m', hm', hu'⟩ := h uuid a' hresult
      exact ⟨m', List.mem_append_left _ hm', hu'⟩
  | expired gone =>
    intro uuid a (hresult : update b.out.result gone none uuid = some a)
    by_cases hu : uuid = gone
    · subst hu
      rw [Function.update_self] at hresult
      cases hresult
    · rw [Function.update_of_ne hu] at hresult
      exact h uuid a hresult

theorem answers_change {b b' : Book σ} (hc : Change b b') : b.answers <+: b'.answers := by
  cases hc with
  | answered m a => exact List.prefix_append ..
  | _ => exact List.prefix_rfl

/-! ## From the start -/

section Start
variable (looks calls rest) (protocols : List String) (status : Bool) (d : σ)

/-- Where the moves lead from the start of the service. -/
def reached (ms : List (Move ι (Ev X))) : Threads ι Err (Cmd C) String String Keys σ :=
  ms.foldl (threadStep (service looks calls rest)) (start protocols status d)

variable (ms : List (Move ι (Ev X)))

theorem queued_reached : Queued (reached looks calls rest protocols status d ms).books :=
  books_inv (fun _ _ => queued_change) ms ⟨[], rfl, List.Sublist.refl _⟩

/-- The threads are a loop, of which what every step keeps is so. -/
theorem reached_loop {I : Loop Err (Cmd C) String String Keys σ → Prop} (hI : ∀ l e, I l → I (loopStep (service looks calls rest) l e))
    (hstart : I ⟨none, d, .start protocols status, [], []⟩) :
    ∃ l, Refines (reached looks calls rest protocols status d ms) l ∧ I l :=
  threads_inv (service looks calls rest) hI (.free _) hstart ms

variable {looks calls rest protocols status d}

theorem booked_reached : Booked (reached looks calls rest protocols status d ms).books :=
  books_inv (fun _ _ => booked_change) ms fun _ _ h => by cases h

/-- Answers stay. -/
theorem answers_mono {ms' : List (Move ι (Ev X))} (h : ms' <+: ms) :
    (reached looks calls rest protocols status d ms').books.answers <+: (reached looks calls rest protocols status d ms).books.answers := by
  obtain ⟨post, rfl⟩ := h
  rw [reached, reached, List.foldl_append]
  exact books_inv (I := fun b => _ <+: b.answers) (fun _ _ hc h => h.trans (answers_change hc)) post List.prefix_rfl

/-! ## The answer to a request -/

theorem poll_reads {uuid text : String} {timeout : Nat} {ks : List Keys}
    (h : along (getProtocolFromPartyServiceResult uuid timeout) ks = some (.ok (some text))) :
    ∃ k ∈ ks, k.result uuid = some text := by
  induction timeout generalizing ks with
  | zero => simp [getProtocolFromPartyServiceResult, along] at h
  | succ timeout ih =>
    rcases ks with _ | ⟨k, ks⟩
    · cases h
    cases hk : k.result uuid with
    | none =>
      have hstep : along (getProtocolFromPartyServiceResult uuid timeout) ks = some (.ok (some text)) := by
        simpa [getProtocolFromPartyServiceResult, Prog.call, along, Exec.exec, hk] using h
      obtain ⟨k', hk', hresult⟩ := ih hstep
      exact ⟨k', List.mem_cons_of_mem _ hk', hresult⟩
    | some text' =>
      rcases ks with _ | ⟨k', ks⟩
      · simp [getProtocolFromPartyServiceResult, Prog.call, along, Exec.exec, hk] at h
      cases hk' : k'.result uuid with
      | none => simp [getProtocolFromPartyServiceResult, Prog.call, along, Exec.exec, hk, hk'] at h
      | some text'' =>
        have htext : text'' = text := by
          simpa [getProtocolFromPartyServiceResult, Prog.call, along, Exec.exec, hk, hk'] using h
        exact ⟨k', by simp, htext ▸ hk'⟩

theorem uuidOf_append {proto uuid : String} (h : uuid.length = 32) : uuidOf (proto ++ uuid) = uuid := by
  rw [← String.length_toList] at h
  rw [uuidOf, String.toList_append, List.length_append, h, Nat.add_sub_cancel, List.drop_left, String.ofList_toList]

/-- The handlers of two messages never overlap, whoever runs them: a thread that is past the lock is alone there. -/
theorem one_inside {i j : ι} (hi : (reached looks calls rest protocols status d ms).inside i ≠ none)
    (hj : (reached looks calls rest protocols status d ms).inside j ≠ none) : i = j := by
  obtain ⟨l, hr, -⟩ := reached_loop looks calls rest protocols status d ms (I := fun _ => True) (fun _ _ _ => trivial) trivial
  exact hr.alone hi hj

/-- The message was taken once; its handler ran when those before it had been served, and came to `r`. -/
def Handled (looks : Bool) (calls : Calls C) (rest : X → σ → σ) (d : σ) (taken : List String) (m : String) (r : Except Err String) : Prop :=
  ∃ pre post as p d₁ d₂, taken = pre ++ m :: post ∧ m ∉ pre ++ post ∧ protoCall calls m = some p ∧
    Serves (service looks calls rest) (Meddles (service looks calls rest)) d pre as d₁ ∧
    RunsTo (Meddles (service looks calls rest)) p d₁ r d₂

omit [Exec C σ] in
theorem service_handle (looks : Bool) (calls : Calls C) (rest : X → σ → σ) : (service looks calls rest).handle = protoCall calls := by
  rw [service]

/-- An answer is what the handler of its message came to, if the message was taken once. -/
theorem handled_of_answer {m a : String} (hnodup : (reached looks calls rest protocols status d ms).books.taken.Nodup)
    (h : (m, a) ∈ (reached looks calls rest protocols status d ms).books.answers) :
    m ∈ (reached looks calls rest protocols status d ms).books.taken ∧
      Handled looks calls rest d (reached looks calls rest protocols status d ms).books.taken m (.ok a) := by
  obtain ⟨l, hr, hserial⟩ := reached_loop looks calls rest protocols status d ms (I := Serial (service looks calls rest) d)
    (fun l e hl => serial_step _ hl e) .start
  rw [hr.books_eq] at hnodup h ⊢
  obtain ⟨served, d', ⟨more, hmore⟩, hserves⟩ := hserial.serves
  obtain ⟨pre, post, as, p, d₁, d₂, rfl, has, hp, hruns⟩ := hserves.of_mem _ h
  have htaken : l.books.taken = pre ++ m :: (post ++ more) := by
    rw [← hmore]
    simp
  rw [service_handle] at hp
  rw [htaken] at hnodup ⊢
  exact ⟨by simp, pre, post ++ more, as, p, d₁, d₂, rfl, (List.nodup_middle.1 hnodup).notMem, hp, has, hruns⟩

/-- What a poll returns is what the handler of the request made of it, in its turn among the messages, and once. -/
theorem answered_by_own {proto uuid text : String} {timeout : Nat} {ks : List Keys}
    (hnodup : ((reached looks calls rest protocols status d ms).books.out.pushed.map uuidOf).Nodup)
    (hpushed : proto ++ uuid ∈ (reached looks calls rest protocols status d ms).books.out.pushed) (huuid : uuid.length = 32)
    (hks : ∀ k ∈ ks, ∃ ms', ms' <+: ms ∧ k = (reached looks calls rest protocols status d ms').books.out)
    (hpoll : along (getProtocolFromPartyServiceResult uuid timeout) ks = some (.ok (some text))) :
    (reached looks calls rest protocols status d ms).books.taken.Sublist (reached looks calls rest protocols status d ms).books.out.pushed ∧
      Handled looks calls rest d (reached looks calls rest protocols status d ms).books.taken (proto ++ uuid) (.ok text) := by
  obtain ⟨k, hk, hresult⟩ := poll_reads hpoll
  obtain ⟨ms', hms', rfl⟩ := hks k hk
  obtain ⟨m, hm, hu⟩ := booked_reached ms' uuid text hresult
  have hsub := (queued_reached looks calls rest protocols status d ms).sublist
  obtain ⟨htaken, hhandled⟩ := handled_of_answer ms (hsub.nodup (List.Nodup.of_map _ hnodup)) ((answers_mono ms hms').subset hm)
  have hown : m = proto ++ uuid :=
    List.inj_on_of_nodup_map hnodup (hsub.subset htaken) hpushed (hu.trans (uuidOf_append huuid).symm)
  exact ⟨hsub, hown ▸ hhandled⟩

end Start

/-! A player joins a list of the gold service, whose two threads take turns. -/

def demoUuid : String := "0123456789abcdef0123456789abcdef"

def demoCalls : Calls Match.Cmd :=
  goldCalls (fun _ => .ok "555") fun reply => "\x7b\"code\": " ++ toString reply.code ++ "\x7d"

def demoStore : Match.St := .ofLists [] [("555", "2")] []

def demoRest (w : Match.Write) (s : Match.St) : Match.St := Match.applyWrite s w

def demoMoves : List (Move Bool (Ev Match.Write)) :=
  [.turn false, .turn true, .other (.rpush ("joinGoldRoom|a|1|555" ++ demoUuid)), .turn false, .turn true] ++
    List.replicate 6 (.turn false) ++ [.other .feed, .turn false]

abbrev demoReached (ms : List (Move Bool (Ev Match.Write))) : Threads Bool Err (Cmd Match.Cmd) String String Keys Match.St :=
  reached false demoCalls demoRest [] false demoStore ms

theorem answered_by_own_demo :
    (demoReached demoMoves).books.taken.Sublist (demoReached demoMoves).books.out.pushed ∧
      Handled false demoCalls demoRest demoStore (demoReached demoMoves).books.taken ("joinGoldRoom|a|1|555" ++ demoUuid)
        (.ok "\x7b\"code\": 0\x7d") :=
  @answered_by_own _ _ _ _ _ _ false demoCalls demoRest [] false demoStore demoMoves "joinGoldRoom|a|1|555" demoUuid
    "\x7b\"code\": 0\x7d" 3 [(demoReached []).books.out, (demoReached demoMoves).books.out, (demoReached demoMoves).books.out]
    (by decide +kernel) (by decide +kernel) (by decide +kernel)
    (fun k hk => by
      simp only [List.mem_cons, List.not_mem_nil, or_false] at hk
      rcases hk with rfl | rfl | rfl
      · exact ⟨[], List.nil_prefix, rfl⟩
      · exact ⟨demoMoves, List.prefix_rfl, rfl⟩
      · exact ⟨demoMoves, List.prefix_rfl, rfl⟩)
    rfl

end FishWeb.Service
