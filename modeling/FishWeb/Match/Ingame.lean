import FishWeb.Match.Queue
import FishWeb.Party.Model
/-!
# Who is in a game

The other half of the matchmaking workers: a game server reports a created room
(`onJoinGoldRoomSuccess`, `onJoinPartyRoomSuccess`) and the players who left one
(`onGoldRoomLeaveSuccess`, `onPartyRoomLeaveSuccess`). `ACCOUNT2INGAME` is meant to
mirror the lists of players in game. A join does not look at the in-game tables and
a success appends whoever it names, so the mirror holds along exactly the runs where
the joins and the successes are for accounts that are not in a game.

Left out: the settlement of a party game, which touches none of these lists.
-/
open Python Prog Function Runs

namespace FishWeb.Match.Ingame

/-! ## The store -/

/-- What the workers store, with the party games' tables. -/
abbrev Hall := Party.St

inductive Write where
  | deleteAccount2ingame (account : String)
  | lremIngame (key account : String)

def applyWrite (s : St) : Write → St
  | .deleteAccount2ingame a => { s with account2ingame := update s.account2ingame a none }
  | .lremIngame key a => { s with ingame := update s.ingame key ((s.ingame key).filter (· ≠ a)) }

inductive Cmd : Type → Type
  | existsAccount2ingame (account : String) : Cmd Bool
  | getAccount2ingame (account : String) : Cmd (Option String)
  | existsIngame (key : String) : Cmd Bool
  | lrangeIngame (key : String) : Cmd (List String)
  | pipe (ws : List Write) : Cmd Unit

instance : Exec Cmd St where
  exec
    | .existsAccount2ingame a, s => ((s.account2ingame a).isSome, s)
    | .getAccount2ingame a, s => (s.account2ingame a, s)
    | .existsIngame key, s => (!(s.ingame key).isEmpty, s)
    | .lrangeIngame key, s => (s.ingame key, s)
    | .pipe ws, s => ((), ws.foldl applyWrite s)

section Exec
open Exec
variable (s : St)

@[simp] theorem exec_existsAccount2ingame (a : String) :
    exec (Cmd.existsAccount2ingame a) s = ((s.account2ingame a).isSome, s) := rfl

@[simp] theorem exec_getAccount2ingame (a : String) :
    exec (Cmd.getAccount2ingame a) s = (s.account2ingame a, s) := rfl

@[simp] theorem exec_existsIngame (key : String) :
    exec (Cmd.existsIngame key) s = (!(s.ingame key).isEmpty, s) := rfl

@[simp] theorem exec_lrangeIngame (key : String) : exec (Cmd.lrangeIngame key) s = (s.ingame key, s) := rfl

@[simp] theorem exec_pipe (ws : List Write) : exec (Cmd.pipe ws) s = ((), ws.foldl applyWrite s) := rfl

end Exec

abbrev Handler := Prog Err Cmd

/-! ## Players leave -/

/-- `redis.exists(key) and account in redis.lrange(key, 0, -1)`. -/
def isIngame (key account : String) : Handler Bool := do
  if ← call (.existsIngame key) then
    let players ← call (.lrangeIngame key)
    return account ∈ players
  else return false

/-- What the loop of the leave handlers adds to the pipeline for one account. -/
def leaveWrites (account : String) : Handler (List Write) := do
  if ← call (.existsAccount2ingame account) then
    let already_in_key ← call (.getAccount2ingame account)
    let listed ← isIngame (fmt already_in_key) account
    return .deleteAccount2ingame account :: if listed then [.lremIngame (fmt already_in_key) account] else []
  else return []

/-- `onGoldRoomLeaveSuccess` and `onPartyRoomLeaveSuccess`. -/
def onRoomLeaveSuccess (accountlist : List String) : Handler Reply := do
  let writes ← collect accountlist leaveWrites
  call (.pipe writes.flatten)
  return .ok

/-! ## Requests -/

inductive Req where
  | join (account playid gameid : String)
  | cancel (account : String)
  /-- a tick of `self_check` over the lists `redis.keys` answers -/
  | tick (keys : List String)
  /-- a room is created on the day `today` -/
  | success (server_table : String) (accountlist : List String) (playid rule today : String)
  | leave (accountlist : List String)

/-- The service a worker serves. The names that the party worker binds are a parameter: it imports none of `Party.Name`. -/
inductive Service where
  | gold
  | party (names : Party.Names) (prefix_ingame : Format)

def Service.worker : Service → Worker
  | .gold => Match.gold
  | .party _ _ => Match.party

/-- The store after a request, run to its end or to its exception. -/
def step (v : Service) : Req → Hall → Hall
  | .join a playid gameid, f => { f with queue := (run (onJoinRoom v.worker a playid gameid) f.queue).2 }
  | .cancel a, f => { f with queue := (run (onCancelJoinRoom a) f.queue).2 }
  | .tick keys, f => { f with queue := (run (selfCheck v.worker keys) f.queue).2 }
  | .success t l playid rule today, f =>
    match v with
    | .gold => { f with queue := (run (onJoinGoldRoomSuccess t l playid rule) f.queue).2 }
    | .party names prefix_ingame => (run (Party.onJoinPartyRoomSuccess names prefix_ingame today t l playid rule) f).2
  | .leave l, f => { f with queue := (run (onRoomLeaveSuccess l) f.queue).2 }

/-- An account is in an in-game list, once, exactly when its pointer names the list, and
then it is on no waiting list. -/
structure Registry (s : St) : Prop where
  pointer : ∀ key a, a ∈ s.ingame key ↔ s.account2ingame a = some key
  nodup : ∀ key, (s.ingame key).Nodup
  apart : ∀ a key wait, a ∈ s.ingame key → a ∉ s.wait wait

/-- After the request the registry is right, and whoever it reports to have left is in no list. -/
def Kept (v : Service) (r : Req) (f : Hall) : Prop :=
  Registry (step v r f).queue ∧
    match r with
    | .leave l => ∀ a ∈ l, ∀ key, a ∉ (step v r f).queue.ingame key
    | _ => True

/-- The list a success appends to, unless it raises. -/
def landsIn (v : Service) (t playid rule today : String) (n : Nat) (f : Hall) : Option String :=
  match v with
  | .gold => alreadyInList ingameKey t playid rule
  | .party names prefix_ingame =>
    if names .PARTY_GAME_ENTER_ROOM_CRADS then do
      let _ ← ((f.counts today).joined n).toOption
      alreadyInList prefix_ingame t playid rule
    else none

/-- A join that goes through is by an account that is in no game; a success that goes
through names accounts, once each, that are in no game and on no waiting list. -/
def Idle (v : Service) : Req → Hall → Prop
  | .join a _ gameid, f => ((f.queue.partyPlayerCount gameid).bind int).isSome → f.queue.exitPlayer a = false →
      f.queue.account2ingame a = none
  | .success t l playid rule today, f => (landsIn v t playid rule today l.length f).isSome →
      l.Nodup ∧ ∀ a ∈ l, f.queue.account2ingame a = none ∧ ∀ wait, a ∉ f.queue.wait wait
  | _, _ => True

/-! ## The requests, one by one -/

/-- After the accounts `l` entered the list `key`. -/
def entered (key : String) (l : List String) (s : St) : St :=
  { s with
    ingame := update s.ingame key (s.ingame key ++ l)
    account2ingame := fun a => if a ∈ l then some key else s.account2ingame a
    matchFinish := fun a => if a ∈ l then none else s.matchFinish a }

theorem foldl_joinSuccess (key : String) (l : List String) (s : St) :
    (joinSuccessWrites key l).foldl Match.applyWrite s = entered key l s := by
  induction l generalizing s with
  | nil => simp [joinSuccessWrites, entered]
  | cons a l ih =>
    simp only [joinSuccessWrites, List.flatMap_cons, List.foldl_append] at ih ⊢
    rw [ih]
    ext x <;> simp only [List.foldl_cons, List.foldl_nil, Match.applyWrite, entered, update_self, update_idem,
      List.append_assoc, List.singleton_append, List.mem_cons]
    all_goals by_cases hx : x = a <;> simp [hx]

/-- A success raises, or its accounts enter the list it lands in. -/
theorem success_queue (v : Service) (t : String) (l : List String) (playid rule today : String) (f : Hall) :
    (step v (.success t l playid rule today) f).queue =
      ((landsIn v t playid rule today l.length f).elim f.queue fun key => entered key l f.queue) := by
  cases v with
  | gold =>
    simp only [step, landsIn, onJoinGoldRoomSuccess]
    cases hkey : alreadyInList ingameKey t playid rule with
    | none => rfl
    | some key => simp [call, foldl_joinSuccess]
  | party names prefix_ingame =>
    simp only [step, landsIn, Party.run_join]
    cases hkey : alreadyInList prefix_ingame t playid rule with
    | none =>
      cases names .PARTY_GAME_ENTER_ROOM_CRADS with
      | false => rfl
      | true => cases (f.counts today).joined l.length <;> rfl
    | some key =>
      cases names .PARTY_GAME_ENTER_ROOM_CRADS with
      | false => rfl
      | true =>
        cases (f.counts today).joined l.length with
        | error e => rfl
        | ok counts => exact foldl_joinSuccess key l f.queue

/-- The writes the leave handlers make for one account. -/
def leaving (f : St) (account : String) : List Write :=
  match f.account2ingame account with
  | none => []
  | some key => .deleteAccount2ingame account ::
      if account ∈ f.ingame key then [.lremIngame key account] else []

theorem run_isIngame (key a : String) (f : St) :
    run (isIngame key a) f = (.ok (decide (a ∈ f.ingame key)), f) := by
  cases h : f.ingame key with
  | nil => simp [isIngame, call, h]
  | cons b l => simp [isIngame, call, h]

theorem run_leaveWrites (a : String) (f : St) : run (leaveWrites a) f = (.ok (leaving f a), f) := by
  unfold leaveWrites leaving
  cases hp : f.account2ingame a with
  | none => simp [call, hp]
  | some key => simp [call, hp, run_bind_ok (run_isIngame ..)]

/-- After the accounts `l` left the lists that `f` has their pointers at. -/
def left (f : St) (l : List String) (g : St) : St :=
  { g with
    ingame := fun key => (g.ingame key).filter fun a => ¬(a ∈ l ∧ f.account2ingame a = some key)
    account2ingame := fun a =>
      if a ∈ l ∧ (f.account2ingame a).isSome then none else g.account2ingame a }

theorem foldl_leaving_one (f : St) (a : String) (g : St)
    (hsub : ∀ key, ∀ b ∈ g.ingame key, b ∈ f.ingame key) :
    (leaving f a).foldl applyWrite g = left f [a] g := by
  unfold leaving
  cases hp : f.account2ingame a with
  | none =>
    refine St.ext rfl rfl rfl (funext fun key => ?_) (funext fun b => ?_) rfl rfl rfl rfl rfl
    · refine (List.filter_eq_self.2 fun b _ => ?_).symm
      by_cases hb : b = a <;> simp [hb, hp]
    · by_cases hb : b = a <;> simp [left, hb, hp]
  | some key =>
    by_cases hin : a ∈ f.ingame key
    · simp only [hin, if_true]
      refine St.ext rfl rfl rfl (funext fun j => ?_) (funext fun b => ?_) rfl rfl rfl rfl rfl
      · by_cases hj : j = key
        · subst hj
          simp only [List.foldl_cons, List.foldl_nil, applyWrite, left, update_self]
          refine List.filter_congr fun b _ => ?_
          by_cases hb : b = a <;> simp [hb, hp]
        · simp only [List.foldl_cons, List.foldl_nil, applyWrite, left, update_of_ne hj]
          refine (List.filter_eq_self.2 fun b _ => ?_).symm
          by_cases hb : b = a <;> simp [hb, hp, Ne.symm hj]
      · by_cases hb : b = a <;> simp [applyWrite, left, hb, hp]
    · simp only [hin, if_false]
      refine St.ext rfl rfl rfl (funext fun j => ?_) (funext fun b => ?_) rfl rfl rfl rfl rfl
      · refine (List.filter_eq_self.2 fun b hb => ?_).symm
        -- the account is not in the list its pointer names
        simp only [List.mem_singleton, decide_eq_true_eq]
        rintro ⟨rfl, hk⟩
        rw [hp] at hk
        cases hk
        exact hin (hsub _ _ hb)
      · by_cases hb : b = a <;> simp [applyWrite, left, hb, hp]

/-- Of a store with part of the lists of `f`: the writes for `l` take the accounts off. -/
theorem foldl_leaving (f : St) (l : List String) (g : St)
    (hsub : ∀ key, ∀ a ∈ g.ingame key, a ∈ f.ingame key) :
    (l.flatMap (leaving f)).foldl applyWrite g = left f l g := by
  induction l generalizing g with
  | nil => simp [left]
  | cons a l ih =>
    rw [List.flatMap_cons, List.foldl_append, foldl_leaving_one f a g hsub,
      ih _ fun key b hb => hsub key b (List.mem_of_mem_filter hb)]
    refine St.ext rfl rfl rfl (funext fun key => ?_) (funext fun b => ?_) rfl rfl rfl rfl rfl
    · simp only [left, List.filter_filter]
      refine List.filter_congr fun b _ => ?_
      by_cases hb : b = a <;> simp +contextual [hb]
    · simp only [left, List.mem_cons, List.not_mem_nil, or_false]
      by_cases hb : b = a
      · cases hp : f.account2ingame a <;> simp [hb, hp]
      · simp [hb]

theorem run_leave (l : List String) (s : St) : (run (onRoomLeaveSuccess l) s).2 = left s l s := by
  unfold onRoomLeaveSuccess
  rw [run_bind_ok (run_collect fun a _ => run_leaveWrites a s)]
  simp only [call, cmd_bind, ret_bind, run_step, exec_pipe, pure_eq, run_ret, ← List.flatMap_def]
  exact foldl_leaving s l s fun _ _ => id

/-- A join that goes through, of an account the list does not hold. -/
theorem run_join_new {w : Worker} {a playid gameid : String} {s : St}
    (hint : ((s.partyPlayerCount gameid).bind int).isSome) (hexit : s.exitPlayer a = false)
    (hin : a ∉ s.wait (w.waitKey playid gameid joinRule)) :
    (run (onJoinRoom w a playid gameid) s).2 =
      Match.applyWrite (Match.applyWrite s (.rpushWait (w.waitKey playid gameid joinRule) a))
        (.setAccount2wait a (w.waitKey playid gameid joinRule)) := by
  obtain ⟨n, hn⟩ := Option.isSome_iff_exists.1 hint
  obtain ⟨raw, hraw, hint⟩ := Option.bind_eq_some_iff.1 hn
  simp [onJoinRoom, call, hraw, hint, hexit, run_bind_ok (Match.run_isWaiting ..), hin]

/-! ### The tick -/

/-- The commands of `self_check`: none adds to a waiting list or touches the in-game tables. -/
def Drains : ⦃β : Type⦄ → Match.Cmd β → Prop
  | _, .lrangeWait _ | _, .lpopWait _ | _, .hgetPartyPlayerCount _ | _, .lrangeServers _
  | _, .write (.deleteAccount2wait _) | _, .write (.setMatchFinish _ _) | _, .write (.rpushProtocol _ _) => True
  | _, _ => False

theorem drains_selfCheck (w : Worker) (keys : List String) : Only Drains (selfCheck w keys) := by
  have hgroup : ∀ key playid gameid rule (l : List String) n rounds len,
      Only Drains (groupLoop w key playid gameid rule l n rounds len) := by
    intro key playid gameid rule l n rounds
    induction rounds with
    | zero => exact fun _ => trivial
    | succ rounds ih =>
      intro len
      unfold groupLoop
      refine (only_ite Drains _ _ _).2 ⟨fun _ => ?_, fun _ => trivial⟩
      refine only_bind Drains ?_ fun _ => only_bind Drains ?_ fun _ => ih _
      · exact only_forEach Drains fun a _ => ⟨trivial, fun _ => ⟨trivial, fun _ => ⟨trivial, fun _ => trivial⟩⟩⟩
      · refine ⟨trivial, fun servers => ?_⟩
        cases servers with
        | nil => trivial
        | cons t ts =>
          refine (only_orRaise_bind Drains _ _ _).2 fun q _ => ?_
          exact ⟨trivial, fun _ => trivial⟩
  refine only_forEach Drains fun key _ => ⟨trivial, fun l => ?_⟩
  refine (only_orRaise_bind Drains _ _ _).2 fun names _ => ⟨trivial, fun raw => ?_⟩
  exact (only_orRaise_bind Drains _ _ _).2 fun n _ => hgroup ..

/-- A store with the in-game tables of `s`, and on its waiting lists only who waits in `s`. -/
structure Drained (s s' : St) : Prop where
  ingame : s'.ingame = s.ingame
  pointer : s'.account2ingame = s.account2ingame
  wait : ∀ key, ∀ a ∈ s'.wait key, a ∈ s.wait key

theorem drained_selfCheck (w : Worker) (keys : List String) (s : St) : Drained s (run (selfCheck w keys) s).2 := by
  refine (drains_selfCheck w keys).run_inv (I := Drained s) (fun β c s' hc h => ?_) ⟨rfl, rfl, fun _ _ => id⟩
  cases c with
  | lpopWait key =>
    refine ⟨h.ingame, h.pointer, fun j a ha => h.wait j a ?_⟩
    by_cases hj : j = key
    · subst hj
      exact List.mem_of_mem_tail (by simpa using ha)
    · simpa [update_of_ne hj] using ha
  | write w =>
    cases w with
    | deleteAccount2wait a => exact ⟨h.ingame, h.pointer, h.wait⟩
    | setMatchFinish a n => exact ⟨h.ingame, h.pointer, h.wait⟩
    | rpushProtocol q m => exact ⟨h.ingame, h.pointer, h.wait⟩
    | _ => exact hc.elim
  | pipe ws => exact hc.elim
  | _ => exact h

/-! ## The registry along a run -/

namespace Registry
variable {s : St}

/-- An account is in one list at most. -/
theorem unique (h : Registry s) {a key j : String} (hkey : a ∈ s.ingame key) (hj : a ∈ s.ingame j) : key = j :=
  Option.some.inj (((h.pointer key a).1 hkey).symm.trans ((h.pointer j a).1 hj))

theorem absent (h : Registry s) {a : String} (ha : s.account2ingame a = none) (key : String) : a ∉ s.ingame key :=
  fun hk => nomatch ha.symm.trans ((h.pointer key a).1 hk)

/-- It lasts while the in-game tables stay and the newly waiting are in no game. -/
theorem congr {s' : St} (h : Registry s) (hin : s'.ingame = s.ingame) (hp : s'.account2ingame = s.account2ingame)
    (hw : ∀ key, ∀ a ∈ s'.wait key, a ∈ s.wait key ∨ s.account2ingame a = none) : Registry s' := by
  refine ⟨fun key a => by rw [hin, hp]; exact h.pointer key a, fun key => by rw [hin]; exact h.nodup key,
    fun a key wait hk hwait => ?_⟩
  rw [hin] at hk
  rcases hw wait a hwait with hwas | hnone
  · exact h.apart a key wait hk hwas
  · exact h.absent hnone key hk

/-- Accounts enter a list and leave the registry right exactly when they are distinct, in no game and not waiting. -/
theorem entered_iff (h : Registry s) (key : String) (l : List String) :
    Registry (entered key l s) ↔ l.Nodup ∧ ∀ a ∈ l, s.account2ingame a = none ∧ ∀ wait, a ∉ s.wait wait := by
  constructor
  · intro hafter
    have hnd : (s.ingame key ++ l).Nodup := by simpa [entered] using hafter.nodup key
    obtain ⟨-, hl, hdis⟩ := List.nodup_append.1 hnd
    refine ⟨hl, fun a ha => ⟨?_, fun wait hw => ?_⟩⟩
    · cases hp : s.account2ingame a with
      | none => rfl
      | some j =>
        -- it is still in the list of its old pointer, which the new one must name
        have hj := (h.pointer j a).2 hp
        by_cases hjk : j = key
        · exact absurd rfl (hdis a (hjk ▸ hj) a ha)
        · have hin : a ∈ (entered key l s).ingame j := by simpa [entered, update_of_ne hjk] using hj
          have hptr := (hafter.pointer j a).1 hin
          simp only [entered, ha, if_true, Option.some.injEq] at hptr
          exact absurd hptr.symm hjk
    · exact hafter.apart a key wait (by simp [entered, ha]) hw
  · rintro ⟨hl, hidle⟩
    refine ⟨fun j a => ?_, fun j => ?_, fun a j wait hj hw => ?_⟩
    · by_cases ha : a ∈ l
      · by_cases hj : j = key
        · subst hj; simp [entered, ha]
        · simp [entered, ha, update_of_ne hj, h.absent (hidle a ha).1 j, Ne.symm hj]
      · by_cases hj : j = key
        · subst hj; simp [entered, ha, h.pointer]
        · simp [entered, ha, update_of_ne hj, h.pointer]
    · by_cases hj : j = key
      · subst hj
        simp only [entered, update_self]
        exact List.nodup_append.2 ⟨h.nodup j, hl, fun a ha b hb hab =>
          h.absent (hidle b hb).1 j (hab ▸ ha)⟩
      · simpa only [entered, update_of_ne hj] using h.nodup j
    · by_cases ha : a ∈ l
      · exact (hidle a ha).2 wait hw
      · refine h.apart a j wait ?_ hw
        by_cases hjk : j = key
        · subst hjk; simpa [entered, ha] using hj
        · simpa [entered, update_of_ne hjk] using hj

/-- An account goes on a waiting list and leaves the registry right exactly when it is in no game. -/
theorem waiting_iff (h : Registry s) (key a : String) :
    Registry (Match.applyWrite (Match.applyWrite s (.rpushWait key a)) (.setAccount2wait a key)) ↔
      s.account2ingame a = none := by
  constructor
  · intro hafter
    by_contra hsome
    obtain ⟨j, hj⟩ := Option.ne_none_iff_exists'.1 hsome
    exact hafter.apart a j key ((h.pointer j a).2 hj) (by simp [Match.applyWrite])
  · intro hnone
    refine h.congr rfl rfl fun j b hb => ?_
    by_cases hj : j = key
    · subst hj
      simp only [Match.applyWrite, update_self, List.mem_append, List.mem_singleton] at hb
      exact hb.imp_right fun hba => by rw [hba]; exact hnone
    · exact .inl (by simpa [Match.applyWrite, update_of_ne hj] using hb)

end Registry

/-- Accounts leave and are in no list any more. -/
theorem Registry.left {s : St} (h : Registry s) (l : List String) : Registry (left s l s) := by
  refine ⟨fun key a => ?_, fun key => (h.nodup key).filter _, fun a key wait hk =>
    h.apart a key wait (List.mem_of_mem_filter hk)⟩
  simp only [Ingame.left, List.mem_filter, decide_eq_true_eq, h.pointer]
  by_cases ha : a ∈ l
  · cases hp : s.account2ingame a <;> simp [ha]
  · simp [ha]

theorem Registry.not_mem_left {s : St} (h : Registry s) {l : List String} {a : String} (ha : a ∈ l)
    (key : String) : a ∉ (Ingame.left s l s).ingame key := by
  simp only [Ingame.left, List.mem_filter, decide_eq_true_eq, h.pointer, not_and]
  exact fun hp hno => hno ha hp

/-- A request of a store whose registry is right keeps it so exactly under the guard. -/
theorem kept_iff (v : Service) (r : Req) (f : Hall) (h : Registry f.queue) : Kept v r f ↔ Idle v r f := by
  cases r with
  | join a playid gameid =>
    simp only [Kept, Idle, step, and_true]
    by_cases hgo : ((f.queue.partyPlayerCount gameid).bind int).isSome ∧ f.queue.exitPlayer a = false
    · simp only [hgo, forall_const]
      by_cases hin : a ∈ f.queue.wait (v.worker.waitKey playid gameid joinRule)
      · -- who waits already is in no game
        have hnone : f.queue.account2ingame a = none := by
          by_contra hsome
          obtain ⟨key, hkey⟩ := Option.ne_none_iff_exists'.1 hsome
          exact h.apart a key _ ((h.pointer key a).2 hkey) hin
        rcases run_join v.worker a playid gameid f.queue with hsame | ⟨-, -, hnew, -⟩
        · exact iff_of_true (by rw [hsame]; exact h) hnone
        · exact absurd hin hnew
      · rw [run_join_new hgo.1 hgo.2 hin]
        exact h.waiting_iff _ a
    · rcases run_join v.worker a playid gameid f.queue with hsame | ⟨hint, hexit, -⟩
      · exact iff_of_true (by rw [hsame]; exact h) fun hint hexit => absurd ⟨hint, hexit⟩ hgo
      · exact absurd ⟨hint, hexit⟩ hgo
  | cancel a =>
    simp only [Kept, Idle, step, and_true, iff_true, run_cancel]
    cases hp : f.queue.account2wait a with
    | none => exact h
    | some key =>
      refine h.congr rfl rfl fun j b hb => .inl ?_
      by_cases hj : j = key
      · subst hj
        simp only [Match.applyWrite, update_self] at hb
        exact List.mem_of_mem_filter hb
      · simpa [Match.applyWrite, update_of_ne hj] using hb
  | tick keys =>
    have hd := drained_selfCheck v.worker keys f.queue
    simp only [Kept, Idle, step, and_true, iff_true]
    exact h.congr hd.ingame hd.pointer fun key a ha => .inl (hd.wait key a ha)
  | success t l playid rule today =>
    simp only [Kept, Idle, and_true, success_queue]
    cases landsIn v t playid rule today l.length f with
    | none => simpa using h
    | some key => simpa using h.entered_iff key l
  | leave l =>
    simp only [Kept, Idle, step, run_leave, iff_true]
    exact ⟨h.left l, fun a ha key => h.not_mem_left ha key⟩

/-- In every run from a store whose registry is right, every request keeps it right, and takes
off every list whoever it reports to have left, exactly when every request meets the guard. -/
theorem registry_kept_iff (v : Service) (f : Hall) (h : Registry f.queue) (rs : List Req) :
    All (step v) (Kept v) rs f ↔ All (step v) (Idle v) rs f :=
  all_iff (I := fun f => Registry f.queue) (fun r f h => kept_iff v r f h) (fun r f hidle h => ((kept_iff v r f h).2 hidle).1) h

/-- A store where two can play game 3, and nobody waits or plays. -/
def idleHall : Hall where
  queue := sampleSt []
  userTable _ := none
  parentAg _ := none
  enterRoomCards := none
  recordCount := none
  cards _ := none
  rank _ := none
  winList _ := []
  totalList _ := []
  record _ := []
  operate _ := none

theorem idleHall_registry : Registry idleHall.queue :=
  ⟨fun key a => by simp [idleHall, sampleSt, St.ofLists], fun key => by simp [idleHall, sampleSt, St.ofLists],
    fun a key wait => by simp [idleHall, sampleSt, St.ofLists]⟩

/-- The server of game 3 has made a room for the group `["a", "b"]`. -/
def created : Req := .success "service:protocols:game:3:1:10.0.0.1:7000" ["a", "b"] "7" joinRule "2018-05-01"

/-- Two players meet, play and leave, and one of them joins again. -/
def roundRun : List Req :=
  [.join "a" "7" "3", .join "b" "7" "3", .tick [sampleKey], created, .leave ["a", "b"], .join "a" "7" "3"]

/-- Before the room is created, a mirror of the waiting lists tells that nobody waits. -/
theorem pair_mirrored : Mirror (after (Match.step Match.gold)
    [.join "a" "7" "3", .join "b" "7" "3", .tick [sampleKey]] (sampleSt [])) := by
  have h0 : Mirror (sampleSt []) :=
    ⟨fun key a => by rw [sampleSt_wait]; simp [sampleSt, St.ofLists], fun key => by simp [sampleSt_wait]⟩
  refine after_inv (mirror_step Match.gold) ⟨?_, ?_, ⟨?_, fun _ _ => trivial⟩, trivial⟩ h0
  · exact fun _ _ _ h => absurd h.symm (Option.some_ne_none _)
  · exact fun _ _ _ h => absurd h.symm (Option.some_ne_none _)
  · exact fun _ hc hle => absurd (Option.some.inj (hc : some 2 = _) ▸ hle) (by decide)

theorem roundRun_kept : All (step .gold) (Kept .gold) roundRun idleHall := by
  refine (registry_kept_iff .gold idleHall idleHall_registry roundRun).2 ?_
  refine ⟨fun _ _ => rfl, fun _ _ => rfl, trivial, fun _ => ⟨by decide, fun a ha => ?_⟩, trivial, fun _ _ => ?_, trivial⟩
  · refine ⟨rfl, fun wait hw => ?_⟩
    have hp := (pair_mirrored.pointer wait a).1 hw
    have hnone : ∀ a ∈ ["a", "b"], (after (Match.step Match.gold)
        [.join "a" "7" "3", .join "b" "7" "3", .tick [sampleKey]] (sampleSt [])).account2wait a = none := by
      decide +kernel
    exact nomatch (hnone a ha).symm.trans hp
  · decide +kernel

/-- The success is for a group that a tick has sent to the server. -/
def ForDispatched : Req → Hall → Prop
  | .success t l playid rule _, f => ∃ m ∈ f.queue.protocols t, m.players = l ∧ m.playid = playid ∧ m.rule = rule
  | _, _ => True

/-- The players go through the cycle once more while they are in a game. -/
def secondRun : List Req :=
  [.join "a" "7" "3", .join "b" "7" "3", .tick [sampleKey], created,
   .join "a" "7" "3", .join "b" "7" "3", .tick [sampleKey], created]

/-- Each of them is then in the list twice. -/
theorem secondRun_not_kept :
    All (step .gold) ForDispatched secondRun idleHall ∧ ¬All (step .gold) (Kept .gold) secondRun idleHall := by
  constructor
  · refine ⟨trivial, trivial, trivial, ?_, trivial, trivial, trivial, ?_, trivial⟩
    · exact ⟨⟨"joinGoldRoom", ["a", "b"], "7", joinRule⟩, by decide +kernel⟩
    · exact ⟨⟨"joinGoldRoom", ["a", "b"], "7", joinRule⟩, by decide +kernel⟩
  · rintro ⟨-, -, -, -, -, -, -, h, -⟩
    have hnd := h.1.nodup (ingameKey "7" "3" joinRule "10.0.0.1" "7000")
    revert hnd
    decide +kernel

end FishWeb.Match.Ingame
