import FishWeb.Box.Conserve
import FishWeb.Lib.Escrow
/-!
# Saves and takes at the same time

Requests of any users, interleaved command by command. The check of a request and
its increments are separate commands, so two requests may both pass against the
same amount.
-/
open Python Prog Counters Pool Escrow

namespace FishWeb.Box

/-- The answer of an increment goes nowhere. -/
def Cmd.blind {β : Type} : Cmd β → Option β
  | .hincrby _ _ => some 0
  | .hincrbyCharge _ _ | .sessionUid _ | .hget _ _ | .hset _ _ _ | .hmset _ _ | .hgetAmount _ | .hgetTitle _ | .getCode _
  | .deleteCode _ | .hmgetCourse _ | .hmgetGoods _ => none

def ledger : Ledger Cmd St Place where
  amounts := St.amounts
  blind := Cmd.blind
  amounts_exec := fun c s => exec_amounts s c
  note_of_blind := by
    intro β c b h b'
    cases c with
    | hincrby p n => rfl
    | _ => cases h

/-- What is taken comes from a wallet or a box, and nothing is added there. -/
structure Drawn (l : List (Place × Int)) : Prop where
  oneSided : OneSided l
  held : ∀ e ∈ l, e.2 < 0 → ∃ uid item_id, e.1 = wallet uid item_id ∨ e.1 = .box uid item_id

theorem Drawn.left {l l' : List (Place × Int)} (h : Drawn (l ++ l')) : Drawn l' :=
  ⟨h.oneSided.left, fun e he => h.held e (by simp [he])⟩

/-- What a request may commit to. -/
structure Sound (l : List (Place × Int)) : Prop where
  balanced : Balanced l
  drawn : Drawn l

theorem sound_nil : Sound [] := ⟨balanced_nil, fun e he => absurd he (by simp), fun e he => absurd he (by simp)⟩

/-- The only entry that takes is the only one at its place. -/
theorem drawn_of_payer {l : List (Place × Int)} {p : Place} (n : Int)
    (hp : ∃ uid item_id, p = wallet uid item_id ∨ p = .box uid item_id)
    (hl : ∀ e ∈ l, e = (p, -n) ∨ e.1 ≠ p ∧ 0 ≤ e.2) : Drawn l := by
  refine ⟨fun e he e' he' heq hneg => ?_, fun e he hneg => ?_⟩
  · rcases hl e he with rfl | ⟨-, h0⟩
    · rcases hl e' he' with rfl | ⟨hne, -⟩
      · exact Int.le_of_lt hneg
      · exact absurd heq.symm hne
    · omega
  · rcases hl e he with rfl | ⟨-, h0⟩
    · exact hp
    · omega

theorem sound_save (uid item_id : String) {n : Int} (hn : 0 ≤ n) :
    Sound [(.box uid item_id, n), (wallet uid item_id, -n)] := by
  refine ⟨balanced_save uid item_id n, drawn_of_payer n ⟨uid, item_id, .inl rfl⟩ fun e he => ?_⟩
  simp only [List.mem_cons, List.not_mem_nil, or_false] at he
  rcases he with rfl | rfl
  · exact .inr ⟨Ne.symm (wallet_ne_box _ _ _ _), hn⟩
  · exact .inl rfl

theorem credits_ne_box {uid item_id : String} {p : Place} (hp : p ∈ credits uid item_id) (uid' i : String) :
    p ≠ .box uid' i := by
  unfold credits at hp
  split at hp
  · simp only [List.mem_cons, List.not_mem_nil, or_false] at hp
    rcases hp with rfl | rfl <;> simp
  · rw [List.mem_singleton.1 hp]
    exact wallet_ne_box _ _ _ _

theorem sound_take (uid item_id : String) {n : Int} (hn : 0 ≤ n) :
    Sound ((credits uid item_id).map (·, n) ++ [(.box uid item_id, -n)]) := by
  refine ⟨balanced_take uid item_id n, drawn_of_payer n ⟨uid, item_id, .inr rfl⟩ fun e he => ?_⟩
  rcases List.mem_append.1 he with he | he
  · obtain ⟨p, hp, rfl⟩ := List.mem_map.1 he
    exact .inr ⟨credits_ne_box hp uid item_id, hn⟩
  · exact .inl (List.mem_singleton.1 he)

/-- The request's commitments are sound, now and after whatever it reads. -/
def Fair {α : Type} (h : Handler α) : Prop := Sound (rest ledger h) ∧ Shape ledger Sound h

theorem fair_ret {α : Type} (a : α) : Fair (.ret a) := ⟨sound_nil, trivial⟩

theorem fair_raise {α : Type} (e : Err) : Fair (.raise e : Handler α) := ⟨sound_nil, trivial⟩

theorem ledger_blind_reads {β : Type} {c : Cmd β} (h : c.Reads) : ledger.blind c = none := by
  cases c with
  | hincrby => exact h.elim
  | _ => rfl

theorem fair_read {α β : Type} (c : Cmd β) (f : β → Handler α) (hc : c.Reads) (hf : ∀ b, Fair (f b)) :
    Fair (call c >>= f) := by
  rw [call_bind]
  refine ⟨?_, (shape_read (ledger_blind_reads hc)).2 fun b => ⟨note_reads hc b, hf b⟩⟩
  rw [rest_read (ledger_blind_reads hc)]
  exact sound_nil

theorem rest_pay (l : List (Place × Int)) (reply : Reply) : rest ledger (pay l reply) = l := by
  induction l with
  | nil => rfl
  | cons e l ih => exact congrArg (e :: ·) ih

theorem shape_pay (l : List (Place × Int)) (reply : Reply) : Shape ledger Sound (pay l reply) := by
  induction l with
  | nil => trivial
  | cons e l ih => exact fun _ => ⟨rfl, ih⟩

theorem fair_pay {l : List (Place × Int)} (h : Sound l) (reply : Reply) : Fair (pay l reply) := by
  refine ⟨?_, shape_pay l reply⟩
  rwa [rest_pay]

theorem fair_saveInto {num : String} {n : Int} (hn : int num = some n) (hpos : 0 < n) (uid item_id : String) :
    Fair (saveInto uid item_id (wallet uid item_id) num n) := by
  rcases redisInt_of_int hn with hr | hr
  · rw [saveInto_malformed _ _ hr]
    exact fair_raise _
  · rw [saveInto_eq _ _ hr]
    exact fair_pay (sound_save uid item_id (Int.le_of_lt hpos)) _

theorem fair_takeOut {num : String} {n : Int} (hn : int num = some n) (h0 : 0 ≤ n) (uid item_id : String) :
    Fair (takeOut uid item_id num n) := by
  rcases redisInt_of_int hn with hr | hr
  · rw [takeOut_malformed _ _ hr]
    exact fair_raise _
  · rw [takeOut_eq _ _ hr]
    exact fair_pay (sound_take uid item_id h0) _

theorem fair_boxSave (sid item_id num : String) : Fair (boxSave sid item_id num) :=
  boxSave_rule fair_ret fair_raise fair_read sid item_id num fun _ uid hn hpos => fair_saveInto hn hpos uid item_id

theorem fair_boxTake (sid item_id num : String) : Fair (boxTake sid item_id num) :=
  boxTake_rule fair_ret fair_raise fair_read sid item_id num fun _ uid hn h0 => fair_takeOut hn h0 uid item_id

/-! ## Interleavings -/

/-- The requests, none of which has begun. -/
def start (rs : List Req) (s : St) : Conf (Place × Int) Err Cmd St Reply := ⟨⟨s, []⟩, rs.map Req.handler⟩

theorem rest_boxSave (sid item_id num : String) : rest ledger (boxSave sid item_id num) = [] := by
  unfold boxSave
  cases hn : int num with
  | none => rfl
  | some n =>
    rw [orRaise_some, ret_bind]
    split <;> rfl

theorem rest_boxTake (sid item_id num : String) : rest ledger (boxTake sid item_id num) = [] := by
  unfold boxTake
  cases hn : int num with
  | none => rfl
  | some n =>
    rw [orRaise_some, ret_bind]
    split <;> rfl

/-- Every request begins with a read. -/
theorem rest_handler (r : Req) : rest ledger r.handler = [] := by
  cases r with
  | save sid item_id num => exact rest_boxSave sid item_id num
  | take sid item_id num => exact rest_boxTake sid item_id num

theorem shape_handler (r : Req) : Shape ledger Sound r.handler := by
  cases r with
  | save sid item_id num => exact (fair_boxSave sid item_id num).2
  | take sid item_id num => exact (fair_boxTake sid item_id num).2

theorem start_shape (rs : List Req) (s : St) : ∀ h ∈ (start rs s).progs, Shape ledger Sound h := by
  intro h hh
  obtain ⟨r, -, rfl⟩ := List.mem_map.1 hh
  exact shape_handler r

theorem start_fresh (rs : List Req) (s : St) : ∀ h ∈ (start rs s).progs, rest ledger h = [] := by
  intro h hh
  obtain ⟨r, -, rfl⟩ := List.mem_map.1 hh
  exact rest_handler r

/-- Whatever the schedule, each item's sum is in the end what it was. -/
theorem total_finished {G : Guard (Place × Int) Err Cmd St Reply} {rs : List Req} {s : St}
    {c : Conf (Place × Int) Err Cmd St Reply} (hr : Reach G (start rs s) c) (hf : Finished c) (uid item_id : String) :
    total c.world.store uid item_id = total s uid item_id := by
  have hok : ∀ l, Sound l → ([wallet uid item_id, .box uid item_id].map (net l)).sum = 0 := by
    intro l hl
    simpa using hl.balanced uid item_id
  have hsum := sum_finished hr (start_shape rs s) hok (start_fresh rs s) hf
  simpa [total, ledger, start] using hsum

/-- Interleaved requests keep every amount at zero or above if each passes its check while the amount
covers, with its own, what the requests that have passed theirs are still to take off it. -/
theorem race_covered {rs : List Req} {s : St} (hs : Covered s) {c : Conf (Place × Int) Err Cmd St Reply}
    (hr : Reach (Backed ledger) (start rs s) c) :
    Covered c.world.store ∧
      (Finished c → ∀ uid item_id, total c.world.store uid item_id = total s uid item_id) := by
  have hv : ∀ p, 0 ≤ val s.amounts p → 0 ≤ val c.world.store.amounts p := fun p =>
    backed_nonneg hr (start_shape rs s) (start_fresh rs s)
  refine ⟨⟨fun uid item_id => ?_, fun uid item_id => ?_⟩, fun hf => total_finished hr hf⟩
  · exact hv _ (hs.wallet uid item_id)
  · exact hv _ (hs.box uid item_id)

theorem race_covered_two : 0 ≤ val (turns [0, 1, 0, 1, 0, 1, 0, 1]
    (start [.save "sid" "2" "5", .save "sid" "2" "5"] (openBox [(.coin "7", 10)]))).world.store.amounts (.coin "7") :=
  (race_covered (openBox_covered (by decide)) (reach_turns (by decide))).1.wallet "7" "2"

/-- The condition is sharp: after a check that passes without it, some schedule takes an amount below zero. -/
theorem unbacked_overdraws {rs : List Req} {s : St} {c : Conf (Place × Int) Err Cmd St Reply}
    (hr : Reach noGuard (start rs s) c) {i : Nat} (h : ¬Backed ledger c i (nextNote i c) (turn i c)) :
    ∃ c', Reach noGuard (turn i c) c' ∧ ¬Covered c'.world.store := by
  have hinv : ∀ {c}, Reach noGuard (start rs s) c →
      (∀ h ∈ c.progs, Shape ledger Sound h) ∧ ∀ h ∈ c.progs, Drawn (rest ledger h) := fun hr =>
    reach_inv (I := fun c => (∀ h ∈ c.progs, Shape ledger Sound h) ∧ ∀ h ∈ c.progs, Drawn (rest ledger h))
      (fun _ _ hs hi => ⟨shape_step hs hi.1, rest_step (fun _ => Sound.drawn) (fun _ _ => Drawn.left) hs hi.1 hi.2⟩)
      hr ⟨start_shape rs s, fun h hh => start_fresh rs s h hh ▸ sound_nil.drawn⟩
  obtain ⟨hshape, hdrawn⟩ := hinv hr
  obtain ⟨e, he, hneg, c', hr', hlt⟩ :=
    unbacked_overdrawn hshape (fun _ hl => hl.drawn.oneSided) (fun h hh => (hdrawn h hh).oneSided) h
  refine ⟨c', hr', fun hcov => ?_⟩
  obtain ⟨x, hx, hex⟩ := mem_restAt he
  have hturn : Reach noGuard c (turn i c) := reach_turns (allowed_noGuard [i] c)
  obtain ⟨uid, item_id, hp | hp⟩ := ((hinv (hr.trans hturn)).2 x hx).held e hex hneg
  · have := hcov.wallet uid item_id
    rw [← hp] at this
    exact absurd hlt (Int.not_lt.2 this)
  · have := hcov.box uid item_id
    rw [← hp] at this
    exact absurd hlt (Int.not_lt.2 this)

/-- Two saves of all the coins, both checked before either is taken off. -/
theorem saves_overdraw : Covered (openBox [(.coin "7", 10)]) ∧
    ∃ c, Reach noGuard (start [.save "sid" "2" "10", .save "sid" "2" "10"] (openBox [(.coin "7", 10)])) c ∧
      val c.world.store.amounts (.coin "7") = -10 :=
  ⟨openBox_covered (by decide), turns [0, 0, 1, 1, 0, 0, 1, 1] _, reach_turns (allowed_noGuard _ _), by decide⟩

end FishWeb.Box
