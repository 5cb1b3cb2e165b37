import FishWeb.Common.Model
import FishWeb.Lib.Expiry
import FishWeb.Lib.Runs
/-!
# The limiter of `/refresh`

`do_Refresh` of `hall/hall.py` counts the requests of a sid under a key that lapses. Its
`setex` takes the value before the time: the counter is 3 from the first request on, for as
many seconds as the count would have been. So one request is let through a second, and
`limits_iff` says which arrivals this treats as a limit of three within three seconds would
have to.

Left out: what a request that is let through shows of the user, his guild, the games and
the goods.
-/
open Python Prog Runs

namespace FishWeb.Refresh

open Common

/-! ## The store -/

structure St where
  shared : Shared
  /-- The field `parentAg` of a user. -/
  parentAg : String → Option String
  /-- The counters, by their keys. -/
  counter : Expiry.Table String String
  /-- The time in milliseconds. -/
  now : Nat

instance : HasShared St := ⟨St.shared⟩

inductive Cmd : Type → Type
  | get (key : String) : Cmd (Option String)
  /-- Says whether the time is one that Redis takes. -/
  | setex (name value : String) (time : Int) : Cmd Bool
  | hgetParentAg (userTable : String) : Cmd (Option String)

instance : Exec Cmd St where
  exec
    | .get key, s => (Expiry.get s.counter s.now key, s)
    | .setex name value time, s =>
      if time ≤ 0 then (false, s) else (true, { s with counter := Expiry.setex s.counter s.now name value time.toNat })
    | .hgetParentAg userTable, s => (s.parentAg userTable, s)

abbrev Handler := Prog Err (With Cmd)

/-! ## The handler -/

inductive Answer where
  /-- `{"code": 1, "msg": "你的请求过快。"}` -/
  | busy
  | refused (r : Refusal)
  /-- `{'code': -7, ..}`: the user is in no guild. -/
  | noGuild
  | page
  deriving Repr, DecidableEq

/-- `sid.strip()` -/
def trim (sid : String) : String := String.ofList (strip sid.toList)

/-- `"request:_in:%s" % sid` -/
def counterKey (sid : String) : String := "request:_in:" ++ sid

/-- What follows the limiter. -/
def refresh (sid : String) : Handler Answer := do
  match ← hallUser sid with
  | .error e => return .refused e
  | .ok (_, userTable) =>
    if (← send (.hgetParentAg userTable)).getD "" = "" then return .noGuild
    return .page

/-- `do_Refresh` -/
def doRefresh (sid : String) : Handler Answer := do
  let sid := trim sid
  let get_num ← send (.get (counterKey sid))
  let get_num ← if get_num.getD "" = "" then pure 0 else orRaise .ValueError (get_num.bind int)
  if get_num ≥ 3 then return .busy
  if !(← send (.setex (counterKey sid) (toString 3) (get_num + 1))) then .raise .ResponseError
  refresh sid

/-! ## What a request comes to -/

/-- The request has passed the limiter. -/
def letThrough : Except Err Answer → Bool
  | .ok .busy => false
  | .ok _ => true
  | .error _ => false

/-- What a request answers that the limiter lets through. -/
def St.answer (s : St) (sid : String) : Answer :=
  match s.shared.hall sid with
  | .error e => .refused e
  | .ok (_, userTable) => if (s.parentAg userTable).getD "" = "" then .noGuild else .page

theorem St.letThrough_answer (s : St) (sid : String) : letThrough (.ok (s.answer sid)) = true := by
  unfold St.answer
  cases s.shared.hall sid with
  | error e => rfl
  | ok u =>
    dsimp only
    split <;> rfl

theorem run_refresh (sid : String) (s : St) : run (refresh sid) s = (.ok (s.answer sid), s) := by
  unfold refresh
  rw [run_bind_ok (run_hallUser sid s)]
  unfold St.answer
  rw [show HasShared.shared s = s.shared from rfl]
  cases s.shared.hall sid with
  | error e => rfl
  | ok u =>
    show run (if (s.parentAg u.2).getD "" = "" then .ret .noGuild else .ret .page : Handler Answer) s = _
    dsimp only
    split <;> rfl

theorem run_get (key : String) (s : St) : run (send (.get key) : Handler _) s = (.ok (Expiry.get s.counter s.now key), s) := rfl

/-- Where there is no counter, the request is let through and leaves a 3 for a second. -/
theorem doRefresh_free {s : St} {sid : String} (h : Expiry.get s.counter s.now (counterKey (trim sid)) = none) :
    run (doRefresh sid) s = (.ok (s.answer (trim sid)),
      { s with counter := Expiry.setex s.counter s.now (counterKey (trim sid)) (toString 3) 1 }) := by
  unfold doRefresh
  dsimp only
  rw [run_bind_ok (run_get _ s), h]
  exact run_refresh (trim sid) _

/-- Where the counter is a 3, the request is refused. -/
theorem doRefresh_busy {s : St} {sid : String} (h : Expiry.get s.counter s.now (counterKey (trim sid)) = some (toString 3)) :
    run (doRefresh sid) s = (.ok .busy, s) := by
  unfold doRefresh
  dsimp only
  rw [run_bind_ok (run_get _ s), h]
  rfl

/-! ## Requests one after another -/

/-- A request, what it finds beside the counters, and when it comes. -/
structure Request where
  sid : String
  now : Nat
  shared : Shared
  parentAg : String → Option String

/-- The counters, when the requests of one sid were let through, the latest first, and how many since its counter was last absent. -/
structure History where
  counter : Expiry.Table String String
  passed : List Nat
  life : Nat

def History.none : History := ⟨fun _ => .none, [], 0⟩

def Request.run (r : Request) (h : History) : Except Err Answer × St :=
  Prog.run (doRefresh r.sid) ⟨r.shared, r.parentAg, h.counter, r.now⟩

/-- The request is one of the sid `who`. -/
def Request.Of (who : String) (r : Request) : Prop := trim r.sid = who

instance (who : String) (r : Request) : Decidable (r.Of who) := inferInstanceAs (Decidable (_ = _))

def History.next (who : String) (r : Request) (h : History) : History :=
  let before := if Expiry.get h.counter r.now (counterKey who) = .none then 0 else h.life
  if r.Of who ∧ letThrough (r.run h).1 then ⟨(r.run h).2.counter, r.now :: h.passed, before + 1⟩
  else ⟨(r.run h).2.counter, h.passed, if r.Of who then before else h.life⟩

/-- How many of the times lie within the three seconds before `now`. -/
def recent (now : Nat) (times : List Nat) : Nat := times.countP fun t => t ≤ now ∧ now ≤ t + 3000

/-- What is expected of a request of `who`. -/
structure Right (who : String) (r : Request) (h : History) : Prop where
  /-- It is refused only when three were let through within three seconds. -/
  refused : r.Of who → letThrough (r.run h).1 = false → 3 ≤ recent r.now h.passed
  /-- While the counter lasts no more than three are let through. -/
  life : r.Of who → letThrough (r.run h).1 = true → (h.next who r).life ≤ 3

/-! ## Which arrivals it treats so -/

/-- When the requests of `who` come. -/
def arrivals (who : String) (rs : List Request) : List Nat := (rs.filter fun r => r.Of who).map Request.now

/-- More than a second after the last of the times, which are the latest first. -/
def Late (past : List Nat) (now : Nat) : Prop := ∀ last ∈ past.head?, last + 1000 < now

instance (past : List Nat) (now : Nat) : Decidable (Late past now) :=
  inferInstanceAs (Decidable (∀ last ∈ past.head?, last + 1000 < now))

/-- A late time is added to `past`; any other has three of `past` within the three seconds before it. -/
def Paced (past : List Nat) : List Nat → Prop
  | [] => True
  | t :: ts => if Late past t then Paced (t :: past) ts else 3 ≤ recent t past ∧ Paced past ts

theorem arrivals_of {who : String} {r : Request} (h : r.Of who) (rs : List Request) :
    arrivals who (r :: rs) = r.now :: arrivals who rs := by
  simp [arrivals, h]

theorem arrivals_other {who : String} {r : Request} (h : ¬r.Of who) (rs : List Request) :
    arrivals who (r :: rs) = arrivals who rs := by
  simp [arrivals, h]

/-! ## What a run keeps -/

/-- The counter of `who` is a 3 from when a request was last let through, for a second. -/
structure History.Kept (who : String) (h : History) : Prop where
  counter : h.counter (counterKey who) = h.passed.head?.map fun last => ⟨toString 3, last + 1000⟩
  life : h.life ≤ 1

variable {who : String} {r : Request} {h : History}

theorem counterKey_injective : Function.Injective counterKey := fun _ _ h => (String.append_right_inj _).1 h

/-- What the command writes is the counter under `key`. -/
def Counts (key : String) : ⦃β : Type⦄ → With Cmd β → Prop
  | _, .own (.setex name _ _) => name = key
  | _, _ => True

theorem only_refresh {P : ⦃β : Type⦄ → With Cmd β → Prop} (hask : ∀ ⦃β : Type⦄ (a : Ask β), P (.ask a))
    (hparent : ∀ userTable, P (.own (.hgetParentAg userTable))) (sid : String) : Only P (refresh sid) := by
  apply only_bind _ (only_hallUser hask sid)
  rintro (e | u)
  · trivial
  · refine ⟨hparent _, fun parentAg => ?_⟩
    show Only P (if parentAg.getD "" = "" then _ else _ : Handler Answer)
    rw [only_ite]
    exact ⟨fun _ => trivial, fun _ => trivial⟩

theorem only_doRefresh (sid : String) : Only (Counts (counterKey (trim sid))) (doRefresh sid) := by
  unfold doRefresh
  dsimp only
  refine ⟨trivial, fun get_num => ?_⟩
  -- what is left of the handler when the count has been read
  have hrest : ∀ n : Int, Only (Counts (counterKey (trim sid)))
      (do
        if n ≥ 3 then return .busy
        if !(← send (.setex (counterKey (trim sid)) (toString 3) (n + 1))) then .raise .ResponseError
        refresh (trim sid) : Handler Answer) := by
    intro n
    rw [only_ite]
    refine ⟨fun _ => trivial, fun _ => ⟨rfl, fun ok => ?_⟩⟩
    cases ok with
    | false => trivial
    | true => exact only_refresh (fun _ _ => trivial) (fun _ => trivial) (trim sid)
  show Only _ (if get_num.getD "" = "" then _ else _ : Handler Answer)
  rw [only_ite]
  refine ⟨fun _ => hrest 0, fun _ => ?_⟩
  rw [only_orRaise_bind]
  exact fun n _ => hrest n

/-- A request of another sid leaves the counter. -/
theorem run_other (hr : ¬r.Of who) : (r.run h).2.counter (counterKey who) = h.counter (counterKey who) := by
  refine (only_doRefresh r.sid).run_inv (I := fun s : St => s.counter (counterKey who) = h.counter (counterKey who)) ?_ rfl
  rintro β (a | c) s hc hs
  · exact hs
  cases c with
  | setex name value time =>
    show (Exec.exec (Cmd.setex name value time) s).2.counter (counterKey who) = _
    unfold Exec.exec instExecCmdSt
    dsimp only
    split
    · exact hs
    · rw [← hs]
      apply Expiry.setex_other
      rw [show name = counterKey (trim r.sid) from hc]
      exact fun heq => hr (counterKey_injective heq).symm
  | _ => exact hs

namespace History.Kept

variable (hk : h.Kept who)
include hk

theorem get (now : Nat) : Expiry.get h.counter now (counterKey who) = if Late h.passed now then .none else some (toString 3) := by
  have hc := hk.counter
  cases hp : h.passed with
  | nil =>
    rw [hp] at hc
    rw [Expiry.get_of_none hc, if_pos (by simp [Late])]
  | cons last past =>
    rw [hp] at hc
    rw [Expiry.get_of_some hc]
    by_cases hlive : now ≤ last + 1000
    · rw [if_pos hlive, if_neg (by simpa [Late, hp] using hlive)]
    · rw [if_neg hlive, if_pos (by simpa [Late, hp] using hlive)]

/-- The run of a request of the sid. -/
theorem run (hr : r.Of who) : letThrough (r.run h).1 = decide (Late h.passed r.now) ∧
    (r.run h).2.counter = if Late h.passed r.now then Expiry.setex h.counter r.now (counterKey who) (toString 3) 1 else h.counter := by
  have hget := hk.get r.now
  rw [← show trim r.sid = who from hr] at hget ⊢
  unfold Request.run
  by_cases hf : Late h.passed r.now
  · rw [if_pos hf] at hget
    rw [doRefresh_free (s := ⟨r.shared, r.parentAg, h.counter, r.now⟩) hget, if_pos hf, decide_eq_true hf]
    exact ⟨St.letThrough_answer _ _, rfl⟩
  · rw [if_neg hf] at hget
    rw [doRefresh_busy (s := ⟨r.shared, r.parentAg, h.counter, r.now⟩) hget, if_neg hf, decide_eq_false hf]
    exact ⟨rfl, rfl⟩

theorem next : (h.next who r).Kept who := by
  unfold History.next
  dsimp only
  by_cases hr : r.Of who
  · obtain ⟨hlet, hcounter⟩ := hk.run hr
    rw [hlet, hcounter, hk.get]
    by_cases hf : Late h.passed r.now
    · rw [if_pos ⟨hr, decide_eq_true hf⟩, if_pos hf, if_pos hf, if_pos rfl]
      exact ⟨Expiry.setex_same _ _ _ _ _, Nat.le_refl 1⟩
    · rw [if_neg fun h => hf (of_decide_eq_true h.2), if_neg hf, if_neg hf, if_pos hr, if_neg (by simp)]
      exact hk
  · rw [if_neg fun h => hr h.1, if_neg hr]
    exact ⟨(run_other hr).trans hk.counter, hk.life⟩

theorem passed : (h.next who r).passed = if r.Of who ∧ Late h.passed r.now then r.now :: h.passed else h.passed := by
  unfold History.next
  dsimp only
  by_cases hr : r.Of who
  · rw [(hk.run hr).1]
    by_cases hf : Late h.passed r.now
    · rw [if_pos (And.intro hr (decide_eq_true hf)), if_pos (And.intro hr hf)]
    · rw [if_neg (c := _ ∧ Late _ _) fun hand => hf hand.2, if_neg fun hand => hf (of_decide_eq_true hand.2)]
  · rw [if_neg (c := _ ∧ Late _ _) fun hand => hr hand.1, if_neg fun hand => hr hand.1]

theorem right_iff (hr : r.Of who) : Right who r h ↔ Late h.passed r.now ∨ 3 ≤ recent r.now h.passed := by
  constructor
  · intro hright
    by_cases hf : Late h.passed r.now
    · exact .inl hf
    · exact .inr (hright.refused hr (by rw [(hk.run hr).1, decide_eq_false hf]))
  · intro hcases
    refine ⟨fun _ hlet => hcases.resolve_left ?_, fun _ _ => Nat.le_trans hk.next.life (by omega)⟩
    rw [(hk.run hr).1] at hlet
    exact of_decide_eq_false hlet

end History.Kept

theorem right_other (hr : ¬r.Of who) : Right who r h := ⟨fun h => absurd h hr, fun h => absurd h hr⟩

theorem History.none_kept (who : String) : History.none.Kept who := ⟨rfl, Nat.zero_le 1⟩

theorem all_right_iff {rs : List Request} (hk : h.Kept who) :
    All (History.next who) (Right who) rs h ↔ Paced h.passed (arrivals who rs) := by
  induction rs generalizing h with
  | nil => exact Iff.rfl
  | cons r rs ih =>
    rw [all_cons, ih hk.next, hk.passed]
    by_cases hr : r.Of who
    · rw [hk.right_iff hr, arrivals_of hr, Paced]
      by_cases hf : Late h.passed r.now
      · rw [if_pos ⟨hr, hf⟩, if_pos hf]
        exact and_iff_right (.inl hf)
      · rw [if_neg fun h => hf h.2, if_neg hf, or_iff_right hf]
    · rw [arrivals_other hr, if_neg fun h => hr h.1]
      exact and_iff_right (right_other hr)

/-- For every sid and any requests: no more than three are let through while a counter lasts, and one is refused only when
three were within three seconds, exactly when the arrivals of the sid are paced. -/
theorem limits_iff (who : String) (rs : List Request) :
    All (History.next who) (Right who) rs History.none ↔ Paced [] (arrivals who rs) :=
  all_right_iff (History.none_kept who)

/-- Two requests within half a second: the second is refused. -/
theorem limits_two : ¬All (History.next "s") (Right "s")
    [⟨"s", 0, ⟨fun _ => none, fun _ => none, fun _ => false, fun _ => none, fun _ => false, fun _ => none⟩, fun _ => none⟩,
      ⟨"s", 500, ⟨fun _ => none, fun _ => none, fun _ => false, fun _ => none, fun _ => false, fun _ => none⟩, fun _ => none⟩]
    History.none := by
  rintro ⟨-, hright, -⟩
  exact absurd (hright.refused (by decide +kernel) (by decide +kernel)) (by decide +kernel)

end FishWeb.Refresh
