import FishWeb.Mail.Model
import FishWeb.Lib.Runs
/-!
# What the mail requests do

One lemma for each endpoint, and `effect_of`: what a request does to the
balances, the sets and the records, in one of five ways.
-/
open Python Prog Counters Runs
open Function (update)

namespace FishWeb.Mail

/-! ## The value of an attachment -/

/-- The id an amount is attached under. -/
def Currency.id : Currency → Int
  | .coin => 1
  | .warhead => 2

/-- What an attachment holds of a currency. -/
def attached (c : Currency) (attach : List Attach) : Int :=
  (attach.map fun a => if a.id = c.id then a.num else 0).sum

/-- The increments that pay an attachment to a user. -/
def payout (uid : String) (attach : List Attach) : List ((Currency × String) × Int) :=
  attach.filterMap fun a =>
    if a.id = 1 then some ((.coin, uid), a.num)
    else if a.id = 2 then some ((.warhead, uid), a.num)
    else none

theorem net_payout (uid : String) (attach : List Attach) (c : Currency) (u : String) :
    net (payout uid attach) (c, u) = if uid = u then attached c attach else 0 := by
  induction attach with
  | nil => simp [payout, attached]
  | cons a attach ih =>
    unfold payout attached at ih ⊢
    by_cases h1 : a.id = 1
    · cases c <;> by_cases hu : uid = u <;> simp_all [Currency.id]
    · by_cases h2 : a.id = 2
      · cases c <;> by_cases hu : uid = u <;> simp_all [Currency.id]
      · cases c <;> by_cases hu : uid = u <;> simp_all [Currency.id]

/-- The store after increments. -/
def paid (s : St) (l : List ((Currency × String) × Int)) : St := { s with amounts := incrAll l s.amounts }

theorem paid_append (s : St) (l l' : List ((Currency × String) × Int)) : paid s (l ++ l') = paid (paid s l) l' := by
  unfold paid
  rw [incrAll_append]

theorem val_paid (s : St) (l : List ((Currency × String) × Int)) (p : Currency × String) :
    val (paid s l).amounts p = val s.amounts p + net l p := val_incrAll ..

theorem net_one (p q : Currency × String) (n : Int) : net [(p, n)] q = if p = q then n else 0 := by
  rw [net_cons, net_nil, Int.add_zero]

/-! ## `/get/attach` and `/del/mail` -/

theorem payout_cons (uid : String) (a : Attach) (attach : List Attach) :
    payout uid (a :: attach) = payout uid [a] ++ payout uid attach := by
  unfold payout
  rw [List.filterMap_cons, List.filterMap_cons]
  split <;> simp

theorem run_payAttach (uid : String) (a : Attach) (s : St) :
    run (payAttach uid a) s = (.ok (), paid s (payout uid [a])) := by
  unfold payAttach payout
  by_cases h1 : a.id = 1
  · simp [h1, paid]
  · by_cases h2 : a.id = 2 <;> simp [h1, h2, paid]

theorem run_payout (uid : String) (attach : List Attach) (s : St) :
    run (forEach attach (payAttach uid)) s = (.ok (), paid s (payout uid attach)) := by
  induction attach generalizing s with
  | nil => rfl
  | cons a attach ih => rw [forEach_cons, run_bind_ok (run_payAttach uid a s), ih, payout_cons uid a attach, paid_append]

/-- The store without the mail. -/
def dropMail (s : St) (uid eid : String) : St :=
  putMail (remMail s (mailSet (field s eid Record.type)) uid eid) eid none

@[simp] theorem amounts_dropMail (s : St) (uid eid : String) : (dropMail s uid eid).amounts = s.amounts := rfl

theorem run_getAttach {sid eid : String} {attach : List Attach} {s : St}
    (h : field s eid Record.attach = some attach) : run (getAttach sid eid) s =
      (.ok ⟨0, "ok"⟩, dropMail (paid s (payout (fmt (s.session sid)) attach)) (fmt (s.session sid)) eid) := by
  simp only [getAttach, call, cmd_bind, ret_bind, run_step, exec_sessionUid, exec_hgetAttach, h]
  rw [run_bind_ok (run_payout ..)]
  rfl

theorem run_getAttach_none {sid eid : String} {s : St} (h : field s eid Record.attach = none) :
    run (getAttach sid eid) s = (.ok ⟨1, "领取失败！"⟩, s) := by
  simp [getAttach, call, h]

theorem run_delMail (sid eid : String) (s : St) :
    run (delMail sid eid) s = (.ok ⟨0, "删除成功!"⟩, dropMail s (fmt (s.session sid)) eid) := rfl

/-! ## `/send/mail` -/

/-- The checks of `/send/mail` pass; `w` is the number of warheads in the form. -/
structure Passes (sid recv_uid coin warhead : String) (w : Int) (s : St) : Prop where
  coin : (int coin).isSome
  warhead : int warhead = some w
  fee : 1000 ≤ val s.amounts (.coin, fmt (s.session sid))
  room : (s.mails (.playerMail, recv_uid)).scard < 20

/-- The store after the mail is sent. -/
def sentMail (s : St) (uid recv_uid : String) (now : Clock) (attach : List Attach) : St :=
  putMail (addMail (paid s [((.coin, uid), -1000)]) .playerMails recv_uid (mailId uid now)) (mailId uid now)
    (some (newMail uid (s.nickname uid) now attach))

@[simp] theorem amounts_sentMail (s : St) (uid recv_uid : String) (now : Clock) (attach : List Attach) :
    (sentMail s uid recv_uid now attach).amounts = (paid s [((.coin, uid), -1000)]).amounts := rfl

theorem run_sendMail {now : Clock} {sid recv_uid coin warhead : String} {w : Int} {uid : String} {s : St}
    (hsid : s.session sid = some uid) (h : Passes sid recv_uid coin warhead w s) :
    run (sendMail now sid recv_uid coin warhead) s =
      (.ok ⟨0, "发送成功!"⟩, sentMail s uid recv_uid now (attachList (val s.amounts (.coin, uid)) w)) := by
  obtain ⟨hc, hw, hfee, hroom⟩ := h
  obtain ⟨c, hc⟩ := Option.isSome_iff_exists.1 hc
  rw [hsid, fmt_some] at hfee
  have hfee : ¬(s.amounts (.coin, uid)).getD 0 < 1000 := Int.not_lt.2 hfee
  have hroom : ¬20 ≤ (s.mails (.playerMail, recv_uid)).scard := Nat.not_le.2 hroom
  simp [sendMail, call, hsid, hc, hw, hfee, hroom, sentMail, paid, addMail, val]

/-- The fee of a session that has ended is taken before the id of its mail cannot be made. -/
theorem run_sendMail_ended {now : Clock} {sid recv_uid coin warhead : String} {w : Int} {s : St}
    (hsid : s.session sid = none) (h : Passes sid recv_uid coin warhead w s) :
    run (sendMail now sid recv_uid coin warhead) s = (.error .TypeError, paid s [((.coin, "None"), -1000)]) := by
  obtain ⟨hc, hw, hfee, hroom⟩ := h
  obtain ⟨c, hc⟩ := Option.isSome_iff_exists.1 hc
  have hnone : fmt none = "None" := rfl
  rw [hsid, hnone] at hfee
  have hfee : ¬(s.amounts (.coin, "None")).getD 0 < 1000 := Int.not_lt.2 hfee
  have hroom : ¬20 ≤ (s.mails (.playerMail, recv_uid)).scard := Nat.not_le.2 hroom
  simp [sendMail, call, hsid, hnone, hc, hw, hfee, hroom, paid]

theorem run_sendMail_refused (now : Clock) {sid recv_uid coin warhead : String} {s : St}
    (h : ∀ w, ¬Passes sid recv_uid coin warhead w s) :
    (∀ msg, (run (sendMail now sid recv_uid coin warhead) s).1 ≠ .ok ⟨0, msg⟩) ∧
      (run (sendMail now sid recv_uid coin warhead) s).2 = s := by
  cases hc : int coin with
  | none => constructor <;> simp [sendMail, call, hc]
  | some c =>
  cases hw : int warhead with
  | none => constructor <;> simp [sendMail, call, hc, hw]
  | some w =>
  by_cases hfee : (s.amounts (.coin, fmt (s.session sid))).getD 0 < 1000
  · constructor <;> simp [sendMail, call, hc, hw, hfee]
  by_cases hroom : 20 ≤ (s.mails (.playerMail, recv_uid)).scard
  · constructor <;> simp [sendMail, call, hc, hw, hfee, hroom]
  · exact absurd ⟨by rw [hc]; rfl, hw, Int.not_lt.1 hfee, Nat.not_le.1 hroom⟩ (h w)

/-- The store after `/read/mail`. -/
def markRead (s : St) (eid : String) : St :=
  putMail s eid (some { (s.mail eid).getD .blank with isRead := some "1" })

theorem run_readMail (eid : String) (s : St) : run (readMail eid) s = (.ok ⟨0, "ok!"⟩, markRead s eid) := rfl

/-! ## Requests -/

/-- A request and the session it is made in, which `/read/mail` does not look at. -/
inductive Req where
  | send (now : Clock) (sid recv_uid coin warhead : String)
  | get (sid eid : String)
  | read (sid eid : String)
  | del (sid eid : String)
  deriving Repr, DecidableEq

namespace Req

def handler : Req → Handler Reply
  | .send now sid recv_uid coin warhead => sendMail now sid recv_uid coin warhead
  | .get sid eid => getAttach sid eid
  | .read _ eid => readMail eid
  | .del sid eid => delMail sid eid

def sid : Req → String
  | .send _ sid _ _ _ | .get sid _ | .read sid _ | .del sid _ => sid

/-- Whose request it is. -/
def uid (r : Req) (s : St) : String := fmt (s.session r.sid)

/-- The mail the request is about. -/
def eid (r : Req) (s : St) : String :=
  match r with
  | .send now _ _ _ _ => mailId (r.uid s) now
  | .get _ eid | .read _ eid | .del _ eid => eid

/-- The request is answered with code 0. -/
def accepted (r : Req) (s : St) : Bool :=
  match (run r.handler s).1 with
  | .ok reply => reply.code = 0
  | .error _ => false

end Req

def step (r : Req) (s : St) : St := (run r.handler s).2

/-- What a request does to the store, and whether it is accepted. -/
inductive Effect (s : St) : Req → Bool → St → Prop
  | refused (now : Clock) (sid recv_uid coin warhead : String) (h : ∀ w, ¬Passes sid recv_uid coin warhead w s) :
      Effect s (.send now sid recv_uid coin warhead) false s
  | ended (now : Clock) (sid recv_uid coin warhead : String) (w : Int) (hsid : s.session sid = none)
      (h : Passes sid recv_uid coin warhead w s) :
      Effect s (.send now sid recv_uid coin warhead) false (paid s [((.coin, "None"), -1000)])
  | sent (now : Clock) (sid recv_uid coin warhead : String) (w : Int) (uid : String) (hsid : s.session sid = some uid)
      (h : Passes sid recv_uid coin warhead w s) : Effect s (.send now sid recv_uid coin warhead) true
        (sentMail s uid recv_uid now (attachList (val s.amounts (.coin, uid)) w))
  | untaken (sid eid : String) (h : field s eid Record.attach = none) : Effect s (.get sid eid) false s
  | taken (sid eid : String) (attach : List Attach) (h : field s eid Record.attach = some attach) :
      Effect s (.get sid eid) true
        (dropMail (paid s (payout (fmt (s.session sid)) attach)) (fmt (s.session sid)) eid)
  | marked (sid eid : String) : Effect s (.read sid eid) true (markRead s eid)
  | deleted (sid eid : String) : Effect s (.del sid eid) true (dropMail s (fmt (s.session sid)) eid)

theorem effect_of (r : Req) (s : St) : Effect s r (r.accepted s) (step r s) := by
  unfold Req.accepted step
  cases r with
  | send now sid recv_uid coin warhead =>
    by_cases h : ∃ w, Passes sid recv_uid coin warhead w s
    · obtain ⟨w, h⟩ := h
      cases hsid : s.session sid with
      | none =>
        rw [Req.handler, run_sendMail_ended hsid h]
        exact .ended now sid recv_uid coin warhead w hsid h
      | some uid =>
        rw [Req.handler, run_sendMail hsid h]
        exact .sent now sid recv_uid coin warhead w uid hsid h
    · obtain ⟨hcode, hs⟩ := run_sendMail_refused now (not_exists.1 h)
      rw [Req.handler, hs]
      have hfalse : (match (run (sendMail now sid recv_uid coin warhead) s).1 with
          | .ok reply => decide (reply.code = 0)
          | .error _ => false) = false := by
        cases hr : (run (sendMail now sid recv_uid coin warhead) s).1 with
        | error e => rfl
        | ok reply =>
          apply decide_eq_false
          rintro h0
          exact hcode reply.msg (hr.trans (congrArg Except.ok (by cases reply; simp_all)))
      rw [hfalse]
      exact .refused now sid recv_uid coin warhead (not_exists.1 h)
  | get sid eid =>
    cases h : field s eid Record.attach with
    | none =>
      rw [Req.handler, run_getAttach_none h]
      exact .untaken sid eid h
    | some attach =>
      rw [Req.handler, run_getAttach h]
      exact .taken sid eid attach h
  | read sid eid =>
    rw [Req.handler, run_readMail]
    exact .marked sid eid
  | del sid eid =>
    rw [Req.handler, run_delMail]
    exact .deleted sid eid

/-! ## A small post office -/

/-- Three users with these amounts, and no mail. -/
def office (l : List ((Currency × String) × Int)) : St where
  session := fun sid => if sid = "a" then some "1" else if sid = "b" then some "2" else if sid = "c" then some "3" else none
  nickname := fun _ => none
  amounts := incrAll l fun _ => none
  mails := fun _ => ∅
  mail := fun _ => none

end FishWeb.Mail
