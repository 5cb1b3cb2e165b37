import FishWeb.Nickname.Index
import FishWeb.Lib.Counters
import Mathlib.Data.Fintype.EquivFin
/-!
# Codes that are sent by SMS

`/info/check/code` and `/info/complete/second/code` of `fish/fish_bag.py`, whose codes
`/info/complete` asks for. A code is kept under the phone that it is sent to, until it
lapses, another is sent there, or a completion deletes it. A completion deletes the code
of the number of its user. It uses up the code that it was given if that is his phone
(`code_single_use`); otherwise the code serves again.

The digits of a code, what the SMS service says and the clock are inputs.
-/
open Python Prog Runs Counters

namespace FishWeb.Nickname.Code

open Function (update)

/-! ## The store -/

structure St where
  nick : Nickname.St
  /-- `user:%s:date:%s:code:times` -/
  times : Table (String × String)

/-! ## Commands -/

inductive Own : Type → Type
  /-- `hget ('users:%s' % uid, 'phone')` -/
  | hgetPhone (uid : Option Nat) : Own (Option String)
  | getTimes (phone today : String) : Own (Option Int)
  | setexCode (phone code : String) : Own Unit
  | incrTimes (phone today : String) : Own Unit

/-- The commands of the two issuers and those of `Nickname.Model`. -/
inductive Cmd (β : Type) : Type
  | own (c : Own β)
  | nick (c : Nickname.Cmd β)

instance : Exec Own St where
  exec
    | .hgetPhone uid, s => (uid.bind fun uid => s.nick.user uid "phone", s)
    | .getTimes phone today, s => (s.times (phone, today), s)
    | .setexCode phone code, s => ((), { s with nick := { s.nick with code := update s.nick.code phone (some code) } })
    | .incrTimes phone today, s => ((), { s with times := incrby s.times (phone, today) 1 })

instance : Exec Cmd St where
  exec
    | .own c, s => Exec.exec c s
    | .nick c, s => ((Exec.exec c s.nick).1, { s with nick := (Exec.exec c s.nick).2 })

inductive Event where
  /-- A code is kept for the phone. -/
  | issued (phone code : String)
  /-- A completion has gone through that names the phone. -/
  | completed (phone : String)
  deriving Repr, DecidableEq

instance : Note Own Event where
  note
    | .setexCode phone code, _ => [.issued phone code]
    | _, _ => []

instance : Note Nickname.Cmd Event where
  note
    | .executeComplete _ dic _ _, _ => [.completed (fmt (dic.lookup "phone"))]
    | _, _ => []

instance : Note Cmd Event where
  note
    | .own c, b => Note.note c b
    | .nick c, b => Note.note c b

abbrev Handler := Prog Err Cmd

def send {β : Type} (c : Own β) : Handler β := .cmd (.own c) .ret

/-- A handler of `Nickname.Model`. -/
def nick {α : Type} (p : Nickname.Handler α) : Handler α := p.lift fun _ => .nick

/-! ## Handlers -/

def SEND_CODE_LIMIT : Int := 30

/-- What a request for a code brings along: the number that `random` gives, whether the SMS was sent, and the day. -/
structure Sms where
  code : Nat
  sent : Bool
  today : String
  deriving Repr, DecidableEq

/-- `/info/check/code` -/
def infoCheckCode (sms : Sms) (sid phone : String) : Handler Reply := do
  match ← nick (call (.hgetSession sid)) with
  | none => return ⟨0, "登录超时！"⟩
  | some _ =>
    if (← send (.getTimes phone sms.today)).getD 0 > SEND_CODE_LIMIT then return ⟨1, "今天发送验证码已达到上限！"⟩
    send (.setexCode phone (toString sms.code))
    if !sms.sent then return ⟨1, "发送验证码失败！"⟩
    send (.incrTimes phone sms.today)
    return ⟨0, "发送验证码成功！"⟩

/-- `phone[:3]+'****'+phone[-4:]` -/
def masked (phone : String) : String :=
  String.ofList (phone.toList.take 3) ++ "****" ++ String.ofList (phone.toList.drop (phone.length - 4))

/-- `/info/complete/second/code`: the phone of the user, who may have none. -/
def infoCompleteSecondCode (sms : Sms) (sid : String) : Handler Reply := do
  let uid ← nick (call (.hgetSession sid))
  let phone ← send (.hgetPhone uid)
  if uid = none then return ⟨0, "登录超时！"⟩
  send (.setexCode (fmt phone) (toString sms.code))
  if !sms.sent then return ⟨1, "发送验证码失败！"⟩
  let p := masked (← orRaise .TypeError phone)
  return ⟨0, "验证码已发送至您的手机号" ++ p ++ "。"⟩

/-! ## Requests -/

/-- A request, the end of a code, or what other requests make of the users, the sessions, the names and the counters. -/
inductive Req where
  | check (sms : Sms) (sid phone : String)
  | second (sms : Sms) (sid : String)
  | complete (f : Form)
  | lapse (phone : String)
  | elsewhere (nick : Nickname.St) (times : Table (String × String))

def Req.handler (md5 : String → String) : Req → Handler Reply
  | .check sms sid phone => infoCheckCode sms sid phone
  | .second sms sid => infoCompleteSecondCode sms sid
  | .complete f => nick (infoComplete md5 f)
  | .lapse _ | .elsewhere _ _ => return ⟨0, ""⟩

def step (md5 : String → String) : Req → St → St
  | .lapse phone, s => { s with nick := { s.nick with code := update s.nick.code phone none } }
  | .elsewhere nick times, s => ⟨{ nick with code := s.nick.code }, times⟩
  | r, s => (run (r.handler md5) s).2

/-- What a request shows. -/
def events (md5 : String → String) (r : Req) (s : St) : List Event := trace Event (r.handler md5) s

/-! ## What a request does -/

theorem part_nick : Part (C := Nickname.Cmd) (D := Cmd) (fun _ => Cmd.nick) St.nick (fun s nick => { s with nick := nick }) where
  exec _ _ _ := rfl
  view_put _ _ := rfl
  put_put _ _ _ := rfl
  put_view _ := rfl

section Step
variable (md5 : String → String) {f : Form} {s : Nickname.St} {uid : Nat}

theorem trace_infoComplete (h : Takes f s uid) : trace Event (infoComplete md5 f) s = [.completed f.phone] := by
  by_cases hopenid : (s.user uid "openid").getD "" = "" <;>
    simp [infoComplete, Exec.exec, Note.note, h.session, h.phone, h.free, h.code, h.notEmpty, h.sent, call, hopenid, List.lookup_cons]

theorem trace_infoComplete_not (h : ∀ uid, ¬Takes f s uid) : trace Event (infoComplete md5 f) s = [] := by
  unfold infoComplete
  cases hsession : s.session f.sid with
  | none => simp [Exec.exec, Note.note, hsession, call]
  | some uid =>
  by_cases hphone : f.phone.length = 11
  swap
  · simp [Exec.exec, Note.note, hsession, hphone, call]
  by_cases hfree : f.nickname ∈ s.nicknames
  · simp [Exec.exec, Note.note, hsession, hphone, hfree, call]
  cases hcode : s.code f.phone with
  | none => simp [Exec.exec, Note.note, hsession, hphone, hfree, hcode, call]
  | some code =>
  by_cases hempty : code = ""
  · simp [Exec.exec, Note.note, hsession, hphone, hfree, hcode, hempty, call]
  by_cases hcheck : f.check_code = code
  swap
  · simp [Exec.exec, Note.note, hsession, hphone, hfree, hcode, hempty, hcheck, call]
  cases hsent : f.sent with
  | false => simp [Exec.exec, Note.note, hsession, hphone, hfree, hcode, hempty, hcheck, call]
  | true => exact absurd ⟨hsession, hphone, hfree, hcheck ▸ hcode, hcheck ▸ hempty, hsent⟩ (h uid)

theorem ran_nick {α : Type} {q : Nickname.Handler α} {s : St} {r : Except Err α} {nick' : Nickname.St} {l : List Event}
    (h : Ran q s.nick r nick' l) : Ran (nick q) s r { s with nick := nick' } (l.map id) :=
  Ran.lift (D := Cmd) part_nick (fun _ c b => (List.map_id (Note.note c b : List Event)).symm) h

theorem events_complete (s : St) : events md5 (.complete f) s = trace Event (infoComplete md5 f) s.nick := by
  have hran := ran_nick (s := s) (q := infoComplete md5 f) ⟨rfl, rfl⟩
  exact hran.trace.trans (List.map_id _)

theorem step_complete (s : St) : step md5 (.complete f) s = { s with nick := (run (infoComplete md5 f) s.nick).2 } :=
  congrArg Prod.snd (run_lift part_nick (infoComplete md5 f) s)

/-- The command shows no completion. -/
def Completeless ⦃β : Type⦄ (c : Cmd β) : Prop := ∀ b, ∀ e ∈ (Note.note c b : List Event), ∀ p, e ≠ .completed p

theorem completeless_own {β : Type} (c : Own β) : Completeless (.own c) := by
  intro b e he p
  cases c with
  | setexCode phone code =>
    rw [List.mem_singleton.1 he]
    exact Event.noConfusion
  | _ => cases he

theorem completeless_session (sid : String) : Completeless (.nick (.hgetSession sid)) :=
  fun _ _ he => absurd he List.not_mem_nil

/-- The two issuers complete nothing. -/
theorem issuer_completes (sms : Sms) (sid phone : String) :
    Only Completeless (infoCheckCode sms sid phone) ∧ Only Completeless (infoCompleteSecondCode sms sid) := by
  constructor
  · refine only_bind _ ⟨completeless_session sid, fun _ => trivial⟩ fun uid => ?_
    cases uid with
    | none => trivial
    | some uid =>
      refine only_bind _ ⟨completeless_own _, fun _ => trivial⟩ fun times => ?_
      simp [send, completeless_own]
  · refine only_bind _ ⟨completeless_session sid, fun _ => trivial⟩ fun uid => ?_
    refine only_bind _ ⟨completeless_own _, fun _ => trivial⟩ fun phone => ?_
    simp [send, completeless_own]

end Step

/-! ## The code of a phone -/

section Phone
variable (md5 : String → String) (p : String)

/-- A completion goes through that names the phone. -/
def Completes (r : Req) (s : St) : Bool := .completed p ∈ events md5 r s

/-- The phone gets a code. -/
def Issues (r : Req) (s : St) : Prop := ∃ code, .issued p code ∈ events md5 r s

/-- If it is a completion that names the phone and goes through, the phone is the number of its user. -/
def OwnNumber (r : Req) (s : St) : Prop :=
  match r with
  | .complete f => ∀ uid, Takes f s.nick uid → f.phone = p → p = toString uid
  | _ => True

/-- What a completion that goes through leaves under its phone. -/
theorem code_complete {f : Form} {s : St} {uid : Nat} (h : Takes f s.nick uid) :
    (step md5 (.complete f) s).nick.code f.phone = if f.phone = toString uid then none else some f.check_code := by
  rw [step_complete]
  show (run (infoComplete md5 f) s.nick).2.code f.phone = _
  rw [run_infoComplete md5 h]
  show update s.nick.code (toString uid) none f.phone = _
  split
  · next hphone => rw [hphone, Function.update_self]
  · next hphone => rw [Function.update_of_ne hphone, h.code]

/-- Without a code there is none until the phone gets one. -/
theorem no_code_run {α : Type} {q : Handler α} {s : St} (hcode : s.nick.code p = none)
    (h : ∀ code, .issued p code ∉ trace Event q s) : (run q s).2.nick.code p = none := by
  induction q generalizing s with
  | ret a => exact hcode
  | raise e => exact hcode
  | cmd c k ih =>
    refine ih _ ?_ fun code hmem => h code (List.mem_append_right _ hmem)
    cases c with
    | own c =>
      cases c with
      | setexCode phone code =>
        have hne : p ≠ phone := by
          rintro rfl
          exact h code (List.mem_append_left _ List.mem_cons_self)
        exact (Function.update_of_ne hne ..).trans hcode
      | _ => exact hcode
    | nick c =>
      cases c with
      | executeComplete uid dic past_nn nickname =>
        show update s.nick.code (toString uid) none p = none
        rw [Function.update_apply, hcode, ite_self]
      | _ => exact hcode

theorem completes_iff {r : Req} {s : St} :
    Completes md5 p r s = true ↔ ∃ f uid, r = .complete f ∧ Takes f s.nick uid ∧ f.phone = p := by
  unfold Completes
  rw [decide_eq_true_iff]
  constructor
  · intro hmem
    cases r with
    | check sms sid phone =>
      exact absurd rfl ((issuer_completes sms sid phone).1.trace_all (fun _ _ b h => h b) s _ hmem p)
    | second sms sid => exact absurd rfl ((issuer_completes sms sid p).2.trace_all (fun _ _ b h => h b) s _ hmem p)
    | complete f =>
      rw [events_complete] at hmem
      by_cases h : ∃ uid, Takes f s.nick uid
      · obtain ⟨uid, h⟩ := h
        rw [trace_infoComplete md5 h, List.mem_singleton] at hmem
        exact ⟨f, uid, rfl, h, (Event.completed.inj hmem).symm⟩
      · rw [trace_infoComplete_not md5 (not_exists.1 h)] at hmem
        cases hmem
    | lapse | elsewhere => cases hmem
  · rintro ⟨f, uid, rfl, h, rfl⟩
    rw [events_complete, trace_infoComplete md5 h]
    exact List.mem_singleton_self _

/-- Without a code a phone has none after the request, unless it gets one. -/
theorem no_code_step {r : Req} {s : St} (hissues : ¬Issues md5 p r s) (hcode : s.nick.code p = none) :
    (step md5 r s).nick.code p = none := by
  have hrun : (run (r.handler md5) s).2.nick.code p = none := no_code_run p hcode fun code hmem => hissues ⟨code, hmem⟩
  cases r with
  | check | second | complete => exact hrun
  | lapse phone =>
    show update s.nick.code phone none p = none
    rw [Function.update_apply, hcode, ite_self]
  | elsewhere nick times => exact hcode

/-- Without a code no completion goes through that names the phone. -/
theorem count_no_code {rs : List Req} {s : St} (h : All (step md5) (fun r s => ¬Issues md5 p r s) rs s)
    (hcode : s.nick.code p = none) : count (step md5) (Completes md5 p) rs s = 0 := by
  induction rs generalizing s with
  | nil => rfl
  | cons r rs ih =>
    have hno : Completes md5 p r s = false := by
      refine Bool.eq_false_iff.2 fun hcompletes => ?_
      obtain ⟨f, uid, rfl, htakes, rfl⟩ := (completes_iff md5 p).1 hcompletes
      rw [htakes.code] at hcode
      cases hcode
    rw [count, hno, ih h.2 (no_code_step md5 p h.1 hcode)]
    rfl

/-- As long as the phone gets no other code, at most one completion goes through that names it. -/
theorem count_completes_le_one {rs : List Req} {s : St} (hown : All (step md5) (OwnNumber p) rs s)
    (h : All (step md5) (fun r s => ¬Issues md5 p r s) rs s) : count (step md5) (Completes md5 p) rs s ≤ 1 := by
  induction rs generalizing s with
  | nil => exact Nat.zero_le 1
  | cons r rs ih =>
    cases hcompletes : Completes md5 p r s with
    | false =>
      rw [count, hcompletes, Bool.toNat_false, Nat.zero_add]
      exact ih hown.2 h.2
    | true =>
      -- the completion deletes the code, and nothing follows
      obtain ⟨f, uid, rfl, htakes, rfl⟩ := (completes_iff md5 p).1 hcompletes
      have hcode := code_complete md5 htakes
      rw [if_pos (hown.1 uid htakes rfl)] at hcode
      rw [count, hcompletes, count_no_code md5 f.phone h.2 hcode]
      rfl

end Phone

/-! ## Single use -/

/-- Some nickname is free. -/
theorem exists_free (names : MemberSet String) : ∃ nickname, nickname ∉ names := by
  obtain ⟨nickname, h⟩ := Infinite.exists_notMem_finset names.members.toFinset
  exact ⟨nickname, fun hmem => h (List.mem_toFinset.2 hmem)⟩

/-- A completion that goes through is the last that its code serves for if and only if it names, as its phone, the number
of its user; and where those that name a phone all do, a code serves for one of them at most. -/
theorem code_single_use (md5 : String → String) (s : St) :
    (∀ f uid, Takes f s.nick uid → ((∀ rs, All (step md5) (fun r s => ¬Issues md5 f.phone r s) rs (step md5 (.complete f) s) →
      count (step md5) (Completes md5 f.phone) rs (step md5 (.complete f) s) = 0) ↔ f.phone = toString uid)) ∧
    ∀ p rs, All (step md5) (OwnNumber p) rs s → All (step md5) (fun r s => ¬Issues md5 p r s) rs s →
      count (step md5) (Completes md5 p) rs s ≤ 1 := by
  refine ⟨fun f uid h => ⟨fun hlast => ?_, fun hown rs hrs => ?_⟩, fun p rs hown hissues => ?_⟩
  · by_contra hne
    -- the code is still there, and the user asks for another nickname
    obtain ⟨nickname, hfree⟩ := exists_free (step md5 (.complete f) s).nick.nicknames
    have hagain : Takes { f with nickname } (step md5 (.complete f) s).nick uid := by
      refine ⟨?_, h.phone, hfree, ?_, h.notEmpty, h.sent⟩
      · rw [step_complete, run_infoComplete md5 h]
        exact h.session
      · rw [code_complete md5 h, if_neg hne]
    have hone := hlast [.complete { f with nickname }] ⟨?_, trivial⟩
    · have htrue : Completes md5 f.phone (.complete { f with nickname }) (step md5 (.complete f) s) = true :=
        (completes_iff md5 f.phone).2 ⟨_, uid, rfl, hagain, rfl⟩
      rw [count, htrue] at hone
      cases hone
    · rintro ⟨code, hmem⟩
      rw [events_complete, trace_infoComplete md5 hagain, List.mem_singleton] at hmem
      cases hmem
  · exact count_no_code md5 f.phone hrs (by rw [code_complete md5 h, if_pos hown])
  · exact count_completes_le_one md5 p hown hissues

/-! ### A code that serves twice -/

/-- Nothing is stored but the sessions of two users. -/
def demoSessions (uid uid' : Nat) : St where
  nick := { Nickname.demo with session := fun sid => if sid = "s1" then some uid else if sid = "s2" then some uid' else none }
  times _ := none

/-- One code is sent. -/
def demoCheck : Req := .check ⟨1234, true, "2024-01-01"⟩ "s1" demoPhone

/-- The user of a session takes a nickname with it. -/
def demoForm (sid nickname : String) : Form := ⟨sid, demoPhone, "1234", "", "", nickname, "pwd", true⟩

/-- Two users complete their information with one code. -/
theorem code_used_twice : events id demoCheck (demoSessions 1 2) = [.issued demoPhone "1234"] ∧
    events id (.complete (demoForm "s1" "anna")) (after (step id) [demoCheck] (demoSessions 1 2)) = [.completed demoPhone] ∧
    events id (.complete (demoForm "s2" "bob"))
      (after (step id) [demoCheck, .complete (demoForm "s1" "anna")] (demoSessions 1 2)) = [.completed demoPhone] := by
  decide +kernel

/-- The user whose number is the phone uses the code up. -/
theorem code_used_up :
    Completes id demoPhone (.complete (demoForm "s1" "anna")) (after (step id) [demoCheck] (demoSessions 13800000000 2)) = true ∧
    count (step id) (Completes id demoPhone) [.complete (demoForm "s1" "anna"), .complete (demoForm "s2" "bob")]
      (after (step id) [demoCheck] (demoSessions 13800000000 2)) ≤ 1 := by
  refine ⟨by decide +kernel, (code_single_use id _).2 demoPhone _ ⟨?_, ?_, trivial⟩ ⟨?_, ?_, trivial⟩⟩
  · intro uid h _
    have huid : uid = 13800000000 := Option.some.inj (h.session.symm.trans (by decide +kernel))
    rw [huid]
    decide +kernel
  · intro uid h _
    have hcode : (some "1234" : Option String) = none := h.code.symm.trans (by decide +kernel)
    cases hcode
  · rintro ⟨code, hmem⟩
    have hevents : events id (.complete (demoForm "s1" "anna"))
        (after (step id) [demoCheck] (demoSessions 13800000000 2)) = [.completed demoPhone] := by decide +kernel
    rw [hevents, List.mem_singleton] at hmem
    cases hmem
  · rintro ⟨code, hmem⟩
    have hevents : events id (.complete (demoForm "s2" "bob")) (after (step id)
        [demoCheck, .complete (demoForm "s1" "anna")] (demoSessions 13800000000 2)) = [] := by decide +kernel
    exact absurd hmem (hevents ▸ List.not_mem_nil)

end FishWeb.Nickname.Code
