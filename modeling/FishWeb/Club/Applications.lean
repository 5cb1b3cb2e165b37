import FishWeb.Club.Managers
import FishWeb.Lib.Separator
import Mathlib.Data.List.Sort
/-!
# Applications

An application is kept as a text, of four parts that the user chooses, and read back at
the separators. The list passes over what has not four parts, an audit ends there with an
exception; and an audit decides one application of the user, who may have several under
different names. So all is well if and only if the parts have no separator and nobody has
two applications (`applications_iff`).
-/
open Python Prog Runs

namespace FishWeb.Club

open Common

/-! ## The list -/

/-- What the list shows of an application. -/
structure Row where
  account : String
  nickname : String
  avatar_url : String
  /-- `{"code": .., "name": ..}` -/
  status : String × String
  club_number : String
  user_id : String
  reg_date : Option String
  order : Int
  deriving Repr, DecidableEq

inductive ListReply where
  | refused (r : Refusal)
  /-- `{"code": 0, 'msg': .., "list": ..}` -/
  | list (msg : String) (data : List Row)
  deriving Repr, DecidableEq

def status_keys (status : Int) : Option String :=
  if status = 0 then some "申请中" else if status = 1 then some "成功" else if status = -1 then some "拒绝" else none

def orders (status : Int) : Option Int :=
  if status = 0 then some 2 else if status = 1 then some 1 else if status = -1 then some 0 else none

section List
-- The field `reg_date` of the users, which only the list reads.
variable (reg_date : String → Option String)

def showItem (club_number account nickname avatar_url status : String) : Handler Row := do
  let user_path ← room (ask (.getUserTable account))
  let user_path ← orRaise .AttributeError user_path
  let user_id := (split ':' user_path).getLastD ""
  let code ← ofExcept (Value.str status).toInt
  let name ← orRaise .KeyError (status_keys code)
  let order ← orRaise .KeyError (orders code)
  return ⟨account, nickname, avatar_url, (status, name), club_number, user_id, reg_date user_path, order⟩

/-- The loop over the applications. What has not four parts is passed over. -/
def showAll (club_number : String) : List String → Handler (List Row)
  | [] => return []
  | item :: result =>
    match splitOn "|---|" item with
    | [account, nickname, avatar_url, status] => do
      let row ← showItem reg_date club_number account nickname avatar_url status
      return row :: (← showAll club_number result)
    | _ => showAll club_number result

/-- `/club/apply/list` -/
def apply_club_list (sid club_number : String) : Handler ListReply := do
  if club_number = "" then return .refused ⟨1, "不能没有俱乐部ID", none⟩
  let info ← infoOf sid
  if elsewhere sid info then return .refused ⟨-4, "账号已在其他地方登录", some sid⟩
  if ← send (.existsAttr club_number) then
    let data ← evalManager club_number
    if ← stranger club_number info.account data then return .refused ⟨1, "你不能操作这个俱乐部", none⟩
    let result ← send (.smembersAudit club_number)
    let data ← showAll reg_date club_number result.members
    return .list "成功" (data.insertionSort fun x y => -x.order ≤ -y.order)
  return .refused ⟨1, "失败", none⟩

end List

/-! ## Applications and their texts -/

structure Application where
  account : String
  nickname : String
  avatar_url : String
  status : String
  deriving DecidableEq

namespace Application

def text (a : Application) : String := application a.account a.nickname a.avatar_url a.status

/-- It is not decided yet. -/
def Pending (a : Application) : Prop := int a.status = some 0

instance (a : Application) : Decidable a.Pending := inferInstanceAs (Decidable (_ = _))

/-- No separator begins in the parts. -/
structure Legible (a : Application) : Prop where
  account : Free "|---|".toList a.account.toList
  nickname : Free "|---|".toList a.nickname.toList
  avatar_url : Free "|---|".toList a.avatar_url.toList
  status : ¬"|---|".toList <:+: a.status.toList

end Application

/-- What the loops read of an item, if it has four parts. -/
def readItem (item : String) : Option Application :=
  match splitOn "|---|" item with
  | [account, nickname, avatar_url, status] => some ⟨account, nickname, avatar_url, status⟩
  | _ => none

/-- An item is read as the application that it is the text of, if this is legible, and else as none. -/
theorem readItem_eq_some {item : String} {a : Application} : readItem item = some a ↔ item = a.text ∧ a.Legible := by
  have hsep : "|---|".toList ≠ [] := by decide
  have hread : readItem item = some a ↔ splitOn "|---|" item = [a.account, a.nickname, a.avatar_url, a.status] := by
    unfold readItem
    split
    · rename_i hparts
      rw [hparts]
      cases a
      simp
    · rename_i hparts
      exact iff_of_false (fun h => nomatch h) (hparts _ _ _ _)
  rw [hread, splitOn_cons hsep]
  constructor
  · rintro ⟨_, rfl, haccount, h⟩
    obtain ⟨_, rfl, hnickname, h⟩ := (splitOn_cons hsep).1 h
    obtain ⟨_, rfl, havatar, h⟩ := (splitOn_cons hsep).1 h
    obtain ⟨rfl, hstatus⟩ := (splitOn_singleton hsep).1 h
    refine ⟨?_, haccount, hnickname, havatar, hstatus⟩
    simp only [Application.text, application, String.append_assoc]
  · rintro ⟨rfl, haccount, hnickname, havatar, hstatus⟩
    refine ⟨a.nickname ++ "|---|" ++ (a.avatar_url ++ "|---|" ++ a.status), ?_, haccount, ?_⟩
    · simp only [Application.text, application, String.append_assoc]
    refine (splitOn_cons hsep).2 ⟨_, rfl, hnickname, ?_⟩
    exact (splitOn_cons hsep).2 ⟨_, rfl, havatar, (splitOn_singleton hsep).2 ⟨rfl, hstatus⟩⟩

theorem Application.Legible.readItem {a : Application} (h : a.Legible) : readItem a.text = some a := readItem_eq_some.2 ⟨rfl, h⟩

/-- Legible applications have different texts. -/
theorem Application.Legible.inj {a b : Application} (ha : a.Legible) (hb : b.Legible) (h : a.text = b.text) : a = b :=
  Option.some.inj (ha.readItem.symm.trans ((congrArg _ h).trans hb.readItem))

theorem Application.Legible.splitOn {a : Application} (h : a.Legible) :
    splitOn "|---|" a.text = [a.account, a.nickname, a.avatar_url, a.status] := by
  have hread := h.readItem
  unfold FishWeb.Club.readItem at hread
  split at hread
  · rename_i hparts
    rw [hparts, ← Option.some.inj hread]
  · cases hread

/-! ## What the list shows -/

/-- What a row says of an application. -/
def Row.application (row : Row) : Application := ⟨row.account, row.nickname, row.avatar_url, row.status.1⟩

/-- The user of the application is known, and its status is one of the three. -/
def Application.Known (a : Application) (s : St) : Prop :=
  (s.room.shared.userTable a.account).isSome ∧ ∃ code, int a.status = some code ∧ (status_keys code).isSome

theorem orders_isSome {code : Int} (h : (status_keys code).isSome) : (orders code).isSome := by
  unfold status_keys at h
  unfold orders
  split_ifs at h ⊢ <;> first | rfl | cases h

section Show
variable (reg_date : String → Option String) {s : St} {n : String}

theorem run_showItem {a : Application} (h : a.Known s) :
    ∃ row, run (showItem reg_date n a.account a.nickname a.avatar_url a.status) s = (.ok row, s) ∧ row.application = a := by
  obtain ⟨htable, code, hcode, hkey⟩ := h
  obtain ⟨user_path, hpath⟩ := Option.isSome_iff_exists.1 htable
  obtain ⟨name, hname⟩ := Option.isSome_iff_exists.1 hkey
  obtain ⟨order, horder⟩ := Option.isSome_iff_exists.1 (orders_isSome hkey)
  refine ⟨⟨a.account, a.nickname, a.avatar_url, (a.status, name), n, (split ':' user_path).getLastD "", reg_date user_path, order⟩, ?_, rfl⟩
  have hask : run (room (ask (.getUserTable a.account)) : Handler (Option String)) s = (.ok (some user_path), s) :=
    congrArg (fun x => ((.ok x : Except Err (Option String)), s)) hpath
  unfold showItem
  rw [run_bind_ok hask]
  simp only [orRaise_some, ret_bind, Value.toInt, hcode, ofExcept_ok, hname, horder]
  rfl

theorem run_showItem_error {a : Application} (h : ¬a.Known s) :
    ∃ e, run (showItem reg_date n a.account a.nickname a.avatar_url a.status) s = (.error e, s) := by
  have hask : run (room (ask (.getUserTable a.account)) : Handler (Option String)) s = (.ok (s.room.shared.userTable a.account), s) := rfl
  unfold showItem
  rw [run_bind_ok hask]
  cases hpath : s.room.shared.userTable a.account with
  | none => exact ⟨_, rfl⟩
  | some user_path =>
  cases hcode : int a.status with
  | none => exact ⟨.ValueError, by simp only [orRaise_some, ret_bind, Value.toInt, hcode, ofExcept_error, raise_bind]; rfl⟩
  | some code =>
  cases hname : status_keys code with
  | none => exact ⟨.KeyError, by simp only [orRaise_some, ret_bind, Value.toInt, hcode, ofExcept_ok, hname]; rfl⟩
  | some name => exact absurd ⟨by rw [hpath]; rfl, code, hcode, by rw [hname]; rfl⟩ h

theorem showAll_cons (item : String) (result : List String) : showAll reg_date n (item :: result) =
    match readItem item with
    | some a => showItem reg_date n a.account a.nickname a.avatar_url a.status >>= fun row =>
        showAll reg_date n result >>= fun rows => .ret (row :: rows)
    | none => showAll reg_date n result := by
  conv_lhs => unfold showAll
  unfold readItem
  split <;> rfl

/-- Where the readable applications are known, there is a list. -/
theorem run_showAll {l : List String} (h : ∀ item ∈ l, ∀ a, readItem item = some a → a.Known s) :
    ∃ rows, run (showAll reg_date n l) s = (.ok rows, s) := by
  induction l with
  | nil => exact ⟨[], rfl⟩
  | cons item l ih =>
    obtain ⟨rows, hrows⟩ := ih fun i hi => h i (List.mem_cons_of_mem item hi)
    rw [showAll_cons]
    cases hread : readItem item with
    | none => exact ⟨rows, hrows⟩
    | some a =>
      obtain ⟨row, hrow, -⟩ := run_showItem reg_date (n := n) (h item List.mem_cons_self a hread)
      refine ⟨row :: rows, ?_⟩
      dsimp only
      rw [run_bind_ok hrow, run_bind_ok hrows]
      rfl

/-- A list has a row for each readable application, all of which are known, and no other. -/
theorem showAll_rows {l : List String} {rows : List Row} {s' : St} (h : run (showAll reg_date n l) s = (.ok rows, s')) :
    ∀ a, (∃ row ∈ rows, row.application = a) ↔ (∃ item ∈ l, readItem item = some a) ∧ a.Known s := by
  intro a
  induction l generalizing rows s' with
  | nil =>
    obtain rfl := Except.ok.inj (Prod.mk.inj h).1
    simp
  | cons item l ih =>
    rw [showAll_cons] at h
    cases hread : readItem item with
    | none =>
      rw [hread] at h
      rw [ih h]
      simp [hread]
    | some b =>
      rw [hread] at h
      obtain ⟨row, s₁, hrow, hrows⟩ := run_bind_eq_ok h
      by_cases hknown : b.Known s
      · obtain ⟨row', hrow', happ⟩ := run_showItem reg_date (n := n) hknown
        obtain ⟨hsame, rfl⟩ := Prod.mk.inj (hrow.symm.trans hrow')
        obtain rfl := Except.ok.inj hsame
        obtain ⟨rest, s₂, hrest, hret⟩ := run_bind_eq_ok hrows
        obtain rfl := Except.ok.inj (Prod.mk.inj hret).1
        have hiff := ih hrest
        simp only [List.mem_cons, exists_eq_or_imp, hread, Option.some.injEq, happ, hiff]
        constructor
        · rintro (rfl | ⟨hitem, ha⟩)
          · exact ⟨.inl rfl, hknown⟩
          · exact ⟨.inr hitem, ha⟩
        · rintro ⟨rfl | hitem, ha⟩
          · exact .inl rfl
          · exact .inr ⟨hitem, ha⟩
      · obtain ⟨e, he⟩ := run_showItem_error reg_date (n := n) hknown
        cases (Prod.mk.inj (hrow.symm.trans he)).1

end Show

/-! ## Who may see and decide -/

/-- The session acts for the club, in this place. -/
structure Entitled (s : St) (sid n : String) : Prop where
  named : n ≠ ""
  here : elsewhere sid (s.room.shared.info sid) = false
  club : (s.attr n).isSome
  may : ∃ data, (s.attrOf n).club_manager = some data ∧
    ((s.attrOf n).club_user = s.account sid ∨ outside (s.account sid) data = false)

/-- The texts that are kept for the club are those of the applications. -/
def Stored (s : St) (n : String) (apps : List Application) : Prop := ∀ item, item ∈ s.audit n ↔ ∃ a ∈ apps, a.text = item

/-- The list has a row for each application, and no other. -/
def Listed (reg_date : String → Option String) (s : St) (sid n : String) (apps : List Application) : Prop :=
  ∃ data, (run (apply_club_list reg_date sid n) s).1 = .ok (.list "成功" data) ∧ ∀ a, a ∈ apps ↔ ∃ row ∈ data, row.application = a

section List
variable (reg_date : String → Option String) {s : St} {sid n : String} {apps : List Application}

theorem Entitled.run_list (h : Entitled s sid n) : run (apply_club_list reg_date sid n) s =
    run (showAll reg_date n (s.audit n).members >>= fun data =>
      .ret (ListReply.list "成功" (data.insertionSort fun x y => -x.order ≤ -y.order))) s := by
  obtain ⟨data, hdata, hmay⟩ := h.may
  unfold apply_club_list
  rw [if_neg h.named, run_bind_ok (ran_infoOf sid).run, if_neg (by rw [h.here]; exact Bool.false_ne_true)]
  show run (if (s.attr n).isSome then _ else _ : Handler ListReply) s = _
  rw [if_pos h.club, run_bind_ok (ran_evalManager hdata).run]
  show run (if ((s.attrOf n).club_user ≠ s.account sid && outside (s.account sid) data : Bool) then _ else _ : Handler ListReply) s = _
  rw [if_neg]
  · rfl
  · rcases hmay with howner | hin
    · simp [howner]
    · simp [hin]

/-- The list is right if and only if the applications are legible and known. -/
theorem listed_iff (h : Entitled s sid n) (hs : Stored s n apps) :
    Listed reg_date s sid n apps ↔ ∀ a ∈ apps, a.Legible ∧ a.Known s := by
  unfold Listed
  rw [h.run_list]
  constructor
  · rintro ⟨data, hdata, hrows⟩ a ha
    have hpage : run (showAll reg_date n (s.audit n).members >>= fun data =>
      .ret (ListReply.list "成功" (data.insertionSort fun x y => -x.order ≤ -y.order))) s = (.ok (.list "成功" data), _) :=
      Prod.ext hdata rfl
    obtain ⟨rows, s₁, hrun, hlist⟩ := run_bind_eq_ok hpage
    have hsort : (rows.insertionSort fun x y => -x.order ≤ -y.order) = data := by
      have := Except.ok.inj (Prod.mk.inj hlist).1
      exact (ListReply.list.inj this).2
    obtain ⟨row, hrow, happ⟩ := (hrows a).1 ha
    rw [← hsort, List.mem_insertionSort] at hrow
    obtain ⟨⟨item, -, hread⟩, hknown⟩ := (showAll_rows reg_date hrun a).1 ⟨row, hrow, happ⟩
    exact ⟨(readItem_eq_some.1 hread).2, hknown⟩
  · intro hall
    have hread : ∀ item ∈ (s.audit n).members, ∀ a, readItem item = some a → a ∈ apps := by
      intro item hitem a hread
      obtain ⟨b, hb, rfl⟩ := (hs item).1 hitem
      rwa [Option.some.inj (hread.symm.trans (hall b hb).1.readItem)]
    obtain ⟨rows, hrun⟩ := run_showAll reg_date (n := n) (s := s) fun item hitem a ha => (hall a (hread item hitem a ha)).2
    refine ⟨rows.insertionSort fun x y => -x.order ≤ -y.order, ?_, fun a => ?_⟩
    · rw [run_bind_ok hrun]
      rfl
    · simp only [List.mem_insertionSort]
      rw [showAll_rows reg_date hrun a]
      constructor
      · intro ha
        exact ⟨⟨a.text, (hs _).2 ⟨a, ha, rfl⟩, (hall a ha).1.readItem⟩, (hall a ha).2⟩
      · rintro ⟨⟨item, hitem, hitem'⟩, -⟩
        exact hread item hitem a hitem'

end List

/-! ## What an application leaves -/

section Apply
variable {s : St} {sid n : String} {apps : List Application}

/-- What the user of the session applies with. -/
def St.applies (s : St) (sid : String) : Application :=
  let user := s.profile (fmt (s.room.shared.userTable (fmt (s.account sid))))
  ⟨fmt user.account, fmt user.nickname, fmt user.headImgUrl, "0"⟩

/-- Who applies again under another name has one application more. -/
theorem Stored.apply (hs : Stored s n apps) (hn : n ≠ "") (hhere : elsewhere sid (s.room.shared.info sid) = false)
    (hclub : (s.attr n).isSome) (howner : (s.attrOf n).club_user ≠ s.account sid) :
    Stored (step (.request (.apply sid n)) s) n (s.applies sid :: apps) := by
  have hstep : step (.request (.apply sid n)) s = s.setAudit n ((s.audit n).sadd (s.applies sid).text) := by
    show (run (apply_club sid n) s).2 = _
    unfold apply_club
    rw [if_neg hn, run_bind_ok (ran_infoOf sid).run, if_neg (by rw [hhere]; exact Bool.false_ne_true)]
    show (run (if (s.attrOf n).club_user = s.account sid then _ else _ : Handler Reply) s).2 = _
    rw [if_neg howner]
    show (run (if (s.attr n).isSome then _ else _ : Handler Reply) s).2 = _
    rw [if_pos hclub]
    rfl
  intro item
  rw [hstep, show (s.setAudit n ((s.audit n).sadd (s.applies sid).text)).audit n = _ from Function.update_self n _ s.audit,
    MemberSet.mem_sadd, hs item]
  simp only [List.mem_cons, exists_eq_or_imp, eq_comm]

end Apply

/-! ## What an audit does -/

/-- The status that is sent. -/
def verdict (accept : Bool) : String := if accept then "1" else "-1"

theorem int_verdict (accept : Bool) : int (verdict accept) = some (if accept then 1 else -1) := by
  cases accept <;> decide +kernel

theorem verdict_legible (accept : Bool) : ¬"|---|".toList <:+: (verdict accept).toList := by
  cases accept <;> decide

/-- The application once it is decided. -/
def Application.decided (a : Application) (accept : Bool) : Application := { a with status := verdict accept }

theorem Application.Legible.decided {a : Application} (h : a.Legible) (accept : Bool) : (a.decided accept).Legible :=
  ⟨h.account, h.nickname, h.avatar_url, verdict_legible accept⟩

theorem Application.decided_not_pending (a : Application) (accept : Bool) : ¬(a.decided accept).Pending := by
  intro h
  have hint : int (verdict accept) = some 0 := h
  rw [int_verdict] at hint
  cases accept <;> cases hint

/-- The application `a` is decided. -/
def St.decide (s : St) (n : String) (a : Application) (accept : Bool) : St :=
  let s' := s.setAudit n (((s.audit n).srem a.text).sadd (a.decided accept).text)
  if accept then s'.join a.account n else s'

/-- What an audit of the user should do: his pending applications are decided, and the others are left. -/
structure Audited (s s' : St) (n : String) (apps : List Application) (x : String) (accept : Bool) (r : Except Err Reply) : Prop where
  answered : ∃ reply, r = .ok reply ∧ reply.code = 0
  accepted : accept = true → x ∈ s'.players (playerList n)
  rejected : accept = false → (x ∈ s'.players (playerList n) ↔ x ∈ s.players (playerList n))
  cleared : ∀ a ∈ apps, a.account = x → a.Pending → a.text ∉ s'.audit n
  others : ∀ a ∈ apps, a.account ≠ x → a.text ∈ s'.audit n
  new : ∀ item ∈ s'.audit n, item ∈ s.audit n ∨ ∃ a ∈ apps, a.account = x ∧ item = (a.decided accept).text

/-- Every user who has a pending application can be accepted, and rejected. -/
def Decided (s : St) (sid n : String) (apps : List Application) : Prop := ∀ x accept, (∃ a ∈ apps, a.account = x ∧ a.Pending) →
  Audited s (run (apply_club_audit sid n x (verdict accept)) s).2 n apps x accept (run (apply_club_audit sid n x (verdict accept)) s).1

section Audit
variable {s : St} {sid n x : String} {apps : List Application} {accept : Bool}

/-- Another user's application, or one that is decided, is passed over. -/
theorem decide_skip {a : Application} {l : List String} {status : String} (ha : a.Legible)
    (h : a.account = x → ∃ k, int a.status = some k ∧ k ≠ 0) :
    decide n x status accept (a.text :: l) = decide n x status accept l := by
  conv_lhs => unfold decide
  rw [ha.splitOn]
  dsimp only
  by_cases hx : a.account = x
  · obtain ⟨k, hk, hne⟩ := h hx
    rw [if_neg (not_not.2 hx)]
    simp only [Value.toInt, hk, ofExcept_ok, ret_bind, if_pos hne]
  · rw [if_pos hx]

theorem run_decide_pending {a : Application} {l : List String} (ha : a.Legible) (hp : a.Pending) (hclub : (s.attr n).isSome) :
    run (decide n a.account (verdict accept) accept (a.text :: l)) s = (.ok (.ok "成功"), s.decide n a accept) := by
  have hp' : int a.status = some 0 := hp
  have hstore : (Exec.exec (Own.saddAudit n (a.decided accept).text) (Exec.exec (Own.sremAudit n a.text) s).2).2 =
      s.setAudit n (((s.audit n).srem a.text).sadd (a.decided accept).text) := by
    simp [Exec.exec, St.setAudit, SetTable.add, SetTable.remove]
  unfold decide
  rw [ha.splitOn]
  simp only [ne_eq, not_true_eq_false, if_false, Value.toInt, hp', ofExcept_ok, ret_bind]
  show run (if (!accept) = true then _ else _ : Handler Reply)
    (Exec.exec (Own.saddAudit n (a.decided accept).text) (Exec.exec (Own.sremAudit n a.text) s).2).2 = _
  rw [hstore]
  cases accept with
  | false => rfl
  | true =>
    have hadd := (ran_add_club (s := s.setAudit n (((s.audit n).srem a.text).sadd (a.decided true).text)) a.account n hclub).run
    show run (ClubOperation.add_club a.account n >>= _) _ = _
    rw [run_bind_ok hadd]
    rfl

/-- The loop decides the first application of the user that is pending. -/
theorem run_decide (accept : Bool) {l : List String} (hclub : (s.attr n).isSome)
    (hl : ∀ item ∈ l, ∃ a : Application, a.Legible ∧ (∃ k, int a.status = some k) ∧ a.text = item)
    (hx : ∃ a : Application, a.Legible ∧ a.account = x ∧ a.Pending ∧ a.text ∈ l) :
    ∃ a : Application, a.Legible ∧ a.account = x ∧ a.Pending ∧ a.text ∈ l ∧
      run (decide n x (verdict accept) accept l) s = (.ok (.ok "成功"), s.decide n a accept) := by
  induction l with
  | nil =>
    obtain ⟨a, -, -, -, ha⟩ := hx
    exact absurd ha List.not_mem_nil
  | cons item l ih =>
    obtain ⟨b, hb, ⟨k, hk⟩, rfl⟩ := hl item List.mem_cons_self
    by_cases hfirst : b.account = x ∧ b.Pending
    · obtain ⟨rfl, hp⟩ := hfirst
      exact ⟨b, hb, rfl, hp, List.mem_cons_self, run_decide_pending hb hp hclub⟩
    · have hskip : b.account = x → ∃ k, int b.status = some k ∧ k ≠ 0 := by
        intro hbx
        refine ⟨k, hk, fun h0 => hfirst ⟨hbx, ?_⟩⟩
        show int b.status = some 0
        rw [hk, h0]
      obtain ⟨a, ha, hax, hp, hmem⟩ := hx
      have hrest : a.text ∈ l := by
        refine (List.mem_cons.1 hmem).resolve_left fun heq => hfirst ?_
        rw [← ha.inj hb heq]
        exact ⟨hax, hp⟩
      obtain ⟨c, hc, hcx, hcp, hcmem, hrun⟩ :=
        ih (fun i hi => hl i (List.mem_cons_of_mem _ hi)) ⟨a, ha, hax, hp, hrest⟩
      rw [decide_skip hb hskip]
      exact ⟨c, hc, hcx, hcp, List.mem_cons_of_mem _ hcmem, hrun⟩

theorem Entitled.run_audit (h : Entitled s sid n) (hx : x ≠ "") (accept : Bool) :
    run (apply_club_audit sid n x (verdict accept)) s = run (decide n x (verdict accept) accept (s.audit n).members) s := by
  obtain ⟨data, hdata, hmay⟩ := h.may
  have hverdict : verdict accept ≠ "" := by cases accept <;> decide
  have hmayNot : run (mayNotAudit n (s.account sid)) s = (.ok false, s) := by
    unfold mayNotAudit
    show run (if (s.attr n).isSome then _ else _ : Handler Bool) s = _
    rw [if_pos h.club, run_bind_ok (ran_evalManager hdata).run]
    refine Prod.ext (congrArg Except.ok ?_) rfl
    rcases hmay with howner | hin
    · simp [Exec.exec, howner]
    · simp [Exec.exec, hin]
  unfold apply_club_audit
  rw [run_bind_ok (ran_infoOf sid).run, if_neg h.named, if_neg hx, if_neg hverdict]
  simp only [Value.toInt, int_verdict, ofExcept_ok, ret_bind]
  rw [if_neg (by cases accept <;> decide), if_neg (by rw [h.here]; exact Bool.false_ne_true)]
  show run (mayNotAudit n (s.account sid) >>= _) s = _
  rw [run_bind_ok hmayNot]
  cases accept <;> rfl

/-- An audit of a user who has a pending application decides one of his. -/
theorem run_audit (h : Entitled s sid n) (hs : Stored s n apps) (hall : ∀ a ∈ apps, a.Legible ∧ a.Known s) (hx : x ≠ "")
    (hpending : ∃ a ∈ apps, a.account = x ∧ a.Pending) (accept : Bool) : ∃ a ∈ apps, a.account = x ∧ a.Pending ∧
      run (apply_club_audit sid n x (verdict accept)) s = (.ok (.ok "成功"), s.decide n a accept) := by
  have hl : ∀ item ∈ (s.audit n).members, ∃ a : Application, a.Legible ∧ (∃ k, int a.status = some k) ∧ a.text = item := by
    intro item hitem
    obtain ⟨a, ha, htext⟩ := (hs item).1 hitem
    obtain ⟨hlegible, -, k, hk, -⟩ := hall a ha
    exact ⟨a, hlegible, ⟨k, hk⟩, htext⟩
  obtain ⟨b, hb, hbx, hbp⟩ := hpending
  obtain ⟨a, ha, hax, hap, hmem, hrun⟩ := run_decide accept h.club hl
    ⟨b, (hall b hb).1, hbx, hbp, (hs b.text).2 ⟨b, hb, rfl⟩⟩
  obtain ⟨c, hc, htext⟩ := (hs a.text).1 hmem
  obtain rfl := (hall c hc).1.inj ha htext
  exact ⟨c, hc, hax, hap, (h.run_audit hx accept).trans hrun⟩

theorem mem_decide {a : Application} {item : String} : item ∈ (s.decide n a accept).audit n ↔
    item = (a.decided accept).text ∨ (item ≠ a.text ∧ item ∈ s.audit n) := by
  have haudit : (s.decide n a accept).audit n = ((s.audit n).srem a.text).sadd (a.decided accept).text := by
    cases accept <;> exact Function.update_self n _ s.audit
  rw [haudit, MemberSet.mem_sadd, MemberSet.mem_srem]

/-- Where a user has one pending application, its decision is all that an audit should do. -/
theorem audited_decide {a : Application} {reply : Reply} (hs : Stored s n apps) (hall : ∀ b ∈ apps, b.Legible) (ha : a ∈ apps)
    (hp : a.Pending) (honce : ∀ b ∈ apps, b.Pending → b.account = a.account → b = a) (hreply : reply.code = 0) :
    Audited s (s.decide n a accept) n apps a.account accept (.ok reply) where
  answered := ⟨reply, rfl, hreply⟩
  accepted haccept := by
    subst haccept
    exact mem_join.2 (.inl ⟨rfl, rfl⟩)
  rejected haccept := by
    subst haccept
    exact Iff.rfl
  cleared b hb hbx hbp := by
    obtain rfl := honce b hb hbp hbx
    rw [mem_decide]
    rintro (htext | ⟨hne, -⟩)
    · -- the application decided is not the one that was pending
      have heq := (hall b hb).inj ((hall b hb).decided accept) htext
      exact b.decided_not_pending accept (heq ▸ hp)
    · exact hne rfl
  others b hb hbx := by
    rw [mem_decide]
    refine .inr ⟨fun htext => hbx ?_, (hs b.text).2 ⟨b, hb, rfl⟩⟩
    rw [(hall b hb).inj (hall a ha) htext]
  new item hitem := by
    rcases mem_decide.1 hitem with rfl | ⟨-, hitem⟩
    · exact .inr ⟨a, ha, rfl, rfl⟩
    · exact .inl hitem

/-- Nobody is audited who has no name. -/
theorem Decided.named (hd : Decided s sid n apps) (h : Entitled s sid n) {a : Application} (ha : a ∈ apps) (hp : a.Pending) :
    a.account ≠ "" := by
  intro hempty
  have hrun : run (apply_club_audit sid n "" (verdict true)) s = (.ok (.msg 1 "不能没有用户信息"), s) := by
    unfold apply_club_audit
    rw [run_bind_ok (ran_infoOf sid).run, if_neg h.named, if_pos rfl]
    rfl
  obtain ⟨reply, hreply, hcode⟩ := (hd "" true ⟨a, ha, hempty, hp⟩).answered
  rw [hrun] at hreply
  obtain rfl := Except.ok.inj hreply
  cases hcode

end Audit

/-- The applications have no separator in their parts, are of known users, and nobody has two that are pending. -/
structure Fit (s : St) (apps : List Application) : Prop where
  legible : ∀ a ∈ apps, a.Legible
  known : ∀ a ∈ apps, a.Known s
  named : ∀ a ∈ apps, a.Pending → a.account ≠ ""
  once : ∀ a ∈ apps, ∀ b ∈ apps, a.Pending → b.Pending → a.account = b.account → a = b

/-- The list shows the applications as they are stored, and every user's pending application can be decided, once and for all, if
and only if the applications are fit. -/
theorem applications_iff (reg_date : String → Option String) (s : St) (sid n : String) (apps : List Application) (h : Entitled s sid n)
    (hs : Stored s n apps) : Listed reg_date s sid n apps ∧ Decided s sid n apps ↔ Fit s apps := by
  rw [listed_iff reg_date h hs]
  constructor
  · rintro ⟨hall, hdecided⟩
    refine ⟨fun a ha => (hall a ha).1, fun a ha => (hall a ha).2, fun a ha hp => hdecided.named h ha hp, fun a ha b hb hap hbp hab => ?_⟩
    -- of two, the one that is not decided stays pending
    have hpending : ∃ c ∈ apps, c.account = a.account ∧ c.Pending := ⟨a, ha, rfl, hap⟩
    obtain ⟨c, hc, hca, hcp, hrun⟩ := run_audit h hs hall (hdecided.named h ha hap) hpending false
    have haudited := hdecided a.account false hpending
    rw [hrun] at haudited
    have heq : ∀ d ∈ apps, d.account = a.account → d.Pending → d = c := by
      intro d hd hda hdp
      have hcleared : d.text ∉ (s.decide n c false).audit n := haudited.cleared d hd hda hdp
      by_contra hne
      refine hcleared (mem_decide.2 (.inr ⟨fun htext => hne ?_, (hs d.text).2 ⟨d, hd, rfl⟩⟩))
      exact (hall d hd).1.inj (hall c hc).1 htext
    rw [heq a ha rfl hap, heq b hb hab.symm hbp]
  · intro hfit
    have hall : ∀ a ∈ apps, a.Legible ∧ a.Known s := fun a ha => ⟨hfit.legible a ha, hfit.known a ha⟩
    refine ⟨hall, fun x accept hpending => ?_⟩
    have hx : x ≠ "" := by
      obtain ⟨a, ha, rfl, hp⟩ := hpending
      exact hfit.named a ha hp
    obtain ⟨a, ha, rfl, hp, hrun⟩ := run_audit h hs hall hx hpending accept
    rw [hrun]
    exact audited_decide hs hfit.legible ha hp (fun b hb hbp hba => hfit.once b hb a ha hbp hp hba) rfl

/-- Bob applies at Ann's club. -/
def applied : St := after step [.request (.create "a" "club"), .request (.apply "b" "2000")] noClubs

/-- What Bob applies with. -/
def bobs : Application := ⟨"bob", "B", "b.png", "0"⟩

theorem audit_applied : applied.audit "2000" = (∅ : MemberSet String).sadd bobs.text := by decide +kernel

theorem applications_of_one : Listed (fun _ => none) applied "a" "2000" [bobs] ∧ Decided applied "a" "2000" [bobs] := by
  refine (applications_iff (fun _ => none) applied "a" "2000" [bobs] ?_ ?_).2 ?_
  · exact ⟨by decide, by decide +kernel, by decide +kernel, ∅, by decide +kernel, .inl (by decide +kernel)⟩
  · intro item
    simp [audit_applied, eq_comm]
  · constructor
    · intro a ha
      rw [List.mem_singleton.1 ha]
      exact ⟨by decide, by decide, by decide, by decide⟩
    · intro a ha
      rw [List.mem_singleton.1 ha]
      exact ⟨by decide +kernel, 0, by decide +kernel, rfl⟩
    · intro a ha _
      rw [List.mem_singleton.1 ha]
      decide
    · intro a ha b hb _ _ _
      rw [List.mem_singleton.1 ha, List.mem_singleton.1 hb]

/-- Cid's name has a separator. -/
def signs (userTable : String) : Profile :=
  if userTable = "users:3" then ⟨some "C|---|D", some "c.png", some "cid"⟩ else profileOf userTable

/-- Bob and Cid apply at Ann's club. -/
def appliedBoth : St :=
  after step [.request (.create "a" "club"), .request (.apply "b" "2000"), .request (.apply "c" "2000")] (init threeUsers signs)

def cids : Application := ⟨"cid", "C|---|D", "c.png", "0"⟩

/-- The list leaves Cid out, and Bob cannot be accepted. -/
theorem separator_blocks : Entitled appliedBoth "a" "2000" ∧ Stored appliedBoth "2000" [cids, bobs] ∧
    ¬Listed (fun _ => none) appliedBoth "a" "2000" [cids, bobs] ∧
    ¬Decided appliedBoth "a" "2000" [cids, bobs] := by
  have hentitled : Entitled appliedBoth "a" "2000" :=
    ⟨by decide, by decide +kernel, by decide +kernel, ∅, by decide +kernel, .inl (by decide +kernel)⟩
  have hstored : Stored appliedBoth "2000" [cids, bobs] := by
    have haudit : appliedBoth.audit "2000" = ((∅ : MemberSet String).sadd bobs.text).sadd cids.text := by decide +kernel
    intro item
    simp [haudit, eq_comm]
  refine ⟨hentitled, hstored, fun h => ?_, fun h => ?_⟩
  · have hlegible := ((listed_iff _ hentitled hstored).1 h cids List.mem_cons_self).1
    exact absurd hlegible.nickname (by decide)
  · obtain ⟨reply, hreply, -⟩ := (h "bob" true ⟨bobs, by simp, rfl, by decide +kernel⟩).answered
    have herror : (run (apply_club_audit "a" "2000" "bob" (verdict true)) appliedBoth).1 = .error .ValueError := by decide +kernel
    cases herror.symm.trans hreply

end FishWeb.Club
