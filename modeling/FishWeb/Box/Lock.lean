import FishWeb.Box.Conserve
/-!
# The lock

Eight endpoints of one user's session and a box that is locked. `effect_of` says
what each of them does to it; what a run without the secrets keeps follows by
cases. `/currency/exchange` moves value out of the box and asks for the password
to exist, not for the lock to be open.
-/
open Python Prog Counters Runs

namespace FishWeb.Box

inductive Endpoint where
  | setBoxPwd (sid box_pwd : String)
  | boxLock (sid : String)
  | boxUnlock (sid box_pwd : String)
  | boxSave (sid item_id num : String)
  | boxTake (sid item_id num : String)
  | boxFindPwd (sid check_code new_box_pwd : String) (sent : Bool)
  | buyCoin (sid price goodId : String)
  | currencyExchange (cid sid : String)
  deriving Repr, DecidableEq

section Lock
variable (md5 : String → String)

namespace Endpoint

def handler : Endpoint → Handler Reply
  | .setBoxPwd sid box_pwd => Box.setBoxPwd md5 sid box_pwd
  | .boxLock sid => Box.boxLock sid
  | .boxUnlock sid box_pwd => Box.boxUnlock md5 sid box_pwd
  | .boxSave sid item_id num => Box.boxSave sid item_id num
  | .boxTake sid item_id num => Box.boxTake sid item_id num
  | .boxFindPwd sid check_code new_box_pwd sent => Box.boxFindPwd md5 sid check_code new_box_pwd sent
  | .buyCoin sid price goodId => Box.buyCoin sid price goodId
  | .currencyExchange cid sid => Box.currencyExchange cid sid

def sid : Endpoint → String
  | .setBoxPwd sid _ | .boxLock sid | .boxUnlock sid _ | .boxSave sid _ _ | .boxTake sid _ _ | .boxFindPwd sid _ _ _
  | .buyCoin sid _ _ | .currencyExchange _ sid => sid

end Endpoint

/-- The request of the user carries the password whose digest is stored, or the code that was sent. -/
def CarriesSecret (uid : String) : Endpoint → St → Prop
  | .setBoxPwd _ box_pwd, s | .boxUnlock _ box_pwd, s => s.user uid "box_pwd" = some (md5 box_pwd)
  | .boxFindPwd _ check_code _ _, s => s.boxCode (uidStr (s.user uid "phone")) = some check_code
  | .boxLock _, _ | .boxSave _ _ _, _ | .boxTake _ _ _, _ | .buyCoin _ _ _, _ | .currencyExchange _ _, _ => False

/-! ## The exchange -/

/-- Where the cost of a course is looked up. -/
def funds (uid : String) (course : Course) : Place :=
  if course.cost_type.getD 0 = 1 then .box uid "1"
  else if course.cost_type.getD 0 = 2 then .coin uid
  else .playerUid uid (toString (course.cost_type.getD 0))

/-- The exchange passes its checks. -/
structure Exchanges (uid cid : String) (s : St) : Prop where
  pwd : isEmpty (s.user uid "box_pwd") = false
  enough : (s.course cid).cost.getD 0 ≤ val s.amounts (funds uid (s.course cid))

/-- What an exchange adds to the box. -/
def boxGain (course : Course) (item_id : String) : Int :=
  (if toString (course.gain_type.getD 0) = item_id then course.gain.getD 0 else 0) -
    if course.cost_type.getD 0 = 1 ∧ item_id = "1" then course.cost.getD 0 else 0

/-- The increments of an exchange. -/
def exchanged (uid : String) (course : Course) : List (Place × Int) :=
  let cost := course.cost.getD 0
  let gain := course.gain.getD 0
  let cost_type := course.cost_type.getD 0
  let gain_type := course.gain_type.getD 0
  let gained := (Place.box uid (toString gain_type), gain)
  if cost_type = 1 then
    gained :: (if gain_type = 2 then [(.diamond2coinSum, gain)] else []) ++ [(.box uid "1", -cost)]
  else if cost_type = 2 then
    (if gain_type = 1 then [(.diamond uid, gain)] else []) ++ [gained, (.coin uid, -cost)]
  else [gained, (.playerUid uid (toString cost_type), cost)]

theorem net_exchanged (uid : String) (course : Course) (i : String) :
    net (exchanged uid course) (.box uid i) = boxGain course i := by
  unfold exchanged boxGain
  by_cases h1 : course.cost_type.getD 0 = 1
  · by_cases h2 : course.gain_type.getD 0 = 2 <;> by_cases hi : i = "1" <;> simp [h1, h2, hi, eq_comm] <;> omega
  · by_cases h2 : course.cost_type.getD 0 = 2 <;> by_cases hg : course.gain_type.getD 0 = 1 <;> simp [h1, h2, hg]

theorem run_currencyExchange {uid cid sid : String} {s : St} (hsid : uidStr (s.session sid) = uid)
    (h : Exchanges uid cid s) : ∃ r : Reply, r.code = .str "0" ∧ run (currencyExchange cid sid) s =
      (.ok r, { s with amounts := incrAll (exchanged uid (s.course cid)) s.amounts }) := by
  obtain ⟨hpwd, henough⟩ := h
  unfold funds at henough
  have hone : toString (1 : Int) = "1" := rfl
  by_cases h1 : (s.course cid).cost_type.getD 0 = 1
  · rw [if_pos h1] at henough
    have hle : ¬(s.amounts (.box uid "1")).getD 0 < (s.course cid).cost.getD 0 := Int.not_lt.2 henough
    by_cases hg : (s.course cid).gain_type.getD 0 = 2 <;>
      simp [currencyExchange, call, hsid, hpwd, h1, hg, exchanged, -Int.toString_eq_repr, hone, hle]
  by_cases h2 : (s.course cid).cost_type.getD 0 = 2
  · rw [if_neg h1, if_pos h2] at henough
    have hle : ¬(s.amounts (.coin uid)).getD 0 < (s.course cid).cost.getD 0 := Int.not_lt.2 henough
    by_cases hg : (s.course cid).gain_type.getD 0 = 1 <;>
      simp [currencyExchange, call, hsid, hpwd, h2, hg, exchanged, hle]
  · rw [if_neg h1, if_neg h2] at henough
    have hle : ¬(s.amounts (.playerUid uid (toString ((s.course cid).cost_type.getD 0)))).getD 0 <
      (s.course cid).cost.getD 0 := Int.not_lt.2 henough
    simp [currencyExchange, call, hsid, hpwd, h1, h2, exchanged, -Int.toString_eq_repr, hle]

theorem run_currencyExchange_refused {uid cid sid : String} {s : St} (hsid : uidStr (s.session sid) = uid)
    (h : ¬Exchanges uid cid s) :
    ∃ r : Reply, r.code ≠ .str "0" ∧ run (currencyExchange cid sid) s = (.ok r, s) := by
  have hone : toString (1 : Int) = "1" := rfl
  cases hpwd : isEmpty (s.user uid "box_pwd") with
  | true => simp [currencyExchange, call, hsid, hpwd, say]
  | false =>
  have hlt : ¬(s.course cid).cost.getD 0 ≤ val s.amounts (funds uid (s.course cid)) := fun hle => h ⟨hpwd, hle⟩
  unfold funds at hlt
  by_cases h1 : (s.course cid).cost_type.getD 0 = 1
  · rw [if_pos h1] at hlt
    have hlt : (s.amounts (.box uid "1")).getD 0 < (s.course cid).cost.getD 0 := Int.not_le.1 hlt
    simp [currencyExchange, call, hsid, hpwd, h1, -Int.toString_eq_repr, hone, hlt]
  by_cases h2 : (s.course cid).cost_type.getD 0 = 2
  · rw [if_neg h1, if_pos h2] at hlt
    have hlt : (s.amounts (.coin uid)).getD 0 < (s.course cid).cost.getD 0 := Int.not_le.1 hlt
    simp [currencyExchange, call, hsid, hpwd, h2, hlt]
  · rw [if_neg h1, if_neg h2] at hlt
    have hlt : (s.amounts (.playerUid uid (toString ((s.course cid).cost_type.getD 0)))).getD 0 <
      (s.course cid).cost.getD 0 := Int.not_le.1 hlt
    simp [currencyExchange, call, hsid, hpwd, h1, h2, -Int.toString_eq_repr, hlt]

/-! ## What one request does -/

/-- A save changes the amounts by its increments and nothing else. -/
theorem run_boxSave (sid item_id num : String) (s : St) : (run (boxSave sid item_id num) s).2 =
    { s with amounts := incrAll (trace (Place × Int) (boxSave sid item_id num) s) s.amounts } := by
  have hpay : ∀ (l : List (Place × Int)) (reply : Reply) (s : St),
      (run (pay l reply) s).2 = { s with amounts := incrAll l s.amounts } := by
    intro l reply
    induction l with
    | nil => exact fun _ => rfl
    | cons e l ih => exact fun s => ih _
  refine boxSave_rule (P := fun h => ∀ s, (run h s).2 = { s with amounts := incrAll (trace (Place × Int) h s) s.amounts })
    (fun _ _ => rfl) (fun _ _ => rfl) ?_ sid item_id num ?_ s
  · intro β c f hc hf s
    rw [call_bind, run_step, trace_step, exec_reads hc, note_reads hc]
    exact hf _ s
  · intro n uid hn _ s
    rcases redisInt_of_int hn with hr | hr
    · rw [saveInto_malformed _ _ hr]
      rfl
    · rw [saveInto_eq _ _ hr, hpay, trace_pay]

/-- What a request of the user does to a box that is locked. -/
inductive Effect (uid : String) (s : St) : Endpoint → St → Prop
  | fields (r : Endpoint) (s' : St) (ha : s'.amounts = s.amounts) (hs : s'.session = s.session)
      (hl : s'.user uid "box_lock" = some "1") (hr : ∀ cid sid, r = .currencyExchange cid sid → ¬Exchanges uid cid s) :
      Effect uid s r s'
  | save (sid item_id num : String) (n : Int) (hn : 0 < n) : Effect uid s (.boxSave sid item_id num)
      { s with amounts := incrAll [(.box uid item_id, n), (wallet uid item_id, -n)] s.amounts }
  | exchange (cid sid : String) (h : Exchanges uid cid s) : Effect uid s (.currencyExchange cid sid)
      { s with amounts := incrAll (exchanged uid (s.course cid)) s.amounts }

variable {md5} {uid : String} {s : St}

theorem effect_nothing {r : Endpoint} (hl : s.user uid "box_lock" = some "1")
    (hr : ∀ cid sid, r = .currencyExchange cid sid → ¬Exchanges uid cid s) : Effect uid s r s :=
  .fields r s rfl rfl hl hr

theorem run_boxLock {sid : String} (hsid : s.session sid = some uid) :
    (run (boxLock sid) s).2 = s ∨ (run (boxLock sid) s).2 = setField s uid "box_lock" "1" := by
  cases hu : isEmpty (some uid) with
  | true => left; simp [boxLock, call, hsid, hu]
  | false =>
    cases hb : isEmpty (s.user uid "box_lock") with
    | true => left; simp [boxLock, call, hsid, hu, hb]
    | false => right; simp [boxLock, call, hsid, hu, hb]

theorem run_boxUnlock {sid box_pwd : String} (hsid : s.session sid = some uid)
    (h : ¬s.user uid "box_pwd" = some (md5 box_pwd)) : (run (boxUnlock md5 sid box_pwd) s).2 = s := by
  cases hu : isEmpty (some uid) with
  | true => simp [boxUnlock, call, hsid, hu]
  | false => simp [boxUnlock, call, hsid, hu, Ne.symm h]

theorem run_boxTake {sid item_id num : String} (hsid : s.session sid = some uid)
    (hl : s.user uid "box_lock" = some "1") : (run (boxTake sid item_id num) s).2 = s := by
  cases hn : int num with
  | none => simp [boxTake, hn]
  | some n =>
    by_cases hneg : n < 0 <;> simp [boxTake, hn, hneg, call, hsid, hl]

theorem run_buyCoin {sid price goodId : String} (hsid : s.session sid = some uid)
    (hl : s.user uid "box_lock" = some "1") : (run (buyCoin sid price goodId) s).2 = s := by
  cases hp : isEmpty (s.user uid "box_pwd") <;> simp [buyCoin, call, hsid, hp, hl]

theorem run_boxFindPwd {sid check_code new_box_pwd : String} {sent : Bool} (hsid : s.session sid = some uid)
    (h : ¬s.boxCode (uidStr (s.user uid "phone")) = some check_code) :
    (run (boxFindPwd md5 sid check_code new_box_pwd sent) s).2 = s := by
  cases hc : isEmpty (s.boxCode (uidStr (s.user uid "phone"))) with
  | true => simp [boxFindPwd, call, hsid, hc]
  | false => simp [boxFindPwd, call, hsid, hc, h]

/-- What a request of the user's session does, if it carries no secret. -/
theorem effect_of {r : Endpoint} (hsid : s.session r.sid = some uid) (hl : s.user uid "box_lock" = some "1")
    (hsecret : ¬CarriesSecret md5 uid r s) : Effect uid s r (run (r.handler md5) s).2 := by
  cases r with
  | setBoxPwd sid box_pwd =>
    have hsid : s.session sid = some uid := hsid
    refine .fields _ _ ?_ ?_ ?_ (by simp) <;>
      simp [Endpoint.handler, Box.setBoxPwd, call, hsid, setField]
  | boxLock sid =>
    have hsid : s.session sid = some uid := hsid
    rw [Endpoint.handler]
    rcases run_boxLock hsid with h | h <;> rw [h]
    · exact effect_nothing hl (by simp)
    · exact .fields _ _ rfl rfl (by simp [setField]) (by simp)
  | boxUnlock sid box_pwd =>
    have hsid : s.session sid = some uid := hsid
    rw [Endpoint.handler, run_boxUnlock hsid hsecret]
    exact effect_nothing hl (by simp)
  | boxSave sid item_id num =>
    have hsid : s.session sid = some uid := hsid
    rw [Endpoint.handler, run_boxSave]
    rcases save_cases sid item_id num s with htr | ⟨n, hn, -, htr⟩
    · rw [htr]
      exact effect_nothing hl (by simp)
    · rw [htr, hsid]
      exact .save sid item_id num n hn
  | boxTake sid item_id num =>
    have hsid : s.session sid = some uid := hsid
    rw [Endpoint.handler, run_boxTake hsid hl]
    exact effect_nothing hl (by simp)
  | boxFindPwd sid check_code new_box_pwd sent =>
    have hsid : s.session sid = some uid := hsid
    rw [Endpoint.handler, run_boxFindPwd hsid hsecret]
    exact effect_nothing hl (by simp)
  | buyCoin sid price goodId =>
    have hsid : s.session sid = some uid := hsid
    rw [Endpoint.handler, run_buyCoin hsid hl]
    exact effect_nothing hl (by simp)
  | currencyExchange cid sid =>
    have hsid : s.session sid = some uid := hsid
    rw [Endpoint.handler]
    by_cases h : Exchanges uid cid s
    · obtain ⟨_, -, hrun⟩ := run_currencyExchange (hsid ▸ uidStr_some uid) h
      rw [hrun]
      exact .exchange cid sid h
    · obtain ⟨_, -, hrun⟩ := run_currencyExchange_refused (hsid ▸ uidStr_some uid) h
      rw [hrun]
      refine effect_nothing hl fun cid' sid' heq => ?_
      cases heq
      exact h

/-! ## Runs without the secrets -/

def serve (md5 : String → String) (r : Endpoint) (s : St) : St := (run (r.handler md5) s).2

/-- The request takes nothing off the user's box. -/
def KeepsBox (md5 : String → String) (uid : String) (r : Endpoint) (s : St) : Prop :=
  ∀ item_id, val s.amounts (.box uid item_id) ≤ val (serve md5 r s).amounts (.box uid item_id)

/-- The request is an exchange that passes its checks and takes more from some item of the box than it adds. -/
def Lowers (uid : String) : Endpoint → St → Prop
  | .currencyExchange cid _, s => Exchanges uid cid s ∧ ∃ item_id, boxGain (s.course cid) item_id < 0
  | .setBoxPwd _ _, _ | .boxLock _, _ | .boxUnlock _ _, _ | .boxSave _ _ _, _ | .boxTake _ _ _, _
  | .boxFindPwd _ _ _ _, _ | .buyCoin _ _ _, _ => False

theorem not_lowers {r : Endpoint} (h : ∀ cid sid, r = .currencyExchange cid sid → ¬Exchanges uid cid s) :
    ¬Lowers uid r s := by
  cases r with
  | currencyExchange cid sid => exact fun hl => h cid sid rfl hl.1
  | _ => exact id

theorem Effect.locked {r : Endpoint} {s' : St} (h : Effect uid s r s') (hl : s.user uid "box_lock" = some "1") :
    s'.user uid "box_lock" = some "1" := by
  cases h with
  | fields _ _ _ _ hl' _ => exact hl'
  | save | exchange => exact hl

theorem Effect.keeps_iff {r : Endpoint} {s' : St} (h : Effect uid s r s') :
    (∀ item_id, val s.amounts (.box uid item_id) ≤ val s'.amounts (.box uid item_id)) ↔ ¬Lowers uid r s := by
  cases h with
  | fields _ _ ha _ _ hr =>
    rw [ha]
    exact ⟨fun _ => not_lowers hr, fun _ _ => Int.le_refl _⟩
  | save sid item_id num n hn =>
    refine ⟨fun _ => id, fun _ i => ?_⟩
    rw [val_incrAll, net_cons, net_cons, net_nil, if_neg (wallet_ne_box uid item_id uid i)]
    split <;> omega
  | exchange cid sid h =>
    have hv : ∀ i, val (incrAll (exchanged uid (s.course cid)) s.amounts) (.box uid i) =
        val s.amounts (.box uid i) + boxGain (s.course cid) i := by
      intro i
      rw [val_incrAll, net_exchanged]
    simp only [hv]
    constructor
    · rintro hk ⟨-, i, hneg⟩
      have := hk i
      omega
    · intro hn i
      by_contra hlt
      exact hn ⟨h, i, by omega⟩

/-- In a run of the user's requests on a locked box, none with a secret, the box loses nothing just when
no exchange lowers it. -/
theorem box_protected_iff (md5 : String → String) {uid : String} {s : St} (hl : s.user uid "box_lock" = some "1")
    {rs : List Endpoint}
    (h : All (serve md5) (fun r s => s.session r.sid = some uid ∧ ¬CarriesSecret md5 uid r s) rs s) :
    All (serve md5) (KeepsBox md5 uid) rs s ↔ All (serve md5) (fun r s => ¬Lowers uid r s) rs s := by
  refine all_congr (I := fun s => s.user uid "box_lock" = some "1") ?_ ?_ h hl
  · rintro r s ⟨hsid, hc⟩ hl
    exact (effect_of hsid hl hc).keeps_iff
  · rintro r s ⟨hsid, hc⟩ - hl
    exact (effect_of hsid hl hc).locked hl

/-- The digests of two passwords. -/
def sampleMd5 (box_pwd : String) : String :=
  if box_pwd = "000000" then "670b14728ad9902aecba32e22fa4f6bd"
  else if box_pwd = "123456" then "e10adc3949ba59abbe56e057f20f883e"
  else ""

/-- A locked box with the password 123456, and a course of 50 diamonds for 5000 coins. -/
def lockedBox (l : List (Place × Int)) : St :=
  { openBox l with
    user := fun uid f =>
      if uid = "7" ∧ f = "box_pwd" then some "e10adc3949ba59abbe56e057f20f883e"
      else if uid = "7" ∧ f = "box_lock" then some "1"
      else none
    course := fun cid => if cid = "1" then ⟨some 50, some 5000, some 1, some 2⟩ else ⟨none, none, none, none⟩ }

theorem box_protected_guess : All (serve sampleMd5) (KeepsBox sampleMd5 "7")
    [.boxUnlock "sid" "000000", .boxTake "sid" "1" "100"] (lockedBox [(.box "7" "1", 100)]) := by
  apply (box_protected_iff sampleMd5 rfl _).2
  · exact ⟨id, id, trivial⟩
  · exact ⟨⟨rfl, by simp only [CarriesSecret]; decide⟩, ⟨by decide, id⟩, trivial⟩

/-- An exchange takes 50 diamonds out of the locked box. -/
theorem exchange_lowers_locked_box :
    (lockedBox [(.box "7" "1", 100)]).user "7" "box_pwd" = some (sampleMd5 "123456") ∧
      (lockedBox [(.box "7" "1", 100)]).user "7" "box_lock" = some "1" ∧
      All (serve sampleMd5) (fun r s => s.session r.sid = some "7" ∧ ¬CarriesSecret sampleMd5 "7" r s)
        [.currencyExchange "1" "sid"] (lockedBox [(.box "7" "1", 100)]) ∧
      ¬All (serve sampleMd5) (KeepsBox sampleMd5 "7") [.currencyExchange "1" "sid"] (lockedBox [(.box "7" "1", 100)]) := by
  refine ⟨by decide, rfl, ⟨⟨rfl, id⟩, trivial⟩, fun h => ?_⟩
  exact absurd (h.1 "1") (by decide)

end Lock
end FishWeb.Box
