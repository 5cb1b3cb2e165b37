import FishWeb.Box.Conserve
/-!
# The VIP account

`/buyCoin` adds the price in the request to `vip_charge` and the goods' own price
to the shop's sum. The level is set from the charge on every purchase, and
`/vip/info` reads both. The three agree along the runs whose requests name the
price the goods are stored with.
-/
open Python Prog Counters Runs
open Function (update)

namespace FishWeb.Box

/-! ## `/vip/info` -/

structure VipReply where
  code : Int
  vip_level : Int
  vip_charge : Int
  level_distance : Int
  deriving Repr, DecidableEq

/-- What a level is short of, by level. -/
def levelDoor : Int → Option Int
  | 0 => some 1000
  | 1 => some 3000
  | 2 => some 6000
  | 3 => some 10000
  | 4 => some 20000
  | 5 => some 0
  | _ => none

/-- `int(x or 0)` of a field. -/
def intOr0 (x : Option String) : Option Int := if isEmpty x then some 0 else int (x.getD "")

/-- `/vip/info`. -/
def vipInfo (sid : String) : Handler VipReply := do
  let uid := uidStr (← Prog.call (.sessionUid sid))
  let vip_level ← orRaise .ValueError (intOr0 (← Prog.call (.hget uid "vip_level")))
  let vip_charge := (← Prog.call (.hgetAmount (.vipCharge uid))).getD 0
  let level_distance := match levelDoor vip_level with
    | some door => if door ≠ 0 then door - vip_charge else 0
    | none => 0
  return { code := 0, vip_level, vip_charge, level_distance }

/-! ## Levels -/

def thresholds : List Int := [1000, 3000, 6000, 10000, 20000]

/-- How many thresholds a charge has reached. -/
def reached (charge : Int) : Int := (thresholds.filter (· ≤ charge)).length

/-- What a charge is short of the next threshold. -/
def missing (charge : Int) : Int :=
  match thresholds.find? (charge < ·) with
  | some door => door - charge
  | none => 0

/-- Each threshold counts for one level. -/
theorem reached_eq (c : Int) : reached c =
    (if 1000 ≤ c then 1 else 0) + (if 3000 ≤ c then 1 else 0) + (if 6000 ≤ c then 1 else 0) +
      (if 10000 ≤ c then 1 else 0) + (if 20000 ≤ c then 1 else 0) := by
  have hlen : ∀ (a : Int) (l : List Int),
      ((List.filter (· ≤ c) (a :: l)).length : Int) = (if a ≤ c then 1 else 0) + (List.filter (· ≤ c) l).length := by
    intro a l
    by_cases h : a ≤ c
    · simp [h, Int.add_comm]
    · simp [h]
  unfold reached thresholds
  simp only [hlen, List.filter_nil, List.length_nil]
  omega

theorem missing_eq (c : Int) : missing c =
    if c < 1000 then 1000 - c else if c < 3000 then 3000 - c else if c < 6000 then 6000 - c
    else if c < 10000 then 10000 - c else if c < 20000 then 20000 - c else 0 := by
  have hfind : ∀ (a : Int) (l : List Int), List.find? (c < ·) (a :: l) = if c < a then some a else List.find? (c < ·) l := by
    intro a l
    by_cases h : c < a <;> simp [h]
  unfold missing thresholds
  simp only [hfind, List.find?_nil]
  split_ifs <;> rfl

/-- The six levels and what each is short of. -/
theorem reached_cases (c : Int) :
    (c < 1000 ∧ reached c = 0 ∧ missing c = 1000 - c) ∨
    ((1000 ≤ c ∧ c < 3000) ∧ reached c = 1 ∧ missing c = 3000 - c) ∨
    ((3000 ≤ c ∧ c < 6000) ∧ reached c = 2 ∧ missing c = 6000 - c) ∨
    ((6000 ≤ c ∧ c < 10000) ∧ reached c = 3 ∧ missing c = 10000 - c) ∨
    ((10000 ≤ c ∧ c < 20000) ∧ reached c = 4 ∧ missing c = 20000 - c) ∨
    (20000 ≤ c ∧ reached c = 5 ∧ missing c = 0) := by
  have hcases : c < 1000 ∨ (1000 ≤ c ∧ c < 3000) ∨ (3000 ≤ c ∧ c < 6000) ∨ (6000 ≤ c ∧ c < 10000) ∨
      (10000 ≤ c ∧ c < 20000) ∨ 20000 ≤ c := by omega
  rw [reached_eq, missing_eq]
  rcases hcases with h | h | h | h | h | h <;> simp (disch := omega) only [if_pos, if_neg, and_true] <;> omega

theorem reached_eq_zero_iff (c : Int) : reached c = 0 ↔ c < 1000 := by
  rcases reached_cases c with h | h | h | h | h | h <;> omega

/-! ## What a purchase does to the account -/

/-- The level as `/vip/info` reads it. -/
def vipLevel (s : St) (uid : String) : Option Int := intOr0 (s.user uid "vip_level")

theorem setField_setField (s : St) (uid f v w : String) :
    setField (setField s uid f v) uid f w = setField s uid f w := by
  simp [setField]

/-- The level is set from the charge, from the first threshold on. -/
def levelled (uid : String) (c : Int) (s : St) : St :=
  if c < 1000 then s else setField s uid "vip_level" (toString (reached c))

/-- The loop writes each level the charge has reached; the last one stays. -/
theorem run_levels (uid : String) (c : Int) (s : St) :
    run (Prog.forEach [(1000, "1"), (3000, "2"), (6000, "3"), (10000, "4"), (20000, "5")] fun (door, vip_level) =>
      if door ≤ c then call (.hset uid "vip_level" vip_level) else return () : Handler Unit) s =
      (.ok (), levelled uid c s) := by
  unfold levelled
  rcases reached_cases c with ⟨h, hr, -⟩ | ⟨h, hr, -⟩ | ⟨h, hr, -⟩ | ⟨h, hr, -⟩ | ⟨h, hr, -⟩ | ⟨h, hr, -⟩ <;>
    rw [hr] <;> simp (disch := omega) only [forEach_cons, forEach_nil, if_pos, if_neg, pure_eq, ret_bind, call_bind,
      run_ret, run_step, exec_hset, setField_setField] <;> rfl

theorem run_vipChargeRecord {uid price : String} {n : Int} {s : St} (h : addsCharge s uid price = some n) :
    run (vipChargeRecord uid price) s =
      (.ok (), levelled uid (val s.amounts (.vipCharge uid) + n)
        { s with amounts := incrby s.amounts (.vipCharge uid) n }) := by
  simp only [vipChargeRecord, call_bind, run_step, exec_hincrbyCharge s h, orRaise_some, ret_bind]
  exact run_levels uid _ _

theorem run_vipChargeRecord_refused {uid price : String} {s : St} (h : addsCharge s uid price = none) :
    run (vipChargeRecord uid price) s = (.error .ResponseError, s) := by
  simp only [vipChargeRecord, call_bind, run_step, exec_hincrbyCharge_refused s h]
  rfl

/-- The other amounts do not count. -/
theorem addsCharge_congr {s s' : St} {uid : String} (h : val s'.amounts (.vipCharge uid) = val s.amounts (.vipCharge uid))
    (price : String) : addsCharge s' uid price = addsCharge s uid price := by
  unfold addsCharge
  rw [h]

/-- A request to `/buyCoin`. -/
structure Purchase where
  sid : String
  price : String
  goodId : String
  deriving Repr, DecidableEq

namespace Purchase

def handler (r : Purchase) : Handler Reply := buyCoin r.sid r.price r.goodId

def uid (r : Purchase) (s : St) : String := uidStr (s.session r.sid)

/-- The request is answered with code 0. -/
def accepted (r : Purchase) (s : St) : Bool :=
  match (run r.handler s).1 with
  | .ok reply => reply.code = .int 0
  | .error _ => false

end Purchase

/-- The purchase goes through: `n` is the price in the request, as Redis adds it, `g` the stored one. -/
structure Buys (r : Purchase) (s : St) (n g : Int) : Prop where
  pwd : isEmpty (s.user (r.uid s) "box_pwd") = false
  unlocked : s.user (r.uid s) "box_lock" = some "2"
  stored : (s.goods r.goodId).price = some g
  price : addsCharge s (r.uid s) r.price = some n

/-- What a purchase adds up. -/
def purchased (r : Purchase) (s : St) (n g : Int) : List (Place × Int) :=
  [(.diamondChargeSum, g), (.box (r.uid s) "1", (s.goods r.goodId).cards.getD 0 + (s.goods r.goodId).present_cards.getD 0),
    (.vipCharge (r.uid s), n)]

/-- The shop's sum and the box, which a purchase adds to before the charge. -/
def delivered (r : Purchase) (s : St) (g : Int) : St where
  __ := s
  amounts := incrby (incrby s.amounts .diamondChargeSum g) (.box (r.uid s) "1")
    ((s.goods r.goodId).cards.getD 0 + (s.goods r.goodId).present_cards.getD 0)

theorem val_delivered (r : Purchase) (s : St) (g : Int) (uid : String) :
    val (delivered r s g).amounts (.vipCharge uid) = val s.amounts (.vipCharge uid) := by
  simp [delivered, val_incrby]

/-- Past the lock, a purchase delivers the goods and then records the charge. -/
theorem run_purchase {r : Purchase} {s : St} {g : Int} (hp : isEmpty (s.user (r.uid s) "box_pwd") = false)
    (hl : s.user (r.uid s) "box_lock" = some "2") (hg : (s.goods r.goodId).price = some g) :
    run r.handler s = run (vipChargeRecord (r.uid s) r.price >>= fun _ => pure
      { code := .int 0, msg := "购买钻石成功", diamond := some (val (incrby s.amounts .diamondChargeSum g) (.box (r.uid s) "1") +
        ((s.goods r.goodId).cards.getD 0 + (s.goods r.goodId).present_cards.getD 0)) }) (delivered r s g) := by
  simp only [Purchase.uid] at hp hl
  simp [Purchase.handler, Purchase.uid, buyCoin, call, hp, hl, hg, delivered]

theorem run_bought {r : Purchase} {s : St} {n g : Int} (h : Buys r s n g) :
    r.accepted s = true ∧ (run r.handler s).2 = levelled (r.uid s) (val s.amounts (.vipCharge (r.uid s)) + n)
      { s with amounts := incrAll (purchased r s n g) s.amounts } := by
  have hn : addsCharge (delivered r s g) (r.uid s) r.price = some n :=
    (addsCharge_congr (val_delivered r s g _) _).trans h.price
  have hrun := run_purchase h.pwd h.unlocked h.stored
  rw [run_bind_ok (run_vipChargeRecord hn), val_delivered] at hrun
  exact ⟨by rw [Purchase.accepted, hrun]; rfl, congrArg Prod.snd hrun⟩

/-- A purchase that does not go through may have filled the box, and leaves every account alone. -/
theorem run_not_bought {r : Purchase} {s : St} (h : ∀ n g, ¬Buys r s n g) :
    r.accepted s = false ∧ ∃ l : List (Place × Int), (∀ e ∈ l, ∀ uid, e.1 ≠ .vipCharge uid) ∧
      (run r.handler s).2 = { s with amounts := incrAll l s.amounts } := by
  cases hp : isEmpty (s.user (r.uid s) "box_pwd") with
  | true =>
    simp only [Purchase.uid] at hp
    refine ⟨?_, [], by simp, ?_⟩ <;> simp [Purchase.accepted, Purchase.handler, buyCoin, call, hp, say]
  | false =>
  by_cases hl : s.user (r.uid s) "box_lock" = some "2"
  case neg =>
    simp only [Purchase.uid] at hp hl
    refine ⟨?_, [], by simp, ?_⟩ <;> simp [Purchase.accepted, Purchase.handler, buyCoin, call, hp, hl, say]
  cases hg : (s.goods r.goodId).price with
  | none =>
    simp only [Purchase.uid] at hp hl
    refine ⟨?_, [], by simp, ?_⟩ <;> simp [Purchase.accepted, Purchase.handler, buyCoin, call, hp, hl, hg]
  | some g =>
  cases hn : addsCharge s (r.uid s) r.price with
  | some n => exact absurd ⟨hp, hl, hg, hn⟩ (h n g)
  | none =>
    -- the price is added after the diamonds are in the box
    have hn' : addsCharge (delivered r s g) (r.uid s) r.price = none :=
      (addsCharge_congr (val_delivered r s g _) _).trans hn
    have hrun := run_purchase hp hl hg
    rw [run_bind, run_vipChargeRecord_refused hn'] at hrun
    refine ⟨by rw [Purchase.accepted, hrun], [(.diamondChargeSum, g), (.box (r.uid s) "1",
      (s.goods r.goodId).cards.getD 0 + (s.goods r.goodId).present_cards.getD 0)], by simp, congrArg Prod.snd hrun⟩

/-! ## The account along a run -/

def buy (r : Purchase) (s : St) : St := (run r.handler s).2

/-- What the purchase costs the user by the stored price, 0 if it is not accepted. -/
def bought (uid : String) (r : Purchase) (s : St) : Int :=
  if r.accepted s = true ∧ r.uid s = uid then (s.goods r.goodId).price.getD 0 else 0

/-- The account of a user whose goods cost `total` in all: the charge, the level stored and what `/vip/info` answers. -/
structure Right (uid : String) (total : Int) (s : St) : Prop where
  charge : val s.amounts (.vipCharge uid) = total
  level : vipLevel s uid = some (reached total)
  info : ∀ sid, s.session sid = some uid → (run (vipInfo sid) s).1 = .ok ⟨0, reached total, total, missing total⟩

/-- The account is right at the start and after each purchase of the run. -/
def Accounted (uid : String) : Int → List Purchase → St → Prop
  | total, [], s => Right uid total s
  | total, r :: rs, s => Right uid total s ∧ Accounted uid (total + bought uid r s) rs (buy r s)

/-- A purchase of the user that goes through names the stored price, and takes the charge back below the first
threshold in no case. -/
def Honest (uid : String) (r : Purchase) (s : St) : Prop :=
  ∀ n g, Buys r s n g → r.uid s = uid →
    n = g ∧ ¬(1000 ≤ val s.amounts (.vipCharge uid) ∧ val s.amounts (.vipCharge uid) + n < 1000)

/-- Where the charge and the level are right, so is the answer. -/
theorem run_vipInfo {uid sid : String} {s : St} (hsid : s.session sid = some uid)
    (hl : vipLevel s uid = some (reached (val s.amounts (.vipCharge uid)))) :
    (run (vipInfo sid) s).1 = .ok ⟨0, reached (val s.amounts (.vipCharge uid)), val s.amounts (.vipCharge uid),
      missing (val s.amounts (.vipCharge uid))⟩ := by
  unfold vipLevel at hl
  have hdist : ∀ c : Int, (match levelDoor (reached c) with
      | some door => if door ≠ 0 then door - c else 0
      | none => 0) = missing c := by
    intro c
    rcases reached_cases c with ⟨-, hr, hm⟩ | ⟨-, hr, hm⟩ | ⟨-, hr, hm⟩ | ⟨-, hr, hm⟩ | ⟨-, hr, hm⟩ | ⟨-, hr, hm⟩ <;>
      rw [hr, hm] <;> rfl
  have hc := hdist (val s.amounts (.vipCharge uid))
  simp only [vipInfo, Prog.call, cmd_bind, ret_bind, run_step, exec_sessionUid, exec_hget, exec_hgetAmount, hsid, uidStr_some,
    hl, orRaise_some, pure_eq, run_ret]
  rw [← hc]
  rfl

theorem right_iff {uid : String} {total : Int} {s : St} : Right uid total s ↔
    val s.amounts (.vipCharge uid) = total ∧ vipLevel s uid = some (reached total) := by
  constructor
  · exact fun h => ⟨h.charge, h.level⟩
  · rintro ⟨rfl, hl⟩
    exact ⟨rfl, hl, fun sid hsid => run_vipInfo hsid hl⟩

theorem levelled_amounts (uid : String) (c : Int) (s : St) : (levelled uid c s).amounts = s.amounts := by
  unfold levelled
  split <;> rfl

theorem vipLevel_levelled (uid : String) (c : Int) (s : St) :
    vipLevel (levelled uid c s) uid = if c < 1000 then vipLevel s uid else some (reached c) := by
  unfold levelled
  split
  · rfl
  · have hset : ∀ v, vipLevel (setField s uid "vip_level" v) uid = intOr0 (some v) := by
      intro v
      simp [vipLevel, setField]
    rw [hset]
    rcases reached_cases c with ⟨h, -⟩ | ⟨-, hr, -⟩ | ⟨-, hr, -⟩ | ⟨-, hr, -⟩ | ⟨-, hr, -⟩ | ⟨-, hr, -⟩
    · contradiction
    all_goals rw [hr]; decide

theorem vipLevel_levelled_other {uid uid' : String} (h : uid ≠ uid') (c : Int) (s : St) :
    vipLevel (levelled uid' c s) uid = vipLevel s uid := by
  unfold levelled
  split
  · rfl
  · simp [vipLevel, setField, h]

/-- A purchase keeps the account right exactly if it is honest. -/
theorem right_buy_iff {uid : String} {total : Int} {r : Purchase} {s : St} (h : Right uid total s) :
    Right uid (total + bought uid r s) (buy r s) ↔ Honest uid r s := by
  obtain ⟨hc, hl, -⟩ := h
  by_cases hb : ∃ n g, Buys r s n g
  case neg =>
    have hb : ∀ n g, ¬Buys r s n g := fun n g h => hb ⟨n, g, h⟩
    obtain ⟨hacc, l, hnone, hrun⟩ := run_not_bought hb
    have hb0 : bought uid r s = 0 := by simp [bought, hacc]
    refine ⟨fun _ n g hng _ => absurd hng (hb n g), fun _ => right_iff.2 ?_⟩
    rw [buy, hrun, hb0, Int.add_zero]
    refine ⟨?_, hl⟩
    rw [val_incrAll, net_eq_zero fun e he => hnone e he uid, hc, Int.add_zero]
  obtain ⟨n, g, hb⟩ := hb
  obtain ⟨hacc, hrun⟩ := run_bought hb
  have hnet : ∀ u, net (purchased r s n g) (.vipCharge u) = if r.uid s = u then n else 0 := by
    intro u
    simp [purchased]
  by_cases hu : r.uid s = uid
  · subst hu
    have hbg : bought (r.uid s) r s = g := by simp [bought, hacc, hb.stored]
    have hhonest : Honest (r.uid s) r s ↔ n = g ∧ ¬(1000 ≤ total ∧ total + n < 1000) := by
      constructor
      · exact fun hh => hc ▸ hh n g hb rfl
      · rintro hng n' g' hb' -
        cases hb.price.symm.trans hb'.price
        cases hb.stored.symm.trans hb'.stored
        exact hc.symm ▸ hng
    rw [hhonest, right_iff, buy, hrun, levelled_amounts, val_incrAll, hnet, if_pos rfl, vipLevel_levelled, hc, hbg]
    have hlvl : vipLevel { s with amounts := incrAll (purchased r s n g) s.amounts } (r.uid s) = some (reached total) := hl
    rw [hlvl]
    constructor
    · rintro ⟨hn, hlev⟩
      obtain rfl : n = g := by omega
      refine ⟨rfl, ?_⟩
      rintro ⟨h1, h2⟩
      rw [if_pos h2] at hlev
      have hlow := (reached_eq_zero_iff (total + n)).2 h2
      have := (reached_eq_zero_iff total).1 ((Option.some.inj hlev).trans hlow)
      omega
    · rintro ⟨rfl, hdrop⟩
      refine ⟨rfl, ?_⟩
      split
      · rename_i hlow
        rw [(reached_eq_zero_iff total).2 (by omega), (reached_eq_zero_iff (total + n)).2 hlow]
      · rfl
  · have hb0 : bought uid r s = 0 := by simp [bought, hu]
    refine ⟨fun _ n' g' _ hu' => absurd hu' hu, fun _ => right_iff.2 ?_⟩
    rw [hb0, Int.add_zero, buy, hrun, levelled_amounts, val_incrAll, hnet, if_neg hu,
      vipLevel_levelled_other (Ne.symm hu), Int.add_zero]
    exact ⟨hc, hl⟩

/-- The account of a user is right all along a run of purchases exactly if it is right at the start and every
purchase is honest. -/
theorem vip_accounted_iff (uid : String) (total : Int) (rs : List Purchase) (s : St) :
    Accounted uid total rs s ↔ Right uid total s ∧ All buy (Honest uid) rs s := by
  induction rs generalizing total s with
  | nil => simp [Accounted]
  | cons r rs ih =>
    unfold Accounted
    rw [ih, all_cons]
    constructor
    · rintro ⟨h, hr, hrs⟩
      exact ⟨h, (right_buy_iff h).1 hr, hrs⟩
    · rintro ⟨h, hr, hrs⟩
      exact ⟨h, (right_buy_iff h).2 hr, hrs⟩

/-- A user with an unlocked box and a password, and goods of 10 diamonds for 1000. -/
def shop : St where
  session := fun sid => if sid = "sid" then some "7" else none
  user := fun uid f =>
    if uid = "7" ∧ f = "box_pwd" then some "e10adc3949ba59abbe56e057f20f883e"
    else if uid = "7" ∧ f = "box_lock" then some "2"
    else none
  amounts := fun _ => none
  title := fun _ => none
  boxCode := fun _ => none
  course := fun _ => ⟨none, none, none, none⟩
  goods := fun id => if id = "1" then ⟨some 10, none, some 1000⟩ else ⟨none, none, none⟩

/-- A request that names the price 20000 makes the user the top level for goods of 1000. -/
theorem named_price_charged : Right "7" 0 shop ∧ ¬Accounted "7" 0 [⟨"sid", "20000", "1"⟩] shop := by
  have hright : Right "7" 0 shop := right_iff.2 (by decide)
  refine ⟨hright, fun h => ?_⟩
  have hcharge := h.2.charge
  exact absurd hcharge (by decide)

end FishWeb.Box
