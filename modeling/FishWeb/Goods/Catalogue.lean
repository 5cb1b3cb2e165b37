import FishWeb.Goods.Model
import FishWeb.Lib.Runs
import FishWeb.Lib.Shelves
/-!
# The goods of the shop

`/goods/create`, `modify` and `del` of `admin/admin_goods.py`, and what the shops show. Goods
stand in `GOODS_LIST` and in the list of their type. Creation puts them on both. Modification
writes the record only, under any id and with any type, and deletion looks at three types.

The fields of a form come stripped. What a guild pays for so many cards,
`int(cards)*round(float(unitPrice),2)`, is a parameter. Left out: the pages and the
operation log.
-/
open Python Prog Runs Shelves
open Function (update update_self update_of_ne)

namespace FishWeb.Goods.Catalogue

/-! ## The store -/

/-- `GOODS_TABLE % id`. Only `do_create_goods` writes the field `id`. -/
structure GoodsInfo where
  id : Option Nat
  name : String
  type : String
  cards : String
  present_cards : String
  price : String
  deriving Repr, DecidableEq

inductive Place where
  /-- `GOODS_LIST` -/
  | all
  /-- `GOODS_TYPE_LIST % type` -/
  | type (t : String)
  deriving Repr, DecidableEq

structure Store where
  /-- `GOODS_COUNT` -/
  count : Nat
  goods : String → Option GoodsInfo
  list : Place → List String
  shop_version : Int

def Store.empty : Store := ⟨0, fun _ => none, fun _ => [], 0⟩

/-- The fields that a form sets. -/
structure Form where
  name : String
  cards : String
  goods_type : String
  present_cards : String
  price : String
  deriving Repr, DecidableEq

/-- The record with the fields of a form. -/
def Form.toInfo (f : Form) (id : Option Nat) : GoodsInfo := ⟨id, f.name, f.goods_type, f.cards, f.present_cards, f.price⟩

inductive Write where
  /-- `hmset`, which keeps a field `id` -/
  | hmset (id : String) (f : Form)
  | hmsetNew (id : Nat) (f : Form)
  | lpush (place : Place) (id : String)
  | lrem (place : Place) (id : String)
  | delete (id : String)
  | hincrbyVersion

def applyWrite (s : Store) : Write → Store
  | .hmset id f => { s with goods := update s.goods id (some (f.toInfo ((s.goods id).bind GoodsInfo.id))) }
  | .hmsetNew id f => { s with goods := update s.goods (toString id) (some (f.toInfo (some id))) }
  | .lpush place id => { s with list := update s.list place (id :: s.list place) }
  | .lrem place id => { s with list := update s.list place ((s.list place).filter (· ≠ id)) }
  | .delete id => { s with goods := update s.goods id none }
  | .hincrbyVersion => { s with shop_version := s.shop_version + 1 }

inductive Cmd : Type → Type
  | incrCount : Cmd Nat
  | lrange (place : Place) : Cmd (List String)
  /-- `none` is a hash without fields. -/
  | hgetall (id : String) : Cmd (Option GoodsInfo)
  | pipe (ws : List Write) : Cmd Unit

instance : Exec Cmd Store where
  exec
    | .incrCount, s => (s.count + 1, { s with count := s.count + 1 })
    | .lrange place, s => (s.list place, s)
    | .hgetall id, s => (s.goods id, s)
    | .pipe ws, s => ((), ws.foldl applyWrite s)

abbrev Handler := Prog Err Cmd

/-! ## The handlers -/

def checkNullFields (f : Form) : List (String × String) :=
  [(f.name, "商品名称不能为空"), (f.cards, "商品钻石数不能为空"), (f.price, "商品价格不能为空")]

def do_create_goods (f : Form) : Handler Unit := do
  let goods_id ← call .incrCount
  call (.pipe [.hmsetNew goods_id f, .lpush .all (toString goods_id), .lpush (.type f.goods_type) (toString goods_id), .hincrbyVersion])

/-- `/goods/create` -/
def do_goodsCreate (f : Form) : Handler Reply := do
  match checkNull (checkNullFields f) with
  | some msg => return ⟨1, msg⟩
  | none =>
    do_create_goods f
    return ⟨0, "商品[" ++ f.name ++ "]创建成功"⟩

def do_goods_modify (goodsId : String) (f : Form) : Handler Unit := call (.pipe [.hmset goodsId f, .hincrbyVersion])

/-- `/goods/modify` -/
def do_goodsModify (goodsId : String) (f : Form) : Handler Reply := do
  match checkNull (checkNullFields f) with
  | some msg => return ⟨1, msg⟩
  | none =>
    do_goods_modify goodsId f
    return ⟨0, "商品[" ++ f.name ++ "]修改成功"⟩

/-- `/goods/del` -/
def do_goodsDel (goodsId : String) : Handler Reply := do
  if goodsId = "" then return ⟨1, "商品ID不存在"⟩
  call (.pipe [.lrem (.type "0") goodsId, .lrem (.type "2") goodsId, .lrem (.type "1") goodsId, .lrem .all goodsId, .delete goodsId])
  return ⟨0, "删除商品成功"⟩

/-! ## The shops -/

def getHallGoodsList (type : String) : Handler (List GoodsInfo) := do
  let goodids ← call (.lrange .all)
  let infos ← collect goodids fun goodid => do
    let info ← call (.hgetall goodid)
    return info.filter (·.type = type)
  return infos.filterMap id

/-- The fish shop. -/
def get_coin_goods_list : Handler (List GoodsInfo) := do
  let goods_ids ← call (.lrange (.type "1"))
  let infos ← collect goods_ids fun goods_id => call (.hgetall goods_id)
  return infos.filterMap id

section Money
variable (money : Int → String)

/-- `goodInfo['price'] = getGoodsMoney(redis, groupId, goodInfo['cards'])` -/
def diamond (good_id : String) : Handler GoodsInfo := do
  let goodInfo ← orRaise .KeyError (← call (.hgetall good_id))
  let cards ← orRaise .ValueError (int goodInfo.cards)
  return { goodInfo with price := money cards }

/-- The diamond shop. -/
def get_dia_goods_list : Handler (List GoodsInfo) := do
  let goods_ids ← call (.lrange (.type "0"))
  collect goods_ids (diamond money)

end Money

/-! ## Requests -/

inductive Req where
  | create (f : Form)
  | modify (goodsId : String) (f : Form)
  | del (goodsId : String)

def Req.handler : Req → Handler Reply
  | .create f => do_goodsCreate f
  | .modify goodsId f => do_goodsModify goodsId f
  | .del goodsId => do_goodsDel goodsId

def step (r : Req) (s : Store) : Store := (run r.handler s).2

/-! ## What is expected -/

/-- Where goods belong. -/
def places (s : Store) (id : String) : List Place := (s.goods id).elim [] fun g => [.all, .type g.type]

/-- Goods stand in `GOODS_LIST` and in the list of their type, once in each. -/
def Agrees (s : Store) : Prop := Shelved s.list (places s)

/-- `l` has the goods of a type, each once. -/
def OfType (s : Store) (type : String) (l : List GoodsInfo) : Prop :=
  ∃ ids : List String, ids.Nodup ∧ (∀ id, id ∈ ids ↔ ∃ g, s.goods id = some g ∧ g.type = type) ∧ ids.map s.goods = l.map some

/-- The shops show the goods of their type. -/
structure Offers (money : Int → String) (s : Store) : Prop where
  hall : ∀ type, ∃ l, OfType s type l ∧ run (getHallGoodsList type) s = (.ok l, s)
  fish : ∃ l, OfType s "1" l ∧ run get_coin_goods_list s = (.ok l, s)
  diamond : ∃ l, OfType s "0" l ∧
    run (get_dia_goods_list money) s = (.ok (l.map fun g => { g with price := money ((int g.cards).getD 0) }), s)

/-- After the request the lists agree, and every shop shows what it should. -/
def Right (r : Req) (s : Store) : Prop := Agrees (step r s) ∧ ∀ money, Offers money (step r s)

/-- The cards of a diamond are a number. -/
def Form.Counts (f : Form) : Prop := f.goods_type = "0" → (int f.cards).isSome

/-- Goods are modified that exist and keep their type, those deleted have a type of the shops, and the cards of a diamond are
a number. -/
def Fits : Req → Store → Prop
  | .create f, _ => checkNull (checkNullFields f) = none → f.Counts
  | .modify goodsId f, s => checkNull (checkNullFields f) = none → (∃ g, s.goods goodsId = some g ∧ g.type = f.goods_type) ∧ f.Counts
  | .del goodsId, s => goodsId ≠ "" → ∀ g, s.goods goodsId = some g → g.type ∈ ["0", "2", "1"]

/-! ## The shops show the lists -/

variable {s : Store}

/-- The cards of every diamond are a number. -/
def Counted (s : Store) : Prop := ∀ id g, s.goods id = some g → g.type = "0" → (int g.cards).isSome

theorem mem_places {id : String} {type : String} : Place.type type ∈ places s id ↔ ∃ g, s.goods id = some g ∧ g.type = type := by
  unfold places
  cases s.goods id with
  | none => simp
  | some g => simp [eq_comm]

theorem all_mem_places {id : String} : Place.all ∈ places s id ↔ (s.goods id).isSome := by
  unfold places
  cases s.goods id with
  | none => simp
  | some g => simp

section OfType
variable {ids : List String} {type : String} (hmem : ∀ id, id ∈ ids ↔ ∃ g, s.goods id = some g ∧ g.type = type)
include hmem

theorem map_goods : ids.map s.goods = (ids.filterMap s.goods).map some := by
  rw [List.map_filterMap_some_eq_filter_map_isSome, List.filter_eq_self.2]
  intro o ho
  obtain ⟨id, hid, rfl⟩ := List.mem_map.1 ho
  obtain ⟨g, hg, -⟩ := (hmem id).1 hid
  rw [hg]
  rfl

theorem ofType_of_ids (hnodup : ids.Nodup) : OfType s type (ids.filterMap s.goods) := ⟨ids, hnodup, hmem, map_goods hmem⟩

end OfType

theorem run_getHallGoodsList (h : Agrees s) (type : String) :
    ∃ l, OfType s type l ∧ run (getHallGoodsList type) s = (.ok l, s) := by
  refine ⟨((s.list .all).filter fun id => (s.goods id).any (·.type = type)).filterMap s.goods, ofType_of_ids ?_ ?_, ?_⟩
  · intro id
    rw [List.mem_filter, h.mem_iff, all_mem_places]
    cases s.goods id with
    | none => simp
    | some g => simp
  · exact (h.nodup .all).filter _
  · have hloop : run (collect (s.list .all) fun goodid => (do
        let info ← call (.hgetall goodid)
        return info.filter (·.type = type) : Handler (Option GoodsInfo))) s =
        (.ok ((s.list .all).map fun goodid => (s.goods goodid).filter (·.type = type)), s) := run_collect fun _ _ => rfl
    have hsame : ∀ id, (s.goods id).filter (·.type = type) = if (s.goods id).any (·.type = type) then s.goods id else none := by
      intro id
      cases s.goods id with
      | none => rfl
      | some g => rfl
    unfold getHallGoodsList
    show run (collect (s.list .all) _ >>= _) s = _
    rw [run_bind_ok hloop, List.filterMap_filter, List.filterMap_map]
    simp only [← hsame]
    rfl

theorem run_get_coin_goods_list (h : Agrees s) : ∃ l, OfType s "1" l ∧ run get_coin_goods_list s = (.ok l, s) := by
  refine ⟨_, ofType_of_ids (fun id => by rw [h.mem_iff, mem_places]) (h.nodup (.type "1")), ?_⟩
  have hloop : run (collect (s.list (.type "1")) fun goods_id => (call (.hgetall goods_id) : Handler _)) s =
      (.ok ((s.list (.type "1")).map s.goods), s) := run_collect fun _ _ => rfl
  unfold get_coin_goods_list
  rw [call_bind, run_step]
  show run (collect (s.list (.type "1")) _ >>= _) s = _
  rw [run_bind_ok hloop, List.filterMap_map]
  rfl

section Diamonds
variable {money : Int → String} {ids : List String} {l : List GoodsInfo}

/-- A diamond is shown if it has a record with a number of cards. -/
theorem run_diamond (id : String) : run (diamond money id) s =
    (match s.goods id with
      | some g => if (int g.cards).isSome then .ok { g with price := money ((int g.cards).getD 0) } else .error .ValueError
      | none => .error .KeyError, s) := by
  unfold diamond
  rw [call_bind, run_step]
  show run (orRaise Err.KeyError (s.goods id) >>= _) s = _
  cases s.goods id with
  | none => rfl
  | some g =>
    rw [orRaise_some, ret_bind]
    dsimp only
    cases int g.cards with
    | none => rfl
    | some cards => rfl

theorem run_diamonds (hids : ids.map s.goods = l.map some) (hcards : ∀ g ∈ l, (int g.cards).isSome) :
    run (collect ids (diamond money)) s = (.ok (l.map fun g => { g with price := money ((int g.cards).getD 0) }), s) := by
  induction ids generalizing l with
  | nil =>
    rw [List.map_nil, eq_comm, List.map_eq_nil_iff] at hids
    subst hids
    rfl
  | cons id ids ih =>
    cases l with
    | nil => cases hids
    | cons g l =>
      obtain ⟨hg, hids⟩ := List.cons.inj hids
      have hround : run (diamond money id) s = (.ok { g with price := money ((int g.cards).getD 0) }, s) := by
        rw [run_diamond, hg]
        dsimp only
        rw [if_pos (hcards g List.mem_cons_self)]
      rw [collect_cons, run_bind_ok hround, run_bind_ok (ih hids fun g hg => hcards g (List.mem_cons_of_mem _ hg))]
      rfl

/-- A shop that answers has read the cards of each. -/
theorem cards_of_run {s' : Store} (h : run (collect ids (diamond money)) s = (.ok l, s')) {id : String} (hid : id ∈ ids)
    {g : GoodsInfo} (hg : s.goods id = some g) : (int g.cards).isSome := by
  induction ids generalizing l s' with
  | nil => cases hid
  | cons id' ids ih =>
    rw [collect_cons] at h
    obtain ⟨g', s₁, hround, hrest⟩ := run_bind_eq_ok h
    rw [run_diamond] at hround
    obtain ⟨hround, rfl⟩ := Prod.mk.inj hround
    rcases List.mem_cons.1 hid with rfl | hid
    · rw [hg] at hround
      dsimp only at hround
      by_contra hnone
      rw [if_neg hnone] at hround
      cases hround
    · obtain ⟨l', s₂, hloop, -⟩ := run_bind_eq_ok hrest
      exact ih hloop hid

theorem offers_iff (h : Agrees s) : (∀ money, Offers money s) ↔ Counted s := by
  have hmem : ∀ id, id ∈ s.list (.type "0") ↔ ∃ g, s.goods id = some g ∧ g.type = "0" := fun id => by rw [h.mem_iff, mem_places]
  constructor
  · intro hoffers id g hg htype
    obtain ⟨l, -, hrun⟩ := (hoffers fun _ => "").diamond
    exact cards_of_run hrun ((hmem id).2 ⟨g, hg, htype⟩) hg
  · intro hcounted money
    refine ⟨run_getHallGoodsList h, run_get_coin_goods_list h, _, ofType_of_ids hmem (h.nodup _), ?_⟩
    have hcards : ∀ g ∈ (s.list (.type "0")).filterMap s.goods, (int g.cards).isSome := by
      intro g hg
      obtain ⟨id, hid, hg⟩ := List.mem_filterMap.1 hg
      obtain ⟨g', hg', htype⟩ := (hmem id).1 hid
      obtain rfl : g' = g := Option.some.inj (hg'.symm.trans hg)
      exact hcounted id g' hg htype
    exact run_diamonds (map_goods hmem) hcards

end Diamonds

/-! ## The requests, one by one -/

section Steps
variable {f : Form} {goodsId : String}

theorem step_refused (s : Store) (goodsId : String) {msg : String} (h : checkNull (checkNullFields f) = some msg) :
    step (.create f) s = s ∧ step (.modify goodsId f) s = s := by
  simp only [step, Req.handler, do_goodsCreate, do_goodsModify, h]
  exact ⟨rfl, rfl⟩

theorem step_create (h : checkNull (checkNullFields f) = none) : step (.create f) s =
    { count := s.count + 1
      goods := update s.goods (toString (s.count + 1)) (some (f.toInfo (some (s.count + 1))))
      list := moves (toString (s.count + 1)) [(.all, .on), (.type f.goods_type, .on)] s.list
      shop_version := s.shop_version + 1 } := by
  simp only [step, Req.handler, do_goodsCreate, h]
  rfl

theorem step_modify (s : Store) (goodsId : String) (h : checkNull (checkNullFields f) = none) : step (.modify goodsId f) s =
    { s with
      goods := update s.goods goodsId (some (f.toInfo ((s.goods goodsId).bind GoodsInfo.id)))
      shop_version := s.shop_version + 1 } := by
  simp only [step, Req.handler, do_goodsModify, h]
  rfl

theorem step_del (h : goodsId ≠ "") : step (.del goodsId) s =
    { s with
      goods := update s.goods goodsId none
      list := moves goodsId [(.type "0", .off), (.type "2", .off), (.type "1", .off), (.all, .off)] s.list } := by
  simp only [step, Req.handler, do_goodsDel, if_neg h]
  rfl

end Steps

/-! ## The lists along a run -/

structure Kept (s : Store) : Prop where
  agrees : Agrees s
  counted : Counted s
  drawn : ∀ id, (s.goods id).isSome → ∃ n ≤ s.count, id = toString n

theorem kept_empty : Kept .empty := by
  refine ⟨shelved_empty, ?_, ?_⟩
  · intro id g hg
    cases hg
  · intro id hg
    cases hg

theorem right_iff (r : Req) (s : Store) : Right r s ↔ Agrees (step r s) ∧ Counted (step r s) := and_congr_right offers_iff

section Written
variable {s' : Store} {id : String} {o : Option GoodsInfo} (hgoods : s'.goods = update s.goods id o)
include hgoods

theorem places_self : places s' id = o.elim [] fun g => [.all, .type g.type] := by rw [places, hgoods, update_self]

theorem places_other {j : String} (hj : j ≠ id) : places s' j = places s j := by rw [places, hgoods, update_of_ne hj, places]

theorem Counted.written_iff (h : Counted s) : Counted s' ↔ ∀ g, o = some g → g.type = "0" → (int g.cards).isSome := by
  constructor
  · intro h' g ho
    exact h' id g (by rw [hgoods, update_self, ho])
  · intro hnew j g hg
    by_cases hj : j = id
    · subst hj
      rw [hgoods, update_self] at hg
      exact hnew g hg
    · rw [hgoods, update_of_ne hj] at hg
      exact h j g hg

/-- The lists stay, so the place of the goods has to. -/
theorem Agrees.rewritten_iff (h : Agrees s) (hlist : s'.list = s.list) : Agrees s' ↔ ∀ place, place ∈ places s' id ↔ place ∈ places s id := by
  constructor
  · intro h' place
    rw [← h'.mem_iff, hlist, h.mem_iff]
  · intro hsame j place
    rw [hlist, h j place]
    by_cases hj : j = id
    · subst hj
      simp only [hsame]
    · rw [places_other hgoods hj]

end Written

theorem counts_iff {f : Form} {n : Option Nat} :
    (∀ g, some (f.toInfo n) = some g → g.type = "0" → (int g.cards).isSome) ↔ f.Counts := by
  constructor
  · intro h
    exact h _ rfl
  · rintro h g hg
    obtain rfl := Option.some.inj hg
    exact h

/-- The number of new goods is not drawn yet. -/
theorem Kept.places_new (h : Kept s) : places s (toString (s.count + 1)) = [] := by
  unfold places
  cases hg : s.goods (toString (s.count + 1)) with
  | none => rfl
  | some g =>
    obtain ⟨n, hn, hid⟩ := h.drawn (toString (s.count + 1)) (by rw [hg]; rfl)
    have := toString_injective hid
    omega

section Kept
variable {f : Form} {goodsId : String}

theorem Kept.agrees_create (h : Kept s) (hf : checkNull (checkNullFields f) = none) : Agrees (step (.create f) s) := by
  rw [step_create hf]
  refine Shelved.moves h.agrees (by simp) ?_ ?_ ?_
  · intro place _
    rw [h.places_new]
    exact List.not_mem_nil
  · intro j hj
    exact places_other rfl hj
  · intro place
    rw [places_self rfl, h.places_new]
    simp [Form.toInfo]

theorem Kept.agrees_modify_iff (h : Kept s) (hf : checkNull (checkNullFields f) = none) :
    Agrees (step (.modify goodsId f) s) ↔ ∃ g, s.goods goodsId = some g ∧ g.type = f.goods_type := by
  have hgoods := congrArg Store.goods (step_modify s goodsId hf)
  have hlist := congrArg Store.list (step_modify s goodsId hf)
  rw [h.agrees.rewritten_iff hgoods hlist, places_self hgoods, ← mem_places]
  constructor
  · intro hsame
    exact (hsame _).1 (by simp [Form.toInfo])
  · intro hmem place
    obtain ⟨g, hg, htype⟩ := mem_places.1 hmem
    rw [places, hg, Option.elim_some, Option.elim_some, htype]
    rfl

/-- The lists that deletion looks at. -/
theorem mem_looked {place : Place} :
    (place, Move.off) ∈ [(Place.type "0", Move.off), (.type "2", .off), (.type "1", .off), (.all, .off)] ↔
      place = .all ∨ ∃ t ∈ ["0", "2", "1"], place = .type t := by
  simp only [List.mem_cons, Prod.mk.injEq, and_true, List.not_mem_nil, or_false, exists_eq_or_imp, exists_eq_left]
  tauto

theorem Kept.agrees_del_iff (h : Kept s) (hid : goodsId ≠ "") :
    Agrees (step (.del goodsId) s) ↔ ∀ g, s.goods goodsId = some g → g.type ∈ ["0", "2", "1"] := by
  have hgoods := congrArg Store.goods (step_del (s := s) hid)
  have hlist := congrArg Store.list (step_del (s := s) hid)
  constructor
  · intro h' g hg
    by_contra htype
    -- the goods stay on the list of their type
    have hon : goodsId ∈ s.list (.type g.type) := h.agrees.mem_iff.2 (mem_places.2 ⟨g, hg, rfl⟩)
    have hstays : (step (.del goodsId) s).list (.type g.type) = s.list (.type g.type) := by
      rw [hlist]
      exact moves_of_not_mem _ _ _ (by simpa using htype)
    rw [← hstays] at hon
    have hplace := h'.mem_iff.1 hon
    rw [places_self hgoods] at hplace
    cases hplace
  · intro htype
    unfold Agrees
    rw [hlist]
    refine Shelved.moves h.agrees (by decide) ?_ ?_ ?_
    · intro place hmem
      simp at hmem
    · intro j hj
      exact places_other hgoods hj
    · intro place
      rw [places_self hgoods]
      refine iff_of_false List.not_mem_nil ?_
      rintro (hmem | ⟨hplace, hkeep⟩)
      · simp at hmem
      · refine hkeep (mem_looked.2 ?_)
        cases place with
        | all => exact .inl rfl
        | type t =>
          obtain ⟨g, hg, rfl⟩ := mem_places.1 hplace
          exact .inr ⟨g.type, htype g hg, rfl⟩

theorem Kept.counted_create_iff (h : Kept s) (hf : checkNull (checkNullFields f) = none) : Counted (step (.create f) s) ↔ f.Counts :=
  (h.counted.written_iff (congrArg Store.goods (step_create hf))).trans counts_iff

theorem Kept.counted_modify_iff (h : Kept s) (hf : checkNull (checkNullFields f) = none) :
    Counted (step (.modify goodsId f) s) ↔ f.Counts :=
  (h.counted.written_iff (congrArg Store.goods (step_modify _ goodsId hf))).trans counts_iff

theorem Kept.counted_del (h : Kept s) (hid : goodsId ≠ "") : Counted (step (.del goodsId) s) := by
  rw [h.counted.written_iff (congrArg Store.goods (step_del hid))]
  intro g hg
  cases hg

theorem Kept.right (h : Kept s) : Agrees s ∧ Counted s := ⟨h.agrees, h.counted⟩

theorem Kept.right_iff (h : Kept s) (r : Req) : Right r s ↔ Fits r s := by
  rw [Catalogue.right_iff]
  cases r with
  | create f =>
    cases hf : checkNull (checkNullFields f) with
    | some msg =>
      rw [(step_refused s "" hf).1]
      exact iff_of_true h.right fun hnone => absurd (hf.symm.trans hnone) (Option.some_ne_none msg)
    | none =>
      rw [and_iff_right (h.agrees_create hf), h.counted_create_iff hf]
      exact ⟨fun hright _ => hright, fun hfits => hfits hf⟩
  | modify goodsId f =>
    cases hf : checkNull (checkNullFields f) with
    | some msg =>
      rw [(step_refused s goodsId hf).2]
      exact iff_of_true h.right fun hnone => absurd (hf.symm.trans hnone) (Option.some_ne_none msg)
    | none =>
      rw [h.agrees_modify_iff hf, h.counted_modify_iff hf]
      exact ⟨fun hright _ => hright, fun hfits => hfits hf⟩
  | del goodsId =>
    by_cases hid : goodsId = ""
    · subst hid
      exact iff_of_true h.right fun hne => absurd rfl hne
    · rw [and_iff_left (h.counted_del hid), h.agrees_del_iff hid]
      exact ⟨fun hright _ => hright, fun hfits => hfits hid⟩

/-- A drawn id stays one. -/
theorem Kept.drawn_written (h : Kept s) {s' : Store} {id : String} {o : Option GoodsInfo} (hgoods : s'.goods = update s.goods id o)
    (hcount : s.count ≤ s'.count) (hid : o.isSome → ∃ n ≤ s'.count, id = toString n) :
    ∀ j, (s'.goods j).isSome → ∃ n ≤ s'.count, j = toString n := by
  intro j hj
  by_cases hne : j = id
  · subst hne
    rw [hgoods, update_self] at hj
    exact hid hj
  · rw [hgoods, update_of_ne hne] at hj
    obtain ⟨n, hn, rfl⟩ := h.drawn j hj
    exact ⟨n, hn.trans hcount, rfl⟩

theorem Kept.step (h : Kept s) {r : Req} (hfits : Fits r s) : Kept (step r s) := by
  have hright := (Catalogue.right_iff r s).1 ((h.right_iff r).2 hfits)
  refine ⟨hright.1, hright.2, ?_⟩
  cases r with
  | create f =>
    cases hf : checkNull (checkNullFields f) with
    | some msg =>
      rw [(step_refused s "" hf).1]
      exact h.drawn
    | none =>
      rw [step_create hf]
      exact h.drawn_written rfl (Nat.le_succ _) fun _ => ⟨s.count + 1, le_rfl, rfl⟩
  | modify goodsId f =>
    cases hf : checkNull (checkNullFields f) with
    | some msg =>
      rw [(step_refused s goodsId hf).2]
      exact h.drawn
    | none =>
      obtain ⟨⟨g, hg, -⟩, -⟩ := hfits hf
      rw [step_modify _ goodsId hf]
      exact h.drawn_written rfl le_rfl fun _ => h.drawn goodsId (by rw [hg]; rfl)
  | del goodsId =>
    by_cases hid : goodsId = ""
    · subst hid
      exact h.drawn
    · rw [step_del hid]
      exact h.drawn_written rfl le_rfl (nofun)

end Kept

/-- For every run: the lists agree and the shops show them exactly when every request fits. -/
theorem goods_right_iff (rs : List Req) : All step Right rs .empty ↔ All step Fits rs .empty :=
  all_iff (fun r _ h => h.right_iff r) (fun _ _ hfits h => h.step hfits) kept_empty

/-- Goods modified under an id that is not drawn are on no list. -/
theorem modified_unknown : ¬All step Right [.modify "7" ⟨"a", "10", "0", "", "1"⟩] .empty := by
  rintro ⟨⟨hagrees, -⟩, -⟩
  have hplace : Place.all ∈ places (step (.modify "7" ⟨"a", "10", "0", "", "1"⟩) .empty) "7" := by decide +kernel
  have hlist := hagrees.mem_iff.2 hplace
  cases hlist

end FishWeb.Goods.Catalogue
