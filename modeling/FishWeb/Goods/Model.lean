import Mathlib.Logic.Function.Basic
import FishWeb.Lib.Prog
import FishWeb.Lib.Python
/-!
# The rewards of the ticket shop

`/goods/reward/create`, `modify`, `delete` and `status` of `admin/admin_goods.py` over
`do_create_reward`, `do_modify_reward` and `do_reward_delete` of `model/goodsModel.py`. A
reward is a hash; those on sale are in `FISH_REWARD_ON_SHOP_LIST` and in the list of their type.

A string stands for a byte string, a character a byte. The fields of a form come stripped.
Left out: the pages and the upload, the operation log after a success, the old picture
on disk, and the switch of the automatic renewal, which touches neither status nor lists.
-/
open Python Prog

namespace FishWeb.Goods

open Function (update)

/-! ## The store -/

/-- `FISH_REWARD_TABLE % id`. -/
structure Reward where
  reward_id : Option String
  reward_name : Option String
  reward_stock : Option String
  reward_img_path : Option String
  reward_need_ticket : Option String
  reward_pos : Option String
  reward_nums : Option String
  reward_now_nums : Option String
  reward_cost : Option String
  reward_type : Option String
  reward_status : Option String
  reward_auto_charge : Option String
  reward_card_no : Option String
  reward_card_pwd : Option String
  reward_per_stock : Option String
  reward_coin : Option String
  deriving Repr, DecidableEq

/-- A hash without fields. -/
def Reward.empty : Reward :=
  ⟨none, none, none, none, none, none, none, none, none, none, none, none, none, none, none, none⟩

structure Shop where
  /-- `FISH_REWARD_ID_COUNT` -/
  idCount : Nat
  /-- `FISH_REWARD_TABLE % id` -/
  reward : String → Option Reward
  /-- `FISH_REWARD_LIST` -/
  rewardList : List String
  /-- membership of `FISH_REWARD_ID_SET` -/
  idSet : String → Bool
  /-- membership of `FISH_REWARD_AUTO_CHARGE` -/
  autoCharge : String → Bool
  /-- `FISH_REWARD_ON_SHOP_LIST` -/
  onShop : List String
  /-- `FISH_REWARD_ON_SHOP_TYPE_LIST % type` -/
  onShopType : String → List String
  /-- `hget FISH_CONSTS_CONFIG 'exchange_shop_ver'` -/
  exchange_shop_ver : Int

def Shop.empty : Shop := ⟨0, fun _ => none, [], fun _ => false, fun _ => false, [], fun _ => [], 0⟩

/-- The reward's hash, which has no fields if it does not exist. -/
def Shop.info (s : Shop) (id : String) : Reward := (s.reward id).getD .empty

inductive Write where
  | lpushReward (id : String)
  | hmset (id : String) (set : Reward → Reward)
  | saddIdSet (id : String)
  | deleteReward (id : String)
  | lremReward (id : String)
  | sremIdSet (id : String)
  | sremAutoCharge (id : String)
  | lpushOnShop (id : String)
  | lremOnShop (id : String)
  | lpushOnShopType (type id : String)
  | lremOnShopType (type id : String)
  | hincrbyVer

def applyWrite (s : Shop) : Write → Shop
  | .lpushReward id => { s with rewardList := id :: s.rewardList }
  | .hmset id set => { s with reward := update s.reward id (some (set (s.info id))) }
  | .saddIdSet id => { s with idSet := update s.idSet id true }
  | .deleteReward id => { s with reward := update s.reward id none }
  | .lremReward id => { s with rewardList := s.rewardList.filter (· ≠ id) }
  | .sremIdSet id => { s with idSet := update s.idSet id false }
  | .sremAutoCharge id => { s with autoCharge := update s.autoCharge id false }
  | .lpushOnShop id => { s with onShop := id :: s.onShop }
  | .lremOnShop id => { s with onShop := s.onShop.filter (· ≠ id) }
  | .lpushOnShopType t id => { s with onShopType := update s.onShopType t (id :: s.onShopType t) }
  | .lremOnShopType t id => { s with onShopType := update s.onShopType t ((s.onShopType t).filter (· ≠ id)) }
  | .hincrbyVer => { s with exchange_shop_ver := s.exchange_shop_ver + 1 }

inductive Cmd : Type → Type
  | incrIdCount : Cmd Nat
  | existsReward (id : String) : Cmd Bool
  /-- `hget` and `hmget` of some of its fields -/
  | hmgetReward (id : String) : Cmd Reward
  | pipe (ws : List Write) : Cmd Unit

instance : Exec Cmd Shop where
  exec
    | .incrIdCount, s => (s.idCount + 1, { s with idCount := s.idCount + 1 })
    | .existsReward id, s => ((s.reward id).isSome, s)
    | .hmgetReward id, s => (s.info id, s)
    | .pipe ws, s => ((), ws.foldl applyWrite s)

section Exec
open Exec
variable (s : Shop)

@[simp] theorem exec_incrIdCount : exec Cmd.incrIdCount s = (s.idCount + 1, { s with idCount := s.idCount + 1 }) := rfl

@[simp] theorem exec_existsReward (id : String) : exec (Cmd.existsReward id) s = ((s.reward id).isSome, s) := rfl

@[simp] theorem exec_hmgetReward (id : String) : exec (Cmd.hmgetReward id) s = (s.info id, s) := rfl

@[simp] theorem exec_pipe (ws : List Write) : exec (Cmd.pipe ws) s = ((), ws.foldl applyWrite s) := rfl

end Exec

abbrev Handler := Prog Err Cmd

structure Reply where
  code : Int
  msg : String
  deriving Repr, DecidableEq

/-! ## Creation and modification -/

/-- The fields of `reward_fields` that a handler reads. -/
structure Form where
  reward_id : String
  reward_name : String
  reward_stock : String
  img_path : String
  reward_need_ticket : String
  reward_pos : String
  reward_nums : String
  reward_now_nums : String
  reward_cost : String
  reward_type : String
  reward_status : String
  reward_card_no : String
  reward_card_pwd : String
  reward_per_stock : String
  reward_coin : String
  deriving Repr, DecidableEq

/-- The first of the fields that is empty, by its message. -/
def checkNull (fields : List (String × String)) : Option String := (fields.find? (·.1 = "")).map (·.2)

def check_null_fields (f : Form) : List (String × String) :=
  [(f.reward_name, "奖品名称不能为空"), (f.reward_stock, "奖品初始库存不能为空"),
   (f.reward_need_ticket, "奖品所需兑换卷不能为空"), (f.reward_nums, "奖品总期数不能为空"),
   (f.reward_now_nums, "奖品当前期数不能为空")]

/-- `x if x else default`. -/
def orElse (x dflt : String) : String := if x = "" then dflt else x

/-- `path[14:]`, without the leading `mahjong/static`. -/
def cut (path : String) : String := String.ofList (path.toList.drop 14)

/-- The hash of a new reward. -/
def createInfo (f : Form) (reward_id : String) : Reward where
  reward_id := some reward_id
  reward_name := some f.reward_name
  reward_stock := some f.reward_stock
  reward_img_path := some (cut f.img_path)
  reward_need_ticket := some f.reward_need_ticket
  reward_pos := some f.reward_pos
  reward_nums := some f.reward_nums
  reward_now_nums := some f.reward_now_nums
  reward_cost := some f.reward_cost
  reward_type := some f.reward_type
  reward_status := some (orElse f.reward_status "0")
  reward_auto_charge := some "0"
  reward_card_no := some f.reward_card_no
  reward_card_pwd := some f.reward_card_pwd
  reward_per_stock := some (orElse f.reward_per_stock "0")
  reward_coin := some (orElse f.reward_coin "0")

def do_create_reward (reward_id : String) (reward_info : Reward) : Handler Unit :=
  call (.pipe [.lpushReward reward_id, .hmset reward_id fun _ => reward_info, .saddIdSet reward_id])

/-- `/goods/reward/create`. -/
def do_reward_create (f : Form) : Handler Reply := do
  match checkNull (check_null_fields f) with
  | some msg => return ⟨1, msg⟩
  | none =>
    let reward_id ← call .incrIdCount
    do_create_reward (toString reward_id) (createInfo f (toString reward_id))
    return ⟨0, "创建奖品[" ++ f.reward_name ++ "]成功!"⟩

/-- The hash of a reward after its modification. Its automatic renewal stays. -/
def modifyInfo (f : Form) (img_path : String) (r : Reward) : Reward :=
  { createInfo f f.reward_id with
    reward_img_path := some img_path
    reward_status := some "0"
    reward_auto_charge := r.reward_auto_charge }

def do_modify_reward (reward_id : String) (set : Reward → Reward) : Handler Unit :=
  call (.pipe [.hmset reward_id set, .lremOnShop reward_id, .hincrbyVer])

/-- `/goods/reward/modify`. -/
def do_reward_modify (f : Form) : Handler Reply := do
  match checkNull ((f.reward_id, "奖品ID不能为空") :: check_null_fields f) with
  | some msg => return ⟨1, msg⟩
  | none =>
    let img_path := if "mahjong/static".toList.isPrefixOf f.img_path.toList then cut f.img_path else f.img_path
    do_modify_reward f.reward_id (modifyInfo f img_path)
    return ⟨0, "修改奖品[" ++ f.reward_name ++ "]成功!"⟩

/-! ## Deletion and the status -/

/-- `convert_util.to_int`. -/
def to_int (value : Option String) : Int := (value.bind int).getD 0

/-- `REWARD_ONLINE`. -/
def REWARD_ONLINE : Int := 1

def do_reward_delete (reward_id : String) : Handler Unit :=
  call (.pipe [.deleteReward reward_id, .lremReward reward_id, .sremIdSet reward_id, .sremAutoCharge reward_id])

/-- `/goods/reward/delete`. Bytes outside ASCII do not go through the `replace` of `get_form`. -/
def do_reward_deleteCall (reward_id : String) : Handler Reply := do
  if reward_id = "" then return ⟨-1, "奖品ID 不允许为空"⟩
  if !reward_id.toList.all (·.val < 128) then .raise .ValueError
  if !(← call (.existsReward reward_id)) then return ⟨1, "商品不存在."⟩
  let reward_status := to_int (← call (.hmgetReward reward_id)).reward_status
  if reward_status = REWARD_ONLINE then return ⟨1, "不能删除已上架的商品."⟩
  do_reward_delete reward_id
  return ⟨0, "删除奖品成功"⟩

/-- The message for the status a reward had. -/
def checkDesc (reward_status : Int) (reward_id : String) : Option String :=
  if reward_status = 1 then some ("奖品ID为[" ++ reward_id ++ "]的商品下架成功")
  else if reward_status = 0 then some ("奖品ID为[" ++ reward_id ++ "]的商品上架成功")
  else none

/-- The pipeline of `/goods/reward/status`. -/
def switchWrites (reward_id reward_type : String) (reward_status : Int) : List Write :=
  (if reward_status = 1 then
    [.hmset reward_id ({ · with reward_status := some "0" }), .lremOnShop reward_id,
     .lremOnShopType reward_type reward_id]
  else
    [.hmset reward_id ({ · with reward_status := some "1" }), .lpushOnShop reward_id,
     .lpushOnShopType reward_type reward_id]) ++ [.hincrbyVer]

/-- `/goods/reward/status`, defined as `do_auto_charge`. -/
def do_reward_status (reward_id : String) : Handler Reply := do
  if reward_id = "" then return ⟨1, "参数错误"⟩
  let info ← call (.hmgetReward reward_id)
  let reward_status := to_int info.reward_status
  if reward_status ≠ 1 ∧ to_int info.reward_now_nums > to_int info.reward_nums then
    return ⟨1, "该奖品期数已过期,不能上架!"⟩
  call (.pipe (switchWrites reward_id (fmt info.reward_type) reward_status))
  -- the pipeline is through when the message of an unknown status is missed
  let msg ← orRaise .KeyError (checkDesc reward_status reward_id)
  return ⟨0, msg⟩

/-! ## Requests -/

inductive Req where
  | create (f : Form)
  | modify (f : Form)
  | status (reward_id : String)
  | delete (reward_id : String)

def handle : Req → Handler Reply
  | .create f => do_reward_create f
  | .modify f => do_reward_modify f
  | .status reward_id => do_reward_status reward_id
  | .delete reward_id => do_reward_deleteCall reward_id

/-- The store after a request, run to its end or to its exception. -/
def step (r : Req) (s : Shop) : Shop := (run (handle r) s).2

end FishWeb.Goods
