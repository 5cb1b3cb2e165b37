import FishWeb.Lib.Prog
import FishWeb.Lib.Python
import FishWeb.Lib.Counters
/-!
# The safe box

The endpoints of `fish/fish_bag.py`, `fish/fish_pay.py` and
`fish/fish_exchange.py` that put value into a user's box, take it out or lock it.
A handler reads, compares and then increments, one redis command after another.

Amounts are `Counters.Table` fields, one for each place that holds some. The
form parameters are strings, as the handlers get them. A session that has ended
reads as `None`, which formats into a key as `None`. Left out: sums beyond the 64
bits of a redis integer (the charge's apart), malformed numbers in the shop's own
tables, log lines.
-/
open Python Counters

namespace FishWeb.Box

/-- Where amounts are kept. -/
inductive Place where
  /-- `users:%s` `diamond` -/
  | diamond (uid : String)
  /-- `users:%s` `coin` -/
  | coin (uid : String)
  /-- `player:item:uid:%s:hesh` -/
  | item (uid item_id : String)
  /-- `box:user:%s:hesh` -/
  | box (uid item_id : String)
  /-- `player:uid:%s:hesh` -/
  | playerUid (uid item_id : String)
  /-- `users:%s` `vip_charge` -/
  | vipCharge (uid : String)
  /-- `fish:diamond:charge:sum` -/
  | diamondChargeSum
  /-- `fish:diamond2coin:sum` -/
  | diamond2coinSum
  deriving Repr, DecidableEq

/-- `currency:change:course:%s:hesh`. -/
structure Course where
  cost : Option Int
  gain : Option Int
  cost_type : Option Int
  gain_type : Option Int

/-- `GOODS_TABLE % goodId`. -/
structure Goods where
  cards : Option Int
  present_cards : Option Int
  price : Option Int

structure St where
  /-- `hget ('hall:session:%s' % sid) 'uid'` -/
  session : String → Option String
  /-- the other fields of `users:%s` -/
  user : String → String → Option String
  amounts : Table Place
  /-- `hget ('attrs:itemid:%s:hesh' % item_id) 'title'` -/
  title : String → Option String
  /-- `user:%s:code:box`, by phone -/
  boxCode : String → Option String
  course : String → Course
  goods : String → Goods

/-! ## Commands -/

inductive Cmd : Type → Type
  | sessionUid (sid : String) : Cmd (Option String)
  | hget (uid field : String) : Cmd (Option String)
  | hset (uid field value : String) : Cmd Unit
  | hmset (uid : String) (fields : List (String × String)) : Cmd Unit
  | hgetAmount (p : Place) : Cmd (Option Int)
  | hincrby (p : Place) (n : Int) : Cmd Int
  /-- `hincrby ('users:%s' % uid, 'vip_charge', price)`, with the price as the request spells it -/
  | hincrbyCharge (uid price : String) : Cmd (Option Int)
  | hgetTitle (item_id : String) : Cmd (Option String)
  | getCode (phone : String) : Cmd (Option String)
  | deleteCode (phone : String) : Cmd Unit
  | hmgetCourse (cid : String) : Cmd Course
  | hmgetGoods (goodId : String) : Cmd Goods

open Function (update)

/-- What the price adds to the charge, where Redis adds it: both it and the sum have 64 bits. -/
def addsCharge (s : St) (uid price : String) : Option Int :=
  (redisInt price).filter fun n => isInt64 (val s.amounts (.vipCharge uid) + n)

def setField (s : St) (uid field value : String) : St :=
  { s with user := update s.user uid (update (s.user uid) field (some value)) }

instance : Exec Cmd St where
  exec
    | .sessionUid sid, s => (s.session sid, s)
    | .hget uid f, s => (s.user uid f, s)
    | .hset uid f v, s => ((), setField s uid f v)
    | .hmset uid l, s => ((), l.foldl (fun s p => setField s uid p.1 p.2) s)
    | .hgetAmount p, s => (s.amounts p, s)
    | .hincrby p n, s => (val s.amounts p + n, { s with amounts := incrby s.amounts p n })
    | .hincrbyCharge uid price, s =>
      match addsCharge s uid price with
      | some n => (some (val s.amounts (.vipCharge uid) + n), { s with amounts := incrby s.amounts (.vipCharge uid) n })
      | none => (none, s)
    | .hgetTitle i, s => (s.title i, s)
    | .getCode phone, s => (s.boxCode phone, s)
    | .deleteCode phone, s => ((), { s with boxCode := update s.boxCode phone none })
    | .hmgetCourse cid, s => (s.course cid, s)
    | .hmgetGoods g, s => (s.goods g, s)

/-- The increments of a command. -/
instance : Note Cmd (Place × Int) where
  note
    | .hincrby p n, _ => [(p, n)]
    | .hincrbyCharge uid price, some _ => (redisInt price).toList.map (.vipCharge uid, ·)
    | .hincrbyCharge _ _, none | .sessionUid _, _ | .hget _ _, _ | .hset _ _ _, _ | .hmset _ _, _ | .hgetAmount _, _ | .hgetTitle _, _ | .getCode _, _
    | .deleteCode _, _ | .hmgetCourse _, _ | .hmgetGoods _, _ => []

section Exec
open Exec Note
variable (s : St)

@[simp] theorem exec_sessionUid (sid : String) : exec (Cmd.sessionUid sid) s = (s.session sid, s) := rfl

@[simp] theorem exec_hget (uid f : String) : exec (Cmd.hget uid f) s = (s.user uid f, s) := rfl

@[simp] theorem exec_hset (uid f v : String) : exec (Cmd.hset uid f v) s = ((), setField s uid f v) := rfl

@[simp] theorem exec_hmset (uid : String) (l : List (String × String)) :
    exec (Cmd.hmset uid l) s = ((), l.foldl (fun s p => setField s uid p.1 p.2) s) := rfl

@[simp] theorem exec_hgetAmount (p : Place) : exec (Cmd.hgetAmount p) s = (s.amounts p, s) := rfl

@[simp] theorem exec_hincrby (p : Place) (n : Int) : exec (Cmd.hincrby p n) s =
    (val s.amounts p + n, { s with amounts := incrby s.amounts p n }) := rfl

theorem exec_hincrbyCharge {uid price : String} {n : Int} (h : addsCharge s uid price = some n) :
    exec (Cmd.hincrbyCharge uid price) s =
      (some (val s.amounts (.vipCharge uid) + n), { s with amounts := incrby s.amounts (.vipCharge uid) n }) := by
  simp [exec, h]

theorem exec_hincrbyCharge_refused {uid price : String} (h : addsCharge s uid price = none) :
    exec (Cmd.hincrbyCharge uid price) s = (none, s) := by
  simp [exec, h]

@[simp] theorem exec_hgetTitle (i : String) : exec (Cmd.hgetTitle i) s = (s.title i, s) := rfl

@[simp] theorem exec_getCode (phone : String) : exec (Cmd.getCode phone) s = (s.boxCode phone, s) := rfl

@[simp] theorem exec_deleteCode (phone : String) :
    exec (Cmd.deleteCode phone) s = ((), { s with boxCode := update s.boxCode phone none }) := rfl

@[simp] theorem exec_hmgetCourse (cid : String) : exec (Cmd.hmgetCourse cid) s = (s.course cid, s) := rfl

@[simp] theorem exec_hmgetGoods (g : String) : exec (Cmd.hmgetGoods g) s = (s.goods g, s) := rfl

@[simp] theorem note_sessionUid (sid : String) (r : Option String) :
    note (Cmd.sessionUid sid) r = ([] : List (Place × Int)) := rfl

@[simp] theorem note_hget (uid f : String) (r : Option String) :
    note (Cmd.hget uid f) r = ([] : List (Place × Int)) := rfl

@[simp] theorem note_hset (uid f v : String) (r : Unit) : note (Cmd.hset uid f v) r = ([] : List (Place × Int)) := rfl

@[simp] theorem note_hmset (uid : String) (l : List (String × String)) (r : Unit) :
    note (Cmd.hmset uid l) r = ([] : List (Place × Int)) := rfl

@[simp] theorem note_hgetAmount (p : Place) (r : Option Int) :
    note (Cmd.hgetAmount p) r = ([] : List (Place × Int)) := rfl

@[simp] theorem note_hincrby (p : Place) (n r : Int) : note (Cmd.hincrby p n) r = [(p, n)] := rfl

@[simp] theorem note_hgetTitle (i : String) (r : Option String) :
    note (Cmd.hgetTitle i) r = ([] : List (Place × Int)) := rfl

@[simp] theorem note_getCode (phone : String) (r : Option String) :
    note (Cmd.getCode phone) r = ([] : List (Place × Int)) := rfl

@[simp] theorem note_deleteCode (phone : String) (r : Unit) :
    note (Cmd.deleteCode phone) r = ([] : List (Place × Int)) := rfl

@[simp] theorem note_hmgetCourse (cid : String) (r : Course) :
    note (Cmd.hmgetCourse cid) r = ([] : List (Place × Int)) := rfl

@[simp] theorem note_hmgetGoods (g : String) (r : Goods) :
    note (Cmd.hmgetGoods g) r = ([] : List (Place × Int)) := rfl

theorem setFields_amounts (uid : String) (l : List (String × String)) :
    (l.foldl (fun s p => setField s uid p.1 p.2) s).amounts = s.amounts := by
  induction l generalizing s with
  | nil => rfl
  | cons p l ih => exact ih _

/-- A command changes the amounts by its increments, and nothing else does. -/
theorem exec_amounts {β : Type} (c : Cmd β) : (exec c s).2.amounts = incrAll (note c (exec c s).1) s.amounts := by
  cases c with
  | hmset uid l => exact setFields_amounts s uid l
  | hincrbyCharge uid price =>
    cases h : addsCharge s uid price with
    | none => rw [exec_hincrbyCharge_refused s h]; rfl
    | some n =>
      have hn : redisInt price = some n := (Option.filter_eq_some_iff.1 h).1
      rw [exec_hincrbyCharge s h]
      simp [note, hn]
  | _ => rfl

end Exec

abbrev Handler := Prog Err Cmd

open Prog (call orRaise)

/-! ## Answers -/

/-- Some endpoints answer with a number, some with its string. -/
inductive Code where
  | int (n : Int)
  | str (s : String)
  deriving Repr, DecidableEq

structure Reply where
  code : Code
  msg : String
  box_lock : Option String := none
  coin : Option Int := none
  diamond : Option Int := none
  deriving Repr, DecidableEq

/-- An answer of a code and a text. -/
def say (code : Int) (msg : String) : Reply := { code := .int code, msg }

/-! ## The lock -/

section Lock
variable (md5 : String → String)

/-- What `'%s' % uid` makes of a session's uid. -/
def uidStr (uid : Option String) : String := uid.getD "None"

@[simp] theorem uidStr_some (uid : String) : uidStr (some uid) = uid := rfl

/-- `if not uid`. -/
def isEmpty (s : Option String) : Bool := s.getD "" = ""

/-- `/set/box/pwd`. -/
def setBoxPwd (sid box_pwd : String) : Handler Reply := do
  let uid := uidStr (← call (.sessionUid sid))
  call (.hmset uid [("box_pwd", md5 box_pwd), ("box_lock", "1")])
  return say 0 "设置成功！"

/-- `/box/lock`. -/
def boxLock (sid : String) : Handler Reply := do
  let uid ← call (.sessionUid sid)
  if isEmpty uid then return say 1 "sid过期！"
  let box_lock ← call (.hget (uidStr uid) "box_lock")
  if isEmpty box_lock then return say 1 "安全箱未加密!"
  call (.hset (uidStr uid) "box_lock" "1")
  return say 0 "安全箱已上锁!"

/-- `/box/unlock`. -/
def boxUnlock (sid box_pwd : String) : Handler Reply := do
  let uid ← call (.sessionUid sid)
  let box_lock ← call (.hget (uidStr uid) "box_lock")
  if isEmpty uid then return say 1 "sid过期！"
  let real_bpwd ← call (.hget (uidStr uid) "box_pwd")
  if some (md5 box_pwd) ≠ real_bpwd then
    return { code := .int 1, msg := "密码不正确！", box_lock }
  else
    call (.hset (uidStr uid) "box_lock" "2")
    let box_lock ← call (.hget (uidStr uid) "box_lock")
    return { code := .int 0, msg := "安全箱已解锁！", box_lock }

/-- `/box/find/pwd`. The new password is random; `sent` is the answer of the SMS service. -/
def boxFindPwd (sid check_code new_box_pwd : String) (sent : Bool) : Handler Reply := do
  let uid := uidStr (← call (.sessionUid sid))
  let phone ← call (.hget uid "phone")
  let _nickname ← call (.hget uid "nickname")
  let real_cc ← call (.getCode (uidStr phone))
  if isEmpty real_cc then return say 1 "验证码已过期!"
  if real_cc ≠ some check_code then return say 1 "验证码不正确!"
  let phone ← orRaise .TypeError phone
  let p := String.ofList (phone.toList.take 3) ++ "****" ++ String.ofList (phone.toList.drop (phone.length - 4))
  if !sent then return say 1 "修改失败！"
  call (.hset uid "box_pwd" (md5 new_box_pwd))
  call (.deleteCode phone)
  return say 0 ("修改成功！您的保管箱新密码已发送至您的手机号" ++ p ++ "。")

end Lock

/-! ## Into the box and out of it -/

/-- `hincrby` with the amount as the request spells it. -/
def hincrbyStr (p : Place) (num : String) : Handler Unit := do
  let n ← orRaise .ResponseError (redisInt num)
  let _ ← call (.hincrby p n)

/-- The increments of `/box/save`, with the wallet's side of the item. -/
def saveInto (uid item_id : String) (wallet : Place) (num : String) (n : Int) : Handler Reply := do
  hincrbyStr (.box uid item_id) num
  let _ ← call (.hincrby wallet (-n))
  return say 0 "存放成功！"

/-- `/box/save`. -/
def boxSave (sid item_id num : String) : Handler Reply := do
  -- compared as `int` reads it, later given to redis as the request spells it
  let n ← orRaise .ValueError (int num)
  if n ≤ 0 then return say 1 "无效的数量！"
  let session ← call (.sessionUid sid)
  if isEmpty session then return say 1 "登录超时！"
  let uid := uidStr session
  if item_id = "1" then
    let cur_d := (← call (.hgetAmount (.diamond uid))).getD 0
    if cur_d < n then return say 1 "钻石数量不足！"
    saveInto uid "1" (.diamond uid) num n
  else if item_id = "2" then
    let cur_c := (← call (.hgetAmount (.coin uid))).getD 0
    if cur_c < n then return say 1 "金币数量不足！"
    saveInto uid "2" (.coin uid) num n
  else
    let cur_item_num := (← call (.hgetAmount (.item uid item_id))).getD 0
    let title ← call (.hgetTitle item_id)
    if cur_item_num < n then
      let title ← orRaise .TypeError title
      return say 1 (title ++ "数量不足！")
    saveInto uid item_id (.item uid item_id) num n

/-- The credit of `/box/take`: an `if` for diamonds, then an `if` for coins whose
`else` is every item but the coins, the diamonds among them. -/
def takeCredit (uid item_id num : String) : Handler Unit := do
  if item_id = "1" then hincrbyStr (.diamond uid) num
  if item_id = "2" then hincrbyStr (.coin uid) num
  else hincrbyStr (.item uid item_id) num

/-- The increments of `/box/take`. -/
def takeOut (uid item_id num : String) (n : Int) : Handler Reply := do
  takeCredit uid item_id num
  let _ ← call (.hincrby (.box uid item_id) (-n))
  return say 0 "提取成功!"

/-- `/box/take`. -/
def boxTake (sid item_id num : String) : Handler Reply := do
  let n ← orRaise .ValueError (int num)
  if n < 0 then return say (-1) "非法数值！"
  let uid := uidStr (← call (.sessionUid sid))
  let box_lock ← call (.hget uid "box_lock")
  if box_lock ≠ some "2" then return { code := .str "1", msg := "请先解锁！" }
  let cur_num := (← call (.hgetAmount (.box uid item_id))).getD 0
  if cur_num < n then return say 2 "数量不足！"
  takeOut uid item_id num n

/-! ## The shop -/

/-- `vip_charge_record`: the levels a sum of charges reaches, one after another. -/
def vipChargeRecord (uid price : String) : Handler Unit := do
  let charge_sum ← orRaise .ResponseError (← call (.hincrbyCharge uid price))
  Prog.forEach [(1000, "1"), (3000, "2"), (6000, "3"), (10000, "4"), (20000, "5")] fun (door, vip_level) =>
    if door ≤ charge_sum then call (.hset uid "vip_level" vip_level) else return ()

/-- `/buyCoin`. -/
def buyCoin (sid price goodId : String) : Handler Reply := do
  let uid := uidStr (← call (.sessionUid sid))
  let box_pwd ← call (.hget uid "box_pwd")
  let box_lock ← call (.hget uid "box_lock")
  if isEmpty box_pwd then return say 1 "请先设安全箱密码！"
  if box_lock ≠ some "2" then return say 1 "购买前请先输入安全箱密码！"
  let goods ← call (.hmgetGoods goodId)
  let goodsPrice ← orRaise .ResponseError goods.price
  let _ ← call (.hincrby .diamondChargeSum goodsPrice)
  let add_num := goods.cards.getD 0 + goods.present_cards.getD 0
  let diamond ← call (.hincrby (.box uid "1") add_num)
  vipChargeRecord uid price
  return { code := .int 0, msg := "购买钻石成功", diamond := some diamond }

/-- `/currency/exchange`. What is gained goes into the box whatever it is. -/
def currencyExchange (cid sid : String) : Handler Reply := do
  let uid := uidStr (← call (.sessionUid sid))
  -- `box_lock` is not read
  let box_pwd ← call (.hget uid "box_pwd")
  if isEmpty box_pwd then return say 1 "请先设安全箱密码！"
  let course ← call (.hmgetCourse cid)
  let cost := course.cost.getD 0
  let gain := course.gain.getD 0
  let cost_type := course.cost_type.getD 0
  let gain_type := course.gain_type.getD 0
  let cur_coin := (← call (.hgetAmount (.coin uid))).getD 0
  if cost_type = 1 then
    let cur_diamond := (← call (.hgetAmount (.box uid (toString cost_type)))).getD 0
    if cur_diamond < cost then return { code := .str "-1", msg := "钻石不够!" }
    let _ ← call (.hincrby (.box uid (toString gain_type)) gain)
    if gain_type = 2 then
      let _ ← call (.hincrby .diamond2coinSum gain)
    let _ ← call (.hincrby (.box uid (toString cost_type)) (-cost))
  else if cost_type = 2 then
    if cur_coin < cost then return { code := .str "-1", msg := "金币不够!" }
    if gain_type = 1 then
      let _ ← call (.hincrby (.diamond uid) gain)
    let _ ← call (.hincrby (.box uid (toString gain_type)) gain)
    let _ ← call (.hincrby (.coin uid) (-cost))
  else
    let cur_num := (← call (.hgetAmount (.playerUid uid (toString cost_type)))).getD 0
    if cur_num < cost then return { code := .str "-1", msg := "数量不够!" }
    let _ ← call (.hincrby (.box uid (toString gain_type)) gain)
    -- the source adds the cost here
    let _ ← call (.hincrby (.playerUid uid (toString cost_type)) cost)
  let coin ← call (.hgetAmount (.coin uid))
  let diamond ← call (.hgetAmount (.diamond uid))
  return { code := .str "0", msg := "兑换成功!", coin, diamond }

end FishWeb.Box
