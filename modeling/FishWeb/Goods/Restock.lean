import FishWeb.Goods.Model
/-!
# The restock of a day

The script `scripts/clear_reward_per_day.py`. It queues commands in one pipeline and
executes it at the end of each round that renews a reward. That is never reached: before it
the round names the key `FISH_CONSTS_CONFIG`, which is not imported. A round that renews
nothing leaves what it queued to the next ones. So the store stays as it is, and the script
ends at the first reward that it renews (`run_main`).
-/
open Python Prog

namespace FishWeb.Goods.Restock

/-! ## The script -/

inductive Cmd : Type → Type
  | lrangeOnShop : Cmd (List String)
  /-- `smembers(FISH_REWARD_AUTO_CHARGE)` -/
  | smembersAutoCharge : Cmd (String → Bool)
  /-- `hmget` of some of its fields -/
  | hmgetReward (id : String) : Cmd Reward
  /-- `pipe.execute()` -/
  | execute (pipe : List Write) : Cmd Unit

instance : Exec Cmd Shop where
  exec
    | .lrangeOnShop, s => (s.onShop, s)
    | .smembersAutoCharge, s => (s.autoCharge, s)
    | .hmgetReward id, s => (s.info id, s)
    | .execute pipe, s => ((), pipe.foldl applyWrite s)

abbrev Script := Prog Err Cmd

/-- `int(x)` of a field that may be missing. -/
def intOf (x : Option String) : Script Int := do
  let x ← orRaise .TypeError x
  orRaise .ValueError (int x)

/-- `hset(.., 'reward_per_stock', int(reward_stock))` -/
def do_auto_recharge (reward_id : String) (reward_stock : Option String) : Script Write := do
  let reward_stock ← intOf reward_stock
  return .hmset reward_id ({ · with reward_per_stock := some (toString reward_stock) })

def handle_out_of_date (reward_id : String) : List Write :=
  [.hmset reward_id ({ · with reward_status := some "0" }), .lremOnShop reward_id]

/-- `hincrby(.., 'reward_now_nums', 1)` -/
def nextPeriod (reward_id : String) : Write :=
  .hmset reward_id fun info => { info with reward_now_nums := some (toString (to_int info.reward_now_nums + 1)) }

/-- The name is not imported. -/
def FISH_CONSTS_CONFIG : Script Unit := .raise .NameError

/-- Whether the round renews the reward: it does so automatically, or is sold out. -/
def recharges (auto_recharge_shops : String → Bool) (on_shop_id : String) (reward_per_stock : Option String) : Script Bool := do
  if auto_recharge_shops on_shop_id then return true
  return (← intOf reward_per_stock) = 0

/-- The rounds for the rewards, with what the pipeline has queued. -/
def loop (auto_recharge_shops : String → Bool) : List String → List Write → Script Unit
  | [], _ => return ()
  | on_shop_id :: on_shop_ids, pipe => do
    let info ← call (.hmgetReward on_shop_id)
    let out_of_date := (← intOf info.reward_now_nums) ≥ (← intOf info.reward_nums)
    let pipe := if out_of_date then pipe ++ handle_out_of_date on_shop_id else pipe
    if ← recharges auto_recharge_shops on_shop_id info.reward_per_stock then
      let recharge ← do_auto_recharge on_shop_id info.reward_stock
      let pipe := pipe ++ [recharge, nextPeriod on_shop_id]
      FISH_CONSTS_CONFIG
      call (.execute (pipe ++ [.hincrbyVer]))
      loop auto_recharge_shops on_shop_ids []
    else loop auto_recharge_shops on_shop_ids pipe

/-- The script. -/
def main : Script Unit := do
  let on_shop_ids ← call .lrangeOnShop
  let auto_recharge_shops ← call .smembersAutoCharge
  loop auto_recharge_shops on_shop_ids []

/-! ## What is expected -/

/-- The fields that the script reads are integers. -/
structure Whole (s : Shop) (id : String) : Prop where
  per_stock : ∃ x n, (s.info id).reward_per_stock = some x ∧ int x = some n
  stock : ∃ x n, (s.info id).reward_stock = some x ∧ int x = some n
  now_nums : ∃ x n, (s.info id).reward_now_nums = some x ∧ int x = some n
  nums : ∃ x n, (s.info id).reward_nums = some x ∧ int x = some n

/-- The current period has reached the total. -/
def Expired (s : Shop) (id : String) : Prop := to_int (s.info id).reward_nums ≤ to_int (s.info id).reward_now_nums

/-- The reward renews automatically, or is sold out. -/
def Renews (s : Shop) (id : String) : Prop := s.autoCharge id = true ∨ to_int (s.info id).reward_per_stock = 0

instance (s : Shop) (id : String) : Decidable (Expired s id) := inferInstanceAs (Decidable (_ ≤ _))

instance (s : Shop) (id : String) : Decidable (Renews s id) := inferInstanceAs (Decidable (_ ∨ _))

/-- What a restock makes of `s`. -/
structure Restocked (s s' : Shop) : Prop where
  off : ∀ id ∈ s.onShop, Expired s id → id ∉ s'.onShop ∧ s'.reward id = some { s.info id with reward_status := some "0" }
  renewed : ∀ id ∈ s.onShop, ¬Expired s id → Renews s id → id ∈ s'.onShop ∧
    s'.reward id = some { s.info id with
      reward_per_stock := some (toString (to_int (s.info id).reward_stock))
      reward_now_nums := some (toString (to_int (s.info id).reward_now_nums + 1)) }
  kept : ∀ id, (id ∈ s.onShop → ¬Expired s id ∧ ¬Renews s id) → (id ∈ s'.onShop ↔ id ∈ s.onShop) ∧ s'.reward id = s.reward id
  periods : ∀ id, to_int (s.info id).reward_now_nums ≤ to_int (s.info id).reward_nums →
    to_int (s'.info id).reward_now_nums ≤ to_int (s'.info id).reward_nums

/-- The script runs to its end, and the store is restocked. -/
def Right (s : Shop) : Prop := ∃ s', run main s = (.ok (), s') ∧ Restocked s s'

/-! ## What the script does -/

variable {s : Shop}

theorem run_intOf {x : Option String} (h : ∃ y n, x = some y ∧ int y = some n) (s : Shop) : run (intOf x) s = (.ok (to_int x), s) := by
  obtain ⟨y, n, rfl, hn⟩ := h
  unfold intOf to_int
  rw [orRaise_some, ret_bind, Option.bind_some, hn]
  rfl

theorem run_recharges {id : String} (h : Whole s id) :
    run (recharges s.autoCharge id (s.info id).reward_per_stock) s = (.ok (decide (Renews s id)), s) := by
  unfold recharges
  by_cases hauto : s.autoCharge id = true
  · have hrenews : Renews s id := .inl hauto
    rw [if_pos hauto, decide_eq_true hrenews]
    rfl
  · have hiff : Renews s id ↔ to_int (s.info id).reward_per_stock = 0 := or_iff_right hauto
    rw [if_neg hauto, run_bind_ok (run_intOf h.per_stock s), decide_eq_decide.2 hiff]
    rfl

/-- The rounds leave the store, and end at the first reward to renew. -/
theorem run_loop {ids : List String} (hwhole : ∀ id ∈ ids, Whole s id) (pipe : List Write) :
    run (loop s.autoCharge ids pipe) s = (if ∃ id ∈ ids, Renews s id then .error .NameError else .ok (), s) := by
  induction ids generalizing pipe with
  | nil => rw [if_neg (by simp)]; rfl
  | cons id ids ih =>
    have h := hwhole id List.mem_cons_self
    have hrest := ih fun id hid => hwhole id (List.mem_cons_of_mem _ hid)
    unfold loop
    have hinfo : run (call (Cmd.hmgetReward id) : Script Reward) s = (.ok (s.info id), s) := rfl
    rw [run_bind_ok hinfo, run_bind_ok (run_intOf h.now_nums s), run_bind_ok (run_intOf h.nums s)]
    dsimp only
    -- whether it expires only decides what is queued
    generalize (if to_int (s.info id).reward_now_nums ≥ to_int (s.info id).reward_nums then pipe ++ handle_out_of_date id else pipe) = queued
    rw [run_bind_ok (run_recharges h)]
    by_cases hrenews : Renews s id
    · rw [if_pos (decide_eq_true hrenews), if_pos ⟨id, List.mem_cons_self, hrenews⟩]
      unfold do_auto_recharge
      rw [bind_assoc, run_bind_ok (run_intOf h.stock s)]
      rfl
    · rw [if_neg (by simpa using hrenews), hrest]
      simp only [List.mem_cons, exists_eq_or_imp, hrenews, false_or]

theorem run_main (hwhole : ∀ id ∈ s.onShop, Whole s id) :
    run main s = (if ∃ id ∈ s.onShop, Renews s id then .error .NameError else .ok (), s) :=
  run_loop hwhole []

/-- For every list on sale and all integer fields: the rewards are restocked exactly when there is nothing to do: none has
reached its total, renews automatically or is sold out. -/
theorem restock_right_iff (hwhole : ∀ id ∈ s.onShop, Whole s id) :
    Right s ↔ ∀ id ∈ s.onShop, ¬Expired s id ∧ ¬Renews s id := by
  unfold Right
  rw [run_main hwhole]
  constructor
  · rintro ⟨s', hrun, hstock⟩ id hid
    obtain ⟨hok, rfl⟩ := Prod.mk.inj hrun
    have hnone : ¬∃ id ∈ s.onShop, Renews s id := by
      intro h
      rw [if_pos h] at hok
      cases hok
    exact ⟨fun hexpired => (hstock.off id hid hexpired).1 hid, fun hrenews => hnone ⟨id, hid, hrenews⟩⟩
  · intro hidle
    refine ⟨s, ?_, ?_⟩
    · rw [if_neg]
      rintro ⟨id, hid, hrenews⟩
      exact (hidle id hid).2 hrenews
    · exact {
        off := fun id hid hexpired => absurd hexpired (hidle id hid).1
        renewed := fun id hid _ hrenews => absurd hrenews (hidle id hid).2
        kept := fun id _ => ⟨Iff.rfl, rfl⟩
        periods := fun id h => h }

/-- A shop with the reward `1` on sale. -/
def oneReward (per_stock now_nums : String) (auto : Bool) : Shop :=
  { Shop.empty with
    reward := fun id => if id = "1" then
      some { Reward.empty with
        reward_stock := some "20", reward_per_stock := some per_stock, reward_now_nums := some now_nums, reward_nums := some "3" }
      else none
    onShop := ["1"]
    autoCharge := fun _ => auto }

/-- A reward in its second period of three that has seven left. -/
theorem restock_idle : Right (oneReward "7" "2" false) := by
  refine (restock_right_iff ?_).2 (by decide +kernel)
  rintro id hid
  obtain rfl : id = "1" := List.mem_singleton.1 hid
  exact ⟨⟨"7", 7, rfl, by decide +kernel⟩, ⟨"20", 20, rfl, by decide +kernel⟩, ⟨"2", 2, rfl, by decide +kernel⟩,
    ⟨"3", 3, rfl, by decide +kernel⟩⟩

/-- A reward that is sold out is not restocked. -/
theorem restock_sold_out : ¬Right (oneReward "0" "2" false) := by
  rintro ⟨s', hrun, -⟩
  have herror : (run main (oneReward "0" "2" false)).1.isOk = false := by decide +kernel
  rw [hrun] at herror
  cases herror

end FishWeb.Goods.Restock
