import FishWeb.Goods.Model
import FishWeb.Lib.Runs
/-!
# What is on sale

The status of a reward, the common list and the lists by type say the same thing three
times. Switching the status changes all three, deletion waits until it is off. Creation
and modification write the hash only (modification also the common list), so they keep
the three together exactly where the hash they write fits the lists they leave alone.
-/
open Python Prog Function Runs

namespace FishWeb.Goods

/-- The reward exists with status 1. -/
def online (s : Shop) (id : String) : Prop := ∃ r, s.reward id = some r ∧ to_int r.reward_status = REWARD_ONLINE

instance (s : Shop) (id : String) : Decidable (online s id) :=
  decidable_of_iff ((s.reward id).any fun r => to_int r.reward_status = REWARD_ONLINE) (by
    simp [online, Option.any_eq_true])

/-- The name its type has in the key of a list. -/
def typeOf (s : Shop) (id : String) : String := fmt (s.info id).reward_type

/-- Each list holds the rewards it should, once each. -/
structure Shelf (s : Shop) : Prop where
  common : ∀ id, id ∈ s.onShop ↔ online s id
  common_nodup : s.onShop.Nodup
  typed : ∀ t id, id ∈ s.onShopType t ↔ online s id ∧ typeOf s id = t
  typed_nodup : ∀ t, (s.onShopType t).Nodup

/-- Creation of an offline reward, unless the id it draws is on sale already, and then of
an online one of that type; modification of a reward that is not on sale. -/
def Fits : Req → Shop → Prop
  | .create f, s => checkNull (check_null_fields f) = none →
      (to_int (some (orElse f.reward_status "0")) = REWARD_ONLINE ↔ online s (toString (s.idCount + 1))) ∧
        (online s (toString (s.idCount + 1)) → typeOf s (toString (s.idCount + 1)) = f.reward_type)
  | .modify f, s => checkNull ((f.reward_id, "奖品ID不能为空") :: check_null_fields f) = none → ¬online s f.reward_id
  | _, _ => True

/-! ## The requests, one by one -/

theorem step_create (f : Form) (s : Shop) : step (.create f) s =
    match checkNull (check_null_fields f) with
    | some _ => s
    | none =>
      let id := toString (s.idCount + 1)
      [.lpushReward id, .hmset id fun _ => createInfo f id, .saddIdSet id].foldl applyWrite
        { s with idCount := s.idCount + 1 } := by
  simp only [step, handle, do_reward_create]
  cases checkNull (check_null_fields f) <;> rfl

theorem step_modify (f : Form) (s : Shop) : step (.modify f) s =
    match checkNull ((f.reward_id, "奖品ID不能为空") :: check_null_fields f) with
    | some _ => s
    | none =>
      let img_path := if "mahjong/static".toList.isPrefixOf f.img_path.toList then cut f.img_path else f.img_path
      [.hmset f.reward_id (modifyInfo f img_path), .lremOnShop f.reward_id, .hincrbyVer].foldl applyWrite s := by
  simp only [step, handle, do_reward_modify]
  cases checkNull ((f.reward_id, "奖品ID不能为空") :: check_null_fields f) <;> rfl

/-- The status is switched, or nothing happens. -/
theorem step_status (id : String) (s : Shop) : step (.status id) s = s ∨
    step (.status id) s =
      (switchWrites id (typeOf s id) (to_int (s.info id).reward_status)).foldl applyWrite s := by
  simp only [step, handle, do_reward_status]
  by_cases hid : id = ""
  · left; simp [hid]
  · by_cases hold : to_int (s.info id).reward_status ≠ 1 ∧ to_int (s.info id).reward_now_nums > to_int (s.info id).reward_nums
    · left; simp [hid, call, hold.1, hold.2]
    · right
      rw [if_neg hid]
      simp only [call, cmd_bind, ret_bind, run_step, exec_hmgetReward, if_neg hold, exec_pipe, typeOf]
      cases checkDesc (to_int (s.info id).reward_status) id <;> rfl

/-- A reward that is not on sale is deleted, or nothing happens. -/
theorem step_delete (id : String) (s : Shop) : step (.delete id) s = s ∨
    ¬online s id ∧ step (.delete id) s =
      [.deleteReward id, .lremReward id, .sremIdSet id, .sremAutoCharge id].foldl applyWrite s := by
  simp only [step, handle, do_reward_deleteCall]
  by_cases hid : id = ""
  · left; simp [hid]
  by_cases hascii : id.toList.all (·.val < 128)
  · cases hr : s.reward id with
    | none => left; simp [hid, hascii, call, hr]
    | some r =>
      by_cases hst : to_int r.reward_status = REWARD_ONLINE
      · left; simp [hid, hascii, call, hr, Shop.info, hst]
      · right
        refine ⟨fun ⟨r', hr', hst'⟩ => hst (by rw [hr] at hr'; cases hr'; exact hst'), ?_⟩
        simp [hid, hascii, call, hr, Shop.info, hst, do_reward_delete]
  · left; simp [hid, hascii]

/-! ## The shelf along a run -/

section Rewrite
variable {s s' : Shop} {id : String}

theorem online_update {o : Option Reward} (hr : s'.reward = update s.reward id o) (j : String) :
    online s' j ↔ if j = id then ∃ r, o = some r ∧ to_int r.reward_status = REWARD_ONLINE else online s j := by
  simp only [online, hr]
  by_cases hj : j = id
  · subst hj; simp
  · simp [hj]

theorem typeOf_update {r : Reward} (hr : s'.reward = update s.reward id (some r)) (j : String) :
    typeOf s' j = if j = id then fmt r.reward_type else typeOf s j := by
  simp only [typeOf, Shop.info, hr]
  by_cases hj : j = id
  · subst hj; simp
  · simp [hj]

/-- A hash is written under an id and the lists stay. -/
theorem Shelf.rewrite_iff (h : Shelf s) {r : Reward} (hr : s'.reward = update s.reward id (some r))
    (hc : s'.onShop = s.onShop) (ht : s'.onShopType = s.onShopType) :
    Shelf s' ↔ (to_int r.reward_status = REWARD_ONLINE ↔ online s id) ∧
      (online s id → typeOf s id = fmt r.reward_type) := by
  have hid : online s' id ↔ to_int r.reward_status = REWARD_ONLINE := by
    rw [online_update hr, if_pos rfl]
    simp
  constructor
  · intro h'
    have hon : to_int r.reward_status = REWARD_ONLINE ↔ online s id := by
      rw [← hid, ← h'.common, hc, h.common]
    refine ⟨hon, fun ho => ?_⟩
    have hin : id ∈ s'.onShopType (typeOf s id) := by
      rw [ht]
      exact (h.typed _ id).2 ⟨ho, rfl⟩
    have htype := ((h'.typed _ id).1 hin).2
    rw [typeOf_update hr, if_pos rfl] at htype
    exact htype.symm
  · rintro ⟨hon, htype⟩
    have hsame : ∀ j, online s' j ↔ online s j := by
      intro j
      by_cases hj : j = id
      · rw [hj, hid, hon]
      · rw [online_update hr, if_neg hj]
    refine ⟨fun j => by rw [hc, hsame, h.common], hc ▸ h.common_nodup, fun t j => ?_, fun t => ht ▸ h.typed_nodup t⟩
    rw [ht, h.typed, hsame, typeOf_update hr]
    refine and_congr_right fun ho => ?_
    by_cases hj : j = id
    · subst hj
      rw [if_pos rfl, htype ho]
    · rw [if_neg hj]

/-- A reward that is not on sale goes or stays off sale. -/
theorem Shelf.offline (h : Shelf s) {o : Option Reward} (hr : s'.reward = update s.reward id o)
    (ho : ∀ r, o = some r → to_int r.reward_status ≠ REWARD_ONLINE) (hoff : ¬online s id)
    (hc : s'.onShop = s.onShop.filter (· ≠ id)) (ht : s'.onShopType = s.onShopType) : Shelf s' := by
  have hc : s'.onShop = s.onShop := by
    rw [hc, List.filter_eq_self]
    intro j hj
    have hne : j ≠ id := fun he => hoff ((h.common id).1 (he ▸ hj))
    simpa using hne
  have hsame : ∀ j, online s' j ↔ online s j := by
    intro j
    rw [online_update hr]
    by_cases hj : j = id
    · subst hj
      rw [if_pos rfl]
      exact iff_of_false (fun ⟨r, hr, hst⟩ => ho r hr hst) hoff
    · rw [if_neg hj]
  refine ⟨fun j => by rw [hc, hsame, h.common], hc ▸ h.common_nodup, fun t j => ?_, fun t => ht ▸ h.typed_nodup t⟩
  rw [ht, h.typed, hsame]
  refine and_congr_right fun hon => ?_
  have hj : j ≠ id := fun he => hoff (he ▸ hon)
  simp only [typeOf, Shop.info, hr, update_of_ne hj]

/-- A reward goes off sale, and off both of its lists. -/
theorem Shelf.unshelved (h : Shelf s) (s' : Shop)
    (hr : s'.reward = update s.reward id (some { s.info id with reward_status := some "0" }))
    (hc : s'.onShop = s.onShop.filter (· ≠ id))
    (ht : s'.onShopType = update s.onShopType (typeOf s id) ((s.onShopType (typeOf s id)).filter (· ≠ id))) :
    Shelf s' := by
  have hon : ∀ j, online s' j ↔ online s j ∧ j ≠ id := by
    intro j
    rw [online_update hr]
    by_cases hj : j = id
    · simp [hj, show to_int (some "0") ≠ REWARD_ONLINE by decide]
    · simp [hj]
  have htype : ∀ j, typeOf s' j = typeOf s j := fun j => by
    rw [typeOf_update hr]
    by_cases hj : j = id
    · rw [if_pos hj, hj]; rfl
    · rw [if_neg hj]
  refine ⟨fun j => ?_, hc ▸ h.common_nodup.filter _, fun t j => ?_, fun t => ?_⟩
  · rw [hc, hon, List.mem_filter, h.common, decide_eq_true_eq]
  · rw [ht, hon, htype]
    by_cases htt : t = typeOf s id
    · subst htt
      rw [update_self, List.mem_filter, h.typed, decide_eq_true_eq]
      exact and_right_comm
    · rw [update_of_ne htt, h.typed]
      constructor
      · rintro ⟨ho, rfl⟩
        exact ⟨⟨ho, fun he => htt (he ▸ rfl)⟩, rfl⟩
      · exact fun ⟨⟨ho, _⟩, he⟩ => ⟨ho, he⟩
  · rw [ht]
    by_cases htt : t = typeOf s id
    · subst htt
      rw [update_self]
      exact (h.typed_nodup _).filter _
    · rw [update_of_ne htt]
      exact h.typed_nodup t

/-- A reward goes on sale, and on both of its lists. -/
theorem Shelf.shelved (h : Shelf s) (s' : Shop) (hoff : ¬online s id)
    (hr : s'.reward = update s.reward id (some { s.info id with reward_status := some "1" }))
    (hc : s'.onShop = id :: s.onShop)
    (ht : s'.onShopType = update s.onShopType (typeOf s id) (id :: s.onShopType (typeOf s id))) : Shelf s' := by
  have hon : ∀ j, online s' j ↔ j = id ∨ online s j := by
    intro j
    rw [online_update hr]
    by_cases hj : j = id
    · simp [hj, show to_int (some "1") = REWARD_ONLINE by decide]
    · simp [hj]
  have htype : ∀ j, typeOf s' j = typeOf s j := fun j => by
    rw [typeOf_update hr]
    by_cases hj : j = id
    · rw [if_pos hj, hj]; rfl
    · rw [if_neg hj]
  refine ⟨fun j => ?_, ?_, fun t j => ?_, fun t => ?_⟩
  · rw [hc, hon, List.mem_cons, h.common]
  · rw [hc]
    exact List.nodup_cons.2 ⟨fun hin => hoff ((h.common id).1 hin), h.common_nodup⟩
  · rw [ht, hon, htype]
    by_cases htt : t = typeOf s id
    · subst htt
      rw [update_self, List.mem_cons, h.typed, or_and_right]
      exact or_congr_left ⟨fun he => ⟨he, he ▸ rfl⟩, And.left⟩
    · rw [update_of_ne htt, h.typed]
      constructor
      · exact fun ⟨ho, he⟩ => ⟨.inr ho, he⟩
      · rintro ⟨rfl | ho, rfl⟩
        · exact absurd rfl htt
        · exact ⟨ho, rfl⟩
  · rw [ht]
    by_cases htt : t = typeOf s id
    · subst htt
      rw [update_self]
      exact List.nodup_cons.2 ⟨fun hin => hoff ((h.typed _ id).1 hin).1, h.typed_nodup _⟩
    · rw [update_of_ne htt]
      exact h.typed_nodup t

end Rewrite

theorem status_of_online {s : Shop} {id : String} (h : online s id) : to_int (s.info id).reward_status = 1 := by
  obtain ⟨r, hr, hst⟩ := h
  simpa [Shop.info, hr, REWARD_ONLINE] using hst

/-- The pipeline of a modification takes the reward off the common list alone. -/
theorem Shelf.modified_iff {s : Shop} (h : Shelf s) (id : String) (set : Reward → Reward)
    (hst : ∀ r, (set r).reward_status = some "0") :
    Shelf ([.hmset id set, .lremOnShop id, .hincrbyVer].foldl applyWrite s) ↔ ¬online s id := by
  constructor
  · intro h' ho
    -- it is still in the list of its old type
    have hin := (h.typed _ id).2 ⟨ho, rfl⟩
    obtain ⟨r, hr, hon⟩ := ((h'.typed (typeOf s id) id).1 hin).1
    simp only [List.foldl_cons, List.foldl_nil, applyWrite, update_self, Option.some.injEq] at hr
    rw [← hr, hst] at hon
    exact absurd hon (by decide)
  · intro hoff
    refine h.offline rfl (fun r hr => ?_) hoff rfl rfl
    rw [← Option.some.inj hr, hst]
    decide

/-- A request of a store with a right shelf keeps it right exactly where what it writes fits. -/
theorem shelf_step_iff (r : Req) (s : Shop) (h : Shelf s) : Shelf (step r s) ↔ Fits r s := by
  cases r with
  | create f =>
    rw [step_create]
    simp only [Fits]
    cases checkNull (check_null_fields f) with
    | some msg => simpa using h
    | none =>
      simp only [forall_const]
      set s' := List.foldl applyWrite _ _ with hs'
      have hr : s'.reward = update s.reward (toString (s.idCount + 1))
          (some (createInfo f (toString (s.idCount + 1)))) := rfl
      exact h.rewrite_iff hr rfl rfl
  | modify f =>
    rw [step_modify]
    simp only [Fits]
    cases checkNull ((f.reward_id, "奖品ID不能为空") :: check_null_fields f) with
    | some msg => simpa using h
    | none =>
      simp only [forall_const]
      exact h.modified_iff f.reward_id (modifyInfo f _) fun _ => rfl
  | status id =>
    refine iff_of_true ?_ trivial
    rcases step_status id s with hs | hs
    · rw [hs]; exact h
    · rw [hs]
      by_cases hst : to_int (s.info id).reward_status = 1
      · simp only [switchWrites, hst, if_true]
        exact h.unshelved _ rfl rfl rfl
      · simp only [switchWrites, hst, if_false]
        exact h.shelved _ (fun ho => hst (status_of_online ho)) rfl rfl rfl
  | delete id =>
    refine iff_of_true ?_ trivial
    rcases step_delete id s with hs | ⟨hoff, hs⟩
    · rw [hs]; exact h
    · rw [hs]
      have hc : s.onShop = s.onShop.filter (· ≠ id) := (List.filter_eq_self.2 fun j hj => by
        simpa using fun he : j = id => hoff ((h.common id).1 (he ▸ hj))).symm
      exact h.offline rfl (fun r hr => nomatch hr) hoff hc rfl

/-- In every run from a store with a right shelf, every request leaves it right exactly when
what every request writes fits. -/
theorem shelf_kept_iff (s : Shop) (h : Shelf s) (rs : List Req) :
    All step (fun r s => Shelf (step r s)) rs s ↔ All step Fits rs s :=
  all_iff (fun r s h => shelf_step_iff r s h) (fun r s hfits h => (shelf_step_iff r s h).2 hfits) h

theorem shelf_empty : Shelf .empty := by
  refine ⟨fun id => ?_, List.nodup_nil, fun t id => ?_, fun _ => List.nodup_nil⟩ <;> simp [Shop.empty, online]

/-- A reward of a type, off sale. -/
def lamp (id type : String) : Form :=
  ⟨id, "lamp", "10", "mahjong/static/lamp.png", "5", "0", "9", "1", "3", type, "", "", "", "", ""⟩

/-- A reward is offered, withdrawn, given another type, offered again and withdrawn. -/
def saleRun : List Req :=
  [.create (lamp "" "1"), .status "1", .status "1", .modify (lamp "1" "2"), .status "1", .delete "1", .status "1"]

theorem saleRun_kept : All step (fun r s => Shelf (step r s)) saleRun .empty := by
  refine (shelf_kept_iff .empty shelf_empty saleRun).2 ?_
  refine ⟨fun _ => ⟨?_, ?_⟩, trivial, trivial, fun _ => ?_, trivial, trivial, trivial, trivial⟩
  · decide +kernel
  · decide +kernel
  · decide +kernel

/-- A reward that is edited while it is on sale is off the common list, and still in the list of its old type. -/
theorem edited_on_sale :
    ¬All step (fun r s => Shelf (step r s)) [.create (lamp "" "1"), .status "1", .modify (lamp "1" "2")] .empty := by
  rintro ⟨-, -, h, -⟩
  have hin := (h.typed "1" "1").1 (by decide +kernel)
  revert hin
  decide +kernel

end FishWeb.Goods
