import FishWeb.Lib.Budget
import FishWeb.Lottery.Model
/-!
# What a pack holds, and what it pays

A pack fills up in three passes within its price: the least of each of its rewards, in
order, while the price lasts; some more of each but the last, by lot; and as many more of
the last as fit. Each pass buys within what is left (`Budget.Buys`), so no run puts more
into the pack than its price pays or than a reward may come (`pack_budget`).

The diamonds in the pack are credited after the second pass, which is left out where the
first has spent the price to the last. What is returned then has not been paid
(`award_pays_iff`).
-/
open Python Prog Counters Calendar Budget FishWeb.Common
open Dice (Draws)

namespace FishWeb.Lottery

/-! ## Packs -/

/-- `int(reward.get('baseRewardCount', '0'))`, of diamonds. -/
def gems (reward : RewardInfo) : Int :=
  if reward.type = some "diamonds" then (int (reward.baseRewardCount.getD "0")).getD 0 else 0

/-- What an element of a pack names: a reward, its price, and how many of it at least and at most. -/
structure Entry where
  reward : RewardInfo
  price : Int
  lo : Nat
  hi : Nat
  price_pos : 0 < price
  lo_le_hi : lo ≤ hi

namespace Entry

/-- How many more may come than must. -/
def room (e : Entry) : Nat := e.hi - e.lo

/-- The diamonds of one. -/
def gems (e : Entry) : Int := Lottery.gems e.reward

end Entry

/-- The element of a pack reads as the entry. -/
structure Resolves (rewards : Rewards) (singleData : Single) (e : Entry) : Prop where
  minCount : singleData.minCount = some (e.lo : Int)
  maxCount : singleData.maxCount = some (e.hi : Int)
  reward : rewards.table singleData.singleId = some e.reward
  /-- A pack within the pack has elements too. -/
  pack : e.reward.type = some "pack" → e.reward.singleData.isSome
  price : priceOf e.reward = .ok e.price
  count : e.reward.type = some "diamonds" → (int (e.reward.baseRewardCount.getD "0")).isSome

/-- The reward is a pack of that price with these entries. -/
structure PackOf (rewards : Rewards) (reward_info : RewardInfo) (price_total : Int) (es : List Entry) : Prop where
  price : priceOf reward_info = .ok price_total
  entries : ∃ singles, reward_info.singleData = some singles ∧ List.Forall₂ (Resolves rewards) singles es

/-- The pack with `ns` of the entries added. -/
def Pack.add (p : Pack) (es : List Entry) (ns : List Nat) : Pack :=
  ⟨p.price_total - cost Entry.price es ns, p.reward_num + cost Entry.gems es ns, p.ret_reward_list ++ bought Entry.reward es ns⟩

theorem exists_of_forall₂ {A B : Type} {R : A → B → Prop} {as : List A} {bs : List B} (h : List.Forall₂ R as bs) {b : B}
    (hb : b ∈ bs) : ∃ a ∈ as, R a b := by
  induction h with
  | nil => cases hb
  | cons hab h ih =>
    rcases List.mem_cons.1 hb with rfl | hb
    · exact ⟨_, List.mem_cons_self, hab⟩
    · obtain ⟨a, ha, hR⟩ := ih hb
      exact ⟨a, List.mem_cons_of_mem _ ha, hR⟩

section Passes
variable {s : St} {singleData : Single} {e : Entry} {singles : List Single} {es : List Entry} {p : Pack}

theorem pack_add_none (k : Nat) : p.add es (List.replicate k 0) = p := by
  simp [Pack.add, cost_zero, bought_zero]

theorem pack_add_cons (n : Nat) (ns : List Nat) : p.add (e :: es) (n :: ns) = (p.add [e] [n]).add es ns := by
  simp [Pack.add, Int.sub_sub, Int.add_assoc]

theorem pack_add_append {es' : List Entry} {ns ms : List Nat} (h : ns.length = es.length) :
    p.add (es ++ es') (ns ++ ms) = (p.add es ns).add es' ms := by
  simp [Pack.add, cost_append _ h, bought_append _ h, Int.sub_sub, Int.add_assoc]

theorem run_getRewardInfo (h : Resolves s.setup.rewards singleData e) :
    run (getRewardInfo singleData.singleId) s = (.ok (some e.reward), s) := by
  unfold getRewardInfo
  by_cases hpack : e.reward.type = some "pack"
  · have hsome := h.pack hpack
    simp [send, Exec.exec, h.reward, hpack, Option.isSome_iff_ne_none.1 hsome]
  · simp [send, Exec.exec, h.reward, hpack]

theorem diamonds_eq (h : Resolves s.setup.rewards singleData e) (n : Int) : diamonds e.reward n = .ok (e.gems * n) := by
  unfold diamonds Entry.gems gems
  by_cases htype : e.reward.type = some "diamonds"
  · obtain ⟨count, hcount⟩ := Option.isSome_iff_exists.1 (h.count htype)
    simp [htype, hcount]
  · simp [htype]

theorem extend_eq (h : Resolves s.setup.rewards singleData e) (n : Nat) :
    p.extend e.reward e.price n = .ok (p.add [e] [n]) := by
  rw [Pack.extend, diamonds_eq h]
  simp [Pack.add]

/-- The first pass buys the least of each. -/
theorem run_packMin (h : List.Forall₂ (Resolves s.setup.rewards) singles es) :
    run (packMin singles p) s = (.ok (p.add es (firsts Entry.price Entry.lo p.price_total es)), s) := by
  induction h generalizing p with
  | nil => simp [packMin, Pack.add]
  | @cons single e singles es hsingle h ih =>
    unfold packMin
    rw [hsingle.minCount, orRaise_some, ret_bind, run_bind_ok (run_getRewardInfo hsingle), orRaise_some, ret_bind,
      hsingle.price, ofExcept_ok, ret_bind]
    unfold firsts
    split
    · rw [pack_add_none]
      rfl
    · have hleft : (p.add [e] [e.lo]).price_total = p.price_total - e.price * e.lo := by simp [Pack.add]
      rw [extend_eq hsingle, ofExcept_ok, ret_bind, ih, hleft, ← pack_add_cons]

/-- How many more of an entry the price pays. -/
theorem run_singleCount (h : Resolves s.setup.rewards singleData e) {price_total : Int} (hprice : 0 ≤ price_total) :
    ∃ n : Nat, n ≤ e.room ∧ e.price * n ≤ price_total ∧
      run (singleCount singleData price_total) s = (.ok (e.reward, e.price, (n : Int)), s) := by
  have hpos := e.price_pos
  have hdiv : price_total.fdiv e.price = price_total / e.price := Int.fdiv_eq_ediv_of_nonneg _ hpos.le
  have hnonneg : 0 ≤ price_total / e.price := Int.ediv_nonneg hprice hpos.le
  have hpays : e.price * (price_total / e.price) ≤ price_total := Int.mul_ediv_self_le (ne_of_gt hpos)
  have hroom : (e.room : Int) = e.hi - e.lo := by
    have := e.lo_le_hi
    unfold Entry.room
    omega
  have hrun : run (singleCount singleData price_total) s = (.ok (e.reward, e.price,
      if price_total / e.price > e.hi - e.lo then (e.hi : Int) - e.lo else price_total / e.price), s) := by
    unfold singleCount
    rw [h.minCount, orRaise_some, ret_bind, h.maxCount, orRaise_some, ret_bind, run_bind_ok (run_getRewardInfo h),
      orRaise_some, ret_bind, h.price, ofExcept_ok, ret_bind, if_neg (ne_of_gt hpos), hdiv]
    rfl
  rw [← hroom] at hrun
  split at hrun
  · next hmany =>
    refine ⟨e.room, le_refl _, le_trans ?_ hpays, hrun⟩
    exact mul_le_mul_of_nonneg_left hmany.le hpos.le
  · next hfew =>
    refine ⟨(price_total / e.price).toNat, by omega, ?_, ?_⟩
    · rwa [Int.toNat_of_nonneg hnonneg]
    · rwa [Int.toNat_of_nonneg hnonneg]

/-- The second pass buys some more of each. -/
theorem run_packMore (rnd : Draws) (h : List.Forall₂ (Resolves s.setup.rewards) singles es) (hprice : 0 ≤ p.price_total) :
    ∃ ns b, Buys Entry.price Entry.room p.price_total es ns b ∧ run (packMore rnd singles p) s = (.ok (p.add es ns), s) := by
  induction h generalizing p with
  | nil => exact ⟨[], _, .nil _, by simp [packMore, Pack.add]⟩
  | @cons single e singles es hsingle h ih =>
    obtain ⟨count, hroom, hpays, hcount⟩ := run_singleCount hsingle hprice
    have hbuy : ∀ n : Nat, n ≤ count → e.price * n ≤ p.price_total := by
      intro n hn
      have hle : e.price * n ≤ e.price * count := mul_le_mul_of_nonneg_left (by exact_mod_cast hn) e.price_pos.le
      omega
    have hleft : ∀ n : Nat, (p.add [e] [n]).price_total = p.price_total - e.price * n := fun n => by simp [Pack.add]
    unfold packMore
    rw [run_bind_ok hcount]
    dsimp only
    split
    · next hnone =>
      -- nothing more of this entry
      obtain ⟨ns, b, hbuys, hrun⟩ := ih hprice
      refine ⟨0 :: ns, b, .cons (Nat.zero_le _) (hbuy 0 (Nat.zero_le _)) ?_, ?_⟩
      · rwa [Int.natCast_zero, mul_zero, Int.sub_zero]
      · have hsame : p.add [e] [0] = p := pack_add_none 1
        rw [pack_add_cons, hsame]
        exact hrun
    · have hlot : rnd (singles.length + 1) % (Int.toNat (count : Int) + 1) ≤ count := by
        rw [Int.toNat_natCast]
        exact Nat.le_of_lt_succ (Nat.mod_lt _ (Nat.succ_pos _))
      generalize rnd (singles.length + 1) % (Int.toNat (count : Int) + 1) = n at hlot
      obtain ⟨ns, b, hbuys, hrun⟩ := ih (p := p.add [e] [n]) (by rw [hleft]; have := hbuy n hlot; omega)
      rw [hleft] at hbuys
      refine ⟨n :: ns, b, .cons (le_trans hlot hroom) (hbuy n hlot) hbuys, ?_⟩
      rw [extend_eq hsingle, ofExcept_ok, ret_bind, hrun, ← pack_add_cons]

variable (singles) in
/-- As many more of the last as fit. -/
theorem run_packLast (h : Resolves s.setup.rewards singleData e) (hprice : 0 ≤ p.price_total) :
    ∃ n b, Buys Entry.price Entry.room p.price_total [e] [n] b ∧
      run (packLast (singles ++ [singleData]) p) s = (.ok (p.add [e] [n]), s) := by
  obtain ⟨n, hroom, hpays, hcount⟩ := run_singleCount h hprice
  refine ⟨n, _, .cons hroom hpays (.nil _), ?_⟩
  unfold packLast
  rw [List.getLast?_concat, orRaise_some, ret_bind, run_bind_ok hcount]
  dsimp only
  rw [extend_eq h]
  rfl

theorem forall₂_concat {A B : Type} {R : A → B → Prop} {as : List A} {bs : List B} {b : B} (h : List.Forall₂ R as (bs ++ [b])) :
    ∃ as' a, as = as' ++ [a] ∧ List.Forall₂ R as' bs ∧ R a b := by
  induction bs generalizing as with
  | nil =>
    cases h with
    | cons hab h =>
      cases h
      exact ⟨[], _, rfl, .nil, hab⟩
  | cons b' bs ih =>
    cases h with
    | cons hab h =>
      obtain ⟨as', a, rfl, hrest, hlast⟩ := ih h
      exact ⟨_ :: as', a, rfl, .cons hab hrest, hlast⟩

end Passes

/-! ## The three passes -/

section Pack
variable {s : St} {reward_info : RewardInfo} {price_total : Int} {es : List Entry}

/-- What the first pass buys. -/
abbrev least (price_total : Int) (es : List Entry) : List Nat := firsts Entry.price Entry.lo price_total es

/-- What is left after the first pass. -/
def leftover (price_total : Int) (es : List Entry) : Int := price_total - cost Entry.price es (least price_total es)

/-- The pack after the first pass. -/
def afterLeast (price_total : Int) (es : List Entry) : Pack :=
  ⟨leftover price_total es, cost Entry.gems es (least price_total es), bought Entry.reward es (least price_total es)⟩

/-- `givePack` from where the first pass has ended. -/
theorem run_givePack (rnd : Draws) {singles : List Single} (hprice : priceOf reward_info = .ok price_total)
    (hsingles : reward_info.singleData = some singles) (hentries : List.Forall₂ (Resolves s.setup.rewards) singles es) :
    run (givePack rnd reward_info) s = run (do
      if leftover price_total es ≤ 0 then return ⟨bought Entry.reward es (least price_total es), none, false⟩
      let p ← packMore rnd singles.dropLast (afterLeast price_total es)
      let p ← if p.price_total > 0 then packLast singles p else .ret p
      return ⟨p.ret_reward_list, if p.price_total ≥ 0 then some p.reward_num else none, false⟩ : Handler Given) s := by
  unfold givePack
  rw [hprice, ofExcept_ok, ret_bind, hsingles, orRaise_some, ret_bind, run_bind_ok (run_packMin hentries)]
  simp only [Pack.add, List.nil_append, Int.zero_add]
  rfl

/-- A pack whose price the first pass spends credits nothing. -/
theorem run_givePack_spent (rnd : Draws) (h : PackOf s.setup.rewards reward_info price_total es)
    (hleft : leftover price_total es ≤ 0) :
    run (givePack rnd reward_info) s = (.ok ⟨bought Entry.reward es (least price_total es), none, false⟩, s) := by
  obtain ⟨hprice, singles, hsingles, hentries⟩ := h
  rw [run_givePack rnd hprice hsingles hentries, if_pos hleft]
  rfl

/-- What the last two passes do. -/
theorem run_givePack_more (rnd : Draws) (h : PackOf s.setup.rewards reward_info price_total es) (hes : es ≠ [])
    (hleft : 0 < leftover price_total es) :
    ∃ more b, Buys Entry.price Entry.room (leftover price_total es) es more b ∧
      run (givePack rnd reward_info) s = (.ok ⟨bought Entry.reward es (least price_total es) ++ bought Entry.reward es more,
        some (cost Entry.gems es (least price_total es) + cost Entry.gems es more), false⟩, s) := by
  obtain ⟨hprice, singles, hsingles, hentries⟩ := h
  rw [run_givePack rnd hprice hsingles hentries, if_neg (Int.not_le.2 hleft)]
  generalize hp : afterLeast price_total es = p
  have hbudget : p.price_total = leftover price_total es := by rw [← hp, afterLeast]
  obtain ⟨init, e, rfl⟩ := (List.eq_nil_or_concat' es).resolve_left hes
  obtain ⟨singles, singleData, rfl, hinit, hlast⟩ := forall₂_concat hentries
  obtain ⟨ns, b, hbuys, hmore⟩ := run_packMore rnd hinit (p := p) (by omega)
  have hb : (p.add init ns).price_total = b := by rw [hbuys.left, Pack.add]
  have hnonneg : 0 ≤ b := hbuys.nonneg (by omega)
  -- what the last pass buys, which is left out where nothing is left
  obtain ⟨n, b', hone, hrest⟩ : ∃ n b', Buys Entry.price Entry.room b [e] [n] b' ∧ ∀ k : Pack → Handler Given,
      run (if (p.add init ns).price_total > 0 then packLast (singles ++ [singleData]) (p.add init ns) >>= k
        else .ret (p.add init ns) >>= k) s = run (k ((p.add init ns).add [e] [n])) s := by
    by_cases hpos : (p.add init ns).price_total > 0
    · obtain ⟨n, b', hone, hrun⟩ := run_packLast singles hlast hpos.le
      exact ⟨n, b', hb ▸ hone, fun k => by rw [if_pos hpos, run_bind_ok hrun]⟩
    · refine ⟨0, b, buys_none hnonneg [e], fun k => ?_⟩
      have hsame : (p.add init ns).add [e] [0] = p.add init ns := pack_add_none 1
      rw [if_neg hpos, hsame]
      rfl
  have hb' : ((p.add init ns).add [e] [n]).price_total = b' := by rw [hone.left, Pack.add, hb]
  have hall := hbuys.append hone
  refine ⟨ns ++ [n], b', hbudget ▸ hall, ?_⟩
  rw [List.dropLast_concat, run_bind_ok hmore]
  refine (hrest _).trans ?_
  dsimp only
  rw [if_pos (hb'.symm ▸ hone.nonneg hnonneg), ← pack_add_append hbuys.length, ← hp]
  rfl

/-- A pack without entries, whose price is not spent. -/
theorem run_givePack_empty (rnd : Draws) (h : PackOf s.setup.rewards reward_info price_total []) (hprice : 0 < price_total) :
    run (givePack rnd reward_info) s = (.error .IndexError, s) := by
  obtain ⟨hread, singles, hsingles, hentries⟩ := h
  have hleft : 0 < leftover price_total [] := by simpa [leftover] using hprice
  cases hentries
  rw [run_givePack rnd hread hsingles .nil, if_neg (Int.not_le.2 hleft)]
  have hpos : (afterLeast price_total []).price_total > 0 := hleft
  simp [packMore, packLast, hpos]

/-- A pack credits nothing, or all that is in it; either way it holds the least that its price pays, and some more. -/
theorem givePack_cases (rnd : Draws) (h : PackOf s.setup.rewards reward_info price_total es) {r : Except Err Given} {s' : St}
    (hrun : run (givePack rnd reward_info) s = (r, s')) : s' = s ∧
    ((leftover price_total es ≤ 0 ∧ r = .ok ⟨bought Entry.reward es (least price_total es), none, false⟩) ∨
      (0 < leftover price_total es ∧ es ≠ [] ∧ ∃ more b, Buys Entry.price Entry.room (leftover price_total es) es more b ∧
        r = .ok ⟨bought Entry.reward es (least price_total es) ++ bought Entry.reward es more,
          some (cost Entry.gems es (least price_total es) + cost Entry.gems es more), false⟩) ∨
      (es = [] ∧ r = .error .IndexError)) := by
  by_cases hleft : leftover price_total es ≤ 0
  · rw [run_givePack_spent rnd h hleft] at hrun
    cases hrun
    exact ⟨rfl, .inl ⟨hleft, rfl⟩⟩
  rw [Int.not_le] at hleft
  by_cases hes : es = []
  · subst hes
    have hprice : 0 < price_total := by simpa [leftover] using hleft
    rw [run_givePack_empty rnd h hprice] at hrun
    cases hrun
    exact ⟨rfl, .inr (.inr ⟨rfl, rfl⟩)⟩
  · obtain ⟨more, b, hbuys, hmore⟩ := run_givePack_more rnd h hes hleft
    rw [hmore] at hrun
    cases hrun
    exact ⟨rfl, .inr (.inl ⟨hleft, hes, more, b, hbuys, rfl⟩)⟩

end Pack

/-! ## What is returned -/

section Award
variable {s s' : St} {consts : Consts} {rnd : Draws} {now : Date} {acid account userTable : String}
  {groupId nickname : Option String} {pos : Int} {reward_info : RewardInfo} {reply : Reply}

theorem run_decrActiveRewardNum (acid reid : String) (s : St) :
    ∃ stock, run (decrActiveRewardNum acid reid) s = (.ok (), { s with stock := stock }) := by
  unfold decrActiveRewardNum
  cases hexists : (s.stock (acid, reid)).isSome with
  | false => exact ⟨s.stock, by simp [send, Exec.exec, hexists]⟩
  | true => exact ⟨incrby s.stock (acid, reid) (-1), by simp [send, Exec.exec, hexists, eqZero]⟩

/-- A draw that returns has returned what the reward comes to, and credited what it says. -/
theorem award_ok (hread : (run (give rnd reward_info) s).2 = s)
    (h : run (award consts rnd now acid account userTable groupId nickname pos reward_info) s = (.ok reply, s')) :
    ∃ id given, (split ':' userTable)[1]? = some id ∧ run (give rnd reward_info) s = (.ok given, s) ∧
      (∃ record, reply.data = some (pos, given.ret_reward_list.map (⟨·, none⟩) ++
        if given.isRecord then [⟨reward_info, some record⟩] else [])) ∧
      s'.card = incrAll (given.cards.toList.map fun cards => ((fmt groupId, id), cards)) s.card := by
  unfold award at h
  cases hid : (split ':' userTable)[1]? with
  | none =>
    rw [hid] at h
    cases h
  | some id =>
  rw [hid, orRaise_some, ret_bind] at h
  obtain ⟨r, hgive⟩ : ∃ r, run (give rnd reward_info) s = (r, s) := ⟨_, Prod.ext rfl hread⟩
  cases r with
  | error e =>
    rw [run_bind_error hgive] at h
    cases h
  | ok given =>
  obtain ⟨stock, hdecr⟩ := run_decrActiveRewardNum acid reward_info.id s
  rw [run_bind_ok hgive, run_bind_ok hdecr] at h
  refine ⟨id, given, rfl, hgive, ?_⟩
  cases htitle : reward_info.title with
  | none =>
    rw [htitle] at h
    cases h
  | some rewardTitle =>
  cases hnum : int (reward_info.baseRewardCount.getD "1") with
  | none =>
    rw [htitle, hnum] at h
    cases h
  | some rewardNum =>
  rw [htitle, hnum] at h
  cases hrecord : given.isRecord with
  | false =>
    simp only [hrecord] at h
    cases h
    exact ⟨⟨⟨0, "", ""⟩, rfl⟩, rfl⟩
  | true =>
    simp only [hrecord] at h
    cases h
    exact ⟨⟨_, rfl⟩, rfl⟩

/-- What a reward comes to is looked up. -/
theorem run_give_snd {price_total : Int} {es : List Entry}
    (hpack : reward_info.type = some "pack" → PackOf s.setup.rewards reward_info price_total es) :
    (run (give rnd reward_info) s).2 = s := by
  unfold give
  split
  · cases diamonds reward_info 1 with
    | error e => rfl
    | ok cardNums => rfl
  split
  · next htype => exact (givePack_cases rnd (hpack htype) rfl).1
  split
  · cases reward_info.isRecord with
    | none => rfl
    | some isRecord => rfl
  · rfl

theorem give_pack (htype : reward_info.type = some "pack") : give rnd reward_info = givePack rnd reward_info := by
  unfold give
  rw [htype, if_neg (by decide), if_pos rfl]

/-- What is not handed over is returned as it is. -/
theorem map_info (l : List RewardInfo) (prizes : List Prize) :
    ((l.map (⟨·, none⟩) ++ if false then prizes else []) : List Prize).map Prize.info = l := by
  rw [if_neg Bool.false_ne_true, List.append_nil, List.map_map]
  exact List.map_id l

/-- The price of a reward. -/
def listPrice (reward : RewardInfo) : Int :=
  match priceOf reward with
  | .ok price => price
  | .error _ => 0

/-- The rewards are `first` of the entries and then `more` of them, within the price of the pack and the limits of each
entry. -/
structure Fills (price_total : Int) (es : List Entry) (l : List RewardInfo) (first more : List Nat) : Prop where
  list : l = bought Entry.reward es first ++ bought Entry.reward es more
  /-- However far the pack has been filled. -/
  paid : ∀ l', l' <+: l → (l'.map listPrice).sum ≤ price_total
  most : List.Forall₂ (fun n e => n ≤ e.hi) (first.zipWith (· + ·) more) es
  least : cost Entry.price es (es.map Entry.lo) ≤ price_total → List.Forall₂ (fun n e => e.lo ≤ n) (first.zipWith (· + ·) more) es

section Fills
variable {price_total : Int} {es : List Entry}

theorem fills_of (h : PackOf s.setup.rewards reward_info price_total es) (hprice : 0 ≤ price_total) {more : List Nat} {b : Int}
    (hmore : Buys Entry.price Entry.room (leftover price_total es) es more b) :
    Fills price_total es (bought Entry.reward es (least price_total es) ++ bought Entry.reward es more)
      (least price_total es) more := by
  have hfirst : Buys Entry.price Entry.lo price_total es (least price_total es) (leftover price_total es) := buys_firsts hprice
  have hleft : 0 ≤ leftover price_total es - cost Entry.price es more := hmore.left ▸ hmore.nonneg (hfirst.nonneg hprice)
  obtain ⟨-, singles, -, hentries⟩ := h
  have hlist : ∀ e ∈ es, listPrice e.reward = e.price := by
    intro e he
    obtain ⟨single, -, hsingle⟩ := exists_of_forall₂ hentries he
    rw [listPrice, hsingle.price]
  have hpos : ∀ reward ∈ bought Entry.reward es (least price_total es) ++ bought Entry.reward es more, 0 ≤ listPrice reward := by
    intro reward hreward
    obtain ⟨e, he, rfl⟩ := (List.mem_append.1 hreward).elim mem_bought mem_bought
    exact hlist e he ▸ e.price_pos.le
  refine ⟨rfl, ?_, ?_, fun hall => ?_⟩
  · rintro l' ⟨t, ht⟩
    have htotal : (l'.map listPrice).sum + (t.map listPrice).sum =
        cost Entry.price es (least price_total es) + cost Entry.price es more := by
      rw [← List.sum_append, ← List.map_append, ht, List.map_append, List.sum_append, sum_bought, sum_bought,
        cost_congr hlist, cost_congr hlist]
    have htail : 0 ≤ (t.map listPrice).sum := by
      refine List.sum_nonneg fun n hn => ?_
      obtain ⟨reward, hreward, rfl⟩ := List.mem_map.1 hn
      exact hpos reward (ht ▸ List.mem_append_right l' hreward)
    unfold leftover at hleft
    omega
  · refine (hfirst.le_add hmore).imp fun n e hle => ?_
    have hlo := e.lo_le_hi
    unfold Entry.room at hle
    omega
  · rw [least, firsts_eq_map (fun e _ => e.price_pos.le) hall]
    exact le_map_add Entry.lo hmore.length

/-- What a pack returns fills it. -/
theorem pack_budget (h : PackOf s.setup.rewards reward_info price_total es) (hprice : 0 ≤ price_total)
    (htype : reward_info.type = some "pack") :
    (es ≠ [] → ∃ given, run (givePack rnd reward_info) s = (.ok given, s)) ∧ ∀ reply s',
      run (award consts rnd now acid account userTable groupId nickname pos reward_info) s = (.ok reply, s') →
      ∃ prizes first more, reply.data = some (pos, prizes) ∧ Fills price_total es (prizes.map Prize.info) first more := by
  refine ⟨fun hes => ?_, fun reply s' hrun => ?_⟩
  · cases hgive : run (givePack rnd reward_info) s with
    | mk r s' =>
    obtain ⟨rfl, ⟨-, rfl⟩ | ⟨-, -, more, b, -, rfl⟩ | ⟨hempty, -⟩⟩ := givePack_cases rnd h hgive
    · exact ⟨_, rfl⟩
    · exact ⟨_, rfl⟩
    · exact absurd hempty hes
  · obtain ⟨id, given, -, hgive, ⟨record, hdata⟩, -⟩ := award_ok (run_give_snd fun _ => h) hrun
    rw [give_pack htype] at hgive
    obtain ⟨-, ⟨-, hr⟩ | ⟨-, -, more, b, hmore, hr⟩ | ⟨-, hr⟩⟩ := givePack_cases rnd h hgive
    · obtain rfl := Except.ok.inj hr
      have hnone := fills_of h hprice (buys_none ((buys_firsts hprice).nonneg hprice) es)
      rw [bought_zero, List.append_nil] at hnone
      exact ⟨_, _, _, hdata, by rw [map_info]; exact hnone⟩
    · obtain rfl := Except.ok.inj hr
      exact ⟨_, _, _, hdata, by rw [map_info]; exact fills_of h hprice hmore⟩
    · cases hr

end Fills

/-! ## What is paid -/

/-- The diamonds that the user of the table gets in his guild. -/
def credited (s s' : St) (groupId : Option String) (userTable : String) : Int :=
  let key := (fmt groupId, (split ':' userTable)[1]?.getD "")
  val s'.card key - val s.card key

/-- The diamonds that the reply shows. -/
def Reply.shown (reply : Reply) : Int :=
  match reply.data with
  | some (_, prizes) => (prizes.map fun prize => gems prize.info).sum
  | none => 0

/-- The least of some entries from the front costs all of the price, and has diamonds in it. -/
def Spent (price_total : Int) (es : List Entry) : Prop :=
  ∃ pre post, es = pre ++ post ∧ cost Entry.price pre (pre.map Entry.lo) = price_total ∧
    cost Entry.gems pre (pre.map Entry.lo) ≠ 0

section Paid
variable {price_total : Int} {es : List Entry}

theorem spent_iff : Spent price_total es ↔ leftover price_total es = 0 ∧ cost Entry.gems es (least price_total es) ≠ 0 := by
  have hpos : ∀ e ∈ es, 0 < e.price := fun e _ => e.price_pos
  have hleft : leftover price_total es = 0 ↔ cost Entry.price es (least price_total es) = price_total := by
    unfold leftover
    omega
  rw [hleft]
  constructor
  · rintro ⟨pre, post, rfl, hpre, hgems⟩
    refine ⟨(cost_firsts_eq_iff hpos).2 ⟨pre, post, rfl, hpre⟩, ?_⟩
    rwa [least, firsts_append hpos hpre, cost_append _ (List.length_map _), cost_zero, Int.add_zero]
  · rintro ⟨hspent, hgems⟩
    obtain ⟨pre, post, rfl, hpre⟩ := (cost_firsts_eq_iff hpos).1 hspent
    refine ⟨pre, post, rfl, hpre, ?_⟩
    rwa [least, firsts_append hpos hpre, cost_append _ (List.length_map _), cost_zero, Int.add_zero] at hgems

/-- A reward that is no pack pays what it shows. -/
theorem give_pays {given : Given} (htype : reward_info.type ≠ some "pack") (h : run (give rnd reward_info) s = (.ok given, s)) :
    given.cards.getD 0 = (given.ret_reward_list.map gems).sum + if given.isRecord then gems reward_info else 0 := by
  unfold give at h
  split at h
  · next hdiamonds =>
    rw [diamonds, if_pos hdiamonds] at h
    have hgems : gems reward_info = (int (reward_info.baseRewardCount.getD "0")).getD 0 := if_pos hdiamonds
    cases hcount : int (reward_info.baseRewardCount.getD "0") with
    | none =>
      rw [hcount] at h
      cases h
    | some count =>
      rw [hcount] at h hgems
      simp only [mul_one, ofExcept_ok, ret_bind] at h
      split at h
      · cases h
        simp [hgems]
      · cases h
        rfl
  next hdiamonds =>
  have hgems : gems reward_info = 0 := if_neg hdiamonds
  split at h
  · cases hrecord : reward_info.isRecord with
    | none =>
      rw [hrecord] at h
      cases h
    | some isRecord =>
      rw [hrecord] at h
      cases h
      simp [hgems]
  · cases h
    simp [hgems]

/-- A draw pays what it shows, unless its reward is a pack whose price is spent by what must be in it. -/
theorem award_pays_iff (hpack : reward_info.type = some "pack" → PackOf s.setup.rewards reward_info price_total es)
    (h : run (award consts rnd now acid account userTable groupId nickname pos reward_info) s = (.ok reply, s')) :
    credited s s' groupId userTable = reply.shown ↔ ¬(reward_info.type = some "pack" ∧ Spent price_total es) := by
  obtain ⟨id, given, hid, hgive, ⟨record, hdata⟩, hcard⟩ := award_ok (run_give_snd hpack) h
  have hcredited : credited s s' groupId userTable = given.cards.getD 0 := by
    unfold credited
    rw [hcard, hid]
    cases given.cards <;> simp [val_incrby]
  have hshown : reply.shown = (given.ret_reward_list.map gems).sum + if given.isRecord then gems reward_info else 0 := by
    unfold Reply.shown
    rw [hdata]
    cases given.isRecord <;> simp [Function.comp_def]
  rw [hcredited, hshown]
  by_cases htype : reward_info.type = some "pack"
  swap
  · exact iff_of_true (give_pays htype hgive) fun h => htype h.1
  rw [give_pack htype] at hgive
  rw [spent_iff]
  obtain ⟨-, ⟨hleft, hr⟩ | ⟨hleft, -, more, b, -, hr⟩ | ⟨-, hr⟩⟩ := givePack_cases rnd (hpack htype) hgive
  · -- nothing is credited of what is in the pack
    obtain rfl := Except.ok.inj hr
    have hsum : ((bought Entry.reward es (least price_total es)).map gems).sum = cost Entry.gems es (least price_total es) :=
      sum_bought ..
    have howes : leftover price_total es < 0 → cost Entry.gems es (least price_total es) = 0 := by
      intro hneg
      have hprice : price_total < 0 := by
        by_contra hprice
        exact absurd ((buys_firsts (Int.not_lt.1 hprice)).nonneg (Int.not_lt.1 hprice)) (Int.not_le.2 hneg)
      rw [least, firsts_neg (fun e _ => e.price_pos) hprice, cost_zero]
    simp only [hsum, Option.getD_none, Bool.false_eq_true, if_false, Int.add_zero, htype, true_and]
    constructor
    · exact fun hzero h => h.2 hzero.symm
    · intro h
      by_cases hzero : leftover price_total es = 0
      · exact (not_not.1 fun hne => h ⟨hzero, Ne.symm hne⟩)
      · exact (howes (by omega)).symm
  · obtain rfl := Except.ok.inj hr
    refine iff_of_true ?_ fun h => absurd h.2.1 (by omega)
    rw [Option.getD_some, if_neg Bool.false_ne_true, Int.add_zero, List.map_append, List.sum_append, sum_bought, sum_bought]
    rfl
  · cases hr

end Paid

end Award

/-! ## A pack of diamonds -/

/-- Seven diamonds, which cost ten. -/
def demoDiamonds : RewardInfo := ⟨"6", some "diamonds", some "diamonds", some "7", some "10", none, none⟩

/-- A pack of two or three times seven diamonds. -/
def demoPack (priceTotal : String) : RewardInfo :=
  ⟨"5", some "pack", some "pack", none, some priceTotal, none, some [⟨"6", some 2, some 3⟩]⟩

/-- A user with one chance, in an activity with one reward, a pack of that price. -/
def demoPacked (priceTotal : String) : St where
  setup := {
    shared := {
      session := fun sid => if sid = "s" then some ("a", "1") else none
      platform := fun _ => none
      kick := fun _ => false
      userTable := fun account => if account = "a" then some "users:1" else none
      isUser := fun userTable => userTable = "users:1"
      active := fun _ => none }
    parentAg := fun _ => some "9"
    nickname := fun _ => none
    activice := fun acid => if acid = "7" then some ⟨some "1", [⟨"5", some 100, some 0⟩], []⟩ else none
    rewards := {
      table := fun k => if k = "5" then some (demoPack priceTotal) else if k = "6" then some demoDiamonds else none
      id_eq := fun k r h => by
        split at h
        · next hk =>
          cases h
          exact hk.symm
        split at h
        · next hk =>
          cases h
          exact hk.symm
        · cases h } }
  num := fun k => if k = ("7", "a") then some 1 else none
  count := fun _ => none
  stock := fun _ => none
  card := fun _ => none
  awardeesCount := 0
  awardees := fun _ => none
  awardeesList := fun _ => []
  noreward := fun _ => none

theorem demo_day_valid : 1 ≤ 2024 ∧ 1 < Calendar.yearDays 2024 := by decide

def demoDay : Date := ⟨2024, 1, demo_day_valid⟩

/-- A draw of that user. -/
def demoDraw (priceTotal : String) : Except Err Reply × St :=
  run (drawReward ⟨"1", "/hall"⟩ (fun _ => 0) demoDay "s_7") (demoPacked priceTotal)

/-- A pack for twenty shows fourteen diamonds, and none is credited. -/
theorem pack_unpaid : (demoDraw "20").1.toOption.map Reply.shown = some 14 ∧
    credited (demoPacked "20") (demoDraw "20").2 (some "9") "users:1" = 0 := by
  decide +kernel

def demoEntry : Entry := ⟨demoDiamonds, 10, 2, 3, by decide, by decide⟩

theorem demo_packOf : PackOf (demoPacked "25").setup.rewards (demoPack "25") 25 [demoEntry] where
  price := by decide +kernel
  entries := by
    refine ⟨_, rfl, .cons ⟨rfl, rfl, rfl, fun h => ?_, ?_, fun _ => ?_⟩ .nil⟩
    · exact absurd h (by decide)
    · decide +kernel
    · decide +kernel

/-- That pack is won. -/
def demoAward : Except Err Reply × St :=
  run (award ⟨"1", "/hall"⟩ (fun _ => 0) demoDay "7" "a" "users:1" (some "9") none 0 (demoPack "25")) (demoPacked "25")

theorem exists_ok {x : Except Err Reply × St} (h : x.1.toOption.isSome = true) : ∃ reply s', x = (.ok reply, s') := by
  obtain ⟨r, s'⟩ := x
  cases r with
  | error e => cases h
  | ok reply => exact ⟨reply, s', rfl⟩

/-- A pack for twenty-five pays what it shows. -/
theorem pack_paid : ∃ reply s', demoAward = (.ok reply, s') ∧
    credited (demoPacked "25") s' (some "9") "users:1" = reply.shown := by
  obtain ⟨reply, s', h⟩ := exists_ok (x := demoAward) (by decide +kernel)
  refine ⟨reply, s', h, (award_pays_iff (fun _ => demo_packOf) h).2 fun hspent => ?_⟩
  exact absurd (spent_iff.1 hspent.2).1 (by decide +kernel)

/-- It holds the two that it must. -/
theorem pack_budget_two : ∃ reply s' prizes first more, demoAward = (.ok reply, s') ∧ reply.data = some (0, prizes) ∧
    Fills 25 [demoEntry] (prizes.map Prize.info) first more := by
  obtain ⟨reply, s', h⟩ := exists_ok (x := demoAward) (by decide +kernel)
  obtain ⟨prizes, first, more, hdata, hfills⟩ := (pack_budget demo_packOf (by decide) rfl).2 reply s' h
  exact ⟨reply, s', prizes, first, more, h, hdata, hfills⟩

end FishWeb.Lottery
