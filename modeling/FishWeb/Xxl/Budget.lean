import Mathlib.Algebra.BigOperators.Group.Finset.Piecewise
import FishWeb.Xxl.Honour
import FishWeb.Lib.Runs
/-!
# The honour budget

A round in honour moves its prize from the user's `sHonor_Surplus` to
`sHonor_Converted`, and the same amount between the totals. The books balance in
every run. The surplus stays non-negative where the budget covers what the pieces of
the board can win: the check before the board is drawn compares it with a hundredth of
the stakes, without the odds.
-/
open Python Prog Counters Runs Dice

namespace FishWeb.Xxl

/-- The store after a round. -/
def step (req : Req) (s : St) : St := (run (xiaoxiaoleRun req) s).2

/-- A round, with the groups that a board by chance has, and the numbers that the choices of a board made to order
come up with. -/
structure Play where
  uid : String
  bets : Option Bets
  chance : Option (List Group)
  draws : Draws
  now : Clock

/-- The groups of the board that the round is played on. -/
def Play.board (p : Play) (s : St) : Option (List Group) :=
  p.bets.bind fun bets =>
    match moneyTypeOf s p.uid bets with
    | .GOLD => p.chance
    | .HONOR => (mathsBoard bets p.draws).toOption.map Prod.fst

def Play.req (p : Play) (s : St) : Req := ⟨p.uid, p.bets, p.board s, p.now⟩

def play (p : Play) (s : St) : St := step (p.req s) s

/-- The checks of the round pass, and it is to be settled in honour. -/
structure InHonour (p : Play) (s : St) (bets : Bets) (odds : OddsTable) : Prop where
  user : s.users p.uid = true
  parsed : p.bets = some bets
  funds : ∃ gold, s.hash (coin p.uid) = some gold ∧ bets.values.sum ≤ gold
  odds : s.odds = some odds
  settled : moneyTypeOf s p.uid bets = .HONOR

/-- The budget covers what the pieces of the board can win. -/
def Affordable (p : Play) (s : St) : Prop :=
  ∀ bets odds, InHonour p s bets odds → payable odds bets ≤ val s.hash (surplus p.uid)

/-- What a round does to the budgets: `n` moves from surplus to converted, for its user and in total. -/
structure Moves (req : Req) (n : Int) (s s' : St) : Prop where
  user_surplus : ∀ uid, val s'.hash (surplus uid) = val s.hash (surplus uid) - if uid = req.uid then n else 0
  user_converted : ∀ uid, val s'.hash (converted uid) = val s.hash (converted uid) + if uid = req.uid then n else 0
  total_surplus : val s'.hash totalSurplus = val s.hash totalSurplus - n
  total_converted : val s'.hash totalConverted = val s.hash totalConverted + n

theorem net_budget (now : Clock) (uid : String) (money : MoneyType) (total win : Int) {f : Field}
    (hf : f.1.isRecord = false) (hu : ∀ uid, f.1 ≠ .user uid) :
    net (increments now uid money total win) f = if money = .HONOR then net (honorTradePipe now uid win) f else 0 := by
  obtain ⟨hr, hp⟩ := net_records now total win money uid hf
  have hne : ∀ k, (Key.user uid, k) ≠ f := fun k he => hu uid (he ▸ rfl)
  simp only [increments, coin, net_cons, net_append, net_nil, hr, hp, hne, if_false]
  cases money <;> simp

/-- A round moves the prize it is settled for in honour, and nothing otherwise. -/
theorem step_moves (req : Req) (s : St) :
    ∃ n, Moves req n s (step req s) ∧
      (n = 0 ∨ ∃ bets datas, Accepts req s bets .HONOR datas ∧ n = (datas.map Rep.score).sum) := by
  have hval : ∀ f, val (step req s).hash f = val s.hash f + net (trace (Field × Int) (xiaoxiaoleRun req) s) f := by
    intro f
    rw [step, run_hash, val_incrAll]
  rcases round_cases req s with ⟨bets, money, datas, g, h, hacc, -, htr⟩ | ⟨-, htr⟩
  · have hnet : ∀ {f : Field}, f.1.isRecord = false → (∀ uid, f.1 ≠ .user uid) → val (step req s).hash f =
        val s.hash f + if money = .HONOR then net (honorTradePipe req.now req.uid (datas.map Rep.score).sum) f else 0 := by
      intro f hf hu
      rw [hval, htr, net_budget _ _ _ _ _ hf hu]
    cases hm : money with
    | GOLD =>
      refine ⟨0, ⟨fun uid => ?_, fun uid => ?_, ?_, ?_⟩, .inl rfl⟩ <;>
        rw [hnet rfl (by simp [surplus, converted, totalSurplus, totalConverted])] <;> simp [hm]
    | HONOR =>
      refine ⟨(datas.map Rep.score).sum, ⟨fun uid => ?_, fun uid => ?_, ?_, ?_⟩, .inr ⟨bets, datas, hm ▸ hacc, rfl⟩⟩
      · rw [hnet rfl (by simp [surplus])]
        simp [hm, honorTradePipe, surplus, converted, totalSurplus, totalConverted, eq_comm (a := uid)]
        split <;> omega
      · rw [hnet rfl (by simp [converted])]
        simp [hm, honorTradePipe, surplus, converted, totalSurplus, totalConverted, eq_comm (a := uid)]
      · rw [hnet rfl (by simp [totalSurplus])]
        simp [hm, honorTradePipe, surplus, converted, totalSurplus, totalConverted]
        omega
      · rw [hnet rfl (by simp [totalConverted])]
        simp [hm, honorTradePipe, surplus, converted, totalSurplus, totalConverted]
  · refine ⟨0, ⟨fun uid => ?_, fun uid => ?_, ?_, ?_⟩, .inl rfl⟩ <;> rw [hval, htr] <;> simp

/-- A round that is accepted in honour is played on a board made to order. -/
theorem accepts_le {p : Play} {s : St} {bets : Bets} {datas : List Rep} (h : Accepts (p.req s) s bets .HONOR datas) :
    ∃ odds, InHonour p s bets odds ∧ (datas.map Rep.score).sum ≤ payable odds bets := by
  obtain ⟨odds, board, hodds, hboard, hd⟩ := h.scored
  have hparsed : p.bets = some bets := h.parsed
  have hsettled : moneyTypeOf s p.uid bets = .HONOR := h.settled.symm
  have hmaths := h.maths rfl
  obtain ⟨l, planted, canvas, results, σ', -, -, hdraw⟩ := run_mathsBoard hmaths p.draws
  have hgroups : results.map (fun _result => (⟨_result.type, _result.len⟩ : Group)) = board := by
    have hdrawn : p.board s = some board := hboard
    rw [Play.board, hparsed, Option.bind_some, hsettled] at hdrawn
    simpa [hdraw, Except.toOption] using hdrawn
  subst hgroups
  exact ⟨odds, ⟨h.user, hparsed, h.funds, hodds, hsettled⟩, wins_le hmaths hdraw hd⟩

/-! ## Along a run -/

/-- The books of a run of rounds from `s` to `s'`. -/
structure Balanced (ps : List Play) (s s' : St) : Prop where
  user : ∀ uid, val s'.hash (surplus uid) + val s'.hash (converted uid) =
    val s.hash (surplus uid) + val s.hash (converted uid)
  /-- over any users that include the players of the run -/
  total : ∀ F : Finset String, (∀ p ∈ ps, p.uid ∈ F) →
    val s'.hash totalSurplus - val s.hash totalSurplus =
      ∑ uid ∈ F, (val s'.hash (surplus uid) - val s.hash (surplus uid)) ∧
    val s'.hash totalConverted - val s.hash totalConverted =
      ∑ uid ∈ F, (val s'.hash (converted uid) - val s.hash (converted uid))

theorem Moves.balanced {p : Play} {req : Req} {n : Int} {s s' : St} (hu : req.uid = p.uid) (h : Moves req n s s') :
    Balanced [p] s s' := by
  refine ⟨fun uid => ?_, fun F hF => ?_⟩
  · rw [h.user_surplus, h.user_converted]
    omega
  · have hin : req.uid ∈ F := hu ▸ hF p (by simp)
    simp only [h.user_surplus, h.user_converted, h.total_surplus, h.total_converted]
    constructor
    · have : ∀ uid ∈ F, val s.hash (surplus uid) - (if uid = req.uid then n else 0) - val s.hash (surplus uid) =
          if uid = req.uid then -n else 0 := fun uid _ => by split <;> omega
      rw [Finset.sum_congr rfl this, Finset.sum_ite_eq' F req.uid, if_pos hin]
      omega
    · have : ∀ uid ∈ F, val s.hash (converted uid) + (if uid = req.uid then n else 0) - val s.hash (converted uid) =
          if uid = req.uid then n else 0 := fun uid _ => by omega
      rw [Finset.sum_congr rfl this, Finset.sum_ite_eq' F req.uid, if_pos hin]
      omega

theorem Balanced.trans {ps ps' : List Play} {s s' s'' : St} (h : Balanced ps s s') (h' : Balanced ps' s' s'') :
    Balanced (ps ++ ps') s s'' := by
  refine ⟨fun uid => (h'.user uid).trans (h.user uid), fun F hF => ?_⟩
  obtain ⟨hs, hc⟩ := h.total F fun p hp => hF p (List.mem_append_left _ hp)
  obtain ⟨hs', hc'⟩ := h'.total F fun p hp => hF p (List.mem_append_right _ hp)
  rw [Finset.sum_sub_distrib] at hs hc hs' hc' ⊢
  rw [Finset.sum_sub_distrib]
  constructor <;> omega

theorem balanced_after (ps : List Play) (s : St) : Balanced ps s (after play ps s) := by
  induction ps generalizing s with
  | nil => exact ⟨fun _ => rfl, fun F _ => by simp⟩
  | cons p ps ih =>
    obtain ⟨n, hn, -⟩ := step_moves (p.req s) s
    exact (hn.balanced rfl).trans (ih (play p s))

theorem play_nonneg (p : Play) (s : St) (haff : Affordable p s) (h : ∀ uid, 0 ≤ val s.hash (surplus uid)) :
    ∀ uid, 0 ≤ val (play p s).hash (surplus uid) := by
  intro uid
  obtain ⟨n, hn, hzero | ⟨bets, datas, hacc, rfl⟩⟩ := step_moves (p.req s) s
  · rw [play, hn.user_surplus, hzero]
    simpa using h uid
  · obtain ⟨odds, hin, hle⟩ := accepts_le hacc
    have hbudget := haff bets odds hin
    rw [play, hn.user_surplus]
    split
    · rename_i hu
      have huid : uid = p.uid := hu
      subst huid
      omega
    · simpa using h uid

/-- In every run of rounds of any users the books balance; and from non-negative budgets every surplus stays
non-negative if each round in honour is affordable. -/
theorem budget_kept (s : St) (hs : ∀ uid, 0 ≤ val s.hash (surplus uid)) (ps : List Play) :
    Balanced ps s (after play ps s) ∧
      (All play Affordable ps s → ∀ uid, 0 ≤ val (after play ps s).hash (surplus uid)) :=
  ⟨balanced_after ps s, fun hg => after_inv (I := fun s' => ∀ uid, 0 ≤ val s'.hash (surplus uid)) play_nonneg hg hs⟩

/-! ## A budget of three, and of one -/

/-- A user with 1000 coins and a budget of `n`. Five of type 1 pay threefold. -/
def honourSt (n : Int) : St where
  hash f := if f = coin "u" then some 1000 else if f = surplus "u" then some n else none
  users uid := uid = "u"
  odds := some fun type => if type = 1 then some fun count => if count = 5 then some 3 else none else some fun _ => none
  balanceChanges := []

theorem honourSt_surplus {n : Int} (hn : 0 ≤ n) (uid : String) : 0 ≤ val (honourSt n).hash (surplus uid) := by
  by_cases hu : uid = "u"
  · subst hu
    simpa [val, honourSt, surplus, coin] using hn
  · simp [val, honourSt, surplus, coin, hu]

/-- A stake of 100 on type 1, and no pieces for the other types. -/
def honourPlay : Play where
  uid := "u"
  bets := some ⟨[(.int 1, 100)], List.nodup_singleton _⟩
  chance := none
  draws := fun _ => 0
  now := ⟨"2018-07-02", "27"⟩

/-- The board has one group of five. -/
theorem honourPlay_board {n : Int} (hn : 1 ≤ n) : honourPlay.board (honourSt n) = some [⟨1, 5⟩] := by
  have hlist : mathsList_type_len ⟨[(.int 1, 100)], List.nodup_singleton _⟩ (fun _ => 0) = .ok ([(1, 5)], fun _ => 0) := rfl
  obtain ⟨planted, board, results, σ', hjob, hdraw⟩ := run_job hlist (by decide)
  have hgroups := hjob.single (n := 5) (by decide) (by decide) (by decide) (by decide)
  have hsettled : moneyTypeOf (honourSt n) "u" ⟨[(.int 1, 100)], List.nodup_singleton _⟩ = .HONOR := by
    have hval : val (honourSt n).hash (surplus "u") = n := by simp [val, honourSt, surplus, coin]
    have hne : n ≠ 0 := by omega
    simp [moneyTypeOf, hval, hne, hn, Bets.values]
  show (match moneyTypeOf (honourSt n) "u" ⟨[(.int 1, 100)], List.nodup_singleton _⟩ with
    | .GOLD => none
    | .HONOR => (mathsBoard ⟨[(.int 1, 100)], List.nodup_singleton _⟩ fun _ => 0).toOption.map Prod.fst) = _
  rw [hsettled, hdraw]
  exact congrArg some hgroups

theorem budget_kept_single : 0 ≤ val (after play [honourPlay] (honourSt 3)).hash (surplus "u") := by
  refine (budget_kept (honourSt 3) (honourSt_surplus (by decide)) [honourPlay]).2 ⟨?_, trivial⟩ "u"
  intro bets odds h
  have hparsed := h.parsed
  have hodds := h.odds
  cases hparsed
  cases hodds
  decide +kernel

/-- A budget of 1 is enough for a stake of 100, which wins 3. -/
theorem honour_overspent :
    (∀ uid, 0 ≤ val (honourSt 1).hash (surplus uid)) ∧
      ¬∀ uid, 0 ≤ val (after play [honourPlay] (honourSt 1)).hash (surplus uid) := by
  refine ⟨honourSt_surplus (by decide), fun h => ?_⟩
  have hu := h "u"
  have hreq : honourPlay.req (honourSt 1) = ⟨"u", some ⟨[(.int 1, 100)], List.nodup_singleton _⟩, some [⟨1, 5⟩], ⟨"2018-07-02", "27"⟩⟩ := by
    rw [Play.req, honourPlay_board (by decide)]
    rfl
  rw [after_cons, after_nil, play, hreq] at hu
  revert hu
  decide +kernel

end FishWeb.Xxl
