import FishWeb.Xxl.Round
/-!
# The coin of a round

Two laws of one accepted round: it takes the stakes once and pays the prize once,
in one currency; and what it takes covers what can win. The first holds where the
board pays nothing, since a prize is added twice. The second holds where the
negative stakes of the request take back less than the smaller positive ones put in.
-/
open Python Prog Counters

namespace FishWeb.Xxl

/-! ## The increments of a user's fields -/

/-- The hashes that only record what was played. -/
def Key.isRecord : Key → Bool
  | .moneyDay _ | .moneyWeek _ | .moneyPlayer _ | .playNum _ | .playerNum _ _ => true
  | .user _ | .sHonorPlayer _ | .sHonorTotal | .sHonorTotalDate _ => false

theorem net_records (now : Clock) (g p : Int) (money : MoneyType) (uid : String) {f : Field}
    (hf : f.1.isRecord = false) :
    net (recordPipe now g p money uid) f = 0 ∧ net (playRecordPipe now uid money) f = 0 := by
  have hall : ∀ i ∈ recordPipe now g p money uid ++ playRecordPipe now uid money, i.1.1.isRecord = true := by
    unfold recordPipe playRecordPipe
    by_cases hg : g = 0 <;> by_cases hp : p = 0 <;>
      simp [hg, hp, Key.isRecord, -List.mem_cons, List.forall_mem_cons]
  constructor <;> refine net_eq_zero fun i hi he => ?_
  · have := hall i (List.mem_append_left _ hi)
    simp [he, hf] at this
  · have := hall i (List.mem_append_right _ hi)
    simp [he, hf] at this

/-- What a round adds to the fields of its user. -/
theorem net_user (now : Clock) (uid : String) (money : MoneyType) (total win : Int) (field : String) :
    net (increments now uid money total win) (.user uid, field) =
      (if field = "coin" then win - total else 0) + (if field = money.name then win else 0) := by
  obtain ⟨hr, hp⟩ := net_records now total win money uid (f := (.user uid, field)) rfl
  have ht : net (if money = .HONOR then honorTradePipe now uid win else []) (.user uid, field) = 0 := by
    cases money <;> simp [honorTradePipe, surplus, converted, totalSurplus, totalConverted]
  simp only [increments, net_cons, net_append, net_nil, hr, hp, ht, coin, Prod.mk.injEq, true_and,
    eq_comm (b := field)]
  split <;> split <;> omega

/-- The fields of its user after a round. -/
theorem val_user {req : Req} {s : St} {money : MoneyType} {total win : Int}
    (h : trace (Field × Int) (xiaoxiaoleRun req) s = increments req.now req.uid money total win) (field : String) :
    val (run (xiaoxiaoleRun req) s).2.hash (.user req.uid, field) = val s.hash (.user req.uid, field) +
      ((if field = "coin" then win - total else 0) + (if field = money.name then win else 0)) := by
  rw [run_hash, val_incrAll, h, net_user]

/-! ## One debit and one credit -/

/-- The field a currency is kept in. -/
def MoneyType.currency : MoneyType → String
  | .GOLD => "coin"
  | .HONOR => "honor"

/-- The round debits the stakes from the coin and credits the prize, the sum of
its scores, to the currency it is settled in; no other field of the user changes. -/
structure Conserves (req : Req) (bets : Bets) (reply : Done) (s s' : St) : Prop where
  score : reply.winScore = (reply.datas.map Rep.score).sum
  fields : ∀ money : MoneyType, reply.money = money.flag → ∀ field,
    val s'.hash (.user req.uid, field) = val s.hash (.user req.uid, field) +
      (if field = "coin" then -bets.values.sum else 0) + (if field = money.currency then reply.winScore else 0)

/-- The group wins less than one coin. -/
def PaysNothing (money : MoneyType) (odds : OddsTable) (bets : Bets) (g : Group) : Prop :=
  ∀ o, getOdds odds g.type g.len = some o → |floatMul (wager money bets g.type) o| < 1

def NonnegOdds (odds : OddsTable) : Prop := ∀ type f, odds type = some f → ∀ count o, f count = some o → 0 ≤ o

/-- The prize is added under two names, so the law holds exactly if it is zero. -/
theorem conserves_iff_zero {req : Req} {s : St} {bets : Bets} {money : MoneyType} {datas : List Rep} {g h : Int}
    (htr : trace (Field × Int) (xiaoxiaoleRun req) s =
      increments req.now req.uid money bets.values.sum (datas.map Rep.score).sum) :
    Conserves req bets ⟨(datas.map Rep.score).sum, money.flag, datas, g, h⟩ s (run (xiaoxiaoleRun req) s).2 ↔
      (datas.map Rep.score).sum = 0 := by
  constructor
  · intro hc
    -- a round in coin also adds to the field `gold`, a round in honour also to the coin
    cases money with
    | GOLD =>
      have hf := hc.fields .GOLD rfl "gold"
      rw [val_user htr] at hf
      simpa [MoneyType.name, MoneyType.currency] using hf
    | HONOR =>
      have hf := hc.fields .HONOR rfl "coin"
      rw [val_user htr] at hf
      simp [MoneyType.name, MoneyType.currency] at hf
      omega
  · intro h0
    refine ⟨rfl, fun money' hm field => ?_⟩
    rw [val_user htr, h0]
    simp only [Int.zero_sub, ite_self, Int.add_zero]

theorem mem_of_mapM {A B : Type} {f : A → Option B} {l : List A} {k : List B} (h : l.mapM f = some k) :
    (∀ a ∈ l, ∃ b ∈ k, f a = some b) ∧ ∀ b ∈ k, ∃ a ∈ l, f a = some b := by
  induction l generalizing k with
  | nil => simp_all
  | cons a l ih =>
    simp only [List.mapM_cons, Option.bind_eq_bind, Option.bind_eq_some_iff, Option.pure_def, Option.some.injEq] at h
    obtain ⟨b, hb, k, hk, rfl⟩ := h
    obtain ⟨h1, h2⟩ := ih hk
    refine ⟨fun x hx => ?_, fun y hy => ?_⟩
    · rcases List.mem_cons.1 hx with rfl | hx
      · exact ⟨b, by simp, hb⟩
      · obtain ⟨y, hy, hf⟩ := h1 x hx
        exact ⟨y, by simp [hy], hf⟩
    · rcases List.mem_cons.1 hy with rfl | hy
      · exact ⟨a, by simp, hb⟩
      · obtain ⟨x, hx, hf⟩ := h2 y hy
        exact ⟨x, by simp [hx], hf⟩

/-- A group scores zero exactly if it pays nothing. -/
theorem score_eq_zero_iff {money : MoneyType} {odds : OddsTable} {bets : Bets} {g : Group} {rep : Rep}
    (h : score money odds bets g = some rep) : rep.score = 0 ↔ PaysNothing money odds bets g := by
  obtain ⟨o, ho, rfl⟩ := Option.map_eq_some_iff.1 h
  rw [truncate_eq_zero_iff]
  refine ⟨fun hlt o' ho' => ?_, fun hp => hp o ho⟩
  rw [ho] at ho'
  cases ho'
  exact hlt

theorem stake_nonneg {bets : Bets} (h : ∀ n ∈ bets.values, 0 ≤ n) (numtype : Int) : 0 ≤ stake bets numtype := by
  have hget : ∀ k, 0 ≤ (bets.get k).getD 0 := by
    intro k
    cases hk : bets.get k with
    | none => simp
    | some n =>
      obtain ⟨l₁, l₂, hl, -⟩ := List.lookup_eq_some_iff.1 hk
      exact h n (List.mem_map.2 ⟨(k, n), by simp [hl], rfl⟩)
  unfold stake
  split
  · rename_i n hn
    split
    · simpa [hn] using hget (.int numtype)
    · exact hget _
  · exact hget _

theorem score_nonneg {money : MoneyType} {odds : OddsTable} {bets : Bets} {g : Group} {rep : Rep}
    (hb : ∀ n ∈ bets.values, 0 ≤ n) (ho : NonnegOdds odds) (h : score money odds bets g = some rep) :
    0 ≤ rep.score := by
  obtain ⟨o, hg, rfl⟩ := Option.map_eq_some_iff.1 h
  have hs := stake_nonneg hb g.type
  have hw : 0 ≤ wager money bets g.type := by
    cases money with
    | GOLD => exact hs
    | HONOR => exact Int.ediv_nonneg hs (by decide)
  have hodds : 0 ≤ o := by
    obtain ⟨f, hf, rfl⟩ := Option.map_eq_some_iff.1 hg
    cases hc : f g.len with
    | some o => exact ho _ _ hf _ _ hc
    | none =>
      cases h0 : f 0 with
      | some o => simpa [h0] using ho _ _ hf _ _ h0
      | none => simp
  exact truncate_nonneg (floatMul_nonneg hw hodds)

/-- A round of any board keeps the coin's books where no group of the board pays;
and, the odds being non-negative, only there. -/
theorem round_conserves (req : Req) (s : St) (bets : Bets) (hb : req.bets = some bets)
    (hpos : ∀ n ∈ bets.values, 0 ≤ n) (board : List Group) (hboard : req.board = some board) (odds : OddsTable)
    (ho : s.odds = some odds) (reply : Done) (h : (run (xiaoxiaoleRun req) s).1 = .ok (.done reply)) :
    ((∀ g ∈ board, PaysNothing (moneyTypeOf s req.uid bets) odds bets g) →
      Conserves req bets reply s (run (xiaoxiaoleRun req) s).2) ∧
    (NonnegOdds odds → Conserves req bets reply s (run (xiaoxiaoleRun req) s).2 →
      ∀ g ∈ board, PaysNothing (moneyTypeOf s req.uid bets) odds bets g) := by
  rcases round_cases req s with ⟨bets', money, datas, g, h', hacc, hrun, htr⟩ | ⟨hno, -⟩
  case inr => exact absurd h (hno reply)
  obtain ⟨-, hparsed, -, hmoney, -, odds', board', hodds', hboard', hd⟩ := hacc
  rw [hb] at hparsed; cases hparsed
  rw [ho] at hodds'; cases hodds'
  rw [hboard] at hboard'; cases hboard'
  rw [h] at hrun; cases hrun
  rw [conserves_iff_zero htr, ← hmoney]
  obtain ⟨hto, hof⟩ := mem_of_mapM hd
  constructor
  · intro hp
    refine List.sum_eq_zero fun n hn => ?_
    obtain ⟨rep, hrep, rfl⟩ := List.mem_map.1 hn
    obtain ⟨a, ha, hs⟩ := hof rep hrep
    exact (score_eq_zero_iff hs).2 (hp a ha)
  · intro hnn h0 a ha
    obtain ⟨rep, hrep, hs⟩ := hto a ha
    refine (score_eq_zero_iff hs).1 ?_
    have hall : ∀ n ∈ datas.map Rep.score, 0 ≤ n := by
      intro n hn
      obtain ⟨r, hr, rfl⟩ := List.mem_map.1 hn
      obtain ⟨x, -, hx⟩ := hof r hr
      exact score_nonneg hpos hnn hx
    exact List.all_zero_of_le_zero_le_of_sum_eq_zero hall h0 (List.mem_map.2 ⟨rep, hrep, rfl⟩)

/-- A user with 1000 coins. Three of type 1 pay threefold. -/
def sampleSt : St where
  hash f := if f = coin "u" then some 1000 else none
  users uid := uid = "u"
  odds := some fun type => if type = 1 then some fun count => if count = 3 then some 3 else none else some fun _ => none
  balanceChanges := []

/-- A round of the user with one stake, whose board has one group of three. -/
def sampleReq (key : BetKey) (n type : Int) : Req :=
  ⟨"u", some ⟨[(key, n)], List.nodup_singleton _⟩, some [⟨type, 3⟩], ⟨"2018-07-02", "27"⟩⟩

theorem round_conserves_unpaid :
    Conserves (sampleReq (.int 1) 10 2) ⟨[(.int 1, 10)], List.nodup_singleton _⟩ ⟨0, 0, [⟨3, 2, 0⟩], 990, 0⟩ sampleSt
      (run (xiaoxiaoleRun (sampleReq (.int 1) 10 2)) sampleSt).2 := by
  refine (round_conserves (sampleReq (.int 1) 10 2) sampleSt _ rfl (by decide) [⟨2, 3⟩] rfl _ rfl _
    (by decide +kernel)).1 fun g hg o ho => ?_
  obtain rfl := List.mem_singleton.1 hg
  cases ho
  decide +kernel

/-- A prize of 30 coins is also added to the field `gold`. -/
theorem round_pays_twice :
    (run (xiaoxiaoleRun (sampleReq (.int 1) 10 1)) sampleSt).1 = .ok (.done ⟨30, 0, [⟨3, 1, 30⟩], 1020, 0⟩) ∧
    ¬Conserves (sampleReq (.int 1) 10 1) ⟨[(.int 1, 10)], List.nodup_singleton _⟩ ⟨30, 0, [⟨3, 1, 30⟩], 1020, 0⟩ sampleSt
      (run (xiaoxiaoleRun (sampleReq (.int 1) 10 1)) sampleSt).2 := by
  refine ⟨by decide +kernel, fun h => ?_⟩
  have hgold := h.fields .GOLD rfl "gold"
  revert hgold
  decide +kernel

/-! ## What is taken covers what can win -/

/-- The debit of an accepted round is not negative and covers each positive
stake, the coin left is not negative, and without a winning result it is no more
than before. -/
structure Covered (req : Req) (bets : Bets) (reply : Done) (s : St) : Prop where
  paid : ∃ debit, (trace (Field × Int) (xiaoxiaoleRun req) s).head? = some (coin req.uid, -debit) ∧ 0 ≤ debit ∧
    (∀ b ∈ bets.values, 0 < b → b ≤ debit) ∧ 0 ≤ val s.hash (coin req.uid) - debit
  noWin : (∀ rep ∈ reply.datas, rep.score ≤ 0) →
    val (run (xiaoxiaoleRun req) s).2.hash (coin req.uid) ≤ val s.hash (coin req.uid)

/-- The sum of the positive stakes. -/
def positives (l : List Int) : Int := (l.filter (0 < ·)).sum

/-- What the negative stakes take back. -/
def negatives (l : List Int) : Int := -(l.filter (· < 0)).sum

/-- The largest positive stake, 0 if there is none. -/
def largest (l : List Int) : Int := l.foldr max 0

theorem sum_eq (l : List Int) : l.sum = positives l - negatives l := by
  induction l with
  | nil => rfl
  | cons n l ih =>
    simp only [List.sum_cons, ih, positives, negatives, List.filter_cons]
    rcases Int.lt_trichotomy n 0 with h | rfl | h
    · simp [h, Int.not_lt.2 (Int.le_of_lt h)]; omega
    · simp
    · simp [h, Int.not_lt.2 (Int.le_of_lt h)]; omega

theorem largest_le_iff (l : List Int) (t : Int) : largest l ≤ t ↔ 0 ≤ t ∧ ∀ b ∈ l, 0 < b → b ≤ t := by
  induction l with
  | nil => simp [largest]
  | cons n l ih =>
    have hmax : largest (n :: l) ≤ t ↔ n ≤ t ∧ largest l ≤ t := max_le_iff
    rw [hmax, ih]
    constructor
    · rintro ⟨hn, h0, hl⟩
      refine ⟨h0, fun b hb hpos => ?_⟩
      rcases List.mem_cons.1 hb with rfl | hb
      · exact hn
      · exact hl b hb hpos
    · rintro ⟨h0, hl⟩
      refine ⟨?_, h0, fun b hb => hl b (List.mem_cons_of_mem _ hb)⟩
      by_cases hn : 0 < n
      · exact hl n (List.mem_cons_self ..) hn
      · omega

/-- For any accepted bets: the debit covers what can win exactly if the negative
stakes take back no more than the positive ones other than the largest put in. -/
theorem round_covered_iff (req : Req) (s : St) (bets : Bets) (hb : req.bets = some bets) (reply : Done)
    (h : (run (xiaoxiaoleRun req) s).1 = .ok (.done reply)) :
    Covered req bets reply s ↔ negatives bets.values + largest bets.values ≤ positives bets.values := by
  rcases round_cases req s with ⟨bets', money, datas, g, h', hacc, hrun, htr⟩ | ⟨hno, -⟩
  case inr => exact absurd h (hno reply)
  obtain ⟨-, hparsed, ⟨gold, hgold, hfunds⟩, -⟩ := hacc
  rw [hb] at hparsed; cases hparsed
  rw [h] at hrun; cases hrun
  have hsum := sum_eq bets.values
  have hcond : negatives bets.values + largest bets.values ≤ positives bets.values ↔
      largest bets.values ≤ bets.values.sum := by omega
  rw [hcond, largest_le_iff]
  have hhead : (trace (Field × Int) (xiaoxiaoleRun req) s).head? = some (coin req.uid, -bets.values.sum) := by
    rw [htr]; rfl
  constructor
  · rintro ⟨⟨debit, hd, h0, hall, -⟩, -⟩
    rw [hhead] at hd
    obtain rfl : bets.values.sum = debit := by simpa using hd
    exact ⟨h0, hall⟩
  · rintro ⟨h0, hall⟩
    refine ⟨⟨bets.values.sum, hhead, h0, hall, by simp [val, hgold]; omega⟩, fun hlose => ?_⟩
    have hwin : (datas.map Rep.score).sum ≤ 0 := by
      refine (List.sum_le_card_nsmul _ 0 fun n hn => ?_).trans_eq (nsmul_zero _)
      obtain ⟨rep, hrep, rfl⟩ := List.mem_map.1 hn
      exact hlose rep hrep
    have hcoin := val_user htr "coin"
    change val _ (coin req.uid) = val _ (coin req.uid) + _ at hcoin
    rw [hcoin]
    cases money <;> simp [MoneyType.name] <;> omega

theorem round_covered_single :
    Covered (sampleReq (.int 1) 10 2) ⟨[(.int 1, 10)], List.nodup_singleton _⟩ ⟨0, 0, [⟨3, 2, 0⟩], 990, 0⟩ sampleSt :=
  (round_covered_iff (sampleReq (.int 1) 10 2) sampleSt _ rfl _ (by decide +kernel)).2 (by decide)

/-- A stake of 1000 and one of -1000 take nothing, and 1000 can win. -/
theorem opposite_stakes_uncovered :
    ∃ bets reply, (run (xiaoxiaoleRun ⟨"u", some bets, some [], ⟨"2018-07-02", "27"⟩⟩) sampleSt).1 = .ok (.done reply) ∧
      ¬Covered ⟨"u", some bets, some [], ⟨"2018-07-02", "27"⟩⟩ bets reply sampleSt := by
  refine ⟨⟨[(.int 1, 1000), (.int 2, -1000)], by decide⟩, ⟨0, 0, [], 1000, 0⟩, by decide +kernel, fun h => ?_⟩
  obtain ⟨debit, hd, -, hall, -⟩ := h.paid
  have hle := hall 1000 (by decide) (by decide)
  have hd0 : (coin "u", (0 : Int)) = (coin "u", -debit) := Option.some.inj (Eq.trans (by decide +kernel) hd)
  have : (0 : Int) = -debit := congrArg Prod.snd hd0
  omega

end FishWeb.Xxl
