import FishWeb.Box.Lock
/-!
# Currency exchange

A course takes its cost from the balance that was checked and adds its gain to
one balance of another currency. Coins into diamonds add the gain twice, and the
cost of any other item is added instead of taken.
-/
open Python Prog Counters

namespace FishWeb.Box

/-- Where a user holds a currency. -/
def Holds (uid : String) (type : Int) (p : Place) : Prop :=
  p = wallet uid (toString type) ∨ p = .box uid (toString type) ∨ p = .playerUid uid (toString type)

/-- What a trade of the course adds to a balance, if the gain goes to `g`. -/
def traded (uid : String) (course : Course) (g p : Place) : Int :=
  (if p = g then course.gain.getD 0 else 0) - if p = funds uid course then course.cost.getD 0 else 0

/-- One balance pays the cost and one of the gained currency receives the gain. The sum of coins bought is no
balance. -/
def Trades (uid : String) (course : Course) (s s' : St) : Prop :=
  s' = { s with amounts := s'.amounts } ∧ ∃ g, Holds uid (course.gain_type.getD 0) g ∧
    ∀ p ≠ Place.diamond2coinSum, val s'.amounts p = val s.amounts p + traded uid course g p

/-- A fair request: a trade if it succeeds, nothing if it is refused. -/
def FairTrade (cid sid : String) (s : St) : Prop :=
  ∃ r : Reply, (run (currencyExchange cid sid) s).1 = .ok r ∧
    (r.code = .str "0" → Trades (uidStr (s.session sid)) (s.course cid) s (run (currencyExchange cid sid) s).2) ∧
    (r.code ≠ .str "0" → (run (currencyExchange cid sid) s).2 = s)

/-- The course buys no diamonds for coins, and costs nothing but diamonds or coins. -/
def PlainCourse (course : Course) : Prop :=
  (course.cost_type.getD 0 = 2 → course.gain_type.getD 0 = 1 → course.gain.getD 0 = 0) ∧
    (course.cost_type.getD 0 ≠ 1 → course.cost_type.getD 0 ≠ 2 → course.cost.getD 0 = 0)

section Trade
variable {uid : String} {course : Course}

/-- The increments of a plain course are a trade into the box. -/
theorem net_exchanged_plain (h : PlainCourse course) {p : Place} (hp : p ≠ .diamond2coinSum) :
    net (exchanged uid course) p = traded uid course (.box uid (toString (course.gain_type.getD 0))) p := by
  obtain ⟨hcoins, hitems⟩ := h
  have hone : toString (1 : Int) = "1" := rfl
  unfold exchanged traded funds
  by_cases h1 : course.cost_type.getD 0 = 1
  · by_cases h2 : course.gain_type.getD 0 = 2 <;>
      simp only [h1, h2, if_true, if_false, List.cons_append, List.nil_append, net_cons, net_nil, Ne.symm hp,
        eq_comm (a := p)] <;> split <;> split <;> omega
  by_cases h2 : course.cost_type.getD 0 = 2
  · have hne : (2 : Int) ≠ 1 := by decide
    by_cases hg : course.gain_type.getD 0 = 1
    · have hgain := hcoins h2 hg
      simp only [h2, hne, hg, hgain, if_true, if_false, List.cons_append, List.nil_append, net_cons, net_nil,
        ite_self, eq_comm (a := p)]
      split <;> omega
    · simp only [h2, hne, hg, if_true, if_false, List.nil_append, net_cons, net_nil, eq_comm (a := p)]
      split <;> split <;> omega
  · have hcost := hitems h1 h2
    simp only [h1, h2, hcost, if_false, net_cons, net_nil, ite_self, eq_comm (a := p)]
    omega

/-- A course that trades is plain: what coins buy twice and what an item costs would show at a balance. -/
theorem plain_of_traded {g : Place} (hg : Holds uid (course.gain_type.getD 0) g)
    (h : ∀ p ≠ Place.diamond2coinSum, net (exchanged uid course) p = traded uid course g p) : PlainCourse course := by
  constructor
  · intro h2 hgt
    have hd := h (.diamond uid) (by simp)
    have hb := h (.box uid "1") (by simp)
    have hone : toString (1 : Int) = "1" := rfl
    rw [hgt] at hg
    simp only [exchanged, traded, funds, h2, hgt, hone] at hd hb
    rcases hg with rfl | rfl | rfl
    · simpa [wallet, hone] using hb
    · simpa [hone] using hd
    · simpa using hd
  · intro h1 h2
    have hp := h (.playerUid uid (toString (course.cost_type.getD 0))) (by simp)
    have hb := h (.box uid (toString (course.gain_type.getD 0))) (by simp)
    simp only [exchanged, traded, funds, h1, h2, if_false, net_cons, net_nil, if_true, reduceCtorEq] at hp hb
    by_cases hgp : Place.playerUid uid (toString (course.cost_type.getD 0)) = g
    · subst hgp
      simp only [reduceCtorEq, if_true, if_false] at hp hb
      omega
    · rw [if_neg hgp] at hp
      omega

end Trade

/-- A box with its password, and a course of 10 coins for 3 diamonds. -/
def coinCourse : St :=
  { openBox [(.coin "7", 100)] with
    user := fun uid f => if uid = "7" ∧ f = "box_pwd" then some "e10adc3949ba59abbe56e057f20f883e" else none
    course := fun cid => if cid = "1" then ⟨some 10, some 3, some 2, some 1⟩ else ⟨none, none, none, none⟩ }

end FishWeb.Box
