import FishWeb.Xxl.Deliver
import FishWeb.Xxl.Settle
/-!
# The board of an honour round

`xiaoxiaole_run` plays a round in honour on a board made to order: a piece for each type
with a stake of a hundred, and up to two for each type without a stake. As the evaluation
finds the pieces and nothing else, the stakes and the odds bound what such a board wins.
-/
open Dice Python

namespace FishWeb.Xxl

/-! ## The pieces that are asked for -/

def mathsDict_type_len (_num : Nat) : Int :=
  match _num with
  | 5 => 3
  | 4 => 4
  | 3 => 4
  | _ => 5

/-- One type of the loop: `bets[_num]` raises where only the string is a key. -/
def mathsType (bets : Bets) (mathsList : List (Nat × Int)) (_num : Nat) : Rand Err (List (Nat × Int)) :=
  match bets.get (.int _num), bets.get (.str (toString _num)) with
  | some n, _ => return if 1 ≤ n / 100 then mathsList ++ [(_num, mathsDict_type_len _num)] else mathsList
  | none, some _ => throw .KeyError
  | none, none => do
    (List.range (← randint 0 2)).foldlM (fun mathsList _ => do
      let _tmp_num ← choice .IndexError [0, 3, 4, 5]
      return if 3 ≤ _tmp_num then mathsList ++ [(_num, _tmp_num)] else mathsList) mathsList

/-- `mathsList_type_len` -/
def mathsList_type_len (bets : Bets) : Rand Err (List (Nat × Int)) := (List.range' 1 TYPECount).foldlM (mathsType bets) []

/-- `Mgr.run()` of an honour round. -/
def mathsBoard (bets : Bets) : Rand Err (List Group) := do
  let board ← do_job (← mathsList_type_len bets)
  match getResults board with
  | none => throw .RuntimeError
  | some results => return results.map fun _result => ⟨_result.type, _result.len⟩

/-- The requests for the types `done`: of a type with a stake, the one piece if the stake is a hundred. -/
structure Asked (bets : Bets) (done : List Nat) (l : List (Nat × Int)) : Prop where
  types : ∀ r ∈ l, r.1 ∈ done
  staked : ∀ t ∈ done, ∀ n, bets.get (.int t) = some n →
    l.filter (·.1 = t) = if 1 ≤ n / 100 then [(t, mathsDict_type_len t)] else []

section Asked
variable {bets : Bets} {done : List Nat} {l : List (Nat × Int)} {_num : Nat}

theorem Asked.filter_new (h : Asked bets done l) (hnew : _num ∉ done) : l.filter (·.1 = _num) = [] :=
  List.filter_eq_nil_iff.2 fun r hr => by
    have hne : r.1 ≠ _num := fun he => hnew (he ▸ h.types r hr)
    simpa using hne

/-- Requests for one more type. -/
theorem Asked.append (h : Asked bets done l) (hnew : _num ∉ done) {ext : List (Nat × Int)} (hext : ∀ r ∈ ext, r.1 = _num)
    (hstaked : ∀ n, bets.get (.int _num) = some n → ext = if 1 ≤ n / 100 then [(_num, mathsDict_type_len _num)] else []) :
    Asked bets (done ++ [_num]) (l ++ ext) where
  types r hr := by
    rcases List.mem_append.1 hr with hr | hr
    · exact List.mem_append_left _ (h.types r hr)
    · exact List.mem_append_right _ (List.mem_singleton.2 (hext r hr))
  staked t ht n hn := by
    rw [List.filter_append]
    rcases List.mem_append.1 ht with ht | ht
    · have hother : ext.filter (·.1 = t) = [] := List.filter_eq_nil_iff.2 fun r hr => by
        have hne : _num ≠ t := fun he => hnew (he ▸ ht)
        simpa [hext r hr] using hne
      rw [hother, List.append_nil]
      exact h.staked t ht n hn
    · obtain rfl := List.mem_singleton.1 ht
      rw [h.filter_new hnew, List.nil_append, List.filter_eq_self.2 fun r hr => decide_eq_true (hext r hr)]
      exact hstaked n hn

theorem always_mathsType (h : Asked bets done l) (hnew : _num ∉ done)
    (hkey : (bets.get (.int _num)).isNone → (bets.get (.str (toString _num))).isNone) :
    Always (Asked bets (done ++ [_num])) (mathsType bets l _num) := by
  unfold mathsType
  cases hint : bets.get (.int _num) with
  | some n =>
    have hone : Asked bets (done ++ [_num]) (l ++ if 1 ≤ n / 100 then [(_num, mathsDict_type_len _num)] else []) := h.append hnew
      (fun r hr => by split at hr <;> simp_all) (fun n' hn' => by rw [hint] at hn'; cases hn'; rfl)
    refine always_pure ?_
    split at hone
    · rwa [if_pos ‹_›]
    · rwa [if_neg ‹_›, ← List.append_nil l]
  | none =>
    rw [Option.isNone_iff_eq_none.1 (hkey (by rw [hint]; rfl))]
    refine always_bind (P := fun _ => True) (always_bind always_draw fun n _ => always_pure trivial) fun count _ => ?_
    have hloop : Always (fun l' => ∃ ext, l' = l ++ ext ∧ ∀ r ∈ ext, r.1 = _num)
        ((List.range count).foldlM (fun mathsList _ => do
          let _tmp_num ← choice .IndexError [0, 3, 4, 5]
          return if 3 ≤ _tmp_num then mathsList ++ [(_num, _tmp_num)] else mathsList) l : Rand Err (List (Nat × Int))) := by
      refine always_foldlM (fun l' _ _ hl' => ?_) ⟨[], (List.append_nil l).symm, fun r hr => nomatch hr⟩
      obtain ⟨ext, rfl, hext⟩ := hl'
      refine always_bind (always_choice _ (List.cons_ne_nil _ _)) fun _tmp_num _ => always_pure ?_
      split
      · refine ⟨ext ++ [(_num, _tmp_num)], List.append_assoc .., fun r hr => ?_⟩
        exact (List.mem_append.1 hr).elim (hext r) fun hr => List.mem_singleton.1 hr ▸ rfl
      · exact ⟨ext, rfl, hext⟩
    refine hloop.mono ?_
    rintro _ ⟨ext, rfl, hext⟩
    exact h.append hnew hext fun n hn => by rw [hint] at hn; cases hn

/-- The list is made where each stake has its number as a key. -/
theorem always_mathsList (h : mathsListTypeLen bets = some ()) :
    Always (Asked bets (List.range' 1 TYPECount)) (mathsList_type_len bets) := by
  have hkey : ∀ t ∈ List.range' 1 TYPECount, (bets.get (.int t)).isNone → (bets.get (.str (toString t))).isNone := by
    intro t ht hnone
    by_contra hstr
    have hmem : (t : Int) ∈ ([1, 2, 3, 4, 5] : List Int) := by
      have := List.mem_range'_1.1 ht
      simp only [TYPECount] at this
      simp only [List.mem_cons, List.not_mem_nil, or_false]
      omega
    rw [mathsListTypeLen, if_pos ⟨t, hmem, hnone, Option.isSome_iff_ne_none.2 fun he => hstr (he ▸ rfl)⟩] at h
    cases h
  refine always_foldlM_prefix (fun done _num rest hrange l hl => ?_) ⟨fun r hr => (nomatch hr), fun t ht => (nomatch ht)⟩
  have hnd : (done ++ _num :: rest).Nodup := hrange ▸ List.nodup_range' 1
  have hnew : _num ∉ done := fun hin => (List.nodup_append.1 hnd).2.2 _ hin _ List.mem_cons_self rfl
  exact always_mathsType hl hnew (hkey _num (hrange ▸ List.mem_append_right done List.mem_cons_self))

end Asked

/-- The groups of a board that is drawn are the results of its evaluation. -/
theorem run_job {bets : Bets} {l : List (Nat × Int)} {σ σ₁ : Draws} (hlist : mathsList_type_len bets σ = .ok (l, σ₁))
    (htypes : ∀ r ∈ l, r.1 ∈ List.range' 1 TYPECount) : ∃ planted board results σ', Job l planted board results ∧
      mathsBoard bets σ = .ok (results.map fun _result => ⟨_result.type, _result.len⟩, σ') := by
  have htypes : ∀ r ∈ l, 1 ≤ r.1 ∧ r.1 ≤ TYPECount := fun r hr => by
    have := List.mem_range'_1.1 (htypes r hr)
    omega
  obtain ⟨planted, -, board, σ₂, results, -, -, hrun, hjob⟩ := run_do_job htypes σ₁
  refine ⟨planted, board, results, σ₂, hjob, ?_⟩
  show (mathsList_type_len bets σ >>= fun x => do_job x.1 x.2 >>= fun y => _) = _
  rw [hlist]
  show (do_job l σ₁ >>= fun y => _) = _
  rw [hrun]
  show (match getResults board with | none => throw .RuntimeError | some results => _ : Rand Err (List Group)) σ₂ = _
  rw [hjob.evaluated]
  rfl

theorem run_mathsBoard {bets : Bets} (h : mathsListTypeLen bets = some ()) (σ : Draws) :
    ∃ l planted board results σ', Asked bets (List.range' 1 TYPECount) l ∧ Job l planted board results ∧
      mathsBoard bets σ = .ok (results.map fun _result => ⟨_result.type, _result.len⟩, σ') := by
  obtain ⟨l, σ₁, hlist, hasked⟩ := always_mathsList h σ
  obtain ⟨planted, board, results, σ', hrun⟩ := run_job hlist hasked.types
  exact ⟨l, planted, board, results, σ', hasked, hrun⟩

/-- The only piece that is asked for is there: the board is free. -/
theorem Job.single {planted board : Canvas} {results : List Result} {t n : Nat} (h : Job [(t, (n : Int))] planted board results)
    (h1 : 1 ≤ t) (h5 : t ≤ TYPECount) (hn : 3 ≤ n) (hn8 : n ≤ SIZE) :
    results.map (fun _result => (⟨_result.type, _result.len⟩ : Group)) = [⟨t, n⟩] := by
  have honly : ∀ r ∈ results, r.type = t := by
    intro r hr
    by_contra hne
    have hnone := h.not_requested (h.types r hr).1 (h.types r hr).2 (List.forall_mem_singleton.2 (Ne.symm hne))
    have hmem : r ∈ results.filter (·.type = r.type) := List.mem_filter.2 ⟨hr, decide_eq_true rfl⟩
    rw [hnone] at hmem
    cases hmem
  have hfilter : results.filter (·.type = t) = results := List.filter_eq_self.2 fun r hr => decide_eq_true (honly r hr)
  have hone : [(t, (n : Int))].filter (·.1 = t) = [(t, (n : Int))] := by simp
  rcases h.delivered h1 h5 hone with ⟨r, hr, -, -, hlen, -⟩ | ⟨-, hno, hcrowded⟩
  · rw [hfilter] at hr
    subst hr
    rw [List.map_singleton, honly r (List.mem_singleton_self r), hlen]
  · have hfree : ∀ p, planted p = 0 := by
      intro p
      by_contra hp
      obtain ⟨-, r, hr, htype⟩ := h.plot.taken p hp
      have hin := List.mem_singleton.1 ((ordered_perm _).mem_iff.1 hr)
      exact hno p (by rw [← htype, hin])
    exact absurd ⟨by decide, by omega, fun j _ _ => hfree _⟩ (hcrowded n rfl hn hn8 .X 0 0)

/-! ## What the pieces can win -/

/-- The score of a group. -/
def pay (moneyType : MoneyType) (odds : OddsTable) (bets : Bets) (g : Group) : Int :=
  truncate (floatMul (wager moneyType bets g.type) ((getOdds odds g.type g.len).getD 0))

/-- What the piece of a type can win: the hundreds of its stake, times the odds for the length it has. -/
def prize (odds : OddsTable) (bets : Bets) (t : Nat) : Int :=
  match bets.get (.int t) with
  | some n => if 1 ≤ n / 100 then max 0 (pay .HONOR odds bets ⟨t, mathsDict_type_len t⟩) else 0
  | none => 0

/-- What all of them can win. -/
def payable (odds : OddsTable) (bets : Bets) : Int := ((List.range' 1 TYPECount).map (prize odds bets)).sum

section Pay
variable {moneyType : MoneyType} {odds : OddsTable} {bets : Bets}

theorem scores_eq {board : List Group} {datas : List Rep} (h : board.mapM (score moneyType odds bets) = some datas) :
    datas.map Rep.score = board.map (pay moneyType odds bets) := by
  induction board generalizing datas with
  | nil =>
    cases h
    rfl
  | cons g board ih =>
    simp only [List.mapM_cons, Option.bind_eq_bind, Option.bind_eq_some_iff, Option.pure_def, Option.some.injEq] at h
    obtain ⟨rep, hrep, datas, hdatas, rfl⟩ := h
    obtain ⟨o, ho, rfl⟩ := Option.map_eq_some_iff.1 hrep
    rw [List.map_cons, List.map_cons, ih hdatas, pay, ho]
    rfl

/-- A group of a type without a stake. -/
theorem pay_unstaked {t : Nat} (hint : bets.get (.int t) = none) (hstr : bets.get (.str (toString t)) = none) (len : Int) :
    pay .HONOR odds bets ⟨t, len⟩ = 0 := by
  have hstake : stake bets t = 0 := by
    unfold stake
    rw [hint]
    show (bets.get (.str (toString (t : Int)))).getD 0 = 0
    rw [show toString (t : Int) = toString t from rfl, hstr]
    rfl
  have hzero : toDouble 0 = 0 := by decide +kernel
  rw [pay, wager, hstake]
  simp only [Int.zero_ediv, floatMul, Int.cast_zero, hzero, zero_mul]
  decide +kernel

/-- A sum over the results is one over the types. -/
theorem sum_by_type (f : Result → Int) {results : List Result} (h : ∀ r ∈ results, 1 ≤ r.type ∧ r.type ≤ TYPECount) :
    (results.map f).sum = ((List.range' 1 TYPECount).map fun t => ((results.filter (·.type = t)).map f).sum).sum := by
  induction results with
  | nil => rfl
  | cons r results ih =>
    obtain ⟨⟨h1, h5⟩, hrest⟩ := List.forall_mem_cons.1 h
    rw [List.map_cons, List.sum_cons, ih hrest]
    simp only [TYPECount] at h5
    have hcases : r.type = 1 ∨ r.type = 2 ∨ r.type = 3 ∨ r.type = 4 ∨ r.type = 5 := by omega
    rcases hcases with ht | ht | ht | ht | ht <;>
      simp [TYPECount, List.range'_succ, List.filter_cons, ht] <;> omega

/-- What the results of one type win. -/
theorem pay_type_le {l : List (Nat × Int)} {planted board : Canvas} {results : List Result}
    (hasked : Asked bets (List.range' 1 TYPECount) l) (hjob : Job l planted board results)
    (hmaths : mathsListTypeLen bets = some ()) {t : Nat} (h1 : 1 ≤ t) (h5 : t ≤ TYPECount) :
    ((results.filter (·.type = t)).map fun r => pay .HONOR odds bets ⟨r.type, r.len⟩).sum ≤ prize odds bets t := by
  have hrange : t ∈ List.range' 1 TYPECount := List.mem_range'_1.2 (by omega)
  have htype : ∀ r ∈ results.filter (·.type = t), r.type = t := fun r hr => of_decide_eq_true (List.mem_filter.1 hr).2
  cases hint : bets.get (.int t) with
  | none =>
    have hstr : bets.get (.str (toString t)) = none := by
      by_contra hsome
      have hmem : (t : Int) ∈ ([1, 2, 3, 4, 5] : List Int) := by
        simp only [TYPECount] at h5
        simp only [List.mem_cons, List.not_mem_nil, or_false]
        omega
      rw [mathsListTypeLen, if_pos ⟨t, hmem, by rw [hint]; rfl, Option.isSome_iff_ne_none.2 hsome⟩] at hmaths
      cases hmaths
    rw [prize, hint]
    refine le_of_eq (List.sum_eq_zero fun x hx => ?_)
    obtain ⟨r, hr, rfl⟩ := List.mem_map.1 hx
    rw [htype r hr]
    exact pay_unstaked hint hstr _
  | some n =>
    have hfilter := hasked.staked t hrange n hint
    simp only [prize, hint]
    by_cases hn : 1 ≤ n / 100
    · rw [if_pos hn] at hfilter ⊢
      rcases hjob.delivered h1 h5 hfilter with ⟨r, hr, -, -, hlen, -⟩ | ⟨hnone, -⟩
      · rw [hr, List.map_singleton, List.sum_singleton, htype r (hr ▸ List.mem_singleton_self r), hlen]
        exact le_max_right _ _
      · rw [hnone]
        exact le_max_left _ _
    · rw [if_neg hn] at hfilter ⊢
      have hno : ∀ r ∈ l, r.1 ≠ t := fun r hr => by
        simpa using List.filter_eq_nil_iff.1 hfilter r hr
      rw [hjob.not_requested h1 h5 hno]
      exact le_refl 0

/-- A board that was drawn wins no more than its pieces can. -/
theorem wins_le {σ σ' : Draws} {groups : List Group} {datas : List Rep} (hmaths : mathsListTypeLen bets = some ())
    (hdraw : mathsBoard bets σ = .ok (groups, σ')) (hd : groups.mapM (score .HONOR odds bets) = some datas) :
    (datas.map Rep.score).sum ≤ payable odds bets := by
  obtain ⟨l, planted, board, results, σ'', hasked, hjob, hrun⟩ := run_mathsBoard hmaths σ
  rw [hdraw] at hrun
  obtain ⟨rfl, -⟩ := Prod.mk.inj (Except.ok.inj hrun)
  rw [scores_eq hd, List.map_map, payable, sum_by_type _ hjob.types]
  refine List.sum_le_sum fun t ht => ?_
  have := List.mem_range'_1.1 ht
  exact pay_type_le hasked hjob hmaths (by omega) (by omega)

end Pay

end FishWeb.Xxl
