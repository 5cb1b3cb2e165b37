import FishWeb.Rank.Snapshot
import Mathlib.Data.List.Pairwise
/-!
# The ranking page

The rows come by descending score, in any order among those of one score. Each is put
before the first of its score with a greater id, or at the end: what is there stays in
order, and nobody is lost or twice there. The page numbers the rows in that order, where no
score that it reads is written with an exponent (`getRank_ranked_iff`).
-/
open Python Prog FishWeb.Common

namespace FishWeb.Rank

/-! ## The order -/

/-- What a row says of a player, without his rank. -/
structure Player where
  nickname : Option String
  headImgUrl : Option String
  score : Int
  uid : Int
  deriving Repr, DecidableEq

def Row.player (r : Row Int) : Player where
  nickname := r.nickname
  headImgUrl := r.headImgUrl
  score := r.score
  uid := r.uid

def Player.row (p : Player) (rank : Nat) : Row Int where
  rank := rank
  nickname := p.nickname
  headImgUrl := p.headImgUrl
  score := p.score
  uid := p.uid

/-- By descending score, and by id among those of one score. -/
def Before (p q : Player) : Prop := q.score < p.score ∨ p.score = q.score ∧ p.uid < q.uid

theorem Before.trans {p q r : Player} (h : Before p q) (h' : Before q r) : Before p r := by
  unfold Before at *
  omega

/-- The rows are in order. -/
def InOrder (l : List (Row Int)) : Prop := l.Pairwise fun a b => Before a.player b.player

/-- A row that is not above any of a list in order is put in its place, or belongs at the end. -/
theorem insertTied_cases {x : Row Int} {l : List (Row Int)} (hl : InOrder l)
    (hx : ∀ r ∈ l, x.score ≤ r.score ∧ r.uid ≠ x.uid) :
    (insertTied x l).Perm (x :: l) ∧ InOrder (insertTied x l) ∨
      insertTied x l = l ∧ ∀ r ∈ l, Before r.player x.player := by
  induction l with
  | nil => exact .inr ⟨rfl, nofun⟩
  | cons o l ih =>
    obtain ⟨ho, hl⟩ := List.pairwise_cons.1 hl
    obtain ⟨hscore, huid⟩ := hx o List.mem_cons_self
    unfold insertTied
    by_cases hlt : x.score = o.score ∧ x.uid < o.uid
    · rw [if_pos hlt]
      have hxo : Before x.player o.player := .inr hlt
      refine .inl ⟨.refl _, List.pairwise_cons.2 ⟨fun r hr => ?_, List.pairwise_cons.2 ⟨ho, hl⟩⟩⟩
      rcases List.mem_cons.1 hr with rfl | hr
      · exact hxo
      · exact hxo.trans (ho r hr)
    · rw [if_neg hlt]
      have hox : Before o.player x.player := by
        rcases hscore.lt_or_eq with hlt' | heq
        · exact .inl hlt'
        · exact .inr ⟨heq.symm, lt_of_le_of_ne (not_lt.1 fun h => hlt ⟨heq, h⟩) huid⟩
      rcases ih hl fun r hr => hx r (List.mem_cons_of_mem _ hr) with ⟨hperm, hin⟩ | ⟨heq, hall⟩
      · refine .inl ⟨(hperm.cons o).trans (.swap ..), List.pairwise_cons.2 ⟨fun r hr => ?_, hin⟩⟩
        rcases List.mem_cons.1 (hperm.mem_iff.1 hr) with rfl | hr
        · exact hox
        · exact ho r hr
      · refine .inr ⟨by rw [heq], fun r hr => ?_⟩
        rcases List.mem_cons.1 hr with rfl | hr
        · exact hox
        · exact hall r hr

theorem place_spec {x : Row Int} {l : List (Row Int)} (hl : InOrder l)
    (hx : ∀ r ∈ l, x.score ≤ r.score ∧ r.uid ≠ x.uid) : (place l x).Perm (x :: l) ∧ InOrder (place l x) := by
  unfold place
  rcases insertTied_cases hl hx with ⟨hperm, hin⟩ | ⟨heq, hall⟩
  · have hmem : x ∈ insertTied x l := hperm.mem_iff.2 List.mem_cons_self
    dsimp only
    rw [if_pos hmem]
    exact ⟨hperm, hin⟩
  · have hmem : x ∉ l := fun h => (hx x h).2 rfl
    dsimp only
    rw [heq, if_neg hmem]
    refine ⟨List.perm_append_singleton x l, List.pairwise_append.2 ⟨hl, List.pairwise_singleton _ _, ?_⟩⟩
    intro r hr y hy
    obtain rfl := List.mem_singleton.1 hy
    exact hall r hr

/-- Rows by descending score, each with its own id. -/
structure Descending (l : List (Row Int)) : Prop where
  scores : l.Pairwise fun a b => b.score ≤ a.score
  uids : (l.map Row.uid).Nodup

theorem foldl_place {rest l : List (Row Int)} (hl : InOrder l) (h : Descending (l ++ rest)) :
    (rest.foldl place l).Perm (l ++ rest) ∧ InOrder (rest.foldl place l) := by
  induction rest generalizing l with
  | nil => exact ⟨by simp, hl⟩
  | cons x rest ih =>
    have hplace := place_spec (x := x) hl fun r hr => by
      refine ⟨(List.pairwise_append.1 h.scores).2.2 r hr x List.mem_cons_self, ?_⟩
      have huids := h.uids
      rw [List.map_append, List.nodup_append] at huids
      exact huids.2.2 _ (List.mem_map_of_mem hr) _ (List.mem_map_of_mem List.mem_cons_self)
    have hperm : (place l x ++ rest).Perm (l ++ x :: rest) :=
      (hplace.1.append_right rest).trans List.perm_middle.symm
    have hdesc : Descending (place l x ++ rest) := by
      refine ⟨List.pairwise_append.2 ⟨hplace.2.imp ?_, ?_, ?_⟩, (hperm.map Row.uid).nodup_iff.2 h.uids⟩
      · rintro a b (hlt | ⟨heq, -⟩)
        · exact le_of_lt hlt
        · exact heq.ge
      · exact (List.pairwise_cons.1 (List.pairwise_append.1 h.scores).2.1).2
      · intro a ha b hb
        rcases List.mem_cons.1 (hplace.1.mem_iff.1 ha) with rfl | ha
        · exact (List.pairwise_cons.1 (List.pairwise_append.1 h.scores).2.1).1 b hb
        · exact (List.pairwise_append.1 h.scores).2.2 a ha b (List.mem_cons_of_mem _ hb)
    obtain ⟨hperm', hin⟩ := ih hplace.2 hdesc
    exact ⟨hperm'.trans hperm, hin⟩

/-- The rows come out in order, all of them. -/
theorem ordered_spec {l : List (Row Int)} (h : Descending l) : (ordered l).Perm l ∧ InOrder (ordered l) := by
  cases l with
  | nil => exact ⟨.refl _, .nil⟩
  | cons first rest => exact foldl_place (List.pairwise_singleton _ _) h

/-- Players numbered 1, 2, 3, … -/
def numberedRows (l : List Player) : List (Row Int) := l.zipIdx.map fun (p, i) => p.row (i + 1)

theorem numbered_eq (l : List (Row Int)) : numbered l = numberedRows (l.map Row.player) := by
  unfold numbered numberedRows
  rw [List.zipIdx_map, List.map_map]
  rfl

theorem getElem?_numberedRows (l : List Player) (i : Nat) :
    (numberedRows l)[i]? = l[i]?.map fun p => p.row (i + 1) := by
  unfold numberedRows
  rw [List.getElem?_map, List.getElem?_zipIdx, Option.map_map]
  simp [Function.comp_def]

theorem map_uid_numberedRows (l : List Player) : (numberedRows l).map Row.uid = l.map Player.uid := by
  have hfst : (fun r : Player × Nat => r.1.uid) = Player.uid ∘ Prod.fst := rfl
  unfold numberedRows
  rw [List.map_map, ← List.zipIdx_map_fst 0 l, List.map_map, List.zipIdx_map_fst 0 l]
  rfl

theorem rankOf_of_not_mem {uid : Int} {l : List (Row Int)} (h : uid ∉ l.map Row.uid) (selfRank : Nat) :
    rankOf uid selfRank l = selfRank := by
  induction l generalizing selfRank with
  | nil => rfl
  | cons r l ih =>
    rw [List.map_cons, List.mem_cons, not_or] at h
    have hcons : rankOf uid selfRank (r :: l) = rankOf uid (if r.uid = uid then r.rank else selfRank) l := rfl
    rw [hcons, ih h.2, if_neg (Ne.symm h.1)]

/-- The rank of the only row with an id. -/
theorem rankOf_numberedRows {l : List Player} (hnodup : (l.map Player.uid).Nodup) {i : Nat} {p : Player}
    (h : l[i]? = some p) (selfRank : Nat) : rankOf p.uid selfRank (numberedRows l) = i + 1 := by
  have hget : (numberedRows l)[i]? = some (p.row (i + 1)) := by rw [getElem?_numberedRows, h]; rfl
  rw [← map_uid_numberedRows] at hnodup
  generalize numberedRows l = rows at hget hnodup
  obtain ⟨pre, post, rfl⟩ := List.append_of_mem (List.mem_of_getElem? hget)
  rw [List.map_append, List.map_cons, List.nodup_append] at hnodup
  have hself : (p.row (i + 1)).uid = p.uid := rfl
  have hsplit : rankOf p.uid selfRank (pre ++ p.row (i + 1) :: post) = rankOf p.uid (i + 1) post := by
    unfold rankOf
    rw [List.foldl_append, List.foldl_cons, if_pos hself]
    rfl
  rw [hsplit]
  exact rankOf_of_not_mem (List.nodup_cons.1 hnodup.2.1).1 _

/-! ## The rows of a board -/

/-- `int(user_table.split(':')[1])` -/
def tableUid (user_table : String) : Option Int := (split ':' user_table)[1]?.bind int

/-- The id of an account, if it has one. -/
def St.uid (s : St) (account : String) : Option Int := (s.shared.userTable account).bind tableUid

theorem run_userId {user_table : String} {uid : Int} (h : tableUid user_table = some uid) (s : St) :
    run (userId (some user_table)) s = (.ok uid, s) := by
  obtain ⟨part, hpart, hint⟩ := Option.bind_eq_some_iff.1 h
  simp [userId, hpart, hint]

/-- The player of an entry. -/
def St.player (s : St) (e : String × Int) : Player where
  nickname := (s.profile (fmt (s.shared.userTable e.1))).1
  headImgUrl := (s.profile (fmt (s.shared.userTable e.1))).2
  score := e.2
  uid := (s.uid e.1).getD 0

/-- Whether an entry is shown: those who lost are not where they are dropped, and those with 0, but for the user
himself, only when somebody has less. -/
def Displayed (t : SortedSet String Int) (dropsLoss : Bool) (account : Option String) (e : String × Int) : Prop :=
  ¬(dropsLoss ∧ e.2 < 0) ∧ (some e.1 = account ∨ e.2 ≠ 0 ∨ ∃ e' ∈ t.entries, e'.2 < 0)

instance (t : SortedSet String Int) (dropsLoss : Bool) (account : Option String) (e : String × Int) :
    Decidable (Displayed t dropsLoss account e) := by
  unfold Displayed
  infer_instance

theorem next_prevCoinDelta (c : Count) (score : Int) : (c.next score).prevCoinDelta = score := by
  unfold Count.next
  split <;> rfl

/-- A player adds his row if he is displayed. -/
theorem showPlayer_spec {dropsLoss : Bool} {account : Option String} {less0 : List String} {s : St}
    {t : SortedSet String Int} (hless : less0 ≠ [] ↔ (∃ e ∈ t, e.2 = 0) ∧ ∃ e ∈ t, e.2 < 0)
    {e : String × Int} (he : e ∈ t) (hid : (s.uid e.1).isSome) (acc : Shown) :
    ∃ acc', run (showPlayer dropsLoss account less0 acc e) s = (.ok acc', s) ∧
      acc'.rankList.map Row.player =
        acc.rankList.map Row.player ++ ([e].filter (Displayed t dropsLoss account ·)).map s.player := by
  obtain ⟨uid, huid⟩ := Option.isSome_iff_exists.1 hid
  obtain ⟨user_table, htable, hparse⟩ := Option.bind_eq_some_iff.1 huid
  have hrow : (pbAppendRank acc.rankList (acc.count.next e.2).rank (s.profile (fmt (some user_table))).1
      (s.profile (fmt (some user_table))).2 e.2 uid).map Row.player = acc.rankList.map Row.player ++ [s.player e] := by
    simp [pbAppendRank, Row.player, St.player, htable, huid]
  have hsome : e.2 = 0 → (less0 ≠ [] ↔ ∃ e' ∈ t.entries, e'.2 < 0) := fun h0 => by
    rw [hless, and_iff_right ⟨e, he, h0⟩]
    rfl
  unfold showPlayer
  simp only [next_prevCoinDelta]
  by_cases hdrop : dropsLoss ∧ e.2 < 0
  · rw [if_pos hdrop]
    refine ⟨_, rfl, ?_⟩
    have hnot : ¬Displayed t dropsLoss account e := fun h => h.1 hdrop
    simp [hnot]
  rw [if_neg hdrop]
  have hask : run (Common.ask (.getUserTable e.1) : Handler (Option String)) s = (.ok (some user_table), s) := by
    simp [Common.ask, Shared.answer, htable]
  have hprofile : run (send (.hmgetProfile (fmt (some user_table))) : Handler _) s =
      (.ok (s.profile (fmt (some user_table))), s) := rfl
  rw [run_bind_ok hask, run_bind_ok hprofile, run_bind_ok (run_userId hparse s)]
  by_cases hself : some e.1 = account
  · rw [if_pos hself]
    refine ⟨_, rfl, ?_⟩
    have hshown : Displayed t dropsLoss account e := ⟨hdrop, .inl hself⟩
    simpa [hshown] using hrow
  rw [if_neg hself]
  by_cases hmore : e.2 ≠ 0 ∨ less0 ≠ []
  · rw [if_pos hmore]
    refine ⟨_, rfl, ?_⟩
    have hshown : Displayed t dropsLoss account e := by
      refine ⟨hdrop, .inr ?_⟩
      by_cases h0 : e.2 = 0
      · exact .inr ((hsome h0).1 (hmore.resolve_left fun h => h h0))
      · exact .inl h0
    simpa [hshown] using hrow
  · rw [if_neg hmore]
    refine ⟨_, rfl, ?_⟩
    rw [not_or, not_not] at hmore
    have hnot : ¬Displayed t dropsLoss account e := by
      rintro ⟨-, hself' | h0 | hneg⟩
      · exact hself hself'
      · exact h0 hmore.1
      · exact hmore.2 ((hsome hmore.1).2 hneg)
    simp [hnot]

theorem showPlayers_spec (dropsLoss : Bool) (account : Option String) {less0 : List String} {s : St}
    {t : SortedSet String Int} (hless : less0 ≠ [] ↔ (∃ e ∈ t, e.2 = 0) ∧ ∃ e ∈ t, e.2 < 0)
    (players : List (String × Int)) (hmem : ∀ e ∈ players, e ∈ t) (hids : ∀ e ∈ t, (s.uid e.1).isSome) (acc : Shown) :
    ∃ acc', run (showPlayers dropsLoss account less0 players acc) s = (.ok acc', s) ∧
      acc'.rankList.map Row.player =
        acc.rankList.map Row.player ++ (players.filter (Displayed t dropsLoss account ·)).map s.player := by
  induction players generalizing acc with
  | nil => exact ⟨acc, rfl, by simp⟩
  | cons e players ih =>
    have he := hmem e List.mem_cons_self
    obtain ⟨acc', hrun, hrows⟩ := showPlayer_spec hless he (hids e he) acc
    obtain ⟨acc'', hrun', hrows'⟩ := ih (fun e he => hmem e (List.mem_cons_of_mem _ he)) acc'
    refine ⟨acc'', (run_bind_ok hrun).trans hrun', ?_⟩
    rw [hrows', hrows, List.append_assoc, ← List.map_append, ← List.filter_append]
    rfl

theorem run_selfOutside (key : Key) (account : Option String) (rank : Nat) (s : St) :
    ∃ r, run (selfOutside key account rank) s = (.ok r, s) := by
  unfold selfOutside
  have hscore : run (send (.zscore key (fmt account)) : Handler _) s =
      (.ok ((s.board key).zscore (fmt account)), s) := rfl
  rw [run_bind_ok hscore]
  cases (s.board key).zscore (fmt account) with
  | none => exact ⟨_, rfl⟩
  | some x =>
    dsimp only
    split
    · exact ⟨_, rfl⟩
    have htied : run (send (.zrevrangebyscore key x x) : Handler _) s =
        (.ok ((s.board key).zrevrangebyscore x x), s) := rfl
    rw [run_bind_ok htied]
    cases hfirst : (s.board key).zrevrangebyscore x x with
    | nil => exact ⟨_, rfl⟩
    | cons first l =>
      have hrank := SortedSet.zrevrank_first (s := s.board key) (x := x) (m := first) (by rw [hfirst]; rfl)
      exact ⟨_, by simp only [send, cmd_bind, ret_bind, run_step, Exec.exec, hrank]; rfl⟩

/-! ## The page -/

/-- The entries collected for display. -/
def collected (s : St) (b : Board) (dropsLoss : Bool) (account : Option String) : List (String × Int) :=
  ((s.board (.tmp b)).top MY_MAX_RANK).filter (Displayed (s.board (.tmp b)) dropsLoss account ·)

/-- Every player of the snapshots and the user of the session have ids, and the players have different ones. -/
structure Identified (s : St) (account : Option String) : Prop where
  own : (s.uid (fmt account)).isSome
  known : ∀ b, ∀ e ∈ s.board (.tmp b), (s.uid e.1).isSome
  distinct : ∀ b, ∀ e ∈ s.board (.tmp b), ∀ e' ∈ s.board (.tmp b), s.uid e.1 = s.uid e'.1 → e.1 = e'.1

/-- The rows are the first of the collected players in order, numbered, and the user's own rank is his position. -/
def Ranked (s : St) (b : Board) (dropsLoss : Bool) (account : Option String) (rankList : List (Row Int))
    (selfRank : Nat) : Prop :=
  ∃ ranked : List Player, ranked.Perm ((collected s b dropsLoss account).map s.player) ∧ ranked.Pairwise Before ∧
    rankList = (numberedRows ranked).take RANK_COUNT ∧
    ∀ e ∈ collected s b dropsLoss account, some e.1 = account →
      ∀ i, ranked[i]? = some (s.player e) → i + 1 ≤ MY_MAX_RANK → selfRank = i + 1

theorem mem_collected {s : St} {b : Board} {dropsLoss : Bool} {account : Option String} {e : String × Int}
    (h : e ∈ collected s b dropsLoss account) : e ∈ s.board (.tmp b) :=
  (SortedSet.mem_top.1 (List.mem_of_mem_filter h)).1

theorem collected_descending {s : St} {account : Option String} (h : Identified s account) (b : Board)
    (dropsLoss : Bool) {rows : List (Row Int)} (hrows : rows.map Row.player = (collected s b dropsLoss account).map s.player) :
    Descending rows := by
  have hsub : (collected s b dropsLoss account).Sublist (s.board (.tmp b)).entries :=
    List.filter_sublist.trans ((s.board (.tmp b)).top_sublist _)
  constructor
  · have hscores : (rows.map Row.player).Pairwise fun p q => q.score ≤ p.score := by
      rw [hrows, List.pairwise_map]
      exact (s.board (.tmp b)).sorted.sublist hsub
    exact List.pairwise_map.1 hscores
  · have huids : rows.map Row.uid = (collected s b dropsLoss account).map fun e => (s.uid e.1).getD 0 := by
      have hmap := congrArg (List.map Player.uid) hrows
      rw [List.map_map, List.map_map] at hmap
      exact hmap
    rw [huids]
    have hmembers := (s.board (.tmp b)).nodup.sublist (hsub.map Prod.fst)
    refine List.Nodup.map_on ?_ (List.Nodup.of_map _ hmembers)
    intro e he e' he' heq
    obtain ⟨u, hu⟩ := Option.isSome_iff_exists.1 (h.known b e (mem_collected he))
    obtain ⟨u', hu'⟩ := Option.isSome_iff_exists.1 (h.known b e' (mem_collected he'))
    rw [hu, hu', Option.getD_some, Option.getD_some] at heq
    have hmember := h.distinct b e (mem_collected he) e' (mem_collected he') (by rw [hu, hu', heq])
    exact List.inj_on_of_nodup_map hmembers he he' hmember

theorem run_listed (rows : List (Row Int)) {user_table : String} {uid : Int} (htable : tableUid user_table = some uid)
    (self : Nat × Int) (s : St) :
    ∃ r, run (listed rows user_table self) s = (.ok r, s) ∧ r.rankList = (numbered (ordered rows)).take RANK_COUNT ∧
      (r.selfRank =
        let selfRank := rankOf uid self.1 (numbered (ordered rows))
        if selfRank > MY_MAX_RANK then NOT_RANK_USE_NUM else selfRank) ∧ r.uid = uid := by
  unfold listed
  have hprofile : run (send (.hmgetProfile user_table) : Handler _) s = (.ok (s.profile user_table), s) := rfl
  rw [run_bind_ok hprofile, run_bind_ok (run_userId htable s)]
  exact ⟨_, rfl, rfl, rfl, rfl⟩

/-- A snapshot with a score that is written with an exponent ends the ranking. -/
theorem ranking_unreadable {s : St} {b : Board} (hread : ¬Readable (s.board (.tmp b))) (dropsLoss : Bool) (account : Option String)
    (user_table : String) : run (ranking b dropsLoss account user_table) s = (.error .ValueError, s) := by
  have htop := run_topPlayers (.tmp b) s
  rw [if_neg hread] at htop
  exact run_bind_error htop

theorem ranking_spec {s : St} {account user_table : String} {uid : Int} (h : Identified s (some account))
    (htable : tableUid user_table = some uid) (huid : s.uid account = some uid) (b : Board) (dropsLoss : Bool)
    (hread : Readable (s.board (.tmp b))) :
    ∃ r, run (ranking b dropsLoss (some account) user_table) s = (.ok r, s) ∧
      Ranked s b dropsLoss (some account) r.rankList r.selfRank ∧ r.uid = uid := by
  obtain ⟨less0, hrunless, hless⟩ := run_less0RankPlayers (.tmp b) s
  have hmem : ∀ e ∈ (s.board (.tmp b)).top MY_MAX_RANK, e ∈ s.board (.tmp b) := fun e he => (SortedSet.mem_top.1 he).1
  obtain ⟨acc, hrun, hrows⟩ := showPlayers_spec dropsLoss (some account) hless _ hmem (h.known b)
    { count := { prevCoinDelta := (((s.board (.tmp b)).top MY_MAX_RANK).head?.map Prod.snd).getD 0 } }
  rw [List.map_nil, List.nil_append] at hrows
  have hdesc := collected_descending h b dropsLoss hrows
  obtain ⟨hperm, hin⟩ := ordered_spec hdesc
  have hlisted (self : Nat × Int) : ∃ r, run (listed acc.rankList user_table self) s = (.ok r, s) ∧
      Ranked s b dropsLoss (some account) r.rankList r.selfRank ∧ r.uid = uid := by
    obtain ⟨r, hrunlist, hlist, hself, huidr⟩ := run_listed acc.rankList htable self s
    refine ⟨r, hrunlist, ⟨(ordered acc.rankList).map Row.player, ?_, List.pairwise_map.2 hin, ?_, ?_⟩, huidr⟩
    · have hmap := hperm.map Row.player
      rw [hrows] at hmap
      exact hmap
    · rw [hlist, numbered_eq]
    · intro e _ haccount i hi hle
      obtain rfl : e.1 = account := Option.some.inj haccount
      have huids : (((ordered acc.rankList).map Row.player).map Player.uid).Nodup := by
        rw [List.map_map]
        exact (hperm.map Row.uid).nodup_iff.2 hdesc.uids
      have hrank := rankOf_numberedRows huids hi self.1
      have heuid : (s.player e).uid = uid := by simp [St.player, huid]
      rw [heuid, ← numbered_eq] at hrank
      rw [hself, hrank]
      simp [not_lt.2 hle]
  have htop := run_topPlayers (.tmp b) s
  rw [if_pos hread] at htop
  unfold ranking
  rw [run_bind_ok htop, run_bind_ok hrunless, run_bind_ok hrun]
  split
  · obtain ⟨self, hrunself⟩ := run_selfOutside (.tmp b) (some account) acc.count.rank s
    rw [run_bind_ok hrunself]
    exact hlisted self
  · exact hlisted _

theorem rankForProfit_spec {s : St} {account user_table : String} {uid : Int} (h : Identified s (some account))
    (htable : tableUid user_table = some uid) (huid : s.uid account = some uid)
    (hread : Readable (s.board (.tmp .coinDelta))) :
    ∃ rows own, run (rankForProfit (some account) user_table) s = (.ok (rows ++ [own]), s) ∧
      Ranked s .coinDelta true (some account) rows own.rank ∧ own.uid = uid := by
  obtain ⟨r, hrun, hr, hruid⟩ := ranking_spec h htable huid .coinDelta true hread
  unfold rankForProfit
  rw [run_bind_ok hrun]
  exact ⟨r.rankList, _, rfl, hr, hruid⟩

theorem rankForCoin_spec {s : St} {account user_table : String} {uid : Int} (h : Identified s (some account))
    (htable : tableUid user_table = some uid) (huid : s.uid account = some uid) (curScore : Option String)
    (hread : Readable (s.board (.tmp .coin))) :
    ∃ rows own, run (rankForCoin (some account) user_table curScore) s =
        (.ok (rows.map (fun row => { row with score := Score.int row.score }) ++ [own]), s) ∧
      Ranked s .coin false (some account) rows own.rank ∧ own.uid = uid := by
  obtain ⟨r, hrun, hr, hruid⟩ := ranking_spec h htable huid .coin false hread
  unfold rankForCoin
  rw [run_bind_ok hrun]
  exact ⟨r.rankList, _, rfl, hr, hruid⟩

/-- The page shows each board in order, and the user's own row with his position in it. -/
def PageRanked (s : St) (sid : String) : Prop :=
  ∃ profit ownProfit coin ownCoin, run (doGetRank sid) s = (.ok {
      code := 0
      rankForProfit := profit ++ [ownProfit]
      rankForCoin := coin.map (fun row => { row with score := Score.int row.score }) ++ [ownCoin] }, s) ∧
    Ranked s .coinDelta true (s.shared.info sid).account profit ownProfit.rank ∧
    Ranked s .coin false (s.shared.info sid).account coin ownCoin.rank ∧
    s.uid (fmt (s.shared.info sid).account) = some ownProfit.uid ∧ ownCoin.uid = ownProfit.uid

/-- The page from where the user is known. -/
theorem run_doGetRank {s : St} {sid user_table : String} (hver : s.shared.verfiy sid = .ok user_table)
    (h : Identified s (s.shared.info sid).account) :
    ∃ account uid, (s.shared.info sid).account = some account ∧ s.uid account = some uid ∧ tableUid user_table = some uid ∧
      run (doGetRank sid) s = run (do
        let profit ← rankForProfit (some account) user_table
        let coin ← rankForCoin (some account) user_table (s.coin user_table)
        return { code := 0, rankForProfit := profit, rankForCoin := coin }) s := by
  unfold doGetRank
  rw [run_session, shared_eq, hver]
  obtain ⟨account, _, hsession, rfl⟩ := Shared.verfiy_ok hver
  have haccount : (s.shared.info sid).account = some account := by simp [Shared.info, hsession]
  rw [haccount] at h ⊢
  obtain ⟨uid, huid⟩ := Option.isSome_iff_exists.1 h.own
  obtain ⟨user_table, htable, hparse⟩ := Option.bind_eq_some_iff.1 huid
  rw [fmt_some] at htable huid
  rw [htable, fmt_some]
  have hask : run (Common.ask (.getUserTable (fmt (some account))) : Handler (Option String)) s =
      (.ok (some user_table), s) := by
    simp [Common.ask, Shared.answer, htable]
  have hscore : run (send (.hgetCoin (fmt (some user_table))) : Handler _) s = (.ok (s.coin user_table), s) := rfl
  refine ⟨account, uid, rfl, huid, hparse, ?_⟩
  dsimp only
  rw [run_bind_ok hask, run_bind_ok hscore]

theorem pageRanked_of_readable {s : St} {sid user_table : String} (hver : s.shared.verfiy sid = .ok user_table)
    (h : Identified s (s.shared.info sid).account) (hread : ∀ b, Readable (s.board (.tmp b))) : PageRanked s sid := by
  obtain ⟨account, uid, haccount, huid, hparse, hrun⟩ := run_doGetRank hver h
  unfold PageRanked
  rw [hrun]
  rw [haccount] at h ⊢
  obtain ⟨profit, ownProfit, hprofit, hranked, hown⟩ := rankForProfit_spec h hparse huid (hread .coinDelta)
  obtain ⟨coin, ownCoin, hcoin, hranked', hown'⟩ := rankForCoin_spec h hparse huid (s.coin user_table) (hread .coin)
  refine ⟨profit, ownProfit, coin, ownCoin, ?_, hranked, hranked', by rw [fmt_some, huid, hown], hown'.trans hown.symm⟩
  rw [run_bind_ok hprofit, run_bind_ok hcoin]
  rfl

theorem readable_of_run {s : St} {sid user_table : String} (hver : s.shared.verfiy sid = .ok user_table)
    (h : Identified s (s.shared.info sid).account) {reply : Reply} {s' : St} (hrun : run (doGetRank sid) s = (.ok reply, s')) (b : Board) :
    Readable (s.board (.tmp b)) := by
  obtain ⟨account, uid, haccount, huid, hparse, hpage⟩ := run_doGetRank hver h
  rw [hpage] at hrun
  rw [haccount] at h
  have hdelta : Readable (s.board (.tmp .coinDelta)) := by
    by_contra hread
    have hprofit : run (rankForProfit (some account) user_table) s = (.error .ValueError, s) :=
      run_bind_error (ranking_unreadable hread ..)
    rw [run_bind_error hprofit] at hrun
    cases hrun
  cases b with
  | coinDelta => exact hdelta
  | coin =>
    by_contra hread
    obtain ⟨profit, ownProfit, hprofit, -⟩ := rankForProfit_spec h hparse huid hdelta
    have hcoin : run (rankForCoin (some account) user_table (s.coin user_table)) s = (.error .ValueError, s) :=
      run_bind_error (ranking_unreadable hread ..)
    rw [run_bind_ok hprofit, run_bind_error hcoin] at hrun
    cases hrun

/-- The page shows the boards so if and only if no score of the top of a snapshot is written with an exponent. -/
theorem getRank_ranked_iff (s : St) (sid user_table : String) (hver : s.shared.verfiy sid = .ok user_table)
    (h : Identified s (s.shared.info sid).account) : PageRanked s sid ↔ ∀ b, Readable (s.board (.tmp b)) := by
  refine ⟨?_, pageRanked_of_readable hver h⟩
  rintro ⟨profit, ownProfit, coin, ownCoin, hrun, -⟩
  exact readable_of_run hver h hrun

/-- Players on all boards, and a session of the account `"a"`. -/
def paged (players : List (String × Int)) : St where
  shared := {
    session := fun sid => if sid = "s" then some ("a", "3") else none
    platform := fun _ => none
    kick := fun _ => false
    userTable := fun account => some (if account = "a" then "users:3" else if account = "b" then "users:1" else "users:2")
    isUser := fun _ => true
    active := fun _ => none }
  board := fun _ => (∅ : SortedSet String Int).zaddAll players
  profile := fun _ => (none, none)
  coin := fun _ => some "5"

/-- The page of three players, two of them level. -/
theorem getRank_ranked_three : PageRanked (paged [("a", 5), ("b", 5), ("c", 9)]) "s" := by
  have hboard (b : Board) : ((paged [("a", 5), ("b", 5), ("c", 9)]).board (.tmp b)).entries = [("c", 9), ("b", 5), ("a", 5)] := by
    cases b <;> decide +kernel
  have hknown : ∀ e ∈ [("c", (9 : Int)), ("b", 5), ("a", 5)], ((paged [("a", 5), ("b", 5), ("c", 9)]).uid e.1).isSome := by
    decide +kernel
  have hdistinct : ∀ e ∈ [("c", (9 : Int)), ("b", 5), ("a", 5)], ∀ e' ∈ [("c", (9 : Int)), ("b", 5), ("a", 5)],
      (paged [("a", 5), ("b", 5), ("c", 9)]).uid e.1 = (paged [("a", 5), ("b", 5), ("c", 9)]).uid e'.1 → e.1 = e'.1 := by
    decide +kernel
  refine (getRank_ranked_iff _ "s" "users:3" (by decide +kernel) {
    own := by decide +kernel
    known := fun b e he => hknown e (by rwa [← SortedSet.mem_entries, hboard] at he)
    distinct := fun b e he e' he' => hdistinct e (by rwa [← SortedSet.mem_entries, hboard] at he) e'
      (by rwa [← SortedSet.mem_entries, hboard] at he') }).2 ?_
  rintro (_ | _) <;> decide +kernel

/-- A player with `10 ^ 17` coins: the page ends with an exception. -/
theorem getRank_exponent :
    (run (doGetRank "s") (paged [("a", 5), ("b", 10 ^ 17)])).1 = .error .ValueError ∧ ¬PageRanked (paged [("a", 5), ("b", 10 ^ 17)]) "s" := by
  have herror : (run (doGetRank "s") (paged [("a", 5), ("b", 10 ^ 17)])).1 = .error .ValueError := by decide +kernel
  refine ⟨herror, ?_⟩
  rintro ⟨profit, ownProfit, coin, ownCoin, hrun, -⟩
  rw [hrun] at herror
  cases herror

end FishWeb.Rank
