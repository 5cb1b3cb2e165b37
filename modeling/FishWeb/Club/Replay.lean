import FishWeb.Club.Mirror
import FishWeb.Lib.Dict
import FishWeb.Lib.Value
import Mathlib.Data.List.Sort
/-!
# The games of a club and who won them

`history` of `hall/club.py` only reads, so it is a function of the store. `order` is the
order of the keys of a dictionary, which is not the language's to say.

A replay whose key has expired ends the request in an exception, and where there is none the
list and the statistics are what the games come to (`history_right_iff`). Left out: the
nicknames beside the scores and the agent of the club, which nothing reads.
-/
open Python Dict

namespace FishWeb.Club.Replay

open Common

/-! ## The store -/

/-- `PLAY_GAME_DATA`, with the fields that are set. -/
structure Data where
  player : Option String
  gameid : Option String
  score : Option String
  tag : Option String

structure Archive where
  club : St
  /-- `smembers("club:replay:%s:set")`, in any order. -/
  replays : String → MemberSet String
  /-- `exists(hisData)` -/
  lives : String → Bool
  data : String → Option Data
  /-- `hget (GAME_TABLE % gameid, 'name')` -/
  gameName : Option String → Option String

/-- `get (FORMAT_ACCOUNT2USER_TABLE % account)` -/
def Archive.userTable (s : Archive) (account : String) : Option String := s.club.room.shared.userTable account

/-- `hget (table, 'nickname')` -/
def Archive.nickname (s : Archive) (table : Option String) : Option String := (s.club.profile (fmt table)).nickname

def dataTable (num time : String) : String := "game:" ++ num ++ ":startTime:" ++ time ++ ":playGame:hash"

/-! ## Keys of replays -/

/-- What follows the first `tag` that any `ok` character follows: `re.search(tag + '[..]+', s)`. -/
def search (tag : List Char) (ok : Char → Bool) : List Char → Option (List Char)
  | [] => none
  | c :: cs =>
    if tag.isPrefixOf (c :: cs) ∧ (((c :: cs).drop tag.length).takeWhile ok) ≠ [] then
      some (((c :: cs).drop tag.length).takeWhile ok)
    else search tag ok cs

/-- `startTime:[0-9]+` -/
def timeOf (hisData : String) : Option String := (search "startTime:".toList Char.isDigit hisData.toList).map String.ofList

/-- `game:\w+` -/
def roomOf (hisData : String) : Option String :=
  (search "game:".toList (fun c => c.isAlphanum || c = '_') hisData.toList).map String.ofList

example : timeOf "replay:game:123456:startTime:1500000000000:hash" = some "1500000000000" := by decide

example : roomOf "replay:game:123456:startTime:1500000000000:hash" = some "123456" := by decide

/-! ## The loop -/

structure Score where
  account : String
  score : Int
  deriving DecidableEq

/-- An element of `playHisList`. -/
structure PlayHis where
  time : String
  room_id : String
  room_master : Option String
  game_name : Option String
  game_id : Option String
  data : String
  tag : Nat
  score : Int
  deriving DecidableEq

/-- What the loop builds. -/
structure Lists where
  user_list : List (String × Nat)
  dataTableDict : List (String × List String)
  userScores : List (String × Int)
  playHisList : List PlayHis

/-- A value, or the exception there is without it. -/
def need {α : Type} (e : Err) (x : Option α) : Except Err α :=
  match x with
  | some a => .ok a
  | none => .error e

theorem need_some {α β : Type} {e : Err} {x : Option α} {a : α} (h : x = some a) (f : α → Except Err β) : (need e x >>= f) = f a :=
  h ▸ rfl

theorem need_bind {α β : Type} {e : Err} {x : Option α} {f : α → Except Err β} {b : β} :
    (need e x >>= f) = .ok b ↔ ∃ a, x = some a ∧ f a = .ok b := by
  cases x with
  | none => exact ⟨fun h => (nomatch h), fun ⟨_, h, _⟩ => nomatch h⟩
  | some a =>
    constructor
    · exact fun h => ⟨a, rfl, h⟩
    · rintro ⟨_, ha, h⟩
      rwa [← Option.some.inj ha] at h

/-- The score of a `gamePlayer`. -/
def scoreOf (scoreData : Option String) (gamePlayer : String) : Except Err Score := do
  let hisPlayer ← need .IndexError (index (split ',' gamePlayer) 1)
  let side ← need .ValueError ((index (split ',' gamePlayer) 0).bind int)
  let scoreData ← need .AttributeError scoreData
  let score ← need .IndexError (index (split ':' scoreData) side)
  return ⟨hisPlayer, ← need .ValueError (int score)⟩

/-- `reduce(lambda x, y: x if x["score"] > y["score"] else y, scores)` -/
def winOf : List Score → Option Score
  | [] => none
  | x :: scores => some (scores.foldl (fun x y => if y.score < x.score then x else y) x)

/-- The accounts that win beside `win`, each counted up. -/
def Lists.count (t : Lists) (dataTable : String) (win : Score) (scores : List Score) : Lists :=
  scores.foldl (fun t item =>
    if item.account = win.account ∨ win.score = item.score then
      { t with
        user_list := set t.user_list item.account (get t.user_list item.account 0 + 1)
        dataTableDict := set t.dataTableDict item.account (get t.dataTableDict item.account [] ++ [dataTable])
        userScores := set t.userScores item.account (get t.userScores item.account 0 + item.score) }
    else t) t

/-- `hget (dataTable, 'tag')`, as a condition. -/
def Data.tagged (d : Data) : Bool := d.tag.getD "" ≠ ""

/-- What an untagged game counts up. -/
def counted (t : Lists) (dataTable : String) (tagged : Bool) (scores : List Score) : Except Err Lists := do
  if tagged then return t
  let win ← need .TypeError (winOf scores)
  return t.count dataTable win scores

/-- The body of the loop. -/
def replay (s : Archive) (t : Lists) (hisData : String) : Except Err Lists := do
  let time ← need .AttributeError (timeOf hisData)
  let num ← need .AttributeError (roomOf hisData)
  -- `playHis`, from which the key is to be removed, is not defined
  if !s.lives hisData then throw .NameError else
  match s.data (dataTable num time) with
  | none => return t
  | some d =>
    let players := split ':' (← need .AttributeError d.player)
    let ownnerAccount ← need .IndexError ((players.head?).bind fun player => index (split ',' player) 1)
    let scores ← (players.filter (· ≠ "")).mapM (scoreOf d.score)
    let t ← counted t (dataTable num time) d.tagged scores
    -- the variable `score` keeps the value of the last player
    let score ← need .NameError scores.getLast?
    return { t with
      playHisList := t.playHisList ++ [⟨time, num, s.nickname (s.userTable ownnerAccount), s.gameName d.gameid, d.gameid,
        dataTable num time, if d.tagged then 1 else 0, score.score⟩] }

/-! ## The handler -/

/-- An element of `user_win_data`. -/
structure UserWin where
  dataTable : List String
  number : Nat
  score : Int
  account : String
  nickname : Option String
  user_id : String
  deriving DecidableEq

def userResult (s : Archive) (t : Lists) (item : String) : Except Err UserWin := do
  let user_path ← need .AttributeError (s.userTable item)
  return {
    dataTable := get t.dataTableDict item []
    number := get t.user_list item 0
    score := get t.userScores item 0
    account := item
    nickname := s.nickname (some user_path)
    user_id := (split ':' user_path).getLastD "" }

inductive Answer where
  | refused (r : Refusal)
  | found (list : List PlayHis) (win_data : List UserWin)
  deriving DecidableEq

/-- `int(x["time"])` of digits -/
def PlayHis.when (x : PlayHis) : Int := (int x.time).getD 0

/-- What the loop comes to over `playerDatas`. -/
def replays (s : Archive) (playerDatas : List String) : Except Err Lists := playerDatas.foldlM (replay s) ⟨[], [], [], []⟩

/-- The answer after the loop. -/
def found (order : List String → List String) (s : Archive) (t : Lists) : Except Err Answer := do
  let user_win_data ← (order (keys t.user_list)).mapM (userResult s t)
  return .found (t.playHisList.insertionSort fun x y => -x.when ≤ -y.when)
    (user_win_data.insertionSort fun x y => -(x.number : Int) ≤ -(y.number : Int))

def history (order : List String → List String) (s : Archive) (sid club_number : String) : Except Err Answer := do
  if !(s.club.room.shared.session sid).isSome then return .refused ⟨-3, "sid 超时", none⟩
  if elsewhere sid (s.club.room.shared.info sid) then return .refused ⟨-4, "账号已在其他地方登录", some sid⟩
  if club_number = "" then return .refused ⟨1, "俱乐部编号没有传递", none⟩
  if !(s.club.attr club_number).isSome then return .refused ⟨1, "不存在这个俱乐部", none⟩
  let t ← replays s (s.replays club_number).members
  found order s t

/-! ## Games -/

/-- What a replay says about its game. -/
structure Game where
  num : String
  time : String
  gameid : Option String
  tagged : Bool
  scores : List Score

/-- The greatest score. -/
def Game.best (g : Game) : Int := (g.scores.map Score.score).max?.getD 0

/-- The account has the greatest score, and the game counts. -/
def Game.wonBy (account : String) (g : Game) : Bool := !g.tagged && ⟨account, g.best⟩ ∈ g.scores

/-- The data of the replay `hisData` are complete, and those of the game `g`. -/
structure Records (s : Archive) (hisData : String) (g : Game) : Prop where
  num : roomOf hisData = some g.num
  time : timeOf hisData = some g.time
  data : ∃ d players, s.data (dataTable g.num g.time) = some d ∧ d.player = some players ∧ d.gameid = g.gameid ∧
    d.tagged = g.tagged ∧ (split ':' players).head? ≠ some "" ∧
    ((split ':' players).filter (· ≠ "")).mapM (scoreOf d.score) = .ok g.scores
  nodup : (g.scores.map Score.account).Nodup
  users : ∀ x ∈ g.scores, (s.userTable x.account).isSome

/-- The games whose replays have not expired. -/
def Archive.existing (s : Archive) (game : String → Game) (club_number : String) : List Game :=
  ((s.replays club_number).members.filter (s.lives ·)).map game

/-- The list and the statistics are those of the games. -/
structure Right (games : List Game) (list : List PlayHis) (win_data : List UserWin) : Prop where
  listed : (list.map fun x => (x.room_id, x.time, x.game_id, x.tag)).Perm
    (games.map fun g => (g.num, g.time, g.gameid, if g.tagged then 1 else 0))
  newest : list.Pairwise fun x y => y.when ≤ x.when
  winners : ∀ account, account ∈ win_data.map UserWin.account ↔ ∃ g ∈ games, g.wonBy account
  once : (win_data.map UserWin.account).Nodup
  wins : ∀ x ∈ win_data, x.number = (games.filter (Game.wonBy x.account)).length ∧
    x.score = ((games.filter (Game.wonBy x.account)).map Game.best).sum

/-! ### The winners of a game -/

section
variable {s : Archive} {g : Game} {scores : List Score}

theorem winOf_spec (h : scores ≠ []) :
    ∃ win ∈ scores, winOf scores = some win ∧ win.score = (scores.map Score.score).max?.getD 0 := by
  obtain ⟨x, l, rfl⟩ := List.exists_cons_of_ne_nil h
  have hfold : ∀ (l : List Score) (x : Score), ∃ win ∈ x :: l,
      l.foldl (fun x y => if y.score < x.score then x else y) x = win ∧ ∀ y ∈ x :: l, y.score ≤ win.score := by
    intro l
    induction l with
    | nil => exact fun x => ⟨x, List.mem_cons_self, rfl, fun y hy => by rw [List.mem_singleton.1 hy]⟩
    | cons y l ih =>
      intro x
      rw [List.foldl_cons]
      by_cases hxy : y.score < x.score
      · rw [if_pos hxy]
        obtain ⟨win, hmem, hwin, hmax⟩ := ih x
        refine ⟨win, ?_, hwin, fun z hz => ?_⟩
        · rcases List.mem_cons.1 hmem with rfl | hmem
          · exact List.mem_cons_self
          · exact List.mem_cons_of_mem _ (List.mem_cons_of_mem _ hmem)
        · rcases List.mem_cons.1 hz with rfl | hz
          · exact hmax z List.mem_cons_self
          rcases List.mem_cons.1 hz with rfl | hz
          · exact hxy.le.trans (hmax x List.mem_cons_self)
          · exact hmax z (List.mem_cons_of_mem _ hz)
      · rw [if_neg hxy]
        obtain ⟨win, hmem, hwin, hmax⟩ := ih y
        refine ⟨win, List.mem_cons_of_mem _ hmem, hwin, fun z hz => ?_⟩
        rcases List.mem_cons.1 hz with rfl | hz
        · exact (not_lt.1 hxy).trans (hmax y List.mem_cons_self)
        · exact hmax z hz
  obtain ⟨win, hmem, hwin, hmax⟩ := hfold l x
  refine ⟨win, hmem, congrArg some hwin, ?_⟩
  have hbest : ((x :: l).map Score.score).max? = some win.score :=
    List.max?_eq_some_iff.2 ⟨List.mem_map_of_mem hmem, fun n hn => by
      obtain ⟨y, hy, rfl⟩ := List.mem_map.1 hn
      exact hmax y hy⟩
  rw [hbest, Option.getD_some]

/-- Who wins a game, with the table of its data and his score. -/
def Game.wins (g : Game) : List (String × String × Int) :=
  if g.tagged then []
  else (g.scores.filter (·.score = g.best)).map fun x => (x.account, dataTable g.num g.time, x.score)

/-- A win counted up in each dictionary. -/
def Lists.win (t : Lists) (x : String × String × Int) : Lists :=
  { t with
    user_list := addTo (fun n _ => n + 1) 0 t.user_list x
    dataTableDict := addTo (fun l v => l ++ [v.1]) [] t.dataTableDict x
    userScores := addTo (fun n v => n + v.2) 0 t.userScores x }

/-- Who has the account of the winner is the winner, so those counted are those with the greatest score. -/
theorem count_eq (t : Lists) (table : String) {win : Score} (hwin : win ∈ scores) (hnd : (scores.map Score.account).Nodup) :
    t.count table win scores =
      ((scores.filter (·.score = win.score)).map fun x => (x.account, table, x.score)).foldl Lists.win t := by
  rw [List.foldl_map, List.foldl_filter]
  refine List.foldl_ext _ _ _ fun t item hitem => ?_
  have hiff : (item.account = win.account ∨ win.score = item.score) ↔ Decidable.decide (item.score = win.score) = true := by
    rw [decide_eq_true_eq]
    refine ⟨?_, fun h => .inr h.symm⟩
    rintro (h | h)
    · rw [List.inj_on_of_nodup_map hnd hitem hwin h]
    · exact h.symm
  exact if_congr hiff rfl rfl

theorem foldl_win (l : List (String × String × Int)) (t : Lists) :
    l.foldl Lists.win t = ⟨l.foldl (addTo (fun n _ => n + 1) 0) t.user_list, l.foldl (addTo (fun l v => l ++ [v.1]) []) t.dataTableDict,
      l.foldl (addTo (fun n v => n + v.2) 0) t.userScores, t.playHisList⟩ := by
  induction l generalizing t with
  | nil => rfl
  | cons x l ih => rw [List.foldl_cons, ih]; rfl

/-- The wins of an account in a game it has won. -/
theorem valuesOf_wins (hnd : (g.scores.map Score.account).Nodup) (account : String) :
    valuesOf g.wins account = if g.wonBy account then [(dataTable g.num g.time, g.best)] else [] := by
  unfold Game.wins Game.wonBy
  cases g.tagged with
  | true => rfl
  | false =>
  have hvalues : valuesOf ((g.scores.filter (·.score = g.best)).map fun x => (x.account, dataTable g.num g.time, x.score)) account =
      (g.scores.filter (· = ⟨account, g.best⟩)).map fun x => (dataTable g.num g.time, x.score) := by
    rw [valuesOf, List.filter_map, List.map_map, List.filter_filter]
    refine congrArg _ (List.filter_congr fun x _ => ?_)
    cases x
    simp [Score.mk.injEq]
  have hscores : g.scores.Nodup := hnd.of_map _
  simp only [Bool.false_eq_true, if_false, Bool.not_false, Bool.true_and, hvalues, List.filter_eq]
  by_cases hmem : (⟨account, g.best⟩ : Score) ∈ g.scores
  · simp [hmem, List.count_eq_one_of_mem hscores hmem]
  · simp [hmem, List.count_eq_zero_of_not_mem hmem]

/-! ### What the loop comes to -/

/-- The wins of games, one after another. -/
def winsOf (games : List Game) : List (String × String × Int) := games.flatMap Game.wins

/-- The element of `playHisList` for a game. -/
def Archive.entry (s : Archive) (g : Game) : PlayHis where
  time := g.time
  room_id := g.num
  room_master := g.scores.head?.bind fun x => s.nickname (s.userTable x.account)
  game_name := s.gameName g.gameid
  game_id := g.gameid
  data := dataTable g.num g.time
  tag := if g.tagged then 1 else 0
  score := (g.scores.getLast?.map Score.score).getD 0

/-- What the loop has built after the games. -/
def built (s : Archive) (games : List Game) : Lists where
  user_list := accumulate (fun n _ => n + 1) 0 (winsOf games)
  dataTableDict := accumulate (fun l v => l ++ [v.1]) [] (winsOf games)
  userScores := accumulate (fun n v => n + v.2) 0 (winsOf games)
  playHisList := games.map s.entry

theorem built_concat (games : List Game) :
    built s (games ++ [g]) =
      { g.wins.foldl Lists.win (built s games) with
        playHisList := (g.wins.foldl Lists.win (built s games)).playHisList ++ [s.entry g] } := by
  have hwins : winsOf (games ++ [g]) = winsOf games ++ g.wins := by simp [winsOf]
  rw [foldl_win]
  simp only [built, accumulate, hwins, List.foldl_append, List.map_append, List.map_cons, List.map_nil]

theorem scoreOf_account {scoreData : Option String} {gamePlayer : String} {x : Score} (h : scoreOf scoreData gamePlayer = .ok x) :
    index (split ',' gamePlayer) 1 = some x.account := by
  obtain ⟨hisPlayer, hacc, h⟩ := need_bind.1 h
  obtain ⟨side, -, h⟩ := need_bind.1 h
  obtain ⟨scoreData, -, h⟩ := need_bind.1 h
  obtain ⟨text, -, h⟩ := need_bind.1 h
  obtain ⟨score, -, h⟩ := need_bind.1 h
  rw [hacc, ← Except.ok.inj h]

/-- The first player has a score, and the master of the room is his. -/
theorem scores_head {scoreData : Option String} {players : List String} (hne : players ≠ []) (hfirst : players.head? ≠ some "")
    (h : (players.filter (· ≠ "")).mapM (scoreOf scoreData) = .ok scores) :
    ∃ x l, scores = x :: l ∧ (players.head?).bind (fun player => index (split ',' player) 1) = some x.account := by
  obtain ⟨p, rest, rfl⟩ := List.exists_cons_of_ne_nil hne
  have hp : p ≠ "" := fun hp => hfirst (congrArg some hp)
  rw [List.filter_cons, if_pos (by simpa using hp)] at h
  obtain ⟨x, l, hx, -, rfl⟩ := mapM_cons_ok.1 h
  exact ⟨x, l, rfl, scoreOf_account hx⟩

theorem replay_eq {hisData : String} (h : Records s hisData g) (hlive : s.lives hisData = true) (games : List Game) :
    replay s (built s games) hisData = .ok (built s (games ++ [g])) := by
  obtain ⟨d, players, hdata, hplayers, hgameid, htagged, hfirst, hscores⟩ := h.data
  have hsplit : split ':' players ≠ [] := List.map_eq_nil_iff.not.2 (splitChars_ne_nil _ _)
  obtain ⟨x, l, hcons, howner⟩ := scores_head hsplit hfirst hscores
  have hne : g.scores ≠ [] := hcons ▸ List.cons_ne_nil x l
  obtain ⟨win, hwin, hwinOf, hbest⟩ := winOf_spec hne
  obtain ⟨last, hlast⟩ := Option.isSome_iff_exists.1 (List.getLast?_isSome.2 hne)
  have hentry : s.entry g = ⟨g.time, g.num, s.nickname (s.userTable x.account), s.gameName g.gameid, g.gameid,
      dataTable g.num g.time, if g.tagged then 1 else 0, last.score⟩ := by
    simp [Archive.entry, hcons ▸ hlast, hcons]
  rw [built_concat, hentry]
  have hcounted : counted (built s games) (dataTable g.num g.time) g.tagged g.scores = .ok (g.wins.foldl Lists.win (built s games)) := by
    unfold counted Game.wins
    cases g.tagged with
    | true => rfl
    | false =>
      rw [need_some hwinOf, count_eq _ _ hwin h.nodup, hbest]
      rfl
  unfold replay
  rw [need_some h.time, need_some h.num, hlive]
  simp only [hdata]
  rw [need_some hplayers, need_some howner, ok_bind hscores, htagged, ok_bind hcounted, need_some hlast, hgameid]
  rfl

/-- The loop over the replays, where none has expired. -/
theorem replays_eq {game : String → Game} {l : List String} (hlives : ∀ k ∈ l, s.lives k = true)
    (hrecords : ∀ k ∈ l, Records s k (game k)) : replays s l = .ok (built s (l.map game)) := by
  have hloop : ∀ games, l.foldlM (replay s) (built s games) = .ok (built s (games ++ l.map game)) := by
    induction l with
    | nil => intro games; simp; rfl
    | cons k l ih =>
      intro games
      rw [List.foldlM_cons, ok_bind (replay_eq (hrecords k List.mem_cons_self) (hlives k List.mem_cons_self) games),
        ih (fun j hj => hlives j (List.mem_cons_of_mem k hj)) (fun j hj => hrecords j (List.mem_cons_of_mem k hj)),
        List.append_assoc, List.map_cons, List.singleton_append]
  exact hloop []

theorem replay_expired {hisData : String} (hdead : s.lives hisData = false) (t r : Lists) : replay s t hisData ≠ .ok r := by
  intro h
  obtain ⟨time, -, h⟩ := need_bind.1 h
  obtain ⟨num, -, h⟩ := need_bind.1 h
  rw [hdead] at h
  cases h

/-- An expired replay ends the loop. -/
theorem replays_expired {game : String → Game} {l : List String} (hrecords : ∀ k ∈ l, s.lives k = true → Records s k (game k))
    {k : String} (hk : k ∈ l) (hdead : s.lives k = false) (r : Lists) : replays s l ≠ .ok r := by
  have hloop : ∀ games, l.foldlM (replay s) (built s games) ≠ .ok r := by
    induction l with
    | nil => cases hk
    | cons j l ih =>
      intro games h
      rw [List.foldlM_cons] at h
      cases hlive : s.lives j with
      | false =>
        cases hj : replay s (built s games) j with
        | ok t => exact replay_expired hlive _ _ hj
        | error e => rw [hj] at h; cases h
      | true =>
        rw [ok_bind (replay_eq (hrecords j List.mem_cons_self hlive) hlive games)] at h
        have hrest : k ∈ l := (List.mem_cons.1 hk).resolve_left fun he => by rw [he, hlive] at hdead; cases hdead
        exact ih (fun i hi => hrecords i (List.mem_cons_of_mem j hi)) hrest _ h
  exact hloop []

/-! ### What is shown -/

section Shown
variable {games : List Game}

theorem valuesOf_winsOf (hnd : ∀ g ∈ games, (g.scores.map Score.account).Nodup) (account : String) :
    valuesOf (winsOf games) account = (games.filter (Game.wonBy account)).map fun g => (dataTable g.num g.time, g.best) := by
  induction games with
  | nil => rfl
  | cons g games ih =>
    have happend : valuesOf (winsOf (g :: games)) account = valuesOf g.wins account ++ valuesOf (winsOf games) account := by
      simp [winsOf, valuesOf]
    rw [happend, valuesOf_wins (hnd g List.mem_cons_self), ih fun h hh => hnd h (List.mem_cons_of_mem g hh), List.filter_cons]
    cases g.wonBy account <;> rfl

/-- What is shown of an account. -/
def Archive.result (s : Archive) (games : List Game) (account : String) : UserWin where
  dataTable := (games.filter (Game.wonBy account)).map fun g => dataTable g.num g.time
  number := (games.filter (Game.wonBy account)).length
  score := ((games.filter (Game.wonBy account)).map Game.best).sum
  account := account
  nickname := s.nickname (s.userTable account)
  user_id := (split ':' (fmt (s.userTable account))).getLastD ""

/-- What a list adds up to in each dictionary. -/
theorem foldl_adds (l : List (String × Int)) :
    l.foldl (fun n _ => n + 1) 0 = l.length ∧ l.foldl (fun l v => l ++ [v.1]) [] = l.map Prod.fst ∧
      l.foldl (fun n v => n + v.2) 0 = (l.map Prod.snd).sum := by
  induction l using List.reverseRecOn with
  | nil => exact ⟨rfl, rfl, rfl⟩
  | append_singleton l x ih =>
    obtain ⟨hnumber, htable, hscore⟩ := ih
    simp [hnumber, htable, hscore]

theorem userResult_eq (hnd : ∀ g ∈ games, (g.scores.map Score.account).Nodup) {account : String}
    (hpath : (s.userTable account).isSome) : userResult s (built s games) account = .ok (s.result games account) := by
  obtain ⟨path, hpath⟩ := Option.isSome_iff_exists.1 hpath
  obtain ⟨hnumber, htable, hscore⟩ := foldl_adds (valuesOf (winsOf games) account)
  unfold userResult Archive.result built
  rw [need_some hpath]
  simp only [get_accumulate, hnumber, htable, hscore]
  rw [valuesOf_winsOf hnd, List.map_map, List.map_map, List.length_map, hpath]
  rfl

/-- Who is in the dictionaries has won a game. -/
theorem mem_keys_built (hnd : ∀ g ∈ games, (g.scores.map Score.account).Nodup) (account : String) :
    account ∈ keys (built s games).user_list ↔ ∃ g ∈ games, g.wonBy account = true := by
  have hvalues : (∃ x ∈ winsOf games, x.1 = account) ↔ valuesOf (winsOf games) account ≠ [] := by
    simp [valuesOf]
  rw [built, mem_keys_accumulate, hvalues, valuesOf_winsOf hnd]
  simp

/-- Who has won a game has a score in it. -/
theorem mem_scores_of_wonBy {g : Game} {account : String} (h : g.wonBy account = true) : ∃ x ∈ g.scores, x.account = account := by
  rw [Game.wonBy, Bool.and_eq_true, decide_eq_true_eq] at h
  exact ⟨_, h.2, rfl⟩

end Shown

/-! ### The exact condition -/

theorem pairwise_sorted {α : Type} (key : α → Int) (l : List α) :
    (l.insertionSort fun x y => -key x ≤ -key y).Pairwise fun x y => key y ≤ key x := by
  have htotal : Std.Total fun x y : α => -key x ≤ -key y := ⟨fun x y => le_total _ _⟩
  have htrans : IsTrans α fun x y => -key x ≤ -key y := ⟨fun _ _ _ => le_trans⟩
  exact (List.pairwise_insertionSort _ l).imp fun h => neg_le_neg_iff.1 h

/-- The request shows the list and the statistics of the games. -/
def Shows (games : List Game) (r : Except Err Answer) : Prop :=
  ∃ list win_data, r = .ok (.found list win_data) ∧ Right games list win_data

theorem found_shows {order : List String → List String} (horder : ∀ l, (order l).Perm l) {games : List Game}
    (hnd : ∀ g ∈ games, (g.scores.map Score.account).Nodup)
    (husers : ∀ g ∈ games, ∀ x ∈ g.scores, (s.userTable x.account).isSome) : Shows games (found order s (built s games)) := by
  have hmem : ∀ account, account ∈ order (keys (built s games).user_list) ↔ ∃ g ∈ games, g.wonBy account = true := fun account => by
    rw [(horder _).mem_iff, mem_keys_built hnd]
  have hresults : (order (keys (built s games).user_list)).mapM (userResult s (built s games)) =
      .ok ((order (keys (built s games).user_list)).map (s.result games)) := mapM_ok fun account haccount => by
    obtain ⟨g, hg, hwon⟩ := (hmem account).1 haccount
    obtain ⟨x, hx, rfl⟩ := mem_scores_of_wonBy hwon
    exact userResult_eq hnd (husers g hg x hx)
  have haccounts : ((order (keys (built s games).user_list)).map (s.result games)).map UserWin.account =
      order (keys (built s games).user_list) := by
    rw [List.map_map]
    exact List.map_id _
  unfold found
  rw [ok_bind hresults]
  refine ⟨_, _, rfl, ?_, pairwise_sorted PlayHis.when _, fun account => ?_, ?_, fun x hx => ?_⟩
  · refine ((List.perm_insertionSort _ _).map _).trans (.of_eq ?_)
    rw [built, List.map_map]
    rfl
  · rw [((List.perm_insertionSort _ _).map UserWin.account).mem_iff, haccounts, hmem]
  · rw [((List.perm_insertionSort _ _).map UserWin.account).nodup_iff, haccounts, (horder _).nodup_iff]
    exact nodup_keys_accumulate ..
  · obtain ⟨account, -, rfl⟩ := List.mem_map.1 ((List.mem_insertionSort _).1 hx)
    exact ⟨rfl, rfl⟩

/-- The request shows the games of the club if and only if no replay of the club has expired. -/
theorem history_right_iff {order : List String → List String} (horder : ∀ l, (order l).Perm l) {s : Archive}
    {sid club_number : String} (hsession : (s.club.room.shared.session sid).isSome)
    (hhere : elsewhere sid (s.club.room.shared.info sid) = false) (hnamed : club_number ≠ "")
    (hclub : (s.club.attr club_number).isSome) {game : String → Game}
    (hrecords : ∀ hisData ∈ s.replays club_number, s.lives hisData = true → Records s hisData (game hisData)) :
    Shows (s.existing game club_number) (history order s sid club_number) ↔
      ∀ hisData ∈ s.replays club_number, s.lives hisData = true := by
  have hhistory : history order s sid club_number = replays s (s.replays club_number).members >>= found order s := by
    unfold history
    rw [hsession, hhere, if_neg hnamed, hclub]
    rfl
  rw [hhistory]
  constructor
  · rintro ⟨list, win_data, hshown, -⟩ hisData hmem
    by_contra hdead
    cases hloop : replays s (s.replays club_number).members with
    | ok t => exact replays_expired hrecords hmem (Bool.eq_false_of_not_eq_true hdead) t hloop
    | error e => rw [hloop] at hshown; cases hshown
  · intro hlives
    have hall : s.existing game club_number = (s.replays club_number).members.map game := by
      rw [Archive.existing, List.filter_eq_self.2 hlives]
    rw [ok_bind (replays_eq hlives fun k hk => hrecords k hk (hlives k hk)), hall]
    have hgames : ∀ g ∈ (s.replays club_number).members.map game, ∃ k, Records s k g := fun g hg => by
      obtain ⟨k, hk, rfl⟩ := List.mem_map.1 hg
      exact ⟨k, hrecords k hk (hlives k hk)⟩
    refine found_shows horder (fun g hg => ?_) fun g hg => ?_
    · obtain ⟨k, hk⟩ := hgames g hg
      exact hk.nodup
    · obtain ⟨k, hk⟩ := hgames g hg
      exact hk.users

/-- Ann and Bob tied in the one game of the club 2000. -/
def tied : Archive where
  club := { noClubs with attr := fun n => if n = "2000" then some { Attr.empty with club_user := some "ann" } else none }
  replays := fun n => if n = "2000" then ⟨["game:7:startTime:5"], List.nodup_singleton _⟩ else ∅
  lives := fun hisData => hisData = "game:7:startTime:5"
  data := fun table => if table = dataTable "7" "5" then some ⟨some "0,ann:1,bob", some "3", some "8:8", none⟩ else none
  gameName := fun _ => some "mahjong"

def tiedGame : Game := ⟨"7", "5", some "3", false, [⟨"ann", 8⟩, ⟨"bob", 8⟩]⟩

theorem history_right_iff_tied : Shows (tied.existing (fun _ => tiedGame) "2000") (history id tied "a" "2000") := by
  have hrecords : ∀ hisData ∈ tied.replays "2000", tied.lives hisData = true → Records tied hisData tiedGame := by
    intro hisData _ hlive
    rw [of_decide_eq_true hlive]
    exact {
      num := by decide
      time := by decide
      data := ⟨⟨some "0,ann:1,bob", some "3", some "8:8", none⟩, "0,ann:1,bob", rfl, rfl, rfl, rfl, by decide, rfl⟩
      nodup := by decide
      users := by decide }
  exact (history_right_iff (fun _ => .refl _) (by decide) (by decide) (by decide) (by decide) hrecords).2
    fun hisData hmem => decide_eq_true (List.mem_singleton.1 hmem)

/-- The same, with a replay that has expired. -/
def expired : Archive := { tied with replays := fun _ => ⟨["game:7:startTime:5", "game:8:startTime:6"], by decide⟩ }

theorem not_shown_expired :
    history id expired "a" "2000" = .error .NameError ∧ ¬Shows (expired.existing (fun _ => tiedGame) "2000") (history id expired "a" "2000") := by
  have hraised : history id expired "a" "2000" = .error .NameError := rfl
  refine ⟨hraised, ?_⟩
  rintro ⟨list, win_data, hshown, -⟩
  rw [hraised] at hshown
  cases hshown

end

end FishWeb.Club.Replay
