import FishWeb.Lib.Dice
import FishWeb.Lib.Sets
import FishWeb.Lib.Weeks
/-!
# Suggested friends

`get_find_uids` of `fish/fish_friend.py`: ten of the users seen in the last days.
It takes the user off their list, if he is on it, and each of his friends without
asking whether they are. Left out: what the page shows of each of them.
-/
open Python Dice Calendar

namespace FishWeb.Friend

section Find
variable (friends : String → MemberSet String) (active : String → MemberSet String)

/-- `find_uids.remove(f)` -/
def remove (find_uids : List String) (f : String) : Rand Err (List String) :=
  if f ∈ find_uids then return find_uids.erase f else throw .ValueError

def getFindUids (find_uids : List String) (self_uid : Option String) : Rand Err (List String) := do
  let find_uids := (self_uid.map find_uids.erase).getD find_uids
  let find_uids ← (friends (fmt self_uid)).members.foldlM remove find_uids
  if find_uids.length < 10 then return find_uids else sample .ValueError find_uids 10

/-- From today back to the day a week ago. -/
def lastDays (today : Date) : List Date :=
  (List.range 8).filterMap fun n : Nat => ofYearDay today.year ((today.yday : Int) - n)

/-- `list(set(uids))` -/
def activeUids (today : Date) : List String :=
  ((lastDays today).flatMap fun day => (active day.isoDate).members).dedup

/-- `/friend/find/list` -/
def friendFindList (today : Date) (uid : Option String) : Rand Err (List String) :=
  getFindUids friends (activeUids active today) uid

/-! ## What is suggested -/

/-- The other active users who are no friends of the user. -/
def eligible (find_uids : List String) (self_uid : Option String) : List String :=
  find_uids.filter fun u => some u ≠ self_uid ∧ u ∉ friends (fmt self_uid)

/-- At most ten of the eligible users, each once, and all of them if they are fewer. -/
structure Suggests (find_uids : List String) (self_uid : Option String) (l : List String) : Prop where
  bounded : l.length ≤ 10
  distinct : l.Nodup
  only : l ⊆ eligible friends find_uids self_uid
  all : (eligible friends find_uids self_uid).length < 10 → eligible friends find_uids self_uid ⊆ l

variable {friends active}

theorem always_removeAll {fs l : List String} (hl : l.Nodup) (hfs : fs.Nodup) (h : fs ⊆ l) :
    Always (· = l.filter (· ∉ fs)) (fs.foldlM remove l : Rand Err (List String)) := by
  refine always_foldlM_prefix (I := fun done l' => l' = l.filter (· ∉ done)) ?_ (by simp)
  rintro done f rest rfl l' rfl
  have hf : f ∈ l.filter (· ∉ done) := by
    rw [List.nodup_append] at hfs
    refine List.mem_filter.2 ⟨h (by simp), decide_eq_true fun hd => ?_⟩
    exact hfs.2.2 f hd f List.mem_cons_self rfl
  rw [remove, if_pos hf]
  refine always_pure ?_
  rw [(hl.filter _).erase_eq_filter, List.filter_filter]
  refine List.filter_congr fun u _ => ?_
  simp [bne, beq_eq_decide, and_comm]

/-- A loop that removes all of `fs` found all of them. -/
theorem subset_of_always {fs l : List String}
    (h : Always (fun _ => True) (fs.foldlM remove l : Rand Err (List String))) : fs ⊆ l := by
  induction fs generalizing l with
  | nil => exact List.nil_subset l
  | cons f fs ih =>
    rw [List.foldlM_cons] at h
    by_cases hf : f ∈ l
    · rw [remove, if_pos hf, pure_bind] at h
      exact List.cons_subset.2 ⟨hf, fun g hg => List.mem_of_mem_erase (ih h hg)⟩
    · rw [remove, if_neg hf] at h
      exact absurd h.of_bind (not_always_throw _)

section Uids
variable {find_uids : List String} {self_uid : Option String}

theorem without_self (hl : find_uids.Nodup) :
    (self_uid.map find_uids.erase).getD find_uids = find_uids.filter fun u => some u ≠ self_uid := by
  cases self_uid with
  | none => simp
  | some uid =>
    rw [Option.map_some, Option.getD_some, hl.erase_eq_filter]
    exact List.filter_congr fun u _ => by simp [bne, beq_eq_decide]

theorem always_getFindUids (hl : find_uids.Nodup)
    (h : ∀ f ∈ friends (fmt self_uid), f ∈ find_uids ∧ some f ≠ self_uid) :
    Always (Suggests friends find_uids self_uid) (getFindUids friends find_uids self_uid) := by
  unfold getFindUids
  rw [without_self hl]
  have hsub : (friends (fmt self_uid)).members ⊆ find_uids.filter fun u => some u ≠ self_uid := by
    intro f hf
    exact List.mem_filter.2 ⟨(h f hf).1, decide_eq_true (h f hf).2⟩
  refine always_bind (always_removeAll (hl.filter _) (friends (fmt self_uid)).nodup hsub) ?_
  rintro l rfl
  have heq : (find_uids.filter fun u => some u ≠ self_uid).filter (· ∉ (friends (fmt self_uid)).members) =
      eligible friends find_uids self_uid := by
    rw [List.filter_filter, eligible]
    refine List.filter_congr fun u _ => ?_
    rw [Bool.and_comm, ← Bool.decide_and]
    rfl
  have hdistinct : (eligible friends find_uids self_uid).Nodup := hl.filter _
  rw [heq]
  split
  · rename_i hlt
    exact always_pure ⟨Nat.le_of_lt hlt, hdistinct, fun _ hu => hu, fun _ _ hu => hu⟩
  · rename_i hle
    refine (always_sample _ (Nat.not_lt.1 hle)).mono ?_
    rintro r ⟨hlen, l', hperm, hsub⟩
    refine ⟨hlen.le, hperm.nodup_iff.1 (hdistinct.sublist hsub), ?_, fun hlt => absurd hlt hle⟩
    exact fun u hu => hsub.subset (hperm.mem_iff.2 hu)

/-- A user's suggestions come out well just when his friends are among the other active users. -/
theorem always_getFindUids_iff (hl : find_uids.Nodup) :
    Always (Suggests friends find_uids self_uid) (getFindUids friends find_uids self_uid) ↔
      ∀ f ∈ friends (fmt self_uid), f ∈ find_uids ∧ some f ≠ self_uid := by
  refine ⟨fun h f hf => ?_, always_getFindUids hl⟩
  unfold getFindUids at h
  rw [without_self hl] at h
  have hmem := List.mem_filter.1 (subset_of_always h.of_bind hf)
  exact ⟨hmem.1, of_decide_eq_true hmem.2⟩

end Uids

theorem mem_activeUids {today : Date} {u : String} :
    u ∈ activeUids active today ↔ ∃ day ∈ lastDays today, u ∈ active day.isoDate := by
  rw [activeUids, List.mem_dedup, List.mem_flatMap]
  rfl

end Find

/-- Suggestions never fail and are ten eligible users, or all, just when every friend of the user was active in
the last days and is not himself. -/
theorem find_list_iff (friends active : String → MemberSet String) (today : Date) (uid : Option String) :
    Always (Suggests friends (activeUids active today) uid) (friendFindList friends active today uid) ↔
      ∀ f ∈ friends (fmt uid), (∃ day ∈ lastDays today, f ∈ active day.isoDate) ∧ some f ≠ uid := by
  have hdistinct : (activeUids active today).Nodup := List.nodup_dedup _
  rw [friendFindList, always_getFindUids_iff hdistinct]
  simp only [mem_activeUids]

/-- The first of January 2020. -/
def newYear : Date := ⟨2020, 0, by decide⟩

/-- Users 7 and 9 were seen that day. -/
def twoActive (day : String) : MemberSet String := if day = "2020-01-01" then ⟨["7", "9"], by decide⟩ else ∅

/-- User 8 is the friend of user 7. -/
def oneFriend (uid : String) : MemberSet String := if uid = "7" then ⟨["8"], by decide⟩ else ∅

/-- A friend who was not seen in the last days cannot be taken off their list. -/
theorem absent_friend_fails : activeUids twoActive newYear = ["7", "9"] ∧
    friendFindList oneFriend twoActive newYear (some "7") id = .error .ValueError ∧
    ¬Always (Suggests oneFriend (activeUids twoActive newYear) (some "7"))
      (friendFindList oneFriend twoActive newYear (some "7")) := by
  have hactive : activeUids twoActive newYear = ["7", "9"] := by decide +kernel
  have hfails : friendFindList oneFriend twoActive newYear (some "7") id = .error .ValueError := by
    rw [friendFindList, hactive]
    rfl
  refine ⟨hactive, hfails, fun h => ?_⟩
  obtain ⟨l, σ, hrun, -⟩ := h id
  rw [hfails] at hrun
  cases hrun

end FishWeb.Friend
