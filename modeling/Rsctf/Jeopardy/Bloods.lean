import Rsctf.Jeopardy.SolveOrder

/-!
# First, second and third blood

The pass over the sorted solves counts the bloods of every challenge up to three.
Only a solve that is eligible for a score and for a blood moves the counter, so the
slot of such a solve is the number of contenders before it, and the bloods of a
challenge are its three earliest contenders.
-/

namespace Rsctf

namespace Jeopardy

/-- The earlier of two solves of a challenge: by time, then by participation. -/
def EligibleSolve.Before (a b : EligibleSolve) : Prop :=
  a.time < b.time ∨ a.time = b.time ∧ a.participationId < b.participationId

instance (a b : EligibleSolve) : Decidable (a.Before b) :=
  inferInstanceAs (Decidable (_ ∨ _))

/-- The solves of a challenge that compete for its bloods. -/
def bloodContenders (solves : List EligibleSolve) (challengeId : ℤ) : List EligibleSolve :=
  solves.filter fun s => s.earnsBlood && s.challengeId == challengeId

/-- The contenders that were earlier than a solve. -/
def bloodRank (solves : List EligibleSolve) (s : EligibleSolve) : ℕ :=
  ((bloodContenders solves s.challengeId).filter fun other => other.Before s).length

/-- How a solve is listed: the three earliest contenders of a challenge are its
bloods. -/
def bloodType (solves : List EligibleSolve) (s : EligibleSolve) : SubmissionType :=
  if s.earnsBlood && decide (bloodRank solves s < 3) then bloodTier (bloodRank solves s)
  else .normal

theorem bloodContenders_append_singleton (solves : List EligibleSolve) (s : EligibleSolve)
    (challengeId : ℤ) :
    bloodContenders (solves ++ [s]) challengeId =
      bloodContenders solves challengeId ++
        if s.earnsBlood && s.challengeId == challengeId then [s] else [] := by
  rw [bloodContenders, bloodContenders, List.filter_append, List.filter_singleton, Bool.cond_eq_ite]

/-- The first three of a list that grows by one. -/
theorem take_three_append_singleton {α : Type*} (l : List α) (a : α) :
    (l ++ [a]).take 3 = if l.length < 3 then l.take 3 ++ [a] else l.take 3 := by
  rw [List.take_append]
  split
  case isTrue h => rw [List.take_of_length_le (l := [a]) (by rw [List.length_singleton]; omega)]
  case isFalse h => rw [Nat.sub_eq_zero_of_le (not_lt.mp h), List.take_zero, List.append_nil]

/-- What the pass has built up after some solves. -/
structure Assigned (look : BoardLookup) (solves seen : List EligibleSolve) (a : Assignment) :
    Prop where
  items : ∀ p, a.perPartItems p =
    (Keyed.rows EligibleSolve.participationId p seen).map fun s =>
      look.cell s (bloodType solves s)
  count : ∀ c, a.bloodCount c = min 3 (bloodContenders seen c).length
  bloods : ∀ c, a.challengeBloods c =
    ((bloodContenders seen c).take 3).filterMap fun s =>
      (look.partTeam s.participationId).map (look.blood s)

/-- A solve takes the slot which its rank gives it. -/
theorem assigned_step {look : BoardLookup} {solves seen : List EligibleSolve} {a : Assignment}
    {s : EligibleSolve} (h : Assigned look solves seen a)
    (hrank : bloodRank solves s = (bloodContenders seen s.challengeId).length) :
    Assigned look solves (seen ++ [s]) (assignSolve look a s) := by
  have hcount := h.count s.challengeId
  have hclaims : (s.earnsBlood && decide (a.bloodCount s.challengeId < 3)) =
      (s.earnsBlood && decide (bloodRank solves s < 3)) := by
    rw [hcount, hrank]
    congr 2
    rw [min_lt_iff]
    simp
  have htype : (if s.earnsBlood && decide (a.bloodCount s.challengeId < 3) then
      bloodTier (a.bloodCount s.challengeId) else SubmissionType.normal) = bloodType solves s := by
    rw [hclaims, bloodType]
    split
    case isTrue hslot =>
      rw [Bool.and_eq_true, decide_eq_true_iff] at hslot
      rw [hcount, ← hrank, min_eq_right hslot.2.le]
    case isFalse => rfl
  constructor
  · intro p
    rw [Keyed.rows_append, List.map_append, ← h.items p]
    simp only [assignSolve, htype]
    by_cases hp : s.participationId = p
    · subst hp
      simp [Keyed.rows]
    · simp [Keyed.rows, Function.update_of_ne (Ne.symm hp), hp]
  · intro c
    rw [bloodContenders_append_singleton]
    simp only [assignSolve, hclaims]
    by_cases hcontends : s.earnsBlood = true ∧ s.challengeId = c
    · obtain ⟨hearns, rfl⟩ := hcontends
      by_cases hslot : bloodRank solves s < 3
      · simp [hearns, hslot, hcount, ← hrank]
        omega
      · simp [hearns, hslot, hcount, ← hrank]
        omega
    · have hother : (s.earnsBlood && s.challengeId == c) = false := by simpa using hcontends
      rw [hother, if_neg Bool.false_ne_true, List.append_nil, ← h.count c]
      split
      case isTrue hslot =>
        apply Function.update_of_ne
        rintro rfl
        exact hcontends ⟨(Bool.and_eq_true_iff.mp hslot).1, rfl⟩
      case isFalse => rfl
  · intro c
    rw [bloodContenders_append_singleton]
    simp only [assignSolve, hclaims]
    by_cases hcontends : s.earnsBlood = true ∧ s.challengeId = c
    · obtain ⟨hearns, rfl⟩ := hcontends
      have hself : (s.earnsBlood && s.challengeId == s.challengeId) = true := by simp [hearns]
      rw [if_pos hself, take_three_append_singleton, ← hrank]
      by_cases hslot : bloodRank solves s < 3
      · have hclaim : (s.earnsBlood && decide (bloodRank solves s < 3)) = true := by
          simp [hearns, hslot]
        rw [if_pos hclaim, if_pos hslot, List.filterMap_append, ← h.bloods, Function.update_self]
        cases hteam : look.partTeam s.participationId <;> simp [hteam]
      · have hclaim : ¬(s.earnsBlood && decide (bloodRank solves s < 3)) = true := by simp [hslot]
        rw [if_neg hclaim, if_neg hslot, h.bloods]
    · have hother : (s.earnsBlood && s.challengeId == c) = false := by simpa using hcontends
      rw [hother, if_neg Bool.false_ne_true, List.append_nil, ← h.bloods c]
      split
      case isTrue hslot =>
        apply Function.update_of_ne
        rintro rfl
        exact hcontends ⟨(Bool.and_eq_true_iff.mp hslot).1, rfl⟩
      case isFalse => rfl

theorem before_iff_sortKey_lt {a b : EligibleSolve} (h : a.challengeId = b.challengeId) :
    a.Before b ↔ a.sortKey < b.sortKey := by
  simp [EligibleSolve.Before, EligibleSolve.sortKey, Prod.Lex.toLex_lt_toLex, h]

theorem bloodRank_perm {solves solves' : List EligibleSolve} (h : solves.Perm solves') :
    bloodRank solves = bloodRank solves' := by
  funext s
  exact ((h.filter _).filter _).length_eq

theorem sortSolves_perm_self (solves : List EligibleSolve) : (sortSolves solves).Perm solves :=
  List.perm_insertionSort _ solves

/-- In sorted order, the rank of a solve counts the contenders seen so far. -/
theorem bloodRank_of_split {seen later : List EligibleSolve} {s : EligibleSolve}
    (hsorted : ((seen ++ s :: later).map EligibleSolve.sortKey).Pairwise (· < ·)) :
    bloodRank (seen ++ s :: later) s = (bloodContenders seen s.challengeId).length := by
  have hbefore : ((bloodContenders (seen ++ s :: later) s.challengeId).filter
        fun other => other.Before s) =
      (seen ++ s :: later).filter fun other =>
        (other.earnsBlood && other.challengeId == s.challengeId) &&
          decide (other.sortKey < s.sortKey) := by
    rw [bloodContenders, List.filter_filter]
    apply List.filter_congr
    intro other _
    by_cases hchallenge : other.challengeId = s.challengeId
    · simp [hchallenge, before_iff_sortKey_lt hchallenge, Bool.and_comm]
    · have hother : (other.challengeId == s.challengeId) = false := beq_eq_false_iff_ne.mpr hchallenge
      simp [hother]
  rw [bloodRank, hbefore, Keyed.filter_lt_key hsorted, bloodContenders]

theorem pairwise_sortSolves {solves : List EligibleSolve}
    (hnd : (solves.map fun s => (s.participationId, s.challengeId)).Nodup) :
    ((sortSolves solves).map EligibleSolve.sortKey).Pairwise (· < ·) := by
  have : Std.Total fun a b : EligibleSolve => a.sortKey ≤ b.sortKey :=
    ⟨fun a b => le_total a.sortKey b.sortKey⟩
  have : IsTrans EligibleSolve fun a b => a.sortKey ≤ b.sortKey := ⟨fun a b c => le_trans⟩
  have hle : ((sortSolves solves).map EligibleSolve.sortKey).Pairwise (· ≤ ·) :=
    List.pairwise_map.mpr (List.pairwise_insertionSort _ solves)
  have hkeys : ((sortSolves solves).map EligibleSolve.sortKey).Nodup :=
    (((sortSolves_perm_self solves).map _).nodup_iff).mpr (nodup_sortKey hnd)
  exact (hle.and hkeys).imp fun h => lt_of_le_of_ne h.1 h.2

/-- The whole pass: every solve is listed by its rank among the contenders. -/
theorem assigned_assignSolves (look : BoardLookup) {solves : List EligibleSolve}
    (hnd : (solves.map fun s => (s.participationId, s.challengeId)).Nodup) :
    Assigned look solves (sortSolves solves) (assignSolves look (sortSolves solves)) := by
  have hrun : ∀ seen later, sortSolves solves = seen ++ later →
      Assigned look solves seen (assignSolves look seen) := by
    intro seen
    induction seen using List.reverseRecOn with
    | nil => exact fun _ _ => ⟨fun _ => rfl, fun _ => rfl, fun _ => rfl⟩
    | append_singleton seen s ih =>
        intro later hsplit
        rw [List.append_assoc, List.singleton_append] at hsplit
        rw [assignSolves, List.foldl_append, ← assignSolves]
        apply assigned_step (ih (s :: later) hsplit)
        rw [← bloodRank_perm (sortSolves_perm_self solves), hsplit]
        apply bloodRank_of_split
        rw [← hsplit]
        exact pairwise_sortSolves hnd
  exact hrun (sortSolves solves) [] (List.append_nil _).symm

section Standings

variable (t : GameTables)

/-- A row without its ranks. -/
def ScoreboardItem.unranked (item : ScoreboardItem) : ScoreboardItem :=
  { item with rank := 0, divisionRank := none }

/-- Ranking numbers the rows and leaves the rest of them as it is. -/
theorem map_unranked_rankItems (overall : ℤ) (division : ℤ → ℤ) (items : List ScoreboardItem) :
    (rankItems t overall division items).map ScoreboardItem.unranked =
      items.map ScoreboardItem.unranked := by
  induction items generalizing overall division with
  | nil => rfl
  | cons item items ih =>
      rw [rankItems]
      split
      case h_1 => rw [List.map_cons, List.map_cons, ih]; rfl
      case h_2 => rw [List.map_cons, List.map_cons, ih]; rfl

variable {libm : Libm} {roster : Roster} {subs : List SolveRow} {solves : List EligibleSolve}
  {updateTime : ℤ} {frozen : Bool}

/-- The rows of the board are those of the participations. -/
theorem boardOf_items_perm :
    ((boardOf t libm roster subs solves updateTime frozen).items.map
        ScoreboardItem.unranked).Perm
      (roster.parts.map (scoreboardItem (boardLookup t libm roster subs solves)
        (assignSolves (boardLookup t libm roster subs solves) (sortSolves solves)))) := by
  rw [boardOf, map_unranked_rankItems]
  apply ((List.perm_insertionSort _ _).map _).trans
  rw [List.map_map]
  exact .of_eq rfl

/-- The team of a participation. -/
def teamOf (roster : Roster) (participationId : ℤ) : Option ℤ :=
  (Keyed.get Participation.id participationId roster.parts).map Participation.teamId

end Standings

variable (t : GameTables)

end Jeopardy

end Rsctf
