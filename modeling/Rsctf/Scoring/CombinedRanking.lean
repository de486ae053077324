import Mathlib.Data.Int.Order.Basic
import Rsctf.Data.Keyed
import Rsctf.Data.Ranking

/-!
# The combined ranking

The items of the combined scoreboard are sorted by descending score and then by id, and one
pass writes two competition ranks into them: a rank among all eligible items, and a rank
among the eligible items of the same division.  The pass keeps the last overall score in an
option, and the last score of every division in a triple which starts at the least `i64`.
-/

namespace Rsctf.CombinedScoreboard

open Ranking

structure CombinedScoreboardItem where
  id : ℤ
  divisionId : Option ℤ
  rank : ℤ
  divisionRank : Option ℤ
deriving DecidableEq, Repr

structure RankableItem where
  model : CombinedScoreboardItem
  scoreUnits : ℤ
  overallEligible : Bool
  divisionEligible : Bool
deriving DecidableEq, Repr

/-- `i64::MIN` -/
def i64Min : ℤ := -9223372036854775808

/-- The comparison of the sort: greater scores first, then smaller ids. -/
def rankBefore (left right : RankableItem) : Prop :=
  right.scoreUnits < left.scoreUnits ∨
    right.scoreUnits = left.scoreUnits ∧ left.model.id ≤ right.model.id

instance : DecidableRel rankBefore := fun left right =>
  inferInstanceAs (Decidable (right.scoreUnits < left.scoreUnits ∨
    right.scoreUnits = left.scoreUnits ∧ left.model.id ≤ right.model.id))

/-- What the pass keeps for the overall ranks. -/
structure OverallState where
  position : ℕ
  previous : Option (ℤ × ℕ)

/-- The triple of a division in `division_ranks`. -/
structure DivisionState where
  position : ℕ
  score : ℤ
  rank : ℕ

/-- The triple inserted for a division which has none. -/
def DivisionState.fresh : DivisionState := ⟨0, i64Min, 0⟩

def OverallState.next (state : OverallState) (score : ℤ) : ℕ × OverallState :=
  let position := state.position + 1
  let rank := match state.previous with
    | none => position
    | some (last, rank) => if last = score then rank else position
  (rank, ⟨position, some (score, rank)⟩)

def DivisionState.next (state : DivisionState) (score : ℤ) : DivisionState :=
  let position := state.position + 1
  if state.score ≠ score then ⟨position, score, position⟩ else { state with position }

def rankOverall (state : OverallState) (item : RankableItem) : OverallState × RankableItem :=
  if item.overallEligible then
    let (rank, next) := state.next item.scoreUnits
    (next, { item with model := { item.model with rank } })
  else (state, item)

def rankDivision (ranks : ℤ → Option DivisionState) (item : RankableItem) :
    (ℤ → Option DivisionState) × RankableItem :=
  if item.divisionEligible then
    match item.model.divisionId with
    | some divisionId =>
        let next := ((ranks divisionId).getD DivisionState.fresh).next item.scoreUnits
        (Function.update ranks divisionId (some next),
          { item with model := { item.model with divisionRank := some (next.rank : ℤ) } })
    | none => (ranks, item)
  else (ranks, item)

/-- The pass over the sorted items. -/
def rankAll (overall : OverallState) (divisions : ℤ → Option DivisionState) :
    List RankableItem → List RankableItem
  | [] => []
  | item :: items =>
      let (overall, item) := rankOverall overall item
      let (divisions, item) := rankDivision divisions item
      item :: rankAll overall divisions items

def rankItems (items : List RankableItem) : List RankableItem :=
  rankAll ⟨0, none⟩ (fun _ => none) (items.insertionSort rankBefore)

section Law

/-- The scores of the items which have an overall rank. -/
def overallScores (items : List RankableItem) : List ℤ :=
  (items.filter (·.overallEligible)).map (·.scoreUnits)

/-- The scores of the items ranked in a division. -/
def divisionScores (divisionId : ℤ) (items : List RankableItem) : List ℤ :=
  (items.filter fun item => item.divisionEligible ∧ item.model.divisionId = some divisionId).map
    (·.scoreUnits)

/-- What the ranking of the items makes of one of them. -/
structure Placed (items : List RankableItem) (before after : RankableItem) : Prop where
  frame : after = { before with
    model := { before.model with
      rank := after.model.rank, divisionRank := after.model.divisionRank } }
  overall : before.overallEligible = true →
    after.model.rank = 1 + ahead before.scoreUnits (overallScores items)
  overall_untouched : before.overallEligible = false → after.model.rank = before.model.rank
  division : ∀ divisionId, before.divisionEligible = true →
    before.model.divisionId = some divisionId →
    before.scoreUnits ≠ i64Min ∨ 0 < ahead before.scoreUnits (divisionScores divisionId items) →
    after.model.divisionRank =
      some (1 + ahead before.scoreUnits (divisionScores divisionId items) : ℤ)
  division_untouched : before.divisionEligible = false ∨ before.model.divisionId = none →
    after.model.divisionRank = before.model.divisionRank

/-- The items are ranked in some order of theirs, and where the ids are distinct, in the same
one whatever order they came in. -/
structure RankLaw (items : List RankableItem) : Prop where
  placed : ∃ order, order.Perm items ∧ List.Forall₂ (Placed items) order (rankItems items)
  order_free : ∀ items', items'.Perm items → (items.map (·.model.id)).Nodup →
    rankItems items' = rankItems items

end Law

section Overall

/-- The overall state after items with these scores. -/
inductive OverallState.Tracks : OverallState → List ℤ → Prop
  | start : Tracks ⟨0, none⟩ []
  | passed {seen : List ℤ} {last : ℤ} {rank : ℕ} (h : Passed seen last rank) :
      Tracks ⟨seen.length, some (last, rank)⟩ seen

variable {state : OverallState} {seen : List ℤ} {score : ℤ}

theorem OverallState.Tracks.passed_next (h : state.Tracks seen) (hscore : ∀ a ∈ seen, score ≤ a) :
    Passed (seen ++ [score]) score (state.next score).1 := by
  cases h with
  | start => exact Passed.of_lt (by simp)
  | passed h => exact h.next (hscore _ h.mem)

theorem OverallState.Tracks.next (h : state.Tracks seen) (hscore : ∀ a ∈ seen, score ≤ a) :
    (state.next score).2.Tracks (seen ++ [score]) := by
  have hpassed := h.passed_next hscore
  have hlength : state.position + 1 = (seen ++ [score]).length := by
    cases h <;> simp
  have hstate : (state.next score).2 =
      ⟨(seen ++ [score]).length, some (score, (state.next score).1)⟩ := by
    rw [← hlength]
    rfl
  rw [hstate]
  exact .passed hpassed

end Overall

section Division

/-- The triple of a division after items with these scores.  Until a score other than the
least `i64` is seen, the triple has the rank zero. -/
structure DivisionState.Tracks (state : DivisionState) (seen : List ℤ) : Prop where
  position : state.position = seen.length
  standing : state.score = i64Min ∧ state.rank = 0 ∧ (∀ a ∈ seen, a = i64Min) ∨
    Passed seen state.score state.rank ∧ ∃ a ∈ seen, a ≠ i64Min

variable {state : DivisionState} {seen : List ℤ} {score : ℤ}

theorem DivisionState.Tracks.fresh : DivisionState.fresh.Tracks [] where
  position := rfl
  standing := .inl ⟨rfl, rfl, by simp⟩

theorem DivisionState.next_score : (state.next score).score = score := by
  unfold DivisionState.next
  split
  · rfl
  next heq => simpa using heq

theorem DivisionState.Tracks.next (h : state.Tracks seen) (hscore : ∀ a ∈ seen, score ≤ a) :
    (state.next score).Tracks (seen ++ [score]) where
  position := by
    unfold DivisionState.next
    split <;> simp [h.position]
  standing := by
    rcases h.standing with ⟨hleast, hrank, hall⟩ | ⟨hpassed, a, ha, hne⟩
    · by_cases hmin : score = i64Min
      · left
        simp only [DivisionState.next, hleast, hmin, ne_eq, not_true_eq_false, if_false,
          List.mem_append, List.mem_singleton, hrank, true_and]
        rintro a (ha | rfl)
        · exact hall a ha
        · rfl
      · right
        have hlt : ∀ a ∈ seen, score < a := by
          intro a ha
          exact lt_of_le_of_ne (hscore a ha) (by rwa [hall a ha])
        refine ⟨?_, score, by simp, hmin⟩
        simpa [DivisionState.next, hleast, Ne.symm hmin, h.position] using Passed.of_lt hlt
    · right
      refine ⟨?_, a, by simp [ha], hne⟩
      have hnext := hpassed.next (hscore _ hpassed.mem)
      by_cases heq : state.score = score
      · simpa [DivisionState.next, heq] using hnext
      · simpa [DivisionState.next, heq, h.position] using hnext

theorem DivisionState.Tracks.rank_eq (h : state.Tracks seen) (rest : List ℤ)
    (hrest : ∀ a ∈ rest, a ≤ state.score)
    (hreal : state.score ≠ i64Min ∨ 0 < ahead state.score (seen ++ rest)) :
    state.rank = 1 + ahead state.score (seen ++ rest) := by
  rcases h.standing with ⟨hleast, -, hall⟩ | ⟨hpassed, -⟩
  · have hahead : ahead state.score (seen ++ rest) = 0 := by
      rw [ahead_append, ahead_eq_zero hrest, ahead_eq_zero fun a ha => (hall a ha).trans_le
        hleast.ge]
    exact absurd (hreal.resolve_left (not_not.mpr hleast)) hahead.not_gt
  · exact hpassed.rank_eq_of_append hrest

end Division

section Pass

variable {overall : OverallState} {divisions : ℤ → Option DivisionState}
  {item : RankableItem} {seen rest items : List RankableItem}

theorem overallScores_append (l l' : List RankableItem) :
    overallScores (l ++ l') = overallScores l ++ overallScores l' := by
  simp [overallScores]

theorem divisionScores_append (divisionId : ℤ) (l l' : List RankableItem) :
    divisionScores divisionId (l ++ l') =
      divisionScores divisionId l ++ divisionScores divisionId l' := by
  simp [divisionScores]

theorem le_of_mem_overallScores {score : ℤ} (h : ∀ a ∈ items, score ≤ a.scoreUnits) :
    ∀ a ∈ overallScores items, score ≤ a := by
  intro a ha
  obtain ⟨item, hitem, rfl⟩ := List.mem_map.mp ha
  exact h item (List.mem_of_mem_filter hitem)

theorem le_of_mem_divisionScores {divisionId score : ℤ}
    (h : ∀ a ∈ items, score ≤ a.scoreUnits) : ∀ a ∈ divisionScores divisionId items, score ≤ a := by
  intro a ha
  obtain ⟨item, hitem, rfl⟩ := List.mem_map.mp ha
  exact h item (List.mem_of_mem_filter hitem)

theorem overallScores_le {score : ℤ} (h : ∀ a ∈ items, a.scoreUnits ≤ score) :
    ∀ a ∈ overallScores items, a ≤ score := by
  intro a ha
  obtain ⟨item, hitem, rfl⟩ := List.mem_map.mp ha
  exact h item (List.mem_of_mem_filter hitem)

theorem divisionScores_le {divisionId score : ℤ} (h : ∀ a ∈ items, a.scoreUnits ≤ score) :
    ∀ a ∈ divisionScores divisionId items, a ≤ score := by
  intro a ha
  obtain ⟨item, hitem, rfl⟩ := List.mem_map.mp ha
  exact h item (List.mem_of_mem_filter hitem)

/-- Every division has the state of its own items. -/
def DivisionsTrack (divisions : ℤ → Option DivisionState) (seen : List RankableItem) : Prop :=
  ∀ divisionId,
    ((divisions divisionId).getD DivisionState.fresh).Tracks (divisionScores divisionId seen)

theorem rankOverall_tracks (h : overall.Tracks (overallScores seen))
    (hseen : ∀ a ∈ seen, item.scoreUnits ≤ a.scoreUnits) :
    (rankOverall overall item).1.Tracks (overallScores (seen ++ [item])) := by
  rw [overallScores_append]
  by_cases heligible : item.overallEligible = true
  · simpa [rankOverall, overallScores, heligible] using
      h.next (le_of_mem_overallScores hseen)
  · simpa [rankOverall, overallScores, heligible] using h

theorem rankDivision_tracks (h : DivisionsTrack divisions seen)
    (hseen : ∀ a ∈ seen, item.scoreUnits ≤ a.scoreUnits) :
    DivisionsTrack (rankDivision divisions item).1 (seen ++ [item]) := by
  intro divisionId
  rw [divisionScores_append]
  by_cases heligible : item.divisionEligible = true
  · cases hdivision : item.model.divisionId with
    | none => simpa [rankDivision, divisionScores, heligible, hdivision] using h divisionId
    | some own =>
        rcases eq_or_ne divisionId own with rfl | hne
        · simpa [rankDivision, divisionScores, heligible, hdivision] using
            (h divisionId).next (le_of_mem_divisionScores hseen)
        · simpa [rankDivision, divisionScores, heligible, hdivision, hne, hne.symm] using
            h divisionId
  · simpa [rankDivision, divisionScores, heligible] using h divisionId

@[simp] theorem rankOverall_scoreUnits :
    (rankOverall overall item).2.scoreUnits = item.scoreUnits := by
  unfold rankOverall
  split <;> rfl

@[simp] theorem rankOverall_divisionEligible :
    (rankOverall overall item).2.divisionEligible = item.divisionEligible := by
  unfold rankOverall
  split <;> rfl

@[simp] theorem rankOverall_divisionId :
    (rankOverall overall item).2.model.divisionId = item.model.divisionId := by
  unfold rankOverall
  split <;> rfl

theorem rankOverall_frame : (rankOverall overall item).2 = { item with
    model := { item.model with rank := (rankOverall overall item).2.model.rank } } := by
  unfold rankOverall
  split <;> rfl

theorem rankDivision_frame : (rankDivision divisions item).2 = { item with
    model := { item.model with
      divisionRank := (rankDivision divisions item).2.model.divisionRank } } := by
  unfold rankDivision
  split
  · split <;> rfl
  · rfl

/-- The overall rank does not show in the scores of a division. -/
theorem divisionScores_rankOverall (divisionId : ℤ) :
    divisionScores divisionId [(rankOverall overall item).2] = divisionScores divisionId [item] := by
  by_cases h : item.divisionEligible = true ∧ item.model.divisionId = some divisionId
  · simp [divisionScores, h]
  · simp [divisionScores, h]

theorem rankOverall_rank (h : overall.Tracks (overallScores seen))
    (hseen : ∀ a ∈ seen, item.scoreUnits ≤ a.scoreUnits)
    (hrest : ∀ a ∈ rest, a.scoreUnits ≤ item.scoreUnits)
    (heligible : item.overallEligible = true) :
    (rankOverall overall item).2.model.rank =
      1 + ahead item.scoreUnits (overallScores (seen ++ item :: rest)) := by
  have hpassed := h.passed_next (le_of_mem_overallScores hseen)
  have hrank := hpassed.rank_eq_of_append (overallScores_le hrest)
  have hscores : overallScores (seen ++ item :: rest) =
      overallScores seen ++ [item.scoreUnits] ++ overallScores rest := by
    simp [overallScores, heligible]
  simp only [rankOverall, heligible, if_true, hscores, hrank]
  push_cast
  rfl

theorem rankDivision_divisionRank (h : DivisionsTrack divisions seen)
    (hseen : ∀ a ∈ seen, item.scoreUnits ≤ a.scoreUnits)
    (hrest : ∀ a ∈ rest, a.scoreUnits ≤ item.scoreUnits) {divisionId : ℤ}
    (heligible : item.divisionEligible = true) (hdivision : item.model.divisionId = some divisionId)
    (hreal : item.scoreUnits ≠ i64Min ∨
      0 < ahead item.scoreUnits (divisionScores divisionId (seen ++ item :: rest))) :
    (rankDivision divisions item).2.model.divisionRank =
      some (1 + ahead item.scoreUnits (divisionScores divisionId (seen ++ item :: rest)) : ℤ) := by
  have htracks := (h divisionId).next (le_of_mem_divisionScores hseen)
  have hscores : divisionScores divisionId (seen ++ item :: rest) =
      divisionScores divisionId seen ++ [item.scoreUnits] ++ divisionScores divisionId rest := by
    simp [divisionScores, heligible, hdivision]
  have hrank := htracks.rank_eq (divisionScores divisionId rest)
    (by rw [DivisionState.next_score]; exact divisionScores_le hrest)
    (by rwa [DivisionState.next_score, ← hscores])
  rw [DivisionState.next_score, ← hscores] at hrank
  simp only [rankDivision, heligible, hdivision, if_true, hrank]
  push_cast
  rfl

/-- One step of the pass places its item. -/
theorem placed_step (hoverall : overall.Tracks (overallScores seen))
    (hdivisions : DivisionsTrack divisions seen)
    (hseen : ∀ a ∈ seen, item.scoreUnits ≤ a.scoreUnits)
    (hrest : ∀ a ∈ rest, a.scoreUnits ≤ item.scoreUnits) :
    Placed (seen ++ item :: rest) item
      (rankDivision divisions (rankOverall overall item).2).2 where
  frame := by
    rw [rankDivision_frame, rankOverall_frame]
  overall := by
    intro heligible
    rw [rankDivision_frame, rankOverall_rank hoverall hseen hrest heligible]
  overall_untouched := by
    intro heligible
    rw [rankDivision_frame]
    simp [rankOverall, heligible]
  division := by
    intro divisionId heligible hdivision hreal
    have hscores : divisionScores divisionId (seen ++ (rankOverall overall item).2 :: rest) =
        divisionScores divisionId (seen ++ item :: rest) := by
      rw [divisionScores_append, divisionScores_append, ← List.singleton_append,
        divisionScores_append, divisionScores_rankOverall, ← divisionScores_append]
      rfl
    have hrank : (rankDivision divisions (rankOverall overall item).2).2.model.divisionRank =
        some (1 + ahead (rankOverall overall item).2.scoreUnits
          (divisionScores divisionId (seen ++ (rankOverall overall item).2 :: rest)) : ℤ) :=
      rankDivision_divisionRank hdivisions (by simpa using hseen) (by simpa using hrest)
        (by simpa using heligible) (by simpa using hdivision) (by rw [hscores]; simpa using hreal)
    rwa [hscores, rankOverall_scoreUnits] at hrank
  division_untouched := by
    intro hnone
    have hsame : (rankOverall overall item).2.model.divisionRank = item.model.divisionRank := by
      unfold rankOverall
      split <;> rfl
    rw [← hsame]
    rcases hnone with hnone | hnone
    · simp [rankDivision, hnone]
    · simp [rankDivision, hnone]

theorem rankAll_placed (hoverall : overall.Tracks (overallScores seen))
    (hdivisions : DivisionsTrack divisions seen)
    (hsorted : (seen ++ rest).Pairwise fun a b => b.scoreUnits ≤ a.scoreUnits) :
    List.Forall₂ (Placed (seen ++ rest)) rest (rankAll overall divisions rest) := by
  induction rest generalizing seen overall divisions with
  | nil => exact .nil
  | cons item rest ih =>
      have hparts := List.pairwise_append.mp hsorted
      have hseen : ∀ a ∈ seen, item.scoreUnits ≤ a.scoreUnits := fun a ha =>
        hparts.2.2 a ha item List.mem_cons_self
      have hrest : ∀ a ∈ rest, a.scoreUnits ≤ item.scoreUnits := fun _ =>
        List.rel_of_pairwise_cons hparts.2.1
      have hsplit : seen ++ item :: rest = (seen ++ [item]) ++ rest := by simp
      refine .cons (placed_step hoverall hdivisions hseen hrest) ?_
      rw [hsplit]
      refine ih (rankOverall_tracks hoverall hseen) ?_ (hsplit ▸ hsorted)
      intro divisionId
      have hnext : ((_ : Option DivisionState).getD DivisionState.fresh).Tracks
          (divisionScores divisionId (seen ++ [(rankOverall overall item).2])) :=
        rankDivision_tracks hdivisions (by simpa using hseen) divisionId
      rwa [divisionScores_append, divisionScores_rankOverall, ← divisionScores_append] at hnext

end Pass

section Order

instance : Std.Total rankBefore := ⟨fun a b => by
  unfold rankBefore
  omega⟩

instance : IsTrans RankableItem rankBefore := ⟨fun a b c hab hbc => by
  unfold rankBefore at *
  omega⟩

variable {items items' : List RankableItem} {before after : RankableItem}

theorem insertionSort_scores (items : List RankableItem) :
    (items.insertionSort rankBefore).Pairwise fun a b => b.scoreUnits ≤ a.scoreUnits := by
  refine (List.pairwise_insertionSort rankBefore items).imp ?_
  rintro a b (hlt | heq)
  · exact hlt.le
  · exact heq.1.le

/-- The order of the items does not matter to where one of them is placed. -/
theorem Placed.perm (hperm : items.Perm items') (h : Placed items before after) :
    Placed items' before after := by
  have hoverall (score : ℤ) :
      ahead score (overallScores items) = ahead score (overallScores items') :=
    ahead_perm score ((hperm.filter _).map _)
  have hdivision (divisionId score : ℤ) : ahead score (divisionScores divisionId items) =
      ahead score (divisionScores divisionId items') :=
    ahead_perm score ((hperm.filter _).map _)
  refine ⟨h.frame, ?_, h.overall_untouched, ?_, h.division_untouched⟩
  · rw [← hoverall]
    exact h.overall
  · intro divisionId
    rw [← hdivision]
    exact h.division divisionId

theorem insertionSort_eq_of_perm (hperm : items'.Perm items)
    (hids : (items.map (·.model.id)).Nodup) :
    items'.insertionSort rankBefore = items.insertionSort rankBefore := by
  have hsort := List.perm_insertionSort rankBefore items
  refine Keyed.insertionSort_eq_of_perm (hperm.trans hsort.symm)
    (List.pairwise_insertionSort _ _) ?_
  intro a ha b hb hab hba
  have hid : a.model.id = b.model.id := by
    unfold rankBefore at hab hba
    omega
  exact List.inj_on_of_nodup_map hids (hsort.mem_iff.mp ha) (hsort.mem_iff.mp hb) hid

end Order

theorem rankItems_law (items : List RankableItem) : RankLaw items where
  placed := by
    have hperm := List.perm_insertionSort rankBefore items
    refine ⟨items.insertionSort rankBefore, hperm, ?_⟩
    have hplaced : List.Forall₂ (Placed ([] ++ items.insertionSort rankBefore))
        (items.insertionSort rankBefore) (rankItems items) :=
      rankAll_placed .start (fun _ => .fresh) (insertionSort_scores items)
    exact hplaced.imp fun before after h => h.perm hperm
  order_free := by
    intro items' hperm hids
    rw [rankItems, rankItems, insertionSort_eq_of_perm hperm hids]

/-- The only item of a division has the rank zero if it has the least score. -/
theorem rankItems_least :
    let item : RankableItem := ⟨⟨1, some 1, 0, none⟩, i64Min, true, true⟩
    ∃ after ∈ rankItems [item], after.model.divisionRank = some 0 ∧
      after.model.divisionRank ≠
        some (1 + ahead item.scoreUnits (divisionScores 1 [item]) : ℤ) := by
  decide

end Rsctf.CombinedScoreboard
