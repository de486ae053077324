import Mathlib.Algebra.BigOperators.Ring.List
import Mathlib.Tactic.IntervalCases
import Rsctf.Data.Fallible
import Rsctf.Suspicion.Figures

/-!
# When a ledger has one score

What a rule counts depends on the order of its rows only where rows of one time contest a
place.  So the figures are the same in every order, and the stored score is the one of the
fused report, just when such rows have the same charge or the ceiling of their tier is
reached in any case.
-/

namespace Rsctf

namespace Suspicion

section Orders

variable {events events' : List SuspicionEventRow} {weight : String → ℤ} {tier : SuspicionTier}
  {rule : String}

/-- Two breakdowns agree but for the list of their events. -/
structure SameFigures (b b' : SuspicionBreakdown) : Prop where
  hard : b.hard = b'.hard
  strong : b.strong = b'.strong
  behavioral : b.behavioral = b'.behavioral
  corroboration : b.corroboration = b'.corroboration
  total : b.total = b'.total
  band : b.band = b'.band

theorem ruleCodes_perm (h : events.Perm events') : (ruleCodes events).Perm (ruleCodes events') :=
  Newest.map_firsts_perm h

theorem ruleRows_perm (h : events.Perm events') (rule : String) :
    (ruleRows events rule).Perm (ruleRows events' rule) :=
  (h.filter _).filter _

theorem corroborates_perm (h : events.Perm events') :
    corroborates events = corroborates events' := by
  funext rule
  rw [corroborates, corroborates, h.any_eq]

theorem contextUnits_perm (h : events.Perm events') :
    contextUnits events = contextUnits events' := by
  rw [contextUnits, contextUnits, corroborates_perm h]
  exact ((((ruleCodes_perm h).filter _).filter _).map unitOf).sum_eq

/-- The figures are those of the tiers and of the rules of context. -/
theorem sameFigures_of_tiers
    (htiers : ∀ tier, tier ≠ .context →
      tierFigure weight events tier = tierFigure weight events' tier)
    (hunits : contextUnits events = contextUnits events')
    (hcontext : (ruleCodes events).filter (corroborates events) = [] ↔
      (ruleCodes events').filter (corroborates events') = []) :
    SameFigures (computeBreakdown events weight) (computeBreakdown events' weight) := by
  have hhard := htiers .hard (by decide)
  have hstrong := htiers .strong (by decide)
  have hbehavioral := htiers .behavioral (by decide)
  have hcorroboration : (computeBreakdown events weight).corroboration =
      (computeBreakdown events' weight).corroboration := by
    rw [computeBreakdown_corroboration, computeBreakdown_corroboration, hhard, hunits]
  rw [← computeBreakdown_hard, ← computeBreakdown_hard] at hhard
  rw [← computeBreakdown_strong, ← computeBreakdown_strong] at hstrong
  rw [← computeBreakdown_behavioral, ← computeBreakdown_behavioral] at hbehavioral
  refine ⟨hhard, hstrong, hbehavioral, hcorroboration, ?_, ?_⟩
  · have htotal : ∀ l, (computeBreakdown l weight).total =
        saturatingAdd (saturatingAdd (saturatingAdd (computeBreakdown l weight).hard
          (computeBreakdown l weight).corroboration) (computeBreakdown l weight).strong)
          (computeBreakdown l weight).behavioral := fun _ => rfl
    rw [htotal, htotal, hhard, hstrong, hbehavioral, hcorroboration]
  · rw [computeBreakdown_band, computeBreakdown_band, ← computeBreakdown_hard,
      ← computeBreakdown_strong, ← computeBreakdown_behavioral, hhard, hstrong, hbehavioral,
      computeBreakdown_hard, computeBreakdown_strong, computeBreakdown_behavioral]
    exact riskBand_congr hcontext

/-- Only what the tiers add can depend on the order. -/
theorem sameFigures_iff (h : events.Perm events') :
    SameFigures (computeBreakdown events weight) (computeBreakdown events' weight) ↔
      ∀ tier, tier ≠ .context → tierFigure weight events tier = tierFigure weight events' tier := by
  constructor
  · intro hsame tier htier
    cases tier with
    | context => exact absurd rfl htier
    | behavioral =>
        rw [← computeBreakdown_behavioral, ← computeBreakdown_behavioral]
        exact hsame.behavioral
    | strong =>
        rw [← computeBreakdown_strong, ← computeBreakdown_strong]
        exact hsame.strong
    | hard =>
        rw [← computeBreakdown_hard, ← computeBreakdown_hard]
        exact hsame.hard
  · intro htiers
    refine sameFigures_of_tiers htiers (contextUnits_perm h) ?_
    have hperm := (ruleCodes_perm h).filter (corroborates events)
    rw [← corroborates_perm h]
    exact ⟨fun hnil => List.perm_nil.mp (hnil ▸ hperm.symm),
      fun hnil => List.perm_nil.mp (hnil ▸ hperm)⟩

/-- Rows of the rule which contest a place have the same charge. -/
def RuleSteady (weight : String → ℤ) (events : List SuspicionEventRow) (rule : String) : Prop :=
  Newest.Steady (·.incident) (·.time) (·.charge weight) (capOf rule) (ruleRows events rule)

/-- What the rules of a tier add in any case: ties go to the smaller charge. -/
def tierLeast (weight : String → ℤ) (events : List SuspicionEventRow) (tier : SuspicionTier) : ℤ :=
  (((ruleCodes events).filter fun rule => tierOf rule = tier).map fun rule =>
    Newest.leastSum (·.incident) (·.time) (·.charge weight) (capOf rule)
      (ruleRows events rule)).sum

/-- In every tier which scores, rows which contest a place have the same charge, or the ceiling
is reached in any case. -/
def TiesSettled (weight : String → ℤ) (events : List SuspicionEventRow) : Prop :=
  ∀ tier, tier ≠ .context →
    (∀ rule ∈ ruleCodes events, tierOf rule = tier → RuleSteady weight events rule) ∨
      tierCeiling tier ≤ tierLeast weight events tier

theorem ruleSum_eq (hperm : events.Perm events') (h : RuleSteady weight events rule) :
    ruleSum weight events rule = ruleSum weight events' rule :=
  Newest.steady_iff.mp h _ _ readRule_perm.symm
    ((ruleRows_perm hperm rule).trans readRule_perm.symm) newestFirst_readRule newestFirst_readRule

theorem leastSum_le_ruleSum (hperm : events.Perm events') :
    Newest.leastSum (·.incident) (·.time) (·.charge weight) (capOf rule) (ruleRows events rule) ≤
      ruleSum weight events' rule :=
  Newest.leastSum_le ((ruleRows_perm hperm rule).trans readRule_perm.symm) newestFirst_readRule

/-- What a tier adds does not lie below the least. -/
theorem tierLeast_le (hperm : events.Perm events') : tierLeast weight events tier ≤
    (((ruleCodes events').filter fun rule => tierOf rule = tier).map
      (ruleSum weight events')).sum := by
  rw [tierLeast, (((ruleCodes_perm hperm).filter _).map _).sum_eq]
  exact List.sum_le_sum fun rule _ => leastSum_le_ruleSum hperm

theorem tierFigure_eq (hperm : events.Perm events') (htier : tier ≠ .context)
    (h : TiesSettled weight events) :
    tierFigure weight events tier = tierFigure weight events' tier := by
  rcases h tier htier with hsteady | hfull
  · have hsums : ((ruleCodes events).filter fun rule => tierOf rule = tier).map
        (ruleSum weight events) = ((ruleCodes events).filter fun rule => tierOf rule = tier).map
          (ruleSum weight events') := by
      refine List.map_congr_left fun rule hrule => ?_
      obtain ⟨hmem, hof⟩ := List.mem_filter.mp hrule
      exact ruleSum_eq hperm (hsteady rule hmem (of_decide_eq_true hof))
    rw [tierFigure, tierFigure, hsums, (((ruleCodes_perm hperm).filter _).map _).sum_eq]
  · rw [tierFigure, tierFigure, min_eq_left (hfull.trans (tierLeast_le (List.Perm.refl _))),
      min_eq_left (hfull.trans (tierLeast_le hperm))]

/-- A ledger read rule by rule, the rows which may score in a given order. -/
def arrange (events : List SuspicionEventRow) (order : String → List SuspicionEventRow) :
    List SuspicionEventRow :=
  (ruleCodes events).flatMap fun rule =>
    order rule ++ (events.filter fun e => e.ruleCode = rule).filter fun e => !e.trusted

variable {order : String → List SuspicionEventRow}

theorem arrange_perm (h : ∀ rule, (order rule).Perm (ruleRows events rule)) :
    events.Perm (arrange events order) := by
  have hall : ∀ e ∈ events, e.ruleCode ∈ ruleCodes events := fun e he =>
    Newest.mem_map_firsts.mpr (List.mem_map_of_mem he)
  refine (Keyed.flatMap_rows_perm nodup_ruleCodes hall).symm.trans
    (List.Perm.flatMap_left _ fun rule _ => ?_)
  exact (List.filter_append_perm (·.trusted) _).symm.trans ((h rule).symm.append_right _)

theorem readRule_arrange (h : ∀ rule, (order rule).Perm (ruleRows events rule))
    (hsorted : ∀ rule, Newest.NewestFirst (·.time) (order rule)) (hrule : rule ∈ ruleCodes events) :
    readRule (arrange events order) rule = order rule := by
  have htrusted : ∀ e ∈ order rule, e.trusted = true := fun e he =>
    (List.mem_filter.mp ((h rule).mem_iff.mp he)).2
  have hcode : ∀ r ∈ ruleCodes events, ∀ e ∈ order r ++
      (events.filter fun e => e.ruleCode = r).filter (fun e => !e.trusted), e.ruleCode = id r := by
    intro r _ e he
    rcases List.mem_append.mp he with horder | hrest
    · have hmem := List.mem_of_mem_filter ((h r).mem_iff.mp horder)
      exact of_decide_eq_true (List.mem_filter.mp hmem).2
    · exact of_decide_eq_true (List.mem_filter.mp (List.mem_of_mem_filter hrest)).2
  have hnodup : ((ruleCodes events).map id).Nodup := by
    rw [List.map_id]
    exact nodup_ruleCodes
  have hgroup : (arrange events order).filter (fun e => e.ruleCode = rule) = order rule ++
      (events.filter fun e => e.ruleCode = rule).filter fun e => !e.trusted :=
    Keyed.rows_flatMap_of_tag hcode hnodup hrule
  have hnone : ((events.filter fun e => e.ruleCode = rule).filter
      fun e => !e.trusted).filter (·.trusted) = [] := by
    rw [List.filter_filter, List.filter_eq_nil_iff]
    intro e _
    cases e.trusted <;> decide
  rw [readRule, orderedGroup, Newest.filter_sorted, hgroup, List.filter_append, hnone,
    List.append_nil, List.filter_eq_self.mpr htrusted, Newest.sorted_eq_self (hsorted rule)]

/-- Every order of the rows of every rule is the order of some reading. -/
theorem tierFigure_arrange (h : ∀ rule, (order rule).Perm (ruleRows events rule))
    (hsorted : ∀ rule, Newest.NewestFirst (·.time) (order rule)) :
    tierFigure weight (arrange events order) tier = min (tierCeiling tier)
      (((ruleCodes events).filter fun rule => tierOf rule = tier).map fun rule =>
        Newest.topSum (·.incident) (·.charge weight) (capOf rule) (order rule)).sum := by
  rw [tierFigure, ← (((ruleCodes_perm (arrange_perm h)).filter _).map _).sum_eq]
  congr 2
  refine List.map_congr_left fun rule hrule => ?_
  rw [ruleSum, readRule_arrange h hsorted (List.mem_of_mem_filter hrule)]

/-- A rule whose rows contest a place may add more than the least. -/
theorem exists_greater_order (h : ¬RuleSteady weight events rule) :
    ∃ l, l.Perm (ruleRows events rule) ∧ Newest.NewestFirst (·.time) l ∧
      Newest.leastSum (·.incident) (·.time) (·.charge weight) (capOf rule) (ruleRows events rule) <
        Newest.topSum (·.incident) (·.charge weight) (capOf rule) l := by
  by_contra hnone
  push Not at hnone
  refine h (Newest.steady_iff.mpr fun l l' hperm hperm' hl hl' => ?_)
  have hone : ∀ m, (ruleRows events rule).Perm m → Newest.NewestFirst (·.time) m →
      Newest.topSum (·.incident) (·.charge weight) (capOf rule) m =
        Newest.leastSum (·.incident) (·.time) (·.charge weight) (capOf rule)
          (ruleRows events rule) := fun m hm hsorted =>
    le_antisymm (hnone m hm.symm hsorted) (Newest.leastSum_le hm hsorted)
  rw [hone l hperm hl, hone l' hperm' hl']

/-- The figures are those of every order just when the ties are settled. -/
theorem sameFigures_perm_iff : (∀ events', events.Perm events' →
    SameFigures (computeBreakdown events weight) (computeBreakdown events' weight)) ↔
      TiesSettled weight events := by
  constructor
  · intro hsame tier htier
    by_contra hnot
    push Not at hnot
    obtain ⟨⟨rule, hrule, hof, hunsteady⟩, hroom⟩ := hnot
    obtain ⟨l, hl, hsorted, hgreater⟩ := exists_greater_order hunsteady
    set least : String → List SuspicionEventRow := fun r =>
      Newest.leastFirst (·.time) (·.charge weight) (ruleRows events r)
    have hleast : ∀ r, (least r).Perm (ruleRows events r) := fun r => Newest.leastFirst_perm
    have hleast' : ∀ r, Newest.NewestFirst (·.time) (least r) := fun r =>
      Newest.newestFirst_leastFirst
    have hmore : ∀ r, (Function.update least rule l r).Perm (ruleRows events r) := by
      intro r
      by_cases hr : r = rule
      · subst hr
        rwa [Function.update_self]
      · rw [Function.update_of_ne hr]
        exact hleast r
    have hmore' : ∀ r, Newest.NewestFirst (·.time) (Function.update least rule l r) := by
      intro r
      by_cases hr : r = rule
      · subst hr
        rwa [Function.update_self]
      · rw [Function.update_of_ne hr]
        exact hleast' r
    have hfigure := ((sameFigures_iff (arrange_perm hleast)).mp
      (hsame _ (arrange_perm hleast)) tier htier).symm.trans
        ((sameFigures_iff (arrange_perm hmore)).mp (hsame _ (arrange_perm hmore)) tier htier)
    rw [tierFigure_arrange hleast hleast', tierFigure_arrange hmore hmore'] at hfigure
    have hlt : tierLeast weight events tier <
        (((ruleCodes events).filter fun rule => tierOf rule = tier).map fun r =>
          Newest.topSum (·.incident) (·.charge weight) (capOf r)
            (Function.update least rule l r)).sum := by
      refine List.sum_lt_sum _ _ (fun r _ => ?_)
        ⟨rule, List.mem_filter.mpr ⟨hrule, decide_eq_true hof⟩, ?_⟩
      · exact Newest.leastSum_le (hmore r).symm (hmore' r)
      · rw [Function.update_self]
        exact hgreater
    have hsum : tierLeast weight events tier =
        (((ruleCodes events).filter fun rule => tierOf rule = tier).map fun r =>
          Newest.topSum (·.incident) (·.charge weight) (capOf r) (least r)).sum := rfl
    rw [← hsum] at hfigure
    omega
  · intro hsettled events' hperm
    exact (sameFigures_iff hperm).mpr fun tier htier => tierFigure_eq hperm htier hsettled

end Orders

namespace Ledger

section Readers

variable {ledger : Ledger} {gameId participationId : ℤ} {p : Participation}
  {events events' : List SuspicionEventRow} {weight weight' : String → ℤ}

/-- The rows of a participation. -/
def rowsOf (ledger : Ledger) (participationId : ℤ) : List SuspicionEventRow :=
  (ledger.events.filter fun e => e.participationId = participationId).map fusedRow

/-- The stored score is the one of the fused report. -/
def Agrees (ledger : Ledger) (gameId participationId : ℤ) : Prop :=
  ∃ score ledger', ledger.recomputeParticipationSuspicionScore participationId =
      .ok (score, ledger') ∧
    (ledger'.participations participationId).map (·.suspicionScore) =
      some (ledger'.existingScore gameId participationId)

theorem fromKind_known {kind : ℤ} (h : 0 ≤ kind ∧ kind ≤ 39) :
    ∃ ty, SuspicionType.fromKind kind = some ty := by
  obtain ⟨hlow, hhigh⟩ := h
  interval_cases kind <;> exact ⟨_, rfl⟩

theorem storedRow_eq (e : SuspicionEvent) : storedRow participationId e = .ok (fusedRow e) := by
  obtain ⟨ty, hty⟩ := fromKind_known e.known
  rw [storedRow, fusedRow, hty]
  rfl

/-- The rows of a participation as the stored score reads them. -/
def storedRows (ledger : Ledger) (participationId : ℤ) : List SuspicionEventRow :=
  ((ledger.events.filter fun e => e.participationId = participationId).insertionSort
    newerLe).map fusedRow

theorem recompute_eq (h : ledger.participations participationId = some p) :
    ledger.recomputeParticipationSuspicionScore participationId =
      .ok (min (max (computeBreakdown (ledger.storedRows participationId) fun _ => 0).total 0)
          i32Max,
        ledger.setScore participationId p h
          (min (max (computeBreakdown (ledger.storedRows participationId) fun _ => 0).total 0)
            i32Max)) := by
  unfold recomputeParticipationSuspicionScore
  refine Fallible.bind_eq_ok_iff.mpr
    ⟨_, Fallible.mapM_eq_ok_map fun e _ => storedRow_eq e, ?_⟩
  dsimp only
  split
  · next hnone => exact absurd (hnone.symm.trans h) (by simp)
  · next q hq =>
      obtain rfl := Option.some.inj (hq.symm.trans h)
      rfl

theorem setScore_score (h : ledger.participations participationId = some p) (score : ℤ) :
    ((ledger.setScore participationId p h score).participations participationId).map
      (·.suspicionScore) = some score := by
  have hrow : (ledger.setScore participationId p h score).participations participationId =
      some { p with suspicionScore := score } := Function.update_self ..
  rw [hrow]
  rfl

theorem Agrees.score_eq (h : ledger.participations participationId = some p)
    (hagrees : ledger.Agrees gameId participationId) :
    min (max (computeBreakdown (ledger.storedRows participationId) fun _ => 0).total 0) i32Max =
      ledger.existingScore gameId participationId := by
  obtain ⟨score, ledger', hrun, hscore⟩ := hagrees
  rw [recompute_eq h] at hrun
  obtain ⟨rfl, rfl⟩ := Prod.mk.inj (Except.ok.inj hrun)
  rw [setScore_score] at hscore
  exact Option.some.inj hscore

/-- Weights are not asked for when every row has a charge of its own. -/
theorem tierFigure_weight {tier : SuspicionTier} (h : ∀ e ∈ events, e.scoreDelta ≠ none) :
    tierFigure weight events tier = tierFigure weight' events tier := by
  have hsums : ruleSum weight events = ruleSum weight' events := by
    funext rule
    rw [ruleSum, ruleSum, Newest.topSum, Newest.topSum]
    congr 1
    refine List.map_congr_left fun e he => ?_
    have hread := (Newest.firsts_sublist _).subset (List.mem_of_mem_take he)
    have hrow := List.mem_of_mem_filter (List.mem_of_mem_filter (readRule_perm.mem_iff.mp hread))
    obtain ⟨delta, hdelta⟩ := Option.ne_none_iff_exists'.mp (h e hrow)
    rw [SuspicionEventRow.charge, SuspicionEventRow.charge, hdelta]
    rfl
  rw [tierFigure, tierFigure, hsums]

/-- The total out of what the tiers add. -/
def totalOf (hard strong behavioral units : ℤ) : ℤ :=
  saturatingAdd (saturatingAdd (saturatingAdd hard (min (hard / 2) units)) strong) behavioral

theorem computeBreakdown_total : (computeBreakdown events weight).total =
    totalOf (tierFigure weight events .hard) (tierFigure weight events .strong)
      (tierFigure weight events .behavioral) (contextUnits events) := by
  rw [totalOf, ← computeBreakdown_corroboration, ← computeBreakdown_hard,
    ← computeBreakdown_strong, ← computeBreakdown_behavioral]
  rfl

theorem total_weight (h : ∀ e ∈ events, e.scoreDelta ≠ none) :
    (computeBreakdown events weight).total = (computeBreakdown events weight').total := by
  have hfigure : ∀ tier, tierFigure weight events tier = tierFigure weight' events tier :=
    fun _ => tierFigure_weight h
  rw [computeBreakdown_total, computeBreakdown_total, hfigure, hfigure, hfigure]

/-- The rules of hard evidence, with their caps. -/
def hardRules : List String :=
  ["StolenFlag", "CrossTeamContainerAccess", "WrongFlagLeakage", "TokenAbuse",
    "HoneypotCanaryFlag"]

theorem mem_hardRules {rule : String} (h : tierOf rule = .hard) : rule ∈ hardRules := by
  unfold tierOf at h
  cases hcode : SuspicionType.fromCode rule with
  | none =>
      rw [hcode] at h
      cases h
  | some ty =>
      rw [hcode] at h
      have hname : ty.code = rule := by
        unfold SuspicionType.fromCode at hcode
        obtain ⟨entry, hentry, rfl⟩ := Option.map_eq_some_iff.mp hcode
        simpa using List.find?_some hentry
      rw [← hname]
      cases ty <;> first | (exact absurd h (by decide)) | decide

/-- What a rule adds is bounded by its cap. -/
theorem ruleSum_le {bound : ℤ} (hbound : 0 ≤ bound) (h : ∀ e ∈ events, e.charge weight ≤ bound)
    (rule : String) : ruleSum weight events rule ≤ capOf rule * bound := by
  have hcharge : ∀ x ∈ ((Newest.firsts (·.incident) (readRule events rule)).take
      (capOf rule)).map (·.charge weight), x ≤ bound := by
    intro x hx
    obtain ⟨e, he, rfl⟩ := List.mem_map.mp hx
    have hread := (Newest.firsts_sublist _).subset (List.mem_of_mem_take he)
    exact h e (List.mem_of_mem_filter (List.mem_of_mem_filter (readRule_perm.mem_iff.mp hread)))
  have hsum := List.sum_le_card_nsmul _ _ hcharge
  have hlength : (((Newest.firsts (·.incident) (readRule events rule)).take
      (capOf rule)).map (·.charge weight)).length ≤ capOf rule := by
    rw [List.length_map]
    exact List.length_take_le ..
  refine hsum.trans ?_
  rw [nsmul_eq_mul]
  have hcast : ((((Newest.firsts (·.incident) (readRule events rule)).take
      (capOf rule)).map (·.charge weight)).length : ℤ) ≤ capOf rule := by exact_mod_cast hlength
  exact mul_le_mul_of_nonneg_right hcast hbound

/-- Hard evidence stays far below the bounds of the integers. -/
theorem hardSum_le {bound : ℤ} (hbound : 0 ≤ bound) (h : ∀ e ∈ events, e.charge weight ≤ bound) :
    (((ruleCodes events).filter fun rule => tierOf rule = .hard).map
      (ruleSum weight events)).sum ≤ 38 * bound := by
  have hnonneg : ∀ rules : List String, ∀ x ∈ rules.map fun rule => (capOf rule : ℤ),
      0 ≤ x := by
    intro rules x hx
    obtain ⟨rule, -, rfl⟩ := List.mem_map.mp hx
    positivity
  have hsubset : ((ruleCodes events).filter fun rule => tierOf rule = .hard) ⊆ hardRules :=
    fun rule hmem => mem_hardRules (of_decide_eq_true (List.mem_filter.mp hmem).2)
  obtain ⟨l, hperm, hsub⟩ := (nodup_ruleCodes.filter _).subperm hsubset
  have hcaps : (l.map fun rule => (capOf rule : ℤ)).sum ≤ 38 :=
    calc (l.map fun rule => (capOf rule : ℤ)).sum
        ≤ (hardRules.map fun rule => (capOf rule : ℤ)).sum :=
          (hsub.map _).sum_le_sum (hnonneg hardRules)
      _ = 38 := by decide +kernel
  calc (((ruleCodes events).filter fun rule => tierOf rule = .hard).map
          (ruleSum weight events)).sum
      ≤ (((ruleCodes events).filter fun rule => tierOf rule = .hard).map
          fun rule => (capOf rule : ℤ) * bound).sum :=
        List.sum_le_sum fun rule _ => ruleSum_le hbound h rule
    _ = (l.map fun rule => (capOf rule : ℤ) * bound).sum := (hperm.symm.map _).sum_eq
    _ = (l.map fun rule => (capOf rule : ℤ)).sum * bound := List.sum_map_mul_right ..
    _ ≤ 38 * bound := mul_le_mul_of_nonneg_right hcaps hbound

theorem tierFigure_hard_le (h : ∀ e ∈ events, e.charge weight ≤ 10000) :
    tierFigure weight events .hard ≤ 380000 :=
  (min_le_right ..).trans (hardSum_le (by decide) h)

theorem totalOf_range {hard strong behavioral units : ℤ} (hhard : 0 ≤ hard ∧ hard ≤ 380000)
    (hstrong : 0 ≤ strong ∧ strong ≤ 60) (hbehavioral : 0 ≤ behavioral ∧ behavioral ≤ 25)
    (hunits : 0 ≤ units) :
    0 ≤ totalOf hard strong behavioral units ∧ totalOf hard strong behavioral units ≤ i32Max := by
  unfold totalOf saturatingAdd i64Max i32Max
  omega

theorem contextUnits_nonneg : 0 ≤ contextUnits events :=
  List.sum_nonneg fun x hx => by
    obtain ⟨rule, hrule, rfl⟩ := List.mem_map.mp hx
    exact (of_decide_eq_true (List.mem_filter.mp hrule).2).le

theorem total_range (h : ∀ e ∈ events, e.charge weight ≤ 10000) :
    0 ≤ (computeBreakdown events weight).total ∧
      (computeBreakdown events weight).total ≤ i32Max := by
  rw [computeBreakdown_total]
  exact totalOf_range ⟨tierFigure_nonneg, tierFigure_hard_le h⟩
    ⟨tierFigure_nonneg, min_le_left ..⟩ ⟨tierFigure_nonneg, min_le_left ..⟩ contextUnits_nonneg

/-- The rows of a participation as the fused report reads them. -/
def existingRows (ledger : Ledger) (gameId participationId : ℤ) : List SuspicionEventRow :=
  ((ledger.events.filter fun e =>
    e.gameId = gameId ∧ e.participationId = participationId).insertionSort olderLe).map fusedRow

theorem storedRows_perm :
    (ledger.rowsOf participationId).Perm (ledger.storedRows participationId) :=
  (List.perm_insertionSort ..).symm.map _

/-- Every event of a participation is one of its game. -/
theorem existingRows_perm (h : ledger.participations participationId = some p) :
    (ledger.rowsOf participationId).Perm (ledger.existingRows p.gameId participationId) := by
  have hfilter : (ledger.events.filter fun e =>
      e.gameId = p.gameId ∧ e.participationId = participationId) =
        ledger.events.filter fun e => e.participationId = participationId := by
    refine List.filter_congr fun e he => ?_
    by_cases hid : e.participationId = participationId
    · have hgame := ledger.provenance e he
      rw [hid, h] at hgame
      simp [hid, Option.some.inj hgame]
    · simp [hid]
  rw [existingRows, hfilter]
  exact (List.perm_insertionSort ..).symm.map _

theorem rowsOf_scoreDelta : ∀ e ∈ ledger.rowsOf participationId, e.scoreDelta ≠ none := by
  intro e he
  obtain ⟨event, -, rfl⟩ := List.mem_map.mp he
  exact Option.some_ne_none _

theorem rowsOf_charge : ∀ e ∈ ledger.rowsOf participationId, e.charge weight ≤ 10000 := by
  intro e he
  obtain ⟨event, -, rfl⟩ := List.mem_map.mp he
  exact max_le event.bounded.2 (by decide)

/-- With settled ties the two readers agree. -/
theorem agrees_of_settled (h : ledger.participations participationId = some p)
    (hsettled : TiesSettled defaultWeight (ledger.rowsOf participationId)) :
    ledger.Agrees p.gameId participationId := by
  refine ⟨_, _, recompute_eq h, ?_⟩
  have hsame := sameFigures_perm_iff.mpr hsettled
  have hstored := (hsame _ storedRows_perm).total
  have hexisting := (hsame _ (existingRows_perm h)).total
  have hdeltas : ∀ e ∈ ledger.storedRows participationId, e.scoreDelta ≠ none := fun e he =>
    rowsOf_scoreDelta e (storedRows_perm.mem_iff.mpr he)
  have hrange : 0 ≤ (computeBreakdown (ledger.rowsOf participationId) defaultWeight).total ∧
      (computeBreakdown (ledger.rowsOf participationId) defaultWeight).total ≤ i32Max :=
    total_range rowsOf_charge
  have htotal : (computeBreakdown (ledger.storedRows participationId) fun _ => 0).total =
      (computeBreakdown (ledger.rowsOf participationId) defaultWeight).total :=
    (total_weight hdeltas).trans hstored.symm
  rw [setScore_score, htotal, max_eq_left hrange.1, min_eq_left hrange.2]
  exact congrArg some hexisting

/-- The figures of a ledger are those of every order of its rows, and its stored score the one
of the fused report, just when its ties are settled. -/
theorem one_score (weight : String → ℤ) (events : List SuspicionEventRow) (ledger : Ledger)
    (participationId : ℤ) (p : Participation)
    (h : ledger.participations participationId = some p) :
    ((∀ events', events.Perm events' →
        SameFigures (computeBreakdown events weight) (computeBreakdown events' weight)) ↔
      TiesSettled weight events) ∧
    ((ledger.Agrees p.gameId participationId ∧
        ∀ events', (ledger.rowsOf participationId).Perm events' →
          SameFigures (computeBreakdown (ledger.rowsOf participationId) defaultWeight)
            (computeBreakdown events' defaultWeight)) ↔
      TiesSettled defaultWeight (ledger.rowsOf participationId)) := by
  refine ⟨sameFigures_perm_iff, fun hboth => sameFigures_perm_iff.mp hboth.2, fun hsettled => ?_⟩
  exact ⟨agrees_of_settled h hsettled, sameFigures_perm_iff.mpr hsettled⟩

end Readers

section Example

/-- A canary flag of team 7 in game 1, submitted at second 60. -/
def canary (id : ℤ) (evidenceKey : String) (scoreDelta : ℤ)
    (h : 0 ≤ scoreDelta ∧ scoreDelta ≤ 10000) : SuspicionEvent :=
  ⟨id, 1, 7, SuspicionType.honeypotCanaryFlag.kind, evidenceKey, scoreDelta, 60, by decide, h⟩

def teamSeven : ℤ → Option Participation := fun id => if id = 7 then some ⟨1, 0⟩ else none

def oneCanary : Ledger where
  participations := teamSeven
  events := [canary 1 "submission:1" 100 (by decide)]
  ids := by decide
  incidents := by decide
  provenance := by decide

/-- Four canary flags of one time, the last one after the weight of the rule was raised. -/
def fourCanaries : Ledger where
  participations := teamSeven
  events := [canary 1 "submission:1" 100 (by decide), canary 2 "submission:2" 100 (by decide),
    canary 3 "submission:3" 100 (by decide), canary 4 "submission:4" 120 (by decide)]
  ids := by decide
  incidents := by decide
  provenance := by decide

theorem one_score_single : oneCanary.Agrees 1 7 := by
  have hrows : ∀ e ∈ oneCanary.rowsOf 7, e = fusedRow (canary 1 "submission:1" 100 (by decide)) :=
    fun e he => by
      obtain ⟨event, hevent, rfl⟩ := List.mem_map.mp he
      rw [List.mem_singleton.mp (List.mem_of_mem_filter hevent)]
  have hsettled : TiesSettled defaultWeight (oneCanary.rowsOf 7) := by
    intro tier _
    refine .inl fun rule _ _ a ha b hb _ => ?_
    rw [hrows a (List.mem_of_mem_filter (List.mem_of_mem_filter ha)),
      hrows b (List.mem_of_mem_filter (List.mem_of_mem_filter hb))]
  exact ((one_score defaultWeight [] oneCanary 7 ⟨1, 0⟩ rfl).2.mpr hsettled).1

/-- The stored score counts the three last canaries, the report the three first. -/
theorem not_agrees_tied : ¬∀ (ledger : Ledger) participationId p,
    ledger.participations participationId = some p → ledger.Agrees p.gameId participationId := by
  intro h
  have hequal := (h fourCanaries 7 ⟨1, 0⟩ rfl).score_eq rfl
  have hstored :
      min (max (computeBreakdown (fourCanaries.storedRows 7) fun _ => 0).total 0) i32Max = 320 := by decide +kernel
  have hexisting : fourCanaries.existingScore 1 7 = 300 := by decide +kernel
  rw [hstored, hexisting] at hequal
  exact absurd hequal (by decide)

end Example

end Ledger

end Suspicion

end Rsctf
