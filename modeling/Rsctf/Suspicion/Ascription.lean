import Rsctf.Data.Marking
import Rsctf.Suspicion.OneScore

/-!
# What every row of a breakdown is given

A breakdown lists every row of the ledger with the points it contributes.  The rows of a rule
which is not of context share what the rule adds; the newest trusted row of a rule of context
takes what the rule corroborates.
-/

namespace Rsctf

namespace Suspicion

open Marking

/-- The row of a breakdown for a row of the ledger and its points. -/
def outcome (weight : String → ℤ) (row : SuspicionEventRow × ℤ) : ScoredSuspicionEvent :=
  ⟨row.1.ruleCode, row.1.details, row.1.time, RuleScan.scoreDelta weight row.1, row.2,
    tierOf row.1.ruleCode, decide (0 < row.2)⟩

namespace RuleScan

variable {s s' : RuleScan} {e : SuspicionEventRow} {tier : SuspicionTier} {cap : ℕ}
  {weight : String → ℤ} {l : List SuspicionEventRow}

/-- The points of an event. -/
def applied (tier : SuspicionTier) (cap : ℕ) (weight : String → ℤ) (s : RuleScan)
    (e : SuspicionEventRow) : ℤ :=
  ((s.register e).2.charge tier cap (s.register e).1 (scoreDelta weight e)).1

/-- The events of a rule with their points. -/
def assign (tier : SuspicionTier) (cap : ℕ) (weight : String → ℤ) :
    RuleScan → List SuspicionEventRow → List (SuspicionEventRow × ℤ)
  | _, [] => []
  | s, e :: l => (e, s.applied tier cap weight e) :: assign tier cap weight
      (s.scanEvent tier cap weight e) l

@[simp] theorem register_annotated : (s.register e).2.annotated = s.annotated := by
  unfold register
  split
  · rfl
  · split <;> rfl

@[simp] theorem register_newest :
    (s.register e).2.newestTrustedContextIndex = s.newestTrustedContextIndex := by
  unfold register
  split
  · rfl
  · split <;> rfl

@[simp] theorem charge_annotated {isNew : Bool} {delta : ℤ} :
    (s.charge tier cap isNew delta).2.annotated = s.annotated := by
  unfold charge
  split
  · dsimp only
    split <;> rfl
  · rfl

@[simp] theorem charge_newest {isNew : Bool} {delta : ℤ} :
    (s.charge tier cap isNew delta).2.newestTrustedContextIndex = s.newestTrustedContextIndex := by
  unfold charge
  split
  · dsimp only
    split <;> rfl
  · rfl

theorem scanEvent_annotated : (s.scanEvent tier cap weight e).annotated = s.annotated ++
    [⟨e.ruleCode, e.details, e.time, scoreDelta weight e, s.applied tier cap weight e, tier,
      decide (0 < s.applied tier cap weight e)⟩] := by
  have hbefore : ((s.register e).2.charge tier cap (s.register e).1
      (scoreDelta weight e)).2.annotated = s.annotated := by simp
  exact congrArg (· ++ _) hbefore

theorem scanEvent_newest :
    (s.scanEvent .context cap weight e).newestTrustedContextIndex =
      if e.trusted = true ∧ s.newestTrustedContextIndex = none then some s.annotated.length
      else s.newestTrustedContextIndex := by
  have hannotated : ((s.register e).2.charge .context cap (s.register e).1
      (scoreDelta weight e)).2.annotated = s.annotated := by simp
  have hnewest : ((s.register e).2.charge .context cap (s.register e).1
      (scoreDelta weight e)).2.newestTrustedContextIndex = s.newestTrustedContextIndex := by simp
  simp only [scanEvent, hannotated, hnewest, SuspicionEventRow.trusted, Bool.not_eq_true',
    true_and]

theorem map_fst_assign (s : RuleScan) (l : List SuspicionEventRow) :
    (assign tier cap weight s l).map Prod.fst = l := by
  induction l generalizing s with
  | nil => rfl
  | cons e l ih => rw [assign, List.map_cons, ih]

theorem foldl_scanEvent_annotated (s : RuleScan) (h : ∀ e ∈ l, tierOf e.ruleCode = tier) :
    (l.foldl (scanEvent tier cap weight) s).annotated =
      s.annotated ++ (assign tier cap weight s l).map (outcome weight) := by
  induction l generalizing s with
  | nil => simp [assign]
  | cons e l ih =>
      have hrow : outcome weight (e, s.applied tier cap weight e) =
          ⟨e.ruleCode, e.details, e.time, scoreDelta weight e, s.applied tier cap weight e, tier,
            decide (0 < s.applied tier cap weight e)⟩ := by
        rw [outcome, h e List.mem_cons_self]
      rw [List.foldl_cons, ih _ fun a ha => h a (List.mem_cons_of_mem e ha), scanEvent_annotated,
        assign, List.map_cons, hrow, List.append_assoc]
      rfl

/-- The place of the newest trusted row of a rule of context. -/
theorem foldl_scanEvent_newestIndex (s : RuleScan) (l : List SuspicionEventRow) :
    (l.foldl (scanEvent .context cap weight) s).newestTrustedContextIndex =
      s.newestTrustedContextIndex.or
        (if l.any (·.trusted) then some (s.annotated.length + l.findIdx (·.trusted)) else none) := by
  induction l generalizing s with
  | nil => simp
  | cons e l ih =>
      have hlength : (s.scanEvent .context cap weight e).annotated.length =
          s.annotated.length + 1 := by
        rw [scanEvent_annotated, List.length_append]
        rfl
      have hstep : (s.scanEvent .context cap weight e).newestTrustedContextIndex =
          s.newestTrustedContextIndex.or (if e.trusted then some s.annotated.length else none) := by
        rw [scanEvent_newest]
        cases e.trusted <;> cases s.newestTrustedContextIndex <;> rfl
      rw [List.foldl_cons, ih, hstep, hlength, Option.or_assoc, List.any_cons,
        List.findIdx_cons]
      congr 1
      cases htrusted : e.trusted with
      | false => simp [add_assoc, add_comm 1]
      | true => simp

/-- The subtotal of the tier is within its ceiling. -/
def InRange (tier : SuspicionTier) (s : RuleScan) : Prop :=
  0 ≤ s.tierSubtotal tier ∧ s.tierSubtotal tier ≤ tierCeiling tier

theorem InRange.scanEvent (htier : tier ≠ .context) (h : s.InRange tier) :
    (s.scanEvent tier cap weight e).InRange tier :=
  scanEvent_bounded htier h

theorem applied_context : s.applied .context cap weight e = 0 := by
  simp [applied, charge]

theorem applied_eq (htier : tier ≠ .context) (h : s.InRange tier) :
    s.applied tier cap weight e =
      if s.Counts cap e then min (e.charge weight) (tierCeiling tier - s.tierSubtotal tier)
      else 0 := by
  have hmax : tierCeiling tier ≤ i64Max := by
    cases tier <;> decide
  have hroom : saturatingSub (tierCeiling tier) (s.tierSubtotal tier) =
      tierCeiling tier - s.tierSubtotal tier := by
    have hpos : 0 ≤ i64Max := by decide
    obtain ⟨hnonneg, hle⟩ := h
    unfold saturatingSub
    omega
  have hcharge : 0 ≤ e.charge weight := charge_nonneg
  obtain ⟨hnonneg, hle⟩ := h
  by_cases hcounts : s.Counts cap e
  · have htrusted : isQuarantinedEvidenceKey e.evidenceKey = false := by
      simpa [SuspicionEventRow.trusted] using hcounts.1
    have hdelta : max (scoreDelta weight e) 0 = e.charge weight := by
      rw [scoreDelta, htrusted]
      rfl
    rw [if_pos hcounts, applied, charge, register_countedIncidents, register_tierSubtotal,
      if_pos ⟨htier, register_counts.mpr hcounts⟩, hroom, hdelta]
    dsimp only
    split
    · rfl
    · dsimp only
      omega
  · rw [if_neg hcounts, applied, charge, register_countedIncidents,
      if_neg fun hcount => hcounts (register_counts.mp hcount.2)]

/-- The points of an event are what its tier gains. -/
theorem scanEvent_gain (htier : tier ≠ .context) (h : s.InRange tier) :
    (s.scanEvent tier cap weight e).tierSubtotal tier =
      s.tierSubtotal tier + s.applied tier cap weight e := by
  have hcharge : 0 ≤ e.charge weight := charge_nonneg
  obtain ⟨hnonneg, hle⟩ := h
  rw [scanEvent_tierSubtotal htier hnonneg hle, Function.update_self,
    applied_eq htier ⟨hnonneg, hle⟩]
  split <;> omega

theorem applied_nonneg (htier : tier ≠ .context) (h : s.InRange tier) :
    0 ≤ s.applied tier cap weight e := by
  have hcharge : 0 ≤ e.charge weight := charge_nonneg
  obtain ⟨hnonneg, hle⟩ := h
  rw [applied_eq htier ⟨hnonneg, hle⟩]
  split <;> omega

theorem applied_of_not_counts (htier : tier ≠ .context) (h : s.InRange tier)
    (hcounts : ¬s.Counts cap e) : s.applied tier cap weight e = 0 := by
  rw [applied_eq htier h, if_neg hcounts]

theorem not_counts_of_untrusted (h : e.trusted = false) : ¬s.Counts cap e := by
  intro hcounts
  exact absurd hcounts.1 (by simp [h])

theorem assign_context (s : RuleScan) (l : List SuspicionEventRow) :
    assign .context cap weight s l = l.map fun e => (e, 0) := by
  induction l generalizing s with
  | nil => rfl
  | cons e l ih => rw [assign, ih, applied_context, List.map_cons]

theorem sum_assign (htier : tier ≠ .context) (h : s.InRange tier) (cap : ℕ)
    (weight : String → ℤ) (l : List SuspicionEventRow) :
    s.tierSubtotal tier + ((assign tier cap weight s l).map Prod.snd).sum =
      (l.foldl (scanEvent tier cap weight) s).tierSubtotal tier := by
  induction l generalizing s with
  | nil => simp [assign]
  | cons e l ih =>
      rw [assign, List.map_cons, List.sum_cons, List.foldl_cons, ← ih (h.scanEvent htier),
        scanEvent_gain htier h, add_assoc]

theorem assign_nonneg (htier : tier ≠ .context) (h : s.InRange tier) :
    ∀ row ∈ assign tier cap weight s l, 0 ≤ row.2 := by
  induction l generalizing s with
  | nil =>
      intro row hrow
      cases hrow
  | cons e l ih =>
      intro row hrow
      rcases List.mem_cons.mp hrow with rfl | hrow
      · exact applied_nonneg htier h
      · exact ih (h.scanEvent htier) row hrow

theorem assign_untrusted (htier : tier ≠ .context) (h : s.InRange tier) :
    ∀ row ∈ assign tier cap weight s l, row.1.trusted = false → row.2 = 0 := by
  induction l generalizing s with
  | nil =>
      intro row hrow
      cases hrow
  | cons e l ih =>
      intro row hrow huntrusted
      rcases List.mem_cons.mp hrow with rfl | hrow
      · exact applied_of_not_counts htier h (not_counts_of_untrusted huntrusted)
      · exact ih (h.scanEvent htier) row hrow huntrusted

/-- No more rows count than the cap leaves places. -/
theorem countP_assign (htier : tier ≠ .context) (h : s.InRange tier) :
    (assign tier cap weight s l).countP (fun row => 0 < row.2) ≤ cap - s.countedIncidents := by
  induction l generalizing s with
  | nil => simp [assign]
  | cons e l ih =>
      have hrest : (assign tier cap weight (s.scanEvent tier cap weight e) l).countP
          (fun row => 0 < row.2) ≤ cap - (s.scanEvent tier cap weight e).countedIncidents :=
        ih (h.scanEvent htier)
      rw [scanEvent_countedIncidents htier] at hrest
      rw [assign, List.countP_cons]
      by_cases hcounts : s.Counts cap e
      · have hplace := hcounts.2.2
        rw [if_pos hcounts] at hrest
        split <;> omega
      · rw [if_neg hcounts] at hrest
        rw [applied_of_not_counts htier h hcounts]
        simpa using hrest

/-- Two states of a rule which give the same points to the rows: the tier has the same
subtotal, or room for all of them. -/
structure Alike (tier : SuspicionTier) (cap : ℕ) (weight : String → ℤ) (s s' : RuleScan)
    (l : List SuspicionEventRow) : Prop where
  left : s.InRange tier
  right : s'.InRange tier
  seen : ∀ i, s.seen i = s'.seen i
  counted : s.countedIncidents = s'.countedIncidents
  room : s.tierSubtotal tier = s'.tierSubtotal tier ∨
    s.tierSubtotal tier + s.demand cap weight l ≤ tierCeiling tier ∧
      s'.tierSubtotal tier + s'.demand cap weight l ≤ tierCeiling tier

/-- A tier with room for all rows has room for the rest. -/
theorem room_scanEvent (htier : tier ≠ .context) (h : s.InRange tier)
    (hfit : s.tierSubtotal tier + s.demand cap weight (e :: l) ≤ tierCeiling tier) :
    (s.scanEvent tier cap weight e).tierSubtotal tier +
      (s.scanEvent tier cap weight e).demand cap weight l ≤ tierCeiling tier := by
  rw [demand_cons htier] at hfit
  rw [scanEvent_gain htier h, applied_eq htier h]
  by_cases hcounts : s.Counts cap e
  · rw [if_pos hcounts] at hfit ⊢
    omega
  · rw [if_neg hcounts] at hfit ⊢
    omega

theorem Alike.counts (h : Alike tier cap weight s s' l) : s.Counts cap e ↔ s'.Counts cap e := by
  rw [Counts, Counts, h.seen, h.counted]

theorem Alike.applied (htier : tier ≠ .context) (h : Alike tier cap weight s s' (e :: l)) :
    s.applied tier cap weight e = s'.applied tier cap weight e := by
  rw [applied_eq htier h.left, applied_eq htier h.right, if_congr h.counts rfl rfl]
  rcases h.room with heq | ⟨hfit, hfit'⟩
  · rw [heq]
  · rw [demand_cons htier] at hfit hfit'
    have hrest : 0 ≤ (s.scanEvent tier cap weight e).demand cap weight l := demand_nonneg
    have hrest' : 0 ≤ (s'.scanEvent tier cap weight e).demand cap weight l := demand_nonneg
    by_cases hcounts : s'.Counts cap e
    · rw [if_pos (h.counts.mpr hcounts)] at hfit
      rw [if_pos hcounts] at hfit' ⊢
      rw [if_pos hcounts]
      omega
    · rw [if_neg hcounts, if_neg hcounts]

theorem Alike.scanEvent (htier : tier ≠ .context) (h : Alike tier cap weight s s' (e :: l)) :
    Alike tier cap weight (s.scanEvent tier cap weight e) (s'.scanEvent tier cap weight e) l where
  left := h.left.scanEvent htier
  right := h.right.scanEvent htier
  seen := by
    intro i
    rw [scanEvent_seen, scanEvent_seen, h.seen]
  counted := by
    rw [scanEvent_countedIncidents htier, scanEvent_countedIncidents htier, h.counted,
      if_congr h.counts rfl rfl]
  room := by
    have happlied := h.applied htier
    rw [scanEvent_gain htier h.left, scanEvent_gain htier h.right]
    rcases h.room with heq | ⟨hfit, hfit'⟩
    · exact .inl (by rw [heq, happlied])
    · right
      rw [← scanEvent_gain htier h.left, ← scanEvent_gain htier h.right]
      exact ⟨room_scanEvent htier h.left hfit, room_scanEvent htier h.right hfit'⟩

theorem assign_congr (htier : tier ≠ .context) (h : Alike tier cap weight s s' l) :
    assign tier cap weight s l = assign tier cap weight s' l := by
  induction l generalizing s s' with
  | nil => rfl
  | cons e l ih => rw [assign, assign, h.applied htier, ih (h.scanEvent htier)]

/-- Rows which are not trusted leave the points of the others as they are. -/
theorem filter_assign (htier : tier ≠ .context) (h : s.InRange tier) :
    (assign tier cap weight s l).filter (fun row => row.1.trusted) =
      assign tier cap weight s (l.filter (·.trusted)) := by
  induction l generalizing s with
  | nil => rfl
  | cons e l ih =>
      rw [assign, List.filter_cons, List.filter_cons, ih (h.scanEvent htier)]
      cases htrusted : e.trusted with
      | true =>
          rw [if_pos rfl, if_pos rfl, assign]
      | false =>
          have hcounts : ¬s.Counts cap e := not_counts_of_untrusted htrusted
          simp only [Bool.false_eq_true, if_false]
          refine assign_congr htier ⟨h.scanEvent htier, h, ?_, ?_, .inl ?_⟩
          · intro i
            rw [scanEvent_seen, htrusted, Bool.false_and, Bool.false_or]
          · rw [scanEvent_countedIncidents htier, if_neg hcounts, add_zero]
          · rw [scanEvent_gain htier h, applied_of_not_counts htier h hcounts, add_zero]

end RuleScan

section Rules

variable {events : List SuspicionEventRow} {weight : String → ℤ} {s : Scoring}
  {before rules : List String} {rule : String} {tier : SuspicionTier}

/-- What the rules read so far take of a tier. -/
def spent (weight : String → ℤ) (events : List SuspicionEventRow) (before : List String)
    (tier : SuspicionTier) : ℤ :=
  min (tierCeiling tier)
    ((before.filter fun rule => tierOf rule = tier).map (ruleSum weight events)).sum

/-- The state in which the rows of the next rule are read. -/
def ruleStart (weight : String → ℤ) (events : List SuspicionEventRow) (before : List String) :
    RuleScan :=
  ⟨[], spent weight events before, [], false, 0, none⟩

def ruleAssigned (weight : String → ℤ) (events : List SuspicionEventRow) (before : List String)
    (rule : String) : List (SuspicionEventRow × ℤ) :=
  RuleScan.assign (tierOf rule) (capOf rule) weight (ruleStart weight events before)
    (orderedGroup events rule)

/-- The rows of the rules with the points they are given at once. -/
def assigned (weight : String → ℤ) (events : List SuspicionEventRow) :
    List String → List String → List (SuspicionEventRow × ℤ)
  | _, [] => []
  | before, rule :: rules =>
      ruleAssigned weight events before rule ++ assigned weight events (before ++ [rule]) rules

/-- The state of the aggregation after some rules. -/
def scoringAfter (weight : String → ℤ) (events : List SuspicionEventRow) (before : List String) :
    Scoring :=
  before.foldl (Scoring.scanRule events weight) .empty

theorem scoringAfter_concat : scoringAfter weight events (before ++ [rule]) =
    (scoringAfter weight events before).scanRule events weight rule := by
  rw [scoringAfter, List.foldl_append]
  rfl

theorem bounded_empty : Scoring.Bounded Scoring.empty.tierSubtotal := fun tier =>
  ⟨le_rfl, by cases tier <;> decide⟩

theorem scoringAfter_tierSubtotal (htier : tier ≠ .context) :
    (scoringAfter weight events before).tierSubtotal tier = spent weight events before tier := by
  rw [scoringAfter, Scoring.foldl_scanRule_tierSubtotal htier before bounded_empty]
  exact congrArg (min _) (zero_add _)

theorem spent_inRange : 0 ≤ spent weight events before tier ∧
    spent weight events before tier ≤ tierCeiling tier := by
  refine ⟨le_min (by cases tier <;> decide) (List.sum_nonneg fun x hx => ?_), min_le_left ..⟩
  obtain ⟨rule, -, rfl⟩ := List.mem_map.mp hx
  exact ruleSum_nonneg

theorem ruleCode_of_mem_orderedGroup {e : SuspicionEventRow} (h : e ∈ orderedGroup events rule) :
    e.ruleCode = rule := by
  have hmem := List.mem_filter.mp (Newest.sorted_perm.mem_iff.mp h)
  exact of_decide_eq_true hmem.2

theorem map_fst_ruleAssigned (weight : String → ℤ) (events : List SuspicionEventRow)
    (before : List String) (rule : String) :
    (ruleAssigned weight events before rule).map Prod.fst = orderedGroup events rule :=
  RuleScan.map_fst_assign _ _

theorem map_fst_assigned (weight : String → ℤ) (events : List SuspicionEventRow)
    (before rules : List String) : (assigned weight events before rules).map Prod.fst =
      rules.flatMap (orderedGroup events) := by
  induction rules generalizing before with
  | nil => rfl
  | cons rule rules ih =>
      rw [assigned, List.map_append, map_fst_ruleAssigned, ih, List.flatMap_cons]

/-- A rule gets the points it is given in a state with the same subtotal. -/
theorem assign_eq_ruleAssigned {annotated : List ScoredSuspicionEvent}
    {subtotal : SuspicionTier → ℤ}
    (h : ∀ tier, tier ≠ .context → subtotal tier = spent weight events before tier) :
    RuleScan.assign (tierOf rule) (capOf rule) weight ⟨annotated, subtotal, [], false, 0, none⟩
      (orderedGroup events rule) = ruleAssigned weight events before rule := by
  rw [ruleAssigned]
  by_cases hcontext : tierOf rule = .context
  · rw [hcontext, RuleScan.assign_context, RuleScan.assign_context]
  · have hrange : RuleScan.InRange (tierOf rule) (ruleStart weight events before) := spent_inRange
    refine RuleScan.assign_congr hcontext ⟨?_, hrange, ?_, rfl, .inl (h _ hcontext)⟩
    · rw [RuleScan.InRange]
      dsimp only
      rw [h _ hcontext]
      exact hrange
    · intro i
      cases i <;> rfl

theorem addContext_annotated {newest : Option ℕ} :
    (s.addContext rule newest).annotated = s.annotated := by
  unfold Scoring.addContext
  split
  · split <;> rfl
  · rfl

/-- Reading a rule annotates its rows. -/
theorem foldl_ruleScan_annotated : ((orderedGroup events rule).foldl
    (RuleScan.scanEvent (tierOf rule) (capOf rule) weight)
    ⟨(scoringAfter weight events before).annotated,
      (scoringAfter weight events before).tierSubtotal, [], false, 0, none⟩).annotated =
      (scoringAfter weight events before).annotated ++
        (ruleAssigned weight events before rule).map (outcome weight) := by
  have hsubtotal : ∀ tier, tier ≠ .context → (scoringAfter weight events before).tierSubtotal tier =
      spent weight events before tier := fun _ htier => scoringAfter_tierSubtotal htier
  have hrule : ∀ e ∈ orderedGroup events rule, tierOf e.ruleCode = tierOf rule := fun e he => by
    rw [ruleCode_of_mem_orderedGroup he]
  rw [← assign_eq_ruleAssigned hsubtotal]
  exact RuleScan.foldl_scanEvent_annotated _ hrule

theorem scoringAfter_annotated_concat :
    (scoringAfter weight events (before ++ [rule])).annotated =
      (scoringAfter weight events before).annotated ++
        (ruleAssigned weight events before rule).map (outcome weight) := by
  rw [scoringAfter_concat, Scoring.scanRule]
  split
  · rw [addContext_annotated]
    exact foldl_ruleScan_annotated
  · exact foldl_ruleScan_annotated

theorem scoringAfter_annotated (before rules : List String) :
    (scoringAfter weight events (before ++ rules)).annotated =
      (scoringAfter weight events before).annotated ++
        (assigned weight events before rules).map (outcome weight) := by
  induction rules generalizing before with
  | nil => simp [assigned]
  | cons rule rules ih =>
      have hsplit : before ++ rule :: rules = (before ++ [rule]) ++ rules := by simp
      rw [hsplit, ih, scoringAfter_annotated_concat, assigned, List.map_append,
        List.append_assoc]

/-- The trusted rows of a rule. -/
def trustedOf (rule : String) (e : SuspicionEventRow) : Bool :=
  e.ruleCode = rule && e.trusted

/-- The candidate of a rule, its row looked up among the rows of the rules read so far. -/
def candidateOf (events : List SuspicionEventRow) (before : List String) (rule : String) :
    ContextCandidate :=
  ⟨(readRule events rule).head?.elim 0 (·.time), rule,
    (before.flatMap (orderedGroup events)).findIdx (trustedOf rule), unitOf rule⟩

/-- The rules of context which may add to hard evidence. -/
def candidateRules (events : List SuspicionEventRow) (before : List String) : List String :=
  (before.filter (corroborates events)).filter fun rule => 0 < unitOf rule

theorem corroborates_eq : corroborates events rule =
    (decide (tierOf rule = .context) && (orderedGroup events rule).any (·.trusted)) := by
  rw [corroborates, any_trusted_orderedGroup]

theorem exists_trustedOf (h : corroborates events rule = true) :
    ∃ e ∈ orderedGroup events rule, trustedOf rule e = true := by
  rw [corroborates_eq, Bool.and_eq_true, List.any_eq_true] at h
  obtain ⟨-, e, he, htrusted⟩ := h
  refine ⟨e, he, ?_⟩
  simp [trustedOf, ruleCode_of_mem_orderedGroup he, htrusted]

/-- The place of a candidate does not change when more rules are read. -/
theorem candidateOf_append (hrule : rule ∈ before) (h : corroborates events rule = true) :
    candidateOf events (before ++ rules) rule = candidateOf events before rule := by
  obtain ⟨e, he, htrusted⟩ := exists_trustedOf h
  have hmem : ∃ a ∈ before.flatMap (orderedGroup events), trustedOf rule a = true :=
    ⟨e, List.mem_flatMap.mpr ⟨rule, hrule, he⟩, htrusted⟩
  rw [candidateOf, candidateOf, List.flatMap_append, List.findIdx_append,
    if_pos (List.findIdx_lt_length_of_exists hmem)]

/-- The first trusted row of a rule is its newest one. -/
theorem candidateOf_concat (hrule : rule ∉ before) : candidateOf events (before ++ [rule]) rule =
    ⟨(readRule events rule).head?.elim 0 (·.time), rule,
      (before.flatMap (orderedGroup events)).length +
        (orderedGroup events rule).findIdx (·.trusted), unitOf rule⟩ := by
  have hnone : ∀ a ∈ before.flatMap (orderedGroup events), trustedOf rule a = false := by
    intro a ha
    obtain ⟨r, hr, hmem⟩ := List.mem_flatMap.mp ha
    have hne : a.ruleCode ≠ rule := fun heq =>
      hrule ((ruleCode_of_mem_orderedGroup hmem).symm.trans heq ▸ hr)
    simp [trustedOf, hne]
  have hown : ∀ l : List SuspicionEventRow, (∀ e ∈ l, e.ruleCode = rule) →
      l.findIdx (trustedOf rule) = l.findIdx (·.trusted) := by
    intro l hl
    induction l with
    | nil => rfl
    | cons e l ih =>
        rw [List.findIdx_cons, List.findIdx_cons, ih fun a ha => hl a (List.mem_cons_of_mem e ha)]
        simp [trustedOf, hl e List.mem_cons_self]
  rw [candidateOf, List.flatMap_append, List.findIdx_append,
    List.findIdx_eq_length_of_false hnone, if_neg (lt_irrefl _), List.flatMap_singleton,
    hown _ fun e he => ruleCode_of_mem_orderedGroup he, add_comm]

theorem candidateRules_append : candidateRules events (before ++ rules) =
    candidateRules events before ++ candidateRules events rules := by
  rw [candidateRules, List.filter_append, List.filter_append]
  rfl

theorem length_scoringAfter_annotated : (scoringAfter weight events before).annotated.length =
    (before.flatMap (orderedGroup events)).length := by
  have hall : (scoringAfter weight events ([] ++ before)).annotated =
      Scoring.empty.annotated ++ (assigned weight events [] before).map (outcome weight) :=
    scoringAfter_annotated [] before
  have hnil : Scoring.empty.annotated = [] := rfl
  rw [← map_fst_assigned weight events [], List.length_map]
  rw [List.nil_append, hnil, List.nil_append] at hall
  rw [hall, List.length_map]

theorem mem_of_contextSeen (before : List String) :
    ∀ rule ∈ (scoringAfter weight events before).contextSeen, rule ∈ before := by
  induction before using List.reverseRecOn with
  | nil =>
      intro rule hrule
      cases hrule
  | append_singleton before last ih =>
      intro rule hrule
      rw [scoringAfter_concat, (Scoring.scanRule_context ..).1] at hrule
      split at hrule
      · rcases List.mem_cons.mp hrule with rfl | hseen
        · simp
        · exact List.mem_append_left _ (ih rule hseen)
      · exact List.mem_append_left _ (ih rule hrule)

/-- The newest trusted row of a rule in the annotated rows. -/
theorem time_getElem?_append {annotated : List ScoredSuspicionEvent} :
    ((annotated ++ (ruleAssigned weight events before rule).map (outcome weight))[
      annotated.length + (orderedGroup events rule).findIdx (·.trusted)]?).elim 0 (·.time) =
      (readRule events rule).head?.elim 0 (·.time) := by
  rw [List.getElem?_append_right (Nat.le_add_right ..), Nat.add_sub_cancel_left, readRule,
    List.head?_filter, List.find?_eq_getElem?_findIdx]
  have hrow := congrArg (·[(orderedGroup events rule).findIdx (·.trusted)]?)
    (map_fst_ruleAssigned weight events before rule)
  rw [List.getElem?_map] at hrow
  rw [List.getElem?_map, ← hrow]
  cases (ruleAssigned weight events before rule)[(orderedGroup events rule).findIdx
    (·.trusted)]? <;> rfl

theorem scoringAfter_candidates_concat (hrule : rule ∉ before) :
    (scoringAfter weight events (before ++ [rule])).contextCandidates =
      (scoringAfter weight events before).contextCandidates ++
        (candidateRules events [rule]).map (candidateOf events (before ++ [rule])) := by
  have hseen : rule ∉ (scoringAfter weight events before).contextSeen := fun h =>
    hrule (mem_of_contextSeen before rule h)
  rw [scoringAfter_concat, Scoring.scanRule]
  by_cases hcontext : tierOf rule = .context
  · have hscan : ∀ s : RuleScan, s.newestTrustedContextIndex = none →
        ((orderedGroup events rule).foldl
          (RuleScan.scanEvent (tierOf rule) (capOf rule) weight) s).newestTrustedContextIndex =
        if corroborates events rule then
          some (s.annotated.length + (orderedGroup events rule).findIdx (·.trusted)) else none := by
      intro s hs
      rw [hcontext, RuleScan.foldl_scanEvent_newestIndex, hs, Option.none_or, corroborates_eq,
        hcontext]
      rfl
    rw [if_pos hcontext, hscan _ rfl, foldl_ruleScan_annotated]
    cases hcorroborates : corroborates events rule with
    | false => simp [Scoring.addContext, candidateRules, hcorroborates]
    | true =>
        rw [if_pos rfl, Scoring.addContext]
        have hcandidate : candidateOf events (before ++ [rule]) rule =
            ⟨(readRule events rule).head?.elim 0 (·.time), rule,
              (scoringAfter weight events before).annotated.length +
                (orderedGroup events rule).findIdx (·.trusted), unitOf rule⟩ := by
          rw [candidateOf_concat hrule, length_scoringAfter_annotated]
        by_cases hunit : 0 < unitOf rule
        · simp [candidateRules, hcorroborates, hseen, hunit, hcandidate, time_getElem?_append]
        · simp [candidateRules, hcorroborates, hseen, hunit]
  · have hnot : corroborates events rule = false := by simp [corroborates, hcontext]
    simp [hcontext, candidateRules, hnot]

theorem scoringAfter_candidates (hnodup : before.Nodup) :
    (scoringAfter weight events before).contextCandidates =
      (candidateRules events before).map (candidateOf events before) := by
  induction before using List.reverseRecOn with
  | nil => rfl
  | append_singleton before last ih =>
      obtain ⟨hbefore, -, hdisjoint⟩ := List.nodup_append.mp hnodup
      have hlast : last ∉ before := fun hmem => hdisjoint last hmem last (by simp) rfl
      rw [scoringAfter_candidates_concat hlast, ih hbefore, candidateRules_append,
        List.map_append]
      congr 1
      refine List.map_congr_left fun rule hrule => ?_
      have hmem := List.mem_of_mem_filter hrule
      exact (candidateOf_append (List.mem_of_mem_filter hmem) (List.mem_filter.mp hmem).2).symm

end Rules

section Corroboration

variable {events : List SuspicionEventRow} {weight : String → ℤ} {a : Allocation}
  {rows : List (SuspicionEventRow × ℤ)} {candidates : List ContextCandidate}

/-- The rule of a candidate, and what it may add. -/
def ContextCandidate.share (c : ContextCandidate) : String × ℤ := (c.ruleCode, c.unit)

/-- The rules of context take their shares in turn, each for its newest trusted row. -/
def allot : ℤ → List (String × ℤ) → List (SuspicionEventRow × ℤ) → List (SuspicionEventRow × ℤ)
  | _, [], rows => rows
  | remaining, share :: shares, rows =>
      let applied := min share.2 remaining
      allot (remaining - applied) shares
        (if applied = 0 then rows
          else mark (fun row => trustedOf share.1 row.1) (fun row => (row.1, applied)) rows)

theorem map_fst_mark {p : SuspicionEventRow × ℤ → Bool} {v : ℤ} :
    (mark p (fun row => (row.1, v)) rows).map Prod.fst = rows.map Prod.fst :=
  map_mark fun _ => rfl

theorem modify_map_outcome {v : ℤ} (hv : 0 < v) (rule : String) :
    (rows.map (outcome weight)).modify ((rows.map Prod.fst).findIdx (trustedOf rule))
      (fun e => { e with appliedDelta := v, counted := true }) =
      (mark (fun row => trustedOf rule row.1) (fun row => (row.1, v)) rows).map
        (outcome weight) := by
  rw [List.findIdx_map, ← modify_findIdx]
  refine (map_modify (fun row => ?_) rows _).symm
  simp [outcome, hv]

/-- The loop over the candidates gives them their shares. -/
theorem foldl_allocate_annotated (candidates : List ContextCandidate)
    (hindex : ∀ c ∈ candidates, c.eventIndex = (rows.map Prod.fst).findIdx (trustedOf c.ruleCode))
    (hunits : ∀ c ∈ candidates, 0 < c.unit) (hremaining : 0 ≤ a.remaining)
    (ha : a.annotated = rows.map (outcome weight)) :
    (candidates.foldl Allocation.allocate a).annotated =
      (allot a.remaining (candidates.map (·.share)) rows).map (outcome weight) := by
  induction candidates generalizing a rows with
  | nil => exact ha
  | cons c candidates ih =>
      have hunit := hunits c List.mem_cons_self
      have hleft := (allocate_corroboration a c).2
      rw [List.foldl_cons, List.map_cons, allot]
      have hshare : c.share.2 = c.unit := rfl
      rw [hshare, ← hleft]
      refine ih ?_ (fun d hd => hunits d (List.mem_cons_of_mem c hd)) (by omega) ?_
      · intro d hd
        rw [hindex d (List.mem_cons_of_mem c hd)]
        split
        · rfl
        · rw [map_fst_mark]
      · unfold Allocation.allocate
        dsimp only
        split
        · exact ha
        next hne =>
          rw [ha, hindex c List.mem_cons_self]
          exact modify_map_outcome (by omega) c.ruleCode

/-- The shares of the candidates of a ledger, the newest first. -/
def ledgerShares (events : List SuspicionEventRow) : List (String × ℤ) :=
  (((candidateRules events (ruleCodes events)).map
    (candidateOf events (ruleCodes events))).insertionSort candidateLe).map (·.share)

/-- The rows of a ledger with the points they are given. -/
def ascribed (weight : String → ℤ) (events : List SuspicionEventRow) :
    List (SuspicionEventRow × ℤ) :=
  allot (tierFigure weight events .hard / 2) (ledgerShares events)
    (assigned weight events [] (ruleCodes events))

theorem computeBreakdown_events : (computeBreakdown events weight).events =
    (ascribed weight events).map (outcome weight) := by
  set scoring := scoringAfter weight events (ruleCodes events)
  set candidates := (candidateRules events (ruleCodes events)).map
    (candidateOf events (ruleCodes events))
  have hcandidates : scoring.contextCandidates = candidates :=
    scoringAfter_candidates nodup_ruleCodes
  have hmem : ∀ c ∈ candidates.insertionSort candidateLe,
      ∃ rule ∈ candidateRules events (ruleCodes events),
        candidateOf events (ruleCodes events) rule = c := by
    intro c hc
    rw [(List.perm_insertionSort ..).mem_iff] at hc
    exact List.mem_map.mp hc
  have hhard : scoring.tierSubtotal .hard = tierFigure weight events .hard :=
    scoring_tierSubtotal (by decide)
  have hannotated : scoring.annotated =
      (assigned weight events [] (ruleCodes events)).map (outcome weight) :=
    scoringAfter_annotated [] _
  have hfold : (computeBreakdown events weight).events =
      ((scoring.contextCandidates.insertionSort candidateLe).foldl Allocation.allocate
        ⟨scoring.annotated, scoring.tierSubtotal .hard / 2, 0⟩).annotated := rfl
  rw [hfold, hcandidates, ascribed, ← hhard]
  refine foldl_allocate_annotated _ ?_ ?_ ?_ hannotated
  · intro c hc
    obtain ⟨rule, -, rfl⟩ := hmem c hc
    rw [map_fst_assigned]
    rfl
  · intro c hc
    obtain ⟨rule, hrule, rfl⟩ := hmem c hc
    exact of_decide_eq_true (List.mem_filter.mp hrule).2
  · have hnonneg : 0 ≤ tierFigure weight events .hard := tierFigure_nonneg
    dsimp only
    omega

end Corroboration

end Suspicion

end Rsctf
