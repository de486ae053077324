import Mathlib.Algebra.Order.BigOperators.Group.List
import Rsctf.Suspicion.Scoring

/-!
# The figures of a breakdown

The figures of a breakdown are sums of charges: every tier adds what its rules count, up to
its ceiling, and context adds up to half of the hard evidence.  The loops of the aggregation
are brought to these sums here.
-/

namespace Rsctf

namespace Suspicion

/-- A row which may score. -/
def SuspicionEventRow.trusted (e : SuspicionEventRow) : Bool :=
  !isQuarantinedEvidenceKey e.evidenceKey

/-- The incident of a row; the legacy rows of a rule share one. -/
def SuspicionEventRow.incident (e : SuspicionEventRow) : Option String :=
  if e.isLegacy then none else some e.evidenceKey

/-- What a row is charged when it counts. -/
def SuspicionEventRow.charge (weight : String → ℤ) (e : SuspicionEventRow) : ℤ :=
  max (e.scoreDelta.getD (weight e.ruleCode)) 0

section Scan

variable {s : RuleScan} {e : SuspicionEventRow} {tier : SuspicionTier} {cap : ℕ}
  {weight : String → ℤ} {l : List SuspicionEventRow}

namespace RuleScan

def seen (s : RuleScan) : Option String → Bool
  | none => s.legacyIncidentSeen
  | some k => decide (k ∈ s.seenIncident)

theorem register_fst : (s.register e).1 = (e.trusted && !s.seen e.incident) := by
  unfold register SuspicionEventRow.trusted SuspicionEventRow.incident
  cases hq : isQuarantinedEvidenceKey e.evidenceKey <;> cases hl : e.isLegacy <;>
    cases hs : s.legacyIncidentSeen <;> simp [seen, hs]

theorem register_seen (i : Option String) : (s.register e).2.seen i =
    ((e.trusted && decide (i = e.incident)) || s.seen i) := by
  unfold register SuspicionEventRow.trusted SuspicionEventRow.incident
  cases hq : isQuarantinedEvidenceKey e.evidenceKey <;> cases hl : e.isLegacy <;>
    cases hs : s.legacyIncidentSeen <;> cases i <;> simp [seen, hs]

@[simp] theorem register_tierSubtotal : (s.register e).2.tierSubtotal = s.tierSubtotal := by
  unfold register
  split
  · rfl
  · split <;> rfl

@[simp] theorem register_countedIncidents :
    (s.register e).2.countedIncidents = s.countedIncidents := by
  unfold register
  split
  · rfl
  · split <;> rfl

/-- The event takes a place of its rule. -/
def Counts (cap : ℕ) (s : RuleScan) (e : SuspicionEventRow) : Prop :=
  e.trusted = true ∧ s.seen e.incident = false ∧ s.countedIncidents < cap

instance : Decidable (s.Counts cap e) := inferInstanceAs (Decidable (_ ∧ _))

theorem register_counts :
    ((s.register e).1 = true ∧ s.countedIncidents < cap) ↔ s.Counts cap e := by
  rw [register_fst, Bool.and_eq_true, Bool.not_eq_true', Counts, and_assoc]

theorem charge_tierSubtotal {isNew : Bool} {delta : ℤ} (htier : tier ≠ .context)
    (hnonneg : 0 ≤ s.tierSubtotal tier) (hle : s.tierSubtotal tier ≤ tierCeiling tier) :
    (s.charge tier cap isNew delta).2.tierSubtotal = Function.update s.tierSubtotal tier
      (min (tierCeiling tier) (s.tierSubtotal tier +
        if isNew = true ∧ s.countedIncidents < cap then max delta 0 else 0)) := by
  have hmax : tierCeiling tier ≤ i64Max := by
    cases tier <;> decide
  have hroom : saturatingSub (tierCeiling tier) (s.tierSubtotal tier) =
      tierCeiling tier - s.tierSubtotal tier := by
    unfold saturatingSub
    have hpos : 0 ≤ i64Max := by decide
    omega
  unfold charge
  by_cases hcount : isNew = true ∧ s.countedIncidents < cap
  · rw [if_pos ⟨htier, hcount⟩, if_pos hcount, hroom]
    dsimp only
    by_cases hcontribution : 0 < min (max delta 0) (tierCeiling tier - s.tierSubtotal tier)
    · rw [if_pos hcontribution]
      dsimp only
      congr 1
      omega
    · rw [if_neg hcontribution]
      have hsame : min (tierCeiling tier) (s.tierSubtotal tier + max delta 0) =
          s.tierSubtotal tier := by omega
      rw [hsame, Function.update_eq_self]
  · rw [if_neg (fun h => hcount h.2), if_neg hcount, add_zero, min_eq_right hle,
      Function.update_eq_self]

theorem charge_countedIncidents {isNew : Bool} {delta : ℤ} (htier : tier ≠ .context) :
    (s.charge tier cap isNew delta).2.countedIncidents =
      s.countedIncidents + if isNew = true ∧ s.countedIncidents < cap then 1 else 0 := by
  unfold charge
  by_cases hcount : isNew = true ∧ s.countedIncidents < cap
  · rw [if_pos ⟨htier, hcount⟩, if_pos hcount]
    dsimp only
    split <;> rfl
  · rw [if_neg (fun h => hcount h.2), if_neg hcount, add_zero]

@[simp] theorem charge_seen {isNew : Bool} {delta : ℤ} (i : Option String) :
    (s.charge tier cap isNew delta).2.seen i = s.seen i := by
  unfold charge
  split
  · dsimp only
    split <;> cases i <;> rfl
  · rfl

theorem scanEvent_seen (i : Option String) : (s.scanEvent tier cap weight e).seen i =
    ((e.trusted && decide (i = e.incident)) || s.seen i) := by
  have hsame : (s.scanEvent tier cap weight e).seen i =
      ((s.register e).2.charge tier cap (s.register e).1 (scoreDelta weight e)).2.seen i := by
    cases i <;> rfl
  rw [hsame, charge_seen, register_seen]

theorem scanEvent_countedIncidents (htier : tier ≠ .context) :
    (s.scanEvent tier cap weight e).countedIncidents =
      s.countedIncidents + if s.Counts cap e then 1 else 0 := by
  have hsame : (s.scanEvent tier cap weight e).countedIncidents =
      ((s.register e).2.charge tier cap (s.register e).1
        (scoreDelta weight e)).2.countedIncidents := rfl
  rw [hsame, charge_countedIncidents htier, register_countedIncidents,
    if_congr register_counts rfl rfl]

theorem scanEvent_tierSubtotal (htier : tier ≠ .context) (hnonneg : 0 ≤ s.tierSubtotal tier)
    (hle : s.tierSubtotal tier ≤ tierCeiling tier) :
    (s.scanEvent tier cap weight e).tierSubtotal = Function.update s.tierSubtotal tier
      (min (tierCeiling tier) (s.tierSubtotal tier +
        if s.Counts cap e then e.charge weight else 0)) := by
  have hsame : (s.scanEvent tier cap weight e).tierSubtotal =
      ((s.register e).2.charge tier cap (s.register e).1 (scoreDelta weight e)).2.tierSubtotal :=
    rfl
  rw [hsame, charge_tierSubtotal htier (by rwa [register_tierSubtotal])
    (by rwa [register_tierSubtotal]), register_tierSubtotal, register_countedIncidents,
    if_congr register_counts rfl rfl]
  by_cases hcounts : s.Counts cap e
  · have htrusted : isQuarantinedEvidenceKey e.evidenceKey = false := by
      have h := hcounts.1
      unfold SuspicionEventRow.trusted at h
      simpa using h
    rw [if_pos hcounts, if_pos hcounts, scoreDelta, htrusted]
    rfl
  · rw [if_neg hcounts, if_neg hcounts]

/-- The rows which are still to take a place. -/
def pending (s : RuleScan) (l : List SuspicionEventRow) : List SuspicionEventRow :=
  (Newest.firsts (·.incident) (l.filter (·.trusted))).filter fun e => !s.seen e.incident

theorem charge_nonneg : 0 ≤ e.charge weight := le_max_right ..

theorem sum_charge_nonneg : 0 ≤ (l.map (·.charge weight)).sum :=
  List.sum_nonneg fun _ hx => by
    obtain ⟨e, -, rfl⟩ := List.mem_map.mp hx
    exact charge_nonneg

/-- A row takes a place, or leaves the rest as it is. -/
theorem pending_cons (tier : SuspicionTier) (cap : ℕ) (weight : String → ℤ)
    (e : SuspicionEventRow) (l : List SuspicionEventRow) :
    s.pending (e :: l) =
      if e.trusted = true ∧ s.seen e.incident = false then
        e :: (s.scanEvent tier cap weight e).pending l
      else (s.scanEvent tier cap weight e).pending l := by
  unfold pending
  by_cases htrusted : e.trusted = true
  · rw [List.filter_cons, if_pos htrusted, Newest.firsts, List.filter_cons, List.filter_filter]
    have hrest : (Newest.firsts (·.incident) (l.filter (·.trusted))).filter
        (fun a => !s.seen a.incident && decide (a.incident ≠ e.incident)) =
        (Newest.firsts (·.incident) (l.filter (·.trusted))).filter
          fun a => !(s.scanEvent tier cap weight e).seen a.incident := by
      refine List.filter_congr fun a _ => ?_
      rw [scanEvent_seen, htrusted, Bool.true_and, Bool.not_or, Bool.and_comm, decide_not]
    rw [hrest]
    cases hseen : s.seen e.incident <;> simp [htrusted]
  · rw [List.filter_cons, if_neg htrusted, if_neg (fun h => htrusted h.1)]
    refine List.filter_congr fun a _ => ?_
    rw [scanEvent_seen, Bool.eq_false_iff.mpr htrusted, Bool.false_and, Bool.false_or]

/-- What the pending rows are charged within the cap. -/
def demand (cap : ℕ) (weight : String → ℤ) (s : RuleScan) (l : List SuspicionEventRow) : ℤ :=
  (((s.pending l).take (cap - s.countedIncidents)).map (·.charge weight)).sum

theorem demand_nonneg : 0 ≤ s.demand cap weight l := sum_charge_nonneg

/-- A row which counts is charged, and leaves the demand of the others. -/
theorem demand_cons (htier : tier ≠ .context) (e : SuspicionEventRow)
    (l : List SuspicionEventRow) : s.demand cap weight (e :: l) =
      (if s.Counts cap e then e.charge weight else 0) +
        (s.scanEvent tier cap weight e).demand cap weight l := by
  have hcounted : (s.scanEvent tier cap weight e).countedIncidents =
      s.countedIncidents + if s.Counts cap e then 1 else 0 := scanEvent_countedIncidents htier
  unfold demand
  rw [pending_cons tier cap weight]
  by_cases hnew : e.trusted = true ∧ s.seen e.incident = false
  · rw [if_pos hnew]
    by_cases hplace : s.countedIncidents < cap
    · have hcounts : s.Counts cap e := ⟨hnew.1, hnew.2, hplace⟩
      rw [if_pos hcounts] at hcounted ⊢
      have hsucc : cap - s.countedIncidents =
          cap - (s.scanEvent tier cap weight e).countedIncidents + 1 := by omega
      rw [hsucc, List.take_succ_cons, List.map_cons, List.sum_cons]
    · have hcounts : ¬s.Counts cap e := fun h => hplace h.2.2
      rw [if_neg hcounts, add_zero] at hcounted
      have hfull : cap - s.countedIncidents = 0 := by omega
      rw [if_neg hcounts, hcounted, hfull, List.take_zero, List.take_zero, zero_add]
  · have hcounts : ¬s.Counts cap e := fun h => hnew ⟨h.1, h.2.1⟩
    rw [if_neg hcounts, add_zero] at hcounted
    rw [if_neg hnew, if_neg hcounts, hcounted, zero_add]

/-- An event keeps its tier within the ceiling. -/
theorem scanEvent_bounded (htier : tier ≠ .context)
    (h : 0 ≤ s.tierSubtotal tier ∧ s.tierSubtotal tier ≤ tierCeiling tier) :
    0 ≤ (s.scanEvent tier cap weight e).tierSubtotal tier ∧
      (s.scanEvent tier cap weight e).tierSubtotal tier ≤ tierCeiling tier := by
  have hcharge : 0 ≤ e.charge weight := charge_nonneg
  rw [scanEvent_tierSubtotal htier h.1 h.2, Function.update_self]
  split <;> omega

/-- The rows of a rule add what the pending ones are charged, up to the cap and the ceiling. -/
theorem foldl_scanEvent_tierSubtotal (htier : tier ≠ .context) (l : List SuspicionEventRow)
    (hnonneg : 0 ≤ s.tierSubtotal tier) (hle : s.tierSubtotal tier ≤ tierCeiling tier) :
    (l.foldl (scanEvent tier cap weight) s).tierSubtotal = Function.update s.tierSubtotal tier
      (min (tierCeiling tier) (s.tierSubtotal tier + s.demand cap weight l)) := by
  induction l generalizing s with
  | nil =>
      have hnil : s.demand cap weight [] = 0 := by
        rw [demand, show s.pending [] = [] from rfl, List.take_nil, List.map_nil, List.sum_nil]
      rw [hnil, add_zero, min_eq_right hle, Function.update_eq_self]
      rfl
  | cons e l ih =>
      have hstep : (s.scanEvent tier cap weight e).tierSubtotal =
          Function.update s.tierSubtotal tier (min (tierCeiling tier) (s.tierSubtotal tier +
            if s.Counts cap e then e.charge weight else 0)) :=
        scanEvent_tierSubtotal htier hnonneg hle
      have hown := congrFun hstep tier
      rw [Function.update_self] at hown
      have hbounded : 0 ≤ (s.scanEvent tier cap weight e).tierSubtotal tier ∧
          (s.scanEvent tier cap weight e).tierSubtotal tier ≤ tierCeiling tier :=
        scanEvent_bounded htier ⟨hnonneg, hle⟩
      have hrest : 0 ≤ (s.scanEvent tier cap weight e).demand cap weight l := demand_nonneg
      rw [List.foldl_cons, ih hbounded.1 hbounded.2, hown, hstep, Function.update_idem,
        demand_cons htier]
      congr 1
      omega

/-- Context charges nothing. -/
theorem foldl_scanEvent_context (l : List SuspicionEventRow) :
    (l.foldl (scanEvent .context cap weight) s).tierSubtotal = s.tierSubtotal := by
  induction l generalizing s with
  | nil => rfl
  | cons e l ih =>
      have hsame : (s.scanEvent .context cap weight e).tierSubtotal = s.tierSubtotal :=
        register_tierSubtotal
      rw [List.foldl_cons, ih, hsame]

/-- Context remembers whether a trusted row came. -/
theorem foldl_scanEvent_newest (l : List SuspicionEventRow) :
    (l.foldl (scanEvent .context cap weight) s).newestTrustedContextIndex.isSome =
      (s.newestTrustedContextIndex.isSome || l.any (·.trusted)) := by
  induction l generalizing s with
  | nil => simp
  | cons e l ih =>
      have hregister :
          (s.register e).2.newestTrustedContextIndex = s.newestTrustedContextIndex := by
        unfold register
        split
        · rfl
        · split <;> rfl
      have hstep : (s.scanEvent .context cap weight e).newestTrustedContextIndex.isSome =
          (s.newestTrustedContextIndex.isSome || e.trusted) := by
        simp only [scanEvent, charge, SuspicionEventRow.trusted]
        cases hq : isQuarantinedEvidenceKey e.evidenceKey <;>
          cases hn : s.newestTrustedContextIndex <;> simp [hregister, hn]
      rw [List.foldl_cons, ih, hstep, List.any_cons, Bool.or_assoc]

end RuleScan

end Scan

section Rules

variable {events events' : List SuspicionEventRow} {weight : String → ℤ} {s : Scoring}
  {tier : SuspicionTier} {rule : String}

/-- The rows of a rule which may score. -/
def ruleRows (events : List SuspicionEventRow) (rule : String) : List SuspicionEventRow :=
  (events.filter fun e => e.ruleCode = rule).filter (·.trusted)

/-- The rows of a rule as they are read. -/
def readRule (events : List SuspicionEventRow) (rule : String) : List SuspicionEventRow :=
  (orderedGroup events rule).filter (·.trusted)

/-- What a rule adds before the ceiling of its tier. -/
def ruleSum (weight : String → ℤ) (events : List SuspicionEventRow) (rule : String) : ℤ :=
  Newest.topSum (·.incident) (·.charge weight) (capOf rule) (readRule events rule)

theorem readRule_perm : (readRule events rule).Perm (ruleRows events rule) :=
  Newest.sorted_perm.filter _

theorem newestFirst_readRule : Newest.NewestFirst (·.time) (readRule events rule) :=
  Newest.newestFirst_sorted.sublist List.filter_sublist

theorem ruleSum_nonneg : 0 ≤ ruleSum weight events rule := RuleScan.sum_charge_nonneg

theorem pending_start {annotated : List ScoredSuspicionEvent} {subtotal : SuspicionTier → ℤ}
    {l : List SuspicionEventRow} :
    (⟨annotated, subtotal, [], false, 0, none⟩ : RuleScan).pending l =
      Newest.firsts (·.incident) (l.filter (·.trusted)) := by
  refine List.filter_eq_self.mpr fun e _ => ?_
  cases e.incident <;> rfl

namespace Scoring

theorem addContext_tierSubtotal {newest : Option ℕ} :
    (s.addContext rule newest).tierSubtotal = s.tierSubtotal := by
  unfold addContext
  split
  · split <;> rfl
  · rfl

/-- Every tier is within its ceiling. -/
def Bounded (subtotal : SuspicionTier → ℤ) : Prop :=
  ∀ tier, 0 ≤ subtotal tier ∧ subtotal tier ≤ tierCeiling tier

theorem scanRule_tierSubtotal (h : Bounded s.tierSubtotal) :
    (s.scanRule events weight rule).tierSubtotal =
      if tierOf rule = .context then s.tierSubtotal
      else Function.update s.tierSubtotal (tierOf rule)
        (min (tierCeiling (tierOf rule))
          (s.tierSubtotal (tierOf rule) + ruleSum weight events rule)) := by
  unfold scanRule
  by_cases hcontext : tierOf rule = .context
  · rw [if_pos hcontext, if_pos hcontext, addContext_tierSubtotal, hcontext]
    exact RuleScan.foldl_scanEvent_context _
  · rw [if_neg hcontext, if_neg hcontext]
    dsimp only
    rw [RuleScan.foldl_scanEvent_tierSubtotal hcontext _ (h _).1 (h _).2, RuleScan.demand,
      pending_start, Nat.sub_zero]
    rfl

theorem Bounded.scanRule (h : Bounded s.tierSubtotal) :
    Bounded (s.scanRule events weight rule).tierSubtotal := by
  rw [scanRule_tierSubtotal h]
  split
  · exact h
  · intro t
    by_cases ht : t = tierOf rule
    · have hsum : 0 ≤ ruleSum weight events rule := ruleSum_nonneg
      have hold := h t
      rw [ht] at hold ⊢
      rw [Function.update_self]
      omega
    · rw [Function.update_of_ne ht]
      exact h t

/-- A tier adds what its rules add, up to its ceiling. -/
theorem foldl_scanRule_tierSubtotal (htier : tier ≠ .context) (rules : List String)
    (h : Bounded s.tierSubtotal) :
    (rules.foldl (Scoring.scanRule events weight) s).tierSubtotal tier =
      min (tierCeiling tier) (s.tierSubtotal tier +
        ((rules.filter fun rule => tierOf rule = tier).map (ruleSum weight events)).sum) := by
  induction rules generalizing s with
  | nil => simpa using (h tier).2
  | cons rule rules ih =>
      have hsum : 0 ≤ ((rules.filter fun rule => tierOf rule = tier).map
          (ruleSum weight events)).sum := List.sum_nonneg fun x hx => by
        obtain ⟨r, -, rfl⟩ := List.mem_map.mp hx
        exact ruleSum_nonneg
      rw [List.foldl_cons, ih h.scanRule, scanRule_tierSubtotal h]
      by_cases hrule : tierOf rule = tier
      · rw [hrule, if_neg htier, Function.update_self, List.filter_cons,
          if_pos (by simpa using hrule), List.map_cons, List.sum_cons]
        omega
      · have hfilter : (rule :: rules).filter (fun rule => tierOf rule = tier) =
            rules.filter fun rule => tierOf rule = tier :=
          List.filter_cons_of_neg (by simpa using hrule)
        rw [hfilter]
        split
        · rfl
        · rw [Function.update_of_ne (Ne.symm hrule)]

end Scoring

/-- A rule of context with a trusted row. -/
def corroborates (events : List SuspicionEventRow) (rule : String) : Bool :=
  tierOf rule = .context && events.any fun e => e.ruleCode = rule && e.trusted

theorem any_trusted_orderedGroup : (orderedGroup events rule).any (·.trusted) =
    events.any fun e => e.ruleCode = rule && e.trusted := by
  rw [orderedGroup, Newest.sorted_perm.any_eq, List.any_filter]

namespace Scoring

theorem scanRule_context (s : Scoring) (events : List SuspicionEventRow) (weight : String → ℤ)
    (rule : String) : (s.scanRule events weight rule).contextSeen =
      (if corroborates events rule = true ∧ rule ∉ s.contextSeen then rule :: s.contextSeen
        else s.contextSeen) ∧
    (s.scanRule events weight rule).contextCandidates.map (·.unit) =
      s.contextCandidates.map (·.unit) ++
        if corroborates events rule = true ∧ rule ∉ s.contextSeen ∧ 0 < unitOf rule then
          [unitOf rule] else [] := by
  unfold scanRule
  by_cases hcontext : tierOf rule = .context
  · rw [if_pos hcontext, hcontext]
    have hnewest : ((orderedGroup events rule).foldl
        (RuleScan.scanEvent .context (capOf rule) weight)
        ⟨s.annotated, s.tierSubtotal, [], false, 0, none⟩).newestTrustedContextIndex.isSome =
          corroborates events rule := by
      rw [RuleScan.foldl_scanEvent_newest, any_trusted_orderedGroup, corroborates, hcontext]
      simp
    generalize (orderedGroup events rule).foldl (RuleScan.scanEvent .context (capOf rule) weight)
      ⟨s.annotated, s.tierSubtotal, [], false, 0, none⟩ = scan at hnewest
    rw [← hnewest]
    unfold addContext
    cases scan.newestTrustedContextIndex with
    | none => simp
    | some index =>
        dsimp only
        by_cases hseen : rule ∈ s.contextSeen
        · simp [hseen]
        · rw [if_neg hseen]
          by_cases hunit : 0 < unitOf rule
          · simp [hseen, hunit]
          · simp [hseen, hunit]
  · have hnot : corroborates events rule = false := by simp [corroborates, hcontext]
    rw [if_neg hcontext, hnot]
    simp

/-- The rules of context which are remembered, and what they may add. -/
theorem foldl_scanRule_context (rules : List String) (hnodup : rules.Nodup)
    (hnew : ∀ rule ∈ rules, rule ∉ s.contextSeen) :
    ((rules.foldl (Scoring.scanRule events weight) s).contextSeen = [] ↔
      s.contextSeen = [] ∧ rules.filter (corroborates events) = []) ∧
    (rules.foldl (Scoring.scanRule events weight) s).contextCandidates.map (·.unit) =
      s.contextCandidates.map (·.unit) ++
        ((rules.filter (corroborates events)).filter fun rule => 0 < unitOf rule).map unitOf := by
  induction rules generalizing s with
  | nil => simp
  | cons rule rules ih =>
      obtain ⟨hnotin, hrest⟩ := List.nodup_cons.mp hnodup
      have hself := hnew rule List.mem_cons_self
      obtain ⟨hseen, hunits⟩ := scanRule_context s events weight rule
      have hnew' : ∀ r ∈ rules, r ∉ (s.scanRule events weight rule).contextSeen := by
        intro r hr
        rw [hseen]
        split
        · rw [List.mem_cons, not_or]
          exact ⟨fun heq => hnotin (heq ▸ hr), hnew r (List.mem_cons_of_mem _ hr)⟩
        · exact hnew r (List.mem_cons_of_mem _ hr)
      obtain ⟨hempty, hcandidates⟩ := ih hrest hnew'
      rw [List.foldl_cons, hempty, hcandidates, hseen, hunits]
      by_cases hcorroborates : corroborates events rule = true
      · rw [List.filter_cons, if_pos hcorroborates]
        by_cases hunit : 0 < unitOf rule
        · simp [hcorroborates, hself, hunit]
        · simp [hcorroborates, hself, hunit]
      · rw [List.filter_cons, if_neg hcorroborates]
        simp [hcorroborates]

end Scoring

theorem allocate_corroboration (a : Allocation) (c : ContextCandidate) :
    (a.allocate c).corroboration = a.corroboration + min c.unit a.remaining ∧
      (a.allocate c).remaining = a.remaining - min c.unit a.remaining := by
  unfold Allocation.allocate
  dsimp only
  split
  · next hzero => simp [hzero]
  · exact ⟨rfl, rfl⟩

/-- The candidates share what half of the hard evidence leaves. -/
theorem foldl_allocate_corroboration (candidates : List ContextCandidate) {a : Allocation}
    (hunits : ∀ c ∈ candidates, 0 < c.unit) (hremaining : 0 ≤ a.remaining) :
    (candidates.foldl Allocation.allocate a).corroboration =
      a.corroboration + min a.remaining (candidates.map (·.unit)).sum := by
  induction candidates generalizing a with
  | nil => simpa using hremaining
  | cons c candidates ih =>
      have hunit := hunits c List.mem_cons_self
      have htail : ∀ d ∈ candidates, 0 < d.unit := fun d hd => hunits d (List.mem_cons_of_mem _ hd)
      have hsum : 0 ≤ (candidates.map (·.unit)).sum := List.sum_nonneg fun x hx => by
        obtain ⟨d, hd, rfl⟩ := List.mem_map.mp hx
        exact (htail d hd).le
      obtain ⟨hcorroboration, hleft⟩ := allocate_corroboration a c
      have hleft' : 0 ≤ (a.allocate c).remaining := by omega
      rw [List.foldl_cons, List.map_cons, List.sum_cons, ih htail hleft', hcorroboration, hleft]
      omega

/-- What a tier adds. -/
def tierFigure (weight : String → ℤ) (events : List SuspicionEventRow) (tier : SuspicionTier) : ℤ :=
  min (tierCeiling tier)
    (((ruleCodes events).filter fun rule => tierOf rule = tier).map (ruleSum weight events)).sum

/-- What the rules of context may add. -/
def contextUnits (events : List SuspicionEventRow) : ℤ :=
  ((((ruleCodes events).filter (corroborates events)).filter fun rule => 0 < unitOf rule).map
    unitOf).sum

theorem nodup_ruleCodes : (ruleCodes events).Nodup := Newest.nodup_firsts events

theorem scoring_tierSubtotal (htier : tier ≠ .context) :
    ((ruleCodes events).foldl (Scoring.scanRule events weight) .empty).tierSubtotal tier =
      tierFigure weight events tier := by
  have hbounded : Scoring.Bounded Scoring.empty.tierSubtotal := fun t =>
    ⟨le_rfl, by cases t <;> decide⟩
  rw [Scoring.foldl_scanRule_tierSubtotal htier _ hbounded]
  exact congrArg (min _) (zero_add _)

theorem contextual_scoring :
    (((ruleCodes events).foldl (Scoring.scanRule events weight) .empty).contextSeen = [] ↔
      Scoring.empty.contextSeen = [] ∧ (ruleCodes events).filter (corroborates events) = []) ∧
    ((ruleCodes events).foldl (Scoring.scanRule events weight) .empty).contextCandidates.map
        (·.unit) = Scoring.empty.contextCandidates.map (·.unit) ++
          (((ruleCodes events).filter (corroborates events)).filter
            fun rule => 0 < unitOf rule).map unitOf :=
  Scoring.foldl_scanRule_context _ nodup_ruleCodes fun _ _ => List.not_mem_nil

theorem tierFigure_nonneg : 0 ≤ tierFigure weight events tier := by
  refine le_min (by cases tier <;> decide) (List.sum_nonneg fun x hx => ?_)
  obtain ⟨rule, -, rfl⟩ := List.mem_map.mp hx
  exact ruleSum_nonneg

theorem computeBreakdown_hard :
    (computeBreakdown events weight).hard = tierFigure weight events .hard :=
  scoring_tierSubtotal (by decide)

theorem computeBreakdown_strong :
    (computeBreakdown events weight).strong = tierFigure weight events .strong :=
  scoring_tierSubtotal (by decide)

theorem computeBreakdown_behavioral :
    (computeBreakdown events weight).behavioral = tierFigure weight events .behavioral :=
  scoring_tierSubtotal (by decide)

theorem computeBreakdown_corroboration : (computeBreakdown events weight).corroboration =
    min (tierFigure weight events .hard / 2) (contextUnits events) := by
  set scoring := (ruleCodes events).foldl (Scoring.scanRule events weight) .empty
  have hunits : scoring.contextCandidates.map (·.unit) =
      (((ruleCodes events).filter (corroborates events)).filter fun rule => 0 < unitOf rule).map
        unitOf := contextual_scoring.2
  have hperm := List.perm_insertionSort candidateLe scoring.contextCandidates
  have hpositive : ∀ c ∈ scoring.contextCandidates.insertionSort candidateLe, 0 < c.unit := by
    intro c hc
    have hmem : c.unit ∈ scoring.contextCandidates.map (·.unit) :=
      List.mem_map_of_mem (hperm.mem_iff.mp hc)
    rw [hunits] at hmem
    obtain ⟨rule, hrule, hunit⟩ := List.mem_map.mp hmem
    exact hunit ▸ of_decide_eq_true (List.mem_filter.mp hrule).2
  have hhard : scoring.tierSubtotal .hard = tierFigure weight events .hard :=
    scoring_tierSubtotal (by decide)
  have hhalf : 0 ≤ tierFigure weight events .hard / 2 :=
    Int.ediv_nonneg tierFigure_nonneg (by decide)
  have hresult : (computeBreakdown events weight).corroboration =
      ((scoring.contextCandidates.insertionSort candidateLe).foldl Allocation.allocate
        ⟨scoring.annotated, scoring.tierSubtotal .hard / 2, 0⟩).corroboration := rfl
  rw [hresult, hhard, foldl_allocate_corroboration _ hpositive hhalf, zero_add,
    (hperm.map (·.unit)).sum_eq, hunits]
  rfl

theorem riskBand_congr {hard strong behavioral : ℤ} {seen seen' : List String}
    (h : seen = [] ↔ seen' = []) :
    riskBand hard strong behavioral seen = riskBand hard strong behavioral seen' := by
  unfold riskBand
  simp only [ne_eq, h]

theorem computeBreakdown_band : (computeBreakdown events weight).band =
    riskBand (tierFigure weight events .hard) (tierFigure weight events .strong)
      (tierFigure weight events .behavioral) ((ruleCodes events).filter (corroborates events)) := by
  rw [← computeBreakdown_hard, ← computeBreakdown_strong, ← computeBreakdown_behavioral]
  exact riskBand_congr (contextual_scoring.1.trans (and_iff_right rfl))

end Rules

end Suspicion

end Rsctf
