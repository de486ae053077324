import Mathlib.Data.String.Basic
import Rsctf.Suspicion.Ascription

/-!
# Points are conserved

Every row of a ledger stands once in its breakdown, and the points of the rows add up to the
total.  Rows under quarantine give nothing and take nothing: without them the figures are the
same, and so are the points of every other row, unless rules which share a ceiling come to be
read in another order.
-/

namespace Rsctf

namespace Suspicion

open Marking

section Conservation

variable {events : List SuspicionEventRow} {weight : String → ℤ}
  {before rules : List String} {rule : String} {tier : SuspicionTier}
  {rows : List (SuspicionEventRow × ℤ)} {shares : List (String × ℤ)} {remaining : ℤ}

theorem map_fst_allot (remaining : ℤ) (shares : List (String × ℤ))
    (rows : List (SuspicionEventRow × ℤ)) :
    (allot remaining shares rows).map Prod.fst = rows.map Prod.fst := by
  induction shares generalizing remaining rows with
  | nil => rfl
  | cons share shares ih =>
      rw [allot, ih]
      split
      · rfl
      · rw [map_fst_mark]

theorem map_fst_ascribed : (ascribed weight events).map Prod.fst =
    (ruleCodes events).flatMap (orderedGroup events) := by
  rw [ascribed, map_fst_allot, map_fst_assigned]

/-- Every row of the ledger is ascribed its points once. -/
theorem map_fst_ascribed_perm : ((ascribed weight events).map Prod.fst).Perm events := by
  have hall : ∀ e ∈ events, e.ruleCode ∈ ruleCodes events := fun e he =>
    Newest.mem_map_firsts.mpr (List.mem_map_of_mem he)
  rw [map_fst_ascribed]
  exact (List.Perm.flatMap_left _ fun rule _ => Newest.sorted_perm).trans
    (Keyed.flatMap_rows_perm nodup_ruleCodes hall)

theorem sum_ruleSum_nonneg (rules : List String) :
    0 ≤ (rules.map (ruleSum weight events)).sum :=
  List.sum_nonneg fun x hx => by
    obtain ⟨rule, -, rfl⟩ := List.mem_map.mp hx
    exact ruleSum_nonneg

theorem spent_concat_self : spent weight events (before ++ [rule]) (tierOf rule) =
    min (tierCeiling (tierOf rule))
      (spent weight events before (tierOf rule) + ruleSum weight events rule) := by
  have hnonneg : 0 ≤ ruleSum weight events rule := ruleSum_nonneg
  rw [spent, spent, List.filter_append, List.map_append, List.sum_append]
  simp only [List.filter_cons, decide_true, if_true, List.filter_nil, List.map_cons, List.map_nil,
    List.sum_cons, List.sum_nil, add_zero]
  omega

theorem spent_concat_of_ne (h : tier ≠ tierOf rule) :
    spent weight events (before ++ [rule]) tier = spent weight events before tier := by
  simp [spent, List.filter_append, h.symm]

theorem ruleStart_inRange : RuleScan.InRange tier (ruleStart weight events before) :=
  spent_inRange

theorem demand_ruleStart : (ruleStart weight events before).demand (capOf rule) weight
    (orderedGroup events rule) = ruleSum weight events rule := by
  rw [RuleScan.demand, ruleStart, pending_start, Nat.sub_zero]
  rfl

/-- The points of a rule are what its tier gains. -/
theorem sum_ruleAssigned : ((ruleAssigned weight events before rule).map Prod.snd).sum =
    if tierOf rule = .context then 0
    else spent weight events (before ++ [rule]) (tierOf rule) -
      spent weight events before (tierOf rule) := by
  rw [ruleAssigned]
  by_cases hcontext : tierOf rule = .context
  · rw [if_pos hcontext, hcontext, RuleScan.assign_context, List.map_map]
    exact List.sum_eq_zero fun x hx => by
      obtain ⟨e, -, rfl⟩ := List.mem_map.mp hx
      rfl
  · have hrange : RuleScan.InRange (tierOf rule) (ruleStart weight events before) :=
      ruleStart_inRange
    have hsum := RuleScan.sum_assign hcontext hrange (capOf rule) weight
      (orderedGroup events rule)
    rw [RuleScan.foldl_scanEvent_tierSubtotal hcontext _ hrange.1 hrange.2,
      Function.update_self, demand_ruleStart] at hsum
    rw [if_neg hcontext, spent_concat_self, eq_sub_iff_add_eq']
    exact hsum

/-- What the rules give at once is what the tiers gain. -/
theorem sum_assigned : ((assigned weight events before rules).map Prod.snd).sum =
    (spent weight events (before ++ rules) .hard - spent weight events before .hard) +
      (spent weight events (before ++ rules) .strong - spent weight events before .strong) +
      (spent weight events (before ++ rules) .behavioral -
        spent weight events before .behavioral) := by
  induction rules generalizing before with
  | nil => simp [assigned]
  | cons rule rules ih =>
      have hsplit : before ++ rule :: rules = (before ++ [rule]) ++ rules := by simp
      have hne (tier : SuspicionTier) (h : tier ≠ tierOf rule) :
          spent weight events (before ++ [rule]) tier = spent weight events before tier :=
        spent_concat_of_ne h
      rw [assigned, List.map_append, List.sum_append, ih, hsplit, sum_ruleAssigned]
      cases htier : tierOf rule with
      | context =>
          rw [hne .hard (by simp [htier]), hne .strong (by simp [htier]),
            hne .behavioral (by simp [htier])]
          simp
      | behavioral =>
          rw [hne .hard (by simp [htier]), hne .strong (by simp [htier]), if_neg (by decide)]
          omega
      | strong =>
          rw [hne .hard (by simp [htier]), hne .behavioral (by simp [htier]),
            if_neg (by decide)]
          omega
      | hard =>
          rw [hne .strong (by simp [htier]), hne .behavioral (by simp [htier]),
            if_neg (by decide)]
          omega

/-- The shares of candidates of distinct rules, whose rows have no points yet. -/
structure Sharable (shares : List (String × ℤ)) (rows : List (SuspicionEventRow × ℤ)) :
    Prop where
  distinct : (shares.map Prod.fst).Nodup
  positive : ∀ share ∈ shares, 0 < share.2
  present : ∀ share ∈ shares, ∃ row ∈ rows, trustedOf share.1 row.1 = true
  unpaid : ∀ share ∈ shares, ∀ row ∈ rows, trustedOf share.1 row.1 = true → row.2 = 0

theorem trustedOf_ruleCode {e : SuspicionEventRow} (h : trustedOf rule e = true) :
    e.ruleCode = rule := by
  rw [trustedOf, Bool.and_eq_true, decide_eq_true_eq] at h
  exact h.1

/-- One share is paid; the rows of the others stay without points. -/
theorem Sharable.mark {share : String × ℤ} (h : Sharable (share :: shares) rows) (v : ℤ) :
    Sharable shares
      (mark (fun row => trustedOf share.1 row.1) (fun row => (row.1, v)) rows) where
  distinct := (List.nodup_cons.mp h.distinct).2
  positive := fun other hother => h.positive other (List.mem_cons_of_mem share hother)
  present := by
    intro other hother
    obtain ⟨row, hrow, htrusted⟩ := h.present other (List.mem_cons_of_mem share hother)
    have hfst : row.1 ∈ (Marking.mark (fun row => trustedOf share.1 row.1)
        (fun row => (row.1, v)) rows).map Prod.fst := by
      rw [map_fst_mark]
      exact List.mem_map_of_mem hrow
    obtain ⟨row', hrow', heq⟩ := List.mem_map.mp hfst
    exact ⟨row', hrow', heq ▸ htrusted⟩
  unpaid := by
    intro other hother row hrow htrusted
    rcases mem_mark hrow with hold | ⟨row', -, hshare, rfl⟩
    · exact h.unpaid other (List.mem_cons_of_mem share hother) row hold htrusted
    · have hsame : share.1 = other.1 :=
        (trustedOf_ruleCode hshare).symm.trans (trustedOf_ruleCode htrusted)
      exact absurd (hsame ▸ List.mem_map_of_mem hother) (List.nodup_cons.mp h.distinct).1

theorem Sharable.tail {share : String × ℤ} (h : Sharable (share :: shares) rows) :
    Sharable shares rows where
  distinct := (List.nodup_cons.mp h.distinct).2
  positive := fun other hother => h.positive other (List.mem_cons_of_mem share hother)
  present := fun other hother => h.present other (List.mem_cons_of_mem share hother)
  unpaid := fun other hother => h.unpaid other (List.mem_cons_of_mem share hother)

/-- The shares are paid out of what remains. -/
theorem sum_allot (h : Sharable shares rows) (hremaining : 0 ≤ remaining) :
    ((allot remaining shares rows).map Prod.snd).sum =
      (rows.map Prod.snd).sum + min remaining (shares.map Prod.snd).sum := by
  induction shares generalizing remaining rows with
  | nil => simpa [allot] using hremaining
  | cons share shares ih =>
      have hpositive := h.positive share List.mem_cons_self
      have hrest : 0 ≤ (shares.map Prod.snd).sum := List.sum_nonneg fun x hx => by
        obtain ⟨other, hother, rfl⟩ := List.mem_map.mp hx
        exact (h.positive other (List.mem_cons_of_mem share hother)).le
      rw [allot, List.map_cons, List.sum_cons]
      split
      next hzero =>
        rw [ih h.tail (by omega)]
        omega
      next hne =>
        have hpaid := sum_map_mark (g := Prod.snd) (d := min share.2 remaining)
          (f := fun row : SuspicionEventRow × ℤ => (row.1, min share.2 remaining))
          (h.present share List.mem_cons_self) fun row hrow htrusted => by
            rw [h.unpaid share List.mem_cons_self row hrow htrusted, zero_add]
        rw [ih (h.mark _) (by omega), hpaid]
        omega

/-- What holds of the rows holds of them with their shares. -/
theorem forall_allot {P : SuspicionEventRow × ℤ → Prop} (hrows : ∀ row ∈ rows, P row)
    (hpaid : ∀ share ∈ shares, ∀ e v, trustedOf share.1 e = true → 0 ≤ v → P (e, v))
    (hshares : ∀ share ∈ shares, 0 < share.2) (hremaining : 0 ≤ remaining) :
    ∀ row ∈ allot remaining shares rows, P row := by
  induction shares generalizing remaining rows with
  | nil => exact hrows
  | cons share shares ih =>
      have hpositive := hshares share List.mem_cons_self
      rw [allot]
      refine ih ?_ (fun other hother => hpaid other (List.mem_cons_of_mem share hother))
        (fun other hother => hshares other (List.mem_cons_of_mem share hother)) (by omega)
      split
      · exact hrows
      · intro row hrow
        rcases mem_mark hrow with hold | ⟨row', -, htrusted, rfl⟩
        · exact hrows row hold
        · exact hpaid share List.mem_cons_self row'.1 _ htrusted (by omega)

/-- A filter of rows which does not tell the trusted rows of a candidate apart. -/
theorem filter_allot {q : SuspicionEventRow → Bool}
    (h : ∀ share ∈ shares, ∀ e e', trustedOf share.1 e = true → trustedOf share.1 e' = true →
      q e = q e') : (allot remaining shares rows).filter (fun row => q row.1) =
        allot remaining shares (rows.filter fun row => q row.1) := by
  induction shares generalizing remaining rows with
  | nil => rfl
  | cons share shares ih =>
      rw [allot, allot, ih fun other hother => h other (List.mem_cons_of_mem share hother)]
      congr 1
      split
      · rfl
      · exact filter_mark (f := fun row => (row.1, min share.2 remaining)) (fun _ => rfl)
          (fun row row' => h share List.mem_cons_self row.1 row'.1) rows

theorem allot_eq_self (h : ∀ share ∈ shares, ∀ row ∈ rows, trustedOf share.1 row.1 = false) :
    allot remaining shares rows = rows := by
  induction shares generalizing remaining with
  | nil => rfl
  | cons share shares ih =>
      rw [allot, mark_eq_self (h share List.mem_cons_self), ite_self]
      exact ih fun other hother => h other (List.mem_cons_of_mem share hother)

theorem ledgerShares_perm (events : List SuspicionEventRow) : (ledgerShares events).Perm
    ((candidateRules events (ruleCodes events)).map fun rule => (rule, unitOf rule)) := by
  refine ((List.perm_insertionSort ..).map _).trans (List.Perm.of_eq ?_)
  rw [List.map_map]
  rfl

theorem exists_of_mem_ledgerShares {share : String × ℤ} (h : share ∈ ledgerShares events) :
    share.1 ∈ ruleCodes events ∧ corroborates events share.1 = true ∧ 0 < share.2 := by
  rw [(ledgerShares_perm events).mem_iff] at h
  obtain ⟨rule, hrule, rfl⟩ := List.mem_map.mp h
  obtain ⟨hmem, hunit⟩ := List.mem_filter.mp hrule
  obtain ⟨hcode, hcorroborates⟩ := List.mem_filter.mp hmem
  exact ⟨hcode, hcorroborates, of_decide_eq_true hunit⟩

theorem tierOf_of_corroborates (h : corroborates events rule = true) :
    tierOf rule = .context := by
  rw [corroborates, Bool.and_eq_true, decide_eq_true_eq] at h
  exact h.1

theorem exists_of_mem_assigned {row : SuspicionEventRow × ℤ}
    (h : row ∈ assigned weight events before rules) :
    ∃ (before' : List String) (rule : String), row ∈ ruleAssigned weight events before' rule := by
  induction rules generalizing before with
  | nil => cases h
  | cons rule rules ih =>
      rw [assigned, List.mem_append] at h
      rcases h with hhere | hlater
      · exact ⟨before, rule, hhere⟩
      · exact ih hlater

theorem ruleCode_of_mem_ruleAssigned {row : SuspicionEventRow × ℤ}
    (h : row ∈ ruleAssigned weight events before rule) : row.1.ruleCode = rule := by
  have hmem : row.1 ∈ (ruleAssigned weight events before rule).map Prod.fst :=
    List.mem_map_of_mem h
  rw [map_fst_ruleAssigned] at hmem
  exact ruleCode_of_mem_orderedGroup hmem

theorem ruleAssigned_context (h : tierOf rule = .context) : ∀ row ∈
    ruleAssigned weight events before rule, row.2 = 0 := by
  intro row hrow
  rw [ruleAssigned, h, RuleScan.assign_context] at hrow
  obtain ⟨e, -, rfl⟩ := List.mem_map.mp hrow
  rfl

theorem ruleAssigned_nonneg : ∀ row ∈ ruleAssigned weight events before rule, 0 ≤ row.2 := by
  intro row hrow
  by_cases hcontext : tierOf rule = .context
  · rw [ruleAssigned_context hcontext row hrow]
  · exact RuleScan.assign_nonneg hcontext ruleStart_inRange row hrow

theorem ruleAssigned_untrusted : ∀ row ∈ ruleAssigned weight events before rule,
    row.1.trusted = false → row.2 = 0 := by
  intro row hrow huntrusted
  by_cases hcontext : tierOf rule = .context
  · exact ruleAssigned_context hcontext row hrow
  · exact RuleScan.assign_untrusted hcontext ruleStart_inRange row hrow huntrusted

theorem sharable_ledgerShares :
    Sharable (ledgerShares events) (assigned weight events [] (ruleCodes events)) where
  distinct := by
    have hperm := (ledgerShares_perm events).map Prod.fst
    rw [List.map_map] at hperm
    refine hperm.nodup_iff.mpr ?_
    have hid : (Prod.fst ∘ fun rule : String => (rule, unitOf rule)) = id := rfl
    rw [hid, List.map_id]
    exact (nodup_ruleCodes.filter _).filter _
  positive := fun share hshare => (exists_of_mem_ledgerShares hshare).2.2
  present := by
    intro share hshare
    obtain ⟨hcode, hcorroborates, -⟩ := exists_of_mem_ledgerShares hshare
    obtain ⟨e, he, htrusted⟩ := exists_trustedOf hcorroborates
    have hmem : e ∈ (assigned weight events [] (ruleCodes events)).map Prod.fst := by
      rw [map_fst_assigned]
      exact List.mem_flatMap.mpr ⟨share.1, hcode, he⟩
    obtain ⟨row, hrow, rfl⟩ := List.mem_map.mp hmem
    exact ⟨row, hrow, htrusted⟩
  unpaid := by
    intro share hshare row hrow htrusted
    obtain ⟨before, rule, hmem⟩ := exists_of_mem_assigned hrow
    have hrule : rule = share.1 :=
      (ruleCode_of_mem_ruleAssigned hmem).symm.trans (trustedOf_ruleCode htrusted)
    have hcontext := tierOf_of_corroborates (exists_of_mem_ledgerShares hshare).2.1
    exact ruleAssigned_context (hrule ▸ hcontext) row hmem

theorem half_nonneg : 0 ≤ tierFigure weight events .hard / 2 :=
  Int.ediv_nonneg tierFigure_nonneg (by decide)

theorem spent_nil : spent weight events [] tier = 0 := by
  have hnil : spent weight events [] tier = min (tierCeiling tier) 0 := rfl
  rw [hnil]
  cases tier <;> decide

/-- The points of all rows are what the tiers and the corroboration add. -/
theorem sum_ascribed : ((ascribed weight events).map Prod.snd).sum =
    tierFigure weight events .hard + tierFigure weight events .strong +
      tierFigure weight events .behavioral + (computeBreakdown events weight).corroboration := by
  have hunits : ((ledgerShares events).map Prod.snd).sum = contextUnits events := by
    rw [((ledgerShares_perm events).map Prod.snd).sum_eq, List.map_map]
    rfl
  rw [ascribed, sum_allot sharable_ledgerShares half_nonneg, hunits,
    ← computeBreakdown_corroboration, sum_assigned, spent_nil, spent_nil, spent_nil, sub_zero,
    sub_zero, sub_zero]
  rfl

theorem ascribed_nonneg : ∀ row ∈ ascribed weight events, 0 ≤ row.2 := by
  refine forall_allot ?_ (fun _ _ _ _ _ hv => hv)
    (fun share hshare => (exists_of_mem_ledgerShares hshare).2.2) half_nonneg
  intro row hrow
  obtain ⟨before, rule, hmem⟩ := exists_of_mem_assigned hrow
  exact ruleAssigned_nonneg row hmem

theorem ascribed_untrusted : ∀ row ∈ ascribed weight events, row.1.trusted = false → row.2 = 0 := by
  refine forall_allot ?_ ?_ (fun share hshare => (exists_of_mem_ledgerShares hshare).2.2)
    half_nonneg
  · intro row hrow
    obtain ⟨before, rule, hmem⟩ := exists_of_mem_assigned hrow
    exact ruleAssigned_untrusted row hmem
  · intro share _ e v htrusted _ huntrusted
    simp [trustedOf, huntrusted] at htrusted

/-- The rules first seen before a rule. -/
def earlier (events : List SuspicionEventRow) (rule : String) : List String :=
  (ruleCodes events).takeWhile (· ≠ rule)

/-- The rows of a rule stand together. -/
theorem filter_assigned (hnodup : rules.Nodup) :
    (assigned weight events before rules).filter (fun row => row.1.ruleCode = rule) =
      if rule ∈ rules then
        ruleAssigned weight events (before ++ rules.takeWhile (· ≠ rule)) rule else [] := by
  induction rules generalizing before with
  | nil => rfl
  | cons own rules ih =>
      obtain ⟨hown, hrest⟩ := List.nodup_cons.mp hnodup
      rw [assigned, List.filter_append, ih hrest]
      by_cases heq : own = rule
      · have hself : (ruleAssigned weight events before own).filter
            (fun row => row.1.ruleCode = rule) = ruleAssigned weight events before own := by
          rw [List.filter_eq_self]
          intro row hrow
          simp [ruleCode_of_mem_ruleAssigned hrow, heq]
        rw [hself, if_neg (heq ▸ hown), List.append_nil, heq, if_pos List.mem_cons_self]
        simp
      · have hnone : (ruleAssigned weight events before own).filter
            (fun row => row.1.ruleCode = rule) = [] := by
          rw [List.filter_eq_nil_iff]
          intro row hrow
          simp [ruleCode_of_mem_ruleAssigned hrow, heq]
        rw [hnone, List.nil_append]
        simp [heq, Ne.symm heq]

theorem filter_trustedOf_assigned :
    (assigned weight events [] (ruleCodes events)).filter (fun row => trustedOf rule row.1) =
      RuleScan.assign (tierOf rule) (capOf rule) weight
        (ruleStart weight events (earlier events rule)) (readRule events rule) := by
  have hsplit : (assigned weight events [] (ruleCodes events)).filter
      (fun row => trustedOf rule row.1) =
      ((assigned weight events [] (ruleCodes events)).filter
        fun row => row.1.ruleCode = rule).filter fun row => row.1.trusted := by
    rw [List.filter_filter]
    exact List.filter_congr fun row _ => Bool.and_comm ..
  rw [hsplit, filter_assigned nodup_ruleCodes, List.nil_append]
  by_cases hmem : rule ∈ ruleCodes events
  · rw [if_pos hmem]
    by_cases hcontext : tierOf rule = .context
    · rw [ruleAssigned, hcontext, RuleScan.assign_context, RuleScan.assign_context, readRule,
        List.filter_map]
      rfl
    · exact RuleScan.filter_assign hcontext ruleStart_inRange
  · have hnone : events.filter (fun e => e.ruleCode = rule) = [] := by
      rw [List.filter_eq_nil_iff]
      intro e he heq
      exact hmem (Newest.mem_map_firsts.mpr
        (List.mem_map.mpr ⟨e, he, of_decide_eq_true heq⟩))
    rw [if_neg hmem, readRule, orderedGroup, hnone]
    rfl

/-- At most the cap of a rule which is not of context counts. -/
theorem countP_ascribed (htier : tierOf rule ≠ .context) :
    (ascribed weight events).countP (fun row => row.1.ruleCode = rule ∧ 0 < row.2) ≤
      capOf rule := by
  have hother : ∀ share ∈ ledgerShares events, ∀ e, trustedOf share.1 e = true →
      decide (e.ruleCode = rule) = false := by
    intro share hshare e htrusted
    have hcontext := tierOf_of_corroborates (exists_of_mem_ledgerShares hshare).2.1
    rw [decide_eq_false_iff_not, trustedOf_ruleCode htrusted]
    exact fun heq => htier (heq ▸ hcontext)
  have hrows : (ascribed weight events).filter (fun row => row.1.ruleCode = rule) =
      (assigned weight events [] (ruleCodes events)).filter fun row => row.1.ruleCode = rule := by
    rw [ascribed, filter_allot (q := fun e => e.ruleCode = rule) fun share hshare e e' he he' =>
      (hother share hshare e he).trans (hother share hshare e' he').symm]
    refine allot_eq_self fun share hshare row hrow => ?_
    by_contra htrusted
    have hfalse := hother share hshare row.1 (Bool.not_eq_false _ ▸ htrusted)
    rw [(List.mem_filter.mp hrow).2] at hfalse
    cases hfalse
  have hcount : (ascribed weight events).countP (fun row => row.1.ruleCode = rule ∧ 0 < row.2) =
      ((ascribed weight events).filter fun row => row.1.ruleCode = rule).countP
        fun row => 0 < row.2 := by
    rw [List.countP_filter]
    refine List.countP_congr fun row _ => ?_
    simp [and_comm]
  rw [hcount, hrows, filter_assigned nodup_ruleCodes]
  split
  · exact RuleScan.countP_assign htier ruleStart_inRange
  · exact Nat.zero_le _

end Conservation

section Deletion

variable {events events' : List SuspicionEventRow} {weight : String → ℤ} {rule : String}
  {tier : SuspicionTier}

theorem readRule_eq (events : List SuspicionEventRow) (rule : String) : readRule events rule =
    Newest.sorted (·.time) ((events.filter (·.trusted)).filter fun e => e.ruleCode = rule) := by
  rw [readRule, orderedGroup, Newest.filter_sorted, List.filter_comm]

theorem readRule_congr (h : events'.filter (·.trusted) = events.filter (·.trusted)) :
    readRule events' = readRule events := by
  funext rule
  rw [readRule_eq, readRule_eq, h]

theorem ruleSum_congr (h : events'.filter (·.trusted) = events.filter (·.trusted)) :
    ruleSum weight events' = ruleSum weight events := by
  funext rule
  rw [ruleSum, ruleSum, readRule_congr h]

/-- A rule with a row which may score. -/
def hasTrusted (events : List SuspicionEventRow) (rule : String) : Bool :=
  (events.filter (·.trusted)).any fun e => e.ruleCode = rule

theorem hasTrusted_congr (h : events'.filter (·.trusted) = events.filter (·.trusted)) :
    hasTrusted events' = hasTrusted events := by
  funext rule
  rw [hasTrusted, hasTrusted, h]

theorem corroborates_eq_hasTrusted :
    corroborates events rule = (decide (tierOf rule = .context) && hasTrusted events rule) := by
  rw [corroborates, hasTrusted, List.any_filter]
  congr 2
  funext e
  exact Bool.and_comm ..

theorem mem_ruleCodes_of_hasTrusted (h : hasTrusted events rule = true) :
    rule ∈ ruleCodes events := by
  obtain ⟨e, he, hrule⟩ := List.any_eq_true.mp h
  exact Newest.mem_map_firsts.mpr
    (List.mem_map.mpr ⟨e, List.mem_of_mem_filter he, of_decide_eq_true hrule⟩)

theorem ruleSum_of_not_hasTrusted (h : hasTrusted events rule = false) :
    ruleSum weight events rule = 0 := by
  have hnone : (events.filter (·.trusted)).filter (fun e => e.ruleCode = rule) = [] := by
    rw [List.filter_eq_nil_iff]
    intro e he hrule
    rw [hasTrusted, List.any_eq_false] at h
    exact h e he hrule
  rw [ruleSum, readRule_eq, hnone]
  simp [Newest.sorted, Newest.topSum, Newest.firsts]

/-- Rules without rows which may score add nothing. -/
theorem sum_ruleSum_filter (rules : List String) :
    ((rules.filter (hasTrusted events)).map (ruleSum weight events)).sum =
      (rules.map (ruleSum weight events)).sum := by
  induction rules with
  | nil => rfl
  | cons rule rules ih =>
      cases htrusted : hasTrusted events rule with
      | true => simp [htrusted, ih]
      | false => simp [htrusted, ih, ruleSum_of_not_hasTrusted htrusted]

/-- Two lists of rules which have the same rules with rows which may score. -/
theorem sum_ruleSum_congr {rules rules' : List String} (hnodup : rules.Nodup)
    (hnodup' : rules'.Nodup) (h : events'.filter (·.trusted) = events.filter (·.trusted))
    (hrules : ∀ rule, hasTrusted events rule = true → (rule ∈ rules' ↔ rule ∈ rules)) :
    (rules'.map (ruleSum weight events')).sum = (rules.map (ruleSum weight events)).sum := by
  have hperm : (rules'.filter (hasTrusted events)).Perm (rules.filter (hasTrusted events)) := by
    rw [List.perm_ext_iff_of_nodup (hnodup'.filter _) (hnodup.filter _)]
    intro rule
    rw [List.mem_filter, List.mem_filter]
    exact and_congr_left (hrules rule)
  calc (rules'.map (ruleSum weight events')).sum
      = (rules'.map (ruleSum weight events)).sum := by rw [ruleSum_congr h]
    _ = ((rules'.filter (hasTrusted events)).map (ruleSum weight events)).sum :=
        (sum_ruleSum_filter rules').symm
    _ = ((rules.filter (hasTrusted events)).map (ruleSum weight events)).sum :=
        (hperm.map _).sum_eq
    _ = (rules.map (ruleSum weight events)).sum := sum_ruleSum_filter rules

/-- What the rules of a tier add before the ceiling. -/
def tierSum (weight : String → ℤ) (events : List SuspicionEventRow) (tier : SuspicionTier) : ℤ :=
  (((ruleCodes events).filter fun rule => tierOf rule = tier).map (ruleSum weight events)).sum

theorem tierSum_congr (h : events'.filter (·.trusted) = events.filter (·.trusted)) :
    tierSum weight events' tier = tierSum weight events tier := by
  refine sum_ruleSum_congr (nodup_ruleCodes.filter _) (nodup_ruleCodes.filter _) h ?_
  intro rule htrusted
  rw [List.mem_filter, List.mem_filter]
  refine and_congr_left fun _ => iff_of_true ?_ (mem_ruleCodes_of_hasTrusted htrusted)
  exact mem_ruleCodes_of_hasTrusted (hasTrusted_congr h ▸ htrusted)

theorem mem_filter_corroborates (events : List SuspicionEventRow) (rule : String) :
    rule ∈ (ruleCodes events).filter (corroborates events) ↔ corroborates events rule = true := by
  rw [List.mem_filter, and_iff_right_iff_imp]
  intro hcorroborates
  rw [corroborates_eq_hasTrusted, Bool.and_eq_true] at hcorroborates
  exact mem_ruleCodes_of_hasTrusted hcorroborates.2

theorem corroborates_congr (h : events'.filter (·.trusted) = events.filter (·.trusted)) :
    corroborates events' = corroborates events := by
  funext rule
  rw [corroborates_eq_hasTrusted, corroborates_eq_hasTrusted, hasTrusted_congr h]

theorem filter_corroborates_perm (h : events'.filter (·.trusted) = events.filter (·.trusted)) :
    ((ruleCodes events').filter (corroborates events')).Perm
      ((ruleCodes events).filter (corroborates events)) := by
  rw [List.perm_ext_iff_of_nodup (nodup_ruleCodes.filter _) (nodup_ruleCodes.filter _)]
  intro rule
  rw [mem_filter_corroborates, mem_filter_corroborates, corroborates_congr h]

theorem sameFigures_of_trusted (h : events'.filter (·.trusted) = events.filter (·.trusted)) :
    SameFigures (computeBreakdown events' weight) (computeBreakdown events weight) := by
  have hperm := filter_corroborates_perm h
  refine sameFigures_of_tiers (fun tier _ => ?_) ?_ ?_
  · exact congrArg (min _) (tierSum_congr h)
  · exact ((hperm.filter _).map unitOf).sum_eq
  · exact ⟨fun hnil => List.perm_nil.mp (hnil ▸ hperm.symm),
      fun hnil => List.perm_nil.mp (hnil ▸ hperm)⟩

/-- What the order of the candidates sees of one of them, and what it may add. -/
def candidateKey (c : ContextCandidate) : ℤ × String × ℤ := (c.time, c.ruleCode, c.unit)

def candidateKeyLe (a b : ℤ × String × ℤ) : Prop :=
  b.1 < a.1 ∨ a.1 = b.1 ∧ a.2.1 ≤ b.2.1

instance : DecidableRel candidateKeyLe := fun _ _ => inferInstanceAs (Decidable (_ ∨ _))

instance : Std.Total candidateKeyLe := ⟨fun a b => by
  rcases lt_trichotomy a.1 b.1 with hlt | heq | hgt
  · exact .inr (.inl hlt)
  · rcases le_total a.2.1 b.2.1 with hle | hle
    · exact .inl (.inr ⟨heq, hle⟩)
    · exact .inr (.inr ⟨heq.symm, hle⟩)
  · exact .inl (.inl hgt)⟩

instance : IsTrans (ℤ × String × ℤ) candidateKeyLe := ⟨fun a b c hab hbc => by
  rcases hab with hab | ⟨hab, hle⟩
  · rcases hbc with hbc | ⟨hbc, -⟩
    · exact .inl (hbc.trans hab)
    · exact .inl (hbc ▸ hab)
  · rcases hbc with hbc | ⟨hbc, hle'⟩
    · exact .inl (hab ▸ hbc)
    · exact .inr ⟨hab.trans hbc, hle.trans hle'⟩⟩

/-- The key of the candidate of a rule. -/
def ruleKey (events : List SuspicionEventRow) (rule : String) : ℤ × String × ℤ :=
  ((readRule events rule).head?.elim 0 (·.time), rule, unitOf rule)

theorem ledgerShares_eq (events : List SuspicionEventRow) : ledgerShares events =
    (((candidateRules events (ruleCodes events)).map (ruleKey events)).insertionSort
      candidateKeyLe).map Prod.snd := by
  have hkeys : (candidateRules events (ruleCodes events)).map (ruleKey events) =
      ((candidateRules events (ruleCodes events)).map
        (candidateOf events (ruleCodes events))).map candidateKey := by
    rw [List.map_map]
    rfl
  rw [hkeys, ← List.map_insertionSort (r := candidateLe) candidateKeyLe candidateKey _
    fun _ _ _ _ => Iff.rfl, List.map_map]
  rfl

/-- The order of the shares does not depend on the order of the rules. -/
theorem ledgerShares_congr (h : events'.filter (·.trusted) = events.filter (·.trusted)) :
    ledgerShares events' = ledgerShares events := by
  have hkey : ruleKey events' = ruleKey events := by
    funext rule
    rw [ruleKey, ruleKey, readRule_congr h]
  have hperm : ((candidateRules events' (ruleCodes events')).map (ruleKey events)).Perm
      ((candidateRules events (ruleCodes events)).map (ruleKey events)) :=
    ((filter_corroborates_perm h).filter _).map _
  rw [ledgerShares_eq, ledgerShares_eq, hkey]
  congr 1
  have hsort := List.perm_insertionSort candidateKeyLe
    ((candidateRules events (ruleCodes events)).map (ruleKey events))
  refine Keyed.insertionSort_eq_of_perm (hperm.trans hsort.symm)
    (List.pairwise_insertionSort _ _) ?_
  intro a ha b hb hab hba
  obtain ⟨rule, -, rfl⟩ := List.mem_map.mp (hsort.mem_iff.mp ha)
  obtain ⟨rule', -, rfl⟩ := List.mem_map.mp (hsort.mem_iff.mp hb)
  have hrule : rule = rule' := by
    rcases hab with hlt | ⟨heq, hle⟩
    · rcases hba with hlt' | ⟨heq', -⟩
      · exact absurd hlt hlt'.asymm
      · exact absurd heq' hlt.ne
    · rcases hba with hlt' | ⟨-, hle'⟩
      · exact absurd heq hlt'.ne
      · exact le_antisymm hle hle'
  rw [hrule]

theorem sum_filter_ruleSum_le (weight : String → ℤ) (h : rule ∈ ruleCodes events) :
    (((earlier events rule).filter fun other => tierOf other = tierOf rule).map
      (ruleSum weight events)).sum + ruleSum weight events rule ≤
      tierSum weight events (tierOf rule) := by
  have hsplit : ∀ l : List String, rule ∈ l →
      ∃ r, l = l.takeWhile (· ≠ rule) ++ rule :: r := by
    intro l hl
    induction l with
    | nil => cases hl
    | cons other l ih =>
        by_cases heq : other = rule
        · exact ⟨l, by simp [heq]⟩
        · obtain ⟨r, hr⟩ := ih (List.mem_of_ne_of_mem (Ne.symm heq) hl)
          exact ⟨r, by rw [List.takeWhile_cons_of_pos (by simpa using heq), List.cons_append, ← hr]⟩
  obtain ⟨r, hr⟩ := hsplit _ h
  have hnonneg : 0 ≤ ((r.filter fun other => tierOf other = tierOf rule).map
      (ruleSum weight events)).sum := sum_ruleSum_nonneg _
  have hcodes : ruleCodes events = earlier events rule ++ rule :: r := hr
  rw [tierSum, hcodes, List.filter_append, List.map_append, List.sum_append,
    List.filter_cons_of_pos (by simp), List.map_cons, List.sum_cons]
  omega

theorem demand_readRule (before : List String) :
    (ruleStart weight events before).demand (capOf rule) weight (readRule events rule) =
      ruleSum weight events rule := by
  have hself : (readRule events rule).filter (·.trusted) = readRule events rule := by
    rw [readRule, List.filter_filter]
    simp
  rw [RuleScan.demand, ruleStart, pending_start, Nat.sub_zero, hself]
  rfl

/-- A tier with room for all its rules has room for every one of them. -/
theorem room_of_tierSum (h : tierSum weight events (tierOf rule) ≤ tierCeiling (tierOf rule)) :
    spent weight events (earlier events rule) (tierOf rule) + ruleSum weight events rule ≤
      tierCeiling (tierOf rule) := by
  cases htrusted : hasTrusted events rule with
  | false =>
      rw [ruleSum_of_not_hasTrusted htrusted, add_zero]
      exact spent_inRange.2
  | true =>
      have hsum := sum_filter_ruleSum_le weight (mem_ruleCodes_of_hasTrusted htrusted)
      have hspent : spent weight events (earlier events rule) (tierOf rule) ≤ _ := min_le_right ..
      omega

/-- The points of a rule do not hang on rows under quarantine: no other rule takes them, or all
rules of its tier fit under the ceiling, or the same ones of them are read before it. -/
def Undisturbed (weight : String → ℤ) (events events' : List SuspicionEventRow)
    (rule : String) : Prop :=
  tierOf rule = .context ∨ tierOf rule = .hard ∨
    tierSum weight events (tierOf rule) ≤ tierCeiling (tierOf rule) ∨
      ∀ other, tierOf other = tierOf rule → hasTrusted events other = true →
        (other ∈ earlier events' rule ↔ other ∈ earlier events rule)

theorem filter_ascribed : (ascribed weight events).filter (fun row => trustedOf rule row.1) =
    allot (tierFigure weight events .hard / 2) (ledgerShares events)
      (RuleScan.assign (tierOf rule) (capOf rule) weight
        (ruleStart weight events (earlier events rule)) (readRule events rule)) := by
  rw [ascribed, filter_allot, filter_trustedOf_assigned]
  intro share _ e e' he he'
  have hcode := (trustedOf_ruleCode he).trans (trustedOf_ruleCode he').symm
  have htrusted : e.trusted = e'.trusted := by
    rw [trustedOf, Bool.and_eq_true] at he he'
    rw [he.2, he'.2]
  rw [trustedOf, trustedOf, hcode, htrusted]

/-- The rules get the points of their rows in the same state. -/
theorem assign_eq_of_undisturbed (h : events'.filter (·.trusted) = events.filter (·.trusted))
    (hhard : tierSum weight events .hard ≤ tierCeiling .hard)
    (hundisturbed : Undisturbed weight events events' rule) :
    RuleScan.assign (tierOf rule) (capOf rule) weight
        (ruleStart weight events' (earlier events' rule)) (readRule events rule) =
      RuleScan.assign (tierOf rule) (capOf rule) weight
        (ruleStart weight events (earlier events rule)) (readRule events rule) := by
  by_cases hcontext : tierOf rule = .context
  · rw [hcontext, RuleScan.assign_context, RuleScan.assign_context]
  · refine RuleScan.assign_congr hcontext
      ⟨ruleStart_inRange, ruleStart_inRange, fun _ => rfl, rfl, ?_⟩
    have hroom : tierSum weight events (tierOf rule) ≤ tierCeiling (tierOf rule) →
        spent weight events' (earlier events' rule) (tierOf rule) +
            (ruleStart weight events' (earlier events' rule)).demand (capOf rule) weight
              (readRule events rule) ≤ tierCeiling (tierOf rule) ∧
          spent weight events (earlier events rule) (tierOf rule) +
            (ruleStart weight events (earlier events rule)).demand (capOf rule) weight
              (readRule events rule) ≤ tierCeiling (tierOf rule) := by
      intro hfit
      have hfit' : tierSum weight events' (tierOf rule) ≤ tierCeiling (tierOf rule) :=
        (tierSum_congr h).trans_le hfit
      rw [demand_readRule, ← readRule_congr h, demand_readRule]
      exact ⟨room_of_tierSum hfit', room_of_tierSum hfit⟩
    rcases hundisturbed with hno | htier | hfit | hsame
    · exact absurd hno hcontext
    · exact .inr (hroom (by rwa [htier]))
    · exact .inr (hroom hfit)
    · refine .inl (congrArg (min _) (sum_ruleSum_congr ?_ ?_ h ?_))
      · exact (nodup_ruleCodes.sublist (List.takeWhile_sublist _)).filter _
      · exact (nodup_ruleCodes.sublist (List.takeWhile_sublist _)).filter _
      · intro other htrusted
        rw [List.mem_filter, List.mem_filter]
        exact and_congr_left fun htier => hsame other (of_decide_eq_true htier) htrusted

end Deletion

section Law

open Rsctf.Suspicion.Ledger

variable {events events' : List SuspicionEventRow} {weight : String → ℤ}

/-- The weights and the deltas are `i32`. -/
structure FitsI32 (weight : String → ℤ) (events : List SuspicionEventRow) : Prop where
  weights : ∀ code, -i32Max - 1 ≤ weight code ∧ weight code ≤ i32Max
  deltas : ∀ e ∈ events, ∀ delta, e.scoreDelta = some delta →
    -i32Max - 1 ≤ delta ∧ delta ≤ i32Max

/-- Every row is shown once with its points, which add up to the total within the limits. -/
structure PointsConserved (weight : String → ℤ) (events : List SuspicionEventRow) : Prop where
  each_once : ((ascribed weight events).map Prod.fst).Perm events
  shown : (computeBreakdown events weight).events = (ascribed weight events).map (outcome weight)
  total_eq : (computeBreakdown events weight).total = (computeBreakdown events weight).hard +
    (computeBreakdown events weight).strong + (computeBreakdown events weight).behavioral +
      (computeBreakdown events weight).corroboration
  sum_eq : ((computeBreakdown events weight).events.map (·.appliedDelta)).sum =
    (computeBreakdown events weight).total
  nonneg : ∀ e ∈ (computeBreakdown events weight).events, 0 ≤ e.appliedDelta
  counted_le : ∀ rule, tierOf rule ≠ .context → (computeBreakdown events weight).events.countP
    (fun e => e.ruleCode = rule ∧ e.counted = true) ≤ capOf rule
  hard_le : (computeBreakdown events weight).hard ≤ tierCeiling .hard
  strong_le : (computeBreakdown events weight).strong ≤ tierCeiling .strong
  behavioral_le : (computeBreakdown events weight).behavioral ≤ tierCeiling .behavioral
  corroboration_le :
    (computeBreakdown events weight).corroboration ≤ (computeBreakdown events weight).hard / 2

/-- Without rows under quarantine the figures are the same, and so are the points of the
others wherever the rule is undisturbed. -/
structure QuarantineInert (weight : String → ℤ) (events events' : List SuspicionEventRow) :
    Prop where
  figures : SameFigures (computeBreakdown events' weight) (computeBreakdown events weight)
  untrusted : ∀ row ∈ ascribed weight events ++ ascribed weight events',
    row.1.trusted = false → row.2 = 0
  rows : ∀ rule, Undisturbed weight events events' rule →
    (ascribed weight events').filter (fun row => trustedOf rule row.1) =
      (ascribed weight events).filter fun row => trustedOf rule row.1

theorem FitsI32.charge_le (h : FitsI32 weight events) :
    ∀ e ∈ events, e.charge weight ≤ i32Max := by
  intro e he
  refine max_le ?_ (by decide)
  cases hdelta : e.scoreDelta with
  | none => exact (h.weights _).2
  | some delta => exact (h.deltas e he delta hdelta).2

theorem FitsI32.tierSum_hard (h : FitsI32 weight events) :
    tierSum weight events .hard ≤ 38 * i32Max :=
  hardSum_le (by decide) h.charge_le

theorem computeBreakdown_total_eq (h : FitsI32 weight events) :
    (computeBreakdown events weight).total = (computeBreakdown events weight).hard +
      (computeBreakdown events weight).strong + (computeBreakdown events weight).behavioral +
        (computeBreakdown events weight).corroboration := by
  have hhard : tierFigure weight events .hard ≤ 38 * i32Max :=
    (min_le_right ..).trans h.tierSum_hard
  have hnonneg : 0 ≤ tierFigure weight events .hard := tierFigure_nonneg
  have hstrong : 0 ≤ tierFigure weight events .strong := tierFigure_nonneg
  have hstrong_le : tierFigure weight events .strong ≤ 60 := min_le_left ..
  have hbehavioral : 0 ≤ tierFigure weight events .behavioral := tierFigure_nonneg
  have hbehavioral_le : tierFigure weight events .behavioral ≤ 25 := min_le_left ..
  have hunits : 0 ≤ contextUnits events := contextUnits_nonneg
  rw [computeBreakdown_total, computeBreakdown_hard, computeBreakdown_strong,
    computeBreakdown_behavioral, computeBreakdown_corroboration]
  unfold totalOf saturatingAdd i64Max
  unfold i32Max at hhard
  omega

theorem points_conserved (h : FitsI32 weight events) : PointsConserved weight events where
  each_once := map_fst_ascribed_perm
  shown := computeBreakdown_events
  total_eq := computeBreakdown_total_eq h
  sum_eq := by
    have hpoints : (computeBreakdown events weight).events.map (·.appliedDelta) =
        (ascribed weight events).map Prod.snd := by
      rw [computeBreakdown_events, List.map_map]
      rfl
    rw [hpoints, sum_ascribed, computeBreakdown_total_eq h, computeBreakdown_hard,
      computeBreakdown_strong, computeBreakdown_behavioral]
  nonneg := by
    intro e he
    rw [computeBreakdown_events] at he
    obtain ⟨row, hrow, rfl⟩ := List.mem_map.mp he
    exact ascribed_nonneg row hrow
  counted_le := by
    intro rule htier
    rw [computeBreakdown_events, List.countP_map]
    refine (List.countP_congr fun row _ => ?_).trans_le (countP_ascribed htier)
    simp only [Function.comp_apply, outcome, decide_eq_true_eq]
  hard_le := computeBreakdown_hard.trans_le (min_le_left ..)
  strong_le := computeBreakdown_strong.trans_le (min_le_left ..)
  behavioral_le := computeBreakdown_behavioral.trans_le (min_le_left ..)
  corroboration_le := by
    rw [computeBreakdown_corroboration, computeBreakdown_hard]
    exact min_le_left ..

theorem quarantine_inert (hfits : FitsI32 weight events)
    (h : events'.filter (·.trusted) = events.filter (·.trusted)) :
    QuarantineInert weight events events' where
  figures := sameFigures_of_trusted h
  untrusted := by
    intro row hrow
    rcases List.mem_append.mp hrow with hrow | hrow
    · exact ascribed_untrusted row hrow
    · exact ascribed_untrusted row hrow
  rows := by
    intro rule hundisturbed
    have hhard : tierSum weight events .hard ≤ tierCeiling .hard :=
      hfits.tierSum_hard.trans (by decide)
    have hfigure : tierFigure weight events' .hard = tierFigure weight events .hard :=
      congrArg (min _) (tierSum_congr h)
    rw [filter_ascribed, filter_ascribed, hfigure, ledgerShares_congr h, readRule_congr h,
      assign_eq_of_undisturbed h hhard hundisturbed]

/-- The points are conserved, and deleting rows under quarantine changes no figure and no
points of an undisturbed rule. -/
theorem points_of_ledger (weight : String → ℤ) (events : List SuspicionEventRow)
    (h : FitsI32 weight events) : PointsConserved weight events ∧
      ∀ events', events'.Sublist events →
        events'.filter (·.trusted) = events.filter (·.trusted) →
        QuarantineInert weight events events' :=
  ⟨points_conserved h, fun _ _ htrusted => quarantine_inert h htrusted⟩

/-- Two rules of strong evidence, the first one seen in a row under quarantine. -/
def disputedRows : List SuspicionEventRow :=
  [⟨"HighWrongRate", "legacy-untrusted:1", "", 30, some 40⟩,
    ⟨"AutomatedPattern", "submission:2", "", 20, some 50⟩,
    ⟨"HighWrongRate", "submission:3", "", 10, some 50⟩]

theorem disputedRows_fits : FitsI32 (fun _ => 0) disputedRows where
  weights := fun _ => by decide
  deltas := by decide

theorem points_of_ledger_disputed :
    QuarantineInert (fun _ => 0) disputedRows disputedRows.tail :=
  (points_of_ledger (fun _ => 0) disputedRows disputedRows_fits).2 disputedRows.tail
    (List.tail_sublist _) (by decide +kernel)

/-- Without the row under quarantine the ceiling falls to the other rule. -/
theorem points_move_without_quarantined :
    disputedRows.tail = disputedRows.filter (·.trusted) ∧
    (computeBreakdown disputedRows fun _ => 0).events.map
      (fun e => (e.ruleCode, e.time, e.appliedDelta)) =
      [("HighWrongRate", 30, 0), ("HighWrongRate", 10, 50), ("AutomatedPattern", 20, 10)] ∧
    (computeBreakdown disputedRows.tail fun _ => 0).events.map
      (fun e => (e.ruleCode, e.time, e.appliedDelta)) =
      [("AutomatedPattern", 20, 50), ("HighWrongRate", 10, 10)] := by
  decide +kernel

end Law

end Suspicion

end Rsctf
