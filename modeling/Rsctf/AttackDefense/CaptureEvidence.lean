import Mathlib.Algebra.Order.Ring.Int
import Rsctf.AttackDefense.Conservation

/-!
# The evidence of one more capture

The evidence row of a service is a sum over the flags of contested fields.  One more attack
changes the term of at most one flag: the flag may begin to count, it is captured once more,
and it is worth less to its other captors.
-/

open Keyed Grouping

namespace Rsctf

namespace AttackDefense

def FlagOutcome.qualifies (outcome : FlagOutcome) : Bool :=
  outcome.flagDelivered && (outcome.exactChecked || 0 < outcome.captureCount)

/-- A flag after one more capture. -/
def FlagOutcome.recaptured (outcome : FlagOutcome) : FlagOutcome :=
  { outcome with captureCount := outcome.captureCount + 1 }

/-- A flag counts as an opportunity in its field for everyone but its owner. -/
def FlagOutcome.opportunity (outcome : FlagOutcome) (participationId : ℤ) (field : ℤ × ℤ) : ℚ :=
  if outcome.qualifies ∧ outcome.fieldKey = field ∧ outcome.flag.victimId ≠ participationId
    then 1 else 0

/-- What a captured flag is worth in its field. -/
def FlagOutcome.reward (outcome : FlagOutcome) (captured : Prop) [Decidable captured]
    (field : ℤ × ℤ) (value : ℚ) : ℚ :=
  if outcome.qualifies ∧ outcome.fieldKey = field ∧ captured then value else 0

/-- What an exactly checked flag counts for its owner. -/
def FlagOutcome.defense (outcome : FlagOutcome) (cell : ℤ × ℤ × ℤ) (value : ℚ) : ℚ :=
  if outcome.qualifies ∧ outcome.exactChecked ∧ outcome.victimKey = cell then value else 0

section Recaptured

variable {outcome : FlagOutcome}

theorem FlagOutcome.qualifies_recaptured (h : 0 ≤ outcome.captureCount) :
    outcome.recaptured.qualifies = outcome.flagDelivered := by
  have hpos : 0 < outcome.captureCount + 1 := by omega
  simp [qualifies, recaptured, hpos]

theorem FlagOutcome.flagDelivered_of_qualifies (h : outcome.qualifies) :
    outcome.flagDelivered := by
  rw [qualifies, Bool.and_eq_true] at h
  exact h.1

theorem FlagOutcome.qualifies_of_captured (h : 1 ≤ outcome.captureCount) :
    outcome.qualifies = outcome.flagDelivered := by
  have hpos : 0 < outcome.captureCount := h
  simp [qualifies, hpos]

theorem FlagOutcome.qualifies_of_exactChecked (h : outcome.exactChecked) :
    outcome.qualifies = outcome.flagDelivered := by
  simp [qualifies, h]

/-- The fraction only falls with a capture. -/
theorem FlagOutcome.rarityFraction_recaptured :
    outcome.recaptured.rarityFraction ≤ outcome.rarityFraction := by
  have hafter : outcome.recaptured.rarityFraction = if 4 ≤ outcome.opponents then
      ((outcome.opponents - (outcome.captureCount + 1) : ℤ) : ℚ) / (outcome.opponents : ℚ)
    else 0 := rfl
  rw [hafter, rarityFraction]
  by_cases hfour : 4 ≤ outcome.opponents
  · have hpos : (0 : ℚ) ≤ outcome.opponents := by exact_mod_cast (by omega : 0 ≤ outcome.opponents)
    rw [if_pos hfour, if_pos hfour]
    refine div_le_div_of_nonneg_right ?_ hpos
    exact_mod_cast (by omega : outcome.opponents - (outcome.captureCount + 1) ≤
      outcome.opponents - outcome.captureCount)
  · rw [if_neg hfour, if_neg hfour]

theorem FlagOutcome.rarityFraction_nonneg (h : outcome.captureCount ≤ outcome.opponents) :
    0 ≤ outcome.rarityFraction := by
  unfold rarityFraction
  split
  · next hfour =>
      refine div_nonneg ?_ ?_
      · exact_mod_cast (by omega : 0 ≤ outcome.opponents - outcome.captureCount)
      · exact_mod_cast (by omega : 0 ≤ outcome.opponents)
  · exact le_rfl

theorem FlagOutcome.opportunity_recaptured (h : 0 ≤ outcome.captureCount) (participationId : ℤ)
    (field : ℤ × ℤ) : outcome.opportunity participationId field ≤
      outcome.recaptured.opportunity participationId field := by
  unfold opportunity
  rw [qualifies_recaptured h]
  split
  · next hcounts => rw [if_pos ⟨flagDelivered_of_qualifies hcounts.1, hcounts.2⟩]
  · split <;> norm_num

theorem FlagOutcome.defense_recaptured (h : 0 ≤ outcome.captureCount) (cell : ℤ × ℤ × ℤ)
    (value : ℚ) : outcome.recaptured.defense cell value = outcome.defense cell value := by
  unfold defense
  rw [qualifies_recaptured h]
  refine if_congr ?_ rfl rfl
  refine and_congr_left fun hexact => ?_
  have hqualifies : outcome.qualifies = outcome.flagDelivered := qualifies_of_exactChecked hexact.1
  rw [hqualifies]

theorem FlagOutcome.reward_congr {p q : Prop} [Decidable p] [Decidable q] (h : p ↔ q)
    (field : ℤ × ℤ) (value : ℚ) : outcome.reward p field value = outcome.reward q field value :=
  if_congr (by rw [h]) rfl rfl

theorem FlagOutcome.reward_mono (p : Prop) [Decidable p] (field : ℤ × ℤ) {x y : ℚ} (h : x ≤ y) :
    outcome.reward p field x ≤ outcome.reward p field y := by
  unfold reward
  split
  · exact h
  · exact le_rfl

/-- A capture by someone else changes no reward but by the value of the flag. -/
theorem FlagOutcome.reward_recaptured (h : 0 ≤ outcome.captureCount) {p : Prop} [Decidable p]
    (hp : p → 1 ≤ outcome.captureCount) (field : ℤ × ℤ) (value : ℚ) :
    outcome.recaptured.reward p field value = outcome.reward p field value := by
  unfold reward
  rw [qualifies_recaptured h]
  refine if_congr ?_ rfl rfl
  refine and_congr_left fun hcaptured => ?_
  have hqualifies : outcome.qualifies = outcome.flagDelivered :=
    qualifies_of_captured (hp hcaptured.2)
  rw [hqualifies]

theorem FlagOutcome.defense_mono (cell : ℤ × ℤ × ℤ) {x y : ℚ} (h : x ≤ y) :
    outcome.defense cell x ≤ outcome.defense cell y := by
  unfold defense
  split
  · exact h
  · exact le_rfl

end Recaptured

namespace AdDatabase

variable (db : AdDatabase) (gameId : ℤ) (range : EvidenceRange)

def contestedFlags : List StableFlag :=
  (db.stableFlags gameId range).filter fun flag =>
    1 < db.teamCount gameId range flag.challengeId

def Captured (flag : StableFlag) (participationId : ℤ) : Prop :=
  (⟨flag.id, participationId⟩ : StableCapture) ∈ db.stableCaptures gameId range

instance (flag : StableFlag) (participationId : ℤ) :
    Decidable (db.Captured gameId range flag participationId) :=
  inferInstanceAs (Decidable (_ ∈ _))

theorem sum_qualifiedFlags (f : FlagOutcome → ℚ) :
    ((db.qualifiedFlags gameId range).map f).sum =
      ((db.contestedFlags gameId range).map fun flag =>
        if (db.flagOutcome gameId range flag).qualifies then f (db.flagOutcome gameId range flag)
        else 0).sum := by
  have hfilter := sum_filter FlagOutcome.qualifies f (db.flagOutcomes gameId range)
  rw [AdTables.qualifiedFlags, show (fun outcome : FlagOutcome => outcome.flagDelivered &&
    (outcome.exactChecked || decide (0 < outcome.captureCount))) = FlagOutcome.qualifies from rfl,
    hfilter, AdTables.flagOutcomes, List.map_map]
  rfl

theorem length_eq_sum {α : Type*} (l : List α) : (l.length : ℚ) = (l.map fun _ => (1 : ℚ)).sum := by
  simp

theorem cast_sum {α : Type*} (f : α → ℤ) (l : List α) :
    ((l.map f).sum : ℚ) = (l.map fun a => (f a : ℚ)).sum := by
  induction l with
  | nil => rfl
  | cons a l ih => rw [List.map_cons, List.sum_cons, Int.cast_add, ih, List.map_cons, List.sum_cons]

theorem opportunityCount_eq (service : StableService) (epoch : ℤ) :
    ((db.evidenceRow gameId range service epoch).opportunityCount : ℚ) =
      ((db.contestedFlags gameId range).map fun flag =>
        (db.flagOutcome gameId range flag).opportunity service.participationId
          (service.challengeId, epoch)).sum := by
  have hsum := db.sum_qualifiedFlags gameId range fun outcome =>
    if outcome.fieldKey = (service.challengeId, epoch) ∧
      outcome.flag.victimId ≠ service.participationId then 1 else 0
  rw [db.opportunityCount_eq_length, Int.cast_natCast, length_eq_sum, rows, sum_filter,
    sum_filter]
  refine Eq.trans ?_ (hsum.trans ?_)
  · refine congrArg List.sum (List.map_congr_left fun outcome _ => ?_)
    simp only [Bool.not_eq_true', decide_eq_false_iff_not, decide_eq_true_eq, ite_and]
  · refine congrArg List.sum (List.map_congr_left fun flag _ => ?_)
    simp only [FlagOutcome.opportunity, ite_and]

/-- The captures of one flag by one attacker: there is at most one. -/
theorem sum_captures_of_flag (flagId participationId : ℤ) (x : ℚ) :
    ((rows (·.flagId) flagId (db.stableCaptures gameId range)).map fun capture =>
        if capture.attackerParticipationId = participationId then x else 0).sum =
      if (⟨flagId, participationId⟩ : StableCapture) ∈ db.stableCaptures gameId range then x
      else 0 := by
  rw [sum_ite_key (db.attacker_nodup gameId range flagId)]
  cases hfind : (rows (·.flagId) flagId (db.stableCaptures gameId range)).find? fun capture =>
      capture.attackerParticipationId = participationId with
  | some capture =>
      have hattacker : capture.attackerParticipationId = participationId := by
        simpa using List.find?_some hfind
      obtain ⟨hmem, hid⟩ := mem_rows.mp (List.mem_of_find?_eq_some hfind)
      rw [if_pos (by rw [← hid, ← hattacker]; exact hmem)]
      rfl
  | none =>
      have hnone : (⟨flagId, participationId⟩ : StableCapture) ∉ db.stableCaptures gameId range :=
        fun hmem => by simpa using List.find?_eq_none.mp hfind _ (mem_rows.mpr ⟨hmem, rfl⟩)
      rw [if_neg hnone]
      rfl

/-- A sum over the captures of a service. -/
theorem sum_captures (service : StableService) (epoch : ℤ) (value : FlagOutcome → ℚ) :
    (((rows AdTables.captureKey (service.participationId, service.challengeId, epoch)
        (db.captureEvidence gameId range)).map fun capture => value capture.2).sum) =
      ((db.contestedFlags gameId range).map fun flag =>
        (db.flagOutcome gameId range flag).reward
          (db.Captured gameId range flag service.participationId) (service.challengeId, epoch)
          (value (db.flagOutcome gameId range flag))).sum := by
  have hflag : ∀ outcome : FlagOutcome,
      ((rows (·.flagId) outcome.id (db.stableCaptures gameId range)).map fun capture =>
        if AdTables.captureKey (capture, outcome) =
            (service.participationId, service.challengeId, epoch) then value outcome else 0).sum =
        if outcome.fieldKey = (service.challengeId, epoch) then
          if (⟨outcome.id, service.participationId⟩ : StableCapture) ∈
            db.stableCaptures gameId range then value outcome else 0
        else 0 := by
    intro outcome
    rw [← db.sum_captures_of_flag gameId range]
    by_cases hfield : outcome.fieldKey = (service.challengeId, epoch)
    · rw [if_pos hfield]
      refine congrArg List.sum (List.map_congr_left fun capture _ => ?_)
      simp only [AdTables.captureKey, hfield, Prod.mk.injEq, and_true]
    · rw [if_neg hfield]
      refine List.sum_eq_zero fun x hx => ?_
      obtain ⟨capture, _, rfl⟩ := List.mem_map.mp hx
      exact if_neg fun h => hfield (Prod.mk.inj h).2
  rw [rows, sum_filter, AdTables.captureEvidence]
  simp only [decide_eq_true_eq]
  rw [sum_join _ (db.qualifiedFlagId_nodup gameId range),
    List.map_congr_left fun outcome _ => hflag outcome, sum_qualifiedFlags]
  refine congrArg List.sum (List.map_congr_left fun flag _ => ?_)
  simp only [FlagOutcome.reward, ite_and]
  rfl

/-- A sum over the exactly checked flags of a service. -/
theorem sum_defense (service : StableService) (epoch : ℤ) (value : FlagOutcome → ℚ) :
    (((rows (·.victimKey) (service.participationId, service.challengeId, epoch)
        (db.defenseEvidence gameId range)).map value).sum) =
      ((db.contestedFlags gameId range).map fun flag =>
        (db.flagOutcome gameId range flag).defense
          (service.participationId, service.challengeId, epoch)
          (value (db.flagOutcome gameId range flag))).sum := by
  rw [rows, sum_filter, AdTables.defenseEvidence, sum_filter, sum_qualifiedFlags]
  refine congrArg List.sum (List.map_congr_left fun flag _ => ?_)
  simp only [FlagOutcome.defense, decide_eq_true_eq, ite_and]

/-- The tables after one more attack is recorded. -/
def capture (attack : AdAttack) : AdDatabase :=
  { db with attacks := attack :: db.attacks }

theorem contestedFlags_capture (attack : AdAttack) :
    (db.capture attack).contestedFlags gameId range = db.contestedFlags gameId range :=
  rfl

/-- A flag of which one more attack changes nothing. -/
structure Unchanged (attack : AdAttack) (flag : StableFlag) : Prop where
  outcome : (db.capture attack).flagOutcome gameId range flag = db.flagOutcome gameId range flag
  captured : ∀ participationId, (db.capture attack).Captured gameId range flag participationId ↔
    db.Captured gameId range flag participationId

/-- A flag which one more attack captures for a new attacker, who is not its owner. -/
structure Recaptured (attack : AdAttack) (flag : StableFlag) : Prop where
  outcome : (db.capture attack).flagOutcome gameId range flag =
    (db.flagOutcome gameId range flag).recaptured
  captured : ∀ participationId, (db.capture attack).Captured gameId range flag participationId ↔
    participationId = attack.attackerParticipationId ∨ db.Captured gameId range flag participationId
  fresh : ¬db.Captured gameId range flag attack.attackerParticipationId
  foreign : flag.victimId ≠ attack.attackerParticipationId

theorem stableCaptures_capture (attack : AdAttack) :
    (db.capture attack).stableCaptures gameId range = db.stableCaptures gameId range ∨
      ∃ flag ∈ db.stableFlags gameId range, flag.id = attack.flagId ∧
        attack.attackerParticipationId ≠ flag.victimId ∧
        ¬db.Captured gameId range flag attack.attackerParticipationId ∧
        (db.capture attack).stableCaptures gameId range =
          ⟨attack.flagId, attack.attackerParticipationId⟩ :: db.stableCaptures gameId range := by
  have hcaptures : (db.capture attack).stableCaptures gameId range =
      ((attack :: db.attacks).filterMap (db.stableCapture gameId range)).dedup := rfl
  cases hcapture : db.stableCapture gameId range attack with
  | none =>
      rw [hcaptures, List.filterMap_cons_none hcapture]
      exact .inl rfl
  | some new =>
      rw [hcaptures, List.filterMap_cons_some hcapture]
      by_cases hmem : new ∈ db.attacks.filterMap (db.stableCapture gameId range)
      · rw [List.dedup_cons_of_mem hmem]
        exact .inl rfl
      · rw [List.dedup_cons_of_notMem hmem]
        simp only [AdTables.stableCapture, Option.bind_eq_bind, Option.bind_eq_some_iff] at hcapture
        obtain ⟨flag, hflag, hnew⟩ := hcapture
        split at hnew
        · next hcaptured =>
            obtain rfl := Option.some.inj hnew
            have hid : flag.id = attack.flagId := by simpa using List.find?_some hflag
            simp only [AdTables.captured, Bool.and_eq_true, decide_eq_true_eq] at hcaptured
            refine .inr ⟨flag, List.mem_of_find?_eq_some hflag, hid, hcaptured.1.2, ?_, rfl⟩
            rw [Captured, hid]
            exact fun h => hmem (List.mem_dedup.mp h)
        · cases hnew

theorem flagOutcome_captureCount {flag : StableFlag} (h : flag ∈ db.stableFlags gameId range) :
    (db.flagOutcome gameId range flag).captureCount =
      ((rows (·.flagId) flag.id (db.stableCaptures gameId range)).length : ℤ) :=
  min_eq_left (db.length_captures_le gameId range h)

/-- One more attack changes at most one flag. -/
theorem capture_flags (attack : AdAttack) :
    (∀ flag ∈ db.contestedFlags gameId range, db.Unchanged gameId range attack flag) ∨
      ∃ new ∈ db.contestedFlags gameId range, db.Recaptured gameId range attack new ∧
        ∀ flag ∈ db.contestedFlags gameId range, flag ≠ new →
          db.Unchanged gameId range attack flag := by
  have hcount : ∀ flag ∈ db.contestedFlags gameId range,
      (db.flagOutcome gameId range flag).captureCount =
        ((rows (·.flagId) flag.id (db.stableCaptures gameId range)).length : ℤ) ∧
      (db.capture attack).flagOutcome gameId range flag =
        { db.flagOutcome gameId range flag with
          captureCount := ((rows (·.flagId) flag.id
            ((db.capture attack).stableCaptures gameId range)).length : ℤ) } := by
    intro flag hflag
    have hstable := (List.mem_filter.mp hflag).1
    refine ⟨db.flagOutcome_captureCount gameId range hstable, ?_⟩
    rw [← (db.capture attack).flagOutcome_captureCount gameId range hstable]
    rfl
  rcases db.stableCaptures_capture gameId range attack with
    hsame | ⟨new, hnew, hid, hforeign, hfresh, hcons⟩
  · refine .inl fun flag hflag => ⟨?_, fun participationId => by rw [Captured, hsame, Captured]⟩
    rw [(hcount flag hflag).2, hsame, ← (hcount flag hflag).1]
  · have hother : ∀ flag ∈ db.contestedFlags gameId range, flag ≠ new →
        db.Unchanged gameId range attack flag := by
      intro flag hflag hne
      have hkey : attack.flagId ≠ flag.id := fun hkey => hne
        (List.inj_on_of_nodup_map (db.stableFlagId_nodup gameId range)
          (List.mem_filter.mp hflag).1 hnew (hkey.symm.trans hid.symm))
      refine ⟨?_, fun participationId => ?_⟩
      · rw [(hcount flag hflag).2, hcons, rows_cons, if_neg hkey, ← (hcount flag hflag).1]
      · rw [Captured, hcons, List.mem_cons, Captured]
        exact or_iff_right fun heq => hkey (congrArg StableCapture.flagId heq).symm
    by_cases hcontested : new ∈ db.contestedFlags gameId range
    · refine .inr ⟨new, hcontested, ⟨?_, fun participationId => ?_, hfresh, hforeign.symm⟩, hother⟩
      · rw [(hcount new hcontested).2, hcons, rows_cons, if_pos hid.symm, List.length_cons,
          Nat.cast_succ, ← (hcount new hcontested).1]
        rfl
      · rw [Captured, hcons, List.mem_cons, Captured, hid]
        simp
    · exact .inl fun flag hflag => hother flag hflag fun heq => hcontested (heq ▸ hflag)

/-- A flag which someone captured has a capture. -/
theorem one_le_captureCount {flag : StableFlag} (hflag : flag ∈ db.contestedFlags gameId range)
    {participationId : ℤ} (h : db.Captured gameId range flag participationId) :
    1 ≤ (db.flagOutcome gameId range flag).captureCount := by
  rw [db.flagOutcome_captureCount gameId range (List.mem_filter.mp hflag).1]
  have hpos := List.length_pos_of_mem (mem_rows.mpr ⟨h, rfl⟩ :
    (⟨flag.id, participationId⟩ : StableCapture) ∈
      rows (·.flagId) flag.id (db.stableCaptures gameId range))
  omega

theorem captureCount_le_opponents (flag : StableFlag) :
    (db.flagOutcome gameId range flag).captureCount ≤
      (db.flagOutcome gameId range flag).opponents :=
  min_le_right _ _

theorem captureCount_nonneg {flag : StableFlag} (hflag : flag ∈ db.contestedFlags gameId range) :
    0 ≤ (db.flagOutcome gameId range flag).captureCount := by
  rw [db.flagOutcome_captureCount gameId range (List.mem_filter.mp hflag).1]
  exact Int.natCast_nonneg _

section Row

variable {attack : AdAttack}

theorem captureCount_eq_sum (service : StableService) (epoch : ℤ) :
    ((db.evidenceRow gameId range service epoch).captureCount : ℚ) =
      ((db.contestedFlags gameId range).map fun flag =>
        (db.flagOutcome gameId range flag).reward
          (db.Captured gameId range flag service.participationId) (service.challengeId, epoch)
          1).sum := by
  rw [← db.sum_captures gameId range service epoch fun _ => 1, ← length_eq_sum]
  exact Int.cast_natCast _

theorem raritySum_eq_sum (service : StableService) (epoch : ℤ) :
    (db.evidenceRow gameId range service epoch).raritySum =
      ((db.contestedFlags gameId range).map fun flag =>
        (db.flagOutcome gameId range flag).reward
          (db.Captured gameId range flag service.participationId) (service.challengeId, epoch)
          (db.flagOutcome gameId range flag).rarityFraction).sum :=
  db.sum_captures gameId range service epoch (·.rarityFraction)

theorem defenseOpportunityCount_eq_sum (service : StableService) (epoch : ℤ) :
    ((db.evidenceRow gameId range service epoch).defenseOpportunityCount : ℚ) =
      ((db.contestedFlags gameId range).map fun flag =>
        (db.flagOutcome gameId range flag).defense
          (service.participationId, service.challengeId, epoch)
          (db.flagOutcome gameId range flag).opponents).sum := by
  rw [← db.sum_defense gameId range service epoch fun outcome => (outcome.opponents : ℚ)]
  exact cast_sum _ _

theorem protectedOpportunityCount_eq_sum (service : StableService) (epoch : ℤ) :
    ((db.evidenceRow gameId range service epoch).protectedOpportunityCount : ℚ) =
      ((db.contestedFlags gameId range).map fun flag =>
        (db.flagOutcome gameId range flag).defense
          (service.participationId, service.challengeId, epoch)
          (db.flagOutcome gameId range flag).protectedCount).sum := by
  rw [← db.sum_defense gameId range service epoch fun outcome => (outcome.protectedCount : ℚ)]
  exact cast_sum _ _

/-- Every contested flag is unchanged or captured once more. -/
theorem unchanged_or_recaptured {flag : StableFlag}
    (hflag : flag ∈ db.contestedFlags gameId range) :
    db.Unchanged gameId range attack flag ∨ db.Recaptured gameId range attack flag := by
  rcases db.capture_flags gameId range attack with hall | ⟨new, _, hnew, hother⟩
  · exact .inl (hall flag hflag)
  · by_cases heq : flag = new
    · exact .inr (heq ▸ hnew)
    · exact .inl (hother flag hflag heq)

/-- The defense opportunities of a service do not depend on captures. -/
theorem defenseOpportunityCount_capture (service : StableService) (epoch : ℤ) :
    (((db.capture attack).evidenceRow gameId range service epoch).defenseOpportunityCount : ℚ) =
      (db.evidenceRow gameId range service epoch).defenseOpportunityCount := by
  rw [defenseOpportunityCount_eq_sum, defenseOpportunityCount_eq_sum]
  refine congrArg List.sum (List.map_congr_left fun flag hflag => ?_)
  rcases db.unchanged_or_recaptured gameId range hflag with hsame | hnew
  · rw [hsame.outcome]
  · rw [hnew.outcome]
    exact FlagOutcome.defense_recaptured (db.captureCount_nonneg gameId range hflag) _ _

theorem protectedOpportunityCount_capture (service : StableService) (epoch : ℤ) :
    (((db.capture attack).evidenceRow gameId range service epoch).protectedOpportunityCount : ℚ) ≤
      (db.evidenceRow gameId range service epoch).protectedOpportunityCount := by
  rw [protectedOpportunityCount_eq_sum, protectedOpportunityCount_eq_sum]
  refine List.sum_le_sum fun flag hflag => ?_
  rcases db.unchanged_or_recaptured gameId range hflag with hsame | hnew
  · rw [hsame.outcome]
  · rw [hnew.outcome, FlagOutcome.defense_recaptured (db.captureCount_nonneg gameId range hflag)]
    refine FlagOutcome.defense_mono _ ?_
    have hle : (db.flagOutcome gameId range flag).recaptured.protectedCount ≤
        (db.flagOutcome gameId range flag).protectedCount := by
      simp only [FlagOutcome.protectedCount, FlagOutcome.recaptured]
      omega
    exact_mod_cast hle

theorem opportunityCount_capture (service : StableService) (epoch : ℤ) :
    ((db.evidenceRow gameId range service epoch).opportunityCount : ℚ) ≤
      ((db.capture attack).evidenceRow gameId range service epoch).opportunityCount := by
  rw [opportunityCount_eq, opportunityCount_eq]
  refine List.sum_le_sum fun flag hflag => ?_
  rcases db.unchanged_or_recaptured gameId range hflag with hsame | hnew
  · rw [hsame.outcome]
  · rw [hnew.outcome]
    exact FlagOutcome.opportunity_recaptured (db.captureCount_nonneg gameId range hflag) _ _

/-- For everyone but the attacker the captures are as many, and worth no more. -/
theorem captures_capture_other {service : StableService}
    (hservice : service.participationId ≠ attack.attackerParticipationId) (epoch : ℤ) :
    (((db.capture attack).evidenceRow gameId range service epoch).captureCount : ℚ) =
        (db.evidenceRow gameId range service epoch).captureCount ∧
      ((db.capture attack).evidenceRow gameId range service epoch).raritySum ≤
        (db.evidenceRow gameId range service epoch).raritySum := by
  have hreward : ∀ flag ∈ db.contestedFlags gameId range, ∀ value,
      ((db.capture attack).flagOutcome gameId range flag).reward
          ((db.capture attack).Captured gameId range flag service.participationId)
          (service.challengeId, epoch) value =
        (db.flagOutcome gameId range flag).reward
          (db.Captured gameId range flag service.participationId)
          (service.challengeId, epoch) value := by
    intro flag hflag value
    rcases db.unchanged_or_recaptured gameId range hflag with hsame | hnew
    · rw [hsame.outcome]
      exact FlagOutcome.reward_congr (hsame.captured _) _ _
    · rw [hnew.outcome, FlagOutcome.reward_congr ((hnew.captured _).trans (or_iff_right hservice))]
      exact FlagOutcome.reward_recaptured (db.captureCount_nonneg gameId range hflag)
        (db.one_le_captureCount gameId range hflag) _ _
  constructor
  · rw [captureCount_eq_sum, captureCount_eq_sum]
    exact congrArg List.sum (List.map_congr_left fun flag hflag => hreward flag hflag 1)
  · rw [raritySum_eq_sum, raritySum_eq_sum]
    refine List.sum_le_sum fun flag hflag => ?_
    rw [hreward flag hflag]
    refine FlagOutcome.reward_mono _ _ ?_
    rcases db.unchanged_or_recaptured gameId range hflag with hsame | hnew
    · rw [hsame.outcome]
    · rw [hnew.outcome]
      exact FlagOutcome.rarityFraction_recaptured

theorem contestedFlags_nodup : (db.contestedFlags gameId range).Nodup :=
  ((db.stableFlagId_nodup gameId range).of_map _).filter _

theorem victim_ne_of_captured {flag : StableFlag} (hflag : flag ∈ db.contestedFlags gameId range)
    {participationId : ℤ} (h : db.Captured gameId range flag participationId) :
    flag.victimId ≠ participationId := by
  obtain ⟨other, hother, hid, hne, _⟩ := db.mem_stableCaptures gameId range h
  obtain rfl : other = flag := List.inj_on_of_nodup_map (db.stableFlagId_nodup gameId range) hother
    (List.mem_filter.mp hflag).1 hid
  exact hne.symm

/-- A captured flag is worth at most a flag of the same field which is captured once. -/
theorem rarityFraction_le_first {flag new : StableFlag}
    (hchallenge : flag.challengeId = new.challengeId)
    (hcount : 1 ≤ (db.flagOutcome gameId range flag).captureCount)
    (hfirst : (db.flagOutcome gameId range new).captureCount = 0) :
    (db.flagOutcome gameId range flag).rarityFraction ≤
      (db.flagOutcome gameId range new).recaptured.rarityFraction := by
  have hopponents : (db.flagOutcome gameId range flag).opponents =
      (db.flagOutcome gameId range new).opponents := by
    simp only [AdTables.flagOutcome, hchallenge]
  have hafter : (db.flagOutcome gameId range new).recaptured.rarityFraction =
      if 4 ≤ (db.flagOutcome gameId range new).opponents then
        (((db.flagOutcome gameId range new).opponents -
          ((db.flagOutcome gameId range new).captureCount + 1) : ℤ) : ℚ) /
            ((db.flagOutcome gameId range new).opponents : ℚ)
      else 0 := rfl
  rw [hafter, FlagOutcome.rarityFraction, hopponents, hfirst]
  by_cases hfour : 4 ≤ (db.flagOutcome gameId range new).opponents
  · rw [if_pos hfour, if_pos hfour]
    refine div_le_div_of_nonneg_right ?_ ?_
    · exact_mod_cast (by omega : (db.flagOutcome gameId range new).opponents -
        (db.flagOutcome gameId range flag).captureCount ≤
          (db.flagOutcome gameId range new).opponents - (0 + 1))
    · exact_mod_cast (by omega : 0 ≤ (db.flagOutcome gameId range new).opponents)
  · rw [if_neg hfour, if_neg hfour]

/-- The rewards of an attacker are at most its opportunities at the worth of a first
capture. -/
theorem raritySum_le_first {service : StableService} (epoch : ℤ) {new : StableFlag}
    (hnonneg : 0 ≤ (db.flagOutcome gameId range new).recaptured.rarityFraction)
    (hfield : (db.flagOutcome gameId range new).fieldKey = (service.challengeId, epoch))
    (hfirst : (db.flagOutcome gameId range new).captureCount = 0) :
    (db.evidenceRow gameId range service epoch).raritySum ≤
      (db.evidenceRow gameId range service epoch).opportunityCount *
        (db.flagOutcome gameId range new).recaptured.rarityFraction := by
  rw [raritySum_eq_sum, opportunityCount_eq, ← List.sum_map_mul_right]
  refine List.sum_le_sum fun flag hflag => ?_
  unfold FlagOutcome.reward FlagOutcome.opportunity
  split
  · next hcounts =>
      obtain ⟨hqualifies, hkey, hcaptured⟩ := hcounts
      have hchallenge : flag.challengeId = new.challengeId :=
        (Prod.mk.inj (hkey.trans hfield.symm)).1
      rw [if_pos ⟨hqualifies, hkey, db.victim_ne_of_captured gameId range hflag hcaptured⟩, one_mul]
      exact db.rarityFraction_le_first gameId range hchallenge
        (db.one_le_captureCount gameId range hflag hcaptured) hfirst
  · split
    · rwa [one_mul]
    · rw [zero_mul]

theorem recaptured_rarityFraction_nonneg {new : StableFlag}
    (h : db.Recaptured gameId range attack new) :
    0 ≤ (db.flagOutcome gameId range new).recaptured.rarityFraction := by
  refine FlagOutcome.rarityFraction_nonneg ?_
  rw [← h.outcome]
  exact (db.capture attack).captureCount_le_opponents gameId range new

/-- What one more capture does to a row of its attacker: nothing, or it adds a capture and its
worth, and at most one opportunity, whose worth no earlier reward exceeds. -/
def Gains (row row' : EvidenceAggregateRow) : Prop :=
  (row'.protectedOpportunityCount : ℚ) = row.protectedOpportunityCount ∧
    (((row'.opportunityCount : ℚ) = row.opportunityCount ∧
        (row'.captureCount : ℚ) = row.captureCount ∧ row'.raritySum = row.raritySum) ∨
      ∃ worth, 0 ≤ worth ∧ (row'.captureCount : ℚ) = row.captureCount + 1 ∧
        row'.raritySum = row.raritySum + worth ∧
        ((row'.opportunityCount : ℚ) = row.opportunityCount ∨
          (row'.opportunityCount : ℚ) = row.opportunityCount + 1 ∧
            row.raritySum ≤ row.opportunityCount * worth))

theorem protectedOpportunityCount_attacker {service : StableService}
    (hservice : service.participationId = attack.attackerParticipationId) (epoch : ℤ) :
    (((db.capture attack).evidenceRow gameId range service epoch).protectedOpportunityCount : ℚ) =
      (db.evidenceRow gameId range service epoch).protectedOpportunityCount := by
  rw [protectedOpportunityCount_eq_sum, protectedOpportunityCount_eq_sum]
  refine congrArg List.sum (List.map_congr_left fun flag hflag => ?_)
  rcases db.unchanged_or_recaptured gameId range hflag with hsame | hnew
  · rw [hsame.outcome]
  · have hforeign : ∀ outcome : FlagOutcome, outcome.flag = flag → ∀ value,
        outcome.defense (service.participationId, service.challengeId, epoch) value = 0 := by
      intro outcome houtcome value
      refine if_neg fun h => hnew.foreign ?_
      rw [← houtcome, ← hservice]
      exact (Prod.mk.inj h.2.2).1
    rw [hforeign _ rfl, hforeign _ rfl]

/-- A row of the attacker gains from the capture. -/
theorem captures_capture_attacker {service : StableService}
    (hservice : service.participationId = attack.attackerParticipationId) (epoch : ℤ) :
    Gains (db.evidenceRow gameId range service epoch)
      ((db.capture attack).evidenceRow gameId range service epoch) := by
  refine ⟨db.protectedOpportunityCount_attacker gameId range hservice epoch, ?_⟩
  rw [opportunityCount_eq, opportunityCount_eq, captureCount_eq_sum, captureCount_eq_sum,
    raritySum_eq_sum, raritySum_eq_sum, contestedFlags_capture]
  set field := (service.challengeId, epoch)
  have hreward : ∀ flag, db.Unchanged gameId range attack flag → ∀ value,
      ((db.capture attack).flagOutcome gameId range flag).reward
          ((db.capture attack).Captured gameId range flag service.participationId) field value =
        (db.flagOutcome gameId range flag).reward
          (db.Captured gameId range flag service.participationId) field value := by
    intro flag hsame value
    rw [hsame.outcome]
    exact FlagOutcome.reward_congr (hsame.captured _) _ _
  rcases db.capture_flags gameId range attack with hall | ⟨new, hmem, hnew, hother⟩
  · refine .inl ⟨?_, ?_, ?_⟩
    · exact congrArg List.sum (List.map_congr_left fun flag hflag => by
        rw [(hall flag hflag).outcome])
    · exact congrArg List.sum (List.map_congr_left fun flag hflag =>
        hreward flag (hall flag hflag) 1)
    · exact congrArg List.sum (List.map_congr_left fun flag hflag => by
        rw [hreward flag (hall flag hflag), (hall flag hflag).outcome])
  have hsum : ∀ {term term' : StableFlag → ℚ},
      (∀ flag, db.Unchanged gameId range attack flag → term' flag = term flag) →
      ((db.contestedFlags gameId range).map term').sum =
        ((db.contestedFlags gameId range).map term).sum + (term' new - term new) :=
    fun hterm => sum_change (db.contestedFlags_nodup gameId range) hmem fun flag hflag hne =>
      hterm flag (hother flag hflag hne)
  have hopportunity := hsum fun flag hsame =>
    congrArg (FlagOutcome.opportunity · service.participationId field) hsame.outcome
  have hcaptures := hsum fun flag hsame => hreward flag hsame 1
  have hrarity := hsum fun flag hsame => (congrArg (FlagOutcome.reward _ _ field ·)
    (congrArg FlagOutcome.rarityFraction hsame.outcome)).trans (hreward flag hsame _)
  rw [hopportunity, hcaptures, hrarity, hnew.outcome]
  set outcome := db.flagOutcome gameId range new
  have hnonneg : 0 ≤ outcome.captureCount := db.captureCount_nonneg gameId range hmem
  have hbefore : ∀ value, outcome.reward (db.Captured gameId range new service.participationId)
      field value = 0 := fun value => if_neg fun h => hnew.fresh (hservice ▸ h.2.2)
  have hafter : ∀ value, outcome.recaptured.reward
      ((db.capture attack).Captured gameId range new service.participationId) field value =
        if outcome.flagDelivered ∧ outcome.fieldKey = field then value else 0 := by
    intro value
    unfold FlagOutcome.reward
    rw [FlagOutcome.qualifies_recaptured hnonneg]
    refine if_congr ?_ rfl rfl
    exact and_congr_right fun _ => and_iff_left ((hnew.captured _).mpr (.inl hservice))
  have hvictim : new.victimId ≠ service.participationId := hservice ▸ hnew.foreign
  have hadded : outcome.recaptured.opportunity service.participationId field =
      if outcome.flagDelivered ∧ outcome.fieldKey = field then 1 else 0 := by
    unfold FlagOutcome.opportunity
    rw [FlagOutcome.qualifies_recaptured hnonneg]
    exact if_congr (and_congr_right fun _ => and_iff_left hvictim) rfl rfl
  simp only [hbefore, hafter, hadded, sub_zero]
  by_cases hcounts : outcome.flagDelivered ∧ outcome.fieldKey = field
  · have hworth := db.recaptured_rarityFraction_nonneg gameId range hnew
    refine .inr ⟨outcome.recaptured.rarityFraction, hworth, by rw [if_pos hcounts],
      by rw [if_pos hcounts], ?_⟩
    rw [if_pos hcounts]
    by_cases hqualifies : outcome.qualifies
    · have hone : outcome.opportunity service.participationId field = 1 :=
        if_pos ⟨hqualifies, hcounts.2, hvictim⟩
      rw [hone, sub_self, add_zero]
      exact .inl rfl
    · have hzero : outcome.opportunity service.participationId field = 0 :=
        if_neg fun h => hqualifies h.1
      have hfirst : outcome.captureCount = 0 := by
        by_contra hne
        have hqualified : outcome.qualifies = outcome.flagDelivered :=
          FlagOutcome.qualifies_of_captured (by omega)
        exact hqualifies (hqualified.trans hcounts.1)
      have hle := db.raritySum_le_first gameId range epoch hworth hcounts.2 hfirst
      rw [raritySum_eq_sum, opportunityCount_eq] at hle
      rw [hzero, sub_zero]
      exact .inr ⟨rfl, hle⟩
  · have hzero : outcome.opportunity service.participationId field = 0 := if_neg fun h =>
      hcounts ⟨FlagOutcome.flagDelivered_of_qualifies h.1, h.2.1⟩
    simp only [if_neg hcounts, hzero, sub_zero, add_zero, true_and]
    exact .inl trivial

end Row

end AdDatabase

end AttackDefense

end Rsctf
