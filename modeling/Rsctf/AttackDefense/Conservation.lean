import Rsctf.AttackDefense.EvidenceQuery

/-!
# Conservation of the evidence

Every row of the evidence query is bounded by what its service could earn, and the
rows of a range add up to the totals of the range.  Both rest on the keys of the
intermediate tables: a capture is counted in exactly one row, and a flag in exactly
one field.
-/

open Keyed Grouping

namespace Rsctf

namespace AttackDefense

namespace AdDatabase

variable (db : AdDatabase) (gameId : ℤ) (range : EvidenceRange)

theorem stableService_eq_some {flag : AdFlag} {stable : StableService}
    (h : db.stableService flag = some stable) :
    stable.id = flag.teamServiceId ∧ stable.serviceWeight = flag.serviceWeight ∧
      ∃ service ∈ db.teamServices, service.id = stable.id ∧
        (service.participationId, service.challengeId) = stable.key := by
  simp only [AdTables.stableService, Option.bind_eq_bind, Option.bind_eq_some_iff,
    Option.pure_def, Option.some.injEq] at h
  obtain ⟨service, hservice, _, _, _, _, _, _, rfl⟩ := h
  have hid := List.find?_some hservice
  exact ⟨by simpa using hid, rfl, service, List.mem_of_find?_eq_some hservice, rfl, rfl⟩

theorem mem_stableServices {stable : StableService}
    (h : stable ∈ db.stableServices gameId range) :
    ∃ flag ∈ db.flags, db.stableService flag = some stable := by
  unfold AdTables.stableServices at h
  split at h
  · simp at h
  · obtain ⟨flag, hflag, hstable⟩ := List.mem_filterMap.mp h
    exact ⟨flag, (mem_rows.mp hflag).1, hstable⟩

theorem stableServiceId_nodup :
    ((db.stableServices gameId range).map (·.id)).Nodup := by
  unfold AdTables.stableServices
  split
  · simp
  · rename_i round _
    have hrows : ((rows (·.roundId) round.id db.flags).map (·.teamServiceId)).Nodup := by
      refine List.Nodup.map_on ?_ ((db.flagId_nodup.of_map _).filter _)
      intro flag hflag flag' hflag' heq
      obtain ⟨hmem, hround⟩ := mem_rows.mp hflag
      obtain ⟨hmem', hround'⟩ := mem_rows.mp hflag'
      exact List.inj_on_of_nodup_map db.flagKey_nodup hmem hmem'
        (Prod.ext (hround.trans hround'.symm) heq)
    exact nodup_filterMap hrows fun flag stable h => (db.stableService_eq_some h).1

/-- The frozen roster has one service per participation and challenge. -/
theorem stableServiceKey_nodup :
    ((db.stableServices gameId range).map StableService.key).Nodup := by
  have hid := db.stableServiceId_nodup gameId range
  refine List.Nodup.map_on ?_ (hid.of_map _)
  intro stable hstable stable' hstable' hkey
  obtain ⟨flag, _, hflag⟩ := db.mem_stableServices gameId range hstable
  obtain ⟨flag', _, hflag'⟩ := db.mem_stableServices gameId range hstable'
  obtain ⟨-, -, service, hmem, hservice, hserviceKey⟩ := db.stableService_eq_some hflag
  obtain ⟨-, -, service', hmem', hservice', hserviceKey'⟩ := db.stableService_eq_some hflag'
  have hsame : service = service' :=
    List.inj_on_of_nodup_map db.teamServiceKey_nodup hmem hmem'
      ((hserviceKey.trans hkey).trans hserviceKey'.symm)
  exact List.inj_on_of_nodup_map hid hstable hstable' (by rw [← hservice, ← hservice', hsame])

theorem stableService_weight {stable : StableService}
    (h : stable ∈ db.stableServices gameId range) :
    minServiceWeight ≤ stable.serviceWeight ∧ stable.serviceWeight ≤ maxServiceWeight := by
  obtain ⟨flag, hflag, hstable⟩ := db.mem_stableServices gameId range h
  rw [(db.stableService_eq_some hstable).2.1]
  exact db.flagServiceWeight_mem flag hflag

/-- A frozen flag belongs to a scoring round and to a frozen service. -/
theorem stableFlag_eq_some {flag : AdFlag} {stable : StableFlag}
    (h : db.stableFlag gameId range flag = some stable) :
    stable.id = flag.id ∧ stable.epoch ∈ db.epochIds gameId range ∧
      ∃ service ∈ db.stableServices gameId range,
        service.key = (stable.victimId, stable.challengeId) := by
  simp only [AdTables.stableFlag, Option.bind_eq_bind, Option.bind_eq_some_iff,
    Option.pure_def, Option.some.injEq] at h
  obtain ⟨round, hround, service, hservice, rfl⟩ := h
  refine ⟨rfl, ?_, service, List.mem_of_find?_eq_some hservice, rfl⟩
  exact List.mem_dedup.mpr (List.mem_map_of_mem (List.mem_of_find?_eq_some hround))

theorem mem_stableFlags {stable : StableFlag} (h : stable ∈ db.stableFlags gameId range) :
    stable.epoch ∈ db.epochIds gameId range ∧
      ∃ service ∈ db.stableServices gameId range,
        service.key = (stable.victimId, stable.challengeId) := by
  obtain ⟨flag, _, hflag⟩ := List.mem_filterMap.mp h
  exact (db.stableFlag_eq_some gameId range hflag).2

theorem stableFlagId_nodup : ((db.stableFlags gameId range).map (·.id)).Nodup :=
  nodup_filterMap db.flagId_nodup fun _ _ h => (db.stableFlag_eq_some gameId range h).1

/-- A counted capture takes the flag of another member of its field. -/
theorem mem_stableCaptures {capture : StableCapture}
    (h : capture ∈ db.stableCaptures gameId range) :
    ∃ flag ∈ db.stableFlags gameId range, flag.id = capture.flagId ∧
      capture.attackerParticipationId ≠ flag.victimId ∧
      ∃ attacker ∈ db.stableServices gameId range,
        attacker.key = (capture.attackerParticipationId, flag.challengeId) := by
  obtain ⟨attack, _, hattack⟩ := List.mem_filterMap.mp (List.mem_dedup.mp h)
  simp only [AdTables.stableCapture, Option.bind_eq_bind, Option.bind_eq_some_iff] at hattack
  obtain ⟨flag, hflag, hcapture⟩ := hattack
  split at hcapture
  · rename_i hcaptured
    obtain rfl := Option.some.inj hcapture
    have hid := List.find?_some hflag
    simp only [AdTables.captured, Bool.and_eq_true, List.any_eq_true, decide_eq_true_eq]
      at hcaptured hid
    obtain ⟨⟨⟨attacker, hattacker, hchallenge, hparticipation⟩, hvictim⟩, -⟩ := hcaptured
    exact ⟨flag, List.mem_of_find?_eq_some hflag, hid, hvictim, attacker, hattacker,
      Prod.ext hparticipation hchallenge⟩
  · simp at hcapture

/-- No one captures a flag twice. -/
theorem attacker_nodup (flagId : ℤ) :
    ((rows (·.flagId) flagId (db.stableCaptures gameId range)).map
      (·.attackerParticipationId)).Nodup := by
  refine List.Nodup.map_on ?_ ((List.nodup_dedup _).filter _)
  intro capture hcapture capture' hcapture' heq
  have hid := (mem_rows.mp hcapture).2.trans (mem_rows.mp hcapture').2.symm
  cases capture
  cases capture'
  simp_all

/-- The captures of one flag are fewer than its field is large. -/
theorem length_captures_le {flag : StableFlag} (h : flag ∈ db.stableFlags gameId range) :
    ((rows (·.flagId) flag.id (db.stableCaptures gameId range)).length : ℤ) ≤
      db.teamCount gameId range flag.challengeId - 1 := by
  set captures := rows (·.flagId) flag.id (db.stableCaptures gameId range) with hcaptures
  set field := rows (·.challengeId) flag.challengeId (db.stableServices gameId range)
    with hfield
  have hmem : ∀ capture ∈ captures, capture.attackerParticipationId ≠ flag.victimId ∧
      ∃ attacker ∈ field, attacker.participationId = capture.attackerParticipationId := by
    intro capture hcapture
    obtain ⟨hcapture, hid⟩ := mem_rows.mp hcapture
    obtain ⟨flag', hflag', hid', hvictim, attacker, hattacker, hkey⟩ :=
      db.mem_stableCaptures gameId range hcapture
    obtain rfl : flag' = flag :=
      List.inj_on_of_nodup_map (db.stableFlagId_nodup gameId range) hflag' h (hid'.trans hid)
    obtain ⟨hparticipation, hchallenge⟩ := Prod.mk.inj hkey
    exact ⟨hvictim, attacker, mem_rows.mpr ⟨hattacker, hchallenge⟩, hparticipation⟩
  have hnodup : (captures.map (·.attackerParticipationId)).Nodup :=
    db.attacker_nodup gameId range flag.id
  obtain ⟨-, victim, hvictim, hkey⟩ := db.mem_stableFlags gameId range h
  obtain ⟨hparticipation, hchallenge⟩ := Prod.mk.inj hkey
  have hvictimField : victim ∈ field := mem_rows.mpr ⟨hvictim, hchallenge⟩
  have hle := length_le_of_nodup_map (m := (field.map (·.participationId)).erase flag.victimId)
    hnodup fun capture hcapture => by
      obtain ⟨hne, attacker, hattacker, heq⟩ := hmem capture hcapture
      refine (List.mem_erase_of_ne hne).mpr (List.mem_map.mpr ⟨attacker, hattacker, heq⟩)
  rw [List.length_erase_of_mem (List.mem_map.mpr ⟨victim, hvictimField, hparticipation⟩),
    List.length_map] at hle
  have hpos := List.length_pos_of_mem hvictimField
  have hcount : db.teamCount gameId range flag.challengeId = field.length := rfl
  omega

theorem mem_qualifiedFlags {outcome : FlagOutcome}
    (h : outcome ∈ db.qualifiedFlags gameId range) :
    outcome.flag ∈ db.stableFlags gameId range ∧
      outcome = db.flagOutcome gameId range outcome.flag ∧ 0 ≤ outcome.opponents := by
  obtain ⟨houtcome, -⟩ := List.mem_filter.mp h
  obtain ⟨flag, hflag, rfl⟩ := List.mem_map.mp houtcome
  obtain ⟨hflag, hcount⟩ := List.mem_filter.mp hflag
  refine ⟨hflag, rfl, ?_⟩
  have hteam : 1 < db.teamCount gameId range flag.challengeId := by simpa using hcount
  have hopponents : (db.flagOutcome gameId range flag).opponents =
      db.teamCount gameId range flag.challengeId - 1 := rfl
  omega

theorem qualifiedFlagId_nodup : ((db.qualifiedFlags gameId range).map (·.id)).Nodup := by
  have hflags : ((db.stableFlags gameId range).filter fun flag =>
      1 < db.teamCount gameId range flag.challengeId).map (·.id) =
        (db.flagOutcomes gameId range).map (·.id) := by
    simp [AdTables.flagOutcomes, FlagOutcome.id, AdTables.flagOutcome, Function.comp_def]
  have hnodup : ((db.flagOutcomes gameId range).map (·.id)).Nodup := by
    rw [← hflags]
    exact (db.stableFlagId_nodup gameId range).sublist (List.filter_sublist.map _)
  exact hnodup.sublist (List.filter_sublist.map _)

/-- The clamp on the captures of a flag never takes effect. -/
theorem captureCount_eq {outcome : FlagOutcome} (h : outcome ∈ db.qualifiedFlags gameId range) :
    outcome.captureCount =
      ((rows (·.flagId) outcome.id (db.stableCaptures gameId range)).length : ℤ) := by
  obtain ⟨hflag, heq, -⟩ := db.mem_qualifiedFlags gameId range h
  rw [heq]
  exact min_eq_left (db.length_captures_le gameId range hflag)

theorem captureCount_mem {outcome : FlagOutcome} (h : outcome ∈ db.qualifiedFlags gameId range) :
    0 ≤ outcome.captureCount ∧ outcome.captureCount ≤ outcome.opponents := by
  refine ⟨by rw [db.captureCount_eq gameId range h]; positivity, ?_⟩
  rw [(db.mem_qualifiedFlags gameId range h).2.1]
  exact min_le_right _ _

theorem rarityFraction_mem {outcome : FlagOutcome}
    (h : outcome ∈ db.qualifiedFlags gameId range) :
    0 ≤ outcome.rarityFraction ∧ outcome.rarityFraction ≤ 1 := by
  obtain ⟨hnonneg, hle⟩ := db.captureCount_mem gameId range h
  unfold FlagOutcome.rarityFraction
  split
  · rename_i hfour
    have hpos : (0 : ℚ) < outcome.opponents := by exact_mod_cast (by omega : 0 < outcome.opponents)
    constructor
    · exact div_nonneg (by exact_mod_cast (by omega)) hpos.le
    · rw [div_le_one hpos]
      exact_mod_cast (by omega : outcome.opponents - outcome.captureCount ≤ outcome.opponents)
  · norm_num

theorem captureEvidence_fst_nodup :
    ((db.captureEvidence gameId range).map Prod.fst).Nodup :=
  (List.nodup_dedup _).sublist map_fst_join_sublist

/-- A captured flag, its attacker and the field of the flag. -/
theorem captureEvidence_flag {capture : StableCapture × FlagOutcome}
    (h : capture ∈ db.captureEvidence gameId range) :
    capture.1.attackerParticipationId ≠ capture.2.flag.victimId ∧
      ∃ attacker ∈ db.stableServices gameId range,
        attacker.key = (capture.1.attackerParticipationId, capture.2.flag.challengeId) := by
  obtain ⟨hcapture, houtcome, hid⟩ := mem_join h
  obtain ⟨hflag, -, -⟩ := db.mem_qualifiedFlags gameId range houtcome
  obtain ⟨flag, hmem, hflagId, hvictim, hattacker⟩ := db.mem_stableCaptures gameId range hcapture
  obtain rfl : flag = capture.2.flag :=
    List.inj_on_of_nodup_map (db.stableFlagId_nodup gameId range) hmem hflag
      (hflagId.trans hid.symm)
  exact ⟨hvictim, hattacker⟩

/-- The captures of a qualified flag are exactly the captures counted for it. -/
theorem length_rows_captureEvidence {outcome : FlagOutcome}
    (h : outcome ∈ db.qualifiedFlags gameId range) :
    ((rows (·.2.id) outcome.id (db.captureEvidence gameId range)).length : ℤ) =
      outcome.captureCount := by
  rw [db.captureCount_eq gameId range h]
  have hjoin : (rows (·.2.id) outcome.id (db.captureEvidence gameId range)).length =
      (rows (·.flagId) outcome.id (db.stableCaptures gameId range)).length :=
    length_rows_join (db.qualifiedFlagId_nodup gameId range) h
  exact_mod_cast hjoin

/-- The opportunities of a service are the qualified flags of its field which are not its
own. -/
theorem opportunityCount_eq_length (service : StableService) (epoch : ℤ) :
    (db.evidenceRow gameId range service epoch).opportunityCount =
      (((rows (·.fieldKey) (service.challengeId, epoch) (db.qualifiedFlags gameId range)).filter
        fun outcome => !decide (outcome.flag.victimId = service.participationId)).length : ℤ) := by
  set field := (service.challengeId, epoch) with hfield
  set qualified := db.qualifiedFlags gameId range with hqualified
  have hown : rows (·.victimKey) (service.participationId, field) qualified =
      (rows (·.fieldKey) field qualified).filter
        (fun outcome => outcome.flag.victimId = service.participationId) := by
    unfold rows
    rw [List.filter_filter]
    refine List.filter_congr fun outcome _ => ?_
    simp [FlagOutcome.victimKey, Prod.ext_iff]
  have hsplit := List.length_eq_length_filter_add (l := rows (·.fieldKey) field qualified)
    fun outcome => decide (outcome.flag.victimId = service.participationId)
  have hrow : (db.evidenceRow gameId range service epoch).opportunityCount =
      max ((rows (·.fieldKey) field qualified).length
        - (rows (·.victimKey) (service.participationId, field) qualified).length : ℤ) 0 := rfl
  rw [hrow, hown]
  omega

/-- A capture is an opportunity: the flags of a field which one attacker captured are
flags of that field which are not its own. -/
theorem captureCount_le_opportunityCount (service : StableService) (epoch : ℤ) :
    (db.evidenceRow gameId range service epoch).captureCount ≤
      (db.evidenceRow gameId range service epoch).opportunityCount := by
  set field := (service.challengeId, epoch) with hfield
  set cell := (service.participationId, field) with hcell
  set captures := rows AdTables.captureKey cell (db.captureEvidence gameId range) with hcaptures
  have hflag : (captures.map Prod.snd).Nodup := by
    have hfst : (captures.map Prod.fst).Nodup :=
      (db.captureEvidence_fst_nodup gameId range).sublist (List.filter_sublist.map _)
    refine List.Nodup.map_on ?_ (hfst.of_map _)
    intro capture hcapture capture' hcapture' heq
    obtain ⟨hmem, hkey⟩ := mem_rows.mp hcapture
    obtain ⟨hmem', hkey'⟩ := mem_rows.mp hcapture'
    have hid := (mem_join hmem).2.2.symm.trans ((congrArg _ heq).trans (mem_join hmem').2.2)
    have hattacker := congrArg Prod.fst (hkey.trans hkey'.symm)
    obtain ⟨⟨flagId, attacker⟩, outcome⟩ := capture
    obtain ⟨⟨flagId', attacker'⟩, outcome'⟩ := capture'
    simp_all [AdTables.captureKey]
  have hle := length_le_of_nodup_map
      (m := (rows (·.fieldKey) field (db.qualifiedFlags gameId range)).filter
        fun outcome => !decide (outcome.flag.victimId = service.participationId)) hflag
    fun capture hcapture => by
      obtain ⟨hmem, hkey⟩ := mem_rows.mp hcapture
      obtain ⟨hattacker, hcaptureField⟩ := Prod.mk.inj hkey
      have hvictim := (db.captureEvidence_flag gameId range hmem).1
      refine List.mem_filter.mpr ⟨mem_rows.mpr ⟨(mem_join hmem).2.1, hcaptureField⟩, ?_⟩
      simpa [← hattacker] using hvictim.symm
  have hcount : (db.evidenceRow gameId range service epoch).captureCount =
      (captures.length : ℤ) := rfl
  rw [db.opportunityCount_eq_length, hcount]
  exact_mod_cast hle

theorem raritySum_mem (service : StableService) (epoch : ℤ) :
    0 ≤ (db.evidenceRow gameId range service epoch).raritySum ∧
      (db.evidenceRow gameId range service epoch).raritySum ≤
        (db.evidenceRow gameId range service epoch).captureCount := by
  have hunit : ∀ rarity ∈ (rows AdTables.captureKey
      (service.participationId, service.challengeId, epoch)
      (db.captureEvidence gameId range)).map (·.2.rarityFraction), 0 ≤ rarity ∧ rarity ≤ 1 := by
    intro rarity hrarity
    obtain ⟨capture, hcapture, rfl⟩ := List.mem_map.mp hrarity
    exact db.rarityFraction_mem gameId range (mem_join (mem_rows.mp hcapture).1).2.1
  simpa [AdTables.evidenceRow] using sum_mem_unit hunit

theorem protectedOpportunityCount_mem (service : StableService) (epoch : ℤ) :
    0 ≤ (db.evidenceRow gameId range service epoch).protectedOpportunityCount ∧
      (db.evidenceRow gameId range service epoch).protectedOpportunityCount ≤
        (db.evidenceRow gameId range service epoch).defenseOpportunityCount := by
  have hmem : ∀ outcome ∈ rows (·.victimKey)
      (service.participationId, service.challengeId, epoch)
      (db.defenseEvidence gameId range),
      0 ≤ outcome.protectedCount ∧ outcome.protectedCount ≤ outcome.opponents := by
    intro outcome houtcome
    obtain ⟨hqualified, -⟩ := List.mem_filter.mp (mem_rows.mp houtcome).1
    obtain ⟨hnonneg, hle⟩ := db.captureCount_mem gameId range hqualified
    unfold FlagOutcome.protectedCount
    omega
  constructor
  · refine List.sum_nonneg fun count hcount => ?_
    obtain ⟨outcome, houtcome, rfl⟩ := List.mem_map.mp hcount
    exact (hmem outcome houtcome).1
  · exact List.sum_le_sum fun outcome houtcome => (hmem outcome houtcome).2

/-- The stored closing credit of a service is a credit. -/
theorem seedState_mem (service : StableService) :
    ∀ credit ∈ (db.seedState gameId range service).closingSlaCredit, 0 ≤ credit ∧ credit ≤ 1 := by
  unfold AdTables.seedState
  dsimp only
  split
  · simp [SeedState.empty]
  · rename_i rollup hrollup
    have hmem := (List.mem_filter.mp (mem_of_latest hrollup)).1
    exact db.closingSlaCredit_mem gameId rollup (mem_rows.mp hmem).1

theorem slaCreditSum_mem (service : StableService) (epoch : ℤ) :
    0 ≤ (db.evidenceRow gameId range service epoch).slaCreditSum ∧
      (db.evidenceRow gameId range service epoch).slaCreditSum ≤
        (db.evidenceRow gameId range service epoch).slaTickCount := by
  set cells := db.slaEvidence gameId range service epoch with hcells
  have hunit : ∀ credit ∈ cells.filterMap (·.effectiveCredit), 0 ≤ credit ∧ credit ≤ 1 := by
    intro credit hcredit
    obtain ⟨cell, hcell, hcredit⟩ := List.mem_filterMap.mp hcredit
    obtain ⟨⟨round, cell'⟩, hgrid, rfl⟩ := List.mem_map.mp hcell
    have hmem := (List.of_mem_zip (mem_rows.mp (List.mem_filter.mp hgrid).1).1).2
    exact effectiveCredit_mem (db.seedState_mem gameId range service) hmem hcredit
  obtain ⟨hnonneg, hle⟩ := sum_mem_unit hunit
  have hlength : ((cells.filterMap (·.effectiveCredit)).length : ℚ) ≤ cells.length := by
    exact_mod_cast List.length_filterMap_le (·.effectiveCredit) cells
  have hticks : (db.evidenceRow gameId range service epoch).slaTickCount =
      (cells.length : ℤ) := rfl
  rw [hticks]
  exact ⟨hnonneg, hle.trans (by simpa using hlength)⟩

/-- The cells of the grid of a range: every frozen service in every epoch. -/
def grid : List (ℤ × ℤ × ℤ) :=
  (db.stableServices gameId range).flatMap fun service =>
    (db.epochIds gameId range).map fun epoch =>
      (service.participationId, service.challengeId, epoch)

theorem mem_grid {service : StableService} {epoch : ℤ}
    (hservice : service ∈ db.stableServices gameId range)
    (hepoch : epoch ∈ db.epochIds gameId range) :
    (service.participationId, service.challengeId, epoch) ∈ db.grid gameId range :=
  List.mem_flatMap.mpr ⟨service, hservice, List.mem_map_of_mem hepoch⟩

theorem grid_nodup : (db.grid gameId range).Nodup := by
  refine List.nodup_flatMap.mpr ⟨fun service _ => ?_, ?_⟩
  · exact (List.nodup_dedup _).map fun epoch epoch' h => (Prod.mk.inj (Prod.mk.inj h).2).2
  · refine List.Pairwise.imp ?_ (List.pairwise_map.mp (db.stableServiceKey_nodup gameId range))
    intro service service' hne cell hcell hcell'
    obtain ⟨epoch, -, rfl⟩ := List.mem_map.mp hcell
    obtain ⟨epoch', -, heq⟩ := List.mem_map.mp hcell'
    simp only [Prod.mk.injEq] at heq
    exact hne (Prod.ext heq.1.symm heq.2.1.symm)

/-- A column whose rows hold the groups of a table adds up to the table. -/
theorem sum_column {α M : Type*} [AddCommMonoid M] {key : α → ℤ × ℤ × ℤ} {f : α → M}
    {table : List α} (column : EvidenceAggregateRow → M)
    (hcolumn : ∀ service epoch, column (db.evidenceRow gameId range service epoch) =
      ((rows key (service.participationId, service.challengeId, epoch) table).map f).sum)
    (hcover : ∀ a ∈ table, key a ∈ db.grid gameId range) :
    ((db.loadEpochEvidence gameId range).map column).sum = (table.map f).sum := by
  have hrows : (db.evidenceRows gameId range).map column =
      (db.grid gameId range).map fun cell => ((rows key cell table).map f).sum := by
    simp [AdTables.evidenceRows, grid, List.map_flatMap, Function.comp_def, hcolumn]
  rw [← sum_rows f (db.grid_nodup gameId range) hcover, ← hrows]
  exact ((List.perm_insertionSort _ _).map column).sum_eq

theorem sum_captureCount :
    ((db.loadEpochEvidence gameId range).map (·.captureCount)).sum =
      (db.evidenceStatus gameId range).acceptedCapturesTotal := by
  have hcover : ∀ capture ∈ db.captureEvidence gameId range,
      AdTables.captureKey capture ∈ db.grid gameId range := by
    intro capture hcapture
    obtain ⟨-, attacker, hattacker, hkey⟩ := db.captureEvidence_flag gameId range hcapture
    obtain ⟨hflag, -⟩ := db.mem_qualifiedFlags gameId range (mem_join hcapture).2.1
    have hmem := db.mem_grid gameId range hattacker (db.mem_stableFlags gameId range hflag).1
    obtain ⟨hparticipation, hchallenge⟩ := Prod.mk.inj hkey
    rwa [hparticipation, hchallenge] at hmem
  have hcolumn : ∀ service epoch, (db.evidenceRow gameId range service epoch).captureCount =
      ((rows AdTables.captureKey (service.participationId, service.challengeId, epoch)
        (db.captureEvidence gameId range)).map fun _ => (1 : ℤ)).sum := by
    intro service epoch
    simp [AdTables.evidenceRow]
  have hflags : ((db.qualifiedFlags gameId range).map fun outcome =>
      ((rows (·.2.id) outcome.id (db.captureEvidence gameId range)).map fun _ => (1 : ℤ)).sum).sum =
        ((db.captureEvidence gameId range).map fun _ => (1 : ℤ)).sum := by
    have hcovered : ∀ capture ∈ db.captureEvidence gameId range,
        capture.2.id ∈ (db.qualifiedFlags gameId range).map (·.id) :=
      fun capture hcapture => List.mem_map_of_mem (mem_join hcapture).2.1
    have hsum := sum_rows (fun _ => (1 : ℤ)) (db.qualifiedFlagId_nodup gameId range) hcovered
    rwa [List.map_map] at hsum
  rw [db.sum_column gameId range _ hcolumn hcover, ← hflags]
  refine congrArg List.sum (List.map_congr_left fun outcome houtcome => ?_)
  rw [← db.length_rows_captureEvidence gameId range houtcome]
  simp

theorem sum_defenseColumn (f : FlagOutcome → ℤ) (column : EvidenceAggregateRow → ℤ)
    (hcolumn : ∀ service epoch, column (db.evidenceRow gameId range service epoch) =
      ((rows (·.victimKey) (service.participationId, service.challengeId, epoch)
        (db.defenseEvidence gameId range)).map f).sum) :
    ((db.loadEpochEvidence gameId range).map column).sum =
      ((db.defenseEvidence gameId range).map f).sum := by
  refine db.sum_column gameId range column hcolumn fun outcome houtcome => ?_
  obtain ⟨hflag, -⟩ := db.mem_qualifiedFlags gameId range (List.mem_filter.mp houtcome).1
  obtain ⟨hepoch, victim, hvictim, hkey⟩ := db.mem_stableFlags gameId range hflag
  obtain ⟨hparticipation, hchallenge⟩ := Prod.mk.inj hkey
  have hmem := db.mem_grid gameId range hvictim hepoch
  rwa [hparticipation, hchallenge] at hmem

theorem mem_loadEpochEvidence {row : EvidenceAggregateRow}
    (h : row ∈ db.loadEpochEvidence gameId range) :
    ∃ service ∈ db.stableServices gameId range, ∃ epoch ∈ db.epochIds gameId range,
      row = db.evidenceRow gameId range service epoch := by
  obtain ⟨service, hservice, hrow⟩ := List.mem_flatMap.mp ((List.mem_insertionSort _).mp h)
  obtain ⟨epoch, hepoch, rfl⟩ := List.mem_map.mp hrow
  exact ⟨service, hservice, epoch, hepoch, rfl⟩

/-- No row of the evidence query exceeds its opportunities, and the captures and the
defended flags of all rows add up to the totals which every row repeats. -/
theorem loadEpochEvidence_conserves :
    ∀ row ∈ db.loadEpochEvidence gameId range,
      (0 ≤ row.captureCount ∧ row.captureCount ≤ row.opportunityCount) ∧
      (0 ≤ row.raritySum ∧ row.raritySum ≤ row.captureCount) ∧
      (0 ≤ row.protectedOpportunityCount ∧
        row.protectedOpportunityCount ≤ row.defenseOpportunityCount) ∧
      (0 ≤ row.slaCreditSum ∧ row.slaCreditSum ≤ row.slaTickCount) ∧
      ((db.loadEpochEvidence gameId range).map (·.captureCount)).sum =
        row.acceptedCapturesTotal ∧
      ((db.loadEpochEvidence gameId range).map (·.defenseOpportunityCount)).sum =
        row.defenseOpportunitiesTotal ∧
      ((db.loadEpochEvidence gameId range).map (·.protectedOpportunityCount)).sum =
        row.protectedOpportunitiesTotal := by
  intro row hrow
  obtain ⟨service, hservice, epoch, hepoch, rfl⟩ := db.mem_loadEpochEvidence gameId range hrow
  refine ⟨⟨Int.natCast_nonneg _, db.captureCount_le_opportunityCount gameId range service epoch⟩,
    db.raritySum_mem gameId range service epoch,
    db.protectedOpportunityCount_mem gameId range service epoch,
    db.slaCreditSum_mem gameId range service epoch, db.sum_captureCount gameId range, ?_, ?_⟩
  · exact db.sum_defenseColumn gameId range _ _ fun _ _ => rfl
  · exact db.sum_defenseColumn gameId range _ _ fun _ _ => rfl

/-- Every row passes the validation of the scoring formula. -/
theorem loadEpochEvidence_valid :
    ∀ row ∈ db.loadEpochEvidence gameId range, row.Valid := by
  intro row hrow
  obtain ⟨service, hservice, epoch, -, rfl⟩ := db.mem_loadEpochEvidence gameId range hrow
  exact ⟨(db.raritySum_mem gameId range service epoch).1,
    (db.slaCreditSum_mem gameId range service epoch).1,
    db.stableService_weight gameId range hservice⟩

/-- The rows form the complete grid of the frozen roster and the epochs of the range. -/
theorem loadEpochEvidence_grid :
    ((db.loadEpochEvidence gameId range).map fun row =>
      (row.participationId, row.challengeId, row.epoch)).Perm (db.grid gameId range) := by
  have hrows : (db.evidenceRows gameId range).map (fun row =>
      (row.participationId, row.challengeId, row.epoch)) = db.grid gameId range := by
    simp [AdTables.evidenceRows, grid, List.map_flatMap, Function.comp_def, AdTables.evidenceRow]
  rw [← hrows]
  exact (List.perm_insertionSort _ _).map _

/-- Two teams with one service each; the second one captures the flag of the first. -/
def duel : AdDatabase where
  rounds := [⟨1, 7, 1, 0⟩]
  flags := [⟨11, 1, 21, true, 1⟩, ⟨12, 1, 22, true, 1⟩]
  teamServices := [⟨21, 7, 31, 41⟩, ⟨22, 7, 32, 41⟩]
  checkResults := [⟨1, 21, .ok, none, 5, some 1, true⟩, ⟨1, 22, .offline, none, 5, some 0, false⟩]
  flagDeliveryResults := [⟨1, 21, true, 1⟩]
  attacks := [⟨11, 32, 9⟩]
  participations := [⟨31, 7, 51⟩, ⟨32, 7, 52⟩]
  teams := [51, 52]
  gameChallenges := [⟨41, 7⟩]
  rollups := fun _ => .empty
  roundId_nodup := by decide
  roundNumber_nodup := by decide
  flagId_nodup := by decide
  flagKey_nodup := by decide
  flagServiceWeight_mem := by decide +kernel
  teamServiceId_nodup := by decide
  teamServiceKey_nodup := by decide
  checkResultKey_nodup := by decide
  flagDeliveryKey_nodup := by decide
  participationId_nodup := by decide
  gameChallengeId_nodup := by decide
  closingSlaCredit_mem := by simp [RollupStore.empty]

def duelRange : EvidenceRange := ⟨1, 1, none, 8, none, none, none, false⟩

/-- The evidence row of the second team. -/
def duelRow : EvidenceAggregateRow :=
  ⟨32, 41, 1, 1, 1, 1, 0, 0, 0, 0, 1, 1, 1, 1, 1, 0, some .offline, some 0⟩

theorem loadEpochEvidence_conserves_duel :
    ((duel.loadEpochEvidence 7 duelRange).map (·.captureCount)).sum = 1 ∧
      ((duel.loadEpochEvidence 7 duelRange).map (·.defenseOpportunityCount)).sum = 1 ∧
      ((duel.loadEpochEvidence 7 duelRange).map (·.protectedOpportunityCount)).sum = 0 :=
  (loadEpochEvidence_conserves duel 7 duelRange duelRow (by decide +kernel)).2.2.2.2

end AdDatabase

end AttackDefense

end Rsctf
