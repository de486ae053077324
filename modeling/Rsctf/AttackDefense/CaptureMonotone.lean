import Rsctf.AttackDefense.BoardOrder
import Rsctf.AttackDefense.CaptureEvidence
import Rsctf.AttackDefense.PublicBoard

/-!
# Capture monotonicity

One more capture is recorded in a contest whose epochs are all read raw.  The attacker
gains, everybody else loses before the normalization, and after it as long as no field
best falls.  A field best can fall: a flag which begins to count by its first capture
dilutes the coverage of a team which led the field without it.
-/

open Keyed Guarded
open List (Forall₂)

namespace Rsctf

namespace AttackDefense

section Rates

theorem countRate_eq (numerator denominator : ℕ) :
    countRate numerator denominator = (numerator : ℚ) / denominator := by
  unfold countRate
  split
  · next hzero => rw [hzero, Nat.cast_zero, div_zero]
  · rfl

theorem valueRate_eq (numerator : ℚ) (denominator : ℕ) :
    valueRate numerator denominator = numerator / denominator := by
  unfold valueRate
  split
  · next hzero => rw [hzero, Nat.cast_zero, div_zero]
  · rfl

theorem cast_toNat_count {value : ℤ} (h : 0 ≤ value) : ((count value).toNat : ℚ) = value := by
  rw [toNat_count]
  exact_mod_cast Int.toNat_of_nonneg h

/-- One more success among one more trial, when the earlier ones were worth no more. -/
theorem div_le_div_succ {n d w : ℚ} (hn : 0 ≤ n) (hw : 0 ≤ w) (hd : 0 ≤ d) (h : n ≤ d * w) :
    n / d ≤ (n + w) / (d + 1) := by
  rcases hd.eq_or_lt with rfl | hpos
  · rw [div_zero]
    positivity
  · rw [div_le_div_iff₀ hpos (by linarith)]
    linarith

theorem div_le_div_of_bounded {n n' d d' : ℚ} (hn' : 0 ≤ n') (h : n' ≤ n) (hn : n ≤ d)
    (hd : d ≤ d') : n' / d' ≤ n / d := by
  have hnonneg : 0 ≤ d := hn'.trans (h.trans hn)
  rcases hnonneg.eq_or_lt with rfl | hpos
  · have hzero : n' = 0 := le_antisymm (h.trans hn) hn'
    rw [hzero, zero_div, div_zero]
  · exact div_le_div₀ (hn'.trans h) h hpos hd

/-- The counts of a row are those of an evidence query. -/
structure EvidenceAggregateRow.Counted (row : EvidenceAggregateRow) : Prop where
  captureCount_nonneg : 0 ≤ row.captureCount
  captureCount_le : row.captureCount ≤ row.opportunityCount
  raritySum_nonneg : 0 ≤ row.raritySum
  raritySum_le : row.raritySum ≤ row.captureCount
  protectedOpportunityCount_nonneg : 0 ≤ row.protectedOpportunityCount
  protectedOpportunityCount_le : row.protectedOpportunityCount ≤ row.defenseOpportunityCount

variable {sqrt : ℚ → ℚ} {row row' : EvidenceAggregateRow}

theorem EvidenceAggregateRow.Counted.offenseRate (h : row.Counted) :
    (row.score sqrt).offenseRate = clamp 0 1 ((row.captureCount : ℚ) / row.opportunityCount +
      rarityCoefficient * (row.raritySum / row.opportunityCount)) := by
  have hopportunity : 0 ≤ row.opportunityCount := h.captureCount_nonneg.trans h.captureCount_le
  rw [score, epochServiceScore, countRate_eq, valueRate_eq, serviceEvidence,
    cast_toNat_count h.captureCount_nonneg, cast_toNat_count hopportunity]

theorem EvidenceAggregateRow.Counted.defenseRate (h : row.Counted) :
    (row.score sqrt).defenseRate =
      clamp 0 1 ((row.protectedOpportunityCount : ℚ) / row.defenseOpportunityCount) := by
  have hopportunity : 0 ≤ row.defenseOpportunityCount :=
    h.protectedOpportunityCount_nonneg.trans h.protectedOpportunityCount_le
  rw [score, epochServiceScore, countRate_eq, countRate_eq, serviceEvidence,
    cast_toNat_count h.protectedOpportunityCount_nonneg, cast_toNat_count hopportunity]

theorem offenseRate_le_of_gains (h : row.Counted) (h' : row'.Counted)
    (hgains : AdDatabase.Gains row row') :
    (row.score sqrt).offenseRate ≤ (row'.score sqrt).offenseRate := by
  have hcaptures : (0 : ℚ) ≤ row.captureCount := by exact_mod_cast h.captureCount_nonneg
  have hle : (row.captureCount : ℚ) ≤ row.opportunityCount := by exact_mod_cast h.captureCount_le
  have hopportunity : (0 : ℚ) ≤ row.opportunityCount := hcaptures.trans hle
  rw [h.offenseRate, h'.offenseRate]
  refine clamp_mono 0 1 ?_
  rcases hgains.2 with ⟨hopp, hcap, hrar⟩ | ⟨worth, hworth, hcap, hrar, hopp | ⟨hopp, hbound⟩⟩
  · rw [hopp, hcap, hrar]
  · rw [hopp, hcap, hrar]
    refine add_le_add (div_le_div_of_nonneg_right (by linarith) hopportunity) ?_
    refine mul_le_mul_of_nonneg_left ?_ (by norm_num [rarityCoefficient])
    exact div_le_div_of_nonneg_right (by linarith) hopportunity
  · rw [hopp, hcap, hrar]
    refine add_le_add (div_le_div_succ hcaptures zero_le_one hopportunity (by linarith)) ?_
    refine mul_le_mul_of_nonneg_left ?_ (by norm_num [rarityCoefficient])
    exact div_le_div_succ h.raritySum_nonneg hworth hopportunity hbound

theorem offenseRate_le_of_diluted (h : row.Counted) (h' : row'.Counted)
    (hopportunity : (row.opportunityCount : ℚ) ≤ row'.opportunityCount)
    (hcaptures : (row'.captureCount : ℚ) = row.captureCount)
    (hrarity : row'.raritySum ≤ row.raritySum) :
    (row'.score sqrt).offenseRate ≤ (row.score sqrt).offenseRate := by
  have hnonneg : (0 : ℚ) ≤ row.captureCount := by exact_mod_cast h.captureCount_nonneg
  have hle : (row.captureCount : ℚ) ≤ row.opportunityCount := by exact_mod_cast h.captureCount_le
  rw [h.offenseRate, h'.offenseRate, hcaptures]
  refine clamp_mono 0 1 (add_le_add ?_ (mul_le_mul_of_nonneg_left ?_
    (by norm_num [rarityCoefficient])))
  · exact div_le_div_of_bounded hnonneg le_rfl hle hopportunity
  · exact div_le_div_of_bounded h'.raritySum_nonneg hrarity (h.raritySum_le.trans hle) hopportunity

theorem defenseRate_le (h : row.Counted) (h' : row'.Counted)
    (hopportunity : (row'.defenseOpportunityCount : ℚ) = row.defenseOpportunityCount)
    (hprotected : (row.protectedOpportunityCount : ℚ) ≤ row'.protectedOpportunityCount) :
    (row.score sqrt).defenseRate ≤ (row'.score sqrt).defenseRate := by
  have hnonneg : (0 : ℚ) ≤ row.defenseOpportunityCount := by
    exact_mod_cast h.protectedOpportunityCount_nonneg.trans h.protectedOpportunityCount_le
  rw [h.defenseRate, h'.defenseRate, hopportunity]
  exact clamp_mono 0 1 (div_le_div_of_nonneg_right hprotected hnonneg)

end Rates

namespace AdDatabase

variable (db : AdDatabase) (gameId : ℤ) (range : EvidenceRange) {attack : AdAttack}
  {sqrt : ℚ → ℚ}

theorem evidenceRow_counted (service : StableService) (epoch : ℤ) :
    (db.evidenceRow gameId range service epoch).Counted where
  captureCount_nonneg := Int.natCast_nonneg _
  captureCount_le := db.captureCount_le_opportunityCount gameId range service epoch
  raritySum_nonneg := (db.raritySum_mem gameId range service epoch).1
  raritySum_le := (db.raritySum_mem gameId range service epoch).2
  protectedOpportunityCount_nonneg :=
    (db.protectedOpportunityCount_mem gameId range service epoch).1
  protectedOpportunityCount_le := (db.protectedOpportunityCount_mem gameId range service epoch).2

theorem evidenceRow_valid {service : StableService} (h : service ∈ db.stableServices gameId range)
    (epoch : ℤ) : (db.evidenceRow gameId range service epoch).Valid :=
  ⟨(db.raritySum_mem gameId range service epoch).1,
    (db.slaCreditSum_mem gameId range service epoch).1, db.stableService_weight gameId range h⟩

/-- A capture lifts the rows of its attacker. -/
theorem evidenceRow_rises (hsqrt : MonotoneOn sqrt (Set.Icc 0 1)) {service : StableService}
    (h : service ∈ db.stableServices gameId range)
    (hservice : service.participationId = attack.attackerParticipationId) (epoch : ℤ) :
    (db.evidenceRow gameId range service epoch).Below sqrt
      ((db.capture attack).evidenceRow gameId range service epoch) where
  challengeId := rfl
  serviceWeight := rfl
  valid := db.evidenceRow_valid gameId range h epoch
  valid' := (db.capture attack).evidenceRow_valid gameId range h epoch
  localPoints := by
    have hgains := db.captures_capture_attacker gameId range hservice epoch
    have hcounted := db.evidenceRow_counted gameId range service epoch
    have hcounted' := (db.capture attack).evidenceRow_counted gameId range service epoch
    refine epochServiceScore_localPoints_mono hsqrt ?_ ?_ rfl
    · exact offenseRate_le_of_gains hcounted hcounted' hgains
    · exact defenseRate_le hcounted hcounted'
        (db.defenseOpportunityCount_capture gameId range service epoch) hgains.1.ge

/-- A capture lowers the rows of everyone else. -/
theorem evidenceRow_falls (hsqrt : MonotoneOn sqrt (Set.Icc 0 1)) {service : StableService}
    (h : service ∈ db.stableServices gameId range)
    (hservice : service.participationId ≠ attack.attackerParticipationId) (epoch : ℤ) :
    ((db.capture attack).evidenceRow gameId range service epoch).Below sqrt
      (db.evidenceRow gameId range service epoch) where
  challengeId := rfl
  serviceWeight := rfl
  valid := (db.capture attack).evidenceRow_valid gameId range h epoch
  valid' := db.evidenceRow_valid gameId range h epoch
  localPoints := by
    obtain ⟨hcaptures, hrarity⟩ := db.captures_capture_other gameId range hservice epoch
    have hcounted := db.evidenceRow_counted gameId range service epoch
    have hcounted' := (db.capture attack).evidenceRow_counted gameId range service epoch
    refine epochServiceScore_localPoints_mono hsqrt ?_ ?_ rfl
    · exact offenseRate_le_of_diluted hcounted hcounted'
        (db.opportunityCount_capture gameId range service epoch) hcaptures hrarity
    · exact defenseRate_le hcounted' hcounted
        (db.defenseOpportunityCount_capture gameId range service epoch).symm
        (db.protectedOpportunityCount_capture gameId range service epoch)

/-- The frozen services of a range in each of its epochs. -/
def cells : List (StableService × ℤ) :=
  (db.stableServices gameId range).flatMap fun service =>
    (db.epochIds gameId range).map fun epoch => (service, epoch)

theorem get_loadEpochEvidence (key : ℤ × ℤ × ℤ) :
    get EvidenceAggregateRow.epochKey key (db.loadEpochEvidence gameId range) =
      (get (fun cell : StableService × ℤ => (cell.1.participationId, cell.1.challengeId, cell.2))
        key (db.cells gameId range)).map fun cell =>
          db.evidenceRow gameId range cell.1 cell.2 := by
  have hnd : ((db.loadEpochEvidence gameId range).map EvidenceAggregateRow.epochKey).Nodup :=
    (db.loadEpochEvidence_grid gameId range).nodup_iff.mpr (db.grid_nodup gameId range)
  have hrows : db.evidenceRows gameId range = (db.cells gameId range).map fun cell =>
      db.evidenceRow gameId range cell.1 cell.2 := by
    simp [AdTables.evidenceRows, cells, List.map_flatMap, Function.comp_def]
  have hperm : (db.loadEpochEvidence gameId range).Perm (db.evidenceRows gameId range) :=
    List.perm_insertionSort _ _
  rw [get_perm hperm hnd, hrows, get_map]
  rfl

/-- A lookup finds related rows before and after a capture. -/
theorem get_capture {R : EvidenceAggregateRow → EvidenceAggregateRow → Prop} (key : ℤ × ℤ × ℤ)
    (h : ∀ service ∈ db.stableServices gameId range, ∀ epoch, service.participationId = key.1 →
      R (db.evidenceRow gameId range service epoch)
        ((db.capture attack).evidenceRow gameId range service epoch)) :
    Option.Rel R (get EvidenceAggregateRow.epochKey key (db.loadEpochEvidence gameId range))
      (get EvidenceAggregateRow.epochKey key
        ((db.capture attack).loadEpochEvidence gameId range)) := by
  have hcells : (db.capture attack).cells gameId range = db.cells gameId range := rfl
  rw [get_loadEpochEvidence, get_loadEpochEvidence, hcells]
  cases hget : get (fun cell : StableService × ℤ =>
      (cell.1.participationId, cell.1.challengeId, cell.2)) key (db.cells gameId range) with
  | none => exact .none
  | some cell =>
      obtain ⟨hmem, hkey⟩ := mem_of_get hget
      obtain ⟨service, hservice, hepoch⟩ := List.mem_flatMap.mp hmem
      obtain ⟨epoch, _, rfl⟩ := List.mem_map.mp hepoch
      exact .some (h service hservice epoch (congrArg Prod.fst hkey))

theorem teamEvidence_capture {R : EvidenceAggregateRow → EvidenceAggregateRow → Prop}
    {participationId : ℤ} {teamServices : List StableServiceRow}
    (hteam : ∀ service ∈ teamServices, service.participationId = participationId) (epoch : ℤ)
    (h : ∀ service ∈ db.stableServices gameId range, ∀ epoch,
      service.participationId = participationId →
        R (db.evidenceRow gameId range service epoch)
          ((db.capture attack).evidenceRow gameId range service epoch)) :
    Forall₂ R (teamEvidence (db.loadEpochEvidence gameId range) teamServices epoch)
      (teamEvidence ((db.capture attack).loadEpochEvidence gameId range) teamServices epoch) :=
  Related.filterMap_same fun service hservice => db.get_capture gameId range _
    fun stable hstable epoch hkey => h stable hstable epoch (hkey.trans (hteam service hservice))

end AdDatabase

section Rows

variable {sqrt : ℚ → ℚ} {clock : BoardClock}

/-- The raw epochs of a team whose evidence passes validation. -/
def validEpochs (sqrt : ℚ → ℚ) (clock : BoardClock) (epochMetas : List EpochMetaRow)
    (evidence : List EvidenceAggregateRow) (teamServices : List StableServiceRow) :
    List ScoredEpoch :=
  epochMetas.map fun epochMeta => scoredEpoch clock epochMeta
    ((teamEvidence evidence teamServices epochMeta.epoch).map fun row =>
      scoredService row (row.score sqrt))

/-- The board row of a team whose evidence passes validation. -/
def validRow (sqrt : ℚ → ℚ) (clock : BoardClock) (services : List StableServiceRow)
    (snapshot : RollupSnapshot) (epochMetas : List EpochMetaRow)
    (evidence : List EvidenceAggregateRow) (latestChecks : List LatestCheckStatusRow)
    (team : StableServiceRow) : AdTeamScore :=
  let teamServices := rows (·.participationId) team.participationId services
  teamRow snapshot latestChecks team teamServices
    (validEpochs sqrt clock epochMetas evidence teamServices)

theorem teamRows_of_valid (services : List StableServiceRow) (snapshot : RollupSnapshot)
    (epochMetas : List EpochMetaRow) {evidence : List EvidenceAggregateRow}
    (latestChecks : List LatestCheckStatusRow) (h : ∀ row ∈ evidence, row.Valid) :
    teamRows sqrt clock services snapshot epochMetas evidence latestChecks =
      .ok ((rosterTeams services).map
        (validRow sqrt clock services snapshot epochMetas evidence latestChecks)) := by
  refine Fallible.mapM_eq_ok_map fun team _ => ?_
  have hepochs : scoreEpochs sqrt clock epochMetas evidence
      (rows (·.participationId) team.participationId services) =
        .ok (validEpochs sqrt clock epochMetas evidence
          (rows (·.participationId) team.participationId services)) := by
    refine Fallible.mapM_eq_ok_map fun epochMeta _ => ?_
    rw [scoreServices_of_valid]
    · rfl
    · intro row hrow
      obtain ⟨service, _, hget⟩ := List.mem_filterMap.mp hrow
      exact h row (mem_of_get hget).1
  dsimp only
  rw [hepochs]
  rfl

theorem validEpochs_below (hticks : 0 < clock.epochTicks) {epochMetas : List EpochMetaRow}
    (hcount : ∀ epochMeta ∈ epochMetas, 0 ≤ epochMeta.roundCount)
    {evidence evidence' : List EvidenceAggregateRow} {teamServices : List StableServiceRow}
    (h : ∀ epoch, Forall₂ (EvidenceAggregateRow.Below sqrt)
      (teamEvidence evidence teamServices epoch) (teamEvidence evidence' teamServices epoch)) :
    Forall₂ ScoredEpoch.Below (validEpochs sqrt clock epochMetas evidence teamServices)
      (validEpochs sqrt clock epochMetas evidence' teamServices) := by
  refine List.forall₂_map_left_iff.mpr (List.forall₂_map_right_iff.mpr (List.forall₂_same.mpr ?_))
  exact fun epochMeta hmeta =>
    scoredEpoch_below clock hticks (hcount epochMeta hmeta) (scoredServices_below (h _))

theorem rosterTeams_participationId (services : List StableServiceRow) :
    ((rosterTeams services).map (·.participationId)).Nodup := by
  have hnd : ((sortedKeys (services.map (·.participationId))).map id).Nodup := by
    rw [List.map_id]
    exact nodup_sortedKeys _
  exact nodup_filterMap hnd fun participationId service hget => (mem_of_get hget).2

theorem validRow_challengeId (services : List StableServiceRow) (snapshot : RollupSnapshot)
    (epochMetas : List EpochMetaRow) (evidence : List EvidenceAggregateRow)
    (latestChecks : List LatestCheckStatusRow) (team : StableServiceRow)
    (hnd : (services.map StableServiceRow.key).Nodup) :
    ((validRow sqrt clock services snapshot epochMetas evidence latestChecks team).services.map
      (·.challengeId)).Nodup := by
  have hids : (validRow sqrt clock services snapshot epochMetas evidence latestChecks
      team).services.map (·.challengeId) =
        (rows (·.participationId) team.participationId services).map (·.challengeId) := by
    simp only [validRow, teamRow, List.map_map]
    rfl
  rw [hids]
  refine List.Nodup.map_on ?_ ((hnd.of_map _).filter _)
  intro service hservice service' hservice' hchallenge
  obtain ⟨hmem, hid⟩ := mem_rows.mp hservice
  obtain ⟨hmem', hid'⟩ := mem_rows.mp hservice'
  exact List.inj_on_of_nodup_map hnd hmem hmem' (Prod.ext (hid.trans hid'.symm) hchallenge)

end Rows

section Board

variable (sqrt : ℚ → ℚ) (game : AdScoreboardGameRow) (setup : AdSetup) (history : AdHistory)
  (startRound : ℤ) (cutoff : Option ℤ) (ended : Bool)

/-- The history after one more attack was accepted. -/
def AdHistory.capture (history : AdHistory) (attack : AdAttack) : AdHistory :=
  { history with attacks := attack :: history.attacks }

/-- The rows of a board which reads every epoch raw, before they are normalized. -/
def rawTeamRows : Except AppError (List AdTeamScore) := do
  let read ← loadBoardEvidence game setup history (fun _ => .empty) startRound cutoff ended
  let clock := roundClock game history cutoff ended
  teamRows sqrt
    ⟨game.clampedEpochTicks, game.lifetimeTicks, ended, (clock.map (·.number)).getD 0⟩
    read.services read.snapshot read.epochMetas read.aggregateRows read.latestChecks

/-- The rows after normalization, and the challenges with their field bests. -/
def officialRows (rows : List AdTeamScore) : List AdTeamScore × List AdScoreboardChallenge :=
  applyFieldBestNormalization rows
    ((setup.challengeRows game.id).map (·.toAdScoreboardChallenge))

/-- A board which read every epoch raw ranks the official rows. -/
theorem assembleAdScoreboard_teams {isMonitor : Bool} {now : ℤ} {read : BoardEvidence}
    {board : AdScoreboard}
    (hread : loadBoardEvidence game setup history (fun _ => .empty) startRound cutoff
      (decide (game.endTimeUtc ≤ now)) = .ok read)
    (hboard : assembleAdScoreboard sqrt game setup isMonitor now
      (roundClock game history cutoff (decide (game.endTimeUtc ≤ now))) read = .ok board) :
    ∃ rows, rawTeamRows sqrt game setup history startRound cutoff
        (decide (game.endTimeUtc ≤ now)) = .ok rows ∧
      board.teams = sortAndRankTeamRows (officialRows game setup rows).1 := by
  simp only [assembleAdScoreboard, Fallible.bind_eq_ok_iff, Fallible.pure_eq_ok_iff] at hboard
  obtain ⟨rows, hrows, rfl⟩ := hboard
  refine ⟨rows, ?_, rfl⟩
  rw [rawTeamRows, hread]
  exact hrows

variable {sqrt game setup history startRound cutoff ended}

theorem loadStableServices_key_nodup {db : AdDatabase}
    (hdb : db.toAdTables = setup.tables history fun _ => .empty) (gameId : ℤ) :
    ((loadStableServices setup history gameId startRound cutoff ended).map
      StableServiceRow.key).Nodup := by
  have hflagKey : (history.flags.map fun flag => (flag.roundId, flag.teamServiceId)).Nodup := by
    have hnd := db.flagKey_nodup
    rwa [hdb] at hnd
  have hserviceKey : (setup.teamServices.map fun service =>
      (service.participationId, service.challengeId)).Nodup := by
    have hnd := db.teamServiceKey_nodup
    rwa [hdb] at hnd
  have hsome : ∀ flag service, setup.stableServiceRow flag = some service →
      service.teamServiceId = flag.teamServiceId ∧ ∃ source ∈ setup.teamServices,
        source.id = service.teamServiceId ∧
          (source.participationId, source.challengeId) = service.key := by
    intro flag service h
    simp only [AdSetup.stableServiceRow, Option.bind_eq_bind, Option.bind_eq_some_iff,
      Option.pure_def, Option.some.injEq] at h
    obtain ⟨source, hsource, _, _, _, _, _, _, rfl⟩ := h
    have hid := List.find?_some hsource
    exact ⟨by simpa using hid, source, List.mem_of_find?_eq_some hsource, rfl, rfl⟩
  unfold loadStableServices
  split
  · simp
  · next round _ =>
      refine ((List.perm_insertionSort _ _).map _).nodup_iff.mpr ?_
      have hrows : ((rows (·.roundId) round.id history.flags).map (·.teamServiceId)).Nodup := by
        refine List.Nodup.map_on ?_ ((hflagKey.of_map _).filter _)
        intro flag hflag flag' hflag' heq
        obtain ⟨hmem, hround⟩ := mem_rows.mp hflag
        obtain ⟨hmem', hround'⟩ := mem_rows.mp hflag'
        exact List.inj_on_of_nodup_map hflagKey hmem hmem'
          (Prod.ext (hround.trans hround'.symm) heq)
      have hids := nodup_filterMap hrows fun flag service h => (hsome flag service h).1
      refine List.Nodup.map_on ?_ (hids.of_map _)
      intro service hservice service' hservice' hkey
      obtain ⟨flag, _, hflag⟩ := List.mem_filterMap.mp hservice
      obtain ⟨flag', _, hflag'⟩ := List.mem_filterMap.mp hservice'
      obtain ⟨-, source, hmem, hid, hsourceKey⟩ := hsome flag service hflag
      obtain ⟨-, source', hmem', hid', hsourceKey'⟩ := hsome flag' service' hflag'
      have hsame : source = source' := List.inj_on_of_nodup_map hserviceKey hmem hmem'
        ((hsourceKey.trans hkey).trans hsourceKey'.symm)
      exact List.inj_on_of_nodup_map hids hservice hservice' (by rw [← hid, ← hid', hsame])

/-- The same reading with other evidence rows. -/
def BoardEvidence.reading (read : BoardEvidence) (evidence : List EvidenceAggregateRow) :
    BoardEvidence :=
  { read with aggregateRows := evidence }

/-- A capture only changes the evidence rows which a board reads. -/
theorem loadBoardEvidence_capture {read : BoardEvidence}
    (h : loadBoardEvidence game setup history (fun _ => .empty) startRound cutoff ended =
      .ok read) :
    read.services = loadStableServices setup history game.id startRound cutoff ended ∧
      ∃ range, read.epochMetas = loadEpochMeta setup history game.id range ∧
        read.aggregateRows =
          (setup.tables history fun _ => .empty).loadEpochEvidence game.id range ∧
        ∀ attack, loadBoardEvidence game setup (history.capture attack) (fun _ => .empty)
            startRound cutoff ended = .ok (read.reading
          ((setup.tables (history.capture attack) fun _ => .empty).loadEpochEvidence
            game.id range)) := by
  unfold loadBoardEvidence at h
  dsimp only at h
  split at h
  · cases h
  · next hblocked =>
      cases h
      exact ⟨rfl, _, rfl, rfl, fun attack => if_neg hblocked⟩

/-- One more capture lifts the unnormalized row of its attacker and lowers the others. -/
theorem rawTeamRows_capture {db : AdDatabase}
    (hdb : db.toAdTables = setup.tables history fun _ => .empty)
    (hsqrt : MonotoneOn sqrt (Set.Icc 0 1)) (attack : AdAttack) {rows : List AdTeamScore}
    (h : rawTeamRows sqrt game setup history startRound cutoff ended = .ok rows) :
    (rows.map (·.participationId)).Nodup ∧
      (∀ row ∈ rows, (row.services.map (·.challengeId)).Nodup) ∧
      ∃ rows', rawTeamRows sqrt game setup (history.capture attack) startRound cutoff ended =
          .ok rows' ∧
        Forall₂ (Shifted attack.attackerParticipationId) rows rows' := by
  obtain ⟨read, hread, hrows⟩ := Fallible.bind_eq_ok_iff.mp h
  obtain ⟨hservices, range, hmetas, hevidence, hread'⟩ := loadBoardEvidence_capture hread
  have hdb' : (db.capture attack).toAdTables =
      setup.tables (history.capture attack) fun _ => .empty :=
    congrArg (fun tables : AdTables => { tables with attacks := attack :: tables.attacks }) hdb
  have hvalid : ∀ row ∈ read.aggregateRows, row.Valid := by
    rw [hevidence, ← hdb]
    exact db.loadEpochEvidence_valid game.id range
  have hvalid' := (db.capture attack).loadEpochEvidence_valid game.id range
  rw [hdb'] at hvalid'
  have hnd : (read.services.map StableServiceRow.key).Nodup := by
    rw [hservices]
    exact loadStableServices_key_nodup hdb game.id
  have hcount : ∀ epochMeta ∈ read.epochMetas, 0 ≤ epochMeta.roundCount := by
    rw [hmetas]
    intro epochMeta hmeta
    obtain ⟨epoch, _, rfl⟩ := List.mem_map.mp hmeta
    exact Int.natCast_nonneg _
  have hticks : 0 < game.clampedEpochTicks := by
    unfold AdScoreboardGameRow.clampedEpochTicks
    omega
  set clock : BoardClock := ⟨game.clampedEpochTicks, game.lifetimeTicks, ended,
    ((roundClock game history cutoff ended).map (·.number)).getD 0⟩ with hclock
  dsimp only at hrows
  rw [← hclock, teamRows_of_valid _ _ _ _ hvalid] at hrows
  obtain rfl := Except.ok.inj hrows
  have hrows' : rawTeamRows sqrt game setup (history.capture attack) startRound cutoff ended =
      .ok ((rosterTeams read.services).map (validRow sqrt clock read.services read.snapshot
        read.epochMetas ((setup.tables (history.capture attack) fun _ => .empty).loadEpochEvidence
          game.id range) read.latestChecks)) := by
    rw [rawTeamRows, hread' attack]
    exact teamRows_of_valid _ _ _ _ hvalid'
  refine ⟨?_, ?_, _, hrows', ?_⟩
  · rw [List.map_map]
    exact rosterTeams_participationId read.services
  · intro row hrow
    obtain ⟨team, _, rfl⟩ := List.mem_map.mp hrow
    exact validRow_challengeId _ _ _ _ _ _ hnd
  · refine List.forall₂_map_left_iff.mpr (List.forall₂_map_right_iff.mpr
      (List.forall₂_same.mpr fun team _ => ?_))
    have hteam : ∀ service ∈ rows (·.participationId) team.participationId read.services,
        service.participationId = team.participationId :=
      fun service hservice => (mem_rows.mp hservice).2
    rw [hevidence, ← hdb, ← hdb']
    constructor
    · intro hattacker
      refine teamRow_below _ _ _ _ (validEpochs_below hticks hcount fun epoch => ?_)
      exact db.teamEvidence_capture game.id range hteam epoch fun service hservice epoch hid =>
        db.evidenceRow_rises game.id range hsqrt hservice (hid.trans hattacker) epoch
    · intro hother
      refine teamRow_below _ _ _ _ (validEpochs_below hticks hcount fun epoch => ?_)
      have hne : ∀ service : StableService, service.participationId = team.participationId →
          service.participationId ≠ attack.attackerParticipationId :=
        fun service hid h => hother (hid.symm.trans h)
      have hfalls : Forall₂ (fun row row' => EvidenceAggregateRow.Below sqrt row' row) _ _ :=
        db.teamEvidence_capture game.id range hteam epoch fun service hservice epoch hid =>
          db.evidenceRow_falls game.id range hsqrt hservice (hne service hid) epoch
      exact hfalls.flip

/-- What one more capture does to the scores: the official total of the attacker does not
fall, the unnormalized totals of the others do not rise, and neither do their official
totals unless a field best falls. -/
structure CaptureMonotone (game : AdScoreboardGameRow) (setup : AdSetup) (attacker : ℤ)
    (rows rows' : List AdTeamScore) : Prop where
  same_teams : rows'.map (·.participationId) = rows.map (·.participationId)
  attacker_official : ∀ horizon, Forall₂ (fun row row' => row.participationId = attacker →
      row.total horizon ≤ row'.total horizon)
    (officialRows game setup rows).1 (officialRows game setup rows').1
  others_raw : ∀ horizon, Forall₂ (fun row row' => row.participationId ≠ attacker →
    row'.total horizon ≤ row.total horizon) rows rows'
  others_official : ∀ horizon, Forall₂ (fun challenge challenge' =>
      challenge.fieldBest horizon ≤ challenge'.fieldBest horizon)
      (officialRows game setup rows).2 (officialRows game setup rows').2 →
    Forall₂ (fun row row' => row.participationId ≠ attacker →
        row'.total horizon ≤ row.total horizon)
      (officialRows game setup rows).1 (officialRows game setup rows').1

theorem challengeRows_weight_pos (gameId : ℤ) : ∀ challenge ∈
    (setup.challengeRows gameId).map (·.toAdScoreboardChallenge), 0 < challenge.serviceWeight := by
  intro challenge hchallenge
  obtain ⟨column, hcolumn, rfl⟩ := List.mem_map.mp hchallenge
  obtain ⟨source, _, rfl⟩ := List.mem_map.mp hcolumn
  have hpos : 0 < min maxServiceWeight (max minServiceWeight source.adScoringWeight) :=
    lt_min (by norm_num [maxServiceWeight]) (lt_max_of_lt_left (by norm_num [minServiceWeight]))
  exact hpos

/-- Accepting one more capture never lowers the official total of its attacker, never
raises an unnormalized total of another team, and raises an official one of another team
only when a field best falls. -/
theorem capture_monotone {db : AdDatabase}
    (hdb : db.toAdTables = setup.tables history fun _ => .empty)
    (hsqrt : MonotoneOn sqrt (Set.Icc 0 1)) (attack : AdAttack) {rows : List AdTeamScore}
    (h : rawTeamRows sqrt game setup history startRound cutoff ended = .ok rows) :
    ∃ rows', rawTeamRows sqrt game setup (history.capture attack) startRound cutoff ended =
        .ok rows' ∧
      CaptureMonotone game setup attack.attackerParticipationId rows rows' := by
  obtain ⟨hnd, hservices, rows', hrows', hshifted⟩ := rawTeamRows_capture hdb hsqrt attack h
  have hids : rows'.map (·.participationId) = rows.map (·.participationId) :=
    Related.map_eq (fun _ _ hrow => hrow.participationId) hshifted
  exact ⟨rows', hrows', hids, shifted_riser hshifted (hids ▸ hnd) hservices
    (challengeRows_weight_pos game.id), fun horizon => hshifted.imp fun row row' hrow hother =>
      (hrow.falls hother).total horizon, shifted_others hshifted hservices
    (challengeRows_weight_pos game.id)⟩

end Board

/-- Three teams on one challenge, in their first round. -/
def trio : AdScoreboardGameRow := ⟨7, 1, some 1, some 1, none, none, 1000⟩

def trioSetup : AdSetup where
  teamServices := [⟨21, 7, 31, 41⟩, ⟨22, 7, 32, 41⟩, ⟨23, 7, 33, 41⟩]
  participations := [⟨⟨31, 7, 51⟩, none⟩, ⟨⟨32, 7, 52⟩, none⟩, ⟨⟨33, 7, 53⟩, none⟩]
  teams := [⟨51, "red"⟩, ⟨52, "blue"⟩, ⟨53, "green"⟩]
  divisions := []
  gameChallenges := [⟨⟨41, 7⟩, "vault", .pwn, .attackDefense, .active, true, 1⟩]

/-- The second and the third team captured the flag of the first one; only the flag of the
third one was seen by its checker. -/
def trioHistory : AdHistory where
  rounds := [⟨⟨1, 7, 1, 0⟩, 50, true⟩]
  flags := [⟨11, 1, 21, false, 1⟩, ⟨12, 1, 22, false, 1⟩, ⟨13, 1, 23, true, 1⟩]
  checkResults := [⟨1, 21, .ok, none, 5, some 1, false⟩, ⟨1, 22, .ok, none, 5, some 1, false⟩,
    ⟨1, 23, .ok, none, 5, some 1, true⟩]
  flagDeliveryResults := []
  attacks := [⟨11, 32, 9⟩, ⟨11, 33, 9⟩]
  roundNumber_nodup := by simp

theorem trio_closingSlaCredit_mem : ∀ gameId,
    ∀ row ∈ ((trioSetup.tables trioHistory fun _ => .empty).rollups gameId).services,
      ∀ credit ∈ row.closingSlaCredit, 0 ≤ credit ∧ credit ≤ 1 :=
  fun _ _ hrow => absurd hrow List.not_mem_nil

def trioDatabase : AdDatabase where
  toAdTables := trioSetup.tables trioHistory fun _ => .empty
  roundId_nodup := by decide
  roundNumber_nodup := by decide
  flagId_nodup := by decide
  flagKey_nodup := by decide
  flagServiceWeight_mem := by decide +kernel
  teamServiceId_nodup := by decide
  teamServiceKey_nodup := by decide
  checkResultKey_nodup := by decide
  flagDeliveryKey_nodup := by decide
  participationId_nodup := by decide
  gameChallengeId_nodup := by decide
  closingSlaCredit_mem := trio_closingSlaCredit_mem

/-- The unnormalized rows of the trio. -/
def trioRows (history : AdHistory) : Except AppError (List AdTeamScore) :=
  rawTeamRows id trio trioSetup history 1 none false

/-- The official totals of the trio. -/
def trioTotals (rows : List AdTeamScore) : List (ℤ × ℚ) :=
  (officialRows trio trioSetup rows).1.map fun row => (row.participationId, row.total .projected)

theorem capture_monotone_trio : ∃ rows rows', trioRows trioHistory = .ok rows ∧
    trioRows (trioHistory.capture ⟨12, 31, 9⟩) = .ok rows' ∧
    CaptureMonotone trio trioSetup 31 rows rows' := by
  have hok : (trioRows trioHistory).isOk := by decide +kernel
  cases hrows : trioRows trioHistory with
  | error e =>
      rw [hrows] at hok
      cases hok
  | ok rows =>
      have hdb : trioDatabase.toAdTables = trioSetup.tables trioHistory fun _ => .empty := rfl
      obtain ⟨rows', hrows', hmonotone⟩ :=
        capture_monotone hdb monotoneOn_id ⟨12, 31, 9⟩ hrows
      exact ⟨rows, rows', rfl, hrows', hmonotone⟩

/-- A first capture, in time, of a delivered flag of an opponent on a challenge which the
attacker defends itself. -/
structure EligibleCapture (setup : AdSetup) (history : AdHistory) (cutoff : Option ℤ)
    (ended : Bool) (attack : AdAttack) (flag : AdFlag) (service : AdTeamService) : Prop where
  flag_mem : flag ∈ history.flags
  flag_id : flag.id = attack.flagId
  service_mem : service ∈ setup.teamServices
  service_id : service.id = flag.teamServiceId
  opponent : service.participationId ≠ attack.attackerParticipationId
  defended : ∃ own ∈ setup.teamServices,
    own.participationId = attack.attackerParticipationId ∧ own.challengeId = service.challengeId
  delivered : ∀ delivery ∈ history.flagDeliveryResults, delivery.roundId = flag.roundId →
    delivery.teamServiceId = service.id → delivery.delivered
  first : ∀ earlier ∈ history.attacks, earlier.flagId = attack.flagId →
    earlier.attackerParticipationId ≠ attack.attackerParticipationId
  in_time : withinCutoff ended cutoff attack.submittedAt

/-- The official total of the owner of a captured flag never rises. -/
def VictimNeverGains : Prop :=
  ∀ (sqrt : ℚ → ℚ) (game : AdScoreboardGameRow) (setup : AdSetup) (history : AdHistory)
    (startRound : ℤ) (cutoff : Option ℤ) (ended : Bool) (db : AdDatabase) (attack : AdAttack)
    (rows rows' : List AdTeamScore),
    MonotoneOn sqrt (Set.Icc 0 1) → (∀ x ∈ Set.Icc 0 1, 0 ≤ sqrt x ∧ x ≤ sqrt x) →
    db.toAdTables = setup.tables history (fun _ => .empty) →
    rawTeamRows sqrt game setup history startRound cutoff ended = .ok rows →
    rawTeamRows sqrt game setup (history.capture attack) startRound cutoff ended = .ok rows' →
    ∀ flag service, EligibleCapture setup history cutoff ended attack flag service → ∀ horizon,
      Forall₂ (fun row row' => row.participationId = service.participationId →
          row'.total horizon ≤ row.total horizon)
        (officialRows game setup rows).1 (officialRows game setup rows').1

theorem trio_eligible : EligibleCapture trioSetup trioHistory none false ⟨12, 31, 9⟩
    ⟨12, 1, 22, false, 1⟩ ⟨22, 7, 32, 41⟩ where
  flag_mem := by simp [trioHistory]
  flag_id := rfl
  service_mem := by simp [trioSetup]
  service_id := rfl
  opponent := by decide
  defended := ⟨⟨21, 7, 31, 41⟩, by simp [trioSetup], rfl, rfl⟩
  delivered := by simp [trioHistory]
  first := by simp [trioHistory]
  in_time := rfl

/-- The first team captures the flag of the second one, which nobody had captured and no
checker had seen.  The flag begins to count, the third team falls from 100 to 70 points,
and the second one rises from 20 to 200/7. -/
theorem not_victimNeverGains : ¬VictimNeverGains := by
  intro h
  have hrises : ((trioRows trioHistory).map fun rows => trioTotals rows) =
        .ok [(31, 0), (32, 20), (33, 100)] ∧
      ((trioRows (trioHistory.capture ⟨12, 31, 9⟩)).map fun rows => trioTotals rows) =
        .ok [(31, 200 / 7), (32, 200 / 7), (33, 100)] := by
    decide +kernel
  obtain ⟨rows, hrows, htotals⟩ := Fallible.map_eq_ok_iff.mp hrises.1
  obtain ⟨rows', hrows', htotals'⟩ := Fallible.map_eq_ok_iff.mp hrises.2
  have hvictim := h id trio trioSetup trioHistory 1 none false trioDatabase ⟨12, 31, 9⟩ rows rows'
    monotoneOn_id (fun x hx => ⟨hx.1, le_rfl⟩) rfl hrows hrows' _ _ trio_eligible .projected
  have hpairs : Forall₂ (fun pair pair' : ℤ × ℚ => pair.1 = 32 → pair'.2 ≤ pair.2)
      (trioTotals rows) (trioTotals rows') :=
    List.forall₂_map_left_iff.mpr (List.forall₂_map_right_iff.mpr hvictim)
  rw [htotals, htotals'] at hpairs
  revert hpairs
  decide +kernel

end AttackDefense

end Rsctf
