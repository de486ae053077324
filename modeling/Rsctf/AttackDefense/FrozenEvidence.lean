import Rsctf.AttackDefense.EvidenceQuery
import Rsctf.Data.Hidden

/-!
# Evidence behind a cutoff

Behind a live cutoff the evidence query only sees the rounds which started by the cutoff
with their flags and deliveries, the checks and captures up to it, and the closing states
of the sealed epochs before its range.
-/

open Keyed Grouping

namespace Rsctf

namespace AttackDefense

/-- A range whose rounds, checks and captures are all cut off at one moment, the moment
itself included. -/
structure EvidenceRange.FrozenAt (range : EvidenceRange) (moment : ℤ) : Prop where
  roundCutoff : range.roundCutoff = some moment
  checkerCutoff : range.checkerCutoff = some moment
  attackCutoff : range.attackCutoff = some moment
  eventEndSettlement : range.eventEndSettlement = false

namespace EvidenceRange.FrozenAt

variable {range : EvidenceRange} {moment : ℤ}

theorem within_round (h : range.FrozenAt moment) (time : ℤ) :
    range.within range.roundCutoff time = decide (time ≤ moment) := by
  simp [within, h.roundCutoff, h.eventEndSettlement]

theorem within_attack (h : range.FrozenAt moment) (time : ℤ) :
    range.within range.attackCutoff time = decide (time ≤ moment) := by
  simp [within, h.attackCutoff, h.eventEndSettlement]

theorem completed_eq (h : range.FrozenAt moment) (result : AdCheckResult) :
    range.completed result =
      (result.slaCredit.isSome && decide (result.checkedAt ≤ moment)) := by
  simp [completed, h.checkerCutoff, h.eventEndSettlement]

end EvidenceRange.FrozenAt

namespace AdTables

/-- A round which started by a moment. -/
def started (db : AdTables) (moment roundId : ℤ) : Bool :=
  db.rounds.any fun round => round.id = roundId && round.startTimeUtc ≤ moment

/-- The tables without what was recorded after a moment.  The flags and deliveries of a
round share its fate. -/
def upTo (db : AdTables) (moment : ℤ) (store : RollupStore) : AdTables where
  rounds := db.rounds.filter (·.startTimeUtc ≤ moment)
  flags := db.flags.filter fun flag => db.started moment flag.roundId
  teamServices := db.teamServices
  checkResults := db.checkResults.filter fun result =>
    result.slaCredit.isSome && result.checkedAt ≤ moment
  flagDeliveryResults := db.flagDeliveryResults.filter fun delivery =>
    db.started moment delivery.roundId
  attacks := db.attacks.filter (·.submittedAt ≤ moment)
  participations := db.participations
  teams := db.teams
  gameChallenges := db.gameChallenges
  rollups := fun _ => store

variable {db : AdTables} {gameId moment : ℤ} {range : EvidenceRange} {store : RollupStore}

theorem started_of_mem {round : AdRound} (hmem : round ∈ db.rounds)
    (hstart : round.startTimeUtc ≤ moment) : db.started moment round.id = true := by
  simp only [started, List.any_eq_true, Bool.and_eq_true, decide_eq_true_eq]
  exact ⟨round, hmem, rfl, hstart⟩

variable (db store)

theorem flagDelivery_upTo {roundId : ℤ} (hround : db.started moment roundId = true)
    (teamServiceId : ℤ) :
    (db.upTo moment store).flagDelivery roundId teamServiceId =
      db.flagDelivery roundId teamServiceId := by
  rw [flagDelivery, flagDelivery, upTo, Hidden.find?_filter]
  intro delivery _ hdelivery
  simp only [Bool.and_eq_true, decide_eq_true_eq] at hdelivery
  rw [hdelivery.1, hround]

variable (gameId)

/-- The closing states of two stores agree when they have the same service rows before
the range. -/
theorem seedState_upTo
    (hstore : store.services.filter (·.epoch < range.epochOf range.startRound) =
      (db.rollups gameId).services.filter (·.epoch < range.epochOf range.startRound)) :
    (db.upTo moment store).seedState gameId range = db.seedState gameId range := by
  funext service
  have hrows : (rows AdEpochServiceRollup.serviceKey service.key store.services).filter
        (·.epoch < range.epochOf range.startRound) =
      (rows AdEpochServiceRollup.serviceKey service.key (db.rollups gameId).services).filter
        (·.epoch < range.epochOf range.startRound) := by
    rw [rows, rows, List.filter_comm, hstore, List.filter_comm]
  rw [seedState, seedState, upTo]
  dsimp only
  rw [hrows]

section Frozen

variable (h : range.FrozenAt moment)

include h

theorem scoringRounds_upTo :
    (db.upTo moment store).scoringRounds gameId range = db.scoringRounds gameId range := by
  rw [scoringRounds, scoringRounds, upTo, Hidden.filter_filter]
  intro round _ hround
  rw [Bool.and_eq_true, h.within_round] at hround
  exact hround.2

theorem started_scoringRound {round : ScoringRound}
    (hround : round ∈ db.scoringRounds gameId range) : db.started moment round.id = true := by
  have hmem := (List.mem_insertionSort _).mp hround
  obtain ⟨source, hsource, rfl⟩ := List.mem_map.mp hmem
  have hwithin := (List.mem_filter.mp hsource).2
  rw [Bool.and_eq_true, h.within_round] at hwithin
  exact started_of_mem (List.mem_of_mem_filter hsource) (of_decide_eq_true hwithin.2)

theorem officialStartRound_upTo :
    (db.upTo moment store).officialStartRound gameId range =
      db.officialStartRound gameId range := by
  rw [officialStartRound, officialStartRound, upTo, Hidden.find?_filter]
  intro round _ hround
  rw [Bool.and_eq_true, h.within_round] at hround
  exact hround.2

theorem stableServices_upTo :
    (db.upTo moment store).stableServices gameId range = db.stableServices gameId range := by
  rw [stableServices, stableServices, officialStartRound_upTo db gameId store h]
  cases hround : db.officialStartRound gameId range with
  | none => rfl
  | some round =>
      have hwithin := List.find?_some hround
      rw [Bool.and_eq_true, h.within_round] at hwithin
      have hstarted : db.started moment round.id = true :=
        started_of_mem (List.mem_of_find?_eq_some hround) (of_decide_eq_true hwithin.2)
      dsimp only
      rw [upTo, Hidden.rows_filter]
      · rfl
      · intro flag _ hflag
        rw [hflag, hstarted]

theorem teamCount_upTo :
    (db.upTo moment store).teamCount gameId range = db.teamCount gameId range := by
  funext challengeId
  rw [teamCount, teamCount, stableServices_upTo db gameId store h]

theorem checkHistory_upTo {roundId : ℤ} (hround : db.started moment roundId = true)
    (teamServiceId : ℤ) :
    (db.upTo moment store).checkHistory range roundId teamServiceId =
      db.checkHistory range roundId teamServiceId := by
  have hchecks : (db.upTo moment store).checkResults.find? (fun result =>
        result.roundId = roundId && result.teamServiceId = teamServiceId &&
          range.completed result) =
      db.checkResults.find? (fun result =>
        result.roundId = roundId && result.teamServiceId = teamServiceId &&
          range.completed result) := by
    apply Hidden.find?_filter
    intro result _ hresult
    rw [Bool.and_eq_true, h.completed_eq] at hresult
    exact hresult.2
  rw [checkHistory, checkHistory, hchecks, flagDelivery_upTo db store hround]

theorem creditTimeline_upTo :
    (db.upTo moment store).creditTimeline gameId range = db.creditTimeline gameId range := by
  funext service
  rw [creditTimeline, creditTimeline, scoringRounds_upTo db gameId store h]
  apply List.map_congr_left
  intro round hround
  rw [checkHistory_upTo db store h (started_scoringRound db gameId h hround)]

theorem stableFlag_upTo :
    (db.upTo moment store).stableFlag gameId range = db.stableFlag gameId range := by
  funext flag
  rw [stableFlag, stableFlag, scoringRounds_upTo db gameId store h,
    stableServices_upTo db gameId store h]

theorem started_of_stableFlag {flag : AdFlag} {stable : StableFlag}
    (hflag : db.stableFlag gameId range flag = some stable) :
    stable.roundId = flag.roundId ∧ db.started moment flag.roundId = true := by
  simp only [stableFlag, Option.bind_eq_bind, Option.bind_eq_some_iff] at hflag
  obtain ⟨round, hround, service, -, heq⟩ := hflag
  have hid : round.id = flag.roundId := by simpa using List.find?_some hround
  have hstarted := started_scoringRound db gameId h (List.mem_of_find?_eq_some hround)
  exact ⟨by rw [← Option.some.inj heq], hid ▸ hstarted⟩

theorem stableFlags_upTo :
    (db.upTo moment store).stableFlags gameId range = db.stableFlags gameId range := by
  rw [stableFlags, stableFlags, stableFlag_upTo db gameId store h]
  apply Hidden.filterMap_filter
  intro flag _ hflag
  obtain ⟨stable, hstable⟩ := Option.isSome_iff_exists.mp hflag
  exact (started_of_stableFlag db gameId h hstable).2

theorem started_of_mem_stableFlags {flag : StableFlag}
    (hflag : flag ∈ db.stableFlags gameId range) : db.started moment flag.roundId = true := by
  obtain ⟨source, -, hsource⟩ := List.mem_filterMap.mp hflag
  have hstarted := started_of_stableFlag db gameId h hsource
  exact hstarted.1 ▸ hstarted.2

theorem stableCapture_upTo :
    (db.upTo moment store).stableCapture gameId range = db.stableCapture gameId range := by
  funext attack
  have hcaptured : (db.upTo moment store).captured gameId range = db.captured gameId range := by
    funext flag attack
    rw [captured, captured, stableServices_upTo db gameId store h]
  rw [stableCapture, stableCapture, stableFlags_upTo db gameId store h, hcaptured]

theorem submittedAt_le_of_stableCapture {attack : AdAttack} {capture : StableCapture}
    (hcapture : db.stableCapture gameId range attack = some capture) :
    attack.submittedAt ≤ moment := by
  simp only [stableCapture, Option.bind_eq_bind, Option.bind_eq_some_iff] at hcapture
  obtain ⟨flag, -, hcaptured⟩ := hcapture
  split at hcaptured
  case isTrue hcond =>
    rw [captured, Bool.and_eq_true, h.within_attack] at hcond
    exact of_decide_eq_true hcond.2
  case isFalse => exact absurd hcaptured (by simp)

theorem stableCaptures_upTo :
    (db.upTo moment store).stableCaptures gameId range = db.stableCaptures gameId range := by
  rw [stableCaptures, stableCaptures, stableCapture_upTo db gameId store h, upTo,
    Hidden.filterMap_filter]
  intro attack _ hattack
  obtain ⟨capture, hcapture⟩ := Option.isSome_iff_exists.mp hattack
  exact decide_eq_true (submittedAt_le_of_stableCapture db gameId h hcapture)

theorem flagOutcomes_upTo :
    (db.upTo moment store).flagOutcomes gameId range = db.flagOutcomes gameId range := by
  rw [flagOutcomes, flagOutcomes, stableFlags_upTo db gameId store h,
    teamCount_upTo db gameId store h]
  apply List.map_congr_left
  intro flag hflag
  have hstarted : db.started moment flag.roundId = true :=
    started_of_mem_stableFlags db gameId h (List.mem_of_mem_filter hflag)
  rw [flagOutcome, flagOutcome, teamCount_upTo db gameId store h,
    stableCaptures_upTo db gameId store h, flagDelivery_upTo db store hstarted,
    checkHistory_upTo db store h hstarted]

theorem qualifiedFlags_upTo :
    (db.upTo moment store).qualifiedFlags gameId range = db.qualifiedFlags gameId range := by
  rw [qualifiedFlags, qualifiedFlags, flagOutcomes_upTo db gameId store h]

theorem captureEvidence_upTo :
    (db.upTo moment store).captureEvidence gameId range = db.captureEvidence gameId range := by
  rw [captureEvidence, captureEvidence, stableCaptures_upTo db gameId store h,
    qualifiedFlags_upTo db gameId store h]

theorem defenseEvidence_upTo :
    (db.upTo moment store).defenseEvidence gameId range = db.defenseEvidence gameId range := by
  rw [defenseEvidence, defenseEvidence, qualifiedFlags_upTo db gameId store h]

theorem evidenceStatus_upTo :
    (db.upTo moment store).evidenceStatus gameId range = db.evidenceStatus gameId range := by
  rw [evidenceStatus, evidenceStatus, qualifiedFlags_upTo db gameId store h,
    defenseEvidence_upTo db gameId store h]

variable (hstore : store.services.filter (·.epoch < range.epochOf range.startRound) =
  (db.rollups gameId).services.filter (·.epoch < range.epochOf range.startRound))

include hstore

theorem slaGrid_upTo :
    (db.upTo moment store).slaGrid gameId range = db.slaGrid gameId range := by
  funext service
  rw [slaGrid, slaGrid, scoringRounds_upTo db gameId store h, seedState_upTo db gameId store hstore,
    creditTimeline_upTo db gameId store h]

theorem slaEvidence_upTo :
    (db.upTo moment store).slaEvidence gameId range = db.slaEvidence gameId range := by
  have hvoid : (db.upTo moment store).voidTick gameId range = db.voidTick gameId range := by
    funext challengeId roundId
    rw [voidTick, voidTick, stableServices_upTo db gameId store h,
      slaGrid_upTo db gameId store h hstore]
  funext service epoch
  rw [slaEvidence, slaEvidence, slaGrid_upTo db gameId store h hstore, hvoid]

/-- The evidence behind a cutoff is the evidence of what was recorded by then. -/
theorem loadEpochEvidence_upTo :
    (db.upTo moment store).loadEpochEvidence gameId range = db.loadEpochEvidence gameId range := by
  have hclosing : (db.upTo moment store).closingSla gameId range = db.closingSla gameId range := by
    funext service
    rw [AdTables.closingSla, AdTables.closingSla, seedState_upTo db gameId store hstore,
      creditTimeline_upTo db gameId store h]
  have hrow : (db.upTo moment store).evidenceRow gameId range = db.evidenceRow gameId range := by
    funext service epoch
    rw [evidenceRow, evidenceRow, qualifiedFlags_upTo db gameId store h,
      captureEvidence_upTo db gameId store h, defenseEvidence_upTo db gameId store h,
      evidenceStatus_upTo db gameId store h, slaEvidence_upTo db gameId store h hstore, hclosing]
  rw [loadEpochEvidence, loadEpochEvidence, evidenceRows, evidenceRows, hrow,
    stableServices_upTo db gameId store h, epochIds, epochIds, scoringRounds_upTo db gameId store h]

end Frozen

end AdTables

end AttackDefense

end Rsctf
