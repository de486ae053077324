import Mathlib.Logic.Relation
import Rsctf.AttackDefense.Conservation
import Rsctf.AttackDefense.RollupInvalidation
import Rsctf.Data.Numbering

/-!
# The rollup store over a contest

Rounds are recorded, played and finalised while epochs are sealed and reopened.  Every sealing
runs in one transaction, but reads what has been recorded anew for every epoch.  The store
is always the one which is obtained by sealing a sequence of epochs from the first one on.
-/

open Keyed

namespace Rsctf

namespace AttackDefense

section Recording

/-- From the official start on the rounds have no gap, and start one after the other. -/
def AdHistory.Sequential (history : AdHistory) (gameId startRound : ℤ) : Prop :=
  ∀ round ∈ history.rounds, round.gameId = gameId →
    ∀ number, startRound ≤ number → number ≤ round.number →
      ∃ earlier ∈ history.rounds, earlier.gameId = gameId ∧ earlier.number = number ∧
        earlier.startTimeUtc ≤ round.startTimeUtc

/-- What the tables of a contest satisfy. -/
structure Recorded (setup : AdSetup) (game : AdScoreboardGameRow) (history : AdHistory) :
    Prop where
  schema : ∃ db : AdDatabase, db.toAdTables = setup.tables history fun _ => .empty
  sequential : ∀ startRound ∈ game.scoringStartRound, history.Sequential game.id startRound

/-- A round is kept with its flags. -/
structure BoardRound.Kept (round : BoardRound) (history history' : AdHistory) : Prop where
  mem : round ∈ history'.rounds
  flags : rows (·.roundId) round.id history'.flags = rows (·.roundId) round.id history.flags

/-- More is recorded; the rounds which are finalised are left alone. -/
structure Grows (gameId : ℤ) (history history' : AdHistory) : Prop where
  numbers : ∀ round ∈ history.rounds, round.gameId = gameId →
    ∃ round' ∈ history'.rounds, round'.gameId = gameId ∧ round'.number = round.number
  kept : ∀ round ∈ history.rounds, round.gameId = gameId → round.finalized = true →
    round.Kept history history'

/-- The last round may have been reopened. -/
structure Reopens (gameId : ℤ) (history history' : AdHistory) : Prop where
  numbers : ∀ round ∈ history.rounds, round.gameId = gameId →
    ∃ round' ∈ history'.rounds, round'.gameId = gameId ∧ round'.number = round.number
  kept : ∀ round ∈ history.rounds, round.gameId = gameId → round.finalized = true →
    (∃ later ∈ history.rounds, later.gameId = gameId ∧ round.number < later.number) →
      round.Kept history history'

theorem Grows.refl (gameId : ℤ) (history : AdHistory) : Grows gameId history history :=
  ⟨fun round hround hgame => ⟨round, hround, hgame, rfl⟩, fun _ hround _ _ => ⟨hround, rfl⟩⟩

theorem Grows.trans {gameId : ℤ} {h₁ h₂ h₃ : AdHistory} (h : Grows gameId h₁ h₂)
    (h' : Grows gameId h₂ h₃) : Grows gameId h₁ h₃ where
  numbers := by
    intro round hround hgame
    obtain ⟨round', hround', hgame', hnumber⟩ := h.numbers round hround hgame
    obtain ⟨round'', hround'', hgame'', hnumber'⟩ := h'.numbers round' hround' hgame'
    exact ⟨round'', hround'', hgame'', hnumber'.trans hnumber⟩
  kept := by
    intro round hround hgame hfinal
    have hkept := h.kept round hround hgame hfinal
    have hkept' := h'.kept round hkept.mem hgame hfinal
    exact ⟨hkept'.mem, hkept'.flags.trans hkept.flags⟩

end Recording

section Rosters

variable {setup : AdSetup} {history history' : AdHistory} {gameId : ℤ} {range : EvidenceRange}
  {round : BoardRound}

theorem eq_of_number_eq {round' : BoardRound} (h : round ∈ history.rounds)
    (h' : round' ∈ history.rounds) (hgame : round.gameId = round'.gameId)
    (hnumber : round.number = round'.number) : round = round' :=
  List.inj_on_of_nodup_map history.roundNumber_nodup h h' (Prod.ext hgame hnumber)

/-- The services with a flag in a round. -/
def roundServices (setup : AdSetup) (history : AdHistory) (round : BoardRound) :
    List StableService :=
  (rows (·.roundId) round.id history.flags).filterMap
    (setup.tables history fun _ => .empty).stableService

theorem roundServices_of_kept (h : round.Kept history history') :
    roundServices setup history' round = roundServices setup history round := by
  rw [roundServices, roundServices, h.flags]
  rfl

/-- The frozen services are those of the official start round. -/
theorem stableServices_eq {rollups : ℤ → RollupStore} (hround : round ∈ history.rounds)
    (hgame : round.gameId = gameId) (hnumber : round.number = range.officialStartRound)
    (hwithin : range.within range.roundCutoff round.startTimeUtc = true) :
    (setup.tables history rollups).stableServices gameId range =
      roundServices setup history round := by
  have hfind : (setup.tables history rollups).officialStartRound gameId range =
      some round.toAdRound := by
    refine find?_eq_some_of_unique (List.mem_map_of_mem hround) ?_ ?_
    · simp [hgame, hnumber, hwithin]
    · intro other hother hcond
      obtain ⟨round', hround', rfl⟩ := List.mem_map.mp hother
      simp only [Bool.and_eq_true, decide_eq_true_eq] at hcond
      rw [eq_of_number_eq hround' hround (hcond.1.1.trans hgame.symm)
        (hcond.1.2.trans hnumber.symm)]
  rw [AdTables.stableServices, hfind]
  rfl

end Rosters

section Metas

variable {setup : AdSetup} {history : AdHistory} {gameId : ℤ} {range : EvidenceRange}
  {number k : ℤ}

theorem epochOf_eq_iff (hticks : 0 < range.epochTicks) (h : range.officialStartRound ≤ number) :
    range.epochOf number = k ↔
      range.officialStartRound + (k - 1) * range.epochTicks ≤ number ∧
        number < range.officialStartRound + k * range.epochTicks :=
  Numbering.block_eq_iff hticks h

theorem withinCutoff_of_le {ended : Bool} {cutoff : Option ℤ} {time time' : ℤ} (hle : time ≤ time')
    (h : withinCutoff ended cutoff time' = true) : withinCutoff ended cutoff time = true := by
  cases cutoff with
  | none => rfl
  | some cutoff =>
      simp only [withinCutoff, Option.all_some] at h ⊢
      split at h
      · next hended =>
        rw [if_pos hended]
        exact decide_eq_true (lt_of_le_of_lt hle (of_decide_eq_true h))
      · next hended =>
        rw [if_neg hended]
        exact decide_eq_true (hle.trans (of_decide_eq_true h))

/-- What the row of an epoch tells about the recorded rounds. -/
structure EpochMetaRow.Of (epoch : EpochMetaRow) (history : AdHistory) (gameId : ℤ)
    (range : EvidenceRange) : Prop where
  first : ∃ round ∈ epochRounds history gameId range, round.number = epoch.startRound ∧
    range.epochOf round.number = epoch.epoch
  finalized : epoch.allFinalized = true → ∀ round ∈ epochRounds history gameId range,
    range.epochOf round.number = epoch.epoch → round.finalized = true
  low : range.officialStartRound + (epoch.epoch - 1) * range.epochTicks ≤ epoch.startRound
  le : epoch.startRound ≤ epoch.endRound
  high : epoch.endRound < range.officialStartRound + epoch.epoch * range.epochTicks
  clock : ∃ round ∈ history.rounds, round.gameId = gameId ∧ epoch.currentRound ≤ round.number

theorem mem_epochRounds {round : BoardRound} :
    round ∈ epochRounds history gameId range ↔ round ∈ history.rounds ∧ round.gameId = gameId ∧
      withinCutoff range.eventEndSettlement range.roundCutoff round.startTimeUtc = true ∧
      range.startRound ≤ round.number ∧ range.endRound.all (round.number ≤ ·) = true := by
  rw [epochRounds, AdHistory.roundsWithin, List.mem_filter, List.mem_filter, and_assoc]
  simp only [Bool.and_eq_true, decide_eq_true_eq, and_assoc]

theorem of_mem_keys (hticks : 0 < range.epochTicks)
    (hstart : range.officialStartRound ≤ range.startRound)
    (hk : k ∈ (epochRounds history gameId range).map fun round => range.epochOf round.number) :
    (epochMetaRow setup history gameId range k).Of history gameId range := by
  let key := fun round : BoardRound => range.epochOf round.number
  obtain ⟨round, hround, rfl⟩ := List.mem_map.mp hk
  have hne : ((rows key (key round) (epochRounds history gameId range)).map (·.number)) ≠ [] :=
    fun h => rows_ne_nil hround (List.map_eq_nil_iff.mp h)
  obtain ⟨hminMem, hmin⟩ := Numbering.exists_min hne
  obtain ⟨hmaxMem, hmax⟩ := Numbering.exists_max hne
  obtain ⟨first, hfirst, hfirstNumber⟩ := List.mem_map.mp hminMem
  obtain ⟨last, hlast, hlastNumber⟩ := List.mem_map.mp hmaxMem
  obtain ⟨hfirstMem, hfirstKey⟩ := mem_rows.mp hfirst
  obtain ⟨hlastMem, hlastKey⟩ := mem_rows.mp hlast
  obtain ⟨hmem, hgame, hwithin, hlow, -⟩ := mem_epochRounds.mp hfirstMem
  obtain ⟨hmem', hgame', hwithin', hlow', -⟩ := mem_epochRounds.mp hlastMem
  have hbounds := (epochOf_eq_iff hticks (hstart.trans hlow)).mp hfirstKey
  have hbounds' := (epochOf_eq_iff hticks (hstart.trans hlow')).mp hlastKey
  have hcurrent := Numbering.exists_max (l := (history.roundsWithin gameId range.eventEndSettlement
    range.roundCutoff).map (·.number))
    (List.ne_nil_of_mem (List.mem_map_of_mem (List.mem_of_mem_filter hlastMem)))
  obtain ⟨current, hcurrentMem, hcurrentNumber⟩ := List.mem_map.mp hcurrent.1
  obtain ⟨hcurrentMem, hcurrentGame⟩ := List.mem_filter.mp hcurrentMem
  rw [Bool.and_eq_true, decide_eq_true_eq] at hcurrentGame
  constructor
  · exact ⟨first, hfirstMem, hfirstNumber, hfirstKey⟩
  · exact fun hfinal other hother hkey =>
      List.all_eq_true.mp hfinal other (mem_rows.mpr ⟨hother, hkey⟩)
  · exact hbounds.1.trans_eq hfirstNumber
  · exact hmin _ hmaxMem
  · exact hlastNumber.symm.trans_lt hbounds'.2
  · exact ⟨current, hcurrentMem, hcurrentGame.1, hcurrentNumber.ge⟩

/-- The epochs of the range follow one another. -/
theorem consecutive_loadEpochMeta (hsequential : history.Sequential gameId range.officialStartRound)
    (hticks : 0 < range.epochTicks) {m : ℤ} (hm : 0 ≤ m)
    (hstart : range.startRound = range.officialStartRound + m * range.epochTicks)
    (hend : range.endRound = none) :
    Numbering.Consecutive (m + 1) ((loadEpochMeta setup history gameId range).map (·.epoch)) := by
  have hepochs : (loadEpochMeta setup history gameId range).map (·.epoch) =
      sortedKeys ((epochRounds history gameId range).map fun round =>
        range.epochOf round.number) := by
    rw [loadEpochMeta, List.map_map]
    exact List.map_id _
  have hofficial : range.officialStartRound ≤ range.startRound := by
    have hnonneg := mul_nonneg hm hticks.le
    omega
  rw [hepochs]
  refine Numbering.consecutive_of_pairwise (pairwise_sortedKeys _) fun j hj => ?_
  obtain ⟨round, hround, rfl⟩ := List.mem_map.mp (mem_sortedKeys.mp hj)
  obtain ⟨hmem, hgame, hwithin, hlow, -⟩ := mem_epochRounds.mp hround
  have hbounds := (epochOf_eq_iff hticks (hofficial.trans hlow)).mp rfl
  constructor
  · by_contra hlt
    have hmul : range.epochOf round.number * range.epochTicks ≤ m * range.epochTicks :=
      mul_le_mul_of_nonneg_right (by omega) hticks.le
    omega
  · intro i hi hle
    have hmul : (i - 1) * range.epochTicks ≤
        (range.epochOf round.number - 1) * range.epochTicks :=
      mul_le_mul_of_nonneg_right (by omega) hticks.le
    have hmul' : m * range.epochTicks ≤ (i - 1) * range.epochTicks :=
      mul_le_mul_of_nonneg_right (by omega) hticks.le
    obtain ⟨earlier, hearlier, hgame', hnumber, htime⟩ := hsequential round hmem hgame
      (range.officialStartRound + (i - 1) * range.epochTicks) (by omega) (by omega)
    have hsucc : i * range.epochTicks = (i - 1) * range.epochTicks + range.epochTicks := by ring
    refine mem_sortedKeys.mpr (List.mem_map.mpr ⟨earlier, mem_epochRounds.mpr ⟨hearlier, hgame',
      withinCutoff_of_le htime hwithin, by omega, by rw [hend]; rfl⟩, ?_⟩)
    exact (epochOf_eq_iff hticks (by omega)).mpr ⟨by omega, by omega⟩

end Metas

section Grids

variable {setup : AdSetup} {history : AdHistory} {gameId : ℤ} {range : EvidenceRange}
  {rollups : ℤ → RollupStore} {k : ℤ}

theorem dedup_eq_singleton {α : Type*} [DecidableEq α] {l : List α} {a : α} (hne : l ≠ [])
    (h : ∀ b ∈ l, b = a) : l.dedup = [a] := by
  rw [List.eq_replicate_of_mem h]
  exact List.replicate_dedup (List.length_pos_iff.mpr hne).ne'

/-- A range within one epoch. -/
structure EvidenceRange.Single (range : EvidenceRange) (k : ℤ) : Prop where
  ticks : 0 < range.epochTicks
  low : range.officialStartRound + (k - 1) * range.epochTicks ≤ range.startRound
  official : range.officialStartRound ≤ range.startRound
  high : ∃ endRound ∈ range.endRound, range.startRound ≤ endRound ∧
    endRound < range.officialStartRound + k * range.epochTicks

/-- The evidence of a range within one epoch is of this epoch. -/
theorem epochIds_eq (hrange : range.Single k) {round : BoardRound} (hround : round ∈ history.rounds)
    (hgame : round.gameId = gameId) (hnumber : round.number = range.startRound)
    (hwithin : range.within range.roundCutoff round.startTimeUtc = true) :
    (setup.tables history rollups).epochIds gameId range = [k] := by
  obtain ⟨endRound, hend, hle, hhigh⟩ := hrange.high
  have hepoch : ∀ number, range.startRound ≤ number → number ≤ endRound →
      range.epochOf number = k := by
    intro number hlow hlast
    have hbound := hrange.low
    exact (epochOf_eq_iff hrange.ticks (hrange.official.trans hlow)).mpr ⟨by omega, by omega⟩
  refine dedup_eq_singleton ?_ ?_
  · have hscoring : (⟨round.id, round.number, range.epochOf round.number⟩ : ScoringRound) ∈
        (setup.tables history rollups).scoringRounds gameId range := by
      refine (List.mem_insertionSort _).mpr (List.mem_map.mpr ⟨round.toAdRound, ?_, rfl⟩)
      refine List.mem_filter.mpr ⟨List.mem_map_of_mem hround, ?_⟩
      simp only [Bool.and_eq_true, decide_eq_true_eq]
      rw [hnumber, show range.endRound = some endRound from hend]
      exact ⟨⟨⟨hgame, le_rfl⟩, decide_eq_true hle⟩, hwithin⟩
    exact List.ne_nil_of_mem (List.mem_map_of_mem hscoring)
  · intro epoch hmem
    obtain ⟨scoring, hscoring, rfl⟩ := List.mem_map.mp hmem
    obtain ⟨other, hother, rfl⟩ := List.mem_map.mp ((List.mem_insertionSort _).mp hscoring)
    have hcond := (List.mem_filter.mp hother).2
    simp only [Bool.and_eq_true, decide_eq_true_eq] at hcond
    have hlast := hcond.1.2
    rw [show range.endRound = some endRound from hend] at hlast
    exact hepoch other.number hcond.1.1.2 (of_decide_eq_true hlast)

/-- One row for every frozen service, all of them of the epoch. -/
theorem loadEpochEvidence_single {services : List StableService}
    (hepoch : (setup.tables history rollups).epochIds gameId range = [k])
    (hservices : (setup.tables history rollups).stableServices gameId range = services) :
    (((setup.tables history rollups).loadEpochEvidence gameId range).map
        EvidenceAggregateRow.key).Perm (services.map StableService.key) ∧
      ∀ row ∈ (setup.tables history rollups).loadEpochEvidence gameId range, row.epoch = k := by
  have hrows : (setup.tables history rollups).evidenceRows gameId range =
      services.map fun service =>
        (setup.tables history rollups).evidenceRow gameId range service k := by
    rw [AdTables.evidenceRows, hepoch, hservices, List.map_eq_flatMap]
    rfl
  have hperm : ((setup.tables history rollups).loadEpochEvidence gameId range).Perm _ :=
    List.perm_insertionSort _ _
  constructor
  · refine (hperm.map _).trans ?_
    rw [hrows, List.map_map]
    rfl
  · intro row hrow
    have hmem := hperm.mem_iff.mp hrow
    rw [hrows] at hmem
    obtain ⟨service, -, rfl⟩ := List.mem_map.mp hmem
    rfl

end Grids

/-- A contest with its rollup tables. -/
structure RollupWorld where
  game : AdScoreboardGameRow
  history : AdHistory
  rollups : ℤ → RollupStore

namespace RollupWorld

section Steps

variable (sqrt : ℚ → ℚ) (setup : AdSetup) (game : AdScoreboardGameRow)

def store (w : RollupWorld) : RollupStore := w.rollups w.game.id

def withStore (w : RollupWorld) (store : RollupStore) : RollupWorld :=
  { w with rollups := Function.update w.rollups w.game.id store }

/-- The world after the end of the event was moved. -/
def endChange (w : RollupWorld) (nextEnd : ℤ) (history : AdHistory) : RollupWorld where
  game := { w.game with endTimeUtc := nextEnd }
  history := history
  rollups := Function.update w.rollups w.game.id
    (invalidateRollupsForEndChange w.game w.store w.game.endTimeUtc nextEnd)

/-- An epoch which can no longer change. -/
def immutable (ended : Bool) (epoch : EpochMetaRow) : Bool :=
  epoch.allChecksComplete && epoch.allFinalized &&
    (ended || (decide (epoch.roundCount = game.clampedEpochTicks) &&
      decide (epoch.endRound + game.lifetimeTicks ≤ epoch.currentRound)))

/-- The epochs of a list are sealed, each from what has been recorded by then, up to the first
one which can still change. -/
inductive Seals (startRound : ℤ) (ended : Bool) :
    AdHistory → List EpochMetaRow → (ℤ → RollupStore) → AdHistory → (ℤ → RollupStore) → Prop
  | nil {history : AdHistory} {rollups : ℤ → RollupStore} :
      Seals startRound ended history [] rollups history rollups
  | stop {history : AdHistory} {epoch : EpochMetaRow} {epochs : List EpochMetaRow}
      {rollups : ℤ → RollupStore} (hopen : immutable game ended epoch = false) :
      Seals startRound ended history (epoch :: epochs) rollups history rollups
  | cons {history history' history'' : AdHistory} {epoch : EpochMetaRow}
      {epochs : List EpochMetaRow} {rollups rollups' : ℤ → RollupStore} {store : RollupStore}
      (himmutable : immutable game ended epoch = true) (hgrows : Grows game.id history history')
      (hrecorded : Recorded setup game history')
      (hseal : sealEpoch sqrt game setup history' startRound ended rollups epoch = .ok store)
      (hrest : Seals startRound ended history' epochs (Function.update rollups game.id store)
        history'' rollups') :
      Seals startRound ended history (epoch :: epochs) rollups history'' rollups'

/-- The range after the last sealed epoch. -/
def ensureRange (rollups : ℤ → RollupStore) (startRound now : ℤ) : EvidenceRange :=
  let previousEpoch := (((rollups game.id).headers.map (·.epoch)).max?).getD 0
  let ended : Bool := game.endTimeUtc ≤ now
  let cutoff := if ended then some game.endTimeUtc else none
  { officialStartRound := startRound
    startRound := startRound + previousEpoch * game.clampedEpochTicks
    endRound := none
    epochTicks := game.clampedEpochTicks
    roundCutoff := cutoff
    checkerCutoff := cutoff
    attackCutoff := none
    eventEndSettlement := ended }

/-- A transaction which seals what can no longer change. -/
def Ensures (now : ℤ) (w w' : RollupWorld) : Prop :=
  w'.game = w.game ∧
    match w.game.scoringStartRound with
    | none => w'.history = w.history ∧ w'.rollups = w.rollups
    | some startRound =>
      Seals sqrt setup w.game startRound (decide (w.game.endTimeUtc ≤ now)) w.history
        (loadEpochMeta setup w.history w.game.id (ensureRange w.game w.rollups startRound now))
        w.rollups w'.history w'.rollups

/-- What may happen to a contest and its rollups. -/
inductive Step : RollupWorld → RollupWorld → Prop
  | start {w : RollupWorld} {startRound : ℤ} (hstart : w.game.scoringStartRound = none)
      (hsequential : w.history.Sequential w.game.id startRound) :
      Step w { w with game := { w.game with scoringStartRound := some startRound } }
  | grow {w : RollupWorld} {history : AdHistory} (hgrows : Grows w.game.id w.history history)
      (hrecorded : Recorded setup w.game history) : Step w { w with history := history }
  | ensure {w w' : RollupWorld} (now : ℤ) (h : Ensures sqrt setup now w w') : Step w w'
  | invalidateFromRound {w : RollupWorld} (roundNumber : ℤ) :
      Step w (w.withStore (invalidateRollupsFromRound w.game w.store roundNumber))
  | endChange {w : RollupWorld} {history : AdHistory} (nextEnd : ℤ)
      (hsame : nextEnd = w.game.endTimeUtc → history = w.history)
      (hreopens : Reopens w.game.id w.history history)
      (hrecorded : Recorded setup w.game history) : Step w (w.endChange nextEnd history)

/-- A contest starts with nothing sealed. -/
def Reachable (w : RollupWorld) : Prop :=
  ∃ w₀ : RollupWorld, w₀.store = .empty ∧ Recorded setup w₀.game w₀.history ∧
    Relation.ReflTransGen (Step sqrt setup) w₀ w

end Steps

section Sealings

variable {sqrt : ℚ → ℚ} {setup : AdSetup}

/-- The function which seals all epochs from one reading is a transaction. -/
theorem ensures_of_ensureEpochRollups {w : RollupWorld} {now : ℤ} {rollups : ℤ → RollupStore}
    (hrecorded : Recorded setup w.game w.history)
    (h : ensureEpochRollups sqrt w.game setup w.history w.rollups now = .ok rollups) :
    Ensures sqrt setup now w { w with rollups := rollups } := by
  have hseals : ∀ {startRound : ℤ} {ended : Bool} {epochs : List EpochMetaRow}
      {rollups rollups' : ℤ → RollupStore},
      sealEpochs sqrt w.game setup w.history startRound ended epochs rollups = .ok rollups' →
        Seals sqrt setup w.game startRound ended w.history epochs rollups w.history rollups' := by
    intro startRound ended epochs
    induction epochs with
    | nil =>
        intro rollups rollups' h
        obtain rfl := Except.ok.inj h
        exact .nil
    | cons epoch epochs ih =>
        intro rollups rollups' h
        rw [sealEpochs] at h
        split at h
        · next himmutable =>
          obtain ⟨store, hseal, hrest⟩ := Fallible.bind_eq_ok_iff.mp h
          exact .cons himmutable (.refl _ _) hrecorded hseal (ih hrest)
        · next hopen =>
          obtain rfl := Except.ok.inj h
          exact .stop (Bool.eq_false_of_not_eq_true hopen)
  refine ⟨rfl, ?_⟩
  unfold ensureEpochRollups at h
  cases hstart : w.game.scoringStartRound with
  | none =>
      rw [hstart] at h
      exact ⟨rfl, (Except.ok.inj h).symm⟩
  | some startRound =>
      rw [hstart] at h
      exact hseals h

end Sealings

end RollupWorld

end AttackDefense

end Rsctf
