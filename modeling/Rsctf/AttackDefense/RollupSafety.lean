import Rsctf.AttackDefense.FrozenBoard
import Rsctf.AttackDefense.RollupHistory

/-!
# The rollup store is a sealed prefix

Whatever is recorded, sealed and reopened, the store holds the epochs from the first one on, with
the running totals of what they were sealed from.  The frozen roster of the sealed epochs is the
one of the official start round, which stays finalised as long as an epoch is sealed.
-/

open Keyed

namespace Rsctf

namespace AttackDefense

namespace RollupWorld

/-- The range of the evidence which an epoch is sealed from. -/
def sealRange (game : AdScoreboardGameRow) (startRound : ℤ) (ended : Bool)
    (epoch : EpochMetaRow) : EvidenceRange :=
  let cutoff := if ended then some game.endTimeUtc else none
  { officialStartRound := startRound
    startRound := epoch.startRound
    endRound := some epoch.endRound
    epochTicks := game.clampedEpochTicks
    roundCutoff := cutoff
    checkerCutoff := cutoff
    attackCutoff := cutoff
    eventEndSettlement := ended }

/-- The round which is stored with a sealed epoch. -/
def finalizedRound (game : AdScoreboardGameRow) (ended : Bool) (epoch : EpochMetaRow) : ℤ :=
  if ended then max epoch.currentRound epoch.endRound else epoch.endRound + game.lifetimeTicks

section Evidence

variable {setup : AdSetup} {game : AdScoreboardGameRow} {history history₀ : AdHistory}
  {startRound now : ℤ} {ended : Bool} {rollups rollups₀ : ℤ → RollupStore} {epoch : EpochMetaRow}
  {round : BoardRound}

theorem clampedEpochTicks_pos : 0 < game.clampedEpochTicks := by
  unfold AdScoreboardGameRow.clampedEpochTicks
  omega

theorem lifetimeTicks_pos : 0 < game.lifetimeTicks := by
  unfold AdScoreboardGameRow.lifetimeTicks
  omega

theorem nodup_roundServices (h : Recorded setup game history) (hround : round ∈ history.rounds) :
    ((roundServices setup history round).map StableService.key).Nodup := by
  obtain ⟨db, hdb⟩ := h.schema
  have hnodup := db.stableServiceKey_nodup round.gameId
    ⟨round.number, round.number, none, 1, none, none, none, false⟩
  rwa [hdb, stableServices_eq hround rfl rfl rfl] at hnodup

/-- The official start round is over and within the range. -/
structure StartRound (history : AdHistory) (game : AdScoreboardGameRow) (startRound : ℤ)
    (round : BoardRound) : Prop where
  mem : round ∈ history.rounds
  gameId : round.gameId = game.id
  number : round.number = startRound
  finalized : round.finalized = true

variable (setup rollups) in
/-- An epoch is sealed from one row for each service of the official start round. -/
theorem evidence_complete (hgrows : Grows game.id history₀ history)
    (hepoch : epoch.Of history₀ game.id (ensureRange game rollups₀ startRound now))
    (hofficial : startRound ≤ epoch.startRound) (hfinal : epoch.allFinalized = true)
    (hstart : StartRound history game startRound round)
    (hwithin : withinCutoff (decide (game.endTimeUtc ≤ now))
      (if decide (game.endTimeUtc ≤ now) then some game.endTimeUtc else none)
      round.startTimeUtc = true) :
    (((setup.tables history rollups).loadEpochEvidence game.id
        (sealRange game startRound (decide (game.endTimeUtc ≤ now)) epoch)).map
          EvidenceAggregateRow.key).Perm
        ((roundServices setup history round).map StableService.key) ∧
      ∀ row ∈ (setup.tables history rollups).loadEpochEvidence game.id
        (sealRange game startRound (decide (game.endTimeUtc ≤ now)) epoch),
        row.epoch = epoch.epoch := by
  obtain ⟨first, hfirst, hnumber, hkey⟩ := hepoch.first
  have hfirstFinal := hepoch.finalized hfinal first hfirst hkey
  obtain ⟨hmem, hgame, hfirstWithin, -⟩ := mem_epochRounds.mp hfirst
  have hkept := hgrows.kept first hmem hgame hfirstFinal
  have hsingle : (sealRange game startRound (decide (game.endTimeUtc ≤ now)) epoch).Single
      epoch.epoch :=
    ⟨clampedEpochTicks_pos, hepoch.low, hofficial, epoch.endRound, rfl, hepoch.le, hepoch.high⟩
  exact loadEpochEvidence_single (epochIds_eq hsingle hkept.mem hgame hnumber hfirstWithin)
    (stableServices_eq hstart.mem hstart.gameId hstart.number hwithin)

end Evidence

section Invariant

/-- How an epoch was sealed. -/
structure SealedAt (game : AdScoreboardGameRow) (history : AdHistory) (startRound : ℤ)
    (finalizedRound : EpochMetaRow → ℤ) (epoch : EpochMetaRow) : Prop where
  low : startRound + (epoch.epoch - 1) * game.clampedEpochTicks ≤ epoch.endRound
  high : epoch.endRound < startRound + epoch.epoch * game.clampedEpochTicks
  clock : ∃ round ∈ history.rounds, round.gameId = game.id ∧ epoch.currentRound ≤ round.number
  finalized : finalizedRound epoch = max epoch.currentRound epoch.endRound ∨
    epoch.roundCount = game.clampedEpochTicks ∧
      epoch.endRound + game.lifetimeTicks ≤ epoch.currentRound

/-- The roster of the sealed epochs is the one of the official start round. -/
structure Frozen (setup : AdSetup) (game : AdScoreboardGameRow) (history : AdHistory)
    (roster : FrozenRoster) (finalizedRound : EpochMetaRow → ℤ) (epochs : List EpochEvidence) :
    Prop where
  services : roster.services ≠ []
  start : ∃ startRound ∈ game.scoringStartRound, ∃ round,
    StartRound history game startRound round ∧
      roster.services.map StableServiceRow.key =
        (roundServices setup history round).map StableService.key ∧
      ∀ e ∈ epochs, SealedAt game history startRound finalizedRound e.epochMeta

/-- The store is what sealing a sequence of epochs from the first one on leaves. -/
structure Intact (sqrt : ℚ → ℚ) (setup : AdSetup) (w : RollupWorld) (roster : FrozenRoster)
    (finalizedRound : EpochMetaRow → ℤ) (epochs : List EpochEvidence) : Prop where
  numbered : Numbered epochs
  complete : ∀ e ∈ epochs, e.Complete roster
  store : w.store = sealedStore sqrt w.game.clampedEpochTicks finalizedRound epochs
  frozen : epochs ≠ [] → Frozen setup w.game w.history roster finalizedRound epochs

variable {sqrt : ℚ → ℚ} {setup : AdSetup} {game : AdScoreboardGameRow}
  {history history' : AdHistory} {rollups : ℤ → RollupStore} {roster : FrozenRoster}
  {fin : EpochMetaRow → ℤ} {epochs : List EpochEvidence}

theorem SealedAt.grow {startRound : ℤ} {epoch : EpochMetaRow}
    (h : SealedAt game history startRound fin epoch) (hgrows : Grows game.id history history') :
    SealedAt game history' startRound fin epoch := by
  obtain ⟨round, hround, hgame, hle⟩ := h.clock
  obtain ⟨round', hround', hgame', hnumber⟩ := hgrows.numbers round hround hgame
  exact ⟨h.low, h.high, ⟨round', hround', hgame', hnumber ▸ hle⟩, h.finalized⟩

theorem StartRound.keep {startRound : ℤ} {round : BoardRound}
    (h : StartRound history game startRound round) (hkept : round.Kept history history') :
    StartRound history' game startRound round :=
  ⟨hkept.mem, h.gameId, h.number, h.finalized⟩

theorem Intact.grow (h : Intact sqrt setup ⟨game, history, rollups⟩ roster fin epochs)
    (hgrows : Grows game.id history history') :
    Intact sqrt setup ⟨game, history', rollups⟩ roster fin epochs where
  numbered := h.numbered
  complete := h.complete
  store := h.store
  frozen := by
    intro hne
    obtain ⟨hservices, startRound, hgame, round, hstart, hroster, hsealed⟩ := h.frozen hne
    have hkept := hgrows.kept round hstart.mem hstart.gameId hstart.finalized
    rw [← roundServices_of_kept hkept] at hroster
    exact ⟨hservices, startRound, hgame, round, hstart.keep hkept, hroster,
      fun e he => (hsealed e he).grow hgrows⟩

end Invariant

section Sealing

variable {sqrt : ℚ → ℚ} {setup : AdSetup} {game : AdScoreboardGameRow}
  {history history₀ : AdHistory} {rollups rollups₀ : ℤ → RollupStore} {roster : FrozenRoster}
  {fin : EpochMetaRow → ℤ} {epochs : List EpochEvidence} {epoch : EpochMetaRow}
  {startRound now k : ℤ} {round : BoardRound}

/-- The number of the epoch to be sealed next.  Epochs without services are skipped. -/
structure Next (setup : AdSetup) (game : AdScoreboardGameRow) (history : AdHistory)
    (startRound k : ℤ) (epochs : List EpochEvidence) : Prop where
  pos : 1 ≤ k
  next : k = epochs.length + 1 ∨ epochs = [] ∧ ∃ round,
    StartRound history game startRound round ∧ roundServices setup history round = []

theorem StartRound.unique {round' : BoardRound} (h : StartRound history game startRound round)
    (h' : StartRound history game startRound round') : round = round' :=
  eq_of_number_eq h.mem h'.mem (h.gameId.trans h'.gameId.symm) (h.number.trans h'.number.symm)

theorem Next.grow {history' : AdHistory} (h : Next setup game history startRound k epochs)
    (hgrows : Grows game.id history history') :
    Next setup game history' startRound k epochs := by
  refine ⟨h.pos, h.next.imp_right ?_⟩
  rintro ⟨hnil, round, hround, hservices⟩
  have hkept := hgrows.kept round hround.mem hround.gameId hround.finalized
  exact ⟨hnil, round, hround.keep hkept, (roundServices_of_kept hkept).trans hservices⟩

theorem official_le (hof : epoch.Of history₀ game.id (ensureRange game rollups₀ startRound now))
    (hpos : 1 ≤ epoch.epoch) : startRound ≤ epoch.startRound := by
  have hlow : startRound + (epoch.epoch - 1) * game.clampedEpochTicks ≤ epoch.startRound := hof.low
  have hnonneg : 0 ≤ (epoch.epoch - 1) * game.clampedEpochTicks :=
    mul_nonneg (by omega) clampedEpochTicks_pos.le
  omega

/-- When an epoch can no longer change, the official start round is over. -/
theorem exists_startRound (h : Intact sqrt setup ⟨game, history, rollups⟩ roster fin epochs)
    (hgrows : Grows game.id history₀ history) (hrecorded₀ : Recorded setup game history₀)
    (hrecorded : Recorded setup game history) (hstart : startRound ∈ game.scoringStartRound)
    (hof : epoch.Of history₀ game.id (ensureRange game rollups₀ startRound now))
    (hfinal : epoch.allFinalized = true)
    (hnext : Next setup game history startRound epoch.epoch epochs)
    (hfresh : epochs = [] → (ensureRange game rollups₀ startRound now).startRound = startRound) :
    ∃ round, StartRound history game startRound round ∧
      withinCutoff (decide (game.endTimeUtc ≤ now))
        (if decide (game.endTimeUtc ≤ now) then some game.endTimeUtc else none)
        round.startTimeUtc = true := by
  obtain ⟨first, hfirst, hnumber, hkey⟩ := hof.first
  have hfirstFinal := hof.finalized hfinal first hfirst hkey
  obtain ⟨hmem, hgame, hwithin, -, -⟩ := mem_epochRounds.mp hfirst
  have hkept := hgrows.kept first hmem hgame hfirstFinal
  have hle : startRound ≤ first.number := (official_le hof hnext.pos).trans_eq hnumber.symm
  obtain ⟨earlier, hearlier, hgame', hnumber', htime⟩ :=
    hrecorded.sequential startRound hstart first hkept.mem hgame startRound le_rfl hle
  have hexists : ∃ round, StartRound history game startRound round := by
    by_cases hnil : epochs = []
    · rcases hnext.next with hk | ⟨-, round, hround, -⟩
      · -- the first epoch contains the official start round
        obtain ⟨round, hround, hgame'', hnumber'', htime'⟩ :=
          hrecorded₀.sequential startRound hstart first hmem hgame startRound le_rfl hle
        have hin : round ∈ epochRounds history₀ game.id
            (ensureRange game rollups₀ startRound now) :=
          mem_epochRounds.mpr ⟨hround, hgame'', withinCutoff_of_le htime' hwithin,
            (hfresh hnil).trans_le hnumber''.ge, rfl⟩
        have hone : epoch.epoch = 1 := by simpa [hnil] using hk
        have hticks : 0 < game.clampedEpochTicks := clampedEpochTicks_pos
        have hlow : startRound + (1 - 1) * game.clampedEpochTicks ≤ round.number := by omega
        have hhigh : round.number < startRound + 1 * game.clampedEpochTicks := by omega
        have hepoch : (ensureRange game rollups₀ startRound now).epochOf round.number = 1 :=
          (epochOf_eq_iff hticks hnumber''.ge).mpr ⟨hlow, hhigh⟩
        have hover := hof.finalized hfinal round hin (hepoch.trans hone.symm)
        have hkept' := hgrows.kept round hround hgame'' hover
        exact ⟨round, hkept'.mem, hgame'', hnumber'', hover⟩
      · exact ⟨round, hround⟩
    · obtain ⟨-, startRound', hstart', round, hround, -⟩ := h.frozen hnil
      rw [Option.mem_unique hstart hstart']
      exact ⟨round, hround⟩
  obtain ⟨round, hround⟩ := hexists
  have heq : round = earlier := eq_of_number_eq hround.mem hearlier
    (hround.gameId.trans hgame'.symm) (hround.number.trans hnumber'.symm)
  exact ⟨round, hround, heq ▸ withinCutoff_of_le htime hwithin⟩

/-- The services of the official start round, as the roster of the sealed epochs. -/
theorem exists_roster (h : Intact sqrt setup ⟨game, history, rollups⟩ roster fin epochs)
    (hrecorded : Recorded setup game history) (hstart : startRound ∈ game.scoringStartRound)
    (hround : StartRound history game startRound round)
    (hservices : roundServices setup history round ≠ []) :
    ∃ roster' : FrozenRoster, roster'.services ≠ [] ∧
      roster'.services.map StableServiceRow.key =
        (roundServices setup history round).map StableService.key ∧
      (∀ e ∈ epochs, e.Complete roster') ∧
      ∀ e ∈ epochs, SealedAt game history startRound fin e.epochMeta := by
  by_cases hnil : epochs = []
  · have hkeys : ((roundServices setup history round).map fun service =>
        (⟨service.id, service.participationId, service.challengeId, 0, "", none⟩ :
          StableServiceRow)).map StableServiceRow.key =
        (roundServices setup history round).map StableService.key := by
      rw [List.map_map]
      rfl
    refine ⟨⟨_, hkeys ▸ nodup_roundServices hrecorded hround.mem⟩, ?_, hkeys, ?_, ?_⟩
    · exact fun hmap => hservices (List.map_eq_nil_iff.mp hmap)
    · simp [hnil]
    · simp [hnil]
  · obtain ⟨hne, startRound', hstart', round', hround', hkeys, hsealed⟩ := h.frozen hnil
    obtain rfl := Option.mem_unique hstart hstart'
    obtain rfl := hround.unique hround'
    exact ⟨roster, hne, hkeys, h.complete, hsealed⟩

/-- An epoch without services is skipped. -/
theorem Intact.skip (h : Intact sqrt setup ⟨game, history, rollups⟩ roster fin epochs)
    (hstart : startRound ∈ game.scoringStartRound)
    (hround : StartRound history game startRound round)
    (hservices : roundServices setup history round = []) : epochs = [] := by
  by_contra hnil
  obtain ⟨hne, startRound', hstart', round', hround', hkeys, -⟩ := h.frozen hnil
  obtain rfl := Option.mem_unique hstart hstart'
  obtain rfl := hround.unique hround'
  rw [hservices, List.map_nil, List.map_eq_nil_iff] at hkeys
  exact hne hkeys

theorem sealedAt_of_immutable
    (hgrows : Grows game.id history₀ history)
    (hof : epoch.Of history₀ game.id (ensureRange game rollups₀ startRound now))
    (himmutable : immutable game (decide (game.endTimeUtc ≤ now)) epoch = true)
    (hfin : fin epoch = finalizedRound game (decide (game.endTimeUtc ≤ now)) epoch) :
    SealedAt game history startRound fin epoch := by
  obtain ⟨round, hround, hgame, hle⟩ := hof.clock
  obtain ⟨round', hround', hgame', hnumber⟩ := hgrows.numbers round hround hgame
  refine ⟨hof.low.trans hof.le, hof.high, ⟨round', hround', hgame', hnumber ▸ hle⟩, ?_⟩
  rw [immutable, Bool.and_eq_true, Bool.or_eq_true] at himmutable
  rcases himmutable.2 with hended | hfull
  · rw [hfin, finalizedRound, if_pos hended]
    exact .inl rfl
  · rw [Bool.and_eq_true, decide_eq_true_eq, decide_eq_true_eq] at hfull
    exact .inr hfull

/-- Sealing an epoch appends it to the sealed ones. -/
theorem Intact.sealNext (h : Intact sqrt setup ⟨game, history, rollups⟩ roster fin epochs)
    (hgrows : Grows game.id history₀ history) (hrecorded₀ : Recorded setup game history₀)
    (hrecorded : Recorded setup game history) (hstart : startRound ∈ game.scoringStartRound)
    (hof : epoch.Of history₀ game.id (ensureRange game rollups₀ startRound now))
    (himmutable : immutable game (decide (game.endTimeUtc ≤ now)) epoch = true)
    (hnext : Next setup game history startRound epoch.epoch epochs)
    (hfresh : epochs = [] → (ensureRange game rollups₀ startRound now).startRound = startRound)
    {store : RollupStore}
    (hseal : sealEpoch sqrt game setup history startRound (decide (game.endTimeUtc ≤ now)) rollups
      epoch = .ok store) :
    ∃ roster' fin' epochs',
      Intact sqrt setup ⟨game, history, Function.update rollups game.id store⟩ roster' fin'
        epochs' ∧
      Next setup game history startRound (epoch.epoch + 1) epochs' ∧
      (epochs' = [] → (ensureRange game rollups₀ startRound now).startRound = startRound) := by
  have hfinal : epoch.allFinalized = true := by
    rw [immutable, Bool.and_eq_true, Bool.and_eq_true] at himmutable
    exact himmutable.1.2
  obtain ⟨round, hround, hwithin⟩ :=
    exists_startRound h hgrows hrecorded₀ hrecorded hstart hof hfinal hnext hfresh
  obtain ⟨hgrid, htagged⟩ := evidence_complete setup rollups hgrows hof
    (official_le hof hnext.pos) hfinal hround hwithin
  set rows := (setup.tables history rollups).loadEpochEvidence game.id
    (sealRange game startRound (decide (game.endTimeUtc ≤ now)) epoch) with hrows
  have hmaterialize : materializeEpoch sqrt game.clampedEpochTicks (rollups game.id)
      (finalizedRound game (decide (game.endTimeUtc ≤ now)) epoch) epoch rows = .ok store := hseal
  have hstore : rollups game.id = sealedStore sqrt game.clampedEpochTicks fin epochs := h.store
  by_cases hservices : roundServices setup history round = []
  · have hnil := h.skip hstart hround hservices
    have hrowsNil : rows = [] := by
      rw [hservices, List.map_nil, List.perm_nil, List.map_eq_nil_iff] at hgrid
      exact hgrid
    rw [hrowsNil, materializeEpoch_nil] at hmaterialize
    obtain rfl := Except.ok.inj hmaterialize
    rw [Function.update_eq_self]
    have hpos : 1 ≤ epoch.epoch + 1 := hnext.pos.trans (by omega)
    exact ⟨roster, fin, epochs, h, ⟨hpos, .inr ⟨hnil, round, hround, hservices⟩⟩, hfresh⟩
  · obtain ⟨roster', hne, hkeys, hcomplete, hsealed⟩ :=
      exists_roster h hrecorded hstart hround hservices
    let e : EpochEvidence := ⟨epoch, rows⟩
    have hnumber : epoch.epoch = epochs.length + 1 := by
      rcases hnext.next with hk | ⟨-, round', hround', hempty⟩
      · exact hk
      · obtain rfl := hround.unique hround'
        exact absurd hempty hservices
    have hnum : Numbered (epochs ++ [e]) := numbered_append_singleton.mpr ⟨h.numbered, hnumber⟩
    have hcomplete' : ∀ a ∈ epochs ++ [e], a.Complete roster' := by
      intro a ha
      rcases List.mem_append.mp ha with ha | ha
      · exact hcomplete a ha
      · rw [List.mem_singleton.mp ha]
        exact ⟨hkeys ▸ hgrid, htagged⟩
    have hrowsNe : e.rows ≠ [] := by
      intro hnil
      have hmap : (roundServices setup history round).map StableService.key = [] := by
        rw [show rows = [] from hnil, List.map_nil, List.nil_perm] at hgrid
        exact hgrid
      exact hservices (List.map_eq_nil_iff.mp hmap)
    let fin' := Function.update fin epoch
      (finalizedRound game (decide (game.endTimeUtc ≤ now)) epoch)
    have hlast : fin' epoch = finalizedRound game (decide (game.endTimeUtc ≤ now)) epoch :=
      Function.update_self ..
    have hother : ∀ a ∈ epochs, fin a.epochMeta = fin' a.epochMeta := by
      intro a ha
      refine (Function.update_of_ne (fun heq => ?_) _ _).symm
      have hle := (h.numbered.mem_range ha).2
      rw [heq] at hle
      omega
    rw [hstore, sealedStore_congr hother] at hmaterialize
    have hfreshHeader : ¬∃ header ∈ (sealedStore sqrt game.clampedEpochTicks fin' epochs).headers,
        header.epoch = e.epochMeta.epoch := by
      rintro ⟨header, hheader, heq⟩
      exact absurd heq (epoch_lt_of_mem_headers hnum hheader).ne
    have hvalid := valid_of_materializeEpoch (e := e) hfreshHeader hmaterialize
    rw [← hlast, materializeEpoch_sealedStore (e := e) hnum hcomplete' hvalid hrowsNe]
      at hmaterialize
    obtain rfl := Except.ok.inj hmaterialize
    refine ⟨roster', fin', epochs ++ [e], ⟨hnum, hcomplete', Function.update_self .., ?_⟩,
      ⟨?_, .inl ?_⟩, ?_⟩
    · refine fun _ => ⟨hne, startRound, hstart, round, hround, hkeys, fun a ha => ?_⟩
      rcases List.mem_append.mp ha with ha | ha
      · obtain ⟨hlow, hhigh, hclock, hfinalized⟩ := hsealed a ha
        exact ⟨hlow, hhigh, hclock, hother a ha ▸ hfinalized⟩
      · rw [List.mem_singleton.mp ha]
        exact sealedAt_of_immutable hgrows hof himmutable hlast
    · have hpos := hnext.pos
      omega
    · rw [hnumber, List.length_append, List.length_singleton]
      rfl
    · exact fun hnil => absurd hnil (by simp)

/-- A transaction seals a sequence of epochs which continues the sealed ones. -/
theorem Intact.seals {epochMetas : List EpochMetaRow} {history' : AdHistory}
    {rollups' : ℤ → RollupStore} (hrecorded₀ : Recorded setup game history₀)
    (hstart : startRound ∈ game.scoringStartRound)
    (hseals : Seals sqrt setup game startRound (decide (game.endTimeUtc ≤ now)) history epochMetas
      rollups history' rollups')
    (hof : ∀ epoch ∈ epochMetas,
      epoch.Of history₀ game.id (ensureRange game rollups₀ startRound now))
    (hconsecutive : Numbering.Consecutive k (epochMetas.map (·.epoch)))
    (hgrows : Grows game.id history₀ history) (hrecorded : Recorded setup game history)
    (h : Intact sqrt setup ⟨game, history, rollups⟩ roster fin epochs)
    (hnext : Next setup game history startRound k epochs)
    (hfresh : epochs = [] → (ensureRange game rollups₀ startRound now).startRound = startRound) :
    Recorded setup game history' ∧ ∃ roster' fin' epochs',
      Intact sqrt setup ⟨game, history', rollups'⟩ roster' fin' epochs' := by
  induction hseals generalizing k roster fin epochs with
  | nil => exact ⟨hrecorded, roster, fin, epochs, h⟩
  | stop => exact ⟨hrecorded, roster, fin, epochs, h⟩
  | @cons history history' history'' epoch epochMetas rollups rollups' store himmutable hgrows'
      hrecorded' hseal hrest ih =>
      obtain ⟨hk, hconsecutive⟩ := hconsecutive
      subst hk
      have htrans := hgrows.trans hgrows'
      obtain ⟨roster', fin', epochs', h', hnext', hfresh'⟩ :=
        (h.grow hgrows').sealNext htrans hrecorded₀ hrecorded' hstart (hof epoch List.mem_cons_self)
          himmutable (hnext.grow hgrows') hfresh hseal
      exact ih (fun other hother => hof other (List.mem_cons_of_mem epoch hother)) hconsecutive
        htrans hrecorded' h' hnext' hfresh'

/-- The number of the last sealed epoch. -/
theorem Intact.previousEpoch (h : Intact sqrt setup ⟨game, history, rollups⟩ roster fin epochs) :
    (((rollups game.id).headers.map (·.epoch)).max?).getD 0 = epochs.length := by
  have hstore : rollups game.id = sealedStore sqrt game.clampedEpochTicks fin epochs := h.store
  have hnumbered : Numbering.Numbered (epochs.map (·.epochMeta.epoch)) := by
    rw [Numbering.Numbered, List.length_map]
    exact h.numbered
  rw [hstore, map_epoch_headers_sealedStore, hnumbered.max?_getD, List.length_map]

theorem Intact.ensure {w w' : RollupWorld} (h : Intact sqrt setup w roster fin epochs)
    (hrecorded : Recorded setup w.game w.history) (hensures : Ensures sqrt setup now w w') :
    Recorded setup w'.game w'.history ∧ ∃ roster' fin' epochs',
      Intact sqrt setup w' roster' fin' epochs' := by
  obtain ⟨game, history, rollups⟩ := w
  obtain ⟨game', history', rollups'⟩ := w'
  obtain ⟨rfl, hensures⟩ := hensures
  cases hstart : game'.scoringStartRound with
  | none =>
      simp only [hstart] at hensures
      obtain ⟨rfl, rfl⟩ := hensures
      exact ⟨hrecorded, roster, fin, epochs, h⟩
  | some startRound =>
      simp only [hstart] at hensures
      have hprevious := h.previousEpoch
      have hrange : (ensureRange game' rollups startRound now).startRound =
          startRound + epochs.length * game'.clampedEpochTicks := by
        rw [ensureRange, hprevious]
      have hticks : 0 < game'.clampedEpochTicks := clampedEpochTicks_pos
      have hofficial : (ensureRange game' rollups startRound now).officialStartRound ≤
          (ensureRange game' rollups startRound now).startRound := by
        rw [hrange]
        exact le_add_of_nonneg_right (by positivity)
      have hof : ∀ epoch ∈ loadEpochMeta setup history game'.id
          (ensureRange game' rollups startRound now),
          epoch.Of history game'.id (ensureRange game' rollups startRound now) := by
        intro epoch hepoch
        obtain ⟨k, hk, rfl⟩ := List.mem_map.mp hepoch
        exact of_mem_keys hticks hofficial (mem_sortedKeys.mp hk)
      have hconsecutive : Numbering.Consecutive ((epochs.length : ℤ) + 1)
          ((loadEpochMeta setup history game'.id
            (ensureRange game' rollups startRound now)).map (·.epoch)) :=
        consecutive_loadEpochMeta (hrecorded.sequential startRound hstart) hticks
          (Nat.cast_nonneg epochs.length) hrange rfl
      refine h.seals hrecorded hstart hensures hof hconsecutive (.refl _ _) hrecorded
        ⟨by omega, .inl rfl⟩ ?_
      rintro rfl
      rw [hrange, List.length_nil, Nat.cast_zero, zero_mul, add_zero]

end Sealing

section Reopening

variable {sqrt : ℚ → ℚ} {setup : AdSetup} {game : AdScoreboardGameRow} {history : AdHistory}
  {rollups : ℤ → RollupStore} {roster : FrozenRoster} {fin : EpochMetaRow → ℤ}
  {epochs : List EpochEvidence} {header : AdEpochRollup}

/-- A stored header is the one of a sealed epoch. -/
theorem Intact.exists_of_mem (h : Intact sqrt setup ⟨game, history, rollups⟩ roster fin epochs)
    (hheader : header ∈ (rollups game.id).headers) :
    ∃ e ∈ epochs, header.epoch = e.epochMeta.epoch ∧ header.endRound = e.epochMeta.endRound ∧
      header.finalizedRound = fin e.epochMeta := by
  have hstore : rollups game.id = sealedStore sqrt game.clampedEpochTicks fin epochs := h.store
  rw [hstore, mem_headers_sealedStore] at hheader
  obtain ⟨before, e, after, rfl, rfl⟩ := hheader
  exact ⟨e, by simp, rfl, rfl, rfl⟩

/-- Deleting the epochs from a number on leaves the earlier ones. -/
theorem Intact.truncate (h : Intact sqrt setup ⟨game, history, rollups⟩ roster fin epochs)
    {deleted : AdEpochRollup → Bool} (first : ℤ)
    (hdeleted : ∀ header ∈ (rollups game.id).headers,
      deleted header = decide (first ≤ header.epoch)) :
    Intact sqrt setup
      ⟨game, history, Function.update rollups game.id ((rollups game.id).delete deleted)⟩ roster fin
      (epochs.take (first - 1).toNat) := by
  have hstore : rollups game.id = sealedStore sqrt game.clampedEpochTicks fin epochs := h.store
  have happend := List.take_append_drop (first - 1).toNat epochs
  have hnum : Numbered (epochs.take (first - 1).toNat ++ epochs.drop (first - 1).toNat) :=
    happend.symm ▸ h.numbered
  refine ⟨hnum.of_append, fun e he => h.complete e (List.mem_of_mem_take he), ?_, ?_⟩
  · have hsame : ∀ header ∈ (rollups game.id).headers,
        deleted header = decide (((epochs.take (first - 1).toNat).length : ℤ) < header.epoch) := by
      intro header hheader
      obtain ⟨e, he, hepoch, -⟩ := h.exists_of_mem hheader
      have hrange := h.numbered.mem_range he
      rw [hdeleted header hheader, hepoch, List.length_take]
      exact decide_eq_decide.mpr (by omega)
    change Function.update rollups game.id ((rollups game.id).delete deleted) game.id = _
    rw [Function.update_self, hstore]
    rw [hstore] at hsame
    conv_lhs => rw [← happend]
    rw [← happend, List.take_append_drop] at hsame
    exact delete_sealedStore hnum (by rwa [happend])
  · intro hne
    have hne' : epochs ≠ [] := fun hnil => hne (by rw [hnil, List.take_nil])
    obtain ⟨hservices, startRound, hstart, round, hround, hkeys, hsealed⟩ := h.frozen hne'
    exact ⟨hservices, startRound, hstart, round, hround, hkeys,
      fun e he => hsealed e (List.mem_of_mem_take he)⟩

/-- The first epoch which is reopened by an overridden round. -/
def firstInvalidated (game : AdScoreboardGameRow) (sealedEpochs : ℕ) (roundNumber : ℤ) : ℤ :=
  match game.scoringStartRound with
  | none => sealedEpochs + 1
  | some startRound =>
    if startRound ≤ roundNumber then (roundNumber - startRound).tdiv (max game.epochTicks 1) + 1
    else sealedEpochs + 1

theorem Intact.invalidateFromRound
    (h : Intact sqrt setup ⟨game, history, rollups⟩ roster fin epochs) (roundNumber : ℤ) :
    Intact sqrt setup ⟨game, history, Function.update rollups game.id
        (invalidateRollupsFromRound game (rollups game.id) roundNumber)⟩ roster fin
      (epochs.take (firstInvalidated game epochs.length roundNumber - 1).toNat) := by
  refine h.truncate _ fun header hheader => ?_
  obtain ⟨e, he, hepoch, -⟩ := h.exists_of_mem hheader
  have hrange := h.numbered.mem_range he
  have hlast : decide ((epochs.length : ℤ) + 1 ≤ header.epoch) = false :=
    decide_eq_false (by omega)
  unfold firstInvalidated
  cases game.scoringStartRound with
  | none => exact hlast.symm
  | some startRound =>
      change (decide (startRound ≤ roundNumber) && _) = _
      by_cases hle : startRound ≤ roundNumber
      · rw [decide_eq_true hle, Bool.true_and]
        simp only [if_pos hle]
      · rw [decide_eq_false hle, Bool.false_and]
        simp only [if_neg hle, hlast]

/-- No epoch is left which contains the overridden round or a later one. -/
theorem Intact.endRound_lt (h : Intact sqrt setup ⟨game, history, rollups⟩ roster fin epochs)
    {startRound roundNumber : ℤ} (hstart : startRound ∈ game.scoringStartRound)
    (hle : startRound ≤ roundNumber)
    (hheader : header ∈
      (invalidateRollupsFromRound game (rollups game.id) roundNumber).headers) :
    header.endRound < roundNumber := by
  obtain ⟨hmem, hkept⟩ := List.mem_filter.mp hheader
  obtain ⟨e, he, hepoch, hend, -⟩ := h.exists_of_mem hmem
  obtain ⟨-, startRound', hstart', round, -, -, hsealed⟩ := h.frozen (List.ne_nil_of_mem he)
  obtain rfl := Option.mem_unique hstart hstart'
  have hhigh : e.epochMeta.endRound < startRound + e.epochMeta.epoch * game.clampedEpochTicks :=
    (hsealed e he).high
  have hticks : game.clampedEpochTicks ≤ max game.epochTicks 1 := by
    unfold AdScoreboardGameRow.clampedEpochTicks
    omega
  have hlt : header.epoch ≤ (roundNumber - startRound) / max game.epochTicks 1 := by
    rw [show game.scoringStartRound = some startRound from hstart, Bool.not_eq_true'] at hkept
    simp only [Option.any_some, decide_eq_true hle, Bool.true_and, decide_eq_false_iff_not] at hkept
    rw [Int.tdiv_eq_ediv_of_nonneg (by omega)] at hkept
    omega
  have hmul := (Int.le_ediv_iff_mul_le (by omega)).mp hlt
  have hscale : header.epoch * game.clampedEpochTicks ≤ header.epoch * max game.epochTicks 1 :=
    mul_le_mul_of_nonneg_left hticks (by have hrange := h.numbered.mem_range he; omega)
  rw [← hepoch] at hhigh
  omega

/-- What is left was sealed when its last flags had expired. -/
structure Settled (game : AdScoreboardGameRow) (history : AdHistory) (header : AdEpochRollup) :
    Prop where
  full : 1 ≤ header.epochWeight
  finalized : header.endRound + reopenLifetimeTicks game ≤ header.finalizedRound
  expired : ∃ round ∈ history.rounds, round.gameId = game.id ∧
    header.endRound + game.lifetimeTicks ≤ round.number

theorem lifetimeTicks_le : game.lifetimeTicks ≤ reopenLifetimeTicks game := by
  unfold AdScoreboardGameRow.lifetimeTicks reopenLifetimeTicks
  omega

theorem lt_firstCutShort {store : RollupStore} (hheader : header ∈ store.headers)
    (hlt : header.epoch < firstCutShort game store) : header.cutShort game = false := by
  by_contra hcut
  have hmem : header.epoch ∈ (store.headers.filter (·.cutShort game)).map (·.epoch) :=
    List.mem_map_of_mem (List.mem_filter.mpr ⟨hheader, by simpa using hcut⟩)
  cases hmin : ((store.headers.filter (·.cutShort game)).map (·.epoch)).min? with
  | none => exact List.ne_nil_of_mem hmem (List.min?_eq_none_iff.mp hmin)
  | some first =>
      rw [firstCutShort, hmin, Option.getD_some] at hlt
      exact absurd ((List.min?_eq_some_iff.mp hmin).2 _ hmem) (not_le.mpr hlt)

theorem Intact.settled (h : Intact sqrt setup ⟨game, history, rollups⟩ roster fin epochs)
    {nextEnd : ℤ} (hlater : game.endTimeUtc < nextEnd)
    (hheader : header ∈ (invalidateRollupsForEndChange game (rollups game.id) game.endTimeUtc
      nextEnd).headers) : Settled game history header := by
  rw [invalidateRollupsForEndChange, if_neg hlater.ne, if_neg hlater.asymm] at hheader
  obtain ⟨hmem, hkept⟩ := List.mem_filter.mp hheader
  rw [Bool.not_eq_true', decide_eq_false_iff_not, not_le] at hkept
  have hcut := lt_firstCutShort hmem hkept
  rw [AdEpochRollup.cutShort, Bool.or_eq_false_iff, decide_eq_false_iff_not,
    decide_eq_false_iff_not, not_lt, not_lt] at hcut
  obtain ⟨e, he, -, hend, hfin⟩ := h.exists_of_mem hmem
  obtain ⟨-, startRound, hstart, round, -, -, hsealed⟩ := h.frozen (List.ne_nil_of_mem he)
  obtain ⟨-, -, ⟨clock, hclock, hgame, hle⟩, hfinalized⟩ := hsealed e he
  refine ⟨hcut.1, hcut.2, clock, hclock, hgame, ?_⟩
  have hlifetime : game.lifetimeTicks ≤ reopenLifetimeTicks game := lifetimeTicks_le
  have hpos : 0 < game.lifetimeTicks := lifetimeTicks_pos
  rcases hfinalized with hended | ⟨-, hlive⟩
  · omega
  · exact hend ▸ hlive.trans hle

/-- An extension reopens at most the last round, which no epoch left contains. -/
theorem Intact.extend (h : Intact sqrt setup ⟨game, history, rollups⟩ roster fin epochs)
    {history' : AdHistory} {nextEnd : ℤ} (hlater : game.endTimeUtc < nextEnd)
    (hreopens : Reopens game.id history history') :
    Intact sqrt setup (endChange ⟨game, history, rollups⟩ nextEnd history') roster fin
      (epochs.take (firstCutShort game (rollups game.id) - 1).toNat) := by
  have htruncated : Intact sqrt setup ⟨game, history, Function.update rollups game.id
      (invalidateRollupsForEndChange game (rollups game.id) game.endTimeUtc nextEnd)⟩ roster fin
      (epochs.take (firstCutShort game (rollups game.id) - 1).toNat) := by
    rw [invalidateRollupsForEndChange, if_neg hlater.ne, if_neg hlater.asymm]
    exact h.truncate _ fun _ _ => rfl
  refine ⟨htruncated.numbered, htruncated.complete, htruncated.store, fun hne => ?_⟩
  obtain ⟨hservices, startRound, hstart, round, hround, hkeys, hsealed⟩ := htruncated.frozen hne
  obtain ⟨e, he⟩ := List.exists_mem_of_ne_nil _ hne
  -- the epoch was sealed when a round after it had been recorded
  have hlaterRound : ∃ later ∈ history.rounds, later.gameId = game.id ∧
      round.number < later.number := by
    have hstore : invalidateRollupsForEndChange game (rollups game.id) game.endTimeUtc nextEnd =
        sealedStore sqrt game.clampedEpochTicks fin
          (epochs.take (firstCutShort game (rollups game.id) - 1).toNat) := by
      have hstored := htruncated.store
      change Function.update rollups game.id _ game.id = _ at hstored
      rwa [Function.update_self] at hstored
    obtain ⟨before, after, hsplit⟩ := List.append_of_mem he
    have hheader : headerOf game.clampedEpochTicks fin before e ∈
        (invalidateRollupsForEndChange game (rollups game.id) game.endTimeUtc nextEnd).headers := by
      rw [hstore]
      exact mem_headers_sealedStore.mpr ⟨before, e, after, hsplit, rfl⟩
    obtain ⟨-, -, later, hmem, hgame, hexpired⟩ := h.settled hlater hheader
    have hlow : startRound + (e.epochMeta.epoch - 1) * game.clampedEpochTicks ≤
        e.epochMeta.endRound := (hsealed e he).low
    have hrange := htruncated.numbered.mem_range he
    have hnonneg : 0 ≤ (e.epochMeta.epoch - 1) * game.clampedEpochTicks :=
      mul_nonneg (by omega) clampedEpochTicks_pos.le
    have hlifetime : 0 < game.lifetimeTicks := lifetimeTicks_pos
    have hnumber : round.number = startRound := hround.number
    change e.epochMeta.endRound + game.lifetimeTicks ≤ later.number at hexpired
    exact ⟨later, hmem, hgame, by omega⟩
  have hkept := hreopens.kept round hround.mem hround.gameId hround.finalized hlaterRound
  rw [← roundServices_of_kept hkept] at hkeys
  refine ⟨hservices, startRound, hstart, round,
    ⟨hkept.mem, hround.gameId, hround.number, hround.finalized⟩, hkeys, fun a ha => ?_⟩
  obtain ⟨hlow, hhigh, ⟨clock, hclock, hgame, hle⟩, hfinalized⟩ := hsealed a ha
  obtain ⟨clock', hclock', hgame', hnumber⟩ := hreopens.numbers clock hclock hgame
  exact ⟨hlow, hhigh, ⟨clock', hclock', hgame', hnumber ▸ hle⟩, hfinalized⟩

theorem Intact.endChange (h : Intact sqrt setup ⟨game, history, rollups⟩ roster fin epochs)
    {history' : AdHistory} (nextEnd : ℤ) (hsame : nextEnd = game.endTimeUtc → history' = history)
    (hreopens : Reopens game.id history history') :
    ∃ epochs', Intact sqrt setup (endChange ⟨game, history, rollups⟩ nextEnd history') roster fin
      epochs' := by
  rcases lt_trichotomy nextEnd game.endTimeUtc with hlt | heq | hgt
  · refine ⟨epochs.take ((1 : ℤ) - 1).toNat, ?_⟩
    have htruncated : Intact sqrt setup ⟨game, history, Function.update rollups game.id
        (invalidateRollupsForEndChange game (rollups game.id) game.endTimeUtc nextEnd)⟩ roster fin
        (epochs.take ((1 : ℤ) - 1).toNat) := by
      rw [invalidateRollupsForEndChange, if_neg hlt.ne', if_pos hlt]
      refine h.truncate 1 fun header hheader => ?_
      obtain ⟨e, he, hepoch, -⟩ := h.exists_of_mem hheader
      exact (decide_eq_true (hepoch ▸ (h.numbered.mem_range he).1)).symm
    exact ⟨htruncated.numbered, htruncated.complete, htruncated.store, fun hne => absurd rfl hne⟩
  · refine ⟨epochs, ?_⟩
    obtain rfl := hsame heq
    subst heq
    have hstore : invalidateRollupsForEndChange game (rollups game.id) game.endTimeUtc
        game.endTimeUtc = rollups game.id := if_pos rfl
    change Intact sqrt setup ⟨game, history', Function.update rollups game.id
      (invalidateRollupsForEndChange game (rollups game.id) game.endTimeUtc game.endTimeUtc)⟩
      roster fin epochs
    rw [hstore, Function.update_eq_self]
    exact h
  · exact ⟨_, h.extend hgt hreopens⟩

end Reopening

section Runs

variable {sqrt : ℚ → ℚ} {setup : AdSetup} {w w' : RollupWorld} {roster : FrozenRoster}
  {fin : EpochMetaRow → ℤ} {epochs : List EpochEvidence}

/-- Every step leaves a sealed prefix. -/
theorem Intact.step (h : Intact sqrt setup w roster fin epochs)
    (hrecorded : Recorded setup w.game w.history) (hstep : Step sqrt setup w w') :
    Recorded setup w'.game w'.history ∧ ∃ roster' fin' epochs',
      Intact sqrt setup w' roster' fin' epochs' := by
  cases hstep with
  | @start startRound hstart hsequential =>
      refine ⟨⟨hrecorded.schema, ?_⟩, roster, fin, epochs, h.numbered, h.complete, h.store, ?_⟩
      · intro startRound' hstart'
        obtain rfl := Option.some.inj hstart'
        exact hsequential
      · intro hne
        obtain ⟨-, startRound', hstart', -⟩ := h.frozen hne
        rw [hstart] at hstart'
        exact absurd hstart' (by simp)
  | grow hgrows hrecorded' => exact ⟨hrecorded', roster, fin, epochs, h.grow hgrows⟩
  | ensure now hensures => exact h.ensure hrecorded hensures
  | invalidateFromRound roundNumber =>
      exact ⟨hrecorded, roster, fin, _, h.invalidateFromRound roundNumber⟩
  | endChange nextEnd hsame hreopens hrecorded' =>
      obtain ⟨epochs', h'⟩ := h.endChange nextEnd hsame hreopens
      exact ⟨⟨hrecorded'.schema, hrecorded'.sequential⟩, roster, fin, epochs', h'⟩

theorem Intact.run (h : Reachable sqrt setup w) :
    ∃ roster fin epochs, Intact sqrt setup w roster fin epochs := by
  obtain ⟨w₀, hempty, hrecorded, hrun⟩ := h
  have hinvariant : Recorded setup w.game w.history ∧
      ∃ roster fin epochs, Intact sqrt setup w roster fin epochs := by
    induction hrun with
    | refl =>
        refine ⟨hrecorded, ⟨[], by simp⟩, fun _ => 0, [], rfl, by simp, hempty, ?_⟩
        exact fun hne => absurd rfl hne
    | tail _ hstep ih =>
        obtain ⟨hrecorded', roster, fin, epochs, h⟩ := ih
        exact h.step hrecorded' hstep
  exact hinvariant.2

/-- The store is a sealed prefix; no epoch is left of an overridden round or a later one, and an
extension leaves only epochs whose last flags had expired. -/
theorem rollups_safe (h : Reachable sqrt setup w) :
    (∃ (roster : FrozenRoster) (fin : EpochMetaRow → ℤ) (epochs : List EpochEvidence),
      Numbered epochs ∧ (∀ e ∈ epochs, e.Complete roster) ∧
        w.store = sealedStore sqrt w.game.clampedEpochTicks fin epochs) ∧
    (∀ startRound ∈ w.game.scoringStartRound, ∀ roundNumber, startRound ≤ roundNumber →
      ∀ header ∈ (invalidateRollupsFromRound w.game w.store roundNumber).headers,
        header.endRound < roundNumber) ∧
    ∀ nextEnd, w.game.endTimeUtc < nextEnd →
      ∀ header ∈ (invalidateRollupsForEndChange w.game w.store w.game.endTimeUtc nextEnd).headers,
        Settled w.game w.history header := by
  obtain ⟨roster, fin, epochs, h⟩ := Intact.run h
  refine ⟨⟨roster, fin, epochs, h.numbered, h.complete, h.store⟩, ?_, ?_⟩
  · exact fun startRound hstart roundNumber hle header hheader =>
      h.endRound_lt hstart hle hheader
  · exact fun nextEnd hlater header hheader => h.settled hlater hheader

end Runs

section LateStart

/-- The first round is played before the official start. -/
def lateContest : AdScoreboardGameRow := ⟨7, 1, some 2, some 1, none, none, 1000⟩

def lateHistory : AdHistory where
  rounds := [⟨⟨1, 7, 1, 0⟩, 50, true⟩, ⟨⟨2, 7, 2, 50⟩, 110, true⟩, ⟨⟨3, 7, 3, 110⟩, 160, false⟩]
  flags := [⟨11, 2, 21, true, 1⟩, ⟨12, 2, 22, true, 1⟩]
  checkResults := [⟨2, 21, .ok, none, 55, some 1, true⟩, ⟨2, 22, .ok, none, 56, some 1, true⟩]
  flagDeliveryResults := []
  attacks := []
  roundNumber_nodup := by decide

theorem recorded_lateHistory : Recorded contestSetup lateContest lateHistory where
  schema := by
    refine ⟨⟨contestSetup.tables lateHistory fun _ => .empty, ?_, ?_, ?_, ?_, ?_, ?_, ?_, ?_, ?_,
      ?_, ?_, ?_⟩, rfl⟩
    · decide
    · decide
    · decide
    · decide
    · decide +kernel
    · decide
    · decide
    · decide
    · decide
    · decide
    · decide
    · exact fun _ _ hrow => absurd hrow List.not_mem_nil
  sequential := by
    intro startRound hstart round hround hgame number hlow hhigh
    obtain rfl := Option.some.inj hstart
    simp only [lateHistory, List.mem_cons, List.not_mem_nil, or_false] at hround
    have hcases : number = 2 ∨ number = 3 := by
      rcases hround with rfl | rfl | rfl <;> simp at hhigh <;> omega
    rcases hcases with rfl | rfl
    · refine ⟨⟨⟨2, 7, 2, 50⟩, 110, true⟩, by simp [lateHistory], rfl, rfl, ?_⟩
      rcases hround with rfl | rfl | rfl <;> simp at hhigh ⊢
    · refine ⟨⟨⟨3, 7, 3, 110⟩, 160, false⟩, by simp [lateHistory], rfl, rfl, ?_⟩
      rcases hround with rfl | rfl | rfl <;> simp at hhigh ⊢

/-- The first scored round is sealed while the event runs. -/
theorem exists_reachable_lateContest : ∃ w : RollupWorld,
    Reachable (fun _ => 0) contestSetup w ∧ w.game = lateContest ∧ w.history = lateHistory ∧
      ((invalidateRollupsFromRound lateContest w.store 1).headers.any fun header =>
        decide (1 ≤ header.endRound)) = true := by
  have hsealed : (match ensureEpochRollups (fun _ => 0) lateContest contestSetup lateHistory
      unsealed 200 with
      | .ok rollups => (invalidateRollupsFromRound lateContest (rollups 7) 1).headers.any
          fun header => decide (1 ≤ header.endRound)
      | .error _ => false) = true := by
    decide +kernel
  cases hensure : ensureEpochRollups (fun _ => 0) lateContest contestSetup lateHistory
      unsealed 200 with
  | error error =>
      rw [hensure] at hsealed
      exact absurd hsealed Bool.false_ne_true
  | ok rollups =>
      rw [hensure] at hsealed
      have hstep := Step.ensure 200 (ensures_of_ensureEpochRollups
        (w := ⟨lateContest, lateHistory, unsealed⟩) recorded_lateHistory hensure)
      exact ⟨⟨lateContest, lateHistory, rollups⟩,
        ⟨⟨lateContest, lateHistory, unsealed⟩, rfl, recorded_lateHistory, .single hstep⟩,
        rfl, rfl, hsealed⟩

theorem rollups_safe_lateContest : ∃ w : RollupWorld, w.game = lateContest ∧
    (∃ (roster : FrozenRoster) (fin : EpochMetaRow → ℤ) (epochs : List EpochEvidence),
      Numbered epochs ∧ (∀ e ∈ epochs, e.Complete roster) ∧
        w.store = sealedStore (fun _ => 0) w.game.clampedEpochTicks fin epochs) ∧
    (∀ startRound ∈ w.game.scoringStartRound, ∀ roundNumber, startRound ≤ roundNumber →
      ∀ header ∈ (invalidateRollupsFromRound w.game w.store roundNumber).headers,
        header.endRound < roundNumber) ∧
    ∀ nextEnd, w.game.endTimeUtc < nextEnd →
      ∀ header ∈ (invalidateRollupsForEndChange w.game w.store w.game.endTimeUtc nextEnd).headers,
        Settled w.game w.history header := by
  obtain ⟨w, hreachable, hgame, -⟩ := exists_reachable_lateContest
  exact ⟨w, hgame, rollups_safe hreachable⟩

/-- An overridden round before the official start reopens nothing. -/
theorem rollups_kept_before_start : ¬∀ (sqrt : ℚ → ℚ) (setup : AdSetup) (w : RollupWorld),
    Reachable sqrt setup w → ∀ round ∈ w.history.rounds, round.gameId = w.game.id →
      ∀ header ∈ (invalidateRollupsFromRound w.game w.store round.number).headers,
        header.endRound < round.number := by
  intro hall
  obtain ⟨w, hreachable, hgame, hhistory, hany⟩ := exists_reachable_lateContest
  obtain ⟨header, hheader, hle⟩ := List.any_eq_true.mp hany
  have hlt := hall _ _ w hreachable ⟨⟨1, 7, 1, 0⟩, 50, true⟩ (by rw [hhistory]; simp [lateHistory])
    (by rw [hgame]; rfl) header (by rw [hgame]; exact hheader)
  exact absurd (of_decide_eq_true hle) (not_le.mpr hlt)

end LateStart

end RollupWorld

end AttackDefense

end Rsctf
