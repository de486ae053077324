import Rsctf.KingOfTheHill.RollupHistory

/-!
# The King of the Hill store is a sealed prefix

An epoch which may be reopened on its own is the last one, and is sealed after the last round.  So
reopening leaves a prefix of the sealed epochs, and the next sealing goes on right after it.
-/

open Fallible Keyed Numbering

namespace Rsctf

namespace KingOfTheHill

namespace KothEvent

open AttackDefense (withinCutoff)

section Clock

/-- What the clock of an event says about its rounds. -/
structure Timely (event : KothEvent) : Prop where
  numbered : Numbered (event.rounds.map (·.number))
  started : ∀ round ∈ event.rounds, round.startTimeUtc ≤ event.clock
  within : ∀ round ∈ event.rounds, round.startTimeUtc < event.endTimeUtc
  running : event.clock < event.endTimeUtc → ∀ round ∈ event.rounds,
    round.number = event.rounds.length → round.finalized = false
  official : ∀ startRound ∈ event.scoringStartRound, 1 ≤ startRound

variable {event event' : KothEvent} {rounds : List KothRound} {round : KothRound}
  {sqrt : ℚ → ℚ} {config : OfficialConfig}

theorem map_number_setFinalized (number : ℤ) (finalized : Bool) (rounds : List KothRound) :
    (setFinalized number finalized rounds).map (·.number) = rounds.map (·.number) := by
  rw [setFinalized, List.map_map]
  refine List.map_congr_left fun round _ => ?_
  rw [Function.comp_apply]
  split
  · rfl
  · rfl

theorem length_setFinalized (number : ℤ) (finalized : Bool) (rounds : List KothRound) :
    (setFinalized number finalized rounds).length = rounds.length :=
  List.length_map _

theorem mem_setFinalized {number : ℤ} {finalized : Bool}
    (h : round ∈ setFinalized number finalized rounds) :
    (∃ round' ∈ rounds, round.number = round'.number ∧
      round.startTimeUtc = round'.startTimeUtc) ∧
      (round.number = number → round.finalized = finalized) := by
  obtain ⟨round', hround', rfl⟩ := List.mem_map.mp h
  split
  · exact ⟨⟨round', hround', rfl, rfl⟩, fun _ => rfl⟩
  · next hne => exact ⟨⟨round', hround', rfl, rfl⟩, fun heq => absurd heq hne⟩

/-- The numbers of the rounds. -/
theorem Timely.number_iff (h : Timely event) {number : ℤ} :
    (∃ round ∈ event.rounds, round.number = number) ↔
      1 ≤ number ∧ number ≤ event.rounds.length := by
  have hmem := h.numbered.mem_iff (k := number)
  rw [List.mem_map, List.length_map] at hmem
  exact hmem

theorem Timely.number_bounds (h : Timely event) (hround : round ∈ event.rounds) :
    1 ≤ round.number ∧ round.number ≤ event.rounds.length :=
  h.number_iff.mp ⟨round, hround, rfl⟩

theorem Timely.advance (h : Timely event) {startTimeUtc : ℤ}
    (hopen : event.clock < event.endTimeUtc) (hstart : startTimeUtc ≤ event.clock) :
    Timely { event with
      rounds := setFinalized event.rounds.length true event.rounds ++
        [⟨event.rounds.length + 1, startTimeUtc, false⟩] } where
  numbered := by
    rw [List.map_append, map_number_setFinalized, List.map_singleton, numbered_append_singleton,
      List.length_map]
    exact ⟨h.numbered, rfl⟩
  started := by
    intro round hround
    rcases List.mem_append.mp hround with hround | hround
    · obtain ⟨⟨round', hround', -, hstart'⟩, -⟩ := mem_setFinalized hround
      exact hstart'.trans_le (h.started round' hround')
    · rw [List.mem_singleton.mp hround]
      exact hstart
  within := by
    intro round hround
    rcases List.mem_append.mp hround with hround | hround
    · obtain ⟨⟨round', hround', -, hstart'⟩, -⟩ := mem_setFinalized hround
      exact hstart'.trans_lt (h.within round' hround')
    · rw [List.mem_singleton.mp hround]
      exact hstart.trans_lt hopen
  running := by
    intro _ round hround hlast
    rcases List.mem_append.mp hround with hround | hround
    · obtain ⟨⟨round', hround', hnumber, -⟩, -⟩ := mem_setFinalized hround
      have hbounds := h.number_bounds hround'
      change round.number = ((setFinalized event.rounds.length true event.rounds ++ [_]).length : ℤ)
        at hlast
      rw [List.length_append, length_setFinalized, List.length_singleton] at hlast
      omega
    · rw [List.mem_singleton.mp hround]
  official := h.official

theorem Timely.closeout (h : Timely event) (closed : KothRound → Bool)
    (hended : event.endTimeUtc ≤ event.clock) :
    Timely { event with
      rounds := event.rounds.map fun round =>
        { round with finalized := round.finalized || closed round } } where
  numbered := by
    rw [List.map_map]
    exact h.numbered
  started := by
    intro round hround
    obtain ⟨round', hround', rfl⟩ := List.mem_map.mp hround
    exact h.started round' hround'
  within := by
    intro round hround
    obtain ⟨round', hround', rfl⟩ := List.mem_map.mp hround
    exact h.within round' hround'
  running := fun hopen => absurd hopen (not_lt.mpr hended)
  official := h.official

theorem Timely.endChange (h : Timely event) {nextEnd : ℤ}
    (hfuture : nextEnd < event.endTimeUtc → event.rounds ≠ [] → event.clock < nextEnd) :
    Timely (event.endChange config nextEnd) := by
  have hwithin : ∀ round ∈ event.rounds, round.startTimeUtc < nextEnd := by
    intro round hround
    rcases lt_or_ge nextEnd event.endTimeUtc with hlt | hge
    · exact (h.started round hround).trans_lt (hfuture hlt (List.ne_nil_of_mem hround))
    · exact (h.within round hround).trans_le hge
  by_cases hreopen : event.endTimeUtc ≤ event.clock ∧ event.clock < nextEnd
  · have hrounds : (event.endChange config nextEnd).rounds =
        setFinalized event.rounds.length false event.rounds := if_pos hreopen
    constructor
    · rw [hrounds, map_number_setFinalized]
      exact h.numbered
    · intro round hround
      rw [hrounds] at hround
      obtain ⟨⟨round', hround', -, hstart'⟩, -⟩ := mem_setFinalized hround
      exact hstart'.trans_le (h.started round' hround')
    · intro round hround
      rw [hrounds] at hround
      obtain ⟨⟨round', hround', -, hstart'⟩, -⟩ := mem_setFinalized hround
      exact hstart'.trans_lt (hwithin round' hround')
    · intro _ round hround hlast
      rw [hrounds] at hround hlast
      rw [length_setFinalized] at hlast
      exact (mem_setFinalized hround).2 hlast
    · exact h.official
  · have hrounds : (event.endChange config nextEnd).rounds = event.rounds := if_neg hreopen
    constructor
    · rw [hrounds]
      exact h.numbered
    · rw [hrounds]
      exact h.started
    · rw [hrounds]
      exact hwithin
    · rw [hrounds]
      intro hopen
      have hrunning : event.clock < event.endTimeUtc := by
        by_contra hended
        exact hreopen ⟨not_lt.mp hended, hopen⟩
      exact h.running hrunning
    · exact h.official

theorem Timely.step (h : Timely event) (hstep : Step sqrt config event event') : Timely event' := by
  cases hstep with
  | tick hclock =>
      exact ⟨h.numbered, fun round hround => (h.started round hround).trans hclock, h.within,
        fun hopen => h.running (hclock.trans_lt hopen), h.official⟩
  | record evidence => exact ⟨h.numbered, h.started, h.within, h.running, h.official⟩
  | start hnone hpos =>
      exact ⟨h.numbered, h.started, h.within, h.running,
        fun startRound hstart => (Option.some.inj hstart) ▸ hpos⟩
  | advance hopen hstart => exact h.advance hopen hstart
  | closeout closed hended => exact h.closeout closed hended
  | ensure teamEvidence now hensure =>
      exact ⟨h.numbered, h.started, h.within, h.running, h.official⟩
  | endChange nextEnd hfuture => exact h.endChange hfuture

end Clock

section Loads

variable (config : OfficialConfig) (event : KothEvent) (ended : Bool) (startRound rangeStart k : ℤ)

def cutoff : Option ℤ := if ended then some event.endTimeUtc else none

def visibleRounds : List KothRound :=
  scoringRounds ended event.rounds startRound rangeStart (event.cutoff ended)

/-- The visible rounds of an epoch. -/
def epochRounds : List KothRound :=
  rows (fun round : KothRound => epochOf startRound config.clampedEpochTicks round.number) k
    (event.visibleRounds ended startRound rangeStart)

/-- The metadata of an epoch. -/
def epochMetas : List HillEpochMetaRow :=
  config.hillOrder.map (hillMeta config event.evidence (event.cutoff ended) ended k
    (event.epochRounds config ended startRound rangeStart k))

def visibleMetas : List HillEpochMetaRow :=
  loadHillMetas config event.evidence (event.cutoff ended) ended event.rounds startRound rangeStart
    config.clampedEpochTicks (event.cutoff ended)

def latestVisibleRound : ℤ :=
  (((event.visibleMetas config ended startRound rangeStart).map (·.endRound)).max?).getD 0

variable {config event ended startRound rangeStart k} {round : KothRound} {row : HillEpochMetaRow}
  {m : ℤ}

theorem clampedEpochTicks_pos : 0 < config.clampedEpochTicks := by
  unfold OfficialConfig.clampedEpochTicks
  omega

/-- No round is hidden: the rounds of an event start before its end. -/
theorem Timely.mem_visibleRounds (h : Timely event) :
    round ∈ event.visibleRounds ended startRound rangeStart ↔
      round ∈ event.rounds ∧ startRound ≤ round.number ∧ rangeStart ≤ round.number := by
  have hwithin : round ∈ event.rounds →
      withinCutoff ended (event.cutoff ended) round.startTimeUtc = true := by
    intro hround
    cases ended with
    | false => rfl
    | true => exact decide_eq_true (h.within round hround)
  rw [visibleRounds, scoringRounds, List.mem_filter, Bool.and_eq_true, Bool.and_eq_true,
    decide_eq_true_eq, decide_eq_true_eq]
  exact ⟨fun ⟨hround, hnumbers, _⟩ => ⟨hround, hnumbers⟩,
    fun ⟨hround, hnumbers⟩ => ⟨hround, hnumbers, hwithin hround⟩⟩

theorem Timely.mem_epochRounds (h : Timely event) :
    round ∈ event.epochRounds config ended startRound rangeStart k ↔
      round ∈ event.visibleRounds ended startRound rangeStart ∧
        startRound + (k - 1) * config.clampedEpochTicks ≤ round.number ∧
          round.number < startRound + k * config.clampedEpochTicks := by
  rw [epochRounds, mem_rows]
  exact and_congr_right fun hround =>
    block_eq_iff clampedEpochTicks_pos (h.mem_visibleRounds.mp hround).2.1

theorem visibleMetas_eq (hconfig : config.epochTicks = config.clampedEpochTicks) :
    event.visibleMetas config ended startRound rangeStart =
      (sortedKeys ((event.visibleRounds ended startRound rangeStart).map fun round =>
        epochOf startRound config.clampedEpochTicks round.number)).flatMap
          (event.epochMetas config ended startRound rangeStart) :=
  if_pos hconfig

/-- Without hills, or with epochs of a length which is not allowed, nothing is loaded. -/
theorem visibleMetas_eq_nil (h : config.epochTicks ≠ config.clampedEpochTicks ∨ config.hills = []) :
    event.visibleMetas config ended startRound rangeStart = [] := by
  by_cases hconfig : config.epochTicks = config.clampedEpochTicks
  · have hhills := h.resolve_left (not_not.mpr hconfig)
    rw [visibleMetas_eq hconfig, List.flatMap_eq_nil_iff]
    intro k _
    rw [epochMetas, OfficialConfig.hillOrder, hhills]
    rfl
  · exact if_neg hconfig

theorem mem_visibleMetas (hconfig : config.epochTicks = config.clampedEpochTicks) :
    row ∈ event.visibleMetas config ended startRound rangeStart ↔
      ∃ k, event.epochRounds config ended startRound rangeStart k ≠ [] ∧
        row ∈ event.epochMetas config ended startRound rangeStart k := by
  rw [visibleMetas_eq hconfig, List.mem_flatMap]
  refine exists_congr fun k => and_congr_left fun _ => ?_
  rw [mem_sortedKeys]
  constructor
  · intro hk
    obtain ⟨round, hround, rfl⟩ := List.mem_map.mp hk
    exact rows_ne_nil hround
  · intro hne
    obtain ⟨round, hround⟩ := List.exists_mem_of_ne_nil _ hne
    have hmem := mem_rows.mp hround
    exact hmem.2 ▸ List.mem_map_of_mem hmem.1

theorem epoch_of_mem_epochMetas (h : row ∈ event.epochMetas config ended startRound rangeStart k) :
    row.epoch = k := by
  obtain ⟨hill, -, rfl⟩ := List.mem_map.mp h
  rfl

theorem endRound_of_mem_epochMetas
    (h : row ∈ event.epochMetas config ended startRound rangeStart k) :
    row.endRound = (((event.epochRounds config ended startRound rangeStart k).map
      (·.number)).max?).getD 0 := by
  obtain ⟨hill, -, rfl⟩ := List.mem_map.mp h
  rfl

theorem rows_visibleMetas (hconfig : config.epochTicks = config.clampedEpochTicks)
    (hk : event.epochRounds config ended startRound rangeStart k ≠ []) :
    rows (·.epoch) k (event.visibleMetas config ended startRound rangeStart) =
      event.epochMetas config ended startRound rangeStart k := by
  have hkeys : k ∈ sortedKeys ((event.visibleRounds ended startRound rangeStart).map
      fun round => epochOf startRound config.clampedEpochTicks round.number) := by
    obtain ⟨round, hround⟩ := List.exists_mem_of_ne_nil _ hk
    have hmem := mem_rows.mp hround
    exact mem_sortedKeys.mpr (hmem.2 ▸ List.mem_map_of_mem hmem.1)
  have htag : ∀ j ∈ sortedKeys ((event.visibleRounds ended startRound rangeStart).map
      fun round => epochOf startRound config.clampedEpochTicks round.number),
      ∀ row ∈ event.epochMetas config ended startRound rangeStart j, row.epoch = id j :=
    fun j _ row hrow => epoch_of_mem_epochMetas hrow
  rw [visibleMetas_eq hconfig]
  exact rows_flatMap_of_tag htag (by rw [List.map_id]; exact nodup_sortedKeys _) hkeys

theorem hillOrder_ne_nil (hhills : config.hills ≠ []) : config.hillOrder ≠ [] := by
  obtain ⟨hill, hhill⟩ := List.exists_mem_of_ne_nil _ hhills
  exact List.ne_nil_of_mem (mem_sortedKeys.mpr hhill)

variable (event ended startRound rangeStart k) in
theorem epochMetas_ne_nil (hhills : config.hills ≠ []) :
    event.epochMetas config ended startRound rangeStart k ≠ [] :=
  fun h => hillOrder_ne_nil hhills (List.map_eq_nil_iff.mp h)

theorem mem_epochs_iff (hconfig : config.epochTicks = config.clampedEpochTicks)
    (hhills : config.hills ≠ []) :
    k ∈ (event.visibleMetas config ended startRound rangeStart).map (·.epoch) ↔
      event.epochRounds config ended startRound rangeStart k ≠ [] := by
  rw [List.mem_map]
  constructor
  · rintro ⟨row, hrow, rfl⟩
    obtain ⟨j, hj, hrow⟩ := (mem_visibleMetas hconfig).mp hrow
    exact epoch_of_mem_epochMetas hrow ▸ hj
  · intro hk
    obtain ⟨row, hrow⟩ := List.exists_mem_of_ne_nil _
      (epochMetas_ne_nil event ended startRound rangeStart k hhills)
    exact ⟨row, (mem_visibleMetas hconfig).mpr ⟨k, hk, hrow⟩, epoch_of_mem_epochMetas hrow⟩

/-- The last visible round is one, and no visible round comes after it. -/
theorem latestVisibleRound_spec (hconfig : config.epochTicks = config.clampedEpochTicks)
    (hhills : config.hills ≠ []) (hne : event.visibleRounds ended startRound rangeStart ≠ []) :
    (∃ round ∈ event.visibleRounds ended startRound rangeStart,
      round.number = event.latestVisibleRound config ended startRound rangeStart) ∧
    ∀ round ∈ event.visibleRounds ended startRound rangeStart,
      round.number ≤ event.latestVisibleRound config ended startRound rangeStart := by
  have hrow : ∀ round ∈ event.visibleRounds ended startRound rangeStart,
      ∃ row ∈ event.visibleMetas config ended startRound rangeStart,
        round.number ≤ row.endRound := by
    intro round hround
    have hmem : round ∈ event.epochRounds config ended startRound rangeStart
        (epochOf startRound config.clampedEpochTicks round.number) := mem_rows.mpr ⟨hround, rfl⟩
    obtain ⟨row, hrow⟩ := List.exists_mem_of_ne_nil _ (epochMetas_ne_nil event ended startRound
      rangeStart (epochOf startRound config.clampedEpochTicks round.number) hhills)
    refine ⟨row, (mem_visibleMetas hconfig).mpr ⟨_, List.ne_nil_of_mem hmem, hrow⟩, ?_⟩
    rw [endRound_of_mem_epochMetas hrow]
    exact (exists_max (List.ne_nil_of_mem (List.mem_map_of_mem hmem))).2 _
      (List.mem_map_of_mem hmem)
  obtain ⟨first, hfirst⟩ := List.exists_mem_of_ne_nil _ hne
  obtain ⟨row, hmem, -⟩ := hrow first hfirst
  obtain ⟨hlatest, hmax⟩ := exists_max (List.ne_nil_of_mem
    (List.mem_map_of_mem (f := fun row : HillEpochMetaRow => row.endRound) hmem))
  constructor
  · obtain ⟨last, hlast, hnumber⟩ := List.mem_map.mp hlatest
    obtain ⟨k, hk, hlast⟩ := (mem_visibleMetas hconfig).mp hlast
    have hmax' := (exists_max (l := (event.epochRounds config ended startRound rangeStart k).map
      (·.number)) fun h => hk (List.map_eq_nil_iff.mp h)).1
    obtain ⟨round, hround, hround'⟩ := List.mem_map.mp hmax'
    refine ⟨round, (mem_rows.mp hround).1, ?_⟩
    rw [hround', ← endRound_of_mem_epochMetas hlast]
    exact hnumber
  · intro round hround
    obtain ⟨row, hrow, hle⟩ := hrow round hround
    exact hle.trans (hmax _ (List.mem_map_of_mem hrow))

/-- The visible epochs follow one another. -/
theorem Timely.consecutive (h : Timely event)
    (hconfig : config.epochTicks = config.clampedEpochTicks) (hhills : config.hills ≠ [])
    (hstart : 1 ≤ startRound) (hm : 0 ≤ m)
    (hrange : rangeStart = startRound + m * config.clampedEpochTicks) :
    Consecutive (m + 1) (sortedKeys
      ((event.visibleMetas config ended startRound rangeStart).map (·.epoch))) := by
  have hticks : 0 < config.clampedEpochTicks := clampedEpochTicks_pos
  have hnonneg : 0 ≤ m * config.clampedEpochTicks := mul_nonneg hm hticks.le
  refine consecutive_of_pairwise (pairwise_sortedKeys _) fun j hj => ?_
  rw [mem_sortedKeys, mem_epochs_iff hconfig hhills] at hj
  obtain ⟨round, hround⟩ := List.exists_mem_of_ne_nil _ hj
  obtain ⟨hvisible, hlow, hhigh⟩ := h.mem_epochRounds.mp hround
  obtain ⟨hmem, hofficial, hfrom⟩ := h.mem_visibleRounds.mp hvisible
  have hbounds := h.number_bounds hmem
  constructor
  · by_contra hlt
    have hmul : j * config.clampedEpochTicks ≤ m * config.clampedEpochTicks :=
      mul_le_mul_of_nonneg_right (by omega) hticks.le
    omega
  · intro i hi hle
    have hmul : (i - 1) * config.clampedEpochTicks ≤ (j - 1) * config.clampedEpochTicks :=
      mul_le_mul_of_nonneg_right (by omega) hticks.le
    have hmul' : m * config.clampedEpochTicks ≤ (i - 1) * config.clampedEpochTicks :=
      mul_le_mul_of_nonneg_right (by omega) hticks.le
    have hsucc : i * config.clampedEpochTicks =
        (i - 1) * config.clampedEpochTicks + config.clampedEpochTicks := by ring
    obtain ⟨first, hfirst, hnumber⟩ := h.number_iff.mpr
      (show 1 ≤ startRound + (i - 1) * config.clampedEpochTicks ∧
        startRound + (i - 1) * config.clampedEpochTicks ≤ event.rounds.length by omega)
    rw [mem_sortedKeys, mem_epochs_iff hconfig hhills]
    refine List.ne_nil_of_mem (h.mem_epochRounds.mpr ⟨h.mem_visibleRounds.mpr ⟨hfirst, ?_, ?_⟩,
      hnumber.ge, ?_⟩)
    · omega
    · omega
    · omega

/-- An epoch with a later round is full. -/
theorem Timely.le_length_epochRounds (h : Timely event) (hstart : 1 ≤ startRound)
    (hfrom : startRound ≤ rangeStart)
    (hrange : rangeStart ≤ startRound + (k - 1) * config.clampedEpochTicks)
    (hlater : startRound + k * config.clampedEpochTicks ≤ event.rounds.length) :
    config.clampedEpochTicks ≤
      (event.epochRounds config ended startRound rangeStart k).length := by
  have hticks : 0 < config.clampedEpochTicks := clampedEpochTicks_pos
  have hsucc : k * config.clampedEpochTicks =
      (k - 1) * config.clampedEpochTicks + config.clampedEpochTicks := by ring
  let numbers := (List.range config.clampedEpochTicks.toNat).map fun i : ℕ =>
    startRound + (k - 1) * config.clampedEpochTicks + (i : ℤ)
  have hnodup : numbers.Nodup := List.nodup_range.map fun i j hij => by simpa using hij
  have hsubset : numbers ⊆
      (event.epochRounds config ended startRound rangeStart k).map (·.number) := by
    intro number hnumber
    obtain ⟨i, hi, rfl⟩ := List.mem_map.mp hnumber
    have hlt := List.mem_range.mp hi
    obtain ⟨round, hround, hnumber⟩ := h.number_iff.mpr
      (show 1 ≤ startRound + (k - 1) * config.clampedEpochTicks + (i : ℤ) ∧
        startRound + (k - 1) * config.clampedEpochTicks + (i : ℤ) ≤ event.rounds.length by omega)
    refine List.mem_map.mpr ⟨round, h.mem_epochRounds.mpr
      ⟨h.mem_visibleRounds.mpr ⟨hround, ?_, ?_⟩, ?_, ?_⟩, hnumber⟩
    · omega
    · omega
    · omega
    · omega
  have hlength := (hnodup.subperm hsubset).length_le
  rw [List.length_map, List.length_map, List.length_range] at hlength
  omega

theorem length_epochRounds_le (h : row ∈ event.epochMetas config ended startRound rangeStart k) :
    ((event.epochRounds config ended startRound rangeStart k).length : ℤ) ≤ row.roundCount := by
  obtain ⟨hill, -, rfl⟩ := List.mem_map.mp h
  have hlength : ∀ rounds : List KothRound, rounds.length ≤
      (rounds.flatMap fun round => event.evidence.observations round.number hill).length := by
    intro rounds
    induction rounds with
    | nil => exact le_rfl
    | cons round rounds ih =>
        have hpos := List.length_pos_iff.mpr
          (event.evidence.observations_ne_nil round.number hill)
        rw [List.flatMap_cons, List.length_append, List.length_cons]
        omega
  exact Int.ofNat_le.mpr (hlength _)

end Loads

section Invariant

/-- The event is over, and all its rounds are in the first epochs. -/
structure Over (config : OfficialConfig) (event : KothEvent) (sealedEpochs : ℤ) : Prop where
  ended : event.endTimeUtc ≤ event.clock
  rounds : ∀ startRound ∈ event.scoringStartRound, ∀ round ∈ event.rounds,
    round.number < startRound + sealedEpochs * config.clampedEpochTicks

/-- The store is what sealing a sequence of epochs from the first one on leaves.  Only the last of
them may be reopened on its own. -/
structure Intact (sqrt : ℚ → ℚ) (config : OfficialConfig) (event : KothEvent) (store : RollupStore)
    (fin : EpochEvidence → ℤ) (epochs : List EpochEvidence) : Prop where
  numbered : Numbered (epochs.map (·.epoch))
  complete : ∀ e ∈ epochs, e.Complete config
  valid : ∀ e ∈ epochs, e.Valid config
  store_eq : store = sealedStore sqrt config true fin epochs
  official : event.scoringStartRound = none → epochs = []
  last : ∀ header ∈ store.headers, header.cutShort config.epochTicks = true →
    header.epoch = epochs.length ∧ Over config event epochs.length

variable {sqrt : ℚ → ℚ} {config : OfficialConfig} {event : KothEvent} {store store' : RollupStore}
  {fin : EpochEvidence → ℤ} {epochs : List EpochEvidence} {ended : Bool}
  {startRound rangeStart k : ℤ} {row : HillEpochMetaRow} {round : KothRound}

theorem finalized_of_allFinalized
    (hrow : row ∈ event.epochMetas config ended startRound rangeStart k)
    (hfinal : row.allFinalized = true)
    (hround : round ∈ event.epochRounds config ended startRound rangeStart k) :
    round.finalized = true := by
  obtain ⟨hill, -, rfl⟩ := List.mem_map.mp hrow
  exact List.all_eq_true.mp hfinal round hround

/-- An epoch which is not full, or the last one to be seen, is over together with the event. -/
theorem Timely.over (h : Timely event) (hconfig : config.epochTicks = config.clampedEpochTicks)
    (hhills : config.hills ≠ []) (hstart : startRound ∈ event.scoringStartRound)
    (hfrom : startRound ≤ rangeStart)
    (hrange : rangeStart ≤ startRound + (k - 1) * config.clampedEpochTicks)
    (hk : event.epochRounds config ended startRound rangeStart k ≠ [])
    (hrow : row ∈ event.epochMetas config ended startRound rangeStart k)
    (hfinal : row.allFinalized = true)
    (hcut : row.roundCount < config.clampedEpochTicks ∨
      ¬row.endRound < event.latestVisibleRound config ended startRound rangeStart) :
    Over config event k := by
  have hticks : 0 < config.clampedEpochTicks := clampedEpochTicks_pos
  have hsucc : k * config.clampedEpochTicks =
      (k - 1) * config.clampedEpochTicks + config.clampedEpochTicks := by ring
  obtain ⟨hendMem, hendMax⟩ := exists_max (l := (event.epochRounds config ended startRound
    rangeStart k).map (·.number)) fun hnil => hk (List.map_eq_nil_iff.mp hnil)
  rw [← endRound_of_mem_epochMetas hrow] at hendMem hendMax
  obtain ⟨last, hlast, hlastNumber⟩ := List.mem_map.mp hendMem
  obtain ⟨hlastVisible, hlow, hhigh⟩ := h.mem_epochRounds.mp hlast
  obtain ⟨hlastMem, -, hlastFrom⟩ := h.mem_visibleRounds.mp hlastVisible
  obtain ⟨⟨latest, hlatest, hlatestNumber⟩, hlatestMax⟩ :=
    latestVisibleRound_spec hconfig hhills (List.ne_nil_of_mem hlastVisible)
  have hnolater : event.latestVisibleRound config ended startRound rangeStart ≤ row.endRound := by
    by_contra hlt
    rcases hcut with hpartial | hlatestSeen
    · have hbeyond : startRound + k * config.clampedEpochTicks ≤ latest.number := by
        by_contra hinside
        have hmem := hendMax _ (List.mem_map_of_mem (f := fun round : KothRound => round.number)
          (h.mem_epochRounds.mpr ⟨hlatest, by omega, by omega⟩))
        omega
      have hbounds := h.number_bounds (h.mem_visibleRounds.mp hlatest).1
      have hfull : config.clampedEpochTicks ≤
          (event.epochRounds config ended startRound rangeStart k).length :=
        h.le_length_epochRounds (h.official startRound hstart) hfrom hrange
          (hbeyond.trans hbounds.2)
      have hcount := length_epochRounds_le hrow
      omega
    · omega
  constructor
  · by_contra hrunning
    have hbounds := h.number_bounds hlastMem
    obtain ⟨final, hfinalMem, hfinalNumber⟩ := h.number_iff.mpr
      (show 1 ≤ (event.rounds.length : ℤ) ∧ (event.rounds.length : ℤ) ≤ event.rounds.length by
        omega)
    have hle := hlatestMax final (h.mem_visibleRounds.mpr ⟨hfinalMem, by omega, by omega⟩)
    have hopen := h.running (not_le.mp hrunning) last hlastMem (by omega)
    rw [finalized_of_allFinalized hrow hfinal hlast] at hopen
    exact absurd hopen (by simp)
  · intro startRound' hstart' round hround
    obtain rfl := Option.mem_unique hstart hstart'
    by_cases hvisible : rangeStart ≤ round.number
    · have hle := hlatestMax round (h.mem_visibleRounds.mpr ⟨hround, by omega, hvisible⟩)
      omega
    · omega

theorem hillOrder_perm : config.hillOrder.Perm config.hills :=
  (List.perm_ext_iff_of_nodup (nodup_sortedKeys _) config.hills_nodup).mpr fun _ => mem_sortedKeys

/-- The evidence which an epoch is sealed from. -/
def epochEvidence (config : OfficialConfig) (event : KothEvent) (ended : Bool)
    (startRound rangeStart k : ℤ) (teamEvidence : List TeamEvidenceRow) : EpochEvidence where
  epoch := k
  hillMetas := event.epochMetas config ended startRound rangeStart k
  teamEvidence := rows (·.epoch) k teamEvidence

theorem complete_epochEvidence (teamEvidence : List TeamEvidenceRow) :
    (event.epochEvidence config ended startRound rangeStart k teamEvidence).Complete config where
  grid := by
    have hids : (event.epochMetas config ended startRound rangeStart k).map (·.challengeId) =
        config.hillOrder := by
      rw [epochMetas, List.map_map]
      exact List.map_id _
    exact hids.symm ▸ hillOrder_perm
  serviceWeight := by
    intro row hrow
    obtain ⟨hill, -, rfl⟩ := List.mem_map.mp hrow
    rfl
  hillMetas_tagged := fun row hrow => epoch_of_mem_epochMetas hrow
  teamEvidence_tagged := fun row hrow => (mem_rows.mp hrow).2

/-- Sealing the next epoch appends it to the sealed ones. -/
theorem Intact.sealNext (h : Intact sqrt config event store fin epochs) (htimely : Timely event)
    (hconfig : config.epochTicks = config.clampedEpochTicks) (hhills : config.hills ≠ [])
    (hstart : startRound ∈ event.scoringStartRound) (hfrom : startRound ≤ rangeStart)
    (hrange : rangeStart ≤ startRound + epochs.length * config.clampedEpochTicks)
    (hk : event.epochRounds config ended startRound rangeStart (epochs.length + 1) ≠ [])
    {teamEvidence : List TeamEvidenceRow} {first : HillEpochMetaRow}
    (hhead : (event.epochMetas config ended startRound rangeStart (epochs.length + 1)).head? =
      some first)
    (himmutable : (event.epochEvidence config ended startRound rangeStart (epochs.length + 1)
      teamEvidence).immutable config.epochTicks ended = true)
    (hseal : sealEpoch sqrt config ended (fun _ =>
        if first.endRound < event.latestVisibleRound config ended startRound rangeStart then
          first.endRound + 1 else first.endRound) store
      (event.epochEvidence config ended startRound rangeStart (epochs.length + 1) teamEvidence) =
        .ok store') :
    ∃ fin', Intact sqrt config event store' fin' (epochs ++
      [event.epochEvidence config ended startRound rangeStart (epochs.length + 1)
        teamEvidence]) := by
  set e := event.epochEvidence config ended startRound rangeStart (epochs.length + 1) teamEvidence
  have hsealed : sealable config.epochTicks ended first e.hillMetas = true := by
    have hall := himmutable
    rw [EpochEvidence.immutable, show e.hillMetas.head? = some first from hhead, Option.all_some,
      Bool.and_eq_true] at hall
    exact hall.2
  have hcompleteE : e.Complete config := complete_epochEvidence teamEvidence
  have hvalidE : e.Valid config := valid_of_sealEpoch hcompleteE hhills hseal
  let fin' := Function.update fin e
    (if first.endRound < event.latestVisibleRound config ended startRound rangeStart then
      first.endRound + 1 else first.endRound)
  have hfin' : fin' e =
      if first.endRound < event.latestVisibleRound config ended startRound rangeStart then
        first.endRound + 1 else first.endRound := Function.update_self ..
  have hnum : Numbered ((epochs ++ [e]).map (·.epoch)) := by
    rw [List.map_append, List.map_singleton, numbered_append_singleton, List.length_map]
    exact ⟨h.numbered, rfl⟩
  have hother : ∀ a ∈ epochs, fin a = fin' a := by
    intro a ha
    refine (Function.update_of_ne (fun heq => ?_) _ _).symm
    have hle := epoch_le_of_mem hnum ha
    rw [heq] at hle
    change (epochs.length : ℤ) + 1 ≤ epochs.length at hle
    omega
  have hcomplete : ∀ a ∈ epochs ++ [e], a.Complete config := by
    simpa [or_imp, forall_and] using ⟨h.complete, hcompleteE⟩
  have hvalid : ∀ a ∈ epochs ++ [e], a.Valid config := by
    simpa [or_imp, forall_and] using ⟨h.valid, hvalidE⟩
  have hstore : store = sealedStore sqrt config ended fin' epochs := by
    rw [h.store_eq, sealedStore_congr hother, sealedStore_eventEnded sqrt config ended true]
  have hstore' : store' = sealedStore sqrt config ended fin' (epochs ++ [e]) := by
    have hnext : sealEpoch sqrt config ended fin' (sealedStore sqrt config ended fin' epochs) e =
        .ok (sealedStore sqrt config ended fin' (epochs ++ [e])) :=
      sealEpoch_sealedStore hnum hcomplete hvalid hhills himmutable
    have hsame : sealEpoch sqrt config ended fin' store e = .ok store' := by
      rw [← hseal, sealEpoch, sealEpoch, hfin']
    rw [hstore, hnext] at hsame
    exact (Except.ok.inj hsame).symm
  have hfirstMem : first ∈ e.hillMetas := List.mem_of_head? hhead
  -- no epoch before the new one can be reopened on its own
  have hearlier : ∀ header ∈ store.headers, ¬header.cutShort config.epochTicks = true := by
    intro header hheader hcut
    obtain ⟨round, hround⟩ := List.exists_mem_of_ne_nil _ hk
    obtain ⟨hvisible, hlow, -⟩ := htimely.mem_epochRounds.mp hround
    have hlt := (h.last header hheader hcut).2.rounds startRound hstart round
      (htimely.mem_visibleRounds.mp hvisible).1
    rw [add_sub_cancel_right] at hlow
    omega
  refine ⟨fin', hnum, hcomplete, hvalid, ?_, ?_, ?_⟩
  · rw [hstore', sealedStore_eventEnded sqrt config true ended]
  · intro hnone
    rw [hnone] at hstart
    exact absurd hstart (by simp)
  · intro header hheader hcut
    have hheaders : store'.headers =
        store.headers ++ [headerOf config fin' epochs e] := by
      rw [hstore', sealedStore_append_singleton, hstore]
    rw [hheaders, List.mem_append, List.mem_singleton] at hheader
    rcases hheader with hheader | rfl
    · exact absurd hcut (hearlier header hheader)
    · have hlength : ((epochs ++ [e]).length : ℤ) = epochs.length + 1 := by simp
      rw [hlength]
      refine ⟨rfl, htimely.over hconfig hhills hstart hfrom ?_ hk hfirstMem ?_ ?_⟩
      · rw [add_sub_cancel_right]
        exact hrange
      · rw [sealable, completeResults, Bool.and_eq_true, List.all_eq_true] at hsealed
        have hresults := hsealed.1 first hfirstMem
        rw [Bool.and_eq_true, Bool.and_eq_true] at hresults
        exact hresults.1.2
      · rw [KothEpochRollup.cutShort, Bool.or_eq_true, decide_eq_true_eq, decide_eq_true_eq] at hcut
        have hcount : (headerOf config fin' epochs e).roundCount = first.roundCount := by
          rw [headerOf, show e.hillMetas.head? = some first from hhead]
          rfl
        have hend : (headerOf config fin' epochs e).endRound = first.endRound := by
          rw [headerOf, show e.hillMetas.head? = some first from hhead]
          rfl
        have hfinalized : (headerOf config fin' epochs e).finalizedRound = fin' e := rfl
        rw [hcount, hend, hfinalized, hfin', hconfig] at hcut
        refine hcut.imp_right fun hmark hlt => ?_
        rw [if_pos hlt] at hmark
        omega

/-- A transaction seals a sequence of epochs which continues the sealed ones. -/
theorem Intact.sealEpochs (htimely : Timely event)
    (hconfig : config.epochTicks = config.clampedEpochTicks) (hhills : config.hills ≠ [])
    (hstart : startRound ∈ event.scoringStartRound) (hfrom : startRound ≤ rangeStart)
    {teamEvidence : List TeamEvidenceRow} {ks : List ℤ}
    (h : Intact sqrt config event store fin epochs)
    (hrange : rangeStart ≤ startRound + epochs.length * config.clampedEpochTicks)
    (hconsecutive : Consecutive (epochs.length + 1) ks)
    (hks : ∀ k ∈ ks, event.epochRounds config ended startRound rangeStart k ≠ [])
    (hsealed : sealEpochs sqrt config config.clampedEpochTicks ended
      (event.visibleMetas config ended startRound rangeStart) teamEvidence
      (event.latestVisibleRound config ended startRound rangeStart) ks store = .ok store') :
    ∃ fin' epochs', Intact sqrt config event store' fin' epochs' := by
  induction ks generalizing store fin epochs with
  | nil =>
      obtain rfl := Except.ok.inj hsealed
      exact ⟨fin, epochs, h⟩
  | cons k ks ih =>
      obtain ⟨rfl, hconsecutive⟩ := hconsecutive
      have hk := hks _ List.mem_cons_self
      have hrows := rows_visibleMetas hconfig hk
      rw [KingOfTheHill.sealEpochs, hrows] at hsealed
      split at hsealed
      · next hnil => exact absurd hnil (epochMetas_ne_nil event ended startRound rangeStart _ hhills)
      · next first rest hmetas =>
        split at hsealed
        · simp at hsealed
        · next hconsistent =>
          split at hsealed
          · obtain rfl := Except.ok.inj hsealed
            exact ⟨fin, epochs, h⟩
          · next hsealable =>
            rw [Bool.not_eq_true, Bool.not_eq_false'] at hconsistent hsealable
            obtain ⟨scored, hscored, hsealed⟩ := bind_eq_ok_iff.mp hsealed
            obtain ⟨store₁, hmaterialize, hsealed⟩ := bind_eq_ok_iff.mp hsealed
            have hhead : (event.epochMetas config ended startRound rangeStart
                (epochs.length + 1)).head? = some first := by
              rw [hmetas]
              rfl
            have himmutable : (event.epochEvidence config ended startRound rangeStart
                (epochs.length + 1) teamEvidence).immutable config.epochTicks ended = true := by
              rw [EpochEvidence.immutable, epochEvidence, hmetas, List.head?_cons, Option.all_some,
                hconsistent, hconfig, hsealable]
              rfl
            have hseal : sealEpoch sqrt config ended (fun _ =>
                if first.endRound < event.latestVisibleRound config ended startRound rangeStart then
                  first.endRound + 1 else first.endRound) store
                (event.epochEvidence config ended startRound rangeStart (epochs.length + 1)
                  teamEvidence) = .ok store₁ := by
              rw [sealEpoch, epochEvidence, hmetas, hconfig, hscored]
              exact hmaterialize
            obtain ⟨fin', h'⟩ := h.sealNext htimely hconfig hhills hstart hfrom hrange hk hhead
              himmutable hseal
            refine ih h' ?_ ?_ (fun j hj => hks j (List.mem_cons_of_mem _ hj)) hsealed
            · have hticks : 0 < config.clampedEpochTicks := clampedEpochTicks_pos
              have hlength : (epochs.length : ℤ) * config.clampedEpochTicks ≤
                  (epochs ++ [event.epochEvidence config ended startRound rangeStart
                    (epochs.length + 1) teamEvidence]).length * config.clampedEpochTicks :=
                mul_le_mul_of_nonneg_right (by simp) hticks.le
              omega
            · rw [List.length_append, List.length_singleton, Nat.cast_add, Nat.cast_one]
              exact hconsecutive

theorem Intact.previousEpoch (h : Intact sqrt config event store fin epochs) :
    ((store.headers.map (·.epoch)).max?).getD 0 = epochs.length := by
  rw [h.store_eq, map_epoch_headers_sealedStore, h.numbered.max?_getD, List.length_map]

theorem Intact.ensure (h : Intact sqrt config event event.store fin epochs)
    (htimely : Timely event) {teamEvidence : List TeamEvidenceRow} {now : ℤ}
    (hensure : ensureEpochRollups sqrt config event teamEvidence now = .ok store') :
    ∃ fin' epochs', Intact sqrt config event store' fin' epochs' := by
  unfold ensureEpochRollups at hensure
  cases hstart : event.scoringStartRound with
  | none =>
      rw [hstart] at hensure
      obtain rfl := Except.ok.inj hensure
      exact ⟨fin, epochs, h⟩
  | some startRound =>
      rw [hstart] at hensure
      simp only [h.previousEpoch] at hensure
      have hpos := htimely.official startRound hstart
      have hticks : 0 < config.clampedEpochTicks := clampedEpochTicks_pos
      have hnonneg : 0 ≤ (epochs.length : ℤ) * config.clampedEpochTicks := by positivity
      have hsealed : KingOfTheHill.sealEpochs sqrt config config.clampedEpochTicks
          (decide (event.endTimeUtc ≤ now))
          (event.visibleMetas config (decide (event.endTimeUtc ≤ now)) startRound
            (startRound + epochs.length * config.clampedEpochTicks)) teamEvidence
          (event.latestVisibleRound config (decide (event.endTimeUtc ≤ now)) startRound
            (startRound + epochs.length * config.clampedEpochTicks))
          (sortedKeys ((event.visibleMetas config (decide (event.endTimeUtc ≤ now)) startRound
            (startRound + epochs.length * config.clampedEpochTicks)).map (·.epoch))) event.store =
          .ok store' := hensure
      by_cases hnone : config.epochTicks ≠ config.clampedEpochTicks ∨ config.hills = []
      · rw [visibleMetas_eq_nil hnone] at hsealed
        obtain rfl := Except.ok.inj hsealed
        exact ⟨fin, epochs, h⟩
      · rw [not_or, not_not] at hnone
        obtain ⟨hconfig, hhills⟩ := hnone
        refine h.sealEpochs htimely hconfig hhills hstart (by omega) le_rfl ?_ ?_ hsealed
        · exact htimely.consecutive hconfig hhills hpos (Nat.cast_nonneg _) rfl
        · intro k hk
          exact (mem_epochs_iff hconfig hhills).mp (mem_sortedKeys.mp hk)

/-- A stored header is the one of a sealed epoch. -/
theorem Intact.epoch_bounds (h : Intact sqrt config event store fin epochs)
    {header : KothEpochRollup} (hheader : header ∈ store.headers) :
    1 ≤ header.epoch ∧ header.epoch ≤ epochs.length := by
  rw [h.store_eq] at hheader
  have hmem : header.epoch ∈ epochs.map (·.epoch) := by
    rw [← map_epoch_headers_sealedStore sqrt config true fin]
    exact List.mem_map_of_mem hheader
  have hrange := h.numbered.mem_iff.mp hmem
  rw [List.length_map] at hrange
  exact hrange

/-- Deleting the epochs after a prefix leaves the prefix, if none of it may be reopened. -/
theorem Intact.truncate {event' : KothEvent} {l₁ l₂ : List EpochEvidence}
    (h : Intact sqrt config event store fin (l₁ ++ l₂)) {deleted : KothEpochRollup → Bool}
    (hofficial : event'.scoringStartRound = event.scoringStartRound)
    (hdeleted : ∀ header ∈ store.headers,
      deleted header = decide ((l₁.length : ℤ) < header.epoch))
    (hkept : ∀ header ∈ store.headers, header.epoch ≤ l₁.length →
      ¬header.cutShort config.epochTicks = true) :
    Intact sqrt config event' (store.delete deleted) fin l₁ where
  numbered := h.numbered.of_map_append
  complete := fun e he => h.complete e (List.mem_append_left l₂ he)
  valid := fun e he => h.valid e (List.mem_append_left l₂ he)
  store_eq := by
    rw [h.store_eq] at hdeleted ⊢
    exact delete_sealedStore h.numbered hdeleted
  official := by
    intro hnone
    exact List.append_eq_nil_iff.mp (h.official (hofficial ▸ hnone)) |>.1
  last := by
    intro header hheader hcut
    obtain ⟨hmem, hdrop⟩ := List.mem_filter.mp hheader
    rw [hdeleted header hmem, Bool.not_eq_true', decide_eq_false_iff_not, not_lt] at hdrop
    exact absurd hcut (hkept header hmem hdrop)

/-- An extension reopens at most the last epoch. -/
theorem Intact.extend (h : Intact sqrt config event event.store fin epochs) {nextEnd : ℤ}
    (hlater : event.endTimeUtc < nextEnd) :
    ∃ epochs', Intact sqrt config (event.endChange config nextEnd)
      (event.endChange config nextEnd).store fin epochs' := by
  have hstore : (event.endChange config nextEnd).store =
      event.store.delete fun header => header.cutShort config.epochTicks := by
    change invalidateRollupsForEndChange config event.store event.endTimeUtc nextEnd = _
    rw [invalidateRollupsForEndChange, if_neg hlater.ne, decide_eq_false hlater.asymm]
    rfl
  rw [hstore]
  by_cases hcut : ∃ header ∈ event.store.headers, header.cutShort config.epochTicks = true
  · obtain ⟨header, hheader, hcut⟩ := hcut
    have hlast := (h.last header hheader hcut).1
    have hbounds := h.epoch_bounds hheader
    rcases List.eq_nil_or_concat epochs with rfl | ⟨before, e, rfl⟩
    · rw [List.length_nil, Nat.cast_zero] at hlast
      omega
    · rw [List.concat_eq_append] at h hlast
      refine ⟨before, h.truncate rfl (fun other hother => ?_) fun other hother hle hcut' => ?_⟩
      · have hnodup : (event.store.headers.map (·.epoch)).Nodup := by
          rw [h.store_eq, map_epoch_headers_sealedStore]
          exact h.numbered.nodup
        have hother' := h.epoch_bounds hother
        rw [List.length_append, List.length_singleton] at hlast hother'
        by_cases heq : other.epoch = header.epoch
        · rw [List.inj_on_of_nodup_map hnodup hother hheader heq, hcut]
          exact (decide_eq_true (by omega)).symm
        · have hkept : ¬other.cutShort config.epochTicks = true := by
            intro hcut'
            have hlast' := (h.last other hother hcut').1
            rw [List.length_append, List.length_singleton] at hlast'
            omega
          rw [Bool.eq_false_of_not_eq_true hkept]
          exact (decide_eq_false (by omega)).symm
      · have hlast' := (h.last other hother hcut').1
        rw [List.length_append, List.length_singleton] at hlast'
        omega
  · have hkept : ∀ header ∈ event.store.headers, ¬header.cutShort config.epochTicks = true :=
      fun header hheader hcut' => hcut ⟨header, hheader, hcut'⟩
    have hall : Intact sqrt config event event.store fin (epochs ++ []) := by
      rwa [List.append_nil]
    refine ⟨epochs, hall.truncate rfl (fun header hheader => ?_) fun header hheader _ =>
      hkept header hheader⟩
    rw [Bool.eq_false_of_not_eq_true (hkept header hheader)]
    exact (decide_eq_false (not_lt.mpr (h.epoch_bounds hheader).2)).symm

theorem Intact.endChange (h : Intact sqrt config event event.store fin epochs) (nextEnd : ℤ) :
    ∃ epochs', Intact sqrt config (event.endChange config nextEnd)
      (event.endChange config nextEnd).store fin epochs' := by
  rcases lt_trichotomy nextEnd event.endTimeUtc with hlt | heq | hgt
  · have hstore : (event.endChange config nextEnd).store = event.store.delete fun header =>
        decide (nextEnd < event.endTimeUtc) || header.cutShort config.epochTicks := if_neg hlt.ne'
    have hall : Intact sqrt config event event.store fin ([] ++ epochs) := h
    rw [hstore]
    refine ⟨[], hall.truncate rfl (fun header hheader => ?_) fun header hheader hle => ?_⟩
    · rw [decide_eq_true hlt, Bool.true_or]
      have hbounds := h.epoch_bounds hheader
      exact (decide_eq_true (by rw [List.length_nil]; omega)).symm
    · have hbounds := h.epoch_bounds hheader
      rw [List.length_nil, Nat.cast_zero] at hle
      omega
  · subst heq
    have hstore : (event.endChange config event.endTimeUtc).store = event.store := if_pos rfl
    have hrounds : (event.endChange config event.endTimeUtc).rounds = event.rounds :=
      if_neg fun hreopen => absurd hreopen.2 (not_lt.mpr hreopen.1)
    rw [hstore]
    refine ⟨epochs, h.numbered, h.complete, h.valid, h.store_eq, h.official, ?_⟩
    intro header hheader hcut
    obtain ⟨hlast, hended, hbefore⟩ := h.last header hheader hcut
    refine ⟨hlast, hended, fun startRound hstart round hround => ?_⟩
    rw [hrounds] at hround
    exact hbefore startRound hstart round hround
  · exact h.extend hgt

/-- Every step leaves a sealed prefix. -/
theorem Intact.step {event' : KothEvent} (h : Intact sqrt config event event.store fin epochs)
    (htimely : Timely event) (hstep : Step sqrt config event event') :
    ∃ fin' epochs', Intact sqrt config event' event'.store fin' epochs' := by
  cases hstep with
  | tick hclock =>
      refine ⟨fin, epochs, h.numbered, h.complete, h.valid, h.store_eq, h.official, ?_⟩
      intro header hheader hcut
      obtain ⟨hlast, hended, hrounds⟩ := h.last header hheader hcut
      exact ⟨hlast, hended.trans hclock, hrounds⟩
  | record evidence =>
      refine ⟨fin, epochs, h.numbered, h.complete, h.valid, h.store_eq, h.official, ?_⟩
      intro header hheader hcut
      obtain ⟨hlast, hended, hrounds⟩ := h.last header hheader hcut
      exact ⟨hlast, hended, hrounds⟩
  | start hnone hpos =>
      obtain rfl := h.official hnone
      refine ⟨fin, [], h.numbered, h.complete, h.valid, h.store_eq, fun _ => rfl, ?_⟩
      intro header hheader
      have hbounds := h.epoch_bounds hheader
      rw [List.length_nil, Nat.cast_zero] at hbounds
      omega
  | advance hopen hstart =>
      refine ⟨fin, epochs, h.numbered, h.complete, h.valid, h.store_eq, h.official, ?_⟩
      intro header hheader hcut
      exact absurd (h.last header hheader hcut).2.ended (not_le.mpr hopen)
  | closeout closed hended =>
      refine ⟨fin, epochs, h.numbered, h.complete, h.valid, h.store_eq, h.official, ?_⟩
      intro header hheader hcut
      obtain ⟨hlast, -, hrounds⟩ := h.last header hheader hcut
      refine ⟨hlast, hended, fun startRound hstart round hround => ?_⟩
      obtain ⟨round', hround', rfl⟩ := List.mem_map.mp hround
      exact hrounds startRound hstart round' hround'
  | ensure teamEvidence now hensure =>
      obtain ⟨fin', epochs', h'⟩ := h.ensure htimely hensure
      refine ⟨fin', epochs', h'.numbered, h'.complete, h'.valid, h'.store_eq, h'.official, ?_⟩
      intro header hheader hcut
      obtain ⟨hlast, hended, hrounds⟩ := h'.last header hheader hcut
      exact ⟨hlast, hended, hrounds⟩
  | endChange nextEnd hfuture =>
      obtain ⟨epochs', h'⟩ := h.endChange nextEnd
      exact ⟨fin, epochs', h'⟩

theorem Intact.run (h : Reachable sqrt config event) :
    ∃ fin epochs, Intact sqrt config event event.store fin epochs := by
  obtain ⟨event₀, hrounds, hnone, hempty, hrun⟩ := h
  have hinvariant : Timely event ∧
      ∃ fin epochs, Intact sqrt config event event.store fin epochs := by
    induction hrun with
    | refl =>
        refine ⟨⟨?_, ?_, ?_, ?_, ?_⟩, fun _ => 0, [], rfl, by simp, by simp, hempty, fun _ => rfl, ?_⟩
        · rw [hrounds]
          exact numbered_nil
        · simp [hrounds]
        · simp [hrounds]
        · simp [hrounds]
        · simp [hnone]
        · simp [hempty, RollupStore.empty]
    | tail _ hstep ih =>
        obtain ⟨htimely, fin, epochs, h⟩ := ih
        exact ⟨htimely.step hstep, h.step htimely hstep⟩
  exact hinvariant.2

/-- The sealed epochs are the first ones, their rows carry the sums up to their own epoch, and
sealing goes on with the first epoch which is not sealed. -/
theorem rollups_prefix (h : Reachable sqrt config event) :
    ∃ (fin : EpochEvidence → ℤ) (epochs : List EpochEvidence),
      Numbered (epochs.map (·.epoch)) ∧ (∀ e ∈ epochs, e.Complete config) ∧
        event.store = sealedStore sqrt config true fin epochs ∧
          ((event.store.headers.map (·.epoch)).max?).getD 0 = epochs.length := by
  obtain ⟨fin, epochs, h⟩ := Intact.run h
  exact ⟨fin, epochs, h.numbered, h.complete, h.store_eq, h.previousEpoch⟩

end Invariant

section SingleHill

/-- One hill, and epochs of one round. -/
def singleHill : OfficialConfig where
  rosterIds := [21]
  hills := [7]
  serviceWeight _ := 1
  epochTicks := 1
  rosterIds_nodup := by simp
  hills_nodup := by simp

/-- Every round is checked once. -/
def checkedEvidence : ControlEvidence where
  observations _ _ := [some ⟨none, 0, true, 5⟩]
  claimSource _ _ := "Api"
  observations_ne_nil := by simp

def planned : KothEvent where
  clock := 10
  endTimeUtc := 100
  scoringStartRound := none
  rounds := []
  evidence := checkedEvidence
  store := .empty

/-- The event in its second round. -/
def secondRound : KothEvent :=
  { planned with scoringStartRound := some 1, rounds := [⟨1, 10, true⟩, ⟨2, 10, false⟩] }

theorem reachable_secondRound : Reachable (fun _ => 0) singleHill secondRound := by
  have hstart : Step (fun _ => 0) singleHill planned { planned with scoringStartRound := some 1 } :=
    Step.start rfl le_rfl
  have hfirst : Step (fun _ => 0) singleHill { planned with scoringStartRound := some 1 }
      { planned with scoringStartRound := some 1, rounds := [⟨1, 10, false⟩] } :=
    Step.advance (by decide) le_rfl
  have hsecond : Step (fun _ => 0) singleHill
      { planned with scoringStartRound := some 1, rounds := [⟨1, 10, false⟩] } secondRound :=
    Step.advance (by decide) le_rfl
  exact ⟨planned, rfl, rfl, rfl, ((Relation.ReflTransGen.single hstart).tail hfirst).tail hsecond⟩

theorem rollups_prefix_secondRound : ∃ event : KothEvent,
    (event.store.headers.map (·.epoch)) = [1] ∧
    ∃ (fin : EpochEvidence → ℤ) (epochs : List EpochEvidence),
      Numbered (epochs.map (·.epoch)) ∧ (∀ e ∈ epochs, e.Complete singleHill) ∧
        event.store = sealedStore (fun _ => 0) singleHill true fin epochs ∧
          ((event.store.headers.map (·.epoch)).max?).getD 0 = epochs.length := by
  have hsealed : (match ensureEpochRollups (fun _ => 0) singleHill secondRound [] 10 with
      | .ok store => decide (store.headers.map (·.epoch) = [1])
      | .error _ => false) = true := by
    decide +kernel
  cases hensure : ensureEpochRollups (fun _ => 0) singleHill secondRound [] 10 with
  | error error =>
      rw [hensure] at hsealed
      exact absurd hsealed Bool.false_ne_true
  | ok store =>
      rw [hensure] at hsealed
      obtain ⟨event₀, hrounds, hnone, hempty, hrun⟩ := reachable_secondRound
      exact ⟨{ secondRound with store }, of_decide_eq_true hsealed,
        rollups_prefix ⟨event₀, hrounds, hnone, hempty, hrun.tail (Step.ensure [] 10 hensure)⟩⟩

end SingleHill

end KothEvent

end KingOfTheHill

end Rsctf
