import Rsctf.KingOfTheHill.SealedStore

/-!
# Reopening King of the Hill epochs

A new end of the event deletes sealed epochs row by row: all of them when the event becomes
shorter, and otherwise those which are not full or were the last ones to be seen when they were
sealed.
-/

open Keyed Ledger Numbering

namespace Rsctf

namespace KingOfTheHill

/-- Delete headers; the rows of their epochs go with them. -/
def RollupStore.delete (store : RollupStore) (deleted : KothEpochRollup → Bool) : RollupStore where
  headers := store.headers.filter fun header => !deleted header
  teams := store.teams.filter fun row =>
    !store.headers.any fun header => deleted header && header.epoch = row.epoch
  hills := store.hills.filter fun row =>
    !store.headers.any fun header => deleted header && header.epoch = row.epoch

/-- An epoch which a later end of the event may change. -/
def KothEpochRollup.cutShort (epochTicks : ℤ) (header : KothEpochRollup) : Bool :=
  decide (header.roundCount < epochTicks) || decide (header.finalizedRound = header.endRound)

def invalidateRollupsForEndChange (config : OfficialConfig) (store : RollupStore)
    (previousEnd nextEnd : ℤ) : RollupStore :=
  if previousEnd = nextEnd then store
  else store.delete fun header =>
    decide (nextEnd < previousEnd) || header.cutShort config.epochTicks

section Prefixes

variable {sqrt : ℚ → ℚ} {config : OfficialConfig} {eventEnded : Bool}
  {finalizedRound finalizedRound' : EpochEvidence → ℤ} {epochs l₁ l₂ : List EpochEvidence}

theorem epoch_le_of_mem (hnum : Numbered ((l₁ ++ l₂).map (·.epoch))) {e : EpochEvidence}
    (he : e ∈ l₁) : e.epoch ≤ l₁.length := by
  have hrange := (hnum.of_map_append.mem_iff).mp (List.mem_map_of_mem he)
  rw [List.length_map] at hrange
  exact hrange.2

theorem lt_epoch_of_mem (hnum : Numbered ((l₁ ++ l₂).map (·.epoch))) {e : EpochEvidence}
    (he : e ∈ l₂) : (l₁.length : ℤ) < e.epoch := by
  obtain ⟨s, t, rfl⟩ := List.append_of_mem he
  have hsplit : l₁ ++ (s ++ e :: t) = (l₁ ++ s ++ [e]) ++ t := by simp
  rw [hsplit] at hnum
  have htruncated := hnum.of_map_append
  rw [List.map_append, List.map_singleton, numbered_append_singleton] at htruncated
  rw [htruncated.2, List.length_map, List.length_append]
  omega

theorem mem_headers_sealedStore {header : KothEpochRollup} :
    header ∈ (sealedStore sqrt config eventEnded finalizedRound epochs).headers ↔
      ∃ l₁ e l₂, epochs = l₁ ++ e :: l₂ ∧ header = headerOf config finalizedRound l₁ e := by
  rw [sealedStore, mem_record]
  simp

/-- Deleting the headers after a prefix leaves the store of the prefix. -/
theorem delete_sealedStore {deleted : KothEpochRollup → Bool}
    (hnum : Numbered ((l₁ ++ l₂).map (·.epoch)))
    (hdeleted : ∀ header ∈ (sealedStore sqrt config eventEnded finalizedRound (l₁ ++ l₂)).headers,
      deleted header = decide ((l₁.length : ℤ) < header.epoch)) :
    (sealedStore sqrt config eventEnded finalizedRound (l₁ ++ l₂)).delete deleted =
      sealedStore sqrt config eventEnded finalizedRound l₁ := by
  have hany : ∀ e ∈ l₁ ++ l₂,
      ((sealedStore sqrt config eventEnded finalizedRound (l₁ ++ l₂)).headers.any fun header =>
        deleted header && decide (header.epoch = e.epoch)) =
      decide ((l₁.length : ℤ) < e.epoch) := by
    intro e he
    refine any_key_eq (q := fun k => decide ((l₁.length : ℤ) < k)) hdeleted ?_
    rw [map_epoch_headers_sealedStore]
    exact List.mem_map_of_mem he
  have hkept : ∀ e ∈ l₁, decide ((l₁.length : ℤ) < e.epoch) = false :=
    fun e he => decide_eq_false (not_lt.mpr (epoch_le_of_mem hnum he))
  have hdropped : ∀ e ∈ l₂, decide ((l₁.length : ℤ) < e.epoch) = true :=
    fun e he => decide_eq_true (lt_epoch_of_mem hnum he)
  have hrows : ∀ {γ : Type} {f : List EpochEvidence → EpochEvidence → List γ} {epoch : γ → ℤ},
      (∀ before e, ∀ row ∈ f before e, epoch row = e.epoch) →
      ((record f [] (l₁ ++ l₂)).flatten.filter fun row =>
        !(sealedStore sqrt config eventEnded finalizedRound (l₁ ++ l₂)).headers.any fun header =>
          deleted header && decide (header.epoch = epoch row)) = (record f [] l₁).flatten :=
    fun hf => filter_flatten_record
      (p := fun k => !(sealedStore sqrt config eventEnded finalizedRound (l₁ ++ l₂)).headers.any
        fun header => deleted header && decide (header.epoch = k)) hf
      (fun e he => congrArg not ((hany e (List.mem_append_left l₂ he)).trans (hkept e he)))
      fun e he => congrArg not ((hany e (List.mem_append_right l₁ he)).trans (hdropped e he))
  have hheaders : (sealedStore sqrt config eventEnded finalizedRound (l₁ ++ l₂)).headers.filter
      (fun header => !deleted header) =
        (sealedStore sqrt config eventEnded finalizedRound l₁).headers := by
    have hsplit : (sealedStore sqrt config eventEnded finalizedRound (l₁ ++ l₂)).headers =
        record (headerOf config finalizedRound) [] l₁ ++
          record (headerOf config finalizedRound) ([] ++ l₁) l₂ := record_append ..
    refine filter_record (fun header hheader => ?_) fun header hheader => ?_
    · have hmem := hdeleted header (hsplit ▸ List.mem_append_left _ hheader)
      obtain ⟨s, e, t, rfl, rfl⟩ := mem_record.mp hheader
      rw [hmem]
      exact congrArg not (hkept e (by simp))
    · have hmem := hdeleted header (hsplit ▸ List.mem_append_right _ hheader)
      obtain ⟨s, e, t, rfl, rfl⟩ := mem_record.mp hheader
      rw [hmem]
      exact congrArg not (hdropped e (by simp))
  rw [RollupStore.delete, hheaders]
  refine congrArg₂ (RollupStore.mk _) (hrows fun before e row hrow => ?_)
    (hrows fun before e row hrow => ?_)
  · obtain ⟨participationId, -, rfl⟩ := List.mem_map.mp hrow
    rfl
  · obtain ⟨participationId, -, metaRow, -, rfl⟩ := mem_hillRowsOf.mp hrow
    rfl

/-- Only the rounds of the sealed epochs matter. -/
theorem sealedStore_congr (h : ∀ e ∈ epochs, finalizedRound e = finalizedRound' e) :
    sealedStore sqrt config eventEnded finalizedRound epochs =
      sealedStore sqrt config eventEnded finalizedRound' epochs := by
  have hheaders : record (headerOf config finalizedRound) [] epochs =
      record (headerOf config finalizedRound') [] epochs := by
    rw [record_eq_record_iff]
    rintro s e t rfl
    simp only [headerOf, h e (by simp)]
  rw [sealedStore, sealedStore, hheaders]

end Prefixes

section Ended

variable (sqrt : ℚ → ℚ) (config : OfficialConfig) (eventEnded ended : Bool)
  (participationId : ℤ)

theorem epochScore_points_eventEnded (e : EpochEvidence) :
    (e.epochScore sqrt config ended participationId).points =
      (e.epochScore sqrt config eventEnded participationId).points := by
  simp only [EpochEvidence.epochScore, EpochEvidence.scoredCells, List.map_map]
  rfl

theorem teamTotals_eventEnded (epochs : List EpochEvidence) :
    teamTotals sqrt config ended participationId epochs =
      teamTotals sqrt config eventEnded participationId epochs := by
  have hscores : (epochScores sqrt config ended participationId epochs).map (·.totals) =
      (epochScores sqrt config eventEnded participationId epochs).map (·.totals) := by
    simp only [epochScores, List.map_map]
    refine List.map_congr_left fun e _ => ?_
    simp only [Function.comp_apply, KothEpochAggregate.totals,
      epochScore_points_eventEnded sqrt config eventEnded ended]
    rfl
  rw [teamTotals, teamTotals, hscores]
  simp only [hillTotals_eventEnded sqrt config eventEnded ended]

/-- Whether the event had ended when an epoch was sealed does not show in its rows. -/
theorem teamRowOf_eventEnded (before : List EpochEvidence) (e : EpochEvidence) :
    teamRowOf sqrt config ended before e participationId =
      teamRowOf sqrt config eventEnded before e participationId := by
  simp only [teamRowOf, computedTeamRow, teamContribution,
    teamTotals_eventEnded sqrt config eventEnded ended,
    epochScore_points_eventEnded sqrt config eventEnded ended, teamOf, teamCells, cellsOfTotals,
    teamRate, List.map_map, hillTotals_eventEnded sqrt config eventEnded ended]
  rfl

theorem hillRowOf_eventEnded (before : List EpochEvidence) (e : EpochEvidence)
    (row : HillEpochMetaRow) :
    hillRowOf sqrt config ended before e participationId row =
      hillRowOf sqrt config eventEnded before e participationId row := by
  rw [hillRowOf, hillRowOf, hillTotals_eventEnded sqrt config eventEnded ended,
    hillTotals_eventEnded sqrt config eventEnded ended]
  rfl

variable (finalizedRound : EpochEvidence → ℤ)

theorem sealedStore_eventEnded (epochs : List EpochEvidence) :
    sealedStore sqrt config ended finalizedRound epochs =
      sealedStore sqrt config eventEnded finalizedRound epochs := by
  have hteams : teamRowsOf sqrt config ended = teamRowsOf sqrt config eventEnded := by
    funext before e
    exact List.map_congr_left fun participationId _ =>
      teamRowOf_eventEnded sqrt config eventEnded ended participationId before e
  have hhills : hillRowsOf sqrt config ended = hillRowsOf sqrt config eventEnded := by
    funext before e
    exact List.flatMap_congr fun participationId _ => List.map_congr_left fun row _ =>
      hillRowOf_eventEnded sqrt config eventEnded ended participationId before e row
  rw [sealedStore, sealedStore, hteams, hhills]

end Ended

end KingOfTheHill

end Rsctf
