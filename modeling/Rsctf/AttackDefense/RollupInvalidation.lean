import Rsctf.AttackDefense.PublicBoard
import Rsctf.AttackDefense.SealedStore

/-!
# Reopening epochs

An override of a check and a new end of the event delete sealed epochs, so that they are sealed
again later.  Of a sequence of sealed epochs, the ones before the first deleted epoch are left
as if the others had never been sealed.
-/

open Ledger

namespace Rsctf

namespace AttackDefense

/-- Delete headers; the rows of their epochs go with them. -/
def RollupStore.delete (store : RollupStore) (deleted : AdEpochRollup → Bool) : RollupStore where
  headers := store.headers.filter fun header => !deleted header
  teams := store.teams.filter fun row =>
    !store.headers.any fun header => deleted header && header.epoch = row.epoch
  services := store.services.filter fun row =>
    !store.headers.any fun header => deleted header && header.epoch = row.epoch

section Invalidation

variable (game : AdScoreboardGameRow) (store : RollupStore)

/-- Delete the epochs from the one of an overridden round on. -/
def invalidateRollupsFromRound (roundNumber : ℤ) : RollupStore :=
  store.delete fun header =>
    game.scoringStartRound.any fun startRound =>
      decide (startRound ≤ roundNumber) &&
        decide ((roundNumber - startRound).tdiv (max game.epochTicks 1) + 1 ≤ header.epoch)

def reopenLifetimeTicks : ℤ := max (game.flagLifetimeTicks.getD flagLifetimeTicksDefault) 1

/-- An epoch which was sealed before it was full, or before its last flags had expired. -/
def AdEpochRollup.cutShort (header : AdEpochRollup) : Bool :=
  decide (header.epochWeight < 1) ||
    decide (header.finalizedRound < header.endRound + reopenLifetimeTicks game)

/-- The first epoch which an extension reopens. -/
def firstCutShort : ℤ :=
  (((store.headers.filter (·.cutShort game)).map (·.epoch)).min?).getD 2147483647

/-- An extension reopens the epochs from the first one which was cut short on; shortening the
event reopens all. -/
def invalidateRollupsForEndChange (previousEnd nextEnd : ℤ) : RollupStore :=
  if previousEnd = nextEnd then store
  else if nextEnd < previousEnd then store.delete fun _ => true
  else store.delete fun header => decide (firstCutShort game store ≤ header.epoch)

end Invalidation

section Prefixes

variable {sqrt : ℚ → ℚ} {epochTicks : ℤ} {finalizedRound finalizedRound' : EpochMetaRow → ℤ}
  {epochs l₁ l₂ : List EpochEvidence}

theorem Numbered.epoch_le (h : Numbered (l₁ ++ l₂)) {e : EpochEvidence} (he : e ∈ l₁) :
    e.epochMeta.epoch ≤ l₁.length := (h.of_append.mem_range he).2

theorem Numbered.lt_epoch (h : Numbered (l₁ ++ l₂)) {e : EpochEvidence} (he : e ∈ l₂) :
    (l₁.length : ℤ) < e.epochMeta.epoch := by
  obtain ⟨s, t, rfl⟩ := List.append_of_mem he
  rw [← List.append_assoc, ← List.singleton_append, ← List.append_assoc] at h
  have hlast := (numbered_append_singleton.mp h.of_append).2
  rw [List.length_append] at hlast
  omega

theorem mem_headers_sealedStore {header : AdEpochRollup} :
    header ∈ (sealedStore sqrt epochTicks finalizedRound epochs).headers ↔
      ∃ l₁ e l₂, epochs = l₁ ++ e :: l₂ ∧ header = headerOf epochTicks finalizedRound l₁ e := by
  rw [sealedStore, mem_record]
  simp

theorem epoch_teamRowsOf {before : List EpochEvidence} {e : EpochEvidence} :
    ∀ row ∈ teamRowsOf sqrt epochTicks before e, row.epoch = e.epochMeta.epoch := by
  intro row hrow
  obtain ⟨pid, -, rfl⟩ := List.mem_map.mp hrow
  rfl

theorem epoch_serviceRowsOf {before : List EpochEvidence} {e : EpochEvidence} :
    ∀ row ∈ serviceRowsOf sqrt epochTicks before e, row.epoch = e.epochMeta.epoch := by
  intro row hrow
  obtain ⟨evidence, -, rfl⟩ := List.mem_map.mp hrow
  rfl

/-- Deleting the headers after a prefix leaves the store of the prefix. -/
theorem delete_sealedStore {deleted : AdEpochRollup → Bool} (hnum : Numbered (l₁ ++ l₂))
    (hdeleted : ∀ header ∈ (sealedStore sqrt epochTicks finalizedRound (l₁ ++ l₂)).headers,
      deleted header = decide ((l₁.length : ℤ) < header.epoch)) :
    (sealedStore sqrt epochTicks finalizedRound (l₁ ++ l₂)).delete deleted =
      sealedStore sqrt epochTicks finalizedRound l₁ := by
  have hany : ∀ e ∈ l₁ ++ l₂,
      ((sealedStore sqrt epochTicks finalizedRound (l₁ ++ l₂)).headers.any fun header =>
        deleted header && decide (header.epoch = e.epochMeta.epoch)) =
      decide ((l₁.length : ℤ) < e.epochMeta.epoch) := by
    intro e he
    refine Keyed.any_key_eq (q := fun k => decide ((l₁.length : ℤ) < k)) hdeleted ?_
    rw [map_epoch_headers_sealedStore]
    exact List.mem_map_of_mem he
  have hkept : ∀ e ∈ l₁, decide ((l₁.length : ℤ) < e.epochMeta.epoch) = false :=
    fun e he => decide_eq_false (not_lt.mpr (hnum.epoch_le he))
  have hdropped : ∀ e ∈ l₂, decide ((l₁.length : ℤ) < e.epochMeta.epoch) = true :=
    fun e he => decide_eq_true (hnum.lt_epoch he)
  have hrows : ∀ {γ : Type} {f : List EpochEvidence → EpochEvidence → List γ} {epoch : γ → ℤ},
      (∀ before e, ∀ row ∈ f before e, epoch row = e.epochMeta.epoch) →
      ((record f [] (l₁ ++ l₂)).flatten.filter fun row =>
        !(sealedStore sqrt epochTicks finalizedRound (l₁ ++ l₂)).headers.any fun header =>
          deleted header && decide (header.epoch = epoch row)) = (record f [] l₁).flatten :=
    fun hf => filter_flatten_record
      (p := fun k => !(sealedStore sqrt epochTicks finalizedRound (l₁ ++ l₂)).headers.any
        fun header => deleted header && decide (header.epoch = k)) hf
      (fun e he => congrArg not ((hany e (List.mem_append_left l₂ he)).trans (hkept e he)))
      fun e he => congrArg not ((hany e (List.mem_append_right l₁ he)).trans (hdropped e he))
  have hheaders : (sealedStore sqrt epochTicks finalizedRound (l₁ ++ l₂)).headers.filter
      (fun header => !deleted header) =
        (sealedStore sqrt epochTicks finalizedRound l₁).headers := by
    have hsplit : (sealedStore sqrt epochTicks finalizedRound (l₁ ++ l₂)).headers =
        record (headerOf epochTicks finalizedRound) [] l₁ ++
          record (headerOf epochTicks finalizedRound) ([] ++ l₁) l₂ := record_append ..
    refine filter_record (fun header hheader => ?_) fun header hheader => ?_
    · have hmem := hdeleted header (hsplit ▸ List.mem_append_left _ hheader)
      obtain ⟨s, e, t, rfl, rfl⟩ := mem_record.mp hheader
      rw [hmem]
      exact congrArg not (hkept e (by simp))
    · have hmem := hdeleted header (hsplit ▸ List.mem_append_right _ hheader)
      obtain ⟨s, e, t, rfl, rfl⟩ := mem_record.mp hheader
      rw [hmem]
      exact congrArg not (hdropped e (by simp))
  rw [RollupStore.delete, hheaders]
  exact congrArg₂ (RollupStore.mk _) (hrows fun _ _ => epoch_teamRowsOf)
    (hrows fun _ _ => epoch_serviceRowsOf)

/-- Only the rounds of the sealed epochs matter. -/
theorem sealedStore_congr
    (h : ∀ e ∈ epochs, finalizedRound e.epochMeta = finalizedRound' e.epochMeta) :
    sealedStore sqrt epochTicks finalizedRound epochs =
      sealedStore sqrt epochTicks finalizedRound' epochs := by
  have hheaders : record (headerOf epochTicks finalizedRound) [] epochs =
      record (headerOf epochTicks finalizedRound') [] epochs := by
    rw [record_eq_record_iff]
    rintro s e t rfl
    simp only [headerOf, h e (by simp)]
  rw [sealedStore, sealedStore, hheaders]

end Prefixes

end AttackDefense

end Rsctf
