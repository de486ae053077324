import Mathlib.Data.List.DropRight
import Rsctf.AttackDefense.Evidence
import Rsctf.Data.Ledger
import Rsctf.Data.Window

/-!
# Confirming a claim to a hill

Every observation of a hill shows at most one claim token.  A projection of the
observations remembers the token, a provisional team with its streak of healthy
observations, and the confirmed team.  The acquisition of a token is reported when
its streak reaches the threshold; the history of observations says at which of them
a token completes such a run.
-/

open Ledger Window

namespace Rsctf

namespace KingOfTheHill

open AttackDefense (AdCheckStatus)

structure ObservedToken where
  id : ℤ
  participationId : ℤ
  windowRound : ℤ
deriving DecidableEq, Repr

/-- An observation of one target, cycle and container. -/
structure ClaimObservation where
  token : Option ObservedToken
  status : AdCheckStatus
  tokenWindowComplete : Bool
  claimantIsEligible : Bool
deriving DecidableEq, Repr

structure ClaimProjection where
  tokenId : Option ℤ
  provisionalParticipationId : Option ℤ
  streak : ℤ
  confirmedParticipationId : Option ℤ
deriving DecidableEq, Repr

def ClaimProjection.default : ClaimProjection := ⟨none, none, 0, none⟩

structure ClaimOutcome where
  controller : Option ℤ
  responsible : Option ℤ
  provisional : Option ℤ
  confirmed : Option ℤ
  confirmationStreak : ℤ
  tokenId : Option ℤ
  tokenWindowRound : Option ℤ
  acquisitionConfirmed : Bool
  isScorable : Bool
deriving DecidableEq, Repr

def ClaimOutcome.default : ClaimOutcome := ⟨none, none, none, none, 0, none, none, false, false⟩

/-- The successor of a 32-bit counter, which stops at the greatest value. -/
def saturatingSucc (value : ℤ) : ℤ := min (value + 1) (2 ^ 31 - 1)

/-- The number of healthy observations which confirm a claim. -/
def threshold (confirmationTicks : Int32) : ℤ := max confirmationTicks.toInt 1

/-- One observation of a hill. -/
def transitionClaim (previous : ClaimProjection) (token : Option ObservedToken)
    (status : AdCheckStatus) (confirmationTicks : Int32)
    (tokenWindowComplete claimantIsEligible : Bool) : ClaimProjection × ClaimOutcome :=
  if status = .internalError ∨ tokenWindowComplete = false then
    (previous,
      { ClaimOutcome.default with
        confirmed := previous.confirmedParticipationId
        responsible := previous.confirmedParticipationId
        isScorable := false })
  else match token.filter fun _ => claimantIsEligible with
  | none =>
    ({ previous with
        tokenId := none
        provisionalParticipationId := none
        streak := 0 },
      { ClaimOutcome.default with
        responsible := previous.confirmedParticipationId
        confirmed := previous.confirmedParticipationId
        isScorable := true })
  | some token =>
    let sameClaim := previous.tokenId = some token.id ∧
      previous.provisionalParticipationId = some token.participationId
    let healthy := status = .ok
    let streak :=
      if healthy then if sameClaim then saturatingSucc previous.streak else 1 else 0
    let wasConfirmed := previous.confirmedParticipationId = some token.participationId ∧
      previous.tokenId = some token.id
    let newlyConfirmed := healthy ∧ threshold confirmationTicks ≤ streak ∧ ¬wasConfirmed
    let confirmed :=
      if healthy ∧ threshold confirmationTicks ≤ streak then some token.participationId
      else previous.confirmedParticipationId
    let provisional :=
      if confirmed = some token.participationId then none else some token.participationId
    ({ tokenId := some token.id
       provisionalParticipationId := provisional
       streak
       confirmedParticipationId := confirmed },
      { controller := some token.participationId
        responsible := some token.participationId
        provisional
        confirmed
        confirmationStreak := streak
        tokenId := some token.id
        tokenWindowRound := some token.windowRound
        acquisitionConfirmed := newlyConfirmed
        isScorable := true })

namespace ClaimObservation

/-- The observation counts for scoring. -/
def isScorable (o : ClaimObservation) : Bool :=
  o.status != .internalError && o.tokenWindowComplete

/-- The token of an eligible claimant. -/
def shown (o : ClaimObservation) : Option ObservedToken :=
  o.token.filter fun _ => o.claimantIsEligible

/-- The observation shows the given token on a healthy hill. -/
def holds (o : ClaimObservation) (tokenId : ℤ) : Bool :=
  o.status = .ok && o.shown.any (·.id = tokenId)

end ClaimObservation

section Fold

variable (confirmationTicks : Int32)

def claimStep (projection : ClaimProjection) (o : ClaimObservation) :
    ClaimProjection × ClaimOutcome :=
  transitionClaim projection o.token o.status confirmationTicks o.tokenWindowComplete
    o.claimantIsEligible

/-- The projection after a sequence of observations. -/
def project (observations : List ClaimObservation) : ClaimProjection :=
  observations.foldl (fun projection o => (claimStep confirmationTicks projection o).1)
    ClaimProjection.default

/-- The token whose acquisition is reported by an observation after the given ones. -/
def reported (before : List ClaimObservation) (o : ClaimObservation) : Option ℤ :=
  let outcome := (claimStep confirmationTicks (project confirmationTicks before) o).2
  if outcome.acquisitionConfirmed then outcome.tokenId else none

theorem project_append_singleton (before : List ClaimObservation) (o : ClaimObservation) :
    project confirmationTicks (before ++ [o]) =
      (claimStep confirmationTicks (project confirmationTicks before) o).1 := by
  simp [project]

end Fold

section History

/-- How many scorable observations in a row, up to the last one, hold a token. -/
def runLength (tokenId : ℤ) (observations : List ClaimObservation) : ℕ :=
  ((observations.filter (·.isScorable)).rtakeWhile (·.holds tokenId)).length

/-- The token shown by the last scorable observation. -/
def lastToken (observations : List ClaimObservation) : Option ℤ :=
  (observations.filter (·.isScorable)).getLast?.bind (·.shown.map (·.id))

variable (confirmationTicks : Int32)

/-- The observation completes a run of a token, as long as the threshold. -/
def Completes (before : List ClaimObservation) (o : ClaimObservation) (tokenId : ℤ) : Prop :=
  o.isScorable = true ∧ o.holds tokenId = true ∧
    runLength tokenId (before ++ [o]) = threshold confirmationTicks

instance (before : List ClaimObservation) (o : ClaimObservation) (tokenId : ℤ) :
    Decidable (Completes confirmationTicks before o tokenId) :=
  inferInstanceAs (Decidable (_ ∧ _ ∧ _))

/-- The team which completes a run at an observation. -/
def completion (before : List ClaimObservation) (o : ClaimObservation) : Option ℤ :=
  (o.shown.filter fun token => Completes confirmationTicks before o token.id).map
    (·.participationId)

/-- The team which completed the last run. -/
def holder (observations : List ClaimObservation) : Option ℤ :=
  lastSome (record (completion confirmationTicks) [] observations)

/-- Some earlier observation already completed a run of the token. -/
def CompletedBefore (before : List ClaimObservation) (tokenId : ℤ) : Prop :=
  ∃ l₁ a l₂, before = l₁ ++ a :: l₂ ∧ Completes confirmationTicks l₁ a tokenId

/-- The acquisition of a token is reported once, at the observation which first
completes a run of it. -/
structure AcquisitionLaw (observations : List ClaimObservation) : Prop where
  once : ∀ tokenId, (record (reported confirmationTicks) [] observations).count (some tokenId) ≤ 1
  first : ∀ before o after, observations = before ++ o :: after → ∀ tokenId,
    reported confirmationTicks before o = some tokenId ↔
      Completes confirmationTicks before o tokenId ∧
        ¬CompletedBefore confirmationTicks before tokenId

theorem runLength_append_singleton (tokenId : ℤ) (before : List ClaimObservation)
    (o : ClaimObservation) :
    runLength tokenId (before ++ [o]) =
      if o.isScorable then if o.holds tokenId then runLength tokenId before + 1 else 0
      else runLength tokenId before := by
  rw [runLength, List.filter_append]
  by_cases hscorable : o.isScorable = true
  · simp only [List.filter_singleton, hscorable, if_true, cond_true, List.rtakeWhile_concat]
    by_cases hholds : o.holds tokenId = true
    · rw [if_pos hholds, if_pos hholds, List.length_append]
      rfl
    · rw [if_neg hholds, if_neg hholds]
      rfl
  · simp [hscorable, runLength]

theorem lastToken_append_singleton (before : List ClaimObservation) (o : ClaimObservation) :
    lastToken (before ++ [o]) =
      if o.isScorable then o.shown.map (·.id) else lastToken before := by
  rw [lastToken, List.filter_append]
  by_cases hscorable : o.isScorable = true
  · simp [hscorable]
  · simp [hscorable, lastToken]

theorem holder_append_singleton (before : List ClaimObservation) (o : ClaimObservation) :
    holder confirmationTicks (before ++ [o]) =
      (completion confirmationTicks before o).or (holder confirmationTicks before) := by
  rw [holder, record_append_singleton, lastSome_append, lastSome_singleton]
  rfl

/-- Only the token shown last is in a run. -/
theorem runLength_eq_zero {tokenId : ℤ} {observations : List ClaimObservation}
    (h : lastToken observations ≠ some tokenId) : runLength tokenId observations = 0 := by
  induction observations using List.reverseRecOn with
  | nil => rfl
  | append_singleton before o ih =>
      rw [lastToken_append_singleton] at h
      rw [runLength_append_singleton]
      by_cases hscorable : o.isScorable = true
      · rw [if_pos hscorable] at h ⊢
        refine if_neg fun hholds => h ?_
        simp only [ClaimObservation.holds, Bool.and_eq_true, Option.any_eq_true,
          decide_eq_true_eq] at hholds
        obtain ⟨-, token, hshown, rfl⟩ := hholds
        rw [hshown]
        rfl
      · rw [if_neg hscorable] at h ⊢
        exact ih h

end History

section Law

variable {confirmationTicks : Int32}

theorem one_le_threshold (confirmationTicks : Int32) : 1 ≤ threshold confirmationTicks :=
  le_max_right _ _

theorem threshold_lt (confirmationTicks : Int32) : threshold confirmationTicks < 2 ^ 31 :=
  max_lt confirmationTicks.toInt_lt (by norm_num)

/-- A counter below the threshold never saturates. -/
theorem saturatingSucc_of_lt {value : ℤ} (h : value < threshold confirmationTicks) :
    saturatingSucc value = value + 1 := by
  have hlt := threshold_lt confirmationTicks
  exact min_eq_left (by omega)

theorem isScorable_eq_false_iff {o : ClaimObservation} :
    o.isScorable = false ↔ o.status = .internalError ∨ o.tokenWindowComplete = false := by
  simp [ClaimObservation.isScorable, or_iff_not_imp_left]

theorem holds_iff {o : ClaimObservation} {token : ObservedToken} (hshown : o.shown = some token)
    {tokenId : ℤ} : o.holds tokenId = true ↔ o.status = .ok ∧ token.id = tokenId := by
  simp [ClaimObservation.holds, hshown]

/-- A void observation leaves the projection unchanged. -/
theorem claimStep_void {o : ClaimObservation} (h : o.isScorable = false)
    (previous : ClaimProjection) :
    (claimStep confirmationTicks previous o).1 = previous ∧
      (claimStep confirmationTicks previous o).2.acquisitionConfirmed = false := by
  rw [claimStep, transitionClaim, if_pos (isScorable_eq_false_iff.mp h)]
  exact ⟨rfl, rfl⟩

variable (confirmationTicks) in
/-- Without a token of an eligible claimant the streak ends. -/
theorem claimStep_none {o : ClaimObservation} (hscorable : o.isScorable = true)
    (hshown : o.shown = none) (previous : ClaimProjection) :
    (claimStep confirmationTicks previous o).1 =
        { previous with tokenId := none, provisionalParticipationId := none, streak := 0 } ∧
      (claimStep confirmationTicks previous o).2.acquisitionConfirmed = false := by
  have hvoid : ¬(o.status = .internalError ∨ o.tokenWindowComplete = false) := fun h => by
    rw [isScorable_eq_false_iff.mpr h] at hscorable
    exact Bool.false_ne_true hscorable
  rw [ClaimObservation.shown] at hshown
  rw [claimStep, transitionClaim, if_neg hvoid, hshown]
  exact ⟨rfl, rfl⟩

/-- The streak of a token after one more observation of it. -/
def nextStreak (previous : ClaimProjection) (o : ClaimObservation) (token : ObservedToken) : ℤ :=
  if o.status = .ok then
    if previous.tokenId = some token.id ∧
      previous.provisionalParticipationId = some token.participationId
    then saturatingSucc previous.streak else 1
  else 0

variable (confirmationTicks) in
theorem claimStep_some {o : ClaimObservation} (hscorable : o.isScorable = true)
    {token : ObservedToken} (hshown : o.shown = some token) (previous : ClaimProjection) :
    let streak := nextStreak previous o token
    let confirmed := if o.status = .ok ∧ threshold confirmationTicks ≤ streak then
      some token.participationId else previous.confirmedParticipationId
    (claimStep confirmationTicks previous o).1 =
        { tokenId := some token.id
          provisionalParticipationId :=
            if confirmed = some token.participationId then none else some token.participationId
          streak
          confirmedParticipationId := confirmed } ∧
      (claimStep confirmationTicks previous o).2.tokenId = some token.id ∧
      ((claimStep confirmationTicks previous o).2.acquisitionConfirmed = true ↔
        o.status = .ok ∧ threshold confirmationTicks ≤ streak ∧
          ¬(previous.confirmedParticipationId = some token.participationId ∧
            previous.tokenId = some token.id)) := by
  have hvoid : ¬(o.status = .internalError ∨ o.tokenWindowComplete = false) := fun h => by
    rw [isScorable_eq_false_iff.mpr h] at hscorable
    exact Bool.false_ne_true hscorable
  rw [ClaimObservation.shown] at hshown
  rw [claimStep, transitionClaim, if_neg hvoid, hshown]
  exact ⟨rfl, rfl, decide_eq_true_iff⟩

/-- Every token belongs to one participation. -/
def TokensOf (participationOf : ℤ → ℤ) (observations : List ClaimObservation) : Prop :=
  ∀ o ∈ observations, ∀ token ∈ o.token, token.participationId = participationOf token.id

variable (confirmationTicks) in
/-- The projection follows the history of observations. -/
structure Follows (participationOf : ℤ → ℤ) (before : List ClaimObservation) : Prop where
  tokenId : (project confirmationTicks before).tokenId = lastToken before
  confirmed : (project confirmationTicks before).confirmedParticipationId =
    holder confirmationTicks before
  provisional : ∀ tokenId, lastToken before = some tokenId →
    (project confirmationTicks before).provisionalParticipationId =
      if holder confirmationTicks before = some (participationOf tokenId) then none
      else some (participationOf tokenId)
  streak : ∀ tokenId, lastToken before = some tokenId →
    holder confirmationTicks before ≠ some (participationOf tokenId) →
      (project confirmationTicks before).streak = runLength tokenId before ∧
        (runLength tokenId before : ℤ) < threshold confirmationTicks

namespace Follows

variable {participationOf : ℤ → ℤ} {before : List ClaimObservation} {o : ClaimObservation}
  {token : ObservedToken}

/-- Unless the token is already confirmed, it reaches the threshold when its run does. -/
theorem threshold_le_iff (h : Follows confirmationTicks participationOf before)
    (hscorable : o.isScorable = true) (hshown : o.shown = some token)
    (htoken : token.participationId = participationOf token.id) (hok : o.status = .ok)
    (hopen : ¬(holder confirmationTicks before = some token.participationId ∧
      lastToken before = some token.id)) :
    nextStreak (project confirmationTicks before) o token =
        runLength token.id (before ++ [o]) ∧
      (threshold confirmationTicks ≤ nextStreak (project confirmationTicks before) o token ↔
        Completes confirmationTicks before o token.id) := by
  have hholds : o.holds token.id = true := (holds_iff hshown).mpr ⟨hok, rfl⟩
  have hrun : runLength token.id (before ++ [o]) = runLength token.id before + 1 := by
    rw [runLength_append_singleton, if_pos hscorable, if_pos hholds]
  have hpos := one_le_threshold confirmationTicks
  have hcompletes : Completes confirmationTicks before o token.id ↔
      (runLength token.id before : ℤ) + 1 = threshold confirmationTicks := by
    rw [Completes, hrun, Nat.cast_add, Nat.cast_one]
    exact ⟨fun hc => hc.2.2, fun hc => ⟨hscorable, hholds, hc⟩⟩
  rw [hcompletes, hrun, nextStreak, if_pos hok, h.tokenId]
  by_cases hlast : lastToken before = some token.id
  · have hholder : holder confirmationTicks before ≠ some (participationOf token.id) := by
      intro hconfirmed
      rw [← htoken] at hconfirmed
      exact hopen ⟨hconfirmed, hlast⟩
    have hprovisional := h.provisional token.id hlast
    obtain ⟨hstreak, hlt⟩ := h.streak token.id hlast hholder
    rw [if_neg hholder, ← htoken] at hprovisional
    rw [if_pos ⟨hlast, hprovisional⟩, hstreak, saturatingSucc_of_lt hlt]
    exact ⟨by push_cast; rfl, by omega⟩
  · have hzero := runLength_eq_zero hlast
    rw [if_neg fun hsame => hlast hsame.1, hzero]
    exact ⟨rfl, by omega⟩

/-- What an observation reports, in terms of the history. -/
theorem reported_iff (h : Follows confirmationTicks participationOf before)
    (htokens : ∀ token ∈ o.token, token.participationId = participationOf token.id)
    (tokenId : ℤ) :
    reported confirmationTicks before o = some tokenId ↔
      Completes confirmationTicks before o tokenId ∧
        ¬(lastToken before = some tokenId ∧
          holder confirmationTicks before = some (participationOf tokenId)) := by
  cases hscorable : o.isScorable with
  | false =>
      rw [reported, (claimStep_void hscorable _).2]
      simp [Completes, hscorable]
  | true =>
      cases hshown : o.shown with
      | none =>
          rw [reported, (claimStep_none confirmationTicks hscorable hshown _).2]
          simp [Completes, ClaimObservation.holds, hshown]
      | some token =>
          have htoken := htokens token (Option.filter_eq_some_iff.mp hshown).1
          obtain ⟨-, hid, hconfirmed⟩ := claimStep_some confirmationTicks
            hscorable hshown (project confirmationTicks before)
          rw [h.tokenId, h.confirmed] at hconfirmed
          have hreported : reported confirmationTicks before o = some tokenId ↔
              token.id = tokenId ∧ o.status = .ok ∧ threshold confirmationTicks ≤
                nextStreak (project confirmationTicks before) o token ∧
                ¬(holder confirmationTicks before = some token.participationId ∧
                  lastToken before = some token.id) := by
            rw [reported, hid, ← hconfirmed]
            simp [and_comm]
          rw [hreported]
          constructor
          · rintro ⟨rfl, hok, hle, hopen⟩
            refine ⟨((h.threshold_le_iff hscorable hshown htoken hok hopen).2).mp hle, ?_⟩
            rw [← htoken]
            exact fun hboth => hopen hboth.symm
          · rintro ⟨hcompletes, hopen⟩
            obtain ⟨hok, rfl⟩ := (holds_iff hshown).mp hcompletes.2.1
            rw [← htoken] at hopen
            have hopen' : ¬(holder confirmationTicks before = some token.participationId ∧
                lastToken before = some token.id) := fun hboth => hopen hboth.symm
            exact ⟨rfl, hok, ((h.threshold_le_iff hscorable hshown htoken hok hopen').2).mpr
              hcompletes, hopen'⟩

theorem nil (participationOf : ℤ → ℤ) : Follows confirmationTicks participationOf [] where
  tokenId := rfl
  confirmed := rfl
  provisional tokenId h := by simp [lastToken] at h
  streak tokenId h := by simp [lastToken] at h

/-- The team which holds the hill after an observation of a token. -/
theorem holder_append_shown (h : Follows confirmationTicks participationOf before)
    (hscorable : o.isScorable = true) (hshown : o.shown = some token)
    (htoken : token.participationId = participationOf token.id) :
    holder confirmationTicks (before ++ [o]) =
      if o.status = .ok ∧ threshold confirmationTicks ≤
          nextStreak (project confirmationTicks before) o token
      then some token.participationId else holder confirmationTicks before := by
  have hcompletion : completion confirmationTicks before o =
      if Completes confirmationTicks before o token.id then some token.participationId
      else none := by
    rw [completion, hshown]
    by_cases hcompletes : Completes confirmationTicks before o token.id
    · simp [hcompletes]
    · simp [hcompletes]
  rw [holder_append_singleton, hcompletion]
  by_cases hheld : holder confirmationTicks before = some token.participationId ∧
      lastToken before = some token.id
  · rw [hheld.1]
    split <;> split <;> rfl
  · by_cases hok : o.status = .ok
    · have hiff := (h.threshold_le_iff hscorable hshown htoken hok hheld).2
      by_cases hle : threshold confirmationTicks ≤
          nextStreak (project confirmationTicks before) o token
      · rw [if_pos (hiff.mp hle), if_pos ⟨hok, hle⟩]
        rfl
      · rw [if_neg (mt hiff.mpr hle), if_neg fun hboth => hle hboth.2]
        rfl
    · have hopen : ¬Completes confirmationTicks before o token.id := fun hcompletes =>
        hok ((holds_iff hshown).mp hcompletes.2.1).1
      rw [if_neg hopen, if_neg fun hboth => hok hboth.1]
      rfl

/-- One more observation keeps the projection in step with the history. -/
theorem step (h : Follows confirmationTicks participationOf before)
    (htokens : ∀ token ∈ o.token, token.participationId = participationOf token.id) :
    Follows confirmationTicks participationOf (before ++ [o]) := by
  cases hscorable : o.isScorable with
  | false =>
      have hproject : project confirmationTicks (before ++ [o]) =
          project confirmationTicks before := by
        rw [project_append_singleton, (claimStep_void hscorable _).1]
      have hlast : lastToken (before ++ [o]) = lastToken before := by
        rw [lastToken_append_singleton, hscorable]
        rfl
      have hholder : holder confirmationTicks (before ++ [o]) =
          holder confirmationTicks before := by
        rw [holder_append_singleton, completion, Option.filter_eq_none_iff.mpr]
        · rfl
        · simp [Completes, hscorable]
      have hrun : ∀ tokenId, runLength tokenId (before ++ [o]) = runLength tokenId before := by
        intro tokenId
        rw [runLength_append_singleton, hscorable]
        rfl
      constructor
      · rw [hproject, hlast, h.tokenId]
      · rw [hproject, hholder, h.confirmed]
      · rw [hproject, hlast, hholder]
        exact h.provisional
      · simp only [hproject, hlast, hholder, hrun]
        exact h.streak
  | true =>
      have hlast : lastToken (before ++ [o]) = o.shown.map (·.id) := by
        rw [lastToken_append_singleton, if_pos hscorable]
      cases hshown : o.shown with
      | none =>
          have hproject := (claimStep_none confirmationTicks hscorable
            hshown (project confirmationTicks before)).1
          have hholder : holder confirmationTicks (before ++ [o]) =
              holder confirmationTicks before := by
            rw [holder_append_singleton, completion, hshown]
            rfl
          rw [hshown] at hlast
          constructor
          · rw [project_append_singleton, hproject, hlast]
            rfl
          · rw [project_append_singleton, hproject, hholder]
            exact h.confirmed
          · simp [hlast]
          · simp [hlast]
      | some token =>
          have htoken := htokens token (Option.filter_eq_some_iff.mp hshown).1
          have hproject := (claimStep_some confirmationTicks hscorable
            hshown (project confirmationTicks before)).1
          have hholder := h.holder_append_shown hscorable hshown htoken
          rw [h.confirmed, ← hholder] at hproject
          rw [hshown] at hlast
          constructor
          · rw [project_append_singleton, hproject, hlast]
            rfl
          · rw [project_append_singleton, hproject]
          · intro tokenId hid
            obtain rfl : token.id = tokenId := Option.some.inj (hlast.symm.trans hid)
            rw [project_append_singleton, hproject, ← htoken]
          · intro tokenId hid hopen
            obtain rfl : token.id = tokenId := Option.some.inj (hlast.symm.trans hid)
            rw [project_append_singleton, hproject]
            rw [← htoken, hholder] at hopen
            by_cases hok : o.status = .ok
            · have hlt : ¬threshold confirmationTicks ≤
                  nextStreak (project confirmationTicks before) o token := fun hle =>
                hopen (if_pos ⟨hok, hle⟩)
              rw [if_neg fun hboth => hlt hboth.2] at hopen
              have hstreak := (h.threshold_le_iff hscorable hshown htoken hok
                fun hboth => hopen hboth.1).1
              refine ⟨hstreak, ?_⟩
              rw [← hstreak]
              exact not_le.mp hlt
            · have hzero : runLength token.id (before ++ [o]) = 0 := by
                rw [runLength_append_singleton, if_pos hscorable, if_neg]
                exact fun hholds => hok ((holds_iff hshown).mp hholds).1
              have hpos := one_le_threshold confirmationTicks
              rw [hzero]
              exact ⟨if_neg hok, by omega⟩

end Follows

/-- The projection follows every history. -/
theorem follows_of_tokensOf {participationOf : ℤ → ℤ} {observations : List ClaimObservation}
    (h : TokensOf participationOf observations) :
    Follows confirmationTicks participationOf observations := by
  induction observations using List.reverseRecOn with
  | nil => exact Follows.nil participationOf
  | append_singleton before o ih =>
      exact (ih fun a ha => h a (by simp [ha])).step (h o (by simp))

/-- A token which is reported only at its first completed run is reported once. -/
theorem count_reported_le_one {observations : List ClaimObservation}
    (h : ∀ before o after, observations = before ++ o :: after → ∀ tokenId,
      reported confirmationTicks before o = some tokenId ↔
        Completes confirmationTicks before o tokenId ∧
          ¬CompletedBefore confirmationTicks before tokenId) (tokenId : ℤ) :
    (record (reported confirmationTicks) [] observations).count (some tokenId) ≤ 1 := by
  induction observations using List.reverseRecOn with
  | nil => simp
  | append_singleton before o ih =>
      have hinit : ∀ l₁ a l₂, before = l₁ ++ a :: l₂ → ∀ tokenId,
          reported confirmationTicks l₁ a = some tokenId ↔
            Completes confirmationTicks l₁ a tokenId ∧
              ¬CompletedBefore confirmationTicks l₁ tokenId := by
        intro l₁ a l₂ hsplit
        exact h l₁ a (l₂ ++ [o]) (by rw [hsplit]; simp)
      rw [record_append_singleton, List.count_append, List.nil_append]
      by_cases hlast : reported confirmationTicks before o = some tokenId
      · have hfresh := ((h before o [] rfl tokenId).mp hlast).2
        have hnone : some tokenId ∉ record (reported confirmationTicks) [] before := by
          intro hmem
          obtain ⟨l₁, a, l₂, hsplit, hreported⟩ := mem_record.mp hmem
          exact hfresh ⟨l₁, a, l₂, hsplit,
            ((hinit l₁ a l₂ hsplit tokenId).mp hreported.symm).1⟩
        rw [List.count_eq_zero.mpr hnone, hlast]
        simp
      · have hzero : [reported confirmationTicks before o].count (some tokenId) = 0 :=
          List.count_eq_zero.mpr (by simpa [eq_comm] using hlast)
        rw [hzero, add_zero]
        exact ih hinit

/-- **When every acquisition is reported exactly once.**  The acquisition law holds for
a sequence of observations exactly when, at every completed run of a token, the token
completed a run before if and only if it was still shown by the scorable observation
before and its team was still the last one to complete a run. -/
theorem acquisitionLaw_iff (confirmationTicks : Int32) (participationOf : ℤ → ℤ)
    (observations : List ClaimObservation) (htokens : TokensOf participationOf observations) :
    AcquisitionLaw confirmationTicks observations ↔
      ∀ before o after, observations = before ++ o :: after → ∀ tokenId,
        Completes confirmationTicks before o tokenId →
          (CompletedBefore confirmationTicks before tokenId ↔
            lastToken before = some tokenId ∧
              holder confirmationTicks before = some (participationOf tokenId)) := by
  have hreported : ∀ before o after, observations = before ++ o :: after → ∀ tokenId,
      reported confirmationTicks before o = some tokenId ↔
        Completes confirmationTicks before o tokenId ∧
          ¬(lastToken before = some tokenId ∧
            holder confirmationTicks before = some (participationOf tokenId)) := by
    intro before o after hsplit tokenId
    subst hsplit
    have hfollows : Follows confirmationTicks participationOf before :=
      follows_of_tokensOf fun a ha => htokens a (by simp [ha])
    exact hfollows.reported_iff (htokens o (by simp)) tokenId
  constructor
  · intro hlaw before o after hsplit tokenId hcompletes
    have h := (hreported before o after hsplit tokenId).symm.trans
      (hlaw.first before o after hsplit tokenId)
    simp only [hcompletes, true_and] at h
    exact (not_iff_not.mp h).symm
  · intro h
    have hfirst : ∀ before o after, observations = before ++ o :: after → ∀ tokenId,
        reported confirmationTicks before o = some tokenId ↔
          Completes confirmationTicks before o tokenId ∧
            ¬CompletedBefore confirmationTicks before tokenId := by
      intro before o after hsplit tokenId
      rw [hreported before o after hsplit tokenId]
      exact and_congr_right fun hcompletes =>
        not_congr (h before o after hsplit tokenId hcompletes).symm
    exact ⟨count_reported_le_one hfirst, hfirst⟩

/-- A healthy observation of a token of an eligible team. -/
def healthyClaim (tokenId participationId : ℤ) : ClaimObservation :=
  ⟨some ⟨tokenId, participationId, 1⟩, .ok, true, true⟩

/-- Two teams take a hill from each other, and the first one takes it back. -/
def retakenHill : List ClaimObservation :=
  [healthyClaim 10 1, healthyClaim 10 1, healthyClaim 20 2, healthyClaim 20 2,
    healthyClaim 10 1, healthyClaim 10 1]

/-- A token which takes a hill back is reported a second time. -/
theorem not_acquisitionLaw_retakenHill : ¬AcquisitionLaw 2 retakenHill := by
  intro h
  have hcount := h.once 10
  revert hcount
  decide

theorem acquisitionLaw_iff_retakenHill :
    AcquisitionLaw 2 retakenHill ↔
      ∀ before o after, retakenHill = before ++ o :: after → ∀ tokenId,
        Completes 2 before o tokenId →
          (CompletedBefore 2 before tokenId ↔
            lastToken before = some tokenId ∧ holder 2 before = some (tokenId / 10)) :=
  acquisitionLaw_iff 2 (· / 10) retakenHill (by simp [TokensOf, retakenHill, healthyClaim])

end Law

end KingOfTheHill

end Rsctf
