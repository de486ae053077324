import Rsctf.Data.Newest
import Rsctf.Suspicion.Rules

/-!
# The breakdown of a suspicion ledger

The events of a team are grouped by rule and read from the newest one on.  The first rows of
distinct incidents count up to the cap of the rule and the ceiling of its tier; context adds
to hard evidence only.  Two readers compute it: the writer of the stored score and the fused
report.
-/

namespace Rsctf

namespace Suspicion

/-- The bands a team is triaged by. -/
inductive RiskBand
  | clean
  | context
  | watch
  | investigate
  | evidenced
deriving DecidableEq, Repr

/-- One event, as the aggregation takes it. -/
structure SuspicionEventRow where
  ruleCode : String
  evidenceKey : String
  details : String
  time : ℤ
  scoreDelta : Option ℤ
deriving DecidableEq, Repr

/-- One event with what it contributed. -/
structure ScoredSuspicionEvent where
  ruleCode : String
  details : String
  time : ℤ
  scoreDelta : ℤ
  appliedDelta : ℤ
  tier : SuspicionTier
  counted : Bool
deriving DecidableEq, Repr

structure SuspicionBreakdown where
  hard : ℤ
  strong : ℤ
  behavioral : ℤ
  corroboration : ℤ
  total : ℤ
  band : RiskBand
  events : List ScoredSuspicionEvent
deriving DecidableEq, Repr

/-- Addition on `i64`, stopping at its bounds. -/
def saturatingAdd (a b : ℤ) : ℤ := max (-i64Max - 1) (min i64Max (a + b))

def saturatingSub (a b : ℤ) : ℤ := max (-i64Max - 1) (min i64Max (a - b))

/-- Rows from before the cutover, which never score. -/
def isQuarantinedEvidenceKey (evidenceKey : String) : Bool :=
  "legacy-untrusted:".toList.isPrefixOf evidenceKey.toList

/-- Rows without an incident of their own. -/
def SuspicionEventRow.isLegacy (e : SuspicionEventRow) : Bool :=
  e.scoreDelta.isNone || "legacy:".toList.isPrefixOf e.evidenceKey.toList

/-- A rule of context with its newest trusted event. -/
structure ContextCandidate where
  time : ℤ
  ruleCode : String
  eventIndex : ℕ
  unit : ℤ
deriving DecidableEq, Repr

/-- What the loop over the rules keeps. -/
structure Scoring where
  annotated : List ScoredSuspicionEvent
  tierSubtotal : SuspicionTier → ℤ
  contextSeen : List String
  contextCandidates : List ContextCandidate

/-- What the loop over the events of one rule keeps. -/
structure RuleScan where
  annotated : List ScoredSuspicionEvent
  tierSubtotal : SuspicionTier → ℤ
  seenIncident : List String
  legacyIncidentSeen : Bool
  countedIncidents : ℕ
  newestTrustedContextIndex : Option ℕ

namespace RuleScan

/-- Whether an event is a new incident; it is remembered. -/
def register (s : RuleScan) (e : SuspicionEventRow) : Bool × RuleScan :=
  if isQuarantinedEvidenceKey e.evidenceKey || (e.isLegacy && s.legacyIncidentSeen) then (false, s)
  else if e.isLegacy then (true, { s with legacyIncidentSeen := true })
  else (e.evidenceKey ∉ s.seenIncident,
    { s with seenIncident := s.seenIncident.insert e.evidenceKey })

def scoreDelta (weight : String → ℤ) (e : SuspicionEventRow) : ℤ :=
  if isQuarantinedEvidenceKey e.evidenceKey then 0 else e.scoreDelta.getD (weight e.ruleCode)

/-- Charge an incident within the cap of its rule and the ceiling of its tier. -/
def charge (tier : SuspicionTier) (cap : ℕ) (s : RuleScan) (isNewIncident : Bool) (scoreDelta : ℤ) :
    ℤ × RuleScan :=
  if tier ≠ .context ∧ isNewIncident = true ∧ s.countedIncidents < cap then
    let contribution :=
      min (max scoreDelta 0) (saturatingSub (tierCeiling tier) (s.tierSubtotal tier))
    if 0 < contribution then
      (contribution, { s with
        countedIncidents := s.countedIncidents + 1
        tierSubtotal := Function.update s.tierSubtotal tier (s.tierSubtotal tier + contribution) })
    else (0, { s with countedIncidents := s.countedIncidents + 1 })
  else (0, s)

def scanEvent (tier : SuspicionTier) (cap : ℕ) (weight : String → ℤ) (s : RuleScan)
    (e : SuspicionEventRow) : RuleScan :=
  let (isNewIncident, s) := s.register e
  let delta := scoreDelta weight e
  let (appliedDelta, s) := s.charge tier cap isNewIncident delta
  { s with
    annotated := s.annotated ++
      [⟨e.ruleCode, e.details, e.time, delta, appliedDelta, tier, decide (0 < appliedDelta)⟩]
    newestTrustedContextIndex :=
      if tier = .context ∧ isQuarantinedEvidenceKey e.evidenceKey = false ∧
          s.newestTrustedContextIndex = none then some s.annotated.length
      else s.newestTrustedContextIndex }

end RuleScan

/-- The tier of a rule code; unknown rules are behavioral. -/
def tierOf (ruleCode : String) : SuspicionTier :=
  ((SuspicionType.fromCode ruleCode).map (·.tier)).getD .behavioral

def capOf (ruleCode : String) : ℕ :=
  ((SuspicionType.fromCode ruleCode).map (·.maxIncidents)).getD 3

def unitOf (ruleCode : String) : ℤ :=
  ((SuspicionType.fromCode ruleCode).map (·.corroborationUnit)).getD 5

/-- The rule codes in the order they are first seen. -/
def ruleCodes (events : List SuspicionEventRow) : List String :=
  (Newest.firsts (·.ruleCode) events).map (·.ruleCode)

/-- The events of a rule, the newest first. -/
def orderedGroup (events : List SuspicionEventRow) (ruleCode : String) : List SuspicionEventRow :=
  Newest.sorted (·.time) (events.filter fun e => e.ruleCode = ruleCode)

namespace Scoring

/-- A rule of context is remembered with its newest trusted event. -/
def addContext (s : Scoring) (ruleCode : String) (newest : Option ℕ) : Scoring :=
  match newest with
  | some index =>
    if ruleCode ∈ s.contextSeen then s
    else
      { s with
        contextSeen := ruleCode :: s.contextSeen
        contextCandidates :=
          if 0 < unitOf ruleCode then
            s.contextCandidates ++
              [⟨(s.annotated[index]?).elim 0 (·.time), ruleCode, index, unitOf ruleCode⟩]
          else s.contextCandidates }
  | none => s

def scanRule (events : List SuspicionEventRow) (weight : String → ℤ) (s : Scoring)
    (ruleCode : String) : Scoring :=
  let scan := (orderedGroup events ruleCode).foldl
    (RuleScan.scanEvent (tierOf ruleCode) (capOf ruleCode) weight)
    ⟨s.annotated, s.tierSubtotal, [], false, 0, none⟩
  let s := { s with annotated := scan.annotated, tierSubtotal := scan.tierSubtotal }
  if tierOf ruleCode = .context then s.addContext ruleCode scan.newestTrustedContextIndex else s

def empty : Scoring := ⟨[], fun _ => 0, [], []⟩

end Scoring

/-- The newest candidate first; the rule code breaks ties. -/
def candidateLe (a b : ContextCandidate) : Prop :=
  b.time < a.time ∨ a.time = b.time ∧ a.ruleCode ≤ b.ruleCode

instance : DecidableRel candidateLe := fun _ _ => inferInstanceAs (Decidable (_ ∨ _))

/-- What the loop over the candidates keeps. -/
structure Allocation where
  annotated : List ScoredSuspicionEvent
  remaining : ℤ
  corroboration : ℤ

def Allocation.allocate (a : Allocation) (candidate : ContextCandidate) : Allocation :=
  let applied := min candidate.unit a.remaining
  if applied = 0 then a
  else
    { annotated := a.annotated.modify candidate.eventIndex fun e =>
        { e with appliedDelta := applied, counted := true }
      remaining := a.remaining - applied
      corroboration := a.corroboration + applied }

def riskBand (hard strong behavioral : ℤ) (contextSeen : List String) : RiskBand :=
  if 0 < hard then .evidenced
  else if 0 < strong then .investigate
  else if 0 < behavioral then .watch
  else if contextSeen ≠ [] then .context
  else .clean

def computeBreakdown (events : List SuspicionEventRow) (weight : String → ℤ) :
    SuspicionBreakdown :=
  let scoring := (ruleCodes events).foldl (Scoring.scanRule events weight) .empty
  let hard := scoring.tierSubtotal .hard
  let strong := scoring.tierSubtotal .strong
  let behavioral := scoring.tierSubtotal .behavioral
  let allocation := (scoring.contextCandidates.insertionSort candidateLe).foldl
    Allocation.allocate ⟨scoring.annotated, hard / 2, 0⟩
  { hard := hard
    strong := strong
    behavioral := behavioral
    corroboration := allocation.corroboration
    total := saturatingAdd (saturatingAdd (saturatingAdd hard allocation.corroboration) strong)
      behavioral
    band := riskBand hard strong behavioral scoring.contextSeen
    events := allocation.annotated }

/-- An event of the ledger, with the checks of its columns. -/
structure SuspicionEvent where
  id : ℤ
  gameId : ℤ
  participationId : ℤ
  kind : ℤ
  evidenceKey : String
  scoreDelta : ℤ
  createdAt : ℤ
  known : 0 ≤ kind ∧ kind ≤ 39
  bounded : 0 ≤ scoreDelta ∧ scoreDelta ≤ 10000

structure Participation where
  gameId : ℤ
  suspicionScore : ℤ
deriving DecidableEq, Repr

/-- The participations and the events, with the keys of the event table. -/
structure Ledger where
  participations : ℤ → Option Participation
  events : List SuspicionEvent
  ids : (events.map (·.id)).Nodup
  incidents : (events.map fun e => (e.gameId, e.participationId, e.kind, e.evidenceKey)).Nodup
  provenance : ∀ e ∈ events, (participations e.participationId).map (·.gameId) = some e.gameId

/-- Newer events first, and of events of one time the later number. -/
def newerLe (a b : SuspicionEvent) : Prop :=
  b.createdAt < a.createdAt ∨ a.createdAt = b.createdAt ∧ b.id ≤ a.id

instance : DecidableRel newerLe := fun _ _ => inferInstanceAs (Decidable (_ ∨ _))

def olderLe (a b : SuspicionEvent) : Prop :=
  a.createdAt < b.createdAt ∨ a.createdAt = b.createdAt ∧ a.id ≤ b.id

instance : DecidableRel olderLe := fun _ _ => inferInstanceAs (Decidable (_ ∨ _))

inductive AppError
  | internal (message : String)
  | notFound (message : String)
deriving DecidableEq, Repr

namespace Ledger

/-- A row for the stored score; every rule has to be known. -/
def storedRow (participationId : ℤ) (event : SuspicionEvent) : Except AppError SuspicionEventRow :=
  match SuspicionType.fromKind event.kind with
  | none => .error (.internal ("unknown suspicion event kind " ++ toString event.kind ++
      " for participation " ++ toString participationId))
  | some ty => .ok ⟨ty.code, event.evidenceKey, ty.defaultEntry.2, event.createdAt,
      some event.scoreDelta⟩

/-- The score of a participation is written. -/
def setScore (ledger : Ledger) (participationId : ℤ) (p : Participation)
    (h : ledger.participations participationId = some p) (score : ℤ) : Ledger where
  participations := Function.update ledger.participations participationId
    (some { p with suspicionScore := score })
  events := ledger.events
  ids := ledger.ids
  incidents := ledger.incidents
  provenance e he := by
    by_cases heq : e.participationId = participationId
    · rw [heq, Function.update_self, ← ledger.provenance e he, heq, h]
      rfl
    · rw [Function.update_of_ne heq, ledger.provenance e he]

/-- The greatest value of `i32`. -/
def i32Max : ℤ := 2147483647

def recomputeParticipationSuspicionScore (ledger : Ledger) (participationId : ℤ) :
    Except AppError (ℤ × Ledger) := do
  let stored := (ledger.events.filter fun e => e.participationId = participationId).insertionSort
    newerLe
  let events ← stored.mapM (storedRow participationId)
  let total := min (max (computeBreakdown events fun _ => 0).total 0) i32Max
  match h : ledger.participations participationId with
  | none => .error (.notFound "participation not found")
  | some p => .ok (total, ledger.setScore participationId p h total)

/-- A row for the fused report. -/
def fusedRow (event : SuspicionEvent) : SuspicionEventRow :=
  let rule := SuspicionType.fromKind event.kind
  { ruleCode := rule.elim ("UnknownKind:" ++ toString event.kind) (·.code)
    evidenceKey := event.evidenceKey
    details := rule.elim "Unknown suspicion incident" (·.defaultEntry.2)
    time := event.createdAt
    scoreDelta := some event.scoreDelta }

/-- The part of the fused report which comes from the ledger. -/
def existingBreakdown (ledger : Ledger) (gameId participationId : ℤ) : SuspicionBreakdown :=
  let oldRaw := (ledger.events.filter fun e =>
    e.gameId = gameId ∧ e.participationId = participationId).insertionSort olderLe
  computeBreakdown (oldRaw.map fusedRow) defaultWeight

def existingScore (ledger : Ledger) (gameId participationId : ℤ) : ℤ :=
  (ledger.existingBreakdown gameId participationId).total

end Ledger

end Suspicion

end Rsctf
