import Rsctf.Leaderboard.Submission

/-!
# Runs of observations

The tables of a challenge together with their history: the transactions that committed,
the revocations and the resets of targets, the newest first.  Any caller may take any
step at any time.  The game moves on under the callers: rounds follow the clock and a
reset takes a new attempt and a new container, so what is observed never becomes again
what it was before.
-/

open Fallible

namespace Rsctf

namespace Leaderboard

/-- A transaction that committed. -/
structure CommittedObservation where
  requestDigest : Bytes
  leaseToken : ℕ
  response : KothObservationAcceptedModel
  time : ℤ
  identity : Identity
  requestTimestamp : ℤ
  waves : List ResolvedWave

inductive LogEntry
  | commit (c : CommittedObservation)
  | revocation (scope : Scope) (ids : List ℤ)
  | reset (targetId : ℤ)

/-- The tables with their history; `current` is what was observed last. -/
structure World where
  lease : LeaseTable.State Bytes ℕ KothObservationAcceptedModel
  snapshots : List Snapshot
  arenaScheme : Option (List String × Bytes)
  replays : List (Bytes × ℤ)
  environment : Environment
  current : Option Identity
  log : List LogEntry

def World.tables (w : World) : Tables := ⟨w.lease.rows, w.snapshots, w.arenaScheme, w.replays⟩

def LogEntry.commit? : LogEntry → Option CommittedObservation
  | .commit c => some c
  | _ => none

/-- The committed observations, the newest first. -/
def World.commits (w : World) : List CommittedObservation := w.log.filterMap LogEntry.commit?

/-- What the operation table records of a commit. -/
def CommittedObservation.receipt (c : CommittedObservation) :
    LeaseTable.Commit Bytes ℕ KothObservationAcceptedModel :=
  ⟨c.requestDigest, c.leaseToken, c.response, c.time⟩

/-- The last commit of a target since it was reset. -/
def lastCommit (targetId : ℤ) : List LogEntry → Option CommittedObservation
  | [] => none
  | .commit c :: older =>
      if c.identity.targetId = targetId then some c else lastCommit targetId older
  | .revocation _ _ :: older => lastCommit targetId older
  | .reset target :: older => if target = targetId then none else lastCommit targetId older

def Scope.coversTarget (scope : Scope) (gameId challengeId targetId : ℤ) : Bool :=
  gameId == scope.gameId && scope.challengeId.all (challengeId == ·) &&
    scope.targetId.all (targetId == ·)

/-- The participations revoked since the last commit of a target. -/
def revokedSince (gameId challengeId targetId : ℤ) : List LogEntry → List ℤ
  | [] => []
  | .commit c :: older =>
      if c.identity.targetId = targetId then [] else revokedSince gameId challengeId targetId older
  | .revocation scope ids :: older =>
      revokedSince gameId challengeId targetId older ++
        if scope.coversTarget gameId challengeId targetId then ids else []
  | .reset target :: older =>
      if target = targetId then [] else revokedSince gameId challengeId targetId older

/-- The waves of a target according to the history: those of its last commit without the
participations revoked since. -/
def expectedWaves (gameId challengeId targetId : ℤ) (log : List LogEntry) : List ResolvedWave :=
  match lastCommit targetId log with
  | none => []
  | some c => c.waves.map (redactWave (revokedSince gameId challengeId targetId log))

section Steps

variable (p : Primitives) (gameId challengeId : ℤ)

/-- The world after a transaction has committed. -/
def World.accept (w : World) (tables : Tables) (verified : VerifiedObservation) (leaseToken : ℕ)
    (response : KothObservationAcceptedModel) (s : Snapshot) (delivered : Bool) : World :=
  let requestDigest := p.requestDigest verified.credential.kind verified.input
  let stale := staleParticipations w.snapshots gameId challengeId s.targetId
    (w.environment.capabilities.map EligibleApiCapability.participationId)
  { w with
    lease :=
      { w.lease with
        rows := tables.operations
        commits := ⟨requestDigest, leaseToken, response, w.lease.now⟩ :: w.lease.commits
        served :=
          if delivered then ⟨requestDigest, response, w.lease.now⟩ :: w.lease.served
          else w.lease.served }
    snapshots := tables.snapshots
    arenaScheme := tables.arenaScheme
    replays := tables.replays
    log :=
      .commit ⟨requestDigest, leaseToken, response, w.lease.now, s.identity, s.requestTimestamp,
          s.waves⟩ ::
        .revocation (Scope.ofTarget gameId challengeId s.targetId) stale :: w.log }

/-- The steps of the callers, of the clock and of the game. -/
inductive ObservationStep : World → World → Prop
  | tick {w : World} {later : ℤ} (forward : w.lease.now ≤ later) :
      ObservationStep w { w with lease := { w.lease with now := later } }
  | purge {w : World} (doomed : List Bytes) :
      ObservationStep w
        { w with
          lease := { w.lease with rows := LeaseTable.purge doomed w.lease.now w.lease.rows } }
  | reserve {w : World} {requestDigest : Bytes} {leaseToken : ℕ} {operations : List Operation}
      (fresh : leaseToken ∉ w.lease.issued)
      (reserved : reserveObservation requestDigest leaseToken w.lease.now w.lease.rows =
        some operations) :
      ObservationStep w
        { w with
          lease :=
            { w.lease with
              rows := operations
              issued := leaseToken :: w.lease.issued
              superseded := LeaseTable.holders requestDigest w.lease.rows ++ w.lease.superseded } }
  | join {w : World} {requestDigest : Bytes} {response : KothObservationAcceptedModel}
      (found : completedObservation requestDigest w.lease.now w.lease.rows = some response) :
      ObservationStep w
        { w with
          lease :=
            { w.lease with
              served := ⟨requestDigest, response, w.lease.now⟩ :: w.lease.served } }
  | process {w : World} {body : Bytes} {clock : ℤ} {verified : VerifiedObservation}
      {leaseToken : ℕ} {tables : Tables} {response : KothObservationAcceptedModel} {s : Snapshot}
      (parsed : parseAndNormalize p.decode body = .ok verified.input)
      (processed : processObservation p gameId challengeId w.environment w.tables clock w.lease.now
        verified leaseToken = .ok (tables, response, s)) (delivered : Bool) :
      ObservationStep w
        (w.accept p gameId challengeId tables verified leaseToken response s delivered)
  | release {w : World} (requestDigest : Bytes) (leaseToken : ℕ) :
      ObservationStep w
        { w with
          lease :=
            { w.lease with rows := releaseObservation requestDigest leaseToken w.lease.rows } }
  | revoke {w : World} {scope : Scope} {ids : List ℤ} {fence : Bool} {store : List Snapshot}
      {removed : ℕ} (cleared : clearUnsettledScoresInner w.snapshots scope ids fence =
        .ok (store, removed)) :
      ObservationStep w { w with snapshots := store, log := .revocation scope ids :: w.log }
  | move {w : World} {environment : Environment}
      (fresh : ∀ context, environment.activeContext = some context →
        w.current = some context.identity ∨ ∀ c ∈ w.commits, c.identity ≠ context.identity) :
      ObservationStep w
        { w with
          environment := environment
          current := (environment.activeContext.map ActiveObserverContext.identity).or w.current }
  | reset {w : World} (targetId : ℤ) :
      ObservationStep w
        { w with
          snapshots := w.snapshots.filter fun s => s.targetId ≠ targetId
          environment := { w.environment with activeContext := none }
          current := w.current.filter fun identity => identity.targetId ≠ targetId
          log := .reset targetId :: w.log }

/-- The worlds that the steps lead to from empty tables. -/
inductive ObservationRun : World → Prop
  | start (now : ℤ) (environment : Environment) :
      ObservationRun
        { lease := ⟨now, [], [], [], [], []⟩
          snapshots := []
          arenaScheme := none
          replays := []
          environment := environment
          current := environment.activeContext.map ActiveObserverContext.identity
          log := [] }
  | step {w w' : World} (run : ObservationRun w)
      (next : ObservationStep p gameId challengeId w w') : ObservationRun w'

end Steps

section Lease

variable {p : Primitives} {gameId challengeId : ℤ} {w w' : World}

/-- On the operation table a step is a step of a leased operation, or nothing. -/
theorem ObservationStep.lease (next : ObservationStep p gameId challengeId w w') :
    LeaseTable.Step observationLease operationLifetime w.lease w'.lease ∨ w'.lease = w.lease := by
  cases next with
  | tick forward => exact .inl (.tick forward)
  | purge doomed => exact .inl (.purge doomed)
  | reserve fresh reserved => exact .inl (.reserve fresh reserved)
  | join found => exact .inl (.serve found)
  | process parsed processed delivered =>
      exact .inl (.complete (processObservation_ok processed).completed delivered)
  | release requestDigest leaseToken => exact .inl (.release requestDigest leaseToken)
  | revoke cleared => exact .inr rfl
  | move fresh => exact .inr rfl
  | reset targetId => exact .inr rfl

theorem ObservationRun.lease (run : ObservationRun p gameId challengeId w) :
    LeaseTable.Sound operationLifetime w.lease := by
  have positive : 0 < operationLifetime := by decide
  induction run with
  | start now environment =>
      have empty : LeaseTable.Run observationLease operationLifetime
          (⟨now, [], [], [], [], []⟩ : LeaseTable.State Bytes ℕ KothObservationAcceptedModel) :=
        .start now
      exact empty.sound positive
  | step _ next ih =>
      rcases next.lease with hstep | hsame
      · exact hstep.sound positive ih
      · rw [hsame]
        exact ih

/-- The operation table records the commits of the history. -/
theorem ObservationRun.receipts (run : ObservationRun p gameId challengeId w) :
    w.lease.commits = w.commits.map CommittedObservation.receipt := by
  induction run with
  | start now environment => rfl
  | step _ next ih =>
      cases next with
      | process parsed processed delivered => exact congrArg (List.cons _) ih
      | _ => exact ih

end Lease

end Leaderboard

end Rsctf
