import Rsctf.Data.Interleaving
import Rsctf.FlagSubmission.Adjudication

/-!
# Batches of flags

A batch is adjudicated in one transaction under the lock `ad-submit` of its game and team,
and its rows appear when the transaction commits.  Every statement sees the database as it
is then.  The insertion has a snapshot from its beginning; it waits for the lock of the latest
round which the snapshot has not finalized, looks at the newest version of that row, and goes
on to the next round when it has been finalized meanwhile.  A process which fails or stops
loses its transaction.
-/

namespace Rsctf

namespace FlagSubmission

/-- The open transaction of a process, with the rows it has written and the rounds which it
keeps from being changed. -/
structure Transaction where
  process : ℕ
  id : ℕ
  submitLock : Option (ℤ × ℤ)
  sharedRounds : List ℤ
  captures : List Capture

structure Commit where
  transaction : ℕ
  captures : List Capture

inductive Event
  | scoreboardInvalidated (gameId : ℤ)
  | scoreboardChanged (gameId : ℤ)
  | attack (broadcast : PendingAttackBroadcast)
deriving DecidableEq, Repr

/-- The database with the open transactions.  `commits` keeps a record of what was committed,
and `reopened` of how often a finalized round was reopened. -/
structure World where
  arena : Arena
  attacks : List AdAttack
  transactions : Table Transaction.process
  nextTransaction : ℕ
  nextAttackId : ℤ
  commits : List Commit
  reopened : ℤ → ℕ
  published : List Event

structure Attacker where
  id : ℤ
  gameId : ℤ
  teamId : ℤ
deriving DecidableEq, Repr

inductive AdSubmitCaller
  | session
  | teamToken
deriving DecidableEq, Repr

/-- A request with what is decided elsewhere: who is asking, whether the rate limit admits the
cost, whether the fence of the roster is free, and whether the credentials are still good.
`clock` is the instant at which the insertion of a flag reads the clock. -/
structure SubmitRequest where
  gameId : ℤ
  flags : List String
  attacker : Except AppError Attacker
  caller : AdSubmitCaller
  admitAdSubmit : ℕ → Bool
  rosterFence : Bool
  callerIsLive : Arena → Bool
  clock : String → ℤ

/-- The reply, and the transaction in which it was worked out. -/
structure Outcome where
  transaction : Option ℕ
  answer : Except AppError AdBatchSubmitResultModel

abbrev Program := Script World Outcome

section Statements

variable {β : Type} (p : ℕ)

def World.transaction (w : World) : Option Transaction := w.transactions.get? p

/-- What a transaction wrote is gone with it. -/
def rollback (w : World) : World := { w with transactions := w.transactions.remove p }

def statement (ready : World → Bool) (f : World → World × β) (next : β → Program) : Program :=
  .step ready (fun w => (f w).1) fun w => next (f w).2

def query (f : World → β) (next : β → Program) : Program :=
  statement (fun _ => true) (fun w => (w, f w)) next

def update (f : World → World) (next : Program) : Program :=
  statement (fun _ => true) (fun w => (f w, ())) fun _ => next

def beginTransaction (w : World) : World × ℕ :=
  ({ w with
    transactions := w.transactions.put ⟨p, w.nextTransaction, none, [], []⟩
    nextTransaction := w.nextTransaction + 1 }, w.nextTransaction)

def modifyTransaction (f : Transaction → Transaction) (w : World) : World :=
  match w.transaction p with
  | some tx => { w with transactions := w.transactions.put { f tx with process := p } }
  | none => w

/-- Take the lock of a game and a team when no other transaction holds it. -/
def acquireAdditional (submitKey : ℤ × ℤ) (next : Program) : Program :=
  statement
    (fun w => w.transactions.rows.all fun tx =>
      decide (tx.process = p) || decide (tx.submitLock ≠ some submitKey))
    (fun w => (modifyTransaction p (fun tx => { tx with submitLock := some submitKey }) w, ()))
    fun _ => next

/-- The transaction commits: its rows appear and its locks are free. -/
def commit (w : World) : World :=
  match w.transaction p with
  | some tx => { w with
      attacks := w.attacks ++ tx.captures.map (·.attack)
      transactions := w.transactions.remove p
      commits := w.commits ++ [⟨tx.id, tx.captures⟩] }
  | none => w

def release (next : Program) : Program := update (commit p) next

/-- The captures which a statement of the process sees. -/
def World.visibleAttacks (w : World) : List AdAttack :=
  w.attacks ++ (((w.transaction p).map (·.captures)).getD []).map (·.attack)

end Statements

section Insertion

variable (p : ℕ)

structure Snapshot where
  arena : Arena
  attacks : List AdAttack

/-- Lock the latest round which the snapshot has not finalized and which is not finalized
now either. -/
def lockLatestRound (snapshot : Snapshot) (gameId : ℤ) (w : World) : World × Option AdRound :=
  let lockable (round : AdRound) : Option AdRound :=
    (w.arena.rounds.get? round.id).filter fun newest =>
      decide (newest.gameId = gameId) && !newest.finalized
  match (snapshot.arena.roundsDescending gameId fun round => !round.finalized).findSome?
    lockable with
  | some latest =>
    (modifyTransaction p (fun tx => { tx with sharedRounds := latest.id :: tx.sharedRounds }) w,
      some latest)
  | none => (w, none)

/-- The clock is read at some instant of the statement. -/
def readClock (started finished instant : ℤ) : ℤ :=
  if instant < started then started else if finished < instant then finished else instant

/-- No other transaction has written a row with the key. -/
def uncontended (key : AttackKey) (w : World) : Bool :=
  w.transactions.rows.all fun tx => decide (tx.process = p) ||
    tx.captures.all fun capture => decide (capture.attack.key ≠ (key.attackerId, key.flagId))

/-- Write the row, unless the team has the flag already. -/
def writeAttack (snapshot : Snapshot) (key : AttackKey) (latest : Option AdRound) (instant : ℤ)
    (w : World) : World × Option AcceptedAttack :=
  match latest.bind fun latest =>
      snapshot.arena.candidate key latest (readClock snapshot.arena.now w.arena.now instant) with
  | none => (w, none)
  | some candidate =>
    let attack := candidate.attack w.nextAttackId
    let used := { w with nextAttackId := w.nextAttackId + 1 }
    if (w.visibleAttacks p).any fun prior => decide (prior.key = attack.key) then (used, none)
    else
      let inserted := candidate.accepted snapshot.arena snapshot.attacks key.gameId
      let capture : Capture := ⟨attack, inserted.broadcast key.gameId⟩
      (modifyTransaction p (fun tx => { tx with captures := tx.captures ++ [capture] }) used,
        some inserted)

/-- `insert_accepted_attack_on` -/
def insertAcceptedAttack (key : AttackKey) (instant : ℤ)
    (next : Option AcceptedAttack → Program) : Program :=
  query (fun w => Snapshot.mk w.arena (w.visibleAttacks p)) fun snapshot =>
  statement (fun _ => true) (lockLatestRound p snapshot key.gameId) fun latest =>
  statement (uncontended p key) (writeAttack p snapshot key latest instant) next

end Insertion

section Adjudication

variable (p : ℕ)

structure SubmitContext where
  gameId : ℤ
  attacker : Attacker
  currentRoundNumber : Option ℤ
  lifetimeTicks : ℤ

structure SubmitOneResult where
  decision : FlagDecision
  broadcast : Option PendingAttackBroadcast

def SubmitOneResult.withoutBroadcast (decision : FlagDecision) : SubmitOneResult :=
  ⟨decision, none⟩

def submitOne (context : SubmitContext) (instant : ℤ) (flagText : String)
    (next : SubmitOneResult → Program) : Program :=
  match context.currentRoundNumber with
  | none => next (.withoutBroadcast (.notStarted, none))
  | some currentRoundNumber =>
    if isPlausibleFlag flagText = false then next (.withoutBroadcast (.wrong, none))
    else
      query (fun w => w.arena.activeVictimFlag context.gameId flagText) fun
      | none => next (.withoutBroadcast (.wrong, none))
      | some flag =>
        let planted := flag.plantedRoundNumber
        match requireActiveVictim flag.activeService planted with
        | .error decision => next (.withoutBroadcast decision)
        | .ok victimService =>
          if victimService.participationId = context.attacker.id then
            next (.withoutBroadcast (.selfAttack, planted))
          else if planted.any fun planted =>
              planted < currentRoundNumber - context.lifetimeTicks + 1 then
            next (.withoutBroadcast (.expired, planted))
          else
            let key : AttackKey :=
              ⟨context.attacker.id, victimService.id, flag.flagId, context.gameId⟩
            insertAcceptedAttack p key instant fun
            | some inserted =>
              next ⟨(.accepted, planted), inserted.broadcast context.gameId⟩
            | none =>
              query (fun w => w.arena.rejection (w.visibleAttacks p) key) fun status =>
              next (.withoutBroadcast (status, planted))

/-- What was found out about the flags so far. -/
structure Batch where
  acceptedCount : ℕ
  results : List AdSubmitResultModel
  broadcasts : List PendingAttackBroadcast
  adjudicated : String → Option FlagDecision

def Batch.empty : Batch := ⟨0, [], [], fun _ => none⟩

/-- The result of a flag at its place in the reply. -/
def Batch.record (batch : Batch) (flagText : String) (outcome : SubmitOneResult) : Batch :=
  { batch with
    acceptedCount := batch.acceptedCount + if outcome.decision.1 = .accepted then 1 else 0
    results := batch.results ++ [⟨flagText, outcome.decision.1, outcome.decision.2, none⟩]
    broadcasts := batch.broadcasts ++ outcome.broadcast.toList }

def Batch.reject (batch : Batch) (index : ℕ) (flagText : String) : Batch :=
  { batch with results := batch.results ++ [malformed index flagText] }

def Batch.settle (batch : Batch) (flagText : String) (outcome : SubmitOneResult) : Batch :=
  { batch.record flagText outcome with
    adjudicated := Function.update batch.adjudicated flagText (some outcome.decision) }

def Batch.reply (batch : Batch) : AdBatchSubmitResultModel := ⟨batch.acceptedCount, batch.results⟩

/-- The flags from a position on, one after the other. -/
def adjudicate (context : SubmitContext) (clock : String → ℤ) (next : Batch → Program) :
    ℕ → List String → Batch → Program
  | _, [], batch => next batch
  | index, flagText :: flags, batch =>
    if isPlausibleFlag flagText = false then
      adjudicate context clock next (index + 1) flags (batch.reject index flagText)
    else
      match batch.adjudicated flagText with
      | some previous =>
        adjudicate context clock next (index + 1) flags
          (batch.record flagText (.withoutBroadcast (repeatedBatchResult previous)))
      | none =>
        submitOne p context (clock flagText) flagText fun outcome =>
        adjudicate context clock next (index + 1) flags (batch.settle flagText outcome)

end Adjudication

section Submission

variable (p : ℕ)

/-- The events of a batch which has been committed. -/
def announce (gameId : ℤ) (game : Game) (batch : Batch) (w : World) : World :=
  let changed := if 0 < batch.acceptedCount then
      .scoreboardInvalidated gameId ::
        if Jeopardy.publicScoreboardFrozen game.freezeTimeUtc game.endTimeUtc w.arena.now false
        then [] else [.scoreboardChanged gameId]
    else []
  { w with published := w.published ++ changed ++ batch.broadcasts.map .attack }

/-- The batch is adjudicated while the game is open. -/
def submitOpen (r : SubmitRequest) (attacker : Attacker) (x : ℕ) (game : Game) : Program :=
  query (fun w => w.arena.latestRoundNumber r.gameId) fun currentRoundNumber =>
  adjudicate p ⟨r.gameId, attacker, currentRoundNumber, game.lifetimeTicks⟩ r.clock
    (fun batch =>
      release p <|
      update (announce r.gameId game batch) <|
      .done ⟨some x, .ok batch.reply⟩)
    0 r.flags .empty

/-- The transaction ends without a row. -/
def conclude (x : ℕ) (answer : Except AppError AdBatchSubmitResultModel) : Program :=
  release p (.done ⟨some x, answer⟩)

/-- The part of a submission which runs in the transaction. -/
def submitFenced (r : SubmitRequest) (attacker : Attacker) (x : ℕ) : Program :=
  acquireAdditional p (r.gameId, attacker.id) <|
  query (fun w => r.callerIsLive w.arena) fun live =>
  if live = false then
    conclude p x
      (.error (match r.caller with | .session => .forbidden | .teamToken => .unauthorized))
  else
    query (fun w => w.arena.games r.gameId) fun
    | none => conclude p x (.error (.notFound "Game not found"))
    | some game =>
      query (fun w => w.arena.now) fun now =>
      if now < game.startTimeUtc then
        conclude p x (.ok (closedResults r.flags .notStarted "the game has not started yet"))
      else if game.endTimeUtc ≤ now then
        conclude p x (.ok (closedResults r.flags .ended
          "the game has ended — submissions are closed"))
      else if game.adScoringPaused = true then
        conclude p x (.ok (closedResults r.flags .paused
          "scoring is paused — submissions are not being recorded"))
      else submitOpen p r attacker x game

def SubmitRequest.cost (r : SubmitRequest) : ℕ :=
  adSubmitCostUnits (r.flags.filter isPlausibleFlag).dedup.length
    (r.flags.map String.utf8ByteSize).sum

def refuse (error : AppError) : Program := .done ⟨none, .error error⟩

def submit (r : SubmitRequest) : Program :=
  if r.flags.isEmpty ∨ adMaxBatch < r.flags.length then
    refuse (.badRequest "Flags must contain between 1 and 100 entries")
  else
    match r.attacker with
    | .error error => refuse error
    | .ok attacker =>
      if r.admitAdSubmit r.cost = false then refuse .tooManyRequests
      else if r.rosterFence = false then
        refuse (.unavailable "Team credentials are changing; retry this request")
      else statement (fun _ => true) (beginTransaction p) (submitFenced p r attacker)

end Submission

section System

/-- What may happen besides: everything but the captures changes at any time.  A round which
a transaction has locked stays as it is, a finalized one is only reopened, and the identity
of rounds, flags, services and participations is fixed. -/
structure World.Surroundings (w t : World) : Prop where
  attacks : t.attacks = w.attacks
  transactions : t.transactions = w.transactions
  nextTransaction : t.nextTransaction = w.nextTransaction
  commits : t.commits = w.commits
  published : t.published = w.published
  now : w.arena.now ≤ t.arena.now
  rounds : ∀ round ∈ w.arena.rounds, ∃ new ∈ t.arena.rounds,
    new.id = round.id ∧ new.gameId = round.gameId ∧ new.number = round.number
  flags : ∀ flag ∈ w.arena.flags, flag ∈ t.arena.flags
  services : ∀ id service, w.arena.services id = some service → t.arena.services id = some service
  participations : ∀ id row, w.arena.participations id = some row →
    ∃ new, t.arena.participations id = some new ∧ new.gameId = row.gameId
  locked : ∀ tx ∈ w.transactions, ∀ id ∈ tx.sharedRounds,
    t.arena.rounds.get? id = w.arena.rounds.get? id
  reopened : ∀ id, w.reopened id ≤ t.reopened id
  finalized : ∀ id, (w.arena.rounds.get? id).any (·.finalized) = true →
    t.reopened id = w.reopened id → (t.arena.rounds.get? id).any (·.finalized) = true

def submissionSetting : Interleaving.Setting World SubmitRequest Outcome where
  program := submit
  abandon := rollback
  environment := World.Surroundings

end System

end FlagSubmission

end Rsctf
