import Mathlib.Data.List.Basic
import Mathlib.Logic.Function.Basic
import Rsctf.Data.Path

/-!
# The capability cache

The tokens which a team may present at the hills of a game are cached on every replica
under a key which names two epochs, one of the game and one of the participation.  A
mutation of the tokens first puts a marker in place of an epoch, which no reader accepts,
and publishes a fresh epoch after its commit.  Every operation on a pointer is one step;
so are the lock, the commit, and the reads of the database.
-/

namespace Rsctf

namespace KingOfTheHill

/-- The two kinds of epoch pointers. -/
inductive Pointer
  | game (gameId : ℕ)
  | participant (gameId participationId : ℕ)
deriving DecidableEq

def Pointer.gameId : Pointer → ℕ
  | game gameId => gameId
  | participant gameId _ => gameId

def capabilityEpochEncodedLen : ℕ := 16

def isEpochCharacter (c : Char) : Bool :=
  c.isAlphanum || c = '_' || c = '-'

def decodeEpoch (value : String) : Option String :=
  if value.utf8ByteSize = capabilityEpochEncodedLen ∧ value.toList.all isEpochCharacter then
    some value
  else none

/-- The marker of a mutation; the epoch in it is fresh. -/
def mutationMarker (epoch : String) : String := "mutating:" ++ epoch

theorem decodeEpoch_eq_some {value epoch : String} (h : decodeEpoch value = some epoch) :
    epoch = value := by
  unfold decodeEpoch at h
  split at h
  · exact (Option.some.inj h).symm
  · contradiction

/-- No marker is an epoch. -/
@[simp] theorem decodeEpoch_mutationMarker (epoch : String) :
    decodeEpoch (mutationMarker epoch) = none := by
  unfold decodeEpoch
  apply if_neg
  rintro ⟨-, hall⟩
  have hcolon := List.all_eq_true.mp hall ':' (by simp [mutationMarker])
  revert hcolon
  decide

theorem mutationMarker_injective : Function.Injective mutationMarker := by
  intro a b h
  have hlist : "mutating:".toList ++ a.toList = "mutating:".toList ++ b.toList := by
    simpa [mutationMarker] using congrArg String.toList h
  exact String.toList_inj.mp (List.append_cancel_left hlist)

/-- Both pointers that select one participant's local bearer models. -/
structure CapabilityEpochs where
  game : String
  participant : String
deriving DecidableEq

/-- How many mutations of the game and of the participation a reader saw. -/
structure Seen where
  game : ℕ
  participant : ℕ
deriving DecidableEq

/-- The key of a model: `hill_token_key`, or `all_tokens_key` without a challenge. -/
structure ModelKey where
  challengeId : Option ℕ
  gameId : ℕ
  participationId : ℕ
  round : ℕ
  epochs : CapabilityEpochs
deriving DecidableEq

/-- How far `current_capability_epochs` has come. -/
inductive Fetch
  | readGame
  | readParticipant (game : Option String)
  | tryLock
  | seedGame
  | claimGame
  | rereadGame
  | seedParticipant (game : Option String)
  | claimParticipant (game : Option String)
  | rereadParticipant (game : Option String)
  | release (game participant : Option String)
deriving DecidableEq

/-- How far a reader has come: it fetches the epochs, looks its model up, fetches the epochs
again, and loads the database and fills the cache unless the epochs are the same. -/
inductive ReaderPhase
  | idle
  | first (fetch : Fetch)
  | lookup (cached : Option CapabilityEpochs)
  | second (cached : Option CapabilityEpochs) (model : Option Seen) (fetch : Fetch)
  | decide (cached : Option CapabilityEpochs) (model : Option Seen)
      (live : Option CapabilityEpochs)
  | load (live : Option CapabilityEpochs)
  | fill (live : Option CapabilityEpochs) (model : Seen)
  | served (model : Seen)
deriving DecidableEq

/-- A reader, with what was committed when it started. -/
structure Reader where
  replica : ℕ
  gameId : ℕ
  participationId : ℕ
  challengeId : Option ℕ
  started : Seen
  phase : ReaderPhase
deriving DecidableEq

/-- The ownership of a marker. -/
structure GameEpochMutation where
  pointer : Pointer
  marker : String
deriving DecidableEq

/-- How far a capability writer has come: it holds the game lock, installed its marker,
verified it, and has committed. -/
inductive WriterPhase
  | idle
  | locked (gameId : ℕ)
  | marking (gameId : ℕ) (mutation : GameEpochMutation)
  | fenced (gameId : ℕ) (mutation : GameEpochMutation)
  | finishing (mutation : GameEpochMutation)
deriving DecidableEq

/-- The shared cache, the local caches of the replicas, the game locks, and the processes.
The database is known by how many mutations of each scope it has committed. -/
structure Cluster where
  pointers : Pointer → Option String
  models : ℕ → ModelKey → Option Seen
  committed : Pointer → ℕ
  exclusive : ℕ → Option ℕ
  shared : ℕ → List ℕ
  readers : ℕ → Reader
  writers : ℕ → WriterPhase
  /-- The epochs drawn so far. -/
  drawn : List String

namespace Cluster

def empty : Cluster where
  pointers := fun _ => none
  models := fun _ _ => none
  committed := fun _ => 0
  exclusive := fun _ => none
  shared := fun _ => []
  readers := fun _ => ⟨0, 0, 0, none, ⟨0, 0⟩, .idle⟩
  writers := fun _ => .idle
  drawn := []

/-- What is committed for a participation. -/
def seen (s : Cluster) (gameId participationId : ℕ) : Seen where
  game := s.committed (.game gameId)
  participant := s.committed (.participant gameId participationId)

/-- A fresh epoch has the form of an epoch and was never drawn before. -/
def fresh (s : Cluster) (epoch : String) : Bool :=
  decodeEpoch epoch = some epoch && epoch ∉ s.drawn

/-- A key is absent, or holds something which is not an epoch, or an epoch. -/
def readEpoch (s : Cluster) (pointer : Pointer) : Except Unit (Option String) :=
  match s.pointers pointer with
  | some value =>
    match decodeEpoch value with
    | some epoch => .ok (some epoch)
    | none => .error ()
  | none => .ok none

def setReader (s : Cluster) (r : ℕ) (phase : ReaderPhase) : Cluster :=
  { s with readers := Function.update s.readers r { s.readers r with phase } }

def setWriter (s : Cluster) (w : ℕ) (phase : WriterPhase) : Cluster :=
  { s with writers := Function.update s.writers w phase }

/-- The outcome of one operation of a fetch: it goes on, or it returns. -/
inductive FetchOutcome
  | continues (s : Cluster) (fetch : Fetch)
  | returns (s : Cluster) (epochs : Option CapabilityEpochs)

/-- Insert a fresh epoch when the key is absent. -/
def setIfAbsent (s : Cluster) (pointer : Pointer) (candidate : String) : Cluster × Bool :=
  match s.pointers pointer with
  | none =>
    ({ s with
      pointers := Function.update s.pointers pointer (some candidate)
      drawn := candidate :: s.drawn }, true)
  | some _ => ({ s with drawn := candidate :: s.drawn }, false)

def unlockShared (s : Cluster) (r gameId : ℕ) : Cluster :=
  { s with shared := Function.update s.shared gameId ((s.shared gameId).erase r) }

/-- One operation of `current_capability_epochs`.  The database may fail to lend the shared
lock or to end its transaction. -/
def fetchStep (s : Cluster) (r gameId participationId : ℕ) (candidate : String)
    (available : Bool) : Fetch → Option FetchOutcome
  | .readGame =>
    match s.readEpoch (.game gameId) with
    | .ok game => some (.continues s (.readParticipant game))
    | .error () => some (.returns s none)
  | .readParticipant game =>
    match s.readEpoch (.participant gameId participationId) with
    | .ok participant =>
      match game, participant with
      | some game, some participant => some (.returns s (some ⟨game, participant⟩))
      | _, _ => some (.continues s .tryLock)
    | .error () => some (.returns s none)
  | .tryLock =>
    if (s.exclusive gameId).isSome || !available then some (.returns s none)
    else
      some (.continues
        { s with shared := Function.update s.shared gameId (r :: s.shared gameId) } .seedGame)
  | .seedGame =>
    match s.readEpoch (.game gameId) with
    | .ok (some epoch) => some (.continues s (.seedParticipant (some epoch)))
    | .ok none => some (.continues s .claimGame)
    | .error () => some (.continues s (.seedParticipant none))
  | .claimGame =>
    if s.fresh candidate then
      match s.setIfAbsent (.game gameId) candidate with
      | (next, true) => some (.continues next (.seedParticipant (some candidate)))
      | (next, false) => some (.continues next .rereadGame)
    else none
  | .rereadGame =>
    match s.readEpoch (.game gameId) with
    | .ok game => some (.continues s (.seedParticipant game))
    | .error () => some (.continues s (.seedParticipant none))
  | .seedParticipant game =>
    match s.readEpoch (.participant gameId participationId) with
    | .ok (some epoch) => some (.continues s (.release game (some epoch)))
    | .ok none => some (.continues s (.claimParticipant game))
    | .error () => some (.continues s (.release game none))
  | .claimParticipant game =>
    if s.fresh candidate then
      match s.setIfAbsent (.participant gameId participationId) candidate with
      | (next, true) => some (.continues next (.release game (some candidate)))
      | (next, false) => some (.continues next (.rereadParticipant game))
    else none
  | .rereadParticipant game =>
    match s.readEpoch (.participant gameId participationId) with
    | .ok participant => some (.continues s (.release game participant))
    | .error () => some (.continues s (.release game none))
  | .release game participant =>
    let next := s.unlockShared r gameId
    if available then
      match game, participant with
      | some game, some participant => some (.returns next (some ⟨game, participant⟩))
      | _, _ => some (.returns next none)
    else some (.returns next none)

/-- One operation of a reader, which may draw a fresh epoch and knows a round number. -/
def readerStep (s : Cluster) (r : ℕ) (candidate : String) (available : Bool) (round : ℕ) :
    Option Cluster :=
  let reader := s.readers r
  let key := fun epochs : CapabilityEpochs =>
    ModelKey.mk reader.challengeId reader.gameId reader.participationId round epochs
  match reader.phase with
  | .idle => none
  | .first fetch =>
    match s.fetchStep r reader.gameId reader.participationId candidate available fetch with
    | some (.continues next fetch) => some (next.setReader r (.first fetch))
    | some (.returns next epochs) => some (next.setReader r (.lookup epochs))
    | none => none
  | .lookup cached =>
    let model := cached.bind fun epochs => s.models reader.replica (key epochs)
    some (s.setReader r (.second cached model .readGame))
  | .second cached model fetch =>
    match s.fetchStep r reader.gameId reader.participationId candidate available fetch with
    | some (.continues next fetch) => some (next.setReader r (.second cached model fetch))
    | some (.returns next live) => some (next.setReader r (.decide cached model live))
    | none => none
  | .decide cached model live =>
    if cached = live then
      match live, model with
      | some _, some model => some (s.setReader r (.served model))
      | _, _ => some (s.setReader r (.load live))
    else some (s.setReader r (.load live))
  | .load live =>
    some (s.setReader r (.fill live (s.seen reader.gameId reader.participationId)))
  | .fill live model =>
    match live with
    | some epochs =>
      some ({ s with
        models := Function.update s.models reader.replica
          (Function.update (s.models reader.replica) (key epochs) (some model)) }.setReader r
            (.served model))
    | none => some (s.setReader r (.served model))
  | .served _ => none

def unlockExclusive (s : Cluster) (w gameId : ℕ) : Cluster :=
  if s.exclusive gameId = some w then
    { s with exclusive := Function.update s.exclusive gameId none }
  else s

/-- What can happen. -/
inductive Event
  | start (r replica gameId participationId : ℕ) (challengeId : Option ℕ)
  | read (r : ℕ) (candidate : String) (available : Bool) (round : ℕ)
  | crashReader (r : ℕ)
  | lock (w gameId : ℕ)
  | beginMutation (w : ℕ) (pointer : Pointer) (epoch : String) (written : Bool)
  | verify (w : ℕ)
  | commit (w : ℕ)
  | finish (w : ℕ) (epoch : String)
  | disconnect (w gameId : ℕ)
  | crashWriter (w gameId : ℕ)
  | evictPointer (pointer : Pointer)
  | evictModel (replica : ℕ) (key : ModelKey)

/-- One event.  A writer whose connection is lost keeps running until its commit fails; a
writer which crashes after its commit loses its finish. -/
def step (s : Cluster) : Event → Option Cluster
  | .start r replica gameId participationId challengeId =>
    match (s.readers r).phase with
    | .idle | .served _ =>
      some { s with
        readers := Function.update s.readers r
          ⟨replica, gameId, participationId, challengeId, s.seen gameId participationId,
            .first .readGame⟩ }
    | _ => none
  | .read r candidate available round => s.readerStep r candidate available round
  | .crashReader r => some ((s.unlockShared r (s.readers r).gameId).setReader r .idle)
  | .lock w gameId =>
    if s.writers w = .idle ∧ s.exclusive gameId = none ∧ s.shared gameId = [] then
      some ({ s with exclusive := Function.update s.exclusive gameId (some w) }.setWriter w
        (.locked gameId))
    else none
  | .beginMutation w pointer epoch written =>
    match s.writers w with
    | .locked gameId =>
      if pointer.gameId = gameId ∧ s.fresh epoch then
        let marker := mutationMarker epoch
        some ({ s with
          pointers :=
            if written then Function.update s.pointers pointer (some marker) else s.pointers
          drawn := epoch :: s.drawn }.setWriter w (.marking gameId ⟨pointer, marker⟩))
      else none
    | _ => none
  | .verify w =>
    match s.writers w with
    | .marking gameId mutation =>
      if s.pointers mutation.pointer = some mutation.marker then
        some (s.setWriter w (.fenced gameId mutation))
      else some ((s.unlockExclusive w gameId).setWriter w .idle)
    | _ => none
  | .commit w =>
    match s.writers w with
    | .locked gameId => some ((s.unlockExclusive w gameId).setWriter w .idle)
    | .fenced gameId mutation =>
      if s.exclusive gameId = some w then
        some ({ s with
          committed :=
            Function.update s.committed mutation.pointer (s.committed mutation.pointer + 1)
          exclusive := Function.update s.exclusive gameId none }.setWriter w
            (.finishing mutation))
      else some (s.setWriter w .idle)
    | _ => none
  | .finish w epoch =>
    match s.writers w with
    | .finishing mutation =>
      if s.fresh epoch then
        let next := { s with drawn := epoch :: s.drawn }.setWriter w .idle
        if s.pointers mutation.pointer = some mutation.marker then
          some { next with
            pointers := Function.update s.pointers mutation.pointer (some epoch) }
        else some next
      else none
    | _ => none
  | .disconnect w gameId => some (s.unlockExclusive w gameId)
  | .crashWriter w gameId => some ((s.unlockExclusive w gameId).setWriter w .idle)
  | .evictPointer pointer =>
    some { s with pointers := Function.update s.pointers pointer none }
  | .evictModel replica key =>
    some { s with
      models := Function.update s.models replica
        (Function.update (s.models replica) key none) }

/-- The runs of the cluster from the empty caches. -/
def Run (events : List Event) (s : Cluster) : Prop :=
  StepPath (fun s event next => step s event = some next) empty events s

end Cluster

end KingOfTheHill

end Rsctf
