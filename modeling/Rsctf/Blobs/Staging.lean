import Mathlib.Algebra.Order.Ring.Int
import Mathlib.Algebra.Ring.Nat
import Mathlib.Logic.Relation
import Rsctf.Data.Table

/-!
# Blobs which are staged, referenced and reclaimed

The bytes of a blob are stored and deleted outside of any transaction, under leases which are
claimed before.  A stage is claimed, its bytes are stored, it becomes ready, and a domain
transaction publishes it with one reference.  A hash which nothing refers to is reclaimed under
a lease on its deletion.  The transactions on one hash exclude each other.
-/

namespace Rsctf

namespace Blobs

abbrev Uuid := ℕ

inductive AppError
  | badRequest (message : String)
  | conflict (message : String)
  | overloaded (message : String) (retryAfter : ℕ)
  | internal (message : String)
deriving DecidableEq, Repr

structure StoredBlob where
  hash : String
  size : ℤ
  name : String
deriving DecidableEq, Repr

structure StagedBlob where
  operationId : Uuid
  ownerScope : String
  ownerUserId : Option Uuid
  blob : StoredBlob
deriving DecidableEq, Repr

inductive StageState
  | storing
  | ready
  | published
  | failed
deriving DecidableEq, Repr

/-- What `last_error` holds: the token of a cleanup, or a message. -/
inductive StageError
  | cleanup (token : Uuid)
  | message (text : String)
deriving DecidableEq, Repr

/-- Instants are in microseconds. -/
structure StageRow where
  operationId : Uuid
  ownerScope : String
  ownerUserId : Option Uuid
  contentHash : String
  fileName : String
  fileSize : ℤ
  state : StageState
  leaseExpiresAtUtc : ℤ
  publishedOwnerScope : Option String
  lastError : Option StageError
deriving DecidableEq, Repr

structure FileRow where
  id : ℤ
  hash : String
  name : String
  fileSize : ℤ
  referenceCount : ℤ
deriving DecidableEq, Repr

inductive DeletionState
  | deleting
  | failed
deriving DecidableEq, Repr

structure DeletionRow where
  contentHash : String
  operationId : Uuid
  state : DeletionState
  leaseExpiresAtUtc : ℤ
  lastError : Option String
deriving DecidableEq, Repr

/-- The owners are the rows of the domain which refer to a hash, directly or by a file. -/
structure Database where
  clock : ℤ
  stages : Table StageRow.operationId
  files : Table FileRow.hash
  nextFileId : ℤ
  deletions : Table DeletionRow.contentHash
  owners : List String

def secondUs : ℤ := 1000000
def stageLeaseUs : ℤ := 15 * 60 * secondUs
def receiptLeaseUs : ℤ := 24 * 3600 * secondUs
def cleanupLeaseUs : ℤ := 2 * 60 * secondUs
def deferralUs : ℤ := 30 * secondUs
def deletionLeaseUs : ℤ := 2 * 60 * secondUs

def deploymentStoreJobs : ℕ := 32
def deploymentStageRecords : ℕ := 4096
def deploymentStoreBytes : ℤ := 1024 * 1024 * 1024
def deploymentDeleteJobs : ℕ := 32

def StageRow.live (now : ℤ) (row : StageRow) : Bool := decide (now < row.leaseExpiresAtUtc)

def DeletionRow.active (now : ℤ) (row : DeletionRow) : Bool :=
  decide (row.state = .deleting) && decide (now < row.leaseExpiresAtUtc)

/-- The stage keeps its bytes from being reclaimed. -/
def StageRow.holds (now : ℤ) (row : StageRow) : Bool :=
  (decide (row.state = .storing) || decide (row.state = .ready)) && row.live now

def StageRow.storingNow (now : ℤ) (row : StageRow) : Bool :=
  decide (row.state = .storing) && row.live now

def Database.deletionActive (db : Database) (hash : String) : Bool :=
  db.deletions.rows.any fun row => decide (row.contentHash = hash) && row.active db.clock

def Database.activeStores (db : Database) : ℕ :=
  db.stages.rows.countP (StageRow.storingNow db.clock)

def Database.activeBytes (db : Database) : ℤ :=
  db.stages.weight fun row => if row.holds db.clock then row.fileSize else 0

def Database.hashIsReferenced (db : Database) (hash : String) : Bool :=
  db.files.rows.any (fun row => decide (row.hash = hash) && decide (0 < row.referenceCount)) ||
    decide (hash ∈ db.owners) ||
    db.stages.rows.any fun row => decide (row.contentHash = hash) && row.holds db.clock

section Staging

/-- The stage of an operation, if it was for the same content. -/
def exactStage (row : StageRow) (request : StagedBlob) : Except AppError StagedBlob :=
  if row.ownerScope ≠ request.ownerScope ∨ row.ownerUserId ≠ request.ownerUserId ∨
      row.contentHash ≠ request.blob.hash ∨ row.fileName ≠ request.blob.name ∨
      row.fileSize ≠ request.blob.size then
    .error (.conflict "Blob operation identity was reused for different content")
  else .ok
    { operationId := request.operationId
      ownerScope := row.ownerScope
      ownerUserId := row.ownerUserId
      blob := ⟨row.contentHash, row.fileSize, row.fileName⟩ }

inductive Claim
  | store
  | recovered (staged : StagedBlob)
deriving DecidableEq, Repr

/-- A statement about the stage of one operation. -/
def Database.updateStage (db : Database) (operationId : Uuid) (p : StageRow → Bool)
    (f : StageRow → StageRow) (hf : ∀ row, (f row).operationId = row.operationId) : Database :=
  { db with
    stages := db.stages.update (fun row => decide (row.operationId = operationId) && p row) f hf }

/-- A lease which ended is renewed; the bytes are not looked at. -/
def revive (operationId : Uuid) (retention : ℤ) (db : Database) : Database :=
  db.updateStage operationId
    (fun row => decide (row.state = .ready) || decide (row.state = .published))
    (fun row => { row with leaseExpiresAtUtc := db.clock + retention }) fun _ => rfl

def restart (operationId : Uuid) (db : Database) : Database :=
  db.updateStage operationId (fun _ => true)
    (fun row => { row with
      state := .storing
      leaseExpiresAtUtc := db.clock + stageLeaseUs
      lastError := none }) fun _ => rfl

/-- The row of a new stage. -/
def StagedBlob.opened (request : StagedBlob) (now : ℤ) : StageRow where
  operationId := request.operationId
  ownerScope := request.ownerScope
  ownerUserId := request.ownerUserId
  contentHash := request.blob.hash
  fileName := request.blob.name
  fileSize := request.blob.size
  state := .storing
  leaseExpiresAtUtc := now + stageLeaseUs
  publishedOwnerScope := none
  lastError := none

def storageBusy : AppError :=
  .overloaded "Blob storage capacity is busy; retry in a moment" 2

def claimStage (request : StagedBlob) (db : Database) : Except AppError (Claim × Database) :=
  if db.deletionActive request.blob.hash then
    .error (.overloaded "This blob is being reclaimed; retry in a moment" 2)
  else
    match db.stages.get? request.operationId with
    | some row => do
      let staged ← exactStage row request
      match row.state with
      | .ready =>
        .ok (.recovered staged, if row.leaseExpiresAtUtc ≤ db.clock then
          revive request.operationId stageLeaseUs db else db)
      | .published =>
        .ok (.recovered staged, if row.leaseExpiresAtUtc ≤ db.clock then
          revive request.operationId receiptLeaseUs db else db)
      | .storing =>
        if row.live db.clock then
          .error (.overloaded "The same blob operation is still running" 2)
        else if deploymentStoreJobs ≤ db.activeStores ∨
            deploymentStoreBytes < db.activeBytes + request.blob.size then .error storageBusy
        else .ok (.store, restart request.operationId db)
      | .failed =>
        if row.live db.clock then
          .error (.overloaded "The same blob operation is being reclaimed" 2)
        else if deploymentStoreJobs ≤ db.activeStores ∨
            deploymentStoreBytes < db.activeBytes + request.blob.size then .error storageBusy
        else .ok (.store, restart request.operationId db)
    | none =>
      if deploymentStoreJobs ≤ db.activeStores ∨
          deploymentStageRecords ≤ db.stages.rows.countP (StageRow.live db.clock) ∨
          deploymentStoreBytes < db.activeBytes + request.blob.size then .error storageBusy
      else .ok (.store, { db with
        stages := db.stages.upsert (request.opened db.clock) id fun _ => rfl })

def markFailed (operationId : Uuid) (error : String) (db : Database) : Database :=
  db.updateStage operationId (fun row => decide (row.state = .storing))
    (fun row => { row with
      state := .failed
      leaseExpiresAtUtc := db.clock
      lastError := some (.message error) }) fun _ => rfl

/-- The row of a stored file; a new one has no reference yet. -/
def registerFile (blob : StoredBlob) (db : Database) : Database :=
  { db with
    files := db.files.upsert ⟨db.nextFileId, blob.hash, blob.name, blob.size, 0⟩
      (fun row => { row with fileSize := blob.size, name := blob.name }) fun _ => rfl
    nextFileId := db.nextFileId + 1 }

/-- The stage is still to be stored with this content. -/
def StageRow.awaits (hash : String) (row : StageRow) : Bool :=
  decide (row.state = .storing) && decide (row.contentHash = hash)

/-- The transaction after the bytes were stored. -/
def readyStage (staged : StagedBlob) (db : Database) : Except AppError Database :=
  if db.deletionActive staged.blob.hash then
    .error (.overloaded "This blob is being reclaimed; retry in a moment" 2)
  else if (db.stages.get? staged.operationId).any (StageRow.awaits staged.blob.hash) then
    .ok ((registerFile staged.blob db).updateStage staged.operationId
      (StageRow.awaits staged.blob.hash)
      (fun row => { row with
        state := .ready
        leaseExpiresAtUtc := db.clock + stageLeaseUs }) fun _ => rfl)
  else .error (.conflict "Blob staging ownership changed")

end Staging

section Publication

def validatePublicationScope (publicationScope : String) : Except AppError Unit :=
  if publicationScope.isEmpty ∨ 255 < publicationScope.utf8ByteSize then
    .error (.badRequest "Invalid blob publication owner")
  else .ok ()

def acquireLocked (blob : StoredBlob) (db : Database) : Database :=
  { db with
    files := db.files.upsert ⟨db.nextFileId, blob.hash, blob.name, blob.size, 1⟩
      (fun row => { row with referenceCount := row.referenceCount + 1 }) fun _ => rfl
    nextFileId := db.nextFileId + 1 }

/-- The file of a hash which is referenced. -/
def Database.ownedFile (db : Database) (hash : String) : Option FileRow :=
  (db.files.get? hash).filter fun row => 0 < row.referenceCount

def publishRow (operationId : Uuid) (publicationScope : String) (db : Database) : Database :=
  db.updateStage operationId
    (fun row => decide (row.state = .ready) && row.live db.clock)
    (fun row => { row with
      state := .published
      publishedOwnerScope := some publicationScope
      leaseExpiresAtUtc := db.clock + receiptLeaseUs }) fun _ => rfl

/-- Publish a stage in the transaction of a domain owner.  Whether the owner of a receipt still
refers to the file is read from the tables of the domain. -/
def publishStagedBlobForOwner (staged : StagedBlob) (publicationScope : String)
    (publishedOwnerStillMatches : Bool) (db : Database) : Except AppError (ℤ × Database) := do
  validatePublicationScope publicationScope
  match db.stages.get? staged.operationId with
  | none => .error (.conflict "Blob staging operation expired")
  | some row =>
    let _ ← exactStage row staged
    if row.state = .published then
      if row.publishedOwnerScope ≠ some publicationScope then
        .error (.conflict "Blob upload receipt was already consumed by another owner")
      else
        match db.ownedFile staged.blob.hash with
        | none => .error (.conflict "published blob is no longer owned")
        | some file =>
          if publishedOwnerStillMatches then .ok (file.id, db)
          else .error (.conflict "Blob upload receipt owner changed after publication")
    else if row.state ≠ .ready ∨ row.leaseExpiresAtUtc ≤ db.clock then
      .error (.conflict "Blob staging operation is not ready")
    else
      let acquired := acquireLocked staged.blob db
      .ok (((acquired.files.get? staged.blob.hash).map (·.id)).getD 0,
        publishRow staged.operationId publicationScope acquired)

/-- The current owner has the content already: the stage is consumed without a reference. -/
def consumeStagedBlobWithExistingReferenceAs (staged : StagedBlob) (publicationScope : String)
    (db : Database) : Except AppError (ℤ × Database) := do
  validatePublicationScope publicationScope
  match db.stages.get? staged.operationId with
  | none => .error (.conflict "Blob staging operation expired")
  | some row =>
    let _ ← exactStage row staged
    if (row.state ≠ .ready ∧ row.state ≠ .published) ∨ row.leaseExpiresAtUtc ≤ db.clock then
      .error (.conflict "Blob staging operation is not ready")
    else
      match db.ownedFile staged.blob.hash with
      | none => .error (.conflict "current blob is no longer owned")
      | some file =>
        if row.state = .published ∧ row.publishedOwnerScope ≠ some publicationScope then
          .error (.conflict "Blob upload receipt was already consumed by another owner")
        else if row.state = .ready then
          .ok (file.id, publishRow staged.operationId publicationScope db)
        else .ok (file.id, db)

structure ReleaseOutcome where
  found : Bool
  deletedHash : Option String
deriving DecidableEq, Repr

def Database.setReferenceCount (db : Database) (id count : ℤ) : Database :=
  { db with
    files := db.files.update (fun row => decide (row.id = id))
      (fun row => { row with referenceCount := count }) fun _ => rfl }

/-- Give a reference back.  The last one is kept as long as there is an owner; else the row stays
behind without references. -/
def releaseLocked (id : ℤ) (db : Database) : ReleaseOutcome × Database :=
  match db.files.rows.find? fun row => decide (row.id = id) with
  | none => (⟨false, none⟩, db)
  | some row =>
    if 1 < row.referenceCount then
      (⟨true, none⟩, db.setReferenceCount id (row.referenceCount - 1))
    else if row.hash ∈ db.owners then (⟨true, none⟩, db.setReferenceCount id 1)
    else (⟨true, some row.hash⟩, db.setReferenceCount id 0)

def releaseByHash (hash : String) (db : Database) : ReleaseOutcome × Database :=
  match db.files.get? hash with
  | some row => releaseLocked row.id db
  | none => (⟨false, none⟩, db)

end Publication

section Deletion

/-- Claim the deletion of a hash which nothing refers to. -/
def claimBlobDeletion (hash : String) (operationId : Uuid) (db : Database) :
    Except AppError (Option Uuid × Database) :=
  if db.hashIsReferenced hash then
    .ok (none, { db with
      deletions := db.deletions.keep fun row => decide (row.contentHash ≠ hash) })
  else if db.deletionActive hash then .ok (none, db)
  else if deploymentDeleteJobs ≤ db.deletions.rows.countP (DeletionRow.active db.clock) then
    .error (.overloaded "Blob deletion capacity is busy" 2)
  else
    let row : DeletionRow := ⟨hash, operationId, .deleting, db.clock + deletionLeaseUs, none⟩
    .ok (some operationId, { db with
      deletions := db.deletions.upsert row
        (fun old => { row with contentHash := old.contentHash }) fun _ => rfl })

def Database.dropDeletion (db : Database) (hash : String) (operationId : Uuid) : Database :=
  { db with
    deletions := db.deletions.keep fun row =>
      !(decide (row.contentHash = hash) && decide (row.operationId = operationId)) }

/-- The transaction after the bytes were deleted. -/
def finishBlobDeletion (hash : String) (operationId : Uuid) (db : Database) :
    Except AppError Unit × Database :=
  if (db.deletions.get? hash).any fun row =>
      decide (row.operationId = operationId) && decide (row.state = .deleting) then
    if db.hashIsReferenced hash then
      (.error (.internal "Blob gained an owner while deletion was in progress"),
        db.dropDeletion hash operationId)
    else
      (.ok (), { db.dropDeletion hash operationId with
        files := db.files.keep fun row =>
          !(decide (row.hash = hash) && decide (row.referenceCount ≤ 0)) })
  else (.error (.conflict "Blob deletion ownership changed"), db)

def markBlobDeletionFailed (hash : String) (operationId : Uuid) (error : String) (db : Database) :
    Database :=
  { db with
    deletions := db.deletions.update
      (fun row => decide (row.contentHash = hash) && decide (row.operationId = operationId))
      (fun row => { row with
        state := .failed, leaseExpiresAtUtc := db.clock, lastError := some error }) fun _ => rfl }

end Deletion

section Cleanup

inductive StageCleanupClaim
  | receiptRemoved
  | unpublished (token : Uuid)
deriving DecidableEq, Repr

/-- The row is the ready stage of exactly this content. -/
def StageRow.isReadyStage (staged : StagedBlob) (row : StageRow) : Bool :=
  decide (row.state = .ready) && decide (row.ownerScope = staged.ownerScope) &&
    decide (row.ownerUserId = staged.ownerUserId) && decide (row.contentHash = staged.blob.hash) &&
    decide (row.fileName = staged.blob.name) && decide (row.fileSize = staged.blob.size)

/-- Fence a stage before its bytes are touched: with a ready stage which its owner gives up, or
else after its lease ended.  A receipt which ended is removed. -/
def claimStageCleanup (operationId : Uuid) (hash : String) (exactReady : Option StagedBlob)
    (token : Uuid) (db : Database) : Option StageCleanupClaim × Database :=
  match (db.stages.get? operationId).filter fun row => row.contentHash = hash with
  | none => (none, db)
  | some row =>
    if exactReady.any fun staged => !row.isReadyStage staged then (none, db)
    else if row.state = .published then
      if exactReady.isNone && !row.live db.clock then
        (some .receiptRemoved, { db with
          stages := db.stages.keep fun row => decide (row.operationId ≠ operationId) })
      else (none, db)
    else if exactReady.isSome || !row.live db.clock then
      (some (.unpublished token), db.updateStage operationId (fun _ => true)
        (fun row => { row with
          state := .failed
          leaseExpiresAtUtc := db.clock + cleanupLeaseUs
          lastError := some (.cleanup token) }) fun _ => rfl)
    else (none, db)

/-- The stage is fenced by the cleanup. -/
def StageRow.fenced (hash : String) (token : Uuid) (row : StageRow) : Bool :=
  decide (row.contentHash = hash) && decide (row.state = .failed) &&
    decide (row.lastError = some (.cleanup token))

def deleteStageCleanupClaim (operationId : Uuid) (hash : String) (token : Uuid) (db : Database) :
    Database :=
  { db with
    stages := db.stages.keep fun row =>
      !(decide (row.operationId = operationId) && row.fenced hash token) }

def deferStageCleanupClaim (operationId : Uuid) (hash : String) (token : Uuid) (error : String)
    (db : Database) : Database :=
  db.updateStage operationId (StageRow.fenced hash token)
    (fun row => { row with
      leaseExpiresAtUtc := db.clock + deferralUs
      lastError := some (.message error) }) fun _ => rfl

def finishStageCleanupWithoutPurge (operationId : Uuid) (hash : String) (token : Uuid)
    (db : Database) : Bool × Database :=
  if (db.stages.get? operationId).any (StageRow.fenced hash token) then
    if db.hashIsReferenced hash then (true, deleteStageCleanupClaim operationId hash token db)
    else (false, deferStageCleanupClaim operationId hash token
      "blob cleanup deferred while deletion is active" db)
  else (false, db)

end Cleanup

end Blobs

end Rsctf
