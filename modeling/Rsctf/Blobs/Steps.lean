import Rsctf.Blobs.Staging
import Rsctf.Data.Fallible

/-!
# The runs of blob storage

The calls to the storage which are under way stand beside the database; a worker acts under the
lease which it claimed, or after it ended.  What the statements do to the row of a stage is said
once.
-/

open Fallible

namespace Rsctf

namespace Blobs

/-- A worker which stores the bytes of a stage. -/
structure StoreCall where
  staged : StagedBlob
  leaseEnd : ℤ
  stored : Bool
deriving DecidableEq, Repr

/-- A worker which deletes the bytes of a hash. -/
structure DeleteCall where
  hash : String
  operationId : Uuid
  leaseEnd : ℤ
  deleted : Bool
deriving DecidableEq, Repr

structure CleanupCall where
  operationId : Uuid
  hash : String
  token : Uuid
deriving DecidableEq, Repr

/-- The objects are the hashes whose bytes are in the storage.  The last three fields record which
operations got a stage, and which references were acquired and given back. -/
structure World where
  db : Database
  objects : List String
  storing : List StoreCall
  deleting : Table DeleteCall.operationId
  cleanups : List CleanupCall
  issued : List Uuid
  inserted : List Uuid
  acquired : List (Uuid × String)
  released : List String

/-- Whether a step comes in time. -/
inductive Lapse
  /-- The step is taken under the lease it needs. -/
  | timely
  /-- A worker acts after the lease which it claimed ended. -/
  | lateWorker
  /-- A ready stage whose lease had ended is revived. -/
  | revival
  /-- A ready stage is revived after its bytes were reclaimed. -/
  | blindRevival
deriving DecidableEq, Repr

def lapseOf (now leaseEnd : ℤ) : Lapse := if now < leaseEnd then .timely else .lateWorker

def World.recovery (w : World) (operationId : Uuid) : Lapse :=
  match w.db.stages.get? operationId with
  | some row =>
    if row.state = .ready ∧ row.leaseExpiresAtUtc ≤ w.db.clock then
      if row.contentHash ∈ w.objects then .revival else .blindRevival
    else .timely
  | none => .timely

inductive Step : Lapse → World → World → Prop
  | tick {w : World} {now : ℤ} (hnow : w.db.clock ≤ now) :
      Step .timely w { w with db := { w.db with clock := now } }
  | claim {w : World} {request : StagedBlob} {db : Database} (hsize : 0 < request.blob.size)
      (h : claimStage request w.db = .ok (.store, db)) :
      Step .timely w { w with
        db := db
        storing := w.storing ++ [⟨request, w.db.clock + stageLeaseUs, false⟩]
        inserted := if (w.db.stages.get? request.operationId).isSome then w.inserted
          else w.inserted ++ [request.operationId] }
  | recover {w : World} {request staged : StagedBlob} {db : Database}
      (h : claimStage request w.db = .ok (.recovered staged, db)) :
      Step (w.recovery request.operationId) w { w with db := db }
  | store {w : World} {call : StoreCall} (hcall : call ∈ w.storing) :
      Step .timely w { w with
        objects := call.staged.blob.hash :: w.objects
        storing := w.storing.map fun other =>
          if other = call then { call with stored := true } else other }
  | ready {w : World} {call : StoreCall} {db : Database} (hcall : call ∈ w.storing)
      (hstored : call.stored = true) (h : readyStage call.staged w.db = .ok db) :
      Step (lapseOf w.db.clock call.leaseEnd) w
        { w with db := db, storing := w.storing.filter (· ≠ call) }
  | markFailed {w : World} {call : StoreCall} (hcall : call ∈ w.storing) (error : String) :
      Step (lapseOf w.db.clock call.leaseEnd) w
        { w with
          db := markFailed call.staged.operationId error w.db
          storing := w.storing.filter (· ≠ call) }
  | abandonStore {w : World} (call : StoreCall) :
      Step .timely w { w with storing := w.storing.filter (· ≠ call) }
  | publish {w : World} {staged : StagedBlob} {publicationScope : String} {matched : Bool}
      {id : ℤ} {db : Database}
      (h : publishStagedBlobForOwner staged publicationScope matched w.db = .ok (id, db)) :
      Step .timely w { w with
        db := db
        acquired := if (w.db.stages.get? staged.operationId).any (·.state = .ready) then
          w.acquired ++ [(staged.operationId, staged.blob.hash)] else w.acquired }
  | consume {w : World} {staged : StagedBlob} {publicationScope : String} {id : ℤ} {db : Database}
      (h : consumeStagedBlobWithExistingReferenceAs staged publicationScope w.db = .ok (id, db)) :
      Step .timely w { w with db := db }
  /-- A row of the domain starts to refer to a hash. -/
  | attach {w : World} {file : FileRow} (hfile : file ∈ w.db.files)
      (hcount : 0 < file.referenceCount) :
      Step .timely w { w with db := { w.db with owners := file.hash :: w.db.owners } }
  | detach {w : World} (hash : String) :
      Step .timely w { w with db := { w.db with owners := w.db.owners.erase hash } }
  | release {w : World} {file : FileRow} (hfile : file ∈ w.db.files) :
      Step .timely w { w with
        db := (releaseLocked file.id w.db).2
        released := w.released ++ [file.hash] }
  | claimCleanup {w : World} {operationId : Uuid} {hash : String} (exactReady : Option StagedBlob)
      {token : Uuid} {claim : Option StageCleanupClaim} {db : Database} (hfresh : token ∉ w.issued)
      (h : claimStageCleanup operationId hash exactReady token w.db = (claim, db)) :
      Step .timely w { w with
        db := db
        cleanups := if claim = some (.unpublished token) then
          w.cleanups ++ [⟨operationId, hash, token⟩] else w.cleanups
        issued := token :: w.issued }
  | deleteCleanup {w : World} {call : CleanupCall} (hcall : call ∈ w.cleanups) :
      Step .timely w { w with
        db := deleteStageCleanupClaim call.operationId call.hash call.token w.db }
  | deferCleanup {w : World} {call : CleanupCall} (hcall : call ∈ w.cleanups) (error : String) :
      Step .timely w { w with
        db := deferStageCleanupClaim call.operationId call.hash call.token error w.db }
  | finishCleanup {w : World} {call : CleanupCall} (hcall : call ∈ w.cleanups) :
      Step .timely w { w with
        db := (finishStageCleanupWithoutPurge call.operationId call.hash call.token w.db).2 }
  | claimDeletion {w : World} {hash : String} {id : Uuid} {db : Database} (hfresh : id ∉ w.issued)
      (h : claimBlobDeletion hash id w.db = .ok (some id, db)) :
      Step .timely w { w with
        db := db
        deleting := w.deleting.upsert ⟨hash, id, w.db.clock + deletionLeaseUs, false⟩
          (fun call => call) fun _ => rfl
        issued := id :: w.issued }
  | skipDeletion {w : World} {hash : String} {id : Uuid} {db : Database}
      (h : claimBlobDeletion hash id w.db = .ok (none, db)) : Step .timely w { w with db := db }
  | delete {w : World} {call : DeleteCall} (hcall : call ∈ w.deleting) :
      Step (lapseOf w.db.clock call.leaseEnd) w { w with
        objects := w.objects.filter (· ≠ call.hash)
        deleting := w.deleting.update (fun other => decide (other = call))
          (fun other => { other with deleted := true }) fun _ => rfl }
  | finishDeletion {w : World} {call : DeleteCall} (hcall : call ∈ w.deleting)
      (hdeleted : call.deleted = true) :
      Step .timely w { w with
        db := (finishBlobDeletion call.hash call.operationId w.db).2
        deleting := w.deleting.keep fun other => decide (other ≠ call) }
  | failDeletion {w : World} {call : DeleteCall} (hcall : call ∈ w.deleting) (error : String) :
      Step .timely w { w with
        db := markBlobDeletionFailed call.hash call.operationId error w.db
        deleting := w.deleting.keep fun other => decide (other ≠ call) }
  | abandonDeletion {w : World} (call : DeleteCall) :
      Step .timely w { w with deleting := w.deleting.keep fun other => decide (other ≠ call) }

/-- Before the first operation every hash which is referenced has its bytes. -/
structure Initial (w : World) : Prop where
  stages : w.db.stages = Table.empty
  deletions : w.db.deletions = Table.empty
  storing : w.storing = []
  deleting : w.deleting = Table.empty
  fileIds : ∀ file ∈ w.db.files, ∀ other ∈ w.db.files, file.id = other.id → file = other
  nextFileId : ∀ file ∈ w.db.files, file.id < w.db.nextFileId
  counts : ∀ file ∈ w.db.files, 0 ≤ file.referenceCount
  resident : ∀ hash, w.db.hashIsReferenced hash = true → hash ∈ w.objects
  unrecorded : w.inserted = [] ∧ w.acquired = [] ∧ w.released = []

/-- A run whose lapses are all of the allowed kinds. -/
def Reachable (allowed : Lapse → Prop) (w : World) : Prop :=
  ∃ start, Initial start ∧
    Relation.ReflTransGen (fun w₁ w₂ => ∃ lapse, allowed lapse ∧ Step lapse w₁ w₂) start w

section Statements

variable {db db' : Database} {request staged : StagedBlob} {operationId token : Uuid}
  {old new : StageRow} {hash error publicationScope : String}

/-- A statement about one stage leaves this row for it, or none. -/
structure Restaged (db : Database) (operationId : Uuid) (new : Option StageRow) (db' : Database) :
    Prop where
  puts : db.stages.Puts operationId new db'.stages
  frame : db' = { db with stages := db'.stages }

theorem restaged_updateStage {p : StageRow → Bool} {f : StageRow → StageRow}
    {hf : ∀ row, (f row).operationId = row.operationId} (hold : old ∈ db.stages)
    (hid : old.operationId = operationId) (hp : p old = true) (hnew : f old = new) :
    Restaged db operationId (some new) (db.updateStage operationId p f hf) where
  puts := by
    subst hnew
    have hput : db.stages.Puts operationId (some (f old)) (db.stages.update
        (fun row => decide (row.operationId = operationId) && p row) f hf) := by
      refine Table.puts_update hold (by simp [hid, hp]) fun row _ hrow => ?_
      simp only [Bool.and_eq_true, decide_eq_true_eq] at hrow
      exact hrow.1
    exact hput
  frame := rfl

/-- A statement about one stage changes its row, or nothing. -/
theorem updateStage_cases (db : Database) (operationId : Uuid) (p : StageRow → Bool)
    (f : StageRow → StageRow) (hf : ∀ row, (f row).operationId = row.operationId) :
    db.updateStage operationId p f hf = db ∨
      ∃ old ∈ db.stages, old.operationId = operationId ∧ p old = true ∧
        Restaged db operationId (some (f old)) (db.updateStage operationId p f hf) := by
  by_cases h : ∃ old ∈ db.stages, old.operationId = operationId ∧ p old = true
  · obtain ⟨old, hold, hid, hp⟩ := h
    exact .inr ⟨old, hold, hid, hp, restaged_updateStage hold hid hp rfl⟩
  · refine .inl ?_
    rw [Database.updateStage, Table.update_eq_self fun row hrow => ?_]
    rw [Bool.eq_false_iff]
    intro hrow'
    simp only [Bool.and_eq_true, decide_eq_true_eq] at hrow'
    exact h ⟨row, hrow, hrow'⟩

/-- A stage is for the content of the request. -/
structure StageRow.IsFor (row : StageRow) (request : StagedBlob) : Prop where
  operationId : row.operationId = request.operationId
  contentHash : row.contentHash = request.blob.hash
  fileSize : row.fileSize = request.blob.size

theorem StageRow.isFor_of_exactStage (h : exactStage old request = .ok staged)
    (hid : old.operationId = request.operationId) : old.IsFor request ∧ staged = request := by
  unfold exactStage at h
  split at h
  · cases h
  next heq =>
    simp only [not_or, not_not] at heq
    obtain ⟨hscope, huser, hhash, hname, hsize⟩ := heq
    refine ⟨⟨hid, hhash, hsize⟩, ?_⟩
    rw [← Except.ok.inj h, hscope, huser, hhash, hname, hsize]

theorem StageRow.isFor_opened (request : StagedBlob) (now : ℤ) :
    (request.opened now).IsFor request := ⟨rfl, rfl, rfl⟩

/-- What a worker finds which is to store the bytes. -/
structure Opened (request : StagedBlob) (db db' : Database) : Prop where
  inactive : db.deletionActive request.blob.hash = false
  stores : db.activeStores < deploymentStoreJobs
  bytes : db.activeBytes + request.blob.size ≤ deploymentStoreBytes
  idle : ∀ old ∈ db.stages, old.operationId = request.operationId →
    old.live db.clock = false ∧ (old.state = .storing ∨ old.state = .failed)
  restaged : ∃ new : StageRow, new.IsFor request ∧ new.state = .storing ∧
    new.leaseExpiresAtUtc = db.clock + stageLeaseUs ∧
      Restaged db request.operationId (some new) db'

theorem opened_restart (hinactive : db.deletionActive request.blob.hash = false)
    (hold : old ∈ db.stages) (hfor : old.IsFor request) (hlive : ¬old.live db.clock = true)
    (hstate : old.state = .storing ∨ old.state = .failed)
    (hcapacity : ¬(deploymentStoreJobs ≤ db.activeStores ∨
      deploymentStoreBytes < db.activeBytes + request.blob.size)) :
    Opened request db (restart request.operationId db) where
  inactive := hinactive
  stores := by omega
  bytes := by omega
  idle := fun other hother hid => by
    obtain rfl := Table.eq_of_key_eq hother hold (hid.trans hfor.operationId.symm)
    exact ⟨Bool.eq_false_iff.mpr hlive, hstate⟩
  restaged := by
    refine ⟨{ old with
      state := .storing
      leaseExpiresAtUtc := db.clock + stageLeaseUs
      lastError := none }, ⟨hfor.operationId, hfor.contentHash, hfor.fileSize⟩, rfl, rfl, ?_⟩
    exact restaged_updateStage hold hfor.operationId rfl rfl

/-- What a retry finds whose bytes were stored before. -/
structure Recovered (request staged : StagedBlob) (db db' : Database) : Prop where
  inactive : db.deletionActive request.blob.hash = false
  staged_eq : staged = request
  renewed : ∃ old ∈ db.stages, old.IsFor request ∧ exactStage old request = .ok staged ∧
    (old.state = .ready ∨ old.state = .published) ∧
    ((old.live db.clock = true ∧ db' = db) ∨
      (old.live db.clock = false ∧ ∃ retention, 0 < retention ∧ Restaged db request.operationId
        (some { old with leaseExpiresAtUtc := db.clock + retention }) db'))

theorem recovered_revive (hinactive : db.deletionActive request.blob.hash = false)
    (hexact : exactStage old request = .ok staged) (hold : old ∈ db.stages)
    (hid : old.operationId = request.operationId)
    (hstate : old.state = .ready ∨ old.state = .published) {retention : ℤ}
    (hretention : 0 < retention) :
    Recovered request staged db (if old.leaseExpiresAtUtc ≤ db.clock then
      revive request.operationId retention db else db) where
  inactive := hinactive
  staged_eq := (StageRow.isFor_of_exactStage hexact hid).2
  renewed := by
    refine ⟨old, hold, (StageRow.isFor_of_exactStage hexact hid).1, hexact, hstate, ?_⟩
    split
    next hlease =>
      refine .inr ⟨decide_eq_false hlease.not_gt, retention, hretention,
        restaged_updateStage hold hid ?_ rfl⟩
      simpa using hstate
    next hlease => exact .inl ⟨decide_eq_true (not_le.mp hlease), rfl⟩

/-- A claim opens the stage, or recovers it. -/
theorem claimStage_eq_ok {claim : Claim} (h : claimStage request db = .ok (claim, db')) :
    (claim = .store ∧ Opened request db db') ∨
      ∃ staged, claim = .recovered staged ∧ Recovered request staged db db' := by
  unfold claimStage at h
  split at h
  · cases h
  next hinactive =>
    rw [Bool.not_eq_true] at hinactive
    split at h
    next row hrow =>
      obtain ⟨hmem, hid⟩ := Table.get?_eq_some.mp hrow
      obtain ⟨staged, hexact, hclaim⟩ := bind_eq_ok_iff.mp h
      have hfor := (StageRow.isFor_of_exactStage hexact hid).1
      split at hclaim
      next hstate =>
        cases hclaim
        exact .inr ⟨staged, rfl,
          recovered_revive hinactive hexact hmem hid (.inl hstate) (by decide)⟩
      next hstate =>
        cases hclaim
        exact .inr ⟨staged, rfl,
          recovered_revive hinactive hexact hmem hid (.inr hstate) (by decide)⟩
      next hstate =>
        split at hclaim
        · cases hclaim
        next hlive =>
          split at hclaim
          · cases hclaim
          next hcapacity =>
            cases hclaim
            exact .inl ⟨rfl, opened_restart hinactive hmem hfor hlive (.inl hstate) hcapacity⟩
      next hstate =>
        split at hclaim
        · cases hclaim
        next hlive =>
          split at hclaim
          · cases hclaim
          next hcapacity =>
            cases hclaim
            exact .inl ⟨rfl, opened_restart hinactive hmem hfor hlive (.inr hstate) hcapacity⟩
    next hnone =>
      split at h
      · cases h
      next hcapacity =>
        cases h
        have hnone' := Table.get?_eq_none.mp hnone
        have hput : db.stages.Puts request.operationId (some (request.opened db.clock))
            (db.stages.upsert (request.opened db.clock) id fun _ => rfl) :=
          Table.puts_upsert rfl (fun _ => rfl) fun old hold hid => absurd hid (hnone' old hold)
        refine .inl ⟨rfl, hinactive, by omega, by omega, ?_, ?_⟩
        · intro old hold hid
          exact absurd hid (hnone' old hold)
        · exact ⟨_, StageRow.isFor_opened request db.clock, rfl, rfl, hput, rfl⟩

/-- A statement takes a stage with the property out of service, or does nothing: a row which stays
is failed, or a receipt. -/
def Retires (q : StageRow → Prop) (db : Database) (operationId : Uuid) (db' : Database) : Prop :=
  db' = db ∨ ∃ old ∈ db.stages, old.operationId = operationId ∧ q old ∧ ∃ new,
    Restaged db operationId new db' ∧ ∀ row ∈ new, row.operationId = operationId ∧
      ((row.state = .failed ∧ old.state ≠ .published) ∨ row.state = .published)

/-- No worker is to store the bytes of the stage. -/
def StageRow.Idle (now : ℤ) (row : StageRow) : Prop := row.storingNow now = false

theorem StageRow.idle_of_state {now : ℤ} (h : old.state ≠ .storing) : old.Idle now := by
  simp [Idle, storingNow, h]

theorem StageRow.idle_of_expired {now : ℤ} (h : old.live now = false) : old.Idle now := by
  simp [Idle, storingNow, h]

theorem retires_updateStage {q : StageRow → Prop} {p : StageRow → Bool} {f : StageRow → StageRow}
    {hf : ∀ row, (f row).operationId = row.operationId}
    (h : ∀ row, p row = true → q row ∧
      (((f row).state = .failed ∧ row.state ≠ .published) ∨ (f row).state = .published)) :
    Retires q db operationId (db.updateStage operationId p f hf) := by
  rcases updateStage_cases db operationId p f hf with heq | ⟨old, hold, hid, hp, hre⟩
  · exact .inl heq
  · refine .inr ⟨old, hold, hid, (h old hp).1, _, hre, ?_⟩
    rintro row ⟨⟩
    exact ⟨(hf old).trans hid, (h old hp).2⟩

theorem retires_markFailed : Retires (fun row => row.state = .storing) db operationId
    (markFailed operationId error db) := by
  refine retires_updateStage fun row hrow => ?_
  have hstate : row.state = .storing := of_decide_eq_true hrow
  exact ⟨hstate, .inl ⟨rfl, by simp [hstate]⟩⟩

theorem retires_publishRow : Retires (fun row => row.state = .ready) db operationId
    (publishRow operationId publicationScope db) := by
  refine retires_updateStage fun row hrow => ?_
  simp only [Bool.and_eq_true, decide_eq_true_eq] at hrow
  exact ⟨hrow.1, .inr rfl⟩

theorem StageRow.state_of_fenced (h : old.fenced hash token = true) : old.state = .failed := by
  simp only [fenced, Bool.and_eq_true, decide_eq_true_eq] at h
  exact h.1.2

theorem retires_deferStageCleanupClaim : Retires (fun row => row.state = .failed) db operationId
    (deferStageCleanupClaim operationId hash token error db) := by
  refine retires_updateStage fun row hrow => ?_
  have hstate := StageRow.state_of_fenced hrow
  exact ⟨hstate, .inl ⟨hstate, by simp [hstate]⟩⟩

theorem retires_deleteStageCleanupClaim : Retires (fun row => row.state = .failed) db operationId
    (deleteStageCleanupClaim operationId hash token db) := by
  by_cases h : ∃ old ∈ db.stages, old.operationId = operationId ∧ old.fenced hash token = true
  · obtain ⟨old, hold, hid, hfenced⟩ := h
    refine .inr ⟨old, hold, hid, StageRow.state_of_fenced hfenced, none, ⟨?_, rfl⟩, ?_⟩
    · refine Table.puts_keep fun row hrow => ?_
      constructor
      · intro hcond
        simp only [Bool.not_eq_false', Bool.and_eq_true, decide_eq_true_eq] at hcond
        exact hcond.1
      · intro hrowId
        rw [Table.eq_of_key_eq hrow hold (hrowId.trans hid.symm)]
        simp [hid, hfenced]
    · rintro row ⟨⟩
  · refine .inl ?_
    rw [deleteStageCleanupClaim, Table.keep_eq_self fun row hrow => ?_]
    simp only [Bool.not_eq_true', ← Bool.not_eq_true, Bool.and_eq_true, decide_eq_true_eq]
    exact fun hcond => h ⟨row, hrow, hcond⟩

theorem retires_finishStageCleanupWithoutPurge : Retires (fun row => row.state = .failed) db
    operationId (finishStageCleanupWithoutPurge operationId hash token db).2 := by
  unfold finishStageCleanupWithoutPurge
  split
  · split
    · exact retires_deleteStageCleanupClaim
    · exact retires_deferStageCleanupClaim
  · exact .inl rfl

theorem retires_claimStageCleanup {exactReady : Option StagedBlob}
    {claim : Option StageCleanupClaim}
    (h : claimStageCleanup operationId hash exactReady token db = (claim, db')) :
    Retires (StageRow.Idle db.clock) db operationId db' := by
  obtain rfl : (claimStageCleanup operationId hash exactReady token db).2 = db' := by rw [h]
  unfold claimStageCleanup
  split
  next => exact .inl rfl
  next row hrow =>
    obtain ⟨hmem, hid⟩ := Table.get?_eq_some.mp (Option.filter_eq_some_iff.mp hrow).1
    split
    next => exact .inl rfl
    next hexact =>
      split
      next hpublished =>
        split
        next =>
          refine .inr ⟨row, hmem, hid, StageRow.idle_of_state (by simp [hpublished]), none,
            ⟨Table.puts_keep fun other _ => by simp, rfl⟩, ?_⟩
          rintro row ⟨⟩
        next => exact .inl rfl
      next hunpublished =>
        split
        next hcond =>
          have hidle : row.Idle db.clock := by
            cases hready : exactReady with
            | none =>
              rw [hready] at hcond
              exact StageRow.idle_of_expired (by simpa using hcond)
            | some staged =>
              rw [hready] at hexact
              refine StageRow.idle_of_state fun hstoring => hexact ?_
              simp [StageRow.isReadyStage, hstoring]
          refine .inr ⟨row, hmem, hid, hidle, _, restaged_updateStage hmem hid rfl rfl, ?_⟩
          rintro other ⟨⟩
          exact ⟨hid, .inl ⟨rfl, hunpublished⟩⟩
        next => exact .inl rfl

/-- What the transaction after the bytes were stored leaves. -/
theorem readyStage_eq_ok (h : readyStage staged db = .ok db') :
    db.deletionActive staged.blob.hash = false ∧ ∃ old ∈ db.stages,
      old.operationId = staged.operationId ∧ old.contentHash = staged.blob.hash ∧
      old.state = .storing ∧ Restaged (registerFile staged.blob db) staged.operationId
        (some { old with state := .ready, leaseExpiresAtUtc := db.clock + stageLeaseUs }) db' := by
  unfold readyStage at h
  split at h
  · cases h
  next hinactive =>
    split at h
    next hawaits =>
      obtain ⟨old, hget, hcond⟩ := (Option.any_eq_true _ _).mp hawaits
      obtain ⟨hold, hid⟩ := Table.get?_eq_some.mp hget
      have hstate : old.state = .storing ∧ old.contentHash = staged.blob.hash := by
        simpa [StageRow.awaits] using hcond
      cases h
      exact ⟨Bool.eq_false_iff.mpr hinactive, old, hold, hid, hstate.2, hstate.1,
        restaged_updateStage hold hid hcond rfl⟩
    next => cases h

/-- A publication acquires a reference for a ready stage; a replay changes nothing. -/
theorem publishStagedBlobForOwner_eq_ok {matched : Bool} {id : ℤ}
    (h : publishStagedBlobForOwner staged publicationScope matched db = .ok (id, db')) :
    ∃ old ∈ db.stages, old.operationId = staged.operationId ∧
      old.contentHash = staged.blob.hash ∧
      ((old.state = .published ∧ db' = db) ∨ (old.state = .ready ∧ old.live db.clock = true ∧
        db' = publishRow staged.operationId publicationScope (acquireLocked staged.blob db))) := by
  unfold publishStagedBlobForOwner at h
  obtain ⟨_, -, h⟩ := bind_eq_ok_iff.mp h
  split at h
  · cases h
  next old hget =>
    obtain ⟨hold, hid⟩ := Table.get?_eq_some.mp hget
    obtain ⟨_, hexact, h⟩ := bind_eq_ok_iff.mp h
    refine ⟨old, hold, hid, (StageRow.isFor_of_exactStage hexact hid).1.contentHash, ?_⟩
    split at h
    next hpublished =>
      refine .inl ⟨hpublished, ?_⟩
      split at h
      · cases h
      · split at h
        · cases h
        · split at h
          · exact (Prod.mk.inj (Except.ok.inj h)).2.symm
          · cases h
    next =>
      split at h
      · cases h
      next hready =>
        simp only [not_or, not_not, not_le] at hready
        refine .inr ⟨hready.1, decide_eq_true hready.2, ?_⟩
        exact (Prod.mk.inj (Except.ok.inj h)).2.symm

/-- A stage is consumed only when its content is referenced. -/
theorem consumeStagedBlobWithExistingReferenceAs_eq_ok {id : ℤ}
    (h : consumeStagedBlobWithExistingReferenceAs staged publicationScope db = .ok (id, db')) :
    db' = db ∨ db' = publishRow staged.operationId publicationScope db := by
  unfold consumeStagedBlobWithExistingReferenceAs at h
  obtain ⟨_, -, h⟩ := bind_eq_ok_iff.mp h
  split at h
  · cases h
  next old hget =>
    obtain ⟨_, -, h⟩ := bind_eq_ok_iff.mp h
    split at h
    · cases h
    · split at h
      · cases h
      · split at h
        · cases h
        · split at h
          · exact .inr (Prod.mk.inj (Except.ok.inj h)).2.symm
          · exact .inl (Prod.mk.inj (Except.ok.inj h)).2.symm

/-- A claim of a deletion finds the hash free. -/
theorem claimBlobDeletion_eq_some {id operationId : Uuid}
    (h : claimBlobDeletion hash operationId db = .ok (some id, db')) :
    id = operationId ∧ db.hashIsReferenced hash = false ∧ db.deletionActive hash = false ∧
      db.deletions.rows.countP (DeletionRow.active db.clock) < deploymentDeleteJobs ∧
      ∃ deletions, db.deletions.Puts hash
          (some ⟨hash, id, .deleting, db.clock + deletionLeaseUs, none⟩) deletions ∧
        db' = { db with deletions } := by
  unfold claimBlobDeletion at h
  split at h
  · cases h
  next hfree =>
    split at h
    · cases h
    next hinactive =>
      split at h
      · cases h
      next hcapacity =>
        obtain ⟨hid, rfl⟩ := Prod.mk.inj (Except.ok.inj h)
        obtain rfl := Option.some.inj hid
        refine ⟨rfl, Bool.eq_false_iff.mpr hfree, Bool.eq_false_iff.mpr hinactive,
          not_le.mp hcapacity, _, ?_, rfl⟩
        refine Table.puts_upsert rfl (fun _ => rfl) fun old _ hkey => ?_
        rw [hkey]

theorem claimBlobDeletion_eq_none {operationId : Uuid}
    (h : claimBlobDeletion hash operationId db = .ok (none, db')) :
    db' = db ∨ (db.hashIsReferenced hash = true ∧ db' = { db with
      deletions := db.deletions.keep fun row => decide (row.contentHash ≠ hash) }) := by
  unfold claimBlobDeletion at h
  split at h
  next hreferenced => exact .inr ⟨hreferenced, (Prod.mk.inj (Except.ok.inj h)).2.symm⟩
  next =>
    split at h
    · exact .inl (Prod.mk.inj (Except.ok.inj h)).2.symm
    · split at h
      · cases h
      · cases h

end Statements

section Numbering

variable {db db' : Database} {operationId : Uuid} {w w' : World} {lapse : Lapse}

/-- Two files differ in their ids, which were all given out. -/
structure Numbered (db : Database) : Prop where
  ids : ∀ file ∈ db.files, ∀ other ∈ db.files, file.id = other.id → file = other
  next : ∀ file ∈ db.files, file.id < db.nextFileId

theorem Numbered.of_eq (h : Numbered db) (hfiles : db'.files = db.files)
    (hnext : db'.nextFileId = db.nextFileId) : Numbered db' := by
  constructor
  · rw [hfiles]
    exact h.ids
  · rw [hfiles, hnext]
    exact h.next

/-- A row is inserted with the next id, or the row of the hash keeps its id. -/
theorem Numbered.upsert (h : Numbered db) {row : FileRow} {f : FileRow → FileRow}
    (hf : ∀ file, (f file).hash = file.hash) (hid : row.id = db.nextFileId)
    (hfid : ∀ file, (f file).id = file.id) :
    Numbered { db with files := db.files.upsert row f hf, nextFileId := db.nextFileId + 1 } := by
  have hsource : ∀ file ∈ db.files.upsert row f hf,
      (∃ old ∈ db.files, old.id = file.id ∧ old.hash = file.hash) ∨
        (file = row ∧ ∀ old ∈ db.files, old.hash ≠ row.hash) := by
    intro file hfile
    rcases Table.mem_upsert.mp hfile with ⟨old, hold, -, rfl⟩ | ⟨hold, -⟩ | hnew
    · exact .inl ⟨old, hold, (hfid old).symm, (hf old).symm⟩
    · exact .inl ⟨file, hold, rfl, rfl⟩
    · exact .inr hnew
  constructor
  · intro file hfile other hother heq
    refine Table.eq_of_key_eq hfile hother ?_
    rcases hsource file hfile with ⟨old, hold, holdId, hhash⟩ | ⟨rfl, -⟩ <;>
      rcases hsource other hother with ⟨old', hold', holdId', hhash'⟩ | ⟨rfl, -⟩
    · rw [← hhash, ← hhash', h.ids old hold old' hold' (by rw [holdId, holdId', heq])]
    · have := h.next old hold
      omega
    · have := h.next old' hold'
      omega
    · rfl
  · intro file hfile
    change file.id < db.nextFileId + 1
    rcases hsource file hfile with ⟨old, hold, holdId, -⟩ | ⟨rfl, -⟩
    · have := h.next old hold
      omega
    · omega

theorem Numbered.registerFile (h : Numbered db) (blob : StoredBlob) :
    Numbered (registerFile blob db) :=
  h.upsert _ rfl fun _ => rfl

theorem Numbered.acquireLocked (h : Numbered db) (blob : StoredBlob) :
    Numbered (acquireLocked blob db) :=
  h.upsert _ rfl fun _ => rfl

theorem mem_setReferenceCount {id count : ℤ} {file : FileRow} :
    file ∈ (db.setReferenceCount id count).files ↔
      (∃ old ∈ db.files, old.id = id ∧ { old with referenceCount := count } = file) ∨
        (file ∈ db.files ∧ file.id ≠ id) := by
  simp only [Database.setReferenceCount, Table.mem_update, decide_eq_true_eq,
    decide_eq_false_iff_not, ne_eq]

theorem Numbered.setReferenceCount (h : Numbered db) (id count : ℤ) :
    Numbered (db.setReferenceCount id count) := by
  have hsource : ∀ file ∈ (db.setReferenceCount id count).files,
      ∃ old ∈ db.files, old.id = file.id ∧ old.hash = file.hash := by
    intro file hfile
    rcases mem_setReferenceCount.mp hfile with ⟨old, hold, -, rfl⟩ | ⟨hold, -⟩
    · exact ⟨old, hold, rfl, rfl⟩
    · exact ⟨file, hold, rfl, rfl⟩
  constructor
  · intro file hfile other hother heq
    obtain ⟨old, hold, hid, hhash⟩ := hsource file hfile
    obtain ⟨old', hold', hid', hhash'⟩ := hsource other hother
    refine Table.eq_of_key_eq hfile hother ?_
    rw [← hhash, ← hhash', h.ids old hold old' hold' (by rw [hid, hid', heq])]
  · intro file hfile
    obtain ⟨old, hold, hid, -⟩ := hsource file hfile
    exact hid ▸ h.next old hold

theorem releaseLocked_cases (id : ℤ) (db : Database) : (releaseLocked id db).2 = db ∨
    ∃ count, (releaseLocked id db).2 = db.setReferenceCount id count := by
  unfold releaseLocked
  split
  · exact .inl rfl
  · refine .inr ?_
    split
    · exact ⟨_, rfl⟩
    · split
      · exact ⟨_, rfl⟩
      · exact ⟨_, rfl⟩

theorem releaseLocked_frame (id : ℤ) (db : Database) :
    (releaseLocked id db).2.clock = db.clock ∧ (releaseLocked id db).2.stages = db.stages ∧
      (releaseLocked id db).2.deletions = db.deletions := by
  rcases releaseLocked_cases id db with heq | ⟨count, heq⟩ <;> rw [heq]
  · exact ⟨rfl, rfl, rfl⟩
  · exact ⟨rfl, rfl, rfl⟩

theorem finishBlobDeletion_frame (hash : String) (id : Uuid) (db : Database) :
    (finishBlobDeletion hash id db).2.clock = db.clock ∧
      (finishBlobDeletion hash id db).2.stages = db.stages ∧
      ((finishBlobDeletion hash id db).2.deletions = db.deletions ∨
        (finishBlobDeletion hash id db).2.deletions = (db.dropDeletion hash id).deletions) := by
  unfold finishBlobDeletion
  split
  · split
    · exact ⟨rfl, rfl, .inr rfl⟩
    · exact ⟨rfl, rfl, .inr rfl⟩
  · exact ⟨rfl, rfl, .inl rfl⟩

theorem Restaged.numbered {new : Option StageRow} (hre : Restaged db operationId new db')
    (h : Numbered db) : Numbered db' := by
  rw [hre.frame]
  exact h.of_eq rfl rfl

theorem Retires.numbered {q : StageRow → Prop} (hret : Retires q db operationId db')
    (h : Numbered db) : Numbered db' := by
  rcases hret with rfl | ⟨_, _, _, _, _, hre, _⟩
  · exact h
  · exact hre.numbered h

theorem Step.numbered (hstep : Step lapse w w') (h : Numbered w.db) : Numbered w'.db := by
  cases hstep with
  | tick => exact h.of_eq rfl rfl
  | claim _ hclaim =>
    rcases claimStage_eq_ok hclaim with ⟨-, hopened⟩ | ⟨_, hclaim', -⟩
    · obtain ⟨_, _, _, _, hre⟩ := hopened.restaged
      exact hre.numbered h
    · cases hclaim'
  | recover hclaim =>
    rcases claimStage_eq_ok hclaim with ⟨hclaim', -⟩ | ⟨_, -, hrecovered⟩
    · cases hclaim'
    · obtain ⟨_, _, _, _, _, ⟨_, rfl⟩ | ⟨_, _, _, hre⟩⟩ := hrecovered.renewed
      · exact h
      · exact hre.numbered h
  | store => exact h
  | ready _ _ hready =>
    obtain ⟨-, _, -, -, -, -, hre⟩ := readyStage_eq_ok hready
    exact hre.numbered (h.registerFile _)
  | markFailed => exact retires_markFailed.numbered h
  | abandonStore => exact h
  | publish hpublish =>
    obtain ⟨_, -, -, -, ⟨-, rfl⟩ | ⟨-, -, rfl⟩⟩ := publishStagedBlobForOwner_eq_ok hpublish
    · exact h
    · exact retires_publishRow.numbered (h.acquireLocked _)
  | consume hconsume =>
    rcases consumeStagedBlobWithExistingReferenceAs_eq_ok hconsume with rfl | rfl
    · exact h
    · exact retires_publishRow.numbered h
  | attach => exact h.of_eq rfl rfl
  | detach => exact h.of_eq rfl rfl
  | @release _ file hfile =>
    rcases releaseLocked_cases file.id w.db with heq | ⟨count, heq⟩
    · exact h.of_eq (congrArg Database.files heq) (congrArg Database.nextFileId heq)
    · change Numbered (releaseLocked file.id w.db).2
      rw [heq]
      exact h.setReferenceCount file.id count
  | claimCleanup _ _ hclaim => exact (retires_claimStageCleanup hclaim).numbered h
  | deleteCleanup => exact retires_deleteStageCleanupClaim.numbered h
  | deferCleanup => exact retires_deferStageCleanupClaim.numbered h
  | finishCleanup => exact retires_finishStageCleanupWithoutPurge.numbered h
  | claimDeletion _ hclaim =>
    obtain ⟨-, -, -, -, _, -, rfl⟩ := claimBlobDeletion_eq_some hclaim
    exact h.of_eq rfl rfl
  | skipDeletion hclaim =>
    rcases claimBlobDeletion_eq_none hclaim with rfl | ⟨-, rfl⟩
    · exact h
    · exact h.of_eq rfl rfl
  | delete => exact h
  | @finishDeletion _ call _ _ =>
    change Numbered (finishBlobDeletion call.hash call.operationId w.db).2
    unfold finishBlobDeletion
    split
    · split
      · exact h.of_eq rfl rfl
      · exact ⟨fun file hfile other hother => h.ids file (Table.mem_keep.mp hfile).1 other
          (Table.mem_keep.mp hother).1, fun file hfile => h.next file (Table.mem_keep.mp hfile).1⟩
    · exact h
  | failDeletion => exact h.of_eq rfl rfl
  | abandonDeletion => exact h

end Numbering

end Blobs

end Rsctf
