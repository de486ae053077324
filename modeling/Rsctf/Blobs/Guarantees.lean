import Rsctf.Blobs.Capacity
import Rsctf.Blobs.References

/-!
# What blob storage guarantees over its runs

What is referenced has its bytes as long as the workers keep to their leases and no ready stage is
revived after its bytes were reclaimed; such a revival is published without bytes.  References are
acquired once, and the work in progress is bounded, whatever the workers do.
-/

namespace Rsctf

namespace Blobs

variable {w : World} {allowed : Lapse → Prop}

theorem Reachable.accounted (h : Reachable allowed w) : Accounted w := by
  obtain ⟨start, hstart, hrun⟩ := h
  induction hrun with
  | refl => exact hstart.accounted
  | @tail last next hrun hstep ih =>
    obtain ⟨_, -, hstep⟩ := hstep
    exact ih.step (Reachable.numbered ⟨start, hstart, hrun⟩) hstep

theorem Initial.activeStores_eq (h : Initial w) : w.db.activeStores = 0 := by
  rw [Database.activeStores, h.stages]
  rfl

theorem Initial.activeDeletions_eq (h : Initial w) : w.db.activeDeletions = 0 := by
  rw [Database.activeDeletions, h.deletions]
  rfl

theorem Reachable.sized (h : Reachable allowed w) : Sized w.db := by
  obtain ⟨start, hstart, hrun⟩ := h
  induction hrun with
  | refl =>
    rw [Sized, hstart.stages]
    rintro row ⟨⟩
  | tail _ hstep ih =>
    obtain ⟨_, -, hstep⟩ := hstep
    exact hstep.stageEffect.sized ih

/-- What is referenced has its bytes, and nothing which is referenced is being deleted. -/
theorem referenced_resident (h : Reachable allowed w) (hlate : ¬allowed .lateWorker)
    (hblind : ¬allowed .blindRevival) :
    (∀ hash, w.db.Owned hash → hash ∈ w.objects) ∧
      (∀ row ∈ w.db.stages, row.state = .ready → row.live w.db.clock = true →
        row.contentHash ∈ w.objects) ∧
      ∀ row ∈ w.db.deletions, row.active w.db.clock = true →
        w.db.hashIsReferenced row.contentHash = false := by
  have hresident := h.resident_world hlate hblind
  refine ⟨hresident.owned, hresident.ready, fun row hrow hactive => ?_⟩
  exact Bool.eq_false_iff.mpr fun hreferenced =>
    hresident.unclaimed row hrow hactive (hashIsReferenced_iff.mp hreferenced)

/-- An operation acquires one reference at most for every stage which was opened for it, and the
count of a file covers the references which were not given back. -/
theorem references_accounted (h : Reachable allowed w) :
    (∀ operationId, w.acquired.countP (·.1 = operationId) ≤ w.inserted.count operationId) ∧
      ∀ hash, 0 ≤ w.db.referenceCount hash ∧ (w.acquired.countP (·.2 = hash) : ℤ) ≤
        w.db.referenceCount hash + w.released.count hash :=
  ⟨h.accounted.once, fun hash => ⟨h.accounted.nonneg hash, h.accounted.kept hash⟩⟩

/-- The stores and deletions under their leases are bounded; so are the bytes in service, when
every step is in time. -/
theorem capacity_bounded (h : Reachable allowed w) :
    w.db.activeStores ≤ deploymentStoreJobs ∧ w.db.activeDeletions ≤ deploymentDeleteJobs ∧
      ((∀ lapse, allowed lapse → lapse = .timely) →
        w.db.activeBytes ≤ deploymentStoreBytes) := by
  obtain ⟨start, hstart, hrun⟩ := h
  induction hrun with
  | refl =>
    refine ⟨hstart.activeStores_eq ▸ Nat.zero_le _, hstart.activeDeletions_eq ▸ Nat.zero_le _,
      fun _ => ?_⟩
    rw [Database.activeBytes, hstart.stages]
    exact (show (0 : ℤ) ≤ 1024 * 1024 * 1024 by decide)
  | @tail last next hrun hstep ih =>
    obtain ⟨lapse, hallowed, hstep⟩ := hstep
    have hlast : Reachable allowed last := ⟨start, hstart, hrun⟩
    refine ⟨?_, ?_, fun htimely => ?_⟩
    · exact hstep.stageEffect.activeStores_le.elim (fun hle => hle.trans ih.1) id
    · exact hstep.activeDeletions_le.elim (fun hle => hle.trans ih.2.1) id
    · have hresident : Resident last := by
        refine hlast.resident_world (fun hlate => ?_) fun hblind => ?_
        · cases htimely _ hlate
        · cases htimely _ hblind
      exact (hstep.stageEffect.activeBytes_le hlast.sized hresident (htimely lapse hallowed)).elim
        (fun hle => hle.trans (ih.2.2 htimely)) id

section Run

/-- The bytes of an upload. -/
def uploadHash : String := "aaaaaaaaaaaaaaaaaaaaaaaaaaaaaaaaaaaaaaaaaaaaaaaaaaaaaaaaaaaaaaaa"

def upload : StagedBlob := ⟨1, "asset-upload:1", some 7, ⟨uploadHash, 3, "a.png"⟩⟩

def emptyDatabase : Database := ⟨0, Table.empty, Table.empty, 1, Table.empty, []⟩

def emptyWorld : World := ⟨emptyDatabase, [], [], Table.empty, [], [], [], [], []⟩

theorem initial_emptyWorld : Initial emptyWorld where
  stages := rfl
  deletions := rfl
  storing := rfl
  deleting := rfl
  fileIds := by rintro file ⟨⟩
  nextFileId := by rintro file ⟨⟩
  counts := by rintro file ⟨⟩
  resident := by
    intro hash h
    cases h
  unrecorded := ⟨rfl, rfl, rfl⟩

def claimedWorld : World :=
  { emptyWorld with
    db := { emptyDatabase with stages := ⟨[upload.opened 0], List.nodup_singleton _⟩ }
    storing := [⟨upload, stageLeaseUs, false⟩]
    inserted := [1] }

def storedWorld : World :=
  { claimedWorld with objects := [uploadHash], storing := [⟨upload, stageLeaseUs, true⟩] }

def readyWorld : World :=
  { storedWorld with
    db := { emptyDatabase with
      stages := ⟨[{ upload.opened 0 with state := .ready }], List.nodup_singleton _⟩
      files := ⟨[⟨1, uploadHash, "a.png", 3, 0⟩], List.nodup_singleton _⟩
      nextFileId := 2 }
    storing := [] }

/-- The upload was stored in time. -/
theorem reachable_readyWorld : Reachable (· = .timely) readyWorld := by
  have hclaim : Step .timely emptyWorld claimedWorld :=
    .claim (show 0 < upload.blob.size by decide) rfl
  have hclaimed : ⟨upload, stageLeaseUs, false⟩ ∈ claimedWorld.storing := List.mem_singleton.mpr rfl
  have hstore : Step .timely claimedWorld storedWorld := .store hclaimed
  have hstored : ⟨upload, stageLeaseUs, true⟩ ∈ storedWorld.storing := List.mem_singleton.mpr rfl
  have hstage : readyStage upload storedWorld.db = .ok readyWorld.db := rfl
  have hready : Step (lapseOf 0 stageLeaseUs) storedWorld readyWorld := .ready hstored rfl hstage
  have hempty : Reachable (· = .timely) emptyWorld := ⟨_, initial_emptyWorld, .refl⟩
  exact ((hempty.step_of rfl hclaim).step_of rfl hstore).step_of rfl hready

def acquiredWorld : World :=
  { readyWorld with
    db := { readyWorld.db with
      stages := ⟨[{ upload.opened 0 with
        state := .published
        publishedOwnerScope := some "account-avatar"
        leaseExpiresAtUtc := receiptLeaseUs }], List.nodup_singleton _⟩
      files := ⟨[⟨1, uploadHash, "a.png", 3, 1⟩], List.nodup_singleton _⟩
      nextFileId := 3 }
    acquired := [(1, uploadHash)] }

/-- The upload belongs to an owner. -/
def publishedWorld : World :=
  { acquiredWorld with db := { acquiredWorld.db with owners := [uploadHash] } }

theorem reachable_publishedWorld : Reachable (· = .timely) publishedWorld := by
  have hpublish : Step .timely readyWorld acquiredWorld :=
    .publish (show publishStagedBlobForOwner upload "account-avatar" true readyWorld.db =
      .ok (1, acquiredWorld.db) from rfl)
  have hfile : ⟨1, uploadHash, "a.png", 3, 1⟩ ∈ acquiredWorld.db.files := List.mem_singleton.mpr rfl
  have hattach : Step .timely acquiredWorld publishedWorld := .attach hfile one_pos
  exact (reachable_readyWorld.step_of rfl hpublish).step_of rfl hattach

theorem referenced_resident_upload :
    (∀ hash, publishedWorld.db.Owned hash → hash ∈ publishedWorld.objects) ∧
      (∀ row ∈ publishedWorld.db.stages, row.state = .ready →
        row.live publishedWorld.db.clock = true → row.contentHash ∈ publishedWorld.objects) ∧
      ∀ row ∈ publishedWorld.db.deletions, row.active publishedWorld.db.clock = true →
        publishedWorld.db.hashIsReferenced row.contentHash = false :=
  referenced_resident reachable_publishedWorld Lapse.noConfusion Lapse.noConfusion

theorem references_accounted_upload :
    (∀ operationId, publishedWorld.acquired.countP (·.1 = operationId) ≤
      publishedWorld.inserted.count operationId) ∧
      ∀ hash, 0 ≤ publishedWorld.db.referenceCount hash ∧
        (publishedWorld.acquired.countP (·.2 = hash) : ℤ) ≤
          publishedWorld.db.referenceCount hash + publishedWorld.released.count hash :=
  references_accounted reachable_publishedWorld

theorem capacity_bounded_upload :
    publishedWorld.db.activeStores ≤ deploymentStoreJobs ∧
      publishedWorld.db.activeDeletions ≤ deploymentDeleteJobs ∧
      ((∀ lapse : Lapse, lapse = .timely → lapse = .timely) →
        publishedWorld.db.activeBytes ≤ deploymentStoreBytes) :=
  capacity_bounded reachable_publishedWorld

end Run

end Blobs

end Rsctf
