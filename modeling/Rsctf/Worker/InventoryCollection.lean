import Mathlib.Algebra.BigOperators.Group.List.Basic
import Rsctf.Worker.Workload

/-!
# The collection of an inventory

The server asks a worker for its inventory, and the worker answers page by page.  The pages
of one snapshot are collected in order, and the bytes which all collections take are counted
together.  A page which does not fit discards what has been collected; the last page hands
the items over, and the collection then waits until they have been applied.
-/

namespace Rsctf

namespace Worker

/-- The errors with which the registry of the sessions refuses a call. -/
inductive RegistryError
  | offline
  | staleSession
  | registryFull
  | busy
  | protocol (message : String)
deriving DecidableEq, Repr

theorem pages_lt_of_default : 64 < 2 ^ 32 := by decide

/-- The limits of a registry.  Every configuration of the repository allows fewer pages than
a page number can count. -/
structure RegistryConfig where
  maxWorkers : ℕ := 4096
  maxInFlightCommandsPerWorker : ℕ := 64
  heartbeatLease : ℕ := 30000
  maxInventoryItems : ℕ := 4096
  maxInventoryPages : ℕ := 64
  maxInventoryBytes : ℕ := 16 * 1024 * 1024
  maxTotalInventoryBytes : ℕ := 64 * 1024 * 1024
  maxInventoryReplicas : ℕ := 65536
  pages_lt : maxInventoryPages < 2 ^ 32

def RegistryConfig.default : RegistryConfig where
  pages_lt := pages_lt_of_default

/-- The bytes of all collections.  A dropped reservation is subtracted when its destructor
runs. -/
structure InventoryBytes where
  total : ℕ
  dropped : List ℕ
deriving DecidableEq

namespace InventoryBytes

/-- The counter grows in one step, or not at all. -/
def tryGrow (bytes : InventoryBytes) (limit additional : ℕ) : Option InventoryBytes :=
  if limit < bytes.total + additional then none
  else some { bytes with total := bytes.total + additional }

def drop (bytes : InventoryBytes) (used : ℕ) : InventoryBytes :=
  { bytes with dropped := used :: bytes.dropped }

end InventoryBytes

structure InventoryPage (Item : Type*) where
  snapshotId : Uuid
  page : ℕ
  finalPage : Bool
  items : List Item
deriving DecidableEq

structure InventoryProgress (Item : Type*) where
  snapshotId : Uuid
  nextPage : ℕ
  items : List Item
  /-- The bytes of its reservation. -/
  used : ℕ
  replicas : ℕ
  startedAt : ℕ
  applying : Bool
deriving DecidableEq

namespace InventoryProgress

variable {Item : Type*}

/-- A requested snapshot of which no page has arrived. -/
def fresh (Item : Type*) (snapshotId : Uuid) (now : ℕ) : InventoryProgress Item :=
  ⟨snapshotId, 0, [], 0, 0, now, false⟩

/-- The bytes which a collection has reserved, if there is one. -/
def reserved (progress : Option (InventoryProgress Item)) : ℕ :=
  (progress.map (·.used)).getD 0

@[simp] theorem reserved_none : reserved (none : Option (InventoryProgress Item)) = 0 := rfl

@[simp] theorem reserved_some (current : InventoryProgress Item) :
    reserved (some current) = current.used := rfl

end InventoryProgress

/-- The reservation of a collection is dropped with it. -/
def InventoryBytes.dropOf {Item : Type*} (bytes : InventoryBytes) :
    Option (InventoryProgress Item) → InventoryBytes
  | none => bytes
  | some current => bytes.drop current.used

@[simp] theorem InventoryBytes.total_dropOf {Item : Type*} (bytes : InventoryBytes)
    (progress : Option (InventoryProgress Item)) : (bytes.dropOf progress).total = bytes.total := by
  cases progress <;> rfl

@[simp] theorem InventoryBytes.dropped_dropOf {Item : Type*} (bytes : InventoryBytes)
    (progress : Option (InventoryProgress Item)) : (bytes.dropOf progress).dropped.sum =
      InventoryProgress.reserved progress + bytes.dropped.sum := by
  cases progress with
  | none => exact (Nat.zero_add _).symm
  | some current => exact List.sum_cons

/-- What the registry reads of an item: its replicas, and the length of an encoded list. -/
structure ItemMeasure (Item : Type*) where
  replicas : Item → ℕ
  encodedLength : List Item → ℕ

namespace ItemMeasure

variable {Item : Type*} (measure : ItemMeasure Item)

def pageReplicas (page : InventoryPage Item) : ℕ := (page.items.map measure.replicas).sum

def pageBytes (page : InventoryPage Item) : ℕ := measure.encodedLength page.items

end ItemMeasure

/-- What is done under the lock of a collection. -/
structure LockSection (Item : Type*) (α : Type*) where
  result : Except RegistryError α
  bytes : InventoryBytes
  progress : Option (InventoryProgress Item)

/-- The collection is dropped, and the call refused. -/
def discard {Item α : Type*} (bytes : InventoryBytes) (progress : Option (InventoryProgress Item))
    (error : RegistryError) : LockSection Item α :=
  ⟨.error error, bytes.dropOf progress, none⟩

section Sections

variable {Item : Type*} (config : RegistryConfig) (measure : ItemMeasure Item)

/-- The page does not fit into the limits of a snapshot. -/
def exceedsLimits (current : InventoryProgress Item) (page : InventoryPage Item) : Prop :=
  config.maxInventoryPages ≤ page.page ∨
    config.maxInventoryItems < current.items.length + page.items.length ∨
    config.maxInventoryBytes < current.used + measure.pageBytes page ∨
    config.maxInventoryReplicas < current.replicas + measure.pageReplicas page

instance (current : InventoryProgress Item) (page : InventoryPage Item) :
    Decidable (exceedsLimits config measure current page) :=
  inferInstanceAs (Decidable (_ ∨ _ ∨ _ ∨ _))

def InventoryProgress.extend (current : InventoryProgress Item) (page : InventoryPage Item) :
    InventoryProgress Item :=
  { current with
    used := current.used + measure.pageBytes page
    replicas := current.replicas + measure.pageReplicas page
    items := current.items ++ page.items }

def collectInventory (page : InventoryPage Item) (bytes : InventoryBytes) :
    Option (InventoryProgress Item) → LockSection Item (Option (Uuid × List Item))
  | none => discard bytes none (.protocol "inventory snapshot was not requested")
  | some current =>
    if current.applying ∨ current.snapshotId ≠ page.snapshotId ∨ current.nextPage ≠ page.page then
      discard bytes (some current) (.protocol "inventory pages are out of order")
    else if page.items.isEmpty ∧ !page.finalPage then
      discard bytes (some current) (.protocol "non-final inventory pages cannot be empty")
    else if exceedsLimits config measure current page then
      discard bytes (some current) (.protocol "inventory snapshot exceeds limits")
    else
      match bytes.tryGrow config.maxTotalInventoryBytes (measure.pageBytes page) with
      | none => discard bytes (some current) .busy
      | some bytes =>
        let grown := current.extend measure page
        if 2 ^ 32 ≤ grown.nextPage + 1 then
          ⟨.error (.protocol "inventory page counter overflow"), bytes, some grown⟩
        else
          let next := { grown with nextPage := grown.nextPage + 1 }
          if page.finalPage then
            -- the items are taken out of the collection, which waits until they are applied
            ⟨.ok (some (next.snapshotId, next.items)), bytes,
              some { next with items := [], applying := true }⟩
          else ⟨.ok none, bytes, some next⟩

/-- A request replaces a collection only when it is as old as the timeout. -/
def requestInventory (now timeout : ℕ) (snapshotId : Uuid) (sent : Except RegistryError Unit)
    (bytes : InventoryBytes) (progress : Option (InventoryProgress Item)) :
    LockSection Item Bool :=
  if progress.any fun current => now - current.startedAt < timeout then ⟨.ok false, bytes, progress⟩
  else
    let replaced := bytes.dropOf progress
    let requested := InventoryProgress.fresh Item snapshotId now
    match sent with
    | .error error => discard replaced (some requested) error
    | .ok () => ⟨.ok true, replaced, some requested⟩

def completeInventory (snapshotId : Uuid) (bytes : InventoryBytes)
    (progress : Option (InventoryProgress Item)) : LockSection Item Unit :=
  if progress.any fun current => current.snapshotId = snapshotId && current.applying then
    ⟨.ok (), bytes.dropOf progress, none⟩
  else ⟨.error (.protocol "inventory snapshot state changed"), bytes, progress⟩

end Sections

section Cases

variable {Item : Type*} {config : RegistryConfig} {measure : ItemMeasure Item}
  {page : InventoryPage Item} {bytes : InventoryBytes}
  {progress : Option (InventoryProgress Item)} {current : InventoryProgress Item}

/-- The page continues the snapshot which is being collected. -/
structure Continues (config : RegistryConfig) (measure : ItemMeasure Item)
    (current : InventoryProgress Item) (page : InventoryPage Item) : Prop where
  collecting : current.applying = false
  snapshot : page.snapshotId = current.snapshotId
  next : page.page = current.nextPage
  nonempty : page.finalPage = false → page.items ≠ []
  fits : ¬exceedsLimits config measure current page

/-- The collection after a page which continues it. -/
def InventoryProgress.accept (measure : ItemMeasure Item) (current : InventoryProgress Item)
    (page : InventoryPage Item) : InventoryProgress Item :=
  { current.extend measure page with nextPage := current.nextPage + 1 }

/-- A page which continues the snapshot is accepted; the page counter does not overflow, for
the limit of the pages is below it. -/
theorem collectInventory_of_continues (hpage : Continues config measure current page)
    (htotal : bytes.total + measure.pageBytes page ≤ config.maxTotalInventoryBytes) :
    collectInventory config measure page bytes (some current) =
      if page.finalPage then
        ⟨.ok (some (current.snapshotId, current.items ++ page.items)),
          { bytes with total := bytes.total + measure.pageBytes page },
          some { current.accept measure page with items := [], applying := true }⟩
      else ⟨.ok none, { bytes with total := bytes.total + measure.pageBytes page },
        some (current.accept measure page)⟩ := by
  have horder : ¬(current.applying ∨ current.snapshotId ≠ page.snapshotId ∨
      current.nextPage ≠ page.page) := by
    simp [hpage.collecting, hpage.snapshot, hpage.next]
  have hempty : ¬(page.items.isEmpty ∧ !page.finalPage) := by
    rintro ⟨hitems, hfinal⟩
    exact hpage.nonempty (by simpa using hfinal) (by simpa using hitems)
  have hcounter : ¬2 ^ 32 ≤ (current.extend measure page).nextPage + 1 := by
    have hnumber : page.page < config.maxInventoryPages := by
      by_contra hpages
      exact hpage.fits (.inl (not_lt.mp hpages))
    have hlimit := config.pages_lt
    have hnext : (current.extend measure page).nextPage = page.page := hpage.next.symm
    omega
  have hgrow : bytes.tryGrow config.maxTotalInventoryBytes (measure.pageBytes page) =
      some { bytes with total := bytes.total + measure.pageBytes page } :=
    if_neg (not_lt.mpr htotal)
  simp only [collectInventory, if_neg horder, if_neg hempty, if_neg hpage.fits, hgrow,
    if_neg hcounter]
  rfl

/-- All that a page can lead to. -/
theorem collectInventory_cases (config : RegistryConfig) (measure : ItemMeasure Item)
    (page : InventoryPage Item) (bytes : InventoryBytes)
    (progress : Option (InventoryProgress Item)) :
    (∃ error, collectInventory config measure page bytes progress =
      discard bytes progress error) ∨
    ∃ current, progress = some current ∧ Continues config measure current page ∧
      bytes.total + measure.pageBytes page ≤ config.maxTotalInventoryBytes ∧
      collectInventory config measure page bytes progress =
        if page.finalPage then
          ⟨.ok (some (current.snapshotId, current.items ++ page.items)),
            { bytes with total := bytes.total + measure.pageBytes page },
            some { current.accept measure page with items := [], applying := true }⟩
        else ⟨.ok none, { bytes with total := bytes.total + measure.pageBytes page },
          some (current.accept measure page)⟩ := by
  cases progress with
  | none => exact .inl ⟨_, rfl⟩
  | some current =>
      by_cases horder : current.applying ∨ current.snapshotId ≠ page.snapshotId ∨
          current.nextPage ≠ page.page
      · exact .inl ⟨_, by rw [collectInventory, if_pos horder]⟩
      by_cases hempty : page.items.isEmpty ∧ !page.finalPage
      · exact .inl ⟨_, by rw [collectInventory, if_neg horder, if_pos hempty]⟩
      by_cases hfits : exceedsLimits config measure current page
      · exact .inl ⟨_, by rw [collectInventory, if_neg horder, if_neg hempty, if_pos hfits]⟩
      by_cases htotal : config.maxTotalInventoryBytes < bytes.total + measure.pageBytes page
      · have hgrow : bytes.tryGrow config.maxTotalInventoryBytes (measure.pageBytes page) = none :=
          if_pos htotal
        exact .inl ⟨.busy, by
          simp only [collectInventory, if_neg horder, if_neg hempty, if_neg hfits, hgrow]⟩
      simp only [not_or, not_not, Bool.not_eq_true] at horder
      obtain ⟨hcollecting, hsnapshot, hnext⟩ := horder
      have hpage : Continues config measure current page := by
        refine ⟨hcollecting, hsnapshot.symm, hnext.symm, fun hfinal hitems => ?_, hfits⟩
        exact hempty (by simp [hfinal, hitems])
      exact .inr ⟨current, rfl, hpage, not_lt.mp htotal,
        collectInventory_of_continues hpage (not_lt.mp htotal)⟩

end Cases

end Worker

end Rsctf
