import Rsctf.Data.Path
import Rsctf.Data.Tally
import Rsctf.Worker.InventoryCollection

/-!
# The inventories of all workers

The sessions of a registry collect their inventories side by side and share one counter of
bytes.  A call first looks its session up and then runs under the lock of that session's
collection; a session which is removed or replaced lives on until the last call which found
it has returned, and its collection with it.

In every run, what a collection hands over is what its worker sent since the last request,
page by page, and the counter is the sum of the reservations which have not been given back.
-/

namespace Rsctf

namespace Worker

structure SessionContext where
  workerId : Uuid
  sessionId : Uuid
  sessionEpoch : ℕ
deriving DecidableEq, Repr

/-- The sessions of two contexts have one fence. -/
def SessionContext.sameFence (a b : SessionContext) : Bool :=
  a.sessionId = b.sessionId && a.sessionEpoch = b.sessionEpoch

structure SessionEntry (Item : Type*) where
  context : SessionContext
  lastHeartbeat : ℕ
  inventory : Option (InventoryProgress Item)

inductive InventoryCall (Item : Type*)
  | request (workerId : Uuid) (timeout : ℕ)
  | collect (context : SessionContext) (page : InventoryPage Item)
  | complete (context : SessionContext) (snapshotId : Uuid)

/-- A call which has found its session, and after it has run under the lock. -/
inductive InventoryTask (Item : Type*)
  | waiting (entry : ℕ) (call : InventoryCall Item)
  | finished (entry : ℕ)

def InventoryTask.entry {Item : Type*} : InventoryTask Item → ℕ
  | .waiting entry _ => entry
  | .finished entry => entry

/-- The registry.  A worker is registered with the place of its session among `entries`,
where sessions which have been dropped stay without a collection. -/
structure InventoryRegistry (Item : Type*) where
  now : ℕ
  sessions : List (Uuid × ℕ)
  entries : List (SessionEntry Item)
  bytes : InventoryBytes
  running : ℕ → Option (InventoryTask Item)

/-- What is seen of a run. -/
inductive InventoryEvent (Item : Type*)
  | tick
  | touched (context : SessionContext)
  | registered (context : SessionContext) (result : Except RegistryError Unit)
  | removed
  | refused (call : InventoryCall Item) (error : RegistryError)
  | found (process entry : ℕ)
  | requested (entry : ℕ) (snapshotId : Uuid) (result : Except RegistryError Bool)
  | collected (entry : ℕ) (page : InventoryPage Item)
      (result : Except RegistryError (Option (Uuid × List Item)))
  | completed (entry : ℕ) (snapshotId : Uuid) (result : Except RegistryError Unit)
  | returned (process : ℕ)
  | dropped (entry : ℕ)
  | destroyed

namespace InventoryRegistry

variable {Item : Type*}

def init (Item : Type*) : InventoryRegistry Item := ⟨0, [], [], ⟨0, []⟩, fun _ => none⟩

section Calls

variable (config : RegistryConfig) (s : InventoryRegistry Item)

def session (workerId : Uuid) : Option ℕ := s.sessions.lookup workerId

def progress (entry : ℕ) : Option (InventoryProgress Item) :=
  s.entries[entry]?.bind (·.inventory)

def leaseIsCurrent (entry : SessionEntry Item) : Bool :=
  s.now - entry.lastHeartbeat ≤ config.heartbeatLease

/-- The session of a worker, if it is the one of the context. -/
def current (context : SessionContext) : Except RegistryError ℕ :=
  match s.session context.workerId with
  | none => .error .offline
  | some entry =>
    if s.entries[entry]?.any fun session => session.context.sameFence context then .ok entry
    else .error .staleSession

/-- How a call finds its session. -/
def find : InventoryCall Item → Except RegistryError ℕ
  | .request workerId _ =>
    match s.session workerId with
    | none => .error .offline
    | some entry =>
      if s.entries[entry]?.any (s.leaseIsCurrent config) then .ok entry else .error .offline
  | .collect context _ => s.current context
  | .complete context _ => s.current context

def insert (context : SessionContext) : InventoryRegistry Item :=
  { s with
    sessions := (context.workerId, s.entries.length) ::
      s.sessions.filter fun session => session.1 ≠ context.workerId
    entries := s.entries ++ [⟨context, s.now, none⟩] }

/-- Only a later session replaces the one of a worker. -/
def registerControl (context : SessionContext) :
    Except RegistryError Unit × InventoryRegistry Item :=
  match s.session context.workerId with
  | some entry =>
    if s.entries[entry]?.any fun session =>
        context.sessionEpoch ≤ session.context.sessionEpoch then (.error .staleSession, s)
    else (.ok (), s.insert context)
  | none =>
    if config.maxWorkers ≤ s.sessions.length then (.error .registryFull, s)
    else (.ok (), s.insert context)

def disconnect (workerId : Uuid) : InventoryRegistry Item :=
  { s with sessions := s.sessions.filter fun session => session.1 ≠ workerId }

def removeControlIf (context : SessionContext) : InventoryRegistry Item :=
  match s.current context with
  | .ok _ => s.disconnect context.workerId
  | .error _ => s

def shutdown : InventoryRegistry Item := { s with sessions := [] }

def touch (entry : ℕ) : InventoryRegistry Item :=
  { s with
    entries := s.entries.modify entry fun session => { session with lastHeartbeat := s.now } }

/-- A section under the lock of a session leaves its collection and the counter. -/
def locked {α : Type*} (process entry : ℕ) (done : LockSection Item α) : InventoryRegistry Item :=
  { s with
    entries := s.entries.modify entry fun session => { session with inventory := done.progress }
    bytes := done.bytes
    running := Function.update s.running process (some (.finished entry)) }

def leave (process : ℕ) : InventoryRegistry Item :=
  { s with running := Function.update s.running process none }

/-- Nobody refers to the session any more. -/
def Unreferenced (entry : ℕ) : Prop :=
  (∀ session ∈ s.sessions, session.2 ≠ entry) ∧
    ∀ process task, s.running process = some task → task.entry ≠ entry

end Calls

/-- The steps of all calls, sessions and destructors, in any order. -/
inductive Step (config : RegistryConfig) (measure : ItemMeasure Item) :
    InventoryRegistry Item → InventoryEvent Item → InventoryRegistry Item → Prop
  | tick {s} (elapsed : ℕ) : Step config measure s .tick { s with now := s.now + elapsed }
  | touch {s context entry} (hcurrent : s.current context = .ok entry) :
      Step config measure s (.touched context) (s.touch entry)
  | register {s} (context : SessionContext) :
      Step config measure s (.registered context (s.registerControl config context).1)
        (s.registerControl config context).2
  | disconnect {s} (workerId : Uuid) : Step config measure s .removed (s.disconnect workerId)
  | removeControlIf {s} (context : SessionContext) :
      Step config measure s .removed (s.removeControlIf context)
  | shutdown {s} : Step config measure s .removed s.shutdown
  | refuse {s call error} (hfind : s.find config call = .error error) :
      Step config measure s (.refused call error) s
  | find {s call process entry} (hfree : s.running process = none)
      (hfind : s.find config call = .ok entry) :
      Step config measure s (.found process entry)
        { s with running := Function.update s.running process (some (.waiting entry call)) }
  | request {s process entry workerId timeout snapshotId done} (sent : Except RegistryError Unit)
      (hrun : s.running process = some (.waiting entry (.request workerId timeout)))
      (hdone : requestInventory s.now timeout snapshotId sent s.bytes (s.progress entry) = done) :
      Step config measure s (.requested entry snapshotId done.result) (s.locked process entry done)
  | collect {s process entry context page done}
      (hrun : s.running process = some (.waiting entry (.collect context page)))
      (hdone : collectInventory config measure page s.bytes (s.progress entry) = done) :
      Step config measure s (.collected entry page done.result) (s.locked process entry done)
  | complete {s process entry context snapshotId done}
      (hrun : s.running process = some (.waiting entry (.complete context snapshotId)))
      (hdone : completeInventory snapshotId s.bytes (s.progress entry) = done) :
      Step config measure s (.completed entry snapshotId done.result) (s.locked process entry done)
  | leave {s process task} (hrun : s.running process = some task) :
      Step config measure s (.returned process) (s.leave process)
  | drop {s entry} (hfree : s.Unreferenced entry) :
      Step config measure s (.dropped entry)
        { s with
          entries := s.entries.modify entry fun session => { session with inventory := none }
          bytes := s.bytes.dropOf (s.progress entry) }
  | destroy {s} (before : List ℕ) (used : ℕ) (after : List ℕ)
      (hdropped : s.bytes.dropped = before ++ used :: after) :
      Step config measure s .destroyed
        { s with bytes := ⟨s.bytes.total - used, before ++ after⟩ }

section Counter

variable {config : RegistryConfig} {measure : ItemMeasure Item} {s t : InventoryRegistry Item}
  {event : InventoryEvent Item} {entry process : ℕ}

/-- The bytes of all reservations which have not been given back. -/
def liveBytes (s : InventoryRegistry Item) : ℕ :=
  (s.entries.map fun session => InventoryProgress.reserved session.inventory).sum +
    s.bytes.dropped.sum

/-- The counter changes by what the collection has reserved or given up. -/
structure Balanced {α : Type*} (config : RegistryConfig) (bytes : InventoryBytes)
    (progress : Option (InventoryProgress Item)) (done : LockSection Item α) : Prop where
  counted : done.bytes.total + (InventoryProgress.reserved progress + bytes.dropped.sum) =
    bytes.total + (InventoryProgress.reserved done.progress + done.bytes.dropped.sum)
  bounded : bytes.total ≤ config.maxTotalInventoryBytes →
    done.bytes.total ≤ config.maxTotalInventoryBytes

theorem balanced_discard {α : Type*} (bytes : InventoryBytes)
    (progress : Option (InventoryProgress Item)) (error : RegistryError) :
    Balanced config bytes progress (discard bytes progress error : LockSection Item α) where
  counted := by simp [discard]
  bounded := by simp [discard]

theorem balanced_collect (page : InventoryPage Item) (bytes : InventoryBytes)
    (progress : Option (InventoryProgress Item)) :
    Balanced config bytes progress (collectInventory config measure page bytes progress) := by
  rcases collectInventory_cases config measure page bytes progress with
    ⟨error, hdone⟩ | ⟨current, rfl, -, htotal, hdone⟩
  · rw [hdone]
    exact balanced_discard bytes progress error
  · rw [hdone]
    constructor
    · split <;> simp [InventoryProgress.accept, InventoryProgress.extend] <;> omega
    · intro _
      split <;> exact htotal

theorem balanced_request (now timeout : ℕ) (snapshotId : Uuid) (sent : Except RegistryError Unit)
    (bytes : InventoryBytes) (progress : Option (InventoryProgress Item)) :
    Balanced config bytes progress
      (requestInventory now timeout snapshotId sent bytes progress) := by
  rw [requestInventory]
  split
  · exact ⟨rfl, id⟩
  · cases sent with
    | error error =>
        constructor <;> simp [discard, InventoryProgress.fresh]
    | ok sent => constructor <;> simp [InventoryProgress.fresh]

theorem balanced_complete (snapshotId : Uuid) (bytes : InventoryBytes)
    (progress : Option (InventoryProgress Item)) :
    Balanced config bytes progress (completeInventory snapshotId bytes progress) := by
  rw [completeInventory]
  split
  · constructor <;> simp
  · exact ⟨rfl, id⟩

/-- What is true of the counter in every state of a run. -/
structure Counted (config : RegistryConfig) (s : InventoryRegistry Item) : Prop where
  inRange : ∀ process task, s.running process = some task → task.entry < s.entries.length
  counted : s.bytes.total = s.liveBytes
  bounded : s.bytes.total ≤ config.maxTotalInventoryBytes

/-- A task of an updated table is the new one or an old one. -/
theorem task_of_update {running : ℕ → Option (InventoryTask Item)}
    {new : Option (InventoryTask Item)} {other : ℕ} {task : InventoryTask Item}
    (h : Function.update running process new other = some task) :
    new = some task ∨ running other = some task := by
  by_cases hother : other = process
  · rw [hother, Function.update_self] at h
    exact .inl h
  · rw [Function.update_of_ne hother] at h
    exact .inr h

theorem progress_eq {session : SessionEntry Item} (h : s.entries[entry]? = some session) :
    s.progress entry = session.inventory := by
  rw [progress, h, Option.bind_some]

namespace Counted

theorem init : Counted config (InventoryRegistry.init Item) where
  inRange := fun _ _ h => nomatch h
  counted := rfl
  bounded := Nat.zero_le _

/-- A change of a collection together with the counter. -/
theorem modify (h : Counted config s) {bytes : InventoryBytes}
    {progress : Option (InventoryProgress Item)} {running : ℕ → Option (InventoryTask Item)}
    (hrange : entry < s.entries.length)
    (hrunning : ∀ process task, running process = some task → task.entry < s.entries.length)
    (hcounted : bytes.total + (InventoryProgress.reserved (s.progress entry) +
      s.bytes.dropped.sum) = s.bytes.total + (InventoryProgress.reserved progress +
      bytes.dropped.sum))
    (hbounded : bytes.total ≤ config.maxTotalInventoryBytes) :
    Counted config { s with
      entries := s.entries.modify entry fun session => { session with inventory := progress }
      bytes := bytes
      running := running } where
  inRange := by
    intro process task htask
    rw [List.length_modify]
    exact hrunning process task htask
  counted := by
    have hentry : s.entries[entry]? = some s.entries[entry] := List.getElem?_eq_getElem hrange
    have hsum := Tally.sum_map_modify (fun session => InventoryProgress.reserved session.inventory)
      (fun session => { session with inventory := progress }) hentry
    have htotal := h.counted
    rw [progress_eq hentry] at hcounted
    simp only [liveBytes] at hsum htotal ⊢
    omega
  bounded := hbounded

theorem locked {α : Type*} (h : Counted config s) {done : LockSection Item α}
    {task : InventoryTask Item} (hrun : s.running process = some task)
    (hentry : task.entry = entry) (hdone : Balanced config s.bytes (s.progress entry) done) :
    Counted config (s.locked process entry done) := by
  have hrange : entry < s.entries.length := hentry ▸ h.inRange process task hrun
  refine h.modify hrange ?_ hdone.counted (hdone.bounded h.bounded)
  intro other task' htask
  rcases task_of_update htask with hnew | hold
  · obtain rfl := Option.some.inj hnew
    exact hrange
  · exact h.inRange other task' hold

theorem insert (h : Counted config s) (context : SessionContext) :
    Counted config (s.insert context) where
  inRange := by
    intro process task htask
    rw [InventoryRegistry.insert, List.length_append]
    exact Nat.lt_add_right _ (h.inRange process task htask)
  counted := by
    have htotal := h.counted
    simp only [liveBytes, InventoryRegistry.insert, List.map_append, List.map_cons, List.map_nil,
      List.sum_append, List.sum_singleton, InventoryProgress.reserved_none] at htotal ⊢
    exact htotal
  bounded := h.bounded

theorem registerControl (h : Counted config s) (context : SessionContext) :
    Counted config (s.registerControl config context).2 := by
  rw [InventoryRegistry.registerControl]
  split <;> split
  · exact h
  · exact h.insert context
  · exact h
  · exact h.insert context

theorem removeControlIf (h : Counted config s) (context : SessionContext) :
    Counted config (s.removeControlIf context) := by
  rw [InventoryRegistry.removeControlIf]
  split
  · exact ⟨h.inRange, h.counted, h.bounded⟩
  · exact h

theorem touch (h : Counted config s) (entry : ℕ) : Counted config (s.touch entry) where
  inRange := by
    intro process task htask
    rw [InventoryRegistry.touch, List.length_modify]
    exact h.inRange process task htask
  counted := by
    refine h.counted.trans ?_
    by_cases hrange : entry < s.entries.length
    · have hsum := Tally.sum_map_modify (fun session => InventoryProgress.reserved session.inventory)
        (fun session : SessionEntry Item => { session with lastHeartbeat := s.now })
        (List.getElem?_eq_getElem hrange)
      exact congrArg (· + s.bytes.dropped.sum) (Nat.add_right_cancel hsum).symm
    · rw [InventoryRegistry.touch, List.modify_eq_self (not_lt.mp hrange)]
  bounded := h.bounded

end Counted

theorem lt_length_of_find {call : InventoryCall Item} (hfind : s.find config call = .ok entry) :
    entry < s.entries.length := by
  have hany : ∀ {p : SessionEntry Item → Bool}, s.entries[entry]?.any p = true →
      entry < s.entries.length := by
    intro p hp
    by_contra hlt
    rw [List.getElem?_eq_none (not_lt.mp hlt)] at hp
    cases hp
  have hcurrent : ∀ {context}, s.current context = .ok entry → entry < s.entries.length := by
    intro context h
    rw [InventoryRegistry.current] at h
    split at h
    · cases h
    · split at h
      · next hp =>
        obtain rfl := Except.ok.inj h
        exact hany hp
      · cases h
  cases call with
  | request workerId timeout =>
      rw [InventoryRegistry.find] at hfind
      split at hfind
      · cases hfind
      · split at hfind
        · next hp =>
          obtain rfl := Except.ok.inj hfind
          exact hany hp
        · cases hfind
  | collect context page => exact hcurrent hfind
  | complete context snapshotId => exact hcurrent hfind

/-- What one step keeps. -/
theorem Step.counted (hstep : Step config measure s event t) (h : Counted config s) :
    Counted config t := by
  cases hstep with
  | tick elapsed => exact ⟨h.inRange, h.counted, h.bounded⟩
  | touch hcurrent => exact h.touch _
  | register context => exact h.registerControl context
  | disconnect workerId => exact ⟨h.inRange, h.counted, h.bounded⟩
  | removeControlIf context => exact h.removeControlIf context
  | shutdown => exact ⟨h.inRange, h.counted, h.bounded⟩
  | refuse hfind => exact h
  | find hfree hfind =>
      refine ⟨fun other task htask => ?_, h.counted, h.bounded⟩
      rcases task_of_update htask with hnew | hold
      · obtain rfl := Option.some.inj hnew
        exact lt_length_of_find hfind
      · exact h.inRange other task hold
  | request sent hrun hdone =>
      subst hdone
      exact h.locked hrun rfl (balanced_request _ _ _ _ _ _)
  | collect hrun hdone =>
      subst hdone
      exact h.locked hrun rfl (balanced_collect _ _ _)
  | complete hrun hdone =>
      subst hdone
      exact h.locked hrun rfl (balanced_complete _ _ _)
  | leave hrun =>
      refine ⟨fun other task htask => ?_, h.counted, h.bounded⟩
      rcases task_of_update htask with hnew | hold
      · cases hnew
      · exact h.inRange other task hold
  | @drop entry hfree =>
      by_cases hrange : entry < s.entries.length
      · exact h.modify hrange h.inRange (by simp) (by simpa using h.bounded)
      · have hnone : s.progress entry = none := by
          rw [progress, List.getElem?_eq_none (not_lt.mp hrange), Option.bind_none]
        rw [hnone, List.modify_eq_self (not_lt.mp hrange)]
        exact h
  | destroy before used after hdropped =>
      have htotal := h.counted
      refine ⟨h.inRange, ?_, (Nat.sub_le _ _).trans h.bounded⟩
      simp only [liveBytes, hdropped, List.sum_append, List.sum_cons] at htotal ⊢
      omega

end Counter

section History

variable {config : RegistryConfig} {measure : ItemMeasure Item} {s t : InventoryRegistry Item}
  {event : InventoryEvent Item} {trace : List (InventoryEvent Item)} {entry process : ℕ}
  {snapshotId : Uuid} {pages : List (InventoryPage Item)} {page : InventoryPage Item}
  {current : InventoryProgress Item}

/-- A page which has reached the collection of a session, with the answer. -/
def pageEvent (entry : ℕ) : InventoryEvent Item →
    Option (InventoryPage Item × Except RegistryError (Option (Uuid × List Item)))
  | .collected other page result => if other = entry then some (page, result) else none
  | _ => none

/-- A new snapshot has been requested of a session. -/
def grants (entry : ℕ) : InventoryEvent Item → Bool
  | .requested other _ (.ok true) => other = entry
  | _ => false

/-- The last request of a session, and the pages which have arrived since: all of them have
been accepted, and none has completed the snapshot. -/
def RequestedPages (trace : List (InventoryEvent Item)) (entry : ℕ) (snapshotId : Uuid)
    (pages : List (InventoryPage Item)) : Prop :=
  ∃ earlier middle, trace = earlier ++ .requested entry snapshotId (.ok true) :: middle ∧
    (∀ event ∈ middle, grants entry event = false) ∧
    middle.filterMap (pageEvent entry) = pages.map fun page => (page, .ok none)

/-- The pages 0, 1, … of one snapshot, within the limits. -/
structure Snapshot (config : RegistryConfig) (measure : ItemMeasure Item) (snapshotId : Uuid)
    (pages : List (InventoryPage Item)) : Prop where
  numbered : pages.map (·.page) = List.range pages.length
  snapshot : ∀ page ∈ pages, page.snapshotId = snapshotId
  pages_le : pages.length ≤ config.maxInventoryPages
  items_le : (pages.flatMap (·.items)).length ≤ config.maxInventoryItems
  bytes_le : (pages.map measure.pageBytes).sum ≤ config.maxInventoryBytes
  replicas_le : (pages.map measure.pageReplicas).sum ≤ config.maxInventoryReplicas

/-- A collection is what its pages add up to. -/
structure Records (measure : ItemMeasure Item) (current : InventoryProgress Item)
    (pages : List (InventoryPage Item)) : Prop where
  nextPage : current.nextPage = pages.length
  items : current.items = pages.flatMap (·.items)
  used : current.used = (pages.map measure.pageBytes).sum
  replicas : current.replicas = (pages.map measure.pageReplicas).sum
  unfinished : ∀ page ∈ pages, page.finalPage = false

theorem Records.nil (snapshotId : Uuid) (now : ℕ) :
    Records measure (InventoryProgress.fresh Item snapshotId now) [] :=
  ⟨rfl, rfl, rfl, rfl, fun _ h => nomatch h⟩

theorem Records.accept (h : Records measure current pages) (hfinal : page.finalPage = false) :
    Records measure (current.accept measure page) (pages ++ [page]) where
  nextPage := by
    rw [List.length_append, ← h.nextPage]
    rfl
  items := by
    rw [List.flatMap_append, ← h.items, List.flatMap_singleton]
    rfl
  used := by
    rw [List.map_append, List.sum_append, ← h.used, List.map_singleton, List.sum_singleton]
    rfl
  replicas := by
    rw [List.map_append, List.sum_append, ← h.replicas, List.map_singleton, List.sum_singleton]
    rfl
  unfinished := by
    intro page' hpage'
    rcases List.mem_append.mp hpage' with hold | hnew
    · exact h.unfinished page' hold
    · rw [List.mem_singleton.mp hnew]
      exact hfinal

theorem Snapshot.nil (snapshotId : Uuid) : Snapshot config measure snapshotId [] := by
  constructor <;> simp

/-- A page which continues the collection continues the snapshot. -/
theorem Snapshot.accept (h : Snapshot config measure current.snapshotId pages)
    (hrecords : Records measure current pages)
    (hpage : Continues config measure current page) :
    Snapshot config measure current.snapshotId (pages ++ [page]) := by
  have hfits := hpage.fits
  simp only [exceedsLimits, not_or, not_le, not_lt] at hfits
  obtain ⟨hpages, hitems, hbytes, hreplicas⟩ := hfits
  rw [hpage.next, hrecords.nextPage] at hpages
  rw [hrecords.items, ← List.length_append] at hitems
  rw [hrecords.used] at hbytes
  rw [hrecords.replicas] at hreplicas
  refine ⟨?_, ?_, ?_, ?_, ?_, ?_⟩
  · rw [List.map_append, List.map_singleton, h.numbered, hpage.next, hrecords.nextPage,
      List.length_append, List.length_singleton, List.range_succ]
  · intro page' hpage'
    rcases List.mem_append.mp hpage' with hold | hnew
    · exact h.snapshot page' hold
    · rw [List.mem_singleton.mp hnew]
      exact hpage.snapshot
  · rwa [List.length_append, List.length_singleton]
  · rwa [List.flatMap_append, List.flatMap_singleton]
  · rwa [List.map_append, List.sum_append, List.map_singleton, List.sum_singleton]
  · rwa [List.map_append, List.sum_append, List.map_singleton, List.sum_singleton]

namespace RequestedPages

theorem nil (trace : List (InventoryEvent Item)) (entry : ℕ) (snapshotId : Uuid) :
    RequestedPages (trace ++ [.requested entry snapshotId (.ok true)]) entry snapshotId [] :=
  ⟨trace, [], rfl, fun _ h => (nomatch h), rfl⟩

/-- What is neither a page nor a request of the session. -/
theorem frame (h : RequestedPages trace entry snapshotId pages)
    (hpage : pageEvent entry event = none) (hrequest : grants entry event = false) :
    RequestedPages (trace ++ [event]) entry snapshotId pages := by
  obtain ⟨earlier, middle, rfl, hgrants, hpages⟩ := h
  refine ⟨earlier, middle ++ [event], by simp, fun other hother => ?_, ?_⟩
  · rcases List.mem_append.mp hother with hold | hnew
    · exact hgrants other hold
    · rwa [List.mem_singleton.mp hnew]
  · rw [List.filterMap_append, hpages, List.filterMap_cons_none hpage, List.filterMap_nil,
      List.append_nil]

theorem accept (h : RequestedPages trace entry snapshotId pages) (page : InventoryPage Item) :
    RequestedPages (trace ++ [.collected entry page (.ok none)]) entry snapshotId
      (pages ++ [page]) := by
  obtain ⟨earlier, middle, rfl, hgrants, hpages⟩ := h
  refine ⟨earlier, middle ++ [.collected entry page (.ok none)], by simp, ?_, ?_⟩
  · intro other hother
    rcases List.mem_append.mp hother with hold | hnew
    · exact hgrants other hold
    · rw [List.mem_singleton.mp hnew]
      rfl
  · have hevent : pageEvent entry (.collected entry page (.ok none)) = some (page, .ok none) :=
      if_pos rfl
    rw [List.filterMap_append, hpages, List.filterMap_cons_some hevent, List.filterMap_nil,
      List.map_append]
    rfl

end RequestedPages

/-- A collection which has not been handed over is what has arrived since the last request. -/
def Collecting (config : RegistryConfig) (measure : ItemMeasure Item)
    (trace : List (InventoryEvent Item)) (entry : ℕ) (current : InventoryProgress Item) : Prop :=
  current.applying = false → ∃ pages, RequestedPages trace entry current.snapshotId pages ∧
    Snapshot config measure current.snapshotId pages ∧ Records measure current pages

theorem Collecting.frame (h : Collecting config measure trace entry current)
    (hpage : pageEvent entry event = none) (hrequest : grants entry event = false) :
    Collecting config measure (trace ++ [event]) entry current := by
  intro happlying
  obtain ⟨pages, hpages, hsnapshot⟩ := h happlying
  exact ⟨pages, hpages.frame hpage hrequest, hsnapshot⟩

theorem progress_modify {g : SessionEntry Item → SessionEntry Item} {other : ℕ}
    (h : other ≠ entry ∨ ∀ session, (g session).inventory = session.inventory) :
    (s.entries.modify entry g)[other]?.bind (·.inventory) = s.progress other := by
  rw [List.getElem?_modify, progress]
  cases hentry : s.entries[other]? with
  | none => rfl
  | some session =>
      rcases h with hne | hg
      · simp [hne.symm]
      · by_cases heq : entry = other
        · simpa [heq] using hg session
        · simp [heq]

theorem progress_locked_self {α : Type*} (done : LockSection Item α)
    (hrange : entry < s.entries.length) :
    (s.locked process entry done).progress entry = done.progress := by
  simp [progress, locked, List.getElem?_eq_getElem hrange]

theorem progress_locked_of_ne {α : Type*} (done : LockSection Item α) {other : ℕ}
    (hne : other ≠ entry) : (s.locked process entry done).progress other = s.progress other :=
  progress_modify (.inl hne)

theorem progress_touch {other : ℕ} : (s.touch entry).progress other = s.progress other :=
  progress_modify (.inr fun _ => rfl)

theorem progress_of_insert {context : SessionContext}
    (h : (s.insert context).progress entry = some current) : s.progress entry = some current := by
  rw [progress, insert] at h
  by_cases hrange : entry < s.entries.length
  · rwa [List.getElem?_append_left hrange] at h
  · rw [List.getElem?_append_right (not_lt.mp hrange)] at h
    cases hindex : entry - s.entries.length with
    | zero => simp [hindex] at h
    | succ n => simp [hindex] at h

theorem progress_of_registerControl {context : SessionContext}
    (h : (s.registerControl config context).2.progress entry = some current) :
    s.progress entry = some current := by
  rw [registerControl] at h
  split at h <;> split at h
  · exact h
  · exact progress_of_insert h
  · exact h
  · exact progress_of_insert h

theorem progress_removeControlIf (context : SessionContext) :
    (s.removeControlIf context).progress entry = s.progress entry := by
  rw [removeControlIf]
  split <;> rfl

/-- A section leaves what other sessions collect as it is. -/
theorem historic_locked {α : Type*} {done : LockSection Item α}
    (h : ∀ other current, s.progress other = some current →
      Collecting config measure trace other current) (hrange : entry < s.entries.length)
    (hpage : ∀ other, other ≠ entry → pageEvent other event = none)
    (hrequest : ∀ other, other ≠ entry → grants other event = false)
    (hdone : ∀ current, done.progress = some current →
      Collecting config measure (trace ++ [event]) entry current) {other : ℕ}
    (hcurrent : (s.locked process entry done).progress other = some current) :
    Collecting config measure (trace ++ [event]) other current := by
  by_cases hother : other = entry
  · subst hother
    rw [progress_locked_self done hrange] at hcurrent
    exact hdone current hcurrent
  · rw [progress_locked_of_ne done hother] at hcurrent
    exact (h other current hcurrent).frame (hpage other hother) (hrequest other hother)

theorem collecting_request {now timeout : ℕ} {sent : Except RegistryError Unit}
    {bytes : InventoryBytes} {progress : Option (InventoryProgress Item)}
    {done : LockSection Item Bool}
    (h : ∀ current, progress = some current → Collecting config measure trace entry current)
    (hdone : requestInventory now timeout snapshotId sent bytes progress = done)
    (hcurrent : done.progress = some current) :
    Collecting config measure (trace ++ [.requested entry snapshotId done.result]) entry
      current := by
  subst hdone
  rw [requestInventory] at hcurrent ⊢
  split at hcurrent
  · next hyoung =>
    rw [if_pos hyoung]
    exact (h current hcurrent).frame rfl rfl
  · next hold =>
    rw [if_neg hold]
    cases sent with
    | error error => cases hcurrent
    | ok sent =>
        obtain rfl := Option.some.inj hcurrent
        exact fun _ => ⟨[], .nil trace entry snapshotId, .nil snapshotId, .nil snapshotId now⟩

theorem collecting_collect {bytes : InventoryBytes} {progress : Option (InventoryProgress Item)}
    {done : LockSection Item (Option (Uuid × List Item))}
    (h : ∀ current, progress = some current → Collecting config measure trace entry current)
    (hdone : collectInventory config measure page bytes progress = done)
    (hcurrent : done.progress = some current) :
    Collecting config measure (trace ++ [.collected entry page done.result]) entry current := by
  rcases collectInventory_cases config measure page bytes progress with
    ⟨error, hcase⟩ | ⟨before, rfl, hpage, -, hcase⟩
  · rw [← hdone, hcase] at hcurrent
    cases hcurrent
  · rw [hdone] at hcase
    by_cases hfinal : page.finalPage = true
    · rw [if_pos hfinal] at hcase
      subst hcase
      obtain rfl := Option.some.inj hcurrent
      exact fun happlying => nomatch happlying
    · rw [if_neg hfinal] at hcase
      subst hcase
      obtain rfl := Option.some.inj hcurrent
      intro _
      obtain ⟨pages, hpages, hsnapshot, hrecords⟩ := h before rfl hpage.collecting
      exact ⟨pages ++ [page], hpages.accept page, hsnapshot.accept hrecords hpage,
        hrecords.accept (Bool.eq_false_iff.mpr hfinal)⟩

theorem collecting_complete {bytes : InventoryBytes} {progress : Option (InventoryProgress Item)}
    {done : LockSection Item Unit}
    (h : ∀ current, progress = some current → Collecting config measure trace entry current)
    (hdone : completeInventory snapshotId bytes progress = done)
    (hcurrent : done.progress = some current) :
    Collecting config measure (trace ++ [.completed entry snapshotId done.result]) entry
      current := by
  subst hdone
  rw [completeInventory] at hcurrent
  split at hcurrent
  · cases hcurrent
  · exact (h current hcurrent).frame rfl rfl

/-- What one step keeps of the history of every collection. -/
theorem Step.historic (hstep : Step config measure s event t) (hcounted : Counted config s)
    (h : ∀ other current, s.progress other = some current →
      Collecting config measure trace other current) {other : ℕ}
    (hcurrent : t.progress other = some current) :
    Collecting config measure (trace ++ [event]) other current := by
  cases hstep with
  | tick elapsed => exact (h other current hcurrent).frame rfl rfl
  | touch htouch =>
      rw [progress_touch] at hcurrent
      exact (h other current hcurrent).frame rfl rfl
  | register context =>
      exact (h other current (progress_of_registerControl hcurrent)).frame rfl rfl
  | disconnect workerId => exact (h other current hcurrent).frame rfl rfl
  | removeControlIf context =>
      rw [progress_removeControlIf] at hcurrent
      exact (h other current hcurrent).frame rfl rfl
  | shutdown => exact (h other current hcurrent).frame rfl rfl
  | refuse hfind => exact (h other current hcurrent).frame rfl rfl
  | find hfree hfind => exact (h other current hcurrent).frame rfl rfl
  | request sent hrun hdone =>
      refine historic_locked h (hcounted.inRange _ _ hrun) (fun _ _ => rfl) (fun other hne => ?_)
        (fun current => collecting_request (h _) hdone) hcurrent
      cases hresult : LockSection.result _ with
      | error error => rfl
      | ok granted =>
          cases granted with
          | false => rfl
          | true => exact decide_eq_false hne.symm
  | collect hrun hdone =>
      refine historic_locked h (hcounted.inRange _ _ hrun) (fun other hne => ?_)
        (fun _ _ => rfl) (fun current => collecting_collect (h _) hdone) hcurrent
      exact if_neg hne.symm
  | complete hrun hdone =>
      exact historic_locked h (hcounted.inRange _ _ hrun) (fun _ _ => rfl) (fun _ _ => rfl)
        (fun current => collecting_complete (h _) hdone) hcurrent
  | leave hrun => exact (h other current hcurrent).frame rfl rfl
  | @drop entry hfree =>
      by_cases hother : other = entry
      · subst hother
        rw [progress, List.getElem?_modify] at hcurrent
        cases hentry : s.entries[other]? with
        | none => simp [hentry] at hcurrent
        | some session => simp [hentry] at hcurrent
      · rw [progress, progress_modify (.inl hother)] at hcurrent
        exact (h other current hcurrent).frame rfl rfl
  | destroy before used after hdropped => exact (h other current hcurrent).frame rfl rfl

end History

section Law

variable {config : RegistryConfig} {measure : ItemMeasure Item} {s t : InventoryRegistry Item}
  {trace : List (InventoryEvent Item)} {entry : ℕ} {snapshotId : Uuid}
  {page : InventoryPage Item} {items : List Item}

/-- The items are those of the whole snapshot which was requested last, all of whose pages
have arrived in order. -/
def Delivers (config : RegistryConfig) (measure : ItemMeasure Item)
    (before : List (InventoryEvent Item)) (entry : ℕ) (page : InventoryPage Item)
    (snapshotId : Uuid) (items : List Item) : Prop :=
  ∃ pages, RequestedPages before entry snapshotId pages ∧
    Snapshot config measure snapshotId (pages ++ [page]) ∧
    (∀ earlier ∈ pages, earlier.finalPage = false) ∧ page.finalPage = true ∧
    items = (pages ++ [page]).flatMap (·.items)

/-- What is true of every run of the registry. -/
structure InventoryLaw (config : RegistryConfig) (measure : ItemMeasure Item)
    (trace : List (InventoryEvent Item)) (s : InventoryRegistry Item) : Prop where
  delivers : ∀ before entry page snapshotId items after,
    trace = before ++ .collected entry page (.ok (some (snapshotId, items))) :: after →
      Delivers config measure before entry page snapshotId items
  /-- Between two deliveries of a session lies a request. -/
  once : ∀ before entry page delivery between page' delivery' after,
    trace = before ++ .collected entry page (.ok (some delivery)) ::
      (between ++ .collected entry page' (.ok (some delivery')) :: after) →
      ∃ event ∈ between, grants entry event = true
  discards : ∀ before entry page error,
    trace = before ++ [.collected entry page (.error error)] → s.progress entry = none
  /-- A page whose session has gone reaches no collection. -/
  refuses : ∀ before context page error,
    trace = before ++ [.refused (.collect context page) error] → s.current context = .error error
  counted : s.bytes.total = s.liveBytes
  bounded : s.bytes.total ≤ config.maxTotalInventoryBytes
  idle : (∀ entry, s.progress entry = none) → s.bytes.dropped = [] → s.bytes.total = 0

theorem Step.of_collected {result : Except RegistryError (Option (Uuid × List Item))}
    (hstep : Step config measure s (.collected entry page result) t) (hcounted : Counted config s) :
    ∃ process done, entry < s.entries.length ∧
      collectInventory config measure page s.bytes (s.progress entry) = done ∧
        result = done.result ∧ t = s.locked process entry done := by
  cases hstep with
  | collect hrun hdone => exact ⟨_, _, hcounted.inRange _ _ hrun, hdone, rfl, rfl⟩

/-- Every state of a run with what has been seen of it. -/
theorem counted_and_collecting
    (h : StepPath (Step config measure) (init Item) trace s) :
    Counted config s ∧ ∀ entry current, s.progress entry = some current →
      Collecting config measure trace entry current := by
  refine StepPath.history (P := fun trace s => Counted config s ∧ ∀ entry current,
    s.progress entry = some current → Collecting config measure trace entry current) ?_ ?_ h
  · exact ⟨.init, fun entry current h => nomatch h⟩
  · intro trace s event t hs hstep
    exact ⟨hstep.counted hs.1, fun entry current hcurrent => hstep.historic hs.1 hs.2 hcurrent⟩

theorem delivers_of_step (hcounted : Counted config s)
    (h : ∀ entry current, s.progress entry = some current →
      Collecting config measure trace entry current)
    (hstep : Step config measure s (.collected entry page (.ok (some (snapshotId, items)))) t) :
    Delivers config measure trace entry page snapshotId items := by
  obtain ⟨process, done, hrange, hdone, hresult, -⟩ := hstep.of_collected hcounted
  rcases collectInventory_cases config measure page s.bytes (s.progress entry) with
    ⟨error, hcase⟩ | ⟨current, hcurrent, hpage, -, hcase⟩
  · rw [← hdone, hcase] at hresult
    cases hresult
  · rw [hdone] at hcase
    by_cases hfinal : page.finalPage = true
    · rw [if_pos hfinal] at hcase
      rw [hcase] at hresult
      obtain ⟨rfl, rfl⟩ := Prod.mk.inj (Option.some.inj (Except.ok.inj hresult))
      obtain ⟨pages, hpages, hsnapshot, hrecords⟩ := h entry current hcurrent hpage.collecting
      refine ⟨pages, hpages, hsnapshot.accept hrecords hpage, hrecords.unfinished, hfinal, ?_⟩
      rw [hrecords.items, List.flatMap_append, List.flatMap_singleton]
    · rw [if_neg hfinal] at hcase
      rw [hcase] at hresult
      cases hresult

/-- A delivery before a collection was requested before it. -/
theorem RequestedPages.granted_between {before between : List (InventoryEvent Item)}
    {pages : List (InventoryPage Item)} {delivery : Uuid × List Item}
    (h : RequestedPages (before ++ .collected entry page (.ok (some delivery)) :: between) entry
      snapshotId pages) : ∃ event ∈ between, grants entry event = true := by
  obtain ⟨earlier, middle, htrace, -, hpages⟩ := h
  have hdelivery : .collected entry page (.ok (some delivery)) ∉ middle := by
    intro hmem
    have hevent : (page, .ok (some delivery)) ∈ middle.filterMap (pageEvent entry) :=
      List.mem_filterMap.mpr ⟨_, hmem, if_pos rfl⟩
    rw [hpages] at hevent
    obtain ⟨page', -, heq⟩ := List.mem_map.mp hevent
    cases congrArg Prod.snd heq
  have hrequest : grants entry (.requested entry snapshotId (.ok true) : InventoryEvent Item) =
      true := decide_eq_true rfl
  rcases List.append_eq_append_iff.mp htrace with ⟨rest, -, hrest⟩ | ⟨rest, -, hrest⟩
  · cases rest with
    | nil => cases (List.cons.inj hrest).1
    | cons event rest =>
        obtain ⟨-, rfl⟩ := List.cons.inj hrest
        exact ⟨_, List.mem_append_right _ List.mem_cons_self, hrequest⟩
  · cases rest with
    | nil => cases (List.cons.inj hrest).1
    | cons event rest =>
        obtain ⟨-, rfl⟩ := List.cons.inj hrest
        exact absurd (List.mem_append_right _ List.mem_cons_self) hdelivery

theorem progress_eq_none_of_error {error : RegistryError} (hcounted : Counted config s)
    (hstep : Step config measure s (.collected entry page (.error error)) t) :
    t.progress entry = none := by
  obtain ⟨process, done, hrange, hdone, hresult, rfl⟩ := hstep.of_collected hcounted
  rw [progress_locked_self done hrange]
  rcases collectInventory_cases config measure page s.bytes (s.progress entry) with
    ⟨error', hcase⟩ | ⟨current, -, -, -, hcase⟩
  · rw [← hdone, hcase]
    rfl
  · rw [← hdone, hcase] at hresult
    split at hresult <;> cases hresult

theorem liveBytes_eq_zero (hprogress : ∀ entry, s.progress entry = none)
    (hdropped : s.bytes.dropped = []) : s.liveBytes = 0 := by
  have hsessions : ∀ bytes ∈ s.entries.map fun session =>
      InventoryProgress.reserved session.inventory, bytes = 0 := by
    intro bytes hbytes
    obtain ⟨session, hsession, rfl⟩ := List.mem_map.mp hbytes
    obtain ⟨entry, hentry⟩ := List.mem_iff_getElem?.mp hsession
    rw [← progress_eq hentry, hprogress entry, InventoryProgress.reserved_none]
  rw [liveBytes, hdropped, List.sum_eq_zero hsessions, List.sum_nil, Nat.add_zero]

theorem inventoryLaw_of_run (h : StepPath (Step config measure) (init Item) trace s) :
    InventoryLaw config measure trace s := by
  have hcounted := (counted_and_collecting h).1
  constructor
  case delivers =>
    intro before entry page snapshotId items after htrace
    subst htrace
    obtain ⟨a, b, hbefore, hstep, -⟩ := h.of_middle
    obtain ⟨hcounted, hcollecting⟩ := counted_and_collecting hbefore
    exact delivers_of_step hcounted hcollecting hstep
  case once =>
    intro before entry page delivery between page' delivery' after htrace
    subst htrace
    rw [← List.cons_append, ← List.append_assoc] at h
    obtain ⟨a, b, hbefore, hstep, -⟩ := h.of_middle
    obtain ⟨hcounted, hcollecting⟩ := counted_and_collecting hbefore
    obtain ⟨pages, hpages, -⟩ := delivers_of_step hcounted hcollecting hstep
    exact hpages.granted_between
  case discards =>
    intro before entry page error htrace
    subst htrace
    obtain ⟨a, b, hbefore, hstep, hafter⟩ := h.of_middle
    cases hafter
    exact progress_eq_none_of_error (counted_and_collecting hbefore).1 hstep
  case refuses =>
    intro before context page error htrace
    subst htrace
    obtain ⟨a, b, hbefore, hstep, hafter⟩ := h.of_middle
    cases hafter
    cases hstep with
    | refuse hfind => exact hfind
  case counted => exact hcounted.counted
  case bounded => exact hcounted.bounded
  case idle =>
    intro hprogress hdropped
    rw [hcounted.counted, liveBytes_eq_zero hprogress hdropped]

section Delivered

def unitMeasure : ItemMeasure Unit := ⟨fun _ => 1, fun items => 2 * items.length + 1⟩

def soleContext : SessionContext := ⟨7, 1, 1⟩

/-- One worker is asked for its inventory and answers with one page. -/
def deliveredTrace : List (InventoryEvent Unit) :=
  [.registered soleContext (.ok ()), .found 0 0, .requested 0 5 (.ok true), .found 1 0,
    .collected 0 ⟨5, 0, true, [()]⟩ (.ok (some (5, [()])))]

theorem inventoryLaw_of_run_delivered :
    ∃ s, InventoryLaw .default unitMeasure deliveredTrace s := by
  refine ⟨_, inventoryLaw_of_run <| .cons (.register soleContext) <|
    .cons (@Step.find _ _ _ _ (.request 7 60) 0 0 rfl rfl) <|
    .cons (@Step.request _ _ _ _ 0 0 7 60 5 _ (.ok ()) rfl rfl) <|
    .cons (@Step.find _ _ _ _ (.collect soleContext ⟨5, 0, true, [()]⟩) 1 0 rfl rfl) <|
    .cons (@Step.collect _ _ _ _ 1 0 soleContext ⟨5, 0, true, [()]⟩ _ rfl rfl) (.nil _)⟩

end Delivered

end Law

end InventoryRegistry

end Worker

end Rsctf
