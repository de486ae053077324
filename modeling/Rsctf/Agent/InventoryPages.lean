import Rsctf.Agent.Docker
import Rsctf.Worker.InventoryRegistry

/-!
# The pages of an inventory

The agent splits what it runs into pages which fit into a control frame, and sends them in
order.  A page is closed when it holds as many items as a page may hold, or when one more
item would make it too long.  The server takes the pages of a whole inventory, and hands
over the inventory with the last one.
-/

namespace Rsctf

namespace Agent

open Worker

variable {Item : Type*}

def inventoryPageSize : ℕ := 100

def maxControlFrame : ℕ := 256 * 1024

def inventoryPayloadBudget : ℕ := maxControlFrame - 4 * 1024

def oversizedItem : RuntimeError :=
  .new .internal "one workload inventory item exceeds the control frame limit"

section Paging

variable (size : Item → ℕ)

/-- The length of an encoded array: its brackets, its items, and the commas between them. -/
def encodedInventoryItems (items : List Item) : ℕ :=
  2 + (items.map size).sum + (items.length - 1)

/-- The pages which are closed, and the one which is being filled. -/
structure OpenPages (Item : Type*) where
  pages : List (List Item)
  current : List Item

def OpenPages.flush (state : OpenPages Item) : OpenPages Item :=
  ⟨state.pages ++ [state.current], []⟩

/-- An item which makes the page too long is taken out again and opens the next one. -/
def pushItem (state : OpenPages Item) (item : Item) : Except RuntimeError (OpenPages Item) :=
  let state := if inventoryPageSize ≤ state.current.length then state.flush else state
  if inventoryPayloadBudget < encodedInventoryItems size (state.current ++ [item]) then
    if state.current.isEmpty then .error oversizedItem
    else if inventoryPayloadBudget < encodedInventoryItems size [item] then .error oversizedItem
    else .ok { state.flush with current := [item] }
  else .ok { state with current := state.current ++ [item] }

def OpenPages.close (state : OpenPages Item) : List (List Item) :=
  if state.current.isEmpty then state.pages else state.pages ++ [state.current]

def inventoryPages (inventory : List Item) : Except RuntimeError (List (List Item)) :=
  (inventory.foldlM (pushItem size) ⟨[], []⟩).map OpenPages.close

end Paging

/-- The pages as they are sent; an empty inventory is one empty page. -/
def pageMessages (snapshotId : Uuid) (pages : List (List Item)) : List (InventoryPage Item) :=
  if pages.isEmpty then [⟨snapshotId, 0, true, []⟩]
  else pages.mapIdx fun index items =>
    ⟨snapshotId, index % 2 ^ 32, index + 1 = pages.length, items⟩

/-- What is sent until the outbound channel closes, after `accepted` messages. -/
def sendInventory (size : Item → ℕ) (snapshotId : Uuid) (inventory : List Item) (accepted : ℕ) :
    Except RuntimeError (List (InventoryPage Item)) :=
  (inventoryPages size inventory).map fun pages => (pageMessages snapshotId pages).take accepted

section Pages

variable {size : Item → ℕ} {state : OpenPages Item} {done : List Item} {item : Item}

/-- The item alone does not fit into a page. -/
def Oversized (size : Item → ℕ) (item : Item) : Prop :=
  inventoryPayloadBudget < encodedInventoryItems size [item]

structure PageFits (size : Item → ℕ) (page : List Item) : Prop where
  nonempty : page ≠ []
  length_le : page.length ≤ inventoryPageSize
  encoded_le : encodedInventoryItems size page ≤ inventoryPayloadBudget

/-- The pages hold what has been pushed. -/
structure Holds (size : Item → ℕ) (state : OpenPages Item) (done : List Item) : Prop where
  flatten : state.pages.flatten ++ state.current = done
  pages : ∀ page ∈ state.pages, PageFits size page
  current : state.current ≠ [] → PageFits size state.current

theorem encodedInventoryItems_singleton (item : Item) :
    encodedInventoryItems size [item] = 2 + size item := by
  simp [encodedInventoryItems]

theorem le_encodedInventoryItems (items : List Item) (item : Item) :
    encodedInventoryItems size [item] ≤ encodedInventoryItems size (items ++ [item]) := by
  rw [encodedInventoryItems_singleton]
  simp [encodedInventoryItems]
  omega

namespace Holds

theorem flush (h : Holds size state done) (hcurrent : state.current ≠ []) :
    Holds size state.flush done where
  flatten := by
    rw [OpenPages.flush, List.flatten_append, List.flatten_singleton, List.append_nil, h.flatten]
  pages := by
    intro page hpage
    rcases List.mem_append.mp hpage with hold | hnew
    · exact h.pages page hold
    · rw [List.mem_singleton.mp hnew]
      exact h.current hcurrent
  current := fun hempty => absurd rfl hempty

theorem push (h : Holds size state done)
    (hfits : PageFits size (state.current ++ [item])) :
    Holds size { state with current := state.current ++ [item] } (done ++ [item]) where
  flatten := by rw [← List.append_assoc, h.flatten]
  pages := h.pages
  current := fun _ => hfits

end Holds

/-- A page which is full is closed before the next item. -/
theorem pushItem_eq (size : Item → ℕ) (h : Holds size state done) (item : Item) :
    ∃ room : OpenPages Item, Holds size room done ∧ room.current.length < inventoryPageSize ∧
      pushItem size state item =
        if inventoryPayloadBudget < encodedInventoryItems size (room.current ++ [item]) then
          if room.current.isEmpty then .error oversizedItem
          else if inventoryPayloadBudget < encodedInventoryItems size [item] then
            .error oversizedItem
          else .ok { room.flush with current := [item] }
        else .ok { room with current := room.current ++ [item] } := by
  by_cases hfull : inventoryPageSize ≤ state.current.length
  · refine ⟨state.flush, h.flush ?_, Nat.zero_lt_succ 99, ?_⟩
    · intro hempty
      rw [hempty] at hfull
      exact absurd hfull (Nat.not_succ_le_zero 99)
    · rw [pushItem, if_pos hfull]
  · exact ⟨state, h, not_le.mp hfull, by rw [pushItem, if_neg hfull]⟩

theorem pushItem_error (h : Holds size state done) (hsize : Oversized size item) :
    pushItem size state item = .error oversizedItem := by
  obtain ⟨room, -, -, hpush⟩ := pushItem_eq size h item
  have hlong := hsize.trans_le (le_encodedInventoryItems room.current item)
  rw [hpush, if_pos hlong, if_pos (show inventoryPayloadBudget < _ from hsize), ite_self]

theorem pushItem_ok (h : Holds size state done) (hsize : ¬Oversized size item) :
    ∃ next, pushItem size state item = .ok next ∧ Holds size next (done ++ [item]) := by
  obtain ⟨room, hroom, hlength, hpush⟩ := pushItem_eq size h item
  rw [hpush]
  by_cases hlong : inventoryPayloadBudget < encodedInventoryItems size (room.current ++ [item])
  · have hcurrent : room.current ≠ [] := by
      intro hempty
      rw [hempty] at hlong
      exact hsize hlong
    have hsingle : PageFits size [item] := ⟨List.cons_ne_nil _ _, Nat.succ_le_succ (Nat.zero_le 99),
      not_lt.mp hsize⟩
    refine ⟨_, ?_, (hroom.flush hcurrent).push hsingle⟩
    rw [if_pos hlong, if_neg (by simpa using hcurrent),
      if_neg (show ¬inventoryPayloadBudget < _ from hsize)]
    rfl
  · refine ⟨_, if_neg hlong, hroom.push ⟨by simp, ?_, not_lt.mp hlong⟩⟩
    rw [List.length_append, List.length_singleton]
    exact hlength

theorem foldlM_pushItem_ok {inventory : List Item} (h : Holds size state done)
    (hsize : ∀ item ∈ inventory, ¬Oversized size item) :
    ∃ last, inventory.foldlM (pushItem size) state = .ok last ∧
      Holds size last (done ++ inventory) := by
  induction inventory generalizing state done with
  | nil => exact ⟨state, rfl, by rwa [List.append_nil]⟩
  | cons item inventory ih =>
      obtain ⟨next, hpush, hnext⟩ := pushItem_ok h (hsize item List.mem_cons_self)
      obtain ⟨last, hfold, hlast⟩ := ih hnext fun item hitem =>
        hsize item (List.mem_cons_of_mem _ hitem)
      refine ⟨last, ?_, by rwa [← List.append_cons] at hlast⟩
      rw [List.foldlM_cons, hpush]
      exact hfold

theorem foldlM_pushItem_error {inventory : List Item} (h : Holds size state done)
    (hsize : ∃ item ∈ inventory, Oversized size item) :
    inventory.foldlM (pushItem size) state = .error oversizedItem := by
  induction inventory generalizing state done with
  | nil =>
      obtain ⟨item, hitem, -⟩ := hsize
      cases hitem
  | cons item inventory ih =>
      rw [List.foldlM_cons]
      by_cases hitem : Oversized size item
      · rw [pushItem_error h hitem]
        rfl
      · obtain ⟨next, hpush, hnext⟩ := pushItem_ok h hitem
        rw [hpush]
        refine ih hnext ?_
        obtain ⟨other, hother, hlong⟩ := hsize
        rcases List.mem_cons.mp hother with rfl | hrest
        · exact absurd hlong hitem
        · exact ⟨other, hrest, hlong⟩

theorem Holds.close (h : Holds size state done) :
    state.close.flatten = done ∧ ∀ page ∈ state.close, PageFits size page := by
  rw [OpenPages.close]
  by_cases hempty : state.current = []
  · rw [if_pos (by simpa using hempty)]
    have hflatten := h.flatten
    rw [hempty, List.append_nil] at hflatten
    exact ⟨hflatten, h.pages⟩
  · rw [if_neg (by simpa using hempty)]
    have hflush := h.flush hempty
    have hflatten := hflush.flatten
    rw [OpenPages.flush, List.append_nil] at hflatten
    exact ⟨hflatten, hflush.pages⟩

theorem holds_nil : Holds size (⟨[], []⟩ : OpenPages Item) [] :=
  ⟨rfl, fun _ h => (nomatch h), fun h => absurd rfl h⟩

theorem inventoryPages_error {inventory : List Item}
    (hsize : ∃ item ∈ inventory, Oversized size item) :
    inventoryPages size inventory = .error oversizedItem := by
  rw [inventoryPages, foldlM_pushItem_error holds_nil hsize]
  rfl

theorem inventoryPages_ok {inventory : List Item}
    (hsize : ∀ item ∈ inventory, ¬Oversized size item) :
    ∃ pages, inventoryPages size inventory = .ok pages ∧ pages.flatten = inventory ∧
      ∀ page ∈ pages, PageFits size page := by
  obtain ⟨last, hfold, hlast⟩ := foldlM_pushItem_ok holds_nil hsize
  rw [List.nil_append] at hlast
  refine ⟨last.close, ?_, hlast.close⟩
  rw [inventoryPages, hfold]
  rfl

end Pages

/-- What the server does with the pages which arrive, each with the counter it finds. -/
def collectPages (config : RegistryConfig) (measure : ItemMeasure Item)
    (bytes : ℕ → InventoryBytes) : ℕ → Option (InventoryProgress Item) →
    List (InventoryPage Item) → List (Except RegistryError (Option (Uuid × List Item)))
  | _, _, [] => []
  | index, progress, page :: rest =>
    let done := collectInventory config measure page (bytes index) progress
    done.result :: collectPages config measure bytes (index + 1) done.progress rest

/-- The server encodes the items as the agent does. -/
def itemMeasure (size replicas : Item → ℕ) : ItemMeasure Item :=
  ⟨replicas, encodedInventoryItems size⟩

section Sending

variable {config : RegistryConfig} {measure : ItemMeasure Item} {bytes : ℕ → InventoryBytes}
  {size replicas : Item → ℕ} {snapshotId : Uuid} {inventory : List Item}
  {pages : List (List Item)} {messages done more : List (InventoryPage Item)}
  {page : InventoryPage Item} {current : InventoryProgress Item}

/-- The pages 0, 1, … of one snapshot, the last of which alone is final. -/
structure WellSent (snapshotId : Uuid) (inventory : List Item)
    (messages : List (InventoryPage Item)) : Prop where
  nonempty : messages ≠ []
  items : messages.flatMap (·.items) = inventory
  snapshot : ∀ page ∈ messages, page.snapshotId = snapshotId
  numbered : ∀ index page, messages[index]? = some page → page.page = index % 2 ^ 32
  final : ∀ index page, messages[index]? = some page →
    (page.finalPage = true ↔ index + 1 = messages.length)
  filled : ∀ page ∈ messages, page.finalPage = false → page.items ≠ []

/-- The inventory is within the limits of the server, and so is the counter which each of
its pages finds. -/
structure WithinLimits (config : RegistryConfig) (measure : ItemMeasure Item)
    (bytes : ℕ → InventoryBytes) (messages : List (InventoryPage Item)) : Prop where
  pages_le : messages.length ≤ config.maxInventoryPages
  items_le : (messages.flatMap (·.items)).length ≤ config.maxInventoryItems
  bytes_le : (messages.map measure.pageBytes).sum ≤ config.maxInventoryBytes
  replicas_le : (messages.map measure.pageReplicas).sum ≤ config.maxInventoryReplicas
  total_le : ∀ index page, messages[index]? = some page →
    (bytes index).total + measure.pageBytes page ≤ config.maxTotalInventoryBytes

theorem wellSent_nil (snapshotId : Uuid) :
    WellSent snapshotId [] (pageMessages snapshotId ([] : List (List Item))) where
  nonempty := List.cons_ne_nil _ _
  items := rfl
  snapshot := by simp [pageMessages]
  numbered := by
    intro index page hpage
    cases index with
    | zero =>
        obtain rfl := Option.some.inj hpage
        rfl
    | succ index => cases hpage
  final := by
    intro index page hpage
    cases index with
    | zero =>
        obtain rfl := Option.some.inj hpage
        exact iff_of_true rfl rfl
    | succ index => cases hpage
  filled := by simp [pageMessages]

theorem getElem?_pageMessages (hpages : pages ≠ []) {index : ℕ}
    (h : (pageMessages snapshotId pages)[index]? = some page) :
    ∃ items, pages[index]? = some items ∧
      page = ⟨snapshotId, index % 2 ^ 32, index + 1 = pages.length, items⟩ := by
  rw [pageMessages, if_neg (by simpa using hpages), List.getElem?_mapIdx] at h
  obtain ⟨items, hitems, rfl⟩ := Option.map_eq_some_iff.mp h
  exact ⟨items, hitems, rfl⟩

theorem length_pageMessages (snapshotId : Uuid) (hpages : pages ≠ []) :
    (pageMessages snapshotId pages).length = pages.length := by
  rw [pageMessages, if_neg (by simpa using hpages), List.length_mapIdx]

theorem map_items_pageMessages (hpages : pages ≠ []) :
    (pageMessages snapshotId pages).map (·.items) = pages := by
  refine List.ext_getElem? fun index => ?_
  rw [pageMessages, if_neg (by simpa using hpages), List.getElem?_map, List.getElem?_mapIdx,
    Option.map_map]
  exact Option.map_id'

theorem wellSent_pageMessages (hflatten : pages.flatten = inventory)
    (hfits : ∀ items ∈ pages, PageFits size items) (snapshotId : Uuid) :
    WellSent snapshotId inventory (pageMessages snapshotId pages) := by
  by_cases hpages : pages = []
  · subst hpages
    obtain rfl := hflatten
    exact wellSent_nil snapshotId
  · have hlength := length_pageMessages snapshotId hpages
    constructor
    case nonempty =>
      intro hnil
      rw [hnil] at hlength
      exact hpages (List.length_eq_zero_iff.mp hlength.symm)
    case items =>
      rw [List.flatMap_def, map_items_pageMessages hpages, hflatten]
    case snapshot =>
      intro page hpage
      obtain ⟨index, hindex⟩ := List.mem_iff_getElem?.mp hpage
      obtain ⟨items, -, rfl⟩ := getElem?_pageMessages hpages hindex
      rfl
    case numbered =>
      intro index page hindex
      obtain ⟨items, -, rfl⟩ := getElem?_pageMessages hpages hindex
      rfl
    case final =>
      intro index page hindex
      obtain ⟨items, -, rfl⟩ := getElem?_pageMessages hpages hindex
      rw [hlength]
      exact decide_eq_true_iff
    case filled =>
      intro page hpage _
      obtain ⟨index, hindex⟩ := List.mem_iff_getElem?.mp hpage
      obtain ⟨items, hitems, rfl⟩ := getElem?_pageMessages hpages hindex
      exact (hfits items (List.mem_of_getElem? hitems)).nonempty

/-- The next page of a sequence continues what has been collected of it. -/
theorem WellSent.continues (hsent : WellSent snapshotId inventory (done ++ page :: more))
    (hlimits : WithinLimits config measure bytes (done ++ page :: more))
    (hrecords : InventoryRegistry.Records measure current done)
    (hcollecting : current.applying = false) (hid : current.snapshotId = snapshotId) :
    Continues config measure current page := by
  have hindex : (done ++ page :: more)[done.length]? = some page := by simp
  have hmem : page ∈ done ++ page :: more := List.mem_append_right _ List.mem_cons_self
  have hpages : done.length < config.maxInventoryPages := by
    have := hlimits.pages_le
    rw [List.length_append, List.length_cons] at this
    omega
  have hnumber : page.page = done.length := by
    rw [hsent.numbered _ _ hindex, Nat.mod_eq_of_lt (hpages.trans config.pages_lt)]
  have hitems := hlimits.items_le
  have hbytes := hlimits.bytes_le
  have hreplicas := hlimits.replicas_le
  simp only [List.flatMap_append, List.flatMap_cons, List.length_append, List.map_append,
    List.map_cons, List.sum_append, List.sum_cons] at hitems hbytes hreplicas
  refine ⟨hcollecting, (hsent.snapshot page hmem).trans hid.symm,
    hnumber.trans hrecords.nextPage.symm, hsent.filled page hmem, ?_⟩
  rw [exceedsLimits, hrecords.items, hrecords.used, hrecords.replicas, hnumber]
  omega

/-- The server accepts what is left of a sequence of pages. -/
theorem collectPages_accepted (hsent : WellSent snapshotId inventory messages)
    (hlimits : WithinLimits config measure bytes messages)
    (hmessages : done ++ page :: more = messages)
    (hrecords : InventoryRegistry.Records measure current done)
    (hcollecting : current.applying = false) (hid : current.snapshotId = snapshotId) :
    collectPages config measure bytes done.length (some current) (page :: more) =
      List.replicate more.length (.ok none) ++ [.ok (some (snapshotId, inventory))] := by
  have hindex : messages[done.length]? = some page := by
    rw [← hmessages]
    simp
  have hfinal := hsent.final _ _ hindex
  induction more generalizing done page current with
  | nil =>
      have hlast : page.finalPage = true := by
        rw [hfinal, ← hmessages, List.length_append, List.length_singleton]
      have hcontinues :=
        (hmessages ▸ hsent).continues (hmessages ▸ hlimits) hrecords hcollecting hid
      rw [collectPages, collectInventory_of_continues hcontinues (hlimits.total_le _ _ hindex),
        if_pos hlast, hid, hrecords.items, ← List.flatMap_singleton (·.items) page,
        ← List.flatMap_append, hmessages, hsent.items]
      rfl
  | cons next more ih =>
      have hopen : page.finalPage = false := by
        rw [← Bool.not_eq_true, hfinal, ← hmessages, List.length_append, List.length_cons,
          List.length_cons]
        omega
      have hcontinues :=
        (hmessages ▸ hsent).continues (hmessages ▸ hlimits) hrecords hcollecting hid
      have hnext : (done ++ [page]) ++ next :: more = messages := by
        rw [← hmessages, List.append_assoc]
        rfl
      have hnextIndex : messages[(done ++ [page]).length]? = some next := by
        rw [← hnext]
        simp
      have hrest := ih hnext (hrecords.accept hopen) hcollecting hid hnextIndex
        (hsent.final _ _ hnextIndex)
      rw [List.length_append, List.length_singleton] at hrest
      rw [collectPages, collectInventory_of_continues hcontinues (hlimits.total_le _ _ hindex),
        if_neg (Bool.not_eq_true _ ▸ hopen)]
      exact congrArg (.ok none :: ·) hrest

end Sending

/-- What the agent's paging promises of an inventory. -/
structure InventoryPaged (size : Item → ℕ) (inventory : List Item) : Prop where
  error_iff : (∃ error, inventoryPages size inventory = .error error) ↔
    ∃ item ∈ inventory, Oversized size item
  flatten : ∀ pages, inventoryPages size inventory = .ok pages → pages.flatten = inventory
  fits : ∀ pages, inventoryPages size inventory = .ok pages → ∀ page ∈ pages, PageFits size page
  /-- What is sent is as much of one sequence of pages as the channel accepts. -/
  sent : ∀ pages, inventoryPages size inventory = .ok pages → ∀ snapshotId,
    ∃ messages, WellSent snapshotId inventory messages ∧
      (∀ accepted,
        sendInventory size snapshotId inventory accepted = .ok (messages.take accepted)) ∧
      ∀ replicas config bytes now, WithinLimits config (itemMeasure size replicas) bytes messages →
        collectPages config (itemMeasure size replicas) bytes 0
            (some (InventoryProgress.fresh Item snapshotId now)) messages =
          List.replicate (messages.length - 1) (.ok none) ++ [.ok (some (snapshotId, inventory))]

theorem inventoryPages_paged (size : Item → ℕ) (inventory : List Item) :
    InventoryPaged size inventory := by
  by_cases hsize : ∃ item ∈ inventory, Oversized size item
  · have herror := inventoryPages_error hsize
    constructor
    · exact iff_of_true ⟨_, herror⟩ hsize
    all_goals
      intro pages hpages
      rw [herror] at hpages
      cases hpages
  · obtain ⟨pages, hpages, hflatten, hfits⟩ := inventoryPages_ok fun item hitem hlong =>
      hsize ⟨item, hitem, hlong⟩
    have hpage : ∀ pages', inventoryPages size inventory = .ok pages' → pages' = pages :=
      fun pages' h => Except.ok.inj (h.symm.trans hpages)
    constructor
    case error_iff =>
      refine iff_of_false ?_ hsize
      rintro ⟨error, herror⟩
      rw [hpages] at herror
      cases herror
    case flatten =>
      intro pages' h
      rw [hpage pages' h, hflatten]
    case fits =>
      intro pages' h
      rw [hpage pages' h]
      exact hfits
    case sent =>
      intro pages' _ snapshotId
      have hsent := wellSent_pageMessages hflatten hfits snapshotId
      refine ⟨pageMessages snapshotId pages, hsent, fun accepted => ?_, ?_⟩
      · rw [sendInventory, hpages]
        rfl
      · intro replicas config bytes now hlimits
        cases hmessages : pageMessages snapshotId pages with
        | nil => exact absurd hmessages hsent.nonempty
        | cons page more =>
            rw [hmessages] at hsent hlimits
            exact collectPages_accepted hsent hlimits (List.nil_append _)
              (.nil snapshotId now) rfl rfl

end Agent

end Rsctf
