import Mathlib.Data.Finset.Card
import Mathlib.Data.List.Infix
import Rsctf.Vpn.Admission
import Rsctf.Vpn.AddressText
import Rsctf.Worker.Workload

/-!
# The sets of the capture gate

A service which has to be captured is reached only while its capture is live.  Both facts
are sets of the kernel.  They are built in two stage sets and swapped in one after the other,
so that a script which stops anywhere opens no route without a live capture.
-/

namespace Rsctf

namespace Vpn

inductive CaptureSet
  | required
  | requiredStage
  | live
  | liveStage
deriving DecidableEq, Repr

/-- The kernel's sets of the gate; a set may not have been created yet. -/
abbrev CaptureSets := CaptureSet → Option (Finset Entry)

def captureMembers (sets : CaptureSets) (name : CaptureSet) : Finset Entry := (sets name).getD ∅

def maxElem : ℕ := 131072

inductive CaptureCommand
  | create (name : CaptureSet)
  | flush (name : CaptureSet)
  | add (name : CaptureSet) (entry : Entry)
  | swap (left right : CaptureSet)
deriving DecidableEq, Repr

/-- One command of a restore script; what exists already is no error. -/
def CaptureCommand.run (sets : CaptureSets) : CaptureCommand → Option CaptureSets
  | .create name => some (Function.update sets name (some (captureMembers sets name)))
  | .flush name => (sets name).map fun _ => Function.update sets name (some ∅)
  | .add name entry => do
    let entries ← sets name
    if entry ∈ entries then return sets
    else if maxElem ≤ entries.card then none
    else return Function.update sets name (some (insert entry entries))
  | .swap left right => do
    let leftEntries ← sets left
    let rightEntries ← sets right
    return Function.update (Function.update sets left (some rightEntries)) right
      (some leftEntries)

/-- A script runs command by command, up to the first which fails. -/
def runScript (sets : CaptureSets) (script : List CaptureCommand) : Option CaptureSets :=
  script.foldlM CaptureCommand.run sets

section Script

structure EndpointRow where
  host : String
  port : ℤ
  live : Bool

/-- The endpoint of a row, if its texts are an address and a port. -/
def EndpointRow.endpoint (row : EndpointRow) : Option (ℕ × ℕ) := do
  let host ← parseIpv4 (Worker.trim row.host)
  if 0 < row.port ∧ row.port < 2 ^ 16 then return (host, row.port.toNat) else none

def endpointLt (left right : ℕ × ℕ) : Prop :=
  left.1 < right.1 ∨ left.1 = right.1 ∧ left.2 < right.2

instance : DecidableRel endpointLt := fun _ _ => inferInstanceAs (Decidable (_ ∨ _))

/-- An endpoint is live when one of its rows is. -/
def mergeRow (key : ℕ × ℕ) (live : Bool) : List ((ℕ × ℕ) × Bool) → List ((ℕ × ℕ) × Bool)
  | [] => [(key, live)]
  | (other, otherLive) :: endpoints =>
    if endpointLt key other then (key, live) :: (other, otherLive) :: endpoints
    else if key = other then (other, otherLive || live) :: endpoints
    else (other, otherLive) :: mergeRow key live endpoints

/-- A row which names no endpoint is left out. -/
def addRow (endpoints : List ((ℕ × ℕ) × Bool)) (row : EndpointRow) : List ((ℕ × ℕ) × Bool) :=
  match row.endpoint with
  | none => endpoints
  | some key => mergeRow key row.live endpoints

def captureEndpoints (rows : List EndpointRow) : List ((ℕ × ℕ) × Bool) := rows.foldl addRow []

def stageEndpoint (endpoint : (ℕ × ℕ) × Bool) : List CaptureCommand :=
  targetProtocols.flatMap fun protocol =>
    .add .requiredStage (.ipPort endpoint.1.1 protocol endpoint.1.2) ::
      if endpoint.2 then [.add .liveStage (.ipPort endpoint.1.1 protocol endpoint.1.2)] else []

def prepareStages : List CaptureCommand :=
  [.create .required, .create .requiredStage, .create .live, .create .liveStage,
    .flush .requiredStage, .flush .liveStage]

/-- Revocations become live before the required admission changes. -/
def swapStages : List CaptureCommand :=
  [.swap .liveStage .live, .swap .requiredStage .required, .flush .requiredStage,
    .flush .liveStage]

def captureSetScript (rows : List EndpointRow) : List CaptureCommand :=
  prepareStages ++ (captureEndpoints rows).flatMap stageEndpoint ++ swapStages

def emptyLiveSetScript : List CaptureCommand :=
  [.create .live, .create .liveStage, .flush .liveStage, .swap .liveStage .live,
    .flush .liveStage]

end Script

/-- The gate lets an endpoint pass which is not required, or live. -/
def admitted (sets : CaptureSets) (entry : Entry) : Prop :=
  entry ∉ captureMembers sets .required ∨ entry ∈ captureMembers sets .live

/-- A row is about the endpoint, for either protocol. -/
def EndpointRow.about (row : EndpointRow) (entry : Entry) : Prop :=
  ∃ host port protocol, row.endpoint = some (host, port) ∧ protocol ∈ targetProtocols ∧
    entry = .ipPort host protocol port

section Gate

/-- The sets as the rules of the firewall look them up. -/
structure Mirrors (kernel : Ipsets) (sets : CaptureSets) : Prop where
  required : ∀ entry, entry ∈ members kernel .captureRequired ↔
    entry ∈ captureMembers sets .required
  live : ∀ entry, entry ∈ members kernel .captureLive ↔ entry ∈ captureMembers sets .live

/-- The rule of the gate drops exactly what is not admitted. -/
theorem Mirrors.holds_captureGate_iff {kernel : Ipsets} {sets : CaptureSets}
    (h : Mirrors kernel sets) (packet : Packet) (protocol : Protocol)
    (hin : packet.inInterface = ifname) :
    (captureGate .inInterface .dstDst protocol).holds kernel packet = true ↔
      packet.protocol = protocol ∧ ¬admitted sets (packet.entry .dstDst) := by
  simp [captureGate, Rule.holds, Match.holds, admitted, h.required, h.live, hin]

end Gate

section Run

variable {sets sets' : CaptureSets} {name : CaptureSet} {entry : Entry} {key : ℕ × ℕ}
  {command : CaptureCommand} {script before after : List CaptureCommand} {rows : List EndpointRow}

theorem runScript_append : runScript sets (before ++ after) =
    (runScript sets before).bind (runScript · after) := List.foldlM_append

theorem mem_keys_mergeRow {live : Bool} {endpoints : List ((ℕ × ℕ) × Bool)} {other : ℕ × ℕ} :
    other ∈ (mergeRow key live endpoints).map Prod.fst ↔
      other = key ∨ other ∈ endpoints.map Prod.fst := by
  induction endpoints with
  | nil => simp [mergeRow]
  | cons endpoint endpoints ih =>
      obtain ⟨first, firstLive⟩ := endpoint
      unfold mergeRow
      split
      · simp
      · split
        · next hkey =>
            subst hkey
            simp
        · simp only [List.map_cons, List.mem_cons, ih]
          tauto

theorem live_mem_mergeRow {live : Bool} {endpoints : List ((ℕ × ℕ) × Bool)} {other : ℕ × ℕ} :
    (other, true) ∈ mergeRow key live endpoints ↔
      (other = key ∧ live = true) ∨ (other, true) ∈ endpoints := by
  induction endpoints with
  | nil => simp [mergeRow, eq_comm]
  | cons endpoint endpoints ih =>
      obtain ⟨first, firstLive⟩ := endpoint
      unfold mergeRow
      split
      · simp [eq_comm]
      · split
        · next hkey =>
            subst hkey
            cases firstLive <;> cases live <;> simp
        · simp only [List.mem_cons, ih]
          tauto

theorem mem_keys_foldl {endpoints : List ((ℕ × ℕ) × Bool)} :
    key ∈ (rows.foldl addRow endpoints).map Prod.fst ↔
      key ∈ endpoints.map Prod.fst ∨ ∃ row ∈ rows, row.endpoint = some key := by
  induction rows generalizing endpoints with
  | nil => simp
  | cons row rows ih =>
      rw [List.foldl_cons, ih, addRow]
      cases hrow : row.endpoint with
      | none => simp [hrow]
      | some other =>
          dsimp only
          rw [mem_keys_mergeRow, or_assoc, or_left_comm, @eq_comm _ key other]
          simp only [List.mem_cons, exists_eq_or_imp, hrow, Option.some.injEq]

theorem live_mem_foldl {endpoints : List ((ℕ × ℕ) × Bool)} :
    (key, true) ∈ rows.foldl addRow endpoints ↔
      (key, true) ∈ endpoints ∨ ∃ row ∈ rows, row.live = true ∧ row.endpoint = some key := by
  induction rows generalizing endpoints with
  | nil => simp
  | cons row rows ih =>
      rw [List.foldl_cons, ih, addRow]
      cases hrow : row.endpoint with
      | none => simp [hrow]
      | some other =>
          dsimp only
          rw [live_mem_mergeRow, or_assoc, or_left_comm, and_comm, @eq_comm _ key other]
          simp only [List.mem_cons, exists_eq_or_imp, hrow, Option.some.injEq]

theorem mem_stageEndpoint_required {endpoint : (ℕ × ℕ) × Bool} :
    .add .requiredStage entry ∈ stageEndpoint endpoint ↔
      ∃ protocol ∈ targetProtocols, entry = .ipPort endpoint.1.1 protocol endpoint.1.2 := by
  cases hlive : endpoint.2 <;> simp [stageEndpoint, hlive]

theorem mem_stageEndpoint_live {endpoint : (ℕ × ℕ) × Bool} :
    .add .liveStage entry ∈ stageEndpoint endpoint ↔ endpoint.2 = true ∧
      ∃ protocol ∈ targetProtocols, entry = .ipPort endpoint.1.1 protocol endpoint.1.2 := by
  cases hlive : endpoint.2 <;> simp [stageEndpoint, hlive]

/-- The entries which the script stages as required are those of its rows. -/
theorem mem_stages_required :
    .add .requiredStage entry ∈ (captureEndpoints rows).flatMap stageEndpoint ↔
      ∃ row ∈ rows, row.about entry := by
  have hkey : ∀ key : ℕ × ℕ, (∃ endpoint ∈ captureEndpoints rows, endpoint.1 = key) ↔
      ∃ row ∈ rows, row.endpoint = some key := by
    intro key
    have h : key ∈ (rows.foldl addRow []).map Prod.fst ↔
        key ∈ [] ∨ ∃ row ∈ rows, row.endpoint = some key := mem_keys_foldl
    rwa [List.mem_map, iff_false_intro List.not_mem_nil, false_or] at h
  simp only [List.mem_flatMap, mem_stageEndpoint_required]
  constructor
  · rintro ⟨endpoint, hmem, protocol, hprotocol, rfl⟩
    obtain ⟨row, hrow, hsome⟩ := (hkey endpoint.1).mp ⟨endpoint, hmem, rfl⟩
    exact ⟨row, hrow, endpoint.1.1, endpoint.1.2, protocol, hsome, hprotocol, rfl⟩
  · rintro ⟨row, hrow, host, port, protocol, hsome, hprotocol, rfl⟩
    obtain ⟨endpoint, hmem, hendpoint⟩ := (hkey (host, port)).mpr ⟨row, hrow, hsome⟩
    exact ⟨endpoint, hmem, protocol, hprotocol, by rw [hendpoint]⟩

theorem mem_stages_live :
    .add .liveStage entry ∈ (captureEndpoints rows).flatMap stageEndpoint ↔
      ∃ row ∈ rows, row.live = true ∧ row.about entry := by
  have hkey : ∀ key : ℕ × ℕ, (key, true) ∈ captureEndpoints rows ↔
      ∃ row ∈ rows, row.live = true ∧ row.endpoint = some key := by
    intro key
    have h : (key, true) ∈ rows.foldl addRow [] ↔
        (key, true) ∈ [] ∨ ∃ row ∈ rows, row.live = true ∧ row.endpoint = some key :=
      live_mem_foldl
    rwa [iff_false_intro List.not_mem_nil, false_or] at h
  simp only [List.mem_flatMap, mem_stageEndpoint_live]
  constructor
  · rintro ⟨⟨key, live⟩, hmem, hlive, protocol, hprotocol, rfl⟩
    dsimp only at hlive
    subst hlive
    obtain ⟨row, hrow, hrowLive, hsome⟩ := (hkey key).mp hmem
    exact ⟨row, hrow, hrowLive, key.1, key.2, protocol, hsome, hprotocol, rfl⟩
  · rintro ⟨row, hrow, hlive, host, port, protocol, hsome, hprotocol, rfl⟩
    exact ⟨((host, port), true), (hkey (host, port)).mpr ⟨row, hrow, hlive, hsome⟩, rfl, protocol,
      hprotocol, rfl⟩

/-- The command may change the members of the set. -/
def CaptureCommand.touches (name : CaptureSet) : CaptureCommand → Bool
  | .create _ => false
  | .flush other => other = name
  | .add other _ => other = name
  | .swap left right => left = name || right = name

theorem captureMembers_run (h : command.run sets = some sets')
    (htouches : command.touches name = false) :
    captureMembers sets' name = captureMembers sets name := by
  cases command with
  | create other =>
      obtain rfl := Option.some.inj h
      by_cases hname : name = other
      · subst hname
        simp [captureMembers]
      · simp [captureMembers, hname]
  | flush other =>
      have hname : name ≠ other := by simpa [CaptureCommand.touches, eq_comm] using htouches
      obtain ⟨entries, -, rfl⟩ := Option.map_eq_some_iff.mp h
      simp [captureMembers, hname]
  | add other entry =>
      have hname : name ≠ other := by simpa [CaptureCommand.touches, eq_comm] using htouches
      obtain ⟨entries, hentries, h⟩ := Option.bind_eq_some_iff.mp h
      split at h
      · rw [← Option.some.inj h]
      · split at h
        · cases h
        · rw [← Option.some.inj h]
          simp [captureMembers, hname]
  | swap left right =>
      simp only [CaptureCommand.touches, Bool.or_eq_false_iff, decide_eq_false_iff_not]
        at htouches
      obtain ⟨leftEntries, -, h⟩ := Option.bind_eq_some_iff.mp h
      obtain ⟨rightEntries, -, h⟩ := Option.bind_eq_some_iff.mp h
      rw [← Option.some.inj h]
      simp [captureMembers, Ne.symm htouches.1, Ne.symm htouches.2]

theorem captureMembers_runScript (h : runScript sets script = some sets')
    (htouches : ∀ command ∈ script, command.touches name = false) :
    captureMembers sets' name = captureMembers sets name := by
  induction script generalizing sets with
  | nil => rw [← Option.some.inj h]
  | cons command script ih =>
      rw [runScript, List.foldlM_cons] at h
      obtain ⟨middle, hrun, hscript⟩ := Option.bind_eq_some_iff.mp h
      rw [ih hscript fun c hc => htouches c (List.mem_cons_of_mem _ hc),
        captureMembers_run hrun (htouches command List.mem_cons_self)]

/-- All sets of the gate exist. -/
def filled (required requiredStage live liveStage : Finset Entry) : CaptureSets
  | .required => some required
  | .requiredStage => some requiredStage
  | .live => some live
  | .liveStage => some liveStage

theorem runScript_prepareStages : runScript sets prepareStages =
    some (filled (captureMembers sets .required) ∅ (captureMembers sets .live) ∅) := by
  simp only [runScript, prepareStages, List.foldlM_cons, List.foldlM_nil, CaptureCommand.run,
    Option.bind_eq_bind, Option.bind_some, Option.pure_def]
  refine congrArg some (funext fun name => ?_)
  cases name <;> simp [filled, captureMembers]

section Stages

variable {required requiredStage live liveStage : Finset Entry}

def addEntry (entry : Entry) (entries : Finset Entry) : Option (Finset Entry) :=
  if entry ∈ entries then some entries
  else if maxElem ≤ entries.card then none
  else some (insert entry entries)

theorem mem_addEntry {entries entries' : Finset Entry} (h : addEntry entry entries = some entries')
    {other : Entry} : other ∈ entries' ↔ other ∈ entries ∨ other = entry := by
  unfold addEntry at h
  split at h
  · next hmem =>
      rw [← Option.some.inj h, or_iff_left_of_imp]
      exact fun heq => heq ▸ hmem
  · split at h
    · cases h
    · rw [← Option.some.inj h, Finset.mem_insert, or_comm]

theorem card_addEntry {entries entries' : Finset Entry} (h : addEntry entry entries = some entries') :
    entries'.card ≤ entries.card + 1 := by
  unfold addEntry at h
  split at h
  · rw [← Option.some.inj h]
    exact Nat.le_succ _
  · split at h
    · cases h
    · rw [← Option.some.inj h]
      exact Finset.card_insert_le entry entries

theorem isSome_addEntry {entries : Finset Entry} (h : entries.card < maxElem) :
    (addEntry entry entries).isSome = true := by
  unfold addEntry
  split
  · rfl
  · rw [if_neg (not_le.mpr h)]
    rfl

theorem run_add_required : (CaptureCommand.add .requiredStage entry).run
      (filled required requiredStage live liveStage) =
    (addEntry entry requiredStage).map fun stage => filled required stage live liveStage := by
  simp only [CaptureCommand.run, filled, addEntry, Option.bind_eq_bind, Option.bind_some]
  split
  · rfl
  · split
    · rfl
    · refine congrArg some (funext fun name => ?_)
      cases name <;> simp [filled]

theorem run_add_live : (CaptureCommand.add .liveStage entry).run
      (filled required requiredStage live liveStage) =
    (addEntry entry liveStage).map fun stage => filled required requiredStage live stage := by
  simp only [CaptureCommand.run, filled, addEntry, Option.bind_eq_bind, Option.bind_some]
  split
  · rfl
  · split
    · rfl
    · refine congrArg some (funext fun name => ?_)
      cases name <;> simp [filled]

/-- The stages after the endpoints were added, whatever the gate looks up meanwhile. -/
structure Staged (script : List CaptureCommand) (requiredStage liveStage : Finset Entry)
    (stages : Option (Finset Entry × Finset Entry)) : Prop where
  run : ∀ required live, runScript (filled required requiredStage live liveStage) script =
    stages.map fun stages => filled required stages.1 live stages.2
  required : ∀ staged ∈ stages, ∀ entry, entry ∈ staged.1 ↔
    entry ∈ requiredStage ∨ .add .requiredStage entry ∈ script
  live : ∀ staged ∈ stages, ∀ entry, entry ∈ staged.2 ↔
    entry ∈ liveStage ∨ .add .liveStage entry ∈ script
  isSome : requiredStage.card + script.length ≤ maxElem →
    liveStage.card + script.length ≤ maxElem → stages.isSome = true

/-- The command adds to a stage. -/
def CaptureCommand.stages : CaptureCommand → Bool
  | .add name _ => name = .requiredStage || name = .liveStage
  | _ => false

theorem Staged.cons_required {stage : Finset Entry}
    {stages : Option (Finset Entry × Finset Entry)} (hadd : addEntry entry requiredStage = some stage)
    (h : Staged script stage liveStage stages) :
    Staged (.add .requiredStage entry :: script) requiredStage liveStage stages where
  run := by
    intro required live
    rw [runScript, List.foldlM_cons, run_add_required, hadd]
    exact h.run required live
  required := by
    intro staged hstaged other
    rw [h.required staged hstaged, mem_addEntry hadd]
    simp [or_assoc]
  live := by
    intro staged hstaged other
    rw [h.live staged hstaged]
    simp
  isSome := by
    intro hrequired hlive
    rw [List.length_cons] at hrequired hlive
    have hcard := card_addEntry hadd
    exact h.isSome (by omega) (by omega)

theorem Staged.cons_live {stage : Finset Entry}
    {stages : Option (Finset Entry × Finset Entry)} (hadd : addEntry entry liveStage = some stage)
    (h : Staged script requiredStage stage stages) :
    Staged (.add .liveStage entry :: script) requiredStage liveStage stages where
  run := by
    intro required live
    rw [runScript, List.foldlM_cons, run_add_live, hadd]
    exact h.run required live
  required := by
    intro staged hstaged other
    rw [h.required staged hstaged]
    simp
  live := by
    intro staged hstaged other
    rw [h.live staged hstaged, mem_addEntry hadd]
    simp [or_assoc]
  isSome := by
    intro hrequired hlive
    rw [List.length_cons] at hrequired hlive
    have hcard := card_addEntry hadd
    exact h.isSome (by omega) (by omega)

theorem exists_staged (h : ∀ command ∈ script, command.stages = true)
    (requiredStage liveStage : Finset Entry) :
    ∃ stages, Staged script requiredStage liveStage stages := by
  induction script generalizing requiredStage liveStage with
  | nil =>
      refine ⟨some (requiredStage, liveStage), ?_⟩
      constructor <;> simp [runScript]
  | cons command script ih =>
      have hscript := ih fun c hc => h c (List.mem_cons_of_mem _ hc)
      have hcommand := h command List.mem_cons_self
      cases command with
      | add name entry =>
          simp only [CaptureCommand.stages, Bool.or_eq_true, decide_eq_true_eq] at hcommand
          rcases hcommand with rfl | rfl
          · cases hadd : addEntry entry requiredStage with
            | none =>
                refine ⟨none, fun required live => ?_, by simp, by simp, fun hcard _ => ?_⟩
                · rw [runScript, List.foldlM_cons, run_add_required, hadd]
                  rfl
                · rw [List.length_cons] at hcard
                  have hsome : (addEntry entry requiredStage).isSome = true :=
                    isSome_addEntry (by omega)
                  simp [hadd] at hsome
            | some stage =>
                obtain ⟨stages, hstages⟩ := hscript stage liveStage
                exact ⟨stages, hstages.cons_required hadd⟩
          · cases hadd : addEntry entry liveStage with
            | none =>
                refine ⟨none, fun required live => ?_, by simp, by simp, fun _ hcard => ?_⟩
                · rw [runScript, List.foldlM_cons, run_add_live, hadd]
                  rfl
                · rw [List.length_cons] at hcard
                  have hsome : (addEntry entry liveStage).isSome = true :=
                    isSome_addEntry (by omega)
                  simp [hadd] at hsome
            | some stage =>
                obtain ⟨stages, hstages⟩ := hscript requiredStage stage
                exact ⟨stages, hstages.cons_live hadd⟩
      | create name => simp [CaptureCommand.stages] at hcommand
      | flush name => simp [CaptureCommand.stages] at hcommand
      | swap left right => simp [CaptureCommand.stages] at hcommand

end Stages

/-- The sets are those of the rows, and the stages are empty. -/
structure Installed (rows : List EndpointRow) (sets : CaptureSets) : Prop where
  required : ∀ entry, entry ∈ captureMembers sets .required ↔ ∃ row ∈ rows, row.about entry
  live : ∀ entry, entry ∈ captureMembers sets .live ↔
    ∃ row ∈ rows, row.live = true ∧ row.about entry
  requiredStage : sets .requiredStage = some ∅
  liveStage : sets .liveStage = some ∅

/-- Wherever the script stops, an endpoint which was required and is one of the rows passes the
gate only if it was live or is.  The whole script installs the rows, and a second run changes
nothing. -/
structure SafeReplacement (sets : CaptureSets) (rows : List EndpointRow) : Prop where
  closed : ∀ script, script <+: captureSetScript rows → ∀ sets',
    runScript sets script = some sets' → ∀ entry ∈ captureMembers sets .required,
      (∃ row ∈ rows, row.about entry) → admitted sets' entry →
        entry ∈ captureMembers sets .live ∨ ∃ row ∈ rows, row.live = true ∧ row.about entry
  installed : ∀ sets', runScript sets (captureSetScript rows) = some sets' → Installed rows sets'
  idempotent : ∀ sets', runScript sets (captureSetScript rows) = some sets' →
    runScript sets' (captureSetScript rows) = some sets'

theorem stages_captureEndpoints : ∀ command ∈ (captureEndpoints rows).flatMap stageEndpoint,
    command.stages = true := by
  intro command hcommand
  obtain ⟨endpoint, -, hmem⟩ := List.mem_flatMap.mp hcommand
  obtain ⟨protocol, -, hmem⟩ := List.mem_flatMap.mp hmem
  rcases List.mem_cons.mp hmem with rfl | hmem
  · rfl
  · split at hmem
    · rw [List.mem_singleton.mp hmem]
      rfl
    · cases hmem

theorem touches_of_stages (h : command.stages = true) (hname : name = .required ∨ name = .live) :
    command.touches name = false := by
  cases command with
  | add other entry =>
      simp only [CaptureCommand.stages, Bool.or_eq_true, decide_eq_true_eq] at h
      rcases h with rfl | rfl <;> rcases hname with rfl | rfl <;> rfl
  | create other => cases h
  | flush other => cases h
  | swap left right => cases h

/-- Before the stages are swapped in, the gate looks up what it did before. -/
theorem untouched_of_prefix {adds : List CaptureCommand}
    (hadds : ∀ command ∈ adds, command.stages = true) (hscript : script <+: prepareStages ++ adds)
    (hrun : runScript sets script = some sets') (hname : name = .required ∨ name = .live) :
    captureMembers sets' name = captureMembers sets name := by
  refine captureMembers_runScript hrun fun command hcommand => ?_
  rcases List.mem_append.mp (hscript.subset hcommand) with hprepare | hadd
  · have hall : ∀ command ∈ prepareStages, ∀ name : CaptureSet, name = .required ∨ name = .live →
        command.touches name = false := by
      rintro command hcommand name (rfl | rfl) <;> revert command <;> decide
    exact hall command hprepare name hname
  · exact touches_of_stages (hadds command hadd) hname

/-- The states which the gate passes through while the stages are swapped in. -/
theorem runScript_prefix_swapStages {required requiredStage live liveStage : Finset Entry}
    (hscript : script <+: swapStages)
    (hrun : runScript (filled required requiredStage live liveStage) script = some sets') :
    (captureMembers sets' .required = required ∧ captureMembers sets' .live = live) ∨
      (captureMembers sets' .live = liveStage ∧
        (captureMembers sets' .required = required ∨
          captureMembers sets' .required = requiredStage)) := by
  rw [← List.mem_inits] at hscript
  simp only [swapStages, List.inits, List.map_cons, List.map_nil, List.mem_cons, List.not_mem_nil,
    or_false] at hscript
  rcases hscript with rfl | rfl | rfl | rfl | rfl <;> obtain rfl := Option.some.inj hrun <;>
    simp [captureMembers, filled]

theorem runScript_swapStages {required requiredStage live liveStage : Finset Entry} :
    runScript (filled required requiredStage live liveStage) swapStages =
      some (filled requiredStage ∅ liveStage ∅) := by
  refine congrArg some (funext fun name => ?_)
  cases name <;> simp [filled]

end Run

/-- What the whole script does depends on its rows alone. -/
theorem exists_installed (rows : List EndpointRow) :
    ∃ stages : Option (Finset Entry × Finset Entry),
      (∀ sets, runScript sets (captureSetScript rows) =
        stages.map fun stages => filled stages.1 ∅ stages.2 ∅) ∧
      ∀ staged ∈ stages, Installed rows (filled staged.1 ∅ staged.2 ∅) := by
  obtain ⟨stages, hstages⟩ := exists_staged (@stages_captureEndpoints rows) ∅ ∅
  refine ⟨stages, fun sets => ?_, fun staged hstaged => ⟨fun entry => ?_, fun entry => ?_, rfl, rfl⟩⟩
  · rw [captureSetScript, runScript_append, runScript_append, runScript_prepareStages,
      Option.bind_some, hstages.run]
    cases stages with
    | none => rfl
    | some staged => exact runScript_swapStages
  · have h := hstages.required staged hstaged entry
    rwa [mem_stages_required, iff_false_intro (Finset.notMem_empty entry), false_or] at h
  · have h := hstages.live staged hstaged entry
    rwa [mem_stages_live, iff_false_intro (Finset.notMem_empty entry), false_or] at h

theorem closed_of_prefix {sets sets' : CaptureSets} {rows : List EndpointRow}
    {script : List CaptureCommand} {entry : Entry} (hscript : script <+: captureSetScript rows)
    (hrun : runScript sets script = some sets') (hrequired : entry ∈ captureMembers sets .required)
    (hrow : ∃ row ∈ rows, row.about entry) (hadmitted : admitted sets' entry) :
    entry ∈ captureMembers sets .live ∨ ∃ row ∈ rows, row.live = true ∧ row.about entry := by
  have hstages := @stages_captureEndpoints rows
  rcases List.prefix_or_prefix_of_prefix hscript (List.prefix_append _ swapStages) with
    hbefore | ⟨rest, rfl⟩
  · rw [admitted, untouched_of_prefix hstages hbefore hrun (.inl rfl),
      untouched_of_prefix hstages hbefore hrun (.inr rfl)] at hadmitted
    exact .inl (hadmitted.resolve_left (not_not_intro hrequired))
  · obtain ⟨stages, hstaged⟩ := exists_staged hstages ∅ ∅
    have hrest : rest <+: swapStages := List.prefix_append_right_inj _ |>.mp hscript
    rw [runScript_append, runScript_append, runScript_prepareStages, Option.bind_some,
      hstaged.run] at hrun
    obtain ⟨middle, hmiddle, hrun⟩ := Option.bind_eq_some_iff.mp hrun
    obtain ⟨staged, hsome, rfl⟩ := Option.map_eq_some_iff.mp hmiddle
    have hrequiredStage : entry ∈ staged.1 := by
      rw [hstaged.required staged hsome, mem_stages_required]
      exact .inr hrow
    rcases runScript_prefix_swapStages hrest hrun with ⟨hreq, hlive⟩ | ⟨hlive, hreq⟩
    · rw [admitted, hreq, hlive] at hadmitted
      exact .inl (hadmitted.resolve_left (not_not_intro hrequired))
    · -- the new live set is in use, and the endpoint is required by the old rows and the new
      have hmem : entry ∈ captureMembers sets' .required := by
        rcases hreq with hreq | hreq <;> rw [hreq] <;> assumption
      have hnew := hadmitted.resolve_left (not_not_intro hmem)
      rw [hlive, hstaged.live staged hsome, mem_stages_live] at hnew
      exact .inr (hnew.resolve_left (Finset.notMem_empty entry))

theorem captureSetScript_safe (sets : CaptureSets) (rows : List EndpointRow) :
    SafeReplacement sets rows := by
  obtain ⟨stages, hrun, hinstalled⟩ := exists_installed rows
  refine ⟨fun script hscript sets' hscriptRun entry => closed_of_prefix hscript hscriptRun,
    fun sets' h => ?_, fun sets' h => ?_⟩
  · rw [hrun sets] at h
    obtain ⟨staged, hstaged, rfl⟩ := Option.map_eq_some_iff.mp h
    exact hinstalled staged hstaged
  · rw [← h, hrun, hrun]

/-- The script runs to its end unless there are too many endpoints for a set. -/
theorem isSome_runScript_captureSetScript (sets : CaptureSets) (rows : List EndpointRow)
    (h : ((captureEndpoints rows).flatMap stageEndpoint).length ≤ maxElem) :
    (runScript sets (captureSetScript rows)).isSome = true := by
  obtain ⟨stages, hstages⟩ := exists_staged (@stages_captureEndpoints rows) ∅ ∅
  have hsome := hstages.isSome (by simpa using h) (by simpa using h)
  obtain ⟨staged, rfl⟩ := Option.isSome_iff_exists.mp hsome
  rw [captureSetScript, runScript_append, runScript_append, runScript_prepareStages,
    Option.bind_some, hstages.run, Option.map_some, Option.bind_some, runScript_swapStages]
  rfl

/-- The fence of a stopped owner leaves no required endpoint open. -/
theorem emptyLiveSetScript_closes (sets : CaptureSets) :
    ∃ sets', runScript sets emptyLiveSetScript = some sets' ∧
      ∀ entry, admitted sets' entry ↔ entry ∉ captureMembers sets .required := by
  refine ⟨_, rfl, fun entry => ?_⟩
  simp [admitted, captureMembers]

end Vpn

end Rsctf
