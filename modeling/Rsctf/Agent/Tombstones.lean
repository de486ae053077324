import Mathlib.Data.List.Perm.Basic
import Rsctf.Agent.Docker

/-!
# Deletion fences on disk

The agent remembers the deletion of a workload in a directory with one file for each
recorded generation; the contents of a file are the hash of the deleted specification.  The
recording of a deletion is given by the directories which it goes through, so a crash leaves
one of them.
-/

open Fallible

namespace Rsctf

namespace Agent

/-- A file `<generation>-<assignment>.tombstone`. -/
structure TombstoneFile where
  generation : ℕ
  assignmentId : ℕ
  contents : ByteArray

def TombstoneFile.name (file : TombstoneFile) : ℕ × ℕ := (file.generation, file.assignmentId)

theorem TombstoneFile.name_eq {file : TombstoneFile} {generation assignmentId : ℕ}
    (h : file.name = (generation, assignmentId)) :
    file.generation = generation ∧ file.assignmentId = assignmentId :=
  Prod.ext_iff.mp h

/-- The directory of a workload, if it exists. -/
abbrev Directory := Option (List TombstoneFile)

def Directory.files (directory : Directory) : List TombstoneFile := directory.getD []

/-- The order in which a directory is read is not specified. -/
structure Listing where
  order : List TombstoneFile → List TombstoneFile
  perm : ∀ files, (order files).Perm files

def Listing.written : Listing := ⟨id, fun files => .refl files⟩

def invalidTombstone : RuntimeError := .new .internal "workload deletion fence is invalid"

def invalidEncoding : RuntimeError :=
  .new .internal "persist workload deletion fence: stream did not contain valid UTF-8"

def isAsciiHexdigit (byte : UInt8) : Bool :=
  (48 ≤ byte && byte ≤ 57) || (65 ≤ byte && byte ≤ 70) || (97 ≤ byte && byte ≤ 102)

def isSpecHash (specHash : String) : Bool :=
  specHash.utf8ByteSize = 64 && specHash.toByteArray.toList.all isAsciiHexdigit

def readToString (contents : ByteArray) : Except RuntimeError String :=
  match String.fromUTF8? contents with
  | some text => return text
  | none => throw invalidEncoding

def readTombstone (file : TombstoneFile) : Except RuntimeError Tombstone := do
  let specHash ← readToString file.contents
  if isSpecHash specHash then return ⟨file.assignmentId, file.generation, specHash⟩
  else throw invalidTombstone

/-- The later of two tombstones of one assignment. -/
def later (latest : Option Tombstone) (file : TombstoneFile) :
    Except RuntimeError (Option Tombstone) := do
  let candidate ← readTombstone file
  match latest with
  | none => return some candidate
  | some current =>
    if current.assignmentId ≠ candidate.assignmentId then throw invalidTombstone
    else if current.generation < candidate.generation then return some candidate
    else return some current

def Directory.latest (listing : Listing) : Directory → Except RuntimeError (Option Tombstone)
  | none => return none
  | some files => (listing.order files).foldlM later none

def Directory.rejectStalePresent (listing : Listing) (directory : Directory)
    (fence : WorkloadFence) : Except RuntimeError Unit := do
  match ← directory.latest listing with
  | none => return ()
  | some latest =>
    if latest.assignmentId ≠ fence.assignmentId then
      throw (.new .staleAssignment "a different workload assignment was already removed")
    else if fence.generation ≤ latest.generation then
      throw (.new .staleGeneration "this workload generation was already removed")
    else return ()

def Directory.validateAbsent (listing : Listing) (directory : Directory) (fence : WorkloadFence)
    (specHash : String) : Except RuntimeError Bool := do
  match ← directory.latest listing with
  | none => return true
  | some latest =>
    if latest.assignmentId ≠ fence.assignmentId then return false
    else if fence.generation < latest.generation then return false
    else if fence.generation = latest.generation ∧ latest.specHash ≠ specHash then
      throw (.new .specConflict "removed workload generation has a different spec hash")
    else return true

section Record

/-- The directories which a change goes through, and its result. -/
abbrev Changes := List Directory × Except RuntimeError Unit

/-- Remove the files of lower generations, in the order of a listing. -/
def compact (fence : WorkloadFence) : List TombstoneFile → List TombstoneFile → Changes
  | [], _ => ([], return ())
  | file :: listed, files =>
    if file.assignmentId ≠ fence.assignmentId ∨ fence.generation < file.generation then
      ([], throw invalidTombstone)
    else if file.generation < fence.generation then
      let remaining := files.filter (·.name ≠ file.name)
      let (states, result) := compact fence listed remaining
      (some remaining :: states, result)
    else compact fence listed files

/-- The new file when some bytes of its contents are written. -/
def partialFile (fence : WorkloadFence) (specHash : String) (length : ℕ) : TombstoneFile :=
  ⟨fence.generation, fence.assignmentId, specHash.toByteArray.extract 0 length⟩

/-- Record a deletion.  The first directory is the one before, and the second one exists; a
new file appears empty and is then written byte by byte. -/
def record (listing : Listing) (directory : Directory) (fence : WorkloadFence)
    (specHash : String) : Changes :=
  let files := directory.files
  match files.find? (·.name = (fence.generation, fence.assignmentId)) with
  | none =>
    let written := files ++ [partialFile fence specHash specHash.utf8ByteSize]
    let (removals, result) := compact fence (listing.order written) written
    (directory :: some files :: (List.range (specHash.utf8ByteSize + 1)).map
      (fun length => some (files ++ [partialFile fence specHash length])) ++ removals, result)
  | some existing =>
    match readToString existing.contents with
    | .error error => ([directory, some files], throw error)
    | .ok contents =>
      if contents = specHash then
        let (removals, result) := compact fence (listing.order files) files
        (directory :: some files :: removals, result)
      else ([directory, some files],
        throw (.new .specConflict "workload tombstone has a different spec hash"))

end Record

section Latest

variable {listing : Listing} {directory : Directory} {file : TombstoneFile}

theorem readTombstone_fields {tombstone : Tombstone} (h : readTombstone file = .ok tombstone) :
    readToString file.contents = .ok tombstone.specHash ∧ isSpecHash tombstone.specHash ∧
      tombstone.assignmentId = file.assignmentId ∧ tombstone.generation = file.generation := by
  obtain ⟨specHash, hread, hrest⟩ := bind_eq_ok_iff.mp h
  split at hrest
  · next hhash =>
      obtain rfl := pure_eq_ok_iff.mp hrest
      exact ⟨hread, hhash, rfl, rfl⟩
  · cases hrest

theorem readTombstone_of_contents {specHash : String}
    (h : readToString file.contents = .ok specHash) (hhash : isSpecHash specHash) :
    readTombstone file = .ok ⟨file.assignmentId, file.generation, specHash⟩ := by
  simp only [readTombstone, h]
  exact if_pos hhash

/-- A tombstone is at least as late as a file of its assignment. -/
def Tombstone.Covers (tombstone : Tombstone) (file : TombstoneFile) : Prop :=
  file.assignmentId = tombstone.assignmentId ∧ file.generation ≤ tombstone.generation

theorem later_eq_ok {latest result : Option Tombstone} (h : later latest file = .ok result) :
    ∃ tombstone candidate, result = some tombstone ∧ readTombstone file = .ok candidate ∧
      tombstone.Covers file ∧ (tombstone = candidate ∨ latest = some tombstone) ∧
      ∀ current, latest = some current → current.assignmentId = tombstone.assignmentId ∧
        current.generation ≤ tombstone.generation := by
  obtain ⟨candidate, hread, hrest⟩ := bind_eq_ok_iff.mp h
  obtain ⟨_, _, hassignment, hgeneration⟩ := readTombstone_fields hread
  cases latest with
  | none =>
      obtain rfl := pure_eq_ok_iff.mp hrest
      refine ⟨candidate, candidate, rfl, hread, ⟨hassignment.symm, hgeneration.ge⟩, .inl rfl, ?_⟩
      intro current hcurrent
      cases hcurrent
  | some current =>
      simp only at hrest
      split at hrest
      · cases hrest
      · next hsame =>
          have hsame := not_not.mp hsame
          split at hrest
          · next hlater =>
              obtain rfl := pure_eq_ok_iff.mp hrest
              refine ⟨candidate, candidate, rfl, hread, ⟨hassignment.symm, hgeneration.ge⟩,
                .inl rfl, ?_⟩
              intro other hother
              cases hother
              exact ⟨hsame, hlater.le⟩
          · next hearlier =>
              obtain rfl := pure_eq_ok_iff.mp hrest
              refine ⟨current, candidate, rfl, hread, ⟨?_, ?_⟩, .inr rfl, ?_⟩
              · rw [hsame, hassignment]
              · rw [← hgeneration]
                exact Nat.le_of_not_lt hearlier
              · intro other hother
                cases hother
                exact ⟨rfl, Nat.le_refl _⟩

theorem foldlM_later {files : List TombstoneFile} {latest result : Option Tombstone}
    (h : files.foldlM later latest = .ok result) :
    (∀ file ∈ files, (∃ candidate, readTombstone file = .ok candidate) ∧
      ∃ tombstone, result = some tombstone ∧ tombstone.Covers file) ∧
    (∀ tombstone, result = some tombstone →
      latest = some tombstone ∨ ∃ file ∈ files, readTombstone file = .ok tombstone) ∧
    ∀ current, latest = some current → ∃ tombstone, result = some tombstone ∧
      current.assignmentId = tombstone.assignmentId ∧
      current.generation ≤ tombstone.generation := by
  induction files generalizing latest with
  | nil =>
      obtain rfl := pure_eq_ok_iff.mp h
      exact ⟨by simp, fun tombstone => .inl, fun current hcurrent => ⟨current, hcurrent, rfl, le_rfl⟩⟩
  | cons file files ih =>
      rw [List.foldlM_cons] at h
      obtain ⟨next, hfirst, hrest⟩ := bind_eq_ok_iff.mp h
      obtain ⟨middle, candidate, rfl, hread, hcovers, horigin, hbefore⟩ := later_eq_ok hfirst
      obtain ⟨hfiles, hresult, hmiddle⟩ := ih hrest
      obtain ⟨last, rfl, hassignment, hgeneration⟩ := hmiddle middle rfl
      refine ⟨fun other hother => ?_, fun tombstone htombstone => ?_, fun current hcurrent => ?_⟩
      · rcases List.mem_cons.mp hother with rfl | hother
        · exact ⟨⟨candidate, hread⟩, last, rfl, hcovers.1.trans hassignment,
            hcovers.2.trans hgeneration⟩
        · exact hfiles other hother
      · rcases hresult tombstone htombstone with hnext | ⟨other, hother, hread'⟩
        · cases hnext
          rcases horigin with rfl | hlatest
          · exact .inr ⟨file, List.mem_cons_self, hread⟩
          · exact .inl hlatest
        · exact .inr ⟨other, List.mem_cons_of_mem _ hother, hread'⟩
      · obtain ⟨hsame, hle⟩ := hbefore current hcurrent
        exact ⟨last, rfl, hsame.trans hassignment, hle.trans hgeneration⟩

/-- Readable files of one assignment have a latest tombstone. -/
theorem exists_foldlM_later (assignmentId : ℕ) {files : List TombstoneFile}
    {latest : Option Tombstone}
    (hfiles : ∀ file ∈ files, file.assignmentId = assignmentId ∧
      ∃ tombstone, readTombstone file = .ok tombstone)
    (hlatest : ∀ current, latest = some current → current.assignmentId = assignmentId) :
    ∃ result, files.foldlM later latest = .ok result := by
  induction files generalizing latest with
  | nil => exact ⟨latest, rfl⟩
  | cons file files ih =>
      obtain ⟨hassignment, candidate, hread⟩ := hfiles file List.mem_cons_self
      have hcandidate := (readTombstone_fields hread).2.2.1.trans hassignment
      have hrest : ∀ file ∈ files, file.assignmentId = assignmentId ∧
          ∃ tombstone, readTombstone file = .ok tombstone :=
        fun other hother => hfiles other (List.mem_cons_of_mem _ hother)
      obtain ⟨next, hnext, hsame⟩ : ∃ next, later latest file = .ok (some next) ∧
          next.assignmentId = assignmentId := by
        cases latest with
        | none =>
            refine ⟨candidate, ?_, hcandidate⟩
            simp only [later, hread]
            rfl
        | some current =>
            have hcurrent := hlatest current rfl
            by_cases hlater : current.generation < candidate.generation
            · refine ⟨candidate, ?_, hcandidate⟩
              simp only [later, hread, bind, Except.bind, hcurrent, hcandidate, ne_eq,
                not_true_eq_false, if_false, if_pos hlater]
              rfl
            · refine ⟨current, ?_, hcurrent⟩
              simp only [later, hread, bind, Except.bind, hcurrent, hcandidate, ne_eq,
                not_true_eq_false, if_false, if_neg hlater]
              rfl
      have hnext' : ∀ current, some next = some current → current.assignmentId = assignmentId := by
        intro current hcurrent
        cases hcurrent
        exact hsame
      obtain ⟨result, hresult⟩ := ih hrest hnext'
      refine ⟨result, ?_⟩
      rw [List.foldlM_cons, hnext]
      exact hresult

theorem Directory.latest_eq_foldlM :
    directory.latest listing = (listing.order directory.files).foldlM later none := by
  cases directory with
  | none =>
      have hnil : listing.order [] = [] := (listing.perm []).eq_nil
      simp only [Directory.latest, Directory.files, Option.getD_none, hnil]
      rfl
  | some files => rfl

theorem Listing.mem_order {files : List TombstoneFile} : file ∈ listing.order files ↔ file ∈ files :=
  (listing.perm files).mem_iff

theorem Directory.latest_covers {result : Option Tombstone}
    (h : directory.latest listing = .ok result) (hfile : file ∈ directory.files) :
    (∃ candidate, readTombstone file = .ok candidate) ∧
      ∃ tombstone, result = some tombstone ∧ tombstone.Covers file := by
  rw [Directory.latest_eq_foldlM] at h
  exact (foldlM_later h).1 file (Listing.mem_order.mpr hfile)

theorem Directory.exists_file_of_latest {tombstone : Tombstone}
    (h : directory.latest listing = .ok (some tombstone)) :
    ∃ file ∈ directory.files, readTombstone file = .ok tombstone := by
  rw [Directory.latest_eq_foldlM] at h
  rcases (foldlM_later h).2.1 tombstone rfl with hnone | ⟨file, hfile, hread⟩
  · cases hnone
  · exact ⟨file, Listing.mem_order.mp hfile, hread⟩

/-- Every file is readable and belongs to one assignment, and names are unique. -/
structure Directory.Sound (directory : Directory) : Prop where
  readable : ∀ file ∈ directory.files, ∃ tombstone, readTombstone file = .ok tombstone
  assignment : ∀ file ∈ directory.files, ∀ other ∈ directory.files,
    file.assignmentId = other.assignmentId
  names : (directory.files.map (·.name)).Nodup

namespace Directory.Sound

theorem exists_latest (h : directory.Sound) (listing : Listing) :
    ∃ result, directory.latest listing = .ok result := by
  rw [Directory.latest_eq_foldlM]
  cases hfiles : directory.files with
  | nil =>
      rw [(listing.perm []).eq_nil]
      exact ⟨none, rfl⟩
  | cons first files =>
      have hfirst : first ∈ directory.files := hfiles ▸ List.mem_cons_self
      rw [← hfiles]
      refine exists_foldlM_later first.assignmentId (fun file hfile => ?_) ?_
      · have hfile := Listing.mem_order.mp hfile
        exact ⟨h.assignment file hfile first hfirst, h.readable file hfile⟩
      · intro current hcurrent
        cases hcurrent

theorem eq_of_name (h : directory.Sound) {other : TombstoneFile} (hfile : file ∈ directory.files)
    (hother : other ∈ directory.files) (hname : file.name = other.name) : file = other :=
  List.inj_on_of_nodup_map h.names hfile hother hname

/-- The latest tombstone is read from the file with the highest generation. -/
theorem latest_eq_top (h : directory.Sound) (listing : Listing) {tombstone : Tombstone}
    (hfile : file ∈ directory.files) (hread : readTombstone file = .ok tombstone)
    (htop : ∀ other ∈ directory.files, other.generation ≤ file.generation) :
    directory.latest listing = .ok (some tombstone) := by
  obtain ⟨result, hresult⟩ := h.exists_latest listing
  obtain ⟨_, latest, rfl, hcovers⟩ := Directory.latest_covers hresult hfile
  obtain ⟨source, hsource, hread'⟩ := Directory.exists_file_of_latest hresult
  have hgeneration : file.generation = source.generation :=
    le_antisymm (hcovers.2.trans_eq (readTombstone_fields hread').2.2.2) (htop source hsource)
  have hname : file.name = source.name :=
    Prod.ext hgeneration (h.assignment file hfile source hsource)
  rw [← h.eq_of_name hfile hsource hname, hread] at hread'
  rw [hresult, Except.ok.inj hread']

/-- The latest tombstone does not depend on the order of the directory. -/
theorem latest_listing (h : directory.Sound) (listing listing' : Listing) :
    directory.latest listing = directory.latest listing' := by
  obtain ⟨result, hresult⟩ := h.exists_latest listing
  cases result with
  | some tombstone =>
      obtain ⟨file, hfile, hread⟩ := Directory.exists_file_of_latest hresult
      rw [hresult, h.latest_eq_top listing' hfile hread]
      intro other hother
      obtain ⟨_, latest, hlatest, hcovers⟩ := Directory.latest_covers hresult hother
      cases hlatest
      exact hcovers.2.trans_eq (readTombstone_fields hread).2.2.2
  | none =>
      have hempty : directory.files = [] := List.eq_nil_iff_forall_not_mem.mpr fun file hfile => by
        obtain ⟨_, latest, hlatest, _⟩ := Directory.latest_covers hresult hfile
        cases hlatest
      rw [Directory.latest_eq_foldlM, Directory.latest_eq_foldlM, hempty,
        (listing.perm []).eq_nil, (listing'.perm []).eq_nil]

end Directory.Sound

end Latest

section Fence

variable {listing : Listing} {directory : Directory} {fence : WorkloadFence} {specHash : String}

/-- No file stands against the recording of a deletion. -/
structure Directory.Recordable (directory : Directory) (fence : WorkloadFence)
    (specHash : String) : Prop extends directory.Sound where
  sameAssignment : ∀ file ∈ directory.files, file.assignmentId = fence.assignmentId
  notLater : ∀ file ∈ directory.files, file.generation ≤ fence.generation
  sameHash : ∀ file ∈ directory.files, file.generation = fence.generation →
    readToString file.contents = .ok specHash

theorem Directory.validateAbsent_eq_true_iff :
    directory.validateAbsent listing fence specHash = .ok true ↔
      ∃ result, directory.latest listing = .ok result ∧ ∀ latest, result = some latest →
        latest.assignmentId = fence.assignmentId ∧ latest.generation ≤ fence.generation ∧
          (latest.generation = fence.generation → latest.specHash = specHash) := by
  rw [Directory.validateAbsent, bind_eq_ok_iff]
  refine exists_congr fun result => and_congr_right fun _ => ?_
  cases result with
  | none => simp [pure, Except.pure]
  | some latest =>
      simp only [Option.some.injEq, forall_eq', ne_eq]
      split
      · next hforeign => simp [pure, Except.pure, hforeign]
      · next hsame =>
          split
          · next hlower => simp [pure, Except.pure, hlower]
          · next hlower =>
              have hle := Nat.le_of_not_lt hlower
              split
              · next hconflict => simp [throw, throwThe, MonadExceptOf.throw, hconflict]
              · next hagree =>
                  simp only [pure, Except.pure, true_iff]
                  refine ⟨not_not.mp hsame, hle, fun hgeneration => ?_⟩
                  by_contra hhash
                  exact hagree ⟨hgeneration.symm, hhash⟩

namespace Directory.Recordable

theorem of_validateAbsent (h : directory.Sound)
    (hvalid : directory.validateAbsent listing fence specHash = .ok true) :
    directory.Recordable fence specHash := by
  obtain ⟨result, hresult, hlatest⟩ := Directory.validateAbsent_eq_true_iff.mp hvalid
  have hfile : ∀ file ∈ directory.files, ∃ latest candidate, result = some latest ∧
      readTombstone file = .ok candidate ∧ latest.Covers file := by
    intro file hfile
    obtain ⟨⟨candidate, hread⟩, latest, hlatest, hcovers⟩ := Directory.latest_covers hresult hfile
    exact ⟨latest, candidate, hlatest, hread, hcovers⟩
  refine ⟨h, fun file hmem => ?_, fun file hmem => ?_, fun file hmem hgeneration => ?_⟩
  · obtain ⟨latest, _, hlast, _, hcovers⟩ := hfile file hmem
    exact hcovers.1.trans (hlatest latest hlast).1
  · obtain ⟨latest, _, hlast, _, hcovers⟩ := hfile file hmem
    exact hcovers.2.trans (hlatest latest hlast).2.1
  · obtain ⟨latest, candidate, rfl, hread, hcovers⟩ := hfile file hmem
    obtain ⟨_, hle, hhash⟩ := hlatest latest rfl
    have htop : ∀ other ∈ directory.files, other.generation ≤ file.generation := by
      intro other hother
      obtain ⟨last, _, hlast, _, hother⟩ := hfile other hother
      cases hlast
      exact (hother.2.trans hle).trans_eq hgeneration.symm
    have hlast := h.latest_eq_top listing hmem hread htop
    rw [hresult] at hlast
    cases hlast
    obtain ⟨hcontents, _, _, hsame⟩ := readTombstone_fields hread
    rw [hcontents, hhash (hsame.trans hgeneration)]

theorem validateAbsent (h : directory.Recordable fence specHash) (listing : Listing) :
    directory.validateAbsent listing fence specHash = .ok true := by
  obtain ⟨result, hresult⟩ := h.exists_latest listing
  refine Directory.validateAbsent_eq_true_iff.mpr ⟨result, hresult, ?_⟩
  rintro latest rfl
  obtain ⟨file, hfile, hread⟩ := Directory.exists_file_of_latest hresult
  obtain ⟨hcontents, _, hassignment, hgeneration⟩ := readTombstone_fields hread
  refine ⟨hassignment.trans (h.sameAssignment file hfile),
    hgeneration.trans_le (h.notLater file hfile), fun hsame => ?_⟩
  rw [h.sameHash file hfile (hgeneration.symm.trans hsame)] at hcontents
  exact (Except.ok.inj hcontents).symm

end Directory.Recordable

/-- What compaction leaves: only files of the assignment with lower generations are gone. -/
structure Kept (fence : WorkloadFence) (files remaining : List TombstoneFile) : Prop where
  sublist : remaining.Sublist files
  removed : ∀ file ∈ files, file ∈ remaining ∨
    file.assignmentId = fence.assignmentId ∧ file.generation < fence.generation

theorem Kept.refl (files : List TombstoneFile) : Kept fence files files :=
  ⟨.refl files, fun _ => .inl⟩

theorem compact_states {listed files : List TombstoneFile} {state : Directory}
    (h : state ∈ (compact fence listed files).1) :
    ∃ remaining, state = some remaining ∧ Kept fence files remaining := by
  induction listed generalizing files with
  | nil => simp [compact] at h
  | cons file listed ih =>
      rw [compact] at h
      split at h
      · simp at h
      · next hadmitted =>
          split at h
          · next hlower =>
              have hkept : Kept fence files (files.filter (·.name ≠ file.name)) := by
                refine ⟨List.filter_sublist, fun other hother => ?_⟩
                by_cases hname : other.name = file.name
                · obtain ⟨hgeneration, hassignment⟩ := TombstoneFile.name_eq hname
                  push Not at hadmitted
                  exact .inr ⟨hassignment.trans hadmitted.1, hgeneration.trans_lt hlower⟩
                · exact .inl (List.mem_filter.mpr ⟨hother, by simpa using hname⟩)
              rcases List.mem_cons.mp h with rfl | h
              · exact ⟨_, rfl, hkept⟩
              · obtain ⟨remaining, hstate, hrest⟩ := ih h
                refine ⟨remaining, hstate, hrest.sublist.trans hkept.sublist, fun other hother => ?_⟩
                rcases hkept.removed other hother with hother | hother
                · exact hrest.removed other hother
                · exact .inr hother
          · exact ih h

theorem compact_ok {listed files : List TombstoneFile}
    (h : ∀ file ∈ listed, file.assignmentId = fence.assignmentId ∧
      file.generation ≤ fence.generation) : (compact fence listed files).2 = .ok () := by
  induction listed generalizing files with
  | nil => rfl
  | cons file listed ih =>
      obtain ⟨hassignment, hle⟩ := h file List.mem_cons_self
      have hrest := fun other hother => h other (List.mem_cons_of_mem _ hother)
      rw [compact, if_neg (by simp [hassignment, hle])]
      split
      · exact ih hrest
      · exact ih hrest

/-- The directory has the file of a fence. -/
def Directory.Has (directory : Directory) (fence : WorkloadFence) : Prop :=
  ∃ file ∈ directory.files, file.name = (fence.generation, fence.assignmentId)

/-- The directory when the whole hash has been written. -/
structure Written (directory : Directory) (fence : WorkloadFence) (specHash : String)
    (files : List TombstoneFile) : Prop where
  contents : ∃ file ∈ files, file.name = (fence.generation, fence.assignmentId) ∧
    readToString file.contents = .ok specHash
  existing : directory.Has fence → files = directory.files
  created : ¬directory.Has fence →
    files = directory.files ++ [partialFile fence specHash specHash.utf8ByteSize]

@[simp] theorem partialFile_name (length : ℕ) :
    (partialFile fence specHash length).name = (fence.generation, fence.assignmentId) := rfl

theorem readToString_toByteArray : readToString specHash.toByteArray = .ok specHash := by
  have hvalid : specHash.toByteArray.IsValidUTF8 := specHash.isValidUTF8
  simp only [readToString, String.fromUTF8?, hvalid, dif_pos]
  rfl

theorem readToString_eq_ok {contents : ByteArray} {text : String}
    (h : readToString contents = .ok text) : text.toByteArray = contents := by
  simp only [readToString, String.fromUTF8?] at h
  split at h
  · next text' hdecode =>
      split at hdecode
      · cases hdecode
        obtain rfl := pure_eq_ok_iff.mp h
        rfl
      · cases hdecode
  · cases h

theorem partialFile_whole :
    readToString (partialFile fence specHash specHash.utf8ByteSize).contents = .ok specHash := by
  have hextract : specHash.toByteArray.extract 0 specHash.utf8ByteSize = specHash.toByteArray :=
    ByteArray.extract_zero_size
  rw [partialFile, hextract, readToString_toByteArray]

theorem Directory.not_has_iff :
    ¬directory.Has fence ↔
      directory.files.find? (·.name = (fence.generation, fence.assignmentId)) = none := by
  simp [Directory.Has, List.find?_eq_none]

theorem Directory.has_of_find? {file : TombstoneFile}
    (h : directory.files.find? (·.name = (fence.generation, fence.assignmentId)) = some file) :
    file ∈ directory.files ∧ file.name = (fence.generation, fence.assignmentId) :=
  ⟨List.mem_of_find?_eq_some h, by simpa using List.find?_some h⟩

theorem compacted_states {listed files : List TombstoneFile} {state : Directory}
    (h : state ∈ some files :: (compact fence listed files).1) :
    ∃ remaining, state = some remaining ∧ Kept fence files remaining := by
  rcases List.mem_cons.mp h with rfl | h
  · exact ⟨files, rfl, Kept.refl files⟩
  · exact compact_states h

theorem written_created (h : ¬directory.Has fence) :
    Written directory fence specHash
      (directory.files ++ [partialFile fence specHash specHash.utf8ByteSize]) :=
  ⟨⟨_, List.mem_append_right _ (List.mem_singleton_self _), rfl, partialFile_whole⟩,
    fun hhas => absurd hhas h, fun _ => rfl⟩

theorem written_existing {file : TombstoneFile} (hfile : file ∈ directory.files)
    (hname : file.name = (fence.generation, fence.assignmentId))
    (hread : readToString file.contents = .ok specHash) :
    Written directory fence specHash directory.files :=
  ⟨⟨file, hfile, hname, hread⟩, fun _ => rfl, fun h => absurd ⟨file, hfile, hname⟩ h⟩

section Record

/-- A recording either changes nothing but the existence of the directory, or it writes a new
file and compacts, or it finds its file and compacts. -/
inductive Recording (listing : Listing) (directory : Directory) (fence : WorkloadFence)
    (specHash : String) : Changes → Prop
  | rejected (error : RuntimeError) (file : TombstoneFile) : file ∈ directory.files →
      file.name = (fence.generation, fence.assignmentId) →
      readToString file.contents ≠ .ok specHash →
      Recording listing directory fence specHash
        (directory :: some directory.files :: [], .error error)
  | created (files : List TombstoneFile) : ¬directory.Has fence →
      files = directory.files ++ [partialFile fence specHash specHash.utf8ByteSize] →
      Recording listing directory fence specHash
        (directory :: some directory.files :: ((List.range specHash.utf8ByteSize).map
            (fun length => some (directory.files ++ [partialFile fence specHash length])) ++
          some files :: (compact fence (listing.order files) files).1),
        (compact fence (listing.order files) files).2)
  | existing : directory.Has fence → Written directory fence specHash directory.files →
      Recording listing directory fence specHash
        (directory :: some directory.files ::
          (compact fence (listing.order directory.files) directory.files).1,
        (compact fence (listing.order directory.files) directory.files).2)

theorem record_recording (listing : Listing) (directory : Directory) (fence : WorkloadFence)
    (specHash : String) :
    Recording listing directory fence specHash (record listing directory fence specHash) := by
  rw [record]
  cases hfind : directory.files.find? (·.name = (fence.generation, fence.assignmentId)) with
  | none =>
      have hcreated : Recording listing directory fence specHash _ :=
        .created _ (Directory.not_has_iff.mpr hfind) rfl
      convert hcreated using 1
      simp [List.range_succ]
  | some file =>
      obtain ⟨hfile, hname⟩ := Directory.has_of_find? hfind
      have hhas : directory.Has fence := ⟨file, hfile, hname⟩
      simp only
      cases hread : readToString file.contents with
      | error error => exact .rejected error file hfile hname (by simp [hread])
      | ok contents =>
          simp only
          split
          · next hcontents =>
              exact .existing hhas (written_existing hfile hname (hcontents ▸ hread))
          · next hcontents =>
              exact .rejected _ file hfile hname (by simpa [hread] using hcontents)

namespace Recording

variable {changes : Changes}

theorem begins (h : Recording listing directory fence specHash changes) :
    ∃ rest, changes.1 = directory :: some directory.files :: rest := by
  cases h with
  | rejected error file hfile hname hread => exact ⟨_, rfl⟩
  | created files habsent hfiles => exact ⟨_, rfl⟩
  | existing hhas hwritten => exact ⟨_, rfl⟩

/-- The directories of a recording: the files are as before, the new file is not yet written
in full, or it is and compaction has begun. -/
theorem states {k : ℕ} {state : Directory}
    (h : Recording listing directory fence specHash changes)
    (hstate : changes.1[k]? = some state) :
    (k < 2 ∧ state.files = directory.files) ∨
    (2 ≤ k ∧ k < 2 + specHash.utf8ByteSize ∧ ¬directory.Has fence ∧
      state = some (directory.files ++ [partialFile fence specHash (k - 2)])) ∨
    (2 ≤ k ∧ (¬directory.Has fence → 2 + specHash.utf8ByteSize ≤ k) ∧ ∃ files remaining,
      Written directory fence specHash files ∧ state = some remaining ∧
        Kept fence files remaining) := by
  match k with
  | 0 =>
      obtain ⟨rest, hrest⟩ := h.begins
      rw [hrest] at hstate
      obtain rfl : directory = state := by simpa using hstate
      exact .inl ⟨Nat.zero_lt_two, rfl⟩
  | 1 =>
      obtain ⟨rest, hrest⟩ := h.begins
      rw [hrest] at hstate
      obtain rfl : some directory.files = state := by simpa using hstate
      exact .inl ⟨Nat.one_lt_two, rfl⟩
  | k + 2 =>
      have hk : 2 ≤ k + 2 := Nat.le_add_left 2 k
      cases h with
      | rejected error file hfile hname hread => simp at hstate
      | created files habsent hfiles =>
          simp only [List.getElem?_cons_succ] at hstate
          rcases Nat.lt_or_ge k specHash.utf8ByteSize with hlt | hge
          · rw [List.getElem?_append_left (by simpa using hlt)] at hstate
            refine .inr (.inl ⟨hk, by omega, habsent, ?_⟩)
            simpa [hlt, eq_comm] using hstate
          · rw [List.getElem?_append_right (by simpa using hge)] at hstate
            obtain ⟨remaining, hremaining, hkept⟩ :=
              compacted_states (List.mem_of_getElem? hstate)
            exact .inr (.inr ⟨hk, fun _ => by omega, files, remaining,
              hfiles ▸ written_created habsent, hremaining, hkept⟩)
      | existing hhas hwritten =>
          simp only [List.getElem?_cons_succ] at hstate
          obtain ⟨remaining, hremaining, hkept⟩ := compact_states (List.mem_of_getElem? hstate)
          exact .inr (.inr ⟨hk, fun habsent => absurd hhas habsent, directory.files, remaining,
            hwritten, hremaining, hkept⟩)

/-- A successful recording has written the whole hash. -/
theorem last (h : Recording listing directory fence specHash changes)
    (hresult : changes.2 = .ok ()) {state : Directory} (hlast : changes.1.getLast? = some state) :
    ∃ files remaining, Written directory fence specHash files ∧ state = some remaining ∧
      Kept fence files remaining := by
  have hsuffix : ∀ {xs : List Directory} {y : Directory} {ys : List Directory},
      (xs ++ y :: ys).getLast? = some state → state ∈ y :: ys := by
    intro xs y ys hlast
    rw [List.getLast?_append_cons] at hlast
    exact List.mem_of_getLast? hlast
  cases h with
  | rejected error file hfile hname hread => cases hresult
  | created files habsent hfiles =>
      rw [← List.cons_append, ← List.cons_append] at hlast
      obtain ⟨remaining, hremaining, hkept⟩ := compacted_states (hsuffix hlast)
      exact ⟨files, remaining, hfiles ▸ written_created habsent, hremaining, hkept⟩
  | existing hhas hwritten =>
      obtain ⟨remaining, hremaining, hkept⟩ := compacted_states
        (@hsuffix [directory] _ _ hlast)
      exact ⟨directory.files, remaining, hwritten, hremaining, hkept⟩

end Recording

end Record

/-- Every file is replaced by one of its assignment which is not earlier. -/
def Directory.Advances (directory directory' : Directory) : Prop :=
  ∀ file ∈ directory.files, ∃ file' ∈ directory'.files,
    file'.assignmentId = file.assignmentId ∧ file.generation ≤ file'.generation

theorem Directory.Advances.refl (directory : Directory) : directory.Advances directory :=
  fun file hfile => ⟨file, hfile, rfl, Nat.le_refl _⟩

theorem Directory.Advances.trans {directory directory' directory'' : Directory}
    (h : directory.Advances directory') (h' : directory'.Advances directory'') :
    directory.Advances directory'' := by
  intro file hfile
  obtain ⟨file', hfile', hassignment, hle⟩ := h file hfile
  obtain ⟨file'', hfile'', hassignment', hle'⟩ := h' file' hfile'
  exact ⟨file'', hfile'', hassignment'.trans hassignment, hle.trans hle'⟩

namespace Written

variable {files remaining : List TombstoneFile}

theorem subset (h : Written directory fence specHash files) {file : TombstoneFile}
    (hfile : file ∈ directory.files) : file ∈ files := by
  by_cases hhas : directory.Has fence
  · exact h.existing hhas ▸ hfile
  · exact h.created hhas ▸ List.mem_append_left _ hfile

theorem contents_kept (h : Written directory fence specHash files)
    (hkept : Kept fence files remaining) :
    ∃ file ∈ remaining, file.name = (fence.generation, fence.assignmentId) ∧
      readToString file.contents = .ok specHash := by
  obtain ⟨file, hfile, hname, hread⟩ := h.contents
  rcases hkept.removed file hfile with hmem | ⟨_, hlower⟩
  · exact ⟨file, hmem, hname, hread⟩
  · exact absurd hlower (TombstoneFile.name_eq hname).1.not_lt

theorem advances (h : Written directory fence specHash files)
    (hkept : Kept fence files remaining) : directory.Advances (some remaining) := by
  intro file hfile
  rcases hkept.removed file (h.subset hfile) with hmem | ⟨hassignment, hlower⟩
  · exact ⟨file, hmem, rfl, Nat.le_refl _⟩
  · obtain ⟨written, hwritten, hname, _⟩ := h.contents_kept hkept
    obtain ⟨hgeneration, hsame⟩ := TombstoneFile.name_eq hname
    exact ⟨written, hwritten, hsame.trans hassignment.symm, hlower.le.trans_eq hgeneration.symm⟩

/-- A whole hash of the right form leaves a directory in which the deletion is recorded. -/
theorem recordable (h : Written directory fence specHash files)
    (hkept : Kept fence files remaining) (hhash : isSpecHash specHash)
    (hbefore : directory.Recordable fence specHash) :
    Directory.Recordable (some remaining) fence specHash := by
  have hcases : ∀ file ∈ remaining, file ∈ directory.files ∨
      file.name = (fence.generation, fence.assignmentId) ∧
        readToString file.contents = .ok specHash := by
    intro file hfile
    have hfile := hkept.sublist.subset hfile
    by_cases hhas : directory.Has fence
    · exact .inl (h.existing hhas ▸ hfile)
    · rw [h.created hhas, List.mem_append, List.mem_singleton] at hfile
      rcases hfile with hfile | rfl
      · exact .inl hfile
      · exact .inr ⟨rfl, partialFile_whole⟩
  have hassignment : ∀ file ∈ remaining, file.assignmentId = fence.assignmentId := by
    intro file hfile
    rcases hcases file hfile with hfile | ⟨hname, _⟩
    · exact hbefore.sameAssignment file hfile
    · exact (TombstoneFile.name_eq hname).2
  have hnames : (files.map (·.name)).Nodup := by
    by_cases hhas : directory.Has fence
    · exact h.existing hhas ▸ hbefore.names
    · rw [h.created hhas, List.map_append, List.nodup_append]
      refine ⟨hbefore.names, List.nodup_singleton _, ?_⟩
      intro name hname other hother hsame
      obtain ⟨file, hfile, rfl⟩ := List.mem_map.mp hname
      rw [List.map_singleton, List.mem_singleton] at hother
      exact hhas ⟨file, hfile, hsame.trans hother⟩
  refine ⟨⟨fun file hfile => ?_, fun file hfile other hother => ?_, ?_⟩, hassignment,
    fun file hfile => ?_, fun file hfile hgeneration => ?_⟩
  · rcases hcases file hfile with hfile | ⟨_, hread⟩
    · exact hbefore.readable file hfile
    · exact ⟨_, readTombstone_of_contents hread hhash⟩
  · exact (hassignment file hfile).trans (hassignment other hother).symm
  · exact (hkept.sublist.map _).nodup hnames
  · rcases hcases file hfile with hfile | ⟨hname, _⟩
    · exact hbefore.notLater file hfile
    · exact (TombstoneFile.name_eq hname).1.le
  · rcases hcases file hfile with hfile | ⟨_, hread⟩
    · exact hbefore.sameHash file hfile hgeneration
    · exact hread

end Written

theorem Recording.advances {changes : Changes} {state : Directory}
    (h : Recording listing directory fence specHash changes) (hstate : state ∈ changes.1) :
    directory.Advances state := by
  obtain ⟨k, hk⟩ := List.mem_iff_getElem?.mp hstate
  rcases h.states hk with ⟨_, hfiles⟩ | ⟨_, _, _, rfl⟩ | ⟨_, _, files, remaining, hwritten, rfl, hkept⟩
  · intro file hfile
    exact ⟨file, hfiles ▸ hfile, rfl, Nat.le_refl _⟩
  · intro file hfile
    exact ⟨file, List.mem_append_left _ hfile, rfl, Nat.le_refl _⟩
  · exact hwritten.advances hkept

namespace Directory.Recordable

theorem congr {directory' : Directory} (h : directory.Recordable fence specHash)
    (hfiles : directory'.files = directory.files) : directory'.Recordable fence specHash := by
  obtain ⟨⟨hreadable, hassignment, hnames⟩, hsame, hnotLater, hhash⟩ := h
  constructor
  · constructor <;> rwa [hfiles]
  · rwa [hfiles]
  · rwa [hfiles]
  · rwa [hfiles]

theorem not_lower_of_absent (h : directory.Recordable fence specHash) (habsent : ¬directory.Has fence)
    {file : TombstoneFile} (hfile : file ∈ directory.files) : file.generation < fence.generation := by
  refine lt_of_le_of_ne (h.notLater file hfile) fun hgeneration => ?_
  exact habsent ⟨file, hfile, Prod.ext hgeneration (h.sameAssignment file hfile)⟩

theorem record_ok (h : directory.Recordable fence specHash) (listing : Listing) :
    (record listing directory fence specHash).2 = .ok () := by
  generalize hchanges : record listing directory fence specHash = changes
  have hrecording := hchanges ▸ record_recording listing directory fence specHash
  have hbefore : ∀ file ∈ directory.files, file.assignmentId = fence.assignmentId ∧
      file.generation ≤ fence.generation :=
    fun file hfile => ⟨h.sameAssignment file hfile, h.notLater file hfile⟩
  cases hrecording with
  | rejected error file hfile hname hread =>
      exact absurd (h.sameHash file hfile (TombstoneFile.name_eq hname).1) hread
  | created files habsent hfiles =>
      refine compact_ok fun file hfile => ?_
      rw [Listing.mem_order, hfiles, List.mem_append, List.mem_singleton] at hfile
      rcases hfile with hfile | rfl
      · exact hbefore file hfile
      · exact ⟨rfl, Nat.le_refl _⟩
  | existing hhas hwritten =>
      exact compact_ok fun file hfile => hbefore file (Listing.mem_order.mp hfile)

theorem latest_of_contents (h : directory.Recordable fence specHash) (hhash : isSpecHash specHash)
    (hcontents : ∃ file ∈ directory.files, file.name = (fence.generation, fence.assignmentId) ∧
      readToString file.contents = .ok specHash) :
    directory.latest listing = .ok (some ⟨fence.assignmentId, fence.generation, specHash⟩) := by
  obtain ⟨file, hfile, hname, hread⟩ := hcontents
  obtain ⟨hgeneration, hassignment⟩ := TombstoneFile.name_eq hname
  have hlatest := h.latest_eq_top listing hfile (readTombstone_of_contents hread hhash)
    fun other hother => (h.notLater other hother).trans_eq hgeneration.symm
  rw [hlatest, hassignment, hgeneration]

end Directory.Recordable

section Recovery

/-- After an interrupted recording the fence is the old one or the new one, and the deletion
can be repeated. -/
structure Recovered (directory state : Directory) (fence : WorkloadFence) (specHash : String) :
    Prop where
  readable : ∀ listing, state.latest listing = directory.latest listing ∨
    state.latest listing = .ok (some ⟨fence.assignmentId, fence.generation, specHash⟩)
  repeatable : ∀ listing, ∃ toRecord,
    state.validateAbsent listing fence specHash = .ok toRecord ∧
      (toRecord = true → (record listing state fence specHash).2 = .ok ())

/-- A crash spares the fence when no file was created, or the whole hash was written and has
the right form. -/
def CrashSpares (directory : Directory) (fence : WorkloadFence) (specHash : String) (k : ℕ) :
    Prop :=
  k < 2 ∨ directory.Has fence ∨ 2 + specHash.utf8ByteSize ≤ k ∧ isSpecHash specHash

theorem Directory.Recordable.repeatable {state : Directory}
    (h : state.Recordable fence specHash) (listing : Listing) :
    ∃ toRecord, state.validateAbsent listing fence specHash = .ok toRecord ∧
      (toRecord = true → (record listing state fence specHash).2 = .ok ()) :=
  ⟨true, h.validateAbsent listing, fun _ => h.record_ok listing⟩

theorem isSpecHash_of_has (h : directory.Recordable fence specHash) (hhas : directory.Has fence) :
    isSpecHash specHash := by
  obtain ⟨file, hfile, hname⟩ := hhas
  obtain ⟨tombstone, hread⟩ := h.readable file hfile
  obtain ⟨hcontents, hhash, _⟩ := readTombstone_fields hread
  rw [h.sameHash file hfile (TombstoneFile.name_eq hname).1] at hcontents
  rwa [Except.ok.inj hcontents]

theorem not_recovered_of_torn (hbefore : directory.Recordable fence specHash)
    (habsent : ¬directory.Has fence) {length : ℕ} (hlength : length < specHash.utf8ByteSize) :
    ¬Recovered directory (some (directory.files ++ [partialFile fence specHash length])) fence
      specHash := by
  intro hrecovered
  rcases hrecovered.readable .written with hlatest | hlatest
  · obtain ⟨result, hresult⟩ := hbefore.exists_latest .written
    rw [hresult] at hlatest
    obtain ⟨_, latest, rfl, hcovers⟩ := Directory.latest_covers hlatest
      (List.mem_append_right _ (List.mem_singleton_self _))
    obtain ⟨file, hfile, hread⟩ := Directory.exists_file_of_latest hresult
    have hlower := hbefore.not_lower_of_absent habsent hfile
    rw [← (readTombstone_fields hread).2.2.2] at hlower
    exact absurd hcovers.2 hlower.not_ge
  · obtain ⟨file, hfile, hread⟩ := Directory.exists_file_of_latest hlatest
    obtain ⟨hcontents, _, _, hgeneration⟩ := readTombstone_fields hread
    rcases List.mem_append.mp hfile with hfile | hfile
    · exact (hbefore.not_lower_of_absent habsent hfile).ne hgeneration.symm
    · obtain rfl := List.mem_singleton.mp hfile
      have hsize := congrArg ByteArray.size (readToString_eq_ok hcontents)
      simp only [partialFile, String.size_toByteArray, ByteArray.size_extract] at hsize
      omega

theorem not_crashSpares {k : ℕ} (hk : 2 ≤ k) (hlength : k < 2 + specHash.utf8ByteSize)
    (habsent : ¬directory.Has fence) : ¬CrashSpares directory fence specHash k := by
  rintro (hk' | hhas | ⟨hk', _⟩)
  · exact absurd hk' hk.not_gt
  · exact habsent hhas
  · exact absurd hk' hlength.not_ge

theorem Recording.recordable_of_spares {changes : Changes} {k : ℕ} {state : Directory}
    (h : Recording listing directory fence specHash changes)
    (hbefore : directory.Recordable fence specHash) (hstate : changes.1[k]? = some state)
    (hspares : CrashSpares directory fence specHash k) : state.Recordable fence specHash := by
  rcases h.states hstate with ⟨_, hfiles⟩ | ⟨hk, hlength, habsent, _⟩ |
    ⟨hk, _, files, remaining, hwritten, rfl, hkept⟩
  · exact hbefore.congr hfiles
  · exact absurd hspares (not_crashSpares hk hlength habsent)
  · have hhash : isSpecHash specHash := by
      rcases hspares with hk' | hhas | ⟨_, hhash⟩
      · omega
      · exact isSpecHash_of_has hbefore hhas
      · exact hhash
    exact hwritten.recordable hkept hhash hbefore

/-- A crash of a recording leaves a fence which can be recovered exactly when it is spared. -/
theorem recovered_iff {changes : Changes} {k : ℕ} {state : Directory}
    (h : Recording listing directory fence specHash changes)
    (hbefore : directory.Recordable fence specHash) (hstate : changes.1[k]? = some state) :
    Recovered directory state fence specHash ↔ CrashSpares directory fence specHash k := by
  constructor
  · intro hrecovered
    rcases h.states hstate with ⟨hk, _⟩ | ⟨hk, hlength, habsent, rfl⟩ |
      ⟨_, hlength, files, remaining, hwritten, rfl, hkept⟩
    · exact .inl hk
    · exact absurd hrecovered (not_recovered_of_torn hbefore habsent (by omega))
    · by_cases hhas : directory.Has fence
      · exact .inr (.inl hhas)
      refine .inr (.inr ⟨hlength hhas, ?_⟩)
      obtain ⟨file, hfile, _, hread⟩ := hwritten.contents_kept hkept
      obtain ⟨_, hvalidate, _⟩ := hrecovered.repeatable .written
      obtain ⟨result, hresult, _⟩ := bind_eq_ok_iff.mp hvalidate
      obtain ⟨⟨candidate, hcandidate⟩, _⟩ := Directory.latest_covers hresult hfile
      obtain ⟨hread', hhash, _⟩ := readTombstone_fields hcandidate
      rw [hread] at hread'
      rwa [Except.ok.inj hread']
  · intro hspares
    have hafter := h.recordable_of_spares hbefore hstate hspares
    refine ⟨fun listing => ?_, hafter.repeatable⟩
    rcases h.states hstate with ⟨_, hfiles⟩ | ⟨hk, hlength, habsent, _⟩ |
      ⟨_, _, files, remaining, hwritten, rfl, hkept⟩
    · rw [Directory.latest_eq_foldlM, hfiles, ← Directory.latest_eq_foldlM]
      exact .inl rfl
    · exact absurd hspares (not_crashSpares hk hlength habsent)
    · obtain ⟨file, hfile, _, hread⟩ := hwritten.contents_kept hkept
      obtain ⟨tombstone, htombstone⟩ := hafter.readable file hfile
      obtain ⟨hread', hhash, _⟩ := readTombstone_fields htombstone
      rw [hread] at hread'
      exact .inr (hafter.latest_of_contents (Except.ok.inj hread' ▸ hhash)
        (hwritten.contents_kept hkept))

end Recovery

end Fence

end Agent

end Rsctf
