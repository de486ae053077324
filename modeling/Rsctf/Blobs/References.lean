import Rsctf.Blobs.Residency

/-!
# References are acquired once and not lost

An operation acquires one reference at most for every stage which was opened for it, however
often it is retried, and the count of a file is never below the references which were acquired
and not given back.
-/

namespace Rsctf

namespace Blobs

variable {w w' : World} {db db' : Database} {hash : String} {operationId : Uuid}

def Database.referenceCount (db : Database) (hash : String) : ℤ :=
  ((db.files.get? hash).map (·.referenceCount)).getD 0

section Counts

theorem referenceCount_of_mem {file : FileRow} (h : file ∈ db.files) :
    db.referenceCount file.hash = file.referenceCount := by
  rw [Database.referenceCount, Table.get?_eq_some.mpr ⟨h, rfl⟩]
  rfl

theorem Restaged.files_eq {new : Option StageRow} (hre : Restaged db operationId new db') :
    db'.files = db.files := by
  rw [hre.frame]

theorem referenceCount_congr (h : db'.files = db.files) :
    db'.referenceCount hash = db.referenceCount hash := by
  rw [Database.referenceCount, h, Database.referenceCount]

/-- A statement about the file of one hash. -/
theorem referenceCount_of_puts {new : Option FileRow} {hash' : String}
    (hput : db.files.Puts hash new db'.files) (hnew : ∀ file ∈ new, file.hash = hash) :
    db'.referenceCount hash' = if hash' = hash then (new.map (·.referenceCount)).getD 0
      else db.referenceCount hash' := by
  unfold Database.referenceCount
  split
  next heq => rw [heq, hput.get?_self hnew]
  next hne => rw [hput.get?_of_ne hnew hne]

/-- The row of a hash is written with a count which depends on the one before. -/
theorem referenceCount_upsert {row : FileRow} {f : FileRow → FileRow}
    {hf : ∀ file, (f file).hash = file.hash} {add : ℤ} (hrow : row.referenceCount = add)
    (hadd : ∀ file, (f file).referenceCount = file.referenceCount + add)
    (hfiles : db'.files = db.files.upsert row f hf) :
    db'.referenceCount hash = db.referenceCount hash + if hash = row.hash then add else 0 := by
  cases hget : db.files.get? row.hash with
  | none =>
    have hfree := Table.get?_eq_none.mp hget
    have hput : db.files.Puts row.hash (some row) db'.files := by
      rw [hfiles]
      exact Table.puts_upsert rfl (fun _ => rfl) fun old hold hkey => absurd hkey (hfree old hold)
    rw [referenceCount_of_puts hput (by rintro file ⟨⟩; rfl)]
    split
    next heq => simp [Database.referenceCount, heq, hget, hrow]
    next => rw [add_zero]
  | some old =>
    obtain ⟨hold, hkey⟩ := Table.get?_eq_some.mp hget
    have hput : db.files.Puts row.hash (some (f old)) db'.files := by
      rw [hfiles]
      refine Table.puts_upsert rfl (fun hfree => absurd hkey (hfree old hold)) ?_
      intro other hother hotherKey
      rw [Table.eq_of_key_eq hother hold (hotherKey.trans hkey.symm)]
    rw [referenceCount_of_puts hput (by rintro file ⟨⟩; exact (hf old).trans hkey)]
    split
    next heq => simp [Database.referenceCount, heq, hget, hadd]
    next => rw [add_zero]

theorem referenceCount_registerFile (blob : StoredBlob) :
    (registerFile blob db).referenceCount hash = db.referenceCount hash := by
  refine (referenceCount_upsert rfl (fun _ => (add_zero _).symm) rfl).trans ?_
  rw [ite_self, add_zero]

theorem referenceCount_acquireLocked (blob : StoredBlob) :
    (acquireLocked blob db).referenceCount hash =
      db.referenceCount hash + if hash = blob.hash then 1 else 0 := by
  refine (referenceCount_upsert rfl (fun _ => rfl) rfl).trans ?_
  rfl

theorem referenceCount_setReferenceCount (hnumbered : Numbered db) {file : FileRow}
    (hfile : file ∈ db.files) (count : ℤ) :
    (db.setReferenceCount file.id count).referenceCount hash =
      if hash = file.hash then count else db.referenceCount hash := by
  have hput : db.files.Puts file.hash (some { file with referenceCount := count })
      (db.files.update (fun row => decide (row.id = file.id))
        (fun row => { row with referenceCount := count }) fun _ => rfl) := by
    refine Table.puts_update hfile (decide_eq_true rfl) fun other hother hid => ?_
    rw [hnumbered.ids other hother file hfile (of_decide_eq_true hid)]
  refine referenceCount_of_puts (show db.files.Puts file.hash _
    (db.setReferenceCount file.id count).files from hput) ?_
  rintro other ⟨⟩
  rfl

/-- At most one reference is given back, and no count falls below zero. -/
theorem referenceCount_releaseLocked (hnumbered : Numbered db) {file : FileRow}
    (hfile : file ∈ db.files) (hnonneg : ∀ hash, 0 ≤ db.referenceCount hash) (hash : String) :
    0 ≤ (releaseLocked file.id db).2.referenceCount hash ∧
      db.referenceCount hash ≤ (releaseLocked file.id db).2.referenceCount hash +
        if hash = file.hash then 1 else 0 := by
  have hset : ∀ count, 0 ≤ count → file.referenceCount ≤ count + 1 →
      0 ≤ (db.setReferenceCount file.id count).referenceCount hash ∧
        db.referenceCount hash ≤ (db.setReferenceCount file.id count).referenceCount hash +
          if hash = file.hash then 1 else 0 := by
    intro count hcount hle
    rw [referenceCount_setReferenceCount hnumbered hfile]
    split
    next heq => exact ⟨hcount, heq ▸ (referenceCount_of_mem hfile).le.trans hle⟩
    next => exact ⟨hnonneg hash, (add_zero _).ge⟩
  unfold releaseLocked
  split
  next hfind => exact absurd (decide_eq_true rfl) (List.find?_eq_none.mp hfind file hfile)
  next row hfind =>
    have hid : row.id = file.id := by simpa using List.find?_some hfind
    obtain rfl := hnumbered.ids row (List.mem_of_find?_eq_some hfind) file hfile hid
    split
    next hcount => exact hset _ (by omega) (by omega)
    next hcount =>
      split
      · exact hset 1 one_pos.le (by omega)
      · exact hset 0 le_rfl (by omega)

/-- Only a file without references is forgotten. -/
theorem referenceCount_finishBlobDeletion {id : Uuid}
    (hnonneg : ∀ hash, 0 ≤ db.referenceCount hash) (hash' : String) :
    (finishBlobDeletion hash id db).2.referenceCount hash' = db.referenceCount hash' := by
  unfold finishBlobDeletion
  split
  next =>
    split
    next => exact referenceCount_congr rfl
    next =>
      by_cases hfile : ∃ file ∈ db.files, file.hash = hash ∧ file.referenceCount ≤ 0
      · obtain ⟨file, hmem, hhash, hcount⟩ := hfile
        have hzero : db.referenceCount hash = 0 := by
          refine le_antisymm ?_ (hnonneg hash)
          rw [← hhash, referenceCount_of_mem hmem]
          exact hcount
        have hput : db.files.Puts hash none (db.files.keep fun row =>
            !(decide (row.hash = hash) && decide (row.referenceCount ≤ 0))) := by
          refine Table.puts_keep fun other hother => ?_
          constructor
          · intro hcond
            simp only [Bool.not_eq_false', Bool.and_eq_true, decide_eq_true_eq] at hcond
            exact hcond.1
          · intro hother'
            rw [Table.eq_of_key_eq hother hmem (hother'.trans hhash.symm)]
            simp [hhash, hcount]
        refine (referenceCount_of_puts hput (by rintro other ⟨⟩)).trans ?_
        split
        next heq =>
          rw [heq, hzero]
          rfl
        next => rfl
      · refine referenceCount_congr (Table.keep_eq_self fun other hother => ?_)
        simp only [Bool.not_eq_true', ← Bool.not_eq_true, Bool.and_eq_true, decide_eq_true_eq]
        exact fun hcond => hfile ⟨other, hother, hcond⟩
  next => rfl

end Counts

/-- A stage which was not published yet stands for a reference which was not acquired yet. -/
structure Accounted (w : World) : Prop where
  nonneg : ∀ hash, 0 ≤ w.db.referenceCount hash
  kept : ∀ hash, (w.acquired.countP (·.2 = hash) : ℤ) ≤
    w.db.referenceCount hash + w.released.count hash
  once : ∀ operationId, w.acquired.countP (·.1 = operationId) ≤ w.inserted.count operationId
  pending : ∀ row ∈ w.db.stages, row.state ≠ .published →
    w.acquired.countP (·.1 = row.operationId) < w.inserted.count row.operationId

theorem Initial.accounted (h : Initial w) : Accounted w where
  nonneg := by
    intro hash
    cases hget : w.db.files.get? hash with
    | none => simp [Database.referenceCount, hget]
    | some file =>
      obtain ⟨hfile, rfl⟩ := Table.get?_eq_some.mp hget
      rw [referenceCount_of_mem hfile]
      exact h.counts file hfile
  kept := by
    intro hash
    rw [h.unrecorded.2.1, h.unrecorded.2.2]
    cases hget : w.db.files.get? hash with
    | none => simp [Database.referenceCount, hget]
    | some file =>
      obtain ⟨hfile, rfl⟩ := Table.get?_eq_some.mp hget
      rw [referenceCount_of_mem hfile]
      simpa using h.counts file hfile
  once := by
    rw [h.unrecorded.2.1]
    exact fun _ => Nat.zero_le _
  pending := by
    rw [h.stages]
    rintro row ⟨⟩

namespace Accounted

/-- A statement which leaves the files and the stages as they are. -/
theorem congr (h : Accounted w) (hfiles : db.files = w.db.files)
    (hstages : db.stages = w.db.stages) : Accounted { w with db := db } where
  nonneg := fun hash => (referenceCount_congr hfiles).symm ▸ h.nonneg hash
  kept := fun hash => (referenceCount_congr hfiles).symm ▸ h.kept hash
  once := h.once
  pending := fun row hrow => h.pending row (hstages ▸ hrow)

/-- A statement about the files which keeps the counts. -/
theorem refile (h : Accounted w)
    (hcount : ∀ hash, db.referenceCount hash = w.db.referenceCount hash)
    (hstages : db.stages = w.db.stages) : Accounted { w with db := db } where
  nonneg := fun hash => (hcount hash).symm ▸ h.nonneg hash
  kept := fun hash => (hcount hash).symm ▸ h.kept hash
  once := h.once
  pending := fun row hrow => h.pending row (hstages ▸ hrow)

theorem restage (h : Accounted w) {new : Option StageRow} (hre : Restaged w.db operationId new db)
    (hnew : ∀ row ∈ new, row.operationId = operationId ∧ (row.state ≠ .published →
      w.acquired.countP (·.1 = operationId) < w.inserted.count operationId)) :
    Accounted { w with db := db } where
  nonneg := fun hash => (referenceCount_congr hre.files_eq).symm ▸ h.nonneg hash
  kept := fun hash => (referenceCount_congr hre.files_eq).symm ▸ h.kept hash
  once := h.once
  pending := by
    intro row hrow hstate
    rcases (hre.puts row).mp hrow with ⟨hold, -⟩ | heq
    · exact h.pending row hold hstate
    · rw [(hnew row heq).1]
      exact (hnew row heq).2 hstate

theorem retire (h : Accounted w) {q : StageRow → Prop} (hret : Retires q w.db operationId db) :
    Accounted { w with db := db } := by
  rcases hret with rfl | ⟨old, hold, hid, -, new, hre, hnew⟩
  · exact h
  · refine h.restage hre fun row hrow => ⟨(hnew row hrow).1, fun hstate => ?_⟩
    rcases (hnew row hrow).2 with ⟨-, hunpublished⟩ | hpublished
    · exact hid ▸ h.pending old hold hunpublished
    · exact absurd hpublished hstate

/-- A stage is opened: a new one may acquire one more reference. -/
theorem claim (h : Accounted w) {request : StagedBlob} (hopened : Opened request w.db db) :
    Accounted { w with
      db := db
      inserted := if (w.db.stages.get? request.operationId).isSome then w.inserted
        else w.inserted ++ [request.operationId] } := by
  obtain ⟨new, hfor, -, -, hre⟩ := hopened.restaged
  split
  next hsome =>
    obtain ⟨old, hget⟩ := Option.isSome_iff_exists.mp hsome
    obtain ⟨hold, hid⟩ := Table.get?_eq_some.mp hget
    refine h.restage hre ?_
    rintro row ⟨⟩
    refine ⟨hfor.operationId, fun _ => hid ▸ h.pending old hold ?_⟩
    rcases (hopened.idle old hold hid).2 with hstate | hstate <;> simp [hstate]
  next =>
    have hinserted : Accounted { w with inserted := w.inserted ++ [request.operationId] } := by
      have hle : ∀ id, w.inserted.count id ≤ (w.inserted ++ [request.operationId]).count id :=
        fun id => List.Sublist.count_le id (List.sublist_append_left _ _)
      exact ⟨h.nonneg, h.kept, fun id => (h.once id).trans (hle id),
        fun row hrow hstate => (h.pending row hrow hstate).trans_le (hle _)⟩
    refine hinserted.restage hre ?_
    rintro row ⟨⟩
    refine ⟨hfor.operationId, fun _ => ?_⟩
    change w.acquired.countP _ < (w.inserted ++ [request.operationId]).count request.operationId
    rw [List.count_append, List.count_singleton_self]
    exact Nat.lt_succ_of_le (h.once request.operationId)

/-- A ready stage becomes a receipt, and acquires its reference. -/
theorem publish (h : Accounted w) {staged : StagedBlob} {old : StageRow}
    (hold : old ∈ w.db.stages) (hid : old.operationId = staged.operationId)
    (hready : old.state = .ready) (hlive : old.live w.db.clock = true) (publicationScope : String) :
    Accounted { w with
      db := publishRow staged.operationId publicationScope (acquireLocked staged.blob w.db)
      acquired := w.acquired ++ [(staged.operationId, staged.blob.hash)] } := by
  have hre : Restaged (acquireLocked staged.blob w.db) staged.operationId
      (some { old with
        state := .published
        publishedOwnerScope := some publicationScope
        leaseExpiresAtUtc := w.db.clock + receiptLeaseUs })
      (publishRow staged.operationId publicationScope (acquireLocked staged.blob w.db)) :=
    restaged_updateStage hold hid (by simp [hready, acquireLocked, hlive]) rfl
  have hpending := h.pending old hold (by rw [hready]; exact StageState.noConfusion)
  rw [hid] at hpending
  have hcount : ∀ hash,
      (publishRow staged.operationId publicationScope
        (acquireLocked staged.blob w.db)).referenceCount hash =
      w.db.referenceCount hash + if hash = staged.blob.hash then 1 else 0 := fun hash =>
    (referenceCount_congr rfl).trans (referenceCount_acquireLocked staged.blob)
  refine ⟨?_, ?_, ?_, ?_⟩
  · intro hash
    change 0 ≤ (publishRow _ _ _).referenceCount hash
    rw [hcount]
    have := h.nonneg hash
    split <;> omega
  · intro hash
    change (((w.acquired ++ [(staged.operationId, staged.blob.hash)]).countP (·.2 = hash) : ℕ) : ℤ)
      ≤ (publishRow _ _ _).referenceCount hash + w.released.count hash
    have := h.kept hash
    rw [hcount, List.countP_append, List.countP_singleton]
    by_cases heq : hash = staged.blob.hash
    · simp only [heq, decide_true, if_true] at this ⊢
      omega
    · simp only [heq, Ne.symm heq, decide_false, Bool.false_eq_true, if_false] at this ⊢
      omega
  · intro id
    change (w.acquired ++ [(staged.operationId, staged.blob.hash)]).countP (·.1 = id) ≤
      w.inserted.count id
    rw [List.countP_append, List.countP_singleton]
    by_cases heq : staged.operationId = id
    · simp only [heq, decide_true, if_true] at hpending ⊢
      omega
    · simpa [heq] using h.once id
  · intro row hrow hstate
    change (w.acquired ++ [(staged.operationId, staged.blob.hash)]).countP
      (·.1 = row.operationId) < w.inserted.count row.operationId
    rcases (hre.puts row).mp hrow with ⟨hrowOld, hne⟩ | heq
    · have hrowPending := h.pending row hrowOld hstate
      rw [List.countP_append, List.countP_singleton]
      simpa [Ne.symm hne] using hrowPending
    · rw [← Option.some.inj heq] at hstate
      exact absurd rfl hstate

theorem release (h : Accounted w) (hnumbered : Numbered w.db) {file : FileRow}
    (hfile : file ∈ w.db.files) :
    Accounted { w with
      db := (releaseLocked file.id w.db).2
      released := w.released ++ [file.hash] } := by
  have hcount := referenceCount_releaseLocked hnumbered hfile h.nonneg
  have hstages := (releaseLocked_frame file.id w.db).2.1
  refine ⟨fun hash => (hcount hash).1, ?_, h.once, fun row hrow => h.pending row (hstages ▸ hrow)⟩
  intro hash
  change (w.acquired.countP (·.2 = hash) : ℤ) ≤ (releaseLocked file.id w.db).2.referenceCount hash +
    (w.released ++ [file.hash]).count hash
  have hkept := h.kept hash
  have hle := (hcount hash).2
  rw [List.count_append, List.count_singleton]
  by_cases heq : hash = file.hash
  · simp only [heq, BEq.rfl, if_true] at hkept hle ⊢
    omega
  · simp only [heq, if_false] at hle
    omega

theorem step {lapse : Lapse} (h : Accounted w) (hnumbered : Numbered w.db)
    (hstep : Step lapse w w') : Accounted w' := by
  cases hstep with
  | tick => exact h.congr rfl rfl
  | claim _ hclaim =>
    rcases claimStage_eq_ok hclaim with ⟨-, hopened⟩ | ⟨_, hclaim', -⟩
    · exact { h.claim hopened with }
    · cases hclaim'
  | recover hclaim =>
    rcases claimStage_eq_ok hclaim with ⟨hclaim', -⟩ | ⟨_, -, hrecovered⟩
    · cases hclaim'
    · obtain ⟨old, hold, hfor, -, hstate, ⟨-, rfl⟩ | ⟨-, retention, -, hre⟩⟩ :=
        hrecovered.renewed
      · exact h
      · refine h.restage hre ?_
        rintro row ⟨⟩
        exact ⟨hfor.operationId, fun hrowState => hfor.operationId ▸ h.pending old hold hrowState⟩
  | store => exact { h with }
  | @ready _ call _ _ _ hready =>
    obtain ⟨-, old, hold, hid, -, hstate, hre⟩ := readyStage_eq_ok hready
    have hregistered : Accounted { w with db := registerFile call.staged.blob w.db } :=
      h.refile (fun _ => referenceCount_registerFile _) rfl
    have hrestaged := hregistered.restage hre (by
      rintro row ⟨⟩
      exact ⟨hid, fun _ => hid ▸ h.pending old hold (by rw [hstate]; exact StageState.noConfusion)⟩)
    exact { hrestaged with }
  | markFailed =>
    exact { h.retire retires_markFailed with }
  | abandonStore => exact { h with }
  | @publish _ staged scope _ _ _ hpublish =>
    obtain ⟨old, hold, hid, -, ⟨hpublished, rfl⟩ | ⟨hready, hlive, rfl⟩⟩ :=
      publishStagedBlobForOwner_eq_ok hpublish
    · have hget : w.db.stages.get? staged.operationId = some old :=
        Table.get?_eq_some.mpr ⟨hold, hid⟩
      simpa [hget, hpublished] using h
    · have hget : w.db.stages.get? staged.operationId = some old :=
        Table.get?_eq_some.mpr ⟨hold, hid⟩
      simpa [hget, hready] using h.publish hold hid hready hlive scope
  | consume hconsume =>
    rcases consumeStagedBlobWithExistingReferenceAs_eq_ok hconsume with rfl | rfl
    · exact h
    · exact h.retire retires_publishRow
  | attach => exact h.congr rfl rfl
  | detach => exact h.congr rfl rfl
  | release hfile => exact h.release hnumbered hfile
  | claimCleanup _ _ hclaim => exact { h.retire (retires_claimStageCleanup hclaim) with }
  | deleteCleanup => exact h.retire retires_deleteStageCleanupClaim
  | deferCleanup => exact h.retire retires_deferStageCleanupClaim
  | finishCleanup => exact h.retire retires_finishStageCleanupWithoutPurge
  | claimDeletion _ hclaim =>
    obtain ⟨-, -, -, -, _, -, rfl⟩ := claimBlobDeletion_eq_some hclaim
    exact { h.congr rfl rfl with }
  | skipDeletion hclaim =>
    rcases claimBlobDeletion_eq_none hclaim with rfl | ⟨-, rfl⟩
    · exact h
    · exact h.congr rfl rfl
  | delete => exact { h with }
  | @finishDeletion _ call _ _ =>
    have hstages := (finishBlobDeletion_frame call.hash call.operationId w.db).2.1
    exact { h.refile (referenceCount_finishBlobDeletion h.nonneg) hstages with }
  | failDeletion => exact { h.congr rfl rfl with }
  | abandonDeletion => exact { h with }

end Accounted

end Blobs

end Rsctf
