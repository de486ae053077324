import Rsctf.Blobs.Steps

/-!
# What is referenced has its bytes

A deletion under its lease has a hash which nothing refers to, and a worker under its lease has
the stage which it claimed.  So the bytes of a blob which is referenced, or of a ready stage under
its lease, are in the storage, unless a worker acts after its lease or a ready stage is revived
after its bytes were reclaimed.
-/

namespace Rsctf

namespace Blobs

variable {w w' : World} {db : Database} {hash : String} {operationId : Uuid}

/-- A file with references, or a row of the domain. -/
def Database.Owned (db : Database) (hash : String) : Prop :=
  (∃ file ∈ db.files, file.hash = hash ∧ 0 < file.referenceCount) ∨ hash ∈ db.owners

/-- The hash is owned, or a stage under its lease keeps it. -/
def Database.Referenced (db : Database) (hash : String) : Prop :=
  db.Owned hash ∨ ∃ row ∈ db.stages, row.contentHash = hash ∧ row.holds db.clock = true

theorem hashIsReferenced_iff : db.hashIsReferenced hash = true ↔ db.Referenced hash := by
  simp only [Database.hashIsReferenced, Database.Referenced, Database.Owned, Bool.or_eq_true,
    List.any_eq_true, Bool.and_eq_true, decide_eq_true_eq, Table.mem_def]

theorem deletionActive_eq_false_iff : db.deletionActive hash = false ↔
    ∀ row ∈ db.deletions, row.contentHash = hash → row.active db.clock = false := by
  rw [Database.deletionActive, List.any_eq_false]
  refine forall₂_congr fun row _ => ?_
  by_cases hrow : row.contentHash = hash <;> simp [hrow]

/-- The call is under its lease. -/
def StoreCall.Live (now : ℤ) (call : StoreCall) : Prop := now < call.leaseEnd

structure Resident (w : World) : Prop where
  unclaimed : ∀ row ∈ w.db.deletions, row.active w.db.clock = true →
    ¬w.db.Referenced row.contentHash
  claimed : ∀ call ∈ w.deleting, w.db.clock < call.leaseEnd → ∃ row ∈ w.db.deletions,
    row.contentHash = call.hash ∧ row.operationId = call.operationId ∧ row.state = .deleting ∧
      row.leaseExpiresAtUtc = call.leaseEnd
  issued : ∀ call ∈ w.deleting, call.operationId ∈ w.issued
  storing : ∀ call ∈ w.storing, call.Live w.db.clock → ∃ row ∈ w.db.stages,
    row.IsFor call.staged ∧ row.state = .storing ∧ row.leaseExpiresAtUtc = call.leaseEnd
  stored : ∀ call ∈ w.storing, call.Live w.db.clock → call.stored = true →
    call.staged.blob.hash ∈ w.objects
  alone : ∀ call ∈ w.storing, ∀ other ∈ w.storing, call.Live w.db.clock →
    other.Live w.db.clock → call.staged.operationId = other.staged.operationId → call = other
  ready : ∀ row ∈ w.db.stages, row.state = .ready → row.live w.db.clock = true →
    row.contentHash ∈ w.objects
  owned : ∀ hash, w.db.Owned hash → hash ∈ w.objects

theorem Initial.resident_world (h : Initial w) : Resident w where
  unclaimed := by
    rw [h.deletions]
    rintro row ⟨⟩
  claimed := by
    rw [h.deleting]
    rintro call ⟨⟩
  issued := by
    rw [h.deleting]
    rintro call ⟨⟩
  storing := by
    rw [h.storing]
    rintro call ⟨⟩
  stored := by
    rw [h.storing]
    rintro call ⟨⟩
  alone := by
    rw [h.storing]
    rintro call ⟨⟩
  ready := by
    rw [h.stages]
    rintro row ⟨⟩
  owned := fun hash howned => h.resident hash (hashIsReferenced_iff.mpr (.inl howned))

namespace Resident

section Database

/-- A live worker holds its stage, so nothing is deleted below it. -/
theorem storing_idle (h : Resident w) {old : StageRow} (hold : old ∈ w.db.stages)
    (hid : old.operationId = operationId) (hidle : old.Idle w.db.clock) :
    ∀ call ∈ w.storing, call.Live w.db.clock → call.staged.operationId ≠ operationId := by
  intro call hcall hlive hcallId
  obtain ⟨row, hrow, hfor, hstate, hlease⟩ := h.storing call hcall hlive
  have heq : row = old :=
    Table.eq_of_key_eq hrow hold (hfor.operationId.trans (hcallId.trans hid.symm))
  subst heq
  have hnow : w.db.clock < row.leaseExpiresAtUtc := hlease ▸ hlive
  simp [StageRow.Idle, StageRow.storingNow, StageRow.live, hstate, hnow] at hidle

/-- A statement about a stage which no worker is to store. -/
theorem restage (h : Resident w) {new : Option StageRow} (hre : Restaged w.db operationId new db)
    (hidle : ∀ call ∈ w.storing, call.Live w.db.clock → call.staged.operationId ≠ operationId)
    (hnew : ∀ row ∈ new, row.holds w.db.clock = true →
      w.db.deletionActive row.contentHash = false ∧
        (row.state = .ready → row.contentHash ∈ w.objects)) :
    Resident { w with db := db } := by
  obtain ⟨hput, hframe⟩ := hre
  rw [hframe]
  generalize db.stages = stages at hput
  refine ⟨?_, h.claimed, h.issued, ?_, h.stored, h.alone, ?_, h.owned⟩
  · rintro row hrow hactive (howned | ⟨stage, hstage, hhash, hholds⟩)
    · exact h.unclaimed row hrow hactive (.inl howned)
    · rcases (hput stage).mp hstage with ⟨hold, -⟩ | hstageNew
      · exact h.unclaimed row hrow hactive (.inr ⟨stage, hold, hhash, hholds⟩)
      · have hinactive := deletionActive_eq_false_iff.mp (hnew stage hstageNew hholds).1 row hrow
          hhash.symm
        exact absurd hactive (Bool.eq_false_iff.mp hinactive)
  · intro call hcall hlive
    obtain ⟨row, hrow, hfor, hrest⟩ := h.storing call hcall hlive
    refine ⟨row, (hput row).mpr (.inl ⟨hrow, ?_⟩), hfor, hrest⟩
    rw [hfor.operationId]
    exact hidle call hcall hlive
  · intro row hrow hstate hlive
    rcases (hput row).mp hrow with ⟨hold, -⟩ | hrowNew
    · exact h.ready row hold hstate hlive
    · exact (hnew row hrowNew (by simp [StageRow.holds, hstate, hlive])).2 hstate

theorem retire (h : Resident w) {q : StageRow → Prop} (hret : Retires q w.db operationId db)
    (hidle : ∀ old ∈ w.db.stages, old.operationId = operationId → q old → ∀ call ∈ w.storing,
      call.Live w.db.clock → call.staged.operationId ≠ operationId) :
    Resident { w with db := db } := by
  rcases hret with rfl | ⟨old, hold, hid, hq, new, hre, hnew⟩
  · exact h
  · refine h.restage hre (hidle old hold hid hq) fun row hrow hholds => ?_
    rcases (hnew row hrow).2 with ⟨hstate, -⟩ | hstate <;>
      simp [StageRow.holds, hstate] at hholds

theorem retire_idle (h : Resident w) {q : StageRow → Prop} (hret : Retires q w.db operationId db)
    (hq : ∀ old, q old → old.Idle w.db.clock) : Resident { w with db := db } :=
  h.retire hret fun _ hold hid hqold => h.storing_idle hold hid (hq _ hqold)

/-- A statement about the files and the owners. -/
theorem refile (h : Resident w) {files : Table FileRow.hash} {nextFileId : ℤ}
    {owners : List String}
    (howned : ∀ hash, { w.db with files, nextFileId, owners : Database }.Owned hash →
      w.db.Owned hash ∨ (hash ∈ w.objects ∧ w.db.deletionActive hash = false)) :
    Resident { w with db := { w.db with files, nextFileId, owners } } := by
  refine ⟨?_, h.claimed, h.issued, h.storing, h.stored, h.alone, h.ready, ?_⟩
  · rintro row hrow hactive (hnew | hstage)
    · rcases howned _ hnew with hold | ⟨-, hinactive⟩
      · exact h.unclaimed row hrow hactive (.inl hold)
      · exact absurd hactive
          (Bool.eq_false_iff.mp (deletionActive_eq_false_iff.mp hinactive row hrow rfl))
    · exact h.unclaimed row hrow hactive (.inr hstage)
  · intro hash hnew
    rcases howned hash hnew with hold | ⟨hmem, -⟩
    · exact h.owned hash hold
    · exact hmem

/-- A statement about the deletions. -/
theorem redelete (h : Resident w) {deletions : Table DeletionRow.contentHash}
    (hunclaimed : ∀ row ∈ deletions, row.active w.db.clock = true → row ∈ w.db.deletions ∨
      ¬w.db.Referenced row.contentHash)
    (hclaimed : ∀ call ∈ w.deleting, ∀ row ∈ w.db.deletions, row.active w.db.clock = true →
      row.contentHash = call.hash → row.operationId = call.operationId → row ∈ deletions) :
    Resident { w with db := { w.db with deletions } } := by
  refine ⟨?_, ?_, h.issued, h.storing, h.stored, h.alone, h.ready, h.owned⟩
  · intro row hrow hactive
    rcases hunclaimed row hrow hactive with hold | hfree
    · exact h.unclaimed row hold hactive
    · exact hfree
  · intro call hcall hlive
    obtain ⟨row, hrow, hhash, hid, hstate, hlease⟩ := h.claimed call hcall hlive
    have hactive : row.active w.db.clock = true := by
      simp [DeletionRow.active, hstate, hlease, hlive]
    exact ⟨row, hclaimed call hcall row hrow hactive hhash hid, hhash, hid, hstate, hlease⟩

end Database

section Calls

/-- A worker which stores is gone. -/
theorem dropStore (h : Resident w) (call : StoreCall) :
    Resident { w with storing := w.storing.filter (· ≠ call) } where
  unclaimed := h.unclaimed
  claimed := h.claimed
  issued := h.issued
  storing := fun other hother => h.storing other (List.mem_of_mem_filter hother)
  stored := fun other hother => h.stored other (List.mem_of_mem_filter hother)
  alone := fun call₁ h₁ call₂ h₂ =>
    h.alone call₁ (List.mem_of_mem_filter h₁) call₂ (List.mem_of_mem_filter h₂)
  ready := h.ready
  owned := h.owned

/-- Without the worker which held it, no live worker is left for the stage. -/
theorem dropStore_idle (h : Resident w) {call : StoreCall} (hcall : call ∈ w.storing)
    (hlive : call.Live w.db.clock) : ∀ other ∈ w.storing.filter (· ≠ call),
      other.Live w.db.clock → other.staged.operationId ≠ call.staged.operationId := by
  intro other hother hotherLive hid
  obtain ⟨hmem, hne⟩ := List.mem_filter.mp hother
  exact of_decide_eq_true hne (h.alone other hmem call hcall hotherLive hlive hid)

theorem dropDelete (h : Resident w) (call : DeleteCall) :
    Resident { w with deleting := w.deleting.keep fun other => decide (other ≠ call) } where
  unclaimed := h.unclaimed
  claimed := fun other hother => h.claimed other (Table.mem_keep.mp hother).1
  issued := fun other hother => h.issued other (Table.mem_keep.mp hother).1
  storing := h.storing
  stored := h.stored
  alone := h.alone
  ready := h.ready
  owned := h.owned

/-- A worker claimed the stage. -/
theorem pushStore (h : Resident w) {call : StoreCall} {row : StageRow} (hrow : row ∈ w.db.stages)
    (hfor : row.IsFor call.staged) (hstate : row.state = .storing)
    (hlease : row.leaseExpiresAtUtc = call.leaseEnd) (hstored : call.stored = false)
    (hidle : ∀ other ∈ w.storing, other.Live w.db.clock →
      other.staged.operationId ≠ call.staged.operationId) :
    Resident { w with storing := w.storing ++ [call] } where
  unclaimed := h.unclaimed
  claimed := h.claimed
  issued := h.issued
  storing := by
    intro other hother hlive
    rcases List.mem_append.mp hother with hold | hnew
    · exact h.storing other hold hlive
    · rw [List.mem_singleton.mp hnew]
      exact ⟨row, hrow, hfor, hstate, hlease⟩
  stored := by
    intro other hother hlive hotherStored
    rcases List.mem_append.mp hother with hold | hnew
    · exact h.stored other hold hlive hotherStored
    · rw [List.mem_singleton.mp hnew, hstored] at hotherStored
      exact Bool.noConfusion hotherStored
  alone := by
    intro call₁ h₁ call₂ h₂ hlive₁ hlive₂ hid
    rcases List.mem_append.mp h₁ with hold₁ | hnew₁ <;>
      rcases List.mem_append.mp h₂ with hold₂ | hnew₂
    · exact h.alone call₁ hold₁ call₂ hold₂ hlive₁ hlive₂ hid
    · rw [List.mem_singleton.mp hnew₂] at hid
      exact absurd hid (hidle call₁ hold₁ hlive₁)
    · rw [List.mem_singleton.mp hnew₁] at hid
      exact absurd hid.symm (hidle call₂ hold₂ hlive₂)
    · rw [List.mem_singleton.mp hnew₁, List.mem_singleton.mp hnew₂]
  ready := h.ready
  owned := h.owned

/-- The bytes of a stage were stored. -/
theorem storeBytes (h : Resident w) (call : StoreCall) :
    Resident { w with
      objects := call.staged.blob.hash :: w.objects
      storing := w.storing.map fun other =>
        if other = call then { call with stored := true } else other } := by
  have hsource : ∀ other ∈ w.storing.map (fun other =>
      if other = call then { call with stored := true } else other), ∃ old ∈ w.storing,
        other = if old = call then { call with stored := true } else old := fun other hother => by
    obtain ⟨old, hold, rfl⟩ := List.mem_map.mp hother
    exact ⟨old, hold, rfl⟩
  have hkept : ∀ old : StoreCall,
      (if old = call then { call with stored := true } else old).staged = old.staged ∧
        (if old = call then { call with stored := true } else old).leaseEnd = old.leaseEnd := by
    intro old
    split
    next heq => exact ⟨heq ▸ rfl, heq ▸ rfl⟩
    next => exact ⟨rfl, rfl⟩
  refine ⟨h.unclaimed, h.claimed, h.issued, ?_, ?_, ?_, ?_, ?_⟩
  · intro other hother hlive
    obtain ⟨old, hold, rfl⟩ := hsource other hother
    rw [StoreCall.Live, (hkept old).2] at hlive
    rw [(hkept old).1, (hkept old).2]
    exact h.storing old hold hlive
  · intro other hother hlive hstored
    obtain ⟨old, hold, rfl⟩ := hsource other hother
    rw [StoreCall.Live, (hkept old).2] at hlive
    rw [(hkept old).1]
    by_cases heq : old = call
    · rw [heq]
      exact List.mem_cons_self
    · rw [if_neg heq] at hstored
      exact List.mem_cons_of_mem _ (h.stored old hold hlive hstored)
  · intro call₁ h₁ call₂ h₂ hlive₁ hlive₂ hid
    obtain ⟨old₁, hold₁, rfl⟩ := hsource call₁ h₁
    obtain ⟨old₂, hold₂, rfl⟩ := hsource call₂ h₂
    rw [StoreCall.Live, (hkept old₁).2] at hlive₁
    rw [StoreCall.Live, (hkept old₂).2] at hlive₂
    rw [(hkept old₁).1, (hkept old₂).1] at hid
    rw [h.alone old₁ hold₁ old₂ hold₂ hlive₁ hlive₂ hid]
  · exact fun row hrow hstate hlive => List.mem_cons_of_mem _ (h.ready row hrow hstate hlive)
  · exact fun hash howned => List.mem_cons_of_mem _ (h.owned hash howned)

/-- A worker claimed the deletion. -/
theorem pushDelete (h : Resident w) {call : DeleteCall} (hfresh : call.operationId ∉ w.issued)
    (hclaimed : ∃ row ∈ w.db.deletions, row.contentHash = call.hash ∧
      row.operationId = call.operationId ∧ row.state = .deleting ∧
        row.leaseExpiresAtUtc = call.leaseEnd) :
    Resident { w with
      deleting := w.deleting.upsert call (fun other => other) fun _ => rfl
      issued := call.operationId :: w.issued } := by
  have hsource : ∀ other ∈ w.deleting.upsert call (fun other => other) fun _ => rfl,
      other ∈ w.deleting ∨ other = call := by
    intro other hother
    rcases Table.mem_upsert.mp hother with ⟨_, hold, -, rfl⟩ | ⟨hold, -⟩ | ⟨heq, -⟩
    · exact .inl hold
    · exact .inl hold
    · exact .inr heq
  refine ⟨h.unclaimed, ?_, ?_, h.storing, h.stored, h.alone, h.ready, h.owned⟩
  · intro other hother hlive
    rcases hsource other hother with hold | rfl
    · exact h.claimed other hold hlive
    · exact hclaimed
  · intro other hother
    rcases hsource other hother with hold | rfl
    · exact List.mem_cons_of_mem _ (h.issued other hold)
    · exact List.mem_cons_self

/-- Nothing which needs its bytes has the hash of a live deletion. -/
theorem deleteBytes (h : Resident w) {call : DeleteCall} (hcall : call ∈ w.deleting)
    (hlive : w.db.clock < call.leaseEnd) :
    Resident { w with
      objects := w.objects.filter (· ≠ call.hash)
      deleting := w.deleting.update (fun other => decide (other = call))
        (fun other => { other with deleted := true }) fun _ => rfl } := by
  have hfree : ¬w.db.Referenced call.hash := by
    obtain ⟨row, hrow, hhash, -, hstate, hlease⟩ := h.claimed call hcall hlive
    rw [← hhash]
    exact h.unclaimed row hrow (by simp [DeletionRow.active, hstate, hlease, hlive])
  have hkeep : ∀ hash, w.db.Referenced hash → hash ∈ w.objects →
      hash ∈ w.objects.filter (· ≠ call.hash) := by
    intro hash hreferenced hmem
    refine List.mem_filter.mpr ⟨hmem, decide_eq_true ?_⟩
    rintro rfl
    exact hfree hreferenced
  have hsource : ∀ other ∈ w.deleting.update (fun other => decide (other = call))
      (fun other => { other with deleted := true }) fun _ => rfl, ∃ old ∈ w.deleting,
        old.hash = other.hash ∧ old.operationId = other.operationId ∧
          old.leaseEnd = other.leaseEnd := by
    intro other hother
    rcases Table.mem_update.mp hother with ⟨old, hold, -, rfl⟩ | ⟨hold, -⟩
    · exact ⟨old, hold, rfl, rfl, rfl⟩
    · exact ⟨other, hold, rfl, rfl, rfl⟩
  refine ⟨h.unclaimed, ?_, ?_, h.storing, ?_, h.alone, ?_, ?_⟩
  · intro other hother hotherLive
    obtain ⟨old, hold, hhash, hid, hlease⟩ := hsource other hother
    rw [← hhash, ← hid, ← hlease]
    exact h.claimed old hold (hlease ▸ hotherLive)
  · intro other hother
    obtain ⟨old, hold, -, hid, -⟩ := hsource other hother
    exact hid ▸ h.issued old hold
  · intro other hother hotherLive hstored
    obtain ⟨row, hrow, hfor, hstate, hlease⟩ := h.storing other hother hotherLive
    refine hkeep _ (.inr ⟨row, hrow, hfor.contentHash, ?_⟩)
      (h.stored other hother hotherLive hstored)
    have hnow : w.db.clock < row.leaseExpiresAtUtc := hlease ▸ hotherLive
    simp [StageRow.holds, StageRow.live, hstate, hnow]
  · intro row hrow hstate hrowLive
    refine hkeep _ (.inr ⟨row, hrow, rfl, ?_⟩) (h.ready row hrow hstate hrowLive)
    simp [StageRow.holds, hstate, hrowLive]
  · exact fun hash howned => hkeep hash (.inl howned) (h.owned hash howned)

end Calls

section Steps

variable {lapse : Lapse} {staged request : StagedBlob}

theorem tick (h : Resident w) {now : ℤ} (hnow : w.db.clock ≤ now) :
    Resident { w with db := { w.db with clock := now } } := by
  have hlive : ∀ {lease : ℤ}, now < lease → w.db.clock < lease := fun hlease =>
    lt_of_le_of_lt hnow hlease
  have hholds : ∀ row : StageRow, row.holds now = true → row.holds w.db.clock = true := by
    intro row hrow
    simp only [StageRow.holds, StageRow.live, Bool.and_eq_true, decide_eq_true_eq] at hrow ⊢
    exact ⟨hrow.1, hlive hrow.2⟩
  refine ⟨?_, fun call hcall hcallLive => h.claimed call hcall (hlive hcallLive), h.issued,
    fun call hcall hcallLive => h.storing call hcall (hlive hcallLive),
    fun call hcall hcallLive => h.stored call hcall (hlive hcallLive),
    fun call₁ h₁ call₂ h₂ hlive₁ hlive₂ => h.alone call₁ h₁ call₂ h₂ (hlive hlive₁) (hlive hlive₂),
    ?_, h.owned⟩
  · intro row hrow hactive hreferenced
    refine h.unclaimed row hrow ?_ ?_
    · simp only [DeletionRow.active, Bool.and_eq_true, decide_eq_true_eq] at hactive ⊢
      exact ⟨hactive.1, hlive hactive.2⟩
    · rcases hreferenced with howned | ⟨stage, hstage, hhash, hstageHolds⟩
      · exact .inl howned
      · exact .inr ⟨stage, hstage, hhash, hholds stage hstageHolds⟩
  · intro row hrow hstate hrowLive
    exact h.ready row hrow hstate (decide_eq_true (hlive (of_decide_eq_true hrowLive)))

theorem claim (h : Resident w) (hopened : Opened request w.db db) :
    Resident { w with
      db := db
      storing := w.storing ++ [⟨request, w.db.clock + stageLeaseUs, false⟩] } := by
  obtain ⟨new, hfor, hstate, hlease, hre⟩ := hopened.restaged
  have hidle : ∀ call ∈ w.storing, call.Live w.db.clock →
      call.staged.operationId ≠ request.operationId := by
    intro call hcall hlive hid
    obtain ⟨row, hrow, hrowFor, -, hrowLease⟩ := h.storing call hcall hlive
    have hexpired := (hopened.idle row hrow (hrowFor.operationId.trans hid)).1
    exact of_decide_eq_false hexpired (hrowLease ▸ hlive)
  have hrestaged : Resident { w with db := db } := by
    refine h.restage hre hidle ?_
    rintro row ⟨⟩ -
    refine ⟨hfor.contentHash ▸ hopened.inactive, fun hready => ?_⟩
    rw [hstate] at hready
    cases hready
  have hclock : db.clock = w.db.clock := by
    rw [hre.frame]
  refine hrestaged.pushStore hre.puts.mem hfor hstate hlease rfl fun other hother hlive => ?_
  exact hidle other hother (hclock ▸ hlive)

theorem recover (h : Resident w) (hrecovered : Recovered request staged w.db db)
    (hblind : w.recovery request.operationId ≠ .blindRevival) : Resident { w with db := db } := by
  obtain ⟨old, hold, hfor, -, hstate, ⟨-, rfl⟩ | ⟨hlease, retention, -, hre⟩⟩ :=
    hrecovered.renewed
  · exact h
  · have hidle : old.Idle w.db.clock := by
      refine StageRow.idle_of_state fun hstoring => ?_
      rcases hstate with hstate | hstate <;> simp [hstate] at hstoring
    refine h.restage hre (h.storing_idle hold hfor.operationId hidle) ?_
    rintro row ⟨⟩ -
    refine ⟨hfor.contentHash ▸ hrecovered.inactive, fun hready => ?_⟩
    by_contra habsent
    refine hblind ?_
    simp only [World.recovery, Table.get?_eq_some.mpr ⟨hold, hfor.operationId⟩]
    rw [if_pos ⟨hready, not_lt.mp (of_decide_eq_false hlease)⟩, if_neg habsent]

/-- A row of a file is written without a new reference. -/
theorem registerFile (h : Resident w) (blob : StoredBlob) :
    Resident { w with db := registerFile blob w.db } := by
  refine h.refile fun hash howned => .inl ?_
  rcases howned with ⟨file, hfile, hhash, hcount⟩ | howner
  · rcases Table.mem_upsert.mp hfile with ⟨old, hold, -, rfl⟩ | ⟨hold, -⟩ | ⟨rfl, -⟩
    · exact .inl ⟨old, hold, hhash, hcount⟩
    · exact .inl ⟨file, hold, hhash, hcount⟩
    · exact absurd hcount (lt_irrefl 0)
  · exact .inr howner

theorem ready_step (h : Resident w) {call : StoreCall} (hcall : call ∈ w.storing)
    (hlive : call.Live w.db.clock) (hstored : call.stored = true)
    (hready : readyStage call.staged w.db = .ok db) :
    Resident { w with db := db, storing := w.storing.filter (· ≠ call) } := by
  obtain ⟨hinactive, old, hold, hid, hhash, -, hre⟩ := readyStage_eq_ok hready
  refine ((h.dropStore call).registerFile call.staged.blob).restage hre
    (h.dropStore_idle hcall hlive) ?_
  rintro row ⟨⟩ -
  exact ⟨hhash ▸ hinactive, fun _ => hhash ▸ h.stored call hcall hlive hstored⟩

theorem publish (h : Resident w) {old : StageRow} (hold : old ∈ w.db.stages)
    (hhash : old.contentHash = staged.blob.hash) (hready : old.state = .ready)
    (hlive : old.live w.db.clock = true) (publicationScope : String) :
    Resident { w with
      db := publishRow staged.operationId publicationScope (acquireLocked staged.blob w.db) } := by
  have hacquired : Resident { w with db := acquireLocked staged.blob w.db } := by
    refine h.refile fun hash howned => ?_
    rcases howned with ⟨file, hfile, hfileHash, hcount⟩ | howner
    · have hresident : staged.blob.hash ∈ w.objects := hhash ▸ h.ready old hold hready hlive
      have hinactive : w.db.deletionActive staged.blob.hash = false := by
        refine deletionActive_eq_false_iff.mpr fun row hrow hrowHash => ?_
        refine Bool.eq_false_iff.mpr fun hactive => h.unclaimed row hrow hactive (.inr ?_)
        exact ⟨old, hold, hhash.trans hrowHash.symm, by simp [StageRow.holds, hready, hlive]⟩
      rcases Table.mem_upsert.mp hfile with ⟨old', -, hkey, rfl⟩ | ⟨hold', -⟩ | ⟨rfl, -⟩
      · exact .inr (hfileHash ▸ hkey ▸ ⟨hresident, hinactive⟩)
      · exact .inl (.inl ⟨file, hold', hfileHash, hcount⟩)
      · exact .inr (hfileHash ▸ ⟨hresident, hinactive⟩)
    · exact .inl (.inr howner)
  exact hacquired.retire_idle retires_publishRow fun row hrow =>
    StageRow.idle_of_state (by rw [hrow]; exact StageState.noConfusion)

/-- A reference is given back: what is owned was owned before. -/
theorem release (h : Resident w) (hnumbered : Numbered w.db) (id : ℤ) :
    Resident { w with db := (releaseLocked id w.db).2 } := by
  have hset : ∀ (count : ℤ) (row : FileRow), row ∈ w.db.files → row.id = id →
      (0 < count → w.db.Owned row.hash) →
        Resident { w with db := w.db.setReferenceCount id count } := by
    intro count row hrow hid hcount
    refine h.refile fun hash howned => .inl ?_
    rcases howned with ⟨file, hfile, rfl, hfileCount⟩ | howner
    · rcases mem_setReferenceCount.mp hfile with ⟨old, hold, holdId, rfl⟩ | ⟨hfile', -⟩
      · rw [hnumbered.ids old hold row hrow (holdId.trans hid.symm)] at hfileCount ⊢
        exact hcount hfileCount
      · exact .inl ⟨file, hfile', rfl, hfileCount⟩
    · exact .inr howner
  unfold releaseLocked
  split
  next => exact h
  next row hfind =>
    have hrow : row ∈ w.db.files := List.mem_of_find?_eq_some hfind
    have hid : row.id = id := by simpa using List.find?_some hfind
    split
    next hcount =>
      exact hset _ row hrow hid fun _ => .inl ⟨row, hrow, rfl, lt_trans one_pos hcount⟩
    next =>
      split
      next howner => exact hset _ row hrow hid fun _ => .inr howner
      next => exact hset _ row hrow hid fun hcount => absurd hcount (lt_irrefl 0)

theorem claimDeletion (h : Resident w) {id : Uuid} (hfresh : id ∉ w.issued)
    (hclaim : claimBlobDeletion hash id w.db = .ok (some id, db)) :
    Resident { w with
      db := db
      deleting := w.deleting.upsert ⟨hash, id, w.db.clock + deletionLeaseUs, false⟩
        (fun call => call) fun _ => rfl
      issued := id :: w.issued } := by
  obtain ⟨-, hfree, hinactive, -, deletions, hput, rfl⟩ := claimBlobDeletion_eq_some hclaim
  have hredeleted : Resident { w with db := { w.db with deletions } } := by
    refine h.redelete ?_ ?_
    · intro row hrow hactive
      rcases (hput row).mp hrow with ⟨hold, -⟩ | hnew
      · exact .inl hold
      · obtain rfl := Option.some.inj hnew
        refine .inr fun hreferenced => ?_
        rw [hashIsReferenced_iff.mpr hreferenced] at hfree
        exact Bool.noConfusion hfree
    · intro call _ row hrow hactive _ _
      refine (hput row).mpr (.inl ⟨hrow, fun hhash => ?_⟩)
      exact Bool.eq_false_iff.mp (deletionActive_eq_false_iff.mp hinactive row hrow hhash) hactive
  exact hredeleted.pushDelete hfresh ⟨_, hput.mem, rfl, rfl, rfl, rfl⟩

theorem skipDeletion (h : Resident w) {id : Uuid}
    (hclaim : claimBlobDeletion hash id w.db = .ok (none, db)) : Resident { w with db := db } := by
  rcases claimBlobDeletion_eq_none hclaim with rfl | ⟨hreferenced, rfl⟩
  · exact h
  · refine h.redelete (fun row hrow _ => .inl (Table.mem_keep.mp hrow).1) ?_
    intro call _ row hrow hactive _ _
    refine Table.mem_keep.mpr ⟨hrow, decide_eq_true fun hhash => ?_⟩
    exact h.unclaimed row hrow hactive (hhash ▸ hashIsReferenced_iff.mp hreferenced)

/-- The row of a deletion is dropped with the call which claimed it. -/
theorem dropDeletion (h : Resident w) {call : DeleteCall} (hcall : call ∈ w.deleting) :
    Resident { w with
      db := w.db.dropDeletion call.hash call.operationId
      deleting := w.deleting.keep fun other => decide (other ≠ call) } := by
  refine (h.dropDelete call).redelete (fun row hrow _ => .inl (Table.mem_keep.mp hrow).1) ?_
  intro other hother row hrow _ _ hid
  obtain ⟨hmem, hne⟩ := Table.mem_keep.mp hother
  refine Table.mem_keep.mpr ⟨hrow, ?_⟩
  have hother' : row.operationId ≠ call.operationId := fun heq =>
    of_decide_eq_true hne (Table.eq_of_key_eq hmem hcall (hid.symm.trans heq))
  simp [hother']

theorem finishDeletion (h : Resident w) {call : DeleteCall} (hcall : call ∈ w.deleting) :
    Resident { w with
      db := (finishBlobDeletion call.hash call.operationId w.db).2
      deleting := w.deleting.keep fun other => decide (other ≠ call) } := by
  unfold finishBlobDeletion
  split
  next =>
    split
    next => exact h.dropDeletion hcall
    next =>
      refine (h.dropDeletion hcall).refile fun hash howned => .inl ?_
      rcases howned with ⟨file, hfile, hhash, hcount⟩ | howner
      · exact .inl ⟨file, (Table.mem_keep.mp hfile).1, hhash, hcount⟩
      · exact .inr howner
  next => exact h.dropDelete call

theorem failDeletion (h : Resident w) {call : DeleteCall} (hcall : call ∈ w.deleting)
    (error : String) :
    Resident { w with
      db := markBlobDeletionFailed call.hash call.operationId error w.db
      deleting := w.deleting.keep fun other => decide (other ≠ call) } := by
  refine (h.dropDelete call).redelete ?_ ?_
  · intro row hrow hactive
    rcases Table.mem_update.mp hrow with ⟨old, -, -, rfl⟩ | ⟨hold, -⟩
    · simp [DeletionRow.active] at hactive
    · exact .inl hold
  · intro other hother row hrow _ _ hid
    obtain ⟨hmem, hne⟩ := Table.mem_keep.mp hother
    refine Table.mem_update.mpr (.inr ⟨hrow, ?_⟩)
    have hother' : row.operationId ≠ call.operationId := fun heq =>
      of_decide_eq_true hne (Table.eq_of_key_eq hmem hcall (hid.symm.trans heq))
    simp [hother']

theorem step (h : Resident w) (hnumbered : Numbered w.db) (hstep : Step lapse w w')
    (hlate : lapse ≠ .lateWorker) (hblind : lapse ≠ .blindRevival) : Resident w' := by
  have hlive : ∀ {leaseEnd : ℤ}, lapse = lapseOf w.db.clock leaseEnd → w.db.clock < leaseEnd := by
    intro leaseEnd heq
    by_contra hnow
    exact hlate (heq.trans (if_neg hnow))
  have hfailed : ∀ old : StageRow, old.state = .failed → old.Idle w.db.clock := fun old hold =>
    StageRow.idle_of_state (by rw [hold]; exact StageState.noConfusion)
  cases hstep with
  | tick hnow => exact h.tick hnow
  | claim _ hclaim =>
    rcases claimStage_eq_ok hclaim with ⟨-, hopened⟩ | ⟨_, hclaim', -⟩
    · exact { h.claim hopened with }
    · cases hclaim'
  | recover hclaim =>
    rcases claimStage_eq_ok hclaim with ⟨hclaim', -⟩ | ⟨_, -, hrecovered⟩
    · cases hclaim'
    · exact h.recover hrecovered hblind
  | store => exact h.storeBytes _
  | ready hcall hstored hready => exact h.ready_step hcall (hlive rfl) hstored hready
  | @markFailed _ call hcall error =>
    refine (h.dropStore call).retire retires_markFailed fun old hold hid _ => ?_
    exact h.dropStore_idle hcall (hlive rfl)
  | abandonStore call => exact h.dropStore call
  | publish hpublish =>
    obtain ⟨_, hold, -, hhash, ⟨-, rfl⟩ | ⟨hready, hrowLive, rfl⟩⟩ :=
      publishStagedBlobForOwner_eq_ok hpublish
    · exact { h with }
    · exact { h.publish hold hhash hready hrowLive _ with }
  | consume hconsume =>
    rcases consumeStagedBlobWithExistingReferenceAs_eq_ok hconsume with rfl | rfl
    · exact h
    · exact h.retire_idle retires_publishRow fun row hrow =>
        StageRow.idle_of_state (by rw [hrow]; exact StageState.noConfusion)
  | attach hfile hcount =>
    refine h.refile fun hash howned => .inl ?_
    rcases howned with hold | howner
    · exact .inl hold
    · rcases List.mem_cons.mp howner with rfl | hold
      · exact .inl ⟨_, hfile, rfl, hcount⟩
      · exact .inr hold
  | detach hash =>
    refine h.refile fun other howned => .inl ?_
    exact howned.imp_right List.mem_of_mem_erase
  | release => exact { h.release hnumbered _ with }
  | claimCleanup _ _ hclaim =>
    have hretired := h.retire_idle (retires_claimStageCleanup hclaim) fun _ hq => hq
    exact { hretired with
      issued := fun call hcall => List.mem_cons_of_mem _ (h.issued call hcall) }
  | deleteCleanup => exact h.retire_idle retires_deleteStageCleanupClaim hfailed
  | deferCleanup => exact h.retire_idle retires_deferStageCleanupClaim hfailed
  | finishCleanup => exact h.retire_idle retires_finishStageCleanupWithoutPurge hfailed
  | claimDeletion hfresh hclaim => exact h.claimDeletion hfresh hclaim
  | skipDeletion hclaim => exact h.skipDeletion hclaim
  | delete hcall => exact h.deleteBytes hcall (hlive rfl)
  | finishDeletion hcall => exact h.finishDeletion hcall
  | failDeletion hcall error => exact h.failDeletion hcall error
  | abandonDeletion call => exact h.dropDelete call

end Steps

end Resident

section Runs

variable {allowed : Lapse → Prop}

theorem Reachable.numbered (h : Reachable allowed w) : Numbered w.db := by
  obtain ⟨start, hstart, hrun⟩ := h
  induction hrun with
  | refl => exact ⟨hstart.fileIds, hstart.nextFileId⟩
  | tail _ hstep ih =>
    obtain ⟨_, -, hstep⟩ := hstep
    exact hstep.numbered ih

theorem Reachable.step_of {lapse : Lapse} (h : Reachable allowed w) (hallowed : allowed lapse)
    (hstep : Step lapse w w') : Reachable allowed w' := by
  obtain ⟨start, hstart, hrun⟩ := h
  exact ⟨start, hstart, hrun.tail ⟨lapse, hallowed, hstep⟩⟩

theorem Reachable.resident_world (h : Reachable allowed w) (hlate : ¬allowed .lateWorker)
    (hblind : ¬allowed .blindRevival) : Resident w := by
  obtain ⟨start, hstart, hrun⟩ := h
  induction hrun with
  | refl => exact hstart.resident_world
  | @tail last next hrun hstep ih =>
    obtain ⟨lapse, hallowed, hstep⟩ := hstep
    have hnumbered : Numbered last.db := Reachable.numbered ⟨start, hstart, hrun⟩
    refine ih.step hnumbered hstep ?_ ?_
    · rintro rfl
      exact hlate hallowed
    · rintro rfl
      exact hblind hallowed

end Runs

end Blobs

end Rsctf
