import Mathlib.Algebra.Order.BigOperators.Group.List
import Rsctf.Blobs.Residency
import Rsctf.Data.Census

/-!
# How much is stored and deleted at once

A stage is opened after the stores under their leases were counted, and a deletion is claimed
after the deletions were; nothing else adds to them.  The bytes of the stages under their leases
are bounded too, as long as no lease which ended is given to a stage again.
-/

namespace Rsctf

namespace Blobs

variable {w w' : World} {db db' : Database} {operationId : Uuid}

def StageRow.storingWeight (now : ℤ) (row : StageRow) : ℕ := if row.storingNow now then 1 else 0

def StageRow.heldBytes (now : ℤ) (row : StageRow) : ℤ := if row.holds now then row.fileSize else 0

theorem activeStores_eq (db : Database) :
    db.activeStores = db.stages.weight (StageRow.storingWeight db.clock) :=
  Table.countP_rows db.stages (StageRow.storingNow db.clock)

theorem activeBytes_eq (db : Database) :
    db.activeBytes = db.stages.weight (StageRow.heldBytes db.clock) := rfl

/-- The deletions under their leases. -/
def Database.activeDeletions (db : Database) : ℕ :=
  db.deletions.rows.countP (DeletionRow.active db.clock)

section Statements

variable {old new : StageRow}

/-- What a statement about one stage does to a sum over the stages. -/
theorem Restaged.weight_add {new : Option StageRow} {M : Type} [AddCommMonoid M]
    (hre : Restaged db operationId new db')
    (hnew : ∀ row ∈ new, row.operationId = operationId) (g : StageRow → M) :
    db'.stages.weight g + (db.stages.get? operationId).elim 0 g =
      db.stages.weight g + new.elim 0 g :=
  hre.puts.weight_add hnew g

theorem Restaged.weight_le {new : Option StageRow} {M : Type} [AddCommMonoid M] [PartialOrder M]
    [IsOrderedCancelAddMonoid M] (hre : Restaged db operationId new db')
    (hnew : ∀ row ∈ new, row.operationId = operationId) {g : StageRow → M}
    (hle : new.elim 0 g ≤ (db.stages.get? operationId).elim 0 g) :
    db'.stages.weight g ≤ db.stages.weight g := by
  refine le_of_add_le_add_right (a := (db.stages.get? operationId).elim 0 g) ?_
  rw [hre.weight_add hnew g]
  exact add_le_add_right hle _

theorem elim_nonneg {M : Type} [AddCommMonoid M] [Preorder M] {g : StageRow → M}
    (h : ∀ row ∈ db.stages, 0 ≤ g row) (operationId : Uuid) :
    0 ≤ (db.stages.get? operationId).elim 0 g := by
  cases hget : db.stages.get? operationId with
  | none => exact le_rfl
  | some row => exact h row (Table.get?_eq_some.mp hget).1

/-- A statement which takes a stage out of service adds to no sum over the stages in service. -/
theorem Retires.weight_le {q : StageRow → Prop} {M : Type} [AddCommMonoid M] [PartialOrder M]
    [IsOrderedCancelAddMonoid M] (hret : Retires q db operationId db') {g : StageRow → M}
    (hnonneg : ∀ row ∈ db.stages, 0 ≤ g row)
    (hzero : ∀ row : StageRow, row.state = .failed ∨ row.state = .published → g row = 0) :
    db'.stages.weight g ≤ db.stages.weight g := by
  rcases hret with rfl | ⟨_, -, -, -, new, hre, hnew⟩
  · exact le_rfl
  · refine hre.weight_le (fun row hrow => (hnew row hrow).1) ?_
    cases new with
    | none => exact elim_nonneg hnonneg operationId
    | some row =>
      have hrow := (hnew row rfl).2
      have hg : g row = 0 := hzero row (hrow.imp_left And.left)
      exact hg.le.trans (elim_nonneg hnonneg operationId)

theorem Retires.clock_eq {q : StageRow → Prop} (hret : Retires q db operationId db') :
    db'.clock = db.clock ∧ db'.deletions = db.deletions := by
  rcases hret with rfl | ⟨_, -, -, -, _, hre, -⟩
  · exact ⟨rfl, rfl⟩
  · rw [hre.frame]
    exact ⟨rfl, rfl⟩

theorem Restaged.clock_eq {new : Option StageRow} (hre : Restaged db operationId new db') :
    db'.clock = db.clock ∧ db'.deletions = db.deletions := by
  rw [hre.frame]
  exact ⟨rfl, rfl⟩

end Statements

section Jobs

variable {lapse : Lapse}

theorem storingWeight_eq_zero {now : ℤ} {row : StageRow} (h : row.state ≠ .storing) :
    row.storingWeight now = 0 := if_neg (Bool.eq_false_iff.mp (StageRow.idle_of_state h))

theorem Retires.activeStores_le {q : StageRow → Prop} (hret : Retires q db operationId db') :
    db'.activeStores ≤ db.activeStores := by
  rw [activeStores_eq, activeStores_eq, hret.clock_eq.1]
  refine hret.weight_le (fun _ _ => Nat.zero_le _) fun row hstate => storingWeight_eq_zero ?_
  rcases hstate with hstate | hstate <;> simp [hstate]

/-- A statement which leaves a row that no worker is to store. -/
theorem Restaged.activeStores_le {new : StageRow} (hre : Restaged db operationId (some new) db')
    (hid : new.operationId = operationId) (hstate : new.state ≠ .storing) :
    db'.activeStores ≤ db.activeStores := by
  rw [activeStores_eq, activeStores_eq, hre.clock_eq.1]
  refine hre.weight_le (by rintro row ⟨⟩; exact hid) ?_
  change new.storingWeight db.clock ≤ _
  rw [storingWeight_eq_zero hstate]
  exact Nat.zero_le _

theorem Opened.activeStores_le {request : StagedBlob} (h : Opened request db db') :
    db'.activeStores ≤ deploymentStoreJobs := by
  obtain ⟨new, hfor, -, -, hre⟩ := h.restaged
  have hadd := hre.weight_add (by rintro row ⟨⟩; exact hfor.operationId)
    (StageRow.storingWeight db.clock)
  have hnew : new.storingWeight db.clock ≤ 1 := by
    unfold StageRow.storingWeight
    split <;> omega
  have hstores := h.stores
  rw [activeStores_eq] at hstores ⊢
  rw [hre.clock_eq.1]
  change _ = _ + new.storingWeight db.clock at hadd
  omega

/-- What a step does to the stages. -/
inductive StageEffect (lapse : Lapse) (w : World) (db : Database) : Prop
  | tick (hclock : w.db.clock ≤ db.clock) (hstages : db.stages = w.db.stages)
  | opened {request : StagedBlob} (hsize : 0 < request.blob.size) (h : Opened request w.db db)
  | renewed {request staged : StagedBlob} (hlapse : lapse = w.recovery request.operationId)
      (h : Recovered request staged w.db db)
  | readied {call : StoreCall} (hlapse : lapse = lapseOf w.db.clock call.leaseEnd)
      (hcall : call ∈ w.storing) (h : readyStage call.staged w.db = .ok db)
  | retired {q : StageRow → Prop} (db₀ : Database) {operationId : Uuid}
      (hclock : db₀.clock = w.db.clock) (hstages : db₀.stages = w.db.stages)
      (h : Retires q db₀ operationId db)

theorem StageEffect.same (hclock : db.clock = w.db.clock) (hstages : db.stages = w.db.stages) :
    StageEffect lapse w db := .tick hclock.ge hstages

theorem Step.stageEffect (hstep : Step lapse w w') : StageEffect lapse w w'.db := by
  cases hstep with
  | tick hnow => exact .tick hnow rfl
  | claim hsize hclaim =>
    rcases claimStage_eq_ok hclaim with ⟨-, hopened⟩ | ⟨_, hclaim', -⟩
    · exact .opened hsize hopened
    · cases hclaim'
  | recover hclaim =>
    rcases claimStage_eq_ok hclaim with ⟨hclaim', -⟩ | ⟨_, -, hrecovered⟩
    · cases hclaim'
    · exact .renewed rfl hrecovered
  | ready hcall _ hready => exact .readied rfl hcall hready
  | markFailed => exact .retired _ rfl rfl retires_markFailed
  | publish hpublish =>
    obtain ⟨_, -, -, -, ⟨-, rfl⟩ | ⟨-, -, rfl⟩⟩ := publishStagedBlobForOwner_eq_ok hpublish
    · exact .same rfl rfl
    · exact .retired (acquireLocked _ w.db) rfl rfl retires_publishRow
  | consume hconsume =>
    rcases consumeStagedBlobWithExistingReferenceAs_eq_ok hconsume with rfl | rfl
    · exact .same rfl rfl
    · exact .retired _ rfl rfl retires_publishRow
  | @release _ file hfile =>
    have hframe := releaseLocked_frame file.id w.db
    exact .same hframe.1 hframe.2.1
  | claimCleanup _ _ hclaim => exact .retired _ rfl rfl (retires_claimStageCleanup hclaim)
  | deleteCleanup => exact .retired _ rfl rfl retires_deleteStageCleanupClaim
  | deferCleanup => exact .retired _ rfl rfl retires_deferStageCleanupClaim
  | finishCleanup => exact .retired _ rfl rfl retires_finishStageCleanupWithoutPurge
  | claimDeletion _ hclaim =>
    obtain ⟨-, -, -, -, _, -, rfl⟩ := claimBlobDeletion_eq_some hclaim
    exact .same rfl rfl
  | skipDeletion hclaim =>
    rcases claimBlobDeletion_eq_none hclaim with rfl | ⟨-, rfl⟩
    · exact .same rfl rfl
    · exact .same rfl rfl
  | @finishDeletion _ call _ _ =>
    have hframe := finishBlobDeletion_frame call.hash call.operationId w.db
    exact .same hframe.1 hframe.2.1
  | store => exact .same rfl rfl
  | abandonStore => exact .same rfl rfl
  | attach => exact .same rfl rfl
  | detach => exact .same rfl rfl
  | delete => exact .same rfl rfl
  | failDeletion => exact .same rfl rfl
  | abandonDeletion => exact .same rfl rfl

/-- A step adds to the stores under their leases only below the bound. -/
theorem StageEffect.activeStores_le (h : StageEffect lapse w db) :
    db.activeStores ≤ w.db.activeStores ∨ db.activeStores ≤ deploymentStoreJobs := by
  cases h with
  | tick hclock hstages =>
    rw [Database.activeStores, Database.activeStores, hstages]
    refine .inl (List.countP_mono_left fun row _ hrow => ?_)
    simp only [StageRow.storingNow, StageRow.live, Bool.and_eq_true, decide_eq_true_eq] at hrow ⊢
    exact ⟨hrow.1, lt_of_le_of_lt hclock hrow.2⟩
  | opened _ h => exact .inr h.activeStores_le
  | renewed _ h =>
    obtain ⟨old, -, hfor, -, hstate, ⟨-, rfl⟩ | ⟨-, retention, -, hre⟩⟩ := h.renewed
    · exact .inl le_rfl
    · refine .inl (hre.activeStores_le hfor.operationId fun hstoring => ?_)
      have hold : old.state = .storing := hstoring
      rcases hstate with hstate | hstate <;> simp [hstate] at hold
  | readied _ _ h =>
    obtain ⟨-, _, -, hid, -, -, hre⟩ := readyStage_eq_ok h
    exact .inl (hre.activeStores_le hid StageState.noConfusion)
  | retired db₀ hclock hstages h =>
    refine .inl (h.activeStores_le.trans_eq ?_)
    rw [Database.activeStores, Database.activeStores, hclock, hstages]

/-- A step adds to the deletions under their leases only below the bound. -/
theorem Step.activeDeletions_le (hstep : Step lapse w w') :
    w'.db.activeDeletions ≤ w.db.activeDeletions ∨
      w'.db.activeDeletions ≤ deploymentDeleteJobs := by
  have hsame : ∀ db : Database, db.clock = w.db.clock ∧ db.deletions = w.db.deletions →
      db.activeDeletions ≤ w.db.activeDeletions ∨ db.activeDeletions ≤ deploymentDeleteJobs := by
    rintro db ⟨hclock, hdeletions⟩
    rw [Database.activeDeletions, hclock, hdeletions]
    exact .inl le_rfl
  have hkeep : ∀ p : DeletionRow → Bool,
      (w.db.deletions.keep p).rows.countP (DeletionRow.active w.db.clock) ≤
        w.db.activeDeletions := fun p => Census.countP_filter_le _ _ _
  cases hstep with
  | tick hnow =>
    refine .inl (List.countP_mono_left fun row _ hrow => ?_)
    simp only [DeletionRow.active, Bool.and_eq_true, decide_eq_true_eq] at hrow ⊢
    exact ⟨hrow.1, lt_of_le_of_lt hnow hrow.2⟩
  | claim _ hclaim =>
    rcases claimStage_eq_ok hclaim with ⟨-, hopened⟩ | ⟨_, hclaim', -⟩
    · obtain ⟨_, _, _, _, hre⟩ := hopened.restaged
      exact hsame _ hre.clock_eq
    · cases hclaim'
  | recover hclaim =>
    rcases claimStage_eq_ok hclaim with ⟨hclaim', -⟩ | ⟨_, -, hrecovered⟩
    · cases hclaim'
    · obtain ⟨_, _, _, _, _, ⟨_, rfl⟩ | ⟨_, _, _, hre⟩⟩ := hrecovered.renewed
      · exact .inl le_rfl
      · exact hsame _ hre.clock_eq
  | ready _ _ hready =>
    obtain ⟨-, _, -, -, -, -, hre⟩ := readyStage_eq_ok hready
    exact hsame _ hre.clock_eq
  | markFailed => exact hsame _ retires_markFailed.clock_eq
  | publish hpublish =>
    obtain ⟨_, -, -, -, ⟨-, rfl⟩ | ⟨-, -, rfl⟩⟩ := publishStagedBlobForOwner_eq_ok hpublish
    · exact .inl le_rfl
    · exact hsame _ retires_publishRow.clock_eq
  | consume hconsume =>
    rcases consumeStagedBlobWithExistingReferenceAs_eq_ok hconsume with rfl | rfl
    · exact .inl le_rfl
    · exact hsame _ retires_publishRow.clock_eq
  | @release _ file hfile =>
    have hframe := releaseLocked_frame file.id w.db
    exact hsame _ ⟨hframe.1, hframe.2.2⟩
  | claimCleanup _ _ hclaim => exact hsame _ (retires_claimStageCleanup hclaim).clock_eq
  | deleteCleanup => exact hsame _ retires_deleteStageCleanupClaim.clock_eq
  | deferCleanup => exact hsame _ retires_deferStageCleanupClaim.clock_eq
  | finishCleanup => exact hsame _ retires_finishStageCleanupWithoutPurge.clock_eq
  | @claimDeletion _ hash id _ _ hclaim =>
    obtain ⟨-, -, -, hcapacity, deletions, hput, rfl⟩ := claimBlobDeletion_eq_some hclaim
    refine .inr ?_
    have hadd := hput.weight_add (by rintro row ⟨⟩; rfl)
      fun row : DeletionRow => if row.active w.db.clock then 1 else 0
    rw [Table.countP_rows] at hcapacity
    change deletions.rows.countP (DeletionRow.active w.db.clock) ≤ _
    rw [Table.countP_rows]
    have hnew : ((some ⟨hash, id, .deleting, w.db.clock + deletionLeaseUs, none⟩ :
        Option DeletionRow).elim 0 fun row => if row.active w.db.clock then 1 else 0) ≤ 1 := by
      dsimp only [Option.elim]
      split <;> omega
    omega
  | skipDeletion hclaim =>
    rcases claimBlobDeletion_eq_none hclaim with rfl | ⟨-, rfl⟩
    · exact .inl le_rfl
    · exact .inl (hkeep _)
  | @finishDeletion _ call _ _ =>
    obtain ⟨hclock, -, heq | heq⟩ :=
      finishBlobDeletion_frame call.hash call.operationId w.db
    · exact hsame _ ⟨hclock, heq⟩
    · refine .inl ?_
      rw [Database.activeDeletions]
      change ((finishBlobDeletion _ _ _).2.deletions).rows.countP (DeletionRow.active
        (finishBlobDeletion _ _ _).2.clock) ≤ _
      rw [hclock, heq]
      exact hkeep _
  | failDeletion _ error =>
    refine .inl (Census.countP_map_le fun row _ hrow => ?_)
    split at hrow
    · simp [DeletionRow.active] at hrow
    · exact hrow
  | store => exact .inl le_rfl
  | abandonStore => exact .inl le_rfl
  | attach => exact .inl le_rfl
  | detach => exact .inl le_rfl
  | delete => exact .inl le_rfl
  | abandonDeletion => exact .inl le_rfl

end Jobs

section Bytes

variable {lapse : Lapse}

/-- The stages in service have sizes. -/
def Sized (db : Database) : Prop :=
  ∀ row ∈ db.stages, row.state = .storing ∨ row.state = .ready → 0 ≤ row.fileSize

theorem Sized.heldBytes_nonneg {now : ℤ} (h : Sized db) : ∀ row ∈ db.stages,
    0 ≤ row.heldBytes now := by
  intro row hrow
  unfold StageRow.heldBytes
  split
  next hholds =>
    simp only [StageRow.holds, Bool.and_eq_true, Bool.or_eq_true, decide_eq_true_eq] at hholds
    exact h row hrow hholds.1
  next => exact le_rfl

theorem heldBytes_eq_zero {now : ℤ} {row : StageRow}
    (h : row.state = .failed ∨ row.state = .published) : row.heldBytes now = 0 := by
  refine if_neg fun hholds => ?_
  rcases h with h | h <;> simp [StageRow.holds, h] at hholds

theorem StageEffect.sized (heffect : StageEffect lapse w db) (h : Sized w.db) : Sized db := by
  have hput : ∀ {db₀ : Database} {operationId : Uuid} {new : Option StageRow},
      Restaged db₀ operationId new db → db₀.stages = w.db.stages →
        (∀ row ∈ new, row.state = .storing ∨ row.state = .ready → 0 ≤ row.fileSize) →
          Sized db := by
    intro db₀ operationId new hre hstages hnew row hrow hstate
    rcases (hre.puts row).mp hrow with ⟨hold, -⟩ | heq
    · exact h row (hstages ▸ hold) hstate
    · exact hnew row heq hstate
  cases heffect with
  | tick _ hstages => exact fun row hrow => h row (hstages ▸ hrow)
  | opened hsize hopened =>
    obtain ⟨new, hfor, -, -, hre⟩ := hopened.restaged
    refine hput hre rfl ?_
    rintro row ⟨⟩ -
    exact hfor.fileSize ▸ hsize.le
  | renewed _ hrecovered =>
    obtain ⟨old, hold, -, -, -, ⟨-, rfl⟩ | ⟨-, _, -, hre⟩⟩ := hrecovered.renewed
    · exact h
    · refine hput hre rfl ?_
      rintro row ⟨⟩ hstate
      exact h old hold hstate
  | readied _ _ hready =>
    obtain ⟨-, old, hold, -, -, hstate, hre⟩ := readyStage_eq_ok hready
    refine hput hre rfl ?_
    rintro row ⟨⟩ -
    exact h old hold (.inl hstate)
  | retired _ _ hstages hret =>
    rcases hret with rfl | ⟨_, -, -, -, new, hre, hnew⟩
    · exact fun row hrow => h row (hstages ▸ hrow)
    · refine hput hre hstages fun row hrow hstate => ?_
      rcases (hnew row hrow).2 with ⟨hfailed, -⟩ | hpublished
      · simp [hfailed] at hstate
      · simp [hpublished] at hstate

/-- A step in time adds to the bytes only below the bound. -/
theorem StageEffect.activeBytes_le (heffect : StageEffect lapse w db) (h : Sized w.db)
    (hresident : Resident w) (hlapse : lapse = .timely) :
    db.activeBytes ≤ w.db.activeBytes ∨ db.activeBytes ≤ deploymentStoreBytes := by
  have hnonneg : ∀ row ∈ w.db.stages, 0 ≤ row.heldBytes w.db.clock := h.heldBytes_nonneg
  cases heffect with
  | tick hclock hstages =>
    rw [activeBytes_eq, activeBytes_eq, hstages]
    refine .inl (List.sum_le_sum fun row hrow => ?_)
    by_cases hholds : row.holds db.clock = true
    · have hbefore : row.holds w.db.clock = true := by
        simp only [StageRow.holds, StageRow.live, Bool.and_eq_true, decide_eq_true_eq] at hholds ⊢
        exact ⟨hholds.1, lt_of_le_of_lt hclock hholds.2⟩
      rw [StageRow.heldBytes, if_pos hholds, StageRow.heldBytes, if_pos hbefore]
    · rw [StageRow.heldBytes, if_neg hholds]
      exact hnonneg row hrow
  | @opened request _ hopened =>
    obtain ⟨new, hfor, hstate, -, hre⟩ := hopened.restaged
    have hadd := hre.weight_add (by rintro row ⟨⟩; exact hfor.operationId)
      (StageRow.heldBytes w.db.clock)
    have hnew : new.heldBytes w.db.clock ≤ request.blob.size := by
      unfold StageRow.heldBytes
      split
      · exact hfor.fileSize.le
      · omega
    have hold := elim_nonneg hnonneg request.operationId
    have hbytes := hopened.bytes
    rw [activeBytes_eq] at hbytes
    rw [activeBytes_eq, activeBytes_eq, hre.clock_eq.1]
    change _ = _ + new.heldBytes w.db.clock at hadd
    exact .inr (by omega)
  | @renewed request _ hrecovery hrecovered =>
    obtain ⟨old, hold, hfor, -, hstate, ⟨-, rfl⟩ | ⟨hlease, retention, -, hre⟩⟩ :=
      hrecovered.renewed
    · exact .inl le_rfl
    · -- A ready stage whose lease ended is not revived in time.
      have hpublished : old.state = .published := by
        refine hstate.resolve_left fun hready => ?_
        rw [hlapse, World.recovery, Table.get?_eq_some.mpr ⟨hold, hfor.operationId⟩] at hrecovery
        have hended : old.leaseExpiresAtUtc ≤ w.db.clock := not_lt.mp (of_decide_eq_false hlease)
        simp only [hready, hended, and_self, if_true] at hrecovery
        split at hrecovery <;> cases hrecovery
      rw [activeBytes_eq, activeBytes_eq, hre.clock_eq.1]
      refine .inl (hre.weight_le (by rintro row ⟨⟩; exact hfor.operationId) ?_)
      refine (heldBytes_eq_zero (.inr ?_)).le.trans (elim_nonneg hnonneg request.operationId)
      exact hpublished
  | @readied call hlapse' hcall hready =>
    obtain ⟨-, old, hold, hid, -, hstate, hre⟩ := readyStage_eq_ok hready
    have hlive : call.Live w.db.clock := by
      by_contra hnow
      rw [hlapse, lapseOf, if_neg (show ¬w.db.clock < call.leaseEnd from hnow)] at hlapse'
      cases hlapse'
    obtain ⟨row, hrow, hfor, -, hlease⟩ := hresident.storing call hcall hlive
    have heq : row = old := Table.eq_of_key_eq hrow hold (hfor.operationId.trans hid.symm)
    subst heq
    have hbefore : row.heldBytes w.db.clock = row.fileSize := by
      have hnow : w.db.clock < row.leaseExpiresAtUtc := hlease ▸ hlive
      simp [StageRow.heldBytes, StageRow.holds, StageRow.live, hstate, hnow]
    rw [activeBytes_eq, activeBytes_eq, hre.clock_eq.1]
    refine .inl (hre.weight_le (by rintro new ⟨⟩; exact hid) ?_)
    change StageRow.heldBytes w.db.clock _ ≤ (w.db.stages.get? _).elim 0 _
    rw [Table.get?_eq_some.mpr ⟨hold, hid⟩]
    change _ ≤ row.heldBytes w.db.clock
    rw [hbefore, StageRow.heldBytes]
    split
    · exact le_rfl
    · exact h row hold (.inl hstate)
  | retired db₀ hclock hstages hret =>
    refine .inl ?_
    rw [activeBytes_eq, activeBytes_eq, hret.clock_eq.1, hclock, ← hstages]
    exact hret.weight_le (hstages ▸ hnonneg) fun row => heldBytes_eq_zero

end Bytes

end Blobs

end Rsctf
