import Rsctf.Data.Path
import Rsctf.Engine.Pipeline

/-!
# Ownership of the round pipeline

A round is completed at most once, a running lease is not handed to somebody else, what is
written under the fence of a lease is committed while that lease still owns the round, and
a verdict with a credit is final.  A claim may wait for the lock of its round while the
round is completed or finalized; it does not see that, and the results hold in the runs
where this does not happen.
-/

namespace Rsctf

namespace Engine

section Versions

namespace PipelineRound

variable {a b c row : PipelineRound}

/-- What a later version keeps of an earlier one. -/
structure Follows (old new : PipelineRound) : Prop where
  completed : ∀ at', old.pipelineCompletedAt = some at' → new.pipelineCompletedAt = some at'
  finalized : old.finalized = true → new.finalized = true

/-- The lease is the same one or given back. -/
def LeaseKept (old new : PipelineRound) : Prop :=
  (new.pipelineLeaseToken = old.pipelineLeaseToken ∧
    new.pipelineLeaseUntil = old.pipelineLeaseUntil) ∨
  (new.pipelineLeaseToken = none ∧ new.pipelineLeaseUntil = none)

/-- Nobody has a lease of a completed round. -/
def Unleased (row : PipelineRound) : Prop :=
  row.pipelineCompletedAt.isSome = true →
    row.pipelineLeaseToken = none ∧ row.pipelineLeaseUntil = none

/-- A version which may come after another one: a running lease is kept or given back. -/
def Succeeds (now : ℤ) (old new : PipelineRound) : Prop :=
  old.Follows new ∧ (old.LeaseKept new ∨ old.leaseFree now = true)

theorem Follows.refl (a : PipelineRound) : a.Follows a := ⟨fun _ h => h, id⟩

theorem Follows.trans (h : a.Follows b) (h' : b.Follows c) : a.Follows c :=
  ⟨fun at' ha => h'.completed at' (h.completed at' ha), fun ha => h'.finalized (h.finalized ha)⟩

theorem LeaseKept.refl (a : PipelineRound) : a.LeaseKept a := .inl ⟨rfl, rfl⟩

theorem LeaseKept.trans (h : a.LeaseKept b) (h' : b.LeaseKept c) : a.LeaseKept c := by
  rcases h' with ⟨htoken, huntil⟩ | hnone
  · rw [LeaseKept, htoken, huntil]
    exact h
  · exact .inr hnone

theorem Succeeds.refl (now : ℤ) (a : PipelineRound) : a.Succeeds now a :=
  ⟨.refl a, .inl (.refl a)⟩

theorem Succeeds.trans_kept {now : ℤ} (h : a.Succeeds now b) (hfollows : b.Follows c)
    (hkept : b.LeaseKept c) : a.Succeeds now c := by
  refine ⟨h.1.trans hfollows, ?_⟩
  rcases h.2 with hlease | hfree
  · exact .inl (hlease.trans hkept)
  · exact .inr hfree

theorem leaseFree_mono {now later : ℤ} (hle : now ≤ later) (h : row.leaseFree now = true) :
    row.leaseFree later = true := by
  unfold leaseFree at h ⊢
  cases huntil : row.pipelineLeaseUntil with
  | none => rfl
  | some expiry =>
      simp only [huntil, Option.all_some, decide_eq_true_eq] at h ⊢
      exact h.trans hle

theorem Succeeds.mono {now later : ℤ} (hle : now ≤ later) (h : a.Succeeds now b) :
    a.Succeeds later b :=
  ⟨h.1, h.2.imp_right (leaseFree_mono hle)⟩

theorem completed_eq_none_of_ownedBy {token : LeaseToken} (h : row.ownedBy token = true) :
    row.pipelineCompletedAt = none := by
  rw [ownedBy, Bool.and_eq_true] at h
  simpa using h.1

theorem token_of_ownedBy {token : LeaseToken} (h : row.ownedBy token = true) :
    row.pipelineLeaseToken = some token := by
  rw [ownedBy, Bool.and_eq_true] at h
  exact of_decide_eq_true h.2

theorem unleased_of_open (h : row.pipelineCompletedAt = none) : row.Unleased := by
  intro hsome
  rw [h] at hsome
  cases hsome

theorem unleased_unlease (row : PipelineRound) : row.unlease.Unleased := fun _ => ⟨rfl, rfl⟩

theorem leaseKept_unlease (row : PipelineRound) : row.LeaseKept row.unlease := .inr ⟨rfl, rfl⟩

end PipelineRound

namespace RoundStatement

variable {statement : RoundStatement} {id : ℤ} {row : PipelineRound} {now at' : ℤ}

/-- Every statement but a claim keeps the lease or gives it back. -/
def handsOut : RoundStatement → Bool
  | .claim _ _ _ => true
  | _ => false

/-- The statement neither claims a round nor shares its lock. -/
def plain (statement : RoundStatement) : Bool := !statement.handsOut && !statement.sharesLock

theorem apply_kept (hclaim : statement.handsOut = false) (htest : statement.test id row at' = true)
    (hrow : row.Unleased) :
    row.Follows (statement.apply now row) ∧ row.LeaseKept (statement.apply now row) ∧
      (statement.apply now row).Unleased := by
  cases statement with
  | claim roundId token target => cases hclaim
  | complete gameId roundId token =>
      simp only [test, Bool.and_eq_true] at htest
      have hnone := PipelineRound.completed_eq_none_of_ownedBy htest.2
      refine ⟨⟨fun at'' hat => ?_, fun h => h⟩, .inr ⟨rfl, rfl⟩, fun _ => ⟨rfl, rfl⟩⟩
      rw [hnone] at hat
      cases hat
  | abandon gameId roundId token =>
      exact ⟨⟨fun _ h => h, fun h => h⟩, .inr ⟨rfl, rfl⟩, fun _ => ⟨rfl, rfl⟩⟩
  | abandonProcess owner =>
      exact ⟨⟨fun _ h => h, fun h => h⟩, .inr ⟨rfl, rfl⟩, fun _ => ⟨rfl, rfl⟩⟩
  | expire gameId roundId token =>
      refine ⟨⟨fun at'' hat => ?_, fun h => h⟩, .inr ⟨rfl, rfl⟩, fun _ => ⟨rfl, rfl⟩⟩
      simp [apply, hat]
  | finalize roundIds => exact ⟨⟨fun _ h => h, fun _ => rfl⟩, .inl ⟨rfl, rfl⟩, hrow⟩
  | lockOwned gameId roundId token => exact ⟨.refl row, .refl row, hrow⟩
  | lockUnfinalized gameId roundId => exact ⟨.refl row, .refl row, hrow⟩
  | lockLatest gameId => exact ⟨.refl row, .refl row, hrow⟩
  | lockEnded gameId graceSeconds => exact ⟨.refl row, .refl row, hrow⟩

end RoundStatement

/-- A pending verdict may be resolved, and a resolved one stays. -/
def CheckResult.Follows (old new : CheckResult) : Prop :=
  new = old ∨ old.resolved = false ∧ new.resolved = true

namespace CheckResult

variable {a b c : CheckResult} {verdict : Verdict}

theorem Follows.refl (a : CheckResult) : a.Follows a := .inl rfl

theorem Follows.trans (h : a.Follows b) (h' : b.Follows c) : a.Follows c := by
  rcases h' with rfl | ⟨hpending, hresolved⟩
  · exact h
  · rcases h with rfl | ⟨-, hb⟩
    · exact .inr ⟨hpending, hresolved⟩
    · rw [hb] at hpending
      cases hpending

theorem Follows.eq_of_resolved (h : a.Follows b) (ha : a.resolved = true) : b = a := by
  rcases h with rfl | ⟨hpending, -⟩
  · rfl
  · rw [ha] at hpending
    cases hpending

theorem follows_resolve (h : resolve verdict a = some b) : a.Follows b := by
  unfold resolve at h
  split at h
  · cases h
  · next hpending =>
      obtain rfl := Option.some.inj h
      exact .inr ⟨Bool.eq_false_of_not_eq_true hpending, rfl⟩

theorem follows_getD_resolve (verdict : Verdict) (a : CheckResult) :
    a.Follows ((resolve verdict a).getD a) := by
  cases h : resolve verdict a with
  | none => exact .refl a
  | some b => exact follows_resolve h

end CheckResult

end Versions

namespace Pipeline

variable {s s' : Pipeline} {t u : ℕ} {reading : Reading} {id : ℤ} {token : LeaseToken}
  {phase : Phase}

section Invariant

/-- The transaction shares the lock of a round which its lease owns. -/
def Fenced (s : Pipeline) (t : ℕ) (id : ℤ) (token : LeaseToken) : Prop :=
  (s.rounds.lock id).SharedBy t ∧ ∃ row, s.rounds.committed id = some row ∧ row.Open ∧
    row.pipelineLeaseToken = some token

/-- The transaction has put its lease on an open round which had no running one. -/
def Claimed (s : Pipeline) (t : ℕ) (id : ℤ) (token : LeaseToken) : Prop :=
  ∃ row draft, s.rounds.committed id = some row ∧ row.leaseFree s.now = true ∧
    s.rounds.lock id = .exclusive t draft ∧ draft.Open ∧ draft.pipelineLeaseToken = some token

/-- What is known of the rows that a statement has found or locked. -/
def StatementSound (s : Pipeline) (t : ℕ) (statement : RoundStatement)
    (found : List (ℤ × PipelineRound)) (locked : List ℤ) : Prop :=
  match statement with
  | .claim _ token _ =>
      found.length + locked.length ≤ 1 ∧ (∀ r ∈ found, r.2.Open) ∧
        (locked = [] → s.rounds.Unwritten t) ∧ ∀ id ∈ locked, s.Claimed t id token
  | .lockOwned _ roundId token =>
      s.rounds.Unwritten t ∧ (locked ≠ [] → s.Fenced t roundId token)
  | _ => True

def PhaseSound (s : Pipeline) (t : ℕ) (phase : Phase) : Prop :=
  match phase with
  | .idle => s.rounds.Unwritten t
  | .begun _ _ => s.rounds.Unwritten t
  | .selecting statement readAt found locked _ =>
      readAt ≤ s.now ∧ (∀ r ∈ found, statement.test r.1 r.2 readAt = true) ∧
        s.StatementSound t statement found locked
  | .writing fence _ next =>
      (∀ id token, fence = some (id, token) → s.Fenced t id token) ∧
        ∀ statement after, next = some (statement, after) → statement.plain = true

structure Sound (s : Pipeline) : Prop where
  rounds : s.rounds.Tracks (fun _ => PipelineRound.Unleased) (PipelineRound.Succeeds s.now)
  results : s.results.Tracks (fun _ _ => True) CheckResult.Follows
  phases : ∀ t, s.PhaseSound t (s.phases t)

end Invariant

section Frame

theorem Fenced.frame (hframe : s.rounds.Frames u s'.rounds) (h : s.Fenced u id token) :
    s'.Fenced u id token := by
  obtain ⟨hlock, row, hrow, hrest⟩ := h
  obtain ⟨hlock', hsame⟩ := hframe.shared id hlock
  exact ⟨hlock', row, hsame.trans hrow, hrest⟩

theorem Claimed.frame (hframe : s.rounds.Frames u s'.rounds) (hnow : s.now ≤ s'.now)
    (h : s.Claimed u id token) : s'.Claimed u id token := by
  obtain ⟨row, draft, hrow, hfree, hlock, hrest⟩ := h
  obtain ⟨hlock', hsame⟩ := hframe.exclusive id draft hlock
  exact ⟨row, draft, hsame.trans hrow, PipelineRound.leaseFree_mono hnow hfree, hlock', hrest⟩

theorem StatementSound.frame {statement : RoundStatement} {found : List (ℤ × PipelineRound)}
    {locked : List ℤ} (hframe : s.rounds.Frames u s'.rounds) (hnow : s.now ≤ s'.now)
    (h : s.StatementSound u statement found locked) :
    s'.StatementSound u statement found locked := by
  cases statement with
  | claim roundId token target =>
      obtain ⟨hone, hopen, hnone, hclaimed⟩ := h
      exact ⟨hone, hopen, fun hl => hframe.unwritten (hnone hl),
        fun id hid => (hclaimed id hid).frame hframe hnow⟩
  | lockOwned gameId roundId token =>
      exact ⟨hframe.unwritten h.1, fun hl => (h.2 hl).frame hframe⟩
  | complete | abandon | abandonProcess | lockUnfinalized | expire | lockLatest | lockEnded
    | finalize => trivial

/-- What a transaction relies on is left alone by the others. -/
theorem PhaseSound.frame (hframe : s.rounds.Frames u s'.rounds) (hnow : s.now ≤ s'.now)
    (h : s.PhaseSound u phase) : s'.PhaseSound u phase := by
  cases phase with
  | idle => exact hframe.unwritten h
  | begun gameId call => exact hframe.unwritten h
  | selecting statement readAt found locked next =>
      obtain ⟨hread, htest, hstatement⟩ := h
      exact ⟨hread.trans hnow, htest, hstatement.frame hframe hnow⟩
  | writing fence script next =>
      exact ⟨fun id token hfence => (h.1 id token hfence).frame hframe, h.2⟩

end Frame

section Steps

/-- A step of an open transaction. -/
structure Moves (s : Pipeline) (t : ℕ) (s' : Pipeline) : Prop where
  now : s'.now = s.now
  rounds : RowTable.Touch (fun _ => PipelineRound.Unleased) (PipelineRound.Succeeds s.now) t
    s.rounds s'.rounds
  results : s.results.Tracks (fun _ _ => True) CheckResult.Follows →
    s'.results.Tracks (fun _ _ => True) CheckResult.Follows
  committed : s'.results.committed = s.results.committed
  others : ∀ u, u ≠ t → s'.phases u = s.phases u
  own : s'.PhaseSound t (s'.phases t)

theorem Sound.move (h : s.Sound) (hmove : s.Moves t s') : s'.Sound where
  rounds := hmove.now ▸ h.rounds.touch hmove.rounds
  results := hmove.results h.results
  phases u := by
    by_cases heq : u = t
    · exact heq ▸ hmove.own
    · rw [hmove.others u heq]
      exact (h.phases u).frame (hmove.rounds.frames heq) hmove.now.ge

@[simp] theorem phases_setPhase : (s.setPhase t phase).phases t = phase :=
  Function.update_self ..

/-- A step which only moves on in its transaction. -/
theorem moves_setPhase (h : s.PhaseSound t phase) : s.Moves t (s.setPhase t phase) where
  now := rfl
  rounds := .keep s.rounds
  results := id
  committed := rfl
  others := fun _ hne => Function.update_of_ne hne ..
  own := by
    rw [phases_setPhase]
    exact h.frame (.refl t s.rounds) le_rfl

theorem phaseSound_unfenced {script : List ResultStatement}
    {next : Option (RoundStatement × Next)}
    (h : ∀ statement after, next = some (statement, after) → statement.plain = true) :
    s.PhaseSound t (.writing none script next) :=
  ⟨fun _ _ hfence => (by cases hfence), h⟩

theorem phaseSound_done : s.PhaseSound t .done :=
  phaseSound_unfenced fun _ _ hnext => by cases hnext

/-- A statement finds rows which it sees and which pass its test. -/
theorem mem_candidates {statement : RoundStatement} {r : ℤ × PipelineRound}
    (h : r ∈ s.candidates t reading statement) :
    s.rounds.read t r.1 = some r.2 ∧ statement.test r.1 r.2 s.now = true := by
  have hrows : ∀ visible : List (ℤ × PipelineRound),
      (∀ r ∈ visible, s.rounds.read t r.1 = some r.2) →
      ∀ r ∈ visible.filter fun r => statement.test r.1 r.2 s.now,
        s.rounds.read t r.1 = some r.2 ∧ statement.test r.1 r.2 s.now = true := by
    intro visible hvisible r hr
    obtain ⟨hmem, htest⟩ := List.mem_filter.mp hr
    exact ⟨hvisible r hmem, htest⟩
  have hkey : ∀ id, ∀ r ∈ ((s.rounds.read t id).map fun row => (id, row)).toList,
      s.rounds.read t r.1 = some r.2 := by
    intro id r hr
    rw [Option.mem_toList, Option.map_eq_some_iff] at hr
    obtain ⟨row, hrow, rfl⟩ := hr
    exact hrow
  cases statement with
  | claim roundId token target => exact hrows _ (hkey roundId) r h
  | complete gameId roundId token => exact hrows _ (hkey roundId) r h
  | abandon gameId roundId token => exact hrows _ (hkey roundId) r h
  | lockOwned gameId roundId token => exact hrows _ (hkey roundId) r h
  | lockUnfinalized gameId roundId => exact hrows _ (hkey roundId) r h
  | expire gameId roundId token => exact hrows _ (hkey roundId) r h
  | abandonProcess owner => exact hrows _ (fun _ => RowTable.mem_rows) r h
  | finalize roundIds => exact hrows _ (fun _ => RowTable.mem_rows) r h
  | lockEnded gameId graceSeconds =>
      exact hrows _ (fun _ => RowTable.mem_rows) r (List.mem_of_mem_filter h)
  | lockLatest gameId =>
      exact hrows _ (fun _ => RowTable.mem_rows) r
        (Keyed.mem_of_latest (Option.mem_toList.mp h))

theorem moves_select {statement : RoundStatement} {next : Next}
    (h : s.StatementSound t statement (s.candidates t reading statement) []) :
    s.Moves t (s.select t reading statement next) :=
  moves_setPhase ⟨le_rfl, fun _ hr => (mem_candidates hr).2, h⟩

theorem statementSound_of_plain {statement : RoundStatement}
    {found : List (ℤ × PipelineRound)} {locked : List ℤ} (h : statement.plain = true) :
    s.StatementSound t statement found locked := by
  cases statement with
  | claim => cases h
  | lockOwned => cases h
  | complete | abandon | abandonProcess | lockUnfinalized | expire | lockLatest | lockEnded
    | finalize => trivial

section Lock

/-- A claim does not wait past the end of its round: the version which it locks is as
complete and as final as the one which it has found, or under a running lease. -/
def claimSeesCurrent (s : Pipeline) (t : ℕ) : Bool :=
  match s.phases t with
  | .selecting (.claim _ _ _) _ ((id, found) :: _) _ _ =>
      (s.rounds.read t id).all fun current =>
        current.pipelineCompletedAt = found.pipelineCompletedAt &&
            current.finalized = found.finalized ||
          !current.leaseFree s.now
  | _ => true

variable {statement : RoundStatement} {readAt : ℤ} {found row : PipelineRound} {kept : Bool}
  {rounds : RowTable ℤ PipelineRound}

/-- A row is let go, or it is locked in a version which passes the test of the statement. -/
theorem lockRound_cases
    (h : s.lockRound t reading statement readAt id found = some (rounds, kept)) :
    (rounds = s.rounds ∧ kept = false) ∨ ∃ current at',
      s.rounds.read t id = some current ∧ kept = true ∧
      RowTable.recheck (statement.test id) readAt s.now reading.rewritten found current =
        some at' ∧
      (statement.sharesLock = true ∧ (s.rounds.lock id).sharable t = true ∧
          rounds = s.rounds.share t id ∨
        statement.sharesLock = false ∧ (s.rounds.lock id).available t = true ∧
          rounds = s.rounds.write t id (statement.apply at' current)) := by
  unfold lockRound at h
  cases hread : s.rounds.read t id with
  | none => simp [hread] at h
  | some current =>
      cases hcheck : RowTable.recheck (statement.test id) readAt s.now reading.rewritten found
          current with
      | none =>
          left
          cases hshare : statement.sharesLock <;>
            simp [hread, hshare, hcheck, Option.bind_eq_some_iff] at h <;>
            exact ⟨h.2.1.symm, h.2.2⟩
      | some at' =>
          right
          refine ⟨current, at', rfl, ?_⟩
          cases hshare : statement.sharesLock <;>
            simp [hread, hshare, hcheck, Option.bind_eq_some_iff] at h <;>
            obtain ⟨hfree, rfl, rfl⟩ := h <;>
            simp [hcheck, hfree]

theorem StatementSound.tail {r : ℤ × PipelineRound} {rest : List (ℤ × PipelineRound)}
    {locked : List ℤ} (h : s.StatementSound t statement (r :: rest) locked) :
    s.StatementSound t statement rest locked := by
  cases statement with
  | claim roundId token target =>
      obtain ⟨hone, hopen, hrest⟩ := h
      refine ⟨?_, fun r' hr' => hopen r' (List.mem_cons_of_mem _ hr'), hrest⟩
      rw [List.length_cons] at hone
      omega
  | lockOwned gameId roundId token => exact h
  | complete | abandon | abandonProcess | lockUnfinalized | expire | lockLatest | lockEnded
    | finalize => trivial

/-- A claim which locks a row finds it open and without a running lease. -/
theorem moves_claim {target : ClaimTarget} {rest : List (ℤ × PipelineRound)} {locked : List ℤ}
    {next : Next} {current : PipelineRound} {roundId at' : ℤ}
    (hsound : s.PhaseSound t
      (.selecting (.claim roundId token target) readAt ((id, found) :: rest) locked next))
    (hcurrent : current.pipelineCompletedAt = found.pipelineCompletedAt ∧
      current.finalized = found.finalized ∨ current.leaseFree s.now = false)
    (hread : s.rounds.read t id = some current)
    (hcheck : RowTable.recheck ((RoundStatement.claim roundId token target).test id) readAt s.now
      reading.rewritten found current = some at')
    (hfree : (s.rounds.lock id).available t = true) :
    s.Moves t { s.setPhase t (.selecting (.claim roundId token target) readAt rest
      (locked ++ [id]) next) with
        rounds := s.rounds.write t id
          ((RoundStatement.claim roundId token target).apply at' current) } := by
  obtain ⟨hle, htest, hone, hopen, hnone, -⟩ := hsound
  have hlen : rest = [] ∧ locked = [] := by
    rw [List.length_cons] at hone
    exact ⟨List.length_eq_zero_iff.mp (by omega), List.length_eq_zero_iff.mp (by omega)⟩
  obtain ⟨rfl, rfl⟩ := hlen
  have hcommitted : s.rounds.committed id = some current := by
    rw [← (hnone rfl).read id, hread]
  have hpasses := RowTable.recheck_spec (htest _ List.mem_cons_self) hle hcheck
  have hleaseFree : current.leaseFree s.now = true := by
    have htested := hpasses.1
    simp only [RoundStatement.test, Bool.and_eq_true] at htested
    exact PipelineRound.leaseFree_mono hpasses.2 htested.2
  have hcurrentOpen : current.Open := by
    rcases hcurrent with ⟨hcompleted, hfinalized⟩ | hrunning
    · exact ⟨hcompleted.trans (hopen _ List.mem_cons_self).1,
        hfinalized.trans (hopen _ List.mem_cons_self).2⟩
    · rw [hleaseFree] at hrunning
      cases hrunning
  refine ⟨rfl, .write s.rounds id _ hfree (PipelineRound.unleased_of_open hcurrentOpen.1) ?_,
    fun h => h, rfl, fun u hne => Function.update_of_ne hne .., ?_⟩
  · intro old hold
    obtain rfl := Option.some.inj (hold.symm.trans hcommitted)
    exact ⟨⟨fun _ h => h, fun h => h⟩, .inr hleaseFree⟩
  · change PhaseSound _ t ((s.setPhase t _).phases t)
    rw [phases_setPhase]
    refine ⟨hle, fun _ hr => absurd hr List.not_mem_nil, le_rfl,
      fun _ hr => absurd hr List.not_mem_nil, fun h => absurd h (by simp), ?_⟩
    intro id' hid'
    obtain rfl : id' = id := by simpa using hid'
    exact ⟨current, _, hcommitted, hleaseFree, RowTable.lock_write_self, hcurrentOpen, rfl⟩

/-- A statement which shares a lock finds the row under the lease of its token. -/
theorem moves_lockOwned {gameId roundId at' : ℤ} {rest : List (ℤ × PipelineRound)}
    {locked : List ℤ} {next : Next} {current : PipelineRound}
    (hsound : s.PhaseSound t
      (.selecting (.lockOwned gameId roundId token) readAt ((id, found) :: rest) locked next))
    (hread : s.rounds.read t id = some current)
    (hcheck : RowTable.recheck ((RoundStatement.lockOwned gameId roundId token).test id) readAt
      s.now reading.rewritten found current = some at')
    (hfree : (s.rounds.lock id).sharable t = true) :
    s.Moves t { s.setPhase t (.selecting (.lockOwned gameId roundId token) readAt rest
      (locked ++ [id]) next) with rounds := s.rounds.share t id } := by
  obtain ⟨hle, htest, hnone, -⟩ := hsound
  have hcommitted : s.rounds.committed id = some current := by
    rw [← hnone.read id, hread]
  have hpasses := (RowTable.recheck_spec (htest _ List.mem_cons_self) hle hcheck).1
  simp only [RoundStatement.test, Bool.and_eq_true, decide_eq_true_eq,
    Bool.not_eq_true'] at hpasses
  obtain ⟨⟨⟨⟨rfl, -⟩, hfinalized⟩, howned⟩, -⟩ := hpasses
  have hlock : ((s.rounds.share t id).lock id).SharedBy t := by
    rw [RowTable.lock_share_self]
    cases hrow : s.rounds.lock id with
    | shared holders => exact ⟨t :: holders, rfl, List.mem_cons_self⟩
    | exclusive u draft =>
        rw [hrow] at hfree
        exact absurd (of_decide_eq_true hfree ▸ hrow) (hnone id draft)
  refine ⟨rfl, .share s.rounds id hfree, fun h => h, rfl,
    fun u hne => Function.update_of_ne hne .., ?_⟩
  change PhaseSound _ t ((s.setPhase t _).phases t)
  rw [phases_setPhase]
  refine ⟨hle, fun r hr => htest r (List.mem_cons_of_mem _ hr), ?_, fun _ => ?_⟩
  · intro k draft hdraft
    by_cases heq : k = id
    · subst heq
      rw [RowTable.lock_share_self] at hdraft
      exact hnone k draft (RowLock.share_eq_exclusive hdraft)
    · rw [RowTable.lock_share_of_ne heq] at hdraft
      exact hnone k draft hdraft
  · exact ⟨hlock, current, hcommitted,
      ⟨PipelineRound.completed_eq_none_of_ownedBy howned, hfinalized⟩,
      PipelineRound.token_of_ownedBy howned⟩

theorem moves_plain {rest : List (ℤ × PipelineRound)} {locked : List ℤ} {next : Next}
    {current : PipelineRound} {at' : ℤ} (hs : s.Sound) (hplain : statement.plain = true)
    (hsound : s.PhaseSound t (.selecting statement readAt ((id, found) :: rest) locked next))
    (hread : s.rounds.read t id = some current)
    (hcheck : RowTable.recheck (statement.test id) readAt s.now reading.rewritten found current =
      some at')
    (hfree : (s.rounds.lock id).available t = true) :
    s.Moves t { s.setPhase t (.selecting statement readAt rest (locked ++ [id]) next) with
      rounds := s.rounds.write t id (statement.apply at' current) } := by
  obtain ⟨hle, htest, -⟩ := hsound
  have hpasses := (RowTable.recheck_spec (htest _ List.mem_cons_self) hle hcheck).1
  have hclaim : statement.handsOut = false := by
    rw [RoundStatement.plain, Bool.and_eq_true] at hplain
    simpa using hplain.1
  obtain ⟨hunleased, hold⟩ := hs.rounds.read (PipelineRound.Succeeds.refl s.now) hread
  obtain ⟨hfollows, hkept, hunleased'⟩ := RoundStatement.apply_kept hclaim hpasses hunleased
  refine ⟨rfl, .write s.rounds id _ hfree hunleased' fun old h =>
    (hold old h).trans_kept hfollows hkept, fun h => h, rfl,
    fun u hne => Function.update_of_ne hne .., ?_⟩
  change PhaseSound _ t ((s.setPhase t _).phases t)
  rw [phases_setPhase]
  exact ⟨hle, fun r hr => htest r (List.mem_cons_of_mem _ hr), statementSound_of_plain hplain⟩

theorem moves_lockRound {rest : List (ℤ × PipelineRound)} {locked : List ℤ} {next : Next}
    (hs : s.Sound)
    (hphase : s.phases t = .selecting statement readAt ((id, found) :: rest) locked next)
    (hclean : s.claimSeesCurrent t = true)
    (h : s.lockRound t reading statement readAt id found = some (rounds, kept)) :
    s.Moves t { s.setPhase t (.selecting statement readAt rest
      (if kept then locked ++ [id] else locked) next) with rounds } := by
  have hsound := hs.phases t
  rw [hphase] at hsound
  rcases lockRound_cases h with ⟨rfl, rfl⟩ | ⟨current, at', hread, rfl, hcheck, hlock⟩
  · obtain ⟨hle, htest, hstatement⟩ := hsound
    exact moves_setPhase ⟨hle, fun r hr => htest r (List.mem_cons_of_mem _ hr), hstatement.tail⟩
  · rcases hlock with ⟨hshare, hfree, rfl⟩ | ⟨hshare, hfree, rfl⟩
    · cases statement with
      | lockOwned gameId roundId token => exact moves_lockOwned hsound hread hcheck hfree
      | claim | complete | abandon | abandonProcess | lockUnfinalized | expire | lockLatest
        | lockEnded | finalize => cases hshare
    · cases statement with
      | claim roundId token target =>
          have hcurrent : current.pipelineCompletedAt = found.pipelineCompletedAt ∧
              current.finalized = found.finalized ∨ current.leaseFree s.now = false := by
            simpa [claimSeesCurrent, hphase, hread] using hclean
          exact moves_claim hsound hcurrent hread hcheck hfree
      | lockOwned => cases hshare
      | complete | abandon | abandonProcess | lockUnfinalized | expire | lockLatest | lockEnded
        | finalize => exact moves_plain hs rfl hsound hread hcheck hfree

end Lock

section Results

variable {statement : ResultStatement} {results : RowTable (ℤ × ℤ) CheckResult}

theorem follows_closeResult {key : ℤ × ℤ} {old new : CheckResult}
    (h : s.closeResult reading statement key old = some new) : old.Follows new := by
  have hguarded : ∀ (p : Prop) [Decidable p] (verdict : Verdict),
      (if p then resolve verdict old else none) = some new → old.Follows new := by
    intro p _ verdict h
    split at h
    · exact CheckResult.follows_resolve h
    · cases h
  cases statement with
  | upsert roundId serviceId verdict => cases h
  | insertPending roundId serviceId now => cases h
  | closeCancelled roundId roundEnd => exact hguarded _ _ h
  | closeOpened roundId now => exact hguarded _ _ h
  | closeEnded roundIds => exact hguarded _ _ h
  | settleDeliveries roundId =>
      simp only [closeResult] at h
      split at h
      · obtain ⟨delivery, -, hresolve⟩ := Option.bind_eq_some_iff.mp h
        exact CheckResult.follows_resolve hresolve
      · cases h

theorem writeResults_cases (h : s.writeResults t reading statement = some results) :
    results = s.results ∨ results = s.results.update t (s.closeResult reading statement) ∨
      ∃ key, (s.results.lock key).available t = true ∧
        ((∃ old verdict, s.results.read t key = some old ∧
            results = s.results.write t key ((resolve verdict old).getD old)) ∨
          ∃ new, s.results.read t key = none ∧ results = s.results.insert t key new) := by
  cases statement with
  | upsert roundId serviceId verdict =>
      right; right
      refine ⟨(roundId, serviceId), ?_⟩
      cases hread : s.results.read t (roundId, serviceId) with
      | some old =>
          simp [writeResults, hread, Option.bind_eq_some_iff] at h
          exact ⟨h.1, .inl ⟨old, verdict, rfl, h.2.symm⟩⟩
      | none =>
          simp [writeResults, hread, Option.bind_eq_some_iff] at h
          exact ⟨h.1, .inr ⟨_, rfl, h.2.symm⟩⟩
  | insertPending roundId serviceId now =>
      cases hread : s.results.read t (roundId, serviceId) with
      | some old =>
          simp [writeResults, hread, Option.bind_eq_some_iff] at h
          exact .inl h.2.symm
      | none =>
          simp [writeResults, hread, Option.bind_eq_some_iff] at h
          exact .inr (.inr ⟨(roundId, serviceId), h.1, .inr ⟨_, hread, h.2.symm⟩⟩)
  | settleDeliveries roundId | closeCancelled roundId roundEnd | closeOpened roundId now
    | closeEnded roundIds =>
      simp [writeResults, Option.bind_eq_some_iff] at h
      exact .inr (.inl h.2.symm)

theorem tracks_writeResults (h : s.writeResults t reading statement = some results)
    (htracks : s.results.Tracks (fun _ _ => True) CheckResult.Follows) :
    results.Tracks (fun _ _ => True) CheckResult.Follows := by
  rcases writeResults_cases h with rfl | rfl | ⟨key, hfree, hrow⟩
  · exact htracks
  · exact htracks.update CheckResult.Follows.refl (fun _ _ _ => CheckResult.Follows.trans)
      (fun _ _ _ _ hclose => ⟨trivial, follows_closeResult hclose⟩) t
  · rcases hrow with ⟨old, verdict, hread, rfl⟩ | ⟨new, hread, rfl⟩
    · have hold := (htracks.read CheckResult.Follows.refl hread).2
      exact htracks.write trivial fun row hrow =>
        (hold row hrow).trans (CheckResult.follows_getD_resolve verdict old)
    · exact htracks.insert (RowTable.committed_eq_none_of_read hread hfree) trivial

theorem committed_writeResults (h : s.writeResults t reading statement = some results) :
    results.committed = s.results.committed := by
  rcases writeResults_cases h with rfl | rfl | ⟨key, -, ⟨old, verdict, -, rfl⟩ | ⟨new, -, rfl⟩⟩
  · rfl
  · rfl
  · rfl
  · rfl

theorem moves_writeResults {fence : Option (ℤ × LeaseToken)} {script : List ResultStatement}
    {next : Option (RoundStatement × Next)}
    (hsound : s.PhaseSound t (.writing fence (statement :: script) next))
    (h : s.writeResults t reading statement = some results) :
    s.Moves t { s.setPhase t (.writing fence script next) with results } where
  now := rfl
  rounds := .keep s.rounds
  results := tracks_writeResults h
  committed := committed_writeResults h
  others := fun _ hne => Function.update_of_ne hne ..
  own := by
    change PhaseSound _ t ((s.setPhase t _).phases t)
    rw [phases_setPhase]
    have hrest : s.PhaseSound t (.writing fence script next) := hsound
    exact hrest.frame (.refl t s.rounds) le_rfl

end Results

section Advance

variable {statement : RoundStatement} {locked : List ℤ} {next : Next} {gameId : ℤ}

theorem moves_enter {call : GameCall} (hsound : s.PhaseSound t (.begun gameId call))
    (h : s.enter t reading gameId call = some s') : s.Moves t s' := by
  cases call with
  | fencedWrite roundId token write =>
      obtain rfl := Option.some.inj h
      exact moves_select ⟨hsound, fun hne => absurd rfl hne⟩
  | expireOverdueRoundFinish roundId token =>
      simp only [enter] at h
      split at h
      · obtain rfl := Option.some.inj h
        exact moves_select trivial
      · obtain rfl := Option.some.inj h
        exact moves_setPhase phaseSound_done
  | prepareRound expectedLatest requiredNetworkBound =>
      simp only [enter] at h
      split at h
      · cases h
      · obtain rfl := Option.some.inj h
        exact moves_select trivial
  | finalizeEndedRoundChecks graceSeconds =>
      obtain rfl := Option.some.inj h
      exact moves_select trivial

theorem classifyRound_eq_some {latest : Option (ℤ × PipelineRound)}
    {expectedLatest : Option RoundCursor} {opening : Reading} {now : ℤ}
    (h : s.classifyRound t latest gameId expectedLatest opening now = some phase) :
    ∃ script roundIds after, phase = .writing none script (some (.finalize roundIds, after)) := by
  simp only [classifyRound, Option.bind_eq_bind, Option.bind_eq_some_iff] at h
  obtain ⟨-, -, -, -, window, -, hphase⟩ := h
  exact ⟨_, _, _, (Option.some.inj hphase).symm⟩

/-- Opening a round inserts it or keeps the one which is there. -/
theorem openRound_touch {number roundId : ℤ} {window : ℤ × ℤ}
    {rounds : RowTable ℤ PipelineRound} (hs : s.Sound)
    (h : s.openRound t reading gameId number window = some (rounds, roundId)) :
    RowTable.Touch (fun _ => PipelineRound.Unleased) (PipelineRound.Succeeds s.now) t
      s.rounds rounds := by
  unfold openRound at h
  split at h
  · next k row hfind =>
      simp only [Option.bind_eq_bind, Option.bind_eq_some_iff] at h
      obtain ⟨_, hfree, current, hread, _, hcurrent, hrounds⟩ := h
      obtain ⟨rfl, -⟩ := Prod.mk.inj (Option.some.inj hrounds)
      obtain ⟨hunleased, hold⟩ := hs.rounds.read (PipelineRound.Succeeds.refl s.now) hread
      obtain rfl : current = row := by simpa using hcurrent
      exact .write s.rounds k current (by simpa using hfree) hunleased hold
  · simp only [Option.bind_eq_bind, Option.bind_eq_some_iff] at h
    obtain ⟨_, hfree, _, hnone, hrounds⟩ := h
    obtain ⟨rfl, -⟩ := Prod.mk.inj (Option.some.inj hrounds)
    exact .insert s.rounds _ _ (by simpa using hfree) (by simpa using hnone)
      (PipelineRound.unleased_of_open rfl)

theorem moves_proceed (hs : s.Sound) {readAt : ℤ}
    (hsound : s.PhaseSound t (.selecting statement readAt [] locked next))
    (h : s.proceed t reading statement locked next = some s') : s.Moves t s' := by
  unfold proceed at h
  split at h
  · next gameId roundId token write =>
      simp only [Option.bind_eq_bind, Option.bind_eq_some_iff] at h
      obtain ⟨_, hlocked, script, -, hstate⟩ := h
      obtain rfl := Option.some.inj hstate
      refine moves_setPhase ⟨fun id token' hfence => ?_, fun _ _ hnext => by cases hnext⟩
      cases hfence
      exact hsound.2.2.2 (by simpa using hlocked)
  · simp only [Option.bind_eq_bind, Option.bind_eq_some_iff] at h
    obtain ⟨round, -, hstate⟩ := h
    obtain rfl := Option.some.inj hstate
    refine moves_setPhase (phaseSound_unfenced fun statement after hnext => ?_)
    cases hnext
    rfl
  · simp only [Option.bind_eq_bind, Option.bind_eq_some_iff] at h
    obtain ⟨phase, hphase, hstate⟩ := h
    obtain rfl := Option.some.inj hstate
    obtain ⟨script, roundIds, after, rfl⟩ := classifyRound_eq_some hphase
    refine moves_setPhase (phaseSound_unfenced fun statement after hnext => ?_)
    cases hnext
    rfl
  · simp only [Option.bind_eq_bind, Option.bind_eq_some_iff] at h
    obtain ⟨⟨rounds, roundId⟩, hopen, hstate⟩ := h
    obtain rfl := Option.some.inj hstate
    refine ⟨rfl, openRound_touch hs hopen, fun h => h, rfl,
      fun u hne => Function.update_of_ne hne .., ?_⟩
    change PhaseSound _ t ((s.setPhase t _).phases t)
    rw [phases_setPhase]
    exact phaseSound_unfenced fun _ _ hnext => by cases hnext
  · split at h
    · obtain rfl := Option.some.inj h
      exact moves_setPhase phaseSound_done
    · obtain rfl := Option.some.inj h
      refine moves_setPhase (phaseSound_unfenced fun statement after hnext => ?_)
      cases hnext
      rfl
  · cases h

theorem moves_advance (hs : s.Sound) (hclean : s.claimSeesCurrent t = true)
    (h : s.advance t reading = some s') : s.Moves t s' := by
  have hsound := hs.phases t
  unfold advance at h
  split at h
  · cases h
  · next gameId call hphase =>
      rw [hphase] at hsound
      exact moves_enter hsound h
  · next statement readAt id found rest locked next hphase =>
      simp only [Option.bind_eq_bind, Option.bind_eq_some_iff] at h
      obtain ⟨⟨rounds, kept⟩, hlock, hstate⟩ := h
      obtain rfl := Option.some.inj hstate
      exact moves_lockRound hs hphase hclean hlock
  · next statement readAt locked next hphase =>
      rw [hphase] at hsound
      exact moves_proceed hs hsound h
  · next fence statement script next hphase =>
      rw [hphase] at hsound
      simp only [Option.bind_eq_bind, Option.bind_eq_some_iff] at h
      obtain ⟨results, hwrite, hstate⟩ := h
      obtain rfl := Option.some.inj hstate
      exact moves_writeResults hsound hwrite
  · next fence statement next hphase =>
      rw [hphase] at hsound
      obtain rfl := Option.some.inj h
      exact moves_select (statementSound_of_plain (hsound.2 statement next rfl))
  · cases h

/-- A claim finds its round open, by what it has read of it. -/
theorem open_of_mem_candidates {row : PipelineRound} {target : ClaimTarget}
    {r : ℤ × PipelineRound} {roundId : ℤ} (hread : s.rounds.read t roundId = some row)
    (htarget : claimTarget gameId row = some target)
    (hr : r ∈ s.candidates t reading (.claim roundId token target)) : r.2.Open := by
  obtain ⟨hfound, htest⟩ := mem_candidates hr
  simp only [RoundStatement.test, Bool.and_eq_true, decide_eq_true_eq] at htest
  obtain ⟨⟨hid, hnone⟩, -⟩ := htest
  obtain rfl : r.2 = row := by
    rw [hid, hread] at hfound
    exact (Option.some.inj hfound).symm
  unfold claimTarget at htarget
  split at htarget
  · next hopen =>
      obtain rfl := Option.some.inj htarget
      exact ⟨by simpa using hnone, hopen.2⟩
  · cases htarget

theorem length_candidates_claim (roundId : ℤ) (token : LeaseToken) (target : ClaimTarget) :
    (s.candidates t reading (.claim roundId token target)).length ≤ 1 := by
  refine (List.length_filter_le ..).trans ?_
  change ((s.rounds.read t roundId).map fun row => (roundId, row)).toList.length ≤ 1
  cases s.rounds.read t roundId with
  | none => exact Nat.zero_le 1
  | some row => exact le_rfl

theorem moves_start {call : Call} (hs : s.Sound) (h : s.start t reading call = some s') :
    s.Moves t s' := by
  have hsound := hs.phases t
  unfold start at h
  split at h
  · next hphase =>
      rw [hphase] at hsound
      split at h
      · next gameId roundId token =>
          simp only [Option.bind_eq_bind, Option.bind_eq_some_iff] at h
          obtain ⟨row, hread, target, htarget, hstate⟩ := h
          obtain rfl := Option.some.inj hstate
          exact moves_select ⟨length_candidates_claim roundId token target,
            fun r hr => open_of_mem_candidates hread htarget hr, fun _ => hsound,
            fun _ hid => absurd hid List.not_mem_nil⟩
      · obtain rfl := Option.some.inj h
        exact moves_select trivial
      · obtain rfl := Option.some.inj h
        exact moves_select trivial
      · obtain rfl := Option.some.inj h
        exact moves_select trivial
      · simp only [Option.bind_eq_bind, Option.bind_eq_some_iff] at h
        obtain ⟨-, -, hstate⟩ := h
        obtain rfl := Option.some.inj hstate
        refine ⟨rfl, .keep s.rounds, fun h => h, rfl,
          fun u hne => Function.update_of_ne hne .., ?_⟩
        change PhaseSound _ t ((s.setPhase t _).phases t)
        rw [phases_setPhase]
        exact hsound
  · cases h

end Advance

section Run

def clean (s : Pipeline) : Action → Bool
  | .advance t _ => s.claimSeesCurrent t
  | _ => true

/-- A step in which no claim waits past the end of its round. -/
def CleanStep (s : Pipeline) (a : Action) (s' : Pipeline) : Prop :=
  s.clean a = true ∧ s.step a = some s'

/-- What one step keeps of the ownership of the rounds. -/
structure Owned (s : Pipeline) (a : Action) (s' : Pipeline) : Prop where
  claimed : ∀ t id token, a = .commit t → (s.phases t).disposition = some (id, .claimed token) →
    ∃ row, s'.rounds.committed id = some row ∧ row.Open ∧ row.pipelineLeaseToken = some token
  lease : ∀ id row, s.rounds.committed id = some row → row.leaseFree s.now = false →
    ∃ row', s'.rounds.committed id = some row' ∧ row.LeaseKept row'
  completed : ∀ id row at', s.rounds.committed id = some row →
    row.pipelineCompletedAt = some at' → ∃ row', s'.rounds.committed id = some row' ∧
      row'.pipelineCompletedAt = some at' ∧ row'.pipelineLeaseToken = none ∧
        row'.pipelineLeaseUntil = none
  fenced : ∀ t id token, a = .commit t → (s.phases t).fence = some (id, token) →
    ∃ row, s.rounds.committed id = some row ∧ s'.rounds.committed id = some row ∧ row.Open ∧
      row.pipelineLeaseToken = some token
  results : ∀ key old, s.results.committed key = some old →
    ∃ new, s'.results.committed key = some new ∧ old.Follows new

theorem sound_empty (now : ℤ) : (Pipeline.empty now).Sound where
  rounds := RowTable.tracks_empty
  results := RowTable.tracks_empty
  phases := fun _ _ _ hlock => by cases hlock

theorem Sound.tick (hs : s.Sound) {later : ℤ} (hle : s.now ≤ later) :
    Sound { s with now := later } where
  rounds := hs.rounds.mono fun _ _ h => h.mono hle
  results := hs.results
  phases := fun t => (hs.phases t).frame (.refl t s.rounds) hle

theorem Sound.commit (hs : s.Sound) (t : ℕ) : (s.commit t).Sound where
  rounds := hs.rounds.commit t
  results := hs.results.commit t
  phases u := by
    change (s.commit t).PhaseSound u (Function.update s.phases t .idle u)
    by_cases heq : u = t
    · subst heq
      rw [Function.update_self]
      exact RowTable.unwritten_commit
    · rw [Function.update_of_ne heq]
      exact (hs.phases u).frame (RowTable.frames_commit heq) le_rfl

theorem Sound.abort (hs : s.Sound) (t : ℕ) : (s.abort t).Sound where
  rounds := hs.rounds.rollback t
  results := hs.results.rollback t
  phases u := by
    change (s.abort t).PhaseSound u (Function.update s.phases t .idle u)
    by_cases heq : u = t
    · subst heq
      rw [Function.update_self]
      exact RowTable.unwritten_rollback
    · rw [Function.update_of_ne heq]
      exact (hs.phases u).frame (RowTable.frames_rollback heq) le_rfl

theorem Sound.step (hs : s.Sound) {a : Action} (h : CleanStep s a s') : s'.Sound := by
  obtain ⟨hclean, hstep⟩ := h
  cases a with
  | tick later =>
      rw [Pipeline.step] at hstep
      split at hstep
      · next hle =>
          obtain rfl := Option.some.inj hstep
          exact hs.tick hle
      · cases hstep
  | start t reading call => exact hs.move (moves_start hs hstep)
  | advance t reading => exact hs.move (moves_advance hs hclean hstep)
  | commit t =>
      rw [Pipeline.step] at hstep
      split at hstep
      · obtain rfl := Option.some.inj hstep
        exact hs.commit t
      · cases hstep
  | abort t =>
      obtain rfl := Option.some.inj hstep
      exact hs.abort t

/-- A step which commits nothing keeps the ownership of the rounds. -/
theorem Sound.owned_of_committed (hs : s.Sound) {a : Action}
    (hrounds : s'.rounds.committed = s.rounds.committed)
    (hresults : s'.results.committed = s.results.committed) (ha : ∀ t, a ≠ .commit t) :
    Owned s a s' where
  claimed := fun t _ _ hcommit => absurd hcommit (ha t)
  lease := fun id row hrow _ => ⟨row, by rw [hrounds, hrow], .refl row⟩
  completed := fun id row at' hrow hat => by
    have hnone := hs.rounds.committed id row hrow (by rw [hat]; rfl)
    exact ⟨row, by rw [hrounds, hrow], hat, hnone.1, hnone.2⟩
  fenced := fun t _ _ hcommit => absurd hcommit (ha t)
  results := fun key old hold => ⟨old, by rw [hresults, hold], .refl old⟩

theorem fenced_of_fence (h : s.PhaseSound t phase) (hfence : phase.fence = some (id, token)) :
    s.Fenced t id token := by
  cases phase with
  | writing fence script next => exact h.1 id token hfence
  | idle | begun | selecting => cases hfence

theorem claimed_of_disposition (h : s.PhaseSound t phase)
    (hclaimed : phase.disposition = some (id, .claimed token)) : s.Claimed t id token := by
  unfold Phase.disposition at hclaimed
  split at hclaimed
  · next roundId token' target readAt locked =>
      split at hclaimed
      · cases hclaimed
      · split at hclaimed
        · next hmem =>
            cases hclaimed
            exact h.2.2.2.2.2 _ hmem
        · cases hclaimed
  · cases hclaimed

theorem Sound.owned_commit (hs : s.Sound) (t : ℕ) : Owned s (.commit t) (s.commit t) where
  claimed := fun u id token hcommit hclaimed => by
    cases hcommit
    obtain ⟨row, draft, hrow, hfree, hlock, hopen, htoken⟩ :=
      claimed_of_disposition (hs.phases t) hclaimed
    exact ⟨draft, RowTable.committed_commit_self hlock, hopen, htoken⟩
  lease := fun id row hrow hrunning => by
    obtain ⟨row', hrow', -, hlease⟩ := hs.rounds.follows (PipelineRound.Succeeds.refl s.now) hrow
    refine ⟨row', hrow', hlease.resolve_right ?_⟩
    rw [hrunning]
    exact Bool.false_ne_true
  completed := fun id row at' hrow hat => by
    obtain ⟨row', hrow', hfollows, -⟩ := hs.rounds.follows (PipelineRound.Succeeds.refl s.now) hrow
    have hat' := hfollows.completed at' hat
    have hnone := (hs.commit t).rounds.committed id row' hrow' (by rw [hat']; rfl)
    exact ⟨row', hrow', hat', hnone.1, hnone.2⟩
  fenced := fun u id token hcommit hfence => by
    cases hcommit
    obtain ⟨hlock, row, hrow, hopen, htoken⟩ := fenced_of_fence (hs.phases t) hfence
    exact ⟨row, hrow, (RowTable.committed_commit_of_shared hlock).trans hrow, hopen, htoken⟩
  results := fun key old hold => hs.results.follows CheckResult.Follows.refl hold

theorem Sound.owned (hs : s.Sound) {a : Action} (h : CleanStep s a s') : Owned s a s' := by
  obtain ⟨hclean, hstep⟩ := h
  cases a with
  | tick later =>
      rw [Pipeline.step] at hstep
      split at hstep
      · obtain rfl := Option.some.inj hstep
        exact hs.owned_of_committed rfl rfl nofun
      · cases hstep
  | start t reading call =>
      have hmove := moves_start hs hstep
      exact hs.owned_of_committed hmove.rounds.committed hmove.committed nofun
  | advance t reading =>
      have hmove := moves_advance hs hclean hstep
      exact hs.owned_of_committed hmove.rounds.committed hmove.committed nofun
  | commit t =>
      rw [Pipeline.step] at hstep
      split at hstep
      · obtain rfl := Option.some.inj hstep
        exact hs.owned_commit t
      · cases hstep
  | abort t =>
      obtain rfl := Option.some.inj hstep
      exact hs.owned_of_committed rfl rfl nofun

/-- What is settled in the tables is settled for good. -/
structure Settled (s s' : Pipeline) : Prop where
  completed : ∀ id row at', s.rounds.committed id = some row →
    row.pipelineCompletedAt = some at' → ∃ row', s'.rounds.committed id = some row' ∧
      row'.pipelineCompletedAt = some at' ∧ row'.pipelineLeaseToken = none ∧
        row'.pipelineLeaseUntil = none
  resolved : ∀ key old, s.results.committed key = some old → old.resolved = true →
    s'.results.committed key = some old

theorem Sound.settled (hs : s.Sound) {as : List Action} (h : StepPath CleanStep s as s') :
    Settled s s' := by
  induction h with
  | nil s =>
      refine ⟨fun id row at' hrow hat => ?_, fun key old hold _ => hold⟩
      have hnone := hs.rounds.committed id row hrow (by rw [hat]; rfl)
      exact ⟨row, hrow, hat, hnone.1, hnone.2⟩
  | cons hfirst _ ih =>
      have howned := hs.owned hfirst
      have hrest := ih (hs.step hfirst)
      refine ⟨fun id row at' hrow hat => ?_, fun key old hold hresolved => ?_⟩
      · obtain ⟨row', hrow', hat', -⟩ := howned.completed id row at' hrow hat
        exact hrest.completed id row' at' hrow' hat'
      · obtain ⟨new, hnew, hfollows⟩ := howned.results key old hold
        obtain rfl := hfollows.eq_of_resolved hresolved
        exact hrest.resolved key new hnew hresolved

/-- In every run of the pipeline in which no claim waits past the end of its round, every
step keeps the ownership of the rounds, and what is settled stays so. -/
theorem pipeline_owned {now : ℤ} {as : List Action}
    (h : StepPath CleanStep (Pipeline.empty now) as s) :
    (∀ a s', CleanStep s a s' → Owned s a s') ∧
      ∀ bs u, StepPath CleanStep s bs u → Settled s u := by
  have hs : s.Sound := h.invariant (fun _ _ _ hs hstep => hs.step hstep) (sound_empty now)
  exact ⟨fun _ _ hstep => hs.owned hstep, fun _ _ hrun => hs.settled hrun⟩

section Example

def arena : Reading where
  defaults := ⟨60, 0⟩
  settings := ⟨some 60, some 0, none, 0, seconds 100000, false⟩
  challenges := [⟨1, .attackDefense, false, false⟩]
  roster := []
  services := [4]
  closedDeliveries := []
  kothComplete := true
  boundedDiagnostic := fun message => message
  newRoundId := 7
  rewritten := false

def alpha : LeaseToken := ⟨"alpha", "1"⟩
def beta : LeaseToken := ⟨"beta", "1"⟩

/-- A round is prepared and claimed by a first replica. -/
def openingRun : List Action :=
  [.start 0 arena (.underGameLock 1 (.prepareRound none none)), .advance 0 arena,
    .advance 0 arena, .advance 0 arena, .advance 0 arena, .advance 0 arena, .commit 0,
    .start 1 arena (.claimRoundFinish 1 7 alpha), .advance 1 arena]

def cleanStep (s : Pipeline) (a : Action) : Option Pipeline :=
  if s.clean a then s.step a else none

theorem cleanStep_of_eq_some {a : Action} (h : s.cleanStep a = some s') : CleanStep s a s' := by
  unfold cleanStep at h
  split at h
  · next hclean => exact ⟨hclean, h⟩
  · cases h

theorem pipeline_owned_opening : ∃ s s', StepPath CleanStep (Pipeline.empty (seconds 1))
    openingRun s ∧ (s.phases 1).disposition = some (7, .claimed alpha) ∧
      Owned s (.commit 1) s' ∧ Settled s s' := by
  have hrun : (openingRun.foldlM cleanStep (Pipeline.empty (seconds 1))).any (fun s =>
      decide ((s.phases 1).disposition = some (7, .claimed alpha)) &&
        (s.cleanStep (.commit 1)).isSome) = true := by decide +kernel
  obtain ⟨s, hs, hclaim⟩ := (Option.any_eq_true _ _).mp hrun
  rw [Bool.and_eq_true, decide_eq_true_eq] at hclaim
  obtain ⟨s', hs'⟩ := Option.isSome_iff_exists.mp hclaim.2
  have hpath : StepPath CleanStep (Pipeline.empty (seconds 1)) openingRun s :=
    (StepPath.of_foldlM hs).mono fun _ _ _ => cleanStep_of_eq_some
  have hstep : CleanStep s (.commit 1) s' := cleanStep_of_eq_some hs'
  have howned := pipeline_owned hpath
  exact ⟨s, s', hpath, hclaim.1, howned.1 _ _ hstep, howned.2 _ _ (.cons hstep (.nil s'))⟩

/-- The lease of the first replica has run out while it completes the round; a second one
claims the round in between. -/
def overtakenRun : List Action :=
  openingRun ++ [.commit 1, .tick (seconds 400),
    .start 2 arena (.completeRoundFinish 1 7 alpha), .advance 2 arena,
    .start 3 arena (.claimRoundFinish 1 7 beta), .commit 2, .advance 3 arena]

/-- A claim may be granted on a completed round. -/
theorem not_claimed_only_open : ¬ ∀ now as s t id token,
    StepPath (fun s a s' => s.step a = some s') (Pipeline.empty now) as s →
      (s.phases t).disposition = some (id, .claimed token) →
        ∃ row, (s.commit t).rounds.committed id = some row ∧ row.Open := by
  intro h
  have hrun : (overtakenRun.foldlM step (Pipeline.empty (seconds 1))).any (fun s =>
      decide ((s.phases 3).disposition = some (7, .claimed beta)) &&
        ((s.commit 3).rounds.committed 7).all fun row => row.pipelineCompletedAt.isSome) =
      true := by decide +kernel
  obtain ⟨s, hs, hclaim⟩ := (Option.any_eq_true _ _).mp hrun
  rw [Bool.and_eq_true, decide_eq_true_eq] at hclaim
  obtain ⟨row, hrow, hopen⟩ := h _ _ s 3 7 beta (StepPath.of_foldlM hs) hclaim.1
  have hcompleted := hclaim.2
  rw [hrow, Option.all_some, hopen.1] at hcompleted
  cases hcompleted

end Example

end Run

end Steps

end Pipeline

end Engine

end Rsctf
