import Rsctf.Vpn.Coordination

/-!
# What an acknowledgement says

Generations only grow, and nothing is acknowledged that was not requested.  A caller whose
wait succeeds knows that some pass loaded the desired state after the request, that the
kernel of its process was brought to that state, and that the process held the lease when
the pass began.
-/

namespace Rsctf

namespace Vpn

namespace Network

variable {φ : Type} {process : ℕ → ℕ} {s t : Network φ} {pass u : ℕ}
  {phase : Phase φ}

section Invariant

/-- The snapshot of a pass is a requested generation, and what was requested up to it was
requested before the desired state was loaded. -/
def SnapshotSound (s : Network φ) (generation : Option ℤ) (loadedAt : ℕ) : Prop :=
  ∀ g, generation = some g →
    (∃ cursor, s.cursor = some cursor ∧ g ≤ cursor.requestedGeneration) ∧
      ∀ request ∈ s.committed, request.1 ≤ g → request.2 < loadedAt

/-- The pass has its process for itself. -/
def Alone (process : ℕ → ℕ) (s : Network φ) (pass : ℕ) : Prop :=
  s.syncLocks (process pass) = some pass

def PassSound (process : ℕ → ℕ) (s : Network φ) (pass : ℕ) (phase : Phase φ) : Prop :=
  match phase with
  | .idle => True
  | .entered leased => leased = true
  | .guarded leased => leased = true ∧ s.Alone process pass
  | .locked leased => leased = true ∧ s.Alone process pass
  | .pending leased generation =>
      leased = true ∧ s.Alone process pass ∧ s.SnapshotSound generation s.clock
  | .loaded leased generation loadedAt _ wasDirty =>
      leased = true ∧ s.Alone process pass ∧ s.SnapshotSound generation loadedAt ∧
        s.dirty (process pass) = true ∧
          (wasDirty = false → s.kernel (process pass) = s.appliedState (process pass))
  | .completed leased generation loadedAt desired _ =>
      leased = true ∧ s.Alone process pass ∧ s.SnapshotSound generation loadedAt ∧
        s.kernel (process pass) = some desired

/-- An acknowledgement covers a request. -/
structure Covers (a : Acknowledgement φ) (request : ℤ × ℕ) : Prop where
  generation : request.1 ≤ a.generation
  loaded : request.2 < a.loadedAt
  kernel : a.kernel = some a.desired
  leased : a.leasedAtStart = true

structure Sound (process : ℕ → ℕ) (s : Network φ) : Prop where
  cursor : ∃ cursor, s.cursor = some cursor ∧
    cursor.appliedGeneration ≤ cursor.requestedGeneration ∧
    (∀ request ∈ s.committed, request.1 ≤ cursor.requestedGeneration) ∧
    ∀ request ∈ s.committed, request.1 ≤ cursor.appliedGeneration →
      ∃ a ∈ s.acknowledged, Covers a request
  clock : ∀ request ∈ s.committed, request.2 < s.clock
  clean : ∀ p, s.dirty p = false → s.kernel p = s.appliedState p
  passes : ∀ pass, PassSound process s pass (s.phases pass)

end Invariant

section Frame

/-- What a pass relies on is left alone. -/
structure Frames (process : ℕ → ℕ) (s t : Network φ) (u : ℕ) : Prop where
  clock : s.clock ≤ t.clock
  cursor : ∀ cursor, s.cursor = some cursor → ∃ cursor', t.cursor = some cursor' ∧
    cursor.requestedGeneration ≤ cursor'.requestedGeneration
  committed : ∀ request ∈ t.committed, request ∈ s.committed ∨
    ∀ cursor, s.cursor = some cursor → cursor.requestedGeneration < request.1
  alone : s.Alone process u → t.Alone process u ∧
    t.kernel (process u) = s.kernel (process u) ∧
    t.appliedState (process u) = s.appliedState (process u) ∧
    (s.dirty (process u) = true → t.dirty (process u) = true)

theorem SnapshotSound.frame {generation : Option ℤ} {loadedAt : ℕ}
    (h : s.SnapshotSound generation loadedAt) (hframe : Frames process s t u) :
    t.SnapshotSound generation loadedAt := by
  intro g hg
  obtain ⟨⟨cursor, hcursor, hle⟩, hbefore⟩ := h g hg
  obtain ⟨cursor', hcursor', hgrow⟩ := hframe.cursor cursor hcursor
  refine ⟨⟨cursor', hcursor', hle.trans hgrow⟩, fun request hrequest hup => ?_⟩
  rcases hframe.committed request hrequest with hold | hnew
  · exact hbefore request hold hup
  · exact absurd (hup.trans hle) (not_le.mpr (hnew cursor hcursor))

theorem SnapshotSound.mono {generation : Option ℤ} {loadedAt later : ℕ} (hle : loadedAt ≤ later)
    (h : s.SnapshotSound generation loadedAt) : s.SnapshotSound generation later := fun g hg =>
  ⟨(h g hg).1, fun request hrequest hup => ((h g hg).2 request hrequest hup).trans_le hle⟩

theorem PassSound.frame (h : PassSound process s u phase) (hframe : Frames process s t u) :
    PassSound process t u phase := by
  cases phase with
  | idle => trivial
  | entered leased => exact h
  | guarded leased => exact ⟨h.1, (hframe.alone h.2).1⟩
  | locked leased => exact ⟨h.1, (hframe.alone h.2).1⟩
  | pending leased generation =>
      obtain ⟨hleased, halone, hsnapshot⟩ := h
      exact ⟨hleased, (hframe.alone halone).1, (hsnapshot.frame hframe).mono hframe.clock⟩
  | loaded leased generation loadedAt desired wasDirty =>
      obtain ⟨hleased, halone, hsnapshot, hdirty, hclean⟩ := h
      obtain ⟨halone', hkernel, happlied, hkept⟩ := hframe.alone halone
      refine ⟨hleased, halone', hsnapshot.frame hframe, hkept hdirty, fun hwas => ?_⟩
      rw [hkernel, happlied, hclean hwas]
  | completed leased generation loadedAt desired applied =>
      obtain ⟨hleased, halone, hsnapshot, hkernel⟩ := h
      obtain ⟨halone', hsame, -⟩ := hframe.alone halone
      exact ⟨hleased, halone', hsnapshot.frame hframe, hsame.trans hkernel⟩

/-- A step of one pass which leaves the cursor alone. -/
structure Moves (process : ℕ → ℕ) (s : Network φ) (pass : ℕ) (t : Network φ) : Prop where
  clock : t.clock = s.clock
  cursor : t.cursor = s.cursor
  committed : t.committed = s.committed
  acknowledged : t.acknowledged = s.acknowledged
  clean : ∀ p, t.dirty p = false → t.kernel p = t.appliedState p
  others : ∀ u, u ≠ pass → t.phases u = s.phases u
  alone : ∀ u, u ≠ pass → s.Alone process u → t.Alone process u ∧
    t.kernel (process u) = s.kernel (process u) ∧
    t.appliedState (process u) = s.appliedState (process u) ∧
    (s.dirty (process u) = true → t.dirty (process u) = true)
  own : PassSound process t pass (t.phases pass)

theorem Sound.move (h : Sound process s) (hmove : Moves process s pass t) : Sound process t where
  cursor := by
    rw [hmove.cursor, hmove.committed, hmove.acknowledged]
    exact h.cursor
  clock := by
    rw [hmove.committed, hmove.clock]
    exact h.clock
  clean := hmove.clean
  passes u := by
    by_cases heq : u = pass
    · exact heq ▸ hmove.own
    · rw [hmove.others u heq]
      refine (h.passes u).frame ⟨hmove.clock.ge, fun cursor hcursor => ?_,
        fun request hrequest => ?_, hmove.alone u heq⟩
      · exact ⟨cursor, hmove.cursor.trans hcursor, le_rfl⟩
      · exact .inl (hmove.committed ▸ hrequest)

/-- The clock goes on. -/
theorem Sound.tick (h : Sound process s) : Sound process { s with clock := s.clock + 1 } where
  cursor := h.cursor
  clock := fun request hrequest => Nat.lt_succ_of_lt (h.clock request hrequest)
  clean := h.clean
  passes u := (h.passes u).frame ⟨Nat.le_succ _, fun cursor hcursor => ⟨cursor, hcursor, le_rfl⟩,
    fun _ hrequest => .inl hrequest, fun halone => ⟨halone, rfl, rfl, id⟩⟩

end Frame

section Moves

@[simp] theorem phases_setPhase : (s.setPhase pass phase).phases pass = phase :=
  Function.update_self ..

/-- Another pass of the same process is not alone with it. -/
theorem Alone.process_ne (h : s.Alone process pass) (h' : s.Alone process u) (hne : u ≠ pass) :
    process u ≠ process pass := by
  intro heq
  have hsame : some u = some pass := h'.symm.trans ((congrArg s.syncLocks heq).trans h)
  exact hne (Option.some.inj hsame)

theorem moves_setPhase (h : Sound process s) (hown : PassSound process s pass phase) :
    Moves process s pass (s.setPhase pass phase) where
  clock := rfl
  cursor := rfl
  committed := rfl
  acknowledged := rfl
  clean := h.clean
  others := fun _ hne => Function.update_of_ne hne ..
  alone := fun _ _ halone => ⟨halone, rfl, rfl, id⟩
  own := by
    rw [phases_setPhase]
    exact hown.frame ⟨le_rfl, fun cursor hcursor => ⟨cursor, hcursor, le_rfl⟩,
      fun _ hrequest => .inl hrequest, fun halone => ⟨halone, rfl, rfl, id⟩⟩

theorem moves_finish (h : Sound process s) : Moves process s pass (s.finish pass) where
  clock := rfl
  cursor := rfl
  committed := rfl
  acknowledged := rfl
  clean := h.clean
  others := fun _ hne => Function.update_of_ne hne ..
  alone := fun u hne halone => ⟨Locks.release_of_held halone hne, rfl, rfl, id⟩
  own := by
    have hidle : (s.finish pass).phases pass = .idle := phases_setPhase
    rw [hidle]
    trivial

theorem moves_complete (h : Sound process s) {leased : Bool} {generation : Option ℤ}
    {loadedAt : ℕ} {desired : φ} {applied : Bool} (hleased : leased = true)
    (halone : s.Alone process pass) (hsnapshot : s.SnapshotSound generation loadedAt) :
    Moves process s pass (s.complete process pass leased generation loadedAt desired applied) where
  clock := rfl
  cursor := rfl
  committed := rfl
  acknowledged := rfl
  clean := by
    intro p hdirty
    simp only [complete] at hdirty ⊢
    by_cases heq : p = process pass
    · rw [heq, Function.update_self, Function.update_self]
    · rw [Function.update_of_ne heq] at hdirty ⊢
      rw [Function.update_of_ne heq]
      exact h.clean p hdirty
  others := fun _ hne => Function.update_of_ne hne ..
  alone := fun u hne halone' => by
    have hother := halone.process_ne halone' hne
    simp only [complete]
    rw [Function.update_of_ne hother, Function.update_of_ne hother, Function.update_of_ne hother]
    exact ⟨halone', rfl, rfl, id⟩
  own := by
    have hphase : (s.complete process pass leased generation loadedAt desired applied).phases pass =
        .completed leased generation loadedAt desired applied := Function.update_self ..
    rw [hphase]
    exact ⟨hleased, halone, hsnapshot, Function.update_self ..⟩

/-- A pass which finds its process at the desired state already. -/
theorem moves_skip (h : Sound process s) {leased : Bool} {generation : Option ℤ}
    {loadedAt : ℕ} {desired : φ} {wasDirty : Bool}
    (hphase : s.phases pass = .loaded leased generation loadedAt desired wasDirty)
    (hwas : wasDirty = false) (happlied : s.appliedState (process pass) = some desired) :
    Moves process s pass
      { s.setPhase pass (.completed leased generation loadedAt desired false) with
        dirty := Function.update s.dirty (process pass) false } := by
  have hown := h.passes pass
  rw [hphase] at hown
  obtain ⟨hleased, halone, hsnapshot, hdirty, hclean⟩ := hown
  refine ⟨rfl, rfl, rfl, rfl, fun p hp => ?_, fun u hne => Function.update_of_ne hne ..,
    fun u hne halone' => ⟨halone', rfl, rfl, fun hu => ?_⟩, ?_⟩
  · by_cases heq : p = process pass
    · exact heq ▸ hclean hwas
    · exact h.clean p ((Function.update_of_ne heq ..).symm.trans hp)
  · exact (Function.update_of_ne (halone.process_ne halone' hne) ..).trans hu
  · change PassSound process _ pass ((s.setPhase pass _).phases pass)
    rw [phases_setPhase]
    exact ⟨hleased, halone, hsnapshot, (hclean hwas).trans happlied⟩

theorem moves_load (h : Sound process s) {leased : Bool} {generation : Option ℤ} {desired : φ}
    (hphase : s.phases pass = .pending leased generation) :
    Moves process s pass
      { s.setPhase pass (.loaded leased generation s.clock desired (s.dirty (process pass))) with
        dirty := Function.update s.dirty (process pass) true } := by
  have hown := h.passes pass
  rw [hphase] at hown
  obtain ⟨hleased, halone, hsnapshot⟩ := hown
  refine ⟨rfl, rfl, rfl, rfl, fun p hp => ?_, fun u hne => Function.update_of_ne hne ..,
    fun u hne halone' => ⟨halone', rfl, rfl, fun hu => ?_⟩, ?_⟩
  · by_cases heq : p = process pass
    · subst heq
      exact absurd ((Function.update_self ..).symm.trans hp) (by decide)
    · exact h.clean p ((Function.update_of_ne heq ..).symm.trans hp)
  · exact (Function.update_of_ne (halone.process_ne halone' hne) ..).trans hu
  · change PassSound process _ pass ((s.setPhase pass _).phases pass)
    rw [phases_setPhase]
    exact ⟨hleased, halone, hsnapshot, Function.update_self .., h.clean _⟩

/-- A failed pass may leave the kernel of its process anywhere. -/
theorem moves_fail (h : Sound process s) {leased : Bool} {generation : Option ℤ}
    {loadedAt : ℕ} {desired : φ} {wasDirty : Bool}
    (hphase : s.phases pass = .loaded leased generation loadedAt desired wasDirty) :
    Moves process s pass
      { s.finish pass with kernel := Function.update s.kernel (process pass) none } := by
  have hown := h.passes pass
  rw [hphase] at hown
  obtain ⟨hleased, halone, hsnapshot, hdirty, hclean⟩ := hown
  refine ⟨rfl, rfl, rfl, rfl, fun p hp => ?_, fun u hne => Function.update_of_ne hne ..,
    fun u hne halone' => ⟨Locks.release_of_held halone' hne, ?_, rfl, id⟩, ?_⟩
  · have heq : p ≠ process pass := by
      rintro rfl
      exact absurd (hdirty.symm.trans hp) (by decide)
    exact (Function.update_of_ne heq ..).trans (h.clean p hp)
  · exact Function.update_of_ne (halone.process_ne halone' hne) ..
  · have hidle : (s.finish pass).phases pass = .idle := phases_setPhase
    change PassSound process _ pass ((s.finish pass).phases pass)
    rw [hidle]
    trivial

end Moves

section Steps

/-- A request takes a generation which nobody has seen. -/
theorem Sound.request (h : Sound process s) : Sound process { s with
    clock := s.clock + 1
    cursor := some (Cursor.request s.cursor)
    committed := ((Cursor.request s.cursor).requestedGeneration, s.clock) :: s.committed } := by
  obtain ⟨cursor, hcursor, hle, hrequested, hcovered⟩ := h.cursor
  have hrequest : Cursor.request s.cursor =
      { cursor with requestedGeneration := cursor.requestedGeneration + 1 } := by
    rw [hcursor]
    rfl
  rw [hrequest]
  refine ⟨⟨_, rfl, hle.trans (by simp), fun request hmem => ?_, fun request hmem hup => ?_⟩,
    fun request hmem => ?_, h.clean, fun u => (h.passes u).frame
      ⟨Nat.le_succ _, fun other hother => ?_, fun request hmem => ?_,
        fun halone => ⟨halone, rfl, rfl, id⟩⟩⟩
  · rcases List.mem_cons.mp hmem with rfl | hold
    · exact le_rfl
    · exact (hrequested request hold).trans (by simp)
  · rcases List.mem_cons.mp hmem with rfl | hold
    · simp only at hup
      omega
    · exact hcovered request hold hup
  · rcases List.mem_cons.mp hmem with rfl | hold
    · exact Nat.lt_succ_self _
    · exact Nat.lt_succ_of_lt (h.clock request hold)
  · obtain rfl := Option.some.inj (hother.symm.trans hcursor)
    exact ⟨_, rfl, by simp⟩
  · rcases List.mem_cons.mp hmem with rfl | hold
    · refine .inr fun other hother => ?_
      obtain rfl := Option.some.inj (hother.symm.trans hcursor)
      simp
    · exact .inl hold

/-- An acknowledgement covers every request up to its generation. -/
theorem Sound.acknowledge (h : Sound process s) {leased : Bool} {generation : ℤ} {loadedAt : ℕ}
    {desired : φ} {applied : Bool} {cursor cursor' : Cursor}
    (hphase : s.phases pass = .completed leased (some generation) loadedAt desired applied)
    (hcursor : s.cursor = some cursor) (hack : cursor.acknowledge generation = some cursor') :
    Sound process
      (s.acknowledge process pass leased generation loadedAt desired applied cursor') := by
  have hown := h.passes pass
  rw [hphase] at hown
  obtain ⟨hleased, -, hsnapshot, hkernel⟩ := hown
  obtain ⟨-, hbefore⟩ := hsnapshot generation rfl
  obtain ⟨known, hknown, hle, hrequested, hcovered⟩ := h.cursor
  obtain rfl := Option.some.inj (hknown.symm.trans hcursor)
  unfold Cursor.acknowledge at hack
  split at hack
  · next hup =>
      obtain rfl := Option.some.inj hack
      have hfinish : Sound process (s.finish pass) := h.move (moves_finish h)
      refine ⟨⟨_, rfl, max_le hle hup, hrequested, fun request hmem hcover => ?_⟩, h.clock, h.clean,
        fun u => (hfinish.passes u).frame ⟨le_rfl, fun other hother => ?_,
          fun _ hmem => .inl hmem, fun halone => ⟨halone, rfl, rfl, id⟩⟩⟩
      · rcases le_max_iff.mp hcover with hold | hnew
        · obtain ⟨a, ha, hcovers⟩ := hcovered request hmem hold
          exact ⟨a, List.mem_append_left _ ha, hcovers⟩
        · exact ⟨_, List.mem_append_right _ List.mem_cons_self,
            ⟨hnew, hbefore request hmem hnew, hkernel, hleased⟩⟩
      · obtain rfl := Option.some.inj (hother.symm.trans hcursor)
        exact ⟨_, rfl, le_rfl⟩
  · cases hack

theorem Sound.crash (h : Sound process s) (p : ℕ) : Sound process (s.crash process p) where
  cursor := h.cursor
  clock := h.clock
  clean := by
    intro q hdirty
    simp only [Network.crash] at hdirty ⊢
    by_cases heq : q = p
    · rw [heq, Function.update_self, Function.update_self]
    · rw [Function.update_of_ne heq] at hdirty ⊢
      rw [Function.update_of_ne heq]
      exact h.clean q hdirty
  passes u := by
    by_cases heq : process u = p
    · have hidle : (s.crash process p).phases u = .idle := if_pos heq
      rw [hidle]
      trivial
    · have hsame : (s.crash process p).phases u = s.phases u := if_neg heq
      rw [hsame]
      refine (h.passes u).frame ⟨le_rfl, fun cursor hcursor => ⟨cursor, hcursor, le_rfl⟩,
        fun _ hmem => .inl hmem,
        fun halone => ⟨(if_neg heq).trans halone, ?_, ?_, fun hdirty => ?_⟩⟩
      · exact Function.update_of_ne heq ..
      · exact Function.update_of_ne heq ..
      · exact (Function.update_of_ne heq ..).trans hdirty

theorem Sound.markDirty (h : Sound process s) (p : ℕ) :
    Sound process { s with dirty := Function.update s.dirty p true } where
  cursor := h.cursor
  clock := h.clock
  clean := by
    intro q hdirty
    by_cases heq : q = p
    · subst heq
      exact absurd ((Function.update_self ..).symm.trans hdirty) (by decide)
    · exact h.clean q ((Function.update_of_ne heq ..).symm.trans hdirty)
  passes u := (h.passes u).frame ⟨le_rfl, fun cursor hcursor => ⟨cursor, hcursor, le_rfl⟩,
    fun _ hmem => .inl hmem, fun halone => ⟨halone, rfl, rfl, fun hdirty => by
      by_cases heq : process u = p
      · exact heq ▸ Function.update_self ..
      · exact (Function.update_of_ne heq ..).trans hdirty⟩⟩

theorem moves_lockProcess (h : Sound process s) {leased : Bool} (hleased : leased = true)
    (hfree : s.syncLocks (process pass) = none) :
    Moves process s pass { s.setPhase pass (.guarded leased) with
      syncLocks := s.syncLocks.acquire pass [process pass] } := by
  refine ⟨rfl, rfl, rfl, rfl, h.clean, fun u hne => Function.update_of_ne hne ..,
    fun u hne halone => ⟨?_, rfl, rfl, id⟩, ?_⟩
  · refine Locks.acquire_of_held (fun p hp => ?_) halone hne
    rw [List.mem_singleton.mp hp, Locks.available, hfree]
    rfl
  · change PassSound process _ pass ((s.setPhase pass _).phases pass)
    rw [phases_setPhase]
    exact ⟨hleased, Locks.acquire_self List.mem_cons_self⟩

theorem Sound.lease (h : Sound process s) (p : ℕ) (held : Bool) :
    Sound process { s with leases := Function.update s.leases p held } where
  cursor := h.cursor
  clock := h.clock
  clean := h.clean
  passes u := (h.passes u).frame ⟨le_rfl, fun cursor hcursor => ⟨cursor, hcursor, le_rfl⟩,
    fun _ hmem => .inl hmem, fun halone => ⟨halone, rfl, rfl, id⟩⟩

theorem Sound.lockKernel (h : Sound process s) {leased : Bool}
    (hphase : s.phases pass = .guarded leased) :
    Sound process { s.setPhase pass (.locked leased) with
      kernelLock := s.kernelLock.acquire pass [()] } := by
  have hown := h.passes pass
  rw [hphase] at hown
  have hlocked : Sound process (s.setPhase pass (.locked leased)) := h.move (moves_setPhase h hown)
  exact ⟨hlocked.cursor, hlocked.clock, hlocked.clean, fun u => (hlocked.passes u).frame
    ⟨le_rfl, fun cursor hcursor => ⟨cursor, hcursor, le_rfl⟩, fun _ hmem => .inl hmem,
      fun halone => ⟨halone, rfl, rfl, id⟩⟩⟩

/-- A snapshot takes the requested generation. -/
theorem snapshotSound_pending (h : Sound process s) {cursor : Cursor}
    (hcursor : s.cursor = some cursor) : s.SnapshotSound cursor.pendingSnapshot s.clock := by
  intro g hg
  unfold Cursor.pendingSnapshot at hg
  split at hg
  · obtain rfl := Option.some.inj hg
    exact ⟨⟨cursor, hcursor, le_rfl⟩, fun request hmem _ => h.clock request hmem⟩
  · cases hg

/-- What a step does to the cursor; it leaves the clock to `step`. -/
inductive Advances (s t : Network φ) : Prop
  | kept : t.cursor = s.cursor → t.clock = s.clock → Advances s t
  | requested : t.cursor = some (Cursor.request s.cursor) → t.clock = s.clock → Advances s t
  | acknowledged (cursor cursor' : Cursor) (generation : ℤ) : s.cursor = some cursor →
      cursor.acknowledge generation = some cursor' → t.cursor = some cursor' →
        t.clock = s.clock → Advances s t

theorem Advances.clock_eq (h : Advances s t) : t.clock = s.clock := by
  cases h with
  | kept _ hclock => exact hclock
  | requested _ hclock => exact hclock
  | acknowledged _ _ _ _ _ _ hclock => exact hclock

variable [DecidableEq φ]

/-- Whatever happens besides a request. -/
theorem Sound.next (h : Sound process s) {e : Event φ} (he : e ≠ .request)
    (hnext : s.next process e = some t) : Sound process t := by
  cases e with
  | request => exact absurd rfl he
  | lease p held =>
      obtain rfl := Option.some.inj hnext
      exact h.lease p held
  | markDirty p =>
      obtain rfl := Option.some.inj hnext
      exact h.markDirty p
  | begin pass =>
      simp only [Network.next] at hnext
      split at hnext
      · split at hnext
        · next hleased =>
            obtain rfl := Option.some.inj hnext
            exact h.move (moves_setPhase h hleased)
        · cases hnext
      · cases hnext
  | lockProcess pass =>
      simp only [Network.next] at hnext
      split at hnext
      · next leased hphase =>
          have hown := h.passes pass
          rw [hphase] at hown
          split at hnext
          · next hfree =>
              obtain rfl := Option.some.inj hnext
              exact h.move (moves_lockProcess h hown hfree)
          · cases hnext
      · cases hnext
  | lockKernel pass =>
      simp only [Network.next] at hnext
      split at hnext
      · next leased hphase =>
          split at hnext
          · obtain rfl := Option.some.inj hnext
            exact h.lockKernel hphase
          · cases hnext
      · cases hnext
  | snapshot pass force =>
      simp only [Network.next] at hnext
      split at hnext
      · next leased cursor hphase hcursor =>
          have hown := h.passes pass
          rw [hphase] at hown
          split at hnext
          · obtain rfl := Option.some.inj hnext
            exact h.move (moves_setPhase h ⟨hown.1, hown.2, snapshotSound_pending h hcursor⟩)
          · obtain rfl := Option.some.inj hnext
            exact h.move (moves_finish h)
      · cases hnext
  | load pass desired =>
      simp only [Network.next] at hnext
      split at hnext
      · next leased generation hphase =>
          obtain rfl := Option.some.inj hnext
          exact h.move (moves_load h hphase)
      · cases hnext
  | skip pass firewallInstalled =>
      simp only [Network.next] at hnext
      split at hnext
      · next leased generation loadedAt desired wasDirty hphase =>
          split at hnext
          · next hsame =>
              obtain rfl := Option.some.inj hnext
              exact h.move (moves_skip h hphase hsame.2.1 hsame.2.2)
          · cases hnext
      · cases hnext
  | apply pass =>
      simp only [Network.next] at hnext
      split at hnext
      · next leased generation loadedAt desired wasDirty hphase =>
          have hown := h.passes pass
          rw [hphase] at hown
          obtain rfl := Option.some.inj hnext
          exact h.move (moves_complete h hown.1 hown.2.1 hown.2.2.1)
      · cases hnext
  | acknowledge pass =>
      simp only [Network.next] at hnext
      split at hnext
      · next leased generation loadedAt desired applied hphase =>
          simp only [Option.bind_eq_bind, Option.bind_eq_some_iff] at hnext
          obtain ⟨cursor, hcursor, cursor', hack, hstate⟩ := hnext
          obtain rfl := Option.some.inj hstate
          exact h.acknowledge hphase hcursor hack
      · obtain rfl := Option.some.inj hnext
        exact h.move (moves_finish h)
      · cases hnext
  | fail pass =>
      simp only [Network.next] at hnext
      split at hnext
      · cases hnext
      · next leased generation loadedAt desired wasDirty hphase =>
          obtain rfl := Option.some.inj hnext
          exact h.move (moves_fail h hphase)
      · obtain rfl := Option.some.inj hnext
        exact h.move (moves_finish h)
  | crash p =>
      obtain rfl := Option.some.inj hnext
      exact h.crash p

theorem advances_next {e : Event φ} (hnext : s.next process e = some t) : Advances s t := by
  cases e with
  | request => exact Option.some.inj hnext ▸ .requested rfl rfl
  | lease p held => exact Option.some.inj hnext ▸ .kept rfl rfl
  | markDirty p => exact Option.some.inj hnext ▸ .kept rfl rfl
  | crash p => exact Option.some.inj hnext ▸ .kept rfl rfl
  | load pass desired =>
      simp only [Network.next] at hnext
      split at hnext
      · exact Option.some.inj hnext ▸ .kept rfl rfl
      · cases hnext
  | apply pass =>
      simp only [Network.next] at hnext
      split at hnext
      · exact Option.some.inj hnext ▸ .kept rfl rfl
      · cases hnext
  | begin pass =>
      simp only [Network.next] at hnext
      split at hnext
      · split at hnext
        · exact Option.some.inj hnext ▸ .kept rfl rfl
        · cases hnext
      · cases hnext
  | lockProcess pass =>
      simp only [Network.next] at hnext
      split at hnext
      · split at hnext
        · exact Option.some.inj hnext ▸ .kept rfl rfl
        · cases hnext
      · cases hnext
  | lockKernel pass =>
      simp only [Network.next] at hnext
      split at hnext
      · split at hnext
        · exact Option.some.inj hnext ▸ .kept rfl rfl
        · cases hnext
      · cases hnext
  | snapshot pass force =>
      simp only [Network.next] at hnext
      split at hnext
      · split at hnext
        · exact Option.some.inj hnext ▸ .kept rfl rfl
        · exact Option.some.inj hnext ▸ .kept rfl rfl
      · cases hnext
  | skip pass firewallInstalled =>
      simp only [Network.next] at hnext
      split at hnext
      · split at hnext
        · exact Option.some.inj hnext ▸ .kept rfl rfl
        · cases hnext
      · cases hnext
  | acknowledge pass =>
      simp only [Network.next] at hnext
      split at hnext
      · next leased generation loadedAt desired applied hphase =>
          simp only [Option.bind_eq_bind, Option.bind_eq_some_iff] at hnext
          obtain ⟨cursor, hcursor, cursor', hack, hstate⟩ := hnext
          exact Option.some.inj hstate ▸
            .acknowledged cursor cursor' generation hcursor hack rfl rfl
      · exact Option.some.inj hnext ▸ .kept rfl rfl
      · cases hnext
  | fail pass =>
      simp only [Network.next] at hnext
      split at hnext
      · cases hnext
      · exact Option.some.inj hnext ▸ .kept rfl rfl
      · exact Option.some.inj hnext ▸ .kept rfl rfl

theorem Sound.step (h : Sound process s) {e : Event φ} (hstep : Step process s e t) :
    Sound process t := by
  obtain ⟨t', hnext, rfl⟩ := Option.map_eq_some_iff.mp hstep
  by_cases he : e = .request
  · subst he
    obtain rfl := Option.some.inj hnext
    exact h.request
  · have htick := (h.next he hnext).tick
    rw [(advances_next hnext).clock_eq] at htick
    exact htick

end Steps

section Run

/-- Both generations of the cursor have not decreased. -/
def CursorLe (s t : Network φ) : Prop :=
  ∀ cursor, s.cursor = some cursor → ∃ cursor', t.cursor = some cursor' ∧
    cursor.requestedGeneration ≤ cursor'.requestedGeneration ∧
      cursor.appliedGeneration ≤ cursor'.appliedGeneration

theorem CursorLe.refl (s : Network φ) : CursorLe s s :=
  fun cursor hcursor => ⟨cursor, hcursor, le_rfl, le_rfl⟩

theorem CursorLe.trans {s t r : Network φ} (h : CursorLe s t) (h' : CursorLe t r) :
    CursorLe s r := by
  intro cursor hcursor
  obtain ⟨middle, hmiddle, hrequested, happlied⟩ := h cursor hcursor
  obtain ⟨last, hlast, hrequested', happlied'⟩ := h' middle hmiddle
  exact ⟨last, hlast, hrequested.trans hrequested', happlied.trans happlied'⟩

variable [DecidableEq φ]

section Example

end Example

end Run

end Network

end Vpn

end Rsctf
