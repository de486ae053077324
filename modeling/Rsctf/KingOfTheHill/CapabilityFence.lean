import Rsctf.KingOfTheHill.CapabilityCache

/-!
# The fence of the capability cache

Every epoch belongs to one pointer and to one number of commits on it, those at the time it
was drawn.  A pointer only ever shows an epoch of its present commits, and nothing while a
writer is between its marker and its commit; so a model which a reader finds under two
epochs was loaded after the commits which these epochs belong to.
-/

namespace Rsctf

namespace KingOfTheHill

namespace Cluster

/-- The pointer which an epoch was drawn for, and the commits on it by then. -/
abbrev Origin := String → Option (Pointer × ℕ)

end Cluster

/-- The marker which a writer answers for. -/
def WriterPhase.mutation : WriterPhase → Option GameEpochMutation
  | marking _ mutation => some mutation
  | fenced _ mutation => some mutation
  | finishing mutation => some mutation
  | _ => none

namespace Cluster

/-- A commit on one pointer is never taken back. -/
theorem le_commit (committed : Pointer → ℕ) (pointer other : Pointer) :
    committed other ≤ Function.update committed pointer (committed pointer + 1) other := by
  by_cases heq : other = pointer
  · subst heq
    rw [Function.update_self]
    exact Nat.le_succ _
  · exact Nat.le_of_eq (Function.update_of_ne heq ..).symm

/-- What the pointers, the commits and the writers have to do with the epochs drawn. -/
structure Fence (origin : Origin) (pointers : Pointer → Option String) (committed : Pointer → ℕ)
    (drawn : List String) (exclusive : ℕ → Option ℕ) (writers : ℕ → WriterPhase) : Prop where
  current : ∀ pointer value epoch, pointers pointer = some value →
    decodeEpoch value = some epoch → origin epoch = some (pointer, committed pointer)
  known : ∀ epoch place, origin epoch = some place → epoch ∈ drawn
  order : ∀ epoch pointer count, origin epoch = some (pointer, count) → count ≤ committed pointer
  marker : ∀ w mutation, (writers w).mutation = some mutation →
    ∃ epoch ∈ drawn, mutation.marker = mutationMarker epoch
  distinct : ∀ w u mutation other, (writers w).mutation = some mutation →
    (writers u).mutation = some other → w ≠ u → mutation.marker ≠ other.marker
  scope : ∀ w gameId mutation,
    (writers w = .marking gameId mutation ∨ writers w = .fenced gameId mutation) →
      mutation.pointer.gameId = gameId
  fenced : ∀ w gameId mutation, writers w = .fenced gameId mutation →
    exclusive gameId = some w → ∀ value, pointers mutation.pointer = some value →
      decodeEpoch value = none ∧ ∀ u other, writers u = .finishing other →
        other.pointer = mutation.pointer → other.marker ≠ value

/-- The epoch was drawn for the pointer, after `count` commits on it. -/
def Obtained (origin : Origin) (pointer : Pointer) (count : ℕ) (epoch : String) : Prop :=
  ∃ later, origin epoch = some (pointer, later) ∧ count ≤ later

/-- What a reader is about, and what was committed when it started. -/
structure Scope where
  gameId : ℕ
  participationId : ℕ
  started : Seen

def scope (reader : Reader) : Scope :=
  ⟨reader.gameId, reader.participationId, reader.started⟩

/-- Both epochs were drawn after a reader started. -/
structure Fetched (origin : Origin) (reader : Scope) (epochs : CapabilityEpochs) : Prop where
  game : Obtained origin (.game reader.gameId) reader.started.game epochs.game
  participant : Obtained origin (.participant reader.gameId reader.participationId)
    reader.started.participant epochs.participant

/-- A model is no older than its two epochs. -/
structure Covers (origin : Origin) (gameId participationId : ℕ) (epochs : CapabilityEpochs)
    (model : Seen) : Prop where
  game : ∃ count, origin epochs.game = some (.game gameId, count) ∧ count ≤ model.game
  participant : ∃ count, origin epochs.participant =
    some (.participant gameId participationId, count) ∧ count ≤ model.participant

/-- A model is no older than the start of a reader. -/
def Recent (reader : Scope) (model : Seen) : Prop :=
  reader.started.game ≤ model.game ∧ reader.started.participant ≤ model.participant

/-- What a fetch of a reader knows. -/
def FetchSound (origin : Origin) (shared : ℕ → List ℕ) (r : ℕ) (reader : Scope) : Fetch → Prop
  | .readGame | .tryLock => True
  | .readParticipant game =>
    ∀ epoch, game = some epoch →
      Obtained origin (.game reader.gameId) reader.started.game epoch
  | .seedGame | .claimGame | .rereadGame => r ∈ shared reader.gameId
  | .seedParticipant game | .claimParticipant game | .rereadParticipant game =>
    r ∈ shared reader.gameId ∧ ∀ epoch, game = some epoch →
      Obtained origin (.game reader.gameId) reader.started.game epoch
  | .release game participant =>
    (∀ epoch, game = some epoch →
      Obtained origin (.game reader.gameId) reader.started.game epoch) ∧
    ∀ epoch, participant = some epoch →
      Obtained origin (.participant reader.gameId reader.participationId)
        reader.started.participant epoch

/-- What a reader knows. -/
def PhaseSound (origin : Origin) (shared : ℕ → List ℕ) (r : ℕ) (reader : Scope) :
    ReaderPhase → Prop
  | .idle => True
  | .first fetch => FetchSound origin shared r reader fetch
  | .lookup cached => ∀ epochs, cached = some epochs → Fetched origin reader epochs
  | .second _ model fetch =>
    (∀ found, model = some found → Recent reader found) ∧ FetchSound origin shared r reader fetch
  | .decide _ model live =>
    (∀ found, model = some found → Recent reader found) ∧
      ∀ epochs, live = some epochs → Fetched origin reader epochs
  | .load live => ∀ epochs, live = some epochs → Fetched origin reader epochs
  | .fill live model =>
    Recent reader model ∧ ∀ epochs, live = some epochs →
      Covers origin reader.gameId reader.participationId epochs model
  | .served model => Recent reader model

/-- What holds in every reachable state, for the origins of its epochs. -/
structure Invariant (origin : Origin) (s : Cluster) : Prop where
  fence : Fence origin s.pointers s.committed s.drawn s.exclusive s.writers
  locks : ∀ gameId, s.exclusive gameId ≠ none → s.shared gameId = []
  started : ∀ r, Recent (scope (s.readers r)) (s.seen (s.readers r).gameId (s.readers r).participationId)
  readers : ∀ r, PhaseSound origin s.shared r (scope (s.readers r)) (s.readers r).phase
  models : ∀ replica key model, s.models replica key = some model →
    Covers origin key.gameId key.participationId key.epochs model

/-- More epochs have been drawn. -/
def Extends (origin later : Origin) : Prop :=
  ∀ epoch place, origin epoch = some place → later epoch = some place

section Growth

variable {origin later : Origin} {shared shared' : ℕ → List ℕ} {r : ℕ} {reader : Scope}

theorem Obtained.extend {pointer : Pointer} {count : ℕ} {epoch : String}
    (h : Obtained origin pointer count epoch) (hextends : Extends origin later) :
    Obtained later pointer count epoch := by
  obtain ⟨drawnAt, horigin, hle⟩ := h
  exact ⟨drawnAt, hextends _ _ horigin, hle⟩

theorem Fetched.extend {epochs : CapabilityEpochs} (h : Fetched origin reader epochs)
    (hextends : Extends origin later) : Fetched later reader epochs :=
  ⟨h.game.extend hextends, h.participant.extend hextends⟩

theorem Covers.extend {gameId participationId : ℕ} {epochs : CapabilityEpochs} {model : Seen}
    (h : Covers origin gameId participationId epochs model) (hextends : Extends origin later) :
    Covers later gameId participationId epochs model := by
  obtain ⟨⟨game, hgame, hle⟩, participant, hparticipant, hle'⟩ := h
  exact ⟨⟨game, hextends _ _ hgame, hle⟩, participant, hextends _ _ hparticipant, hle'⟩

theorem FetchSound.extend {fetch : Fetch} (h : FetchSound origin shared r reader fetch)
    (hextends : Extends origin later) (hshared : ∀ gameId, r ∈ shared gameId → r ∈ shared' gameId) :
    FetchSound later shared' r reader fetch := by
  cases fetch with
  | readGame => trivial
  | tryLock => trivial
  | readParticipant game => exact fun epoch hepoch => (h epoch hepoch).extend hextends
  | seedGame => exact hshared _ h
  | claimGame => exact hshared _ h
  | rereadGame => exact hshared _ h
  | seedParticipant game =>
      exact ⟨hshared _ h.1, fun epoch hepoch => (h.2 epoch hepoch).extend hextends⟩
  | claimParticipant game =>
      exact ⟨hshared _ h.1, fun epoch hepoch => (h.2 epoch hepoch).extend hextends⟩
  | rereadParticipant game =>
      exact ⟨hshared _ h.1, fun epoch hepoch => (h.2 epoch hepoch).extend hextends⟩
  | release game participant =>
      exact ⟨fun epoch hepoch => (h.1 epoch hepoch).extend hextends,
        fun epoch hepoch => (h.2 epoch hepoch).extend hextends⟩

/-- What a reader knows stays true while epochs are drawn and it keeps its shared lock. -/
theorem PhaseSound.extend {phase : ReaderPhase} (h : PhaseSound origin shared r reader phase)
    (hextends : Extends origin later) (hshared : ∀ gameId, r ∈ shared gameId → r ∈ shared' gameId) :
    PhaseSound later shared' r reader phase := by
  cases phase with
  | idle => trivial
  | first fetch => exact FetchSound.extend h hextends hshared
  | lookup cached => exact fun epochs hepochs => (h epochs hepochs).extend hextends
  | second cached model fetch => exact ⟨h.1, h.2.extend hextends hshared⟩
  | decide cached model live =>
      exact ⟨h.1, fun epochs hepochs => (h.2 epochs hepochs).extend hextends⟩
  | load live => exact fun epochs hepochs => (h epochs hepochs).extend hextends
  | fill live model => exact ⟨h.1, fun epochs hepochs => (h.2 epochs hepochs).extend hextends⟩
  | served model => exact h

end Growth

namespace Fence

variable {origin : Origin} {pointers : Pointer → Option String} {committed : Pointer → ℕ}
  {drawn : List String} {exclusive exclusive' : ℕ → Option ℕ} {writers : ℕ → WriterPhase}

/-- Losing a lock does no harm. -/
theorem unlock (h : Fence origin pointers committed drawn exclusive writers)
    (hless : ∀ gameId w, exclusive' gameId = some w → exclusive gameId = some w) :
    Fence origin pointers committed drawn exclusive' writers where
  current := h.current
  known := h.known
  order := h.order
  marker := h.marker
  distinct := h.distinct
  scope := h.scope
  fenced := fun w gameId mutation hw hlock => h.fenced w gameId mutation hw (hless _ _ hlock)

/-- Drawing an epoch without using it does no harm. -/
theorem draw (h : Fence origin pointers committed drawn exclusive writers) (candidate : String) :
    Fence origin pointers committed (candidate :: drawn) exclusive writers where
  current := h.current
  known := fun epoch place horigin => List.mem_cons_of_mem _ (h.known epoch place horigin)
  order := h.order
  marker := by
    intro w mutation hw
    obtain ⟨epoch, hmem, hmarker⟩ := h.marker w mutation hw
    exact ⟨epoch, List.mem_cons_of_mem _ hmem, hmarker⟩
  distinct := h.distinct
  scope := h.scope
  fenced := h.fenced

theorem evict (h : Fence origin pointers committed drawn exclusive writers) (pointer : Pointer) :
    Fence origin (Function.update pointers pointer none) committed drawn exclusive writers := by
  have hold : ∀ other value, Function.update pointers pointer none other = some value →
      pointers other = some value := by
    intro other value hvalue
    by_cases heq : other = pointer
    · subst heq
      simp at hvalue
    · rwa [Function.update_of_ne heq] at hvalue
  constructor
  case current => exact fun other value epoch hvalue => h.current other value epoch (hold _ _ hvalue)
  case known => exact h.known
  case order => exact h.order
  case marker => exact h.marker
  case distinct => exact h.distinct
  case scope => exact h.scope
  case fenced =>
    exact fun w gameId mutation hw hlock value hvalue =>
      h.fenced w gameId mutation hw hlock value (hold _ _ hvalue)

/-- A marker which has not been answered for is told apart from those of the writers. -/
theorem marker_ne (h : Fence origin pointers committed drawn exclusive writers) {candidate : String}
    (hfresh : candidate ∉ drawn) {w : ℕ} {mutation : GameEpochMutation}
    (hw : (writers w).mutation = some mutation) : mutation.marker ≠ mutationMarker candidate := by
  obtain ⟨epoch, hmem, hmarker⟩ := h.marker w mutation hw
  rw [hmarker]
  intro heq
  exact hfresh (mutationMarker_injective heq ▸ hmem)

/-- The value of a pointer becomes an epoch which was never drawn before. -/
theorem publish (h : Fence origin pointers committed drawn exclusive writers) {pointer : Pointer}
    {candidate : String} (hfresh : candidate ∉ drawn) (hform : decodeEpoch candidate = some candidate)
    (hunfenced : ∀ w gameId mutation, writers w = .fenced gameId mutation →
      exclusive gameId = some w → mutation.pointer ≠ pointer) :
    Fence (Function.update origin candidate (some (pointer, committed pointer)))
      (Function.update pointers pointer (some candidate)) committed (candidate :: drawn)
      exclusive writers where
  current := by
    intro other value epoch hvalue hdecode
    obtain rfl := decodeEpoch_eq_some hdecode
    by_cases heq : other = pointer
    · subst heq
      rw [Function.update_self] at hvalue
      obtain rfl := Option.some.inj hvalue
      exact Function.update_self ..
    · rw [Function.update_of_ne heq] at hvalue
      have horigin := h.current other _ _ hvalue hdecode
      have hne : epoch ≠ candidate := by
        rintro rfl
        exact hfresh (h.known _ _ horigin)
      rwa [Function.update_of_ne hne]
  known := by
    intro epoch place horigin
    by_cases heq : epoch = candidate
    · exact heq ▸ List.mem_cons_self
    · rw [Function.update_of_ne heq] at horigin
      exact List.mem_cons_of_mem _ (h.known epoch place horigin)
  order := by
    intro epoch other count horigin
    by_cases heq : epoch = candidate
    · subst heq
      rw [Function.update_self] at horigin
      obtain ⟨rfl, rfl⟩ := Prod.mk.inj (Option.some.inj horigin)
      exact Nat.le_refl _
    · rw [Function.update_of_ne heq] at horigin
      exact h.order epoch other count horigin
  marker := (h.draw candidate).marker
  distinct := h.distinct
  scope := h.scope
  fenced := by
    intro w gameId mutation hw hlock value hvalue
    rw [Function.update_of_ne (hunfenced w gameId mutation hw hlock)] at hvalue
    exact h.fenced w gameId mutation hw hlock value hvalue

/-- A writer which answers for no marker any more. -/
theorem quit (h : Fence origin pointers committed drawn exclusive writers) (w : ℕ)
    (phase : WriterPhase) (hphase : phase.mutation = none) :
    Fence origin pointers committed drawn exclusive (Function.update writers w phase) := by
  have hother : ∀ u mutation, (Function.update writers w phase u).mutation = some mutation →
      Function.update writers w phase u = writers u := by
    intro u mutation hu
    by_cases heq : u = w
    · subst heq
      rw [Function.update_self, hphase] at hu
      contradiction
    · exact Function.update_of_ne heq ..
  constructor
  case current => exact h.current
  case known => exact h.known
  case order => exact h.order
  case marker =>
    intro u mutation hu
    rw [hother u mutation hu] at hu
    exact h.marker u mutation hu
  case distinct =>
    intro u v mutation other hu hv
    rw [hother u mutation hu] at hu
    rw [hother v other hv] at hv
    exact h.distinct u v mutation other hu hv
  case scope =>
    intro u gameId mutation hu
    have hsame : Function.update writers w phase u = writers u := by
      apply hother u mutation
      obtain hu | hu := hu <;> rw [hu] <;> rfl
    rw [hsame] at hu
    exact h.scope u gameId mutation hu
  case fenced =>
    intro u gameId mutation hu hlock value hvalue
    rw [hother u mutation (by rw [hu]; rfl)] at hu
    obtain ⟨hdecode, hfinish⟩ := h.fenced u gameId mutation hu hlock value hvalue
    refine ⟨hdecode, fun v other hv => ?_⟩
    rw [hother v other (by rw [hv]; rfl)] at hv
    exact hfinish v other hv

/-- A writer takes the lock of a game. -/
theorem lock (h : Fence origin pointers committed drawn exclusive writers) (w gameId : ℕ) :
    Fence origin pointers committed drawn (Function.update exclusive gameId (some w))
      (Function.update writers w (.locked gameId)) := by
  have hquit := h.quit w (.locked gameId) rfl
  refine { hquit with fenced := ?_ }
  intro u other mutation hu hlock
  apply hquit.fenced u other mutation hu
  by_cases heq : other = gameId
  · subst heq
    rw [Function.update_self] at hlock
    obtain rfl := Option.some.inj hlock
    rw [Function.update_self] at hu
    contradiction
  · rwa [Function.update_of_ne heq] at hlock

/-- A writer installs its marker, or fails to. -/
theorem mark (h : Fence origin pointers committed drawn exclusive writers) (w : ℕ)
    (pointer : Pointer) {epoch : String} (hfresh : epoch ∉ drawn) (written : Bool) :
    Fence origin
      (if written then Function.update pointers pointer (some (mutationMarker epoch)) else pointers)
      committed (epoch :: drawn) exclusive
      (Function.update writers w (.marking pointer.gameId ⟨pointer, mutationMarker epoch⟩)) := by
  have hvalue : ∀ other value,
      (if written then Function.update pointers pointer (some (mutationMarker epoch))
        else pointers) other = some value →
      value = mutationMarker epoch ∨ pointers other = some value := by
    intro other value hvalue
    by_cases hwritten : written = true
    · rw [if_pos hwritten] at hvalue
      by_cases heq : other = pointer
      · subst heq
        rw [Function.update_self] at hvalue
        exact .inl (Option.some.inj hvalue).symm
      · rw [Function.update_of_ne heq] at hvalue
        exact .inr hvalue
    · rw [if_neg hwritten] at hvalue
      exact .inr hvalue
  have hown : (Function.update writers w
      (.marking pointer.gameId ⟨pointer, mutationMarker epoch⟩) w).mutation =
        some ⟨pointer, mutationMarker epoch⟩ := by
    rw [Function.update_self]
    rfl
  constructor
  case current =>
    intro other value found hfound hdecode
    obtain rfl | hold := hvalue other value hfound
    · simp at hdecode
    · exact h.current other value found hold hdecode
  case known => exact (h.draw epoch).known
  case order => exact h.order
  case marker =>
    intro u mutation hu
    by_cases heq : u = w
    · subst heq
      rw [hown] at hu
      obtain rfl := Option.some.inj hu
      exact ⟨epoch, List.mem_cons_self, rfl⟩
    · rw [Function.update_of_ne heq] at hu
      exact (h.draw epoch).marker u mutation hu
  case distinct =>
    intro u v mutation other hu hv hne
    by_cases huw : u = w
    · subst huw
      rw [hown] at hu
      obtain rfl := Option.some.inj hu
      rw [Function.update_of_ne hne.symm] at hv
      exact (h.marker_ne hfresh hv).symm
    · rw [Function.update_of_ne huw] at hu
      by_cases hvw : v = w
      · subst hvw
        rw [hown] at hv
        obtain rfl := Option.some.inj hv
        exact h.marker_ne hfresh hu
      · rw [Function.update_of_ne hvw] at hv
        exact h.distinct u v mutation other hu hv hne
  case scope =>
    intro u gameId mutation hu
    by_cases heq : u = w
    · subst heq
      rw [Function.update_self] at hu
      obtain hu | hu := hu
      · obtain ⟨rfl, rfl⟩ := WriterPhase.marking.inj hu
        rfl
      · contradiction
    · rw [Function.update_of_ne heq] at hu
      exact h.scope u gameId mutation hu
  case fenced =>
    intro u gameId mutation hu hlock value hfound
    by_cases heq : u = w
    · subst heq
      rw [Function.update_self] at hu
      contradiction
    · rw [Function.update_of_ne heq] at hu
      have hfinishing : ∀ v other, Function.update writers w
          (.marking pointer.gameId ⟨pointer, mutationMarker epoch⟩) v = .finishing other →
          writers v = .finishing other := by
        intro v other hv
        by_cases hvw : v = w
        · subst hvw
          rw [Function.update_self] at hv
          contradiction
        · rwa [Function.update_of_ne hvw] at hv
      obtain rfl | hold := hvalue mutation.pointer value hfound
      · refine ⟨decodeEpoch_mutationMarker epoch, fun v other hv _ => ?_⟩
        have hv := hfinishing v other hv
        exact h.marker_ne hfresh (w := v) (by rw [hv]; rfl)
      · obtain ⟨hdecode, hfinish⟩ := h.fenced u gameId mutation hu hlock value hold
        exact ⟨hdecode, fun v other hv => hfinish v other (hfinishing v other hv)⟩

/-- A writer goes on with the marker which it answers for already. -/
theorem proceed (h : Fence origin pointers committed drawn exclusive writers) (w : ℕ)
    (mutation : GameEpochMutation) (phase : WriterPhase)
    (hw : (writers w).mutation = some mutation) (hphase : phase.mutation = some mutation)
    (hscope : ∀ gameId, phase = .marking gameId mutation ∨ phase = .fenced gameId mutation →
      mutation.pointer.gameId = gameId)
    (hfenced : ∀ gameId, phase = .fenced gameId mutation → exclusive gameId = some w →
      ∀ value, pointers mutation.pointer = some value → value = mutation.marker)
    (hfinishing : phase = .finishing mutation → ∀ u gameId other, writers u = .fenced gameId other →
      exclusive gameId = some u → other.pointer ≠ mutation.pointer) :
    Fence origin pointers committed drawn exclusive (Function.update writers w phase) := by
  have hmutation : ∀ u other, (Function.update writers w phase u).mutation = some other →
      (writers u).mutation = some other := by
    intro u other hu
    by_cases heq : u = w
    · subst heq
      rw [Function.update_self, hphase] at hu
      exact hw.trans hu
    · rwa [Function.update_of_ne heq] at hu
  have howned : ∀ (gameId : ℕ) (other : GameEpochMutation), phase = .marking gameId other ∨
      phase = .fenced gameId other ∨ phase = .finishing other → other = mutation := by
    intro gameId other hother
    obtain rfl | rfl | rfl := hother <;> exact Option.some.inj hphase
  constructor
  case current => exact h.current
  case known => exact h.known
  case order => exact h.order
  case marker => exact fun u other hu => h.marker u other (hmutation u other hu)
  case distinct =>
    exact fun u v other another hu hv =>
      h.distinct u v other another (hmutation u other hu) (hmutation v another hv)
  case scope =>
    intro u gameId other hu
    by_cases heq : u = w
    · subst heq
      rw [Function.update_self] at hu
      obtain rfl : other = mutation := howned gameId other (hu.imp_right .inl)
      exact hscope gameId hu
    · rw [Function.update_of_ne heq] at hu
      exact h.scope u gameId other hu
  case fenced =>
    intro u gameId other hu hlock value hvalue
    by_cases heq : u = w
    · subst heq
      rw [Function.update_self] at hu
      obtain rfl : other = mutation := howned gameId other (.inr (.inl hu))
      obtain rfl := hfenced gameId hu hlock value hvalue
      obtain ⟨epoch, -, hmarker⟩ := h.marker u other hw
      refine ⟨by rw [hmarker]; exact decodeEpoch_mutationMarker epoch, ?_⟩
      intro v another hv _
      by_cases hvu : v = u
      · subst hvu
        rw [Function.update_self, hu] at hv
        contradiction
      · rw [Function.update_of_ne hvu] at hv
        exact h.distinct v u another other (by rw [hv]; rfl) hw hvu
    · rw [Function.update_of_ne heq] at hu
      obtain ⟨hdecode, hfinish⟩ := h.fenced u gameId other hu hlock value hvalue
      refine ⟨hdecode, fun v another hv hpointer => ?_⟩
      by_cases hvw : v = w
      · subst hvw
        rw [Function.update_self] at hv
        obtain rfl : another = mutation := howned 0 another (.inr (.inr hv))
        exact absurd hpointer.symm (hfinishing hv u gameId other hu hlock)
      · rw [Function.update_of_ne hvw] at hv
        exact hfinish v another hv hpointer

/-- The commit of a writer that holds its lock. -/
theorem commit (h : Fence origin pointers committed drawn exclusive writers) {w gameId : ℕ}
    {mutation : GameEpochMutation} (hw : writers w = .fenced gameId mutation)
    (hlock : exclusive gameId = some w) :
    Fence origin pointers
      (Function.update committed mutation.pointer (committed mutation.pointer + 1)) drawn
      (Function.update exclusive gameId none)
      (Function.update writers w (.finishing mutation)) := by
  have hless : ∀ other u, Function.update exclusive gameId none other = some u →
      other ≠ gameId ∧ exclusive other = some u := by
    intro other u hu
    by_cases heq : other = gameId
    · subst heq
      simp at hu
    · exact ⟨heq, by rwa [Function.update_of_ne heq] at hu⟩
  have hunlocked : Fence origin pointers committed drawn (Function.update exclusive gameId none)
      writers := h.unlock fun other u hu => (hless other u hu).2
  have hfinishing := hunlocked.proceed w mutation (.finishing mutation) (by rw [hw]; rfl) rfl
    (by simp) (by simp) (by
      intro _ u other another hu hheld heq
      have hgame := h.scope u other another (.inr hu)
      rw [heq, h.scope w gameId mutation (.inr hw)] at hgame
      exact (hless other u hheld).1 hgame.symm)
  refine { hfinishing with current := ?_, order := ?_ }
  · intro pointer value epoch hvalue hdecode
    have hne : pointer ≠ mutation.pointer := by
      rintro rfl
      have hnone := (h.fenced w gameId mutation hw hlock value hvalue).1
      rw [hdecode] at hnone
      contradiction
    rw [Function.update_of_ne hne]
    exact h.current pointer value epoch hvalue hdecode
  · intro epoch pointer count horigin
    exact Nat.le_trans (h.order epoch pointer count horigin) (le_commit committed mutation.pointer pointer)

end Fence

section Reader

variable {origin later : Origin} {s : Cluster} {r : ℕ}

/-- A pointer shows an epoch of its present commits. -/
theorem Invariant.readEpoch (hi : Invariant origin s) {pointer : Pointer} {epoch : String}
    (h : s.readEpoch pointer = .ok (some epoch)) {count : ℕ} (hcount : count ≤ s.committed pointer) :
    Obtained origin pointer count epoch := by
  unfold Cluster.readEpoch at h
  split at h
  · next value hvalue =>
      split at h
      · next found hdecode =>
          obtain rfl : found = epoch := by simpa using h
          exact ⟨_, hi.fence.current pointer value found hvalue hdecode, hcount⟩
      · contradiction
  · simp at h

theorem Invariant.readEpoch_option (hi : Invariant origin s) {pointer : Pointer}
    {found : Option String} (h : s.readEpoch pointer = .ok found) {count : ℕ}
    (hcount : count ≤ s.committed pointer) (epoch : String) (hepoch : found = some epoch) :
    Obtained origin pointer count epoch := by
  subst hepoch
  exact hi.readEpoch h hcount

/-- A reader takes one operation: it may change pointers, draw an epoch, and take or give
back its shared lock. -/
theorem Invariant.read (hi : Invariant origin s) (hextends : Extends origin later)
    {pointers : Pointer → Option String} {drawn : List String} {shared : ℕ → List ℕ}
    {phase : ReaderPhase}
    (hfence : Fence later pointers s.committed drawn s.exclusive s.writers)
    (hlocks : ∀ gameId, s.exclusive gameId ≠ none → shared gameId = [])
    (hshared : ∀ u, u ≠ r → ∀ gameId, u ∈ s.shared gameId → u ∈ shared gameId)
    (hphase : PhaseSound later shared r (scope (s.readers r)) phase) :
    Invariant later
      { s with
        pointers
        drawn
        shared
        readers := Function.update s.readers r { s.readers r with phase } } where
  fence := hfence
  locks := hlocks
  started := by
    intro u
    by_cases hu : u = r
    · subst hu
      simp only [Function.update_self]
      exact hi.started u
    · simp only [Function.update_of_ne hu]
      exact hi.started u
  readers := by
    intro u
    by_cases hu : u = r
    · subst hu
      simp only [Function.update_self]
      exact hphase
    · simp only [Function.update_of_ne hu]
      exact (hi.readers u).extend hextends (hshared u hu)
  models := fun replica key model hmodel => (hi.models replica key model hmodel).extend hextends

/-- A reader which only moves on. -/
theorem Invariant.move (hi : Invariant origin s) {phase : ReaderPhase}
    (hphase : PhaseSound origin s.shared r (scope (s.readers r)) phase) :
    Invariant origin (s.setReader r phase) :=
  hi.read (fun _ _ horigin => horigin) hi.fence hi.locks (fun _ _ _ hu => hu) hphase

def FetchOutcome.cluster : FetchOutcome → Cluster
  | continues next _ => next
  | returns next _ => next

/-- What the outcome of a fetch tells its reader. -/
def OutcomeSound (origin : Origin) (shared : ℕ → List ℕ) (r : ℕ) (reader : Scope) :
    FetchOutcome → Prop
  | .continues _ fetch => FetchSound origin shared r reader fetch
  | .returns _ epochs => ∀ found, epochs = some found → Fetched origin reader found

/-- An operation of a fetch leaves everything sound. -/
def FetchKeeps (origin : Origin) (s : Cluster) (r : ℕ) (outcome : FetchOutcome) : Prop :=
  ∃ later pointers drawn shared, Extends origin later ∧
    outcome.cluster = { s with pointers, drawn, shared } ∧
    Fence later pointers s.committed drawn s.exclusive s.writers ∧
    (∀ gameId, s.exclusive gameId ≠ none → shared gameId = []) ∧
    (∀ u, u ≠ r → ∀ gameId, u ∈ s.shared gameId → u ∈ shared gameId) ∧
    OutcomeSound later shared r (scope (s.readers r)) outcome

theorem Invariant.fetch_stays (hi : Invariant origin s) {outcome : FetchOutcome}
    (hcluster : outcome.cluster = s)
    (hsound : OutcomeSound origin s.shared r (scope (s.readers r)) outcome) :
    FetchKeeps origin s r outcome :=
  ⟨origin, s.pointers, s.drawn, s.shared, fun _ _ horigin => horigin, hcluster, hi.fence, hi.locks,
    fun _ _ _ hu => hu, hsound⟩

/-- The shared lock is only granted while no writer holds the game. -/
theorem Invariant.fetch_locks (hi : Invariant origin s) {gameId : ℕ} {fetch : Fetch}
    (hfree : s.exclusive gameId = none)
    (hsound : FetchSound origin (Function.update s.shared gameId (r :: s.shared gameId)) r
      (scope (s.readers r)) fetch) :
    FetchKeeps origin s r (.continues
      { s with shared := Function.update s.shared gameId (r :: s.shared gameId) } fetch) := by
  refine ⟨origin, s.pointers, s.drawn, _, fun _ _ horigin => horigin, rfl, hi.fence, ?_, ?_, hsound⟩
  · intro other hother
    have hne : other ≠ gameId := by
      rintro rfl
      exact hother hfree
    rw [Function.update_of_ne hne]
    exact hi.locks other hother
  · intro u _ other hu
    by_cases heq : other = gameId
    · subst heq
      rw [Function.update_self]
      exact List.mem_cons_of_mem r hu
    · rwa [Function.update_of_ne heq]

theorem shared_unlock (hi : Invariant origin s) (r gameId : ℕ) :
    (∀ other, s.exclusive other ≠ none → (s.unlockShared r gameId).shared other = []) ∧
      ∀ u, u ≠ r → ∀ other, u ∈ s.shared other → u ∈ (s.unlockShared r gameId).shared other := by
  constructor
  · intro other hother
    change Function.update s.shared gameId ((s.shared gameId).erase r) other = []
    by_cases heq : other = gameId
    · subst heq
      rw [Function.update_self, hi.locks other hother]
      rfl
    · rw [Function.update_of_ne heq]
      exact hi.locks other hother
  · intro u hu other hmem
    change u ∈ Function.update s.shared gameId ((s.shared gameId).erase r) other
    by_cases heq : other = gameId
    · subst heq
      rw [Function.update_self]
      exact (List.mem_erase_of_ne hu).mpr hmem
    · rwa [Function.update_of_ne heq]

theorem Invariant.fetch_unlocks (hi : Invariant origin s) {gameId : ℕ}
    {epochs : Option CapabilityEpochs}
    (hsound : ∀ found, epochs = some found → Fetched origin (scope (s.readers r)) found) :
    FetchKeeps origin s r (.returns (s.unlockShared r gameId) epochs) :=
  ⟨origin, s.pointers, s.drawn, _, fun _ _ horigin => horigin, rfl, hi.fence,
    (shared_unlock hi r gameId).1, (shared_unlock hi r gameId).2, hsound⟩

theorem fresh_spec {candidate : String} (h : s.fresh candidate = true) :
    decodeEpoch candidate = some candidate ∧ candidate ∉ s.drawn := by
  simpa [fresh] using h

/-- Seeding a pointer under the shared lock. -/
theorem Invariant.fetch_claims (hi : Invariant origin s) {pointer : Pointer} {candidate : String}
    (hfresh : s.fresh candidate = true) (hheld : r ∈ s.shared pointer.gameId)
    {won lost : Fetch}
    (hwon : ∀ later, Extends origin later → Obtained later pointer (s.committed pointer) candidate →
      FetchSound later s.shared r (scope (s.readers r)) won)
    (hlost : FetchSound origin s.shared r (scope (s.readers r)) lost) {outcome : FetchOutcome}
    (h : (match s.setIfAbsent pointer candidate with
      | (next, true) => some (FetchOutcome.continues next won)
      | (next, false) => some (FetchOutcome.continues next lost)) = some outcome) :
    FetchKeeps origin s r outcome := by
  obtain ⟨hform, hnew⟩ := fresh_spec hfresh
  cases hpointer : s.pointers pointer with
  | none =>
      simp only [setIfAbsent, hpointer] at h
      obtain rfl := Option.some.inj h
      have hextends : Extends origin
          (Function.update origin candidate (some (pointer, s.committed pointer))) := by
        intro epoch place horigin
        have hne : epoch ≠ candidate := by
          rintro rfl
          exact hnew (hi.fence.known _ _ horigin)
        rwa [Function.update_of_ne hne]
      refine ⟨_, _, _, s.shared, hextends, rfl, ?_, hi.locks, fun _ _ _ hu => hu, ?_⟩
      · apply hi.fence.publish hnew hform
        intro w gameId mutation hw hlock heq
        have hgame := hi.fence.scope w gameId mutation (.inr hw)
        have hempty := hi.locks gameId (by rw [hlock]; simp)
        rw [← hgame, heq] at hempty
        rw [hempty] at hheld
        contradiction
      · exact hwon _ hextends ⟨_, Function.update_self .., Nat.le_refl _⟩
  | some value =>
      simp only [setIfAbsent, hpointer] at h
      obtain rfl := Option.some.inj h
      exact ⟨origin, s.pointers, candidate :: s.drawn, s.shared, fun _ _ horigin => horigin, rfl,
        hi.fence.draw candidate, hi.locks, fun _ _ _ hu => hu, hlost⟩

/-- Every operation of a fetch, one case for each point of `current_capability_epochs`. -/
theorem Invariant.fetchStep (hi : Invariant origin s) {candidate : String} {available : Bool}
    {fetch : Fetch} {outcome : FetchOutcome}
    (hsound : FetchSound origin s.shared r (scope (s.readers r)) fetch)
    (h : s.fetchStep r (s.readers r).gameId (s.readers r).participationId candidate available
      fetch = some outcome) : FetchKeeps origin s r outcome := by
  have hstarted := hi.started r
  cases fetch with
  | readGame =>
      simp only [Cluster.fetchStep] at h
      cases hread : s.readEpoch (.game (s.readers r).gameId) with
      | ok game =>
          simp only [hread] at h
          obtain rfl := Option.some.inj h
          exact hi.fetch_stays rfl (hi.readEpoch_option hread hstarted.1)
      | error =>
          simp only [hread] at h
          obtain rfl := Option.some.inj h
          exact hi.fetch_stays rfl (by simp [OutcomeSound])
  | readParticipant game =>
      simp only [Cluster.fetchStep] at h
      cases hread : s.readEpoch (.participant (s.readers r).gameId
          (s.readers r).participationId) with
      | ok participant =>
          have hparticipant := hi.readEpoch_option hread hstarted.2
          simp only [hread] at h
          split at h
          · next gameEpoch participantEpoch =>
              obtain rfl := Option.some.inj h
              apply hi.fetch_stays rfl
              rintro found ⟨⟩
              exact ⟨hsound gameEpoch rfl, hparticipant participantEpoch rfl⟩
          · obtain rfl := Option.some.inj h
            exact hi.fetch_stays rfl trivial
      | error =>
          simp only [hread] at h
          obtain rfl := Option.some.inj h
          exact hi.fetch_stays rfl (by simp [OutcomeSound])
  | tryLock =>
      simp only [Cluster.fetchStep] at h
      split at h
      · obtain rfl := Option.some.inj h
        exact hi.fetch_stays rfl (by simp [OutcomeSound])
      · next hfree =>
          obtain rfl := Option.some.inj h
          have hnone : s.exclusive (s.readers r).gameId = none := by
            cases hlock : s.exclusive (s.readers r).gameId with
            | none => rfl
            | some w => simp [hlock] at hfree
          apply hi.fetch_locks hnone
          change r ∈ Function.update s.shared _ _ _
          simp [scope]
  | seedGame =>
      simp only [Cluster.fetchStep] at h
      cases hread : s.readEpoch (.game (s.readers r).gameId) with
      | ok game =>
          simp only [hread] at h
          cases game with
          | some epoch =>
              obtain rfl := Option.some.inj h
              exact hi.fetch_stays rfl ⟨hsound, hi.readEpoch_option hread hstarted.1⟩
          | none =>
              obtain rfl := Option.some.inj h
              exact hi.fetch_stays rfl hsound
      | error =>
          simp only [hread] at h
          obtain rfl := Option.some.inj h
          exact hi.fetch_stays rfl ⟨hsound, by simp⟩
  | claimGame =>
      simp only [Cluster.fetchStep] at h
      split at h
      · next hfresh =>
          refine hi.fetch_claims hfresh hsound ?_ ?_ h
          case refine_2 => exact hsound
          intro later _ hobtained
          refine ⟨hsound, ?_⟩
          rintro epoch ⟨⟩
          obtain ⟨count, horigin, hcount⟩ := hobtained
          exact ⟨count, horigin, Nat.le_trans hstarted.1 hcount⟩
      · contradiction
  | rereadGame =>
      simp only [Cluster.fetchStep] at h
      cases hread : s.readEpoch (.game (s.readers r).gameId) with
      | ok game =>
          simp only [hread] at h
          obtain rfl := Option.some.inj h
          exact hi.fetch_stays rfl ⟨hsound, hi.readEpoch_option hread hstarted.1⟩
      | error =>
          simp only [hread] at h
          obtain rfl := Option.some.inj h
          exact hi.fetch_stays rfl ⟨hsound, by simp⟩
  | seedParticipant game =>
      simp only [Cluster.fetchStep] at h
      cases hread : s.readEpoch (.participant (s.readers r).gameId
          (s.readers r).participationId) with
      | ok participant =>
          simp only [hread] at h
          cases participant with
          | some epoch =>
              obtain rfl := Option.some.inj h
              exact hi.fetch_stays rfl ⟨hsound.2, hi.readEpoch_option hread hstarted.2⟩
          | none =>
              obtain rfl := Option.some.inj h
              exact hi.fetch_stays rfl hsound
      | error =>
          simp only [hread] at h
          obtain rfl := Option.some.inj h
          exact hi.fetch_stays rfl ⟨hsound.2, by simp⟩
  | claimParticipant game =>
      simp only [Cluster.fetchStep] at h
      split at h
      · next hfresh =>
          refine hi.fetch_claims hfresh hsound.1 ?_ ?_ h
          case refine_2 => exact hsound
          intro later hextends hobtained
          refine ⟨fun epoch hepoch => (hsound.2 epoch hepoch).extend hextends, ?_⟩
          rintro epoch ⟨⟩
          obtain ⟨count, horigin, hcount⟩ := hobtained
          exact ⟨count, horigin, Nat.le_trans hstarted.2 hcount⟩
      · contradiction
  | rereadParticipant game =>
      simp only [Cluster.fetchStep] at h
      cases hread : s.readEpoch (.participant (s.readers r).gameId
          (s.readers r).participationId) with
      | ok participant =>
          simp only [hread] at h
          obtain rfl := Option.some.inj h
          exact hi.fetch_stays rfl ⟨hsound.2, hi.readEpoch_option hread hstarted.2⟩
      | error =>
          simp only [hread] at h
          obtain rfl := Option.some.inj h
          exact hi.fetch_stays rfl ⟨hsound.2, by simp⟩
  | release game participant =>
      simp only [Cluster.fetchStep] at h
      split at h
      · split at h
        · next gameEpoch participantEpoch =>
            obtain rfl := Option.some.inj h
            apply hi.fetch_unlocks
            rintro found ⟨⟩
            exact ⟨hsound.1 gameEpoch rfl, hsound.2 participantEpoch rfl⟩
        · obtain rfl := Option.some.inj h
          exact hi.fetch_unlocks (by simp)
      · obtain rfl := Option.some.inj h
        exact hi.fetch_unlocks (by simp)

/-- A model found under fetched epochs is as recent as they are. -/
theorem recent_of_covers {reader : Scope} {epochs : CapabilityEpochs} {model : Seen}
    (hfetched : Fetched origin reader epochs)
    (hcovers : Covers origin reader.gameId reader.participationId epochs model) :
    Recent reader model := by
  obtain ⟨⟨game, hgame, hstarted⟩, participant, hparticipant, hstarted'⟩ := hfetched
  obtain ⟨⟨count, horigin, hcount⟩, count', horigin', hcount'⟩ := hcovers
  rw [hgame] at horigin
  rw [hparticipant] at horigin'
  obtain ⟨-, rfl⟩ := Prod.mk.inj (Option.some.inj horigin)
  obtain ⟨-, rfl⟩ := Prod.mk.inj (Option.some.inj horigin')
  exact ⟨Nat.le_trans hstarted hcount, Nat.le_trans hstarted' hcount'⟩

/-- What is loaded after the epochs were fetched is no older than they are. -/
theorem Invariant.covers_seen (hi : Invariant origin s) {reader : Scope}
    {epochs : CapabilityEpochs} (hfetched : Fetched origin reader epochs) :
    Covers origin reader.gameId reader.participationId epochs
      (s.seen reader.gameId reader.participationId) := by
  obtain ⟨⟨game, hgame, -⟩, participant, hparticipant, -⟩ := hfetched
  exact ⟨⟨game, hgame, hi.fence.order _ _ _ hgame⟩, participant, hparticipant,
    hi.fence.order _ _ _ hparticipant⟩

/-- A reader fills the cache of its replica. -/
theorem Invariant.fill (hi : Invariant origin s) {replica : ℕ} {key : ModelKey} {model : Seen}
    (hcovers : Covers origin key.gameId key.participationId key.epochs model) :
    Invariant origin { s with
      models := Function.update s.models replica
        (Function.update (s.models replica) key (some model)) } := by
  refine { hi with models := ?_ }
  intro other otherKey found hfound
  dsimp only at hfound
  by_cases hreplica : other = replica
  · subst hreplica
    rw [Function.update_self] at hfound
    by_cases hkey : otherKey = key
    · subst hkey
      rw [Function.update_self] at hfound
      obtain rfl := Option.some.inj hfound
      exact hcovers
    · rw [Function.update_of_ne hkey] at hfound
      exact hi.models other otherKey found hfound
  · rw [Function.update_of_ne hreplica] at hfound
    exact hi.models other otherKey found hfound

/-- Every operation of a reader, one case for each of its phases. -/
theorem Invariant.readerStep (hi : Invariant origin s) {candidate : String} {available : Bool}
    {round : ℕ} {next : Cluster}
    (h : s.readerStep r candidate available round = some next) :
    ∃ later, Invariant later next := by
  have hsound := hi.readers r
  unfold Cluster.readerStep at h
  cases hphase : (s.readers r).phase with
  | idle => simp [hphase] at h
  | served model => simp [hphase] at h
  | first fetch =>
      rw [hphase] at hsound
      simp only [hphase] at h
      split at h
      · next after fetch' hfetch =>
          obtain rfl := Option.some.inj h
          obtain ⟨later, pointers, drawn, shared, hextends, rfl, hfence, hlocks, hshared, hknows⟩ :=
            hi.fetchStep hsound hfetch
          exact ⟨later, hi.read hextends hfence hlocks hshared hknows⟩
      · next after epochs hfetch =>
          obtain rfl := Option.some.inj h
          obtain ⟨later, pointers, drawn, shared, hextends, rfl, hfence, hlocks, hshared, hknows⟩ :=
            hi.fetchStep hsound hfetch
          exact ⟨later, hi.read hextends hfence hlocks hshared hknows⟩
      · contradiction
  | lookup cached =>
      rw [hphase] at hsound
      simp only [hphase] at h
      obtain rfl := Option.some.inj h
      refine ⟨origin, hi.move ⟨?_, trivial⟩⟩
      intro found hfound
      obtain ⟨epochs, hepochs, hmodel⟩ := Option.bind_eq_some_iff.mp hfound
      exact recent_of_covers (hsound epochs hepochs) (hi.models _ _ _ hmodel)
  | second cached model fetch =>
      rw [hphase] at hsound
      simp only [hphase] at h
      split at h
      · next after fetch' hfetch =>
          obtain rfl := Option.some.inj h
          obtain ⟨later, pointers, drawn, shared, hextends, rfl, hfence, hlocks, hshared, hknows⟩ :=
            hi.fetchStep hsound.2 hfetch
          exact ⟨later, hi.read hextends hfence hlocks hshared ⟨hsound.1, hknows⟩⟩
      · next after epochs hfetch =>
          obtain rfl := Option.some.inj h
          obtain ⟨later, pointers, drawn, shared, hextends, rfl, hfence, hlocks, hshared, hknows⟩ :=
            hi.fetchStep hsound.2 hfetch
          exact ⟨later, hi.read hextends hfence hlocks hshared ⟨hsound.1, hknows⟩⟩
      · contradiction
  | decide cached model live =>
      rw [hphase] at hsound
      simp only [hphase] at h
      split at h
      · cases live with
        | none =>
            obtain rfl := Option.some.inj h
            exact ⟨origin, hi.move hsound.2⟩
        | some epochs =>
            cases model with
            | none =>
                obtain rfl := Option.some.inj h
                exact ⟨origin, hi.move hsound.2⟩
            | some found =>
                obtain rfl := Option.some.inj h
                exact ⟨origin, hi.move (hsound.1 found rfl)⟩
      · obtain rfl := Option.some.inj h
        exact ⟨origin, hi.move hsound.2⟩
  | load live =>
      rw [hphase] at hsound
      simp only [hphase] at h
      obtain rfl := Option.some.inj h
      refine ⟨origin, hi.move ⟨hi.started r, fun epochs hepochs => ?_⟩⟩
      exact hi.covers_seen (hsound epochs hepochs)
  | fill live model =>
      rw [hphase] at hsound
      simp only [hphase] at h
      cases live with
      | some epochs =>
          obtain rfl := Option.some.inj h
          exact ⟨origin, (hi.fill (hsound.2 epochs rfl)).move hsound.1⟩
      | none =>
          obtain rfl := Option.some.inj h
          exact ⟨origin, hi.move hsound.1⟩

end Reader

section Writer

variable {origin : Origin} {s : Cluster} {w : ℕ}

theorem exclusive_unlock {gameId other u : ℕ} (h : (s.unlockExclusive w gameId).exclusive other = some u) :
    s.exclusive other = some u := by
  unfold unlockExclusive at h
  split at h
  · dsimp only at h
    by_cases heq : other = gameId
    · subst heq
      simp at h
    · rwa [Function.update_of_ne heq] at h
  · exact h

theorem Invariant.unlock (hi : Invariant origin s) (w gameId : ℕ) :
    Invariant origin (s.unlockExclusive w gameId) := by
  have hless : ∀ other u, (s.unlockExclusive w gameId).exclusive other = some u →
      s.exclusive other = some u := fun _ _ => exclusive_unlock
  have hlocks : ∀ other, (s.unlockExclusive w gameId).exclusive other ≠ none →
      s.shared other = [] := by
    intro other hother
    obtain ⟨u, hu⟩ := Option.ne_none_iff_exists'.mp hother
    apply hi.locks other
    rw [hless other u hu]
    simp
  have hfence := hi.fence.unlock hless
  unfold unlockExclusive at hfence hlocks ⊢
  split
  · next hheld =>
      rw [if_pos hheld] at hfence hlocks
      exact { hi with fence := hfence, locks := hlocks }
  · exact hi

theorem Invariant.quit (hi : Invariant origin s) (w : ℕ) (phase : WriterPhase)
    (hphase : phase.mutation = none) : Invariant origin (s.setWriter w phase) :=
  { hi with fence := hi.fence.quit w phase hphase }

/-- What a reader knows does not depend on how much is committed. -/
theorem Invariant.commit (hi : Invariant origin s) {gameId : ℕ} {mutation : GameEpochMutation}
    (hw : s.writers w = .fenced gameId mutation) (hlock : s.exclusive gameId = some w) :
    Invariant origin ({ s with
      committed := Function.update s.committed mutation.pointer (s.committed mutation.pointer + 1)
      exclusive := Function.update s.exclusive gameId none }.setWriter w (.finishing mutation)) := by
  refine { hi with fence := hi.fence.commit hw hlock, locks := ?_, started := ?_ }
  · intro other hother
    change Function.update s.exclusive gameId none other ≠ none at hother
    by_cases heq : other = gameId
    · subst heq
      simp at hother
    · rw [Function.update_of_ne heq] at hother
      exact hi.locks other hother
  · intro r
    obtain ⟨hgame, hparticipant⟩ := hi.started r
    exact ⟨Nat.le_trans hgame (le_commit ..), Nat.le_trans hparticipant (le_commit ..)⟩

/-- A finish publishes a fresh epoch unless its marker was replaced or lost. -/
theorem Invariant.finish (hi : Invariant origin s) {mutation : GameEpochMutation} {epoch : String}
    (hw : s.writers w = .finishing mutation) (hfresh : s.fresh epoch = true)
    (hmarker : s.pointers mutation.pointer = some mutation.marker) :
    ∃ later, Invariant later { { s with drawn := epoch :: s.drawn }.setWriter w .idle with
      pointers := Function.update s.pointers mutation.pointer (some epoch) } := by
  obtain ⟨hform, hnew⟩ := fresh_spec hfresh
  have hunfenced : ∀ u gameId other, s.writers u = .fenced gameId other →
      s.exclusive gameId = some u → other.pointer ≠ mutation.pointer := by
    intro u gameId other hu hlock heq
    have hother := hi.fence.fenced u gameId other hu hlock mutation.marker (by rw [heq, hmarker])
    exact hother.2 w mutation hw heq.symm rfl
  have hextends : Extends origin (Function.update origin epoch
      (some (mutation.pointer, s.committed mutation.pointer))) := by
    intro found place horigin
    have hne : found ≠ epoch := by
      rintro rfl
      exact hnew (hi.fence.known _ _ horigin)
    rwa [Function.update_of_ne hne]
  refine ⟨_, (hi.fence.publish hnew hform hunfenced).quit w .idle rfl, hi.locks, hi.started, ?_, ?_⟩
  · exact fun r => (hi.readers r).extend hextends fun _ hmem => hmem
  · exact fun replica key model hmodel => (hi.models replica key model hmodel).extend hextends

/-- Every event keeps the invariant. -/
theorem Invariant.step (hi : Invariant origin s) {event : Event} {next : Cluster}
    (h : s.step event = some next) : ∃ later, Invariant later next := by
  cases event with
  | start r replica gameId participationId challengeId =>
      have hstart : next = { s with
          readers := Function.update s.readers r
            ⟨replica, gameId, participationId, challengeId, s.seen gameId participationId,
              .first .readGame⟩ } := by
        simp only [Cluster.step] at h
        split at h
        · exact (Option.some.inj h).symm
        · exact (Option.some.inj h).symm
        · contradiction
      subst hstart
      refine ⟨origin, { hi with started := ?_, readers := ?_ }⟩
      · intro u
        by_cases hu : u = r
        · subst hu
          simp only [Function.update_self]
          exact ⟨Nat.le_refl _, Nat.le_refl _⟩
        · simp only [Function.update_of_ne hu]
          exact hi.started u
      · intro u
        by_cases hu : u = r
        · subst hu
          simp only [Function.update_self]
          trivial
        · simp only [Function.update_of_ne hu]
          exact hi.readers u
  | read r candidate available round => exact hi.readerStep h
  | crashReader r =>
      obtain rfl := Option.some.inj h
      have hshared := shared_unlock hi r (s.readers r).gameId
      exact ⟨origin, hi.read (fun _ _ horigin => horigin) hi.fence hshared.1 hshared.2 trivial⟩
  | lock w gameId =>
      simp only [Cluster.step] at h
      split at h
      · next hfree =>
          obtain rfl := Option.some.inj h
          refine ⟨origin, { hi with fence := hi.fence.lock w gameId, locks := ?_ }⟩
          intro other hother
          change Function.update s.exclusive gameId (some w) other ≠ none at hother
          by_cases heq : other = gameId
          · subst heq
            exact hfree.2.2
          · rw [Function.update_of_ne heq] at hother
            exact hi.locks other hother
      · contradiction
  | beginMutation w pointer epoch written =>
      simp only [Cluster.step] at h
      split at h
      · split at h
        · next hbegin =>
            obtain rfl := Option.some.inj h
            obtain ⟨rfl, hfresh⟩ := hbegin
            have hfence := hi.fence.mark w pointer (fresh_spec hfresh).2 written
            exact ⟨origin, { hi with fence := hfence }⟩
        · contradiction
      · contradiction
  | verify w =>
      simp only [Cluster.step] at h
      split at h
      · next gameId mutation hw =>
          split at h
          · next hmarker =>
              obtain rfl := Option.some.inj h
              refine ⟨origin, { hi with fence := ?_ }⟩
              apply hi.fence.proceed w mutation (.fenced gameId mutation) (by rw [hw]; rfl) rfl
              · intro other hother
                have hsame : gameId = other := by simpa using hother
                subst hsame
                exact hi.fence.scope w gameId mutation (.inl hw)
              · intro _ _ _ value hvalue
                rw [hmarker] at hvalue
                exact (Option.some.inj hvalue).symm
              · simp
          · obtain rfl := Option.some.inj h
            exact ⟨origin, (hi.unlock w gameId).quit w .idle rfl⟩
      · contradiction
  | commit w =>
      simp only [Cluster.step] at h
      split at h
      · obtain rfl := Option.some.inj h
        exact ⟨origin, (hi.unlock w _).quit w .idle rfl⟩
      · next gameId mutation hw =>
          split at h
          · next hlock =>
              obtain rfl := Option.some.inj h
              exact ⟨origin, hi.commit hw hlock⟩
          · obtain rfl := Option.some.inj h
            exact ⟨origin, hi.quit w .idle rfl⟩
      · contradiction
  | finish w epoch =>
      simp only [Cluster.step] at h
      split at h
      · next mutation hw =>
          split at h
          · next hfresh =>
              split at h
              · next hmarker =>
                  obtain rfl := Option.some.inj h
                  exact hi.finish hw hfresh hmarker
              · obtain rfl := Option.some.inj h
                have hdrawn : Invariant origin { s with drawn := epoch :: s.drawn } :=
                  { hi with fence := hi.fence.draw epoch }
                exact ⟨origin, hdrawn.quit w .idle rfl⟩
          · contradiction
      · contradiction
  | disconnect w gameId =>
      obtain rfl := Option.some.inj h
      exact ⟨origin, hi.unlock w gameId⟩
  | crashWriter w gameId =>
      obtain rfl := Option.some.inj h
      exact ⟨origin, (hi.unlock w gameId).quit w .idle rfl⟩
  | evictPointer pointer =>
      obtain rfl := Option.some.inj h
      exact ⟨origin, { hi with fence := hi.fence.evict pointer }⟩
  | evictModel replica key =>
      obtain rfl := Option.some.inj h
      refine ⟨origin, { hi with models := ?_ }⟩
      intro other otherKey found hfound
      dsimp only at hfound
      apply hi.models other otherKey found
      by_cases hreplica : other = replica
      · subst hreplica
        rw [Function.update_self] at hfound
        by_cases hkey : otherKey = key
        · subst hkey
          simp at hfound
        · rwa [Function.update_of_ne hkey] at hfound
      · rwa [Function.update_of_ne hreplica] at hfound

end Writer

theorem invariant_empty : Invariant (fun _ => none) empty where
  fence := by
    constructor <;> simp [empty, WriterPhase.mutation]
  locks := by simp [empty]
  started := fun _ => ⟨Nat.le_refl _, Nat.le_refl _⟩
  readers := fun _ => trivial
  models := by simp [empty]

theorem exists_invariant {events : List Event} {s : Cluster} (h : Run events s) :
    ∃ origin, Invariant origin s := by
  apply StepPath.invariant (P := fun s => ∃ origin, Invariant origin s) _ h
  · exact ⟨_, invariant_empty⟩
  · rintro before event after ⟨origin, hi⟩ hstep
    exact hi.step hstep

/-- The reader which an event starts. -/
def Event.starts : Event → Option ℕ
  | .start r _ _ _ _ => some r
  | _ => none

theorem scope_setReader (s : Cluster) (r u : ℕ) (phase : ReaderPhase) :
    scope ((s.setReader u phase).readers r) = scope (s.readers r) := by
  by_cases heq : r = u
  · subst heq
    simp only [setReader, Function.update_self]
    rfl
  · simp only [setReader, Function.update_of_ne heq]

theorem setIfAbsent_readers {s next : Cluster} {pointer : Pointer} {candidate : String} {won : Bool}
    (h : s.setIfAbsent pointer candidate = (next, won)) : next.readers = s.readers := by
  unfold setIfAbsent at h
  split at h
  · cases h
    rfl
  · cases h
    rfl

/-- A fetch leaves the readers alone. -/
theorem fetchStep_readers {s : Cluster} {r gameId participationId : ℕ} {candidate : String}
    {available : Bool} {fetch : Fetch} {outcome : FetchOutcome}
    (h : s.fetchStep r gameId participationId candidate available fetch = some outcome) :
    outcome.cluster.readers = s.readers := by
  cases fetch with
  | claimGame =>
      simp only [fetchStep] at h
      split at h
      · split at h
        · next hclaim =>
            obtain rfl := Option.some.inj h
            exact setIfAbsent_readers hclaim
        · next hclaim =>
            obtain rfl := Option.some.inj h
            exact setIfAbsent_readers hclaim
      · contradiction
  | claimParticipant game =>
      simp only [fetchStep] at h
      split at h
      · split at h
        · next hclaim =>
            obtain rfl := Option.some.inj h
            exact setIfAbsent_readers hclaim
        · next hclaim =>
            obtain rfl := Option.some.inj h
            exact setIfAbsent_readers hclaim
      · contradiction
  | _ =>
      simp only [fetchStep] at h
      repeat' split at h
      all_goals
        obtain rfl := Option.some.inj h
        rfl

/-- A reader which takes one operation stays about the same team. -/
theorem scope_readerStep {s next : Cluster} {r u : ℕ} {candidate : String} {available : Bool}
    {round : ℕ} (h : s.readerStep u candidate available round = some next) :
    scope (next.readers r) = scope (s.readers r) := by
  have hmoved : ∀ (other : Cluster) (phase : ReaderPhase), other.readers = s.readers →
      scope ((other.setReader u phase).readers r) = scope (s.readers r) := by
    intro other phase hsame
    rw [scope_setReader, hsame]
  unfold readerStep at h
  cases hphase : (s.readers u).phase with
  | idle => simp [hphase] at h
  | served model => simp [hphase] at h
  | first fetch =>
      simp only [hphase] at h
      split at h
      · next hfetch =>
          obtain rfl := Option.some.inj h
          exact hmoved _ _ (fetchStep_readers hfetch)
      · next hfetch =>
          obtain rfl := Option.some.inj h
          exact hmoved _ _ (fetchStep_readers hfetch)
      · contradiction
  | second cached model fetch =>
      simp only [hphase] at h
      split at h
      · next hfetch =>
          obtain rfl := Option.some.inj h
          exact hmoved _ _ (fetchStep_readers hfetch)
      · next hfetch =>
          obtain rfl := Option.some.inj h
          exact hmoved _ _ (fetchStep_readers hfetch)
      · contradiction
  | _ =>
      simp only [hphase] at h
      repeat' split at h
      all_goals
        obtain rfl := Option.some.inj h
        exact hmoved _ _ rfl

theorem unlockExclusive_readers (s : Cluster) (w gameId : ℕ) :
    (s.unlockExclusive w gameId).readers = s.readers := by
  unfold unlockExclusive
  split <;> rfl

/-- Only a start changes what a reader is about. -/
theorem scope_step {s next : Cluster} {event : Event} {r : ℕ} (hother : event.starts ≠ some r)
    (h : s.step event = some next) : scope (next.readers r) = scope (s.readers r) := by
  cases event with
  | start u replica gameId participationId challengeId =>
      have hne : r ≠ u := fun heq => hother (congrArg some heq.symm)
      simp only [step] at h
      split at h
      · obtain rfl := Option.some.inj h
        exact congrArg scope (Function.update_of_ne hne ..)
      · obtain rfl := Option.some.inj h
        exact congrArg scope (Function.update_of_ne hne ..)
      · contradiction
  | read u candidate available round => exact scope_readerStep h
  | crashReader u =>
      obtain rfl := Option.some.inj h
      exact scope_setReader ..
  | disconnect w gameId =>
      obtain rfl := Option.some.inj h
      rw [unlockExclusive_readers]
  | crashWriter w gameId =>
      obtain rfl := Option.some.inj h
      exact congrArg (fun readers => scope (readers r)) (unlockExclusive_readers s w gameId)
  | _ =>
      simp only [step] at h
      repeat' split at h
      all_goals first
        | contradiction
        | obtain rfl := Option.some.inj h
          first
            | rfl
            | exact congrArg (fun readers => scope (readers r)) (unlockExclusive_readers ..)

/-- In every run, a reader is served nothing older than what was committed for its team when
it started, and no pointer is cacheable while a writer is between its marker and its
commit. -/
theorem capability_fence :
    (∀ before s r replica gameId participationId challengeId after next model,
      Run before s →
      StepPath (fun s event next => step s event = some next) s
        (.start r replica gameId participationId challengeId :: after) next →
      (∀ event ∈ after, event.starts ≠ some r) →
      (next.readers r).phase = .served model →
        (s.seen gameId participationId).game ≤ model.game ∧
          (s.seen gameId participationId).participant ≤ model.participant) ∧
    ∀ events s w gameId mutation value, Run events s →
      s.writers w = .fenced gameId mutation → s.exclusive gameId = some w →
        s.pointers mutation.pointer = some value → decodeEpoch value = none := by
  constructor
  · intro before s r replica gameId participationId challengeId after next model hbefore hafter
      hothers hserved
    obtain ⟨origin, hi⟩ := exists_invariant (hbefore.append hafter)
    have hsound := hi.readers r
    rw [hserved] at hsound
    have hscope : scope (next.readers r) =
        ⟨gameId, participationId, s.seen gameId participationId⟩ := by
      cases hafter with
      | cons hstart hrest =>
          apply StepPath.invariant_on (P := fun s' : Cluster => scope (s'.readers r) =
            ⟨gameId, participationId, s.seen gameId participationId⟩) _ hrest hothers
          · simp only [step] at hstart
            split at hstart
            · obtain rfl := Option.some.inj hstart
              change scope (Function.update s.readers r _ r) = _
              rw [Function.update_self]
              rfl
            · obtain rfl := Option.some.inj hstart
              change scope (Function.update s.readers r _ r) = _
              rw [Function.update_self]
              rfl
            · contradiction
          · exact fun _ _ _ hother hs hstep => (scope_step hother hstep).trans hs
    rw [hscope] at hsound
    exact hsound
  · intro events s w gameId mutation value h hw hlock hvalue
    obtain ⟨origin, hi⟩ := exists_invariant h
    exact (hi.fence.fenced w gameId mutation hw hlock value hvalue).1

/-- A team reads its tokens for the first time, and its pointers are seeded. -/
def firstPoll : List Event :=
  .start 1 0 7 11 none :: ["", "", "", "", "aaaaaaaaaaaaaaaa", "", "bbbbbbbbbbbbbbbb", "", "", "",
    "", "", "", ""].map fun candidate => .read 1 candidate true 3

/-- The team replaces its token. -/
def rotation : List Event :=
  [.lock 5 7, .beginMutation 5 (.participant 7 11) "cccccccccccccccc" true, .verify 5]

def publication : List Event := [.commit 5, .finish 5 "dddddddddddddddd"]

def secondPoll : List Event :=
  List.replicate 8 (.read 2 "" true 3)

/-- A poll, a rotation, and a poll which starts after it. -/
theorem capability_fence_rotation :
    (∃ s next, Run (firstPoll ++ rotation ++ publication) s ∧
      StepPath (fun s event next => step s event = some next) s
        (.start 2 0 7 11 none :: secondPoll) next ∧
      (next.readers 2).phase = .served ⟨0, 1⟩ ∧
      (s.seen 7 11).game ≤ 0 ∧ (s.seen 7 11).participant ≤ 1) ∧
    ∃ s value, Run (firstPoll ++ rotation) s ∧ s.pointers (.participant 7 11) = some value ∧
      decodeEpoch value = none := by
  constructor
  · have hrun : ((firstPoll ++ rotation ++ publication ++
        Event.start 2 0 7 11 none :: secondPoll).foldlM step empty).map
          (fun s : Cluster => (s.readers 2).phase) = some (.served ⟨0, 1⟩) := by decide +kernel
    obtain ⟨next, hrun, hserved⟩ := Option.map_eq_some_iff.mp hrun
    obtain ⟨s, hbefore, hafter⟩ := StepPath.of_append (StepPath.of_foldlM hrun)
    exact ⟨s, next, hbefore, hafter, hserved,
      capability_fence.1 _ s 2 0 7 11 none _ next ⟨0, 1⟩ hbefore hafter (by decide) hserved⟩
  · have hrun : ((firstPoll ++ rotation).foldlM step empty).map
        (fun s : Cluster => (s.writers 5, s.exclusive 7, s.pointers (.participant 7 11))) =
          some (.fenced 7 ⟨.participant 7 11, "mutating:cccccccccccccccc"⟩, some 5,
            some "mutating:cccccccccccccccc") := by decide +kernel
    obtain ⟨s, hrun, hstate⟩ := Option.map_eq_some_iff.mp hrun
    obtain ⟨hw, hstate⟩ := Prod.mk.inj hstate
    obtain ⟨hlock, hvalue⟩ := Prod.mk.inj hstate
    exact ⟨s, _, StepPath.of_foldlM hrun, hvalue,
      capability_fence.2 _ s 5 7 _ _ (StepPath.of_foldlM hrun) hw hlock hvalue⟩

end Cluster

end KingOfTheHill

end Rsctf
