import Rsctf.FlagSubmission.Accounts

/-!
# The programs keep their accounts

Every statement of a submission keeps to the discipline, and the batch keeps its account
from one flag to the next.  The row of a capture is in order because the flag was looked up
before, because the latest round is locked when it is written, and because it is written only
when nobody has it.
-/

namespace Rsctf

namespace FlagSubmission

open Interleaving (Discipline Setting)

section Requests

/-- The label of every flag of a request, in order. -/
def labels (index : ℕ) (flags : List String) : List String :=
  (flags.zipIdx index).map fun entry => boundedResultLabel entry.2 entry.1

/-- The reply is about the flags of the request, and about what its transaction committed. -/
structure SubmitRequest.Reported (r : SubmitRequest) (w : World) (attackerId : ℤ)
    (captures : List Capture) (reply : AdBatchSubmitResultModel) : Prop where
  labelled : reply.results.map (·.flag) = labels 0 r.flags
  count : reply.acceptedCount = captures.length
  accepted : List.Forall₂ (w.arena.Describes attackerId) (acceptedResults reply.results) captures
  duplicates : ∀ result ∈ reply.results, result.status = .duplicate →
    w.Taken attackerId [] result.flag

/-- What the answer to a request means. -/
def SubmitRequest.Answered (r : SubmitRequest) (outcome : Outcome) (w : World) : Prop :=
  match outcome.answer with
  | .ok reply => ∃ attacker x captures, r.attacker = .ok attacker ∧ outcome.transaction = some x ∧
      ⟨x, captures⟩ ∈ w.commits ∧ r.Reported w attacker.id captures reply
  | .error _ => ∀ done ∈ w.commits, outcome.transaction = some done.transaction →
      done.captures = []

abbrev SoundFrom (p : ℕ) (r : SubmitRequest) (program : Program) (w : World) : Prop :=
  submissionDiscipline.Sound p r.Answered program w

end Requests

section Statements

variable {β : Type} {p x : ℕ} {r : SubmitRequest} {w t : World} {captures : List Capture}
  {tx : Transaction} {next : Program}

theorem sound_statement {ready : World → Bool} {f : World → World × β} {next : β → Program}
    (h : ∀ t, w.Relied p t → t.Consistent → ready t = true →
      submissionDiscipline.Allowed p t (f t).1 ∧ SoundFrom p r (next (f t).2) (f t).1) :
    SoundFrom p r (statement ready f next) w := h

theorem sound_query {f : World → β} {next : β → Program}
    (h : ∀ t, w.Relied p t → t.Consistent → SoundFrom p r (next (f t)) t) :
    SoundFrom p r (query f next) w :=
  sound_statement fun t hrely hinv _ => ⟨Discipline.allowed_refl hinv, h t hrely hinv⟩

theorem sound_update {f : World → World}
    (h : ∀ t, w.Relied p t → t.Consistent →
      submissionDiscipline.Allowed p t (f t) ∧ SoundFrom p r next (f t)) :
    SoundFrom p r (update f next) w :=
  sound_statement fun t hrely hinv _ => h t hrely hinv

/-- The transaction of the process, with what it has written. -/
def World.Working (w : World) (p x : ℕ) (captures : List Capture) : Prop :=
  ∃ tx, w.transaction p = some tx ∧ tx.id = x ∧ tx.captures = captures

theorem World.Working.relied (h : w.Working p x captures) (hrely : w.Relied p t) :
    t.Working p x captures := by
  obtain ⟨tx, htx, hid, hcaptures⟩ := h
  exact ⟨tx, hrely.own.trans htx, hid, hcaptures⟩

theorem World.Moves.allowed {new : Option Transaction} (h : w.Moves p new t) (hw : w.Consistent)
    (hnew : ∀ tx ∈ new, t.Admits tx ∧
      ∀ other ∈ w.transactions, other.process ≠ p → tx.Apart other) :
    submissionDiscipline.Allowed p w t :=
  ⟨h.consistent hw hnew, fun _ hq => h.relied hq⟩

/-- A transaction which takes locks, and writes nothing. -/
theorem allowed_modify {f : Transaction → Transaction} (hw : w.Consistent)
    (htx : w.transaction p = some tx) (hid : (f tx).id = tx.id)
    (hcaptures : (f tx).captures = tx.captures)
    (hshared : ∀ id ∈ tx.sharedRounds, id ∈ (f tx).sharedRounds)
    (hopen : ∀ id ∈ (f tx).sharedRounds, id ∉ tx.sharedRounds → ¬w.arena.Finalized id) :
    submissionDiscipline.Allowed p w (modifyTransaction p f w) := by
  have hmoves := moves_modify f htx
  obtain ⟨hmem, hp⟩ := World.mem_transactions htx
  have hadmits := (hw.admits tx hmem).mono hmoves.arena hmoves.attacks hmoves.commits
    hmoves.nextTransaction
  refine hmoves.allowed hw fun new hnew => ?_
  obtain rfl := Option.some.inj hnew
  refine ⟨?_, fun other hother hne => ?_⟩
  · exact {
      id_lt := hid ▸ hadmits.id_lt
      uncommitted := fun done hdone => hid ▸ hadmits.uncommitted done hdone
      nodup := hcaptures ▸ hadmits.nodup
      unrecorded := fun capture hcapture => hadmits.unrecorded capture (hcaptures ▸ hcapture)
      fits := fun capture hcapture => hadmits.fits capture (hcaptures ▸ hcapture)
      locked := fun capture hcapture =>
        hshared _ (hadmits.locked capture (hcaptures ▸ hcapture))
      unfinalized := fun id hid' => by
        by_cases hold : id ∈ tx.sharedRounds
        · exact hadmits.unfinalized id hold
        · rw [Arena.Finalized, hmoves.arena]
          exact hopen id hid' hold }
  · have hapart := hw.apart tx hmem other hother (hp ▸ hne.symm)
    exact ⟨by
      change (f tx).id ≠ other.id
      rw [hid]
      exact hapart.id_ne, fun capture hcapture => hapart.key_ne capture (hcaptures ▸ hcapture)⟩

theorem transaction_modify {f : Transaction → Transaction} (htx : w.transaction p = some tx) :
    (modifyTransaction p f w).transaction p = some { f tx with process := p } :=
  (moves_modify f htx).transaction_self

theorem later_modify {f : Transaction → Transaction} (htx : w.transaction p = some tx) :
    w.Later (modifyTransaction p f w) := by
  have hmoves := moves_modify f htx
  exact ⟨hmoves.arena ▸ .refl w.arena, fun _ hattack => hmoves.attacks ▸ hattack⟩

theorem sound_begin {next : ℕ → Program}
    (h : ∀ t x, t.Working p x [] → SoundFrom p r (next x) t) :
    SoundFrom p r (statement (fun _ => true) (beginTransaction p) next) w := by
  refine sound_statement fun t hrely hinv _ => ?_
  have hmoves := moves_begin p t
  refine ⟨hmoves.allowed hinv fun new hnew => ?_, h _ _ ⟨_, hmoves.transaction_self, rfl, rfl⟩⟩
  obtain rfl := Option.some.inj hnew
  refine ⟨?_, fun other hother hne => ?_⟩
  · exact {
      id_lt := Nat.lt_succ_self _
      uncommitted := fun done hdone => (hinv.commits_lt done hdone).ne
      nodup := List.nodup_nil
      unrecorded := fun _ hcapture => by cases hcapture
      fits := fun _ hcapture => by cases hcapture
      locked := fun _ hcapture => by cases hcapture
      unfinalized := fun _ hid => by cases hid }
  · exact ⟨((hinv.admits other hother).id_lt).ne', fun _ hcapture => by cases hcapture⟩

theorem sound_acquireAdditional {submitKey : ℤ × ℤ} (hworking : w.Working p x captures)
    (h : ∀ t, t.Working p x captures → SoundFrom p r next t) :
    SoundFrom p r (acquireAdditional p submitKey next) w := by
  refine sound_statement fun t hrely hinv _ => ?_
  obtain ⟨tx, htx, hid, hcaptures⟩ := hworking.relied hrely
  refine ⟨allowed_modify hinv htx rfl rfl (fun _ hid => hid) fun id hid hnot => absurd hid hnot, ?_⟩
  exact h _ ⟨_, transaction_modify htx, hid, hcaptures⟩

/-- The commit, and what is known after it. -/
theorem sound_release (hworking : w.Working p x captures)
    (h : ∀ t, ⟨x, captures⟩ ∈ t.commits → (∀ capture ∈ captures, capture.attack ∈ t.attacks) →
      w.Later t → t.Consistent → SoundFrom p r next t) :
    SoundFrom p r (release p next) w := by
  refine sound_update fun t hrely hinv => ?_
  obtain ⟨tx, htx, rfl, rfl⟩ := hworking.relied hrely
  have hconsistent := consistent_commit htx hinv
  refine ⟨⟨hconsistent, fun q hq => relied_commit htx hinv hq⟩, h _ ?_ ?_ ?_ hconsistent⟩
  · rw [commit_eq htx]
    exact List.mem_append_right _ (List.mem_singleton_self _)
  · intro capture hcapture
    rw [commit_eq htx]
    exact List.mem_append_right _ (List.mem_map_of_mem hcapture)
  · refine hrely.later.trans ?_
    rw [commit_eq htx]
    exact ⟨.refl t.arena, fun _ hattack => List.mem_append_left _ hattack⟩

/-- A transaction identifier names one commit. -/
theorem World.Consistent.commit_unique (h : w.Consistent) {done other : Commit}
    (hdone : done ∈ w.commits) (hother : other ∈ w.commits)
    (heq : done.transaction = other.transaction) : done = other :=
  List.inj_on_of_nodup_map h.commits_nodup hdone hother heq

theorem sound_refuse {error : AppError} : SoundFrom p r (refuse error) w :=
  fun _ _ h => by cases h

theorem sound_conclude_error {error : AppError} (hworking : w.Working p x []) :
    SoundFrom p r (conclude p x (.error error)) w := by
  refine sound_release hworking fun t hcommit _ _ hinv done hdone heq => ?_
  have hsame := hinv.commit_unique hdone hcommit (Option.some.inj heq).symm
  rw [hsame]

theorem labels_closedResults (flags : List String) (status : AdSubmitStatus) (message : String) :
    (closedResults flags status message).results.map (·.flag) = labels 0 flags :=
  List.map_map

/-- The game is not open: nothing was adjudicated. -/
theorem sound_conclude_closed {attacker : Attacker} {status : AdSubmitStatus} {message : String}
    (hattacker : r.attacker = .ok attacker) (hworking : w.Working p x [])
    (haccepted : status ≠ .accepted) (hduplicate : status ≠ .duplicate) :
    SoundFrom p r (conclude p x (.ok (closedResults r.flags status message))) w := by
  have hstatus : ∀ result ∈ (closedResults r.flags status message).results,
      result.status = status := fun result hresult => by
    obtain ⟨entry, -, rfl⟩ := List.mem_map.mp hresult
    rfl
  refine sound_release hworking fun t hcommit _ _ hinv =>
    ⟨attacker, x, [], hattacker, rfl, hcommit, labels_closedResults _ _ _, rfl, ?_, ?_⟩
  · have hnone : acceptedResults (closedResults r.flags status message).results = [] :=
      List.filter_eq_nil_iff.mpr fun result hresult heq =>
        haccepted ((hstatus result hresult).symm.trans (of_decide_eq_true heq))
    rw [hnone]
    exact .nil
  · exact fun result hresult heq => absurd ((hstatus result hresult).symm.trans heq) hduplicate

end Statements

end FlagSubmission

end Rsctf
