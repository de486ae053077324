import Rsctf.FlagSubmission.Recorded

/-!
# The account of a batch

While a batch is adjudicated, the flags it has accepted are the rows which its transaction has
written, in the same order, and a flag which it calls a duplicate has a row already.  The
transaction commits these rows before the reply is given.
-/

namespace Rsctf

namespace FlagSubmission

open Interleaving (Discipline Setting)

section Accounts

/-- The row is the attacker's capture of a flag with the text. -/
def Arena.Takes (arena : Arena) (attackerId : ℤ) (text : String) (attack : AdAttack) : Prop :=
  attack.attackerParticipationId = attackerId ∧
    ∃ flag ∈ arena.flags, flag.id = attack.flagId ∧ flag.flag = text

/-- The attacker has a flag with the text, counting the captures of a transaction. -/
def World.Taken (w : World) (attackerId : ℤ) (captures : List Capture) (text : String) : Prop :=
  ∃ attack ∈ w.attacks ++ captures.map (·.attack), w.arena.Takes attackerId text attack

/-- An accepted flag and the row which was written for it. -/
def Arena.Describes (arena : Arena) (attackerId : ℤ) (result : AdSubmitResultModel)
    (capture : Capture) : Prop :=
  arena.Takes attackerId result.flag capture.attack

def acceptedResults (results : List AdSubmitResultModel) : List AdSubmitResultModel :=
  results.filter fun result => decide (result.status = .accepted)

/-- The results say what the transaction has written. -/
structure Accounted (w : World) (attackerId : ℤ) (captures : List Capture) (acceptedCount : ℕ)
    (results : List AdSubmitResultModel) : Prop where
  count : acceptedCount = captures.length
  accepted : List.Forall₂ (w.arena.Describes attackerId) (acceptedResults results) captures
  duplicates : ∀ result ∈ results, result.status = .duplicate →
    w.Taken attackerId captures result.flag

/-- The account of a batch, with the events and the earlier decisions it keeps. -/
structure Batch.Kept (batch : Batch) (w : World) (attackerId : ℤ) (captures : List Capture) :
    Prop where
  accounted : Accounted w attackerId captures batch.acceptedCount batch.results
  broadcasts : batch.broadcasts = captures.filterMap (·.broadcast)
  adjudicated : ∀ text decision, batch.adjudicated text = some decision →
    decision.1 = .accepted ∨ decision.1 = .duplicate → w.Taken attackerId captures text

/-- A world in which nothing was taken back. -/
structure World.Later (w t : World) : Prop where
  grows : w.arena.Grows t.arena
  attacks : ∀ attack ∈ w.attacks, attack ∈ t.attacks

variable {w t u : World} {p : ℕ} {attackerId : ℤ} {captures : List Capture} {text : String}
  {attack : AdAttack} {acceptedCount : ℕ} {results : List AdSubmitResultModel}

theorem World.Later.refl (w : World) : w.Later w := ⟨.refl w.arena, fun _ h => h⟩

theorem World.Later.trans (h : w.Later t) (h' : t.Later u) : w.Later u :=
  ⟨h.grows.trans h'.grows, fun attack hattack => h'.attacks attack (h.attacks attack hattack)⟩

theorem World.Relied.later (h : w.Relied p t) : w.Later t := ⟨h.grows, h.attacks⟩

theorem Arena.Takes.grows {arena new : Arena} (h : arena.Takes attackerId text attack)
    (hgrows : arena.Grows new) : new.Takes attackerId text attack := by
  obtain ⟨hattacker, flag, hflag, hid, htext⟩ := h
  exact ⟨hattacker, flag, hgrows.flags flag hflag, hid, htext⟩

theorem World.Taken.later (h : w.Taken attackerId captures text) (hlater : w.Later t)
    {more : List Capture} (hmore : ∀ capture ∈ captures, capture ∈ more) :
    t.Taken attackerId more text := by
  obtain ⟨attack, hattack, htakes⟩ := h
  refine ⟨attack, ?_, htakes.grows hlater.grows⟩
  rcases List.mem_append.mp hattack with hattack | hattack
  · exact List.mem_append_left _ (hlater.attacks attack hattack)
  · obtain ⟨capture, hcapture, rfl⟩ := List.mem_map.mp hattack
    exact List.mem_append_right _ (List.mem_map_of_mem (hmore capture hcapture))

theorem Accounted.later (h : Accounted w attackerId captures acceptedCount results)
    (hlater : w.Later t) : Accounted t attackerId captures acceptedCount results where
  count := h.count
  accepted := h.accepted.imp fun _ _ hdescribes => Arena.Takes.grows hdescribes hlater.grows
  duplicates := fun result hresult hstatus =>
    (h.duplicates result hresult hstatus).later hlater fun _ hcapture => hcapture

theorem Batch.Kept.later {batch : Batch} (h : batch.Kept w attackerId captures)
    (hlater : w.Later t) : batch.Kept t attackerId captures where
  accounted := h.accounted.later hlater
  broadcasts := h.broadcasts
  adjudicated := fun text decision hdecision hstatus =>
    (h.adjudicated text decision hdecision hstatus).later hlater fun _ hcapture => hcapture

end Accounts

section Decisions

/-- What the adjudication of a flag adds to the captures of the transaction. -/
inductive Decided (w : World) (attackerId : ℤ) (text : String) (captures : List Capture) :
    SubmitOneResult → List Capture → Prop
  | accepted {planted : Option ℤ} (capture : Capture)
      (htakes : w.arena.Takes attackerId text capture.attack) :
      Decided w attackerId text captures ⟨(.accepted, planted), capture.broadcast⟩
        (captures ++ [capture])
  | refused {decision : FlagDecision} (hstatus : decision.1 ≠ .accepted)
      (hduplicate : decision.1 = .duplicate → w.Taken attackerId captures text) :
      Decided w attackerId text captures (.withoutBroadcast decision) captures

variable {w t : World} {attackerId : ℤ} {captures captures' : List Capture} {text : String}
  {batch : Batch} {outcome : SubmitOneResult}

theorem acceptedResults_append (results more : List AdSubmitResultModel) :
    acceptedResults (results ++ more) = acceptedResults results ++ acceptedResults more :=
  List.filter_append results more

theorem Batch.adjudicated_settle (batch : Batch) (text : String) (outcome : SubmitOneResult) :
    (batch.settle text outcome).adjudicated =
      Function.update batch.adjudicated text (some outcome.decision) := rfl

theorem Batch.kept_empty (w : World) (attackerId : ℤ) : Batch.empty.Kept w attackerId [] :=
  ⟨⟨rfl, .nil, fun _ h => by cases h⟩, rfl, fun _ _ h => by cases h⟩

/-- A result which accepts nothing leaves the account as it is. -/
theorem Accounted.append {acceptedCount : ℕ} {results : List AdSubmitResultModel}
    {result : AdSubmitResultModel} (h : Accounted w attackerId captures acceptedCount results)
    (hstatus : result.status ≠ .accepted)
    (hduplicate : result.status = .duplicate → w.Taken attackerId captures result.flag) :
    Accounted w attackerId captures acceptedCount (results ++ [result]) where
  count := h.count
  accepted := by
    have hnone : acceptedResults [result] = [] := by simp [acceptedResults, hstatus]
    rw [acceptedResults_append, hnone, List.append_nil]
    exact h.accepted
  duplicates := fun other hother hother' => by
    rcases List.mem_append.mp hother with hother | hother
    · exact h.duplicates other hother hother'
    · obtain rfl := List.mem_singleton.mp hother
      exact hduplicate hother'

/-- An accepted flag and its row are added to the account. -/
theorem Accounted.accept {acceptedCount : ℕ} {results : List AdSubmitResultModel}
    {result : AdSubmitResultModel} {capture : Capture}
    (h : Accounted w attackerId captures acceptedCount results)
    (hstatus : result.status = .accepted)
    (hdescribes : w.arena.Describes attackerId result capture) :
    Accounted w attackerId (captures ++ [capture]) (acceptedCount + 1) (results ++ [result]) where
  count := by rw [h.count, List.length_append, List.length_singleton]
  accepted := by
    have hone : acceptedResults [result] = [result] := by simp [acceptedResults, hstatus]
    rw [acceptedResults_append, hone]
    exact List.rel_append h.accepted (.cons hdescribes .nil)
  duplicates := fun other hother hother' => by
    rcases List.mem_append.mp hother with hother | hother
    · exact (h.duplicates other hother hother').later (.refl w)
        fun _ hcapture => List.mem_append_left _ hcapture
    · obtain rfl := List.mem_singleton.mp hother
      rw [hstatus] at hother'
      cases hother'

theorem Batch.Kept.reject (h : batch.Kept w attackerId captures) (index : ℕ) (text : String) :
    (batch.reject index text).Kept w attackerId captures where
  accounted := h.accounted.append (fun hstatus => by cases hstatus) fun hstatus => by cases hstatus
  broadcasts := h.broadcasts
  adjudicated := h.adjudicated

theorem Batch.Kept.record (h : batch.Kept w attackerId captures)
    (hdecided : Decided w attackerId text captures outcome captures') :
    (batch.record text outcome).Kept w attackerId captures' := by
  cases hdecided with
  | accepted capture htakes =>
    refine ⟨h.accounted.accept rfl htakes, ?_, fun other decision hdecision hstatus => ?_⟩
    · change batch.broadcasts ++ capture.broadcast.toList = _
      rw [h.broadcasts, List.filterMap_append, List.filterMap_cons]
      cases capture.broadcast <;> rfl
    · exact (h.adjudicated other decision hdecision hstatus).later (.refl w)
        fun _ hcapture => List.mem_append_left _ hcapture
  | refused hstatus hduplicate =>
    refine ⟨?_, ?_, h.adjudicated⟩
    · have hcount : (batch.record text (.withoutBroadcast _)).acceptedCount =
          batch.acceptedCount := congrArg (batch.acceptedCount + ·) (if_neg hstatus)
      rw [hcount]
      exact h.accounted.append hstatus hduplicate
    · change batch.broadcasts ++ [] = _
      rw [List.append_nil, h.broadcasts]

/-- What was decided of a flag stays true of it. -/
theorem Decided.taken (hdecided : Decided w attackerId text captures outcome captures')
    (hstatus : outcome.decision.1 = .accepted ∨ outcome.decision.1 = .duplicate) :
    w.Taken attackerId captures' text := by
  cases hdecided with
  | accepted capture htakes =>
    exact ⟨capture.attack, List.mem_append_right _ (by simp), htakes⟩
  | refused hrefused hduplicate => exact hduplicate (hstatus.resolve_left hrefused)

theorem Batch.Kept.settle (h : batch.Kept w attackerId captures)
    (hdecided : Decided w attackerId text captures outcome captures') :
    (batch.settle text outcome).Kept w attackerId captures' := by
  have hrecord := h.record hdecided
  refine ⟨hrecord.accounted, hrecord.broadcasts, fun other decision hdecision hstatus => ?_⟩
  by_cases hother : other = text
  · subst hother
    rw [Batch.adjudicated_settle, Function.update_self] at hdecision
    obtain rfl := Option.some.inj hdecision
    exact hdecided.taken hstatus
  · rw [Batch.adjudicated_settle, Function.update_of_ne hother] at hdecision
    exact hrecord.adjudicated other decision hdecision hstatus

/-- A flag which comes again in the batch. -/
theorem Batch.Kept.decided_repeated (h : batch.Kept w attackerId captures)
    {previous : FlagDecision} (hprevious : batch.adjudicated text = some previous) :
    Decided w attackerId text captures (.withoutBroadcast (repeatedBatchResult previous))
      captures := by
  have htaken := h.adjudicated text previous hprevious
  unfold repeatedBatchResult
  split
  next hstatus => exact .refused (fun hne => by cases hne) fun _ => htaken (.inl hstatus)
  next hstatus => exact .refused hstatus fun hduplicate => htaken (.inr hduplicate)

end Decisions

end FlagSubmission

end Rsctf
