import Rsctf.Engine.RoundSequence

/-!
# Calls which race for one round

Several schedulers may see the same latest round and prepare its successor.  The first
transaction creates the successor.  A later one finds it, and returns it exactly when
the window after the successor could be played.
-/

open Fallible Keyed

namespace Rsctf

namespace Engine

variable {σ : Type} {defaults : AdScoringConfig} {freezeScoring : σ → ℤ → Except AppError σ}

namespace RoundCursor

def identity (cursor : RoundCursor) : ℤ × ℤ := (cursor.id, cursor.number)

end RoundCursor

def RoundRow.cursor (row : RoundRow) : RoundCursor := ⟨row.id, row.number⟩

/-- What a round keeps when it is finalized. -/
def RoundRow.window (row : RoundRow) : ℤ × ℤ × ℤ × ℤ :=
  (row.id, row.number, row.startTimeUtc, row.endTimeUtc)

/-- Round identities are handed out in increasing order. -/
def EngineGame.FreshIds (game : EngineGame σ) : Prop :=
  ∀ row ∈ game.rounds, row.id < game.nextRoundId

/-- The first call creates a round, and every other call returns the same one. -/
def RaceRepaired (defaults : AdScoringConfig) (freezeScoring : σ → ℤ → Except AppError σ)
    (game : EngineGame σ) (expectedLatest : Option RoundCursor) (first : RoundCall)
    (others : List RoundCall) : Prop :=
  ∃ round, round.created = true ∧
    (prepareRounds defaults freezeScoring game expectedLatest (first :: others)).1 =
      .ok round :: others.map (fun _ => .ok { round with created := false }) ∧
    (prepareRounds defaults freezeScoring game expectedLatest
        (first :: others)).2.rounds.map RoundRow.window =
      game.rounds.map RoundRow.window ++ [(round.id, targetNumber (expectedLatest.map
        RoundCursor.identity), round.startedAt, round.endsAt)]

theorem finalizeRow_window (roundId : ℤ) (row : RoundRow) :
    (finalizeRow roundId row).window = row.window := by
  unfold finalizeRow
  split <;> rfl

@[simp] theorem finalizeRow_id (roundId : ℤ) (row : RoundRow) :
    (finalizeRow roundId row).id = row.id := by
  unfold finalizeRow
  split <;> rfl

@[simp] theorem finalizeRow_number (roundId : ℤ) (row : RoundRow) :
    (finalizeRow roundId row).number = row.number := by
  unfold finalizeRow
  split <;> rfl

@[simp] theorem finalizeRow_pipelineCompleted (roundId : ℤ) (row : RoundRow) :
    (finalizeRow roundId row).pipelineCompleted = row.pipelineCompleted := by
  unfold finalizeRow
  split <;> rfl

theorem finalizeRow_finalizeRow (roundId : ℤ) (row : RoundRow) :
    finalizeRow roundId (finalizeRow roundId row) = finalizeRow roundId row := by
  by_cases hid : row.id = roundId
  · simp [finalizeRow, hid]
  · simp [finalizeRow, hid]

theorem map_finalizeRow_window (roundId : ℤ) (rounds : List RoundRow) :
    (rounds.map (finalizeRow roundId)).map RoundRow.window = rounds.map RoundRow.window := by
  rw [List.map_map]
  exact List.map_congr_left fun row _ => finalizeRow_window roundId row

theorem find?_finalizeRow (roundId id : ℤ) (rounds : List RoundRow) :
    (rounds.map (finalizeRow roundId)).find? (·.id = id) =
      (rounds.find? (·.id = id)).map (finalizeRow roundId) := by
  have hfind := List.find?_map (f := finalizeRow roundId) (p := fun row => decide (row.id = id))
    (l := rounds)
  rw [hfind]
  congr 2
  funext row
  simp

section Finalize

/-- The rounds and the checks after finalizing the round which the caller saw. -/
def finalizedGame (game : EngineGame σ) (expectedLatest : Option RoundCursor) (now : ℤ) :
    EngineGame σ :=
  match expectedLatest with
  | none => game
  | some expected =>
    { game with
      checkResults := game.checkResults.map (closePendingCheck expected.id now)
      rounds := game.rounds.map (finalizeRow expected.id) }

/-- The checker pipeline of the round which the caller saw is complete. -/
def PipelineDone (game : EngineGame σ) (expectedLatest : Option RoundCursor) : Prop :=
  ∀ expected, expectedLatest = some expected →
    ∃ row, game.rounds.find? (·.id = expected.id) = some row ∧ row.pipelineCompleted = true

theorem finalizeExpected_eq_ok_iff {game game' : EngineGame σ}
    {expectedLatest : Option RoundCursor} {now : ℤ} :
    finalizeExpected game expectedLatest now = .ok game' ↔
      PipelineDone game expectedLatest ∧ game' = finalizedGame game expectedLatest now := by
  cases expectedLatest with
  | none =>
      refine pure_eq_ok_iff.trans ⟨fun h => ⟨fun expected hnone => ?_, h.symm⟩, fun h => h.2.symm⟩
      exact absurd hnone (by simp)
  | some expected =>
      have hdone : PipelineDone game (some expected) ↔
          ∃ row, game.rounds.find? (·.id = expected.id) = some row ∧
            row.pipelineCompleted = true := by
        simp [PipelineDone]
      rw [hdone]
      unfold finalizeExpected
      dsimp only
      cases hfind : game.rounds.find? (·.id = expected.id) with
      | none => simp
      | some row =>
          by_cases hpipeline : row.pipelineCompleted = true
          · simp only [hpipeline, if_true]
            exact pure_eq_ok_iff.trans
              ⟨fun h => ⟨⟨row, rfl, hpipeline⟩, h.symm⟩, fun h => h.2.symm⟩
          · simp [hpipeline]

theorem PipelineDone.finalizedGame {game : EngineGame σ} {expectedLatest : Option RoundCursor}
    (h : PipelineDone game expectedLatest) (now : ℤ) :
    PipelineDone (finalizedGame game expectedLatest now) expectedLatest := by
  rintro expected rfl
  obtain ⟨row, hfind, hpipeline⟩ := h expected rfl
  refine ⟨finalizeRow expected.id row, ?_, by simpa using hpipeline⟩
  exact (find?_finalizeRow expected.id expected.id game.rounds).trans (by rw [hfind]; rfl)

theorem finalizedGame_kept (game : EngineGame σ) (expectedLatest : Option RoundCursor) (now : ℤ) :
    (finalizedGame game expectedLatest now).nextRoundId = game.nextRoundId ∧
      (finalizedGame game expectedLatest now).settings = game.settings ∧
      (finalizedGame game expectedLatest now).challenges = game.challenges := by
  cases expectedLatest with
  | none => exact ⟨rfl, rfl, rfl⟩
  | some expected => exact ⟨rfl, rfl, rfl⟩

theorem map_window_finalizedGame (game : EngineGame σ) (expectedLatest : Option RoundCursor)
    (now : ℤ) :
    (finalizedGame game expectedLatest now).rounds.map RoundRow.window =
      game.rounds.map RoundRow.window := by
  cases expectedLatest with
  | none => rfl
  | some expected => exact map_finalizeRow_window expected.id game.rounds

end Finalize

section Repair

variable {game game' : EngineGame σ} {expectedLatest : Option RoundCursor} {row : RoundRow}

variable (freezeScoring) in
/-- The successor of the round which the caller saw is there, with everything that
belongs to it. -/
structure Prepared (game : EngineGame σ) (expectedLatest : Option RoundCursor)
    (row : RoundRow) : Prop where
  latest : game.latestRound = some row
  number : row.number = targetNumber (expectedLatest.map RoundCursor.identity)
  found : game.rounds.find? (·.number = row.number) = some row
  expected_ne : ∀ expected, expectedLatest = some expected → expected.id ≠ row.id
  pipeline : PipelineDone game expectedLatest
  finalized : ∀ expected, expectedLatest = some expected →
    game.rounds.map (finalizeRow expected.id) = game.rounds
  planted : ∀ service ∈ game.services, ∃ flag ∈ game.flags,
    flag.key = (row.id, service.id)
  frozen : freezeScoring game.scoring row.number = .ok game.scoring

/-- The tables which a repair does not change. -/
structure EngineGame.SameRounds (game game' : EngineGame σ) : Prop where
  settings : game'.settings = game.settings
  challenges : game'.challenges = game.challenges
  services : game'.services = game.services
  rounds : game'.rounds = game.rounds
  flags : game'.flags = game.flags
  scoring : game'.scoring = game.scoring

/-- The round as it is returned to a caller which did not create it. -/
def repairedRound (game : EngineGame σ) (row : RoundRow) : AdvancedRound :=
  ⟨row.id, row.number, row.startTimeUtc, row.endTimeUtc, false, advancedFlags game row.id⟩

namespace EngineGame.SameRounds

theorem hasApiHill (h : game.SameRounds game') : game'.hasApiHill = game.hasApiHill := by
  rw [EngineGame.hasApiHill, h.challenges, EngineGame.hasApiHill]

theorem repairedRound (h : game.SameRounds game') (row : RoundRow) :
    repairedRound game' row = repairedRound game row := by
  simp only [Engine.repairedRound, advancedFlags, h.services, h.flags]

theorem checkAdvancement (h : game.SameRounds game') (call : RoundCall) :
    checkAdvancement game' call.requiredNetworkBound call.now =
      checkAdvancement game call.requiredNetworkBound call.now := by
  rw [Engine.checkAdvancement, Engine.checkAdvancement, EngineGame.networkBound,
    EngineGame.networkBound, h.settings, h.challenges]

theorem prepared (h : game.SameRounds game')
    (hprepared : Prepared freezeScoring game expectedLatest row) :
    Prepared freezeScoring game' expectedLatest row where
  latest := by
    rw [EngineGame.latestRound, h.rounds]
    exact hprepared.latest
  number := hprepared.number
  found := by
    rw [h.rounds]
    exact hprepared.found
  expected_ne := hprepared.expected_ne
  pipeline := by
    rw [PipelineDone, h.rounds]
    exact hprepared.pipeline
  finalized := by
    rw [h.rounds]
    exact hprepared.finalized
  planted := by
    rw [h.services, h.flags]
    exact hprepared.planted
  frozen := by
    rw [h.scoring]
    exact hprepared.frozen

end EngineGame.SameRounds

namespace Prepared

/-- A caller which finds the successor is not stale. -/
theorem not_stale (h : Prepared freezeScoring game expectedLatest row) :
    classifyRoundTarget (some (row.id, row.number))
      (expectedLatest.map fun round => (round.id, round.number)) = .repair := by
  cases expectedLatest with
  | none =>
      have hnumber := h.number
      simp only [Option.map_none] at hnumber
      simp [classifyRoundTarget, hnumber]
  | some expected =>
      have hne := h.expected_ne expected rfl
      have hnumber := h.number
      simp only [classifyRoundTarget, Option.map_some, Option.any_some]
      rw [if_neg (by simpa using hne)]
      exact if_pos hnumber

theorem rounds_finalizedGame (h : Prepared freezeScoring game expectedLatest row) (now : ℤ) :
    (finalizedGame game expectedLatest now).rounds = game.rounds := by
  cases expectedLatest with
  | none => rfl
  | some expected => exact h.finalized expected rfl

theorem finalizedGame_same (h : Prepared freezeScoring game expectedLatest row) (now : ℤ) :
    game.SameRounds (finalizedGame game expectedLatest now) := by
  have hrounds := h.rounds_finalizedGame now
  cases expectedLatest with
  | none => exact ⟨rfl, rfl, rfl, rfl, rfl, rfl⟩
  | some expected => exact ⟨rfl, rfl, rfl, hrounds, rfl, rfl⟩

variable (defaults) in
/-- A later call succeeds exactly when the window after the successor can be played, and
it changes neither the rounds nor their flags. -/
theorem prepareRoundTransaction_eq (h : Prepared freezeScoring game expectedLatest row)
    {call : RoundCall} (hcall : checkAdvancement game call.requiredNetworkBound call.now = .ok ()) :
    ∃ game', game.SameRounds game' ∧
      prepareRoundTransaction defaults freezeScoring game expectedLatest call =
        (roundWindow defaults game.settings game.hasApiHill (some row.endTimeUtc) call.now).map
          fun _ => (repairedRound game row, game') := by
  have hfinalized := h.finalizedGame_same call.now
  set finalized := finalizedGame game expectedLatest call.now with hgame
  have hfinalize : finalizeExpected game expectedLatest call.now = .ok finalized :=
    finalizeExpected_eq_ok_iff.mpr ⟨h.pipeline, rfl⟩
  have hflags : insertNew FlagRow.key finalized.flags (finalized.services.map fun service =>
      (⟨row.id, service.id, call.generateFlag service.id⟩ : FlagRow)) = game.flags := by
    rw [hfinalized.flags, hfinalized.services]
    refine insertNew_of_taken fun flag hflag => ?_
    obtain ⟨service, hservice, rfl⟩ := List.mem_map.mp hflag
    exact h.planted service hservice
  set game' : EngineGame σ := plantFlags
    { finalized with nextRoundId := finalized.nextRoundId + 1, scoring := game.scoring } row.id
    call.generateFlag call.now with hgame'
  have hsame : game.SameRounds game' :=
    ⟨hfinalized.settings, hfinalized.challenges, hfinalized.services, hfinalized.rounds, hflags,
      rfl⟩
  have hinsert : ∀ window, insertRound finalized
      (targetNumber (expectedLatest.map fun round => (round.id, round.number))) window =
        (row, false, { finalized with nextRoundId := finalized.nextRoundId + 1 }) := by
    intro window
    have hfound := h.found
    rw [h.number] at hfound
    rw [insertRound, hfinalized.rounds]
    erw [hfound]
  have hfrozen : freezeScoring finalized.scoring
      (targetNumber (expectedLatest.map fun round => (round.id, round.number))) =
      .ok game.scoring := by
    have hfrozen := h.frozen
    rw [h.number] at hfrozen
    rw [hfinalized.scoring]
    exact hfrozen
  have hwindow : roundWindow defaults finalized.settings finalized.hasApiHill
      (some row.endTimeUtc) call.now =
      roundWindow defaults game.settings game.hasApiHill (some row.endTimeUtc) call.now := by
    rw [hfinalized.settings, hfinalized.hasApiHill]
  refine ⟨game', hsame, ?_⟩
  unfold prepareRoundTransaction
  simp only [hcall, h.latest, Option.map_some, h.not_stale, reduceCtorEq, if_false, hfinalize,
    hinsert, hfrozen, hwindow, bind, Except.bind]
  cases roundWindow defaults game.settings game.hasApiHill (some row.endTimeUtc) call.now with
  | error error => rfl
  | ok window =>
      have hround := hsame.repairedRound row
      simp only [Except.map]
      rw [← hround]
      rfl

variable (defaults) in
/-- Every later call succeeds or fails by its own instant. -/
theorem prepareRounds_eq (h : Prepared freezeScoring game expectedLatest row)
    {calls : List RoundCall}
    (hcalls : ∀ call ∈ calls,
      checkAdvancement game call.requiredNetworkBound call.now = .ok ()) :
    (prepareRounds defaults freezeScoring game expectedLatest calls).1 =
        calls.map (fun call => (roundWindow defaults game.settings game.hasApiHill
          (some row.endTimeUtc) call.now).map fun _ => repairedRound game row) ∧
      (prepareRounds defaults freezeScoring game expectedLatest calls).2.rounds =
        game.rounds := by
  induction calls generalizing game with
  | nil => exact ⟨rfl, rfl⟩
  | cons call calls ih =>
      have hrest := fun a ha => hcalls a (List.mem_cons_of_mem call ha)
      obtain ⟨game', hsame, htransaction⟩ :=
        h.prepareRoundTransaction_eq defaults (hcalls call List.mem_cons_self)
      rw [prepareRounds, prepareRound, htransaction, List.map_cons]
      cases hwindow : roundWindow defaults game.settings game.hasApiHill (some row.endTimeUtc)
          call.now with
      | error error =>
          obtain ⟨hresults, hrounds⟩ := ih h hrest
          exact ⟨congrArg (_ :: ·) hresults, hrounds⟩
      | ok window =>
          obtain ⟨hresults, hrounds⟩ := ih (hsame.prepared h) fun a ha => by
            rw [hsame.checkAdvancement]
            exact hrest a ha
          rw [hsame.settings, hsame.hasApiHill, hsame.repairedRound] at hresults
          exact ⟨congrArg (_ :: ·) hresults, hrounds.trans hsame.rounds⟩

end Prepared

end Repair

section First

variable {game game₁ : EngineGame σ} {first : RoundCall} {round : AdvancedRound}

/-- The cursor of a caller which sees the latest round. -/
def EngineGame.cursor (game : EngineGame σ) : Option RoundCursor :=
  game.latestRound.map RoundRow.cursor

theorem number_lt_target {row : RoundRow} (hrow : row ∈ game.rounds) :
    row.number < targetNumber (game.cursor.map RoundCursor.identity) := by
  unfold EngineGame.cursor EngineGame.latestRound
  cases hlatest : latest (·.number) game.rounds with
  | none =>
      rw [latest_eq_none_iff.mp hlatest] at hrow
      simp at hrow
  | some last =>
      have hle := le_of_latest hlatest hrow
      simp only [Option.map_some, targetNumber, Option.getD_some, RoundRow.cursor,
        RoundCursor.identity]
      omega

/-- A caller which sees the latest round creates its successor. -/
theorem prepared_of_first (hfresh : game.FreshIds)
    (hfreeze : ∀ scoring number scoring', freezeScoring scoring number = .ok scoring' →
      freezeScoring scoring' number = .ok scoring')
    (h : prepareRoundTransaction defaults freezeScoring game game.cursor first =
      .ok (round, game₁)) :
    ∃ row, Prepared freezeScoring game₁ game.cursor row ∧
      round = { repairedRound game₁ row with created := true } ∧
      roundWindow defaults game.settings game.hasApiHill
        (game.latestRound.map (·.endTimeUtc)) first.now =
          .ok (row.startTimeUtc, row.endTimeUtc) ∧
      game₁.rounds.map RoundRow.window = game.rounds.map RoundRow.window ++ [row.window] ∧
      game₁.settings = game.settings ∧ game₁.challenges = game.challenges := by
  set expected := game.cursor with hexpected
  set target := targetNumber (expected.map RoundCursor.identity) with htarget
  unfold prepareRoundTransaction at h
  obtain ⟨_, -, h⟩ := bind_eq_ok_iff.mp h
  dsimp only at h
  split at h
  · simp at h
  obtain ⟨finalized, hfinalize, h⟩ := bind_eq_ok_iff.mp h
  obtain ⟨window, hplayed, h⟩ := bind_eq_ok_iff.mp h
  obtain ⟨hpipeline, rfl⟩ := finalizeExpected_eq_ok_iff.mp hfinalize
  set finalized := finalizedGame game expected first.now with hgame
  have hkept := finalizedGame_kept game expected first.now
  rw [← hgame] at hkept
  have hapi : finalized.hasApiHill = game.hasApiHill := by
    rw [EngineGame.hasApiHill, hkept.2.2, EngineGame.hasApiHill]
  rw [hkept.2.1, hapi] at hplayed
  have hnumbers : ∀ row ∈ finalized.rounds, row.number < target ∧ row.id < game.nextRoundId := by
    intro row hrow
    have hwindow : row.window ∈ game.rounds.map RoundRow.window := by
      rw [← map_window_finalizedGame game expected first.now]
      exact List.mem_map_of_mem hrow
    obtain ⟨original, horiginal, heq⟩ := List.mem_map.mp hwindow
    simp only [RoundRow.window, Prod.mk.injEq] at heq
    rw [← heq.1, ← heq.2.1]
    exact ⟨number_lt_target horiginal, hfresh original horiginal⟩
  have hfind : finalized.rounds.find? (·.number = target) = none := by
    refine List.find?_eq_none.mpr fun row hrow => ?_
    simpa using (hnumbers row hrow).1.ne
  have hinsert : insertRound finalized target window =
      (⟨finalized.nextRoundId, target, window.1, window.2, false, false⟩, true,
        { finalized with
          nextRoundId := finalized.nextRoundId + 1
          rounds := finalized.rounds
            ++ [⟨finalized.nextRoundId, target, window.1, window.2, false, false⟩] }) := by
    rw [insertRound, hfind]
  have htarget' : targetNumber (expected.map fun round => (round.id, round.number)) = target := rfl
  rw [htarget', hinsert] at h
  obtain ⟨scoring, hscoring, h⟩ := bind_eq_ok_iff.mp h
  set row : RoundRow := ⟨finalized.nextRoundId, target, window.1, window.2, false, false⟩ with hrow
  obtain ⟨rfl, rfl⟩ := Prod.mk.inj (pure_eq_ok_iff.mp h)
  have hexpectedId : ∀ c, expected = some c → c.id < row.id := by
    intro c hc
    rw [hexpected, EngineGame.cursor] at hc
    obtain ⟨last, hlast, rfl⟩ := Option.map_eq_some_iff.mp hc
    rw [hrow, hkept.1]
    exact hfresh last (mem_of_latest hlast)
  refine ⟨row, ?_, rfl, hplayed, ?_, hkept.2.1, hkept.2.2⟩
  · constructor
    · exact latest_append_singleton fun b hb => (hnumbers b hb).1
    · rfl
    · exact (List.find?_append ..).trans (by rw [hfind]; simp [hrow])
    · exact fun c hc => (hexpectedId c hc).ne
    · intro c hc
      obtain ⟨found, hfound, hdone⟩ := hpipeline.finalizedGame first.now c hc
      refine ⟨found, ?_, hdone⟩
      exact (List.find?_append ..).trans (by rw [← hgame] at hfound; rw [hfound]; rfl)
    · intro c hc
      change (finalized.rounds ++ [row]).map (finalizeRow c.id) = finalized.rounds ++ [row]
      have hinit : finalized.rounds.map (finalizeRow c.id) = finalized.rounds := by
        rw [hgame, hc]
        exact (List.map_map ..).trans
          (List.map_congr_left fun a _ => finalizeRow_finalizeRow c.id a)
      have hlast : finalizeRow c.id row = row := if_neg (hexpectedId c hc).ne'
      rw [List.map_append, hinit, List.map_singleton, hlast]
    · intro service hservice
      obtain ⟨added, hinsertFlags, -, hkeys, -⟩ := exists_insertNew FlagRow.key finalized.flags
        (finalized.services.map fun service =>
          (⟨row.id, service.id, first.generateFlag service.id⟩ : FlagRow))
      obtain ⟨flag, hflag, hkey⟩ := hkeys _ (List.mem_map_of_mem hservice)
      rw [← hinsertFlags] at hflag
      exact ⟨flag, hflag, hkey⟩
    · exact hfreeze _ _ _ hscoring
  · change (finalized.rounds ++ [row]).map RoundRow.window = _
    rw [List.map_append, map_window_finalizedGame]
    rfl

theorem latestRound_eq_getLast? (hpairwise : game.rounds.Pairwise fun row row' =>
    row.number < row'.number) : game.latestRound = game.rounds.getLast? := by
  unfold EngineGame.latestRound
  rcases List.eq_nil_or_concat game.rounds with hnil | ⟨rounds, last, hconcat⟩
  · rw [hnil]
    rfl
  · rw [hconcat, List.concat_eq_append, List.getLast?_concat]
    apply latest_append_singleton
    intro row hrow
    rw [hconcat, List.concat_eq_append] at hpairwise
    exact (List.pairwise_append.mp hpairwise).2.2 row hrow last List.mem_cons_self

/-- Round preparation continues the sequence of the rounds. -/
theorem roundSequence_of_first {eventEnd : ℤ} (hfresh : game.FreshIds)
    (hfreeze : ∀ scoring number scoring', freezeScoring scoring number = .ok scoring' →
      freezeScoring scoring' number = .ok scoring')
    (hdeadline : game.settings.endTimeUtc = eventEnd)
    (hsequence : RoundSequence eventEnd (game.rounds.map RoundRow.span))
    (h : prepareRoundTransaction defaults freezeScoring game game.cursor first =
      .ok (round, game₁)) :
    RoundSequence eventEnd (game₁.rounds.map RoundRow.span) := by
  obtain ⟨row, hprepared, -, hplayed, hwindows, -, -⟩ := prepared_of_first hfresh hfreeze h
  have hlatest : game.latestRound = game.rounds.getLast? :=
    latestRound_eq_getLast? ((List.pairwise_map.mp hsequence.pairwise).imp And.left)
  have hspans : game₁.rounds.map RoundRow.span =
      game.rounds.map RoundRow.span ++ [row.span] := by
    have hmap := congrArg (List.map fun window : ℤ × ℤ × ℤ × ℤ =>
      (⟨window.2.1, window.2.2.1, window.2.2.2⟩ : RoundSpan)) hwindows
    rw [List.map_append, List.map_map, List.map_map] at hmap
    exact hmap
  have hlast : (game.rounds.map RoundRow.span).getLast? = game.latestRound.map RoundRow.span := by
    rw [List.getLast?_map, hlatest]
  have hnumber : row.number =
      ((game.rounds.map RoundRow.span).getLast?.map (·.number + 1)).getD 1 := by
    rw [hprepared.number, hlast, EngineGame.cursor, targetNumber]
    simp only [Option.map_map]
    rfl
  have hend : (game.rounds.map RoundRow.span).getLast?.map (·.endsAt) =
      game.latestRound.map (·.endTimeUtc) := by
    rw [hlast, Option.map_map]
    rfl
  rw [← hend] at hplayed
  have hrow : row.span = ⟨((game.rounds.map RoundRow.span).getLast?.map (·.number + 1)).getD 1,
      row.startTimeUtc, row.endTimeUtc⟩ := by
    rw [← hnumber]
    rfl
  rw [hspans, hrow]
  exact .next hsequence hdeadline hplayed

end First

section Race

/-- A round which is still being played is no boundary for another one. -/
theorem roundWindow_of_lt {settings : GameSettings} {hasApiHill : Bool} {latestEnd now : ℤ}
    (h : now < latestEnd) (window : ℤ × ℤ) :
    roundWindow defaults settings hasApiHill (some latestEnd) now ≠ .ok window := by
  intro hwindow
  obtain ⟨hplayable, hdue⟩ := roundWindow_spec hwindow
  have hstart := hplayable.start
  simp only [Option.getD_some, seconds, roundSchedulerPollSeconds] at hstart
  omega

/-- **When racing calls repair the round of the winner.**  A caller which sees the latest
round creates its successor, and all the other calls have the same cursor.  They return
the round exactly when each of them comes after its window, at an instant at which the
window after it could be played; so none of them while the round is open. -/
theorem raceRepaired_iff (defaults : AdScoringConfig)
    (freezeScoring : σ → ℤ → Except AppError σ) (game : EngineGame σ) (first : RoundCall)
    (others : List RoundCall) (round : AdvancedRound) (game₁ : EngineGame σ)
    (hfresh : game.FreshIds)
    (hfreeze : ∀ scoring number scoring', freezeScoring scoring number = .ok scoring' →
      freezeScoring scoring' number = .ok scoring')
    (hfirst : prepareRoundTransaction defaults freezeScoring game game.cursor first =
      .ok (round, game₁))
    (hothers : ∀ call ∈ others,
      checkAdvancement game call.requiredNetworkBound call.now = .ok ()) :
    RaceRepaired defaults freezeScoring game game.cursor first others ↔
      ∀ call ∈ others, ∀ start finish,
        roundWindow defaults game.settings game.hasApiHill
          (game.latestRound.map (·.endTimeUtc)) first.now = .ok (start, finish) →
        finish ≤ call.now ∧ ∃ window,
          roundWindow defaults game.settings game.hasApiHill (some finish) call.now =
            .ok window := by
  obtain ⟨row, hprepared, hround, hplayed, hwindows, hsettings, hchallenges⟩ :=
    prepared_of_first hfresh hfreeze hfirst
  have hadmissible : ∀ call ∈ others,
      checkAdvancement game₁ call.requiredNetworkBound call.now = .ok () := by
    intro call hcall
    rw [← hothers call hcall, checkAdvancement, checkAdvancement, EngineGame.networkBound,
      EngineGame.networkBound, hsettings, hchallenges]
  have hapi : game₁.hasApiHill = game.hasApiHill := by
    rw [EngineGame.hasApiHill, hchallenges, EngineGame.hasApiHill]
  obtain ⟨hresults, hrounds⟩ := hprepared.prepareRounds_eq defaults hadmissible
  rw [hsettings, hapi] at hresults
  have hrepaired : repairedRound game₁ row = { round with created := false } := by
    rw [hround]
    rfl
  have hrun : prepareRounds defaults freezeScoring game game.cursor (first :: others) =
      (.ok round :: (prepareRounds defaults freezeScoring game₁ game.cursor others).1,
        (prepareRounds defaults freezeScoring game₁ game.cursor others).2) := by
    rw [prepareRounds, prepareRound, hfirst]
  have hiff : RaceRepaired defaults freezeScoring game game.cursor first others ↔
      others.map (fun call => (roundWindow defaults game.settings game.hasApiHill
        (some row.endTimeUtc) call.now).map fun _ => repairedRound game₁ row) =
        others.map fun _ => .ok { round with created := false } := by
    unfold RaceRepaired
    rw [hrun, hresults]
    constructor
    · rintro ⟨round', -, hlist, -⟩
      obtain ⟨hhead, htail⟩ := List.cons.inj hlist
      rw [← Except.ok.inj hhead] at htail
      exact htail
    · intro htail
      refine ⟨round, by rw [hround], congrArg (_ :: ·) htail, ?_⟩
      rw [hrounds, hwindows, RoundRow.window, hprepared.number, hround]
      rfl
  rw [hiff, List.map_inj_left, hplayed]
  refine forall₂_congr fun call _ => ?_
  have hcall : (∀ start finish, (Except.ok (row.startTimeUtc, row.endTimeUtc) :
      Except AppError (ℤ × ℤ)) = .ok (start, finish) → finish ≤ call.now ∧ ∃ window,
        roundWindow defaults game.settings game.hasApiHill (some finish) call.now = .ok window) ↔
      row.endTimeUtc ≤ call.now ∧ ∃ window, roundWindow defaults game.settings game.hasApiHill
        (some row.endTimeUtc) call.now = .ok window := by
    constructor
    · intro h
      exact h _ _ rfl
    · intro h start finish hwindow
      obtain ⟨-, rfl⟩ := Prod.mk.inj (Except.ok.inj hwindow)
      exact h
  rw [hcall]
  cases hwindow : roundWindow defaults game.settings game.hasApiHill (some row.endTimeUtc)
      call.now with
  | error error => simp [Except.map]
  | ok window =>
      have hdue : row.endTimeUtc ≤ call.now := not_lt.mp fun hlt =>
        roundWindow_of_lt hlt window hwindow
      simp [Except.map, hrepaired, hdue]

/-- A game of one hour with rounds of one minute and no services. -/
def minuteGame : EngineGame Unit where
  settings := ⟨some 60, some 0, some 3, 0, seconds 3600, false⟩
  challenges := [⟨1, .attackDefense, false, false⟩]
  services := []
  rounds := []
  nextRoundId := 1
  flags := []
  checkResults := []
  scoring := ()

def minuteCall (now : ℤ) : RoundCall := ⟨none, seconds now, fun _ => ""⟩

/-- A second scheduler which prepares round 1 a second after the first one gets an
error. -/
theorem not_raceRepaired_minuteGame :
    ¬RaceRepaired ⟨60, 0⟩ (fun scoring _ => .ok scoring) minuteGame none (minuteCall 0)
      [minuteCall 1] := by
  rintro ⟨round, -, hresults, -⟩
  have hsecond := congrArg (·.drop 1) hresults
  have hrun : (prepareRounds ⟨60, 0⟩ (fun scoring _ => .ok scoring) minuteGame none
      [minuteCall 0, minuteCall 1]).1.drop 1 =
      [.error (.conflict "The next round boundary is not due")] := by decide +kernel
  rw [hrun] at hsecond
  simp at hsecond

/-- A second call right after the minute of round 1 returns round 1. -/
theorem raceRepaired_iff_minuteGame :
    RaceRepaired ⟨60, 0⟩ (fun scoring _ => .ok scoring) minuteGame minuteGame.cursor
      (minuteCall 0) [minuteCall 61] := by
  have hfirst : prepareRoundTransaction ⟨60, 0⟩ (fun scoring _ => .ok scoring) minuteGame
      minuteGame.cursor (minuteCall 0) =
      .ok (⟨1, 1, 0, seconds 60, true, []⟩,
        { minuteGame with
          rounds := [⟨1, 1, 0, seconds 60, false, false⟩]
          nextRoundId := 2 }) := by rfl
  refine (raceRepaired_iff ⟨60, 0⟩ (fun scoring _ => .ok scoring) minuteGame (minuteCall 0)
    [minuteCall 61] _ _ (by simp [EngineGame.FreshIds, minuteGame]) (fun _ _ _ _ => rfl) hfirst
    (fun call hcall => by
      rw [List.mem_singleton.mp hcall]
      rfl)).mpr ?_
  intro call hcall start finish hwindow
  have hfirstWindow : roundWindow ⟨60, 0⟩ minuteGame.settings minuteGame.hasApiHill
      (minuteGame.latestRound.map (·.endTimeUtc)) (minuteCall 0).now = .ok (0, seconds 60) := by
    rfl
  obtain ⟨rfl, rfl⟩ := Prod.mk.inj (Except.ok.inj (hwindow.symm.trans hfirstWindow))
  rw [List.mem_singleton.mp hcall]
  exact ⟨by decide, (seconds 60, seconds 120), by rfl⟩

end Race

end Engine

end Rsctf
