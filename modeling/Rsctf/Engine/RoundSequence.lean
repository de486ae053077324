import Mathlib.Data.List.Chain
import Rsctf.Engine.Rounds

/-!
# Sequences of rounds

Every round begins at the end of the round before it, or, when the scheduler is late by
more than one poll interval, at the instant of its preparation.  So the rounds of an event
are disjoint, and they leave a gap exactly in front of a round which was started afresh.
-/

namespace Rsctf

namespace Engine

section RoundWindow

variable {defaults : AdScoringConfig} {settings : GameSettings} {hasApiHill : Bool}
  {latestEnd : Option ℤ} {now : ℤ} {window nominal : ℤ × ℤ}

theorem authoritativeRoundWindow_start {gameStart gameEnd warmup tick : ℤ}
    (h : authoritativeRoundWindow gameStart gameEnd warmup tick latestEnd = some nominal) :
    nominal.1 = latestEnd.getD (gameStart + seconds warmup) := by
  unfold authoritativeRoundWindow at h
  split at h
  · simp at h
  · dsimp only at h
    split at h
    · simp at h
    · rw [← Option.some.inj h]

theorem absorbShortTerminalTail_le {roundEnd eventEnd minimumDuration : ℤ}
    (h : roundEnd ≤ eventEnd) :
    absorbShortTerminalTail roundEnd eventEnd minimumDuration ≤ eventEnd := by
  unfold absorbShortTerminalTail
  dsimp only
  split
  · exact le_refl eventEnd
  · exact h

/-- What a playable window is: it starts at the nominal instant or afresh, and it lasts as
long as a round has to. -/
structure Playable (nominalStart eventEnd minimumDuration now : ℤ) (window : ℤ × ℤ) : Prop where
  start : window.1 = nominalStart ∨
    window.1 = now ∧ nominalStart + seconds (roundSchedulerPollSeconds + 1) < now
  lt : window.1 < window.2
  le : window.2 ≤ eventEnd
  duration : seconds (max minimumDuration 1) ≤ window.2 - window.1

theorem playableRoundWindow_spec {eventEnd tick minimumDuration : ℤ} {reanchored : Bool}
    (h : playableRoundWindow nominal eventEnd tick now minimumDuration =
      some (window.1, window.2, reanchored)) :
    Playable nominal.1 eventEnd minimumDuration now window := by
  unfold playableRoundWindow at h
  by_cases hlate : seconds (roundSchedulerPollSeconds + 1) < now - nominal.1
  · simp only [hlate, decide_true, if_true, Option.ite_none_right_eq_some, Option.some.injEq,
      Prod.mk.injEq] at h
    obtain ⟨hplayable, hstart, hfinish, -⟩ := h
    rw [hfinish, hstart] at hplayable
    refine ⟨.inr ⟨hstart.symm, by omega⟩, hplayable.1, ?_, hplayable.2⟩
    rw [← hfinish]
    exact absorbShortTerminalTail_le (min_le_right _ _)
  · simp only [hlate, decide_false, if_false, Option.ite_none_right_eq_some,
      Option.some.injEq, Prod.mk.injEq] at h
    obtain ⟨hplayable, hstart, hfinish, -⟩ := h
    rw [hfinish, hstart] at hplayable
    refine ⟨.inl hstart.symm, hplayable.1, ?_, hplayable.2⟩
    rw [← hfinish]
    exact absorbShortTerminalTail_le (min_le_right _ _)

/-- A round which is prepared has a playable window, and it has begun. -/
theorem roundWindow_spec
    (h : roundWindow defaults settings hasApiHill latestEnd now = .ok window) :
    Playable (latestEnd.getD (settings.startTimeUtc + seconds (settings.warmupSeconds defaults)))
        settings.endTimeUtc (settings.minimumDurationSeconds hasApiHill) now window ∧
      window.1 ≤ now := by
  unfold roundWindow at h
  cases hnominal : authoritativeRoundWindow settings.startTimeUtc settings.endTimeUtc
      (settings.warmupSeconds defaults) (settings.tickSeconds defaults) latestEnd with
  | none => simp [hnominal] at h
  | some nominal =>
      rw [hnominal] at h
      dsimp only at h
      cases hplayable : playableRoundWindow nominal settings.endTimeUtc
          (settings.tickSeconds defaults) now (settings.minimumDurationSeconds hasApiHill) with
      | none => simp [hplayable] at h
      | some playable =>
          obtain ⟨start, finish, reanchored⟩ := playable
          rw [hplayable] at h
          dsimp only at h
          split at h
          · simp at h
          · next hdue =>
              obtain rfl := Except.ok.inj h
              rw [← authoritativeRoundWindow_start hnominal]
              exact ⟨playableRoundWindow_spec hplayable, not_lt.mp hdue⟩

end RoundWindow

/-- Number and window of a round. -/
structure RoundSpan where
  number : ℤ
  startsAt : ℤ
  endsAt : ℤ
deriving DecidableEq, Repr

def RoundRow.span (row : RoundRow) : RoundSpan := ⟨row.number, row.startTimeUtc, row.endTimeUtc⟩

/-- The rounds which round preparation produces, one after the other.  Settings other than
the end of the event may change between two rounds. -/
inductive RoundSequence (eventEnd : ℤ) : List RoundSpan → Prop
  | nil : RoundSequence eventEnd []
  | next {spans : List RoundSpan} {defaults : AdScoringConfig} {settings : GameSettings}
      {hasApiHill : Bool} {now : ℤ} {window : ℤ × ℤ} (before : RoundSequence eventEnd spans)
      (deadline : settings.endTimeUtc = eventEnd)
      (prepared : roundWindow defaults settings hasApiHill (spans.getLast?.map (·.endsAt)) now =
        .ok window) :
      RoundSequence eventEnd
        (spans ++ [⟨(spans.getLast?.map (·.number + 1)).getD 1, window.1, window.2⟩])

namespace RoundSequence

/-- One round comes before another one. -/
def Precedes (span span' : RoundSpan) : Prop :=
  span.number < span'.number ∧ span.endsAt ≤ span'.startsAt

/-- The next round continues a round or was started afresh. -/
def Continues (span span' : RoundSpan) : Prop :=
  span'.startsAt = span.endsAt ∨
    span.endsAt + seconds (roundSchedulerPollSeconds + 1) < span'.startsAt

variable {eventEnd : ℤ} {spans : List RoundSpan}

/-- Every round is part of the event, and it comes no later than the last one. -/
theorem bounds (h : RoundSequence eventEnd spans) :
    ∀ span ∈ spans, 1 ≤ span.number ∧ span.startsAt < span.endsAt ∧ span.endsAt ≤ eventEnd ∧
      ∃ last, spans.getLast? = some last ∧ span.number ≤ last.number ∧
        span.endsAt ≤ last.endsAt := by
  induction h with
  | nil => simp
  | @next spans defaults settings hasApiHill now window before deadline prepared ih =>
      obtain ⟨hplayable, -⟩ := roundWindow_spec prepared
      rw [deadline] at hplayable
      have hlt := hplayable.lt
      intro span hspan
      rw [List.getLast?_append_of_ne_nil _ (by simp), List.getLast?_singleton]
      rcases List.mem_append.mp hspan with hspan | hspan
      · obtain ⟨hnumber, hspanLt, hspanLe, last, hlast, hlastNumber, hlastEnd⟩ := ih span hspan
        refine ⟨hnumber, hspanLt, hspanLe, _, rfl, ?_, ?_⟩
        · rw [hlast]
          simp only [Option.map_some, Option.getD_some]
          omega
        · have hstart := hplayable.start
          simp only [hlast, Option.map_some, Option.getD_some, seconds,
            roundSchedulerPollSeconds] at hstart
          simp only
          omega
      · rw [List.mem_singleton.mp hspan]
        refine ⟨?_, hplayable.lt, hplayable.le, _, rfl, le_refl _, le_refl _⟩
        cases hlast : spans.getLast? with
        | none => simp
        | some last =>
            have hnumber := (ih last (List.mem_of_getLast? hlast)).1
            simp only [Option.map_some, Option.getD_some]
            omega

theorem pairwise (h : RoundSequence eventEnd spans) : spans.Pairwise Precedes := by
  induction h with
  | nil => exact .nil
  | @next spans defaults settings hasApiHill now window before deadline prepared ih =>
      have hstart := (roundWindow_spec prepared).1.start
      refine List.pairwise_append.mpr ⟨ih, List.pairwise_singleton _ _, ?_⟩
      intro span hspan span' hspan'
      obtain ⟨-, -, -, last, hlast, hnumber, hend⟩ := before.bounds span hspan
      rw [List.mem_singleton.mp hspan', hlast]
      simp only [hlast, Option.map_some, Option.getD_some, seconds,
        roundSchedulerPollSeconds] at hstart
      simp only [Precedes, Option.map_some, Option.getD_some]
      omega

theorem isChain (h : RoundSequence eventEnd spans) : spans.IsChain Continues := by
  induction h with
  | nil => exact .nil
  | @next spans defaults settings hasApiHill now window before deadline prepared ih =>
      have hstart := (roundWindow_spec prepared).1.start
      refine List.isChain_append.mpr ⟨ih, .singleton _, ?_⟩
      intro last hlast span hspan
      rw [Option.mem_def] at hlast
      rw [List.head?_cons, Option.mem_def] at hspan
      rw [← Option.some.inj hspan, Continues]
      rw [hlast, Option.map_some, Option.getD_some] at hstart
      rcases hstart with hstart | ⟨hstart, hlate⟩
      · exact .inl hstart
      · rw [← hstart] at hlate
        exact .inr hlate

end RoundSequence

end Engine

end Rsctf
