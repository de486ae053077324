import Rsctf.Data.Fallible
import Rsctf.Engine.RoundSequence

/-!
# The windows of an event

Round preparation is called at arbitrary instants.  Whatever these are, the windows it makes
are disjoint parts of the event, none is too short to be played, and so is nothing that is
left over.  When no call is late, the windows fill the event after its warm-up.
-/

open Guarded

namespace Rsctf

namespace Engine

/-- The rhythm of an event, as round preparation reads it from the settings. -/
structure RoundPlan where
  gameStart : ℤ
  gameEnd : ℤ
  warmupSeconds : ℤ
  tickSeconds : ℤ
  minimumDurationSeconds : ℤ
  warmup_nonneg : 0 ≤ warmupSeconds
  minimum_pos : 1 ≤ minimumDurationSeconds

namespace RoundPlan

variable (plan : RoundPlan)

def warmupEnd : ℤ := plan.gameStart + seconds plan.warmupSeconds

/-- The window which is inserted at `now` after a round with the given end. -/
def nextWindow (latestEnd : Option ℤ) (now : ℤ) : Option (ℤ × ℤ) :=
  match authoritativeRoundWindow plan.gameStart plan.gameEnd plan.warmupSeconds plan.tickSeconds
      latestEnd with
  | none => none
  | some nominal =>
    match playableRoundWindow nominal plan.gameEnd plan.tickSeconds now
        plan.minimumDurationSeconds with
    | none => none
    | some (start, finish, _) => if now < start then none else some (start, finish)

/-- One call of round preparation. -/
def prepare (windows : List (ℤ × ℤ)) (now : ℤ) : List (ℤ × ℤ) :=
  match plan.nextWindow (windows.getLast?.map Prod.snd) now with
  | none => windows
  | some window => windows ++ [window]

/-- The windows after calls at the given instants. -/
def windows (nows : List ℤ) : List (ℤ × ℤ) := nows.foldl plan.prepare []

/-- The end of the last window, or of the warm-up. -/
def reached (windows : List (ℤ × ℤ)) : ℤ :=
  (windows.getLast?.map Prod.snd).getD plan.warmupEnd

/-- No call is later than an ordinary poll after the end it waits for. -/
def PromptFrom (windows : List (ℤ × ℤ)) : List ℤ → Prop
  | [] => True
  | now :: nows =>
    (plan.reached windows ≤ now ∧
      now ≤ plan.reached windows + seconds (roundSchedulerPollSeconds + 1)) ∧
    PromptFrom (plan.prepare windows now) nows

def Prompt (nows : List ℤ) : Prop := plan.PromptFrom [] nows

/-- Disjoint playable parts of the event, and nothing unplayable is left after any of them. -/
structure Playable (windows : List (ℤ × ℤ)) : Prop where
  disjoint : windows.Pairwise fun window later => window.2 ≤ later.1
  starts : ∀ window ∈ windows, plan.warmupEnd ≤ window.1
  ends : ∀ window ∈ windows, window.2 ≤ plan.gameEnd
  lasts : ∀ window ∈ windows, seconds plan.minimumDurationSeconds ≤ window.2 - window.1
  tail : ∀ window ∈ windows, plan.gameEnd - window.2 = 0 ∨
    seconds plan.minimumDurationSeconds ≤ plan.gameEnd - window.2

/-- The windows fill the time after the warm-up, and as many calls as the event has minimum
durations reach its end. -/
structure Tiling (calls : ℕ) (windows : List (ℤ × ℤ)) : Prop where
  first : ∀ window ∈ windows.head?, window.1 = plan.warmupEnd
  consecutive : windows.IsChain fun window next => next.1 = window.2
  covers : ∀ t, (∃ window ∈ windows, window.1 ≤ t ∧ t < window.2) ↔
    plan.warmupEnd ≤ t ∧ t < plan.reached windows
  proceeds : windows.length = calls ∨ plan.reached windows = plan.gameEnd
  reaches : plan.gameEnd - plan.warmupEnd ≤ calls * seconds plan.minimumDurationSeconds →
    plan.reached windows = plan.gameEnd

variable {plan} {latestEnd : Option ℤ} {now : ℤ} {nominal window : ℤ × ℤ}
  {windows : List (ℤ × ℤ)}

theorem max_minimum : max plan.minimumDurationSeconds 1 = plan.minimumDurationSeconds :=
  max_eq_left plan.minimum_pos

theorem seconds_minimum_pos : 0 < seconds plan.minimumDurationSeconds := by
  have h := plan.minimum_pos
  unfold seconds
  omega

theorem absorbShortTerminalTail_tail {roundEnd eventEnd minimumDuration : ℤ}
    (h : roundEnd ≤ eventEnd) :
    let finish := absorbShortTerminalTail roundEnd eventEnd minimumDuration
    eventEnd - finish = 0 ∨ seconds (max minimumDuration 1) ≤ eventEnd - finish := by
  unfold absorbShortTerminalTail
  dsimp only
  split <;> omega

theorem playableRoundWindow_tail {eventEnd tick minimumDuration : ℤ} {reanchored : Bool}
    (h : playableRoundWindow nominal eventEnd tick now minimumDuration =
      some (window.1, window.2, reanchored)) :
    eventEnd - window.2 = 0 ∨ seconds (max minimumDuration 1) ≤ eventEnd - window.2 := by
  unfold playableRoundWindow at h
  dsimp only at h
  rw [Option.ite_none_right_eq_some] at h
  obtain ⟨-, h⟩ := h
  simp only [Option.some.injEq, Prod.mk.injEq] at h
  rw [← h.2.1]
  apply absorbShortTerminalTail_tail
  split <;> exact min_le_right _ _

theorem nextWindow_eq_some_iff : plan.nextWindow latestEnd now = some window ↔
    ∃ nominal reanchored,
      authoritativeRoundWindow plan.gameStart plan.gameEnd plan.warmupSeconds plan.tickSeconds
        latestEnd = some nominal ∧
      playableRoundWindow nominal plan.gameEnd plan.tickSeconds now plan.minimumDurationSeconds =
        some (window.1, window.2, reanchored) ∧ window.1 ≤ now := by
  unfold nextWindow
  constructor
  · intro h
    split at h
    · simp at h
    · next nominal hnominal =>
        split at h
        · simp at h
        · next start finish reanchored hplayable =>
            split at h
            · simp at h
            · next hdue =>
                obtain rfl := Option.some.inj h
                exact ⟨nominal, reanchored, hnominal, hplayable, not_lt.mp hdue⟩
  · rintro ⟨nominal, reanchored, hnominal, hplayable, hdue⟩
    simp [hnominal, hplayable, hdue]

/-- What an inserted window is. -/
theorem nextWindow_spec (h : plan.nextWindow latestEnd now = some window) :
    latestEnd.getD plan.warmupEnd ≤ window.1 ∧ window.2 ≤ plan.gameEnd ∧
      seconds plan.minimumDurationSeconds ≤ window.2 - window.1 ∧
      (plan.gameEnd - window.2 = 0 ∨
        seconds plan.minimumDurationSeconds ≤ plan.gameEnd - window.2) := by
  obtain ⟨nominal, reanchored, hnominal, hplayable, -⟩ := nextWindow_eq_some_iff.mp h
  have hspec := playableRoundWindow_spec hplayable
  have htail := playableRoundWindow_tail hplayable
  have hduration := hspec.duration
  rw [max_minimum] at htail hduration
  refine ⟨?_, hspec.le, hduration, htail⟩
  have hstart := hspec.start
  rw [authoritativeRoundWindow_start hnominal] at hstart
  change latestEnd.getD (plan.gameStart + seconds plan.warmupSeconds) ≤ window.1
  simp only [seconds, roundSchedulerPollSeconds] at hstart ⊢
  omega

theorem reached_append : plan.reached (windows ++ [window]) = window.2 := by
  simp [reached]

theorem Playable.le_reached (h : plan.Playable windows) (hwindow : window ∈ windows) :
    window.2 ≤ plan.reached windows := by
  obtain ⟨l, last, rfl⟩ := (List.eq_nil_or_concat' windows).resolve_left
    (List.ne_nil_of_mem hwindow)
  rw [reached_append]
  rcases List.mem_append.mp hwindow with hbefore | hlast
  · have hle := (List.pairwise_append.mp h.disjoint).2.2 window hbefore last (by simp)
    have hlasts := h.lasts last (by simp)
    have hpos := plan.seconds_minimum_pos
    omega
  · rw [List.mem_singleton.mp hlast]

theorem Playable.warmupEnd_le_reached (h : plan.Playable windows) :
    plan.warmupEnd ≤ plan.reached windows := by
  cases hlast : windows.getLast? with
  | none => simp [reached, hlast]
  | some last =>
      have hmem := List.mem_of_getLast? hlast
      have hstarts := h.starts last hmem
      have hlasts := h.lasts last hmem
      have hpos := plan.seconds_minimum_pos
      simp only [reached, hlast, Option.map_some, Option.getD_some]
      omega

/-- Round preparation keeps the windows playable. -/
theorem Playable.prepare (h : plan.Playable windows) (now : ℤ) :
    plan.Playable (plan.prepare windows now) := by
  unfold RoundPlan.prepare
  cases hnext : plan.nextWindow (windows.getLast?.map Prod.snd) now with
  | none => exact h
  | some window =>
      obtain ⟨hstart, hend, hlasts, htail⟩ := nextWindow_spec hnext
      have hreached := h.warmupEnd_le_reached
      change plan.reached windows ≤ window.1 at hstart
      have hall : ∀ {P : ℤ × ℤ → Prop}, (∀ w ∈ windows, P w) → P window →
          ∀ w ∈ windows ++ [window], P w := by
        intro P hwindows hwindow w hw
        rcases List.mem_append.mp hw with hw | hw
        · exact hwindows w hw
        · exact List.mem_singleton.mp hw ▸ hwindow
      refine ⟨?_, hall h.starts (hreached.trans hstart), hall h.ends hend, hall h.lasts hlasts,
        hall h.tail htail⟩
      refine List.pairwise_append.mpr ⟨h.disjoint, List.pairwise_singleton _ _, ?_⟩
      intro w hw w' hw'
      rw [List.mem_singleton.mp hw']
      exact (h.le_reached hw).trans hstart

theorem playable_nil : plan.Playable [] := by
  constructor <;> simp

theorem playable_windows (nows : List ℤ) : plan.Playable (plan.windows nows) :=
  List.foldlRecOn (motive := plan.Playable) nows plan.prepare playable_nil
    fun _ h now _ => h.prepare now

/-- A prompt call continues the windows while a playable part of the event is left. -/
theorem nextWindow_of_prompt (htick : plan.minimumDurationSeconds ≤ plan.tickSeconds)
    (hgame : plan.gameStart < plan.gameEnd)
    (hfit : seconds plan.minimumDurationSeconds ≤ plan.gameEnd - plan.reached windows)
    (hdue : plan.reached windows ≤ now)
    (hprompt : now ≤ plan.reached windows + seconds (roundSchedulerPollSeconds + 1)) :
    ∃ finish, plan.nextWindow (windows.getLast?.map Prod.snd) now =
      some (plan.reached windows, finish) := by
  set start := plan.reached windows
  have hpos := plan.seconds_minimum_pos
  have hnominal : authoritativeRoundWindow plan.gameStart plan.gameEnd plan.warmupSeconds
      plan.tickSeconds (windows.getLast?.map Prod.snd) =
        some (start, min (start + seconds plan.tickSeconds) plan.gameEnd) := by
    have hguard : ¬(plan.warmupSeconds < 0 ∨ plan.tickSeconds ≤ 0 ∨
        plan.gameEnd ≤ plan.gameStart) := by
      have hwarmup := plan.warmup_nonneg
      have hminimum := plan.minimum_pos
      omega
    have hleft : ¬plan.gameEnd ≤ start := by omega
    unfold authoritativeRoundWindow
    rw [if_neg hguard]
    exact if_neg hleft
  -- the nominal end is a minimum duration away, and absorbing a tail only moves it further
  have hfinish : seconds plan.minimumDurationSeconds ≤
      absorbShortTerminalTail (min (start + seconds plan.tickSeconds) plan.gameEnd) plan.gameEnd
        plan.minimumDurationSeconds - start := by
    have htick' : seconds plan.minimumDurationSeconds ≤ seconds plan.tickSeconds := by
      simp only [seconds]
      omega
    unfold absorbShortTerminalTail
    dsimp only
    split <;> omega
  have hplayable : playableRoundWindow (start, min (start + seconds plan.tickSeconds) plan.gameEnd)
      plan.gameEnd plan.tickSeconds now plan.minimumDurationSeconds =
        some (start, absorbShortTerminalTail (min (start + seconds plan.tickSeconds) plan.gameEnd)
          plan.gameEnd plan.minimumDurationSeconds, false) := by
    have hlate : ¬seconds (roundSchedulerPollSeconds + 1) < now - start := by omega
    simp only [playableRoundWindow, hlate, decide_false, if_false,
      max_minimum, min_assoc, min_self]
    exact if_pos ⟨by omega, hfinish⟩
  exact ⟨_, nextWindow_eq_some_iff.mpr ⟨_, false, hnominal, hplayable, hdue⟩⟩

theorem Playable.reached_le (h : plan.Playable windows)
    (hevent : plan.warmupEnd ≤ plan.gameEnd) : plan.reached windows ≤ plan.gameEnd := by
  cases hlast : windows.getLast? with
  | none => simpa [reached, hlast] using hevent
  | some last => simpa [reached, hlast] using h.ends last (List.mem_of_getLast? hlast)

/-- Either the event is full, or a playable part of it is left. -/
theorem Playable.rest (h : plan.Playable windows)
    (hfit : seconds plan.minimumDurationSeconds ≤ plan.gameEnd - plan.warmupEnd) :
    plan.reached windows = plan.gameEnd ∨
      seconds plan.minimumDurationSeconds ≤ plan.gameEnd - plan.reached windows := by
  cases hlast : windows.getLast? with
  | none => exact .inr (by simpa [reached, hlast] using hfit)
  | some last =>
      have htail := h.tail last (List.mem_of_getLast? hlast)
      simp only [reached, hlast, Option.map_some, Option.getD_some]
      omega

/-- Nothing follows the end of the event. -/
theorem nextWindow_of_full (hfull : plan.reached windows = plan.gameEnd) :
    plan.nextWindow (windows.getLast?.map Prod.snd) now = none := by
  cases hnext : plan.nextWindow (windows.getLast?.map Prod.snd) now with
  | none => rfl
  | some window =>
      obtain ⟨hstart, hend, hlasts, -⟩ := nextWindow_spec hnext
      change plan.reached windows ≤ window.1 at hstart
      have hpos := plan.seconds_minimum_pos
      omega

/-- The windows continue each other from the end of the warm-up, one for every call. -/
structure Continued (plan : RoundPlan) (calls : ℕ) (windows : List (ℤ × ℤ)) : Prop where
  playable : plan.Playable windows
  first : ∀ window ∈ windows.head?, window.1 = plan.warmupEnd
  consecutive : windows.IsChain fun window next => next.1 = window.2
  covers : ∀ t, (∃ window ∈ windows, window.1 ≤ t ∧ t < window.2) ↔
    plan.warmupEnd ≤ t ∧ t < plan.reached windows
  lengths : windows.length * seconds plan.minimumDurationSeconds ≤
    plan.reached windows - plan.warmupEnd
  proceeds : windows.length = calls ∨ plan.reached windows = plan.gameEnd

theorem continued_nil : plan.Continued 0 [] where
  playable := playable_nil
  first := by simp
  consecutive := .nil
  covers := by simp [reached]
  lengths := by simp [reached]
  proceeds := .inl rfl

theorem Continued.append {calls : ℕ} (h : plan.Continued calls windows)
    (hplayable : plan.Playable (windows ++ [window])) (hlength : windows.length = calls)
    (hstart : window.1 = plan.reached windows)
    (hlasts : seconds plan.minimumDurationSeconds ≤ window.2 - window.1) :
    plan.Continued (calls + 1) (windows ++ [window]) where
  playable := hplayable
  first := by
    cases windows with
    | nil => simpa [reached] using hstart
    | cons w l => simpa using h.first
  consecutive := by
    refine List.isChain_append.mpr ⟨h.consecutive, .singleton _, ?_⟩
    intro last hlast next hnext
    rw [List.head?_cons, Option.mem_def] at hnext
    rw [← Option.some.inj hnext, hstart, reached, Option.mem_def.mp hlast]
    rfl
  covers := by
    intro t
    have hpos := plan.seconds_minimum_pos
    have hreached := h.playable.warmupEnd_le_reached
    have hbefore := h.covers t
    rw [reached_append]
    constructor
    · rintro ⟨w, hw, ht⟩
      rcases List.mem_append.mp hw with hw | hw
      · have hin := hbefore.mp ⟨w, hw, ht⟩
        omega
      · rw [List.mem_singleton.mp hw] at ht
        omega
    · intro ht
      by_cases hold : t < plan.reached windows
      · obtain ⟨w, hw, hin⟩ := hbefore.mpr ⟨ht.1, hold⟩
        exact ⟨w, List.mem_append_left _ hw, hin⟩
      · exact ⟨window, by simp, by omega, ht.2⟩
  lengths := by
    have hlengths := h.lengths
    rw [reached_append, List.length_append, List.length_singleton, Nat.cast_add, Nat.cast_one,
      add_mul, one_mul]
    omega
  proceeds := by simp [hlength]

/-- What one prompt call does. -/
theorem Continued.prepare {calls : ℕ} (h : plan.Continued calls windows)
    (htick : plan.minimumDurationSeconds ≤ plan.tickSeconds)
    (hfit : seconds plan.minimumDurationSeconds ≤ plan.gameEnd - plan.warmupEnd)
    (hdue : plan.reached windows ≤ now)
    (hprompt : now ≤ plan.reached windows + seconds (roundSchedulerPollSeconds + 1)) :
    plan.Continued (calls + 1) (plan.prepare windows now) := by
  have hplayable := h.playable.prepare now
  rcases h.playable.rest hfit with hfull | hrest
  · unfold RoundPlan.prepare
    rw [nextWindow_of_full hfull]
    exact ⟨h.playable, h.first, h.consecutive, h.covers, h.lengths, .inr hfull⟩
  · have hgame : plan.gameStart < plan.gameEnd := by
      have hwarmup := plan.warmup_nonneg
      have hpos := plan.seconds_minimum_pos
      simp only [warmupEnd, seconds] at hfit hpos
      omega
    have hlength : windows.length = calls := by
      refine h.proceeds.resolve_right fun hfull => ?_
      have hpos := plan.seconds_minimum_pos
      omega
    obtain ⟨finish, hnext⟩ := nextWindow_of_prompt htick hgame hrest hdue hprompt
    obtain ⟨-, -, hlasts, -⟩ := nextWindow_spec hnext
    unfold RoundPlan.prepare at hplayable ⊢
    rw [hnext] at hplayable ⊢
    exact h.append hplayable hlength rfl hlasts

theorem Continued.run {calls : ℕ} (h : plan.Continued calls windows)
    (htick : plan.minimumDurationSeconds ≤ plan.tickSeconds)
    (hfit : seconds plan.minimumDurationSeconds ≤ plan.gameEnd - plan.warmupEnd)
    {nows : List ℤ} (hprompt : plan.PromptFrom windows nows) :
    plan.Continued (calls + nows.length) (nows.foldl plan.prepare windows) := by
  induction nows generalizing windows calls with
  | nil => exact h
  | cons now nows ih =>
      obtain ⟨⟨hdue, hnow⟩, hnows⟩ := hprompt
      have hrun := ih (h.prepare htick hfit hdue hnow) hnows
      rwa [add_assoc, add_comm 1] at hrun

theorem Continued.tiling {calls : ℕ} (h : plan.Continued calls windows)
    (hfit : seconds plan.minimumDurationSeconds ≤ plan.gameEnd - plan.warmupEnd) :
    plan.Tiling calls windows where
  first := h.first
  consecutive := h.consecutive
  covers := h.covers
  proceeds := h.proceeds
  reaches := by
    intro hcalls
    refine h.proceeds.elim (fun hlength => ?_) id
    have hlengths := h.lengths
    have hpos := plan.seconds_minimum_pos
    have hle := h.playable.reached_le (by omega)
    rw [hlength] at hlengths
    omega

/-- The windows of an event are playable parts of it, and prompt calls leave no gap. -/
theorem windows_tile (plan : RoundPlan) (nows : List ℤ) : plan.Playable (plan.windows nows) ∧
    (plan.minimumDurationSeconds ≤ plan.tickSeconds →
      seconds plan.minimumDurationSeconds ≤ plan.gameEnd - plan.warmupEnd →
      plan.Prompt nows → plan.Tiling nows.length (plan.windows nows)) := by
  refine ⟨playable_windows nows, fun htick hfit hprompt => ?_⟩
  have hrun := continued_nil.run htick hfit hprompt
  rw [Nat.zero_add] at hrun
  exact hrun.tiling hfit

/-- An event of a hundred seconds with a warm-up of ten. -/
def shortEvent : RoundPlan := ⟨0, seconds 100, 10, 30, 21, by decide, by decide⟩

theorem windows_tile_short : shortEvent.Playable
      (shortEvent.windows [seconds 11, seconds 40, seconds 76]) ∧
    shortEvent.Tiling 3 (shortEvent.windows [seconds 11, seconds 40, seconds 76]) :=
  ⟨(windows_tile shortEvent [seconds 11, seconds 40, seconds 76]).1,
    (windows_tile shortEvent [seconds 11, seconds 40, seconds 76]).2 (by decide) (by decide)
      ⟨by decide, by decide, by decide, trivial⟩⟩

end RoundPlan

theorem minimumRoundDurationSeconds_pos {graceSeconds : ℤ} (h : 1 ≤ graceSeconds)
    (hasApiHill : Bool) : 1 ≤ minimumRoundDurationSeconds graceSeconds hasApiHill := by
  simp only [minimumRoundDurationSeconds, flagDeliveryPublicationReserveSeconds,
    checkerMinimumRunwaySeconds, checkerSchedulerOuterMarginSeconds, apiWaveSettlementLagSeconds]
  split <;> omega

theorem GameSettings.warmupSeconds_nonneg (settings : GameSettings) (defaults : AdScoringConfig) :
    0 ≤ settings.warmupSeconds defaults := by
  unfold GameSettings.warmupSeconds
  cases hwarmup : settings.adWarmupSeconds.filter fun seconds => 0 ≤ seconds with
  | none => simp
  | some warmup =>
      have h := (Option.filter_eq_some_iff.mp hwarmup).2
      exact of_decide_eq_true h

/-- The plan of a game. -/
def GameSettings.plan (settings : GameSettings) (defaults : AdScoringConfig)
    (hasApiHill : Bool) : RoundPlan where
  gameStart := settings.startTimeUtc
  gameEnd := settings.endTimeUtc
  warmupSeconds := settings.warmupSeconds defaults
  tickSeconds := settings.tickSeconds defaults
  minimumDurationSeconds := settings.minimumDurationSeconds hasApiHill
  warmup_nonneg := settings.warmupSeconds_nonneg defaults
  minimum_pos := minimumRoundDurationSeconds_pos (low_le_clamp _ _ _) hasApiHill

/-- The transaction inserts the windows of the plan. -/
theorem roundWindow_eq_ok_iff {defaults : AdScoringConfig} {settings : GameSettings}
    {hasApiHill : Bool} {latestEnd : Option ℤ} {now : ℤ} {window : ℤ × ℤ} :
    roundWindow defaults settings hasApiHill latestEnd now = .ok window ↔
      (settings.plan defaults hasApiHill).nextWindow latestEnd now = some window := by
  unfold roundWindow RoundPlan.nextWindow GameSettings.plan
  dsimp only
  cases authoritativeRoundWindow settings.startTimeUtc settings.endTimeUtc
      (settings.warmupSeconds defaults) (settings.tickSeconds defaults) latestEnd with
  | none => simp
  | some nominal =>
      dsimp only
      cases playableRoundWindow nominal settings.endTimeUtc (settings.tickSeconds defaults) now
          (settings.minimumDurationSeconds hasApiHill) with
      | none => simp
      | some playable =>
          dsimp only
          split <;> simp [Fallible.pure_eq_ok_iff]

end Engine

end Rsctf
