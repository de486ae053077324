import Rsctf.Engine.RoundSequence

/-!
# Windows of finalized waves

A referee reports finalized waves to the round which is being played.  A round accepts the
waves which end in its window: the window is the time of the round, shifted by the
settlement lag, so that the next round owns the tail of a round.  Instants are counted in
microseconds; a wave ends at a whole millisecond.
-/

namespace Rsctf

namespace KingOfTheHill

open Engine RoundSequence

/-- What the window of a round depends on. -/
structure ActiveObserverContext where
  roundNumber : ℤ
  scoringStartsAt : ℤ
  scoringEndsAt : ℤ
  roundStartsAt : ℤ
  roundEndsAt : ℤ
deriving DecidableEq, Repr

def waveLag : ℤ := seconds apiWaveSettlementLagSeconds

namespace ActiveObserverContext

def waveWindow (context : ActiveObserverContext) : ℤ × ℤ :=
  let shiftedStart := if context.roundNumber ≤ 1 then context.roundStartsAt
    else context.roundStartsAt - waveLag
  let settledEnd := min (context.roundEndsAt - waveLag) context.scoringEndsAt
  -- scoringEndsAt itself remains admissible
  let windowEnd := if settledEnd = context.scoringEndsAt then settledEnd + milliseconds 1
    else settledEnd
  (max context.scoringStartsAt shiftedStart, windowEnd)

/-- The context of a round, where scoring starts with the round `boundary`. -/
def ofRound (eventEnd : ℤ) (boundary round : RoundSpan) : ActiveObserverContext where
  roundNumber := round.number
  scoringStartsAt := boundary.startsAt
  scoringEndsAt := eventEnd - waveLag
  roundStartsAt := round.startsAt
  roundEndsAt := round.endsAt

end ActiveObserverContext

def waveEndsInsideWindow (endedAt windowStart windowEnd : ℤ) : Bool :=
  windowStart ≤ endedAt && endedAt < windowEnd

/-- A wave which ends at the given instant is admissible in a round. -/
def Admits (eventEnd : ℤ) (boundary round : RoundSpan) (endedAt : ℤ) : Prop :=
  let window := (ActiveObserverContext.ofRound eventEnd boundary round).waveWindow
  waveEndsInsideWindow endedAt window.1 window.2 = true

/-- The windows of the scored rounds partition the scored time. -/
structure WavesPartitioned (eventEnd : ℤ) (boundary : RoundSpan) (scored : List RoundSpan) :
    Prop where
  disjoint : scored.Pairwise fun round round' => ∀ instant,
    ¬(Admits eventEnd boundary round instant ∧ Admits eventEnd boundary round' instant)
  within : ∀ round ∈ scored, ∀ n, Admits eventEnd boundary round (milliseconds n) →
    boundary.startsAt ≤ milliseconds n ∧ milliseconds n ≤ eventEnd - waveLag
  covered : ∀ round ∈ scored, ∀ n, round.startsAt ≤ milliseconds n →
    milliseconds n < round.endsAt → milliseconds n ≤ eventEnd - waveLag →
    ∃! owner, owner ∈ scored ∧ Admits eventEnd boundary owner (milliseconds n)

section Windows

variable {eventEnd : ℤ} {boundary round : RoundSpan} {instant : ℤ}

/-- The end of the window of a round. -/
def windowEnd (eventEnd : ℤ) (round : RoundSpan) : ℤ :=
  if round.endsAt = eventEnd then eventEnd - waveLag + milliseconds 1 else round.endsAt - waveLag

theorem admits_iff (hend : round.endsAt ≤ eventEnd) :
    Admits eventEnd boundary round instant ↔
      boundary.startsAt ≤ instant ∧
        (if round.number ≤ 1 then round.startsAt else round.startsAt - waveLag) ≤ instant ∧
        instant < windowEnd eventEnd round := by
  have hsettled : min (round.endsAt - waveLag) (eventEnd - waveLag) = round.endsAt - waveLag :=
    min_eq_left (by omega)
  have hlast : round.endsAt - waveLag = eventEnd - waveLag ↔ round.endsAt = eventEnd := by omega
  simp only [Admits, ActiveObserverContext.ofRound, ActiveObserverContext.waveWindow,
    waveEndsInsideWindow, hsettled, hlast, windowEnd, Bool.and_eq_true, decide_eq_true_eq,
    max_le_iff, and_assoc]
  refine and_congr_right fun _ => and_congr_right fun _ => ?_
  split
  · next heq => rw [heq]
  · rfl

/-- A round admits the instants of its own which come before its tail. -/
theorem admits_self (hend : round.endsAt ≤ eventEnd) (hboundary : boundary.startsAt ≤ instant)
    (hstart : round.startsAt ≤ instant) (hlt : instant < windowEnd eventEnd round) :
    Admits eventEnd boundary round instant := by
  refine (admits_iff hend).mpr ⟨hboundary, ?_, hlt⟩
  simp only [waveLag, seconds, apiWaveSettlementLagSeconds]
  split <;> omega

/-- No round admits an instant of its tail, unless it is the last one. -/
theorem Admits.lt (h : Admits eventEnd boundary round instant) (hend : round.endsAt < eventEnd) :
    instant < round.endsAt - waveLag := by
  have hlt := ((admits_iff hend.le).mp h).2.2
  rwa [windowEnd, if_neg hend.ne] at hlt

theorem Admits.le (h : Admits eventEnd boundary round instant) (hend : round.endsAt ≤ eventEnd) :
    round.startsAt - waveLag ≤ instant := by
  have hle := ((admits_iff hend).mp h).2.1
  simp only [waveLag, seconds, apiWaveSettlementLagSeconds] at hle ⊢
  split at hle <;> omega

end Windows

/-- The rounds of an event from the first scored one up to the end of the event. -/
structure ScoredRounds (eventEnd : ℤ) (first : RoundSpan) (rest : List RoundSpan) : Prop where
  bounds : ∀ round ∈ first :: rest,
    waveLag < round.endsAt - round.startsAt ∧ round.endsAt ≤ eventEnd
  number : ∀ round ∈ first :: rest, 1 ≤ round.number
  pairwise : (first :: rest).Pairwise Precedes
  isChain : (first :: rest).IsChain Continues
  clipped : ∃ last ∈ first :: rest, last.endsAt = eventEnd

theorem scoredRounds_of_sequence {eventEnd : ℤ} {before rest : List RoundSpan} {first : RoundSpan}
    (hsequence : RoundSequence eventEnd (before ++ first :: rest))
    (hlong : ∀ round ∈ first :: rest, waveLag < round.endsAt - round.startsAt)
    (hclipped : ∃ last ∈ first :: rest, last.endsAt = eventEnd) :
    ScoredRounds eventEnd first rest where
  bounds := fun round hround =>
    ⟨hlong round hround, (hsequence.bounds round (List.mem_append_right before hround)).2.2.1⟩
  number := fun round hround => (hsequence.bounds round (List.mem_append_right before hround)).1
  pairwise := (List.pairwise_append.mp hsequence.pairwise).2.1
  isChain := hsequence.isChain.right_of_append
  clipped := hclipped

namespace ScoredRounds

variable {eventEnd : ℤ} {first : RoundSpan} {rest : List RoundSpan}

theorem lag_pos : 0 < waveLag := by decide

theorem first_le (h : ScoredRounds eventEnd first rest) {round : RoundSpan}
    (hround : round ∈ first :: rest) : first.startsAt ≤ round.startsAt := by
  rcases List.mem_cons.mp hround with rfl | hrest
  · exact le_refl _
  · have hprecedes := (List.pairwise_cons.mp h.pairwise).1 round hrest
    have hlong := (h.bounds first List.mem_cons_self).1
    have hpos := lag_pos
    have hends := hprecedes.2
    omega

/-- Every round but the last one has a successor. -/
theorem exists_successor (h : ScoredRounds eventEnd first rest) {round : RoundSpan}
    (hround : round ∈ first :: rest) (hend : round.endsAt < eventEnd) :
    ∃ l round' l', first :: rest = l ++ round :: round' :: l' := by
  obtain ⟨l, tail, hsplit⟩ := List.append_of_mem hround
  cases tail with
  | cons round' l' => exact ⟨l, round', l', hsplit⟩
  | nil =>
      obtain ⟨last, hlast, hclipped⟩ := h.clipped
      have hpairwise := h.pairwise
      rw [hsplit] at hlast hpairwise
      rcases List.mem_append.mp hlast with hlast | hlast
      · have hprecedes := (List.pairwise_append.mp hpairwise).2.2 last hlast round
          List.mem_cons_self
        have hlong := (h.bounds round hround).1
        have hpos := lag_pos
        have hends := hprecedes.2
        omega
      · rw [List.mem_singleton.mp hlast] at hclipped
        omega

theorem lt_of_precedes (h : ScoredRounds eventEnd first rest) {round round' : RoundSpan}
    (hround' : round' ∈ first :: rest) (hprecedes : Precedes round round') :
    round.endsAt < eventEnd := by
  obtain ⟨hlong, hend⟩ := h.bounds round' hround'
  have hpos := lag_pos
  have hends := hprecedes.2
  omega

/-- The window of a round ends before the window of a later one begins. -/
theorem not_admits_both (h : ScoredRounds eventEnd first rest) {round round' : RoundSpan}
    (hround' : round' ∈ first :: rest) (hprecedes : Precedes round round') (instant : ℤ) :
    ¬(Admits eventEnd first round instant ∧ Admits eventEnd first round' instant) := by
  intro ⟨hadmits, hadmits'⟩
  have hlt := hadmits.lt (h.lt_of_precedes hround' hprecedes)
  have hle := hadmits'.le (h.bounds round' hround').2
  have hends := hprecedes.2
  omega

theorem disjoint (h : ScoredRounds eventEnd first rest) :
    (first :: rest).Pairwise fun round round' => ∀ instant,
      ¬(Admits eventEnd first round instant ∧ Admits eventEnd first round' instant) :=
  h.pairwise.imp_of_mem fun _ hround' hprecedes => h.not_admits_both hround' hprecedes

theorem owner_unique (h : ScoredRounds eventEnd first rest) {instant : ℤ}
    {owner owner' : RoundSpan} (howner : owner ∈ first :: rest) (howner' : owner' ∈ first :: rest)
    (hadmits : Admits eventEnd first owner instant)
    (hadmits' : Admits eventEnd first owner' instant) : owner = owner' := by
  by_contra hne
  have hsymm : (first :: rest).Pairwise fun round round' => ∀ instant,
      ¬(Admits eventEnd first round instant ∧ Admits eventEnd first round' instant) := h.disjoint
  have : Std.Symm fun round round' => ∀ instant,
      ¬(Admits eventEnd first round instant ∧ Admits eventEnd first round' instant) :=
    ⟨fun _ _ hdisjoint instant hboth => hdisjoint instant hboth.symm⟩
  exact hsymm.forall howner howner' hne instant ⟨hadmits, hadmits'⟩

theorem within_iff (h : ScoredRounds eventEnd first rest) :
    (∀ round ∈ first :: rest, ∀ n, Admits eventEnd first round (milliseconds n) →
      first.startsAt ≤ milliseconds n ∧ milliseconds n ≤ eventEnd - waveLag) ↔
      eventEnd % 1000 = 0 := by
  constructor
  · intro hwithin
    by_contra hfraction
    -- the first whole millisecond after the deadline is in the window of the last round
    obtain ⟨last, hlast, hclipped⟩ := h.clipped
    have hlong := (h.bounds last hlast).1
    have hfirst := h.first_le hlast
    set n := (eventEnd - waveLag) / 1000 + 1 with hn
    have hafter : eventEnd - waveLag < milliseconds n ∧
        milliseconds n < eventEnd - waveLag + milliseconds 1 := by
      simp only [hn, milliseconds, waveLag, seconds, apiWaveSettlementLagSeconds]
      omega
    have hadmits : Admits eventEnd first last (milliseconds n) := by
      apply admits_self hclipped.le
      · omega
      · omega
      · rw [windowEnd, if_pos hclipped]
        exact hafter.2
    have hle := (hwithin last hlast n hadmits).2
    omega
  · intro hwhole round hround n hadmits
    obtain ⟨hboundary, -, hlt⟩ := (admits_iff (h.bounds round hround).2).mp hadmits
    refine ⟨hboundary, ?_⟩
    have hend := (h.bounds round hround).2
    simp only [windowEnd, milliseconds, waveLag, seconds, apiWaveSettlementLagSeconds] at hlt ⊢
    split at hlt <;> omega

/-- A round which continues its predecessor owns the tail of it. -/
theorem covered_of_continuous (h : ScoredRounds eventEnd first rest)
    (hcontinuous : (first :: rest).IsChain fun round round' => round'.startsAt = round.endsAt)
    {round : RoundSpan} (hround : round ∈ first :: rest) {instant : ℤ}
    (hstart : round.startsAt ≤ instant) (hlt : instant < round.endsAt)
    (hdeadline : instant ≤ eventEnd - waveLag) :
    ∃ owner ∈ first :: rest, Admits eventEnd first owner instant := by
  have hfirst := h.first_le hround
  have hend := (h.bounds round hround).2
  by_cases hself : instant < windowEnd eventEnd round
  · exact ⟨round, hround, admits_self hend (hfirst.trans hstart) hstart hself⟩
  · have hinner : round.endsAt < eventEnd := by
      apply lt_of_le_of_ne hend
      intro heq
      rw [windowEnd, if_pos heq] at hself
      simp only [milliseconds] at hself
      omega
    rw [windowEnd, if_neg hinner.ne] at hself
    obtain ⟨l, round', l', hsplit⟩ := h.exists_successor hround hinner
    have hround' : round' ∈ first :: rest := by
      rw [hsplit]
      simp
    have hstart' := List.isChain_iff_forall_rel_of_append_cons_cons.mp hcontinuous hsplit
    obtain ⟨hlong', hend'⟩ := h.bounds round' hround'
    refine ⟨round', hround', (admits_iff hend').mpr ⟨hfirst.trans hstart, ?_, ?_⟩⟩
    · have hpairwise := h.pairwise
      rw [hsplit] at hpairwise
      have hprecedes := (List.pairwise_cons.mp (List.pairwise_append.mp hpairwise).2.1).1 round'
        List.mem_cons_self
      have hsecond : 1 < round'.number := (h.number round hround).trans_lt hprecedes.1
      rw [if_neg hsecond.not_ge, hstart']
      omega
    · rw [windowEnd]
      split
      · simp only [milliseconds]
        omega
      · omega

/-- Nobody owns the tail of a round which is followed by a gap. -/
theorem not_covered_of_gap (h : ScoredRounds eventEnd first rest) {l l' : List RoundSpan}
    {round round' : RoundSpan} (hsplit : first :: rest = l ++ round :: round' :: l')
    (hgap : round.endsAt + seconds (roundSchedulerPollSeconds + 1) < round'.startsAt) :
    ∃ n, round.startsAt ≤ milliseconds n ∧ milliseconds n < round.endsAt ∧
      milliseconds n ≤ eventEnd - waveLag ∧
      ∀ owner ∈ first :: rest, ¬Admits eventEnd first owner (milliseconds n) := by
  have hround : round ∈ first :: rest := by
    rw [hsplit]
    simp
  have hround' : round' ∈ first :: rest := by
    rw [hsplit]
    simp
  have hpairwise := h.pairwise
  rw [hsplit] at hpairwise
  obtain ⟨-, hpairwise, hbefore⟩ := List.pairwise_append.mp hpairwise
  obtain ⟨hafter, hpairwise⟩ := List.pairwise_cons.mp hpairwise
  have hlong := (h.bounds round hround).1
  obtain ⟨hlong', hend'⟩ := h.bounds round' hround'
  have hinner := h.lt_of_precedes hround' (hafter round' List.mem_cons_self)
  -- the first whole millisecond of the tail
  set n := -(-(round.endsAt - waveLag) / 1000) with hn
  have htail : round.endsAt - waveLag ≤ milliseconds n ∧
      milliseconds n < round.endsAt - waveLag + milliseconds 1 := by
    simp only [hn, milliseconds]
    omega
  simp only [waveLag, seconds, apiWaveSettlementLagSeconds, roundSchedulerPollSeconds,
    milliseconds] at hlong hlong' hgap htail
  refine ⟨n, ?_, ?_, ?_, ?_⟩
  any_goals
    simp only [waveLag, seconds, apiWaveSettlementLagSeconds, milliseconds]
    omega
  intro owner howner hadmits
  have hle := hadmits.le (h.bounds owner howner).2
  have hearly : owner.endsAt ≤ round.endsAt → False := by
    intro hends
    have hlt := hadmits.lt (hends.trans_lt hinner)
    simp only [waveLag, seconds, apiWaveSettlementLagSeconds, milliseconds] at hlt
    omega
  have hlate : round'.startsAt ≤ owner.startsAt → False := by
    intro hstarts
    simp only [waveLag, seconds, apiWaveSettlementLagSeconds, milliseconds] at hle
    omega
  have hmem := howner
  rw [hsplit] at hmem
  rcases List.mem_append.mp hmem with hmem | hmem
  · have hends := (hbefore owner hmem round List.mem_cons_self).2
    exact hearly (by omega)
  rcases List.mem_cons.mp hmem with rfl | hmem
  · exact hearly (le_refl _)
  rcases List.mem_cons.mp hmem with rfl | hmem
  · exact hlate (le_refl _)
  · have hends := ((List.pairwise_cons.mp hpairwise).1 owner hmem).2
    exact hlate (by omega)

end ScoredRounds

/-- **When the windows of finalized waves partition the scored time.**  They do exactly when
the event ends at a whole millisecond and every scored round begins at the end of the scored
round before it.  Behind a round which is followed by a gap, its tail belongs to no window. -/
theorem wavesPartitioned_iff {eventEnd : ℤ} {before rest : List RoundSpan} {first : RoundSpan}
    (hsequence : RoundSequence eventEnd (before ++ first :: rest))
    (hlong : ∀ round ∈ first :: rest, waveLag < round.endsAt - round.startsAt)
    (hclipped : ∃ last ∈ first :: rest, last.endsAt = eventEnd) :
    WavesPartitioned eventEnd first (first :: rest) ↔
      eventEnd % 1000 = 0 ∧
        (first :: rest).IsChain fun round round' => round'.startsAt = round.endsAt := by
  have h := scoredRounds_of_sequence hsequence hlong hclipped
  constructor
  · intro hpartitioned
    refine ⟨h.within_iff.mp hpartitioned.within, ?_⟩
    refine List.isChain_iff_forall_rel_of_append_cons_cons.mpr fun round round' l l' hsplit => ?_
    rcases List.isChain_iff_forall_rel_of_append_cons_cons.mp h.isChain hsplit with heq | hgap
    · exact heq
    · obtain ⟨n, hstart, hlt, hdeadline, hnone⟩ := h.not_covered_of_gap hsplit hgap
      have hround : round ∈ first :: rest := by
        rw [hsplit]
        simp
      obtain ⟨owner, ⟨howner, hadmits⟩, -⟩ :=
        hpartitioned.covered round hround n hstart hlt hdeadline
      exact absurd hadmits (hnone owner howner)
  · rintro ⟨hwhole, hcontinuous⟩
    refine ⟨h.disjoint, h.within_iff.mpr hwhole, ?_⟩
    intro round hround n hstart hlt hdeadline
    obtain ⟨owner, howner, hadmits⟩ :=
      h.covered_of_continuous hcontinuous hround hstart hlt hdeadline
    exact ⟨owner, ⟨howner, hadmits⟩, fun owner' howner' =>
      h.owner_unique howner'.1 howner howner'.2 hadmits⟩

/-- Two rounds of thirty seconds; the second one is prepared at the given instant. -/
def twoRounds (second : ℤ) : List RoundSpan :=
  [⟨1, 0, seconds 30⟩, ⟨2, seconds second, seconds second + seconds 30⟩]

def twoRoundSettings (eventEnd : ℤ) : GameSettings :=
  ⟨some 30, some 0, some 3, 0, seconds eventEnd, false⟩

theorem roundSequence_twoRounds {eventEnd second : ℤ}
    (hfirst : roundWindow ⟨60, 0⟩ (twoRoundSettings eventEnd) true none 0 = .ok (0, seconds 30))
    (hsecond : roundWindow ⟨60, 0⟩ (twoRoundSettings eventEnd) true (some (seconds 30))
      (seconds second) = .ok (seconds second, seconds second + seconds 30)) :
    RoundSequence (seconds eventEnd) (twoRounds second) :=
  .next (.next .nil rfl hfirst) rfl hsecond

/-- After a scheduler delay of ten seconds, a wave which ends in the tail of round 1 belongs
to no window. -/
theorem not_wavesPartitioned_delayedRound :
    RoundSequence (seconds 70) (twoRounds 40) ∧
      (∀ round ∈ twoRounds 40, waveLag < round.endsAt - round.startsAt) ∧
      (∃ last ∈ twoRounds 40, last.endsAt = seconds 70) ∧
      ¬WavesPartitioned (seconds 70) ⟨1, 0, seconds 30⟩ (twoRounds 40) := by
  refine ⟨roundSequence_twoRounds (by rfl) (by rfl), by decide, by decide, fun h => ?_⟩
  obtain ⟨owner, ⟨howner, hadmits⟩, -⟩ := h.covered ⟨1, 0, seconds 30⟩ List.mem_cons_self 15000
    (by decide) (by decide) (by decide)
  have hnone : ∀ round ∈ twoRounds 40, ¬(waveEndsInsideWindow (milliseconds 15000)
      (ActiveObserverContext.ofRound (seconds 70) ⟨1, 0, seconds 30⟩ round).waveWindow.1
      (ActiveObserverContext.ofRound (seconds 70) ⟨1, 0, seconds 30⟩ round).waveWindow.2 =
        true) := by decide
  exact hnone owner howner hadmits

/-- The windows of two rounds without a gap partition the scored time. -/
theorem wavesPartitioned_iff_twoRounds :
    WavesPartitioned (seconds 60) ⟨1, 0, seconds 30⟩ (twoRounds 30) := by
  have hsequence : RoundSequence (seconds 60) ([] ++ twoRounds 30) :=
    roundSequence_twoRounds (by rfl) (by rfl)
  exact (wavesPartitioned_iff hsequence (by decide) (by decide)).mpr
    ⟨by decide, List.isChain_pair.mpr rfl⟩

end KingOfTheHill

end Rsctf
