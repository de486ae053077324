import Rsctf.FlagSubmission.Programs

/-!
# The insertion of a capture

The joins of the statements say which rows belong together.  With the round which is locked
when the row is written they make a capture which is in order.
-/

namespace Rsctf

namespace FlagSubmission

open Interleaving (Discipline Setting)

section Joins

variable {arena : Arena} {gameId serviceId : ℤ} {service : AdTeamService} {text : String}

theorem fieldService_eq_some (h : arena.fieldService gameId serviceId = some service) :
    arena.services serviceId = some service ∧ service.gameId = gameId := by
  unfold Arena.fieldService at h
  obtain ⟨row, hrow, h⟩ := Option.bind_eq_some_iff.mp h
  obtain ⟨victim, -, h⟩ := Option.bind_eq_some_iff.mp h
  obtain ⟨challenge, -, h⟩ := Option.bind_eq_some_iff.mp h
  split at h
  next hjoin =>
    obtain rfl := Option.some.inj h
    exact ⟨hrow, hjoin.1⟩
  next => cases h

theorem plantedFlag_eq_some {flag : AdFlag} (h : arena.plantedFlag text = some flag) :
    flag ∈ arena.flags ∧ flag.flag = text := by
  have hmem := List.mem_of_head? h
  rw [List.mem_insertionSort] at hmem
  obtain ⟨hflag, htext⟩ := List.mem_filter.mp hmem
  exact ⟨hflag, of_decide_eq_true htext⟩

/-- The lookup finds a flag with the text, and a service only if it is in the field. -/
theorem activeVictimFlag_eq_some {found : ActiveVictimFlag}
    (h : arena.activeVictimFlag gameId text = some found) :
    (∃ flag ∈ arena.flags, flag.id = found.flagId ∧ flag.flag = text) ∧
      ∀ victim, found.activeService = some victim → ∃ service,
        arena.services victim.id = some service ∧
          service.participationId = victim.participationId := by
  obtain ⟨flag, hflag, rfl⟩ := Option.map_eq_some_iff.mp h
  obtain ⟨hmem, htext⟩ := plantedFlag_eq_some hflag
  refine ⟨⟨flag, hmem, rfl, htext⟩, fun victim hvictim => ?_⟩
  cases hservice : arena.fieldService gameId flag.teamServiceId with
  | none => simp [ActiveVictimFlag.activeService, hservice] at hvictim
  | some service =>
    simp only [ActiveVictimFlag.activeService, hservice] at hvictim
    obtain rfl := Option.some.inj hvictim
    exact ⟨service, (fieldService_eq_some hservice).1, rfl⟩

theorem lifetimeTicks_le (game : Game) : game.lifetimeTicks ≤ 50 := by
  unfold Game.lifetimeTicks
  dsimp only
  split_ifs <;> omega

theorem readClock_le {started finished : ℤ} (h : started ≤ finished) (instant : ℤ) :
    readClock started finished instant ≤ finished := by
  unfold readClock
  split_ifs <;> omega

/-- The rows behind a candidate. -/
theorem candidate_eq_some {key : AttackKey} {latest : AdRound} {checkedAt : ℤ}
    {candidate : Candidate} (h : arena.candidate key latest checkedAt = some candidate) :
    (∃ service planted plantedRound attacker,
      arena.services key.serviceId = some service ∧ service.gameId = key.gameId ∧
      arena.participations key.attackerId = some attacker ∧ attacker.gameId = key.gameId ∧
      planted ∈ arena.flags ∧ planted.id = key.flagId ∧ planted.teamServiceId = key.serviceId ∧
      plantedRound ∈ arena.rounds ∧ plantedRound.id = planted.roundId ∧
      plantedRound.gameId = service.gameId ∧ latest.number < plantedRound.number + 50) ∧
    ∀ id, candidate.attack id =
      ⟨id, latest.id, key.attackerId, key.serviceId, key.flagId, checkedAt⟩ := by
  unfold Arena.candidate at h
  obtain ⟨attacker, hattacker, h⟩ := Option.bind_eq_some_iff.mp h
  obtain ⟨service, hservice, h⟩ := Option.bind_eq_some_iff.mp h
  obtain ⟨victim, -, h⟩ := Option.bind_eq_some_iff.mp h
  obtain ⟨challenge, -, h⟩ := Option.bind_eq_some_iff.mp h
  obtain ⟨game, -, h⟩ := Option.bind_eq_some_iff.mp h
  obtain ⟨planted, hplanted, h⟩ := Option.bind_eq_some_iff.mp h
  obtain ⟨plantedRound, hplantedRound, h⟩ := Option.bind_eq_some_iff.mp h
  split at h
  next hjoin =>
    obtain rfl := Option.some.inj h
    obtain ⟨hagame, -, hheld, hpgame, -, -, -, hrecent⟩ := hjoin
    obtain ⟨hservices, hgame⟩ := fieldService_eq_some hservice
    obtain ⟨hpmem, hpid⟩ := Table.get?_eq_some.mp hplanted
    obtain ⟨hrmem, hrid⟩ := Table.get?_eq_some.mp hplantedRound
    have hlifetime := lifetimeTicks_le game
    exact ⟨⟨service, planted, plantedRound, attacker, hservices, hgame, hattacker, hagame, hpmem,
      hpid, hheld, hrmem, hrid, hpgame, by omega⟩, fun _ => rfl⟩
  next => cases h

/-- The reason is never that the flag was accepted, and it is a duplicate only when the
attacker has a row for the flag. -/
theorem rejection_spec (arena : Arena) (attacks : List AdAttack) (key : AttackKey) :
    arena.rejection attacks key ≠ .accepted ∧ (arena.rejection attacks key = .duplicate →
      ∃ attack ∈ attacks, attack.key = (key.attackerId, key.flagId)) := by
  unfold Arena.rejection
  cases arena.games key.gameId with
  | none => simp
  | some game =>
    cases arena.latestUnfinalized key.gameId with
    | none =>
      dsimp only
      split_ifs <;> simp
    | some latest =>
      dsimp only
      split_ifs with _ _ _ _ _ htaken
      iterate 5 · simp
      · obtain ⟨attack, hattack, hkey⟩ := List.any_eq_true.mp htaken
        exact ⟨by simp, fun _ => ⟨attack, hattack, of_decide_eq_true hkey⟩⟩
      · simp

end Joins

section Insertion

variable {p x : ℕ} {r : SubmitRequest} {w t u : World} {captures : List Capture}
  {snapshot : Snapshot} {gameId : ℤ} {latest : AdRound} {key : AttackKey} {tx : Transaction}

/-- The round which is locked is not finalized. -/
theorem lockLatestRound_eq {result : Option AdRound}
    (h : lockLatestRound p snapshot gameId w = (t, result)) :
    (result = none ∧ t = w) ∨ ∃ latest, result = some latest ∧ latest ∈ w.arena.rounds ∧
      latest.gameId = gameId ∧ ¬w.arena.Finalized latest.id ∧
      t = modifyTransaction p
        (fun tx => { tx with sharedRounds := latest.id :: tx.sharedRounds }) w := by
  unfold lockLatestRound at h
  dsimp only at h
  split at h
  next latest hfind =>
    obtain ⟨rfl, rfl⟩ := Prod.mk.inj h
    obtain ⟨round, -, hround⟩ := List.exists_of_findSome?_eq_some hfind
    obtain ⟨hget, hopen⟩ := Option.filter_eq_some_iff.mp hround
    obtain ⟨hmem, hid⟩ := Table.get?_eq_some.mp hget
    simp only [Bool.and_eq_true, decide_eq_true_eq, Bool.not_eq_true'] at hopen
    refine .inr ⟨latest, rfl, hmem, hopen.1, ?_, rfl⟩
    rw [Arena.Finalized, hid, hget]
    simp [hopen.2]
  next =>
    obtain ⟨rfl, rfl⟩ := Prod.mk.inj h
    exact .inl ⟨rfl, rfl⟩

/-- The transaction of the process holds the lock of a round. -/
def World.Locked (w : World) (p x : ℕ) (captures : List Capture) (roundId : ℤ) : Prop :=
  ∃ tx, w.transaction p = some tx ∧ tx.id = x ∧ tx.captures = captures ∧ roundId ∈ tx.sharedRounds

theorem World.Locked.relied {roundId : ℤ} (h : w.Locked p x captures roundId)
    (hrely : w.Relied p t) : t.Locked p x captures roundId := by
  obtain ⟨tx, htx, hrest⟩ := h
  exact ⟨tx, hrely.own.trans htx, hrest⟩

/-- What the lookup knows of the service and the flag. -/
structure Arena.Victim (arena : Arena) (key : AttackKey) (text : String) : Prop where
  other_team : ∃ service, arena.services key.serviceId = some service ∧
    service.participationId ≠ key.attackerId
  flag : ∃ flag ∈ arena.flags, flag.id = key.flagId ∧ flag.flag = text

theorem Arena.Victim.grows {arena new : Arena} {text : String} (h : arena.Victim key text)
    (hgrows : arena.Grows new) : new.Victim key text := by
  obtain ⟨⟨service, hservice, hother⟩, flag, hflag, hid, htext⟩ := h
  exact ⟨⟨service, hgrows.services _ _ hservice, hother⟩, flag, hgrows.flags _ hflag, hid, htext⟩

/-- A candidate of an earlier snapshot with the round which was locked since makes a capture
which is in order. -/
theorem fits_candidate {candidate : Candidate} {text : String} {instant : ℤ}
    (hcandidate : snapshot.arena.candidate key latest
      (readClock snapshot.arena.now w.arena.now instant) = some candidate)
    (hgrows : snapshot.arena.Grows w.arena) (hvictim : w.arena.Victim key text)
    (hlatest : ∃ round ∈ w.arena.rounds, round.id = latest.id ∧ round.gameId = key.gameId ∧
      round.number = latest.number) (id : ℤ) : w.arena.Fits (candidate.attack id) := by
  obtain ⟨⟨service, planted, plantedRound, attacker, hservice, hgame, hattacker, hagame, hpmem,
    hpid, hheld, hrmem, hrid, hpgame, hrecent⟩, heq⟩ := candidate_eq_some hcandidate
  obtain ⟨round, hround, hroundId, hroundGame, hroundNumber⟩ := hlatest
  obtain ⟨plantedRound', hrmem', hrid', hrgame', hrnumber'⟩ := hgrows.rounds _ hrmem
  obtain ⟨attacker', hattacker', hagame'⟩ := hgrows.participations _ _ hattacker
  obtain ⟨other, hother, hne⟩ := hvictim.other_team
  have hsame : other = service :=
    Option.some.inj (hother.symm.trans (hgrows.services _ _ hservice))
  rw [heq]
  exact ⟨round, plantedRound', planted, service, attacker', {
    round_mem := hround
    round_id := hroundId
    flag_mem := hgrows.flags _ hpmem
    flag_id := hpid
    planted_mem := hrmem'
    planted_id := hrid'.trans hrid
    service_eq := hgrows.services _ _ hservice
    attacker_eq := hattacker'
    held := hheld
    round_game := hroundGame.trans hgame.symm
    planted_game := hrgame'.trans hpgame
    attacker_game := (hagame'.trans hagame).trans hgame.symm
    other_team := hsame ▸ hne
    recent := by
      rw [hroundNumber, hrnumber']
      exact hrecent
    submitted := readClock_le hgrows.now instant }⟩

theorem World.Consistent.used (h : w.Consistent) :
    ({ w with nextAttackId := w.nextAttackId + 1 } : World).Consistent :=
  ⟨h.recorded, h.nodup, h.fits, h.announced, h.commits_nodup, h.commits_lt,
    fun tx htx => (h.admits tx htx).mono rfl rfl rfl (le_refl _), h.apart⟩

theorem World.relied_used (p : ℕ) (w : World) :
    w.Relied p { w with nextAttackId := w.nextAttackId + 1 } :=
  ⟨rfl, .refl w.arena, fun _ _ _ _ => rfl, fun _ h => h, fun _ h => h, fun _ => le_refl _,
    fun _ h _ => ⟨h, rfl⟩⟩

/-- A new row of the transaction, under a key which nobody has. -/
theorem allowed_capture {capture : Capture} (hw : w.Consistent)
    (htx : w.transaction p = some tx) (hfits : w.arena.Fits capture.attack)
    (hlocked : capture.attack.roundId ∈ tx.sharedRounds)
    (hfree : ∀ attack ∈ w.visibleAttacks p, attack.key ≠ capture.attack.key)
    (hothers : ∀ other ∈ w.transactions, other.process ≠ p →
      ∀ capture' ∈ other.captures, capture'.attack.key ≠ capture.attack.key) :
    submissionDiscipline.Allowed p w (modifyTransaction p
      (fun tx => { tx with captures := tx.captures ++ [capture] })
      { w with nextAttackId := w.nextAttackId + 1 }) := by
  have hused := moves_modify (w := { w with nextAttackId := w.nextAttackId + 1 })
    (fun tx => { tx with captures := tx.captures ++ [capture] }) htx
  have hmoves : w.Moves p _ _ := ⟨hused.transactions, hused.process, hused.arena, hused.attacks,
    hused.commits, hused.published, hused.reopened, hused.nextTransaction⟩
  obtain ⟨hmem, hp⟩ := World.mem_transactions htx
  have hadmits := (hw.admits tx hmem).mono hmoves.arena hmoves.attacks hmoves.commits
    hmoves.nextTransaction
  have hvisible : w.visibleAttacks p = w.attacks ++ tx.captures.map (·.attack) := by
    rw [World.visibleAttacks, htx]
    rfl
  rw [hvisible] at hfree
  refine hmoves.allowed hw fun new hnew => ?_
  obtain rfl := Option.some.inj hnew
  refine ⟨{ hadmits with nodup := ?_, unrecorded := ?_, fits := ?_, locked := ?_ }, ?_⟩
  · change ((tx.captures ++ [capture]).map (·.attack.key)).Nodup
    rw [List.map_append]
    refine List.nodup_append.mpr ⟨hadmits.nodup, List.nodup_singleton _, fun k hk k' hk' => ?_⟩
    obtain ⟨old, hold, rfl⟩ := List.mem_map.mp hk
    rw [List.mem_singleton.mp hk']
    exact hfree _ (List.mem_append_right _ (List.mem_map_of_mem hold))
  · intro other hother attack hattack
    rcases List.mem_append.mp hother with hother | hother
    · exact hadmits.unrecorded other hother attack hattack
    · rw [List.mem_singleton.mp hother]
      exact (hfree attack (List.mem_append_left _ (hmoves.attacks ▸ hattack))).symm
  · intro other hother
    rcases List.mem_append.mp hother with hother | hother
    · exact hadmits.fits other hother
    · rw [List.mem_singleton.mp hother, hmoves.arena]
      exact hfits
  · intro other hother
    rcases List.mem_append.mp hother with hother | hother
    · exact hadmits.locked other hother
    · rw [List.mem_singleton.mp hother]
      exact hlocked
  · intro other hother hne
    have hapart := hw.apart tx hmem other hother (hp ▸ hne.symm)
    refine ⟨hapart.id_ne, fun one hone capture' hcapture' => ?_⟩
    rcases List.mem_append.mp hone with hone | hone
    · exact hapart.key_ne one hone capture' hcapture'
    · rw [List.mem_singleton.mp hone]
      exact (hothers other hother hne capture' hcapture').symm

/-- A row is written for a candidate under a key which nobody has; else nothing is. -/
theorem writeAttack_cases (p : ℕ) (snapshot : Snapshot) (key : AttackKey) (latest : Option AdRound)
    (instant : ℤ) (w : World) :
    writeAttack p snapshot key latest instant w = (w, none) ∨
    writeAttack p snapshot key latest instant w =
      ({ w with nextAttackId := w.nextAttackId + 1 }, none) ∨
    ∃ round candidate capture inserted, latest = some round ∧
      snapshot.arena.candidate key round
        (readClock snapshot.arena.now w.arena.now instant) = some candidate ∧
      capture.attack = candidate.attack w.nextAttackId ∧
      capture.broadcast = AcceptedAttack.broadcast inserted key.gameId ∧
      (∀ prior ∈ w.visibleAttacks p, prior.key ≠ capture.attack.key) ∧
      writeAttack p snapshot key latest instant w =
        (modifyTransaction p (fun tx => { tx with captures := tx.captures ++ [capture] })
          { w with nextAttackId := w.nextAttackId + 1 }, some inserted) := by
  unfold writeAttack
  split
  next => exact .inl rfl
  next candidate hcandidate =>
    obtain ⟨round, hlatest, hcandidate⟩ := Option.bind_eq_some_iff.mp hcandidate
    dsimp only
    split
    next => exact .inr (.inl rfl)
    next hfree =>
      refine .inr (.inr ⟨round, candidate, _, _, hlatest, hcandidate, rfl, rfl, ?_, rfl⟩)
      intro prior hprior hkey
      exact hfree (List.any_eq_true.mpr ⟨prior, hprior, decide_eq_true hkey⟩)

theorem later_used (w : World) : w.Later { w with nextAttackId := w.nextAttackId + 1 } :=
  ⟨.refl w.arena, fun _ hattack => hattack⟩

theorem later_capture {capture : Capture} (htx : w.transaction p = some tx) :
    w.Later (modifyTransaction p (fun tx => { tx with captures := tx.captures ++ [capture] })
      { w with nextAttackId := w.nextAttackId + 1 }) :=
  (later_used w).trans (later_modify htx)

/-- What the last statement of the insertion does. -/
theorem sound_writeAttack {latest : Option AdRound} {instant : ℤ} {text : String}
    {next : Option AcceptedAttack → Program} (hworking : w.Working p x captures)
    (hlocked : ∀ round ∈ latest, w.Locked p x captures round.id ∧
      ∃ now ∈ w.arena.rounds, now.id = round.id ∧ now.gameId = key.gameId ∧
        now.number = round.number)
    (hgrows : snapshot.arena.Grows w.arena) (hvictim : w.arena.Victim key text)
    (hsome : ∀ t capture inserted, t.Working p x (captures ++ [capture]) → w.Later t →
      t.arena.Takes key.attackerId text capture.attack →
      capture.broadcast = AcceptedAttack.broadcast inserted key.gameId →
      SoundFrom p r (next (some inserted)) t)
    (hnone : ∀ t, t.Working p x captures → w.Later t → SoundFrom p r (next none) t) :
    SoundFrom p r
      (statement (uncontended p key) (writeAttack p snapshot key latest instant) next) w := by
  refine sound_statement fun t hrely hinv hready => ?_
  have hworking' := hworking.relied hrely
  rcases writeAttack_cases p snapshot key latest instant t with h | h |
    ⟨round, candidate, capture, inserted, rfl, hcandidate, hattack, hbroadcast, hfree, h⟩
  · rw [h]
    exact ⟨Discipline.allowed_refl hinv, hnone t hworking' hrely.later⟩
  · rw [h]
    exact ⟨⟨hinv.used, fun q _ => World.relied_used q t⟩,
      hnone _ hworking' (hrely.later.trans (later_used t))⟩
  · obtain ⟨hlock, now, hnow, hid, hgame, hnumber⟩ := hlocked round rfl
    obtain ⟨later, hlater, hlid, hlgame, hlnumber⟩ := hrely.grows.rounds now hnow
    obtain ⟨tx, htx, rfl, rfl, hshared⟩ := hlock.relied hrely
    have hvictim' := hvictim.grows hrely.grows
    have hfits := fits_candidate hcandidate (hgrows.trans hrely.grows) hvictim'
      ⟨later, hlater, hlid.trans hid, hlgame.trans hgame, hlnumber.trans hnumber⟩ t.nextAttackId
    have heq := hattack.trans ((candidate_eq_some hcandidate).2 t.nextAttackId)
    rw [h]
    refine ⟨allowed_capture hinv htx (hattack ▸ hfits) ?_ hfree fun other hother hne => ?_, ?_⟩
    · rw [heq]
      exact hshared
    · have hothers := List.all_eq_true.mp hready other hother
      rw [Bool.or_eq_true, decide_eq_true_eq, List.all_eq_true] at hothers
      intro capture' hcapture'
      have hkey : capture.attack.key = (key.attackerId, key.flagId) := by rw [heq]; rfl
      rw [hkey]
      exact of_decide_eq_true (hothers.resolve_left hne capture' hcapture')
    · have hmoves := moves_modify (w := { t with nextAttackId := t.nextAttackId + 1 })
        (fun tx => { tx with captures := tx.captures ++ [capture] }) htx
      refine hsome _ capture inserted ⟨_, hmoves.transaction_self, rfl, rfl⟩
        (hrely.later.trans (later_capture htx)) ?_ hbroadcast
      obtain ⟨flag, hflag, hflagId, htext⟩ := hvictim'.flag
      rw [hmoves.arena, heq]
      exact ⟨rfl, flag, hflag, hflagId, htext⟩

theorem sound_insertAcceptedAttack {instant : ℤ} {text : String}
    {next : Option AcceptedAttack → Program} (hworking : w.Working p x captures)
    (hvictim : w.arena.Victim key text)
    (hsome : ∀ t capture inserted, t.Working p x (captures ++ [capture]) → w.Later t →
      t.arena.Takes key.attackerId text capture.attack →
      capture.broadcast = AcceptedAttack.broadcast inserted key.gameId →
      SoundFrom p r (next (some inserted)) t)
    (hnone : ∀ t, t.Working p x captures → w.Later t → SoundFrom p r (next none) t) :
    SoundFrom p r (insertAcceptedAttack p key instant next) w := by
  refine sound_query fun s hs _ => sound_statement fun t ht hinv _ => ?_
  have hlater := hs.later.trans ht.later
  have hworking' := (hworking.relied hs).relied ht
  have hvictim' := hvictim.grows hlater.grows
  cases hlock : lockLatestRound p ⟨s.arena, s.visibleAttacks p⟩ key.gameId t with
  | mk u latest =>
    rcases lockLatestRound_eq hlock with ⟨rfl, rfl⟩ | ⟨round, rfl, hround, hgame, hopen, rfl⟩
    · exact ⟨Discipline.allowed_refl hinv, sound_writeAttack hworking' (fun _ h => by cases h)
        ht.grows hvictim'
          (fun v capture inserted hv hl => hsome v capture inserted hv (hlater.trans hl))
        fun v hv hl => hnone v hv (hlater.trans hl)⟩
    · obtain ⟨tx, htx, hid, hcaptures⟩ := hworking'
      have hmoves := moves_modify
        (fun tx => { tx with sharedRounds := round.id :: tx.sharedRounds }) htx
      have hlater' := hlater.trans (later_modify
        (f := fun tx => { tx with sharedRounds := round.id :: tx.sharedRounds }) htx)
      refine ⟨allowed_modify hinv htx rfl rfl (fun _ h => List.mem_cons_of_mem _ h)
        fun id hmem hnot => ?_, ?_⟩
      · rw [(List.mem_cons.mp hmem).resolve_right hnot]
        exact hopen
      · refine sound_writeAttack ⟨_, hmoves.transaction_self, hid, hcaptures⟩ (fun other h => ?_)
          (hmoves.arena ▸ ht.grows) (hmoves.arena ▸ hvictim')
          (fun v capture inserted hv hl => hsome v capture inserted hv (hlater'.trans hl))
          fun v hv hl => hnone v hv (hlater'.trans hl)
        obtain rfl := Option.some.inj h
        exact ⟨⟨_, hmoves.transaction_self, hid, hcaptures, List.mem_cons_self⟩,
          round, hmoves.arena ▸ hround, rfl, hgame, rfl⟩

end Insertion

end FlagSubmission

end Rsctf
