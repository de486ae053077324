import Rsctf.FlagSubmission.Batches

/-!
# What is recorded of captures

A row which is written belongs to a flag of the same game which another team's service held
not long before, and its round stays locked until the transaction commits.  A finalized round
therefore gets no more captures.
-/

namespace Rsctf

namespace FlagSubmission

open Interleaving (Discipline Setting)

section Captures

/-- The rows which a capture refers to, and what must be true of them. -/
structure Arena.Witnesses (arena : Arena) (attack : AdAttack) (round planted : AdRound)
    (flag : AdFlag) (service : AdTeamService) (attacker : Participation) : Prop where
  round_mem : round ∈ arena.rounds
  round_id : round.id = attack.roundId
  flag_mem : flag ∈ arena.flags
  flag_id : flag.id = attack.flagId
  planted_mem : planted ∈ arena.rounds
  planted_id : planted.id = flag.roundId
  service_eq : arena.services attack.victimTeamServiceId = some service
  attacker_eq : arena.participations attack.attackerParticipationId = some attacker
  held : flag.teamServiceId = attack.victimTeamServiceId
  round_game : round.gameId = service.gameId
  planted_game : planted.gameId = service.gameId
  attacker_game : attacker.gameId = service.gameId
  other_team : service.participationId ≠ attack.attackerParticipationId
  recent : round.number < planted.number + 50
  submitted : attack.submittedAt ≤ arena.now

def Arena.Fits (arena : Arena) (attack : AdAttack) : Prop :=
  ∃ round planted flag service attacker,
    arena.Witnesses attack round planted flag service attacker

/-- What never changes of an arena. -/
structure Arena.Grows (arena new : Arena) : Prop where
  now : arena.now ≤ new.now
  rounds : ∀ round ∈ arena.rounds, ∃ later ∈ new.rounds,
    later.id = round.id ∧ later.gameId = round.gameId ∧ later.number = round.number
  flags : ∀ flag ∈ arena.flags, flag ∈ new.flags
  services : ∀ id service, arena.services id = some service → new.services id = some service
  participations : ∀ id row, arena.participations id = some row →
    ∃ later, new.participations id = some later ∧ later.gameId = row.gameId

variable {arena new last : Arena} {attack : AdAttack}

theorem Arena.Grows.refl (arena : Arena) : arena.Grows arena :=
  ⟨le_refl _, fun round hround => ⟨round, hround, rfl, rfl, rfl⟩, fun _ hflag => hflag,
    fun _ _ hservice => hservice, fun _ row hrow => ⟨row, hrow, rfl⟩⟩

theorem Arena.Grows.trans (h : arena.Grows new) (h' : new.Grows last) : arena.Grows last := by
  refine ⟨h.now.trans h'.now, fun round hround => ?_,
    fun flag hflag => h'.flags _ (h.flags _ hflag),
    fun id service hservice => h'.services _ _ (h.services _ _ hservice), fun id row hrow => ?_⟩
  · obtain ⟨mid, hmid, hid, hgame, hnumber⟩ := h.rounds round hround
    obtain ⟨later, hlater, hid', hgame', hnumber'⟩ := h'.rounds mid hmid
    exact ⟨later, hlater, hid'.trans hid, hgame'.trans hgame, hnumber'.trans hnumber⟩
  · obtain ⟨mid, hmid, hgame⟩ := h.participations id row hrow
    obtain ⟨later, hlater, hgame'⟩ := h'.participations id mid hmid
    exact ⟨later, hlater, hgame'.trans hgame⟩

theorem Arena.Fits.grows (h : arena.Fits attack) (hgrows : arena.Grows new) : new.Fits attack := by
  obtain ⟨round, planted, flag, service, attacker, h⟩ := h
  obtain ⟨round', hround, hid, hgame, hnumber⟩ := hgrows.rounds round h.round_mem
  obtain ⟨planted', hplanted, hpid, hpgame, hpnumber⟩ := hgrows.rounds planted h.planted_mem
  obtain ⟨attacker', hattacker, hagame⟩ := hgrows.participations _ attacker h.attacker_eq
  exact ⟨round', planted', flag, service, attacker', {
    round_mem := hround
    round_id := hid.trans h.round_id
    flag_mem := hgrows.flags flag h.flag_mem
    flag_id := h.flag_id
    planted_mem := hplanted
    planted_id := hpid.trans h.planted_id
    service_eq := hgrows.services _ service h.service_eq
    attacker_eq := hattacker
    held := h.held
    round_game := hgame.trans h.round_game
    planted_game := hpgame.trans h.planted_game
    attacker_game := hagame.trans h.attacker_game
    other_team := h.other_team
    recent := by
      rw [hnumber, hpnumber]
      exact h.recent
    submitted := h.submitted.trans hgrows.now }⟩

end Captures

section Invariant

/-- The round is finalized. -/
def Arena.Finalized (arena : Arena) (roundId : ℤ) : Prop :=
  (arena.rounds.get? roundId).any (·.finalized) = true

/-- The captures which are recorded in a round. -/
def World.attacksOf (w : World) (roundId : ℤ) : List AdAttack :=
  w.attacks.filter fun attack => decide (attack.roundId = roundId)

/-- What is true of an open transaction. -/
structure World.Admits (w : World) (tx : Transaction) : Prop where
  id_lt : tx.id < w.nextTransaction
  uncommitted : ∀ done ∈ w.commits, done.transaction ≠ tx.id
  nodup : (tx.captures.map (·.attack.key)).Nodup
  unrecorded : ∀ capture ∈ tx.captures, ∀ attack ∈ w.attacks, capture.attack.key ≠ attack.key
  fits : ∀ capture ∈ tx.captures, w.arena.Fits capture.attack
  locked : ∀ capture ∈ tx.captures, capture.attack.roundId ∈ tx.sharedRounds
  unfinalized : ∀ id ∈ tx.sharedRounds, ¬w.arena.Finalized id

/-- Two transactions have written nothing that is in the way of the other. -/
structure Transaction.Apart (tx other : Transaction) : Prop where
  id_ne : tx.id ≠ other.id
  key_ne : ∀ capture ∈ tx.captures, ∀ capture' ∈ other.captures,
    capture.attack.key ≠ capture'.attack.key

theorem Transaction.Apart.symm {tx other : Transaction} (h : tx.Apart other) : other.Apart tx :=
  ⟨h.id_ne.symm, fun capture hcapture capture' hcapture' =>
    (h.key_ne capture' hcapture' capture hcapture).symm⟩

structure World.Consistent (w : World) : Prop where
  recorded : w.attacks = w.commits.flatMap fun done => done.captures.map (·.attack)
  nodup : (w.attacks.map AdAttack.key).Nodup
  fits : ∀ attack ∈ w.attacks, w.arena.Fits attack
  announced : ∀ broadcast, .attack broadcast ∈ w.published →
    ∃ done ∈ w.commits, ∃ capture ∈ done.captures, capture.broadcast = some broadcast
  commits_nodup : (w.commits.map (·.transaction)).Nodup
  commits_lt : ∀ done ∈ w.commits, done.transaction < w.nextTransaction
  admits : ∀ tx ∈ w.transactions, w.Admits tx
  apart : ∀ tx ∈ w.transactions, ∀ other ∈ w.transactions, tx.process ≠ other.process →
    tx.Apart other

/-- What a process relies on while the others run. -/
structure World.Relied (p : ℕ) (w t : World) : Prop where
  own : t.transaction p = w.transaction p
  grows : w.arena.Grows t.arena
  locked : ∀ tx ∈ w.transaction p, ∀ id ∈ tx.sharedRounds,
    t.arena.rounds.get? id = w.arena.rounds.get? id
  attacks : ∀ attack ∈ w.attacks, attack ∈ t.attacks
  commits : ∀ done ∈ w.commits, done ∈ t.commits
  reopened : ∀ id, w.reopened id ≤ t.reopened id
  closed : ∀ id, w.arena.Finalized id → t.reopened id = w.reopened id →
    t.arena.Finalized id ∧ t.attacksOf id = w.attacksOf id

variable {p q : ℕ} {w t u : World}

theorem relied_refl (p : ℕ) (w : World) : w.Relied p w :=
  ⟨rfl, .refl w.arena, fun _ _ _ _ => rfl, fun _ h => h, fun _ h => h, fun _ => le_refl _,
    fun _ h _ => ⟨h, rfl⟩⟩

theorem relied_trans (p : ℕ) (w t u : World) (hwt : w.Relied p t) (htu : t.Relied p u) :
    w.Relied p u where
  own := htu.own.trans hwt.own
  grows := hwt.grows.trans htu.grows
  locked := fun tx htx id hid => by
    have htx' : tx ∈ t.transaction p := by
      rw [hwt.own]
      exact htx
    exact (htu.locked tx htx' id hid).trans (hwt.locked tx htx id hid)
  attacks := fun attack h => htu.attacks attack (hwt.attacks attack h)
  commits := fun done h => htu.commits done (hwt.commits done h)
  reopened := fun id => (hwt.reopened id).trans (htu.reopened id)
  closed := fun id hid heq => by
    have hmid : t.reopened id = w.reopened id :=
      le_antisymm ((htu.reopened id).trans_eq heq) (hwt.reopened id)
    obtain ⟨hfinal, hsame⟩ := hwt.closed id hid hmid
    obtain ⟨hfinal', hsame'⟩ := htu.closed id hfinal (heq.trans hmid.symm)
    exact ⟨hfinal', hsame'.trans hsame⟩

end Invariant

section Changes

/-- Another row, or none, in the place of the transaction of one process. -/
structure World.Moves (p : ℕ) (new : Option Transaction) (w t : World) : Prop where
  transactions : w.transactions.Puts p new t.transactions
  process : ∀ tx ∈ new, tx.process = p
  arena : t.arena = w.arena
  attacks : t.attacks = w.attacks
  commits : t.commits = w.commits
  published : t.published = w.published
  reopened : t.reopened = w.reopened
  nextTransaction : w.nextTransaction ≤ t.nextTransaction

variable {p q : ℕ} {w t : World} {new : Option Transaction} {tx : Transaction}

theorem World.Admits.mono (h : w.Admits tx) (harena : t.arena = w.arena)
    (hattacks : t.attacks = w.attacks) (hcommits : t.commits = w.commits)
    (hnext : w.nextTransaction ≤ t.nextTransaction) : t.Admits tx where
  id_lt := h.id_lt.trans_le hnext
  uncommitted := hcommits ▸ h.uncommitted
  nodup := h.nodup
  unrecorded := hattacks ▸ h.unrecorded
  fits := harena ▸ h.fits
  locked := h.locked
  unfinalized := harena ▸ h.unfinalized

theorem World.Moves.transaction_of_ne (h : w.Moves p new t) (hne : q ≠ p) :
    t.transaction q = w.transaction q :=
  h.transactions.get?_of_ne h.process hne

theorem World.Moves.transaction_self (h : w.Moves p new t) : t.transaction p = new :=
  h.transactions.get?_self h.process

theorem World.Moves.relied (h : w.Moves p new t) (hne : q ≠ p) : w.Relied q t where
  own := h.transaction_of_ne hne
  grows := h.arena ▸ .refl w.arena
  locked := fun _ _ _ _ => by rw [h.arena]
  attacks := fun _ hattack => h.attacks ▸ hattack
  commits := fun _ hdone => h.commits ▸ hdone
  reopened := fun id => (congrFun h.reopened id).ge
  closed := fun id hid _ => by
    refine ⟨h.arena ▸ hid, ?_⟩
    rw [World.attacksOf, World.attacksOf, h.attacks]

/-- The others do not notice a transaction which is in order. -/
theorem World.Moves.consistent (h : w.Moves p new t) (hw : w.Consistent)
    (hnew : ∀ tx ∈ new, t.Admits tx ∧
      ∀ other ∈ w.transactions, other.process ≠ p → tx.Apart other) : t.Consistent where
  recorded := by
    rw [h.attacks, h.commits]
    exact hw.recorded
  nodup := h.attacks ▸ hw.nodup
  fits := by
    rw [h.attacks, h.arena]
    exact hw.fits
  announced := by
    rw [h.published, h.commits]
    exact hw.announced
  commits_nodup := h.commits ▸ hw.commits_nodup
  commits_lt := fun done hdone =>
    (hw.commits_lt done (h.commits ▸ hdone)).trans_le h.nextTransaction
  admits := fun tx htx => by
    rcases (h.transactions tx).mp htx with ⟨hold, -⟩ | heq
    · exact (hw.admits tx hold).mono h.arena h.attacks h.commits h.nextTransaction
    · exact (hnew tx heq).1
  apart := fun tx htx other hother hne => by
    rcases (h.transactions tx).mp htx with ⟨hold, hp⟩ | heq <;>
      rcases (h.transactions other).mp hother with ⟨hold', hp'⟩ | heq'
    · exact hw.apart tx hold other hold' hne
    · exact ((hnew other heq').2 tx hold hp).symm
    · exact (hnew tx heq).2 other hold' hp'
    · exact absurd ((h.process tx heq).trans (h.process other heq').symm) hne

theorem moves_rollback (p : ℕ) (w : World) : w.Moves p none (rollback p w) :=
  ⟨Table.puts_remove, fun _ h => (by cases h), rfl, rfl, rfl, rfl, rfl, le_refl _⟩

theorem moves_begin (p : ℕ) (w : World) :
    w.Moves p (some ⟨p, w.nextTransaction, none, [], []⟩) (beginTransaction p w).1 :=
  ⟨Table.puts_put rfl, fun _ h => by rw [← Option.some.inj h], rfl, rfl, rfl, rfl, rfl,
    Nat.le_succ _⟩

theorem moves_modify (f : Transaction → Transaction) (htx : w.transaction p = some tx) :
    w.Moves p (some { f tx with process := p }) (modifyTransaction p f w) := by
  unfold modifyTransaction
  rw [htx]
  exact ⟨Table.puts_put rfl, fun _ h => by rw [← Option.some.inj h], rfl, rfl, rfl, rfl, rfl,
    le_refl _⟩

theorem World.mem_transactions (htx : w.transaction p = some tx) :
    tx ∈ w.transactions ∧ tx.process = p := Table.get?_eq_some.mp htx

end Changes

section Commits

variable {p q : ℕ} {w : World} {tx : Transaction}

theorem commit_eq (htx : w.transaction p = some tx) : commit p w = { w with
    attacks := w.attacks ++ tx.captures.map (·.attack)
    transactions := w.transactions.remove p
    commits := w.commits ++ [⟨tx.id, tx.captures⟩] } := by
  rw [commit, htx]

theorem map_key_captures (tx : Transaction) :
    (tx.captures.map (·.attack)).map AdAttack.key = tx.captures.map (·.attack.key) :=
  List.map_map

/-- What a transaction commits was written by nobody else. -/
theorem consistent_commit (htx : w.transaction p = some tx) (hw : w.Consistent) :
    (commit p w).Consistent := by
  obtain ⟨hmem, hp⟩ := World.mem_transactions htx
  have hadmits := hw.admits tx hmem
  rw [commit_eq htx]
  have hmem_remove : ∀ other, other ∈ w.transactions.remove p ↔
      other ∈ w.transactions ∧ other.process ≠ p := fun other => by
    rw [Table.remove, Table.mem_keep, decide_eq_true_eq]
  have hapart : ∀ other ∈ w.transactions.remove p, tx.Apart other := fun other hother => by
    obtain ⟨hother, hne⟩ := (hmem_remove other).mp hother
    exact hw.apart tx hmem other hother (hp ▸ hne.symm)
  refine ⟨?_, ?_, ?_, ?_, ?_, ?_, ?_, ?_⟩
  · rw [List.flatMap_append, ← hw.recorded, List.flatMap_singleton]
  · rw [List.map_append, map_key_captures]
    refine List.nodup_append.mpr ⟨hw.nodup, hadmits.nodup, fun key hkey key' hkey' => ?_⟩
    obtain ⟨attack, hattack, rfl⟩ := List.mem_map.mp hkey
    obtain ⟨capture, hcapture, rfl⟩ := List.mem_map.mp hkey'
    exact (hadmits.unrecorded capture hcapture attack hattack).symm
  · intro attack hattack
    rcases List.mem_append.mp hattack with hattack | hattack
    · exact hw.fits attack hattack
    · obtain ⟨capture, hcapture, rfl⟩ := List.mem_map.mp hattack
      exact hadmits.fits capture hcapture
  · intro broadcast hbroadcast
    obtain ⟨done, hdone, hcapture⟩ := hw.announced broadcast hbroadcast
    exact ⟨done, List.mem_append_left _ hdone, hcapture⟩
  · rw [List.map_append]
    refine List.nodup_append.mpr
      ⟨hw.commits_nodup, List.nodup_singleton _, fun id hid id' hid' => ?_⟩
    obtain ⟨done, hdone, rfl⟩ := List.mem_map.mp hid
    rw [List.mem_singleton.mp hid']
    exact hadmits.uncommitted done hdone
  · intro done hdone
    rcases List.mem_append.mp hdone with hdone | hdone
    · exact hw.commits_lt done hdone
    · rw [List.mem_singleton.mp hdone]
      exact hadmits.id_lt
  · intro other hother
    have hother' := hw.admits other ((hmem_remove other).mp hother).1
    refine { hother' with uncommitted := ?_, unrecorded := ?_ }
    · intro done hdone
      rcases List.mem_append.mp hdone with hdone | hdone
      · exact hother'.uncommitted done hdone
      · rw [List.mem_singleton.mp hdone]
        exact (hapart other hother).id_ne
    · intro capture hcapture attack hattack
      rcases List.mem_append.mp hattack with hattack | hattack
      · exact hother'.unrecorded capture hcapture attack hattack
      · obtain ⟨capture', hcapture', rfl⟩ := List.mem_map.mp hattack
        exact ((hapart other hother).key_ne capture' hcapture' capture hcapture).symm
  · intro one hone other hother hne
    exact hw.apart one ((hmem_remove one).mp hone).1 other ((hmem_remove other).mp hother).1 hne

/-- No capture is committed to a finalized round. -/
theorem relied_commit (htx : w.transaction p = some tx) (hw : w.Consistent) (hne : q ≠ p) :
    w.Relied q (commit p w) := by
  have hadmits := hw.admits tx (World.mem_transactions htx).1
  rw [commit_eq htx]
  refine ⟨?_, .refl w.arena, fun _ _ _ _ => rfl, fun attack h => List.mem_append_left _ h,
    fun done h => List.mem_append_left _ h, fun _ => le_refl _, fun id hid _ => ⟨hid, ?_⟩⟩
  · exact (Table.puts_remove (k := p)).get?_of_ne (fun _ h => by cases h) hne
  · have hnone : (tx.captures.map (·.attack)).filter
        (fun attack => decide (attack.roundId = id)) = [] := by
      refine List.filter_eq_nil_iff.mpr fun attack hattack heq => ?_
      obtain ⟨capture, hcapture, rfl⟩ := List.mem_map.mp hattack
      have hround : capture.attack.roundId = id := of_decide_eq_true heq
      exact hadmits.unfinalized id (hround ▸ hadmits.locked capture hcapture) hid
    rw [World.attacksOf, World.attacksOf, List.filter_append, hnone, List.append_nil]

end Commits

section Surroundings

variable {p : ℕ} {w t : World}

theorem World.Surroundings.grows (h : w.Surroundings t) : w.arena.Grows t.arena :=
  ⟨h.now, h.rounds, h.flags, h.services, h.participations⟩

theorem World.Surroundings.consistent (h : w.Surroundings t) (hw : w.Consistent) :
    t.Consistent where
  recorded := by
    rw [h.attacks, h.commits]
    exact hw.recorded
  nodup := h.attacks ▸ hw.nodup
  fits := fun attack hattack => (hw.fits attack (h.attacks ▸ hattack)).grows h.grows
  announced := by
    rw [h.published, h.commits]
    exact hw.announced
  commits_nodup := h.commits ▸ hw.commits_nodup
  commits_lt := by
    rw [h.commits, h.nextTransaction]
    exact hw.commits_lt
  admits := fun tx htx => by
    have htx' : tx ∈ w.transactions := h.transactions ▸ htx
    have hadmits := hw.admits tx htx'
    exact {
      id_lt := h.nextTransaction ▸ hadmits.id_lt
      uncommitted := h.commits ▸ hadmits.uncommitted
      nodup := hadmits.nodup
      unrecorded := h.attacks ▸ hadmits.unrecorded
      fits := fun capture hcapture => (hadmits.fits capture hcapture).grows h.grows
      locked := hadmits.locked
      unfinalized := fun id hid => by
        rw [Arena.Finalized, h.locked tx htx' id hid]
        exact hadmits.unfinalized id hid }
  apart := h.transactions ▸ hw.apart

theorem World.Surroundings.relied (h : w.Surroundings t) : w.Relied p t where
  own := by rw [World.transaction, World.transaction, h.transactions]
  grows := h.grows
  locked := fun tx htx => h.locked tx (World.mem_transactions htx).1
  attacks := fun _ hattack => h.attacks ▸ hattack
  commits := fun _ hdone => h.commits ▸ hdone
  reopened := h.reopened
  closed := fun id hid heq => by
    refine ⟨h.finalized id hid heq, ?_⟩
    rw [World.attacksOf, World.attacksOf, h.attacks]

/-- Captures are in order, and what a process has locked and written is left to it. -/
def submissionDiscipline : Discipline submissionSetting where
  inv := World.Consistent
  rely := World.Relied
  rely_refl := relied_refl
  rely_trans := relied_trans
  inv_abandon := fun p w h => (moves_rollback p w).consistent h fun _ htx => by cases htx
  rely_abandon := fun p _ w hne _ => (moves_rollback p w).relied hne
  inv_environment := fun _ _ h henv => henv.consistent h
  rely_environment := fun _ _ _ _ henv => henv.relied

end Surroundings

end FlagSubmission

end Rsctf
