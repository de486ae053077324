import Rsctf.FlagSubmission.Insertion

/-!
# What a submission guarantees

In every run, whatever the processes and their surroundings do in between: a reply accounts
for the rows which its transaction committed, an answer with an error has recorded nothing,
every recorded capture is in order, and a finalized round gets no more captures.
-/

namespace Rsctf

namespace FlagSubmission

open Interleaving (Discipline Setting System)

section Adjudication

variable {p x : ℕ} {r : SubmitRequest} {w : World} {captures : List Capture} {attacker : Attacker}
  {context : SubmitContext}

theorem requireActiveVictim_eq (service : Option ActiveVictimService) (planted : Option ℤ) :
    (∃ victim, service = some victim ∧ requireActiveVictim service planted = .ok victim) ∨
      requireActiveVictim service planted = .error (.wrong, planted) := by
  cases service with
  | none => exact .inr rfl
  | some victim => exact .inl ⟨victim, rfl, rfl⟩

/-- The capture which a key stands for, or the row behind a duplicate. -/
theorem World.Taken.of_key {attackerId flagId : ℤ} {text : String} {attack : AdAttack}
    (hattack : attack ∈ w.attacks ++ captures.map (·.attack))
    (hkey : attack.key = (attackerId, flagId))
    (hflag : ∃ flag ∈ w.arena.flags, flag.id = flagId ∧ flag.flag = text) :
    w.Taken attackerId captures text := by
  obtain ⟨hattacker, hflagId⟩ := Prod.mk.inj hkey
  obtain ⟨flag, hmem, hid, htext⟩ := hflag
  exact ⟨attack, hattack, hattacker, flag, hmem, hid.trans hflagId.symm, htext⟩

theorem World.Working.visibleAttacks (h : w.Working p x captures) :
    w.visibleAttacks p = w.attacks ++ captures.map (·.attack) := by
  obtain ⟨tx, htx, -, rfl⟩ := h
  rw [World.visibleAttacks, htx]
  rfl

/-- Whatever is found out about a flag, the transaction has written a row for it exactly when
it is accepted. -/
theorem sound_submitOne {instant : ℤ} {text : String} {next : SubmitOneResult → Program}
    (hworking : w.Working p x captures)
    (hnext : ∀ t outcome captures', t.Working p x captures' → w.Later t →
      Decided t context.attacker.id text captures outcome captures' →
      SoundFrom p r (next outcome) t) :
    SoundFrom p r (submitOne p context instant text next) w := by
  have hplain : ∀ t : World, t.Working p x captures → w.Later t → ∀ status planted,
      status ≠ .accepted → status ≠ .duplicate →
      SoundFrom p r (next (.withoutBroadcast (status, planted))) t :=
    fun t ht hlater status planted haccepted hduplicate =>
      hnext t _ captures ht hlater (.refused haccepted fun h => absurd h hduplicate)
  unfold submitOne
  cases context.currentRoundNumber with
  | none => exact hplain w hworking (.refl w) _ _ (by simp) (by simp)
  | some currentRoundNumber =>
    dsimp only
    split
    next => exact hplain w hworking (.refl w) _ _ (by simp) (by simp)
    next =>
      refine sound_query fun t hrely _ => ?_
      have ht := hworking.relied hrely
      cases hfound : t.arena.activeVictimFlag context.gameId text with
      | none => exact hplain t ht hrely.later _ _ (by simp) (by simp)
      | some found =>
        obtain ⟨hflag, hservice⟩ := activeVictimFlag_eq_some hfound
        dsimp only
        rcases requireActiveVictim_eq found.activeService found.plantedRoundNumber with
          ⟨victim, hvictim, h⟩ | h
        · rw [h]
          dsimp only
          split
          next => exact hplain t ht hrely.later _ _ (by simp) (by simp)
          next hother =>
            split
            next => exact hplain t ht hrely.later _ _ (by simp) (by simp)
            next =>
              obtain ⟨service, hservice, hpart⟩ := hservice victim hvictim
              refine sound_insertAcceptedAttack ht
                ⟨⟨service, hservice, fun heq => hother (hpart.symm.trans heq)⟩, hflag⟩
                (fun u capture inserted hu hlater htakes hbroadcast => ?_) fun u hu hlater => ?_
              · refine hnext u _ _ hu (hrely.later.trans hlater) ?_
                rw [← hbroadcast]
                exact .accepted capture htakes
              · refine sound_query fun v hv _ => ?_
                have hu' := hu.relied hv
                have hlater' := (hrely.later.trans hlater).trans hv.later
                obtain ⟨haccepted, hduplicate⟩ := rejection_spec v.arena (v.visibleAttacks p)
                  ⟨context.attacker.id, victim.id, found.flagId, context.gameId⟩
                refine hnext v _ _ hu' hlater' (.refused haccepted fun h => ?_)
                obtain ⟨attack, hattack, hkey⟩ := hduplicate h
                rw [hu'.visibleAttacks] at hattack
                obtain ⟨flag, hmem, hid⟩ := hflag
                exact .of_key hattack hkey
                  ⟨flag, (hlater.trans hv.later).grows.flags flag hmem, hid⟩
        · rw [h]
          exact hplain t ht hrely.later _ _ (by simp) (by simp)

/-- The account is kept from flag to flag; by induction on the flags which are left. -/
theorem sound_adjudicate {clock : String → ℤ} {next : Batch → Program} {all : List String}
    (hnext : ∀ t batch captures, t.Working p x captures →
      batch.Kept t context.attacker.id captures →
      batch.results.map (·.flag) = all → SoundFrom p r (next batch) t)
    (flags : List String) (index : ℕ) (batch : Batch) (w : World) (captures : List Capture)
    (hworking : w.Working p x captures) (hkept : batch.Kept w context.attacker.id captures)
    (hall : batch.results.map (·.flag) ++ labels index flags = all) :
    SoundFrom p r (adjudicate p context clock next index flags batch) w := by
  induction flags generalizing index batch w captures with
  | nil =>
    refine hnext w batch captures hworking hkept ?_
    rw [← hall]
    exact (List.append_nil _).symm
  | cons text flags ih =>
    have hlabels : labels index (text :: flags) =
        boundedResultLabel index text :: labels (index + 1) flags := rfl
    rw [hlabels, ← List.singleton_append, ← List.append_assoc] at hall
    unfold adjudicate
    split
    next =>
      refine ih (index + 1) _ w captures hworking (hkept.reject index text) ?_
      rw [← hall, Batch.reject, List.map_append]
      rfl
    next hplausible =>
      have hlabel : boundedResultLabel index text = text :=
        if_pos (eq_true_of_ne_false hplausible)
      rw [hlabel] at hall
      split
      next previous hprevious =>
        refine ih (index + 1) _ w captures hworking
          (hkept.record (hkept.decided_repeated hprevious)) ?_
        rw [← hall, Batch.record, List.map_append]
        rfl
      next =>
        refine sound_submitOne hworking fun t outcome captures' ht hlater hdecided => ?_
        refine ih (index + 1) _ t captures' ht ((hkept.later hlater).settle hdecided) ?_
        rw [← hall, Batch.settle, Batch.record, List.map_append]
        rfl

end Adjudication

section Submission

variable {p x : ℕ} {r : SubmitRequest} {w : World} {attacker : Attacker}

theorem filterMap_broadcast_mem {captures : List Capture} {broadcast : PendingAttackBroadcast}
    (h : broadcast ∈ captures.filterMap (·.broadcast)) :
    ∃ capture ∈ captures, capture.broadcast = some broadcast :=
  List.mem_filterMap.mp h

/-- The events of a batch are about captures which have been committed. -/
theorem allowed_announce {gameId : ℤ} {game : Game} {batch : Batch} {captures : List Capture}
    (hw : w.Consistent) (hcommit : ⟨x, captures⟩ ∈ w.commits)
    (hbroadcasts : batch.broadcasts = captures.filterMap (·.broadcast)) :
    submissionDiscipline.Allowed p w (announce gameId game batch w) := by
  refine ⟨⟨hw.recorded, hw.nodup, hw.fits, fun broadcast hbroadcast => ?_, hw.commits_nodup,
    hw.commits_lt, fun tx htx => (hw.admits tx htx).mono rfl rfl rfl (le_refl _), hw.apart⟩,
    fun q _ => ⟨rfl, .refl w.arena, fun _ _ _ _ => rfl, fun _ h => h, fun _ h => h,
      fun _ => le_refl _, fun _ h _ => ⟨h, rfl⟩⟩⟩
  unfold announce at hbroadcast
  rcases List.mem_append.mp hbroadcast with hbefore | hnew
  · rcases List.mem_append.mp hbefore with hbefore | hchanged
    · exact hw.announced broadcast hbefore
    · split_ifs at hchanged <;> simp at hchanged
  · obtain ⟨other, hother, heq⟩ := List.mem_map.mp hnew
    obtain rfl := Event.attack.inj heq
    rw [hbroadcasts] at hother
    exact ⟨_, hcommit, filterMap_broadcast_mem hother⟩

theorem sound_submitOpen {game : Game} (hattacker : r.attacker = .ok attacker)
    (hworking : w.Working p x []) : SoundFrom p r (submitOpen p r attacker x game) w := by
  refine sound_query fun t hrely _ => ?_
  refine sound_adjudicate (fun u batch captures hu hkept hlabels => ?_) r.flags 0 .empty t []
    (hworking.relied hrely) (Batch.kept_empty t attacker.id) (List.nil_append (labels 0 r.flags))
  refine sound_release hu fun v hcommit hrecorded hlater hinv => ?_
  have hkept' := hkept.later hlater
  refine sound_update fun y hy hinv' => ?_
  have hdone : ⟨x, captures⟩ ∈ y.commits := hy.commits _ hcommit
  refine ⟨allowed_announce hinv' hdone hkept.broadcasts,
    attacker, x, captures, hattacker, rfl, hdone, hlabels, hkept.accounted.count, ?_, ?_⟩
  · exact (hkept'.later hy.later).accounted.accepted
  · intro result hresult hstatus
    obtain ⟨attack, hattack, htakes⟩ := hkept'.accounted.duplicates result hresult hstatus
    refine ⟨attack, List.mem_append_left _ (hy.attacks attack ?_), htakes.grows hy.grows⟩
    rcases List.mem_append.mp hattack with hattack | hattack
    · exact hattack
    · obtain ⟨capture, hcapture, rfl⟩ := List.mem_map.mp hattack
      exact hrecorded capture hcapture

theorem sound_submitFenced (hattacker : r.attacker = .ok attacker)
    (hworking : w.Working p x []) : SoundFrom p r (submitFenced p r attacker x) w := by
  refine sound_acquireAdditional hworking fun t ht => sound_query fun u hu _ => ?_
  have hworking := ht.relied hu
  split
  next => exact sound_conclude_error hworking
  next =>
    refine sound_query fun v hv _ => ?_
    have hworking := hworking.relied hv
    split
    next => exact sound_conclude_error hworking
    next game _ =>
      refine sound_query fun y hy _ => ?_
      have hworking := hworking.relied hy
      split
      next => exact sound_conclude_closed hattacker hworking (by simp) (by simp)
      next =>
        split
        next => exact sound_conclude_closed hattacker hworking (by simp) (by simp)
        next =>
          split
          next => exact sound_conclude_closed hattacker hworking (by simp) (by simp)
          next => exact sound_submitOpen hattacker hworking

theorem sound_submit (p : ℕ) (r : SubmitRequest) (w : World) : SoundFrom p r (submit p r) w := by
  unfold submit
  split
  next => exact sound_refuse
  next =>
    cases hattacker : r.attacker with
    | error error => exact sound_refuse
    | ok attacker =>
      dsimp only
      split
      next => exact sound_refuse
      next =>
        split
        next => exact sound_refuse
        next => exact sound_begin fun t x ht => sound_submitFenced hattacker ht

end Submission

section Sample

/-- The runs of submissions from a start without processes. -/
abbrev Run (start : World) (events : List (Interleaving.Event SubmitRequest))
    (s : System World SubmitRequest Outcome) : Prop :=
  StepPath submissionSetting.Step ⟨start, fun _ => none⟩ events s

def sampleText : String := "flag\x7bABCDEFGHIJKLMNOPQRSTUVWXYZabcd_-\x7d"

theorem nodup_sampleRounds : ([4, 5] : List ℤ).Nodup := by decide

theorem nodup_sampleFlags : ([8] : List ℤ).Nodup := by decide

/-- A game with a finalized round and an open one, in which a flag is planted. -/
def sampleArena : Arena where
  now := 50
  games := fun id => if id = 1 then some ⟨0, 100, false, none, none⟩ else none
  rounds := ⟨[⟨4, 1, 2, true⟩, ⟨5, 1, 3, false⟩], nodup_sampleRounds⟩
  flags := ⟨[⟨8, 5, 20, sampleText⟩], nodup_sampleFlags⟩
  services := fun id => if id = 20 then some ⟨1, 11, 30⟩ else none
  participations := fun id =>
    if id = 10 then some ⟨1, 100, .accepted⟩
    else if id = 11 then some ⟨1, 101, .accepted⟩
    else none
  challenges := fun id =>
    if id = 30 then some ⟨1, true, .active, .attackDefense, "service"⟩ else none
  teams := fun _ => some "team"

def sampleWorld : World :=
  ⟨sampleArena, [], .empty, 0, 1, [], fun _ => 0, []⟩

theorem consistent_sampleWorld : sampleWorld.Consistent where
  recorded := rfl
  nodup := List.nodup_nil
  fits := fun _ h => by cases h
  announced := fun _ h => by cases h
  commits_nodup := List.nodup_nil
  commits_lt := fun _ h => by cases h
  admits := fun _ h => by cases h
  apart := fun _ h => by cases h

/-- A batch with a flag, the same flag again, and a text which is none. -/
def sampleRequest : SubmitRequest :=
  ⟨1, [sampleText, sampleText, "x"], .ok ⟨10, 1, 100⟩, .session, fun _ => true, true,
    fun _ => true, fun _ => 50⟩

def sampleOutcome : Outcome :=
  ⟨some 0, .ok ⟨1, [⟨sampleText, .accepted, some 3, none⟩, ⟨sampleText, .duplicate, some 3, none⟩,
    ⟨"#3", .rejected, none, some "flag does not match the A&D grammar"⟩]⟩⟩

def sampleStart : System World SubmitRequest Outcome :=
  ⟨sampleWorld, Function.update (fun _ => none) 0 (some (sampleRequest, submit 0 sampleRequest))⟩

theorem sample_started : Run sampleWorld [.start 0 sampleRequest] sampleStart :=
  .cons (.start sampleRequest rfl) (.nil _)

theorem sample_drive : ∃ w, (submit 0 sampleRequest).drive 12 sampleWorld =
    some (.done sampleOutcome, w) ∧ w.attacks = [⟨1, 5, 10, 20, 8, 50⟩] ∧
      .attack ⟨1, "team", some "team", "service", .firstBlood⟩ ∈ w.published ∧
      w.reopened 4 = 0 :=
  ⟨_, rfl, rfl, by decide, rfl⟩

/-- The batch is adjudicated without a break. -/
theorem sample_ends : ∃ s t,
    StepPath submissionSetting.Step sampleStart (List.replicate 11 (.step 0)) s ∧
      submissionSetting.Step s (.step 0) t ∧
      t.running 0 = some (sampleRequest, .done sampleOutcome) ∧
      t.shared.attacks = [⟨1, 5, 10, 20, 8, 50⟩] ∧
      .attack ⟨1, "team", some "team", "service", .firstBlood⟩ ∈ t.shared.published ∧
      t.shared.reopened 4 = 0 := by
  obtain ⟨w, hdrive, hattacks, hpublished, hreopened⟩ := sample_drive
  have hp : sampleStart.running 0 = some (sampleRequest, submit 0 sampleRequest) := rfl
  obtain ⟨s, t, hpath, hstep, rfl, hend⟩ := Interleaving.ends_of_drive submissionSetting hp hdrive
  exact ⟨s, t, hpath, hstep, hend, hattacks, hpublished, hreopened⟩

end Sample

section Runs

variable {start : World} {events later : List (Interleaving.Event SubmitRequest)}
  {s t : System World SubmitRequest Outcome} {p : ℕ} {r : SubmitRequest} {outcome : Outcome}

theorem keeps_run (hstart : start.Consistent) (hrun : Run start events s) :
    submissionDiscipline.Keeps SubmitRequest.Answered s :=
  Discipline.Keeps.run (fun p r w _ => sound_submit p r w) hrun (Discipline.keeps_start hstart)

/-- Every recorded capture takes a flag of the same game from another team's service, and the
flag was planted less than fifty rounds before. -/
theorem captures_in_order (hstart : start.Consistent) (hrun : Run start events s) :
    ∀ attack ∈ s.shared.attacks, s.shared.arena.Fits attack :=
  (keeps_run hstart hrun).inv.fits

theorem captures_in_order_sample : ∃ arena : Arena, arena.Fits ⟨1, 5, 10, 20, 8, 50⟩ := by
  obtain ⟨s, t, hpath, hstep, -, hattacks, -⟩ := sample_ends
  refine ⟨t.shared.arena, captures_in_order consistent_sampleWorld
    ((sample_started.append hpath).snoc hstep) _ ?_⟩
  rw [hattacks]
  exact List.mem_singleton_self _

/-- As long as a finalized round is not reopened, it gets no more captures. -/
theorem finalized_round_closed (hstart : start.Consistent) (hrun : Run start events s)
    (hlater : StepPath submissionSetting.Step s later t) {roundId : ℤ}
    (hfinal : s.shared.arena.Finalized roundId)
    (hreopened : t.shared.reopened roundId = s.shared.reopened roundId) :
    t.shared.arena.Finalized roundId ∧
      t.shared.attacksOf roundId = s.shared.attacksOf roundId := by
  obtain ⟨q, hq⟩ := Discipline.exists_bystander later
  exact ((keeps_run hstart hrun).relied_run (fun p r w _ => sound_submit p r w) hlater hq).closed
    roundId hfinal hreopened

theorem finalized_round_closed_sample : ∃ w : World,
    w.attacks.length = 1 ∧ w.attacksOf 4 = [] := by
  obtain ⟨s, t, hpath, hstep, -, hattacks, -, hreopened⟩ := sample_ends
  refine ⟨t.shared, ?_, (finalized_round_closed consistent_sampleWorld sample_started
    (hpath.snoc hstep) (show sampleWorld.arena.Finalized 4 from rfl) hreopened).2⟩
  rw [hattacks]
  rfl

end Runs

end FlagSubmission

end Rsctf
