import Mathlib.Data.List.Dedup
import Mathlib.Data.List.Pairwise
import Mathlib.Data.List.Sort
import Rsctf.Vpn.Firewall

/-!
# What a transition has to deny

Between two states of the VPN the kernel runs rules of the old one.  Before the new state is
built, the peers which lose an identity or a game are quarantined, and the endpoints which a
peer may no longer reach are blocked for it.
-/

namespace Rsctf

namespace Vpn

abbrev Digest := List (Fin 256)

structure AppliedPeer where
  gameId : ℤ
  publicKey : String
  address : ℕ
deriving DecidableEq, Repr

structure AppliedState where
  fingerprint : Digest
  hubIdentity : Digest
  peers : List AppliedPeer
  policies : List GameVpnPolicy
deriving DecidableEq, Repr

structure TransitionQuarantine where
  peers : List ℕ
  blocks : List CooldownBlock
deriving DecidableEq, Repr

def TransitionQuarantine.isEmpty (quarantine : TransitionQuarantine) : Bool :=
  quarantine.peers.isEmpty && quarantine.blocks.isEmpty

def CooldownBlock.le (left right : CooldownBlock) : Prop :=
  left.peer < right.peer ∨ left.peer = right.peer ∧
    (left.target.address < right.target.address ∨
      left.target.address = right.target.address ∧ left.target.port ≤ right.target.port)

instance : DecidableRel CooldownBlock.le := fun _ _ => inferInstanceAs (Decidable (_ ∨ _))

section Transition

def policyOf (policies : List GameVpnPolicy) (gameId : ℤ) : Option GameVpnPolicy :=
  policies.find? fun policy => policy.gameId = gameId

/-- The addresses of the peers which are not installed as before. -/
def changedPeers (previous desired : AppliedState) : List ℕ :=
  (previous.peers.filter fun peer => peer ∉ desired.peers).map (·.address)

/-- The peers of a game which are no peers of it any more. -/
def droppedPeers (desired : AppliedState) (old : GameVpnPolicy) : List ℕ :=
  match policyOf desired.policies old.gameId with
  | none => old.peers
  | some new => old.peers.filter fun peer => peer ∉ new.peers

/-- The targets of a game which are no targets of it any more, for each of its peers. -/
def droppedTargets (desired : AppliedState) (old : GameVpnPolicy) : List CooldownBlock :=
  match policyOf desired.policies old.gameId with
  | none => []
  | some new => (old.targets.filter fun target => target ∉ new.targets).flatMap fun target =>
      old.peers.map fun peer => ⟨peer, target⟩

/-- The cooldown blocks of a game which it did not have before. -/
def newBlocks (previous : AppliedState) (new : GameVpnPolicy) : List CooldownBlock :=
  new.cooldownBlocks.filter fun block =>
    (policyOf previous.policies new.gameId).all fun old => block ∉ old.cooldownBlocks

/-- The sets are listed in order. -/
def transitionQuarantine (previous desired : AppliedState) : TransitionQuarantine where
  peers := ((changedPeers previous desired ++
    previous.policies.flatMap (droppedPeers desired)).dedup).insertionSort (· ≤ ·)
  blocks := ((previous.policies.flatMap (droppedTargets desired) ++
    desired.policies.flatMap (newBlocks previous)).dedup).insertionSort CooldownBlock.le

end Transition

/-- A game of the state lets the peer reach the target. -/
def AppliedState.permits (state : AppliedState) (peer : ℕ) (target : VpnTarget) : Prop :=
  ∃ policy ∈ state.policies, peer ∈ policy.peers ∧ target ∈ policy.targets ∧
    ⟨peer, target⟩ ∉ policy.cooldownBlocks

instance (state : AppliedState) (peer : ℕ) (target : VpnTarget) :
    Decidable (state.permits peer target) := inferInstanceAs (Decidable (∃ _ ∈ _, _))

/-- Every game has one policy, and no peer belongs to two games. -/
structure AppliedState.Separate (state : AppliedState) : Prop where
  games : state.policies.Pairwise fun policy policy' => policy.gameId ≠ policy'.gameId
  peers : state.policies.Pairwise fun policy policy' => ∀ peer ∈ policy.peers, peer ∉ policy'.peers

section Members

variable {previous desired : AppliedState} {old new policy policy' : GameVpnPolicy} {peer : ℕ}
  {target : VpnTarget} {block : CooldownBlock} {state : AppliedState}

theorem AppliedState.Separate.policyOf_eq_some_iff (h : state.Separate) {gameId : ℤ} :
    policyOf state.policies gameId = some policy ↔
      policy ∈ state.policies ∧ policy.gameId = gameId := by
  constructor
  · intro hfind
    exact ⟨List.mem_of_find?_eq_some hfind, by simpa using List.find?_some hfind⟩
  · rintro ⟨hmem, rfl⟩
    obtain ⟨before, after, hsplit⟩ := List.append_of_mem hmem
    have hgames := h.games
    rw [hsplit, List.pairwise_append] at hgames
    rw [policyOf, List.find?_eq_some_iff_append]
    refine ⟨by simp, before, after, hsplit, fun other hother => ?_⟩
    simpa using hgames.2.2 other hother policy List.mem_cons_self

/-- What holds of the policy of a game holds of every policy with its number. -/
theorem AppliedState.Separate.forall_policyOf (h : state.Separate) {gameId : ℤ}
    {P : GameVpnPolicy → Prop} : (∀ policy, policyOf state.policies gameId = some policy → P policy) ↔
      ∀ policy ∈ state.policies, policy.gameId = gameId → P policy := by
  simp only [h.policyOf_eq_some_iff, and_imp]

theorem AppliedState.Separate.eq_of_game (h : state.Separate) (hpolicy : policy ∈ state.policies)
    (hpolicy' : policy' ∈ state.policies) (hgame : policy.gameId = policy'.gameId) :
    policy = policy' := by
  have hsome := h.policyOf_eq_some_iff.mpr ⟨hpolicy, hgame⟩
  rw [h.policyOf_eq_some_iff.mpr ⟨hpolicy', rfl⟩] at hsome
  exact (Option.some.inj hsome).symm

/-- A peer has one policy. -/
theorem AppliedState.Separate.eq_of_peer (h : state.Separate) (hpolicy : policy ∈ state.policies)
    (hpolicy' : policy' ∈ state.policies) (hpeer : peer ∈ policy.peers)
    (hpeer' : peer ∈ policy'.peers) : policy = policy' := by
  by_contra hne
  have hsymm : Std.Symm fun a b : GameVpnPolicy => ∀ peer ∈ a.peers, peer ∉ b.peers :=
    ⟨fun a b hab peer hb ha => hab peer ha hb⟩
  exact h.peers.forall hpolicy hpolicy' hne peer hpeer hpeer'

theorem mem_quarantine_peers : peer ∈ (transitionQuarantine previous desired).peers ↔
    (∃ p ∈ previous.peers, p ∉ desired.peers ∧ p.address = peer) ∨
      ∃ old ∈ previous.policies, peer ∈ droppedPeers desired old := by
  simp [transitionQuarantine, changedPeers, and_assoc]

theorem mem_quarantine_blocks : block ∈ (transitionQuarantine previous desired).blocks ↔
    (∃ old ∈ previous.policies, block ∈ droppedTargets desired old) ∨
      ∃ new ∈ desired.policies, block ∈ newBlocks previous new := by
  simp [transitionQuarantine]

theorem mem_droppedPeers (h : desired.Separate) : peer ∈ droppedPeers desired old ↔
    peer ∈ old.peers ∧ ∀ new ∈ desired.policies, new.gameId = old.gameId → peer ∉ new.peers := by
  rw [← h.forall_policyOf, droppedPeers]
  cases policyOf desired.policies old.gameId <;> simp

theorem mem_droppedTargets (h : desired.Separate) : block ∈ droppedTargets desired old ↔
    ∃ new ∈ desired.policies, new.gameId = old.gameId ∧ block.peer ∈ old.peers ∧
      block.target ∈ old.targets ∧ block.target ∉ new.targets := by
  have hblock : ∀ {new : GameVpnPolicy},
      block ∈ ((old.targets.filter fun target => target ∉ new.targets).flatMap fun target =>
        old.peers.map fun peer => (⟨peer, target⟩ : CooldownBlock)) ↔
      block.peer ∈ old.peers ∧ block.target ∈ old.targets ∧ block.target ∉ new.targets := by
    intro new
    cases block
    simp
    tauto
  have hexists : (∃ new ∈ desired.policies, new.gameId = old.gameId ∧ block.peer ∈ old.peers ∧
      block.target ∈ old.targets ∧ block.target ∉ new.targets) ↔
      ∃ new, policyOf desired.policies old.gameId = some new ∧ block.peer ∈ old.peers ∧
        block.target ∈ old.targets ∧ block.target ∉ new.targets := by
    simp only [h.policyOf_eq_some_iff, and_assoc]
  rw [hexists, droppedTargets]
  cases policyOf desired.policies old.gameId with
  | none => simp
  | some new => simp only [hblock, Option.some.injEq, exists_eq_left']

theorem mem_newBlocks (h : previous.Separate) : block ∈ newBlocks previous new ↔
    block ∈ new.cooldownBlocks ∧
      ∀ old ∈ previous.policies, old.gameId = new.gameId → block ∉ old.cooldownBlocks := by
  rw [← h.forall_policyOf, newBlocks, List.mem_filter]
  cases policyOf previous.policies new.gameId <;> simp

end Members

/-- A peer was removed from a game: it was installed there or in its policy, and it is not. -/
def RemovedFromGame (previous desired : AppliedState) (peer : ℕ) : Prop :=
  (∃ p ∈ previous.peers, p.address = peer ∧ ∀ q ∈ desired.peers, q.address ≠ peer) ∨
    ∃ old ∈ previous.policies, peer ∈ old.peers ∧
      ∀ new ∈ desired.policies, new.gameId = old.gameId → peer ∉ new.peers

/-- A peer is installed with another key in its game. -/
def RotatedKey (previous desired : AppliedState) (peer : ℕ) : Prop :=
  ∃ p ∈ previous.peers, ∃ q ∈ desired.peers, p.address = peer ∧ q.address = peer ∧
    q.gameId = p.gameId ∧ q.publicKey ≠ p.publicKey

def ChangedGame (previous desired : AppliedState) (peer : ℕ) : Prop :=
  ∃ p ∈ previous.peers, ∃ q ∈ desired.peers, p.address = peer ∧ q.address = peer ∧
    q.gameId ≠ p.gameId

/-- The quarantine of a transition covers what is revoked, and it denies nothing else but
endpoints of quarantined peers and cooldowns of strangers. -/
structure ExactQuarantine (previous desired : AppliedState) (quarantine : TransitionQuarantine) :
    Prop where
  revoked : ∀ peer target, previous.permits peer target → ¬desired.permits peer target →
    peer ∈ quarantine.peers ∨ ⟨peer, target⟩ ∈ quarantine.blocks
  changed : ∀ p ∈ previous.peers, p ∉ desired.peers → p.address ∈ quarantine.peers
  quarantined : ∀ peer ∈ quarantine.peers, RemovedFromGame previous desired peer ∨
    RotatedKey previous desired peer ∨ ChangedGame previous desired peer
  blocked : ∀ block ∈ quarantine.blocks, desired.permits block.peer block.target →
    block.peer ∈ quarantine.peers ∨
      ∃ new ∈ desired.policies, block ∈ new.cooldownBlocks ∧ block.peer ∉ new.peers

section Exact

variable {previous desired : AppliedState} {peer : ℕ} {target : VpnTarget} {block : CooldownBlock}

/-- A peer which keeps its game loses a target either because the game does or by a cooldown. -/
theorem blocked_of_revoked (hprevious : previous.Separate) (hdesired : desired.Separate)
    (hbefore : previous.permits peer target) (hafter : ¬desired.permits peer target)
    (hkept : peer ∉ (transitionQuarantine previous desired).peers) :
    ⟨peer, target⟩ ∈ (transitionQuarantine previous desired).blocks := by
  obtain ⟨old, hold, hpeer, htarget, hfree⟩ := hbefore
  rw [mem_quarantine_peers, not_or] at hkept
  have hnew : ∃ new ∈ desired.policies, new.gameId = old.gameId ∧ peer ∈ new.peers := by
    by_contra hnone
    refine hkept.2 ⟨old, hold, (mem_droppedPeers hdesired).mpr ⟨hpeer, ?_⟩⟩
    intro new hmem hgame hnew
    exact hnone ⟨new, hmem, hgame, hnew⟩
  obtain ⟨new, hmem, hgame, hpeer'⟩ := hnew
  rw [mem_quarantine_blocks]
  by_cases htarget' : target ∈ new.targets
  · -- the target is kept, so the peer is newly cooled down
    have hcooled : ⟨peer, target⟩ ∈ new.cooldownBlocks := by
      by_contra hfree'
      exact hafter ⟨new, hmem, hpeer', htarget', hfree'⟩
    refine .inr ⟨new, hmem, (mem_newBlocks hprevious).mpr ⟨hcooled, fun old' hold' hgame' => ?_⟩⟩
    rwa [hprevious.eq_of_game hold' hold (hgame'.trans hgame)]
  · exact .inl ⟨old, hold,
      (mem_droppedTargets hdesired).mpr ⟨new, hmem, hgame, hpeer, htarget, htarget'⟩⟩

theorem reason_of_quarantined (hdesired : desired.Separate)
    (hpeer : peer ∈ (transitionQuarantine previous desired).peers) :
    RemovedFromGame previous desired peer ∨ RotatedKey previous desired peer ∨
      ChangedGame previous desired peer := by
  rcases mem_quarantine_peers.mp hpeer with ⟨p, hp, hchanged, rfl⟩ | ⟨old, hold, hdropped⟩
  · by_cases hgone : ∀ q ∈ desired.peers, q.address ≠ p.address
    · exact .inl (.inl ⟨p, hp, rfl, hgone⟩)
    · push Not at hgone
      obtain ⟨q, hq, haddress⟩ := hgone
      by_cases hgame : q.gameId = p.gameId
      · refine .inr (.inl ⟨p, hp, q, hq, rfl, haddress, hgame, fun hkey => hchanged ?_⟩)
        have hsame : p = q := by
          cases p
          cases q
          simp_all
        exact hsame ▸ hq
      · exact .inr (.inr ⟨p, hp, q, hq, rfl, haddress, hgame⟩)
  · exact .inl (.inr ⟨old, hold, (mem_droppedPeers hdesired).mp hdropped⟩)

/-- A peer which is permitted a blocked endpoint got it in another game. -/
theorem reason_of_blocked (hdesired : desired.Separate)
    (hblock : block ∈ (transitionQuarantine previous desired).blocks)
    (hpermits : desired.permits block.peer block.target) :
    block.peer ∈ (transitionQuarantine previous desired).peers ∨
      ∃ new ∈ desired.policies, block ∈ new.cooldownBlocks ∧ block.peer ∉ new.peers := by
  obtain ⟨policy, hpolicy, hpeer, htarget, hfree⟩ := hpermits
  rcases mem_quarantine_blocks.mp hblock with ⟨old, hold, hdropped⟩ | ⟨new, hmem, hnew⟩
  · obtain ⟨new, hmem, hgame, hpeerOld, -, htarget'⟩ := (mem_droppedTargets hdesired).mp hdropped
    refine .inl (mem_quarantine_peers.mpr (.inr ⟨old, hold, ?_⟩))
    refine (mem_droppedPeers hdesired).mpr ⟨hpeerOld, fun new' hmem' hgame' hpeer' => htarget' ?_⟩
    rw [hdesired.eq_of_game hmem hmem' (hgame.trans hgame'.symm),
      hdesired.eq_of_peer hmem' hpolicy hpeer' hpeer]
    exact htarget
  · have hcooled := (List.mem_filter.mp hnew).1
    refine .inr ⟨new, hmem, hcooled, fun hpeer' => hfree ?_⟩
    rwa [hdesired.eq_of_peer hpolicy hmem hpeer hpeer']

end Exact

theorem transitionQuarantine_exact {previous desired : AppliedState}
    (hprevious : previous.Separate) (hdesired : desired.Separate) :
    ExactQuarantine previous desired (transitionQuarantine previous desired) where
  revoked := by
    intro peer target hbefore hafter
    by_cases hquarantined : peer ∈ (transitionQuarantine previous desired).peers
    · exact .inl hquarantined
    · exact .inr (blocked_of_revoked hprevious hdesired hbefore hafter hquarantined)
  changed := fun p hp hchanged => mem_quarantine_peers.mpr (.inl ⟨p, hp, hchanged, rfl⟩)
  quarantined := fun _ => reason_of_quarantined hdesired
  blocked := fun _ => reason_of_blocked hdesired

section Moved

def appliedWith (policies : List GameVpnPolicy) : AppliedState := ⟨[], [], [], policies⟩

/-- The second peer leaves the first game with its target, and plays the second game. -/
def beforeMove : AppliedState := appliedWith [⟨1, [1, 2], [⟨9, 80⟩], []⟩]

def afterMove : AppliedState := appliedWith [⟨1, [1], [], []⟩, ⟨2, [2], [⟨9, 80⟩], []⟩]

theorem separate_beforeMove : beforeMove.Separate := ⟨by decide, by decide⟩

theorem separate_afterMove : afterMove.Separate := ⟨by decide, by decide⟩

theorem transitionQuarantine_exact_move :
    ExactQuarantine beforeMove afterMove (transitionQuarantine beforeMove afterMove) :=
  transitionQuarantine_exact separate_beforeMove separate_afterMove

/-- A cooldown of the first game names a peer of the second one. -/
def beforeStranger : AppliedState := appliedWith [⟨2, [2], [⟨9, 80⟩], []⟩]

def afterStranger : AppliedState :=
  appliedWith [⟨1, [1], [], [⟨2, ⟨9, 80⟩⟩]⟩, ⟨2, [2], [⟨9, 80⟩], []⟩]

/-- A blocked endpoint may be permitted, both to a peer which moved and to a stranger. -/
theorem not_blocked_only_denied :
    (¬∀ previous desired : AppliedState, previous.Separate → desired.Separate →
      ∀ block ∈ (transitionQuarantine previous desired).blocks,
        ¬desired.permits block.peer block.target) ∧
    (beforeStranger.Separate ∧ afterStranger.Separate ∧
      ∃ block ∈ (transitionQuarantine beforeStranger afterStranger).blocks,
        afterStranger.permits block.peer block.target ∧
          block.peer ∉ (transitionQuarantine beforeStranger afterStranger).peers) := by
  refine ⟨fun h => ?_, ⟨by decide, by decide⟩, ⟨by decide, by decide⟩, by decide +kernel⟩
  have hblock : (⟨2, ⟨9, 80⟩⟩ : CooldownBlock) ∈
      (transitionQuarantine beforeMove afterMove).blocks := by decide +kernel
  exact h beforeMove afterMove separate_beforeMove separate_afterMove _ hblock (by decide)

end Moved

end Vpn

end Rsctf
