import Mathlib.Data.List.Pairwise
import Mathlib.Tactic.Tauto
import Rsctf.Vpn.Firewall

/-!
# What the chains admit

The sets of a generation have exactly the members their policies ask for.  With them the
chains admit a new packet just when a policy permits it and no drop set covers it, up to the
places where an accept stands before a drop: established packets to this host, the access to
the portal, replies to the peers of an earlier game, and blocks which an earlier game lists
for the peer of a later one.
-/

namespace Rsctf

namespace Vpn

section Restore

variable {kernel sets : Ipsets} {name : SetName} {entry : Entry} {script : List IpsetCommand}
  {command : IpsetCommand}

theorem mem_members_run (h : command.run kernel = some sets) :
    entry ∈ members sets name ↔ entry ∈ members kernel name ∨ .add name entry = command := by
  cases command with
  | create n =>
      simp only [IpsetCommand.run] at h
      split at h
      · next hnone =>
          obtain rfl := Option.some.inj h
          by_cases hn : name = n
          · subst hn
            simp [members, hnone]
          · simp [members, hn]
      · cases h
  | add n e =>
      simp only [IpsetCommand.run] at h
      split at h
      · next entries hentries =>
          split at h
          · cases h
          · obtain rfl := Option.some.inj h
            by_cases hn : name = n
            · subst hn
              simp [members, hentries]
            · simp [members, hn]
      · cases h

/-- A restored set has the members it had and those the script adds. -/
theorem mem_members_restore (h : ipsetRestore kernel script = some sets) :
    entry ∈ members sets name ↔ entry ∈ members kernel name ∨ .add name entry ∈ script := by
  induction script generalizing kernel with
  | nil =>
      obtain rfl := Option.some.inj h
      simp
  | cons command script ih =>
      rw [ipsetRestore, List.foldlM_cons, Option.bind_eq_bind, Option.bind_eq_some_iff] at h
      obtain ⟨middle, hrun, hrest⟩ := h
      rw [ih hrest, mem_members_run hrun, List.mem_cons, or_assoc]

theorem isSome_run (h : command.run kernel = some sets) (hname : sets name = none) :
    kernel name = none := by
  cases command with
  | create n =>
      simp only [IpsetCommand.run] at h
      split at h
      · next hnone =>
          obtain rfl := Option.some.inj h
          by_cases hn : name = n
          · exact hn ▸ hnone
          · rwa [Function.update_of_ne hn] at hname
      · cases h
  | add n e =>
      simp only [IpsetCommand.run] at h
      split at h
      · split at h
        · cases h
        · obtain rfl := Option.some.inj h
          by_cases hn : name = n
          · subst hn
            rw [Function.update_self] at hname
            cases hname
          · rwa [Function.update_of_ne hn] at hname
      · cases h

/-- What a script creates was not there. -/
theorem fresh_of_restore (h : ipsetRestore kernel script = some sets)
    (hcreate : .create name ∈ script) : kernel name = none := by
  induction script generalizing kernel with
  | nil => cases hcreate
  | cons command script ih =>
      rw [ipsetRestore, List.foldlM_cons, Option.bind_eq_bind, Option.bind_eq_some_iff] at h
      obtain ⟨middle, hrun, hrest⟩ := h
      rcases List.mem_cons.mp hcreate with rfl | htail
      · simp only [IpsetCommand.run] at hrun
        split at hrun
        · assumption
        · cases hrun
      · exact isSome_run hrun (ih hrest htail)

/-- What is not there after a script was not created by it. -/
theorem not_create_of_none (h : ipsetRestore kernel script = some sets) (hname : sets name = none) :
    .create name ∉ script ∧ kernel name = none := by
  induction script generalizing kernel with
  | nil =>
      obtain rfl := Option.some.inj h
      exact ⟨List.not_mem_nil, hname⟩
  | cons command script ih =>
      rw [ipsetRestore, List.foldlM_cons, Option.bind_eq_bind, Option.bind_eq_some_iff] at h
      obtain ⟨middle, hrun, hrest⟩ := h
      obtain ⟨hnot, hmiddle⟩ := ih hrest
      refine ⟨fun hmem => ?_, isSome_run hrun hmiddle⟩
      rcases List.mem_cons.mp hmem with rfl | htail
      · simp only [IpsetCommand.run] at hrun
        split at hrun
        · obtain rfl := Option.some.inj hrun
          rw [Function.update_self] at hmiddle
          cases hmiddle
        · cases hrun
      · exact hnot htail

/-- A script creates no set twice. -/
theorem not_create_twice {before after : List IpsetCommand}
    (h : ipsetRestore kernel (before ++ .create name :: after) = some sets) :
    .create name ∉ before := by
  rw [ipsetRestore, List.foldlM_append, Option.bind_eq_bind, Option.bind_eq_some_iff] at h
  obtain ⟨middle, hrun, hrest⟩ := h
  exact (not_create_of_none hrun (fresh_of_restore hrest List.mem_cons_self)).1

end Restore

/-- A firewall as it is installed: the kernel's sets before, what the chains are made for, and
the sets of the generation.  No peer belongs to two games. -/
structure Installation where
  kernel : Ipsets
  client : Ipv4Net
  routes : List ServiceRoute
  policies : List GameVpnPolicy
  guardServiceInterfaces : Bool
  sameOrigin : Option SameOriginAccess
  generation : ℕ
  prepared : PreparedPolicy
  sets : Ipsets
  prepare_eq : prepare kernel client routes policies generation = some (prepared, sets)
  disjoint : policies.Pairwise fun a b => ∀ peer ∈ a.peers, peer ∉ b.peers

namespace Installation

variable (i : Installation)

/-- A target which packets are forwarded to: a peer of the VPN, or a host behind a route. -/
def forwarded (target : VpnTarget) : Bool :=
  i.client.contains target.address ||
    (i.routes.find? fun route => route.network.contains target.address).any fun route =>
      route.localAddress ≠ some target.address

/-- A target on this host. -/
def isLocal (target : VpnTarget) : Bool :=
  !i.client.contains target.address &&
    (i.routes.find? fun route => route.network.contains target.address).any fun route =>
      route.localAddress = some target.address

def script : List IpsetCommand :=
  .create (.allPeers i.generation) ::
    i.policies.flatMap (policyCommands i.client i.routes i.generation)

variable {i} {p q : GameVpnPolicy} {name : SetName} {entry : Entry}

theorem restore_eq : ipsetRestore i.kernel i.script = some i.sets ∧
    i.prepared = ⟨.allPeers i.generation, i.policies.map (policySets i.generation)⟩ := by
  have h := i.prepare_eq
  rw [prepare, Option.bind_eq_bind, Option.bind_eq_some_iff] at h
  obtain ⟨sets, hrestore, hpair⟩ := h
  obtain ⟨hprepared, hsets⟩ := Prod.mk.inj (Option.some.inj hpair)
  exact ⟨hsets ▸ hrestore, hprepared.symm⟩

/-- No two policies are of one game. -/
theorem policy_unique (hp : p ∈ i.policies) (hq : q ∈ i.policies)
    (hgame : p.gameId.natAbs = q.gameId.natAbs) : p = q := by
  have hsplit : ∀ {l l' : List GameVpnPolicy} {a b : GameVpnPolicy},
      i.policies = l ++ b :: l' → a ∈ l → a.gameId.natAbs ≠ b.gameId.natAbs := by
    intro l l' a b hl ha heq
    have hrestore := i.restore_eq.1
    rw [script, hl, List.flatMap_append, List.flatMap_cons, ← List.cons_append] at hrestore
    have htwice := not_create_twice hrestore
    refine htwice (List.mem_cons_of_mem _ (List.mem_flatMap.mpr ⟨a, ha, ?_⟩))
    simp [policyCommands, policySets, policySetName, heq]
  by_contra hne
  obtain ⟨l, l', hl⟩ := List.append_of_mem hp
  rw [hl] at hq
  rcases List.mem_append.mp hq with hbefore | hafter
  · exact hsplit hl hbefore hgame.symm
  · rcases List.mem_cons.mp hafter with rfl | hafter
    · exact hne rfl
    · obtain ⟨m, m', rfl⟩ := List.append_of_mem hafter
      have hl' : i.policies = (l ++ p :: m) ++ q :: m' := by simpa using hl
      exact hsplit hl' (by simp) hgame

/-- The members of a set of the generation are those the script adds. -/
theorem mem_members_created (h : .create name ∈ i.script) :
    entry ∈ members i.sets name ↔ .add name entry ∈ i.script := by
  have hrestore := i.restore_eq.1
  have hfresh := fresh_of_restore hrestore h
  rw [mem_members_restore hrestore, members, hfresh]
  simp

theorem mem_targetProtocols {protocol : Protocol} :
    protocol ∈ targetProtocols ↔ protocol ≠ .other := by
  cases protocol <;> decide

theorem mem_addTarget {target : VpnTarget} {name' : SetName} :
    .add name entry ∈ addTarget name' target ↔
      name = name' ∧ ∃ protocol, protocol ≠ .other ∧
        entry = .ipPort target.address protocol target.port := by
  simp only [addTarget, List.mem_map, mem_targetProtocols, IpsetCommand.add.injEq]
  constructor
  · rintro ⟨protocol, hprotocol, rfl, rfl⟩
    exact ⟨rfl, protocol, hprotocol, rfl⟩
  · rintro ⟨rfl, protocol, hprotocol, rfl⟩
    exact ⟨protocol, hprotocol, rfl, rfl⟩

/-- A target goes to the set of its kind, and a forwarded one may be written to another too. -/
theorem mem_targetCommands {target : VpnTarget} {sets : PolicySets}
    (h : .add name entry ∈ targetCommands i.client i.routes sets target) :
    name = sets.forwardTargets ∨ name = sets.localTargets ∨ name = sets.natTargets := by
  unfold targetCommands at h
  split at h
  · exact .inl (mem_addTarget.mp h).1
  · split at h
    · cases h
    · split at h
      · exact .inr (.inl (mem_addTarget.mp h).1)
      · rcases List.mem_append.mp h with hnat | hforward
        · exact .inr (.inr (mem_addTarget.mp hnat).1)
        · exact .inl (mem_addTarget.mp hforward).1

theorem mem_targetCommands_forward {target : VpnTarget} :
    .add (policySets i.generation p).forwardTargets entry ∈
        targetCommands i.client i.routes (policySets i.generation p) target ↔
      i.forwarded target = true ∧ ∃ protocol, protocol ≠ .other ∧
        entry = .ipPort target.address protocol target.port := by
  have hlocal : (policySets i.generation p).forwardTargets ≠
      (policySets i.generation p).localTargets := by simp [policySets, policySetName]
  have hnat : (policySets i.generation p).forwardTargets ≠
      (policySets i.generation p).natTargets := by simp [policySets, policySetName]
  unfold targetCommands forwarded
  by_cases hclient : i.client.contains target.address = true
  · simp [hclient, mem_addTarget]
  · rw [if_neg hclient]
    cases hroute : i.routes.find? fun route => route.network.contains target.address with
    | none => simp [hclient]
    | some route =>
        by_cases haddress : route.localAddress = some target.address
        · simp [hclient, haddress, mem_addTarget, hlocal]
        · simp [hclient, haddress, mem_addTarget, hnat]

theorem mem_targetCommands_local {target : VpnTarget} :
    .add (policySets i.generation p).localTargets entry ∈
        targetCommands i.client i.routes (policySets i.generation p) target ↔
      i.isLocal target = true ∧ ∃ protocol, protocol ≠ .other ∧
        entry = .ipPort target.address protocol target.port := by
  have hforward : (policySets i.generation p).localTargets ≠
      (policySets i.generation p).forwardTargets := by simp [policySets, policySetName]
  have hnat : (policySets i.generation p).localTargets ≠
      (policySets i.generation p).natTargets := by simp [policySets, policySetName]
  unfold targetCommands isLocal
  by_cases hclient : i.client.contains target.address = true
  · simp [hclient, mem_addTarget, hforward]
  · rw [if_neg hclient]
    cases hroute : i.routes.find? fun route => route.network.contains target.address with
    | none => simp
    | some route =>
        by_cases haddress : route.localAddress = some target.address
        · simp [hclient, haddress, mem_addTarget]
        · simp [haddress, mem_addTarget, hnat, hforward]

/-- What the commands of a policy add. -/
theorem mem_policyCommands : .add name entry ∈
      policyCommands i.client i.routes i.generation p ↔
    (∃ peer ∈ p.peers, entry = .ip peer ∧
      (name = (policySets i.generation p).peers ∨ name = .allPeers i.generation)) ∨
    (∃ target ∈ p.targets, .add name entry ∈
      targetCommands i.client i.routes (policySets i.generation p) target) ∨
    (name = (policySets i.generation p).cooldownBlocks ∧ ∃ block ∈ p.cooldownBlocks,
      ∃ protocol, protocol ≠ .other ∧ entry =
        .ipPortIp block.peer protocol block.target.port block.target.address) := by
  simp only [policyCommands, List.mem_append, List.mem_flatMap, List.mem_map, mem_targetProtocols,
    List.mem_cons, List.not_mem_nil, or_false, reduceCtorEq, false_or, IpsetCommand.add.injEq]
  constructor
  · rintro ((⟨peer, hpeer, ⟨rfl, rfl⟩ | ⟨rfl, rfl⟩⟩ | htarget) |
      ⟨block, hblock, protocol, hprotocol, rfl, rfl⟩)
    · exact .inl ⟨peer, hpeer, rfl, .inl rfl⟩
    · exact .inl ⟨peer, hpeer, rfl, .inr rfl⟩
    · exact .inr (.inl htarget)
    · exact .inr (.inr ⟨rfl, block, hblock, protocol, hprotocol, rfl⟩)
  · rintro (⟨peer, hpeer, rfl, rfl | rfl⟩ | htarget |
      ⟨rfl, block, hblock, protocol, hprotocol, rfl⟩)
    · exact .inl (.inl ⟨peer, hpeer, .inl ⟨rfl, rfl⟩⟩)
    · exact .inl (.inl ⟨peer, hpeer, .inr ⟨rfl, rfl⟩⟩)
    · exact .inl (.inr htarget)
    · exact .inr ⟨block, hblock, protocol, hprotocol, rfl, rfl⟩

/-- A policy writes to the sets of its own game only. -/
theorem game_of_mem {kind : PolicyKind} {game : ℕ}
    (h : .add (.policy kind game i.generation) entry ∈
      policyCommands i.client i.routes i.generation p) : game = p.gameId.natAbs := by
  rcases mem_policyCommands.mp h with ⟨_, _, _, hname⟩ | ⟨_, _, htarget⟩ | ⟨hname, -⟩
  · rcases hname with hname | hname
    · exact (SetName.policy.inj hname).2.1
    · cases hname
  · rcases mem_targetCommands htarget with hname | hname | hname
    · exact (SetName.policy.inj hname).2.1
    · exact (SetName.policy.inj hname).2.1
    · exact (SetName.policy.inj hname).2.1
  · exact (SetName.policy.inj hname).2.1

theorem mem_members_policy (hp : p ∈ i.policies) (kind : PolicyKind) :
    entry ∈ members i.sets (policySetName kind p.gameId i.generation) ↔
      .add (policySetName kind p.gameId i.generation) entry ∈
        policyCommands i.client i.routes i.generation p := by
  have hcreate : .create (policySetName kind p.gameId i.generation) ∈ i.script := by
    refine List.mem_cons_of_mem _ (List.mem_flatMap.mpr ⟨p, hp, ?_⟩)
    cases kind <;> simp [policyCommands, policySets]
  rw [mem_members_created hcreate]
  constructor
  · intro h
    rcases List.mem_cons.mp h with hfirst | hrest
    · cases hfirst
    · obtain ⟨q, hq, hmem⟩ := List.mem_flatMap.mp hrest
      obtain rfl := policy_unique hp hq (game_of_mem hmem)
      exact hmem
  · exact fun h => List.mem_cons_of_mem _ (List.mem_flatMap.mpr ⟨p, hp, h⟩)

theorem mem_peers (hp : p ∈ i.policies) {address : ℕ} :
    .ip address ∈ members i.sets (policySets i.generation p).peers ↔ address ∈ p.peers := by
  rw [policySets, mem_members_policy hp .peers, mem_policyCommands]
  constructor
  · rintro (⟨peer, hpeer, hentry, -⟩ | ⟨target, -, htarget⟩ | ⟨hname, -⟩)
    · exact Entry.ip.inj hentry ▸ hpeer
    · rcases mem_targetCommands htarget with hname | hname | hname <;>
        exact absurd (SetName.policy.inj hname).1 (by decide)
    · exact absurd (SetName.policy.inj hname).1 (by decide)
  · exact fun h => .inl ⟨address, h, rfl, .inl rfl⟩

theorem mem_allPeers {address : ℕ} : .ip address ∈ members i.sets (.allPeers i.generation) ↔
    ∃ p ∈ i.policies, address ∈ p.peers := by
  rw [mem_members_created List.mem_cons_self]
  constructor
  · intro h
    rcases List.mem_cons.mp h with hfirst | hrest
    · cases hfirst
    · obtain ⟨p, hp, hmem⟩ := List.mem_flatMap.mp hrest
      rcases mem_policyCommands.mp hmem with ⟨peer, hpeer, hentry, -⟩ | ⟨_, _, htarget⟩ | ⟨hname, -⟩
      · exact ⟨p, hp, Entry.ip.inj hentry ▸ hpeer⟩
      · rcases mem_targetCommands htarget with hname | hname | hname <;> cases hname
      · cases hname
  · rintro ⟨p, hp, hpeer⟩
    exact List.mem_cons_of_mem _ (List.mem_flatMap.mpr
      ⟨p, hp, mem_policyCommands.mpr (.inl ⟨address, hpeer, rfl, .inr rfl⟩)⟩)

theorem mem_forwardTargets (hp : p ∈ i.policies) {address port : ℕ} {protocol : Protocol} :
    .ipPort address protocol port ∈ members i.sets (policySets i.generation p).forwardTargets ↔
      protocol ≠ .other ∧ ∃ target ∈ p.targets, target = ⟨address, port⟩ ∧
        i.forwarded target = true := by
  rw [policySets, mem_members_policy hp .forwardTargets, mem_policyCommands]
  constructor
  · rintro (⟨_, _, hentry, -⟩ | ⟨target, hmem, htarget⟩ | ⟨hname, -⟩)
    · cases hentry
    · obtain ⟨hforwarded, protocol', hprotocol, hentry⟩ := mem_targetCommands_forward.mp htarget
      obtain ⟨rfl, rfl, rfl⟩ := Entry.ipPort.inj hentry
      exact ⟨hprotocol, target, hmem, rfl, hforwarded⟩
    · exact absurd (SetName.policy.inj hname).1 (by decide)
  · rintro ⟨hprotocol, target, hmem, rfl, hforwarded⟩
    exact .inr (.inl ⟨_, hmem, mem_targetCommands_forward.mpr
      ⟨hforwarded, protocol, hprotocol, rfl⟩⟩)

theorem mem_localTargets (hp : p ∈ i.policies) {address port : ℕ} {protocol : Protocol} :
    .ipPort address protocol port ∈ members i.sets (policySets i.generation p).localTargets ↔
      protocol ≠ .other ∧ ∃ target ∈ p.targets, target = ⟨address, port⟩ ∧
        i.isLocal target = true := by
  rw [policySets, mem_members_policy hp .localTargets, mem_policyCommands]
  constructor
  · rintro (⟨_, _, hentry, -⟩ | ⟨target, hmem, htarget⟩ | ⟨hname, -⟩)
    · cases hentry
    · obtain ⟨hlocal, protocol', hprotocol, hentry⟩ := mem_targetCommands_local.mp htarget
      obtain ⟨rfl, rfl, rfl⟩ := Entry.ipPort.inj hentry
      exact ⟨hprotocol, target, hmem, rfl, hlocal⟩
    · exact absurd (SetName.policy.inj hname).1 (by decide)
  · rintro ⟨hprotocol, target, hmem, rfl, hlocal⟩
    exact .inr (.inl ⟨_, hmem, mem_targetCommands_local.mpr ⟨hlocal, protocol, hprotocol, rfl⟩⟩)

theorem mem_cooldownBlocks (hp : p ∈ i.policies) {source destination port : ℕ}
    {protocol : Protocol} : .ipPortIp source protocol port destination ∈
      members i.sets (policySets i.generation p).cooldownBlocks ↔
        protocol ≠ .other ∧ ⟨source, ⟨destination, port⟩⟩ ∈ p.cooldownBlocks := by
  rw [policySets, mem_members_policy hp .cooldownBlocks, mem_policyCommands]
  constructor
  · rintro (⟨_, _, hentry, -⟩ | ⟨_, _, htarget⟩ | ⟨-, block, hblock, protocol', hprotocol, hentry⟩)
    · cases hentry
    · rcases mem_targetCommands htarget with hname | hname | hname <;>
        exact absurd (SetName.policy.inj hname).1 (by decide)
    · obtain ⟨rfl, rfl, rfl, rfl⟩ := Entry.ipPortIp.inj hentry
      exact ⟨hprotocol, hblock⟩
  · rintro ⟨hprotocol, hblock⟩
    exact .inr (.inr ⟨rfl, _, hblock, protocol, hprotocol, rfl⟩)

end Installation

section Packets

/-- A packet of a protocol with ports. -/
def Packet.hasPorts (packet : Packet) : Bool := packet.protocol ≠ .other

def quarantined (sets : Ipsets) (packet : Packet) : Bool :=
  packet.entry .src ∈ members sets .quarantine

def transitionBlocked (sets : Ipsets) (packet : Packet) : Bool :=
  packet.hasPorts && decide (packet.entry .srcDstDst ∈ members sets .transitionBlock)

/-- An endpoint of the packet has to be captured and is not live. -/
def gated (sets : Ipsets) (packet : Packet) (direction : Direction) : Bool :=
  packet.hasPorts && decide (packet.entry direction ∈ members sets .captureRequired) &&
    decide (packet.entry direction ∉ members sets .captureLive)

/-- The packet leaves by the VPN, and its source endpoint is gated. -/
def outGated (sets : Ipsets) (packet : Packet) : Bool :=
  packet.outInterface = ifname && gated sets packet .srcSrc

/-- Dropped by either chain before anything is accepted. -/
def earlyDropped (sets : Ipsets) (packet : Packet) : Bool :=
  quarantined sets packet || transitionBlocked sets packet || gated sets packet .dstDst

namespace Installation

variable (i : Installation) (packet : Packet)

/-- A block of the game for the source, the destination and the port. -/
def cooledBy (p : GameVpnPolicy) : Bool :=
  packet.hasPorts &&
    decide (⟨packet.source, ⟨packet.destination, packet.destinationPort⟩⟩ ∈ p.cooldownBlocks)

/-- The source is a peer of the game, and the destination a forwarded target of it. -/
def forwardPermittedBy (p : GameVpnPolicy) : Bool :=
  packet.hasPorts && decide (packet.source ∈ p.peers) && p.targets.any fun target =>
    decide (target = ⟨packet.destination, packet.destinationPort⟩) && i.forwarded target

def localPermittedBy (p : GameVpnPolicy) : Bool :=
  packet.hasPorts && decide (packet.source ∈ p.peers) && p.targets.any fun target =>
    decide (target = ⟨packet.destination, packet.destinationPort⟩) && i.isLocal target

/-- A reply of a forwarded target to a peer of the game. -/
def replyOf (p : GameVpnPolicy) : Bool :=
  packet.hasPorts && decide (packet.outInterface = ifname) &&
    decide (packet.destination ∈ p.peers) && p.targets.any fun target =>
      decide (target = ⟨packet.source, packet.sourcePort⟩) && i.forwarded target

def fromPeer : Bool := i.policies.any fun p => packet.source ∈ p.peers

/-- The access to the portal of the same origin. -/
def httpsAccess : Bool := i.sameOrigin.any fun access => decide (packet.protocol = .tcp) &&
  i.fromPeer packet && decide (packet.destination = access.ingress) &&
    decide (packet.destinationPort = 443)

def dnsAccess : Bool := i.sameOrigin.any fun access => packet.hasPorts &&
  i.fromPeer packet && decide (packet.destination = access.dns) &&
    decide (packet.destinationPort = 53)

/-- A reply of the portal to a peer. -/
def httpsReply : Bool := i.sameOrigin.any fun access => decide (packet.protocol = .tcp) &&
  decide (packet.outInterface = ifname) && decide (packet.source = access.ingress) &&
    decide (packet.sourcePort = 443) && i.policies.any fun p => packet.destination ∈ p.peers

def opening : Bool := packet.state ∈ [CtState.new, .established]

def following : Bool := packet.state ∈ [CtState.established, .related]

/-- The rules of a game decide about a forwarded packet. -/
def forwardConcerns (p : GameVpnPolicy) : Bool :=
  cooledBy packet p || (i.forwardPermittedBy packet p && opening packet) ||
    (i.replyOf packet p && following packet)

def inputConcerns (p : GameVpnPolicy) : Bool :=
  cooledBy packet p || (i.localPermittedBy packet p && opening packet)

/-- What the chain for forwarded packets does. -/
def forwardVerdict : Option Verdict :=
  verdict i.sets packet (forwardingRulePlan i.prepared.allPeers i.prepared.sets i.sameOrigin)

/-- What the chain for packets to this host does. -/
def inputVerdict : Option Verdict :=
  verdict i.sets packet (inputRulePlan i.prepared.allPeers i.prepared.sets i.routes
    i.guardServiceInterfaces i.sameOrigin)

end Installation

end Packets

section Chains

variable {i : Installation} {packet : Packet} {p : GameVpnPolicy}

namespace Installation

theorem holds_cooldownRule (hin : packet.inInterface = ifname) (hp : p ∈ i.policies) :
    (cooldownRule (policySets i.generation p) packet.protocol).holds i.sets packet =
      cooledBy packet p := by
  rw [Bool.eq_iff_iff]
  simp [cooldownRule, Rule.holds, Match.holds, hin, Packet.entry, mem_cooldownBlocks hp, cooledBy,
    Packet.hasPorts]

theorem holds_forwardRule (hin : packet.inInterface = ifname) (hp : p ∈ i.policies) :
    (⟨[.inInterface ifname, .protocol packet.protocol,
        .matchSet (policySets i.generation p).peers .src,
        .matchSet (policySets i.generation p).forwardTargets .dstDst,
        .ctstate [.new, .established]], .accept⟩ : Rule).holds i.sets packet =
      (i.forwardPermittedBy packet p && opening packet) := by
  rw [Bool.eq_iff_iff]
  simp only [Rule.holds, Match.holds, hin, Packet.entry, mem_peers hp, mem_forwardTargets hp,
    forwardPermittedBy, Packet.hasPorts, opening, List.all_cons, List.all_nil, Bool.and_eq_true,
    decide_eq_true_eq, List.any_eq_true, Bool.and_true, true_and, decide_true]
  tauto

theorem holds_replyRule (hp : p ∈ i.policies) :
    (⟨[.outInterface ifname, .protocol packet.protocol,
        .matchSet (policySets i.generation p).forwardTargets .srcSrc,
        .matchSet (policySets i.generation p).peers .dst,
        .ctstate [.established, .related]], .accept⟩ : Rule).holds i.sets packet =
      (i.replyOf packet p && following packet) := by
  rw [Bool.eq_iff_iff]
  simp only [Rule.holds, Match.holds, Packet.entry, mem_peers hp, mem_forwardTargets hp,
    replyOf, Packet.hasPorts, following, List.all_cons, List.all_nil, Bool.and_eq_true,
    decide_eq_true_eq, List.any_eq_true, Bool.and_true, true_and, decide_true]
  tauto

theorem holds_localRule (hin : packet.inInterface = ifname) (hp : p ∈ i.policies) :
    (⟨[.inInterface ifname, .protocol packet.protocol,
        .matchSet (policySets i.generation p).peers .src,
        .matchSet (policySets i.generation p).localTargets .dstDst,
        .ctstate [.new, .established]], .accept⟩ : Rule).holds i.sets packet =
      (i.localPermittedBy packet p && opening packet) := by
  rw [Bool.eq_iff_iff]
  simp only [Rule.holds, Match.holds, hin, Packet.entry, mem_peers hp, mem_localTargets hp,
    localPermittedBy, Packet.hasPorts, opening, List.all_cons, List.all_nil, Bool.and_eq_true,
    decide_eq_true_eq, List.any_eq_true, Bool.and_true, true_and, decide_true]
  tauto

/-- The rules for another protocol leave a packet alone. -/
theorem outcome_other_protocol {protocol : Protocol} {rules : List Rule}
    (hrules : ∀ rule ∈ rules, .protocol protocol ∈ rule.conditions)
    (hne : packet.protocol ≠ protocol) : verdict i.sets packet rules = none := by
  have hnone : ∀ rule ∈ rules, rule.holds i.sets packet = false := by
    intro rule hrule
    refine Bool.eq_false_iff.mpr fun hholds => hne ?_
    exact of_decide_eq_true (List.all_eq_true.mp hholds _ (hrules rule hrule))
  induction rules with
  | nil => rfl
  | cons rule rules ih =>
      rw [verdict, FirstMatch.outcome_cons, hnone rule List.mem_cons_self, if_neg (by decide)]
      exact ih (fun r hr => hrules r (List.mem_cons_of_mem _ hr))
        fun r hr => hnone r (List.mem_cons_of_mem _ hr)

theorem verdict_targetProtocols {f : Protocol → List Rule} {outcome : Option Verdict}
    (hf : ∀ protocol, ∀ rule ∈ f protocol, .protocol protocol ∈ rule.conditions)
    (hown : verdict i.sets packet (f packet.protocol) = outcome)
    (hother : packet.protocol = .other → outcome = none) :
    verdict i.sets packet (targetProtocols.flatMap f) = outcome := by
  have hsplit : verdict i.sets packet (targetProtocols.flatMap f) =
      (verdict i.sets packet (f .tcp)).or (verdict i.sets packet (f .udp)) := by
    have hflat : targetProtocols.flatMap f = f .tcp ++ f .udp := by simp [targetProtocols]
    rw [hflat, verdict, FirstMatch.outcome_append]
    rfl
  rw [hsplit]
  cases hprotocol : packet.protocol with
  | tcp =>
      rw [hprotocol] at hown
      rw [hown, outcome_other_protocol (hf .udp) (by rw [hprotocol]; decide), Option.or_none]
  | udp =>
      rw [hprotocol] at hown
      rw [hown, outcome_other_protocol (hf .tcp) (by rw [hprotocol]; decide), Option.none_or]
  | other =>
      rw [outcome_other_protocol (hf .tcp) (by rw [hprotocol]; decide),
        outcome_other_protocol (hf .udp) (by rw [hprotocol]; decide), hother hprotocol]
      rfl

/-- The rules of a game for forwarded packets. -/
theorem verdict_forwardingGame (hin : packet.inInterface = ifname) (hp : p ∈ i.policies) :
    verdict i.sets packet (forwardingGame (policySets i.generation p)) =
      if i.forwardConcerns packet p then some (if cooledBy packet p then .drop else .accept)
      else none := by
  refine verdict_targetProtocols (fun protocol rule hrule => ?_) ?_ fun hother => ?_
  · simp only [List.mem_cons, List.not_mem_nil, or_false] at hrule
    rcases hrule with rfl | rfl | rfl <;> simp [cooldownRule]
  · rw [verdict, FirstMatch.outcome_cons, FirstMatch.outcome_cons, FirstMatch.outcome_cons,
      holds_cooldownRule hin hp, holds_forwardRule hin hp, holds_replyRule hp, forwardConcerns]
    cases cooledBy packet p <;> cases (i.forwardPermittedBy packet p && opening packet) <;>
      cases (i.replyOf packet p && following packet) <;> rfl
  · simp [forwardConcerns, cooledBy, forwardPermittedBy, replyOf, Packet.hasPorts, hother]

/-- The rules of a game for packets to this host. -/
theorem verdict_inputGame (hin : packet.inInterface = ifname) (hp : p ∈ i.policies) :
    verdict i.sets packet (inputGame (policySets i.generation p)) =
      if i.inputConcerns packet p then some (if cooledBy packet p then .drop else .accept)
      else none := by
  refine verdict_targetProtocols (fun protocol rule hrule => ?_) ?_ fun hother => ?_
  · simp only [List.mem_cons, List.not_mem_nil, or_false] at hrule
    rcases hrule with rfl | rfl <;> simp [cooldownRule]
  · rw [verdict, FirstMatch.outcome_cons, FirstMatch.outcome_cons, holds_cooldownRule hin hp,
      holds_localRule hin hp, inputConcerns]
    cases cooledBy packet p <;> cases (i.localPermittedBy packet p && opening packet) <;> rfl
  · simp [inputConcerns, cooledBy, localPermittedBy, Packet.hasPorts, hother]

/-- The first game whose rules decide about a packet drops it or accepts it. -/
theorem verdict_games {rules : PolicySets → List Rule} {concerns : GameVpnPolicy → Bool}
    (h : ∀ p ∈ i.policies, verdict i.sets packet (rules (policySets i.generation p)) =
      if concerns p then some (if cooledBy packet p then .drop else .accept) else none) :
    verdict i.sets packet (i.prepared.sets.flatMap rules) =
      (i.policies.find? concerns).map fun p => if cooledBy packet p then .drop else .accept := by
  rw [verdict, FirstMatch.outcome_flatMap, i.restore_eq.2, List.findSome?_map]
  exact FirstMatch.findSome?_eq_find? h

theorem fromPeer_iff : i.fromPeer packet = true ↔
    .ip packet.source ∈ members i.sets (.allPeers i.generation) := by
  rw [mem_allPeers, fromPeer, List.any_eq_true]
  simp

/-- What the rules for the portal do with a forwarded packet. -/
theorem verdict_forwardingSameOrigin (hin : packet.inInterface = ifname) :
    verdict i.sets packet (i.sameOrigin.elim [] (forwardingSameOrigin i.prepared.allPeers)) =
      if (i.httpsAccess packet && opening packet) || (i.httpsReply packet && following packet)
      then some .accept else none := by
  rw [i.restore_eq.2]
  cases hsame : i.sameOrigin with
  | none => simp [httpsAccess, httpsReply, hsame, verdict]
  | some access =>
      have hany : (i.policies.any fun p => decide (packet.destination ∈ p.peers)) = true ↔
          .ip packet.destination ∈ members i.sets (.allPeers i.generation) := by
        rw [mem_allPeers, List.any_eq_true]
        simp
      have htarget : ∀ rule ∈ forwardingSameOrigin (.allPeers i.generation) access,
          rule.target = .accept := by
        simp [forwardingSameOrigin]
      rw [Option.elim_some, verdict, FirstMatch.outcome_of_target htarget]
      refine if_congr ?_ rfl rfl
      simp only [forwardingSameOrigin, List.any_cons, List.any_nil, Rule.holds, List.all_cons,
        List.all_nil, Match.holds, hin, httpsAccess, httpsReply, hsame, Option.any_some, opening,
        following, Bool.or_eq_true, Bool.and_eq_true, decide_eq_true_eq, hany, fromPeer_iff,
        Bool.or_false, Bool.and_true, true_and, decide_true]
      simp only [Packet.entry]
      tauto

theorem verdict_inputSameOrigin (hin : packet.inInterface = ifname) :
    verdict i.sets packet (i.sameOrigin.elim [] (inputSameOrigin i.prepared.allPeers)) =
      if i.dnsAccess packet then some .accept else none := by
  rw [i.restore_eq.2]
  cases hsame : i.sameOrigin with
  | none => simp [dnsAccess, hsame, verdict]
  | some access =>
      have htarget : ∀ rule ∈ inputSameOrigin (.allPeers i.generation) access,
          rule.target = .accept := by
        simp [inputSameOrigin]
      rw [Option.elim_some, verdict, FirstMatch.outcome_of_target htarget]
      refine if_congr ?_ rfl rfl
      simp only [inputSameOrigin, List.map_cons, List.map_nil, List.any_cons, List.any_nil,
        Rule.holds, List.all_cons, List.all_nil, Match.holds, hin, dnsAccess, hsame,
        Option.any_some, Packet.hasPorts, Bool.or_eq_true, Bool.and_eq_true, decide_eq_true_eq,
        fromPeer_iff, Bool.or_false, Bool.and_true, true_and, decide_true]
      simp only [Packet.entry]
      cases packet.protocol <;> simp <;> tauto

/-- The rules in front of the chain for forwarded packets. -/
def forwardingDrops : List Rule :=
  ⟨[.ctstate [.invalid]], .drop⟩ ::
  ⟨[.inInterface ifname, .matchSet .quarantine .src], .drop⟩ ::
  (targetProtocols.map transitionBlockRule ++
   targetProtocols.flatMap fun protocol =>
     [captureGate .inInterface .dstDst protocol, captureGate .outInterface .srcSrc protocol])

theorem verdict_forwardingDrops (hin : packet.inInterface = ifname) :
    verdict i.sets packet forwardingDrops =
      if decide (packet.state = .invalid) || earlyDropped i.sets packet || outGated i.sets packet
      then some .drop else none := by
  have htarget : ∀ rule ∈ forwardingDrops, rule.target = .drop := by
    simp [forwardingDrops, targetProtocols, transitionBlockRule, captureGate]
  rw [verdict, FirstMatch.outcome_of_target htarget]
  refine if_congr ?_ rfl rfl
  simp only [forwardingDrops, targetProtocols, transitionBlockRule, captureGate, List.map_cons,
    List.map_nil, List.flatMap_cons, List.flatMap_nil, List.cons_append, List.nil_append,
    List.any_cons, List.any_nil, Rule.holds, List.all_cons, List.all_nil, Match.holds, hin,
    earlyDropped, outGated, quarantined, transitionBlocked, gated, Packet.hasPorts,
    Bool.or_eq_true, Bool.and_eq_true, decide_eq_true_eq, Bool.or_false, Bool.and_true, true_and,
    decide_true, List.mem_singleton]
  cases packet.protocol <;> simp <;> tauto

def inputDrops : List Rule :=
  [⟨[.inInterface ifname, .matchSet .quarantine .src], .drop⟩,
   transitionBlockRule .tcp,
   transitionBlockRule .udp,
   captureGate .inInterface .dstDst .tcp,
   captureGate .inInterface .dstDst .udp]

theorem verdict_inputDrops (hin : packet.inInterface = ifname) :
    verdict i.sets packet inputDrops =
      if earlyDropped i.sets packet then some .drop else none := by
  have htarget : ∀ rule ∈ inputDrops, rule.target = .drop := by
    simp [inputDrops, transitionBlockRule, captureGate]
  rw [verdict, FirstMatch.outcome_of_target htarget]
  refine if_congr ?_ rfl rfl
  simp only [inputDrops, transitionBlockRule, captureGate, List.any_cons, List.any_nil, Rule.holds,
    List.all_cons, List.all_nil, Match.holds, hin, earlyDropped, quarantined, transitionBlocked,
    gated, Packet.hasPorts, Bool.or_eq_true, Bool.and_eq_true, decide_eq_true_eq, Bool.or_false,
    Bool.and_true, true_and, decide_true]
  cases packet.protocol <;> simp <;> tauto

def establishedRule (allPeers : SetName) : Rule :=
  ⟨[.inInterface ifname, .matchSet allPeers .src, .ctstate [.established, .related]], .accept⟩

theorem holds_establishedRule (hin : packet.inInterface = ifname) :
    (establishedRule i.prepared.allPeers).holds i.sets packet =
      (i.fromPeer packet && following packet) := by
  rw [i.restore_eq.2, Bool.eq_iff_iff, Bool.and_eq_true, fromPeer_iff]
  simp only [establishedRule, Rule.holds, Match.holds, hin, following, List.all_cons, List.all_nil,
    Bool.and_eq_true, decide_eq_true_eq, Bool.and_true, true_and, decide_true]
  rfl

def guardRules (i : Installation) : List Rule :=
  if i.guardServiceInterfaces then
    (guardedInterfaces i.routes).map fun interface =>
      ⟨[.inInterface interface, .ctstate [.established, .related]], .accept⟩
  else []

/-- The rules for the service interfaces accept nothing new. -/
theorem verdict_guardRules (hstate : following packet = false) :
    verdict i.sets packet i.guardRules = none := by
  have hnone : i.guardRules.any (·.holds i.sets packet) = false := by
    rw [List.any_eq_false]
    intro rule hrule
    unfold guardRules at hrule
    split at hrule
    · obtain ⟨interface, -, rfl⟩ := List.mem_map.mp hrule
      unfold following at hstate
      simp only [Rule.holds, Match.holds, List.all_cons, List.all_nil, Bool.and_true, hstate,
        Bool.and_false]
      decide
    · cases hrule
  have htarget : ∀ rule ∈ i.guardRules, rule.target = .accept := by
    intro rule hrule
    unfold guardRules at hrule
    split at hrule
    · obtain ⟨interface, -, rfl⟩ := List.mem_map.mp hrule
      rfl
    · cases hrule
  rw [verdict, FirstMatch.outcome_of_target htarget, hnone]
  rfl

/-- What the first game which is concerned does with a packet. -/
def gamesVerdict (i : Installation) (packet : Packet) (concerns : GameVpnPolicy → Bool) :
    Option Verdict :=
  (i.policies.find? concerns).map fun p => if cooledBy packet p then .drop else .accept

theorem forwardVerdict_eq (hin : packet.inInterface = ifname) : i.forwardVerdict packet =
    if decide (packet.state = .invalid) || earlyDropped i.sets packet || outGated i.sets packet
    then some .drop
    else if (i.httpsAccess packet && opening packet) || (i.httpsReply packet && following packet)
    then some .accept
    else (i.gamesVerdict packet (i.forwardConcerns packet)).or (some .drop) := by
  have hplan : forwardingRulePlan i.prepared.allPeers i.prepared.sets i.sameOrigin =
      forwardingDrops ++ (i.sameOrigin.elim [] (forwardingSameOrigin i.prepared.allPeers) ++
        (i.prepared.sets.flatMap forwardingGame ++ [⟨[], .drop⟩])) := by
    simp [forwardingRulePlan, forwardingDrops]
  have hgames : verdict i.sets packet (i.prepared.sets.flatMap forwardingGame) =
      i.gamesVerdict packet (i.forwardConcerns packet) :=
    verdict_games fun p hp => verdict_forwardingGame hin hp
  rw [forwardVerdict, hplan, verdict, FirstMatch.outcome_append, FirstMatch.outcome_append,
    FirstMatch.outcome_append]
  change (verdict i.sets packet forwardingDrops).or ((verdict i.sets packet _).or
    ((verdict i.sets packet _).or _)) = _
  rw [verdict_forwardingDrops hin, verdict_forwardingSameOrigin hin, hgames]
  split
  · rfl
  · split <;> rfl

theorem inputVerdict_eq (hin : packet.inInterface = ifname) : i.inputVerdict packet =
    if earlyDropped i.sets packet then some .drop
    else if i.fromPeer packet && following packet then some .accept
    else if i.dnsAccess packet then some .accept
    else (i.gamesVerdict packet (i.inputConcerns packet)).or
      ((verdict i.sets packet i.guardRules).or (some .drop)) := by
  have hplan : inputRulePlan i.prepared.allPeers i.prepared.sets i.routes
      i.guardServiceInterfaces i.sameOrigin =
      inputDrops ++ (establishedRule i.prepared.allPeers ::
        (i.sameOrigin.elim [] (inputSameOrigin i.prepared.allPeers) ++
          (i.prepared.sets.flatMap inputGame ++ (i.guardRules ++ [⟨[], .drop⟩])))) := by
    simp [inputRulePlan, inputDrops, establishedRule, guardRules]
  have hgames : verdict i.sets packet (i.prepared.sets.flatMap inputGame) =
      i.gamesVerdict packet (i.inputConcerns packet) :=
    verdict_games fun p hp => verdict_inputGame hin hp
  rw [inputVerdict, hplan, verdict, FirstMatch.outcome_append, FirstMatch.outcome_cons,
    FirstMatch.outcome_append, FirstMatch.outcome_append, FirstMatch.outcome_append,
    holds_establishedRule hin]
  change (verdict i.sets packet inputDrops).or (if _ then _ else (verdict i.sets packet _).or
    ((verdict i.sets packet _).or ((verdict i.sets packet _).or _))) = _
  rw [verdict_inputDrops hin, verdict_inputSameOrigin hin, hgames]
  split
  · rfl
  · split
    · rfl
    · split <;> rfl

end Installation

end Chains

section Exact

variable (i : Installation) (packet : Packet)

namespace Installation

/-- A cooldown of the source's own game. -/
def cooled : Bool := i.policies.any fun p =>
  decide (packet.source ∈ p.peers) && cooledBy packet p

def covered : Bool := earlyDropped i.sets packet || i.cooled packet

def permittedForward : Bool :=
  (i.policies.any (i.forwardPermittedBy packet)) || i.httpsAccess packet

def permittedInput : Bool := (i.policies.any (i.localPermittedBy packet)) || i.dnsAccess packet

/-- The chains admit what the policy permits: covered packets are dropped in every state, a new
packet is accepted only when it is permitted, and then unless it is covered. -/
structure ExactAdmission : Prop where
  drops : i.covered packet = true →
    i.forwardVerdict packet = some .drop ∧ i.inputVerdict packet = some .drop
  accepts : packet.state = .new → packet.hasPorts = true →
    (i.forwardVerdict packet = some .accept → i.permittedForward packet = true) ∧
      (i.inputVerdict packet = some .accept → i.permittedInput packet = true)
  permits : packet.state = .new → i.covered packet = false →
    (i.permittedForward packet = true → i.forwardVerdict packet = some .accept) ∧
      (i.permittedInput packet = true → i.inputVerdict packet = some .accept)

/-- No accept stands before the drop which covers the packet, and no drop of another game or of
the other direction before the accept which permits it. -/
structure Unexempted : Prop where
  localCooldown : i.cooled packet = true → earlyDropped i.sets packet = false →
    following packet = false ∧ i.dnsAccess packet = false
  forwardCooldown : i.cooled packet = true → packet.state ≠ .invalid →
    earlyDropped i.sets packet = false → outGated i.sets packet = false →
      (i.httpsAccess packet && opening packet) = false ∧
        (i.httpsReply packet && following packet) = false ∧
          ∀ p, i.policies.find? (i.forwardConcerns packet) = some p → cooledBy packet p = true
  forwardPermitted : packet.state = .new → i.covered packet = false →
    i.permittedForward packet = true → outGated i.sets packet = false ∧
      (i.httpsAccess packet = false →
        ∀ p, i.policies.find? (i.forwardConcerns packet) = some p → cooledBy packet p = false)
  localPermitted : packet.state = .new → i.covered packet = false →
    i.permittedInput packet = true → i.dnsAccess packet = false →
      ∀ p, i.policies.find? (i.inputConcerns packet) = some p → cooledBy packet p = false

variable {i packet} {p q : GameVpnPolicy} {concerns : GameVpnPolicy → Bool}

/-- A source is a peer of one game only. -/
theorem peer_unique {address : ℕ} (hp : p ∈ i.policies) (hq : q ∈ i.policies)
    (hmem : address ∈ p.peers) (hmem' : address ∈ q.peers) : p = q := by
  by_contra hne
  have hsymm : Std.Symm fun a b : GameVpnPolicy => ∀ peer ∈ a.peers, peer ∉ b.peers :=
    ⟨fun a b h peer hb ha => h peer ha hb⟩
  exact i.disjoint.forall hp hq hne address hmem hmem'

theorem cooled_iff : i.cooled packet = true ↔
    ∃ p ∈ i.policies, packet.source ∈ p.peers ∧ cooledBy packet p = true := by
  simp [cooled, List.any_eq_true]

theorem fromPeer_of_cooled (h : i.cooled packet = true) : i.fromPeer packet = true := by
  obtain ⟨p, hp, hsource, -⟩ := cooled_iff.mp h
  exact List.any_eq_true.mpr ⟨p, hp, decide_eq_true hsource⟩

/-- A game which is found cooling the packet is dropped, another one accepted. -/
theorem gamesVerdict_eq_drop (h : (i.policies.find? concerns).isSome = true) :
    i.gamesVerdict packet concerns = some .drop ↔
      ∀ p, i.policies.find? concerns = some p → cooledBy packet p = true := by
  obtain ⟨p, hp⟩ := Option.isSome_iff_exists.mp h
  rw [gamesVerdict, hp]
  cases hcooled : cooledBy packet p <;> simp [hcooled]

theorem gamesVerdict_eq_accept (h : (i.policies.find? concerns).isSome = true) :
    i.gamesVerdict packet concerns = some .accept ↔
      ∀ p, i.policies.find? concerns = some p → cooledBy packet p = false := by
  obtain ⟨p, hp⟩ := Option.isSome_iff_exists.mp h
  rw [gamesVerdict, hp]
  cases hcooled : cooledBy packet p <;> simp [hcooled]

theorem find_forward_of_cooled (h : i.cooled packet = true) :
    (i.policies.find? (i.forwardConcerns packet)).isSome = true := by
  obtain ⟨p, hp, -, hcooled⟩ := cooled_iff.mp h
  rw [List.find?_isSome]
  exact ⟨p, hp, by simp [forwardConcerns, hcooled]⟩

theorem find_input_of_cooled (h : i.cooled packet = true) :
    (i.policies.find? (i.inputConcerns packet)).isSome = true := by
  obtain ⟨p, hp, -, hcooled⟩ := cooled_iff.mp h
  rw [List.find?_isSome]
  exact ⟨p, hp, by simp [inputConcerns, hcooled]⟩

/-- To this host only the own game of a peer is concerned, besides those with a block for it. -/
theorem cooledBy_of_inputConcerns (h : i.cooled packet = true) (hq : q ∈ i.policies)
    (hconcerns : i.inputConcerns packet q = true) : cooledBy packet q = true := by
  obtain ⟨p, hp, hsource, hcooled⟩ := cooled_iff.mp h
  unfold inputConcerns at hconcerns
  rcases Bool.or_eq_true_iff.mp hconcerns with hcools | hpermits
  · exact hcools
  · have hlocal := (Bool.and_eq_true_iff.mp hpermits).1
    unfold localPermittedBy at hlocal
    rw [Bool.and_eq_true, Bool.and_eq_true, decide_eq_true_eq] at hlocal
    exact peer_unique hp hq hsource hlocal.1.2 ▸ hcooled

theorem opening_of_new (h : packet.state = .new) :
    opening packet = true ∧ following packet = false := by
  rw [opening, following, h]
  decide

/-- A covered packet is dropped by the chain for forwarded packets. -/
theorem forward_drop_iff (hin : packet.inInterface = ifname) (hcooled : i.cooled packet = true) :
    i.forwardVerdict packet = some .drop ↔
      (packet.state ≠ .invalid → earlyDropped i.sets packet = false →
        outGated i.sets packet = false → (i.httpsAccess packet && opening packet) = false ∧
          (i.httpsReply packet && following packet) = false ∧
            ∀ p, i.policies.find? (i.forwardConcerns packet) = some p →
              cooledBy packet p = true) := by
  have hsome := find_forward_of_cooled hcooled
  rw [forwardVerdict_eq hin]
  by_cases hdrop : (decide (packet.state = .invalid) || earlyDropped i.sets packet ||
      outGated i.sets packet) = true
  · rw [if_pos hdrop]
    refine iff_of_true rfl fun hstate hearly hgate => ?_
    rw [hearly, hgate, decide_eq_false hstate] at hdrop
    cases hdrop
  · rw [if_neg hdrop]
    rw [Bool.or_eq_true, Bool.or_eq_true, not_or, not_or, decide_eq_true_eq, Bool.not_eq_true,
      Bool.not_eq_true] at hdrop
    obtain ⟨⟨hstate, hearly⟩, hgate⟩ := hdrop
    rw [← gamesVerdict_eq_drop hsome]
    have hgames : (i.gamesVerdict packet (i.forwardConcerns packet)).or (some .drop) =
        i.gamesVerdict packet (i.forwardConcerns packet) := by
      obtain ⟨p, hp⟩ := Option.isSome_iff_exists.mp hsome
      rw [gamesVerdict, hp]
      rfl
    rw [hgames]
    cases hhttps : (i.httpsAccess packet && opening packet) <;>
      cases hreply : (i.httpsReply packet && following packet) <;> simp [hstate, hearly, hgate]

/-- A covered packet is dropped by the chain for packets to this host. -/
theorem input_drop_iff (hin : packet.inInterface = ifname) (hcooled : i.cooled packet = true) :
    i.inputVerdict packet = some .drop ↔ (earlyDropped i.sets packet = false →
      following packet = false ∧ i.dnsAccess packet = false) := by
  have hgames : i.gamesVerdict packet (i.inputConcerns packet) = some .drop := by
    refine (gamesVerdict_eq_drop (find_input_of_cooled hcooled)).mpr fun p hp => ?_
    exact cooledBy_of_inputConcerns hcooled (List.mem_of_find?_eq_some hp)
      (List.find?_some hp)
  rw [inputVerdict_eq hin, hgames, fromPeer_of_cooled hcooled]
  cases earlyDropped i.sets packet <;> cases following packet <;>
    cases i.dnsAccess packet <;> simp

theorem drop_of_early (hin : packet.inInterface = ifname)
    (hearly : earlyDropped i.sets packet = true) :
    i.forwardVerdict packet = some .drop ∧ i.inputVerdict packet = some .drop := by
  rw [forwardVerdict_eq hin, inputVerdict_eq hin, hearly]
  simp

/-- A new packet is accepted only by a game whose peer and target it names. -/
theorem permitted_of_accept (hin : packet.inInterface = ifname) (hstate : packet.state = .new) :
    (i.forwardVerdict packet = some .accept → i.permittedForward packet = true) ∧
      (i.inputVerdict packet = some .accept → i.permittedInput packet = true) := by
  obtain ⟨hopening, hfollowing⟩ := opening_of_new hstate
  constructor
  · intro haccept
    rw [forwardVerdict_eq hin, hfollowing, hopening, Bool.and_true, Bool.and_false,
      Bool.or_false] at haccept
    split at haccept
    · cases haccept
    · split at haccept
      · next hhttps => exact Bool.or_eq_true_iff.mpr (.inr hhttps)
      · cases hfind : i.policies.find? (i.forwardConcerns packet) with
        | none =>
            rw [gamesVerdict, hfind] at haccept
            cases haccept
        | some p =>
            have hconcerns := List.find?_some hfind
            rw [gamesVerdict, hfind] at haccept
            refine Bool.or_eq_true_iff.mpr (.inl (List.any_eq_true.mpr
              ⟨p, List.mem_of_find?_eq_some hfind, ?_⟩))
            unfold forwardConcerns at hconcerns
            rw [hfollowing, hopening] at hconcerns
            cases hcools : cooledBy packet p with
            | true =>
                rw [Option.map_some, hcools] at haccept
                cases haccept
            | false => simpa [hcools] using hconcerns
  · intro haccept
    rw [inputVerdict_eq hin, hfollowing, Bool.and_false] at haccept
    split at haccept
    · cases haccept
    · rw [if_neg (by decide)] at haccept
      split at haccept
      · next hdns => exact Bool.or_eq_true_iff.mpr (.inr hdns)
      · cases hfind : i.policies.find? (i.inputConcerns packet) with
        | none =>
            rw [gamesVerdict, hfind, verdict_guardRules hfollowing] at haccept
            cases haccept
        | some p =>
            have hconcerns := List.find?_some hfind
            rw [gamesVerdict, hfind] at haccept
            refine Bool.or_eq_true_iff.mpr (.inl (List.any_eq_true.mpr
              ⟨p, List.mem_of_find?_eq_some hfind, ?_⟩))
            unfold inputConcerns at hconcerns
            rw [hopening] at hconcerns
            cases hcools : cooledBy packet p with
            | true =>
                rw [Option.map_some, hcools] at haccept
                cases haccept
            | false => simpa [hcools] using hconcerns

theorem not_covered (h : i.covered packet = false) :
    earlyDropped i.sets packet = false ∧ i.cooled packet = false :=
  Bool.or_eq_false_iff.mp h

/-- A permitted new packet is accepted by the chain for forwarded packets. -/
theorem forward_accept_iff (hin : packet.inInterface = ifname) (hstate : packet.state = .new)
    (hcovered : i.covered packet = false) (hpermitted : i.permittedForward packet = true) :
    i.forwardVerdict packet = some .accept ↔ outGated i.sets packet = false ∧
      (i.httpsAccess packet = false →
        ∀ p, i.policies.find? (i.forwardConcerns packet) = some p → cooledBy packet p = false) := by
  obtain ⟨hopening, hfollowing⟩ := opening_of_new hstate
  have hinvalid : decide (packet.state = .invalid) = false := by
    rw [hstate]
    decide
  rw [forwardVerdict_eq hin, hinvalid, (not_covered hcovered).1, hopening, hfollowing,
    Bool.and_true, Bool.and_false, Bool.false_or, Bool.false_or, Bool.or_false]
  cases hgate : outGated i.sets packet with
  | true => simp
  | false =>
      cases hhttps : i.httpsAccess packet with
      | true => simp
      | false =>
          have hsome : (i.policies.find? (i.forwardConcerns packet)).isSome = true := by
            rw [permittedForward, hhttps, Bool.or_false, List.any_eq_true] at hpermitted
            obtain ⟨p, hp, hpermits⟩ := hpermitted
            rw [List.find?_isSome]
            exact ⟨p, hp, by simp [forwardConcerns, hpermits, hopening]⟩
          have hgames : (i.gamesVerdict packet (i.forwardConcerns packet)).or (some .drop) =
              i.gamesVerdict packet (i.forwardConcerns packet) := by
            obtain ⟨p, hp⟩ := Option.isSome_iff_exists.mp hsome
            rw [gamesVerdict, hp]
            rfl
          rw [hgames, ← gamesVerdict_eq_accept hsome]
          simp

/-- A permitted new packet is accepted by the chain for packets to this host. -/
theorem input_accept_iff (hin : packet.inInterface = ifname) (hstate : packet.state = .new)
    (hcovered : i.covered packet = false) (hpermitted : i.permittedInput packet = true) :
    i.inputVerdict packet = some .accept ↔ (i.dnsAccess packet = false →
      ∀ p, i.policies.find? (i.inputConcerns packet) = some p → cooledBy packet p = false) := by
  obtain ⟨hopening, hfollowing⟩ := opening_of_new hstate
  rw [inputVerdict_eq hin, (not_covered hcovered).1, hfollowing, Bool.and_false]
  cases hdns : i.dnsAccess packet with
  | true => simp
  | false =>
      have hsome : (i.policies.find? (i.inputConcerns packet)).isSome = true := by
        rw [permittedInput, hdns, Bool.or_false, List.any_eq_true] at hpermitted
        obtain ⟨p, hp, hpermits⟩ := hpermitted
        rw [List.find?_isSome]
        exact ⟨p, hp, by simp [inputConcerns, hpermits, hopening]⟩
      rw [← gamesVerdict_eq_accept hsome]
      obtain ⟨p, hp⟩ := Option.isSome_iff_exists.mp hsome
      rw [gamesVerdict, hp]
      simp

/-- The chains admit exactly what the policy permits just where no rule stands in the way. -/
theorem exactAdmission_iff (i : Installation) (packet : Packet)
    (hin : packet.inInterface = ifname) : i.ExactAdmission packet ↔ i.Unexempted packet := by
  constructor
  · intro h
    have hcovers : i.cooled packet = true → i.covered packet = true := fun hcooled =>
      Bool.or_eq_true_iff.mpr (.inr hcooled)
    refine ⟨fun hcooled hearly => ?_, fun hcooled hstate hearly hgate => ?_,
      fun hstate hcovered hpermitted => ?_, fun hstate hcovered hpermitted => ?_⟩
    · exact (input_drop_iff hin hcooled).mp (h.drops (hcovers hcooled)).2 hearly
    · exact (forward_drop_iff hin hcooled).mp (h.drops (hcovers hcooled)).1 hstate hearly hgate
    · exact (forward_accept_iff hin hstate hcovered hpermitted).mp
        ((h.permits hstate hcovered).1 hpermitted)
    · exact (input_accept_iff hin hstate hcovered hpermitted).mp
        ((h.permits hstate hcovered).2 hpermitted)
  · intro h
    refine ⟨fun hcovered => ?_, fun hstate _ => permitted_of_accept hin hstate,
      fun hstate hcovered => ⟨fun hpermitted => ?_, fun hpermitted => ?_⟩⟩
    · rcases Bool.or_eq_true_iff.mp hcovered with hearly | hcooled
      · exact drop_of_early hin hearly
      · exact ⟨(forward_drop_iff hin hcooled).mpr (h.forwardCooldown hcooled),
          (input_drop_iff hin hcooled).mpr (h.localCooldown hcooled)⟩
    · exact (forward_accept_iff hin hstate hcovered hpermitted).mpr
        (h.forwardPermitted hstate hcovered hpermitted)
    · exact (input_accept_iff hin hstate hcovered hpermitted).mpr
        (h.localPermitted hstate hcovered hpermitted)

section Example

/-- Game 10 with two peers and a hill on this host, closed to the first peer. -/
def hillPolicy : GameVpnPolicy :=
  ⟨10, [1005, 1006], [⟨4002, 31337⟩], [⟨1005, ⟨4002, 31337⟩⟩]⟩

def hillRoute : ServiceRoute :=
  ⟨⟨4002, 24, by decide, by decide⟩, "eth0", true, some 4002⟩

def hillClient : Ipv4Net := ⟨1005, 24, by decide, by decide⟩

theorem hill_prepared :
    (prepare (fun _ => none) hillClient [hillRoute] [hillPolicy] 1).isSome = true := by
  decide +kernel

def hillFirewall : Installation where
  kernel := fun _ => none
  client := hillClient
  routes := [hillRoute]
  policies := [hillPolicy]
  guardServiceInterfaces := false
  sameOrigin := none
  generation := 1
  prepared := ((prepare (fun _ => none) hillClient [hillRoute] [hillPolicy] 1).get hill_prepared).1
  sets := ((prepare (fun _ => none) hillClient [hillRoute] [hillPolicy] 1).get hill_prepared).2
  prepare_eq := (Option.some_get hill_prepared).symm
  disjoint := List.pairwise_singleton ..

def hillPacket (source : ℕ) (state : CtState) : Packet :=
  ⟨ifname, "lo", .tcp, source, 40000, 4002, 31337, state⟩

/-- The second peer may open a connection to the hill. -/
theorem exactAdmission_second : hillFirewall.ExactAdmission (hillPacket 1006 .new) := by
  have hfind : hillFirewall.policies.find? (hillFirewall.inputConcerns (hillPacket 1006 .new)) =
      some hillPolicy := by decide +kernel
  have hopen : cooledBy (hillPacket 1006 .new) hillPolicy = false := by decide +kernel
  have hcooled : hillFirewall.cooled (hillPacket 1006 .new) = false := by decide +kernel
  have hforward : hillFirewall.permittedForward (hillPacket 1006 .new) = false := by
    decide +kernel
  refine (exactAdmission_iff hillFirewall (hillPacket 1006 .new) rfl).mpr
    ⟨fun h => ?_, fun h => ?_, fun _ _ h => ?_, fun _ _ _ _ p hp => ?_⟩
  · exact absurd (hcooled.symm.trans h) (by decide)
  · exact absurd (hcooled.symm.trans h) (by decide)
  · exact absurd (hforward.symm.trans h) (by decide)
  · exact Option.some.inj (hfind.symm.trans hp) ▸ hopen

/-- An established connection of the first peer goes on through its cooldown. -/
theorem not_exactAdmission_established : ¬∀ (i : Installation) (packet : Packet),
    packet.inInterface = ifname → i.ExactAdmission packet := by
  intro h
  have hdrop := ((h hillFirewall (hillPacket 1005 .established) rfl).drops (by decide +kernel)).2
  have haccept : hillFirewall.inputVerdict (hillPacket 1005 .established) = some .accept := by
    decide +kernel
  exact absurd (haccept.symm.trans hdrop) (by decide)

end Example

end Installation

end Exact

end Vpn

end Rsctf
