import Mathlib.Data.List.Dedup
import Rsctf.Data.Fallible
import Rsctf.Vpn.Firewall
import Rsctf.Vpn.Peers

/-!
# The policies of the games

The policy of a game lists the addresses of its peers, the endpoints which they may reach,
and the cooldown blocks: pairs of a peer and of the hill which its team has to stay away
from.  The blocks are loaded by a query of its own.
-/

namespace Rsctf

namespace Vpn

section Targets

/-- The first address of a service network belongs to a gateway. -/
def firstAddress (network : Ipv4Net) : ℕ :=
  if network.prefixLen = 32 then network.network else network.hub

def serviceAddress (network : Ipv4Net) (address : ℕ) : Bool :=
  network.contains address && decide (address ≠ network.network) &&
    decide (address ≠ network.broadcast) && decide (address ≠ firstAddress network)

def vpnTarget (address : String) (port : ℤ) (client : Ipv4Net) (services : List Ipv4Net) :
    Option VpnTarget := do
  let address ← parseIpv4 address
  guard (0 < port ∧ port < 2 ^ 16)
  guard (clientAddress client address || services.any (serviceAddress · address))
  return { address := address, port := port.toNat }

end Targets

section Cooldowns

structure RawCooldownBlock where
  cycleId : ℤ
  participationId : ℤ
  gameId : ℤ
  peer : Option String
  host : Option String
  port : Option ℤ
  containerId : Option String
  replacementContainerId : Option String

structure RequiredCooldownBlock where
  cycleId : ℤ
  participationId : ℤ
  gameId : ℤ
  block : CooldownBlock

/-- The rows of a left join; a row without partner is kept. -/
def leftJoin {α : Type} (partners : List α) : List (Option α) :=
  if partners.isEmpty then [none] else partners.map some

def Database.currentRound (db : Database) (gameId : ℤ) : Option ℤ :=
  ((db.adRounds.filter (·.gameId = gameId)).map (·.number)).max?

/-- The cooldown is not released and holds in the current round of a cycle which is about to
be played or is played. -/
def KothCycleCooldown.inForce (db : Database) (cycle : KothCrownCycle)
    (cooldown : KothCycleCooldown) : Bool :=
  decide (cycle.phase ∈ [CyclePhase.firewallPending, CyclePhase.active]) &&
    decide (cooldown.networkReleasedAt = none) &&
    (db.currentRound cycle.gameId).any fun number =>
      decide (cooldown.startsRound ≤ number ∧ number ≤ cooldown.expiresAfterRound)

def peersOf (db : Database) (gameId participationId : ℤ) : List AdVpnPeer :=
  db.adVpnPeers.rows.filter fun peer => peer.gameId = gameId ∧ peer.participationId = participationId

def targetsOf (db : Database) (gameId challengeId : ℤ) : List KothTarget :=
  db.kothTargets.filter fun target => target.gameId = gameId ∧ target.challengeId = challengeId

def rawBlock (cycle : KothCrownCycle) (cooldown : KothCycleCooldown) (peer : Option AdVpnPeer)
    (target : Option KothTarget) : RawCooldownBlock where
  cycleId := cooldown.cycleId
  participationId := cooldown.participationId
  gameId := cycle.gameId
  peer := peer.map (·.address)
  host := target.map (·.host)
  port := target.map (·.port)
  containerId := target.bind (·.containerId)
  replacementContainerId := cycle.replacementContainerId

def cooldownRows (db : Database) (now : ℤ) (cycleId : Option ℤ) (cooldown : KothCycleCooldown) :
    List RawCooldownBlock :=
  match db.kothCrownCycles cooldown.cycleId with
  | none => []
  | some cycle =>
    if cooldown.inForce db cycle = true ∧ db.gameOpen cycle.gameId now = true ∧
        db.eligibleParticipation cycle.gameId cooldown.participationId = true ∧
        cycleId.all (· = cooldown.cycleId) = true then
      (leftJoin (peersOf db cycle.gameId cooldown.participationId)).flatMap fun peer =>
        (leftJoin (targetsOf db cycle.gameId cycle.challengeId)).map (rawBlock cycle cooldown peer)
    else []

def requiredRows (db : Database) (now : ℤ) (cycleId : Option ℤ) : List RawCooldownBlock :=
  (db.kothCycleCooldowns.flatMap (cooldownRows db now cycleId)).insertionSort fun left right =>
    left.cycleId < right.cycleId ∨
      left.cycleId = right.cycleId ∧ left.participationId ≤ right.participationId

def okOr {α : Type} (value : Option α) (error : AppError) : Except AppError α :=
  value.elim (.error error) .ok

theorem okOr_eq_ok_iff {α : Type} {value : Option α} {error : AppError} {a : α} :
    okOr value error = .ok a ↔ value = some a := by
  cases value <;> simp [okOr]

def RawCooldownBlock.bound (row : RawCooldownBlock) : Bool :=
  decide (row.containerId = row.replacementContainerId) && row.containerId.any (· ≠ "")

def validateRequiredBlock (client : Ipv4Net) (services : List Ipv4Net) (row : RawCooldownBlock) :
    Except AppError RequiredCooldownBlock := do
  let participant := "KotH cooldown participant " ++ toString row.participationId ++ " in cycle "
    ++ toString row.cycleId
  let cycle := "KotH cooldown cycle " ++ toString row.cycleId
  let peerText ← okOr row.peer (.conflict (participant ++ " has no active VPN peer"))
  let peer ← okOr ((parseIpv4 peerText).filter fun _ => peerAddressAllowed peerText client services)
    (.conflict (participant ++ " has an invalid VPN address"))
  let _ ← okOr (guard row.bound)
    (.conflict (cycle ++ " is not bound to its exact replacement container"))
  let host ← okOr row.host (.conflict (cycle ++ " has no enforceable target address"))
  let target ← okOr (row.port.bind fun port => vpnTarget host port client services)
    (.conflict (cycle ++ " targets an address outside the managed VPN networks"))
  return ⟨row.cycleId, row.participationId, row.gameId, ⟨peer, target⟩⟩

def loadRequiredBlocks (client : Ipv4Net) (services : List Ipv4Net) (now : ℤ)
    (cycleId : Option ℤ) (db : Database) : Except AppError (List RequiredCooldownBlock) :=
  (requiredRows db now cycleId).mapM (validateRequiredBlock client services)

def loadActiveBlocks (client : Ipv4Net) (services : List Ipv4Net) (now : ℤ) (db : Database) :
    Except AppError (List (ℤ × CooldownBlock)) := do
  let required ← loadRequiredBlocks client services now none db
  return required.map fun required => (required.gameId, required.block)

end Cooldowns

section Endpoints

/-- The text without spaces around it. -/
def btrim (text : String) : String :=
  let isSpace := fun character : Char => decide (character = ' ')
  String.ofList ((((text.toList.dropWhile isSpace).reverse).dropWhile isSpace).reverse)

def Database.liveCapture (db : Database) (now : ℤ) (service : AdTeamService) : Bool :=
  db.captureLive.any fun live =>
    decide (live.serviceId = service.id) &&
      decide (some live.containerId = service.containerId.map btrim) &&
      decide (live.host = btrim service.host) && decide (live.port = service.port) &&
      decide (some live.ownerId = db.captureOwner.ownerId) &&
      decide (live.ownerEpoch = db.captureOwner.ownerEpoch) && !db.captureOwner.draining &&
      db.captureOwner.leaseExpiresAt.any (now < ·)

def GameChallenge.playable (challenge : GameChallenge) (type : ChallengeType) : Bool :=
  challenge.isEnabled && !challenge.deletionPending &&
    decide (challenge.reviewStatus = .active) && decide (challenge.type = type)

def Database.challengeOf (db : Database) (challengeId gameId : ℤ) : Option GameChallenge :=
  db.challenges.find? fun challenge => challenge.id = challengeId ∧ challenge.gameId = gameId

def serviceReachable (db : Database) (now : ℤ) (service : AdTeamService) : Bool :=
  db.gameOpen service.gameId now &&
    (db.participations service.participationId).any (fun participation =>
      decide (participation.gameId = service.gameId) &&
        decide (participation.status = .accepted) &&
        (db.teams participation.teamId).any (!·.deletionPending)) &&
    (db.challengeOf service.challengeId service.gameId).any (fun challenge =>
      challenge.playable .attackDefense &&
        (challenge.adSelfHosted && service.containerId.isNone ||
          !challenge.adSelfHosted && service.containerId.isSome) &&
        (!challenge.enableTrafficCapture || db.liveCapture now service)) &&
    decide (1 ≤ service.port ∧ service.port ≤ 65535)

def hillReachable (db : Database) (now : ℤ) (target : KothTarget) : Bool :=
  db.gameOpen target.gameId now &&
    (db.challengeOf target.challengeId target.gameId).any (·.playable .kingOfTheHill) &&
    target.containerId.isSome && decide (1 ≤ target.port ∧ target.port ≤ 65535)

def loadEndpoints (db : Database) (now : ℤ) : List (ℤ × String × ℤ) :=
  (db.adTeamServices.filter (serviceReachable db now)).map
      (fun service => (service.gameId, service.host, service.port)) ++
    (db.kothTargets.filter (hillReachable db now)).map
      fun target => (target.gameId, target.host, target.port)

end Endpoints

section LoadPolicies

/-- Change the policy of a game, which is made when it is missing. -/
def entry (gameId : ℤ) (change : GameVpnPolicy → GameVpnPolicy) :
    List GameVpnPolicy → List GameVpnPolicy
  | [] => [change ⟨gameId, [], [], []⟩]
  | policy :: policies =>
    if gameId < policy.gameId then change ⟨gameId, [], [], []⟩ :: policy :: policies
    else if policy.gameId = gameId then change policy :: policies
    else policy :: entry gameId change policies

/-- Change the policy of a game, if there is one. -/
def getMut (gameId : ℤ) (change : GameVpnPolicy → GameVpnPolicy)
    (policies : List GameVpnPolicy) : List GameVpnPolicy :=
  policies.map fun policy => if policy.gameId = gameId then change policy else policy

def addPeer (policies : List GameVpnPolicy) (peer : DesiredPeer) : List GameVpnPolicy :=
  match parseIpv4 peer.address with
  | some address =>
    entry peer.gameId (fun policy => { policy with peers := policy.peers ++ [address] }) policies
  | none => policies

/-- An address of the VPN is a target only if it belongs to a peer of the game. -/
def GameVpnPolicy.addTarget (client : Ipv4Net) (target : VpnTarget) (policy : GameVpnPolicy) :
    GameVpnPolicy :=
  if client.contains target.address = true ∧ target.address ∉ policy.peers then policy
  else if target ∈ policy.targets then policy
  else { policy with targets := policy.targets ++ [target] }

def addEndpoint (client : Ipv4Net) (services : List Ipv4Net) (policies : List GameVpnPolicy)
    (endpoint : ℤ × String × ℤ) : List GameVpnPolicy :=
  match vpnTarget endpoint.2.1 endpoint.2.2 client services with
  | some target => getMut endpoint.1 (·.addTarget client target) policies
  | none => policies

def GameVpnPolicy.addBlock (block : CooldownBlock) (policy : GameVpnPolicy) : GameVpnPolicy :=
  if block ∈ policy.cooldownBlocks then policy
  else { policy with cooldownBlocks := policy.cooldownBlocks ++ [block] }

def addBlock (policies : List GameVpnPolicy) (block : ℤ × CooldownBlock) : List GameVpnPolicy :=
  getMut block.1 (·.addBlock block.2) policies

def GameVpnPolicy.sorted (policy : GameVpnPolicy) : GameVpnPolicy where
  gameId := policy.gameId
  peers := (policy.peers.insertionSort (· ≤ ·)).dedup
  targets := policy.targets.insertionSort fun left right =>
    left.address < right.address ∨ left.address = right.address ∧ left.port ≤ right.port
  cooldownBlocks := policy.cooldownBlocks.insertionSort fun left right =>
    left.peer < right.peer ∨ left.peer = right.peer ∧
      (left.target.address < right.target.address ∨
        left.target.address = right.target.address ∧ left.target.port ≤ right.target.port)

def loadPolicies (client : Ipv4Net) (services : List Ipv4Net) (clock : LoadClock) (db : Database)
    (peers : List DesiredPeer) : Except AppError (List GameVpnPolicy) := do
  let endpoints := loadEndpoints db clock.endpoints
  let blocks ← loadActiveBlocks client services clock.cooldowns db
  let policies := peers.foldl addPeer []
  let policies := endpoints.foldl (addEndpoint client services) policies
  let policies := blocks.foldl addBlock policies
  return policies.map (·.sorted)

end LoadPolicies

end Vpn

end Rsctf
