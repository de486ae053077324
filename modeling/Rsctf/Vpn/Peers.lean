import Mathlib.Data.List.Sort
import Rsctf.Data.Table
import Rsctf.Vpn.AddressText

/-!
# The peers of the VPN

A team has one peer in a game, a user may have a personal one.  Both are loaded before a
policy is built: the rows which are no longer valid are cleaned up, the others are the
peers of the policy.  The two tables have different rules of validity.
-/

namespace Rsctf

namespace Vpn

inductive AppError
  | conflict (message : String)
  | internal (message : String)
  | unavailable (message : String)
  | badRequest (message : String)
  | forbidden
deriving DecidableEq, Repr

section Networks

inductive IpNet
  | v4 (network : Ipv4Net)
  | v6

def Ipv4Net.trunc (n : Ipv4Net) : Ipv4Net where
  addr := n.network
  prefixLen := n.prefixLen
  addr_lt := lt_of_le_of_lt (Nat.div_mul_le_self n.addr n.size) n.addr_lt
  prefixLen_le := n.prefixLen_le

def Ipv4Net.text (n : Ipv4Net) : String := addressText n.addr ++ "/" ++ toString n.prefixLen

/-- The address of the hub. -/
def Ipv4Net.hub (n : Ipv4Net) : ℕ := min (n.network + 1) (2 ^ 32 - 1)

/-- `parse` reads the text of a network. -/
def parseIpv4Network (parse : String → Except String IpNet) (value label : String) :
    Except String Ipv4Net :=
  match parse value with
  | .ok (.v4 network) => .ok network.trunc
  | .ok .v6 => .error (label ++ " must be an IPv4 CIDR")
  | .error error => .error ("invalid " ++ label ++ " " ++ value.quote ++ ": " ++ error)

def overlaps (client service : Ipv4Net) : Bool :=
  client.contains service.network || service.contains client.network

/-- The service networks, each once; none overlaps the network of the clients. -/
def validateServices (parse : String → Except String IpNet) (client : Ipv4Net) :
    List String → List Ipv4Net → Except String (List Ipv4Net)
  | [], services => .ok services
  | value :: values, services => do
    let service ← parseIpv4Network parse value "A&D service CIDR"
    if overlaps client service then
      .error ("VPN client CIDR " ++ client.text ++ " overlaps A&D service CIDR " ++ service.text)
    else if services.any fun other => other.addr = service.addr ∧ other.prefixLen = service.prefixLen
    then validateServices parse client values services
    else validateServices parse client values (services ++ [service])

def validateVpnNetworks (parse : String → Except String IpNet) (clientCidr : String)
    (serviceCidrs : List String) : Except String (Ipv4Net × List Ipv4Net) := do
  let client ← parseIpv4Network parse clientCidr "VPN client CIDR"
  if 30 < client.prefixLen then
    .error "VPN client CIDR must provide at least two usable addresses"
  else
    let services ← validateServices parse client serviceCidrs []
    if services.isEmpty then .error "at least one A&D service CIDR is required"
    else return (client, services)

/-- An address which a client may have. -/
def clientAddress (client : Ipv4Net) (address : ℕ) : Bool :=
  client.contains address && decide (address ≠ client.network) &&
    decide (address ≠ client.broadcast) && decide (address ≠ client.hub)

def peerAddressAllowed (address : String) (client : Ipv4Net) (services : List Ipv4Net) : Bool :=
  match parseIpv4 address with
  | some address =>
    clientAddress client address && services.all fun service => !service.contains address
  | none => false

end Networks

section Tables

/-- An account, by the text of its UUID. -/
abbrev Uuid := String

inductive Role
  | banned
  | user
  | monitor
  | admin
deriving DecidableEq, Repr

/-- The number which is stored for a role. -/
def Role.num : Role → ℤ
  | .banned => 0
  | .user => 1
  | .monitor => 2
  | .admin => 3

inductive ParticipationStatus
  | pending
  | accepted
  | rejected
  | suspended
  | unsubmitted
deriving DecidableEq, Repr

inductive ReviewStatus
  | active
  | pending
  | rejected
deriving DecidableEq, Repr

inductive ChallengeType
  | staticAttachment
  | staticContainer
  | dynamicAttachment
  | dynamicContainer
  | attackDefense
  | kingOfTheHill
deriving DecidableEq, Repr

structure Game where
  deletionPending : Bool
  startTimeUtc : ℤ
  endTimeUtc : ℤ
  vpnAccessRequired : Bool

structure GameChallenge where
  id : ℤ
  gameId : ℤ
  isEnabled : Bool
  deletionPending : Bool
  reviewStatus : ReviewStatus
  type : ChallengeType
  adSelfHosted : Bool
  enableTrafficCapture : Bool

structure Participation where
  gameId : ℤ
  teamId : ℤ
  status : ParticipationStatus

structure Team where
  captainId : Uuid
  deletionPending : Bool

structure Account where
  emailConfirmed : Bool
  role : Role

structure UserParticipation where
  userId : Uuid
  gameId : ℤ
  teamId : ℤ
  participationId : ℤ

structure AdVpnPeer where
  id : ℤ
  gameId : ℤ
  participationId : ℤ
  publicKey : String
  address : String
deriving DecidableEq, Repr

structure EventVpnUserPeer where
  id : Uuid
  gameId : ℤ
  userId : Uuid
  participationId : ℤ
  publicKey : String
  address : String
  generation : ℕ
  revokedAtUtc : Option ℤ
deriving DecidableEq, Repr

structure AdTeamService where
  id : ℤ
  gameId : ℤ
  participationId : ℤ
  challengeId : ℤ
  host : String
  port : ℤ
  status : ℤ
  containerId : Option String

structure KothTarget where
  gameId : ℤ
  challengeId : ℤ
  host : String
  port : ℤ
  containerId : Option String

inductive CyclePhase
  | firewallPending
  | active
  | other (phase : String)
deriving DecidableEq, Repr

structure KothCrownCycle where
  gameId : ℤ
  challengeId : ℤ
  phase : CyclePhase
  replacementContainerId : Option String

structure KothCycleCooldown where
  cycleId : ℤ
  participationId : ℤ
  startsRound : ℤ
  expiresAfterRound : ℤ
  networkReleasedAt : Option ℤ

structure AdRound where
  gameId : ℤ
  number : ℤ

structure TrafficCaptureLiveEndpoint where
  serviceId : ℤ
  containerId : String
  host : String
  port : ℤ
  ownerId : Uuid
  ownerEpoch : ℤ

structure TrafficCaptureOwner where
  ownerId : Option Uuid
  ownerEpoch : ℤ
  draining : Bool
  leaseExpiresAt : Option ℤ

/-- The tables; what is looked up by its primary key is a function. -/
structure Database where
  games : ℤ → Option Game
  challenges : List GameChallenge
  participations : ℤ → Option Participation
  teams : ℤ → Option Team
  accounts : Uuid → Option Account
  teamMembers : List (ℤ × Uuid)
  userParticipations : List UserParticipation
  adVpnPeers : Table AdVpnPeer.id
  eventVpnUserPeers : Table EventVpnUserPeer.id
  adTeamServices : List AdTeamService
  kothTargets : List KothTarget
  kothCrownCycles : ℤ → Option KothCrownCycle
  kothCycleCooldowns : List KothCycleCooldown
  adRounds : List AdRound
  captureLive : List TrafficCaptureLiveEndpoint
  captureOwner : TrafficCaptureOwner

/-- The game may be played. -/
def Game.open (game : Game) (now : ℤ) : Bool :=
  !game.deletionPending && decide (game.startTimeUtc ≤ now) && decide (now ≤ game.endTimeUtc)

namespace Database

variable (db : Database)

def rosterUsers (teamId : ℤ) (team : Team) : List Uuid :=
  team.captainId :: (db.teamMembers.filter (·.1 = teamId)).map Prod.snd

/-- Nobody of the whole roster is missing or banned. -/
def sharedCredentialTeam (teamId : ℤ) (team : Team) : Bool :=
  !team.deletionPending && (db.rosterUsers teamId team).all fun user =>
    match db.accounts user with
    | some account => decide (account.role.num ≠ Role.banned.num)
    | none => false

/-- The participation is accepted in the game, and its team may hold a shared credential. -/
def eligibleParticipation (gameId participationId : ℤ) : Bool :=
  match db.participations participationId with
  | some participation =>
    decide (participation.gameId = gameId) && decide (participation.status = .accepted) &&
      match db.teams participation.teamId with
      | some team => db.sharedCredentialTeam participation.teamId team
      | none => false
  | none => false

def gameOpen (gameId now : ℤ) : Bool := (db.games gameId).any (·.open now)

end Database

end Tables

section LoadTeamPeers

/-- Forget an address which a service was reached at. -/
def AdTeamService.invalidate (service : AdTeamService) (participationId : ℤ) (address : String) :
    AdTeamService :=
  if service.participationId = participationId ∧ service.containerId = none ∧
      service.host = address
  then { service with host := "", port := 0, status := 2 }
  else service

def invalidateByocServiceHosts (db : Database) (participationId : ℤ) (address : String) :
    Database :=
  { db with adTeamServices := db.adTeamServices.map (·.invalidate participationId address) }

def AdVpnPeer.valid (db : Database) (client : Ipv4Net) (services : List Ipv4Net) (now : ℤ)
    (peer : AdVpnPeer) : Bool :=
  peerAddressAllowed peer.address client services &&
    db.eligibleParticipation peer.gameId peer.participationId && db.gameOpen peer.gameId now

/-- The valid team peers by their ids; the others are deleted. -/
def loadTeamPeers (client : Ipv4Net) (services : List Ipv4Net) (now : ℤ) (db : Database) :
    List AdVpnPeer × Database :=
  let peers := db.adVpnPeers.rows.filter (·.valid db client services now)
  let invalid := db.adVpnPeers.rows.filter fun peer => !peer.valid db client services now
  let db := invalid.foldl
    (fun db peer => invalidateByocServiceHosts db peer.participationId peer.address) db
  let invalidIds := invalid.map (·.id)
  (peers.insertionSort fun left right => left.id ≤ right.id,
    { db with adVpnPeers := db.adVpnPeers.keep fun peer => peer.id ∉ invalidIds })

end LoadTeamPeers

section LoadPeers

structure DesiredPeer where
  stableId : String
  gameId : ℤ
  participationId : ℤ
  publicKey : String
  address : String
deriving DecidableEq, Repr

def personalPeerGameEligible (db : Database) (now gameId : ℤ) (game : Game) : Bool :=
  !game.deletionPending && decide (now < game.endTimeUtc) &&
    (game.vpnAccessRequired || db.challenges.any fun challenge =>
      decide (challenge.gameId = gameId) && challenge.isEnabled &&
        decide (challenge.reviewStatus = .active) &&
        decide (challenge.type ∈ [ChallengeType.attackDefense, ChallengeType.kingOfTheHill]))

structure EventPeerIntent where
  id : Uuid
  gameId : ℤ
  participationId : ℤ
  publicKey : String
  address : String
  valid : Bool
deriving DecidableEq, Repr

/-- The row of a personal peer which is not revoked, if the joined rows exist. -/
def eventPeerIntent (db : Database) (now : ℤ) (peer : EventVpnUserPeer) :
    Option EventPeerIntent := do
  guard (peer.revokedAtUtc = none)
  let game ← db.games peer.gameId
  let participation ← db.participations peer.participationId
  guard (participation.gameId = peer.gameId)
  let team ← db.teams participation.teamId
  let account ← db.accounts peer.userId
  let historical := db.userParticipations.any fun historical =>
    historical.userId = peer.userId ∧ historical.gameId = peer.gameId ∧
      historical.teamId = participation.teamId ∧
      historical.participationId = peer.participationId
  let member := decide ((participation.teamId, peer.userId) ∈ db.teamMembers)
  return {
    id := peer.id
    gameId := peer.gameId
    participationId := peer.participationId
    publicKey := peer.publicKey
    address := peer.address
    valid := personalPeerGameEligible db now peer.gameId game &&
      decide (participation.status = .accepted) && !team.deletionPending &&
      account.emailConfirmed && decide (account.role.num ≠ -1) && historical &&
      (decide (team.captainId = peer.userId) || member) }

def EventPeerIntent.admitted (client : Ipv4Net) (services : List Ipv4Net)
    (peer : EventPeerIntent) : Bool :=
  peer.valid && peerAddressAllowed peer.address client services

def EventVpnUserPeer.revoke (invalid : List Uuid) (now : ℤ) (peer : EventVpnUserPeer) :
    EventVpnUserPeer :=
  if peer.id ∈ invalid ∧ peer.revokedAtUtc = none then { peer with revokedAtUtc := some now }
  else peer

theorem EventVpnUserPeer.id_revoke (invalid : List Uuid) (now : ℤ) (peer : EventVpnUserPeer) :
    (peer.revoke invalid now).id = peer.id := by
  unfold revoke
  split <;> rfl

def AdVpnPeer.desired (peer : AdVpnPeer) : DesiredPeer where
  stableId := "team:" ++ toString peer.id
  gameId := peer.gameId
  participationId := peer.participationId
  publicKey := peer.publicKey
  address := peer.address

def EventPeerIntent.desired (peer : EventPeerIntent) : DesiredPeer where
  stableId := "user:" ++ peer.id
  gameId := peer.gameId
  participationId := peer.participationId
  publicKey := peer.publicKey
  address := peer.address

/-- The readings of the clock by the statements of one load. -/
structure LoadClock where
  eligibleGames : ℤ
  eventPeers : ℤ
  revoke : ℤ
  endpoints : ℤ
  cooldowns : ℤ

/-- The personal peers which are admitted; the others are revoked. -/
def loadEventPeers (client : Ipv4Net) (services : List Ipv4Net) (clock : LoadClock)
    (db : Database) : List EventPeerIntent × Database :=
  let eventPeers := (db.eventVpnUserPeers.rows.insertionSort fun left right => left.id ≤ right.id)
    |>.filterMap (eventPeerIntent db clock.eventPeers)
  let invalid := (eventPeers.filter fun peer => !peer.admitted client services).map (·.id)
  (eventPeers.filter fun peer => peer.admitted client services && decide (peer.id ∉ invalid),
    { db with
      eventVpnUserPeers := db.eventVpnUserPeers.change (·.revoke invalid clock.revoke)
        (EventVpnUserPeer.id_revoke invalid clock.revoke) })

def loadPeers (client : Ipv4Net) (services : List Ipv4Net) (clock : LoadClock) (db : Database) :
    List DesiredPeer × Database :=
  let (teamPeers, db) := loadTeamPeers client services clock.eligibleGames db
  let (eventPeers, db) := loadEventPeers client services clock db
  let peers := teamPeers.map (·.desired) ++ eventPeers.map (·.desired)
  (peers.insertionSort fun left right => left.stableId ≤ right.stableId, db)

end LoadPeers

end Vpn

end Rsctf
