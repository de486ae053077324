import Rsctf.Data.FirstMatch
import Rsctf.Vpn.Address

/-!
# The managed chains of the VPN firewall

A policy gives every game its peers, its targets and its cooldown blocks.  They are written
into sets of the kernel; the chains for forwarded and for local packets match a packet
against these sets, and the first rule which matches decides.
-/

namespace Rsctf

namespace Vpn

def ifname : String := "wg0"

inductive Protocol
  | tcp
  | udp
  | other
deriving DecidableEq, Repr

inductive CtState
  | invalid
  | new
  | established
  | related
deriving DecidableEq, Repr

structure Packet where
  inInterface : String
  outInterface : String
  protocol : Protocol
  source : ℕ
  sourcePort : ℕ
  destination : ℕ
  destinationPort : ℕ
  state : CtState
deriving DecidableEq, Repr

/-- The members of the kernel's sets. -/
inductive Entry
  | ip (address : ℕ)
  | ipPort (address : ℕ) (protocol : Protocol) (port : ℕ)
  | ipPortIp (address : ℕ) (protocol : Protocol) (port : ℕ) (address' : ℕ)
deriving DecidableEq, Repr

inductive PolicyKind
  | peers
  | forwardTargets
  | localTargets
  | natTargets
  | cooldownBlocks
deriving DecidableEq, Repr

/-- The names of the sets; a policy set is named by its kind, its game and its generation. -/
inductive SetName
  | quarantine
  | transitionBlock
  | captureRequired
  | captureLive
  | allPeers (generation : ℕ)
  | policy (kind : PolicyKind) (game : ℕ) (generation : ℕ)
deriving DecidableEq, Repr

/-- The sets of the kernel. -/
abbrev Ipsets := SetName → Option (List Entry)

def members (sets : Ipsets) (name : SetName) : List Entry := (sets name).getD []

/-- Which sides of a packet are looked up. -/
inductive Direction
  | src
  | dst
  | srcSrc
  | dstDst
  | srcDstDst
deriving DecidableEq, Repr

def Packet.entry (packet : Packet) : Direction → Entry
  | .src => .ip packet.source
  | .dst => .ip packet.destination
  | .srcSrc => .ipPort packet.source packet.protocol packet.sourcePort
  | .dstDst => .ipPort packet.destination packet.protocol packet.destinationPort
  | .srcDstDst =>
      .ipPortIp packet.source packet.protocol packet.destinationPort packet.destination

inductive Match
  | inInterface (name : String)
  | outInterface (name : String)
  | protocol (protocol : Protocol)
  | matchSet (name : SetName) (direction : Direction)
  | notMatchSet (name : SetName) (direction : Direction)
  | source (address : ℕ)
  | destination (address : ℕ)
  | sport (port : ℕ)
  | dport (port : ℕ)
  | ctstate (states : List CtState)
deriving DecidableEq, Repr

inductive Verdict
  | accept
  | drop
deriving DecidableEq, Repr

structure Rule where
  conditions : List Match
  target : Verdict
deriving DecidableEq, Repr

def Match.holds (sets : Ipsets) (packet : Packet) : Match → Bool
  | .inInterface name => packet.inInterface = name
  | .outInterface name => packet.outInterface = name
  | .protocol p => packet.protocol = p
  | .matchSet name direction => packet.entry direction ∈ members sets name
  | .notMatchSet name direction => packet.entry direction ∉ members sets name
  | .source address => packet.source = address
  | .destination address => packet.destination = address
  | .sport port => packet.sourcePort = port
  | .dport port => packet.destinationPort = port
  | .ctstate states => packet.state ∈ states

def Rule.holds (sets : Ipsets) (packet : Packet) (rule : Rule) : Bool :=
  rule.conditions.all (·.holds sets packet)

/-- What a chain does with a packet. -/
def verdict (sets : Ipsets) (packet : Packet) (rules : List Rule) : Option Verdict :=
  FirstMatch.outcome (·.holds sets packet) (·.target) rules

structure ServiceRoute where
  network : Ipv4Net
  interface : String
  directlyConnected : Bool
  localAddress : Option ℕ

structure VpnTarget where
  address : ℕ
  port : ℕ
deriving DecidableEq, Repr

structure CooldownBlock where
  peer : ℕ
  target : VpnTarget
deriving DecidableEq, Repr

structure GameVpnPolicy where
  gameId : ℤ
  peers : List ℕ
  targets : List VpnTarget
  cooldownBlocks : List CooldownBlock
deriving DecidableEq, Repr

structure SameOriginAccess where
  dns : ℕ
  ingress : ℕ
deriving DecidableEq, Repr

structure PolicySets where
  peers : SetName
  forwardTargets : SetName
  localTargets : SetName
  natTargets : SetName
  cooldownBlocks : SetName
deriving DecidableEq, Repr

def targetProtocols : List Protocol := [.tcp, .udp]

section Rules

def transitionBlockRule (protocol : Protocol) : Rule :=
  ⟨[.inInterface ifname, .protocol protocol, .matchSet .transitionBlock .srcDstDst], .drop⟩

/-- An endpoint which has to be captured but is not. -/
def captureGate (interface : String → Match) (endpointDirection : Direction)
    (protocol : Protocol) : Rule :=
  ⟨[interface ifname, .protocol protocol, .matchSet .captureRequired endpointDirection,
    .notMatchSet .captureLive endpointDirection], .drop⟩

def cooldownRule (game : PolicySets) (protocol : Protocol) : Rule :=
  ⟨[.inInterface ifname, .protocol protocol, .matchSet game.cooldownBlocks .srcDstDst], .drop⟩

def forwardingSameOrigin (allPeers : SetName) (access : SameOriginAccess) : List Rule :=
  [⟨[.inInterface ifname, .protocol .tcp, .matchSet allPeers .src, .destination access.ingress,
      .dport 443, .ctstate [.new, .established]], .accept⟩,
   ⟨[.outInterface ifname, .protocol .tcp, .source access.ingress, .sport 443,
      .matchSet allPeers .dst, .ctstate [.established, .related]], .accept⟩]

def forwardingGame (game : PolicySets) : List Rule :=
  targetProtocols.flatMap fun protocol =>
    [cooldownRule game protocol,
     ⟨[.inInterface ifname, .protocol protocol, .matchSet game.peers .src,
        .matchSet game.forwardTargets .dstDst, .ctstate [.new, .established]], .accept⟩,
     ⟨[.outInterface ifname, .protocol protocol, .matchSet game.forwardTargets .srcSrc,
        .matchSet game.peers .dst, .ctstate [.established, .related]], .accept⟩]

def forwardingRulePlan (allPeers : SetName) (sets : List PolicySets)
    (sameOrigin : Option SameOriginAccess) : List Rule :=
  ⟨[.ctstate [.invalid]], .drop⟩ ::
  ⟨[.inInterface ifname, .matchSet .quarantine .src], .drop⟩ ::
  (targetProtocols.map transitionBlockRule ++
   targetProtocols.flatMap (fun protocol =>
     [captureGate .inInterface .dstDst protocol, captureGate .outInterface .srcSrc protocol]) ++
   sameOrigin.elim [] (forwardingSameOrigin allPeers) ++
   sets.flatMap forwardingGame ++
   [⟨[], .drop⟩])

def inputSameOrigin (allPeers : SetName) (access : SameOriginAccess) : List Rule :=
  [Protocol.udp, Protocol.tcp].map fun protocol =>
    ⟨[.inInterface ifname, .protocol protocol, .matchSet allPeers .src, .destination access.dns,
      .dport 53], .accept⟩

def inputGame (game : PolicySets) : List Rule :=
  targetProtocols.flatMap fun protocol =>
    [cooldownRule game protocol,
     ⟨[.inInterface ifname, .protocol protocol, .matchSet game.peers .src,
        .matchSet game.localTargets .dstDst, .ctstate [.new, .established]], .accept⟩]

/-- The interfaces which the services are directly connected to, each once. -/
def guardedInterfaces (routes : List ServiceRoute) : List String :=
  (routes.filter (·.directlyConnected)).foldl (fun interfaces route =>
    if route.interface ∈ interfaces then interfaces else interfaces ++ [route.interface]) []

def inputRulePlan (allPeers : SetName) (sets : List PolicySets) (routes : List ServiceRoute)
    (guardServiceInterfaces : Bool) (sameOrigin : Option SameOriginAccess) : List Rule :=
  [⟨[.inInterface ifname, .matchSet .quarantine .src], .drop⟩,
   transitionBlockRule .tcp,
   transitionBlockRule .udp,
   captureGate .inInterface .dstDst .tcp,
   captureGate .inInterface .dstDst .udp,
   ⟨[.inInterface ifname, .matchSet allPeers .src, .ctstate [.established, .related]],
     .accept⟩] ++
  sameOrigin.elim [] (inputSameOrigin allPeers) ++
  sets.flatMap inputGame ++
  (if guardServiceInterfaces then
    (guardedInterfaces routes).map fun interface =>
      ⟨[.inInterface interface, .ctstate [.established, .related]], .accept⟩
   else []) ++
  [⟨[], .drop⟩]

end Rules

section Prepare

inductive IpsetCommand
  | create (name : SetName)
  | add (name : SetName) (entry : Entry)
deriving DecidableEq, Repr

/-- One command of a restore script; nothing may exist before. -/
def IpsetCommand.run (sets : Ipsets) : IpsetCommand → Option Ipsets
  | .create name => if sets name = none then some (Function.update sets name (some [])) else none
  | .add name entry =>
    match sets name with
    | some entries =>
      if entry ∈ entries then none
      else some (Function.update sets name (some (entries ++ [entry])))
    | none => none

def ipsetRestore (sets : Ipsets) (script : List IpsetCommand) : Option Ipsets :=
  script.foldlM IpsetCommand.run sets

def policySetName (kind : PolicyKind) (gameId : ℤ) (generation : ℕ) : SetName :=
  .policy kind gameId.natAbs generation

def policySets (generation : ℕ) (policy : GameVpnPolicy) : PolicySets where
  peers := policySetName .peers policy.gameId generation
  forwardTargets := policySetName .forwardTargets policy.gameId generation
  localTargets := policySetName .localTargets policy.gameId generation
  natTargets := policySetName .natTargets policy.gameId generation
  cooldownBlocks := policySetName .cooldownBlocks policy.gameId generation

def addTarget (name : SetName) (target : VpnTarget) : List IpsetCommand :=
  targetProtocols.map fun protocol => .add name (.ipPort target.address protocol target.port)

/-- Where a target goes: to the peers of the VPN, to a service network, or to this host. -/
def targetCommands (client : Ipv4Net) (routes : List ServiceRoute) (sets : PolicySets)
    (target : VpnTarget) : List IpsetCommand :=
  if client.contains target.address then addTarget sets.forwardTargets target
  else
    match routes.find? fun route => route.network.contains target.address with
    | none => []
    | some route =>
      if route.localAddress = some target.address then addTarget sets.localTargets target
      else addTarget sets.natTargets target ++ addTarget sets.forwardTargets target

def policyCommands (client : Ipv4Net) (routes : List ServiceRoute) (generation : ℕ)
    (policy : GameVpnPolicy) : List IpsetCommand :=
  let sets := policySets generation policy
  [.create sets.peers, .create sets.forwardTargets, .create sets.localTargets,
    .create sets.natTargets, .create sets.cooldownBlocks] ++
  policy.peers.flatMap (fun peer =>
    [.add sets.peers (.ip peer), .add (.allPeers generation) (.ip peer)]) ++
  policy.targets.flatMap (targetCommands client routes sets) ++
  policy.cooldownBlocks.flatMap fun block =>
    targetProtocols.map fun protocol =>
      .add sets.cooldownBlocks
        (.ipPortIp block.peer protocol block.target.port block.target.address)

structure PreparedPolicy where
  allPeers : SetName
  sets : List PolicySets
deriving DecidableEq, Repr

/-- The detached sets of a generation. -/
def prepare (kernel : Ipsets) (client : Ipv4Net) (routes : List ServiceRoute)
    (policies : List GameVpnPolicy) (generation : ℕ) : Option (PreparedPolicy × Ipsets) := do
  let kernel ← ipsetRestore kernel
    (.create (.allPeers generation) :: policies.flatMap (policyCommands client routes generation))
  return (⟨.allPeers generation, policies.map (policySets generation)⟩, kernel)

end Prepare

end Vpn

end Rsctf
