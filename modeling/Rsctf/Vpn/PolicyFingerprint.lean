import Rsctf.Leaderboard.InputDigest
import Rsctf.Vpn.PolicyShape

/-!
# The fingerprint of a policy

A pass of the reconciliation leaves the kernel alone when the fingerprint of what it has
loaded is the one of the last pass.  The fingerprint is taken of all fields and records, one
after the other, without lengths between them.

The message can be read back as long as the end of every field can be told: keys have one
length, and the numbers of games and the addresses differ in their first byte.  What the
bytes do not tell is where the targets of a game end and its cooldown blocks begin.
-/

open PrefixCode

namespace Rsctf

namespace Vpn

open Leaderboard (Bytes utf8 utf8_injective)

section Message

structure PolicyFingerprintInput where
  prvkey : String
  port : ℕ
  clientCidr : String
  serviceCidrs : List String
  route : String
  sameOrigin : Option SameOriginAccess
  peers : List DesiredPeer
  policies : List GameVpnPolicy

def octetBytes (address : ℕ) : Bytes := beBytes 4 address

def portBytes (port : ℕ) : Bytes := beBytes 2 port

/-- A 32-bit integer in two's complement. -/
def i32Bytes (n : ℤ) : Bytes := beBytes 4 (n % 2 ^ 32).toNat

def sameOriginBytes (sameOrigin : Option SameOriginAccess) : Bytes :=
  match sameOrigin with
  | some access => octetBytes access.dns ++ octetBytes access.ingress
  | none => []

def peerBytes (peer : DesiredPeer) : Bytes :=
  utf8 peer.stableId ++ (i32Bytes peer.gameId ++ (i32Bytes peer.participationId ++
    (utf8 peer.publicKey ++ utf8 peer.address)))

def targetBytes (target : VpnTarget) : Bytes := octetBytes target.address ++ portBytes target.port

def blockBytes (block : CooldownBlock) : Bytes :=
  octetBytes block.peer ++ (octetBytes block.target.address ++ portBytes block.target.port)

def policyBytes (policy : GameVpnPolicy) : Bytes :=
  i32Bytes policy.gameId ++ (policy.peers.flatMap octetBytes ++
    (policy.targets.flatMap targetBytes ++ policy.cooldownBlocks.flatMap blockBytes))

def fingerprintBytes (input : PolicyFingerprintInput) : Bytes :=
  utf8 input.prvkey ++ (portBytes input.port ++ (utf8 input.clientCidr ++
    (input.serviceCidrs.flatMap utf8 ++ (utf8 input.route ++ (sameOriginBytes input.sameOrigin ++
      (input.peers.flatMap peerBytes ++ input.policies.flatMap policyBytes))))))

def policyFingerprint (sha256 : Bytes → Bytes) (input : PolicyFingerprintInput) : Bytes :=
  sha256 (fingerprintBytes input)

end Message

section Fields

variable {n m : ℕ} {s t : Bytes}

end Fields

section Peers

end Peers

section Records

variable {policy other : GameVpnPolicy} {s t : Bytes}

end Records

section Policies

end Policies

section Fingerprints

variable {client : Ipv4Net} {services : List Ipv4Net} {peers peers' : List DesiredPeer}
  {policies policies' : List GameVpnPolicy}

end Fingerprints

section Spelled

end Spelled

end Vpn

end Rsctf
