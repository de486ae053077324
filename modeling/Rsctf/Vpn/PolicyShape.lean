import Rsctf.Vpn.CooldownCoverage

/-!
# The shape of loaded policies

Which games have a policy, and which addresses are its peers, is decided by the peers alone:
endpoints and blocks only fill the policies which are there.  What they are filled with has
the types of the columns.
-/

namespace Rsctf

namespace Vpn

section Frames

variable {policies : List GameVpnPolicy} {peers : List DesiredPeer} {gameId : ℤ}
  {change : GameVpnPolicy → GameVpnPolicy}

/-- The part of a policy which comes from the peers. -/
def GameVpnPolicy.frame (policy : GameVpnPolicy) : ℤ × List ℕ := (policy.gameId, policy.peers)

/-- The games with peers and the addresses of these, in their order. -/
def frames (peers : List DesiredPeer) : List (ℤ × List ℕ) :=
  ((peers.foldl addPeer []).map (·.frame)).map fun frame =>
    (frame.1, (frame.2.insertionSort (· ≤ ·)).dedup)

end Frames

section Columns

structure VpnTarget.Typed (target : VpnTarget) : Prop where
  address : target.address < 2 ^ 32
  port : target.port < 2 ^ 16

structure CooldownBlock.Typed (block : CooldownBlock) : Prop where
  peer : block.peer < 2 ^ 32
  target : block.target.Typed

structure GameVpnPolicy.Typed (policy : GameVpnPolicy) : Prop where
  targets : ∀ target ∈ policy.targets, target.Typed
  cooldownBlocks : ∀ block ∈ policy.cooldownBlocks, block.Typed

variable {client : Ipv4Net} {services : List Ipv4Net} {policies : List GameVpnPolicy}

end Columns

end Vpn

end Rsctf
