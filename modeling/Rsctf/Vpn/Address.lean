import Mathlib.Algebra.Order.Ring.Int

/-!
# Addresses and networks

An address is a number below `2 ^ 32`, a network an address with the length of its prefix.
-/

namespace Rsctf

namespace Vpn

structure Ipv4Net where
  addr : ℕ
  prefixLen : ℕ
  addr_lt : addr < 2 ^ 32
  prefixLen_le : prefixLen ≤ 32

namespace Ipv4Net

/-- How many addresses the network has. -/
def size (n : Ipv4Net) : ℕ := 2 ^ (32 - n.prefixLen)

def network (n : Ipv4Net) : ℕ := n.addr / n.size * n.size

def broadcast (n : Ipv4Net) : ℕ := n.network + (n.size - 1)

def contains (n : Ipv4Net) (address : ℕ) : Bool := n.network ≤ address ∧ address ≤ n.broadcast

end Ipv4Net

end Vpn

end Rsctf
