import Rsctf.Data.Fallible
import Rsctf.Vpn.Peers

/-!
# The pool of addresses

A client network of at least four addresses keeps its first two and its last one back.  An
allocator walks once around the others, from a place of its own, to the first which is
free.
-/

namespace Rsctf

namespace Vpn

inductive Probe
  | found (address : ℕ)
  | overflow
  | exhausted
deriving DecidableEq, Repr

/-- How many addresses the allocators may give away. -/
def Ipv4Net.usable (network : Ipv4Net) : ℕ := network.size - 3

/-- The address which is looked at in one turn. -/
def Ipv4Net.candidate (network : Ipv4Net) (start offset : ℕ) : ℕ :=
  network.network + (2 + (start + offset) % network.usable)

def probe (network : Ipv4Net) (start : ℕ) (free : ℕ → Bool) : ℕ → ℕ → Probe
  | _, 0 => .exhausted
  | offset, turns + 1 =>
    if 2 ^ 32 ≤ network.candidate start offset then .overflow
    else if free (network.candidate start offset) then .found (network.candidate start offset)
    else probe network start free (offset + 1) turns

def assignAvailableIp (parse : String → Except String IpNet) (cidr : String) (participationId : ℤ)
    (used : List ℕ) : Option String :=
  match parseIpv4Network parse cidr "VPN client CIDR" with
  | .error _ => none
  | .ok network =>
    if 30 < network.prefixLen then none
    else if network.usable = 0 then none
    else
      let start := participationId.natAbs % network.usable
      match probe network start (fun address => decide (address ∉ used)) 0 network.usable with
      | .found address => some (addressText address)
      | _ => none

/-- How an allocation fails; `exhausted` marks the error which reports the end of the pool. -/
inductive Failure (ε : Type)
  | refused (error : ε)
  | exhausted (error : ε)
deriving DecidableEq, Repr

/-- `digest` is the number which the hash of the game and the user starts with. -/
def allocateAddress (parse : String → Except String IpNet) (digest : ℤ → Uuid → ℕ) (cidr : String)
    (gameId : ℤ) (userId : Uuid) (used : List ℕ) : Except (Failure AppError) String :=
  match parse cidr with
  | .ok (.v4 network) =>
    let network := network.trunc
    if 30 < network.prefixLen then
      .error (.refused (.internal "RSCTF_AD_VPN_CLIENT_CIDR does not have usable peer addresses"))
    else
      let start := digest gameId userId % network.usable
      let free := fun address => decide (address ≠ network.broadcast) && decide (address ∉ used)
      match probe network start free 0 network.usable with
      | .found address => .ok (addressText address)
      | .overflow => .error (.refused (.internal "event VPN address overflow"))
      | .exhausted => .error (.exhausted (.unavailable
          "The event VPN address pool is exhausted; enlarge RSCTF_AD_VPN_CLIENT_CIDR"))
  | _ => .error (.refused (.internal "RSCTF_AD_VPN_CLIENT_CIDR must be an IPv4 CIDR"))

section Probe

variable {network : Ipv4Net} {start offset turns address : ℕ} {free : ℕ → Bool}

namespace Ipv4Net

theorem size_mul (n : Ipv4Net) : 2 ^ n.prefixLen * n.size = 2 ^ 32 := by
  rw [size, ← pow_add, Nat.add_sub_cancel' n.prefixLen_le]

theorem size_pos (n : Ipv4Net) : 0 < n.size := Nat.two_pow_pos _

theorem network_add_size_le (n : Ipv4Net) : n.network + n.size ≤ 2 ^ 32 := by
  have hquot : n.addr / n.size < 2 ^ n.prefixLen := by
    rw [Nat.div_lt_iff_lt_mul n.size_pos, n.size_mul]
    exact n.addr_lt
  calc n.network + n.size = (n.addr / n.size + 1) * n.size := by rw [network, Nat.add_one_mul]
    _ ≤ 2 ^ n.prefixLen * n.size := Nat.mul_le_mul_right _ hquot
    _ = 2 ^ 32 := n.size_mul

theorem four_le_size (h : network.prefixLen ≤ 30) : 4 ≤ network.size := by
  have hexp : 2 ≤ 32 - network.prefixLen := by omega
  exact Nat.pow_le_pow_right (show 0 < 2 by decide) hexp

@[simp] theorem size_trunc (n : Ipv4Net) : n.trunc.size = n.size := rfl

@[simp] theorem network_trunc (n : Ipv4Net) : n.trunc.network = n.network := by
  change n.network / n.size * n.size = n.network
  rw [network, Nat.mul_div_cancel _ n.size_pos]

end Ipv4Net

/-- What a client may have: all but the first two addresses and the last one. -/
theorem clientAddress_iff (h : network.prefixLen ≤ 30) :
    clientAddress network address = true ↔
      network.network + 2 ≤ address ∧ address < network.broadcast := by
  have hsize := Ipv4Net.four_le_size h
  have hle := network.network_add_size_le
  simp only [clientAddress, Ipv4Net.contains, Bool.and_eq_true, decide_eq_true_eq]
  unfold Ipv4Net.hub Ipv4Net.broadcast
  omega

theorem clientAddress_candidate (h : network.prefixLen ≤ 30) :
    clientAddress network (network.candidate start offset) = true := by
  have hsize := Ipv4Net.four_le_size h
  have hmod : (start + offset) % network.usable < network.usable :=
    Nat.mod_lt _ (by unfold Ipv4Net.usable; omega)
  rw [clientAddress_iff h]
  unfold Ipv4Net.candidate Ipv4Net.broadcast
  unfold Ipv4Net.usable at hmod ⊢
  omega

theorem candidate_lt (h : network.prefixLen ≤ 30) : network.candidate start offset < 2 ^ 32 := by
  have hallowed : clientAddress network (network.candidate start offset) = true :=
    clientAddress_candidate h
  have hclient := (clientAddress_iff h).mp hallowed
  have hle := network.network_add_size_le
  have hsize := network.size_pos
  unfold Ipv4Net.broadcast at hclient
  omega

/-- A walk of one round reaches every place. -/
theorem exists_turn {n i : ℕ} (start : ℕ) (h : i < n) : ∃ offset < n, (start + offset) % n = i := by
  refine ⟨(i + (n - start % n)) % n, Nat.mod_lt _ (by omega), ?_⟩
  have hstart : start % n < n := Nat.mod_lt _ (by omega)
  rw [Nat.add_mod_mod, ← Nat.mod_add_mod]
  have hsum : start % n + (i + (n - start % n)) = i + n := by omega
  rw [hsum, Nat.add_mod_right, Nat.mod_eq_of_lt h]

theorem exists_candidate (start : ℕ) (h : network.prefixLen ≤ 30)
    (hclient : clientAddress network address = true) :
    ∃ offset < network.usable, network.candidate start offset = address := by
  rw [clientAddress_iff h] at hclient
  have hi : address - network.network - 2 < network.usable := by
    unfold Ipv4Net.usable
    unfold Ipv4Net.broadcast at hclient
    omega
  obtain ⟨offset, hoffset, hmod⟩ := exists_turn start hi
  refine ⟨offset, hoffset, ?_⟩
  rw [Ipv4Net.candidate, hmod]
  omega

/-- An address which was found is free and may be given to a client. -/
theorem of_probe_found (h : network.prefixLen ≤ 30)
    (hprobe : probe network start free offset turns = .found address) :
    free address = true ∧ clientAddress network address = true := by
  induction turns generalizing offset with
  | zero => cases hprobe
  | succ turns ih =>
      unfold probe at hprobe
      split at hprobe
      · cases hprobe
      · split at hprobe
        · next hfree =>
            obtain rfl := Probe.found.inj hprobe
            exact ⟨hfree, clientAddress_candidate h⟩
        · exact ih hprobe

theorem probe_ne_overflow (h : network.prefixLen ≤ 30) :
    probe network start free offset turns ≠ .overflow := by
  induction turns generalizing offset with
  | zero => exact fun hprobe => by cases hprobe
  | succ turns ih =>
      unfold probe
      rw [if_neg (Nat.not_le.mpr (candidate_lt h))]
      split
      · exact fun hprobe => by cases hprobe
      · exact ih

theorem not_free_of_exhausted (hprobe : probe network start free offset turns = .exhausted)
    {turn : ℕ} (hle : offset ≤ turn) (hlt : turn < offset + turns) :
    free (network.candidate start turn) = false := by
  induction turns generalizing offset with
  | zero => omega
  | succ turns ih =>
      unfold probe at hprobe
      split at hprobe
      · cases hprobe
      · split at hprobe
        · cases hprobe
        · next hfree =>
            rcases hle.eq_or_lt with rfl | hnext
            · simpa using hfree
            · exact ih hprobe hnext (by omega)

/-- A walk which finds nothing has found no address of a client free. -/
theorem of_probe_exhausted (h : network.prefixLen ≤ 30)
    (hprobe : probe network start free 0 network.usable = .exhausted)
    (hclient : clientAddress network address = true) : free address = false := by
  obtain ⟨offset, hoffset, rfl⟩ := exists_candidate start h hclient
  exact not_free_of_exhausted hprobe (Nat.zero_le _) (by omega)

end Probe

section Networks

variable {parse : String → Except String IpNet} {client service network : Ipv4Net}
  {services : List Ipv4Net} {address : ℕ} {cidr : String} {used : List ℕ}

/-- The addresses of a network are those of its block. -/
theorem contains_iff : network.contains address = true ↔
    address / network.size = network.addr / network.size := by
  have hsize := network.size_pos
  rw [Ipv4Net.contains, decide_eq_true_eq, Nat.div_eq_iff hsize, Ipv4Net.broadcast, Ipv4Net.network]
  omega

/-- Of two networks with a common address the wider one contains the other. -/
theorem contains_network_of_le (hle : network.size ∣ service.size)
    (h : network.contains address = true) (h' : service.contains address = true) :
    service.contains network.network = true := by
  obtain ⟨m, hm⟩ := hle
  rw [contains_iff] at h h' ⊢
  rw [← h', Ipv4Net.network, ← h, hm, ← Nat.div_div_eq_div_mul, ← Nat.div_div_eq_div_mul,
    Nat.mul_div_cancel _ network.size_pos]

/-- Networks which do not overlap have no common address. -/
theorem not_contains_of_not_overlaps (h : overlaps client service = false)
    (haddress : client.contains address = true) : service.contains address = false := by
  rw [overlaps, Bool.or_eq_false_iff] at h
  by_contra hservice
  rw [Bool.not_eq_false] at hservice
  rcases Nat.le_total (32 - client.prefixLen) (32 - service.prefixLen) with hle | hle
  · have hcontains := contains_network_of_le (pow_dvd_pow 2 hle) haddress hservice
    rw [h.2] at hcontains
    cases hcontains
  · have hcontains := contains_network_of_le (pow_dvd_pow 2 hle) hservice haddress
    rw [h.1] at hcontains
    cases hcontains

theorem validateServices_apart {values : List String} {validated : List Ipv4Net}
    (h : validateServices parse client values services = .ok validated)
    (hservices : ∀ service ∈ services, overlaps client service = false) :
    ∀ service ∈ validated, overlaps client service = false := by
  induction values generalizing services with
  | nil =>
      obtain rfl := Except.ok.inj h
      exact hservices
  | cons value values ih =>
      rw [validateServices, Fallible.bind_eq_ok_iff] at h
      obtain ⟨service, -, h⟩ := h
      split at h
      · cases h
      · next hover =>
          split at h
          · exact ih h hservices
          · refine ih h fun other hother => ?_
            rcases List.mem_append.mp hother with hmem | hmem
            · exact hservices other hmem
            · obtain rfl := List.mem_singleton.mp hmem
              simpa using hover

theorem of_validateVpnNetworks {values : List String}
    (h : validateVpnNetworks parse cidr values = .ok (client, services)) :
    parseIpv4Network parse cidr "VPN client CIDR" = .ok client ∧ client.prefixLen ≤ 30 ∧
      ∀ service ∈ services, overlaps client service = false := by
  rw [validateVpnNetworks, Fallible.bind_eq_ok_iff] at h
  obtain ⟨network, hparse, h⟩ := h
  split at h
  · cases h
  · next hbits =>
      rw [Fallible.bind_eq_ok_iff] at h
      obtain ⟨validated, hvalidated, h⟩ := h
      split at h
      · cases h
      · obtain ⟨rfl, rfl⟩ := Prod.mk.inj (Fallible.pure_eq_ok_iff.mp h)
        exact ⟨hparse, Nat.not_lt.mp hbits, validateServices_apart hvalidated (by simp)⟩

/-- What a client may have is allowed, since no service network overlaps the clients'. -/
theorem peerAddressAllowed_addressText {values : List String}
    (h : validateVpnNetworks parse cidr values = .ok (client, services))
    (hclient : clientAddress client address = true) :
    peerAddressAllowed (addressText address) client services = true := by
  obtain ⟨-, hbits, hservices⟩ := of_validateVpnNetworks h
  have hbounds := (clientAddress_iff hbits).mp hclient
  have hlt : address < 2 ^ 32 := by
    have hle := client.network_add_size_le
    unfold Ipv4Net.broadcast at hbounds
    omega
  have hcontains : client.contains address = true := by
    simp only [clientAddress, Bool.and_eq_true] at hclient
    exact hclient.1.1.1
  rw [peerAddressAllowed, parseIpv4_addressText hlt]
  simp only [hclient, Bool.true_and, List.all_eq_true]
  intro service hservice
  rw [not_contains_of_not_overlaps (hservices service hservice) hcontains]
  rfl

/-- The first allocator gives a free address of a client away, and nothing only when there is
none. -/
theorem assignAvailableIp_cases {participationId : ℤ}
    (hparse : parseIpv4Network parse cidr "VPN client CIDR" = .ok network)
    (hbits : network.prefixLen ≤ 30) :
    (∃ address, assignAvailableIp parse cidr participationId used = some (addressText address) ∧
        clientAddress network address = true ∧ address ∉ used) ∨
      (assignAvailableIp parse cidr participationId used = none ∧
        ∀ address, clientAddress network address = true → address ∈ used) := by
  have husable : network.usable ≠ 0 := by
    have hsize := Ipv4Net.four_le_size hbits
    unfold Ipv4Net.usable
    omega
  rw [assignAvailableIp, hparse]
  dsimp only
  rw [if_neg (Nat.not_lt.mpr hbits), if_neg husable]
  cases hprobe : probe network (participationId.natAbs % network.usable)
      (fun address => decide (address ∉ used)) 0 network.usable with
  | found address =>
      obtain ⟨hfree, hclient⟩ := of_probe_found hbits hprobe
      exact .inl ⟨address, rfl, hclient, by simpa using hfree⟩
  | overflow => exact absurd hprobe (probe_ne_overflow hbits)
  | exhausted =>
      refine .inr ⟨rfl, fun address hclient => ?_⟩
      simpa using of_probe_exhausted hbits hprobe hclient

/-- Its address is always a safe one, so the check of the address never fails. -/
theorem assignAvailableIp_safe {participationId : ℤ} {values : List String}
    (h : validateVpnNetworks parse cidr values = .ok (client, services)) :
    (∃ address, (assignAvailableIp parse cidr participationId used).filter
          (peerAddressAllowed · client services) = some (addressText address) ∧
        clientAddress client address = true ∧ address ∉ used) ∨
      ((assignAvailableIp parse cidr participationId used).filter
          (peerAddressAllowed · client services) = none ∧
        ∀ address, clientAddress client address = true → address ∈ used) := by
  obtain ⟨hparse, hbits, -⟩ := of_validateVpnNetworks h
  have hcases := @assignAvailableIp_cases parse client cidr used participationId hparse hbits
  rcases hcases with ⟨address, hassign, hclient, hfree⟩ | ⟨hassign, htaken⟩
  · refine .inl ⟨address, ?_, hclient, hfree⟩
    rw [hassign]
    exact Option.filter_some_pos (peerAddressAllowed_addressText h hclient)
  · refine .inr ⟨?_, htaken⟩
    rw [hassign]
    rfl

/-- The second allocator gives a free address of a client away. -/
theorem of_allocateAddress_ok {digest : ℤ → Uuid → ℕ} {gameId : ℤ} {userId : Uuid} {text : String}
    (h : allocateAddress parse digest cidr gameId userId used = .ok text) :
    ∃ address client, parseIpv4Network parse cidr "VPN client CIDR" = .ok client ∧
      client.prefixLen ≤ 30 ∧ text = addressText address ∧ clientAddress client address = true ∧
      address ∉ used := by
  unfold allocateAddress at h
  split at h
  · next network hparse =>
      dsimp only at h
      split at h
      · cases h
      · next hbits =>
          have hbits := Nat.not_lt.mp hbits
          split at h
          · next address hprobe =>
              obtain rfl := Except.ok.inj h
              obtain ⟨hfree, hclient⟩ := of_probe_found hbits hprobe
              simp only [Bool.and_eq_true, decide_eq_true_eq] at hfree
              exact ⟨address, network.trunc, by rw [parseIpv4Network, hparse], hbits, rfl,
                hclient, hfree.2⟩
          · cases h
          · cases h
  · cases h

/-- It reports the end of the pool only when every address of a client is taken. -/
theorem of_allocateAddress_exhausted {digest : ℤ → Uuid → ℕ} {gameId : ℤ} {userId : Uuid}
    {error : AppError}
    (h : allocateAddress parse digest cidr gameId userId used = .error (.exhausted error))
    (hparse : parseIpv4Network parse cidr "VPN client CIDR" = .ok client)
    (hclient : clientAddress client address = true) : address ∈ used := by
  unfold allocateAddress at h
  split at h
  · next network hnetwork =>
      rw [parseIpv4Network, hnetwork] at hparse
      obtain rfl := Except.ok.inj hparse
      dsimp only at h
      split at h
      · cases h
      · next hbits =>
          have hbits := Nat.not_lt.mp hbits
          split at h
          · cases h
          · cases h
          · next hprobe =>
              have htaken := of_probe_exhausted hbits hprobe hclient
              have hbound := ((clientAddress_iff hbits).mp hclient).2
              simpa [hbound.ne] using htaken
  · cases h

end Networks

end Vpn

end Rsctf
