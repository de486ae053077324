import Rsctf.Data.Interleaving
import Rsctf.Vpn.AddressPool

/-!
# The allocation of addresses

Team peers and personal peers get their addresses from one pool, by two allocators which
write two tables.  Each runs under the lock `ad-vpn-peer-allocation`, and so does whatever
deletes team peers; personal peers are revoked without it.  Every database statement is one
step of a program, and any of them may fail.
-/

namespace Rsctf

namespace Vpn

structure Config where
  enabled : Bool
  parse : String → Except String IpNet
  digest : ℤ → Uuid → ℕ
  clientCidr : String
  serviceCidrs : List String

/-- The database with its clock and the lock.  `allocations` keeps a record of every address
which was written, with the network of the clients at that time. -/
structure World where
  db : Database
  now : ℤ
  holder : Option ℕ
  nextPeerId : ℤ
  allocations : List (Ipv4Net × String)

/-- The results of the operations. -/
inductive Outcome
  | teamPeer (peer : AdVpnPeer)
  | userPeer (peer : EventVpnUserPeer)
  | revoked (removed : ℕ)
  | peers (peers : List DesiredPeer)

abbrev Program := Script World (Except (Failure AppError) Outcome)

section Statements

/-- The lock is given up when its guard is dropped. -/
def dropLock (p : ℕ) (w : World) : World :=
  if w.holder = some p then { w with holder := none } else w

variable {β : Type}

def statement (p : ℕ) (f : World → Except (Failure AppError) (World × β)) (next : β → Program) :
    Program :=
  .exec (dropLock p) (fun _ => true) f next

def query (p : ℕ) (f : World → Except (Failure AppError) β) (next : β → Program) : Program :=
  statement p (fun w => (f w).map fun b => (w, b)) next

def update (p : ℕ) (f : World → World) (next : Program) : Program :=
  statement p (fun w => .ok (f w, ())) fun _ => next

def acquire (p : ℕ) (next : Program) : Program :=
  .exec (dropLock p) (fun w => w.holder.isNone)
    (fun w => .ok ({ w with holder := some p }, ())) fun _ => next

def release (p : ℕ) (next : Program) : Program := update p (dropLock p) next

def refuse (error : AppError) : Program := .done (.error (.refused error))

/-- Wait for a pass of the owner over the network; that pass is a process of its own. -/
def ensureHubAndSync (p : ℕ) (next : Program) : Program := update p id next

end Statements

section Tables

def duplicateKey : Failure AppError :=
  .refused (.internal "duplicate key value violates unique constraint")

/-- Insert a team peer: one row for a participation, one row for an address. -/
def insertTeamPeer (client : Ipv4Net) (gameId participationId : ℤ) (publicKey address : String)
    (w : World) : Except (Failure AppError) (World × AdVpnPeer) :=
  let peer : AdVpnPeer := ⟨w.nextPeerId, gameId, participationId, publicKey, address⟩
  if w.db.adVpnPeers.rows.any fun other => other.address = address ∨
      other.gameId = gameId ∧ other.participationId = participationId then
    .error duplicateKey
  else
    match w.db.adVpnPeers.insert peer with
    | some adVpnPeers => .ok ({ w with
        db := { w.db with adVpnPeers := adVpnPeers }
        nextPeerId := w.nextPeerId + 1
        allocations := (client, address) :: w.allocations }, peer)
    | none => .error duplicateKey

def AdVpnPeer.assign (id : ℤ) (publicKey address : String) (peer : AdVpnPeer) : AdVpnPeer :=
  if peer.id = id then { peer with publicKey := publicKey, address := address } else peer

theorem AdVpnPeer.id_assign (id : ℤ) (publicKey address : String) (peer : AdVpnPeer) :
    (peer.assign id publicKey address).id = peer.id := by
  unfold assign
  split <;> rfl

def updateTeamPeer (client : Ipv4Net) (own : AdVpnPeer) (publicKey address : String) (w : World) :
    Except (Failure AppError) (World × AdVpnPeer) :=
  if w.db.adVpnPeers.rows.all (·.id ≠ own.id) then
    .error (.refused (.internal "None of the records are updated"))
  else if w.db.adVpnPeers.rows.any fun other => other.id ≠ own.id ∧ other.address = address then
    .error duplicateKey
  else .ok ({ w with
    db := { w.db with
      adVpnPeers := w.db.adVpnPeers.change (·.assign own.id publicKey address)
        (AdVpnPeer.id_assign own.id publicKey address) }
    allocations := (client, address) :: w.allocations },
    { own with publicKey := publicKey, address := address })

/-- The constraints of the table of personal peers. -/
def userPeerConflicts (peer : EventVpnUserPeer) (w : World) : Bool :=
  w.db.eventVpnUserPeers.rows.any fun other => other.publicKey = peer.publicKey ∨
    other.address = peer.address ∨
    other.revokedAtUtc = none ∧ other.gameId = peer.gameId ∧ other.userId = peer.userId

def insertUserPeer (client : Option Ipv4Net) (peer : EventVpnUserPeer) (w : World) :
    Except (Failure AppError) World :=
  match w.db.eventVpnUserPeers.insert peer with
  | some eventVpnUserPeers => .ok { w with
      db := { w.db with eventVpnUserPeers := eventVpnUserPeers }
      allocations := client.toList.map (·, peer.address) ++ w.allocations }
  | none => .error duplicateKey

def invalidateHosts (peer : AdVpnPeer) (w : World) : World :=
  { w with db := invalidateByocServiceHosts w.db peer.participationId peer.address }

def Database.teamPeer (db : Database) (gameId participationId : ℤ) : Option AdVpnPeer :=
  db.adVpnPeers.rows.find? fun peer =>
    peer.gameId = gameId ∧ peer.participationId = participationId

def Database.livePeer (db : Database) (gameId : ℤ) (userId : Uuid) : Option EventVpnUserPeer :=
  db.eventVpnUserPeers.rows.find? fun peer =>
    peer.gameId = gameId ∧ peer.userId = userId ∧ peer.revokedAtUtc = none

/-- The addresses of all team peers but one's own. -/
def Database.teamAddresses (db : Database) (existing : Option AdVpnPeer) : List ℕ :=
  (db.adVpnPeers.rows.filter fun peer => existing.all fun own => peer.id ≠ own.id).filterMap
    fun peer => parseIpv4 peer.address

def Database.liveAddresses (db : Database) : List ℕ :=
  (db.eventVpnUserPeers.rows.filter (·.revokedAtUtc = none)).filterMap fun peer =>
    parseIpv4 peer.address

def Database.reservedAddresses (db : Database) : List ℕ :=
  db.teamAddresses none ++
    db.eventVpnUserPeers.rows.filterMap fun peer => parseIpv4 peer.address

end Tables

section EnsurePeer

structure TeamRequest where
  config : Config
  gameId : ℤ
  participationId : ℤ
  publicKey : String
  syncHosts : List AdTeamService → List AdTeamService
  reconcile : Bool

def syncByocServiceHosts (r : TeamRequest) (w : World) : World :=
  { w with db := { w.db with adTeamServices := r.syncHosts w.db.adTeamServices } }

/-- The last steps of a grant. -/
def grant (p : ℕ) (r : TeamRequest) (peer : AdVpnPeer) : Program :=
  update p (syncByocServiceHosts r) <|
  release p <|
  if r.reconcile then ensureHubAndSync p (.done (.ok (.teamPeer peer)))
  else .done (.ok (.teamPeer peer))

/-- Write the address which was assigned. -/
def writeTeamPeer (p : ℕ) (r : TeamRequest) (client : Ipv4Net) (existing : Option AdVpnPeer)
    (address : String) : Program :=
  match existing with
  | some own =>
    update p (invalidateHosts own) <|
    statement p (updateTeamPeer client own r.publicKey address) (grant p r)
  | none =>
    statement p (insertTeamPeer client r.gameId r.participationId r.publicKey address) (grant p r)

def assignTeamPeer (p : ℕ) (r : TeamRequest) (client : Ipv4Net) (services : List Ipv4Net)
    (existing : Option AdVpnPeer) : Program :=
  query p (fun w => .ok (w.db.teamAddresses existing)) fun teamAddresses =>
  query p (fun w =>
    match (assignAvailableIp r.config.parse r.config.clientCidr r.participationId
        (teamAddresses ++ w.db.liveAddresses)).filter (peerAddressAllowed · client services) with
    | some address => .ok address
    | none => .error (.exhausted (.internal "Could not assign a safe VPN address"))) fun address =>
  writeTeamPeer p r client existing address

def ensurePeerInner (p : ℕ) (r : TeamRequest) : Program :=
  if r.config.enabled = false then refuse (.badRequest "The A&D VPN is disabled")
  else
    match validateVpnNetworks r.config.parse r.config.clientCidr r.config.serviceCidrs with
    | .error error => refuse (.internal error)
    | .ok (client, services) =>
      query p (fun w =>
        if (w.db.participations r.participationId).any fun participation =>
            participation.gameId = r.gameId ∧ participation.status = .accepted then .ok ()
        else .error (.refused .forbidden)) fun _ =>
      query p (fun w =>
        if (w.db.games r.gameId).any fun game =>
            game.startTimeUtc ≤ w.now ∧ w.now ≤ game.endTimeUtc then .ok ()
        else .error (.refused (.badRequest "VPN access is only available during the game"))) fun _ =>
      acquire p <|
      query p (fun w => .ok ((w.db.participations r.participationId).any fun participation =>
        decide (participation.gameId = r.gameId) && decide (participation.status = .accepted) &&
          (w.db.games r.gameId).any fun game =>
            game.startTimeUtc ≤ w.now ∧ w.now ≤ game.endTimeUtc)) fun stillAuthorized =>
      if stillAuthorized = false then release p (refuse .forbidden)
      else
        query p (fun w => .ok (w.db.teamPeer r.gameId r.participationId)) fun existing =>
        match existing.filter fun own => peerAddressAllowed own.address client services with
        | some own => grant p r own
        | none => assignTeamPeer p r client services existing

def ensurePeer (p : ℕ) (r : TeamRequest) : Program := ensurePeerInner p { r with reconcile := true }

def ensurePeerDeferred (p : ℕ) (r : TeamRequest) : Program :=
  ensurePeerInner p { r with reconcile := false }

end EnsurePeer

section EnsureUserPeer

/-- `fence` is whether the fence of the roster was granted, and the errors are those of the
credential key and of the two ciphers. -/
structure UserRequest where
  config : Config
  gameId : ℤ
  userId : Uuid
  participationId : ℤ
  peerId : Uuid
  publicKey : String
  credentialKey : Except AppError Unit
  fence : Bool
  decrypt : EventVpnUserPeer → Except AppError Unit
  encrypt : ℕ → Except AppError Unit

def refused {β : Type} (x : Except AppError β) : Except (Failure AppError) β := x.mapError .refused

/-- The transaction commits: its row appears and the lock is given up. -/
def commitUserPeer (p : ℕ) (r : UserRequest) (peer : EventVpnUserPeer) : Program :=
  statement p (fun w => (insertUserPeer
    (parseIpv4Network r.config.parse r.config.clientCidr "VPN client CIDR").toOption peer w).map
      fun t => (dropLock p t, ())) fun _ =>
  ensureHubAndSync p (.done (.ok (.userPeer peer)))

def issueUserPeer (p : ℕ) (r : UserRequest) : Program :=
  query p (fun w => allocateAddress r.config.parse r.config.digest r.config.clientCidr r.gameId
    r.userId w.db.reservedAddresses) fun address =>
  query p (fun w => .ok (((w.db.eventVpnUserPeers.rows.filter fun peer =>
    peer.gameId = r.gameId ∧ peer.userId = r.userId).map (·.generation)).foldl max 0 + 1))
    fun generation =>
  let peer : EventVpnUserPeer :=
    ⟨r.peerId, r.gameId, r.userId, r.participationId, r.publicKey, address, generation, none⟩
  query p (fun w => do
    refused (r.encrypt generation)
    if userPeerConflicts peer w then .error duplicateKey else .ok ()) fun _ =>
  commitUserPeer p r peer

def ensureUserPeer (p : ℕ) (r : UserRequest) : Program :=
  if r.config.enabled = false then
    refuse (.unavailable "Event VPN access requires RSCTF_AD_VPN_ENABLED=true")
  else
    query p (fun _ => refused r.credentialKey) fun _ =>
    query p (fun _ => if r.fence then .ok () else .error (.refused .forbidden)) fun _ =>
    acquire p <|
    query p (fun w =>
      if (w.db.games r.gameId).any (personalPeerGameEligible w.db w.now r.gameId) then .ok ()
      else .error (.refused (.badRequest
        "VPN configuration requires an unended event with VPN access or an enabled A&D/KotH challenge")))
      fun _ =>
    query p (fun w => .ok (w.db.livePeer r.gameId r.userId)) fun live =>
    match live with
    | some peer =>
      query p (fun _ => do
        if peer.participationId ≠ r.participationId then
          .error (.refused (.conflict
            "The active event VPN credential belongs to a different participation"))
        else refused (r.decrypt peer)) fun _ =>
      release p (.done (.ok (.userPeer peer)))
    | none => issueUserPeer p r

end EnsureUserPeer

section Cleanup

/-- Forget the hosts of the peers, one statement for each. -/
def invalidateAll (p : ℕ) (next : Program) : List AdVpnPeer → Program
  | [] => next
  | peer :: peers =>
    update p (invalidateHosts peer) (invalidateAll p next peers)

def deleteTeamPeers (ids : List ℤ) (w : World) : World :=
  { w with db := { w.db with adVpnPeers := w.db.adVpnPeers.keep fun peer => peer.id ∉ ids } }

def revokePeersForParticipations (p : ℕ) (participationIds : List ℤ) : Program :=
  if participationIds.isEmpty then .done (.ok (.revoked 0))
  else
    acquire p <|
    query p (fun w => .ok (w.db.adVpnPeers.rows.filter fun peer =>
      peer.participationId ∈ participationIds)) fun peers =>
    invalidateAll p (
      update p (deleteTeamPeers (peers.map (·.id))) <|
      release p <|
      ensureHubAndSync p <|
      .done (.ok (.revoked peers.length))) peers

def revokeUserPeers (invalid : List Uuid) (w : World) : World :=
  { w with db := { w.db with
      eventVpnUserPeers := w.db.eventVpnUserPeers.change (·.revoke invalid w.now)
        (EventVpnUserPeer.id_revoke invalid w.now) } }

/-- The personal peers are read and revoked without the lock. -/
def cleanUserPeers (p : ℕ) (client : Ipv4Net) (services : List Ipv4Net)
    (teamPeers : List AdVpnPeer) : Program :=
  query p (fun w => .ok ((w.db.eventVpnUserPeers.rows.insertionSort fun left right =>
    left.id ≤ right.id).filterMap (eventPeerIntent w.db w.now))) fun eventPeers =>
  let invalid := (eventPeers.filter fun peer => !peer.admitted client services).map (·.id)
  let peers := teamPeers.map (·.desired) ++
    (eventPeers.filter fun peer =>
      peer.admitted client services && decide (peer.id ∉ invalid)).map (·.desired)
  let result : Program :=
    .done (.ok (.peers (peers.insertionSort fun left right => left.stableId ≤ right.stableId)))
  if invalid.isEmpty then result
  else update p (revokeUserPeers invalid) result

/-- The parts of a load are read one after the other; `db` collects their answers. -/
def loadPeersProgram (p : ℕ) (client : Ipv4Net) (services : List Ipv4Net) : Program :=
  acquire p <|
  query p (fun w => .ok w.db.adVpnPeers.rows) fun allPeers =>
  query p (fun w => .ok w.db.participations) fun participations =>
  query p (fun w => .ok (w.db.games, w.now)) fun (games, now) =>
  query p (fun w => .ok { w.db with participations := participations, games := games }) fun db =>
  let peers := allPeers.filter (·.valid db client services now)
  let invalid := allPeers.filter fun peer => !peer.valid db client services now
  invalidateAll p (
    update p (deleteTeamPeers (invalid.map (·.id))) <|
    release p <|
    cleanUserPeers p client services (peers.insertionSort fun left right => left.id ≤ right.id))
    invalid

end Cleanup

section System

inductive Operation
  | ensurePeer (request : TeamRequest)
  | ensurePeerDeferred (request : TeamRequest)
  | ensureUserPeer (request : UserRequest)
  | revokePeersForParticipations (participationIds : List ℤ)
  | loadPeers (client : Ipv4Net) (services : List Ipv4Net)

def Operation.program (p : ℕ) : Operation → Program
  | .ensurePeer r => Vpn.ensurePeer p r
  | .ensurePeerDeferred r => Vpn.ensurePeerDeferred p r
  | .ensureUserPeer r => Vpn.ensureUserPeer p r
  | .revokePeersForParticipations participationIds =>
    Vpn.revokePeersForParticipations p participationIds
  | .loadPeers client services => loadPeersProgram p client services

/-- Everything but the two tables of peers and the lock may change at any time. -/
structure World.Surroundings (w t : World) : Prop where
  teamPeers : t.db.adVpnPeers = w.db.adVpnPeers
  userPeers : t.db.eventVpnUserPeers = w.db.eventVpnUserPeers
  holder : t.holder = w.holder
  allocations : t.allocations = w.allocations

def allocationSetting : Interleaving.Setting World Operation (Except (Failure AppError) Outcome) where
  program := fun p operation => operation.program p
  abandon := dropLock
  environment := World.Surroundings

end System

end Vpn

end Rsctf
