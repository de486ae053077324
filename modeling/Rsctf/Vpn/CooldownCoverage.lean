import Rsctf.Data.Related
import Rsctf.Vpn.Policies

/-!
# Whom the cooldown blocks cover

The cooldown query joins the team peers and the hills of a cooldown.  A block is therefore
loaded for every team peer of a participation in cooldown, and for no personal peer; both
are peers of the policy and reach its targets.
-/

namespace Rsctf

namespace Vpn

section Blocks

variable {client : Ipv4Net} {services : List Ipv4Net} {now : ℤ} {db : Database}
  {row : RawCooldownBlock} {required : RequiredCooldownBlock}

theorem mem_leftJoin_some {α : Type} {partners : List α} {partner : α} :
    some partner ∈ leftJoin partners ↔ partner ∈ partners := by
  cases partners with
  | nil => simp [leftJoin]
  | cons first partners => simp [leftJoin]

/-- What a row was validated to. -/
theorem of_validateRequiredBlock (h : validateRequiredBlock client services row = .ok required) :
    ∃ text host port, row.peer = some text ∧ parseIpv4 text = some required.block.peer ∧
      row.host = some host ∧ row.port = some port ∧
      vpnTarget host port client services = some required.block.target ∧
      required.gameId = row.gameId := by
  simp only [validateRequiredBlock, Fallible.bind_eq_ok_iff, okOr_eq_ok_iff,
    Fallible.pure_eq_ok_iff, Option.filter_eq_some_iff, Option.bind_eq_some_iff] at h
  obtain ⟨text, htext, peer, ⟨hparse, -⟩, -, -, host, hhost, target, ⟨port, hport, htarget⟩, rfl⟩ := h
  exact ⟨text, host, port, htext, hparse, hhost, hport, htarget, rfl⟩

/-- The participation has a cooldown in force whose hill is at the endpoint. -/
def Database.Cooled (db : Database) (client : Ipv4Net) (services : List Ipv4Net)
    (gameId participationId : ℤ) (target : VpnTarget) : Prop :=
  ∃ cooldown ∈ db.kothCycleCooldowns, ∃ cycle,
    db.kothCrownCycles cooldown.cycleId = some cycle ∧ cycle.gameId = gameId ∧
      cooldown.participationId = participationId ∧ cooldown.inForce db cycle = true ∧
      ∃ hill ∈ targetsOf db gameId cycle.challengeId,
        vpnTarget hill.host hill.port client services = some target

theorem mem_cooldownRows {cooldown : KothCycleCooldown} :
    row ∈ cooldownRows db now none cooldown ↔
      ∃ cycle, db.kothCrownCycles cooldown.cycleId = some cycle ∧
        cooldown.inForce db cycle = true ∧ db.gameOpen cycle.gameId now = true ∧
        db.eligibleParticipation cycle.gameId cooldown.participationId = true ∧
        ∃ peer ∈ leftJoin (peersOf db cycle.gameId cooldown.participationId),
          ∃ target ∈ leftJoin (targetsOf db cycle.gameId cycle.challengeId),
            rawBlock cycle cooldown peer target = row := by
  unfold cooldownRows
  cases hcycle : db.kothCrownCycles cooldown.cycleId with
  | none => simp
  | some cycle =>
      simp only [Option.all_none, and_true, Option.some.injEq, exists_eq_left']
      split
      · next hcond =>
          obtain ⟨hforce, hopen, heligible⟩ := hcond
          simp [hforce, hopen, heligible]
      · next hcond =>
          constructor
          · intro h
            cases h
          · intro ⟨hforce, hopen, heligible, _⟩
            exact absurd ⟨hforce, hopen, heligible⟩ hcond

/-- The blocks are those of the team peers whose participation is in cooldown. -/
theorem mem_loadActiveBlocks {blocks : List (ℤ × CooldownBlock)} {gameId : ℤ} {address : ℕ}
    {target : VpnTarget} (h : loadActiveBlocks client services now db = .ok blocks) :
    (gameId, ⟨address, target⟩) ∈ blocks ↔
      db.gameOpen gameId now = true ∧
      ∃ peer ∈ db.adVpnPeers, peer.gameId = gameId ∧ parseIpv4 peer.address = some address ∧
        db.eligibleParticipation gameId peer.participationId = true ∧
        db.Cooled client services gameId peer.participationId target := by
  obtain ⟨required, hrequired, hblocks⟩ := Fallible.bind_eq_ok_iff.mp h
  obtain rfl := Fallible.pure_eq_ok_iff.mp hblocks
  have hrows := Fallible.mapM_eq_ok_iff.mp hrequired
  have hmem : ∀ row, row ∈ requiredRows db now none ↔
      ∃ cooldown ∈ db.kothCycleCooldowns, row ∈ cooldownRows db now none cooldown := by
    intro row
    rw [requiredRows, List.mem_insertionSort, List.mem_flatMap]
  constructor
  · intro hblock
    obtain ⟨result, hresult, heq⟩ := List.mem_map.mp hblock
    obtain ⟨row, hrow, hvalid⟩ := Related.exists_left hrows hresult
    obtain ⟨cooldown, hcooldown, hrow⟩ := (hmem row).mp hrow
    obtain ⟨cycle, hcycle, hforce, hopen, heligible, peer, hpeer, hill, hhill, rfl⟩ :=
      mem_cooldownRows.mp hrow
    obtain ⟨text, host, port, htext, hparse, hhost, hport, htarget, hgame⟩ :=
      of_validateRequiredBlock hvalid
    obtain ⟨rfl, hres⟩ := Prod.mk.inj heq
    obtain ⟨team, rfl, rfl⟩ := Option.map_eq_some_iff.mp htext
    obtain ⟨koth, rfl, rfl⟩ := Option.map_eq_some_iff.mp hhost
    obtain rfl := Option.some.inj hport
    rw [mem_leftJoin_some] at hpeer hhill
    obtain ⟨hteam, hof⟩ := List.mem_filter.mp hpeer
    obtain ⟨hteamGame, hteamPart⟩ := of_decide_eq_true hof
    rw [hres] at hparse htarget
    rw [hgame]
    refine ⟨hopen, team, hteam, hteamGame, hparse, by rwa [hteamPart], ?_⟩
    exact ⟨cooldown, hcooldown, cycle, hcycle, rfl, hteamPart.symm, hforce, koth, hhill, htarget⟩
  · intro ⟨hopen, peer, hpeer, hgame, hparse, heligible, cooldown, hcooldown, cycle, hcycle,
      hcycleGame, hpart, hforce, hill, hhill, htarget⟩
    subst hcycleGame
    have hrow : rawBlock cycle cooldown (some peer) (some hill) ∈ requiredRows db now none := by
      refine (hmem _).mpr ⟨cooldown, hcooldown, mem_cooldownRows.mpr ?_⟩
      refine ⟨cycle, hcycle, hforce, hopen, by rwa [hpart], some peer, ?_, some hill, ?_, rfl⟩
      · exact mem_leftJoin_some.mpr (List.mem_filter.mpr ⟨hpeer, by simp [hgame, hpart]⟩)
      · exact mem_leftJoin_some.mpr hhill
    obtain ⟨result, hresult, hvalid⟩ := Related.exists_right hrows hrow
    obtain ⟨text, host, port, htext, hparse', hhost, hport, htarget', hgame'⟩ :=
      of_validateRequiredBlock hvalid
    obtain rfl := Option.some.inj htext
    obtain rfl := Option.some.inj hhost
    obtain rfl := Option.some.inj hport
    have hblock : result.block = ⟨address, target⟩ := by
      rw [hparse, Option.some.injEq] at hparse'
      rw [htarget, Option.some.injEq] at htarget'
      rw [hparse', htarget']
    refine List.mem_map.mpr ⟨result, hresult, ?_⟩
    rw [hgame', hblock]
    rfl

end Blocks

section Policies

variable {gameId : ℤ} {P : GameVpnPolicy → Prop} {policies : List GameVpnPolicy}
  {policy : GameVpnPolicy} {block : CooldownBlock} {blocks : List (ℤ × CooldownBlock)}
  {change : GameVpnPolicy → GameVpnPolicy}

theorem forall_entry (hnew : P (change ⟨gameId, [], [], []⟩)) (hchange : ∀ p, P p → P (change p))
    (h : ∀ p ∈ policies, P p) : ∀ p ∈ entry gameId change policies, P p := by
  induction policies with
  | nil => simpa [entry] using hnew
  | cons first policies ih =>
      have hfirst := h first List.mem_cons_self
      have hrest : ∀ p ∈ policies, P p := fun p hp => h p (List.mem_cons_of_mem first hp)
      unfold entry
      split
      · exact List.forall_mem_cons.mpr ⟨hnew, h⟩
      · split
        · exact List.forall_mem_cons.mpr ⟨hchange first hfirst, hrest⟩
        · exact List.forall_mem_cons.mpr ⟨hfirst, ih hrest⟩

theorem forall_getMut (hchange : ∀ p, P p → P (change p)) (h : ∀ p ∈ policies, P p) :
    ∀ p ∈ getMut gameId change policies, P p := by
  intro p hp
  obtain ⟨old, hold, rfl⟩ := List.mem_map.mp hp
  split
  · exact hchange old (h old hold)
  · exact h old hold

/-- No policy has blocks before they are added. -/
theorem cooldownBlocks_before (client : Ipv4Net) (services : List Ipv4Net)
    (peers : List DesiredPeer) (endpoints : List (ℤ × String × ℤ)) :
    ∀ p ∈ endpoints.foldl (addEndpoint client services) (peers.foldl addPeer []),
      p.cooldownBlocks = [] := by
  let P := fun policies : List GameVpnPolicy => ∀ p ∈ policies, p.cooldownBlocks = []
  have hpeers : P (peers.foldl addPeer []) := by
    refine List.foldlRecOn (motive := P) peers addPeer (List.forall_mem_nil _) ?_
    intro policies h peer _
    unfold addPeer
    split
    · exact forall_entry rfl (fun p hp => hp) h
    · exact h
  refine List.foldlRecOn (motive := P) endpoints _ hpeers fun policies h endpoint _ => ?_
  unfold addEndpoint
  split
  · refine forall_getMut (fun p hp => ?_) h
    unfold GameVpnPolicy.addTarget
    split
    · exact hp
    · split
      · exact hp
      · exact hp
  · exact h

/-- A policy after all blocks of its game were added. -/
def GameVpnPolicy.addBlocks (blocks : List (ℤ × CooldownBlock)) (policy : GameVpnPolicy) :
    GameVpnPolicy :=
  blocks.foldl (fun policy block =>
    if policy.gameId = block.1 then policy.addBlock block.2 else policy) policy

theorem foldl_addBlock : blocks.foldl addBlock policies = policies.map (·.addBlocks blocks) := by
  induction blocks generalizing policies with
  | nil => exact (List.map_id _).symm
  | cons block blocks ih =>
      rw [List.foldl_cons, ih, addBlock, getMut, List.map_map]
      rfl

theorem gameId_addBlock : (policy.addBlock block).gameId = policy.gameId := by
  unfold GameVpnPolicy.addBlock
  split <;> rfl

theorem mem_addBlock {other : CooldownBlock} :
    other ∈ (policy.addBlock block).cooldownBlocks ↔
      other ∈ policy.cooldownBlocks ∨ other = block := by
  unfold GameVpnPolicy.addBlock
  split
  · next hmem => exact ⟨Or.inl, fun h => h.elim id fun heq => heq ▸ hmem⟩
  · exact List.mem_append.trans (or_congr_right List.mem_singleton)

theorem gameId_addBlocks : (policy.addBlocks blocks).gameId = policy.gameId := by
  refine List.foldlRecOn (motive := fun p : GameVpnPolicy => p.gameId = policy.gameId) blocks _ rfl ?_
  intro p h block _
  split
  · rw [gameId_addBlock, h]
  · exact h

theorem mem_addBlocks :
    block ∈ (policy.addBlocks blocks).cooldownBlocks ↔
      block ∈ policy.cooldownBlocks ∨ (policy.gameId, block) ∈ blocks := by
  induction blocks generalizing policy with
  | nil => simp [GameVpnPolicy.addBlocks]
  | cons first blocks ih =>
      rw [GameVpnPolicy.addBlocks, List.foldl_cons, List.mem_cons]
      change block ∈ (GameVpnPolicy.addBlocks blocks _).cooldownBlocks ↔ _
      rw [ih]
      split
      · next heq =>
          rw [mem_addBlock, gameId_addBlock, heq, or_assoc, Prod.ext_iff]
          simp
      · next hne =>
          have hfirst : (policy.gameId, block) ≠ first := fun h => hne (congrArg Prod.fst h)
          simp [hfirst]

theorem mem_cooldownBlocks {client : Ipv4Net} {services : List Ipv4Net} {clock : LoadClock}
    {db : Database} {peers : List DesiredPeer}
    (h : loadPolicies client services clock db peers = .ok policies) :
    ∃ blocks, loadActiveBlocks client services clock.cooldowns db = .ok blocks ∧
      ∀ policy ∈ policies, ∀ block,
        block ∈ policy.cooldownBlocks ↔ (policy.gameId, block) ∈ blocks := by
  obtain ⟨blocks, hblocks, hpolicies⟩ := Fallible.bind_eq_ok_iff.mp h
  obtain rfl := Fallible.pure_eq_ok_iff.mp hpolicies
  refine ⟨blocks, hblocks, fun policy hpolicy block => ?_⟩
  rw [foldl_addBlock, List.map_map] at hpolicy
  obtain ⟨before, hbefore, rfl⟩ := List.mem_map.mp hpolicy
  have hempty := cooldownBlocks_before client services peers _ before hbefore
  change block ∈ (before.addBlocks blocks).cooldownBlocks.insertionSort _ ↔
    ((before.addBlocks blocks).gameId, block) ∈ blocks
  rw [List.mem_insertionSort, mem_addBlocks, hempty, gameId_addBlocks]
  simp

end Policies

/-- What the peers and the policies of a pass are loaded from. -/
structure Load where
  client : Ipv4Net
  services : List Ipv4Net
  clock : LoadClock
  db : Database

namespace Load

variable (l : Load)

def cleanedTeams : Database := (loadTeamPeers l.client l.services l.clock.eligibleGames l.db).2

def cleaned : Database := (loadPeers l.client l.services l.clock l.db).2

def peers : List DesiredPeer := (loadPeers l.client l.services l.clock l.db).1

/-- The admitted peers of the second table. -/
def personalPeers : List DesiredPeer :=
  (loadEventPeers l.client l.services l.clock l.cleanedTeams).1.map (·.desired)

def policies : Except AppError (List GameVpnPolicy) :=
  loadPolicies l.client l.services l.clock l.cleaned l.peers

def ValidTeamPeer (row : AdVpnPeer) : Prop :=
  row ∈ l.db.adVpnPeers ∧ row.valid l.db l.client l.services l.clock.eligibleGames = true

/-- An admitted peer reaches the hill which its participation is in cooldown for. -/
structure Exposed (policies : List GameVpnPolicy) (policy : GameVpnPolicy) (peer : DesiredPeer)
    (address : ℕ) (target : VpnTarget) : Prop where
  policy_mem : policy ∈ policies
  peer_mem : peer ∈ l.peers
  game : peer.gameId = policy.gameId
  parsed : parseIpv4 peer.address = some address
  target_mem : target ∈ policy.targets
  cooled : l.db.Cooled l.client l.services policy.gameId peer.participationId target

def CooldownCovers (policies : List GameVpnPolicy) : Prop :=
  ∀ policy peer address target, l.Exposed policies policy peer address target →
    ⟨address, target⟩ ∈ policy.cooldownBlocks

/-- A valid team peer has the address and is in cooldown itself. -/
def TeamPeerCooled (gameId : ℤ) (address : ℕ) (target : VpnTarget) : Prop :=
  ∃ row, l.ValidTeamPeer row ∧ row.gameId = gameId ∧ parseIpv4 row.address = some address ∧
    l.db.Cooled l.client l.services gameId row.participationId target

variable {l}

theorem foldl_invalidate (invalid : List AdVpnPeer) (db : Database) :
    ∃ services, invalid.foldl (fun db peer =>
      invalidateByocServiceHosts db peer.participationId peer.address) db =
        { db with adTeamServices := services } := by
  induction invalid generalizing db with
  | nil => exact ⟨db.adTeamServices, rfl⟩
  | cons peer invalid ih =>
      obtain ⟨services, hservices⟩ := ih (invalidateByocServiceHosts db _ peer.address)
      exact ⟨services, hservices⟩

/-- Only the peers and the hosts of services are cleaned up. -/
theorem cleaned_eq : ∃ services teamPeers eventPeers,
    l.cleaned = { l.db with
      adTeamServices := services, adVpnPeers := teamPeers, eventVpnUserPeers := eventPeers } ∧
    ∀ row, row ∈ teamPeers ↔ l.ValidTeamPeer row := by
  let p := fun row : AdVpnPeer => !row.valid l.db l.client l.services l.clock.eligibleGames
  let invalid := l.db.adVpnPeers.rows.filter p
  obtain ⟨services, hservices⟩ := foldl_invalidate invalid l.db
  refine ⟨services, l.db.adVpnPeers.keep fun row => row.id ∉ invalid.map (·.id),
    l.cleaned.eventVpnUserPeers, ?_, ?_⟩
  · unfold cleaned loadPeers loadTeamPeers loadEventPeers
    dsimp only
    rw [hservices]
  · intro row
    rw [Table.mem_keep, ValidTeamPeer, and_congr_right_iff, decide_eq_true_eq]
    intro hrow
    constructor
    · intro hid
      by_contra hinvalid
      refine hid (List.mem_map_of_mem (List.mem_filter.mpr ⟨hrow, ?_⟩))
      simpa [p] using hinvalid
    · intro hvalid hid
      obtain ⟨other, hother, heq⟩ := List.mem_map.mp hid
      obtain ⟨hmem, hinvalid⟩ := List.mem_filter.mp hother
      obtain rfl := Table.eq_of_key_eq hmem hrow heq
      simp [p, hvalid] at hinvalid

theorem mem_peers {peer : DesiredPeer} :
    peer ∈ l.peers ↔ (∃ row, l.ValidTeamPeer row ∧ row.desired = peer) ∨ peer ∈ l.personalPeers := by
  change peer ∈ List.insertionSort _ _ ↔ _
  rw [List.mem_insertionSort, List.mem_append]
  refine or_congr ?_ Iff.rfl
  rw [List.mem_map]
  refine exists_congr fun row => and_congr_left fun _ => ?_
  exact (List.mem_insertionSort _).trans List.mem_filter

/-- The block of an address and an endpoint is loaded for a team peer in cooldown. -/
theorem mem_cooldownBlocks_iff {policies : List GameVpnPolicy} {policy : GameVpnPolicy}
    {address : ℕ} {target : VpnTarget} (h : l.policies = .ok policies)
    (hpolicy : policy ∈ policies) :
    ⟨address, target⟩ ∈ policy.cooldownBlocks ↔
      l.db.gameOpen policy.gameId l.clock.cooldowns = true ∧
        l.TeamPeerCooled policy.gameId address target := by
  obtain ⟨blocks, hblocks, hiff⟩ := mem_cooldownBlocks h
  obtain ⟨services, teamPeers, eventPeers, hcleaned, hteam⟩ := cleaned_eq (l := l)
  rw [hiff policy hpolicy, mem_loadActiveBlocks hblocks, hcleaned]
  refine and_congr Iff.rfl (exists_congr fun row => ?_)
  change row ∈ teamPeers ∧ row.gameId = policy.gameId ∧ parseIpv4 row.address = some address ∧
    l.db.eligibleParticipation policy.gameId row.participationId = true ∧
    l.db.Cooled l.client l.services policy.gameId row.participationId target ↔ _
  rw [hteam]
  refine and_congr_right fun hvalid => and_congr_right fun hgame => and_congr_right fun _ => ?_
  refine and_iff_right ?_
  have heligible := hvalid.2
  simp only [AdVpnPeer.valid, Bool.and_eq_true, hgame] at heligible
  exact heligible.1.2

/-- A team peer which is exposed is in cooldown itself. -/
theorem teamPeerCooled_of_team {policies : List GameVpnPolicy} {policy : GameVpnPolicy}
    {row : AdVpnPeer} {address : ℕ} {target : VpnTarget} (hrow : l.ValidTeamPeer row)
    (h : l.Exposed policies policy row.desired address target) :
    l.TeamPeerCooled policy.gameId address target :=
  ⟨row, hrow, h.game, h.parsed, h.cooled⟩

/-- The blocks cover every path just when the games of the exposed peers are still open for the
cooldown query, and the personal peers among them have the address of a team peer which is in
cooldown itself. -/
theorem cooldownCovers_iff {policies : List GameVpnPolicy} (h : l.policies = .ok policies) :
    l.CooldownCovers policies ↔
      (∀ policy peer address target, l.Exposed policies policy peer address target →
        l.db.gameOpen policy.gameId l.clock.cooldowns = true) ∧
      (∀ policy peer address target, l.Exposed policies policy peer address target →
        peer ∈ l.personalPeers → l.TeamPeerCooled policy.gameId address target) := by
  constructor
  · intro hcovers
    constructor
    · intro policy peer address target hexposed
      exact ((mem_cooldownBlocks_iff h hexposed.policy_mem).mp (hcovers _ _ _ _ hexposed)).1
    · intro policy peer address target hexposed _
      exact ((mem_cooldownBlocks_iff h hexposed.policy_mem).mp (hcovers _ _ _ _ hexposed)).2
  · intro ⟨hopen, hpersonal⟩ policy peer address target hexposed
    refine (mem_cooldownBlocks_iff h hexposed.policy_mem).mpr ⟨hopen _ _ _ _ hexposed, ?_⟩
    rcases mem_peers.mp hexposed.peer_mem with ⟨row, hrow, rfl⟩ | hpeer
    · exact teamPeerCooled_of_team hrow hexposed
    · exact hpersonal _ _ _ _ hexposed hpeer

section Dethroned

theorem policies_eq_ok {l : Load} {policies : List GameVpnPolicy}
    (h : (l.policies.toOption == some policies) = true) : l.policies = .ok policies := by
  cases hpolicies : l.policies with
  | error e => simp [hpolicies, Except.toOption] at h
  | ok loaded =>
      simp only [hpolicies, Except.toOption, beq_iff_eq, Option.some.injEq] at h
      rw [h]

def dethronedTeamPeer : AdVpnPeer := ⟨1, 2, 22, "team key", "10.13.37.22"⟩

def dethronedUserPeer : EventVpnUserPeer :=
  ⟨"personal", 2, "captain", 22, "personal key", "10.13.37.30", 1, none⟩

theorem nodup_dethronedTeamPeer : ([dethronedTeamPeer].map (·.id)).Nodup := by decide

theorem nodup_dethronedUserPeer : ([dethronedUserPeer].map (·.id)).Nodup := by decide

/-- The champion of a hill in cooldown, with a peer of the team and a personal peer. -/
def dethronedDatabase : Database where
  games := fun id => if id = 2 then some ⟨false, 0, 1000, true⟩ else none
  challenges := [⟨20, 2, true, false, .active, .kingOfTheHill, false, false⟩]
  participations := fun id => if id = 22 then some ⟨2, 7, .accepted⟩ else none
  teams := fun id => if id = 7 then some ⟨"captain", false⟩ else none
  accounts := fun id => if id = "captain" then some ⟨true, .user⟩ else none
  teamMembers := []
  userParticipations := [⟨"captain", 2, 7, 22⟩]
  adVpnPeers := ⟨[dethronedTeamPeer], nodup_dethronedTeamPeer⟩
  eventVpnUserPeers := ⟨[dethronedUserPeer], nodup_dethronedUserPeer⟩
  adTeamServices := []
  kothTargets := [⟨2, 20, "10.13.40.20", 8080, some "replacement"⟩]
  kothCrownCycles := fun id => if id = 202 then some ⟨2, 20, .active, some "replacement"⟩ else none
  kothCycleCooldowns := [⟨202, 22, 4, 6, none⟩]
  adRounds := [⟨2, 5⟩]
  captureLive := []
  captureOwner := ⟨none, 0, true, none⟩

theorem clients_lt : 168633600 < 2 ^ 32 := by decide

theorem hills_lt : 168634368 < 2 ^ 32 := by decide

theorem twentyFour_le : 24 ≤ 32 := by decide

def dethroned : Load where
  client := ⟨168633600, 24, clients_lt, twentyFour_le⟩
  services := [⟨168634368, 24, hills_lt, twentyFour_le⟩]
  clock := ⟨100, 100, 100, 100, 100⟩
  db := dethronedDatabase

/-- Only the team peer is listed. -/
def dethronedPolicies : List GameVpnPolicy :=
  [⟨2, [168633622, 168633630], [⟨168634388, 8080⟩], [⟨168633622, ⟨168634388, 8080⟩⟩]⟩]

theorem policies_dethroned : dethroned.policies = .ok dethronedPolicies :=
  policies_eq_ok (by decide +kernel)

/-- The personal peer of the champion reaches the hill. -/
theorem not_cooldownCovers_dethroned :
    ¬ ∀ (l : Load) (policies : List GameVpnPolicy), l.policies = .ok policies →
      l.CooldownCovers policies := by
  intro h
  have hcooled : dethroned.db.Cooled dethroned.client dethroned.services 2 22 ⟨168634388, 8080⟩ :=
    ⟨⟨202, 22, 4, 6, none⟩, List.mem_singleton_self _, ⟨2, 20, .active, some "replacement"⟩, rfl,
      rfl, rfl, by decide, ⟨2, 20, "10.13.40.20", 8080, some "replacement"⟩,
      List.mem_singleton_self _, by decide +kernel⟩
  have hexposed : dethroned.Exposed dethronedPolicies
      ⟨2, [168633622, 168633630], [⟨168634388, 8080⟩], [⟨168633622, ⟨168634388, 8080⟩⟩]⟩
      ⟨"user:personal", 2, 22, "personal key", "10.13.37.30"⟩ 168633630 ⟨168634388, 8080⟩ :=
    ⟨by decide, by decide +kernel, rfl, by decide +kernel, by decide, hcooled⟩
  have hblock := h dethroned dethronedPolicies policies_dethroned _ _ _ _ hexposed
  revert hblock
  decide

/-- The same tables without the personal peer. -/
def teamOnly : Load :=
  { dethroned with db := { dethronedDatabase with eventVpnUserPeers := Table.empty } }

def teamOnlyPolicy : GameVpnPolicy :=
  ⟨2, [168633622], [⟨168634388, 8080⟩], [⟨168633622, ⟨168634388, 8080⟩⟩]⟩

theorem policies_teamOnly : teamOnly.policies = .ok [teamOnlyPolicy] :=
  policies_eq_ok (by decide +kernel)

theorem cooldownCovers_teamOnly : teamOnly.CooldownCovers [teamOnlyPolicy] := by
  refine (cooldownCovers_iff policies_teamOnly).mpr ⟨?_, ?_⟩
  · intro policy peer address target hexposed
    obtain rfl := List.mem_singleton.mp hexposed.policy_mem
    decide
  · intro policy peer address target _ hpersonal
    cases hpersonal

end Dethroned

end Load

end Vpn

end Rsctf
