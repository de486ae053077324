import Rsctf.Vpn.Allocation

/-!
# Addresses are never shared

The holder of the lock sees the team peers unchanged but by itself, and of the personal
peers it has seen alive none comes back.  An address which was free when the holder read the
tables is therefore free when it is written.
-/

namespace Rsctf

namespace Vpn

open Interleaving (Discipline Setting)

/-- Team peers and living personal peers have different addresses. -/
structure Database.AddressesDistinct (db : Database) : Prop where
  team : ∀ row ∈ db.adVpnPeers, ∀ other ∈ db.adVpnPeers, row.address = other.address → row = other
  user : ∀ row ∈ db.eventVpnUserPeers, ∀ other ∈ db.eventVpnUserPeers,
    row.revokedAtUtc = none → other.revokedAtUtc = none → row.address = other.address → row = other
  apart : ∀ row ∈ db.adVpnPeers, ∀ other ∈ db.eventVpnUserPeers,
    other.revokedAtUtc = none → row.address ≠ other.address

/-- Every address which was written is one which a client may have. -/
def World.AllocatedUsable (w : World) : Prop :=
  ∀ entry ∈ w.allocations, ∃ address, parseIpv4 entry.2 = some address ∧
    clientAddress entry.1 address = true

structure World.Unshared (w : World) : Prop where
  distinct : w.db.AddressesDistinct
  usable : w.AllocatedUsable

/-- What the holder of the lock relies on. -/
structure World.HeldBy (p : ℕ) (w t : World) : Prop where
  holder : t.holder = some p
  teamPeers : t.db.adVpnPeers = w.db.adVpnPeers
  alive : ∀ row ∈ t.db.eventVpnUserPeers, row.revokedAtUtc = none → row ∈ w.db.eventVpnUserPeers

def World.Relied (p : ℕ) (w t : World) : Prop := w.holder = some p → w.HeldBy p t

section Rely

variable {p q : ℕ} {w t u : World}

theorem relied_refl (p : ℕ) (w : World) : w.Relied p w :=
  fun h => ⟨h, rfl, fun _ hrow _ => hrow⟩

theorem relied_trans (p : ℕ) (w t u : World) (hwt : w.Relied p t) (htu : t.Relied p u) :
    w.Relied p u := by
  intro h
  have hfirst := hwt h
  have hsecond := htu hfirst.holder
  exact ⟨hsecond.holder, hsecond.teamPeers.trans hfirst.teamPeers, fun row hrow halive =>
    hfirst.alive row (hsecond.alive row hrow halive) halive⟩

/-- A world with the same peers and records. -/
structure World.SamePeers (w t : World) : Prop where
  teamPeers : t.db.adVpnPeers = w.db.adVpnPeers
  userPeers : t.db.eventVpnUserPeers = w.db.eventVpnUserPeers
  allocations : t.allocations = w.allocations

theorem World.SamePeers.distinct (h : w.SamePeers t) (hw : w.db.AddressesDistinct) :
    t.db.AddressesDistinct := by
  refine ⟨?_, ?_, ?_⟩
  · rw [h.teamPeers]
    exact hw.team
  · rw [h.userPeers]
    exact hw.user
  · rw [h.teamPeers, h.userPeers]
    exact hw.apart

theorem World.SamePeers.unshared (h : w.SamePeers t) (hw : w.Unshared) : t.Unshared :=
  ⟨h.distinct hw.distinct, fun entry hentry => hw.usable entry (h.allocations ▸ hentry)⟩

theorem World.SamePeers.relied (h : w.SamePeers t) (hholder : w.holder = some q → t.holder = some q) :
    w.Relied q t :=
  fun hq => ⟨hholder hq, h.teamPeers, fun _ hrow _ => h.userPeers ▸ hrow⟩

theorem samePeers_dropLock (p : ℕ) (w : World) : w.SamePeers (dropLock p w) := by
  unfold dropLock
  split <;> exact ⟨rfl, rfl, rfl⟩

theorem dropLock_db (p : ℕ) (w : World) : (dropLock p w).db = w.db := by
  unfold dropLock
  split <;> rfl

theorem World.Surroundings.samePeers (h : w.Surroundings t) : w.SamePeers t :=
  ⟨h.teamPeers, h.userPeers, h.allocations⟩

/-- Addresses are distinct and usable, and the holder of the lock is not disturbed. -/
def allocationDiscipline : Discipline allocationSetting where
  inv := World.Unshared
  rely := World.Relied
  rely_refl := relied_refl
  rely_trans := relied_trans
  inv_abandon := fun p w h => (samePeers_dropLock p w).unshared h
  rely_abandon := by
    intro p q w hq _
    refine (samePeers_dropLock p w).relied fun hholder => ?_
    have hne : w.holder ≠ some p := by
      rw [hholder]
      exact fun h => hq (Option.some.inj h)
    change (dropLock p w).holder = some q
    rw [dropLock, if_neg hne, hholder]
  inv_environment := fun w t h henv => henv.samePeers.unshared h
  rely_environment := fun p w t _ henv =>
    henv.samePeers.relied fun hholder => henv.holder.trans hholder

end Rely

/-- What the error means which reports the end of the pool. -/
def Operation.PoolTaken (w : World) : Operation → Prop
  | .ensurePeer r | .ensurePeerDeferred r => ∀ client services,
      validateVpnNetworks r.config.parse r.config.clientCidr r.config.serviceCidrs =
        .ok (client, services) →
      ∀ address, clientAddress client address = true →
        address ∈ w.db.teamAddresses (w.db.teamPeer r.gameId r.participationId) ++
          w.db.liveAddresses
  | .ensureUserPeer r => ∀ client,
      parseIpv4Network r.config.parse r.config.clientCidr "VPN client CIDR" = .ok client →
      ∀ address, clientAddress client address = true → address ∈ w.db.reservedAddresses
  | .revokePeersForParticipations _ => False
  | .loadPeers _ _ => False

def Operation.Reported (operation : Operation) (result : Except (Failure AppError) Outcome)
    (w : World) : Prop :=
  ∀ error, result = .error (.exhausted error) → operation.PoolTaken w

section Statements

variable {p : ℕ} {operation : Operation} {w : World} {next : Program} {β : Type}

abbrev SoundFrom (p : ℕ) (operation : Operation) (program : Program) (w : World) : Prop :=
  allocationDiscipline.Sound p operation.Reported program w

theorem reported_refused {error : AppError} : operation.Reported (.error (.refused error)) w :=
  fun _ h => by cases h

theorem reported_ok {outcome : Outcome} : operation.Reported (.ok outcome) w :=
  fun _ h => by cases h

theorem allowed_samePeers {t : World} (h : w.SamePeers t) (hholder : t.holder = w.holder)
    (hw : w.Unshared) : allocationDiscipline.Allowed p w t :=
  ⟨h.unshared hw, fun _ _ => h.relied fun hq => hholder.trans hq⟩

/-- The holder of the lock may do whatever keeps the addresses apart. -/
theorem allowed_of_holder {t : World} (hp : w.holder = some p) (ht : t.Unshared) :
    allocationDiscipline.Allowed p w t := by
  refine ⟨ht, fun q hq hholder => ?_⟩
  rw [hp] at hholder
  exact absurd (Option.some.inj hholder).symm hq

theorem sound_statement {f : World → Except (Failure AppError) (World × β)} {next : β → Program}
    (hok : ∀ t u b, w.Relied p t → t.Unshared → f t = .ok (u, b) →
      allocationDiscipline.Allowed p t u ∧ SoundFrom p operation (next b) u)
    (herror : ∀ t e, w.Relied p t → t.Unshared → f t = .error e →
      operation.Reported (.error e) (dropLock p t)) :
    SoundFrom p operation (statement p f next) w :=
  Discipline.sound_exec (fun t u b hrely hinv _ => hok t u b hrely hinv)
    fun t e hrely hinv _ => herror t e hrely hinv

theorem sound_query {f : World → Except (Failure AppError) β} {next : β → Program}
    (hok : ∀ t b, w.Relied p t → t.Unshared → f t = .ok b → SoundFrom p operation (next b) t)
    (herror : ∀ t e, w.Relied p t → t.Unshared → f t = .error e →
      operation.Reported (.error e) (dropLock p t)) :
    SoundFrom p operation (query p f next) w := by
  refine sound_statement (fun t u b hrely hinv hf => ?_) fun t e hrely hinv hf => ?_
  · obtain ⟨b', hb', heq⟩ := Fallible.map_eq_ok_iff.mp hf
    obtain ⟨rfl, rfl⟩ := Prod.mk.inj heq
    exact ⟨Discipline.allowed_refl hinv, hok _ _ hrely hinv hb'⟩
  · cases hft : f t with
    | ok b => rw [hft] at hf; cases hf
    | error e' =>
        rw [hft] at hf
        obtain rfl := Except.error.inj hf
        exact herror t e' hrely hinv hft

/-- A query which cannot fail. -/
theorem sound_read {f : World → β} {next : β → Program}
    (h : ∀ t, w.Relied p t → t.Unshared → SoundFrom p operation (next (f t)) t) :
    SoundFrom p operation (query p (fun w => .ok (f w)) next) w :=
  sound_query (fun t b hrely hinv hf => Except.ok.inj hf ▸ h t hrely hinv)
    fun _ _ _ _ hf => by cases hf

theorem sound_update {f : World → World}
    (h : ∀ t, w.Relied p t → t.Unshared →
      allocationDiscipline.Allowed p t (f t) ∧ SoundFrom p operation next (f t)) :
    SoundFrom p operation (update p f next) w := by
  refine sound_statement (fun t u b hrely hinv hf => ?_) fun _ _ _ _ hf => by cases hf
  obtain ⟨rfl, -⟩ := Prod.mk.inj (Except.ok.inj hf)
  exact h t hrely hinv

theorem sound_acquire (h : ∀ t, t.holder = some p → t.Unshared → SoundFrom p operation next t) :
    SoundFrom p operation (acquire p next) w := by
  refine Discipline.sound_exec (fun t u b _ hinv hready hf => ?_) fun _ _ _ _ _ hf => by cases hf
  obtain ⟨rfl, -⟩ := Prod.mk.inj (Except.ok.inj hf)
  have hsame : t.SamePeers { t with holder := some p } := ⟨rfl, rfl, rfl⟩
  refine ⟨⟨hsame.unshared hinv, fun q _ => hsame.relied fun hq => ?_⟩, h _ rfl (hsame.unshared hinv)⟩
  rw [Option.isNone_iff_eq_none.mp hready] at hq
  cases hq

theorem sound_release (h : ∀ t, t.Unshared → SoundFrom p operation next t) :
    SoundFrom p operation (release p next) w :=
  sound_update fun t _ hinv =>
    ⟨Discipline.allowed_abandon hinv, h _ ((samePeers_dropLock p t).unshared hinv)⟩

theorem sound_ensureHubAndSync (h : ∀ t, t.Unshared → SoundFrom p operation next t) :
    SoundFrom p operation (ensureHubAndSync p next) w :=
  sound_update fun t _ hinv => ⟨Discipline.allowed_refl hinv, h t hinv⟩

end Statements

section Grants

variable {p : ℕ} {operation : Operation} {w t : World} {client : Ipv4Net}
  {existing : Option AdVpnPeer} {address : ℕ}

/-- The holder of the lock has an address which nobody else has. -/
structure World.Free (p : ℕ) (existing : Option AdVpnPeer) (address : ℕ) (w : World) : Prop where
  holder : w.holder = some p
  team : address ∉ w.db.teamAddresses existing
  alive : address ∉ w.db.liveAddresses

theorem World.Free.of_relied (h : w.Free p existing address) (hrely : w.Relied p t) :
    t.Free p existing address := by
  have hheld := hrely h.holder
  refine ⟨hheld.holder, ?_, fun hmem => h.alive ?_⟩
  · unfold Database.teamAddresses
    rw [hheld.teamPeers]
    exact h.team
  · obtain ⟨row, hrow, hparse⟩ := List.mem_filterMap.mp hmem
    obtain ⟨hrow, halive⟩ := List.mem_filter.mp hrow
    have hold := hheld.alive row hrow (of_decide_eq_true halive)
    exact List.mem_filterMap.mpr ⟨row, List.mem_filter.mpr ⟨hold, halive⟩, hparse⟩

theorem sound_grant {r : TeamRequest} {peer : AdVpnPeer} :
    SoundFrom p operation (grant p r peer) w := by
  refine sound_update fun t _ hinv => ?_
  refine ⟨allowed_samePeers ⟨rfl, rfl, rfl⟩ rfl hinv, sound_release fun u _ => ?_⟩
  split
  · exact sound_ensureHubAndSync fun v _ => reported_ok
  · exact reported_ok

theorem World.Free.text_ne_team (h : w.Free p existing address) (hlt : address < 2 ^ 32)
    {row : AdVpnPeer} (hrow : row ∈ w.db.adVpnPeers)
    (hother : existing.all fun own => row.id ≠ own.id) : row.address ≠ addressText address := by
  intro heq
  refine h.team (List.mem_filterMap.mpr ⟨row, List.mem_filter.mpr ⟨hrow, hother⟩, ?_⟩)
  rw [heq, parseIpv4_addressText hlt]

theorem World.Free.text_ne_user (h : w.Free p existing address) (hlt : address < 2 ^ 32)
    {row : EventVpnUserPeer} (hrow : row ∈ w.db.eventVpnUserPeers)
    (halive : row.revokedAtUtc = none) : row.address ≠ addressText address := by
  intro heq
  refine h.alive (List.mem_filterMap.mpr ⟨row, List.mem_filter.mpr ⟨hrow, by simpa⟩, ?_⟩)
  rw [heq, parseIpv4_addressText hlt]

theorem lt_of_clientAddress (hclient : clientAddress client address = true) : address < 2 ^ 32 := by
  have hle := client.network_add_size_le
  have hsize := client.size_pos
  simp only [clientAddress, Ipv4Net.contains, Bool.and_eq_true, decide_eq_true_eq] at hclient
  have hbound := hclient.1.1.1.2
  unfold Ipv4Net.broadcast at hbound
  omega

theorem usable_cons (hw : w.AllocatedUsable) (hclient : clientAddress client address = true) :
    ∀ entry ∈ (client, addressText address) :: w.allocations, ∃ a, parseIpv4 entry.2 = some a ∧
      clientAddress entry.1 a = true :=
  List.forall_mem_cons.mpr
    ⟨⟨address, parseIpv4_addressText (lt_of_clientAddress hclient), hclient⟩, hw⟩

/-- A new row with a free address is apart from all others. -/
theorem unshared_insertTeamPeer {gameId participationId : ℤ} {publicKey : String} {peer : AdVpnPeer}
    (hfree : w.Free p none address) (hclient : clientAddress client address = true)
    (hw : w.Unshared)
    (h : insertTeamPeer client gameId participationId publicKey (addressText address) w =
      .ok (t, peer)) : t.Unshared := by
  have hlt := lt_of_clientAddress hclient
  unfold insertTeamPeer at h
  dsimp only at h
  split at h
  · cases h
  · split at h
    · next table hinsert =>
        obtain ⟨rfl, rfl⟩ := Prod.mk.inj (Except.ok.inj h)
        have hmem := fun row : AdVpnPeer => Table.mem_of_insert row hinsert
        have hteam : ∀ row ∈ w.db.adVpnPeers, row.address ≠ addressText address :=
          fun row hrow => hfree.text_ne_team hlt hrow rfl
        refine ⟨⟨fun row hrow other hother heq => ?_, hw.distinct.user, ?_⟩,
          usable_cons hw.usable hclient⟩
        · rcases (hmem row).mp hrow with rfl | hold <;> rcases (hmem other).mp hother with rfl | hold'
          · rfl
          · exact absurd heq.symm (hteam other hold')
          · exact absurd heq (hteam row hold)
          · exact hw.distinct.team row hold other hold' heq
        · intro row hrow other hother halive
          rcases (hmem row).mp hrow with rfl | hrow
          · exact (hfree.text_ne_user hlt hother halive).symm
          · exact hw.distinct.apart row hrow other hother halive
    · cases h

/-- The row of a participation moves to a free address. -/
theorem unshared_updateTeamPeer {own peer : AdVpnPeer} {publicKey : String}
    (hfree : w.Free p (some own) address) (hclient : clientAddress client address = true)
    (hw : w.Unshared)
    (h : updateTeamPeer client own publicKey (addressText address) w = .ok (t, peer)) :
    t.Unshared := by
  have hlt := lt_of_clientAddress hclient
  unfold updateTeamPeer at h
  split at h
  · cases h
  · split at h
    · cases h
    · obtain ⟨rfl, rfl⟩ := Prod.mk.inj (Except.ok.inj h)
      have haddress : ∀ row : AdVpnPeer,
          (row.assign own.id publicKey (addressText address)).address =
            if row.id = own.id then addressText address else row.address := by
        intro row
        unfold AdVpnPeer.assign
        split <;> rfl
      have hid := AdVpnPeer.id_assign own.id publicKey (addressText address)
      have hteam : ∀ row ∈ w.db.adVpnPeers, row.id ≠ own.id → row.address ≠ addressText address :=
        fun row hrow hne => hfree.text_ne_team hlt hrow (by simpa using hne)
      refine ⟨⟨fun row hrow other hother heq => ?_, hw.distinct.user, ?_⟩,
        usable_cons hw.usable hclient⟩
      · obtain ⟨before, hbefore, rfl⟩ := (Table.mem_change hid).mp hrow
        obtain ⟨before', hbefore', rfl⟩ := (Table.mem_change hid).mp hother
        rw [haddress, haddress] at heq
        have hsame : before = before' := by
          split at heq <;> split at heq
          · next hown hown' => exact Table.eq_of_key_eq hbefore hbefore' (hown.trans hown'.symm)
          · next hne => exact absurd heq.symm (hteam before' hbefore' hne)
          · next hne _ => exact absurd heq (hteam before hbefore hne)
          · exact hw.distinct.team before hbefore before' hbefore' heq
        rw [hsame]
      · intro row hrow other hother halive
        obtain ⟨before, hbefore, rfl⟩ := (Table.mem_change hid).mp hrow
        rw [haddress]
        split
        · exact (hfree.text_ne_user hlt hother halive).symm
        · exact hw.distinct.apart before hbefore other hother halive

theorem unshared_insertUserPeer {network : Option Ipv4Net} {peer : EventVpnUserPeer}
    (hfree : w.Free p none address) (hpeer : peer.address = addressText address)
    (hclient : ∀ client, network = some client → clientAddress client address = true)
    (hlt : address < 2 ^ 32) (hw : w.Unshared)
    (h : insertUserPeer network peer w = .ok t) : t.Unshared := by
  unfold insertUserPeer at h
  split at h
  · next table hinsert =>
      obtain rfl := Except.ok.inj h
      have hmem := fun row : EventVpnUserPeer => Table.mem_of_insert row hinsert
      have huser : ∀ row ∈ w.db.eventVpnUserPeers, row.revokedAtUtc = none →
          row.address ≠ addressText address :=
        fun row hrow halive => hfree.text_ne_user hlt hrow halive
      refine ⟨⟨hw.distinct.team, fun row hrow other hother hrowAlive hotherAlive heq => ?_, ?_⟩, ?_⟩
      · rcases (hmem row).mp hrow with rfl | hold <;> rcases (hmem other).mp hother with rfl | hold'
        · rfl
        · exact absurd (heq.symm.trans hpeer) (huser other hold' hotherAlive)
        · exact absurd (heq.trans hpeer) (huser row hold hrowAlive)
        · exact hw.distinct.user row hold other hold' hrowAlive hotherAlive heq
      · intro row hrow other hother halive
        rcases (hmem other).mp hother with rfl | hother
        · rw [hpeer]
          exact hfree.text_ne_team hlt hrow rfl
        · exact hw.distinct.apart row hrow other hother halive
      · cases network with
        | none => exact hw.usable
        | some client =>
            change ∀ entry ∈ (client, peer.address) :: w.allocations, _
            rw [hpeer]
            exact usable_cons hw.usable (hclient client rfl)
  · cases h

end Grants

section Programs

variable {p : ℕ} {operation : Operation} {w t : World} {client : Ipv4Net}
  {services : List Ipv4Net} {existing : Option AdVpnPeer}

theorem reported_of_refused {e : Failure AppError} (he : ∃ error, e = .refused error) :
    operation.Reported (.error e) w := by
  obtain ⟨error, rfl⟩ := he
  exact reported_refused

theorem sound_refuse {error : AppError} : SoundFrom p operation (refuse error) w := reported_refused

theorem insertTeamPeer_refuses {gameId participationId : ℤ} {publicKey address : String}
    {e : Failure AppError}
    (h : insertTeamPeer client gameId participationId publicKey address w = .error e) :
    ∃ error, e = .refused error := by
  unfold insertTeamPeer at h
  dsimp only at h
  split at h
  · exact ⟨_, (Except.error.inj h).symm⟩
  · split at h
    · cases h
    · exact ⟨_, (Except.error.inj h).symm⟩

theorem updateTeamPeer_refuses {own : AdVpnPeer} {publicKey address : String}
    {e : Failure AppError} (h : updateTeamPeer client own publicKey address w = .error e) :
    ∃ error, e = .refused error := by
  unfold updateTeamPeer at h
  split at h
  · exact ⟨_, (Except.error.inj h).symm⟩
  · split at h
    · exact ⟨_, (Except.error.inj h).symm⟩
    · cases h

theorem insertUserPeer_refuses {network : Option Ipv4Net} {peer : EventVpnUserPeer}
    {e : Failure AppError} (h : insertUserPeer network peer w = .error e) :
    ∃ error, e = .refused error := by
  unfold insertUserPeer at h
  split at h
  · cases h
  · exact ⟨_, (Except.error.inj h).symm⟩

theorem sound_writeTeamPeer {r : TeamRequest} {address : ℕ} (hfree : w.Free p existing address)
    (hclient : clientAddress client address = true) :
    SoundFrom p operation (writeTeamPeer p r client existing (addressText address)) w := by
  cases existing with
  | none =>
      refine sound_statement (fun t u peer hrely hinv hf => ⟨?_, sound_grant⟩) ?_
      · have hfree' := hfree.of_relied hrely
        exact allowed_of_holder hfree'.holder (unshared_insertTeamPeer hfree' hclient hinv hf)
      · exact fun t e _ _ hf => reported_of_refused (insertTeamPeer_refuses hf)
  | some own =>
      refine sound_update fun t hrely hinv => ?_
      have hsame : t.SamePeers (invalidateHosts own t) := ⟨rfl, rfl, rfl⟩
      refine ⟨allowed_samePeers hsame rfl hinv, ?_⟩
      have hmoved : (invalidateHosts own t).Free p (some own) address :=
        (hfree.of_relied hrely).of_relied (hsame.relied id)
      refine sound_statement (fun u v peer hrely' hinv' hf => ⟨?_, sound_grant⟩) ?_
      · have hfree' := hmoved.of_relied hrely'
        exact allowed_of_holder hfree'.holder (unshared_updateTeamPeer hfree' hclient hinv' hf)
      · exact fun t e _ _ hf => reported_of_refused (updateTeamPeer_refuses hf)

theorem teamPeer_of_held {gameId participationId : ℤ} (h : w.HeldBy p t) :
    t.db.teamPeer gameId participationId = w.db.teamPeer gameId participationId := by
  rw [Database.teamPeer, h.teamPeers]
  rfl

theorem teamAddresses_of_held (h : w.HeldBy p t) :
    t.db.teamAddresses existing = w.db.teamAddresses existing := by
  rw [Database.teamAddresses, h.teamPeers]
  rfl

/-- The requests of the first allocator. -/
def Operation.IsTeam (r : TeamRequest) (operation : Operation) : Prop :=
  ∀ w, operation.PoolTaken w ↔ (Operation.ensurePeer r).PoolTaken w

theorem sound_assignTeamPeer {r : TeamRequest} (hteam : operation.IsTeam r)
    (hvalid : validateVpnNetworks r.config.parse r.config.clientCidr r.config.serviceCidrs =
      .ok (client, services))
    (hp : w.holder = some p) (hexisting : w.db.teamPeer r.gameId r.participationId = existing) :
    SoundFrom p operation (assignTeamPeer p r client services existing) w := by
  refine sound_read fun t hrely _ => ?_
  have hheld := hrely hp
  have hcases := fun u : World => @assignAvailableIp_safe r.config.parse client services
    r.config.clientCidr (t.db.teamAddresses existing ++ u.db.liveAddresses) r.participationId _ hvalid
  refine sound_query (fun u text hrely' hinv hf => ?_) fun u e hrely' _ hf => ?_
  · have hheld' := hrely' hheld.holder
    rcases hcases u with ⟨address, hassign, hclient, hfree⟩ | ⟨hassign, -⟩
    · rw [hassign] at hf
      obtain rfl := Except.ok.inj hf
      rw [List.mem_append, not_or, ← teamAddresses_of_held hheld'] at hfree
      exact sound_writeTeamPeer ⟨hheld'.holder, hfree.1, hfree.2⟩ hclient
    · rw [hassign] at hf
      cases hf
  · have hheld' := hrely' hheld.holder
    rcases hcases u with ⟨address, hassign, -, -⟩ | ⟨-, htaken⟩
    · rw [hassign] at hf
      cases hf
    · refine fun error _ => (hteam _).mpr fun client' services' hvalid' address hclient => ?_
      obtain ⟨rfl, rfl⟩ := Prod.mk.inj (Except.ok.inj (hvalid.symm.trans hvalid'))
      rw [dropLock_db, teamPeer_of_held hheld', teamPeer_of_held hheld, hexisting,
        teamAddresses_of_held hheld']
      exact htaken address hclient

theorem sound_ensurePeerInner {r : TeamRequest} (hteam : operation.IsTeam r) :
    SoundFrom p operation (ensurePeerInner p r) w := by
  unfold ensurePeerInner
  split
  · exact sound_refuse
  · split
    · exact sound_refuse
    · next client services hvalid =>
        refine sound_query (fun _ _ _ _ _ => ?_) fun _ e _ _ hf => ?_
        · refine sound_query (fun _ _ _ _ _ => ?_) fun _ e _ _ hf => ?_
          · refine sound_acquire fun t hp _ => sound_read fun u hrely _ => ?_
            split
            · exact sound_release fun _ _ => sound_refuse
            · refine sound_read fun v hrely' _ => ?_
              have hheld := hrely' (hrely hp).holder
              split
              · exact sound_grant
              · exact sound_assignTeamPeer hteam hvalid hheld.holder rfl
          · split at hf
            · cases hf
            · exact reported_of_refused ⟨_, (Except.error.inj hf).symm⟩
        · split at hf
          · cases hf
          · exact reported_of_refused ⟨_, (Except.error.inj hf).symm⟩

theorem refused_of_error {β : Type} {x : Except AppError β} {e : Failure AppError}
    (h : refused x = .error e) : ∃ error, e = .refused error := by
  cases x with
  | ok b => cases h
  | error error => exact ⟨error, (Except.error.inj h).symm⟩

theorem sound_commitUserPeer {r : UserRequest} {peer : EventVpnUserPeer} {address : ℕ}
    (hfree : w.Free p none address) (hpeer : peer.address = addressText address)
    (hnetwork : parseIpv4Network r.config.parse r.config.clientCidr "VPN client CIDR" = .ok client)
    (hclient : clientAddress client address = true) :
    SoundFrom p operation (commitUserPeer p r peer) w := by
  refine sound_statement (fun t u _ hrely hinv hf => ?_) fun t e _ _ hf => ?_
  · obtain ⟨inserted, hinsert, heq⟩ := Fallible.map_eq_ok_iff.mp hf
    obtain ⟨rfl, -⟩ := Prod.mk.inj heq
    have hfree' := hfree.of_relied hrely
    have hinserted : inserted.Unshared := by
      refine unshared_insertUserPeer hfree' hpeer ?_ (lt_of_clientAddress hclient) hinv hinsert
      intro client' hclient'
      rw [hnetwork] at hclient'
      exact Option.some.inj hclient' ▸ hclient
    have hdropped := (samePeers_dropLock p inserted).unshared hinserted
    exact ⟨allowed_of_holder hfree'.holder hdropped, sound_ensureHubAndSync fun _ _ => reported_ok⟩
  · cases hinsert : insertUserPeer (parseIpv4Network r.config.parse r.config.clientCidr
        "VPN client CIDR").toOption peer t with
    | ok inserted => rw [hinsert] at hf; cases hf
    | error error =>
        rw [hinsert] at hf
        obtain rfl := Except.error.inj hf
        exact reported_of_refused (insertUserPeer_refuses hinsert)

/-- An address which no row reserves is free for the second allocator. -/
theorem free_of_reserved {address : ℕ} (hp : w.holder = some p)
    (h : address ∉ w.db.reservedAddresses) : w.Free p none address := by
  rw [Database.reservedAddresses, List.mem_append, not_or] at h
  refine ⟨hp, h.1, fun hmem => h.2 ?_⟩
  obtain ⟨row, hrow, hparse⟩ := List.mem_filterMap.mp hmem
  exact List.mem_filterMap.mpr ⟨row, (List.mem_filter.mp hrow).1, hparse⟩

theorem sound_issueUserPeer {r : UserRequest} (hp : w.holder = some p) :
    SoundFrom p (.ensureUserPeer r) (issueUserPeer p r) w := by
  refine sound_query (fun t text hrely _ hf => ?_) fun t e _ _ hf => ?_
  · obtain ⟨address, client, hnetwork, -, rfl, hclient, hunused⟩ := of_allocateAddress_ok hf
    have hfree := free_of_reserved (hrely hp).holder hunused
    refine sound_read fun u hrely' _ => ?_
    refine sound_query (fun v _ hrely'' _ _ => ?_) fun v e _ _ hf' => ?_
    · have hfree' := (hfree.of_relied hrely').of_relied hrely''
      exact sound_commitUserPeer hfree' rfl hnetwork hclient
    · refine reported_of_refused ?_
      cases hencrypt : refused (r.encrypt _) with
      | error error =>
          rw [hencrypt] at hf'
          obtain rfl := Except.error.inj hf'
          exact refused_of_error hencrypt
      | ok _ =>
          rw [hencrypt] at hf'
          change (if _ then _ else _) = _ at hf'
          split at hf'
          · exact ⟨_, (Except.error.inj hf').symm⟩
          · cases hf'
  · intro error herror client hnetwork address hclient
    obtain rfl := Except.error.inj herror
    rw [dropLock_db]
    exact of_allocateAddress_exhausted hf hnetwork hclient

theorem sound_ensureUserPeer {r : UserRequest} :
    SoundFrom p (.ensureUserPeer r) (ensureUserPeer p r) w := by
  unfold ensureUserPeer
  split
  · exact sound_refuse
  · refine sound_query (fun _ _ _ _ _ => ?_) fun _ e _ _ hf =>
      reported_of_refused (refused_of_error hf)
    refine sound_query (fun _ _ _ _ _ => ?_) fun _ e _ _ hf => ?_
    · refine sound_acquire fun t hp _ => ?_
      refine sound_query (fun u _ hrely _ _ => ?_) fun _ e _ _ hf => ?_
      · refine sound_read fun v hrely' _ => ?_
        have hheld := hrely' (hrely hp).holder
        split
        · refine sound_query (fun _ _ _ _ _ => sound_release fun _ _ => reported_ok) ?_
          intro _ e _ _ hf
          split at hf
          · exact reported_of_refused ⟨_, (Except.error.inj hf).symm⟩
          · exact reported_of_refused (refused_of_error hf)
        · exact sound_issueUserPeer hheld.holder
      · split at hf
        · cases hf
        · exact reported_of_refused ⟨_, (Except.error.inj hf).symm⟩
    · split at hf
      · cases hf
      · exact reported_of_refused ⟨_, (Except.error.inj hf).symm⟩

/-- While it forgets hosts, the holder keeps the lock. -/
theorem sound_invalidateAll {next : Program} {peers : List AdVpnPeer} (hp : w.holder = some p)
    (hnext : ∀ t, t.holder = some p → t.Unshared → SoundFrom p operation next t)
    (hw : w.Unshared) : SoundFrom p operation (invalidateAll p next peers) w := by
  induction peers generalizing w with
  | nil => exact hnext w hp hw
  | cons peer peers ih =>
      refine sound_update fun t hrely hinv => ?_
      have hsame : t.SamePeers (invalidateHosts peer t) := ⟨rfl, rfl, rfl⟩
      exact ⟨allowed_samePeers hsame rfl hinv, ih (hrely hp).holder (hsame.unshared hinv)⟩

theorem unshared_deleteTeamPeers {ids : List ℤ} (hw : w.Unshared) :
    (deleteTeamPeers ids w).Unshared := by
  have hold : ∀ row ∈ (deleteTeamPeers ids w).db.adVpnPeers, row ∈ w.db.adVpnPeers :=
    fun row hrow => (Table.mem_keep.mp hrow).1
  exact ⟨⟨fun row hrow other hother => hw.distinct.team row (hold row hrow) other (hold other hother),
    hw.distinct.user, fun row hrow => hw.distinct.apart row (hold row hrow)⟩, hw.usable⟩

/-- The holder deletes team peers. -/
theorem sound_delete {next : Program} {ids : List ℤ} (hp : w.holder = some p)
    (hnext : ∀ t, t.Unshared → SoundFrom p operation next t) :
    SoundFrom p operation (update p (deleteTeamPeers ids) next) w := by
  refine sound_update fun t hrely hinv => ?_
  have hdeleted : (deleteTeamPeers ids t).Unshared := unshared_deleteTeamPeers hinv
  exact ⟨allowed_of_holder (hrely hp).holder hdeleted, hnext _ hdeleted⟩

theorem alive_of_revoke {invalid : List Uuid} {row : EventVpnUserPeer}
    (hrow : row ∈ (revokeUserPeers invalid w).db.eventVpnUserPeers)
    (halive : row.revokedAtUtc = none) : row ∈ w.db.eventVpnUserPeers := by
  obtain ⟨old, hold, rfl⟩ :=
    (Table.mem_change (EventVpnUserPeer.id_revoke invalid w.now)).mp hrow
  unfold EventVpnUserPeer.revoke at halive ⊢
  split at halive
  · cases halive
  · next hkeep =>
      rw [if_neg hkeep]
      exact hold

/-- Personal peers are revoked without the lock: none comes alive, and no address changes. -/
theorem allowed_revokeUserPeers {invalid : List Uuid} (hw : w.Unshared) :
    allocationDiscipline.Allowed p w (revokeUserPeers invalid w) := by
  refine ⟨⟨⟨hw.distinct.team, ?_, ?_⟩, hw.usable⟩, fun q _ hq => ⟨hq, rfl, ?_⟩⟩
  · intro row hrow other hother halive halive'
    exact hw.distinct.user row (alive_of_revoke hrow halive) other (alive_of_revoke hother halive')
      halive halive'
  · intro row hrow other hother halive
    exact hw.distinct.apart row hrow other (alive_of_revoke hother halive) halive
  · exact fun row hrow halive => alive_of_revoke hrow halive

theorem sound_cleanUserPeers {teamPeers : List AdVpnPeer} :
    SoundFrom p operation (cleanUserPeers p client services teamPeers) w := by
  refine sound_read fun t _ _ => ?_
  dsimp only
  split
  · exact reported_ok
  · exact sound_update fun u _ hinv => ⟨allowed_revokeUserPeers hinv, reported_ok⟩

theorem sound_revokePeersForParticipations {ids : List ℤ} :
    SoundFrom p operation (revokePeersForParticipations p ids) w := by
  unfold revokePeersForParticipations
  split
  · exact reported_ok
  · refine sound_acquire fun t hp _ => sound_read fun u hrely hinv => ?_
    refine sound_invalidateAll (hrely hp).holder (fun v hp' _ => ?_) hinv
    refine sound_delete hp' fun _ _ => sound_release fun _ _ => ?_
    exact sound_ensureHubAndSync fun _ _ => reported_ok

theorem sound_loadPeersProgram : SoundFrom p operation (loadPeersProgram p client services) w := by
  refine sound_acquire fun t hp _ => sound_read fun u hu _ => sound_read fun v hv _ =>
    sound_read fun x hx _ => sound_read fun y hy hinv => ?_
  have hholder := (hy (hx (hv (hu hp).holder).holder).holder).holder
  refine sound_invalidateAll hholder (fun z hp' _ => ?_) hinv
  exact sound_delete hp' fun _ _ => sound_release fun _ _ => sound_cleanUserPeers

theorem sound_program (p : ℕ) (operation : Operation) (w : World) :
    SoundFrom p operation (operation.program p) w := by
  cases operation with
  | ensurePeer r => exact sound_ensurePeerInner fun _ => Iff.rfl
  | ensurePeerDeferred r => exact sound_ensurePeerInner fun _ => Iff.rfl
  | ensureUserPeer r => exact sound_ensureUserPeer
  | revokePeersForParticipations ids => exact sound_revokePeersForParticipations
  | loadPeers client services => exact sound_loadPeersProgram

end Programs

section Runs

/-- Rows with different texts have different addresses. -/
theorem Database.AddressesDistinct.parse_ne {db : Database} (h : db.AddressesDistinct)
    {row : AdVpnPeer} {other : EventVpnUserPeer} (hrow : row ∈ db.adVpnPeers)
    (hother : other ∈ db.eventVpnUserPeers) (halive : other.revokedAtUtc = none) {address : ℕ}
    (hparse : parseIpv4 row.address = some address) : parseIpv4 other.address ≠ some address := by
  intro hparse'
  have hrowText := (parseIpv4_eq_some_iff.mp hparse).2
  have hotherText := (parseIpv4_eq_some_iff.mp hparse').2
  exact h.apart row hrow other hother halive (hrowText.trans hotherText.symm)

/-- In every state of every run the peers have different addresses, every address was written as
one which a client may have, and the end of the pool is reported only when it is reached. -/
theorem addresses_never_shared {w : World} (hw : w.Unshared)
    {events : List (Interleaving.Event Operation)}
    {s : Interleaving.System World Operation (Except (Failure AppError) Outcome)}
    (hrun : StepPath allocationSetting.Step ⟨w, fun _ => none⟩ events s) :
    s.shared.db.AddressesDistinct ∧ s.shared.AllocatedUsable ∧
      ∀ p t, allocationSetting.Step s (.step p) t → ∀ operation error,
        t.running p = some (operation, .done (.error (.exhausted error))) →
          operation.PoolTaken t.shared := by
  have hstart : allocationDiscipline.Keeps Operation.Reported ⟨w, fun _ => none⟩ :=
    Discipline.keeps_start hw
  have hkeeps := hstart.run (fun p operation v _ => sound_program p operation v) hrun
  refine ⟨hkeeps.inv.distinct, hkeeps.inv.usable, fun p t hstep operation error hend => ?_⟩
  exact hkeeps.ends hstep hend error rfl

def sampleTeamPeer : AdVpnPeer := ⟨1, 2, 22, "team key", "10.13.37.22"⟩

def sampleUserPeer : EventVpnUserPeer :=
  ⟨"personal", 2, "captain", 22, "personal key", "10.13.37.30", 1, none⟩

theorem nodup_sampleTeamPeer : ([sampleTeamPeer].map (·.id)).Nodup := by decide

theorem nodup_sampleUserPeer : ([sampleUserPeer].map (·.id)).Nodup := by decide

def sampleDatabase : Database where
  games := fun _ => none
  challenges := []
  participations := fun _ => none
  teams := fun _ => none
  accounts := fun _ => none
  teamMembers := []
  userParticipations := []
  adVpnPeers := ⟨[sampleTeamPeer], nodup_sampleTeamPeer⟩
  eventVpnUserPeers := ⟨[sampleUserPeer], nodup_sampleUserPeer⟩
  adTeamServices := []
  kothTargets := []
  kothCrownCycles := fun _ => none
  kothCycleCooldowns := []
  adRounds := []
  captureLive := []
  captureOwner := ⟨none, 0, true, none⟩

def sampleWorld : World := ⟨sampleDatabase, 100, none, 2, []⟩

theorem unshared_sampleWorld : sampleWorld.Unshared := by
  refine ⟨⟨?_, ?_, ?_⟩, fun _ hentry => by cases hentry⟩
  · intro row hrow other hother _
    rw [List.mem_singleton.mp hrow, List.mem_singleton.mp hother]
  · intro row hrow other hother _ _ _
    rw [List.mem_singleton.mp hrow, List.mem_singleton.mp hother]
  · intro row hrow other hother _
    rw [List.mem_singleton.mp hrow, List.mem_singleton.mp hother]
    decide

/-- A revocation of the team peer takes the lock. -/
theorem addresses_never_shared_sample :
    (⟨sampleDatabase, 100, some 0, 2, []⟩ : World).db.AddressesDistinct := by
  let started : Interleaving.System World Operation (Except (Failure AppError) Outcome) :=
    ⟨sampleWorld, Function.update (fun _ => none) 0
      (some (.revokePeersForParticipations [22], revokePeersForParticipations 0 [22]))⟩
  have hstep : allocationSetting.Step started (.step 0) _ := .step rfl rfl
  exact (addresses_never_shared unshared_sampleWorld
    (.cons (.start (.revokePeersForParticipations [22]) rfl) (.cons hstep (.nil _)))).1

end Runs

end Vpn

end Rsctf
