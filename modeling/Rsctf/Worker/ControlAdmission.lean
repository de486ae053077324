import Rsctf.Data.TokenBucket

/-!
# The quota of a worker's control traffic

A session admits the frames of its worker by two buckets, one for messages and one for
bytes.  A bucket keeps whole tokens and the rest of a division in billionths; counted in
billionths together they are what a bucket holds which is filled without steps.  Instants are
counted in nanoseconds.
-/

namespace Rsctf

namespace Worker

def nanosPerSecond : ℕ := 1000000000

/-- `u128::MAX` -/
def u128Max : ℕ := 340282366920938463463374607431768211455

/-- `usize::MAX` -/
def usizeMax : ℕ := 18446744073709551615

def saturate (bound n : ℕ) : ℕ := if bound < n then bound else n

structure TokenBucket where
  refillPerSecond : ℕ
  capacity : ℕ
  available : ℕ
  fractionalNanos : ℕ
  lastRefill : ℕ
deriving DecidableEq, Repr

namespace TokenBucket

def new (refillPerSecond capacity now : ℕ) : TokenBucket :=
  ⟨refillPerSecond, capacity, capacity, 0, now⟩

def refill (bucket : TokenBucket) (now : ℕ) : TokenBucket :=
  let elapsed := now - bucket.lastRefill
  if bucket.available = bucket.capacity then
    { bucket with fractionalNanos := 0, lastRefill := now }
  else
    let numerator := saturate u128Max
      (saturate u128Max (elapsed * bucket.refillPerSecond) + bucket.fractionalNanos)
    let generated := saturate usizeMax (numerator / nanosPerSecond)
    let missing := bucket.capacity - bucket.available
    if missing ≤ generated then
      { bucket with available := bucket.capacity, fractionalNanos := 0, lastRefill := now }
    else
      { bucket with
        available := bucket.available + generated
        fractionalNanos := numerator % nanosPerSecond
        lastRefill := now }

def canTake (bucket : TokenBucket) (amount : ℕ) : Bool := amount ≤ bucket.available

def take (bucket : TokenBucket) (amount : ℕ) : TokenBucket :=
  { bucket with available := bucket.available - amount }

end TokenBucket

structure ControlAdmission where
  messages : TokenBucket
  bytes : TokenBucket
deriving DecidableEq, Repr

def ControlAdmission.newAt (messagesPerSecond messageBurst bytesPerSecond byteBurst now : ℕ) :
    ControlAdmission :=
  ⟨.new messagesPerSecond messageBurst now, .new bytesPerSecond byteBurst now⟩

def ControlAdmission.tryAdmitAt (admission : ControlAdmission) (payloadBytes now : ℕ) :
    ControlAdmission × Bool :=
  let messages := admission.messages.refill now
  let bytes := admission.bytes.refill now
  if messages.canTake 1 = false ∨ bytes.canTake payloadBytes = false then
    (⟨messages, bytes⟩, false)
  else (⟨messages.take 1, bytes.take payloadBytes⟩, true)

section Content

namespace TokenBucket

variable {bucket : TokenBucket} {now amount : ℕ}

/-- The tokens in billionths. -/
def content (bucket : TokenBucket) : ℕ := bucket.available * nanosPerSecond + bucket.fractionalNanos

/-- What the bucket holds at most, in billionths. -/
def fullContent (bucket : TokenBucket) : ℕ := bucket.capacity * nanosPerSecond

/-- The bucket is not overfull, and its size is a machine number. -/
structure Valid (bucket : TokenBucket) : Prop where
  fractional : bucket.fractionalNanos < nanosPerSecond
  content_le : bucket.content ≤ bucket.fullContent
  capacity_le : bucket.capacity ≤ usizeMax

theorem content_new (refillPerSecond capacity now : ℕ) :
    (new refillPerSecond capacity now).content = capacity * nanosPerSecond := Nat.add_zero _

theorem valid_new {refillPerSecond capacity : ℕ} (h : capacity ≤ usizeMax) (now : ℕ) :
    (new refillPerSecond capacity now).Valid :=
  ⟨Nat.succ_pos _, (content_new refillPerSecond capacity now).le, h⟩

theorem refill_settings (bucket : TokenBucket) (now : ℕ) :
    (bucket.refill now).refillPerSecond = bucket.refillPerSecond ∧
      (bucket.refill now).capacity = bucket.capacity ∧ (bucket.refill now).lastRefill = now := by
  unfold refill
  dsimp only
  split_ifs <;> exact ⟨rfl, rfl, rfl⟩

theorem Valid.available_le (h : bucket.Valid) : bucket.available ≤ bucket.capacity := by
  have hcontent := h.content_le
  unfold content fullContent nanosPerSecond at hcontent
  omega

/-- The saturation of the machine numbers makes no difference unless more has flowed in than
any bucket holds. -/
theorem saturate_numerator (flow fractional : ℕ) :
    (saturate u128Max (saturate u128Max flow + fractional) = flow + fractional ∧
      saturate usizeMax ((flow + fractional) / nanosPerSecond) =
        (flow + fractional) / nanosPerSecond) ∨
    (saturate usizeMax (saturate u128Max (saturate u128Max flow + fractional) / nanosPerSecond) =
        usizeMax ∧ usizeMax * nanosPerSecond ≤ flow + fractional) := by
  unfold saturate u128Max usizeMax nanosPerSecond
  split_ifs <;> omega

/-- A refill is exact: no part of a token is lost or made up. -/
theorem Valid.content_refill (h : bucket.Valid) (now : ℕ) :
    (bucket.refill now).content = Bucket.fill bucket.fullContent bucket.refillPerSecond
      bucket.content (now - bucket.lastRefill) := by
  have hcontent := h.content_le
  have hcapacity := h.capacity_le
  have havailable := h.available_le
  unfold refill Bucket.fill
  dsimp only
  rw [Nat.mul_comm bucket.refillPerSecond]
  generalize (now - bucket.lastRefill) * bucket.refillPerSecond = flow
  have hsaturate := saturate_numerator flow bucket.fractionalNanos
  unfold fullContent content at *
  split
  next hfull =>
    dsimp only
    rw [hfull] at hcontent ⊢
    omega
  next hnotfull =>
    split
    next hgenerated =>
      dsimp only
      rcases hsaturate with ⟨hnumerator, hexact⟩ | ⟨-, hlarge⟩
      · rw [hnumerator, hexact] at hgenerated
        unfold nanosPerSecond at *
        omega
      · unfold usizeMax nanosPerSecond at *
        omega
    next hgenerated =>
      rcases hsaturate with ⟨hnumerator, hexact⟩ | ⟨hlarge, -⟩
      · rw [hnumerator, hexact] at hgenerated ⊢
        dsimp only
        unfold nanosPerSecond at *
        omega
      · rw [hlarge] at hgenerated
        omega

theorem fractional_refill (bucket : TokenBucket) (now : ℕ) :
    (bucket.refill now).fractionalNanos < nanosPerSecond := by
  have hpos : 0 < nanosPerSecond := Nat.succ_pos _
  unfold refill
  dsimp only
  split_ifs
  · exact hpos
  · exact hpos
  · exact Nat.mod_lt _ hpos

theorem fullContent_refill (bucket : TokenBucket) (now : ℕ) :
    (bucket.refill now).fullContent = bucket.fullContent :=
  congrArg (· * nanosPerSecond) (refill_settings bucket now).2.1

theorem Valid.refill (h : bucket.Valid) (now : ℕ) : (bucket.refill now).Valid where
  fractional := fractional_refill bucket now
  content_le := by
    rw [h.content_refill, fullContent_refill]
    exact Bucket.fill_le _ _
  capacity_le := by
    rw [(refill_settings bucket now).2.1]
    exact h.capacity_le

/-- Whole tokens are there exactly when their billionths are. -/
theorem Valid.canTake_iff (h : bucket.Valid) :
    bucket.canTake amount = true ↔ amount * nanosPerSecond ≤ bucket.content := by
  have hfractional := h.fractional
  unfold canTake content nanosPerSecond at *
  rw [decide_eq_true_eq]
  omega

theorem content_take (h : bucket.canTake amount = true) :
    (bucket.take amount).content = bucket.content - amount * nanosPerSecond := by
  have hle : amount ≤ bucket.available := of_decide_eq_true h
  unfold content take nanosPerSecond
  dsimp only
  omega

theorem Valid.take (h : bucket.Valid) (htake : bucket.canTake amount = true) :
    (bucket.take amount).Valid := by
  refine ⟨h.fractional, ?_, h.capacity_le⟩
  rw [content_take htake]
  exact (Nat.sub_le _ _).trans h.content_le

/-- The bucket holds what is left after some charges. -/
structure Holds (bucket : TokenBucket) (charges : List Bucket.Charge) : Prop where
  valid : bucket.Valid
  content_eq : bucket.content =
    Bucket.level bucket.fullContent bucket.refillPerSecond charges bucket.lastRefill
  ordered : Bucket.Ordered charges bucket.lastRefill
  covered : Bucket.Covered bucket.fullContent bucket.refillPerSecond charges

variable {charges : List Bucket.Charge}

theorem holds_new {refillPerSecond capacity : ℕ} (h : capacity ≤ usizeMax) (now : ℕ) :
    (new refillPerSecond capacity now).Holds [] :=
  ⟨valid_new h now, content_new refillPerSecond capacity now, trivial, trivial⟩

theorem Holds.refill (h : bucket.Holds charges) (hnow : bucket.lastRefill ≤ now) :
    (bucket.refill now).Holds charges := by
  obtain ⟨hrate, -, hlast⟩ := refill_settings bucket now
  refine ⟨h.valid.refill now, ?_, ?_, ?_⟩
  · rw [h.valid.content_refill, fullContent_refill, hrate, hlast, h.content_eq]
    exact Bucket.fill_level h.ordered.head hnow
  · rw [hlast]
    exact h.ordered.mono hnow
  · rw [fullContent_refill, hrate]
    exact h.covered

/-- Tokens can be taken exactly when the quota is kept in every window. -/
theorem Holds.canTake_iff (h : bucket.Holds charges) (amount : ℕ) :
    bucket.canTake amount = true ↔ Bucket.Conforms bucket.fullContent bucket.refillPerSecond
      charges bucket.lastRefill (amount * nanosPerSecond) := by
  rw [h.valid.canTake_iff, h.content_eq]
  exact Bucket.le_level_iff h.ordered h.covered

theorem Holds.take (h : bucket.Holds charges) (htake : bucket.canTake amount = true) :
    (bucket.take amount).Holds (⟨bucket.lastRefill, amount * nanosPerSecond⟩ :: charges) := by
  have hcontent := (content_take htake).trans (congrArg (· - amount * nanosPerSecond) h.content_eq)
  refine ⟨h.valid.take htake, ?_, ⟨le_refl _, h.ordered⟩, ?_, h.covered⟩
  · rw [hcontent]
    change _ = Bucket.fill _ _ _ (bucket.lastRefill - bucket.lastRefill)
    rw [Nat.sub_self, Bucket.fill_zero]
    · rfl
    · exact (Nat.sub_le _ _).trans (Bucket.level_le charges _)
  · change _ ≤ Bucket.level bucket.fullContent bucket.refillPerSecond charges bucket.lastRefill
    rw [← h.content_eq]
    exact h.valid.canTake_iff.mp htake

end TokenBucket

end Content

section Session

/-- A frame of a session and the instant at which it was read. -/
structure Arrival where
  payloadBytes : ℕ
  now : ℕ
deriving DecidableEq, Repr

def Arrival.messageCharge (arrival : Arrival) : Bucket.Charge := ⟨arrival.now, 1 * nanosPerSecond⟩

def Arrival.byteCharge (arrival : Arrival) : Bucket.Charge :=
  ⟨arrival.now, arrival.payloadBytes * nanosPerSecond⟩

/-- The admission after another frame, with the frames which it has admitted, the latest one
first. -/
def offer (state : ControlAdmission × List Arrival) (arrival : Arrival) :
    ControlAdmission × List Arrival :=
  let result := state.1.tryAdmitAt arrival.payloadBytes arrival.now
  (result.1, if result.2 = true then arrival :: state.2 else state.2)

/-- The buckets hold what the admitted frames have left. -/
structure ControlAdmission.Tracks (admission : ControlAdmission) (admitted : List Arrival)
    (now : ℕ) : Prop where
  messages : admission.messages.Holds (admitted.map Arrival.messageCharge)
  bytes : admission.bytes.Holds (admitted.map Arrival.byteCharge)
  messages_last : admission.messages.lastRefill = now
  bytes_last : admission.bytes.lastRefill = now

variable {admission : ControlAdmission} {admitted : List Arrival} {now later : ℕ}

theorem ControlAdmission.Tracks.refill (h : admission.Tracks admitted now) (hlater : now ≤ later) :
    ControlAdmission.Tracks ⟨admission.messages.refill later, admission.bytes.refill later⟩
      admitted later where
  messages := h.messages.refill (h.messages_last ▸ hlater)
  bytes := h.bytes.refill (h.bytes_last ▸ hlater)
  messages_last := (TokenBucket.refill_settings admission.messages later).2.2
  bytes_last := (TokenBucket.refill_settings admission.bytes later).2.2

/-- A frame is admitted when both buckets have what it costs, and then both are charged. -/
theorem ControlAdmission.tryAdmitAt_eq (admission : ControlAdmission) (payloadBytes now : ℕ) :
    ((admission.tryAdmitAt payloadBytes now).2 = true ↔
      (admission.messages.refill now).canTake 1 = true ∧
        (admission.bytes.refill now).canTake payloadBytes = true) ∧
    (admission.tryAdmitAt payloadBytes now).1 =
      if (admission.tryAdmitAt payloadBytes now).2 = true then
        ⟨(admission.messages.refill now).take 1, (admission.bytes.refill now).take payloadBytes⟩
      else ⟨admission.messages.refill now, admission.bytes.refill now⟩ := by
  unfold tryAdmitAt
  dsimp only
  split
  next hrefused =>
    refine ⟨⟨(by cases ·), fun ⟨hmessage, hbytes⟩ => ?_⟩, rfl⟩
    rw [hmessage, hbytes] at hrefused
    simp at hrefused
  next hadmitted =>
    rw [not_or, Bool.not_eq_false, Bool.not_eq_false] at hadmitted
    exact ⟨⟨fun _ => hadmitted, fun _ => rfl⟩, rfl⟩

theorem ControlAdmission.Tracks.offer (h : admission.Tracks admitted now) {arrival : Arrival}
    (hnow : now ≤ arrival.now) :
    (offer (admission, admitted) arrival).1.Tracks (offer (admission, admitted) arrival).2
      arrival.now := by
  have hrefill := h.refill hnow
  obtain ⟨hiff, hnext⟩ := admission.tryAdmitAt_eq arrival.payloadBytes arrival.now
  unfold Worker.offer
  dsimp only
  rw [hnext]
  split
  next hadmitted =>
    obtain ⟨hmessage, hbytes⟩ := hiff.mp hadmitted
    have hmessages := hrefill.messages.take hmessage
    have hpayload := hrefill.bytes.take hbytes
    have hmlast := hrefill.messages_last
    have hblast := hrefill.bytes_last
    dsimp only at hmessages hpayload hmlast hblast
    rw [hmlast] at hmessages
    rw [hblast] at hpayload
    exact ⟨hmessages, hpayload, hmlast, hblast⟩
  next => exact hrefill

/-- The instants of the frames, one after the other. -/
def InOrder : ℕ → List Arrival → Prop
  | _, [] => True
  | now, arrival :: arrivals => now ≤ arrival.now ∧ InOrder arrival.now arrivals

def lastNow (start : ℕ) (arrivals : List Arrival) : ℕ := (arrivals.getLast?.map (·.now)).getD start

theorem lastNow_cons (start : ℕ) (arrival : Arrival) (arrivals : List Arrival) :
    lastNow start (arrival :: arrivals) = lastNow arrival.now arrivals := by
  cases arrivals with
  | nil => rfl
  | cons other arrivals =>
    rw [lastNow, lastNow, List.getLast?_cons_cons,
      List.getLast?_eq_some_getLast (List.cons_ne_nil other arrivals)]
    rfl

theorem ControlAdmission.Tracks.run {start : ℕ} {arrivals : List Arrival}
    (h : admission.Tracks admitted start) (horder : InOrder start arrivals) :
    (arrivals.foldl Worker.offer (admission, admitted)).1.Tracks
      (arrivals.foldl Worker.offer (admission, admitted)).2 (lastNow start arrivals) := by
  induction arrivals generalizing admission admitted start with
  | nil => exact h
  | cons arrival arrivals ih =>
    rw [List.foldl_cons, lastNow_cons]
    exact ih (h.offer horder.1) horder.2

theorem settings_offer (state : ControlAdmission × List Arrival) (arrival : Arrival) :
    (offer state arrival).1.messages.fullContent = state.1.messages.fullContent ∧
      (offer state arrival).1.messages.refillPerSecond = state.1.messages.refillPerSecond ∧
      (offer state arrival).1.bytes.fullContent = state.1.bytes.fullContent ∧
      (offer state arrival).1.bytes.refillPerSecond = state.1.bytes.refillPerSecond := by
  have hmessages := TokenBucket.refill_settings state.1.messages arrival.now
  have hbytes := TokenBucket.refill_settings state.1.bytes arrival.now
  have hmfull := TokenBucket.fullContent_refill state.1.messages arrival.now
  have hbfull := TokenBucket.fullContent_refill state.1.bytes arrival.now
  unfold offer
  dsimp only
  rw [(state.1.tryAdmitAt_eq arrival.payloadBytes arrival.now).2]
  split <;> exact ⟨hmfull, hmessages.1, hbfull, hbytes.1⟩

theorem settings_run (arrivals : List Arrival) (state : ControlAdmission × List Arrival) :
    (arrivals.foldl offer state).1.messages.fullContent = state.1.messages.fullContent ∧
      (arrivals.foldl offer state).1.messages.refillPerSecond =
        state.1.messages.refillPerSecond ∧
      (arrivals.foldl offer state).1.bytes.fullContent = state.1.bytes.fullContent ∧
      (arrivals.foldl offer state).1.bytes.refillPerSecond = state.1.bytes.refillPerSecond := by
  induction arrivals generalizing state with
  | nil => exact ⟨rfl, rfl, rfl, rfl⟩
  | cons arrival arrivals ih =>
    obtain ⟨h₁, h₂, h₃, h₄⟩ := ih (offer state arrival)
    obtain ⟨k₁, k₂, k₃, k₄⟩ := settings_offer state arrival
    exact ⟨h₁.trans k₁, h₂.trans k₂, h₃.trans k₃, h₄.trans k₄⟩

/-- Whatever was read before, the next frame is admitted exactly when in every window of time
which ends with it the admitted frames keep to the quota of messages and to that of bytes. -/
theorem control_quota {messagesPerSecond messageBurst bytesPerSecond byteBurst start : ℕ}
    (hmessage : messageBurst ≤ usizeMax) (hbyte : byteBurst ≤ usizeMax) (arrivals : List Arrival)
    (next : Arrival) (horder : InOrder start arrivals) (hnext : lastNow start arrivals ≤ next.now) :
    let state := arrivals.foldl offer
      (.newAt messagesPerSecond messageBurst bytesPerSecond byteBurst start, [])
    (state.1.tryAdmitAt next.payloadBytes next.now).2 = true ↔
      Bucket.Conforms (messageBurst * nanosPerSecond) messagesPerSecond
          (state.2.map Arrival.messageCharge) next.now (1 * nanosPerSecond) ∧
        Bucket.Conforms (byteBurst * nanosPerSecond) bytesPerSecond
          (state.2.map Arrival.byteCharge) next.now (next.payloadBytes * nanosPerSecond) := by
  intro state
  have hstart : (ControlAdmission.newAt messagesPerSecond messageBurst bytesPerSecond byteBurst
      start).Tracks [] start :=
    ⟨TokenBucket.holds_new hmessage start, TokenBucket.holds_new hbyte start, rfl, rfl⟩
  have htracks := (hstart.run horder).refill hnext
  obtain ⟨hmfull, hmrate, hbfull, hbrate⟩ := settings_run arrivals
    (.newAt messagesPerSecond messageBurst bytesPerSecond byteBurst start, [])
  have hmessages := htracks.messages.canTake_iff 1
  have hbytes := htracks.bytes.canTake_iff next.payloadBytes
  rw [htracks.messages_last] at hmessages
  rw [htracks.bytes_last] at hbytes
  rw [TokenBucket.fullContent_refill, (TokenBucket.refill_settings _ _).1, hmfull, hmrate]
    at hmessages
  rw [TokenBucket.fullContent_refill, (TokenBucket.refill_settings _ _).1, hbfull, hbrate]
    at hbytes
  rw [(state.1.tryAdmitAt_eq next.payloadBytes next.now).1]
  exact and_congr hmessages hbytes

/-- After two messages at once a third one has to wait for the bucket. -/
theorem control_quota_sample :
    ¬(Bucket.Conforms (2 * nanosPerSecond) 2 ([⟨5, 0⟩, ⟨5, 0⟩].map Arrival.messageCharge) 0
          (1 * nanosPerSecond) ∧
        Bucket.Conforms (10 * nanosPerSecond) 10 ([⟨5, 0⟩, ⟨5, 0⟩].map Arrival.byteCharge) 0
          (1 * nanosPerSecond)) :=
  fun h => Bool.noConfusion ((@control_quota 2 2 10 10 0 (by decide) (by decide) [⟨5, 0⟩, ⟨5, 0⟩]
    ⟨1, 0⟩ ⟨le_refl 0, le_refl 0, trivial⟩ (le_refl 0)).mpr h)

end Session

end Worker

end Rsctf
