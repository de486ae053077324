import Rsctf.Data.Fallible
import Rsctf.Data.PrefixCode
import Rsctf.Data.StreamReader
import Rsctf.Worker.Inventory

/-!
# The wire of the worker protocol

A control frame is the length of a JSON text in four bytes and the text.  A data stream begins
with `RSD1`, the kind of the request, a byte of flags, the length of a JSON text in two bytes
and the text.  The JSON of a type is given by its writer and its reader.
-/

namespace Rsctf

namespace Worker

open PrefixCode

abbrev Byte := Fin 256

structure JsonCodec (α : Type) where
  toVec : α → Except String (List Byte)
  fromSlice : List Byte → Except String α

/-- What was written is read back. -/
def JsonCodec.Faithful {α : Type} (codec : JsonCodec α) : Prop :=
  ∀ value payload, codec.toVec value = .ok payload → codec.fromSlice payload = .ok value

section Control

def maxControlFrame : ℕ := 262144

inductive FrameError
  | empty
  | tooLarge (actual maximum : ℕ)
  | json (message : String)
deriving DecidableEq, Repr

variable {α : Type}

/-- The bytes which are written for a value. -/
def writeJsonFrame (codec : JsonCodec α) (value : α) : Except FrameError (List Byte) :=
  match codec.toVec value with
  | .error message => .error (.json message)
  | .ok payload =>
    if payload.isEmpty then .error .empty
    else if maxControlFrame < payload.length then
      .error (.tooLarge payload.length maxControlFrame)
    else .ok (beBytes 4 payload.length ++ payload)

/-- A frame with the length of its payload. -/
def readJsonFrameCounted (codec : JsonCodec α) : Reader Byte (Except FrameError (α × ℕ)) :=
  .take 4 fun header =>
  let length := ofBeBytes header
  if length = 0 then .done (.error .empty)
  else if maxControlFrame < length then .done (.error (.tooLarge length maxControlFrame))
  else
    .take length fun payload =>
    match codec.fromSlice payload with
    | .error message => .done (.error (.json message))
    | .ok value => .done (.ok (value, length))

def readJsonFrame (codec : JsonCodec α) : Reader Byte (Except FrameError α) :=
  (readJsonFrameCounted codec).bind fun
  | .error error => .done (.error error)
  | .ok (value, _) => .done (.ok value)

/-- A number of frames, up to the first which is refused. -/
def readFrames (codec : JsonCodec α) : ℕ → Reader Byte (Except FrameError (List (α × ℕ)))
  | 0 => .done (.ok [])
  | n + 1 => (readJsonFrameCounted codec).bind fun
    | .error error => .done (.error error)
    | .ok first => (readFrames codec n).bind fun
      | .error error => .done (.error error)
      | .ok frames => .done (.ok (first :: frames))

end Control

section Data

def dataMagic : List Byte := [byte 82, byte 83, byte 68, byte 49]

def maxDataHeader : ℕ := 8192

inductive DataStreamKind
  | tcpProxy
  | interactiveExec
deriving DecidableEq, Repr

def DataStreamKind.asByte : DataStreamKind → Byte
  | .tcpProxy => byte 1
  | .interactiveExec => byte 2

structure TcpProxyRequest where
  fence : WorkloadFence
  service : String
  port : String
  replica : Option ℕ
deriving DecidableEq, Repr

structure InteractiveExecRequest where
  fence : WorkloadFence
  service : String
  replica : ℕ
  columns : ℕ
  rows : ℕ
deriving DecidableEq, Repr

inductive DataStreamRequest
  | tcpProxy (request : TcpProxyRequest)
  | interactiveExec (request : InteractiveExecRequest)
deriving DecidableEq, Repr

def DataStreamRequest.kind : DataStreamRequest → DataStreamKind
  | .tcpProxy _ => .tcpProxy
  | .interactiveExec _ => .interactiveExec

def DataStreamRequest.workloadFence : DataStreamRequest → WorkloadFence
  | .tcpProxy request => request.fence
  | .interactiveExec request => request.fence

inductive DataStatus
  | ready
  | notFound
  | stale
  | busy
  | forbidden
  | runtimeUnavailable
  | dialFailed
  | unsupported
  | internal
deriving DecidableEq, Repr

inductive DataStreamError
  | invalidMagic
  | unknownKind (kind : Byte)
  | unknownStatus (status : Byte)
  | emptyHeader
  | headerTooLarge (actual maximum : ℕ)
  | json (message : String)
deriving DecidableEq, Repr

def DataStreamKind.tryFrom (value : Byte) : Except DataStreamError DataStreamKind :=
  match value.val with
  | 1 => .ok .tcpProxy
  | 2 => .ok .interactiveExec
  | _ => .error (.unknownKind value)

def DataStatus.asU8 : DataStatus → Byte
  | .ready => byte 0
  | .notFound => byte 1
  | .stale => byte 2
  | .busy => byte 3
  | .forbidden => byte 4
  | .runtimeUnavailable => byte 5
  | .dialFailed => byte 6
  | .unsupported => byte 7
  | .internal => byte 8

def DataStatus.write (status : DataStatus) : List Byte := [status.asU8]

def DataStatus.tryFrom (value : Byte) : Except DataStreamError DataStatus :=
  match value.val with
  | 0 => .ok .ready
  | 1 => .ok .notFound
  | 2 => .ok .stale
  | 3 => .ok .busy
  | 4 => .ok .forbidden
  | 5 => .ok .runtimeUnavailable
  | 6 => .ok .dialFailed
  | 7 => .ok .unsupported
  | 8 => .ok .internal
  | _ => .error (.unknownStatus value)

structure RequestCodec where
  tcpProxy : JsonCodec TcpProxyRequest
  interactiveExec : JsonCodec InteractiveExecRequest

def RequestCodec.toVec (codec : RequestCodec) : DataStreamRequest → Except String (List Byte)
  | .tcpProxy request => codec.tcpProxy.toVec request
  | .interactiveExec request => codec.interactiveExec.toVec request

def RequestCodec.fromSlice (codec : RequestCodec) (kind : DataStreamKind) (header : List Byte) :
    Except String DataStreamRequest :=
  match kind with
  | .tcpProxy => (codec.tcpProxy.fromSlice header).map .tcpProxy
  | .interactiveExec => (codec.interactiveExec.fromSlice header).map .interactiveExec

def writeDataRequest (codec : RequestCodec) (request : DataStreamRequest) :
    Except DataStreamError (List Byte) :=
  match codec.toVec request with
  | .error message => .error (.json message)
  | .ok header =>
    if header.isEmpty then .error .emptyHeader
    else if maxDataHeader < header.length then
      .error (.headerTooLarge header.length maxDataHeader)
    else .ok (dataMagic ++ [request.kind.asByte] ++ [byte 0] ++ beBytes 2 header.length ++ header)

/-- The header of a request of a kind. -/
def readDataHeader (codec : RequestCodec) (kind : DataStreamKind) :
    Reader Byte (Except DataStreamError DataStreamRequest) :=
  .take 1 fun _flags =>
  .take 2 fun bytes =>
  let length := ofBeBytes bytes
  if length = 0 then .done (.error .emptyHeader)
  else if maxDataHeader < length then .done (.error (.headerTooLarge length maxDataHeader))
  else
    .take length fun header =>
    match codec.fromSlice kind header with
    | .error message => .done (.error (.json message))
    | .ok request => .done (.ok request)

def readDataRequest (codec : RequestCodec) :
    Reader Byte (Except DataStreamError DataStreamRequest) :=
  .take 4 fun magic =>
  if magic ≠ dataMagic then .done (.error .invalidMagic)
  else
    .take 1 fun value =>
    match DataStreamKind.tryFrom (value.headD (byte 0)) with
    | .error error => .done (.error error)
    | .ok kind => readDataHeader codec kind

def readDataStatus : Reader Byte (Except DataStreamError DataStatus) :=
  .take 1 fun value => .done (DataStatus.tryFrom (value.headD (byte 0)))

end Data

section ControlFrames

variable {α : Type} {codec : JsonCodec α} {value : α} {wire rest : List Byte}

/-- A frame which is written has its payload behind its length. -/
theorem writeJsonFrame_eq_ok (h : writeJsonFrame codec value = .ok wire) :
    ∃ payload, codec.toVec value = .ok payload ∧ wire = beBytes 4 payload.length ++ payload ∧
      payload.length ≠ 0 ∧ payload.length ≤ maxControlFrame := by
  unfold writeJsonFrame at h
  split at h
  next => cases h
  next payload hpayload =>
    split at h
    next => cases h
    next hempty =>
      split at h
      next => cases h
      next hlarge =>
        refine ⟨payload, hpayload, (Except.ok.inj h).symm, fun hzero => ?_, Nat.le_of_not_lt hlarge⟩
        exact hempty (List.isEmpty_iff.mpr (List.length_eq_zero_iff.mp hzero))

theorem maxControlFrame_lt : maxControlFrame < 256 ^ 4 := by decide

/-- A frame is read back, and what follows it is left. -/
theorem feed_writeJsonFrame (hcodec : codec.Faithful) (h : writeJsonFrame codec value = .ok wire)
    (rest : List Byte) :
    (readJsonFrameCounted codec).feed (wire ++ rest) =
      (.done (.ok (value, wire.length - 4)), rest) := by
  obtain ⟨payload, hpayload, rfl, hzero, hle⟩ := writeJsonFrame_eq_ok h
  have hlength : ofBeBytes (beBytes 4 payload.length) = payload.length :=
    ofBeBytes_beBytes (hle.trans_lt maxControlFrame_lt)
  have hwire : (beBytes 4 payload.length ++ payload).length - 4 = payload.length := by
    rw [List.length_append, length_beBytes, Nat.add_sub_cancel_left]
  rw [List.append_assoc, readJsonFrameCounted, Reader.feed_take (length_beBytes 4 _)]
  simp only [hlength, if_neg hzero, if_neg (Nat.not_lt.mpr hle)]
  rw [Reader.feed_take rfl, hcodec value payload hpayload, hwire]
  rfl

/-- Frames which are written one after the other are read back in order, with the lengths of
their payloads, however the stream is cut; what follows them is left. -/
theorem frames_read_back (hcodec : codec.Faithful) {values : List α} {wires : List (List Byte)}
    (hwires : List.Forall₂ (fun value wire => writeJsonFrame codec value = .ok wire) values wires)
    (chunk : List Byte) (chunks : List (List Byte))
    (hchunks : (chunk :: chunks).flatten = wires.flatten ++ rest) :
    (readFrames codec values.length).feedChunks (chunk :: chunks) =
      (.done (.ok (List.zipWith (fun value wire => (value, wire.length - 4)) values wires)),
        rest) := by
  rw [Reader.feedChunks_cons, hchunks]
  clear hchunks
  induction hwires with
  | nil => rfl
  | @cons value wire values wires hwire hrest ih =>
    rw [List.flatten_cons, List.append_assoc, List.length_cons, readFrames,
      Reader.feed_bind _ _ (feed_writeJsonFrame hcodec hwire _)]
    dsimp only
    rw [Reader.feed_bind _ _ ih]
    rfl

/-- The bytes of an ASCII text. -/
def ascii (text : String) : List Byte := text.toList.map fun c => byte c.toNat

/-- The JSON of one value. -/
def JsonCodec.known {β : Type} [DecidableEq β] (value : β) (text : List Byte) : JsonCodec β where
  toVec other := if other = value then .ok text else .error "unknown value"
  fromSlice payload := if payload = text then .ok value else .error "unknown text"

theorem JsonCodec.faithful_known {β : Type} [DecidableEq β] (value : β) (text : List Byte) :
    (JsonCodec.known value text).Faithful := by
  intro other payload h
  change (if other = value then Except.ok text else .error "unknown value") = .ok payload at h
  split at h
  next heq =>
    obtain rfl := Except.ok.inj h
    exact (if_pos rfl).trans (congrArg Except.ok heq.symm)
  next => cases h

/-- Two frames in three chunks, with two bytes of a third. -/
theorem frames_read_back_sample :
    (readFrames (.known true (ascii "true")) [true, true].length).feedChunks
        [beBytes 4 4 ++ ascii "tr", ascii "ue" ++ beBytes 4 4, ascii "true" ++ [byte 0, byte 0]] =
      (.done (.ok [(true, 4), (true, 4)]), [byte 0, byte 0]) :=
  @frames_read_back Bool _ [byte 0, byte 0] (JsonCodec.faithful_known true (ascii "true"))
    [true, true] [beBytes 4 4 ++ ascii "true", beBytes 4 4 ++ ascii "true"]
    (.cons rfl (.cons rfl .nil)) _ _ rfl

theorem bounded_readJsonFrameCounted (codec : JsonCodec α) :
    (readJsonFrameCounted codec).Bounded maxControlFrame := by
  refine ⟨by decide, fun header _ => ?_⟩
  dsimp only
  split
  next => trivial
  next =>
    split
    next => trivial
    next hlarge =>
      refine ⟨Nat.le_of_not_lt hlarge, fun payload _ => ?_⟩
      dsimp only
      split <;> trivial

/-- A frame which was accepted stood in the stream behind its length, which was within the
limit; nothing else was taken from the stream. -/
theorem accepted_frame {chunks : List (List Byte)} {length : ℕ}
    (h : (readJsonFrameCounted codec).feedChunks chunks = (.done (.ok (value, length)), rest)) :
    ∃ payload, chunks.flatten = beBytes 4 length ++ payload ++ rest ∧
      payload.length = length ∧ 0 < length ∧ length ≤ maxControlFrame ∧
      codec.fromSlice payload = .ok value := by
  cases chunks with
  | nil => cases h
  | cons chunk chunks =>
    rw [Reader.feedChunks_cons] at h
    obtain ⟨header, left, hstream, hheader, h⟩ := Reader.feed_take_eq_done h
    dsimp only at h
    split at h
    next => cases (Reader.feed_done_eq h).1
    next hzero =>
      split at h
      next => cases (Reader.feed_done_eq h).1
      next hlarge =>
        obtain ⟨payload, left', hleft, hpayload, h⟩ := Reader.feed_take_eq_done h
        split at h
        next => cases (Reader.feed_done_eq h).1
        next decoded hdecoded =>
          obtain ⟨heq, rfl⟩ := Reader.feed_done_eq h
          obtain ⟨rfl, rfl⟩ := Prod.mk.inj (Except.ok.inj heq)
          refine ⟨payload, ?_, hpayload, Nat.pos_of_ne_zero hzero, Nat.le_of_not_lt hlarge,
            hdecoded⟩
          rw [hstream, hleft, List.append_assoc, ← hheader, beBytes_ofBeBytes]

/-- Whatever a peer sends, and however it arrives: the reader never waits for more than a
frame's limit at a time, and a value which it hands out stood in the stream behind its length,
which was within the limit, with nothing else taken from the stream. -/
theorem hostile_frame (codec : JsonCodec α) (chunks : List (List Byte)) :
    ((readJsonFrameCounted codec).feedChunks chunks).1.Bounded maxControlFrame ∧
      ∀ value length rest, (readJsonFrameCounted codec).feedChunks chunks =
          (.done (.ok (value, length)), rest) →
        ∃ payload, chunks.flatten = beBytes 4 length ++ payload ++ rest ∧
          payload.length = length ∧ 0 < length ∧ length ≤ maxControlFrame ∧
          codec.fromSlice payload = .ok value :=
  ⟨(bounded_readJsonFrameCounted codec).feedChunks chunks, fun _ _ _ => accepted_frame⟩

end ControlFrames

section DataRequests

variable {codec : RequestCodec} {request : DataStreamRequest} {wire rest : List Byte}

/-- The writer and the reader of each kind of request agree. -/
def RequestCodec.Faithful (codec : RequestCodec) : Prop :=
  codec.tcpProxy.Faithful ∧ codec.interactiveExec.Faithful

theorem RequestCodec.Faithful.fromSlice_eq (h : codec.Faithful) {header : List Byte}
    (hheader : codec.toVec request = .ok header) :
    codec.fromSlice request.kind header = .ok request := by
  cases request with
  | tcpProxy request =>
      have hread := h.1 request header hheader
      exact congrArg (Except.map DataStreamRequest.tcpProxy) hread
  | interactiveExec request =>
      have hread := h.2 request header hheader
      exact congrArg (Except.map DataStreamRequest.interactiveExec) hread

/-- A header is decoded as a request of the kind it was announced with. -/
theorem RequestCodec.kind_of_fromSlice {kind : DataStreamKind} {header : List Byte}
    (h : codec.fromSlice kind header = .ok request) : request.kind = kind := by
  cases kind with
  | tcpProxy =>
      obtain ⟨value, -, rfl⟩ := (Fallible.map_eq_ok_iff (f := DataStreamRequest.tcpProxy)
        (x := codec.tcpProxy.fromSlice header)).mp h
      rfl
  | interactiveExec =>
      obtain ⟨value, -, rfl⟩ := (Fallible.map_eq_ok_iff (f := DataStreamRequest.interactiveExec)
        (x := codec.interactiveExec.fromSlice header)).mp h
      rfl

theorem DataStreamKind.tryFrom_asByte (kind : DataStreamKind) :
    DataStreamKind.tryFrom kind.asByte = .ok kind := by
  cases kind <;> rfl

theorem DataStreamKind.tryFrom_eq_ok {value : Byte} {kind : DataStreamKind}
    (h : DataStreamKind.tryFrom value = .ok kind) : value = kind.asByte := by
  apply Fin.ext
  unfold DataStreamKind.tryFrom at h
  split at h
  next hvalue => cases h; exact hvalue
  next hvalue => cases h; exact hvalue
  next => cases h

/-- A request which is written has its header behind its kind, no flags and its length. -/
theorem writeDataRequest_eq_ok (h : writeDataRequest codec request = .ok wire) :
    ∃ header, codec.toVec request = .ok header ∧
      wire = dataMagic ++ [request.kind.asByte] ++ [byte 0] ++ beBytes 2 header.length ++ header ∧
      header.length ≠ 0 ∧ header.length ≤ maxDataHeader := by
  unfold writeDataRequest at h
  split at h
  next => cases h
  next header hheader =>
    split at h
    next => cases h
    next hempty =>
      split at h
      next => cases h
      next hlarge =>
        refine ⟨header, hheader, (Except.ok.inj h).symm, fun hzero => ?_, Nat.le_of_not_lt hlarge⟩
        exact hempty (List.isEmpty_iff.mpr (List.length_eq_zero_iff.mp hzero))

theorem length_dataMagic : dataMagic.length = 4 := rfl

theorem maxDataHeader_lt : maxDataHeader < 256 ^ 2 := by decide

/-- A request which is written is read back, however the stream is cut; what follows it is
left to the proxied connection. -/
theorem request_read_back (hcodec : codec.Faithful) (h : writeDataRequest codec request = .ok wire)
    (chunk : List Byte) (chunks : List (List Byte))
    (hchunks : (chunk :: chunks).flatten = wire ++ rest) :
    (readDataRequest codec).feedChunks (chunk :: chunks) = (.done (.ok request), rest) := by
  obtain ⟨header, hheader, rfl, hzero, hle⟩ := writeDataRequest_eq_ok h
  have hlength : ofBeBytes (beBytes 2 header.length) = header.length :=
    ofBeBytes_beBytes (hle.trans_lt maxDataHeader_lt)
  rw [Reader.feedChunks_cons, hchunks]
  simp only [List.append_assoc]
  rw [readDataRequest, Reader.feed_take length_dataMagic]
  simp only [ne_eq, not_true_eq_false, if_false]
  rw [Reader.feed_take List.length_singleton]
  simp only [List.headD_cons, DataStreamKind.tryFrom_asByte]
  rw [readDataHeader, Reader.feed_take List.length_singleton,
    Reader.feed_take (length_beBytes 2 _)]
  simp only [hlength, if_neg hzero, if_neg (Nat.not_lt.mpr hle)]
  rw [Reader.feed_take rfl, hcodec.fromSlice_eq hheader]
  rfl

def sampleRequest : TcpProxyRequest :=
  { fence := { workloadId := 1, assignmentId := 2, generation := 3 }, service := "web",
    port := "http", replica := none }

def sampleHeader : List Byte :=
  ascii ("\x7b\"workloadId\":\"00000000-0000-0000-0000-000000000001\"," ++
    "\"assignmentId\":\"00000000-0000-0000-0000-000000000002\",\"generation\":3," ++
    "\"service\":\"web\",\"port\":\"http\"\x7d")

def sampleCodec : RequestCodec :=
  { tcpProxy := .known sampleRequest sampleHeader,
    interactiveExec := ⟨fun _ => .error "unknown value", fun _ => .error "unknown text"⟩ }

theorem writeDataRequest_sample :
    writeDataRequest sampleCodec (.tcpProxy sampleRequest) =
      .ok (dataMagic ++ [byte 1] ++ [byte 0] ++ beBytes 2 sampleHeader.length ++ sampleHeader) := by
  decide +kernel

/-- A request which arrives in two chunks, with the first bytes of the connection behind it. -/
theorem request_read_back_sample :
    (readDataRequest sampleCodec).feedChunks [dataMagic ++ [byte 1],
        [byte 0] ++ beBytes 2 sampleHeader.length ++ sampleHeader ++ ascii "GET"] =
      (.done (.ok (.tcpProxy sampleRequest)), ascii "GET") :=
  @request_read_back sampleCodec (.tcpProxy sampleRequest) _ (ascii "GET")
    ⟨JsonCodec.faithful_known _ _, fun _ _ h => (nomatch h)⟩ writeDataRequest_sample _ _
    (by simp only [List.flatten_cons, List.flatten_nil, List.append_assoc, List.append_nil])

/-- A status is one byte, and is read back. -/
theorem status_read_back (status : DataStatus) (rest : List Byte) :
    readDataStatus.feed (status.write ++ rest) = (.done (.ok status), rest) := by
  rw [readDataStatus, DataStatus.write, Reader.feed_take List.length_singleton]
  cases status <;> rfl

theorem bounded_readDataRequest (codec : RequestCodec) :
    (readDataRequest codec).Bounded maxDataHeader := by
  refine ⟨by decide, fun magic _ => ?_⟩
  dsimp only
  split
  next => trivial
  next =>
    refine ⟨by decide, fun value _ => ?_⟩
    dsimp only
    split
    next => trivial
    next kind _ =>
      refine ⟨by decide, fun _ _ => ⟨by decide, fun bytes _ => ?_⟩⟩
      dsimp only
      split
      next => trivial
      next =>
        split
        next => trivial
        next hlarge =>
          refine ⟨Nat.le_of_not_lt hlarge, fun header _ => ?_⟩
          dsimp only
          split <;> trivial

theorem accepted_header {kind : DataStreamKind} {buffer : List Byte}
    (h : (readDataHeader codec kind).feed buffer = (.done (.ok request), rest)) :
    ∃ flags header, buffer = [flags] ++ beBytes 2 header.length ++ header ++ rest ∧
      0 < header.length ∧ header.length ≤ maxDataHeader ∧
      codec.fromSlice kind header = .ok request := by
  obtain ⟨flags, left, hbuffer, hflags, h⟩ := Reader.feed_take_eq_done h
  obtain ⟨flags, rfl⟩ := List.length_eq_one_iff.mp hflags
  obtain ⟨bytes, left', hleft, hbytes, h⟩ := Reader.feed_take_eq_done h
  dsimp only at h
  split at h
  next => cases (Reader.feed_done_eq h).1
  next hzero =>
    split at h
    next => cases (Reader.feed_done_eq h).1
    next hlarge =>
      obtain ⟨header, left'', hleft', hheader, h⟩ := Reader.feed_take_eq_done h
      cases hdecoded : codec.fromSlice kind header with
      | error message =>
          rw [hdecoded] at h
          cases (Reader.feed_done_eq h).1
      | ok decoded =>
          rw [hdecoded] at h
          obtain ⟨heq, rfl⟩ := Reader.feed_done_eq h
          obtain rfl := Except.ok.inj heq
          rw [← hheader] at hzero hlarge
          refine ⟨flags, header, ?_, Nat.pos_of_ne_zero hzero, Nat.le_of_not_lt hlarge, hdecoded⟩
          rw [hbuffer, hleft, hleft', hheader, ← hbytes, beBytes_ofBeBytes]
          simp only [List.append_assoc]

/-- A request which was accepted stood in the stream behind the magic, its kind, some flags and
its length, which was within the limit; nothing else was taken from the stream. -/
theorem accepted_request {chunks : List (List Byte)}
    (h : (readDataRequest codec).feedChunks chunks = (.done (.ok request), rest)) :
    ∃ flags header, chunks.flatten = dataMagic ++ [request.kind.asByte] ++ [flags] ++
        beBytes 2 header.length ++ header ++ rest ∧
      0 < header.length ∧ header.length ≤ maxDataHeader ∧
      codec.fromSlice request.kind header = .ok request := by
  cases chunks with
  | nil => cases h
  | cons chunk chunks =>
    rw [Reader.feedChunks_cons] at h
    obtain ⟨magic, left, hstream, -, h⟩ := Reader.feed_take_eq_done h
    split at h
    next => cases (Reader.feed_done_eq h).1
    next hmagic =>
      obtain ⟨value, left', hleft, hvalue, h⟩ := Reader.feed_take_eq_done h
      obtain ⟨value, rfl⟩ := List.length_eq_one_iff.mp hvalue
      cases hkind : DataStreamKind.tryFrom value with
      | error error =>
          rw [List.headD_cons, hkind] at h
          cases (Reader.feed_done_eq h).1
      | ok kind =>
          rw [List.headD_cons, hkind] at h
          obtain ⟨flags, header, hleft', hpos, hle, hdecoded⟩ := accepted_header h
          obtain rfl := DataStreamKind.tryFrom_eq_ok hkind
          obtain rfl := RequestCodec.kind_of_fromSlice hdecoded
          refine ⟨flags, header, ?_, hpos, hle, hdecoded⟩
          rw [hstream, hleft, hleft', Classical.not_not.mp hmagic]
          simp only [List.append_assoc]

/-- Whatever a peer sends, and however it arrives: the reader never waits for more than the
limit of a header at a time, and a request which it hands out stood in the stream behind the
magic, its own kind and its length, with nothing else taken from the stream. -/
theorem hostile_request (codec : RequestCodec) (chunks : List (List Byte)) :
    ((readDataRequest codec).feedChunks chunks).1.Bounded maxDataHeader ∧
      ∀ request rest, (readDataRequest codec).feedChunks chunks = (.done (.ok request), rest) →
        ∃ flags header, chunks.flatten = dataMagic ++ [request.kind.asByte] ++ [flags] ++
            beBytes 2 header.length ++ header ++ rest ∧
          0 < header.length ∧ header.length ≤ maxDataHeader ∧
          codec.fromSlice request.kind header = .ok request :=
  ⟨(bounded_readDataRequest codec).feedChunks chunks, fun _ _ => accepted_request⟩

end DataRequests

section Separation

variable {α : Type} {control : JsonCodec α} {data : RequestCodec} {chunks : List (List Byte)}

/-- The magic is a length far above the limit of a control frame. -/
theorem maxControlFrame_lt_dataMagic : maxControlFrame < ofBeBytes dataMagic := by decide

theorem feed_readDataRequest_of_ne {magic rest : List Byte} (hlength : magic.length = 4)
    (hmagic : magic ≠ dataMagic) :
    (readDataRequest data).feed (magic ++ rest) = (.done (.error .invalidMagic), rest) := by
  rw [readDataRequest, Reader.feed_take hlength, if_pos hmagic]
  rfl

theorem feed_readJsonFrameCounted_dataMagic (rest : List Byte) :
    (readJsonFrameCounted control).feed (dataMagic ++ rest) =
      (.done (.error (.tooLarge (ofBeBytes dataMagic) maxControlFrame)), rest) := by
  have hzero : ofBeBytes dataMagic ≠ 0 := Nat.ne_zero_of_lt maxControlFrame_lt_dataMagic
  rw [readJsonFrameCounted, Reader.feed_take length_dataMagic]
  dsimp only
  rw [if_neg hzero, if_pos maxControlFrame_lt_dataMagic]
  rfl

/-- The two wires cannot be taken for each other: a stream from which the control reader takes
a value has no magic, and the data reader refuses it at its fourth byte; a stream from which the
data reader takes a request begins with too large a length, and the control reader refuses it at
its fourth byte. -/
theorem wires_separate (control : JsonCodec α) (data : RequestCodec) (chunks : List (List Byte)) :
    (∀ value rest, (readJsonFrameCounted control).feedChunks chunks = (.done (.ok value), rest) →
      (readDataRequest data).feedChunks chunks =
        (.done (.error .invalidMagic), chunks.flatten.drop 4)) ∧
    ∀ request rest, (readDataRequest data).feedChunks chunks = (.done (.ok request), rest) →
      (readJsonFrameCounted control).feedChunks chunks =
        (.done (.error (.tooLarge (ofBeBytes dataMagic) maxControlFrame)),
          chunks.flatten.drop 4) := by
  cases chunks with
  | nil => exact ⟨fun _ _ h => (nomatch h), fun _ _ h => (nomatch h)⟩
  | cons chunk chunks =>
    constructor
    · rintro ⟨value, length⟩ rest h
      obtain ⟨payload, hstream, -, -, hle, -⟩ := accepted_frame h
      have hlength : (beBytes 4 length).length = 4 := length_beBytes 4 length
      have hmagic : beBytes 4 length ≠ dataMagic := by
        intro heq
        have hread : ofBeBytes dataMagic = length := by
          rw [← heq, ofBeBytes_beBytes (hle.trans_lt maxControlFrame_lt)]
        exact absurd hle (Nat.not_le.mpr (hread ▸ maxControlFrame_lt_dataMagic))
      rw [Reader.feedChunks_cons, hstream, List.append_assoc,
        feed_readDataRequest_of_ne hlength hmagic, List.drop_left' hlength]
    · intro request rest h
      obtain ⟨flags, header, hstream, -, -, -⟩ := accepted_request h
      rw [Reader.feedChunks_cons, hstream]
      simp only [List.append_assoc]
      rw [feed_readJsonFrameCounted_dataMagic, List.drop_left' length_dataMagic]

end Separation

end Worker

end Rsctf
