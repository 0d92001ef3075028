import DrainFabric.Json.Reprint
import DrainFabric.Lib.Loop

/-!
# Frames on the wire

`wire.cpp`: a message is a header of 24 bytes and a JSON text, each under a checksum.

* `encodeFrame`, `decodeFrame` — one frame as bytes;
* `FrameStream.receiveFrame` — one call that waits for a frame. Bytes that are no frame yet
  stay in the buffer of the stream for the next call.

What the socket does is a list of arrivals, one for each wait: it timed out, or bytes can
be read. A read takes as many of them as fit; the rest is there for the next wait. A call
that has used up the arrivals is still waiting.
-/

namespace DrainFabric

open Lib

/-- `MessageType`. -/
inductive MessageType
  | hello | welcome | failure | drainRequest | drainResponse | statusRequest | statusResponse
  | cancelRequest | cancelResponse | restoreRequest | restoreResponse | explainRequest
  | explainResponse | obligationQuery | obligationQueryResponse | obligationAdmit
  | obligationAdmitResponse | obligationReport | obligationReportResponse | evidenceReport
  | evidenceResponse | evacuationRequest | evacuationResponse | admissionReopen
  | admissionReopenResponse | auditRequest | auditResponse | shutdown | shutdownResponse
  deriving DecidableEq, Repr

/-- `kWireProtocolVersion`. -/
def wireProtocolVersion : Nat := 1

/-- `kFrameMagic`. -/
def frameMagic : Nat := 0x44524652

/-- `kFrameHeaderBytes`. -/
def frameHeaderBytes : Nat := 24

/-- A `Frame` as it travels: its type is any value of the type of `MessageType`, which
decoding does not check. -/
structure WireFrame where
  type : UInt16
  sequence : UInt32
  payload : JsonValue

/-! ### One frame -/

/-- The header, over which its checksum goes. -/
def frameHeader (type : UInt16) (sequence : UInt32) (payload : List UInt8) : List UInt8 :=
  putU32 frameMagic ++ putU16 wireProtocolVersion ++ putU16 type.toNat ++ putU32 sequence.toNat ++
    putU32 payload.length ++ putU32 (crc32c payload).toNat

/-- The bytes of a frame. -/
def frameImage (type : UInt16) (sequence : UInt32) (payload : List UInt8) : List UInt8 :=
  frameHeader type sequence payload ++
    putU32 (crc32c (frameHeader type sequence payload)).toNat ++ payload

section

variable (reals : RealText)

/-- `encode_frame`. -/
def encodeFrame (frame : WireFrame) (maxPayloadBytes : Nat) : Result (List UInt8) := do
  let payload := bytesOf (frame.payload.dump reals)
  rejectIf (payload.length > maxPayloadBytes) .boundsExceeded
    "frame payload exceeds the configured bound"
  rejectIf (payload.length ≥ 2 ^ 32) .boundsExceeded
    "frame payload does not fit a 32-bit length field"
  return frameImage frame.type frame.sequence payload

/-- The checks of `decode_frame` before the payload is parsed. -/
def checkFrame (bytes : List UInt8) (maxPayloadBytes : Nat) : Status := do
  rejectIf (bytes.length < frameHeaderBytes) .protocolError
    "frame image is shorter than the header"
  rejectIf (getU32 bytes 0 ≠ frameMagic) .protocolError "frame magic does not match"
  rejectIf ((crc32c (bytes.take 20)).toNat ≠ getU32 bytes 20) .protocolError
    "frame header checksum does not match"
  rejectIf (getU16 bytes 4 ≠ wireProtocolVersion) .protocolError "wire protocol version mismatch"
  rejectIf (getU32 bytes 12 > maxPayloadBytes) .boundsExceeded
    "frame payload exceeds the configured bound"
  rejectIf (addChecked frameHeaderBytes (getU32 bytes 12) ≠ some bytes.length) .protocolError
    "frame length field does not match the image size"
  rejectIf ((crc32c ((bytes.drop frameHeaderBytes).take (getU32 bytes 12))).toNat ≠
    getU32 bytes 16) .protocolError "frame payload checksum does not match"

/-- `decode_frame`. -/
def decodeFrame (bytes : List UInt8) (maxPayloadBytes : Nat) : Result WireFrame := do
  checkFrame bytes maxPayloadBytes
  let text := textOf ((bytes.drop frameHeaderBytes).take (getU32 bytes 12))
  let limits : JsonLimits := { maxTotalBytes := maxPayloadBytes }
  let payload ← (jsonParse reals text limits).mapError (fun err =>
    ⟨.protocolError, "frame payload is not valid json: " ++ err.message⟩)
  return { type := UInt16.ofNat (getU16 bytes 6), sequence := UInt32.ofNat (getU32 bytes 8)
           payload }

end

/-! ### The stream -/

/-- What one wait for the socket, and the read that follows it, comes to. -/
inductive Arrival
  /-- The wait timed out. -/
  | timedOut
  /-- The wait failed. -/
  | failed (error : String)
  /-- These bytes can be read; when there are none, the peer has closed the connection. -/
  | readable (bytes : List UInt8)
  /-- The read fails. -/
  | unreadable (error : String)

/-- The bytes that arrive. -/
def arrived : List Arrival → List UInt8
  | [] => []
  | .readable bytes :: rest => bytes ++ arrived rest
  | _ :: rest => arrived rest

/-- `StreamOutcome`, with the frame or the text of the error. -/
inductive StreamOutcome
  | frame (frame : WireFrame)
  | timedOut (error : String)
  | closed (error : String)
  | failed (error : String)
  | protocolError (error : String)

/-- `FrameStream`. The buffer is a vector of `size` bytes, of which the first ones are
`buffered`. -/
structure FrameStream where
  maxPayloadBytes : Nat
  valid : Bool := true
  size : Nat := 0
  buffered : List UInt8 := []
  closed : Bool := false

/-- What a call returns, and what it leaves. -/
structure Received where
  outcome : StreamOutcome
  stream : FrameStream
  arrivals : List Arrival

/-- The state of a call between two rounds of its loop. -/
structure Receiving where
  stream : FrameStream
  remaining : Int
  arrivals : List Arrival

/-- How a call ends that returns nothing. -/
inductive NoOutcome
  /-- It is still waiting. -/
  | waiting
  /-- `std::length_error`: the buffer is asked for a size that no vector has. -/
  | lengthError

namespace FrameStream

variable (reals : RealText)

/-- The size the buffer is given; the sum is not checked, and wraps around. -/
def capacity (s : FrameStream) : Nat := (frameHeaderBytes + s.maxPayloadBytes) % 2 ^ 64

/-- `max_size()` of a `std::vector` of bytes. -/
def maxBufferBytes : Nat := 2 ^ 63 - 1

/-- The buffer has its size from the first call on. -/
def resize (s : FrameStream) : Except NoOutcome FrameStream :=
  if s.size < s.capacity then
    if s.capacity > maxBufferBytes then .error .lengthError
    else .ok { s with size := s.capacity }
  else .ok s

/-- The frame at the start of the buffer, if it is complete. -/
def takeFrame (s : FrameStream) : Option (StreamOutcome × FrameStream) :=
  if s.buffered.length < frameHeaderBytes then none
  else if getU32 s.buffered 12 > s.maxPayloadBytes then
    some (.protocolError "peer announced an oversized frame", { s with closed := true })
  else
    let total := frameHeaderBytes + getU32 s.buffered 12
    if s.buffered.length < total then none
    else
      match decodeFrame reals (s.buffered.take total) s.maxPayloadBytes with
      | .error err => some (.protocolError err.message, { s with closed := true })
      | .ok frame => some (.frame frame, { s with buffered := s.buffered.drop total })

/-- The milliseconds of one wait. -/
def waitSlice (waitMs : Int) : Int :=
  if waitMs ≤ 0 then 1 else if waitMs > 50 then 50 else waitMs

/-- The most bytes `receive_some` asks for at once. -/
def receiveSomeBytes : Nat := 2 ^ 20

/-- What is left of the bytes for the next wait. -/
def putBack (bytes : List UInt8) (rest : List Arrival) : List Arrival :=
  if bytes = [] then rest else .readable bytes :: rest

/-- The stream is closed with an error. -/
def give (outcome : StreamOutcome) (c : Receiving) (rest : List Arrival) :
    Except NoOutcome (Receiving ⊕ Received) :=
  .ok (.inr { outcome, stream := { c.stream with closed := true }, arrivals := rest })

/-- A read when the socket is readable. -/
def receiveSome (c : Receiving) (bytes : List UInt8) (rest : List Arrival) :
    Except NoOutcome (Receiving ⊕ Received) :=
  let count := min (c.stream.size - c.stream.buffered.length) receiveSomeBytes
  if bytes = [] then give (.closed "peer closed the connection") c rest
  else
    .ok (.inl { c with
      stream := { c.stream with buffered := c.stream.buffered ++ bytes.take count }
      arrivals := putBack (bytes.drop count) rest })

/-- One round of the loop of `receive_frame`. -/
def receiveRound (waitMs : Int) (c : Receiving) : Except NoOutcome (Receiving ⊕ Received) :=
  match c.stream.takeFrame reals with
  | some (outcome, stream) => .ok (.inr { outcome, stream, arrivals := c.arrivals })
  | none =>
    if 0 ≤ waitMs ∧ c.remaining ≤ 0 then
      .ok (.inr { outcome := .timedOut "no complete frame within the wait budget"
                  stream := c.stream, arrivals := c.arrivals })
    else
      match c.arrivals with
      | [] => .error .waiting
      | .timedOut :: rest =>
        let remaining := if 0 ≤ waitMs then c.remaining - waitSlice waitMs else c.remaining
        .ok (.inl { c with remaining, arrivals := rest })
      | .failed error :: rest =>
        let error := if error = "" then "socket closed while waiting for a frame" else error
        give (.closed error) c rest
      | .readable bytes :: rest =>
        if c.stream.size - c.stream.buffered.length = 0 then
          give (.protocolError "frame buffer exhausted") c (.readable bytes :: rest)
        else receiveSome c bytes rest
      | .unreadable error :: rest =>
        if c.stream.size - c.stream.buffered.length = 0 then
          give (.protocolError "frame buffer exhausted") c (.unreadable error :: rest)
        else give (.failed error) c rest

/-- How many rounds the arrivals can take. -/
def rounds : List Arrival → Nat
  | [] => 1
  | .readable bytes :: rest => bytes.length + rounds rest + 1
  | _ :: rest => rounds rest + 1

/-- `receive_frame`. -/
def receiveFrame (s : FrameStream) (waitMs : Int) (arrivals : List Arrival) :
    Except NoOutcome Received :=
  if s.closed then .ok { outcome := .closed "stream is closed", stream := s, arrivals }
  else if s.valid = false then
    .ok { outcome := .closed "stream has no socket", stream := s, arrivals }
  else do
    let stream ← s.resize
    loop (receiveRound reals waitMs) .waiting (rounds arrivals)
      { stream, remaining := waitMs, arrivals }

end FrameStream

/-! ### What is decoded -/

section

variable {reals : RealText} {frame : WireFrame} {type : UInt16} {sequence : UInt32}
  {payload bytes : List UInt8} {maxPayloadBytes : Nat}

theorem length_frameHeader : (frameHeader type sequence payload).length = 20 := by
  simp [frameHeader, putU16, putU32]

theorem length_frameImage :
    (frameImage type sequence payload).length = frameHeaderBytes + payload.length := by
  simp only [frameImage, List.length_append, length_frameHeader, putU32, length_putUint,
    frameHeaderBytes]

theorem encodeFrame_eq_ok :
    encodeFrame reals frame maxPayloadBytes = .ok bytes ↔
      (frame.payload.dump reals).length ≤ maxPayloadBytes ∧
      (frame.payload.dump reals).length < 2 ^ 32 ∧
      bytes = frameImage frame.type frame.sequence (bytesOf (frame.payload.dump reals)) := by
  have hlength : (bytesOf (frame.payload.dump reals)).length = (frame.payload.dump reals).length :=
    List.length_map _
  simp only [encodeFrame, bind_eq_ok, rejectIf_eq_ok, pure_eq_ok, hlength, exists_const]
  rw [Nat.not_lt, Nat.not_le]
  exact ⟨fun ⟨h, h', h''⟩ => ⟨h, h', h''.symm⟩, fun ⟨h, h', h''⟩ => ⟨h, h', h''.symm⟩⟩

/-- The checks of `decode_frame`. -/
structure FrameChecked (bytes : List UInt8) (maxPayloadBytes : Nat) : Prop where
  long : frameHeaderBytes ≤ bytes.length
  magic : getU32 bytes 0 = frameMagic
  headerCrc : (crc32c (bytes.take 20)).toNat = getU32 bytes 20
  version : getU16 bytes 4 = wireProtocolVersion
  bounded : getU32 bytes 12 ≤ maxPayloadBytes
  total : addChecked frameHeaderBytes (getU32 bytes 12) = some bytes.length
  payloadCrc : (crc32c ((bytes.drop frameHeaderBytes).take (getU32 bytes 12))).toNat =
    getU32 bytes 16

theorem checkFrame_eq_ok :
    checkFrame bytes maxPayloadBytes = .ok () ↔ FrameChecked bytes maxPayloadBytes := by
  simp only [checkFrame, bind_eq_ok, rejectIf_eq_ok, exists_const, not_not, ne_eq]
  constructor
  · rintro ⟨hlong, hmagic, hheader, hversion, hbounded, htotal, hpayload⟩
    exact ⟨Nat.not_lt.mp hlong, hmagic, hheader, hversion, Nat.not_lt.mp hbounded, htotal, hpayload⟩
  · rintro ⟨hlong, hmagic, hheader, hversion, hbounded, htotal, hpayload⟩
    exact ⟨Nat.not_lt.mpr hlong, hmagic, hheader, hversion, Nat.not_lt.mpr hbounded, htotal,
      hpayload⟩

/-- The payload of a frame that passed the checks. -/
def framePayload (bytes : List UInt8) : List Char :=
  textOf ((bytes.drop frameHeaderBytes).take (getU32 bytes 12))

theorem decodeFrame_eq_ok :
    decodeFrame reals bytes maxPayloadBytes = .ok frame ↔
      FrameChecked bytes maxPayloadBytes ∧
      jsonParse reals (framePayload bytes) { maxTotalBytes := maxPayloadBytes } =
        .ok frame.payload ∧
      frame.type = UInt16.ofNat (getU16 bytes 6) ∧
      frame.sequence = UInt32.ofNat (getU32 bytes 8) := by
  obtain ⟨type, sequence, value⟩ := frame
  simp only [decodeFrame, bind_eq_ok, pure_eq_ok, mapError_eq_ok, WireFrame.mk.injEq]
  constructor
  · rintro ⟨_, hchecked, found, hparse, rfl, rfl, rfl⟩
    exact ⟨checkFrame_eq_ok.mp hchecked, hparse, rfl, rfl⟩
  · rintro ⟨hchecked, hparse, rfl, rfl⟩
    exact ⟨(), checkFrame_eq_ok.mpr hchecked, value, hparse, rfl, rfl, rfl⟩

theorem FrameChecked.length_eq (h : FrameChecked bytes maxPayloadBytes) :
    bytes.length = frameHeaderBytes + getU32 bytes 12 := by
  have htotal := h.total
  rw [addChecked] at htotal
  split_ifs at htotal
  exact (Option.some.inj htotal).symm

/-- The fields of a frame are found where the decoder looks for them, whatever follows. -/
structure FrameRead (bytes : List UInt8) (type : UInt16) (sequence : UInt32)
    (payload : List UInt8) : Prop where
  magic : getU32 bytes 0 = frameMagic
  version : getU16 bytes 4 = wireProtocolVersion
  type : getU16 bytes 6 = type.toNat
  sequence : getU32 bytes 8 = sequence.toNat
  length : getU32 bytes 12 = payload.length
  payloadCrc : getU32 bytes 16 = (crc32c payload).toNat

theorem frameRead_header (hlength : payload.length < 2 ^ 32) (back : List UInt8) :
    FrameRead (frameHeader type sequence payload ++ back) type sequence payload := by
  have hassoc : frameHeader type sequence payload ++ back = putUint 4 frameMagic ++
      (putUint 2 wireProtocolVersion ++ (putUint 2 type.toNat ++ (putUint 4 sequence.toNat ++
      (putUint 4 payload.length ++ (putUint 4 (crc32c payload).toNat ++ back))))) := by
    simp only [frameHeader, putU16, putU32, List.append_assoc]
  rw [hassoc]
  constructor
  all_goals
    simp (disch := simp) only [getU16, getU32, getAt_skip, length_putUint]
    refine getAt_putUint ?_ _
  · decide
  · decide
  · exact type.toNat_lt
  · exact toNat_lt_u32 _
  · exact hlength
  · exact toNat_lt_u32 _

theorem frameRead_image (hlength : payload.length < 2 ^ 32) :
    FrameRead (frameImage type sequence payload) type sequence payload := by
  rw [frameImage, List.append_assoc]
  exact frameRead_header hlength _

theorem drop_frameImage : (frameImage type sequence payload).drop frameHeaderBytes = payload := by
  refine List.drop_left' ?_
  rw [List.length_append, length_frameHeader, putU32, length_putUint]
  rfl

/-- The image of a frame passes the checks. -/
theorem frameChecked_image (hmax : payload.length ≤ maxPayloadBytes)
    (hlength : payload.length < 2 ^ 32) :
    FrameChecked (frameImage type sequence payload) maxPayloadBytes := by
  have hread : FrameRead (frameImage type sequence payload) type sequence payload :=
    frameRead_image hlength
  refine ⟨?_, hread.magic, ?_, hread.version, ?_, ?_, ?_⟩
  · rw [length_frameImage]
    exact Nat.le_add_right _ _
  · rw [frameImage, List.append_assoc, List.take_left' length_frameHeader,
      getU32_written length_frameHeader]
  · rw [hread.length]
    exact hmax
  · rw [hread.length, length_frameImage, addChecked, if_neg]
    unfold frameHeaderBytes u64Max
    omega
  · rw [hread.length, hread.payloadCrc, drop_frameImage, List.take_length]

/-- The text of a value is what the decoder parses. -/
theorem framePayload_image {value : JsonValue} (hplain : value.Plain)
    (hlength : (value.dump reals).length < 2 ^ 32) :
    framePayload (frameImage type sequence (bytesOf (value.dump reals))) = value.dump reals := by
  have hbytes : (bytesOf (value.dump reals)).length < 2 ^ 32 := by
    rw [bytesOf, List.length_map]
    exact hlength
  have htext : AllBytes (value.dump reals) := JsonValue.allBytes_dumpInto hplain
  rw [framePayload, (frameRead_image hbytes).length, drop_frameImage, List.take_length,
    textOf_bytesOf htext]

/-- A frame within the limits of the parser is decoded from its image. -/
theorem decodeFrame_image (hplain : frame.payload.Plain)
    (hwithin : frame.payload.Within { maxTotalBytes := maxPayloadBytes })
    (hmax : (frame.payload.dump reals).length ≤ maxPayloadBytes)
    (hlength : (frame.payload.dump reals).length < 2 ^ 32) :
    decodeFrame reals (frameImage frame.type frame.sequence (bytesOf (frame.payload.dump reals)))
      maxPayloadBytes = .ok { frame with payload := frame.payload.canonical } := by
  have hbytes : (bytesOf (frame.payload.dump reals)).length = (frame.payload.dump reals).length :=
    List.length_map _
  have hread : FrameRead (frameImage frame.type frame.sequence
      (bytesOf (frame.payload.dump reals))) frame.type frame.sequence
        (bytesOf (frame.payload.dump reals)) :=
    frameRead_image (hbytes ▸ hlength)
  refine decodeFrame_eq_ok.mpr ⟨?_, ?_, ?_, ?_⟩
  · exact frameChecked_image (hbytes.symm ▸ hmax) (hbytes.symm ▸ hlength)
  · rw [framePayload_image hplain hlength]
    exact jsonParse_dump hplain hwithin hmax
  · rw [hread.type, UInt16.ofNat_toNat]
  · rw [hread.sequence, UInt32.ofNat_toNat]

end

end DrainFabric
