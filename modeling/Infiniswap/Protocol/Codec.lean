/-
# The codec of the control protocol

`is_protocol_encode` computes the size of the payload with one function and
writes it with another; `is_protocol_decode` reads a frame by position. The
encoder writes its fields one after the other, so its frame is a list of fields.
The decoder runs on a byte string whose length is the frame size it was given,
and on arrays of the sizes the message declares: a read outside the string, an
entry written outside its array and an identifier that leaves no room for its
terminator are faults.
-/
import Infiniswap.Protocol.Message

namespace Infiniswap
namespace Protocol

open Bytes

/-! ### Sizes -/

def helloFixedSize : ℕ := 40

def challengeSize : ℕ := 36

def acceptSize : ℕ := 4

def statusSize : ℕ := 16

def chunkRequestSize : ℕ := 12

def chunkListHeaderSize : ℕ := 4

def chunkSize : ℕ := 24

def chunkIdSize : ℕ := 4

def activitySize : ℕ := 12

def errorSize : ℕ := 8

/-- The size of a list of chunks, if the checks of its entries pass. -/
def countedSize {α : Type} [Inhabited α] (size : ℕ) (valid : α → Bool) (clash : α → α → Bool)
    (c : Counted α) : Except ProtocolResult ℕ :=
  if chunkCountValid c.chunkCount && entriesValid valid clash [] c.entries then
    .ok (chunkListHeaderSize + size * c.chunkCount.toNat)
  else .error .invalidPayload

/-- `is_payload_size`, with the lengths of the identifiers of a HELLO. -/
def payloadSize (current : ℕ) (m : Message) : Except ProtocolResult (ℕ × ℕ × ℕ) :=
  match MessageType.ofCode m.header.type with
  | some .hello =>
    match validateHello m.payload.hello with
    | .error e => .error e
    | .ok (consumerLength, keyLength) =>
      .ok (helloFixedSize + consumerLength + keyLength, consumerLength, keyLength)
  | some .challenge =>
    if minorValid current m.payload.challenge.negotiatedMinor then .ok (challengeSize, 0, 0)
    else .error .invalidPayload
  | some .auth => .ok (authTagSize, 0, 0)
  | some .accept =>
    if minorValid current m.payload.accept.negotiatedMinor then .ok (acceptSize, 0, 0)
      else .error .invalidPayload
  | some .statusRequest | some .goodbye => .ok (0, 0, 0)
  | some .statusResponse =>
    if deadlineValid m.payload.status.providerFailureDeadlineMs then .ok (statusSize, 0, 0)
    else .error .invalidPayload
  | some .chunkRequest =>
    if chunkRequestValid m.payload.chunkRequest then .ok (chunkRequestSize, 0, 0)
      else .error .invalidPayload
  | some .chunkGrant => (countedSize chunkSize Chunk.valid Chunk.clash m.payload.chunkGrant).map (·, 0, 0)
  | some .evict | some .release =>
    (countedSize chunkIdSize (fun _ => true)
      (fun id seen => decide (seen = id)) m.payload.chunkIds).map (·, 0, 0)
  | some .activity =>
    (countedSize activitySize (fun _ => true) ChunkActivity.clash m.payload.activity).map (·, 0, 0)
  | some .error => if m.payload.error.valid then .ok (errorSize, 0, 0) else .error .invalidPayload
  | none => .error .unknownMessage

/-! ### Encoding -/

/-- `is_encode_header`. -/
def encodeHeader (h : Header) (payloadSize : ℕ) : List UInt8 :=
  putU32 magic ++ (putU16 h.major ++ (putU16 h.minor ++ (putU16 h.type ++
    (putU16 h.flags ++ (putU32 (UInt32.ofNat payloadSize) ++ (putU64 h.requestId ++
    (putU64 h.sessionId ++ (putU64 h.capabilities ++ putU64 h.requiredCapabilities))))))))

def encodeChunk (c : Chunk) : List UInt8 :=
  putU32 c.logicalChunkId ++ (putU32 c.providerChunkId ++
    (putU64 c.remoteAddress ++ (putU32 c.remoteKey ++ [c.pool, 0, 0, 0])))

def encodeActivity (a : ChunkActivity) : List UInt8 := putU32 a.providerChunkId ++ putU64 a.activity

/-- A count, a reserved field and the entries. -/
def encodeCounted {α : Type} [Inhabited α] (put : α → List UInt8) (c : Counted α) : List UInt8 :=
  putU16 c.chunkCount ++ (putU16 0 ++ c.entries.flatMap put)

/-- `is_encode_payload`. -/
def encodePayload (m : Message) (consumerLength keyLength : ℕ) : List UInt8 :=
  match MessageType.ofCode m.header.type with
  | some .hello =>
    [UInt8.ofNat consumerLength, UInt8.ofNat keyLength,
      m.payload.hello.mode, m.payload.hello.pool] ++ (putU32 m.payload.hello.failureDeadlineMs ++
      (m.payload.hello.nonce.toList ++ (m.payload.hello.consumerId.toList.take consumerLength ++
      m.payload.hello.keyId.toList.take keyLength)))
  | some .challenge =>
    m.payload.challenge.nonce.toList ++ (putU16 m.payload.challenge.negotiatedMinor ++ putU16 0)
  | some .auth => m.payload.auth.tag.toList
  | some .accept => putU16 m.payload.accept.negotiatedMinor ++ putU16 0
  | some .statusResponse =>
    putU32 m.payload.status.availableOpportunisticChunks ++
      (putU32 m.payload.status.availableCommittedChunks ++
      (putU32 m.payload.status.providerFailureDeadlineMs ++ putU32 m.payload.status.flags))
  | some .chunkRequest =>
    putU32 m.payload.chunkRequest.chunkCount ++ (putU32 m.payload.chunkRequest.logicalStart ++
      [m.payload.chunkRequest.pool, 0, 0, 0])
  | some .chunkGrant => encodeCounted encodeChunk m.payload.chunkGrant
  | some .evict | some .release => encodeCounted putU32 m.payload.chunkIds
  | some .activity => encodeCounted encodeActivity m.payload.activity
  | some .error =>
    putU16 m.payload.error.code ++
      (putU16 m.payload.error.offendingType ++ [m.payload.error.retryable, 0, 0, 0])
  | some .statusRequest | some .goodbye | none => []

/-- `is_protocol_encode`: the frame size it reports and the bytes it writes. -/
def encode (current : ℕ) (m : Message) (capacity : ℕ) : Except ProtocolResult (ℕ × List UInt8) :=
  match validateHeader current m.header with
  | .error e => .error e
  | .ok () =>
    match payloadSize current m with
    | .error e => .error e
    | .ok (size, consumerLength, keyLength) =>
      if size > maxFrameSize - headerSize then .error .oversized
      else if capacity < headerSize + size then .error .bufferTooSmall
      else .ok (headerSize + size, encodeHeader m.header size ++ encodePayload m consumerLength keyLength)

/-! ### Decoding -/

/-- A check that passes or ends the computation. -/
def require (b : Bool) : Checked ProtocolResult Unit := if b then .ok () else .error .invalidPayload

def ofExcept {α : Type} : Except ProtocolResult α → Checked ProtocolResult α
  | .error e => .error e
  | .ok a => .ok a

/-- `is_decode_header`: the header and the payload size. -/
def decodeHeader (current : ℕ) (frame : List UInt8) : Checked ProtocolResult (Header × ℕ) :=
  if frame.length < headerSize then .error .truncated
  else do
    if (← readU32 frame 0) ≠ magic then .error .badMagic
    else
      let major ← readU16 frame 4
      let minor ← readU16 frame 6
      let type ← readU16 frame 8
      let flags ← readU16 frame 10
      let payloadSize ← readU32 frame 12
      let requestId ← readU64 frame 16
      let sessionId ← readU64 frame 24
      let capabilities ← readU64 frame 32
      let requiredCapabilities ← readU64 frame 40
      let h : Header :=
        ⟨major, minor, type, flags, requestId, sessionId, capabilities, requiredCapabilities⟩
      if payloadSize.toNat > maxFrameSize - headerSize then .error .oversized
      else if payloadSize.toNat > frame.length - headerSize then .error .truncated
      else if payloadSize.toNat < frame.length - headerSize then .error .trailingData
      else do
        ofExcept (validateHeader current h)
        pure (h, payloadSize.toNat)

/-- `is_require_payload_size`. -/
def requirePayloadSize (actual expected : ℕ) : Checked ProtocolResult Unit := require (actual = expected)

/-- `is_counted_payload_size`. -/
def countedPayloadSize (actual : ℕ) (count : UInt16) (size : ℕ) : Checked ProtocolResult Unit :=
  if count = 0 then .error .invalidPayload
  else if count.toNat > (maxFrameSize - chunkListHeaderSize) / size then .error .integerOverflow
  else if count.toNat > maxChunksPerFrame then .error .invalidPayload
  else requirePayloadSize actual (chunkListHeaderSize + count.toNat * size)

/-- `memcpy` into a zeroed `char` array of size `n`; a string that leaves no terminator is a fault. -/
def copyString (payload : List UInt8) (p length n : ℕ) : Checked ProtocolResult (Vector UInt8 n) := do
  let bytes ← readBytes payload p length
  if length < n then pure (pad n bytes) else .fault

/-- `memcpy` of a whole array. -/
def copyArray (payload : List UInt8) (p n : ℕ) : Checked ProtocolResult (Vector UInt8 n) := do
  return pad n (← readBytes payload p n)

/-- `is_decode_hello`. -/
def decodeHello (payload : List UInt8) (size : ℕ) : Checked ProtocolResult Hello :=
  if size < helloFixedSize then .error .invalidPayload
  else do
    let consumerLength := (← read payload 0).toNat
    let keyLength := (← read payload 1).toNat
    if consumerLength = 0 ∨ consumerLength > consumerIdMax ∨ keyLength = 0 ∨ keyLength > keyIdMax ∨
        consumerLength + keyLength ≠ size - helloFixedSize then .error .invalidPayload
    else
      let mode ← read payload 2
      let pool ← read payload 3
      let deadline ← readU32 payload 4
      let nonce ← copyArray payload 8 32
      let consumerId ← copyString payload helloFixedSize consumerLength 64
      let keyId ← copyString payload (helloFixedSize + consumerLength) keyLength 32
      let hello : Hello := ⟨consumerId, keyId, nonce, mode, pool, deadline⟩
      let _ ← ofExcept (validateHello hello)
      pure hello

/-- The loop over the entries of a list of chunks: entry `seen.length` is read into its array,
checked, and compared with those before it. -/
def decodeEntries {α : Type} (entry : ℕ → Checked ProtocolResult α) (clash : α → α → Bool) :
    ℕ → List α → Checked ProtocolResult (List α)
  | 0, seen => .ok seen
  | n + 1, seen =>
    if seen.length < maxChunksPerFrame then do
      let e ← entry seen.length
      require (!seen.any (clash e))
      decodeEntries entry clash n (seen ++ [e])
    else .fault

/-- A list of chunks: `is_decode_chunk_ids` and the like. -/
def decodeCounted {α : Type} [Inhabited α] (entrySize : ℕ)
    (entry : List UInt8 → ℕ → Checked ProtocolResult α) (clash : α → α → Bool)
    (payload : List UInt8) (size : ℕ) : Checked ProtocolResult (Counted α) :=
  if size < chunkListHeaderSize then .error .invalidPayload
  else do
    let count ← readU16 payload 0
    require (← readZero payload 2 2)
    countedPayloadSize size count entrySize
    let es ← decodeEntries (fun i => entry payload (chunkListHeaderSize + i * entrySize)) clash
      count.toNat []
    pure ⟨count, pad 128 es⟩

def decodeChunk (payload : List UInt8) (p : ℕ) : Checked ProtocolResult Chunk := do
  let logicalChunkId ← readU32 payload p
  let providerChunkId ← readU32 payload (p + 4)
  let remoteAddress ← readU64 payload (p + 8)
  let remoteKey ← readU32 payload (p + 16)
  let pool ← read payload (p + 20)
  let c : Chunk := ⟨logicalChunkId, providerChunkId, remoteAddress, remoteKey, pool⟩
  let reserved ← readZero payload (p + 21) 3
  require (reserved && c.valid)
  pure c

def decodeActivity (payload : List UInt8) (p : ℕ) : Checked ProtocolResult ChunkActivity := do
  let providerChunkId ← readU32 payload p
  let activity ← readU64 payload (p + 4)
  pure ⟨providerChunkId, activity⟩

def decodeChallenge (current : ℕ) (payload : List UInt8) (size : ℕ) :
    Checked ProtocolResult Challenge := do
  requirePayloadSize size challengeSize
  let nonce ← copyArray payload 0 32
  require (← readZero payload 34 2)
  let minor ← readU16 payload 32
  require (minorValid current minor)
  pure ⟨nonce, minor⟩

def decodeAccept (current : ℕ) (payload : List UInt8) (size : ℕ) : Checked ProtocolResult Accept := do
  requirePayloadSize size acceptSize
  require (← readZero payload 2 2)
  let minor ← readU16 payload 0
  require (minorValid current minor)
  pure ⟨minor⟩

def decodeStatus (payload : List UInt8) (size : ℕ) : Checked ProtocolResult Status := do
  requirePayloadSize size statusSize
  let opportunistic ← readU32 payload 0
  let committed ← readU32 payload 4
  let deadline ← readU32 payload 8
  let flags ← readU32 payload 12
  require (deadlineValid deadline)
  pure ⟨opportunistic, committed, deadline, flags⟩

def decodeChunkRequest (payload : List UInt8) (size : ℕ) : Checked ProtocolResult ChunkRequest := do
  requirePayloadSize size chunkRequestSize
  let chunkCount ← readU32 payload 0
  let logicalStart ← readU32 payload 4
  let pool ← read payload 8
  require (← readZero payload 9 3)
  let r : ChunkRequest := ⟨chunkCount, logicalStart, pool⟩
  require (chunkRequestValid r)
  pure r

def decodeError (payload : List UInt8) (size : ℕ) : Checked ProtocolResult Error := do
  requirePayloadSize size errorSize
  let code ← readU16 payload 0
  let offendingType ← readU16 payload 2
  let retryable ← read payload 4
  require (← readZero payload 5 3)
  let e : Error := ⟨code, offendingType, retryable⟩
  require e.valid
  pure e

/-- `is_decode_payload`, into a zeroed payload. -/
def decodePayload (current : ℕ) (type : UInt16) (payload : List UInt8) (size : ℕ) :
    Checked ProtocolResult Payload :=
  match MessageType.ofCode type with
  | some .hello => do return { hello := ← decodeHello payload size }
  | some .challenge => do return { challenge := ← decodeChallenge current payload size }
  | some .auth => do
    requirePayloadSize size authTagSize
    return { auth := ⟨← copyArray payload 0 32⟩ }
  | some .accept => do return { accept := ← decodeAccept current payload size }
  | some .statusRequest | some .goodbye => do
    requirePayloadSize size 0
    return {}
  | some .statusResponse => do return { status := ← decodeStatus payload size }
  | some .chunkRequest => do return { chunkRequest := ← decodeChunkRequest payload size }
  | some .chunkGrant =>
    do return { chunkGrant := ← decodeCounted chunkSize decodeChunk Chunk.clash payload size }
  | some .evict | some .release => do
    return { chunkIds :=
      ← decodeCounted chunkIdSize readU32 (fun id seen => decide (seen = id)) payload size }
  | some .activity => do
    return { activity := ← decodeCounted activitySize decodeActivity ChunkActivity.clash payload size }
  | some .error => do return { error := ← decodeError payload size }
  | none => .error .unknownMessage

/-- `is_protocol_decode`. -/
def decode (current : ℕ) (frame : List UInt8) : Checked ProtocolResult Message :=
  if frame.length > maxFrameSize then .error .oversized
  else do
    let (h, size) ← decodeHeader current frame
    let payload ← decodePayload current h.type (frame.drop headerSize) size
    pure ⟨h, payload⟩

end Protocol
end Infiniswap
