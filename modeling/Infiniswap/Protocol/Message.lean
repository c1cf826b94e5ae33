/-
# Messages of the control protocol

The message structures that Consumer and Provider exchange, the checks that the
encoder and the decoder of `infiniswap_protocol.c` share, and the negotiation of
versions and capabilities. A build accepts its own minor version and its two
neighbours; `current` is the minor version of the build.

The payload union has all its members side by side: a function reads or writes
the member that the type of the header selects. Strings and arrays have the size
the structures declare. Null pointers, which every function refuses first, are
left out.
-/
import Infiniswap.Lib.Bytes

namespace Infiniswap
namespace Protocol

open Bytes

/-! ### Constants -/

def magic : UInt32 := 0x49535750

def majorVersion : UInt16 := 1

def headerSize : ℕ := 48

def maxFrameSize : ℕ := 4096

def authTagSize : ℕ := 32

def consumerIdMax : ℕ := 63

def keyIdMax : ℕ := 31

def failureDeadlineMin : UInt32 := 500

def failureDeadlineMax : UInt32 := 30000

def maxChunksPerFrame : ℕ := 128

def flagResponse : UInt16 := 1

def flagError : UInt16 := 2

def flagsKnown : UInt16 := 3

def modeBacked : UInt8 := 1

def modeRemoteOnly : UInt8 := 2

def poolOpportunistic : UInt8 := 1

def poolCommitted : UInt8 := 2

def capBacked : UInt64 := 0x01

def capRemoteOnly : UInt64 := 0x02

def capOpportunisticPool : UInt64 := 0x04

def capCommittedPool : UInt64 := 0x08

def capFailureDeadline : UInt64 := 0x10

def capStatus : UInt64 := 0x20

def capAuthHmacSha256 : UInt64 := 0x40

def capKnown : UInt64 := 0x7f

/-- `enum is_protocol_result`, but for `IS_PROTOCOL_OK`. -/
inductive ProtocolResult
  | invalidArgument | bufferTooSmall | badMagic | unsupportedVersion | oversized | truncated
  | trailingData | unknownMessage | unknownRequiredCapability | invalidCapabilities
  | invalidPayload | integerOverflow
  deriving DecidableEq

/-- `enum is_protocol_message_type`. -/
inductive MessageType
  | hello | challenge | auth | accept | statusRequest | statusResponse | chunkRequest | chunkGrant
  | evict | activity | release | goodbye | error
  deriving DecidableEq

namespace MessageType

def code : MessageType → UInt16
  | .hello => 1
  | .challenge => 2
  | .auth => 3
  | .accept => 4
  | .statusRequest => 5
  | .statusResponse => 6
  | .chunkRequest => 7
  | .chunkGrant => 8
  | .evict => 9
  | .activity => 10
  | .release => 11
  | .goodbye => 12
  | .error => 13

/-- The case of a switch over the type that a header names. -/
def ofCode (c : UInt16) : Option MessageType :=
  match c.toNat with
  | 1 => some .hello
  | 2 => some .challenge
  | 3 => some .auth
  | 4 => some .accept
  | 5 => some .statusRequest
  | 6 => some .statusResponse
  | 7 => some .chunkRequest
  | 8 => some .chunkGrant
  | 9 => some .evict
  | 10 => some .activity
  | 11 => some .release
  | 12 => some .goodbye
  | 13 => some .error
  | _ => none

@[simp] theorem ofCode_code (t : MessageType) : ofCode t.code = some t := by cases t <;> rfl

end MessageType

/-- `enum is_protocol_error_code`. -/
inductive ErrorCode
  | malformed | version | capability | outOfOrder | authentication | replay | revoked | resource
  | internal
  deriving DecidableEq

def ErrorCode.code : ErrorCode → UInt16
  | .malformed => 1
  | .version => 2
  | .capability => 3
  | .outOfOrder => 4
  | .authentication => 5
  | .replay => 6
  | .revoked => 7
  | .resource => 8
  | .internal => 9

/-! ### Structures -/

/-- `struct is_protocol_header`. -/
structure Header where
  major : UInt16 := 0
  minor : UInt16 := 0
  type : UInt16 := 0
  flags : UInt16 := 0
  requestId : UInt64 := 0
  sessionId : UInt64 := 0
  capabilities : UInt64 := 0
  requiredCapabilities : UInt64 := 0
  deriving DecidableEq, Inhabited

structure Hello where
  consumerId : Vector UInt8 64 := Vector.replicate 64 0
  keyId : Vector UInt8 32 := Vector.replicate 32 0
  nonce : Vector UInt8 32 := Vector.replicate 32 0
  mode : UInt8 := 0
  pool : UInt8 := 0
  failureDeadlineMs : UInt32 := 0
  deriving DecidableEq

structure Challenge where
  nonce : Vector UInt8 32 := Vector.replicate 32 0
  negotiatedMinor : UInt16 := 0
  deriving DecidableEq

structure Auth where
  tag : Vector UInt8 32 := Vector.replicate 32 0
  deriving DecidableEq

structure Accept where
  negotiatedMinor : UInt16 := 0
  deriving DecidableEq

structure Status where
  availableOpportunisticChunks : UInt32 := 0
  availableCommittedChunks : UInt32 := 0
  providerFailureDeadlineMs : UInt32 := 0
  flags : UInt32 := 0
  deriving DecidableEq

structure ChunkRequest where
  chunkCount : UInt32 := 0
  logicalStart : UInt32 := 0
  pool : UInt8 := 0
  deriving DecidableEq

structure Chunk where
  logicalChunkId : UInt32 := 0
  providerChunkId : UInt32 := 0
  remoteAddress : UInt64 := 0
  remoteKey : UInt32 := 0
  pool : UInt8 := 0
  deriving DecidableEq, Inhabited

structure ChunkActivity where
  providerChunkId : UInt32 := 0
  activity : UInt64 := 0
  deriving DecidableEq, Inhabited

/-- A count and an array of entries: `struct is_protocol_chunk_grant`, `is_protocol_chunk_ids` and
`is_protocol_activity`. -/
structure Counted (α : Type) [Inhabited α] where
  chunkCount : UInt16 := 0
  chunks : Vector α 128 := Vector.replicate 128 default
  deriving DecidableEq

/-- The entries the count covers. -/
def Counted.entries {α : Type} [Inhabited α] (c : Counted α) : List α :=
  c.chunks.toList.take c.chunkCount.toNat

structure Error where
  code : UInt16 := 0
  offendingType : UInt16 := 0
  retryable : UInt8 := 0
  deriving DecidableEq

structure Payload where
  hello : Hello := {}
  challenge : Challenge := {}
  auth : Auth := {}
  accept : Accept := {}
  status : Status := {}
  chunkRequest : ChunkRequest := {}
  chunkGrant : Counted Chunk := {}
  chunkIds : Counted UInt32 := {}
  activity : Counted ChunkActivity := {}
  error : Error := {}
  deriving DecidableEq

/-- `struct is_protocol_message`. -/
structure Message where
  header : Header := {}
  payload : Payload := {}
  deriving DecidableEq

/-- The string in a `char` array: the bytes before its terminator. -/
def cstring {n : ℕ} (v : Vector UInt8 n) : List UInt8 := v.toList.takeWhile (· ≠ 0)

/-! ### Checks -/

section Checks

variable (current : ℕ)

/-- `is_bounded_string_length`: one more than the maximum if there is no terminator. -/
def boundedStringLength (value : List UInt8) (maximum : ℕ) : ℕ :=
  ((value.take (maximum + 1)).takeWhile (· ≠ 0)).length

/-- A letter, a digit, `.`, `_` or `-`. -/
def identifierChar (c : UInt8) : Bool :=
  97 ≤ c && c ≤ 122 || 65 ≤ c && c ≤ 90 || 48 ≤ c && c ≤ 57 || c = 46 || c = 95 || c = 45

/-- `is_identifier_valid`. -/
def identifierValid (value : List UInt8) (length : ℕ) : Bool :=
  length ≠ 0 && (value.take length).all identifierChar

/-- `is_flags_valid`. -/
def flagsValid (type flags : UInt16) : Bool :=
  match MessageType.ofCode type with
  | some .challenge | some .accept | some .statusResponse | some .chunkGrant | some .activity =>
    flags = flagResponse
  | some .release => flags = 0 || flags = flagResponse
  | some .error => flags = flagResponse ||| flagError
  | _ => flags = 0

/-- `is_minor_valid`; `IS_PROTOCOL_MINOR_PREVIOUS` of build 0 is 0. -/
def minorValid (minor : UInt16) : Bool :=
  minor.toNat = current || minor.toNat = current - 1 || minor.toNat = current + 1

/-- `is_pool_valid`. -/
def poolValid (pool : UInt8) : Bool := pool = poolOpportunistic || pool = poolCommitted

/-- `is_deadline_valid`. -/
def deadlineValid (deadline : UInt32) : Bool :=
  failureDeadlineMin ≤ deadline && deadline ≤ failureDeadlineMax

/-- `is_validate_header`. -/
def validateHeader (h : Header) : Except ProtocolResult Unit :=
  if h.major ≠ majorVersion ∨ !minorValid current h.minor then .error .unsupportedVersion
  else if (MessageType.ofCode h.type).isNone then .error .unknownMessage
  else if h.requiredCapabilities &&& ~~~capKnown ≠ 0 then .error .unknownRequiredCapability
  else if h.requiredCapabilities &&& ~~~h.capabilities ≠ 0 then .error .invalidCapabilities
  else if h.requestId = 0 ∨ h.flags &&& ~~~flagsKnown ≠ 0 ∨ !flagsValid h.type h.flags then
    .error .invalidPayload
  else if (h.type = MessageType.hello.code ∨ h.type = MessageType.challenge.code ∨
      h.type = MessageType.auth.code) ∧ h.sessionId ≠ 0 then .error .invalidPayload
  else if h.type > MessageType.auth.code ∧ h.type ≠ MessageType.error.code ∧ h.sessionId = 0 then
    .error .invalidPayload
  else .ok ()

/-- `is_validate_hello`, with the lengths of the two identifiers. -/
def validateHello (hello : Hello) : Except ProtocolResult (ℕ × ℕ) :=
  let consumerLength := boundedStringLength hello.consumerId.toList consumerIdMax
  let keyLength := boundedStringLength hello.keyId.toList keyIdMax
  if consumerLength > consumerIdMax ∨ keyLength > keyIdMax ∨
      !identifierValid hello.consumerId.toList consumerLength ∨
      !identifierValid hello.keyId.toList keyLength then
    .error .invalidPayload
  else if (hello.mode ≠ modeBacked ∧ hello.mode ≠ modeRemoteOnly) ∨ !poolValid hello.pool ∨
      !deadlineValid hello.failureDeadlineMs then .error .invalidPayload
  else if (hello.mode = modeBacked ∧ hello.pool ≠ poolOpportunistic) ∨
      (hello.mode = modeRemoteOnly ∧ hello.pool ≠ poolCommitted) then .error .invalidPayload
  else .ok (consumerLength, keyLength)

/-- The checks of a chunk request. -/
def chunkRequestValid (r : ChunkRequest) : Bool :=
  r.chunkCount ≠ 0 && r.chunkCount.toNat ≤ maxChunksPerFrame &&
    r.chunkCount - 1 ≤ ~~~r.logicalStart && poolValid r.pool

/-- The checks of one chunk of a grant. -/
def Chunk.valid (c : Chunk) : Bool := poolValid c.pool && c.remoteAddress ≠ 0 && c.remoteKey ≠ 0

/-- Two chunks of one grant that may not stand together. -/
def Chunk.clash (c seen : Chunk) : Bool :=
  seen.logicalChunkId = c.logicalChunkId || seen.providerChunkId = c.providerChunkId

def ChunkActivity.clash (a seen : ChunkActivity) : Bool := seen.providerChunkId = a.providerChunkId

/-- The checks of an error payload. -/
def Error.valid (e : Error) : Bool :=
  ErrorCode.malformed.code ≤ e.code && e.code ≤ ErrorCode.internal.code && e.retryable ≤ 1

/-- `is_validate_chunk_count`. -/
def chunkCountValid (count : UInt16) : Bool := count ≠ 0 && count.toNat ≤ maxChunksPerFrame

/-- The loop over the entries of a list: each is valid and clashes with none before it. -/
def entriesValid {α : Type} (valid : α → Bool) (clash : α → α → Bool) : List α → List α → Bool
  | _, [] => true
  | seen, e :: rest => valid e && !seen.any (clash e) && entriesValid valid clash (seen ++ [e]) rest

end Checks

/-! ### Negotiation -/

/-- `is_protocol_negotiate`: the minor version and the capabilities both sides go on with. -/
def negotiate (current : ℕ) (localMinor : UInt16) (localCapabilities localRequired : UInt64)
    (peerMinor : UInt16) (peerCapabilities peerRequired : UInt64) :
    Except ProtocolResult (UInt16 × UInt64) :=
  if !minorValid current localMinor ∨ !minorValid current peerMinor ∨
      (if localMinor > peerMinor then localMinor.toNat - peerMinor.toNat
        else peerMinor.toNat - localMinor.toNat) > 1 then .error .unsupportedVersion
  else if (localRequired ||| peerRequired) &&& ~~~capKnown ≠ 0 then .error .unknownRequiredCapability
  else if localRequired &&& ~~~localCapabilities ≠ 0 ∨ peerRequired &&& ~~~peerCapabilities ≠ 0 then
    .error .invalidCapabilities
  else
    let shared := localCapabilities &&& peerCapabilities
    if (localRequired ||| peerRequired) &&& ~~~shared ≠ 0 then .error .unknownRequiredCapability
    else .ok (if localMinor < peerMinor then localMinor else peerMinor, shared)

end Protocol
end Infiniswap
