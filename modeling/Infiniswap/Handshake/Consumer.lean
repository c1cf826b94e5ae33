/-
# The Consumer's side of the handshake

The control handlers of `is_rdma.c` up to the first STATUS_RESPONSE, with the
messages they send: HELLO, AUTH and STATUS_REQUEST. `ConsumerConfig` is what the
build and the device fix; the capabilities are constants of the build.

A handler that returns an error ends in `is_rdma_fail`, which is the state
`failed` here. `ok` says whether what a handler needs from the kernel succeeds:
computing the tag, and recording the Provider's status. A posted send is a frame
in flight. What a ready session does with later frames touches none of the
fields here.
-/
import Infiniswap.Protocol.Codec
import Infiniswap.Provider.Registry

namespace Infiniswap
namespace Handshake

open Bytes Protocol

/-- What a Consumer's build and device fix. -/
structure ConsumerConfig where
  minor : UInt16
  capabilities : UInt64
  required : UInt64
  remoteOnly : Bool
  consumerId : List UInt8
  keyId : List UInt8
  psk : List UInt8
  failureDeadlineMs : UInt32
  nonce : Vector UInt8 32

/-- `enum is_rdma_control_state`, as far as the handshake goes. -/
inductive ConsumerState
  | connecting | waitChallenge | waitAccept | waitStatus | ready | failed
  deriving DecidableEq

/-- The control fields of `struct is_rdma_session`. -/
structure ConsumerSession where
  state : ConsumerState := .connecting
  negotiatedMinor : UInt16
  negotiatedCapabilities : UInt64
  sessionId : UInt64 := 0
  nextRequestId : UInt64 := 1
  pendingRequestId : UInt64 := 0
  helloFrame : List UInt8 := []
  challengeFrame : List UInt8 := []

namespace ConsumerConfig

variable (c : ConsumerConfig)

/-- `is_session_init`. -/
def session : ConsumerSession where
  negotiatedMinor := c.minor
  negotiatedCapabilities := c.capabilities

def mode : UInt8 := if c.remoteOnly then modeRemoteOnly else modeBacked

def pool : UInt8 := if c.remoteOnly then poolCommitted else poolOpportunistic

/-- The message of `is_send_hello`; `strscpy` cuts an identifier that is too long. -/
def helloMessage (requestId : UInt64) : Message where
  header :=
    { major := majorVersion
      minor := c.minor
      type := MessageType.hello.code
      requestId := requestId
      capabilities := c.capabilities
      requiredCapabilities := c.required }
  payload :=
    { hello :=
        { consumerId := pad 64 (c.consumerId.take consumerIdMax)
          keyId := pad 32 (c.keyId.take keyIdMax)
          nonce := c.nonce
          mode := c.mode
          pool := c.pool
          failureDeadlineMs := c.failureDeadlineMs } }

/-- `is_init_message` for a request. -/
def initMessage (s : ConsumerSession) (type : MessageType) (requestId : UInt64) : Message where
  header :=
    { major := majorVersion
      minor := s.negotiatedMinor
      type := type.code
      requestId := requestId
      sessionId := s.sessionId
      capabilities := s.negotiatedCapabilities
      requiredCapabilities := c.required }

/-- The message of `is_handle_challenge`. -/
def authMessage (s : ConsumerSession) (requestId : UInt64) (tag : Vector UInt8 32) : Message :=
  let m := c.initMessage s .auth requestId
  { m with header := { m.header with sessionId := 0 }, payload := { auth := ⟨tag⟩ } }

end ConsumerConfig

def ConsumerSession.fail (s : ConsumerSession) : ConsumerSession := { s with state := .failed }

/-- A session after a handler, and the frame it sends. -/
abbrev Reaction := ConsumerSession × Option (List UInt8)

section Handlers

variable (c : ConsumerConfig) (hmac : List UInt8 → List UInt8 → Vector UInt8 32)

/-- `is_encode_and_send`. -/
def encodeAndSend (s : ConsumerSession) (m : Message) : Reaction :=
  match encode c.minor.toNat m maxFrameSize with
  | .error _ => (s.fail, none)
  | .ok (_, frame) => (s, some frame)

/-- `is_hello_work`. -/
def sendHello (s : ConsumerSession) : Reaction :=
  if s.state ≠ .connecting then (s.fail, none)
  else
    let requestId := s.nextRequestId
    let s := { s with nextRequestId := s.nextRequestId + 1 }
    match encode c.minor.toNat (c.helloMessage requestId) maxFrameSize with
    | .error _ => (s.fail, none)
    | .ok (_, frame) =>
      ({ s with helloFrame := frame, pendingRequestId := requestId, state := .waitChallenge }, some frame)

/-- `is_handle_challenge`. -/
def handleChallenge (ok : Bool) (s : ConsumerSession) (challenge : Message) : Reaction :=
  if challenge.header.major ≠ majorVersion ∨ challenge.header.flags &&& flagResponse = 0 ∨
      challenge.header.requestId ≠ s.pendingRequestId ∨ challenge.header.sessionId ≠ 0 then (s.fail, none)
  else
    match negotiate c.minor.toNat c.minor c.capabilities c.required challenge.header.minor
      challenge.header.capabilities challenge.header.requiredCapabilities with
    | .error _ => (s.fail, none)
    | .ok (minor, capabilities) =>
      if challenge.payload.challenge.negotiatedMinor ≠ minor then (s.fail, none)
      else
        let s := { s with negotiatedMinor := minor, negotiatedCapabilities := capabilities }
        if !ok then (s.fail, none)
        else
          let tag := hmac c.psk (Provider.Registry.authDomain ++ (s.helloFrame ++ s.challengeFrame))
          let requestId := s.nextRequestId
          let s := { s with
            nextRequestId := s.nextRequestId + 1, pendingRequestId := requestId, state := .waitAccept }
          encodeAndSend c s (c.authMessage s requestId tag)

/-- `is_handle_accept`. -/
def handleAccept (s : ConsumerSession) (accept : Message) : Reaction :=
  if accept.header.major ≠ majorVersion ∨ accept.header.minor ≠ s.negotiatedMinor ∨
      accept.header.flags &&& flagResponse = 0 ∨ accept.header.requestId ≠ s.pendingRequestId ∨
      accept.header.sessionId = 0 ∨ accept.payload.accept.negotiatedMinor ≠ s.negotiatedMinor ∨
      accept.header.capabilities ≠ s.negotiatedCapabilities then (s.fail, none)
  else
    let s := { s with sessionId := accept.header.sessionId }
    if s.negotiatedCapabilities &&& capStatus = 0 then
      if c.remoteOnly then (s.fail, none) else ({ s with pendingRequestId := 0, state := .ready }, none)
    else
      let requestId := s.nextRequestId
      let s := { s with
        nextRequestId := s.nextRequestId + 1, pendingRequestId := requestId, state := .waitStatus }
      encodeAndSend c s (c.initMessage s .statusRequest requestId)

/-- `is_authenticated_header_valid` and `is_status_response_valid`. -/
def statusResponseValid (s : ConsumerSession) (status : Message) : Bool :=
  status.header.major = majorVersion && status.header.minor = s.negotiatedMinor &&
    status.header.sessionId = s.sessionId && status.header.capabilities = s.negotiatedCapabilities &&
    status.header.flags &&& flagResponse ≠ 0 && status.header.requestId = s.pendingRequestId &&
    status.payload.status.providerFailureDeadlineMs = c.failureDeadlineMs

/-- `is_handle_status`: every status makes the session ready, once it is recorded. -/
def handleStatus (ok : Bool) (s : ConsumerSession) (status : Message) : Reaction :=
  if !statusResponseValid c s status || !ok then (s.fail, none)
  else ({ s with pendingRequestId := 0, state := .ready }, none)

/-- `is_receive_work`. -/
def receive (ok : Bool) (s : ConsumerSession) (frame : List UInt8) : Reaction :=
  match decode c.minor.toNat frame with
  | .fault | .error _ => (s.fail, none)
  | .ok m =>
    if m.header.type = MessageType.error.code then (s.fail, none)
    else
      match s.state with
      | .waitChallenge =>
        if m.header.type ≠ MessageType.challenge.code then (s.fail, none)
        else handleChallenge c hmac ok { s with challengeFrame := frame } m
      | .waitAccept =>
        if m.header.type ≠ MessageType.accept.code then (s.fail, none) else handleAccept c s m
      | .waitStatus =>
        if m.header.type ≠ MessageType.statusResponse.code then (s.fail, none)
          else handleStatus c ok s m
      | .ready => if ok then (s, none) else (s.fail, none)
      | .connecting | .failed => (s.fail, none)

end Handlers

end Handshake
end Infiniswap
