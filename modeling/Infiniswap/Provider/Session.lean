/-
# The Provider's side of a control session

`infiniswap_provider_session.c`: a session takes one frame at a time and either
answers it, hands it to the runtime as a request, or closes. `handle` is one
call of `is_provider_session_handle`, with the registry and the time it meets.
Every handler makes at most one call into the registry, so a call is one step
between changes of the registry.

A return value of -1 is `none`. The outcome holds the response that was written
and the request that was handed over, if any.
-/
import Infiniswap.Protocol.Codec
import Infiniswap.Provider.Registry

namespace Infiniswap
namespace Provider

open Bytes Protocol

variable {capacity : ℕ} {m : Message}

/-- `enum is_provider_session_state`. -/
inductive SessionState
  | waitHello | waitAuth | ready | closed
  deriving DecidableEq

/-- `struct is_provider_session`. -/
structure Session where
  state : SessionState
  localMinor : UInt16
  negotiatedMinor : UInt16
  supportedCapabilities : UInt64
  requiredCapabilities : UInt64
  negotiatedCapabilities : UInt64
  sessionId : UInt64
  lastRequestId : UInt64 := 0
  authenticatedUntilUnix : UInt64 := 0
  authorizationVersion : UInt64 := 0
  failureDeadlineMs : UInt32 := 0
  lastErrorCode : UInt16 := 0
  selectedMode : UInt8 := 0
  selectedPool : UInt8 := 0
  providerNonce : Vector UInt8 32
  consumerId : List UInt8 := []
  keyId : List UInt8 := []
  helloFrame : List UInt8 := []
  challengeFrame : List UInt8 := []
  deriving DecidableEq

/-- `struct is_provider_session_outcome`. -/
structure Outcome where
  response : Option (List UInt8) := none
  request : Option Message := none
  closeAfterResponse : Bool := false
  deriving DecidableEq

/-- `is_provider_session_init`. -/
def Session.init (localMinor : UInt16) (supported required : UInt64) (nonce : Vector UInt8 32)
    (sessionId : UInt64) : Session where
  state := .waitHello
  localMinor := localMinor
  negotiatedMinor := localMinor
  supportedCapabilities := supported
  requiredCapabilities := required
  negotiatedCapabilities := supported
  sessionId := sessionId
  providerNonce := nonce

/-- `frame_type`. -/
def frameType (frame : List UInt8) : UInt16 :=
  if frame.length < 10 then MessageType.hello.code else u16 (slice frame 8 2)

/-- `frame_request_id`. -/
def frameRequestId (frame : List UInt8) : UInt64 :=
  if frame.length < 24 then 1
  else
    let value := u64 (slice frame 16 8)
    if value = 0 then 1 else value

/-- `protocol_result_to_error`. -/
def protocolResultToError : ProtocolResult → ErrorCode
  | .unsupportedVersion => .version
  | .unknownRequiredCapability | .invalidCapabilities => .capability
  | _ => .malformed

/-- `auth_error_code`. -/
def authErrorCode : AuthResult → ErrorCode
  | .revoked => .revoked
  | _ => .authentication

/-- What a session answers: its state after the call, and the outcome of a call that returns 0. -/
abbrev Answer := Session × Option Outcome

section Handlers

variable (current : ℕ) (hmac : List UInt8 → List UInt8 → Vector UInt8 32)

/-- The message that `build_error` encodes. -/
def errorMessage (s : Session) (requestId : UInt64) (offendingType : UInt16) (code : ErrorCode) :
    Message where
  header :=
    { major := majorVersion
      minor := s.negotiatedMinor
      type := MessageType.error.code
      flags := flagResponse ||| flagError
      requestId := if requestId = 0 then 1 else requestId
      sessionId := if s.state = .ready then s.sessionId else 0
      capabilities := s.negotiatedCapabilities
      requiredCapabilities := s.requiredCapabilities &&& s.negotiatedCapabilities }
  payload := { error := ⟨code.code, offendingType, if code = .resource then 1 else 0⟩ }

/-- `build_error`. -/
def buildError (s : Session) (requestId : UInt64) (offendingType : UInt16) (code : ErrorCode)
    (capacity : ℕ) : Answer :=
  match encode current (errorMessage s requestId offendingType code) capacity with
  | .error _ => (s, none)
  | .ok (_, response) =>
    ({ s with lastErrorCode := code.code, state := .closed },
      some { response, closeAfterResponse := true })

/-- `hello_capabilities_valid`. -/
def helloCapabilitiesValid (hello : Hello) (negotiated : UInt64) : Bool :=
  let modeCapability := if hello.mode = modeBacked then capBacked else capRemoteOnly
  let poolCapability := if hello.pool = poolOpportunistic then capOpportunisticPool else capCommittedPool
  !(hello.mode = modeBacked && hello.pool ≠ poolOpportunistic ||
      hello.mode = modeRemoteOnly && hello.pool ≠ poolCommitted) &&
    negotiated &&& modeCapability ≠ 0 && negotiated &&& poolCapability ≠ 0 &&
    negotiated &&& capFailureDeadline ≠ 0 && negotiated &&& capStatus ≠ 0 &&
    negotiated &&& capAuthHmacSha256 ≠ 0

/-- The CHALLENGE that answers a HELLO. -/
def challengeMessage (s : Session) (requestId : UInt64) : Message where
  header :=
    { major := majorVersion
      minor := s.negotiatedMinor
      type := MessageType.challenge.code
      flags := flagResponse
      requestId := requestId
      capabilities := s.negotiatedCapabilities
      requiredCapabilities := s.requiredCapabilities }
  payload := { challenge := ⟨s.providerNonce, s.negotiatedMinor⟩ }

/-- `handle_hello`. -/
def handleHello (s : Session) (hello : Message) (frame : List UInt8) (capacity : ℕ) : Answer :=
  match negotiate current s.localMinor s.supportedCapabilities s.requiredCapabilities hello.header.minor
      hello.header.capabilities hello.header.requiredCapabilities with
  | .error _ => buildError current s hello.header.requestId MessageType.hello.code .capability capacity
  | .ok (minor, capabilities) =>
    let s := { s with negotiatedMinor := minor, negotiatedCapabilities := capabilities }
    if !helloCapabilitiesValid hello.payload.hello capabilities then
      buildError current s hello.header.requestId MessageType.hello.code .capability capacity
    else
      let s :=
        { s with
          helloFrame := frame
          consumerId := cstring hello.payload.hello.consumerId
          keyId := cstring hello.payload.hello.keyId
          selectedMode := hello.payload.hello.mode
          selectedPool := hello.payload.hello.pool
          failureDeadlineMs := hello.payload.hello.failureDeadlineMs
          lastRequestId := hello.header.requestId }
      match encode current (challengeMessage s hello.header.requestId) capacity with
      | .error _ => (s, none)
      | .ok (_, response) =>
        ({ s with challengeFrame := response, state := .waitAuth }, some { response })

/-- The ACCEPT that answers an AUTH. -/
def acceptMessage (s : Session) (requestId : UInt64) : Message where
  header :=
    { major := majorVersion
      minor := s.negotiatedMinor
      type := MessageType.accept.code
      flags := flagResponse
      requestId := requestId
      sessionId := s.sessionId
      capabilities := s.negotiatedCapabilities
      requiredCapabilities := s.requiredCapabilities }
  payload := { accept := ⟨s.negotiatedMinor⟩ }

/-- `handle_auth`. -/
def handleAuth (s : Session) (r : Registry) (now : ℤ) (crypto : Bool) (auth : Message)
    (capacity : ℕ) : Answer :=
  let fail s code := buildError current s auth.header.requestId MessageType.auth.code code capacity
  if auth.header.requestId ≤ s.lastRequestId then fail s .replay
  else if auth.header.minor ≠ s.negotiatedMinor ∨ auth.header.capabilities ≠ s.negotiatedCapabilities then
    fail s .capability
  else
    match r.verify hmac now crypto s.consumerId s.keyId s.helloFrame s.challengeFrame
      auth.payload.auth.tag with
    | .error e => fail { s with authenticatedUntilUnix := 0, authorizationVersion := 0 } (authErrorCode e)
    | .ok (authenticatedUntil, version) =>
      let s :=
        { s with
          authenticatedUntilUnix := authenticatedUntil
          authorizationVersion := version
          lastRequestId := auth.header.requestId
          state := .ready }
      match encode current (acceptMessage s auth.header.requestId) capacity with
      | .error _ => (s, none)
      | .ok (_, response) => (s, some { response })

/-- Whether a message is a response to a request of the Provider. -/
def responseMessage (m : Message) : Bool := m.header.flags &&& flagResponse ≠ 0

/-- `authenticated_request_allowed`. -/
def authenticatedRequestAllowed (m : Message) : Bool :=
  if responseMessage m then
    m.header.type = MessageType.activity.code || m.header.type = MessageType.release.code
  else
    match MessageType.ofCode m.header.type with
    | some .statusRequest | some .chunkRequest | some .goodbye => true
    | _ => false

/-- `handle_authenticated`. -/
def handleAuthenticated (s : Session) (r : Registry) (now : ℤ) (m : Message) (capacity : ℕ) : Answer :=
  let fail code := buildError current s m.header.requestId m.header.type code capacity
  if !responseMessage m ∧ m.header.requestId ≤ s.lastRequestId then fail .replay
  else if m.header.sessionId ≠ s.sessionId ∨ m.header.minor ≠ s.negotiatedMinor ∨
      m.header.capabilities ≠ s.negotiatedCapabilities then fail .capability
  else if s.authenticatedUntilUnix ≠ 0 ∧ (now < 0 ∨ now.toNat ≥ s.authenticatedUntilUnix.toNat) then
    fail .authentication
  else
    match r.validateAuthorization s.consumerId s.authorizationVersion with
    | .error e => fail (authErrorCode e)
    | .ok () =>
      if !authenticatedRequestAllowed m then fail .outOfOrder
      else if m.header.type = MessageType.statusRequest.code ∧
          s.negotiatedCapabilities &&& capStatus = 0 then
        fail .capability
      else if m.header.type = MessageType.chunkRequest.code ∧
          m.payload.chunkRequest.pool ≠ s.selectedPool then
        fail .capability
      else
        ({ s with lastRequestId := if responseMessage m then s.lastRequestId else m.header.requestId },
          some { request := some m })

/-- `is_provider_session_fail`: the runtime gives up on a request. -/
def sessionFail (s : Session) (requestId : UInt64) (offendingType : UInt16) (code : ErrorCode)
    (capacity : ℕ) : Answer :=
  buildError current s requestId offendingType code capacity

/-- `is_provider_session_handle` on a frame that was decoded. -/
def handleMessage (s : Session) (r : Registry) (now : ℤ) (crypto : Bool) (frame : List UInt8)
    (capacity : ℕ) (m : Message) : Answer :=
  let outOfOrder := buildError current s m.header.requestId m.header.type .outOfOrder capacity
  if m.header.type = MessageType.error.code then
    ({ s with state := .closed },
      some { request := if s.state = .ready then some m else none, closeAfterResponse := true })
  else
    match s.state with
    | .waitHello =>
      if m.header.type ≠ MessageType.hello.code ∨ m.header.flags ≠ 0 then outOfOrder
      else handleHello current s m frame capacity
    | .waitAuth =>
      if m.header.type ≠ MessageType.auth.code ∨ m.header.flags ≠ 0 then outOfOrder
      else handleAuth current hmac s r now crypto m capacity
    | .ready => handleAuthenticated current s r now m capacity
    | .closed => outOfOrder

/-- `is_provider_session_handle`. -/
def handle (s : Session) (r : Registry) (now : ℤ) (crypto : Bool) (frame : List UInt8)
    (capacity : ℕ) : Answer :=
  if s.sessionId = 0 ∨ capacity = 0 then (s, none)
  else
    match decode current frame with
    | .fault => (s, none)
    | .error e =>
      if frameType frame = MessageType.error.code then
        ({ s with state := .closed }, some { closeAfterResponse := true })
      else buildError current s (frameRequestId frame) (frameType frame)
        (protocolResultToError e) capacity
    | .ok m => handleMessage current hmac s r now crypto frame capacity m

end Handlers

/-! ### What a call can do -/

section Handled

/-- What a session keeps from its initialisation. -/
structure Session.SameConfig (s s' : Session) : Prop where
  localMinor : s'.localMinor = s.localMinor
  supported : s'.supportedCapabilities = s.supportedCapabilities
  required : s'.requiredCapabilities = s.requiredCapabilities
  sessionId : s'.sessionId = s.sessionId

/-- What an accepted HELLO leaves in the session. -/
structure Challenged (current : ℕ) (s s' : Session) (m : Message) (frame response : List UInt8) :
    Prop where
  negotiated : negotiate current s.localMinor s.supportedCapabilities
    s.requiredCapabilities m.header.minor m.header.capabilities m.header.requiredCapabilities =
    .ok (s'.negotiatedMinor, s'.negotiatedCapabilities)
  capabilities : helloCapabilitiesValid m.payload.hello s'.negotiatedCapabilities = true
  encoded : ∃ capacity size,
    encode current (challengeMessage s' m.header.requestId) capacity = .ok (size, response)
  session : s' = { s with
    negotiatedMinor := s'.negotiatedMinor
    negotiatedCapabilities := s'.negotiatedCapabilities
    helloFrame := frame
    challengeFrame := response
    consumerId := cstring m.payload.hello.consumerId
    keyId := cstring m.payload.hello.keyId
    selectedMode := m.payload.hello.mode
    selectedPool := m.payload.hello.pool
    failureDeadlineMs := m.payload.hello.failureDeadlineMs
    lastRequestId := m.header.requestId
    state := .waitAuth }

/-- What an authenticated session demands of a request that it hands over. -/
structure Deliverable (s : Session) (r : Registry) (now : ℤ) (m : Message) : Prop where
  fresh : responseMessage m = false → s.lastRequestId < m.header.requestId
  sessionId : m.header.sessionId = s.sessionId
  minor : m.header.minor = s.negotiatedMinor
  capabilities : m.header.capabilities = s.negotiatedCapabilities
  unexpired : s.authenticatedUntilUnix = 0 ∨ 0 ≤ now ∧ now.toNat < s.authenticatedUntilUnix.toNat
  authorized : r.validateAuthorization s.consumerId s.authorizationVersion = .ok ()
  allowed : authenticatedRequestAllowed m = true
  pool : m.header.type = MessageType.chunkRequest.code → m.payload.chunkRequest.pool = s.selectedPool

/-- The session after a tag was verified. -/
def Session.authenticated (s : Session) (m : Message) (authenticatedUntil version : UInt64) : Session :=
  { s with
    authenticatedUntilUnix := authenticatedUntil
    authorizationVersion := version
    lastRequestId := m.header.requestId
    state := .ready }

/-- The session after a request was handed over. -/
def Session.delivered (s : Session) (m : Message) : Session :=
  { s with lastRequestId := if responseMessage m then s.lastRequestId else m.header.requestId }

/-- What one call of `is_provider_session_handle` can do to a session. -/
inductive Handled (current : ℕ) (hmac : List UInt8 → List UInt8 → Vector UInt8 32) (s : Session)
    (r : Registry) (now : ℤ) (frame : List UInt8) : Session → Option Outcome → Prop
  /-- The session closes; only a ready one still hands over the ERROR it has received. -/
  | closed {s' o} : s'.state = .closed →
      (∀ m, o.request = some m →
        s.state = .ready ∧ decode current frame = .ok m ∧ m.header.type = MessageType.error.code) →
      (∀ response, o.response = some response → ∃ s₁ requestId offendingType code capacity size,
        encode current (errorMessage s₁ requestId offendingType code) capacity = .ok (size, response)) →
      Handled current hmac s r now frame s' (some o)
  /-- Nothing could be written. -/
  | unchanged : Handled current hmac s r now frame s none
  | greeted {s'} : s.state = .waitHello → s'.state = .waitHello → s.SameConfig s' →
      Handled current hmac s r now frame s' none
  | unverified : s.state = .waitAuth →
      Handled current hmac s r now frame
        { s with authenticatedUntilUnix := 0, authorizationVersion := 0 } none
  | challenged {s'} {m : Message} {response} : s.state = .waitHello →
      decode current frame = .ok m → m.header.type = MessageType.hello.code →
      Challenged current s s' m frame response →
      Handled current hmac s r now frame s' (some { response })
  | authenticated {m : Message} {crypto authenticatedUntil version o} :
      s.state = .waitAuth → decode current frame = .ok m → m.header.type = MessageType.auth.code →
      s.lastRequestId < m.header.requestId →
      r.verify hmac now crypto s.consumerId s.keyId s.helloFrame s.challengeFrame m.payload.auth.tag =
        .ok (authenticatedUntil, version) →
      (∀ out, o = some out → out.request = none) →
      (∀ out response, o = some out → out.response = some response → ∃ capacity size,
        encode current
          (acceptMessage (s.authenticated m authenticatedUntil version) m.header.requestId) capacity =
          .ok (size, response)) →
      Handled current hmac s r now frame (s.authenticated m authenticatedUntil version) o
  | delivered {m : Message} :
      s.state = .ready → decode current frame = .ok m → m.header.type ≠ MessageType.error.code →
      Deliverable s r now m →
      Handled current hmac s r now frame (s.delivered m) (some { request := some m })

variable {current : ℕ} {hmac : List UInt8 → List UInt8 → Vector UInt8 32} {s : Session}
  {r : Registry} {now : ℤ}
  {frame : List UInt8}

/-- An error closes the session, or leaves it as it was prepared. -/
theorem handled_buildError {s₁ : Session} {requestId : UInt64} {offendingType : UInt16}
    {code : ErrorCode} (h : Handled current hmac s r now frame s₁ none) :
    Handled current hmac s r now frame (buildError current s₁ requestId offendingType code capacity).1
      (buildError current s₁ requestId offendingType code capacity).2 := by
  unfold buildError
  split
  · exact h
  · rename_i size response hencode
    refine .closed rfl nofun ?_
    rintro _ ⟨⟩
    exact ⟨s₁, requestId, offendingType, code, capacity, size, hencode⟩

theorem handled_handleHello (hstate : s.state = .waitHello) (hm : decode current frame = .ok m)
    (htype : m.header.type = MessageType.hello.code) :
    Handled current hmac s r now frame (handleHello current s m frame capacity).1
      (handleHello current s m frame capacity).2 := by
  unfold handleHello
  split
  · exact handled_buildError .unchanged
  rename_i minor capabilities hnegotiate
  dsimp only
  split_ifs with hcapabilities
  · exact handled_buildError (.greeted hstate hstate ⟨rfl, rfl, rfl, rfl⟩)
  split
  · exact .greeted hstate hstate ⟨rfl, rfl, rfl, rfl⟩
  rename_i size response hencode
  refine .challenged hstate hm htype ⟨hnegotiate, ?_, ⟨capacity, size, hencode⟩, rfl⟩
  simpa using hcapabilities

theorem handled_handleAuth {crypto : Bool} (hstate : s.state = .waitAuth)
    (hm : decode current frame = .ok m) (htype : m.header.type = MessageType.auth.code) :
    Handled current hmac s r now frame (handleAuth current hmac s r now crypto m capacity).1
      (handleAuth current hmac s r now crypto m capacity).2 := by
  unfold handleAuth
  dsimp only
  split_ifs with hreplay hheader
  · exact handled_buildError .unchanged
  · exact handled_buildError .unchanged
  split
  · exact handled_buildError (.unverified hstate)
  rename_i authenticatedUntil version hverify
  have hlt : s.lastRequestId < m.header.requestId := UInt64.not_le.mp hreplay
  split
  · exact .authenticated hstate hm htype hlt hverify nofun nofun
  · rename_i size response hencode
    refine .authenticated hstate hm htype hlt hverify ?_ ?_
    · rintro out ⟨⟩
      rfl
    · rintro out _ ⟨⟩ ⟨⟩
      exact ⟨capacity, size, hencode⟩

theorem handled_handleAuthenticated (hstate : s.state = .ready) (hm : decode current frame = .ok m)
    (htype : m.header.type ≠ MessageType.error.code) :
    Handled current hmac s r now frame (handleAuthenticated current s r now m capacity).1
      (handleAuthenticated current s r now m capacity).2 := by
  have hfail {code : ErrorCode} : Handled current hmac s r now frame
      (buildError current s m.header.requestId m.header.type code capacity).1
      (buildError current s m.header.requestId m.header.type code capacity).2 :=
    handled_buildError .unchanged
  unfold handleAuthenticated
  dsimp only
  split
  · exact hfail
  rename_i hreplay
  split
  · exact hfail
  rename_i hheader
  split
  · exact hfail
  rename_i hexpired
  split
  · exact hfail
  rename_i hvalidate
  split
  · exact hfail
  rename_i hallowed
  split
  · exact hfail
  split
  · exact hfail
  rename_i hpool
  refine .delivered hstate hm htype
    ⟨fun hresponse => ?_, ?_, ?_, ?_, ?_, hvalidate, by simpa using hallowed, fun ht => ?_⟩
  · refine UInt64.not_le.mp fun hle => hreplay ⟨?_, hle⟩
    rw [hresponse]
    rfl
  · exact not_not.mp fun h => hheader (.inl h)
  · exact not_not.mp fun h => hheader (.inr (.inl h))
  · exact not_not.mp fun h => hheader (.inr (.inr h))
  · by_cases hzero : s.authenticatedUntilUnix = 0
    · exact .inl hzero
    · refine .inr ⟨?_, ?_⟩
      · exact Int.not_lt.mp fun h => hexpired ⟨hzero, .inl h⟩
      · exact Nat.not_le.mp fun h => hexpired ⟨hzero, .inr h⟩
  · exact not_not.mp fun h => hpool ⟨ht, h⟩

theorem handled_handleMessage {crypto : Bool} (hm : decode current frame = .ok m) :
    Handled current hmac s r now frame (handleMessage current hmac s r now crypto frame capacity m).1
      (handleMessage current hmac s r now crypto frame capacity m).2 := by
  unfold handleMessage
  by_cases herror : m.header.type = MessageType.error.code
  · rw [if_pos herror]
    refine .closed rfl (fun m' hm' => ?_) nofun
    dsimp only at hm'
    split_ifs at hm' with hready
    cases hm'
    exact ⟨hready, hm, herror⟩
  rw [if_neg herror]
  cases hstate : s.state with
  | waitHello =>
    dsimp only
    split
    · exact handled_buildError .unchanged
    · rename_i horder
      exact handled_handleHello hstate hm (not_not.mp fun h => horder (.inl h))
  | waitAuth =>
    dsimp only
    split
    · exact handled_buildError .unchanged
    · rename_i horder
      exact handled_handleAuth hstate hm (not_not.mp fun h => horder (.inl h))
  | ready => exact handled_handleAuthenticated hstate hm herror
  | closed => exact handled_buildError .unchanged

/-- **What a call can do**, for every state, frame, registry and time. -/
theorem handle_handled (crypto : Bool) (capacity : ℕ) :
    Handled current hmac s r now frame (handle current hmac s r now crypto frame capacity).1
      (handle current hmac s r now crypto frame capacity).2 := by
  unfold handle
  split
  · exact .unchanged
  split
  · exact .unchanged
  · split
    · exact .closed rfl nofun nofun
    · exact handled_buildError .unchanged
  rename_i m hm
  exact handled_handleMessage hm

end Handled

end Provider
end Infiniswap
