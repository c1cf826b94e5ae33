/-
# Every frame gets an answer

An error reply is built from fields of the frame that is refused, and has to pass
the checks of the encoder itself. It does in every state a session can reach, so
every frame ends in exactly one of: a response that decodes, a request for the
runtime, or, for an ERROR, a silent close.
-/
import Infiniswap.Provider.Authenticity

namespace Infiniswap
namespace Provider

open Bytes Protocol Transition

variable {current : ℕ} {hmac : List UInt8 → List UInt8 → Vector UInt8 32} {s s' : Session}
  {frame : List UInt8}

/-! ### Sessions that can answer -/

variable {m : Message} {capacity : ℕ} {r : Registry} {now : ℤ} {crypto : Bool}

/-- The fields that responses are built from pass the checks of the encoder. -/
structure Session.Encodable (current : ℕ) (s : Session) : Prop where
  sessionId_ne : s.sessionId ≠ 0
  minor : minorValid current s.negotiatedMinor = true
  required_known : CapsIn s.requiredCapabilities capKnown

/-- In addition, the Provider's required capabilities were negotiated, once a HELLO was answered. -/
structure Session.WellFormed (current : ℕ) (s : Session) : Prop extends s.Encodable current where
  negotiated : s.state = .waitAuth ∨ s.state = .ready →
    CapsIn s.requiredCapabilities s.negotiatedCapabilities

/-- What a call answers to a frame: the session after it, and its outcome. -/
inductive Answers (current : ℕ) (s : Session) (frame : List UInt8) : Session → Outcome → Prop
  /-- The CHALLENGE to a HELLO. -/
  | challenge {s' : Session} {response} {m : Message} : s.state = .waitHello → s'.state = .waitAuth →
      decode current response = .ok m → m.header.type = MessageType.challenge.code →
      Answers current s frame s' { response := some response }
  /-- The ACCEPT to an AUTH. -/
  | accept {s' : Session} {response} {m : Message} : s.state = .waitAuth → s'.state = .ready →
      decode current response = .ok m → m.header.type = MessageType.accept.code →
      Answers current s frame s' { response := some response }
  /-- A request for the runtime. -/
  | deliver {s' : Session} {m : Message} :
      s.state = .ready → s'.state = .ready → decode current frame = .ok m →
      Answers current s frame s' { request := some m }
  /-- Anything but an ERROR that is refused: an ERROR response with the frame's request id. -/
  | reject {s' : Session} {response} {m : Message} : frameType frame ≠ MessageType.error.code →
      s'.state = .closed → decode current response = .ok m → m.header.type = MessageType.error.code →
      m.header.requestId = frameRequestId frame →
      Answers current s frame s' { response := some response, closeAfterResponse := true }
  /-- An ERROR for the runtime. -/
  | deliverError {s' : Session} {m : Message} :
      frameType frame = MessageType.error.code → s.state = .ready →
      s'.state = .closed → decode current frame = .ok m →
      Answers current s frame s' { request := some m, closeAfterResponse := true }
  /-- An ERROR that closes the session silently. -/
  | silent {s' : Session} : frameType frame = MessageType.error.code → s'.state = .closed →
      Answers current s frame s' { closeAfterResponse := true }

/-! ### Fields of a frame -/

theorem frameType_of_decode (h : decode current frame = .ok m) :
    frameType frame = m.header.type := by
  obtain ⟨-, hheader, -⟩ := decode_ok h
  obtain ⟨hlen, -, -, -⟩ := decodeHeader_ok hheader
  rw [frameType, if_neg (by rw [hlen, headerSize]; omega), type_of_decodeHeader hheader]

theorem frameRequestId_of_decode (h : decode current frame = .ok m) :
    frameRequestId frame = m.header.requestId := by
  obtain ⟨-, hheader, -⟩ := decode_ok h
  obtain ⟨hlen, -, -, hvalid⟩ := decodeHeader_ok hheader
  obtain ⟨-, -, -, -, -, hid, -⟩ := validateHeader_eq_ok.mp hvalid
  have hread : (readU64 frame 16 : Checked ProtocolResult UInt64) = .ok m.header.requestId := by
    rw [frame_of_decodeHeader hheader]
    simp [encodeHeader]
  have hslice : u64 (slice frame 16 8) = m.header.requestId := by
    rw [readU64_eq (by rw [hlen, headerSize]; omega)] at hread
    exact Checked.ok.inj hread
  rw [frameRequestId, if_neg (by rw [hlen, headerSize]; omega), hslice]
  exact if_neg hid

theorem frameRequestId_ne_zero (frame : List UInt8) : frameRequestId frame ≠ 0 := by
  unfold frameRequestId
  dsimp only
  split_ifs with hshort hzero
  · decide
  · decide
  · exact hzero

/-! ### Responses -/

theorem errorMessage_valid (hs : s.Encodable current) (requestId : UInt64) (offendingType : UInt16)
    (code : ErrorCode) :
    validateHeader current (errorMessage s requestId offendingType code).header = .ok () ∧
      payloadSize current (errorMessage s requestId offendingType code) = .ok (errorSize, 0, 0) := by
  constructor
  · refine validateHeader_eq_ok.mpr ⟨rfl, hs.minor, rfl, (capsIn_and_left _ _).trans hs.required_known,
      capsIn_and_right _ _, ?_, rfl, sessionIdValid_of_type (t := .error) rfl trivial⟩
    dsimp only [errorMessage]
    split_ifs with hzero
    · decide
    · exact hzero
  · have hvalid : (errorMessage s requestId offendingType code).payload.error.valid = true := by
      cases code <;> rfl
    exact if_pos hvalid

/-- **An error reply can always be built.** -/
theorem buildError_answers {requestId : UInt64} {offendingType : UInt16} {code : ErrorCode}
    (hs : s'.Encodable current) (hcap : maxFrameSize ≤ capacity)
    (htype : frameType frame ≠ MessageType.error.code) (hid : requestId = frameRequestId frame) :
    ∃ t o, buildError current s' requestId offendingType code capacity = (t, some o) ∧
      Answers current s frame t o := by
  obtain ⟨hheader, hpayload⟩ := errorMessage_valid hs requestId offendingType code
  obtain ⟨response, m, hencode, hdecode, hm, -⟩ := exists_encode hheader hpayload hcap
  rw [buildError, hencode]
  refine ⟨_, _, rfl, .reject htype rfl hdecode ?_ ?_⟩
  · rw [hm]
    rfl
  · rw [hm, hid]
    exact if_neg (frameRequestId_ne_zero frame)

/-- What a successful negotiation leaves can be encoded. -/
theorem encodable_of_negotiate {peerMinor minor : UInt16} {peerCaps peerRequired capabilities : UInt64}
    (h : negotiate current s.localMinor s.supportedCapabilities s.requiredCapabilities peerMinor peerCaps
      peerRequired = .ok (minor, capabilities)) :
    minorValid current minor = true ∧ CapsIn s.requiredCapabilities capabilities := by
  obtain ⟨hl, hp, -, -, -, hrequired, -, rfl, rfl⟩ := negotiate_eq_ok.mp h
  exact ⟨minorValid_minMinor hl hp, hrequired⟩

theorem handleHello_answers (hs : s.Encodable current) (hcap : maxFrameSize ≤ capacity)
    (hstate : s.state = .waitHello) (hm : decode current frame = .ok m)
    (htype : m.header.type ≠ MessageType.error.code) :
    ∃ t o, handleHello current s m frame capacity = (t, some o) ∧ Answers current s frame t o := by
  have hft : frameType frame ≠ MessageType.error.code := by rwa [frameType_of_decode hm]
  have hid := (frameRequestId_of_decode hm).symm
  unfold handleHello
  split
  · exact buildError_answers hs hcap hft hid
  rename_i minor capabilities hnegotiate
  obtain ⟨hminor, hcaps⟩ := encodable_of_negotiate hnegotiate
  dsimp only
  split
  · exact buildError_answers ⟨hs.sessionId_ne, hminor, hs.required_known⟩ hcap hft hid
  · -- the CHALLENGE takes its minor version and capabilities from the negotiation
    generalize ht : ({ s with
        negotiatedMinor := minor
        negotiatedCapabilities := capabilities
        helloFrame := frame
        consumerId := cstring m.payload.hello.consumerId
        keyId := cstring m.payload.hello.keyId
        selectedMode := m.payload.hello.mode
        selectedPool := m.payload.hello.pool
        failureDeadlineMs := m.payload.hello.failureDeadlineMs
        lastRequestId := m.header.requestId } : Session) = t
    have hheader : validateHeader current (challengeMessage t m.header.requestId).header = .ok () := by
      subst ht
      obtain ⟨-, -, -, -, -, hne, -⟩ := validateHeader_eq_ok.mp (decodeHeader_ok (decode_ok hm).2.1).2.2.2
      exact validateHeader_eq_ok.mpr ⟨rfl, hminor, rfl, hs.required_known, hcaps, hne, rfl,
        sessionIdValid_of_type (t := .challenge) rfl rfl⟩
    have hpayload : payloadSize current (challengeMessage t m.header.requestId) =
        .ok (challengeSize, 0, 0) := by
      subst ht
      exact if_pos hminor
    obtain ⟨response, m', hencode, hdecode, hm', -⟩ := exists_encode hheader hpayload hcap
    rw [hencode]
    refine ⟨_, _, rfl, .challenge hstate rfl hdecode ?_⟩
    rw [hm']
    rfl

theorem handleAuth_answers (hs : s.WellFormed current) (hcap : maxFrameSize ≤ capacity)
    (hstate : s.state = .waitAuth) (hm : decode current frame = .ok m)
    (htype : m.header.type ≠ MessageType.error.code) :
    ∃ t o, handleAuth current hmac s r now crypto m capacity = (t, some o) ∧
      Answers current s frame t o := by
  have hft : frameType frame ≠ MessageType.error.code := by rwa [frameType_of_decode hm]
  have hid := (frameRequestId_of_decode hm).symm
  unfold handleAuth
  dsimp only
  split
  · exact buildError_answers hs.toEncodable hcap hft hid
  split
  · exact buildError_answers hs.toEncodable hcap hft hid
  split
  · exact buildError_answers ⟨hs.sessionId_ne, hs.minor, hs.required_known⟩ hcap hft hid
  rename_i authenticatedUntil version hverify
  generalize ht : ({ s with
      authenticatedUntilUnix := authenticatedUntil
      authorizationVersion := version
      lastRequestId := m.header.requestId
      state := .ready } : Session) = t
  have hheader : validateHeader current (acceptMessage t m.header.requestId).header = .ok () := by
    subst ht
    obtain ⟨-, -, -, -, -, hne, -⟩ := validateHeader_eq_ok.mp (decodeHeader_ok (decode_ok hm).2.1).2.2.2
    exact validateHeader_eq_ok.mpr ⟨rfl, hs.minor, rfl, hs.required_known,
      hs.negotiated (.inl hstate), hne, rfl, sessionIdValid_of_type (t := .accept) rfl hs.sessionId_ne⟩
  have hpayload : payloadSize current (acceptMessage t m.header.requestId) = .ok (acceptSize, 0, 0) := by
    subst ht
    exact if_pos hs.minor
  obtain ⟨response, m', hencode, hdecode, hm', -⟩ := exists_encode hheader hpayload hcap
  rw [hencode]
  refine ⟨_, _, rfl, .accept hstate (by rw [← ht]) hdecode ?_⟩
  rw [hm']
  rfl

theorem handleAuthenticated_answers (hs : s.Encodable current) (hcap : maxFrameSize ≤ capacity)
    (hstate : s.state = .ready) (hm : decode current frame = .ok m)
    (htype : m.header.type ≠ MessageType.error.code) :
    ∃ t o, handleAuthenticated current s r now m capacity = (t, some o) ∧
      Answers current s frame t o := by
  have hft : frameType frame ≠ MessageType.error.code := by rwa [frameType_of_decode hm]
  have hfail {code : ErrorCode} :
      ∃ t o, buildError current s m.header.requestId m.header.type code capacity = (t, some o) ∧
      Answers current s frame t o := buildError_answers hs hcap hft (frameRequestId_of_decode hm).symm
  unfold handleAuthenticated
  dsimp only
  split
  · exact hfail
  split
  · exact hfail
  split
  · exact hfail
  split
  · exact hfail
  split
  · exact hfail
  split
  · exact hfail
  split
  · exact hfail
  · exact ⟨_, _, rfl, .deliver hstate hstate hm⟩

/-- **Every frame gets an answer** from a session that is well formed. -/
theorem handle_answers (hs : s.WellFormed current) (r : Registry) (now : ℤ) (crypto : Bool)
    (frame : List UInt8) (hcap : maxFrameSize ≤ capacity) :
    ∃ t o, handle current hmac s r now crypto frame capacity = (t, some o) ∧
      Answers current s frame t o := by
  have hargs : ¬(s.sessionId = 0 ∨ capacity = 0) := by
    rintro (h | h)
    · exact hs.sessionId_ne h
    · rw [h] at hcap
      exact absurd hcap (by decide)
  rw [handle, if_neg hargs]
  cases hm : decode current frame with
  | fault => exact absurd hm (decode_safe current frame)
  | error e =>
    dsimp only
    split
    · rename_i htype
      exact ⟨_, _, rfl, .silent htype rfl⟩
    · rename_i htype
      exact buildError_answers hs.toEncodable hcap htype rfl
  | ok m =>
    have hft := frameType_of_decode hm
    dsimp only
    unfold handleMessage
    dsimp only
    by_cases htype : m.header.type = MessageType.error.code
    · rw [if_pos htype]
      by_cases hready : s.state = .ready
      · rw [if_pos hready]
        exact ⟨_, _, rfl, .deliverError (hft.trans htype) hready rfl hm⟩
      · rw [if_neg hready]
        exact ⟨_, _, rfl, .silent (hft.trans htype) rfl⟩
    have horder :
        ∃ t o, buildError current s m.header.requestId m.header.type .outOfOrder capacity = (t, some o) ∧
        Answers current s frame t o :=
      buildError_answers hs.toEncodable hcap (by rwa [hft]) (frameRequestId_of_decode hm).symm
    rw [if_neg htype]
    cases hstate : s.state with
    | waitHello =>
      dsimp only
      split
      · exact horder
      · exact handleHello_answers hs.toEncodable hcap hstate hm htype
    | waitAuth =>
      dsimp only
      split
      · exact horder
      · exact handleAuth_answers hs hcap hstate hm htype
    | ready => exact handleAuthenticated_answers hs.toEncodable hcap hstate hm htype
    | closed => exact horder

/-! ### Reachable sessions -/

section

variable (hs : s.Encodable current)

include hs

theorem Session.Encodable.buildError {requestId : UInt64} {offendingType : UInt16}
    {code : ErrorCode} :
    (Provider.buildError current s requestId offendingType code capacity).1.Encodable current := by
  unfold Provider.buildError
  split
  · exact hs
  · exact ⟨hs.sessionId_ne, hs.minor, hs.required_known⟩

theorem Session.Encodable.handleHello :
    (Provider.handleHello current s m frame capacity).1.Encodable current := by
  unfold Provider.handleHello
  split
  · exact hs.buildError
  rename_i minor capabilities hnegotiate
  obtain ⟨hminor, -⟩ := encodable_of_negotiate hnegotiate
  dsimp only
  split
  · apply Session.Encodable.buildError
    exact ⟨hs.sessionId_ne, hminor, hs.required_known⟩
  split <;> exact ⟨hs.sessionId_ne, hminor, hs.required_known⟩

theorem Session.Encodable.handleAuth :
    (Provider.handleAuth current hmac s r now crypto m capacity).1.Encodable current := by
  unfold Provider.handleAuth
  dsimp only
  split
  · exact hs.buildError
  split
  · exact hs.buildError
  split
  · apply Session.Encodable.buildError
    exact ⟨hs.sessionId_ne, hs.minor, hs.required_known⟩
  split <;> exact ⟨hs.sessionId_ne, hs.minor, hs.required_known⟩

theorem Session.Encodable.handleAuthenticated :
    (Provider.handleAuthenticated current s r now m capacity).1.Encodable current := by
  unfold Provider.handleAuthenticated
  dsimp only
  split
  · exact hs.buildError
  split
  · exact hs.buildError
  split
  · exact hs.buildError
  split
  · exact hs.buildError
  split
  · exact hs.buildError
  split
  · exact hs.buildError
  split
  · exact hs.buildError
  · exact ⟨hs.sessionId_ne, hs.minor, hs.required_known⟩

theorem Session.Encodable.handle :
    (Provider.handle current hmac s r now crypto frame capacity).1.Encodable current := by
  unfold Provider.handle
  split
  · exact hs
  split
  · exact hs
  · split
    · exact ⟨hs.sessionId_ne, hs.minor, hs.required_known⟩
    · exact hs.buildError
  rename_i m hm
  unfold handleMessage
  dsimp only
  split
  · exact ⟨hs.sessionId_ne, hs.minor, hs.required_known⟩
  cases s.state with
  | waitHello =>
    dsimp only
    split
    · exact hs.buildError
    · exact hs.handleHello
  | waitAuth =>
    dsimp only
    split
    · exact hs.buildError
    · exact hs.handleAuth
  | ready => exact hs.handleAuthenticated
  | closed => exact hs.buildError

end

theorem Session.WellFormed.handled (hs : s.WellFormed current) {o : Option Outcome}
    (hencodable : s'.Encodable current) (h : Handled current hmac s r now frame s' o) :
    s'.WellFormed current := by
  refine ⟨hencodable, fun hstate => ?_⟩
  cases h with
  | closed hs' _ _ =>
    rw [hs'] at hstate
    rcases hstate with h | h <;> cases h
  | unchanged => exact hs.negotiated hstate
  | greeted _ hs' _ =>
    rw [hs'] at hstate
    rcases hstate with h | h <;> cases h
  | unverified _ => exact hs.negotiated hstate
  | challenged _ _ _ hc =>
    have hrequired : s'.requiredCapabilities = s.requiredCapabilities := by rw [hc.session]
    rw [hrequired]
    exact (encodable_of_negotiate hc.negotiated).2
  | authenticated hs' _ _ _ _ _ _ => exact hs.negotiated (.inl hs')
  | delivered hs' _ _ _ => exact hs.negotiated (.inr hs')

theorem SessionConfig.wellFormed (c : SessionConfig current) : c.session.WellFormed current where
  sessionId_ne := c.sessionId_ne
  minor := c.minor_valid
  required_known := c.required_known
  negotiated := nofun

theorem wellFormed_of_reachable {w : SessionWorld} (h : (sessionSystem current hmac).Reachable w) :
    w.session.WellFormed current := by
  refine System.Reach.invariant (I := fun w : SessionWorld => w.session.WellFormed current) ?_ ?_ h
  · rintro w ⟨c, hc⟩
    rw [hc]
    exact c.wellFormed
  · rintro w l _ - hw - ⟨⟩
    cases l with
    | frame frame now crypto capacity =>
      exact hw.handled hw.toEncodable.handle (handle_handled crypto capacity)
    | fail requestId offendingType code capacity =>
      refine ⟨hw.toEncodable.buildError, ?_⟩
      simp only [SessionWorld.step, sessionFail, buildError]
      split
      · exact hw.negotiated
      · rintro (h | h) <;> cases h
    | add c now | revoke consumerId | loadFile file readError now
    | subscribe consumerId version context =>
      simpa only [SessionWorld.step, SessionWorld.update_session] using hw
    | unsubscribe context => exact hw

/-- **Every frame gets a definite answer.** In every state a session reaches, and for every byte
string, a call with room for a maximal frame returns normally with one of the answers. -/
theorem every_frame_answered {w : SessionWorld} (h : (sessionSystem current hmac).Reachable w)
    (frame : List UInt8) (now : ℤ) (crypto : Bool) {capacity : ℕ} (hcap : maxFrameSize ≤ capacity) :
    ∃ s' o, handle current hmac w.session w.registry now crypto frame capacity = (s', some o) ∧
      Answers current w.session frame s' o :=
  handle_answers (wellFormed_of_reachable h) w.registry now crypto frame hcap

/-- A session after its handshake: a STATUS_REQUEST is handed over, and a frame of three bytes ends
the session. -/
theorem every_frame_answered_ready :
    ∃ w, (sessionSystem 1 fun _ _ => sampleTag).Reachable w ∧ w.session.state = .ready ∧
    (∃ s' o, handle 1 (fun _ _ => sampleTag) w.session w.registry 0 true
        (sampleFrame sampleStatusRequest) maxFrameSize = (s', some o) ∧
      o.request.isSome ∧ Answers 1 w.session (sampleFrame sampleStatusRequest) s' o) ∧
    ∃ s' o, handle 1 (fun _ _ => sampleTag) w.session w.registry 0 true [1, 2, 3] maxFrameSize =
      (s', some o) ∧
      s'.state = .closed ∧ Answers 1 w.session [1, 2, 3] s' o := by
  have hrun : ((sessionSystem 1 fun _ _ => sampleTag).exec ⟨sampleConfig.session, {}⟩
    (sampleRun.take 3)).any (fun w =>
      w.session.state = .ready ∧
      (handle 1 (fun _ _ => sampleTag) w.session w.registry 0 true
        (sampleFrame sampleStatusRequest) maxFrameSize).2.any
        (·.request.isSome) ∧
      (handle 1 (fun _ _ => sampleTag) w.session w.registry 0 true [1, 2, 3] maxFrameSize).1.state =
        .closed) = true := by
    decide +kernel
  have hinit : (sessionSystem 1 fun _ _ => sampleTag).init ⟨sampleConfig.session, {}⟩ :=
    ⟨sampleConfig, rfl⟩
  obtain ⟨w, hreach, hready, hdelivered, hclosed⟩ := System.exists_of_exec hinit hrun
  obtain ⟨s₁, o₁, h₁, hanswer₁⟩ :=
    every_frame_answered hreach (sampleFrame sampleStatusRequest) 0 true le_rfl
  obtain ⟨s₂, o₂, h₂, hanswer₂⟩ := every_frame_answered hreach [1, 2, 3] 0 true le_rfl
  rw [h₁] at hdelivered
  rw [h₂] at hclosed
  exact ⟨w, hreach, hready, ⟨s₁, o₁, h₁, hdelivered, hanswer₁⟩, s₂, o₂, h₂, hclosed, hanswer₂⟩

end Provider
end Infiniswap
