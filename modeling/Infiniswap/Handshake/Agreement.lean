/-
# Consumer and Provider agree

The handshake of a Consumer and a Provider of any two builds, over two queues of
frames that lose nothing. The Provider negotiates on the HELLO, the Consumer on
the CHALLENGE, which offers what the Provider has kept. When both are ready they
hold the same session, and where the negotiation fails neither becomes ready.

The registry, the clock and the kernel may do anything at every step, and a ready
Consumer may send anything.
-/
import Infiniswap.Handshake.Consumer
import Infiniswap.Provider.Answers

namespace Infiniswap
namespace Handshake

open Bytes Protocol Transition Provider

variable {s' : Session} {m : Message} {capacity size : ℕ} {rest : List (List UInt8)}
  {o : Option Outcome}

/-- The two sides: the Consumer's configuration and what the Provider's session is initialised with. -/
structure Setup where
  consumer : ConsumerConfig
  minor : UInt16
  supported : UInt64
  required : UInt64
  nonce : Vector UInt8 32
  sessionId : UInt64

/-- Two sessions, the frames in flight, oldest first, and the request that the Provider's runtime
has to answer. -/
structure World where
  consumer : ConsumerSession
  provider : Session
  toProvider : List (List UInt8) := []
  toConsumer : List (List UInt8) := []
  requested : Option Message := none

inductive Label
  /-- The Consumer's delayed work sends the HELLO. -/
  | hello
  /-- The Provider handles the next frame. -/
  | provider (r : Registry) (now : ℤ) (crypto : Bool)
  /-- The Provider's runtime answers a STATUS_REQUEST. -/
  | status (opportunistic committed flags : UInt32)
  /-- The Consumer handles the next frame. -/
  | consumer (ok : Bool)
  /-- The Consumer gives up. -/
  | abandon
  /-- A ready Consumer sends a frame. -/
  | request (frame : List UInt8)

section System

variable (u : Setup) (hmac : List UInt8 → List UInt8 → Vector UInt8 32)

def World.initial : World where
  consumer := u.consumer.session
  provider := Session.init u.minor u.supported u.required u.nonce u.sessionId

/-- The STATUS_RESPONSE of the runtime: `init_outbound_message` and the payload of a status. -/
def statusMessage (s : Session) (requestId : UInt64) (opportunistic committed flags : UInt32) :
    Message where
  header :=
    { major := majorVersion
      minor := s.negotiatedMinor
      type := MessageType.statusResponse.code
      flags := flagResponse
      requestId := requestId
      sessionId := s.sessionId
      capabilities := s.negotiatedCapabilities
      requiredCapabilities := s.requiredCapabilities }
  payload := { status := ⟨opportunistic, committed, s.failureDeadlineMs, flags⟩ }

variable {u hmac} in
/-- The Consumer's session after a handler, with what it sends. -/
def World.react (w : World) (r : Reaction) : World :=
  { w with consumer := r.1, toProvider := w.toProvider ++ r.2.toList }

variable {u hmac} in
/-- The Provider's session after a call, with what it answers. -/
def World.answer (w : World) (a : Answer) : World :=
  { w with
    provider := a.1
    toConsumer := w.toConsumer ++ (a.2.bind (·.response)).toList
    requested := (a.2.bind (·.request)).or w.requested }

def World.step (w : World) : Label → Option World
  | .hello => some (w.react (sendHello u.consumer w.consumer))
  | .provider r now crypto =>
    match w.toProvider with
    | [] => none
    | frame :: rest =>
      some (({ w with toProvider := rest } : World).answer
        (handle u.minor.toNat hmac w.provider r now crypto frame maxFrameSize))
  | .status opportunistic committed flags =>
    match w.requested with
    | none => none
    | some m =>
      match encode u.minor.toNat
        (statusMessage w.provider m.header.requestId opportunistic committed flags) maxFrameSize with
      | .error _ => some { w with requested := none }
      | .ok (_, frame) => some { w with requested := none, toConsumer := w.toConsumer ++ [frame] }
  | .consumer ok =>
    match w.toConsumer with
    | [] => none
    | frame :: rest =>
      some (({ w with toConsumer := rest } : World).react (receive u.consumer hmac ok w.consumer frame))
  | .abandon => some { w with consumer := w.consumer.fail }
  | .request frame =>
    if w.consumer.state = .ready then some { w with toProvider := w.toProvider ++ [frame] } else none

/-- The handshake of the two sides. -/
def handshake : System World Label where
  init w := w = World.initial u
  step w l := w.step u hmac l

end System

/-- What the Provider finds in the Consumer's offer. -/
def Setup.Offer (u : Setup) (minor : UInt16) (capabilities : UInt64) : Prop :=
  negotiate u.minor.toNat u.minor u.supported u.required u.consumer.minor u.consumer.capabilities
    u.consumer.required = .ok (minor, capabilities)

/-- Both sessions hold the same. -/
structure Agree (u : Setup) (w : World) : Prop where
  sessionId : w.consumer.sessionId = w.provider.sessionId
  minor : w.consumer.negotiatedMinor = w.provider.negotiatedMinor
  capabilities : w.consumer.negotiatedCapabilities = w.provider.negotiatedCapabilities
  mode : w.provider.selectedMode = u.consumer.mode
  pool : w.provider.selectedPool = u.consumer.pool
  deadline : w.provider.failureDeadlineMs = u.consumer.failureDeadlineMs

/-! ### What the Consumer can do -/

section Consumer

variable {c : ConsumerConfig} {hmac : List UInt8 → List UInt8 → Vector UInt8 32}
  {s : ConsumerSession} {ok : Bool}
  {frame : List UInt8}

/-- What a frame can do to a Consumer's session. -/
inductive Received (c : ConsumerConfig) (s : ConsumerSession) (frame : List UInt8) : Reaction → Prop
  | failed {s' : ConsumerSession} : s'.state = .failed → Received c s frame (s', none)
  | challenged {s' : ConsumerSession} {m : Message} {out} : s.state = .waitChallenge →
      decode c.minor.toNat frame = .ok m → m.header.type = MessageType.challenge.code →
      negotiate c.minor.toNat c.minor c.capabilities c.required m.header.minor m.header.capabilities
        m.header.requiredCapabilities = .ok (s'.negotiatedMinor, s'.negotiatedCapabilities) →
      s'.state = .waitAccept → Received c s frame (s', out)
  | accepted {s' : ConsumerSession} {m : Message} {out} : s.state = .waitAccept →
      decode c.minor.toNat frame = .ok m → m.header.type = MessageType.accept.code →
      s'.sessionId = m.header.sessionId → s'.negotiatedMinor = s.negotiatedMinor →
      s'.negotiatedCapabilities = s.negotiatedCapabilities → s'.state = .waitStatus ∨ s'.state = .ready →
      Received c s frame (s', out)
  | status : s.state = .waitStatus →
      Received c s frame ({ s with pendingRequestId := 0, state := .ready }, none)
  | unchanged : s.state = .ready → Received c s frame (s, none)

theorem received_encodeAndSend {s' : ConsumerSession} (h : ∀ out, Received c s frame (s', out)) :
    Received c s frame (encodeAndSend c s' m) := by
  unfold encodeAndSend
  split
  · exact .failed rfl
  · exact h _

theorem receive_received (s : ConsumerSession) (frame : List UInt8) :
    Received c s frame (receive c hmac ok s frame) := by
  unfold receive
  split
  · exact .failed rfl
  · exact .failed rfl
  rename_i m hm
  split
  · exact .failed rfl
  split
  · rename_i hs
    split
    · exact .failed rfl
    rename_i htype
    unfold handleChallenge
    split
    · exact .failed rfl
    split
    · exact .failed rfl
    rename_i minor capabilities hnegotiate
    split
    · exact .failed rfl
    dsimp only
    split
    · exact .failed rfl
    exact received_encodeAndSend fun out => .challenged hs hm (not_not.mp htype) hnegotiate rfl
  · rename_i hs
    split
    · exact .failed rfl
    rename_i htype
    unfold handleAccept
    split
    · exact .failed rfl
    dsimp only
    split
    · split
      · exact .failed rfl
      · exact .accepted hs hm (not_not.mp htype) rfl rfl rfl (.inr rfl)
    · exact received_encodeAndSend fun out => .accepted hs hm (not_not.mp htype) rfl rfl rfl (.inl rfl)
  · rename_i hs
    split
    · exact .failed rfl
    unfold handleStatus
    split
    · exact .failed rfl
    · exact .status hs
  · rename_i hs
    split
    · exact .unchanged hs
    · exact .failed rfl
  · exact .failed rfl
  · exact .failed rfl

end Consumer

/-! ### The invariant -/

/-- The Consumer has accepted a CHALLENGE. -/
def ConsumerSession.Past (s : ConsumerSession) : Prop :=
  s.state = .waitAccept ∨ s.state = .waitStatus ∨ s.state = .ready

/-- The Provider has answered a HELLO, and is not closed. -/
def Open (s : Session) : Prop := s.state = .waitAuth ∨ s.state = .ready

theorem not_past {s : ConsumerSession}
    (h : s.state = .connecting ∨ s.state = .waitChallenge ∨ s.state = .failed) : ¬s.Past := by
  rw [ConsumerSession.Past]
  rcases h with h | h | h <;> simp [h]

/-- The HELLO of the Consumer. -/
def HelloFrame (u : Setup) (frame : List UInt8) : Prop :=
  ∃ size, encode u.consumer.minor.toNat (u.consumer.helloMessage 1) maxFrameSize = .ok (size, frame)

/-- A CHALLENGE offers what the Provider has negotiated, and an ACCEPT names its session. -/
def FromProvider (u : Setup) (s : Session) (frame : List UInt8) : Prop :=
  ∀ m, decode u.consumer.minor.toNat frame = .ok m →
    (m.header.type = MessageType.challenge.code → m.header.minor = s.negotiatedMinor ∧
      m.header.capabilities = s.negotiatedCapabilities ∧
        m.header.requiredCapabilities = s.requiredCapabilities) ∧
    (m.header.type = MessageType.accept.code → m.header.sessionId = s.sessionId)

/-- What the Provider's session was initialised with. -/
structure Configured (u : Setup) (s : Session) : Prop where
  localMinor : s.localMinor = u.minor
  supported : s.supportedCapabilities = u.supported
  required : s.requiredCapabilities = u.required

/-- What the Provider has kept of the HELLO. -/
structure Offered (u : Setup) (s : Session) : Prop extends Configured u s where
  offer : u.Offer s.negotiatedMinor s.negotiatedCapabilities
  mode : s.selectedMode = u.consumer.mode
  pool : s.selectedPool = u.consumer.pool
  deadline : s.failureDeadlineMs = u.consumer.failureDeadlineMs

/-- The CHALLENGE that offers what the Provider has kept. -/
def Offering (u : Setup) (frame : List UInt8) : Prop :=
  ∃ s, Offered u s ∧
    ∃ capacity size, encode u.minor.toNat (challengeMessage s 1) capacity = .ok (size, frame)

structure HandshakeInv (u : Setup) (w : World) : Prop where
  connecting : w.consumer.state = .connecting →
    w.consumer = u.consumer.session ∧ w.toProvider = [] ∧ w.provider.state = .waitHello
  waiting : w.provider.state = .waitHello → w.toConsumer = [] ∧ (∀ f ∈ w.toProvider, HelloFrame u f) ∧
    ¬w.consumer.Past ∧ Configured u w.provider
  greeting : w.consumer.state = .waitChallenge → w.consumer.pendingRequestId = 1 ∧
    w.consumer.nextRequestId = 2
  offered : Open w.provider → Offered u w.provider
  challenge : ∀ f ∈ w.toConsumer, ∀ current m, decode current f = .ok m →
    m.header.type = MessageType.challenge.code → Offering u f
  frames : Open w.provider → ∀ f ∈ w.toConsumer, FromProvider u w.provider f
  past : w.consumer.Past → ∃ minor capabilities, u.Offer minor capabilities
  agreed : w.consumer.Past → Open w.provider → w.consumer.negotiatedMinor = w.provider.negotiatedMinor ∧
    w.consumer.negotiatedCapabilities = w.provider.negotiatedCapabilities
  session : w.consumer.state = .waitStatus ∨ w.consumer.state = .ready → Open w.provider →
    w.consumer.sessionId = w.provider.sessionId
  requested : w.provider.state = .waitHello → w.requested = none

variable {u : Setup} {hmac : List UInt8 → List UInt8 → Vector UInt8 32} {w : World}

variable {frame : List UInt8}

theorem header_of_encode {current current' : ℕ} {m' : Message}
    (h : encode current m capacity = .ok (size, frame)) (h' : decode current' frame = .ok m') :
    m'.header = m.header := by
  obtain ⟨-, -, m₀, hm₀, hheader, -⟩ := decode_encode h
  rw [decode_unique h' hm₀, hheader]

/-- A frame that was encoded as another type is no CHALLENGE and no ACCEPT. -/
theorem type_of_encode {current current' : ℕ} {m' : Message} {t t' : MessageType}
    (h : encode current m capacity = .ok (size, frame)) (hm : m.header.type = t.code)
    (h' : decode current' frame = .ok m') (hm' : m'.header.type = t'.code) : t = t' := by
  rw [header_of_encode h h', hm] at hm'
  have hcode := congrArg MessageType.ofCode hm'
  rw [MessageType.ofCode_code, MessageType.ofCode_code] at hcode
  exact Option.some.inj hcode

theorem hello_of_decode (hframe : HelloFrame u frame) (hm : decode u.minor.toNat frame = .ok m) :
    m.header = (u.consumer.helloMessage 1).header ∧ m.payload.hello.mode = u.consumer.mode ∧
      m.payload.hello.pool = u.consumer.pool ∧
      m.payload.hello.failureDeadlineMs = u.consumer.failureDeadlineMs := by
  obtain ⟨size, hencode⟩ := hframe
  obtain ⟨-, -, m₀, hm₀, hheader, hcontent⟩ := decode_encode hencode
  have hsame := decode_unique hm hm₀
  subst hsame
  have htype : MessageType.ofCode m.header.type = some .hello := by
    rw [hheader]
    rfl
  rw [Message.content, Payload.content, htype] at hcontent
  have hcontent' : Content.hello (cstring m.payload.hello.consumerId)
      (cstring m.payload.hello.keyId) m.payload.hello.nonce m.payload.hello.mode m.payload.hello.pool
      m.payload.hello.failureDeadlineMs =
    Content.hello (cstring (u.consumer.helloMessage 1).payload.hello.consumerId)
      (cstring (u.consumer.helloMessage 1).payload.hello.keyId) u.consumer.nonce u.consumer.mode
      u.consumer.pool u.consumer.failureDeadlineMs := hcontent
  injection hcontent' with _ _ _ hmode hpool hdeadline
  exact ⟨hheader, hmode, hpool, hdeadline⟩

/-! ### The Provider's steps -/

/-- The Provider handles a frame; what its session and its response have to satisfy. -/
theorem HandshakeInv.answer (h : HandshakeInv u w) (hq : w.toProvider = frame :: rest)
    (hwaiting : s'.state = .waitHello → w.provider.state = .waitHello ∧ o = none ∧ Configured u s')
    (hoffered : Open s' → Offered u s')
    (hchallenge : ∀ response, o.bind (·.response) = some response →
      ∀ current m, decode current response = .ok m →
        m.header.type = MessageType.challenge.code → Offering u response)
    (hold : Open s' → ∀ f ∈ w.toConsumer, FromProvider u s' f)
    (hnew : Open s' → ∀ response, o.bind (·.response) = some response → FromProvider u s' response)
    (hagreed : w.consumer.Past → Open s' → w.consumer.negotiatedMinor = s'.negotiatedMinor ∧
      w.consumer.negotiatedCapabilities = s'.negotiatedCapabilities)
    (hsession : w.consumer.state = .waitStatus ∨ w.consumer.state = .ready → Open s' →
      w.consumer.sessionId = s'.sessionId) :
    HandshakeInv u (({ w with toProvider := rest } : World).answer (s', o)) where
  connecting hc := by
    rw [(h.connecting hc).2.1] at hq
    cases hq
  waiting hs := by
    obtain ⟨hp, hnone, hconfigured⟩ := hwaiting hs
    obtain ⟨hempty, hhello, hpast, -⟩ := h.waiting hp
    refine ⟨?_, fun f hf => hhello f (hq ▸ List.mem_cons_of_mem _ hf), hpast, hconfigured⟩
    simp only [World.answer]
    rw [hempty, hnone]
    rfl
  requested hs := by
    obtain ⟨hp, hnone, -⟩ := hwaiting hs
    simp only [World.answer]
    rw [h.requested hp, hnone]
    rfl
  greeting := h.greeting
  offered := hoffered
  challenge f hf := by
    rcases List.mem_append.mp hf with hf | hf
    · exact h.challenge f hf
    · exact hchallenge f (Option.mem_toList.mp hf)
  frames ho f hf := by
    rcases List.mem_append.mp hf with hf | hf
    · exact hold ho f hf
    · exact hnew ho f (Option.mem_toList.mp hf)
  past := h.past
  agreed := hagreed
  session := hsession

theorem not_open {s : Session} (h : s.state = .closed ∨ s.state = .waitHello) : ¬Open s := by
  rw [Open]
  rcases h with h | h <;> simp [h]

section

variable (h : HandshakeInv u w)

include h

theorem HandshakeInv.stays (hq : w.toProvider = frame :: rest) (ho : Open w.provider)
    (ho' : Open s') (hoffered : Offered u s')
    (hminor : s'.negotiatedMinor = w.provider.negotiatedMinor)
    (hcaps : s'.negotiatedCapabilities = w.provider.negotiatedCapabilities)
    (hrequired : s'.requiredCapabilities = w.provider.requiredCapabilities)
    (hid : s'.sessionId = w.provider.sessionId)
    (haccept : ∀ response, o.bind (·.response) = some response → ∃ requestId capacity size,
      encode u.minor.toNat (acceptMessage s' requestId) capacity = .ok (size, response)) :
    HandshakeInv u (({ w with toProvider := rest } : World).answer (s', o)) := by
  refine h.answer hq (fun hs => absurd ho' (not_open (.inr hs)))
    (fun _ => hoffered) (fun response hr _ m hm htype => ?_) (fun _ f hf m hm => ?_)
    (fun _ response hr m hm => ⟨fun htype => ?_, fun _ => ?_⟩) (fun hp _ => ?_) fun hc _ => ?_
  · obtain ⟨_, _, _, hencode⟩ := haccept response hr
    cases type_of_encode (t := .accept) hencode rfl hm htype
  · rw [hminor, hcaps, hrequired, hid]
    exact h.frames ho f hf m hm
  · obtain ⟨_, _, _, hencode⟩ := haccept response hr
    cases type_of_encode (t := .accept) hencode rfl hm htype
  · obtain ⟨_, _, _, hencode⟩ := haccept response hr
    rw [header_of_encode hencode hm]
    rfl
  · rw [hminor, hcaps]
    exact h.agreed hp ho
  · rw [hid]
    exact h.session hc ho

/-- **The invariant over one call of the Provider.** -/
theorem HandshakeInv.provider (hq : w.toProvider = frame :: rest) {r : Registry} {now : ℤ}
    (hhandled : Handled u.minor.toNat hmac w.provider r now frame s' o) :
    HandshakeInv u (({ w with toProvider := rest } : World).answer (s', o)) := by
  cases hhandled with
  | @closed _ out hs' _ hresponse =>
    have hnot := not_open (.inl hs')
    refine h.answer hq (fun hs => ?_) (absurd · hnot) (fun response hr _ m hm htype => ?_)
      (absurd · hnot) (absurd · hnot)
      (fun _ ho => absurd ho hnot) fun _ ho => absurd ho hnot
    · rw [hs'] at hs
      cases hs
    · obtain ⟨s₁, requestId, offendingType, code, capacity, size, hencode⟩ := hresponse response hr
      cases type_of_encode (t := .error) hencode rfl hm htype
  | unchanged =>
    exact h.answer hq
      (fun hs => ⟨hs, rfl, (h.waiting hs).2.2.2⟩) h.offered nofun h.frames nofun h.agreed h.session
  | greeted hs hs' hsame =>
    have hnot := not_open (.inr hs')
    refine h.answer hq (fun _ => ⟨hs, rfl, ?_⟩) (absurd · hnot) nofun (absurd · hnot) (absurd · hnot)
      (fun _ ho => absurd ho hnot) fun _ ho => absurd ho hnot
    obtain ⟨hminor, hsupported, hrequired⟩ := (h.waiting hs).2.2.2
    exact ⟨hsame.localMinor.trans hminor, hsame.supported.trans hsupported,
      hsame.required.trans hrequired⟩
  | unverified hs =>
    exact h.stays hq (.inl hs) (.inl hs) { h.offered (.inl hs) with } rfl rfl rfl rfl nofun
  | @challenged _ m response hs hm htype hc =>
    obtain ⟨hempty, hhello, hpast, hconfigured⟩ := h.waiting hs
    obtain ⟨hheader, hmode, hpool, hdeadline⟩ :=
      hello_of_decode (hhello frame (hq ▸ List.mem_cons_self)) hm
    obtain ⟨capacity, size, hencode⟩ := hc.encoded
    have hoffer : u.Offer s'.negotiatedMinor s'.negotiatedCapabilities := by
      have hn := hc.negotiated
      rw [hconfigured.localMinor, hconfigured.supported, hconfigured.required, hheader] at hn
      exact hn
    have hoffered : Offered u s' := by
      rw [hc.session]
      exact ⟨⟨hconfigured.localMinor, hconfigured.supported, hconfigured.required⟩, hoffer, hmode,
        hpool, hdeadline⟩
    refine h.answer hq (fun hs' => ?_) (fun _ => hoffered) (fun f hf _ _ _ _ => ?_) (fun _ f hf => ?_)
      (fun _ f hf => ?_) (fun hp => absurd hp hpast) fun hp => absurd (.inr hp) hpast
    · rw [hc.session] at hs'
      cases hs'
    · cases hf
      have hid : m.header.requestId = 1 := by
        rw [hheader]
        rfl
      exact ⟨s', hoffered, capacity, size, hid ▸ hencode⟩
    · rw [hempty] at hf
      cases hf
    · cases hf
      intro m' hm'
      have hm'' := header_of_encode hencode hm'
      refine ⟨fun _ => ?_, fun htype' => ?_⟩
      · rw [hm'']
        exact ⟨rfl, rfl, rfl⟩
      · cases type_of_encode (t := .challenge) hencode rfl hm' htype'
  | authenticated hs _ _ _ _ _ hresponse =>
    refine h.stays hq (.inl hs) (.inr rfl) { h.offered (.inl hs) with } rfl rfl rfl rfl
      fun response hr => ?_
    obtain ⟨out, hout, hr⟩ := Option.bind_eq_some_iff.mp hr
    exact ⟨_, hresponse out response hout hr⟩
  | delivered hs =>
    exact h.stays hq (.inr hs) (.inr hs) { h.offered (.inr hs) with } rfl rfl rfl rfl nofun

/-! ### The Consumer's steps -/

theorem HandshakeInv.fail {c : ConsumerSession} (hc : c.state = .failed) {queue : List (List UInt8)}
    (hqueue : ∀ f ∈ queue, f ∈ w.toConsumer) :
    HandshakeInv u { w with consumer := c, toConsumer := queue } := by
  have hpast : ¬c.Past := not_past (.inr (.inr hc))
  refine { h with
    connecting := fun hs => ?_
    waiting := fun hs => ?_
    greeting := fun hs => ?_
    challenge := fun f hf => h.challenge f (hqueue f hf)
    frames := fun ho f hf => h.frames ho f (hqueue f hf)
    past := fun hp => absurd hp hpast
    agreed := fun hp => absurd hp hpast
    session := fun hp => absurd (.inr hp) hpast }
  · rw [hc] at hs
    cases hs
  · obtain ⟨hempty, hhello, -, hconfigured⟩ := h.waiting hs
    refine ⟨List.eq_nil_iff_forall_not_mem.mpr fun f hf => ?_, hhello, hpast, hconfigured⟩
    have hf' := hqueue f hf
    rw [hempty] at hf'
    cases hf'
  · rw [hc] at hs
    cases hs

theorem HandshakeInv.accept (hq : w.toConsumer = frame :: rest) {c : ConsumerSession}
    {sent : List (List UInt8)} (hpast : c.Past)
    (hoffer : ∃ minor capabilities, u.Offer minor capabilities)
    (hagreed : Open w.provider → c.negotiatedMinor = w.provider.negotiatedMinor ∧
      c.negotiatedCapabilities = w.provider.negotiatedCapabilities)
    (hsession : c.state = .waitStatus ∨ c.state = .ready → Open w.provider →
      c.sessionId = w.provider.sessionId) :
    HandshakeInv u { w with consumer := c, toConsumer := rest, toProvider := w.toProvider ++ sent } where
  connecting hs := by rcases hpast with hp | hp | hp <;> (rw [hs] at hp; cases hp)
  waiting hs := by
    rw [(h.waiting hs).1] at hq
    cases hq
  greeting hs := by rcases hpast with hp | hp | hp <;> (rw [hs] at hp; cases hp)
  offered := h.offered
  challenge f hf := h.challenge f (hq ▸ List.mem_cons_of_mem _ hf)
  frames ho f hf := h.frames ho f (hq ▸ List.mem_cons_of_mem _ hf)
  past _ := hoffer
  agreed _ := hagreed
  session := hsession
  requested := h.requested

/-- **The invariant over a frame that the Consumer handles.** -/
theorem HandshakeInv.consumer (hq : w.toConsumer = frame :: rest) {r : Reaction}
    (hr : Received u.consumer w.consumer frame r) :
    HandshakeInv u (({ w with toConsumer := rest } : World).react r) := by
  have hmem : frame ∈ w.toConsumer := hq ▸ List.mem_cons_self
  cases hr with
  | @failed s' hs' =>
    have hrest : ∀ f ∈ rest, f ∈ w.toConsumer := fun f hf => hq ▸ List.mem_cons_of_mem _ hf
    rw [World.react]
    simpa using h.fail hs' hrest
  | @challenged s' m out hs hm htype hnegotiate hs' =>
    obtain ⟨s, hoffered, -⟩ := h.challenge frame hmem _ m hm htype
    refine h.accept hq (.inl hs') ⟨_, _, hoffered.offer⟩ (fun ho => ?_) fun hst => ?_
    · -- the Provider's offer, negotiated again, is what the Provider holds
      obtain ⟨⟨-, -, hrequired⟩, hkept, -⟩ := h.offered ho
      obtain ⟨hminor, hcaps, hreq⟩ := (h.frames ho frame hmem m hm).1 htype
      rw [hminor, hcaps, hreq, hrequired, negotiate_again hkept] at hnegotiate
      obtain ⟨hm', hc'⟩ := Prod.mk.inj (Except.ok.inj hnegotiate)
      exact ⟨hm'.symm, hc'.symm⟩
    · rcases hst with hst | hst <;> (rw [hs'] at hst; cases hst)
  | @accepted s' m out hs hm htype hid hminor hcaps hs' =>
    have hpast : w.consumer.Past := .inl hs
    refine h.accept hq (.inr hs') (h.past hpast) (fun ho => ?_) fun _ ho => ?_
    · obtain ⟨hminor', hcaps'⟩ := h.agreed hpast ho
      exact ⟨hminor.trans hminor', hcaps.trans hcaps'⟩
    · rw [hid]
      exact (h.frames ho frame hmem m hm).2 htype
  | status hs =>
    have hpast : w.consumer.Past := .inr (.inl hs)
    exact h.accept hq (.inr (.inr rfl)) (h.past hpast) (h.agreed hpast) fun _ => h.session (.inl hs)
  | unchanged hs =>
    have hpast : w.consumer.Past := .inr (.inr hs)
    exact h.accept hq hpast (h.past hpast) (h.agreed hpast) fun _ => h.session (.inr hs)

theorem HandshakeInv.hello : HandshakeInv u (w.react (sendHello u.consumer w.consumer)) := by
  have hfail {c : ConsumerSession} (hc : c.state = .failed) : HandshakeInv u (w.react (c, none)) := by
    rw [World.react]
    simpa using h.fail hc fun f hf => hf
  unfold sendHello
  split
  · exact hfail rfl
  rename_i hstate
  obtain ⟨hconsumer, hempty, hwaiting⟩ := h.connecting (not_not.mp hstate)
  dsimp only
  split
  · exact hfail rfl
  rename_i size frame hencode
  have hid : w.consumer.nextRequestId = 1 := by
    rw [hconsumer]
    rfl
  rw [hid] at hencode ⊢
  obtain ⟨hempty', -, -, hconfigured⟩ := h.waiting hwaiting
  refine { h with
    connecting := nofun
    waiting := fun _ => ⟨hempty', fun f hf => ?_, not_past (.inr (.inl rfl)), hconfigured⟩
    greeting := fun _ => ⟨rfl, rfl⟩
    past := fun hp => absurd hp (not_past (.inr (.inl rfl)))
    agreed := fun hp => absurd hp (not_past (.inr (.inl rfl)))
    session := fun hp => absurd (.inr hp) (not_past (.inr (.inl rfl))) }
  simp only [World.react, hempty, List.nil_append, Option.toList_some, List.mem_singleton] at hf
  exact ⟨size, hf ▸ hencode⟩

theorem HandshakeInv.status {opportunistic committed flags : UInt32}
    (hwaiting : w.provider.state ≠ .waitHello)
    (hencode : encode u.minor.toNat
      (statusMessage w.provider m.header.requestId opportunistic committed flags) maxFrameSize =
        .ok (size, frame)) :
    HandshakeInv u { w with requested := none, toConsumer := w.toConsumer ++ [frame] } := by
  have hnot {current : ℕ} {m' : Message} {t : MessageType} (hm' : decode current frame = .ok m')
      (ht : m'.header.type = t.code) : MessageType.statusResponse = t := type_of_encode hencode rfl hm' ht
  refine { h with
    waiting := fun hs => absurd hs hwaiting
    challenge := fun f hf _ m' hm' htype => ?_
    frames := fun ho f hf => ?_
    requested := fun _ => rfl }
  · rcases List.mem_append.mp hf with hf | hf
    · exact h.challenge f hf _ m' hm' htype
    · cases List.mem_singleton.mp hf
      cases hnot hm' htype
  · rcases List.mem_append.mp hf with hf | hf
    · exact h.frames ho f hf
    · cases List.mem_singleton.mp hf
      intro m' hm'
      refine ⟨fun ht => ?_, fun ht => ?_⟩
      · cases hnot hm' ht
      · cases hnot hm' ht

end

/-! ### Runs -/

theorem HandshakeInv.initial : HandshakeInv u (World.initial u) where
  connecting _ := ⟨rfl, rfl, rfl⟩
  waiting _ := ⟨rfl, nofun, not_past (.inl rfl), rfl, rfl, rfl⟩
  greeting := nofun
  offered ho := absurd ho (not_open (.inr rfl))
  challenge := nofun
  frames _ := nofun
  past hp := absurd hp (not_past (.inl rfl))
  agreed hp := absurd hp (not_past (.inl rfl))
  session hp := absurd (.inr hp) (not_past (.inl rfl))
  requested _ := rfl

/-- **One step of the handshake keeps the invariant.** -/
theorem HandshakeInv.step (h : HandshakeInv u w) {l : Label} {w' : World}
    (hstep : w.step u hmac l = some w') : HandshakeInv u w' := by
  cases l with
  | hello =>
    cases hstep
    exact h.hello
  | provider r now crypto =>
    simp only [World.step] at hstep
    split at hstep
    · cases hstep
    rename_i frame rest hq
    cases hstep
    exact h.provider hq (handle_handled crypto maxFrameSize)
  | status opportunistic committed flags =>
    simp only [World.step] at hstep
    split at hstep
    · cases hstep
    rename_i m hm
    split at hstep
    · cases hstep
      exact { h with requested := fun _ => rfl }
    · rename_i size frame hencode
      cases hstep
      refine h.status (fun hs => ?_) hencode
      rw [h.requested hs] at hm
      cases hm
  | consumer ok =>
    simp only [World.step] at hstep
    split at hstep
    · cases hstep
    rename_i frame rest hq
    cases hstep
    exact h.consumer hq (receive_received w.consumer frame)
  | abandon =>
    cases hstep
    exact h.fail rfl fun f hf => hf
  | request frame =>
    simp only [World.step] at hstep
    split_ifs at hstep with hready
    cases hstep
    refine { h with
      connecting := fun hs => ?_
      waiting := fun hs => absurd (.inr (.inr hready)) (h.waiting hs).2.2.1 }
    rw [hready] at hs
    cases hs

theorem handshakeInv_of_reachable (h : (handshake u hmac).Reachable w) : HandshakeInv u w := by
  refine System.Reach.invariant (I := HandshakeInv u) ?_ ?_ h
  · rintro w rfl
    exact .initial
  · intro w l w' _ hw _ hstep
    exact hw.step hstep

/-! ### The CHALLENGE -/

/-- The builds differ in the minor versions they know, and in nothing else that the encoder checks. -/
theorem encode_challenge_consumer {s : Session} (h : Offered u s) {requestId : UInt64}
    (hencode : encode u.minor.toNat (challengeMessage s requestId) capacity = .ok (size, frame)) :
    encode u.consumer.minor.toNat (challengeMessage s requestId) capacity = .ok (size, frame) := by
  obtain ⟨-, hminor, -⟩ := negotiate_eq_ok.mp (negotiate_again h.offer)
  obtain ⟨-, hminor', -⟩ := validateHeader_eq_ok.mp (encode_ok hencode).1
  have hv : validateHeader u.consumer.minor.toNat (challengeMessage s requestId).header =
      validateHeader u.minor.toNat (challengeMessage s requestId).header := by
    rw [(encode_ok hencode).1]
    obtain ⟨hmajor, -, hrest⟩ := validateHeader_eq_ok.mp (encode_ok hencode).1
    exact validateHeader_eq_ok.mpr ⟨hmajor, hminor, hrest⟩
  have hs : payloadSize u.consumer.minor.toNat (challengeMessage s requestId) =
      payloadSize u.minor.toNat (challengeMessage s requestId) := by
    have hconsumer : payloadSize u.consumer.minor.toNat (challengeMessage s requestId) =
        .ok (challengeSize, 0, 0) :=
      if_pos hminor
    have hprovider :
        payloadSize u.minor.toNat (challengeMessage s requestId) = .ok (challengeSize, 0, 0) :=
      if_pos hminor'
    rw [hconsumer, hprovider]
  rw [encode, hv, hs, ← encode, hencode]

/-- The AUTH of a Consumer whose required capabilities were negotiated can be sent. -/
theorem encodeAndSend_auth {c : ConsumerConfig} {s : ConsumerSession} {requestId : UInt64}
    {tag : Vector UInt8 32} (hminor : minorValid c.minor.toNat s.negotiatedMinor = true)
    (hknown : CapsIn c.required capKnown) (hrequired : CapsIn c.required s.negotiatedCapabilities)
    (hid : requestId ≠ 0) : (encodeAndSend c s (c.authMessage s requestId tag)).1 = s := by
  have hv : validateHeader c.minor.toNat (c.authMessage s requestId tag).header = .ok () := by
    rw [validateHeader_eq_ok]
    exact ⟨rfl, hminor, rfl, hknown, hrequired, hid, rfl, sessionIdValid_of_type (t := .auth) rfl rfl⟩
  have hs : payloadSize c.minor.toNat (c.authMessage s requestId tag) = .ok (authTagSize, 0, 0) := rfl
  obtain ⟨frame, m, hencode, -⟩ := exists_encode hv hs le_rfl
  rw [encodeAndSend, hencode]

/-- **The Consumer accepts every CHALLENGE of the Provider**, which offers what the Consumer requires. -/
theorem challenge_accepted (h : HandshakeInv u w) (hframe : frame ∈ w.toConsumer)
    (hstate : w.consumer.state = .waitChallenge) (hm : decode u.minor.toNat frame = .ok m)
    (htype : m.header.type = MessageType.challenge.code) :
    (receive u.consumer hmac true w.consumer frame).1.state = .waitAccept ∧
      CapsIn u.consumer.required m.header.capabilities := by
  obtain ⟨s, hoffered, capacity, size, hencode⟩ := h.challenge frame hframe _ m hm htype
  have hencode' := encode_challenge_consumer hoffered hencode
  obtain ⟨-, -, m₀, hm₀, hheader, hcontent⟩ := decode_encode hencode'
  obtain rfl := decode_unique hm hm₀
  have hagain := negotiate_again hoffered.offer
  rw [← hoffered.required] at hagain
  obtain ⟨-, hminor, -, hknown, -, -, -, -, -⟩ := negotiate_eq_ok.mp hagain
  obtain ⟨-, -, -, -, -, -, hrequired, -, hcaps⟩ := negotiate_eq_ok.mp hoffered.offer
  rw [← hcaps] at hrequired
  obtain ⟨hpending, hnext⟩ := h.greeting hstate
  have hpayload : m.payload.challenge.negotiatedMinor = s.negotiatedMinor := by
    have htype' : MessageType.ofCode m.header.type = some .challenge := by
      rw [htype]
      rfl
    rw [Message.content, Payload.content, htype'] at hcontent
    have hcontent' : Content.challenge m.payload.challenge =
        Content.challenge ⟨s.providerNonce, s.negotiatedMinor⟩ :=
      hcontent
    rw [Content.challenge.inj hcontent']
  refine ⟨?_, by rw [hheader]; exact hrequired⟩
  have herror : m.header.type ≠ MessageType.error.code := by
    rw [htype]
    decide
  have hchecks : ¬(m.header.major ≠ majorVersion ∨ m.header.flags &&& flagResponse = 0 ∨
      m.header.requestId ≠ w.consumer.pendingRequestId ∨ m.header.sessionId ≠ 0) := by
    rw [hheader, hpending]
    simp [challengeMessage]
    decide
  have hreceive : receive u.consumer hmac true w.consumer frame =
      handleChallenge u.consumer hmac true { w.consumer with challengeFrame := frame } m := by
    rw [receive, hm₀]
    simp only [if_neg herror, hstate]
    exact if_neg (not_not.mpr htype)
  rw [hreceive, handleChallenge, if_neg hchecks, hheader]
  simp only [challengeMessage, hagain, hpayload, ne_eq, not_true_eq_false, if_false, Bool.not_true,
    Bool.false_eq_true]
  rw [encodeAndSend_auth hminor hknown hrequired]
  rw [hnext]
  decide

/-! ### Agreement -/

theorem agree_of_ready (h : HandshakeInv u w) (hc : w.consumer.state = .ready)
    (hp : w.provider.state = .ready) : Agree u w := by
  have ho : Open w.provider := .inr hp
  obtain ⟨-, -, hmode, hpool, hdeadline⟩ := h.offered ho
  obtain ⟨hminor, hcaps⟩ := h.agreed (.inr (.inr hc)) ho
  exact ⟨h.session (.inr hc) ho, hminor, hcaps, hmode, hpool, hdeadline⟩

/-- **Consumer and Provider agree**, in every world they can reach:

* a Consumer that waits for a CHALLENGE accepts the Provider's exactly when it offers what the
  Consumer requires,
* when both are ready they hold the same, and
* when there is nothing to agree on, neither is ready. -/
theorem handshake_agreement (h : (handshake u hmac).Reachable w) :
    (∀ frame rest m, w.toConsumer = frame :: rest → w.consumer.state = .waitChallenge →
      decode u.minor.toNat frame = .ok m → m.header.type = MessageType.challenge.code →
      ∃ w', w.step u hmac (.consumer true) = some w' ∧
        (w'.consumer.state = .waitAccept ↔ CapsIn u.consumer.required m.header.capabilities)) ∧
    (w.consumer.state = .ready → w.provider.state = .ready → Agree u w) ∧
    ((¬∃ minor capabilities, u.Offer minor capabilities) → w.consumer.state ≠ .ready ∧
      w.provider.state ≠ .ready) := by
  have hinv := handshakeInv_of_reachable h
  refine ⟨fun frame rest m hq hstate hm htype => ?_, agree_of_ready hinv,
    fun hnone => ⟨fun hc => ?_, fun hp => ?_⟩⟩
  · obtain ⟨haccept, hrequired⟩ := challenge_accepted hinv (hq ▸ List.mem_cons_self) hstate hm htype
    refine ⟨({ w with toConsumer := rest } : World).react
      (receive u.consumer hmac true w.consumer frame), ?_, ?_⟩
    · simp only [World.step, hq]
    · exact iff_of_true haccept hrequired
  · exact hnone (hinv.past (.inr (.inr hc)))
  · exact hnone ⟨_, _, (hinv.offered (.inr hp)).offer⟩

/-! A Consumer of build 1 and a Provider of build 2, which knows the Consumer's key. -/

def sampleSetup : Setup where
  consumer :=
    { minor := 1
      capabilities := 0x75
      required := 0x71
      remoteOnly := false
      consumerId := [104, 111, 115, 116]
      keyId := [107, 49]
      psk := List.replicate 32 1
      failureDeadlineMs := 1000
      nonce := Vector.replicate 32 3 }
  minor := 2
  supported := capKnown
  required := capFailureDeadline ||| capStatus ||| capAuthHmacSha256
  nonce := Vector.replicate 32 7
  sessionId := 5

/-- The HMAC-SHA256 of the HELLO and the CHALLENGE under the Consumer's key. -/
def sampleSetupTag : Vector UInt8 32 :=
  pad 32 [220, 109, 131, 166, 219, 236, 244, 208, 72, 155, 77, 47, 167, 120, 64, 178, 205, 230, 106,
    224, 47, 106, 182, 54, 249, 88, 196, 221, 22, 59, 242, 47]

def sampleRegistry : Registry where
  entries := [{ sampleCredential with authorizationVersion := 1 }]
  nextAuthorizationVersion := 1

def sampleHandshake : List Label :=
  [.hello, .provider sampleRegistry 0 true, .consumer true, .provider sampleRegistry 0 true,
    .consumer true, .provider sampleRegistry 0 true, .status 4 0 0, .consumer true]

theorem handshake_agreement_sample :
    (∃ w frame, (handshake sampleSetup fun _ _ => sampleSetupTag).Reachable w ∧ w.toConsumer = [frame] ∧
      ∃ w', w.step sampleSetup (fun _ _ => sampleSetupTag) (.consumer true) = some w' ∧
        w'.consumer.state = .waitAccept) ∧
    ∃ w, (handshake sampleSetup fun _ _ => sampleSetupTag).Reachable w ∧ w.consumer.state = .ready ∧
      w.provider.state = .ready ∧ Agree sampleSetup w := by
  refine ⟨?_, ?_⟩
  · obtain ⟨w, hreach, hstate, hframe⟩ : ∃ w,
        (handshake sampleSetup fun _ _ => sampleSetupTag).Reachable w ∧
        w.consumer.state = .waitChallenge ∧
        (match w.toConsumer with
        | [frame] =>
          match decode 2 frame with
          | .ok m => m.header.type = MessageType.challenge.code ∧
              CapsIn sampleSetup.consumer.required m.header.capabilities
          | _ => false
        | _ => false : Bool) :=
      System.exists_of_exec (s := World.initial sampleSetup) rfl
        (show (System.exec _ _ (sampleHandshake.take 2)).any _ = true by decide +kernel)
    split at hframe
    · rename_i frame hq
      split at hframe
      · rename_i m hm
        obtain ⟨htype, hrequired⟩ := of_decide_eq_true hframe
        obtain ⟨w', hstep, hiff⟩ :=
          (handshake_agreement hreach).1 frame [] m hq hstate hm htype
        exact ⟨w, frame, hreach, hq, w', hstep, hiff.mpr hrequired⟩
      · cases hframe
    · cases hframe
  · obtain ⟨w, hreach, hc, hp⟩ : ∃ w, (handshake sampleSetup fun _ _ => sampleSetupTag).Reachable w ∧
        w.consumer.state = .ready ∧ w.provider.state = .ready :=
      System.exists_of_exec (s := World.initial sampleSetup) rfl
        (show (System.exec _ _ sampleHandshake).any _ = true by decide +kernel)
    exact ⟨w, hreach, hc, hp, (handshake_agreement hreach).2.1 hc hp⟩

end Handshake
end Infiniswap
