/-
# Requests of an authenticated session

A session meets arbitrary frames, while the registry is changed and reloaded and
the clock shows anything. What it hands to the runtime was sent under an
authorisation: the session has answered a HELLO with a CHALLENGE, has then
received the HMAC of these two frames under a key that was valid for the
Consumer of the HELLO, and the authorisation still holds when the request is
handed over.

`Exchange` is one call of `is_provider_session_handle`, and the log of a run are
its exchanges, newest first.
-/
import Infiniswap.Lib.Runs
import Infiniswap.Protocol.Bounds
import Infiniswap.Protocol.Capabilities
import Infiniswap.Provider.CredentialFile
import Infiniswap.Provider.Session

namespace Infiniswap
namespace Provider

open Bytes Protocol Transition

variable (current : ℕ) (hmac : List UInt8 → List UInt8 → Vector UInt8 32)

/-! ### Runs of a session -/

/-- What the runtime gives to `is_provider_session_init`: its own minor version, capabilities it
knows, and an id. -/
structure SessionConfig where
  localMinor : UInt16
  supported : UInt64
  required : UInt64
  nonce : Vector UInt8 32
  sessionId : UInt64
  minor_valid : minorValid current localMinor = true
  required_known : required &&& ~~~capKnown = 0
  sessionId_ne : sessionId ≠ 0

variable {current} in
def SessionConfig.session (c : SessionConfig current) : Session :=
  Session.init c.localMinor c.supported c.required c.nonce c.sessionId

structure SessionWorld where
  session : Session
  registry : Registry
  deriving DecidableEq

inductive SessionLabel
  | frame (frame : List UInt8) (now : ℤ) (crypto : Bool) (capacity : ℕ)
  | fail (requestId : UInt64) (offendingType : UInt16) (code : ErrorCode) (capacity : ℕ)
  | add (c : Credential) (now : ℤ)
  | revoke (consumerId : List UInt8)
  | loadFile (file : Option (List UInt8)) (readError : Bool) (now : ℕ → ℤ)
  | subscribe (consumerId : List UInt8) (authorizationVersion : UInt64) (context : ℕ)
  | unsubscribe (context : ℕ)

/-- A change of the registry that may be refused. -/
def SessionWorld.update (w : SessionWorld) (r : Except AuthResult Registry) : SessionWorld :=
  match r with
  | .error _ => w
  | .ok r => { w with registry := r }

def SessionWorld.step (w : SessionWorld) : SessionLabel → SessionWorld
  | .frame frame now crypto capacity =>
    { w with session := (handle current hmac w.session w.registry now crypto frame capacity).1 }
  | .fail requestId offendingType code capacity =>
    { w with session := (sessionFail current w.session requestId offendingType code capacity).1 }
  | .add c now => w.update (w.registry.add c now)
  | .revoke consumerId => w.update ((w.registry.revoke consumerId).map (·.1))
  | .loadFile file readError now => w.update ((w.registry.loadFile file readError now).map (·.1))
  | .subscribe consumerId version context => w.update (w.registry.subscribe consumerId version context)
  | .unsubscribe context => { w with registry := w.registry.unsubscribe context }

/-- A session that the runtime has initialised, with whatever registry. -/
def sessionSystem : System SessionWorld SessionLabel where
  init w := ∃ c : SessionConfig current, w.session = c.session
  step w l := some (w.step current hmac l)

/-- One call of `is_provider_session_handle`: what it met, and its outcome. -/
structure Exchange where
  session : Session
  registry : Registry
  now : ℤ
  frame : List UInt8
  outcome : Option Outcome

/-- The request that was handed to the runtime. -/
def Exchange.request (e : Exchange) : Option Message := e.outcome.bind (·.request)

/-- The id of a request that the Consumer has made of its own. -/
def Exchange.requestId (e : Exchange) : Option UInt64 :=
  e.request.bind fun m => if responseMessage m then none else some m.header.requestId

def exchanges (w : SessionWorld) (l : SessionLabel) (_ : SessionWorld) : List Exchange :=
  match l with
  | .frame frame now crypto capacity =>
    [⟨w.session, w.registry, now, frame,
      (handle current hmac w.session w.registry now crypto frame capacity).2⟩]
  | _ => []

def requestIds (log : List Exchange) : List UInt64 := log.filterMap Exchange.requestId

/-! ### Authentic requests -/

/-- The exchange in which the session answered the HELLO `m` with its CHALLENGE. -/
structure Greets (s : Session) (e : Exchange) (m : Message) : Prop where
  decoded : decode current e.frame = .ok m
  type : m.header.type = MessageType.hello.code
  frame : s.helloFrame = e.frame
  challenge : e.outcome = some { response := some s.challengeFrame }
  consumerId : s.consumerId = cstring m.payload.hello.consumerId
  keyId : s.keyId = cstring m.payload.hello.keyId
  pool : s.selectedPool = m.payload.hello.pool

/-- The exchange in which the session received, as `m`, the tag of its HELLO and CHALLENGE under a
key that was valid for the Consumer and the key id, and took over the version and the expiry of the
authorisation. -/
structure Verifies (s : Session) (e : Exchange) (m : Message) : Prop where
  decoded : decode current e.frame = .ok m
  type : m.header.type = MessageType.auth.code
  key : ∃ c ∈ e.registry.entries, c.consumerId = s.consumerId ∧ c.revoked = false ∧
    c.authorizationVersion = s.authorizationVersion ∧
    ∃ key, Registry.ValidKey c s.keyId e.now key s.authenticatedUntilUnix ∧
      hmac key.secret (Registry.authDomain ++ (s.helloFrame ++ s.challengeFrame)) = m.payload.auth.tag

def Greeted (s : Session) (log : List Exchange) : Prop := ∃ e ∈ log, ∃ m, Greets current s e m

/-- The HELLO was answered, and the tag received afterwards. -/
def Verified (s : Session) (log : List Exchange) : Prop :=
  ∃ newer e older m, log = newer ++ e :: older ∧ Verifies current hmac s e m ∧ Greeted current s older

/-- What stands behind the request `m` of the exchange `e`, with the exchanges before it. -/
structure Authentic (e : Exchange) (m : Message) (older : List Exchange) : Prop where
  decoded : decode current e.frame = .ok m
  verified : Verified current hmac e.session older
  authorized : ∃ c, findCredential e.registry.entries e.session.consumerId = some c ∧ c.revoked = false ∧
    c.authorizationVersion = e.session.authorizationVersion
  unexpired : e.session.authenticatedUntilUnix = 0 ∨
    0 ≤ e.now ∧ e.now.toNat < e.session.authenticatedUntilUnix.toNat
  sessionId : m.header.sessionId = e.session.sessionId
  minor : m.header.minor = e.session.negotiatedMinor
  capabilities : m.header.capabilities = e.session.negotiatedCapabilities
  pool : m.header.type = MessageType.chunkRequest.code →
    m.payload.chunkRequest.pool = e.session.selectedPool

/-- The invariant of a session and its log. -/
structure AuthInv (s : Session) (log : List Exchange) : Prop where
  silent : s.state = .waitHello ∨ s.state = .waitAuth → requestIds log = []
  greeted : s.state = .waitAuth → Greeted current s log
  verified : s.state = .ready → Verified current hmac s log
  bounded : s.state = .ready → ∀ id ∈ requestIds log, id ≤ s.lastRequestId
  increasing : (requestIds log).Pairwise (· > ·)
  authentic : ∀ newer e older, log = newer ++ e :: older → ∀ m, e.request = some m →
    m.header.type ≠ MessageType.error.code → Authentic current hmac e m older
  shut : ∀ newer e older, log = newer ++ e :: older → e.session.state = .closed →
    s.state = .closed ∧ ∀ d ∈ newer ++ [e], d.request = none

variable {current} {hmac} {s s' : Session} {log : List Exchange} {e : Exchange}

/-! ### The log grows -/

theorem Greeted.cons (h : Greeted current s log) : Greeted current s (e :: log) := by
  obtain ⟨d, hd, m, hm⟩ := h
  exact ⟨d, List.mem_cons_of_mem _ hd, m, hm⟩

theorem Verified.cons (h : Verified current hmac s log) : Verified current hmac s (e :: log) := by
  obtain ⟨newer, d, older, m, rfl, hm, hgreeted⟩ := h
  exact ⟨e :: newer, d, older, m, rfl, hm, hgreeted⟩

theorem Greeted.update (h : Greeted current s log) {authenticatedUntil version last : UInt64}
    {state : SessionState} : Greeted current { s with
      authenticatedUntilUnix := authenticatedUntil
      authorizationVersion := version
      lastRequestId := last
      state := state } log := by
  obtain ⟨d, hd, m, hm⟩ := h
  exact ⟨d, hd, m, ⟨hm.decoded, hm.type, hm.frame, hm.challenge, hm.consumerId, hm.keyId, hm.pool⟩⟩

theorem Verified.delivered (h : Verified current hmac s log) (m : Message) :
    Verified current hmac (s.delivered m) log := by
  obtain ⟨newer, d, older, m', rfl, hm, hgreeted⟩ := h
  exact ⟨newer, d, older, m', rfl, ⟨hm.decoded, hm.type, hm.key⟩, hgreeted.update⟩

theorem requestIds_cons_none (h : e.requestId = none) : requestIds (e :: log) = requestIds log :=
  List.filterMap_cons_none h

theorem requestIds_cons_some {id : UInt64} (h : e.requestId = some id) :
    requestIds (e :: log) = id :: requestIds log :=
  List.filterMap_cons_some h

theorem requestId_of_request_none (h : e.request = none) : e.requestId = none := by
  rw [Exchange.requestId, h]
  rfl

theorem responseMessage_of_error {frame : List UInt8} {m : Message} (hm : decode current frame = .ok m)
    (htype : m.header.type = MessageType.error.code) : responseMessage m = true := by
  obtain ⟨-, hheader, -⟩ := decode_ok hm
  obtain ⟨-, -, -, -, -, -, hflags, -⟩ := validateHeader_eq_ok.mp (decodeHeader_ok hheader).2.2.2
  rw [htype] at hflags
  have hval : m.header.flags = flagResponse ||| flagError := of_decide_eq_true hflags
  rw [responseMessage, hval]
  rfl

/-! ### The invariant -/

namespace AuthInv

theorem init (c : SessionConfig current) : AuthInv current hmac c.session [] where
  silent _ := rfl
  greeted := nofun
  verified := nofun
  bounded := nofun
  increasing := List.Pairwise.nil
  authentic newer e older h := by simp at h
  shut newer e older h := by simp at h

section

variable (h : AuthInv current hmac s log)

include h

theorem close (hs' : s'.state = .closed) : AuthInv current hmac s' log where
  silent hst := by rw [hs'] at hst; rcases hst with hst | hst <;> cases hst
  greeted hst := by rw [hs'] at hst; cases hst
  verified hst := by rw [hs'] at hst; cases hst
  bounded hst := by rw [hs'] at hst; cases hst
  increasing := h.increasing
  authentic := h.authentic
  shut newer e older hlog he := ⟨hs', (h.shut newer e older hlog he).2⟩

theorem push (hsession : e.session = s)
    (hauthentic : ∀ m, e.request = some m → m.header.type ≠ MessageType.error.code →
      Authentic current hmac e m log)
    (hclosed : s.state = .closed → s'.state = .closed ∧ e.request = none)
    (hincreasing : ∀ id, e.requestId = some id → ∀ id' ∈ requestIds log, id' < id)
    (hsilent : s'.state = .waitHello ∨ s'.state = .waitAuth → requestIds (e :: log) = [])
    (hgreeted : s'.state = .waitAuth → Greeted current s' (e :: log))
    (hverified : s'.state = .ready → Verified current hmac s' (e :: log))
    (hbounded : s'.state = .ready → ∀ id ∈ requestIds (e :: log), id ≤ s'.lastRequestId) :
    AuthInv current hmac s' (e :: log) where
  silent := hsilent
  greeted := hgreeted
  verified := hverified
  bounded := hbounded
  increasing := by
    cases hid : e.requestId with
    | none => rw [requestIds_cons_none hid]; exact h.increasing
    | some id =>
      rw [requestIds_cons_some hid]; exact List.pairwise_cons.mpr ⟨hincreasing id hid, h.increasing⟩
  authentic newer d older hlog := by
    cases newer with
    | nil =>
      cases hlog
      exact hauthentic
    | cons _ newer =>
      cases hlog
      exact h.authentic newer d older rfl
  shut newer d older hlog hd := by
    cases newer with
    | nil =>
      cases hlog
      obtain ⟨hs', hrequest⟩ := hclosed (hsession ▸ hd)
      refine ⟨hs', fun d hd => ?_⟩
      rw [List.nil_append, List.mem_singleton] at hd
      exact hd ▸ hrequest
    | cons _ newer =>
      cases hlog
      obtain ⟨hs, hrest⟩ := h.shut newer d older rfl hd
      obtain ⟨hs', hrequest⟩ := hclosed hs
      refine ⟨hs', fun d' hd' => ?_⟩
      rcases List.mem_cons.mp hd' with rfl | hd'
      · exact hrequest
      · exact hrest d' hd'

theorem quiet (hsession : e.session = s) (hrequest : e.request = none) (hstate : s'.state = s.state)
    (hgreeted : s.state = .waitAuth → Greeted current s' log) (hready : s.state = .ready → s' = s) :
    AuthInv current hmac s' (e :: log) := by
  have hid := requestId_of_request_none hrequest
  refine h.push hsession (fun m hm => ?_) (fun hs => ⟨hstate.trans hs, hrequest⟩)
    (fun id hid' => ?_) ?_ ?_ ?_ ?_
  · rw [hrequest] at hm
    cases hm
  · rw [hid] at hid'
    cases hid'
  · rw [requestIds_cons_none hid, hstate]
    exact h.silent
  · rw [hstate]
    exact fun hs => (hgreeted hs).cons
  · rw [hstate]
    intro hs
    rw [hready hs]
    exact (h.verified hs).cons
  · rw [requestIds_cons_none hid, hstate]
    intro hs
    rw [hready hs]
    exact h.bounded hs

/-- A request is handed to the runtime. -/
theorem deliver {r : Registry} {now : ℤ} {bytes : List UInt8} {m : Message}
    (hs : s.state = .ready) (hm : decode current bytes = .ok m) (hd : Deliverable s r now m) :
    AuthInv current hmac (s.delivered m) (⟨s, r, now, bytes, some { request := some m }⟩ :: log) := by
  have hfresh {id : UInt64}
      (hid : (⟨s, r, now, bytes, some { request := some m }⟩ : Exchange).requestId = some id) :
      responseMessage m = false ∧ id = m.header.requestId := by
    obtain ⟨m', hm', hid⟩ := Option.bind_eq_some_iff.mp hid
    cases hm'
    split_ifs at hid with hresponse
    cases hid
    exact ⟨by simpa using hresponse, rfl⟩
  refine h.push rfl (fun m' hm' hne => ?_) (fun hst => ?_) (fun id hid id' hid' => ?_)
    (fun hst => ?_) (fun hst => ?_) (fun _ => ((h.verified hs).delivered m).cons) (fun _ id hid => ?_)
  · cases hm'
    exact ⟨hm, h.verified hs, (Registry.validateAuthorization_ok hd.authorized).2, hd.unexpired,
      hd.sessionId, hd.minor, hd.capabilities, hd.pool⟩
  · rw [hs] at hst
    cases hst
  · obtain ⟨hresponse, rfl⟩ := hfresh hid
    exact UInt64.lt_of_le_of_lt (h.bounded hs id' hid') (hd.fresh hresponse)
  · have hst' : s.state = .waitHello ∨ s.state = .waitAuth := hst
    rw [hs] at hst'
    rcases hst' with hst' | hst' <;> cases hst'
  · have hst' : s.state = .waitAuth := hst
    rw [hs] at hst'
    cases hst'
  · rw [Session.delivered]
    by_cases hresponse : responseMessage m = true
    · rw [if_pos hresponse]
      refine h.bounded hs id ?_
      rwa [requestIds_cons_none (by rw [Exchange.requestId]; exact if_pos hresponse)] at hid
    · rw [if_neg hresponse]
      rw [requestIds_cons_some (by rw [Exchange.requestId]; exact if_neg hresponse)] at hid
      rcases List.mem_cons.mp hid with rfl | hid
      · exact UInt64.le_refl _
      · exact UInt64.le_of_lt
          (UInt64.lt_of_le_of_lt (h.bounded hs id hid) (hd.fresh (by simpa using hresponse)))

/-- **The invariant over one call.** -/
theorem frame {r : Registry} {now : ℤ} {bytes : List UInt8} {o : Option Outcome}
    (hhandled : Handled current hmac s r now bytes s' o) :
    AuthInv current hmac s' (⟨s, r, now, bytes, o⟩ :: log) := by
  cases hhandled with
  | @closed _ out hs' hrequest _ =>
    refine (h.push rfl (fun m hm hne => ?_) (fun hs => ?_) (fun id hid => ?_) ?_ ?_ ?_ ?_)
    · exact absurd (hrequest m hm).2.2 hne
    · refine ⟨hs', Option.eq_none_iff_forall_ne_some.mpr fun m hm => ?_⟩
      rw [(hrequest m hm).1] at hs
      cases hs
    · obtain ⟨m, hm, hid⟩ := Option.bind_eq_some_iff.mp hid
      obtain ⟨-, hdecode, htype⟩ := hrequest m hm
      rw [if_pos (responseMessage_of_error hdecode htype)] at hid
      cases hid
    · rw [hs']
      rintro (hst | hst) <;> cases hst
    · rw [hs']
      nofun
    · rw [hs']
      nofun
    · rw [hs']
      nofun
  | unchanged => exact h.quiet rfl rfl rfl h.greeted fun _ => rfl
  | greeted hs hs' _ =>
    refine h.quiet rfl rfl (hs'.trans hs.symm) (fun hst => ?_) fun hst => ?_
    · rw [hs] at hst
      cases hst
    · rw [hs] at hst
      cases hst
  | unverified hs =>
    refine h.quiet rfl rfl rfl (fun hst => (h.greeted hst).update) fun hst => ?_
    rw [hs] at hst
    cases hst
  | @challenged _ m response hs hm htype hc =>
    have hs' : s'.state = .waitAuth := by rw [hc.session]
    refine h.push rfl nofun (fun hst => ?_) nofun (fun _ => h.silent (.inl hs)) (fun _ => ?_) ?_ ?_
    · rw [hs] at hst
      cases hst
    · refine ⟨_, List.mem_cons_self, m, ?_⟩
      have hframe : s'.helloFrame = bytes := by rw [hc.session]
      have hchallenge : s'.challengeFrame = response := by rw [hc.session]
      refine ⟨hm, htype, hframe, by rw [hchallenge], ?_, ?_, ?_⟩
      iterate 3 rw [hc.session]
    · rw [hs']
      nofun
    · rw [hs']
      nofun
  | @authenticated m crypto authenticatedUntil version _ hs hm htype hlt hverify ho _ =>
    have hrequest : (⟨s, r, now, bytes, o⟩ : Exchange).request = none := by
      cases o with
      | none => rfl
      | some out => exact ho out rfl
    have hid := requestId_of_request_none hrequest
    refine h.push rfl (fun m hm => ?_) (fun hst => ?_) (fun id hid' => ?_) ?_ nofun (fun _ => ?_)
      fun _ => ?_
    · rw [hrequest] at hm
      cases hm
    · rw [hs] at hst
      cases hst
    · rw [hid] at hid'
      cases hid'
    · rintro (hst | hst) <;> cases hst
    · exact ⟨[], _, log, m, rfl, ⟨hm, htype, Registry.verify_ok hverify⟩, (h.greeted hs).update⟩
    · rw [requestIds_cons_none hid, h.silent (.inr hs)]
      nofun
  | delivered hs hm _ hd => exact h.deliver hs hm hd

end

end AuthInv

theorem SessionWorld.update_session (w : SessionWorld) (r : Except AuthResult Registry) :
    (w.update r).session = w.session := by
  cases r with
  | error e | ok r => rfl

theorem AuthInv.step {w : SessionWorld} (h : AuthInv current hmac w.session log) (l : SessionLabel) :
    AuthInv current hmac (w.step current hmac l).session
      (exchanges current hmac w l (w.step current hmac l) ++ log) := by
  cases l with
  | frame frame now crypto capacity => exact h.frame (handle_handled crypto capacity)
  | fail requestId offendingType code capacity =>
    simp only [SessionWorld.step, exchanges, sessionFail, buildError, List.nil_append]
    split
    · exact h
    · exact h.close rfl
  | add c now | revoke consumerId | loadFile file readError now | subscribe consumerId version context =>
    simp only [SessionWorld.step, exchanges, SessionWorld.update_session, List.nil_append]
    exact h
  | unsubscribe context => exact h

/-- **Authentic sessions.** In every run of a session, with arbitrary frames, changes of the
registry and clocks: each request but an ERROR is authentic, the ids of the Consumer's own requests
increase, and once the session is closed nothing is handed over. -/
theorem session_authentic {x : SessionWorld × List Exchange}
    (h : ((sessionSystem current hmac).logged (exchanges current hmac)).Reachable x) :
    (∀ newer e older, x.2 = newer ++ e :: older → ∀ m, e.request = some m →
      m.header.type ≠ MessageType.error.code → Authentic current hmac e m older) ∧
    (requestIds x.2).Pairwise (· > ·) ∧
    ∀ newer e older, x.2 = newer ++ e :: older → e.session.state = .closed →
      ∀ d ∈ newer ++ [e], d.request = none := by
  have hinv : AuthInv current hmac x.1.session x.2 := by
    refine (System.logged_invariant (I := fun w log => AuthInv current hmac w.session log) ?_ ?_ h).2
    · rintro w ⟨c, hc⟩
      rw [hc]
      exact AuthInv.init c
    · rintro w log l _ - hI ⟨⟩
      exact hI.step l
  exact ⟨hinv.authentic, hinv.increasing,
    fun newer e older hlog he => (hinv.shut newer e older hlog he).2⟩

/-! A session of build 1: `sampleHello` is answered, the tag is accepted, and a STATUS_REQUEST is
handed over. -/

def sampleConfig : SessionConfig 1 where
  localMinor := 1
  supported := capKnown
  required := capFailureDeadline ||| capStatus ||| capAuthHmacSha256
  nonce := Vector.replicate 32 7
  sessionId := 5
  minor_valid := by decide
  required_known := by decide
  sessionId_ne := by decide

/-- The HMAC-SHA256 of the HELLO and the CHALLENGE of the sample session under the secret of its
credential. -/
def sampleTag : Vector UInt8 32 :=
  pad 32 [123, 120, 242, 123, 28, 182, 140, 234, 206, 30, 46, 93, 124, 30, 248, 173, 167, 244, 250,
    229, 93, 177, 249, 73, 230, 168, 140, 130, 240, 202, 220, 247]

def sampleCredential : Credential where
  consumerId := [104, 111, 115, 116]
  current := ⟨[107, 49], List.replicate 32 1⟩
  maxConnections := 1
  maxOpportunisticChunks := 4
  maxCommittedChunks := 0

def sampleFrame (m : Message) : List UInt8 :=
  match encode 1 m maxFrameSize with
  | .ok (_, frame) => frame
  | .error _ => []

def sampleAuth : Message where
  header := { major := 1, minor := 1, type := 3, requestId := 8, capabilities := 0x75,
              requiredCapabilities := 0x71 }
  payload := { auth := ⟨sampleTag⟩ }

def sampleStatusRequest : Message where
  header :=
    { major := 1, minor := 1, type := 5, requestId := 9, sessionId := 5, capabilities := 0x75
      requiredCapabilities := 0x71 }

def sampleRun : List SessionLabel :=
  [.add sampleCredential 0, .frame (sampleFrame sampleHello) 0 true maxFrameSize,
    .frame (sampleFrame sampleAuth) 0 true maxFrameSize,
    .frame (sampleFrame sampleStatusRequest) 0 true maxFrameSize]

theorem session_authentic_sample :
    ∃ x e older m, ((sessionSystem 1 fun _ _ => sampleTag).logged
      (exchanges 1 fun _ _ => sampleTag)).Reachable x ∧
      x.2 = e :: older ∧ e.request = some m ∧ m.header.type = MessageType.statusRequest.code ∧
      Authentic 1 (fun _ _ => sampleTag) e m older := by
  obtain ⟨x, hreach, hlast⟩ : ∃ x,
      ((sessionSystem 1 fun _ _ => sampleTag).logged (exchanges 1 fun _ _ => sampleTag)).Reachable x ∧
      x.2.head?.any fun e => e.request.any fun m => m.header.type = MessageType.statusRequest.code :=
    System.exists_of_exec (s := (⟨sampleConfig.session, {}⟩, [])) ⟨⟨sampleConfig, rfl⟩, rfl⟩
      (show (System.exec _ _ sampleRun).any _ = true by decide +kernel)
  obtain ⟨e, he, hrequest⟩ := (Option.any_eq_true _ _).mp hlast
  obtain ⟨m, hm, htype⟩ := (Option.any_eq_true _ _).mp hrequest
  obtain ⟨older, hlog⟩ := List.head?_eq_some_iff.mp he
  have htype := of_decide_eq_true htype
  refine ⟨x, e, older, m, hreach, hlog, hm, htype, (session_authentic hreach).1 [] e older hlog m hm ?_⟩
  rw [htype]
  decide

end Provider
end Infiniswap
