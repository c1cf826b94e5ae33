/-
# What the handlers of a session do

The functions of `is_rdma.c` that a work item of a session is made of, each a
function on the fabric that also gives the instructions its thread goes on with.
A handler that fails gives up the lock and fails the session; a receive handler
that succeeds posts the next receive.
-/
import Infiniswap.Control.Session

namespace Infiniswap
namespace Control

open RemoteChunk ChunkModule

/-- What a call below the control protocol answers: an allocation, a result, the clock, random draws. -/
structure Answer where
  allocated : Bool := true
  status : Option Errno := none
  timedOut : Bool := false
  now : ℕ := 0
  deadline : ℕ := 0
  draws : ℕ → ℕ := fun _ => 0

/-! ### Calls of the Remote Chunk module -/

/-- `is_provider_observation_result_error`. -/
def observationError : ObservationResult → Option Errno
  | .applied | .stale | .duplicate => none
  | .conflict => some eproto
  | .staleEpoch => some .estale
  | .shutdown => some .eshutdown
  | .invalid => some .einval

/-- The result of `is_abort_mapping_claim`. -/
def abortError : MappingFinishResult → Option Errno
  | .aborted | .duplicate | .stale => none
  | .conflict => some eproto
  | .exhausted => some .eoverflow
  | .shutdown => some .eshutdown
  | _ => some .einval

/-- The result `is_handle_chunk_grant` gives the Provider's grant. -/
def grantError : MappingFinishResult → Option Errno
  | .committed | .duplicate => none
  | .exhausted => some .eoverflow
  | .shutdown => some .eshutdown
  | _ => some eproto

namespace Session

variable (s : Session) (m : ChunkModule)

/-- `is_session_record_provider_observation`. -/
def recordObservation (o : ProviderObservation) : Option Errno × Session × ChunkModule :=
  let (result, m) := m.providerObserve s.handle o
  if result = .stale then (none, s, m)
  else match observationError result with
    | some e => (some e, s, m)
    | none => (none, { s with providerObservation := some o }, m)

/-- `is_session_record_unavailable_observation`. -/
def recordUnavailable : Option Errno × Session × ChunkModule :=
  match s.providerObservation with
  | none => (some .enoent, s, m)
  | some o =>
    s.countRequest.recordObservation m
      { sequence := s.nextRequestId
        availableChunks := o.availableChunks
        exclusion := if s.excludeReason ≠ .none then s.excludeReason
          else if s.compatible then .unhealthy else .capability
        placementEligible := false }

/-- `is_session_repeat_provider_observation`. -/
def repeatObservation : Option Errno × ChunkModule :=
  match s.providerObservation with
  | none => (some .enoent, m)
  | some o => (observationError (m.providerObserve s.handle o).1, (m.providerObserve s.handle o).2)

/-- A claim is given back by the session chosen for it: its Provider is observed again. -/
def giveBack (claim : MappingClaim) (provider : ProviderHandle) : Option Errno × Session × ChunkModule :=
  let (result, m) := m.mappingFinish claim .abort provider (.null 0)
  let (ret, s, m) : Option Errno × Session × ChunkModule :=
    match abortError result with
    | some e => (some e, s, m)
    | none =>
      if s.transportUnavailable then s.recordUnavailable m
      else ((s.repeatObservation m).1, s, (s.repeatObservation m).2)
  (if ret = some .estale ∨ ret = some .eshutdown then none else ret, s, m)

/-- `is_send_control_frame_timeout` after the wait: the slot is taken and the frame posted. -/
def postFrame (answer : Answer) : Option Errno × Session :=
  if s.sendBusy then (some .ebusy, s)
  else match answer.status with
    | none => (none, { s with sendBusy := true })
    | some e => (some e, s)

/-- A claim is given back after its request could not be sent; an error of that counts more. -/
def giveUp (e : Errno) : Errno × ChunkModule :=
  let (result, m) := m.mappingFinish s.mappingClaim .abort s.handle (.null 0)
  ((abortError result).getD e, m)

end Session

namespace Fabric

variable (f : Fabric)

/-! ### The fabric -/

/-- `is_fabric_schedule_next_session`. -/
def scheduleNextSession : Fabric :=
  if f.stopping ∨ f.nextResolveIndex ≥ f.plannedCount then f else { f with startQueued := true }

/-- `is_session_status_done`. -/
def sessionStatusDone : Fabric :=
  if !f.remoteOnly ∨ f.stopping ∨ f.reservationComplete ∨ f.reservationFailed then f
  else { f with reservationQueued := true }

/-- Session `i` as a refresh counts it; a Provider without one is pending until it is known to have
failed. -/
def healthyAt (i : ℕ) : Bool := (f.sessions i).any Session.up

def failedAt (i : ℕ) : Bool :=
  match f.sessions i with
  | none => f.failedSessions i
  | some s => !s.up && (s.failureStarted || s.controlState = .failed)

def pendingAt (i : ℕ) : Bool := !f.healthyAt i && !f.failedAt i

/-- `is_fabric_refresh_connection_state`. -/
def refresh : Fabric :=
  if f.stopping ∨ f.remoteLost then f
  else
    let limit := max f.plannedCount f.sessionCount
    let healthy := (List.range limit).countP f.healthyAt
    let failed := (List.range limit).countP f.failedAt
    let pending := (List.range limit).countP f.pendingAt
    { f with connectionState :=
        if pending ≠ 0 then .connecting
        else if healthy ≠ 0 ∧ failed ≠ 0 then .degraded
        else if healthy ≠ 0 then .connected
        else .notConnected }

/-- `is_device_mark_remote_lost_locked`. -/
def markRemoteLost : Fabric :=
  if !f.remoteOnly ∨ f.remoteLost then f
    else { f with remoteLost := true, connectionState := .remoteLost }

/-- `is_fabric_session_for_provider`. -/
def sessionForProvider (provider : ProviderHandle) : Option ℕ :=
  (List.range f.sessionCount).find? fun i => (f.sessions i).any fun s => decide (s.handle = provider)

/-! ### Failure -/

/-- The reason `is_rdma_fail` excludes a Provider for. -/
def excludeReasonOf (e : Errno) : ProviderExclusion :=
  if e = enodev then .rail
  else if e = eacces then .identity
  else if e = eproto then .version
  else if e = .enospc then .zeroCapacity
  else .unhealthy

/-- `is_rdma_fail`, up to the refresh. -/
def rdmaFail (i : ℕ) (s : Session) (e : Errno) : List Instr × Fabric :=
  if s.stopping ∨ f.stopping then ([], f)
  else
    let s := if s.excludeReason = .none then s.setExclude (excludeReasonOf e) else s
    let (_, facts, m) := f.world.module.providerFailed s.handle
    let terminal := f.remoteOnly && (f.reservationComplete || facts.assignedChunks ≠ 0)
    (.refresh :: .failReservation i facts.assignedChunks ::
        ((if terminal then [.markLost i] else []) ++ [.queueFailure i]),
      (f.setModule m).setSession i { s with failureStarted := true })

/-- What `is_rdma_fail` does to an unfinished reservation: a Provider that holds chunks ends it, one
that holds none is known to be out. -/
def failReservation (assignedChunks : ℕ) : Fabric :=
  if f.remoteOnly ∧ !f.reservationComplete then
    if assignedChunks ≠ 0 then { f with reservationFailed := true } else f.sessionStatusDone
  else f

/-- The locked section of `is_failure_work`. -/
def failureWork (i : ℕ) (s : Session) : List Instr × Fabric :=
  ([.refresh, .afterFailure], f.setSession i
    { s.cancelDeadline with
      controlState := if s.controlState = .stopping then .stopping else .failed
      heartbeatQueued := false })

/-! ### Ready sessions -/

/-- The end of a receive handler: the lock is given up and the next receive posted, or the session
fails. -/
def handled (i : ℕ) : List Instr := [.unlock i, .repost i]

def rejected (i : ℕ) (e : Errno) : List Instr := [.unlock i, .fail i e]

/-- `is_mark_session_ready`, up to the refresh. -/
def markReady (i : ℕ) (s : Session) : List Instr × Fabric :=
  let s := { s with healthy := true, compatible := true, excludeReason := .none }
  if f.remoteOnly ∧ s.failureStarted then (.markLost i :: .lostReady i :: handled i, f.setSession i s)
  else
    let s :=
      { s with pendingRequestId := 0, controlState := .ready, everConnected := true }.cancelDeadline
    (.refresh :: .markedReady i :: handled i, (f.setSession i s).sessionStatusDone)

/-! ### The receive handlers -/

section Receive

variable (i : ℕ) (s : Session)

/-- A handler that fails without a change of the session. -/
def reject (e : Errno) : List Instr × Fabric := (rejected i e, f.setSession i s)

/-- `is_handle_challenge`: without the STATUS capability there is nothing to negotiate. -/
def handleChallenge (answer : Answer) (h : Header) (status : Bool) : List Instr × Fabric :=
  if !h.response ∨ h.requestId ≠ s.pendingRequestId ∨ !h.valid ∨ !status then f.reject i s eproto
  else
    let s := { s with negotiatedStatus := status }
    match answer.status with
    | some e => f.reject i s e
    | none => ([.awaitSlot i .auth], f.setSession i (s.request .waitAccept))

/-- `is_handle_accept`. -/
def handleAccept (h : Header) : List Instr × Fabric :=
  if !h.response ∨ h.requestId ≠ s.pendingRequestId ∨ !h.valid then f.reject i s eproto
  else if !s.negotiatedStatus then
    if f.remoteOnly then f.reject i s eproto else f.markReady i s
  else ([.awaitSlot i .status], f.setSession i (s.request .waitStatus))

/-- `is_status_response_valid`. -/
def statusResponseValid (h : Header) (status : StatusPayload) (requestId : ℕ) : Bool :=
  h.valid && h.response && h.requestId = requestId && status.deadlineMatches

/-- What a status response says of the Provider. -/
def statusObservation (sequence : ℕ) (healthy : Bool) (availableChunks : ℕ) : ProviderObservation where
  sequence := sequence
  availableChunks := availableChunks
  exclusion := if !healthy then .unhealthy else if availableChunks = 0 then .zeroCapacity else .none
  placementEligible := healthy && availableChunks > 0

/-- `is_handle_status`. -/
def handleStatus (h : Header) (status : StatusPayload) : List Instr × Fabric :=
  if !statusResponseValid h status s.pendingRequestId then f.reject i s eproto
  else
    let available :=
      if f.remoteOnly then status.availableCommittedChunks else status.availableOpportunisticChunks
    match s.recordObservation f.world.module (statusObservation h.requestId status.healthy available) with
    | (some e, s, m) => (f.setModule m).reject i s e
    | (none, s, m) =>
      let f := f.setModule m
      if !status.healthy then f.markReady i (s.setExclude .unhealthy)
      else if available = 0 then
        let s := s.setExclude .zeroCapacity
        if f.remoteOnly then f.markReady i s
        else
          let s := { s with
            pendingRequestId := 0, controlState := .ready, everConnected := true }.cancelDeadline
          (.refresh :: .statusReady i :: handled i, f.setSession i s)
      else f.markReady i s

/-- `is_handle_heartbeat`, of a Remote-Only session. -/
def handleHeartbeat (h : Header) (status : StatusPayload) : List Instr × Fabric :=
  if !statusResponseValid h status s.pendingRequestId then f.reject i s eproto
  else
    match s.recordObservation f.world.module
        (statusObservation h.requestId status.healthy status.availableCommittedChunks) with
    | (some e, s, m) => (f.setModule m).reject i s e
    | (none, s, m) =>
      if !status.healthy then (f.setModule m).reject i s .eio else (f.setModule m).markReady i s

/-- `is_handle_backed_heartbeat`. -/
def handleBackedHeartbeat (h : Header) (status : StatusPayload) : List Instr × Fabric :=
  if s.heartbeatRequestId = 0 ∨ !statusResponseValid h status s.heartbeatRequestId then
    f.reject i s eproto
  else
    match { s with heartbeatRequestId := 0 }.recordObservation f.world.module
        (statusObservation h.requestId status.healthy status.availableOpportunisticChunks) with
    | (some e, s, m) => (f.setModule m).reject i s e
    | (none, s, m) =>
      if !status.healthy then (f.setModule m).reject i s .eio
      else
        let s := if status.availableOpportunisticChunks = 0 then s.setExclude .zeroCapacity
          else { s with healthy := true, compatible := true, excludeReason := .none }
        (handled i, { (f.setModule m).setSession i s.scheduleHeartbeat with mappingQueued := true })

/-- The per-chunk checks of `is_handle_chunk_grant`. -/
def wireChunkValid (c : WireChunk) : Bool :=
  c.grant.logicalChunk < f.world.module.chunkCount && c.grant.providerChunk < 128 &&
    c.grant.remoteAddress != 0 && c.grant.remoteKey != 0 &&
    c.pool = (if f.remoteOnly then .committed else .opportunistic)

/-- `is_handle_chunk_grant`. -/
def handleChunkGrant (answer : Answer) (h : Header) (chunks : List WireChunk) : List Instr × Fabric :=
  if !h.valid ∨ !h.response ∨ h.requestId ≠ s.pendingRequestId ∨ chunks = [] ∨ chunks.length > 128 then
    f.reject i s eproto
  else if !answer.allocated then f.reject i s .enomem
  else if !chunks.all f.wireChunkValid then f.reject i s eproto
  else
    let (result, m) := f.world.module.mappingFinish s.mappingClaim .commit s.handle
      (.array (chunks.map WireChunk.grant))
    match grantError result with
    | some e => (f.setModule m).reject i s e
    | none =>
      let s := { s with pendingRequestId := 0 }
      if f.remoteOnly then
        (handled i, { (f.setModule m).setSession i { s with controlState := .ready } with
          reservationQueued := true })
      else (handled i, { (f.setModule m).setSession i s with mappingQueued := true })

/-- `is_handle_evict`. -/
def handleEvict (answer : Answer) (h : Header) (chunks : List ℕ) : List Instr × Fabric :=
  if f.remoteOnly ∨ !h.valid ∨ h.response ∨ chunks = [] ∨ chunks.length > 128 then f.reject i s eproto
  else if !answer.allocated then f.reject i s .enomem
  else match f.world.module.providerActivityQuery s.handle chunks with
    | .error _ => f.reject i s eproto
    | .ok _ => ([.awaitSlot i .activity], f.setSession i s)

/-- `is_handle_release`; the next receive is posted once the chunks are released. -/
def handleRelease (h : Header) (chunks : List ℕ) : List Instr × Fabric :=
  if f.remoteOnly ∨ !h.valid ∨ h.response ∨ chunks = [] ∨ chunks.length > 128 then f.reject i s eproto
  else if s.releaseCount ≠ 0 then f.reject i s .ebusy
  else match f.world.module.evictionBegin s.handle chunks s.evictionClaim with
    | .error e => f.reject i s (if e = .ebusy then .ebusy else eproto)
    | .ok (claim, m) => ([.unlock i], (f.setModule m).setSession i
        { s with
          evictionClaim := claim
          releaseCount := chunks.length
          pendingRequestId := h.requestId
          releaseQueued := true })

/-- `is_receive_work`, with the lock. -/
def receive (answer : Answer) (message : Message) : List Instr × Fabric :=
  let s :=
    if message.header.response ∧ message.header.requestId = s.pendingRequestId then s.cancelDeadline
    else s
  match s.controlState, message with
  | _, .undecodable => f.reject i s eproto
  | _, .error _ => f.reject i s eremoteio
  | .waitChallenge, .challenge h status => f.handleChallenge i s answer h status
  | .waitAccept, .accept h => f.handleAccept i s h
  | .waitStatus, .statusResponse h status => f.handleStatus i s h status
  | .waitReservation, .chunkGrant h chunks => f.handleChunkGrant i s answer h chunks
  | .waitHeartbeat, .statusResponse h status => f.handleHeartbeat i s h status
  | .ready, .statusResponse h status =>
    if f.remoteOnly then f.reject i s eproto else f.handleBackedHeartbeat i s h status
  | .ready, .chunkGrant h chunks => f.handleChunkGrant i s answer h chunks
  | .ready, .evict h chunks => f.handleEvict i s answer h chunks
  | .ready, .release h chunks => f.handleRelease i s h chunks
  | .connecting, _ | .failed, _ | .stopping, _ => f.reject i s .eshutdown
  | _, _ => f.reject i s eproto

end Receive

/-! ### Sending -/

section Send

variable (i : ℕ) (s : Session)

/-- What the sender does once its frame is posted. -/
def sent : Purpose → List Instr × Fabric
  | .hello | .reservation | .mapping => ([.unlock i], f.setSession i s.armDeadline)
  | .auth | .status => (handled i, f.setSession i s.armDeadline)
  | .activity => (handled i, f.setSession i s)
  | .release => (handled i, f.setSession i { s with releaseCount := 0, pendingRequestId := 0 })

/-- What the sender does when its frame cannot be sent. -/
def unsent (e : Errno) : Purpose → List Instr × Fabric
  | .hello | .auth | .status | .activity => f.reject i s e
  | .release => f.reject i { s with releaseCount := 0, pendingRequestId := 0 } e
  | .reservation =>
    let (e, m) := s.giveUp f.world.module e
    let f := (f.setModule m).setSession i { s with pendingRequestId := 0, controlState := .ready }
    (.unlock i :: (if e = eproto then [.fail i e, .queueReservation] else [.reservationFailed e]), f)
  | .mapping =>
    let (e, m) := s.giveUp f.world.module e
    let s := { s with pendingRequestId := 0 }
    if e = eproto then (f.setModule m).reject i s e
    else
      let (_, s, m) := s.recordUnavailable m
      (f.setModule m).reject i s e

/-- The wait of `is_send_control_frame_timeout`; while the slot is taken and the time has not
passed, it goes on. -/
def awaitSlot (answer : Answer) (p : Purpose) : Option (List Instr × Fabric) :=
  if s.stopping then some (f.unsent i s .etimedout p)
  else if !s.sendBusy then some ([.post i p], f)
  else if answer.timedOut then some (f.unsent i s .etimedout p)
  else none

/-- The rest of `is_send_control_frame_timeout`, and of the function that sends. -/
def post (answer : Answer) (p : Purpose) : List Instr × Fabric :=
  match s.postFrame answer with
  | (none, s) => f.sent i s p
  | (some e, s) => f.unsent i s e p

end Send

end Fabric
end Control
end Infiniswap
