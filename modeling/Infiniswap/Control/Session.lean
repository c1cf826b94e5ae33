/-
# Sessions with Memory Providers

A fabric has one session per planned Provider, and a session has a control
protocol of its own: the handshake, heartbeats, chunk grants and evictions. Its
handlers are work items that run side by side and exclude each other by the
session's control lock. This module has the data: a session with the works that
are queued for it, the messages it may receive, the instructions a handler is
made of, and the fabric with the connection state of its device.

A handler is a thread of instructions. An instruction is a stretch of it under
the control lock of the session, or a call whose effects others see: the
refresh of the connection state, the wait for the send slot and what follows it.
Between two instructions of one thread any other may run, except that the lock of
the session is kept.

What a frame says beyond what the handlers look at is left out, and so are the
connection manager, the statistics, and errors of the encoder. Whether the
version, session and capability fields of a frame are those its receiver expects
is one bit of the message.
-/
import Infiniswap.RemoteChunk.World

namespace Infiniswap
namespace Control

open RemoteChunk

/-! ### Error codes the control protocol adds -/

def eacces : Errno := .other 13

def enodev : Errno := .other 19

def eproto : Errno := .other 71

def eremoteio : Errno := .other 121

/-! ### A session -/

/-- `enum is_rdma_control_state`. -/
inductive ControlState
  | connecting | waitChallenge | waitAccept | waitStatus | waitReservation | waitHeartbeat | ready
  | failed | stopping
  deriving DecidableEq

/-- `struct is_rdma_session`, as `is_session_init` leaves it, with the works that are queued for it. -/
structure Session where
  handle : ProviderHandle
  controlState : ControlState := .connecting
  /-- The control lock is held. -/
  locked : Bool := false
  sendBusy : Bool := false
  failureStarted : Bool := false
  stopping : Bool := false
  everConnected : Bool := false
  reservationComplete : Bool := false
  deadlineArmed : Bool := false
  /-- `negotiated_capabilities` has `IS_PROTOCOL_CAP_STATUS`. -/
  negotiatedStatus : Bool := true
  nextRequestId : ℕ := 1
  pendingRequestId : ℕ := 0
  heartbeatRequestId : ℕ := 0
  releaseCount : ℕ := 0
  providerObservation : Option ProviderObservation := none
  mappingClaim : MappingClaim := {}
  evictionClaim : EvictionClaim := {}
  healthy : Bool := false
  compatible : Bool := true
  excludeReason : ProviderExclusion := .none
  helloQueued : Bool := false
  deadlineQueued : Bool := false
  heartbeatQueued : Bool := false
  releaseQueued : Bool := false
  failureQueued : Bool := false
  deriving DecidableEq

namespace Session

variable (s : Session)

/-- `is_session_set_exclude`. -/
def setExclude (reason : ProviderExclusion) : Session :=
  { s with
    healthy := false
    compatible := false
    excludeReason := if s.excludeReason = .none then reason else s.excludeReason }

/-- `is_arm_control_deadline`. -/
def armDeadline : Session := { s with deadlineArmed := true, deadlineQueued := true }

/-- `is_cancel_control_deadline`. -/
def cancelDeadline : Session := { s with deadlineArmed := false, deadlineQueued := false }

/-- `is_schedule_heartbeat`. -/
def scheduleHeartbeat : Session := { s with heartbeatQueued := true }

def lock : Session := { s with locked := true }

def unlock : Session := { s with locked := false }

/-- `next_request_id++`, a 64-bit counter. -/
def countRequest : Session := { s with nextRequestId := (s.nextRequestId + 1) % 2 ^ 64 }

/-- A new request whose response is awaited in the given state. -/
def request (state : ControlState) : Session :=
  { s.countRequest with pendingRequestId := s.nextRequestId, controlState := state }

/-- `is_session_transport_unavailable_locked`. -/
def transportUnavailable : Bool :=
  s.stopping || s.failureStarted || !s.healthy || !s.compatible || s.controlState = .failed ||
    s.controlState = .stopping

/-- The session is counted healthy by a refresh of the connection state. -/
def up : Bool := s.healthy && s.everConnected

end Session

/-! ### Messages -/

/-- The fields of a header that handlers compare; `valid` is the check of its version, session and
capabilities. -/
structure Header where
  response : Bool
  requestId : ℕ
  valid : Bool := true
  deriving DecidableEq

/-- The payload of a status response; `deadlineMatches` is the check of the failure deadline it
repeats. -/
structure StatusPayload where
  deadlineMatches : Bool := true
  healthy : Bool
  availableCommittedChunks : ℕ
  availableOpportunisticChunks : ℕ
  deriving DecidableEq

/-- A chunk of a grant, with the pool it is from. -/
structure WireChunk where
  grant : MappingGrant
  pool : MappingPool
  deriving DecidableEq

/-- A frame as `is_protocol_decode` gives it. -/
inductive Message
  | undecodable
  | error (header : Header)
  /-- `status` says whether the Provider offers the STATUS capability, which every session requires. -/
  | challenge (header : Header) (status : Bool)
  | accept (header : Header)
  | statusResponse (header : Header) (status : StatusPayload)
  | chunkGrant (header : Header) (chunks : List WireChunk)
  | evict (header : Header) (chunks : List ℕ)
  | release (header : Header) (chunks : List ℕ)
  | other (header : Header)
  deriving DecidableEq

def Message.header : Message → Header
  | .undecodable => { response := false, requestId := 0 }
  | .error h | .challenge h _ | .accept h | .statusResponse h _ | .chunkGrant h _ | .evict h _
  | .release h _ | .other h => h

/-! ### Handlers -/

/-- What a control frame that waits for the send slot is sent for. -/
inductive Purpose
  | hello | auth | status | activity | release | reservation | mapping
  deriving DecidableEq

/-- The instructions handlers are made of. -/
inductive Instr
  /-- `is_fabric_start_next_session`. -/
  | startNext
  /-- `is_fabric_refresh_connection_state`. -/
  | refresh
  /-- The end of `is_failure_work`, and of a session that could not be started. -/
  | afterFailure
  /-- `is_rdma_fail`. -/
  | fail (i : ℕ) (error : Errno)
  /-- What `is_rdma_fail` does to an unfinished reservation. -/
  | failReservation (i : ℕ) (assignedChunks : ℕ)
  /-- `is_mark_session_remote_lost`. -/
  | markLost (i : ℕ)
  | queueFailure (i : ℕ)
  | failureWork (i : ℕ)
  | controlDeadline (i : ℕ)
  /-- `is_control_deadline`, once the deadline was found to have passed. -/
  | deadlinePassed (i : ℕ)
  | helloWork (i : ℕ)
  | heartbeatWork (i : ℕ)
  | receiveWork (i : ℕ) (message : Message)
  | releaseWork (i : ℕ)
  /-- The wait of `is_release_work` for the leases of the evicted chunks. -/
  | evictionWait (i : ℕ) (deadline : ℕ)
  | evictionWaited (i : ℕ) (status : Except Errno Unit)
  /-- The wait of a sender for the send slot. -/
  | awaitSlot (i : ℕ) (purpose : Purpose)
  /-- The rest of `is_send_control_frame_timeout`, and of the function that sends. -/
  | post (i : ℕ) (purpose : Purpose)
  /-- The end of `is_mark_session_ready` for a session that has failed. -/
  | lostReady (i : ℕ)
  /-- The end of `is_mark_session_ready`, after the refresh. -/
  | markedReady (i : ℕ)
  /-- The same for a first status without capacity. -/
  | statusReady (i : ℕ)
  | unlock (i : ℕ)
  /-- `is_post_control_receive` at the end of a handler. -/
  | repost (i : ℕ)
  | reservationWork
  /-- `is_fabric_reservation_work` under the lock of the session it chose. -/
  | reserve (i : ℕ) (mapping : MappingRequest)
  | queueReservation
  /-- The completion of the reservation: the flags of the sessions, then of the fabric. -/
  | reservedSessions
  | reserved
  | reservationFailed (error : Errno)
  /-- The loop that fails the sessions from index `k` on. -/
  | failSessions (k : ℕ) (error : Errno)
  | mappingWork
  /-- `is_fabric_mapping_work` under the lock of the session it chose. -/
  | map (i : ℕ) (mapping : MappingRequest)
  /-- The loop of `is_rdma_stop` over the sessions from index `k` on. -/
  | stopSessions (k : ℕ)
  /-- `is_session_destroy`. -/
  | stopSession (i : ℕ)
  | stopControl (i : ℕ)
  | destroySession (i : ℕ)
  deriving DecidableEq

/-- The session an instruction works on. -/
def Instr.session : Instr → Option ℕ
  | .fail i _ | .failReservation i _ | .markLost i | .queueFailure i | .failureWork i
  | .controlDeadline i | .deadlinePassed i | .helloWork i | .heartbeatWork i | .receiveWork i _
  | .releaseWork i | .evictionWait i _ | .evictionWaited i _ | .awaitSlot i _ | .post i _
  | .lostReady i | .markedReady i | .statusReady i | .unlock i | .repost i | .reserve i _
  | .map i _ => some i
  | _ => none

/-! ### The fabric -/

/-- `enum is_connection_state`. -/
inductive ConnectionState
  | notConnected | connecting | connected | degraded | remoteLost
  deriving DecidableEq

/-- `struct is_rdma_fabric`, with the Remote Chunk module and the connection state of its device,
the works queued for it and the handlers that run. -/
structure Fabric where
  world : World
  mode : Mode
  plannedCount : ℕ
  sessions : ℕ → Option Session := fun _ => none
  sessionCount : ℕ := 0
  nextResolveIndex : ℕ := 0
  failedSessions : ℕ → Bool := fun _ => false
  reservationComplete : Bool := false
  reservationFailed : Bool := false
  stopping : Bool := false
  connectionState : ConnectionState := .connecting
  remoteLost : Bool := false
  startQueued : Bool := false
  mappingQueued : Bool := false
  reservationQueued : Bool := false
  threads : List (List Instr) := [[.startNext]]

namespace Fabric

variable (f : Fabric)

def remoteOnly : Bool := f.mode = .remoteOnly

def setSession (i : ℕ) (s : Session) : Fabric :=
  { f with sessions := Function.update f.sessions i (some s) }

def setModule (m : ChunkModule) : Fabric := { f with world := f.world.setModule m }

/-- A new thread. -/
def spawn (x : Instr) : Fabric := { f with threads := f.threads ++ [[x]] }

end Fabric
end Control
end Infiniswap
