/-
# The fabric and its runs

The works of a fabric that involve more than one session: starting the sessions
one after the other, the reservation of a Remote-Only device, the mapping of hot
chunks in Backed Mode, and the stop. `Fabric.perform` is one instruction of a
thread; `Fabric.step` adds what comes from outside: timers and queued works that
start, messages, completions of control sends, faults of the transport, and the
calls the block layer makes to the Remote Chunk module. A run is an arbitrary
interleaving of all of these.

A message may arrive whenever the session exists, and a fault may happen at any
time. The one place where the source would follow a null pointer, the scan of
the sessions before a mapping, has no step.
-/
import Infiniswap.Lib.Threads
import Infiniswap.Control.Handlers

namespace Infiniswap
namespace Control

open RemoteChunk ChunkModule Transition Threads

namespace Fabric

variable (f : Fabric)

/-! ### Starting sessions -/

/-- `is_fabric_fail_unstarted_provider`. -/
def failUnstartedProvider (index : ℕ) : Fabric :=
  if !f.remoteOnly then f
  else
    let m := f.world.module
    let m := if index < m.providerCount then (m.providerFailed (m.providers index).handle).2.2 else m
    { f.setModule m with reservationQueued := true }

/-- `is_fabric_start_next_session`. -/
def startNextSession (answer : Answer) : List Instr × Fabric :=
  if f.stopping ∨ f.nextResolveIndex ≥ f.plannedCount then ([], f)
  else
    let index := f.nextResolveIndex
    let f := { f with nextResolveIndex := index + 1 }
    if (f.sessions index).isSome then ([], f)
    else if !answer.allocated ∨ index ≥ f.world.module.providerCount then
      ([.refresh, .afterFailure], { f with
        failedSessions := Function.update f.failedSessions index true }.failUnstartedProvider index)
    else
      let s : Session := { handle := (f.world.module.providers index).handle }
      let f := { f.setSession index s.armDeadline with sessionCount := max f.sessionCount (index + 1) }
      (answer.status.toList.map (.fail index), f)

/-! ### Timers of a session -/

section Timers

variable (i : ℕ) (s : Session)

/-- The first section of `is_control_deadline`. -/
def controlDeadline (answer : Answer) : List Instr × Fabric :=
  if s.deadlineArmed ∧ !s.stopping then
    if answer.timedOut then ([.deadlinePassed i], f.setSession i { s with deadlineArmed := false })
    else ([], f.setSession i { s with deadlineQueued := true })
  else ([], f)

/-- Its second section. -/
def deadlinePassed : List Instr × Fabric :=
  ([.fail i .etimedout],
    f.setSession i { s with controlState := if s.controlState = .stopping then .stopping else .failed })

/-- `is_hello_work`. -/
def helloWork : List Instr × Fabric :=
  if s.controlState = .connecting then
    ([.awaitSlot i .hello], f.setSession i (s.request .waitChallenge).lock)
  else ([.fail i .einval], f)

/-- `is_heartbeat_work`; a heartbeat does not wait for the send slot. -/
def heartbeatWork (answer : Answer) : List Instr × Fabric :=
  if s.stopping then ([], f)
  else if s.controlState ≠ .ready ∨ (!f.remoteOnly ∧ (s.pendingRequestId ≠ 0 ∨ s.releaseCount ≠ 0)) then
    if s.controlState ≠ .failed ∧ s.controlState ≠ .stopping then ([], f.setSession i s.scheduleHeartbeat)
    else ([], f)
  else if f.remoteOnly ∧ !s.reservationComplete then ([], f)
  else if !f.remoteOnly ∧ s.heartbeatRequestId ≠ 0 then ([.fail i .etimedout], f)
  else if f.remoteOnly then
    match (s.request .waitHeartbeat).lock.postFrame answer with
    | (none, s) => ([.unlock i], f.setSession i s.armDeadline)
    | (some e, s) => f.reject i s e
  else
    match { s.countRequest with heartbeatRequestId := s.nextRequestId }.lock.postFrame answer with
    | (none, s) => ([.unlock i], f.setSession i s.scheduleHeartbeat)
    | (some e, s) => f.reject i { s with heartbeatRequestId := 0 } e

/-- The end of `is_release_work` when the chunks could not be released. -/
def releaseFailed (e : Errno) : List Instr × Fabric :=
  f.reject i { s with releaseCount := 0, pendingRequestId := 0 } e

/-- `is_release_work`, once the wait for the leases is over. -/
def evictionWaited (status : Except Errno Unit) : List Instr × Fabric :=
  match status with
  | .error e => f.releaseFailed i s e
  | .ok () =>
    let (result, m) := f.world.module.evictionFinish s.evictionClaim
    match result with
    | .error e => (f.setModule m).releaseFailed i s e
    | .ok () => ([.awaitSlot i .release], f.setModule m)

end Timers

/-! ### Reservation -/

/-- A claim no session takes is aborted. -/
def abortClaim (mapping : MappingRequest) : Option Errno × Fabric :=
  let (result, m) := f.world.module.mappingFinish mapping.claim .abort mapping.provider (.null 0)
  (abortError result, f.setModule m)

/-- `is_fabric_reservation_work`, up to the lock of the session it chooses. -/
def reservationWork (answer : Answer) : List Instr × Fabric :=
  if f.reservationComplete ∨ f.reservationFailed ∨ f.stopping then ([], f)
  else
    let (result, request, m) := f.world.module.nextMapping answer.draws
    let f := f.setModule m
    match result, request with
    | .request, some mapping =>
      match f.sessionForProvider mapping.provider with
      | some i => ([.reserve i mapping], f)
      | none => ([.reservationFailed ((f.abortClaim mapping).1.getD .estale)], (f.abortClaim mapping).2)
    | .complete, _ =>
      -- `is_device_mark_remote_connected`
      if f.remoteLost then ([.reservationFailed .eio], f)
      else ([.reservedSessions, .reserved], { f with connectionState := .connected })
    | .pendingProviderFacts, _ | .claimActive, _ => ([], f)
    | .insufficientCapacity, _ | .noEligibleCapacity, _ => ([.reservationFailed .enospc], f)
    | .shutdown, _ => ([.reservationFailed .eshutdown], f)
    | _, _ => ([.reservationFailed .einval], f)

/-- The locked section of `is_fabric_reservation_work`. -/
def reserve (i : ℕ) (s : Session) (mapping : MappingRequest) : List Instr × Fabric :=
  if !s.healthy ∨ !s.compatible ∨ s.failureStarted ∨ s.controlState ≠ .ready ∨ s.pendingRequestId ≠ 0 then
    let (ret, s, m) := s.giveBack f.world.module mapping.claim mapping.provider
    let f := (f.setModule m).setSession i s
    match ret with
    | none => ([], { f with reservationQueued := true })
    | some e => (if e = eproto then [.fail i e, .queueReservation] else [.reservationFailed e], f)
  else if mapping.pool ≠ .committed then ([.reservationFailed .einval], f)
  else
    ([.awaitSlot i .reservation],
      f.setSession i ({ s with mappingClaim := mapping.claim }.request .waitReservation).lock)

/-! ### Mapping -/

/-- The scan for a session that awaits a response; `none` is a null pointer. -/
def mappingScan : List ℕ → Option Bool
  | [] => some false
  | i :: rest =>
    match f.sessions i with
    | none => none
    | some s => if s.controlState = .ready ∧ s.pendingRequestId ≠ 0 then some true else mappingScan rest

/-- `is_fabric_mapping_work`, up to the lock of the session it chooses. -/
def mappingWork (answer : Answer) : Option (List Instr × Fabric) :=
  if f.remoteOnly ∨ f.stopping ∨ f.connectionState = .connecting then some ([], f)
  else match f.mappingScan (List.range f.sessionCount) with
    | none => none
    | some true => some ([], f)
    | some false =>
      let (result, request, m) := f.world.module.nextMapping answer.draws
      let f := f.setModule m
      match result, request with
      | .request, some mapping =>
        match f.sessionForProvider mapping.provider with
        | none => some ([], (f.abortClaim mapping).2)
        | some i =>
          if mapping.pool ≠ .opportunistic then
            some ((f.abortClaim mapping).1.toList.map (.fail i), (f.abortClaim mapping).2)
          else some ([.map i mapping], f)
      | _, _ => some ([], f)

/-- The locked section of `is_fabric_mapping_work`. -/
def map (i : ℕ) (s : Session) (mapping : MappingRequest) : List Instr × Fabric :=
  let s := { s with mappingClaim := mapping.claim }
  if !s.healthy ∨ !s.compatible ∨ s.failureStarted ∨ s.controlState ≠ .ready ∨ s.pendingRequestId ≠ 0 ∨
      s.heartbeatRequestId ≠ 0 ∨ s.releaseCount ≠ 0 then
    let (ret, s, m) := s.giveBack f.world.module s.mappingClaim s.handle
    (ret.toList.map (.fail i), (f.setModule m).setSession i s)
  else ([.awaitSlot i .mapping], f.setSession i (s.request .ready).lock)

/-! ### One instruction -/

/-- Goes on with session `i` once its lock is free. -/
def withLock (i : ℕ) (k : Session → List Instr × Fabric) : Option (List Instr × Fabric) :=
  (f.sessions i).bind fun s => if s.locked then none else some (k s)

/-- Goes on with session `i`, whose lock the thread has or does not need. -/
def withSession (i : ℕ) (k : Session → List Instr × Fabric) : Option (List Instr × Fabric) :=
  (f.sessions i).map k

/-- The calls of the module in which `is_release_work` waits. -/
def waitCall (i : ℕ) (s : Session) (deadline : ℕ) (c : Call) : Option (List Instr × Fabric) :=
  match f.world.call c with
  | some (.waited (.done status), w) =>
    some ([.evictionWaited i status], { f with world := w }.setSession i s)
  | some (.waited .waiting, w) => some ([.evictionWait i deadline], { f with world := w }.setSession i s)
  | _ => none

/-- One instruction, given what is answered from below: the instructions its thread goes on with,
and the fabric. An instruction that has to wait has no outcome. -/
def perform (answer : Answer) : Instr → Option (List Instr × Fabric)
  | .startNext => some (f.startNextSession answer)
  | .refresh => some ([], f.refresh)
  | .afterFailure => some ([], { f with mappingQueued := true }.scheduleNextSession)
  | .fail i e => f.withLock i fun s => f.rdmaFail i s e
  | .failReservation _ assigned => some ([], f.failReservation assigned)
  | .markLost _ => some ([], f.markRemoteLost)
  | .queueFailure i => f.withSession i fun s => ([], f.setSession i { s with failureQueued := true })
  | .failureWork i => f.withLock i fun s => f.failureWork i s
  | .controlDeadline i => f.withLock i fun s => f.controlDeadline i s answer
  | .deadlinePassed i => f.withLock i fun s => f.deadlinePassed i s
  | .helloWork i => f.withLock i fun s => f.helloWork i s
  | .heartbeatWork i => f.withLock i fun s => f.heartbeatWork i s answer
  | .receiveWork i message => f.withLock i fun s => f.receive i s.lock answer message
  | .releaseWork i => (f.sessions i).bind fun s =>
      if s.locked then none
      else f.waitCall i s.lock answer.deadline (.evictionWait s.evictionClaim answer.deadline answer.now)
  | .evictionWait i deadline => (f.sessions i).bind fun s =>
      f.waitCall i s deadline
        (.evictionWake (f.world.waiters.idxOf (s.evictionClaim, deadline)) answer.now)
  | .evictionWaited i status => f.withSession i fun s => f.evictionWaited i s status
  | .awaitSlot i p => (f.sessions i).bind fun s => f.awaitSlot i s answer p
  | .post i p => f.withSession i fun s => f.post i s answer p
  | .lostReady i => f.withSession i fun s =>
      ([], (f.setSession i
        { s with pendingRequestId := 0, controlState := .failed }.cancelDeadline).sessionStatusDone)
  | .markedReady i => f.withSession i fun s =>
      ([], { f.scheduleNextSession.setSession i (if s.negotiatedStatus then s.scheduleHeartbeat else s) with
        mappingQueued := f.mappingQueued || !f.remoteOnly })
  | .statusReady i => f.withSession i fun s =>
      ([], f.scheduleNextSession.setSession i (if s.negotiatedStatus then s.scheduleHeartbeat else s))
  | .unlock i => f.withSession i fun s => ([], f.setSession i s.unlock)
  | .repost i => f.withSession i fun s =>
      (if s.stopping ∨ answer.status.isSome then [.fail i .eio] else [], f)
  | .reservationWork => some (f.reservationWork answer)
  | .reserve i mapping => f.withLock i fun s => f.reserve i s mapping
  | .queueReservation => some ([], { f with reservationQueued := true })
  | .reservedSessions => some ([], { f with
      sessions := fun i =>
        if i < f.sessionCount then (f.sessions i).map fun s => { s with reservationComplete := true }
        else f.sessions i })
  | .reserved => some ([], { f with reservationComplete := true })
  | .reservationFailed e => some ([.failSessions 0 e], { f with reservationFailed := true })
  | .failSessions k e =>
    if k < f.sessionCount then
      some ((if (f.sessions k).isSome then [.fail k e] else []) ++ [.failSessions (k + 1) e], f)
    else some ([], f)
  | .mappingWork => f.mappingWork answer
  | .map i mapping => f.withLock i fun s => f.map i s mapping
  | .stopSessions k =>
    if k < f.sessionCount then
      some ((if (f.sessions k).isSome then [.stopSession k, .stopControl k, .destroySession k] else []) ++
        [.stopSessions (k + 1)], f)
    else some ([], f)
  | .stopSession i => f.withSession i fun s =>
      ([], (f.setModule (f.world.module.providerFailed s.handle).2.2).setSession i
        { s with stopping := true })
  | .stopControl i => f.withLock i fun s =>
      ([], f.setSession i
        { s with
          controlState := .stopping, deadlineArmed := false, deadlineQueued := false,
          heartbeatQueued := false })
  | .destroySession i =>
    -- the works of the session are waited for
    if (pending f.threads).any fun x => x.session = some i then none
    else some ([], { f with sessions := Function.update f.sessions i none })

end Fabric

/-! ### Runs -/

/-- The works queued for a session. -/
inductive SessionWork
  | hello | deadline | heartbeat | release | failure
  deriving DecidableEq

/-- A queued work starts. -/
def Session.take (s : Session) : SessionWork → Option Session
  | .hello => if s.helloQueued then some { s with helloQueued := false } else none
  | .deadline => if s.deadlineQueued then some { s with deadlineQueued := false } else none
  | .heartbeat => if s.heartbeatQueued then some { s with heartbeatQueued := false } else none
  | .release => if s.releaseQueued then some { s with releaseQueued := false } else none
  | .failure => if s.failureQueued then some { s with failureQueued := false } else none

def SessionWork.instr (i : ℕ) : SessionWork → Instr
  | .hello => .helloWork i
  | .deadline => .controlDeadline i
  | .heartbeat => .heartbeatWork i
  | .release => .releaseWork i
  | .failure => .failureWork i

/-- The calls of the module that come from the block layer and the configuration. -/
def fromBlock : Call → Bool
  | .quiesce | .hotPolicySnapshot | .hotPolicySet _ | .noteActivity _ _ _ | .leaseAcquire _ _
  | .leaseResolve _ _ | .leaseRelease _ | .snapshot _ | .writeCell _ _ => true
  | _ => false

/-- What may happen next. -/
inductive Label
  /-- `start_next_session_work`, `mapping_work` or `reservation_work` starts. -/
  | start
  | mapping
  | reservation
  | work (i : ℕ) (w : SessionWork)
  /-- The connection of session `i` is established. -/
  | established (i : ℕ)
  | message (i : ℕ) (message : Message)
  /-- The control send of session `i` completes. -/
  | sendDone (i : ℕ) (failed : Bool)
  /-- The transport fails session `i`: the connection manager, a receive or an RDMA operation. -/
  | fault (i : ℕ) (error : Errno)
  /-- The block layer calls the Remote Chunk module. -/
  | io (c : Call)
  /-- The block layer finds that a chunk should be mapped. -/
  | mappingNeeded
  | stop
  /-- Thread `t` performs its next instruction. -/
  | run (t : ℕ) (answer : Answer)

namespace Fabric

variable (f : Fabric)

def step : Label → Option Fabric
  | .start => if f.startQueued then some ({ f with startQueued := false }.spawn .startNext) else none
  | .mapping =>
    if f.mappingQueued then some ({ f with mappingQueued := false }.spawn .mappingWork) else none
  | .reservation =>
    if f.reservationQueued then some ({ f with reservationQueued := false }.spawn .reservationWork)
      else none
  | .work i w => (f.sessions i).bind fun s => (s.take w).map fun s => (f.setSession i s).spawn (w.instr i)
  | .established i => (f.sessions i).bind fun s =>
      if s.stopping ∨ s.controlState = .failed then none
        else some (f.setSession i { s with helloQueued := true })
  | .message i message => (f.sessions i).bind fun s =>
      if s.stopping then none else some (f.spawn (.receiveWork i message))
  | .sendDone i failed => (f.sessions i).bind fun s =>
      if !s.sendBusy then none
      else
        let f := f.setSession i { s with sendBusy := false }
        some (if failed then f.spawn (.fail i .eio) else f)
  | .fault i e => (f.sessions i).map fun _ => f.spawn (.fail i e)
  | .io c => if fromBlock c then (f.world.call c).map fun r => { f with world := r.2 } else none
  | .mappingNeeded =>
    if f.stopping ∨ f.sessionCount = 0 then none else some { f with mappingQueued := true }
  | .stop =>
    -- `is_rdma_stop`, up to the sessions
    if f.stopping then none
    else some ({ f with
      stopping := true
      connectionState := if f.remoteLost then .remoteLost else .notConnected
      startQueued := false
      mappingQueued := false
      reservationQueued := false }.spawn (.stopSessions 0))
  | .run t answer =>
    match f.threads[t]? with
    | some (x :: rest) =>
      (f.perform answer x).map fun r => { r.2 with threads := f.threads.set t (r.1 ++ rest) }
    | _ => none

/-- The fabric of `is_rdma_start`, on a fresh module that knows a Provider. -/
def Started : Prop :=
  f.world.Fresh ∧ f.world.module.providerCount ≠ 0 ∧
    f = { world := f.world, mode := f.world.module.mode, plannedCount := f.world.module.providerCount }

/-- No handler runs. -/
def Quiet : Prop := ∀ t ∈ f.threads, t = []

end Fabric

/-- Every run of a fabric. -/
def fabricSystem : System Fabric Label where
  init := Fabric.Started
  step := Fabric.step

end Control
end Infiniswap
