/-
# The Remote I/O transaction engine

`is_remote_io_transaction.c`: one transaction per block request. It starts the
Backing Store and RDMA paths of the request, takes their results, completes the
request when the policy says so, and releases and settles itself when no event
handler runs and no path holds a claim.

Handlers run concurrently and call each other: an adapter may deliver an event
from inside the call that submits it, and a failed submission is handled by the
handler itself. A thread is the list of instructions it still has to perform;
every locked section and every adapter call is one instruction, so all
interleavings of them are runs. An event delivered from inside a submission is
a thread that runs while the submitting thread makes no step. The adapters owe
one completion for each submission they accept, and one RDMA result and one
RDMA release; the storage of the transaction is gone once it is released, and
an instruction that would still use it cannot be performed.

The kernel's build is modelled, where the lock is always initialised. A mode is
one of the three that `is_remote_io_transaction_engine_init` accepts.
-/
import Infiniswap.Lib.Runs
import Infiniswap.Lib.Threads
import Infiniswap.Io.Policy

namespace Infiniswap
namespace Io

open Threads Transition

/-! ### The engine and its transactions -/

inductive EngineMode
  | backedStrict | backedRemoteFirst | remoteOnly
  deriving DecidableEq

/-- A direction of the source's enumeration, or a value outside it. -/
inductive Direction
  | read | write | invalid
  deriving DecidableEq

/-- The part of `struct is_remote_io_transaction_spec` the engine looks at; a `payload` of 0 is `NULL`. -/
structure Spec where
  direction : Direction
  bytes : ℕ
  generation : ℕ
  payload : ℕ
  deriving DecidableEq

/-- `is_transaction_spec_valid`. -/
def Spec.valid (spec : Spec) : Bool :=
  spec.payload ≠ 0 && spec.bytes ≠ 0 && spec.generation ≠ 0 &&
    (spec.direction = .read || spec.direction = .write)

structure Engine where
  activeTransactions : ℕ := 0
  mode : EngineMode
  initialized : Bool := true
  deriving DecidableEq

/-- `struct is_remote_io_transaction`, without its lock, its engine, its specification and its context. -/
structure Transaction where
  policy : IoPolicy
  activeEvents : ℕ := 1
  backingRetries : ℕ := 0
  backingClaim : Bool
  rdmaResultClaim : Bool := true
  rdmaTransportClaim : Bool := true
  invariantReported : Bool := false
  settling : Bool := false
  deriving DecidableEq

/-- The entry that reports an invariant violation. -/
inductive EngineEvent
  | backingCompleted | rdmaCompleted | rdmaReleased
  deriving DecidableEq

/-- What a thread still has to perform. -/
inductive Instr
  /-- `is_remote_io_transaction_start` up to the check of the engine. -/
  | start
  /-- The count of the transaction, and the check of its specification. -/
  | register
  | allocate
  | prepare
  /-- Submits the Backing Store copy if its claim is held. -/
  | submitClaimedBacking
  | submitBacking
  | submitRdma
  /-- The locked section of `is_remote_io_transaction_backing_completed`. -/
  | backingCompleted (status : Option Errno)
  /-- The locked section of `is_remote_io_transaction_rdma_completed`. -/
  | rdmaCompleted (generation : ℕ) (status : Option Errno) (cancelled : Bool)
  /-- The locked section of `is_remote_io_transaction_rdma_released`. -/
  | rdmaReleased (generation : ℕ)
  | backingDegraded
  | markLocalOnly
  | complete (status : Option Errno)
  | reportInvariant (event : EngineEvent)
  /-- The locked section of `is_transaction_finish_event`. -/
  | finishEvent (event : EngineEvent)
  | release
  /-- The count of the transaction is taken back. -/
  | unregister
  | settle
  /-- The completion of a request whose start is rejected, without a context. -/
  | reject (status : Errno)
  deriving DecidableEq

/-- What happened, newest first: adapter calls, and the results of the two paths as handlers take them. -/
inductive Event
  | allocate
  | prepare
  | submitBacking
  | submitRdma
  | backingResult (status : Option Errno)
  | rdmaResult (status : Option Errno)
  | backingDegraded
  | markLocalOnly
  | complete (status : Option Errno)
  | invariant (event : EngineEvent)
  | release
  | settle
  deriving DecidableEq

namespace Transaction

variable (t : Transaction)

/-- `is_transaction_begin_event`, after the lock. -/
def beginEvent : Transaction := { t with activeEvents := t.activeEvents + 1 }

/-- `is_transaction_note_invariant`: only the first violation is reported. -/
def noteInvariant : Bool × Transaction := (!t.invariantReported, { t with invariantReported := true })

/-- `is_transaction_completion_status`. -/
def completionStatus : Option Errno :=
  if t.policy.localDone then t.policy.localStatus else t.policy.remoteStatus

end Transaction

/-- The report of a violation, if it is to be reported. -/
def reportIf (report : Bool) (event : EngineEvent) : List Instr :=
  if report then [.reportInvariant event] else []

/-- `is_transaction_apply_action`. -/
def applyAction (action : IoAction) (completionStatus : Option Errno) : List Instr :=
  (if action.backingDegraded then [.backingDegraded] else [] : List Instr) ++
  (if action.markLocalOnly then [.markLocalOnly] else [] : List Instr) ++
  (if action.submitLocal then [.submitBacking] else [] : List Instr) ++
  (if action.completeSuccess then [.complete none]
    else if action.completeError then [.complete completionStatus] else [] : List Instr)

/-- The kind of policy `is_transaction_init_policy` chooses. -/
def policyKind (mode : EngineMode) (direction : Direction) : PolicyKind := match mode with
  | .backedStrict => if direction = .write then .strictWrite else .remoteRead
  | .backedRemoteFirst => if direction = .write then .remoteFirstWrite else .remoteRead
  | .remoteOnly => if direction = .write then .remoteOnlyWrite else .remoteOnlyRead

/-- `is_transaction_init_policy` on cleared storage with one event active. -/
def initPolicy (mode : EngineMode) (spec : Spec) : Transaction :=
  let kind := policyKind mode spec.direction
  if kind = .strictWrite ∨ kind = .remoteFirstWrite then
    { policy := .initWrite kind spec.generation, backingClaim := true }
  else { policy := .initRemote kind spec.generation, backingClaim := false }

/-- `is_transaction_reject_start`. -/
def rejectStart (status : Errno) (registered : Bool) : List Instr :=
  ([.reject status] : List Instr) ++ (if registered then [.unregister] else [] : List Instr) ++ [.settle]

/-- `is_transaction_fail_rdma_submission`. -/
def failRdmaSubmission (spec : Spec) (status : Errno) : List Instr :=
  [.rdmaReleased spec.generation, .rdmaCompleted spec.generation (some status) false]

namespace Transaction

variable (t : Transaction)

/-- The rest of `is_remote_io_transaction_backing_completed`, decided in its locked section. -/
def backingCompleted (mode : EngineMode) (spec : Spec) (status : Option Errno) :
    List Instr × Transaction :=
  let t := t.beginEvent
  if !t.backingClaim then
    let (report, t) := t.noteInvariant
    (reportIf report .backingCompleted ++ applyAction {} status ++ [.finishEvent .backingCompleted], t)
  else if status.isSome ∧ mode = .backedRemoteFirst ∧ spec.direction = .write ∧ t.backingRetries = 0 then
    ([.submitBacking, .finishEvent .backingCompleted], { t with backingRetries := t.backingRetries + 1 })
  else
    let (action, policy) := t.policy.localComplete status
    let t := { t with policy := policy, backingClaim := false }
    (applyAction action t.completionStatus ++ [.finishEvent .backingCompleted], t)

/-- The rest of `is_remote_io_transaction_rdma_completed`, decided in its locked section. -/
def rdmaCompleted (spec : Spec) (generation : ℕ) (status : Option Errno) (cancelled : Bool) :
    List Instr × Transaction :=
  let t := t.beginEvent
  if generation ≠ spec.generation then (applyAction {} status ++ [.finishEvent .rdmaCompleted], t)
  else if !t.rdmaResultClaim then
    let (report, t) := t.noteInvariant
    (reportIf report .rdmaCompleted ++ applyAction {} status ++ [.finishEvent .rdmaCompleted], t)
  else
    let (action, policy) := t.policy.remoteEvent cancelled generation status
    let t := { t with policy := policy }
    let (report, t) :=
      if action.submitLocal then
        if t.backingClaim then t.noteInvariant else (false, { t with backingClaim := true })
      else (false, t)
    let t := { t with rdmaResultClaim := false }
    (reportIf report .rdmaCompleted ++ applyAction action t.completionStatus ++
      [.finishEvent .rdmaCompleted], t)

/-- The rest of `is_remote_io_transaction_rdma_released`, decided in its locked section. -/
def rdmaReleased (spec : Spec) (generation : ℕ) : List Instr × Transaction :=
  let t := t.beginEvent
  if generation ≠ spec.generation then ([.finishEvent .rdmaReleased], t)
  else if !t.rdmaTransportClaim then
    let (report, t) := t.noteInvariant
    (reportIf report .rdmaReleased ++ [.finishEvent .rdmaReleased], t)
  else ([.finishEvent .rdmaReleased], { t with rdmaTransportClaim := false })

/-- The rest of `is_transaction_finish_event`, decided in its locked section. -/
def finishEvent (event : EngineEvent) : List Instr × Transaction :=
  let t := { t with activeEvents := t.activeEvents - 1 }
  if t.activeEvents = 0 ∧ t.backingClaim = false ∧ t.rdmaResultClaim = false ∧
      t.rdmaTransportClaim = false ∧ t.settling = false then
    if !t.policy.releasable then
      let (report, t) := t.noteInvariant
      (reportIf report event, t)
    else ([.release, .unregister, .settle], { t with settling := true })
  else ([], t)

end Transaction

/-! ### The engine as a transition system -/

/-- One transaction of an engine: its storage, the threads that work on it, what the adapters owe it, and
how many transactions of other requests the engine counts. -/
structure State where
  engine : Engine
  spec : Spec
  transaction : Option Transaction := none
  threads : List (List Instr)
  backingOwed : ℕ := 0
  resultOwed : ℕ := 0
  releaseOwed : ℕ := 0
  others : ℕ
  log : List Event := []
  deriving DecidableEq

/-- What an adapter call returns: its status, and for an allocation whether there is storage. -/
structure Answer where
  status : Option Errno := none
  storage : Bool := true
  deriving DecidableEq

namespace State

variable (s : State)

def note (e : Event) : State := { s with log := e :: s.log }

/-- One instruction, given what an adapter answers: the instructions that follow from it, and the state.
An instruction on storage that is gone has no outcome. -/
def perform : Instr → Answer → Option (List Instr × State)
  | .start, _ =>
    if !s.engine.initialized then some (rejectStart .eshutdown false, s) else some ([.register], s)
  | .register, _ =>
    let s := { s with engine := { s.engine with activeTransactions := s.engine.activeTransactions + 1 } }
    if !s.spec.valid then some (rejectStart .einval true, s) else some ([.allocate], s)
  | .allocate, answer =>
    let s := s.note .allocate
    match answer.status with
    | some e => some (rejectStart e true, s)
    | none =>
      if !answer.storage then some (rejectStart .enomem true, s)
      else some ([.prepare, .finishEvent .rdmaCompleted],
        { s with transaction := some (initPolicy s.engine.mode s.spec) })
  | .prepare, answer =>
    match s.transaction with
    | none => none
    | some _ =>
      match answer.status with
      | some e => some (.submitClaimedBacking :: failRdmaSubmission s.spec e, s.note .prepare)
      | none => some ([.submitClaimedBacking, .submitRdma], s.note .prepare)
  | .submitClaimedBacking, _ =>
    match s.transaction with
    | none => none
    | some t => some (if t.backingClaim then [.submitBacking] else [], s)
  | .submitBacking, answer =>
    match s.transaction with
    | none => none
    | some _ =>
      match answer.status with
      | some e => some ([.backingCompleted (some e)], s.note .submitBacking)
      | none => some ([], { s.note .submitBacking with backingOwed := s.backingOwed + 1 })
  | .submitRdma, answer =>
    match s.transaction with
    | none => none
    | some _ =>
      match answer.status with
      | some e => some (failRdmaSubmission s.spec e, s.note .submitRdma)
      | none => some ([], { s.note .submitRdma with
          resultOwed := s.resultOwed + 1, releaseOwed := s.releaseOwed + 1 })
  | .backingCompleted status, _ =>
    s.transaction.map fun t =>
      let (rest, t) := t.backingCompleted s.engine.mode s.spec status
      (rest, { s.note (.backingResult status) with transaction := some t })
  | .rdmaCompleted generation status cancelled, _ =>
    s.transaction.map fun t =>
      let (rest, t) := t.rdmaCompleted s.spec generation status cancelled
      (rest, { s.note (.rdmaResult status) with transaction := some t })
  | .rdmaReleased generation, _ =>
    s.transaction.map fun t =>
      let (rest, t) := t.rdmaReleased s.spec generation
      (rest, { s with transaction := some t })
  | .backingDegraded, _ => s.transaction.map fun _ => ([], s.note .backingDegraded)
  | .markLocalOnly, _ => s.transaction.map fun _ => ([], s.note .markLocalOnly)
  | .complete status, _ => s.transaction.map fun _ => ([], s.note (.complete status))
  | .reportInvariant event, _ => s.transaction.map fun _ => ([], s.note (.invariant event))
  | .finishEvent event, _ =>
    s.transaction.map fun t =>
      let (rest, t) := t.finishEvent event
      (rest, { s with transaction := some t })
  | .release, _ => s.transaction.map fun _ => ([], { s.note .release with transaction := none })
  | .unregister, _ =>
    some ([],
      { s with engine := { s.engine with activeTransactions := s.engine.activeTransactions - 1 } })
  | .settle, _ => some ([], s.note .settle)
  | .reject status, _ => some ([], s.note (.complete (some status)))

end State

/-- A step: a thread performs an instruction, an adapter delivers what it owes, or another transaction of
the engine is registered or settled. -/
inductive Label
  | run (thread : ℕ) (answer : Answer)
  | backing (status : Option Errno)
  | rdma (status : Option Errno) (cancelled : Bool)
  | transport
  | other (registered : Bool)

/-- The step is made for this transaction. -/
def Label.own : Label → Bool
  | .other _ => false
  | _ => true

namespace State

variable (s : State)

/-- A handler entered by an adapter. -/
def enter (i : Instr) : State := { s with threads := s.threads ++ [[i]] }

def step : Label → Option State
  | .run i answer =>
    match s.threads[i]? with
    | some (x :: rest) =>
      (s.perform x answer).map fun r => { r.2 with threads := s.threads.set i (r.1 ++ rest) }
    | _ => none
  | .backing status =>
    if s.backingOwed = 0 then none
    else some ({ s with backingOwed := s.backingOwed - 1 }.enter (.backingCompleted status))
  | .rdma status cancelled =>
    if s.resultOwed = 0 then none
    else some ({ s with resultOwed := s.resultOwed - 1 }.enter
      (.rdmaCompleted s.spec.generation status cancelled))
  | .transport =>
    if s.releaseOwed = 0 then none
    else some ({ s with releaseOwed := s.releaseOwed - 1 }.enter (.rdmaReleased s.spec.generation))
  | .other true =>
    some { s with
      engine := { s.engine with activeTransactions := s.engine.activeTransactions + 1 }
      others := s.others + 1 }
  | .other false =>
    if s.others = 0 then none
    else some { s with
      engine := { s.engine with activeTransactions := s.engine.activeTransactions - 1 }
      others := s.others - 1 }

/-- A request is handed to the engine. -/
def Initial : Prop :=
  s = { engine := s.engine, spec := s.spec, threads := [[.start]], others := s.engine.activeTransactions }

end State

/-- Every run of one transaction, among the others of its engine. -/
def engineSystem : System State Label where
  init := State.Initial
  step := State.step

end Io
end Infiniswap
