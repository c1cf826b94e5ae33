/-
# The block device

`is_mq.c`: block requests are queued, dispatched one by one by the ordered
workqueue, and served by a Remote I/O transaction or by the Backing Store
directly. A transaction runs on the engine; what is modelled here are the
adapters it calls: the owned bio of a prepared write, the work that submits
every other Backing Store attempt, and the completion of the request.

Everything that goes to the Backing Store is submitted by the one worker. It is
busy while it starts a transaction or issues a flush, and nothing is dispatched
meanwhile. The loop that clones the bios of a request is one step: what happens
to a clone before the loop ends is not seen by anyone, because the sentinel
keeps the attempt open. The RDMA path answers and delivers as it likes, within
what it owes the engine. A blk-mq status is modelled by the error it stands for.

A bio and an RDMA operation move the pages of the request itself or the pages
its transaction owns; the log tells when the pages of the request are touched.
Copying back into them cannot fail: the owned pages were laid out by the same
request.

Left out are the statistics of the device, the contents of the pages, and what
opens, drains and stops the device: whether it accepts a request, and whether a
Provider is connected when one is dispatched, is part of the step.
-/
import Infiniswap.Io.Transaction

namespace Infiniswap
namespace Block

open Transition

/-! ### Requests and bios -/

inductive Op
  | read | write | flush | other
  deriving DecidableEq

/-- A block request: its first sector, and the sectors of each of its bios. -/
structure Request where
  op : Op
  sector : ℕ := 0
  bios : List ℕ := []
  deriving DecidableEq

/-- The bios of a request that starts at `sector`: the first sector of each, and how many. -/
def spans (sector : ℕ) : List ℕ → List (ℕ × ℕ)
  | [] => []
  | n :: ns => (sector, n) :: spans (sector + n) ns

namespace Request

variable (q : Request)

/-- `blk_rq_bytes`, in sectors. -/
def count : ℕ := q.bios.sum

end Request

/-- A bio handed to the Backing Store for a request, on the pages its transaction owns or on its
own, and its result once it is at an end. -/
structure Bio where
  request : ℕ
  write : Bool
  owned : Bool
  sector : ℕ
  count : ℕ
  result : Option (Option Errno) := none
  deriving DecidableEq

/-- `struct is_remote_request`, with the transaction that it is the context of. -/
structure Remote where
  io : Io.State
  backingSubmissions : ℕ := 0
  prepared : Bool := false
  pendingBios : ℕ := 0
  localStatus : Option Errno := none

/-- `struct is_request_ctx`, of a request that goes to the Backing Store directly. -/
structure Ctx where
  pendingBios : ℕ := 1
  status : Option Errno := none
  backingIoFailed : Bool := false

/-- Where a request is. -/
inductive Stage
  | queued
  | flushing
  | remote (remote : Remote)
  | direct (ctx : Ctx)
  /-- Completed without either path. -/
  | ended

structure Job where
  request : Request
  stage : Stage

/-- An item of `ordered_backing_wq`. -/
inductive Work
  | dispatch (r : ℕ)
  | localWork (r : ℕ)
  deriving DecidableEq

/-- What happened, newest first. -/
inductive Event
  | queued (r : ℕ) (request : Request)
  /-- The owned pages were allocated; for a write they were filled from the pages of the request. -/
  | prepared (r : ℕ)
  /-- The owned pages were copied into the pages of the request. -/
  | copied (r : ℕ)
  /-- The owned pages were freed. -/
  | freed (r : ℕ)
  | bioSubmitted (r sector count : ℕ) (owned : Bool)
  | bioEnded (r sector count : ℕ) (status : Option Errno)
  /-- The work that submits a Backing Store attempt of a transaction reported an error of its own. -/
  | localWorkFailed (r : ℕ)
  | flushIssued (r : ℕ)
  /-- Request `r` degraded the device and made the sectors invalid. -/
  | degraded (r sector count : ℕ)
  | completed (r : ℕ) (status : Option Errno)
  deriving DecidableEq

/-- The request an event is about. -/
def Event.request : Event → ℕ
  | .queued r _ | .prepared r | .copied r | .freed r | .bioSubmitted r _ _ _ | .bioEnded r _ _ _
  | .localWorkFailed r | .flushIssued r | .degraded r _ _ | .completed r _ => r

/-! ### The device -/

/-- A device: its requests by number, the ordered workqueue and the request its worker is busy with,
the bios handed to the Backing Store, newest first, and which of its sectors are marked invalid. -/
structure Device where
  mode : Io.EngineMode
  jobs : List Job := []
  queue : List Work := []
  worker : Option ℕ := none
  bios : List Bio := []
  degraded : Bool := false
  invalid : ℕ → Bool := fun _ => false
  nextGeneration : ℕ := 0
  log : List Event := []

namespace Device

variable (d : Device)

def note (e : Event) : Device := { d with log := e :: d.log }

def addJob (q : Request) (stage : Stage) : Device := { d with jobs := d.jobs ++ [⟨q, stage⟩] }

def setStage (r : ℕ) (stage : Stage) : Device :=
  { d with jobs := d.jobs.modify r fun j => { j with stage := stage } }

/-- `is_complete_request`. -/
def completeRequest (r : ℕ) (status : Option Errno) : Device := d.note (.completed r status)

/-- `is_degrade_backing`, for request `r`. -/
def degradeBacking (r sector count : ℕ) : Device :=
  { d.note (.degraded r sector count) with
    degraded := true
    invalid := fun x => d.invalid x || (sector ≤ x && x < sector + count) }

/-- `is_backing_range_valid`. -/
def backingRangeValid (sector count : ℕ) : Bool :=
  count ≠ 0 && (List.range count).all fun i => !d.invalid (sector + i)

/-- `submit_bio_noacct` on a bio of request `r`. -/
def submitBio (r : ℕ) (write owned : Bool) (sector count : ℕ) : Device :=
  { d with
    bios := { request := r, write := write, owned := owned, sector := sector, count := count } :: d.bios
    log := .bioSubmitted r sector count owned :: d.log }

/-- Submits clones of bios of request `r`, which share its pages. -/
def submitBios (r : ℕ) (write : Bool) : List (ℕ × ℕ) → Device → Device
  | [], d => d
  | (sector, count) :: rest, d => submitBios r write rest (d.submitBio r write false sector count)

end Device

/-- The result of a loop that clones `cloned` of the bios of a request. -/
def cloneStatus (q : Request) (cloned : ℕ) : Option Errno :=
  if q.bios = [] then some .eio else if cloned < q.bios.length then some .enomem else none

/-! ### The Backing Store path of a transaction -/

/-- `is_remote_local_complete`: the last bio of an attempt hands its status to the engine. -/
def Remote.localComplete (m : Remote) (status : Option Errno) : Remote :=
  let m := { m with localStatus := m.localStatus.or status, pendingBios := m.pendingBios - 1 }
  if m.pendingBios ≠ 0 then m
  else { m with
    io := { m.io with backingOwed := m.io.backingOwed - 1 }.enter (.backingCompleted m.localStatus) }

/-- The counters of a new Backing Store attempt; work that is queued resets those of the clones itself. -/
def Remote.newAttempt (q : Request) (m : Remote) : Remote :=
  let m := { m with backingSubmissions := m.backingSubmissions + 1 }
  if q.op = .write ∧ m.prepared then { m with localStatus := none, pendingBios := 1 } else m

namespace Device

variable (d : Device)

/-- The end of the work that submits an attempt: its own status joins those of the bios. -/
def localWorkDone (r : ℕ) (m : Remote) (status : Option Errno) : Device :=
  let d := if status.isSome then d.note (.localWorkFailed r) else d
  d.setStage r (.remote (m.localComplete status))

/-- `is_submit_remote_local_work`, with `cloned` bios allocated. -/
def submitRemoteLocalWork (r : ℕ) (q : Request) (m : Remote) (cloned : ℕ) : Device :=
  if q.op = .write ∧ m.prepared then
    if cloned = 0 then d.localWorkDone r m (some .enomem)
    else d.submitBio r true true q.sector q.count
  else
    let m := { m with localStatus := none, pendingBios := 1 }
    if q.op ≠ .write ∧ !d.backingRangeValid q.sector q.count then
      d.localWorkDone r m (some .eio)
    else
      let clones := (spans q.sector q.bios).take cloned
      let m := { m with pendingBios := 1 + clones.length }
      (submitBios r (q.op = .write) clones d).localWorkDone r m (cloneStatus q cloned)

/-- `is_remote_io_transaction_adapter_submit_backing`. -/
def submitBacking (r : ℕ) (q : Request) (m : Remote) : Option Errno × Remote × Device :=
  let m := m.newAttempt q
  if q.op ≠ .write ∨ !m.prepared ∨ m.backingSubmissions > 1 then
    if .localWork r ∈ d.queue then (some .eio, m, d)
      else (none, m, { d with queue := d.queue ++ [.localWork r] })
  else (none, m, d.submitBio r true true q.sector q.count)

/-- What an adapter call of the engine does, and what it answers: `answer` is used where this is open. -/
def adapter (r : ℕ) (q : Request) (m : Remote) (answer : Io.Answer) :
    Io.Instr → Io.Answer × Remote × Device
  | .prepare => (answer, { m with prepared := answer.status.isNone }, d.note (.prepared r))
  | .submitBacking =>
    let (status, m, d) := d.submitBacking r q m
    ({ answer with status := status }, m, d)
  | .backingDegraded => (answer, m, d.degradeBacking r q.sector q.count)
  | .complete status => (answer, m, d.completeRequest r status)
  | .reject status => (answer, m, d.completeRequest r (some status))
  | .release => (answer, m, d.note (.freed r))
  | _ => (answer, m, d)

/-! ### The direct path -/

/-- `is_end_request`. -/
def endRequest (r : ℕ) (q : Request) (c : Ctx) (status : Option Errno) : Device :=
  let c := { c with status := c.status.or status, pendingBios := c.pendingBios - 1 }
  let d := d.setStage r (.direct c)
  if c.pendingBios ≠ 0 then d
  else
    let d := if c.backingIoFailed then d.degradeBacking r q.sector q.count else d
    d.completeRequest r c.status

/-- `is_submit_to_backing_store`, with `cloned` bios allocated. -/
def submitToBackingStore (r : ℕ) (q : Request) (cloned : ℕ) : Device :=
  let clones := (spans q.sector q.bios).take cloned
  (submitBios r (q.op = .write) clones d).endRequest r q { pendingBios := 1 + clones.length }
    (cloneStatus q cloned)

/-! ### Steps -/

/-- `is_accept_request`. -/
def accepts (q : Request) (accepting : Bool) : Bool :=
  accepting && !(d.mode ≠ .remoteOnly && (q.op = .write || q.op = .flush) && d.degraded)

/-- `is_queue_rq`. -/
def queueRq (q : Request) (accepting : Bool) : Device :=
  let r := d.jobs.length
  let d := d.note (.queued r q)
  if q.op = .other then (d.addJob q .ended).completeRequest r (some .eopnotsupp)
  else if !d.accepts q accepting then (d.addJob q .ended).completeRequest r (some .eio)
  else { d.addJob q .queued with queue := d.queue ++ [.dispatch r] }

/-- The transaction `is_dispatch_remote` starts. It is counted by itself: what the engine counts of
the others makes no difference to it. -/
def transaction (r : ℕ) (q : Request) : Io.State where
  engine := { mode := d.mode }
  spec := {
    direction := if q.op = .write then .write else .read
    bytes := 512 * q.count
    generation := (d.nextGeneration + 1) % 2 ^ 64
    payload := r + 1 }
  threads := [[.start]]
  others := 0

/-- `is_dispatch_backing_work`, with a Provider connected or not. -/
def dispatch (r : ℕ) (q : Request) (connected : Bool) (cloned : ℕ) : Device :=
  if q.op = .flush then
    let d := { d.setStage r .flushing with worker := some r }
    if d.mode = .remoteOnly then d else d.note (.flushIssued r)
  else if connected then
    { d.setStage r (.remote { io := d.transaction r q }) with
      worker := some r
      nextGeneration := d.nextGeneration + 1 }
  else if d.mode = .remoteOnly then (d.setStage r .ended).completeRequest r (some .eio)
  else if q.op = .read ∧ !d.backingRangeValid q.sector q.count then
    (d.setStage r .ended).completeRequest r (some .eio)
  else d.submitToBackingStore r q cloned

/-- The end of `is_issue_flush`. -/
def flushed (r : ℕ) (status : Option Errno) : Device :=
  let d := if d.mode ≠ .remoteOnly ∧ status.isSome then d.degradeBacking r 0 0 else d
  { (d.setStage r .ended).completeRequest r status with worker := none }

end Device

/-- A step of the device. -/
inductive Label
  /-- A request is queued, while the device accepts requests or not. -/
  | queue (request : Request) (accepting : Bool)
  /-- The worker takes up its next item; `cloned` bios can be allocated. -/
  | work (connected : Bool) (cloned : ℕ)
  /-- The flush that the worker issued returns. -/
  | flushed (status : Option Errno)
  /-- The start of a transaction returns to the worker. -/
  | started
  /-- A thread of the transaction of `r` performs an instruction. -/
  | io (r thread : ℕ) (answer : Io.Answer)
  | rdma (r : ℕ) (status : Option Errno) (cancelled : Bool)
  | transport (r : ℕ)
  /-- The `i`-th newest bio comes to an end. -/
  | bio (i : ℕ) (status : Option Errno)

namespace Device

variable (d : Device)

/-- `is_remote_rdma_complete`, up to the call of the engine: a read that succeeded is copied to the
request. -/
def remoteRdmaComplete (r : ℕ) (q : Request) (status : Option Errno) (cancelled : Bool) : Device :=
  if status.isNone ∧ !cancelled ∧ q.op ≠ .write then d.note (.copied r) else d

/-- `is_remote_backing_end_io` and `is_backing_end_io`. -/
def bioEnded (b : Bio) (status : Option Errno) : Option Device :=
  let d := d.note (.bioEnded b.request b.sector b.count status)
  match d.jobs[b.request]? with
  | some ⟨_, .remote m⟩ => some (d.setStage b.request (.remote (m.localComplete status)))
  | some ⟨q, .direct c⟩ =>
    some (d.endRequest b.request q
      { c with backingIoFailed := c.backingIoFailed || status.isSome } status)
  | _ => none

def step : Label → Option Device
  | .queue q accepting => some (d.queueRq q accepting)
  | .work connected cloned =>
    match d.worker, d.queue with
    | none, .dispatch r :: queue =>
      match d.jobs[r]? with
      | some ⟨q, .queued⟩ => some ({ d with queue := queue }.dispatch r q connected cloned)
      | _ => none
    | none, .localWork r :: queue =>
      match d.jobs[r]? with
      | some ⟨q, .remote m⟩ => some ({ d with queue := queue }.submitRemoteLocalWork r q m cloned)
      | _ => none
    | _, _ => none
  | .flushed status =>
    match d.worker with
    | some r =>
      match d.jobs[r]? with
      | some ⟨_, .flushing⟩ => some (d.flushed r status)
      | _ => none
    | none => none
  | .started =>
    match d.worker with
    | some r =>
      match d.jobs[r]? with
      | some ⟨_, .remote m⟩ => if m.io.threads[0]? = some [] then some { d with worker := none } else none
      | _ => none
    | none => none
  | .io r i answer =>
    match d.jobs[r]? with
    | some ⟨q, .remote m⟩ =>
      match m.io.threads[i]? with
      | some (x :: _) =>
        let (answer, m', d') := d.adapter r q m answer x
        (m.io.step (.run i answer)).map fun io => d'.setStage r (.remote { m' with io := io })
      | _ => none
    | _ => none
  | .rdma r status cancelled =>
    match d.jobs[r]? with
    | some ⟨q, .remote m⟩ =>
      (m.io.step (.rdma status cancelled)).map fun io =>
        (d.remoteRdmaComplete r q status cancelled).setStage r (.remote { m with io := io })
    | _ => none
  | .transport r =>
    match d.jobs[r]? with
    | some ⟨_, .remote m⟩ =>
      (m.io.step .transport).map fun io => d.setStage r (.remote { m with io := io })
    | _ => none
  | .bio i status =>
    match d.bios[i]? with
    | some b =>
      if b.result.isSome then none
      else { d with bios := d.bios.set i { b with result := some status } }.bioEnded b status
    | none => none

/-- A device that has not seen a request. -/
def Initial : Prop := d = { mode := d.mode }

end Device

/-- Every run of a device. -/
def deviceSystem : System Device Label where
  init := Device.Initial
  step := Device.step

end Block
end Infiniswap
