/-
# The RDMA operation owner

`is_rdma_operation_owner` arbitrates between the thread that posts an RDMA
operation, its completion and the Provider deadline. Each of the three events
is a handler made of locked sections on the owner and of calls to the
transport's adapter between them. Here a locked section is a function on
`Owner` that also gives the place where its handler continues; `Machine` puts
the three handlers, the deadline timer and the queue pair side by side, and one
`Machine.step` is one locked section or one adapter call, so that runs are
arbitrary interleavings of the handlers.

The owner outlives its operation only through the claims: the last handler to
finish with no claim left destroys it.
-/
import Infiniswap.RemoteChunk.Types

namespace Infiniswap
namespace Rdma

/-! ### The owner and its locked sections -/

inductive PostState
  | pending | succeeded | failed
  deriving DecidableEq

inductive DeadlineState
  | unarmed | arming | armed | cancelling | cancelled | fired
  deriving DecidableEq

inductive Terminal
  | none | completion | deadline
  deriving DecidableEq

inductive OwnerEvent
  | postSucceeded | postFailed | providerDeadline | rdmaCompleted
  deriving DecidableEq

/-- `struct is_rdma_operation_owner` as `is_rdma_operation_owner_init` leaves it. -/
structure Owner where
  activeEvents : ℕ := 0
  submitClaim : Bool := true
  completionClaim : Bool := true
  deadlineClaim : Bool := true
  postState : PostState := .pending
  deadlineState : DeadlineState := .unarmed
  completionSeen : Bool := false
  deadlineSeen : Bool := false
  invariantReported : Bool := false
  destroying : Bool := false
  terminal : Terminal := .none
  deriving DecidableEq

/-- Where the posting thread is. `finish` carries the claims `is_owner_finish_event` gives up. -/
inductive SubmitPc
  | post | enterSucceeded | enterFailed | arm | armed | cancel | cancelled | abort
  | report (event : OwnerEvent) (submit completion deadline : Bool)
  | finish (submit completion deadline : Bool)
  | destroy | done
  deriving DecidableEq

/-- Where the completion handler is, with the local variables it still needs. -/
inductive CompletionPc
  | idle | report
  | cancel (status : Option Errno) (publish late : Bool)
  | cancelled (status : Option Errno) (publish late : Bool)
  | retire (status : Option Errno) (publish late deadlineCancelled : Bool)
  | publish (status : Option Errno) (deadlineCancelled : Bool)
  | release (deadlineCancelled : Bool)
  | finish (complete deadlineCancelled : Bool)
  | destroy | done
  deriving DecidableEq

/-- Where the deadline handler is. -/
inductive DeadlinePc
  | idle | enter | report | publish
  | finish (deadline : Bool)
  | destroy | done
  deriving DecidableEq

namespace Owner

variable (o : Owner)

/-- `is_owner_begin_event`, without the lock. -/
def beginEvent : Owner := { o with activeEvents := o.activeEvents + 1 }

/-- `is_owner_note_invariant`. -/
def noteInvariant : Bool × Owner :=
  if o.invariantReported then (false, o) else (true, { o with invariantReported := true })

/-- `is_owner_finish_event`; the result is whether to destroy. -/
def finishEvent (submit completion deadline : Bool) : Bool × Owner :=
  let o := { o with
    submitClaim := o.submitClaim && !submit
    completionClaim := o.completionClaim && !completion
    deadlineClaim := o.deadlineClaim && !deadline
    activeEvents := o.activeEvents - 1 }
  if o.activeEvents = 0 ∧ !o.submitClaim ∧ !o.completionClaim ∧ !o.deadlineClaim ∧ !o.destroying then
    (true, { o with destroying := true })
  else (false, o)

/-- The first section of `is_rdma_operation_owner_post_succeeded`. -/
def postSucceeded : SubmitPc × Owner :=
  let o := o.beginEvent
  if o.postState ≠ .pending then
    (if o.noteInvariant.1 then .report .postSucceeded false false false else .finish false false false,
      o.noteInvariant.2)
  else if o.completionSeen then
    (.finish true false true, { o with postState := .succeeded, deadlineState := .cancelled })
  else (.arm, { o with postState := .succeeded, deadlineState := .arming })

/-- Its second section, after the deadline was armed. -/
def deadlineArmed : SubmitPc × Owner :=
  if o.deadlineSeen then (.finish true false false, { o with deadlineState := .fired })
  else if o.completionSeen then (.cancel, { o with deadlineState := .cancelling })
  else (.finish true false false, { o with deadlineState := .armed })

/-- Its third section, after the deadline was cancelled. -/
def deadlineCancelled : SubmitPc × Owner :=
  if o.deadlineSeen then (.finish true false false, o)
  else (.finish true false true, { o with deadlineState := .cancelled })

/-- The section of `is_rdma_operation_owner_post_failed`. -/
def postFailed : SubmitPc × Owner :=
  let o := o.beginEvent
  if o.postState ≠ .pending then
    (if o.noteInvariant.1 then .report .postFailed false false false else .finish false false false,
      o.noteInvariant.2)
  else
    let o := { o with postState := .failed, deadlineState := .cancelled }
    if o.completionSeen then
      (if o.noteInvariant.1 then .report .postFailed true true true else .finish true true true,
        o.noteInvariant.2)
    else (.abort, o)

/-- The section of `is_rdma_operation_owner_provider_deadline`. -/
def providerDeadline : DeadlinePc × Owner :=
  let o := o.beginEvent
  if o.deadlineSeen ∨ o.postState ≠ .succeeded ∨ o.deadlineState = .cancelled then
    (if o.noteInvariant.1 then .report else .finish false, o.noteInvariant.2)
  else
    let o := { o with deadlineSeen := true, deadlineState := .fired }
    if !o.completionSeen ∧ o.terminal = .none then (.publish, { o with terminal := .deadline })
    else (.finish true, o)

/-- The first section of `is_rdma_operation_owner_rdma_completed`. -/
def rdmaCompleted (status : Option Errno) : CompletionPc × Owner :=
  let o := o.beginEvent
  if o.completionSeen ∨ o.postState = .failed then
    (if o.noteInvariant.1 then .report else .finish false false, o.noteInvariant.2)
  else
    let publish := decide (o.terminal = .none)
    let late := decide (o.terminal = .deadline)
    (if o.deadlineState = .armed then .cancel status publish late else .retire status publish late false,
      { o with completionSeen := true, terminal := if publish then .completion else o.terminal })

end Owner

/-! ### The handlers side by side -/

/-- The delayed work of the deadline. -/
inductive Timer
  | idle | pending | cancelled | fired
  deriving DecidableEq

/-- A call the owner makes to the transport outside its lock. -/
inductive AdapterCall
  | armDeadline
  | cancelDeadline (result : Bool)
  | retirePosted (status : Option Errno) (lateCompletion : Bool)
  | abortUnposted
  | publishTerminal (terminal : Terminal) (status : Option Errno)
  | releaseTransferredIo
  | destroy
  | invariant (event : OwnerEvent)
  deriving DecidableEq

/-- One operation: its owner, the places of the three handlers, the deadline
timer and whether the queue pair took the work request. -/
structure Machine where
  owner : Owner := {}
  submit : SubmitPc := .post
  completion : CompletionPc := .idle
  deadline : DeadlinePc := .idle
  timer : Timer := .idle
  posted : Bool := false
  destroyed : Bool := false
  deriving DecidableEq

/-- What may happen next to an operation. -/
inductive OpEvent
  /-- `ib_post_send` returns. -/
  | post (accepted : Bool)
  /-- The posting thread takes its next step. -/
  | submit
  /-- The queue pair completes the work request: the completion handler enters its first section. -/
  | complete (status : Option Errno)
  /-- The completion handler takes its next step. -/
  | completion
  /-- The deadline timer expires. -/
  | expire
  /-- The deadline handler takes its next step. -/
  | deadline
  deriving DecidableEq

namespace Machine

variable (s : Machine)

/-- `cancel_delayed_work`: it prevents the handler exactly when the work is still pending. -/
def cancelTimer : Bool × Timer := if s.timer = .pending then (true, .cancelled) else (false, s.timer)

/-- The next step of the posting thread. -/
def submitStep : Option (Option AdapterCall × Machine) :=
  match s.submit with
  | .post | .done => none
  | .enterSucceeded =>
    some (none, { s with submit := s.owner.postSucceeded.1, owner := s.owner.postSucceeded.2 })
  | .enterFailed => some (none, { s with submit := s.owner.postFailed.1, owner := s.owner.postFailed.2 })
  | .arm => some (some .armDeadline, { s with submit := .armed, timer := .pending })
  | .armed => some (none, { s with submit := s.owner.deadlineArmed.1, owner := s.owner.deadlineArmed.2 })
  | .cancel => some (some (.cancelDeadline s.cancelTimer.1),
      { s with
        submit := if s.cancelTimer.1 then .cancelled else .finish true false false,
        timer := s.cancelTimer.2 })
  | .cancelled =>
    some (none, { s with submit := s.owner.deadlineCancelled.1, owner := s.owner.deadlineCancelled.2 })
  | .abort => some (some .abortUnposted, { s with submit := .finish true true true })
  | .report event a b c => some (some (.invariant event), { s with submit := .finish a b c })
  | .finish a b c => some (none,
      { s with
        submit := if (s.owner.finishEvent a b c).1 then .destroy else .done
        owner := (s.owner.finishEvent a b c).2 })
  | .destroy => some (some .destroy, { s with submit := .done, destroyed := true })

/-- The next step of the completion handler. -/
def completionStep : Option (Option AdapterCall × Machine) :=
  match s.completion with
  | .idle | .done => none
  | .report => some (some (.invariant .rdmaCompleted), { s with completion := .finish false false })
  | .cancel status publish late => some (some (.cancelDeadline s.cancelTimer.1),
      { s with
        completion := if s.cancelTimer.1 then .cancelled status publish late
          else .retire status publish late false
        timer := s.cancelTimer.2 })
  | .cancelled status publish late => some (none,
      { s with
        completion := .retire status publish late true
        owner := { s.owner with deadlineState := .cancelled } })
  | .retire status publish late d => some (some (.retirePosted status late),
      { s with completion := if publish then .publish status d else .release d })
  | .publish status d =>
    some (some (.publishTerminal .completion status), { s with completion := .release d })
  | .release d => some (some .releaseTransferredIo, { s with completion := .finish true d })
  | .finish c d => some (none,
      { s with
        completion := if (s.owner.finishEvent false c d).1 then .destroy else .done
        owner := (s.owner.finishEvent false c d).2 })
  | .destroy => some (some .destroy, { s with completion := .done, destroyed := true })

/-- The next step of the deadline handler. -/
def deadlineStep : Option (Option AdapterCall × Machine) :=
  match s.deadline with
  | .idle | .done => none
  | .enter =>
    some
      (none, { s with deadline := s.owner.providerDeadline.1, owner := s.owner.providerDeadline.2 })
  | .report => some (some (.invariant .providerDeadline), { s with deadline := .finish false })
  | .publish =>
    some (some (.publishTerminal .deadline (some .etimedout)), { s with deadline := .finish true })
  | .finish d => some (none,
      { s with
        deadline := if (s.owner.finishEvent false false d).1 then .destroy else .done
        owner := (s.owner.finishEvent false false d).2 })
  | .destroy => some (some .destroy, { s with deadline := .done, destroyed := true })

/-- One locked section, adapter call or external event. -/
def step : OpEvent → Option (Option AdapterCall × Machine)
  | .post accepted =>
    if s.submit = .post then
      some (none,
        { s with posted := accepted, submit := if accepted then .enterSucceeded else .enterFailed })
    else none
  | .submit => s.submitStep
  | .complete status =>
    -- a work request the queue pair took is completed once
    if s.posted ∧ s.completion = .idle then
      some (none, { s with
        completion := (s.owner.rdmaCompleted status).1, owner := (s.owner.rdmaCompleted status).2 })
    else none
  | .completion => s.completionStep
  | .expire =>
    if s.timer = .pending then some (none, { s with timer := .fired, deadline := .enter }) else none
  | .deadline => s.deadlineStep

end Machine
end Rdma
end Infiniswap
