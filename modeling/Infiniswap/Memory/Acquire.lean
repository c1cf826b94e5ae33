/-
# Admission

`is_memory_manager_acquire`: a request selects slots (idle chunks of its pool,
then, for the Committed Pool, idle opportunistic chunks to convert, then empty
slots), checks the limits, allocates what is new, registers everything, and only
then changes the table. A failure on the way is rolled back; a registration that
the rollback cannot remove puts its chunk in quarantine.

The selection loops take the first slots that qualify, in the order of the table,
until there are enough.
-/
import Infiniswap.Memory.Manager

namespace Infiniswap
namespace Memory

/-- `struct pending_chunk`. -/
structure Pending where
  index : ℕ
  address : Option ℕ := none
  registration : Option ℕ := none
  newlyAllocated : Bool := false
  convertedFromOpportunistic : Bool := false
  deriving DecidableEq

/-- `struct is_memory_grant`. -/
structure Grant where
  providerChunkId : ℕ
  address : Option ℕ
  registration : Option ℕ
  pool : Pool
  deriving DecidableEq

/-- A chunk that is allocated, not in use, and belongs to the pool. -/
def Chunk.reusable (c : Chunk) (p : Pool) : Bool :=
  c.address.isSome && c.owner.isNone && c.registration.isNone && !c.quarantined && c.pool = some p

namespace World

variable (w : World)

/-! ### Checks -/

/-- `validate_acquire_locked`; a pool that is neither of the two is `none`. -/
def validateAcquire (c : Connection) (pool : Option Pool) (count : ℕ) : Except Failure Pool :=
  match pool with
  | none => .error ⟨.invalidArgument, .invalidRequest⟩
  | some p =>
    if w.assignmentsForConsumer c.consumerId p > c.maxChunks p ∨
        count > c.maxChunks p - w.assignmentsForConsumer c.consumerId p then
      .error ⟨.quotaExceeded, .consumerQuota⟩
    else .ok p

/-- The slots that a loop of the selection takes: the first `n` that satisfy `p`. -/
def firstSlots (p : ℕ → Bool) (n : ℕ) : List ℕ := ((List.range w.chunkCapacity).filter p).take n

/-- The selection of `is_memory_manager_acquire`. -/
def select (pool : Pool) (count : ℕ) : List Pending :=
  let same := (w.firstSlots (fun i => (w.chunks i).reusable pool) count).map fun i =>
    { index := i, address := (w.chunks i).address : Pending }
  let converted :=
    if pool = .committed then
      (w.firstSlots (fun i => (w.chunks i).reusable .opportunistic) (count - same.length)).map fun i =>
        { index := i, address := (w.chunks i).address, convertedFromOpportunistic := true : Pending }
    else []
  let reused := same ++ converted
  reused ++ (w.firstSlots (fun i => (w.chunks i).address.isNone && !(reused.any fun p => p.index = i))
    (count - reused.length)).map fun i => { index := i, newlyAllocated := true }

/-- The checks on what was selected: enough slots, the maximum of the pool, and the Host Reserve. -/
def checkPending (pool : Pool) (count : ℕ) (a : Adapters) (pending : List Pending) : Option Failure :=
  let samePool := pending.countP fun p => !p.newlyAllocated && !p.convertedFromOpportunistic
  let newlyAllocated := pending.countP (·.newlyAllocated)
  if pending.length ≠ count then some ⟨.poolExhausted, .poolLimit⟩
  else if w.allocated pool > w.config.maxGib pool ∨
      count - samePool > w.config.maxGib pool - w.allocated pool then
    some ⟨.poolExhausted, .poolLimit⟩
  else if newlyAllocated = 0 then none
  else
    match a.available with
    | none => some ⟨.accountingFailed, .accountingFailed⟩
    | some bytes =>
      if bytes / chunkBytes < w.config.hostReserveGib + newlyAllocated then
        some ⟨.hostReserve, .hostReserve⟩
      else none

/-! ### Allocation and registration -/

/-- The loop that allocates and touches what is new. -/
def allocatePending (w : World) (a : Adapters) : List Pending → World × List Pending × Option Failure
  | [] => (w, [], none)
  | p :: ps =>
    if !p.newlyAllocated then
      let (w, ps, failure) := allocatePending w a ps
      (w, p :: ps, failure)
    else if !a.allocate p.index then (w, p :: ps, some ⟨.allocationFailed, .allocationFailed⟩)
    else
      let p := { p with address := some w.addresses }
      let w := { w.record [.allocated w.addresses] with addresses := w.addresses + 1 }
      if !a.touch p.index then (w, p :: ps, some ⟨.touchFailed, .touchFailed⟩)
      else
        let (w, ps, failure) := allocatePending (w.record (p.address.toList.map .cleared)) a ps
        (w, p :: ps, failure)

/-- The loop that registers every chunk. -/
def registerPending (w : World) (a : Adapters) : List Pending → World × List Pending × Option Failure
  | [] => (w, [], none)
  | p :: ps =>
    if !a.register p.index then (w, p :: ps, some ⟨.registrationFailed, .registrationFailed⟩)
    else
      let p := { p with registration := some w.registrations }
      let w := { w.record (p.address.toList.map (.registered w.registrations ·)) with
        registrations := w.registrations + 1 }
      let (w, ps, failure) := registerPending w a ps
      (w, p :: ps, failure)

/-! ### Rollback -/

/-- The chunk whose registration the rollback could not remove. -/
def quarantine (pool : Pool) (adapter : ℕ) (p : Pending) : World :=
  let chunk := w.chunks p.index
  let chunk := if p.newlyAllocated then { chunk with address := p.address, pool := some pool } else chunk
  let w := if p.newlyAllocated then { w with allocated := increase w.allocated pool 1 } else w
  let w := w.setChunk p.index { chunk with
    registration := p.registration, registrationAdapter := some adapter, quarantined := true }
  { w with quarantined := w.quarantined + 1 }

/-- The first loop of `rollback_pending`. -/
def deregisterPending (w : World) (pool : Pool) (adapter : ℕ) (a : Adapters) :
    List Pending → World × List Pending × Bool
  | [] => (w, [], false)
  | p :: ps =>
    match p.registration with
    | none =>
      let (w, ps, failed) := deregisterPending w pool adapter a ps
      (w, p :: ps, failed)
    | some r =>
      if !a.deregister p.index then
        let w := (w.record [.deregistered r false]).quarantine pool adapter p
        let (w, ps, _) := deregisterPending w pool adapter a ps
        (w, p :: ps, true)
      else
        let (w, ps, failed) := deregisterPending (w.record [.deregistered r true]) pool adapter a ps
        (w, { p with registration := none } :: ps, failed)

/-- The second loop of `rollback_pending`. -/
def freePending (w : World) : List Pending → World
  | [] => w
  | p :: ps =>
    if !p.newlyAllocated ∨ p.registration.isSome then freePending w ps
    else freePending (w.record (p.address.toList.map .freed)) ps

/-- `rollback_pending` after a failure, and what the call returns. -/
def rollbackPending (pool : Pool) (adapter : ℕ) (a : Adapters) (pending : List Pending)
    (failure : Failure) : World × Except Failure (List Grant) :=
  let w := w.reject failure.rejection
  let (w, pending, cleanupFailed) := w.deregisterPending pool adapter a pending
  let w := w.freePending pending
  if cleanupFailed then (w.reject .cleanupFailed, .error ⟨.cleanupFailed, .cleanupFailed⟩)
    else (w, .error failure)

/-! ### Commit -/

/-- The loop that assigns every chunk to the connection. -/
def commitPending (w : World) (c : Connection) (pool : Pool) (adapter : ℕ) :
    List Pending → World × List Grant
  | [] => (w, [])
  | p :: ps =>
    let chunk := w.chunks p.index
    let address := if p.newlyAllocated then p.address else chunk.address
    let w :=
      if p.convertedFromOpportunistic then
        { w with allocated := increase (decrease w.allocated .opportunistic 1) .committed 1 }
      else if p.newlyAllocated then { w with allocated := increase w.allocated pool 1 }
      else w
    let w := w.setChunk p.index
      { chunk with
        address := address, pool := some pool, owner := some c.owner, registration := p.registration
        registrationAdapter := some adapter }
    let w := w.record (address.toList.map (.assigned c.consumerId ·))
    let (w, grants) := commitPending w c pool adapter ps
    (w, ⟨p.index, address, p.registration, pool⟩ :: grants)

/-- The end of a call that succeeds. -/
def grant (c : Connection) (pool : Pool) (adapter : ℕ) (pending : List Pending) :
    World × Except Failure (List Grant) :=
  let (w, grants) := w.commitPending c pool adapter pending
  let w := { w with
    assigned := increase w.assigned pool pending.length, admissions := w.admissions + pending.length }
  (w.modifyConnection c.owner fun c =>
    { c with assigned := increase c.assigned pool pending.length }, .ok grants)

/-- Allocation, registration and commit of what was selected. -/
def populate (c : Connection) (pool : Pool) (adapter : ℕ) (a : Adapters) (pending : List Pending) :
    World × Except Failure (List Grant) :=
  match w.allocatePending a pending with
  | (w, pending, some failure) => w.rollbackPending pool adapter a pending failure
  | (w, pending, none) =>
    match w.registerPending a pending with
    | (w, pending, some failure) => w.rollbackPending pool adapter a pending failure
    | (w, pending, none) => w.grant c pool adapter pending

/-- `is_memory_manager_acquire`; a missing array of grants is `none`, and so is an adapter without
its functions. -/
def acquire (owner : Option Owner) (pool : Option Pool) (count : ℕ)
    (adapter grantCapacity : Option ℕ) (a : Adapters) : World × Except Failure (List Grant) :=
  match owner, adapter, grantCapacity with
  | some owner, some adapter, some grantCapacity =>
    if count = 0 ∨ grantCapacity < count then (w, .error ⟨.invalidArgument, .none⟩)
    else if !a.heap then (w, .error ⟨.allocationFailed, .none⟩)
    else
      match w.findConnection owner with
      | none => (w, .error ⟨.notConnected, .none⟩)
      | some c =>
        match w.validateAcquire c pool count with
        | .error failure => (w.reject failure.rejection, .error failure)
        | .ok pool =>
          let pending := w.select pool count
          match w.checkPending pool count a pending with
          | some failure => (w.reject failure.rejection, .error failure)
          | none => w.populate c pool adapter a pending
  | _, _, _ => (w, .error ⟨.invalidArgument, .none⟩)

end World

end Memory
end Infiniswap
