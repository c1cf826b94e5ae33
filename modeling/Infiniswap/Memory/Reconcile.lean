/-
# Host pressure and status

`is_memory_manager_reconcile` brings the Opportunistic Pool to what the memory of
the host allows above the Host Reserve, and `is_memory_manager_get_status` says
what each pool can still admit. Both take differences of counters; a result of
`none` is a difference that wraps around.
-/
import Infiniswap.Lib.Runs
import Infiniswap.Memory.Acquire

namespace Infiniswap
namespace Memory

open Transition

/-- A difference of unsigned numbers that does not wrap around. -/
def subtract (m n : ℕ) : Option ℕ := if n ≤ m then some (m - n) else none

/-- `struct is_memory_reconcile_result`. -/
structure ReconcileResult where
  grownOpportunisticChunks : ℕ := 0
  reclaimedUnassignedChunks : ℕ := 0
  assignedReclaimNeeded : ℕ := 0
  deriving DecidableEq

namespace World

variable (w : World)

/-! ### Growth -/

/-- The loop that puts what was allocated in the table. -/
def placeUnassigned (w : World) : List Pending → World
  | [] => w
  | p :: ps =>
    placeUnassigned
      (w.setChunk p.index { w.chunks p.index with address := p.address, pool := some .opportunistic }) ps

/-- The loop that frees what was allocated before a failure. -/
def freeUnassigned (w : World) : List Pending → World
  | [] => w
  | p :: ps => freeUnassigned (w.record (p.address.toList.map .freed)) ps

/-- `allocate_unassigned_opportunistic_locked`. -/
def allocateUnassigned (count : ℕ) (a : Adapters) : World × MemoryResult :=
  if count = 0 then (w, .ok)
  else if !a.heap then (w.reject .allocationFailed, .allocationFailed)
  else
    let pending := (w.firstSlots (fun i => (w.chunks i).address.isNone) count).map fun i =>
      { index := i, newlyAllocated := true : Pending }
    if pending.length ≠ count then (w.reject .poolLimit, .poolExhausted)
    else
      match w.allocatePending a pending with
      | (w, pending, some failure) =>
        ((w.reject failure.rejection).freeUnassigned pending, failure.result)
      | (w, pending, none) =>
        let w := w.placeUnassigned pending
        ({ w with allocated := increase w.allocated .opportunistic count }, .ok)

/-! ### Reclaim -/

/-- The loop that frees idle opportunistic chunks, at most `reclaim` of them; the number it has
freed is added to `done`. -/
def reclaimUnassigned (w : World) : List ℕ → (reclaim done : ℕ) → Option (World × ℕ)
  | [], _, done => some (w, done)
  | i :: slots, reclaim, done =>
    if reclaim = 0 then some (w, done)
    else
      let chunk := w.chunks i
      if chunk.address.isNone ∨ chunk.owner.isSome ∨ chunk.quarantined ∨
          chunk.pool ≠ some .opportunistic then
        reclaimUnassigned w slots reclaim done
      else do
        let left ← subtract (w.allocated .opportunistic) 1
        let w := w.record (chunk.address.toList.map .freed)
        let w := w.setChunk i {}
        let w := { w with
          allocated := fun p => if p = .opportunistic then left else w.allocated p
          pressureReclaims := w.pressureReclaims + 1 }
        reclaimUnassigned w slots (reclaim - 1) (done + 1)

/-- The target of a reconciliation: the chunks above the Host Reserve, the allocated ones counted as
available, and at most the maximum of the pool. -/
def target (bytes : ℕ) : Option ℕ := do
  let effective := bytes / chunkBytes + w.allocated .opportunistic
  if effective ≤ w.config.hostReserveGib then return 0
  let above ← subtract effective w.config.hostReserveGib
  return if w.config.maxGib .opportunistic ≤ above then w.config.maxGib .opportunistic else above

/-- `is_memory_manager_reconcile`. -/
def reconcile (a : Adapters) : Option (World × MemoryResult × ReconcileResult) :=
  match a.available with
  | none => some (w.reject .accountingFailed, .accountingFailed, {})
  | some bytes => do
    let target ← w.target bytes
    if target > w.allocated .opportunistic then
      let growth ← subtract target (w.allocated .opportunistic)
      match w.allocateUnassigned growth a with
      | (w, .ok) => return (w, .ok, { grownOpportunisticChunks := growth })
      | (w, result) => return (w, result, {})
    else
      let desired := if target < w.assigned .opportunistic then w.assigned .opportunistic else target
      let reclaim ← subtract (w.allocated .opportunistic) desired
      let (w, reclaimed) ← w.reclaimUnassigned (List.range w.chunkCapacity) reclaim 0
      let needed ←
        if w.assigned .opportunistic > target then subtract (w.assigned .opportunistic) target
        else some 0
      return (w, .ok, { reclaimedUnassignedChunks := reclaimed, assignedReclaimNeeded := needed })

end World

/-! ### Status -/

/-- `struct is_memory_manager_status`. -/
structure Status where
  hostReserveChunks : ℕ
  maxChunks : Pool → ℕ
  allocated : Pool → ℕ
  assigned : Pool → ℕ
  quarantined : ℕ
  available : Pool → ℕ
  activeConnections : ℕ
  consumerConnections : ℕ := 0
  consumerAssigned : Pool → ℕ := fun _ => 0
  admissions : ℕ
  rejections : ℕ
  pressureReclaims : ℕ
  lastRejection : Rejection
  healthy : Bool

namespace World

variable (w : World)

/-- The chunks that each pool could admit, before the quota of a Consumer; `uint32_t` holds them. -/
def poolAvailable (bytes : ℕ) : Option (Pool → ℕ) := do
  let chunks := bytes / chunkBytes
  let safeNew ← (if chunks > w.config.hostReserveGib then subtract chunks w.config.hostReserveGib
    else some 0 : Option ℕ)
  let quarantined := (List.range w.chunkCapacity).countP fun i =>
    (w.chunks i).quarantined && (w.chunks i).pool = some .opportunistic
  let unassigned ←
    subtract (← subtract (w.allocated .opportunistic) (w.assigned .opportunistic)) quarantined
  let opportunisticRoom ← subtract (w.config.maxGib .opportunistic) (w.allocated .opportunistic)
  let committedRoom ← subtract (w.config.maxGib .committed) (w.allocated .committed)
  let opportunistic := unassigned + if safeNew < opportunisticRoom then safeNew else opportunisticRoom
  let committed := if unassigned + safeNew > committedRoom then committedRoom else unassigned + safeNew
  return fun
    | .opportunistic => opportunistic % 2 ^ 32
    | .committed => committed % 2 ^ 32

/-- What is left of a Consumer's quota in a pool bounds what the pool could admit. -/
def withinQuota (c : Connection) (available : Pool → ℕ) (p : Pool) : Option ℕ := do
  let remaining ← subtract (c.maxChunks p) (w.assignmentsForConsumer c.consumerId p)
  return if available p > remaining then remaining else available p

/-- The status without a connection. -/
def managerStatus (available : Pool → ℕ) : Status where
  hostReserveChunks := w.config.hostReserveGib
  maxChunks := w.config.maxGib
  allocated := w.allocated
  assigned := w.assigned
  quarantined := w.quarantined
  available := available
  activeConnections := w.connections.length
  admissions := w.admissions
  rejections := w.rejections
  pressureReclaims := w.pressureReclaims
  lastRejection := w.lastRejection
  healthy := w.healthy

/-- The status as a connection of the Consumer sees it. -/
def consumerStatus (c : Connection) (available : Pool → ℕ) : Option Status := do
  let opportunistic ← w.withinQuota c available .opportunistic
  let committed ← w.withinQuota c available .committed
  return { w.managerStatus fun
             | .opportunistic => opportunistic
             | .committed => committed with
           consumerConnections := w.connectionCountForConsumer c.consumerId
           consumerAssigned := w.assignmentsForConsumer c.consumerId }

/-- `is_memory_manager_get_status`. -/
def getStatus (owner : Option Owner) (a : Adapters) : Option (Except MemoryResult Status) :=
  match owner with
  | none =>
    match a.available with
    | none => some (.error .accountingFailed)
    | some bytes => do return .ok (w.managerStatus (← w.poolAvailable bytes))
  | some owner =>
    match w.findConnection owner with
    | none => some (.error .notConnected)
    | some c =>
      match a.available with
      | none => some (.error .accountingFailed)
      | some bytes => do return .ok (← w.consumerStatus c (← w.poolAvailable bytes))

end World

/-! ### Runs -/

/-- A call of the manager, with what the adapters answer during it. -/
inductive Label
  | connect (consumerId : List UInt8) (owner : Option Owner) (maxConnections : ℕ)
      (maxChunks : Pool → ℕ) (heap : Bool)
  | disconnect (owner : Option Owner) (a : Adapters)
  | acquire (owner : Option Owner) (pool : Option Pool) (count : ℕ)
      (adapter grantCapacity : Option ℕ) (a : Adapters)
  | release (owner : Option Owner) (ids : Option (List ℕ)) (cause : Option ReleaseCause) (a : Adapters)
  | reconcile (a : Adapters)
  | getStatus (owner : Option Owner) (a : Adapters)

/-- A call; a difference that wraps around has no step. -/
def World.call (w : World) : Label → Option World
  | .connect consumerId owner maxConnections maxChunks heap =>
    some (w.connect consumerId owner maxConnections maxChunks heap).1
  | .disconnect owner a => some (w.disconnect owner a).1
  | .acquire owner pool count adapter grantCapacity a =>
    some (w.acquire owner pool count adapter grantCapacity a).1
  | .release owner ids cause a => some (w.release owner ids cause a).1
  | .reconcile a => (w.reconcile a).map (·.1)
  | .getStatus owner a => (w.getStatus owner a).map fun _ => w

/-- The memory manager of a Provider, from its creation to its destruction. -/
def system : System World Label where
  init w := ∃ c, create c = some w
  step w l := w.call l

end Memory
end Infiniswap
