/-
# The Provider's memory manager

`infiniswap_memory_manager.c`: a table of chunks of 1 GiB, of which each is
empty, idle, assigned to a connection, or quarantined because a registration on it
could not be removed. The Provider grants chunks from two pools, under quotas that
all connections of a Consumer share.

Every call holds the manager's lock, so a call is one step. What the adapters
answer during a call is in `Adapters`; within a call each of them is asked at most
once for a slot of the table. An allocation is named by a number of its own, and so
is a registration; the manager compares them with NULL only. `World.log` holds what
the adapters were made to do, and who a chunk was assigned to, latest first. Touching
a chunk clears it, as `posix_touch` does.

The counters that the source keeps once for each pool are functions of the pool
here. They are natural numbers; where a difference is taken of several of them
the subtraction is checked, and `none` says that it wraps around.
-/
import Infiniswap.Lib.Keyed
import Infiniswap.Protocol.Message

namespace Infiniswap
namespace Memory

open Keyed

def chunkBytes : ℕ := 1073741824

def maxRuntimeChunks : ℕ := 128

def memoryConsumerIdMax : ℕ := 63

/-- `enum is_memory_result`. -/
inductive MemoryResult
  | ok | invalidArgument | configInvalid | accountingFailed | allocationFailed | touchFailed
  | registrationFailed | cleanupFailed | connectionLimit | quotaExceeded | poolExhausted
  | hostReserve | notConnected | notFound | committedProtected
  deriving DecidableEq

/-- `enum is_memory_pool`. -/
inductive Pool
  | opportunistic | committed
  deriving DecidableEq

/-- `enum is_memory_release_cause`. -/
inductive ReleaseCause
  | consumer | pressure | disconnect | shutdown
  deriving DecidableEq

/-- `enum is_memory_rejection_reason`. -/
inductive Rejection
  | none | invalidRequest | connectionLimit | consumerQuota | poolLimit | hostReserve | accountingFailed
  | allocationFailed | touchFailed | registrationFailed | cleanupFailed | committedProtected
  deriving DecidableEq

/-- What a call that fails returns, and the reason it reports. -/
structure Failure where
  result : MemoryResult
  rejection : Rejection := .none
  deriving DecidableEq

/-- `struct is_memory_manager_config`. -/
structure Config where
  hostReserveGib : ℕ
  maxGib : Pool → ℕ

/-- The connections are told apart by an address that the caller chooses. -/
abbrev Owner := ℕ

/-- `struct is_memory_chunk`; NULL and the pool 0 are `none`. -/
structure Chunk where
  address : Option ℕ := none
  registration : Option ℕ := none
  owner : Option Owner := none
  registrationAdapter : Option ℕ := none
  pool : Option Pool := none
  quarantined : Bool := false
  deriving DecidableEq

/-- `struct is_memory_connection`. -/
structure Connection where
  consumerId : List UInt8
  owner : Owner
  maxConnections : ℕ
  maxChunks : Pool → ℕ
  assigned : Pool → ℕ := fun _ => 0

/-- `struct is_memory_manager`. -/
structure Manager where
  config : Config
  chunks : ℕ → Chunk := fun _ => {}
  connections : List Connection := []
  chunkCapacity : ℕ
  connectionCapacity : ℕ := 0
  allocated : Pool → ℕ := fun _ => 0
  assigned : Pool → ℕ := fun _ => 0
  quarantined : ℕ := 0
  admissions : ℕ := 0
  rejections : ℕ := 0
  pressureReclaims : ℕ := 0
  lastRejection : Rejection := .none
  healthy : Bool := true

/-- What the manager makes the adapters do, and whom it assigns memory to. -/
inductive Event
  | allocated (address : ℕ)
  | cleared (address : ℕ)
  | freed (address : ℕ)
  | registered (registration address : ℕ)
  | deregistered (registration : ℕ) (ok : Bool)
  | assigned (consumerId : List UInt8) (address : ℕ)
  | unassigned (consumerId : List UInt8) (address : ℕ)
  deriving DecidableEq

/-- The manager with its past: how many allocations and registrations were made, and the events,
latest first. -/
structure World extends Manager where
  addresses : ℕ := 0
  registrations : ℕ := 0
  log : List Event := []

/-- What the heap and the adapters answer during a call: the bytes that are available, and what
succeeds for the chunk in each slot. -/
structure Adapters where
  heap : Bool := true
  available : Option ℕ
  allocate : ℕ → Bool := fun _ => true
  touch : ℕ → Bool := fun _ => true
  register : ℕ → Bool := fun _ => true
  deregister : ℕ → Bool := fun _ => true

/-! ### Helpers of the source -/

/-- A counter of one of the pools, increased. -/
def increase (f : Pool → ℕ) (p : Pool) (n : ℕ) : Pool → ℕ := fun q => if q = p then f q + n else f q

/-- A counter of one of the pools, decreased. -/
def decrease (f : Pool → ℕ) (p : Pool) (n : ℕ) : Pool → ℕ := fun q => if q = p then f q - n else f q

/-- `config_valid`. -/
def Config.valid (c : Config) : Bool :=
  let capacity := c.maxGib .opportunistic + c.maxGib .committed
  capacity ≠ 0 && capacity ≤ maxRuntimeChunks

/-- `consumer_id_valid`. -/
def consumerIdValid (id : List UInt8) : Bool :=
  id ≠ [] && id.length ≤ memoryConsumerIdMax && id.all Protocol.identifierChar

/-- `is_memory_manager_create`. -/
def create (c : Config) : Option World :=
  if c.valid then some
    { config := c, chunkCapacity := c.maxGib .opportunistic + c.maxGib .committed } else none

namespace World

variable (w : World)

def record (events : List Event) : World := { w with log := events ++ w.log }

def setChunk (i : ℕ) (c : Chunk) : World := { w with chunks := Function.update w.chunks i c }

/-- `find_connection`. -/
def findConnection (owner : Owner) : Option Connection := w.connections.find? fun c => c.owner = owner

/-- The connection that was found, written through the pointer to it. -/
def modifyConnection (owner : Owner) (f : Connection → Connection) : World :=
  { w with connections := modifyFirst (fun c => c.owner = owner) f w.connections }

/-- `reject`. -/
def reject (reason : Rejection) : World :=
  { w with
    lastRejection := reason
    rejections := w.rejections + 1
    healthy := w.healthy && reason ≠ .cleanupFailed }

/-- `connection_count_for_consumer`. -/
def connectionCountForConsumer (id : List UInt8) : ℕ := w.connections.countP fun c => c.consumerId = id

/-- `assignments_for_consumer`, for one of the pools. -/
def assignmentsForConsumer (id : List UInt8) (p : Pool) : ℕ :=
  (w.connections.map fun c => if c.consumerId = id then c.assigned p else 0).sum

/-! ### Connections -/

/-- `grow_connections`. -/
def growConnections : World :=
  { w with connectionCapacity := if w.connectionCapacity = 0 then 4 else w.connectionCapacity * 2 }

/-- `is_memory_manager_connect`. -/
def connect (consumerId : List UInt8) (owner : Option Owner) (maxConnections : ℕ)
    (maxChunks : Pool → ℕ) (heap : Bool) : World × Except Failure Unit :=
  let fail result reason := (w.reject reason, .error ⟨result, reason⟩)
  match owner with
  | none => (w, .error ⟨.invalidArgument, .none⟩)
  | some owner =>
    if !consumerIdValid consumerId ∨ maxConnections = 0 ∨
        maxChunks .opportunistic = 0 ∧ maxChunks .committed = 0 then
      (w, .error ⟨.invalidArgument, .none⟩)
    else if (w.findConnection owner).isSome then fail .invalidArgument .invalidRequest
    else if maxConnections ≤ w.connectionCountForConsumer consumerId then
      fail .connectionLimit .connectionLimit
    else if w.connections.any fun c => c.consumerId = consumerId &&
        (c.maxConnections ≠ maxConnections || c.maxChunks .opportunistic ≠ maxChunks .opportunistic ||
          c.maxChunks .committed ≠ maxChunks .committed) then fail .invalidArgument .invalidRequest
    else if w.connections.length = w.connectionCapacity ∧ !heap then
      fail .allocationFailed .allocationFailed
    else
      let w := if w.connections.length = w.connectionCapacity then w.growConnections else w
      ({ w with
        connections := w.connections ++ [{ consumerId, owner, maxConnections, maxChunks }] },
        .ok ())

/-! ### Releasing -/

/-- `release_chunk_locked`: the chunk in slot `i`, which is assigned to the connection `c`. -/
def releaseChunk (c : Connection) (i : ℕ) (cause : ReleaseCause) (a : Adapters) : World × MemoryResult :=
  let chunk := w.chunks i
  if chunk.registration.isSome ∧ !a.deregister i then
    ((w.record (chunk.registration.toList.map (.deregistered · false))).reject .cleanupFailed,
      .cleanupFailed)
  else
    let pool := chunk.pool.getD .committed
    let w := w.record (chunk.registration.toList.map (.deregistered · true))
    let w := w.record (chunk.address.toList.map (.unassigned c.consumerId ·))
    let chunk := { chunk with registration := none, owner := none, registrationAdapter := none }
    let w := w.setChunk i chunk
    let w := { w with assigned := decrease w.assigned pool 1 }
    let w := w.modifyConnection c.owner fun c => { c with assigned := decrease c.assigned pool 1 }
    if cause = .pressure ∨ chunk.pool = some .committed then
      let w := w.record (chunk.address.toList.map .freed)
      let w := w.setChunk i { chunk with address := none, pool := none }
      ({ w with
          allocated := decrease w.allocated pool 1
          pressureReclaims :=
            if pool = .opportunistic ∧ cause = .pressure then w.pressureReclaims + 1
              else w.pressureReclaims }, .ok)
    else (w, .ok)

/-- The loop of `is_memory_manager_release` that releases the chunks it has checked. -/
def releaseEach (w : World) (c : Connection) (cause : ReleaseCause) (a : Adapters) :
    List ℕ → World × MemoryResult
  | [] => (w, .ok)
  | i :: ids =>
    match w.releaseChunk c i cause a with
    | (w, .ok) => releaseEach w c cause a ids
    | (w, result) => (w, result)

/-- The loop of `is_memory_manager_release` that checks the request; `seen` are the slots before. -/
def checkRelease (owner : Owner) (cause : ReleaseCause) : List ℕ → List ℕ → Except Failure Unit
  | _, [] => .ok ()
  | seen, i :: ids =>
    if w.chunkCapacity ≤ i ∨ (w.chunks i).owner ≠ some owner then .error ⟨.notFound, .none⟩
    else if cause = .pressure ∧ (w.chunks i).pool = some .committed then
      .error ⟨.committedProtected, .committedProtected⟩
    else if i ∈ seen then .error ⟨.invalidArgument, .none⟩
    else checkRelease owner cause (i :: seen) ids

/-- `is_memory_manager_release`; a missing array and a cause that is none of the four are `none`. -/
def release (owner : Option Owner) (ids : Option (List ℕ)) (cause : Option ReleaseCause) (a : Adapters) :
    World × MemoryResult :=
  match owner, ids, cause with
  | some owner, some ids, some cause =>
    if ids = [] then (w, .invalidArgument)
    else
      match w.findConnection owner with
      | none => (w, .notConnected)
      | some c =>
        match w.checkRelease owner cause [] ids with
        | .error ⟨result, .none⟩ => (w, result)
        | .error ⟨result, reason⟩ => (w.reject reason, result)
        | .ok () => w.releaseEach c cause a ids
  | _, _, _ => (w, .invalidArgument)

/-- The loop of `disconnect_locked` over the slots. -/
def disconnectEach (w : World) (c : Connection) (a : Adapters) : List ℕ → World × MemoryResult
  | [] => (w, .ok)
  | i :: slots =>
    if (w.chunks i).owner ≠ some c.owner then disconnectEach w c a slots
    else
      match w.releaseChunk c i .disconnect a with
      | (w, .ok) => disconnectEach w c a slots
      | (w, result) => (w, result)

/-- `is_memory_manager_disconnect` and `disconnect_locked`. -/
def disconnect (owner : Option Owner) (a : Adapters) : World × MemoryResult :=
  match owner with
  | none => (w, .invalidArgument)
  | some owner =>
    match w.findConnection owner with
    | none => (w, .notConnected)
    | some c =>
      match w.disconnectEach c a (List.range w.chunkCapacity) with
      | (w', .ok) =>
        ({ w' with
          connections := swapRemove w'.connections (w.connections.findIdx fun c => c.owner = owner) }, .ok)
      | (w', result) => (w', result)

end World

end Memory
end Infiniswap
