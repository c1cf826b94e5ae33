/-
# Calls are all or nothing

A call that does not report success leaves the module and its callers' storage
as they were, apart from the invariant diagnostics and the state of the
placement generator. The claims of a caller are in its own storage: a call
writes one there only when it reports success. An eviction wait is the one call
that spans several steps; from its start to its end it only counts itself among
the waits.
-/
import Infiniswap.RemoteChunk.Stability

namespace Infiniswap
namespace RemoteChunk

open ChunkModule Transition

variable {m : ChunkModule} {w w' : World} {now : ℕ}

/-- What the caller's `request_out` holds after a call, given what it held before. -/
def Reply.requestOut (old : MappingRequest) : Reply → MappingRequest
  | .next _ (some request) => request
  | _ => old

/-- What the caller's `claim_out` holds after a call, given what it held before. -/
def Reply.claimOut (old : EvictionClaim) : Reply → EvictionClaim
  | .begun (.ok claim) => claim
  | _ => old

theorem ChunkModule.placeChunk_refused {draws : ℕ → ℕ} {remoteOnly : Bool} {k : ℕ}
    (h : (m.placeChunk draws remoteOnly k).1 ≠ .request) :
    (m.placeChunk draws remoteOnly k).2.1 = none := by
  unfold placeChunk at h ⊢
  dsimp only at h ⊢
  split at h
  · rfl
  · exact absurd rfl h

theorem ChunkModule.nextMapping_refused {draws : ℕ → ℕ} (h : (m.nextMapping draws).1 ≠ .request) :
    (m.nextMapping draws).2.1 = none := by
  generalize hx : m.nextMapping draws = x at h ⊢
  unfold nextMapping at hx
  dsimp only at hx
  -- every exit but the last returns before a request is filled in
  iterate 7 (split at hx; · subst hx; rfl)
  subst hx
  exact placeChunk_refused h

theorem call_next {c : Call} {result : NextMappingResult} {request : Option MappingRequest}
    (h : w.call c = some (.next result request, w')) :
    ∃ draws, c = .nextMapping draws ∧ w.module.nextMapping draws = (result, request, w'.module) := by
  cases c with
  | nextMapping draws =>
    cases h
    exact ⟨draws, rfl, rfl⟩
  | hotPolicySet | noteActivity | evictionBegin | leaseAcquire | writeCell | evictionWait =>
    dsimp only [World.call] at h
    split at h <;> cases h
  | evictionWake =>
    dsimp only [World.call] at h
    split at h
    · cases h
    split at h <;> cases h
  | _ => cases h

/-- A refused call writes neither of the caller's claim buffers. -/
theorem refused_buffers {c : Call} {r : Reply} (h : w.call c = some (r, w'))
    (hr : r.succeeded = false) (request : MappingRequest) (claim : EvictionClaim) :
    r.requestOut request = request ∧ r.claimOut claim = claim := by
  cases r with
  | next result request' =>
    obtain ⟨draws, rfl, he⟩ := call_next h
    have hnone : request' = none := by
      have hres : (w.module.nextMapping draws).1 ≠ .request := by
        rw [he]
        simpa [Reply.succeeded] using hr
      have hmap := nextMapping_refused hres
      rwa [he] at hmap
    rw [hnone]
    exact ⟨rfl, rfl⟩
  | begun result =>
    cases result with
    | error => exact ⟨rfl, rfl⟩
    | ok => cases hr
  | _ => exact ⟨rfl, rfl⟩

/-! ### Eviction waits -/

theorem ChunkModule.evictionWaitBegin_waiting {m' : ChunkModule} {c : EvictionClaim} {deadline : ℕ}
    (h : m.evictionWaitBegin c deadline now = (.waiting, m')) :
    m' = m.setEvictionWaits (m.activeEvictionWaits + 1) := by
  unfold evictionWaitBegin at h
  split at h
  · cases h
  split at h
  · cases h
  split at h
  · cases h
  unfold evictionWaitResume at h
  split at h <;> cases h
  rfl

theorem wait_sleeps {c : EvictionClaim} {deadline : ℕ}
    (h : w.call (.evictionWait c deadline now) = some (.waited .waiting, w')) :
    w' = { w with
      module := w.module.setEvictionWaits (w.module.activeEvictionWaits + 1)
      waiters := (c, deadline) :: w.waiters } := by
  dsimp only [World.call] at h
  split at h
  · cases h
  · rename_i hbegin
    cases h
    rw [evictionWaitBegin_waiting hbegin]

theorem wait_wakes {i : ℕ} {r : Reply} (h : w.call (.evictionWake i now) = some (r, w')) :
    i < w.waiters.length ∧
    (r = .waited .waiting ∧ w' = w ∨ (∃ status, r = .waited (.done status)) ∧ w' = { w with
      module := w.module.setEvictionWaits (w.module.activeEvictionWaits - 1)
      waiters := w.waiters.eraseIdx i }) := by
  dsimp only [World.call] at h
  split at h
  · cases h
  rename_i c deadline hi
  refine ⟨(List.getElem?_eq_some_iff.mp hi).1, ?_⟩
  unfold evictionWaitResume at h
  split at h <;> rename_i hres <;> split at hres <;> cases hres <;> cases h
  · exact .inr ⟨⟨_, rfl⟩, rfl⟩
  · exact .inl ⟨rfl, rfl⟩

/-- **Module operations are all or nothing.** In every reachable world a call that does not report
success leaves chunks, validity, counters, claims, observations and the callers' storage as they were.
An eviction wait that sleeps registers itself and nothing else, a wake-up that does not end it changes
nothing, and the one that ends it takes off the registration: a wait that is woken and fails leaves the
world it found. A refused destroy is not all or nothing, as it quiesces the module. -/
theorem calls_all_or_nothing {w : World} (h : chunkSystem.Reachable w) :
    (∀ c r w', w.call c = some (r, w') → c ≠ .destroy → (∀ i now, c ≠ .evictionWake i now) →
      r ≠ .waited .waiting → r.succeeded = false →
      w.Same w' ∧ ∀ request claim, r.requestOut request = request ∧ r.claimOut claim = claim) ∧
    (∀ c deadline now w', w.call (.evictionWait c deadline now) = some (.waited .waiting, w') →
      w' = { w with
        module := w.module.setEvictionWaits (w.module.activeEvictionWaits + 1)
        waiters := (c, deadline) :: w.waiters } ∧
      ∀ now' e w'', w'.call (.evictionWake 0 now') = some (.waited (.done (.error e)), w'') → w'' = w) ∧
    ∀ i now r w', w.call (.evictionWake i now) = some (r, w') → r.succeeded = false →
      w' = w ∨ w' = { w with
        module := w.module.setEvictionWaits (w.module.activeEvictionWaits - 1)
        waiters := w.waiters.eraseIdx i } := by
  have hI := world_inv h
  refine ⟨fun c r w' hcall hdestroy hwake hsleep hr =>
      ⟨(call_does hI hcall).same_of_refused hr hdestroy hwake hsleep, refused_buffers hcall hr⟩,
    fun c deadline now w' hcall => ?_, fun i now r w' hcall hr => ?_⟩
  · obtain rfl := wait_sleeps hcall
    refine ⟨rfl, fun now' e w'' hcall' => ?_⟩
    rcases (wait_wakes hcall').2 with ⟨hr, -⟩ | ⟨-, rfl⟩
    · cases hr
    · rfl
  · exact (wait_wakes hcall).2.imp And.right And.right

/-- An eviction of a mapped chunk and of one the Provider does not hold is refused as a whole. -/
theorem calls_all_or_nothing_batch : ∃ w w' : World, (w.module.chunks 0).state = .mapped ∧
    w.call (.evictionBegin ⟨1, 1⟩ [0, 7] {}) = some (.begun (.error .enoent), w') ∧ w.Same w' := by
  obtain ⟨w, w', hw, hs, hcall⟩ :
      ∃ w w', chunkSystem.exec backedWorld backedCalls = some w ∧ (w.module.chunks 0).state = .mapped ∧
      w.call (.evictionBegin ⟨1, 1⟩ [0, 7] {}) = some (.begun (.error .enoent), w') :=
    ⟨_, _, rfl, by decide, rfl⟩
  have hreach := System.reachable_of_exec (.init backedWorld_fresh) hw
  exact ⟨w, w', hs, hcall, ((calls_all_or_nothing hreach).1 _ _ _ hcall nofun nofun nofun rfl).1⟩

end RemoteChunk
end Infiniswap
