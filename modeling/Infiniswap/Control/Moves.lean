/-
# What an instruction of a fabric can do

The step relation of the fabric, said once: which part of a session an
instruction changes, and what its thread goes on with. `Session.core` is what
the invariants look at; the lock, the send slot, request numbers, claims and the
other queued works are left to the handlers. `SessionMove` lists what happens to
the core of the session an instruction works on, `Moves` what happens to the
fabric, and `perform_moves` derives both from the handlers. The Remote Chunk
module changes by its own calls only (`Calls`).
-/
import Mathlib.Logic.Relation
import Infiniswap.Control.Fabric

namespace Infiniswap
namespace Control

open RemoteChunk ChunkModule Transition Threads

/-! ### Calls of the module -/

variable {r : List Instr × Fabric} {m : ChunkModule} {o : ProviderObservation} {answer : Answer}
  {k : Session → List Instr × Fabric}

/-- The module is used: every call but its destruction. -/
def lasting : Call → Bool
  | .destroy => false
  | _ => true

/-- And no mapping is asked for. -/
def tame : Call → Bool
  | .destroy | .nextMapping _ => false
  | _ => true

/-- The world after some calls that satisfy `P`. -/
def Calls (P : Call → Bool) : World → World → Prop :=
  Relation.ReflTransGen fun w w' => ∃ c r, P c = true ∧ w.call c = some (r, w')

namespace Calls

variable {P : Call → Bool} {w w₁ w₂ : World}

theorem refl : Calls P w w := Relation.ReflTransGen.refl

theorem call {c : Call} {r : Reply} (hc : P c = true) (h : w.call c = some (r, w₁)) : Calls P w w₁ :=
  Relation.ReflTransGen.single ⟨c, r, hc, h⟩

theorem trans (h : Calls P w w₁) (h' : Calls P w₁ w₂) : Calls P w w₂ := Relation.ReflTransGen.trans h h'

theorem mono {Q : Call → Bool} (h : Calls P w w₁) (hPQ : ∀ c, P c = true → Q c = true) : Calls Q w w₁ :=
  Relation.ReflTransGen.mono (fun _ _ ⟨c, r, hc, hr⟩ => ⟨c, r, hPQ c hc, hr⟩) _ _ h

section

variable (h : Calls tame w w₁)

include h

theorem lasting : Calls lasting w w₁ := h.mono fun c hc => by cases c <;> first | rfl | cases hc

theorem observe (p : ProviderHandle) (o : ProviderObservation) :
    Calls tame w (w₁.setModule (w₁.module.providerObserve p o).2) :=
  h.trans (call (c := .observe p o) rfl rfl)

theorem finish (c : MappingClaim) (a : MappingFinishAction) (p : ProviderHandle)
    (g : GrantArg) : Calls tame w (w₁.setModule (w₁.module.mappingFinish c a p g).2) :=
  h.trans (call (c := .mappingFinish c a p g) rfl rfl)

theorem providerFailed (p : ProviderHandle) :
    Calls tame w (w₁.setModule (w₁.module.providerFailed p).2.2) :=
  h.trans (call (c := .providerFailed p) rfl rfl)

end

end Calls

/-- The module takes observations of the Provider: it is on the roster and has not failed. -/
def Heard (m : ChunkModule) (provider : ProviderHandle) : Prop :=
  provider.wellFormed = true ∧ (m.providerIndex provider).isSome = true

theorem heard_of_observe {p : ProviderHandle}
    (h : observationError (m.providerObserve p o).1 = none) : Heard m p := by
  unfold ChunkModule.providerObserve at h
  split_ifs at h with hwf hq
  · cases h
  · cases h
  · cases hi : m.providerIndex p with
    | none =>
      rw [hi] at h
      cases h
    | some j =>
      refine ⟨?_, by rw [hi]; rfl⟩
      simp only [Bool.or_eq_true, not_or, Bool.not_eq_true, Bool.not_eq_false'] at hwf
      exact hwf.1

/-! ### The core of a session -/

namespace Session

/-- What the invariants look at. -/
def core (s : Session) : Session :=
  { s with
    locked := false
    sendBusy := false
    deadlineArmed := false
    nextRequestId := 1
    pendingRequestId := 0
    releaseCount := 0
    providerObservation := none
    mappingClaim := {}
    evictionClaim := {}
    compatible := true
    helloQueued := false
    deadlineQueued := false
    releaseQueued := false }

variable {s t : Session}

theorem core_recordObservation (m : ChunkModule) (o : ProviderObservation) :
    (s.recordObservation m o).2.1.core = s.core := by
  unfold recordObservation
  dsimp only
  split_ifs
  · rfl
  · split <;> rfl

theorem recordObservation_module (m : ChunkModule) (o : ProviderObservation) :
    (s.recordObservation m o).2.2 = (m.providerObserve s.handle o).2 := by
  unfold recordObservation
  dsimp only
  split_ifs
  · rfl
  · split <;> rfl

theorem heard_of_recordObservation (h : (s.recordObservation m o).1 = none) : Heard m s.handle := by
  refine heard_of_observe (o := o) ?_
  unfold recordObservation at h
  dsimp only at h
  split_ifs at h with hst
  · rw [hst]
    rfl
  · split at h
    · cases h
    · assumption

theorem core_recordUnavailable (m : ChunkModule) : (s.recordUnavailable m).2.1.core = s.core := by
  unfold recordUnavailable
  split
  · rfl
  · exact core_recordObservation m _

theorem core_giveBack (m : ChunkModule) (claim : MappingClaim) (provider : ProviderHandle) :
    (s.giveBack m claim provider).2.1.core = s.core := by
  unfold giveBack
  dsimp only
  split
  · rfl
  · split_ifs
    · exact core_recordUnavailable _
    · rfl

end Session

variable {s : Session} {w : World}

theorem calls_recordObservation {w₁ : World} (h : Calls tame w w₁) (o : ProviderObservation) :
    Calls tame w (w₁.setModule (s.recordObservation w₁.module o).2.2) := by
  rw [Session.recordObservation_module]
  exact h.observe _ _

theorem calls_recordUnavailable {w₁ : World} (h : Calls tame w w₁) :
    Calls tame w (w₁.setModule (s.recordUnavailable w₁.module).2.2) := by
  unfold Session.recordUnavailable
  split
  · exact h
  · exact calls_recordObservation h _

theorem calls_giveBack (claim : MappingClaim) (provider : ProviderHandle) :
    Calls tame w (w.setModule (s.giveBack w.module claim provider).2.2) := by
  have hfinish := (Calls.refl (w := w) (P := tame)).finish claim .abort provider (.null 0)
  unfold Session.giveBack
  dsimp only
  split
  · exact hfinish
  · split_ifs
    · exact calls_recordUnavailable hfinish
    · unfold Session.repeatObservation
      split
      · exact hfinish
      · exact hfinish.observe _ _

/-! ### What happens to a session -/

/-- Instructions that neither start, fail nor stop sessions, do not touch the connection state and
do not complete the reservation. -/
def Instr.plain : Instr → Bool
  | .startNext | .refresh | .afterFailure | .markedReady _ | .statusReady _ | .queueFailure _
  | .failureWork _ | .stopSessions _ | .stopSession _ | .stopControl _ | .destroySession _
  | .reservedSessions | .reserved => false
  | _ => true

/-- Instructions that may leave the core of their session as it is. -/
def Instr.idle : Instr → Bool
  | .controlDeadline _ | .receiveWork _ _ | .releaseWork _ | .evictionWait _ _
  | .evictionWaited _ _ | .awaitSlot _ _ | .post _ _ | .unlock _ | .repost _ | .reserve _ _ | .map _ _
  | .helloWork _ => true
  | _ => false

/-- A session that has not said hello, or whose hello is not answered to the end. -/
def ControlState.handshake : ControlState → Bool
  | .connecting | .waitChallenge | .waitAccept | .waitStatus => true
  | _ => false

/-- What an instruction does to the core of its session, and what its thread goes on with. -/
inductive SessionMove (f : Fabric) (i : ℕ) (s : Session) : Instr → List Instr → Session → Prop
  | same {x next s'} (hx : x.idle = true) (hc : s'.core = s.core) (hn : next.all Instr.plain = true) :
      SessionMove f i s x next s'
  | shakes {x next s'} (state : ControlState) (hx : x.idle = true)
      (hs : s.controlState.handshake = true) (hst : state.handshake = true)
      (hc : s'.core = { s.core with controlState := state, negotiatedStatus := true } ∨
        s'.core = { s.core with controlState := state }) (hn : next.all Instr.plain = true) :
      SessionMove f i s x next s'
  /-- `is_rdma_fail` on a session or a fabric that stops. -/
  | spared {e} (hs : s.stopping = true ∨ f.stopping = true) : SessionMove f i s (.fail i e) [] s
  | fails {e s'} (assigned : ℕ) (lost : Bool) (hs : s.stopping = false) (hf : f.stopping = false)
      (hc : s'.core =
        { (if s.excludeReason = .none then s.setExclude (Fabric.excludeReasonOf e) else s).core with
        failureStarted := true }) : SessionMove f i s (.fail i e)
      (.refresh :: .failReservation i assigned ::
        ((if lost then [.markLost i] else []) ++ [.queueFailure i])) s'
  | queues {s'} (hc : s'.core = { s.core with failureQueued := true }) :
      SessionMove f i s (.queueFailure i) [] s'
  | down {s'} (state : ControlState) (hs : state = .failed ∨ state = .stopping)
      (hc : s'.core = { s.core with controlState := state, heartbeatQueued := false }) :
      SessionMove f i s (.failureWork i) [.refresh, .afterFailure] s'
  | expires {s'} (state : ControlState) (hs : state = .failed ∨ state = .stopping)
      (hc : s'.core = { s.core with controlState := state }) :
      SessionMove f i s (.deadlinePassed i) [.fail i .etimedout] s'
  | ready {m s'} (hs : s.controlState = .waitAccept ∧ s.negotiatedStatus = false ∨
        (s.controlState = .waitStatus ∨ s.controlState = .waitHeartbeat) ∧ Heard f.world.module s.handle)
      (hro : f.remoteOnly = true → s.failureStarted = false)
      (hc : s'.core = { s.core with
        healthy := true, excludeReason := .none, controlState := .ready, everConnected := true }) :
      SessionMove f i s (.receiveWork i m) (.refresh :: .markedReady i :: Fabric.handled i) s'
  /-- A heartbeat of a Remote-Only session that has failed. -/
  | late {m s'} (hro : f.remoteOnly = true) (hfail : s.failureStarted = true)
      (hc : s'.core = { s.core with healthy := true, excludeReason := .none }) :
      SessionMove f i s (.receiveWork i m) (.markLost i :: .lostReady i :: Fabric.handled i) s'
  | lost {s'} (hc : s'.core = { s.core with controlState := .failed }) :
      SessionMove f i s (.lostReady i) [] s'
  /-- A first status without capacity. -/
  | empty {m s'} (hs : s.controlState = .waitStatus) (hro : f.remoteOnly = false)
      (heard : Heard f.world.module s.handle)
      (hc : s'.core =
        { (s.setExclude .zeroCapacity).core with controlState := .ready, everConnected := true }) :
      SessionMove f i s (.receiveWork i m) (.refresh :: .statusReady i :: Fabric.handled i) s'
  /-- The answer to a heartbeat in Backed Mode. -/
  | beats {m s'} (full : Bool) (hs : s.controlState = .ready) (hro : f.remoteOnly = false)
      (heard : Heard f.world.module s.handle) (hm : ∃ h st, m = .statusResponse h st ∧ st.healthy = true ∧
        full = decide (st.availableOpportunisticChunks ≠ 0))
      (hc : s'.core = { (if full then { s with healthy := true, excludeReason := .none }
        else s.setExclude .zeroCapacity).core with heartbeatRequestId := 0, heartbeatQueued := true }) :
      SessionMove f i s (.receiveWork i m) (Fabric.handled i) s'
  /-- A heartbeat that cannot be sent, or whose answer is refused. -/
  | misses {x s' e} (hx : x = .heartbeatWork i ∨ ∃ m, x = .receiveWork i m)
      (hc : s'.core = { s.core with heartbeatRequestId := 0 }) :
      SessionMove f i s x (Fabric.rejected i e) s'
  | grants {m s'} (hs : s.controlState = .waitReservation ∨ s.controlState = .ready)
      (hro : f.remoteOnly = true) (hc : s'.core = { s.core with controlState := .ready }) :
      SessionMove f i s (.receiveWork i m) (Fabric.handled i) s'
  | reserves {mapping s'} (hs : s.controlState = .ready)
      (hc : s'.core = { s.core with controlState := .waitReservation }) :
      SessionMove f i s (.reserve i mapping) [.awaitSlot i .reservation] s'
  /-- A reservation that cannot be sent fails the session, or all of them. -/
  | unreserves {x next s'} (e : Errno) (hx : x.idle = true) (hn : next.all Instr.plain = true)
      (hm : .fail i e ∈ next ∨ .reservationFailed e ∈ next)
      (hc : s'.core = { s.core with controlState := .ready }) : SessionMove f i s x next s'
  /-- The heartbeat work of a session that is not up to it. -/
  | rests {s'} (hs : s.controlState ≠ .ready ∨ f.remoteOnly = false)
      (hc : s'.core = { s.core with heartbeatQueued := true }) :
      SessionMove f i s (.heartbeatWork i) [] s'
  | ends (hs : s.stopping = true ∨ s.controlState = .failed ∨ s.controlState = .stopping) :
      SessionMove f i s (.heartbeatWork i) [] s
  /-- The heartbeat work before the reservation is complete. -/
  | breaks (hs : s.controlState = .ready) (hro : f.remoteOnly = true)
      (hr : s.reservationComplete = false) : SessionMove f i s (.heartbeatWork i) [] s
  | unanswered (hro : f.remoteOnly = false) : SessionMove f i s (.heartbeatWork i) [.fail i .etimedout] s
  | pulses {s'} (hs : s.controlState = .ready) (hro : f.remoteOnly = true)
      (hc : s'.core = { s.core with controlState := .waitHeartbeat }) :
      SessionMove f i s (.heartbeatWork i) [.unlock i] s'
  | pulsesLost {s' e} (hs : s.controlState = .ready) (hro : f.remoteOnly = true)
      (hc : s'.core = { s.core with controlState := .waitHeartbeat }) :
      SessionMove f i s (.heartbeatWork i) (Fabric.rejected i e) s'
  | pulsesBacked {s'} (id : ℕ) (hs : s.controlState = .ready) (hro : f.remoteOnly = false)
      (hc : s'.core = { s.core with heartbeatRequestId := id, heartbeatQueued := true }) :
      SessionMove f i s (.heartbeatWork i) [.unlock i] s'
  | stops {s'} (hc : s'.core = { s.core with stopping := true }) :
      SessionMove f i s (.stopSession i) [] s'
  | stopsControl {s'}
      (hc : s'.core = { s.core with controlState := .stopping, heartbeatQueued := false }) :
      SessionMove f i s (.stopControl i) [] s'

/-! ### Turns of a session -/

/-- The instructions of the reservation. -/
def Instr.reserving : Instr → Bool
  | .reservationWork | .reserve _ _ | .queueReservation | .awaitSlot _ .reservation | .post _ .reservation
  | .reservedSessions | .reserved | .reservationFailed _ | .failSessions _ _ => true
  | _ => false

/-- In Backed Mode nothing but the reservation itself goes on with the reservation. -/
def Spare (f : Fabric) (x : Instr) (next : List Instr) (f' : Fabric) : Prop :=
  f.remoteOnly = true ∨ x.reserving = true ∨
    next.all (fun y => !y.reserving) = true ∧ f'.reservationQueued = f.reservationQueued

theorem Spare.rest {f f' : Fabric} {x : Instr} {next : List Instr}
    (hn : next.all (fun y => !y.reserving) = true)
    (hq : f'.reservationQueued = f.reservationQueued) : Spare f x next f' := .inr (.inr ⟨hn, hq⟩)

/-- The outcome of a handler that works on session `i`: the fabric changes in that session, in the
module, and in the works it queues. -/
def Turn (f : Fabric) (i : ℕ) (s : Session) (x : Instr) (r : List Instr × Fabric) : Prop :=
  ∃ s', SessionMove f i s x r.1 s' ∧ Calls tame f.world r.2.world ∧ Spare f x r.1 r.2 ∧
    r.2 = { f with
      world := r.2.world
      sessions := Function.update f.sessions i (some s')
      mappingQueued := r.2.mappingQueued
      reservationQueued := r.2.reservationQueued }

variable {f : Fabric} {i : ℕ} {t : Session} {x : Instr}

namespace Session

theorem eq_of_core {α : Type} (g : Session → α) (hg : ∀ r : Session, g r.core = g r)
    (h : t.core = s.core) : g t = g s := by rw [← hg t, ← hg s, h]

theorem control_of_core (h : t.core = s.core) : t.controlState = s.controlState :=
  eq_of_core Session.controlState (fun _ => rfl) h

theorem handle_of_core (h : t.core = s.core) : t.handle = s.handle :=
  eq_of_core Session.handle (fun _ => rfl) h

theorem failure_of_core (h : t.core = s.core) : t.failureStarted = s.failureStarted :=
  eq_of_core Session.failureStarted (fun _ => rfl) h

theorem setExclude_core (h : t.core = s.core) (reason : ProviderExclusion) :
    (t.setExclude reason).core = (s.setExclude reason).core := by
  have hex : t.excludeReason = s.excludeReason := eq_of_core Session.excludeReason (fun _ => rfl) h
  have hset : ∀ r : Session, (r.setExclude reason).core =
      { r.core with
        healthy := false,
        excludeReason := if r.excludeReason = .none then reason else r.excludeReason } :=
    fun _ => rfl
  rw [hset, hset, h, hex]

end Session

theorem reject_turn (hx : x.idle = true) (ht : t.core = s.core)
    (hw : Calls tame f.world (f.world.setModule m)) (e : Errno) :
    Turn f i s x ((f.setModule m).reject i t e) := ⟨t, .same hx ht rfl, hw, .rest rfl rfl, rfl⟩

theorem refuse_turn (hx : x.idle = true) (ht : t.core = s.core) (e : Errno) :
    Turn f i s x (f.reject i t e) :=
  ⟨t, .same hx ht rfl, .refl, .rest rfl rfl, rfl⟩

theorem sessionStatusDone_spare {g : Fabric} {next : List Instr}
    (hn : next.all (fun y => !y.reserving) = true) (hg : g.remoteOnly = f.remoteOnly)
    (hq : g.reservationQueued = f.reservationQueued) : Spare f x next g.sessionStatusDone := by
  unfold Fabric.sessionStatusDone
  split
  · exact .rest hn hq
  · rename_i h
    rw [not_or, Bool.not_eq_true', Bool.not_eq_false] at h
    exact .inl (hg ▸ h.1)

section Receive

variable {message : Message}

section

variable (ht : t.core = s.core)

include ht

theorem markReady_turn (hw : Calls tame f.world (f.world.setModule m))
    (hs : s.controlState = .waitAccept ∧ s.negotiatedStatus = false ∨
      (s.controlState = .waitStatus ∨ s.controlState = .waitHeartbeat) ∧
        Heard f.world.module s.handle)
    (reason : Option ProviderExclusion) :
    Turn f i s (.receiveWork i message) ((f.setModule m).markReady i (reason.elim t t.setExclude)) := by
  have hcore : { (reason.elim t t.setExclude).core with healthy := true, excludeReason := .none } =
      { s.core with healthy := true, excludeReason := .none } := by
    cases reason with
    | none | some reason =>
      exact congrArg (fun c : Session => { c with healthy := true, excludeReason := .none }) ht
  have hfail : (reason.elim t t.setExclude).failureStarted = s.failureStarted := by
    cases reason <;> exact (Session.failure_of_core ht : t.failureStarted = s.failureStarted)
  unfold Fabric.markReady
  dsimp only
  split_ifs with hlost
  · exact ⟨_, .late hlost.1 (hfail ▸ hlost.2) hcore, hw, .rest rfl rfl, rfl⟩
  · refine ⟨{ (reason.elim t t.setExclude) with
      healthy := true, compatible := true, excludeReason := .none
      pendingRequestId := 0, controlState := .ready, everConnected := true }.cancelDeadline, ?_, ?_,
        ?_, ?_⟩
    · refine .ready hs (fun hro => ?_) ?_
      · rw [← hfail]
        exact Bool.eq_false_iff.mpr fun h => hlost ⟨hro, h⟩
      · exact congrArg (fun c : Session => { c with controlState := .ready, everConnected := true }) hcore
    · unfold Fabric.sessionStatusDone
      split_ifs <;> exact hw
    · exact sessionStatusDone_spare rfl rfl rfl
    · unfold Fabric.sessionStatusDone
      split_ifs <;> rfl

theorem recordObservation_spec {e : Option Errno}
    (h : t.recordObservation f.world.module o = (e, t', m)) :
    t'.core = s.core ∧ Calls tame f.world (f.world.setModule m) ∧
    (e = none → Heard f.world.module s.handle) := by
  have hcore := Session.core_recordObservation (s := t) f.world.module o
  have hw := calls_recordObservation (s := t) (Calls.refl (P := tame) (w := f.world)) o
  rw [h] at hcore hw
  refine ⟨hcore.trans ht, hw, ?_⟩
  rintro rfl
  exact Session.handle_of_core ht ▸ Session.heard_of_recordObservation (congrArg Prod.fst h)

theorem handleStatus_turn (hs : s.controlState = .waitStatus) (h : Header)
    (status : StatusPayload) : Turn f i s (.receiveWork i message) (f.handleStatus i t h status) := by
  unfold Fabric.handleStatus
  split
  · exact refuse_turn rfl ht _
  generalize (if f.remoteOnly then status.availableCommittedChunks
    else status.availableOpportunisticChunks) = available
  dsimp only
  rcases hrec : t.recordObservation f.world.module _ with ⟨ret, t', m⟩
  obtain ⟨hcore, hw, heard⟩ := recordObservation_spec ht hrec
  cases ret with
  | some e => exact reject_turn rfl hcore hw e
  | none =>
    have heard := heard rfl
    have hst := Or.inr (a := s.controlState = .waitAccept ∧ s.negotiatedStatus = false)
      (And.intro (Or.inl (b := s.controlState = .waitHeartbeat) hs) heard)
    dsimp only
    split_ifs with hh ha hro
    · exact markReady_turn hcore hw hst (some .unhealthy)
    · exact markReady_turn hcore hw hst (some .zeroCapacity)
    · refine ⟨_, .empty hs (Bool.eq_false_iff.mpr hro) heard ?_, hw, .rest rfl rfl, rfl⟩
      exact congrArg (fun c : Session => { c with controlState := .ready, everConnected := true })
        (Session.setExclude_core hcore .zeroCapacity)
    · exact markReady_turn hcore hw hst none

theorem handleHeartbeat_turn (hs : s.controlState = .waitHeartbeat) (h : Header)
    (status : StatusPayload) : Turn f i s (.receiveWork i message) (f.handleHeartbeat i t h status) := by
  unfold Fabric.handleHeartbeat
  split
  · exact refuse_turn rfl ht _
  rcases hrec : t.recordObservation f.world.module _ with ⟨ret, t', m⟩
  obtain ⟨hcore, hw, heard⟩ := recordObservation_spec ht hrec
  cases ret with
  | some e => exact reject_turn rfl hcore hw e
  | none =>
    dsimp only
    split_ifs with hh
    · exact reject_turn rfl hcore hw .eio
    · exact markReady_turn hcore hw (.inr ⟨.inr hs, heard rfl⟩) none

theorem handleBackedHeartbeat_turn (hs : s.controlState = .ready) (hro : f.remoteOnly = false)
    (h : Header) (status : StatusPayload) (hmsg : message = .statusResponse h status) :
    Turn f i s (.receiveWork i message) (f.handleBackedHeartbeat i t h status) := by
  unfold Fabric.handleBackedHeartbeat
  split
  · exact refuse_turn rfl ht _
  have ht₀ : Session.core { t with heartbeatRequestId := 0 } =
      Session.core { s with heartbeatRequestId := 0 } :=
    congrArg (fun c : Session => { c with heartbeatRequestId := 0 }) ht
  dsimp only
  rcases hrec :
    Session.recordObservation { t with heartbeatRequestId := 0 } f.world.module _ with ⟨ret, t', m⟩
  obtain ⟨hcore, hw, heard⟩ := recordObservation_spec ht₀ hrec
  cases ret with
  | some e => exact ⟨t', .misses (.inr ⟨_, rfl⟩) hcore, hw, .rest rfl rfl, rfl⟩
  | none =>
    have heard := heard rfl
    dsimp only
    split_ifs with hh ha
    · exact ⟨t', .misses (.inr ⟨_, rfl⟩) hcore, hw, .rest rfl rfl, rfl⟩
    · refine ⟨_, .beats false hs hro heard ⟨h, status, hmsg, by simpa using hh, by simp [ha]⟩ ?_,
        hw, .rest rfl rfl, rfl⟩
      have hset := Session.setExclude_core (s := { s with heartbeatRequestId := 0 }) hcore .zeroCapacity
      exact congrArg (fun c : Session => { c with heartbeatQueued := true }) hset
    · refine ⟨_, .beats true hs hro heard ⟨h, status, hmsg, by simpa using hh, by simp [ha]⟩ ?_, hw,
        .rest rfl rfl, rfl⟩
      exact congrArg (fun c : Session =>
        { c with healthy := true, excludeReason := .none, heartbeatQueued := true }) hcore

theorem handleChunkGrant_turn (hs : s.controlState = .waitReservation ∨ s.controlState = .ready)
    (answer : Answer) (h : Header) (chunks : List WireChunk) :
    Turn f i s (.receiveWork i message) (f.handleChunkGrant i t answer h chunks) := by
  unfold Fabric.handleChunkGrant
  split
  · exact refuse_turn rfl ht _
  split
  · exact refuse_turn rfl ht _
  split
  · exact refuse_turn rfl ht _
  have hw := (Calls.refl (w := f.world) (P := tame)).finish t.mappingClaim .commit t.handle
    (.array (chunks.map WireChunk.grant))
  dsimp only
  split
  · exact reject_turn rfl ht hw _
  · split
    · rename_i hro
      exact ⟨_, .grants hs hro (congrArg (fun c : Session => { c with controlState := .ready }) ht),
        hw, .inl hro, rfl⟩
    · exact ⟨{ t with pendingRequestId := 0 }, .same rfl ht rfl, hw, .rest rfl rfl, rfl⟩

theorem handleEvict_turn (answer : Answer) (h : Header) (chunks : List ℕ) :
    Turn f i s (.receiveWork i message) (f.handleEvict i t answer h chunks) := by
  unfold Fabric.handleEvict
  split
  · exact refuse_turn rfl ht _
  split
  · exact refuse_turn rfl ht _
  split
  · exact refuse_turn rfl ht _
  · exact ⟨_, .same rfl ht rfl, .refl, .rest rfl rfl, rfl⟩

theorem handleRelease_turn (h : Header) (chunks : List ℕ) :
    Turn f i s (.receiveWork i message) (f.handleRelease i t h chunks) := by
  unfold Fabric.handleRelease
  split
  · exact refuse_turn rfl ht _
  split
  · exact refuse_turn rfl ht _
  split
  · exact refuse_turn rfl ht _
  · rename_i claim m hb
    refine ⟨{ t with
      evictionClaim := claim, releaseCount := chunks.length, pendingRequestId := h.requestId,
        releaseQueued := true },
      .same rfl ht rfl,
      .call (c := .evictionBegin t.handle chunks t.evictionClaim) (r := .begun (.ok claim)) rfl ?_,
      .rest rfl rfl, rfl⟩
    rw [World.call, hb]
    rfl

theorem handleAccept_turn (hs : s.controlState = .waitAccept) (h : Header) :
    Turn f i s (.receiveWork i message) (f.handleAccept i t h) := by
  unfold Fabric.handleAccept
  split
  · exact refuse_turn rfl ht _
  split
  · rename_i hst
    split
    · exact refuse_turn rfl ht _
    · refine markReady_turn ht .refl (.inl ⟨hs, ?_⟩) none
      rw [← Session.eq_of_core Session.negotiatedStatus (fun _ => rfl) ht]
      simpa using hst
  · refine ⟨_, .shakes .waitStatus rfl (by rw [hs]; rfl) rfl (.inr ?_) rfl, .refl, .rest rfl rfl, rfl⟩
    exact congrArg (fun c : Session => { c with controlState := .waitStatus }) ht

theorem handleChallenge_turn (hs : s.controlState = .waitChallenge) (answer : Answer)
    (h : Header) (status : Bool) :
    Turn f i s (.receiveWork i message) (f.handleChallenge i t answer h status) := by
  unfold Fabric.handleChallenge
  split
  · exact refuse_turn rfl ht _
  · rename_i hv
    have hst : status = true := by
      cases status <;> simp at hv ⊢
    subst hst
    dsimp only
    split
    · refine ⟨_, .shakes .waitChallenge rfl (by rw [hs]; rfl) rfl (.inl ?_) rfl, .refl,
        .rest rfl rfl, rfl⟩
      refine (congrArg (fun c : Session => { c with negotiatedStatus := true }) ht).trans ?_
      rw [← hs]
      rfl
    · refine ⟨_, .shakes .waitAccept rfl (by rw [hs]; rfl) rfl (.inl ?_) rfl, .refl, .rest rfl rfl, rfl⟩
      exact congrArg
        (fun c : Session => { c with controlState := .waitAccept, negotiatedStatus := true }) ht

end

/-- **A message changes the session that receives it, and no other.** -/
theorem receive_turn (answer : Answer) (message : Message) :
    Turn f i s (.receiveWork i message) (f.receive i s.lock answer message) := by
  unfold Fabric.receive
  dsimp only
  generalize hr :
    (if message.header.response = true ∧ message.header.requestId = s.lock.pendingRequestId then
    s.lock.cancelDeadline else s.lock) = t
  have ht : t.core = s.core := by
    rw [← hr]
    split <;> rfl
  have hcs := Session.control_of_core ht
  cases message with
  | undecodable | error => exact refuse_turn rfl ht _
  | challenge h status =>
    cases hst : t.controlState with
    | waitChallenge => exact handleChallenge_turn ht (hcs ▸ hst) answer h status
    | _ => exact refuse_turn rfl ht _
  | accept h =>
    cases hst : t.controlState with
    | waitAccept => exact handleAccept_turn ht (hcs ▸ hst) h
    | _ => exact refuse_turn rfl ht _
  | statusResponse h status =>
    cases hst : t.controlState with
    | waitStatus => exact handleStatus_turn ht (hcs ▸ hst) h status
    | waitHeartbeat => exact handleHeartbeat_turn ht (hcs ▸ hst) h status
    | ready =>
      dsimp only
      split
      · exact refuse_turn rfl ht _
      · rename_i hro
        exact handleBackedHeartbeat_turn ht (hcs ▸ hst) (Bool.eq_false_iff.mpr hro) h status rfl
    | _ => exact refuse_turn rfl ht _
  | chunkGrant h chunks =>
    cases hst : t.controlState with
    | waitReservation => exact handleChunkGrant_turn ht (.inl (hcs ▸ hst)) answer h chunks
    | ready => exact handleChunkGrant_turn ht (.inr (hcs ▸ hst)) answer h chunks
    | _ => exact refuse_turn rfl ht _
  | evict h chunks =>
    cases hst : t.controlState with
    | ready => exact handleEvict_turn ht answer h chunks
    | _ => exact refuse_turn rfl ht _
  | release h chunks =>
    cases hst : t.controlState with
    | ready => exact handleRelease_turn ht h chunks
    | _ => exact refuse_turn rfl ht _
  | other h =>
    cases hst : t.controlState with
    | _ => exact refuse_turn rfl ht _

end Receive

/-! ### Sending -/

theorem stay_turn (h : f.sessions i = some s) {next : List Instr} (hm : SessionMove f i s x next s)
    (hq : Spare f x next f) : Turn f i s x (next, f) := by
  refine ⟨s, hm, .refl, hq, ?_⟩
  rw [← h, Function.update_eq_self]

theorem sent_turn (hx : x.idle = true) (ht : t.core = s.core) (p : Purpose) :
    Turn f i s x (f.sent i t p) := by
  cases p with
  | hello | reservation | mapping | auth | status =>
    exact ⟨t.armDeadline, .same hx ht rfl, .refl, .rest rfl rfl, rfl⟩
  | activity => exact ⟨t, .same hx ht rfl, .refl, .rest rfl rfl, rfl⟩
  | release =>
    exact ⟨{ t with releaseCount := 0, pendingRequestId := 0 }, .same hx ht rfl, .refl,
      .rest rfl rfl, rfl⟩

theorem unsent_turn (hx : x.idle = true) (ht : t.core = s.core) (e : Errno) {p : Purpose}
    (hp : p = .reservation → x.reserving = true) : Turn f i s x (f.unsent i t e p) := by
  have hw := (Calls.refl (w := f.world) (P := tame)).finish t.mappingClaim .abort t.handle (.null 0)
  cases p with
  | hello | auth | status | activity => exact refuse_turn hx ht e
  | release =>
    exact ⟨{ t with releaseCount := 0, pendingRequestId := 0 }, .same hx ht rfl, .refl,
      .rest rfl rfl, rfl⟩
  | reservation =>
    have hc := congrArg (fun c : Session => { c with controlState := .ready }) ht
    refine ⟨{ t with pendingRequestId := 0, controlState := .ready },
      .unreserves (t.giveUp f.world.module e).1 hx ?_ ?_ hc, hw, .inr (.inl (hp rfl)), rfl⟩
    · unfold Fabric.unsent
      dsimp only
      split <;> rfl
    · unfold Fabric.unsent
      dsimp only
      split <;> simp
  | mapping =>
    unfold Fabric.unsent
    dsimp only
    split
    · exact reject_turn hx (t := { t with pendingRequestId := 0 }) ht hw _
    · have hcore := (Session.core_recordUnavailable (s := { t with pendingRequestId := 0 })
        (t.giveUp f.world.module e).2).trans ht
      have hw' := calls_recordUnavailable (s := { t with pendingRequestId := 0 }) hw
      exact reject_turn hx hcore hw' _

theorem awaitSlot_turn (hs : f.sessions i = some s) {p : Purpose}
    (h : f.awaitSlot i s answer p = some r) : Turn f i s (.awaitSlot i p) r := by
  have hp : p = .reservation → (Instr.awaitSlot i p).reserving = true := fun hp => by rw [hp]; rfl
  unfold Fabric.awaitSlot at h
  split_ifs at h
  · cases h
    exact unsent_turn rfl rfl _ hp
  · cases h
    refine stay_turn hs (.same rfl rfl rfl) ?_
    by_cases hres : p = .reservation
    · exact .inr (.inl (hp hres))
    · exact .rest (by cases p <;> first | rfl | exact absurd rfl hres) rfl
  · cases h
    exact unsent_turn rfl rfl _ hp

theorem Session.core_postFrame (answer : Answer) : (t.postFrame answer).2.core = t.core := by
  unfold postFrame
  split
  · rfl
  · split <;> rfl

theorem post_turn (answer : Answer) (p : Purpose) : Turn f i s (.post i p) (f.post i s answer p) := by
  have hcore := Session.core_postFrame (t := s) answer
  unfold Fabric.post
  split
  · rename_i t hp
    rw [hp] at hcore
    exact sent_turn rfl hcore p
  · rename_i e t hp
    rw [hp] at hcore
    exact unsent_turn rfl hcore e fun hp => by rw [hp]; rfl

/-! ### The works of a session -/

theorem helloWork_turn (hs : f.sessions i = some s) : Turn f i s (.helloWork i) (f.helloWork i s) := by
  unfold Fabric.helloWork
  split
  · rename_i hst
    exact ⟨_, .shakes .waitChallenge rfl (by rw [hst]; rfl) rfl (.inr rfl) rfl, .refl, .rest rfl rfl, rfl⟩
  · exact stay_turn hs (.same rfl rfl rfl) (.rest rfl rfl)

theorem controlDeadline_turn (hs : f.sessions i = some s) (answer : Answer) :
    Turn f i s (.controlDeadline i) (f.controlDeadline i s answer) := by
  unfold Fabric.controlDeadline
  split
  · split
    · exact ⟨{ s with deadlineArmed := false }, .same rfl rfl rfl, .refl, .rest rfl rfl, rfl⟩
    · exact ⟨{ s with deadlineQueued := true }, .same rfl rfl rfl, .refl, .rest rfl rfl, rfl⟩
  · exact stay_turn hs (.same rfl rfl rfl) (.rest rfl rfl)

theorem deadlinePassed_turn : Turn f i s (.deadlinePassed i) (f.deadlinePassed i s) := by
  refine ⟨_, .expires (if s.controlState = .stopping then .stopping else .failed) ?_ rfl, .refl,
    .rest rfl rfl, rfl⟩
  split
  · exact .inr rfl
  · exact .inl rfl

theorem failureWork_turn : Turn f i s (.failureWork i) (f.failureWork i s) := by
  refine ⟨_, .down (if s.controlState = .stopping then .stopping else .failed) ?_ rfl, .refl,
    .rest rfl rfl, rfl⟩
  split
  · exact .inr rfl
  · exact .inl rfl

theorem rdmaFail_turn (hs : f.sessions i = some s) (e : Errno) :
    Turn f i s (.fail i e) (f.rdmaFail i s e) := by
  unfold Fabric.rdmaFail
  split
  · rename_i hst
    exact stay_turn hs (.spared hst) (.rest rfl rfl)
  · rename_i hst
    rw [not_or, Bool.not_eq_true, Bool.not_eq_true] at hst
    dsimp only
    refine ⟨_, .fails _ _ hst.1 hst.2 rfl, Calls.refl.providerFailed _, .rest ?_ rfl, rfl⟩
    generalize (f.remoteOnly && _) = lost
    cases lost <;> rfl

theorem releaseFailed_turn (hx : x.idle = true) (hw : Calls tame f.world (f.world.setModule m))
    (e : Errno) : Turn f i s x ((f.setModule m).releaseFailed i s e) :=
  ⟨{ s with releaseCount := 0, pendingRequestId := 0 }, .same hx rfl rfl, hw, .rest rfl rfl, rfl⟩

theorem evictionWaited_turn (hs : f.sessions i = some s) (status : Except Errno Unit) :
    Turn f i s (.evictionWaited i status) (f.evictionWaited i s status) := by
  have hw : Calls tame f.world (f.world.setModule (f.world.module.evictionFinish s.evictionClaim).2) :=
    .call (c := .evictionFinish s.evictionClaim) rfl rfl
  unfold Fabric.evictionWaited
  cases status with
  | error e => exact releaseFailed_turn rfl .refl e
  | ok =>
    dsimp only
    split
    · exact releaseFailed_turn rfl hw _
    · refine ⟨s, .same rfl rfl rfl, hw, .rest rfl rfl, ?_⟩
      rw [← hs, Function.update_eq_self]
      rfl

theorem waitCall_turn (hx : x.idle = true) (ht : t.core = s.core) {deadline : ℕ} {c : Call}
    (hc : tame c = true) (h : f.waitCall i t deadline c = some r) : Turn f i s x r := by
  unfold Fabric.waitCall at h
  split at h <;> cases h
  iterate 2
    rename_i hcall
    exact ⟨t, .same hx ht rfl, .call hc hcall, .rest rfl rfl, rfl⟩

/-- **A heartbeat changes the session it is for.** -/
theorem heartbeatWork_turn (hs : f.sessions i = some s) (answer : Answer) :
    Turn f i s (.heartbeatWork i) (f.heartbeatWork i s answer) := by
  unfold Fabric.heartbeatWork
  split
  · rename_i hst
    exact stay_turn hs (.ends (.inl hst)) (.rest rfl rfl)
  split
  · rename_i hrest
    split
    · exact ⟨s.scheduleHeartbeat, .rests (hrest.imp_right fun h => by simpa using h.1) rfl, .refl,
        .rest rfl rfl, rfl⟩
    · rename_i hst
      exact stay_turn hs (.ends (.inr (by tauto))) (.rest rfl rfl)
  rename_i hready
  rw [not_or, not_not] at hready
  split
  · rename_i hro
    exact stay_turn hs (.breaks hready.1 hro.1 (by simpa using hro.2)) (.rest rfl rfl)
  split
  · rename_i hro
    exact stay_turn hs (.unanswered (by simpa using hro.1)) (.rest rfl rfl)
  split
  · rename_i hro
    have hcore := Session.core_postFrame (t := (s.request .waitHeartbeat).lock) answer
    split
    · rename_i hp
      rw [hp] at hcore
      exact ⟨Session.armDeadline _, .pulses hready.1 hro hcore, .refl, .rest rfl rfl, rfl⟩
    · rename_i hp
      rw [hp] at hcore
      exact ⟨_, .pulsesLost hready.1 hro hcore, .refl, .rest rfl rfl, rfl⟩
  · rename_i hro
    have hcore := Session.core_postFrame
      (t := { s.countRequest with heartbeatRequestId := s.nextRequestId }.lock) answer
    split
    · rename_i t hp
      rw [hp] at hcore
      refine ⟨t.scheduleHeartbeat, .pulsesBacked s.nextRequestId hready.1
        (Bool.eq_false_iff.mpr hro) ?_, .refl, .rest rfl rfl, rfl⟩
      exact congrArg (fun c : Session => { c with heartbeatQueued := true }) hcore
    · rename_i e t hp
      rw [hp] at hcore
      refine ⟨{ t with heartbeatRequestId := 0 }, .misses (.inl rfl) ?_, .refl, .rest rfl rfl, rfl⟩
      exact congrArg (fun c : Session => { c with heartbeatRequestId := 0 }) hcore

/-! ### Claims on the module -/

theorem reserve_turn (hs : f.sessions i = some s) (mapping : MappingRequest) :
    Turn f i s (.reserve i mapping) (f.reserve i s mapping) := by
  unfold Fabric.reserve
  split
  · have hcore := Session.core_giveBack (s := s) f.world.module mapping.claim mapping.provider
    have hw := calls_giveBack (s := s) (w := f.world) mapping.claim mapping.provider
    dsimp only
    split
    · exact ⟨_, .same rfl hcore rfl, hw, .inr (.inl rfl), rfl⟩
    · refine ⟨_, .same rfl hcore ?_, hw, .inr (.inl rfl), rfl⟩
      split <;> rfl
  split
  · exact stay_turn hs (.same rfl rfl rfl) (.inr (.inl rfl))
  · rename_i hready _
    refine ⟨_, .reserves ?_ rfl, .refl, .inr (.inl rfl), rfl⟩
    by_contra hne
    exact hready (.inr (.inr (.inr (.inl hne))))

theorem map_turn (mapping : MappingRequest) : Turn f i s (.map i mapping) (f.map i s mapping) := by
  unfold Fabric.map
  dsimp only
  split
  · have hcore := Session.core_giveBack (s := { s with mappingClaim := mapping.claim }) f.world.module
      mapping.claim s.handle
    have hw := calls_giveBack (s := { s with mappingClaim := mapping.claim })
      (w := f.world) mapping.claim s.handle
    refine ⟨_, .same rfl hcore ?_, hw, .rest ?_ rfl, rfl⟩
    · simp [Instr.plain]
    · simp [Instr.reserving]
  · rename_i hready
    refine ⟨({ s with mappingClaim := mapping.claim }.request .ready).lock, .same rfl ?_ rfl, .refl,
      .rest rfl rfl, rfl⟩
    have hst : s.controlState = .ready := by
      by_contra hne
      exact hready (.inr (.inr (.inr (.inl hne))))
    rw [← hst]
    rfl

/-! ### What happens to a fabric -/

/-- Instructions that set flags of the reservation, or nothing. -/
def Instr.minor : Instr → Bool
  | .failReservation _ _ | .queueReservation | .mappingWork | .reservationWork => true
  | _ => false

/-- What an instruction does to the fabric, and what its thread goes on with. -/
inductive Moves (f : Fabric) : Instr → List Instr → Fabric → Prop
  | turn {x next f'} (i : ℕ) (s s' : Session) (hi : f.sessions i = some s)
      (hm : SessionMove f i s x next s') (hw : Calls tame f.world f'.world) (hq : Spare f x next f')
      (hf : f' = { f with
        world := f'.world
        sessions := Function.update f.sessions i (some s')
        mappingQueued := f'.mappingQueued
        reservationQueued := f'.reservationQueued }) : Moves f x next f'
  /-- The end of `is_mark_session_ready`. -/
  | marks {x f'} (i : ℕ) (s : Session) (hx : x = .markedReady i ∨ x = .statusReady i)
      (hi : f.sessions i = some s)
      (hf : f' = { f.scheduleNextSession with
        sessions := Function.update f.sessions i
          (some (if s.negotiatedStatus then s.scheduleHeartbeat else s))
        mappingQueued := f'.mappingQueued }) : Moves f x [] f'
  | refreshes : Moves f .refresh [] f.refresh
  | recovers : Moves f .afterFailure [] { f with mappingQueued := true }.scheduleNextSession
  | loses (i : ℕ) : Moves f (.markLost i) [] f.markRemoteLost
  | flags {x f'} (hx : x.minor = true) (hq : Spare f x [] f')
      (hf : f' = { f with
        reservationFailed := f'.reservationFailed, reservationQueued := f'.reservationQueued }) :
      Moves f x [] f'
  /-- A mapping is asked for. -/
  | asks {x next f'} (hx : x = .reservationWork ∨
        x = .mappingWork ∧ f.remoteOnly = false ∧ f.stopping = false ∧ f.connectionState ≠ .connecting)
      (hn : next.all Instr.plain = true) (hq : Spare f x next f') (hw : Calls lasting f.world f'.world)
      (hf : f' = { f with world := f'.world }) : Moves f x next f'
  /-- Every chunk is reserved. -/
  | completes {f'} (hl : f.remoteLost = false) (hs : f.stopping = false)
      (hm : f.world.module.mode = .remoteOnly)
      (hp : ∀ i < f.world.module.providerCount, f.world.module.providerPending i = false)
      (hw : Calls lasting f.world f'.world)
      (hf : f' = { f with world := f'.world, connectionState := .connected }) :
      Moves f .reservationWork [.reservedSessions, .reserved] f'
  | reservedSessions : Moves f .reservedSessions []
      { f with sessions := fun i =>
          if i < f.sessionCount then (f.sessions i).map fun s => { s with reservationComplete := true }
          else f.sessions i }
  | reserved : Moves f .reserved [] { f with reservationComplete := true }
  | abandons (e : Errno) :
      Moves f (.reservationFailed e) [.failSessions 0 e] { f with reservationFailed := true }
  | failsNext (k : ℕ) (e : Errno) (hk : k < f.sessionCount) : Moves f (.failSessions k e)
      ((if (f.sessions k).isSome then [.fail k e] else []) ++ [.failSessions (k + 1) e]) f
  | failedAll (k : ℕ) (e : Errno) (hk : ¬ k < f.sessionCount) : Moves f (.failSessions k e) [] f
  /-- No session is left to start. -/
  | started (h : f.stopping = true ∨ f.plannedCount ≤ f.nextResolveIndex) : Moves f .startNext [] f
  | skips (hs : f.stopping = false) (hn : f.nextResolveIndex < f.plannedCount)
      (h : (f.sessions f.nextResolveIndex).isSome = true) :
      Moves f .startNext [] { f with nextResolveIndex := f.nextResolveIndex + 1 }
  | unstarted {f'} (hs : f.stopping = false) (hn : f.nextResolveIndex < f.plannedCount)
      (h : f.sessions f.nextResolveIndex = none) (hw : Calls tame f.world f'.world)
      (hq : Spare f .startNext [.refresh, .afterFailure] f')
      (hf : f' = { f with
        world := f'.world
        nextResolveIndex := f.nextResolveIndex + 1
        failedSessions := Function.update f.failedSessions f.nextResolveIndex true
        reservationQueued := f'.reservationQueued }) : Moves f .startNext [.refresh, .afterFailure] f'
  | starts {next} (hs : f.stopping = false) (hn : f.nextResolveIndex < f.plannedCount)
      (h : f.sessions f.nextResolveIndex = none) (hp : f.nextResolveIndex < f.world.module.providerCount)
      (hnext : next = [] ∨ ∃ e, next = [.fail f.nextResolveIndex e]) : Moves f .startNext next
      { f with
        nextResolveIndex := f.nextResolveIndex + 1
        sessions := Function.update f.sessions f.nextResolveIndex
          (some (Session.armDeadline { handle := (f.world.module.providers f.nextResolveIndex).handle }))
        sessionCount := max f.sessionCount (f.nextResolveIndex + 1) }
  | stopsNext (k : ℕ) (hk : k < f.sessionCount) : Moves f (.stopSessions k)
      ((if (f.sessions k).isSome then [.stopSession k, .stopControl k, .destroySession k] else []) ++
        [.stopSessions (k + 1)]) f
  | stoppedAll (k : ℕ) (hk : ¬ k < f.sessionCount) : Moves f (.stopSessions k) [] f
  | destroys (i : ℕ) :
      Moves f (.destroySession i) [] { f with sessions := Function.update f.sessions i none }

theorem Turn.moves (hs : f.sessions i = some s) (h : Turn f i s x r) : Moves f x r.1 r.2 := by
  obtain ⟨s', hm, hw, hq, hf⟩ := h
  exact .turn i s s' hs hm hw hq hf

theorem startNextSession_moves (answer : Answer) :
    Moves f .startNext (f.startNextSession answer).1 (f.startNextSession answer).2 := by
  unfold Fabric.startNextSession
  split
  · rename_i h
    exact .started h
  rename_i h
  rw [not_or, Bool.not_eq_true, Nat.not_le] at h
  dsimp only
  split
  · rename_i hsome
    exact .skips h.1 h.2 hsome
  rename_i hnone
  rw [Option.not_isSome_iff_eq_none] at hnone
  split
  · refine .unstarted h.1 h.2 hnone ?_ ?_ ?_
    · unfold Fabric.failUnstartedProvider
      split
      · exact .refl
      · dsimp only
        split
        · exact Calls.refl.providerFailed _
        · exact .refl
    · unfold Fabric.failUnstartedProvider
      split
      · exact .rest rfl rfl
      · rename_i hro
        have hro : ¬ (!f.remoteOnly) = true := hro
        exact .inl (by simpa using hro)
    · unfold Fabric.failUnstartedProvider
      split <;> rfl
  · rename_i hp
    rw [not_or, Nat.not_le] at hp
    refine .starts h.1 h.2 hnone hp.2 ?_
    cases answer.status with
    | none => exact .inl rfl
    | some e => exact .inr ⟨e, rfl⟩

theorem abortClaim_calls (h : Calls lasting w f.world) (mapping : MappingRequest) :
    Calls lasting w (f.abortClaim mapping).2.world :=
  h.trans (Calls.refl.finish _ _ _ _).lasting

/-- A Backed Mode module has no reservation to complete, and a Remote-Only one hears every Provider
first. -/
theorem nextMapping_complete {draws : ℕ → ℕ} (h : (m.nextMapping draws).1 = .complete) :
    m.mode = .remoteOnly ∧ ∀ i < m.providerCount, m.providerPending i = false := by
  unfold ChunkModule.nextMapping at h
  dsimp only at h
  split at h
  · cases h
  split at h
  · cases h
  split at h
  · cases h
  rename_i hp
  split at h
  · rename_i hu
    simp only [Bool.and_eq_true, decide_eq_true_eq] at hp hu
    refine ⟨hu.1, fun i hi => ?_⟩
    by_contra hne
    exact hp ⟨hu.1, i, hi, by simpa using hne⟩
  split at h
  · split at h <;> cases h
  split at h
  · cases h
  split at h
  · split at h <;> cases h
  · unfold ChunkModule.placeChunk at h
    dsimp only at h
    split at h
    · split_ifs at h
    · cases h

theorem reservationWork_moves (answer : Answer) :
    Moves f .reservationWork (f.reservationWork answer).1 (f.reservationWork answer).2 := by
  have hw : Calls lasting f.world (f.world.setModule (f.world.module.nextMapping answer.draws).2.2) :=
    .call (c := .nextMapping answer.draws) rfl rfl
  unfold Fabric.reservationWork
  split
  · exact .flags rfl (.inr (.inl rfl)) rfl
  · rename_i h
    dsimp only
    split
    · split
      · exact .asks (.inl rfl) rfl (.inr (.inl rfl)) hw rfl
      · exact .asks (.inl rfl) rfl (.inr (.inl rfl)) (abortClaim_calls hw _) rfl
    · rename_i hcomplete
      split
      · exact .asks (.inl rfl) rfl (.inr (.inl rfl)) hw rfl
      · rename_i hl
        rw [not_or, not_or, Bool.not_eq_true, Bool.not_eq_true, Bool.not_eq_true] at h
        have hc : f.world.module.mode = .remoteOnly ∧
            ∀ i < f.world.module.providerCount, f.world.module.providerPending i = false :=
          nextMapping_complete hcomplete
        exact .completes (Bool.eq_false_iff.mpr hl) h.2.2 hc.1 hc.2 hw rfl
    all_goals exact .asks (.inl rfl) rfl (.inr (.inl rfl)) hw rfl

theorem mappingWork_moves (h : f.mappingWork answer = some r) :
    Moves f .mappingWork r.1 r.2 := by
  have hw : Calls lasting f.world (f.world.setModule (f.world.module.nextMapping answer.draws).2.2) :=
    .call (c := .nextMapping answer.draws) rfl rfl
  unfold Fabric.mappingWork at h
  split at h
  · cases h
    exact .flags rfl (.rest rfl rfl) rfl
  rename_i hgo
  rw [not_or, not_or, Bool.not_eq_true, Bool.not_eq_true] at hgo
  split at h
  · cases h
  · cases h
    exact .flags rfl (.rest rfl rfl) rfl
  dsimp only at h
  split at h
  · split at h
    · cases h
      exact .asks (.inr ⟨rfl, hgo⟩) rfl (.rest rfl rfl) (abortClaim_calls hw _) rfl
    · split_ifs at h
      · cases h
        refine .asks (.inr ⟨rfl, hgo⟩) ?_ (.rest ?_ rfl) (abortClaim_calls hw _) rfl
        · simp [Instr.plain]
        · simp [Instr.reserving]
      · cases h
        exact .asks (.inr ⟨rfl, hgo⟩) rfl (.rest rfl rfl) hw rfl
  · cases h
    exact .asks (.inr ⟨rfl, hgo⟩) rfl (.rest rfl rfl) hw rfl

theorem turn_of_withLock (hk : ∀ s, f.sessions i = some s → Turn f i s x (k s))
    (h : f.withLock i k = some r) : Moves f x r.1 r.2 := by
  obtain ⟨s, hs, h⟩ := Option.bind_eq_some_iff.mp h
  split at h
  · cases h
  · cases h
    exact (hk s hs).moves hs

theorem turn_of_withSession (hk : ∀ s, f.sessions i = some s → Turn f i s x (k s))
    (h : f.withSession i k = some r) : Moves f x r.1 r.2 := by
  obtain ⟨s, hs, rfl⟩ := Option.map_eq_some_iff.mp h
  exact (hk s hs).moves hs

theorem marks_of_withSession (hx : x = .markedReady i ∨ x = .statusReady i)
    (hk : ∀ s, k s = ([], { f.scheduleNextSession with
      sessions :=
        Function.update f.sessions i (some (if s.negotiatedStatus then s.scheduleHeartbeat else s))
      mappingQueued := (k s).2.mappingQueued })) (h : f.withSession i k = some r) :
    Moves f x r.1 r.2 := by
  obtain ⟨s, hs, rfl⟩ := Option.map_eq_some_iff.mp h
  have hnext : (k s).1 = [] := congrArg Prod.fst (hk s)
  rw [hnext]
  exact .marks i s hx hs (congrArg Prod.snd (hk s))

theorem scheduleNextSession_frame :
    f.scheduleNextSession = { f with startQueued := f.scheduleNextSession.startQueued } := by
  unfold Fabric.scheduleNextSession
  split <;> rfl

theorem refresh_frame : f.refresh = { f with connectionState := f.refresh.connectionState } := by
  unfold Fabric.refresh
  split <;> rfl

theorem failReservation_moves (j n : ℕ) : Moves f (.failReservation j n) [] (f.failReservation n) := by
  refine .flags rfl ?_ ?_
  · unfold Fabric.failReservation
    split
    · rename_i hro
      exact .inl hro.1
    · exact .rest rfl rfl
  · unfold Fabric.failReservation Fabric.sessionStatusDone
    split_ifs <;> rfl

theorem lostReady_turn : Turn f i s (.lostReady i)
    ([], (f.setSession i { s with
      pendingRequestId := 0, controlState := .failed }.cancelDeadline).sessionStatusDone) := by
  refine ⟨{ s with pendingRequestId := 0, controlState := .failed }.cancelDeadline, .lost rfl, ?_,
    sessionStatusDone_spare rfl rfl rfl, ?_⟩
  · unfold Fabric.sessionStatusDone
    split_ifs <;> exact .refl
  · unfold Fabric.sessionStatusDone
    split_ifs <;> rfl

/-- **Every instruction makes one of the moves.** -/
theorem perform_moves (h : f.perform answer x = some r) :
    Moves f x r.1 r.2 := by
  cases x with
  | startNext => cases h; exact startNextSession_moves answer
  | refresh => cases h; exact .refreshes
  | afterFailure => cases h; exact .recovers
  | fail i e => exact turn_of_withLock (fun s hs => rdmaFail_turn hs e) h
  | failReservation j n => cases h; exact failReservation_moves j n
  | markLost i => cases h; exact .loses i
  | queueFailure i =>
    exact turn_of_withSession
      (fun s _ => ⟨{ s with failureQueued := true }, .queues rfl, .refl, .rest rfl rfl, rfl⟩) h
  | failureWork i => exact turn_of_withLock (fun _ _ => failureWork_turn) h
  | controlDeadline i => exact turn_of_withLock (fun s hs => controlDeadline_turn hs answer) h
  | deadlinePassed i => exact turn_of_withLock (fun _ _ => deadlinePassed_turn) h
  | helloWork i => exact turn_of_withLock (fun s hs => helloWork_turn hs) h
  | heartbeatWork i => exact turn_of_withLock (fun s hs => heartbeatWork_turn hs answer) h
  | receiveWork i message => exact turn_of_withLock (fun _ _ => receive_turn answer message) h
  | releaseWork i =>
    obtain ⟨s, hs, h⟩ := Option.bind_eq_some_iff.mp h
    split at h
    · cases h
    · exact (waitCall_turn (s := s) (t := s.lock) rfl rfl rfl h).moves hs
  | evictionWait i deadline =>
    obtain ⟨s, hs, h⟩ := Option.bind_eq_some_iff.mp h
    exact (waitCall_turn (s := s) rfl rfl rfl h).moves hs
  | evictionWaited i status => exact turn_of_withSession (fun s hs => evictionWaited_turn hs status) h
  | awaitSlot i p =>
    obtain ⟨s, hs, h⟩ := Option.bind_eq_some_iff.mp h
    exact (awaitSlot_turn hs h).moves hs
  | post i p => exact turn_of_withSession (fun _ _ => post_turn answer p) h
  | lostReady i => exact turn_of_withSession (fun _ _ => lostReady_turn) h
  | markedReady i =>
    refine marks_of_withSession (.inl rfl) (fun s => ?_) h
    rw [scheduleNextSession_frame]
    rfl
  | statusReady i =>
    refine marks_of_withSession (.inr rfl) (fun s => ?_) h
    rw [scheduleNextSession_frame]
    rfl
  | unlock i =>
    exact turn_of_withSession
      (fun s _ => ⟨s.unlock, .same rfl rfl rfl, .refl, .rest rfl rfl, rfl⟩) h
  | repost i =>
    refine turn_of_withSession (fun s hs => stay_turn hs (.same rfl rfl ?_) (.rest ?_ rfl)) h
    · split <;> rfl
    · split <;> rfl
  | reservationWork => cases h; exact reservationWork_moves answer
  | reserve i mapping => exact turn_of_withLock (fun s hs => reserve_turn hs mapping) h
  | queueReservation => cases h; exact .flags rfl (.inr (.inl rfl)) rfl
  | reservedSessions => cases h; exact .reservedSessions
  | reserved => cases h; exact .reserved
  | reservationFailed e => cases h; exact .abandons e
  | failSessions k e =>
    simp only [Fabric.perform] at h
    split at h
    · rename_i hk
      cases h
      exact .failsNext k e hk
    · rename_i hk
      cases h
      exact .failedAll k e hk
  | mappingWork => exact mappingWork_moves h
  | map i mapping => exact turn_of_withLock (fun _ _ => map_turn mapping) h
  | stopSessions k =>
    simp only [Fabric.perform] at h
    split at h
    · rename_i hk
      cases h
      exact .stopsNext k hk
    · rename_i hk
      cases h
      exact .stoppedAll k hk
  | stopSession i =>
    exact turn_of_withSession (fun s _ =>
      ⟨{ s with stopping := true }, .stops rfl, Calls.refl.providerFailed _, .rest rfl rfl, rfl⟩) h
  | stopControl i =>
    exact turn_of_withLock (fun _ _ => ⟨_, .stopsControl rfl, .refl, .rest rfl rfl, rfl⟩) h
  | destroySession i =>
    simp only [Fabric.perform] at h
    split at h
    · cases h
    · cases h
      exact .destroys i

/-- No instruction changes the mode of the fabric, how many sessions it plans, or whether it stops. -/
theorem Moves.fixed {next : List Instr} {f' : Fabric} (h : Moves f x next f') :
    f'.mode = f.mode ∧ f'.plannedCount = f.plannedCount ∧ f'.stopping = f.stopping := by
  cases h with
  | turn i s s' hi hm hw hq hf => rw [hf]; exact ⟨rfl, rfl, rfl⟩
  | marks i s hx hi hf => rw [hf, scheduleNextSession_frame]; exact ⟨rfl, rfl, rfl⟩
  | refreshes => rw [refresh_frame]; exact ⟨rfl, rfl, rfl⟩
  | recovers => rw [scheduleNextSession_frame]; exact ⟨rfl, rfl, rfl⟩
  | loses i =>
    unfold Fabric.markRemoteLost
    split <;> exact ⟨rfl, rfl, rfl⟩
  | flags hx hq hf | asks hx hn hq hw hf | completes hl hs hm hp hw hf
  | unstarted hs hn h hw hq hf => rw [hf]; exact ⟨rfl, rfl, rfl⟩
  | _ => exact ⟨rfl, rfl, rfl⟩

theorem Moves.remoteOnly_eq {next : List Instr} {f' : Fabric} (h : Moves f x next f') :
    f'.remoteOnly = f.remoteOnly := by
  unfold Fabric.remoteOnly
  rw [h.fixed.1]

/-! ### Steps -/

/-- The instructions that come from outside a session. -/
def Instr.incoming : Instr → Bool
  | .fail _ _ | .receiveWork _ _ | .helloWork _ | .controlDeadline _ | .releaseWork _ => true
  | _ => false

/-- What a step that no thread makes does. -/
inductive Outside (f : Fabric) : Label → Fabric → Prop
  | starts (h : f.startQueued = true) :
      Outside f .start ({ f with startQueued := false }.spawn .startNext)
  | works {l f'} (x : Instr) (hx : x = .mappingWork ∨ x = .reservationWork)
      (hf : f' = { f with
        mappingQueued := f'.mappingQueued
        reservationQueued := f'.reservationQueued
        threads := f.threads ++ [[x]] }) : Outside f l f'
  | beats (i : ℕ) (s : Session) (hi : f.sessions i = some s) (hq : s.heartbeatQueued = true) :
      Outside f (.work i .heartbeat)
        ((f.setSession i { s with heartbeatQueued := false }).spawn (.heartbeatWork i))
  | downs (i : ℕ) (s : Session) (hi : f.sessions i = some s) (hq : s.failureQueued = true) :
      Outside f (.work i .failure)
        ((f.setSession i { s with failureQueued := false }).spawn (.failureWork i))
  | touches {l} (i : ℕ) (s s' : Session) (hi : f.sessions i = some s) (hc : s'.core = s.core) :
      Outside f l (f.setSession i s')
  | arrives {l} (i : ℕ) (s s' : Session) (x : Instr) (hi : f.sessions i = some s) (hc : s'.core = s.core)
      (hx : x.incoming = true) : Outside f l ((f.setSession i s').spawn x)
  | io {f'} (c : Call) (r : Reply) (hc : fromBlock c = true) (hw : f.world.call c = some (r, f'.world))
      (hf : f' = { f with world := f'.world }) : Outside f (.io c) f'
  | wants : Outside f .mappingNeeded { f with mappingQueued := true }
  | stops {f'} (hs : f.stopping = false) (hf : f' = { f with
        stopping := true
        connectionState := if f.remoteLost then .remoteLost else .notConnected
        startQueued := false
        mappingQueued := false
        reservationQueued := false
        threads := f.threads ++ [[.stopSessions 0]] }) : Outside f .stop f'

/-- A thread performs its next instruction. -/
structure Runs (f : Fabric) (k : ℕ) (answer : Answer) (x : Instr) (rest next : List Instr)
    (f₁ : Fabric) : Prop where
  head : f.threads[k]? = some (x :: rest)
  outcome : f.perform answer x = some (next, f₁)

theorem Runs.moves {k : ℕ} {rest next : List Instr} {f₁ : Fabric}
    (h : Runs f k answer x rest next f₁) : Moves f x next f₁ := perform_moves h.outcome

theorem take_outside {w : SessionWork} {s' : Session} (hs : f.sessions i = some s)
    (h : s.take w = some s') : Outside f (.work i w) ((f.setSession i s').spawn (w.instr i)) := by
  cases w <;> simp only [Session.take, Option.ite_none_right_eq_some, Option.some.injEq] at h <;>
    obtain ⟨hq, rfl⟩ := h
  case heartbeat => exact .beats i s hs hq
  case failure => exact .downs i s hs hq
  all_goals exact .arrives i s _ _ hs rfl rfl

/-- **Every step is an instruction of a thread or comes from outside.** -/
theorem step_cases {l : Label} {f' : Fabric} (h : f.step l = some f') :
    Outside f l f' ∨ ∃ k answer x rest next f₁, l = .run k answer ∧ Runs f k answer x rest next f₁ ∧
      f' = { f₁ with threads := f.threads.set k (next ++ rest) } := by
  have hself {j : ℕ} {r : Session} (hr : f.sessions j = some r) : f.setSession j r = f := by
    rw [Fabric.setSession, ← hr, Function.update_eq_self]
  cases l with
  | start =>
    obtain ⟨hq, rfl⟩ := (Option.ite_none_right_eq_some.mp h).imp_right Option.some.inj
    exact .inl (.starts hq)
  | mapping =>
    obtain ⟨-, rfl⟩ := (Option.ite_none_right_eq_some.mp h).imp_right Option.some.inj
    exact .inl (.works .mappingWork (.inl rfl) rfl)
  | reservation =>
    obtain ⟨-, rfl⟩ := (Option.ite_none_right_eq_some.mp h).imp_right Option.some.inj
    exact .inl (.works .reservationWork (.inr rfl) rfl)
  | work i w =>
    obtain ⟨s, hs, h⟩ := Option.bind_eq_some_iff.mp h
    obtain ⟨s', hs', rfl⟩ := Option.map_eq_some_iff.mp h
    exact .inl (take_outside hs hs')
  | established i =>
    obtain ⟨s, hs, h⟩ := Option.bind_eq_some_iff.mp h
    obtain ⟨-, rfl⟩ := (Option.ite_none_left_eq_some.mp h).imp_right Option.some.inj
    exact .inl (.touches i s _ hs rfl)
  | message i message =>
    obtain ⟨s, hs, h⟩ := Option.bind_eq_some_iff.mp h
    obtain ⟨-, rfl⟩ := (Option.ite_none_left_eq_some.mp h).imp_right Option.some.inj
    have harrive :=
      Outside.arrives (f := f) (l := .message i message) i s s (.receiveWork i message) hs rfl rfl
    rw [hself hs] at harrive
    exact .inl harrive
  | sendDone i failed =>
    obtain ⟨s, hs, h⟩ := Option.bind_eq_some_iff.mp h
    obtain ⟨-, rfl⟩ := (Option.ite_none_left_eq_some.mp h).imp_right Option.some.inj
    cases failed with
    | false => exact .inl (.touches i s { s with sendBusy := false } hs rfl)
    | true => exact .inl (.arrives i s { s with sendBusy := false } (.fail i .eio) hs rfl rfl)
  | fault i e =>
    obtain ⟨s, hs, rfl⟩ := Option.map_eq_some_iff.mp h
    have harrive := Outside.arrives (f := f) (l := .fault i e) i s s (.fail i e) hs rfl rfl
    rw [hself hs] at harrive
    exact .inl harrive
  | io c =>
    obtain ⟨hc, h⟩ := Option.ite_none_right_eq_some.mp h
    obtain ⟨r, hr, rfl⟩ := Option.map_eq_some_iff.mp h
    exact .inl (.io c r.1 hc hr rfl)
  | mappingNeeded =>
    obtain ⟨-, rfl⟩ := (Option.ite_none_left_eq_some.mp h).imp_right Option.some.inj
    exact .inl .wants
  | stop =>
    obtain ⟨hs, rfl⟩ := (Option.ite_none_left_eq_some.mp h).imp_right Option.some.inj
    exact .inl (.stops (Bool.eq_false_iff.mpr hs) rfl)
  | run k answer =>
    simp only [Fabric.step] at h
    split at h
    · rename_i x rest hhead
      obtain ⟨⟨next, f₁⟩, hr, rfl⟩ := Option.map_eq_some_iff.mp h
      exact .inr ⟨k, answer, x, rest, next, f₁, rfl, ⟨hhead, hr⟩, rfl⟩
    · cases h

/-! ### Conditions on a run -/

/-- The instruction a step performs, if it does, meets `P`. -/
def Performs (P : Fabric → Instr → Answer → Prop) (f : Fabric) : Label → Prop
  | .run k answer => ∀ x ∈ f.threads[k]?.bind List.head?, P f x answer
  | _ => True

instance {P : Fabric → Instr → Answer → Prop} [∀ f x a, Decidable (P f x a)] (f : Fabric) (l : Label) :
    Decidable (Performs P f l) :=
  match l with
  | .run k answer => inferInstanceAs (Decidable (∀ x ∈ f.threads[k]?.bind List.head?, P f x answer))
  | .start | .mapping | .reservation | .work _ _ | .established _ | .message _ _ | .sendDone _ _
  | .fault _ _ | .io _ | .mappingNeeded | .stop => isTrue trivial

/-- **The invariant rule for fabrics.** -/
theorem fabric_invariant {P : Fabric → Instr → Answer → Prop} {I : Fabric → Prop}
    (h0 : ∀ f, f.Started → I f)
    (hout : ∀ f l f', fabricSystem.Reach (Performs P) f → I f → Outside f l f' → I f')
    (hrun : ∀ f k answer x rest next f₁, fabricSystem.Reach (Performs P) f → I f → P f x answer →
      Runs f k answer x rest next f₁ → I { f₁ with threads := f.threads.set k (next ++ rest) }) :
    ∀ {f}, fabricSystem.Reach (Performs P) f → I f := by
  refine System.Reach.invariant h0 fun f l f' hr hI hP hstep => ?_
  rcases step_cases hstep with h | ⟨k, answer, x, rest, next, f₁, rfl, h, rfl⟩
  · exact hout f l f' hr hI h
  · refine hrun f k answer x rest next f₁ hr hI (hP x ?_) h
    rw [h.head]
    rfl

end Control
end Infiniswap
