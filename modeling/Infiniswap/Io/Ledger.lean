/-
# The ledger of a transaction

While a transaction is open, what its flags say is spread over the threads and
the adapters: the Backing Store claim is held by the one submission or result
that is pending or owed, the RDMA claims likewise, the active events are the
handlers that have yet to finish, and a request is complete when its completion
is logged or about to be. Each of these is a law of one shape: what is owed and
what is pending add up to a flag, and every instruction keeps the sum.
-/
import Infiniswap.Io.Transaction

namespace Infiniswap
namespace Io

open Threads Transition IoPolicy

/-! ### Weights -/

namespace Instr

/-- The instruction ends the handler it stands for. -/
def finishes : Instr → ℕ
  | .finishEvent _ => 1
  | _ => 0

/-- The instruction stands for the Backing Store path. -/
def backs : Instr → ℕ
  | .submitBacking | .backingCompleted _ => 1
  | _ => 0

/-- The instruction stands for the result of the RDMA path. -/
def answers : Instr → ℕ
  | .submitRdma | .rdmaCompleted _ _ _ => 1
  | _ => 0

/-- The instruction stands for the release of the RDMA path. -/
def frees : Instr → ℕ
  | .submitRdma | .rdmaReleased _ => 1
  | _ => 0

def completes : Instr → ℕ
  | .complete _ => 1
  | _ => 0

def marks : Instr → ℕ
  | .markLocalOnly => 1
  | _ => 0

def degrades : Instr → ℕ
  | .backingDegraded => 1
  | _ => 0

def submits : Instr → ℕ
  | .submitBacking => 1
  | _ => 0

/-- What may be pending while the transaction is open: an event of another generation is not delivered. -/
def Inner (generation : ℕ) : Instr → Prop
  | .submitBacking | .submitRdma | .backingCompleted _ | .backingDegraded | .markLocalOnly | .complete _
  | .finishEvent _ => True
  | .rdmaCompleted g _ _ | .rdmaReleased g => g = generation
  | _ => False

end Instr

open Instr

theorem applyAction_sum (f : Instr → ℕ) {c : ℕ} (hf : ∀ st, f (.complete st) = c) (a : IoAction)
    (st : Option Errno) : ((applyAction a st).map f).sum = f .backingDegraded * a.backingDegraded.toNat +
      f .markLocalOnly * a.markLocalOnly.toNat + f .submitBacking * a.submitLocal.toNat +
      c * (a.completeSuccess || a.completeError).toNat := by
  unfold applyAction
  cases a.backingDegraded <;> cases a.markLocalOnly <;> cases a.submitLocal <;>
    cases a.completeSuccess <;> cases a.completeError <;> simp [hf] <;> omega

theorem applyAction_inner (a : IoAction) (st : Option Errno) (g : ℕ) :
    ∀ i ∈ applyAction a st, i.Inner g := by
  intro i hi
  simp only [applyAction, List.mem_append, List.mem_ite_nil_right, List.mem_singleton] at hi
  rcases hi with ((⟨-, rfl⟩ | ⟨-, rfl⟩) | ⟨-, rfl⟩) | hi
  · trivial
  · trivial
  · trivial
  · split_ifs at hi
    · rw [List.mem_singleton.mp hi]; trivial
    · rw [List.mem_singleton.mp hi]; trivial
    · cases hi

theorem mem_applyAction_complete {a : IoAction} {st st' : Option Errno} :
    .complete st' ∈ applyAction a st ↔ a.completeSuccess = true ∧ st' = none ∨
      a.completeSuccess = false ∧ a.completeError = true ∧ st' = st := by
  unfold applyAction
  cases a.backingDegraded <;> cases a.markLocalOnly <;> cases a.submitLocal <;>
    cases a.completeSuccess <;> cases a.completeError <;> simp

/-! ### Results in the log -/

namespace Event

def completes : Event → Bool
  | .complete _ => true
  | _ => false

/-- The event is a call that ends the transaction, or a violation. -/
def closes : Event → Bool
  | .release | .settle | .invariant _ => true
  | _ => false

end Event

/-- The result of the last attempt of the Backing Store path. -/
def lastBacking : List Event → Option (Option Errno)
  | [] => none
  | .backingResult status :: _ => some status
  | _ :: log => lastBacking log

/-- The result of the RDMA path. -/
def rdmaResult : List Event → Option (Option Errno)
  | [] => none
  | .rdmaResult status :: _ => some status
  | _ :: log => rdmaResult log

/-! ### An open transaction -/

/-- The threads of an open transaction: done, entered by an adapter, or with a handler left to finish. -/
inductive Shape : List Instr → Prop
  | done : Shape []
  | backing (status : Option Errno) : Shape [.backingCompleted status]
  | rdma (generation : ℕ) (status : Option Errno) (cancelled : Bool) :
      Shape [.rdmaCompleted generation status cancelled]
  | transport (generation : ℕ) : Shape [.rdmaReleased generation]
  | working (work : List Instr) (event : EngineEvent) : Shape (work ++ [.finishEvent event])

/-- The pending instructions, weighed. -/
def State.weigh (s : State) (f : Instr → ℕ) : ℕ := ((pending s.threads).map f).sum

/-- The policy of a write that has a Backing Store copy. -/
def backedWrite (kind : PolicyKind) : Bool := kind = .strictWrite || kind = .remoteFirstWrite

/-- How often the Backing Store path has been submitted, or is about to be. -/
def Transaction.attempts (t : Transaction) : ℕ :=
  (backedWrite t.policy.kind).toNat + t.backingRetries +
    (decide (t.policy.kind = .remoteRead) && t.policy.remoteDone && t.policy.remoteStatus.isSome).toNat

/-- **The ledger of an open transaction.** -/
structure Live (s : State) (t : Transaction) : Prop where
  transaction : s.transaction = some t
  kind : t.policy.kind = policyKind s.engine.mode s.spec.direction
  generation : t.policy.generation = s.spec.generation
  policy : t.policy.Ok
  settling : t.settling = false
  unreported : t.invariantReported = false
  threads : ∀ th ∈ s.threads, Shape th
  inner : ∀ i ∈ pending s.threads, i.Inner s.spec.generation
  backingClaim : t.backingClaim = t.policy.localPending
  resultClaim : t.rdmaResultClaim = t.policy.remotePending
  events : s.weigh finishes = t.activeEvents
  backing : s.backingOwed + s.weigh backs = t.backingClaim.toNat
  result : s.resultOwed + s.weigh answers = t.rdmaResultClaim.toNat
  release : s.releaseOwed + s.weigh frees = t.rdmaTransportClaim.toNat
  awake : t.activeEvents ≠ 0 ∨ t.backingClaim = true ∨ t.rdmaResultClaim = true ∨
    t.rdmaTransportClaim = true
  completed : s.log.countP Event.completes + s.weigh completes = t.policy.requestComplete.toNat
  marked : s.log.count .markLocalOnly + s.weigh marks = t.policy.localOnly.toNat
  degraded : s.log.count .backingDegraded + s.weigh degrades = t.policy.failedLocally.toNat
  attempted : s.log.count .submitBacking + s.weigh submits = t.attempts
  retries : t.backingRetries ≤ 1
  retried : t.backingRetries ≠ 0 → t.policy.kind = .remoteFirstWrite
  status : ∀ st, .complete st ∈ s.log ∨ .complete st ∈ pending s.threads → st.isNone = t.policy.acked
  rdma : rdmaResult s.log = if t.policy.remoteDone then some t.policy.remoteStatus else none
  taken : t.policy.localDone = true → lastBacking s.log = some t.policy.localStatus
  untried : t.policy.localDone = false → t.policy.kind ≠ .remoteFirstWrite → lastBacking s.log = none
  succeeded : .backingResult none ∈ s.log → t.policy.localDone = true ∧ t.policy.localStatus = none
  exhausted : t.policy.kind = .remoteFirstWrite → t.policy.failedLocally = true → t.backingRetries = 1
  submitted : backedWrite t.policy.kind = true → .submitBacking ∈ s.log
  prepared : .prepare ∈ s.log
  quiet : ∀ e ∈ s.log, e.closes = false
  counted : s.engine.activeTransactions = s.others + 1

/-! ### What an instruction does to an open transaction -/

/-- The results of the Backing Store path alone change, to `status`. -/
structure TakesLocal (p p' : IoPolicy) (status : Option Errno) : Prop where
  pending : p.localPending = true
  done : p'.localDone = true
  result : p'.localStatus = status
  ended : p'.localPending = false
  remoteDone : p'.remoteDone = p.remoteDone
  remoteStatus : p'.remoteStatus = p.remoteStatus
  remotePending : p'.remotePending = p.remotePending

/-- The results of the RDMA path alone change, to `status`. -/
structure TakesRemote (p p' : IoPolicy) (status : Option Errno) : Prop where
  pending : p.remotePending = true
  before : p.remoteDone = false
  done : p'.remoteDone = true
  result : p'.remoteStatus = status
  ended : p'.remotePending = false
  localDone : p'.localDone = p.localDone
  localStatus : p'.localStatus = p.localStatus
  localPending : p'.localPending = (p.localPending || (decide (p.kind = .remoteRead) && status.isSome))

/-- One instruction of an open transaction: what it turns into, the state and the transaction after it. -/
inductive Moves (s : State) (t : Transaction) : Instr → List Instr → State → Transaction → Prop
  | submitted :
      Moves s t .submitBacking [] { s.note .submitBacking with backingOwed := s.backingOwed + 1 } t
  | submitFailed (e : Errno) :
      Moves s t .submitBacking [.backingCompleted (some e)] (s.note .submitBacking) t
  | posted : Moves s t .submitRdma [] { s.note .submitRdma with
      resultOwed := s.resultOwed + 1, releaseOwed := s.releaseOwed + 1 } t
  | postFailed (e : Errno) : Moves s t .submitRdma (failRdmaSubmission s.spec e) (s.note .submitRdma) t
  | retried (e : Errno) (hk : t.policy.kind = .remoteFirstWrite) (hr : t.backingRetries = 0)
      (hl : t.policy.localPending = true) (hd : t.policy.localDone = false) :
      Moves s t (.backingCompleted (some e)) [.submitBacking, .finishEvent .backingCompleted]
        { s.note (.backingResult (some e)) with
          transaction := some { t.beginEvent with backingRetries := 1 } }
        { t.beginEvent with backingRetries := 1 }
  | backed {status p a} (hd : Decides t.policy p a)
      (hp : TakesLocal t.policy p status) (hs : a.submitLocal = false)
      (hf : t.policy.kind = .remoteFirstWrite → status.isSome = true → t.backingRetries = 1) :
      Moves s t (.backingCompleted status)
        (applyAction a p.finalStatus ++ [.finishEvent .backingCompleted])
        { s.note (.backingResult status) with
          transaction := some { t.beginEvent with policy := p, backingClaim := false } }
        { t.beginEvent with policy := p, backingClaim := false }
  | answered {g status cancelled p a}
      (hd : Decides t.policy p a) (hp : TakesRemote t.policy p status)
      (hs : a.submitLocal = (decide (t.policy.kind = .remoteRead) && status.isSome))
      (hl : a.submitLocal = true → t.policy.localPending = false) :
      Moves s t (.rdmaCompleted g status cancelled)
        (applyAction a p.finalStatus ++ [.finishEvent .rdmaCompleted])
        { s.note (.rdmaResult status) with
          transaction := some { t.beginEvent with
            policy := p, backingClaim := p.localPending, rdmaResultClaim := false } }
        { t.beginEvent with policy := p, backingClaim := p.localPending, rdmaResultClaim := false }
  | freed {g} (hc : t.rdmaTransportClaim = true) :
      Moves s t (.rdmaReleased g) [.finishEvent .rdmaReleased]
      { s with transaction := some { t.beginEvent with rdmaTransportClaim := false } }
      { t.beginEvent with rdmaTransportClaim := false }
  | degraded : Moves s t .backingDegraded [] (s.note .backingDegraded) t
  | marked : Moves s t .markLocalOnly [] (s.note .markLocalOnly) t
  | completed (status : Option Errno) : Moves s t (.complete status) [] (s.note (.complete status)) t
  | finished {event} (hpos : t.activeEvents ≠ 0)
      (hbusy : t.activeEvents - 1 ≠ 0 ∨ t.backingClaim = true ∨ t.rdmaResultClaim = true ∨
        t.rdmaTransportClaim = true) :
      Moves s t (.finishEvent event) []
        { s with transaction := some { t with activeEvents := t.activeEvents - 1 } }
        { t with activeEvents := t.activeEvents - 1 }

theorem localComplete_takes {p : IoPolicy} (h : p.Ok) (hl : p.localPending = true)
    (status : Option Errno) : TakesLocal p (p.localComplete status).2 status := by
  rw [(localComplete_answers h hl status).state]
  exact ⟨hl, rfl, rfl, rfl, rfl, rfl, rfl⟩

theorem remoteEvent_takes {p : IoPolicy} (h : p.Ok) (hr : p.remotePending = true) (cancelled : Bool)
    (status : Option Errno) : TakesRemote p (p.remoteEvent cancelled p.generation status).2 status := by
  rw [(remoteEvent_answers h hr cancelled status).state]
  exact ⟨hr, (h.remoteDone_eq_false hr).1, rfl, rfl, rfl, rfl, rfl, rfl⟩

variable {s s' : State} {t t' : Transaction} {x : Instr} {new : List Instr} {i : ℕ} {rest : List Instr}

theorem claim_of_mem {owed : ℕ} {claim : Bool} {f : Instr → ℕ} (hsum : owed + s.weigh f = claim.toNat)
    (hx : x ∈ pending s.threads) (hf : f x = 1) : claim = true := by
  have hle := le_sum_of_mem hx f
  unfold State.weigh at hsum
  cases claim
  · rw [Bool.toNat_false] at hsum
    omega
  · rfl

theorem Live.localPending (h : Live s t) (hx : x ∈ pending s.threads) (hb : x.backs = 1) :
    t.policy.localPending = true := by
  rw [← h.backingClaim]
  exact claim_of_mem h.backing hx hb

theorem Live.remotePending (h : Live s t) (hx : x ∈ pending s.threads) (ha : x.answers = 1) :
    t.policy.remotePending = true := by
  rw [← h.resultClaim]
  exact claim_of_mem h.result hx ha

/-- A read falls back once its RDMA path failed, not before. -/
theorem Live.no_fallback (h : Live s t) (hr : t.policy.remotePending = true)
    (hk : t.policy.kind = .remoteRead) : t.policy.localPending = false := by
  rw [h.policy.localPending, hk]
  simp [(h.policy.remoteDone_eq_false hr).1]

theorem policyKind_remoteFirstWrite {mode : EngineMode} {direction : Direction} :
    policyKind mode direction = .remoteFirstWrite ↔ mode = .backedRemoteFirst ∧ direction = .write := by
  cases mode <;> cases direction <;> simp [policyKind]

theorem Live.backingCompleted (h : Live s t) (status : Option Errno)
    (hx : .backingCompleted status ∈ pending s.threads) : ∃ t',
      (t.backingCompleted s.engine.mode s.spec status).2 = t' ∧
      Moves s t (.backingCompleted status) (t.backingCompleted s.engine.mode s.spec status).1
        { s.note (.backingResult status) with transaction := some t' } t' := by
  have hl := h.localPending hx rfl
  refine ⟨_, rfl, ?_⟩
  unfold Transaction.backingCompleted
  dsimp only [Transaction.beginEvent]
  rw [if_neg (by simp [h.backingClaim, hl])]
  split_ifs with hretry
  · obtain ⟨hs, hm, hdir, hr⟩ := hretry
    obtain ⟨e, rfl⟩ := Option.isSome_iff_exists.mp hs
    have hk : t.policy.kind = .remoteFirstWrite :=
      h.kind.trans (policyKind_remoteFirstWrite.mpr ⟨hm, hdir⟩)
    have hmove := Moves.retried (s := s) e hk hr hl (h.policy.waits hl).1
    rw [Transaction.beginEvent] at hmove
    rw [hr]
    exact hmove
  · refine .backed (localComplete_decides h.policy hl status) (localComplete_takes h.policy hl status)
      (localComplete_submitLocal _ _) fun hk hs => ?_
    obtain ⟨hm, hdir⟩ := policyKind_remoteFirstWrite.mp (h.kind.symm.trans hk)
    have hne : t.backingRetries ≠ 0 := fun hr => hretry ⟨hs, hm, hdir, hr⟩
    have hle := h.retries
    omega

/-- The locked section of the RDMA result, in an open transaction: the fallback of a failed read takes the
Backing Store claim. -/
theorem Live.rdmaCompleted_eq (h : Live s t) (hr : t.policy.remotePending = true) (status : Option Errno)
    (cancelled : Bool) : t.rdmaCompleted s.spec t.policy.generation status cancelled =
      let r := t.policy.remoteEvent cancelled t.policy.generation status
      (applyAction r.1 r.2.finalStatus ++ [.finishEvent .rdmaCompleted],
        { t.beginEvent with
          policy := r.2, backingClaim := r.2.localPending, rdmaResultClaim := false }) := by
  have hact := (remoteEvent_action h.policy hr cancelled status).2
  have htakes := (remoteEvent_takes h.policy hr cancelled status).localPending
  unfold Transaction.rdmaCompleted
  dsimp only [Transaction.beginEvent]
  rw [if_neg (by simp [h.generation]), if_neg (by simp [h.resultClaim, hr]), hact, htakes]
  cases hsub : decide (t.policy.kind = .remoteRead) && status.isSome
  · simp [h.backingClaim, reportIf, Transaction.completionStatus, finalStatus]
  · have hk : t.policy.kind = .remoteRead := by
      rw [Bool.and_eq_true, decide_eq_true_eq] at hsub
      exact hsub.1
    simp [h.backingClaim, h.no_fallback hr hk, reportIf, Transaction.completionStatus, finalStatus]

theorem Live.rdmaCompleted (h : Live s t) {g : ℕ} (status : Option Errno) (cancelled : Bool)
    (hx : .rdmaCompleted g status cancelled ∈ pending s.threads) : ∃ t',
      (t.rdmaCompleted s.spec g status cancelled).2 = t' ∧
      Moves s t (.rdmaCompleted g status cancelled) (t.rdmaCompleted s.spec g status cancelled).1
        { s.note (.rdmaResult status) with transaction := some t' } t' := by
  have hg : g = t.policy.generation := (h.inner _ hx).trans h.generation.symm
  have hr := h.remotePending hx rfl
  have hact := (remoteEvent_action h.policy hr cancelled status).2
  refine ⟨_, rfl, ?_⟩
  rw [hg, h.rdmaCompleted_eq hr]
  refine .answered (remoteEvent_decides h.policy hr cancelled status)
    (remoteEvent_takes h.policy hr cancelled status) hact fun hsub => ?_
  rw [hact, Bool.and_eq_true, decide_eq_true_eq] at hsub
  exact h.no_fallback hr hsub.1

theorem Live.finishEvent (h : Live s t) {event : EngineEvent}
    (hx : .finishEvent event ∈ pending s.threads) :
    (∃ t', t.finishEvent event = ([], t') ∧
      Moves s t (.finishEvent event) [] { s with transaction := some t' } t') ∨
      t.activeEvents = 1 ∧ t.backingClaim = false ∧ t.rdmaResultClaim = false ∧
        t.rdmaTransportClaim = false ∧
        t.policy.requestComplete = true ∧
        t.finishEvent event =
          ([.release, .unregister, .settle], { t with activeEvents := 0, settling := true }) := by
  have hle := le_sum_of_mem hx finishes
  have hpos : t.activeEvents ≠ 0 := by
    have hev := h.events
    unfold State.weigh at hev
    have hone : (Instr.finishEvent event).finishes = 1 := rfl
    omega
  unfold Transaction.finishEvent
  dsimp only
  by_cases hidle : t.activeEvents - 1 = 0 ∧ t.backingClaim = false ∧ t.rdmaResultClaim = false ∧
      t.rdmaTransportClaim = false
  · obtain ⟨he, hb, hr, hf⟩ := hidle
    have hl : t.policy.localPending = false := h.backingClaim ▸ hb
    have hrp : t.policy.remotePending = false := h.resultClaim ▸ hr
    have hc : t.policy.requestComplete = true := h.policy.complete_of_idle hl hrp
    have hrel : t.policy.releasable = true := by simp [releasable, hc, hl, hrp]
    right
    rw [if_pos ⟨he, hb, hr, hf, h.settling⟩, if_neg (by simp [hrel]), he]
    exact ⟨by omega, hb, hr, hf, hc, rfl⟩
  · left
    refine ⟨_, if_neg fun hc => hidle ⟨hc.1, hc.2.1, hc.2.2.1, hc.2.2.2.1⟩, .finished hpos ?_⟩
    by_contra hno
    push Not at hno
    exact hidle ⟨hno.1, by simpa using hno.2.1, by simpa using hno.2.2.1, by simpa using hno.2.2.2⟩

/-- **What an instruction of an open transaction does**: one of the moves, or the end of the
transaction. -/
theorem Live.perform (h : Live s t) (hx : x ∈ pending s.threads) {answer : Answer}
    (hp : s.perform x answer = some (new, s')) : (∃ t', Moves s t x new s' t') ∨
      ∃ event, x = .finishEvent event ∧ new = [.release, .unregister, .settle] ∧ t.activeEvents = 1 ∧
        t.backingClaim = false ∧ t.rdmaResultClaim = false ∧ t.rdmaTransportClaim = false ∧
        t.policy.requestComplete = true ∧
        s' = { s with transaction := some { t with activeEvents := 0, settling := true } } := by
  have hin := h.inner x hx
  unfold State.perform at hp
  rw [h.transaction] at hp
  cases x with
  | submitBacking =>
    dsimp only at hp
    split at hp <;> cases hp
    · exact .inl ⟨t, .submitFailed _⟩
    · exact .inl ⟨t, .submitted⟩
  | submitRdma =>
    dsimp only at hp
    split at hp <;> cases hp
    · exact .inl ⟨t, .postFailed _⟩
    · exact .inl ⟨t, .posted⟩
  | backingCompleted status =>
    obtain ⟨t', he, hm⟩ := h.backingCompleted status hx
    dsimp only [Option.map_some] at hp
    cases hp
    rw [he]
    exact .inl ⟨t', hm⟩
  | rdmaCompleted g status cancelled =>
    obtain ⟨t', he, hm⟩ := h.rdmaCompleted status cancelled hx
    dsimp only [Option.map_some] at hp
    cases hp
    rw [he]
    exact .inl ⟨t', hm⟩
  | rdmaReleased g =>
    have hg : g = s.spec.generation := hin
    have hc := claim_of_mem h.release hx rfl
    have hrel : t.rdmaReleased s.spec g =
        ([.finishEvent .rdmaReleased], { t.beginEvent with rdmaTransportClaim := false }) := by
      unfold Transaction.rdmaReleased
      dsimp only [Transaction.beginEvent]
      rw [if_neg (by simp [hg]), if_neg (by simp [hc])]
    dsimp only [Option.map_some] at hp
    rw [hrel] at hp
    cases hp
    exact .inl ⟨_, .freed hc⟩
  | finishEvent event =>
    dsimp only [Option.map_some] at hp
    rcases h.finishEvent hx with ⟨t', he, hm⟩ | ⟨h1, hb, hr, hf, hc, he⟩ <;> rw [he] at hp <;> cases hp
    · exact .inl ⟨t', hm⟩
    · exact .inr ⟨event, rfl, rfl, h1, hb, hr, hf, hc, rfl⟩
  | backingDegraded => cases hp; exact .inl ⟨t, .degraded⟩
  | markLocalOnly => cases hp; exact .inl ⟨t, .marked⟩
  | complete status => cases hp; exact .inl ⟨t, .completed status⟩
  | _ => exact hin.elim

/-! ### Every move keeps the ledger -/

section

variable (hm : Moves s t x new s' t')

include hm

theorem Moves.frame (ht : s.transaction = some t) :
    s'.transaction = some t' ∧ s'.threads = s.threads ∧ s'.spec = s.spec ∧ s'.engine = s.engine ∧
      s'.others = s.others := by
  cases hm <;> exact ⟨by first | rfl | exact ht, rfl, rfl, rfl, rfl⟩

theorem Moves.settling :
    t'.settling = t.settling ∧ t'.invariantReported = t.invariantReported := by
  cases hm <;> exact ⟨rfl, rfl⟩

theorem Moves.policy (h : Live s t) :
    t'.policy.Ok ∧ t'.policy.kind = t.policy.kind ∧ t'.policy.generation = t.policy.generation ∧
      t'.backingClaim = t'.policy.localPending ∧ t'.rdmaResultClaim = t'.policy.remotePending := by
  cases hm with
  | backed hd hp =>
    exact ⟨hd.ok, hd.kind, hd.generation, hp.ended.symm, h.resultClaim.trans hp.remotePending.symm⟩
  | answered hd hp => exact ⟨hd.ok, hd.kind, hd.generation, rfl, hp.ended.symm⟩
  | _ => exact ⟨h.policy, rfl, rfl, h.backingClaim, h.resultClaim⟩

theorem Moves.inner : ∀ y ∈ new, y.Inner s.spec.generation := by
  intro y hy
  cases hm with
  | submitFailed => rw [List.mem_singleton.mp hy]; trivial
  | postFailed =>
    rcases List.mem_cons.mp hy with rfl | hy
    · rfl
    · rw [List.mem_singleton.mp hy]; rfl
  | retried =>
    rcases List.mem_cons.mp hy with rfl | hy
    · trivial
    · rw [List.mem_singleton.mp hy]; trivial
  | backed | answered =>
    rcases List.mem_append.mp hy with hy | hy
    · exact applyAction_inner _ _ _ y hy
    · rw [List.mem_singleton.mp hy]; trivial
  | freed => rw [List.mem_singleton.mp hy]; trivial
  | _ => cases hy

theorem Moves.law_events :
    (new.map finishes).sum + t.activeEvents = t'.activeEvents + x.finishes := by
  have happly := applyAction_sum finishes (fun _ => rfl)
  cases hm with
  | backed | answered =>
    rw [List.map_append, List.sum_append, happly]
    simp [Instr.finishes, Transaction.beginEvent]
    omega
  | finished hpos =>
    simp [Instr.finishes]
    omega
  | _ => simp [Instr.finishes, failRdmaSubmission, Transaction.beginEvent] <;> omega

theorem Moves.law_backing (h : Live s t) :
    s'.backingOwed + (new.map backs).sum + t.backingClaim.toNat =
      s.backingOwed + x.backs + t'.backingClaim.toNat := by
  have happly := applyAction_sum backs (fun _ => rfl)
  cases hm with
  | backed hd hp hs =>
    rw [List.map_append, List.sum_append, happly, hs, h.backingClaim, hp.pending]
    simp [Instr.backs, State.note]
  | @answered _ _ _ _ a hd hp hs hl =>
    rw [List.map_append, List.sum_append, happly, h.backingClaim, hp.localPending, ← hs]
    cases hsub : a.submitLocal
    · simp [Instr.backs, State.note]
    · simp [Instr.backs, State.note, hl hsub]
  | _ => simp [Instr.backs, failRdmaSubmission, Transaction.beginEvent, State.note]

theorem Moves.law_result (h : Live s t) :
    s'.resultOwed + (new.map answers).sum + t.rdmaResultClaim.toNat =
      s.resultOwed + x.answers + t'.rdmaResultClaim.toNat := by
  have happly := applyAction_sum answers (fun _ => rfl)
  cases hm with
  | backed =>
    rw [List.map_append, List.sum_append, happly]
    simp [Instr.answers, State.note, Transaction.beginEvent]
  | answered hd hp =>
    rw [List.map_append, List.sum_append, happly, h.resultClaim, hp.pending]
    simp [Instr.answers, State.note]
  | _ => simp [Instr.answers, failRdmaSubmission, Transaction.beginEvent, State.note]

theorem Moves.law_release :
    s'.releaseOwed + (new.map frees).sum + t.rdmaTransportClaim.toNat =
      s.releaseOwed + x.frees + t'.rdmaTransportClaim.toNat := by
  have happly := applyAction_sum frees (fun _ => rfl)
  cases hm with
  | backed | answered =>
    rw [List.map_append, List.sum_append, happly]
    simp [Instr.frees, State.note, Transaction.beginEvent]
  | freed hc =>
    rw [hc]
    simp [Instr.frees]
  | _ => simp [Instr.frees, failRdmaSubmission, Transaction.beginEvent, State.note]

/-- The completion of the request, the mark of a Backing Store copy that is the only one, and the
report of a failed Backing Store. -/
theorem Moves.law_calls :
    s'.log.countP Event.completes + (new.map completes).sum + t.policy.requestComplete.toNat =
      s.log.countP Event.completes + x.completes + t'.policy.requestComplete.toNat ∧
    s'.log.count .markLocalOnly + (new.map marks).sum + t.policy.localOnly.toNat =
      s.log.count .markLocalOnly + x.marks + t'.policy.localOnly.toNat ∧
    s'.log.count .backingDegraded + (new.map degrades).sum + t.policy.failedLocally.toNat =
      s.log.count .backingDegraded + x.degrades + t'.policy.failedLocally.toNat := by
  cases hm with
  | backed hd | answered hd =>
    have hc := hd.completes
    have hk := hd.marks
    have hg := hd.degrades
    simp [applyAction_sum completes (fun _ => rfl), applyAction_sum marks (fun _ => rfl),
      applyAction_sum degrades (fun _ => rfl), Instr.completes, Instr.marks, Instr.degrades,
      State.note, Event.completes]
    omega
  | _ =>
    simp [Instr.completes, Instr.marks, Instr.degrades, Event.completes, List.countP_cons,
      failRdmaSubmission, Transaction.beginEvent, State.note]

theorem Moves.law_attempted :
    s'.log.count .submitBacking + (new.map submits).sum + t.attempts =
      s.log.count .submitBacking + x.submits + t'.attempts := by
  have happly := applyAction_sum submits (fun _ => rfl)
  cases hm with
  | backed hd hp hs =>
    rw [List.map_append, List.sum_append, happly, hs]
    simp [Instr.submits, State.note, Transaction.attempts, Transaction.beginEvent, hd.kind, hp.remoteDone,
      hp.remoteStatus]
  | answered hd hp hs =>
    rw [List.map_append, List.sum_append, happly, hs]
    simp [Instr.submits, State.note, Transaction.attempts, Transaction.beginEvent, hd.kind,
      hp.before, hp.done, hp.result]
    omega
  | retried _ _ hr =>
    simp [Instr.submits, State.note, Transaction.attempts, Transaction.beginEvent, hr]
    omega
  | freed | finished => rfl
  | _ => simp [Instr.submits, failRdmaSubmission, State.note]

end

theorem Shape.tail (h : Shape (x :: rest)) :
    rest = [] ∨
    ∃ (work : List Instr) (event : EngineEvent), rest = work ++ [Instr.finishEvent event] := by
  generalize hl : x :: rest = l at h
  cases h with
  | done => cases hl
  | backing | rdma | transport => exact .inl (List.cons.inj hl).2
  | working work event =>
    cases work with
    | nil => exact .inl (List.cons.inj hl).2
    | cons y ys => exact .inr ⟨ys, event, (List.cons.inj hl).2⟩

/-- An instruction alone on its thread is the entry of a handler or its end. -/
theorem Shape.alone (h : Shape [x]) : (∃ status, x = .backingCompleted status) ∨
    (∃ g status cancelled, x = .rdmaCompleted g status cancelled) ∨ (∃ g, x = .rdmaReleased g) ∨
      ∃ event, x = .finishEvent event := by
  generalize hl : [x] = l at h
  cases h with
  | done => cases hl
  | backing status => exact .inl ⟨status, (List.cons.inj hl).1⟩
  | rdma g status cancelled => exact .inr (.inl ⟨g, status, cancelled, (List.cons.inj hl).1⟩)
  | transport g => exact .inr (.inr (.inl ⟨g, (List.cons.inj hl).1⟩))
  | working work event =>
    cases work with
    | nil => exact .inr (.inr (.inr ⟨event, (List.cons.inj hl).1⟩))
    | cons y ys =>
      have hlen := congrArg List.length hl
      simp at hlen

theorem Moves.shape (hm : Moves s t x new s' t') (h : Shape (x :: rest)) : Shape (new ++ rest) := by
  rcases h.tail with rfl | ⟨work, event, rfl⟩
  · rw [List.append_nil]
    rcases h.alone with ⟨status, rfl⟩ | ⟨g, status, cancelled, rfl⟩ | ⟨g, rfl⟩ | ⟨event, rfl⟩
    · cases hm with
      | retried e => exact .working [.submitBacking] _
      | backed => exact .working _ _
    · cases hm with
      | answered => exact .working _ _
    · cases hm with
      | freed => exact .working [] _
    · cases hm with
      | finished => exact .done
  · rw [← List.append_assoc]
    exact .working _ _

theorem Moves.awake (hm : Moves s t x new s' t') (h : Live s t) :
    t'.activeEvents ≠ 0 ∨ t'.backingClaim = true ∨ t'.rdmaResultClaim = true ∨
    t'.rdmaTransportClaim = true := by
  cases hm with
  | retried | backed | answered | freed => exact .inl (Nat.succ_ne_zero _)
  | finished _ hbusy => exact hbusy
  | _ => exact h.awake

theorem Live.complete_of_mem (h : Live s t) {st : Option Errno}
    (hst : .complete st ∈ s.log ∨ .complete st ∈ pending s.threads) :
    t.policy.requestComplete = true := by
  have hsum := h.completed
  have hpos : 0 < s.log.countP Event.completes + s.weigh completes := by
    rcases hst with hlog | hpend
    · have := List.countP_pos_iff.mpr ⟨_, hlog, show Event.completes (.complete st) = true from rfl⟩
      omega
    · have hle : 1 ≤ s.weigh completes := le_sum_of_mem hpend completes
      omega
  cases hc : t.policy.requestComplete
  · rw [hc, Bool.toNat_false] at hsum
    omega
  · rfl

theorem IoPolicy.Decides.complete_status {p p' : IoPolicy} {a : IoAction} (h : Decides p p' a)
    {st : Option Errno} (hst : .complete st ∈ applyAction a p'.finalStatus) :
    st.isNone = p'.acked := by
  rcases mem_applyAction_complete.mp hst with ⟨hs, rfl⟩ | ⟨hs, he, rfl⟩
  · rw [h.success hs]
    rfl
  · have hcomp := h.completes
    have hack := h.error hs he
    have hdue : p'.due = true := by
      rw [← h.ok.complete]
      cases hc : p'.requestComplete
      · simp [hs, he, hc] at hcomp
      · rfl
    rw [hack, ← Option.not_isSome, h.ok.finalStatus_isSome hdue hack]
    rfl

section

variable (hm : Moves s t x new s' t')

include hm

theorem Moves.acked (hc : t.policy.requestComplete = true) :
    t'.policy.acked = t.policy.acked := by
  cases hm with
  | backed hd | answered hd => exact hd.kept hc
  | _ => rfl

theorem Moves.status (h : Live s t) (hi : s.threads[i]? = some (x :: rest)) :
    ∀ st, .complete st ∈ s'.log ∨ .complete st ∈ pending (s.threads.set i (new ++ rest)) →
      st.isNone = t'.policy.acked := by
  -- a completion logged or pending before the move agrees with the verdict, which stays
  have hold : ∀ st, .complete st ∈ s.log ∨ .complete st ∈ pending s.threads →
      st.isNone = t'.policy.acked :=
    fun st hst => by rw [hm.acked (h.complete_of_mem hst), h.status st hst]
  have hlog : ∀ st, .complete st ∈ s'.log → st.isNone = t'.policy.acked := by
    intro st hst
    cases hm with
    | completed status =>
      rcases List.mem_cons.mp hst with he | hst
      · cases he
        exact hold _ (.inr (head_mem_pending hi))
      · exact hold st (.inl hst)
    | freed | finished => exact hold st (.inl hst)
    | _ =>
      rcases List.mem_cons.mp hst with he | hst
      · cases he
      · exact hold st (.inl hst)
  have hnew : ∀ y ∈ new, ∀ st, y = .complete st → st.isNone = t'.policy.acked := by
    rintro y hy st rfl
    cases hm with
    | submitFailed => cases List.mem_singleton.mp hy
    | postFailed => simp [failRdmaSubmission] at hy
    | retried | freed => simp at hy
    | backed hd | answered hd =>
      rcases List.mem_append.mp hy with hy | hy
      · exact hd.complete_status hy
      · simp at hy
    | _ => cases hy
  rintro st (hst | hst)
  · exact hlog st hst
  · exact forall_pending_set (P := fun y => ∀ st, y = .complete st → st.isNone = t'.policy.acked) hi
      (fun y hy st he => hold st (.inr (he ▸ hy))) hnew _ hst st rfl

theorem Moves.retries (h : Live s t) :
    t'.backingRetries ≤ 1 ∧ (t'.backingRetries ≠ 0 → t'.policy.kind = .remoteFirstWrite) := by
  cases hm with
  | retried e hk => exact ⟨le_rfl, fun _ => hk⟩
  | backed hd | answered hd => exact ⟨h.retries, fun hne => hd.kind.trans (h.retried hne)⟩
  | _ => exact ⟨h.retries, h.retried⟩

/-- The log has the result of each path that has one. -/
theorem Moves.results (h : Live s t) :
    rdmaResult s'.log = (if t'.policy.remoteDone then some t'.policy.remoteStatus else none) ∧
      (t'.policy.localDone = true → lastBacking s'.log = some t'.policy.localStatus) ∧
      (t'.policy.localDone = false → t'.policy.kind ≠ .remoteFirstWrite → lastBacking s'.log = none) := by
  cases hm with
  | retried e hk _ _ hd =>
    refine ⟨h.rdma, fun hl => ?_, fun _ hne => absurd hk hne⟩
    rw [show t.policy.localDone = true from hl] at hd
    cases hd
  | backed hd hp =>
    refine ⟨?_, fun _ => congrArg some hp.result.symm, fun hl => ?_⟩
    · show rdmaResult s.log = _
      rw [h.rdma, ← hp.remoteDone, ← hp.remoteStatus]
    · rw [show _ = true from hp.done] at hl
      cases hl
  | answered hd hp =>
    refine ⟨?_, fun hl => ?_, fun hl hne => ?_⟩
    · show some _ = _
      rw [if_pos hp.done]
      exact congrArg some hp.result.symm
    · show lastBacking s.log = _
      rw [h.taken (hp.localDone.symm.trans hl)]
      exact congrArg some hp.localStatus.symm
    · exact h.untried (hp.localDone.symm.trans hl) (hd.kind ▸ hne)
  | _ => exact ⟨h.rdma, h.taken, h.untried⟩

/-- A success of the Backing Store path is its result, and a write that may retry fails only after
it did. -/
theorem Moves.tries (h : Live s t) :
    (.backingResult none ∈ s'.log → t'.policy.localDone = true ∧ t'.policy.localStatus = none) ∧
      (t'.policy.kind = .remoteFirstWrite → t'.policy.failedLocally = true → t'.backingRetries = 1) := by
  cases hm with
  | retried e hk _ _ hd =>
    exact ⟨fun hmem => h.succeeded ((List.mem_cons.mp hmem).resolve_left nofun), fun _ _ => rfl⟩
  | @backed status p _ hd hp _ hf =>
    refine ⟨fun hmem => ⟨hp.done, ?_⟩, fun hk hfail => ?_⟩
    · rcases List.mem_cons.mp hmem with he | hmem
      · cases he
        exact hp.result
      · -- a path with a result is not pending
        have hdone := (h.succeeded hmem).1
        rw [(h.policy.waits hp.pending).1] at hdone
        cases hdone
    · refine hf (hd.kind ▸ hk) ?_
      have hfail' : (p.localDone && p.localStatus.isSome) = true := hfail
      rw [Bool.and_eq_true, hp.result] at hfail'
      exact hfail'.2
  | answered hd hp =>
    refine ⟨fun hmem => ?_, fun hk hfail => ?_⟩
    · have hs := h.succeeded ((List.mem_cons.mp hmem).resolve_left nofun)
      exact ⟨hp.localDone.trans hs.1, hp.localStatus.trans hs.2⟩
    · refine h.exhausted (hd.kind ▸ hk) ?_
      unfold failedLocally at hfail ⊢
      rwa [← hp.localDone, ← hp.localStatus]
  | freed | finished => exact ⟨h.succeeded, h.exhausted⟩
  | _ => exact ⟨fun hmem => h.succeeded ((List.mem_cons.mp hmem).resolve_left nofun), h.exhausted⟩

theorem Moves.log :
    s'.log = s.log ∨ ∃ e : Event, e.closes = false ∧ s'.log = e :: s.log := by
  cases hm with
  | freed | finished => exact .inl rfl
  | _ => exact .inr ⟨_, rfl, rfl⟩

theorem Moves.log_subset {e : Event} (he : e ∈ s.log) : e ∈ s'.log := by
  rcases hm.log with hl | ⟨e', -, hl⟩
  · rwa [hl]
  · rw [hl]
    exact List.mem_cons_of_mem _ he

theorem Moves.quiet (h : ∀ e ∈ s.log, e.closes = false) :
    ∀ e ∈ s'.log, e.closes = false := by
  rcases hm.log with hl | ⟨e', hc, hl⟩
  · rwa [hl]
  · rw [hl]
    exact List.forall_mem_cons.mpr ⟨hc, h⟩

end

theorem weigh_next (hi : s.threads[i]? = some (x :: rest)) (f : Instr → ℕ) {owed owed' flag flag' : ℕ}
    (hlaw : owed' + (new.map f).sum + flag = owed + f x + flag') (h : owed + s.weigh f = flag) :
    owed' + ((pending (s.threads.set i (new ++ rest))).map f).sum = flag' := by
  have hsum := sum_set hi f new
  unfold State.weigh at h
  omega

/-- **A move keeps the ledger.** -/
theorem Live.next (h : Live s t) (hi : s.threads[i]? = some (x :: rest)) (hm : Moves s t x new s' t') :
    Live { s' with threads := s.threads.set i (new ++ rest) } t' := by
  obtain ⟨ht, hth, hspec, hengine, hothers⟩ := hm.frame h.transaction
  obtain ⟨hok, hkind, hgen, hback, hres⟩ := hm.policy h
  obtain ⟨hret, hret'⟩ := hm.retries h
  obtain ⟨hrdma, htaken, huntried⟩ := hm.results h
  exact {
    transaction := ht
    kind := by rw [hkind, h.kind, hengine, hspec]
    generation := by rw [hgen, h.generation, hspec]
    policy := hok
    settling := hm.settling.1.trans h.settling
    unreported := hm.settling.2.trans h.unreported
    threads := forall_thread_set h.threads (hm.shape (h.threads _ (List.mem_of_getElem? hi)))
    inner := by
      rw [hspec]
      exact forall_pending_set hi h.inner hm.inner
    backingClaim := hback
    resultClaim := hres
    events := by
      have hlaw := hm.law_events
      have hsum := sum_set hi finishes new
      have hevents := h.events
      unfold State.weigh at hevents
      show ((pending (s.threads.set i (new ++ rest))).map finishes).sum = t'.activeEvents
      omega
    backing := weigh_next hi backs (hm.law_backing h) h.backing
    result := weigh_next hi answers (hm.law_result h) h.result
    release := weigh_next hi frees hm.law_release h.release
    awake := hm.awake h
    completed := weigh_next hi completes hm.law_calls.1 h.completed
    marked := weigh_next hi marks hm.law_calls.2.1 h.marked
    degraded := weigh_next hi degrades hm.law_calls.2.2 h.degraded
    attempted := weigh_next hi submits hm.law_attempted h.attempted
    retries := hret
    retried := hret'
    status := hm.status h hi
    rdma := hrdma
    taken := htaken
    untried := huntried
    succeeded := (hm.tries h).1
    exhausted := (hm.tries h).2
    submitted := fun hw => hm.log_subset (h.submitted (hkind ▸ hw))
    prepared := hm.log_subset h.prepared
    quiet := hm.quiet h.quiet
    counted := by rw [hengine, hothers, h.counted] }

end Io
end Infiniswap
