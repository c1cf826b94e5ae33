/-
# The steps of a device, case by case

Every step of the device in the form in which it is used: the request it is
made for, where that request was, and the device after it. The invariants of
the other modules are shown case by case along `Moves`.
-/
import Infiniswap.Block.Device

namespace Infiniswap
namespace Block

variable {d d' : Device} {r : ℕ} {q : Request} {m : Remote} {answer : Io.Answer}

/-- What an instruction of a transaction does to the device: the answer the engine gets, the request
and the device after it. -/
inductive Adapts (d : Device) (r : ℕ) (q : Request) (m : Remote) (answer : Io.Answer) :
    Io.Instr → Io.Answer → Remote → Device → Prop
  | prepared : Adapts d r q m answer .prepare answer { m with prepared := answer.status.isNone }
      (d.note (.prepared r))
  /-- The first attempt of a prepared write. -/
  | owned (hop : q.op = .write) (hp : m.prepared = true) (h0 : m.backingSubmissions = 0) :
      Adapts d r q m answer .submitBacking { answer with status := none } (m.newAttempt q)
        (d.submitBio r true true q.sector q.count)
  | worked (hw : q.op ≠ .write ∨ m.prepared = false ∨ m.backingSubmissions ≠ 0)
      (hq : .localWork r ∉ d.queue) :
      Adapts d r q m answer .submitBacking { answer with status := none } (m.newAttempt q)
        { d with queue := d.queue ++ [.localWork r] }
  | busy (hq : .localWork r ∈ d.queue) :
      Adapts d r q m answer .submitBacking { answer with status := some .eio } (m.newAttempt q) d
  | degraded : Adapts d r q m answer .backingDegraded answer m (d.degradeBacking r q.sector q.count)
  | completed (status : Option Errno) :
      Adapts d r q m answer (.complete status) answer m (d.completeRequest r status)
  | rejected (status : Errno) :
      Adapts d r q m answer (.reject status) answer m (d.completeRequest r (some status))
  | released : Adapts d r q m answer .release answer m (d.note (.freed r))
  | other {x} (hx : x ≠ .prepare ∧ x ≠ .submitBacking ∧ x ≠ .backingDegraded ∧ x ≠ .release ∧
      (∀ status, x ≠ .complete status) ∧ ∀ status, x ≠ .reject status) :
      Adapts d r q m answer x answer m d

theorem adapter_adapts (d : Device) (r : ℕ) (q : Request) (m : Remote) (answer : Io.Answer)
    (x : Io.Instr) :
    Adapts d r q m answer x (d.adapter r q m answer x).1 (d.adapter r q m answer x).2.1
      (d.adapter r q m answer x).2.2 := by
  cases x with
  | prepare => exact .prepared
  | submitBacking =>
    have hprep : (m.newAttempt q).prepared = m.prepared ∧
        (m.newAttempt q).backingSubmissions = m.backingSubmissions + 1 := by
      unfold Remote.newAttempt
      dsimp only
      split <;> exact ⟨rfl, rfl⟩
    dsimp only [Device.adapter, Device.submitBacking]
    split
    · rename_i h
      split
      · exact .busy ‹_›
      · refine .worked ?_ ‹_›
        rw [hprep.1, hprep.2] at h
        exact h.imp id (Or.imp (by simp) (by omega))
    · rename_i h
      rw [hprep.1, hprep.2, not_or, not_or, not_not] at h
      exact .owned h.1 (by simpa using h.2.1) (by omega)
  | backingDegraded => exact .degraded
  | complete status => exact .completed status
  | reject status => exact .rejected status
  | release => exact .released
  | _ => exact .other ⟨nofun, nofun, nofun, nofun, fun _ => nofun, fun _ => nofun⟩

namespace Device

variable (d : Device)

/-- The worker has taken an item off the queue. -/
def taken (queue : List Work) : Device := { d with queue := queue }

/-- The `i`-th newest bio, `b`, has come to an end. -/
def ended (i : ℕ) (b : Bio) (status : Option Errno) : Device :=
  { d with bios := d.bios.set i { b with result := some status } }.note
    (.bioEnded b.request b.sector b.count status)

end Device

/-- A step of the device, and the device after it. -/
inductive Moves (d : Device) : Label → Device → Prop
  | refused (q : Request) (accepting : Bool) (e : Errno) : Moves d (.queue q accepting)
      (((d.note (.queued d.jobs.length q)).addJob q .ended).completeRequest d.jobs.length (some e))
  | accepted (q : Request) (accepting : Bool) (hop : q.op ≠ .other) (ha : d.accepts q accepting = true) :
      Moves d (.queue q accepting) { (d.note (.queued d.jobs.length q)).addJob q .queued with
        queue := d.queue ++ [.dispatch d.jobs.length] }
  | flushes {r : ℕ} {q queue} (connected : Bool) (cloned : ℕ) (hw : d.worker = none)
      (hq : d.queue = .dispatch r :: queue) (hj : d.jobs[r]? = some ⟨q, .queued⟩) (hop : q.op = .flush)
      (hm : d.mode = .remoteOnly) :
      Moves d (.work connected cloned) { (d.taken queue).setStage r .flushing with worker := some r }
  | flushesBacking {r : ℕ} {q queue} (connected : Bool) (cloned : ℕ) (hw : d.worker = none)
      (hq : d.queue = .dispatch r :: queue) (hj : d.jobs[r]? = some ⟨q, .queued⟩) (hop : q.op = .flush)
      (hm : d.mode ≠ .remoteOnly) : Moves d (.work connected cloned)
        { ((d.taken queue).setStage r .flushing).note (.flushIssued r) with worker := some r }
  | starts {r : ℕ} {q queue} (connected : Bool) (cloned : ℕ) (hw : d.worker = none)
      (hq : d.queue = .dispatch r :: queue) (hj : d.jobs[r]? = some ⟨q, .queued⟩) (hop : q.op ≠ .flush) :
      Moves d (.work connected cloned)
        { (d.taken queue).setStage r (.remote { io := d.transaction r q }) with
        worker := some r
        nextGeneration := d.nextGeneration + 1 }
  | fails {r : ℕ} {q queue} (connected : Bool) (cloned : ℕ) (hw : d.worker = none)
      (hq : d.queue = .dispatch r :: queue) (hj : d.jobs[r]? = some ⟨q, .queued⟩) (hop : q.op ≠ .flush) :
      Moves d (.work connected cloned) (((d.taken queue).setStage r .ended).completeRequest r (some .eio))
  | submits {r : ℕ} {q queue} (connected : Bool) (cloned : ℕ) (hw : d.worker = none)
      (hq : d.queue = .dispatch r :: queue) (hj : d.jobs[r]? = some ⟨q, .queued⟩) (hop : q.op ≠ .flush) :
      Moves d (.work connected cloned) ((d.taken queue).submitToBackingStore r q cloned)
  | retryFails {r : ℕ} {q m queue} (connected : Bool) (hw : d.worker = none)
      (hq : d.queue = .localWork r :: queue) (hj : d.jobs[r]? = some ⟨q, .remote m⟩) (hop : q.op = .write)
      (hp : m.prepared = true) : Moves d (.work connected 0)
        ((d.taken queue).localWorkDone r m (some .enomem))
  | retries {r : ℕ} {q m queue} (connected : Bool) (cloned : ℕ) (hw : d.worker = none)
      (hq : d.queue = .localWork r :: queue) (hj : d.jobs[r]? = some ⟨q, .remote m⟩)
      (hop : q.op = .write) (hp : m.prepared = true) :
      Moves d (.work connected cloned) ((d.taken queue).submitBio r true true q.sector q.count)
  | unreadable {r : ℕ} {q m queue} (connected : Bool) (cloned : ℕ) (hw : d.worker = none)
      (hq : d.queue = .localWork r :: queue) (hj : d.jobs[r]? = some ⟨q, .remote m⟩)
      (hop : q.op ≠ .write) (hv : d.backingRangeValid q.sector q.count = false) :
      Moves d (.work connected cloned)
        ((d.taken queue).localWorkDone r { m with localStatus := none, pendingBios := 1 } (some .eio))
  | clones {r : ℕ} {q m queue} (connected : Bool) (cloned : ℕ) (hw : d.worker = none)
      (hq : d.queue = .localWork r :: queue) (hj : d.jobs[r]? = some ⟨q, .remote m⟩)
      (hop : ¬ (q.op = .write ∧ m.prepared = true)) : Moves d (.work connected cloned)
        ((Device.submitBios r (q.op = .write) ((spans q.sector q.bios).take cloned)
          (d.taken queue)).localWorkDone r
          { m with
            localStatus := none
            pendingBios := 1 + ((spans q.sector q.bios).take cloned).length } (cloneStatus q cloned))
  | flushed {r : ℕ} {q} (status : Option Errno) (hw : d.worker = some r)
      (hj : d.jobs[r]? = some ⟨q, .flushing⟩) : Moves d (.flushed status) (d.flushed r status)
  | started {r : ℕ} {q m} (hw : d.worker = some r) (hj : d.jobs[r]? = some ⟨q, .remote m⟩)
      (ht : m.io.threads[0]? = some []) : Moves d .started { d with worker := none }
  | runs {r i : ℕ} {q m m' x rest answer answer' d₁ io} (hj : d.jobs[r]? = some ⟨q, .remote m⟩)
      (hi : m.io.threads[i]? = some (x :: rest)) (ha : Adapts d r q m answer x answer' m' d₁)
      (hs : m.io.step (.run i answer') = some io) :
      Moves d (.io r i answer) (d₁.setStage r (.remote { m' with io := io }))
  | rdma {r : ℕ} {q m status cancelled io}
      (hj : d.jobs[r]? = some ⟨q, .remote m⟩) (hs : m.io.step (.rdma status cancelled) = some io) :
      Moves d (.rdma r status cancelled)
        ((d.remoteRdmaComplete r q status cancelled).setStage r (.remote { m with io := io }))
  | transport {r : ℕ} {q m io} (hj : d.jobs[r]? = some ⟨q, .remote m⟩)
      (hs : m.io.step .transport = some io) :
      Moves d (.transport r) (d.setStage r (.remote { m with io := io }))
  | remoteBio {i : ℕ} {b q m} (status : Option Errno) (hi : d.bios[i]? = some b)
      (hb : b.result = none) (hj : d.jobs[b.request]? = some ⟨q, .remote m⟩) :
      Moves d (.bio i status) ((d.ended i b status).setStage b.request (.remote (m.localComplete status)))
  | directBio {i : ℕ} {b q c} (status : Option Errno) (hi : d.bios[i]? = some b)
      (hb : b.result = none) (hj : d.jobs[b.request]? = some ⟨q, .direct c⟩) :
      Moves d (.bio i status) ((d.ended i b status).endRequest b.request q
        { c with backingIoFailed := c.backingIoFailed || status.isSome } status)

theorem dispatch_moves {queue : List Work} (connected : Bool) (cloned : ℕ) (hw : d.worker = none)
    (hq : d.queue = .dispatch r :: queue) (hj : d.jobs[r]? = some ⟨q, .queued⟩) :
    Moves d (.work connected cloned) ((d.taken queue).dispatch r q connected cloned) := by
  unfold Device.dispatch
  dsimp only
  split
  · split
    · exact .flushes connected cloned hw hq hj ‹_› ‹_›
    · exact .flushesBacking connected cloned hw hq hj ‹_› ‹_›
  · split
    · exact .starts connected cloned hw hq hj ‹_›
    · split
      · exact .fails connected cloned hw hq hj ‹_›
      · split
        · exact .fails connected cloned hw hq hj ‹_›
        · exact .submits connected cloned hw hq hj ‹_›

theorem localWork_moves {queue : List Work} (connected : Bool) (cloned : ℕ) (hw : d.worker = none)
    (hq : d.queue = .localWork r :: queue) (hj : d.jobs[r]? = some ⟨q, .remote m⟩) :
    Moves d (.work connected cloned) ((d.taken queue).submitRemoteLocalWork r q m cloned) := by
  unfold Device.submitRemoteLocalWork
  dsimp only
  split
  · rename_i h
    split
    · rename_i h0
      subst h0
      exact .retryFails connected hw hq hj h.1 h.2
    · exact .retries connected cloned hw hq hj h.1 h.2
  · split
    · rename_i h
      have hv : (!d.backingRangeValid q.sector q.count) = true := h.2
      exact .unreadable connected cloned hw hq hj h.1 (by simpa using hv)
    · exact .clones connected cloned hw hq hj ‹_›

/-- **Every step is one of these.** -/
theorem step_moves {l : Label} (h : d.step l = some d') : Moves d l d' := by
  cases l with
  | queue q accepting =>
    cases h
    unfold Device.queueRq
    dsimp only
    split
    · exact .refused q accepting _
    · split
      · exact .refused q accepting _
      · rename_i hop ha
        have ha : ¬ (!d.accepts q accepting) = true := ha
        exact .accepted q accepting hop (by simpa only [Bool.not_eq_true, Bool.not_eq_false'] using ha)
  | work connected cloned =>
    simp only [Device.step] at h
    split at h
    · rename_i hw hq
      split at h
      · rename_i hj
        cases h
        exact dispatch_moves connected cloned hw hq hj
      · cases h
    · rename_i hw hq
      split at h
      · rename_i hj
        cases h
        exact localWork_moves connected cloned hw hq hj
      · cases h
    · cases h
  | flushed status =>
    simp only [Device.step] at h
    split at h
    · rename_i hw
      split at h
      · rename_i hj
        cases h
        exact .flushed status hw hj
      · cases h
    · cases h
  | started =>
    simp only [Device.step] at h
    split at h
    · rename_i hw
      split at h
      · rename_i hj
        split at h
        · rename_i ht
          cases h
          exact .started hw hj ht
        · cases h
      · cases h
    · cases h
  | io r i answer =>
    simp only [Device.step] at h
    split at h
    · rename_i q m hj
      split at h
      · rename_i x rest hi
        obtain ⟨io, hs, rfl⟩ := Option.map_eq_some_iff.mp h
        exact .runs hj hi (adapter_adapts d r q m answer x) hs
      · cases h
    · cases h
  | rdma r status cancelled =>
    simp only [Device.step] at h
    split at h
    · rename_i hj
      obtain ⟨io, hs, rfl⟩ := Option.map_eq_some_iff.mp h
      exact .rdma hj hs
    · cases h
  | transport r =>
    simp only [Device.step] at h
    split at h
    · rename_i hj
      obtain ⟨io, hs, rfl⟩ := Option.map_eq_some_iff.mp h
      exact .transport hj hs
    · cases h
  | bio i status =>
    simp only [Device.step] at h
    split at h
    · rename_i b hi
      split at h
      · cases h
      · rename_i hb
        have hb : b.result = none := by simpa using hb
        dsimp only [Device.bioEnded] at h
        split at h
        · rename_i hj
          cases h
          exact .remoteBio status hi hb hj
        · rename_i hj
          cases h
          exact .directBio status hi hb hj
        · cases h
    · cases h

end Block
end Infiniswap
