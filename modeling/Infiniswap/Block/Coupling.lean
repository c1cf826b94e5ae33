/-
# The adapters keep their side of the bargain

The engine counts on its adapters: a Backing Store attempt that was accepted is
completed once. This is where the block layer is shown to do so. An attempt of a
transaction waits in the workqueue or is in flight, never both, and the count of
its pending bios is the number of them that are in flight; so every completion
is one the engine is owed, and the transaction of every request runs as one of
the engine's own runs. A failure that the engine hears of is one of a bio of the
request or of the work that submits them.
-/
import Infiniswap.Io.Results
import Infiniswap.Block.Moves

namespace Infiniswap
namespace Block

open Threads Transition

variable {d d' : Device} {r r' : ℕ} {q : Request} {m m' : Remote} {c : Ctx}

namespace Device

variable (d : Device) (r : ℕ)

/-- How many bios of a request are in flight. -/
def inFlight : ℕ := d.bios.countP fun b => b.request = r && b.result.isNone

/-- A bio of the request failed, or the work that submits them did. -/
def Failed : Prop :=
  (∃ sector count e, .bioEnded r sector count (some e) ∈ d.log) ∨ .localWorkFailed r ∈ d.log

end Device

theorem Device.Failed.mono (h : d.Failed r) (hl : ∀ e ∈ d.log, e ∈ d'.log) : d'.Failed r :=
  h.imp (fun ⟨sector, count, e, he⟩ => ⟨sector, count, e, hl _ he⟩) (hl _)

/-! ### What a step leaves alone -/

/-- Nothing that request `r` sees has changed. -/
structure Apart (d d' : Device) (r : ℕ) : Prop where
  flying : d'.inFlight r = d.inFlight r
  queue : d'.queue.count (.localWork r) = d.queue.count (.localWork r)
  events : ∀ e : Event, e.request = r → (e ∈ d'.log ↔ e ∈ d.log)

namespace Apart

theorem refl (d : Device) (r : ℕ) : Apart d d r := ⟨rfl, rfl, fun _ _ => Iff.rfl⟩

section

variable (h : Apart d d' r)

include h

theorem setStage (r' : ℕ) (stage : Stage) : Apart d (d'.setStage r' stage) r := { h with }

theorem note {e : Event} (he : e.request ≠ r) : Apart d (d'.note e) r :=
  { h with
    events := fun e' he' => by
      rw [← h.events e' he']
      refine List.mem_cons.trans (or_iff_right fun heq => ?_)
      rw [← heq, he'] at he
      exact he rfl }

theorem completeRequest (hne : r' ≠ r) (status : Option Errno) :
    Apart d (d'.completeRequest r' status) r := h.note hne

theorem degradeBacking (hne : r' ≠ r) (sector count : ℕ) :
    Apart d (d'.degradeBacking r' sector count) r := { h.note (e := .degraded r' sector count) hne with }

theorem localWorkDone (hne : r' ≠ r) (m : Remote) (status : Option Errno) :
    Apart d (d'.localWorkDone r' m status) r := by
  unfold Device.localWorkDone
  dsimp only
  split
  · exact (h.note (e := .localWorkFailed r') hne).setStage _ _
  · exact h.setStage _ _

theorem submitBio (hne : r' ≠ r) (write owned : Bool) (sector count : ℕ) :
    Apart d (d'.submitBio r' write owned sector count) r :=
  { h.note (e := .bioSubmitted r' sector count owned) hne with
    flying := by
      rw [← h.flying]
      exact List.countP_cons_of_neg (by simp [hne]) }

theorem submitBios (hne : r' ≠ r) (write : Bool) (clones : List (ℕ × ℕ)) :
    Apart d (Device.submitBios r' write clones d') r := by
  induction clones generalizing d' with
  | nil => exact h
  | cons s rest ih => exact ih (h.submitBio hne write false s.1 s.2)

theorem push {w : Work} (hw : w ≠ .localWork r) : Apart d { d' with queue := d'.queue ++ [w] } r :=
  { h with
    queue := by
      rw [← h.queue]
      exact List.count_append.trans
        (by rw [List.count_singleton, if_neg (by simpa using hw), Nat.add_zero]) }

theorem addJob (q : Request) (stage : Stage) : Apart d (d'.addJob q stage) r := { h with }

theorem worker (w : Option ℕ) (g : ℕ) :
    Apart d { d' with worker := w, nextGeneration := g } r := { h with }

end

theorem pop {w : Work} {queue : List Work} (hq : d.queue = w :: queue) (hw : w ≠ .localWork r) :
    Apart d (d.taken queue) r :=
  { refl d r with queue := by rw [hq]; exact (List.count_cons_of_ne hw).symm }

theorem endRequest (h : Apart d d' r) (hne : r' ≠ r) (c : Ctx) (status : Option Errno) :
    Apart d (d'.endRequest r' q c status) r := by
  unfold Device.endRequest
  dsimp only
  split
  · exact h.setStage _ _
  · refine Apart.completeRequest ?_ hne _
    split
    · exact (h.setStage _ _).degradeBacking hne _ _
    · exact h.setStage _ _

theorem remoteRdmaComplete (h : Apart d d' r) (hne : r' ≠ r) (status : Option Errno) (cancelled : Bool) :
    Apart d (d'.remoteRdmaComplete r' q status cancelled) r := by
  unfold Device.remoteRdmaComplete
  split
  · exact h.note hne
  · exact h

theorem ended {i : ℕ} {b : Bio} (hi : d.bios[i]? = some b) (hne : b.request ≠ r) (status : Option Errno) :
    Apart d (d.ended i b status) r := by
  obtain ⟨hlt, hget⟩ := List.getElem?_eq_some_iff.mp hi
  refine { (refl d r).note (e := .bioEnded b.request b.sector b.count status) hne with flying := ?_ }
  show (d.bios.set i _).countP _ = _
  rw [List.countP_set hlt, hget]
  simp [hne, Device.inFlight]

end Apart

/-! ### A request at its stages -/

/-- Where the Backing Store attempt of a transaction is. -/
inductive Attempt (d : Device) (r : ℕ) (q : Request) (m : Remote) : Prop
  | idle (hq : d.queue.count (.localWork r) = 0) (hf : d.inFlight r = 0) (ho : m.io.backingOwed = 0)
  | waiting (hq : d.queue.count (.localWork r) = 1) (hf : d.inFlight r = 0) (ho : m.io.backingOwed = 1)
      (hp : q.op = .write → m.prepared = true → m.pendingBios = 1 ∧ m.localStatus = none)
  | flying (hq : d.queue.count (.localWork r) = 0) (hf : d.inFlight r = m.pendingBios)
      (hpos : m.pendingBios ≠ 0) (ho : m.io.backingOwed = 1) (hbad : m.localStatus ≠ none → d.Failed r)

/-- The transaction of a request is a run of the engine, and tells what the device did for it. -/
structure Linked (d : Device) (r : ℕ) (m : Remote) : Prop where
  run : Io.engineSystem.Reachable m.io
  degrades : ∀ sector count, .degraded r sector count ∈ d.log → .backingDegraded ∈ m.io.log
  failed : m.io.Failed → d.Failed r

/-- A request that is served by a transaction. -/
structure RemoteOk (d : Device) (r : ℕ) (q : Request) (m : Remote) : Prop extends Linked d r m where
  attempt : Attempt d r q m

/-- A request that went to the Backing Store directly. -/
structure DirectOk (d : Device) (r : ℕ) (c : Ctx) : Prop where
  failed : c.backingIoFailed = true → d.Failed r
  degrades : ∀ sector count, .degraded r sector count ∈ d.log → d.Failed r

/-- Nothing has been done for the request. -/
structure Untouched (d : Device) (r : ℕ) : Prop where
  flying : d.inFlight r = 0
  queue : d.queue.count (.localWork r) = 0
  degrades : ∀ sector count, .degraded r sector count ∉ d.log

/-- What holds of a request at each stage. -/
def JobOk (d : Device) (r : ℕ) (q : Request) : Stage → Prop
  | .queued => Untouched d r
  | .flushing => q.op = .flush
  | .remote m => RemoteOk d r q m
  | .direct c => DirectOk d r c
  | .ended => ∀ sector count, .degraded r sector count ∈ d.log → q.op = .flush

namespace Apart

variable (h : Apart d d' r)
include h

theorem failed (hf : d.Failed r) : d'.Failed r :=
  hf.imp (fun ⟨sector, count, e, he⟩ => ⟨sector, count, e, (h.events _ rfl).mpr he⟩) (h.events _ rfl).mpr

theorem untouched (hu : Untouched d r) : Untouched d' r :=
  ⟨h.flying.trans hu.flying, h.queue.trans hu.queue,
    fun sector count he => hu.degrades sector count ((h.events _ rfl).mp he)⟩

theorem attempt (ha : Attempt d r q m) : Attempt d' r q m := by
  cases ha with
  | idle hq hf ho => exact .idle (h.queue.trans hq) (h.flying.trans hf) ho
  | waiting hq hf ho hp => exact .waiting (h.queue.trans hq) (h.flying.trans hf) ho hp
  | flying hq hf hpos ho hbad =>
    exact .flying (h.queue.trans hq) (h.flying.trans hf) hpos ho fun hn => h.failed (hbad hn)

theorem jobOk (stage : Stage) (hj : JobOk d r q stage) : JobOk d' r q stage := by
  cases stage with
  | queued => exact h.untouched hj
  | flushing => exact hj
  | remote m =>
    have hj : RemoteOk d r q m := hj
    exact {
      run := hj.run
      degrades := fun sector count he => hj.degrades sector count ((h.events _ rfl).mp he)
      failed := h.failed ∘ hj.failed
      attempt := h.attempt hj.attempt }
  | direct c =>
    exact ⟨h.failed ∘ DirectOk.failed hj, fun sector count he =>
      h.failed (DirectOk.degrades hj sector count ((h.events _ rfl).mp he))⟩
  | ended => exact fun sector count he => hj sector count ((h.events _ rfl).mp he)

end Apart

/-! ### Submitting bios -/

section Submit

variable (d : Device) (r : ℕ) (write : Bool)

theorem inFlight_submitBio (owned : Bool) (sector count : ℕ) :
    (d.submitBio r write owned sector count).inFlight r = d.inFlight r + 1 :=
  List.countP_cons_of_pos (by simp)

theorem inFlight_submitBios (clones : List (ℕ × ℕ)) :
    (Device.submitBios r write clones d).inFlight r = d.inFlight r + clones.length := by
  induction clones generalizing d with
  | nil => rfl
  | cons s rest ih =>
    rw [Device.submitBios, ih, inFlight_submitBio, List.length_cons]
    omega

theorem submitBios_frame (clones : List (ℕ × ℕ)) : let d' := Device.submitBios r write clones d
    d'.jobs = d.jobs ∧ d'.queue = d.queue ∧
      ∀ e, (∀ sector count owned, e ≠ .bioSubmitted r sector count owned) → (e ∈ d'.log ↔ e ∈ d.log) := by
  induction clones generalizing d with
  | nil => exact ⟨rfl, rfl, fun _ _ => Iff.rfl⟩
  | cons s rest ih =>
    obtain ⟨hj, hq, hl⟩ := ih (d.submitBio r write false s.1 s.2)
    exact ⟨hj, hq, fun e he => (hl e he).trans (List.mem_cons.trans (or_iff_right (he _ _ _)))⟩

theorem mem_log_submitBios (clones : List (ℕ × ℕ)) {e : Event} (he : e ∈ d.log) :
    e ∈ (Device.submitBios r write clones d).log := by
  induction clones generalizing d with
  | nil => exact he
  | cons s rest ih => exact ih _ (List.mem_cons_of_mem _ he)

end Submit

/-! ### An attempt comes to an end -/

/-- What a transaction says is kept when the log grows by what does not degrade the device. -/
theorem Linked.grow (h : Linked d r m) (hl : ∀ e ∈ d.log, e ∈ d'.log)
    (hd : ∀ sector count, .degraded r sector count ∈ d'.log → .degraded r sector count ∈ d.log) :
    Linked d' r m where
  run := h.run
  degrades sector count hmem := h.degrades sector count (hd sector count hmem)
  failed hf := (h.failed hf).mono hl

theorem Linked.note (h : Linked d r m) {e : Event} (he : ∀ sector count, e ≠ .degraded r sector count) :
    Linked (d.note e) r m :=
  h.grow (fun _ h0 => List.mem_cons_of_mem _ h0) fun _ _ hmem =>
    (List.mem_cons.mp hmem).resolve_left (Ne.symm (he _ _))

variable {io : Io.State} {status : Option Errno}

theorem Linked.enter (h : Linked d r m) {y : Io.Instr} (hr : Io.engineSystem.Reachable io)
    (hl : io.log = m.io.log) (ht : io.threads = m.io.threads ++ [[y]])
    (hy : ∀ e, y = .backingCompleted (some e) → d.Failed r) : Linked d r { m with io := io } where
  run := hr
  degrades sector count hmem := hl ▸ h.degrades sector count hmem
  failed := by
    rintro ⟨e, hlog | hpd⟩
    · exact h.failed ⟨e, .inl (hl ▸ hlog)⟩
    · rw [show pending io.threads = _ from congrArg pending ht, pending_spawn, List.mem_append,
        List.mem_singleton] at hpd
      rcases hpd with hpd | heq
      · exact h.failed ⟨e, .inr hpd⟩
      · exact hy e heq.symm

/-- **A bio of an attempt ends**, or the sentinel that stands for the loop that submits them: the
last one hands the status to the engine, which is owed it. -/
theorem Linked.localComplete (h : Linked d r m) (hq : d.queue.count (.localWork r) = 0)
    (ho : m.io.backingOwed = 1) (hf : d.inFlight r + 1 = m.pendingBios)
    (hbad : m.localStatus.or status ≠ none → d.Failed r) : RemoteOk d r q (m.localComplete status) := by
  have hpend : m.pendingBios - 1 = d.inFlight r := by omega
  unfold Remote.localComplete
  dsimp only
  split
  · rename_i hne
    exact { run := h.run, degrades := h.degrades, failed := h.failed,
            attempt := .flying hq hpend.symm hne ho hbad }
  · rename_i h0
    have h0 : d.inFlight r = 0 := by rw [← hpend]; simpa using h0
    have hstep : m.io.step (.backing (m.localStatus.or status)) =
        some ({ m.io with backingOwed := m.io.backingOwed - 1 }.enter
        (.backingCompleted (m.localStatus.or status))) :=
      if_neg (by rw [ho]; exact Nat.one_ne_zero)
    have hl := h.enter (Io.reachable_step h.run hstep) rfl rfl fun e he =>
      hbad (by rw [Io.Instr.backingCompleted.inj he]; nofun)
    exact { run := hl.run, degrades := hl.degrades, failed := hl.failed,
            attempt := .idle hq h0 (by show m.io.backingOwed - 1 = 0; omega) }

/-! ### An instruction of a transaction -/

section Run

variable {d₁ : Device} {i : ℕ} {x : Io.Instr} {rest : List Io.Instr} {answer answer' : Io.Answer}
  {io : Io.State}

/-- The transaction and the device go together through an instruction. -/
theorem Linked.run_instr (h : Linked d r m) (hi : m.io.threads[i]? = some (x :: rest))
    (hs : m.io.step (.run i answer) = some io) (hx : x = .submitBacking → answer.status = none)
    (hl : ∀ e ∈ d.log, e ∈ d₁.log) (hd : ∀ sector count, .degraded r sector count ∈ d₁.log →
      .backingDegraded ∈ x.logged ∨ .degraded r sector count ∈ d.log) :
    Linked d₁ r { m' with io := io } where
  run := Io.reachable_step h.run hs
  degrades sector count hmem := by
    rw [(Io.run_effect hi hs).1, List.mem_append]
    exact (hd sector count hmem).imp_right (h.degrades sector count)
  failed hf := (h.failed (hf.before hi hs hx)).mono hl

theorem newAttempt_eq (q : Request) (m : Remote) : (m.newAttempt q).prepared = m.prepared ∧
    (q.op = .write → m.prepared = true → (m.newAttempt q).pendingBios = 1 ∧
      (m.newAttempt q).localStatus = none) := by
  unfold Remote.newAttempt
  dsimp only
  split
  · exact ⟨rfl, fun _ _ => ⟨rfl, rfl⟩⟩
  · rename_i h
    exact ⟨rfl, fun hop hp => absurd ⟨hop, hp⟩ h⟩

theorem Attempt.keep (h : Attempt d r q m) (hq : d₁.queue = d.queue) (hb : d₁.bios = d.bios)
    (hl : ∀ e ∈ d.log, e ∈ d₁.log)
    (ho : m'.io.backingOwed = m.io.backingOwed) (hp : m'.prepared = m.prepared ∨ m.io.backingOwed = 0)
    (hc : m'.pendingBios = m.pendingBios ∧ m'.localStatus = m.localStatus) : Attempt d₁ r q m' := by
  have hf : d₁.inFlight r = d.inFlight r := by rw [Device.inFlight, hb, Device.inFlight]
  cases h with
  | idle hq' hf' ho' => exact .idle (hq ▸ hq') (hf.trans hf') (ho.trans ho')
  | waiting hq' hf' ho' hp' =>
    have hp := hp.resolve_right (by rw [ho']; exact Nat.one_ne_zero)
    exact .waiting (hq ▸ hq') (hf.trans hf') (ho.trans ho') (by rw [hp, hc.1, hc.2]; exact hp')
  | flying hq' hf' hpos ho' hbad =>
    exact .flying (hq ▸ hq') (by rw [hf, hf', hc.1]) (hc.1 ▸ hpos) (ho.trans ho') fun hn =>
      (hbad (hc.2 ▸ hn)).mono hl

theorem RemoteOk.idle_of_submit (h : RemoteOk d r q m)
    (hi : m.io.threads[i]? = some (.submitBacking :: rest)) :
    d.queue.count (.localWork r) = 0 ∧ d.inFlight r = 0 ∧ m.io.backingOwed = 0 := by
  have h0 := (Io.phase_reachable h.run).idle_of_submit (head_mem_pending hi)
  cases h.attempt with
  | idle hq hf ho => exact ⟨hq, hf, ho⟩
  | waiting _ _ ho _ | flying _ _ _ ho _ =>
    rw [h0] at ho
    cases ho

/-- **An instruction keeps the transaction and its attempt together.** -/
theorem RemoteOk.adapts (h : RemoteOk d r q m) (hi : m.io.threads[i]? = some (x :: rest))
    (ha : Adapts d r q m answer x answer' m' d₁) (hs : m.io.step (.run i answer') = some io) :
    RemoteOk d₁ r q { m' with io := io } := by
  obtain ⟨-, howed⟩ := Io.run_effect hi hs
  -- an instruction that submits nothing and degrades nothing adds at most an event to the log
  have hquiet : ∀ {d₁ : Device}, x ≠ .submitBacking → d₁.queue = d.queue → d₁.bios = d.bios →
      (∃ events, d₁.log = events ++ d.log ∧ ∀ sector count, .degraded r sector count ∈ events →
        .backingDegraded ∈ x.logged) → RemoteOk d₁ r q { m with io := io } := by
    rintro d₁ hx hq hb ⟨events, hl, hd⟩
    have hlog : ∀ e ∈ d.log, e ∈ d₁.log := fun e he => hl ▸ List.mem_append_right _ he
    refine ⟨h.toLinked.run_instr hi hs (fun hc => absurd hc hx) hlog fun sector count hmem => ?_,
      h.attempt.keep hq hb hlog ?_ (.inl rfl) ⟨rfl, rfl⟩⟩
    · rw [hl, List.mem_append] at hmem
      exact hmem.imp_left (hd sector count)
    · exact howed.trans (by rw [if_neg fun hc => hx hc.1, Nat.add_zero])
  obtain ⟨hprep, hcounters⟩ := newAttempt_eq q m
  cases ha with
  | prepared =>
    have h0 := (Io.phase_reachable h.run).early_of_prepare (head_mem_pending hi)
    have hkeep : ∀ e ∈ d.log, e ∈ (d.note (.prepared r)).log := fun e he => List.mem_cons_of_mem _ he
    exact ⟨h.toLinked.run_instr hi hs nofun hkeep fun _ _ hmem =>
      .inr ((List.mem_cons.mp hmem).resolve_left nofun),
      h.attempt.keep rfl rfl hkeep howed (.inr h0) ⟨rfl, rfl⟩⟩
  | owned hop hp h0 =>
    obtain ⟨hq, hf, ho⟩ := h.idle_of_submit hi
    obtain ⟨hone, hnone⟩ := hcounters hop hp
    refine ⟨h.toLinked.run_instr hi hs (fun _ => rfl) (fun _ he => List.mem_cons_of_mem _ he)
      fun _ _ hmem => .inr ((List.mem_cons.mp hmem).resolve_left nofun),
      .flying hq ?_ ?_ ?_ fun hn => absurd hnone hn⟩
    · rw [inFlight_submitBio, hf]
      exact hone.symm
    · show (m.newAttempt q).pendingBios ≠ 0
      omega
    · show io.backingOwed = 1
      rw [howed, ho, if_pos ⟨rfl, rfl⟩]
  | worked hw hq' =>
    obtain ⟨hq, hf, ho⟩ := h.idle_of_submit hi
    refine ⟨h.toLinked.run_instr hi hs (fun _ => rfl) (fun _ he => he) fun _ _ => .inr,
      .waiting ?_ hf ?_ fun hop hp => hcounters hop (hprep ▸ hp)⟩
    · show (d.queue ++ [Work.localWork r]).count (Work.localWork r) = 1
      rw [List.count_append, hq, List.count_singleton_self]
    · show io.backingOwed = 1
      rw [howed, ho, if_pos ⟨rfl, rfl⟩]
  | busy hq' =>
    obtain ⟨hq, -⟩ := h.idle_of_submit hi
    exact absurd hq' (List.count_eq_zero.mp hq)
  | degraded =>
    exact hquiet nofun rfl rfl ⟨[.degraded r q.sector q.count], rfl, fun _ _ _ => List.mem_cons_self⟩
  | completed status => exact hquiet nofun rfl rfl ⟨[.completed r status], rfl, by simp⟩
  | rejected status => exact hquiet nofun rfl rfl ⟨[.completed r (some status)], rfl, by simp⟩
  | released => exact hquiet nofun rfl rfl ⟨[.freed r], rfl, by simp⟩
  | other hx => exact hquiet hx.2.1 rfl rfl ⟨[], rfl, nofun⟩

end Run

/-! ### The RDMA path answers -/

theorem RemoteOk.rdma (h : RemoteOk d r q m) {cancelled : Bool}
    (hs : m.io.step (.rdma status cancelled) = some io) :
    RemoteOk (d.remoteRdmaComplete r q status cancelled) r q { m with io := io } := by
  have hr := Io.reachable_step h.run hs
  dsimp only [Io.State.step] at hs
  split at hs
  · cases hs
  cases hs
  have hl := h.toLinked.enter hr rfl rfl (fun _ => nofun)
  have hok : RemoteOk d r q { m with io := _ } :=
    ⟨hl, h.attempt.keep rfl rfl (fun _ he => he) rfl (.inl rfl) ⟨rfl, rfl⟩⟩
  unfold Device.remoteRdmaComplete
  split
  · exact ⟨hl.note (fun _ _ => nofun),
      hok.attempt.keep rfl rfl (fun _ he => List.mem_cons_of_mem _ he) rfl (.inl rfl) ⟨rfl, rfl⟩⟩
  · exact hok

theorem RemoteOk.transport (h : RemoteOk d r q m) (hs : m.io.step .transport = some io) :
    RemoteOk d r q { m with io := io } := by
  have hr := Io.reachable_step h.run hs
  dsimp only [Io.State.step] at hs
  split at hs
  · cases hs
  cases hs
  exact ⟨h.toLinked.enter hr rfl rfl (fun _ => nofun),
    h.attempt.keep rfl rfl (fun _ he => he) rfl (.inl rfl) ⟨rfl, rfl⟩⟩

/-! ### The work that submits an attempt -/

/-- The work of an attempt comes off the queue. -/
structure Taken (d : Device) (r : ℕ) (q : Request) (m : Remote) : Prop extends Linked d r m where
  queue : d.queue.count (.localWork r) = 0
  flying : d.inFlight r = 0
  owed : m.io.backingOwed = 1
  counters : q.op = .write → m.prepared = true → m.pendingBios = 1 ∧ m.localStatus = none

theorem RemoteOk.taken (h : RemoteOk d r q m) {queue : List Work} (hq : d.queue = .localWork r :: queue) :
    Taken (d.taken queue) r q m := by
  have hcount : d.queue.count (.localWork r) = queue.count (.localWork r) + 1 := by
    rw [hq, List.count_cons_self]
  cases h.attempt with
  | idle hq' _ _ | flying hq' _ _ _ _ => omega
  | waiting hq' hf ho hp =>
    exact { h.toLinked with
      queue := by show queue.count (.localWork r) = 0; omega
      flying := hf
      owed := ho
      counters := hp }

theorem Linked.localWorkDone (h : Linked d r m) (hq : d.queue.count (.localWork r) = 0)
    (ho : m.io.backingOwed = 1) (hf : d.inFlight r + 1 = m.pendingBios) (hn : m.localStatus = none)
    (status : Option Errno) :
    RemoteOk (d.localWorkDone r m status) r q (m.localComplete status) := by
  unfold Device.localWorkDone
  dsimp only
  refine ((Apart.refl _ r).setStage r _).jobOk (.remote _) ?_
  split
  · exact (h.note (e := .localWorkFailed r) fun _ _ => nofun).localComplete hq ho hf fun _ =>
      .inr List.mem_cons_self
  · rename_i hnone
    have hnone : status = none := by simpa using hnone
    exact h.localComplete hq ho hf fun hor => absurd (by rw [hn, hnone]; rfl) hor

theorem Taken.retries (h : Taken d r q m) (hop : q.op = .write) (hp : m.prepared = true) :
    RemoteOk (d.submitBio r true true q.sector q.count) r q m := by
  obtain ⟨hone, hnone⟩ := h.counters hop hp
  have hl := h.toLinked.note (e := .bioSubmitted r q.sector q.count true) fun _ _ => nofun
  exact { run := hl.run, degrades := hl.degrades, failed := hl.failed,
          attempt := .flying h.queue (by rw [inFlight_submitBio, h.flying, hone]) (by omega) h.owed
            fun hn => absurd hnone hn }

theorem Taken.clones (h : Taken d r q m) (cloned : ℕ) :
    RemoteOk ((Device.submitBios r (q.op = .write)
        ((spans q.sector q.bios).take cloned) d).localWorkDone r
        { m with
          localStatus := none
          pendingBios := 1 + ((spans q.sector q.bios).take cloned).length } (cloneStatus q cloned)) r q
      ({ m with
        localStatus := none
        pendingBios := 1 +
          ((spans q.sector q.bios).take cloned).length }.localComplete (cloneStatus q cloned)) := by
  obtain ⟨-, hq, hl⟩ := submitBios_frame d r (q.op = .write) ((spans q.sector q.bios).take cloned)
  have hg : Linked (Device.submitBios r (q.op = .write) ((spans q.sector q.bios).take cloned) d) r
      { m with localStatus := none, pendingBios := 1 + ((spans q.sector q.bios).take cloned).length } :=
    Linked.grow ⟨h.run, h.degrades, h.failed⟩ (fun e => mem_log_submitBios d r _ _)
      fun sector count => (hl (.degraded r sector count) (fun _ _ _ => nofun)).mp
  refine hg.localWorkDone (by rw [hq]; exact h.queue) h.owed ?_ rfl _
  rw [inFlight_submitBios, h.flying]
  show 0 + _ + 1 = 1 + _
  omega

end Block
end Infiniswap
