/-
# Every request is completed once

A request is completed by the worker that refuses or fails it, by its flush, by
its last bio or by its transaction. The device keeps no account of this: that no
request is completed twice rests on where the request is. On the direct path the
count of pending bios is the number of those in flight, so only one of them is
the last; a transaction completes its request as often as the engine says so,
and the engine says so once.
-/
import Infiniswap.Block.Served

namespace Infiniswap
namespace Block

open Transition

/-- The event completes request `r`. -/
def Event.completes (r : ℕ) : Event → Bool
  | .completed r' _ => r' = r
  | _ => false

/-- How often request `r` was completed. -/
def Device.completions (d : Device) (r : ℕ) : ℕ := d.log.countP (Event.completes r)

variable {d d' : Device} {r r' : ℕ} {q : Request} {m : Remote} {c : Ctx} {stage : Stage}

/-! ### What completes a request -/

@[simp] theorem completions_note (d : Device) (e : Event) (r : ℕ) :
    (d.note e).completions r = d.completions r + (e.completes r).toNat := by
  unfold Device.completions Device.note
  rw [List.countP_cons]
  cases e.completes r <;> rfl

@[simp] theorem completions_setStage (d : Device) (r r' : ℕ) (stage : Stage) :
    (d.setStage r' stage).completions r = d.completions r := rfl

@[simp] theorem completions_degradeBacking (d : Device) (r r' sector count : ℕ) :
    (d.degradeBacking r' sector count).completions r = d.completions r :=
  completions_note d (.degraded r' sector count) r

theorem completions_completeRequest (d : Device) (r r' : ℕ) (status : Option Errno) :
    (d.completeRequest r' status).completions r = d.completions r + if r' = r then 1 else 0 := by
  by_cases h : r' = r <;> simp [Device.completeRequest, Event.completes, h]

theorem completions_submitBios (clones : List (ℕ × ℕ)) (write : Bool) (d : Device) (r r' : ℕ) :
    (Device.submitBios r' write clones d).completions r = d.completions r := by
  induction clones generalizing d with
  | nil => rfl
  | cons clone clones ih =>
    rw [Device.submitBios, ih]
    exact completions_note d (.bioSubmitted r' clone.1 clone.2 false) r

theorem completions_localWorkDone (status : Option Errno) :
    (d.localWorkDone r' m status).completions r = d.completions r := by
  unfold Device.localWorkDone
  split <;> simp [Event.completes]

/-- A request on the direct path is completed by its last bio. -/
theorem completions_endRequest (status : Option Errno) : (d.endRequest r' q c status).completions r =
    d.completions r + if r' = r ∧ c.pendingBios - 1 = 0 then 1 else 0 := by
  unfold Device.endRequest
  by_cases hlast : c.pendingBios - 1 = 0
  · simp only [hlast, ne_eq, not_true_eq_false, if_false, and_true, completions_completeRequest]
    split <;> simp
  · simp [hlast]

theorem endRequest_frame (status : Option Errno) : (d.endRequest r q c status).bios = d.bios ∧
    ∃ c', c'.pendingBios = c.pendingBios - 1 ∧
      (d.endRequest r q c status).jobs = (d.setStage r (.direct c')).jobs := by
  unfold Device.endRequest
  dsimp only
  split
  · exact ⟨rfl, _, rfl, rfl⟩
  · split <;> exact ⟨rfl, _, rfl, rfl⟩

/-- The adapters complete the request when the engine says so. -/
theorem Adapts.completions {m' : Remote} {answer answer' : Io.Answer} {x : Io.Instr} {d₁ : Device}
    (ha : Adapts d r q m answer x answer' m' d₁) (r' : ℕ) :
    d₁.completions r' = d.completions r' + if r = r' then x.logged.countP Io.Event.completes else 0 := by
  cases ha with
  | other hx =>
    have hnone : x.logged.countP Io.Event.completes = 0 := by
      cases x <;> simp_all [Io.Instr.logged, Io.Event.completes]
    simp [hnone]
  | owned | worked =>
    simp [Device.submitBio, Device.completions, Event.completes, Io.Instr.logged,
      Io.Event.completes]
  | prepared | busy | degraded | released => simp [Event.completes, Io.Instr.logged, Io.Event.completes]
  | completed | rejected => exact completions_completeRequest ..

/-! ### The books -/

/-- How often a request has been completed, from where it is. -/
def Stage.completions : Stage → ℕ
  | .queued | .flushing => 0
  | .remote m => m.io.log.countP Io.Event.completes
  | .direct c => if c.pendingBios = 0 then 1 else 0
  | .ended => 1

structure Books (d : Device) : Prop where
  completed : ∀ r, d.completions r = d.jobs[r]?.elim 0 (·.stage.completions)
  direct : ∀ r q c, d.jobs[r]? = some ⟨q, .direct c⟩ → d.inFlight r = c.pendingBios

namespace Books

theorem completions_eq (h : Books d) (hj : d.jobs[r]? = some ⟨q, stage⟩) :
    d.completions r = stage.completions := by
  rw [h.completed, hj]
  rfl

theorem update (h : Books d) (hj : d.jobs[r]? = some ⟨q, stage⟩) (stage' : Stage)
    (hjobs : d'.jobs = (d.setStage r stage').jobs)
    (hc : ∀ r', d'.completions r' + (if r = r' then stage.completions else 0) =
      d.completions r' + if r = r' then stage'.completions else 0)
    (hf : ∀ r', r ≠ r' → d'.inFlight r' = d.inFlight r')
    (hd : ∀ c, stage' = .direct c → d'.inFlight r = c.pendingBios) : Books d' where
  completed r' := by
    have hr := hc r'
    rw [hjobs]
    by_cases hne : r = r'
    · subst hne
      rw [if_pos rfl, if_pos rfl, h.completions_eq hj] at hr
      rw [jobs_setStage_self hj]
      exact Nat.add_right_cancel (hr.trans (Nat.add_comm _ _))
    · rw [if_neg hne, if_neg hne] at hr
      rw [jobs_setStage_ne (Ne.symm hne), ← h.completed]
      exact hr
  direct r' q' c hj' := by
    rw [hjobs] at hj'
    by_cases hne : r = r'
    · subst hne
      rw [jobs_setStage_self hj] at hj'
      cases hj'
      exact hd c rfl
    · rw [jobs_setStage_ne (Ne.symm hne)] at hj'
      exact (hf r' hne).trans (h.direct r' q' c hj')

theorem add (h : Books d) (stage : Stage) (hjobs : d'.jobs = d.jobs ++ [⟨q, stage⟩])
    (hc : ∀ r', d'.completions r' =
      d.completions r' + if d.jobs.length = r' then stage.completions else 0)
    (hf : d'.bios = d.bios) (hd : ∀ c, stage ≠ .direct c) : Books d' where
  completed r' := by
    rw [hc, h.completed, hjobs]
    by_cases hr : d.jobs.length = r'
    · subst hr
      simp
    · rw [if_neg hr, List.getElem?_append]
      split
      · rfl
      · rw [List.getElem?_eq_none (by omega), List.getElem?_eq_none (by simp; omega)]
        rfl
  direct r' q' c hj := by
    rw [hjobs, List.getElem?_append] at hj
    split at hj
    · unfold Device.inFlight
      rw [hf]
      exact h.direct r' q' c hj
    · have hst := List.mem_of_getElem? hj
      rw [List.mem_singleton] at hst
      cases hst
      exact absurd rfl (hd c)

/-- A step of a transaction that completes nothing. -/
theorem remote (h : Books d) (hj : d.jobs[r]? = some ⟨q, .remote m⟩) (m' : Remote)
    (hjobs : d'.jobs = (d.setStage r (.remote m')).jobs) (hlog : m'.io.log = m.io.log)
    (hc : ∀ r', d'.completions r' = d.completions r')
    (hf : ∀ r', r ≠ r' → d'.inFlight r' = d.inFlight r') : Books d' :=
  h.update hj (.remote m') hjobs (fun r' => by simp only [hc, Stage.completions, hlog]) hf nofun

end Books

/-! ### Steps -/

theorem localComplete_log (m : Remote) (status : Option Errno) :
    (m.localComplete status).io.log = m.io.log := by
  unfold Remote.localComplete
  dsimp only
  split <;> rfl

theorem submitBios_setStage (clones : List (ℕ × ℕ)) (write : Bool) (queue : List Work) (stage : Stage) :
    ((Device.submitBios r write clones (d.taken queue)).setStage r stage).jobs =
      (d.setStage r stage).jobs := by
  unfold Device.setStage
  rw [(submitBios_frame (d.taken queue) r write clones).1]
  rfl

theorem Books.queued (h : Books d) {accepting : Bool} (hm : Moves d (.queue q accepting) d') :
    Books d' := by
  have hnote := completions_note d (.queued d.jobs.length q)
  cases hm with
  | refused _ _ e =>
    refine h.add .ended rfl (fun r' => ?_) rfl nofun
    rw [completions_completeRequest]
    exact congrArg (· + _) (hnote r')
  | accepted =>
    exact h.add .queued rfl
      (fun r' => (hnote r').trans (by simp [Stage.completions, Event.completes])) rfl nofun

theorem Books.worked (h : Books d) (hs : Served d) {connected : Bool} {cloned : ℕ}
    (hm : Moves d (.work connected cloned) d') : Books d' := by
  cases hm with
  | flushes _ _ _ _ hj => exact h.update hj .flushing rfl (fun _ => rfl) (fun _ _ => rfl) nofun
  | @flushesBacking r _ queue _ _ _ _ hj =>
    exact h.update hj .flushing rfl (fun r' => congrArg (· + _)
      (completions_note ((d.taken queue).setStage r .flushing) (.flushIssued r) r')) (fun _ _ => rfl)
      nofun
  | @starts r q _ _ _ _ _ hj =>
    exact h.update hj (.remote { io := d.transaction r q }) rfl (fun _ => rfl) (fun _ _ => rfl) nofun
  | @fails r q queue _ _ _ _ hj =>
    refine h.update hj .ended rfl (fun r' => ?_) (fun _ _ => rfl) nofun
    rw [completions_completeRequest]
    simp [Stage.completions]
    rfl
  | @submits r q queue _ _ _ hq hj =>
    have hu : Untouched d r := hs.jobs r q _ hj
    have hflying :=
      inFlight_submitBios (d.taken queue) r (q.op = .write) ((spans q.sector q.bios).take cloned)
    unfold Device.submitToBackingStore
    generalize (spans q.sector q.bios).take cloned = clones at hflying
    obtain ⟨hbios, c', hc', hjobs⟩ := endRequest_frame (q := q) (r := r)
      (d := Device.submitBios r (q.op = .write) clones (d.taken queue))
      (c := { pendingBios := 1 + clones.length }) (cloneStatus q cloned)
    have hc' : c'.pendingBios = clones.length := hc'.trans (Nat.add_sub_cancel_left ..)
    refine h.update hj (.direct c') (hjobs.trans (submitBios_setStage _ _ _ _)) (fun r' => ?_)
      (fun r' hne => (((Apart.pop hq dispatch_ne).submitBios hne _ _).endRequest hne _ _).flying) ?_
    · rw [completions_endRequest, completions_submitBios]
      simp only [Stage.completions, hc', Nat.add_sub_cancel_left, ite_self, Nat.add_zero]
      split_ifs <;> first | rfl | omega
    · rintro _ ⟨⟩
      have h0 : (d.taken queue).inFlight r = 0 := hu.flying
      rw [hc', ← Nat.zero_add clones.length, ← h0, ← hflying]
      exact congrArg (List.countP _) hbios
  | @retryFails r q m queue _ _ hq hj | @unreadable r q m queue _ _ _ hq hj =>
    exact h.remote hj _ (localWorkDone_jobs _ _ _ _)
      (localComplete_log _ _) (fun _ => completions_localWorkDone _) fun r' hne =>
      ((Apart.pop hq (localWork_ne hne)).localWorkDone hne _ _).flying
  | @retries r q m queue _ _ _ hq hj =>
    exact h.remote hj m (jobs_setStage_id hj).symm rfl
      (completions_note (d.taken queue) (.bioSubmitted r q.sector q.count true))
      fun r' hne => ((Apart.pop hq (localWork_ne hne)).submitBio hne _ _ _ _).flying
  | @clones r q m queue _ _ _ hq hj =>
    exact h.remote hj _ ((localWorkDone_jobs _ _ _ _).trans (submitBios_setStage _ _ _ _))
      (localComplete_log _ _) (fun r' => (completions_localWorkDone _).trans
      (completions_submitBios _ _ (d.taken queue) r' r)) fun r' hne =>
      (((Apart.pop hq (localWork_ne hne)).submitBios hne _ _).localWorkDone hne _ _).flying

/-- **Every step keeps the books.** -/
theorem Books.step (h : Books d) (hs : Served d) {l : Label} (hstep : d.step l = some d') : Books d' := by
  have hm := step_moves hstep
  cases l with
  | queue => exact h.queued hm
  | work => exact h.worked hs hm
  | flushed status =>
    cases hm with
    | @flushed r q _ _ hj =>
      have hc : ∀ (e : Device) r',
        ({ e.completeRequest r status with worker := none } : Device).completions r' =
          e.completions r' + if r = r' then 1 else 0 :=
            fun e r' => completions_completeRequest e r' r status
      unfold Device.flushed
      dsimp only
      split <;> exact h.update hj .ended rfl (fun r' => by rw [hc]; simp [Stage.completions])
        (fun _ _ => rfl) nofun
  | started =>
    cases hm with
    | started _ hj => exact h.remote hj _ (jobs_setStage_id hj).symm rfl (fun _ => rfl) fun _ _ => rfl
  | io r i answer =>
    cases hm with
    | @runs _ _ q m m' x rest _ answer' d₁ io hj hi ha hio =>
      refine h.update hj (.remote { m' with io := io }) ?_ (fun r' => ?_)
        (fun r' hne => (ha.apart hne).flying) nofun
      · unfold Device.setStage
        rw [ha.jobs]
      · rw [completions_setStage, ha.completions, Stage.completions, Stage.completions,
          (Io.run_effect hi hio).1, List.countP_append]
        split_ifs <;> omega
  | rdma r status cancelled =>
    cases hm with
    | @rdma _ q m _ _ io hj hio =>
      refine h.remote hj { m with io := io } ?_ ?_ (fun r' => ?_)
        fun r' hne => (((Apart.refl d r').remoteRdmaComplete hne status cancelled).setStage r _).flying
      · unfold Device.setStage Device.remoteRdmaComplete
        split <;> rfl
      · dsimp only [Io.State.step] at hio
        split at hio <;> cases hio
        rfl
      · rw [completions_setStage]
        unfold Device.remoteRdmaComplete
        split <;> simp [Event.completes]
  | transport r =>
    cases hm with
    | @transport _ q m io hj hio =>
      refine h.remote hj { m with io := io } rfl ?_ (fun _ => rfl) fun _ _ => rfl
      dsimp only [Io.State.step] at hio
      split at hio <;> cases hio
      rfl
  | bio i status =>
    cases hm with
    | @remoteBio _ b q m _ hi hb hj =>
      exact h.remote hj _ rfl (localComplete_log _ _)
        (completions_note _ (.bioEnded b.request b.sector b.count status)) fun r' hne =>
        (Apart.ended hi hne status).flying
    | @directBio _ b q c _ hi hb hj =>
      have hflying := inFlight_ended hi hb status
      rw [h.direct _ _ _ hj] at hflying
      obtain ⟨hbios, c', hc', hjobs⟩ := endRequest_frame (d := d.ended i b status) (r := b.request)
        (q := q) (c := { c with backingIoFailed := c.backingIoFailed || status.isSome }) status
      have hc' : c'.pendingBios = (d.ended i b status).inFlight b.request := hc'.trans (by simp; omega)
      refine h.update hj (.direct c') hjobs (fun r' => ?_)
        (fun r' hne => ((Apart.ended hi hne status).endRequest hne _ _).flying) ?_
      · rw [completions_endRequest]
        have hend : (d.ended i b status).completions r' = d.completions r' :=
          completions_note _ (.bioEnded b.request b.sector b.count status) r'
        simp only [hend, Stage.completions, hc']
        split_ifs <;> omega
      · rintro _ ⟨⟩
        rw [hc']
        exact congrArg (List.countP _) hbios

/-! ### Every run -/

theorem books_initial (h : d.Initial) : Books d := by
  rw [h]
  exact ⟨fun r => by simp [Device.completions], fun r q c hj => by simp at hj⟩

/-- What is still to be done for a request. -/
def Device.Underway (d : Device) (r : ℕ) : Stage → Prop
  | .queued | .flushing => True
  | .remote m => ¬ m.io.Done
  | .direct _ => d.inFlight r ≠ 0
  | .ended => False

/-- **Exactly one completion.** In every run of a device, whatever fails and in whatever order bios,
RDMA operations and flushes end, a request is completed at most once and only after it was queued,
and a request that was queued is completed unless there is still something to do for it. -/
theorem request_completed_once (h : deviceSystem.Reachable d) (r : ℕ) : d.completions r ≤ 1 ∧
    (d.completions r = 1 → ∃ q, .queued r q ∈ d.log) ∧
    ∀ q stage, d.jobs[r]? = some ⟨q, stage⟩ → (d.completions r = 1 ∨ d.Underway r stage) := by
  obtain ⟨hserved, hbooks⟩ : Served d ∧ Books d := by
    refine System.Reach.invariant (I := fun d => Served d ∧ Books d) (fun d h0 => ?_)
      (fun d l d' _ hI _ hs => ?_) h
    · exact ⟨served_initial h0, books_initial h0⟩
    · exact ⟨hI.1.step hs, hI.2.step hI.1 hs⟩
  cases hj : d.jobs[r]? with
  | none =>
    have h0 : d.completions r = 0 := by simp [hbooks.completed, hj]
    refine ⟨by omega, by omega, fun _ _ hnone => ?_⟩
    cases hnone
  | some job =>
    obtain ⟨q, stage⟩ := job
    have hc := hbooks.completions_eq hj
    refine ⟨?_, fun _ => ⟨q, (hserved.requests r q).mpr (requestOf_of_job hj)⟩, ?_⟩
    · rw [hc]
      cases stage with
      | remote m =>
        have hok : RemoteOk d r q m := hserved.jobs r q _ hj
        exact (Io.phase_reachable hok.run).story.counts.1
      | queued | flushing | ended => decide
      | direct c => simp only [Stage.completions]; split <;> omega
    · rintro _ _ ⟨⟩
      rw [hc]
      cases stage with
      | remote m =>
        by_cases hdone : m.io.Done
        · have hok : RemoteOk d r q m := hserved.jobs r q _ hj
          obtain ⟨log, hfinal, halone⟩ := (Io.phase_reachable hok.run).done hdone
          left
          show m.io.log.countP _ = 1
          rw [halone.log]
          exact hfinal.counts.1
        · exact .inr hdone
      | queued | flushing => exact .inr trivial
      | ended => exact .inl rfl
      | direct c =>
        simp only [Stage.completions, Device.Underway, hbooks.direct r q c hj]
        split <;> simp_all

/-- A read goes to the Backing Store; before its bio ends, a write is carried out by a transaction. -/
def twoRequests : List Label :=
  [.queue ⟨.read, 0, [8]⟩ true, .work false 1, .queue ⟨.write, 8, [8]⟩ true, .work true 0,
    .io 1 0 {}, .io 1 0 {}, .io 1 0 {}, .io 1 0 {}, .io 1 0 {}, .io 1 0 {}, .io 1 0 {}, .io 1 0 {},
    .started, .rdma 1 none false, .io 1 1 {}, .io 1 1 {}, .bio 0 none, .io 1 2 {}, .io 1 2 {},
    .io 1 2 {}]

/-- The write is completed while the read is underway, and then the read. -/
theorem request_completed_once_two : ∃ d d', deviceSystem.Reachable d ∧ deviceSystem.Reachable d' ∧
    d.completions 1 = 1 ∧ (∃ q stage, d.jobs[0]? = some ⟨q, stage⟩ ∧ d.Underway 0 stage) ∧
    d'.completions 0 = 1 ∧ d'.completions 1 ≤ 1 ∧ ∃ q, .queued 0 q ∈ d'.log := by
  have hrun : (deviceSystem.exec { mode := .backedStrict } twoRequests).any (fun d =>
        d.completions 0 = 0 ∧ d.completions 1 = 1 ∧ (d.jobs[0]?).isSome) = true ∧
      (deviceSystem.exec { mode := .backedStrict } (twoRequests ++ [.bio 1 (some .eio)])).any
        (fun d => d.completions 0 = 1) = true := by
    decide +kernel
  have hinit : deviceSystem.init { mode := .backedStrict } := rfl
  obtain ⟨d, hr, h0, h1, hjob⟩ := System.exists_of_exec hinit hrun.1
  obtain ⟨d', hr', h2⟩ := System.exists_of_exec hinit hrun.2
  obtain ⟨⟨q, stage⟩, hq⟩ := Option.isSome_iff_exists.mp hjob
  refine ⟨d, d', hr, hr', h1, ⟨q, stage, hq, ?_⟩, h2, (request_completed_once hr' 1).1,
    (request_completed_once hr' 0).2.1 h2⟩
  exact ((request_completed_once hr 0).2.2 q stage hq).resolve_left (by omega)

end Block
end Infiniswap
