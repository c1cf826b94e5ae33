/-
# Every run of a device keeps its requests and their transactions together

The steps that end a bio, the direct path to the Backing Store, and the
invariant of the whole device: every request is where the device says it is, a
number that is not in use has not been seen, and the log names the requests.
-/
import Infiniswap.Block.Coupling

namespace Infiniswap
namespace Block

open Threads Transition

variable {d d' : Device} {r r' : ℕ} {q : Request} {m : Remote} {c : Ctx}

/-! ### A bio ends -/

section Ended

variable {i : ℕ} {b : Bio} (hi : d.bios[i]? = some b) (hb : b.result = none) (status : Option Errno)
include hi hb

theorem inFlight_ended : (d.ended i b status).inFlight b.request + 1 = d.inFlight b.request := by
  obtain ⟨hlt, hget⟩ := List.getElem?_eq_some_iff.mp hi
  have hpos : 0 < d.inFlight b.request :=
    List.countP_pos_iff.mpr ⟨b, List.mem_of_getElem? hi, by simp [hb]⟩
  show (d.bios.set i _).countP _ + 1 = _
  unfold Device.inFlight at hpos ⊢
  rw [List.countP_set hlt, hget, if_pos (by simp [hb]), if_neg (by simp)]
  omega

/-- **A bio of a transaction ends.** -/
theorem RemoteOk.bioEnded (h : RemoteOk d b.request q m) :
    RemoteOk (d.ended i b status) b.request q (m.localComplete status) := by
  have hfly := inFlight_ended hi hb status
  have hl : Linked (d.ended i b status) b.request m :=
    h.toLinked.grow (fun e he => List.mem_cons_of_mem _ he) fun _ _ hmem =>
      (List.mem_cons.mp hmem).resolve_left nofun
  cases h.attempt with
  | idle _ hf _ | waiting _ hf _ _ => omega
  | flying hq hf hpos ho hbad =>
    refine hl.localComplete hq ho (by omega) fun hor => ?_
    cases hst : status with
    | none =>
      rw [hst, Option.or_none] at hor
      exact (hbad hor).mono fun e he => List.mem_cons_of_mem _ he
    | some e => exact .inl ⟨b.sector, b.count, e, List.mem_cons_self⟩

omit hi hb in
theorem DirectOk.bioEnded (h : DirectOk d b.request c) : DirectOk (d.ended i b status) b.request
    { c with backingIoFailed := c.backingIoFailed || status.isSome } where
  failed hf := by
    rcases Bool.or_eq_true_iff.mp hf with hf | hst
    · exact (h.failed hf).mono fun e he => List.mem_cons_of_mem _ he
    · obtain ⟨e, rfl⟩ := Option.isSome_iff_exists.mp hst
      exact .inl ⟨b.sector, b.count, e, List.mem_cons_self⟩
  degrades sector count hmem :=
    (h.degrades sector count ((List.mem_cons.mp hmem).resolve_left nofun)).mono fun e he =>
      List.mem_cons_of_mem _ he

end Ended

/-- **A bio of a request on the direct path is accounted for.** The last one completes the request. -/
theorem DirectOk.endRequest (h : DirectOk d r c) (status : Option Errno) :
    ∃ c', (d.endRequest r q c status).jobs = (d.setStage r (.direct c')).jobs ∧
      DirectOk (d.endRequest r q c status) r c' := by
  refine ⟨{ c with status := c.status.or status, pendingBios := c.pendingBios - 1 }, ?_⟩
  unfold Device.endRequest
  dsimp only
  split
  · exact ⟨rfl, h.failed, h.degrades⟩
  · split
    · rename_i hbad
      refine ⟨rfl, fun _ => (h.failed hbad).mono ?_, fun _ _ _ => (h.failed hbad).mono ?_⟩ <;>
        exact fun e he => List.mem_cons_of_mem _ (List.mem_cons_of_mem _ he)
    · refine ⟨rfl, fun hbad => (h.failed hbad).mono ?_, fun sector count hmem =>
        (h.degrades sector count ((List.mem_cons.mp hmem).resolve_left nofun)).mono ?_⟩ <;>
        exact fun e he => List.mem_cons_of_mem _ he

/-! ### Requests by number -/

/-- The request with a number. -/
def Device.requestOf (d : Device) (r : ℕ) : Option Request := d.jobs[r]?.map Job.request

theorem requestOf_setStage (r r' : ℕ) (stage : Stage) :
    (d.setStage r stage).requestOf r' = d.requestOf r' := by
  unfold Device.requestOf Device.setStage
  rw [List.getElem?_modify]
  cases d.jobs[r']? with
  | none => rfl
  | some j =>
    dsimp only [Option.map_eq_map, Option.map_some]
    split <;> rfl

theorem requestOf_of_job {j : Job} (hj : d.jobs[r]? = some j) : d.requestOf r = some j.request := by
  rw [Device.requestOf, hj]
  rfl

theorem jobs_setStage_self {j : Job} (hj : d.jobs[r]? = some j) (stage : Stage) :
    (d.setStage r stage).jobs[r]? = some ⟨j.request, stage⟩ := by
  simp [Device.setStage, hj]

theorem jobs_setStage_ne (hne : r' ≠ r) (stage : Stage) :
    (d.setStage r stage).jobs[r']? = d.jobs[r']? := by
  simp [Device.setStage, Ne.symm hne]

theorem jobs_setStage_id {stage : Stage} (hj : d.jobs[r]? = some ⟨q, stage⟩) :
    (d.setStage r stage).jobs = d.jobs := by
  refine List.ext_getElem? fun r' => ?_
  by_cases hne : r' = r
  · rw [hne, jobs_setStage_self hj, hj]
  · exact jobs_setStage_ne hne stage

theorem length_setStage (r : ℕ) (stage : Stage) : (d.setStage r stage).jobs.length = d.jobs.length :=
  List.length_modify _ _ _

/-! ### The whole device -/

/-- **The invariant of a device**: what holds of every request at its stage, of numbers not in use,
and of the requests the log names. -/
structure Served (d : Device) : Prop where
  jobs : ∀ r q stage, d.jobs[r]? = some ⟨q, stage⟩ → JobOk d r q stage
  fresh : ∀ r, d.jobs.length ≤ r → Untouched d r
  requests : ∀ r q, .queued r q ∈ d.log ↔ d.requestOf r = some q

/-- A step made for request `r` has to show what holds of `r` afterwards, and that it queues nothing. -/
theorem Served.update (h : Served d) {stage : Stage} (hj : d.jobs[r]? = some ⟨q, stage⟩) (stage' : Stage)
    (hjobs : d'.jobs = (d.setStage r stage').jobs) (ha : ∀ r', r ≠ r' → Apart d d' r')
    (hl : ∀ q, .queued r q ∈ d'.log ↔ .queued r q ∈ d.log) (hr : JobOk d' r q stage') : Served d' := by
  have hlt : r < d.jobs.length := (List.getElem?_eq_some_iff.mp hj).1
  have hof : ∀ r', d'.requestOf r' = d.requestOf r' := fun r' => by
    rw [← requestOf_setStage (d := d) r r' stage', Device.requestOf, Device.requestOf, hjobs]
  refine ⟨fun r' q' st hj' => ?_, fun r' hle => ?_, fun r' q' => ?_⟩
  · rw [hjobs] at hj'
    by_cases hne : r' = r
    · subst hne
      rw [jobs_setStage_self hj] at hj'
      cases hj'
      exact hr
    · rw [jobs_setStage_ne hne] at hj'
      exact (ha r' (Ne.symm hne)).jobOk _ (h.jobs r' q' st hj')
  · rw [hjobs, length_setStage] at hle
    exact (ha r' (by omega)).untouched (h.fresh r' hle)
  · rw [hof, ← h.requests]
    by_cases hne : r = r'
    · subst hne
      exact hl q'
    · exact (ha r' hne).events _ rfl

theorem Served.add (h : Served d) (stage : Stage) (hjobs : d'.jobs = d.jobs ++ [⟨q, stage⟩])
    (ha : ∀ r', d.jobs.length ≠ r' → Apart d d' r')
    (hl : ∀ q', .queued d.jobs.length q' ∈ d'.log ↔ q' = q ∨ .queued d.jobs.length q' ∈ d.log)
    (hr : JobOk d' d.jobs.length q stage) : Served d' := by
  have hold : ∀ r', r' < d.jobs.length → d'.jobs[r']? = d.jobs[r']? := fun r' hlt => by
    rw [hjobs, List.getElem?_append_left hlt]
  have hnew : d'.jobs[d.jobs.length]? = some ⟨q, stage⟩ := by rw [hjobs, List.getElem?_concat_length]
  have hnone : ∀ {r' q'}, d.requestOf r' = some q' → r' < d.jobs.length := fun hr' => by
    obtain ⟨j, hj, -⟩ := Option.map_eq_some_iff.mp hr'
    exact (List.getElem?_eq_some_iff.mp hj).1
  refine ⟨fun r' q' st hj' => ?_, fun r' hle => ?_, fun r' q' => ?_⟩
  · have hlt := (List.getElem?_eq_some_iff.mp hj').1
    rw [hjobs, List.length_append, List.length_singleton] at hlt
    rcases Nat.lt_succ_iff_lt_or_eq.mp hlt with hlt | rfl
    · rw [hold r' hlt] at hj'
      exact (ha r' (by omega)).jobOk _ (h.jobs r' q' st hj')
    · rw [hnew] at hj'
      cases hj'
      exact hr
  · rw [hjobs, List.length_append, List.length_singleton] at hle
    exact (ha r' (by omega)).untouched (h.fresh r' (by omega))
  · by_cases hne : d.jobs.length = r'
    · subst hne
      rw [hl, h.requests, requestOf_of_job hnew, Option.some_inj, eq_comm]
      exact or_iff_left fun hof => absurd (hnone hof) (Nat.lt_irrefl _)
    · rw [(ha r' hne).events _ rfl, h.requests]
      by_cases hlt : r' < d.jobs.length
      · rw [Device.requestOf, Device.requestOf, hold r' hlt]
      · refine iff_of_false (fun hof => hlt (hnone hof)) fun hof => ?_
        obtain ⟨j, hj, -⟩ := Option.map_eq_some_iff.mp hof
        have hlt' := (List.getElem?_eq_some_iff.mp hj).1
        rw [hjobs, List.length_append, List.length_singleton] at hlt'
        omega

/-! ### What a step leaves to the others -/

theorem dispatch_ne : Work.dispatch r ≠ .localWork r' := nofun

theorem localWork_ne (hne : r ≠ r') : Work.localWork r ≠ .localWork r' :=
  fun h => hne (Work.localWork.inj h)

theorem queued_cons {e : Event} {log : List Event} (he : e ≠ .queued r q) :
    .queued r q ∈ e :: log ↔ .queued r q ∈ log := List.mem_cons.trans (or_iff_right (Ne.symm he))

section Frames

variable {m' : Remote} {x : Io.Instr} {answer answer' : Io.Answer} {d₁ : Device}

section

variable (ha : Adapts d r q m answer x answer' m' d₁)

include ha

theorem Adapts.apart (hne : r ≠ r') : Apart d d₁ r' := by
  cases ha with
  | prepared => exact (Apart.refl d r').note hne
  | owned => exact (Apart.refl d r').submitBio hne _ _ _ _
  | worked => exact (Apart.refl d r').push (localWork_ne hne)
  | busy | other => exact Apart.refl d r'
  | degraded => exact (Apart.refl d r').degradeBacking hne _ _
  | completed | rejected => exact (Apart.refl d r').completeRequest hne _
  | released => exact (Apart.refl d r').note hne

theorem Adapts.jobs : d₁.jobs = d.jobs := by
  cases ha <;> rfl

theorem Adapts.queued (q' : Request) :
    .queued r q' ∈ d₁.log ↔ .queued r q' ∈ d.log := by
  cases ha with
  | worked | busy | other => exact Iff.rfl
  | _ => exact queued_cons nofun

end

end Frames

theorem localWorkDone_jobs (d : Device) (r : ℕ) (m : Remote) (status : Option Errno) :
    (d.localWorkDone r m status).jobs = (d.setStage r (.remote (m.localComplete status))).jobs := by
  unfold Device.localWorkDone
  dsimp only
  split <;> rfl

theorem queued_localWorkDone {status : Option Errno} :
    .queued r q ∈ (d.localWorkDone r' m status).log ↔ .queued r q ∈ d.log := by
  unfold Device.localWorkDone
  dsimp only
  split
  · exact queued_cons nofun
  · exact Iff.rfl

theorem queued_endRequest {q' : Request} {status : Option Errno} :
    .queued r q ∈ (d.endRequest r' q' c status).log ↔ .queued r q ∈ d.log := by
  unfold Device.endRequest
  dsimp only
  split
  · exact Iff.rfl
  · refine (queued_cons (e := .completed r' _) nofun).trans ?_
    split
    · exact queued_cons nofun
    · exact Iff.rfl

/-! ### Every step -/

theorem Served.queued (h : Served d) {accepting : Bool} (hm : Moves d (.queue q accepting) d') :
    Served d' := by
  have hu := h.fresh d.jobs.length (Nat.le_refl _)
  cases hm with
  | refused _ _ e =>
    refine h.add (q := q) .ended rfl (fun r' hne => ?_) (fun q' => ?_) fun sector count hmem => ?_
    · exact (((Apart.refl d r').note (e := .queued d.jobs.length q) hne).addJob q
        .ended).completeRequest hne _
    · refine (queued_cons (e := .completed _ (some e)) nofun).trans (List.mem_cons.trans ?_)
      rw [Event.queued.injEq, eq_self, true_and]
    · exact absurd ((List.mem_cons.mp ((List.mem_cons.mp hmem).resolve_left nofun)).resolve_left nofun)
        (hu.degrades sector count)
  | accepted _ _ hop _ =>
    refine h.add (q := q) .queued rfl (fun r' hne => ?_) (fun q' => ?_)
      ⟨hu.flying, ?_, fun sector count hmem => ?_⟩
    · exact (((Apart.refl d r').note (e := .queued d.jobs.length q) hne).addJob q .queued).push
        (w := .dispatch d.jobs.length) nofun
    · refine List.mem_cons.trans ?_
      rw [Event.queued.injEq, eq_self, true_and]
    · show (d.queue ++ [Work.dispatch d.jobs.length]).count (Work.localWork d.jobs.length) = 0
      rw [List.count_append, hu.queue]
      rfl
    · exact hu.degrades sector count ((List.mem_cons.mp hmem).resolve_left nofun)

theorem Served.worked (h : Served d) {connected : Bool} {cloned : ℕ}
    (hm : Moves d (.work connected cloned) d') : Served d' := by
  cases hm with
  | flushes _ _ _ hq hj hop =>
    exact h.update hj _ rfl (fun r' _ => ((Apart.pop hq dispatch_ne).setStage _ .flushing).worker _ _)
      (fun _ => Iff.rfl) hop
  | @flushesBacking r _ _ _ _ _ hq hj hop =>
    exact h.update hj _ rfl (fun r' hne => (((Apart.pop hq dispatch_ne).setStage r .flushing).note
      (e := .flushIssued r) hne).worker _ _) (fun _ => queued_cons (by rintro ⟨⟩)) hop
  | @starts r q queue _ _ _ hq hj =>
    have hu : Untouched d r := h.jobs r q _ hj
    refine h.update hj (.remote { io := d.transaction r q }) rfl
      (fun r' _ => ((Apart.pop hq dispatch_ne).setStage r _).worker _ _) (fun _ => Iff.rfl) ?_
    refine (((Apart.pop hq dispatch_ne).setStage r _).worker _ _).jobOk
      (.remote _) ⟨⟨.init rfl, fun sector count hmem => absurd hmem (hu.degrades sector count), ?_⟩,
      .idle hu.queue hu.flying rfl⟩
    rintro ⟨e, h0 | h0⟩ <;> simp [Device.transaction, pending] at h0
  | @fails r q queue _ _ _ hq hj =>
    have hu : Untouched d r := h.jobs r q _ hj
    refine h.update hj .ended rfl
      (fun r' hne => ?_) (fun _ => queued_cons (by rintro ⟨⟩)) fun sector count hmem =>
      absurd ((List.mem_cons.mp hmem).resolve_left (by rintro ⟨⟩)) (hu.degrades sector count)
    exact ((Apart.pop hq (r := r') dispatch_ne).setStage r .ended).completeRequest hne _
  | @submits r q queue _ _ _ hq hj =>
    have hu : Untouched d r := h.jobs r q _ hj
    obtain ⟨hjobs, -, hlog⟩ :=
      submitBios_frame (d.taken queue) r (q.op = .write) ((spans q.sector q.bios).take cloned)
    have hok : DirectOk (Device.submitBios r (q.op = .write) ((spans q.sector q.bios).take cloned)
        (d.taken queue)) r { pendingBios := 1 + ((spans q.sector q.bios).take cloned).length } :=
      ⟨(by rintro ⟨⟩), fun sector count hmem =>
        absurd ((hlog (.degraded r sector count) (by simp)).mp hmem) (hu.degrades sector count)⟩
    obtain ⟨c', hjobs', hdirect⟩ := hok.endRequest (q := q) (cloneStatus q cloned)
    refine h.update hj (.direct c') ?_ (fun r' hne => ?_) (fun q' => ?_) hdirect
    · refine hjobs'.trans ?_
      unfold Device.setStage
      rw [hjobs]
      rfl
    · exact ((Apart.pop hq (r := r') dispatch_ne).submitBios hne _ _).endRequest hne _ _
    · exact queued_endRequest.trans (hlog (.queued r q') (by simp))
  | @retryFails r q m queue _ _ hq hj hop hp =>
    have ht := RemoteOk.taken (h.jobs r q _ hj) hq
    obtain ⟨hone, hnone⟩ := ht.counters hop hp
    exact h.update hj _ (localWorkDone_jobs _ _ _ _) (fun r' hne =>
      (Apart.pop hq (localWork_ne hne)).localWorkDone hne _ _) (fun _ => queued_localWorkDone)
      (ht.toLinked.localWorkDone ht.queue ht.owed (by rw [ht.flying, hone]) hnone _)
  | @retries r q m queue _ _ _ hq hj hop hp =>
    have ht := RemoteOk.taken (h.jobs r q _ hj) hq
    exact h.update hj (.remote m) (jobs_setStage_id hj).symm
      (fun r' hne => (Apart.pop hq (localWork_ne hne)).submitBio hne _ _ _ _)
      (fun _ => queued_cons (by rintro ⟨⟩)) (ht.retries hop hp)
  | @unreadable r q m queue _ _ _ hq hj =>
    have ht := RemoteOk.taken (h.jobs r q _ hj) hq
    have hl : Linked (d.taken queue) r { m with localStatus := none, pendingBios := 1 } :=
      ⟨ht.run, ht.degrades, ht.failed⟩
    exact h.update hj _ (localWorkDone_jobs _ _ _ _)
      (fun r' hne => (Apart.pop hq (localWork_ne hne)).localWorkDone hne _ _)
      (fun _ => queued_localWorkDone) (hl.localWorkDone ht.queue ht.owed (by rw [ht.flying]) rfl _)
  | @clones r q m queue _ _ _ hq hj =>
    have ht := RemoteOk.taken (h.jobs r q _ hj) hq
    obtain ⟨hjobs, -, hlog⟩ :=
      submitBios_frame (d.taken queue) r (q.op = .write) ((spans q.sector q.bios).take cloned)
    refine h.update hj (.remote _) ?_ (fun r' hne => ?_) (fun q' => ?_) (ht.clones cloned)
    · refine (localWorkDone_jobs _ _ _ _).trans ?_
      unfold Device.setStage
      rw [hjobs]
      rfl
    · exact ((Apart.pop hq (localWork_ne hne)).submitBios hne _ _).localWorkDone hne _ _
    · exact queued_localWorkDone.trans (hlog (.queued r q') (by simp))

theorem Served.flushed (h : Served d) (status : Option Errno) (hj : d.jobs[r]? = some ⟨q, .flushing⟩) :
    Served (d.flushed r status) := by
  have hop : q.op = .flush := h.jobs r q _ hj
  unfold Device.flushed
  dsimp only
  split
  · refine h.update hj .ended rfl (fun r' hne => ?_) (fun _ => ?_) fun _ _ _ => hop
    · exact ((((Apart.refl d r').degradeBacking hne 0 0).setStage r .ended).completeRequest hne
        status).worker none _
    · exact (queued_cons (e := .completed r status) nofun).trans
        (queued_cons (e := .degraded r 0 0) nofun)
  · refine h.update hj .ended rfl (fun r' hne => ?_) (fun _ => ?_) fun _ _ _ => hop
    · exact (((Apart.refl d r').setStage r .ended).completeRequest hne status).worker none _
    · exact queued_cons nofun

/-- **Every step keeps the invariant of the device.** -/
theorem Served.step (h : Served d) {l : Label} (hs : d.step l = some d') : Served d' := by
  have hm := step_moves hs
  cases l with
  | queue => exact h.queued hm
  | work => exact h.worked hm
  | flushed status =>
    cases hm with
    | flushed _ _ hj => exact h.flushed status hj
  | started =>
    cases hm with
    | started =>
      exact ⟨fun r q st hj => ((Apart.refl d r).worker none _).jobOk _ (h.jobs r q st hj),
        fun r hle => ((Apart.refl d r).worker none _).untouched (h.fresh r hle), h.requests⟩
  | io r i answer =>
    cases hm with
    | @runs _ _ q m m' x rest _ answer' d₁ io hj hi ha hio =>
      refine h.update hj (.remote { m' with io := io }) ?_ (fun r' hne => (ha.apart hne).setStage r _)
        ha.queued ?_
      · unfold Device.setStage
        rw [ha.jobs]
      · exact ((Apart.refl d₁ r).setStage r _).jobOk (.remote { m' with io := io })
          (RemoteOk.adapts (h.jobs r q _ hj) hi ha hio)
  | rdma r status cancelled =>
    cases hm with
    | @rdma _ q m _ _ io hj hio =>
      refine h.update hj (.remote { m with io := io }) ?_ (fun r' hne =>
        ((Apart.refl d r').remoteRdmaComplete hne status cancelled).setStage r _) (fun _ => ?_) ?_
      · unfold Device.setStage Device.remoteRdmaComplete
        split <;> rfl
      · unfold Device.remoteRdmaComplete
        split
        · exact queued_cons nofun
        · exact Iff.rfl
      · exact ((Apart.refl _ r).setStage r _).jobOk (.remote _) (RemoteOk.rdma (h.jobs r q _ hj) hio)
  | transport r =>
    cases hm with
    | @transport _ q m io hj hio =>
      exact h.update hj (.remote _) rfl (fun r' _ => (Apart.refl d r').setStage r _) (fun _ => Iff.rfl)
        (((Apart.refl _ r).setStage r _).jobOk (.remote _) (RemoteOk.transport (h.jobs r q _ hj) hio))
  | bio i status =>
    cases hm with
    | @remoteBio _ b q m _ hi hb hj =>
      exact h.update hj (.remote _) rfl (fun r' hne => (Apart.ended hi hne status).setStage _ _)
        (fun _ => queued_cons nofun) (((Apart.refl _ b.request).setStage _ _).jobOk (.remote _)
        (RemoteOk.bioEnded hi hb status (h.jobs _ q _ hj)))
    | @directBio _ b q c _ hi hb hj =>
      obtain ⟨c', hjobs, hdirect⟩ :=
        (DirectOk.bioEnded status (h.jobs _ q _ hj)).endRequest (q := q) status
      exact h.update hj (.direct c') hjobs (fun r' hne => (Apart.ended hi hne status).endRequest hne _ _)
        (fun _ => queued_endRequest.trans (queued_cons nofun)) hdirect

theorem served_initial (h : d.Initial) : Served d := by
  rw [h]
  exact ⟨fun r q st hj => by simp at hj, fun r _ => ⟨rfl, rfl, nofun⟩,
    fun r q => ⟨nofun, fun hr => by simp [Device.requestOf] at hr⟩⟩

end Block
end Infiniswap
