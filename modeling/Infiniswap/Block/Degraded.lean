/-
# What degrades the Backing Store

A device becomes Backing-Degraded, and sectors of its Backing Store invalid, on
behalf of a request, and the log names it. On the direct path this is a request
one of whose bios failed. A transaction cannot tell: the work that submits its
bios reports its own errors the same way, so a read that falls back to a range
that is partly invalid, or one of whose bios cannot be cloned, degrades the
device although no bio of it failed. In runs where the work that serves a read
never fails by itself, only failed bios degrade the device on behalf of reads.
-/
import Infiniswap.Block.Served

namespace Infiniswap
namespace Block

open Transition

variable {d d' : Device} {r : ℕ} {q : Request} {l : Label}

/-! ### Every mark has its event -/

/-- The device is degraded, and a sector invalid, because of an event; and the work of which
requests failed. -/
structure Blamed (d : Device) : Prop where
  degraded : d.degraded = true → ∃ r sector count, .degraded r sector count ∈ d.log
  invalid : ∀ x, d.invalid x = true →
    ∃ r sector count, .degraded r sector count ∈ d.log ∧ sector ≤ x ∧ x < sector + count
  worked : ∀ r, .localWorkFailed r ∈ d.log → ∃ q, .queued r q ∈ d.log ∧ q.op ≠ .read

namespace Blamed

section

variable (h : Blamed d)

include h

theorem keep (hl : ∀ e ∈ d.log, e ∈ d'.log) (hd : d'.degraded = d.degraded)
    (hi : d'.invalid = d.invalid)
    (hw : ∀ r, .localWorkFailed r ∈ d'.log → .localWorkFailed r ∈ d.log ∨ ∃ q, .queued r q ∈ d.log ∧
      q.op ≠ .read) : Blamed d' where
  degraded h0 := by
    obtain ⟨r, sector, count, he⟩ := h.degraded (hd ▸ h0)
    exact ⟨r, sector, count, hl _ he⟩
  invalid x h0 := by
    obtain ⟨r, sector, count, he, hx⟩ := h.invalid x (hi ▸ h0)
    exact ⟨r, sector, count, hl _ he, hx⟩
  worked r hr := by
    obtain ⟨q, hq, hop⟩ := (hw r hr).elim (h.worked r) id
    exact ⟨q, hl _ hq, hop⟩

theorem note {e : Event} (he : ∀ r, e ≠ .localWorkFailed r) : Blamed (d.note e) :=
  h.keep (fun _ h0 => List.mem_cons_of_mem _ h0) rfl rfl
    fun r hr => .inl ((List.mem_cons.mp hr).resolve_left (Ne.symm (he r)))

theorem same (hl : d'.log = d.log) (hd : d'.degraded = d.degraded) (hi : d'.invalid = d.invalid) :
    Blamed d' := h.keep (fun _ he => hl ▸ he) hd hi fun _ hr => .inl (hl ▸ hr)

theorem setStage (r : ℕ) (stage : Stage) : Blamed (d.setStage r stage) := h.same rfl rfl rfl

theorem addJob (q : Request) (stage : Stage) : Blamed (d.addJob q stage) := h.same rfl rfl rfl

theorem ended (i : ℕ) (b : Bio) (status : Option Errno) : Blamed (d.ended i b status) :=
  (h.note (e := .bioEnded b.request b.sector b.count status) nofun).same rfl rfl rfl

theorem completeRequest (r : ℕ) (status : Option Errno) : Blamed (d.completeRequest r status) :=
  h.note nofun

theorem degradeBacking (r sector count : ℕ) : Blamed (d.degradeBacking r sector count) where
  degraded _ := ⟨r, sector, count, List.mem_cons_self⟩
  invalid x hx := by
    rcases Bool.or_eq_true_iff.mp hx with hx | hx
    · obtain ⟨r', sector', count', he, hx⟩ := h.invalid x hx
      exact ⟨r', sector', count', List.mem_cons_of_mem _ he, hx⟩
    · exact ⟨r, sector, count, List.mem_cons_self, by simpa using hx⟩
  worked r' hr' := by
    obtain ⟨q, hq, hop⟩ := h.worked r' ((List.mem_cons.mp hr').resolve_left nofun)
    exact ⟨q, List.mem_cons_of_mem _ hq, hop⟩

theorem submitBios (r : ℕ) (write : Bool) (clones : List (ℕ × ℕ)) :
    Blamed (Device.submitBios r write clones d) := by
  induction clones generalizing d with
  | nil => exact h
  | cons s rest ih => exact ih ((h.note (e := .bioSubmitted r s.1 s.2 false) nofun).same rfl rfl rfl)

theorem endRequest (r : ℕ) (q : Request) (c : Ctx) (status : Option Errno) :
    Blamed (d.endRequest r q c status) := by
  unfold Device.endRequest
  dsimp only
  split
  · exact h.setStage _ _
  · split
    · exact ((h.setStage _ _).degradeBacking _ _ _).completeRequest _ _
    · exact (h.setStage _ _).completeRequest _ _

theorem localWorkDone {m : Remote} {status : Option Errno}
    (hq : status.isSome = true → .queued r q ∈ d.log ∧ q.op ≠ .read) :
    Blamed (d.localWorkDone r m status) := by
  unfold Device.localWorkDone
  dsimp only
  refine Blamed.setStage ?_ _ _
  split
  · rename_i hst
    refine h.keep (fun _ h0 => List.mem_cons_of_mem _ h0) rfl rfl fun r' hr' => ?_
    rcases List.mem_cons.mp hr' with heq | hr'
    · cases heq
      exact .inr ⟨q, hq hst⟩
    · exact .inl hr'
  · exact h

theorem adapts {m m' : Remote} {x : Io.Instr} {answer answer' : Io.Answer} {d₁ : Device}
    (ha : Adapts d r q m answer x answer' m' d₁) : Blamed d₁ := by
  cases ha with
  | prepared | released => exact h.note nofun
  | owned => exact (h.note (e := .bioSubmitted r q.sector q.count true) nofun).same rfl rfl rfl
  | worked => exact h.same rfl rfl rfl
  | busy | other => exact h
  | degraded => exact h.degradeBacking _ _ _
  | completed | rejected => exact h.completeRequest _ _

end

end Blamed

/-! ### Runs in which the work of a read does not fail by itself -/

/-- When the worker takes up the Backing Store read of a transaction, the range it reads is valid
and all of its bios can be cloned. -/
def fallbackServed (d : Device) : Label → Bool
  | .work _ cloned => match d.queue.head? with
    | some (.localWork r) => match d.jobs[r]? with
      | some ⟨q, .remote _⟩ =>
        q.op ≠ .read || (d.backingRangeValid q.sector q.count && decide (cloneStatus q cloned = none))
      | _ => true
    | _ => true
  | _ => true

theorem fallbackServed_work {connected : Bool} {cloned : ℕ} {queue : List Work} {m : Remote}
    (h : fallbackServed d (.work connected cloned) = true) (hq : d.queue = .localWork r :: queue)
    (hj : d.jobs[r]? = some ⟨q, .remote m⟩) (hop : q.op = .read) :
    d.backingRangeValid q.sector q.count = true ∧ cloneStatus q cloned = none := by
  simpa [fallbackServed, hq, hj, hop] using h

theorem Blamed.worked_step (h : Blamed d) (hs : Served d) {connected : Bool} {cloned : ℕ}
    (hc : fallbackServed d (.work connected cloned) = true) (hm : Moves d (.work connected cloned) d') :
    Blamed d' := by
  have hqueued : ∀ {r q stage}, d.jobs[r]? = some ⟨q, stage⟩ → .queued r q ∈ d.log := fun hj =>
    (hs.requests _ _).mpr (requestOf_of_job hj)
  have htaken : ∀ queue, Blamed (d.taken queue) := fun queue => h.same rfl rfl rfl
  cases hm with
  | flushes | starts => exact h.same rfl rfl rfl
  | flushesBacking => exact (h.note (e := .flushIssued _) nofun).same rfl rfl rfl
  | fails => exact ((htaken _).setStage _ _).completeRequest _ _
  | submits => exact ((htaken _).submitBios _ _ _).endRequest _ _ _ _
  | retryFails _ _ hq hj hop =>
    exact (htaken _).localWorkDone fun _ => ⟨hqueued hj, by rw [hop]; nofun⟩
  | @retries r q =>
    exact ((htaken _).note (e := .bioSubmitted r q.sector q.count true) nofun).same rfl rfl rfl
  | unreadable _ _ _ hq hj hop hv =>
    refine (htaken _).localWorkDone fun _ => ⟨hqueued hj, fun hread => ?_⟩
    rw [(fallbackServed_work hc hq hj hread).1] at hv
    cases hv
  | @clones r q m queue _ _ _ hq hj hop =>
    refine ((htaken _).submitBios _ _ _).localWorkDone (q := q) fun hst => ⟨?_, fun hread => ?_⟩
    · exact mem_log_submitBios _ _ _ _ (hqueued hj)
    · rw [(fallbackServed_work hc hq hj hread).2] at hst
      cases hst

/-- **Every step blames a request for what it degrades.** -/
theorem Blamed.step (h : Blamed d) (hs : Served d) (hc : fallbackServed d l = true) (hm : Moves d l d') :
    Blamed d' := by
  cases l with
  | work => exact h.worked_step hs hc hm
  | queue q accepting =>
    cases hm with
    | refused => exact ((h.note (e := .queued _ q) nofun).addJob _ _).completeRequest _ _
    | accepted => exact (h.note (e := .queued _ q) nofun).same rfl rfl rfl
  | flushed status =>
    cases hm with
    | flushed =>
      unfold Device.flushed
      dsimp only
      split
      · exact (((h.degradeBacking _ 0 0).setStage _ _).completeRequest _ status).same rfl rfl rfl
      · exact ((h.setStage _ _).completeRequest _ status).same rfl rfl rfl
  | started =>
    cases hm with
    | started => exact h.same rfl rfl rfl
  | io =>
    cases hm with
    | runs _ _ ha _ => exact (h.adapts ha).setStage _ _
  | rdma =>
    cases hm with
    | rdma =>
      refine Blamed.setStage ?_ _ _
      unfold Device.remoteRdmaComplete
      split
      · exact h.note nofun
      · exact h
  | transport =>
    cases hm with
    | transport => exact h.setStage _ _
  | bio i status =>
    cases hm with
    | remoteBio => exact (h.ended _ _ _).setStage _ _
    | directBio => exact (h.ended _ _ _).endRequest _ _ _ _

/-- A request that degraded the device is a flush, or had a bio or its work fail. -/
theorem Served.failed_of_degraded (h : Served d) (hr : d.requestOf r = some q) {sector count : ℕ}
    (hd : .degraded r sector count ∈ d.log) : q.op = .flush ∨ d.Failed r := by
  obtain ⟨⟨q', stage⟩, hj, rfl⟩ := Option.map_eq_some_iff.mp hr
  have hok := h.jobs r q' stage hj
  cases stage with
  | queued => exact absurd hd (Untouched.degrades hok sector count)
  | flushing => exact .inl hok
  | remote m =>
    have hok : RemoteOk d r q' m := hok
    exact .inr (hok.failed
      ((Io.phase_reachable hok.run).story.failed_of_degraded (hok.degrades sector count hd)))
  | direct c => exact .inr (DirectOk.degrades hok sector count hd)
  | ended => exact .inl (hok sector count hd)

/-- **Only failed bios degrade the device on behalf of reads.** In every run in which the worker
finds the range of each Backing Store read of a transaction valid and can clone all of its bios, the
device is degraded and its sectors are invalid because of events in the log, and a read they name
had a bio that failed. -/
theorem degraded_only_by_failed_bios (h : deviceSystem.Reach (fun d l => fallbackServed d l = true) d) :
    (d.degraded = true → ∃ r sector count, .degraded r sector count ∈ d.log) ∧
    (∀ x, d.invalid x = true →
      ∃ r sector count, .degraded r sector count ∈ d.log ∧ sector ≤ x ∧ x < sector + count) ∧
    ∀ r q sector count, .queued r q ∈ d.log → q.op = .read → .degraded r sector count ∈ d.log →
      ∃ sector count e, .bioEnded r sector count (some e) ∈ d.log := by
  have hI : Served d ∧ Blamed d := by
    refine h.invariant (I := fun d => Served d ∧ Blamed d) ?_ ?_
    · intro d (hd : d.Initial)
      refine ⟨served_initial hd, ?_⟩
      rw [hd]
      exact ⟨nofun, nofun, nofun⟩
    · rintro d l d' - ⟨hs, hb⟩ hc hstep
      exact ⟨hs.step hstep, hb.step hs hc (step_moves hstep)⟩
  obtain ⟨hs, hb⟩ := hI
  refine ⟨hb.degraded, hb.invalid, fun r q sector count hq hop hd => ?_⟩
  have hr := (hs.requests r q).mp hq
  rcases hs.failed_of_degraded hr hd with hflush | hbio | hwork
  · rw [hop] at hflush
    cases hflush
  · exact hbio
  · obtain ⟨q', hq', hne⟩ := hb.worked r hwork
    rw [(hs.requests r q').mp hq'] at hr
    cases hr
    exact absurd hop hne

theorem initial_of_mode (mode : Io.EngineMode) : deviceSystem.init { mode := mode } := rfl

/-- The fallback read of a transaction, whose one bio fails. -/
def failedBioLabels : List Label :=
  [.queue ⟨.read, 0, [16]⟩ true, .work true 0,
    .io 0 0 {}, .io 0 0 {}, .io 0 0 {}, .io 0 0 { status := some .enomem },
    .io 0 0 {}, .io 0 0 {}, .io 0 0 {}, .io 0 0 {}, .io 0 0 {}, .io 0 0 {}, .io 0 0 {},
    .started, .work true 1, .bio 0 (some .eio), .io 0 1 {}, .io 0 1 {}]

theorem failed_bio_degrades : ∃ d, deviceSystem.Reach (fun d l => fallbackServed d l = true) d ∧
    d.degraded = true ∧ .degraded 0 0 16 ∈ d.log ∧
    ∃ sector count e, .bioEnded 0 sector count (some e) ∈ d.log := by
  have hrun : (deviceSystem.execIf (fun d l => fallbackServed d l = true) { mode := .backedStrict }
      failedBioLabels).any (fun d => decide
        (d.degraded = true ∧ .queued 0 ⟨.read, 0, [16]⟩ ∈ d.log ∧ .degraded 0 0 16 ∈ d.log)) = true := by
    decide +kernel
  obtain ⟨d, hreach, hdegraded, hqueued, hlog⟩ := System.exists_of_execIf (initial_of_mode _) hrun
  exact ⟨d, hreach, hdegraded, hlog, (degraded_only_by_failed_bios hreach).2.2 0 _ 0 16 hqueued rfl hlog⟩

/-- A read fails on the Backing Store and makes its sectors invalid. A second read that covers them
and others falls back to the Backing Store because its pages cannot be prepared. -/
def fallbackLabels : List Label :=
  [.queue ⟨.read, 0, [8]⟩ true, .work false 1, .bio 0 (some .eio),
    .queue ⟨.read, 0, [16]⟩ true, .work true 0,
    .io 1 0 {}, .io 1 0 {}, .io 1 0 {}, .io 1 0 { status := some .enomem },
    .io 1 0 {}, .io 1 0 {}, .io 1 0 {}, .io 1 0 {}, .io 1 0 {}, .io 1 0 {}, .io 1 0 {},
    .started, .work true 1, .io 1 1 {}, .io 1 1 {}]

/-- The worker refuses the second read because of its invalid sectors, and the device makes the
others invalid too, though no bio was submitted for it. -/
theorem fallback_read_degrades : ∃ d, deviceSystem.Reachable d ∧ d.mode = .backedStrict ∧
    .queued 1 ⟨.read, 0, [16]⟩ ∈ d.log ∧ .degraded 1 0 16 ∈ d.log ∧ d.invalid 12 = true ∧
    ¬ ∃ sector count e, .bioEnded 1 sector count (some e) ∈ d.log := by
  have hrun : (deviceSystem.exec { mode := .backedStrict } fallbackLabels).any (fun d => decide
      (d.mode = .backedStrict ∧ d.invalid 12 = true ∧ d.log =
        [.degraded 1 0 16, .localWorkFailed 1, .prepared 1, .queued 1 ⟨.read, 0, [16]⟩,
          .completed 0 (some .eio), .degraded 0 0 8, .bioEnded 0 0 8 (some .eio),
          .bioSubmitted 0 0 8 false, .queued 0 ⟨.read, 0, [8]⟩])) = true := by
    decide +kernel
  obtain ⟨d, hreach, hmode, hinvalid, hlog⟩ := System.exists_of_exec (initial_of_mode _) hrun
  refine ⟨d, hreach, hmode, ?_, ?_, hinvalid, ?_⟩ <;> rw [hlog] <;> simp

end Block
end Infiniswap
