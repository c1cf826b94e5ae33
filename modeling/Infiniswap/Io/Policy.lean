/-
# The acknowledgement policy

`is_io_policy.h`: when a block request may be completed, from the results of its
Backing Store and RDMA paths. A status is an errno, `none` for 0; an action is
the source's bit set.

The state of a policy is determined by the two results (`IoPolicy.Ok`): it says
which path is pending and whether the request is complete. Each event keeps it
and completes the request exactly when the state says so.
-/
import Infiniswap.RemoteChunk.Types

namespace Infiniswap
namespace Io

variable {r : IoAction × IoPolicy}

structure IoAction where
  submitLocal : Bool := false
  completeSuccess : Bool := false
  completeError : Bool := false
  backingDegraded : Bool := false
  markLocalOnly : Bool := false
  deriving DecidableEq

/-- The union of two bit sets. -/
def IoAction.or (a b : IoAction) : IoAction where
  submitLocal := a.submitLocal || b.submitLocal
  completeSuccess := a.completeSuccess || b.completeSuccess
  completeError := a.completeError || b.completeError
  backingDegraded := a.backingDegraded || b.backingDegraded
  markLocalOnly := a.markLocalOnly || b.markLocalOnly

instance : OrOp IoAction := ⟨IoAction.or⟩

inductive PolicyKind
  | strictWrite | remoteFirstWrite | remoteRead | remoteOnlyWrite | remoteOnlyRead
  deriving DecidableEq

structure IoPolicy where
  kind : PolicyKind
  generation : ℕ
  localPending : Bool
  remotePending : Bool := true
  localDone : Bool := false
  remoteDone : Bool := false
  remoteCancelled : Bool := false
  requestComplete : Bool := false
  backingDegraded : Bool := false
  localStatus : Option Errno := none
  remoteStatus : Option Errno := none
  deriving DecidableEq

namespace IoPolicy

/-- `is_io_policy_init_write`. -/
def initWrite (kind : PolicyKind) (generation : ℕ) : IoPolicy :=
  { kind, generation, localPending := true }

/-- `is_io_policy_init_remote`. -/
def initRemote (kind : PolicyKind) (generation : ℕ) : IoPolicy :=
  { kind, generation, localPending := false }

variable (p : IoPolicy)

/-- `is_io_policy_complete_request`. -/
def completeRequest (status : Option Errno) : IoAction × IoPolicy :=
  if p.requestComplete then ({}, p)
  else (if status.isNone then { completeSuccess := true } else { completeError := true },
    { p with requestComplete := true })

/-- `is_io_policy_finish_write`. -/
def finishWrite : IoAction × IoPolicy :=
  if p.kind = .strictWrite then
    let (action, p') := p.completeRequest p.localStatus
    ({ markLocalOnly := p.localStatus.isNone && p.remoteStatus.isSome } ||| action, p')
  else if p.remoteStatus.isNone then p.completeRequest none
  else
    let (action, p') := p.completeRequest p.localStatus
    ({ markLocalOnly := p.localStatus.isNone } ||| action, p')

/-- `is_io_policy_local_complete`. -/
def localComplete (status : Option Errno) : IoAction × IoPolicy :=
  if !p.localPending || p.localDone then ({}, p)
  else
    let p := { p with
      localPending := false
      localDone := true
      localStatus := status
      backingDegraded := p.backingDegraded || status.isSome }
    let degraded : IoAction := { backingDegraded := status.isSome }
    if p.kind = .remoteRead then
      let (action, p') := p.completeRequest status
      (degraded ||| action, p')
    else if !p.remoteDone then (degraded, p)
    else
      let (action, p') := p.finishWrite
      (degraded ||| action, p')

/-- `is_io_policy_remote_terminal`. -/
def remoteTerminal (status : Option Errno) : IoAction × IoPolicy :=
  let p := { p with remotePending := false, remoteDone := true, remoteStatus := status }
  if p.kind = .remoteOnlyWrite ∨ p.kind = .remoteOnlyRead then p.completeRequest status
  else if p.kind = .remoteRead then
    if status.isNone then p.completeRequest none
    else ({ submitLocal := true }, { p with localPending := true })
  else if p.kind = .remoteFirstWrite ∧ status.isNone then p.completeRequest none
  else if !p.localDone then ({}, p)
  else p.finishWrite

/-- `is_io_policy_remote_complete`. -/
def remoteComplete (generation : ℕ) (status : Option Errno) : IoAction × IoPolicy :=
  if generation ≠ p.generation ∨ p.remoteCancelled ∨ !p.remotePending ∨ p.remoteDone then ({}, p)
  else p.remoteTerminal status

/-- `is_io_policy_cancel_remote`. -/
def cancelRemote (generation : ℕ) (status : Option Errno) : IoAction × IoPolicy :=
  if generation ≠ p.generation ∨ p.remoteCancelled ∨ !p.remotePending ∨ p.remoteDone then ({}, p)
  else { p with remoteCancelled := true }.remoteTerminal status

/-- `is_io_policy_releasable`. -/
def releasable : Bool := p.requestComplete && !p.localPending && !p.remotePending

/-! ### The state follows from the results -/

/-- Whether a complete request was completed with success. -/
def acked : Bool := match p.kind with
  | .strictWrite => p.localStatus.isNone
  | .remoteFirstWrite | .remoteRead => p.remoteStatus.isNone || (p.localDone && p.localStatus.isNone)
  | .remoteOnlyWrite | .remoteOnlyRead => p.remoteStatus.isNone

/-- Whether a request with these results is to be complete. -/
def due : Bool := match p.kind with
  | .strictWrite => p.localDone && p.remoteDone
  | .remoteFirstWrite | .remoteRead => p.remoteDone && (p.remoteStatus.isNone || p.localDone)
  | .remoteOnlyWrite | .remoteOnlyRead => p.remoteDone

/-- The results say which paths are pending and whether the request is complete. -/
structure Ok (p : IoPolicy) : Prop where
  remotePending : p.remotePending = !p.remoteDone
  cancelled : p.remoteCancelled = true → p.remoteDone = true
  localPending : p.localPending = match p.kind with
    | .strictWrite | .remoteFirstWrite => !p.localDone
    | .remoteRead => p.remoteDone && p.remoteStatus.isSome && !p.localDone
    | .remoteOnlyWrite | .remoteOnlyRead => false
  localDone : p.localDone = true → match p.kind with
    | .strictWrite | .remoteFirstWrite => True
    | .remoteRead => p.remoteDone = true ∧ p.remoteStatus.isSome = true
    | .remoteOnlyWrite | .remoteOnlyRead => False
  complete : p.requestComplete = p.due

variable {p}

/-- The event that brought the results `q` answers `r`: the request becomes
complete if it is due, and an action says so the first time. -/
structure Answers (q : IoPolicy) (r : IoAction × IoPolicy) : Prop where
  state : r.2 = { q with requestComplete := q.due }
  success : r.1.completeSuccess = (!q.requestComplete && q.due && q.acked)
  error : r.1.completeError = (!q.requestComplete && q.due && !q.acked)

theorem completeRequest_eq (status : Option Errno) : p.completeRequest status =
    ({ completeSuccess := !p.requestComplete && status.isNone
       completeError := !p.requestComplete && status.isSome }, { p with requestComplete := true }) := by
  unfold completeRequest
  cases h : p.requestComplete
  · cases status <;> rfl
  · rw [if_pos rfl]
    simp [← h]

theorem answers_completeRequest {status : Option Errno} (hd : p.due = true)
    (hs : status.isNone = p.acked) : Answers p (p.completeRequest status) := by
  rw [completeRequest_eq]
  refine ⟨by rw [hd], ?_, ?_⟩
  · rw [hd, ← hs, Bool.and_true]
  · rw [hd, ← hs, Bool.and_true]
    cases status <;> rfl

theorem answers_none (action : IoAction) (hc : p.requestComplete = false) (hd : p.due = false)
    (hs : action.completeSuccess = false) (he : action.completeError = false) :
    Answers p (action, p) := by
  refine ⟨by rw [hd, ← hc], ?_, ?_⟩
  · rw [hd, Bool.and_false, Bool.false_and]
    exact hs
  · rw [hd, Bool.and_false, Bool.false_and]
    exact he

theorem Answers.or {a : IoAction} (h : Answers p r) (hs : a.completeSuccess = false)
    (he : a.completeError = false) : Answers p (a ||| r.1, r.2) := by
  refine ⟨h.state, ?_, ?_⟩
  · show (a.completeSuccess || r.1.completeSuccess) = _
    rw [hs, Bool.false_or, h.success]
  · show (a.completeError || r.1.completeError) = _
    rw [he, Bool.false_or, h.error]

theorem answers_finishWrite (hk : p.kind = .strictWrite ∨ p.kind = .remoteFirstWrite) (hd : p.due = true)
    (hl : p.localDone = true) : Answers p p.finishWrite := by
  unfold finishWrite
  rcases hk with hk | hk
  · rw [if_pos hk]
    refine (answers_completeRequest hd ?_).or rfl rfl
    simp [acked, hk]
  · rw [if_neg (by rw [hk]; nofun)]
    split
    · rename_i hr
      refine answers_completeRequest hd ?_
      simp [acked, hk, hr]
    · rename_i hr
      refine (answers_completeRequest hd ?_).or rfl rfl
      simp [acked, hk, hr, hl]

/-! ### The Backing Store path finishes -/

/-- The results with the status of the Backing Store path. -/
def localFinished (p : IoPolicy) (status : Option Errno) : IoPolicy :=
  { p with
    localPending := false
    localDone := true
    localStatus := status
    backingDegraded := p.backingDegraded || status.isSome }

/-- Who waits for the Backing Store: a write, or a read whose RDMA path failed. -/
theorem Ok.waits (h : p.Ok) (hl : p.localPending = true) : p.localDone = false ∧
    ((p.kind = .strictWrite ∨ p.kind = .remoteFirstWrite) ∨
      (p.kind = .remoteRead ∧ p.remoteDone = true ∧ p.remoteStatus.isSome = true)) := by
  have hpend := h.localPending
  rw [hl] at hpend
  cases hk : p.kind <;> rw [hk] at hpend <;> simp at hpend
  · exact ⟨hpend, .inl (.inl rfl)⟩
  · exact ⟨hpend, .inl (.inr rfl)⟩
  · exact ⟨hpend.2, .inr ⟨rfl, hpend.1⟩⟩

theorem localComplete_eq (hl : p.localPending = true) (hd : p.localDone = false) (status : Option Errno) :
    p.localComplete status =
      if p.kind = .remoteRead then
        ({ backingDegraded := status.isSome } ||| ((p.localFinished status).completeRequest status).1,
          ((p.localFinished status).completeRequest status).2)
      else if !p.remoteDone then ({ backingDegraded := status.isSome }, p.localFinished status)
      else ({ backingDegraded := status.isSome } ||| (p.localFinished status).finishWrite.1,
        (p.localFinished status).finishWrite.2) := by
  unfold localComplete
  rw [if_neg (by simp [hl, hd])]
  rfl

theorem localComplete_answers (h : p.Ok) (hl : p.localPending = true) (status : Option Errno) :
    Answers (p.localFinished status) (p.localComplete status) := by
  obtain ⟨hd, hwho⟩ := h.waits hl
  have hc := h.complete
  rw [localComplete_eq hl hd]
  rcases hwho with hw | ⟨hk, hr, hs⟩
  · rw [if_neg (by rcases hw with hw | hw <;> rw [hw] <;> nofun)]
    cases hr : p.remoteDone
    · refine answers_none { backingDegraded := status.isSome } ?_ ?_ rfl rfl
      · show p.requestComplete = false
        rw [hc]
        rcases hw with hw | hw <;> simp [due, hw, hr]
      · rcases hw with hw | hw <;> simp [due, localFinished, hw, hr]
    · refine Answers.or (answers_finishWrite hw ?_ rfl) rfl rfl
      rcases hw with hw | hw <;> simp [due, localFinished, hw, hr]
  · -- the read fell back after its RDMA path failed
    have hn : p.remoteStatus.isNone = false := by
      rw [← Option.not_isSome, hs]
      rfl
    rw [if_pos hk]
    refine Answers.or (answers_completeRequest ?_ ?_) rfl rfl
    · simp [due, localFinished, hk, hr]
    · simp [acked, localFinished, hk, hn]

theorem completeRequest_action (status : Option Errno) :
    (p.completeRequest status).1.backingDegraded = false ∧
    (p.completeRequest status).1.submitLocal = false := by
  rw [completeRequest_eq]
  exact ⟨rfl, rfl⟩

theorem finishWrite_action (p : IoPolicy) :
    p.finishWrite.1.backingDegraded = false ∧ p.finishWrite.1.submitLocal = false := by
  unfold finishWrite
  split_ifs <;> exact completeRequest_action _

theorem localComplete_degrades (h : p.Ok) (hl : p.localPending = true) (status : Option Errno) :
    (p.localComplete status).1.backingDegraded = status.isSome := by
  have hadd : ∀ a : IoAction, a.backingDegraded = false →
      ({ backingDegraded := status.isSome } ||| a : IoAction).backingDegraded = status.isSome := by
    intro a ha
    show (status.isSome || a.backingDegraded) = _
    rw [ha, Bool.or_false]
  rw [localComplete_eq hl (h.waits hl).1]
  split_ifs
  · exact hadd _ (completeRequest_action _).1
  · rfl
  · exact hadd _ (finishWrite_action _).1

theorem localFinished_ok (h : p.Ok) (hl : p.localPending = true) (status : Option Errno) :
    ({ p.localFinished status with requestComplete := (p.localFinished status).due } : IoPolicy).Ok := by
  obtain ⟨-, hwho⟩ := h.waits hl
  refine ⟨h.remotePending, h.cancelled, ?_, fun _ => ?_, rfl⟩
  · rcases hwho with (hk | hk) | ⟨hk, -⟩ <;> simp [localFinished, hk]
  · rcases hwho with (hk | hk) | ⟨hk, hr⟩ <;> simp [localFinished, hk]
    exact hr

/-! ### The RDMA path finishes -/

/-- The results with the status of the RDMA path. A failed read goes on to the Backing Store. -/
def remoteFinished (p : IoPolicy) (cancelled : Bool) (status : Option Errno) : IoPolicy :=
  { p with
    localPending := p.localPending || (p.kind = .remoteRead && status.isSome)
    remotePending := false
    remoteDone := true
    remoteCancelled := cancelled || p.remoteCancelled
    remoteStatus := status }

/-- `is_io_policy_cancel_remote` or `is_io_policy_remote_complete`. -/
def remoteEvent (p : IoPolicy) (cancelled : Bool) (generation : ℕ) (status : Option Errno) :
    IoAction × IoPolicy :=
  if cancelled then p.cancelRemote generation status else p.remoteComplete generation status

section

variable (h : p.Ok) (hr : p.remotePending = true)

include h hr

theorem Ok.remoteDone_eq_false :
    p.remoteDone = false ∧ p.remoteCancelled = false := by
  have hd : p.remoteDone = false := by
    have := h.remotePending
    rw [hr] at this
    simpa using this.symm
  refine ⟨hd, ?_⟩
  cases hcan : p.remoteCancelled
  · rfl
  · rw [h.cancelled hcan] at hd
    cases hd

section

variable (cancelled : Bool) (status : Option Errno)

include cancelled status

theorem remoteEvent_eq :
    p.remoteEvent cancelled p.generation status =
      let q := p.remoteFinished cancelled status
      if p.kind = .remoteOnlyWrite ∨ p.kind = .remoteOnlyRead then q.completeRequest status
      else if p.kind = .remoteRead then
        if status.isNone then q.completeRequest none else ({ submitLocal := true }, q)
      else if p.kind = .remoteFirstWrite ∧ status.isNone then q.completeRequest none
      else if !p.localDone then ({}, q)
      else q.finishWrite := by
  obtain ⟨hd, hc⟩ := h.remoteDone_eq_false hr
  have hguard : ¬ (p.generation ≠ p.generation ∨ p.remoteCancelled = true ∨ (!p.remotePending) = true ∨
      p.remoteDone = true) := by simp [hc, hr, hd]
  have hterm : p.remoteEvent cancelled p.generation status =
      { p with remoteCancelled := cancelled || p.remoteCancelled }.remoteTerminal status := by
    cases cancelled <;> exact if_neg hguard
  -- the flag of a failed read is the only difference between the states
  have hflag : p.remoteFinished cancelled status = { p with
      localPending := p.localPending || (p.kind = .remoteRead && status.isSome), remotePending := false
      remoteDone := true, remoteCancelled := cancelled || p.remoteCancelled,
        remoteStatus := status } := rfl
  rw [hterm, hflag]
  unfold remoteTerminal
  by_cases hread : p.kind = .remoteRead
  · cases status <;> simp [hread]
  · simp [hread]

theorem remoteEvent_answers :
    Answers (p.remoteFinished cancelled status) (p.remoteEvent cancelled p.generation status) := by
  obtain ⟨hd, -⟩ := h.remoteDone_eq_false hr
  have hc : p.requestComplete = false := by
    rw [h.complete, due]
    cases p.kind <;> simp [hd]
  rw [remoteEvent_eq h hr]
  dsimp only
  split_ifs with h1 h2 h3 h4 h5
  · refine answers_completeRequest ?_ ?_ <;> rcases h1 with hk | hk <;>
      simp [due, acked, remoteFinished, hk]
  · refine answers_completeRequest ?_ ?_ <;> simp [due, acked, remoteFinished, h2, h3]
  · refine answers_none { submitLocal := true } hc ?_ rfl rfl
    have hl : p.localDone = false := by
      cases hl : p.localDone
      · rfl
      · have := h.localDone hl
        rw [h2] at this
        rw [this.1] at hd
        cases hd
    simp [due, remoteFinished, h2, h3, hl]
  · refine answers_completeRequest ?_ ?_ <;> simp [due, acked, remoteFinished, h4.1, h4.2]
  · refine answers_none {} hc ?_ rfl rfl
    have hl : p.localDone = false := by simpa using h5
    cases hk : p.kind <;> simp_all [due, remoteFinished, Option.isSome_iff_ne_none]
  · have hl : p.localDone = true := by simpa using h5
    have hw : p.kind = .strictWrite ∨ p.kind = .remoteFirstWrite := by
      cases hk : p.kind <;> simp_all
    refine answers_finishWrite hw ?_ hl
    rcases hw with hw | hw <;> simp [due, remoteFinished, hw, hl]

theorem remoteEvent_action :
    (p.remoteEvent cancelled p.generation status).1.backingDegraded = false ∧
      (p.remoteEvent cancelled p.generation status).1.submitLocal =
        (decide (p.kind = .remoteRead) && status.isSome) := by
  rw [remoteEvent_eq h hr]
  dsimp only
  split_ifs with h1 h2 h3 h4 h5
  · rw [completeRequest_eq]
    rcases h1 with hk | hk <;> exact ⟨rfl, by simp [hk]⟩
  · rw [completeRequest_eq]
    exact ⟨rfl, by simp [Option.isNone_iff_eq_none.mp h3]⟩
  · refine ⟨rfl, ?_⟩
    simp [h2, ← Option.not_isNone, h3]
  · rw [completeRequest_eq]
    exact ⟨rfl, by simp [h2]⟩
  · exact ⟨rfl, by simp [h2]⟩
  · rw [(finishWrite_action _).1, (finishWrite_action _).2]
    exact ⟨rfl, by simp [h2]⟩

theorem remoteFinished_ok :
    ({ p.remoteFinished cancelled status with
      requestComplete := (p.remoteFinished cancelled status).due } : IoPolicy).Ok := by
  obtain ⟨hd, -⟩ := h.remoteDone_eq_false hr
  have hpend := h.localPending
  have hdone := h.localDone
  refine ⟨rfl, fun _ => rfl, ?_, fun hl => ?_, rfl⟩
  · show (p.localPending || _) = _
    rw [hpend]
    cases hk : p.kind <;> simp [remoteFinished, hk, hd]
    intro _
    cases hl : p.localDone
    · rfl
    · rw [hk] at hdone
      exact absurd (hdone hl).1 (by rw [hd]; nofun)
  · have := hdone hl
    cases hk : p.kind <;> rw [hk] at this <;> simp [remoteFinished, hk]
    · exact absurd this.1 (by rw [hd]; nofun)
    all_goals exact this

end

end

/-! ### What an event decides -/

/-- The Backing Store copy of a write succeeded and its RDMA copy failed. -/
def localOnly (p : IoPolicy) : Bool :=
  (p.kind = .strictWrite || p.kind = .remoteFirstWrite) && p.localDone && p.remoteDone &&
    p.localStatus.isNone && p.remoteStatus.isSome

/-- The Backing Store path failed. -/
def failedLocally (p : IoPolicy) : Bool := p.localDone && p.localStatus.isSome

/-- The status a request is completed with. -/
def finalStatus (p : IoPolicy) : Option Errno := if p.localDone then p.localStatus else p.remoteStatus

/-- What an event that takes the policy from `p` to `p'` may ask for: each consequence once, when its
reason appears. -/
structure Decides (p p' : IoPolicy) (a : IoAction) : Prop where
  ok : p'.Ok
  kind : p'.kind = p.kind
  generation : p'.generation = p.generation
  completes : (a.completeSuccess || a.completeError).toNat + p.requestComplete.toNat =
    p'.requestComplete.toNat
  success : a.completeSuccess = true → p'.acked = true
  error : a.completeSuccess = false → a.completeError = true → p'.acked = false
  kept : p.requestComplete = true → p'.acked = p.acked
  marks : a.markLocalOnly.toNat + p.localOnly.toNat = p'.localOnly.toNat
  degrades : a.backingDegraded.toNat + p.failedLocally.toNat = p'.failedLocally.toNat

theorem Ok.complete_of_idle (h : p.Ok) (hl : p.localPending = false) (hr : p.remotePending = false) :
    p.requestComplete = true := by
  have hd : p.remoteDone = true := by
    have := h.remotePending
    rw [hr] at this
    simpa using this.symm
  have hlp := h.localPending
  rw [hl] at hlp
  rw [h.complete, due]
  cases hk : p.kind <;> rw [hk] at hlp <;> simp [hd] at hlp ⊢
  · exact hlp
  · exact .inr hlp
  · cases hs : p.remoteStatus
    · exact .inl rfl
    · exact .inr (by simpa [hs] using hlp)

theorem Ok.finalStatus_isSome (h : p.Ok) (hd : p.due = true) (ha : p.acked = false) :
    p.finalStatus.isSome = true := by
  have hl := h.localDone
  unfold finalStatus
  cases hk : p.kind <;> simp only [due, acked, hk, Bool.and_eq_true, Bool.or_eq_true,
    Bool.or_eq_false_iff, Bool.and_eq_false_iff] at hd ha hl
  · rw [if_pos hd.1]
    simpa using ha
  iterate 2
    obtain ⟨hr, hl'⟩ := ha
    have hdone : p.localDone = true := hd.2.resolve_left (by simp [hr])
    rw [if_pos hdone]
    rcases hl' with h0 | h0
    · rw [hdone] at h0; cases h0
    · simpa using h0
  all_goals
    rw [if_neg hl]
    simpa using ha

theorem Answers.completes {q : IoPolicy} (h : Answers q r)
    (hmono : q.requestComplete = true → q.due = true) :
    (r.1.completeSuccess || r.1.completeError).toNat + q.requestComplete.toNat =
      r.2.requestComplete.toNat := by
  rw [h.success, h.error, h.state]
  show _ = q.due.toNat
  cases hc : q.requestComplete
  · cases q.due <;> cases q.acked <;> rfl
  · rw [hmono hc]
    rfl

theorem Answers.decides {q : IoPolicy} (h : Answers q r)
    (hc : q.requestComplete = p.requestComplete) (hmono : p.requestComplete = true → q.due = true)
    (hok : ({ q with requestComplete := q.due } : IoPolicy).Ok) (hkind : q.kind = p.kind)
    (hgen : q.generation = p.generation) (hkept : p.requestComplete = true → q.acked = p.acked)
    (hmarks : r.1.markLocalOnly.toNat + p.localOnly.toNat = q.localOnly.toNat)
    (hdeg : r.1.backingDegraded.toNat + p.failedLocally.toNat = q.failedLocally.toNat) :
    Decides p r.2 r.1 := by
  have hcomp := h.completes (by rwa [hc])
  have hstate := h.state
  have hs := h.success
  have he := h.error
  rw [hstate]
  rw [hstate, hc] at hcomp
  refine ⟨hok, hkind, hgen, hcomp, fun ht => ?_, fun _ ht => ?_, hkept, hmarks, hdeg⟩
  · rw [ht] at hs
    simp only [Bool.true_eq, Bool.and_eq_true] at hs
    exact hs.2
  · rw [ht] at he
    simp only [Bool.true_eq, Bool.and_eq_true, Bool.not_eq_true'] at he
    exact he.2

theorem finishWrite_marks (p : IoPolicy) :
    p.finishWrite.1.markLocalOnly = (p.localStatus.isNone && p.remoteStatus.isSome) := by
  have hor : ∀ (b : Bool) (st : Option Errno),
      ({ markLocalOnly := b } ||| (p.completeRequest st).1 : IoAction).markLocalOnly = b := by
    intro b st
    rw [completeRequest_eq]
    exact Bool.or_false b
  unfold finishWrite
  split_ifs with hk hr
  · exact hor _ _
  · rw [completeRequest_eq]
    simp [Option.isNone_iff_eq_none.mp hr]
  · have hsome : p.remoteStatus.isSome = true := by
      simpa [Option.isNone_iff_eq_none, Option.isSome_iff_ne_none] using hr
    rw [hor, hsome, Bool.and_true]

theorem localComplete_marks (h : p.Ok) (hl : p.localPending = true) (status : Option Errno) :
    (p.localComplete status).1.markLocalOnly = (p.localFinished status).localOnly := by
  obtain ⟨hd, hwho⟩ := h.waits hl
  rw [localComplete_eq hl hd]
  split_ifs with hk hr
  · rw [completeRequest_eq]
    simp only [localOnly, localFinished, hk]
    rfl
  · have hr' : p.remoteDone = false := by simpa using hr
    simp [localOnly, localFinished, hr']
  · have hr' : p.remoteDone = true := by simpa using hr
    have hw : p.kind = .strictWrite ∨ p.kind = .remoteFirstWrite :=
      hwho.resolve_right fun hread => hk hread.1
    show (false || (p.localFinished status).finishWrite.1.markLocalOnly) = _
    rw [finishWrite_marks, localOnly]
    rcases hw with hw | hw <;> simp [localFinished, hw, hr']

/-- **The event of the Backing Store path.** -/
theorem localComplete_decides (h : p.Ok) (hl : p.localPending = true) (status : Option Errno) :
    Decides p (p.localComplete status).2 (p.localComplete status).1 := by
  obtain ⟨hd, hwho⟩ := h.waits hl
  have hc := h.complete
  have hbefore : p.localOnly = false ∧ p.failedLocally = false := by simp [localOnly, failedLocally, hd]
  refine (localComplete_answers h hl status).decides rfl (fun hcomp => ?_)
    (localFinished_ok h hl status) rfl rfl (fun hcomp => ?_) ?_ ?_
  · rw [hc] at hcomp
    rcases hwho with (hk | hk) | ⟨hk, -⟩ <;> simp_all [due, localFinished]
  · rw [hc] at hcomp
    rcases hwho with (hk | hk) | ⟨hk, -⟩ <;> simp_all [due, acked, localFinished]
  · rw [hbefore.1, localComplete_marks h hl]
    rfl
  · rw [hbefore.2, localComplete_degrades h hl]
    simp [failedLocally, localFinished]

theorem remoteEvent_marks (h : p.Ok) (hr : p.remotePending = true) (cancelled : Bool)
    (status : Option Errno) :
    (p.remoteEvent cancelled p.generation status).1.markLocalOnly =
      (p.remoteFinished cancelled status).localOnly := by
  rw [remoteEvent_eq h hr]
  dsimp only
  split_ifs with h1 h2 h3 h4 h5
  · rw [completeRequest_eq]
    rcases h1 with hk | hk <;> simp [localOnly, remoteFinished, hk]
  · rw [completeRequest_eq]
    simp [localOnly, remoteFinished, h2]
  · simp [localOnly, remoteFinished, h2]
  · rw [completeRequest_eq]
    simp [localOnly, remoteFinished, Option.isNone_iff_eq_none.mp h4.2]
  · have hl : p.localDone = false := by simpa using h5
    simp [localOnly, remoteFinished, hl]
  · have hl : p.localDone = true := by simpa using h5
    have hw : p.kind = .strictWrite ∨ p.kind = .remoteFirstWrite := by
      cases hk : p.kind <;> simp_all
    rw [finishWrite_marks, localOnly]
    rcases hw with hw | hw <;> simp [remoteFinished, hw, hl]

/-- **The event of the RDMA path.** -/
theorem remoteEvent_decides (h : p.Ok) (hr : p.remotePending = true) (cancelled : Bool)
    (status : Option Errno) :
    Decides p (p.remoteEvent cancelled p.generation status).2
      (p.remoteEvent cancelled p.generation status).1 := by
  obtain ⟨hd, -⟩ := h.remoteDone_eq_false hr
  have hc : p.requestComplete = false := by
    rw [h.complete, due]
    cases p.kind <;> simp [hd]
  have hbefore : p.localOnly = false := by simp [localOnly, hd]
  refine (remoteEvent_answers h hr cancelled status).decides rfl (by simp [hc])
    (remoteFinished_ok h hr cancelled status) rfl rfl (by simp [hc]) ?_ ?_
  · rw [hbefore, remoteEvent_marks h hr]
    rfl
  · rw [(remoteEvent_action h hr cancelled status).1]
    simp [failedLocally, remoteFinished]

theorem localComplete_submitLocal (p : IoPolicy) (status : Option Errno) :
    (p.localComplete status).1.submitLocal = false := by
  unfold localComplete
  dsimp only
  split_ifs
  · rfl
  · exact (completeRequest_action _).2
  · rfl
  · exact (finishWrite_action _).2

end IoPolicy
end Io
end Infiniswap
