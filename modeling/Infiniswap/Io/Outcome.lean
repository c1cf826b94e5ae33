/-
# What every run of a transaction comes to

The two results about the engine. A request is completed once and its storage is
released and settled once, whatever the adapters answer and in whatever order
their events are delivered; and how it is completed depends on the results of
its two paths alone.

Both are read off the phases: the log of a state tells which part of its life
the transaction is in. What is said of the order of two events is said of the
earlier state whose log ends with the second one.
-/
import Infiniswap.Io.Phases

namespace Infiniswap
namespace Io

open Threads Transition IoPolicy Instr

variable {s s' : State} {t : Transaction} {x : Instr} {new : List Instr} {l : Label}

/-! ### Earlier states -/

/-- The engine starts the transaction of another request. -/
def Label.joins : Label → Bool
  | .other registered => registered
  | _ => false

/-- The engine settles the transaction of another request. -/
def Label.leaves : Label → Bool
  | .other registered => !registered
  | _ => false

/-- What an instruction logs. -/
def Instr.logged : Instr → List Event
  | .allocate => [.allocate]
  | .prepare => [.prepare]
  | .submitBacking => [.submitBacking]
  | .submitRdma => [.submitRdma]
  | .backingCompleted status => [.backingResult status]
  | .rdmaCompleted _ status _ => [.rdmaResult status]
  | .backingDegraded => [.backingDegraded]
  | .markLocalOnly => [.markLocalOnly]
  | .complete status => [.complete status]
  | .reportInvariant event => [.invariant event]
  | .release => [.release]
  | .settle => [.settle]
  | .reject status => [.complete (some status)]
  | .start | .register | .submitClaimedBacking | .rdmaReleased _ | .finishEvent _ | .unregister => []

/-- What an instruction logs and makes the Backing Store path owe; it leaves the request and the
other transactions alone. -/
theorem perform_effect {answer : Answer} (h : s.perform x answer = some (new, s')) :
    s'.log = x.logged ++ s.log ∧
    s'.backingOwed = s.backingOwed + (if x = .submitBacking ∧ answer.status = none then 1 else 0) ∧
    s'.others = s.others ∧ s'.engine.mode = s.engine.mode ∧ s'.spec = s.spec := by
  cases x with
  | start | register =>
    dsimp only [State.perform] at h
    split at h <;> cases h <;> exact ⟨rfl, rfl, rfl, rfl, rfl⟩
  | allocate =>
    dsimp only [State.perform] at h
    split at h
    · cases h
      exact ⟨rfl, rfl, rfl, rfl, rfl⟩
    · split at h <;> cases h <;> exact ⟨rfl, rfl, rfl, rfl, rfl⟩
  | unregister | settle | reject =>
    cases h
    exact ⟨rfl, rfl, rfl, rfl, rfl⟩
  | submitClaimedBacking =>
    dsimp only [State.perform] at h
    split at h <;> cases h
    exact ⟨rfl, rfl, rfl, rfl, rfl⟩
  | prepare =>
    dsimp only [State.perform] at h
    split at h
    · cases h
    · split at h <;> cases h <;> exact ⟨rfl, rfl, rfl, rfl, rfl⟩
  | submitBacking | submitRdma =>
    dsimp only [State.perform] at h
    split at h
    · cases h
    · split at h <;> rename_i hst <;> cases h <;> simp [hst, State.note, Instr.logged]
  | _ =>
    obtain ⟨t, ht, he⟩ := Option.map_eq_some_iff.mp h
    cases he
    exact ⟨rfl, rfl, rfl, rfl, rfl⟩

theorem step_frame (h : s.step l = some s') :
    s'.others + l.leaves.toNat = s.others + l.joins.toNat ∧ s'.engine.mode = s.engine.mode ∧
      s'.spec = s.spec ∧
      (s'.log = s.log ∨ ∃ e, s'.log = e :: s.log) := by
  cases step_cases h with
  | @runs i answer x _ _ _ _ hp =>
    obtain ⟨hlog, -, hothers, hmode, hspec⟩ := perform_effect hp
    have hone : x.logged = [] ∨ ∃ e, x.logged = [e] := by cases x <;> simp [Instr.logged]
    refine ⟨hothers, hmode, hspec, hone.imp (fun he => ?_) fun ⟨e, he⟩ => ⟨e, ?_⟩⟩ <;>
      rw [he] at hlog <;> exact hlog
  | @enters l _ _ _ _ hown => cases l <;> first | exact ⟨rfl, rfl, rfl, .inl rfl⟩ | cases hown
  | others hothers => exact ⟨hothers, rfl, rfl, .inl rfl⟩

theorem exec_others {ls : List Label} (h : engineSystem.exec s ls = some s') :
    s'.others + ls.countP Label.leaves = s.others + ls.countP Label.joins := by
  induction ls generalizing s with
  | nil =>
    cases h
    rfl
  | cons l ls ih =>
    obtain ⟨u, hu, h⟩ := Option.bind_eq_some_iff.mp h
    have hstep := (step_frame hu).1
    have htail := ih h
    simp only [List.countP_cons]
    cases hj : l.joins <;> cases hl : l.leaves <;> simp [hj, hl] at hstep ⊢ <;> omega

/-- What had happened at an earlier point is the log of an earlier state. -/
theorem earlier_reachable (h : engineSystem.Reachable s) {log : List Event} (hl : log <:+ s.log) :
    ∃ s₀, engineSystem.Reachable s₀ ∧ s₀.log = log ∧ s₀.engine.mode = s.engine.mode ∧
      s₀.spec = s.spec := by
  induction h with
  | @init s hs =>
    have hlog : s.log = [] := by rw [show s = _ from hs]
    rw [hlog] at hl
    exact ⟨s, .init hs, hlog.trans (List.suffix_nil.mp hl).symm, rfl, rfl⟩
  | @step s t l hr _ hs ih =>
    obtain ⟨-, hmode, hspec, hlog⟩ := step_frame hs
    by_cases heq : log = t.log
    · exact ⟨t, hr.step trivial hs, heq.symm, rfl, rfl⟩
    · have hsuffix : log <:+ s.log := by
        rcases hlog with hlog | ⟨e, hlog⟩
        · rwa [hlog] at hl
        · rw [hlog] at hl heq
          exact (List.suffix_cons_iff.mp hl).resolve_left heq
      obtain ⟨s₀, hs₀, hlog₀, hmode₀, hspec₀⟩ := ih hsuffix
      exact ⟨s₀, hs₀, hlog₀, hmode₀.trans hmode.symm, hspec₀.trans hspec.symm⟩

/-! ### The story a log tells -/

/-- The part of its life a transaction is in, by its log. -/
inductive Story (s : State) : Prop
  | early (h : s.log = [] ∨ s.log = [.allocate] ∨ s.log = [.prepare, .allocate])
  | rejected (pre : List Event) {l : List Event} (e : Errno)
      (hpre : pre = [] ∨ pre = [.settle]) (hl : l = [] ∨ l = [.allocate])
      (h : s.log = pre ++ .complete (some e) :: l)
  | live {t : Transaction} (h : Live s t)
  | concluded (pre : List Event) {l : List Event} {r : Option Errno}
      (hpre : pre = [] ∨ pre = [.release] ∨ pre = [.settle, .release])
      (hc : Concluded s.engine.mode s.spec.direction r l) (h : s.log = pre ++ l)

variable {r : Option Errno} {log l₁ l₂ : List Event}

theorem Final.story (hf : Final s.engine.mode s.spec.direction log)
    (h : s.log = log ∨ s.log = .settle :: log) : Story s := by
  cases hf with
  | rejected e hl =>
    rcases h with h | h
    · exact .rejected [] e (.inl rfl) hl h
    · exact .rejected [.settle] e (.inr rfl) hl h
  | released hc =>
    rcases h with h | h
    · exact .concluded [.release] (.inr (.inl rfl)) hc h
    · exact .concluded [.settle, .release] (.inr (.inr rfl)) hc h

theorem Phase.story (h : Phase s) : Story s := by
  cases h with
  | start h | register h | allocate h => exact .early (.inl h.log)
  | reject _ _ hl h =>
    rcases hl with rfl | rfl
    · exact .early (.inl h.log)
    · exact .early (.inr (.inl h.log))
  | prepare h => exact .early (.inr (.inl h.log))
  | claim _ h | copy _ _ h => exact .early (.inr (.inr h.log))
  | live h => exact .live h
  | release _ _ hc h => exact .concluded [] (.inl rfl) hc h.log
  | unregister hf h | settle hf h => exact hf.story (.inl h.log)
  | settled hf h => exact hf.story (.inr h.log)

theorem not_mem_of_quiet {e : Event} (h : ∀ e ∈ log, e.closes = false) (he : e.closes = true) :
    e ∉ log := by
  intro hmem
  rw [h e hmem] at he
  cases he

theorem count_of_quiet {e : Event} (h : ∀ e ∈ log, e.closes = false) (he : e.closes = true) :
    log.count e = 0 :=
  List.count_eq_zero.mpr (not_mem_of_quiet h he)

/-- Nothing is done twice, and no violation is reported. -/
theorem Story.counts (h : Story s) : s.log.countP Event.completes ≤ 1 ∧ s.log.count .release ≤ 1 ∧
    s.log.count .settle ≤ 1 ∧ ∀ e, .invariant e ∉ s.log := by
  cases h with
  | early h => rcases h with h | h | h <;> simp [h, Event.completes]
  | rejected pre e hpre hl h => rcases hpre with rfl | rfl <;> rcases hl with rfl | rfl <;>
      simp [h, List.countP_cons, Event.completes]
  | @live t h =>
    rw [count_of_quiet h.quiet rfl, count_of_quiet h.quiet rfl]
    refine ⟨?_, Nat.zero_le _, Nat.zero_le _, fun e => not_mem_of_quiet h.quiet rfl⟩
    have hsum := h.completed
    have hle : t.policy.requestComplete.toNat ≤ 1 := Bool.toNat_le _
    omega
  | concluded pre hpre hc h =>
    have hrel := count_of_quiet hc.quiet (e := .release) rfl
    have hset := count_of_quiet hc.quiet (e := .settle) rfl
    have hinv := fun e => not_mem_of_quiet hc.quiet (e := .invariant e) rfl
    rcases hpre with rfl | rfl | rfl <;> simp [h, hc.completed, hrel, hset, hinv, Event.completes]

/-- The storage is released after the completion, and only the settlement follows. -/
theorem Story.release_last (h : Story s) (hl : s.log = l₁ ++ .release :: l₂) :
    (∀ e ∈ l₁, e = .settle) ∧ l₂.countP Event.completes = 1 := by
  have hmem : .release ∈ s.log := by rw [hl]; simp
  cases h with
  | early h => rcases h with h | h | h <;> simp [h] at hmem
  | rejected pre e hpre hl h =>
    rcases hpre with rfl | rfl <;> rcases hl with rfl | rfl <;> simp [h] at hmem
  | live h => exact absurd hmem (not_mem_of_quiet h.quiet rfl)
  | @concluded pre l _ hpre hc h =>
    -- the release stands in front of the concluded log, which has none
    have hsplit : ∀ l₁, .release :: l = l₁ ++ .release :: l₂ → l₁ = [] ∧ l₂ = l := by
      rintro (_ | ⟨e, l₁⟩) he
      · exact ⟨rfl, (List.cons.inj he).2.symm⟩
      · refine absurd ?_ (not_mem_of_quiet hc.quiet (e := .release) rfl)
        rw [(List.cons.inj he).2]
        simp
    rw [h] at hl hmem
    rcases hpre with rfl | rfl | rfl
    · exact absurd hmem (not_mem_of_quiet hc.quiet rfl)
    · obtain ⟨rfl, rfl⟩ := hsplit l₁ hl
      exact ⟨nofun, hc.completed⟩
    · cases l₁ with
      | nil => cases hl
      | cons e l₁ =>
        obtain ⟨rfl, hl'⟩ := List.cons.inj hl
        obtain ⟨rfl, rfl⟩ := hsplit l₁ hl'
        exact ⟨by simp, hc.completed⟩

theorem Story.settle_last (h : Story s) (hl : s.log = l₁ ++ .settle :: l₂) :
    l₁ = [] ∧ l₂.countP Event.completes = 1 ∧ (.prepare ∈ l₂ → .release ∈ l₂) := by
  have hmem : .settle ∈ s.log := by rw [hl]; simp
  have hsplit : ∀ log, .settle ∉ log → s.log = .settle :: log → l₁ = [] ∧ l₂ = log := by
    intro log hno hlog
    rw [hlog] at hl
    cases l₁ with
    | nil => exact ⟨rfl, (List.cons.inj hl).2.symm⟩
    | cons e l₁ =>
      rw [(List.cons.inj hl).2] at hno
      simp at hno
  cases h with
  | early h => rcases h with h | h | h <;> simp [h] at hmem
  | rejected pre e hpre hl' h =>
    rcases hpre with rfl | rfl
    · rcases hl' with rfl | rfl <;> simp [h] at hmem
    · obtain ⟨rfl, rfl⟩ := hsplit _ (by rcases hl' with rfl | rfl <;> simp) h
      rcases hl' with rfl | rfl <;> exact ⟨rfl, rfl, by simp⟩
  | live h => exact absurd hmem (not_mem_of_quiet h.quiet rfl)
  | concluded pre hpre hc h =>
    have hno := not_mem_of_quiet hc.quiet (e := .settle) rfl
    rcases hpre with rfl | rfl | rfl
    · rw [h] at hmem
      exact absurd hmem hno
    · rw [h] at hmem
      exact absurd (by simpa using hmem) hno
    · obtain ⟨rfl, rfl⟩ := hsplit _ (by simpa using hno) h
      exact ⟨rfl, hc.completed, fun _ => List.mem_cons_self⟩

/-! ### Exactly once -/

/-- Nothing is left to be done for the transaction. -/
def State.Done (s : State) : Prop :=
  pending s.threads = [] ∧ s.backingOwed = 0 ∧ s.resultOwed = 0 ∧ s.releaseOwed = 0

instance : DecidablePred State.Done := fun _ => inferInstanceAs (Decidable (_ ∧ _ ∧ _ ∧ _))

theorem Final.counts {mode : EngineMode} {direction : Direction} (h : Final mode direction log) :
    log.countP Event.completes = 1 ∧ log.count .settle = 0 ∧
      log.count .release = (if .prepare ∈ log then 1 else 0) := by
  cases h with
  | rejected e hl => rcases hl with rfl | rfl <;> simp [List.countP_cons, Event.completes]
  | released hc =>
    have hrel := count_of_quiet hc.quiet (e := .release) rfl
    have hset := count_of_quiet hc.quiet (e := .settle) rfl
    simp [Event.completes, hc.completed, hc.prepared, hrel, hset]

theorem Phase.done (h : Phase s) (hd : s.Done) : ∃ log, Final s.engine.mode s.spec.direction log ∧
    Alone s [] 0 none (.settle :: log) := by
  obtain ⟨hpend, hb, hr, hf⟩ := hd
  cases h with
  | settled hf h => exact ⟨_, hf, h⟩
  | live h =>
    -- a claim that is left is owed by an adapter or stands on a thread
    have hev := h.events
    have hback := h.backing
    have hres := h.result
    have hrel := h.release
    simp only [State.weigh, hpend, hb, hr, hf, List.map_nil, List.sum_nil] at hev hback hres hrel
    rcases h.awake with hne | hne | hne | hne
    · exact absurd hev.symm hne
    · rw [hne] at hback; cases hback
    · rw [hne] at hres; cases hres
    · rw [hne] at hrel; cases hrel
  | reject e registered _ h =>
    rw [h.solo.pending_eq] at hpend
    cases hpend
  | start h | register h | allocate h | prepare h | claim _ h | copy _ _ h | release _ _ _ h
  | unregister _ h
  | settle _ h =>
    rw [h.solo.pending_eq] at hpend
    cases hpend

/-- While something is left, an adapter can deliver or a thread can run. -/
theorem Phase.progress (h : Phase s) (hd : ¬ s.Done) :
    ∃ l : Label, l.own = true ∧ (s.step l).isSome = true := by
  by_cases hb : s.backingOwed = 0
  · by_cases hr : s.resultOwed = 0
    · by_cases hf : s.releaseOwed = 0
      · have hpend : pending s.threads ≠ [] := fun hpend => hd ⟨hpend, hb, hr, hf⟩
        obtain ⟨x, hx⟩ := List.exists_mem_of_ne_nil _ hpend
        obtain ⟨th, hth, hx⟩ := mem_pending.mp hx
        obtain ⟨i, hi⟩ := List.getElem?_of_mem hth
        cases th with
        | nil => cases hx
        | cons y rest => exact ⟨.run i {}, rfl, h.enabled hi {}⟩
      · exact ⟨.transport, rfl, by simp [State.step, hf]⟩
    · exact ⟨.rdma none false, rfl, by simp [State.step, hr]⟩
  · exact ⟨.backing none, rfl, by simp [State.step, hb]⟩

/-- The storage is about to be released only when no claim is left, nothing is owed and no other
thread works. -/
theorem Phase.releasing (h : Phase s) (hx : .release ∈ pending s.threads) : ∃ t, s.transaction = some t ∧
    t.activeEvents = 0 ∧ t.backingClaim = false ∧ t.rdmaResultClaim = false ∧
      t.rdmaTransportClaim = false ∧
      pending s.threads = [.release, .unregister, .settle] ∧ s.backingOwed = 0 ∧ s.resultOwed = 0 ∧
      s.releaseOwed = 0 ∧ s.log.countP Event.completes = 1 := by
  cases h with
  | release hev hclaims hc h =>
    exact ⟨_, h.transaction, hev, hclaims.1, hclaims.2.1, hclaims.2.2, h.solo.pending_eq, h.idle.1,
      h.idle.2.1, h.idle.2.2, h.log ▸ hc.completed⟩
  | live h => exact (h.inner _ hx).elim
  | reject e registered _ h =>
    rw [h.solo.pending_eq] at hx
    cases registered <;> simp [rejectStart] at hx
  | claim htail h | copy htail _ h =>
    rw [h.solo.pending_eq] at hx
    rcases htail with rfl | ⟨e, rfl⟩ <;> simp [failRdmaSubmission] at hx
  | start h | register h | allocate h | prepare h | unregister _ h | settle _ h | settled _ h =>
    rw [h.solo.pending_eq] at hx
    simp at hx

/-- **Exactly once.** In every run of a transaction, whatever the adapters answer and in whatever
order and nesting their events arrive, the request is completed, the storage released and the
transaction settled at most once, and no violation is reported. When the storage is about to be
released, the request is complete, no claim is left and no one else works on it; only the settlement
follows. No thread ever uses storage that is gone. A run makes at most 60 steps for the transaction
and can go on until nothing is left to do; then the request is completed once and settled once, the
storage released if there was any, and the engine counts what the other transactions account for. -/
theorem transaction_exactly_once (h : engineSystem.Reachable s) :
    (s.log.countP Event.completes ≤ 1 ∧ s.log.count .release ≤ 1 ∧ s.log.count .settle ≤ 1 ∧
      ∀ e, .invariant e ∉ s.log) ∧
    (.release ∈ pending s.threads → ∃ t, s.transaction = some t ∧
      t.activeEvents = 0 ∧ t.backingClaim = false ∧ t.rdmaResultClaim = false ∧
        t.rdmaTransportClaim = false ∧
        pending s.threads = [.release, .unregister, .settle] ∧ s.backingOwed = 0 ∧ s.resultOwed = 0 ∧
        s.releaseOwed = 0 ∧ s.log.countP Event.completes = 1) ∧
    (∀ l₁ l₂, s.log = l₁ ++ .release :: l₂ → (∀ e ∈ l₁, e = .settle) ∧ l₂.countP Event.completes = 1) ∧
    (∀ l₁ l₂, s.log = l₁ ++ .settle :: l₂ →
      l₁ = [] ∧ l₂.countP Event.completes = 1 ∧ (.prepare ∈ l₂ → .release ∈ l₂)) ∧
    (∀ i x rest answer, s.threads[i]? = some (x :: rest) → (s.step (.run i answer)).isSome = true) ∧
    (¬ s.Done → ∃ l : Label, l.own = true ∧ (s.step l).isSome = true) ∧
    (∀ s₀ ls, s₀.Initial → engineSystem.exec s₀ ls = some s → ls.countP Label.own ≤ 60) ∧
    (s.Done → s.log.countP Event.completes = 1 ∧ s.log.count .settle = 1 ∧
      s.log.count .release = (if .prepare ∈ s.log then 1 else 0) ∧ s.transaction = none ∧
      ∀ s₀ ls, s₀.Initial → engineSystem.exec s₀ ls = some s →
        s.engine.activeTransactions + ls.countP Label.leaves =
          s₀.engine.activeTransactions + ls.countP Label.joins) := by
  have hphase := phase_reachable h
  have hstory := hphase.story
  refine ⟨hstory.counts, hphase.releasing, fun l₁ l₂ => hstory.release_last,
    fun l₁ l₂ => hstory.settle_last, fun i x rest answer hi => hphase.enabled hi answer,
    hphase.progress, fun s₀ ls h₀ hexec => ?_, fun hd => ?_⟩
  · have hbound := System.countP_le_of_exec (p := Label.own) (fun s l t ht => effort_step ht) hexec
    have hstart : s₀.effort = 60 := by rw [show s₀ = _ from h₀]; rfl
    omega
  · obtain ⟨log, hf, halone⟩ := hphase.done hd
    rw [halone.log]
    obtain ⟨hc, hset, hrel⟩ := hf.counts
    refine ⟨hc, ?_, ?_, halone.transaction, fun s₀ ls h₀ hexec => ?_⟩
    · rw [List.count_cons_self, hset]
    · simpa using hrel
    · have hothers : s₀.others = s₀.engine.activeTransactions := by rw [show s₀ = _ from h₀]
      rw [halone.counted, ← hothers]
      exact exec_others hexec

/-- A Remote-First write on an engine of its own. -/
def remoteFirstWrite : State where
  engine := { mode := .backedRemoteFirst }
  spec := { direction := .write, bytes := 4096, generation := 1, payload := 1 }
  threads := [[.start]]
  others := 0

/-- Its Backing Store copy fails and is retried while the RDMA copy fails and is released; the retry
fails in the submission itself. -/
def failedCopies : List Label :=
  [.run 0 {}, .run 0 {}, .run 0 {}, .run 0 {}, .run 0 {}, .run 0 {}, .backing (some .eio),
    .run 1 {}, .run 0 {}, .rdma (some .eio) false, .run 2 {}, .run 2 {}, .run 0 {}, .transport,
    .run 3 {}, .run 3 {}, .run 1 { status := some .eio }, .run 1 {}, .run 1 {}, .run 1 {},
    .run 1 {}, .run 1 {}, .run 1 {}, .run 1 {}, .run 1 {}]

theorem transaction_exactly_once_retried :
    ∃ s : State, engineSystem.exec remoteFirstWrite failedCopies = some s ∧
    s.Done ∧ s.log.countP Event.completes = 1 ∧ s.log.count .settle = 1 ∧ s.log.count .release = 1 ∧
      s.engine.activeTransactions = 0 := by
  have hrun : (engineSystem.exec remoteFirstWrite failedCopies).any
      (fun s => s.Done ∧ .prepare ∈ s.log) = true := by decide +kernel
  obtain ⟨s, hs, hrun⟩ := (Option.any_eq_true _ _).mp hrun
  obtain ⟨hd, hp⟩ := of_decide_eq_true hrun
  have hinit : remoteFirstWrite.Initial := rfl
  have hreach : engineSystem.Reachable s := System.reachable_of_exec (.init hinit) hs
  obtain ⟨-, -, -, -, -, -, -, hdone⟩ := transaction_exactly_once hreach
  obtain ⟨hc, hset, hrel, -, hactive⟩ := hdone hd
  have hcount := hactive _ _ hinit hs
  have hnone : failedCopies.countP Label.leaves = 0 ∧ failedCopies.countP Label.joins = 0 := by
    decide +kernel
  rw [hnone.1, hnone.2] at hcount
  rw [if_pos hp] at hrel
  exact ⟨s, hs, hd, hc, hset, hrel, hcount⟩

/-! ### The order of events does not matter -/

/-- A write that has a Backing Store copy submits it before the RDMA copy, and before it succeeds. -/
theorem Story.copied_first (h : Story s) (hc : copies s.engine.mode s.spec.direction = true)
    (hm : .submitRdma ∈ s.log ∨ .complete none ∈ s.log) : .submitBacking ∈ s.log := by
  cases h with
  | early h => rcases h with h | h | h <;> simp [h] at hm
  | rejected pre e hpre hl h => rcases hpre with rfl | rfl <;> rcases hl with rfl | rfl <;> simp [h] at hm
  | live h =>
    refine h.submitted ?_
    rw [h.kind, backedWrite_policyKind]
    exact hc
  | concluded pre _ hconc h =>
    rw [h]
    exact List.mem_append_right _ (hconc.copied hc).1

theorem results_append {pre l : List Event}
    (hpre : pre = [] ∨ pre = [.release] ∨ pre = [.settle, .release]) :
    rdmaResult (pre ++ l) = rdmaResult l ∧ lastBacking (pre ++ l) = lastBacking l ∧
      (pre ++ l).count .submitBacking = l.count .submitBacking := by
  rcases hpre with rfl | rfl | rfl <;> exact ⟨rfl, rfl, by simp⟩

/-- A strict write is completed with the results of both its paths. -/
theorem Story.strict (h : Story s) (hmode : s.engine.mode = .backedStrict)
    (hdir : s.spec.direction = .write) {st : Option Errno} (hst : .complete st ∈ s.log)
    (hp : .prepare ∈ s.log) :
    (rdmaResult s.log).isSome = true ∧ (lastBacking s.log).isSome = true := by
  cases h with
  | early h => rcases h with h | h | h <;> simp [h] at hst
  | rejected pre e hpre hl h => rcases hpre with rfl | rfl <;> rcases hl with rfl | rfl <;> simp [h] at hp
  | @live t h =>
    have hdue := h.complete_of_mem (.inl hst)
    have hk : t.policy.kind = .strictWrite := by rw [h.kind, hmode, hdir]; rfl
    rw [h.policy.complete, due, hk, Bool.and_eq_true] at hdue
    rw [h.rdma, if_pos hdue.2, h.taken hdue.1]
    exact ⟨rfl, rfl⟩
  | concluded pre hpre hc h =>
    rw [h, (results_append hpre).1, (results_append hpre).2.1, hc.rdma]
    exact ⟨rfl, (hc.copied (by rw [hmode, hdir]; rfl)).2⟩

/-- The Backing Store path is tried once, a Remote-First write twice. -/
theorem Story.attempts (h : Story s) : s.log.count .submitBacking ≤
    if s.engine.mode = .backedRemoteFirst ∧ s.spec.direction = .write then 2 else 1 := by
  cases h with
  | early h => rcases h with h | h | h <;> simp [h]
  | rejected pre e hpre hl h => rcases hpre with rfl | rfl <;> rcases hl with rfl | rfl <;> simp [h]
  | live h => exact (Nat.le_add_right _ _).trans (h.attempted.le.trans h.attempts_le)
  | concluded pre hpre hc h =>
    rw [h, (results_append hpre).2.2]
    exact hc.attempts

theorem backingFailed_iff {backing : Option (Option Errno)} :
    backingFailed backing = true ↔ ∃ e, backing = some (some e) := by
  rcases backing with _ | _ | e <;> simp [backingFailed]

theorem mem_of_lastBacking {st : Option Errno} : ∀ {log : List Event}, lastBacking log = some st →
    .backingResult st ∈ log
  | .backingResult st' :: log, h => by
    cases h
    exact List.mem_cons_self
  | .allocate :: log, h | .prepare :: log, h | .submitBacking :: log, h | .submitRdma :: log, h
  | .rdmaResult _ :: log, h | .backingDegraded :: log, h | .markLocalOnly :: log, h
  | .complete _ :: log, h
  | .invariant _ :: log, h | .release :: log, h | .settle :: log, h =>
    List.mem_cons_of_mem _ (mem_of_lastBacking h)

theorem Phase.concluded (h : Phase s) (hd : s.Done) (hp : .prepare ∈ s.log) :
    ∃ r log, Concluded s.engine.mode s.spec.direction r log ∧ s.log = [.settle, .release] ++ log := by
  obtain ⟨log, hf, halone⟩ := h.done hd
  have hlog := halone.log
  cases hf with
  | rejected e hl =>
    rw [hlog] at hp
    rcases hl with rfl | rfl <;> simp at hp
  | released hc => exact ⟨_, _, hc, hlog⟩

/-- **Acknowledgement is order-independent.** However the events of a transaction are interleaved: a
strict write is completed only with the results of both its paths; a write with a Backing Store copy
submits it before the RDMA copy and before it succeeds; the Backing Store path is tried once, by a
Remote-First write at most twice. In the end the request succeeds, its Backing Store copy is marked
as the only one and the device is degraded exactly as the last Backing Store result and the RDMA
result say, where the last result is a success if any attempt was, and a Remote-First write fails on
the Backing Store only after its retry. A start that is rejected never succeeds. -/
theorem acknowledgement_order_free (h : engineSystem.Reachable s) :
    (s.engine.mode = .backedStrict → s.spec.direction = .write →
      ∀ l₁ st l₂, s.log = l₁ ++ .complete st :: l₂ →
      .prepare ∈ l₂ → (rdmaResult l₂).isSome = true ∧ (lastBacking l₂).isSome = true) ∧
    (copies s.engine.mode s.spec.direction = true → ∀ l₁ e l₂, s.log = l₁ ++ e :: l₂ →
      e = .submitRdma ∨ e = .complete none → .submitBacking ∈ l₂) ∧
    (s.log.count .submitBacking ≤
      if s.engine.mode = .backedRemoteFirst ∧ s.spec.direction = .write then 2 else 1) ∧
    (s.Done → .prepare ∈ s.log → ∃ r, rdmaResult s.log = some r ∧
      (∀ st, .complete st ∈ s.log →
        (st = none ↔ succeeds s.engine.mode s.spec.direction (lastBacking s.log) r = true)) ∧
      (.markLocalOnly ∈ s.log ↔
        copies s.engine.mode s.spec.direction = true ∧ lastBacking s.log = some none ∧ r ≠ none) ∧
      (.backingDegraded ∈ s.log ↔ ∃ e, lastBacking s.log = some (some e)) ∧
      (.backingResult none ∈ s.log ↔ lastBacking s.log = some none) ∧
      (s.engine.mode = .backedRemoteFirst → s.spec.direction = .write →
        (∃ e, lastBacking s.log = some (some e)) → s.log.count .submitBacking = 2)) ∧
    (.prepare ∉ s.log → ∀ e ∈ s.log, e = .allocate ∨ e = .settle ∨
      ∃ status, e = .complete (some status)) := by
  have hphase := phase_reachable h
  have hstory := hphase.story
  refine ⟨fun hmode hdir l₁ st l₂ hl hp => ?_, fun hc l₁ e l₂ hl he => ?_, hstory.attempts,
    fun hd hp => ?_, fun hp => ?_⟩
  · obtain ⟨s₀, h₀, hlog, hm₀, hs₀⟩ :=
      earlier_reachable h (hl ▸ List.suffix_append l₁ (.complete st :: l₂))
    have hst : .complete st ∈ s₀.log := hlog ▸ List.mem_cons_self
    have hboth := (phase_reachable h₀).story.strict (hm₀.trans hmode) (hs₀ ▸ hdir) hst
      (hlog ▸ List.mem_cons_of_mem _ hp)
    rw [hlog] at hboth
    exact hboth
  · obtain ⟨s₀, h₀, hlog, hm₀, hs₀⟩ := earlier_reachable h (hl ▸ List.suffix_append l₁ (e :: l₂))
    have hlast : e ∈ s₀.log := hlog ▸ List.mem_cons_self
    have hmem := (phase_reachable h₀).story.copied_first (by rwa [hm₀, hs₀])
      (by rcases he with rfl | rfl <;> simp [hlast])
    rw [hlog] at hmem
    refine (List.mem_cons.mp hmem).resolve_left fun heq => ?_
    rcases he with rfl | rfl <;> cases heq
  · obtain ⟨r, log, hc, hlog⟩ := hphase.concluded hd hp
    have hlast : lastBacking s.log = lastBacking log := by rw [hlog]; rfl
    have hmem : ∀ e : Event, e.closes = false → (e ∈ s.log ↔ e ∈ log) := by
      intro e he
      rw [hlog]
      cases e <;> simp_all [Event.closes]
    have hcount : ∀ e : Event, ∀ b : Bool, log.count e = b.toNat → (e ∈ log ↔ b = true) := by
      intro e b he
      rw [← List.count_pos_iff, he]
      cases b <;> simp
    rw [hlast]
    refine ⟨r, by rw [hlog]; exact hc.rdma, fun st hst => ?_, ?_, ?_, ?_, fun hm hdir hf => ?_⟩
    · rw [← hc.status st ((hmem _ rfl).mp hst), Option.isNone_iff_eq_none]
    · rw [hmem _ rfl, hcount _ _ hc.marked, onlyLocal]
      simp [Option.isSome_iff_ne_none, and_assoc]
    · rw [hmem _ rfl, hcount _ _ hc.degraded, backingFailed_iff]
    · rw [hmem _ rfl]
      exact ⟨hc.succeeded, mem_of_lastBacking⟩
    · have htwo := hc.exhausted hm hdir (backingFailed_iff.mpr hf)
      rw [hlog]
      simpa using htwo
  · cases hstory with
    | early h => rcases h with h | h | h <;> simp [h] at hp ⊢
    | rejected pre e hpre hl h => rcases hpre with rfl | rfl <;> rcases hl with rfl | rfl <;> simp [h]
    | live h => exact absurd h.prepared hp
    | concluded pre _ hc h => exact absurd (h ▸ List.mem_append_right _ hc.prepared) hp

/-- A strict write whose RDMA copy fails before its Backing Store copy succeeds. -/
def strictWrite : State := { remoteFirstWrite with engine := { mode := .backedStrict } }

def lateCopy : List Label :=
  [.run 0 {}, .run 0 {}, .run 0 {}, .run 0 {}, .run 0 {}, .run 0 {}, .run 0 {},
    .rdma (some .eio) true, .run 1 {}, .transport, .run 2 {}, .backing none, .run 3 {}, .run 3 {},
    .run 1 {}, .run 2 {}, .run 0 {}, .run 3 {}, .run 3 {}, .run 3 {}, .run 3 {}, .run 3 {}]

theorem acknowledgement_order_free_strict :
    ∃ s : State, engineSystem.exec strictWrite lateCopy = some s ∧ s.Done ∧
    .markLocalOnly ∈ s.log ∧ .backingDegraded ∉ s.log ∧ ∀ st, .complete st ∈ s.log → st = none := by
  have hrun : (engineSystem.exec strictWrite lateCopy).any (fun s => s.Done ∧ .prepare ∈ s.log ∧
      s.engine.mode = .backedStrict ∧ s.spec.direction = .write ∧ lastBacking s.log = some none ∧
      rdmaResult s.log = some (some .eio)) = true := by decide +kernel
  obtain ⟨s, hs, hrun⟩ := (Option.any_eq_true _ _).mp hrun
  obtain ⟨hd, hp, hm, hdir, hlast, hrdma⟩ := of_decide_eq_true hrun
  have hreach : engineSystem.Reachable s :=
    System.reachable_of_exec (.init (show strictWrite.Initial from rfl)) hs
  obtain ⟨-, -, -, hdone, -⟩ := acknowledgement_order_free hreach
  obtain ⟨r, hr, hst, hmark, hdeg, -⟩ := hdone hd hp
  cases hrdma.symm.trans hr
  rw [hm, hdir, hlast] at hmark
  rw [hm, hdir, hlast] at hst
  rw [hlast] at hdeg
  exact ⟨s, hs, hd, hmark.mpr ⟨rfl, rfl, nofun⟩, fun hmem => (hdeg.mp hmem).elim nofun,
    fun st h => (hst st h).mpr rfl⟩

end Io
end Infiniswap
