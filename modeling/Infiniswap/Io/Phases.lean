/-
# The life of a transaction

A transaction starts and ends alone: from the submission of the request to the
first submission of a path, and from the last event to the settlement, one
thread runs and no adapter owes anything. In between it is open, and the ledger
holds. A start that is rejected goes from the first part to the end of the last.

The potential of a state bounds the steps that are still to be made for the
transaction: an instruction weighs more than all it can turn into, and a retry
of the Backing Store path is paid for once.
-/
import Infiniswap.Io.Ledger

namespace Infiniswap
namespace Io

open Threads Transition IoPolicy Instr

/-! ### What a request comes to -/

/-- Whether a request with these results of its paths succeeds. -/
def succeeds (mode : EngineMode) (direction : Direction) (backing : Option (Option Errno))
    (rdma : Option Errno) : Bool := match mode, direction with
  | .backedStrict, .write => backing = some none
  | .remoteOnly, _ => rdma.isNone
  | _, _ => rdma.isNone || backing = some none

/-- Whether a request writes a Backing Store copy. -/
def copies (mode : EngineMode) (direction : Direction) : Bool := mode ≠ .remoteOnly && direction = .write

/-- Whether the Backing Store copy of a write is its only one. -/
def onlyLocal (mode : EngineMode) (direction : Direction) (backing : Option (Option Errno))
    (rdma : Option Errno) : Bool := copies mode direction && backing = some none && rdma.isSome

/-- Whether the last attempt of the Backing Store path failed. -/
def backingFailed : Option (Option Errno) → Bool
  | some (some _) => true
  | _ => false

/-- The log of a transaction whose paths are at an end, with the result `r` of the RDMA path. -/
structure Concluded (mode : EngineMode) (direction : Direction) (r : Option Errno)
    (l : List Event) : Prop where
  quiet : ∀ e ∈ l, e.closes = false
  prepared : .prepare ∈ l
  completed : l.countP Event.completes = 1
  rdma : rdmaResult l = some r
  status : ∀ st, .complete st ∈ l → st.isNone = succeeds mode direction (lastBacking l) r
  marked : l.count .markLocalOnly = (onlyLocal mode direction (lastBacking l) r).toNat
  degraded : l.count .backingDegraded = (backingFailed (lastBacking l)).toNat
  copied : copies mode direction = true → .submitBacking ∈ l ∧ (lastBacking l).isSome = true
  succeeded : .backingResult none ∈ l → lastBacking l = some none
  attempts : l.count .submitBacking ≤ if mode = .backedRemoteFirst ∧ direction = .write then 2 else 1
  exhausted : mode = .backedRemoteFirst → direction = .write → backingFailed (lastBacking l) = true →
    l.count .submitBacking = 2

theorem backedWrite_policyKind (mode : EngineMode) (direction : Direction) :
    backedWrite (policyKind mode direction) = copies mode direction := by
  cases mode <;> cases direction <;> rfl

variable {s s' : State} {t t' : Transaction} {x : Instr} {new : List Instr} {i : ℕ} {rest : List Instr}

theorem Live.last_backing (h : Live s t) (hl : t.policy.localPending = false) :
    lastBacking s.log = if t.policy.localDone then some t.policy.localStatus else none := by
  cases hd : t.policy.localDone
  · rw [if_neg (by simp)]
    refine h.untried hd fun hk => ?_
    have hpend := h.policy.localPending
    rw [hl, hk] at hpend
    simp [hd] at hpend
  · rw [if_pos rfl]
    exact h.taken hd

/-- The verdict of the policy is a function of the two results. -/
theorem Live.acked (h : Live s t) (hl : t.policy.localPending = false)
    (hr : t.policy.remotePending = false) :
    t.policy.acked =
      succeeds s.engine.mode s.spec.direction (lastBacking s.log) t.policy.remoteStatus := by
  have hc := h.policy.complete_of_idle hl hr
  have hdone := h.policy.localDone
  rw [h.policy.complete] at hc
  rw [h.last_backing hl]
  unfold IoPolicy.acked
  have hkind := h.kind
  cases hm : s.engine.mode <;> cases hdir : s.spec.direction <;> rw [hm, hdir] at hkind <;>
    simp only [policyKind, reduceCtorEq, if_true, if_false] at hkind <;> rw [hkind] <;>
    simp only [hkind, due] at hc hdone <;>
    cases hd : t.policy.localDone <;> cases hs : t.policy.localStatus <;>
    simp_all [succeeds]

theorem IoPolicy.Ok.localDone_of_copied {p : IoPolicy} (h : p.Ok) (hc : backedWrite p.kind = true)
    (hl : p.localPending = false) : p.localDone = true := by
  have hpend := h.localPending
  rw [hl] at hpend
  rw [backedWrite, Bool.or_eq_true, decide_eq_true_eq, decide_eq_true_eq] at hc
  rcases hc with hk | hk <;> rw [hk] at hpend <;> simpa using hpend.symm

theorem Live.attempts_le (h : Live s t) :
    t.attempts ≤ if s.engine.mode = .backedRemoteFirst ∧ s.spec.direction = .write then 2 else 1 := by
  have hret := h.retries
  have hone : ∀ b : Bool, b.toNat ≤ 1 := fun b => by cases b <;> simp
  unfold Transaction.attempts
  by_cases hk : t.policy.kind = .remoteFirstWrite
  · rw [if_pos (policyKind_remoteFirstWrite.mp (h.kind.symm.trans hk)), hk]
    simp [backedWrite]
    omega
  · have hzero : t.backingRetries = 0 := by
      by_contra hne
      exact hk (h.retried hne)
    rw [if_neg fun hc => hk (h.kind.trans (policyKind_remoteFirstWrite.mpr hc)), hzero]
    by_cases hread : t.policy.kind = .remoteRead
    · simpa [hread, backedWrite] using hone _
    · simpa [hread] using hone _

theorem Live.concluded (h : Live s t) (hb : t.backingClaim = false) (hr : t.rdmaResultClaim = false)
    (hpend : ∀ y ∈ pending s.threads, ∃ event, y = .finishEvent event) :
    Concluded s.engine.mode s.spec.direction t.policy.remoteStatus s.log := by
  have hl : t.policy.localPending = false := h.backingClaim ▸ hb
  have hrp : t.policy.remotePending = false := h.resultClaim ▸ hr
  have hrd : t.policy.remoteDone = true := by
    have hok := h.policy.remotePending
    rw [hrp] at hok
    simpa using hok.symm
  have hlast := h.last_backing hl
  -- the handlers that are left finish, so what they were to do is done
  have hweigh : ∀ f : Instr → ℕ, (∀ event, f (.finishEvent event) = 0) → s.weigh f = 0 := fun f hf => by
    refine List.sum_eq_zero fun n hn => ?_
    obtain ⟨y, hy, rfl⟩ := List.mem_map.mp hn
    obtain ⟨event, rfl⟩ := hpend y hy
    exact hf event
  have hattempts : s.log.count .submitBacking = t.attempts := by
    rw [← h.attempted, hweigh submits fun _ => rfl, Nat.add_zero]
  exact {
    quiet := h.quiet
    prepared := h.prepared
    completed := by
      have hsum := h.completed
      rwa [hweigh completes fun _ => rfl, h.policy.complete_of_idle hl hrp] at hsum
    rdma := by rw [h.rdma, if_pos hrd]
    status := fun st hst => by rw [h.status st (.inl hst), h.acked hl hrp]
    marked := by
      have hsum := h.marked
      rw [hweigh marks fun _ => rfl, Nat.add_zero] at hsum
      rw [hsum, hlast, localOnly, onlyLocal, hrd, ← backedWrite_policyKind, ← h.kind, backedWrite]
      cases t.policy.localDone <;> cases t.policy.localStatus <;> simp
    degraded := by
      have hsum := h.degraded
      rw [hweigh degrades fun _ => rfl, Nat.add_zero] at hsum
      rw [hsum, hlast, failedLocally]
      cases t.policy.localDone <;> cases t.policy.localStatus <;> rfl
    copied := fun hc => by
      rw [← backedWrite_policyKind, ← h.kind] at hc
      rw [hlast, if_pos (h.policy.localDone_of_copied hc hl)]
      exact ⟨h.submitted hc, rfl⟩
    succeeded := fun hmem => by
      obtain ⟨hd, hs⟩ := h.succeeded hmem
      rw [hlast, if_pos hd, hs]
    attempts := hattempts ▸ h.attempts_le
    exhausted := fun hm hd hf => by
      have hk : t.policy.kind = .remoteFirstWrite :=
        h.kind.trans (policyKind_remoteFirstWrite.mpr ⟨hm, hd⟩)
      have hret : t.backingRetries = 1 := by
        refine h.exhausted hk ?_
        rw [hlast] at hf
        unfold failedLocally
        revert hf
        cases t.policy.localDone <;> cases t.policy.localStatus <;> simp [backingFailed]
      rw [hattempts, Transaction.attempts, hret, hk]
      rfl }

/-! ### Steps -/

/-- The instruction by which an adapter enters a transaction of the generation. -/
inductive Entry (generation : ℕ) : Instr → Prop
  | backing (status : Option Errno) : Entry generation (.backingCompleted status)
  | rdma (status : Option Errno) (cancelled : Bool) :
      Entry generation (.rdmaCompleted generation status cancelled)
  | transport : Entry generation (.rdmaReleased generation)

/-- What a step does: a thread performs an instruction, a handler is entered for what an adapter
owed, or a transaction of another request comes or goes. -/
inductive Steps (s : State) : Label → State → Prop
  | runs {i : ℕ} {answer} {x : Instr} {rest new : List Instr} {s₁}
      (hi : s.threads[i]? = some (x :: rest)) (hp : s.perform x answer = some (new, s₁)) :
      Steps s (.run i answer) { s₁ with threads := s.threads.set i (new ++ rest) }
  | enters {l} {x : Instr} {b r f} (hown : l.own = true) (hx : Entry s.spec.generation x)
      (hb : b + x.backs = s.backingOwed) (hr : r + x.answers = s.resultOwed)
      (hf : f + x.frees = s.releaseOwed) :
      Steps s l ({ s with backingOwed := b, resultOwed := r, releaseOwed := f }.enter x)
  | others {registered active others}
      (hothers : others + (!registered).toNat = s.others + registered.toNat)
      (hactive : s.others ≤ s.engine.activeTransactions →
        active + s.others = others + s.engine.activeTransactions) :
      Steps s (.other registered) { s with
        engine := { s.engine with activeTransactions := active }
        others := others }

theorem step_cases {l : Label} (h : s.step l = some s') : Steps s l s' := by
  cases l with
  | run i answer =>
    simp only [State.step] at h
    split at h
    · rename_i x rest hi
      obtain ⟨⟨new, s₁⟩, hp, rfl⟩ := Option.map_eq_some_iff.mp h
      exact .runs hi hp
    · cases h
  | backing status =>
    obtain ⟨hne, rfl⟩ := (Option.ite_none_left_eq_some.mp h).imp_right Option.some.inj
    exact .enters rfl (.backing status) (Nat.succ_pred_eq_of_ne_zero hne) rfl rfl
  | rdma status cancelled =>
    obtain ⟨hne, rfl⟩ := (Option.ite_none_left_eq_some.mp h).imp_right Option.some.inj
    exact .enters rfl (.rdma status cancelled) rfl (Nat.succ_pred_eq_of_ne_zero hne) rfl
  | transport =>
    obtain ⟨hne, rfl⟩ := (Option.ite_none_left_eq_some.mp h).imp_right Option.some.inj
    exact .enters rfl .transport rfl rfl (Nat.succ_pred_eq_of_ne_zero hne)
  | other registered =>
    cases registered with
    | true =>
      cases h
      exact .others rfl fun _ => by omega
    | false =>
      obtain ⟨hne, rfl⟩ := (Option.ite_none_left_eq_some.mp h).imp_right Option.some.inj
      exact .others (Nat.succ_pred_eq_of_ne_zero hne) fun hle => by omega

/-! ### A transaction alone -/

/-- One thread works on the transaction, and no adapter owes it anything. -/
structure Alone (s : State) (thread : List Instr) (count : ℕ) (transaction : Option Transaction)
    (log : List Event) : Prop where
  solo : Solo s.threads thread
  idle : s.backingOwed = 0 ∧ s.resultOwed = 0 ∧ s.releaseOwed = 0
  counted : s.engine.activeTransactions = s.others + count
  transaction : s.transaction = transaction
  log : s.log = log

variable {thread : List Instr} {k : ℕ} {T : Option Transaction} {L : List Event} {l : Label}

theorem Alone.step (h : Alone s thread k T L) (hown : l.own = true) (hs : s.step l = some s') :
    ∃ x rest new s₁ i answer, thread = x :: rest ∧ s.perform x answer = some (new, s₁) ∧
      s' = { s₁ with threads := s.threads.set i (new ++ rest) } ∧
      Solo (s.threads.set i (new ++ rest)) (new ++ rest) := by
  cases step_cases hs with
  | runs hi hp =>
    obtain ⟨he, hsolo⟩ := h.solo.run hi
    exact ⟨_, _, _, _, _, _, he, hp, rfl, hsolo _⟩
  | enters _ hx hb hr hf =>
    cases hx with
    | backing => exact absurd (hb.trans h.idle.1) (Nat.succ_ne_zero _)
    | rdma => exact absurd (hr.trans h.idle.2.1) (Nat.succ_ne_zero _)
    | transport => exact absurd (hf.trans h.idle.2.2) (Nat.succ_ne_zero _)
  | others => cases hown

theorem Shape.done_of_idle {u : List Instr} (h : Shape u)
    (h0 : ∀ y ∈ u, y.finishes = 0 ∧ y.backs = 0 ∧ y.answers = 0 ∧ y.frees = 0) : u = [] := by
  cases h with
  | done => rfl
  | backing status => cases (h0 _ List.mem_cons_self).2.1
  | rdma g status cancelled => cases (h0 _ List.mem_cons_self).2.2.1
  | transport g => cases (h0 _ List.mem_cons_self).2.2.2
  | working work event => cases (h0 (.finishEvent event) (by simp)).1

theorem weightless_set (hi : s.threads[i]? = some (x :: rest)) (f : Instr → ℕ) (hf : s.weigh f ≤ f x) :
    ∀ y ∈ pending (s.threads.set i ([] ++ rest)), f y = 0 := by
  intro y hy
  have hsum := sum_set hi f []
  have hle := le_sum_of_mem hy f
  rw [List.map_nil, List.sum_nil] at hsum
  unfold State.weigh at hf
  omega

theorem Live.settles (h : Live s t) {event : EngineEvent}
    (hi : s.threads[i]? = some (.finishEvent event :: rest)) (hev : t.activeEvents = 1)
    (hb : t.backingClaim = false) (hr : t.rdmaResultClaim = false)
    (hf : t.rdmaTransportClaim = false) : rest = [] ∧ ∀ u ∈ s.threads.set i [], u = [] := by
  have hfin := weightless_set hi finishes (h.events.trans hev).le
  have hback := weightless_set hi backs (Nat.le_of_eq (Nat.eq_zero_of_add_eq_zero_left (hb ▸ h.backing)))
  have hres := weightless_set hi answers (Nat.le_of_eq (Nat.eq_zero_of_add_eq_zero_left (hr ▸ h.result)))
  have hrel := weightless_set hi frees (Nat.le_of_eq (Nat.eq_zero_of_add_eq_zero_left (hf ▸ h.release)))
  have hshape : Shape rest := by
    rcases (h.threads _ (List.mem_of_getElem? hi)).tail with rfl | ⟨work, event', rfl⟩
    · exact .done
    · exact .working work event'
  have hdone : ∀ u ∈ s.threads.set i rest, u = [] := by
    intro u hu
    refine (forall_thread_set h.threads hshape u hu).done_of_idle fun y hy => ?_
    have hy' : y ∈ pending (s.threads.set i ([] ++ rest)) := mem_pending.mpr ⟨u, hu, hy⟩
    exact ⟨hfin y hy', hback y hy', hres y hy', hrel y hy'⟩
  have hrest : rest = [] := by
    obtain ⟨hlt, -⟩ := List.getElem?_eq_some_iff.mp hi
    exact hdone rest (List.mem_of_getElem? (i := i) (by simp [hlt]))
  subst hrest
  exact ⟨rfl, hdone⟩

/-! ### The adapters deliver -/

theorem Live.enter (h : Live s t) {b r f : ℕ} (hx : Entry s.spec.generation x)
    (hb : b + x.backs = s.backingOwed) (hr : r + x.answers = s.resultOwed)
    (hf : f + x.frees = s.releaseOwed) :
    Live ({ s with backingOwed := b, resultOwed := r, releaseOwed := f }.enter x) t := by
  have hsum :
      ∀ g : Instr → ℕ, ({ s with backingOwed := b, resultOwed := r, releaseOwed := f }.enter x).weigh g =
      s.weigh g + g x := fun g => sum_spawn s.threads x g
  obtain ⟨hshape, hinner, h0, h1, h2, h3, h4⟩ : Shape [x] ∧ x.Inner s.spec.generation ∧ x.finishes = 0 ∧
      x.completes = 0 ∧ x.marks = 0 ∧ x.degrades = 0 ∧ x.submits = 0 := by
    cases hx with
    | backing status => exact ⟨.backing status, trivial, rfl, rfl, rfl, rfl, rfl⟩
    | rdma status cancelled => exact ⟨.rdma _ status cancelled, rfl, rfl, rfl, rfl, rfl, rfl⟩
    | transport => exact ⟨.transport _, rfl, rfl, rfl, rfl, rfl, rfl⟩
  exact { h with
    threads := fun th hth => (List.mem_append.mp hth).elim (h.threads th) fun hx =>
      List.mem_singleton.mp hx ▸ hshape
    inner := fun y hy => by
      rw [State.enter, pending_spawn, List.mem_append] at hy
      exact hy.elim (h.inner y) fun hx => List.mem_singleton.mp hx ▸ hinner
    events := by rw [hsum, h0]; exact h.events
    backing := by
      rw [hsum]
      have hlaw := h.backing
      show b + _ = _
      omega
    result := by
      rw [hsum]
      have hlaw := h.result
      show r + _ = _
      omega
    release := by
      rw [hsum]
      have hlaw := h.release
      show f + _ = _
      omega
    completed := by rw [hsum, h1]; exact h.completed
    marked := by rw [hsum, h2]; exact h.marked
    degraded := by rw [hsum, h3]; exact h.degraded
    attempted := by rw [hsum, h4]; exact h.attempted
    status := fun st hst => h.status st (hst.imp_right fun hy => by
      rw [State.enter, pending_spawn, List.mem_append] at hy
      refine hy.resolve_right fun hx => ?_
      rw [← List.mem_singleton.mp hx] at h1
      cases h1) }

theorem Live.others (h : Live s t) {active others : ℕ} (hc : active = others + 1) :
    Live { s with engine := { s.engine with activeTransactions := active }, others := others } t :=
  { h with counted := hc }

/-! ### A transaction opens -/

theorem initPolicy_eq (mode : EngineMode) (spec : Spec) : initPolicy mode spec =
    { policy :=
        { kind := policyKind mode spec.direction
          generation := spec.generation
          localPending := backedWrite (policyKind mode spec.direction) }
      backingClaim := backedWrite (policyKind mode spec.direction) } := by
  unfold initPolicy backedWrite IoPolicy.initWrite IoPolicy.initRemote
  dsimp only
  split_ifs with hk
  · rcases hk with hk | hk <;> rw [hk] <;> rfl
  · rw [not_or] at hk
    simp [hk.1, hk.2]

/-- What is left of the start after the Backing Store path: the RDMA path, submitted or failed. -/
def RemoteTail (spec : Spec) (tail : List Instr) : Prop :=
  tail = [.submitRdma] ∨ ∃ e, tail = failRdmaSubmission spec e

/-- What the start has logged when the first Backing Store path is under way, if there is one. -/
def openingLog (mode : EngineMode) (direction : Direction) : List Event :=
  (if backedWrite (policyKind mode direction) then [.submitBacking] else []) ++ [.prepare, .allocate]

theorem openingLog_cases (mode : EngineMode) (direction : Direction) :
    openingLog mode direction = [.prepare, .allocate] ∧ backedWrite (policyKind mode direction) = false ∨
      openingLog mode direction = [.submitBacking, .prepare, .allocate] ∧
        backedWrite (policyKind mode direction) = true := by
  unfold openingLog
  cases backedWrite (policyKind mode direction)
  · exact .inl ⟨rfl, rfl⟩
  · exact .inr ⟨rfl, rfl⟩

theorem opening_ok (kind : PolicyKind) (g : ℕ) :
    ({ kind := kind, generation := g, localPending := backedWrite kind } : IoPolicy).Ok := by
  refine ⟨rfl, nofun, ?_, nofun, ?_⟩ <;> cases kind <;> rfl

/-- **A transaction opens** with its Backing Store path submitted, if it has one. -/
theorem live_opening {w tail : List Instr} (htail : RemoteTail s.spec tail)
    (hsolo : Solo s.threads (w ++ (tail ++ [.finishEvent .rdmaCompleted])))
    (ht : s.transaction = some (initPolicy s.engine.mode s.spec))
    (hw : w = [] ∨ ∃ e, w = [.backingCompleted (some e)])
    (hb : s.backingOwed + w.length =
      (backedWrite (policyKind s.engine.mode s.spec.direction)).toNat)
    (hidle : s.resultOwed = 0 ∧ s.releaseOwed = 0)
    (hcount : s.engine.activeTransactions = s.others + 1)
    (hlog : s.log = openingLog s.engine.mode s.spec.direction) :
    Live s (initPolicy s.engine.mode s.spec) := by
  have hpend := hsolo.pending_eq
  have hweigh : ∀ f,
      s.weigh f = (w.map f).sum + (tail.map f).sum + f (.finishEvent .rdmaCompleted) := fun f => by
    rw [State.weigh, hpend]
    simp only [List.map_append, List.sum_append, List.map_singleton, List.sum_singleton, Nat.add_assoc]
  have htailsum : (tail.map answers).sum = 1 ∧ (tail.map frees).sum = 1 ∧ ∀ f, f .submitRdma = 0 →
      (∀ g, f (.rdmaReleased g) = 0) → (∀ g st c, f (.rdmaCompleted g st c) = 0) →
      (tail.map f).sum = 0 := by
    rcases htail with rfl | ⟨e, rfl⟩
    · exact ⟨rfl, rfl, fun f h1 _ _ => by simp [h1]⟩
    · exact ⟨rfl, rfl, fun f _ h2 h3 => by simp [failRdmaSubmission, h2, h3]⟩
  have hwsum : (w.map backs).sum = w.length ∧ ∀ f, (∀ st, f (.backingCompleted st) = 0) →
      (w.map f).sum = 0 := by
    rcases hw with rfl | ⟨e, rfl⟩
    · exact ⟨rfl, fun _ _ => rfl⟩
    · exact ⟨rfl, fun f hf => by simp [hf]⟩
  have hinner : ∀ y ∈ pending s.threads, y.Inner s.spec.generation ∧ y.completes = 0 := by
    rw [hpend]
    intro y hy
    rcases hw with rfl | ⟨e, rfl⟩ <;> rcases htail with rfl | ⟨e', rfl⟩ <;>
      simp [failRdmaSubmission] at hy <;> rcases hy with rfl | rfl | rfl | rfl <;> exact ⟨by trivial, rfl⟩
  have hzero :
      ∀ f, (∀ st, f (.backingCompleted st) = 0) → f .submitRdma = 0 → (∀ g, f (.rdmaReleased g) = 0) →
      (∀ g st c, f (.rdmaCompleted g st c) = 0) → s.weigh f = f (.finishEvent .rdmaCompleted) := by
    intro f h1 h2 h3 h4
    rw [hweigh, hwsum.2 f h1, htailsum.2.2 f h2 h3 h4, Nat.zero_add]
  rw [initPolicy_eq] at ht ⊢
  rcases openingLog_cases s.engine.mode s.spec.direction with ⟨hL, hk⟩ | ⟨hL, hk⟩ <;> rw [hL] at hlog
  all_goals exact {
    transaction := ht
    kind := rfl
    generation := rfl
    policy := opening_ok _ _
    settling := rfl
    unreported := rfl
    threads := hsolo.forall_thread .done (by rw [← List.append_assoc]; exact .working _ _)
    inner := fun y hy => (hinner y hy).1
    backingClaim := rfl
    resultClaim := rfl
    events := hzero finishes (fun _ => rfl) rfl (fun _ => rfl) (fun _ _ _ => rfl)
    backing := by
      rw [hweigh, hwsum.1, htailsum.2.2 backs rfl (fun _ => rfl) (fun _ _ _ => rfl)]
      exact hb
    result := by
      rw [hweigh, hwsum.2 answers (fun _ => rfl), htailsum.1, hidle.1]
      rfl
    release := by
      rw [hweigh, hwsum.2 frees (fun _ => rfl), htailsum.2.1, hidle.2]
      rfl
    awake := .inl Nat.one_ne_zero
    completed := by
      rw [hlog, hzero completes (fun _ => rfl) rfl (fun _ => rfl) (fun _ _ _ => rfl)]
      rfl
    marked := by
      rw [hlog, hzero marks (fun _ => rfl) rfl (fun _ => rfl) (fun _ _ _ => rfl)]
      simp [localOnly, marks]
    degraded := by
      rw [hlog, hzero degrades (fun _ => rfl) rfl (fun _ => rfl) (fun _ _ _ => rfl)]
      rfl
    attempted := by
      rw [hlog, hzero submits (fun _ => rfl) rfl (fun _ => rfl) (fun _ _ _ => rfl),
        Transaction.attempts, hk]
      simp [submits]
    retries := Nat.zero_le _
    retried := fun hne => absurd rfl hne
    status := by
      rintro st (hst | hst)
      · simp [hlog] at hst
      · cases (hinner _ hst).2
    rdma := by rw [hlog]; rfl
    taken := (by rintro ⟨⟩)
    untried := fun _ _ => by rw [hlog]; rfl
    succeeded := fun hst => by simp [hlog] at hst
    exhausted := fun _ hf => by cases hf
    submitted := fun hc => by simp_all
    prepared := by simp [hlog]
    quiet := by simp [hlog, Event.closes]
    counted := hcount }

/-! ### The phases -/

/-- The log of a request that is completed and whose storage, if it got any, is released. -/
inductive Final (mode : EngineMode) (direction : Direction) : List Event → Prop
  | rejected (e : Errno) {l : List Event} (hl : l = [] ∨ l = [.allocate]) :
      Final mode direction (.complete (some e) :: l)
  | released {r} {l : List Event} (h : Concluded mode direction r l) :
      Final mode direction (.release :: l)

/-- Where a transaction is in its life. -/
inductive Phase (s : State) : Prop
  | start (h : Alone s [.start] 0 none [])
  | register (h : Alone s [.register] 0 none [])
  | allocate (h : Alone s [.allocate] 1 none [])
  | reject (e : Errno) (registered : Bool) {l : List Event} (hl : l = [] ∨ l = [.allocate])
      (h : Alone s (rejectStart e registered) registered.toNat none l)
  | prepare (h : Alone s [.prepare, .finishEvent .rdmaCompleted] 1
      (some (initPolicy s.engine.mode s.spec)) [.allocate])
  | claim {tail} (htail : RemoteTail s.spec tail)
      (h : Alone s (.submitClaimedBacking :: (tail ++ [.finishEvent .rdmaCompleted])) 1
        (some (initPolicy s.engine.mode s.spec)) [.prepare, .allocate])
  | copy {tail} (htail : RemoteTail s.spec tail)
      (hw : backedWrite (policyKind s.engine.mode s.spec.direction) = true)
      (h : Alone s (.submitBacking :: (tail ++ [.finishEvent .rdmaCompleted])) 1
        (some (initPolicy s.engine.mode s.spec)) [.prepare, .allocate])
  | live {t : Transaction} (h : Live s t)
  | release {t : Transaction} {r} {l : List Event} (hev : t.activeEvents = 0)
      (hclaims : t.backingClaim = false ∧ t.rdmaResultClaim = false ∧ t.rdmaTransportClaim = false)
      (hc : Concluded s.engine.mode s.spec.direction r l)
      (h : Alone s [.release, .unregister, .settle] 1 (some t) l)
  | unregister {l : List Event} (hf : Final s.engine.mode s.spec.direction l)
      (h : Alone s [.unregister, .settle] 1 none l)
  | settle {l : List Event} (hf : Final s.engine.mode s.spec.direction l)
      (h : Alone s [.settle] 0 none l)
  | settled {l : List Event} (hf : Final s.engine.mode s.spec.direction l)
      (h : Alone s [] 0 none (.settle :: l))

theorem Alone.others (h : Alone s thread k T L) {active others : ℕ} (hc : active = others + k) :
    Alone { s with engine := { s.engine with activeTransactions := active }, others := others }
      thread k T L :=
  { h with counted := hc }

theorem Phase.others (h : Phase s) {active others : ℕ}
    (hc : active + s.others = others + s.engine.activeTransactions) :
    Phase { s with engine := { s.engine with activeTransactions := active }, others := others } := by
  have hk : ∀ {th k T L}, Alone s th k T L → active = others + k := fun h => by
    have hcount := h.counted
    omega
  cases h with
  | start h => exact .start (h.others (hk h))
  | register h => exact .register (h.others (hk h))
  | allocate h => exact .allocate (h.others (hk h))
  | reject e registered hl h => exact .reject e registered hl (h.others (hk h))
  | prepare h => exact .prepare (h.others (hk h))
  | claim htail h => exact .claim htail (h.others (hk h))
  | copy htail hw h => exact .copy htail hw (h.others (hk h))
  | live h =>
    refine .live (h.others ?_)
    have hcount := h.counted
    omega
  | release hev hclaims hconc h => exact .release hev hclaims hconc (h.others (hk h))
  | unregister hf h => exact .unregister hf (h.others (hk h))
  | settle hf h => exact .settle hf (h.others (hk h))
  | settled hf h => exact .settled hf (h.others (hk h))

/-- **A step of an open transaction** keeps it open, or is the one that closes it. -/
theorem Live.step (h : Live s t) (hown : l.own = true) (hs : s.step l = some s') : Phase s' := by
  cases step_cases hs with
  | @runs i answer x rest new s₁ hi hp =>
    rcases h.perform (head_mem_pending hi) hp with ⟨t', hm⟩ | ⟨event, rfl, rfl, hev, hb, hr, hf, hc, rfl⟩
    · exact .live (h.next hi hm)
    · obtain ⟨rfl, hdone⟩ := h.settles hi hev hb hr hf
      obtain ⟨hlt, hget⟩ := List.getElem?_eq_some_iff.mp hi
      have hpend : pending s.threads = [.finishEvent event] := by
        have hsolo := solo_set hlt hdone [.finishEvent event]
        have hset : s.threads.set i [.finishEvent event] = s.threads := by
          rw [← hget, List.set_getElem_self]
        exact (hset ▸ hsolo).pending_eq
      have hconc := h.concluded hb hr fun y hy => ⟨event, by simpa [hpend] using hy⟩
      have hzero : ∀ {owed n : ℕ} {claim : Bool}, owed + n = claim.toNat → claim = false → owed = 0 := by
        rintro owed n _ hsum rfl
        exact Nat.eq_zero_of_add_eq_zero_right hsum
      refine .release (t := { t with activeEvents := 0, settling := true }) rfl ⟨hb, hr, hf⟩ hconc
        ⟨solo_set hlt hdone _, ?_, h.counted, rfl, rfl⟩
      exact ⟨hzero h.backing hb, hzero h.result hr, hzero h.release hf⟩
  | enters _ hx hb hr hf => exact .live (h.enter hx hb hr hf)
  | others => cases hown

theorem Alone.log_note (h : Alone s thread k T L) (e : Event) : (s.note e).log = e :: L :=
  congrArg (List.cons e) h.log

theorem Alone.others_le (h : Alone s thread k T L) : s.others ≤ s.engine.activeTransactions := by
  rw [h.counted]
  exact Nat.le_add_right _ _

theorem Phase.others_le (h : Phase s) : s.others ≤ s.engine.activeTransactions := by
  cases h with
  | live h =>
    rw [h.counted]
    exact Nat.le_succ _
  | start h | register h | allocate h | reject _ _ _ h | prepare h | claim _ h | copy _ _ h
  | release _ _ _ h
  | unregister _ h | settle _ h | settled _ h => exact h.others_le

/-! ### Each phase leads to the next -/

section Next

variable (hown : l.own = true) (hs : s.step l = some s')

include hown hs

theorem Alone.step_start (h : Alone s [.start] 0 none []) : Phase s' := by
  obtain ⟨x, rest, new, s₁, i, answer, he, hp, rfl, hsolo⟩ := h.step hown hs
  cases he
  rw [List.append_nil] at hsolo ⊢
  dsimp only [State.perform] at hp
  split at hp <;> cases hp
  · exact .reject .eshutdown false (.inl rfl) ⟨hsolo, h.idle, h.counted, h.transaction, h.log⟩
  · exact .register ⟨hsolo, h.idle, h.counted, h.transaction, h.log⟩

theorem Alone.step_register (h : Alone s [.register] 0 none []) : Phase s' := by
  obtain ⟨x, rest, new, s₁, i, answer, he, hp, rfl, hsolo⟩ := h.step hown hs
  cases he
  rw [List.append_nil] at hsolo ⊢
  dsimp only [State.perform] at hp
  have hcount : s.engine.activeTransactions + 1 = s.others + 1 := congrArg (· + 1) h.counted
  split at hp <;> cases hp
  · exact .reject .einval true (.inl rfl) ⟨hsolo, h.idle, hcount, h.transaction, h.log⟩
  · exact .allocate ⟨hsolo, h.idle, hcount, h.transaction, h.log⟩

theorem Alone.step_allocate (h : Alone s [.allocate] 1 none []) : Phase s' := by
  obtain ⟨x, rest, new, s₁, i, answer, he, hp, rfl, hsolo⟩ := h.step hown hs
  cases he
  rw [List.append_nil] at hsolo ⊢
  dsimp only [State.perform] at hp
  have hlog : (s.note .allocate).log = [.allocate] := h.log_note _
  split at hp
  · cases hp
    exact .reject _ true (.inr rfl) ⟨hsolo, h.idle, h.counted, h.transaction, hlog⟩
  · split at hp <;> cases hp
    · exact .reject .enomem true (.inr rfl) ⟨hsolo, h.idle, h.counted, h.transaction, hlog⟩
    · exact .prepare ⟨hsolo, h.idle, h.counted, rfl, hlog⟩

theorem Alone.step_reject {e : Errno} {registered : Bool} (hL : L = [] ∨ L = [.allocate])
    (h : Alone s (rejectStart e registered) registered.toNat none L) : Phase s' := by
  obtain ⟨x, rest, new, s₁, i, answer, he, hp, rfl, hsolo⟩ := h.step hown hs
  have hlog : (s.note (.complete (some e))).log = .complete (some e) :: L := h.log_note _
  cases registered <;> cases he <;> cases hp
  · exact .settle (.rejected e hL) ⟨hsolo, h.idle, h.counted, h.transaction, hlog⟩
  · exact .unregister (.rejected e hL) ⟨hsolo, h.idle, h.counted, h.transaction, hlog⟩

theorem Alone.step_prepare (h : Alone s [.prepare, .finishEvent .rdmaCompleted] 1
    (some (initPolicy s.engine.mode s.spec)) [.allocate]) : Phase s' := by
  obtain ⟨x, rest, new, s₁, i, answer, he, hp, rfl, hsolo⟩ := h.step hown hs
  cases he
  dsimp only [State.perform] at hp
  have hlog : (s.note .prepare).log = [.prepare, .allocate] := h.log_note _
  rw [h.transaction] at hp
  dsimp only at hp
  split at hp <;> cases hp
  · exact .claim (.inr ⟨_, rfl⟩) ⟨hsolo, h.idle, h.counted, h.transaction, hlog⟩
  · exact .claim (.inl rfl) ⟨hsolo, h.idle, h.counted, h.transaction, hlog⟩

theorem Alone.step_claim {tail : List Instr} (htail : RemoteTail s.spec tail)
    (h : Alone s (.submitClaimedBacking :: (tail ++ [.finishEvent .rdmaCompleted])) 1
      (some (initPolicy s.engine.mode s.spec)) [.prepare, .allocate]) : Phase s' := by
  obtain ⟨x, rest, new, s₁, i, answer, he, hp, rfl, hsolo⟩ := h.step hown hs
  cases he
  dsimp only [State.perform] at hp
  rw [h.transaction] at hp
  have hclaim : (initPolicy s.engine.mode s.spec).backingClaim =
      backedWrite (policyKind s.engine.mode s.spec.direction) := by rw [initPolicy_eq]
  dsimp only at hp
  rw [hclaim] at hp
  cases hp
  cases hw : backedWrite (policyKind s.engine.mode s.spec.direction)
  · -- a request without a Backing Store copy is open
    simp only [hw, Bool.false_eq_true, if_false] at hsolo ⊢
    refine .live (live_opening (w := []) htail hsolo h.transaction (.inl rfl) ?_ h.idle.2 h.counted ?_)
    · show s.backingOwed + 0 = _
      rw [h.idle.1, hw]
      rfl
    · show s.log = openingLog _ _
      rw [h.log, openingLog, hw]
      rfl
  · simp only [hw, if_true] at hsolo ⊢
    exact .copy htail hw ⟨hsolo, h.idle, h.counted, h.transaction, h.log⟩

theorem Alone.step_copy {tail : List Instr} (htail : RemoteTail s.spec tail)
    (hw : backedWrite (policyKind s.engine.mode s.spec.direction) = true)
    (h : Alone s (.submitBacking :: (tail ++ [.finishEvent .rdmaCompleted])) 1
      (some (initPolicy s.engine.mode s.spec)) [.prepare, .allocate]) : Phase s' := by
  obtain ⟨x, rest, new, s₁, i, answer, he, hp, rfl, hsolo⟩ := h.step hown hs
  cases he
  have hlog : (s.note .submitBacking).log = openingLog s.engine.mode s.spec.direction := by
    rw [openingLog, hw]
    exact h.log_note _
  dsimp only [State.perform] at hp
  rw [h.transaction] at hp
  dsimp only at hp
  split at hp <;> cases hp
  · refine .live (live_opening htail hsolo h.transaction (.inr ⟨_, rfl⟩) ?_ h.idle.2 h.counted hlog)
    show s.backingOwed + 1 = (backedWrite (policyKind s.engine.mode s.spec.direction)).toNat
    rw [h.idle.1, hw]
    rfl
  · refine .live (live_opening (w := []) htail hsolo h.transaction (.inl rfl) ?_ h.idle.2 h.counted hlog)
    show s.backingOwed + 1 = (backedWrite (policyKind s.engine.mode s.spec.direction)).toNat
    rw [h.idle.1, hw]
    rfl

theorem Alone.step_release {r : Option Errno} (hc : Concluded s.engine.mode s.spec.direction r L)
    (h : Alone s [.release, .unregister, .settle] 1 (some t) L) : Phase s' := by
  obtain ⟨x, rest, new, s₁, i, answer, he, hp, rfl, hsolo⟩ := h.step hown hs
  cases he
  dsimp only [State.perform] at hp
  rw [h.transaction] at hp
  cases hp
  exact .unregister (.released hc) ⟨hsolo, h.idle, h.counted, rfl, h.log_note _⟩

theorem Alone.step_unregister (hf : Final s.engine.mode s.spec.direction L)
    (h : Alone s [.unregister, .settle] 1 none L) : Phase s' := by
  obtain ⟨x, rest, new, s₁, i, answer, he, hp, rfl, hsolo⟩ := h.step hown hs
  cases he
  cases hp
  exact .settle hf ⟨hsolo, h.idle, congrArg (· - 1) h.counted, h.transaction, h.log⟩

theorem Alone.step_settle (hf : Final s.engine.mode s.spec.direction L)
    (h : Alone s [.settle] 0 none L) : Phase s' := by
  obtain ⟨x, rest, new, s₁, i, answer, he, hp, rfl, hsolo⟩ := h.step hown hs
  cases he
  cases hp
  exact .settled hf ⟨hsolo, h.idle, h.counted, h.transaction, h.log_note _⟩

theorem Phase.step_own (h : Phase s) : Phase s' := by
  cases h with
  | start h => exact h.step_start hown hs
  | register h => exact h.step_register hown hs
  | allocate h => exact h.step_allocate hown hs
  | reject e registered hl h => exact h.step_reject hown hs hl
  | prepare h => exact h.step_prepare hown hs
  | claim htail h => exact h.step_claim hown hs htail
  | copy htail hw h => exact h.step_copy hown hs htail hw
  | live h => exact h.step hown hs
  | release hev hclaims hc h => exact h.step_release hown hs hc
  | unregister hf h => exact h.step_unregister hown hs hf
  | settle hf h => exact h.step_settle hown hs hf
  | settled hf h =>
    obtain ⟨_, _, _, _, _, _, he, -⟩ := h.step hown hs
    cases he

end Next

/-- **Every step keeps to the phases.** -/
theorem Phase.step (h : Phase s) (hs : s.step l = some s') : Phase s' := by
  cases step_cases hs with
  | runs => exact h.step_own rfl hs
  | enters hown => exact h.step_own hown hs
  | others _ hactive => exact h.others (hactive h.others_le)

/-- **Every state of every run is in one of the phases.** -/
theorem phase_reachable (h : engineSystem.Reachable s) : Phase s := by
  refine System.Reach.invariant (S := engineSystem) (I := Phase) (fun s hs => ?_)
    (fun s l t _ hp _ ht => ?_) h
  · rw [show s = _ from hs]
    exact .start ⟨solo_singleton _, ⟨rfl, rfl, rfl⟩, rfl, rfl, rfl⟩
  · exact hp.step ht

/-! ### No thread is stuck -/

/-- The instruction works on the storage of the transaction. -/
def Instr.usesStorage : Instr → Bool
  | .start | .register | .allocate | .unregister | .settle | .reject _ => false
  | _ => true

theorem perform_isSome (h : x.usesStorage = true → s.transaction.isSome = true) (answer : Answer) :
    (s.perform x answer).isSome = true := by
  cases x with
  | start | register | allocate =>
    dsimp only [State.perform]
    repeat' split
    all_goals rfl
  | unregister | settle | reject => rfl
  | _ =>
    obtain ⟨t, ht⟩ := Option.isSome_iff_exists.mp (h rfl)
    simp only [State.perform, ht]
    repeat' split
    all_goals rfl

theorem Alone.enabled (h : Alone s (x :: rest) k T L) (hx : x.usesStorage = true → T.isSome = true)
    {y : Instr} {rest' : List Instr} (hi : s.threads[i]? = some (y :: rest')) :
    y.usesStorage = true → s.transaction.isSome = true := by
  obtain ⟨he, -⟩ := h.solo.run hi
  cases he
  rwa [h.transaction]

/-- **No thread uses storage that is gone.** -/
theorem Phase.enabled (h : Phase s) (hi : s.threads[i]? = some (x :: rest)) (answer : Answer) :
    (s.step (.run i answer)).isSome = true := by
  have hx : x.usesStorage = true → s.transaction.isSome = true := by
    cases h with
    | start h | register h | allocate h | unregister _ h | settle _ h
    | reject e registered _ h => exact h.enabled nofun hi
    | prepare h | claim _ h | copy _ _ h | release _ _ _ h => exact h.enabled (fun _ => rfl) hi
    | live h => exact fun _ => by rw [h.transaction]; rfl
    | settled _ h => cases (h.solo.run hi).1
  simp only [State.step, hi, Option.isSome_map, perform_isSome hx]

/-! ### The steps that are left -/

/-- More than all an instruction can turn into. -/
def Instr.effort : Instr → ℕ
  | .start => 60
  | .register => 59
  | .allocate => 58
  | .prepare => 44
  | .submitClaimedBacking => 12
  | .submitBacking => 11
  | .submitRdma => 31
  | .backingCompleted _ => 9
  | .rdmaCompleted _ _ _ => 21
  | .rdmaReleased _ => 7
  | .finishEvent _ => 5
  | _ => 1

/-- The effort of what the adapters owe, and of the retry the Backing Store path has left. -/
def State.credit (s : State) : ℕ :=
  10 * s.backingOwed + 22 * s.resultOwed + 8 * s.releaseOwed +
    match s.transaction with
    | none => 0
    | some t => 8 * (1 - t.backingRetries)

def State.effort (s : State) : ℕ := s.weigh Instr.effort + s.credit

theorem applyAction_effort (a : IoAction) (st : Option Errno) :
    ((applyAction a st).map Instr.effort).sum ≤ 3 + 11 * a.submitLocal.toNat := by
  have hone : ∀ b : Bool, b.toNat ≤ 1 := fun b => by cases b <;> simp
  rw [applyAction_sum Instr.effort (c := 1) fun _ => rfl]
  have hdeg := hone a.backingDegraded
  have hmark := hone a.markLocalOnly
  have hcomp := hone (a.completeSuccess || a.completeError)
  simp only [Instr.effort]
  omega

theorem reportIf_effort (report : Bool) (event : EngineEvent) :
    ((reportIf report event).map Instr.effort).sum ≤ 1 := by
  cases report
  · exact Nat.zero_le _
  · exact le_rfl

theorem applyAction_none (st : Option Errno) : applyAction {} st = [] := rfl

theorem backingCompleted_effort (t : Transaction) (mode : EngineMode) (spec : Spec)
    (status : Option Errno) :
    ((t.backingCompleted mode spec status).1.map Instr.effort).sum +
      8 * (1 - (t.backingCompleted mode spec status).2.backingRetries) + 1 ≤
        9 + 8 * (1 - t.backingRetries) := by
  unfold Transaction.backingCompleted
  dsimp only [Transaction.beginEvent, Transaction.noteInvariant]
  split
  · have hreport := reportIf_effort (!t.invariantReported) .backingCompleted
    simp only [applyAction_none, List.map_append, List.sum_append, List.map_singleton, List.sum_singleton,
      List.map_nil, List.sum_nil, Instr.effort]
    omega
  · split
    · rename_i hretry
      simp [Instr.effort, hretry.2.2.2]
    · have hact := fun st => applyAction_effort (t.policy.localComplete status).1 st
      rw [localComplete_submitLocal] at hact
      simp only [List.map_append, List.sum_append, List.map_singleton, List.sum_singleton, Instr.effort]
      have hle := hact (Transaction.completionStatus
        { t with
          activeEvents := t.activeEvents + 1, policy := (t.policy.localComplete status).2,
            backingClaim := false })
      rw [Bool.toNat_false] at hle
      omega

theorem handler_effort (report : Bool) (a : IoAction) (st : Option Errno) (event : EngineEvent) :
    ((reportIf report event ++ applyAction a st ++ [Instr.finishEvent event]).map
      Instr.effort).sum ≤ 20 := by
  have hreport := reportIf_effort report event
  have hact := applyAction_effort a st
  have hone : a.submitLocal.toNat ≤ 1 := by cases a.submitLocal <;> simp
  simp only [List.map_append, List.sum_append, List.map_singleton, List.sum_singleton, Instr.effort]
  omega

theorem rdmaCompleted_effort (t : Transaction) (spec : Spec) (g : ℕ) (status : Option Errno)
    (cancelled : Bool) :
    ((t.rdmaCompleted spec g status cancelled).1.map Instr.effort).sum ≤ 20 ∧
      (t.rdmaCompleted spec g status cancelled).2.backingRetries = t.backingRetries := by
  unfold Transaction.rdmaCompleted
  dsimp only [Transaction.beginEvent, Transaction.noteInvariant]
  split
  · exact ⟨handler_effort false {} status .rdmaCompleted, rfl⟩
  · split
    · exact ⟨handler_effort _ {} status .rdmaCompleted, rfl⟩
    · refine ⟨handler_effort _ _ _ .rdmaCompleted, ?_⟩
      split_ifs <;> rfl

theorem rdmaReleased_effort (t : Transaction) (spec : Spec) (g : ℕ) :
    ((t.rdmaReleased spec g).1.map Instr.effort).sum ≤ 6 ∧
      (t.rdmaReleased spec g).2.backingRetries = t.backingRetries := by
  unfold Transaction.rdmaReleased
  dsimp only [Transaction.beginEvent, Transaction.noteInvariant]
  split_ifs
  · exact ⟨by simp [Instr.effort], rfl⟩
  · have hreport := reportIf_effort (!t.invariantReported) .rdmaReleased
    refine ⟨?_, rfl⟩
    simp only [List.map_append, List.sum_append, List.map_singleton, List.sum_singleton, Instr.effort]
    omega
  · exact ⟨by simp [Instr.effort], rfl⟩

theorem finishEvent_effort (t : Transaction) (event : EngineEvent) :
    ((t.finishEvent event).1.map Instr.effort).sum ≤ 4 ∧
      (t.finishEvent event).2.backingRetries = t.backingRetries := by
  unfold Transaction.finishEvent
  dsimp only [Transaction.noteInvariant]
  split_ifs
  · exact ⟨(reportIf_effort _ _).trans (by decide), rfl⟩
  · exact ⟨by simp [Instr.effort], rfl⟩
  · exact ⟨by simp, rfl⟩

theorem rejectStart_effort (status : Errno) (registered : Bool) :
    ((rejectStart status registered).map Instr.effort).sum ≤ 3 := by
  cases registered <;> simp [rejectStart, Instr.effort]

/-- **An instruction costs effort.** -/
theorem perform_effort {answer : Answer} (h : s.perform x answer = some (new, s')) :
    (new.map Instr.effort).sum + s'.credit + 1 ≤ x.effort + s.credit := by
  unfold State.credit
  cases x with
  | start | register =>
    dsimp only [State.perform] at h
    split at h
    · cases h
      refine (Nat.add_le_add_right (Nat.add_le_add_right (rejectStart_effort _ _) _) 1).trans ?_
      simp only [Instr.effort]
      omega
    · cases h
      simp only [List.map_singleton, List.sum_singleton, Instr.effort]
      omega
  | allocate =>
    dsimp only [State.perform] at h
    split at h
    · rename_i e _
      cases h
      have hle := rejectStart_effort e true
      simp only [Instr.effort, State.note]
      omega
    · -- the storage comes with the retry
      have hle := rejectStart_effort .enomem true
      split at h <;> cases h <;> simp only [initPolicy_eq, List.map_cons, List.map_nil,
        List.sum_cons, List.sum_nil, Instr.effort, State.note] <;> omega
  | unregister | settle | reject =>
    cases h
    simp only [List.map_nil, List.sum_nil, Instr.effort, State.note]
    omega
  | submitClaimedBacking =>
    dsimp only [State.perform] at h
    cases ht : s.transaction with
    | none =>
      rw [ht] at h
      cases h
    | some t =>
      rw [ht] at h
      cases h
      rw [ht]
      cases t.backingClaim <;> simp only [if_true, Bool.false_eq_true, if_false, List.map_cons,
        List.map_nil, List.sum_cons, List.sum_nil, Instr.effort] <;> omega
  | prepare | submitBacking | submitRdma =>
    dsimp only [State.perform] at h
    cases ht : s.transaction with
    | none =>
      rw [ht] at h
      cases h
    | some t =>
      rw [ht] at h
      dsimp only at h
      split at h <;> cases h <;> simp only [failRdmaSubmission, List.map_cons, List.map_nil,
        List.sum_cons, List.sum_nil, Instr.effort, State.note, ht] <;> omega
  | backingCompleted status =>
    obtain ⟨t, ht, he⟩ := Option.map_eq_some_iff.mp h
    have hle := backingCompleted_effort t s.engine.mode s.spec status
    generalize t.backingCompleted s.engine.mode s.spec status = r at he hle
    cases he
    rw [ht]
    simp only [Instr.effort, State.note]
    omega
  | rdmaCompleted g status cancelled =>
    obtain ⟨t, ht, he⟩ := Option.map_eq_some_iff.mp h
    obtain ⟨hle, hret⟩ := rdmaCompleted_effort t s.spec g status cancelled
    generalize t.rdmaCompleted s.spec g status cancelled = r at he hle hret
    cases he
    rw [ht]
    simp only [Instr.effort, State.note, hret]
    omega
  | rdmaReleased g =>
    obtain ⟨t, ht, he⟩ := Option.map_eq_some_iff.mp h
    obtain ⟨hle, hret⟩ := rdmaReleased_effort t s.spec g
    generalize t.rdmaReleased s.spec g = r at he hle hret
    cases he
    rw [ht]
    simp only [Instr.effort, hret]
    omega
  | finishEvent event =>
    obtain ⟨t, ht, he⟩ := Option.map_eq_some_iff.mp h
    obtain ⟨hle, hret⟩ := finishEvent_effort t event
    generalize t.finishEvent event = r at he hle hret
    cases he
    rw [ht]
    simp only [Instr.effort, hret]
    omega
  | _ =>
    obtain ⟨t, ht, he⟩ := Option.map_eq_some_iff.mp h
    cases he
    simp only [ht, List.map_nil, List.sum_nil, Instr.effort, State.note]
    omega

/-- **Every step made for the transaction lowers its effort.** -/
theorem effort_step (h : s.step l = some s') : l.own.toNat + s'.effort ≤ s.effort := by
  cases step_cases h with
  | @runs i answer x rest new s₁ hi hp =>
    have hcost := perform_effort hp
    have hsum := sum_set hi Instr.effort new
    have hcredit : State.credit { s₁ with threads := s.threads.set i (new ++ rest) } = s₁.credit := rfl
    show 1 + (((pending (s.threads.set i (new ++ rest))).map Instr.effort).sum + _) ≤ _
    rw [hcredit, State.effort, State.weigh]
    omega
  | @enters l x b r f hown hx hb hr hf =>
    have hsum := sum_spawn s.threads x Instr.effort
    simp only [State.effort, State.weigh, State.enter, State.credit, hsum, hown, Bool.toNat_true]
    cases hx <;> simp only [Instr.effort, Instr.backs, Instr.answers, Instr.frees] at hb hr hf ⊢ <;> omega
  | others => exact Nat.le_of_eq (Nat.zero_add _)

end Io
end Infiniswap
