/-
# Silent Consumers

Every connection of the Provider has a thread that watches it
(`monitor_connection_deadlines` of `rdma-common.c`). The handshake has five
seconds; afterwards the Consumer has to be heard before its failure deadline is
over, and its authentication must not run out (`infiniswap_consumer_liveness.c`).
The thread sleeps until the time it has computed or until it is signalled, and
holds `lifetime_lock` whenever it is awake, so what it does between two sleeps is
one step. Frames come from threads that read the clock before they take the lock.

`now` is what CLOCK_MONOTONIC shows. It never goes back, and stays below the 584
million years that `monotonic_now` can tell in milliseconds. A session is
authenticated once. What follows a disconnection is left out.

Once the handshake is complete and it watches, the monitor never sleeps past the
deadline, although its sleep was computed from an activity that may be old by
then, and it disconnects a Consumer when it wakes exactly if the Consumer has been
silent for too long or its time is over.
-/
import Mathlib.Algebra.Ring.Nat
import Infiniswap.Lib.Runs

namespace Infiniswap
namespace Provider

open Transition

/-! ### Time -/

/-- `struct timespec`. -/
structure Timespec where
  sec : ℕ
  nsec : ℕ
  nsec_lt : nsec < 1000000000
  deriving DecidableEq

namespace Timespec

variable (t : Timespec)

def ns : ℕ := t.sec * 1000000000 + t.nsec

def ms : ℕ := t.ns / 1000000

/-- `add_milliseconds`. -/
def addMilliseconds (milliseconds : ℕ) : Timespec :=
  let nsec := t.nsec + milliseconds % 1000 * 1000000
  if h : 1000000000 ≤ nsec then
    ⟨t.sec + milliseconds / 1000 + 1, nsec - 1000000000, by have := t.nsec_lt; omega⟩
  else ⟨t.sec + milliseconds / 1000, nsec, by omega⟩

theorem ns_addMilliseconds (milliseconds : ℕ) :
    (t.addMilliseconds milliseconds).ns = t.ns + milliseconds * 1000000 := by
  unfold addMilliseconds
  dsimp only
  split <;> simp only [ns] <;> omega

end Timespec

/-- `monotonic_now`, from what `clock_gettime` tells. -/
def monotonicNow : Option Timespec → Option ℕ
  | some now =>
    if now.sec > (2 ^ 64 - 1) / 1000 then none else some ((now.sec * 1000 + now.nsec / 1000000) % 2 ^ 64)
  | none => none

/-- A time that can be told in milliseconds. -/
def Timespec.Telling (t : Timespec) : Prop := t.sec < (2 ^ 64 - 1) / 1000

instance (t : Timespec) : Decidable t.Telling := inferInstanceAs (Decidable (t.sec < _))

theorem monotonicNow_eq {t : Timespec} (h : t.Telling) : monotonicNow (some t) = some t.ms := by
  unfold Timespec.Telling at h
  have hlt := t.nsec_lt
  unfold monotonicNow
  dsimp only
  rw [if_neg (by omega)]
  unfold Timespec.ms Timespec.ns
  congr 1
  omega

/-- What was read before shows no later time. -/
theorem monotonicNow_le {t now : Timespec} {nowMs : ℕ} (hle : t.ns ≤ now.ns)
    (h : monotonicNow (some t) = some nowMs) : nowMs ≤ now.ms := by
  obtain ⟨-, h⟩ := Option.ite_none_left_eq_some.mp h
  unfold Timespec.ns at hle
  unfold Timespec.ms Timespec.ns
  rw [← Option.some.inj h]
  omega

/-! ### Liveness -/

/-- `struct is_consumer_liveness`. -/
structure Liveness where
  lastActivityMonotonicMs : ℕ := 0
  authenticatedUntilUnix : UInt64 := 0
  failureDeadlineMs : UInt32 := 0

inductive LivenessResult
  | active (waitMs : ℕ)
  | silent
  | authExpired

namespace Liveness

variable (l : Liveness)

/-- `is_consumer_liveness_refresh`. -/
def refresh (nowMs : ℕ) : Liveness :=
  if nowMs > l.lastActivityMonotonicMs then { l with lastActivityMonotonicMs := nowMs } else l

/-- `is_consumer_liveness_check`. -/
def check (nowMs nowUnix : ℕ) : LivenessResult :=
  if l.authenticatedUntilUnix ≠ 0 ∧ nowUnix ≥ l.authenticatedUntilUnix.toNat then .authExpired
  else if nowMs < l.lastActivityMonotonicMs then .silent
  else if nowMs - l.lastActivityMonotonicMs ≥ l.failureDeadlineMs.toNat then .silent
  else
    let remaining := l.failureDeadlineMs.toNat - (nowMs - l.lastActivityMonotonicMs)
    if l.authenticatedUntilUnix ≠ 0 then
      let seconds := l.authenticatedUntilUnix.toNat - nowUnix
      let auth := if seconds > (2 ^ 64 - 1) / 1000 then 2 ^ 64 - 1 else seconds * 1000
      .active (if auth < remaining then auth else remaining)
    else .active remaining

/-- When the Consumer has to be heard again. -/
def dueMs : ℕ := l.lastActivityMonotonicMs + l.failureDeadlineMs.toNat

/-- The Consumer was not heard in time, or its authentication has run out. -/
def Over (nowMs nowUnix : ℕ) : Prop :=
  l.authenticatedUntilUnix ≠ 0 ∧ nowUnix ≥ l.authenticatedUntilUnix.toNat ∨ nowMs ≥ l.dueMs

/-- A Consumer that is heard gets more time. -/
theorem refresh_spec {nowMs bound : ℕ} (h : l.lastActivityMonotonicMs ≤ bound) (hle : nowMs ≤ bound) :
    (l.refresh nowMs).lastActivityMonotonicMs ≤ bound ∧ l.dueMs ≤ (l.refresh nowMs).dueMs := by
  unfold refresh
  split_ifs with hlater
  · exact ⟨hle, Nat.add_le_add_right (Nat.le_of_lt hlater) _⟩
  · exact ⟨h, Nat.le_refl _⟩

/-- The check finds out, or it says for how long the Consumer need not be looked after. -/
theorem check_cases {nowMs : ℕ} (h : l.lastActivityMonotonicMs ≤ nowMs) (nowUnix : ℕ) :
    l.Over nowMs nowUnix ∧ (l.check nowMs nowUnix = .silent ∨ l.check nowMs nowUnix = .authExpired) ∨
    ¬l.Over nowMs nowUnix ∧ ∃ wait, l.check nowMs nowUnix = .active wait ∧ 0 < wait ∧
      nowMs + wait ≤ l.dueMs := by
  unfold Over check dueMs
  by_cases hauth : l.authenticatedUntilUnix ≠ 0 ∧ nowUnix ≥ l.authenticatedUntilUnix.toNat
  · rw [if_pos hauth]
    exact .inl ⟨.inl hauth, .inr rfl⟩
  rw [if_neg hauth, if_neg (by omega)]
  by_cases hsilent : nowMs - l.lastActivityMonotonicMs ≥ l.failureDeadlineMs.toNat
  · rw [if_pos hsilent]
    exact .inl ⟨.inr (by omega), .inl rfl⟩
  rw [if_neg hsilent]
  refine .inr ⟨fun hor => hor.elim hauth (by omega), ?_⟩
  dsimp only
  by_cases huntil : l.authenticatedUntilUnix ≠ 0
  · have hfuture : ¬nowUnix ≥ l.authenticatedUntilUnix.toNat := fun hpast => hauth ⟨huntil, hpast⟩
    rw [if_pos huntil]
    split_ifs <;> exact ⟨_, rfl, by omega, by omega⟩
  · rw [if_neg huntil]
    exact ⟨_, rfl, by omega, by omega⟩

end Liveness

/-! ### The monitor -/

/-- Where the thread is: it sleeps until `deadline`, for the handshake or after it, it disconnects,
or it just ends. -/
inductive Monitor
  | handshake (deadline : Timespec)
  | watching (deadline : Timespec)
  | gone (expired : Bool)
  | ended
  deriving DecidableEq

/-- What `pthread_cond_timedwait` returns: 0, ETIMEDOUT or another error. -/
inductive WaitResult
  | signalled
  | timedOut
  | failed
  deriving DecidableEq

/-- The fields of `struct connection` that the monitor reads, the clock, and how many expiries it
has counted. -/
structure Watched where
  now : Timespec
  monitor : Monitor
  closing : Bool := false
  handshakeComplete : Bool := false
  liveness : Liveness := {}
  deadlineExpiries : ℕ := 0

namespace Monitor

def deadline? : Monitor → Option Timespec
  | handshake d | watching d => some d
  | gone _ | ended => none

def expired : Monitor → Bool
  | gone e => e
  | _ => false

end Monitor

namespace Watched

variable (w : Watched)

/-- `clock_gettime`, which may fail. -/
def clock (readable : Bool) : Option Timespec := if readable then some w.now else none

def expire : Watched := { w with monitor := .gone true, deadlineExpiries := w.deadlineExpiries + 1 }

/-- One round of the second loop of `monitor_connection_deadlines`, up to the next sleep. -/
def look (nowUnix : Option ℕ) (clock : Option Timespec) : Watched :=
  match nowUnix, clock, monotonicNow clock with
  | some nowUnix, some deadline, some nowMs =>
    match w.liveness.check nowMs nowUnix with
    | .active waitMs => { w with monitor := .watching (deadline.addMilliseconds (waitMs % 2 ^ 32)) }
    | .silent | .authExpired => w.expire
  | _, _, _ => { w with monitor := .gone false }

/-- What `monitor_connection_deadlines` does when its sleep is over. -/
def wake (result : WaitResult) (nowUnix : Option ℕ) (clock : Option Timespec) : Watched :=
  match w.monitor with
  | .handshake _ =>
    if w.closing then { w with monitor := .ended }
    else if w.handshakeComplete then w.look nowUnix clock
    else if result = .signalled then w
    else w.expire
  | .watching _ =>
    if result = .failed then { w with monitor := .gone false }
    else if w.closing then { w with monitor := .ended }
    else w.look nowUnix clock
  | .gone _ | .ended => w

/-- The connection when its monitor starts. -/
def begin (now : Timespec) (readable : Bool) : Watched :=
  { now, monitor := if readable then .handshake (now.addMilliseconds 5000) else .gone false }

end Watched

/-- A thread that started or refreshed the liveness read the clock at `clock`. -/
inductive WatchLabel
  | tick (now : Timespec)
  | started (clock : Timespec) (failureDeadlineMs : UInt32) (authenticatedUntilUnix : UInt64)
  | heard (clock : Timespec)
  | close
  | wake (result : WaitResult) (nowUnix : Option ℕ) (readable : Bool)

/-- The monitor, the threads that handle frames, and time. -/
def watchSystem : System Watched WatchLabel where
  init w := ∃ now readable, now.Telling ∧ w = .begin now readable
  step w
    | .tick now => if w.now.ns ≤ now.ns ∧ now.Telling then some { w with now } else none
    -- `start_connection_liveness`
    | .started clock failureDeadlineMs authenticatedUntilUnix =>
      if w.closing = false ∧ w.handshakeComplete = false ∧ clock.ns ≤ w.now.ns then
        (monotonicNow (some clock)).map fun nowMs =>
          { w with
            liveness := ⟨nowMs, authenticatedUntilUnix, failureDeadlineMs⟩, handshakeComplete := true }
      else none
    -- `refresh_connection_liveness`
    | .heard clock =>
      if w.closing = false ∧ w.handshakeComplete ∧ clock.ns ≤ w.now.ns then
        (monotonicNow (some clock)).map fun nowMs => { w with liveness := w.liveness.refresh nowMs }
      else none
    -- `prepare_connection_close`
    | .close => some { w with closing := true }
    | .wake result nowUnix readable =>
      if result = .timedOut ∧ ∃ d ∈ w.monitor.deadline?, w.now.ns < d.ns then none
      else some (w.wake result nowUnix (w.clock readable))

/-! ### Every run -/

/-- Nobody was heard in the future, the monitor sleeps at most until the Consumer is due, and its
expiries are counted. -/
structure Watched.Timely (w : Watched) : Prop where
  telling : w.now.Telling
  heard : w.handshakeComplete = true → w.liveness.lastActivityMonotonicMs ≤ w.now.ms
  sleeps : ∀ d, w.monitor = .watching d → w.handshakeComplete = true ∧
    d.ns < (w.liveness.dueMs + 1) * 1000000
  counted : w.deadlineExpiries = w.monitor.expired.toNat

namespace Watched

variable {w : Watched}

/-- A round of the monitor while the clock can be read: it disconnects, or sleeps until a later time. -/
theorem look_cases (hnow : w.now.Telling) (hheard : w.liveness.lastActivityMonotonicMs ≤ w.now.ms)
    (nowUnix : ℕ) :
    w.liveness.Over w.now.ms nowUnix ∧ w.look (some nowUnix) (some w.now) = w.expire ∨
    ¬w.liveness.Over w.now.ms nowUnix ∧
      ∃ d, w.look (some nowUnix) (some w.now) = { w with monitor := .watching d } ∧
      w.now.ns < d.ns ∧ d.ns < (w.liveness.dueMs + 1) * 1000000 := by
  unfold look
  rw [monotonicNow_eq hnow]
  dsimp only
  rcases w.liveness.check_cases hheard nowUnix with ⟨hover, hc | hc⟩ | ⟨hover, wait, hc, hpos, hwait⟩
  · rw [hc]
    exact .inl ⟨hover, rfl⟩
  · rw [hc]
    exact .inl ⟨hover, rfl⟩
  · have hfd : w.liveness.dueMs < w.liveness.lastActivityMonotonicMs + 2 ^ 32 :=
      Nat.add_lt_add_left w.liveness.failureDeadlineMs.toNat_lt _
    -- a wait is no longer than the deadline of the Consumer, so the conversion to `uint32_t` keeps it
    have hmod : wait % 2 ^ 32 = wait := Nat.mod_eq_of_lt (by omega)
    have hms : w.now.ns < (w.now.ms + 1) * 1000000 := by
      unfold Timespec.ms
      omega
    rw [hc]
    refine .inr ⟨hover, _, rfl, ?_, ?_⟩ <;> rw [hmod, Timespec.ns_addMilliseconds] <;> omega

theorem Timely.expire (h : w.Timely) (hm : w.monitor.expired = false) : w.expire.Timely := by
  refine ⟨h.telling, h.heard, fun d hd => (by cases hd), ?_⟩
  have hcount : w.deadlineExpiries = 0 := h.counted.trans (congrArg Bool.toNat hm)
  simp [Watched.expire, Monitor.expired, hcount]

/-- Leaving the loop without an expiry. -/
theorem Timely.leave (h : w.Timely) {m : Monitor} (hw : ∀ d, m ≠ .watching d)
    (hm : w.monitor.expired = m.expired) : Timely { w with monitor := m } :=
  ⟨h.telling, h.heard, fun d hd => absurd hd (hw d), h.counted.trans (congrArg Bool.toNat hm)⟩

theorem Timely.look (h : w.Timely) (hm : w.monitor.expired = false) (hdone : w.handshakeComplete = true)
    (nowUnix : Option ℕ) (readable : Bool) : (w.look nowUnix (w.clock readable)).Timely := by
  have hleave : Timely { w with monitor := .gone false } := h.leave (fun _ hd => by cases hd) hm
  cases nowUnix with
  | none => exact hleave
  | some nowUnix =>
    cases readable with
    | false => exact hleave
    | true =>
      show (w.look (some nowUnix) (some w.now)).Timely
      rcases look_cases h.telling (h.heard hdone) nowUnix with ⟨-, he⟩ | ⟨-, d, he, -, hd⟩
      · exact he ▸ h.expire hm
      · rw [he]
        refine ⟨h.telling, h.heard, ?_, h.counted.trans (congrArg Bool.toNat hm)⟩
        rintro _ ⟨⟩
        exact ⟨hdone, hd⟩

theorem Timely.wake (h : w.Timely) (result : WaitResult) (nowUnix : Option ℕ) (readable : Bool) :
    (w.wake result nowUnix (w.clock readable)).Timely := by
  unfold Watched.wake
  split
  case h_1 d hm =>
    have hexp : w.monitor.expired = false := by rw [hm]; rfl
    split_ifs with hclosing hdone hsig
    · exact h.leave (fun _ hd => by cases hd) hexp
    · exact h.look hexp hdone nowUnix readable
    · exact h
    · exact h.expire hexp
  case h_2 d hm =>
    have hexp : w.monitor.expired = false := by rw [hm]; rfl
    split_ifs with hfailed hclosing
    · exact h.leave (fun _ hd => by cases hd) hexp
    · exact h.leave (fun _ hd => by cases hd) hexp
    · exact h.look hexp (h.sleeps d hm).1 nowUnix readable
  · exact h
  · exact h

theorem Timely.step {w' : Watched} {l : WatchLabel} (h : w.Timely) (hs : watchSystem.step w l = some w') :
    w'.Timely := by
  cases l with
  | tick now =>
    obtain ⟨⟨hle, hnow⟩, ⟨⟩⟩ := Option.ite_none_right_eq_some.mp hs
    exact ⟨hnow, fun hdone => Nat.le_trans (h.heard hdone) (Nat.div_le_div_right hle), h.sleeps,
      h.counted⟩
  | started clock failureDeadlineMs authenticatedUntilUnix =>
    obtain ⟨⟨-, hnew, hle⟩, hs⟩ := Option.ite_none_right_eq_some.mp hs
    obtain ⟨nowMs, hms, rfl⟩ := Option.map_eq_some_iff.mp hs
    refine ⟨h.telling, fun _ => monotonicNow_le hle hms, fun d hd => ?_, h.counted⟩
    -- the monitor still waits for the handshake
    exact absurd (h.sleeps d hd).1 (by simp [hnew])
  | heard clock =>
    obtain ⟨⟨-, hdone, hle⟩, hs⟩ := Option.ite_none_right_eq_some.mp hs
    obtain ⟨nowMs, hms, rfl⟩ := Option.map_eq_some_iff.mp hs
    obtain ⟨hheard, hdue⟩ := w.liveness.refresh_spec (h.heard hdone) (monotonicNow_le hle hms)
    refine ⟨h.telling, fun _ => hheard,
      fun d hd => ⟨hdone, Nat.lt_of_lt_of_le (h.sleeps d hd).2 ?_⟩, h.counted⟩
    exact Nat.mul_le_mul_right _ (Nat.succ_le_succ hdue)
  | close =>
    cases hs
    exact ⟨h.telling, h.heard, h.sleeps, h.counted⟩
  | wake result nowUnix readable =>
    obtain ⟨-, ⟨⟩⟩ := Option.ite_none_left_eq_some.mp hs
    exact h.wake result nowUnix readable

theorem timely_of_reachable (h : watchSystem.Reachable w) : w.Timely := by
  refine System.Reach.invariant (I := Timely) ?_ (fun _ _ _ _ hw _ hs => hw.step hs) h
  rintro _ ⟨now, readable, hnow, rfl⟩
  cases readable <;> exact ⟨hnow, fun hdone => (by cases hdone), fun _ hd => (by cases hd), rfl⟩

end Watched

/-- **A silent Consumer is noticed in time.** In every run the monitor has counted one expiry if it
disconnects for one, and none otherwise. Once it watches, the handshake is complete and it never
sleeps past the millisecond in which the Consumer is due, reckoned from its last activity. When it
wakes after the handshake, from the sleep it began before it or from a later one, on a connection
that is not closing and with clocks it can read, it disconnects a Consumer whose time is over, and
otherwise sleeps until a later time. -/
theorem silence_noticed {w : Watched} (h : watchSystem.Reachable w) :
    w.deadlineExpiries = w.monitor.expired.toNat ∧
    (∀ d, w.monitor = .watching d → w.handshakeComplete = true ∧
      d.ns < (w.liveness.dueMs + 1) * 1000000) ∧
    (w.monitor.deadline?.isSome → w.handshakeComplete = true → w.closing = false →
      ∀ result ≠ .failed, ∀ nowUnix,
      (w.liveness.Over w.now.ms nowUnix →
        (w.wake result (some nowUnix) (some w.now)).monitor = .gone true) ∧
      (¬w.liveness.Over w.now.ms nowUnix →
        ∃ d, (w.wake result (some nowUnix) (some w.now)).monitor = .watching d ∧ w.now.ns < d.ns)) := by
  have ht := Watched.timely_of_reachable h
  refine ⟨ht.counted, ht.sleeps, fun hsleeps hdone hopen result hresult nowUnix => ?_⟩
  have hwake : w.wake result (some nowUnix) (some w.now) = w.look (some nowUnix) (some w.now) := by
    unfold Watched.wake
    cases hm : w.monitor with
    | handshake d => simp [hopen, hdone]
    | watching d => simp [hopen, hresult]
    | gone expired | ended => simp [hm, Monitor.deadline?] at hsleeps
  rw [hwake]
  rcases Watched.look_cases ht.telling (ht.heard hdone) nowUnix with ⟨hover, he⟩ |
    ⟨hover, d, he, hlater, -⟩
  · exact ⟨fun _ => by rw [he]; rfl, fun hn => absurd hover hn⟩
  · exact ⟨fun ho => absurd ho hover, fun _ => ⟨d, by rw [he], hlater⟩⟩

/-- The handshake of a Consumer with a deadline of thirty seconds, which is then heard once. -/
def sampleWatch : List WatchLabel :=
  [.started ⟨5, 0, by decide⟩ 30000 0, .tick ⟨10, 0, by decide⟩, .heard ⟨10, 0, by decide⟩]

/-- The monitor begins to watch when it wakes after the handshake, and disconnects thirty seconds
later. -/
theorem silence_noticed_silent : ∃ w w', watchSystem.Reachable w ∧ watchSystem.Reachable w' ∧
    w.monitor = .handshake ⟨10, 0, by decide⟩ ∧ w.now.sec = 10 ∧ w'.now.sec = 40 ∧
    (∃ d, (w.wake .signalled (some 0) (some w.now)).monitor = .watching d) ∧
    (w'.wake .timedOut (some 0) (some w'.now)).monitor = .gone true := by
  have hrun :
      (watchSystem.exec (.begin ⟨5, 0, by decide⟩ true) sampleWatch).any (fun w => decide
        (w.closing = false ∧ w.handshakeComplete = true ∧ w.now.sec = 10 ∧
          w.monitor = .handshake ⟨10, 0, by decide⟩ ∧ w.liveness.authenticatedUntilUnix = 0 ∧
          w.now.ms < w.liveness.dueMs)) = true ∧
      (watchSystem.exec (.begin ⟨5, 0, by decide⟩ true)
        (sampleWatch ++ [.wake .signalled (some 0) true, .tick ⟨40, 0, by decide⟩])).any (fun w => decide
          (w.closing = false ∧ w.handshakeComplete = true ∧ w.now.sec = 40 ∧
            w.monitor = .watching ⟨40, 0, by decide⟩ ∧ w.now.ms ≥ w.liveness.dueMs)) = true := by
    decide +kernel
  have hinit : watchSystem.init (.begin ⟨5, 0, by decide⟩ true) := ⟨_, _, by decide, rfl⟩
  obtain ⟨w, hr, hopen, hdone, hnow, hm, hauth, hdue⟩ := System.exists_of_exec hinit hrun.1
  obtain ⟨w', hr', hopen', hdone', hnow', hm', hover⟩ := System.exists_of_exec hinit hrun.2
  have hwatch := (silence_noticed hr).2.2 (by rw [hm]; rfl) hdone hopen .signalled (by decide) 0
  have hgone := (silence_noticed hr').2.2 (by rw [hm']; rfl) hdone' hopen' .timedOut (by decide) 0
  obtain ⟨d, hd, -⟩ := hwatch.2 fun ho => ho.elim (fun h => h.1 hauth) (Nat.not_le_of_lt hdue)
  exact ⟨w, w', hr, hr', hm, hnow, hnow', ⟨d, hd⟩, hgone.1 (.inr hover)⟩

end Provider
end Infiniswap
