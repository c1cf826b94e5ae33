/-
# A Remote-Only device after its reservation

The reservation work that finds every chunk reserved sets the connection state
to CONNECTED, whatever the sessions are like; every later refresh sums the
sessions up again. As long as every planned session is up the two agree. A
Provider that failed before it held a chunk does not end the reservation, but
the next heartbeat of another session finds it failed, and the device is
degraded: every read and write is then refused.
-/
import Infiniswap.Control.Connectivity

namespace Infiniswap
namespace Control

open RemoteChunk ChunkModule Transition Threads

variable {f f' : Fabric} {i k : ℕ} {s s' : Session} {x : Instr} {next rest : List Instr} {answer : Answer}

/-! ### Where a request goes -/

/-- What `is_dispatch_backing_work` does with an accepted read or write. -/
inductive Dispatch
  | remote | refused | backing
  deriving DecidableEq

/-- `is_dispatch_backing_work`, with the check of `is_dispatch_remote`; `valid` is
`is_backing_range_valid`. -/
def Fabric.dispatch (f : Fabric) (read valid : Bool) : Dispatch :=
  if f.connectionState = .connected then .remote
  else if f.remoteOnly then .refused
  else if read && !valid then .refused
  else .backing

/-! ### The sessions stay up -/

theorem SessionMove.up_after (hro : f.remoteOnly = true) (hx : ∀ e, x = .fail i e → f.stopping = true)
    (h : SessionMove f i s x next s') (hup : s.up = true) : s'.up = true := by
  cases h with
  | fails _ _ _ hf =>
    rw [hx _ rfl] at hf
    cases hf
  | empty _ hb | beats _ _ hb | pulsesBacked _ _ hb =>
    rw [hro] at hb
    cases hb
  | spared | ends | breaks | unanswered => exact hup
  | shakes _ _ _ _ hc =>
    rw [← Session.up_core]
    rcases hc with hc | hc <;> rw [hc] <;> exact hup
  | ready _ _ hc =>
    rw [← Session.up_core, hc]
    rfl
  | late _ _ hc =>
    rw [← Session.up_core, hc]
    exact (Bool.and_eq_true_iff.mp hup).2
  | same _ hc | down _ _ hc | expires _ _ hc | lost hc | misses _ hc | grants _ _ hc | reserves _ hc
  | unreserves _ _ _ _ hc | rests _ hc | pulses _ _ hc | pulsesLost _ _ hc | stops hc
  | stopsControl hc | queues hc =>
    rw [← Session.up_core, hc]
    exact hup

theorem allUp_update {g : Fabric} (h : f.AllUp) (hi : f.sessions i = some s)
    (hg : g.sessions = Function.update f.sessions i (some s')) (hp : g.plannedCount = f.plannedCount)
    (hup : s.up = true → s'.up = true) : g.AllUp := by
  intro j hj
  have hj' := h j (hp ▸ hj)
  rw [healthyAt_update hg]
  split
  · rename_i hji
    rw [hji, Fabric.healthyAt, hi] at hj'
    exact hup hj'
  · exact hj'

/-- **All sessions stay up while none fails and the fabric does not stop.** -/
theorem Moves.allUp_after (hro : f.remoteOnly = true) (hx : ∀ i e, x = .fail i e → f.stopping = true)
    (hstop : x.stops = false) (hm : Moves f x next f') (h : f.AllUp) : f'.AllUp := by
  cases hm with
  | turn i s s' hi hm hw hq hf =>
    exact allUp_update h hi (by rw [hf]) (by rw [hf]) (hm.up_after hro (hx i))
  | marks i s hx hi hf =>
    refine allUp_update h hi (by rw [hf]) (by rw [hf, scheduleNextSession_frame]) fun hup => ?_
    split <;> exact hup
  | refreshes => rw [refresh_frame]; exact h
  | recovers => rw [scheduleNextSession_frame]; exact h
  | loses i =>
    unfold Fabric.markRemoteLost
    split <;> exact h
  | flags hx hq hf | asks hx hn hq hw hf | completes hl hs hm hp hw hf | unstarted _ _ _ _ _ hf =>
    rw [hf]; exact h
  | reservedSessions =>
    intro j hj
    have hj' := h j hj
    unfold Fabric.healthyAt at hj' ⊢
    dsimp only
    split
    · rwa [Option.any_map]
    · exact hj'
  | starts hs hn hnone =>
    have hup := h _ hn
    rw [Fabric.healthyAt, hnone] at hup
    cases hup
  | stopsNext | stoppedAll | destroys => cases hstop
  | _ => exact h

/-! ### The reservation -/

/-- The reservation is complete, or its completion is under way. -/
def Fabric.completed (f : Fabric) : Prop := f.reservationComplete = true ∨ .reserved ∈ pending f.threads

instance (f : Fabric) : Decidable f.completed :=
  inferInstanceAs (Decidable (f.reservationComplete = true ∨ .reserved ∈ pending f.threads))

theorem Instr.not_reserved_of_plain (y : Instr) (h : y.plain = true) : decide (y ≠ .reserved) = true := by
  cases y <;> first | rfl | cases h

theorem SessionMove.next_reserved (h : SessionMove f i s x next s') :
    next.all (fun y => decide (y ≠ .reserved)) = true := by
  cases h with
  | same _ _ hn | shakes _ _ _ _ _ hn | unreserves _ _ hn =>
    exact all_of_plain Instr.not_reserved_of_plain hn
  | fails assigned lost => cases lost <;> rfl
  | _ => rfl

theorem Moves.next_reserved (h : Moves f x next f') :
    x = .reservationWork ∧ next = [.reservedSessions, .reserved] ∨
      next.all (fun y => decide (y ≠ .reserved)) = true := by
  cases h with
  | turn i s s' hi hm => exact .inr hm.next_reserved
  | asks _ hn => exact .inr (all_of_plain Instr.not_reserved_of_plain hn)
  | completes => exact .inl ⟨rfl, rfl⟩
  | failsNext k => exact .inr (by split <;> rfl)
  | starts _ _ _ _ hnext => exact .inr (by rcases hnext with rfl | ⟨e, rfl⟩ <;> rfl)
  | stopsNext => exact .inr (by split <;> rfl)
  | _ => exact .inr rfl

theorem Moves.reservationComplete_before (h : Moves f x next f') (hc : f'.reservationComplete = true) :
    f.reservationComplete = true ∨ x = .reserved := by
  cases h with
  | turn i s s' hi hm hw hq hf => rw [hf] at hc; exact .inl hc
  | marks i s hx hi hf => rw [hf, scheduleNextSession_frame] at hc; exact .inl hc
  | refreshes => rw [refresh_frame] at hc; exact .inl hc
  | recovers => rw [scheduleNextSession_frame] at hc; exact .inl hc
  | loses i =>
    unfold Fabric.markRemoteLost at hc
    split at hc <;> exact .inl hc
  | flags hx hq hf | asks hx hn hq hw hf | completes hl hs hm hp hw hf
  | unstarted _ _ _ _ _ hf => rw [hf] at hc; exact .inl hc
  | reserved => exact .inr rfl
  | _ => exact .inl hc

variable {f₁ : Fabric}

theorem completed_before (hrun : Runs f k answer x rest next f₁)
    (h : Fabric.completed { f₁ with threads := f.threads.set k (next ++ rest) }) :
    f.completed ∨ x = .reservationWork ∧ next = [.reservedSessions, .reserved] := by
  rcases h with hc | hmem
  · rcases hrun.moves.reservationComplete_before hc with hc | rfl
    · exact .inl (.inl hc)
    · exact .inl (.inr (head_mem_pending hrun.head))
  · rcases hrun.moves.next_reserved with hnext | hnext
    · exact .inr hnext
    · by_contra hne
      rw [not_or] at hne
      -- neither what was pending nor what is put on has the instruction
      have hpending : ∀ y ∈ pending f.threads, y ≠ .reserved := fun y hy he => hne.1 (.inr (he ▸ hy))
      have hput : ∀ y ∈ next, y ≠ .reserved :=
        fun y hy => of_decide_eq_true (List.all_eq_true.mp hnext y hy)
      exact forall_pending_set hrun.head hpending hput _ hmem rfl

/-- The reservation work that completes the reservation found every chunk reserved, and connects the
device. -/
theorem reservationWork_complete
    (h : f.reservationWork answer = ([.reservedSessions, .reserved], f₁)) :
    (f.world.module.nextMapping answer.draws).1 = .complete ∧ f₁.connectionState = .connected := by
  unfold Fabric.reservationWork at h
  split at h
  · cases h
  dsimp only at h
  split at h
  · split at h <;> cases h
  · rename_i hres
    split at h
    · cases h
    · cases h
      exact ⟨hres, rfl⟩
  all_goals cases h

/-! ### Usable devices -/

instance (f : Fabric) : Decidable f.AllUp :=
  inferInstanceAs (Decidable (∀ i < f.plannedCount, f.healthyAt i = true))

/-- A session fails though the reservation is complete, or the reservation completes though a
planned session is not up. -/
def Fabric.disturbed (f : Fabric) (answer : Answer) : Instr → Bool
  | .fail _ _ => decide f.completed && !f.stopping
  | .reservationWork =>
    decide ((f.world.module.nextMapping answer.draws).1 = .complete) && !decide f.AllUp
  | _ => false

/-- Runs in which every planned session is up when the reservation completes, and none fails
afterwards. -/
def Undisturbed (f : Fabric) (x : Instr) (answer : Answer) : Prop := f.disturbed answer x = false

instance (f : Fabric) (x : Instr) (a : Answer) : Decidable (Undisturbed f x a) :=
  inferInstanceAs (Decidable (f.disturbed a x = false))

/-- A reserved Remote-Only device that is not lost and does not stop is connected, and its sessions
are up. -/
def Usable (f : Fabric) : Prop :=
  f.remoteOnly = true → f.stopping = false → f.remoteLost = false → f.completed →
    f.AllUp ∧ f.connectionState = .connected

theorem Moves.state_after (h : Moves f x next f') (hx : x ≠ .refresh) (hlost : f'.remoteLost = false) :
    f.remoteLost = false ∧ (f.connectionState = .connected → f'.connectionState = .connected) := by
  cases h with
  | turn _ _ _ _ _ _ _ hf | flags _ _ hf | asks _ _ _ _ hf | unstarted _ _ _ _ _ hf =>
    rw [hf] at hlost ⊢
    exact ⟨hlost, id⟩
  | marks i s hx hi hf => rw [hf, scheduleNextSession_frame] at hlost ⊢; exact ⟨hlost, id⟩
  | refreshes => exact absurd rfl hx
  | recovers => rw [scheduleNextSession_frame] at hlost ⊢; exact ⟨hlost, id⟩
  | loses i =>
    unfold Fabric.markRemoteLost at hlost ⊢
    split
    · rename_i hor
      rw [if_pos hor] at hlost
      exact ⟨hlost, id⟩
    · rename_i hor
      rw [if_neg hor] at hlost
      cases hlost
  | completes hl hs hm hp hw hf => rw [hf]; exact ⟨hl, fun _ => rfl⟩
  | _ => exact ⟨hlost, id⟩

theorem Usable.run (h : Usable f) (hc : Counted f) (hso : StopOnly f) (hu : Undisturbed f x answer)
    (hrun : Runs f k answer x rest next f₁) :
    Usable { f₁ with threads := f.threads.set k (next ++ rest) } := by
  intro hro hs hlost hcomp
  have hm := hrun.moves
  have hro' : f.remoteOnly = true := hm.remoteOnly_eq ▸ hro
  have hs' : f.stopping = false := hm.fixed.2.2 ▸ hs
  have hstop : x.stops = false := by
    by_contra hne
    have hst := hso x (head_mem_pending hrun.head) (by simpa using hne)
    rw [hs'] at hst
    cases hst
  rcases completed_before hrun hcomp with hold | ⟨rfl, rfl⟩
  · have hfail : ∀ i e, x = .fail i e → f.stopping = true := by
      rintro i e rfl
      simpa [Undisturbed, Fabric.disturbed, hold] using hu
    by_cases hx : x = .refresh
    · subst hx
      have hout := hrun.outcome
      cases hout
      rw [refresh_frame] at hlost
      obtain ⟨hup, -⟩ := h hro' hs' hlost hold
      have hafter := hm.allUp_after hro' hfail hstop hup
      exact ⟨hafter, refresh_connected hc hs' hlost hup⟩
    · obtain ⟨hl, hcon⟩ := hm.state_after hx hlost
      obtain ⟨hup, hconnected⟩ := h hro' hs' hl hold
      have hafter := hm.allUp_after hro' hfail hstop hup
      exact ⟨hafter, hcon hconnected⟩
  · have hout : some (f.reservationWork answer) = some (_, f₁) := hrun.outcome
    obtain ⟨hcomplete, hconnected⟩ := reservationWork_complete (Option.some.inj hout)
    have hfail : ∀ i e, Instr.reservationWork = .fail i e → f.stopping = true := fun i e h => by cases h
    have hup : f.AllUp := by simpa [Undisturbed, Fabric.disturbed, hcomplete] using hu
    have hafter := hm.allUp_after hro' hfail hstop hup
    exact ⟨hafter, hconnected⟩

theorem Usable.outside {l : Label} (h : Usable f) (ho : Outside f l f') : Usable f' := by
  -- a work that starts does not complete the reservation
  have hspawn {g : Fabric} {y : Instr} (hc : g.completed) (hg : g.threads = f.threads ++ [[y]])
      (hr : g.reservationComplete = f.reservationComplete) (hy : y ≠ .reserved) : f.completed := by
    rcases hc with hc | hmem
    · exact .inl (hr ▸ hc)
    · rw [hg, pending_spawn, List.mem_append, List.mem_singleton] at hmem
      exact .inr (hmem.resolve_right (Ne.symm hy))
  intro hro hs hlost hcomp
  cases ho with
  | starts => exact h hro hs hlost (hspawn hcomp rfl rfl nofun)
  | works x hx hf =>
    rw [hf] at hro hs hlost hcomp ⊢
    refine h hro hs hlost (hspawn hcomp (y := x) rfl rfl ?_)
    rcases hx with rfl | rfl <;> nofun
  | beats i s hi | downs i s hi =>
    obtain ⟨hup, hcon⟩ := h hro hs hlost (hspawn hcomp rfl rfl nofun)
    exact ⟨allUp_update hup hi rfl rfl id, hcon⟩
  | touches i s s' hi hc =>
    obtain ⟨hup, hcon⟩ := h hro hs hlost hcomp
    exact ⟨allUp_update hup hi rfl rfl (Session.up_of_core hc).mpr, hcon⟩
  | arrives i s s' x hi hc hx =>
    have hne : x ≠ .reserved := fun he => by rw [he] at hx; cases hx
    obtain ⟨hup, hcon⟩ := h hro hs hlost (hspawn hcomp rfl rfl hne)
    exact ⟨allUp_update hup hi rfl rfl (Session.up_of_core hc).mpr, hcon⟩
  | io c r hc hw hf =>
    rw [hf] at hro hs hlost hcomp ⊢
    exact h hro hs hlost hcomp
  | wants => exact h hro hs hlost hcomp
  | stops _ hf =>
    rw [hf] at hs
    cases hs

/-- **A reserved Remote-Only device stays usable.** From the completion of its reservation until it
is lost or stopped, the device is connected and no read or write is refused, if every planned
session is up when the reservation completes and none fails afterwards. -/
theorem reserved_stays_connected (hr : fabricSystem.Reach (Performs Undisturbed) f)
    (hro : f.mode = .remoteOnly) (hc : f.reservationComplete = true) (hs : f.stopping = false)
    (hl : f.remoteLost = false) :
    f.connectionState = .connected ∧ ∀ read valid, f.dispatch read valid = .remote := by
  have hu : Usable f := by
    refine fabric_invariant (I := Usable) (fun f h => ?_) (fun _ _ _ _ h ho => h.outside ho)
      (fun _ _ _ _ _ _ _ hr h hu hrun => h.run (counted_of_reach hr) (stopOnly_of_reach hr) hu hrun) hr
    obtain ⟨-, -, hf⟩ := h
    rw [hf]
    intro _ _ _ hc
    rcases hc with hc | hc
    · cases hc
    · simp [pending] at hc
  obtain ⟨-, hcon⟩ := hu (by simp [Fabric.remoteOnly, hro]) hs hl (.inl hc)
  exact ⟨hcon, fun read valid => if_pos hcon⟩

/-- The grant of the one chunk, which session 0 asked for under the given request. -/
def smallGrant (id : ℕ) : Message := .chunkGrant (reply id) [⟨⟨0, 0, 4096, 7⟩, .committed⟩]

/-- One Provider, whose chunk is reserved. -/
theorem reserved_connected_one :
    ∃ f, fabricSystem.Reach (Performs Undisturbed) f ∧ f.reservationComplete = true ∧
    f.connectionState = .connected ∧ ∀ read valid, f.dispatch read valid = .remote := by
  have hrun : (fabricSystem.execIf (Performs Undisturbed) (smallFabric .remoteOnly ["p"]) [runs 0 1,
    handshake 0 1 1, [.reservation], runs 5 5, [.sendDone 0 false, .message 0 (smallGrant 4)],
    runs 6 3, [.reservation], runs 7 3].flatten).any (fun f =>
        decide (f.mode = .remoteOnly ∧ f.reservationComplete = true ∧ f.stopping = false ∧
          f.remoteLost = false)) =
      true := by
    decide +kernel
  obtain ⟨f, hr, hro, hc, hs, hl⟩ :=
    System.exists_of_execIf (smallFabric_started (by decide) (by decide)) hrun
  exact ⟨f, hr, hc, reserved_stays_connected hr hro hc hs hl⟩

/-- Of two Providers the second fails before it holds a chunk. The first takes the reservation,
which completes and connects the device; the first heartbeat afterwards degrades it, and reads and
writes are refused. -/
theorem heartbeat_degrades_reserved : ∃ f, fabricSystem.Reachable f ∧ f.mode = .remoteOnly ∧ f.Quiet ∧
    f.reservationComplete = true ∧ f.stopping = false ∧ f.remoteLost = false ∧
    f.connectionState = .degraded ∧
    f.dispatch true true = .refused ∧ f.dispatch false true = .refused := by
  have hrun : (fabricSystem.exec (smallFabric .remoteOnly ["p", "q"])
      [runs 0 1, handshake 0 1 1, [.start], runs 5 1, [.fault 1 .eio], runs 6 4, [.work 1 .failure],
        runs 7 3,
        [.reservation], runs 8 5, [.sendDone 0 false, .message 0 (smallGrant 4)], runs 9 3,
          [.reservation], runs 10 3,
        [.work 0 .heartbeat], runs 11 2, [.sendDone 0 false, .message 0 (statusReply 5 1)],
        runs 12 5].flatten).any (fun f => decide
        (f.mode = .remoteOnly ∧ f.Quiet ∧ f.reservationComplete = true ∧ f.stopping = false ∧
          f.remoteLost = false ∧ f.connectionState = .degraded)) = true := by
    decide +kernel
  obtain ⟨f, hr, hro, hq, hc, hs, hl, hcon⟩ :=
    System.exists_of_exec (smallFabric_started (by decide) (by decide)) hrun
  have hrefused (read valid : Bool) : f.dispatch read valid = .refused := by
    simp [Fabric.dispatch, hcon, Fabric.remoteOnly, hro]
  exact ⟨f, hr, hro, hq, hc, hs, hl, hcon, hrefused _ _, hrefused _ _⟩

end Control
end Infiniswap
