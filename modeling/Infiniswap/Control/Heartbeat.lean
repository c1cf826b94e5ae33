/-
# The heartbeat chain

A session that is READY, or waits for a chunk or for the answer to a heartbeat,
has a heartbeat scheduled or a heartbeat that is not answered yet; otherwise some
handler is about to schedule one or to fail the session. The one handler that
breaks the chain is the heartbeat work of a Remote-Only session that fires before
the reservation is complete: it returns, and nothing schedules the next one.
-/
import Infiniswap.Control.Connectivity

namespace Infiniswap
namespace Control

open RemoteChunk ChunkModule Transition Threads

variable {f f' : Fabric} {i k : ℕ} {s s' : Session} {x : Instr} {next rest : List Instr} {answer : Answer}

namespace Session

/-- A session that should be heard of from time to time. -/
def due (s : Session) : Bool :=
  !s.stopping && !s.failureStarted && s.negotiatedStatus &&
    (s.controlState = .ready || s.controlState = .waitReservation || s.controlState = .waitHeartbeat)

/-- A heartbeat is scheduled, or its answer is awaited. -/
def beating (s : Session) : Bool := s.heartbeatQueued || s.controlState = .waitHeartbeat

theorem due_core (s : Session) : s.core.due = s.due := rfl

theorem beating_core (s : Session) : s.core.beating = s.beating := rfl

theorem due_of_handshake (h : s.controlState.handshake = true) : s.due = false := by
  unfold due
  cases hc : s.controlState <;> simp_all [ControlState.handshake]

end Session

/-- An instruction after which session `i` has a heartbeat scheduled, or has failed. -/
def Instr.mends (i : ℕ) : Instr → Bool
  | .markedReady j | .statusReady j | .fail j _ | .heartbeatWork j => j = i
  | .reservationFailed _ => true
  | .failSessions k _ => k ≤ i
  | _ => false

/-- The heartbeat work of a READY Remote-Only session before the reservation is complete. -/
def Fabric.early (f : Fabric) : Instr → Bool
  | .heartbeatWork i =>
    f.remoteOnly && (f.sessions i).any fun s => s.controlState = .ready && !s.reservationComplete
  | _ => false

/-! ### One session -/

/-- What is left to show for a session that stays due: a heartbeat, a remedy, or nothing new. -/
def Carried (i : ℕ) (x : Instr) (next : List Instr) (s s' : Session) : Prop :=
  s'.beating = true ∨ (∃ y ∈ next, y.mends i = true) ∨
    x.mends i = false ∧ s.due = true ∧ (s.beating = true → s'.beating = true)

theorem Instr.mends_of_idle (h : x.idle = true) (i : ℕ) : x.mends i = false := by
  cases x <;> first | rfl | cases h

/-- **No handler but the early one breaks the chain.** -/
theorem SessionMove.due_after (hi : f.sessions i = some s) (hf : f.stopping = false)
    (hn : f.early x = false) (h : SessionMove f i s x next s') (hdue : s'.due = true) :
    Carried i x next s s' := by
  have hmem {e : Errno} : ∃ y ∈ Fabric.rejected i e, y.mends i = true :=
    ⟨.fail i e, by simp [Fabric.rejected], by simp [Instr.mends]⟩
  cases h with
  | same hx hc =>
    rw [← Session.due_core, hc] at hdue
    refine .inr (.inr ⟨Instr.mends_of_idle hx i, hdue, fun hb => ?_⟩)
    rw [← Session.beating_core, hc]
    exact hb
  | queues hc =>
    rw [← Session.due_core, hc] at hdue
    refine .inr (.inr ⟨rfl, hdue, fun hb => ?_⟩)
    rw [← Session.beating_core, hc]
    exact hb
  | shakes state hx hs hst hc =>
    have hshake : s'.core.controlState.handshake = true := by
      rcases hc with hc | hc <;> rw [hc] <;> exact hst
    rw [← Session.due_core, Session.due_of_handshake hshake] at hdue
    cases hdue
  | spared hs =>
    rcases hs with hs | hs
    · simp [Session.due, hs] at hdue
    · rw [hs] at hf
      cases hf
  | fails _ _ _ _ hc | lost hc | stops hc | stopsControl hc =>
    rw [← Session.due_core, hc] at hdue
    simp [Session.due] at hdue
  | down state hs hc | expires state hs hc =>
    rw [← Session.due_core, hc] at hdue
    rcases hs with rfl | rfl <;> simp [Session.due] at hdue
  | ready => exact .inr (.inl ⟨.markedReady i, by simp, by simp [Instr.mends]⟩)
  | empty => exact .inr (.inl ⟨.statusReady i, by simp, by simp [Instr.mends]⟩)
  | late hro hfail hc =>
    rw [← Session.due_core, hc] at hdue
    simp [Session.due, Session.core, hfail] at hdue
  | beats _ _ _ _ _ hc | rests _ hc | pulsesBacked _ _ _ hc =>
    refine .inl ?_
    rw [← Session.beating_core, hc]
    rfl
  | misses => exact .inr (.inl hmem)
  | grants hs hro hc =>
    rw [← Session.due_core, hc] at hdue
    refine .inr (.inr ⟨rfl, ?_, fun hb => ?_⟩)
    · rcases hs with hs | hs <;> simpa [Session.due, Session.core, hs] using hdue
    · rw [← Session.beating_core, hc]
      rcases hs with hs | hs <;> simpa [Session.beating, Session.core, hs] using hb
  | reserves hs hc =>
    rw [← Session.due_core, hc] at hdue
    refine .inr (.inr ⟨rfl, ?_, fun hb => ?_⟩)
    · simpa [Session.due, Session.core, hs] using hdue
    · rw [← Session.beating_core, hc]
      simpa [Session.beating, Session.core, hs] using hb
  | unreserves e hx hn hm hc =>
    rcases hm with hm | hm
    · exact .inr (.inl ⟨_, hm, by simp [Instr.mends]⟩)
    · exact .inr (.inl ⟨_, hm, rfl⟩)
  | ends hs => rcases hs with hs | hs | hs <;> simp [Session.due, hs] at hdue
  | breaks hs hro hr => simp [Fabric.early, hro, hi, hs, hr] at hn
  | unanswered => exact .inr (.inl ⟨.fail i .etimedout, by simp, by simp [Instr.mends]⟩)
  | pulses hs hro hc =>
    refine .inl ?_
    rw [← Session.beating_core, hc]
    simp [Session.beating]
  | pulsesLost => exact .inr (.inl hmem)

/-! ### The fabric -/

/-- Every session that is due has a heartbeat, or a remedy is pending. -/
def Chained (f : Fabric) : Prop := f.stopping = false → ∀ i s, f.sessions i = some s → s.due = true →
  s.beating = true ∨ ∃ y ∈ pending f.threads, y.mends i = true

/-- What a step owes a session: the remedies that are pending stay but for the instruction it performs. -/
theorem chained_of_carried (h : Chained f) (hs : f.stopping = false) (hi : f.sessions i = some s)
    (hhead : f.threads[k]? = some (x :: rest)) (hc : Carried i x next s s') :
    s'.beating = true ∨ ∃ y ∈ pending (f.threads.set k (next ++ rest)), y.mends i = true := by
  rcases hc with hb | ⟨y, hy, hmends⟩ | ⟨hx, hdue, hb⟩
  · exact .inl hb
  · exact .inr ⟨y, mem_pending_set_of_new hhead hy, hmends⟩
  · rcases h hs i s hi hdue with hold | ⟨y, hy, hmends⟩
    · exact .inl (hb hold)
    · have hne : y ≠ x := fun he => by rw [he, hx] at hmends; cases hmends
      exact .inr ⟨y, mem_pending_set_of_ne hhead next hy hne, hmends⟩

theorem SessionMove.mends_other {j : ℕ} (h : SessionMove f i s x next s') (hj : j ≠ i) :
    x.mends j = false := by
  cases h with
  | same hx | shakes _ hx | unreserves _ hx => exact Instr.mends_of_idle hx j
  | misses hx =>
    rcases hx with rfl | ⟨m, rfl⟩
    · simp [Instr.mends, Ne.symm hj]
    · rfl
  | spared | fails | rests | ends | breaks | unanswered | pulses | pulsesLost | pulsesBacked =>
    simp [Instr.mends, Ne.symm hj]
  | _ => rfl

theorem carried_refl (hx : x.mends i = false) (hdue : s.due = true) : Carried i x next s s :=
  .inr (.inr ⟨hx, hdue, id⟩)

theorem Moves.carried (hc : Counted f) (hs : f.stopping = false) (hn : f.early x = false)
    (h : Moves f x next f') {s' : Session} (hi : f'.sessions i = some s') (hdue : s'.due = true) :
    ∃ s, f.sessions i = some s ∧ Carried i x next s s' := by
  cases h with
  | turn j s t hj hm hw hq hf =>
    rw [hf] at hi
    rcases of_update hi with ⟨rfl, ht⟩ | ⟨hij, hi⟩
    · cases ht
      exact ⟨s, hj, hm.due_after hj hs hn hdue⟩
    · exact ⟨s', hi, carried_refl (hm.mends_other hij) hdue⟩
  | marks j s hx hj hf =>
    rw [hf] at hi
    rcases of_update hi with ⟨rfl, ht⟩ | ⟨hij, hi⟩
    · cases ht
      refine ⟨s, hj, .inl ?_⟩
      split at hdue
      · rename_i hst
        rw [if_pos hst]
        rfl
      · rename_i hst
        simp [Session.due, hst] at hdue
    · refine ⟨s', hi, carried_refl ?_ hdue⟩
      rcases hx with rfl | rfl <;> simp [Instr.mends, Ne.symm hij]
  | refreshes =>
    rw [refresh_frame] at hi
    exact ⟨s', hi, carried_refl rfl hdue⟩
  | recovers =>
    rw [scheduleNextSession_frame] at hi
    exact ⟨s', hi, carried_refl rfl hdue⟩
  | loses j =>
    unfold Fabric.markRemoteLost at hi
    split at hi <;> exact ⟨s', hi, carried_refl rfl hdue⟩
  | flags hx hq hf =>
    rw [hf] at hi
    refine ⟨s', hi, carried_refl ?_ hdue⟩
    cases x <;> first | rfl | cases hx
  | asks hx hn hq hw hf =>
    rw [hf] at hi
    refine ⟨s', hi, carried_refl ?_ hdue⟩
    rcases hx with rfl | ⟨rfl, -⟩ <;> rfl
  | completes _ _ _ _ _ hf | unstarted _ _ _ _ _ hf =>
    rw [hf] at hi
    exact ⟨s', hi, carried_refl rfl hdue⟩
  | reservedSessions =>
    dsimp only at hi
    split at hi
    · obtain ⟨s, hs, rfl⟩ := Option.map_eq_some_iff.mp hi
      exact ⟨s, hs, .inr (.inr ⟨rfl, hdue, id⟩)⟩
    · exact ⟨s', hi, carried_refl rfl hdue⟩
  | reserved | started | skips | stopsNext | stoppedAll => exact ⟨s', hi, carried_refl rfl hdue⟩
  | abandons e => exact ⟨s', hi, .inr (.inl ⟨.failSessions 0 e, by simp, by simp [Instr.mends]⟩)⟩
  | failsNext j e hj =>
    refine ⟨s', hi, ?_⟩
    rcases lt_trichotomy j i with hlt | rfl | hgt
    · exact .inr (.inl ⟨.failSessions (j + 1) e, by simp, by simpa [Instr.mends] using hlt⟩)
    · exact .inr (.inl ⟨.fail j e, by simp [hi], by simp [Instr.mends]⟩)
    · exact carried_refl (by simpa [Instr.mends] using hgt) hdue
  | failedAll j e hj =>
    have hlt := hc.inside hi
    exact ⟨s', hi, carried_refl (by simp [Instr.mends]; omega) hdue⟩
  | starts _ _ hnone _ _ =>
    rcases of_update hi with ⟨rfl, ht⟩ | ⟨-, hi⟩
    · cases ht
      cases hdue
    · exact ⟨s', hi, carried_refl rfl hdue⟩
  | destroys j =>
    rcases of_update hi with ⟨-, ht⟩ | ⟨-, hi⟩
    · cases ht
    · exact ⟨s', hi, carried_refl rfl hdue⟩

theorem Chained.run {f₁ : Fabric} (h : Chained f) (hc : Counted f) (hn : f.early x = false)
    (hrun : Runs f k answer x rest next f₁) :
    Chained { f₁ with threads := f.threads.set k (next ++ rest) } := by
  intro hs i s' hi hdue
  have hs' : f.stopping = false := hrun.moves.fixed.2.2 ▸ hs
  obtain ⟨s, hsi, hcar⟩ := hrun.moves.carried hc hs' hn hi hdue
  exact chained_of_carried h hs' hsi hrun.head hcar

theorem Chained.outside {l : Label} (h : Chained f) (ho : Outside f l f') : Chained f' := by
  have hspawn {s : Session} {i : ℕ} {z : Instr}
      (hb : s.beating = true ∨ ∃ y ∈ pending f.threads, y.mends i = true) :
      s.beating = true ∨ ∃ y ∈ pending (f.threads ++ [[z]]), y.mends i = true :=
    hb.imp_right fun ⟨y, hy, hm⟩ => ⟨y, mem_pending_spawn hy _, hm⟩
  -- a session whose core is the same is due, and beats, as before
  have hcore {r r' : Session} {i j : ℕ} (hj : f.sessions j = some r) (hc : r'.core = r.core)
      (hs : f.stopping = false) {t : Session}
      (hi : Function.update f.sessions j (some r') i = some t) (hdue : t.due = true) :
      t.beating = true ∨ ∃ y ∈ pending f.threads, y.mends i = true := by
    rcases of_update hi with ⟨rfl, ht⟩ | ⟨-, hi⟩
    · cases ht
      rw [← Session.due_core, hc] at hdue
      rw [← Session.beating_core, hc]
      exact h hs i r hj hdue
    · exact h hs i t hi hdue
  intro hs i s' hi hdue
  cases ho with
  | starts => exact hspawn (h hs i s' hi hdue)
  | works x hx hf =>
    rw [hf] at hs hi ⊢
    exact hspawn (h hs i s' hi hdue)
  | beats j s hj hq =>
    rcases of_update hi with ⟨rfl, -⟩ | ⟨-, hi⟩
    · refine .inr ⟨.heartbeatWork i, ?_, by simp [Instr.mends]⟩
      rw [Fabric.spawn, pending_spawn]
      exact List.mem_append_right _ List.mem_cons_self
    · exact hspawn (h hs i s' hi hdue)
  | downs j s hj =>
    rcases of_update hi with ⟨rfl, ht⟩ | ⟨-, hi⟩
    · cases ht
      exact hspawn (h hs i s hj hdue)
    · exact hspawn (h hs i s' hi hdue)
  | touches j s t hj hc => exact hcore hj hc hs hi hdue
  | arrives j s t x hj hc => exact hspawn (hcore hj hc hs hi hdue)
  | io c r hc hw hf =>
    rw [hf] at hs hi ⊢
    exact h hs i s' hi hdue
  | wants => exact h hs i s' hi hdue
  | stops _ hf =>
    rw [hf] at hs
    cases hs

/-! ### The chain -/

/-- Runs in which no Remote-Only heartbeat fires before the reservation is complete. -/
def NotEarly (f : Fabric) (x : Instr) (_ : Answer) : Prop := f.early x = false

instance (f : Fabric) (x : Instr) (a : Answer) : Decidable (NotEarly f x a) :=
  inferInstanceAs (Decidable (f.early x = false))

/-- **The heartbeat chain is never broken.** With no handler running, a session that is READY or
awaits the answer to a heartbeat, negotiated STATUS and has neither failed nor been stopped has a
heartbeat scheduled or one that is not answered, if no Remote-Only heartbeat fired before the
reservation was complete. -/
theorem heartbeat_chain (hr : fabricSystem.Reach (Performs NotEarly) f) (hq : f.Quiet)
    (hi : f.sessions i = some s)
    (hstate : s.controlState = .ready ∨ s.controlState = .waitHeartbeat)
    (hst : s.negotiatedStatus = true) (hfail : s.failureStarted = false)
    (hstop : s.stopping = false) :
    s.heartbeatQueued = true ∨ s.controlState = .waitHeartbeat ∨ s.heartbeatRequestId ≠ 0 := by
  have hchained : Chained f := by
    refine fabric_invariant (I := Chained) (fun f h => ?_) (fun _ _ _ _ h ho => h.outside ho)
      (fun _ _ _ _ _ _ _ hr h hn hrun => h.run (counted_of_reach hr) hn hrun) hr
    obtain ⟨-, -, hf⟩ := h
    rw [hf]
    intro _ i s hi
    cases hi
  have hdue : s.due = true := by
    rcases hstate with hc | hc <;> simp [Session.due, hstop, hfail, hst, hc]
  rcases hchained (not_stopping_of_quiet hr hq hi) i s hi hdue with hb | ⟨y, hy, -⟩
  · unfold Session.beating at hb
    rw [Bool.or_eq_true, decide_eq_true_eq] at hb
    exact hb.imp_right .inl
  · rw [pending_eq_nil hq] at hy
    cases hy

/-- Session `i` is as the chain asks for it. -/
def Fabric.listening (f : Fabric) (i : ℕ) (p : Session → Bool) : Prop :=
  (f.sessions i).any (fun s => s.controlState = .ready ∧ s.negotiatedStatus = true ∧
    s.failureStarted = false ∧ s.stopping = false ∧ p s) = true

instance (f : Fabric) (i : ℕ) (p : Session → Bool) : Decidable (f.listening i p) :=
  inferInstanceAs (Decidable (_ = true))

/-- A session of a Backed Mode device with one Provider. -/
theorem heartbeat_chain_backed : ∃ f s, fabricSystem.Reach (Performs NotEarly) f ∧ f.sessions 0 = some s ∧
    s.controlState = .ready ∧
    (s.heartbeatQueued = true ∨ s.controlState = .waitHeartbeat ∨ s.heartbeatRequestId ≠ 0) := by
  have hrun : (fabricSystem.execIf (Performs NotEarly) (smallFabric .backed ["p"])
      (runs 0 1 ++ handshake 0 1 1)).any (fun f => decide (f.Quiet ∧ f.listening 0 fun _ => true)) =
        true := by
    decide +kernel
  obtain ⟨f, hr, hq, hl⟩ := System.exists_of_execIf (smallFabric_started (by decide) (by decide)) hrun
  obtain ⟨s, hs, hd⟩ := (Option.any_eq_true _ _).mp hl
  obtain ⟨hc, hst, hfail, hstop, -⟩ := of_decide_eq_true hd
  exact ⟨f, s, hr, hs, hc, heartbeat_chain hr hq hs (.inl hc) hst hfail hstop⟩

/-- The first of two Remote-Only sessions is READY while the second is still connecting, and its
first heartbeat fires. No heartbeat of it is scheduled any more, and none is unanswered. -/
theorem early_heartbeat_lost :
    ∃ f s, fabricSystem.Reachable f ∧ f.mode = .remoteOnly ∧ f.Quiet ∧ f.stopping = false ∧
    f.sessions 0 = some s ∧ s.controlState = .ready ∧ s.negotiatedStatus = true ∧
    s.failureStarted = false ∧
    s.stopping = false ∧ s.heartbeatQueued = false ∧ s.heartbeatRequestId = 0 := by
  have hrun : (fabricSystem.exec (smallFabric .remoteOnly ["p", "q"])
      [runs 0 1, handshake 0 1 1, [.start], runs 5 1, [.work 0 .heartbeat], runs 6 1].flatten).any
      (fun f => decide (f.mode = .remoteOnly ∧ f.Quiet ∧ f.stopping = false ∧
        f.listening 0 fun s => decide (s.heartbeatQueued = false ∧ s.heartbeatRequestId = 0))) =
          true := by
    decide +kernel
  obtain ⟨f, hr, hm, hq, hns, hl⟩ :=
    System.exists_of_exec (smallFabric_started (by decide) (by decide)) hrun
  obtain ⟨s, hs, hd⟩ := (Option.any_eq_true _ _).mp hl
  obtain ⟨hc, hst, hfail, hstop, hb⟩ := of_decide_eq_true hd
  obtain ⟨hqueued, hid⟩ := of_decide_eq_true hb
  exact ⟨f, s, hr, hm, hq, hns, hs, hc, hst, hfail, hstop, hqueued, hid⟩

end Control
end Infiniswap
