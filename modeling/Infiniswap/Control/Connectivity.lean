/-
# The connection state and the sessions

`is_fabric_refresh_connection_state` sums the sessions up into one state of the
device, and some of the handlers that change a session call it. A fabric with
all its planned sessions up is connected, or some handler is about to refresh
the state. One handler is not: the answer to a heartbeat of a Backed Mode session
makes a session healthy again that had no capacity before, and nobody looks. In
runs without such a recovery, no handler pending and every planned session up,
the device is connected.
-/
import Infiniswap.Control.Moves

namespace Infiniswap
namespace Control

open RemoteChunk ChunkModule Transition Threads

variable {f f' : Fabric} {i k : ℕ} {s s' : Session} {x : Instr} {next rest : List Instr} {answer : Answer}

/-! ### Which sessions there are -/

variable {g f₁ : Fabric} {l : Label} {P : Fabric → Instr → Answer → Prop}

/-- What every run keeps of the number of sessions. -/
structure Counted (f : Fabric) : Prop where
  planned : f.plannedCount ≠ 0
  resolved : f.nextResolveIndex ≤ f.plannedCount
  count : f.sessionCount ≤ f.nextResolveIndex
  inside : ∀ {i s}, f.sessions i = some s → i < f.sessionCount
  lost : f.remoteOnly = false → f.remoteLost = false

theorem Counted.congr (h : Counted f) (hp : f'.plannedCount = f.plannedCount)
    (hn : f'.nextResolveIndex = f.nextResolveIndex) (hc : f'.sessionCount = f.sessionCount)
    (hs : ∀ i, (f'.sessions i).isSome = true → (f.sessions i).isSome = true)
    (hl : f'.remoteOnly = false → f.remoteOnly = false ∧ f'.remoteLost = f.remoteLost) :
    Counted f' where
  planned := hp ▸ h.planned
  resolved := by rw [hn, hp]; exact h.resolved
  count := by rw [hc, hn]; exact h.count
  inside := fun {i s} hi => by
    obtain ⟨s', hs'⟩ := Option.isSome_iff_exists.mp (hs i (by rw [hi]; rfl))
    rw [hc]
    exact h.inside hs'
  lost := fun hro => by
    obtain ⟨hro, hl⟩ := hl hro
    rw [hl]
    exact h.lost hro

theorem isSome_update {g : ℕ → Option Session} (hi : g i = some s) (j : ℕ)
    (h : (Function.update g i (some s') j).isSome = true) : (g j).isSome = true := by
  by_cases hj : j = i
  · rw [hj, hi]
    rfl
  · rwa [Function.update_of_ne hj] at h

theorem of_update {g : ℕ → Option Session} {j : ℕ} {o : Option Session}
    (h : Function.update g j o i = some s) : i = j ∧ o = some s ∨ i ≠ j ∧ g i = some s := by
  by_cases hij : i = j
  · rw [hij, Function.update_self] at h
    exact .inl ⟨hij, h⟩
  · rw [Function.update_of_ne hij] at h
    exact .inr ⟨hij, h⟩

theorem Counted.moves (h : Counted f) (hm : Moves f x next f') : Counted f' := by
  cases hm with
  | turn i s s' hi hm hw hq hf =>
    rw [hf]
    exact h.congr rfl rfl rfl (isSome_update hi) fun hro => ⟨hro, rfl⟩
  | marks i s hx hi hf =>
    rw [hf, scheduleNextSession_frame]
    exact h.congr rfl rfl rfl (isSome_update hi) fun hro => ⟨hro, rfl⟩
  | refreshes =>
    rw [refresh_frame]
    exact h.congr rfl rfl rfl (fun _ => id) fun hro => ⟨hro, rfl⟩
  | recovers =>
    rw [scheduleNextSession_frame]
    exact h.congr rfl rfl rfl (fun _ => id) fun hro => ⟨hro, rfl⟩
  | loses i =>
    unfold Fabric.markRemoteLost
    split
    · exact h
    · rename_i hro
      rw [not_or, Bool.not_eq_true', Bool.not_eq_false] at hro
      exact h.congr rfl rfl rfl (fun _ => id) fun hb => absurd (hro.1.symm.trans hb) Bool.noConfusion
  | flags hx hq hf | asks hx hn hq hw hf | completes hl hs hm hp hw hf =>
    rw [hf]
    exact h.congr rfl rfl rfl (fun _ => id) fun hro => ⟨hro, rfl⟩
  | reservedSessions =>
    refine h.congr rfl rfl rfl (fun j hj => ?_) fun hro => ⟨hro, rfl⟩
    dsimp only at hj
    split at hj
    · rwa [Option.isSome_map] at hj
    · exact hj
  | skips hs hn hsome =>
    exact ⟨h.planned, hn, h.count.trans (Nat.le_succ _), h.inside, h.lost⟩
  | unstarted hs hn hnone hw hq hf =>
    rw [hf]
    exact ⟨h.planned, hn, h.count.trans (Nat.le_succ _), h.inside, h.lost⟩
  | starts hs hn hnone hp hnext =>
    refine ⟨h.planned, hn, ?_, fun {j s} hj => ?_, h.lost⟩
    · exact max_le (h.count.trans (Nat.le_succ _)) le_rfl
    · by_cases hji : j = f.nextResolveIndex
      · rw [hji]
        exact lt_max_of_lt_right (Nat.lt_succ_self _)
      · exact lt_max_of_lt_left (h.inside ((Function.update_of_ne hji _ _).symm.trans hj))
  | destroys i =>
    refine h.congr rfl rfl rfl (fun j hj => ?_) fun hro => ⟨hro, rfl⟩
    dsimp only at hj
    by_cases hji : j = i
    · rw [hji, Function.update_self] at hj
      cases hj
    · rwa [Function.update_of_ne hji] at hj
  | _ => exact h.congr rfl rfl rfl (fun _ => id) fun hro => ⟨hro, rfl⟩

theorem Counted.threads (h : Counted f) (ts : List (List Instr)) : Counted { f with threads := ts } :=
  h.congr rfl rfl rfl (fun _ => id) fun hro => ⟨hro, rfl⟩

theorem Counted.outside (h : Counted f) (ho : Outside f l f') : Counted f' := by
  cases ho with
  | starts | wants => exact h.congr rfl rfl rfl (fun _ => id) fun hro => ⟨hro, rfl⟩
  | works x hx hf | io c r hc hw hf
  | stops hs hf => rw [hf]; exact h.congr rfl rfl rfl (fun _ => id) fun hro => ⟨hro, rfl⟩
  | beats i s hi | downs i s hi
  | touches i s s' hi | arrives i s s' x hi =>
    exact h.congr rfl rfl rfl (isSome_update hi) fun hro => ⟨hro, rfl⟩

theorem counted_of_started (h : f.Started) : Counted f := by
  obtain ⟨-, hp, hf⟩ := h
  rw [hf]
  exact ⟨hp, Nat.zero_le _, le_rfl, (nomatch ·), fun _ => rfl⟩

theorem counted_of_reach (hr : fabricSystem.Reach (Performs P) f) : Counted f :=
  fabric_invariant (I := Counted) (fun _ h => counted_of_started h) (fun _ _ _ _ h ho => h.outside ho)
    (fun _ _ _ _ _ _ _ _ h _ hrun => (h.moves hrun.moves).threads _) hr

/-! ### The refresh -/

/-- Every planned session is up. -/
def Fabric.AllUp (f : Fabric) : Prop := ∀ i < f.plannedCount, f.healthyAt i = true

theorem countP_eq_zero_of_allUp (h : f.AllUp) {p : ℕ → Bool}
    (hp : ∀ i, f.healthyAt i = true → p i = false) : (List.range f.plannedCount).countP p = 0 := by
  rw [List.countP_eq_zero]
  intro i hi
  rw [Bool.not_eq_true]
  exact hp i (h i (List.mem_range.mp hi))

theorem failedAt_of_healthyAt (h : f.healthyAt i = true) : f.failedAt i = false := by
  unfold Fabric.healthyAt at h
  unfold Fabric.failedAt
  cases hs : f.sessions i with
  | none =>
    rw [hs] at h
    cases h
  | some s =>
    rw [hs] at h
    have hup : s.up = true := h
    simp [hup]

theorem refresh_connected (hc : Counted f) (hs : f.stopping = false) (hl : f.remoteLost = false)
    (h : f.AllUp) : f.refresh.connectionState = .connected := by
  have hlimit : max f.plannedCount f.sessionCount = f.plannedCount :=
    max_eq_left (hc.count.trans hc.resolved)
  have hpending : (List.range f.plannedCount).countP f.pendingAt = 0 :=
    countP_eq_zero_of_allUp h fun i hi => by simp [Fabric.pendingAt, hi]
  have hfailed : (List.range f.plannedCount).countP f.failedAt = 0 :=
    countP_eq_zero_of_allUp h fun i hi => failedAt_of_healthyAt hi
  have hhealthy : (List.range f.plannedCount).countP f.healthyAt ≠ 0 := by
    rw [Ne, List.countP_eq_zero]
    intro hall
    exact hall 0 (List.mem_range.mpr (Nat.pos_of_ne_zero hc.planned))
      (h 0 (Nat.pos_of_ne_zero hc.planned))
  unfold Fabric.refresh
  rw [if_neg (by simp [hs, hl])]
  dsimp only
  rw [hlimit, if_neg (not_not.mpr hpending), if_neg (fun hb => hb.2 hfailed), if_pos hhealthy]

/-! ### Which moves bring a session up -/

/-- The answer to a heartbeat that makes a Backed Mode session healthy again. -/
def Fabric.recovering (f : Fabric) : Instr → Bool
  | .receiveWork i (.statusResponse _ status) => (f.sessions i).any fun s =>
      s.controlState = .ready && !s.healthy && status.healthy && status.availableOpportunisticChunks != 0
  | _ => false

theorem Session.up_core (s : Session) : s.core.up = s.up := rfl

theorem Session.up_of_core (h : s'.core = s.core) : s'.up = true ↔ s.up = true := by
  rw [← up_core, h, up_core]

/-- **A session that a Backed Mode handler brings up was up, or the handler refreshes the connection
state**, or it is a recovery. -/
theorem SessionMove.up_before (hi : f.sessions i = some s) (hb : f.remoteOnly = false)
    (hn : f.recovering x = false) (h : SessionMove f i s x next s') (hup : s'.up = true) :
    s.up = true ∨ .refresh ∈ next := by
  cases h with
  | ready | empty | down | fails => exact .inr List.mem_cons_self
  | spared | ends | breaks | unanswered => exact .inl hup
  | late hro | grants _ hro | pulses _ hro | pulsesLost _ hro =>
    rw [hro] at hb
    cases hb
  | shakes _ _ _ _ hc =>
    rw [← Session.up_core] at hup
    rcases hc with hc | hc
    · rw [hc] at hup
      exact .inl hup
    · rw [hc] at hup
      exact .inl hup
  | beats full hs _ _ hm hc =>
    rw [← Session.up_core, hc] at hup
    cases full with
    | false => cases hup
    | true =>
      obtain ⟨h, status, rfl, hst, hfull⟩ := hm
      have hhealthy : s.healthy = true := by
        by_contra hne
        rw [Bool.not_eq_true] at hne
        simp [Fabric.recovering, hi, hs, hne, hst] at hn
        simp [hn] at hfull
      refine .inl ?_
      rw [Session.up, hhealthy]
      exact hup
  | same _ hc | expires _ _ hc | lost hc | misses _ hc | reserves _ hc | unreserves _ _ _ _ hc
  | rests _ hc
  | pulsesBacked _ _ _ hc | stops hc | stopsControl hc | queues hc =>
    rw [← Session.up_core, hc] at hup
    exact .inl hup

theorem healthyAt_update (hg : g.sessions = Function.update f.sessions i (some s')) (j : ℕ) :
    g.healthyAt j = if j = i then s'.up else f.healthyAt j := by
  unfold Fabric.healthyAt
  rw [hg]
  split
  · rename_i hj
    rw [hj, Function.update_self]
    rfl
  · rename_i hj
    rw [Function.update_of_ne hj]

theorem allUp_of_update (h : g.AllUp) (hi : f.sessions i = some s)
    (hg : g.sessions = Function.update f.sessions i (some s'))
    (hp : g.plannedCount = f.plannedCount) (hup : s'.up = true → s.up = true) : f.AllUp := by
  intro j hj
  have hj' := h j (hp ▸ hj)
  rw [healthyAt_update hg] at hj'
  split at hj'
  · rename_i hji
    rw [hji, Fabric.healthyAt, hi]
    exact hup hj'
  · exact hj'

theorem Moves.allUp_before (hb : f.remoteOnly = false) (hn : f.recovering x = false)
    (hm : Moves f x next f') (h : f'.AllUp) : f.AllUp ∨ .refresh ∈ next := by
  cases hm with
  | turn i s s' hi hm hw hq hf =>
    by_cases hmem : .refresh ∈ next
    · exact .inr hmem
    · refine .inl (allUp_of_update h hi (by rw [hf]) (by rw [hf]) fun hup => ?_)
      exact (hm.up_before hi hb hn hup).resolve_right hmem
  | marks i s hx hi hf =>
    refine .inl (allUp_of_update h hi (by rw [hf]) (by rw [hf, scheduleNextSession_frame]) fun hup => ?_)
    split at hup <;> exact hup
  | refreshes =>
    rw [refresh_frame] at h
    exact .inl h
  | recovers =>
    rw [scheduleNextSession_frame] at h
    exact .inl h
  | loses i =>
    unfold Fabric.markRemoteLost at h
    split at h <;> exact .inl h
  | flags hx hq hf | asks hx hn hq hw hf | completes hl hs hm hp hw hf =>
    rw [hf] at h
    exact .inl h
  | reservedSessions =>
    refine .inl fun j hj => ?_
    have hj' := h j hj
    unfold Fabric.healthyAt at hj' ⊢
    dsimp only at hj'
    split at hj'
    · rwa [Option.any_map] at hj'
    · exact hj'
  | unstarted => exact .inr List.mem_cons_self
  | starts hs hlt hnone hp hnext =>
    have hnew := h f.nextResolveIndex hlt
    rw [healthyAt_update (f := f) rfl, if_pos rfl] at hnew
    cases hnew
  | destroys i =>
    refine .inl fun j hj => ?_
    have hj' := h j hj
    unfold Fabric.healthyAt at hj' ⊢
    dsimp only at hj'
    by_cases hji : j = i
    · rw [hji, Function.update_self] at hj'
      cases hj'
    · rwa [Function.update_of_ne hji] at hj'
  | _ => exact .inl h

theorem Moves.connected_after (hb : f.remoteOnly = false) (hx : x ≠ .refresh) (hm : Moves f x next f')
    (h : f.connectionState = .connected) : f'.connectionState = .connected := by
  cases hm with
  | turn i s s' hi hm hw hq hf => rw [hf]; exact h
  | marks i s hx hi hf => rw [hf, scheduleNextSession_frame]; exact h
  | refreshes => exact absurd rfl hx
  | recovers => rw [scheduleNextSession_frame]; exact h
  | loses i =>
    unfold Fabric.markRemoteLost
    rw [if_pos (by simp [hb])]
    exact h
  | flags hx hq hf | asks hx hn hq hw hf => rw [hf]; exact h
  | completes hl hs hm hp hw hf => rw [hf]
  | unstarted _ _ _ _ _ hf => rw [hf]; exact h
  | _ => exact h

/-! ### Settled fabrics -/

/-- In Backed Mode, with every planned session up, the device is connected or about to be refreshed. -/
def Settled (f : Fabric) : Prop := f.remoteOnly = false → f.stopping = false → f.AllUp →
  f.connectionState = .connected ∨ .refresh ∈ pending f.threads

theorem Settled.run (h : Settled f) (hc : Counted f) (hn : f.recovering x = false)
    (hrun : Runs f k answer x rest next f₁) :
    Settled { f₁ with threads := f.threads.set k (next ++ rest) } := by
  intro hb hs hall
  have hm := hrun.moves
  have hb' : f.remoteOnly = false := hm.remoteOnly_eq ▸ hb
  have hs' : f.stopping = false := hm.fixed.2.2 ▸ hs
  rcases hm.allUp_before hb' hn hall with hup | hmem
  · by_cases hx : x = .refresh
    · subst hx
      have hout := hrun.outcome
      cases hout
      exact .inl (refresh_connected hc hs' (hc.lost hb') hup)
    · rcases h hb' hs' hup with hcon | hpend
      · have hafter := hm.connected_after hb' hx hcon
        exact .inl hafter
      · exact .inr (mem_pending_set_of_ne hrun.head next hpend (Ne.symm hx))
  · exact .inr (mem_pending_set_of_new hrun.head hmem)

theorem Settled.outside (h : Settled f) (ho : Outside f l f') : Settled f' := by
  intro hb hs hall
  cases ho with
  | starts => exact (h hb hs hall).imp_right (mem_pending_spawn · _)
  | works x hx hf =>
    rw [hf] at hb hs hall ⊢
    exact (h hb hs hall).imp_right (mem_pending_spawn · _)
  | beats i s hi | downs i s hi =>
    exact (h hb hs (allUp_of_update hall hi rfl rfl id)).imp_right (mem_pending_spawn · _)
  | touches i s s' hi hc => exact h hb hs (allUp_of_update hall hi rfl rfl (Session.up_of_core hc).mp)
  | arrives i s s' x hi hc =>
    exact (h hb hs (allUp_of_update hall hi rfl rfl (Session.up_of_core hc).mp)).imp_right
      (mem_pending_spawn · _)
  | io c r hc hw hf =>
    rw [hf] at hb hs hall ⊢
    exact h hb hs hall
  | wants => exact h hb hs hall
  | stops _ hf =>
    rw [hf] at hs
    cases hs

/-! ### Stopping -/

/-- A fabric that stops has destroyed each of its sessions, or is about to. -/
def Stopping (f : Fabric) : Prop := f.stopping = true → ∀ i, f.sessions i = none ∨
  (∃ k ≤ i, .stopSessions k ∈ pending f.threads) ∨ .destroySession i ∈ pending f.threads

theorem Moves.none_after (hs : f.stopping = true) (hm : Moves f x next f') (h : f.sessions i = none) :
    f'.sessions i = none := by
  cases hm with
  | turn j s s' hj hm hw hq hf | marks j s hx hj hf =>
    rw [hf]
    have hne : i ≠ j := fun he => by rw [he, hj] at h; cases h
    exact (Function.update_of_ne hne _ _).trans h
  | refreshes => rw [refresh_frame]; exact h
  | recovers => rw [scheduleNextSession_frame]; exact h
  | loses j =>
    unfold Fabric.markRemoteLost
    split <;> exact h
  | flags hx hq hf | asks hx hn hq hw hf | completes hl hs hm hp hw hf => rw [hf]; exact h
  | reservedSessions =>
    dsimp only
    rw [h]
    split <;> rfl
  | skips hns | unstarted hns | starts hns => rw [hs] at hns; cases hns
  | destroys j =>
    dsimp only
    by_cases hij : i = j
    · rw [hij, Function.update_self]
    · rwa [Function.update_of_ne hij]
  | _ => exact h

theorem Stopping.run (h : Stopping f) (hc : Counted f) (hrun : Runs f k answer x rest next f₁) :
    Stopping { f₁ with threads := f.threads.set k (next ++ rest) } := by
  intro hs i
  have hm := hrun.moves
  have hs' : f.stopping = true := hm.fixed.2.2 ▸ hs
  have hout := hrun.outcome
  cases hi : f.sessions i with
  | none =>
    have hafter := hm.none_after hs' hi
    exact .inl hafter
  | some s =>
    rcases h hs' i with hnone | ⟨j, hj, hstop⟩ | hdestroy
    · rw [hi] at hnone
      cases hnone
    · by_cases hx : x = .stopSessions j
      · subst hx
        simp only [Fabric.perform, if_pos (lt_of_le_of_lt hj (hc.inside hi))] at hout
        cases hout
        by_cases hij : j = i
        · refine .inr (.inr (mem_pending_set_of_new hrun.head ?_))
          simp [hij, hi]
        · refine .inr (.inl ⟨j + 1, by omega, mem_pending_set_of_new hrun.head ?_⟩)
          simp
      · exact .inr (.inl ⟨j, hj, mem_pending_set_of_ne hrun.head next hstop (Ne.symm hx)⟩)
    · by_cases hx : x = .destroySession i
      · subst hx
        simp only [Fabric.perform] at hout
        split at hout
        · cases hout
        · cases hout
          have hnone : Function.update f.sessions i none i = none := Function.update_self ..
          exact .inl hnone
      · exact .inr (.inr (mem_pending_set_of_ne hrun.head next hdestroy (Ne.symm hx)))

theorem Stopping.outside (h : Stopping f) (ho : Outside f l f') : Stopping f' := by
  intro hs i
  have hnone {j : ℕ} {r r' : Session} (hj : f.sessions j = some r) (hi : f.sessions i = none) :
      Function.update f.sessions j (some r') i = none := by
    have hne : i ≠ j := fun he => by rw [he, hj] at hi; cases hi
    exact (Function.update_of_ne hne _ _).trans hi
  have hspawn {y : Instr} (hp : (∃ k ≤ i, .stopSessions k ∈ pending f.threads) ∨
      .destroySession i ∈ pending f.threads) : (∃ k ≤ i, .stopSessions k ∈ pending (f.threads ++ [[y]])) ∨
      .destroySession i ∈ pending (f.threads ++ [[y]]) :=
    hp.imp (fun ⟨k, hk, hmem⟩ => ⟨k, hk, mem_pending_spawn hmem y⟩) (mem_pending_spawn · y)
  cases ho with
  | starts => exact (h hs i).imp_right hspawn
  | works x hx hf =>
    rw [hf] at hs ⊢
    exact (h hs i).imp_right hspawn
  | beats j s hj | downs j s hj => exact (h hs i).imp (hnone hj) hspawn
  | touches j s s' hj hc => exact (h hs i).imp_left (hnone hj)
  | arrives j s s' x hj hc => exact (h hs i).imp (hnone hj) hspawn
  | io c r hc hw hf =>
    rw [hf] at hs ⊢
    exact h hs i
  | wants => exact h hs i
  | stops _ hf =>
    rw [hf]
    refine .inr (.inl ⟨0, Nat.zero_le i, ?_⟩)
    rw [pending_spawn]
    exact List.mem_append_right _ List.mem_cons_self

theorem stopping_of_reach (hr : fabricSystem.Reach (Performs P) f) : Stopping f := by
  refine fabric_invariant (I := Stopping) (fun f h => ?_) (fun _ _ _ _ h ho => h.outside ho)
    (fun _ _ _ _ _ _ _ hr h _ hrun => h.run (counted_of_reach hr) hrun) hr
  obtain ⟨-, -, hf⟩ := h
  rw [hf]
  exact fun h => nomatch h

/-- The instructions of `is_rdma_stop`. -/
def Instr.stops : Instr → Bool
  | .stopSessions _ | .stopSession _ | .stopControl _ | .destroySession _ => true
  | _ => false

theorem all_of_plain {p : Instr → Bool} (hp : ∀ y : Instr, y.plain = true → p y = true)
    (h : next.all Instr.plain = true) : next.all p = true :=
  List.all_eq_true.mpr fun y hy => hp y (List.all_eq_true.mp h y hy)

theorem Instr.not_stops_of_plain (y : Instr) (h : y.plain = true) : (!y.stops) = true := by
  cases y <;> first | rfl | cases h

theorem SessionMove.next_stops (h : SessionMove f i s x next s') :
    next.all (fun y => !y.stops) = true := by
  cases h with
  | same _ _ hn | shakes _ _ _ _ _ hn | unreserves _ _ hn =>
    exact all_of_plain Instr.not_stops_of_plain hn
  | fails assigned lost => cases lost <;> rfl
  | _ => rfl

theorem Moves.next_stops (h : Moves f x next f') (hx : x.stops = false) :
    next.all (fun y => !y.stops) = true := by
  cases h with
  | turn i s s' hi hm => exact hm.next_stops
  | asks _ hn => exact all_of_plain Instr.not_stops_of_plain hn
  | failsNext k => split <;> rfl
  | starts _ _ _ _ hnext => rcases hnext with rfl | ⟨e, rfl⟩ <;> rfl
  | stopsNext => cases hx
  | _ => rfl

/-- A session is stopped only by a fabric that stops. -/
def StopOnly (f : Fabric) : Prop := ∀ y ∈ pending f.threads, y.stops = true → f.stopping = true

theorem StopOnly.run (h : StopOnly f) (hrun : Runs f k answer x rest next f₁) :
    StopOnly { f₁ with threads := f.threads.set k (next ++ rest) } := by
  have hst := hrun.moves.fixed.2.2
  refine forall_pending_set hrun.head (fun y hy hs => hst.trans (h y hy hs)) fun y hy hs => ?_
  cases hx : x.stops with
  | true => exact hst.trans (h x (head_mem_pending hrun.head) hx)
  | false =>
    have hnone := List.all_eq_true.mp (hrun.moves.next_stops hx) y hy
    rw [hs] at hnone
    cases hnone

theorem StopOnly.spawn (h : StopOnly f) (hy : x.stops = false) (hg : g.threads = f.threads ++ [[x]])
    (hs : g.stopping = f.stopping) : StopOnly g := by
  intro y hmem hstops
  rw [hg, pending_spawn, List.mem_append, List.mem_singleton] at hmem
  rw [hs]
  rcases hmem with hmem | rfl
  · exact h y hmem hstops
  · rw [hy] at hstops
    cases hstops

theorem StopOnly.outside (h : StopOnly f) (ho : Outside f l f') : StopOnly f' := by
  cases ho with
  | starts => exact h.spawn rfl rfl rfl
  | works x hx hf =>
    rw [hf]
    rcases hx with rfl | rfl <;> exact h.spawn rfl rfl rfl
  | beats | downs => exact h.spawn rfl rfl rfl
  | touches | wants => exact h
  | arrives i s s' x hi hc hx =>
    refine h.spawn (x := x) ?_ rfl rfl
    cases x <;> first | rfl | cases hx
  | io c r hc hw hf => rw [hf]; exact h
  | stops _ hf => rw [hf]; exact fun _ _ _ => rfl

theorem stopOnly_of_reach (hr : fabricSystem.Reach (Performs P) f) : StopOnly f := by
  refine fabric_invariant (I := StopOnly) (fun f h => ?_) (fun _ _ _ _ h ho => h.outside ho)
    (fun _ _ _ _ _ _ _ _ h _ hrun => h.run hrun) hr
  obtain ⟨-, -, hf⟩ := h
  rw [hf]
  intro y hy hs
  rw [List.mem_singleton.mp hy] at hs
  cases hs

theorem pending_eq_nil (h : f.Quiet) : pending f.threads = [] := List.flatten_eq_nil_iff.mpr h

/-- With no handler running, a fabric that has a session is not stopping. -/
theorem not_stopping_of_quiet (hr : fabricSystem.Reach (Performs P) f) (hq : f.Quiet)
    (hi : f.sessions i = some s) : f.stopping = false := by
  by_contra hne
  have hstop := stopping_of_reach hr (by simpa using hne) i
  rw [pending_eq_nil hq, hi] at hstop
  simp at hstop

/-! ### Connectivity -/

/-- Runs in which no heartbeat brings a session without capacity back. -/
def NoRecovery (f : Fabric) (x : Instr) (_ : Answer) : Prop := f.recovering x = false

instance (f : Fabric) (x : Instr) (a : Answer) : Decidable (NoRecovery f x a) :=
  inferInstanceAs (Decidable (f.recovering x = false))

/-- **The connection state matches the sessions.** In Backed Mode, with no handler running and every
planned session READY, healthy, connected once and never failed, the device is connected, if no
session without capacity was brought back by a heartbeat. -/
theorem connected_of_all_up (hr : fabricSystem.Reach (Performs NoRecovery) f) (hb : f.mode ≠ .remoteOnly)
    (hq : f.Quiet) (hall : ∀ i < f.plannedCount, ∃ s, f.sessions i = some s ∧ s.controlState = .ready ∧
      s.healthy = true ∧ s.everConnected = true ∧ s.failureStarted = false) :
    f.connectionState = .connected := by
  have hc := counted_of_reach hr
  have hsettled : Settled f := by
    refine fabric_invariant (I := Settled) (fun f h => ?_) (fun _ _ _ _ h ho => h.outside ho)
      (fun _ _ _ _ _ _ _ hr h hn hrun => h.run (counted_of_reach hr) hn hrun) hr
    have hp := (counted_of_started h).planned
    obtain ⟨-, -, hf⟩ := h
    rw [hf] at hp ⊢
    intro _ _ hall
    cases hall 0 (Nat.pos_of_ne_zero hp)
  have hup : f.AllUp := by
    intro i hi
    obtain ⟨s, hs, -, hh, he, -⟩ := hall i hi
    rw [Fabric.healthyAt, hs]
    exact Bool.and_eq_true_iff.mpr ⟨hh, he⟩
  obtain ⟨s, h0, -⟩ := hall 0 (Nat.pos_of_ne_zero hc.planned)
  rcases hsettled (by simpa [Fabric.remoteOnly] using hb) (not_stopping_of_quiet hr hq h0) hup
    with hcon | hmem
  · exact hcon
  · rw [pending_eq_nil hq] at hmem
    cases hmem

/-! ### A small fabric -/

/-- A device of one chunk, whose Providers have the given names. -/
def smallConfig (mode : Mode) (names : List String) : Config :=
  { mode := mode
    chunkCount := 1
    hotPolicy := ⟨1, 1, 1⟩
    providers := names.map (⟨·, 1⟩)
    placementSampleSize := 1
    placementSeed := 1 }

def smallFabric (mode : Mode) (names : List String) : Fabric :=
  { world := createdWorld (smallConfig mode names)
    mode := mode
    plannedCount := names.length }

theorem smallFabric_started {mode : Mode} {names : List String}
    (hv : (smallConfig mode names).validate 3 = .ok ()) (hn : names ≠ []) :
    (smallFabric mode names).Started := by
  have hlen : (newModule (smallConfig mode names) 1 0).providerCount = names.length := List.length_map ..
  refine ⟨createdWorld_fresh hv, ?_, ?_⟩
  · exact hlen ▸ (List.length_pos_iff.mpr hn).ne'
  · rw [smallFabric, ← hlen]
    rfl

/-- Thread `t` performs its next `n` instructions. -/
def runs (t n : ℕ) : List Label := List.replicate n (.run t {})

def reply (id : ℕ) : Header := { response := true, requestId := id }

/-- A status response by which a Provider offers `available` chunks to either mode. -/
def statusReply (id available : ℕ) : Message := .statusResponse (reply id)
  { healthy := true, availableCommittedChunks := available, availableOpportunisticChunks := available }

/-- The handshake of session `i`; its first handler is thread `t`. -/
def handshake (i t available : ℕ) : List Label :=
  ([.established i, .work i .hello] : List Label) ++ runs t 4 ++
  ([.sendDone i false, .message i (.challenge (reply 1) true)] : List Label) ++ runs (t + 1) 5 ++
  ([.sendDone i false, .message i (.accept (reply 2))] : List Label) ++ runs (t + 2) 5 ++
  ([.sendDone i false, .message i (statusReply 3 available)] : List Label) ++ runs (t + 3) 5

/-- The one session is READY, healthy, connected once and never failed. -/
def Fabric.oneUp (f : Fabric) : Prop := f.plannedCount = 1 ∧ (f.sessions 0).any (fun s =>
  s.controlState = .ready ∧ s.healthy = true ∧ s.everConnected = true ∧ s.failureStarted = false) = true

instance (f : Fabric) : Decidable f.oneUp := inferInstanceAs (Decidable (f.plannedCount = 1 ∧ _ = true))

theorem oneUp_all (h : f.oneUp) :
    ∀ i < f.plannedCount, ∃ s, f.sessions i = some s ∧ s.controlState = .ready ∧
    s.healthy = true ∧ s.everConnected = true ∧ s.failureStarted = false := by
  intro i hi
  obtain ⟨hp, h⟩ := h
  rw [hp, Nat.lt_one_iff] at hi
  subst hi
  obtain ⟨s, hs, hd⟩ := (Option.any_eq_true _ _).mp h
  exact ⟨s, hs, of_decide_eq_true hd⟩

instance (f : Fabric) : Decidable f.Quiet := inferInstanceAs (Decidable (∀ t ∈ f.threads, t = []))

/-- A Provider with capacity: the device is connected after the handshake. -/
theorem handshake_connects : ∃ f, fabricSystem.Reach (Performs NoRecovery) f ∧ f.Quiet ∧ f.oneUp ∧
    f.connectionState = .connected := by
  have hrun : (fabricSystem.execIf (Performs NoRecovery) (smallFabric .backed ["p"])
      (runs 0 1 ++ handshake 0 1 1)).any (fun f => decide
        (f.mode ≠ .remoteOnly ∧ f.Quiet ∧ f.oneUp)) = true := by
    decide +kernel
  obtain ⟨f, hr, hb, hq, hup⟩ :=
    System.exists_of_execIf (smallFabric_started (by decide) (by decide)) hrun
  exact ⟨f, hr, hq, hup, connected_of_all_up hr hb hq (oneUp_all hup)⟩

/-- A Provider that first has no capacity and then has: the heartbeat that says so makes its session
healthy, the mapping work it starts finds the device still connecting, and nothing is left to do. -/
theorem recovery_unseen :
    ∃ f, fabricSystem.Reachable f ∧ f.mode = .backed ∧ f.Quiet ∧ f.startQueued = false ∧
    f.mappingQueued = false ∧ f.reservationQueued = false ∧ f.stopping = false ∧
    (∀ i < f.plannedCount, ∃ s, f.sessions i = some s ∧ s.controlState = .ready ∧
      s.healthy = true ∧ s.everConnected = true ∧ s.failureStarted = false) ∧
      f.connectionState = .connecting := by
  have hrun : (fabricSystem.exec (smallFabric .backed ["p"])
      [runs 0 1, handshake 0 1 0, [.work 0 .heartbeat], runs 5 2,
        [.sendDone 0 false, .message 0 (statusReply 4 1)], runs 6 3, [.mapping], runs 7 1].flatten).any
      (fun f => decide (f.mode = .backed ∧ f.Quiet ∧ f.startQueued = false ∧ f.mappingQueued = false ∧
        f.reservationQueued = false ∧ f.stopping = false ∧ f.oneUp ∧
        f.connectionState = .connecting)) = true := by
    decide +kernel
  obtain ⟨f, hr, hb, hq, h₁, h₂, h₃, h₄, hup, hc⟩ :=
    System.exists_of_exec (smallFabric_started (by decide) (by decide)) hrun
  exact ⟨f, hr, hb, hq, h₁, h₂, h₃, h₄, oneUp_all hup, hc⟩

end Control
end Infiniswap
