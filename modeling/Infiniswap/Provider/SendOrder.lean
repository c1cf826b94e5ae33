/-
# The send queue under every interleaving

A submission takes the send slot under the lock and posts its frame after giving
the lock up; a completion promotes the pending frame into the same buffer and
posts it after giving the lock up. A submission reports success if it was
accepted and, where it posts itself, posted. In between the frame is in nobody's hands
but a poster's, who reads the length of the buffer first and hands the buffer
to the device later. The slot stays taken all that time, so there is never more
than one poster or one frame with the device, and the buffer is that one's
(`Phase`). From this the frames are posted in the order they were accepted.
-/
import Infiniswap.Lib.Runs
import Infiniswap.Provider.SendQueue

namespace Infiniswap
namespace Provider

open Transition

/-- A frame and what is to be done when its send completes. -/
structure SendRequest where
  bytes : List UInt8
  close : Bool
  repost : Bool
  deriving DecidableEq

/-- The flags of a request, as a completion applies them. -/
def SendRequest.flags (r : SendRequest) : Bool × Bool := (r.close, r.repost)

/-- A thread in `post_encoded_message`: before and after it has read the length of the frame. -/
inductive Poster
  | entered
  | sized (length : ℕ)
  deriving DecidableEq

/-- A connection's send queue, the threads about to post, and the frames the device has, with a
record of what was accepted, posted and completed, and whether a frame may have been given up. -/
structure Sender where
  queue : SendQueue := {}
  posters : List Poster := []
  outstanding : List (List UInt8) := []
  accepted : List SendRequest := []
  posted : List SendRequest := []
  completed : List (Bool × Bool) := []
  disturbed : Bool := false

/-- What may happen next on a connection. -/
inductive SendLabel
  /-- The locked section of `submit_encoded_message`. -/
  | submit (r : SendRequest)
  /-- Poster `k` reads the length and asks for a reference, which a closing connection refuses. -/
  | enter (k : ℕ) (referenced : Bool)
  /-- Poster `k` posts, unless the connection closes or the device refuses. -/
  | post (k : ℕ) (taken : Bool)
  /-- A send completes. -/
  | complete
  /-- A send completes with an error, or on a closing connection. -/
  | fail

namespace Sender

variable (s : Sender)

/-- The frame in the slot. -/
def active : SendRequest := ⟨s.queue.sendFrame, s.queue.closeAfterSend, s.queue.repostAfterSend⟩

/-- The frame behind it. -/
def pending : List SendRequest :=
  if s.queue.pending then [⟨s.queue.pendingFrame, s.queue.pendingClose, s.queue.pendingRepost⟩] else []

/-- The accepted frames that are still to be posted. -/
def waiting : List SendRequest := (if s.posters = [] then [] else [s.active]) ++ s.pending

/-- A poster gives up: `clear_sends`. -/
def giveUp (k : ℕ) : Sender :=
  { s with queue := s.queue.clearSends, posters := s.posters.eraseIdx k, disturbed := true }

def step : SendLabel → Option Sender
  | .submit r =>
    match s.queue.submit r.bytes r.close r.repost with
    | (.rejected, _) => some s
    | (.postNow, q) =>
      some { s with queue := q, posters := s.posters ++ [.entered], accepted := s.accepted ++ [r] }
    | (.queued, q) => some { s with queue := q, accepted := s.accepted ++ [r] }
  | .enter k referenced =>
    match s.posters[k]? with
    | some .entered =>
      if referenced then some { s with posters := s.posters.set k (.sized s.queue.sendFrame.length) }
      else some (s.giveUp k)
    | _ => none
  | .post k taken =>
    match s.posters[k]? with
    | some (.sized length) =>
      if taken then
        let frame := s.queue.sendFrame.take length
        some { s with
          posters := s.posters.eraseIdx k
          outstanding := s.outstanding ++ [frame]
          posted := s.posted ++ [⟨frame, s.queue.closeAfterSend, s.queue.repostAfterSend⟩] }
      else some (s.giveUp k)
    | _ => none
  | .complete =>
    match s.outstanding with
    | [] => none
    | _ :: rest =>
      let (done, q) := s.queue.finishSend
      some { s with
        queue := q
        outstanding := rest
        completed := s.completed ++ [(done.close, done.repost)]
        posters := if done.startNext then s.posters ++ [.entered] else s.posters
        disturbed := s.disturbed || done.close }
  | .fail =>
    match s.outstanding with
    | [] => none
    | _ :: rest => some { s with outstanding := rest, disturbed := true }

end Sender

/-- The runs of one connection. -/
def sendSystem : System Sender SendLabel where
  init s := s = {}
  step := Sender.step

/-! ### The slot has one holder -/

variable {s s' : Sender}

/-- Who holds the slot: nobody, a poster, the device, or a send that failed. -/
inductive Phase (s : Sender) : Prop
  | idle (hi : s.queue.inflight = false) (hp : s.queue.pending = false) (hpo : s.posters = [])
      (ho : s.outstanding = []) (hd : s.completed = s.posted.map SendRequest.flags)
  | posting (p : Poster) (hi : s.queue.inflight = true) (hpo : s.posters = [p]) (ho : s.outstanding = [])
      (hlen : ∀ n, p = .sized n → n = s.queue.sendFrame.length)
      (hd : s.completed = s.posted.map SendRequest.flags)
  | sent (before : List SendRequest) (hi : s.queue.inflight = true) (hpo : s.posters = [])
      (ho : s.outstanding = [s.queue.sendFrame]) (hb : s.posted = before ++ [s.active])
      (hd : s.completed = before.map SendRequest.flags)
  | broken (hi : s.queue.inflight = true) (hpo : s.posters = []) (ho : s.outstanding = [])
      (hx : s.disturbed = true) (hd : s.completed <+: s.posted.map SendRequest.flags)

/-- The accepted frames are posted or waiting, in order; while nothing was given up, all of them are. -/
structure Kept (s : Sender) : Prop where
  order : (s.posted ++ s.waiting).Sublist s.accepted
  exact : s.disturbed = false → s.posted ++ s.waiting = s.accepted

theorem Kept.accept {r : SendRequest} (h : Kept s) (hp : s'.posted = s.posted)
    (hw : s'.waiting = s.waiting ++ [r]) (ha : s'.accepted = s.accepted ++ [r])
    (hd : s'.disturbed = s.disturbed) : Kept s' := by
  have hall : s'.posted ++ s'.waiting = s.posted ++ s.waiting ++ [r] := by rw [hp, hw, List.append_assoc]
  refine ⟨?_, fun hx => ?_⟩
  · rw [hall, ha]
    exact h.order.append (.refl _)
  · rw [hall, ha, h.exact (hd ▸ hx)]

theorem Kept.congr (h : Kept s) (hall : s'.posted ++ s'.waiting = s.posted ++ s.waiting)
    (ha : s'.accepted = s.accepted) (hd : s'.disturbed = false → s.disturbed = false) : Kept s' := by
  refine ⟨?_, fun hx => ?_⟩
  · rw [hall, ha]
    exact h.order
  · rw [hall, ha]
    exact h.exact (hd hx)

/-- With everything that waits given up. -/
theorem Kept.drop (h : Kept s) (hp : s'.posted = s.posted) (hw : s'.waiting = [])
    (ha : s'.accepted = s.accepted) (hd : s'.disturbed = true) : Kept s' := by
  refine ⟨?_, fun hx => absurd (hd.symm.trans hx) nofun⟩
  rw [hp, hw, ha, List.append_nil]
  exact (List.sublist_append_left _ _).trans h.order

theorem waiting_nil (h : s.posters = []) (hp : s.queue.pending = false) : s.waiting = [] := by
  simp [Sender.waiting, Sender.pending, h, hp]

/-- What a connection looks like between two steps. -/
structure SendInv (s : Sender) : Prop where
  phase : Phase s
  kept : Kept s

theorem Phase.of_poster {p : Poster} {k : ℕ} (h : Phase s) (hk : s.posters[k]? = some p) :
    k = 0 ∧ s.posters = [p] ∧ s.queue.inflight = true ∧ s.outstanding = [] ∧
      (∀ n, p = .sized n → n = s.queue.sendFrame.length) ∧
      s.completed = s.posted.map SendRequest.flags := by
  cases h with
  | idle _ _ hpo | sent _ _ hpo | broken _ hpo =>
    rw [hpo] at hk
    cases hk
  | posting p' hi hpo ho hlen hd =>
    rw [hpo] at hk
    cases k with
    | zero =>
      cases hk
      exact ⟨rfl, hpo, hi, ho, hlen, hd⟩
    | succ k => cases hk

theorem SendInv.giveUp {p : Poster} {k : ℕ} (h : SendInv s) (hk : s.posters[k]? = some p) :
    SendInv (s.giveUp k) := by
  obtain ⟨rfl, hpo, -, ho, -, hd⟩ := h.phase.of_poster hk
  have hgone : (s.giveUp 0).posters = [] := by
    show s.posters.eraseIdx 0 = []
    rw [hpo]
    rfl
  exact ⟨.idle rfl rfl hgone ho hd, h.kept.drop rfl (waiting_nil hgone rfl) rfl rfl⟩

/-! ### One step -/

theorem submit_inv {r : SendRequest} (h : SendInv s) (hs : s.step (.submit r) = some s') :
    SendInv s' := by
  obtain ⟨hp, hk⟩ := h
  unfold Sender.step SendQueue.submit at hs
  dsimp only at hs
  split_ifs at hs with hbad hin hpend
  · cases hs
    exact ⟨hp, hk⟩
  · -- the slot is free: the frame is the new poster's
    cases hs
    have hfree : s.queue.inflight = false := by simpa using hin
    cases hp with
    | posting _ hi | sent _ hi | broken hi => exact absurd (hfree.symm.trans hi) nofun
    | idle hi hq hpo ho hd =>
      refine ⟨.posting .entered rfl (by rw [hpo]; rfl) ho nofun hd, hk.accept rfl ?_ rfl rfl⟩
      simp [Sender.waiting, Sender.pending, Sender.active, hpo, hq]
  · -- the slot is taken, the place behind it is free
    cases hs
    have hnone : s.queue.pending = false := by simpa using hpend
    have hheld : s.queue.inflight = true := by simpa using hin
    refine ⟨?_, hk.accept rfl ?_ rfl rfl⟩
    · cases hp with
      | idle hi => exact absurd (hi.symm.trans hheld) nofun
      | posting p hi hpo ho hlen hd => exact .posting p hi hpo ho hlen hd
      | sent before hi hpo ho hb hd => exact .sent before hi hpo ho hb hd
      | broken hi hpo ho hx hd => exact .broken hi hpo ho hx hd
    · simp [Sender.waiting, Sender.pending, Sender.active, hnone]
  · cases hs
    exact ⟨hp, hk⟩

theorem enter_inv {k : ℕ} {referenced : Bool} (h : SendInv s)
    (hs : s.step (.enter k referenced) = some s') : SendInv s' := by
  unfold Sender.step at hs
  dsimp only at hs
  split at hs
  · rename_i hk
    split_ifs at hs
    · cases hs
      obtain ⟨rfl, hpo, hi, ho, -, hd⟩ := h.phase.of_poster hk
      have hset : s.posters.set 0 (.sized s.queue.sendFrame.length) =
          [.sized s.queue.sendFrame.length] := by
        rw [hpo]
        rfl
      refine ⟨.posting _ hi hset ho (fun n hn => ?_) hd, h.kept.congr ?_ rfl id⟩
      · cases hn
        rfl
      · simp [Sender.waiting, Sender.pending, Sender.active, hpo]
    · cases hs
      exact h.giveUp hk
  · cases hs

theorem post_inv {k : ℕ} {taken : Bool} (h : SendInv s) (hs : s.step (.post k taken) = some s') :
    SendInv s' := by
  unfold Sender.step at hs
  dsimp only at hs
  split at hs
  · rename_i length hk
    split_ifs at hs
    · cases hs
      obtain ⟨rfl, hpo, hi, ho, hlen, hd⟩ := h.phase.of_poster hk
      -- the length is still the one of the buffer
      have hframe : s.queue.sendFrame.take length = s.queue.sendFrame := by
        rw [hlen length rfl, List.take_length]
      have hgone : s.posters.eraseIdx 0 = [] := by
        rw [hpo]
        rfl
      refine ⟨.sent s.posted hi hgone (by rw [ho, hframe]; rfl) (by rw [hframe]; rfl) hd,
        h.kept.congr ?_ rfl id⟩
      simp [Sender.waiting, Sender.pending, Sender.active, hpo, hframe]
    · cases hs
      exact h.giveUp hk
  · cases hs

/-- Only the device completes sends, and it has the frame in the slot. -/
theorem Phase.of_outstanding {b : List UInt8} {rest : List (List UInt8)} (h : Phase s)
    (ho : s.outstanding = b :: rest) : rest = [] ∧ s.queue.inflight = true ∧ s.posters = [] ∧
      ∃ before, s.posted = before ++ [s.active] ∧ s.completed = before.map SendRequest.flags := by
  cases h with
  | idle _ _ _ hnone | posting _ _ _ hnone | broken _ _ hnone =>
    rw [ho] at hnone
    cases hnone
  | sent before hi hpo hone hb hd =>
    rw [ho] at hone
    exact ⟨(List.cons.inj hone).2, hi, hpo, before, hb, hd⟩

theorem complete_inv (h : SendInv s) (hs : s.step .complete = some s') : SendInv s' := by
  unfold Sender.step at hs
  dsimp only at hs
  split at hs
  · cases hs
  rename_i b rest ho
  obtain ⟨rfl, hi, hpo, before, hb, hd⟩ := h.phase.of_outstanding ho
  have hwait : s.waiting = s.pending := by simp [Sender.waiting, hpo]
  have hdone : s.completed ++ [(s.queue.closeAfterSend, s.queue.repostAfterSend)] =
      s.posted.map SendRequest.flags := by
    rw [hb, hd, List.map_append]
    rfl
  cases hc : s.queue.closeAfterSend with
  | true =>
    -- the connection is closed after this frame
    simp only [SendQueue.finishSend, hc, ↓reduceIte, Bool.false_eq_true, Option.some.injEq] at hs
    subst hs
    exact ⟨.idle rfl rfl hpo rfl (by rw [← hdone, hc]),
      h.kept.drop rfl (waiting_nil hpo rfl) rfl (Bool.or_true _)⟩
  | false =>
    cases hp : s.queue.pending with
    | true =>
      -- the pending frame takes the slot
      simp only [SendQueue.finishSend, hc, hp, ↓reduceIte, Bool.false_eq_true, Option.some.injEq] at hs
      subst hs
      refine ⟨.posting .entered hi (by rw [hpo]; rfl) rfl nofun (by rw [← hdone, hc]),
        h.kept.congr ?_ rfl (by simp)⟩
      rw [hwait]
      simp [Sender.waiting, Sender.pending, Sender.active, hp]
    | false =>
      simp only [SendQueue.finishSend, hc, hp, ↓reduceIte, Bool.false_eq_true, Option.some.injEq] at hs
      subst hs
      refine ⟨.idle rfl rfl hpo rfl (by rw [← hdone, hc]), h.kept.congr ?_ rfl (by simp)⟩
      rw [waiting_nil hpo hp]
      exact congrArg (s.posted ++ ·) (waiting_nil (by exact hpo) rfl)

theorem fail_inv (h : SendInv s) (hs : s.step .fail = some s') : SendInv s' := by
  unfold Sender.step at hs
  dsimp only at hs
  split at hs
  · cases hs
  rename_i b rest ho
  obtain ⟨rfl, hi, hpo, before, hb, hd⟩ := h.phase.of_outstanding ho
  cases hs
  refine ⟨.broken hi hpo rfl rfl ⟨[s.active.flags], ?_⟩, h.kept.congr rfl rfl nofun⟩
  show s.completed ++ [s.active.flags] = s.posted.map SendRequest.flags
  rw [hb, hd, List.map_append]
  rfl

theorem send_inv (h : sendSystem.Reachable s) : SendInv s := by
  refine System.Reach.invariant (I := SendInv) (fun s hs => ?_) (fun s l s' _ ih _ hs => ?_) h
  · cases hs
    exact ⟨.idle rfl rfl rfl rfl rfl, .refl _, fun _ => rfl⟩
  · cases l with
    | submit r => exact submit_inv ih hs
    | enter k referenced => exact enter_inv ih hs
    | post k taken => exact post_inv ih hs
    | complete => exact complete_inv ih hs
    | fail => exact fail_inv ih hs

/-- **The order of sends.** In every interleaving there is at most one frame with the device or
about to be posted, and the buffer is that frame's. Accepted frames are posted at most once, in
order and with their bytes, and completions apply the flags of the posted frames in turn. Unless a
poster gave up, a send failed or a frame that closes was completed, every accepted frame is posted
or waits, and what waits has a poster or a send before it that completes; with neither left, all
were posted. -/
theorem send_order {s : Sender} (h : sendSystem.Reachable s) :
    s.outstanding.length + s.posters.length ≤ 1 ∧ s.pending.length ≤ 1 ∧
    (∀ b ∈ s.outstanding, b = s.queue.sendFrame) ∧
    (s.posted ++ s.waiting).Sublist s.accepted ∧
    s.completed <+: s.posted.map SendRequest.flags ∧
    (s.disturbed = false → s.posted ++ s.waiting = s.accepted ∧
      (s.posters = [] → s.outstanding = [] →
        s.posted = s.accepted ∧ s.completed = s.accepted.map SendRequest.flags)) := by
  obtain ⟨hp, hk⟩ := send_inv h
  have hpending : s.pending.length ≤ 1 := by
    unfold Sender.pending
    split <;> simp
  cases hp with
  | idle hi hq hpo ho hd =>
    refine ⟨by simp [hpo, ho], hpending, by simp [ho], hk.order, hd ▸ List.prefix_rfl, fun hx => ?_⟩
    have hall := hk.exact hx
    refine ⟨hall, fun _ _ => ?_⟩
    rw [waiting_nil hpo hq, List.append_nil] at hall
    exact ⟨hall, hall ▸ hd⟩
  | posting p hi hpo ho hlen hd =>
    exact ⟨by simp [hpo, ho], hpending, by simp [ho], hk.order, hd ▸ List.prefix_rfl,
      fun hx => ⟨hk.exact hx, fun h0 => absurd (hpo.symm.trans h0) nofun⟩⟩
  | sent before hi hpo ho hb hd =>
    refine ⟨by simp [hpo, ho], hpending, by simp [ho], hk.order, ?_,
      fun hx => ⟨hk.exact hx, fun _ h0 => absurd (ho.symm.trans h0) nofun⟩⟩
    rw [hb, hd, List.map_append]
    exact List.prefix_append _ _
  | broken hi hpo ho hx hd =>
    exact ⟨by simp [hpo, ho], hpending, by simp [ho], hk.order, hd,
      fun h0 => absurd (hx.symm.trans h0) nofun⟩

/-- Two frames, the second submitted before the first is posted: both are posted and completed. -/
theorem send_order_two : ∃ s, sendSystem.Reachable s ∧ s.disturbed = false ∧
    s.posted = [⟨[1], false, true⟩, ⟨[2, 3], false, false⟩] ∧
    s.completed = [(false, true), (false, false)] ∧
    s.outstanding.length + s.posters.length ≤ 1 := by
  obtain ⟨s, hs, hd, hposters, hout, hacc⟩ : ∃ s, sendSystem.exec {}
      [.submit ⟨[1], false, true⟩, .submit ⟨[2, 3], false, false⟩, .enter 0 true, .post 0 true, .complete,
        .enter 0 true, .post 0 true, .complete] = some s ∧ s.disturbed = false ∧ s.posters = [] ∧
      s.outstanding = [] ∧ s.accepted = [⟨[1], false, true⟩, ⟨[2, 3], false, false⟩] :=
        ⟨_, rfl, by decide⟩
  have hr := System.reachable_of_exec (.init rfl) hs
  obtain ⟨hone, -, -, -, -, hexact⟩ := send_order hr
  obtain ⟨hposted, hcompleted⟩ := (hexact hd).2 hposters hout
  rw [hacc] at hposted hcompleted
  exact ⟨s, hr, hd, hposted, hcompleted, hone⟩

end Provider
end Infiniswap
