/-
# Receiving frames on a Provider connection

Every receive a Provider connection posts points at its one receive buffer.
A frame that arrives consumes a posted receive and is written to the buffer on
arrival; its completion is polled later, and only then does the session handler
read the buffer. `build_connection` posts a receive and `on_connect` posts
another one, so two frames may arrive before the first is handled, and the
handler then reads the second frame's bytes with the first frame's length.

A run in which no arriving frame overwrites a frame still unhandled with other
bytes hands every frame over as it was sent.
-/
import Infiniswap.Lib.Runs
import Infiniswap.Provider.SendQueue

namespace Infiniswap
namespace Provider

open Transition

/-- A frame the Consumer's encoder can produce. -/
structure Frame where
  bytes : List UInt8
  size_le : bytes.length ≤ Protocol.maxFrameSize

/-- A work completion: a receive with its `byte_len`, a send, or one that failed. -/
inductive Completion
  | recv (byteLen : ℕ)
  | send
  | failed
  deriving DecidableEq

/-- A Provider connection with its queue pair, its part of the completion queue
and the frames of its Consumer. `handling` says that the poller has handed a
frame to the session and not finished with it. -/
structure Connection where
  sent : List Frame := []
  arrived : ℕ := 0
  receives : ℕ := 0
  recvFrame : ℕ → UInt8 := fun _ => 0
  cq : List Completion := []
  postedSends : ℕ := 0
  queue : SendQueue := {}
  handling : Bool := false
  evictSem : ℕ := 0
  connected : Bool := false
  disconnected : Bool := false
  closing : Bool := false
  handed : List (List UInt8) := []

/-- What becomes of a frame the session handler was given. -/
inductive Handling
  /-- The session fails, has no request, or is left by its peer: disconnect. -/
  | disconnect
  /-- A response, an error or the answer to a request is submitted; a receive follows unless it closes. -/
  | reply (frame : List UInt8) (close : Bool)
  /-- An ACTIVITY answer wakes the eviction round. -/
  | activity
  /-- A RELEASE answer is applied and a receive is posted. -/
  | release (valid : Bool)
  deriving DecidableEq

inductive Event
  /-- The Consumer sends a frame. -/
  | send (frame : Frame)
  /-- The oldest frame in flight arrives. -/
  | arrive
  /-- A posted send completes. -/
  | sent
  /-- A work request fails. -/
  | fail
  /-- `on_connect`. -/
  | connect (posted : Bool)
  /-- The poller takes the next completion; the flags are the results of its verbs calls. -/
  | poll (receivePosted sendPosted : Bool)
  /-- The poller finishes with the frame it handed over. -/
  | handle (outcome : Handling) (posted : Bool)
  /-- The eviction round submits an EVICT or RELEASE frame. -/
  | request (frame : List UInt8) (posted : Bool)
  /-- The eviction round has read an ACTIVITY answer. -/
  | collect (posted : Bool)
  /-- Another thread disconnects. -/
  | disconnect
  /-- The connection is being destroyed. -/
  | close

namespace Connection

variable (c : Connection)

/-- `post_receives`, with the result of `ibv_post_recv`. -/
def postReceives (posted : Bool) : Connection :=
  if c.closing then c
  else if posted then { c with receives := c.receives + 1 }
  else { c with disconnected := true }

/-- `post_encoded_message`, with the result of `ibv_post_send`; a failed post disconnects in every
caller. -/
def postEncodedMessage (posted : Bool) : Connection :=
  if c.closing ∨ !posted then { c with queue := c.queue.clearSends, disconnected := true }
  else { c with postedSends := c.postedSends + 1 }

/-- `submit_encoded_message` and its callers' answer to a failure. It waits in
`post_encoded_message` until the connection is established or closing. -/
def submitEncodedMessage (frame : List UInt8) (close repost posted : Bool) : Option Connection :=
  match c.queue.submit frame close repost with
  | (.rejected, _) => some { c with disconnected := true }
  | (.queued, q) => some { c with queue := q }
  | (.postNow, q) =>
    if c.connected ∨ c.closing then some ({ c with queue := q }.postEncodedMessage posted) else none

/-- The bytes of the buffer that a completion of length `byteLen` hands over. -/
def received (byteLen : ℕ) : List UInt8 := (List.range byteLen).map c.recvFrame

/-- The send half of `on_completion`. -/
def sendCompleted (receivePosted sendPosted : Bool) : Connection :=
  let (done, q) := c.queue.finishSend
  let c := { c with queue := q }
  if done.close then { c with disconnected := true }
  else
    let c := if done.repost then c.postReceives receivePosted else c
    if done.startNext then c.postEncodedMessage sendPosted else c

/-- `on_completion` up to the session handler. -/
def onCompletion (wc : Completion) (receivePosted sendPosted : Bool) : Connection :=
  if c.closing then c
  else match wc with
    | .failed => { c with disconnected := true }
    | .recv byteLen => { c with handed := c.handed ++ [c.received byteLen], handling := true }
    | .send => c.sendCompleted receivePosted sendPosted

/-- `on_completion` after the session handler. -/
def finishHandling (posted : Bool) : Handling → Option Connection
  | .disconnect => some { c with disconnected := true }
  | .reply frame close => c.submitEncodedMessage frame close (!close) posted
  | .activity => some { c with evictSem := c.evictSem + 1 }
  | .release valid => some ((if valid then c else { c with disconnected := true }).postReceives posted)

/-- A frame is written to the buffer of the receive it consumes. -/
def write (frame : List UInt8) : ℕ → UInt8 :=
  fun i => if h : i < frame.length then frame[i] else c.recvFrame i

def step : Event → Option Connection
  | .send frame => some { c with sent := c.sent ++ [frame] }
  | .arrive => match c.sent[c.arrived]? with
    | none => none
    | some frame =>
      if c.receives = 0 ∨ c.disconnected then none
      else some { c with
        arrived := c.arrived + 1
        receives := c.receives - 1
        recvFrame := c.write frame.bytes
        cq := c.cq ++ [.recv frame.bytes.length] }
  | .sent =>
    if c.postedSends = 0 then none
    else some { c with postedSends := c.postedSends - 1, cq := c.cq ++ [.send] }
  | .fail => some { c with cq := c.cq ++ [.failed] }
  | .connect posted =>
    if c.connected then none else some ({ c with connected := true }.postReceives posted)
  | .poll receivePosted sendPosted => match c.cq with
    | [] => none
    | wc :: cq =>
      if c.handling then none else some ({ c with cq := cq }.onCompletion wc receivePosted sendPosted)
  | .handle outcome posted =>
    if c.handling then (c.finishHandling posted outcome).map fun c => { c with handling := false }
      else none
  | .request frame posted => c.submitEncodedMessage frame false false posted
  | .collect posted =>
    if c.evictSem = 0 then none else some ({ c with evictSem := c.evictSem - 1 }.postReceives posted)
  | .disconnect => some { c with disconnected := true }
  | .close => some { c with closing := true }

end Connection

/-- A connection as `build_connection` leaves it: its first receive is posted. -/
def connectionSystem : System Connection Event where
  init c := ∃ posted, c = ({} : Connection).postReceives posted
  step := Connection.step

/-- The frames that arrived and were not handed over yet. -/
def Connection.unhandled (c : Connection) : List Frame := (c.sent.take c.arrived).drop c.handed.length

/-- An arriving frame agrees with each frame still unhandled on the bytes both have. -/
def KeepsUnhandled (c : Connection) : Event → Prop
  | .arrive => ∀ frame ∈ c.sent[c.arrived]?, ∀ g ∈ c.unhandled,
      frame.bytes.take g.bytes.length = g.bytes.take frame.bytes.length
  | _ => True

/-! ### What the other steps leave alone -/

/-- The lengths of the receive completions in a completion queue. -/
def recvLengths (cq : List Completion) : List ℕ :=
  cq.filterMap fun
    | .recv n => some n
    | _ => none

theorem recvLengths_append (cq : List Completion) (wc : Completion) :
    recvLengths (cq ++ [wc]) = recvLengths cq ++ recvLengths [wc] := by
  rw [recvLengths, List.filterMap_append]
  rfl

namespace Connection

variable {c c' : Connection}

/-- The part of a connection that says which bytes the session is given. -/
structure SameReceiving (c c' : Connection) : Prop where
  sent : c'.sent = c.sent
  arrived : c'.arrived = c.arrived
  handed : c'.handed = c.handed
  recvFrame : c'.recvFrame = c.recvFrame
  cq : recvLengths c'.cq = recvLengths c.cq
  closing : c'.closing = c.closing

theorem SameReceiving.trans {c'' : Connection} (h : SameReceiving c c') (h' : SameReceiving c' c'') :
    SameReceiving c c'' :=
  ⟨h'.sent.trans h.sent, h'.arrived.trans h.arrived, h'.handed.trans h.handed,
    h'.recvFrame.trans h.recvFrame, h'.cq.trans h.cq, h'.closing.trans h.closing⟩

theorem postReceives_same (c : Connection) (posted : Bool) : SameReceiving c (c.postReceives posted) := by
  unfold postReceives
  split_ifs <;> exact ⟨rfl, rfl, rfl, rfl, rfl, rfl⟩

theorem postEncodedMessage_same (c : Connection) (posted : Bool) :
    SameReceiving c (c.postEncodedMessage posted) := by
  unfold postEncodedMessage
  split <;> exact ⟨rfl, rfl, rfl, rfl, rfl, rfl⟩

theorem submitEncodedMessage_same {frame : List UInt8} {close repost posted : Bool}
    (h : c.submitEncodedMessage frame close repost posted = some c') : SameReceiving c c' := by
  unfold submitEncodedMessage at h
  split at h
  · cases h
    exact ⟨rfl, rfl, rfl, rfl, rfl, rfl⟩
  · cases h
    exact ⟨rfl, rfl, rfl, rfl, rfl, rfl⟩
  · split at h
    · cases h
      refine .trans ?_ (postEncodedMessage_same _ posted)
      exact ⟨rfl, rfl, rfl, rfl, rfl, rfl⟩
    · cases h

theorem sendCompleted_same (c : Connection) (receivePosted sendPosted : Bool) :
    SameReceiving c (c.sendCompleted receivePosted sendPosted) := by
  have hq : SameReceiving c { c with queue := c.queue.finishSend.2 } := ⟨rfl, rfl, rfl, rfl, rfl, rfl⟩
  have hrepost : SameReceiving c (if c.queue.finishSend.1.repost then
      { c with queue := c.queue.finishSend.2 }.postReceives receivePosted
      else { c with queue := c.queue.finishSend.2 }) := by
    split
    · exact hq.trans (postReceives_same _ _)
    · exact hq
  unfold sendCompleted
  dsimp only
  split
  · exact ⟨rfl, rfl, rfl, rfl, rfl, rfl⟩
  split
  · exact hrepost.trans (postEncodedMessage_same _ _)
  · exact hrepost

theorem finishHandling_same {posted : Bool} {outcome : Handling}
    (h : c.finishHandling posted outcome = some c') : SameReceiving c c' := by
  cases outcome with
  | disconnect =>
    cases h
    exact ⟨rfl, rfl, rfl, rfl, rfl, rfl⟩
  | reply frame close => exact submitEncodedMessage_same h
  | activity =>
    cases h
    exact ⟨rfl, rfl, rfl, rfl, rfl, rfl⟩
  | release valid =>
    cases h
    refine .trans ?_ (postReceives_same _ posted)
    split <;> exact ⟨rfl, rfl, rfl, rfl, rfl, rfl⟩

end Connection

/-! ### The invariant -/

/-- The buffer begins with the frame's bytes. -/
def Holds (buffer : ℕ → UInt8) (bytes : List UInt8) : Prop :=
  ∀ i (h : i < bytes.length), buffer i = bytes[i]

variable {c : Connection}

theorem received_of_holds {bytes : List UInt8} (h : Holds c.recvFrame bytes) :
    c.received bytes.length = bytes := by
  refine List.ext_getElem (by simp [Connection.received]) fun i h1 h2 => ?_
  simp only [Connection.received, List.getElem_map, List.getElem_range]
  exact h i h2

/-- What was handed over is what was sent, and the buffer still holds every frame not handed over. -/
structure ReceiveInv (c : Connection) : Prop where
  arrived_le : c.arrived ≤ c.sent.length
  handed_le : c.handed.length ≤ c.arrived
  handed : c.handed = (c.sent.take c.handed.length).map Frame.bytes
  pending : c.closing = false → recvLengths c.cq = c.unhandled.map fun g => g.bytes.length
  buffer : ∀ g ∈ c.unhandled, Holds c.recvFrame g.bytes

namespace ReceiveInv

variable {c c' : Connection}

theorem congr (h : ReceiveInv c) (hs : Connection.SameReceiving c c') : ReceiveInv c' := by
  have hun : c'.unhandled = c.unhandled := by
    unfold Connection.unhandled
    rw [hs.sent, hs.arrived, hs.handed]
  exact
    { arrived_le := by rw [hs.arrived, hs.sent]; exact h.arrived_le
      handed_le := by rw [hs.handed, hs.arrived]; exact h.handed_le
      handed := by rw [hs.handed, hs.sent]; exact h.handed
      pending := fun hc => by rw [hs.cq, hun]; exact h.pending (hs.closing ▸ hc)
      buffer := fun g hg => by rw [hs.recvFrame]; exact h.buffer g (hun ▸ hg) }

theorem send (h : ReceiveInv c) (frame : Frame) : ReceiveInv { c with sent := c.sent ++ [frame] } := by
  have hun : ({ c with sent := c.sent ++ [frame] } : Connection).unhandled = c.unhandled := by
    unfold Connection.unhandled
    rw [List.take_append_of_le_length h.arrived_le]
  exact
    { arrived_le := by
        rw [List.length_append]
        exact Nat.le_add_right_of_le h.arrived_le
      handed_le := h.handed_le
      handed := by
        rw [List.take_append_of_le_length (Nat.le_trans h.handed_le h.arrived_le)]
        exact h.handed
      pending := fun hc => by rw [hun]; exact h.pending hc
      buffer := fun g hg => h.buffer g (hun ▸ hg) }

theorem arrive (h : ReceiveInv c) {frame : Frame} (hf : c.sent[c.arrived]? = some frame)
    (hagree : ∀ g ∈ c.unhandled, frame.bytes.take g.bytes.length = g.bytes.take frame.bytes.length)
    (n : ℕ) : ReceiveInv { c with
      arrived := c.arrived + 1, receives := n, recvFrame := c.write frame.bytes
      cq := c.cq ++ [.recv frame.bytes.length] } := by
  obtain ⟨hlt, hget⟩ := List.getElem?_eq_some_iff.mp hf
  have hun : (c.sent.take (c.arrived + 1)).drop c.handed.length = c.unhandled ++ [frame] := by
    rw [List.take_add_one, hf, Option.toList_some, List.drop_append_of_le_length]
    · rfl
    · rw [List.length_take]
      have := h.handed_le
      omega
  refine ⟨hlt, Nat.le_trans h.handed_le (Nat.le_succ _), h.handed, fun hc => ?_, fun g hg => ?_⟩
  · show recvLengths (c.cq ++ [.recv frame.bytes.length]) =
      List.map _ ((c.sent.take (c.arrived + 1)).drop _)
    rw [hun, recvLengths_append, h.pending hc, List.map_append]
    rfl
  · replace hg : g ∈ c.unhandled ++ [frame] := hun ▸ hg
    intro i hi
    show (if h : i < frame.bytes.length then frame.bytes[i] else c.recvFrame i) = g.bytes[i]
    rcases List.mem_append.mp hg with hold | hnew
    · split
      · -- both frames have byte `i`
        rename_i hfi
        have htake := congrArg (·[i]?) (hagree g hold)
        simp only [List.getElem?_take, hi, hfi, if_true, List.getElem?_eq_getElem] at htake
        exact Option.some.inj htake
      · exact h.buffer g hold i hi
    · cases List.mem_singleton.mp hnew
      rw [dif_pos hi]

theorem poll (h : ReceiveInv c) {n : ℕ} {cq : List Completion} (hcq : c.cq = .recv n :: cq)
    (hclosing : c.closing = false) :
    ReceiveInv { c with cq := cq, handed := c.handed ++ [c.received n], handling := true } := by
  have hpend := h.pending hclosing
  rw [hcq] at hpend
  cases hun : c.unhandled with
  | nil =>
    rw [hun] at hpend
    cases hpend
  | cons g gs =>
    rw [hun] at hpend
    obtain ⟨hn, hrest⟩ := List.cons.inj hpend
    have hg : c.received n = g.bytes := by
      rw [hn]
      exact received_of_holds (h.buffer g (hun ▸ List.mem_cons_self))
    have hlt : c.handed.length < c.arrived := by
      have hlen := congrArg List.length hun
      rw [Connection.unhandled, List.length_drop, List.length_take, List.length_cons] at hlen
      omega
    have hdrop : (c.sent.take c.arrived).drop (c.handed.length + 1) = gs := by
      rw [← List.drop_drop, show (c.sent.take c.arrived).drop c.handed.length = g :: gs from hun]
      rfl
    have hget : c.sent[c.handed.length]? = some g := by
      have h0 := congrArg (·[0]?) hun
      simp only [Connection.unhandled, List.getElem?_drop, Nat.add_zero, List.getElem?_take, hlt, if_true,
        List.getElem?_cons_zero] at h0
      exact h0
    refine ⟨h.arrived_le, ?_, ?_, fun _ => ?_, fun g' hg' => ?_⟩
    · rw [List.length_append]
      exact hlt
    · rw [List.length_append, List.length_singleton, List.take_add_one, hget, List.map_append,
        ← h.handed, hg]
      rfl
    · show recvLengths cq = List.map _ ((c.sent.take c.arrived).drop (c.handed ++ [c.received n]).length)
      rw [List.length_append, List.length_singleton, hdrop]
      exact hrest
    · refine h.buffer g' ?_
      rw [hun]
      refine List.mem_cons_of_mem g ?_
      rw [← hdrop]
      rwa [Connection.unhandled, List.length_append, List.length_singleton] at hg'

end ReceiveInv

/-! ### Every run -/

theorem onCompletion_inv {wc : Completion} {cq : List Completion} (h : ReceiveInv c)
    (hcq : c.cq = wc :: cq) (receivePosted sendPosted : Bool) :
    ReceiveInv ({ c with cq := cq }.onCompletion wc receivePosted sendPosted) := by
  by_cases hclosing : c.closing = true
  · -- a closing connection drops the completion
    unfold Connection.onCompletion
    rw [if_pos hclosing]
    exact { h with pending := fun hc => absurd (hclosing.symm.trans hc) nofun }
  unfold Connection.onCompletion
  rw [if_neg hclosing]
  cases wc with
  | failed => exact h.congr ⟨rfl, rfl, rfl, rfl, by rw [hcq]; rfl, rfl⟩
  | recv n => exact h.poll hcq (Bool.eq_false_iff.mpr hclosing)
  | send =>
    refine h.congr (.trans ?_ (Connection.sendCompleted_same _ receivePosted sendPosted))
    exact ⟨rfl, rfl, rfl, rfl, by rw [hcq]; rfl, rfl⟩

theorem inv_init (h : connectionSystem.init c) : ReceiveInv c := by
  obtain ⟨posted, rfl⟩ := h
  refine ReceiveInv.congr ?_ (Connection.postReceives_same {} posted)
  exact ⟨Nat.le_refl 0, Nat.le_refl 0, rfl, fun _ => rfl, nofun⟩

theorem inv_step {c c' : Connection} {e : Event} (h : ReceiveInv c) (he : KeepsUnhandled c e)
    (hs : c.step e = some c') : ReceiveInv c' := by
  cases e with
  | send frame =>
    cases hs
    exact h.send frame
  | arrive =>
    dsimp only [Connection.step] at hs
    split at hs
    · cases hs
    · rename_i frame hf
      split at hs
      · cases hs
      · cases hs
        exact h.arrive hf (he frame hf) (c.receives - 1)
  | sent =>
    dsimp only [Connection.step] at hs
    split at hs
    · cases hs
    · cases hs
      exact h.congr ⟨rfl, rfl, rfl, rfl, by rw [recvLengths_append]; exact List.append_nil _, rfl⟩
  | fail =>
    cases hs
    exact h.congr ⟨rfl, rfl, rfl, rfl, by rw [recvLengths_append]; exact List.append_nil _, rfl⟩
  | connect posted | collect posted =>
    dsimp only [Connection.step] at hs
    split at hs
    · cases hs
    · cases hs
      refine h.congr (.trans ?_ (Connection.postReceives_same _ posted))
      exact ⟨rfl, rfl, rfl, rfl, rfl, rfl⟩
  | poll receivePosted sendPosted =>
    dsimp only [Connection.step] at hs
    split at hs
    · cases hs
    · rename_i wc cq hcq
      split at hs
      · cases hs
      · cases hs
        exact onCompletion_inv h hcq receivePosted sendPosted
  | handle outcome posted =>
    dsimp only [Connection.step] at hs
    split at hs
    · obtain ⟨c1, h1, rfl⟩ := Option.map_eq_some_iff.mp hs
      refine h.congr (.trans (Connection.finishHandling_same h1) ?_)
      exact ⟨rfl, rfl, rfl, rfl, rfl, rfl⟩
    · cases hs
  | request frame posted => exact h.congr (Connection.submitEncodedMessage_same hs)
  | disconnect =>
    cases hs
    exact h.congr ⟨rfl, rfl, rfl, rfl, rfl, rfl⟩
  | close =>
    cases hs
    exact { h with pending := nofun }

theorem receive_inv (h : connectionSystem.Reach KeepsUnhandled c) : ReceiveInv c :=
  h.invariant (fun _ => inv_init) fun _ _ _ _ hinv he hs => inv_step hinv he hs

/-- **Receive fidelity.** In a run in which no arriving frame overwrites an
unhandled one with other bytes, the `n`-th receive completion processed hands
over the bytes and length of the `n`-th frame sent. -/
theorem frames_handed_as_sent {c : Connection} (h : connectionSystem.Reach KeepsUnhandled c) (n : ℕ)
    (hn : n < c.handed.length) : ∃ frame ∈ c.sent[n]?, c.handed[n]? = some frame.bytes := by
  have hinv := receive_inv h
  have hlt : n < c.sent.length := Nat.lt_of_lt_of_le hn (Nat.le_trans hinv.handed_le hinv.arrived_le)
  refine ⟨c.sent[n], List.getElem?_eq_getElem hlt, ?_⟩
  rw [hinv.handed, List.getElem?_map, List.getElem?_take, if_pos hn, List.getElem?_eq_getElem hlt]
  rfl

/-! ### The two receives posted before the first frame -/

instance (c : Connection) (e : Event) : Decidable (KeepsUnhandled c e) :=
  match e with
  | .arrive => inferInstanceAs (Decidable (∀ frame ∈ c.sent[c.arrived]?, ∀ g ∈ c.unhandled, _))
  | .send _ | .sent | .fail | .connect _ | .poll _ _ | .handle _ _ | .request _ _ | .collect _
  | .disconnect | .close => .isTrue trivial

/-- A frame of one byte. -/
def byteFrame (b : UInt8) : Frame := ⟨[b], Nat.le_add_left 1 4095⟩

/-- A connection whose first receive is posted. -/
def builtConnection : Connection := ({} : Connection).postReceives true

theorem builtConnection_init : connectionSystem.init builtConnection := ⟨true, rfl⟩

theorem frames_handed_as_sent_two : ∃ c, connectionSystem.Reach KeepsUnhandled c ∧
    c.handed = [[1], [2]] ∧ ∃ frame ∈ c.sent[1]?, c.handed[1]? = some frame.bytes := by
  obtain ⟨c, hc, hhanded⟩ : ∃ c, connectionSystem.execIf KeepsUnhandled builtConnection
      [.connect true, .send (byteFrame 1), .send (byteFrame 2), .arrive, .poll true true,
        .handle .activity true,
        .arrive, .poll true true] = some c ∧ c.handed = [[1], [2]] := ⟨_, rfl, by decide⟩
  have hreach := System.reach_of_execIf (.init builtConnection_init) hc
  exact ⟨c, hreach, hhanded, frames_handed_as_sent hreach 1 (by rw [hhanded]; decide)⟩

/-- Both receives posted before the first frame point at the one buffer: when
the second frame arrives before the first is polled, the session is given its bytes. -/
theorem second_receive_overwrites : ∃ c, connectionSystem.Reachable c ∧
    c.sent.map Frame.bytes = [[1], [2]] ∧ c.handed = [[2]] := by
  obtain ⟨c, hc, hsent, hhanded⟩ : ∃ c, connectionSystem.exec builtConnection
      [.connect true, .send (byteFrame 1), .send (byteFrame 2), .arrive, .arrive, .poll true true] =
        some c ∧
      c.sent.map Frame.bytes = [[1], [2]] ∧ c.handed = [[2]] := ⟨_, rfl, by decide, by decide⟩
  exact ⟨c, System.reachable_of_exec (.init builtConnection_init) hc, hsent, hhanded⟩

end Provider
end Infiniswap
