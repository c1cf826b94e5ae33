/-
# The Provider's send queue

A Provider connection has one frame in flight and room for one pending frame,
each with what is to be done when its send completes: close the connection, or
post the next receive. `submit` is the locked section of
`submit_encoded_message`, `finishSend` the one of `finish_send`.
-/
import Infiniswap.Protocol.Message

namespace Infiniswap
namespace Provider

/-- The send buffers and flags of a connection. -/
structure SendQueue where
  sendFrame : List UInt8 := []
  pendingFrame : List UInt8 := []
  inflight : Bool := false
  pending : Bool := false
  closeAfterSend : Bool := false
  repostAfterSend : Bool := false
  pendingClose : Bool := false
  pendingRepost : Bool := false
  deriving DecidableEq

/-- What `submit_encoded_message` has to do after its locked section. -/
inductive Submission
  | rejected | postNow | queued
  deriving DecidableEq

/-- What `finish_send` tells the completion handler. -/
structure SendDone where
  close : Bool
  repost : Bool
  startNext : Bool
  deriving DecidableEq

namespace SendQueue

variable (q : SendQueue)

/-- `submit_encoded_message` up to posting. -/
def submit (frame : List UInt8) (close repost : Bool) : Submission × SendQueue :=
  if frame = [] ∨ frame.length > Protocol.maxFrameSize then (.rejected, q)
  else if !q.inflight then
    (.postNow, { q with
      sendFrame := frame, closeAfterSend := close, repostAfterSend := repost, inflight := true })
  else if !q.pending then
    (.queued, { q with
      pendingFrame := frame, pendingClose := close, pendingRepost := repost, pending := true })
  else (.rejected, q)

/-- `finish_send`. -/
def finishSend : SendDone × SendQueue :=
  if q.closeAfterSend then
    (⟨true, q.repostAfterSend, false⟩,
      { q with
        closeAfterSend := false, repostAfterSend := false, inflight := false, pending := false
        pendingClose := false, pendingRepost := false })
  else if q.pending then
    (⟨false, q.repostAfterSend, true⟩,
      { q with
        sendFrame := q.pendingFrame, closeAfterSend := q.pendingClose, repostAfterSend := q.pendingRepost
        pending := false, pendingClose := false, pendingRepost := false })
  else
    (⟨false, q.repostAfterSend, false⟩,
      { q with closeAfterSend := false, repostAfterSend := false, inflight := false })

/-- `clear_sends`. -/
def clearSends : SendQueue :=
  { q with
    inflight := false, pending := false, closeAfterSend := false, repostAfterSend := false
    pendingClose := false, pendingRepost := false }

end SendQueue
end Provider
end Infiniswap
