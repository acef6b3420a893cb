/-
  CameraStream.Client.LatestFrameQueue

  `LatestFrameQueue` (latest_frame_queue.hpp): a queue of at most one frame.

  Every member function runs under the mutex from its first access to its last,
  so each is one atomic operation here.  `pop_for` gives the mutex up while it
  waits; what it returns is decided in the last critical section, after a push, a
  close or the time-out has woken it.
-/

import CameraStream.Client.Types

namespace CameraStream.Client

structure LatestFrameQueue where
  latest : Option Frame := none
  closed : Bool := false

namespace LatestFrameQueue

/-- The flag tells whether an unconsumed frame was replaced. -/
def push (q : LatestFrameQueue) (frame : Frame) : LatestFrameQueue × Bool :=
  if q.closed then (q, false)
  else ({ q with latest := some frame }, q.latest.isSome)

/-- The frame that a woken `pop_for` takes out, if there is one. -/
def popFor (q : LatestFrameQueue) : LatestFrameQueue × Option Frame :=
  ({ q with latest := none }, q.latest)

def close (_ : LatestFrameQueue) : LatestFrameQueue := { latest := none, closed := true }

end LatestFrameQueue

end CameraStream.Client
