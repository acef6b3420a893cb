/-
  CameraStream.Client.QueueStatements

  The member functions of `LatestFrameQueue` (latest_frame_queue.hpp), statement by
  statement, under any number of threads.

  CameraStream.Client.LatestFrameQueue has `push`, `pop_for` and `close` as one operation
  each, and CameraStream.Client.QueueThreads as one critical section each.  Here they are
  bodies whose statements those of other threads may come between, as far as the mutex lets
  them: between the statements of `pop_for` the queue holds a frame that has been moved
  from, and between those of `close` a frame although it is closed.  `queueOutline` is the
  proof that each body, run alone, does what the operation does, and `queue_linearizable`
  that nobody ever sees more of it.
-/

import CameraStream.Client.QueueThreads
import CameraStream.Lib.MonitorBodies

namespace CameraStream.Client.LatestFrameQueue

open EventMachine Monitor

/-! ## The bodies -/

/-- The statements of the member functions, with their local variables. -/
inductive QueueStatement where
  /-- `if (closed_)` -/
  | testClosed (frame : Frame)
  /-- `replaced = latest_.has_value()` -/
  | lookForFrame (frame : Frame)
  /-- `latest_ = std::move(frame)` -/
  | store (frame : Frame) (replaced : Bool)
  /-- `ready_.notify_one()` -/
  | notifyOne (replaced : Bool)
  /-- The predicate in `ready_.wait_for`; the flag tells whether the time is up. -/
  | waitFor (expired : Bool)
  /-- `if (!ready || !latest_)` -/
  | testReady (ready : Bool)
  /-- `result = std::move(*latest_)` -/
  | moveOut
  /-- `latest_.reset()` in `pop_for` -/
  | reset (result : Frame)
  /-- `return result` -/
  | giveBack (result : Frame)
  /-- `closed_ = true` -/
  | setClosed
  /-- `latest_.reset()` in `close` -/
  | drop
  /-- `ready_.notify_all()` -/
  | notifyAll

/-- The first statement under the mutex. -/
def firstStatement : QueueOp → Bool → QueueStatement
  | .push frame, _ => .testClosed frame
  | .popFor, expired => .waitFor expired
  | .close, _ => .setClosed

/-- What is left of a frame that has been moved from: a vector gives up its elements. -/
def movedFrom (frame : Frame) : Frame := { frame with jpeg := [] }

def statement : QueueStatement → LatestFrameQueue →
    Action LatestFrameQueue QueueResult QueueStatement
  | .testClosed frame, q =>
      if q.closed then .finish (.pushed false) .nobody else .goto (.lookForFrame frame) q
  | .lookForFrame frame, q => .goto (.store frame q.latest.isSome) q
  | .store frame replaced, q => .goto (.notifyOne replaced) { q with latest := some frame }
  | .notifyOne replaced, _ => .finish (.pushed replaced) .one
  | .waitFor expired, q =>
      if q.closed || q.latest.isSome then .goto (.testReady true) q
      -- `wait_for` looks once more when its time is up, and returns what it sees
      else if expired then .goto (.testReady false) q
      else .wait
  | .testReady ready, q =>
      if !ready || q.latest.isNone then .finish (.popped none) .nobody else .goto .moveOut q
  | .moveOut, q =>
      match q.latest with
      | some frame => .goto (.reset frame) { q with latest := some (movedFrom frame) }
      -- not reached, for the test has just seen a frame
      | none => .finish (.popped none) .nobody
  | .reset result, q => .goto (.giveBack result) { q with latest := none }
  | .giveBack result, _ => .finish (.popped (some result)) .nobody
  | .setClosed, q => .goto .drop { q with closed := true }
  | .drop, q => .goto .notifyAll { q with latest := none }
  | .notifyAll, _ => .finish .closed .everybody

def queueBody : Body LatestFrameQueue QueueOp QueueResult QueueStatement :=
  ⟨firstStatement, statement⟩

abbrev QueueWorking (τ : Type) := Working τ LatestFrameQueue QueueOp QueueResult QueueStatement

def statementStart (τ : Type) : EventMachine.Config (QueueWorking τ) (QueueOutput τ) :=
  .start (.start ({} : LatestFrameQueue))

/-! ## The outline -/

/-- What holds before each statement: the operation, whether its time is up, the queue when
    the section began, and the queue now. -/
inductive Before :
    QueueOp → Bool → LatestFrameQueue → QueueStatement → LatestFrameQueue → Prop where
  | testClosed (frame : Frame) {expired : Bool} {q : LatestFrameQueue} :
      Before (.push frame) expired q (.testClosed frame) q
  | lookForFrame (frame : Frame) {expired : Bool} {q : LatestFrameQueue}
      (hopen : q.closed = false) : Before (.push frame) expired q (.lookForFrame frame) q
  | store (frame : Frame) {expired : Bool} {q : LatestFrameQueue} (hopen : q.closed = false) :
      Before (.push frame) expired q (.store frame q.latest.isSome) q
  | notifyOne (frame : Frame) {expired : Bool} {q : LatestFrameQueue}
      (hopen : q.closed = false) :
      Before (.push frame) expired q (.notifyOne q.latest.isSome) { q with latest := some frame }
  | waitFor {expired : Bool} {q : LatestFrameQueue} :
      Before .popFor expired q (.waitFor expired) q
  | testReady {expired ready : Bool} {q : LatestFrameQueue}
      (hgo : (LatestFrameQueue.ready .popFor q || expired) = true)
      (hready : ready = false → q.latest = none) : Before .popFor expired q (.testReady ready) q
  | moveOut {expired : Bool} {q : LatestFrameQueue} (hsome : q.latest.isSome = true) :
      Before .popFor expired q .moveOut q
  | reset {expired : Bool} {q : LatestFrameQueue} {frame : Frame}
      (hlatest : q.latest = some frame) :
      Before .popFor expired q (.reset frame) { q with latest := some (movedFrom frame) }
  | giveBack {expired : Bool} {q : LatestFrameQueue} {frame : Frame}
      (hlatest : q.latest = some frame) :
      Before .popFor expired q (.giveBack frame) { q with latest := none }
  | setClosed {expired : Bool} {q : LatestFrameQueue} : Before .close expired q .setClosed q
  | drop {expired : Bool} {q : LatestFrameQueue} :
      Before .close expired q .drop { q with closed := true }
  | notifyAll {expired : Bool} {q : LatestFrameQueue} :
      Before .close expired q .notifyAll { latest := none, closed := true }

section Statements

variable {op : QueueOp} {expired : Bool} {q now now' : LatestFrameQueue} {p p' : QueueStatement}
  {result : QueueResult} {wake : Wake}

theorem before_first (op : QueueOp) (expired : Bool) (q : LatestFrameQueue) :
    Before op expired q (firstStatement op expired) q := by
  cases op with
  | push frame => exact .testClosed frame
  | popFor => exact .waitFor
  | close => exact .setClosed

theorem before_next (h : Before op expired q p now) (hgoto : statement p now = .goto p' now') :
    Before op expired q p' now' := by
  cases h with
  | testClosed frame =>
      simp only [statement] at hgoto
      split at hgoto
      · cases hgoto
      · next hopen =>
          cases hgoto
          exact .lookForFrame frame (Bool.eq_false_of_not_eq_true hopen)
  | lookForFrame frame hopen =>
      cases hgoto
      exact .store frame hopen
  | store frame hopen =>
      cases hgoto
      exact .notifyOne frame hopen
  | notifyOne => cases hgoto
  | waitFor =>
      simp only [statement] at hgoto
      split at hgoto
      · next hready =>
          cases hgoto
          exact .testReady (Bool.or_eq_true_iff.mpr (.inl hready)) nofun
      · next hnot =>
          split at hgoto
          · next hexpired =>
              cases hgoto
              have hnone : q.closed = false ∧ q.latest = none := by simpa using hnot
              exact .testReady (Bool.or_eq_true_iff.mpr (.inr hexpired)) fun _ => hnone.2
          · cases hgoto
  | testReady hgo hready =>
      simp only [statement] at hgoto
      split at hgoto
      · cases hgoto
      · next hsome =>
          cases hgoto
          refine .moveOut ?_
          cases hlatest : q.latest with
          | some frame => rfl
          | none => simp [hlatest] at hsome
  | moveOut hsome =>
      simp only [statement] at hgoto
      split at hgoto
      · next frame hlatest =>
          cases hgoto
          exact .reset hlatest
      · cases hgoto
  | reset hlatest =>
      cases hgoto
      exact .giveBack hlatest
  | giveBack => cases hgoto
  | setClosed =>
      cases hgoto
      exact .drop
  | drop =>
      cases hgoto
      exact .notifyAll
  | notifyAll => cases hgoto

/-- Only `wait_for` waits, when its predicate does not hold and its time is not up. -/
theorem before_wait (h : Before op expired q p now) (hwait : statement p now = .wait) :
    now = q ∧ (ready op q || expired) = false := by
  cases h with
  | waitFor =>
      simp only [statement] at hwait
      split at hwait
      · cases hwait
      · next hnot =>
          split at hwait
          · cases hwait
          · next hexpired => exact ⟨rfl, by simpa [ready, hexpired] using hnot⟩
  | testClosed | testReady | moveOut =>
      simp only [statement] at hwait
      split at hwait
      · cases hwait
      · cases hwait
  | lookForFrame | store | notifyOne | reset | giveBack | setClosed | drop | notifyAll =>
      cases hwait

/-- The last statements come to what the operations do. -/
theorem before_finish (h : Before op expired q p now)
    (hfinish : statement p now = .finish result wake) :
    (ready op q || expired) = true ∧ run op q = (now, result) ∧ wakes op q = wake := by
  cases h with
  | testClosed frame =>
      simp only [statement] at hfinish
      split at hfinish
      · next hclosed =>
          cases hfinish
          exact ⟨rfl, by rw [run, push, if_pos hclosed], if_pos hclosed⟩
      · cases hfinish
  | notifyOne frame hopen =>
      cases hfinish
      have hnot : ¬ q.closed = true := by rw [hopen]; exact Bool.noConfusion
      exact ⟨rfl, by rw [run, push, if_neg hnot], if_neg hnot⟩
  | testReady hgo hready =>
      simp only [statement] at hfinish
      split at hfinish
      · next hnothing =>
          cases hfinish
          -- there is no frame, so that taking it out changes nothing
          have hnone : q.latest = none := by
            obtain hfalse | hnone := Bool.or_eq_true_iff.mp hnothing
            · exact hready (by simpa using hfalse)
            · exact Option.isNone_iff_eq_none.mp hnone
          refine ⟨hgo, ?_, rfl⟩
          obtain ⟨latest, closed⟩ := q
          cases hnone
          rfl
      · cases hfinish
  | moveOut hsome =>
      simp only [statement] at hfinish
      split at hfinish
      · cases hfinish
      · next hnone =>
          rw [hnone] at hsome
          cases hsome
  | giveBack hlatest =>
      cases hfinish
      refine ⟨?_, ?_, rfl⟩
      · rw [ready, hlatest, Option.isSome_some, Bool.or_true, Bool.true_or]
      · rw [run, popFor, hlatest]
  | notifyAll =>
      cases hfinish
      exact ⟨rfl, rfl, rfl⟩
  | waitFor =>
      simp only [statement] at hfinish
      split at hfinish
      · cases hfinish
      · split at hfinish
        · cases hfinish
        · cases hfinish
  | lookForFrame | store | reset | setClosed | drop => cases hfinish

end Statements

/-- Each member function does what its operation does. -/
def queueOutline : Outline queueBody queueMonitor where
  holds := Before
  start := before_first
  goto := before_next
  wait := before_wait
  finish := before_finish

/-! ## One operation after the other -/

variable {τ : Type} [DecidableEq τ] [Fintype τ] {es : List (Body.Event τ QueueOp)}
  {c : EventMachine.Config (QueueWorking τ) (QueueOutput τ)}

/-- **The queue is linearizable.**  Whatever the interleaving of the statements, the calls and
    the returns of all threads are those of a queue on which each call takes effect at one
    instant between the two.  At most one thread is between taking the mutex and giving it
    back, and while nobody is, the queue is what the operations so far make of it. -/
theorem queue_linearizable
    (hrun : (queueBody.machine τ).exec (statementStart τ) es = some c) :
    Linearizable queueMonitor {} (visible c.history) ∧
      (∀ t u, (c.state.threads.phase t).holds = true →
        (c.state.threads.phase u).holds = true → t = u) ∧
      (c.state.threads.owner = none → ∃ ops, (sequential τ queueMonitor).exec (.start {}) ops =
        some ⟨c.state.threads.shared, performed c.history⟩) :=
  ⟨queueOutline.linearizable_run hrun, queueOutline.exclusive_statements hrun,
    queueOutline.settled_of_free hrun⟩

/-- Thread `false` waits for a frame.  While thread `true` pushes one, it wakes up without a
    reason, and has to wait for the mutex; then it takes the frame.  When it pops again, its
    time is up before another frame comes. -/
def handoverStatements : List (Body.Event Bool QueueOp) :=
  [.thread (.call false .popFor), .thread (.acquire false), .thread (.sleeps false),
    .thread (.call true (.push { jpeg := ascii "jpeg" })), .thread (.acquire true),
    .executes true, .executes true, .thread (.stirs false false), .executes true,
    .thread (.runs true none), .thread (.release true),
    .thread (.acquire false), .executes false, .executes false, .executes false,
    .executes false, .thread (.runs false none), .thread (.release false),
    .thread (.call false .popFor), .thread (.acquire false), .thread (.sleeps false),
    .thread (.stirs false true), .thread (.acquire false), .executes false,
    .thread (.runs false none), .thread (.release false)]

theorem handover_linearizable : ∃ c,
    (queueBody.machine Bool).exec (statementStart Bool) handoverStatements = some c ∧
      (visible c.history).length = 6 ∧ Linearizable queueMonitor {} (visible c.history) ∧
      ∃ ops, (sequential Bool queueMonitor).exec (.start {}) ops =
        some ⟨c.state.threads.shared, performed c.history⟩ := by
  have hany : ((queueBody.machine Bool).exec (statementStart Bool) handoverStatements).any
      (fun c => c.state.threads.owner = none ∧ (visible c.history).length = 6) = true := by
    decide +kernel
  obtain ⟨c, hrun, hboth⟩ := (Option.any_eq_true _ _).mp hany
  obtain ⟨hfree, hlen⟩ := of_decide_eq_true hboth
  obtain ⟨hlinearizable, -, hsettled⟩ := queue_linearizable hrun
  exact ⟨c, hrun, hlen, hlinearizable, hsettled hfree⟩

end CameraStream.Client.LatestFrameQueue
