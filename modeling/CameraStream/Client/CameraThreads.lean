/-
  CameraStream.Client.CameraThreads

  The two threads of `CameraProcess` (camera_process.cpp) and the processes around them.

  The owner calls `start()` and `stop()`; the capture thread runs `capture_loop`.  A step
  is what one thread does between two points at which the other can be seen: a section
  under `child_mutex_` is one step, and so is each look at the stop token, each system
  call and each turn of the read loop.  Steps of the two threads, and of the processes
  (a process ends, an unrelated one starts), happen in any order.

  The read loop itself is `captureLoop`; here it is cut at the two places where
  `stop_requested()` is read, so that `stop()` can run between `read` and the test that
  follows.  `captureLoop_of_run` is the connection.
-/

import Mathlib.Data.Bool.Basic
import CameraStream.Lib.ProcessTable
import CameraStream.Client.CameraProcess

namespace CameraStream.Client

open EventMachine

/-! ## State -/

/-- Where the owner is: outside, or in `stop()`. -/
inductive StopPc where
  | outside
  /-- `request_stop()` has returned; the section under the mutex is next. -/
  | requested
  /-- In `thread_.join()`. -/
  | joining
  deriving DecidableEq

/-- Where the capture thread is in `capture_loop`. -/
inductive LoopPc where
  /-- There is no thread: `thread_.joinable()` is false. -/
  | absent
  | opening
  | forking
  /-- The child exists; `child_pid_` is not written yet. -/
  | publishing
  /-- At the condition of the read loop. -/
  | head
  | reading
  /-- `read` has returned 0; `stop_requested()` is next. -/
  | eofCheck
  /-- Behind the read loop. -/
  | closing
  | killing
  /-- In `waitpid`. -/
  | waiting
  /-- `waitpid` has returned; `child_pid_` is not reset yet. -/
  | reaped
  | ended
  deriving DecidableEq

/-- The child has been forked and `waitpid` has not returned. -/
def LoopPc.hasChild : LoopPc → Bool
  | .publishing | .head | .reading | .eofCheck | .closing | .killing | .waiting => true
  | _ => false

/-- `child_pid_` has been written and not been reset. -/
def LoopPc.published : LoopPc → Bool
  | .head | .reading | .eofCheck | .closing | .killing | .waiting | .reaped => true
  | _ => false

/-- The child exists, and `capture_loop` has not decided yet who sends the signal. -/
def LoopPc.asking : LoopPc → Bool
  | .publishing | .head | .reading | .eofCheck | .closing => true
  | _ => false

structure CameraThreads where
  childPid : Int := -1
  stopRequested : Bool := false
  stop : StopPc := .outside
  thread : LoopPc := .absent
  /-- The local `pid` of `capture_loop`. -/
  pid : Int := -1
  /-- The other locals of its read loop. -/
  loop : CaptureState := {}
  processes : ProcessTable := fun _ => none

/-- What a `read` call returns. -/
inductive ReadResult where
  | data (chunk : Bytes)
  | eof
  | interrupted
  | failed (reason : String)

inductive ThreadEvent where
  /-- The owner calls `start()`. -/
  | start
  /-- The owner calls `stop()`, which runs up to `request_stop()`. -/
  | stopCall
  /-- The section of `stop()` under the mutex. -/
  | inspect
  | join
  /-- `pipe`; a text is `strerror(errno)` of a failure. -/
  | pipe (failure : Option String)
  | fork (result : Except String Int)
  | publish
  | head
  | read (result : ReadResult)
  | eofCheck
  /-- `close(pipe_fds[0])` and the last look at the stop token. -/
  | finish
  | kill
  /-- `waitpid` returns, or is interrupted. -/
  | wait (interrupted : Bool)
  | clear
  /-- A process ends. -/
  | exits (pid : Int)
  /-- Somebody else starts a process. -/
  | spawns (pid : Int)

/-- Who calls `kill`. -/
inductive Sender where
  | stop
  | captureLoop
  deriving DecidableEq

inductive ThreadOutput where
  /-- `start()` throws. -/
  | threw (message : String)
  /-- `capture_loop` calls `on_frame` or `on_error`. -/
  | callback (call : CaptureOutput)
  | forked (pid : Int)
  | published
  /-- The section of `stop()` has run. -/
  | inspected
  /-- SIGTERM is sent to a number; `found` is what has the number at that moment. -/
  | signalled (sender : Sender) (pid : Int) (found : Option Process)
  | reaped (pid : Int)

def alreadyRunningMessage : String := "camera capture is already running"

def pipeFailedMessage (reason : String) : String := "pipe() failed: " ++ reason

def forkFailedMessage (reason : String) : String := "fork() failed: " ++ reason

namespace CameraThreads

/-! ## Steps -/

/-- A step of the read loop, after which the capture thread is at `next`. -/
def turn (clock : Nat → Int) (s : CameraThreads) (e : ReadEvent) (next : LoopPc) :
    Option (CameraThreads × List ThreadOutput) :=
  (captureStep clock s.loop e).map fun r =>
    ({ s with loop := r.1, thread := next }, r.2.map .callback)

/-- The steps of the owner. -/
def ownerStep (s : CameraThreads) : ThreadEvent → Option (CameraThreads × List ThreadOutput)
  | .start =>
      if s.stop = .outside then
        if s.thread = .absent then
          -- a new thread comes with a new stop token
          some ({ s with thread := .opening, stopRequested := false }, [])
        else some (s, [.threw alreadyRunningMessage])
      else none
  | .stopCall =>
      if s.stop = .outside then
        if s.thread = .absent then some (s, [])
        else some ({ s with stopRequested := true, stop := .requested }, [])
      else none
  | .inspect =>
      if s.stop = .requested then
        if 0 < s.childPid then
          -- what `kill` returns is ignored
          some ({ s with processes := s.processes.signal s.childPid, stop := .joining },
            [.signalled .stop s.childPid (s.processes s.childPid), .inspected])
        else some ({ s with stop := .joining }, [.inspected])
      else none
  | .join =>
      if s.stop = .joining ∧ s.thread = .ended then
        some ({ s with stop := .outside, thread := .absent }, [])
      else none
  | _ => none

/-- The steps of the capture thread. -/
def threadStep (clock : Nat → Int) (s : CameraThreads) :
    ThreadEvent → Option (CameraThreads × List ThreadOutput)
  | .pipe failure =>
      if s.thread = .opening then
        match failure with
        | none => some ({ s with thread := .forking }, [])
        | some reason =>
            some ({ s with thread := .ended }, [.callback (.onError (pipeFailedMessage reason))])
      else none
  | .fork result =>
      if s.thread = .forking then
        match result with
        | .error reason =>
            some ({ s with thread := .ended }, [.callback (.onError (forkFailedMessage reason))])
        | .ok pid =>
            (s.processes.spawn pid true).map fun processes =>
              ({ s with pid := pid, thread := .publishing, processes := processes },
                [.forked pid])
      else none
  | .publish =>
      if s.thread = .publishing then
        some ({ s with childPid := s.pid, loop := {}, thread := .head }, [.published])
      else none
  | .head =>
      if s.thread = .head then
        if s.stopRequested then s.turn clock .stopRequested .closing
        else some ({ s with thread := .reading }, [])
      else none
  | .read result =>
      if s.thread = .reading then
        match result with
        | .data chunk => s.turn clock (.data chunk) .head
        | .eof => some ({ s with thread := .eofCheck }, [])
        | .interrupted => s.turn clock .interrupted .head
        | .failed reason => s.turn clock (.failed reason) .closing
      else none
  | .eofCheck =>
      if s.thread = .eofCheck then s.turn clock (.eof s.stopRequested) .closing else none
  | .finish =>
      if s.thread = .closing then
        if s.stopRequested then some ({ s with thread := .waiting }, [])
        else some ({ s with thread := .killing }, [])
      else none
  | .kill =>
      if s.thread = .killing then
        some ({ s with processes := s.processes.signal s.pid, thread := .waiting },
          [.signalled .captureLoop s.pid (s.processes s.pid)])
      else none
  | .wait interrupted =>
      if s.thread = .waiting then
        if interrupted then some (s, [])
        else
          -- until `waitpid` returns the number is the child's, so it cannot fail with ECHILD
          (s.processes.reap s.pid).map fun processes =>
            ({ s with thread := .reaped, processes := processes }, [.reaped s.pid])
      else none
  | .clear =>
      if s.thread = .reaped then some ({ s with childPid := -1, thread := .ended }, [])
      else none
  | _ => none

def step (clock : Nat → Int) (s : CameraThreads) (e : ThreadEvent) :
    Option (CameraThreads × List ThreadOutput) :=
  match e with
  | .start | .stopCall | .inspect | .join => s.ownerStep e
  | .exits pid => (s.processes.exit pid).map fun t => ({ s with processes := t }, [])
  | .spawns pid => (s.processes.spawn pid false).map fun t => ({ s with processes := t }, [])
  | _ => s.threadStep clock e

/-- A `CameraProcess` with its owner, its capture thread and the processes around it. -/
def machine (clock : Nat → Int) : EventMachine CameraThreads ThreadEvent ThreadOutput :=
  ⟨step clock⟩

/-! ## Outcomes -/

/-- Steps of the capture thread that change nothing but its place. -/
inductive Move (s : CameraThreads) : ThreadEvent → LoopPc → List CaptureOutput → Prop where
  | piped (h : s.thread = .opening) : Move s (.pipe none) .forking []
  | pipeFailed (reason : String) (h : s.thread = .opening) :
      Move s (.pipe (some reason)) .ended [.onError (pipeFailedMessage reason)]
  | forkFailed (reason : String) (h : s.thread = .forking) :
      Move s (.fork (.error reason)) .ended [.onError (forkFailedMessage reason)]
  | reads (h : s.thread = .head) (hstop : s.stopRequested = false) : Move s .head .reading []
  | closed (h : s.thread = .reading) : Move s (.read .eof) .eofCheck []
  | leaves (h : s.thread = .closing) (hstop : s.stopRequested = true) : Move s .finish .waiting []
  | kills (h : s.thread = .closing) (hstop : s.stopRequested = false) : Move s .finish .killing []
  | interrupted (h : s.thread = .waiting) : Move s (.wait true) .waiting []

/-- Steps of the read loop. -/
inductive Turn (s : CameraThreads) : ThreadEvent → ReadEvent → LoopPc → Prop where
  | stopped (h : s.thread = .head) (hstop : s.stopRequested = true) :
      Turn s .head .stopRequested .closing
  | data (chunk : Bytes) (h : s.thread = .reading) :
      Turn s (.read (.data chunk)) (.data chunk) .head
  | interrupted (h : s.thread = .reading) : Turn s (.read .interrupted) .interrupted .head
  | failed (reason : String) (h : s.thread = .reading) :
      Turn s (.read (.failed reason)) (.failed reason) .closing
  | eof (h : s.thread = .eofCheck) : Turn s .eofCheck (.eof s.stopRequested) .closing

/-- One step, by outcome. -/
inductive Step (clock : Nat → Int) (s : CameraThreads) :
    ThreadEvent → CameraThreads × List ThreadOutput → Prop where
  | move {e : ThreadEvent} {next : LoopPc} {calls : List CaptureOutput} (h : Move s e next calls) :
      Step clock s e ({ s with thread := next }, calls.map .callback)
  | turn {e : ThreadEvent} {read : ReadEvent} {next : LoopPc}
      {r : CaptureState × List CaptureOutput} (h : Turn s e read next)
      (hloop : captureStep clock s.loop read = some r) :
      Step clock s e ({ s with loop := r.1, thread := next }, r.2.map .callback)
  | started (hstop : s.stop = .outside) (hthread : s.thread = .absent) :
      Step clock s .start ({ s with thread := .opening, stopRequested := false }, [])
  | alreadyRunning (hstop : s.stop = .outside) (hthread : s.thread ≠ .absent) :
      Step clock s .start (s, [.threw alreadyRunningMessage])
  | nothing (hstop : s.stop = .outside) (hthread : s.thread = .absent) :
      Step clock s .stopCall (s, [])
  | requested (hstop : s.stop = .outside) (hthread : s.thread ≠ .absent) :
      Step clock s .stopCall ({ s with stopRequested := true, stop := .requested }, [])
  | killsChild (hstop : s.stop = .requested) (hpid : 0 < s.childPid) :
      Step clock s .inspect
        ({ s with processes := s.processes.signal s.childPid, stop := .joining },
          [.signalled .stop s.childPid (s.processes s.childPid), .inspected])
  | noChild (hstop : s.stop = .requested) (hpid : ¬ 0 < s.childPid) :
      Step clock s .inspect ({ s with stop := .joining }, [.inspected])
  | joined (hstop : s.stop = .joining) (hthread : s.thread = .ended) :
      Step clock s .join ({ s with stop := .outside, thread := .absent }, [])
  | forked (pid : Int) (t : ProcessTable) (hthread : s.thread = .forking)
      (hspawn : s.processes.spawn pid true = some t) :
      Step clock s (.fork (.ok pid))
        ({ s with pid := pid, thread := .publishing, processes := t }, [.forked pid])
  | published (hthread : s.thread = .publishing) :
      Step clock s .publish
        ({ s with childPid := s.pid, loop := {}, thread := .head }, [.published])
  | killed (hthread : s.thread = .killing) :
      Step clock s .kill
        ({ s with processes := s.processes.signal s.pid, thread := .waiting },
          [.signalled .captureLoop s.pid (s.processes s.pid)])
  | reaped (t : ProcessTable) (hthread : s.thread = .waiting)
      (hreap : s.processes.reap s.pid = some t) :
      Step clock s (.wait false)
        ({ s with thread := .reaped, processes := t }, [.reaped s.pid])
  | cleared (hthread : s.thread = .reaped) :
      Step clock s .clear ({ s with childPid := -1, thread := .ended }, [])
  | exited (pid : Int) (t : ProcessTable) (hexit : s.processes.exit pid = some t) :
      Step clock s (.exits pid) ({ s with processes := t }, [])
  | spawned (pid : Int) (t : ProcessTable) (hspawn : s.processes.spawn pid false = some t) :
      Step clock s (.spawns pid) ({ s with processes := t }, [])

variable {clock : Nat → Int} {s s' : CameraThreads} {e : ThreadEvent} {next : LoopPc}
  {r : CameraThreads × List ThreadOutput} {out : List ThreadOutput}
  {c c' : EventMachine.Config CameraThreads ThreadOutput} {es : List ThreadEvent}

theorem step_turn {read : ReadEvent} (hturn : Turn s e read next)
    (h : s.turn clock read next = some r) : Step clock s e r := by
  obtain ⟨r', hloop, rfl⟩ := Option.map_eq_some_iff.mp h
  exact .turn hturn hloop

theorem ownerStep_cases (h : s.ownerStep e = some r) : Step clock s e r := by
  cases e with
  | start =>
      obtain ⟨hstop, h⟩ := Option.ite_none_right_eq_some.mp h
      split at h
      · next hthread => cases h; exact .started hstop hthread
      · next hthread => cases h; exact .alreadyRunning hstop hthread
  | stopCall =>
      obtain ⟨hstop, h⟩ := Option.ite_none_right_eq_some.mp h
      split at h
      · next hthread => cases h; exact .nothing hstop hthread
      · next hthread => cases h; exact .requested hstop hthread
  | inspect =>
      obtain ⟨hstop, h⟩ := Option.ite_none_right_eq_some.mp h
      split at h
      · next hpid => cases h; exact .killsChild hstop hpid
      · next hpid => cases h; exact .noChild hstop hpid
  | join =>
      obtain ⟨⟨hstop, hthread⟩, h⟩ := Option.ite_none_right_eq_some.mp h
      cases h
      exact .joined hstop hthread
  | _ => cases h

theorem threadStep_cases (h : s.threadStep clock e = some r) : Step clock s e r := by
  cases e with
  | pipe failure =>
      obtain ⟨hthread, h⟩ := Option.ite_none_right_eq_some.mp h
      cases failure with
      | none => cases h; exact .move (.piped hthread)
      | some reason => cases h; exact .move (.pipeFailed reason hthread)
  | fork result =>
      obtain ⟨hthread, h⟩ := Option.ite_none_right_eq_some.mp h
      cases result with
      | error reason => cases h; exact .move (.forkFailed reason hthread)
      | ok pid =>
          obtain ⟨t, hspawn, rfl⟩ := Option.map_eq_some_iff.mp h
          exact .forked pid t hthread hspawn
  | publish =>
      obtain ⟨hthread, h⟩ := Option.ite_none_right_eq_some.mp h
      cases h
      exact .published hthread
  | head =>
      obtain ⟨hthread, h⟩ := Option.ite_none_right_eq_some.mp h
      split at h
      · next hstop => exact step_turn (.stopped hthread hstop) h
      · next hstop => cases h; exact .move (.reads hthread (Bool.eq_false_of_not_eq_true hstop))
  | read result =>
      obtain ⟨hthread, h⟩ := Option.ite_none_right_eq_some.mp h
      cases result with
      | data chunk => exact step_turn (.data chunk hthread) h
      | eof => cases h; exact .move (.closed hthread)
      | interrupted => exact step_turn (.interrupted hthread) h
      | failed reason => exact step_turn (.failed reason hthread) h
  | eofCheck =>
      obtain ⟨hthread, h⟩ := Option.ite_none_right_eq_some.mp h
      exact step_turn (.eof hthread) h
  | finish =>
      obtain ⟨hthread, h⟩ := Option.ite_none_right_eq_some.mp h
      split at h
      · next hstop => cases h; exact .move (.leaves hthread hstop)
      · next hstop => cases h; exact .move (.kills hthread (Bool.eq_false_of_not_eq_true hstop))
  | kill =>
      obtain ⟨hthread, h⟩ := Option.ite_none_right_eq_some.mp h
      cases h
      exact .killed hthread
  | wait interrupted =>
      obtain ⟨hthread, h⟩ := Option.ite_none_right_eq_some.mp h
      cases interrupted with
      | true =>
          cases h
          have hsame : { s with thread := .waiting } = s := by rw [← hthread]
          have hmove : Step clock s (.wait true) ({ s with thread := .waiting }, _) :=
            .move (.interrupted hthread)
          rwa [hsame] at hmove
      | false =>
          obtain ⟨t, hreap, rfl⟩ := Option.map_eq_some_iff.mp h
          exact .reaped t hthread hreap
  | clear =>
      obtain ⟨hthread, h⟩ := Option.ite_none_right_eq_some.mp h
      cases h
      exact .cleared hthread
  | _ => cases h

/-- **The outcomes are all there are.** -/
theorem step_cases (h : step clock s e = some r) : Step clock s e r := by
  cases e with
  | start => exact ownerStep_cases h
  | stopCall => exact ownerStep_cases h
  | inspect => exact ownerStep_cases h
  | join => exact ownerStep_cases h
  | exits pid =>
      obtain ⟨t, hexit, rfl⟩ := Option.map_eq_some_iff.mp h
      exact .exited pid t hexit
  | spawns pid =>
      obtain ⟨t, hspawn, rfl⟩ := Option.map_eq_some_iff.mp h
      exact .spawned pid t hspawn
  | _ => exact threadStep_cases h

/-- A step of a run, by outcome. -/
theorem next_cases (h : (machine clock).next c e = some c') :
    ∃ out, Step clock c.state e (c'.state, out) ∧ c'.history = c.history ++ out := by
  obtain ⟨out, hstep, hhist⟩ := next_eq_some h
  exact ⟨out, step_cases hstep, hhist⟩

/-! ## The read loop -/

theorem Move.published {calls : List CaptureOutput} (h : Move s e next calls) :
    next.published = s.thread.published := by
  cases h with
  | piped h => rw [h]; rfl
  | pipeFailed reason h => rw [h]; rfl
  | forkFailed reason h => rw [h]; rfl
  | reads h hstop => rw [h]; rfl
  | closed h => rw [h]; rfl
  | leaves h hstop => rw [h]; rfl
  | kills h hstop => rw [h]; rfl
  | interrupted h => rw [h]

theorem Turn.published {read : ReadEvent} (h : Turn s e read next) :
    next.published = true ∧ s.thread.published = true := by
  cases h with
  | stopped h hstop => rw [h]; exact ⟨rfl, rfl⟩
  | data chunk h => rw [h]; exact ⟨rfl, rfl⟩
  | interrupted h => rw [h]; exact ⟨rfl, rfl⟩
  | failed reason h => rw [h]; exact ⟨rfl, rfl⟩
  | eof h => rw [h]; exact ⟨rfl, rfl⟩

def isPublished : ThreadOutput → Bool
  | .published => true
  | _ => false

/-- The calls of `on_frame` and `on_error` in a history. -/
def callbacksOf (h : List ThreadOutput) : List CaptureOutput :=
  h.filterMap fun
    | .callback call => some call
    | _ => none

theorem callbacksOf_append (h h' : List ThreadOutput) :
    callbacksOf (h ++ h') = callbacksOf h ++ callbacksOf h' := List.filterMap_append

theorem callbacksOf_callbacks (calls : List CaptureOutput) :
    callbacksOf (calls.map .callback) = calls := by
  rw [callbacksOf, List.filterMap_map]
  exact List.filterMap_some

/-- Since the child was published the capture thread has run `captureLoop`. -/
def FollowsLoop (clock : Nat → Int) (c : EventMachine.Config CameraThreads ThreadOutput) : Prop :=
  c.state.thread.published = true →
    ∃ reads, (captureLoop clock).exec (.start {}) reads =
      some ⟨c.state.loop, callbacksOf (sinceLast isPublished c.history)⟩

/-- A step that is none of the read loop. -/
theorem FollowsLoop.keep (h : FollowsLoop clock c)
    (hpublished : s'.thread.published = true → c.state.thread.published = true)
    (hloop : s'.loop = c.state.loop) (hmarks : ∀ o ∈ out, isPublished o = false)
    (hcalls : callbacksOf out = []) : FollowsLoop clock ⟨s', c.history ++ out⟩ := by
  intro hn
  obtain ⟨reads, hreads⟩ := h (hpublished hn)
  refine ⟨reads, ?_⟩
  rw [sinceLast_append hmarks, callbacksOf_append, hcalls, List.append_nil, hreads]
  exact congrArg (fun loop => some (EventMachine.Config.mk loop _)) hloop.symm

theorem FollowsLoop.step (h : FollowsLoop clock c) (hstep : Step clock c.state e (s', out)) :
    FollowsLoop clock ⟨s', c.history ++ out⟩ := by
  cases hstep with
  | @move _ next calls hmove =>
      -- the calls of a failed start come before any publication
      have hcalls : next.published = true → calls = [] := by
        intro hn
        cases hmove with
        | pipeFailed reason hthread => cases hn
        | forkFailed reason hthread => cases hn
        | _ => rfl
      intro hn
      obtain rfl := hcalls hn
      exact h.keep (fun hn => hmove.published.symm.trans hn) rfl nofun rfl hn
  | @turn _ read _ r hturn hloop =>
      intro _
      obtain ⟨reads, hreads⟩ := h hturn.published.2
      refine ⟨reads ++ [read], ?_⟩
      have hmarks : ∀ o ∈ r.2.map ThreadOutput.callback, isPublished o = false := by
        intro o ho
        obtain ⟨call, -, rfl⟩ := List.mem_map.mp ho
        rfl
      rw [sinceLast_append hmarks, callbacksOf_append, callbacksOf_callbacks, exec_append, hreads,
        Option.bind_some, exec_cons, next_of_step hloop, Option.bind_some, exec_nil]
  | published hthread =>
      intro _
      refine ⟨[], ?_⟩
      rw [sinceLast_concat]
      rfl
  | alreadyRunning hstop hthread => exact h.keep id rfl (by simp [isPublished]) rfl
  | nothing hstop hthread => exact h.keep id rfl nofun rfl
  | requested hstop hthread => exact h.keep id rfl nofun rfl
  | killsChild hstop hpid => exact h.keep id rfl (by simp [isPublished]) rfl
  | noChild hstop hpid => exact h.keep id rfl (by simp [isPublished]) rfl
  | killed hthread =>
      exact h.keep (fun _ => by rw [hthread]; rfl) rfl (by simp [isPublished]) rfl
  | reaped t hthread hreap =>
      exact h.keep (fun _ => by rw [hthread]; rfl) rfl (by simp [isPublished]) rfl
  | exited pid t hexit => exact h.keep id rfl nofun rfl
  | spawned pid t hspawn => exact h.keep id rfl nofun rfl
  | started hstop hthread => exact nofun
  | joined hstop hthread => exact nofun
  | forked pid t hthread hspawn => exact nofun
  | cleared hthread => exact nofun

/-- **The capture thread runs the read loop**, whatever the owner and the processes do in
    between. -/
theorem captureLoop_of_run (hrun : (machine clock).exec (.start {}) es = some c) :
    FollowsLoop clock c := by
  have hstart : FollowsLoop clock (.start {}) := nofun
  refine exec_invariant ?_ hstart hrun
  intro c e c' h hnext
  obtain ⟨out, hstep, hhist⟩ := next_cases hnext
  have hfollows := h.step hstep
  rwa [← hhist] at hfollows

end CameraThreads

end CameraStream.Client
