/-
  CameraStream.Client.CaptureClient

  The whole client: `capture_loop` calling back into `Application::run`.

  The capture thread reads, splits what it has read, and makes the callbacks of that read
  one after the other before it reads again; each callback runs in the steps that
  CameraStream.Client.Application gives it, between those of the main thread.  So a
  configuration holds both parts and the callbacks that are still to be made.

  `appSimulation` and `loopSimulation` are the two projections: a run of the client is a
  run of `Application::run`, and one of the read loop.
-/

import CameraStream.Client.ApplicationSteps
import CameraStream.Client.CameraProcess

namespace CameraStream.Client

open EventMachine

structure CaptureClient where
  app : Application
  loop : CaptureState := {}
  /-- The callbacks of the last read that have not been made yet. -/
  calls : List CaptureOutput := []

namespace CaptureClient

inductive Event where
  /-- The capture thread goes through its loop head and `read`. -/
  | read (e : ReadEvent)
  | app (e : Application.Event)

inductive Output where
  /-- A callback begins. -/
  | called (call : CaptureOutput)
  /-- `push` has been called; whether the queue has taken the frame, and the stop flag. -/
  | pushed (frame : Frame) (placed : Bool) (stopRequested : Bool)
  | app (o : Application.Output)

/-- The stop token is set by `camera.stop()`, which the clean-up calls. -/
def mayRead (s : CaptureClient) : ReadEvent → Bool
  | .stopRequested | .eof true =>
      match s.app.main with
      | .joining => true
      | _ => false
  | _ => true

/-- The callbacks that are left when the step `e` of the application is taken, and what is
    seen of it.  The frame and error callbacks begin with the next call of the capture
    thread; `camera.stop()` returns when its thread has ended. -/
def callback (s : CaptureClient) : Application.Event → Option (List CaptureOutput × List Output)
  | .frameCaptured frame =>
      match s.calls with
      | .onFrame next :: rest =>
          if next = frame then some (rest, [.called (.onFrame next)]) else none
      | _ => none
  | .cameraError =>
      match s.calls with
      | .onError message :: rest => some (rest, [.called (.onError message)])
      | _ => none
  | .framePushed =>
      match s.app.capture with
      | .counted frame => some (s.calls, [.pushed frame (!s.app.frames.closed) s.app.stopRequested])
      | _ => none
  | .joined => if !s.loop.running && s.calls.isEmpty then some (s.calls, []) else none
  | _ => some (s.calls, [])

def step (parse : Bytes → Option JsonValue) (clock : Nat → Int) (s : CaptureClient) :
    Event → Option (CaptureClient × List Output)
  | .read e =>
      -- the callbacks of the read before have returned
      if s.app.capturing && s.calls.isEmpty && s.app.capture = .idle && s.mayRead e then
        (captureStep clock s.loop e).map fun r => ({ s with loop := r.1, calls := r.2 }, [])
      else none
  | .app e =>
      (s.callback e).bind fun k =>
        (s.app.step parse e).map fun r =>
          ({ s with app := r.1, calls := k.1 }, k.2 ++ r.2.map .app)

def machine (parse : Bytes → Option JsonValue) (clock : Nat → Int) :
    EventMachine CaptureClient Event Output := ⟨step parse clock⟩

variable {parse : Bytes → Option JsonValue} {clock : Nat → Int} {s : CaptureClient}
  {c c' : EventMachine.Config CaptureClient Output}

/-! ## Inversion -/

theorem next_read {read : ReadEvent} (h : (machine parse clock).next c (.read read) = some c') :
    c.state.app.capturing = true ∧ c.state.calls = [] ∧ c.state.app.capture = .idle ∧
      ∃ r, captureStep clock c.state.loop read = some r ∧
        c' = ⟨{ c.state with loop := r.1, calls := r.2 }, c.history⟩ := by
  obtain ⟨out, hstep, hhist⟩ := next_eq_some h
  obtain ⟨hmay, hstep⟩ := Option.ite_none_right_eq_some.mp hstep
  obtain ⟨r, hloop, heq⟩ := Option.map_eq_some_iff.mp hstep
  simp only [Bool.and_eq_true, List.isEmpty_iff, decide_eq_true_eq] at hmay
  obtain ⟨⟨⟨hcapturing, hcalls⟩, hidle⟩, -⟩ := hmay
  obtain ⟨state, history⟩ := c'
  cases heq
  rw [List.append_nil] at hhist
  exact ⟨hcapturing, hcalls, hidle, r, hloop, by rw [← hhist]⟩

theorem next_app {e : Application.Event} (h : (machine parse clock).next c (.app e) = some c') :
    ∃ calls seen r, c.state.callback e = some (calls, seen) ∧ c.state.app.step parse e = some r ∧
      c' = ⟨{ c.state with app := r.1, calls := calls },
        c.history ++ (seen ++ r.2.map .app)⟩ := by
  obtain ⟨out, hstep, hhist⟩ := next_eq_some h
  obtain ⟨⟨calls, seen⟩, hcallback, hstep⟩ := Option.bind_eq_some_iff.mp hstep
  obtain ⟨r, happ, heq⟩ := Option.map_eq_some_iff.mp hstep
  obtain ⟨state, history⟩ := c'
  cases heq
  exact ⟨calls, seen, r, hcallback, happ, by rw [← hhist]⟩

/-! ## The two parts -/

def Output.toApp : Output → Option Application.Output
  | .app o => some o
  | _ => none

def Output.toCall : Output → Option CaptureOutput
  | .called call => some call
  | _ => none

/-- `callback`, by outcome. -/
inductive Callback (s : CaptureClient) :
    Application.Event → List CaptureOutput → List Output → Prop where
  | frame {frame : Frame} {rest : List CaptureOutput} (hcalls : s.calls = .onFrame frame :: rest) :
      Callback s (.frameCaptured frame) rest [.called (.onFrame frame)]
  | error {message : String} {rest : List CaptureOutput}
      (hcalls : s.calls = .onError message :: rest) :
      Callback s .cameraError rest [.called (.onError message)]
  | pushed {frame : Frame} (hcapture : s.app.capture = .counted frame) :
      Callback s .framePushed s.calls [.pushed frame (!s.app.frames.closed) s.app.stopRequested]
  | joined (hrunning : s.loop.running = false) (hcalls : s.calls = []) :
      Callback s .joined s.calls []
  | other {e : Application.Event} (hframe : ∀ frame, e ≠ .frameCaptured frame)
      (herror : e ≠ .cameraError) (hpushed : e ≠ .framePushed) (hjoined : e ≠ .joined) :
      Callback s e s.calls []

theorem callback_cases {e : Application.Event} {calls : List CaptureOutput} {seen : List Output}
    (h : s.callback e = some (calls, seen)) : Callback s e calls seen := by
  cases e with
  | frameCaptured frame =>
      rw [callback] at h
      split at h
      · next call rest hcalls =>
          obtain ⟨rfl, heq⟩ := Option.ite_none_right_eq_some.mp h
          cases heq
          exact .frame hcalls
      · cases h
  | cameraError =>
      rw [callback] at h
      split at h
      · next message rest hcalls => cases h; exact .error hcalls
      · cases h
  | framePushed =>
      rw [callback] at h
      split at h
      · next frame hcapture => cases h; exact .pushed hcapture
      · cases h
  | joined =>
      obtain ⟨hended, heq⟩ := Option.ite_none_right_eq_some.mp h
      cases heq
      simp only [Bool.and_eq_true, Bool.not_eq_true', List.isEmpty_iff] at hended
      exact .joined hended.1 hended.2
  | _ => cases h; exact .other nofun nofun nofun nofun

/-- What `callback` shows is nothing that the application emits, and begins the calls
    that it takes off. -/
theorem callback_seen {e : Application.Event} {calls : List CaptureOutput} {seen : List Output}
    (h : s.callback e = some (calls, seen)) :
    seen.filterMap Output.toApp = [] ∧ seen.filterMap Output.toCall ++ calls = s.calls := by
  cases callback_cases h with
  | frame hcalls => exact ⟨rfl, hcalls.symm⟩
  | error hcalls => exact ⟨rfl, hcalls.symm⟩
  | _ => exact ⟨rfl, rfl⟩

theorem filterMap_toApp_map (out : List Application.Output) :
    (out.map Output.app).filterMap Output.toApp = out := by
  rw [List.filterMap_map]
  exact List.filterMap_some

theorem filterMap_toCall_map (out : List Application.Output) :
    (out.map Output.app).filterMap Output.toCall = [] := by
  rw [List.filterMap_map]
  exact List.filterMap_eq_nil_iff.mpr fun _ _ => rfl

/-- A run of the client is one of `Application::run`. -/
def appSimulation (parse : Bytes → Option JsonValue) (clock : Nat → Int) :
    Simulation (machine parse clock) (Application.machine parse) where
  rel c d := d = ⟨c.state.app, c.history.filterMap Output.toApp⟩
  sim := by
    rintro c e c' d rfl hnext
    cases e with
    | read read =>
        obtain ⟨-, -, -, r, -, rfl⟩ := next_read hnext
        exact ⟨[], _, rfl, rfl⟩
    | app e =>
        obtain ⟨calls, seen, r, hcallback, happ, rfl⟩ := next_app hnext
        refine ⟨[e], _, ?_, rfl⟩
        rw [exec_cons, next_of_step happ, Option.bind_some, exec_nil, List.filterMap_append,
          List.filterMap_append, (callback_seen hcallback).1, filterMap_toApp_map,
          List.nil_append]

/-- A run of the client is one of the read loop, some of whose callbacks are to come. -/
def loopSimulation (parse : Bytes → Option JsonValue) (clock : Nat → Int) :
    Simulation (machine parse clock) (captureLoop clock) where
  rel c d := d = ⟨c.state.loop, c.history.filterMap Output.toCall ++ c.state.calls⟩
  sim := by
    rintro c e c' d rfl hnext
    cases e with
    | read read =>
        -- the callbacks of the reads before have all been made
        obtain ⟨-, hcalls, -, r, hloop, rfl⟩ := next_read hnext
        refine ⟨[read], _, ?_, rfl⟩
        rw [exec_cons, next_of_step hloop, Option.bind_some, exec_nil, hcalls, List.append_nil]
    | app e =>
        obtain ⟨calls, seen, r, hcallback, happ, rfl⟩ := next_app hnext
        refine ⟨[], _, rfl, ?_⟩
        rw [List.filterMap_append, List.filterMap_append, filterMap_toCall_map, List.append_nil,
          List.append_assoc, (callback_seen hcallback).2]

end CaptureClient

end CameraStream.Client
