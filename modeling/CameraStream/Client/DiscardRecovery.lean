/-
  CameraStream.Client.DiscardRecovery

  What becomes of the client after `capture_loop` has discarded an incomplete frame that
  outgrew `pending`.

  `capture_loop` clears the buffer and reads on, so that the frames behind the discarded
  one are split off and handed over like any others.  But the discard is reported through
  the callback that also reports the end of the camera, and that callback fails the camera
  and closes the queue unless a stop was requested before.  So there are two kinds of
  runs: as long as the reports come after a stop request, the client goes on (`Healthy`);
  one report that comes without it, and no later frame gets into the queue and `run` ends
  with code 2 (`Doomed`).
-/

import CameraStream.Client.CaptureBuffer
import CameraStream.Client.CaptureClient

namespace CameraStream.Client

open EventMachine

namespace Application

variable {parse : Bytes → Option JsonValue} {a b : Application} {e : Event}
  {r : Application × List Output}

/-! ## Before the start and after the end -/

theorem disconnect_main (b : Application) (next : AfterDisconnect) :
    (b.disconnect next).1.main ≠ .start := by
  have hresume : (b.dropSocket.resumeAfter next).1.main ≠ .start := by
    cases next with
    | connect =>
        rw [resumeAfter]
        split
        · exact Pc.noConfusion
        · exact Pc.noConfusion
    | delay => exact Pc.noConfusion
    | finish => exact Pc.noConfusion
  rw [disconnect]
  split
  · exact Pc.noConfusion
  · exact hresume

/-- The main thread does not come back to its first line. -/
theorem step_main_ne_start (h : a.step parse e = some r) (hmain : a.main ≠ .start) :
    r.1.main ≠ .start := by
  cases step_cases h with
  | goto pc hgoto =>
      cases hgoto with
      | _ => exact Pc.noConfusion
  | raises b hraises => exact b.disconnect_main .delay
  | stops _ _ => exact disconnect_main _ .finish
  | connects _ _ _ => exact a.disconnect_main .connect
  | left next _ | leftAtOnce _ next _ =>
      cases next with
      | connect =>
          rw [resumeAfter]
          split
          · exact Pc.noConfusion
          · exact Pc.noConfusion
      | delay => exact Pc.noConfusion
      | finish => exact Pc.noConfusion
  | capture b _ hcapture =>
      rw [(captureStep_frame hcapture).2.2.2]
      exact hmain
  | stopSignal => exact hmain
  | _ => exact Pc.noConfusion

/-- When `run` has returned, only the signal handler is left. -/
theorem step_of_stopped {n : Nat} (h : a.step parse e = some r) (hmain : a.main = .stopped n) :
    r.1.main = .stopped n ∧ r.2 = [] := by
  have hcapturing : a.capturing = false := by rw [capturing, hmain]
  cases e with
  | stopSignal => cases h; exact ⟨hmain, rfl⟩
  | _ => simp [step, mainStep, hmain, hcapturing, onRead, onWritten, onWriteFailed] at h

/-! ## The flags -/

/-- No callback has failed the camera; the queue is closed, and the clean-up begun, only
    after a stop request. -/
structure Unfailed (a : Application) : Prop where
  cameraFailed : a.cameraFailed = false
  failing : a.capture ≠ .failing
  closing : a.capture ≠ .closing
  closed : a.frames.closed = true → a.stopRequested = true
  cleaning : a.main.cleaning = true → a.stopRequested = true

theorem Unfailed.step (ha : Unfailed a) (hguard : e = .cameraError → a.stopRequested = true)
    (h : a.step parse e = some r) : Unfailed r.1 := by
  obtain ⟨hfailed, hfailing, hclosing, hclosed, hcleaning⟩ := ha
  obtain hloop | ⟨b, -, hcapture, rfl⟩ := step_loopEffect (step_cases h)
  · -- the main thread leaves its loop for one of the two flags, and one is not set
    have hleaves : (a.stopRequested || a.cameraFailed) = true → a.stopRequested = true := by
      rw [hfailed, Bool.or_false]
      exact id
    refine ⟨hloop.cameraFailed.trans hfailed, ?_, ?_, ?_, ?_⟩
    · rw [hloop.capture]
      exact hfailing
    · rw [hloop.capture]
      exact hclosing
    · intro hc
      obtain hc | hc := hloop.closes hc
      · exact hloop.stopRequested (hclosed hc)
      · exact hloop.stopRequested (hleaves hc)
    · intro hc
      obtain hc | hc := hloop.cleans hc
      · exact hloop.stopRequested (hcleaning hc)
      · exact hloop.stopRequested (hleaves hc)
  · cases captureStep_cases hcapture with
    | captured frame hplace => exact ⟨hfailed, nofun, nofun, hclosed, hcleaning⟩
    | pushed frame hplace =>
        have hpush : (a.frames.push frame).1.closed = a.frames.closed := by
          rw [LatestFrameQueue.push]
          split
          · rfl
          · rfl
        refine ⟨hfailed, ?_, ?_, ?_, hcleaning⟩
        · show (if (a.frames.push frame).2 = true then CapturePc.replacing else .idle) ≠ .failing
          split <;> exact CapturePc.noConfusion
        · show (if (a.frames.push frame).2 = true then CapturePc.replacing else .idle) ≠ .closing
          split <;> exact CapturePc.noConfusion
        · show (a.frames.push frame).1.closed = true → _
          rw [hpush]
          exact hclosed
    | counted hplace => exact ⟨hfailed, nofun, nofun, hclosed, hcleaning⟩
    | ignored hplace hstop => exact ⟨hfailed, nofun, nofun, hclosed, hcleaning⟩
    | heeded hplace hstop =>
        rw [hguard rfl] at hstop
        cases hstop
    | stored hplace => exact absurd hplace hfailing
    | closed hplace => exact absurd hplace hclosing

/-- The error callback has read a stop flag that was not set. -/
def Doomed (a : Application) : Prop :=
  match a.capture with
  | .failing => True
  | .closing => a.cameraFailed = true
  | _ => a.frames.closed = true ∧ a.cameraFailed = true

theorem Doomed.step (ha : Doomed a) (h : a.step parse e = some r) : Doomed r.1 := by
  obtain hloop | ⟨b, -, hcapture, rfl⟩ := step_loopEffect (step_cases h)
  · rw [Doomed] at ha ⊢
    rw [hloop.capture]
    cases hplace : a.capture with
    | failing => trivial
    | closing =>
        rw [hplace] at ha
        exact hloop.cameraFailed.trans ha
    | _ =>
        rw [hplace] at ha
        exact ⟨hloop.closed ha.1, hloop.cameraFailed.trans ha.2⟩
  · rw [Doomed] at ha
    cases captureStep_cases hcapture with
    | captured frame hplace =>
        rw [hplace] at ha
        exact ha
    | pushed frame hplace =>
        -- a closed queue takes no frame
        rw [hplace] at ha
        simp only [Doomed, LatestFrameQueue.push, ha.1, if_true]
        exact ⟨trivial, ha.2⟩
    | counted hplace =>
        rw [hplace] at ha
        exact ha
    | ignored hplace hstop =>
        rw [hplace] at ha
        exact ha
    | heeded hplace hstop => trivial
    | stored hplace => exact rfl
    | closed hplace =>
        rw [hplace] at ha
        exact ⟨rfl, ha⟩

end Application

namespace CaptureClient

variable {parse : Bytes → Option JsonValue} {clock : Nat → Int} {config : Config}
  {es : List Event} {e : Event} {c c' : EventMachine.Config CaptureClient Output}

/-! ## What a client goes on with -/

/-- The camera closes its stream, or reading from it fails. -/
def Event.endsCamera : Event → Bool
  | .read (.eof _) | .read (.failed _) => true
  | _ => false

/-- The discard is the next call of the capture thread. -/
def Reporting (s : CaptureClient) : Prop := ∃ rest, s.calls = .onError discardMessage :: rest

/-- When the error callback of a discard reads the stop flag, it is set. -/
def ReportsAfterStop (c : EventMachine.Config CaptureClient Output) (e : Event) : Prop :=
  e = .app .cameraError → c.state.Reporting → c.state.app.stopRequested = true

/-- The client is unharmed by discards: while no stop is requested, every frame handed over
    is placed in the queue and the loop that sends them goes on, and a client that has
    been told of a discard does not end with code 2. -/
structure Resumes (c : EventMachine.Config CaptureClient Output) : Prop where
  placed : ∀ frame, .pushed frame false false ∉ c.history
  sending : c.state.app.main.cleaning = true → c.state.app.stopRequested = true
  exit : .app (.exited 2) ∈ c.history → .called (.onError discardMessage) ∉ c.history

/-! ## Reports after a stop request -/

/-- In a stream without an end, the only errors that are called back are discards. -/
theorem discards_of_captureStep {s : CaptureState} {read : ReadEvent}
    {r : CaptureState × List CaptureOutput} (hread : (Event.read read).endsCamera = false)
    (h : captureStep clock s read = some r) :
    ∀ message, .onError message ∈ r.2 → message = discardMessage := by
  intro message hmem
  cases read with
  | stopRequested =>
      obtain ⟨-, heq⟩ := Option.ite_none_right_eq_some.mp h
      cases heq
      cases hmem
  | data chunk =>
      obtain ⟨-, heq⟩ := Option.ite_none_right_eq_some.mp h
      cases heq
      -- frames, and the discard behind them
      have hframes : ∀ first jpegs, .onError message ∉ stampFrames clock first jpegs := by
        intro first jpegs hstamp
        obtain ⟨i, hi, heq⟩ := List.mem_mapIdx.mp hstamp
        cases heq
      rw [onData] at hmem
      split at hmem
      · rcases List.mem_append.mp hmem with hmem | hmem
        · exact absurd hmem (hframes _ _)
        · simpa using hmem
      · exact absurd hmem (hframes _ _)
  | eof stopRequested => cases hread
  | interrupted =>
      obtain ⟨-, heq⟩ := Option.ite_none_right_eq_some.mp h
      cases heq
      cases hmem
  | failed reason => cases hread

/-- What holds as long as the discards are reported after a stop request. -/
structure Healthy (c : EventMachine.Config CaptureClient Output) : Prop where
  app : c.state.app.Unfailed
  discards : ∀ message, .onError message ∈ c.state.calls → message = discardMessage
  placed : ∀ frame, .pushed frame false false ∉ c.history
  /-- Nothing is called back before the start, -/
  started : ∀ call, .called call ∈ c.history → c.state.app.main ≠ .start
  /-- so a start that failed has been told of nothing. -/
  exit : .app (.exited 2) ∈ c.history →
    c.state.app.main = .stopped 2 ∧ ∀ call, .called call ∉ c.history

theorem healthy_start (config : Config) :
    Healthy (.start { app := { config := config } }) := by
  refine ⟨⟨rfl, nofun, nofun, nofun, nofun⟩, nofun, nofun, nofun, nofun⟩

theorem Healthy.resumes (h : Healthy c) : Resumes c :=
  ⟨h.placed, h.app.cleaning, fun hexit => (h.exit hexit).2 _⟩

/-- A callback is made by a thread that runs. -/
theorem callback_called {s : CaptureClient} {e : Application.Event} {calls : List CaptureOutput}
    {seen : List Output} {r : Application × List Application.Output} {call : CaptureOutput}
    (hcallback : s.callback e = some (calls, seen)) (happ : s.app.step parse e = some r)
    (hmem : .called call ∈ seen) : s.app.capturing = true := by
  cases callback_cases hcallback with
  | frame hcalls => exact (Option.ite_none_right_eq_some.mp happ).1
  | error hcalls => exact (Option.ite_none_right_eq_some.mp happ).1
  | pushed hcapture => simp at hmem
  | joined hrunning hcalls => cases hmem
  | other hframe herror hpushed hjoined => cases hmem

/-- A push is seen with the flags that it was made under. -/
theorem callback_pushed {s : CaptureClient} {e : Application.Event} {calls : List CaptureOutput}
    {seen : List Output} {frame : Frame} {placed stop : Bool}
    (hcallback : s.callback e = some (calls, seen)) (hmem : .pushed frame placed stop ∈ seen) :
    s.app.capture = .counted frame ∧ placed = (!s.app.frames.closed) ∧
      stop = s.app.stopRequested := by
  cases callback_cases hcallback with
  | frame hcalls => simp at hmem
  | error hcalls => simp at hmem
  | pushed hcapture =>
      obtain ⟨rfl, rfl, rfl⟩ := Output.pushed.inj (List.mem_singleton.mp hmem)
      exact ⟨hcapture, rfl, rfl⟩
  | joined hrunning hcalls => cases hmem
  | other hframe herror hpushed hjoined => cases hmem

/-- A new call in the history is one that `callback` shows. -/
theorem called_of_mem {h seen : List Output} {out : List Application.Output} {call : CaptureOutput}
    (hmem : .called call ∈ h ++ (seen ++ out.map Output.app)) :
    .called call ∈ h ∨ .called call ∈ seen := by
  simpa using hmem

theorem pushed_of_mem {h seen : List Output} {out : List Application.Output} {frame : Frame}
    {placed stop : Bool} (hmem : .pushed frame placed stop ∈ h ++ (seen ++ out.map Output.app)) :
    .pushed frame placed stop ∈ h ∨ .pushed frame placed stop ∈ seen := by
  simpa using hmem

/-- A new output of the application is one of its step. -/
theorem app_of_mem {s : CaptureClient} {e : Application.Event} {calls : List CaptureOutput}
    {h seen : List Output} {out : List Application.Output} {o : Application.Output}
    (hcallback : s.callback e = some (calls, seen))
    (hmem : .app o ∈ h ++ (seen ++ out.map Output.app)) : .app o ∈ h ∨ o ∈ out := by
  rcases List.mem_append.mp hmem with hmem | hmem
  · exact .inl hmem
  · rcases List.mem_append.mp hmem with hmem | hmem
    · have hnone := List.filterMap_eq_nil_iff.mp (callback_seen hcallback).1 _ hmem
      cases hnone
    · exact .inr (by simpa using hmem)

/-- The error callback reads a set stop flag. -/
theorem Healthy.stop_of_error (h : Healthy c) {calls : List CaptureOutput} {seen : List Output}
    (hguard : ReportsAfterStop c (.app .cameraError))
    (hcallback : c.state.callback .cameraError = some (calls, seen)) :
    c.state.app.stopRequested = true := by
  cases callback_cases hcallback with
  | @error message _ hcalls =>
      -- what is reported is a discard
      obtain rfl := h.discards message (hcalls ▸ List.mem_cons_self)
      exact hguard rfl ⟨calls, hcalls⟩
  | other hframe herror hpushed hjoined => exact absurd rfl herror

/-- An exit with code 2 is a start that failed. -/
theorem Unfailed.start_of_exit {a : Application} {e : Application.Event}
    {r : Application × List Application.Output} (ha : a.Unfailed)
    (happ : a.step parse e = some r) (hmem : .exited 2 ∈ r.2) :
    a.main = .start ∧ r.1.main = .stopped 2 := by
  obtain hloop | ⟨b, -, -, rfl⟩ := Application.step_loopEffect (Application.step_cases happ)
  · obtain ⟨hmain, ⟨hstart, -⟩ | ⟨-, -, hcode⟩⟩ := hloop.exits 2 hmem
    · exact ⟨hstart, hmain⟩
    · rw [ha.cameraFailed] at hcode
      cases hcode
  · cases hmem

theorem Healthy.next (h : Healthy c) (he : e.endsCamera = false) (hguard : ReportsAfterStop c e)
    (hnext : (machine parse clock).next c e = some c') : Healthy c' := by
  cases e with
  | read read =>
      obtain ⟨-, -, -, r, hloop, rfl⟩ := next_read hnext
      exact ⟨h.app, discards_of_captureStep he hloop, h.placed, h.started, h.exit⟩
  | app e =>
      obtain ⟨calls, seen, r, hcallback, happ, rfl⟩ := next_app hnext
      have hstop : e = .cameraError → c.state.app.stopRequested = true := by
        rintro rfl
        exact h.stop_of_error hguard hcallback
      -- a call that is made now is made after the start and before the end
      have hcalled : ∀ call, .called call ∈ seen → c.state.app.main ≠ .start ∧
          ∀ n, c.state.app.main ≠ .stopped n := by
        intro call hmem
        have hcapturing := callback_called hcallback happ hmem
        rw [Application.capturing] at hcapturing
        refine ⟨?_, ?_⟩
        · intro hmain
          rw [hmain] at hcapturing
          cases hcapturing
        · intro n hmain
          rw [hmain] at hcapturing
          cases hcapturing
      refine ⟨h.app.step hstop happ, ?_, ?_, ?_, ?_⟩
      · intro message hmem
        exact h.discards message ((callback_seen hcallback).2 ▸ List.mem_append_right _ hmem)
      · intro frame hmem
        obtain hmem | hmem := pushed_of_mem hmem
        · exact h.placed frame hmem
        · -- a queue that is closed has been closed after a stop request
          obtain ⟨-, hclosed, hopen⟩ := callback_pushed hcallback hmem
          rw [h.app.closed (by simpa using hclosed.symm)] at hopen
          cases hopen
      · intro call hmem
        refine Application.step_main_ne_start happ ?_
        obtain hmem | hmem := called_of_mem hmem
        · exact h.started call hmem
        · exact (hcalled call hmem).1
      · intro hmem
        obtain hmem | hmem := app_of_mem hcallback hmem
        · obtain ⟨hmain, hnone⟩ := h.exit hmem
          refine ⟨(Application.step_of_stopped happ hmain).1, ?_⟩
          intro call hcall
          obtain hcall | hcall := called_of_mem hcall
          · exact hnone call hcall
          · exact (hcalled call hcall).2 2 hmain
        · obtain ⟨hstart, hmain⟩ := Unfailed.start_of_exit h.app happ hmem
          refine ⟨hmain, ?_⟩
          intro call hcall
          obtain hcall | hcall := called_of_mem hcall
          · exact h.started call hcall hstart
          · exact (hcalled call hcall).1 hstart

/-! ## A report without a stop request -/

/-- What is seen of a client that an error has been reported to. -/
def AfterFailure : Output → Prop
  | .pushed _ placed _ => placed = false
  | .app (.exited code) => code = 2
  | _ => True

theorem doomed_next (h : c.state.app.Doomed) (hnext : (machine parse clock).next c e = some c') :
    c'.state.app.Doomed := by
  cases e with
  | read read =>
      obtain ⟨-, -, -, r, hloop, rfl⟩ := next_read hnext
      exact h
  | app e =>
      obtain ⟨calls, seen, r, hcallback, happ, rfl⟩ := next_app hnext
      exact Application.Doomed.step h happ

/-- No frame is placed any more, and `run` can only end with code 2. -/
theorem doomed_emits (h : c.state.app.Doomed) (hnext : (machine parse clock).next c e = some c') :
    ∃ out, c'.history = c.history ++ out ∧ ∀ o ∈ out, AfterFailure o := by
  cases e with
  | read read =>
      obtain ⟨-, -, -, r, hloop, rfl⟩ := next_read hnext
      exact ⟨[], (List.append_nil _).symm, nofun⟩
  | app e =>
      obtain ⟨calls, seen, r, hcallback, happ, rfl⟩ := next_app hnext
      refine ⟨_, rfl, ?_⟩
      intro o hmem
      cases o with
      | called call => trivial
      | pushed frame placed stop =>
          obtain hmem | hmem := pushed_of_mem (h := []) hmem
          · cases hmem
          · obtain ⟨hcapture, hplaced, -⟩ := callback_pushed hcallback hmem
            rw [Application.Doomed, hcapture] at h
            show placed = false
            rw [hplaced, h.1]
            rfl
      | app o =>
          obtain hmem | hmem := app_of_mem (h := []) hcallback hmem
          · cases hmem
          · obtain hloop | ⟨b, -, -, rfl⟩ :=
              Application.step_loopEffect (Application.step_cases happ)
            · cases o with
              | exited code =>
                  obtain ⟨-, ⟨-, hcode⟩ | ⟨-, hidle, hcode⟩⟩ := hloop.exits code hmem
                  · exact hcode
                  · rw [Application.Doomed, hidle] at h
                    show code = 2
                    rw [hcode, h.2]
                    rfl
              | _ => trivial
            · cases hmem

/-- A report that finds no stop request. -/
theorem doomed_of_report (hreport : c.state.Reporting) (hstop : c.state.app.stopRequested = false)
    (hnext : (machine parse clock).next c (.app .cameraError) = some c') :
    c'.state.app.Doomed ∧ c'.history = c.history ++ [.called (.onError discardMessage)] := by
  obtain ⟨calls, seen, r, hcallback, happ, rfl⟩ := next_app hnext
  obtain ⟨rest, hcalls⟩ := hreport
  obtain ⟨b, hcapture, rfl⟩ :=
    Option.map_eq_some_iff.mp (Option.ite_none_right_eq_some.mp happ).2
  refine ⟨?_, ?_⟩
  · cases Application.captureStep_cases hcapture with
    | heeded hplace _ => trivial
    | ignored hplace hset =>
        rw [hstop] at hset
        cases hset
  · cases callback_cases hcallback with
    | error hcalls' =>
        rw [hcalls] at hcalls'
        cases hcalls'
        rfl
    | other hframe herror hpushed hjoined => exact absurd rfl herror

/-- A client that has exited has stopped. -/
theorem stopped_of_exited
    (hrun : (machine parse clock).exec (.start { app := { config := config } }) es = some c) :
    ∀ code, .app (.exited code) ∈ c.history → c.state.app.main = .stopped code := by
  refine exec_invariant (I := fun c => ∀ code, .app (.exited code) ∈ c.history →
    c.state.app.main = .stopped code) ?_ nofun hrun
  intro c e c' h hnext code hmem
  cases e with
  | read read =>
      obtain ⟨-, -, -, r, -, rfl⟩ := next_read hnext
      exact h code hmem
  | app e =>
      obtain ⟨calls, seen, r, hcallback, happ, rfl⟩ := next_app hnext
      obtain hmem | hmem := app_of_mem hcallback hmem
      · exact (Application.step_of_stopped happ (h code hmem)).1
      · obtain hloop | ⟨b, -, -, rfl⟩ := Application.step_loopEffect (Application.step_cases happ)
        · exact (hloop.exits code hmem).1
        · cases hmem

/-- After a report that finds no stop request, nothing is placed and `run` ends with 2. -/
theorem afterFailure_of_report {pre post : List Event}
    {start mid : EventMachine.Config CaptureClient Output}
    (hes : es = pre ++ .app .cameraError :: post)
    (hrun : (machine parse clock).exec start es = some c)
    (hmid : (machine parse clock).exec start pre = some mid) (hreport : mid.state.Reporting)
    (hstop : mid.state.app.stopRequested = false) :
    ∃ later, c.history = mid.history ++ .called (.onError discardMessage) :: later ∧
      ∀ o ∈ later, AfterFailure o := by
  rw [hes, exec_append, hmid, Option.bind_some] at hrun
  obtain ⟨after, hnext, hrest⟩ := exec_cons_eq_some hrun
  obtain ⟨hdoomed, hhist⟩ := doomed_of_report hreport hstop hnext
  obtain ⟨later, hlater, hall⟩ := exec_emits (fun _ _ _ => doomed_next) (fun _ _ _ => doomed_emits)
    hdoomed hrest
  exact ⟨later, by rw [hlater, hhist, List.append_assoc, List.singleton_append], hall⟩

/-- **What a discard does to the client.**  In a run without an end of the camera, the
    client resumes after its discards if they are reported after a stop request; a run
    that has come to its end resumes only so.  For as soon as one discard is reported
    before any stop request, no frame is placed in the queue any more, and `run` cannot
    end with another code than 2. -/
theorem resumes_iff_reports_after_stop (parse : Bytes → Option JsonValue) (clock : Nat → Int)
    (config : Config) (es : List Event) (c : EventMachine.Config CaptureClient Output)
    (hrun : (machine parse clock).exec (.start { app := { config := config } }) es = some c)
    (hcamera : ∀ e ∈ es, e.endsCamera = false) :
    ((machine parse clock).Guarded ReportsAfterStop (.start { app := { config := config } }) es →
      (machine parse clock).Throughout Resumes (.start { app := { config := config } }) es) ∧
    ((∃ code, .app (.exited code) ∈ c.history) →
      (machine parse clock).Throughout Resumes (.start { app := { config := config } }) es →
      (machine parse clock).Guarded ReportsAfterStop (.start { app := { config := config } }) es) ∧
    (∀ pre post mid, es = pre ++ .app .cameraError :: post →
      (machine parse clock).exec (.start { app := { config := config } }) pre = some mid →
      mid.state.Reporting → mid.state.app.stopRequested = false →
      ∃ later, c.history = mid.history ++ .called (.onError discardMessage) :: later ∧
        ∀ o ∈ later, AfterFailure o) := by
  refine ⟨?_, ?_, ?_⟩
  · intro hguard pre mid hpre hmid
    have hhealthy := throughout_of_guarded (I := Healthy)
      (fun e he _ _ h hG hnext => h.next (hcamera e he) hG hnext) (healthy_start config) hguard
    exact (hhealthy pre mid hpre hmid).resumes
  · rintro ⟨code, hexit⟩ hresumes pre e mid ⟨post, hes⟩ hmid rfl hreport
    by_contra hnot
    have hstop := Bool.eq_false_of_not_eq_true hnot
    rw [List.append_assoc, List.singleton_append] at hes
    obtain ⟨later, hhist, hlater⟩ := afterFailure_of_report hes.symm hrun hmid hreport hstop
    have hend := (hresumes es c List.prefix_rfl hrun).exit
    have hmem : Output.called (.onError discardMessage) ∈ c.history := by
      rw [hhist]
      exact List.mem_append_right _ List.mem_cons_self
    refine hend ?_ hmem
    -- a client that reports has not exited before, so it has exited with code 2
    rw [hhist] at hexit
    rcases List.mem_append.mp hexit with hbefore | hafter
    · have hmain := stopped_of_exited hmid code hbefore
      rw [← hes, exec_append, hmid, Option.bind_some] at hrun
      obtain ⟨after, hnext, -⟩ := exec_cons_eq_some hrun
      obtain ⟨calls, seen, r, -, happ, -⟩ := next_app hnext
      have hcapturing := (Option.ite_none_right_eq_some.mp happ).1
      rw [Application.capturing, hmain] at hcapturing
      cases hcapturing
    · rcases List.mem_cons.mp hafter with hcall | hafter
      · cases hcall
      · obtain rfl : code = 2 := hlater _ hafter
        rw [hhist]
        exact List.mem_append_right _ (List.mem_cons_of_mem _ hafter)
  · intro pre post mid hes hmid hreport hstop
    exact afterFailure_of_report hes hrun hmid hreport hstop

/-! ## An oversize frame -/

/-- An SOI with `n` bytes behind it, and no EOI. -/
def openFrame (n : Nat) : Bytes := 0xFF :: 0xD8 :: List.replicate n 0

/-- A full read buffer of zeros. -/
def zeros : Bytes := List.replicate kReadBufferBytes 0

theorem openFrame_append (n : Nat) :
    openFrame n ++ zeros = openFrame (n + kReadBufferBytes) := by
  rw [openFrame, zeros, List.cons_append, List.cons_append, List.replicate_append_replicate]
  rfl

theorem openFrame_length (n : Nat) : (openFrame n).length = n + 2 := by
  rw [openFrame, List.length_cons, List.length_cons, List.length_replicate]

/-- Nothing is split off an open frame. -/
theorem extractFrames_openFrame (n : Nat) : extractFrames (openFrame n) = ([], openFrame n) := by
  have hsoi : FrameScanner.findPair soi (openFrame n) = some 0 := by
    rw [openFrame, FrameScanner.findPair_cons_cons, if_pos ⟨rfl, rfl⟩]
  have heoi : FrameScanner.findPair eoi ((openFrame n).drop 2) = none := by
    refine FrameScanner.findPair_eq_none_iff.mpr ?_
    rintro i ⟨hfirst, -⟩
    -- an EOI begins with a byte that is not zero
    have hmem := List.mem_of_getElem? hfirst
    rw [openFrame] at hmem
    have hzero : (0xFF : UInt8) = 0 := List.eq_of_mem_replicate hmem
    cases hzero
  rw [extractFrames_eq, FrameScanner.scanFrames_of_open hsoi heoi, List.drop_zero]

/-- The client in its loop, with an open frame in `pending`. -/
def receiving (n : Nat) : CaptureClient where
  app := { config := Application.sampleConfig, main := .loop }
  loop := { pending := openFrame n }

theorem step_zeros (n : Nat) :
    (receiving n).step parse clock (.read (.data zeros)) =
      some (if n + kReadBufferBytes + 2 > kMaximumBufferedBytes then
        { receiving n with loop := {}, calls := [.onError discardMessage] }
      else receiving (n + kReadBufferBytes), []) := by
  have hread : captureStep clock (receiving n).loop (.data zeros) =
      some (onData clock (receiving n).loop zeros) := by
    have hlen : zeros.length = kReadBufferBytes := List.length_replicate
    rw [captureStep, if_pos ⟨rfl, by rw [hlen]; decide, hlen.le⟩]
  have hpending : (receiving n).loop.pending ++ zeros = openFrame (n + kReadBufferBytes) :=
    openFrame_append n
  have hmay : ((receiving n).app.capturing && (receiving n).calls.isEmpty &&
      decide ((receiving n).app.capture = .idle) && (receiving n).mayRead (.data zeros)) = true :=
    rfl
  rw [step, if_pos hmay, hread, onData, hpending, extractFrames_openFrame, openFrame_length]
  by_cases hlong : n + kReadBufferBytes + 2 > kMaximumBufferedBytes
  · rw [if_pos hlong, if_pos hlong]
    rfl
  · rw [if_neg hlong, if_neg hlong]
    rfl

theorem next_zeros {n : Nat} (h : n + kReadBufferBytes + 2 ≤ kMaximumBufferedBytes) :
    (machine parse clock).next ⟨receiving n, []⟩ (.read (.data zeros)) =
      some ⟨receiving (n + kReadBufferBytes), []⟩ := by
  have hmachine : (machine parse clock).step = step parse clock := rfl
  have hshort : ¬ n + kReadBufferBytes + 2 > kMaximumBufferedBytes := Nat.not_lt.mpr h
  rw [EventMachine.next, hmachine, step_zeros, if_neg hshort, Option.map_some, List.append_nil]

theorem exec_zeros {n k : Nat} (h : n + k * kReadBufferBytes + 2 ≤ kMaximumBufferedBytes) :
    (machine parse clock).exec ⟨receiving n, []⟩ (List.replicate k (.read (.data zeros))) =
      some ⟨receiving (n + k * kReadBufferBytes), []⟩ := by
  induction k generalizing n with
  | zero => rw [Nat.zero_mul]; rfl
  | succ k ih =>
      have hmul : (k + 1) * kReadBufferBytes = k * kReadBufferBytes + kReadBufferBytes := by
        rw [Nat.add_mul, Nat.one_mul]
      rw [List.replicate_succ, exec_cons, next_zeros (by omega), Option.bind_some,
        ih (by omega), hmul, Nat.add_assoc, Nat.add_comm kReadBufferBytes]

/-- The client in its loop, with a discard to report. -/
def reporting : CaptureClient where
  app := { config := Application.sampleConfig, main := .loop }
  calls := [.onError discardMessage]

/-- The client in its loop after the report. -/
def refusing : CaptureClient where
  app := {
    config := Application.sampleConfig
    frames := LatestFrameQueue.close {}
    cameraFailed := true
    main := .loop }

theorem extractFrames_sampleFrame (timestampMs : Int) :
    extractFrames (Application.sampleFrame timestampMs).jpeg =
      ([(Application.sampleFrame timestampMs).jpeg], []) := by
  have hsoi : FrameScanner.findPair soi (Application.sampleFrame timestampMs).jpeg = some 0 := rfl
  have heoi : FrameScanner.findPair eoi
      ((Application.sampleFrame timestampMs).jpeg.drop (0 + 2)) = some 0 := rfl
  rw [extractFrames_eq, FrameScanner.scanFrames_of_frame hsoi heoi,
    FrameScanner.scanFrames_of_none rfl]
  rfl

/-- The client starts and reads an incomplete frame of 4 MiB and two bytes. -/
def oversizeReads : List Event :=
  [.app (.started true), .read (.data [0xFF, 0xD8])] ++
    (List.replicate 63 (.read (.data zeros)) ++ [.read (.data zeros)])

/-- Its discard is reported, and a complete frame comes behind it. -/
def oversizeRun : List Event :=
  oversizeReads ++
    [.app .cameraError, .app .failureStored, .app .queueClosed,
      .read (.data (Application.sampleFrame 0).jpeg),
      .app (.frameCaptured (Application.sampleFrame 0)), .app .framePushed, .app .turn,
      .read .stopRequested, .app .joined]

/-- The same, with a stop request right before the report. -/
def lateReport : List Event :=
  oversizeReads ++ .app .stopSignal :: .app .cameraError ::
    [.read (.data (Application.sampleFrame 0).jpeg),
      .app (.frameCaptured (Application.sampleFrame 0)), .app .framePushed, .app .turn,
      .read .stopRequested, .app .joined]

/-- The reads of the incomplete frame lead to its discard. -/
theorem exec_oversize :
    (machine parse clock).exec (.start { app := { config := Application.sampleConfig } })
      oversizeReads = some ⟨reporting, []⟩ := by
  have hstarted : (machine parse clock).exec
      (.start { app := { config := Application.sampleConfig } })
      [.app (.started true), .read (.data [0xFF, 0xD8])] = some ⟨receiving 0, []⟩ := by
    have hextract : extractFrames [0xFF, 0xD8] = ([], [0xFF, 0xD8]) := extractFrames_openFrame 0
    simp [exec_cons, EventMachine.next, machine, step, callback, Application.step,
      Application.mainStep, Application.capturing, mayRead, captureStep, onData, hextract,
      kReadBufferBytes, kMaximumBufferedBytes, stampFrames, receiving, openFrame]
  have hlast : (machine parse clock).next ⟨receiving (0 + 63 * kReadBufferBytes), []⟩
      (.read (.data zeros)) = some ⟨reporting, []⟩ := by
    have hmachine : (machine parse clock).step = step parse clock := rfl
    have hlong : 0 + 63 * kReadBufferBytes + kReadBufferBytes + 2 > kMaximumBufferedBytes := by
      decide
    rw [EventMachine.next, hmachine, step_zeros, if_pos hlong]
    rfl
  rw [oversizeReads, exec_append, hstarted, Option.bind_some, exec_append,
    exec_zeros (by decide), Option.bind_some, exec_cons, hlast]
  rfl

/-- A read that returns one frame. -/
theorem next_sampleFrame {h : List Output} (hcapturing : s.app.capturing = true)
    (hidle : s.app.capture = .idle) (hloop : s.loop = {}) (hcalls : s.calls = []) :
    (machine parse fun _ => 0).next ⟨s, h⟩ (.read (.data (Application.sampleFrame 0).jpeg)) =
      some ⟨{ s with
        loop := { clockReads := 1 }
        calls := [.onFrame (Application.sampleFrame 0)] }, h⟩ := by
  simp [EventMachine.next, machine, step, hcapturing, hidle, hloop, hcalls, mayRead, captureStep,
    onData, extractFrames_sampleFrame, kMaximumBufferedBytes, stampFrames]
  decide

theorem oversizeReads_cases :
    ∀ e ∈ oversizeReads, e = .app (.started true) ∨ ∃ chunk, e = .read (.data chunk) := by
  intro e he
  rw [oversizeReads, List.mem_append, List.mem_append] at he
  obtain hstart | hzeros | hlast := he
  · obtain rfl | rfl : e = .app (.started true) ∨ e = .read (.data [0xFF, 0xD8]) := by
      simpa using hstart
    · exact .inl rfl
    · exact .inr ⟨_, rfl⟩
  · exact .inr ⟨_, List.eq_of_mem_replicate hzeros⟩
  · exact .inr ⟨_, List.mem_singleton.mp hlast⟩

theorem oversizeReads_endless : ∀ e ∈ oversizeReads, e.endsCamera = false := by
  intro e he
  obtain rfl | ⟨chunk, rfl⟩ := oversizeReads_cases e he
  · rfl
  · rfl

/-! ### Reported while the client runs -/

/-- The end of the run: the frame behind the discarded one is refused, and `run` ends. -/
theorem exec_oversizeRun :
    ∃ s, (machine parse fun _ => 0).exec (.start { app := { config := Application.sampleConfig } })
        oversizeRun =
      some ⟨s, [.called (.onError discardMessage), .called (.onFrame (Application.sampleFrame 0)),
        .pushed (Application.sampleFrame 0) false false, .app (.exited 2)]⟩ := by
  have hreported : (machine parse fun _ => 0).exec ⟨reporting, []⟩
      [.app .cameraError, .app .failureStored, .app .queueClosed] =
        some ⟨refusing, [.called (.onError discardMessage)]⟩ := rfl
  have hread : (machine parse fun _ => 0).next ⟨refusing, [.called (.onError discardMessage)]⟩
      (.read (.data (Application.sampleFrame 0).jpeg)) = some ⟨_, _⟩ :=
    next_sampleFrame rfl rfl rfl rfl
  exact ⟨_, by
    rw [oversizeRun, exec_append, exec_oversize, Option.bind_some]
    show (machine parse fun _ => 0).exec ⟨reporting, []⟩
      ([.app .cameraError, .app .failureStored, .app .queueClosed] ++
        .read (.data (Application.sampleFrame 0).jpeg) :: _) = _
    rw [exec_append, hreported, Option.bind_some, exec_cons, hread]
    rfl⟩

theorem oversizeRun_endless : ∀ e ∈ oversizeRun, e.endsCamera = false := by
  intro e he
  obtain hreads | htail := List.mem_append.mp he
  · exact oversizeReads_endless e hreads
  · have hall : ∀ e ∈ [Event.app .cameraError, .app .failureStored, .app .queueClosed,
        .read (.data (Application.sampleFrame 0).jpeg),
        .app (.frameCaptured (Application.sampleFrame 0)), .app .framePushed, .app .turn,
        .read .stopRequested, .app .joined], e.endsCamera = false := by
      simp [Event.endsCamera]
    exact hall e htail

/-- The client does not resume after the discard: the frame behind it, complete and handed
    over while nobody has requested a stop, is refused, and `run` ends with code 2. -/
theorem oversizeRun_not_resumed :
    (∀ e ∈ oversizeRun, e.endsCamera = false) ∧
    ∃ c, (machine Application.parseSample fun _ => 0).exec
        (.start { app := { config := Application.sampleConfig } }) oversizeRun = some c ∧
      ¬ Resumes c ∧ .pushed (Application.sampleFrame 0) false false ∈ c.history ∧
      .app (.exited 2) ∈ c.history := by
  obtain ⟨s, hrun⟩ := @exec_oversizeRun Application.parseSample
  refine ⟨oversizeRun_endless, _, hrun, ?_, by simp, by simp⟩
  intro hresumes
  exact hresumes.placed (Application.sampleFrame 0) (by simp)

/-! ### Reported after a stop request -/

/-- The client in its loop, with a discard to report and a stop request. -/
def reportingLate : CaptureClient where
  app := { config := Application.sampleConfig, stopRequested := true, main := .loop }
  calls := [.onError discardMessage]

/-- The client in its loop after the report. -/
def leavingLate : CaptureClient where
  app := { config := Application.sampleConfig, stopRequested := true, main := .loop }

/-- The frame behind the discarded one is placed, and `run` ends with code 0. -/
theorem exec_lateReport :
    ∃ s, (machine parse fun _ => 0).exec (.start { app := { config := Application.sampleConfig } })
        lateReport =
      some ⟨s, [.called (.onError discardMessage), .called (.onFrame (Application.sampleFrame 0)),
        .pushed (Application.sampleFrame 0) true true, .app (.exited 0)]⟩ := by
  have hstopped : (machine parse fun _ => 0).exec ⟨reporting, []⟩
      [.app .stopSignal, .app .cameraError] =
        some ⟨leavingLate, [.called (.onError discardMessage)]⟩ := rfl
  have hread : (machine parse fun _ => 0).next ⟨leavingLate, [.called (.onError discardMessage)]⟩
      (.read (.data (Application.sampleFrame 0).jpeg)) = some ⟨_, _⟩ :=
    next_sampleFrame rfl rfl rfl rfl
  exact ⟨_, by
    rw [lateReport, exec_append, exec_oversize, Option.bind_some]
    show (machine parse fun _ => 0).exec ⟨reporting, []⟩
      ([.app .stopSignal, .app .cameraError] ++
        .read (.data (Application.sampleFrame 0).jpeg) :: _) = _
    rw [exec_append, hstopped, Option.bind_some, exec_cons, hread]
    rfl⟩

theorem lateReport_endless : ∀ e ∈ lateReport, e.endsCamera = false := by
  intro e he
  obtain hreads | htail := List.mem_append.mp he
  · exact oversizeReads_endless e hreads
  · have hall : ∀ e ∈ [Event.app .stopSignal, .app .cameraError,
        .read (.data (Application.sampleFrame 0).jpeg),
        .app (.frameCaptured (Application.sampleFrame 0)), .app .framePushed, .app .turn,
        .read .stopRequested, .app .joined], e.endsCamera = false := by
      simp [Event.endsCamera]
    exact hall e htail

/-- Only the report is asked for, and it comes after the stop request. -/
theorem lateReport_guarded :
    (machine parse fun _ => 0).Guarded ReportsAfterStop
      (.start { app := { config := Application.sampleConfig } }) lateReport := by
  have hstop : (machine parse fun _ => 0).next ⟨reporting, []⟩ (.app .stopSignal) =
      some ⟨reportingLate, []⟩ := rfl
  have hreport : (machine parse fun _ => 0).next ⟨reportingLate, []⟩ (.app .cameraError) =
      some ⟨leavingLate, [.called (.onError discardMessage)]⟩ := rfl
  refine (guarded_append exec_oversize).mpr ⟨?_, (guarded_cons hstop).mpr ⟨nofun,
    (guarded_cons hreport).mpr ⟨fun _ _ => rfl, ?_⟩⟩⟩
  · refine guarded_of_forall fun e he c heq => ?_
    obtain rfl | ⟨chunk, rfl⟩ := oversizeReads_cases e he
    · cases heq
    · cases heq
  · refine guarded_of_forall fun e he c heq => ?_
    subst heq
    simp at he

theorem resumes_iff_lateReport :
    ∃ c, (machine Application.parseSample fun _ => 0).exec
        (.start { app := { config := Application.sampleConfig } }) lateReport = some c ∧
      .called (.onError discardMessage) ∈ c.history ∧ .app (.exited 0) ∈ c.history ∧
      (machine Application.parseSample fun _ => 0).Throughout Resumes
        (.start { app := { config := Application.sampleConfig } }) lateReport ∧
      ((machine Application.parseSample fun _ => 0).Throughout Resumes
          (.start { app := { config := Application.sampleConfig } }) lateReport →
        (machine Application.parseSample fun _ => 0).Guarded ReportsAfterStop
          (.start { app := { config := Application.sampleConfig } }) lateReport) := by
  obtain ⟨s, hrun⟩ := @exec_lateReport Application.parseSample
  obtain ⟨henough, hneeded, -⟩ := resumes_iff_reports_after_stop Application.parseSample
    (fun _ => 0) Application.sampleConfig lateReport _ hrun lateReport_endless
  exact ⟨_, hrun, by simp, by simp, henough lateReport_guarded, hneeded ⟨0, by simp⟩⟩

end CaptureClient

end CameraStream.Client
