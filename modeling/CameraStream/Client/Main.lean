/-
  CameraStream.Client.Main

  `main` (main.cpp): the process of the client, from its command line to its exit code.

  `main` looks for a help option, installs the handler of the two signals, parses the
  configuration, and runs the application; the process is over when it returns.  A signal
  that arrives before its handler is installed kills the process: there is no such step.

  `Ending` lists the ways in which `main` returns, and `exit_codes` says that there are no
  others, so that the exit code tells what has happened.  While the application runs, the
  process is a run of CameraStream.Client.CaptureClient (`Stage.running`).
-/

import CameraStream.Client.DiscardRecovery
import CameraStream.Client.ParseConfig

namespace CameraStream.Client

open EventMachine

/-- The signals that ask the client to stop. -/
inductive Signal where
  | sigint
  | sigterm
  deriving DecidableEq

/-- Where `main` stands. -/
inductive MainPc where
  | entered
  | installing (signal : Signal)
  | parsing
  | running (client : CaptureClient)
  | returned (exitCode : Nat)

/-- The process. -/
structure Program where
  /-- `stop_requested` until `run` is given it; then it is a field of the application. -/
  stopRequested : Bool := false
  main : MainPc := .entered

/-- Some argument after `argv[0]` asks for help. -/
def wantsHelp (argv : List Bytes) : Bool :=
  argv.tail.any fun argument => argument == ascii "-h" || argument == ascii "--help"

def usage (executableName : Bytes) : Bytes :=
  ascii "Usage: " ++ executableName ++ ascii " [options]\n" ++
    ascii "\nOptions (CLI overrides environment variables):\n" ++
    ascii "  --server URL       CAMERA_SERVER_URL, required, http:// only\n" ++
    ascii "  --token TOKEN      CAMERA_TOKEN, required and never logged\n" ++
    ascii "  --camera-id ID     CAMERA_ID, default raspberry-pi-1\n" ++
    ascii "  --width PIXELS     CAMERA_WIDTH, default 1280\n" ++
    ascii "  --height PIXELS    CAMERA_HEIGHT, default 720\n" ++
    ascii "  --fps RATE         CAMERA_FPS, default 10, range 1..30\n" ++
    ascii "  --quality VALUE    JPEG_QUALITY, default 80, range 30..95\n" ++
    ascii "  -h, --help         Show this help\n"

namespace Program

inductive Event where
  /-- `wants_help` returns. -/
  | helpChecked
  /-- `std::signal` returns. -/
  | installed (ok : Bool)
  /-- `parse_config` returns or throws. -/
  | configured
  /-- A signal is delivered to `handle_signal`. -/
  | signal (number : Signal)
  /-- A step of `Application::run` or of the capture thread. -/
  | client (e : CaptureClient.Event)

inductive Output where
  | stdout (text : Bytes)
  | stderr (text : Bytes)
  | client (o : CaptureClient.Output)

/-- `argv[0]`. -/
def executableName (argv : List Bytes) : Bytes := argv.headD []

def handlersFailed : Bytes := ascii "failed to install SIGINT/SIGTERM handlers\n"

def configurationError (argv : List Bytes) (what : Bytes) : Bytes :=
  ascii "configuration error: " ++ what ++ ascii "\n\n" ++ usage (executableName argv)

/-- Until `run` returns its exit code. -/
def afterRun (p : Program) (client : CaptureClient) : Program :=
  match client.app.main with
  | .stopped exitCode => { p with main := .returned exitCode }
  | _ => { p with main := .running client }

/-- The application and the capture thread take a step. -/
def runClient (parse : Bytes → Option JsonValue) (clock : Nat → Int) (p : Program)
    (client : CaptureClient) (e : CaptureClient.Event) : Option (Program × List Output) :=
  (client.step parse clock e).map fun r => (p.afterRun r.1, r.2.map .client)

/-- `handle_signal`, once it is installed. -/
def handleSignal (parse : Bytes → Option JsonValue) (clock : Nat → Int) (p : Program)
    (number : Signal) : Option (Program × List Output) :=
  match p.main with
  | .installing .sigterm =>
      if number = .sigint then some ({ p with stopRequested := true }, []) else none
  | .parsing => some ({ p with stopRequested := true }, [])
  | .running client => p.runClient parse clock client (.app .stopSignal)
  | _ => none

/-- One step of a process that was started in this environment with these arguments. -/
def step (parse : Bytes → Option JsonValue) (clock : Nat → Int) (env : Environ)
    (argv : List Bytes) (p : Program) : Event → Option (Program × List Output)
  | .helpChecked =>
      match p.main with
      | .entered =>
          if wantsHelp argv then
            some ({ p with main := .returned 0 }, [.stdout (usage (executableName argv))])
          else some ({ p with main := .installing .sigint }, [])
      | _ => none
  | .installed ok =>
      match p.main with
      | .installing number =>
          if ok then
            match number with
            | .sigint => some ({ p with main := .installing .sigterm }, [])
            | .sigterm => some ({ p with main := .parsing }, [])
          else some ({ p with main := .returned 1 }, [.stderr handlersFailed])
      | _ => none
  | .configured =>
      match p.main with
      | .parsing =>
          match parseConfig env argv with
          | .ok config =>
              let app := { config := config, stopRequested := p.stopRequested }
              some ({ p with main := .running { app := app } }, [])
          | .error what =>
              some ({ p with main := .returned 1 }, [.stderr (configurationError argv what)])
      | _ => none
  | .signal number => p.handleSignal parse clock number
  | .client e =>
      match p.main, e with
      -- the signal handler has an event of its own
      | .running _, .app .stopSignal => none
      | .running client, e => p.runClient parse clock client e
      | _, _ => none

def machine (parse : Bytes → Option JsonValue) (clock : Nat → Int) (env : Environ)
    (argv : List Bytes) : EventMachine Program Event Output := ⟨step parse clock env argv⟩

end Program

/-! ## Help -/

section NoHelp

variable {env : Environ} {argv args : List Bytes} {config : Config} {option value text : Bytes}

/-- The error, if there is one, is another than a request for help. -/
def NoHelp {α : Type} (x : Except Bytes α) : Prop := x ≠ .error (ascii "help requested")

theorem noHelp_ok {α : Type} (a : α) : NoHelp (.ok a) := nofun

theorem noHelp_bind {α β : Type} {x : Except Bytes α} {f : α → Except Bytes β}
    (hx : NoHelp x) (hf : ∀ a, NoHelp (f a)) : NoHelp (x >>= f) := by
  cases x with
  | error e => exact fun h => hx (congrArg Except.error (Except.error.inj h))
  | ok a => exact hf a

theorem noHelp_map {α β : Type} {x : Except Bytes α} {f : α → β} (hx : NoHelp x) :
    NoHelp (x.map f) := by
  cases x with
  | error e => exact fun h => hx (congrArg Except.error (Except.error.inj h))
  | ok a => exact noHelp_ok (f a)

/-- An error text that begins with another letter. -/
theorem noHelp_error {α : Type} {what : Bytes} (h : what.head? ≠ some 0x68) :
    NoHelp (.error what : Except Bytes α) :=
  fun heq => h (congrArg List.head? (Except.error.inj heq))

/-- Most texts end with what they are about. -/
theorem noHelp_error_append {α : Type} {what subject : Bytes} (hne : what ≠ [])
    (h : what.head? ≠ some 0x68) : NoHelp (.error (what ++ subject) : Except Bytes α) := by
  refine noHelp_error ?_
  rwa [List.head?_append_of_ne_nil _ hne]

theorem noHelp_parseInteger : NoHelp (parseInteger text option) := by
  rw [parseInteger]
  split
  · exact noHelp_ok _
  · exact noHelp_error_append (by decide) (by decide)

theorem noHelp_applyEnvironmentInteger {n : Int} {name : Bytes} :
    NoHelp (applyEnvironmentInteger n env name) := by
  rw [applyEnvironmentInteger]
  split
  · exact noHelp_parseInteger
  · exact noHelp_ok _

theorem noHelp_applyEnvironment : NoHelp (applyEnvironment env config) := by
  refine noHelp_bind noHelp_applyEnvironmentInteger fun width => ?_
  refine noHelp_bind noHelp_applyEnvironmentInteger fun height => ?_
  refine noHelp_bind noHelp_applyEnvironmentInteger fun fps => ?_
  refine noHelp_bind noHelp_applyEnvironmentInteger fun jpegQuality => ?_
  exact noHelp_ok _

theorem noHelp_applyOption : NoHelp (applyOption config option value) := by
  rw [applyOption]
  repeat' split
  · exact noHelp_ok _
  · exact noHelp_ok _
  · exact noHelp_ok _
  · exact noHelp_map noHelp_parseInteger
  · exact noHelp_map noHelp_parseInteger
  · exact noHelp_map noHelp_parseInteger
  · exact noHelp_map noHelp_parseInteger
  · exact noHelp_error_append (by decide) (by decide)

theorem noHelp_validate : NoHelp (validate config) := by
  rw [validate]
  repeat' split
  all_goals first | exact noHelp_ok _ | exact noHelp_error (by decide)

/-- The loop throws it at an option only. -/
theorem noHelp_parseOptions (h : ∀ a ∈ args, a ≠ ascii "--help" ∧ a ≠ ascii "-h") :
    NoHelp (parseOptions config args) := by
  induction args using List.twoStepInduction generalizing config with
  | nil => exact noHelp_ok config
  | singleton option =>
      obtain ⟨hlong, hshort⟩ := h option List.mem_cons_self
      rw [parseOptions, if_neg (not_or.mpr ⟨hlong, hshort⟩)]
      exact noHelp_error_append (by decide) (by decide)
  | cons_cons option value rest ih _ =>
      obtain ⟨hlong, hshort⟩ := h option List.mem_cons_self
      rw [parseOptions, if_neg (not_or.mpr ⟨hlong, hshort⟩)]
      refine noHelp_bind noHelp_applyOption fun config => ih fun a ha => h a ?_
      exact List.mem_cons_of_mem option (List.mem_cons_of_mem value ha)

theorem wantsHelp_eq_false :
    wantsHelp argv = false ↔ ∀ a ∈ argv.tail, a ≠ ascii "--help" ∧ a ≠ ascii "-h" := by
  rw [wantsHelp, List.any_eq_false]
  refine forall₂_congr fun a _ => ?_
  simp [and_comm]

/-- `main` parses no command line on which `parse_config` would find a help option. -/
theorem noHelp_parseConfig (h : wantsHelp argv = false) : NoHelp (parseConfig env argv) := by
  refine noHelp_bind noHelp_applyEnvironment fun config => ?_
  refine noHelp_bind (noHelp_parseOptions (wantsHelp_eq_false.mp h)) fun config => ?_
  exact noHelp_bind noHelp_validate fun _ => noHelp_ok config

end NoHelp

namespace Application

variable {parse : Bytes → Option JsonValue} {a b : Application} {e : Event}
  {r : Application × List Output}

/-! ## Flag and exit -/

theorem resumeAfter_not_stopped (b : Application) (next : AfterDisconnect) (n : Nat) :
    (b.resumeAfter next).1.main ≠ .stopped n := by
  cases next with
  | connect =>
      rw [resumeAfter]
      split
      · exact Pc.noConfusion
      · exact Pc.noConfusion
  | delay => exact Pc.noConfusion
  | finish => exact Pc.noConfusion

theorem disconnect_not_stopped (b : Application) (next : AfterDisconnect) (n : Nat) :
    (b.disconnect next).1.main ≠ .stopped n := by
  rw [disconnect]
  split
  · exact Pc.noConfusion
  · exact b.dropSocket.resumeAfter_not_stopped next n

/-- `run` returns with an exit code that is seen. -/
theorem exits_of_stopped {n : Nat} (h : Step parse a e r) (hmain : r.1.main = .stopped n) :
    a.main = .stopped n ∨ .exited n ∈ r.2 := by
  cases h with
  | goto pc hgoto =>
      cases hgoto with
      | startFailed _ | joined _ _ =>
          cases hmain
          exact .inr List.mem_cons_self
      | _ => cases hmain
  | raises b _ => exact absurd hmain (b.disconnect_not_stopped .delay n)
  | stops _ _ => exact absurd hmain (disconnect_not_stopped _ .finish n)
  | connects _ _ _ => exact absurd hmain (a.disconnect_not_stopped .connect n)
  | left next _ | leftAtOnce _ next _ =>
      exact absurd hmain (a.dropSocket.resumeAfter_not_stopped next n)
  | capture b _ hcapture => exact .inl ((captureStep_frame hcapture).2.2.2 ▸ hmain)
  | stopSignal => exact .inl hmain
  | _ => cases hmain

/-- Nobody else requests a stop. -/
theorem stopRequested_step (h : Step parse a e r) :
    r.1.stopRequested = true ↔ a.stopRequested = true ∨ e = .stopSignal := by
  have hsame : e ≠ .stopSignal → r.1.stopRequested = a.stopRequested →
      (r.1.stopRequested = true ↔ a.stopRequested = true ∨ e = .stopSignal) := by
    intro he hstop
    rw [hstop, or_iff_left he]
  cases h with
  | goto pc hgoto =>
      cases hgoto with
      | _ => exact hsame nofun rfl
  | raises b hraises =>
      have hdis := (b.disconnect_disconnects .delay).stopRequested
      cases hraises with
      | _ => exact hsame nofun hdis
  | stops _ _ => exact hsame nofun (disconnect_disconnects _ .finish).stopRequested
  | connects _ _ _ => exact hsame nofun (a.disconnect_disconnects .connect).stopRequested
  | left next _ | leftAtOnce _ next _ =>
      exact hsame nofun (a.resumeAfter_disconnects next).stopRequested
  | capture b _ hcapture =>
      cases captureStep_cases hcapture with
      | _ => exact hsame nofun rfl
  | stopSignal => simp
  | _ => exact hsame nofun rfl

/-- Nothing but a failed start ends `run` on its first line. -/
theorem started_of_exit {n : Nat} (h : a.step parse e = some r) (hmain : a.main = .start)
    (hexit : .exited n ∈ r.2) : e = .started false := by
  have hcapturing : a.capturing = false := by rw [capturing, hmain]
  cases e with
  | started ok =>
      cases ok with
      | false => rfl
      | true =>
          simp only [step, mainStep, hmain, if_true, Option.some.injEq] at h
          cases h
          cases hexit
  | stopSignal => cases h; cases hexit
  | _ => simp [step, mainStep, hmain, hcapturing, onRead, onWritten, onWriteFailed] at h

end Application

namespace CaptureClient

variable {parse : Bytes → Option JsonValue} {clock : Nat → Int} {config : Config}
  {es past : List Event} {e : Event} {c c' : EventMachine.Config CaptureClient Output} {n : Nat}

/-! ## The exit code of `run` -/

/-- The camera cannot be started, or reports an error before a stop is requested. -/
def CameraFails (es : List Event) : Prop :=
  .app (.started false) ∈ es ∨
    ∃ pre, pre ++ [.app .cameraError] <+: es ∧ .app .stopSignal ∉ pre

theorem cameraFails_concat : CameraFails (past ++ [e]) ↔
    CameraFails past ∨ e = .app (.started false) ∨
      e = .app .cameraError ∧ .app .stopSignal ∉ past := by
  have hprefix : (∃ pre, pre ++ [.app .cameraError] <+: past ++ [e] ∧ .app .stopSignal ∉ pre) ↔
      (∃ pre, pre ++ [.app .cameraError] <+: past ∧ .app .stopSignal ∉ pre) ∨
        e = .app .cameraError ∧ .app .stopSignal ∉ past := by
    constructor
    · rintro ⟨pre, hpre, hstop⟩
      obtain heq | hpre := List.prefix_concat_iff.mp hpre
      · obtain ⟨rfl, hlast⟩ := List.append_inj' heq rfl
        exact .inr ⟨(List.singleton_inj.mp hlast).symm, hstop⟩
      · exact .inl ⟨pre, hpre, hstop⟩
    · rintro (⟨pre, hpre, hstop⟩ | ⟨rfl, hstop⟩)
      · exact ⟨pre, hpre.trans (List.prefix_append past [e]), hstop⟩
      · exact ⟨past, List.prefix_rfl, hstop⟩
  rw [CameraFails, CameraFails, hprefix, List.mem_append, List.mem_singleton, eq_comm (b := e)]
  exact or_or_or_comm

/-- What has come of the application and its camera after the events `past`. -/
inductive Fate (a : Application) (past : List Event) : Prop where
  | well (hcamera : ¬ CameraFails past) (hunfailed : a.Unfailed)
      (hexit : ∀ n, a.main = .stopped n → n = 0 ∧ a.stopRequested = true)
  | failed (hcamera : CameraFails past) (hdoomed : a.Doomed)
      (hexit : ∀ n, a.main = .stopped n → n = 2)
  | unstarted (hcamera : CameraFails past) (hmain : a.main = .stopped 2)

/-- `run` returns normally when a stop has been requested and the camera has not failed. -/
theorem exit_of_unfailed {a : Application} {e : Application.Event}
    {r : Application × List Application.Output} (ha : a.Unfailed) (happ : a.step parse e = some r)
    (he : e ≠ .started false) (hexit : .exited n ∈ r.2) : n = 0 ∧ r.1.stopRequested = true := by
  obtain hloop | ⟨b, -, -, rfl⟩ := Application.step_loopEffect (Application.step_cases happ)
  · obtain ⟨-, ⟨hstart, -⟩ | ⟨hjoining, -, hcode⟩⟩ := hloop.exits n hexit
    · exact absurd (Application.started_of_exit happ hstart hexit) he
    · rw [ha.cameraFailed] at hcode
      refine ⟨hcode, hloop.stopRequested (ha.cleaning ?_)⟩
      rw [hjoining]
      rfl
  · cases hexit

/-- A client that an error has been reported to ends with code 2. -/
theorem exit_of_doomed {a : Application} {e : Application.Event}
    {r : Application × List Application.Output} (ha : a.Doomed) (happ : a.step parse e = some r)
    (hexit : .exited n ∈ r.2) : n = 2 := by
  obtain hloop | ⟨b, -, -, rfl⟩ := Application.step_loopEffect (Application.step_cases happ)
  · obtain ⟨-, ⟨-, hcode⟩ | ⟨-, hidle, hcode⟩⟩ := hloop.exits n hexit
    · exact hcode
    · rw [Application.Doomed, hidle] at ha
      rw [hcode, ha.2]
      rfl
  · cases hexit

/-- An error that finds no stop request. -/
theorem doomed_of_cameraError {a : Application} {r : Application × List Application.Output}
    (happ : a.step parse .cameraError = some r) (hstop : a.stopRequested = false) :
    r.1.Doomed ∧ ∀ n, r.1.main ≠ .stopped n := by
  obtain ⟨hcapturing, happ⟩ := Option.ite_none_right_eq_some.mp happ
  obtain ⟨b, hcapture, rfl⟩ := Option.map_eq_some_iff.mp happ
  refine ⟨?_, ?_⟩
  · cases Application.captureStep_cases hcapture with
    | heeded hplace _ => trivial
    | ignored hplace hset =>
        rw [hstop] at hset
        cases hset
  · intro n hmain
    rw [(Application.captureStep_frame hcapture).2.2.2] at hmain
    rw [Application.capturing, hmain] at hcapturing
    cases hcapturing

/-- A step while the camera is well. -/
theorem fate_of_unfailed {a : Application} {e : Application.Event}
    {r : Application × List Application.Output} (hcamera : ¬ CameraFails past)
    (hunfailed : a.Unfailed) (hexit : ∀ n, a.main = .stopped n → n = 0 ∧ a.stopRequested = true)
    (hstop : a.stopRequested = true ↔ .app .stopSignal ∈ past) (happ : a.step parse e = some r) :
    Fate r.1 (past ++ [.app e]) := by
  have hstep := Application.step_cases happ
  by_cases hstart : e = .started false
  · subst hstart
    have hfails : CameraFails (past ++ [.app (.started false)]) :=
      cameraFails_concat.mpr (.inr (.inl rfl))
    cases hstep with
    | goto pc hgoto =>
        cases hgoto with
        | startFailed _ => exact .unstarted hfails rfl
    | raises b hraises => cases hraises
    | capture b _ hcapture => cases hcapture
  by_cases herror : e = .cameraError ∧ a.stopRequested = false
  · -- the callback finds no stop request, so there was no signal
    obtain ⟨rfl, hset⟩ := herror
    have hnone : .app .stopSignal ∉ past := by
      intro hmem
      rw [hstop.mpr hmem] at hset
      cases hset
    obtain ⟨hdoomed, hmain⟩ := doomed_of_cameraError happ hset
    exact .failed (cameraFails_concat.mpr (.inr (.inr ⟨rfl, hnone⟩))) hdoomed
      fun n hn => absurd hn (hmain n)
  · have hguard : e = .cameraError → a.stopRequested = true := by
      rintro rfl
      exact Bool.eq_true_of_not_eq_false fun hset => herror ⟨rfl, hset⟩
    refine .well ?_ (hunfailed.step hguard happ) ?_
    · -- neither a failed start nor an early error has been added
      intro hfails
      obtain hfails | heq | ⟨heq, hnone⟩ := cameraFails_concat.mp hfails
      · exact hcamera hfails
      · exact hstart (Event.app.inj heq)
      · exact hnone (hstop.mp (hguard (Event.app.inj heq)))
    · intro n hmain
      obtain hstopped | hexited := Application.exits_of_stopped hstep hmain
      · obtain ⟨hcode, hset⟩ := hexit n hstopped
        exact ⟨hcode, (Application.stopRequested_step hstep).mpr (.inl hset)⟩
      · exact exit_of_unfailed hunfailed happ hstart hexited

theorem Fate.step {a : Application} {e : Application.Event}
    {r : Application × List Application.Output} (h : Fate a past)
    (hstop : a.stopRequested = true ↔ .app .stopSignal ∈ past) (happ : a.step parse e = some r) :
    Fate r.1 (past ++ [.app e]) := by
  cases h with
  | well hcamera hunfailed hexit => exact fate_of_unfailed hcamera hunfailed hexit hstop happ
  | failed hcamera hdoomed hexit =>
      refine .failed (cameraFails_concat.mpr (.inl hcamera)) (hdoomed.step happ) ?_
      intro n hmain
      obtain hstopped | hexited :=
        Application.exits_of_stopped (Application.step_cases happ) hmain
      · exact hexit n hstopped
      · exact exit_of_doomed hdoomed happ hexited
  | unstarted hcamera hmain =>
      exact .unstarted (cameraFails_concat.mpr (.inl hcamera))
        (Application.step_of_stopped happ hmain).1

/-- The stop flag, and what has come of the client. -/
theorem fate_of_run
    (hrun : (machine parse clock).exec (.start { app := { config := config } }) es = some c) :
    (c.state.app.stopRequested = true ↔ .app .stopSignal ∈ es) ∧ Fate c.state.app es := by
  refine exec_past (R := fun c past =>
    (c.state.app.stopRequested = true ↔ .app .stopSignal ∈ past) ∧ Fate c.state.app past)
    ?_ ?_ hrun
  · rintro e c c' past ⟨hstop, hfate⟩ hnext
    cases e with
    | read read =>
        obtain ⟨-, -, -, r, -, rfl⟩ := next_read hnext
        have hcamera : CameraFails (past ++ [.read read]) ↔ CameraFails past := by
          rw [cameraFails_concat]
          simp
        refine ⟨hstop.trans (by simp), ?_⟩
        cases hfate with
        | well h hunfailed hexit => exact .well (mt hcamera.mp h) hunfailed hexit
        | failed h hdoomed hexit => exact .failed (hcamera.mpr h) hdoomed hexit
        | unstarted h hmain => exact .unstarted (hcamera.mpr h) hmain
    | app e =>
        obtain ⟨calls, seen, r, -, happ, rfl⟩ := next_app hnext
        refine ⟨?_, hfate.step hstop happ⟩
        rw [Application.stopRequested_step (Application.step_cases happ), hstop, List.mem_append,
          List.mem_singleton, Event.app.injEq, eq_comm (a := e)]
  · refine ⟨by simp, .well ?_ ⟨rfl, nofun, nofun, nofun, nofun⟩ nofun⟩
    rintro (hmem | ⟨pre, hpre, -⟩)
    · cases hmem
    · simp at hpre

/-- The exit code of `run`. -/
theorem exitCode_of_run
    (hrun : (machine parse clock).exec (.start { app := { config := config } }) es = some c)
    (hmain : c.state.app.main = .stopped n) :
    CameraFails es ∧ n = 2 ∨ ¬ CameraFails es ∧ .app .stopSignal ∈ es ∧ n = 0 := by
  obtain ⟨hstop, hfate⟩ := fate_of_run hrun
  cases hfate with
  | well hcamera hunfailed hexit =>
      obtain ⟨hcode, hset⟩ := hexit n hmain
      exact .inr ⟨hcamera, hstop.mp hset, hcode⟩
  | failed hcamera hdoomed hexit => exact .inl ⟨hcamera, hexit n hmain⟩
  | unstarted hcamera hunstarted =>
      rw [hunstarted] at hmain
      cases hmain
      exact .inl ⟨hcamera, rfl⟩

end CaptureClient

namespace Program

variable {parse : Bytes → Option JsonValue} {clock : Nat → Int} {env : Environ}
  {argv : List Bytes} {es past : List Event} {e : Event} {p : Program} {h : List Output}
  {c c' : EventMachine.Config Program Output} {n : Nat}

/-! ## The ways to return -/

/-- What an event of the process is for the application and the capture thread. -/
def Event.toClient : Event → Option CaptureClient.Event
  | .client e => some e
  | .signal _ => some (.app .stopSignal)
  | _ => none

/-- The process has done what the client does with this configuration. -/
def Runs (parse : Bytes → Option JsonValue) (clock : Nat → Int) (config : Config)
    (es : List Event) (h : List Output) (client : CaptureClient) : Prop :=
  ∃ seen, (CaptureClient.machine parse clock).exec (.start { app := { config := config } })
      (es.filterMap Event.toClient) = some ⟨client, seen⟩ ∧ h = seen.map .client

/-- The handlers are installed, and the configuration is accepted. -/
structure Configured (env : Environ) (argv : List Bytes) (es : List Event) (config : Config) :
    Prop where
  noHelp : wantsHelp argv = false
  handled : .installed false ∉ es
  parsed : parseConfig env argv = .ok config

/-- What the exit code says of the arguments and the environment, of the events, and of
    what the process has put out. -/
inductive Ending (parse : Bytes → Option JsonValue) (clock : Nat → Int) (env : Environ)
    (argv : List Bytes) (es : List Event) (h : List Output) : Nat → Prop where
  | help (hhelp : wantsHelp argv = true) (hout : h = [.stdout (usage (executableName argv))]) :
      Ending parse clock env argv es h 0
  | unhandled (hhelp : wantsHelp argv = false) (hinstall : .installed false ∈ es)
      (hout : h = [.stderr handlersFailed]) : Ending parse clock env argv es h 1
  | refused (what : Bytes) (hhelp : wantsHelp argv = false) (hinstall : .installed false ∉ es)
      (hparse : parseConfig env argv = .error what) (hwhat : what ≠ ascii "help requested")
      (hout : h = [.stderr (configurationError argv what)]) : Ending parse clock env argv es h 1
  | stopped (config : Config) (client : CaptureClient) (hconfig : Configured env argv es config)
      (hrun : Runs parse clock config es h client) (hsignal : ∃ number, .signal number ∈ es)
      (hcamera : ¬ CaptureClient.CameraFails (es.filterMap Event.toClient)) :
      Ending parse clock env argv es h 0
  | failed (config : Config) (client : CaptureClient) (hconfig : Configured env argv es config)
      (hrun : Runs parse clock config es h client)
      (hcamera : CaptureClient.CameraFails (es.filterMap Event.toClient)) :
      Ending parse clock env argv es h 2

/-- A request to stop comes as a signal. -/
def Signalled (es : List Event) : Prop := .client (.app .stopSignal) ∉ es

theorem Signalled.exists_signal (h : Signalled es)
    (hstop : .app .stopSignal ∈ es.filterMap Event.toClient) : ∃ number, .signal number ∈ es := by
  obtain ⟨e, he, hclient⟩ := List.mem_filterMap.mp hstop
  cases e with
  | signal number => exact ⟨number, he⟩
  | client ce =>
      cases hclient
      exact absurd he h
  | _ => cases hclient

/-- Before the application exists: its stop flag will be what `run` would have made of the
    signals. -/
structure Preparing (parse : Bytes → Option JsonValue) (clock : Nat → Int) (argv : List Bytes)
    (stopRequested : Bool) (h : List Output) (past : List Event) : Prop where
  noHelp : wantsHelp argv = false
  handled : .installed false ∉ past
  silent : h = []
  flag : ∀ config : Config,
    (CaptureClient.machine parse clock).exec (.start { app := { config := config } })
        (past.filterMap Event.toClient) =
      some (.start { app := { config := config, stopRequested := stopRequested } })

/-- How far `main` has come. -/
inductive Stage (parse : Bytes → Option JsonValue) (clock : Nat → Int) (env : Environ)
    (argv : List Bytes) (p : Program) (h : List Output) (past : List Event) : Prop where
  | entered (hmain : p.main = .entered) (hstop : p.stopRequested = false) (hpast : past = [])
      (hsilent : h = [])
  | preparing (hmain : p.main = .parsing ∨ ∃ number, p.main = .installing number)
      (hprepare : Preparing parse clock argv p.stopRequested h past)
  | running (config : Config) (client : CaptureClient) (hmain : p.main = .running client)
      (hconfig : Configured env argv past config)
      (hrun : Runs parse clock config past h client)
  | returned (n : Nat) (hmain : p.main = .returned n)
      (hending : Ending parse clock env argv past h n)

theorem Configured.concat {config : Config} (hconfig : Configured env argv past config)
    (he : e ≠ .installed false) : Configured env argv (past ++ [e]) config where
  noHelp := hconfig.noHelp
  handled := by
    rw [List.mem_append, List.mem_singleton, not_or]
    exact ⟨hconfig.handled, he.symm⟩
  parsed := hconfig.parsed

/-- A step of the client is one of its run. -/
theorem Runs.concat {config : Config} {client : CaptureClient} {ce : CaptureClient.Event}
    {r : CaptureClient × List CaptureClient.Output}
    (hrun : Runs parse clock config past h client) (he : e.toClient = some ce)
    (hstep : client.step parse clock ce = some r) :
    Runs parse clock config (past ++ [e]) (h ++ r.2.map .client) r.1 := by
  obtain ⟨seen, hexec, rfl⟩ := hrun
  refine ⟨seen ++ r.2, ?_, List.map_append.symm⟩
  rw [List.filterMap_append, exec_append, hexec, Option.bind_some,
    List.filterMap_cons_some he, List.filterMap_nil, exec_cons, next_of_step hstep]
  rfl

/-- The client takes a step, and `main` returns if `run` has. -/
theorem Stage.runClient {config : Config} {client : CaptureClient} {ce : CaptureClient.Event}
    {r : Program × List Output} (hconfig : Configured env argv past config)
    (hrun : Runs parse clock config past h client) (hsignals : Signalled (past ++ [e]))
    (he : e.toClient = some ce) (hstep : p.runClient parse clock client ce = some r) :
    Stage parse clock env argv r.1 (h ++ r.2) (past ++ [e]) := by
  obtain ⟨r, hclient, rfl⟩ := Option.map_eq_some_iff.mp hstep
  have hconfig' : Configured env argv (past ++ [e]) config :=
    hconfig.concat (by rintro rfl; cases he)
  have hrun' := hrun.concat he hclient
  show Stage parse clock env argv (p.afterRun r.1) _ _
  rw [afterRun]
  split
  · next n hmain =>
      refine .returned n rfl ?_
      obtain ⟨seen, hexec, -⟩ := hrun'
      obtain ⟨hcamera, rfl⟩ | ⟨hcamera, hstop, rfl⟩ := CaptureClient.exitCode_of_run hexec hmain
      · exact .failed config r.1 hconfig' (hrun.concat he hclient) hcamera
      · refine .stopped config r.1 hconfig' (hrun.concat he hclient) (hsignals.exists_signal hstop)
          hcamera
  · exact .running config r.1 rfl hconfig' hrun'

/-- A signal sets the flag. -/
theorem Preparing.signal {flag : Bool} (hprepare : Preparing parse clock argv flag h past)
    (number : Signal) : Preparing parse clock argv true (h ++ []) (past ++ [.signal number]) where
  noHelp := hprepare.noHelp
  handled := by simpa using hprepare.handled
  silent := (List.append_nil h).trans hprepare.silent
  flag config := by
    rw [List.filterMap_append, exec_append, hprepare.flag config, Option.bind_some]
    rfl

/-- A step of `main` itself leaves it as it is. -/
theorem Preparing.own {flag : Bool} (hprepare : Preparing parse clock argv flag h past)
    (hclient : e.toClient = none) (he : e ≠ .installed false) :
    Preparing parse clock argv flag (h ++ []) (past ++ [e]) where
  noHelp := hprepare.noHelp
  handled := by
    rw [List.mem_append, List.mem_singleton, not_or]
    exact ⟨hprepare.handled, he.symm⟩
  silent := (List.append_nil h).trans hprepare.silent
  flag config := by
    rw [List.filterMap_append, List.filterMap_cons_none hclient, List.filterMap_nil,
      List.append_nil]
    exact hprepare.flag config

/-- The handler is not installed yet, or raises the flag. -/
theorem Stage.signal {number : Signal} {r : Program × List Output}
    (hstage : Stage parse clock env argv p h past) (hsignals : Signalled (past ++ [.signal number]))
    (hstep : p.handleSignal parse clock number = some r) :
    Stage parse clock env argv r.1 (h ++ r.2) (past ++ [.signal number]) := by
  rw [handleSignal] at hstep
  cases hstage with
  | entered hmain _ _ _ =>
      rw [hmain] at hstep
      cases hstep
  | preparing hmain hprepare =>
      obtain hparsing | ⟨waiting, hinstalling⟩ := hmain
      · rw [hparsing] at hstep
        cases hstep
        exact .preparing (.inl rfl) (hprepare.signal number)
      · rw [hinstalling] at hstep
        cases waiting with
        | sigint => cases hstep
        | sigterm =>
            obtain ⟨-, heq⟩ := Option.ite_none_right_eq_some.mp hstep
            cases heq
            exact .preparing (.inr ⟨.sigterm, rfl⟩) (hprepare.signal number)
  | running config client hmain hconfig hrun =>
      rw [hmain] at hstep
      exact Stage.runClient hconfig hrun hsignals rfl hstep
  | returned n hmain _ =>
      rw [hmain] at hstep
      cases hstep

theorem Stage.helpChecked {r : Program × List Output}
    (hstage : Stage parse clock env argv p h past)
    (hstep : p.step parse clock env argv .helpChecked = some r) :
    Stage parse clock env argv r.1 (h ++ r.2) (past ++ [.helpChecked]) := by
  cases hstage with
  | entered hmain hstop hpast hsilent =>
      simp only [step, hmain] at hstep
      subst hpast hsilent
      split at hstep
      · next hhelp =>
          cases hstep
          exact .returned 0 rfl (.help hhelp rfl)
      · next hhelp =>
          cases hstep
          refine .preparing (.inr ⟨.sigint, rfl⟩) ⟨Bool.eq_false_of_not_eq_true hhelp, ?_, rfl, ?_⟩
          · simp
          · intro config
            rw [hstop]
            rfl
  | preparing hmain _ =>
      obtain hmain | ⟨waiting, hmain⟩ := hmain
      · rw [step, hmain] at hstep
        cases hstep
      · rw [step, hmain] at hstep
        cases hstep
  | running _ _ hmain _ _ | returned _ hmain _ =>
      rw [step, hmain] at hstep
      cases hstep

theorem Stage.installed {ok : Bool} {r : Program × List Output}
    (hstage : Stage parse clock env argv p h past)
    (hstep : p.step parse clock env argv (.installed ok) = some r) :
    Stage parse clock env argv r.1 (h ++ r.2) (past ++ [.installed ok]) := by
  cases hstage with
  | preparing hmain hprepare =>
      obtain hmain | ⟨waiting, hmain⟩ := hmain
      · rw [step, hmain] at hstep
        cases hstep
      · rw [step, hmain] at hstep
        cases ok with
        | true =>
            have hown := hprepare.own (e := .installed true) rfl (by simp)
            cases waiting with
            | sigint =>
                cases hstep
                exact .preparing (.inr ⟨.sigterm, rfl⟩) hown
            | sigterm =>
                cases hstep
                exact .preparing (.inl rfl) hown
        | false =>
            cases hstep
            rw [hprepare.silent]
            exact .returned 1 rfl (.unhandled hprepare.noHelp (by simp) rfl)
  | entered hmain _ _ _ | running _ _ hmain _ _ | returned _ hmain _ =>
      rw [step, hmain] at hstep
      cases hstep

theorem Stage.configured {r : Program × List Output}
    (hstage : Stage parse clock env argv p h past)
    (hstep : p.step parse clock env argv .configured = some r) :
    Stage parse clock env argv r.1 (h ++ r.2) (past ++ [.configured]) := by
  cases hstage with
  | preparing hmain hprepare =>
      obtain hmain | ⟨waiting, hmain⟩ := hmain
      · simp only [step, hmain] at hstep
        have hown := hprepare.own (e := .configured) rfl Event.noConfusion
        split at hstep
        · next config hparse =>
            cases hstep
            have hconfig : Configured env argv (past ++ [.configured]) config :=
              ⟨hown.noHelp, hown.handled, hparse⟩
            exact .running config _ rfl hconfig ⟨[], hown.flag config, hown.silent⟩
        · next what hparse =>
            cases hstep
            rw [hprepare.silent]
            refine .returned 1 rfl (.refused what hown.noHelp hown.handled hparse ?_ rfl)
            rintro rfl
            exact noHelp_parseConfig hown.noHelp hparse
      · rw [step, hmain] at hstep
        cases hstep
  | entered hmain _ _ _ | running _ _ hmain _ _ | returned _ hmain _ =>
      rw [step, hmain] at hstep
      cases hstep

theorem Stage.client {ce : CaptureClient.Event} {r : Program × List Output}
    (hstage : Stage parse clock env argv p h past) (hsignals : Signalled (past ++ [.client ce]))
    (hstep : p.step parse clock env argv (.client ce) = some r) :
    Stage parse clock env argv r.1 (h ++ r.2) (past ++ [.client ce]) := by
  cases hstage with
  | running config client hmain hconfig hrun =>
      simp only [step, hmain] at hstep
      split at hstep
      · cases hstep
      · next heq _ =>
          cases heq
          exact Stage.runClient hconfig hrun hsignals rfl hstep
      · cases hstep
  | preparing hmain _ =>
      obtain hmain | ⟨waiting, hmain⟩ := hmain
      · simp [step, hmain] at hstep
      · simp [step, hmain] at hstep
  | entered hmain _ _ _ | returned _ hmain _ => simp [step, hmain] at hstep

/-- A request to stop has no other way in. -/
theorem step_stopSignal (p : Program) :
    p.step parse clock env argv (.client (.app .stopSignal)) = none := by
  cases hmain : p.main with
  | _ => simp only [step, hmain]

theorem stage_next (hstage : Stage parse clock env argv c.state c.history past)
    (hsignals : Signalled past) (hnext : (machine parse clock env argv).next c e = some c') :
    Stage parse clock env argv c'.state c'.history (past ++ [e]) ∧ Signalled (past ++ [e]) := by
  obtain ⟨out, hstep, hhist⟩ := next_eq_some hnext
  have hsignals' : Signalled (past ++ [e]) := by
    rw [Signalled, List.mem_append, List.mem_singleton, not_or]
    refine ⟨hsignals, ?_⟩
    rintro rfl
    have hnone : c.state.step parse clock env argv (.client (.app .stopSignal)) = none :=
      c.state.step_stopSignal
    exact Option.some_ne_none _ (hstep.symm.trans hnone)
  rw [hhist]
  refine ⟨?_, hsignals'⟩
  cases e with
  | helpChecked => exact hstage.helpChecked hstep
  | installed ok => exact hstage.installed hstep
  | configured => exact hstage.configured hstep
  | signal number => exact hstage.signal hsignals' hstep
  | client ce => exact hstage.client hsignals' hstep

/-- **The exit code of the process.**  In every run of the client, from `main` to its
    return: code 0 is a request for help, which runs nothing, or the end of a run of the
    application that was asked to stop; code 1 means that a handler could not be installed
    or that the configuration was refused, with its reason and never for a help request,
    and nothing was run either; code 2, that the camera could not be started or reported an
    error before any signal.  Apart from its usage and error texts, what a process does is
    a run of the application with the accepted configuration. -/
theorem exit_codes (parse : Bytes → Option JsonValue) (clock : Nat → Int) (env : Environ)
    (argv : List Bytes) (es : List Event) (c : EventMachine.Config Program Output) (n : Nat)
    (hrun : (machine parse clock env argv).exec (.start {}) es = some c)
    (hmain : c.state.main = .returned n) :
    Ending parse clock env argv es c.history n := by
  have hstage := exec_past
    (R := fun c past => Stage parse clock env argv c.state c.history past ∧ Signalled past)
    (fun e c c' past h hnext => stage_next h.1 h.2 hnext)
    ⟨.entered rfl rfl rfl rfl, List.not_mem_nil⟩ hrun
  cases hstage.1 with
  | returned n' hreturned hending =>
      rw [hmain] at hreturned
      cases hreturned
      exact hending
  | entered hother _ _ _ | running _ _ hother _ _ =>
      rw [hmain] at hother
      cases hother
  | preparing hother _ =>
      rw [hmain] at hother
      obtain hother | ⟨_, hother⟩ := hother
      · cases hother
      · cases hother

/-- A camera that is stopped with SIGTERM. -/
def terminated : List Event :=
  [.helpChecked, .installed true, .signal .sigint, .installed true, .configured,
    .client (.app (.started true)), .signal .sigterm, .client (.app .turn),
    .client (.read .stopRequested), .client (.app .joined)]

def terminatedArgs : List Bytes :=
  [ascii "camera-client", ascii "--server", ascii "http://host", ascii "--token", ascii "key"]

theorem terminated_exit_code : ∃ c,
    (machine Application.parseSample (fun _ => 0) (fun _ => none) terminatedArgs).exec (.start {})
        terminated = some c ∧
      Ending Application.parseSample (fun _ => 0) (fun _ => none) terminatedArgs terminated
        c.history 0 := by
  have hrun : ((machine Application.parseSample (fun _ => 0) (fun _ => none) terminatedArgs).exec
      (.start {}) terminated).any (fun c => match c.state.main with
        | .returned n => n == 0
        | _ => false) = true := by
    decide +kernel
  obtain ⟨c, hexec, hmain⟩ := (Option.any_eq_true _ _).mp hrun
  have hmain : c.state.main = .returned 0 := by
    split at hmain
    · next n hmain' => rw [hmain', eq_of_beq hmain]
    · cases hmain
  exact ⟨c, hexec, exit_codes _ _ _ _ _ c 0 hexec hmain⟩

end Program

end CameraStream.Client
