/-
  CameraStream.Client.Shutdown

  What `Application::run` still does after a stop request, or after the camera has failed,
  and what can keep it from its end.

  `Pc.stepsToExit` is the longest way of the main thread to the end of `run` from where it
  stands, pings and unexpected packets apart.  Once the loop condition is false every step
  of the main thread shortens it, except that a message read may cost two steps
  (`stepsToExit_step`).

  Two things can hold it up.  The synchronous calls of Beast heed no time-out, so that a
  silent server keeps the main thread in one of the calls of `Pc.Returns` for as long as it
  likes.  And `camera.stop()` waits for the capture thread, which
  CameraStream.Client.ChildLifetimes follows.

  Each `Effort` is a thing the loop does once a round: to connect, to send, to fail, to
  wait.  A way that is short enough has no such thing before it any more, so that after the
  stop each of them happens at most once (`effort_step`).
-/

import CameraStream.Client.ApplicationSteps

namespace CameraStream.Client

open EventMachine

/-! ## The way to the end -/

/-- After `disconnect()` has returned. -/
def AfterDisconnect.stepsToExit : AfterDisconnect → Nat
  | .finish => 1
  | .delay => 6
  | .connect => 18

/-- The longest way to the end of `run`, with the loop condition false. -/
def Pc.stepsToExit : Pc → Nat
  | .stopped _ => 0
  | .joining => 1
  | .loop => 4
  | .start | .sleeping => 5
  | .delaying => 6
  | .readingAck .. => 9
  | .writingAckPong .. | .writingAttachment .. => 10
  | .writingDescriptor .. => 11
  | .popping => 12
  | .readingNamespace => 13
  | .writingNamespacePong | .writingConnect _ => 14
  | .readingOpen => 15
  | .handshaking => 16
  | .tcpConnecting => 17
  | .resolving => 18
  | .closing next => next.stepsToExit + 1
  | .closingWrite next => next.stepsToExit + 2

theorem Pc.stepsToExit_le (pc : Pc) : pc.stepsToExit ≤ 20 := by
  cases pc with
  | closing next =>
      cases next with
      | _ => decide
  | closingWrite next =>
      cases next with
      | _ => decide
  | _ => exact Nat.le_of_ble_eq_true rfl

theorem Pc.Reading.stepsToExit {pc : Pc} (h : pc.Reading) : 9 ≤ pc.stepsToExit := by
  cases h with
  | _ => exact Nat.le_of_ble_eq_true rfl

theorem Pc.Writing.stepsToExit {pc : Pc} (h : pc.Writing) : 9 ≤ pc.stepsToExit := by
  cases h with
  | _ => exact Nat.le_of_ble_eq_true rfl

/-! ## Calls that wait for the server -/

/-- The ways in which the call of the resolver or of Beast returns or throws that the main
    thread is in. -/
inductive Pc.Returns : Pc → Application.Event → Prop where
  | resolved (ok : Bool) : Returns .resolving (.resolved ok)
  | tcpConnected (ok : Bool) : Returns .tcpConnecting (.tcpConnected ok)
  | handshaken (ok : Bool) : Returns .handshaking (.handshaken ok)
  | read {pc : Pc} (h : pc.Reading) (m : Message) : Returns pc (.read m)
  | readFailed {pc : Pc} (h : pc.Reading) (isOpen : Bool) : Returns pc (.readFailed isOpen)
  | written {pc : Pc} (h : pc.Writing) : Returns pc .written
  | writeFailed {pc : Pc} (h : pc.Writing) (isOpen : Bool) : Returns pc (.writeFailed isOpen)
  | left (next : AfterDisconnect) : Returns (.closingWrite next) .written
  | leftAtOnce (next : AfterDisconnect) (isOpen : Bool) :
      Returns (.closingWrite next) (.writeFailed isOpen)
  | closed (next : AfterDisconnect) : Returns (.closing next) .closed

/-- The main thread is in such a call. -/
def Pc.AwaitsServer (pc : Pc) : Prop := ∃ e, pc.Returns e

/-! ## What the loop does once a round -/

/-- In the order of a round, the last first. -/
inductive Effort where
  | waiting
  | failing
  | sending
  | connecting

/-- The outputs that say it was done. -/
def Effort.marks : Effort → Application.Output → Bool
  | .waiting, .waiting _ => true
  | .failing, .caught => true
  | .sending, .sending _ => true
  | .connecting, .connected => true
  | _, _ => false

/-- It is still possible on a way of this length. -/
def Effort.least : Effort → Nat
  | .waiting => 6
  | .failing => 9
  | .sending => 12
  | .connecting => 13

def Effort.budget (k : Effort) (steps : Nat) : Nat := if k.least ≤ steps then 1 else 0

theorem Effort.budget_mono (k : Effort) {m n : Nat} (h : m ≤ n) : k.budget m ≤ k.budget n := by
  rw [budget, budget]
  split
  · next hm => rw [if_pos (hm.trans h)]
  · exact Nat.zero_le _

theorem Effort.budget_le (k : Effort) (steps : Nat) : k.budget steps ≤ 1 := by
  rw [budget]
  split
  · exact Nat.le_refl 1
  · exact Nat.zero_le 1

namespace Application

variable {parse : Bytes → Option JsonValue} {a b : Application} {e : Event}
  {r : Application × List Output} {out : List Output}
  {c c' : EventMachine.Config Application Output} {es : List Event}

/-- The loop condition is false. -/
def ending (a : Application) : Bool := a.stopRequested || a.cameraFailed

/-- The steps of the main thread. -/
def isMainStep : Event → Bool
  | .frameCaptured _ | .framePushed | .replacementCounted | .cameraError | .failureStored
  | .queueClosed | .stopSignal => false
  | _ => true

/-- The steps of the main thread for which it waits for nobody: `pop_for` and
    `interruptible_sleep` give up by themselves. -/
def isOwnStep : Event → Bool
  | .started _ | .turn | .popped | .delayed _ | .slept => true
  | _ => false

def isRead : Event → Bool
  | .read _ => true
  | _ => false

/-- The steps that end a callback of the capture thread. -/
def endsCallback : Event → Bool
  | .framePushed | .replacementCounted | .failureStored | .queueClosed => true
  | _ => false

/-! ## Steps -/

/-- Nothing makes the loop condition true again. -/
theorem ending_step (h : Step parse a e r) (hending : a.ending = true) : r.1.ending = true := by
  obtain hstop | hfailed := Bool.or_eq_true_iff.mp hending
  · refine Bool.or_eq_true_iff.mpr (.inl ?_)
    obtain heffect | ⟨b, -, hcapture, rfl⟩ := step_loopEffect h
    · exact heffect.stopRequested hstop
    · cases captureStep_cases hcapture with
      | _ => exact hstop
  · refine Bool.or_eq_true_iff.mpr (.inr ?_)
    obtain heffect | ⟨b, -, hcapture, rfl⟩ := step_loopEffect h
    · exact heffect.cameraFailed.trans hfailed
    · cases captureStep_cases hcapture with
      | stored hcapture => rfl
      | _ => exact hfailed

theorem isMainStep_captureStep (h : a.captureStep e = some b) : isMainStep e = false := by
  cases captureStep_cases h with
  | _ => rfl

theorem stepsToExit_resumeAfter (a : Application) (next : AfterDisconnect) :
    (a.resumeAfter next).1.main.stepsToExit ≤ next.stepsToExit := by
  cases next with
  | connect =>
      rw [resumeAfter]
      split
      · exact Nat.le_refl _
      · exact Nat.le_of_ble_eq_true rfl
  | delay => exact Nat.le_refl _
  | finish => exact Nat.le_refl _

theorem stepsToExit_disconnect (a : Application) (next : AfterDisconnect) :
    (a.disconnect next).1.main.stepsToExit ≤ next.stepsToExit + 2 := by
  rw [disconnect]
  split
  · exact Nat.le_refl _
  · exact (stepsToExit_resumeAfter _ next).trans (Nat.le_add_right _ 2)

theorem stepsToExit_raise (a : Application) : a.raise.1.main.stepsToExit ≤ 8 :=
  stepsToExit_disconnect a .delay

/-- All that throws is farther from the end than the `catch`. -/
theorem Raises.stepsToExit (h : Raises parse a e b out) : 9 ≤ a.main.stepsToExit := by
  cases h with
  | resolve hmain => rw [hmain]; decide
  | tcp hmain => rw [hmain]; decide
  | handshake hmain => rw [hmain]; decide
  | opening hmain hbad => rw [hmain]; decide
  | refused hmain happroval herror => rw [hmain]; decide
  | ack hmain hmatch hbad => rw [hmain]; exact Nat.le_refl _
  | read hmain => exact hmain.stepsToExit
  | write hmain => exact hmain.stepsToExit
  | send hmain hpop hbad => rw [hmain]; decide

theorem Goto.stepsToExit {pc : Pc} (h : Goto a e pc out) (hending : a.ending = true) :
    pc.stepsToExit + (if isMainStep e then 1 else 0) ≤
      a.main.stepsToExit + (if isRead e then 2 else 0) := by
  cases h with
  | connected hmain hrunning hconnected =>
      rw [ending, hrunning] at hending
      cases hending
  | started hmain => rw [hmain]; decide
  | startFailed hmain => rw [hmain]; decide
  | tcpConnected hmain => rw [hmain]; decide
  | opened hmain hopen hauth => rw [hmain]; exact Nat.le_of_ble_eq_true rfl
  | presented hmain => rw [hmain]; exact Nat.le_of_ble_eq_true rfl
  | namespacePing hmain hping => rw [hmain]; exact Nat.le_of_ble_eq_true rfl
  | namespacePong hmain => rw [hmain]; decide
  | namespaceSkipped hmain hping happroval => rw [hmain]; exact Nat.le_of_ble_eq_true rfl
  | described hmain => rw [hmain]; exact Nat.le_of_ble_eq_true rfl
  | attached hmain => rw [hmain]; exact Nat.le_of_ble_eq_true rfl
  | ackPing hmain hping => rw [hmain]; exact Nat.le_of_ble_eq_true rfl
  | ackPong hmain => rw [hmain]; exact Nat.le_of_ble_eq_true rfl
  | ackSkipped hmain hping hother => rw [hmain]; exact Nat.le_of_ble_eq_true rfl
  | left hmain => rw [hmain]; exact Nat.le_refl _
  | joined hmain hcapture => rw [hmain]; exact Nat.le_refl _

theorem stepsToExit_step (h : Step parse a e r) (hending : a.ending = true) :
    r.1.main.stepsToExit + (if isMainStep e then 1 else 0) ≤
      a.main.stepsToExit + (if isRead e then 2 else 0) := by
  cases h with
  | goto pc hgoto => exact hgoto.stepsToExit hending
  | raises b hraises =>
      have hcatch := stepsToExit_raise b
      have hfar := hraises.stepsToExit
      show b.raise.1.main.stepsToExit + _ ≤ _
      split
      · omega
      · omega
  | stops hmain hstop =>
      rw [hmain]
      exact Nat.add_le_add_right (stepsToExit_disconnect _ .finish) 1
  | connects hmain hrunning hconnected =>
      rw [ending, hrunning] at hending
      cases hending
  | left next hmain =>
      rw [hmain]
      exact Nat.add_le_add_right (stepsToExit_resumeAfter _ next) 1
  | leftAtOnce isOpen next hmain =>
      rw [hmain]
      exact (Nat.add_le_add_right (stepsToExit_resumeAfter _ next) 1).trans (Nat.le_succ _)
  | resolved hmain => rw [hmain]; exact Nat.le_refl _
  | handshaken hmain => rw [hmain]; exact Nat.le_refl _
  | approved m hmain happroval => rw [hmain]; exact Nat.le_of_ble_eq_true rfl
  | noFrame frames hmain hpop => rw [hmain]; exact Nat.le_of_ble_eq_true rfl
  | sends frames frame hmain hpop hauth hsocket hjpeg => rw [hmain]; exact Nat.le_refl _
  | acked m frame ackId ack hmain hmatch hack => rw [hmain]; exact Nat.le_of_ble_eq_true rfl
  | delayed jitter hmain hjitter => rw [hmain]; exact Nat.le_refl _
  | slept hmain => rw [hmain]; exact Nat.le_refl _
  | capture b hcapturing hcapture =>
      rw [isMainStep_captureStep hcapture, (captureStep_frame hcapture).2.2.2]
      exact Nat.le_add_right _ _
  | stopSignal => exact Nat.le_refl _

/-! ## Efforts -/

theorem effort_resumeAfter (k : Effort) (a : Application) (next : AfterDisconnect) :
    (a.resumeAfter next).2.countP k.marks + k.budget (a.resumeAfter next).1.main.stepsToExit ≤
      k.budget next.stepsToExit := by
  cases next with
  | connect =>
      rw [resumeAfter]
      split
      · exact Nat.le_of_eq (Nat.zero_add _)
      · -- a URL that cannot be parsed: the exception is this round's failure
        cases k with
        | _ => exact Nat.le_of_ble_eq_true rfl
  | delay => exact Nat.le_of_eq (Nat.zero_add _)
  | finish => exact Nat.le_of_eq (Nat.zero_add _)

theorem effort_disconnect (k : Effort) (a : Application) (next : AfterDisconnect) :
    (a.disconnect next).2.countP k.marks + k.budget (a.disconnect next).1.main.stepsToExit ≤
      k.budget (next.stepsToExit + 2) := by
  rw [disconnect]
  split
  · exact Nat.le_of_eq (Nat.zero_add _)
  · exact (effort_resumeAfter k _ next).trans (k.budget_mono (Nat.le_add_right _ 2))

theorem effort_goto (k : Effort) {pc : Pc} (h : Goto a e pc out) (hending : a.ending = true) :
    out.countP k.marks + k.budget pc.stepsToExit ≤ k.budget a.main.stepsToExit := by
  cases h with
  | connected hmain hrunning hconnected =>
      rw [ending, hrunning] at hending
      cases hending
  | left hmain =>
      rw [hmain]
      have hquiet : [Output.wrote .namespaceDisconnect].countP k.marks = 0 := by
        cases k with
        | _ => rfl
      rw [hquiet, Nat.zero_add]
      exact k.budget_mono (Nat.le_succ _)
  | started hmain | startFailed hmain | tcpConnected hmain | opened hmain hopen hauth
  | presented hmain | namespacePing hmain hping | namespacePong hmain
  | namespaceSkipped hmain hping happroval | described hmain | attached hmain
  | ackPing hmain hping | ackPong hmain | ackSkipped hmain hping hother
  | joined hmain hcapture =>
      rw [hmain]
      cases k with
      | _ => exact Nat.le_of_ble_eq_true rfl

/-- What was done before an exception is on the way to it. -/
theorem effort_before_catch (k : Effort) (h : Raises parse a e b out) :
    out.countP k.marks + k.budget 11 ≤ k.budget a.main.stepsToExit := by
  have hfar := k.budget_mono h.stepsToExit
  have hnine : k.budget 11 = k.budget 9 := by
    cases k with
    | _ => rfl
  cases h with
  | send hmain hpop hbad =>
      rw [hmain]
      cases k with
      | _ => exact Nat.le_of_ble_eq_true rfl
  | resolve hmain | tcp hmain | handshake hmain | read hmain | write hmain =>
      rwa [List.countP_nil, Nat.zero_add, hnine]
  | opening hmain hbad | refused hmain happroval herror | ack hmain hmatch hbad =>
      have hquiet : ∀ m : Message, [Output.received m].countP k.marks = 0 := by
        intro m
        cases k with
        | _ => rfl
      rwa [hquiet, Nat.zero_add, hnine]

/-- The exception itself is this round's failure. -/
theorem effort_raises (k : Effort) (h : Raises parse a e b out) :
    (out ++ b.raise.2).countP k.marks + k.budget b.raise.1.main.stepsToExit ≤
      k.budget a.main.stepsToExit := by
  have hcatch := k.budget_mono (stepsToExit_raise b)
  have hcaught : [Output.caught].countP k.marks + k.budget 8 ≤ k.budget 11 := by
    cases k with
    | _ => decide
  have hbefore := effort_before_catch k h
  rw [raise_out, List.countP_append]
  omega

theorem effort_step (k : Effort) (h : Step parse a e r) (hending : a.ending = true) :
    r.2.countP k.marks + k.budget r.1.main.stepsToExit ≤ k.budget a.main.stepsToExit := by
  cases h with
  | goto pc hgoto => exact effort_goto k hgoto hending
  | raises b hraises => exact effort_raises k hraises
  | stops hmain hstop =>
      rw [hmain]
      exact (effort_disconnect k _ .finish).trans (k.budget_mono (Nat.le_succ _))
  | connects hmain hrunning hconnected =>
      rw [ending, hrunning] at hending
      cases hending
  | left next hmain =>
      rw [hmain]
      exact (effort_resumeAfter k _ next).trans (k.budget_mono (Nat.le_succ _))
  | leftAtOnce isOpen next hmain =>
      rw [hmain]
      exact (effort_resumeAfter k _ next).trans (k.budget_mono (Nat.le_add_right _ 2))
  | resolved hmain | handshaken hmain | approved m hmain happroval | noFrame frames hmain hpop
  | sends frames frame hmain hpop hauth hsocket hjpeg
  | acked m frame ackId ack hmain hmatch hack | delayed jitter hmain hjitter | slept hmain =>
      rw [hmain]
      cases k with
      | _ => exact Nat.le_of_ble_eq_true rfl
  | capture b hcapturing hcapture =>
      rw [(captureStep_frame hcapture).2.2.2]
      exact Nat.le_of_eq (Nat.zero_add _)
  | stopSignal => exact Nat.le_of_eq (Nat.zero_add _)

/-! ## Runs -/

theorem ending_next (hending : c.state.ending = true)
    (hnext : (machine parse).next c e = some c') : c'.state.ending = true := by
  obtain ⟨out, hstep, -⟩ := next_eq_some hnext
  exact ending_step (step_cases hstep) hending

theorem step_of_isMainStep (h : isMainStep e = true) : step parse a e = a.mainStep parse e := by
  cases e with
  | frameCaptured frame => cases h
  | framePushed => cases h
  | replacementCounted => cases h
  | cameraError => cases h
  | failureStored => cases h
  | queueClosed => cases h
  | stopSignal => cases h
  | _ => rfl

theorem isMainStep_of_isOwnStep (h : isOwnStep e = true) : isMainStep e = true := by
  cases e with
  | started ok | turn | popped | delayed jitter | slept => rfl
  | _ => cases h

theorem isMainStep_of_returns {pc : Pc} (h : pc.Returns e) : isMainStep e = true := by
  cases h with
  | _ => rfl

/-- Whatever a call returns, `run` goes on with it. -/
theorem returns_ready (h : a.main.Returns e) : ∃ r, a.mainStep parse e = some r := by
  generalize hmain : a.main = pc at h
  cases h with
  | resolved ok =>
      cases ok with
      | true => exact ⟨_, by rw [mainStep, hmain]; rfl⟩
      | false => exact ⟨_, by rw [mainStep, hmain]; rfl⟩
  | tcpConnected ok =>
      cases ok with
      | true => exact ⟨_, by rw [mainStep, hmain]; rfl⟩
      | false => exact ⟨_, by rw [mainStep, hmain]; rfl⟩
  | handshaken ok =>
      cases ok with
      | true => exact ⟨_, by rw [mainStep, hmain]; rfl⟩
      | false => exact ⟨_, by rw [mainStep, hmain]; rfl⟩
  | read h m =>
      obtain ⟨r, hr⟩ : ∃ r, a.onRead parse m = some r := by
        cases h with
        | readingOpen =>
            cases hopen : m.isOpen with
            | false => exact ⟨_, by rw [onRead, hmain, hopen]; rfl⟩
            | true =>
                cases hauth : authJson a.config with
                | none => exact ⟨_, by rw [onRead, hmain, hopen, hauth]; rfl⟩
                | some auth => exact ⟨_, by rw [onRead, hmain, hopen, hauth]; rfl⟩
        | readingNamespace => exact ⟨_, by rw [onRead, hmain]⟩
        | readingAck => exact ⟨_, by rw [onRead, hmain]⟩
      exact ⟨_, congrArg (Option.map _) hr⟩
  | readFailed h isOpen =>
      cases h with
      | _ => exact ⟨_, by rw [mainStep, hmain]⟩
  | written h =>
      cases h with
      | _ => exact ⟨_, by rw [mainStep, onWritten, hmain]⟩
  | writeFailed h isOpen =>
      cases h with
      | _ => exact ⟨_, by rw [mainStep, onWriteFailed, hmain]⟩
  | left next => exact ⟨_, by rw [mainStep, onWritten, hmain]⟩
  | leftAtOnce next isOpen => exact ⟨_, by rw [mainStep, onWriteFailed, hmain]⟩
  | closed next => exact ⟨_, by rw [mainStep, hmain]⟩

/-- Elsewhere the main thread can go on by itself, except where it joins the capture
    thread. -/
theorem own_ready (hrunning : ∀ code, a.main ≠ .stopped code) (hserver : ¬ a.main.AwaitsServer)
    (hjoin : a.main ≠ .joining) : ∃ e, isOwnStep e = true ∧ ∃ r, a.mainStep parse e = some r := by
  obtain ⟨pc, hmain⟩ : ∃ pc, a.main = pc := ⟨_, rfl⟩
  rw [hmain] at hserver
  cases pc with
  | stopped code => exact absurd hmain (hrunning code)
  | joining => exact absurd hmain hjoin
  | start => exact ⟨.started true, rfl, _, by rw [mainStep, hmain]; rfl⟩
  | loop => exact ⟨.turn, rfl, _, by rw [mainStep, hmain]⟩
  | popping => exact ⟨.popped, rfl, _, by rw [mainStep, hmain]⟩
  | delaying => exact ⟨.delayed 0, rfl, _, by rw [mainStep, hmain]; rfl⟩
  | sleeping => exact ⟨.slept, rfl, _, by rw [mainStep, hmain]⟩
  | closingWrite next => exact absurd ⟨_, .left next⟩ hserver
  | closing next => exact absurd ⟨_, .closed next⟩ hserver
  | resolving => exact absurd ⟨_, .resolved true⟩ hserver
  | tcpConnecting => exact absurd ⟨_, .tcpConnected true⟩ hserver
  | handshaking => exact absurd ⟨_, .handshaken true⟩ hserver
  | readingOpen => exact absurd ⟨_, .readFailed .readingOpen true⟩ hserver
  | readingNamespace => exact absurd ⟨_, .readFailed .readingNamespace true⟩ hserver
  | readingAck frame ackId =>
      exact absurd ⟨_, .readFailed (.readingAck frame ackId) true⟩ hserver
  | writingConnect auth => exact absurd ⟨_, .written (.writingConnect auth)⟩ hserver
  | writingNamespacePong => exact absurd ⟨_, .written .writingNamespacePong⟩ hserver
  | writingDescriptor frame ackId =>
      exact absurd ⟨_, .written (.writingDescriptor frame ackId)⟩ hserver
  | writingAttachment frame ackId =>
      exact absurd ⟨_, .written (.writingAttachment frame ackId)⟩ hserver
  | writingAckPong frame ackId =>
      exact absurd ⟨_, .written (.writingAckPong frame ackId)⟩ hserver

/-- A callback can go on. -/
theorem callback_ready (hmain : a.main = .joining) (hbusy : a.capture ≠ .idle) :
    ∃ e, endsCallback e = true ∧ ∃ r, step parse a e = some r := by
  have hcapturing : a.capturing = true := by rw [capturing, hmain]
  cases hcapture : a.capture with
  | idle => exact absurd hcapture hbusy
  | counted frame =>
      exact ⟨.framePushed, rfl, _, (if_pos hcapturing).trans (by rw [captureStep, hcapture]; rfl)⟩
  | replacing =>
      exact ⟨.replacementCounted, rfl, _,
        (if_pos hcapturing).trans (by rw [captureStep, hcapture]; rfl)⟩
  | failing =>
      exact ⟨.failureStored, rfl, _, (if_pos hcapturing).trans (by rw [captureStep, hcapture]; rfl)⟩
  | closing =>
      exact ⟨.queueClosed, rfl, _, (if_pos hcapturing).trans (by rw [captureStep, hcapture]; rfl)⟩

/-- **`run` ends, if the server and the camera let it.**  Once a stop is requested or the
    camera has failed, the main thread takes at most twenty steps, and two more for each
    message it reads.  Until it has stopped, it is in a call that waits for the server, with
    whose return it goes on; or in `camera.stop()`, where a callback of the capture thread
    can go on if there is one; or it can step by itself. -/
theorem run_ends (parse : Bytes → Option JsonValue) (c : EventMachine.Config Application Output)
    (hending : c.state.ending = true) :
    (∀ es c', (machine parse).exec c es = some c' →
      es.countP isMainStep ≤ 20 + 2 * es.countP isRead) ∧
    (∀ e, c.state.main.Returns e → ∃ c', (machine parse).next c e = some c') ∧
    (c.state.main = .joining → c.state.capture ≠ .idle →
      ∃ e c', endsCallback e = true ∧ (machine parse).next c e = some c') ∧
    ((∀ code, c.state.main ≠ .stopped code) → ¬ c.state.main.AwaitsServer →
      c.state.main ≠ .joining →
      ∃ e c', isOwnStep e = true ∧ (machine parse).next c e = some c') := by
  refine ⟨?_, ?_, ?_, ?_⟩
  · intro es c' hrun
    have hcount := exec_countP_le_add (I := fun c => c.state.ending = true)
      (μ := fun c => c.state.main.stepsToExit) (p := isMainStep) (q := isRead) (k := 2)
      ?_ hending hrun
    · have hle := c.state.main.stepsToExit_le
      omega
    · intro e _ c c' hending hnext
      obtain ⟨out, hstep, -⟩ := next_eq_some hnext
      exact ⟨ending_next hending hnext, stepsToExit_step (step_cases hstep) hending⟩
  · intro e hreturns
    obtain ⟨r, hr⟩ : ∃ r, c.state.mainStep parse e = some r := returns_ready hreturns
    exact ⟨_, next_of_step ((step_of_isMainStep (isMainStep_of_returns hreturns)).trans hr)⟩
  · intro hmain hbusy
    obtain ⟨e, hends, r, hr⟩ : ∃ e, endsCallback e = true ∧ ∃ r, step parse c.state e = some r :=
      callback_ready hmain hbusy
    exact ⟨e, _, hends, next_of_step hr⟩
  · intro hrunning hserver hjoin
    obtain ⟨e, hown, r, hr⟩ :
        ∃ e, isOwnStep e = true ∧ ∃ r, c.state.mainStep parse e = some r :=
      own_ready hrunning hserver hjoin
    exact ⟨e, _, hown,
      next_of_step ((step_of_isMainStep (isMainStep_of_isOwnStep hown)).trans hr)⟩

/-- The stop comes while the main thread waits for a frame, and there is one. -/
def stopRun : List Event :=
  connectRun ++ [.frameCaptured (sampleFrame 1), .framePushed, .stopSignal]

/-- Then `pop_for` returns, whatever the server does. -/
theorem stopRun_ends :
    ∃ c, (machine parseSample).exec (.start { config := sampleConfig }) stopRun = some c ∧
      c.state.ending = true ∧ c.state.main = .popping ∧
      (∀ es c', (machine parseSample).exec c es = some c' →
        es.countP isMainStep ≤ 20 + 2 * es.countP isRead) ∧
      ∃ e c', isOwnStep e = true ∧ (machine parseSample).next c e = some c' := by
  have hrun : ((machine parseSample).exec (.start { config := sampleConfig }) stopRun).any
      (fun c => c.state.ending && c.state.main = .popping) = true := by decide +kernel
  obtain ⟨c, hc, hboth⟩ := (Option.any_eq_true _ _).mp hrun
  obtain ⟨hending, hpops⟩ := Bool.and_eq_true_iff.mp hboth
  have hmain : c.state.main = .popping := of_decide_eq_true hpops
  have hserver : ¬ c.state.main.AwaitsServer := by
    rw [hmain]
    rintro ⟨e, h⟩
    cases h with
    | read h | readFailed h | written h | writeFailed h => cases h
  obtain ⟨hbound, -, -, hown⟩ := run_ends parseSample c hending
  refine ⟨c, hc, hending, hmain, hbound, hown ?_ hserver ?_⟩
  · intro code
    rw [hmain]
    exact Pc.noConfusion
  · rw [hmain]
    exact Pc.noConfusion

/-- **The last round.**  From then on `run` connects at most once more, hands at most one more
    frame to `send_frame`, catches at most one exception and waits at most once. -/
theorem last_round (parse : Bytes → Option JsonValue) (c : EventMachine.Config Application Output)
    (es : List Event) (c' : EventMachine.Config Application Output)
    (hending : c.state.ending = true) (hrun : (machine parse).exec c es = some c') (k : Effort) :
    c'.history.countP k.marks ≤ c.history.countP k.marks + 1 := by
  have hbudget : c'.state.ending = true ∧
      c'.history.countP k.marks + k.budget c'.state.main.stepsToExit ≤
        c.history.countP k.marks + 1 := by
    refine exec_invariant (I := fun c' => c'.state.ending = true ∧
      c'.history.countP k.marks + k.budget c'.state.main.stepsToExit ≤
        c.history.countP k.marks + 1) ?_ ⟨hending, ?_⟩ hrun
    · rintro d e d' ⟨hd, hle⟩ hnext
      obtain ⟨out, hstep, hhist⟩ := next_eq_some hnext
      have heffort : out.countP k.marks + k.budget d'.state.main.stepsToExit ≤
          k.budget d.state.main.stepsToExit := effort_step k (step_cases hstep) hd
      refine ⟨ending_next hd hnext, ?_⟩
      rw [hhist, List.countP_append]
      omega
    · exact Nat.add_le_add_left (k.budget_le _) _
  omega

/-- The frame is still sent; its write fails, and `run` waits once more before it ends. -/
def lastFrame : List Event :=
  [.popped, .written, .writeFailed false, .delayed 0, .slept, .turn, .joined]

theorem lastFrame_last_round :
    ∃ c c', (machine parseSample).exec (.start { config := sampleConfig }) stopRun = some c ∧
      (machine parseSample).exec c lastFrame = some c' ∧
      c.history.countP Effort.sending.marks = 0 ∧ c'.history.countP Effort.sending.marks = 1 ∧
      ∀ k : Effort, c'.history.countP k.marks ≤ c.history.countP k.marks + 1 := by
  have hrun : ((machine parseSample).exec (.start { config := sampleConfig }) stopRun).any
      (fun c => c.state.ending && decide (c.history.countP Effort.sending.marks = 0) &&
        ((machine parseSample).exec c lastFrame).any fun c' =>
          decide (c'.history.countP Effort.sending.marks = 1)) = true := by decide +kernel
  obtain ⟨c, hc, hboth⟩ := (Option.any_eq_true _ _).mp hrun
  obtain ⟨hbefore, hrest⟩ := Bool.and_eq_true_iff.mp hboth
  obtain ⟨hending, hnone⟩ := Bool.and_eq_true_iff.mp hbefore
  obtain ⟨c', hc', hone⟩ := (Option.any_eq_true _ _).mp hrest
  exact ⟨c, c', hc, hc', of_decide_eq_true hnone, of_decide_eq_true hone,
    fun k => last_round parseSample c lastFrame c' hending hc' k⟩

end Application

end CameraStream.Client
