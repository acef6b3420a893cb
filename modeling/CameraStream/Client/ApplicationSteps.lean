/-
  CameraStream.Client.ApplicationSteps

  What a single step of `Application::run` can do.

  `Step` lists the outcomes once, with the place of the main thread and every
  condition that leads to them; `step_cases` is the inversion of `step`.  Most
  steps only move the main thread (`Goto`), and all exceptions end in the same
  `catch` (`Raises`), so that a property of steps has few cases that differ.
-/

import CameraStream.Client.Application

namespace CameraStream.Client

/-- The places at which the main thread reads. -/
inductive Pc.Reading : Pc → Prop where
  | readingOpen : Reading .readingOpen
  | readingNamespace : Reading .readingNamespace
  | readingAck (frame : Frame) (ackId : UInt64) : Reading (.readingAck frame ackId)

/-- The places at which the main thread writes, outside `disconnect()`. -/
inductive Pc.Writing : Pc → Prop where
  | writingConnect (auth : AuthJson) : Writing (.writingConnect auth)
  | writingNamespacePong : Writing .writingNamespacePong
  | writingDescriptor (frame : Frame) (ackId : UInt64) : Writing (.writingDescriptor frame ackId)
  | writingAttachment (frame : Frame) (ackId : UInt64) : Writing (.writingAttachment frame ackId)
  | writingAckPong (frame : Frame) (ackId : UInt64) : Writing (.writingAckPong frame ackId)

/-- `run` has left its loop and cleans up. -/
def Pc.cleaning : Pc → Bool
  | .closingWrite .finish | .closing .finish | .joining => true
  | _ => false

namespace Application

/-! ## Outcomes -/

/-- Steps that move the main thread and change nothing else. -/
inductive Goto (a : Application) : Event → Pc → List Output → Prop where
  | started (hmain : a.main = .start) : Goto a (.started true) .loop []
  | startFailed (hmain : a.main = .start) : Goto a (.started false) (.stopped 2) [.exited 2]
  | connected (hmain : a.main = .loop) (hrunning : (a.stopRequested || a.cameraFailed) = false)
      (hconnected : a.socket.connected = true) : Goto a .turn .popping []
  | tcpConnected (hmain : a.main = .tcpConnecting) : Goto a (.tcpConnected true) .handshaking []
  | opened {m : Message} {auth : AuthJson} (hmain : a.main = .readingOpen)
      (hopen : m.isOpen = true) (hauth : authJson a.config = some auth) :
      Goto a (.read m) (.writingConnect auth) [.received m]
  | presented {auth : AuthJson} (hmain : a.main = .writingConnect auth) :
      Goto a .written .readingNamespace [.wrote (.namespaceConnect auth)]
  | namespacePing {m : Message} (hmain : a.main = .readingNamespace) (hping : m.isPing = true) :
      Goto a (.read m) .writingNamespacePong [.received m]
  | namespacePong (hmain : a.main = .writingNamespacePong) :
      Goto a .written .readingNamespace [.wrote .pong]
  | namespaceSkipped {m : Message} (hmain : a.main = .readingNamespace)
      (hping : m.isPing = false) (happroval : m.isApproval = false) :
      Goto a (.read m) .readingNamespace [.received m]
  | described {frame : Frame} {ackId : UInt64} (hmain : a.main = .writingDescriptor frame ackId) :
      Goto a .written (.writingAttachment frame ackId)
        [.wrote (.frameDescriptor ackId frame.timestampMs)]
  | attached {frame : Frame} {ackId : UInt64} (hmain : a.main = .writingAttachment frame ackId) :
      Goto a .written (.readingAck frame ackId) [.wrote (.attachment frame.jpeg)]
  | ackPing {m : Message} {frame : Frame} {ackId : UInt64}
      (hmain : a.main = .readingAck frame ackId) (hping : m.isPing = true) :
      Goto a (.read m) (.writingAckPong frame ackId) [.received m]
  | ackPong {frame : Frame} {ackId : UInt64} (hmain : a.main = .writingAckPong frame ackId) :
      Goto a .written (.readingAck frame ackId) [.wrote .pong]
  | ackSkipped {m : Message} {frame : Frame} {ackId : UInt64}
      (hmain : a.main = .readingAck frame ackId) (hping : m.isPing = false)
      (hother : (m.text && m.startsWith (ackHead ackId)) = false) :
      Goto a (.read m) (.readingAck frame ackId) [.received m]
  | left {next : AfterDisconnect} (hmain : a.main = .closingWrite next) :
      Goto a .written (.closing next) [.wrote .namespaceDisconnect]
  | joined (hmain : a.main = .joining) (hcapture : a.capture = .idle) :
      Goto a .joined (.stopped (if a.cameraFailed then 2 else 0))
        [.exited (if a.cameraFailed then 2 else 0)]

/-- Steps that throw, with the state and the outputs before the `catch`. -/
inductive Raises (parse : Bytes → Option JsonValue) (a : Application) :
    Event → Application → List Output → Prop where
  | resolve (hmain : a.main = .resolving) : Raises parse a (.resolved false) a []
  | tcp (hmain : a.main = .tcpConnecting) : Raises parse a (.tcpConnected false) a []
  | handshake (hmain : a.main = .handshaking) : Raises parse a (.handshaken false) a []
  | opening {m : Message} (hmain : a.main = .readingOpen)
      (hbad : m.isOpen = true → authJson a.config = none) :
      Raises parse a (.read m) a [.received m]
  | refused {m : Message} (hmain : a.main = .readingNamespace) (happroval : m.isApproval = false)
      (herror : m.isConnectError = true) : Raises parse a (.read m) a [.received m]
  | ack {m : Message} {frame : Frame} {ackId : UInt64} (hmain : a.main = .readingAck frame ackId)
      (hmatch : (m.text && m.startsWith (ackHead ackId)) = true)
      (hbad : decodeAck parse ackId m = none) : Raises parse a (.read m) a [.received m]
  | read {isOpen : Bool} (hmain : a.main.Reading) :
      Raises parse a (.readFailed isOpen) (a.setOpen isOpen) []
  | write {isOpen : Bool} (hmain : a.main.Writing) :
      Raises parse a (.writeFailed isOpen) (a.setOpen isOpen) []
  | send {frames : LatestFrameQueue} {frame : Frame} (hmain : a.main = .popping)
      (hpop : a.frames.popFor = (frames, some frame))
      (hbad : (a.socket.authenticated && a.socket.socket.isSome &&
        hasJpegBoundary frame.jpeg) = false) :
      Raises parse a .popped { a with frames := frames } [.sending frame]

/-- One step, by outcome. -/
inductive Step (parse : Bytes → Option JsonValue) (a : Application) :
    Event → Application × List Output → Prop where
  | goto {e : Event} {out : List Output} (pc : Pc) (h : Goto a e pc out) :
      Step parse a e ({ a with main := pc }, out)
  | raises {e : Event} {out : List Output} (b : Application) (h : Raises parse a e b out) :
      Step parse a e (b.raise.1, out ++ b.raise.2)
  | stops (hmain : a.main = .loop) (hstop : (a.stopRequested || a.cameraFailed) = true) :
      Step parse a .turn ({ a with frames := a.frames.close }.disconnect .finish)
  | connects (hmain : a.main = .loop) (hrunning : (a.stopRequested || a.cameraFailed) = false)
      (hconnected : a.socket.connected = false) : Step parse a .turn (a.disconnect .connect)
  | left (next : AfterDisconnect) (hmain : a.main = .closing next) :
      Step parse a .closed (a.dropSocket.resumeAfter next)
  | leftAtOnce (isOpen : Bool) (next : AfterDisconnect) (hmain : a.main = .closingWrite next) :
      Step parse a (.writeFailed isOpen) (a.dropSocket.resumeAfter next)
  | resolved (hmain : a.main = .resolving) :
      Step parse a (.resolved true)
        ({ a with
            socket := { a.socket with socket := some false }
            main := .tcpConnecting }, [])
  | handshaken (hmain : a.main = .handshaking) :
      Step parse a (.handshaken true) ({ a.setOpen true with main := .readingOpen }, [])
  | approved (m : Message) (hmain : a.main = .readingNamespace) (happroval : m.isApproval = true) :
      Step parse a (.read m)
        ({ a with socket := a.socket.authenticate, backoff := 1, main := .popping },
          [.received m, .connected])
  | noFrame (frames : LatestFrameQueue) (hmain : a.main = .popping)
      (hpop : a.frames.popFor = (frames, none)) :
      Step parse a .popped ({ a with frames := frames, main := .loop }, [])
  | sends (frames : LatestFrameQueue) (frame : Frame) (hmain : a.main = .popping)
      (hpop : a.frames.popFor = (frames, some frame)) (hauth : a.socket.authenticated = true)
      (hsocket : a.socket.socket.isSome = true) (hjpeg : hasJpegBoundary frame.jpeg = true) :
      Step parse a .popped
        ({ a with
            frames := frames
            socket := { a.socket with nextAckId := a.socket.nextAckId + 1 }
            main := .writingDescriptor frame a.socket.nextAckId }, [.sending frame])
  | acked (m : Message) (frame : Frame) (ackId : UInt64) (ack : FrameAck)
      (hmain : a.main = .readingAck frame ackId)
      (hmatch : (m.text && m.startsWith (ackHead ackId)) = true)
      (hack : decodeAck parse ackId m = some ack) :
      Step parse a (.read m)
        ({ a with
            accepted := a.accepted + if ack.accepted then 1 else 0
            rejected := a.rejected + if ack.accepted then 0 else 1
            main := .loop }, [.received m, .acked frame ack])
  | delayed (jitter : Nat) (hmain : a.main = .delaying) (hjitter : jitter ≤ maximumJitter) :
      Step parse a (.delayed jitter)
        ({ a with main := .sleeping }, [.waiting (a.backoff * 1000 + jitter)])
  | slept (hmain : a.main = .sleeping) :
      Step parse a .slept
        ({ a with backoff := min (a.backoff * 2) maximumBackoff, main := .loop }, [])
  | capture {e : Event} (b : Application) (hcapturing : a.capturing = true)
      (h : a.captureStep e = some b) : Step parse a e (b, [])
  | stopSignal : Step parse a .stopSignal ({ a with stopRequested := true }, [])

/-! ## Inversion -/

variable {parse : Bytes → Option JsonValue} {a : Application} {e : Event}
  {r : Application × List Output}

/-- A step that keeps the place of the main thread. -/
theorem goto_same {pc : Pc} (hmain : a.main = pc) : { a with main := pc } = a := by
  rw [← hmain]

theorem step_turn (hmain : a.main = .loop) : Step parse a .turn a.turn := by
  rw [turn]
  split
  · next hstop => exact .stops hmain hstop
  · next hrunning =>
      have hrunning := Bool.eq_false_of_not_eq_true hrunning
      split
      · next hconnected => exact .goto .popping (.connected hmain hrunning hconnected)
      · next hconnected =>
          exact .connects hmain hrunning (Bool.eq_false_of_not_eq_true hconnected)

/-- The text of a ping is one character long. -/
theorem isPing_of_startsWith {m : Message} {head : Bytes} (hhead : 1 < head.length)
    (h : m.startsWith head = true) : m.isPing = false := by
  by_contra hping
  have hdata := of_decide_eq_true (Bool.and_eq_true_iff.mp (Bool.of_not_eq_false hping)).2
  have hlength := (List.isPrefixOf_iff_prefix.mp h).length_le
  rw [hdata] at hlength
  exact absurd (hhead.trans_le hlength) (by decide)

/-- The approval is told from the other packets by its text. -/
theorem isPing_of_isApproval {m : Message} (h : m.isApproval = true) : m.isPing = false :=
  isPing_of_startsWith (by decide) (Bool.and_eq_true_iff.mp h).2

/-- A connect error is no ping. -/
theorem isPing_of_isConnectError {m : Message} (h : m.isConnectError = true) :
    m.isPing = false :=
  isPing_of_startsWith (by decide) (Bool.and_eq_true_iff.mp h).2

/-- An ACK is no ping. -/
theorem isPing_of_ackHead {m : Message} {ackId : UInt64}
    (h : (m.text && m.startsWith (ackHead ackId)) = true) : m.isPing = false := by
  refine isPing_of_startsWith ?_ (Bool.and_eq_true_iff.mp h).2
  have hlength : (ascii "43/stream,").length = 10 := by decide
  rw [ackHead, List.length_append, hlength]
  omega

theorem step_onNamespaceMessage (m : Message) (hmain : a.main = .readingNamespace) :
    Step parse a (.read m)
      ((a.onNamespaceMessage m).1, .received m :: (a.onNamespaceMessage m).2) := by
  rw [onNamespaceMessage]
  split
  · next hping => exact .goto _ (.namespacePing hmain hping)
  · next hping =>
    have hping := Bool.eq_false_of_not_eq_true hping
    split
    · next happroval => exact .approved m hmain happroval
    · next happroval =>
        have happroval := Bool.eq_false_of_not_eq_true happroval
        split
        · next herror => exact .raises a (.refused hmain happroval herror)
        · -- any other packet is read and dropped
          have hgoto : Step parse a (.read m) _ :=
            .goto _ (.namespaceSkipped hmain hping happroval)
          rwa [goto_same hmain] at hgoto

theorem step_onAckMessage {frame : Frame} {ackId : UInt64} (m : Message)
    (hmain : a.main = .readingAck frame ackId) :
    Step parse a (.read m) ((a.onAckMessage parse frame ackId m).1,
      .received m :: (a.onAckMessage parse frame ackId m).2) := by
  rw [onAckMessage]
  split
  · next hping => exact .goto _ (.ackPing hmain hping)
  · next hping =>
    have hping := Bool.eq_false_of_not_eq_true hping
    split
    · next hmatch =>
        split
        · next hbad => exact .raises a (.ack hmain hmatch hbad)
        · next ack hack => exact .acked m frame ackId ack hmain hmatch hack
    · next hother =>
        have hother := Bool.eq_false_of_not_eq_true hother
        have hgoto : Step parse a (.read m) _ := .goto _ (.ackSkipped hmain hping hother)
        rwa [goto_same hmain] at hgoto

theorem step_onRead {m : Message} (h : a.onRead parse m = some r) :
    Step parse a (.read m) (r.1, .received m :: r.2) := by
  rw [onRead] at h
  split at h
  · next hmain =>
      split at h
      · next hopen =>
          split at h
          · next auth hauth =>
              cases h
              exact .goto _ (.opened hmain hopen hauth)
          · next hauth =>
              cases h
              exact .raises a (.opening hmain fun _ => hauth)
      · next hopen =>
          cases h
          exact .raises a (.opening hmain fun h => absurd h hopen)
  · next hmain =>
      cases h
      exact step_onNamespaceMessage m hmain
  · next frame ackId hmain =>
      cases h
      exact step_onAckMessage m hmain
  · cases h

theorem step_onWritten (h : a.onWritten = some r) : Step parse a .written r := by
  rw [onWritten] at h
  split at h
  · next next hmain =>
      cases h
      exact .goto _ (.left hmain)
  · next auth hmain =>
      cases h
      exact .goto _ (.presented hmain)
  · next hmain =>
      cases h
      exact .goto _ (.namespacePong hmain)
  · next frame ackId hmain =>
      cases h
      exact .goto _ (.described hmain)
  · next frame ackId hmain =>
      cases h
      exact .goto _ (.attached hmain)
  · next frame ackId hmain =>
      cases h
      exact .goto _ (.ackPong hmain)
  · cases h

theorem step_onWriteFailed {isOpen : Bool} (h : a.onWriteFailed isOpen = some r) :
    Step parse a (.writeFailed isOpen) r := by
  rw [onWriteFailed] at h
  split at h
  case h_1 next hmain =>
    cases h
    exact .leftAtOnce isOpen next hmain
  case h_7 => cases h
  -- the five writes outside `disconnect()` throw alike
  all_goals
    next hmain =>
      cases h
      exact .raises _ (.write (by rw [hmain]; constructor))

theorem step_onPopped (hmain : a.main = .popping) : Step parse a .popped a.onPopped := by
  rw [onPopped]
  cases hpop : a.frames.popFor with
  | mk frames popped =>
      cases popped with
      | none => exact .noFrame frames hmain hpop
      | some frame =>
          cases hsend : a.socket.authenticated && a.socket.socket.isSome &&
            hasJpegBoundary frame.jpeg with
          | false =>
              have hraise : Step parse a .popped _ := .raises _ (.send hmain hpop hsend)
              simpa [hsend] using hraise
          | true =>
              obtain ⟨hconn, hjpeg⟩ := Bool.and_eq_true_iff.mp hsend
              obtain ⟨hauth, hsocket⟩ := Bool.and_eq_true_iff.mp hconn
              have hsends : Step parse a .popped _ :=
                .sends frames frame hmain hpop hauth hsocket hjpeg
              simpa [hsend] using hsends

/-- Every step of the main thread is listed. -/
theorem step_mainStep (h : a.mainStep parse e = some r) : Step parse a e r := by
  cases e with
  | read m =>
      obtain ⟨r, hread, rfl⟩ := Option.map_eq_some_iff.mp h
      exact step_onRead hread
  | written => exact step_onWritten h
  | writeFailed isOpen => exact step_onWriteFailed h
  | started ok =>
      rw [mainStep] at h
      split at h
      · next hmain =>
          cases ok <;> cases h
          · exact .goto _ (.startFailed hmain)
          · exact .goto _ (.started hmain)
      · cases h
  | resolved ok =>
      rw [mainStep] at h
      split at h
      · next hmain =>
          cases ok <;> cases h
          · exact .raises a (.resolve hmain)
          · exact .resolved hmain
      · cases h
  | tcpConnected ok =>
      rw [mainStep] at h
      split at h
      · next hmain =>
          cases ok <;> cases h
          · exact .raises a (.tcp hmain)
          · exact .goto _ (.tcpConnected hmain)
      · cases h
  | handshaken ok =>
      rw [mainStep] at h
      split at h
      · next hmain =>
          cases ok <;> cases h
          · exact .raises a (.handshake hmain)
          · exact .handshaken hmain
      · cases h
  | readFailed isOpen =>
      rw [mainStep] at h
      split at h
      case h_4 => cases h
      -- three places read
      all_goals
        next hmain =>
          cases h
          exact .raises _ (.read (by rw [hmain]; constructor))
  | turn =>
      rw [mainStep] at h
      split at h
      · next hmain =>
          cases h
          exact step_turn hmain
      · cases h
  | popped =>
      rw [mainStep] at h
      split at h
      · next hmain =>
          cases h
          exact step_onPopped hmain
      · cases h
  | closed =>
      rw [mainStep] at h
      split at h
      · next next hmain =>
          cases h
          exact .left next hmain
      · cases h
  | delayed jitter =>
      rw [mainStep] at h
      split at h
      · next hmain =>
          obtain ⟨hjitter, heq⟩ := Option.ite_none_right_eq_some.mp h
          cases heq
          exact .delayed jitter hmain hjitter
      · cases h
  | slept =>
      rw [mainStep] at h
      split at h
      · next hmain =>
          cases h
          exact .slept hmain
      · cases h
  | joined =>
      rw [mainStep] at h
      split at h
      · next hmain hcapture =>
          cases h
          exact .goto _ (.joined hmain hcapture)
      · cases h
  | _ => cases h

/-- **Inversion.** A step has one of the outcomes of `Step`. -/
theorem step_cases (h : a.step parse e = some r) : Step parse a e r := by
  have hmainStep : a.mainStep parse e = some r → Step parse a e r := step_mainStep
  have hcapture : (if a.capturing then (a.captureStep e).map fun a => (a, []) else none) = some r →
      Step parse a e r := by
    intro h
    obtain ⟨hcapturing, heq⟩ := Option.ite_none_right_eq_some.mp h
    obtain ⟨b, hb, rfl⟩ := Option.map_eq_some_iff.mp heq
    exact .capture b hcapturing hb
  cases e with
  | stopSignal =>
      cases h
      exact .stopSignal
  | frameCaptured frame => exact hcapture h
  | framePushed => exact hcapture h
  | replacementCounted => exact hcapture h
  | cameraError => exact hcapture h
  | failureStored => exact hcapture h
  | queueClosed => exact hcapture h
  | _ => exact hmainStep h

/-! ## What `disconnect()` reports -/

/-- At most a URL that cannot be parsed. -/
theorem resumeAfter_out (b : Application) (next : AfterDisconnect) :
    ∀ o ∈ (b.resumeAfter next).2, o = .caught := by
  cases next with
  | connect =>
      rw [resumeAfter]
      split <;> simp
  | delay => simp [resumeAfter]
  | finish => simp [resumeAfter]

theorem disconnect_out (b : Application) (next : AfterDisconnect) :
    ∀ o ∈ (b.disconnect next).2, o = .caught := by
  rw [disconnect]
  split
  · simp
  · exact b.dropSocket.resumeAfter_out next

theorem raise_out (b : Application) : b.raise.2 = [.caught] := by
  have hquiet : (b.disconnect .delay).2 = [] := by
    by_cases hopen : b.socket.socket = some true
    · simp [disconnect, hopen]
    · simp [disconnect, hopen, resumeAfter]
  rw [raise, hquiet]

/-! ## The callbacks -/

/-- One step of a callback, by outcome. -/
inductive Callback (a : Application) : Event → Application → Prop where
  | captured (frame : Frame) (hcapture : a.capture = .idle) :
      Callback a (.frameCaptured frame)
        { a with captured := a.captured + 1, capture := .counted frame }
  | pushed (frame : Frame) (hcapture : a.capture = .counted frame) :
      Callback a .framePushed
        { a with
            frames := (a.frames.push frame).1
            capture := if (a.frames.push frame).2 then .replacing else .idle }
  | counted (hcapture : a.capture = .replacing) :
      Callback a .replacementCounted { a with replaced := a.replaced + 1, capture := .idle }
  | ignored (hcapture : a.capture = .idle) (hstop : a.stopRequested = true) :
      Callback a .cameraError { a with capture := .idle }
  | heeded (hcapture : a.capture = .idle) (hstop : a.stopRequested = false) :
      Callback a .cameraError { a with capture := .failing }
  | stored (hcapture : a.capture = .failing) :
      Callback a .failureStored { a with cameraFailed := true, capture := .closing }
  | closed (hcapture : a.capture = .closing) :
      Callback a .queueClosed { a with frames := a.frames.close, capture := .idle }

theorem captureStep_cases {b : Application} (h : a.captureStep e = some b) : Callback a e b := by
  cases e with
  | frameCaptured frame =>
      rw [captureStep] at h
      split at h
      · next hcapture => cases h; exact .captured frame hcapture
      · cases h
  | framePushed =>
      rw [captureStep] at h
      split at h
      · next frame hcapture => cases h; exact .pushed frame hcapture
      · cases h
  | replacementCounted =>
      rw [captureStep] at h
      split at h
      · next hcapture => cases h; exact .counted hcapture
      · cases h
  | cameraError =>
      rw [captureStep] at h
      split at h
      · next hcapture =>
          cases h
          cases hstop : a.stopRequested with
          | true =>
              have hignored := Callback.ignored hcapture hstop
              rwa [hstop] at hignored
          | false =>
              have hheeded := Callback.heeded hcapture hstop
              rwa [hstop] at hheeded
      · cases h
  | failureStored =>
      rw [captureStep] at h
      split at h
      · next hcapture => cases h; exact .stored hcapture
      · cases h
  | queueClosed =>
      rw [captureStep] at h
      split at h
      · next hcapture => cases h; exact .closed hcapture
      · cases h
  | _ => cases h

/-- What the capture thread leaves alone. -/
theorem captureStep_frame {b : Application} (h : a.captureStep e = some b) :
    b.config = a.config ∧ b.socket = a.socket ∧ b.backoff = a.backoff ∧ b.main = a.main := by
  cases captureStep_cases h with
  | _ => exact ⟨rfl, rfl, rfl, rfl⟩

/-! ## The credentials -/

/-- A step that ends with `r` writes these credentials, or is about to. -/
def Presents (r : Application × List Output) (auth : AuthJson) : Prop :=
  r.1.main = .writingConnect auth ∨ .wrote (.namespaceConnect auth) ∈ r.2

theorem resumeAfter_frame (b : Application) (next : AfterDisconnect) :
    (b.resumeAfter next).1.config = b.config ∧ ∀ auth, ¬ Presents (b.resumeAfter next) auth := by
  unfold Presents
  cases next with
  | connect =>
      rw [resumeAfter]
      split <;> simp
  | delay => simp [resumeAfter]
  | finish => simp [resumeAfter]

theorem disconnect_frame (b : Application) (next : AfterDisconnect) :
    (b.disconnect next).1.config = b.config ∧ ∀ auth, ¬ Presents (b.disconnect next) auth := by
  rw [disconnect]
  split
  · simp [Presents]
  · exact b.dropSocket.resumeAfter_frame next

/-- A step presents the credentials of the configuration, and keeps it. -/
structure Faithful (a : Application) (r : Application × List Output) : Prop where
  config : r.1.config = a.config
  credentials : ∀ auth, Presents r auth →
    a.main = .writingConnect auth ∨ authJson a.config = some auth

/-- Most steps present no credentials. -/
theorem faithful_of_none (hconfig : r.1.config = a.config) (hnone : ∀ auth, ¬ Presents r auth) :
    Faithful a r :=
  ⟨hconfig, fun auth h => absurd h (hnone auth)⟩

theorem faithful_goto {pc : Pc} {out : List Output} (h : Goto a e pc out) :
    Faithful a ({ a with main := pc }, out) := by
  cases h with
  | @opened m auth hmain hopen hauth =>
      -- `auth_json(config)` is evaluated here and written by the next step
      refine ⟨rfl, fun auth' hp => .inr ?_⟩
      obtain hp | hp := hp
      · cases hp
        exact hauth
      · simp at hp
  | @presented auth hmain =>
      refine ⟨rfl, fun auth' hp => .inl ?_⟩
      obtain hp | hp := hp
      · cases hp
      · obtain rfl : auth' = auth := by simpa using hp
        exact hmain
  | _ => exact faithful_of_none rfl (by simp [Presents])

theorem Raises.frame {b : Application} {out : List Output} (h : Raises parse a e b out) :
    b.config = a.config ∧ ∀ auth, .wrote (.namespaceConnect auth) ∉ out := by
  cases h <;> exact ⟨rfl, by simp⟩

theorem step_faithful (h : a.step parse e = some r) : Faithful a r := by
  cases step_cases h with
  | goto pc hgoto => exact faithful_goto hgoto
  | raises b hraises =>
      obtain ⟨hconfig, hquiet⟩ := hraises.frame
      obtain ⟨hc, hnone⟩ := b.disconnect_frame .delay
      refine faithful_of_none (hc.trans hconfig) fun auth hp => ?_
      obtain hp | hp := hp
      · exact hnone auth (.inl hp)
      · -- the outputs are those before the exception, its own mark and those of `disconnect`
        obtain hp | hp := List.mem_append.mp hp
        · exact hquiet auth hp
        · exact hnone auth (.inr (by simpa [raise] using hp))
  | stops _ _ =>
      obtain ⟨hc, hnone⟩ := { a with frames := a.frames.close }.disconnect_frame .finish
      exact faithful_of_none hc hnone
  | connects _ _ _ =>
      obtain ⟨hc, hnone⟩ := a.disconnect_frame .connect
      exact faithful_of_none hc hnone
  | left next _ =>
      obtain ⟨hc, hnone⟩ := a.dropSocket.resumeAfter_frame next
      exact faithful_of_none hc hnone
  | leftAtOnce isOpen next _ =>
      obtain ⟨hc, hnone⟩ := a.dropSocket.resumeAfter_frame next
      exact faithful_of_none hc hnone
  | capture b _ hcapture =>
      -- another thread's step: what is presented was presented before
      obtain ⟨hconfig, -, -, hmain⟩ := captureStep_frame hcapture
      refine ⟨hconfig, fun auth hp => .inl ?_⟩
      obtain hp | hp := hp
      · exact hmain ▸ hp
      · simp at hp
  | stopSignal =>
      refine ⟨rfl, fun auth hp => .inl ?_⟩
      obtain hp | hp := hp
      · exact hp
      · simp at hp
  | _ => exact faithful_of_none rfl (by simp [Presents])

/-! ## The end of the loop -/

/-- What a step of the main thread or of the signal handler does to the flags that the
    loop condition reads, to the queue's flag, and to the exit code. -/
structure LoopEffect (a : Application) (r : Application × List Output) : Prop where
  cameraFailed : r.1.cameraFailed = a.cameraFailed
  capture : r.1.capture = a.capture
  stopRequested : a.stopRequested = true → r.1.stopRequested = true
  closed : a.frames.closed = true → r.1.frames.closed = true
  /-- The queue is closed, and the clean-up begun, when the loop condition fails. -/
  closes : r.1.frames.closed = true →
    a.frames.closed = true ∨ (a.stopRequested || a.cameraFailed) = true
  cleans : r.1.main.cleaning = true →
    a.main.cleaning = true ∨ (a.stopRequested || a.cameraFailed) = true
  exits : ∀ code, .exited code ∈ r.2 → r.1.main = .stopped code ∧
    (a.main = .start ∧ code = 2 ∨
      a.main = .joining ∧ a.capture = .idle ∧ code = if a.cameraFailed then 2 else 0)

/-- A step that changes none of the flags and does not move into the clean-up. -/
theorem loopEffect_of_flags
    (hflags : r.1.cameraFailed = a.cameraFailed ∧ r.1.capture = a.capture ∧
      r.1.stopRequested = a.stopRequested ∧ r.1.frames.closed = a.frames.closed)
    (hcleaning : r.1.main.cleaning = true → a.main.cleaning = true)
    (hexit : ∀ code, .exited code ∉ r.2) : LoopEffect a r := by
  obtain ⟨hfailed, hcapture, hstop, hclosed⟩ := hflags
  exact ⟨hfailed, hcapture, fun h => hstop.trans h, fun h => hclosed.trans h,
    fun h => .inl (hclosed.symm.trans h), fun h => .inl (hcleaning h),
    fun code h => absurd h (hexit code)⟩

/-- `disconnect()` returns to its caller, and into the clean-up only from there. -/
structure Disconnects (b : Application) (next : AfterDisconnect) (r : Application × List Output) :
    Prop where
  cameraFailed : r.1.cameraFailed = b.cameraFailed
  capture : r.1.capture = b.capture
  stopRequested : r.1.stopRequested = b.stopRequested
  frames : r.1.frames = b.frames
  cleaning : r.1.main.cleaning = true → next = .finish
  exits : ∀ code, .exited code ∉ r.2

theorem resumeAfter_disconnects (b : Application) (next : AfterDisconnect) :
    Disconnects b next (b.dropSocket.resumeAfter next) := by
  cases next with
  | connect =>
      rw [resumeAfter]
      split
      · exact ⟨rfl, rfl, rfl, rfl, nofun, by simp⟩
      · exact ⟨rfl, rfl, rfl, rfl, nofun, by simp⟩
  | delay => exact ⟨rfl, rfl, rfl, rfl, nofun, by simp [resumeAfter]⟩
  | finish => exact ⟨rfl, rfl, rfl, rfl, fun _ => rfl, by simp [resumeAfter]⟩

theorem disconnect_disconnects (b : Application) (next : AfterDisconnect) :
    Disconnects b next (b.disconnect next) := by
  rw [disconnect]
  split
  · refine ⟨rfl, rfl, rfl, rfl, ?_, by simp⟩
    intro hcleaning
    cases next with
    | finish => rfl
    | connect => cases hcleaning
    | delay => cases hcleaning
  · exact b.resumeAfter_disconnects next

/-- An exception leads to the `catch` of the loop. -/
theorem loopEffect_raises {b : Application} {out : List Output} (h : Raises parse a e b out) :
    LoopEffect a (b.raise.1, out ++ b.raise.2) := by
  have hb : b.cameraFailed = a.cameraFailed ∧ b.capture = a.capture ∧
      b.stopRequested = a.stopRequested ∧ b.frames.closed = a.frames.closed := by
    cases h with
    | send hmain hpop hbad =>
        refine ⟨rfl, rfl, rfl, ?_⟩
        obtain rfl := congrArg Prod.fst hpop
        rfl
    | _ => exact ⟨rfl, rfl, rfl, rfl⟩
  have hout : ∀ code, Output.exited code ∉ out := by
    intro code
    cases h with
    | _ => simp
  obtain ⟨hfailed, hcapture, hstop, hclosed⟩ := hb
  have hdis : Disconnects b .delay (b.disconnect .delay) := b.disconnect_disconnects .delay
  refine ⟨hdis.cameraFailed.trans hfailed, hdis.capture.trans hcapture, ?_, ?_, ?_, ?_, ?_⟩
  · exact fun h => (hdis.stopRequested.trans hstop).trans h
  · exact fun h => (congrArg LatestFrameQueue.closed hdis.frames).trans (hclosed.trans h)
  · intro h
    exact .inl (hclosed.symm.trans ((congrArg LatestFrameQueue.closed hdis.frames).symm.trans h))
  · exact fun h => nomatch hdis.cleaning h
  · intro code hmem
    rw [raise_out] at hmem
    rcases List.mem_append.mp hmem with hmem | hmem
    · exact absurd hmem (hout code)
    · simp at hmem

/-- A step of the main thread or of the signal handler. -/
theorem step_loopEffect (h : Step parse a e r) :
    LoopEffect a r ∨ ∃ b, a.capturing = true ∧ a.captureStep e = some b ∧ r = (b, []) := by
  cases h with
  | @goto _ out pc hgoto =>
      refine .inl ?_
      cases hgoto with
      | startFailed hmain =>
          refine ⟨rfl, rfl, id, id, .inl, nofun, ?_⟩
          intro code hmem
          obtain rfl : code = 2 := by simpa using hmem
          exact ⟨rfl, .inl ⟨hmain, rfl⟩⟩
      | joined hmain hcapture =>
          refine ⟨rfl, rfl, id, id, .inl, nofun, ?_⟩
          intro code hmem
          have hcode : code = if a.cameraFailed then 2 else 0 := by simpa using hmem
          exact ⟨congrArg Pc.stopped hcode.symm, .inr ⟨hmain, hcapture, hcode⟩⟩
      | @left next hmain =>
          refine loopEffect_of_flags ⟨rfl, rfl, rfl, rfl⟩ ?_ (by simp)
          rw [hmain]
          cases next with
          | finish => exact id
          | connect => exact id
          | delay => exact id
      | _ => exact loopEffect_of_flags ⟨rfl, rfl, rfl, rfl⟩ nofun (by simp)
  | raises b hraises => exact .inl (loopEffect_raises hraises)
  | stops hmain hstop =>
      have hdis := { a with frames := a.frames.close }.disconnect_disconnects .finish
      exact .inl ⟨hdis.cameraFailed, hdis.capture, fun h => hdis.stopRequested.trans h,
        fun _ => congrArg LatestFrameQueue.closed hdis.frames, fun _ => .inr hstop,
        fun _ => .inr hstop, fun code hmem => absurd hmem (hdis.exits code)⟩
  | connects hmain hrunning hconnected =>
      have hdis := a.disconnect_disconnects .connect
      have hclosed := congrArg LatestFrameQueue.closed hdis.frames
      exact .inl ⟨hdis.cameraFailed, hdis.capture, fun h => hdis.stopRequested.trans h,
        fun h => hclosed.trans h, fun h => .inl (hclosed.symm.trans h),
        fun h => AfterDisconnect.noConfusion (hdis.cleaning h),
        fun code hmem => absurd hmem (hdis.exits code)⟩
  | left next hmain | leftAtOnce _ next hmain =>
      have hdis := a.resumeAfter_disconnects next
      have hclosed := congrArg LatestFrameQueue.closed hdis.frames
      refine .inl ⟨hdis.cameraFailed, hdis.capture, fun h => hdis.stopRequested.trans h,
        fun h => hclosed.trans h, fun h => .inl (hclosed.symm.trans h), ?_,
        fun code hmem => absurd hmem (hdis.exits code)⟩
      -- the caller was the clean-up already
      intro hcleaning
      obtain rfl := hdis.cleaning hcleaning
      rw [hmain]
      exact .inl rfl
  | noFrame frames hmain hpop =>
      obtain rfl := congrArg Prod.fst hpop
      exact .inl (loopEffect_of_flags
        ⟨rfl, rfl, rfl, rfl⟩ nofun (by simp))
  | sends frames frame hmain hpop hauth hsocket hjpeg =>
      obtain rfl := congrArg Prod.fst hpop
      exact .inl (loopEffect_of_flags ⟨rfl, rfl, rfl, rfl⟩ nofun (by simp))
  | capture b hcapturing hcapture => exact .inr ⟨b, hcapturing, hcapture, rfl⟩
  | stopSignal =>
      exact .inl ⟨rfl, rfl, fun _ => rfl, id, .inl, .inl, by simp⟩
  | _ => exact .inl (loopEffect_of_flags ⟨rfl, rfl, rfl, rfl⟩ nofun (by simp))

end Application

end CameraStream.Client
