/-
  CameraStream.Client.Application

  `Application::run` (application.cpp) with the calls it makes into
  `SocketIoClient` and `LatestFrameQueue`.

  Three parties share the state: the main thread, which runs the reconnect loop;
  the capture thread, which calls back with frames and errors; and the signal
  handler, which raises the stop flag.  A step is one atomic operation of one of
  them: a read or write of the WebSocket, an operation on the queue, or a stretch
  of code between two such operations that touches nothing shared.

  `Pc` is where the main thread stands.  An event says how the operation it stands
  at ends; what a read returns, and whether an operation fails, is decided
  outside.  Whatever throws inside the loop continues at its `catch` (`raise`).
-/

import CameraStream.Client.LatestFrameQueue
import CameraStream.Client.SocketIoClient
import CameraStream.Lib.EventMachine

namespace CameraStream.Client

/-- The caller of `disconnect()`, to which it returns. -/
inductive AfterDisconnect where
  /-- The first line of `connect`. -/
  | connect
  /-- The `catch` of the loop, before the delay. -/
  | delay
  /-- The clean-up after the loop. -/
  | finish
  deriving DecidableEq

/-- Where the main thread stands. -/
inductive Pc where
  | start
  | loop
  | closingWrite (next : AfterDisconnect)
  | closing (next : AfterDisconnect)
  | resolving
  | tcpConnecting
  | handshaking
  | readingOpen
  | writingConnect (auth : AuthJson)
  | readingNamespace
  | writingNamespacePong
  | popping
  | writingDescriptor (frame : Frame) (ackId : UInt64)
  | writingAttachment (frame : Frame) (ackId : UInt64)
  | readingAck (frame : Frame) (ackId : UInt64)
  | writingAckPong (frame : Frame) (ackId : UInt64)
  | delaying
  | sleeping
  | joining
  | stopped (exitCode : Nat)
  deriving DecidableEq

/-- Where the capture thread stands in its callbacks. -/
inductive CapturePc where
  | idle
  | counted (frame : Frame)
  | replacing
  | failing
  | closing
  deriving DecidableEq

structure Application where
  config : Config
  frames : LatestFrameQueue := {}
  socket : SocketIoClient := {}
  stopRequested : Bool := false
  cameraFailed : Bool := false
  captured : Nat := 0
  replaced : Nat := 0
  accepted : Nat := 0
  rejected : Nat := 0
  /-- In seconds. -/
  backoff : Nat := 1
  main : Pc := .start
  capture : CapturePc := .idle

namespace Application

inductive Event where
  /-- `camera.start` returns or throws. -/
  | started (ok : Bool)
  /-- The loop condition and, if it holds, `socket.connected()`. -/
  | turn
  | resolved (ok : Bool)
  | tcpConnected (ok : Bool)
  | handshaken (ok : Bool)
  | read (message : Message)
  /-- A read throws; the stream may or may not count as open afterwards. -/
  | readFailed (isOpen : Bool)
  | written
  | writeFailed (isOpen : Bool)
  /-- `close(normal)` returns or throws. -/
  | closed
  /-- `pop_for` returns. -/
  | popped
  /-- The delay is computed with this jitter, in milliseconds. -/
  | delayed (jitter : Nat)
  /-- `interruptible_sleep` returns. -/
  | slept
  /-- `camera.stop()` has joined the capture thread. -/
  | joined
  /-- The frame callback counts a frame. -/
  | frameCaptured (frame : Frame)
  /-- The frame callback pushes it. -/
  | framePushed
  /-- The frame callback counts a replacement. -/
  | replacementCounted
  /-- The error callback reads the stop flag. -/
  | cameraError
  /-- The error callback stores the failure. -/
  | failureStored
  /-- The error callback closes the queue. -/
  | queueClosed
  /-- The signal handler. -/
  | stopSignal

inductive Output where
  | wrote (packet : ClientPacket)
  | received (message : Message)
  /-- `socket.connect` has returned normally. -/
  | connected
  | sending (frame : Frame)
  | acked (frame : Frame) (ack : FrameAck)
  /-- An exception reaches the `catch` of the loop. -/
  | caught
  /-- `interruptible_sleep` is called with this duration, in milliseconds. -/
  | waiting (duration : Nat)
  | exited (exitCode : Nat)

/-! ## The main thread -/

/-- `authenticated_` falls and the stream is dropped. -/
def dropSocket (a : Application) : Application :=
  { a with socket := { a.socket with socket := none, authenticated := false } }

/-- `jitter_ms` is drawn from 0..250. -/
def maximumJitter : Nat := 250

/-- Seconds. -/
def maximumBackoff : Nat := 30

/-- Where `disconnect()` returns to with the stream gone.  `connect` parses the
    URL next, and throws when it cannot; there is nothing to disconnect then. -/
def resumeAfter (a : Application) : AfterDisconnect → Application × List Output
  | .connect =>
      match parseServerUrl a.config.serverUrl with
      | some _ => ({ a with main := .resolving }, [])
      | none => ({ a with main := .delaying }, [.caught])
  | .delay => ({ a with main := .delaying }, [])
  | .finish => ({ a with main := .joining }, [])

/-- `disconnect()`: a stream that is open is told before it is dropped. -/
def disconnect (a : Application) (next : AfterDisconnect) : Application × List Output :=
  if a.socket.socket = some true then
    ({ a with
        socket := { a.socket with authenticated := false }
        main := .closingWrite next }, [])
  else a.dropSocket.resumeAfter next

/-- An exception inside the loop. -/
def raise (a : Application) : Application × List Output :=
  let r := a.disconnect .delay
  (r.1, .caught :: r.2)

/-- The stream answers `is_open()` with this from now on. -/
def setOpen (a : Application) (isOpen : Bool) : Application :=
  { a with socket := { a.socket with socket := a.socket.socket.map fun _ => isOpen } }

/-- The loop condition, and the branch on `socket.connected()`. -/
def turn (a : Application) : Application × List Output :=
  -- the clean-up after the loop closes the queue before the socket
  if a.stopRequested || a.cameraFailed then
    { a with frames := a.frames.close }.disconnect .finish
  else if a.socket.connected then ({ a with main := .popping }, [])
  else a.disconnect .connect

/-- A message read while `connect` waits for the namespace. -/
def onNamespaceMessage (a : Application) (m : Message) : Application × List Output :=
  if m.isPing then ({ a with main := .writingNamespacePong }, [])
  else if m.isApproval then
    -- `connect` returns, and `run` resets the backoff before it pops
    ({ a with socket := a.socket.authenticate, backoff := 1, main := .popping }, [.connected])
  else if m.isConnectError then a.raise
  else (a, [])

/-- `pop_for` has returned; a frame goes to `send_frame`. -/
def onPopped (a : Application) : Application × List Output :=
  let r := a.frames.popFor
  let a := { a with frames := r.1 }
  match r.2 with
  | none => ({ a with main := .loop }, [])
  | some frame =>
      let r :=
        if a.socket.authenticated && a.socket.socket.isSome && hasJpegBoundary frame.jpeg then
          -- the id is taken before the first write, so a failed write uses it up
          ({ a with
              socket := { a.socket with nextAckId := a.socket.nextAckId + 1 }
              main := .writingDescriptor frame a.socket.nextAckId }, [])
        else a.raise
      (r.1, .sending frame :: r.2)

/-- A message read while `send_frame` waits for its ACK. -/
def onAckMessage (parse : Bytes → Option JsonValue) (a : Application) (frame : Frame)
    (ackId : UInt64) (m : Message) : Application × List Output :=
  if m.isPing then ({ a with main := .writingAckPong frame ackId }, [])
  -- a head that is the beginning of a longer id matches, too
  else if m.text && m.startsWith (ackHead ackId) then
    match decodeAck parse ackId m with
    | none => a.raise
    | some ack =>
        ({ a with
            accepted := a.accepted + if ack.accepted then 1 else 0
            rejected := a.rejected + if ack.accepted then 0 else 1
            main := .loop }, [.acked frame ack])
  else (a, [])

/-- A read of the main thread that has succeeded. -/
def onRead (parse : Bytes → Option JsonValue) (a : Application) (m : Message) :
    Option (Application × List Output) :=
  match a.main with
  | .readingOpen =>
      if m.isOpen then
        match authJson a.config with
        | some auth => some ({ a with main := .writingConnect auth }, [])
        | none => some a.raise
      else some a.raise
  | .readingNamespace => some (a.onNamespaceMessage m)
  | .readingAck frame ackId => some (a.onAckMessage parse frame ackId m)
  | _ => none

/-- A write of the main thread that has succeeded. -/
def onWritten (a : Application) : Option (Application × List Output) :=
  match a.main with
  | .closingWrite next => some ({ a with main := .closing next }, [.wrote .namespaceDisconnect])
  | .writingConnect auth =>
      some ({ a with main := .readingNamespace }, [.wrote (.namespaceConnect auth)])
  | .writingNamespacePong => some ({ a with main := .readingNamespace }, [.wrote .pong])
  | .writingDescriptor frame ackId =>
      some ({ a with main := .writingAttachment frame ackId },
        [.wrote (.frameDescriptor ackId frame.timestampMs)])
  | .writingAttachment frame ackId =>
      some ({ a with main := .readingAck frame ackId }, [.wrote (.attachment frame.jpeg)])
  | .writingAckPong frame ackId =>
      some ({ a with main := .readingAck frame ackId }, [.wrote .pong])
  | _ => none

/-- A write of the main thread that throws; inside `disconnect()` that is swallowed. -/
def onWriteFailed (a : Application) (isOpen : Bool) : Option (Application × List Output) :=
  match a.main with
  | .closingWrite next => some (a.dropSocket.resumeAfter next)
  | .writingConnect _ | .writingNamespacePong | .writingDescriptor .. | .writingAttachment ..
  | .writingAckPong .. => some (a.setOpen isOpen).raise
  | _ => none

/-- One step of the main thread. -/
def mainStep (parse : Bytes → Option JsonValue) (a : Application) :
    Event → Option (Application × List Output)
  | .started ok =>
      match a.main with
      | .start =>
          if ok then some ({ a with main := .loop }, [])
          else some ({ a with main := .stopped 2 }, [.exited 2])
      | _ => none
  | .turn =>
      match a.main with
      | .loop => some a.turn
      | _ => none
  | .resolved ok =>
      match a.main with
      | .resolving =>
          -- the stream object exists from here on, not open yet
          if ok then
            some ({ a with
              socket := { a.socket with socket := some false }
              main := .tcpConnecting }, [])
          else some a.raise
      | _ => none
  | .tcpConnected ok =>
      match a.main with
      | .tcpConnecting => if ok then some ({ a with main := .handshaking }, []) else some a.raise
      | _ => none
  | .handshaken ok =>
      match a.main with
      | .handshaking =>
          if ok then some ({ a.setOpen true with main := .readingOpen }, []) else some a.raise
      | _ => none
  | .read m => (a.onRead parse m).map fun r => (r.1, .received m :: r.2)
  | .readFailed isOpen =>
      match a.main with
      | .readingOpen | .readingNamespace | .readingAck .. => some (a.setOpen isOpen).raise
      | _ => none
  | .written => a.onWritten
  | .writeFailed isOpen => a.onWriteFailed isOpen
  | .closed =>
      match a.main with
      | .closing next => some (a.dropSocket.resumeAfter next)
      | _ => none
  | .popped =>
      match a.main with
      | .popping => some a.onPopped
      | _ => none
  | .delayed jitter =>
      match a.main with
      | .delaying =>
          if jitter ≤ maximumJitter then
            some ({ a with main := .sleeping }, [.waiting (a.backoff * 1000 + jitter)])
          else none
      | _ => none
  | .slept =>
      match a.main with
      | .sleeping =>
          some ({ a with backoff := min (a.backoff * 2) maximumBackoff, main := .loop }, [])
      | _ => none
  | .joined =>
      match a.main, a.capture with
      | .joining, .idle =>
          let exitCode := if a.cameraFailed then 2 else 0
          some ({ a with main := .stopped exitCode }, [.exited exitCode])
      | _, _ => none
  | _ => none

/-! ## The other parties -/

/-- The capture thread runs from `camera.start` to `camera.stop`. -/
def capturing (a : Application) : Bool :=
  match a.main with
  | .start => false
  | .stopped _ => false
  | _ => true

/-- One step of the capture thread. -/
def captureStep (a : Application) : Event → Option Application
  | .frameCaptured frame =>
      match a.capture with
      | .idle => some { a with captured := a.captured + 1, capture := .counted frame }
      | _ => none
  | .framePushed =>
      match a.capture with
      | .counted frame =>
          let r := a.frames.push frame
          some { a with frames := r.1, capture := if r.2 then .replacing else .idle }
      | _ => none
  | .replacementCounted =>
      match a.capture with
      | .replacing => some { a with replaced := a.replaced + 1, capture := .idle }
      | _ => none
  | .cameraError =>
      match a.capture with
      -- after a stop request the end of the camera is no failure
      | .idle => some { a with capture := if a.stopRequested then .idle else .failing }
      | _ => none
  | .failureStored =>
      match a.capture with
      | .failing => some { a with cameraFailed := true, capture := .closing }
      | _ => none
  | .queueClosed =>
      match a.capture with
      | .closing => some { a with frames := a.frames.close, capture := .idle }
      | _ => none
  | _ => none

def step (parse : Bytes → Option JsonValue) (a : Application) (e : Event) :
    Option (Application × List Output) :=
  match e with
  | .stopSignal => some ({ a with stopRequested := true }, [])
  | .frameCaptured _ | .framePushed | .replacementCounted | .cameraError | .failureStored
  | .queueClosed => if a.capturing then (a.captureStep e).map fun a => (a, []) else none
  | _ => a.mainStep parse e

def machine (parse : Bytes → Option JsonValue) : EventMachine Application Event Output :=
  ⟨step parse⟩

/-! ## A run -/

/-- A JPEG of the least length. -/
def sampleFrame (timestampMs : Int) : Frame := ⟨timestampMs, [0xFF, 0xD8, 0xFF, 0xD9]⟩

def sampleConfig : Config where
  serverUrl := ascii "http://host"
  token := ascii "key"

/-- The arguments of an ACK that accepts the frame. -/
def acceptedText : Bytes := ascii "[\x7b\"accepted\":true\x7d]"

/-- `Json::parse` on the arguments that occur in the runs below. -/
def parseSample (text : Bytes) : Option JsonValue :=
  if text = acceptedText then some (.array [.object [(ascii "accepted", .boolean true)]])
  else if text = ascii "[{}]" then some (.array [.object []])
  else none

def connectRun : List Event :=
  [.started true, .turn, .resolved true, .tcpConnected true, .handshaken true,
    .read ⟨true, ascii "0{}"⟩, .written, .read ⟨true, ascii "40/stream,{}"⟩]

/-- Five frames: the first is replaced, the second accepted, the third lost in a failed
    write, the fourth removed when the queue is closed, and the fifth comes after that. -/
def sampleRun : List Event :=
  connectRun ++
  [.frameCaptured (sampleFrame 1), .framePushed, .frameCaptured (sampleFrame 2), .framePushed,
    .replacementCounted, .popped, .written, .written, .read ⟨true, ackHead 0 ++ acceptedText⟩,
    .turn, .frameCaptured (sampleFrame 3), .framePushed, .popped, .writeFailed false,
    .delayed 0, .slept, .frameCaptured (sampleFrame 4), .framePushed, .stopSignal, .turn,
    .frameCaptured (sampleFrame 5), .framePushed, .joined]

end Application

end CameraStream.Client
