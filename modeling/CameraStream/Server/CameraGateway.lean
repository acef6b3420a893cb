/-
  CameraStream.Server.CameraGateway

  `CameraGateway` (camera.gateway.ts): the Socket.IO namespace `/stream`.

  Socket.IO and NestJS deliver three kinds of event to the gateway: a new
  connection, a `camera:frame` message, and the end of a connection.  A fourth
  event is the settlement of a vision request, which resumes the `onFrame` that
  waits for it.  JavaScript runs one of them at a time.

  A socket is named by its position in the order of connection and is never
  forgotten; `connected` tells whether it is still in the namespace.
  `server.emit` reaches every connected socket, and `client.disconnect(true)`
  takes the socket out of the namespace at once.  An exception thrown by
  `handleConnection` leaves the socket connected, without a role.

  Every `camera:frame` is an invocation of `onFrame` of its own.  Its tag numbers
  it and records the sending socket with the camera id of that socket.
-/

import CameraStream.Server.CameraServiceRuns

namespace CameraStream.Server

open Js EventMachine

/-- `handshake.auth`, sent by the client before it is authenticated. -/
structure HandshakeAuth where
  role : Property
  token : Property
  cameraId : Property

structure AuthenticatedSocket where
  auth : HandshakeAuth
  connected : Bool := true
  role : Option ClientRole := none
  cameraId : Option JsString := none

/-- `role === 'camera' && cameraId`, the id when both hold. -/
def AuthenticatedSocket.asCamera (client : AuthenticatedSocket) : Option JsString :=
  if client.role = some .camera then client.cameraId.filter (· ≠ []) else none

abbrev SocketId := Nat

/-- One invocation of `onFrame`. -/
structure FrameTag where
  number : Nat
  socket : SocketId
  cameraId : Option JsString
  deriving DecidableEq

/-- The `frame` member of a payload, as Socket.IO has decoded it. -/
inductive FrameValue where
  | buffer (bytes : Buffer)
  | arrayBuffer (bytes : Buffer)
  | uint8Array (bytes : Buffer)
  | other (value : Property)

/-- The payload of `camera:frame`; its `cameraId` is never read. -/
structure IncomingFrame where
  cameraId : Property
  timestamp : Property
  frame : FrameValue

inductive RejectReason where
  | unauthorized
  | invalidJpeg
  | backpressure
  | processingFailed
  deriving DecidableEq

/-- The text of a reason on the wire. -/
def RejectReason.text : RejectReason → JsString
  | .unauthorized => js "unauthorized"
  | .invalidJpeg => js "invalid_jpeg"
  | .backpressure => js "backpressure"
  | .processingFailed => js "processing_failed"

/-- The answer to one `camera:frame`. -/
inductive FrameAck where
  | accepted
  | rejected (reason : RejectReason)
  deriving DecidableEq

structure CameraGateway where
  sockets : List AuthenticatedSocket := []
  cameras : CameraService FrameTag := {}
  /-- How many `camera:frame` events have arrived. -/
  frames : Nat := 0

namespace CameraGateway

/-- What the gateway does to the outside. -/
inductive Output where
  /-- A `camera:frame` event reaches `onFrame`. -/
  | arrived (tag : FrameTag)
  /-- `onFrame` calls `this.cameras.acceptFrame(cameraId, ...)`. -/
  | acceptFrame (tag : FrameTag) (cameraId : JsString)
  /-- What `acceptFrame` does inside `CameraService`. -/
  | service (output : CameraService.Output FrameTag)
  | ack (tag : FrameTag) (ack : FrameAck)
  /-- `viewer:frame`, with the sockets that receive it. -/
  | viewerFrame (tag : FrameTag) (recipients : List SocketId) (frame : ProcessedFrame)
  | cameraStatus (recipients : List SocketId) (cameraId : JsString) (connected : Bool)
  | cameraList (client : SocketId) (states : List CameraState)
  /-- `client.disconnect(true)`. -/
  | disconnected (client : SocketId)
  /-- `handleConnection` throws. -/
  | threw (client : SocketId)

/-! ## Validation -/

def roleIs (role : Property) (name : JsString) : Bool :=
  match role with
  | some v => v.isStr name
  | none => false

def validToken (actual : JsString) (configured : Option JsString) (allowEmpty : Bool := false) :
    Bool :=
  match configured with
  | none => allowEmpty
  | some [] => allowEmpty
  | some configured =>
      (toUtf8 actual).length = (toUtf8 configured).length && toUtf8 actual = toUtf8 configured

/-- One of `[a-zA-Z0-9_-]`. -/
def isIdChar (u : UInt16) : Bool :=
  let n := u.toNat
  (0x61 ≤ n && n ≤ 0x7A) || (0x41 ≤ n && n ≤ 0x5A) || (0x30 ≤ n && n ≤ 0x39) ||
    n == 0x5F || n == 0x2D

/-- `/^[a-zA-Z0-9_-]{1,64}$/`. -/
def isCameraId (s : JsString) : Bool := 1 ≤ s.length && s.length ≤ 64 && s.all isIdChar

/-- `none` is a thrown exception, `some none` is `null`. -/
def normalizeCameraId (value : Property) (nesting : Nat) : Option (Option JsString) :=
  (stringOrEmpty value nesting).map fun s => if isCameraId (trim s) then some (trim s) else none

def toBuffer : FrameValue → Option Buffer
  | .buffer bytes => some bytes
  | .arrayBuffer bytes => some bytes
  | .uint8Array bytes => some bytes
  | .other _ => none

def isJpeg (frame : Buffer) : Bool :=
  frame[0]? = some 0xFF && frame[1]? = some 0xD8 &&
    frame.reverse[1]? = some 0xFF && frame.reverse[0]? = some 0xD9

/-- `Number(process.env.MAX_FRAME_BYTES ?? 2_097_152)`. -/
def maxBytes (env : Env) : Number :=
  match env.maxFrameBytes with
  | some text => .ofString text
  | none => .finite 2097152

/-- The buffer of a payload that passes the checks before the `try`. -/
def validFrame (env : Env) (payload : Option IncomingFrame) : Option Buffer :=
  match payload.bind fun p => toBuffer p.frame with
  | none => none
  | some frame =>
      -- the comparison with `maxBytes` is false when the limit is not a number
      if frame.length < 4 || Number.lt (maxBytes env) (.ofInt frame.length) || !isJpeg frame then
        none
      else some frame

/-! ## Sockets -/

/-- Assign to fields of a socket. -/
def setSocket (g : CameraGateway) (client : SocketId)
    (f : AuthenticatedSocket → AuthenticatedSocket) : CameraGateway :=
  { g with sockets := g.sockets.modify client f }

def isConnected (g : CameraGateway) (client : SocketId) : Bool :=
  match g.sockets[client]? with
  | some socket => socket.connected
  | none => false

/-- The sockets that `server.emit` reaches. -/
def everyone (g : CameraGateway) : List SocketId :=
  (List.range g.sockets.length).filter g.isConnected

/-- `client.disconnect(true)`. -/
def disconnectClient (g : CameraGateway) (client : SocketId) : CameraGateway × List Output :=
  (g.setSocket client fun s => { s with connected := false }, [.disconnected client])

/-! ## Connections -/

/-- The socket becomes camera `c`. -/
def admitCamera (g : CameraGateway) (client : SocketId) (c : JsString) :
    CameraGateway × List Output :=
  let g := g.setSocket client fun s => { s with role := some .camera, cameraId := some c }
  let g := { g with cameras := g.cameras.connect c }
  (g, [.cameraStatus g.everyone c true])

/-- The socket becomes a viewer. -/
def admitViewer (g : CameraGateway) (client : SocketId) : CameraGateway × List Output :=
  let g := g.setSocket client fun s => { s with role := some .viewer }
  (g, [.cameraList client g.cameras.list])

/-- `none` is a thrown exception. -/
def handleConnection (env : Env) (g : CameraGateway) (client : SocketId) (auth : HandshakeAuth) :
    Option (CameraGateway × List Output) :=
  -- both conversions come before any check, and either may throw
  match stringOrEmpty auth.token (env.nesting .token),
      normalizeCameraId auth.cameraId (env.nesting .cameraId) with
  | some token, some cameraId =>
      if roleIs auth.role (js "camera") then
        match cameraId, validToken token env.cameraToken with
        | some c, true => some (g.admitCamera client c)
        | _, _ => some (g.disconnectClient client)
      else if roleIs auth.role (js "viewer") && validToken token env.viewerToken true then
        some (g.admitViewer client)
      else some (g.disconnectClient client)
  | _, _ => none

/-- Called when the socket has left the namespace. -/
def handleDisconnect (g : CameraGateway) (socket : AuthenticatedSocket) :
    CameraGateway × List Output :=
  match socket.asCamera with
  | some c => ({ g with cameras := g.cameras.disconnect c }, [.cameraStatus g.everyone c false])
  | none => (g, [])

/-! ## Frames -/

/-- `onFrame` up to its `await`, or to its end when it does not get there.
    `dateNow` and `now` are the clock readings of the gateway and of
    `acceptFrame`. -/
def onFrame (env : Env) (g : CameraGateway) (client : AuthenticatedSocket) (tag : FrameTag)
    (payload : Option IncomingFrame) (dateNow now : Int) : CameraGateway × List Output :=
  match client.asCamera with
  | none => (g, [.ack tag (.rejected .unauthorized)])
  | some c =>
      match payload, validFrame env payload with
      | some payload, some frame =>
          -- `Number(payload.timestamp)` stands inside the `try`
          match propertyToNumber payload.timestamp (env.nesting .timestamp) with
          | none => (g, [.ack tag (.rejected .processingFailed)])
          | some timestamp =>
              let r := g.cameras.acceptFrame env tag c frame
                (timestamp.orElse (.ofInt dateNow)) now
              ({ g with cameras := r.1 },
                .acceptFrame tag c ::
                  if r.2 then [.service (.visionCall tag c)]
                  else [.service (.dropped tag c), .ack tag (.rejected .backpressure)])
      | _, _ => (g, [.ack tag (.rejected .invalidJpeg)])

/-- The rest of `onFrame`, once the vision request of its call has settled. -/
def onSettled (g : CameraGateway) (call : Call FrameTag) (reply : VisionReply)
    (now : Int) : CameraGateway × List Output :=
  let r := g.cameras.resume call reply now
  let g := { g with cameras := r.1 }
  let settled := .service (.settled call.caller call.cameraId reply.succeeded now)
  match r.2 with
  | .ok processed =>
      (g, [settled, .viewerFrame call.caller g.everyone processed, .ack call.caller .accepted])
  | .error _ => (g, [settled, .ack call.caller (.rejected .processingFailed)])

/-! ## The gateway as a machine -/

inductive Event where
  | connect (auth : HandshakeAuth)
  | disconnect (client : SocketId)
  | frame (client : SocketId) (payload : Option IncomingFrame) (dateNow now : Int)
  | settle (tag : FrameTag) (reply : VisionReply) (now : Int)

/-- Socket.IO puts a new socket into the namespace before `handleConnection` runs. -/
def join (g : CameraGateway) (auth : HandshakeAuth) : CameraGateway :=
  { g with sockets := g.sockets ++ [{ auth := auth }] }

def connectClient (env : Env) (g : CameraGateway) (auth : HandshakeAuth) :
    CameraGateway × List Output :=
  let client := g.sockets.length
  let g := g.join auth
  (g.handleConnection env client auth).getD (g, [.threw client])

/-- The invocation that a `camera:frame` of this socket starts. -/
def nextTag (g : CameraGateway) (client : SocketId) (socket : AuthenticatedSocket) : FrameTag :=
  ⟨g.frames, client, socket.cameraId⟩

def step (env : Env) (g : CameraGateway) : Event → Option (CameraGateway × List Output)
  | .connect auth => some (g.connectClient env auth)
  | .disconnect client =>
      match g.sockets[client]? with
      | some socket =>
          if socket.connected then
            some ((g.setSocket client fun s => { s with connected := false }).handleDisconnect
              socket)
          else none
      | none => none
  | .frame client payload dateNow now =>
      match g.sockets[client]? with
      | some socket =>
          if socket.connected then
            let tag := g.nextTag client socket
            let r := { g with frames := g.frames + 1 }.onFrame env socket tag payload dateNow now
            some (r.1, .arrived tag :: r.2)
          else none
      | none => none
  | .settle tag reply now =>
      match g.cameras.findCall tag with
      | some call => some (g.onSettled call reply now)
      | none => none

def machine (env : Env) : EventMachine CameraGateway Event Output := ⟨step env⟩

end CameraGateway

end CameraStream.Server
