/-
  CameraStream.Server.OpenCvService

  The shared types of the server (camera.types.ts), its environment variables,
  and `OpenCvService.process` (opencv.service.ts) with the answer of the vision
  service (app.py) it talks to.

  `process` awaits one HTTP request.  What the request settles to is decided
  outside the program; `VisionReply` lists the cases that the two sides
  distinguish.  A successful reply is the dictionary that app.py returns: it
  repeats the camera id and the timestamp of the form it was sent.
-/

import CameraStream.Js.Value

namespace CameraStream.Server

open Js

/-- A Node `Buffer`. -/
abbrev Buffer := List UInt8

/-- Where a value from outside is converted. -/
inductive Conversion where
  | token
  | cameraId
  | timestamp
  deriving DecidableEq

/-- The environment of the process: the variables read while requests are handled, and
    what the JavaScript engine decides. -/
structure Env where
  cameraToken : Option JsString := none
  viewerToken : Option JsString := none
  maxFrameBytes : Option JsString := none
  maxCameraFps : Option JsString := none
  visionMode : Option JsString := none
  jpegQuality : Option JsString := none
  /-- How quotients are represented. -/
  division : Number.Division := .double
  /-- How many arrays inside one another each conversion gets through before the call stack
      is full: in Node.js some thousands, and less the deeper the conversion is called. -/
  nesting : Conversion → Nat := fun _ => 3000

inductive ClientRole where
  | camera
  | viewer
  deriving DecidableEq

/-- One detected region of an image. -/
structure Detection where
  type : JsString
  confidence : Number
  x : Number
  y : Number
  width : Number
  height : Number
  deriving DecidableEq

structure ProcessedFrame where
  cameraId : JsString
  timestamp : Number
  processingMs : Number
  detections : List Detection
  frame : Buffer
  deriving DecidableEq

/-- The accumulated state of one camera. -/
structure CameraState where
  cameraId : JsString
  connected : Bool
  /-- `none` is `null`: no frame has been processed yet. -/
  lastFrameAt : Option Int
  receivedFrames : Nat
  droppedFrames : Nat
  deriving DecidableEq

/-! ## The vision request -/

/-- The multipart form of one request. -/
structure VisionForm where
  cameraId : JsString
  timestamp : JsString
  mode : JsString
  jpegQuality : JsString
  frame : Buffer
  deriving DecidableEq

def visionForm (env : Env) (cameraId : JsString) (frame : Buffer) (timestamp : Number) :
    VisionForm where
  cameraId := cameraId
  timestamp := timestamp.toJsString
  mode := env.visionMode.getD (js "motion")
  jpegQuality := env.jpegQuality.getD (js "80")
  frame := frame

/-- What the request of one `process` call settles to. -/
inductive VisionReply where
  /-- `fetch` or the body rejects: network, timeout, malformed JSON. -/
  | rejected
  /-- An answer whose status is not in 200..299. -/
  | status (code : Nat)
  /-- The dictionary that app.py returns, its Base64 text decoded. -/
  | processed (processingMs : Number) (detections : List Detection) (image : Buffer)

/-- The reason a `process` call rejects with. -/
inductive VisionError where
  | rejected
  | status (code : Nat)

/-- The settled result of `process`. -/
def process (form : VisionForm) : VisionReply → Except VisionError ProcessedFrame
  | .rejected => .error .rejected
  | .status code => .error (.status code)
  | .processed processingMs detections image =>
      .ok {
        cameraId := form.cameraId
        timestamp := .ofString form.timestamp
        processingMs := processingMs
        detections := detections
        frame := image }

/-- The promise of `process` is fulfilled. -/
def VisionReply.succeeded : VisionReply → Bool
  | .processed .. => true
  | _ => false

/-- A processed frame carries the camera id it was requested for. -/
theorem process_cameraId {form : VisionForm} {reply : VisionReply} {frame : ProcessedFrame}
    (h : process form reply = .ok frame) : frame.cameraId = form.cameraId := by
  cases reply with
  | processed processingMs detections image => cases h; rfl
  | _ => cases h

end CameraStream.Server
