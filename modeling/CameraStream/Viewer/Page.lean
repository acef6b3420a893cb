/-
  CameraStream.Viewer.Page

  The page that viewers open: index.html and app.js (server/public).

  The page has one `<select>` with the cameras it has heard of, one `<img>`, and a few
  texts.  Its handlers run one at a time; between them the viewer may choose another
  camera or connect again, and the socket may open and close.  `performance.now()` is read
  twice while a frame is drawn, so `message` carries two readings.

  A `<select>` with one visible row selects its first option by itself when an option comes
  in and none is selected; setting its `value` to something that no option has leaves none
  selected.
-/

import CameraStream.Lib.EventMachine
import CameraStream.Server.OpenCvService

namespace CameraStream.Viewer

open Js Server

/-! ## The document -/

/-- A `<select>`: the values of its options, and `selectedIndex`, which is `none` for -1. -/
structure Select where
  options : List JsString
  selectedIndex : Option Nat
  deriving DecidableEq

namespace Select

/-- `value`: that of the option that is selected, else the empty string. -/
def value (s : Select) : JsString := (s.selectedIndex.bind fun i => s.options[i]?).getD []

/-- `value = v`: the first option with this value. -/
def setValue (s : Select) (v : JsString) : Select :=
  { s with selectedIndex := s.options.findIdx? fun option => option = v }

/-- `innerHTML = ''`. -/
def clear (_ : Select) : Select := ⟨[], none⟩

/-- `add(new Option(v, v))`. -/
def add (s : Select) (v : JsString) : Select :=
  ⟨s.options ++ [v], some (s.selectedIndex.getD 0)⟩

end Select

/-- The object URLs of the document: how many have been made, and the blobs of those that
    have not been revoked. -/
structure UrlStore where
  made : Nat := 0
  alive : List (Nat × Buffer) := []
  deriving DecidableEq

namespace UrlStore

/-- `URL.createObjectURL(blob)`. -/
def create (u : UrlStore) (blob : Buffer) : Nat × UrlStore :=
  (u.made, ⟨u.made + 1, u.alive ++ [(u.made, blob)]⟩)

/-- `URL.revokeObjectURL(url)`. -/
def revoke (u : UrlStore) (url : Nat) : UrlStore :=
  { u with alive := u.alive.filter fun entry => entry.1 ≠ url }

end UrlStore

/-! ## Messages -/

/-- Binary data as it is handed to a handler. -/
inductive Binary where
  | arrayBuffer (bytes : Buffer)
  /-- A view of a part of `buffer`. -/
  | view (buffer : Buffer) (byteOffset byteLength : Nat)
  deriving DecidableEq

/-- `frame instanceof ArrayBuffer ? frame : frame.buffer`. -/
def Binary.bytes : Binary → Buffer
  | .arrayBuffer bytes => bytes
  | .view buffer _ _ => buffer

/-- A `viewer:frame`. -/
structure FrameMessage where
  cameraId : JsString
  timestamp : Number
  processingMs : Number
  detections : List Detection
  frame : Binary
  deriving DecidableEq

inductive Message where
  | list (cameras : List CameraState)
  | status (cameraId : JsString) (connected : Bool)
  | frame (message : FrameMessage)
  deriving DecidableEq

inductive Event where
  /-- The button `#connect`. -/
  | click
  | connected
  | disconnected
  | connectError
  /-- A message of the socket; for a frame, what `performance.now()` returns. -/
  | message (m : Message) (now now' : ℚ)
  /-- The viewer picks an option. -/
  | choose (index : Nat)

inductive Output where
  /-- The picture of a message is put on the page. -/
  | drew (message : FrameMessage)
  /-- `#fps` is set for the frames since `startedAt`; the next ones count from
      `restartedAt`. -/
  | rate (frames : Nat) (startedAt now restartedAt : ℚ)

/-! ## app.js -/

structure Page where
  cameraSelect : Select := ⟨[[]], some 0⟩
  /-- `socket.connected`. -/
  connected : Bool := false
  /-- The class and the text of `#connection`. -/
  connection : JsString × JsString := (js "status offline", js "연결 중")
  objectUrl : Option Nat := none
  urls : UrlStore := {}
  /-- `frameElement.src`. -/
  src : Option Nat := none
  frameHidden : Bool := false
  emptyHidden : Bool := false
  cameraId : JsString := js "—"
  processing : JsString := js "— ms"
  detections : JsString := js "0"
  fps : JsString := js "0.0"
  frames : Nat := 0
  fpsStartedAt : ℚ

namespace Page

/-- The page when it has been loaded and has called `connect`. -/
def initial (now : ℚ) : Page where
  fpsStartedAt := now

def setStatus (p : Page) (className text : String) : Page :=
  { p with connection := (js "status " ++ js className, js text) }

/-- `connect`.  `socket?.disconnect()` emits `disconnect` if the socket was connected. -/
def connect (p : Page) : Page :=
  if p.connected then { p with connected := false }.setStatus "offline" "연결 끊김" else p

def upsertCamera (p : Page) (cameraId : JsString) : Page :=
  if cameraId ∈ p.cameraSelect.options then p
  else
    let select := if p.cameraSelect.value = [] then p.cameraSelect.clear else p.cameraSelect
    { p with cameraSelect := select.add cameraId }

/-- The picture and what is said about it, in `renderFrame`. -/
def draw (p : Page) (message : FrameMessage) : Page :=
  let urls :=
    match p.objectUrl with
    | some url => p.urls.revoke url
    | none => p.urls
  let (url, urls) := urls.create message.frame.bytes
  { p with
    objectUrl := some url
    urls := urls
    src := some url
    frameHidden := false
    emptyHidden := true
    cameraId := message.cameraId
    processing := message.processingMs.toFixed1 ++ js " ms"
    detections := Number.natToJs message.detections.length }

/-- `frames * 1_000 / elapsed`. -/
def perSecond (frames : Nat) : Number → Number
  | .finite elapsed => .round (frames * 1000 / elapsed)
  | .posInf => .finite 0
  | n => n

/-- The count of frames, in `renderFrame`. -/
def countFrame (p : Page) (now now' : ℚ) : Page × List Output :=
  let frames := p.frames + 1
  let elapsed := Number.round (now - p.fpsStartedAt)
  if elapsed.lt (.finite 1000) then ({ p with frames := frames }, [])
  else
    ({ p with
        fps := (perSecond frames elapsed).toFixed1
        frames := 0
        fpsStartedAt := now' },
      [.rate frames p.fpsStartedAt now now'])

def renderFrame (p : Page) (message : FrameMessage) (now now' : ℚ) : Page × List Output :=
  let p := p.upsertCamera message.cameraId
  if p.cameraSelect.value ≠ [] ∧ p.cameraSelect.value ≠ message.cameraId then (p, [])
  else
    let p :=
      if p.cameraSelect.value = [] then
        { p with cameraSelect := p.cameraSelect.setValue message.cameraId }
      else p
    let (p, out) := (p.draw message).countFrame now now'
    (p, .drew message :: out)

/-- The handlers of the socket. -/
def onMessage (p : Page) (m : Message) (now now' : ℚ) : Page × List Output :=
  match m with
  | .list cameras => (cameras.foldl (fun p camera => p.upsertCamera camera.cameraId) p, [])
  | .status cameraId _ => (p.upsertCamera cameraId, [])
  | .frame message => p.renderFrame message now now'

def step (p : Page) : Event → Option (Page × List Output)
  | .click => some (p.connect, [])
  | .connected =>
      if p.connected then none
      else some ({ p with connected := true }.setStatus "online" "연결됨", [])
  | .disconnected =>
      if p.connected then some ({ p with connected := false }.setStatus "offline" "연결 끊김", [])
      else none
  | .connectError =>
      if p.connected then none else some (p.setStatus "offline" "인증/연결 실패", [])
  | .message m now now' => if p.connected then some (p.onMessage m now now') else none
  | .choose index =>
      if index < p.cameraSelect.options.length then
        some ({ p with cameraSelect := { p.cameraSelect with selectedIndex := some index } }, [])
      else none

def machine : EventMachine Page Event Output := ⟨step⟩

end Page

end CameraStream.Viewer
