/-
  CameraStream.Vision.App

  The OpenCV service (app.py): `process`, `detect_motion` and `draw_detections`.

  The operations of OpenCV are a parameter: pure functions on the contents of arrays, of
  which decoding and encoding can fail.  Python's own part is modelled: which array an
  operation is given, which name stands for which array, and what is written in place.  An
  array that is drawn on or kept between requests lives in an `ObjectHeap` and is known by
  its reference; an array that only one expression sees is its contents.

  The one worker of the service runs the requests on one event loop.  `process` gives the
  loop up at `await frame.read()` only, so a request is two steps: what comes before, and
  what comes after.  `machine` takes them in any order.
-/

import CameraStream.Js.Number
import CameraStream.Lib.EventMachine
import CameraStream.Lib.InsertionMap
import CameraStream.Lib.ObjectHeap

namespace CameraStream.Vision

/-! ## OpenCV -/

structure Point where
  x : Int
  y : Int

structure Rect where
  x : Int
  y : Int
  width : Int
  height : Int

/-- Blue, green, red. -/
structure Color where
  blue : Nat
  green : Nat
  red : Nat

inductive ColorConversion where
  | bgrToGray
  | grayToBgr

/-- What `imdecode` does with some bytes. -/
inductive Decoded (α : Type*) where
  | image (pixels : α)
  /-- It returns `None`. -/
  | none
  /-- It raises, as for an empty buffer. -/
  | raises

/-- What `imencode` does with an image. -/
inductive Encoded where
  | bytes (output : List UInt8)
  /-- The flag it returns is false. -/
  | failed
  | raises

/-- The operations of `cv2`, on the contents of arrays (`α`) and contours (`κ`). -/
structure OpenCv (α κ : Type) where
  /-- With `IMREAD_COLOR`. -/
  imdecode : List UInt8 → Decoded α
  shape : α → List Nat
  cvtColor : α → ColorConversion → α
  gaussianBlur : α → Nat × Nat → ℚ → α
  absdiff : α → α → α
  /-- With `THRESH_BINARY`. -/
  threshold : α → ℚ → ℚ → α
  /-- With the default kernel. -/
  dilate : α → Nat → α
  /-- With `RETR_EXTERNAL` and `CHAIN_APPROX_SIMPLE`. -/
  findContours : α → List κ
  contourArea : κ → ℚ
  boundingRect : κ → Rect
  canny : α → ℚ → ℚ → α
  rectangle : Point → Point → Color → Nat → α → α
  /-- In `FONT_HERSHEY_SIMPLEX`. -/
  putText : String → Point → ℚ → Color → Nat → α → α
  /-- As `.jpg`, with `IMWRITE_JPEG_QUALITY`. -/
  imencode : α → Int → Encoded

variable {α κ : Type}

/-! ## Numbers and text -/

/-- The double nearest to `q`; no value here is anywhere near an overflow. -/
def double (q : ℚ) : ℚ :=
  match Js.Number.round q with
  | .finite value => value
  | _ => q

/-- `round(x, digits)`. -/
def roundDigits (x : ℚ) (digits : Nat) : ℚ :=
  double (Js.Number.roundHalfEven (x * 10 ^ digits) / 10 ^ digits)

def base64Alphabet : List Char :=
  "ABCDEFGHIJKLMNOPQRSTUVWXYZabcdefghijklmnopqrstuvwxyz0123456789+/".toList

/-- The character for six bits. -/
def base64Char (n : Nat) : Char := base64Alphabet.getD (n % 64) '='

/-- `base64.b64encode`, decoded as ASCII. -/
def b64encode : List UInt8 → List Char
  | [] => []
  | [a] => [base64Char (a.toNat / 4), base64Char (a.toNat * 16), '=', '=']
  | [a, b] =>
      [base64Char (a.toNat / 4), base64Char (a.toNat * 16 + b.toNat / 16),
        base64Char (b.toNat * 4), '=']
  | a :: b :: c :: rest =>
      base64Char (a.toNat / 4) :: base64Char (a.toNat * 16 + b.toNat / 16) ::
        base64Char (b.toNat * 4 + c.toNat / 64) :: base64Char c.toNat :: b64encode rest

/-! ## Requests -/

/-- The fields of a request, validated. -/
structure Form where
  frame : List UInt8
  cameraId : String
  timestamp : Int
  mode : String := "motion"
  jpegQuality : Int := 80

/-- What ends a request without an answer. -/
structure HttpException where
  status : Nat
  detail : String
  deriving DecidableEq

def invalidMode : HttpException := ⟨400, "mode must be motion, edges, or none"⟩

def invalidFrame : HttpException := ⟨400, "invalid JPEG frame"⟩

def encodeFailed : HttpException := ⟨500, "failed to encode processed frame"⟩

/-- What the framework makes of any other exception. -/
def internalError : HttpException := ⟨500, "Internal Server Error"⟩

/-- One detected region; its type is always `motion`. -/
structure Detection where
  confidence : ℚ
  x : Int
  y : Int
  width : Int
  height : Int

structure Response where
  cameraId : String
  timestamp : Int
  processingMs : ℚ
  detections : List Detection
  imageBase64 : List Char

/-- The state of the service between two steps. -/
structure Service (α : Type) where
  heap : ObjectHeap α := {}
  previousFrames : InsertionMap String Ref := .empty
  /-- The requests that are at `await frame.read()`. -/
  waiting : List Form := []

/-! ## `detect_motion` -/

/-- `max(500, image_area * 0.002)`. -/
def minimumArea (imageArea : Nat) : ℚ :=
  let scaled := double (imageArea * double (2 / 1000))
  if 500 < scaled then scaled else 500

/-- `round(min(1.0, area / (image_area * 0.1)), 3)`. -/
def confidence (area : ℚ) (imageArea : Nat) : ℚ :=
  let ratio := double (area / double (imageArea * double (1 / 10)))
  roundDigits (if ratio < 1 then ratio else 1) 3

/-- The detection for one contour, if it is large enough. -/
def detectionOf (cv : OpenCv α κ) (imageArea : Nat) (contour : κ) : Option Detection :=
  let area := cv.contourArea contour
  if area < minimumArea imageArea then none
  else
    let rect := cv.boundingRect contour
    some {
      confidence := confidence area imageArea
      x := rect.x
      y := rect.y
      width := rect.width
      height := rect.height }

/-- From the difference of two references to the twenty largest regions.  The sort is
    stable, also in reverse. -/
def findMotion (cv : OpenCv α κ) (previous gray : α) (shape : List Nat) : List Detection :=
  let delta := cv.absdiff previous gray
  let threshold := cv.dilate (cv.threshold delta 25 255) 2
  let imageArea := shape.getD 0 0 * shape.getD 1 0
  let detections := (cv.findContours threshold).filterMap (detectionOf cv imageArea)
  (detections.mergeSort fun a b => b.width * b.height ≤ a.width * a.height).take 20

/-- What is kept of an image: gray, and blurred. -/
def reference (cv : OpenCv α κ) (pixels : α) : α :=
  cv.gaussianBlur (cv.cvtColor pixels .bgrToGray) (21, 21) 0

/-- `none` is a dangling reference. -/
def detectMotion (cv : OpenCv α κ) (s : Service α) (cameraId : String) (image : Ref) :
    Option (Service α × List Detection) := do
  let pixels ← s.heap.get? image
  let gray := reference cv pixels
  let stored := s.heap.alloc gray
  let previous := s.previousFrames.get? cameraId
  let s := { s with heap := stored.1, previousFrames := s.previousFrames.set cameraId stored.2 }
  match previous with
  | none => some (s, [])
  | some previous =>
      let old ← s.heap.get? previous
      if cv.shape old ≠ cv.shape gray then some (s, [])
      else some (s, findMotion cv old gray (cv.shape pixels))

/-! ## `draw_detections` -/

def green : Color := ⟨0, 255, 0⟩

/-- The two drawing calls for one detection, on the array behind `image`. -/
def drawDetection (cv : OpenCv α κ) (heap : ObjectHeap α) (image : Ref) (d : Detection) :
    ObjectHeap α :=
  let start : Point := ⟨d.x, d.y⟩
  let stop : Point := ⟨d.x + d.width, d.y + d.height⟩
  let label : Point := ⟨start.x, max 20 (start.y - 6)⟩
  let heap := heap.update image (cv.rectangle start stop green 2)
  heap.update image (cv.putText "motion" label (double (55 / 100)) green 2)

def drawDetections (cv : OpenCv α κ) (heap : ObjectHeap α) (image : Ref)
    (detections : List Detection) : ObjectHeap α :=
  detections.foldl (fun heap d => drawDetection cv heap image d) heap

/-! ## `process` -/

def clampQuality (jpegQuality : Int) : Int := min 95 (max 30 jpegQuality)

/-- The end of `process`: the image is encoded and the answer made.  `elapsed` is the
    difference of the two clock readings, in seconds. -/
def respond (cv : OpenCv α κ) (form : Form) (elapsed : ℚ) (pixels : α)
    (detections : List Detection) : Except HttpException Response :=
  match cv.imencode pixels (clampQuality form.jpegQuality) with
  | .raises => .error internalError
  | .failed => .error encodeFailed
  | .bytes output =>
      .ok {
        cameraId := form.cameraId
        timestamp := form.timestamp
        processingMs := roundDigits (double (elapsed * 1000)) 2
        detections := detections
        imageBase64 := b64encode output }

/-- `process` after its `await`. -/
def afterRead (cv : OpenCv α κ) (s : Service α) (form : Form) (elapsed : ℚ) :
    Option (Service α × Except HttpException Response) :=
  match cv.imdecode form.frame with
  | .raises => some (s, .error internalError)
  | .none => some (s, .error invalidFrame)
  | .image pixels => do
      let decoded := s.heap.alloc pixels
      let s := { s with heap := decoded.1 }
      let image := decoded.2
      if form.mode = "motion" then
        let (s, detections) ← detectMotion cv s form.cameraId image
        let s := { s with heap := drawDetections cv s.heap image detections }
        let drawn ← s.heap.get? image
        some (s, respond cv form elapsed drawn detections)
      else if form.mode = "edges" then
        let gray := cv.cvtColor pixels .bgrToGray
        let edges := cv.canny gray 80 160
        some (s, respond cv form elapsed (cv.cvtColor edges .grayToBgr) [])
      else some (s, respond cv form elapsed pixels [])

/-! ## Requests in any order -/

inductive Event where
  | request (form : Form)
  /-- `frame.read()` returns for the waiting request at this place. -/
  | read (index : Nat) (elapsed : ℚ)
  /-- `frame.read()` raises. -/
  | readFailed (index : Nat)

inductive Output where
  /-- The request ends before its `await`. -/
  | refused (form : Form) (error : HttpException)
  /-- The request ends at its `await`. -/
  | unread (form : Form)
  | answered (form : Form) (reply : Except HttpException Response)

def step (cv : OpenCv α κ) (s : Service α) : Event → Option (Service α × List Output)
  | .request form =>
      if form.mode ∈ ["motion", "edges", "none"] then
        some ({ s with waiting := s.waiting ++ [form] }, [])
      else some (s, [.refused form invalidMode])
  | .read index elapsed => do
      let form ← s.waiting[index]?
      let (s, reply) ← afterRead cv { s with waiting := s.waiting.eraseIdx index } form elapsed
      some (s, [.answered form reply])
  | .readFailed index => do
      let form ← s.waiting[index]?
      some ({ s with waiting := s.waiting.eraseIdx index }, [.unread form])

def machine (cv : OpenCv α κ) : EventMachine (Service α) Event Output := ⟨step cv⟩

/-- One step, by outcome. -/
inductive Step (cv : OpenCv α κ) (s : Service α) : Event → Service α × List Output → Prop where
  | waits (form : Form) (hmode : form.mode ∈ ["motion", "edges", "none"]) :
      Step cv s (.request form) ({ s with waiting := s.waiting ++ [form] }, [])
  | refused (form : Form) (hmode : form.mode ∉ ["motion", "edges", "none"]) :
      Step cv s (.request form) (s, [.refused form invalidMode])
  | answered (index : Nat) (elapsed : ℚ) (form : Form) (s' : Service α)
      (reply : Except HttpException Response) (hform : s.waiting[index]? = some form)
      (hafter : afterRead cv { s with waiting := s.waiting.eraseIdx index } form elapsed =
        some (s', reply)) :
      Step cv s (.read index elapsed) (s', [.answered form reply])
  | unread (index : Nat) (form : Form) (hform : s.waiting[index]? = some form) :
      Step cv s (.readFailed index)
        ({ s with waiting := s.waiting.eraseIdx index }, [.unread form])

theorem step_cases {cv : OpenCv α κ} {s : Service α} {e : Event}
    {r : Service α × List Output} (h : step cv s e = some r) : Step cv s e r := by
  cases e with
  | request form =>
      replace h : (if form.mode ∈ ["motion", "edges", "none"] then _ else _) = some r := h
      split at h
      · next hmode => cases h; exact .waits form hmode
      · next hmode => cases h; exact .refused form hmode
  | read index elapsed =>
      obtain ⟨form, hform, hrest⟩ := Option.bind_eq_some_iff.mp h
      obtain ⟨⟨s', reply⟩, hafter, hout⟩ := Option.bind_eq_some_iff.mp hrest
      cases hout
      exact .answered index elapsed form s' reply hform hafter
  | readFailed index =>
      obtain ⟨form, hform, hrest⟩ := Option.bind_eq_some_iff.mp h
      cases hrest
      exact .unread index form hform

end CameraStream.Vision
