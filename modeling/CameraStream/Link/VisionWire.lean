/-
  CameraStream.Link.VisionWire

  One request of `OpenCvService.process` (opencv.service.ts) on its way to app.py and the
  answer on its way back.

    * `bufferFromBase64_b64encode` — `Buffer.from(text, 'base64')` undoes `b64encode`;
    * `process_replyOf`            — what `process` returns for an answer is the answer, as
                                     JSON carries it: the camera and the timestamp that
                                     app.py repeats are those of the request.
-/

import CameraStream.Js.NumberText
import CameraStream.Server.CameraGateway
import CameraStream.Vision.Pictures

namespace CameraStream.Link

open Js Server

/-! ## Base64 -/

/-- The six bits of a Base64 character, in the standard alphabet or the one for URLs. -/
def sextet (c : Char) : Option Nat :=
  let n := c.toNat
  if 0x41 ≤ n ∧ n ≤ 0x5A then some (n - 0x41)
  else if 0x61 ≤ n ∧ n ≤ 0x7A then some (n - 0x61 + 26)
  else if 0x30 ≤ n ∧ n ≤ 0x39 then some (n - 0x30 + 52)
  else if c = '+' ∨ c = '-' then some 62
  else if c = '/' ∨ c = '_' then some 63
  else none

/-- Four times six bits are three bytes. -/
def octets : List Nat → List UInt8
  | a :: b :: c :: d :: rest =>
      (a * 4 + b / 16).toUInt8 :: (b * 16 + c / 4).toUInt8 :: (c * 64 + d).toUInt8 :: octets rest
  | [a, b, c] => [(a * 4 + b / 16).toUInt8, (b * 16 + c / 4).toUInt8]
  | [a, b] => [(a * 4 + b / 16).toUInt8]
  | _ => []

/-- `Buffer.from(text, 'base64')`; characters outside the alphabets, and the padding, are
    skipped. -/
def bufferFromBase64 (text : List Char) : Buffer := octets (text.filterMap sextet)

theorem sextet_alphabet : ∀ n < 64, sextet (Vision.base64Alphabet.getD n '=') = some n := by
  decide +kernel

theorem sextet_base64Char (n : Nat) : sextet (Vision.base64Char n) = some (n % 64) :=
  sextet_alphabet _ (Nat.mod_lt _ (by norm_num))

theorem sextet_padding : sextet '=' = none := by decide

/-- A byte is what its number is modulo 256. -/
theorem toUInt8_eq {n : Nat} {a : UInt8} (h : n % 256 = a.toNat) : n.toUInt8 = a := by
  refine UInt8.toNat_inj.mp ?_
  rw [show n.toUInt8.toNat = n % 256 from rfl, h]

/-- The first byte of a group. -/
theorem first_octet (a : UInt8) {n : Nat} (hn : n / 16 = a.toNat % 4) :
    (a.toNat / 4 % 64 * 4 + n / 16).toUInt8 = a := by
  refine toUInt8_eq ?_
  have ha := a.toNat_lt
  omega

theorem second_octet (a b : UInt8) {n : Nat} (hn : n / 4 = b.toNat % 16) :
    ((a.toNat * 16 + b.toNat / 16) % 64 * 16 + n / 4).toUInt8 = b := by
  refine toUInt8_eq ?_
  have hb := b.toNat_lt
  omega

/-- **Round trip.** -/
theorem bufferFromBase64_b64encode (bytes : List UInt8) :
    bufferFromBase64 (Vision.b64encode bytes) = bytes := by
  rw [bufferFromBase64]
  induction bytes using Vision.b64encode.induct with
  | case1 => rfl
  | case2 a =>
      simp only [Vision.b64encode, List.filterMap_cons, List.filterMap_nil, sextet_base64Char,
        sextet_padding, octets]
      rw [first_octet a (by omega)]
  | case3 a b =>
      simp only [Vision.b64encode, List.filterMap_cons, List.filterMap_nil, sextet_base64Char,
        sextet_padding, octets]
      have hb := b.toNat_lt
      rw [first_octet a (by omega), second_octet a b (by omega)]
  | case4 a b c rest ih =>
      simp only [Vision.b64encode, List.filterMap_cons, sextet_base64Char, octets, ih]
      have hb := b.toNat_lt
      have hc := c.toNat_lt
      have hthird : ((b.toNat * 4 + c.toNat / 64) % 64 * 64 + c.toNat % 64).toUInt8 = c :=
        toUInt8_eq (by omega)
      rw [first_octet a (by omega), second_octet a b (by omega), hthird]

/-! ## The request -/

/-- How FastAPI reads the text of a field, as a string and as an integer. -/
structure FormFields where
  text : JsString → String
  /-- `none` is a validation error. -/
  integer : JsString → Option Int
  text_cameraId : ∀ c, CameraGateway.isCameraId c = true → js (text c) = c
  text_mode : ∀ m, text m ∈ ["motion", "edges", "none"] → js (text m) = m
  /-- The text of a number, where it is taken for an integer, stands for this integer. -/
  integer_number : ∀ (n : Number) (i : Int), integer n.toJsString = some i →
    Number.round i = .ofString n.toJsString

/-- The fields of a request as `process` of app.py gets them; an empty field counts as absent
    and has its default.  `none` is the status 422. -/
def FormFields.receive (fields : FormFields) (form : VisionForm) : Option Vision.Form := do
  let timestamp ← fields.integer form.timestamp
  let jpegQuality ← (if form.jpegQuality = [] then some 80 else fields.integer form.jpegQuality)
  some {
    frame := form.frame
    cameraId := fields.text form.cameraId
    timestamp := timestamp
    mode := if form.mode = [] then "motion" else fields.text form.mode
    jpegQuality := jpegQuality }

theorem FormFields.receive_eq {fields : FormFields} {form : VisionForm} {request : Vision.Form}
    (h : fields.receive form = some request) :
    request.frame = form.frame ∧ request.cameraId = fields.text form.cameraId ∧
      fields.integer form.timestamp = some request.timestamp ∧
        request.mode = if form.mode = [] then "motion" else fields.text form.mode := by
  obtain ⟨timestamp, hinteger, hrest⟩ := Option.bind_eq_some_iff.mp h
  obtain ⟨jpegQuality, -, hrequest⟩ := Option.bind_eq_some_iff.mp hrest
  cases hrequest
  exact ⟨rfl, rfl, hinteger, rfl⟩

/-- What FastAPI answers when the fields do not pass. -/
def validationError : Nat := 422

/-! ## The answer -/

/-- An element of `detections`, printed and parsed as JSON. -/
def detectionOf (d : Vision.Detection) : Detection where
  type := js "motion"
  confidence := .round d.confidence
  x := .round d.x
  y := .round d.y
  width := .round d.width
  height := .round d.height

/-- What the request of `process` settles to. -/
def replyOf : Except Vision.HttpException Vision.Response → VisionReply
  | .ok response =>
      .processed (.round response.processingMs) (response.detections.map detectionOf)
        (bufferFromBase64 response.imageBase64)
  | .error e => .status e.status

/-- The `ProcessedFrame` that `process` makes of the parsed answer. -/
def processedOf (response : Vision.Response) : ProcessedFrame where
  cameraId := js response.cameraId
  timestamp := .round response.timestamp
  processingMs := .round response.processingMs
  detections := response.detections.map detectionOf
  frame := bufferFromBase64 response.imageBase64

variable {α κ : Type} {cv : Vision.OpenCv α κ} {fields : FormFields} {form : VisionForm}
  {request : Vision.Form} {response : Vision.Response}

/-- The answer repeats the camera and the timestamp of its request, and neither changes on
    the way to app.py. -/
theorem process_replyOf {n : Number} (htimestamp : form.timestamp = n.toJsString)
    (hcameraId : CameraGateway.isCameraId form.cameraId = true)
    (hreceive : fields.receive form = some request) (hshows : Vision.Shows cv request response) :
    process form (replyOf (.ok response)) = .ok (processedOf response) := by
  obtain ⟨-, htext, hinteger, -⟩ := FormFields.receive_eq hreceive
  obtain ⟨hcamera, htime, -⟩ := hshows
  have hid : js response.cameraId = form.cameraId := by
    rw [hcamera, htext]
    exact fields.text_cameraId _ hcameraId
  have hnumber : Number.round response.timestamp = .ofString form.timestamp := by
    rw [htime, htimestamp]
    exact fields.integer_number n _ (htimestamp ▸ hinteger)
  rw [replyOf, process, processedOf, hid, hnumber]

end CameraStream.Link
