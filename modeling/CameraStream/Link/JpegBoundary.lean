/-
  CameraStream.Link.JpegBoundary

  The three rules for the boundary of a JPEG along the way of a frame: the splitter of
  `capture_loop`, the check of `send_frame` and the check of the gateway's `onFrame`.

  The two checks are one rule (`hasJpegBoundary_iff`), and the splitter delivers nothing
  that fails it.  What is left for the gateway to refuse is a frame above its size limit.
-/

import CameraStream.Client.CaptureBuffer
import CameraStream.Client.FrameFlow
import CameraStream.Client.WireDiscipline
import CameraStream.Server.CameraGateway

namespace CameraStream.Link

open Client Server Server.CameraGateway FrameScanner EventMachine Js

/-- The length is above the limit, where the limit may be infinite or no number. -/
def Exceeds (length : Nat) : Number → Prop
  | .finite limit => limit < length
  | .negInf => True
  | .posInf => False
  | .nan => False

theorem lt_ofInt_iff (limit : Number) (length : Nat) :
    Number.lt limit (.ofInt length) = true ↔ Exceeds length limit := by
  cases limit with
  | finite q => simp [Number.lt, Number.ofInt, Exceeds]
  | negInf => simp [Number.lt, Number.ofInt, Exceeds]
  | posInf => simp [Number.lt, Number.ofInt, Exceeds]
  | nan => simp [Number.lt, Exceeds]

/-! ## The checks -/

/-- **One rule.** `send_frame` passes exactly the byte strings that the gateway takes for a
    JPEG. -/
theorem hasJpegBoundary_iff (bytes : Bytes) :
    hasJpegBoundary bytes = true ↔ 4 ≤ bytes.length ∧ isJpeg bytes = true := by
  simp only [hasJpegBoundary, isJpeg, Bool.and_eq_true, decide_eq_true_eq, and_assoc]
  refine and_congr_right fun hlen => ?_
  -- `at(-1)` and `at(-2)` are the last two bytes
  have hlast : bytes.reverse[0]? = bytes[bytes.length - 1]? := by
    rw [List.getElem?_reverse (by omega), Nat.sub_zero]
  have hsecond : bytes.reverse[1]? = bytes[bytes.length - 2]? := by
    rw [List.getElem?_reverse (by omega), Nat.sub_sub]
  rw [hlast, hsecond]

/-- A frame of the splitter passes. -/
theorem hasJpegBoundary_of_isFrame {jpeg : Bytes} (h : IsFrame soi eoi jpeg) :
    hasJpegBoundary jpeg = true := by
  have hlen := h.length
  have hend : jpeg.length - 2 + 1 = jpeg.length - 1 := by omega
  simp only [hasJpegBoundary, Bool.and_eq_true, decide_eq_true_eq]
  exact ⟨⟨⟨⟨hlen, h.starts.1⟩, h.starts.2⟩, h.ends.1⟩, hend ▸ h.ends.2⟩

/-! ## The gateway -/

variable {env : Env} {g : CameraGateway} {client : SocketId} {socket : AuthenticatedSocket}
  {payload : IncomingFrame} {jpeg : Bytes} {dateNow now : Int}

/-- The payload is refused exactly above the limit. -/
theorem validFrame_eq_none_iff (hframe : payload.frame = .buffer jpeg)
    (hjpeg : hasJpegBoundary jpeg = true) :
    validFrame env (some payload) = none ↔ Exceeds jpeg.length (maxBytes env) := by
  obtain ⟨hlen, hmarkers⟩ := (hasJpegBoundary_iff jpeg).mp hjpeg
  have hshort : ¬ jpeg.length < 4 := by omega
  simp only [validFrame, Option.bind_some, hframe, toBuffer]
  rw [← lt_ofInt_iff]
  simp [hshort, hmarkers]

/-- An authorised socket is answered `invalid_jpeg` at once exactly above the limit. -/
theorem onFrame_invalidJpeg_iff {tag : FrameTag} {c : JsString}
    (hcamera : socket.asCamera = some c) (hframe : payload.frame = .buffer jpeg)
    (hjpeg : hasJpegBoundary jpeg = true) :
    .ack tag (.rejected .invalidJpeg) ∈
        (g.onFrame env socket tag (some payload) dateNow now).2 ↔
      Exceeds jpeg.length (maxBytes env) := by
  rw [← validFrame_eq_none_iff hframe hjpeg, onFrame, hcamera]
  cases hvalid : validFrame env (some payload) with
  | none => simp
  | some frame =>
      -- behind the checks there are other answers, but not this one
      refine iff_of_false ?_ (by simp)
      simp only
      cases propertyToNumber payload.timestamp (env.nesting .timestamp) with
      | none => simp
      | some timestamp =>
          simp only
          split
          · simp
          · simp

/-- The event of such a frame, as the gateway answers it at once. -/
theorem frame_invalidJpeg_iff {c : JsString} {r : CameraGateway × List CameraGateway.Output}
    (hsocket : g.sockets[client]? = some socket) (hcamera : socket.asCamera = some c)
    (hframe : payload.frame = .buffer jpeg) (hjpeg : hasJpegBoundary jpeg = true)
    (hstep : CameraGateway.step env g (.frame client (some payload) dateNow now) = some r) :
    .ack (g.nextTag client socket) (.rejected .invalidJpeg) ∈ r.2 ↔
      Exceeds jpeg.length (maxBytes env) := by
  simp only [CameraGateway.step, hsocket] at hstep
  split at hstep
  · obtain rfl := Option.some.inj hstep
    rw [List.mem_cons, or_iff_right (by simp)]
    exact onFrame_invalidJpeg_iff hcamera hframe hjpeg
  · cases hstep

/-- The end of a vision request is never answered so. -/
theorem onSettled_not_invalidJpeg (call : Call FrameTag) (reply : VisionReply) (tag : FrameTag) :
    .ack tag (.rejected .invalidJpeg) ∉ (g.onSettled call reply now).2 := by
  rw [onSettled]
  cases (g.cameras.resume call reply now).2 with
  | ok processed => simp
  | error e => simp

/-! ## The pipeline -/

/-- `send_frame` accepts every frame that the capture thread has handed over with a proper
    boundary: taking it from the queue throws nothing. -/
theorem popped_not_caught {parse : Bytes → Option JsonValue} {config : Client.Config}
    {es : List Application.Event} {cfg cfg' : EventMachine.Config Application Application.Output}
    {out : List Application.Output}
    (hcaptured : ∀ frame, .frameCaptured frame ∈ es → hasJpegBoundary frame.jpeg = true)
    (hrun : (Application.machine parse).exec (.start { config := config }) es = some cfg)
    (hnext : (Application.machine parse).next cfg .popped = some cfg')
    (hout : cfg'.history = cfg.history ++ out) : .caught ∉ out := by
  obtain ⟨out', hstep, hhist⟩ := next_eq_some hnext
  obtain rfl := List.append_cancel_left (hout.symm.trans hhist)
  have hcases : Application.Step parse cfg.state .popped (cfg'.state, out) :=
    Application.step_cases hstep
  generalize hr : (cfg'.state, out) = r at hcases
  obtain rfl : out = r.2 := congrArg Prod.snd hr
  cases hcases with
  | goto pc h => cases h
  | noFrame frames hmain hpop => simp
  | sends frames frame hmain hpop hauth hsocket hjpeg => simp
  | capture b hcapturing h => simp
  | raises b h =>
      -- the socket is there and the frame is one of the captured ones, so nothing is wrong
      cases h with
      | @send frames frame hmain hpop hbad =>
          exfalso
          have hphase : cfg.state.phase = .ready cfg.state.socket.nextAckId := by
            rw [Application.phase, hmain]
          obtain ⟨hauth, hpresent⟩ := (Application.placed_run hrun).members hphase
          have hmem : .frameCaptured frame ∈ es ++ [.popped] :=
            Application.captured_of_sending hrun hmain hstep (by simp)
          have hjpeg := hcaptured frame (by simpa using hmem)
          rw [hauth, hpresent, hjpeg] at hbad
          cases hbad

/-- **The boundary rules agree.** Whatever the camera sends and however it is read, every
    frame that `capture_loop` delivers passes the check of `send_frame`, fits into the
    buffer and one read, and is refused by the gateway as `invalid_jpeg` exactly when it is
    above `MAX_FRAME_BYTES`; so a client that captures such frames never throws when it
    takes one to send it.  The two checks agree on every byte string. -/
theorem jpeg_boundary_rules_agree :
    (∀ clock events c, (captureLoop clock).exec (.start {}) events = some c →
      (∀ jpeg ∈ jpegsOf c.history,
        hasJpegBoundary jpeg = true ∧
        jpeg.length ≤ kMaximumBufferedBytes + kReadBufferBytes ∧
        ∀ env g client socket cameraId payload dateNow now r,
          g.sockets[client]? = some socket → socket.asCamera = some cameraId →
          payload.frame = .buffer jpeg →
          CameraGateway.step env g (.frame client (some payload) dateNow now) = some r →
          (.ack (g.nextTag client socket) (.rejected .invalidJpeg) ∈ r.2 ↔
            Exceeds jpeg.length (maxBytes env))) ∧
      ∀ parse config es cfg cfg' out,
        (∀ frame, .frameCaptured frame ∈ es → frame.jpeg ∈ jpegsOf c.history) →
        (Application.machine parse).exec (.start { config := config }) es = some cfg →
        (Application.machine parse).next cfg .popped = some cfg' →
        cfg'.history = cfg.history ++ out → .caught ∉ out) ∧
    (∀ (g : CameraGateway) call reply now tag,
      .ack tag (.rejected .invalidJpeg) ∉ (g.onSettled call reply now).2) ∧
    ∀ bytes, hasJpegBoundary bytes = true ↔ 4 ≤ bytes.length ∧ isJpeg bytes = true := by
  refine ⟨?_, ?_, hasJpegBoundary_iff⟩
  · intro clock events c hrun
    have hpass : ∀ jpeg ∈ jpegsOf c.history, hasJpegBoundary jpeg = true :=
      fun jpeg hjpeg => hasJpegBoundary_of_isFrame (isFrame_of_capture hrun jpeg hjpeg).1
    refine ⟨fun jpeg hjpeg => ⟨hpass jpeg hjpeg, (isFrame_of_capture hrun jpeg hjpeg).2, ?_⟩, ?_⟩
    · intro env g client socket cameraId payload dateNow now r hsocket hcamera hframe hstep
      exact frame_invalidJpeg_iff hsocket hcamera hframe (hpass jpeg hjpeg) hstep
    · intro parse config es cfg cfg' out hcaptured hexec hnext hout
      refine popped_not_caught (fun frame hframe => ?_) hexec hnext hout
      exact hpass _ (hcaptured frame hframe)
  · intro g call reply now tag
    exact onSettled_not_invalidJpeg call reply tag

/-- A gateway with one camera socket, for a camera named `c`. -/
def oneCamera : CameraGateway where
  sockets := [{ auth := ⟨none, none, none⟩, role := some .camera, cameraId := some (js "c") }]

/-- The JPEG of least length goes all the way, and is refused where the limit is 3. -/
theorem least_jpeg_boundary : ∃ c, (captureLoop fun _ => 0).exec (.start {})
      [.data [0xFF, 0xD8, 0xFF], .data [0xD9]] = some c ∧
    hasJpegBoundary [0xFF, 0xD8, 0xFF, 0xD9] = true ∧
    ∀ r, CameraGateway.step { maxFrameBytes := some (js "3") } oneCamera
        (.frame 0 (some ⟨none, none, .buffer [0xFF, 0xD8, 0xFF, 0xD9]⟩) 0 0) = some r →
      .ack ⟨0, 0, some (js "c")⟩ (.rejected .invalidJpeg) ∈ r.2 := by
  have hread : IsChunking [0xFF, 0xD8, 0xFF, 0xD9] [[0xFF, 0xD8, 0xFF], [0xD9]] :=
    ⟨rfl, by decide⟩
  obtain ⟨c, hrun, hjpegs⟩ := captureChunks_of_short (fun _ => 0) hread (by decide)
  have hmem : [0xFF, 0xD8, 0xFF, 0xD9] ∈ jpegsOf c.history := by
    rw [hjpegs]
    simp [refSplit, splitFrames, findPair, soi, eoi]
  obtain ⟨hjpeg, -, hgateway⟩ := (jpeg_boundary_rules_agree.1 _ _ c hrun).1 _ hmem
  refine ⟨c, hrun, hjpeg, ?_⟩
  intro r hstep
  refine (hgateway _ _ _ _ (js "c") _ _ _ r rfl rfl rfl hstep).mpr ?_
  have hlimit : maxBytes { maxFrameBytes := some (js "3") } = .finite 3 := by
    decide +kernel
  rw [hlimit]
  show ((3 : ℚ) < (4 : Nat))
  norm_num

end CameraStream.Link
