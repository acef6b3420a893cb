/-
  CameraStream.Link.MotionDelivery

  The motion that viewers are shown for a frame, from the camera to app.py and back.

  CameraStream.Vision.MotionIsolation says what app.py detects in terms of the requests it
  has read before, and CameraStream.Link.PictureDelivery that a broadcast picture is the
  answer to a request for its frame.  `Worked` keeps what connects the two while requests
  and answers are on their way in any order: every answer, and every broadcast picture,
  belongs to one output of app.py, and every output to a request of the gateway.

  `motion_of_same_camera`: the detections that are broadcast for a frame come from this
  frame and one other, which was sent under the same camera id.
-/

import CameraStream.Link.PictureDelivery
import CameraStream.Vision.MotionIsolation

namespace CameraStream.Link.PictureSystem

open Client Server Js EventMachine
open Server.CameraGateway (asks)

variable {α κ : Type} {J : AckJson} {env : Env} {fields : FormFields} {cv : Vision.OpenCv α κ}
  {s : PictureSystem α} {c c' : EventMachine.Config (PictureSystem α) Output}

/-! ## Requests and outputs of app.py -/

/-- app.py has received `form` as `request` and answered it with `response`. -/
structure Done (fields : FormFields) (cv : Vision.OpenCv α κ) (outputs : List Vision.Output)
    (form : VisionForm) (request : Vision.Form) (response : Vision.Response) : Prop where
  receive : fields.receive form = some request
  shows : Vision.Shows cv request response
  mode : request.mode ∈ ["motion", "edges", "none"]
  answered : .answered request (.ok response) ∈ outputs

theorem Done.mono {outputs : List Vision.Output} {form : VisionForm} {request : Vision.Form}
    {response : Vision.Response} (h : Done fields cv outputs form request response)
    (more : List Vision.Output) : Done fields cv (outputs ++ more) form request response :=
  ⟨h.receive, h.shows, h.mode, List.mem_append_left _ h.answered⟩

/-- If the request `q` ended with `o`, then `o` is about this request. -/
def EndOf (fields : FormFields) (cv : Vision.OpenCv α κ) (q : Request) (o : Vision.Output) :
    Prop :=
  ∀ request reply, o = .answered request reply → fields.receive q.2 = some request ∧
    ∀ response, reply = .ok response →
      Vision.Shows cv request response ∧ request.mode ∈ ["motion", "edges", "none"]

/-- Where answers and broadcast pictures come from. -/
structure Worked (fields : FormFields) (cv : Vision.OpenCv α κ)
    (c : EventMachine.Config (PictureSystem α) Output) : Prop where
  asked : ∀ request reply, .answered request reply ∈ visionOf c.history →
    ∃ q ∈ askedOf c.history, fields.receive q.2 = some request
  answers : ∀ a ∈ c.state.answers, a.2.succeeded = true →
    ∃ request response, Done fields cv (visionOf c.history) a.1.2 request response ∧
      a.2 = replyOf (.ok response)
  shown : ∀ tag recipients image, .gateway (.viewerFrame tag recipients image) ∈
      framesOf c.history →
    ∃ form request response, (tag, form) ∈ askedOf c.history ∧
      Done fields cv (visionOf c.history) form request response ∧ image = processedOf response

theorem worked_start (fields : FormFields) (cv : Vision.OpenCv α κ) (config : Client.Config) :
    Worked fields cv (.start (initial α config)) := ⟨nofun, nofun, nofun⟩

/-! ## Steps -/

/-- A step of the frames; `s` has no other answers than before. -/
theorem Worked.afterFrames (h : Worked fields cv c)
    (hanswers : ∀ a ∈ s.answers, a ∈ c.state.answers)
    (r : FrameSystem × List FrameSystem.Output)
    (hshown : ∀ tag recipients image, .gateway (.viewerFrame tag recipients image) ∈ r.2 →
      ∃ form request response, (tag, form) ∈ askedOf c.history ∧
        Done fields cv (visionOf c.history) form request response ∧
          image = processedOf response) :
    Worked fields cv ⟨(s.afterFrames r).1, c.history ++ (s.afterFrames r).2⟩ := by
  have hvision : visionOf (c.history ++ (s.afterFrames r).2) = visionOf c.history :=
    visionOf_afterFrames s r c.history
  have hasked := askedOf_afterFrames s r c.history
  refine ⟨?_, ?_, ?_⟩
  · intro request reply hmem
    rw [hvision] at hmem
    obtain ⟨q, hq, hreceive⟩ := h.asked request reply hmem
    exact ⟨q, hasked ▸ List.mem_append_left _ hq, hreceive⟩
  · intro a ha hsucceeded
    rw [hvision]
    exact h.answers a (hanswers a ha) hsucceeded
  · intro tag recipients image hmem
    have hbefore : ∃ form request response, (tag, form) ∈ askedOf c.history ∧
        Done fields cv (visionOf c.history) form request response ∧
          image = processedOf response := by
      rw [framesOf_afterFrames] at hmem
      rcases List.mem_append.mp hmem with hold | hnew
      · exact h.shown tag recipients image hold
      · exact hshown tag recipients image hnew
    obtain ⟨form, request, response, hform, hdone, himage⟩ := hbefore
    refine ⟨form, request, response, hasked ▸ List.mem_append_left _ hform, ?_, himage⟩
    rw [hvision]
    exact hdone

/-- A step of app.py with the request `q`. -/
theorem Worked.afterVision (h : Worked fields cv c) {q : Request}
    (hq : q ∈ askedOf c.history) (hanswers : ∀ a ∈ s.answers, a ∈ c.state.answers)
    (r : Vision.Service α × List Vision.Output) (hend : ∀ o ∈ r.2, EndOf fields cv q o) :
    Worked fields cv ⟨s.afterVision q r, c.history ++ r.2.map .vision⟩ := by
  have hvision := visionOf_vision c.history r.2
  have hasked := askedOf_vision c.history r.2
  refine ⟨?_, ?_, ?_⟩
  · intro request reply hmem
    rw [hvision] at hmem
    rw [hasked]
    rcases List.mem_append.mp hmem with hold | hnew
    · exact h.asked request reply hold
    · exact ⟨q, hq, (hend _ hnew request reply rfl).1⟩
  · intro a ha hsucceeded
    rw [hvision]
    rcases List.mem_append.mp ha with hold | hnew
    · obtain ⟨request, response, hdone, hreply⟩ := h.answers a (hanswers a hold) hsucceeded
      exact ⟨request, response, hdone.mono r.2, hreply⟩
    · -- the answer that goes out now
      obtain ⟨o, ho, rfl⟩ := List.mem_map.mp hnew
      cases o with
      | refused form error => cases hsucceeded
      | unread form => cases hsucceeded
      | answered request reply =>
          cases reply with
          | error e => cases hsucceeded
          | ok response =>
              obtain ⟨hreceive, hok⟩ := hend _ ho request _ rfl
              obtain ⟨hshows, hmode⟩ := hok response rfl
              exact ⟨request, response,
                ⟨hreceive, hshows, hmode, List.mem_append_right _ ho⟩, rfl⟩
  · intro tag recipients image hmem
    rw [framesOf_vision] at hmem
    rw [hvision, hasked]
    obtain ⟨form, request, response, hform, hdone, himage⟩ := h.shown tag recipients image hmem
    exact ⟨form, request, response, hform, hdone.mono r.2, himage⟩

/-- An HTTP message is lost or refused. -/
theorem Worked.shrink (h : Worked fields cv c)
    (hanswers : ∀ a ∈ s.answers, a ∈ c.state.answers ∨ a.2.succeeded = false) :
    Worked fields cv ⟨s, c.history ++ []⟩ := by
  rw [List.append_nil]
  refine ⟨h.asked, ?_, h.shown⟩
  intro a ha hsucceeded
  rcases hanswers a ha with hold | hfailed
  · exact h.answers a hold hsucceeded
  · rw [hfailed] at hsucceeded
    cases hsucceeded

/-- A request that arrives at app.py gets no picture yet. -/
theorem endOf_request {vision : Vision.Service α} {form : Vision.Form}
    {r : Vision.Service α × List Vision.Output}
    (hstep : Vision.step cv vision (.request form) = some r) (q : Request) :
    ∀ o ∈ r.2, EndOf fields cv q o := by
  intro o ho request reply heq
  subst heq
  cases Vision.step_cases hstep with
  | waits form hmode => cases ho
  | refused form hmode => cases List.mem_singleton.mp ho

/-- app.py reads the file of the request at the place of `q`. -/
theorem Pending.endOf {asked : List Request} (hp : Pending fields cv s asked) {index : Nat}
    {q : Request} (hq : s.reading[index]? = some q) {event : Vision.Event}
    (hevent : (∃ elapsed, event = .read index elapsed) ∨ event = .readFailed index)
    {r : Vision.Service α × List Vision.Output}
    (hstep : Vision.step cv s.vision event = some r) : ∀ o ∈ r.2, EndOf fields cv q o := by
  intro o ho request reply heq
  subst heq
  have hshows := (Vision.checked_step hp.checked hstep).2 _ ho
  rcases hevent with ⟨elapsed, rfl⟩ | rfl
  · cases Vision.step_cases hstep with
    | answered _ _ form _ reply' hform hafter =>
        cases List.mem_singleton.mp ho
        refine ⟨hp.receive hq hform, ?_⟩
        rintro response rfl
        obtain ⟨hmode, hpicture, -⟩ := hshows
        exact ⟨hpicture, hmode⟩
  · cases Vision.step_cases hstep with
    | unread _ form hform => cases List.mem_singleton.mp ho

/-- What a settlement broadcasts belongs to the answer that settles. -/
theorem Worked.shown_settle (h : Worked fields cv c) (hc : Tracked J env fields cv c)
    {a : Request × VisionReply} (ha : a ∈ c.state.answers) {now : Int}
    {r : FrameSystem × List FrameSystem.Output}
    (hstep : c.state.frames.step J env (.gateway (.settle a.1.1 a.2 now)) = some r)
    {tag : FrameTag} {recipients : List SocketId} {image : ProcessedFrame}
    (hmem : .gateway (.viewerFrame tag recipients image) ∈ r.2) :
    ∃ form request response, (tag, form) ∈ askedOf c.history ∧
      Done fields cv (visionOf c.history) form request response ∧ image = processedOf response := by
  obtain ⟨rfl, hsucceeded, form, hform, hprocess⟩ := hc.viewerFrame_settle hstep hmem
  obtain ⟨request, response, hdone, hreply⟩ := h.answers a ha hsucceeded
  -- an invocation asks once
  have hasked := (hc.pending.answers a ha).1
  have hsame : form = a.1.2 := congrArg Prod.snd (hc.asked.once _ hform _ hasked rfl)
  rw [hsame] at hform hprocess
  rw [hreply, hc.process_answer hform hdone.receive hdone.shows] at hprocess
  exact ⟨a.1.2, request, response, hform, hdone, (Except.ok.inj hprocess).symm⟩

theorem worked_next {e : Event} (h : Worked fields cv c) (hc : Tracked J env fields cv c)
    (hnext : (machine J env fields cv).next c e = some c') : Worked fields cv c' := by
  obtain ⟨out, hstep, hhist⟩ := next_eq_some hnext
  obtain ⟨t, h'⟩ := c'
  obtain rfl : h' = c.history ++ out := hhist
  have hp := hc.pending
  generalize hr : (t, out) = r at hstep
  cases step_cases hstep with
  | frames event r he hframes =>
      obtain ⟨rfl, rfl⟩ := Prod.mk.inj hr
      have hmove := FrameSystem.gateway_move hc.flowing.inOrder hframes
      exact h.afterFrames (fun _ ha => ha) r fun tag recipients image hmem =>
        absurd hmem (no_viewerFrame hmove he)
  | invalid index q hq =>
      obtain ⟨rfl, rfl⟩ := Prod.mk.inj hr
      refine h.shrink fun a ha => ?_
      rcases List.mem_append.mp ha with hold | hnew
      · exact .inl hold
      · rw [List.mem_singleton.mp hnew]
        exact .inr rfl
  | arrives index q form r hq hreceive hvision =>
      obtain ⟨rfl, rfl⟩ := Prod.mk.inj hr
      refine h.afterVision (hp.requests q (List.mem_of_getElem? hq)) (fun a ha => ?_) r
        (endOf_request hvision q)
      exact ha
  | reads index q event r hq hevent hvision =>
      obtain ⟨rfl, rfl⟩ := Prod.mk.inj hr
      refine h.afterVision (hp.reading q (List.mem_of_getElem? hq)) (fun a ha => ?_) r
        (hp.endOf hq hevent hvision)
      exact ha
  | responds index a now r ha hframes =>
      obtain ⟨rfl, rfl⟩ := Prod.mk.inj hr
      exact h.afterFrames (fun _ ha' => List.mem_of_mem_eraseIdx ha') r
        fun tag recipients image hmem =>
          h.shown_settle hc (List.mem_of_getElem? ha) hframes hmem
  | dropped index a now ha =>
      obtain ⟨rfl, rfl⟩ := Prod.mk.inj hr
      exact h.shrink fun a' ha' => .inl (List.mem_of_mem_eraseIdx ha')
  | givesUp tag now r hframes =>
      obtain ⟨rfl, rfl⟩ := Prod.mk.inj hr
      refine h.afterFrames (fun _ ha => ha) r fun tag' recipients image hmem => ?_
      -- a rejected request broadcasts nothing
      obtain ⟨-, hsucceeded, -⟩ := hc.viewerFrame_settle hframes hmem
      cases hsucceeded

/-! ## Runs -/

variable {config : Client.Config} {es : List Event}
  {cfg : EventMachine.Config (PictureSystem α) Output}

theorem worked_run
    (hrun : (machine J env fields cv).exec (.start (initial α config)) es = some cfg) :
    Worked fields cv cfg := by
  have hboth : Tracked J env fields cv cfg ∧ Worked fields cv cfg :=
    exec_invariant (I := fun c => Tracked J env fields cv c ∧ Worked fields cv c)
      (fun _ _ _ hI hnext => ⟨tracked_next hI.1 hnext, worked_next hI.2 hI.1 hnext⟩)
      ⟨tracked_start J env fields cv config, worked_start fields cv config⟩ hrun
  exact hboth.2

/-- The image that was decoded last for a camera is one of a request of this camera. -/
theorem latestMotion_answered {camera : String} {outputs : List Vision.Output} {old : α}
    (h : Vision.latestMotion cv camera outputs = some old) :
    ∃ request reply, .answered request reply ∈ outputs ∧ request.cameraId = camera ∧
      cv.imdecode request.frame = .image old := by
  obtain ⟨o, ho, hold⟩ := List.mem_filterMap.mp (List.mem_of_getLast? h)
  cases o with
  | refused form error => cases hold
  | unread form => cases hold
  | answered request reply =>
      obtain ⟨hcamera, hmotion⟩ := Option.ite_none_right_eq_some.mp hold
      exact ⟨request, reply, ho, hcamera, (Vision.decodedMotion_eq_some.mp hmotion).2⟩

/-- The camera id that app.py sees is the one of the invocation. -/
theorem Tracked.cameraId (hc : Tracked J env fields cv c) {tag : FrameTag} {form : VisionForm}
    (hform : (tag, form) ∈ askedOf c.history) {request : Vision.Form}
    (hreceive : fields.receive form = some request) :
    tag.cameraId = some (js request.cameraId) := by
  obtain ⟨hcamera, hvalid, -⟩ := hc.logged.valid _ hform
  obtain ⟨-, htext, -⟩ := FormFields.receive_eq hreceive
  rw [hcamera, htext, fields.text_cameraId _ hvalid]

theorem mode_motion : ∀ mode ∈ ["motion", "edges", "none"],
    (js mode = js "motion" ↔ mode = "motion") := by
  decide

/-- The motion of a frame: since the latest picture in `before`, in the mode that is set. -/
structure Compared (env : Env) (cv : Vision.OpenCv α κ) (asked : List Request)
    (before : List Vision.Output) (frame : Frame) (tag : FrameTag) (camera : String)
    (detections : List Vision.Detection) : Prop where
  cameraId : tag.cameraId = some (js camera)
  motion : configuredMode env = js "motion" → ∃ pixels, cv.imdecode frame.jpeg = .image pixels ∧
    detections = Vision.motionDetections cv (Vision.latestMotion cv camera before) pixels
  other : configuredMode env ≠ js "motion" → detections = []
  /-- That picture was sent in an invocation under the same camera id. -/
  previous : ∀ old, Vision.latestMotion cv camera before = some old →
    ∃ tag' form', (tag', form') ∈ asked ∧ tag'.cameraId = tag.cameraId ∧
      cv.imdecode form'.frame = .image old

/-- **Motion between two pictures of one camera.**  In every run, in whatever order requests
    and answers travel: the detections that are broadcast for a frame of this client are
    those between the latest picture that app.py had read under its camera id and the
    frame itself (none in another mode), and that picture was sent to app.py for an
    invocation of a camera with the same id.  No frame of another camera has a part in it. -/
theorem motion_of_same_camera (hcv : cv.Lawful)
    (hrun : (machine J env fields cv).exec (.start (initial α config)) es = some cfg)
    {tag : FrameTag} {recipients : List SocketId} {image : ProcessedFrame}
    (hshown : .frames (.gateway (.viewerFrame tag recipients image)) ∈ cfg.history)
    {k n : Nat} {frame : Frame} (hdelivered : .frames (.delivered k n frame tag) ∈ cfg.history) :
    ∃ before after request response camera,
      visionOf cfg.history = before ++ .answered request (.ok response) :: after ∧
      image.detections = response.detections.map detectionOf ∧
      Compared env cv (askedOf cfg.history) before frame tag camera response.detections := by
  have hc := tracked_run hrun
  have hw := worked_run hrun
  obtain ⟨vs, hvs⟩ := vision_run hrun
  obtain ⟨form, request, response, hform, hdone, rfl⟩ :=
    hw.shown tag recipients image (mem_framesOf.mpr hshown)
  obtain ⟨before, after, hsplit⟩ := List.append_of_mem hdone.answered
  obtain ⟨dateNow, hmade⟩ :=
    hc.logged.carries k n frame tag (mem_framesOf.mpr hdelivered) form hform
  obtain ⟨hframe, -⟩ := FormFields.receive_eq hdone.receive
  have hjpeg : request.frame = frame.jpeg := hframe.trans (congrArg VisionForm.frame hmade)
  have hmode : js request.mode = configuredMode env := by
    have hreceive := hdone.receive
    rw [hmade] at hreceive
    exact mode_configured hreceive hdone.mode
  -- what app.py had answered before is what the comparison was made with
  have hdetects := Vision.run_detects hcv hvs before _ after hsplit
  refine ⟨before, after, request, response, request.cameraId, hsplit, rfl,
    hc.cameraId hform hdone.receive, ?_, ?_, ?_⟩
  · intro hmotion
    have hrequest := (mode_motion _ hdone.mode).mp (hmode.trans hmotion)
    obtain ⟨pixels, hdecode, hdetections⟩ := (if_pos hrequest).mp hdetects
    exact ⟨pixels, hjpeg ▸ hdecode, hdetections⟩
  · intro hother
    have hrequest : request.mode ≠ "motion" := fun heq =>
      hother (hmode.symm.trans (congrArg js heq))
    exact (if_neg hrequest).mp hdetects
  · intro old hold
    obtain ⟨request', reply', hmem, hcamera, hdecode⟩ := latestMotion_answered hold
    obtain ⟨⟨tag', form'⟩, hform', hreceive'⟩ := hw.asked request' reply'
      (hsplit ▸ List.mem_append_left _ hmem)
    obtain ⟨hframe', -⟩ := FormFields.receive_eq hreceive'
    refine ⟨tag', form', hform', ?_, hframe' ▸ hdecode⟩
    rw [hc.cameraId hform' hreceive', hc.cameraId hform hdone.receive, hcamera]

/-! ### A second picture -/

def secondFrame : Frame := ⟨8, Vision.grayPixelJpeg⟩

def secondTag : FrameTag := ⟨1, 0, some (js "cam")⟩

/-- The client gets the ACK of its first frame, and sends another. -/
def twoPictures : List Event :=
  onePicture ++ [.client (.read (ackPacket 0 (FrameSystem.stringifyAck
      (.array [ackObject .accepted])))), .client .turn, .client (.frameCaptured secondFrame),
    .client .framePushed, .client .popped, .client .written, .client .written,
    .serve 1 [] 0 0, .serve 1 [] 2000 2000].map .frames ++
  [.arrive 0, .read 0 (1 / 200), .respond 0 2100]

theorem twoPictures_motion : ∃ cfg recipients image before after request response camera,
    (machine FrameSystem.sampleJson CameraSystem.keyEnv asciiFields Vision.pixelCv).exec
      (.start (initial _ FrameSystem.keyConfig)) twoPictures = some cfg ∧
      .frames (.gateway (.viewerFrame secondTag recipients image)) ∈ cfg.history ∧
      visionOf cfg.history = before ++ .answered request (.ok response) :: after ∧
      image.detections = response.detections.map detectionOf ∧
      Compared CameraSystem.keyEnv Vision.pixelCv (askedOf cfg.history) before secondFrame
        secondTag camera response.detections := by
  have hany : ((machine FrameSystem.sampleJson CameraSystem.keyEnv asciiFields
      Vision.pixelCv).exec (.start (initial _ FrameSystem.keyConfig)) twoPictures).any
      (fun cfg => cfg.history.any (Output.shows secondTag) &&
        cfg.history.any (Output.delivers secondFrame secondTag)) = true := by
    decide +kernel
  obtain ⟨cfg, hrun, hboth⟩ := (Option.any_eq_true _ _).mp hany
  obtain ⟨hshows, hdelivers⟩ := Bool.and_eq_true_iff.mp hboth
  obtain ⟨o, ho, hshown⟩ := List.any_eq_true.mp hshows
  obtain ⟨o', ho', hdelivered⟩ := List.any_eq_true.mp hdelivers
  obtain ⟨recipients, image, rfl⟩ := Output.of_shows hshown
  obtain ⟨k, n, rfl⟩ := Output.of_delivers hdelivered
  obtain ⟨before, after, request, response, camera, hrest⟩ :=
    motion_of_same_camera Vision.pixelCv_lawful hrun ho ho'
  exact ⟨cfg, recipients, image, before, after, request, response, camera, hrun, ho, hrest⟩

end CameraStream.Link.PictureSystem
