/-
  CameraStream.Link.PictureDelivery

  The whole way of a picture: from the camera client to `CameraGateway`, on to app.py and
  back, and out to the viewers.

  The frames travel as in CameraStream.Link.FrameDelivery, and app.py is the service of
  CameraStream.Vision.App.  Between the two are HTTP requests, which arrive in any order,
  are read in any order and are answered in any order.  `fetch` may fail or give up at any
  moment (after five seconds it does), and what is answered to it then is dropped, although
  app.py has done the work.  `framesSimulation` and `visionSimulation` show that the two
  ends are the systems that those modules are about.

  `Carries` says what a request takes from its frame, `RightReply` what an answer shows of
  its request.  `viewers_see_the_frames` puts them together: what viewers are sent for a
  frame is the picture that this camera has taken, decoded, with the motion found in it
  drawn on it, and encoded again.
-/

import CameraStream.Link.AckProgress
import CameraStream.Link.VisionWire
import CameraStream.Server.VisionRequests

namespace CameraStream.Link

open Client Server Js EventMachine
open Server.CameraGateway (asks Asked FrameAsks frameTimestamp)

/-! ## Frames and the gateway -/

namespace FrameSystem

variable {J : AckJson} {env : Env} {s s' : FrameSystem} {e : Event} {out : List Output} {k : Nat}

/-- What a step does to the gateway: nothing, one event, or one frame of the client. -/
inductive GatewayMove (env : Env) (s s' : FrameSystem) (e : Event) (out : List Output) : Prop where
  | still (hgateway : s'.gateway = s.gateway) (hout : gatewayOutputs out = [])
      (hdeliveries : deliveries out = [])
  | event (event : CameraGateway.Event)
      (hstep : s.gateway.step env event = some (s'.gateway, gatewayOutputs out))
      (hdeliveries : deliveries out = [])
      (hsettle : ∀ tag reply now, event = .settle tag reply now → e = .gateway event)
  | frame (k n : Nat) (sid : SocketId) (socket : AuthenticatedSocket) (frame : Frame)
      (dateNow now : Int) (hsocket : s.gateway.sockets[sid]? = some socket)
      (hstep : s.gateway.step env (.frame sid (some (framePayload frame frame)) dateNow now) =
        some (s'.gateway, gatewayOutputs out))
      (hdeliveries : deliveries out = [(k, n, frame, s.gateway.nextTag sid socket)])

theorem gateway_acknowledge (J : AckJson) (s : FrameSystem) (out : List CameraGateway.Output) :
    (s.acknowledge J out).1.gateway = s.gateway ∧ deliveries (s.acknowledge J out).2 = [] := by
  rw [acknowledge]
  split
  · exact ⟨rfl, rfl⟩
  · split
    · exact ⟨rfl, rfl⟩
    · split <;> exact ⟨rfl, rfl⟩

theorem gateway_withGateway (J : AckJson) (s : FrameSystem)
    (r : CameraGateway × List CameraGateway.Output) :
    (s.withGateway J r).1.gateway = r.1 ∧ gatewayOutputs (s.withGateway J r).2 = r.2 ∧
      deliveries (s.withGateway J r).2 = [] := by
  obtain ⟨hgateway, hdeliveries⟩ := gateway_acknowledge J { s with gateway := r.1 } r.2
  refine ⟨hgateway, gatewayOutputs_withGateway J s r, ?_⟩
  rw [withGateway, deliveries_append, deliveries_map_gateway, hdeliveries, List.append_nil]

/-- A step of the gateway that is not a settlement. -/
theorem move_withGateway (e : Event) {s₁ : FrameSystem} {event : CameraGateway.Event}
    {r : CameraGateway × List CameraGateway.Output}
    (hstep : s.gateway.step env event = some r)
    (hsettle : ∀ tag reply now, event = .settle tag reply now → e = .gateway event) :
    GatewayMove env s (s₁.withGateway J r).1 e (s₁.withGateway J r).2 := by
  obtain ⟨hgateway, hout, hdeliveries⟩ := gateway_withGateway J s₁ r
  refine .event event ?_ hdeliveries hsettle
  rw [hgateway, hout]
  exact hstep

theorem move_close (e : Event) {s₁ : FrameSystem} (h : s₁.gateway = s.gateway) :
    GatewayMove env s (s₁.close J env k).1 e (s₁.close J env k).2 := by
  simp only [close]
  split
  · next r hstep =>
      obtain ⟨sid, -, hsid⟩ := Option.bind_eq_some_iff.mp hstep
      rw [setStream_gateway, h] at hsid
      refine move_withGateway e hsid ?_
      intro tag reply now hsettle
      cases hsettle
  · exact .still h rfl rfl

/-- An attachment is of the frame of its descriptor. -/
theorem attachment_frame (h : InOrder s) (hk : k ≤ s.camera.opened)
    (hopen : (s.streams k).closed = false) {frame frame' : Frame} {ackId : UInt64}
    {rest : List Packet} (hfirst : (s.streams k).toServer = .attachment frame :: rest)
    (hhalf : (s.streams k).descriptor = some (frame', ackId)) : frame = frame' := by
  obtain ⟨half, hpairing, -⟩ := h.paired k hk hopen
  rw [hfirst, Stream.half, hhalf] at hpairing
  obtain ⟨mid, hmid, -⟩ := pairing_cons hpairing
  exact (Option.ite_none_right_eq_some.mp hmid).1

theorem move_onAttachment (e : Event) (h : InOrder s) (hk : k ≤ s.camera.opened)
    (hopen : (s.streams k).closed = false) {frame : Frame} {rest : List Packet}
    (hfirst : (s.streams k).toServer = .attachment frame :: rest) (dateNow now : Int) :
    GatewayMove env s
      ((s.setStream k { s.streams k with toServer := rest }).onAttachment J env k frame
        dateNow now).1 e
      ((s.setStream k { s.streams k with toServer := rest }).onAttachment J env k frame
        dateNow now).2 := by
  simp only [onAttachment]
  split
  · next frame' ackId sid hhalf hsid =>
      rw [setStream_streams] at hhalf
      obtain rfl := attachment_frame h hk hopen hfirst hhalf
      split
      · next socket r hsocket hstep =>
          obtain ⟨hgateway, hout, hdeliveries⟩ := gateway_withGateway J
            (((s.setStream k { s.streams k with toServer := rest }).setStream k
              { (s.setStream k { s.streams k with toServer := rest }).streams k with
                descriptor := none }).record
              ⟨s.gateway.nextTag sid socket, k, (s.camera.connections k).received - 1, frame,
                ackId⟩) r
          refine .frame k ((s.camera.connections k).received - 1) sid socket frame dateNow now
            hsocket ?_ (congrArg _ hdeliveries)
          refine Eq.trans hstep (congrArg some (Prod.ext hgateway.symm ?_))
          exact hout.symm
      · exact move_close e rfl
  · exact move_close e rfl

theorem gateway_afterWire (s : FrameSystem) (ws : List WireEvent) :
    (ws.foldl afterWire s).gateway = s.gateway := by
  induction ws generalizing s with
  | nil => rfl
  | cons w ws ih =>
      rw [List.foldl_cons, ih]
      cases w <;> rfl

/-- What reaches `onFrame` has been given to `send_frame`. -/
theorem delivered_called {config : Client.Config} {es : List Event}
    {cfg : EventMachine.Config FrameSystem Output}
    (hrun : (machine J env).exec (.start (initial config)) es = some cfg) {n : Nat} {frame : Frame}
    {tag : FrameTag} (h : .delivered k n frame tag ∈ cfg.history) :
    frame ∈ AckSystem.calls (links cfg.history) := by
  have hgood := good_run hrun
  obtain ⟨ev, hev, hdelivery⟩ := hgood.mem_events.mp h
  obtain rfl : ev.stream = k := congrArg Prod.fst hdelivery
  have harrived : (n, frame) ∈ arrivedOn cfg.history ev.stream :=
    List.mem_filterMap.mpr ⟨_, mem_deliveries.mpr h, if_pos rfl⟩
  refine (arrived_calls hrun).subset (List.mem_flatMap.mpr ⟨ev.stream, ?_, ?_⟩)
  · exact List.mem_range.mpr (Nat.lt_succ_of_le (hgood.linked.opened ev hev))
  · exact List.mem_map_of_mem (f := Prod.snd) harrived

theorem gateway_move (h : InOrder s) (hstep : s.step J env e = some (s', out)) :
    GatewayMove env s s' e out := by
  cases e with
  | client event =>
      obtain ⟨r, -, heq⟩ := Option.map_eq_some_iff.mp hstep
      obtain ⟨rfl, rfl⟩ := Prod.mk.inj heq
      exact .still (gateway_afterWire s _) (gatewayOutputs_map_link _) (deliveries_map_link _)
  | serve k session dateNow now =>
      obtain ⟨⟨hk, hopen⟩, hmatch⟩ := Option.ite_none_right_eq_some.mp hstep
      split at hmatch
      · cases hmatch
      · next packet rest hfirst =>
          obtain ⟨rfl, rfl⟩ := Prod.ext_iff.mp (Option.some.inj hmatch)
          cases packet with
          | pong | descriptor => exact .still rfl rfl rfl
          | connect auth =>
              simp only [onPacket]
              split
              · have hjoined : s.gateway.step env (.connect (handshake auth)) = some _ := rfl
                refine move_withGateway _ hjoined ?_
                intro tag reply now hsettle
                cases hsettle
              · exact move_close _ rfl
          | attachment frame => exact move_onAttachment _ h hk hopen hfirst dateNow now
          | leave => exact move_close _ rfl
  | send k m =>
      obtain ⟨-, heq⟩ := Option.ite_none_right_eq_some.mp hstep
      cases heq
      exact .still rfl rfl rfl
  | lost k =>
      obtain ⟨-, heq⟩ := Option.ite_none_right_eq_some.mp hstep
      obtain ⟨rfl, rfl⟩ := Prod.ext_iff.mp (Option.some.inj heq)
      exact move_close _ rfl
  | gateway event =>
      obtain ⟨-, hmap⟩ := Option.ite_none_right_eq_some.mp hstep
      obtain ⟨r, hr, heq⟩ := Option.map_eq_some_iff.mp hmap
      obtain ⟨rfl, rfl⟩ := Prod.ext_iff.mp heq
      exact move_withGateway _ hr fun _ _ _ _ => rfl

end FrameSystem

/-! ## The system -/

/-- A vision request: the invocation of `onFrame` it is for, and what is sent. -/
abbrev Request := FrameTag × VisionForm

structure PictureSystem (α : Type) where
  frames : FrameSystem
  vision : Vision.Service α := {}
  /-- The requests that have not reached `process` of app.py. -/
  requests : List Request := []
  /-- The requests at `await frame.read()`, in the order of `vision.waiting`. -/
  reading : List Request := []
  /-- The answers that have not come back. -/
  answers : List (Request × VisionReply) := []

namespace PictureSystem

variable {α κ : Type}

inductive Event where
  /-- Anything between the client and the gateway, and at the gateway's other clients. -/
  | frames (event : FrameSystem.Event)
  /-- A request reaches `process` of app.py. -/
  | arrive (index : Nat)
  /-- `frame.read()` returns for a request. -/
  | read (index : Nat) (elapsed : ℚ)
  | readFailed (index : Nat)
  /-- An answer comes back to `fetch`. -/
  | respond (index : Nat) (now : Int)
  /-- `fetch` rejects: the network fails, or the time is up. -/
  | giveUp (tag : FrameTag) (now : Int)

inductive Output where
  | frames (output : FrameSystem.Output)
  /-- `fetch` is called. -/
  | asked (tag : FrameTag) (form : VisionForm)
  /-- A request ends in app.py. -/
  | vision (output : Vision.Output)

/-- A vision request settles. -/
def settles : FrameSystem.Event → Bool
  | .gateway (.settle _ _ _) => true
  | _ => false

/-- A step of the frames, with the request that it may make. -/
def afterFrames (s : PictureSystem α) (r : FrameSystem × List FrameSystem.Output) :
    PictureSystem α × List Output :=
  let asked := asks r.1.gateway (FrameSystem.gatewayOutputs r.2)
  ({ s with frames := r.1, requests := s.requests ++ asked },
    r.2.map .frames ++ asked.map fun q => .asked q.1 q.2)

/-- The HTTP answer to a request that has ended. -/
def replied : Vision.Output → VisionReply
  | .refused _ error => replyOf (.error error)
  | .unread _ => replyOf (.error Vision.internalError)
  | .answered _ reply => replyOf reply

/-- app.py has taken a step with the request `q`. -/
def afterVision (s : PictureSystem α) (q : Request) (r : Vision.Service α × List Vision.Output) :
    PictureSystem α :=
  { s with vision := r.1, answers := s.answers ++ r.2.map fun o => (q, replied o) }

def step (J : AckJson) (env : Env) (fields : FormFields) (cv : Vision.OpenCv α κ)
    (s : PictureSystem α) : Event → Option (PictureSystem α × List Output)
  | .frames e => if settles e then none else (s.frames.step J env e).map s.afterFrames
  | .arrive index => do
      let q ← s.requests[index]?
      let s := { s with requests := s.requests.eraseIdx index }
      match fields.receive q.2 with
      | none => some ({ s with answers := s.answers ++ [(q, .status validationError)] }, [])
      | some form =>
          let r ← Vision.step cv s.vision (.request form)
          -- without an output the request waits for its file
          let reading := if r.2.isEmpty then s.reading ++ [q] else s.reading
          some ({ s with reading := reading }.afterVision q r, r.2.map .vision)
  | .read index elapsed => do
      let q ← s.reading[index]?
      let r ← Vision.step cv s.vision (.read index elapsed)
      some ({ s with reading := s.reading.eraseIdx index }.afterVision q r, r.2.map .vision)
  | .readFailed index => do
      let q ← s.reading[index]?
      let r ← Vision.step cv s.vision (.readFailed index)
      some ({ s with reading := s.reading.eraseIdx index }.afterVision q r, r.2.map .vision)
  | .respond index now => do
      let a ← s.answers[index]?
      let s := { s with answers := s.answers.eraseIdx index }
      -- the answer to a request that has been given up is dropped
      some (((s.frames.step J env (.gateway (.settle a.1.1 a.2 now))).map s.afterFrames).getD
        (s, []))
  | .giveUp tag now =>
      (s.frames.step J env (.gateway (.settle tag .rejected now))).map s.afterFrames

def machine (J : AckJson) (env : Env) (fields : FormFields) (cv : Vision.OpenCv α κ) :
    EventMachine (PictureSystem α) Event Output := ⟨step J env fields cv⟩

/-- One step, by outcome. -/
inductive Step (J : AckJson) (env : Env) (fields : FormFields) (cv : Vision.OpenCv α κ)
    (s : PictureSystem α) : PictureSystem α × List Output → Prop where
  | frames (e : FrameSystem.Event) (r : FrameSystem × List FrameSystem.Output)
      (he : settles e = false) (hstep : s.frames.step J env e = some r) :
      Step J env fields cv s (s.afterFrames r)
  | invalid (index : Nat) (q : Request) (hq : s.requests[index]? = some q)
      (hreceive : fields.receive q.2 = none) :
      Step J env fields cv s
        ({ s with
            requests := s.requests.eraseIdx index
            answers := s.answers ++ [(q, .status validationError)] }, [])
  | arrives (index : Nat) (q : Request) (form : Vision.Form)
      (r : Vision.Service α × List Vision.Output) (hq : s.requests[index]? = some q)
      (hreceive : fields.receive q.2 = some form)
      (hstep : Vision.step cv s.vision (.request form) = some r) :
      Step J env fields cv s
        ({ s with
            requests := s.requests.eraseIdx index
            reading := if r.2.isEmpty then s.reading ++ [q] else s.reading }.afterVision q r,
          r.2.map .vision)
  | reads (index : Nat) (q : Request) (event : Vision.Event)
      (r : Vision.Service α × List Vision.Output) (hq : s.reading[index]? = some q)
      (hevent : (∃ elapsed, event = .read index elapsed) ∨ event = .readFailed index)
      (hstep : Vision.step cv s.vision event = some r) :
      Step J env fields cv s
        ({ s with reading := s.reading.eraseIdx index }.afterVision q r, r.2.map .vision)
  | responds (index : Nat) (a : Request × VisionReply) (now : Int)
      (r : FrameSystem × List FrameSystem.Output) (ha : s.answers[index]? = some a)
      (hstep : s.frames.step J env (.gateway (.settle a.1.1 a.2 now)) = some r) :
      Step J env fields cv s ({ s with answers := s.answers.eraseIdx index }.afterFrames r)
  | dropped (index : Nat) (a : Request × VisionReply) (now : Int)
      (ha : s.answers[index]? = some a)
      (hnone : s.frames.step J env (.gateway (.settle a.1.1 a.2 now)) = none) :
      Step J env fields cv s ({ s with answers := s.answers.eraseIdx index }, [])
  | givesUp (tag : FrameTag) (now : Int) (r : FrameSystem × List FrameSystem.Output)
      (hstep : s.frames.step J env (.gateway (.settle tag .rejected now)) = some r) :
      Step J env fields cv s (s.afterFrames r)

theorem step_cases {J : AckJson} {env : Env} {fields : FormFields} {cv : Vision.OpenCv α κ}
    {s : PictureSystem α} {e : Event} {r : PictureSystem α × List Output}
    (h : step J env fields cv s e = some r) : Step J env fields cv s r := by
  cases e with
  | frames e =>
      obtain ⟨he, hmap⟩ := Option.ite_none_left_eq_some.mp h
      obtain ⟨r', hstep, rfl⟩ := Option.map_eq_some_iff.mp hmap
      exact .frames e r' (Bool.eq_false_of_not_eq_true he) hstep
  | arrive index =>
      obtain ⟨q, hq, hrest⟩ := Option.bind_eq_some_iff.mp h
      dsimp only at hrest
      split at hrest
      · next hreceive =>
          cases hrest
          exact .invalid index q hq hreceive
      · next form hreceive =>
          obtain ⟨r', hstep, heq⟩ := Option.bind_eq_some_iff.mp hrest
          cases heq
          exact .arrives index q form r' hq hreceive hstep
  | read index elapsed =>
      obtain ⟨q, hq, hrest⟩ := Option.bind_eq_some_iff.mp h
      obtain ⟨r', hstep, heq⟩ := Option.bind_eq_some_iff.mp hrest
      cases heq
      exact .reads index q _ r' hq (.inl ⟨elapsed, rfl⟩) hstep
  | readFailed index =>
      obtain ⟨q, hq, hrest⟩ := Option.bind_eq_some_iff.mp h
      obtain ⟨r', hstep, heq⟩ := Option.bind_eq_some_iff.mp hrest
      cases heq
      exact .reads index q _ r' hq (.inr rfl) hstep
  | respond index now =>
      obtain ⟨a, ha, hrest⟩ := Option.bind_eq_some_iff.mp h
      cases hrest
      cases hstep : s.frames.step J env (.gateway (.settle a.1.1 a.2 now)) with
      | none => exact .dropped index a now ha hstep
      | some r' => exact .responds index a now r' ha hstep
  | giveUp tag now =>
      obtain ⟨r', hstep, rfl⟩ := Option.map_eq_some_iff.mp h
      exact .givesUp tag now r' hstep

def initial (α : Type) (config : Client.Config) : PictureSystem α where
  frames := .initial config

/-! ## Reading a history -/

/-- What happens between the client and the gateway. -/
def framesOf (h : List Output) : List FrameSystem.Output :=
  h.filterMap fun
    | .frames o => some o
    | _ => none

/-- The requests that have been made. -/
def askedOf (h : List Output) : List Request :=
  h.filterMap fun
    | .asked tag form => some (tag, form)
    | _ => none

@[simp] theorem framesOf_append (h h' : List Output) :
    framesOf (h ++ h') = framesOf h ++ framesOf h' :=
  List.filterMap_append

theorem framesOf_afterFrames (s : PictureSystem α)
    (r : FrameSystem × List FrameSystem.Output) (h : List Output) :
    framesOf (h ++ (s.afterFrames r).2) = framesOf h ++ r.2 := by
  simp [afterFrames, framesOf, List.filterMap_append, List.filterMap_map]

theorem askedOf_afterFrames (s : PictureSystem α)
    (r : FrameSystem × List FrameSystem.Output) (h : List Output) :
    askedOf (h ++ (s.afterFrames r).2) =
      askedOf h ++ asks r.1.gateway (FrameSystem.gatewayOutputs r.2) := by
  simp [afterFrames, askedOf, List.filterMap_append, List.filterMap_map]

theorem mem_framesOf {o : FrameSystem.Output} {h : List Output} :
    o ∈ framesOf h ↔ .frames o ∈ h := by
  rw [framesOf, List.mem_filterMap]
  refine ⟨?_, fun hmem => ⟨_, hmem, rfl⟩⟩
  rintro ⟨o', hmem, ho⟩
  cases o' <;> cases ho
  exact hmem

/-! ## What requests and answers carry -/

/-- The request is made from this frame. -/
def Carries (env : Env) (frame : Frame) (form : VisionForm) : Prop :=
  ∃ dateNow, form = visionForm env form.cameraId frame.jpeg
    (frameTimestamp (.round frame.timestampMs) dateNow)

/-- app.py has answered this request, with its picture. -/
def Answers (fields : FormFields) (cv : Vision.OpenCv α κ) (form : VisionForm)
    (response : Vision.Response) : Prop :=
  ∃ request, fields.receive form = some request ∧
    request.mode ∈ ["motion", "edges", "none"] ∧ Vision.Shows cv request response ∧
      Vision.Tidy response.detections

/-- A fulfilled reply is such an answer. -/
def RightReply (fields : FormFields) (cv : Vision.OpenCv α κ) (form : VisionForm)
    (reply : VisionReply) : Prop :=
  reply.succeeded = true → ∃ response, Answers fields cv form response ∧
    reply = replyOf (.ok response)

/-- A frame that is broadcast is the answer to a request of its invocation. -/
def ShownFor (fields : FormFields) (cv : Vision.OpenCv α κ) (asked : List Request)
    (tag : FrameTag) (image : ProcessedFrame) : Prop :=
  ∃ form response, (tag, form) ∈ asked ∧ Answers fields cv form response ∧
    image = processedOf response

/-! ## Invariant -/

variable {J : AckJson} {env : Env} {fields : FormFields} {cv : Vision.OpenCv α κ}
  {s s' : PictureSystem α} {h : List Output}

/-- The frames of a configuration. -/
def framesConfig (c : EventMachine.Config (PictureSystem α) Output) :
    EventMachine.Config FrameSystem FrameSystem.Output := ⟨c.state.frames, framesOf c.history⟩

theorem framesConfig_afterFrames (s : PictureSystem α)
    (r : FrameSystem × List FrameSystem.Output) (h : List Output) :
    framesConfig ⟨(s.afterFrames r).1, h ++ (s.afterFrames r).2⟩ = ⟨r.1, framesOf h ++ r.2⟩ := by
  rw [framesConfig, framesOf_afterFrames]
  rfl

/-- The requests that have not been answered to `fetch`. -/
structure Pending (fields : FormFields) (cv : Vision.OpenCv α κ) (s : PictureSystem α)
    (asked : List Request) : Prop where
  requests : ∀ q ∈ s.requests, q ∈ asked
  reading : ∀ q ∈ s.reading, q ∈ asked
  answers : ∀ a ∈ s.answers, a.1 ∈ asked ∧ RightReply fields cv a.1.2 a.2
  /-- app.py waits for the files of exactly these requests. -/
  waiting : s.reading.map (fun q => fields.receive q.2) = s.vision.waiting.map some
  checked : Vision.Checked s.vision

/-- What is asked and what is shown, over a whole history. -/
structure Logged (env : Env) (fields : FormFields) (cv : Vision.OpenCv α κ)
    (h : List Output) : Prop where
  /-- A request is made under a valid camera id, that of its invocation. -/
  valid : ∀ q ∈ askedOf h, q.1.cameraId = some q.2.cameraId ∧
    CameraGateway.isCameraId q.2.cameraId = true ∧
      ∃ buffer n, q.2 = visionForm env q.2.cameraId buffer n
  carries : ∀ k n frame tag, .delivered k n frame tag ∈ framesOf h →
    ∀ form, (tag, form) ∈ askedOf h → Carries env frame form
  shown : ∀ tag recipients image, .gateway (.viewerFrame tag recipients image) ∈ framesOf h →
    ShownFor fields cv (askedOf h) tag image

structure Tracked (J : AckJson) (env : Env) (fields : FormFields) (cv : Vision.OpenCv α κ)
    (c : EventMachine.Config (PictureSystem α) Output) : Prop where
  flowing : FrameSystem.Flowing J env (framesConfig c)
  asked : Asked c.state.frames.gateway (askedOf c.history)
  pending : Pending fields cv c.state (askedOf c.history)
  logged : Logged env fields cv c.history

theorem tracked_start (J : AckJson) (env : Env) (fields : FormFields) (cv : Vision.OpenCv α κ)
    (config : Client.Config) : Tracked J env fields cv (.start (initial α config)) where
  flowing := ⟨FrameSystem.good_start J env config, FrameSystem.inOrder_start config, nofun⟩
  asked := CameraGateway.asked_nil
  pending := ⟨nofun, nofun, nofun, rfl, nofun⟩
  logged := ⟨nofun, nofun, nofun⟩

/-! ### Requests on their way -/

theorem Pending.mono {asked asked' : List Request} (hp : Pending fields cv s asked)
    (hsub : ∀ q ∈ asked, q ∈ asked') : Pending fields cv s asked' where
  requests q hq := hsub q (hp.requests q hq)
  reading q hq := hsub q (hp.reading q hq)
  answers a ha := ⟨hsub _ (hp.answers a ha).1, (hp.answers a ha).2⟩
  waiting := hp.waiting
  checked := hp.checked

theorem Pending.afterFrames {asked : List Request} (hp : Pending fields cv s asked)
    (r : FrameSystem × List FrameSystem.Output) :
    Pending fields cv (s.afterFrames r).1
      (asked ++ asks r.1.gateway (FrameSystem.gatewayOutputs r.2)) := by
  have hmono := hp.mono fun q hq => List.mem_append_left
    (asks r.1.gateway (FrameSystem.gatewayOutputs r.2)) hq
  refine ⟨fun q hq => ?_, hmono.reading, hmono.answers, hmono.waiting, hmono.checked⟩
  rcases List.mem_append.mp hq with hold | hnew
  · exact hmono.requests q hold
  · exact List.mem_append_right _ hnew

/-- A reply that carries a picture has the one of its request. -/
theorem rightReply_answered {q : Request} {form : Vision.Form}
    {reply : Except Vision.HttpException Vision.Response}
    (hreceive : fields.receive q.2 = some form)
    (hshows : Vision.ShowsItsPicture cv (.answered form reply)) :
    RightReply fields cv q.2 (replied (.answered form reply)) := by
  intro hsucceeded
  cases reply with
  | error e => cases hsucceeded
  | ok response =>
      obtain ⟨hmode, hpicture, htidy⟩ := hshows
      exact ⟨response, ⟨form, hreceive, hmode, hpicture, htidy⟩, rfl⟩

/-- A step of app.py with the request `q`; `s` has its new lists of requests already. -/
theorem Pending.afterVision {asked : List Request} {q : Request} {vision : Vision.Service α}
    {out : List Vision.Output} (hq : q ∈ asked)
    (hrequests : ∀ q ∈ s.requests, q ∈ asked) (hreading : ∀ q ∈ s.reading, q ∈ asked)
    (hanswers : ∀ a ∈ s.answers, a.1 ∈ asked ∧ RightReply fields cv a.1.2 a.2)
    (hwaiting : s.reading.map (fun q => fields.receive q.2) = vision.waiting.map some)
    (hchecked : Vision.Checked vision)
    (hright : ∀ o ∈ out, RightReply fields cv q.2 (replied o)) :
    Pending fields cv (s.afterVision q (vision, out)) asked := by
  refine ⟨hrequests, hreading, fun a ha => ?_, hwaiting, hchecked⟩
  rcases List.mem_append.mp ha with hold | hnew
  · exact hanswers a hold
  · obtain ⟨o, ho, rfl⟩ := List.mem_map.mp hnew
    exact ⟨hq, hright o ho⟩

/-- What app.py reads next belongs to the request at the same place. -/
theorem Pending.receive {asked : List Request} (hp : Pending fields cv s asked) {index : Nat}
    {q : Request} {form : Vision.Form} (hq : s.reading[index]? = some q)
    (hform : s.vision.waiting[index]? = some form) : fields.receive q.2 = some form := by
  have hplace := congrArg (fun l => l[index]?) hp.waiting
  simp only [List.getElem?_map, hq, hform] at hplace
  exact Option.some.inj hplace

theorem Pending.erase_waiting {asked : List Request} (hp : Pending fields cv s asked)
    (index : Nat) : (s.reading.eraseIdx index).map (fun q => fields.receive q.2) =
      (s.vision.waiting.eraseIdx index).map some := by
  rw [← List.eraseIdx_map, ← List.eraseIdx_map, hp.waiting]

/-- A request does not pass validation. -/
theorem Pending.invalid {asked : List Request} (hp : Pending fields cv s asked) {index : Nat}
    {q : Request} (hq : s.requests[index]? = some q) :
    Pending fields cv
      { s with
        requests := s.requests.eraseIdx index
        answers := s.answers ++ [(q, .status validationError)] } asked := by
  refine ⟨fun q hq => hp.requests q (List.mem_of_mem_eraseIdx hq), hp.reading, fun a ha => ?_,
    hp.waiting, hp.checked⟩
  rcases List.mem_append.mp ha with hold | hnew
  · exact hp.answers a hold
  · rw [List.mem_singleton.mp hnew]
    exact ⟨hp.requests q (List.mem_of_getElem? hq), nofun⟩

/-- A request reaches app.py. -/
theorem Pending.arrive {asked : List Request} (hp : Pending fields cv s asked) {index : Nat}
    {q : Request} (hq : s.requests[index]? = some q) {form : Vision.Form}
    (hreceive : fields.receive q.2 = some form) {vision : Vision.Service α}
    {out : List Vision.Output}
    (hstep : Vision.step cv s.vision (.request form) = some (vision, out)) :
    Pending fields cv
      ({ s with
          requests := s.requests.eraseIdx index
          reading := if out.isEmpty then s.reading ++ [q] else s.reading }.afterVision q
        (vision, out)) asked := by
  have hmem := hp.requests q (List.mem_of_getElem? hq)
  have hrequests : ∀ q ∈ s.requests.eraseIdx index, q ∈ asked :=
    fun q hq => hp.requests q (List.mem_of_mem_eraseIdx hq)
  have hchecked := (Vision.checked_step hp.checked hstep).1
  cases Vision.step_cases hstep with
  | waits form hmode =>
      refine Pending.afterVision hmem hrequests (fun q' hq' => ?_) hp.answers ?_ hchecked nofun
      · rcases List.mem_append.mp hq' with hold | hnew
        · exact hp.reading q' hold
        · rw [List.mem_singleton.mp hnew]
          exact hmem
      · show (s.reading ++ [q]).map _ = (s.vision.waiting ++ [form]).map some
        rw [List.map_append, List.map_append, hp.waiting, List.map_singleton,
          List.map_singleton, hreceive]
  | refused form hmode =>
      refine Pending.afterVision hmem hrequests hp.reading hp.answers hp.waiting hchecked ?_
      intro o ho
      rw [List.mem_singleton.mp ho]
      exact nofun

/-- app.py reads the file of a request, and answers it. -/
theorem Pending.read {asked : List Request} (hp : Pending fields cv s asked) {index : Nat}
    {q : Request} (hq : s.reading[index]? = some q) {event : Vision.Event}
    (hevent : (∃ elapsed, event = .read index elapsed) ∨ event = .readFailed index)
    {vision : Vision.Service α} {out : List Vision.Output}
    (hstep : Vision.step cv s.vision event = some (vision, out)) :
    Pending fields cv
      ({ s with reading := s.reading.eraseIdx index }.afterVision q (vision, out)) asked := by
  have hmem := hp.reading q (List.mem_of_getElem? hq)
  have hreading : ∀ q ∈ s.reading.eraseIdx index, q ∈ asked :=
    fun q hq => hp.reading q (List.mem_of_mem_eraseIdx hq)
  obtain ⟨hchecked, hshows⟩ := Vision.checked_step hp.checked hstep
  have hwaiting : vision.waiting = s.vision.waiting.eraseIdx index := by
    rcases hevent with ⟨elapsed, rfl⟩ | rfl
    · cases Vision.step_cases hstep with
      | answered _ _ form _ reply hform hafter => exact Vision.afterRead_waiting hafter
    · cases Vision.step_cases hstep with
      | unread _ form hform => rfl
  refine Pending.afterVision hmem hp.requests hreading hp.answers ?_ hchecked ?_
  · rw [hwaiting]
    exact hp.erase_waiting index
  · intro o ho
    rcases hevent with ⟨elapsed, rfl⟩ | rfl
    · cases Vision.step_cases hstep with
      | answered _ _ form _ reply hform hafter =>
          obtain rfl := List.mem_singleton.mp ho
          exact rightReply_answered (hp.receive hq hform) (hshows _ ho)
    · cases Vision.step_cases hstep with
      | unread _ form hform =>
          rw [List.mem_singleton.mp ho]
          exact nofun

/-! ### Frames and their requests -/

section Moves

variable {t t' : FrameSystem} {e : FrameSystem.Event} {out : List FrameSystem.Output}

theorem asked_move (hok : CameraGateway.Ok env t.gateway) {log : List Request}
    (hasked : Asked t.gateway log) (hmove : FrameSystem.GatewayMove env t t' e out) :
    Asked t'.gateway (log ++ asks t'.gateway (FrameSystem.gatewayOutputs out)) := by
  cases hmove with
  | still hgateway hout hdeliveries =>
      rw [hout, hgateway, show asks t.gateway [] = [] from rfl, List.append_nil]
      exact hasked
  | event event hstep => exact CameraGateway.asked_step hok hasked hstep
  | frame k n sid socket frame dateNow now hsocket hstep =>
      exact CameraGateway.asked_step hok hasked hstep

/-- The request for a frame that has just been delivered is made from this frame. -/
theorem carries_of_asks {sid : SocketId} {frame : Frame} {dateNow now : Int} {tag : FrameTag}
    {form : VisionForm}
    (h : FrameAsks env t.gateway (.frame sid (some (framePayload frame frame)) dateNow now) tag
      form) : Carries env frame form := by
  obtain ⟨client, socket', payload, buffer, timestamp, dateNow', now', hevent, -, -, hvalid,
    htime, hform⟩ := h.made
  cases hevent
  refine ⟨dateNow, ?_⟩
  have hbuffer : frame.jpeg = buffer := by
    have hjpeg : CameraGateway.toBuffer (framePayload frame frame).frame = some frame.jpeg := rfl
    simp only [CameraGateway.validFrame, Option.bind_some, hjpeg] at hvalid
    split at hvalid
    · cases hvalid
    · exact Option.some.inj hvalid
  obtain rfl : .round frame.timestampMs = timestamp := Option.some.inj htime
  rw [hbuffer]
  exact hform

/-- What a step asks, and delivers. -/
theorem move_asks (hok : CameraGateway.Ok env t.gateway)
    (hmove : FrameSystem.GatewayMove env t t' e out) :
    (∀ d ∈ FrameSystem.deliveries out, d.2.2.2.number = t.gateway.frames) ∧
      ∀ q ∈ asks t'.gateway (FrameSystem.gatewayOutputs out),
        (∃ event, FrameAsks env t.gateway event q.1 q.2) ∧
          ∀ k n frame, (k, n, frame, q.1) ∈ FrameSystem.deliveries out →
            Carries env frame q.2 := by
  cases hmove with
  | still hgateway hout hdeliveries =>
      rw [hdeliveries, hout]
      exact ⟨nofun, nofun⟩
  | event event hstep hdeliveries =>
      rw [hdeliveries]
      refine ⟨nofun, fun q hq => ⟨⟨event, ?_⟩, nofun⟩⟩
      rcases CameraGateway.asks_step hok hstep with ⟨hnone, -⟩ | ⟨tag, form, hform, hone, -⟩
      · rw [hnone] at hq
        cases hq
      · rw [hone] at hq
        obtain rfl := List.mem_singleton.mp hq
        exact hform
  | frame k n sid socket frame dateNow now hsocket hstep hdeliveries =>
      rw [hdeliveries]
      refine ⟨fun d hd => ?_, fun q hq => ?_⟩
      · rw [List.mem_singleton.mp hd]
        rfl
      · rcases CameraGateway.asks_step hok hstep with ⟨hnone, -⟩ | ⟨tag, form, hform, hone, -⟩
        · rw [hnone] at hq
          cases hq
        · rw [hone] at hq
          obtain rfl := List.mem_singleton.mp hq
          refine ⟨⟨_, hform⟩, fun k' n' frame' hmem => ?_⟩
          cases List.mem_singleton.mp hmem
          exact carries_of_asks hform

end Moves

/-- Every frame that has been delivered has an old number. -/
theorem delivered_number {c : EventMachine.Config FrameSystem FrameSystem.Output}
    (hc : FrameSystem.Good J env c) {k n : Nat} {frame : Frame} {tag : FrameTag}
    (h : .delivered k n frame tag ∈ c.history) : tag.number < c.state.gateway.frames := by
  obtain ⟨ev, hev, hdelivery⟩ := hc.mem_events.mp h
  obtain rfl : ev.tag = tag := congrArg (fun d => d.2.2.2) hdelivery
  obtain ⟨es, hes⟩ := hc.linked.run
  exact (CameraGateway.answered_run hes).numbered _ (hc.linked.arrived ev hev)

theorem Logged.afterFrames {c : EventMachine.Config (PictureSystem α) Output}
    (hc : Tracked J env fields cv c) {e : FrameSystem.Event}
    {r : FrameSystem × List FrameSystem.Output}
    (hmove : FrameSystem.GatewayMove env c.state.frames r.1 e r.2)
    (hok : CameraGateway.Ok env c.state.frames.gateway)
    (hshown : ∀ tag recipients image, .gateway (.viewerFrame tag recipients image) ∈ r.2 →
      ShownFor fields cv (askedOf c.history) tag image) :
    Logged env fields cv (c.history ++ (c.state.afterFrames r).2) := by
  obtain ⟨hnumber, hasks⟩ := move_asks hok hmove
  have hframes := framesOf_afterFrames c.state r c.history
  have hasked := askedOf_afterFrames c.state r c.history
  refine ⟨?_, ?_, ?_⟩
  · rw [hasked]
    intro q hq
    rcases List.mem_append.mp hq with hold | hnew
    · exact hc.logged.valid q hold
    · obtain ⟨⟨event, hform⟩, -⟩ := hasks q hnew
      obtain ⟨client, socket, payload, buffer, timestamp, dateNow, now, -, -, -, -, -, heq⟩ :=
        hform.made
      exact ⟨hform.cameraId, hform.valid, buffer, _, heq⟩
  · rw [hframes, hasked]
    intro k n frame tag hdelivered form hform
    rcases List.mem_append.mp hdelivered with hold | hnew <;>
      rcases List.mem_append.mp hform with hold' | hnew'
    · exact hc.logged.carries k n frame tag hold form hold'
    · -- a new request is for a new invocation, which has not been delivered before
      obtain ⟨⟨event, hasks⟩, -⟩ := hasks _ hnew'
      have hlt : tag.number < c.state.frames.gateway.frames :=
        delivered_number hc.flowing.good hold
      rw [hasks.number] at hlt
      exact absurd hlt (Nat.lt_irrefl _)
    · have hlt := hc.asked.numbered _ hold'
      rw [hnumber _ (FrameSystem.mem_deliveries.mpr hnew)] at hlt
      exact absurd hlt (Nat.lt_irrefl _)
    · exact (hasks _ hnew').2 k n frame (FrameSystem.mem_deliveries.mpr hnew)
  · rw [hframes, hasked]
    intro tag recipients image hmem
    have hgrow : ∀ {tag image}, ShownFor fields cv (askedOf c.history) tag image →
        ShownFor fields cv (askedOf c.history ++
          asks r.1.gateway (FrameSystem.gatewayOutputs r.2)) tag image := by
      rintro tag image ⟨form, response, hform, hrest⟩
      exact ⟨form, response, List.mem_append_left _ hform, hrest⟩
    rcases List.mem_append.mp hmem with hold | hnew
    · exact hgrow (hc.logged.shown tag recipients image hold)
    · exact hgrow (hshown tag recipients image hnew)

/-! ### Steps -/

variable {c c' : EventMachine.Config (PictureSystem α) Output}

theorem Tracked.gateway_ok (hc : Tracked J env fields cv c) :
    CameraGateway.Ok env c.state.frames.gateway := by
  obtain ⟨es, hes⟩ := hc.flowing.good.linked.run
  exact CameraGateway.ok_run hes

/-- A step of the frames; `s` is the system without the answer that the step has used up. -/
theorem Tracked.afterFrames (hc : Tracked J env fields cv c)
    (hpending : Pending fields cv s (askedOf c.history)) {e : FrameSystem.Event}
    {r : FrameSystem × List FrameSystem.Output}
    (hstep : c.state.frames.step J env e = some r)
    (hshown : ∀ tag recipients image, .gateway (.viewerFrame tag recipients image) ∈ r.2 →
      ShownFor fields cv (askedOf c.history) tag image) :
    Tracked J env fields cv ⟨(s.afterFrames r).1, c.history ++ (s.afterFrames r).2⟩ := by
  have hmove := FrameSystem.gateway_move hc.flowing.inOrder hstep
  have hasked := askedOf_afterFrames s r c.history
  refine ⟨?_, ?_, ?_, ?_⟩
  · rw [framesConfig_afterFrames]
    exact FrameSystem.flowing_next hc.flowing (next_of_step hstep)
  · rw [hasked]
    exact asked_move hc.gateway_ok hc.asked hmove
  · rw [hasked]
    exact hpending.afterFrames r
  · exact Logged.afterFrames hc hmove hc.gateway_ok hshown

/-- What a settlement broadcasts is what `process` makes of the reply to the request of the
    call. -/
theorem Tracked.viewerFrame_settle (hc : Tracked J env fields cv c) {tag : FrameTag}
    {reply : VisionReply} {now : Int} {r : FrameSystem × List FrameSystem.Output}
    (hstep : c.state.frames.step J env (.gateway (.settle tag reply now)) = some r)
    {tag' : FrameTag} {recipients : List SocketId} {image : ProcessedFrame}
    (hmem : .gateway (.viewerFrame tag' recipients image) ∈ r.2) :
    tag' = tag ∧ reply.succeeded = true ∧ ∃ form, (tag, form) ∈ askedOf c.history ∧
      process form reply = .ok image := by
  simp only [FrameSystem.step, FrameSystem.admissible, if_true] at hstep
  obtain ⟨g, hg, rfl⟩ := Option.map_eq_some_iff.mp hstep
  have hout := FrameSystem.mem_gatewayOutputs.mpr hmem
  rw [FrameSystem.gatewayOutputs_withGateway] at hout
  obtain ⟨reply', now', call, hevent, hcall, rfl, hprocess⟩ :=
    CameraGateway.viewerFrame_of_settle hg hout
  cases hevent
  refine ⟨rfl, ?_, call.form, hc.asked.calls call hcall, hprocess⟩
  cases reply with
  | processed => rfl
  | _ => cases hprocess

/-- What `process` makes of the answer to a request that has been made. -/
theorem Tracked.process_answer (hc : Tracked J env fields cv c) {tag : FrameTag}
    {form : VisionForm} (hform : (tag, form) ∈ askedOf c.history) {request : Vision.Form}
    (hreceive : fields.receive form = some request) {response : Vision.Response}
    (hshows : Vision.Shows cv request response) :
    process form (replyOf (.ok response)) = .ok (processedOf response) := by
  obtain ⟨-, hvalid, buffer, n, hmade⟩ := hc.logged.valid _ hform
  have htimestamp : form.timestamp = n.toJsString := congrArg VisionForm.timestamp hmade
  exact process_replyOf htimestamp hvalid hreceive hshows

theorem Tracked.shown_settle (hc : Tracked J env fields cv c) {tag : FrameTag}
    {reply : VisionReply} {now : Int} {r : FrameSystem × List FrameSystem.Output}
    (hstep : c.state.frames.step J env (.gateway (.settle tag reply now)) = some r)
    (hreply : ∀ form, (tag, form) ∈ askedOf c.history → RightReply fields cv form reply)
    {tag' : FrameTag} {recipients : List SocketId} {image : ProcessedFrame}
    (hmem : .gateway (.viewerFrame tag' recipients image) ∈ r.2) :
    ShownFor fields cv (askedOf c.history) tag' image := by
  obtain ⟨rfl, hsucceeded, form, hform, hprocess⟩ := hc.viewerFrame_settle hstep hmem
  obtain ⟨response, hanswers, rfl⟩ := hreply form hform hsucceeded
  obtain ⟨request, hreceive, hmode, hpicture, htidy⟩ := hanswers
  rw [hc.process_answer hform hreceive hpicture] at hprocess
  exact ⟨form, response, hform, ⟨request, hreceive, hmode, hpicture, htidy⟩,
    (Except.ok.inj hprocess).symm⟩

/-- Nothing else broadcasts a frame. -/
theorem no_viewerFrame {t t' : FrameSystem} {e : FrameSystem.Event}
    {out : List FrameSystem.Output} (hmove : FrameSystem.GatewayMove env t t' e out)
    (he : settles e = false) {tag : FrameTag} {recipients : List SocketId}
    {image : ProcessedFrame} : .gateway (.viewerFrame tag recipients image) ∉ out := by
  intro hmem
  have hout := FrameSystem.mem_gatewayOutputs.mpr hmem
  cases hmove with
  | still hgateway hnone =>
      rw [hnone] at hout
      cases hout
  | event event hstep hdeliveries hsettle =>
      obtain ⟨reply, now, call, hevent, -⟩ := CameraGateway.viewerFrame_of_settle hstep hout
      rw [hsettle tag reply now hevent, hevent] at he
      cases he
  | frame k n sid socket frame dateNow now hsocket hstep =>
      obtain ⟨reply, now, call, hevent, -⟩ := CameraGateway.viewerFrame_of_settle hstep hout
      cases hevent

theorem framesOf_vision (h : List Output) (out : List Vision.Output) :
    framesOf (h ++ out.map .vision) = framesOf h := by
  simp [framesOf, List.filterMap_append, List.filterMap_map]

theorem askedOf_vision (h : List Output) (out : List Vision.Output) :
    askedOf (h ++ out.map .vision) = askedOf h := by
  simp [askedOf, List.filterMap_append, List.filterMap_map]

/-- A step of app.py, or of an HTTP message: nothing moves but requests. -/
theorem Tracked.afterVision (hc : Tracked J env fields cv c)
    (hpending : Pending fields cv s (askedOf c.history)) (hs : s.frames = c.state.frames)
    (out : List Vision.Output) :
    Tracked J env fields cv ⟨s, c.history ++ out.map .vision⟩ := by
  refine ⟨?_, ?_, ?_, ?_⟩
  · rw [framesConfig, framesOf_vision, hs]
    exact hc.flowing
  · rw [askedOf_vision, hs]
    exact hc.asked
  · rw [askedOf_vision]
    exact hpending
  · refine ⟨?_, ?_, ?_⟩
    · rw [askedOf_vision]
      exact hc.logged.valid
    · rw [framesOf_vision, askedOf_vision]
      exact hc.logged.carries
    · rw [framesOf_vision, askedOf_vision]
      exact hc.logged.shown

theorem tracked_next {e : Event} (hc : Tracked J env fields cv c)
    (hnext : (machine J env fields cv).next c e = some c') : Tracked J env fields cv c' := by
  obtain ⟨out, hstep, hhist⟩ := next_eq_some hnext
  obtain ⟨t, h'⟩ := c'
  obtain rfl : h' = c.history ++ out := hhist
  have hp := hc.pending
  have herase : ∀ index, Pending fields cv
      { c.state with answers := c.state.answers.eraseIdx index } (askedOf c.history) := fun index =>
    ⟨hp.requests, hp.reading, fun a ha => hp.answers a (List.mem_of_mem_eraseIdx ha), hp.waiting,
      hp.checked⟩
  generalize hr : (t, out) = r at hstep
  cases step_cases hstep with
  | frames event r he hframes =>
      obtain ⟨rfl, rfl⟩ := Prod.mk.inj hr
      have hmove := FrameSystem.gateway_move hc.flowing.inOrder hframes
      exact hc.afterFrames hp hframes fun tag recipients image hmem =>
        absurd hmem (no_viewerFrame hmove he)
  | invalid index q hq =>
      obtain ⟨rfl, rfl⟩ := Prod.mk.inj hr
      exact hc.afterVision (hp.invalid hq) rfl []
  | arrives index q form r hq hreceive hvision =>
      obtain ⟨rfl, rfl⟩ := Prod.mk.inj hr
      exact hc.afterVision (hp.arrive hq hreceive hvision) rfl r.2
  | reads index q event r hq hevent hvision =>
      obtain ⟨rfl, rfl⟩ := Prod.mk.inj hr
      exact hc.afterVision (hp.read hq hevent hvision) rfl r.2
  | responds index a now r ha hframes =>
      obtain ⟨rfl, rfl⟩ := Prod.mk.inj hr
      obtain ⟨hasked, hright⟩ := hp.answers a (List.mem_of_getElem? ha)
      refine hc.afterFrames (herase index) hframes fun tag recipients image hmem => ?_
      refine hc.shown_settle hframes (fun form hform => ?_) hmem
      -- an invocation asks once
      have hsame := congrArg Prod.snd (hc.asked.once _ hform _ hasked rfl)
      rw [show form = a.1.2 from hsame]
      exact hright
  | dropped index a now ha =>
      obtain ⟨rfl, rfl⟩ := Prod.mk.inj hr
      exact hc.afterVision (herase index) rfl []
  | givesUp tag now r hframes =>
      obtain ⟨rfl, rfl⟩ := Prod.mk.inj hr
      exact hc.afterFrames hp hframes fun tag recipients image hmem =>
        hc.shown_settle hframes (fun _ _ => nofun) hmem

variable {config : Client.Config} {es : List Event}
  {cfg : EventMachine.Config (PictureSystem α) Output}

theorem tracked_run
    (hrun : (machine J env fields cv).exec (.start (initial α config)) es = some cfg) :
    Tracked J env fields cv cfg :=
  exec_invariant (fun _ _ _ => tracked_next) (tracked_start J env fields cv config) hrun

/-- **Refinement.** The frames take the steps that they take when the vision service may
    answer anything. -/
def framesSimulation (J : AckJson) (env : Env) (fields : FormFields) (cv : Vision.OpenCv α κ) :
    Simulation (machine J env fields cv) (FrameSystem.machine J env) where
  rel c d := d = framesConfig c
  sim := by
    rintro c e c' d rfl hnext
    obtain ⟨out, hstep, hhist⟩ := next_eq_some hnext
    obtain ⟨t, h'⟩ := c'
    obtain rfl : h' = c.history ++ out := hhist
    have hframes : ∀ {s : PictureSystem α} {e : FrameSystem.Event}
        {r : FrameSystem × List FrameSystem.Output}, c.state.frames.step J env e = some r →
        ∃ fs d', (FrameSystem.machine J env).exec (framesConfig c) fs = some d' ∧
          d' = framesConfig ⟨(s.afterFrames r).1, c.history ++ (s.afterFrames r).2⟩ := by
      intro s e r hr
      have hnext : (FrameSystem.machine J env).next (framesConfig c) e = _ := next_of_step hr
      refine ⟨[e], _, ?_, rfl⟩
      rw [exec_cons, hnext, framesConfig_afterFrames]
      rfl
    have hvision : ∀ (s : PictureSystem α) (out : List Vision.Output),
        s.frames = c.state.frames →
        ∃ fs d', (FrameSystem.machine J env).exec (framesConfig c) fs = some d' ∧
          d' = framesConfig ⟨s, c.history ++ out.map .vision⟩ := by
      intro s out hs
      refine ⟨[], _, rfl, ?_⟩
      rw [framesConfig, framesConfig, framesOf_vision, hs]
    generalize hr : (t, out) = r at hstep
    cases step_cases hstep with
    | frames event r he hr' => cases hr; exact hframes hr'
    | responds index a now r ha hr' => cases hr; exact hframes hr'
    | givesUp tag now r hr' => cases hr; exact hframes hr'
    | arrives index q form r => cases hr; exact hvision _ r.2 rfl
    | reads index q event r => cases hr; exact hvision _ r.2 rfl
    | invalid | dropped => cases hr; exact hvision _ [] rfl

/-- What app.py has done. -/
def visionOf (h : List Output) : List Vision.Output :=
  h.filterMap fun
    | .vision o => some o
    | _ => none

theorem visionOf_afterFrames (s : PictureSystem α)
    (r : FrameSystem × List FrameSystem.Output) (h : List Output) :
    visionOf (h ++ (s.afterFrames r).2) = visionOf h := by
  simp [afterFrames, visionOf, List.filterMap_append, List.filterMap_map]

theorem visionOf_vision (h : List Output) (out : List Vision.Output) :
    visionOf (h ++ out.map .vision) = visionOf h ++ out := by
  simp [visionOf, List.filterMap_append, List.filterMap_map]

/-- **Refinement.** app.py takes the steps of the service that anyone may ask. -/
def visionSimulation (J : AckJson) (env : Env) (fields : FormFields) (cv : Vision.OpenCv α κ) :
    Simulation (machine J env fields cv) (Vision.machine cv) where
  rel c d := d = ⟨c.state.vision, visionOf c.history⟩
  sim := by
    rintro c e c' d rfl hnext
    obtain ⟨out, hstep, hhist⟩ := next_eq_some hnext
    obtain ⟨t, h'⟩ := c'
    obtain rfl : h' = c.history ++ out := hhist
    have hsame : ∀ (vision : Vision.Service α) (h : List Output),
        vision = c.state.vision → visionOf h = visionOf c.history →
        ∃ vs d', (Vision.machine cv).exec ⟨c.state.vision, visionOf c.history⟩ vs = some d' ∧
          d' = ⟨vision, visionOf h⟩ := by
      rintro vision h rfl hh
      exact ⟨[], _, rfl, by rw [hh]⟩
    have hvision : ∀ {event : Vision.Event} {r : Vision.Service α × List Vision.Output},
        Vision.step cv c.state.vision event = some r →
        ∃ vs d', (Vision.machine cv).exec ⟨c.state.vision, visionOf c.history⟩ vs = some d' ∧
          d' = ⟨r.1, visionOf (c.history ++ r.2.map .vision)⟩ := by
      intro event r hr
      have hnext : (Vision.machine cv).next ⟨c.state.vision, visionOf c.history⟩ event = _ :=
        next_of_step hr
      refine ⟨[event], _, ?_, rfl⟩
      rw [exec_cons, hnext, visionOf_vision]
      rfl
    generalize hr : (t, out) = r at hstep
    cases step_cases hstep with
    | frames event r he hr' | responds index a now r ha hr' | givesUp tag now r hr' =>
        cases hr
        exact hsame _ _ rfl (visionOf_afterFrames c.state r _)
    | arrives index q form r hq hreceive hr' => cases hr; exact hvision hr'
    | reads index q event r hq hevent hr' => cases hr; exact hvision hr'
    | invalid | dropped => cases hr; exact hsame _ _ rfl (by rw [List.append_nil])

theorem vision_run
    (hrun : (machine J env fields cv).exec (.start (initial α config)) es = some cfg) :
    ∃ vs, (Vision.machine cv).exec (.start {}) vs =
      some ⟨cfg.state.vision, visionOf cfg.history⟩ := by
  have hinit : (visionSimulation J env fields cv).rel (.start (initial α config))
      (.start {}) := rfl
  obtain ⟨vs, d, hvs, hd⟩ := (visionSimulation J env fields cv).exec hinit hrun
  exact ⟨vs, hd ▸ hvs⟩

theorem frames_run
    (hrun : (machine J env fields cv).exec (.start (initial α config)) es = some cfg) :
    ∃ fs, (FrameSystem.machine J env).exec (.start (.initial config)) fs =
      some (framesConfig cfg) := by
  have hinit : (framesSimulation J env fields cv).rel (.start (initial α config))
      (.start (.initial config)) := rfl
  obtain ⟨fs, d, hfs, hd⟩ := (framesSimulation J env fields cv).exec hinit hrun
  exact ⟨fs, hd ▸ hfs⟩

/-! ## What viewers see -/

/-- `VISION_MODE`, as app.py takes it. -/
def configuredMode (env : Env) : JsString :=
  match env.visionMode with
  | none | some [] => js "motion"
  | some mode => mode

/-- The picture of a frame: under the camera id of the invocation and with the time of the
    frame, decoded, drawn on as its detections say, and encoded again. -/
structure Pictured (env : Env) (cv : Vision.OpenCv α κ) (frame : Frame) (tag : FrameTag)
    (image : ProcessedFrame) : Prop where
  cameraId : tag.cameraId = some image.cameraId
  /-- In milliseconds, as a double; a frame without a time gets that of the gateway. -/
  timestamp : frame.timestampMs ≠ 0 → image.timestamp = .round frame.timestampMs
  picture : ∃ mode quality pixels detections,
    (mode ∈ ["motion", "edges", "none"] ∧ js mode = configuredMode env) ∧
      (30 ≤ quality ∧ quality ≤ 95) ∧ cv.imdecode frame.jpeg = .image pixels ∧
      cv.imencode (Vision.rendered cv mode pixels detections) quality = .bytes image.frame ∧
      Vision.Tidy detections ∧ image.detections = detections.map detectionOf

/-- The mode in which app.py works is the one that is set. -/
theorem mode_configured {cameraId : JsString} {buffer : Buffer} {timestamp : Number}
    {request : Vision.Form}
    (hreceive : fields.receive (visionForm env cameraId buffer timestamp) = some request)
    (hmode : request.mode ∈ ["motion", "edges", "none"]) :
    js request.mode = configuredMode env := by
  obtain ⟨-, -, -, hrequest⟩ := FormFields.receive_eq hreceive
  have hgiven : ∀ mode, env.visionMode.getD (js "motion") = mode → mode ≠ [] →
      js request.mode = mode := by
    intro mode hget hne
    have htext : request.mode = fields.text mode := by
      rw [hrequest, visionForm, hget, if_neg hne]
    rw [htext] at hmode ⊢
    exact fields.text_mode mode hmode
  rw [configuredMode]
  cases hset : env.visionMode with
  | none => exact hgiven (js "motion") (by rw [hset]; rfl) (by decide)
  | some mode =>
      cases mode with
      | nil => rw [hrequest, visionForm, hset, Option.getD_some, if_pos rfl]
      | cons u rest => exact hgiven (u :: rest) (by rw [hset]; rfl) (List.cons_ne_nil u rest)

theorem Tracked.pictured (hc : Tracked J env fields cv c) {tag : FrameTag}
    {recipients : List SocketId} {image : ProcessedFrame}
    (hshown : .gateway (.viewerFrame tag recipients image) ∈ framesOf c.history) {k n : Nat}
    {frame : Frame} (hdelivered : .delivered k n frame tag ∈ framesOf c.history) :
    Pictured env cv frame tag image := by
  obtain ⟨form, response, hform, ⟨request, hreceive, hmode, hpicture, htidy⟩, rfl⟩ :=
    hc.logged.shown tag recipients image hshown
  obtain ⟨hcamera, hvalid, -⟩ := hc.logged.valid _ hform
  obtain ⟨dateNow, hmade⟩ := hc.logged.carries k n frame tag hdelivered form hform
  obtain ⟨hframe, htext, hinteger, -⟩ := FormFields.receive_eq hreceive
  obtain ⟨hcameraId, htimestamp, pixels, output, hdecode, hencode, hbase64⟩ := hpicture
  have hjpeg : form.frame = frame.jpeg := congrArg VisionForm.frame hmade
  have htime : form.timestamp = (frameTimestamp (.round frame.timestampMs) dateNow).toJsString :=
    congrArg VisionForm.timestamp hmade
  refine ⟨?_, fun hne => ?_, request.mode, Vision.clampQuality request.jpegQuality, pixels,
    response.detections, ⟨hmode, ?_⟩, ⟨?_, ?_⟩, ?_, ?_, htidy, rfl⟩
  · rw [hcamera, processedOf, hcameraId, htext, fields.text_cameraId _ hvalid]
  · -- the text of the number is read back as the number
    have hnumber : frameTimestamp (.round frame.timestampMs) dateNow =
        .round frame.timestampMs := Number.orElse_round hne _
    rw [htime, hnumber] at hinteger
    rw [processedOf, htimestamp, fields.integer_number _ _ hinteger]
    exact Number.ofString_toJsString_round _
  · rw [hmade] at hreceive
    exact mode_configured hreceive hmode
  · rw [Vision.clampQuality]
    omega
  · rw [Vision.clampQuality]
    omega
  · rw [← hjpeg, ← hframe]
    exact hdecode
  · rw [processedOf, hbase64, bufferFromBase64_b64encode]
    exact hencode

/-- **Viewers see what the camera has taken.** In every run, in whatever order the requests
    arrive, are read and are answered, whichever of them fail, and whatever the other clients
    do: a picture that is broadcast for a frame of this client is the picture of this frame,
    and the frame is one that the client has taken and sent. -/
theorem viewers_see_the_frames
    (hrun : (machine J env fields cv).exec (.start (initial α config)) es = some cfg)
    {tag : FrameTag} {recipients : List SocketId} {image : ProcessedFrame}
    (hshown : .frames (.gateway (.viewerFrame tag recipients image)) ∈ cfg.history)
    {k n : Nat} {frame : Frame} (hdelivered : .frames (.delivered k n frame tag) ∈ cfg.history) :
    Pictured env cv frame tag image ∧
      frame ∈ AckSystem.calls (FrameSystem.links (framesOf cfg.history)) := by
  obtain ⟨fs, hfs⟩ := frames_run hrun
  refine ⟨?_, FrameSystem.delivered_called hfs (mem_framesOf.mpr hdelivered)⟩
  exact (tracked_run hrun).pictured (mem_framesOf.mpr hshown) (mem_framesOf.mpr hdelivered)

/-! ### One picture -/

/-- A field of ASCII characters as it is sent, any other as an empty one. -/
def asciiText (s : JsString) : String :=
  if s.all fun u => u.toNat < 128 then String.ofList (s.map fun u => Char.ofNat u.toNat) else ""

theorem encodeUtf16_ascii : ∀ n < 128, encodeUtf16 (Char.ofNat n) = [n.toUInt16] := by
  decide +kernel

theorem js_asciiText {s : JsString} (h : ∀ u ∈ s, u.toNat < 128) : js (asciiText s) = s := by
  have hchar : ∀ u : UInt16, u.toNat < 128 → encodeUtf16 (Char.ofNat u.toNat) = [u] := by
    intro u hu
    rw [encodeUtf16_ascii u.toNat hu, Nat.toUInt16_eq, UInt16.ofNat_toNat]
  have hall : (s.all fun u => u.toNat < 128) = true := by simpa using h
  rw [asciiText, if_pos hall, js, String.toList_ofList, List.flatMap_map]
  induction s with
  | nil => rfl
  | cons u rest ih =>
      rw [List.flatMap_cons, hchar u (h u List.mem_cons_self)]
      exact congrArg _ (ih (fun v hv => h v (List.mem_cons_of_mem _ hv))
        (by simpa using fun v hv => h v (List.mem_cons_of_mem u hv)))

/-- A decimal integer without a sign. -/
def digitsInteger (s : JsString) : Option Int :=
  if s ≠ [] ∧ s.all Number.isDigit then some (Number.digitsToNat 10 s) else none

theorem asciiText_cameraId (c : JsString) (hc : CameraGateway.isCameraId c = true) :
    js (asciiText c) = c := by
  refine js_asciiText fun u hu => ?_
  simp only [CameraGateway.isCameraId, Bool.and_eq_true] at hc
  have hid := List.all_eq_true.mp hc.2 u hu
  simp only [CameraGateway.isIdChar, Bool.or_eq_true, Bool.and_eq_true, decide_eq_true_eq,
    beq_iff_eq] at hid
  omega

theorem asciiText_mode (m : JsString) (hm : asciiText m ∈ ["motion", "edges", "none"]) :
    js (asciiText m) = m := by
  by_cases hall : (m.all fun u => u.toNat < 128) = true
  · exact js_asciiText (by simpa using hall)
  · rw [asciiText, if_neg hall] at hm
    simp at hm

theorem digitsInteger_number (n : Number) (i : Int) (hi : digitsInteger n.toJsString = some i) :
    Number.round i = .ofString n.toJsString := by
  rw [digitsInteger] at hi
  obtain ⟨⟨hne, hall⟩, heq⟩ := Option.ite_none_right_eq_some.mp hi
  cases heq
  have hreads : Number.Reads (n.toJsString ++ []) _ :=
    Number.reads_whole (e := 0) (List.all_eq_true.mp hall) hne (by simp) (by simp) rfl
  rw [List.append_nil] at hreads
  rw [hreads.ofString]
  simp

def asciiFields : FormFields where
  text := asciiText
  integer := digitsInteger
  text_cameraId := asciiText_cameraId
  text_mode := asciiText_mode
  integer_number := digitsInteger_number

def pixelFrame : Frame := ⟨7, Vision.grayPixelJpeg⟩

/-- The camera connects and sends a gray pixel, which app.py processes. -/
def onePicture : List Event :=
  [FrameSystem.Event.client (.started true), .client .turn, .client (.resolved true),
    .client (.tcpConnected true), .client (.handshaken true),
    .send 1 (openPacket (ascii "\x7b\x7d")), .client (.read (openPacket (ascii "\x7b\x7d"))),
    .client .written, .serve 1 (ascii "\x7b\x7d") 0 0,
    .client (.read (approval (ascii "\x7b\x7d"))), .client (.frameCaptured pixelFrame),
    .client .framePushed, .client .popped, .client .written, .client .written,
    .serve 1 [] 0 0, .serve 1 [] 1000 1000].map .frames ++
  [.arrive 0, .read 0 (1 / 200), .respond 0 1100]

def pixelTag : FrameTag := ⟨0, 0, some (js "cam")⟩

/-- A picture is broadcast for this invocation. -/
def Output.shows (tag : FrameTag) : Output → Bool
  | .frames (.gateway (.viewerFrame t _ _)) => t = tag
  | _ => false

/-- This frame reaches this invocation. -/
def Output.delivers (frame : Frame) (tag : FrameTag) : Output → Bool
  | .frames (.delivered _ _ f t) => f = frame ∧ t = tag
  | _ => false

theorem Output.of_shows {tag : FrameTag} {o : Output} (h : o.shows tag = true) :
    ∃ recipients image, o = .frames (.gateway (.viewerFrame tag recipients image)) := by
  rw [Output.shows.eq_def] at h
  split at h
  · next t recipients image =>
      obtain rfl := of_decide_eq_true h
      exact ⟨recipients, image, rfl⟩
  · cases h

theorem Output.of_delivers {frame : Frame} {tag : FrameTag} {o : Output}
    (h : o.delivers frame tag = true) : ∃ k n, o = .frames (.delivered k n frame tag) := by
  rw [Output.delivers.eq_def] at h
  split at h
  · next k n f t =>
      obtain ⟨rfl, rfl⟩ := of_decide_eq_true h
      exact ⟨k, n, rfl⟩
  · cases h

/-- In that run the pixel is broadcast. -/
theorem onePicture_seen : ∃ cfg recipients image,
    (machine FrameSystem.sampleJson CameraSystem.keyEnv asciiFields Vision.pixelCv).exec
      (.start (initial _ FrameSystem.keyConfig)) onePicture = some cfg ∧
      .frames (.gateway (.viewerFrame pixelTag recipients image)) ∈ cfg.history ∧
      Pictured CameraSystem.keyEnv Vision.pixelCv pixelFrame pixelTag image := by
  have hany : ((machine FrameSystem.sampleJson CameraSystem.keyEnv asciiFields
      Vision.pixelCv).exec (.start (initial _ FrameSystem.keyConfig)) onePicture).any
      (fun cfg => cfg.history.any (Output.shows pixelTag) &&
        cfg.history.any (Output.delivers pixelFrame pixelTag)) = true := by
    decide +kernel
  obtain ⟨cfg, hrun, hboth⟩ := (Option.any_eq_true _ _).mp hany
  obtain ⟨hshows, hdelivers⟩ := Bool.and_eq_true_iff.mp hboth
  obtain ⟨o, ho, hshown⟩ := List.any_eq_true.mp hshows
  obtain ⟨o', ho', hdelivered⟩ := List.any_eq_true.mp hdelivers
  obtain ⟨recipients, image, rfl⟩ := Output.of_shows hshown
  obtain ⟨k, n, rfl⟩ := Output.of_delivers hdelivered
  exact ⟨cfg, recipients, image, hrun, ho, (viewers_see_the_frames hrun ho ho').1⟩

end PictureSystem

end CameraStream.Link
