/-
  CameraStream.Link.ViewerScreen

  From the camera to the screen: the page of a viewer in front of the system of
  CameraStream.Link.PictureDelivery.

  The gateway sends the page what it sends to every socket.  Messages of one connection come
  in order; when the connection breaks, or the viewer connects again, what has not come is
  lost, and the next connection has a socket of its own.  `Screened` carries what has been
  proved about the two ends and what is between them.  Three results:

    * `screen_follows_watch`    — the page shows what CameraStream.Viewer.Screen says it is
                                  for, since cameras have names;
    * `screen_shows_the_camera` — the picture on the screen is one that the camera has taken;
    * `screen_in_order`         — the pictures of a connection come to the screen in the order
                                  in which they were taken, each once at most.
-/

import CameraStream.Link.BroadcastOrder
import CameraStream.Server.AnnouncedCameras
import CameraStream.Viewer.Screen

namespace CameraStream.Link

open Client Server Js EventMachine
open Server.CameraGateway (announced)
open Viewer (Page FrameMessage)

/-! ## Messages of the gateway -/

/-- A message for the page, a frame with the invocation of `onFrame` that it is from. -/
inductive Mail where
  | list (cameras : List CameraState)
  | status (cameraId : JsString) (connected : Bool)
  | frame (tag : FrameTag) (message : FrameMessage)

def Mail.message : Mail → Viewer.Message
  | .list cameras => .list cameras
  | .status cameraId connected => .status cameraId connected
  | .frame _ message => .frame message

def Mail.frame? : Mail → Option (FrameTag × FrameMessage)
  | .frame tag message => some (tag, message)
  | _ => none

/-- `viewer:frame`, as the browser hands it to the page. -/
def frameMessage (image : ProcessedFrame) : FrameMessage where
  cameraId := image.cameraId
  timestamp := image.timestamp
  processingMs := image.processingMs
  detections := image.detections
  frame := .arrayBuffer image.frame

/-- What an output of the gateway sends to socket `sid`. -/
def mailOf (sid : SocketId) : CameraGateway.Output → Option Mail
  | .viewerFrame tag recipients image =>
      if sid ∈ recipients then some (.frame tag (frameMessage image)) else none
  | .cameraStatus recipients c connected =>
      if sid ∈ recipients then some (.status c connected) else none
  | .cameraList client states => if client = sid then some (.list states) else none
  | _ => none

/-- The frames that are broadcast, as messages. -/
def broadcastFrames (h : List CameraGateway.Output) : List (FrameTag × FrameMessage) :=
  h.filterMap fun
    | .viewerFrame tag _ image => some (tag, frameMessage image)
    | _ => none

theorem broadcastFrames_append (h h' : List CameraGateway.Output) :
    broadcastFrames (h ++ h') = broadcastFrames h ++ broadcastFrames h' := List.filterMap_append

theorem map_fst_broadcastFrames (h : List CameraGateway.Output) :
    (broadcastFrames h).map Prod.fst = broadcasts h := by
  rw [broadcastFrames, broadcasts, List.map_filterMap]
  refine List.filterMap_congr fun o _ => ?_
  cases o <;> rfl

theorem mem_broadcastFrames {h : List CameraGateway.Output} {tag : FrameTag} {m : FrameMessage} :
    (tag, m) ∈ broadcastFrames h ↔
      ∃ recipients image, .viewerFrame tag recipients image ∈ h ∧ m = frameMessage image := by
  rw [broadcastFrames, List.mem_filterMap]
  refine ⟨?_, ?_⟩
  · rintro ⟨o, ho, hsome⟩
    cases o <;> cases hsome
    exact ⟨_, _, ho, rfl⟩
  · rintro ⟨recipients, image, ho, rfl⟩
    exact ⟨_, ho, rfl⟩

/-- A socket is sent part of the frames. -/
theorem frames_mailOf (sid : SocketId) (out : List CameraGateway.Output) :
    ((out.filterMap (mailOf sid)).filterMap Mail.frame?).Sublist (broadcastFrames out) := by
  induction out with
  | nil => exact List.Sublist.slnil
  | cons o rest ih =>
      -- without a frame for the socket
      have hskip : (mailOf sid o).bind Mail.frame? = none →
          (((o :: rest).filterMap (mailOf sid)).filterMap Mail.frame?).Sublist
            (broadcastFrames (o :: rest)) := by
        intro hnone
        rw [List.filterMap_filterMap,
          List.filterMap_cons_none (f := fun o => (mailOf sid o).bind Mail.frame?) hnone,
          ← List.filterMap_filterMap]
        refine ih.trans ?_
        rw [show o :: rest = [o] ++ rest from rfl, broadcastFrames_append]
        exact List.sublist_append_right _ _
      cases o with
      | viewerFrame tag recipients image =>
          by_cases hmem : sid ∈ recipients
          · have hmail : mailOf sid (.viewerFrame tag recipients image) =
                some (.frame tag (frameMessage image)) := if_pos hmem
            rw [List.filterMap_cons_some hmail]
            exact ih.cons_cons _
          · have hmail : mailOf sid (.viewerFrame tag recipients image) = none := if_neg hmem
            exact hskip (by rw [hmail]; rfl)
      | cameraStatus recipients c connected =>
          refine hskip ?_
          rw [mailOf]
          split <;> rfl
      | cameraList client states =>
          refine hskip ?_
          rw [mailOf]
          split <;> rfl
      | _ => exact hskip rfl

/-- A message names the cameras of the output that it is from. -/
theorem announced_mailOf {sid : SocketId} {o : CameraGateway.Output} {mail : Mail}
    (h : mailOf sid o = some mail) : mail.message.cameraIds = announced o := by
  cases o with
  | viewerFrame tag recipients image =>
      obtain ⟨-, heq⟩ := Option.ite_none_right_eq_some.mp h
      cases heq
      rfl
  | cameraStatus recipients c connected =>
      obtain ⟨-, heq⟩ := Option.ite_none_right_eq_some.mp h
      cases heq
      rfl
  | cameraList client states =>
      obtain ⟨-, heq⟩ := Option.ite_none_right_eq_some.mp h
      cases heq
      rfl
  | _ => cases h

/-! ## The system -/

structure ScreenSystem (α : Type) where
  pictures : PictureSystem α
  page : Page
  /-- The socket of the page, at the server. -/
  socket : Option SocketId := none
  /-- What the gateway has sent to this socket and has not come. -/
  inbox : List Mail := []

namespace ScreenSystem

variable {α κ : Type}

inductive Event where
  /-- Anything but the page. -/
  | pictures (event : PictureSystem.Event)
  /-- `io('/stream', …)` of the page has reached the server. -/
  | join (token : JsString)
  /-- The page gets the next message. -/
  | deliver (now now' : ℚ)
  /-- The viewer clicks or chooses, or the socket of the page opens or closes. -/
  | page (event : Viewer.Event)
  /-- The connection of the page breaks. -/
  | lost

inductive Output where
  | pictures (output : PictureSystem.Output)
  /-- The page has taken an event, for a frame with its invocation. -/
  | page (event : Viewer.Event) (tag : Option FrameTag) (out : List Viewer.Output)

def gatewayOf (h : List PictureSystem.Output) : List CameraGateway.Output :=
  FrameSystem.gatewayOutputs (PictureSystem.framesOf h)

/-- A step of the rest, and what it sends to the page at `socket`. -/
def afterPictures (s : ScreenSystem α) (socket : Option SocketId)
    (r : PictureSystem α × List PictureSystem.Output) : ScreenSystem α × List Output :=
  let mail :=
    match socket with
    | some sid => (gatewayOf r.2).filterMap (mailOf sid)
    | none => []
  ({ s with pictures := r.1, socket := socket, inbox := s.inbox ++ mail }, r.2.map .pictures)

/-- `auth` of the page. -/
def pageAuth (token : JsString) : HandshakeAuth where
  role := some (.str (js "viewer"))
  token := some (.str token)
  cameraId := none

/-- The page takes an event. -/
def takes (s : ScreenSystem α) (e : Viewer.Event) (tag : Option FrameTag) :
    Option (ScreenSystem α × List Output) :=
  (s.page.step e).map fun r => ({ s with page := r.1 }, [.page e tag r.2])

def step (J : AckJson) (env : Env) (fields : FormFields) (cv : Vision.OpenCv α κ)
    (s : ScreenSystem α) : Event → Option (ScreenSystem α × List Output)
  | .pictures e =>
      (PictureSystem.step J env fields cv s.pictures e).map (s.afterPictures s.socket)
  | .join token =>
      if s.socket = none then
        (PictureSystem.step J env fields cv s.pictures
          (.frames (.gateway (.connect (pageAuth token))))).map
            (s.afterPictures (some s.pictures.frames.gateway.sockets.length))
      else none
  | .deliver now now' =>
      match s.inbox with
      | [] => none
      | mail :: rest =>
          { s with inbox := rest }.takes (.message mail.message now now')
            (mail.frame?.map Prod.fst)
  | .page (.message _ _ _) => none
  -- the old connection is given up
  | .page .click => { s with socket := none, inbox := [] }.takes .click none
  | .page e => s.takes e none
  | .lost => some ({ s with socket := none, inbox := [] }, [])

def machine (J : AckJson) (env : Env) (fields : FormFields) (cv : Vision.OpenCv α κ) :
    EventMachine (ScreenSystem α) Event Output := ⟨step J env fields cv⟩

/-- The camera client starts, and the page has been loaded. -/
def initial (α : Type) (config : Client.Config) (start : ℚ) : ScreenSystem α where
  pictures := .initial α config
  page := .initial start

/-- One step, by outcome. -/
inductive Step (J : AckJson) (env : Env) (fields : FormFields) (cv : Vision.OpenCv α κ)
    (s : ScreenSystem α) : ScreenSystem α × List Output → Prop where
  | pictures (e : PictureSystem.Event) (socket : Option SocketId)
      (r : PictureSystem α × List PictureSystem.Output)
      (hstep : PictureSystem.step J env fields cv s.pictures e = some r) :
      Step J env fields cv s (s.afterPictures socket r)
  | delivers (mail : Mail) (rest : List Mail) (now now' : ℚ) (r : Page × List Viewer.Output)
      (hinbox : s.inbox = mail :: rest)
      (hstep : s.page.step (.message mail.message now now') = some r) :
      Step J env fields cv s
        ({ s with page := r.1, inbox := rest },
          [.page (.message mail.message now now') (mail.frame?.map Prod.fst) r.2])
  | page (e : Viewer.Event) (socket : Option SocketId) (inbox : List Mail)
      (r : Page × List Viewer.Output) (he : ∀ m now now', e ≠ .message m now now')
      (hinbox : inbox = s.inbox ∨ inbox = []) (hstep : s.page.step e = some r) :
      Step J env fields cv s
        ({ s with page := r.1, socket := socket, inbox := inbox }, [.page e none r.2])
  | lost : Step J env fields cv s ({ s with socket := none, inbox := [] }, [])

theorem step_cases {J : AckJson} {env : Env} {fields : FormFields} {cv : Vision.OpenCv α κ}
    {s : ScreenSystem α} {e : Event} {r : ScreenSystem α × List Output}
    (h : step J env fields cv s e = some r) : Step J env fields cv s r := by
  cases e with
  | pictures e =>
      obtain ⟨r', hstep, rfl⟩ := Option.map_eq_some_iff.mp h
      exact .pictures e s.socket r' hstep
  | join token =>
      obtain ⟨-, hmap⟩ := Option.ite_none_right_eq_some.mp h
      obtain ⟨r', hstep, rfl⟩ := Option.map_eq_some_iff.mp hmap
      exact .pictures _ _ r' hstep
  | deliver now now' =>
      simp only [step] at h
      split at h
      · cases h
      · next mail rest hinbox =>
          obtain ⟨r', hstep, rfl⟩ := Option.map_eq_some_iff.mp h
          exact .delivers mail rest now now' r' hinbox hstep
  | page e =>
      cases e with
      | message m now now' => cases h
      | click =>
          replace h : takes { s with socket := none, inbox := [] } .click none = some r := h
          obtain ⟨r', hstep, rfl⟩ := Option.map_eq_some_iff.mp h
          exact .page .click none [] r' nofun (.inr rfl) hstep
      | connected | disconnected | connectError | choose index =>
          obtain ⟨r', hstep, rfl⟩ := Option.map_eq_some_iff.mp h
          exact .page _ s.socket s.inbox r' nofun (.inl rfl) hstep
  | lost =>
      cases h
      exact .lost

/-! ## Reading a history -/

def picturesOf (h : List Output) : List PictureSystem.Output :=
  h.filterMap fun
    | .pictures o => some o
    | _ => none

def pageEvents (h : List Output) : List Viewer.Event :=
  h.filterMap fun
    | .page e _ _ => some e
    | _ => none

def pageOutputs (h : List Output) : List Viewer.Output :=
  h.flatMap fun
    | .page _ _ out => out
    | _ => []

/-- The pictures that one output has put on the page. -/
def Output.drawn : Output → List (FrameTag × FrameMessage)
  | .page _ (some tag) out => (Viewer.drawn out).map (Prod.mk tag)
  | _ => []

/-- The pictures that have been on the page, in order, with their invocations. -/
def drawnOf (h : List Output) : List (FrameTag × FrameMessage) := h.flatMap Output.drawn

section Reading

variable (h h' : List Output)

@[simp] theorem picturesOf_append : picturesOf (h ++ h') = picturesOf h ++ picturesOf h' :=
  List.filterMap_append

@[simp] theorem pageEvents_append : pageEvents (h ++ h') = pageEvents h ++ pageEvents h' :=
  List.filterMap_append

@[simp] theorem pageOutputs_append : pageOutputs (h ++ h') = pageOutputs h ++ pageOutputs h' :=
  List.flatMap_append

@[simp] theorem drawnOf_append : drawnOf (h ++ h') = drawnOf h ++ drawnOf h' :=
  List.flatMap_append

@[simp] theorem gatewayOf_append (o o' : List PictureSystem.Output) :
    gatewayOf (o ++ o') = gatewayOf o ++ gatewayOf o' := by
  rw [gatewayOf, PictureSystem.framesOf_append, FrameSystem.gatewayOutputs_append]
  rfl

/-- What the rest does is nothing to the page. -/
theorem reading_pictures (out : List PictureSystem.Output) :
    picturesOf (out.map .pictures) = out ∧ pageEvents (out.map .pictures) = [] ∧
      pageOutputs (out.map .pictures) = [] ∧ drawnOf (out.map .pictures) = [] := by
  simp [picturesOf, pageEvents, pageOutputs, drawnOf, Output.drawn, List.filterMap_map,
    List.flatMap_map]

end Reading

/-! ## Invariant -/

variable {J : AckJson} {env : Env} {fields : FormFields} {cv : Vision.OpenCv α κ}
  {config : Client.Config} {start : ℚ} {es : List Event}
  {c c' cfg : EventMachine.Config (ScreenSystem α) Output} {e : Event}

structure Screened (J : AckJson) (env : Env) (fields : FormFields) (cv : Vision.OpenCv α κ)
    (config : Client.Config) (start : ℚ)
    (c : EventMachine.Config (ScreenSystem α) Output) : Prop where
  pictures : ∃ es, (PictureSystem.machine J env fields cv).exec
    (.start (.initial α config)) es = some ⟨c.state.pictures, picturesOf c.history⟩
  page : Page.machine.exec (.start (.initial start)) (pageEvents c.history) =
    some ⟨c.state.page, pageOutputs c.history⟩
  named : ∀ e ∈ pageEvents c.history, e.Named
  inbox : ∀ mail ∈ c.state.inbox, [] ∉ mail.message.cameraIds
  /-- What has been drawn has been broadcast before what is still to come. -/
  order : (drawnOf c.history ++ c.state.inbox.filterMap Mail.frame?).Sublist
    (broadcastFrames (gatewayOf (picturesOf c.history)))
  /-- What has been drawn is from an invocation. -/
  drawn : Viewer.drawn (pageOutputs c.history) = (drawnOf c.history).map Prod.snd

/-- What the gateway sends has names. -/
theorem named_of_run {ps : List PictureSystem.Event}
    {d : EventMachine.Config (PictureSystem α) PictureSystem.Output}
    (hrun : (PictureSystem.machine J env fields cv).exec (.start (.initial α config)) ps = some d)
    {o : CameraGateway.Output} (ho : o ∈ gatewayOf d.history) : [] ∉ announced o := by
  obtain ⟨gs, hgs⟩ := (PictureSystem.tracked_run hrun).flowing.good.linked.run
  intro hempty
  have h := CameraGateway.announcing_run hgs
  obtain ⟨sid, hcam⟩ := h.history o ho [] hempty
  obtain ⟨socket, -, hshake⟩ := h.authorised.ok.camera_handshake hcam
  exact absurd (CameraGateway.isCameraId_of_normalize hshake.cameraId) (by decide)

theorem screened_pictures (h : Screened J env fields cv config start c) {e : PictureSystem.Event}
    {socket : Option SocketId} {r : PictureSystem α × List PictureSystem.Output}
    (hstep : PictureSystem.step J env fields cv c.state.pictures e = some r) :
    Screened J env fields cv config start
      ⟨(c.state.afterPictures socket r).1, c.history ++ r.2.map .pictures⟩ := by
  obtain ⟨hpictures, hevents, houtputs, hdrawn⟩ := reading_pictures r.2
  obtain ⟨ps, hps⟩ := h.pictures
  have hrun : (PictureSystem.machine J env fields cv).exec (.start (.initial α config))
      (ps ++ [e]) = some ⟨r.1, picturesOf c.history ++ r.2⟩ := by
    have hnext : (PictureSystem.machine J env fields cv).next
        ⟨c.state.pictures, picturesOf c.history⟩ e = _ := next_of_step hstep
    rw [exec_append, hps, Option.bind_some, exec_cons, hnext]
    rfl
  -- the mail is part of what the gateway sends
  have hmail : ∀ mail ∈ (c.state.afterPictures socket r).1.inbox, mail ∈ c.state.inbox ∨
      ∃ sid, socket = some sid ∧ mail ∈ (gatewayOf r.2).filterMap (mailOf sid) := by
    intro mail hmem
    rcases List.mem_append.mp hmem with hold | hnew
    · exact .inl hold
    · cases socket with
      | none => cases hnew
      | some sid => exact .inr ⟨sid, rfl, hnew⟩
  refine ⟨⟨ps ++ [e], ?_⟩, ?_, ?_, ?_, ?_, ?_⟩
  · rw [picturesOf_append, hpictures]
    exact hrun
  · rw [pageEvents_append, pageOutputs_append, hevents, houtputs, List.append_nil, List.append_nil]
    exact h.page
  · rw [pageEvents_append, hevents, List.append_nil]
    exact h.named
  · intro mail hmem
    rcases hmail mail hmem with hold | ⟨sid, -, hnew⟩
    · exact h.inbox mail hold
    · obtain ⟨o, ho, hsome⟩ := List.mem_filterMap.mp hnew
      rw [announced_mailOf hsome]
      refine named_of_run hrun ?_
      rw [gatewayOf_append]
      exact List.mem_append_right _ ho
  · rw [drawnOf_append, picturesOf_append, hdrawn, hpictures, List.append_nil, gatewayOf_append,
      broadcastFrames_append]
    have hinbox : (c.state.afterPictures socket r).1.inbox.filterMap Mail.frame? =
        c.state.inbox.filterMap Mail.frame? ++ (match socket with
          | some sid => (gatewayOf r.2).filterMap (mailOf sid)
          | none => []).filterMap Mail.frame? := List.filterMap_append
    rw [hinbox, ← List.append_assoc]
    refine h.order.append ?_
    cases socket with
    | none => exact List.nil_sublist _
    | some sid => exact frames_mailOf sid _
  · rw [pageOutputs_append, drawnOf_append, houtputs, hdrawn, List.append_nil, List.append_nil]
    exact h.drawn

/-- The page draws what has come, or nothing. -/
theorem drawn_step {p : Page} {e : Viewer.Event} {r : Page × List Viewer.Output}
    (h : p.step e = some r) : Viewer.drawn r.2 = [] ∨
      ∃ m now now', e = .message (.frame m) now now' ∧ Viewer.drawn r.2 = [m] := by
  cases Viewer.step_cases h with
  | quiet _ p' hkept => exact .inl rfl
  | draws p' m now now' hkept => exact .inr ⟨m, now, now', rfl, Viewer.drawn_draws _ m now now'⟩

/-- The page takes an event; `inbox` is what is left. -/
theorem screened_page (h : Screened J env fields cv config start c) {e : Viewer.Event}
    (hnamed : e.Named) {tag : Option FrameTag} {r : Page × List Viewer.Output}
    (hstep : c.state.page.step e = some r) {socket : Option SocketId} {inbox : List Mail}
    (hinbox : ∀ mail ∈ inbox, mail ∈ c.state.inbox)
    (horder : (Output.drawn (.page e tag r.2) ++ inbox.filterMap Mail.frame?).Sublist
      (c.state.inbox.filterMap Mail.frame?))
    (hdrawn : Viewer.drawn r.2 = (Output.drawn (.page e tag r.2)).map Prod.snd) :
    Screened J env fields cv config start
      ⟨{ c.state with page := r.1, socket := socket, inbox := inbox },
        c.history ++ [.page e tag r.2]⟩ := by
  have hpictures : picturesOf (c.history ++ [.page e tag r.2]) = picturesOf c.history := by
    rw [picturesOf_append]
    exact List.append_nil _
  have houtputs : pageOutputs (c.history ++ [.page e tag r.2]) = pageOutputs c.history ++ r.2 := by
    rw [pageOutputs_append]
    exact congrArg _ (List.append_nil _)
  have hone : drawnOf (c.history ++ [.page e tag r.2]) =
      drawnOf c.history ++ Output.drawn (.page e tag r.2) := by
    rw [drawnOf_append]
    exact congrArg _ (List.append_nil _)
  refine ⟨?_, ?_, ?_, fun mail hmem => h.inbox mail (hinbox mail hmem), ?_, ?_⟩
  · rw [hpictures]
    exact h.pictures
  · have hnext : Page.machine.next ⟨c.state.page, pageOutputs c.history⟩ e = _ :=
      next_of_step hstep
    rw [pageEvents_append, houtputs, exec_append, h.page, Option.bind_some]
    show Page.machine.exec _ [e] = _
    rw [exec_cons, hnext]
    rfl
  · intro e' he'
    rw [pageEvents_append] at he'
    rcases List.mem_append.mp he' with hold | hnew
    · exact h.named e' hold
    · rw [List.mem_singleton.mp hnew]
      exact hnamed
  · rw [hone, hpictures, List.append_assoc]
    exact ((List.Sublist.refl _).append horder).trans h.order
  · rw [houtputs, hone, Viewer.drawn_append, List.map_append, ← h.drawn, ← hdrawn]

theorem screened_next (h : Screened J env fields cv config start c)
    (hnext : (machine J env fields cv).next c e = some c') :
    Screened J env fields cv config start c' := by
  obtain ⟨out, hstep, hhist⟩ := next_eq_some hnext
  obtain ⟨t, h'⟩ := c'
  obtain rfl : h' = c.history ++ out := hhist
  generalize hr : (t, out) = r at hstep
  cases step_cases hstep with
  | pictures e socket r hpictures =>
      cases hr
      exact screened_pictures h hpictures
  | delivers mail rest now now' r hinbox hpage =>
      cases hr
      have hmem : mail ∈ c.state.inbox := by
        rw [hinbox]
        exact List.mem_cons_self
      have hframes : c.state.inbox.filterMap Mail.frame? =
          mail.frame?.toList ++ rest.filterMap Mail.frame? := by
        rw [hinbox, List.filterMap_cons]
        cases mail.frame? <;> rfl
      -- what is drawn, if anything, is this message
      have hthis : Viewer.drawn r.2 = [] ∨
          ∃ tag m, mail = .frame tag m ∧ Viewer.drawn r.2 = [m] := by
        rcases drawn_step hpage with hnone | ⟨m, n, n', heq, hone⟩
        · exact .inl hnone
        · cases mail with
          | frame tag message =>
              obtain ⟨rfl⟩ := Viewer.Message.frame.inj (Viewer.Event.message.inj heq).1
              exact .inr ⟨tag, _, rfl, hone⟩
          | _ => cases (Viewer.Event.message.inj heq).1
      refine screened_page (e := .message mail.message now now') h (h.inbox mail hmem) hpage
        (fun mail' hmem' => ?_) ?_ ?_
      · rw [hinbox]
        exact List.mem_cons_of_mem _ hmem'
      · rw [hframes]
        refine List.Sublist.append ?_ (List.Sublist.refl _)
        rcases hthis with hnone | ⟨tag, m, rfl, hone⟩
        · cases htag : mail.frame? with
          | none => exact List.nil_sublist _
          | some d =>
              rw [Option.map_some, Output.drawn, hnone]
              exact List.nil_sublist _
        · show List.Sublist ((Viewer.drawn r.2).map (Prod.mk tag)) [(tag, m)]
          rw [hone]
          exact List.Sublist.refl _
      · rcases hthis with hnone | ⟨tag, m, rfl, hone⟩
        · rw [hnone]
          cases mail.frame? with
          | none => rfl
          | some d =>
              rw [Option.map_some, Output.drawn, hnone]
              rfl
        · show Viewer.drawn r.2 = ((Viewer.drawn r.2).map (Prod.mk tag)).map Prod.snd
          rw [hone]
          rfl
  | page e socket inbox r he hinbox hpage =>
      cases hr
      have hnone : Viewer.drawn r.2 = [] := by
        rcases drawn_step hpage with hnone | ⟨m, now, now', heq, -⟩
        · exact hnone
        · exact absurd heq (he _ now now')
      have hnamed : e.Named := by
        cases e with
        | message m now now' => exact absurd rfl (he m now now')
        | _ => trivial
      refine screened_page h hnamed hpage (fun mail hmem => ?_) ?_ hnone
      · rcases hinbox with rfl | rfl
        · exact hmem
        · cases hmem
      · rcases hinbox with rfl | rfl
        · exact List.Sublist.refl _
        · exact List.nil_sublist _
  | lost =>
      cases hr
      rw [List.append_nil]
      refine ⟨h.pictures, h.page, h.named, nofun, ?_, h.drawn⟩
      show (drawnOf c.history ++ []).Sublist _
      rw [List.append_nil]
      exact (List.sublist_append_left _ _).trans h.order

theorem screened_start (J : AckJson) (env : Env) (fields : FormFields) (cv : Vision.OpenCv α κ)
    (config : Client.Config) (start : ℚ) :
    Screened J env fields cv config start (.start (initial α config start)) where
  pictures := ⟨[], rfl⟩
  page := rfl
  named := nofun
  inbox := nofun
  order := List.nil_sublist _
  drawn := rfl

theorem screened_run
    (hrun : (machine J env fields cv).exec (.start (initial α config start)) es = some cfg) :
    Screened J env fields cv config start cfg :=
  exec_invariant (fun _ _ _ => screened_next) (screened_start J env fields cv config start) hrun

/-- A viewer joins before the camera sends a gray pixel, and sees it. -/
def watchedPicture : List Event :=
  (PictureSystem.onePicture.take 15).map .pictures ++ [.page .connected, .join []] ++
    (PictureSystem.onePicture.drop 15).map .pictures ++ [.deliver 100 100, .deliver 200 200]

/-- The run of `watchedPicture`. -/
def watchedRun : Option (EventMachine.Config (ScreenSystem (List Nat)) Output) :=
  (machine FrameSystem.sampleJson CameraSystem.keyEnv PictureSystem.asciiFields
    Vision.pixelCv).exec (.start (initial _ FrameSystem.keyConfig 0)) watchedPicture

/-! ## The screen -/

/-- **The page shows what it should.** In every run, whatever the cameras, the gateway, app.py
    and the network do: the page shows what it is for, and needs no assumption on the names
    of the cameras, since the gateway lets no camera in without one. -/
theorem screen_follows_watch
    (hrun : (machine J env fields cv).exec (.start (initial α config start)) es = some cfg) :
    Viewer.Shows cfg.state.page ((pageEvents cfg.history).foldl Viewer.Watch.step {}) := by
  have h := screened_run hrun
  exact Viewer.page_shows_watch h.page h.named

/-- The viewer has been told of the camera, and it is selected. -/
theorem watchedPicture_follows : ∃ cfg, watchedRun = some cfg ∧
    ((pageEvents cfg.history).foldl Viewer.Watch.step {}).selected = some (js "cam") ∧
      Viewer.Shows cfg.state.page ((pageEvents cfg.history).foldl Viewer.Watch.step {}) := by
  have hany : watchedRun.any (fun cfg =>
      ((pageEvents cfg.history).foldl Viewer.Watch.step {}).selected = some (js "cam")) =
        true := by
    decide +kernel
  obtain ⟨cfg, hrun, hselected⟩ := (Option.any_eq_true _ _).mp hany
  exact ⟨cfg, hrun, of_decide_eq_true hselected, screen_follows_watch hrun⟩

/-- What has been drawn has been broadcast. -/
theorem drawn_broadcast (h : Screened J env fields cv config start cfg) :
    (drawnOf cfg.history).Sublist (broadcastFrames (gatewayOf (picturesOf cfg.history))) :=
  (List.sublist_append_left _ _).trans h.order

/-- **From the camera to the screen.** In every run, when a picture is on the screen, it is
    one that has been broadcast, and the texts beside it are about it; if it is from an
    invocation of `onFrame` for a frame of the camera client, it is the picture of this
    frame, decoded, drawn on as its detections say, and encoded again, and the client has
    taken and sent the frame. -/
theorem screen_shows_the_camera
    (hrun : (machine J env fields cv).exec (.start (initial α config start)) es = some cfg)
    {url : Nat} (hsrc : cfg.state.page.src = some url) :
    ∃ tag recipients image,
      .frames (.gateway (.viewerFrame tag recipients image)) ∈ picturesOf cfg.history ∧
        Viewer.Drawn cfg.state.page (frameMessage image) url ∧
        ∀ k n frame, .frames (.delivered k n frame tag) ∈ picturesOf cfg.history →
          PictureSystem.Pictured env cv frame tag image ∧
            frame ∈ AckSystem.calls
              (FrameSystem.links (PictureSystem.framesOf (picturesOf cfg.history))) := by
  have h := screened_run hrun
  have hscreen := (Viewer.pictures_run h.page).onScreen
  rw [h.drawn] at hscreen
  cases hlast : ((drawnOf cfg.history).map Prod.snd).getLast? with
  | none =>
      rw [hlast] at hscreen
      cases hsrc.symm.trans hscreen.1
  | some m =>
      rw [hlast] at hscreen
      obtain ⟨url', hdrawn⟩ := hscreen
      obtain rfl : url = url' := Option.some.inj (hsrc.symm.trans hdrawn.src)
      -- the last picture has been broadcast
      obtain ⟨⟨tag, m'⟩, hmem, rfl⟩ := List.mem_map.mp (List.mem_of_getLast? hlast)
      obtain ⟨recipients, image, hshown, rfl⟩ :=
        mem_broadcastFrames.mp ((drawn_broadcast h).subset hmem)
      have hshown := FrameSystem.mem_gatewayOutputs.mp hshown
      refine ⟨tag, recipients, image, PictureSystem.mem_framesOf.mp hshown, hdrawn, ?_⟩
      intro k n frame hdelivered
      obtain ⟨ps, hps⟩ := h.pictures
      obtain ⟨fs, hfs⟩ := PictureSystem.frames_run hps
      have hdelivered := PictureSystem.mem_framesOf.mpr hdelivered
      exact ⟨(PictureSystem.tracked_run hps).pictured hshown hdelivered,
        FrameSystem.delivered_called hfs hdelivered⟩

/-- The pixel is on the screen. -/
theorem watchedPicture_shown : ∃ cfg url, watchedRun = some cfg ∧
    cfg.state.page.src = some url ∧ ∃ tag recipients image,
      .frames (.gateway (.viewerFrame tag recipients image)) ∈ picturesOf cfg.history ∧
        Viewer.Drawn cfg.state.page (frameMessage image) url ∧
        ∀ k n frame, .frames (.delivered k n frame tag) ∈ picturesOf cfg.history →
          PictureSystem.Pictured CameraSystem.keyEnv Vision.pixelCv frame tag image ∧
            frame ∈ AckSystem.calls
              (FrameSystem.links (PictureSystem.framesOf (picturesOf cfg.history))) := by
  have hany : watchedRun.any (fun cfg => cfg.state.page.src.isSome) = true := by
    decide +kernel
  obtain ⟨cfg, hrun, hsome⟩ := (Option.any_eq_true _ _).mp hany
  obtain ⟨url, hsrc⟩ := Option.isSome_iff_exists.mp hsome
  exact ⟨cfg, url, hrun, hsrc, screen_shows_the_camera hrun hsrc⟩

/-- The frames of connection `k` that have been on the screen, in this order. -/
def screenOn (h : List Output) (k : Nat) : List (Nat × Frame) :=
  ((drawnOf h).map Prod.fst).filterMap
    (FrameSystem.deliveryOn (PictureSystem.framesOf (picturesOf h)) k)

/-- **The screen never goes back.** In every run, of each connection of the camera client the
    frames that come to the screen are part of those that have arrived, and they come once
    at most and in the order in which the client has sent them. -/
theorem screen_in_order
    (hrun : (machine J env fields cv).exec (.start (initial α config start)) es = some cfg)
    (k : Nat) :
    (screenOn cfg.history k).Sublist
        (FrameSystem.arrivedOn (PictureSystem.framesOf (picturesOf cfg.history)) k) ∧
      ((screenOn cfg.history k).map Prod.fst).Pairwise (· < ·) := by
  have h := screened_run hrun
  obtain ⟨ps, hps⟩ := h.pictures
  obtain ⟨fs, hfs⟩ := PictureSystem.frames_run hps
  have hbroadcast := (drawn_broadcast h).map Prod.fst
  rw [map_fst_broadcastFrames] at hbroadcast
  have hsub : (screenOn cfg.history k).Sublist
      (FrameSystem.arrivedOn (PictureSystem.framesOf (picturesOf cfg.history)) k) :=
    (hbroadcast.filterMap _).trans (FrameSystem.shownOn_sublist hfs k)
  exact ⟨hsub, FrameSystem.pairwise_of_sublist_arrivedOn (FrameSystem.flowing_run hfs) hsub⟩

/-- The pixel has been on the screen as the first frame of connection 1. -/
theorem watchedPicture_in_order : ∃ cfg, watchedRun = some cfg ∧
    screenOn cfg.history 1 = [(0, PictureSystem.pixelFrame)] ∧
      (screenOn cfg.history 1).Sublist
        (FrameSystem.arrivedOn (PictureSystem.framesOf (picturesOf cfg.history)) 1) := by
  have hany : watchedRun.any (fun cfg =>
      screenOn cfg.history 1 = [(0, PictureSystem.pixelFrame)]) = true := by
    decide +kernel
  obtain ⟨cfg, hrun, hscreen⟩ := (Option.any_eq_true _ _).mp hany
  exact ⟨cfg, hrun, of_decide_eq_true hscreen, (screen_in_order hrun 1).1⟩

end ScreenSystem

end CameraStream.Link
