/-
  CameraStream.Server.GatewayRuns

  Whole runs of the gateway, for any number of sockets and any order of events.

  `Step` lists once what a single event can do; every invariant below is derived
  from it.  `SocketOk` ties the data of a socket to its own handshake, and the
  gateway drives its `CameraService` through the steps of the service machine
  (`service_run`), so that what holds of every run of the service holds inside the
  gateway.
-/

import CameraStream.Server.Admission

namespace CameraStream.Server.CameraGateway

open Js EventMachine

variable {env : Env} {g g' : CameraGateway} {e : Event} {out : List Output}
  {es : List Event} {cfg cfg' : Config CameraGateway Output}

/-! ## What one event can do -/

/-- One event, by outcome.  `tag` is the tag of the `onFrame` invocation. -/
inductive Step (env : Env) (g : CameraGateway) :
    Event → CameraGateway → List Output → Prop where
  | camera (auth : HandshakeAuth) (c : JsString) (h : CameraHandshake env auth c) :
      Step env g (.connect auth) ((g.join auth).admitCamera g.sockets.length c).1
        ((g.join auth).admitCamera g.sockets.length c).2
  | viewer (auth : HandshakeAuth) (h : ViewerHandshake env auth) :
      Step env g (.connect auth) ((g.join auth).admitViewer g.sockets.length).1
        ((g.join auth).admitViewer g.sockets.length).2
  | refused (auth : HandshakeAuth) :
      Step env g (.connect auth) ((g.join auth).disconnectClient g.sockets.length).1
        ((g.join auth).disconnectClient g.sockets.length).2
  | threw (auth : HandshakeAuth) (h : ¬ Converts env auth) :
      Step env g (.connect auth) (g.join auth) [.threw g.sockets.length]
  | cameraLeft (client : SocketId) (socket : AuthenticatedSocket) (c : JsString)
      (hsocket : g.sockets[client]? = some socket) (hconn : socket.connected = true)
      (hcamera : socket.asCamera = some c) (recipients : List SocketId)
      (hrecipients :
        recipients = (g.setSocket client fun s => { s with connected := false }).everyone) :
      Step env g (.disconnect client)
        { g.setSocket client fun s => { s with connected := false } with
          cameras := g.cameras.disconnect c }
        [.cameraStatus recipients c false]
  | otherLeft (client : SocketId) (socket : AuthenticatedSocket)
      (hsocket : g.sockets[client]? = some socket) (hconn : socket.connected = true)
      (hcamera : socket.asCamera = none) :
      Step env g (.disconnect client)
        (g.setSocket client fun s => { s with connected := false }) []
  | frameRejected (client : SocketId) (socket : AuthenticatedSocket)
      (payload : Option IncomingFrame) (dateNow now : Int) (reason : RejectReason)
      (hsocket : g.sockets[client]? = some socket) (hconn : socket.connected = true)
      (hreason : reason ≠ .backpressure)
      (hfailed : reason = .processingFailed →
        ∃ p, payload = some p ∧ propertyToNumber p.timestamp (env.nesting .timestamp) = none) :
      Step env g (.frame client payload dateNow now) { g with frames := g.frames + 1 }
        [.arrived (g.nextTag client socket), .ack (g.nextTag client socket) (.rejected reason)]
  | frameRefused (client : SocketId) (socket : AuthenticatedSocket) (c : JsString)
      (payload : Option IncomingFrame) (frame : Buffer) (timestamp : Number)
      (dateNow now : Int)
      (hsocket : g.sockets[client]? = some socket) (hconn : socket.connected = true)
      (hcamera : socket.asCamera = some c) (hgate : g.cameras.refuses env c now = true) :
      Step env g (.frame client payload dateNow now)
        { g with
          frames := g.frames + 1
          cameras :=
            (g.cameras.acceptFrame env (g.nextTag client socket) c frame timestamp now).1 }
        [.arrived (g.nextTag client socket), .acceptFrame (g.nextTag client socket) c,
          .service (.dropped (g.nextTag client socket) c),
          .ack (g.nextTag client socket) (.rejected .backpressure)]
  | frameStarted (client : SocketId) (socket : AuthenticatedSocket) (c : JsString)
      (payload : Option IncomingFrame) (frame : Buffer) (timestamp : Number)
      (dateNow now : Int)
      (hsocket : g.sockets[client]? = some socket) (hconn : socket.connected = true)
      (hcamera : socket.asCamera = some c) (hgate : g.cameras.refuses env c now = false) :
      Step env g (.frame client payload dateNow now)
        { g with
          frames := g.frames + 1
          cameras :=
            (g.cameras.acceptFrame env (g.nextTag client socket) c frame timestamp now).1 }
        [.arrived (g.nextTag client socket), .acceptFrame (g.nextTag client socket) c,
          .service (.visionCall (g.nextTag client socket) c)]
  | processed (tag : FrameTag) (call : Call FrameTag) (reply : VisionReply) (now : Int)
      (frame : ProcessedFrame) (hcall : g.cameras.findCall tag = some call)
      (hok : reply.succeeded = true) (hframe : frame.cameraId = call.form.cameraId) :
      Step env g (.settle tag reply now)
        { g with cameras := (g.cameras.resume call reply now).1 }
        [.service (.settled tag call.cameraId true now), .viewerFrame tag g.everyone frame,
          .ack tag .accepted]
  | failed (tag : FrameTag) (call : Call FrameTag) (reply : VisionReply) (now : Int)
      (hcall : g.cameras.findCall tag = some call) (hok : reply.succeeded = false) :
      Step env g (.settle tag reply now)
        { g with cameras := (g.cameras.resume call reply now).1 }
        [.service (.settled tag call.cameraId false now),
          .ack tag (.rejected .processingFailed)]

theorem step_connect (env : Env) (g : CameraGateway) (auth : HandshakeAuth) :
    Step env g (.connect auth) (g.connectClient env auth).1 (g.connectClient env auth).2 := by
  have hadmitted := handleConnection_admitted env (g.join auth) g.sockets.length auth
  rw [connectClient]
  generalize (g.join auth).handleConnection env g.sockets.length auth = r at hadmitted
  cases hadmitted with
  | camera c h => exact .camera auth c h
  | viewer h => exact .viewer auth h
  | refused => exact .refused auth
  | threw h => exact .threw auth h

theorem step_disconnect (env : Env) {client : SocketId} {socket : AuthenticatedSocket}
    (hsocket : g.sockets[client]? = some socket) (hconn : socket.connected = true) :
    Step env g (.disconnect client)
      ((g.setSocket client fun s => { s with connected := false }).handleDisconnect socket).1
      ((g.setSocket client fun s => { s with connected := false }).handleDisconnect socket).2 := by
  rw [handleDisconnect]
  cases hcamera : socket.asCamera with
  | none => exact .otherLeft client socket hsocket hconn hcamera
  | some c => exact .cameraLeft client socket c hsocket hconn hcamera _ rfl

theorem step_frame {client : SocketId} {socket : AuthenticatedSocket}
    {payload : Option IncomingFrame} {dateNow now : Int}
    (hsocket : g.sockets[client]? = some socket) (hconn : socket.connected = true)
    (h : { g with frames := g.frames + 1 }.onFrame env socket (g.nextTag client socket) payload
      dateNow now = (g', out)) :
    Step env g (.frame client payload dateNow now) g'
      (.arrived (g.nextTag client socket) :: out) := by
  rw [onFrame] at h
  -- the checks in the order of the source: role, payload, timestamp, gate
  split at h
  · cases h
    exact .frameRejected client socket payload dateNow now .unauthorized hsocket hconn (by simp)
      (by simp)
  · next c hcamera =>
    split at h
    · next p frame hvalid =>
      split at h
      · next htime =>
        cases h
        exact .frameRejected client socket _ dateNow now _ hsocket hconn (by simp)
          fun _ => ⟨p, rfl, htime⟩
      · next timestamp htime =>
        simp only [CameraService.acceptFrame_snd] at h
        cases hgate : g.cameras.refuses env c now with
        | true =>
            rw [hgate] at h
            cases h
            exact .frameRefused client socket c _ frame _ dateNow now hsocket hconn hcamera hgate
        | false =>
            rw [hgate] at h
            cases h
            exact .frameStarted client socket c _ frame _ dateNow now hsocket hconn hcamera hgate
    · cases h
      exact .frameRejected client socket _ dateNow now .invalidJpeg hsocket hconn (by simp)
        (by simp)

theorem step_settle (env : Env) {tag : FrameTag} {call : Call FrameTag} (reply : VisionReply)
    (now : Int) (hcall : g.cameras.findCall tag = some call) :
    Step env g (.settle tag reply now) (g.onSettled call reply now).1
      (g.onSettled call reply now).2 := by
  obtain rfl := (CameraService.findCall_eq_some hcall).2
  cases reply with
  | processed processingMs detections image =>
      have hprocess : process call.form (.processed processingMs detections image) = .ok _ := rfl
      exact .processed _ call _ now _ hcall rfl (process_cameraId hprocess)
  | rejected => exact .failed _ call _ now hcall rfl
  | status code => exact .failed _ call _ now hcall rfl

theorem step_cases (h : g.step env e = some (g', out)) : Step env g e g' out := by
  cases e with
  | connect auth =>
      have hconnect := step_connect env g auth
      rw [Option.some.inj h] at hconnect
      exact hconnect
  | disconnect client =>
      cases hsocket : g.sockets[client]? with
      | none => simp [step, hsocket] at h
      | some socket =>
          -- a socket disconnects once
          cases hconn : socket.connected with
          | false => simp [step, hsocket, hconn] at h
          | true =>
              simp only [step, hsocket, hconn, if_true, Option.some.injEq] at h
              have hleave := step_disconnect env hsocket hconn
              rw [h] at hleave
              exact hleave
  | frame client payload dateNow now =>
      cases hsocket : g.sockets[client]? with
      | none => simp [step, hsocket] at h
      | some socket =>
          cases hconn : socket.connected with
          | false => simp [step, hsocket, hconn] at h
          | true =>
              simp only [step, hsocket, hconn, if_true, Option.some.injEq, Prod.mk.injEq] at h
              obtain ⟨rfl, rfl⟩ := h
              exact step_frame hsocket hconn rfl
  | settle tag reply now =>
      cases hcall : g.cameras.findCall tag with
      | none => simp [step, hcall] at h
      | some call =>
          simp only [step, hcall, Option.some.injEq] at h
          have hsettle := step_settle env reply now hcall
          rw [h] at hsettle
          exact hsettle

theorem next_step (h : (machine env).next cfg e = some cfg') :
    ∃ out, Step env cfg.state e cfg'.state out ∧ cfg'.history = cfg.history ++ out := by
  obtain ⟨out, hstep, hhist⟩ := next_eq_some h
  exact ⟨out, step_cases hstep, hhist⟩

/-! ## Sockets and their handshakes -/

/-- The data of a socket are what its own handshake entitles it to; without a role
    it is out, or its handshake threw. -/
def SocketOk (env : Env) (socket : AuthenticatedSocket) : Prop :=
  match socket.role with
  | some .camera => ∃ c, socket.cameraId = some c ∧ CameraHandshake env socket.auth c
  | some .viewer => socket.cameraId = none ∧ ViewerHandshake env socket.auth
  | none => socket.cameraId = none ∧ (socket.connected = true → ¬ Converts env socket.auth)

theorem SocketOk.left {socket : AuthenticatedSocket} (h : SocketOk env socket) :
    SocketOk env { socket with connected := false } := by
  unfold SocketOk at h ⊢
  cases hrole : socket.role with
  | none =>
      -- out of the namespace, nothing is asked about the handshake
      rw [hrole] at h
      exact ⟨h.1, fun hconn => by cases hconn⟩
  | some role =>
      rw [hrole] at h
      cases role <;> exact h

theorem SocketOk.camera {socket : AuthenticatedSocket} {c : JsString} (h : SocketOk env socket)
    (hrole : socket.role = some .camera) (hid : socket.cameraId = some c) :
    CameraHandshake env socket.auth c := by
  rw [SocketOk, hrole] at h
  obtain ⟨c', hid', hshake⟩ := h
  rw [hid] at hid'
  exact Option.some.inj hid' ▸ hshake

theorem SocketOk.viewer {socket : AuthenticatedSocket} (h : SocketOk env socket)
    (hrole : socket.role = some .viewer) : ViewerHandshake env socket.auth := by
  rw [SocketOk, hrole] at h
  exact h.2

theorem asCamera_eq_some {socket : AuthenticatedSocket} {c : JsString}
    (h : socket.asCamera = some c) : socket.role = some .camera ∧ socket.cameraId = some c := by
  rw [AuthenticatedSocket.asCamera] at h
  split at h
  · next hrole => exact ⟨hrole, (Option.filter_eq_some_iff.mp h).1⟩
  · cases h

/-- The id of a camera socket is never empty, so the truthiness test is no test. -/
theorem SocketOk.asCamera_eq {socket : AuthenticatedSocket} (h : SocketOk env socket)
    (hrole : socket.role = some .camera) : socket.asCamera = socket.cameraId := by
  have hok := h
  rw [SocketOk, hrole] at hok
  obtain ⟨c, hid, hshake⟩ := hok
  rw [AuthenticatedSocket.asCamera, if_pos hrole, hid, Option.filter_some,
    if_pos (by simpa using hshake.ne_nil)]

/-- Every socket is in order, and so is the service; the tags of suspended frames
    have been given out, and a suspended frame is processed under the camera id of
    its tag. -/
structure Ok (env : Env) (g : CameraGateway) : Prop where
  sockets : ∀ {sid : SocketId} {socket}, g.sockets[sid]? = some socket → SocketOk env socket
  cameras : CameraService.Wf g.cameras
  fresh : ∀ call ∈ g.cameras.calls, call.caller.number < g.frames
  tagged : ∀ call ∈ g.cameras.calls,
    call.caller.cameraId = some call.cameraId ∧ call.form.cameraId = call.cameraId

theorem ok_empty : Ok env {} where
  sockets h := by simp at h
  cameras := CameraService.wf_empty
  fresh _ h := by simp at h
  tagged _ h := by simp at h

/-- The sockets after a new one has been given its data. -/
theorem sockets_admitted {auth : HandshakeAuth} {f : AuthenticatedSocket → AuthenticatedSocket}
    (h : ∀ {sid : SocketId} {socket}, g.sockets[sid]? = some socket → SocketOk env socket)
    {sid : SocketId} {socket : AuthenticatedSocket}
    (hsocket : ((g.join auth).setSocket g.sockets.length f).sockets[sid]? = some socket)
    (hnew : SocketOk env (f { auth := auth })) : SocketOk env socket := by
  rw [getElem?_setSocket, getElem?_join] at hsocket
  by_cases hsid : sid = g.sockets.length
  · rw [if_pos hsid, if_pos hsid] at hsocket
    exact Option.some.inj hsocket ▸ hnew
  · rw [if_neg hsid, if_neg hsid] at hsocket
    exact h hsocket

theorem sockets_leave {client : SocketId}
    (h : ∀ {sid : SocketId} {socket}, g.sockets[sid]? = some socket → SocketOk env socket)
    {sid : SocketId} {socket : AuthenticatedSocket}
    (hsocket : (g.setSocket client fun s => { s with connected := false }).sockets[sid]? =
      some socket) : SocketOk env socket := by
  rw [getElem?_setSocket] at hsocket
  split at hsocket
  · obtain ⟨socket', hsocket', rfl⟩ := Option.map_eq_some_iff.mp hsocket
    exact (h hsocket').left
  · exact h hsocket

/-! ## The service inside the gateway -/

/-- The part of the outputs that `CameraService` has produced. -/
def serviceOutputs (h : List Output) : List (CameraService.Output FrameTag) :=
  h.filterMap fun
    | .service o => some o
    | _ => none

@[simp] theorem serviceOutputs_append (h h' : List Output) :
    serviceOutputs (h ++ h') = serviceOutputs h ++ serviceOutputs h' :=
  List.filterMap_append

theorem Ok.findCall_nextTag (h : Ok env g) (client : SocketId) (socket : AuthenticatedSocket) :
    g.cameras.findCall (g.nextTag client socket) = none := by
  rw [CameraService.findCall_eq_none, List.mem_map]
  rintro ⟨call, hmem, hcaller⟩
  -- suspended frames carry smaller numbers
  have hlt := h.fresh call hmem
  rw [hcaller] at hlt
  exact Nat.lt_irrefl _ hlt

/-- A step of the gateway is at most one step of the service inside it. -/
theorem service_next (hok : Ok env g) (h : Step env g e g' out)
    (hist : List (CameraService.Output FrameTag)) :
    (g'.cameras = g.cameras ∧ serviceOutputs out = []) ∨
    ∃ f, (CameraService.machine FrameTag env).next ⟨g.cameras, hist⟩ f =
      some ⟨g'.cameras, hist ++ serviceOutputs out⟩ := by
  cases h with
  | camera auth c h => exact .inr ⟨.connect c, next_of_step rfl⟩
  | viewer | refused | threw | otherLeft | frameRejected => exact .inl ⟨rfl, rfl⟩
  | cameraLeft client socket c => exact .inr ⟨.disconnect c, next_of_step rfl⟩
  -- the tag of a new frame is the caller of its `acceptFrame`
  | frameRefused client socket c payload frame timestamp dateNow now hsocket hconn hcamera hgate =>
      refine .inr ⟨.acceptFrame (g.nextTag client socket) c frame timestamp now, next_of_step ?_⟩
      simp [CameraService.machine, CameraService.step, hok.findCall_nextTag,
        CameraService.acceptFrame_snd, hgate, serviceOutputs]
  | frameStarted client socket c payload frame timestamp dateNow now hsocket hconn hcamera hgate =>
      refine .inr ⟨.acceptFrame (g.nextTag client socket) c frame timestamp now, next_of_step ?_⟩
      simp [CameraService.machine, CameraService.step, hok.findCall_nextTag,
        CameraService.acceptFrame_snd, hgate, serviceOutputs]
  | processed tag call reply now frame hcall hsucc =>
      refine .inr ⟨.settle tag reply now, next_of_step ?_⟩
      simp [CameraService.machine, CameraService.step, hcall, hsucc, serviceOutputs]
  | failed tag call reply now hcall hfail =>
      refine .inr ⟨.settle tag reply now, next_of_step ?_⟩
      simp [CameraService.machine, CameraService.step, hcall, hfail, serviceOutputs]

/-- The calls after a step: old ones, and possibly the frame that has just come. -/
theorem calls_step (h : Step env g e g' out) {call : Call FrameTag}
    (hcall : call ∈ g'.cameras.calls) :
    call ∈ g.cameras.calls ∨
    ∃ client socket, g.sockets[client]? = some socket ∧
      socket.asCamera = some call.cameraId ∧ call.caller = g.nextTag client socket ∧
      call.form.cameraId = call.cameraId ∧ g'.frames = g.frames + 1 := by
  cases h with
  | camera | viewer | refused | threw | otherLeft | frameRejected => exact .inl hcall
  | cameraLeft => exact .inl (by simpa using hcall)
  | frameRefused client socket c payload frame timestamp dateNow now hsocket hconn hcamera hgate =>
      simp only [CameraService.acceptFrame_refused hgate, CameraService.update_calls,
        CameraService.counted_calls] at hcall
      exact .inl hcall
  | frameStarted client socket c payload frame timestamp dateNow now hsocket hconn hcamera hgate =>
      simp only [CameraService.acceptFrame_started hgate] at hcall
      rcases List.mem_append.mp hcall with hold | hnew
      · exact .inl hold
      · obtain rfl := List.mem_singleton.mp hnew
        exact .inr ⟨client, socket, hsocket, hcamera, rfl, rfl, rfl⟩
  | processed | failed =>
      simp only [CameraService.resume_calls] at hcall
      exact .inl (List.mem_of_mem_filter hcall)

theorem frames_step (h : Step env g e g' out) : g.frames ≤ g'.frames := by
  cases h with
  | frameRejected | frameRefused | frameStarted => exact Nat.le_succ _
  | _ => exact Nat.le_refl _

theorem ok_step (hok : Ok env g) (h : Step env g e g' out) : Ok env g' := by
  refine ⟨?_, ?_, ?_, ?_⟩
  · -- only connections and disconnections change sockets
    cases h with
    | camera auth c hshake =>
        exact fun hsocket => sockets_admitted hok.sockets hsocket ⟨c, rfl, hshake⟩
    | viewer auth hshake =>
        exact fun hsocket => sockets_admitted hok.sockets hsocket ⟨rfl, hshake⟩
    | refused auth =>
        exact fun hsocket =>
          sockets_admitted hok.sockets hsocket ⟨rfl, fun hconn => by cases hconn⟩
    | threw auth hthrew =>
        intro sid socket hsocket
        rw [getElem?_join] at hsocket
        split at hsocket
        · cases hsocket
          exact ⟨rfl, fun _ => hthrew⟩
        · exact hok.sockets hsocket
    | cameraLeft | otherLeft => exact fun hsocket => sockets_leave hok.sockets hsocket
    | _ => exact hok.sockets
  · obtain ⟨hsame, -⟩ | ⟨f, hnext⟩ := service_next hok h []
    · exact hsame ▸ hok.cameras
    · exact CameraService.wf_next hok.cameras hnext
  · -- a new call carries the number of the frame that has just come
    intro call hcall
    obtain hold | ⟨client, socket, -, -, hcaller, -, hframes⟩ := calls_step h hcall
    · exact Nat.lt_of_lt_of_le (hok.fresh call hold) (frames_step h)
    · rw [hcaller, hframes]
      exact Nat.lt_succ_self _
  · -- and is made under the camera id of its socket
    intro call hcall
    obtain hold | ⟨client, socket, -, hcamera, hcaller, hform, -⟩ := calls_step h hcall
    · exact hok.tagged call hold
    · rw [hcaller]
      exact ⟨(asCamera_eq_some hcamera).2, hform⟩

theorem ok_next (hok : Ok env cfg.state) (h : (machine env).next cfg e = some cfg') :
    Ok env cfg'.state := by
  obtain ⟨out, hstep, -⟩ := next_step h
  exact ok_step hok hstep

theorem ok_run (hrun : (machine env).exec (.start {}) es = some cfg) : Ok env cfg.state :=
  exec_invariant (I := fun c => Ok env c.state) (fun _ _ _ => ok_next) ok_empty hrun

/-- **Refinement.** The service inside a run of the gateway is in a run of its own. -/
def serviceSimulation (env : Env) :
    Simulation (machine env) (CameraService.machine FrameTag env) where
  rel cfg s := Ok env cfg.state ∧ s = ⟨cfg.state.cameras, serviceOutputs cfg.history⟩
  sim := by
    rintro cfg e cfg' s ⟨hok, rfl⟩ hnext
    have hok' := ok_next hok hnext
    obtain ⟨out, hstep, hhist⟩ := next_step hnext
    obtain ⟨hsame, hnone⟩ | ⟨f, hf⟩ := service_next hok hstep (serviceOutputs cfg.history)
    · refine ⟨[], _, rfl, hok', ?_⟩
      rw [hhist, serviceOutputs_append, hnone, List.append_nil, hsame]
    · refine ⟨[f], _, ?_, hok', rfl⟩
      rw [exec_cons, hf, hhist, serviceOutputs_append]
      rfl

theorem service_run (hrun : (machine env).exec (.start {}) es = some cfg) :
    ∃ fs, (CameraService.machine FrameTag env).exec (.start {}) fs =
      some ⟨cfg.state.cameras, serviceOutputs cfg.history⟩ := by
  have hinit : (serviceSimulation env).rel (.start {}) (.start {}) := ⟨ok_empty, rfl⟩
  obtain ⟨fs, s, hexec, -, rfl⟩ := (serviceSimulation env).exec hinit hrun
  exact ⟨fs, hexec⟩

/-! ## Sample traffic -/

/-- `client` is among the recipients of a processed frame. -/
def Output.echoes (client : SocketId) : Output → Bool
  | .viewerFrame _ recipients _ => recipients.contains client
  | _ => false

/-- A server with the camera token `key` and open to every viewer. -/
def sampleEnv : Env := { cameraToken := some (js "key") }

def cameraAuth : HandshakeAuth where
  role := some (.str (js "camera"))
  token := some (.str (js "key"))
  cameraId := some (.str (js "cam"))

def viewerAuth : HandshakeAuth where
  role := some (.str (js "viewer"))
  token := none
  cameraId := none

def jpegPayload : IncomingFrame where
  cameraId := none
  timestamp := some (.num (.finite 7))
  frame := .buffer [0xFF, 0xD8, 0xFF, 0xD9]

/-- The tag of frame `number` of socket 0, which is camera `cam`. -/
def sampleTag (number : Nat) : FrameTag := ⟨number, 0, some (js "cam")⟩

/-- A camera and a viewer join, and the camera sends two frames; the second comes
    while the first is being processed. -/
def sampleRun : List Event :=
  [.connect cameraAuth, .connect viewerAuth, .frame 0 (some jpegPayload) 1000 1000,
    .frame 0 (some jpegPayload) 2000 2000,
    .settle (sampleTag 0) (.processed (.finite 5) [] []) 2100]

end CameraStream.Server.CameraGateway
