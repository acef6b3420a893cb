/-
  CameraStream.Link.FrameDelivery

  Frames on their way from `Application::run` to `CameraGateway` and ACKs on their way
  back: one camera client with all the WebSockets that it opens, and the gateway with all
  its other clients and its vision requests.

  The client and the connections are those of CameraStream.Client.AckCorrelation, where the
  server is any server that answers.  Here it is the gateway behind Socket.IO, which reads
  the packets of a connection in order, joins the two halves of a binary event, calls the
  handlers and sends what they return.  Of Socket.IO this is assumed, next to what
  CameraStream.Link.RejectedCamera assumes: an ACK goes to the connection of its event, and
  nothing is sent on a connection that the server has closed.

  `ackSimulation` shows that the gateway is such a server.  `acks_tell_the_fate` adds what
  the answer means: the one invocation of `onFrame` for this frame returned it, and the
  frame was broadcast exactly if it was accepted.
-/

import CameraStream.Client.WireFormat
import CameraStream.Link.RejectedCamera
import CameraStream.Server.FrameAccounting

namespace CameraStream.Link

open Client Server Js EventMachine
open Server.CameraGateway (arrivals acks)

/-! ## ACKs as texts -/

/-- The object that `onFrame` returns. -/
def ackObject : Server.FrameAck → JsonValue
  | .accepted => ackResult true none
  | .rejected .unauthorized => ackResult false (some "unauthorized")
  | .rejected .invalidJpeg => ackResult false (some "invalid_jpeg")
  | .rejected .backpressure => ackResult false (some "backpressure")
  | .rejected .processingFailed => ackResult false (some "processing_failed")

/-- What `send_frame` returns for it. -/
def clientAck : Server.FrameAck → Client.FrameAck
  | .accepted => ⟨true, []⟩
  | .rejected .unauthorized => ⟨false, utf8 "unauthorized"⟩
  | .rejected .invalidJpeg => ⟨false, utf8 "invalid_jpeg"⟩
  | .rejected .backpressure => ⟨false, utf8 "backpressure"⟩
  | .rejected .processingFailed => ⟨false, utf8 "processing_failed"⟩

theorem frameAckOf_ackObject (a : Server.FrameAck) :
    frameAckOf (.array [ackObject a]) = some (clientAck a) := by
  cases a with
  | accepted => exact frameAckOf_ackResult true none
  | rejected reason => cases reason <;> exact frameAckOf_ackResult false _

theorem clientAck_accepted (a : Server.FrameAck) :
    (clientAck a).accepted = true ↔ a = .accepted := by
  cases a with
  | accepted => exact iff_of_true rfl rfl
  | rejected reason => cases reason <;> exact iff_of_false nofun nofun

/-- The JSON libraries of the two programs: what `JSON.stringify` prints of an answer,
    `Json::parse` reads. -/
structure AckJson where
  stringify : JsonValue → Bytes
  parse : Bytes → Option JsonValue
  inverse : ∀ a, parse (stringify (.array [ackObject a])) = some (.array [ackObject a])
  bracket : ∀ a, (stringify (.array [ackObject a])).head? = some 0x5B

namespace AckJson

/-- The arguments of the ACK packet. -/
def arguments (J : AckJson) (a : Server.FrameAck) : Bytes := J.stringify (.array [ackObject a])

theorem read_arguments (J : AckJson) (a : Server.FrameAck) :
    (J.parse (J.arguments a)).bind frameAckOf = some (clientAck a) := by
  rw [arguments, J.inverse]
  exact frameAckOf_ackObject a

end AckJson

/-! ## The system -/

/-- The server's end of a connection. -/
structure Stream where
  /-- What the client has written and the server has not read. -/
  toServer : List Packet := []
  /-- A descriptor whose attachment has not come. -/
  descriptor : Option (Frame × UInt64) := none
  /-- The socket of the namespace. -/
  socket : Option SocketId := none
  closed : Bool := false

/-- A `camera:frame` event that has been read, with the invocation of `onFrame` that it has
    started: the descriptor is number `number` on connection `stream`. -/
structure FrameEvent where
  tag : FrameTag
  stream : Nat
  number : Nat
  frame : Frame
  ackId : UInt64

/-- The event as it is reported. -/
def FrameEvent.delivery (ev : FrameEvent) : Nat × Nat × Frame × FrameTag :=
  (ev.stream, ev.number, ev.frame, ev.tag)

structure FrameSystem where
  /-- The client and its connections. -/
  camera : AckSystem
  gateway : CameraGateway := {}
  streams : Nat → Stream := fun _ => {}
  /-- The events, each with the ACK callback that Socket.IO keeps for it. -/
  events : List FrameEvent := []

/-- The payload of the event; `JSON.parse` rounds the timestamp. -/
def framePayload (descriptor attachment : Frame) : IncomingFrame where
  cameraId := none
  timestamp := some (.num (.round descriptor.timestampMs))
  frame := .buffer attachment.jpeg

namespace FrameSystem

inductive Event where
  /-- A step of the client. -/
  | client (event : Application.Event)
  /-- The server reads the next packet of connection `k`. -/
  | serve (k : Nat) (session : Bytes) (dateNow now : Int)
  /-- The server sends a message that is neither an ACK nor an approval: the open packet, a
      ping or an event for viewers. -/
  | send (k : Nat) (message : Message)
  /-- The server finds that the transport of connection `k` has ended. -/
  | lost (k : Nat)
  /-- The gateway serves another client, or a vision request settles. -/
  | gateway (event : CameraGateway.Event)

inductive Output where
  /-- The calls of `send_frame`, and the ACKs that go out. -/
  | link (output : AckSystem.Output)
  /-- Descriptor `n` of connection `k` and its attachment reach `onFrame`. -/
  | delivered (k n : Nat) (frame : Frame) (tag : FrameTag)
  | gateway (output : CameraGateway.Output)

def setStream (s : FrameSystem) (k : Nat) (st : Stream) : FrameSystem :=
  { s with streams := Function.update s.streams k st }

def setConnection (s : FrameSystem) (k : Nat) (c : Connection) : FrameSystem :=
  { s with camera := s.camera.setConnection k c }

def record (s : FrameSystem) (ev : FrameEvent) : FrameSystem :=
  { s with events := s.events ++ [ev] }

/-- Put a message on connection `k`. -/
def put (s : FrameSystem) (k : Nat) (m : Message) : FrameSystem :=
  let c := s.camera.connections k
  s.setConnection k { c with toClient := c.toClient ++ [⟨m, none⟩] }

/-- Put the ACK of an event on its connection. -/
def putAck (s : FrameSystem) (ev : FrameEvent) (arguments : Bytes) : FrameSystem :=
  let c := s.camera.connections ev.stream
  s.setConnection ev.stream { c with
    answered := (ev.number, arguments) :: c.answered
    toClient := c.toClient ++ [⟨ackPacket ev.ackId arguments, some ev.number⟩] }

/-- The server's ends after an event on the wire at the client.  What it could not write may
    have gone out all the same. -/
def afterWire (s : FrameSystem) : WireEvent → FrameSystem
  | .opened => s.setStream (s.camera.opened + 1) {}
  | .wrote packet | .writeFailed packet =>
      let st := s.streams s.camera.opened
      s.setStream s.camera.opened { st with toServer := st.toServer ++ [packet] }
  | .read _ | .readFailed => s

/-- The return value of `onFrame` goes to the connection of its event. -/
def acknowledge (J : AckJson) (s : FrameSystem) (out : List CameraGateway.Output) :
    FrameSystem × List Output :=
  match (acks out).head? with
  | none => (s, [])
  | some (tag, a) =>
      match s.events.find? fun ev => decide (ev.tag = tag) with
      | none => (s, [])
      | some ev =>
          if (s.streams ev.stream).closed then (s, [])
          else
            (s.putAck ev (J.arguments a),
              [.link (.answered ev.stream ev.number (J.arguments a))])

/-- A step of the gateway, with the ACK that it may give. -/
def withGateway (J : AckJson) (s : FrameSystem) (r : CameraGateway × List CameraGateway.Output) :
    FrameSystem × List Output :=
  let s := { s with gateway := r.1 }
  ((s.acknowledge J r.2).1, r.2.map .gateway ++ (s.acknowledge J r.2).2)

/-- The server closes connection `k`; a socket that is still there leaves the namespace. -/
def close (J : AckJson) (env : Env) (s : FrameSystem) (k : Nat) : FrameSystem × List Output :=
  let st := s.streams k
  let s := s.setStream k { st with closed := true }
  match st.socket.bind fun sid => s.gateway.step env (.disconnect sid) with
  | some r => s.withGateway J r
  | none => (s, [])

/-- A namespace connect: the approval goes out first, then the handler runs. -/
def onConnect (J : AckJson) (env : Env) (s : FrameSystem) (k : Nat) (auth : AuthJson)
    (session : Bytes) : FrameSystem × List Output :=
  let r := s.gateway.connectClient env (handshake auth)
  let refused := r.2.any CameraSystem.isRefusal
  let st := { s.streams k with socket := some s.gateway.sockets.length, closed := refused }
  let s := (s.put k (approval session)).setStream k st
  let s := if refused then s.put k disconnectPacket else s
  s.withGateway J r

/-- An attachment completes the event of the descriptor before it. -/
def onAttachment (J : AckJson) (env : Env) (s : FrameSystem) (k : Nat) (attachment : Frame)
    (dateNow now : Int) : FrameSystem × List Output :=
  let st := s.streams k
  match st.descriptor, st.socket with
  | some (frame, ackId), some sid =>
      let payload := framePayload frame attachment
      match s.gateway.sockets[sid]?, s.gateway.step env (.frame sid (some payload) dateNow now) with
      | some socket, some r =>
          let tag := s.gateway.nextTag sid socket
          let n := (s.camera.connections k).received - 1
          let s := (s.setStream k { st with descriptor := none }).record ⟨tag, k, n, frame, ackId⟩
          ((s.withGateway J r).1, .delivered k n frame tag :: (s.withGateway J r).2)
      | _, _ => s.close J env k
  -- a binary message that belongs to no event, or an event outside the namespace
  | _, _ => s.close J env k

/-- The server reads `packet`, which has been taken out of the queue. -/
def onPacket (J : AckJson) (env : Env) (s : FrameSystem) (k : Nat) (session : Bytes)
    (dateNow now : Int) : Packet → FrameSystem × List Output
  | .pong => (s, [])
  | .connect auth =>
      match (s.streams k).socket with
      | none => s.onConnect J env k auth session
      | some _ => s.close J env k
  | .descriptor frame ackId =>
      let c := s.camera.connections k
      let s := s.setConnection k { c with received := c.received + 1 }
      (s.setStream k { s.streams k with descriptor := some (frame, ackId) }, [])
  | .attachment frame => s.onAttachment J env k frame dateNow now
  | .leave => s.close J env k

/-- One of the client's own sockets. -/
def owns (s : FrameSystem) (sid : SocketId) : Bool :=
  (List.range (s.camera.opened + 1)).any fun k => (s.streams k).socket = some sid

/-- Other clients act on their own sockets. -/
def admissible (s : FrameSystem) : CameraGateway.Event → Bool
  | .connect _ | .settle _ _ _ => true
  | .disconnect sid | .frame sid _ _ _ => !s.owns sid

def step (J : AckJson) (env : Env) (s : FrameSystem) :
    Event → Option (FrameSystem × List Output)
  | .client e =>
      (s.camera.step J.parse (.client e)).map fun r =>
        ({ (s.camera.client.wire e).foldl afterWire s with camera := r.1 }, r.2.map .link)
  | .serve k session dateNow now =>
      if k ≤ s.camera.opened ∧ (s.streams k).closed = false then
        match (s.streams k).toServer with
        | [] => none
        | packet :: rest =>
            some ((s.setStream k { s.streams k with toServer := rest }).onPacket J env k session
              dateNow now packet)
      else none
  | .send k m =>
      if k ≤ s.camera.opened ∧ (s.streams k).closed = false ∧ m.isAck = false ∧
          m.isApproval = false then
        some (s.put k m, [])
      else none
  | .lost k =>
      if k ≤ s.camera.opened ∧ (s.streams k).closed = false then some (s.close J env k) else none
  | .gateway e =>
      if s.admissible e then (s.gateway.step env e).map fun r => s.withGateway J r else none

def machine (J : AckJson) (env : Env) : EventMachine FrameSystem Event Output := ⟨step J env⟩

/-- The client starts; the gateway has served nobody. -/
def initial (config : Client.Config) : FrameSystem where
  camera := ⟨{ config := config }, 0, fun _ => {}⟩

/-! ## Updates -/

theorem connections_set (a : AckSystem) (k : Nat) (c : Connection) :
    (a.setConnection k c).connections k = c := Function.update_self ..

theorem connections_set_other (a : AckSystem) {j k : Nat} (c : Connection) (h : j ≠ k) :
    (a.setConnection k c).connections j = a.connections j := Function.update_of_ne h ..

section Updates

variable (s : FrameSystem) (k : Nat) {j : Nat} (st : Stream) (c : Connection) (m : Message)
  (ev : FrameEvent) (arguments : Bytes)

@[simp] theorem setStream_streams : (s.setStream k st).streams k = st := Function.update_self ..

theorem setStream_other (h : j ≠ k) : (s.setStream k st).streams j = s.streams j :=
  Function.update_of_ne h ..

@[simp] theorem setStream_camera : (s.setStream k st).camera = s.camera := rfl

@[simp] theorem setStream_gateway : (s.setStream k st).gateway = s.gateway := rfl

@[simp] theorem setStream_events : (s.setStream k st).events = s.events := rfl

@[simp] theorem setConnection_connections :
    (s.setConnection k c).camera.connections k = c := Function.update_self ..

theorem setConnection_other (h : j ≠ k) :
    (s.setConnection k c).camera.connections j = s.camera.connections j :=
  Function.update_of_ne h ..

end Updates

/-! ## Reading a history -/

def Output.ofLink : Output → Option AckSystem.Output
  | .link o => some o
  | _ => none

def Output.ofGateway : Output → Option CameraGateway.Output
  | .gateway o => some o
  | _ => none

def Output.ofDelivery : Output → Option (Nat × Nat × Frame × FrameTag)
  | .delivered k n frame tag => some (k, n, frame, tag)
  | _ => none

/-- What the client's side reports. -/
def links (h : List Output) : List AckSystem.Output := h.filterMap Output.ofLink

/-- What the gateway does. -/
def gatewayOutputs (h : List Output) : List CameraGateway.Output := h.filterMap Output.ofGateway

/-- The deliveries, in order. -/
def deliveries (h : List Output) : List (Nat × Nat × Frame × FrameTag) :=
  h.filterMap Output.ofDelivery

section Reading

variable (h h' : List Output) (l : List AckSystem.Output) (g : List CameraGateway.Output)

@[simp] theorem links_append : links (h ++ h') = links h ++ links h' := List.filterMap_append

@[simp] theorem gatewayOutputs_append :
    gatewayOutputs (h ++ h') = gatewayOutputs h ++ gatewayOutputs h' := List.filterMap_append

@[simp] theorem deliveries_append : deliveries (h ++ h') = deliveries h ++ deliveries h' :=
  List.filterMap_append

@[simp] theorem links_map_link : links (l.map .link) = l := by
  simp [links, List.filterMap_map, Output.ofLink, Function.comp_def]

@[simp] theorem gatewayOutputs_map_link : gatewayOutputs (l.map .link) = [] := by
  simp [gatewayOutputs, List.filterMap_map, Output.ofGateway, Function.comp_def]

@[simp] theorem deliveries_map_link : deliveries (l.map .link) = [] := by
  simp [deliveries, List.filterMap_map, Output.ofDelivery, Function.comp_def]

@[simp] theorem links_map_gateway : links (g.map .gateway) = [] := by
  simp [links, List.filterMap_map, Output.ofLink, Function.comp_def]

@[simp] theorem gatewayOutputs_map_gateway : gatewayOutputs (g.map .gateway) = g := by
  simp [gatewayOutputs, List.filterMap_map, Output.ofGateway, Function.comp_def]

@[simp] theorem deliveries_map_gateway : deliveries (g.map .gateway) = [] := by
  simp [deliveries, List.filterMap_map, Output.ofDelivery, Function.comp_def]

end Reading

/-! ## The gateway answers -/

/-- A packet that is the descriptor of a frame. -/
def descriptorOf : Packet → Option (Frame × UInt64)
  | .descriptor frame ackId => some (frame, ackId)
  | _ => none

/-- How the events lie between the connections and the gateway, which has emitted `gh`. -/
structure Linked (J : AckJson) (env : Env) (s : FrameSystem) (gh : List CameraGateway.Output) :
    Prop where
  run : ∃ es, (CameraGateway.machine env).exec (.start {}) es = some ⟨s.gateway, gh⟩
  arrived : ∀ ev ∈ s.events, ev.tag ∈ arrivals gh
  opened : ∀ ev ∈ s.events, ev.stream ≤ s.camera.opened
  descriptor : ∀ ev ∈ s.events,
    (s.camera.connections ev.stream).descriptors[ev.number]? = some (ev.frame, ev.ackId)
  received : ∀ ev ∈ s.events, ev.number < (s.camera.connections ev.stream).received
  /-- The last descriptor that has been read waits for its attachment. -/
  half : ∀ k frame ackId, (s.streams k).descriptor = some (frame, ackId) →
    ∃ n, (s.camera.connections k).received = n + 1 ∧
      (s.camera.connections k).descriptors[n]? = some (frame, ackId) ∧
      ∀ ev ∈ s.events, ev.stream = k → ev.number < n
  queue : ∀ k ≤ s.camera.opened,
    (s.camera.connections k).descriptors.drop (s.camera.connections k).received =
      (s.streams k).toServer.filterMap descriptorOf
  /-- One event for each invocation, and at most one for each descriptor. -/
  tags : ∀ ev ∈ s.events, ∀ ev' ∈ s.events, ev.tag = ev'.tag → ev = ev'
  numbers : ∀ ev ∈ s.events, ∀ ev' ∈ s.events, ev.stream = ev'.stream →
    ev.number = ev'.number → ev = ev'
  answered : ∀ k n arguments, (n, arguments) ∈ (s.camera.connections k).answered →
    ∃ ev ∈ s.events, ev.stream = k ∧ ev.number = n ∧
      ∃ a, (ev.tag, a) ∈ acks gh ∧ arguments = J.arguments a

/-- The client's side of a step is a run of the client against a server that answers. -/
def Answers (J : AckJson) (s s' : FrameSystem) (out : List Output) : Prop :=
  ∀ h, ∃ fs, (AckSystem.machine J.parse).exec ⟨s.camera, h⟩ fs =
    some ⟨s'.camera, h ++ links out⟩

/-- What the steps of the server do. -/
structure Served (J : AckJson) (env : Env) (s : FrameSystem) (gh : List CameraGateway.Output)
    (s' : FrameSystem) (out : List Output) : Prop where
  linked : Linked J env s' (gh ++ gatewayOutputs out)
  answers : Answers J s s' out
  delivered : s'.events.map FrameEvent.delivery =
    s.events.map FrameEvent.delivery ++ deliveries out
  quiet : ∀ frame ack, .returned frame ack ∉ links out

variable {J : AckJson} {env : Env} {s s' s₁ s₂ : FrameSystem} {gh : List CameraGateway.Output}
  {out out₁ out₂ : List Output} {k : Nat}

theorem answers_same (hcamera : s'.camera = s.camera) (hout : links out = []) :
    Answers J s s' out := by
  intro h
  refine ⟨[], ?_⟩
  rw [exec_nil, hcamera, hout, List.append_nil]

theorem Served.trans (h₁ : Served J env s gh s₁ out₁)
    (h₂ : Served J env s₁ (gh ++ gatewayOutputs out₁) s₂ out₂) :
    Served J env s gh s₂ (out₁ ++ out₂) where
  linked := by
    rw [gatewayOutputs_append, ← List.append_assoc]
    exact h₂.linked
  answers := by
    intro h
    obtain ⟨fs₁, hfs₁⟩ := h₁.answers h
    obtain ⟨fs₂, hfs₂⟩ := h₂.answers (h ++ links out₁)
    refine ⟨fs₁ ++ fs₂, ?_⟩
    rw [exec_append, hfs₁, links_append, ← List.append_assoc]
    exact hfs₂
  delivered := by rw [h₂.delivered, h₁.delivered, deliveries_append, List.append_assoc]
  quiet frame ack hmem := by
    rw [links_append] at hmem
    rcases List.mem_append.mp hmem with hmem | hmem
    · exact h₁.quiet frame ack hmem
    · exact h₂.quiet frame ack hmem

/-- A step that only moves packets on the server's side. -/
theorem served_setStream (hl : Linked J env s gh) (k : Nat) (st : Stream)
    (hqueue : st.toServer.filterMap descriptorOf =
      (s.streams k).toServer.filterMap descriptorOf)
    (hhalf : st.descriptor = none ∨ st.descriptor = (s.streams k).descriptor) :
    Served J env s gh (s.setStream k st) [] where
  linked := by
    rw [gatewayOutputs, List.filterMap_nil, List.append_nil]
    refine ⟨hl.run, hl.arrived, hl.opened, hl.descriptor, hl.received, ?_, ?_, hl.tags,
      hl.numbers, hl.answered⟩
    · intro j frame ackId hj
      by_cases hjk : j = k
      · subst hjk
        rw [setStream_streams] at hj
        rcases hhalf with hnone | hsame
        · rw [hnone] at hj
          cases hj
        · exact hl.half j frame ackId (hsame ▸ hj)
      · rw [setStream_other s k st hjk] at hj
        exact hl.half j frame ackId hj
    · intro j hj
      by_cases hjk : j = k
      · subst hjk
        rw [setStream_streams, hqueue]
        exact hl.queue j hj
      · rw [setStream_other s k st hjk]
        exact hl.queue j hj
  answers := answers_same rfl rfl
  delivered := (List.append_nil _).symm
  quiet := nofun

/-- A change of a connection that leaves descriptors and answers alone. -/
theorem linked_setConnection (hl : Linked J env s gh) {c : Connection}
    (hdescriptors : c.descriptors = (s.camera.connections k).descriptors)
    (hreceived : c.received = (s.camera.connections k).received)
    (hanswered : c.answered = (s.camera.connections k).answered) :
    Linked J env (s.setConnection k c) gh := by
  -- every connection looks the same as before
  have hsame : ∀ j, ((s.setConnection k c).camera.connections j).descriptors =
        (s.camera.connections j).descriptors ∧
      ((s.setConnection k c).camera.connections j).received =
        (s.camera.connections j).received ∧
      ((s.setConnection k c).camera.connections j).answered =
        (s.camera.connections j).answered := by
    intro j
    by_cases hj : j = k
    · subst hj
      rw [setConnection_connections]
      exact ⟨hdescriptors, hreceived, hanswered⟩
    · rw [setConnection_other s k c hj]
      exact ⟨rfl, rfl, rfl⟩
  refine ⟨hl.run, hl.arrived, hl.opened, ?_, ?_, ?_, ?_, hl.tags, hl.numbers, ?_⟩
  · intro ev hev
    rw [(hsame ev.stream).1]
    exact hl.descriptor ev hev
  · intro ev hev
    rw [(hsame ev.stream).2.1]
    exact hl.received ev hev
  · intro j frame ackId hj
    rw [(hsame j).1, (hsame j).2.1]
    exact hl.half j frame ackId hj
  · intro j hj
    rw [(hsame j).1, (hsame j).2.1]
    exact hl.queue j hj
  · intro j n arguments hn
    rw [(hsame j).2.2] at hn
    exact hl.answered j n arguments hn

/-- A message that is no ACK goes out. -/
theorem served_put (hl : Linked J env s gh) (hk : k ≤ s.camera.opened) {m : Message}
    (hm : m.isAck = false) : Served J env s gh (s.put k m) [] where
  linked := by
    rw [gatewayOutputs, List.filterMap_nil, List.append_nil]
    exact linked_setConnection hl rfl rfl rfl
  answers := by
    intro h
    refine ⟨[.send k m], ?_⟩
    have hstep : s.camera.step J.parse (.send k m) = some ((s.put k m).camera, []) := by
      simp [AckSystem.step, AckSystem.serve, hk, Connection.send, hm, put, setConnection]
    rw [exec_cons, next_of_step hstep]
    rfl
  delivered := (List.append_nil _).symm
  quiet := nofun

/-! ### The gateway -/

theorem linked_gateway (hl : Linked J env s gh) {e : CameraGateway.Event}
    {r : CameraGateway × List CameraGateway.Output} (hstep : s.gateway.step env e = some r) :
    Linked J env { s with gateway := r.1 } (gh ++ r.2) := by
  refine ⟨?_, ?_, hl.opened, hl.descriptor, hl.received, hl.half, hl.queue, hl.tags, hl.numbers,
    ?_⟩
  · obtain ⟨es, hes⟩ := hl.run
    refine ⟨es ++ [e], ?_⟩
    rw [exec_append, hes, Option.bind_some, exec_cons, next_of_step hstep]
    rfl
  · intro ev hev
    rw [CameraGateway.arrivals_append]
    exact List.mem_append_left _ (hl.arrived ev hev)
  · intro j n arguments hn
    obtain ⟨ev, hev, hstream, hnumber, a, ha, harguments⟩ := hl.answered j n arguments hn
    refine ⟨ev, hev, hstream, hnumber, a, ?_, harguments⟩
    rw [CameraGateway.acks_append]
    exact List.mem_append_left _ ha

/-- An invocation is answered once. -/
theorem acked_nodup {cfg : EventMachine.Config CameraGateway CameraGateway.Output}
    (h : CameraGateway.Answered cfg) : ((acks cfg.history).map Prod.fst).Nodup :=
  (List.nodup_append'.mp (h.perm.nodup_iff.mp h.nodup)).1

/-- A step of the gateway answers at most one invocation, and for the first time. -/
theorem acks_step (hl : Linked J env s gh) {e : CameraGateway.Event}
    {r : CameraGateway × List CameraGateway.Output} (hstep : s.gateway.step env e = some r) :
    acks r.2 = [] ∨ ∃ tag a, acks r.2 = [(tag, a)] ∧ ∀ a', (tag, a') ∉ acks gh := by
  obtain ⟨es, hes⟩ := hl.run
  have hnext : (CameraGateway.machine env).next ⟨s.gateway, gh⟩ e = some ⟨r.1, gh ++ r.2⟩ :=
    next_of_step hstep
  have hnodup := acked_nodup
    (CameraGateway.answered_next (CameraGateway.ok_run hes) (CameraGateway.answered_run hes) hnext)
  have hfirst : ∀ tag a, acks r.2 = [(tag, a)] → ∀ a', (tag, a') ∉ acks gh := by
    intro tag a hack a' hmem
    rw [CameraGateway.acks_append, hack, List.map_append] at hnodup
    exact (List.nodup_append'.mp hnodup).2.2 (List.mem_map_of_mem hmem) List.mem_cons_self
  rcases CameraGateway.answered_cases (CameraGateway.step_cases hstep) with
    ⟨-, hack, -⟩ | ⟨tag, a, -, -, -, hack, -⟩ | ⟨tag, -, -, -, hack, -⟩ |
      ⟨tag, a, -, -, -, hack, -⟩
  · exact .inl hack
  · exact .inr ⟨tag, a, hack, hfirst tag a hack⟩
  · exact .inl hack
  · exact .inr ⟨tag, a, hack, hfirst tag a hack⟩

/-- The ACK of an event that has not been answered goes out. -/
theorem served_putAck (hl : Linked J env s gh) {ev : FrameEvent} (hev : ev ∈ s.events)
    {a : Server.FrameAck} (hack : (ev.tag, a) ∈ acks gh)
    (hnew : ev.number ∉ (s.camera.connections ev.stream).answered.map Prod.fst) :
    Served J env s gh (s.putAck ev (J.arguments a))
      [.link (.answered ev.stream ev.number (J.arguments a))] where
  linked := by
    rw [show gatewayOutputs [.link (.answered ev.stream ev.number (J.arguments a))] = [] from rfl,
      List.append_nil]
    have hdescriptors : ∀ j, ((s.putAck ev (J.arguments a)).camera.connections j).descriptors =
          (s.camera.connections j).descriptors ∧
        ((s.putAck ev (J.arguments a)).camera.connections j).received =
          (s.camera.connections j).received := by
      intro j
      by_cases hj : j = ev.stream
      · subst hj
        rw [putAck, setConnection_connections]
        exact ⟨rfl, rfl⟩
      · rw [putAck, setConnection_other s _ _ hj]
        exact ⟨rfl, rfl⟩
    refine ⟨hl.run, hl.arrived, hl.opened, ?_, ?_, ?_, ?_, hl.tags, hl.numbers, ?_⟩
    · intro ev' hev'
      rw [(hdescriptors _).1]
      exact hl.descriptor ev' hev'
    · intro ev' hev'
      rw [(hdescriptors _).2]
      exact hl.received ev' hev'
    · intro j frame ackId hj
      rw [(hdescriptors j).1, (hdescriptors j).2]
      exact hl.half j frame ackId hj
    · intro j hj
      rw [(hdescriptors j).1, (hdescriptors j).2]
      exact hl.queue j hj
    · intro j n arguments hn
      by_cases hj : j = ev.stream
      · subst hj
        rw [putAck, setConnection_connections] at hn
        rcases List.mem_cons.mp hn with hhead | hold
        · obtain ⟨rfl, rfl⟩ := Prod.mk.inj hhead
          exact ⟨ev, hev, rfl, rfl, a, hack, rfl⟩
        · exact hl.answered _ n arguments hold
      · rw [putAck, setConnection_other s _ _ hj] at hn
        exact hl.answered j n arguments hn
  answers := by
    intro h
    have hanswer : (s.camera.connections ev.stream).answer ev.number (J.arguments a) =
        some { s.camera.connections ev.stream with
          answered := (ev.number, J.arguments a) :: (s.camera.connections ev.stream).answered
          toClient := (s.camera.connections ev.stream).toClient ++
            [⟨ackPacket ev.ackId (J.arguments a), some ev.number⟩] } := by
      rw [Connection.answer, hl.descriptor ev hev]
      exact if_pos ⟨hl.received ev hev, hnew, J.bracket a⟩
    refine ⟨[.answer ev.stream ev.number (J.arguments a)], ?_⟩
    have hstep : s.camera.step J.parse (.answer ev.stream ev.number (J.arguments a)) =
        some ((s.putAck ev (J.arguments a)).camera,
          [.answered ev.stream ev.number (J.arguments a)]) := by
      simp [AckSystem.step, AckSystem.serve, hl.opened ev hev, hanswer, putAck, setConnection]
    rw [exec_cons, next_of_step hstep]
    rfl
  delivered := (List.append_nil _).symm
  quiet frame ack hmem := by
    obtain heq := List.mem_singleton.mp hmem
    cases heq

/-- The answer of a step goes out on the connection of its event. -/
theorem served_acknowledge (hl : Linked J env s gh) {out : List CameraGateway.Output}
    (hone : acks out = [] ∨ ∃ tag a, acks out = [(tag, a)] ∧ (tag, a) ∈ acks gh ∧
      ∀ ev ∈ s.events, ev.tag = tag →
        ev.number ∉ (s.camera.connections ev.stream).answered.map Prod.fst) :
    Served J env s gh (s.acknowledge J out).1 (s.acknowledge J out).2 := by
  have hnothing : Served J env s gh s [] := by
    refine ⟨?_, answers_same rfl rfl, (List.append_nil _).symm, nofun⟩
    rw [gatewayOutputs, List.filterMap_nil, List.append_nil]
    exact hl
  rcases hone with hnone | ⟨tag, a, hack, hmem, hnew⟩
  · simpa [acknowledge, hnone] using hnothing
  · cases hfind : s.events.find? fun ev => decide (ev.tag = tag) with
    | none => simpa [acknowledge, hack, hfind] using hnothing
    | some ev =>
        have hev := List.mem_of_find?_eq_some hfind
        have htag : ev.tag = tag := of_decide_eq_true (List.find?_some hfind :)
        cases hclosed : (s.streams ev.stream).closed with
        | true => simpa [acknowledge, hack, hfind, hclosed] using hnothing
        | false =>
            have hserved := served_putAck hl hev (htag ▸ hmem) (hnew ev hev htag)
            simpa [acknowledge, hack, hfind, hclosed] using hserved

/-- What has been answered on a connection belongs to an answered invocation, also when an
    event has been added. -/
theorem not_answered {gh' : List CameraGateway.Output} (hl : Linked J env s gh)
    (hl' : Linked J env s' gh') (hsub : ∀ ev ∈ s.events, ev ∈ s'.events) {tag : FrameTag}
    (hfirst : ∀ a', (tag, a') ∉ acks gh) {ev : FrameEvent} (hev : ev ∈ s'.events)
    (htag : ev.tag = tag) :
    ev.number ∉ (s.camera.connections ev.stream).answered.map Prod.fst := by
  intro hmem
  obtain ⟨⟨n, arguments⟩, hn, rfl⟩ := List.mem_map.mp hmem
  obtain ⟨ev', hev', hstream, hnumber, a, ha, -⟩ := hl.answered _ _ arguments hn
  obtain rfl := hl'.numbers ev' (hsub ev' hev') ev hev hstream hnumber
  exact hfirst a (htag ▸ ha)

theorem served_gateway (hl : Linked J env s gh) {e : CameraGateway.Event}
    {r : CameraGateway × List CameraGateway.Output} (hstep : s.gateway.step env e = some r) :
    Served J env s gh (s.withGateway J r).1 (s.withGateway J r).2 := by
  have hfirst : Served J env s gh { s with gateway := r.1 } (r.2.map .gateway) := by
    refine ⟨?_, answers_same rfl (links_map_gateway _), ?_, ?_⟩
    · rw [gatewayOutputs_map_gateway]
      exact linked_gateway hl hstep
    · rw [deliveries_map_gateway, List.append_nil]
    · rw [links_map_gateway]
      exact nofun
  refine hfirst.trans (served_acknowledge hfirst.linked ?_)
  rw [gatewayOutputs_map_gateway]
  rcases acks_step hl hstep with hnone | ⟨tag, a, hack, hnew⟩
  · exact .inl hnone
  · refine .inr ⟨tag, a, hack, ?_,
      fun ev hev htag => not_answered hl hl (fun _ h => h) hnew hev htag⟩
    rw [CameraGateway.acks_append, hack]
    exact List.mem_append_right _ List.mem_cons_self

theorem served_close (hl : Linked J env s gh) :
    Served J env s gh (s.close J env k).1 (s.close J env k).2 := by
  have hclosed : Served J env s gh (s.setStream k { s.streams k with closed := true }) [] :=
    served_setStream hl k _ rfl (.inr rfl)
  rw [close]
  cases hstep : (s.streams k).socket.bind fun sid => s.gateway.step env (.disconnect sid) with
  | none => simpa [hstep] using hclosed
  | some r =>
      obtain ⟨sid, -, hsid⟩ := Option.bind_eq_some_iff.mp hstep
      have hserved := hclosed.trans (served_gateway hclosed.linked hsid)
      simpa [hstep] using hserved

theorem served_onConnect (hl : Linked J env s gh) (hk : k ≤ s.camera.opened) (auth : AuthJson)
    (session : Bytes) :
    Served J env s gh (s.onConnect J env k auth session).1
      (s.onConnect J env k auth session).2 := by
  have happroval : (approval session).isAck = false := by
    simp only [approval, Message.isAck, Message.startsWith]
    rfl
  have hput := served_put hl hk happroval
  let r := s.gateway.connectClient env (handshake auth)
  let st : Stream := { s.streams k with
    socket := some s.gateway.sockets.length
    closed := r.2.any CameraSystem.isRefusal }
  have hstream := hput.trans (served_setStream hput.linked k st rfl (.inr rfl))
  have hstep : ((s.put k (approval session)).setStream k st).gateway.step env
      (.connect (handshake auth)) = some r := rfl
  rw [onConnect]
  cases hrefused : r.2.any CameraSystem.isRefusal with
  | false =>
      have hserved := hstream.trans (served_gateway hstream.linked hstep)
      simpa [r, st, hrefused] using hserved
  | true =>
      have hleft := hstream.trans (served_put (k := k) (m := disconnectPacket) hstream.linked hk
        (by decide))
      have hserved := hleft.trans (served_gateway hleft.linked hstep)
      simpa [r, st, hrefused] using hserved

/-- A new `camera:frame` event has the next number. -/
theorem frame_arrives {g : CameraGateway} {sid : SocketId} {socket : AuthenticatedSocket}
    {payload : Option IncomingFrame} {dateNow now : Int}
    {r : CameraGateway × List CameraGateway.Output} (hsocket : g.sockets[sid]? = some socket)
    (hstep : g.step env (.frame sid payload dateNow now) = some r) :
    g.nextTag sid socket ∈ arrivals r.2 := by
  simp only [CameraGateway.step, hsocket] at hstep
  split at hstep
  · cases hstep
    exact List.mem_cons_self
  · cases hstep

/-- An attachment comes behind its descriptor: the event starts an invocation of its own. -/
theorem linked_arrival (hl : Linked J env s gh) (hk : k ≤ s.camera.opened) {frame : Frame}
    {ackId : UInt64} (hhalf : (s.streams k).descriptor = some (frame, ackId)) {sid : SocketId}
    {socket : AuthenticatedSocket} {payload : Option IncomingFrame} {dateNow now : Int}
    {r : CameraGateway × List CameraGateway.Output}
    (hsocket : s.gateway.sockets[sid]? = some socket)
    (hstep : s.gateway.step env (.frame sid payload dateNow now) = some r) :
    Linked J env
      { ((s.setStream k { s.streams k with descriptor := none }).record
          ⟨s.gateway.nextTag sid socket, k, (s.camera.connections k).received - 1, frame, ackId⟩)
        with gateway := r.1 } (gh ++ r.2) := by
  obtain ⟨n, hreceived, hdescriptor, hbelow⟩ := hl.half k frame ackId hhalf
  have hn : (s.camera.connections k).received - 1 = n := by omega
  have hl' := linked_gateway (served_setStream hl k { s.streams k with descriptor := none } rfl
    (.inl rfl)).linked hstep
  rw [gatewayOutputs, List.filterMap_nil, List.append_nil] at hl'
  -- the invocation is new
  have hfresh : ∀ ev ∈ s.events, ev.tag ≠ s.gateway.nextTag sid socket := by
    intro ev hev heq
    obtain ⟨es, hes⟩ := hl.run
    have hlt := (CameraGateway.answered_run hes).numbered ev.tag (hl.arrived ev hev)
    rw [heq] at hlt
    exact Nat.lt_irrefl _ hlt
  have hlast : ∀ ev ∈ s.events, ¬ (ev.stream = k ∧ ev.number = n) := by
    rintro ev hev ⟨hstream, hnumber⟩
    have hlt := hbelow ev hev hstream
    omega
  rw [hn]
  refine ⟨hl'.run, ?_, ?_, ?_, ?_, ?_, hl'.queue, ?_, ?_, ?_⟩
  · intro ev hev
    rcases List.mem_append.mp hev with hold | hnew
    · exact hl'.arrived ev hold
    · obtain rfl := List.mem_singleton.mp hnew
      rw [CameraGateway.arrivals_append]
      exact List.mem_append_right _ (frame_arrives hsocket hstep)
  · intro ev hev
    rcases List.mem_append.mp hev with hold | hnew
    · exact hl.opened ev hold
    · obtain rfl := List.mem_singleton.mp hnew
      exact hk
  · intro ev hev
    rcases List.mem_append.mp hev with hold | hnew
    · exact hl.descriptor ev hold
    · obtain rfl := List.mem_singleton.mp hnew
      exact hdescriptor
  · intro ev hev
    rcases List.mem_append.mp hev with hold | hnew
    · exact hl.received ev hold
    · obtain rfl := List.mem_singleton.mp hnew
      show n < (s.camera.connections k).received
      omega
  · intro j frame' ackId' hj
    by_cases hjk : j = k
    · subst hjk
      have hnone := congrArg Stream.descriptor
        (setStream_streams s j { s.streams j with descriptor := none })
      cases hnone.symm.trans hj
    · obtain ⟨n', hreceived', hdescriptor', hbelow'⟩ := hl'.half j frame' ackId' hj
      refine ⟨n', hreceived', hdescriptor', ?_⟩
      intro ev hev hstream
      rcases List.mem_append.mp hev with hold | hnew
      · exact hbelow' ev hold hstream
      · obtain rfl := List.mem_singleton.mp hnew
        exact absurd hstream.symm hjk
  · intro ev hev ev' hev' heq
    rcases List.mem_append.mp hev with hold | hnew <;>
      rcases List.mem_append.mp hev' with hold' | hnew'
    · exact hl.tags ev hold ev' hold' heq
    · obtain rfl := List.mem_singleton.mp hnew'
      exact absurd heq (hfresh ev hold)
    · obtain rfl := List.mem_singleton.mp hnew
      exact absurd heq.symm (hfresh ev' hold')
    · rw [List.mem_singleton.mp hnew, List.mem_singleton.mp hnew']
  · intro ev hev ev' hev' hstream hnumber
    rcases List.mem_append.mp hev with hold | hnew <;>
      rcases List.mem_append.mp hev' with hold' | hnew'
    · exact hl.numbers ev hold ev' hold' hstream hnumber
    · obtain rfl := List.mem_singleton.mp hnew'
      exact absurd ⟨hstream, hnumber⟩ (hlast ev hold)
    · obtain rfl := List.mem_singleton.mp hnew
      exact absurd ⟨hstream.symm, hnumber.symm⟩ (hlast ev' hold')
    · rw [List.mem_singleton.mp hnew, List.mem_singleton.mp hnew']
  · intro j m arguments hm
    obtain ⟨ev, hev, hrest⟩ := hl'.answered j m arguments hm
    exact ⟨ev, List.mem_append_left _ hev, hrest⟩

theorem served_onAttachment (hl : Linked J env s gh) (hk : k ≤ s.camera.opened)
    (attachment : Frame) (dateNow now : Int) :
    Served J env s gh (s.onAttachment J env k attachment dateNow now).1
      (s.onAttachment J env k attachment dateNow now).2 := by
  simp only [onAttachment]
  split
  · next frame ackId sid hhalf hsid =>
      split
      · next socket r hsocket hstep =>
          have hlinked := linked_arrival hl hk hhalf hsocket hstep
          -- the state in which `onFrame` has run up to its first `await`
          let ev : FrameEvent := ⟨s.gateway.nextTag sid socket, k,
            (s.camera.connections k).received - 1, frame, ackId⟩
          let s₁ := (s.setStream k { s.streams k with descriptor := none }).record ev
          have hfirst : Served J env s gh { s₁ with gateway := r.1 }
              (.delivered k ev.number frame ev.tag :: r.2.map .gateway) := by
            have hlinks : links (.delivered k ev.number frame ev.tag :: r.2.map .gateway) = [] :=
              links_map_gateway r.2
            refine ⟨?_, answers_same rfl hlinks, ?_, ?_⟩
            · rw [show gatewayOutputs (.delivered k ev.number frame ev.tag :: r.2.map .gateway) =
                r.2 from gatewayOutputs_map_gateway r.2]
              exact hlinked
            · rw [show deliveries (.delivered k ev.number frame ev.tag :: r.2.map .gateway) =
                ev.delivery :: deliveries (r.2.map .gateway) from rfl, deliveries_map_gateway]
              exact List.map_append
            · rw [hlinks]
              exact nofun
          refine hfirst.trans (served_acknowledge hfirst.linked ?_)
          rw [show gatewayOutputs (.delivered k ev.number frame ev.tag :: r.2.map .gateway) =
            r.2 from gatewayOutputs_map_gateway r.2]
          rcases acks_step hl hstep with hnone | ⟨tag, a, hack, hnew⟩
          · exact .inl hnone
          · refine .inr ⟨tag, a, hack, ?_, fun ev' hev' htag => ?_⟩
            · rw [CameraGateway.acks_append, hack]
              exact List.mem_append_right _ List.mem_cons_self
            · exact not_answered hl hlinked (fun _ h => List.mem_append_left _ h) hnew hev' htag
      · exact served_close hl
  · exact served_close hl

/-- The server reads a descriptor. -/
theorem served_descriptor (hl : Linked J env s gh) (hk : k ≤ s.camera.opened) {frame : Frame}
    {ackId : UInt64} {rest : List Packet}
    (hfirst : (s.streams k).toServer = .descriptor frame ackId :: rest) :
    let r := (s.setStream k { s.streams k with toServer := rest }).onPacket J env k [] 0 0
      (.descriptor frame ackId)
    Served J env s gh r.1 r.2 := by
  intro r
  have hqueue := hl.queue k hk
  rw [hfirst, show (Packet.descriptor frame ackId :: rest).filterMap descriptorOf =
    (frame, ackId) :: rest.filterMap descriptorOf from rfl] at hqueue
  -- the next descriptor of the connection
  have hdescriptor : (s.camera.connections k).descriptors[(s.camera.connections k).received]? =
      some (frame, ackId) := by
    have hhead := congrArg List.head? hqueue
    rw [List.head?_drop] at hhead
    exact hhead
  have hlt := (List.getElem?_eq_some_iff.mp hdescriptor).1
  have hreceive : (s.camera.connections k).receive =
      some { s.camera.connections k with received := (s.camera.connections k).received + 1 } :=
    if_pos hlt
  have hconnection : r.1.camera.connections k =
      { s.camera.connections k with received := (s.camera.connections k).received + 1 } :=
    Function.update_self ..
  have hothers : ∀ j, j ≠ k → r.1.camera.connections j = s.camera.connections j ∧
      r.1.streams j = s.streams j := by
    intro j hj
    refine ⟨Function.update_of_ne hj .., ?_⟩
    exact (setStream_other _ k _ hj).trans (setStream_other s k _ hj)
  have hstream : (r.1.streams k).toServer = rest ∧
      (r.1.streams k).descriptor = some (frame, ackId) := by
    have hself : r.1.streams k = { s.streams k with
        toServer := rest, descriptor := some (frame, ackId) } := by
      simp [r, onPacket, setConnection]
    rw [hself]
    exact ⟨rfl, rfl⟩
  have hdescriptors : ∀ j, (r.1.camera.connections j).descriptors =
        (s.camera.connections j).descriptors ∧
      (r.1.camera.connections j).answered = (s.camera.connections j).answered ∧
      (s.camera.connections j).received ≤ (r.1.camera.connections j).received := by
    intro j
    by_cases hj : j = k
    · subst hj
      rw [hconnection]
      exact ⟨rfl, rfl, Nat.le_succ _⟩
    · rw [(hothers j hj).1]
      exact ⟨rfl, rfl, le_rfl⟩
  refine ⟨?_, ?_, (List.append_nil _).symm, nofun⟩
  · rw [show gatewayOutputs r.2 = [] from rfl, List.append_nil]
    refine ⟨hl.run, hl.arrived, hl.opened, ?_, ?_, ?_, ?_, hl.tags, hl.numbers, ?_⟩
    · intro ev hev
      rw [(hdescriptors _).1]
      exact hl.descriptor ev hev
    · intro ev hev
      exact (hl.received ev hev).trans_le (hdescriptors _).2.2
    · intro j frame' ackId' hj
      by_cases hjk : j = k
      · subst hjk
        rw [hstream.2] at hj
        obtain ⟨rfl, rfl⟩ := Prod.mk.inj (Option.some.inj hj)
        refine ⟨(s.camera.connections j).received, ?_, ?_, ?_⟩
        · rw [hconnection]
        · rw [(hdescriptors j).1]
          exact hdescriptor
        · intro ev hev hstream
          have hev' := hl.received ev hev
          rw [hstream] at hev'
          exact hev'
      · rw [(hothers j hjk).2] at hj
        rw [(hothers j hjk).1]
        exact hl.half j frame' ackId' hj
    · intro j hj
      by_cases hjk : j = k
      · subst hjk
        rw [hstream.1, hconnection]
        have htail := congrArg List.tail hqueue
        rw [List.tail_drop] at htail
        exact htail
      · rw [(hothers j hjk).1, (hothers j hjk).2]
        exact hl.queue j hj
    · intro j n arguments hn
      rw [(hdescriptors j).2.1] at hn
      exact hl.answered j n arguments hn
  · intro h
    refine ⟨[.receive k], ?_⟩
    have hstep : s.camera.step J.parse (.receive k) = some (r.1.camera, []) := by
      simp [AckSystem.step, AckSystem.serve, hk, hreceive, r, onPacket, setConnection]
    rw [exec_cons, next_of_step hstep]
    rfl

/-- The packets that are no descriptors. -/
theorem served_onPacket (hl : Linked J env s gh) (hk : k ≤ s.camera.opened) (session : Bytes)
    (dateNow now : Int) {packet : Packet} (hpacket : descriptorOf packet = none) :
    Served J env s gh (s.onPacket J env k session dateNow now packet).1
      (s.onPacket J env k session dateNow now packet).2 := by
  cases packet with
  | descriptor frame ackId => cases hpacket
  | pong =>
      refine ⟨?_, answers_same rfl rfl, (List.append_nil _).symm, nofun⟩
      rw [show gatewayOutputs (s.onPacket J env k session dateNow now .pong).2 = [] from rfl,
        List.append_nil]
      exact hl
  | connect auth =>
      simp only [onPacket]
      split
      · exact served_onConnect hl hk auth session
      · exact served_close hl
  | attachment frame => exact served_onAttachment hl hk frame dateNow now
  | leave => exact served_close hl

/-- The server's steps. -/
theorem served_step (hl : Linked J env s gh) {e : Event} (he : ∀ event, e ≠ .client event)
    (hstep : s.step J env e = some (s', out)) : Served J env s gh s' out := by
  cases e with
  | client event => exact absurd rfl (he event)
  | serve k session dateNow now =>
      obtain ⟨⟨hk, -⟩, hmatch⟩ := Option.ite_none_right_eq_some.mp hstep
      split at hmatch
      · cases hmatch
      · next packet rest hfirst =>
          cases hdescriptor : descriptorOf packet with
          | some d =>
              cases packet with
              | descriptor frame ackId =>
                  cases hmatch
                  exact served_descriptor hl hk hfirst
              | _ => cases hdescriptor
          | none =>
              have hmoved := served_setStream hl k { s.streams k with toServer := rest }
                (by rw [hfirst, List.filterMap_cons_none hdescriptor]) (.inr rfl)
              have hserved := hmoved.trans
                (served_onPacket hmoved.linked hk session dateNow now hdescriptor)
              rw [List.nil_append, Option.some.inj hmatch] at hserved
              exact hserved
  | send k m =>
      obtain ⟨⟨hk, -, hack, -⟩, heq⟩ := Option.ite_none_right_eq_some.mp hstep
      cases heq
      exact served_put hl hk hack
  | lost k =>
      obtain ⟨-, heq⟩ := Option.ite_none_right_eq_some.mp hstep
      have hserved : Served J env s gh (s.close J env k).1 (s.close J env k).2 := served_close hl
      rw [Option.some.inj heq] at hserved
      exact hserved
  | gateway e =>
      obtain ⟨-, hmap⟩ := Option.ite_none_right_eq_some.mp hstep
      obtain ⟨r, hr, heq⟩ := Option.map_eq_some_iff.mp hmap
      have hserved := served_gateway hl hr
      rw [heq] at hserved
      exact hserved

/-! ### The client -/

/-- Nothing here depends on what the client is doing. -/
theorem linked_client_state (hl : Linked J env s gh) (a : Application) :
    Linked J env { s with camera := { s.camera with client := a } } gh :=
  ⟨hl.run, hl.arrived, hl.opened, hl.descriptor, hl.received, hl.half, hl.queue, hl.tags,
    hl.numbers, hl.answered⟩

/-- A new connection. -/
theorem linked_opened (hl : Linked J env s gh) :
    Linked J env { s.afterWire .opened with camera := s.camera.afterWire .opened } gh := by
  let s₁ : FrameSystem := { s.afterWire .opened with camera := s.camera.afterWire .opened }
  have hnew : s₁.camera.connections (s.camera.opened + 1) = {} ∧
      s₁.streams (s.camera.opened + 1) = {} := by
    exact ⟨Function.update_self .., Function.update_self ..⟩
  have hold : ∀ j, j ≠ s.camera.opened + 1 →
      s₁.camera.connections j = s.camera.connections j ∧ s₁.streams j = s.streams j := by
    intro j hj
    exact ⟨Function.update_of_ne hj .., Function.update_of_ne hj ..⟩
  -- the events are those of the earlier connections
  have hevents : ∀ ev ∈ s.events,
      s₁.camera.connections ev.stream = s.camera.connections ev.stream := by
    intro ev hev
    have hle := hl.opened ev hev
    exact (hold _ (by omega)).1
  refine ⟨hl.run, hl.arrived, ?_, ?_, ?_, ?_, ?_, hl.tags, hl.numbers, ?_⟩
  · intro ev hev
    exact (hl.opened ev hev).trans (Nat.le_succ _)
  · intro ev hev
    rw [hevents ev hev]
    exact hl.descriptor ev hev
  · intro ev hev
    rw [hevents ev hev]
    exact hl.received ev hev
  · intro j frame ackId hj
    by_cases hjk : j = s.camera.opened + 1
    · rw [hjk, hnew.2] at hj
      cases hj
    · rw [(hold j hjk).2] at hj
      rw [(hold j hjk).1]
      exact hl.half j frame ackId hj
  · intro j hj
    by_cases hjk : j = s.camera.opened + 1
    · rw [hjk, hnew.1, hnew.2]
      rfl
    · rw [(hold j hjk).1, (hold j hjk).2]
      have hj : j ≤ s.camera.opened + 1 := hj
      exact hl.queue j (by omega)
  · intro j n arguments hn
    by_cases hjk : j = s.camera.opened + 1
    · rw [hjk, hnew.1] at hn
      cases hn
    · rw [(hold j hjk).1] at hn
      exact hl.answered j n arguments hn

/-- A packet that is handed to the stream, written or not. -/
theorem linked_wrote (hl : Linked J env s gh) (hsound : s.camera.current.Sound) (packet : Packet) :
    Linked J env { s.afterWire (.wrote packet) with
      camera := s.camera.afterWire (.wrote packet) } gh := by
  let s₁ : FrameSystem :=
    { s.afterWire (.wrote packet) with camera := s.camera.afterWire (.wrote packet) }
  have hconnection : s₁.camera.connections s.camera.opened = { s.camera.current with
      descriptors := s.camera.current.descriptors ++ (descriptorOf packet).toList } := by
    refine (Function.update_self ..).trans ?_
    cases packet <;> simp [Connection.afterWire, descriptorOf]
  have hstream : s₁.streams s.camera.opened = { s.streams s.camera.opened with
      toServer := (s.streams s.camera.opened).toServer ++ [packet] } :=
    Function.update_self ..
  have hothers : ∀ j, j ≠ s.camera.opened →
      s₁.camera.connections j = s.camera.connections j ∧ s₁.streams j = s.streams j := by
    intro j hj
    exact ⟨Function.update_of_ne hj .., Function.update_of_ne hj ..⟩
  -- the descriptors grow, and nothing else changes
  have hgrow : ∀ j, ((s₁.camera.connections j).received = (s.camera.connections j).received ∧
      (s₁.camera.connections j).answered = (s.camera.connections j).answered) ∧
      ∀ {n : Nat} {d : Frame × UInt64}, (s.camera.connections j).descriptors[n]? = some d →
        (s₁.camera.connections j).descriptors[n]? = some d := by
    intro j
    by_cases hj : j = s.camera.opened
    · subst hj
      rw [hconnection]
      refine ⟨⟨rfl, rfl⟩, fun {n d} hd => ?_⟩
      have hlt := (List.getElem?_eq_some_iff.mp hd).1
      exact (List.getElem?_append_left hlt).trans hd
    · rw [(hothers j hj).1]
      exact ⟨⟨rfl, rfl⟩, id⟩
  refine ⟨hl.run, hl.arrived, hl.opened, ?_, ?_, ?_, ?_, hl.tags, hl.numbers, ?_⟩
  · intro ev hev
    exact (hgrow _).2 (hl.descriptor ev hev)
  · intro ev hev
    exact (hl.received ev hev).trans_eq (hgrow _).1.1.symm
  · intro j frame ackId hj
    have hdescriptor : (s₁.streams j).descriptor = (s.streams j).descriptor := by
      by_cases hjk : j = s.camera.opened
      · rw [hjk, hstream]
      · rw [(hothers j hjk).2]
    obtain ⟨n, hreceived, hget, hbelow⟩ := hl.half j frame ackId (hdescriptor ▸ hj)
    exact ⟨n, (hgrow j).1.1.trans hreceived, (hgrow j).2 hget, hbelow⟩
  · intro j hj
    by_cases hjk : j = s.camera.opened
    · have hqueue := hl.queue _ (Nat.le_refl s.camera.opened)
      have hle : s.camera.current.received ≤ s.camera.current.descriptors.length := hsound.received
      rw [hjk, hconnection, hstream, List.drop_append_of_le_length hle, List.filterMap_append]
      have hlast : [packet].filterMap descriptorOf = (descriptorOf packet).toList := by
        cases h : descriptorOf packet <;> simp [h]
      rw [hlast, ← hqueue]
      rfl
    · rw [(hothers j hjk).1, (hothers j hjk).2]
      exact hl.queue j hj
  · intro j n arguments hn
    rw [(hgrow j).1.2] at hn
    exact hl.answered j n arguments hn

/-- What could not be written counts as written, on both sides. -/
theorem afterWire_writeFailed (s : FrameSystem) (packet : Packet) :
    s.afterWire (.writeFailed packet) = s.afterWire (.wrote packet) ∧
      s.camera.afterWire (.writeFailed packet) = s.camera.afterWire (.wrote packet) := by
  refine ⟨rfl, ?_⟩
  cases packet <;> rfl

theorem linked_wire (hl : Linked J env s gh) (hsound : s.camera.current.Sound) (w : WireEvent) :
    Linked J env { s.afterWire w with camera := s.camera.afterWire w } gh := by
  cases w with
  | opened => exact linked_opened hl
  | wrote packet => exact linked_wrote hl hsound packet
  | writeFailed packet =>
      obtain ⟨hserver, hcamera⟩ := afterWire_writeFailed s packet
      rw [hserver, hcamera]
      exact linked_wrote hl hsound packet
  | read m => exact linked_setConnection hl rfl rfl rfl
  | readFailed => exact linked_setConnection hl rfl rfl rfl

theorem linked_client (hl : Linked J env s gh) (hs : AckSystem.Answering s.camera)
    {e : Application.Event} (hstep : s.step J env (.client e) = some (s', out)) :
    Linked J env s' gh ∧ s'.events = s.events ∧
      ∃ o, s.camera.step J.parse (.client e) = some (s'.camera, o) ∧ out = o.map .link := by
  obtain ⟨⟨camera, o⟩, hcamera, heq⟩ := Option.map_eq_some_iff.mp hstep
  obtain ⟨rfl, rfl⟩ := Prod.mk.inj heq
  obtain ⟨r, -, -, hcases⟩ := AckSystem.client_cases hcamera
  rcases hcases with ⟨hnone, rfl, -⟩ | ⟨w, hone, rfl, -⟩
  · rw [hnone]
    exact ⟨linked_client_state hl r.1, rfl, o, hcamera, rfl⟩
  · rw [hone]
    have hwire := linked_wire hl (hs.sound _) w
    refine ⟨?_, ?_, o, hcamera, rfl⟩
    · have hlinked := linked_client_state hwire r.1
      cases w <;> exact hlinked
    · cases w <;> rfl

/-! ## What has been reported -/

/-- Every descriptor that has been reported is on its connection. -/
def Described (a : AckSystem) (h : List AckSystem.Output) : Prop :=
  ∀ k n frame, .described k n frame ∈ h → k ≤ a.opened ∧
    ∃ ackId, (a.connections k).descriptors[n]? = some (frame, ackId)

variable {a a' : AckSystem} {h : List AckSystem.Output} {o : List AckSystem.Output}

/-- Nothing is reported, and no connection loses a descriptor. -/
theorem Described.mono (hd : Described a h) (hopened : a.opened ≤ a'.opened)
    (hout : ∀ k n frame, .described k n frame ∉ o)
    (hkeep : ∀ k ≤ a.opened, ∀ (n : Nat) (d : Frame × UInt64),
      (a.connections k).descriptors[n]? = some d → (a'.connections k).descriptors[n]? = some d) :
    Described a' (h ++ o) := by
  intro k n frame hmem
  rcases List.mem_append.mp hmem with hold | hnew
  · obtain ⟨hk, ackId, hget⟩ := hd k n frame hold
    exact ⟨hk.trans hopened, ackId, hkeep k hk n _ hget⟩
  · exact absurd hnew (hout k n frame)

theorem described_serve {k : Nat} {c : Connection} (hd : Described a h)
    (hc : c.descriptors = (a.connections k).descriptors)
    (hout : ∀ k n frame, .described k n frame ∉ o) :
    Described (a.setConnection k c) (h ++ o) := by
  refine hd.mono (Nat.le_refl _) hout fun j _ n d hget => ?_
  by_cases hj : j = k
  · subst hj
    rw [connections_set, hc]
    exact hget
  · rw [connections_set_other a c hj]
    exact hget

/-- An event on the wire adds at most one descriptor, and reports it. -/
theorem described_wire (hd : Described a h) (w : WireEvent) {calls : List AckSystem.Output}
    (hcalls : ∀ k n frame, .described k n frame ∉ calls) :
    Described (a.afterWire w) (h ++ (a.reportWire w ++ calls)) := by
  have hcurrent : ∀ c : Connection, (∀ (n : Nat) (d : Frame × UInt64),
        a.current.descriptors[n]? = some d → c.descriptors[n]? = some d) →
      ∀ k ≤ a.opened, ∀ (n : Nat) (d : Frame × UInt64),
        (a.connections k).descriptors[n]? = some d →
          ((a.setConnection a.opened c).connections k).descriptors[n]? = some d := by
    intro c hc k _ n d hget
    by_cases hk : k = a.opened
    · subst hk
      rw [connections_set]
      exact hc n d hget
    · rw [connections_set_other a c hk]
      exact hget
  have hgrow : ∀ l : List (Frame × UInt64), ∀ (n : Nat) (d : Frame × UInt64),
      a.current.descriptors[n]? = some d → (a.current.descriptors ++ l)[n]? = some d := by
    intro l n d hget
    exact (List.getElem?_append_left (List.getElem?_eq_some_iff.mp hget).1).trans hget
  cases w with
  | opened =>
      refine hd.mono (Nat.le_succ _) hcalls fun k hk n d hget => ?_
      have hne : k ≠ a.opened + 1 := by omega
      rw [AckSystem.afterWire, connections_set_other _ {} hne]
      exact hget
  | read m => exact hd.mono (Nat.le_refl _) hcalls (hcurrent _ fun _ _ hget => hget)
  | readFailed => exact hd.mono (Nat.le_refl _) hcalls (hcurrent _ fun _ _ hget => hget)
  | writeFailed packet =>
      refine hd.mono (Nat.le_refl _) hcalls (hcurrent _ ?_)
      cases packet with
      | descriptor frame ackId => exact hgrow _
      | _ => exact fun _ _ hget => hget
  | wrote packet =>
      cases packet with
      | descriptor frame ackId =>
          have hbefore : Described (a.afterWire (.wrote (.descriptor frame ackId))) (h ++ []) :=
            hd.mono (Nat.le_refl _) (fun _ _ _ => List.not_mem_nil) (hcurrent _ (hgrow _))
          intro k n frame' hmem
          rcases List.mem_append.mp hmem with hold | hnew
          · exact hbefore k n frame' (List.mem_append_left _ hold)
          · rcases List.mem_append.mp hnew with hwrote | hcall
            · -- the new descriptor is the last one
              cases List.mem_singleton.mp hwrote
              refine ⟨Nat.le_refl _, ackId, ?_⟩
              simp [AckSystem.afterWire, AckSystem.setConnection, Connection.afterWire]
            · exact absurd hcall (hcalls k n frame')
      | _ => exact hd.mono (Nat.le_refl _) hcalls (hcurrent _ fun _ _ hget => hget)

theorem described_step (hd : Described a h) {parse : Bytes → Option JsonValue}
    {e : AckSystem.Event} (hstep : a.step parse e = some (a', o)) : Described a' (h ++ o) := by
  cases e with
  | client e =>
      obtain ⟨r, -, -, hcases⟩ := AckSystem.client_cases hstep
      have hcalls : ∀ k n frame, .described k n frame ∉ r.2.flatMap AckSystem.reportCall := by
        intro k n frame hmem
        obtain ⟨o, -, ho⟩ := List.mem_flatMap.mp hmem
        cases o <;> simp [AckSystem.reportCall] at ho
      rcases hcases with ⟨-, rfl, rfl⟩ | ⟨w, -, rfl, rfl⟩
      · exact hd.mono (Nat.le_refl _) hcalls fun _ _ _ _ hget => hget
      · have hwire := described_wire hd w hcalls
        cases w <;> exact hwire
  | receive k =>
      obtain ⟨c, -, hc, rfl, rfl⟩ := AckSystem.serve_cases hstep
      obtain ⟨-, heq⟩ := Option.ite_none_right_eq_some.mp hc
      cases heq
      exact described_serve hd rfl fun _ _ _ => List.not_mem_nil
  | send k m =>
      obtain ⟨c, -, hc, rfl, rfl⟩ := AckSystem.serve_cases hstep
      rw [Connection.send] at hc
      split at hc
      · cases hc
      · cases hc
        exact described_serve hd rfl fun _ _ _ => List.not_mem_nil
  | answer k n arguments =>
      obtain ⟨c, -, hc, rfl, rfl⟩ := AckSystem.serve_cases hstep
      obtain ⟨frame, ackId, -, -, -, -, rfl⟩ := answer_cases hc
      exact described_serve hd rfl (by simp)

/-! ## Runs of the system -/

variable {config : Client.Config} {es : List Event} {cfg : EventMachine.Config FrameSystem Output}
  {e : Event}

/-- The client's side of a configuration. -/
def Reported (a : EventMachine.Config AckSystem AckSystem.Output) : Prop :=
  AckSystem.Answering a.state ∧ AckSystem.Traced a.state a.history ∧ Described a.state a.history

structure Good (J : AckJson) (env : Env) (c : EventMachine.Config FrameSystem Output) : Prop where
  reported : Reported ⟨c.state.camera, links c.history⟩
  linked : Linked J env c.state (gatewayOutputs c.history)
  delivered : c.state.events.map FrameEvent.delivery = deliveries c.history

theorem reported_next {c c' : EventMachine.Config AckSystem AckSystem.Output}
    {parse : Bytes → Option JsonValue} {e : AckSystem.Event} (hc : Reported c)
    (hnext : (AckSystem.machine parse).next c e = some c') : Reported c' := by
  obtain ⟨o, hstep, hhist⟩ := next_eq_some hnext
  obtain ⟨hs, ht, hd⟩ := hc
  refine ⟨AckSystem.answering_step hs hstep, ?_, ?_⟩
  · rw [hhist]
    exact AckSystem.traced_step hs ht hstep
  · rw [hhist]
    exact described_step hd hstep

theorem good_start (J : AckJson) (env : Env) (config : Client.Config) :
    Good J env (.start (initial config)) where
  reported := ⟨AckSystem.answering_start config, AckSystem.traced_start config, nofun⟩
  linked := by
    refine ⟨⟨[], rfl⟩, nofun, nofun, nofun, nofun, nofun, fun _ _ => rfl, nofun, nofun, nofun⟩
  delivered := rfl

/-- **Refinement.** The gateway behind Socket.IO is a server that answers a descriptor at
    most once, and on its connection. -/
def ackSimulation (J : AckJson) (env : Env) :
    Simulation (machine J env) (AckSystem.machine J.parse) where
  rel c d := Good J env c ∧ d = ⟨c.state.camera, links c.history⟩
  sim := by
    rintro c e c' d ⟨hgood, rfl⟩ hnext
    obtain ⟨out, hstep, hhist⟩ := next_eq_some hnext
    by_cases he : ∃ event, e = .client event
    · -- the same step of the client
      obtain ⟨event, rfl⟩ := he
      obtain ⟨hlinked, hevents, o, hcamera, rfl⟩ :=
        linked_client hgood.linked hgood.reported.1 hstep
      have hd : (AckSystem.machine J.parse).next ⟨c.state.camera, links c.history⟩
          (.client event) = some ⟨c'.state.camera, links c'.history⟩ := by
        rw [next_of_step hcamera, hhist, links_append, links_map_link]
      refine ⟨[.client event], _, ?_, ⟨reported_next hgood.reported hd, ?_, ?_⟩, rfl⟩
      · rw [exec_cons, hd]
        rfl
      · rw [hhist, gatewayOutputs_append, gatewayOutputs_map_link, List.append_nil]
        exact hlinked
      · rw [hevents, hgood.delivered, hhist, deliveries_append, deliveries_map_link,
          List.append_nil]
    · have he : ∀ event, e ≠ .client event := fun event heq => he ⟨event, heq⟩
      have hserved := served_step hgood.linked he hstep
      obtain ⟨fs, hfs⟩ := hserved.answers (links c.history)
      rw [← links_append, ← hhist] at hfs
      refine ⟨fs, _, hfs, ⟨?_, ?_, ?_⟩, rfl⟩
      · exact exec_invariant (fun _ _ _ => reported_next) hgood.reported hfs
      · rw [hhist, gatewayOutputs_append]
        exact hserved.linked
      · rw [hserved.delivered, hgood.delivered, hhist, deliveries_append]

theorem good_next {c c' : EventMachine.Config FrameSystem Output} (hc : Good J env c)
    (hnext : (machine J env).next c e = some c') : Good J env c' := by
  obtain ⟨fs, d, -, hrel⟩ := (ackSimulation J env).sim c e c' _ ⟨hc, rfl⟩ hnext
  exact hrel.1

theorem good_run (hrun : (machine J env).exec (.start (initial config)) es = some cfg) :
    Good J env cfg :=
  exec_invariant (fun _ _ _ => good_next) (good_start J env config) hrun

/-! ## The fate of a frame -/

/-- `ack` is what the gateway has returned for the frame of the last call of `send_frame`:
    the call has written descriptor `n` of connection `k`, this has started the one
    invocation `tag` of `onFrame`, which has returned once, and the frame has been
    broadcast if and only if it was accepted. -/
def RightFate (h : List Output) (frame : Frame) (ack : Client.FrameAck) : Prop :=
  ∃ after k n tag a, AckSystem.LastCall (links h) frame after ∧ .described k n frame ∈ after ∧
    .delivered k n frame tag ∈ h ∧
    (∀ frame' tag', .delivered k n frame' tag' ∈ h → tag' = tag) ∧
    .gateway (.ack tag a) ∈ h ∧ (∀ a', .gateway (.ack tag a') ∈ h → a' = a) ∧
    ack = clientAck a ∧
    (ack.accepted = true ↔ ∃ recipients image, .gateway (.viewerFrame tag recipients image) ∈ h)

theorem mem_gatewayOutputs {o : CameraGateway.Output} {h : List Output} :
    o ∈ gatewayOutputs h ↔ .gateway o ∈ h := by
  rw [gatewayOutputs, List.mem_filterMap]
  refine ⟨?_, fun hmem => ⟨_, hmem, rfl⟩⟩
  rintro ⟨o', hmem, ho⟩
  cases o' <;> cases ho
  exact hmem

theorem mem_deliveries {k n : Nat} {frame : Frame} {tag : FrameTag} {h : List Output} :
    (k, n, frame, tag) ∈ deliveries h ↔ .delivered k n frame tag ∈ h := by
  rw [deliveries, List.mem_filterMap]
  refine ⟨?_, fun hmem => ⟨_, hmem, rfl⟩⟩
  rintro ⟨o', hmem, ho⟩
  cases o' <;> cases ho
  exact hmem

theorem Good.mem_events {c : EventMachine.Config FrameSystem Output} (hc : Good J env c) {k n : Nat}
    {frame : Frame} {tag : FrameTag} :
    .delivered k n frame tag ∈ c.history ↔
      ∃ ev ∈ c.state.events, ev.delivery = (k, n, frame, tag) := by
  rw [← mem_deliveries, ← hc.delivered, List.mem_map]

/-- The only answer of an invocation. -/
theorem ack_unique {gh : List CameraGateway.Output} (hl : Linked J env s gh) {tag : FrameTag}
    {a a' : Server.FrameAck} (h : (tag, a) ∈ acks gh) (h' : (tag, a') ∈ acks gh) : a' = a := by
  obtain ⟨es, hes⟩ := hl.run
  have hnodup := acked_nodup (CameraGateway.answered_run hes)
  exact (Prod.mk.inj (List.inj_on_of_nodup_map hnodup h' h rfl)).2

theorem fate_of_rightAck {c : EventMachine.Config FrameSystem Output} (hc : Good J env c)
    {frame : Frame} {ack : Client.FrameAck}
    (hright : AckSystem.RightAck J.parse (links c.history) frame ack) :
    RightFate c.history frame ack := by
  obtain ⟨after, k, n, arguments, hlast, hdescribed, hanswered, -, hack⟩ := hright
  -- the answered descriptor is that of an event, and the event is one of this frame
  have hrecorded := ((hc.reported.2.1.answers k n arguments).mp hanswered).2
  obtain ⟨ev, hev, rfl, rfl, a, ha, rfl⟩ := hc.linked.answered k n arguments hrecorded
  obtain ⟨before, hhistory⟩ := hlast.1
  have hdescribed' : .described ev.stream ev.number frame ∈ links c.history := by
    rw [hhistory]
    exact List.mem_append_right _ (List.mem_cons_of_mem _ hdescribed)
  obtain ⟨-, ackId, hget⟩ := hc.reported.2.2 _ _ _ hdescribed'
  obtain ⟨rfl, -⟩ : ev.frame = frame ∧ ev.ackId = ackId := by
    simpa using (hc.linked.descriptor ev hev).symm.trans hget
  rw [J.read_arguments] at hack
  obtain rfl := Option.some.inj hack
  obtain ⟨es, hes⟩ := hc.linked.run
  have hmatched := CameraGateway.matched_run hes
  refine ⟨after, ev.stream, ev.number, ev.tag, a, hlast, hdescribed,
    hc.mem_events.mpr ⟨ev, hev, rfl⟩, ?_, ?_, ?_, rfl, ?_⟩
  · intro frame' tag' hmem
    obtain ⟨ev', hev', heq⟩ := hc.mem_events.mp hmem
    obtain ⟨hstream, hnumber, -, rfl⟩ : ev'.stream = ev.stream ∧ ev'.number = ev.number ∧
        ev'.frame = frame' ∧ ev'.tag = tag' := by
      simpa [FrameEvent.delivery] using heq
    rw [hc.linked.numbers ev' hev' ev hev hstream hnumber]
  · exact mem_gatewayOutputs.mp (CameraGateway.mem_acks.mp ha)
  · intro a' hmem
    exact ack_unique hc.linked ha (CameraGateway.mem_acks.mpr (mem_gatewayOutputs.mpr hmem))
  · rw [clientAck_accepted]
    have hannounced := hmatched.announced ev.tag
    simp only [mem_gatewayOutputs] at hannounced
    rw [← hannounced]
    refine ⟨?_, ?_⟩
    · rintro rfl
      exact mem_gatewayOutputs.mp (CameraGateway.mem_acks.mp ha)
    · intro hmem
      exact (ack_unique hc.linked ha
        (CameraGateway.mem_acks.mpr (mem_gatewayOutputs.mpr hmem))).symm

/-- **ACKs tell the fate of their frames.** In every run, whatever the other clients do,
    whenever the vision service answers and whichever connections fail: what `send_frame`
    returns is what `onFrame` has returned for exactly this frame. -/
theorem acks_tell_the_fate
    (hrun : (machine J env).exec (.start (initial config)) es = some cfg) :
    Whenever (fun h o => ∀ frame ack, o = .link (.returned frame ack) → RightFate h frame ack)
      cfg.history := by
  refine exec_whenever (I := Good J env) (fun _ _ _ => good_next)
    (fun c e c' out hc hnext hhist => ?_) (good_start J env config) whenever_nil hrun
  obtain ⟨out', hstep, hhist'⟩ := next_eq_some hnext
  obtain rfl := List.append_cancel_left (hhist.symm.trans hhist')
  rintro h₁ o h₂ hsplit frame ack rfl
  by_cases he : ∃ event, e = .client event
  · obtain ⟨event, rfl⟩ := he
    obtain ⟨-, -, o, hcamera, rfl⟩ := linked_client hc.linked hc.reported.1 hstep
    have hmem : .returned frame ack ∈ o := by
      have hlink : .link (.returned frame ack) ∈ o.map Output.link := by simp [hsplit]
      simpa using hlink
    obtain ⟨rfl, hright⟩ := AckSystem.returned_right hc.reported.1 hc.reported.2.1 hcamera hmem
    obtain ⟨rfl, -⟩ : h₁ = [] ∧ h₂ = [] := by
      simpa [List.cons_eq_append_iff] using hsplit
    rw [List.append_nil]
    exact fate_of_rightAck hc hright
  · have he : ∀ event, e ≠ .client event := fun event heq => he ⟨event, heq⟩
    have hquiet := (served_step hc.linked he hstep).quiet frame ack
    have hmem : .returned frame ack ∈ links out := by
      rw [hsplit, links_append]
      exact List.mem_append_right _ List.mem_cons_self
    exact absurd hmem hquiet

/-! ### One frame -/

/-- What `JSON.stringify` prints of an answer. -/
def stringifyAck : JsonValue → Bytes
  | .array [.object [_, (_, .string reason)]] =>
      ascii "[\x7b\"accepted\":false,\"reason\":\"" ++ reason ++ ascii "\"\x7d]"
  | _ => ascii "[\x7b\"accepted\":true\x7d]"

def everyAck : List Server.FrameAck :=
  [.accepted, .rejected .unauthorized, .rejected .invalidJpeg, .rejected .backpressure,
    .rejected .processingFailed]

def parseAck (text : Bytes) : Option JsonValue :=
  (everyAck.find? fun a => stringifyAck (.array [ackObject a]) = text).map fun a =>
    .array [ackObject a]

def sampleJson : AckJson where
  stringify := stringifyAck
  parse := parseAck
  inverse := by
    have hfind : ∀ a, (everyAck.find? fun b =>
        stringifyAck (.array [ackObject b]) = stringifyAck (.array [ackObject a])) = some a := by
      intro a
      cases a with
      | accepted => decide +kernel
      | rejected reason => cases reason <;> decide +kernel
    intro a
    rw [parseAck, hfind]
    rfl
  bracket := by
    intro a
    cases a with
    | accepted => decide +kernel
    | rejected reason => cases reason <;> decide +kernel

/-- The camera `cam` presents the token `key`. -/
def keyConfig : Client.Config where
  serverUrl := ascii "http://host"
  token := ascii "key"
  cameraId := ascii "cam"

def keyFrame : Frame := ⟨7, [0xFF, 0xD8, 0xFF, 0xD9]⟩

/-- The camera connects and sends one frame, which the vision service processes. -/
def oneFrame : List Event :=
  [.client (.started true), .client .turn, .client (.resolved true), .client (.tcpConnected true),
    .client (.handshaken true), .send 1 (openPacket (ascii "\x7b\x7d")),
    .client (.read (openPacket (ascii "\x7b\x7d"))), .client .written,
    .serve 1 (ascii "\x7b\x7d") 0 0, .client (.read (approval (ascii "\x7b\x7d"))),
    .client (.frameCaptured keyFrame), .client .framePushed, .client .popped, .client .written,
    .client .written, .serve 1 [] 0 0, .serve 1 [] 1000 1000,
    .gateway (.settle ⟨0, 0, some (js "cam")⟩ (.processed (.finite 5) [] []) 1100),
    .client (.read (ackPacket 0 (stringifyAck (.array [ackObject .accepted]))))]

/-- `send_frame` has just returned this. -/
def lastReturn (h : List Output) : Option (Frame × Client.FrameAck) :=
  match h.getLast? with
  | some (.link (.returned frame ack)) => some (frame, ack)
  | _ => none

/-- In that run `send_frame` returns, and the frame has been broadcast. -/
theorem oneFrame_accepted : ∃ cfg before,
    (machine sampleJson CameraSystem.keyEnv).exec (.start (initial keyConfig)) oneFrame = some cfg ∧
      cfg.history = before ++ [.link (.returned keyFrame ⟨true, []⟩)] ∧
      RightFate before keyFrame ⟨true, []⟩ := by
  have hany : ((machine sampleJson CameraSystem.keyEnv).exec (.start (initial keyConfig))
      oneFrame).any (fun cfg => lastReturn cfg.history = some (keyFrame, ⟨true, []⟩)) = true := by
    decide +kernel
  obtain ⟨cfg, hrun, hlast⟩ := (Option.any_eq_true _ _).mp hany
  have hreturn := of_decide_eq_true hlast
  rw [lastReturn] at hreturn
  split at hreturn
  · next frame ack hlink =>
      cases hreturn
      obtain ⟨before, hsplit⟩ := List.getLast?_eq_some_iff.mp hlink
      exact ⟨cfg, before, hrun, hsplit, acks_tell_the_fate hrun before _ [] hsplit _ _ rfl⟩
  · cases hreturn

end FrameSystem

end CameraStream.Link
