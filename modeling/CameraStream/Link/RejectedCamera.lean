/-
  CameraStream.Link.RejectedCamera

  A camera whose credentials the gateway rejects: `Application::run` on one side,
  `CameraGateway` on the other, and a WebSocket between them.

  Of Socket.IO, which connects the two, three things are assumed.  A new transport
  starts with the Engine.IO open packet.  The namespace has no middleware, so that
  the approval of a namespace connect is sent before `handleConnection` runs.  And
  `client.disconnect(true)` sends the namespace disconnect and closes the
  transport.  Both sides may also see the transport fail at any time.

  The client takes the approval for the success of its authentication.  The
  refusal that follows only ends a connection that already counts as
  authenticated, so that the next attempt starts from the first backoff again.
-/

import CameraStream.Client.Reconnect
import CameraStream.Link.Handshake

namespace CameraStream.Link

open Client Server Js EventMachine

/-! ## The two sides and the transport -/

/-- A client configuration whose credentials `handleConnection` rejects, whatever
    the state of the gateway. -/
structure RejectedConfig (env : Env) where
  config : Client.Config
  rejected : ∀ auth, authJson config = some auth → ∀ (g : CameraGateway) (client : SocketId),
    g.handleConnection env client (handshake auth) = some (g.disconnectClient client)

/-- The latest WebSocket between the two, as the server has it. -/
structure Transport where
  /-- The server has not closed it. -/
  isOpen : Bool := false
  /-- The open packet has been sent. -/
  greeted : Bool := false
  /-- Namespace connects that the server has not read yet. -/
  toServer : List AuthJson := []
  /-- Messages that the client has not read yet. -/
  toClient : List Message := []

structure CameraSystem where
  client : Application
  gateway : CameraGateway
  transport : Transport := {}

inductive Event where
  /-- A step of the client. -/
  | client (event : Application.Event)
  /-- The server sends the open packet of a new transport. -/
  | greet (session : Bytes)
  /-- The server sends a ping. -/
  | ping
  /-- The server reads a namespace connect. -/
  | serve (session : Bytes)
  /-- The gateway serves another client, or a vision call settles. -/
  | gateway (event : CameraGateway.Event)

inductive Output where
  | client (output : Application.Output)
  | gateway (output : CameraGateway.Output)

/-- The Engine.IO open packet. -/
def openPacket (session : Bytes) : Message := ⟨true, ascii "0" ++ session⟩

/-- The namespace approval. -/
def approval (session : Bytes) : Message := ⟨true, ascii "40/stream," ++ session⟩

def pingPacket : Message := ⟨true, ascii "2"⟩

/-- What `client.disconnect(true)` sends. -/
def disconnectPacket : Message := ⟨true, ascii "41/stream,"⟩

namespace Transport

/-- A read returns the next message. -/
def offers (t : Transport) : Application.Event → Bool
  | .read m => t.toClient.head? = some m
  | _ => true

/-- The transport after a step of the client.  Of its packets only the namespace
    connect is kept: a camera that is turned away has left the namespace before
    the server could read the others. -/
def afterClient (t : Transport) (event : Application.Event) (out : List Application.Output) :
    Transport :=
  match event with
  | .handshaken true => { isOpen := true }
  | .read _ => { t with toClient := t.toClient.tail }
  | _ =>
      { t with
        toServer := t.toServer ++ out.filterMap fun o =>
          match o with
          | .wrote (.namespaceConnect auth) => some auth
          | _ => none }

def send (t : Transport) (m : Message) : Transport := { t with toClient := t.toClient ++ [m] }

end Transport

namespace CameraSystem

def isRefusal : CameraGateway.Output → Bool
  | .disconnected _ => true
  | _ => false

/-- The server reads `auth`: the approval goes out first, then the handler runs. -/
def serve (env : Env) (s : CameraSystem) (session : Bytes) (auth : AuthJson)
    (rest : List AuthJson) : CameraSystem × List Output :=
  let t := { s.transport with toServer := rest }.send (approval session)
  -- the socket is in the namespace when its handler runs
  let r := s.gateway.connectClient env (handshake auth)
  let t := if r.2.any isRefusal then { t.send disconnectPacket with isOpen := false } else t
  ({ s with gateway := r.1, transport := t }, r.2.map .gateway)

def step (env : Env) (parse : Bytes → Option JsonValue) (s : CameraSystem) :
    Event → Option (CameraSystem × List Output)
  | .client event =>
      if s.transport.offers event then
        (s.client.step parse event).map fun r =>
          ({ s with client := r.1, transport := s.transport.afterClient event r.2 },
            r.2.map .client)
      else none
  | .greet session =>
      if s.transport.isOpen && !s.transport.greeted then
        some
          ({ s with transport := { s.transport.send (openPacket session) with greeted := true } },
            [])
      else none
  | .ping =>
      if s.transport.isOpen && s.transport.greeted then
        some ({ s with transport := s.transport.send pingPacket }, [])
      else none
  | .serve session =>
      match s.transport.toServer with
      | auth :: rest => if s.transport.isOpen then some (s.serve env session auth rest) else none
      | [] => none
  | .gateway event =>
      (s.gateway.step env event).map fun r => ({ s with gateway := r.1 }, r.2.map .gateway)

def machine (env : Env) (parse : Bytes → Option JsonValue) :
    EventMachine CameraSystem Event Output := ⟨step env parse⟩

/-- The client of a rejected camera starts, with the server in any state. -/
def initial {env : Env} (camera : RejectedConfig env) (gateway : CameraGateway) : CameraSystem where
  client := { config := camera.config }
  gateway := gateway

/-! ## The client in the system -/

variable {env : Env} {parse : Bytes → Option JsonValue} {camera : RejectedConfig env}
  {gateway : CameraGateway} {s : CameraSystem} {e : Event} {es : List Event}
  {cfg cfg' : Config CameraSystem Output}

def Output.ofClient : Output → Option Application.Output
  | .client o => some o
  | .gateway _ => none

/-- What the client has seen and done. -/
def clientConfig (cfg : Config CameraSystem Output) : Config Application Application.Output :=
  ⟨cfg.state.client, cfg.history.filterMap Output.ofClient⟩

theorem filterMap_client (outs : List Application.Output) :
    (outs.map Output.client).filterMap Output.ofClient = outs := by
  simp [List.filterMap_map, Output.ofClient, Function.comp_def]

theorem filterMap_gateway (outs : List CameraGateway.Output) :
    (outs.map Output.gateway).filterMap Output.ofClient = [] := by
  simp [List.filterMap_map, Output.ofClient, Function.comp_def]

/-- A step of the client, in the system. -/
theorem step_client {event : Application.Event} {r : CameraSystem × List Output}
    (h : s.step env parse (.client event) = some r) :
    ∃ c out, s.client.step parse event = some (c, out) ∧
      r = ({ s with client := c, transport := s.transport.afterClient event out },
        out.map .client) := by
  obtain ⟨-, hmap⟩ := Option.ite_none_right_eq_some.mp h
  obtain ⟨⟨c, out⟩, hstep, rfl⟩ := Option.map_eq_some_iff.mp hmap
  exact ⟨c, out, hstep, rfl⟩

/-- The other steps, in the system. -/
theorem step_other {r : CameraSystem × List Output} (h : s.step env parse e = some r)
    (he : ∀ event, e ≠ .client event) :
    r.1.client = s.client ∧ r.2.filterMap Output.ofClient = [] ∧
      ∀ auth ∈ r.1.transport.toServer, auth ∈ s.transport.toServer := by
  cases e with
  | client event => exact absurd rfl (he event)
  | greet session =>
      obtain ⟨-, heq⟩ := Option.ite_none_right_eq_some.mp h
      cases heq
      exact ⟨rfl, rfl, fun _ => id⟩
  | ping =>
      obtain ⟨-, heq⟩ := Option.ite_none_right_eq_some.mp h
      cases heq
      exact ⟨rfl, rfl, fun _ => id⟩
  | serve session =>
      rw [step] at h
      split at h
      · next auth rest hqueue =>
          obtain ⟨-, heq⟩ := Option.ite_none_right_eq_some.mp h
          cases heq
          refine ⟨rfl, filterMap_gateway _, ?_⟩
          intro auth' hauth'
          rw [hqueue]
          refine List.mem_cons_of_mem auth ?_
          -- the queue loses its head, whether or not the transport closes
          rw [serve] at hauth'
          simp only [Transport.send] at hauth'
          split at hauth' <;> exact hauth'
      · cases h
  | gateway event =>
      obtain ⟨⟨g, out⟩, -, rfl⟩ := Option.map_eq_some_iff.mp h
      exact ⟨rfl, filterMap_gateway out, fun _ => id⟩

/-- A step of the system is a step of the client or leaves the client alone. -/
theorem next_client (h : (machine env parse).next cfg e = some cfg') :
    (∃ event, e = .client event ∧
      (Application.machine parse).next (clientConfig cfg) event = some (clientConfig cfg')) ∨
    ((∀ event, e ≠ .client event) ∧ clientConfig cfg' = clientConfig cfg) := by
  obtain ⟨out, hstep, hhist⟩ := next_eq_some h
  change cfg.state.step env parse e = _ at hstep
  by_cases he : ∃ event, e = .client event
  · -- the client takes the same step on its own
    obtain ⟨event, rfl⟩ := he
    obtain ⟨c, cout, hclient, heq⟩ := step_client hstep
    obtain ⟨hstate, rfl⟩ := Prod.mk.inj heq
    refine .inl ⟨event, rfl, ?_⟩
    have hnext := next_of_step (M := Application.machine parse) (c := clientConfig cfg) hclient
    rw [hnext, clientConfig, clientConfig, hstate, hhist, List.filterMap_append, filterMap_client]
  · have he : ∀ event, e ≠ .client event := fun event heq => he ⟨event, heq⟩
    obtain ⟨hclient, hout, -⟩ := step_other hstep he
    refine .inr ⟨he, ?_⟩
    rw [clientConfig, clientConfig, hclient, hhist, List.filterMap_append, hout, List.append_nil]

/-! ## The gateway refuses every attempt -/

/-- Only the credentials of the camera travel. -/
structure Presenting (camera : RejectedConfig env) (s : CameraSystem) : Prop where
  config : s.client.config = camera.config
  writing : ∀ auth, s.client.main = .writingConnect auth → authJson camera.config = some auth
  queued : ∀ auth ∈ s.transport.toServer, authJson camera.config = some auth

theorem presenting_initial (camera : RejectedConfig env) (gateway : CameraGateway) :
    Presenting camera (initial camera gateway) where
  config := rfl
  writing := by simp [initial]
  queued := by simp [initial]

theorem presenting_step {r : CameraSystem × List Output} (hs : Presenting camera s)
    (h : s.step env parse e = some r) : Presenting camera r.1 := by
  by_cases he : ∃ event, e = .client event
  · obtain ⟨event, rfl⟩ := he
    obtain ⟨c, out, hclient, rfl⟩ := step_client h
    have hfaithful := Application.step_faithful hclient
    have hconfig : c.config = camera.config := hfaithful.config.trans hs.config
    -- what the step presents was about to be written, or comes from the configuration
    have hpresents : ∀ auth, Application.Presents (c, out) auth →
        authJson camera.config = some auth := by
      intro auth hauth
      obtain hwriting | hjson := hfaithful.credentials auth hauth
      · exact hs.writing auth hwriting
      · exact hs.config ▸ hjson
    refine ⟨hconfig, fun auth hmain => hpresents auth (.inl hmain), fun auth hauth => ?_⟩
    -- a new transport starts empty, and a step writes at most one namespace connect
    have hcases : auth ∈ s.transport.toServer ∨
        .wrote (.namespaceConnect auth) ∈ out := by
      simp only [Transport.afterClient] at hauth
      split at hauth
      · simp at hauth
      · exact .inl hauth
      · obtain hold | hnew := List.mem_append.mp hauth
        · exact .inl hold
        · obtain ⟨o, ho, heq⟩ := List.mem_filterMap.mp hnew
          split at heq
          · cases heq
            exact .inr ho
          · cases heq
    obtain hold | hnew := hcases
    · exact hs.queued auth hold
    · exact hpresents auth (.inr hnew)
  · have he : ∀ event, e ≠ .client event := fun event heq => he ⟨event, heq⟩
    obtain ⟨hclient, -, hqueue⟩ := step_other h he
    refine ⟨hclient ▸ hs.config, fun auth hmain => hs.writing auth (hclient ▸ hmain), ?_⟩
    exact fun auth hauth => hs.queued auth (hqueue auth hauth)

/-- **Every attempt is refused**: whenever the server reads a namespace connect, the
    gateway disconnects the socket and the transport is closed. -/
theorem attempts_refused {session : Bytes}
    (hrun : (machine env parse).exec (.start (initial camera gateway)) es = some cfg)
    (hnext : (machine env parse).next cfg (.serve session) = some cfg') :
    ∃ client, cfg'.history = cfg.history ++ [.gateway (.disconnected client)] ∧
      cfg'.state.transport.isOpen = false := by
  have hpresenting : Presenting camera cfg.state := by
    refine exec_invariant (I := fun c => Presenting camera c.state) ?_
      (presenting_initial camera gateway) hrun
    intro c e c' hc hn
    obtain ⟨out, hstep, -⟩ := next_eq_some hn
    exact presenting_step hc hstep
  obtain ⟨out, hstep, hhist⟩ := next_eq_some hnext
  simp only [machine, step] at hstep
  split at hstep
  · next auth rest hqueue =>
      obtain ⟨-, heq⟩ := Option.ite_none_right_eq_some.mp hstep
      -- whatever is under way is what the configuration presents
      have hauth : authJson camera.config = some auth :=
        hpresenting.queued auth (hqueue ▸ List.mem_cons_self)
      have hrefused := camera.rejected auth hauth (cfg.state.gateway.join (handshake auth))
        cfg.state.gateway.sockets.length
      have hserve := Prod.mk.inj (Option.some.inj heq)
      refine ⟨cfg.state.gateway.sockets.length, ?_, ?_⟩
      · rw [hhist, ← hserve.2]
        simp [CameraGateway.connectClient, hrefused, CameraGateway.disconnectClient]
      · rw [← hserve.1]
        simp [CameraGateway.connectClient, hrefused, CameraGateway.disconnectClient, isRefusal]
  · cases hstep

/-! ## Authentication -/

/-- The step does not deliver the namespace approval to `connect`. -/
def ApprovalUnread (cfg : Config CameraSystem Output) : Event → Prop
  | .client event => ¬ cfg.state.client.ReadsApproval event
  | _ => True

/-- One step keeps the client unauthenticated exactly when no approval is read. -/
theorem unauthenticated_next (hlaw : Application.RetryLaw (clientConfig cfg))
    (hnever : Application.NeverAuthenticated (clientConfig cfg))
    (h : (machine env parse).next cfg e = some cfg') :
    Application.NeverAuthenticated (clientConfig cfg') ↔ ApprovalUnread cfg e := by
  obtain ⟨event, rfl, hclient⟩ | ⟨he, hsame⟩ := next_client h
  · exact Application.neverAuthenticated_next hlaw hnever hclient
  · have hunread : ApprovalUnread cfg e := by
      cases e with
      | client event => exact absurd rfl (he event)
      | _ => trivial
    exact iff_of_true (hsame ▸ hnever) hunread

theorem retryLaw_next (hlaw : Application.RetryLaw (clientConfig cfg))
    (h : (machine env parse).next cfg e = some cfg') :
    Application.RetryLaw (clientConfig cfg') := by
  obtain ⟨event, -, hclient⟩ | ⟨-, hsame⟩ := next_client h
  · exact Application.retryLaw_next hlaw hclient
  · exact hsame ▸ hlaw

/-- **A rejected camera stays unauthenticated exactly as long as it never reads the
    approval** that precedes the rejection: `connect` does not return, and the delays
    grow from attempt to attempt. -/
theorem unauthenticated_iff (camera : RejectedConfig env) (gateway : CameraGateway)
    (hrun : (machine env parse).exec (.start (initial camera gateway)) es = some cfg) :
    (machine env parse).Throughout (fun c => Application.NeverAuthenticated (clientConfig c))
        (.start (initial camera gateway)) es ↔
      (machine env parse).Guarded ApprovalUnread (.start (initial camera gateway)) es :=
  throughout_iff_guarded (fun _ _ _ => retryLaw_next)
    (fun _ _ _ hlaw hnever hnext => unauthenticated_next hlaw hnever hnext)
    (Application.retryLaw_start camera.config)
    (Application.neverAuthenticated_start camera.config) hrun

/-! ## A wrong token -/

/-- The server expects the token `key`. -/
def keyEnv : Env := { cameraToken := some (js "key") }

def badConfig : Client.Config where
  serverUrl := ascii "http://host"
  token := ascii "bad"
  cameraId := ascii "cam"

theorem authJson_badConfig :
    authJson badConfig = some ⟨js "camera", js "cam", js "bad"⟩ := by decide +kernel

/-- The camera `cam` presents the token `bad`. -/
def wrongToken : RejectedConfig keyEnv where
  config := badConfig
  rejected := by
    intro auth hauth g client
    rw [authJson_badConfig] at hauth
    obtain rfl := Option.some.inj hauth
    have hrole : CameraGateway.roleIs (some (.str (js "camera"))) (js "camera") = true := by
      decide +kernel
    have hid : CameraGateway.normalizeCameraId (some (.str (js "cam")))
        (keyEnv.nesting .cameraId) = some (some (js "cam")) := by
      decide +kernel
    have htoken : CameraGateway.validToken (js "bad") keyEnv.cameraToken = false := by
      decide +kernel
    simp [CameraGateway.handleConnection, handshake, stringOrEmpty, Json.toJsString, hrole, hid,
      htoken]

def bootFrame : Frame := { jpeg := [0xFF, 0xD8, 0xFF, 0xD9] }

/-- One attempt: the approval arrives, a frame is sent, and the transport ends. -/
def attempt : List Event :=
  [.client .turn, .client (.resolved true), .client (.tcpConnected true),
    .client (.handshaken true), .greet (ascii "{}"), .client (.read (openPacket (ascii "{}"))),
    .client .written, .serve (ascii "{}"), .client (.read (approval (ascii "{}"))),
    .client (.frameCaptured bootFrame), .client .framePushed, .client .popped,
    .client .written, .client .written, .client (.read disconnectPacket),
    .client (.readFailed false), .client (.delayed 0), .client .slept]

def twoAttempts : List Event := .client (.started true) :: (attempt ++ attempt)

def noJson : Bytes → Option JsonValue := fun _ => none

/-- How often the gateway has turned a socket away. -/
def refusals (history : List Output) : Nat :=
  history.countP fun o =>
    match o with
    | .gateway o => isRefusal o
    | .client _ => false

/-- Two refusals in a row, and one second of delay after each of them. -/
theorem twoAttempts_run : ∃ cfg,
    (machine keyEnv noJson).exec (.start (initial wrongToken {})) twoAttempts = some cfg ∧
      refusals cfg.history = 2 ∧ Application.waits (clientConfig cfg).history = [1000, 1000] := by
  have hany : ((machine keyEnv noJson).exec (.start (initial wrongToken {})) twoAttempts).any
      (fun c => refusals c.history = 2 ∧
        Application.waits (clientConfig c).history = [1000, 1000]) = true := by decide +kernel
  obtain ⟨cfg, hrun, h⟩ := (Option.any_eq_true _ _).mp hany
  obtain ⟨hrefusals, hwaits⟩ := of_decide_eq_true h
  exact ⟨cfg, hrun, hrefusals, hwaits⟩

/-- The second of these delays is too short. -/
theorem not_neverAuthenticated
    (hwaits : Application.waits (clientConfig cfg).history = [1000, 1000]) :
    ¬ Application.NeverAuthenticated (clientConfig cfg) := by
  intro hnever
  have hshort := hnever.delays 1 1000 (by rw [hwaits]; rfl)
  omega

/-- The rejected camera has reset its backoff: it was authenticated in between. -/
theorem rejected_camera_reconnects_fast : ∃ cfg,
    (machine keyEnv noJson).exec (.start (initial wrongToken {})) twoAttempts = some cfg ∧
      refusals cfg.history = 2 ∧ Application.waits (clientConfig cfg).history = [1000, 1000] ∧
      ¬ Application.NeverAuthenticated (clientConfig cfg) := by
  obtain ⟨cfg, hrun, hrefusals, hwaits⟩ := twoAttempts_run
  exact ⟨cfg, hrun, hrefusals, hwaits, not_neverAuthenticated hwaits⟩

/-- That run reads an approval. -/
theorem twoAttempts_read_approval :
    ¬ (machine keyEnv noJson).Guarded ApprovalUnread (.start (initial wrongToken {}))
      twoAttempts := by
  intro hguarded
  obtain ⟨cfg, hrun, -, hwaits⟩ := twoAttempts_run
  have hthroughout := (unauthenticated_iff wrongToken {} hrun).mpr hguarded
  exact not_neverAuthenticated hwaits (hthroughout twoAttempts cfg List.prefix_rfl hrun)

end CameraSystem

end CameraStream.Link
