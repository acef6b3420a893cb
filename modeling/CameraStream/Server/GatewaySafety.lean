/-
  CameraStream.Server.GatewaySafety

  Who may do what, and who is told: authorisation of frames and camera lists,
  the online flag of a camera against its live connections, and the recipients
  of processed frames.

  Authorisation holds in every run.  The online flag and the recipients are right
  under conditions on the sockets that are connected at the critical step, and
  each condition is exact.
-/

import CameraStream.Server.GatewayRuns

namespace CameraStream.Server.CameraGateway

open Js EventMachine

variable {env : Env} {g g' : CameraGateway} {e : Event} {out : List Output}
  {es : List Event} {cfg cfg' : Config CameraGateway Output}

/-! ## Data of a socket are for life -/

/-- `g'` knows the sockets of `g` with the same handshake, role and camera id. -/
def Persists (g g' : CameraGateway) : Prop :=
  ∀ (sid : SocketId) socket, g.sockets[sid]? = some socket →
    ∃ socket', g'.sockets[sid]? = some socket' ∧ socket'.auth = socket.auth ∧
      socket'.role = socket.role ∧ socket'.cameraId = socket.cameraId

theorem Persists.refl (g : CameraGateway) : Persists g g :=
  fun _ socket h => ⟨socket, h, rfl, rfl, rfl⟩

theorem Persists.trans {g₁ g₂ g₃ : CameraGateway} (h : Persists g₁ g₂) (h' : Persists g₂ g₃) :
    Persists g₁ g₃ := by
  intro sid socket hsocket
  obtain ⟨socket₂, hsocket₂, hauth, hrole, hid⟩ := h sid socket hsocket
  obtain ⟨socket₃, hsocket₃, hauth', hrole', hid'⟩ := h' sid socket₂ hsocket₂
  exact ⟨socket₃, hsocket₃, hauth'.trans hauth, hrole'.trans hrole, hid'.trans hid⟩

theorem lt_of_socket {sid : SocketId} {socket : AuthenticatedSocket}
    (h : g.sockets[sid]? = some socket) : sid < g.sockets.length :=
  (List.getElem?_eq_some_iff.mp h).1

/-- Giving data to a new socket does not touch the others. -/
theorem getElem?_admitted {auth : HandshakeAuth} {f : AuthenticatedSocket → AuthenticatedSocket}
    {sid : SocketId} {socket : AuthenticatedSocket} (h : g.sockets[sid]? = some socket) :
    ((g.join auth).setSocket g.sockets.length f).sockets[sid]? = some socket := by
  have hne : sid ≠ g.sockets.length := Nat.ne_of_lt (lt_of_socket h)
  rw [getElem?_setSocket, getElem?_join, if_neg hne, if_neg hne, h]

theorem persists_leave (client : SocketId) :
    Persists g (g.setSocket client fun s => { s with connected := false }) := by
  intro sid socket hsocket
  rw [getElem?_setSocket, hsocket]
  split
  · exact ⟨_, rfl, rfl, rfl, rfl⟩
  · exact ⟨socket, rfl, rfl, rfl, rfl⟩

theorem persists_step (h : Step env g e g' out) : Persists g g' := by
  cases h with
  | camera | viewer | refused =>
      exact fun sid socket hsocket => ⟨socket, getElem?_admitted hsocket, rfl, rfl, rfl⟩
  | threw auth =>
      intro sid socket hsocket
      rw [getElem?_join, if_neg (Nat.ne_of_lt (lt_of_socket hsocket))]
      exact ⟨socket, hsocket, rfl, rfl, rfl⟩
  | cameraLeft client | otherLeft client => exact persists_leave client
  | _ => exact Persists.refl g

theorem persists_run (hok : Ok env cfg.state) (hrun : (machine env).exec cfg es = some cfg') :
    Persists cfg.state cfg'.state := by
  refine exec_rel (I := fun c => Ok env c.state) (R := fun a b => Persists a.state b.state)
    (fun c => Persists.refl c.state) (fun _ _ _ h h' => h.trans h')
    (fun _ _ _ => ok_next) (fun c e c' _ hnext => ?_) hok hrun
  obtain ⟨out, hstep, -⟩ := next_step hnext
  exact persists_step hstep

/-! ## Authorisation -/

/-- Socket `sid` is camera `c`, connected or not. -/
def IsCamera (g : CameraGateway) (sid : SocketId) (c : JsString) : Prop :=
  ∃ socket, g.sockets[sid]? = some socket ∧ socket.role = some .camera ∧
    socket.cameraId = some c

def IsViewer (g : CameraGateway) (sid : SocketId) : Prop :=
  ∃ socket, g.sockets[sid]? = some socket ∧ socket.role = some .viewer

theorem Persists.isCamera {sid : SocketId} {c : JsString} (h : Persists g g')
    (hcam : IsCamera g sid c) : IsCamera g' sid c := by
  obtain ⟨socket, hsocket, hrole, hid⟩ := hcam
  obtain ⟨socket', hsocket', -, hrole', hid'⟩ := h sid socket hsocket
  exact ⟨socket', hsocket', hrole'.trans hrole, hid'.trans hid⟩

theorem Persists.isViewer {sid : SocketId} (h : Persists g g') (hview : IsViewer g sid) :
    IsViewer g' sid := by
  obtain ⟨socket, hsocket, hrole⟩ := hview
  obtain ⟨socket', hsocket', -, hrole', -⟩ := h sid socket hsocket
  exact ⟨socket', hsocket', hrole'.trans hrole⟩

/-- What an output needs its socket to be. -/
def Entitled (g : CameraGateway) : Output → Prop
  | .acceptFrame tag c => IsCamera g tag.socket c
  | .viewerFrame tag _ frame => IsCamera g tag.socket frame.cameraId
  | .cameraList client _ => IsViewer g client
  | _ => True

theorem Persists.entitled {o : Output} (h : Persists g g') (ho : Entitled g o) :
    Entitled g' o := by
  cases o with
  | acceptFrame => exact h.isCamera ho
  | viewerFrame => exact h.isCamera ho
  | cameraList => exact h.isViewer ho
  | _ => trivial

/-- A suspended call works for the socket whose frame started it. -/
def CallEntitled (g : CameraGateway) (call : Call FrameTag) : Prop :=
  IsCamera g call.caller.socket call.cameraId

/-- The history and the suspended calls respect the entitlements. -/
structure Authorised (env : Env) (cfg : Config CameraGateway Output) : Prop where
  ok : Ok env cfg.state
  history : ∀ o ∈ cfg.history, Entitled cfg.state o
  calls : ∀ call ∈ cfg.state.cameras.calls, CallEntitled cfg.state call

theorem isCamera_of_socket {client : SocketId} {socket : AuthenticatedSocket} {c : JsString}
    (hsocket : g.sockets[client]? = some socket) (hcamera : socket.asCamera = some c) :
    IsCamera g client c :=
  ⟨socket, hsocket, asCamera_eq_some hcamera⟩

theorem calls_entitled_step (hcalls : ∀ call ∈ g.cameras.calls, CallEntitled g call)
    (h : Step env g e g' out) : ∀ call ∈ g'.cameras.calls, CallEntitled g' call := by
  intro call hcall
  have hpersists := persists_step h
  obtain hold | ⟨client, socket, hsocket, hcamera, hcaller, -⟩ := calls_step h hcall
  · -- its socket was entitled when the frame came, and still is
    exact hpersists.isCamera (hcalls call hold)
  · apply hpersists.isCamera
    rw [hcaller]
    exact isCamera_of_socket hsocket hcamera

/-- What a step emits, its socket is entitled to. -/
theorem entitled_step (hok : Ok env g)
    (hcalls : ∀ call ∈ g.cameras.calls, CallEntitled g call) (h : Step env g e g' out) :
    ∀ o ∈ out, Entitled g' o := by
  intro o ho
  have hpersists := persists_step h
  cases h with
  | viewer auth hshake =>
      -- the list goes to the socket that has just become a viewer
      obtain rfl := List.mem_singleton.mp ho
      refine ⟨{ auth := auth, role := some .viewer }, ?_, rfl⟩
      simp only [admitViewer, getElem?_setSocket, if_pos, getElem?_join_new]
      rfl
  | frameRefused client socket c _ _ _ _ _ hsocket _ hcamera =>
      have hcam := hpersists.isCamera (isCamera_of_socket hsocket hcamera)
      simp only [List.mem_cons, List.not_mem_nil, or_false] at ho
      obtain rfl | rfl | rfl | rfl := ho
      · trivial
      · exact hcam
      · trivial
      · trivial
  | frameStarted client socket c _ _ _ _ _ hsocket _ hcamera =>
      have hcam := hpersists.isCamera (isCamera_of_socket hsocket hcamera)
      simp only [List.mem_cons, List.not_mem_nil, or_false] at ho
      obtain rfl | rfl | rfl := ho
      · trivial
      · exact hcam
      · trivial
  | processed tag call reply now frame hcall hsucc hframe =>
      obtain ⟨hmem, rfl⟩ := CameraService.findCall_eq_some hcall
      have hcam := hcalls call hmem
      simp only [List.mem_cons, List.not_mem_nil, or_false] at ho
      obtain rfl | rfl | rfl := ho
      · trivial
      · -- the frame comes back under the id that the call was made with
        rw [CallEntitled, ← (hok.tagged call hmem).2, ← hframe] at hcam
        exact hpersists.isCamera hcam
      · trivial
  | failed =>
      simp only [List.mem_cons, List.not_mem_nil, or_false] at ho
      obtain rfl | rfl := ho <;> trivial
  | frameRejected =>
      simp only [List.mem_cons, List.not_mem_nil, or_false] at ho
      obtain rfl | rfl := ho <;> trivial
  | otherLeft => simp at ho
  | _ =>
      obtain rfl := List.mem_singleton.mp ho
      trivial

theorem authorised_next (h : Authorised env cfg) (hnext : (machine env).next cfg e = some cfg') :
    Authorised env cfg' := by
  obtain ⟨out, hstep, hhist⟩ := next_step hnext
  refine ⟨ok_step h.ok hstep, fun o ho => ?_, calls_entitled_step h.calls hstep⟩
  rw [hhist] at ho
  rcases List.mem_append.mp ho with hold | hnew
  · -- roles only accumulate, so old outputs stay justified
    exact (persists_step hstep).entitled (h.history o hold)
  · exact entitled_step h.ok h.calls hstep o hnew

theorem authorised_run (hrun : (machine env).exec (.start {}) es = some cfg) :
    Authorised env cfg :=
  exec_invariant (fun _ _ _ => authorised_next)
    ⟨ok_empty, by simp, fun _ h => by simp at h⟩ hrun

theorem Ok.camera_handshake (hok : Ok env g) {sid : SocketId} {c : JsString}
    (h : IsCamera g sid c) :
    ∃ socket, g.sockets[sid]? = some socket ∧ CameraHandshake env socket.auth c := by
  obtain ⟨socket, hsocket, hrole, hid⟩ := h
  exact ⟨socket, hsocket, (hok.sockets hsocket).camera hrole hid⟩

/-- Without a configured camera token nobody is a camera. -/
theorem Ok.no_camera (hok : Ok env g) (htoken : env.cameraToken = none ∨ env.cameraToken = some [])
    {sid : SocketId} {c : JsString} : ¬ IsCamera g sid c := by
  intro h
  obtain ⟨socket, -, hshake⟩ := hok.camera_handshake h
  obtain ⟨token, configured, -, hconf, hne, -⟩ := hshake.token
  rcases htoken with hnone | hempty
  · rw [hnone] at hconf
    cases hconf
  · rw [hempty] at hconf
    exact hne (Option.some.inj hconf).symm

/-- **Authorisation.** In every run: `acceptFrame` is called with id `c` only for a
    socket with the handshake of camera `c`; without a camera token no socket has
    the role of a camera; camera lists go to sockets with the handshake of a viewer;
    what a socket was granted never changes afterwards; and a broadcast frame
    carries the camera id of the socket that sent it. -/
theorem frames_are_authorised (hrun : (machine env).exec (.start {}) es = some cfg) :
    (∀ tag c, .acceptFrame tag c ∈ cfg.history →
      ∃ socket, cfg.state.sockets[tag.socket]? = some socket ∧
        CameraHandshake env socket.auth c) ∧
    (env.cameraToken = none ∨ env.cameraToken = some [] →
      ∀ (sid : SocketId) socket, cfg.state.sockets[sid]? = some socket →
        socket.role ≠ some .camera) ∧
    (∀ client states, .cameraList client states ∈ cfg.history →
      ∃ socket, cfg.state.sockets[client]? = some socket ∧ socket.role = some .viewer ∧
        ViewerHandshake env socket.auth) ∧
    (∀ es' cfg', (machine env).exec cfg es' = some cfg' → Persists cfg.state cfg'.state) ∧
    (∀ tag recipients frame, .viewerFrame tag recipients frame ∈ cfg.history →
      IsCamera cfg.state tag.socket frame.cameraId) ∧
    (∀ call ∈ cfg.state.cameras.calls, call.form.cameraId = call.cameraId ∧
      IsCamera cfg.state call.caller.socket call.cameraId) := by
  have h := authorised_run hrun
  refine ⟨fun tag c hmem => h.ok.camera_handshake (h.history _ hmem),
    fun htoken sid socket hsocket hrole => ?_, fun client states hmem => ?_,
    fun es' cfg' hrun' => persists_run h.ok hrun',
    fun tag recipients frame hmem => h.history _ hmem,
    fun call hmem => ⟨(h.ok.tagged call hmem).2, h.calls call hmem⟩⟩
  · -- a camera role goes with a handshake that needs a token
    have hok := h.ok.sockets hsocket
    rw [SocketOk, hrole] at hok
    obtain ⟨c, hid, -⟩ := hok
    exact h.ok.no_camera htoken ⟨socket, hsocket, hrole, hid⟩
  · obtain ⟨socket, hsocket, hrole⟩ := h.history _ hmem
    exact ⟨socket, hsocket, hrole, (h.ok.sockets hsocket).viewer hrole⟩

/-- The sample run calls `acceptFrame`, for a socket with a camera handshake. -/
theorem sample_frames_authorised :
    ∃ cfg, (machine sampleEnv).exec (.start {}) sampleRun = some cfg ∧
      ∃ tag c, .acceptFrame tag c ∈ cfg.history ∧
        ∃ socket, cfg.state.sockets[tag.socket]? = some socket ∧
          CameraHandshake sampleEnv socket.auth c := by
  have hcalled : ((machine sampleEnv).exec (.start {}) sampleRun).any (fun cfg =>
      cfg.history.any fun | .acceptFrame .. => true | _ => false) = true := by
    decide +kernel
  obtain ⟨cfg, hrun, h⟩ := (Option.any_eq_true _ _).mp hcalled
  obtain ⟨o, hmem, ho⟩ := List.any_eq_true.mp h
  cases o with
  | acceptFrame tag c => exact ⟨cfg, hrun, tag, c, hmem, (frames_are_authorised hrun).1 tag c hmem⟩
  | _ => cases ho

/-! ## Online status -/

/-- Socket `sid` is connected and authenticated as camera `c`. -/
def LiveCamera (g : CameraGateway) (sid : SocketId) (c : JsString) : Prop :=
  ∃ socket, g.sockets[sid]? = some socket ∧ socket.connected = true ∧
    socket.role = some .camera ∧ socket.cameraId = some c

/-- `list()` reports a camera as connected exactly when it has a live socket. -/
def OnlineAgrees (cfg : Config CameraGateway Output) : Prop :=
  ∀ c, (∃ st ∈ cfg.state.cameras.list, st.cameraId = c ∧ st.connected = true) ↔
    ∃ sid, LiveCamera cfg.state sid c

/-- A camera socket leaves only as the last live socket of its camera. -/
def LeavesLast (cfg : Config CameraGateway Output) : Event → Prop
  | .disconnect client =>
      ∀ c, LiveCamera cfg.state client c →
        ∀ other, other ≠ client → ¬ LiveCamera cfg.state other c
  | _ => True

/-- A socket that joins becomes live under the id it was given, if any. -/
theorem liveCamera_admitted {auth : HandshakeAuth} {f : AuthenticatedSocket → AuthenticatedSocket}
    {sid : SocketId} {c : JsString} :
    LiveCamera ((g.join auth).setSocket g.sockets.length f) sid c ↔
      LiveCamera g sid c ∨ sid = g.sockets.length ∧ (f { auth := auth }).connected = true ∧
        (f { auth := auth }).role = some .camera ∧ (f { auth := auth }).cameraId = some c := by
  rw [LiveCamera, LiveCamera, getElem?_setSocket, getElem?_join]
  by_cases hsid : sid = g.sockets.length
  · rw [if_pos hsid, if_pos hsid]
    simp [hsid]
  · rw [if_neg hsid, if_neg hsid]
    simp [hsid]

theorem liveCamera_admitCamera {auth : HandshakeAuth} {sid : SocketId} {c k : JsString} :
    LiveCamera ((g.join auth).admitCamera g.sockets.length c).1 sid k ↔
      LiveCamera g sid k ∨ sid = g.sockets.length ∧ c = k := by
  refine Iff.trans (liveCamera_admitted (f := fun s =>
    { s with role := some .camera, cameraId := some c })) ?_
  simp

theorem liveCamera_admitViewer {auth : HandshakeAuth} {sid : SocketId} {k : JsString} :
    LiveCamera ((g.join auth).admitViewer g.sockets.length).1 sid k ↔ LiveCamera g sid k := by
  refine Iff.trans (liveCamera_admitted (f := fun s => { s with role := some .viewer })) ?_
  simp

theorem liveCamera_disconnectClient {auth : HandshakeAuth} {sid : SocketId} {k : JsString} :
    LiveCamera ((g.join auth).disconnectClient g.sockets.length).1 sid k ↔
      LiveCamera g sid k := by
  refine Iff.trans (liveCamera_admitted (f := fun s => { s with connected := false })) ?_
  simp

theorem liveCamera_join {auth : HandshakeAuth} {sid : SocketId} {k : JsString} :
    LiveCamera (g.join auth) sid k ↔ LiveCamera g sid k := by
  rw [LiveCamera, LiveCamera, getElem?_join]
  by_cases hsid : sid = g.sockets.length
  · rw [if_pos hsid]
    simp [hsid]
  · rw [if_neg hsid]

theorem liveCamera_leave {client sid : SocketId} {c : JsString} :
    LiveCamera (g.setSocket client fun s => { s with connected := false }) sid c ↔
      sid ≠ client ∧ LiveCamera g sid c := by
  rw [LiveCamera, LiveCamera, getElem?_setSocket]
  by_cases hsid : sid = client
  · rw [if_pos hsid]
    simp only [hsid, ne_eq, not_true_eq_false, false_and, iff_false]
    rintro ⟨socket, hsocket, hconn, -⟩
    obtain ⟨socket', -, rfl⟩ := Option.map_eq_some_iff.mp hsocket
    cases hconn
  · rw [if_neg hsid]
    simp [hsid]

theorem liveCamera_congr (h : g'.sockets = g.sockets) {sid : SocketId} {c : JsString} :
    LiveCamera g' sid c ↔ LiveCamera g sid c := by
  rw [LiveCamera, LiveCamera, h]

/-- The agreement, in terms of the entries. -/
theorem onlineAgrees_iff (hok : Ok env cfg.state) :
    OnlineAgrees cfg ↔
      ∀ c, cfg.state.cameras.online c = true ↔ ∃ sid, LiveCamera cfg.state sid c :=
  forall_congr' fun _ => iff_congr (CameraService.online_iff hok.cameras) Iff.rfl

section Leaving

variable {client : SocketId} {socket : AuthenticatedSocket} {c : JsString}

theorem liveCamera_of_asCamera (hsocket : g.sockets[client]? = some socket)
    (hconn : socket.connected = true) (hcamera : socket.asCamera = some c) :
    LiveCamera g client c :=
  ⟨socket, hsocket, hconn, asCamera_eq_some hcamera⟩

/-- A socket is live for its own camera only. -/
theorem liveCamera_own (hsocket : g.sockets[client]? = some socket)
    (hcamera : socket.asCamera = some c) {k : JsString} (hlive : LiveCamera g client k) :
    k = c := by
  obtain ⟨socket', hsocket', -, -, hid⟩ := hlive
  rw [hsocket] at hsocket'
  cases hsocket'
  rw [(asCamera_eq_some hcamera).2] at hid
  exact (Option.some.inj hid).symm

/-- A viewer, or a socket without a role, is nobody's camera. -/
theorem not_liveCamera (hok : Ok env g) (hsocket : g.sockets[client]? = some socket)
    (hcamera : socket.asCamera = none) (k : JsString) : ¬ LiveCamera g client k := by
  rintro ⟨socket', hsocket', -, hrole, hid⟩
  rw [hsocket] at hsocket'
  cases hsocket'
  rw [(hok.sockets hsocket).asCamera_eq hrole, hid] at hcamera
  cases hcamera

/-- When a camera's socket leaves, the flags and the live sockets stay in agreement exactly
    when no other socket is live for the camera. -/
theorem onlineAgrees_leave_iff (hok : Ok env g)
    (hagree : ∀ c, g.cameras.online c = true ↔ ∃ sid, LiveCamera g sid c)
    (hsocket : g.sockets[client]? = some socket) (hconn : socket.connected = true)
    (hcamera : socket.asCamera = some c) {history : List Output} :
    (∀ k, (g.cameras.disconnect c).online k = true ↔
        ∃ sid, sid ≠ client ∧ LiveCamera g sid k) ↔
      LeavesLast ⟨g, history⟩ (.disconnect client) := by
  have hclient := liveCamera_of_asCamera hsocket hconn hcamera
  simp only [CameraService.online_disconnect hok.cameras]
  refine ⟨?_, ?_⟩
  · -- the flag of `c` is down now, so no other socket of `c` may be live
    intro hafter k hk other hne hother
    obtain rfl := liveCamera_own hsocket hcamera hk
    have hdown := (hafter k).mpr ⟨other, hne, hother⟩
    rw [if_pos rfl] at hdown
    cases hdown
  · intro hlast k
    by_cases hk : k = c
    · subst hk
      rw [if_pos rfl]
      refine iff_of_false (by simp) ?_
      rintro ⟨sid, hne, hsid⟩
      exact hlast k hclient sid hne hsid
    · -- the other cameras lose no socket
      rw [if_neg hk, hagree k]
      refine exists_congr fun sid => ⟨fun hsid => ⟨?_, hsid⟩, And.right⟩
      rintro rfl
      exact hk (liveCamera_own hsocket hcamera hsid)

end Leaving

theorem onlineAgrees_step_iff (hok : Ok env g)
    (hagree : ∀ c, g.cameras.online c = true ↔ ∃ sid, LiveCamera g sid c)
    (h : Step env g e g' out) {history : List Output} :
    (∀ c, g'.cameras.online c = true ↔ ∃ sid, LiveCamera g' sid c) ↔
      LeavesLast ⟨g, history⟩ e := by
  cases h with
  | camera auth c hshake =>
      refine iff_of_true (fun k => ?_) trivial
      have honline : ((g.join auth).admitCamera g.sockets.length c).1.cameras.online k =
          if k = c then true else g.cameras.online k :=
        CameraService.online_connect hok.cameras
      simp only [honline, liveCamera_admitCamera]
      by_cases hk : k = c
      · subst hk
        rw [if_pos rfl]
        exact iff_of_true rfl ⟨_, .inr ⟨rfl, rfl⟩⟩
      · simp [hk, Ne.symm hk, hagree]
  | viewer auth hshake =>
      refine iff_of_true (fun k => ?_) trivial
      simp only [liveCamera_admitViewer]
      exact hagree k
  | refused auth =>
      refine iff_of_true (fun k => ?_) trivial
      simp only [liveCamera_disconnectClient]
      exact hagree k
  | threw auth hthrew =>
      refine iff_of_true (fun k => ?_) trivial
      simp only [liveCamera_join]
      exact hagree k
  | cameraLeft client socket c hsocket hconn hcamera =>
      have hsockets : ∀ {sid k}, LiveCamera
          { g.setSocket client fun s => { s with connected := false } with
            cameras := g.cameras.disconnect c } sid k ↔ sid ≠ client ∧ LiveCamera g sid k :=
        fun {sid k} => (liveCamera_congr rfl).trans liveCamera_leave
      simp only [hsockets]
      exact onlineAgrees_leave_iff hok hagree hsocket hconn hcamera
  | otherLeft client socket hsocket hconn hcamera =>
      have hnot := not_liveCamera hok hsocket hcamera
      refine iff_of_true (fun k => ?_) fun k hk => absurd hk (hnot k)
      refine Iff.trans (hagree k) (exists_congr fun sid => ?_)
      rw [liveCamera_leave]
      refine ⟨fun hsid => ⟨?_, hsid⟩, And.right⟩
      rintro rfl
      exact hnot k hsid
  | frameRejected => exact iff_of_true hagree trivial
  | frameRefused client socket c _ _ _ _ _ hsocket hconn hcamera =>
      -- its sender is live, so the camera is online and `ensureState` does nothing
      have honline := (hagree c).mpr ⟨client, liveCamera_of_asCamera hsocket hconn hcamera⟩
      refine iff_of_true (fun k => ?_) trivial
      rw [CameraService.online_acceptFrame hok.cameras honline]
      exact hagree k
  | frameStarted client socket c _ _ _ _ _ hsocket hconn hcamera =>
      have honline := (hagree c).mpr ⟨client, liveCamera_of_asCamera hsocket hconn hcamera⟩
      refine iff_of_true (fun k => ?_) trivial
      rw [CameraService.online_acceptFrame hok.cameras honline]
      exact hagree k
  | processed | failed =>
      refine iff_of_true (fun k => ?_) trivial
      rw [CameraService.online_resume]
      exact hagree k

/-- **Online status.** A run keeps the online flags in agreement with the live
    sockets exactly when every camera socket that leaves is the last live socket of
    its camera. -/
theorem online_agrees_iff (hrun : (machine env).exec (.start {}) es = some cfg) :
    (machine env).Throughout OnlineAgrees (.start {}) es ↔
      (machine env).Guarded LeavesLast (.start {}) es := by
  refine throughout_iff_guarded (I := fun c => Ok env c.state) (fun _ _ _ => ok_next)
    (fun c e c' hok hagree hnext => ?_) ok_empty (fun c => ?_) hrun
  · obtain ⟨out, hstep, -⟩ := next_step hnext
    rw [onlineAgrees_iff (ok_step hok hstep)]
    exact onlineAgrees_step_iff hok ((onlineAgrees_iff hok).mp hagree) hstep
  · simp [LiveCamera, CameraService.list, InsertionMap.values, InsertionMap.empty]

/-- A camera opens a second socket, and then its first socket is found dead. -/
def overlappingReconnect : List Event :=
  [.connect cameraAuth, .connect cameraAuth, .disconnect 0]

/-- The camera is reported as offline although socket 1 is live. -/
theorem overlappingReconnect_result :
    ∃ cfg, (machine sampleEnv).exec (.start {}) overlappingReconnect = some cfg ∧
      (∀ st ∈ cfg.state.cameras.list, st.connected = false) ∧
      LiveCamera cfg.state 1 (js "cam") := by
  have hstale : ((machine sampleEnv).exec (.start {}) overlappingReconnect).any (fun cfg =>
      cfg.state.cameras.list.all (fun st => !st.connected) &&
        cfg.state.sockets[1]?.any fun s =>
          s.connected && s.role = some .camera && s.cameraId = some (js "cam")) = true := by
    decide +kernel
  obtain ⟨cfg, hrun, h⟩ := (Option.any_eq_true _ _).mp hstale
  simp only [Bool.and_eq_true, List.all_eq_true, Bool.not_eq_true', Option.any_eq_true,
    decide_eq_true_eq] at h
  obtain ⟨hoffline, socket, hsocket, ⟨hconn, hrole⟩, hid⟩ := h
  exact ⟨cfg, hrun, hoffline, socket, hsocket, hconn, hrole, hid⟩

theorem stale_disconnect_hides_live_camera :
    ∃ cfg, (machine sampleEnv).exec (.start {}) overlappingReconnect = some cfg ∧
      ¬ OnlineAgrees cfg := by
  obtain ⟨cfg, hrun, hoffline, hlive⟩ := overlappingReconnect_result
  refine ⟨cfg, hrun, ?_⟩
  intro hagree
  obtain ⟨st, hmem, -, hconn⟩ := (hagree (js "cam")).mpr ⟨1, hlive⟩
  rw [hoffline st hmem] at hconn
  cases hconn

/-- That run breaks the condition at its last step. -/
theorem stale_disconnect_not_last :
    ¬ (machine sampleEnv).Guarded LeavesLast (.start {}) overlappingReconnect := by
  intro hguarded
  obtain ⟨cfg, hrun, hoffline, hlive⟩ := overlappingReconnect_result
  have hagree := (online_agrees_iff hrun).mpr hguarded _ _ List.prefix_rfl hrun (js "cam")
  obtain ⟨st, hmem, -, hconn⟩ := hagree.mpr ⟨1, hlive⟩
  rw [hoffline st hmem] at hconn
  cases hconn

/-! ## Recipients of processed frames -/

theorem mem_everyone {sid : SocketId} :
    sid ∈ g.everyone ↔ ∃ socket, g.sockets[sid]? = some socket ∧ socket.connected = true := by
  rw [everyone, List.mem_filter, List.mem_range, isConnected]
  refine ⟨?_, ?_⟩
  · rintro ⟨-, hconn⟩
    cases hsocket : g.sockets[sid]? with
    | none =>
        rw [hsocket] at hconn
        cases hconn
    | some socket =>
        rw [hsocket] at hconn
        exact ⟨socket, rfl, hconn⟩
  · rintro ⟨socket, hsocket, hconn⟩
    rw [hsocket]
    exact ⟨lt_of_socket hsocket, hconn⟩

/-- Socket `sid` is connected with the role of a viewer. -/
def LiveViewer (g : CameraGateway) (sid : SocketId) : Prop :=
  ∃ socket, g.sockets[sid]? = some socket ∧ socket.connected = true ∧
    socket.role = some .viewer

/-- Every `viewer:frame` that the event emits reaches the viewers and nobody else. -/
def ReachesViewers (env : Env) (cfg : Config CameraGateway Output) (e : Event) : Prop :=
  ∀ g' out, cfg.state.step env e = some (g', out) →
    ∀ tag recipients frame, .viewerFrame tag recipients frame ∈ out →
      ∀ sid, sid ∈ recipients ↔ LiveViewer cfg.state sid

/-- When a vision request succeeds, no connected socket has asked to be a camera and
    none has made `handleConnection` throw. -/
def OnlyViewersConnected (env : Env) (cfg : Config CameraGateway Output) : Event → Prop
  | .settle _ reply _ =>
      reply.succeeded = true → ∀ (sid : SocketId) socket, cfg.state.sockets[sid]? = some socket →
        socket.connected = true →
          socket.auth.role ≠ some (.str (js "camera")) ∧ Converts env socket.auth
  | _ => True

/-- A connected socket is a viewer unless it came as a camera or made the handler throw. -/
theorem Ok.liveViewer_iff (hok : Ok env g) {sid : SocketId} {socket : AuthenticatedSocket}
    (hsocket : g.sockets[sid]? = some socket) (hconn : socket.connected = true) :
    LiveViewer g sid ↔
      socket.auth.role ≠ some (.str (js "camera")) ∧ Converts env socket.auth := by
  have hs := hok.sockets hsocket
  refine ⟨?_, ?_⟩
  · rintro ⟨socket', hsocket', -, hrole⟩
    rw [hsocket] at hsocket'
    cases hsocket'
    exact ⟨(hs.viewer hrole).not_camera, (hs.viewer hrole).converts⟩
  · rintro ⟨hnot, hconv⟩
    refine ⟨socket, hsocket, hconn, ?_⟩
    cases hrole : socket.role with
    | none =>
        -- connected without a role: its handshake threw
        rw [SocketOk, hrole] at hs
        exact absurd hconv (hs.2 hconn)
    | some role =>
        cases role with
        | viewer => rfl
        | camera =>
            rw [SocketOk, hrole] at hs
            obtain ⟨c, -, hshake⟩ := hs
            exact absurd hshake.role hnot

theorem reachesViewers_iff (hok : Ok env cfg.state)
    (hstep : cfg.state.step env e = some (g', out)) :
    ReachesViewers env cfg e ↔ OnlyViewersConnected env cfg e := by
  have hiff : ReachesViewers env cfg e ↔ ∀ tag recipients frame,
      .viewerFrame tag recipients frame ∈ out →
        ∀ sid, sid ∈ recipients ↔ LiveViewer cfg.state sid := by
    refine ⟨fun h => h g' out hstep, fun h g'' out' hstep' => ?_⟩
    rw [hstep] at hstep'
    cases hstep'
    exact h
  rw [hiff]
  cases step_cases hstep with
  | processed tag call reply now frame hcall hsucc hframe =>
      -- the recipients are all connected sockets, whatever their roles
      have hall : (∀ sid, sid ∈ cfg.state.everyone ↔ LiveViewer cfg.state sid) ↔
          OnlyViewersConnected env cfg (.settle tag reply now) := by
        refine ⟨?_, ?_⟩
        · intro h _ sid socket hsocket hconn
          exact (hok.liveViewer_iff hsocket hconn).mp
            ((h sid).mp (mem_everyone.mpr ⟨socket, hsocket, hconn⟩))
        · intro h sid
          rw [mem_everyone]
          refine ⟨?_, ?_⟩
          · rintro ⟨socket, hsocket, hconn⟩
            exact (hok.liveViewer_iff hsocket hconn).mpr (h hsucc sid socket hsocket hconn)
          · rintro ⟨socket, hsocket, hconn, -⟩
            exact ⟨socket, hsocket, hconn⟩
      rw [← hall]
      refine ⟨?_, ?_⟩
      · intro h
        exact h tag _ frame (by simp)
      · intro h tag' recipients frame' hmem
        simp only [List.mem_cons, reduceCtorEq, Output.viewerFrame.injEq, List.not_mem_nil,
          or_false, false_or] at hmem
        obtain ⟨-, rfl, -⟩ := hmem
        exact h
  | failed tag call reply now hcall hfail =>
      exact iff_of_true (by simp) fun hsucc => by simp [hfail] at hsucc
  | camera | viewer => exact iff_of_true (by simp [admitCamera, admitViewer]) trivial
  | refused => exact iff_of_true (by simp [disconnectClient]) trivial
  | _ => exact iff_of_true (by simp) trivial

/-- **Recipients.** Every broadcast of a run reaches the viewers and nobody else
    exactly when each of them is sent while no camera, and no socket whose handshake
    threw, is connected. -/
theorem frames_reach_viewers_iff (hrun : (machine env).exec (.start {}) es = some cfg) :
    (machine env).Guarded (ReachesViewers env) (.start {}) es ↔
      (machine env).Guarded (OnlyViewersConnected env) (.start {}) es := by
  refine guarded_congr (I := fun c => Ok env c.state) (fun _ _ _ => ok_next)
    (fun c e c' hok hnext => ?_) ok_empty hrun
  obtain ⟨out, hstep, -⟩ := next_eq_some hnext
  exact reachesViewers_iff hok hstep

/-- In the sample run the processed frame comes back to the camera, socket 0. -/
theorem sampleRun_echo :
    ∃ mid g' out, (machine sampleEnv).exec (.start {}) sampleRun.dropLast = some mid ∧
      mid.state.step sampleEnv (.settle (sampleTag 0) (.processed (.finite 5) [] []) 2100) =
        some (g', out) ∧
      ¬ LiveViewer mid.state 0 ∧
      ∃ tag recipients frame, .viewerFrame tag recipients frame ∈ out ∧ 0 ∈ recipients := by
  have hecho : ((machine sampleEnv).exec (.start {}) sampleRun.dropLast).any (fun mid =>
      (mid.state.step sampleEnv (.settle (sampleTag 0) (.processed (.finite 5) [] []) 2100)).any
        fun r => mid.state.sockets[0]?.any (fun s => s.role = some .camera) &&
          r.2.any (Output.echoes 0)) = true := by
    decide +kernel
  obtain ⟨mid, hmid, h⟩ := (Option.any_eq_true _ _).mp hecho
  obtain ⟨⟨g', out⟩, hstep, h⟩ := (Option.any_eq_true _ _).mp h
  obtain ⟨hcamera, hsent⟩ := Bool.and_eq_true_iff.mp h
  obtain ⟨socket, hsocket, hrole⟩ := (Option.any_eq_true _ _).mp hcamera
  obtain ⟨o, hmem, ho⟩ := List.any_eq_true.mp hsent
  refine ⟨mid, g', out, hmid, hstep, ?_, ?_⟩
  · rintro ⟨socket', hsocket', -, hrole'⟩
    rw [hsocket] at hsocket'
    cases hsocket'
    rw [of_decide_eq_true hrole] at hrole'
    cases hrole'
  · cases o with
    | viewerFrame tag recipients frame =>
        exact ⟨tag, recipients, frame, hmem, List.contains_iff_mem.mp ho⟩
    | _ => cases ho

theorem broadcast_reaches_sending_camera :
    ¬ (machine sampleEnv).Guarded (ReachesViewers sampleEnv) (.start {}) sampleRun := by
  intro hreaches
  obtain ⟨mid, g', out, hmid, hstep, hnot, tag, recipients, frame, hmem, hin⟩ := sampleRun_echo
  exact hnot ((hreaches _ _ mid List.prefix_rfl hmid g' out hstep tag recipients frame hmem 0).mp
    hin)

/-- The sample run breaks the condition: its camera is still connected. -/
theorem sample_run_has_camera_connected :
    ¬ (machine sampleEnv).Guarded (OnlyViewersConnected sampleEnv) (.start {}) sampleRun := by
  intro hguarded
  obtain ⟨cfg, hrun⟩ := Option.isSome_iff_exists.mp
    (show ((machine sampleEnv).exec (.start {}) sampleRun).isSome = true by decide +kernel)
  have hreaches := (frames_reach_viewers_iff hrun).mpr hguarded
  obtain ⟨mid, g', out, hmid, hstep, hnot, tag, recipients, frame, hmem, hin⟩ := sampleRun_echo
  exact hnot ((hreaches _ _ mid List.prefix_rfl hmid g' out hstep tag recipients frame hmem 0).mp
    hin)

end CameraStream.Server.CameraGateway
