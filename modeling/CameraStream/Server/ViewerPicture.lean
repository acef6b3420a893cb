/-
  CameraStream.Server.ViewerPicture

  What a viewer knows about the cameras: the list it got when it connected, kept up
  to date with the status events that reached it.

  A status event is the only trace of a change of `CameraService` on the wire, so the
  two stay together exactly if no entry changes without one.  The place where one
  could is `acceptFrame`, which connects a camera that has no entry.  It never gets
  there: a socket becomes a camera by `connect`, and no entry is ever removed
  (`Registered`).
-/

import CameraStream.Server.GatewaySafety

namespace CameraStream.Server.CameraGateway

open Js EventMachine

/-! ## The picture of a viewer -/

/-- The map from camera id to `connected`. -/
abbrev Picture := JsString → Option Bool

/-- The map in the states that `list()` returns. -/
def pictureOf (states : List CameraState) : Picture :=
  fun c => (states.find? fun st => st.cameraId = c).map (·.connected)

/-- The picture of socket `v` after what it receives of one output. -/
def receive (v : SocketId) (picture : Option Picture) : Output → Option Picture
  | .cameraList client states => if client = v then some (pictureOf states) else picture
  | .cameraStatus recipients c connected =>
      if v ∈ recipients then picture.map fun p => Function.update p c (some connected)
      else picture
  | _ => picture

/-- The picture of socket `v` after a history; `none` before it has got a list. -/
def viewOf (v : SocketId) (h : List Output) : Option Picture := h.foldl (receive v) none

theorem viewOf_append (v : SocketId) (h out : List Output) :
    viewOf v (h ++ out) = out.foldl (receive v) (viewOf v h) := List.foldl_append

variable {env : Env} {g g' : CameraGateway} {e : Event} {out : List Output}
  {es : List Event} {cfg cfg' : Config CameraGateway Output}

/-- The map that `list()` gives. -/
def serverPicture (g : CameraGateway) : Picture := pictureOf g.cameras.list

theorem serverPicture_eq (hok : Ok env g) (c : JsString) :
    serverPicture g c = (g.cameras.find c).map (·.connected) := by
  rw [← CameraService.reported_eq_find hok.cameras]
  rfl

/-! ## Entries of cameras -/

/-- Every socket that is a camera has an entry. -/
def Registered (g : CameraGateway) : Prop :=
  ∀ sid c, IsCamera g sid c → (g.cameras.find c).isSome = true

/-- A camera that joins has an entry, and the others keep theirs. -/
theorem find_admitted (hok : Ok env g) (auth : HandshakeAuth) (k c : JsString) :
    ((g.join auth).admitCamera g.sockets.length k).1.cameras.find c =
      if c = k then some (g.cameras.reconnected k) else g.cameras.find c :=
  CameraService.find_connect hok.cameras

/-- Entries stay, whatever happens. -/
theorem find_isSome_step (hok : Ok env g) (h : Step env g e g' out) {c : JsString}
    (hc : (g.cameras.find c).isSome = true) : (g'.cameras.find c).isSome = true := by
  have haccept : ∀ (tag : FrameTag) (k : JsString) (frame : Buffer) (timestamp : Number)
      (now : Int),
      ((g.cameras.acceptFrame env tag k frame timestamp now).1.find c).isSome = true := by
    intro tag k frame timestamp now
    rw [CameraService.find_acceptFrame hok.cameras]
    split
    · rfl
    · exact hc
  have hresume : ∀ (call : Call FrameTag) (reply : VisionReply) (now : Int),
      ((g.cameras.resume call reply now).1.find c).isSome = true := by
    intro call reply now
    rw [CameraService.find_resume]
    split
    · rw [Option.isSome_map]
      exact hc
    · exact hc
  cases h with
  | camera auth k _ =>
      rw [find_admitted hok]
      split
      · rfl
      · exact hc
  | cameraLeft client socket k _ _ _ =>
      rw [CameraService.find_disconnect hok.cameras]
      split
      · next hk =>
          rw [Option.isSome_map, ← hk]
          exact hc
      · exact hc
  | frameRefused client socket k _ frame timestamp _ now => exact haccept _ k frame timestamp now
  | frameStarted client socket k _ frame timestamp _ now => exact haccept _ k frame timestamp now
  | processed tag call reply now _ _ _ _ => exact hresume call reply now
  | failed tag call reply now _ _ => exact hresume call reply now
  | _ => exact hc

/-- A socket that joins with a role is a camera under the id it was given, if any. -/
theorem isCamera_admitted {auth : HandshakeAuth} {f : AuthenticatedSocket → AuthenticatedSocket}
    {sid : SocketId} {c : JsString}
    (h : IsCamera ((g.join auth).setSocket g.sockets.length f) sid c) :
    IsCamera g sid c ∨
      (f { auth := auth }).role = some .camera ∧ (f { auth := auth }).cameraId = some c := by
  obtain ⟨socket, hsocket, hrole, hid⟩ := h
  rw [getElem?_setSocket, getElem?_join] at hsocket
  by_cases hsid : sid = g.sockets.length
  · rw [if_pos hsid, if_pos hsid] at hsocket
    cases hsocket
    exact .inr ⟨hrole, hid⟩
  · rw [if_neg hsid, if_neg hsid] at hsocket
    exact .inl ⟨socket, hsocket, hrole, hid⟩

theorem isCamera_leave {client sid : SocketId} {c : JsString}
    (h : IsCamera (g.setSocket client fun s => { s with connected := false }) sid c) :
    IsCamera g sid c := by
  obtain ⟨socket, hsocket, hrole, hid⟩ := h
  rw [getElem?_setSocket] at hsocket
  split at hsocket
  · obtain ⟨socket', hsocket', rfl⟩ := Option.map_eq_some_iff.mp hsocket
    exact ⟨socket', hsocket', hrole, hid⟩
  · exact ⟨socket, hsocket, hrole, hid⟩

theorem registered_step (hok : Ok env g) (hreg : Registered g) (h : Step env g e g' out) :
    Registered g' := by
  intro sid c hcam
  have hold : IsCamera g sid c → (g'.cameras.find c).isSome = true := fun hbefore =>
    find_isSome_step hok h (hreg sid c hbefore)
  cases h with
  | camera auth k _ =>
      rcases isCamera_admitted (f := fun s =>
        { s with role := some .camera, cameraId := some k }) hcam with hbefore | ⟨-, hid⟩
      · exact hold hbefore
      · -- `connect` has just made the entry
        obtain rfl : k = c := Option.some.inj hid
        rw [find_admitted hok, if_pos rfl]
        rfl
  | viewer auth _ =>
      rcases isCamera_admitted (f := fun s => { s with role := some .viewer }) hcam with
        hbefore | ⟨hrole, -⟩
      · exact hold hbefore
      · cases hrole
  | refused auth =>
      rcases isCamera_admitted (f := fun s => { s with connected := false }) hcam with
        hbefore | ⟨hrole, -⟩
      · exact hold hbefore
      · cases hrole
  | threw auth _ =>
      -- the socket stays without a role
      obtain ⟨socket, hsocket, hrole, hid⟩ := hcam
      rw [getElem?_join] at hsocket
      split at hsocket
      · cases hsocket
        cases hrole
      · exact hold ⟨socket, hsocket, hrole, hid⟩
  | cameraLeft client | otherLeft client => exact hold (isCamera_leave hcam)
  | _ => exact hold hcam

/-! ## What a step shows -/

/-- A change of the server's map is shown to everyone who is connected, as a status
    event and nothing else. -/
inductive Shows (g g' : CameraGateway) : List Output → Prop where
  | nothing {out : List Output} (hquiet : ∀ v picture, out.foldl (receive v) picture = picture)
      (hsame : serverPicture g' = serverPicture g) : Shows g g' out
  | status (c : JsString) (connected : Bool)
      (hchange : serverPicture g' = Function.update (serverPicture g) c (some connected)) :
      Shows g g' [.cameraStatus g'.everyone c connected]
  | list (hsame : serverPicture g' = serverPicture g) :
      Shows g g' [.cameraList g.sockets.length g.cameras.list]

/-- Counting a frame of a camera that has an entry changes no status. -/
theorem picture_acceptFrame (hok : Ok env g) (hreg : Registered g) {client : SocketId}
    {socket : AuthenticatedSocket} {c : JsString} (hsocket : g.sockets[client]? = some socket)
    (hcamera : socket.asCamera = some c) (tag : FrameTag) (frame : Buffer) (timestamp : Number)
    (now : Int) (k : JsString) :
    ((g.cameras.acceptFrame env tag c frame timestamp now).1.find k).map (·.connected) =
      (g.cameras.find k).map (·.connected) := by
  rw [CameraService.find_acceptFrame hok.cameras]
  split
  · next hk =>
      -- the branch of `acceptFrame` that connects is not taken
      subst hk
      have hentry := hreg client k (isCamera_of_socket hsocket hcamera)
      obtain ⟨st, hst⟩ := Option.isSome_iff_exists.mp hentry
      rw [CameraService.entryOrNew, hst]
      rfl
  · rfl

theorem picture_resume (call : Call FrameTag) (reply : VisionReply) (now : Int) (k : JsString) :
    ((g.cameras.resume call reply now).1.find k).map (·.connected) =
      (g.cameras.find k).map (·.connected) := by
  rw [CameraService.find_resume]
  split
  · rw [Option.map_map]
    rfl
  · rfl

theorem shows_step (hok : Ok env g) (hreg : Registered g) (h : Step env g e g' out) :
    Shows g g' out := by
  have hok' : Ok env g' := ok_step hok h
  -- `list()` has one entry for a camera, so that a picture is a map
  have hsame : (∀ c, (g'.cameras.find c).map (·.connected) =
      (g.cameras.find c).map (·.connected)) → serverPicture g' = serverPicture g := by
    intro hfind
    funext c
    rw [serverPicture_eq hok', serverPicture_eq hok, hfind]
  have hchange : ∀ c connected, (∀ k, (g'.cameras.find k).map (·.connected) =
      if k = c then some connected else (g.cameras.find k).map (·.connected)) →
      serverPicture g' = Function.update (serverPicture g) c (some connected) := by
    intro c connected hfind
    funext k
    rw [serverPicture_eq hok', hfind, Function.update_apply, serverPicture_eq hok]
  cases h with
  | camera auth c _ =>
      refine .status c true (hchange c true fun k => ?_)
      rw [find_admitted hok]
      split
      · rfl
      · rfl
  | viewer auth _ => exact .list (hsame fun _ => rfl)
  | refused | threw => exact .nothing (fun _ _ => rfl) (hsame fun _ => rfl)
  | cameraLeft client socket c hsocket _ hcamera recipients hrecipients =>
      subst hrecipients
      refine .status c false (hchange c false fun k => ?_)
      -- the camera that leaves has an entry, which is marked and stays
      have hentry := hreg client c (isCamera_of_socket hsocket hcamera)
      obtain ⟨st, hst⟩ := Option.isSome_iff_exists.mp hentry
      rw [CameraService.find_disconnect hok.cameras]
      split
      · rw [hst]
        rfl
      · rfl
  | otherLeft | frameRejected => exact .nothing (fun _ _ => rfl) (hsame fun _ => rfl)
  | frameRefused client socket c _ frame timestamp _ now hsocket _ hcamera _ =>
      exact .nothing (fun _ _ => rfl)
        (hsame (picture_acceptFrame hok hreg hsocket hcamera _ frame timestamp now))
  | frameStarted client socket c _ frame timestamp _ now hsocket _ hcamera _ =>
      exact .nothing (fun _ _ => rfl)
        (hsame (picture_acceptFrame hok hreg hsocket hcamera _ frame timestamp now))
  | processed tag call reply now _ _ _ _ =>
      exact .nothing (fun _ _ => rfl) (hsame (picture_resume call reply now))
  | failed tag call reply now _ _ =>
      exact .nothing (fun _ _ => rfl) (hsame (picture_resume call reply now))

/-! ## Viewers -/

/-- A new socket is a live viewer if it was given that role. -/
theorem liveViewer_admitted {auth : HandshakeAuth} {f : AuthenticatedSocket → AuthenticatedSocket}
    {v : SocketId} (h : LiveViewer ((g.join auth).setSocket g.sockets.length f) v) :
    LiveViewer g v ∨ v = g.sockets.length ∧ (f { auth := auth }).role = some .viewer := by
  obtain ⟨socket, hsocket, hconn, hrole⟩ := h
  rw [getElem?_setSocket, getElem?_join] at hsocket
  by_cases hv : v = g.sockets.length
  · rw [if_pos hv, if_pos hv] at hsocket
    cases hsocket
    exact .inr ⟨hv, hrole⟩
  · rw [if_neg hv, if_neg hv] at hsocket
    exact .inl ⟨socket, hsocket, hconn, hrole⟩

theorem liveViewer_leave {client v : SocketId}
    (h : LiveViewer (g.setSocket client fun s => { s with connected := false }) v) :
    LiveViewer g v := by
  obtain ⟨socket, hsocket, hconn, hrole⟩ := h
  rw [getElem?_setSocket] at hsocket
  split at hsocket
  · obtain ⟨socket', -, rfl⟩ := Option.map_eq_some_iff.mp hsocket
    cases hconn
  · exact ⟨socket, hsocket, hconn, hrole⟩

/-- Who becomes a viewer gets the list. -/
theorem liveViewer_step (h : Step env g e g' out) {v : SocketId} (hv : LiveViewer g' v) :
    LiveViewer g v ∨ v = g.sockets.length ∧ out = [.cameraList v g.cameras.list] := by
  cases h with
  | camera auth c _ =>
      refine .inl ((liveViewer_admitted (f := fun s =>
        { s with role := some .camera, cameraId := some c }) hv).resolve_right ?_)
      rintro ⟨-, hrole⟩
      cases hrole
  | viewer auth _ =>
      refine (liveViewer_admitted (f := fun s => { s with role := some .viewer }) hv).imp_right ?_
      rintro ⟨rfl, -⟩
      exact ⟨rfl, rfl⟩
  | refused auth =>
      rcases liveViewer_admitted (f := fun s => { s with connected := false }) hv with
        hold | ⟨-, hrole⟩
      · exact .inl hold
      · cases hrole
  | threw auth _ =>
      obtain ⟨socket, hsocket, hconn, hrole⟩ := hv
      rw [getElem?_join] at hsocket
      split at hsocket
      · cases hsocket
        cases hrole
      · exact .inl ⟨socket, hsocket, hconn, hrole⟩
  | cameraLeft | otherLeft => exact .inl (liveViewer_leave hv)
  | _ => exact .inl hv

/-- The picture of every live viewer is the server's. -/
def Follows (cfg : Config CameraGateway Output) : Prop :=
  ∀ v, LiveViewer cfg.state v → viewOf v cfg.history = some (serverPicture cfg.state)

/-- Nobody is there at the start. -/
theorem follows_start : Registered {} ∧ Follows (.start {}) := by
  refine ⟨?_, ?_⟩
  · intro sid c
    rintro ⟨socket, hsocket, -⟩
    simp at hsocket
  · intro v
    rintro ⟨socket, hsocket, -⟩
    simp at hsocket

theorem follows_next (hok : Ok env cfg.state) (hreg : Registered cfg.state)
    (hfollows : Follows cfg) (hnext : (machine env).next cfg e = some cfg') : Follows cfg' := by
  obtain ⟨out, hstep, hhist⟩ := next_step hnext
  intro v hv
  rw [hhist, viewOf_append]
  rcases liveViewer_step hstep hv with hold | ⟨rfl, hlist⟩
  · rw [hfollows v hold]
    cases shows_step hok hreg hstep with
    | nothing hquiet hsame => rw [hquiet, hsame]
    | status c connected hchange =>
        have hmem : v ∈ cfg'.state.everyone := by
          obtain ⟨socket, hsocket, hconn, -⟩ := hv
          exact mem_everyone.mpr ⟨socket, hsocket, hconn⟩
        rw [hchange]
        simp [receive, hmem]
    | list hsame =>
        -- the list is for the socket that has just come
        obtain ⟨socket, hsocket, -⟩ := hold
        have hne : cfg.state.sockets.length ≠ v := (Nat.ne_of_lt (lt_of_socket hsocket)).symm
        rw [hsame]
        simp [receive, hne]
  · have hsame : serverPicture cfg'.state = serverPicture cfg.state := by
      subst hlist
      cases shows_step hok hreg hstep with
      | nothing hquiet hsame => exact hsame
      | list hsame => exact hsame
    rw [hlist, hsame]
    simp [receive, serverPicture]

/-- Through the gateway `acceptFrame` is called for cameras that have an entry. -/
theorem acceptFrame_registered (hreg : Registered g) (h : Step env g e g' out) {tag : FrameTag}
    {c : JsString} (hmem : .acceptFrame tag c ∈ out) :
    (g.cameras.states.get? c).isSome = true := by
  have hentry : ∀ {client : SocketId} {socket : AuthenticatedSocket} {k : JsString},
      g.sockets[client]? = some socket → socket.asCamera = some k →
      (g.cameras.states.get? k).isSome = true := by
    intro client socket k hsocket hcamera
    obtain ⟨st, hst⟩ :=
      Option.isSome_iff_exists.mp (hreg client k (isCamera_of_socket hsocket hcamera))
    obtain ⟨r, hget, -⟩ := Option.bind_eq_some_iff.mp hst
    rw [hget]
    rfl
  cases h with
  | frameRefused client socket k _ _ _ _ _ hsocket _ hcamera _ =>
      obtain ⟨-, rfl⟩ : tag = g.nextTag client socket ∧ c = k := by simpa using hmem
      exact hentry hsocket hcamera
  | frameStarted client socket k _ _ _ _ _ hsocket _ hcamera _ =>
      obtain ⟨-, rfl⟩ : tag = g.nextTag client socket ∧ c = k := by simpa using hmem
      exact hentry hsocket hcamera
  | _ => simp [admitCamera, admitViewer, disconnectClient] at hmem

/-- **Viewers never drift.** In every run, the list that a connected viewer got, with the
    status events applied that it received since, is the map that `list()` gives.  From
    every state reached, `acceptFrame` is only called for a camera that has an entry, so
    that it does not connect it, and the map does not change without a status event. -/
theorem viewers_follow_cameras (hrun : (machine env).exec (.start {}) es = some cfg) :
    (∀ v, LiveViewer cfg.state v →
      viewOf v cfg.history = some (pictureOf cfg.state.cameras.list)) ∧
    ∀ e g' out, cfg.state.step env e = some (g', out) →
      (∀ tag c, .acceptFrame tag c ∈ out → (cfg.state.cameras.states.get? c).isSome = true) ∧
      (pictureOf g'.cameras.list = pictureOf cfg.state.cameras.list ∨
        ∃ recipients c connected, .cameraStatus recipients c connected ∈ out) := by
  obtain ⟨hok, hreg, hfollows⟩ : Ok env cfg.state ∧ Registered cfg.state ∧ Follows cfg := by
    refine exec_invariant (I := fun c => Ok env c.state ∧ Registered c.state ∧ Follows c)
      (fun c e c' hc hnext => ?_) ⟨ok_empty, follows_start⟩ hrun
    obtain ⟨hok, hreg, hfollows⟩ := hc
    obtain ⟨out, hstep, -⟩ := next_step hnext
    exact ⟨ok_step hok hstep, registered_step hok hreg hstep, follows_next hok hreg hfollows hnext⟩
  refine ⟨hfollows, fun e g' out hstep => ⟨fun tag c => ?_, ?_⟩⟩
  · exact acceptFrame_registered hreg (step_cases hstep)
  · cases shows_step hok hreg (step_cases hstep) with
    | nothing _ hsame => exact .inl hsame
    | status c connected _ => exact .inr ⟨_, c, connected, List.mem_singleton.mpr rfl⟩
    | list hsame => exact .inl hsame

/-- A viewer watches a camera come, send a frame and go. -/
def watchedRun : List Event :=
  [.connect viewerAuth, .connect cameraAuth, .frame 1 (some jpegPayload) 1000 1000, .disconnect 1]

/-- The viewer ends with the picture of the server: the camera is known and offline. -/
theorem watchedRun_picture : ∃ cfg,
    (machine sampleEnv).exec (.start {}) watchedRun = some cfg ∧
      pictureOf cfg.state.cameras.list (js "cam") = some false ∧
      viewOf 0 cfg.history = some (pictureOf cfg.state.cameras.list) := by
  have hany : ((machine sampleEnv).exec (.start {}) watchedRun).any (fun cfg =>
      pictureOf cfg.state.cameras.list (js "cam") = some false &&
        cfg.state.sockets[0]?.any fun s => s.connected && s.role = some .viewer) = true := by
    decide +kernel
  obtain ⟨cfg, hrun, h⟩ := (Option.any_eq_true _ _).mp hany
  obtain ⟨hpicture, hviewer⟩ := Bool.and_eq_true_iff.mp h
  obtain ⟨socket, hsocket, hs⟩ := (Option.any_eq_true _ _).mp hviewer
  obtain ⟨hconn, hrole⟩ := Bool.and_eq_true_iff.mp hs
  have hlive : LiveViewer cfg.state 0 := ⟨socket, hsocket, hconn, of_decide_eq_true hrole⟩
  exact ⟨cfg, hrun, of_decide_eq_true hpicture, (viewers_follow_cameras hrun).1 0 hlive⟩

end CameraStream.Server.CameraGateway
