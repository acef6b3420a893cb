/-
  CameraStream.Server.Admission

  What a handshake entitles its socket to, stated without the order in which
  `handleConnection` looks at its parts, and the proof that `handleConnection`
  grants exactly that.

  The conversions `String(token ?? '')` and `String(cameraId ?? '')` come first
  and are not guarded.  They throw on values that `JSON.parse` can produce: on an object
  with a member `toString`, and on arrays nested too deep for the call stack.  So the
  handler survives exactly the handshakes whose two values convert.
-/

import CameraStream.Server.CameraGateway

namespace CameraStream.Server.CameraGateway

open Js

variable {env : Env} {g : CameraGateway} {client : SocketId} {auth : HandshakeAuth}
  {c : JsString}

/-! ## Entitlements -/

/-- The handshake of camera `c`. -/
structure CameraHandshake (env : Env) (auth : HandshakeAuth) (c : JsString) : Prop where
  role : auth.role = some (.str (js "camera"))
  cameraId : normalizeCameraId auth.cameraId (env.nesting .cameraId) = some (some c)
  token : ∃ token configured, stringOrEmpty auth.token (env.nesting .token) = some token ∧
    env.cameraToken = some configured ∧ configured ≠ [] ∧ toUtf8 token = toUtf8 configured

/-- The handshake of a viewer; without a configured token every viewer is welcome. -/
structure ViewerHandshake (env : Env) (auth : HandshakeAuth) : Prop where
  role : auth.role = some (.str (js "viewer"))
  cameraId : auth.cameraId.convertible (env.nesting .cameraId) = true
  token : ∃ token, stringOrEmpty auth.token (env.nesting .token) = some token ∧
    (env.viewerToken = none ∨ env.viewerToken = some [] ∨
      ∃ configured, env.viewerToken = some configured ∧ toUtf8 token = toUtf8 configured)

/-- Both values that `handleConnection` converts to strings convert. -/
def Converts (env : Env) (auth : HandshakeAuth) : Prop :=
  auth.token.convertible (env.nesting .token) = true ∧
    auth.cameraId.convertible (env.nesting .cameraId) = true

theorem roleIs_iff {role : Property} {name : JsString} :
    roleIs role name = true ↔ role = some (.str name) := by
  cases role with
  | none => simp [roleIs]
  | some v => cases v <;> simp [roleIs, Json.isStr]

theorem validToken_iff {actual : JsString} {configured : Option JsString} {allowEmpty : Bool} :
    validToken actual configured allowEmpty = true ↔
      allowEmpty = true ∧ (configured = none ∨ configured = some []) ∨
      ∃ token, configured = some token ∧ token ≠ [] ∧ toUtf8 actual = toUtf8 token := by
  cases configured with
  | none => simp [validToken]
  | some token =>
      cases token with
      | nil => simp [validToken]
      | cons u rest =>
          simp only [validToken, Bool.and_eq_true, decide_eq_true_eq, Option.some.injEq,
            reduceCtorEq, or_self, and_false, false_or, exists_eq_left', ne_eq,
            not_false_eq_true, true_and]
          exact ⟨fun h => h.2, fun h => ⟨congrArg List.length h, h⟩⟩

/-- A normalised camera id is valid, hence not empty. -/
theorem isCameraId_of_normalize {v : Property} {nesting : Nat}
    (h : normalizeCameraId v nesting = some (some c)) :
    isCameraId c = true := by
  obtain ⟨s, -, hs⟩ := Option.map_eq_some_iff.mp h
  split at hs
  · next hvalid => exact Option.some.inj hs ▸ hvalid
  · cases hs

theorem CameraHandshake.ne_nil (h : CameraHandshake env auth c) : c ≠ [] := by
  intro hnil
  have hvalid := isCameraId_of_normalize h.cameraId
  rw [hnil] at hvalid
  exact absurd hvalid (by decide)

theorem normalizeCameraId_isSome (v : Property) (nesting : Nat) :
    (normalizeCameraId v nesting).isSome = v.convertible nesting := by
  rw [normalizeCameraId, Option.isSome_map]
  exact stringOrEmpty_isSome v nesting

theorem CameraHandshake.converts (h : CameraHandshake env auth c) : Converts env auth := by
  obtain ⟨token, -, htoken, -⟩ := h.token
  refine ⟨?_, ?_⟩
  · rw [← stringOrEmpty_isSome, htoken]
    rfl
  · rw [← normalizeCameraId_isSome, h.cameraId]
    rfl

theorem ViewerHandshake.converts (h : ViewerHandshake env auth) : Converts env auth := by
  obtain ⟨token, htoken, -⟩ := h.token
  refine ⟨?_, h.cameraId⟩
  rw [← stringOrEmpty_isSome, htoken]
  rfl

theorem ViewerHandshake.not_camera (h : ViewerHandshake env auth) :
    auth.role ≠ some (.str (js "camera")) := by
  rw [h.role]
  intro heq
  have hname : js "viewer" = js "camera" := Json.str.inj (Option.some.inj heq)
  exact absurd hname (by decide)

/-! ## `handleConnection` grants them -/

/-- The outcomes of `handleConnection`, by entitlement. -/
inductive Admitted (env : Env) (g : CameraGateway) (client : SocketId) (auth : HandshakeAuth) :
    Option (CameraGateway × List Output) → Prop where
  | camera (c : JsString) (h : CameraHandshake env auth c) :
      Admitted env g client auth (some (g.admitCamera client c))
  | viewer (h : ViewerHandshake env auth) :
      Admitted env g client auth (some (g.admitViewer client))
  | refused (hconv : Converts env auth) (hcamera : ∀ c, ¬ CameraHandshake env auth c)
      (hviewer : ¬ ViewerHandshake env auth) :
      Admitted env g client auth (some (g.disconnectClient client))
  | threw (h : ¬ Converts env auth) : Admitted env g client auth none

/-- A camera handshake is recognised by its role, its id and its token. -/
theorem cameraHandshake_iff (env : Env) (c : JsString) {token : JsString}
    {cameraId : Option JsString}
    (htoken : stringOrEmpty auth.token (env.nesting .token) = some token)
    (hid : normalizeCameraId auth.cameraId (env.nesting .cameraId) = some cameraId) :
    CameraHandshake env auth c ↔
      roleIs auth.role (js "camera") = true ∧ cameraId = some c ∧
        validToken token env.cameraToken = true := by
  rw [roleIs_iff, validToken_iff]
  refine ⟨?_, ?_⟩
  · rintro ⟨hrole, hid', token', configured, htoken', hconf, hne, heq⟩
    rw [htoken] at htoken'
    rw [hid] at hid'
    cases htoken'
    exact ⟨hrole, Option.some.inj hid', .inr ⟨configured, hconf, hne, heq⟩⟩
  · rintro ⟨hrole, rfl, hvalid⟩
    obtain ⟨hfalse, -⟩ | ⟨configured, hconf, hne, heq⟩ := hvalid
    · cases hfalse
    · exact ⟨hrole, hid, token, configured, htoken, hconf, hne, heq⟩

theorem viewerHandshake_iff (env : Env) {token : JsString} {cameraId : Option JsString}
    (htoken : stringOrEmpty auth.token (env.nesting .token) = some token)
    (hid : normalizeCameraId auth.cameraId (env.nesting .cameraId) = some cameraId) :
    ViewerHandshake env auth ↔
      roleIs auth.role (js "viewer") = true ∧ validToken token env.viewerToken true = true := by
  rw [roleIs_iff, validToken_iff]
  refine ⟨?_, ?_⟩
  · rintro ⟨hrole, -, token', htoken', hvalid⟩
    rw [htoken] at htoken'
    cases htoken'
    refine ⟨hrole, ?_⟩
    obtain hnone | hempty | ⟨configured, hconf, heq⟩ := hvalid
    · exact .inl ⟨rfl, .inl hnone⟩
    · exact .inl ⟨rfl, .inr hempty⟩
    · -- an empty configured token is no token
      by_cases hne : configured = []
      · exact .inl ⟨rfl, .inr (hne ▸ hconf)⟩
      · exact .inr ⟨configured, hconf, hne, heq⟩
  · rintro ⟨hrole, hvalid⟩
    refine ⟨hrole, ?_, token, htoken, ?_⟩
    · -- the id of a viewer is normalised, too, and may throw
      rw [← normalizeCameraId_isSome, hid]
      rfl
    · obtain ⟨-, hnone | hempty⟩ | ⟨configured, hconf, -, heq⟩ := hvalid
      · exact .inl hnone
      · exact .inr (.inl hempty)
      · exact .inr (.inr ⟨configured, hconf, heq⟩)

/-- **Admission.** `handleConnection` grants every handshake what it is entitled to. -/
theorem handleConnection_admitted (env : Env) (g : CameraGateway) (client : SocketId)
    (auth : HandshakeAuth) :
    Admitted env g client auth (g.handleConnection env client auth) := by
  rw [handleConnection]
  -- both values are converted before the role is looked at
  cases htoken : stringOrEmpty auth.token (env.nesting .token) with
  | none =>
      refine .threw fun h => ?_
      have hsome := h.1
      rw [← stringOrEmpty_isSome, htoken] at hsome
      cases hsome
  | some token =>
      cases hid : normalizeCameraId auth.cameraId (env.nesting .cameraId) with
      | none =>
          refine .threw fun h => ?_
          have hsome := h.2
          rw [← normalizeCameraId_isSome, hid] at hsome
          cases hsome
      | some cameraId =>
          have hconv : Converts env auth := by
            rw [Converts, ← stringOrEmpty_isSome, htoken, ← normalizeCameraId_isSome, hid]
            exact ⟨rfl, rfl⟩
          have hcam := fun c => cameraHandshake_iff env c htoken hid
          have hview := viewerHandshake_iff env htoken hid
          dsimp only
          by_cases hrole : roleIs auth.role (js "camera") = true
          · -- a camera role never falls through to the viewer branch
            have hnot : ¬ ViewerHandshake env auth := fun h =>
              h.not_camera (roleIs_iff.mp hrole)
            rw [if_pos hrole]
            split
            · next c hvalid => exact .camera c ((hcam c).mpr ⟨hrole, rfl, hvalid⟩)
            · next hno =>
                refine .refused hconv (fun c h => ?_) hnot
                obtain ⟨-, rfl, hvalid⟩ := (hcam c).mp h
                exact hno c rfl hvalid
          · have hnocam : ∀ c, ¬ CameraHandshake env auth c := fun c h => hrole ((hcam c).mp h).1
            rw [if_neg hrole]
            split
            · next h => exact .viewer (hview.mpr (by simpa using h))
            · next h => exact .refused hconv hnocam fun h' => h (by simpa using hview.mp h')

/-! ## Effects on the sockets -/

theorem getElem?_setSocket {f : AuthenticatedSocket → AuthenticatedSocket} {sid : SocketId} :
    (g.setSocket client f).sockets[sid]? =
      if sid = client then g.sockets[sid]?.map f else g.sockets[sid]? := by
  rw [setSocket, List.getElem?_modify]
  by_cases h : sid = client
  · rw [if_pos h]
    simp only [if_pos h.symm]
    rfl
  · rw [if_neg h]
    simp only [if_neg (Ne.symm h)]
    exact id_map _

theorem getElem?_join {sid : SocketId} :
    (g.join auth).sockets[sid]? =
      if sid = g.sockets.length then some { auth := auth } else g.sockets[sid]? := by
  rw [join]
  by_cases h : sid = g.sockets.length
  · rw [if_pos h, h]
    simp
  · rw [if_neg h]
    rcases Nat.lt_or_gt_of_ne h with hlt | hgt
    · exact List.getElem?_append_left hlt
    · rw [List.getElem?_eq_none hgt.le, List.getElem?_eq_none]
      rw [List.length_append]
      exact hgt

/-! ## Surviving a handshake -/

/-- The socket is camera `c` for a valid `c`, which `list()` reports as online. -/
def RegisteredCamera (g' : CameraGateway) (client : SocketId) : Prop :=
  ∃ socket c, g'.sockets[client]? = some socket ∧ socket.connected = true ∧
    socket.role = some .camera ∧ socket.cameraId = some c ∧ isCameraId c = true ∧
    ∃ st ∈ g'.cameras.list, st.cameraId = c ∧ st.connected = true

/-- The socket is a viewer and has been sent the camera list. -/
def ListedViewer (g' : CameraGateway) (out : List Output) (client : SocketId) : Prop :=
  (∃ socket, g'.sockets[client]? = some socket ∧ socket.connected = true ∧
    socket.role = some .viewer) ∧
  .cameraList client g'.cameras.list ∈ out

/-- The socket is out, without a role, and the service is as it was. -/
def RefusedSocket (g g' : CameraGateway) (client : SocketId) : Prop :=
  (∃ socket, g'.sockets[client]? = some socket ∧ socket.connected = false ∧
    socket.role = none) ∧
  g'.cameras = g.cameras

/-- `handleConnection` leaves the new socket in exactly one of three situations. -/
def Settles (g g' : CameraGateway) (out : List Output) (client : SocketId) : Prop :=
  (RegisteredCamera g' client ∧ ¬ ListedViewer g' out client ∧ ¬ RefusedSocket g g' client) ∨
  (¬ RegisteredCamera g' client ∧ ListedViewer g' out client ∧ ¬ RefusedSocket g g' client) ∨
  (¬ RegisteredCamera g' client ∧ ¬ ListedViewer g' out client ∧ RefusedSocket g g' client)

/-- The role of the socket tells the situations apart. -/
theorem settles_of_role {g' : CameraGateway} {out : List Output} {socket : AuthenticatedSocket}
    (hsocket : g'.sockets[client]? = some socket)
    (h : (socket.role = some .camera ∧ RegisteredCamera g' client) ∨
      (socket.role = some .viewer ∧ ListedViewer g' out client) ∨
      (socket.role = none ∧ RefusedSocket g g' client)) :
    Settles g g' out client := by
  -- each situation fixes the role, and there are three different roles
  have hcamera : RegisteredCamera g' client → socket.role = some .camera := by
    rintro ⟨socket', _, hsocket', -, hrole, -⟩
    rw [hsocket] at hsocket'
    exact Option.some.inj hsocket' ▸ hrole
  have hviewer : ListedViewer g' out client → socket.role = some .viewer := by
    rintro ⟨⟨socket', hsocket', -, hrole⟩, -⟩
    rw [hsocket] at hsocket'
    exact Option.some.inj hsocket' ▸ hrole
  have hrefused : RefusedSocket g g' client → socket.role = none := by
    rintro ⟨⟨socket', hsocket', -, hrole⟩, -⟩
    rw [hsocket] at hsocket'
    exact Option.some.inj hsocket' ▸ hrole
  obtain ⟨hrole, hc⟩ | ⟨hrole, hv⟩ | ⟨hrole, hr⟩ := h
  · exact .inl ⟨hc, fun h => by simp [hviewer h] at hrole, fun h => by simp [hrefused h] at hrole⟩
  · exact .inr (.inl
      ⟨fun h => by simp [hcamera h] at hrole, hv, fun h => by simp [hrefused h] at hrole⟩)
  · exact .inr (.inr
      ⟨fun h => by simp [hcamera h] at hrole, fun h => by simp [hviewer h] at hrole, hr⟩)

theorem getElem?_join_new : (g.join auth).sockets[g.sockets.length]? = some { auth := auth } := by
  rw [getElem?_join, if_pos rfl]

theorem admitCamera_settles (hid : isCameraId c = true) :
    Settles g ((g.join auth).admitCamera g.sockets.length c).1
      ((g.join auth).admitCamera g.sockets.length c).2 g.sockets.length := by
  have hsocket : ((g.join auth).admitCamera g.sockets.length c).1.sockets[g.sockets.length]? =
      some { auth := auth, role := some .camera, cameraId := some c } := by
    simp only [admitCamera, getElem?_setSocket, if_pos, getElem?_join_new]
    rfl
  refine settles_of_role hsocket (.inl ⟨rfl, _, c, hsocket, rfl, rfl, rfl, hid, ?_⟩)
  exact ⟨_, CameraService.mem_list_connect, rfl, rfl⟩

theorem admitViewer_settles :
    Settles g ((g.join auth).admitViewer g.sockets.length).1
      ((g.join auth).admitViewer g.sockets.length).2 g.sockets.length := by
  have hsocket : ((g.join auth).admitViewer g.sockets.length).1.sockets[g.sockets.length]? =
      some { auth := auth, role := some .viewer } := by
    simp only [admitViewer, getElem?_setSocket, if_pos, getElem?_join_new]
    rfl
  exact settles_of_role hsocket
    (.inr (.inl ⟨rfl, ⟨_, hsocket, rfl, rfl⟩, List.mem_singleton_self _⟩))

theorem disconnectClient_settles :
    Settles g ((g.join auth).disconnectClient g.sockets.length).1
      ((g.join auth).disconnectClient g.sockets.length).2 g.sockets.length := by
  have hsocket :
      ((g.join auth).disconnectClient g.sockets.length).1.sockets[g.sockets.length]? =
        some { auth := auth, connected := false } := by
    simp only [disconnectClient, getElem?_setSocket, if_pos, getElem?_join_new]
    rfl
  exact settles_of_role hsocket (.inr (.inr ⟨rfl, ⟨_, hsocket, rfl, rfl⟩, rfl⟩))

/-- **Survival.** For a new socket in any state of the gateway, `handleConnection`
    finishes in exactly one of the three situations if and only if neither `token`
    nor `cameraId` hides `toString` behind a member of its own, and neither holds
    more arrays inside one another than the call stack of the engine has room for. -/
theorem handleConnection_survives_iff (env : Env) (g : CameraGateway) (auth : HandshakeAuth) :
    (∃ g' out, (g.join auth).handleConnection env g.sockets.length auth = some (g', out) ∧
      Settles g g' out g.sockets.length) ↔
    auth.token.convertible (env.nesting .token) = true ∧
      auth.cameraId.convertible (env.nesting .cameraId) = true := by
  refine ⟨?_, ?_⟩
  · -- each branch that finishes has converted both values
    rintro ⟨g', out, hfinished, -⟩
    by_contra hno
    have hadmitted := handleConnection_admitted env (g.join auth) g.sockets.length auth
    rw [hfinished] at hadmitted
    generalize hr : some (g', out) = r at hadmitted
    cases hadmitted with
    | camera c h => exact hno h.converts
    | viewer h => exact hno h.converts
    | refused hconv => exact hno hconv
    | threw => cases hr
  · intro hconv
    have hadmitted := handleConnection_admitted env (g.join auth) g.sockets.length auth
    generalize (g.join auth).handleConnection env g.sockets.length auth = r at hadmitted
    cases hadmitted with
    | camera c h => exact ⟨_, _, rfl, admitCamera_settles (isCameraId_of_normalize h.cameraId)⟩
    | viewer h => exact ⟨_, _, rfl, admitViewer_settles⟩
    | refused => exact ⟨_, _, rfl, disconnectClient_settles⟩
    | threw h => exact absurd hconv h

/-- A viewer whose token is `{"toString": 1}`. -/
def hostileAuth : HandshakeAuth where
  role := some (.str (js "viewer"))
  token := some (.obj [(js "toString", .num (.finite 1))])
  cameraId := none

theorem hostile_token_throws :
    ¬ ∃ g' out, (({} : CameraGateway).join hostileAuth).handleConnection {} 0 hostileAuth =
      some (g', out) ∧ Settles {} g' out 0 := by
  rintro ⟨g', out, hfinished, -⟩
  have hthrew : ((({} : CameraGateway).join hostileAuth).handleConnection {} 0
      hostileAuth).isNone = true := by decide
  rw [hfinished] at hthrew
  cases hthrew

/-- `depth` arrays inside one another, the innermost one empty. -/
def nestedArrays : Nat → Json
  | 0 => .arr []
  | depth + 1 => .arr [nestedArrays depth]

theorem arrayDepth_nestedArrays (depth : Nat) : (nestedArrays depth).arrayDepth = depth + 1 := by
  induction depth with
  | zero => rfl
  | succ depth ih => simp [nestedArrays, Json.arrayDepth, Json.itemsDepth, ih]

/-- However much room the call stack has, a token of arrays alone can fill it. -/
theorem nested_token_throws (env : Env) (g : CameraGateway) (client : SocketId)
    (role cameraId : Property) :
    g.handleConnection env client
      ⟨role, some (nestedArrays (env.nesting .token)), cameraId⟩ = none := by
  have hno : ¬ Converts env ⟨role, some (nestedArrays (env.nesting .token)), cameraId⟩ := by
    rintro ⟨htoken, -⟩
    simp only [Property.convertible, Json.convertible, arrayDepth_nestedArrays, Bool.and_eq_true,
      decide_eq_true_eq] at htoken
    omega
  have hadmitted := handleConnection_admitted env g client
    ⟨role, some (nestedArrays (env.nesting .token)), cameraId⟩
  generalize g.handleConnection env client
    ⟨role, some (nestedArrays (env.nesting .token)), cameraId⟩ = r at hadmitted
  cases hadmitted with
  | camera c h => exact absurd h.converts hno
  | viewer h => exact absurd h.converts hno
  | refused hconv => exact absurd hconv hno
  | threw => rfl

end CameraStream.Server.CameraGateway
