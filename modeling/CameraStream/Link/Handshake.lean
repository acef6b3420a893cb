/-
  CameraStream.Link.Handshake

  The namespace connect of a camera, from the client's configuration to the gateway's
  decision.

  The camera id is checked on both sides: by `valid_camera_id` over bytes, and by
  `normalizeCameraId`, a trim and a regular expression, over UTF-16 code units.
  `validCameraId_utf8` says that the two rules are one.  JSON carries the values of
  `auth_json` to `handshake.auth` unchanged.
-/

import CameraStream.Client.UsableConfig
import CameraStream.Server.GatewayRuns

namespace CameraStream.Link

open Client Server Server.CameraGateway Js

/-- `handshake.auth` of a namespace connect. -/
def handshake (auth : AuthJson) : HandshakeAuth where
  role := some (.str auth.role)
  token := some (.str auth.token)
  cameraId := some (.str auth.cameraId)

/-! ## Camera ids -/

theorem isIdChar_iff {u : UInt16} : isIdChar u = true ↔
    (0x61 ≤ u.toNat ∧ u.toNat ≤ 0x7A) ∨ (0x41 ≤ u.toNat ∧ u.toNat ≤ 0x5A) ∨
      (0x30 ≤ u.toNat ∧ u.toNat ≤ 0x39) ∨ u.toNat = 0x5F ∨ u.toNat = 0x2D := by
  simp only [isIdChar, Bool.or_eq_true, Bool.and_eq_true, decide_eq_true_eq, beq_iff_eq, or_assoc]

/-- The two alphabets agree. -/
theorem isIdChar_byte (b : UInt8) : isIdChar b.toNat.toUInt16 = isCameraIdByte b := by
  have hlt : b.toNat < 256 := b.toNat_lt
  have hunit : b.toNat.toUInt16.toNat = b.toNat :=
    UInt16.toNat_ofNat_of_lt (by show _ < 65536; omega)
  rw [Bool.eq_iff_iff, isIdChar_iff, isCameraIdByte_iff, hunit]

/-- Only an ASCII character has a code unit of the alphabet. -/
theorem ascii_of_isIdChar {c : Char} (h : ∀ u ∈ encodeUtf16 c, isIdChar u = true) :
    c.toNat < 0x80 := by
  have hvalid : c.toNat < 0xD800 ∨ 0xDFFF < c.toNat ∧ c.toNat < 0x110000 := c.valid
  rw [encodeUtf16] at h
  by_cases hsmall : c.toNat < 0x10000
  · rw [if_pos hsmall] at h
    have hunit : c.toNat.toUInt16.toNat = c.toNat := UInt16.toNat_ofNat_of_lt hsmall
    have hid := isIdChar_iff.mp (h _ (List.mem_singleton_self _))
    omega
  · -- a surrogate is no letter
    rw [if_neg hsmall] at h
    have hunit : (0xD800 + (c.toNat - 0x10000) / 0x400).toUInt16.toNat =
        0xD800 + (c.toNat - 0x10000) / 0x400 :=
      UInt16.toNat_ofNat_of_lt (by show _ < 65536; omega)
    have hid := isIdChar_iff.mp (h _ List.mem_cons_self)
    omega

/-- A text with ASCII bytes has them as its code units. -/
theorem js_eq_map {s : String} (h : ∀ b ∈ utf8 s, b.toNat < 0x80) :
    js s = (utf8 s).map fun b => b.toNat.toUInt16 :=
  Option.some.inj ((decodeUtf8_utf8 s).symm.trans (decodeUtf8_of_ascii h))

theorem ascii_of_isCameraId {s : String} (h : ∀ u ∈ js s, isIdChar u = true) :
    ∀ b ∈ utf8 s, b.toNat < 0x80 := by
  intro b hb
  obtain ⟨c, hc, hb⟩ := List.mem_flatMap.mp hb
  have hascii : c.toNat < 0x80 :=
    ascii_of_isIdChar fun u hu => h u (List.mem_flatMap.mpr ⟨c, hc, hu⟩)
  have hval : c.val.toNat = c.toNat := rfl
  rw [String.utf8EncodeChar] at hb
  simp only [hval] at hb
  rw [if_pos (by omega), List.mem_singleton] at hb
  have hbyte : (UInt8.ofNat c.toNat).toNat = c.toNat :=
    UInt8.toNat_ofNat_of_lt (by show _ < 256; omega)
  rwa [hb, hbyte]

/-- The byte loop and the regular expression accept the same texts. -/
theorem validCameraId_iff_isCameraId (s : String) :
    validCameraId (utf8 s) = true ↔ isCameraId (js s) = true := by
  have hregexp : ∀ {bytes : Bytes}, isCameraId (bytes.map fun b => b.toNat.toUInt16) = true ↔
      validCameraId bytes = true := by
    intro bytes
    simp only [isCameraId, validCameraId_iff, List.length_map, Bool.and_eq_true, decide_eq_true_eq,
      List.all_eq_true, List.forall_mem_map, isIdChar_byte, and_assoc]
  refine ⟨?_, ?_⟩
  · intro h
    obtain ⟨-, -, hbytes⟩ := validCameraId_iff.mp h
    rw [js_eq_map, hregexp]
    · exact h
    · intro b hb
      have hb := isCameraIdByte_iff.mp (hbytes b hb)
      omega
  · intro h
    have hunits : ∀ u ∈ js s, isIdChar u = true := by
      simp only [isCameraId, Bool.and_eq_true, List.all_eq_true] at h
      exact h.2
    rwa [js_eq_map (ascii_of_isCameraId hunits), hregexp] at h

theorem not_isSpace_of_isIdChar {u : UInt16} (h : isIdChar u = true) : isSpace u = false := by
  have h := isIdChar_iff.mp h
  simp only [isSpace, Bool.or_eq_false_iff, Bool.and_eq_false_iff, decide_eq_false_iff_not,
    beq_eq_false_iff_ne]
  omega

/-- There is nothing to trim in a camera id. -/
theorem trim_of_isCameraId {t : JsString} (h : isCameraId t = true) : trim t = t := by
  simp only [isCameraId, Bool.and_eq_true, List.all_eq_true] at h
  have hkeep : ∀ {l : JsString}, (∀ u ∈ l, isIdChar u = true) → l.dropWhile isSpace = l := by
    intro l hl
    cases l with
    | nil => rfl
    | cons u l =>
        have hu : isSpace u = false := not_isSpace_of_isIdChar (hl u List.mem_cons_self)
        rw [List.dropWhile_cons_of_neg (by rw [hu]; exact Bool.false_ne_true)]
  rw [trim, hkeep h.2, hkeep fun u hu => h.2 u (List.mem_reverse.mp hu), List.reverse_reverse]

/-- `normalizeCameraId` returns the valid ids unchanged. -/
theorem normalizeCameraId_eq_self {t : JsString} {nesting : Nat} :
    normalizeCameraId (some (.str t)) nesting = some (some t) ↔ isCameraId t = true := by
  have hnormal : normalizeCameraId (some (.str t)) nesting =
      some (if isCameraId (trim t) then some (trim t) else none) := rfl
  refine ⟨?_, ?_⟩
  · intro h
    exact isCameraId_of_normalize h
  · intro h
    rw [hnormal, trim_of_isCameraId h, if_pos h]

/-! ## The namespace connect of a configuration -/

/-- A camera handshake is granted. -/
theorem handleConnection_camera {env : Env} {auth : HandshakeAuth} {c : JsString}
    (h : CameraHandshake env auth c) (g : CameraGateway) (client : SocketId) :
    g.handleConnection env client auth = some (g.admitCamera client c) := by
  generalize hout : g.handleConnection env client auth = out
  have hadmitted := handleConnection_admitted env g client auth
  rw [hout] at hadmitted
  cases hadmitted with
  | camera c' h' =>
      have hsame := h.cameraId.symm.trans h'.cameraId
      rw [Option.some.inj (Option.some.inj hsame)]
  | viewer h' => exact absurd h.role h'.not_camera
  | refused _ hno _ => exact absurd h (hno c)
  | threw hno => exact absurd h.converts hno

/-- A valid configuration with the token of the server makes a camera handshake. -/
theorem cameraHandshake_of_config {env : Env} {config : Client.Config} {token id : JsString}
    {auth : AuthJson} (hvalid : config.Valid) (htoken : decodeUtf8 config.token = some token)
    (hserver : env.cameraToken = some token) (hid : decodeUtf8 config.cameraId = some id)
    (hauth : authJson config = some auth) : CameraHandshake env (handshake auth) id := by
  obtain ⟨s, hs, rfl⟩ := decodeUtf8_eq_some.mp hid
  have hauth' : auth = ⟨js "camera", js s, token⟩ := by
    rw [authJson, hid, htoken] at hauth
    exact (Option.some.inj hauth).symm
  subst hauth'
  have hne : token ≠ [] := by
    rintro rfl
    exact hvalid.token (decodeUtf8_eq_nil htoken)
  have hvalid' : validCameraId (utf8 s) = true := hs ▸ hvalid.cameraId
  have hnormal : normalizeCameraId (some (.str (js s))) (env.nesting .cameraId) =
      some (some (js s)) :=
    normalizeCameraId_eq_self.mpr ((validCameraId_iff_isCameraId s).mp hvalid')
  exact ⟨rfl, hnormal, token, token, rfl, hserver, hne, rfl⟩

/-- What registering camera `c` for a new socket is, and no more: the socket is connected as
    camera `c`, `list()` reports `c` once and as online, other sockets and cameras are as
    before, and everybody is told. -/
structure Registers (g g' : CameraGateway) (out : List Output) (auth : HandshakeAuth)
    (c : JsString) : Prop where
  socket : g'.sockets[g.sockets.length]? =
    some { auth := auth, connected := true, role := some .camera, cameraId := some c }
  otherSockets : ∀ sid, sid ≠ g.sockets.length → g'.sockets[sid]? = g.sockets[sid]?
  listed : ∃ st, st.connected = true ∧
    ∀ st', st' ∈ g'.cameras.list ∧ st'.cameraId = c ↔ st' = st
  otherCameras : ∀ st, st.cameraId ≠ c → (st ∈ g'.cameras.list ↔ st ∈ g.cameras.list)
  told : out = [.cameraStatus g'.everyone c true]

theorem registers_admitCamera {g : CameraGateway} (hwf : g.cameras.Wf) (auth : HandshakeAuth)
    (c : JsString) :
    Registers g ((g.join auth).admitCamera g.sockets.length c).1
      ((g.join auth).admitCamera g.sockets.length c).2 auth c where
  socket := by
    simp only [admitCamera, getElem?_setSocket, if_pos, getElem?_join_new]
    rfl
  otherSockets sid hne := by
    simp only [admitCamera, getElem?_setSocket, if_neg hne, getElem?_join]
  listed := by
    have hfind : (g.cameras.connect c).find c = some (g.cameras.reconnected c) := by
      rw [CameraService.find_connect hwf, if_pos rfl]
    refine ⟨g.cameras.reconnected c, rfl, fun st' => ?_⟩
    have hmem : st' ∈ (g.cameras.connect c).list ↔ _ :=
      CameraService.mem_list_iff (CameraService.wf_connect hwf)
    refine ⟨?_, ?_⟩
    · rintro ⟨hlisted, hid⟩
      have hentry := hmem.mp hlisted
      rw [hid, hfind] at hentry
      exact (Option.some.inj hentry).symm
    · rintro rfl
      exact ⟨hmem.mpr hfind, rfl⟩
  otherCameras st hne := by
    have hmem : st ∈ (g.cameras.connect c).list ↔ _ :=
      CameraService.mem_list_iff (CameraService.wf_connect hwf)
    rw [CameraService.find_connect hwf, if_neg hne, ← CameraService.mem_list_iff hwf] at hmem
    exact hmem
  told := rfl

/-- **Identity and authentication.** Client and gateway accept the same camera ids, and in
    every state that the gateway can reach, a configuration with the server's token is
    admitted and its camera id is registered. -/
theorem identity_and_authentication_agree :
    (∀ (s : String) (nesting : Nat), validCameraId (utf8 s) = true ↔
      normalizeCameraId (some (.str (js s))) nesting = some (some (js s))) ∧
    ∀ (environ : Environ) (argv : List Bytes) (config : Client.Config) (env : Env)
      (token : JsString), parseConfig environ argv = .ok config →
      decodeUtf8 config.token = some token → env.cameraToken = some token →
      ∃ auth id, authJson config = some auth ∧ decodeUtf8 config.cameraId = some id ∧
        ∀ es cfg, (CameraGateway.machine env).exec (.start {}) es = some cfg →
          ∃ g' out, (cfg.state.join (handshake auth)).handleConnection env
              cfg.state.sockets.length (handshake auth) = some (g', out) ∧
            Registers cfg.state g' out (handshake auth) id := by
  refine ⟨?_, ?_⟩
  · intro s nesting
    rw [normalizeCameraId_eq_self]
    exact validCameraId_iff_isCameraId s
  · intro environ argv config env token hparse htoken hserver
    -- `parse_config` has checked the camera id, and the token is not empty
    have hvalid := parseConfig_valid hparse
    have hid := decodeUtf8_cameraId hvalid.cameraId
    have hauth := authJson_of_valid hvalid.cameraId htoken
    refine ⟨_, _, hauth, hid, ?_⟩
    intro es cfg hrun
    have hgranted := cameraHandshake_of_config hvalid htoken hserver hid hauth
    exact ⟨_, _, handleConnection_camera hgranted _ _,
      registers_admitCamera (ok_run hrun).cameras _ _⟩

/-- A camera with the server's token, on a server with another camera. -/
theorem plain_camera_admitted :
    ∃ config auth id cfg g' out, parseConfig (fun _ => none)
        (commandLine (ascii "http://host:3000") (utf8 "key")) = .ok config ∧
      authJson config = some auth ∧ decodeUtf8 config.cameraId = some id ∧
      (CameraGateway.machine sampleEnv).exec (.start {}) [.connect cameraAuth] = some cfg ∧
      (cfg.state.join (handshake auth)).handleConnection sampleEnv cfg.state.sockets.length
        (handshake auth) = some (g', out) ∧
      Registers cfg.state g' out (handshake auth) id := by
  have hparse : parseConfig (fun _ => none) (commandLine (ascii "http://host:3000") (utf8 "key")) =
      .ok { serverUrl := ascii "http://host:3000", token := utf8 "key" } := by
    decide +kernel
  obtain ⟨auth, id, hauth, hid, hgranted⟩ := identity_and_authentication_agree.2 _ _ _
    sampleEnv (js "key") hparse (decodeUtf8_utf8 "key") rfl
  obtain ⟨cfg, hrun⟩ : ∃ cfg, (CameraGateway.machine sampleEnv).exec (.start {})
      [.connect cameraAuth] = some cfg := ⟨_, rfl⟩
  obtain ⟨g', out, hconnect, hregisters⟩ := hgranted _ cfg hrun
  exact ⟨_, auth, id, cfg, g', out, hparse, hauth, hid, hrun, hconnect, hregisters⟩

end CameraStream.Link
