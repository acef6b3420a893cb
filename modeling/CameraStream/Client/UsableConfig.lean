/-
  CameraStream.Client.UsableConfig

  A configuration that `parse_config` returns, and the local steps of `connect` that use
  it: `parse_server_url` and `auth_json`.

  `validate` looks at the scheme of the URL only, and at the token only for emptiness.
  `usable_iff` says which inputs give a configuration that both steps can work with.
-/

import CameraStream.Client.ParseConfig
import CameraStream.Client.ServerUrl
import CameraStream.Client.Utf8

namespace CameraStream.Client

open Js

variable {env : Environ} {argv : List Bytes} {config : Config}

/-! ## Texts of a configuration -/

theorem serverUrl_eq (h : parseConfig env argv = .ok config) :
    config.serverUrl = (given env argv .server).getD [] := by
  have hfollows := parseConfig_follows h .server
  exact FieldValue.text.inj (hfollows.text rfl)

theorem token_eq (h : parseConfig env argv = .ok config) :
    config.token = (given env argv .token).getD [] := by
  have hfollows := parseConfig_follows h .token
  exact FieldValue.text.inj (hfollows.text rfl)

/-! ## Camera ids -/

/-- ASCII bytes are code units of their own. -/
theorem decodeUtf8_of_ascii {bytes : Bytes} (h : ∀ b ∈ bytes, b.toNat < 0x80) :
    decodeUtf8 bytes = some (bytes.map fun b => b.toNat.toUInt16) := by
  induction bytes with
  | nil => rfl
  | cons b bytes ih =>
      obtain ⟨hb, hrest⟩ := List.forall_mem_cons.mp h
      have hunit : utf16Units b.toNat = [b.toNat.toUInt16] := if_pos (by omega)
      rw [decodeUtf8_ascii hb, ih hrest, hunit]
      rfl

theorem isCameraIdByte_iff {b : UInt8} : isCameraIdByte b = true ↔
    (0x61 ≤ b.toNat ∧ b.toNat ≤ 0x7A) ∨ (0x41 ≤ b.toNat ∧ b.toNat ≤ 0x5A) ∨
      (0x30 ≤ b.toNat ∧ b.toNat ≤ 0x39) ∨ b.toNat = 0x5F ∨ b.toNat = 0x2D := by
  simp only [isCameraIdByte, Bool.or_eq_true, Bool.and_eq_true, decide_eq_true_eq, beq_iff_eq,
    or_assoc]

theorem validCameraId_iff {value : Bytes} : validCameraId value = true ↔
    1 ≤ value.length ∧ value.length ≤ 64 ∧ ∀ b ∈ value, isCameraIdByte b = true := by
  simp only [validCameraId, Bool.and_eq_true, Bool.not_eq_true', Bool.or_eq_false_iff,
    List.isEmpty_eq_false_iff, decide_eq_false_iff_not, Nat.not_lt, List.all_eq_true, and_assoc,
    List.length_pos_iff, Nat.succ_le_iff]

theorem decodeUtf8_cameraId {value : Bytes} (h : validCameraId value = true) :
    decodeUtf8 value = some (value.map fun b => b.toNat.toUInt16) := by
  obtain ⟨-, -, hbytes⟩ := validCameraId_iff.mp h
  refine decodeUtf8_of_ascii fun b hb => ?_
  have hb := isCameraIdByte_iff.mp (hbytes b hb)
  omega

theorem authJson_of_valid (h : validCameraId config.cameraId = true) {token : JsString}
    (htoken : decodeUtf8 config.token = some token) :
    authJson config =
      some ⟨js "camera", config.cameraId.map fun b => b.toNat.toUInt16, token⟩ := by
  rw [authJson, decodeUtf8_cameraId h, htoken]

/-- The camera id of a valid configuration never stops `auth_json`. -/
theorem authJson_isSome (h : validCameraId config.cameraId = true) :
    (∃ auth, authJson config = some auth) ↔ ∃ s : String, config.token = utf8 s := by
  refine ⟨?_, ?_⟩
  · rintro ⟨auth, hauth⟩
    cases htoken : decodeUtf8 config.token with
    | none => simp [authJson, decodeUtf8_cameraId h, htoken] at hauth
    | some token => exact decodeUtf8_isSome.mp (Option.isSome_iff_exists.mpr ⟨token, htoken⟩)
  · rintro ⟨s, hs⟩
    exact ⟨_, authJson_of_valid h (hs ▸ decodeUtf8_utf8 s)⟩

/-! ## Usable configurations -/

/-- **Which configurations are usable.** The URL has to be one of the grammar, the token
    has to be the encoding of a text. -/
theorem usable_iff (h : parseConfig env argv = .ok config) :
    ((∃ endpoint, parseServerUrl config.serverUrl = some endpoint) ∧
        ∃ auth, authJson config = some auth) ↔
      (∃ endpoint, IsServerUrl ((given env argv .server).getD []) endpoint) ∧
        ∃ s : String, (given env argv .token).getD [] = utf8 s := by
  rw [authJson_isSome (parseConfig_valid h).cameraId, serverUrl_eq h, token_eq h]
  simp only [parseServerUrl_eq_some]

/-- A command line with the two required options. -/
def commandLine (server token : Bytes) : List Bytes :=
  [ascii "camera-client", ascii "--server", server, ascii "--token", token]

/-- A server with a port and a plain token are usable. -/
theorem plain_config_usable :
    ∃ config, parseConfig (fun _ => none) (commandLine (ascii "http://host:3000/") (utf8 "key")) =
        .ok config ∧
      (∃ endpoint, parseServerUrl config.serverUrl = some endpoint) ∧
      ∃ auth, authJson config = some auth := by
  have hparse : parseConfig (fun _ => none)
      (commandLine (ascii "http://host:3000/") (utf8 "key")) =
        .ok { serverUrl := ascii "http://host:3000/", token := utf8 "key" } := by
    decide +kernel
  have hurl : IsServerUrl (ascii "http://host:3000/") ⟨ascii "host", ascii "3000"⟩ :=
    parseServerUrl_eq_some.mp (by decide +kernel)
  have hserver : given (fun _ => none) (commandLine (ascii "http://host:3000/") (utf8 "key"))
      .server = some (ascii "http://host:3000/") := by
    decide +kernel
  have htoken : given (fun _ => none) (commandLine (ascii "http://host:3000/") (utf8 "key"))
      .token = some (utf8 "key") := by
    decide +kernel
  refine ⟨_, hparse, (usable_iff hparse).mpr ⟨⟨⟨ascii "host", ascii "3000"⟩, ?_⟩, "key", ?_⟩⟩
  · rw [hserver]
    exact hurl
  · rw [htoken]
    rfl

/-- A URL with a path passes `validate`, and so does a token that is no text. -/
theorem unusable_accepted :
    (∃ config, parseConfig (fun _ => none) (commandLine (ascii "http://host/stream") (utf8 "key")) =
        .ok config ∧ parseServerUrl config.serverUrl = none) ∧
    ∃ config, parseConfig (fun _ => none) (commandLine (ascii "http://host") [0xFF]) =
        .ok config ∧ authJson config = none := by
  refine ⟨⟨{ serverUrl := ascii "http://host/stream", token := utf8 "key" }, ?_, ?_⟩,
    ⟨{ serverUrl := ascii "http://host", token := [0xFF] }, ?_, ?_⟩⟩
  · decide +kernel
  · decide +kernel
  · decide +kernel
  · decide +kernel

end CameraStream.Client
