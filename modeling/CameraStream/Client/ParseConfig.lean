/-
  CameraStream.Client.ParseConfig

  `parse_config` (config.cpp): the configuration from defaults, environment and command
  line.

  An argument or a variable is the bytes of its C string.  A thrown
  `std::invalid_argument` is `Except.error` with its text.

  `Setting` names the seven fields with their option and their variable.
  `parseConfig_follows` says where each field of a result comes from, and `Valid` what
  `validate` has checked.
-/

import CameraStream.Client.Types
import CameraStream.Lib.TextRuns
import Mathlib.Data.List.Induction

namespace CameraStream.Client

open TextRuns

/-- `getenv`. -/
abbrev Environ := Bytes → Option Bytes

/-- A variable with an empty value counts as absent. -/
def environment (env : Environ) (name : Bytes) : Option Bytes :=
  match env name with
  | none => none
  | some value => if value = [] then none else some value

/-! ## Integers -/

/-- `std::from_chars` for an `int` in base ten: the value, `none` for an error code, and
    what it has left unread.  A minus sign is read, a plus sign and blanks are not. -/
def fromChars (text : Bytes) : Option Int × Bytes :=
  let (negative, rest) :=
    match text with
    | 0x2D :: rest => (true, rest)
    | _ => (false, text)
  let digits := rest.takeWhile isDigit
  if digits = [] then (none, text)
  else
    let n : Int := if negative then -value digits else value digits
    (if -0x80000000 ≤ n ∧ n ≤ 0x7FFFFFFF then some n else none, rest.dropWhile isDigit)

def parseInteger (text option : Bytes) : Except Bytes Int :=
  match fromChars text with
  | (some result, []) => .ok result
  | _ => .error (ascii "invalid integer for " ++ option)

def applyEnvironmentInteger (destination : Int) (env : Environ) (name : Bytes) :
    Except Bytes Int :=
  match environment env name with
  | some value => parseInteger value name
  | none => .ok destination

/-! ## Validation -/

def isCameraIdByte (b : UInt8) : Bool :=
  let n := b.toNat
  let alpha := (0x61 ≤ n && n ≤ 0x7A) || (0x41 ≤ n && n ≤ 0x5A)
  let digit := 0x30 ≤ n && n ≤ 0x39
  alpha || digit || n == 0x5F || n == 0x2D

def validCameraId (value : Bytes) : Bool :=
  !(value.isEmpty || 64 < value.length) && value.all isCameraIdByte

def validate (config : Config) : Except Bytes Unit :=
  if !(ascii "http://").isPrefixOf config.serverUrl then
    .error (ascii "--server must use http:// (TLS support is not enabled in this MVP)")
  else if config.token = [] then .error (ascii "camera token is required")
  else if !validCameraId config.cameraId then
    .error (ascii "--camera-id must contain 1..64 letters, digits, '_' or '-'")
  else if config.width ≤ 0 ∨ config.height ≤ 0 then
    .error (ascii "--width and --height must be positive")
  else if config.fps < 1 ∨ 30 < config.fps then .error (ascii "--fps must be between 1 and 30")
  else if config.jpegQuality < 30 ∨ 95 < config.jpegQuality then
    .error (ascii "--quality must be between 30 and 95")
  else .ok ()

/-! ## `parse_config` -/

/-- `Config config;`. -/
def Config.initial : Config where
  serverUrl := []
  token := []

def applyEnvironment (env : Environ) (config : Config) : Except Bytes Config := do
  let width ← applyEnvironmentInteger config.width env (ascii "CAMERA_WIDTH")
  let height ← applyEnvironmentInteger config.height env (ascii "CAMERA_HEIGHT")
  let fps ← applyEnvironmentInteger config.fps env (ascii "CAMERA_FPS")
  let jpegQuality ← applyEnvironmentInteger config.jpegQuality env (ascii "JPEG_QUALITY")
  return {
    serverUrl := (environment env (ascii "CAMERA_SERVER_URL")).getD config.serverUrl
    token := (environment env (ascii "CAMERA_TOKEN")).getD config.token
    cameraId := (environment env (ascii "CAMERA_ID")).getD config.cameraId
    width, height, fps, jpegQuality }

/-- One option with its value. -/
def applyOption (config : Config) (option value : Bytes) : Except Bytes Config :=
  if option = ascii "--server" then .ok { config with serverUrl := value }
  else if option = ascii "--token" then .ok { config with token := value }
  else if option = ascii "--camera-id" then .ok { config with cameraId := value }
  else if option = ascii "--width" then
    (parseInteger value option).map fun width => { config with width }
  else if option = ascii "--height" then
    (parseInteger value option).map fun height => { config with height }
  else if option = ascii "--fps" then
    (parseInteger value option).map fun fps => { config with fps }
  else if option = ascii "--quality" then
    (parseInteger value option).map fun jpegQuality => { config with jpegQuality }
  else .error (ascii "unknown option: " ++ option)

/-- The loop over the arguments after `argv[0]`. -/
def parseOptions (config : Config) : List Bytes → Except Bytes Config
  | [] => .ok config
  | option :: rest =>
      if option = ascii "--help" ∨ option = ascii "-h" then .error (ascii "help requested")
      else
        match rest with
        | [] => .error (ascii "missing value for " ++ option)
        | value :: rest => do parseOptions (← applyOption config option value) rest

def parseConfig (env : Environ) (argv : List Bytes) : Except Bytes Config := do
  let config ← parseOptions (← applyEnvironment env .initial) argv.tail
  validate config
  return config

/-! ## Settings -/

/-- The fields of a configuration. -/
inductive Setting where
  | server | token | cameraId | width | height | fps | quality
  deriving DecidableEq

/-- The value of a field. -/
inductive FieldValue where
  | text (s : Bytes)
  | number (n : Int)
  deriving DecidableEq

namespace Setting

def option : Setting → Bytes
  | server => ascii "--server"
  | token => ascii "--token"
  | cameraId => ascii "--camera-id"
  | width => ascii "--width"
  | height => ascii "--height"
  | fps => ascii "--fps"
  | quality => ascii "--quality"

def variableName : Setting → Bytes
  | server => ascii "CAMERA_SERVER_URL"
  | token => ascii "CAMERA_TOKEN"
  | cameraId => ascii "CAMERA_ID"
  | width => ascii "CAMERA_WIDTH"
  | height => ascii "CAMERA_HEIGHT"
  | fps => ascii "CAMERA_FPS"
  | quality => ascii "JPEG_QUALITY"

def field (config : Config) : Setting → FieldValue
  | server => .text config.serverUrl
  | token => .text config.token
  | cameraId => .text config.cameraId
  | width => .number config.width
  | height => .number config.height
  | fps => .number config.fps
  | quality => .number config.jpegQuality

/-- What a value on the command line or in the environment denotes. -/
def Denotes (value : Bytes) : Setting → FieldValue → Prop
  | server, v | token, v | cameraId, v => v = .text value
  | width, v | height, v | fps, v | quality, v =>
      ∃ n, fromChars value = (some n, []) ∧ v = .number n

/-- A field after a step that may have given it a new value. -/
def Follows (s : Setting) (given : Option Bytes) (before after : Config) : Prop :=
  match given with
  | some value => s.Denotes value (s.field after)
  | none => s.field after = s.field before

theorem option_injective : Function.Injective option := by
  intro s t h
  cases s <;> cases t <;> first | rfl | exact absurd h (by decide)

/-- The later value counts. -/
theorem Follows.trans {s : Setting} {first second : Option Bytes} {a b c : Config}
    (h : s.Follows first a b) (h' : s.Follows second b c) : s.Follows (second <|> first) a c := by
  cases second with
  | some value => exact h'
  | none =>
      have hsame : s.field c = s.field b := h'
      cases first with
      | some value =>
          change s.Denotes value (s.field c)
          rw [hsame]
          exact h
      | none => exact hsame.trans h

/-- A text is taken as it is given. -/
theorem Follows.text {s : Setting} {given : Option Bytes} {a b : Config} {t : Bytes}
    (h : s.Follows given a b) (hbefore : s.field a = .text t) :
    s.field b = .text (given.getD t) := by
  cases given with
  | none =>
      have hsame : s.field b = s.field a := h
      exact hsame.trans hbefore
  | some value =>
      cases s with
      | server | token | cameraId => exact h
      | width | height | fps | quality => cases hbefore

end Setting

/-! ## What a result is made of -/

variable {env : Environ} {argv args : List Bytes} {config config' : Config}
  {option value : Bytes}

theorem parseInteger_eq_ok {text : Bytes} {n : Int} :
    parseInteger text option = .ok n ↔ fromChars text = (some n, []) := by
  rw [parseInteger]
  split
  · case h_1 result heq => simp [heq]
  · case h_2 hne =>
    refine ⟨?_, ?_⟩
    · intro h
      cases h
    · intro h
      exact absurd h (hne n)

theorem map_eq_ok {α β : Type} {x : Except Bytes α} {f : α → β} {b : β} :
    x.map f = .ok b ↔ ∃ a, x = .ok a ∧ f a = b := by
  cases x with
  | error e => simp [Except.map]
  | ok a => simp [Except.map]

theorem bind_eq_ok {α β : Type} {x : Except Bytes α} {f : α → Except Bytes β} {b : β} :
    (x >>= f) = .ok b ↔ ∃ a, x = .ok a ∧ f a = .ok b := by
  cases x with
  | error e => simp [bind, Except.bind]
  | ok a => simp [bind, Except.bind]

/-- An option sets its field and no other. -/
theorem applyOption_eq_ok (h : applyOption config option value = .ok config') :
    ∃ s : Setting, s.option = option ∧ s.Denotes value (s.field config') ∧
      ∀ t, t ≠ s → t.field config' = t.field config := by
  rw [applyOption] at h
  -- the names are tried in the order of the source; the last branch is an unknown option
  by_cases h1 : option = ascii "--server"
  · rw [if_pos h1] at h
    cases h
    exact ⟨.server, h1.symm, rfl, by rintro (_ | _) ht <;> first | rfl | exact absurd rfl ht⟩
  rw [if_neg h1] at h
  by_cases h2 : option = ascii "--token"
  · rw [if_pos h2] at h
    cases h
    exact ⟨.token, h2.symm, rfl, by rintro (_ | _) ht <;> first | rfl | exact absurd rfl ht⟩
  rw [if_neg h2] at h
  by_cases h3 : option = ascii "--camera-id"
  · rw [if_pos h3] at h
    cases h
    exact ⟨.cameraId, h3.symm, rfl, by rintro (_ | _) ht <;> first | rfl | exact absurd rfl ht⟩
  rw [if_neg h3] at h
  by_cases h4 : option = ascii "--width"
  · rw [if_pos h4] at h
    obtain ⟨n, hn, rfl⟩ := map_eq_ok.mp h
    exact ⟨.width, h4.symm, ⟨n, parseInteger_eq_ok.mp hn, rfl⟩,
      by rintro (_ | _) ht <;> first | rfl | exact absurd rfl ht⟩
  rw [if_neg h4] at h
  by_cases h5 : option = ascii "--height"
  · rw [if_pos h5] at h
    obtain ⟨n, hn, rfl⟩ := map_eq_ok.mp h
    exact ⟨.height, h5.symm, ⟨n, parseInteger_eq_ok.mp hn, rfl⟩,
      by rintro (_ | _) ht <;> first | rfl | exact absurd rfl ht⟩
  rw [if_neg h5] at h
  by_cases h6 : option = ascii "--fps"
  · rw [if_pos h6] at h
    obtain ⟨n, hn, rfl⟩ := map_eq_ok.mp h
    exact ⟨.fps, h6.symm, ⟨n, parseInteger_eq_ok.mp hn, rfl⟩,
      by rintro (_ | _) ht <;> first | rfl | exact absurd rfl ht⟩
  rw [if_neg h6] at h
  by_cases h7 : option = ascii "--quality"
  · rw [if_pos h7] at h
    obtain ⟨n, hn, rfl⟩ := map_eq_ok.mp h
    exact ⟨.quality, h7.symm, ⟨n, parseInteger_eq_ok.mp hn, rfl⟩,
      by rintro (_ | _) ht <;> first | rfl | exact absurd rfl ht⟩
  rw [if_neg h7] at h
  cases h

theorem parseOptions_pair {rest : List Bytes}
    (h : parseOptions config (option :: value :: rest) = .ok config') :
    ∃ mid, applyOption config option value = .ok mid ∧ parseOptions mid rest = .ok config' := by
  rw [parseOptions] at h
  by_cases hhelp : option = ascii "--help" ∨ option = ascii "-h"
  · rw [if_pos hhelp] at h
    cases h
  · rw [if_neg hhelp] at h
    exact bind_eq_ok.mp h

/-- The value that the last pair with this option has. -/
def lastValue (option : Bytes) : List Bytes → Option Bytes
  | name :: value :: rest => lastValue option rest <|> if name = option then some value else none
  | _ => none

/-- The command line, field by field. -/
theorem parseOptions_follows (h : parseOptions config args = .ok config') (s : Setting) :
    s.Follows (lastValue s.option args) config config' := by
  induction args using List.twoStepInduction generalizing config with
  | nil =>
      cases h
      exact rfl
  | singleton option =>
      rw [parseOptions] at h
      split at h <;> cases h
  | cons_cons option value rest ih _ =>
      obtain ⟨mid, hone, hrest⟩ := parseOptions_pair h
      obtain ⟨t, rfl, hdenotes, hkept⟩ := applyOption_eq_ok hone
      refine Setting.Follows.trans ?_ (ih hrest)
      by_cases hst : t = s
      · -- the option of this pair is that of `s`
        subst hst
        rw [if_pos rfl]
        exact hdenotes
      · rw [if_neg fun heq => hst (Setting.option_injective heq)]
        exact hkept s (Ne.symm hst)

/-- An integer field of the environment. -/
theorem applyEnvironmentInteger_follows {destination n : Int} {name : Bytes}
    (h : applyEnvironmentInteger destination env name = .ok n) :
    match environment env name with
    | some text => ∃ m, fromChars text = (some m, []) ∧ FieldValue.number n = .number m
    | none => FieldValue.number n = .number destination := by
  rw [applyEnvironmentInteger] at h
  cases hvalue : environment env name with
  | none =>
      rw [hvalue] at h
      cases h
      rfl
  | some text =>
      rw [hvalue] at h
      exact ⟨n, parseInteger_eq_ok.mp h, rfl⟩

/-- A text field of the environment. -/
theorem environment_follows (destination name : Bytes) :
    match environment env name with
    | some text => FieldValue.text ((environment env name).getD destination) = .text text
    | none => FieldValue.text ((environment env name).getD destination) = .text destination := by
  cases environment env name with
  | none => rfl
  | some text => rfl

/-- The environment, field by field. -/
theorem applyEnvironment_follows (h : applyEnvironment env config = .ok config') (s : Setting) :
    s.Follows (environment env s.variableName) config config' := by
  rw [applyEnvironment] at h
  obtain ⟨width, hwidth, h⟩ := bind_eq_ok.mp h
  obtain ⟨height, hheight, h⟩ := bind_eq_ok.mp h
  obtain ⟨fps, hfps, h⟩ := bind_eq_ok.mp h
  obtain ⟨quality, hquality, h⟩ := bind_eq_ok.mp h
  cases h
  cases s with
  | server => exact environment_follows config.serverUrl (ascii "CAMERA_SERVER_URL")
  | token => exact environment_follows config.token (ascii "CAMERA_TOKEN")
  | cameraId => exact environment_follows config.cameraId (ascii "CAMERA_ID")
  | width => exact applyEnvironmentInteger_follows hwidth
  | height => exact applyEnvironmentInteger_follows hheight
  | fps => exact applyEnvironmentInteger_follows hfps
  | quality => exact applyEnvironmentInteger_follows hquality

theorem parseConfig_eq_ok (h : parseConfig env argv = .ok config) :
    ∃ mid, applyEnvironment env .initial = .ok mid ∧ parseOptions mid argv.tail = .ok config ∧
      validate config = .ok () := by
  obtain ⟨mid, henv, h⟩ := bind_eq_ok.mp h
  obtain ⟨config', hargs, h⟩ := bind_eq_ok.mp h
  obtain ⟨⟨⟩, hvalid, h⟩ := bind_eq_ok.mp h
  cases h
  exact ⟨mid, henv, hargs, hvalid⟩

/-- The value that a field is given on the command line, otherwise in the environment. -/
def given (env : Environ) (argv : List Bytes) (s : Setting) : Option Bytes :=
  lastValue s.option argv.tail <|> environment env s.variableName

/-- **Where a field comes from.** -/
theorem parseConfig_follows (h : parseConfig env argv = .ok config) (s : Setting) :
    s.Follows (given env argv s) .initial config := by
  obtain ⟨mid, henv, hargs, -⟩ := parseConfig_eq_ok h
  exact (applyEnvironment_follows henv s).trans (parseOptions_follows hargs s)

/-! ## What a result satisfies -/

/-- What `validate` checks. -/
structure Config.Valid (config : Config) : Prop where
  scheme : ascii "http://" <+: config.serverUrl
  token : config.token ≠ []
  cameraId : validCameraId config.cameraId = true
  size : 0 < config.width ∧ 0 < config.height
  fps : 1 ≤ config.fps ∧ config.fps ≤ 30
  quality : 30 ≤ config.jpegQuality ∧ config.jpegQuality ≤ 95

theorem guard_eq_ok {α : Type} {p : Prop} [Decidable p] {e : Bytes} {x : Except Bytes α} {a : α} :
    (if p then .error e else x) = .ok a ↔ ¬ p ∧ x = .ok a := by
  by_cases hp : p
  · simp [hp]
  · simp [hp]

theorem validate_eq_ok : validate config = .ok () ↔ config.Valid := by
  simp only [validate, guard_eq_ok, Bool.not_eq_true', Bool.not_eq_false, not_or, Int.not_le,
    Int.not_lt, and_true]
  refine ⟨?_, ?_⟩
  · rintro ⟨hscheme, htoken, hid, hsize, hfps, hquality⟩
    exact ⟨List.isPrefixOf_iff_prefix.mp hscheme, htoken, hid, hsize, hfps, hquality⟩
  · rintro ⟨hscheme, htoken, hid, hsize, hfps, hquality⟩
    exact ⟨List.isPrefixOf_iff_prefix.mpr hscheme, htoken, hid, hsize, hfps, hquality⟩

theorem parseConfig_valid (h : parseConfig env argv = .ok config) : config.Valid := by
  obtain ⟨-, -, -, hvalid⟩ := parseConfig_eq_ok h
  exact validate_eq_ok.mp hvalid

/-- The defaults need a server and a token, and nothing else. -/
theorem Config.valid_defaults {serverUrl token : Bytes} (hscheme : ascii "http://" <+: serverUrl)
    (htoken : token ≠ []) : Config.Valid { serverUrl, token } := by
  have hid : validCameraId (ascii "raspberry-pi-1") = true := by decide +kernel
  have hnumbers : (0 < (1280 : Int) ∧ 0 < (720 : Int)) ∧ (1 ≤ (10 : Int) ∧ (10 : Int) ≤ 30) ∧
      30 ≤ (80 : Int) ∧ (80 : Int) ≤ 95 := by decide
  exact ⟨hscheme, htoken, hid, hnumbers.1, hnumbers.2.1, hnumbers.2.2⟩

end CameraStream.Client
