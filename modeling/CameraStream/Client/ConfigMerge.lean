/-
  CameraStream.Client.ConfigMerge

  What `parse_config` computes, in the words of its documentation: the command line is a
  list of pairs of a known option and a value, each field takes the value of its last
  pair, otherwise of its variable, otherwise its default, and the result has to be valid.

  `Merges` is this description; `parseConfig_eq_ok_iff` says that it is the function, up
  to one thing: an integer variable is read even where its option is given.
-/

import CameraStream.Client.UsableConfig
import Mathlib.Data.List.TakeWhile

namespace CameraStream.Client

open TextRuns

/-! ## Values -/

/-- A whole decimal text of an `int`. -/
def IsDecimalInt (text : Bytes) (n : Int) : Prop :=
  ∃ digits : Bytes, digits ≠ [] ∧ (∀ b ∈ digits, isDigit b = true) ∧
    (text = digits ∧ n = value digits ∨ text = 0x2D :: digits ∧ n = -value digits) ∧
    -0x80000000 ≤ n ∧ n ≤ 0x7FFFFFFF

/-- A run of digits is read to its end. -/
theorem takeWhile_digits {digits : Bytes} (h : ∀ b ∈ digits, isDigit b = true) :
    digits.takeWhile isDigit = digits ∧ digits.dropWhile isDigit = [] := by
  have hspan : (digits ++ []).takeWhile isDigit = digits ∧ (digits ++ []).dropWhile isDigit = [] :=
    span_append h (by simp)
  rwa [List.append_nil] at hspan

/-- `fromChars` behind the sign. -/
def fromDigits (negative : Bool) (text rest : Bytes) : Option Int × Bytes :=
  let digits := rest.takeWhile isDigit
  if digits = [] then (none, text)
  else
    let n : Int := if negative then -value digits else value digits
    (if -0x80000000 ≤ n ∧ n ≤ 0x7FFFFFFF then some n else none, rest.dropWhile isDigit)

theorem fromChars_minus (rest : Bytes) :
    fromChars (0x2D :: rest) = fromDigits true (0x2D :: rest) rest := rfl

theorem fromChars_plain {text : Bytes} (h : ∀ rest, text ≠ 0x2D :: rest) :
    fromChars text = fromDigits false text text := by
  unfold fromChars
  split
  next negative rest hmatch =>
    split at hmatch
    · next rest' => exact absurd rfl (h rest')
    · obtain ⟨rfl, rfl⟩ := Prod.mk.inj hmatch
      rfl

/-- The whole rest is read exactly when it is a run of digits and the number fits. -/
theorem fromDigits_eq_iff {negative : Bool} {text rest : Bytes} {n : Int} :
    fromDigits negative text rest = (some n, []) ↔
      rest ≠ [] ∧ (∀ b ∈ rest, isDigit b = true) ∧
        n = (if negative then -(value rest : Int) else value rest) ∧
        -0x80000000 ≤ n ∧ n ≤ 0x7FFFFFFF := by
  rw [fromDigits]
  refine ⟨?_, ?_⟩
  · intro h
    by_cases hnone : rest.takeWhile isDigit = []
    · rw [if_pos hnone] at h
      cases h
    · rw [if_neg hnone] at h
      obtain ⟨hread, hdrop⟩ := Prod.mk.inj h
      -- nothing is left, so the run is the whole rest
      have hall : ∀ b ∈ rest, isDigit b = true := List.dropWhile_eq_nil_iff.mp hdrop
      have htake : rest.takeWhile isDigit = rest := (takeWhile_digits hall).1
      rw [htake] at hread hnone
      obtain ⟨hrange, hn⟩ := Option.ite_none_right_eq_some.mp hread
      obtain rfl := Option.some.inj hn
      exact ⟨hnone, hall, rfl, hrange⟩
  · rintro ⟨hne, hall, hn, hrange⟩
    obtain ⟨htake, hdrop⟩ := takeWhile_digits hall
    simp only [htake, hdrop, if_neg hne, ← hn, if_pos hrange]

theorem fromChars_eq_iff {text : Bytes} {n : Int} :
    fromChars text = (some n, []) ↔ IsDecimalInt text n := by
  by_cases hminus : ∃ rest, text = 0x2D :: rest
  · obtain ⟨rest, rfl⟩ := hminus
    rw [fromChars_minus, fromDigits_eq_iff]
    refine ⟨?_, ?_⟩
    · rintro ⟨hne, hall, hn, hrange⟩
      exact ⟨rest, hne, hall, .inr ⟨rfl, hn⟩, hrange⟩
    · rintro ⟨digits, hne, hall, ⟨rfl, -⟩ | ⟨htext, hn⟩, hrange⟩
      · -- a minus sign is no digit
        have hdigit := hall 0x2D List.mem_cons_self
        cases hdigit
      · obtain rfl := (List.cons.inj htext).2
        exact ⟨hne, hall, hn, hrange⟩
  · rw [fromChars_plain fun rest htext => hminus ⟨rest, htext⟩, fromDigits_eq_iff]
    refine ⟨?_, ?_⟩
    · rintro ⟨hne, hall, hn, hrange⟩
      exact ⟨text, hne, hall, .inl ⟨rfl, hn⟩, hrange⟩
    · rintro ⟨digits, hne, hall, ⟨rfl, hn⟩ | ⟨htext, -⟩, hrange⟩
      · exact ⟨hne, hall, hn, hrange⟩
      · exact absurd ⟨digits, htext⟩ hminus

theorem IsDecimalInt.unique {text : Bytes} {n m : Int} (h : IsDecimalInt text n)
    (h' : IsDecimalInt text m) : n = m := by
  have hread := (fromChars_eq_iff.mpr h).symm.trans (fromChars_eq_iff.mpr h')
  exact Option.some.inj (Prod.mk.inj hread).1

namespace Setting

/-- What a value given for a field means. -/
def Reads (value : Bytes) : Setting → FieldValue → Prop
  | server, v | token, v | cameraId, v => v = .text value
  | width, v | height, v | fps, v | quality, v => ∃ n, IsDecimalInt value n ∧ v = .number n

/-- The value has a meaning. -/
def Accepts (s : Setting) (value : Bytes) : Prop := ∃ v, s.Reads value v

/-- The field has the value from its source, or its default where it has none. -/
def Holds (s : Setting) (source : Option Bytes) (config : Config) : Prop :=
  match source with
  | some value => s.Reads value (s.field config)
  | none => s.field config = s.field .initial

theorem denotes_iff_reads {s : Setting} {value : Bytes} {v : FieldValue} :
    s.Denotes value v ↔ s.Reads value v := by
  cases s with
  | server | token | cameraId => exact Iff.rfl
  | width | height | fps | quality => simp only [Denotes, Reads, fromChars_eq_iff]

theorem follows_iff_holds {s : Setting} {source : Option Bytes} {config : Config} :
    s.Follows source .initial config ↔ s.Holds source config := by
  cases source with
  | some value => exact denotes_iff_reads
  | none => exact Iff.rfl

theorem Reads.unique {s : Setting} {value : Bytes} {v v' : FieldValue} (h : s.Reads value v)
    (h' : s.Reads value v') : v = v' := by
  cases s with
  | server | token | cameraId => exact h.trans h'.symm
  | width | height | fps | quality =>
      obtain ⟨n, hn, rfl⟩ := h
      obtain ⟨m, hm, rfl⟩ := h'
      rw [hn.unique hm]

theorem Holds.unique {s : Setting} {source : Option Bytes} {config config' : Config}
    (h : s.Holds source config) (h' : s.Holds source config') :
    s.field config = s.field config' := by
  cases source with
  | some value => exact Reads.unique h h'
  | none => exact Eq.trans h (Eq.symm h')

theorem option_not_help (s : Setting) :
    ¬ (s.option = ascii "--help" ∨ s.option = ascii "-h") := by
  cases s <;> decide

end Setting

/-- A configuration is its fields. -/
theorem Config.ext_fields {config config' : Config}
    (h : ∀ s : Setting, s.field config = s.field config') : config = config' := by
  obtain ⟨serverUrl, token, cameraId, width, height, fps, quality⟩ := config
  obtain ⟨serverUrl', token', cameraId', width', height', fps', quality'⟩ := config'
  have hserver := FieldValue.text.inj (h .server)
  have htoken := FieldValue.text.inj (h .token)
  have hcameraId := FieldValue.text.inj (h .cameraId)
  have hwidth := FieldValue.number.inj (h .width)
  have hheight := FieldValue.number.inj (h .height)
  have hfps := FieldValue.number.inj (h .fps)
  have hquality := FieldValue.number.inj (h .quality)
  simp only at hserver htoken hcameraId hwidth hheight hfps hquality
  rw [hserver, htoken, hcameraId, hwidth, hheight, hfps, hquality]

/-! ## Pairs -/

/-- The arguments of a list of options with their values. -/
def pairArgs (pairs : List (Setting × Bytes)) : List Bytes :=
  pairs.flatMap fun p => [p.1.option, p.2]

/-- The value of the last pair for this field. -/
def lastGiven (s : Setting) (pairs : List (Setting × Bytes)) : Option Bytes :=
  (pairs.filterMap fun p => if p.1 = s then some p.2 else none).getLast?

/-- Every value of the command line has a meaning. -/
def Accepted (pairs : List (Setting × Bytes)) : Prop := ∀ p ∈ pairs, p.1.Accepts p.2

section Pairs

variable {env : Environ} {argv args : List Bytes} {config config' : Config}
  {pairs : List (Setting × Bytes)} {s : Setting} {value : Bytes}

@[simp] theorem pairArgs_nil : pairArgs [] = [] := rfl

@[simp] theorem pairArgs_cons (p : Setting × Bytes) :
    pairArgs (p :: pairs) = p.1.option :: p.2 :: pairArgs pairs := rfl

theorem lastGiven_cons (p : Setting × Bytes) :
    lastGiven s (p :: pairs) = (lastGiven s pairs <|> if p.1 = s then some p.2 else none) := by
  rw [lastGiven, List.filterMap_cons]
  by_cases hs : p.1 = s
  · simp only [if_pos hs, List.getLast?_cons, lastGiven]
    cases (pairs.filterMap fun p => if p.1 = s then some p.2 else none).getLast? <;> rfl
  · simp only [if_neg hs, lastGiven]
    cases (pairs.filterMap fun p => if p.1 = s then some p.2 else none).getLast? <;> rfl

theorem lastValue_pairArgs : lastValue s.option (pairArgs pairs) = lastGiven s pairs := by
  induction pairs with
  | nil => rfl
  | cons p pairs ih =>
      rw [pairArgs_cons, lastValue, ih, lastGiven_cons]
      simp only [Setting.option_injective.eq_iff]

theorem parseInteger_of_accepts {option : Bytes} (h : ∃ n, IsDecimalInt value n) :
    ∃ n, parseInteger value option = .ok n := by
  obtain ⟨n, hn⟩ := h
  exact ⟨n, parseInteger_eq_ok.mpr (fromChars_eq_iff.mpr hn)⟩

/-- A known option with a meaningful value is applied. -/
theorem applyOption_of_accepts (config : Config) (h : s.Accepts value) :
    ∃ config', applyOption config s.option value = .ok config' := by
  obtain ⟨v, hreads⟩ := h
  cases s with
  | server => exact ⟨_, rfl⟩
  | token => exact ⟨_, rfl⟩
  | cameraId => exact ⟨_, rfl⟩
  | width | height | fps | quality =>
      obtain ⟨n, hn, -⟩ := hreads
      obtain ⟨m, hm⟩ := parseInteger_of_accepts ⟨n, hn⟩
      exact ⟨_, map_eq_ok.mpr ⟨m, hm, rfl⟩⟩

/-- Accepted pairs are consumed, whatever follows them. -/
theorem parseOptions_append (config : Config) (h : Accepted pairs) :
    ∃ config', ∀ rest,
      parseOptions config (pairArgs pairs ++ rest) = parseOptions config' rest := by
  induction pairs generalizing config with
  | nil => exact ⟨config, fun rest => rfl⟩
  | cons p pairs ih =>
      obtain ⟨hp, hpairs⟩ := List.forall_mem_cons.mp h
      obtain ⟨mid, hmid⟩ := applyOption_of_accepts config hp
      obtain ⟨config', hrest⟩ := ih mid hpairs
      refine ⟨config', ?_⟩
      intro rest
      rw [pairArgs_cons, List.cons_append, List.cons_append, parseOptions,
        if_neg p.1.option_not_help, hmid]
      exact hrest rest

/-- A command line that is read through consists of accepted pairs. -/
theorem pairs_of_parseOptions (h : parseOptions config args = .ok config') :
    ∃ pairs, args = pairArgs pairs ∧ Accepted pairs := by
  induction args using List.twoStepInduction generalizing config with
  | nil => exact ⟨[], rfl, by simp [Accepted]⟩
  | singleton option =>
      rw [parseOptions] at h
      split at h <;> cases h
  | cons_cons option value rest ih _ =>
      obtain ⟨mid, hone, hrest⟩ := parseOptions_pair h
      obtain ⟨s, rfl, hdenotes, -⟩ := applyOption_eq_ok hone
      obtain ⟨pairs, rfl, hpairs⟩ := ih hrest
      have haccepts : s.Accepts value := ⟨_, Setting.denotes_iff_reads.mp hdenotes⟩
      exact ⟨(s, value) :: pairs, rfl, List.forall_mem_cons.mpr ⟨haccepts, hpairs⟩⟩

/-! ## The documented merge -/

/-- What the documentation promises of a configuration. -/
structure Config.Documented (config : Config) : Prop where
  scheme : ascii "http://" <+: config.serverUrl
  token : config.token ≠ []
  cameraId : 1 ≤ config.cameraId.length ∧ config.cameraId.length ≤ 64
  letters : ∀ b ∈ config.cameraId, (0x61 ≤ b.toNat ∧ b.toNat ≤ 0x7A) ∨
    (0x41 ≤ b.toNat ∧ b.toNat ≤ 0x5A) ∨ (0x30 ≤ b.toNat ∧ b.toNat ≤ 0x39) ∨
    b.toNat = 0x5F ∨ b.toNat = 0x2D
  size : 0 < config.width ∧ 0 < config.height
  fps : 1 ≤ config.fps ∧ config.fps ≤ 30
  quality : 30 ≤ config.jpegQuality ∧ config.jpegQuality ≤ 95

theorem documented_iff_valid : config.Documented ↔ config.Valid := by
  refine ⟨?_, ?_⟩
  · rintro ⟨hscheme, htoken, ⟨hpos, hlen⟩, hletters, hsize, hfps, hquality⟩
    refine ⟨hscheme, htoken, validCameraId_iff.mpr ⟨hpos, hlen, fun b hb => ?_⟩, hsize, hfps,
      hquality⟩
    exact isCameraIdByte_iff.mpr (hletters b hb)
  · rintro ⟨hscheme, htoken, hid, hsize, hfps, hquality⟩
    obtain ⟨hpos, hlen, hletters⟩ := validCameraId_iff.mp hid
    exact ⟨hscheme, htoken, ⟨hpos, hlen⟩, fun b hb => isCameraIdByte_iff.mp (hletters b hb),
      hsize, hfps, hquality⟩

/-- The configuration that the command line and the environment describe. -/
structure Merges (env : Environ) (argv : List Bytes) (config : Config) : Prop where
  pairs : ∃ pairs, argv.tail = pairArgs pairs ∧ Accepted pairs ∧
    ∀ s : Setting, s.Holds (lastGiven s pairs <|> environment env s.variableName) config
  documented : config.Documented

/-- Every variable that is set has a meaning. -/
def VariablesAccepted (env : Environ) : Prop :=
  ∀ (s : Setting) value, environment env s.variableName = some value → s.Accepts value

theorem applyEnvironmentInteger_of_accepts (destination : Int) {name : Bytes}
    (h : ∀ value, environment env name = some value → ∃ n, IsDecimalInt value n) :
    ∃ n, applyEnvironmentInteger destination env name = .ok n := by
  rw [applyEnvironmentInteger]
  cases hvalue : environment env name with
  | none => exact ⟨destination, rfl⟩
  | some value => exact parseInteger_of_accepts (h value hvalue)

theorem applyEnvironment_of_accepted (config : Config) (h : VariablesAccepted env) :
    ∃ config', applyEnvironment env config = .ok config' := by
  have hinteger : ∀ s : Setting, (∀ value v, s.Reads value v → ∃ n, IsDecimalInt value n) →
      ∀ value, environment env s.variableName = some value → ∃ n, IsDecimalInt value n := by
    intro s hs value hvalue
    obtain ⟨v, hreads⟩ := h s value hvalue
    exact hs value v hreads
  obtain ⟨width, hwidth⟩ := applyEnvironmentInteger_of_accepts config.width
    (hinteger .width fun value v hreads => ⟨_, hreads.choose_spec.1⟩)
  obtain ⟨height, hheight⟩ := applyEnvironmentInteger_of_accepts config.height
    (hinteger .height fun value v hreads => ⟨_, hreads.choose_spec.1⟩)
  obtain ⟨fps, hfps⟩ := applyEnvironmentInteger_of_accepts config.fps
    (hinteger .fps fun value v hreads => ⟨_, hreads.choose_spec.1⟩)
  obtain ⟨quality, hquality⟩ :=
    applyEnvironmentInteger_of_accepts config.jpegQuality
      (hinteger .quality fun value v hreads => ⟨_, hreads.choose_spec.1⟩)
  exact ⟨_, bind_eq_ok.mpr ⟨width, hwidth, bind_eq_ok.mpr ⟨height, hheight,
    bind_eq_ok.mpr ⟨fps, hfps, bind_eq_ok.mpr ⟨quality, hquality, rfl⟩⟩⟩⟩⟩

theorem accepted_of_applyEnvironment (h : applyEnvironment env config = .ok config') :
    VariablesAccepted env := by
  intro s value hvalue
  have hfollows := applyEnvironment_follows h s
  rw [hvalue] at hfollows
  exact ⟨_, Setting.denotes_iff_reads.mp hfollows⟩

/-- A result is the documented merge. -/
theorem merges_of_parseConfig (h : parseConfig env argv = .ok config) :
    Merges env argv config := by
  obtain ⟨mid, -, hargs, -⟩ := parseConfig_eq_ok h
  obtain ⟨pairs, htail, haccepted⟩ := pairs_of_parseOptions hargs
  refine ⟨⟨pairs, htail, haccepted, fun s => ?_⟩, documented_iff_valid.mpr (parseConfig_valid h)⟩
  rw [← lastValue_pairArgs, ← htail]
  exact Setting.follows_iff_holds.mp (parseConfig_follows h s)

/-- **The function is its description**, where every variable that is set has a meaning. -/
theorem parseConfig_eq_ok_iff :
    parseConfig env argv = .ok config ↔ VariablesAccepted env ∧ Merges env argv config := by
  refine ⟨?_, ?_⟩
  · intro h
    obtain ⟨mid, henv, -, -⟩ := parseConfig_eq_ok h
    exact ⟨accepted_of_applyEnvironment henv, merges_of_parseConfig h⟩
  · rintro ⟨hvariables, ⟨pairs, htail, haccepted, hholds⟩, hdocumented⟩
    obtain ⟨mid, henv⟩ := applyEnvironment_of_accepted .initial hvariables
    obtain ⟨config', hargs⟩ := parseOptions_append mid haccepted
    have hread : parseOptions mid argv.tail = .ok config' := by
      have hall := hargs []
      rw [List.append_nil] at hall
      rw [htail, hall, parseOptions]
    -- the field of the result and of the description have the same source
    have hsame : config' = config := by
      refine Config.ext_fields fun s => ?_
      have hfollows := (applyEnvironment_follows henv s).trans (parseOptions_follows hread s)
      rw [htail, lastValue_pairArgs] at hfollows
      exact (Setting.follows_iff_holds.mp hfollows).unique (hholds s)
    subst hsame
    have hvalid : validate config' = .ok () :=
      validate_eq_ok.mpr (documented_iff_valid.mp hdocumented)
    exact bind_eq_ok.mpr ⟨mid, henv, bind_eq_ok.mpr ⟨config', hread,
      bind_eq_ok.mpr ⟨(), hvalid, rfl⟩⟩⟩

/-! ### Command lines that are refused -/

/-- In option position stands a help flag, an unknown option, or an option without value. -/
def Misused (args : List Bytes) : Prop :=
  ∃ front option rest, args = front ++ option :: rest ∧ front.length % 2 = 0 ∧
    (option = ascii "--help" ∨ option = ascii "-h" ∨ (∀ s : Setting, s.option ≠ option) ∨ rest = [])

theorem not_misused_pairArgs : ¬ Misused (pairArgs pairs) := by
  induction pairs with
  | nil =>
      rintro ⟨front, option, rest, hsplit, -⟩
      simp at hsplit
  | cons p pairs ih =>
      rintro ⟨front, option, rest, hsplit, heven, hbad⟩
      rw [pairArgs_cons] at hsplit
      cases front with
      | nil =>
          -- the option of the first pair
          obtain ⟨rfl, rfl⟩ := List.cons.inj hsplit
          rcases hbad with hhelp | hhelp | hunknown | hmissing
          · exact p.1.option_not_help (.inl hhelp)
          · exact p.1.option_not_help (.inr hhelp)
          · exact hunknown p.1 rfl
          · cases hmissing
      | cons first front =>
          cases front with
          | nil => simp at heven
          | cons second front =>
              simp only [List.cons_append, List.cons.injEq] at hsplit
              refine ih ⟨front, option, rest, hsplit.2.2, ?_, hbad⟩
              simp only [List.length_cons] at heven
              omega

/-- **The documented merge.** If `parse_config` returns, its arguments are pairs of known
    options and values, every field has the value of its last pair, otherwise of its
    variable, otherwise its default, and the result satisfies every constraint.  On a
    misused command line it throws. -/
theorem parse_config_merges (env : Environ) (argv : List Bytes) :
    (∀ config, parseConfig env argv = .ok config →
      (∃ pairs, argv.tail = pairArgs pairs ∧ Accepted pairs ∧
        ∀ s : Setting, s.Holds (lastGiven s pairs <|> environment env s.variableName) config) ∧
      config.Documented) ∧
    (Misused argv.tail → ∃ e, parseConfig env argv = .error e) := by
  refine ⟨?_, ?_⟩
  · intro config h
    have hmerges := merges_of_parseConfig h
    exact ⟨hmerges.pairs, hmerges.documented⟩
  · intro hmisused
    cases hparse : parseConfig env argv with
    | error e => exact ⟨e, rfl⟩
    | ok config =>
        obtain ⟨pairs, htail, -⟩ := (merges_of_parseConfig hparse).pairs
        rw [htail] at hmisused
        exact absurd hmisused not_misused_pairArgs

/-- The environment that `test_config_precedence` sets up. -/
def testVariables : Environ := fun name =>
  if name = ascii "CAMERA_SERVER_URL" then some (ascii "http://environment:3000")
  else if name = ascii "CAMERA_TOKEN" then some (ascii "unit-test-token")
  else if name = ascii "CAMERA_FPS" then some (ascii "7")
  else none

def testArgs : List Bytes :=
  [ascii "camera-client-tests", ascii "--server", ascii "http://cli:3000", ascii "--fps",
    ascii "9"]

/-- In that test the server and the frame rate of the command line win, and the token of
    the environment is kept. -/
theorem test_config_merges : ∃ config, parseConfig testVariables testArgs = .ok config ∧
    config.serverUrl = ascii "http://cli:3000" ∧ config.fps = 9 ∧
      config.token = ascii "unit-test-token" ∧ config.Documented := by
  have hparse : parseConfig testVariables testArgs =
      .ok { serverUrl := ascii "http://cli:3000", token := ascii "unit-test-token", fps := 9 } := by
    decide +kernel
  exact ⟨_, hparse, rfl, rfl, rfl, ((parse_config_merges testVariables testArgs).1 _ hparse).2⟩

/-! ## Overridden variables -/

/-- The option of this field is given on the command line. -/
def OnCommandLine (argv : List Bytes) (s : Setting) : Prop :=
  ∃ value, lastValue s.option argv.tail = some value

/-- The environments differ only in variables whose option is given. -/
def DifferOnlyOverridden (argv : List Bytes) (env env' : Environ) : Prop :=
  ∀ name, (∀ s : Setting, OnCommandLine argv s → s.variableName ≠ name) → env name = env' name

/-- The same configuration, or a failure in both. -/
def SameOutcome (result result' : Except Bytes Config) : Prop :=
  (∃ config, result = .ok config ∧ result' = .ok config) ∨
    (∃ e, result = .error e) ∧ ∃ e', result' = .error e'

/-- An overridden variable is set to a text without meaning. -/
def OverriddenMalformed (argv : List Bytes) (env : Environ) : Prop :=
  ∃ (s : Setting) (value : Bytes), OnCommandLine argv s ∧
    environment env s.variableName = some value ∧ ¬ s.Accepts value

variable {env' : Environ}

theorem DifferOnlyOverridden.symm (h : DifferOnlyOverridden argv env env') :
    DifferOnlyOverridden argv env' env := fun name hname => (h name hname).symm

theorem variableName_injective : Function.Injective Setting.variableName := by
  intro s t h
  cases s <;> cases t <;> first | rfl | exact absurd h (by decide)

/-- A variable that is not overridden is the same on both sides. -/
theorem DifferOnlyOverridden.environment_eq (h : DifferOnlyOverridden argv env env')
    (hs : ¬ OnCommandLine argv s) :
    environment env s.variableName = environment env' s.variableName := by
  rw [environment, environment, h s.variableName fun t ht hname => ?_]
  obtain rfl := variableName_injective hname
  exact hs ht

/-- What is described does not depend on overridden variables. -/
theorem Merges.congr (h : DifferOnlyOverridden argv env env') (hmerges : Merges env argv config) :
    Merges env' argv config := by
  obtain ⟨⟨pairs, htail, haccepted, hholds⟩, hdocumented⟩ := hmerges
  refine ⟨⟨pairs, htail, haccepted, fun s => ?_⟩, hdocumented⟩
  have hs := hholds s
  cases hlast : lastGiven s pairs with
  | some value =>
      rw [hlast] at hs
      exact hs
  | none =>
      have hnot : ¬ OnCommandLine argv s := by
        rintro ⟨value, hvalue⟩
        rw [htail, lastValue_pairArgs, hlast] at hvalue
        cases hvalue
      rw [hlast, h.environment_eq hnot] at hs
      exact hs

/-- Where there is something to return, only an overridden variable can prevent it. -/
theorem variablesAccepted_iff (hmerges : Merges env argv config) :
    VariablesAccepted env ↔ ¬ OverriddenMalformed argv env := by
  obtain ⟨⟨pairs, htail, haccepted, hholds⟩, -⟩ := hmerges
  refine ⟨?_, ?_⟩
  · rintro haccepted ⟨s, value, -, hvalue, hbad⟩
    exact hbad (haccepted s value hvalue)
  · intro hnot s value hvalue
    by_contra hbad
    by_cases hs : OnCommandLine argv s
    · exact hnot ⟨s, value, hs, hvalue, hbad⟩
    · -- the variable is the source of its field
      have hlast : lastGiven s pairs = none := by
        rw [← lastValue_pairArgs, ← htail]
        cases hlast : lastValue s.option argv.tail with
        | none => rfl
        | some given => exact absurd ⟨given, hlast⟩ hs
      have hfield := hholds s
      rw [hlast, hvalue] at hfield
      exact hbad ⟨_, hfield⟩

/-- What is described is returned, unless an overridden variable is malformed. -/
theorem outcome_of_merges (hmerges : Merges env argv config) :
    parseConfig env argv = .ok config ∧ ¬ OverriddenMalformed argv env ∨
      (∃ e, parseConfig env argv = .error e) ∧ OverriddenMalformed argv env := by
  by_cases hmalformed : OverriddenMalformed argv env
  · refine .inr ⟨?_, hmalformed⟩
    cases hparse : parseConfig env argv with
    | error e => exact ⟨e, rfl⟩
    | ok config' =>
        have haccepted := (parseConfig_eq_ok_iff.mp hparse).1
        exact absurd hmalformed ((variablesAccepted_iff hmerges).mp haccepted)
  · have haccepted := (variablesAccepted_iff hmerges).mpr hmalformed
    exact .inl ⟨parseConfig_eq_ok_iff.mpr ⟨haccepted, hmerges⟩, hmalformed⟩

theorem error_of_not_merges (hnone : ∀ config, ¬ Merges env argv config) :
    ∃ e, parseConfig env argv = .error e := by
  cases hparse : parseConfig env argv with
  | error e => exact ⟨e, rfl⟩
  | ok config => exact absurd (merges_of_parseConfig hparse) (hnone config)

/-- **When the command line overrides the environment.** Two environments that differ only
    in overridden variables have the same outcome exactly when both or none has an
    overridden variable that is malformed, or when there is nothing valid to return
    anyway. -/
theorem command_line_overrides_iff (hdiffer : DifferOnlyOverridden argv env env') :
    SameOutcome (parseConfig env argv) (parseConfig env' argv) ↔
      ((∃ config, Merges env argv config) →
        (OverriddenMalformed argv env ↔ OverriddenMalformed argv env')) := by
  by_cases hdescribed : ∃ config, Merges env argv config
  · obtain ⟨config, hmerges⟩ := hdescribed
    rw [imp_iff_right ⟨config, hmerges⟩]
    -- each run returns `config` or fails, by its own variables
    rcases outcome_of_merges hmerges with ⟨hok, hgood⟩ | ⟨⟨e, herror⟩, hbad⟩ <;>
      rcases outcome_of_merges (hmerges.congr hdiffer) with
        ⟨hok', hgood'⟩ | ⟨⟨e', herror'⟩, hbad'⟩
    · exact iff_of_true (.inl ⟨config, hok, hok'⟩) (iff_of_false hgood hgood')
    · refine iff_of_false ?_ fun hiff => hgood (hiff.mpr hbad')
      simp [SameOutcome, hok, herror']
    · refine iff_of_false ?_ fun hiff => hgood' (hiff.mp hbad)
      simp [SameOutcome, herror, hok']
    · exact iff_of_true (.inr ⟨⟨e, herror⟩, e', herror'⟩) (iff_of_true hbad hbad')
  · have hnone : ∀ config, ¬ Merges env argv config := fun config h => hdescribed ⟨config, h⟩
    have hnone' : ∀ config, ¬ Merges env' argv config := fun config h =>
      hnone config (h.congr hdiffer.symm)
    refine iff_of_true (.inr ⟨error_of_not_merges hnone, error_of_not_merges hnone'⟩) ?_
    exact fun hsome => absurd hsome hdescribed

/-! ### The width on the command line -/

def widthVariable (value : Bytes) : Environ := fun name =>
  if name = ascii "CAMERA_WIDTH" then some value else none

def widthArgs : List Bytes :=
  [ascii "camera-client", ascii "--server", ascii "http://host", ascii "--token", ascii "key",
    ascii "--width", ascii "640"]

theorem differ_in_width (value : Bytes) :
    DifferOnlyOverridden widthArgs (widthVariable value) fun _ => none := by
  intro name hname
  have hgiven : OnCommandLine widthArgs .width := ⟨ascii "640", by decide +kernel⟩
  exact if_neg fun heq => hname .width hgiven heq.symm

theorem environment_width (value : Bytes) (hs : s ≠ .width) :
    environment (widthVariable value) s.variableName = none := by
  have hname : s.variableName ≠ ascii "CAMERA_WIDTH" := by
    intro heq
    have hsame : s.variableName = Setting.width.variableName := heq
    exact hs (variableName_injective hsame)
  rw [environment, widthVariable, if_neg hname]

/-- An overridden width that is a number has no influence. -/
theorem width_overridden :
    SameOutcome (parseConfig (widthVariable (ascii "320")) widthArgs)
      (parseConfig (fun _ => none) widthArgs) := by
  refine (command_line_overrides_iff (differ_in_width _)).mpr fun _ => iff_of_false ?_ ?_
  · rintro ⟨s, value, -, hvalue, hbad⟩
    by_cases hs : s = .width
    · subst hs
      have htext : environment (widthVariable (ascii "320")) (ascii "CAMERA_WIDTH") =
          some (ascii "320") := by decide +kernel
      obtain rfl := Option.some.inj (htext.symm.trans hvalue)
      have hnumber : fromChars (ascii "320") = (some 320, []) := by decide +kernel
      exact hbad ⟨.number 320, 320, fromChars_eq_iff.mp hnumber, rfl⟩
    · rw [environment_width _ hs] at hvalue
      cases hvalue
  · rintro ⟨s, value, -, hvalue, -⟩
    cases hvalue

/-- An overridden width that is no number prevents the start. -/
theorem malformed_width_not_overridden :
    DifferOnlyOverridden widthArgs (widthVariable (ascii "wide")) (fun _ => none) ∧
      ¬ SameOutcome (parseConfig (widthVariable (ascii "wide")) widthArgs)
        (parseConfig (fun _ => none) widthArgs) := by
  have hfails : (parseConfig (widthVariable (ascii "wide")) widthArgs).toBool = false := by
    decide +kernel
  have hreturns : (parseConfig (fun _ => none) widthArgs).toBool = true := by
    decide +kernel
  refine ⟨differ_in_width _, ?_⟩
  rintro (⟨config, hok, -⟩ | ⟨-, e, herror⟩)
  · rw [hok] at hfails
    cases hfails
  · rw [herror] at hreturns
    cases hreturns

end Pairs

end CameraStream.Client
