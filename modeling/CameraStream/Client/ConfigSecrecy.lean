/-
  CameraStream.Client.ConfigSecrecy

  What the error texts of `parse_config` tell about the camera token.

  Two runs are compared whose inputs are the same except for the secrets: the variable
  `CAMERA_TOKEN`, and every argument behind one that is spelled `--token`.  As long as the
  secrets stand in value position the runs go side by side (`parseOptions_alike`).  In
  option position a secret is echoed as the name of an option; `Exposed` says when the
  loop gets there.
-/

import CameraStream.Client.ConfigMerge

namespace CameraStream.Client

def tokenOption : Bytes := ascii "--token"

/-- A text that may stand for a token on the command line. -/
def IsSecret (secret : Bytes) : Prop :=
  secret ≠ [] ∧ secret ≠ ascii "-h" ∧ secret ≠ ascii "--help"

/-- Argument lists that are the same but for the arguments behind `--token`.  The flag tells
    that the arguments before these are spelled `--token`, in both lists. -/
inductive SameButSecrets : Bool → List Bytes → List Bytes → Prop where
  | nil (behind : Bool) : SameButSecrets behind [] []
  | same {behind : Bool} (argument : Bytes) {rest rest' : List Bytes}
      (h : SameButSecrets (argument = tokenOption) rest rest') :
      SameButSecrets behind (argument :: rest) (argument :: rest')
  | secret {secret secret' : Bytes} {rest rest' : List Bytes} (hsecret : IsSecret secret)
      (hsecret' : IsSecret secret')
      (h : SameButSecrets (secret = tokenOption && secret' = tokenOption) rest rest') :
      SameButSecrets true (secret :: rest) (secret' :: rest')

/-- Environments that are the same but for `CAMERA_TOKEN`, set in both where they differ. -/
structure SameButToken (env env' : Environ) : Prop where
  others : ∀ name, name ≠ ascii "CAMERA_TOKEN" → env name = env' name
  token : env (ascii "CAMERA_TOKEN") = env' (ascii "CAMERA_TOKEN") ∨
    (environment env (ascii "CAMERA_TOKEN")).isSome ∧
      (environment env' (ascii "CAMERA_TOKEN")).isSome

/-- Configurations that differ at most in the token, or the same error text. -/
def SameButForToken (result result' : Except Bytes Config) : Prop :=
  match result, result' with
  | .ok config, .ok config' => { config with token := [] } = { config' with token := [] }
  | .error e, .error e' => e = e'
  | _, _ => False

/-- The outcome is the same for every other version of the secrets. -/
def KeepsSecrets (env : Environ) (argv : List Bytes) : Prop :=
  ∀ env' argv', SameButToken env env' → SameButSecrets false argv argv' →
    SameButForToken (parseConfig env argv) (parseConfig env' argv')

/-- Behind accepted pairs a secret stands in option position. -/
def ExposedBehind (behind : Bool) (args : List Bytes) : Prop :=
  ∃ pairs secret rest, args = pairArgs pairs ++ secret :: rest ∧ Accepted pairs ∧
    IsSecret secret ∧ (match pairs.getLast? with
      | some pair => pair.2 = tokenOption
      | none => behind = true)

/-- The same for a whole command line, where the first argument is the program. -/
def Exposed (argv : List Bytes) : Prop :=
  ∃ program args, argv = program :: args ∧ ExposedBehind (program = tokenOption) args

variable {env env' : Environ} {argv argv' args args' rest : List Bytes}
  {config config' d : Config} {option value : Bytes} {behind : Bool}

/-! ## Two runs side by side -/

/-- Configurations that differ in the token only, and agree on whether there is one. -/
structure Alike (config config' : Config) : Prop where
  others : config' = { config with token := config'.token }
  token : config.token = [] ↔ config'.token = []

/-- Both computations fail with the same text, or return configurations that are alike. -/
def RunAlike (result result' : Except Bytes Config) : Prop :=
  (∃ e, result = .error e ∧ result' = .error e) ∨
    ∃ config config', result = .ok config ∧ result' = .ok config' ∧ Alike config config'

theorem Alike.sameButForToken (h : Alike config config') :
    SameButForToken (.ok config) (.ok config') := by
  show { config with token := [] } = { config' with token := [] }
  rw [h.others]

theorem applyOption_alike (h : Alike config config') (option value : Bytes) :
    RunAlike (applyOption config option value) (applyOption config' option value) := by
  have hinteger : ∀ set : Config → Int → Config,
      (∀ n, Alike (set config n) (set config' n)) →
      RunAlike ((parseInteger value option).map (set config))
        ((parseInteger value option).map (set config')) := by
    intro set hset
    cases parseInteger value option with
    | error e => exact .inl ⟨e, rfl, rfl⟩
    | ok n => exact .inr ⟨_, _, rfl, rfl, hset n⟩
  obtain ⟨hothers, htoken⟩ := h
  generalize config'.token = token at hothers htoken
  subst hothers
  simp only [applyOption]
  split_ifs
  · exact .inr ⟨_, _, rfl, rfl, rfl, htoken⟩
  · exact .inr ⟨_, _, rfl, rfl, rfl, Iff.rfl⟩
  · exact .inr ⟨_, _, rfl, rfl, rfl, htoken⟩
  · exact hinteger (fun config width => { config with width }) fun n => ⟨rfl, htoken⟩
  · exact hinteger (fun config height => { config with height }) fun n => ⟨rfl, htoken⟩
  · exact hinteger (fun config fps => { config with fps }) fun n => ⟨rfl, htoken⟩
  · exact hinteger (fun config jpegQuality => { config with jpegQuality }) fun n => ⟨rfl, htoken⟩
  · exact .inl ⟨_, rfl, rfl⟩

theorem validate_alike (h : Alike config config') : validate config = validate config' := by
  obtain ⟨hothers, htoken⟩ := h
  rw [hothers]
  simp only [validate, htoken]

theorem environment_alike (h : SameButToken env env') {name : Bytes}
    (hname : name ≠ ascii "CAMERA_TOKEN") : environment env name = environment env' name := by
  rw [environment, environment, h.others name hname]

theorem environment_ne_nil {name : Bytes} (h : environment env name = some value) :
    value ≠ [] := by
  rw [environment] at h
  cases hvalue : env name with
  | none =>
      rw [hvalue] at h
      cases h
  | some text =>
      rw [hvalue] at h
      by_cases hempty : text = []
      · simp [hempty] at h
      · simp only [if_neg hempty, Option.some.injEq] at h
        exact h ▸ hempty

/-- A token is there in both environments or in none. -/
theorem SameButToken.token_nil (h : SameButToken env env') :
    (environment env (ascii "CAMERA_TOKEN")).getD [] = [] ↔
      (environment env' (ascii "CAMERA_TOKEN")).getD [] = [] := by
  rcases h.token with hsame | ⟨hset, hset'⟩
  · rw [environment, environment, hsame]
  · obtain ⟨token, htoken⟩ := Option.isSome_iff_exists.mp hset
    obtain ⟨token', htoken'⟩ := Option.isSome_iff_exists.mp hset'
    rw [htoken, htoken']
    exact iff_of_false (environment_ne_nil htoken) (environment_ne_nil htoken')

theorem applyEnvironment_alike (h : SameButToken env env') :
    RunAlike (applyEnvironment env .initial) (applyEnvironment env' .initial) := by
  have hinteger : ∀ destination name, name ≠ ascii "CAMERA_TOKEN" →
      applyEnvironmentInteger destination env' name =
        applyEnvironmentInteger destination env name := by
    intro destination name hname
    rw [applyEnvironmentInteger, applyEnvironmentInteger, environment_alike h hname]
  rw [applyEnvironment, applyEnvironment, hinteger _ _ (by decide), hinteger _ _ (by decide),
    hinteger _ _ (by decide), hinteger _ _ (by decide)]
  -- the integers are read in the same order, and the first bad one ends both runs
  cases applyEnvironmentInteger Config.initial.width env (ascii "CAMERA_WIDTH") with
  | error e => exact .inl ⟨e, rfl, rfl⟩
  | ok width =>
  cases applyEnvironmentInteger Config.initial.height env (ascii "CAMERA_HEIGHT") with
  | error e => exact .inl ⟨e, rfl, rfl⟩
  | ok height =>
  cases applyEnvironmentInteger Config.initial.fps env (ascii "CAMERA_FPS") with
  | error e => exact .inl ⟨e, rfl, rfl⟩
  | ok fps =>
  cases applyEnvironmentInteger Config.initial.jpegQuality env (ascii "JPEG_QUALITY") with
  | error e => exact .inl ⟨e, rfl, rfl⟩
  | ok quality =>
  refine .inr ⟨_, _, rfl, rfl, ?_, ?_⟩
  · simp only [environment_alike h (by decide : ascii "CAMERA_SERVER_URL" ≠ ascii "CAMERA_TOKEN"),
      environment_alike h (by decide : ascii "CAMERA_ID" ≠ ascii "CAMERA_TOKEN")]
  · exact h.token_nil

/-! ## Secrets in value position -/

/-- An exposed secret is exposed behind one more accepted pair. -/
theorem ExposedBehind.cons {s : Setting} (hvalue : s.Accepts value)
    (h : ExposedBehind (value = tokenOption) rest) :
    ExposedBehind behind (s.option :: value :: rest) := by
  obtain ⟨pairs, secret, rest, rfl, haccepted, hsecret, hlast⟩ := h
  refine ⟨(s, value) :: pairs, secret, rest, rfl, List.forall_mem_cons.mpr ⟨hvalue, haccepted⟩,
    hsecret, ?_⟩
  cases hpairs : pairs.getLast? with
  | none =>
      obtain rfl := List.getLast?_eq_none_iff.mp hpairs
      simpa using hlast
  | some pair =>
      rw [hpairs] at hlast
      rw [List.getLast?_cons, hpairs]
      exact hlast

/-- The argument behind an option, in both lists. -/
theorem SameButSecrets.value_cases
    (h : SameButSecrets (option = tokenOption) (value :: rest) args') :
    ∃ value' rest' behind', args' = value' :: rest' ∧ SameButSecrets behind' rest rest' ∧
      (behind' = true → value = tokenOption) ∧
      (value = value' ∨ option = tokenOption ∧ value ≠ [] ∧ value' ≠ []) := by
  generalize hbehind : decide (option = tokenOption) = behind at h
  cases h with
  | same _ hrest => exact ⟨value, _, _, rfl, hrest, of_decide_eq_true, .inl rfl⟩
  | secret hsecret hsecret' hrest =>
      refine ⟨_, _, _, rfl, hrest, fun hboth => ?_, .inr ⟨of_decide_eq_true hbehind, hsecret.1,
        hsecret'.1⟩⟩
      exact of_decide_eq_true (Bool.and_eq_true_iff.mp hboth).1

theorem SameButSecrets.eq_nil (h : SameButSecrets behind [] args') : args' = [] := by
  cases h
  rfl

/-- A value that differs is a token, and goes into the token. -/
theorem applyOption_alike_value (h : Alike config config') {value' : Bytes}
    (hvalue : value = value' ∨ option = tokenOption ∧ value ≠ [] ∧ value' ≠ []) :
    RunAlike (applyOption config option value) (applyOption config' option value') := by
  rcases hvalue with rfl | ⟨rfl, hne, hne'⟩
  · exact applyOption_alike h option value
  · refine .inr ⟨{ config with token := value }, { config' with token := value' }, rfl, rfl, ?_,
      iff_of_false hne hne'⟩
    rw [h.others]

/-- A secret at the head stands in option position. -/
theorem exposedBehind_head {secret : Bytes} (hsecret : IsSecret secret) :
    ExposedBehind true (secret :: rest) :=
  ⟨[], secret, rest, rfl, by simp [Accepted], hsecret, rfl⟩

/-- As long as no secret stands in option position, the runs go side by side. -/
theorem parseOptions_alike {exposing : Bool} (hargs : SameButSecrets behind args args')
    (hflag : behind = true → exposing = true) (hnot : ¬ ExposedBehind exposing args)
    (h : Alike config config') :
    RunAlike (parseOptions config args) (parseOptions config' args') := by
  induction args using List.twoStepInduction
    generalizing behind exposing args' config config' with
  | nil =>
      obtain rfl := hargs.eq_nil
      exact .inr ⟨config, config', rfl, rfl, h⟩
  | singleton option =>
      cases hargs with
      | same _ hrest =>
          obtain rfl := hrest.eq_nil
          rw [parseOptions, parseOptions]
          split
          · exact .inl ⟨_, rfl, rfl⟩
          · exact .inl ⟨_, rfl, rfl⟩
      | secret hsecret hsecret' hrest =>
          obtain rfl := hflag rfl
          exact absurd (exposedBehind_head hsecret) hnot
  | cons_cons option value rest ih _ =>
      cases hargs with
      | secret hsecret hsecret' hrest =>
          obtain rfl := hflag rfl
          exact absurd (exposedBehind_head hsecret) hnot
      | same _ hrest =>
          obtain ⟨value', rest', behind', rfl, hrest', hbehind, hvalue⟩ := hrest.value_cases
          rw [parseOptions, parseOptions]
          by_cases hhelp : option = ascii "--help" ∨ option = ascii "-h"
          · rw [if_pos hhelp, if_pos hhelp]
            exact .inl ⟨_, rfl, rfl⟩
          · rw [if_neg hhelp, if_neg hhelp]
            rcases applyOption_alike_value h hvalue with
              ⟨e, he, he'⟩ | ⟨d, d', hd, hd', halike⟩
            · rw [he, he']
              exact .inl ⟨e, rfl, rfl⟩
            · rw [hd, hd']
              -- the pair is accepted, so what is exposed behind it is exposed here
              obtain ⟨s, rfl, hdenotes, -⟩ := applyOption_eq_ok hd
              refine ih hrest' (fun hb => decide_eq_true (hbehind hb))
                (fun hexposed => hnot ?_) halike
              exact hexposed.cons ⟨_, Setting.denotes_iff_reads.mp hdenotes⟩

/-- Where no secret is exposed, the outcome does not depend on the secrets. -/
theorem keepsSecrets_of_not_exposed (hnot : VariablesAccepted env → ¬ Exposed argv) :
    KeepsSecrets env argv := by
  intro env' argv' henv hargv
  rw [parseConfig, parseConfig]
  rcases applyEnvironment_alike henv with ⟨e, he, he'⟩ | ⟨mid, mid', hmid, hmid', halike⟩
  · rw [he, he']
    exact rfl
  · rw [hmid, hmid']
    have hread : RunAlike (parseOptions mid argv.tail) (parseOptions mid' argv'.tail) := by
      cases hargv with
      | nil => exact .inr ⟨mid, mid', rfl, rfl, halike⟩
      | same program hrest =>
          refine parseOptions_alike hrest id (fun hexposed => ?_) halike
          exact hnot (accepted_of_applyEnvironment hmid) ⟨program, _, rfl, hexposed⟩
    show SameButForToken
      (parseOptions mid argv.tail >>= fun config => validate config >>= fun _ => pure config)
      (parseOptions mid' argv'.tail >>= fun config => validate config >>= fun _ => pure config)
    rcases hread with ⟨e, he, he'⟩ | ⟨config, config', hconfig, hconfig', hsame⟩
    · rw [he, he']
      exact rfl
    · rw [hconfig, hconfig']
      show SameButForToken (validate config >>= fun _ => pure config)
        (validate config' >>= fun _ => pure config')
      rw [← validate_alike hsame]
      cases validate config with
      | error e => exact rfl
      | ok _ => exact hsame.sameButForToken

/-! ## Secrets in option position -/

theorem SameButSecrets.refl (args : List Bytes) : SameButSecrets behind args args := by
  induction args generalizing behind with
  | nil => exact .nil behind
  | cons argument rest ih => exact .same argument ih

/-- An exposed secret may be any other one. -/
theorem sameButSecrets_replace {pairs : List (Setting × Bytes)} {secret secret' : Bytes}
    (hlast : match pairs.getLast? with
      | some pair => pair.2 = tokenOption
      | none => behind = true)
    (hsecret : IsSecret secret) (hsecret' : IsSecret secret') :
    SameButSecrets behind (pairArgs pairs ++ secret :: rest)
      (pairArgs pairs ++ secret' :: rest) := by
  induction pairs generalizing behind with
  | nil =>
      obtain rfl : behind = true := hlast
      exact .secret hsecret hsecret' (.refl rest)
  | cons pair pairs ih =>
      refine .same pair.1.option (.same pair.2 (ih ?_))
      cases hpairs : pairs.getLast? with
      | none =>
          rw [List.getLast?_cons, hpairs] at hlast
          exact decide_eq_true hlast
      | some last =>
          rw [List.getLast?_cons, hpairs] at hlast
          exact hlast

theorem applyOption_unknown (hunknown : ∀ s : Setting, s.option ≠ option) :
    applyOption config option value = .error (ascii "unknown option: " ++ option) := by
  have hserver : option ≠ ascii "--server" := (hunknown .server).symm
  have htoken : option ≠ ascii "--token" := (hunknown .token).symm
  have hcameraId : option ≠ ascii "--camera-id" := (hunknown .cameraId).symm
  have hwidth : option ≠ ascii "--width" := (hunknown .width).symm
  have hheight : option ≠ ascii "--height" := (hunknown .height).symm
  have hfps : option ≠ ascii "--fps" := (hunknown .fps).symm
  have hquality : option ≠ ascii "--quality" := (hunknown .quality).symm
  rw [applyOption, if_neg hserver, if_neg htoken, if_neg hcameraId, if_neg hwidth,
    if_neg hheight, if_neg hfps, if_neg hquality]

/-- **The leak.** In option position an argument that is no option ends the run with a text
    that contains it. -/
theorem parseConfig_unknown {program : Bytes} {pairs : List (Setting × Bytes)}
    (henv : VariablesAccepted env) (haccepted : Accepted pairs)
    (hunknown : ∀ s : Setting, s.option ≠ option)
    (hhelp : ¬ (option = ascii "--help" ∨ option = ascii "-h")) :
    parseConfig env (program :: (pairArgs pairs ++ option :: rest)) =
      .error ((if rest = [] then ascii "missing value for " else ascii "unknown option: ") ++
        option) := by
  obtain ⟨mid, hmid⟩ := applyEnvironment_of_accepted .initial henv
  obtain ⟨config, hpairs⟩ := parseOptions_append mid haccepted
  have hread : parseOptions mid (pairArgs pairs ++ option :: rest) =
      .error ((if rest = [] then ascii "missing value for " else ascii "unknown option: ") ++
        option) := by
    rw [hpairs]
    cases rest with
    | nil => rw [parseOptions, if_neg hhelp, if_pos rfl]
    | cons value rest =>
        rw [parseOptions, if_neg hhelp, applyOption_unknown hunknown]
        rfl
  rw [parseConfig, hmid]
  show (parseOptions mid (pairArgs pairs ++ option :: rest) >>= _) = _
  rw [hread]
  rfl

/-- Two secrets that are no options. -/
theorem secret_x : IsSecret (ascii "x") ∧ ∀ s : Setting, s.option ≠ ascii "x" :=
  ⟨⟨by decide, by decide, by decide⟩, fun s => by cases s <;> decide⟩

theorem secret_y : IsSecret (ascii "y") ∧ ∀ s : Setting, s.option ≠ ascii "y" :=
  ⟨⟨by decide, by decide, by decide⟩, fun s => by cases s <;> decide⟩

/-- **When the token is kept.** The outcome of `parse_config` is the same for every other
    version of the secrets exactly when the loop does not get to a secret in option
    position: a variable ends it before, or no secret stands there behind accepted pairs. -/
theorem keeps_secrets_iff (env : Environ) (argv : List Bytes) :
    KeepsSecrets env argv ↔ (VariablesAccepted env → ¬ Exposed argv) := by
  refine ⟨?_, keepsSecrets_of_not_exposed⟩
  rintro hkeeps henv ⟨program, _, rfl, pairs, secret, rest, rfl, haccepted, hsecret, hlast⟩
  have hself : SameButToken env env := ⟨fun _ _ => rfl, .inl rfl⟩
  -- put another secret in its place, one that is no option
  have hecho : ∀ secret', IsSecret secret' → (∀ s : Setting, s.option ≠ secret') →
      SameButForToken (parseConfig env (program :: (pairArgs pairs ++ secret :: rest)))
        (.error ((if rest = [] then ascii "missing value for " else ascii "unknown option: ") ++
          secret')) := by
    intro secret' hsecret' hunknown
    have hhelp : ¬ (secret' = ascii "--help" ∨ secret' = ascii "-h") := by
      rintro (h | h)
      · exact hsecret'.2.2 h
      · exact hsecret'.2.1 h
    rw [← parseConfig_unknown henv haccepted hunknown hhelp]
    exact hkeeps env _ hself (.same program (sameButSecrets_replace hlast hsecret hsecret'))
  have hx := hecho _ secret_x.1 secret_x.2
  have hy := hecho _ secret_y.1 secret_y.2
  -- no single text is the echo of both
  cases hresult : parseConfig env (program :: (pairArgs pairs ++ secret :: rest)) with
  | ok config =>
      rw [hresult] at hx
      exact hx
  | error e =>
      rw [hresult] at hx hy
      have hsame := List.append_cancel_left (Eq.trans (Eq.symm hx) hy)
      exact absurd hsame (by decide)

/-- A forgotten value: `--server` takes `--token` as its value, and the secret is echoed. -/
theorem forgotten_server_reveals_token :
    SameButSecrets false [ascii "camera-client", ascii "--server", ascii "--token", ascii "s3cret"]
      [ascii "camera-client", ascii "--server", ascii "--token", ascii "hunter2"] ∧
    parseConfig (fun _ => none)
        [ascii "camera-client", ascii "--server", ascii "--token", ascii "s3cret"] =
      .error (ascii "missing value for s3cret") ∧
    parseConfig (fun _ => none)
        [ascii "camera-client", ascii "--server", ascii "--token", ascii "hunter2"] =
      .error (ascii "missing value for hunter2") ∧
    ¬ KeepsSecrets (fun _ => none)
        [ascii "camera-client", ascii "--server", ascii "--token", ascii "s3cret"] := by
  have hargs : SameButSecrets false
      [ascii "camera-client", ascii "--server", ascii "--token", ascii "s3cret"]
      [ascii "camera-client", ascii "--server", ascii "--token", ascii "hunter2"] := by
    refine .same _ (.same _ (.same _ ?_))
    exact .secret ⟨by decide, by decide, by decide⟩ ⟨by decide, by decide, by decide⟩ (.nil _)
  have hfirst : parseConfig (fun _ => none)
      [ascii "camera-client", ascii "--server", ascii "--token", ascii "s3cret"] =
        .error (ascii "missing value for s3cret") := by decide +kernel
  have hsecond : parseConfig (fun _ => none)
      [ascii "camera-client", ascii "--server", ascii "--token", ascii "hunter2"] =
        .error (ascii "missing value for hunter2") := by decide +kernel
  refine ⟨hargs, hfirst, hsecond, ?_⟩
  intro hkeeps
  have hkept := hkeeps (fun _ => none) _ ⟨fun _ _ => rfl, .inl rfl⟩ hargs
  rw [hfirst, hsecond] at hkept
  have hsame : ascii "missing value for s3cret" = ascii "missing value for hunter2" := hkept
  exact absurd hsame (by decide)

end CameraStream.Client
