/-
  CameraStream.Server.MalformedLimits

  The size limit of `onFrame` and the rate limit of `acceptFrame` under settings that are no
  numbers.

  Both limits are comparisons with `Number(text)`.  An infinite or a finite number leaves the
  comparison in force; NaN makes it false, and `Math.max(1, NaN)` is NaN again, so that
  neither limit holds any more.
-/

import CameraStream.Server.CameraGateway
import CameraStream.Server.FrameRate

namespace CameraStream.Server

open Js EventMachine CameraGateway CameraService

variable {env : Env}

/-- There is a byte length above which `onFrame` refuses every frame. -/
def SizeLimited (env : Env) : Prop :=
  ∃ limit : Nat, ∀ (g : CameraGateway) (client : AuthenticatedSocket) (tag : FrameTag)
    (payload : IncomingFrame) (frame : Buffer) (dateNow now : Int),
    toBuffer payload.frame = some frame → limit < frame.length →
    ∃ reason, g.onFrame env client tag (some payload) dateNow now =
      (g, [.ack tag (.rejected reason)])

/-- There is a positive interval such that no two vision calls for one camera are started
    closer together. -/
def RateLimited (env : Env) : Prop :=
  ∃ interval : ℚ, 0 < interval ∧ ∀ es cfg,
    (watched FrameTag env).exec (.start {}) es = some cfg → ∀ c,
    (startsOf c cfg.history).Pairwise fun a b : Int => interval ≤ |(b : ℚ) - a|

/-! ## The size limit -/

/-- Above a limit that is a number, `onFrame` refuses. -/
theorem onFrame_refuses {g : CameraGateway} {client : AuthenticatedSocket} {tag : FrameTag}
    {payload : IncomingFrame} {frame : Buffer} {dateNow now : Int}
    (hframe : toBuffer payload.frame = some frame)
    (hlarge : Number.lt (maxBytes env) (.ofInt frame.length) = true) :
    ∃ reason, g.onFrame env client tag (some payload) dateNow now =
      (g, [.ack tag (.rejected reason)]) := by
  have hinvalid : validFrame env (some payload) = none := by
    simp [validFrame, hframe, hlarge]
  rw [onFrame]
  cases client.asCamera with
  | none => exact ⟨.unauthorized, rfl⟩
  | some c =>
      rw [hinvalid]
      exact ⟨.invalidJpeg, rfl⟩

theorem sizeLimited_of_number (hnan : maxBytes env ≠ .nan) (hinf : maxBytes env ≠ .posInf) :
    SizeLimited env := by
  cases hlimit : maxBytes env with
  | nan => exact absurd hlimit hnan
  | posInf => exact absurd hlimit hinf
  | negInf =>
      refine ⟨0, ?_⟩
      intro g client tag payload frame dateNow now hframe _
      refine onFrame_refuses hframe ?_
      rw [hlimit]
      rfl
  | finite q =>
      -- a whole number of bytes above the limit
      refine ⟨⌈q⌉₊, ?_⟩
      intro g client tag payload frame dateNow now hframe hlarge
      refine onFrame_refuses hframe ?_
      rw [hlimit]
      have hlt : q < (frame.length : ℚ) := (Nat.le_ceil q).trans_lt (Nat.cast_lt.mpr hlarge)
      exact decide_eq_true hlt

/-- A JPEG with `n` bytes between its markers. -/
def jpegOfLength (n : Nat) : Buffer := 0xFF :: 0xD8 :: (List.replicate n 0 ++ [0xFF, 0xD9])

theorem isJpeg_jpegOfLength (n : Nat) : isJpeg (jpegOfLength n) = true := by
  simp [isJpeg, jpegOfLength]

/-- Without a number a JPEG of any length is handed to `acceptFrame`. -/
theorem not_sizeLimited_of_nan (hnan : maxBytes env = .nan) : ¬ SizeLimited env := by
  rintro ⟨limit, hall⟩
  let camera : AuthenticatedSocket :=
    { auth := ⟨none, none, none⟩, role := some .camera, cameraId := some (js "cam") }
  let payload : IncomingFrame := ⟨none, none, .buffer (jpegOfLength limit)⟩
  have hlength : (jpegOfLength limit).length = limit + 4 := by simp [jpegOfLength]
  have hvalid : validFrame env (some payload) = some (jpegOfLength limit) := by
    have hshort : ¬ (jpegOfLength limit).length < 4 := by omega
    simp [validFrame, payload, toBuffer, hshort, hnan, Number.lt, isJpeg_jpegOfLength]
  have hcamera : camera.asCamera = some (js "cam") := by decide
  obtain ⟨reason, hrefused⟩ := hall {} camera ⟨0, 0, none⟩ payload (jpegOfLength limit) 0 0 rfl
    (by omega)
  rw [onFrame, hcamera] at hrefused
  simp only [hvalid] at hrefused
  -- the outputs begin with the call of `acceptFrame`, which no refusal has
  have houtputs := congrArg Prod.snd hrefused
  simp [payload, propertyToNumber] at houtputs

theorem sizeLimited_iff (hinf : maxBytes env ≠ .posInf) :
    SizeLimited env ↔ maxBytes env ≠ .nan :=
  ⟨fun h hnan => not_sizeLimited_of_nan hnan h, fun hnan => sizeLimited_of_number hnan hinf⟩

/-! ## The rate limit -/

/-- A setting that is a number and not infinite leaves a finite, positive minimum interval. -/
theorem minimumInterval_of_number (hnan : configuredFps env ≠ .nan)
    (hinf : configuredFps env ≠ .posInf) :
    ∃ gap : ℚ, 0 < gap ∧ minimumInterval env = .finite gap := by
  cases hfps : configuredFps env with
  | nan => exact absurd hfps hnan
  | posInf => exact absurd hfps hinf
  | negInf =>
      -- `Math.max` raises it to one frame per second
      refine ⟨1000, by norm_num, ?_⟩
      rw [minimumInterval_eq, hfps]
      cases env.division <;> decide +kernel
  | finite q =>
      obtain ⟨gap, hgap, hof⟩ := minimumInterval_near hfps
      exact ⟨gap, hof.pos, hgap⟩

theorem rateLimited_of_number (hnan : configuredFps env ≠ .nan)
    (hinf : configuredFps env ≠ .posInf) : RateLimited env := by
  obtain ⟨gap, hpos, hgap⟩ := minimumInterval_of_number hnan hinf
  refine ⟨gap, hpos, ?_⟩
  intro es cfg hrun c
  have hspaced := spaced_starts hgap hpos.le hrun c
  refine (List.pairwise_map.mp hspaced).imp fun {a b} hab => ?_
  exact le_trans (by linarith) (le_abs_self ((b : ℚ) - a))

theorem tooFast_of_nan {τ : Type*} (hnan : configuredFps env = .nan) (s : CameraService τ)
    (c : JsString) (now : Int) : tooFast env s c now = false := by
  rw [tooFast, minimumInterval_eq, hnan]
  rfl

/-- Two frames of one camera in the same millisecond, the first one settled in between. -/
def sameMillisecond : List (CameraService.Event FrameTag) :=
  [.acceptFrame ⟨0, 0, none⟩ (js "cam") [] (.finite 1) 0, .settle ⟨0, 0, none⟩ .rejected 0,
    .acceptFrame ⟨1, 0, none⟩ (js "cam") [] (.finite 1) 0]

/-- Without a number both frames start a vision call. -/
theorem sameMillisecond_starts (hnan : configuredFps env = .nan) :
    ∃ cfg, (watched FrameTag env).exec (.start {}) sameMillisecond = some cfg ∧
      startsOf (js "cam") cfg.history = [0, 0] := by
  have hfirst : ({} : CameraService FrameTag).refuses env (js "cam") 0 = false := by
    rw [refuses, tooFast_of_nan hnan]
    rfl
  have hcalls : (({} : CameraService FrameTag).acceptFrame env ⟨0, 0, none⟩ (js "cam") []
      (.finite 1) 0).1.calls = [newCall env {} ⟨0, 0, none⟩ (js "cam") [] (.finite 1)] := by
    rw [acceptFrame_started hfirst]
    rfl
  have hcall : (({} : CameraService FrameTag).acceptFrame env ⟨0, 0, none⟩ (js "cam") []
      (.finite 1) 0).1.findCall ⟨0, 0, none⟩ =
        some (newCall env {} ⟨0, 0, none⟩ (js "cam") [] (.finite 1)) := by
    rw [findCall, hcalls]
    rfl
  rw [sameMillisecond, exec_cons, Config.start, watched_start rfl hfirst, Option.bind_some,
    exec_cons, watched_settle hcall, Option.bind_some, exec_cons, watched_start ?_ ?_,
    Option.bind_some]
  · exact ⟨_, rfl, rfl⟩
  · rw [findCall_eq_none, resume_calls, hcalls]
    simp [newCall]
  · -- the settlement has freed the camera
    rw [refuses, tooFast_of_nan hnan, resume_processing, Bool.or_false]
    exact decide_eq_false (Finset.notMem_erase _ _)

/-- Without a number two calls may start at the same reading. -/
theorem not_rateLimited_of_nan (hnan : configuredFps env = .nan) : ¬ RateLimited env := by
  rintro ⟨interval, hpos, hall⟩
  obtain ⟨cfg, hrun, hstarts⟩ := sameMillisecond_starts hnan
  have hpair := hall _ cfg hrun (js "cam")
  rw [hstarts] at hpair
  have hzero : interval ≤ |((0 : Int) : ℚ) - (0 : Int)| := List.rel_of_pairwise_cons hpair (by simp)
  norm_num at hzero
  linarith

theorem rateLimited_iff (hinf : configuredFps env ≠ .posInf) :
    RateLimited env ↔ configuredFps env ≠ .nan :=
  ⟨fun h hnan => not_rateLimited_of_nan hnan h, fun hnan => rateLimited_of_number hnan hinf⟩

/-! ## Both limits -/

/-- **Malformed limits.** With settings that are not positive infinity, both protections are in
    force exactly when both settings are numbers. -/
theorem limits_in_force_iff (hbytes : maxBytes env ≠ .posInf)
    (hfps : configuredFps env ≠ .posInf) :
    SizeLimited env ∧ RateLimited env ↔ maxBytes env ≠ .nan ∧ configuredFps env ≠ .nan := by
  rw [sizeLimited_iff hbytes, rateLimited_iff hfps]

/-- A blank size limit is 0 and a negative rate is raised to one frame per second. -/
theorem odd_limits_in_force :
    SizeLimited { maxFrameBytes := some (js " "), maxCameraFps := some (js "-5") } ∧
      RateLimited { maxFrameBytes := some (js " "), maxCameraFps := some (js "-5") } := by
  have hbytes : maxBytes { maxFrameBytes := some (js " "), maxCameraFps := some (js "-5") } =
      .finite 0 := by decide +kernel
  have hfps : configuredFps { maxFrameBytes := some (js " "), maxCameraFps := some (js "-5") } =
      .finite (-5) := by decide +kernel
  refine (limits_in_force_iff ?_ ?_).mpr ⟨?_, ?_⟩
  · simp [hbytes]
  · simp [hfps]
  · simp [hbytes]
  · simp [hfps]

/-- A unit behind either number takes its limit away. -/
theorem units_disable_limits :
    maxBytes { maxFrameBytes := some (js "2MB"), maxCameraFps := some (js "12fps") } ≠ .posInf ∧
    configuredFps { maxFrameBytes := some (js "2MB"), maxCameraFps := some (js "12fps") } ≠
      .posInf ∧
    ¬ SizeLimited { maxFrameBytes := some (js "2MB"), maxCameraFps := some (js "12fps") } ∧
    ¬ RateLimited { maxFrameBytes := some (js "2MB"), maxCameraFps := some (js "12fps") } := by
  have hbytes : maxBytes { maxFrameBytes := some (js "2MB"), maxCameraFps := some (js "12fps") } =
      .nan := by decide +kernel
  have hfps : configuredFps { maxFrameBytes := some (js "2MB"), maxCameraFps := some (js "12fps") }
      = .nan := by decide +kernel
  refine ⟨?_, ?_, not_sizeLimited_of_nan hbytes, not_rateLimited_of_nan hfps⟩
  · simp [hbytes]
  · simp [hfps]

end CameraStream.Server
