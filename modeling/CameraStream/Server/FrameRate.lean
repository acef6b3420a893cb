/-
  CameraStream.Server.FrameRate

  The frame-rate gate of `acceptFrame` over whole runs.

  The readings of `Date.now()` are event data and need not be in order.  An observer notes,
  for every vision call, its camera and the reading at which it starts; watching does not
  change the runs (`EventMachine.exec_observe`).  Seen so, the service is a keyed rate gate
  whose gap is the minimum interval (`gateSimulation`): neither a reconnect nor a failed call
  resets the gate, and the socket of a frame plays no part in it.

  The gap is `1000 / maxFps` if the division is exact, and the nearest double otherwise
  (`minimumInterval_near`), which may be a little less.
-/

import CameraStream.Js.Rounding
import CameraStream.Lib.RateGate
import CameraStream.Server.CameraServiceRuns

namespace CameraStream.Server.CameraService

open Js EventMachine

variable {τ : Type*}

/-! ## The gap -/

/-- `Number(process.env.MAX_CAMERA_FPS ?? 12)`. -/
def configuredFps (env : Env) : Number :=
  match env.maxCameraFps with
  | some text => .ofString text
  | none => .finite 12

/-- The ceiling `F` of a finite setting. -/
def maxFps (q : ℚ) : ℚ := max 1 q

theorem maxFps_pos (q : ℚ) : 0 < maxFps q := lt_of_lt_of_le one_pos (le_max_left 1 q)

variable {env : Env} {q gap : ℚ}

theorem minimumInterval_eq (env : Env) :
    minimumInterval env =
      Number.divPos env.division 1000 (Number.max (.finite 1) (configuredFps env)) := rfl

theorem minimumInterval_of_finite (h : configuredFps env = .finite q) :
    minimumInterval env = env.division.represent (1000 / maxFps q) := by
  rw [minimumInterval_eq, h]
  show (if maxFps q = 0 then Number.posInf else env.division.represent (1000 / maxFps q)) = _
  rw [if_neg (maxFps_pos q).ne']

/-- A setting is read from a text, so that it is below the overflow limit. -/
theorem maxFps_lt (h : configuredFps env = .finite q) : maxFps q < 2 ^ 1024 := by
  have hone : (1 : ℚ) < 2 ^ 1024 := one_lt_pow₀ (by norm_num) (by norm_num)
  refine max_lt hone ?_
  rw [configuredFps] at h
  split at h
  · exact Number.ofString_lt h
  · calc q = 12 := (Number.finite.inj h).symm
      _ < 2 ^ 4 := by norm_num
      _ < 2 ^ 1024 := pow_lt_pow_right₀ (by norm_num) (by norm_num)

/-- What a gap of `1000 / maxFps` becomes when it is represented. -/
structure GapOf (division : Number.Division) (q gap : ℚ) : Prop where
  pos : 0 < gap
  /-- At most one part in `2 ^ 53` is lost. -/
  near : |gap - 1000 / maxFps q| ≤ 1000 / maxFps q / 2 ^ 53
  exact : division = .exact → gap = 1000 / maxFps q

/-- A finite setting gives a finite, positive minimum interval. -/
theorem minimumInterval_near (h : configuredFps env = .finite q) :
    ∃ gap, minimumInterval env = .finite gap ∧ GapOf env.division q gap := by
  have hfps := maxFps_pos q
  have hpos : 0 < 1000 / maxFps q := div_pos (by norm_num) hfps
  rw [minimumInterval_of_finite h]
  cases env.division with
  | exact =>
      refine ⟨_, rfl, hpos, ?_, fun _ => rfl⟩
      rw [sub_self, abs_zero]
      exact div_nonneg hpos.le (by norm_num)
  | double =>
      -- neither so small that bits are lost, nor so large that it overflows
      have hlow : (2 : ℚ) ^ (-1022 : Int) ≤ 1000 / maxFps q := by
        rw [le_div_iff₀ hfps]
        have hlt := maxFps_lt h
        calc (2 : ℚ) ^ (-1022 : Int) * maxFps q ≤ 2 ^ (-1022 : Int) * 2 ^ (1024 : Int) :=
              mul_le_mul_of_nonneg_left (by exact_mod_cast hlt.le) (Number.two_zpow_pos _).le
          _ = 4 := by rw [← zpow_add₀ (by norm_num)]; norm_num
          _ ≤ 1000 := by norm_num
      have hhigh : 1000 / maxFps q < 2 ^ 53 := by
        have hone : (1 : ℚ) ≤ maxFps q := le_max_left 1 q
        have hle : 1000 / maxFps q ≤ 1000 := div_le_self (by norm_num) hone
        exact hle.trans_lt (by norm_num)
      obtain ⟨gap, hround, hnear⟩ := Number.round_normal hlow hhigh
      refine ⟨gap, hround, ?_, hnear, nofun⟩
      have hbelow := (abs_le.mp hnear).1
      have hpart : 1000 / maxFps q / 2 ^ 53 < 1000 / maxFps q := div_lt_self hpos (by norm_num)
      linarith

/-- The gate compares the readings, with 0 for a camera that has no start yet. -/
theorem tooFast_eq_false_iff (h : minimumInterval env = .finite gap) {s : CameraService τ}
    {c : JsString} {now : Int} :
    tooFast env s c now = false ↔ gap ≤ (now - (s.lastAcceptedAt.get? c).getD 0 : Int) := by
  rw [tooFast, h, Number.ofInt]
  show decide ((now - (s.lastAcceptedAt.get? c).getD 0 : Int) < gap) = false ↔ _
  rw [decide_eq_false_iff_not, not_lt]

/-! ## Starts -/

variable [DecidableEq τ]

/-- Only a frame that is let through sets the record, and it starts a vision call. -/
theorem lastAcceptedAt_cases {cfg cfg' : Config (CameraService τ) (Output τ)} {e : Event τ}
    (hnext : (machine τ env).next cfg e = some cfg') :
    (∃ caller c frame timestamp now, e = .acceptFrame caller c frame timestamp now ∧
      cfg.state.refuses env c now = false ∧
      cfg'.state.lastAcceptedAt = cfg.state.lastAcceptedAt.set c now ∧
      cfg'.history = cfg.history ++ [.visionCall caller c]) ∨
    (∃ out, cfg'.state.lastAcceptedAt = cfg.state.lastAcceptedAt ∧
      cfg'.history = cfg.history ++ out ∧ ∀ caller c, .visionCall caller c ∉ out) := by
  obtain ⟨c, rfl, rfl⟩ | ⟨c, rfl, rfl⟩ |
    ⟨caller, c, frame, timestamp, now, rfl, -, rfl⟩ |
    ⟨caller, call, reply, now, rfl, -, rfl⟩ := next_cases hnext
  · exact .inr ⟨[], rfl, (List.append_nil _).symm, fun _ _ => List.not_mem_nil⟩
  · refine .inr ⟨[], ?_, (List.append_nil _).symm, fun _ _ => List.not_mem_nil⟩
    exact disconnect_lastAcceptedAt
  · cases hgate : cfg.state.refuses env c now with
    | false =>
        refine .inl ⟨caller, c, frame, timestamp, now, rfl, hgate, ?_, by simp⟩
        rw [acceptFrame_started hgate]
    | true =>
        refine .inr ⟨[.dropped caller c], ?_, by simp, by simp⟩
        rw [acceptFrame_refused hgate, update_lastAcceptedAt, counted_lastAcceptedAt]
  · refine .inr ⟨[.settled caller call.cameraId reply.succeeded now], ?_, rfl, by simp⟩
    exact resume_lastAcceptedAt

/-- The reading of `Date.now()` that an operation takes. -/
def Event.reading : Event τ → Option Int
  | .connect _ => none
  | .disconnect _ => none
  | .acceptFrame _ _ _ _ now => some now
  | .settle _ _ now => some now

/-- The camera of every vision call that a step starts, with the reading. -/
def startsSeen (_ : CameraService τ) (e : Event τ) (r : CameraService τ × List (Output τ)) :
    List (JsString × Int) :=
  r.2.filterMap fun
    | .visionCall _ c => e.reading.map fun now => (c, now)
    | _ => none

/-- The service, watched by an observer of the starts. -/
def watched (τ : Type*) [DecidableEq τ] (env : Env) :
    EventMachine (CameraService τ) (Event τ) (JsString × Int) :=
  (machine τ env).observe startsSeen

/-- The readings at which vision calls for camera `c` are started, in order. -/
def startsOf (c : JsString) (h : List (JsString × Int)) : List Int := RateGate.admittedOf c h

variable {cfg cfg' : Config (CameraService τ) (JsString × Int)} {es : List (Event τ)} {c : JsString}

theorem watched_cases {e : Event τ} (hnext : (watched τ env).next cfg e = some cfg') :
    (∃ c now, cfg.state.refuses env c now = false ∧
      cfg'.state.lastAcceptedAt = cfg.state.lastAcceptedAt.set c now ∧
      cfg'.history = cfg.history ++ [(c, now)]) ∨
    (cfg'.state.lastAcceptedAt = cfg.state.lastAcceptedAt ∧ cfg'.history = cfg.history) := by
  obtain ⟨out, hstep, hhist⟩ := observe_next hnext
  have hplain : (machine τ env).next (.start cfg.state) e = some ⟨cfg'.state, [] ++ out⟩ :=
    next_of_step hstep
  rcases lastAcceptedAt_cases hplain with
    ⟨caller, c, frame, timestamp, now, rfl, hgate, hlast, hout⟩ | ⟨out', hlast, hout, hnone⟩
  · obtain rfl : out = [.visionCall caller c] := hout
    exact .inl ⟨c, now, hgate, hlast, hhist⟩
  · obtain rfl : out = out' := hout
    refine .inr ⟨hlast, ?_⟩
    have hseen : startsSeen cfg.state e (cfg'.state, out) = [] := by
      rw [startsSeen, List.filterMap_eq_nil_iff]
      intro o ho
      cases o with
      | visionCall caller c => exact absurd ho (hnone caller c)
      | dropped caller c => rfl
      | settled caller c ok now => rfl
    rw [hhist, hseen, List.append_nil]

variable {caller : τ} {frame : Buffer} {timestamp : Number} {now : Int}

/-- A frame that is not refused, as the observer sees it. -/
theorem watched_start {s : CameraService τ} {h : List (JsString × Int)}
    (hfresh : s.findCall caller = none) (hgate : s.refuses env c now = false) :
    (watched τ env).next ⟨s, h⟩ (.acceptFrame caller c frame timestamp now) =
      some ⟨(s.acceptFrame env caller c frame timestamp now).1, h ++ [(c, now)]⟩ := by
  apply next_of_step
  simp [watched, observe, machine, step, hfresh, acceptFrame_snd, hgate, startsSeen,
    Event.reading]

/-- The end of a vision call, which the observer does not see. -/
theorem watched_settle {s : CameraService τ} {h : List (JsString × Int)} {call : Call τ}
    {reply : VisionReply} (hcall : s.findCall caller = some call) :
    (watched τ env).next ⟨s, h⟩ (.settle caller reply now) =
      some ⟨(s.resume call reply now).1, h⟩ := by
  have hstep : (watched τ env).step s (.settle caller reply now) =
      some ((s.resume call reply now).1, []) := by
    simp [watched, observe, machine, step, hcall, startsSeen]
  rw [next_of_step hstep, List.append_nil]

/-! ## The service as a rate gate -/

/-- The gate has let through what the service has started, and remembers the same. -/
structure Gated (cfg : Config (CameraService τ) (JsString × Int))
    (gate : Config (RateGate.State JsString ℚ) (JsString × ℚ)) : Prop where
  last : ∀ c, gate.state c = (cfg.state.lastAcceptedAt.get? c).map Int.cast
  history : gate.history = cfg.history.map (Prod.map id Int.cast)

/-- Every start is one that the gate lets through. -/
def gateSimulation (hgap : minimumInterval env = .finite gap) :
    Simulation (watched τ env) (RateGate.machine JsString gap) where
  rel := Gated
  sim := by
    intro cfg e cfg' gate hrel hnext
    rcases watched_cases hnext with ⟨c, now, hgate, hlast, hhist⟩ | ⟨hlast, hhist⟩
    · have hslow : tooFast env cfg.state c now = false := (Bool.or_eq_false_iff.mp hgate).2
      have hfar : ∀ last ∈ gate.state c, last + gap ≤ (now : ℚ) := by
        intro last hmem
        rw [hrel.last c] at hmem
        obtain ⟨before, hbefore, rfl⟩ := Option.map_eq_some_iff.mp hmem
        have hgone := (tooFast_eq_false_iff hgap).mp hslow
        rw [hbefore, Option.getD_some] at hgone
        push_cast at hgone
        linarith
      refine ⟨[(c, (now : ℚ))], ⟨Function.update gate.state c (some (now : ℚ)),
        gate.history ++ [(c, (now : ℚ))]⟩, ?_, fun k => ?_, ?_⟩
      · rw [exec_cons, next_of_step (RateGate.step_of_far hfar)]
        rfl
      · rw [hlast, InsertionMap.get?_set]
        by_cases hk : k = c
        · simp [hk]
        · simp [hk, hrel.last k]
      · rw [hhist, List.map_append, hrel.history]
        rfl
    · refine ⟨[], gate, rfl, ?_, ?_⟩
      · intro k
        rw [hlast]
        exact hrel.last k
      · rw [hhist]
        exact hrel.history

/-- The readings at which the calls of one camera start are spaced by the minimum interval. -/
theorem spaced_starts (hgap : minimumInterval env = .finite gap) (hpos : 0 ≤ gap)
    (hrun : (watched τ env).exec (.start {}) es = some cfg) (c : JsString) :
    RateGate.Spaced gap ((startsOf c cfg.history).map (Int.cast : Int → ℚ)) := by
  have hinit : Gated (.start ({} : CameraService τ)) (.start RateGate.idle) :=
    ⟨fun c => by simp [RateGate.idle], rfl⟩
  obtain ⟨fs, gate, hgate, hrel⟩ := (gateSimulation hgap).exec hinit hrun
  have hspaced := RateGate.spaced_run hpos hgate c
  rw [hrel.history, RateGate.admittedOf_map] at hspaced
  exact hspaced

/-- Readings are whole milliseconds, so that the bits that a represented gap may lack do not
    let one more start into a second. -/
theorem GapOf.ceil_mul {division : Number.Division} (h : GapOf division q gap) :
    1000 ≤ ⌈gap⌉ * (⌈maxFps q⌉₊ : Int) := by
  have hfps := maxFps_pos q
  have hup : gap ≤ ⌈gap⌉ := Int.le_ceil gap
  have hceil : maxFps q ≤ (⌈maxFps q⌉₊ : ℚ) := Nat.le_ceil _
  have hlow : 1000 / maxFps q - 1000 / maxFps q / 2 ^ 53 ≤ gap := by
    have hnear := (abs_le.mp h.near).1
    linarith
  have hmul : (999 : ℚ) < ⌈gap⌉ * (⌈maxFps q⌉₊ : ℚ) := by
    calc (999 : ℚ) < (1000 / maxFps q - 1000 / maxFps q / 2 ^ 53) * maxFps q := by
          rw [sub_mul, div_mul_cancel₀ _ hfps.ne', div_right_comm, div_mul_cancel₀ _ hfps.ne']
          norm_num
      _ ≤ ⌈gap⌉ * (⌈maxFps q⌉₊ : ℚ) :=
          mul_le_mul (hlow.trans hup) hceil hfps.le (h.pos.le.trans hup)
  have hint : (999 : Int) < ⌈gap⌉ * (⌈maxFps q⌉₊ : Int) := by exact_mod_cast hmul
  omega

/-- Integers that are spaced by a gap are spaced by the next integer. -/
theorem spaced_ceil {l : List Int} (h : RateGate.Spaced gap (l.map (Int.cast : Int → ℚ))) :
    RateGate.Spaced (⌈gap⌉ : ℚ) (l.map (Int.cast : Int → ℚ)) := by
  rw [RateGate.Spaced, List.pairwise_map] at h ⊢
  refine h.imp fun {a b} hab => ?_
  have hceil : ⌈gap⌉ ≤ b - a := Int.ceil_le.mpr (by push_cast; linarith)
  have hcast : ((a + ⌈gap⌉ : Int) : ℚ) ≤ b := by exact_mod_cast (by omega : a + ⌈gap⌉ ≤ b)
  exact_mod_cast hcast

/-- **The FPS ceiling.** For one camera the readings at which vision calls start are strictly
    increasing, with gaps of at least `1000 / F` when the division is taken as exact; and with
    an exact or a rounded division, no window of 1000 ms holds more than `⌈F⌉` of them. -/
theorem fps_ceiling (hfps : configuredFps env = .finite q)
    (hrun : (watched τ env).exec (.start {}) es = some cfg) (c : JsString) :
    (startsOf c cfg.history).Pairwise
      (fun a b : Int => a < b ∧ (env.division = .exact → 1000 / maxFps q ≤ (b : ℚ) - a)) ∧
    ∀ t : ℚ, (startsOf c cfg.history).countP (fun now : Int => t ≤ now ∧ now < t + 1000) ≤
      ⌈maxFps q⌉₊ := by
  obtain ⟨gap, hgap, hof⟩ := minimumInterval_near hfps
  have hspaced := spaced_starts hgap hof.pos.le hrun c
  refine ⟨?_, ?_⟩
  · refine (List.pairwise_map.mp hspaced).imp fun {a b} hab => ⟨?_, fun hexact => ?_⟩
    · have hlt : (a : ℚ) < b := by linarith [hof.pos]
      exact_mod_cast hlt
    · rw [← hof.exact hexact]
      linarith
  · intro t
    have hpos : (0 : ℚ) < ⌈gap⌉ := by exact_mod_cast Int.ceil_pos.mpr hof.pos
    have hwindow := (spaced_ceil hspaced).length_window_le hpos t 1000
    rw [List.countP_map] at hwindow
    refine hwindow.trans (Nat.ceil_le.mpr ?_)
    rw [div_le_iff₀ hpos, mul_comm]
    exact_mod_cast hof.ceil_mul

/-- Frames of one camera from two callers, a failed call, a reconnect and a clock that is set
    back and forth; at 12 FPS the second frame and the last one are too fast. -/
def unsteadyClock : List (Event Nat) :=
  [.connect (js "cam"), .acceptFrame 0 (js "cam") [] (.finite 1) 1000,
    .settle 0 .rejected 1010,
    .acceptFrame 1 (js "cam") [] (.finite 2) 1050,
    .connect (js "cam"),
    .acceptFrame 1 (js "cam") [] (.finite 3) 1084,
    .settle 1 .rejected 900,
    .acceptFrame 0 (js "cam") [] (.finite 4) 900]

theorem unsteady_clock_spaced :
    ∃ cfg, (watched Nat { division := .exact }).exec (.start {}) unsteadyClock = some cfg ∧
      startsOf (js "cam") cfg.history = [1000, 1084] ∧
      (startsOf (js "cam") cfg.history).Pairwise
        (fun a b : Int => a < b ∧ (Number.Division.exact = .exact →
          1000 / maxFps 12 ≤ (b : ℚ) - a)) ∧
      ∀ t : ℚ, (startsOf (js "cam") cfg.history).countP
        (fun now : Int => t ≤ now ∧ now < t + 1000) ≤ ⌈maxFps 12⌉₊ := by
  have hstarts : ((watched Nat { division := .exact }).exec (.start {}) unsteadyClock).any
      (fun cfg => decide (startsOf (js "cam") cfg.history = [1000, 1084])) = true := by
    decide +kernel
  obtain ⟨cfg, hrun, h⟩ := (Option.any_eq_true _ _).mp hstarts
  exact ⟨cfg, hrun, of_decide_eq_true h, fps_ceiling rfl hrun (js "cam")⟩

end CameraStream.Server.CameraService
