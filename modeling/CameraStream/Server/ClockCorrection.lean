/-
  CameraStream.Server.ClockCorrection

  The frame-rate gate when the wall clock is corrected.

  `Date.now()` is real time plus an offset that may change at any moment.  A frame is due when
  its camera has no vision call in flight and the minimum interval of real time has elapsed
  since the last start; the interval is `minimumInterval` as the gate computes it, a double.
  The gate subtracts two readings, so it lets a due frame through exactly when the clock has
  not been set back by more than the time to spare (`tooFast_iff_setBack`).
-/

import CameraStream.Lib.WallClock
import CameraStream.Server.FrameRate

namespace CameraStream.Server.CameraService

open Js EventMachine WallClock

variable {τ : Type*} [DecidableEq τ]

/-- The service with a wall clock that may be set. -/
def clockedService (τ : Type*) [DecidableEq τ] (env : Env) :
    EventMachine (CameraService τ × WallClock) (WallClock.Event (Event τ))
      (Output τ × WallClock) :=
  clocked (machine τ env) Event.reading

/-- The clock of an output that is the start of a vision call for camera `c`. -/
def startedAt (c : JsString) : Output τ × WallClock → Option WallClock
  | (.visionCall _ c', w) => if c' = c then some w else none
  | _ => none

/-- The clock at the last start of a vision call for camera `c`. -/
def lastStart (c : JsString) (h : List (Output τ × WallClock)) : Option WallClock :=
  (h.filterMap (startedAt c)).getLast?

variable {env : Env} {q gap : ℚ} {c : JsString}
  {cfg cfg' : Config (CameraService τ × WallClock) (Output τ × WallClock)}

omit [DecidableEq τ] in
theorem lastStart_visionCall (c k : JsString) (caller : τ) (w : WallClock)
    (h : List (Output τ × WallClock)) :
    lastStart c (h ++ [(.visionCall caller k, w)]) =
      if k = c then some w else lastStart c h := by
  by_cases hk : k = c <;> simp [lastStart, startedAt, hk]

omit [DecidableEq τ] in
/-- Other outputs do not count. -/
theorem lastStart_append_of_none (c : JsString) (h : List (Output τ × WallClock))
    {out : List (Output τ)} (hnone : ∀ caller c, .visionCall caller c ∉ out) (w : WallClock) :
    lastStart c (h ++ out.map fun o => (o, w)) = lastStart c h := by
  have hskip : (out.map fun o => (o, w)).filterMap (startedAt c) = [] := by
    rw [List.filterMap_eq_nil_iff]
    intro o ho
    obtain ⟨o', ho', rfl⟩ := List.mem_map.mp ho
    cases o' with
    | visionCall caller k => exact absurd ho' (hnone caller k)
    | dropped caller k => rfl
    | settled caller k ok now => rfl
  rw [lastStart, List.filterMap_append, hskip, List.append_nil, lastStart]

/-! ## What the service remembers -/

/-- The service remembers what the clock showed at the last start, and it could have come to
    its state without a clock. -/
structure Remembers (env : Env) (cfg : Config (CameraService τ × WallClock)
    (Output τ × WallClock)) : Prop where
  last : ∀ c, cfg.state.1.lastAcceptedAt.get? c = (lastStart c cfg.history).map reading
  reached : ∃ es, (machine τ env).exec (.start {}) es = some (forget cfg)

theorem remembers_start (w : WallClock) :
    Remembers env (.start (({} : CameraService τ), w)) :=
  ⟨fun c => by simp [lastStart], [], rfl⟩

/-- A step of the service at the reading that it takes from the clock. -/
theorem lastStart_step {s s' : CameraService τ} {e : Event τ} {out : List (Output τ)}
    {h : List (Output τ × WallClock)} {w : WallClock}
    (hlast : ∀ c, s.lastAcceptedAt.get? c = (lastStart c h).map reading)
    (hread : ∀ now ∈ e.reading, now = w.reading)
    (hstep : (machine τ env).step s e = some (s', out)) (c : JsString) :
    s'.lastAcceptedAt.get? c = (lastStart c (h ++ out.map fun o => (o, w))).map reading := by
  have hplain : (machine τ env).next (.start s) e = some ⟨s', [] ++ out⟩ := next_of_step hstep
  rcases lastAcceptedAt_cases hplain with
    ⟨caller, k, frame, timestamp, now, rfl, -, hset, hout⟩ | ⟨out', hkept, hout, hnone⟩
  · -- the record of `k` is set to the reading of the clock
    obtain rfl : out = [.visionCall caller k] := hout
    obtain rfl : now = w.reading := hread now rfl
    have hset : s'.lastAcceptedAt = s.lastAcceptedAt.set k w.reading := hset
    rw [hset, List.map_singleton, lastStart_visionCall, InsertionMap.get?_set]
    by_cases hk : c = k
    · rw [if_pos hk, if_pos hk.symm]
      rfl
    · rw [if_neg hk, if_neg (Ne.symm hk)]
      exact hlast c
  · obtain rfl : out = out' := hout
    have hkept : s'.lastAcceptedAt = s.lastAcceptedAt := hkept
    rw [hkept, lastStart_append_of_none c h hnone]
    exact hlast c

theorem remembers_next {e : WallClock.Event (Event τ)} (h : Remembers env cfg)
    (hnext : (clockedService τ env).next cfg e = some cfg') : Remembers env cfg' := by
  refine ⟨?_, ?_⟩
  · intro c
    rcases WallClock.next_cases hnext with ⟨hstate, hhist⟩ | ⟨e', rfl⟩
    · rw [hstate, hhist]
      exact h.last c
    · obtain ⟨hread, s', out, hstep, rfl⟩ := next_happen hnext
      exact lastStart_step h.last hread hstep c
  · obtain ⟨es, hes⟩ := h.reached
    obtain ⟨fs, d, hfs, rfl⟩ :=
      (forgetClock (machine τ env) Event.reading).sim cfg e cfg' _ rfl hnext
    refine ⟨es ++ fs, ?_⟩
    rw [exec_append, hes]
    exact hfs

/-! ## Due frames -/

/-- Camera `c` has no vision call in flight, and the minimum interval of real time has elapsed
    since its last start. -/
structure Due (gap : ℚ) (cfg : Config (CameraService τ × WallClock) (Output τ × WallClock))
    (c : JsString) (start : WallClock) : Prop where
  idle : ∀ call ∈ cfg.state.1.calls, call.cameraId ≠ c
  last : lastStart c cfg.history = some start
  elapsed : gap ≤ elapsed start cfg.state.2

/-- A due frame is handed to the vision service. -/
def DueFrameAccepted (env : Env) (gap : ℚ)
    (cfg : Config (CameraService τ × WallClock) (Output τ × WallClock)) :
    WallClock.Event (Event τ) → Prop
  | .happen (.acceptFrame caller c frame timestamp now) =>
      ∀ start, Due gap cfg c start → ∀ cfg',
        (clockedService τ env).next cfg (.happen (.acceptFrame caller c frame timestamp now)) =
          some cfg' →
        cfg'.history = cfg.history ++ [(.visionCall caller c, cfg.state.2)]
  | _ => True

/-- When a due frame arrives, the clock has been set back since the last start by at most the
    time that has elapsed on top of the minimum interval. -/
def SetBackWithinSlack (gap : ℚ)
    (cfg : Config (CameraService τ × WallClock) (Output τ × WallClock)) :
    WallClock.Event (Event τ) → Prop
  | .happen (.acceptFrame _ c _ _ _) =>
      ∀ start, Due gap cfg c start →
        setBack start cfg.state.2 ≤ (elapsed start cfg.state.2 : ℚ) - gap
  | _ => True

/-- The gate lets a frame pass exactly when the clock was not set back too far. -/
theorem tooFast_iff_setBack (hgap : minimumInterval env = .finite gap) (h : Remembers env cfg)
    {start : WallClock} (hstart : lastStart c cfg.history = some start) :
    tooFast env cfg.state.1 c cfg.state.2.reading = false ↔
      setBack start cfg.state.2 ≤ (elapsed start cfg.state.2 : ℚ) - gap := by
  rw [tooFast_eq_false_iff hgap, h.last c, hstart, Option.map_some,
    Option.getD_some, reading_sub]
  push_cast
  exact le_sub_comm

/-- A camera with no call in flight is not in `processing`. -/
theorem refuses_of_idle (h : Remembers env cfg)
    (hidle : ∀ call ∈ cfg.state.1.calls, call.cameraId ≠ c) (now : Int) :
    cfg.state.1.refuses env c now = tooFast env cfg.state.1 c now := by
  obtain ⟨es, hes⟩ := h.reached
  have hfree : c ∉ cfg.state.1.processing := by
    intro hmem
    obtain ⟨call, hcall, hid⟩ := (mem_processing_iff hes c).mp hmem
    exact hidle call hcall hid
  rw [refuses, decide_eq_false hfree, Bool.false_or]

/-- A frame is handed to the vision service exactly when the gate does not refuse it. -/
theorem accepted_iff {caller : τ} {frame : Buffer} {timestamp : Number} {now : Int}
    (hnext : (clockedService τ env).next cfg (.happen (.acceptFrame caller c frame timestamp now)) =
      some cfg') :
    now = cfg.state.2.reading ∧
      (cfg'.history = cfg.history ++ [(.visionCall caller c, cfg.state.2)] ↔
        cfg.state.1.refuses env c now = false) := by
  obtain ⟨hread, s', out, hstep, rfl⟩ := next_happen hnext
  refine ⟨hread now rfl, ?_⟩
  have hplain : (machine τ env).next (.start cfg.state.1)
      (.acceptFrame caller c frame timestamp now) = some ⟨s', [] ++ out⟩ := next_of_step hstep
  obtain ⟨_, he, _⟩ | ⟨_, he, _⟩ | ⟨_, _, _, _, _, he, -, hcfg⟩ | ⟨_, _, _, _, he, -, -⟩ :=
    CameraService.next_cases hplain
  · cases he
  · cases he
  · cases he
    obtain rfl : out = [if cfg.state.1.refuses env c now then .dropped caller c
      else .visionCall caller c] := congrArg Config.history hcfg
    cases cfg.state.1.refuses env c now <;> simp
  · cases he

theorem dueFrameAccepted_iff {e : WallClock.Event (Event τ)}
    (hgap : minimumInterval env = .finite gap) (h : Remembers env cfg)
    (hnext : (clockedService τ env).next cfg e = some cfg') :
    DueFrameAccepted env gap cfg e ↔ SetBackWithinSlack gap cfg e := by
  cases e with
  | elapse ms => exact Iff.rfl
  | adjust offset => exact Iff.rfl
  | happen e =>
      cases e with
      | connect c => exact Iff.rfl
      | disconnect c => exact Iff.rfl
      | settle caller reply now => exact Iff.rfl
      | acceptFrame caller c frame timestamp now =>
          refine forall₂_congr fun start hdue => ?_
          obtain ⟨rfl, haccepted⟩ := accepted_iff hnext
          rw [← tooFast_iff_setBack hgap h hdue.last, ← refuses_of_idle h hdue.idle]
          rw [← haccepted]
          refine ⟨fun hall => hall cfg' hnext, fun hhist cfg'' hnext' => ?_⟩
          obtain rfl := Option.some.inj (hnext.symm.trans hnext')
          exact hhist

/-- **Due frames.** With every finite setting there is a minimum interval, and a run hands
    every due frame to the vision service exactly when at each of them the clock has been set
    back within the time to spare. -/
theorem due_frames_accepted_iff {w : WallClock} {es : List (WallClock.Event (Event τ))}
    (hfps : configuredFps env = .finite q)
    (hrun : (clockedService τ env).exec (.start ({}, w)) es = some cfg) :
    ∃ gap, minimumInterval env = .finite gap ∧
      ((clockedService τ env).Guarded (DueFrameAccepted env gap) (.start ({}, w)) es ↔
        (clockedService τ env).Guarded (SetBackWithinSlack gap) (.start ({}, w)) es) := by
  obtain ⟨gap, hgap, -⟩ := minimumInterval_near hfps
  exact ⟨gap, hgap, guarded_congr (fun _ _ _ => remembers_next)
    (fun _ _ _ h hnext => dueFrameAccepted_iff hgap h hnext) (remembers_start w) hrun⟩

/-- The minimum interval at 12 frames per second: a third of a unit below 1000 / 12. -/
def defaultInterval : ℚ := 5864062014805333 / 2 ^ 46

theorem minimumInterval_default : minimumInterval {} = .finite defaultInterval := by
  decide +kernel

/-- After the first frame the clock is set back by an hour, and a minute goes by. -/
def hourBack : List (WallClock.Event (Event Nat)) :=
  [.happen (.connect (js "cam")),
    .happen (.acceptFrame 0 (js "cam") [] (.finite 1) 1700000000000),
    .elapse 100, .happen (.settle 0 .rejected 1700000000100),
    .adjust 1699996400000, .elapse 60000]

/-- The next frame of the camera. -/
def frameAfterHourBack : WallClock.Event (Event Nat) :=
  .happen (.acceptFrame 1 (js "cam") [] (.finite 2) 1699996460100)

/-- The frame is due, and dropped as too fast. -/
theorem hourBack_result :
    ∃ mid cfg, (clockedService Nat {}).exec (.start ({}, ⟨0, 1700000000000⟩)) hourBack = some mid ∧
      (clockedService Nat {}).next mid frameAfterHourBack = some cfg ∧
      Due defaultInterval mid (js "cam") ⟨0, 1700000000000⟩ ∧
      tooFast {} mid.state.1 (js "cam") 1699996460100 = true := by
  have hmid : ((clockedService Nat {}).exec (.start ({}, ⟨0, 1700000000000⟩)) hourBack).any
      (fun mid => decide (mid.state.1.calls.isEmpty = true ∧
        lastStart (js "cam") mid.history = some ⟨0, 1700000000000⟩ ∧
        mid.state.2 = ⟨60100, 1699996400000⟩ ∧
        ((clockedService Nat {}).next mid frameAfterHourBack).isSome = true ∧
        tooFast {} mid.state.1 (js "cam") 1699996460100 = true)) = true := by decide +kernel
  obtain ⟨mid, hrun, h⟩ := (Option.any_eq_true _ _).mp hmid
  obtain ⟨hidle, hlast, hclock, hnext, hfast⟩ := of_decide_eq_true h
  obtain ⟨cfg, hcfg⟩ := Option.isSome_iff_exists.mp hnext
  refine ⟨mid, cfg, hrun, hcfg, ⟨?_, hlast, ?_⟩, hfast⟩
  · rw [List.isEmpty_iff.mp hidle]
    intro call hcall
    cases hcall
  · rw [hclock]
    norm_num [defaultInterval, WallClock.elapsed]

/-- The whole run goes through, with a due frame that is not handed over. -/
theorem hourBack_run :
    ∃ cfg, (clockedService Nat {}).exec (.start ({}, ⟨0, 1700000000000⟩))
        (hourBack ++ [frameAfterHourBack]) = some cfg ∧
      ∃ mid, (clockedService Nat {}).exec (.start ({}, ⟨0, 1700000000000⟩)) hourBack = some mid ∧
        ¬ DueFrameAccepted {} defaultInterval mid frameAfterHourBack := by
  obtain ⟨mid, cfg, hrun, hnext, hdue, hfast⟩ := hourBack_result
  refine ⟨cfg, ?_, mid, hrun, ?_⟩
  · rw [exec_append, hrun, Option.bind_some, exec_cons, hnext]
    rfl
  · intro hall
    have hgate := (accepted_iff hnext).2.mp (hall _ hdue cfg hnext)
    rw [refuses, hfast, Bool.or_true] at hgate
    cases hgate

/-- A due frame is dropped there. -/
theorem hour_back_blinds_camera :
    minimumInterval {} = .finite defaultInterval ∧
      ∃ cfg, (clockedService Nat {}).exec (.start ({}, ⟨0, 1700000000000⟩))
        (hourBack ++ [frameAfterHourBack]) = some cfg ∧
      ¬ (clockedService Nat {}).Guarded (DueFrameAccepted {} defaultInterval)
        (.start ({}, ⟨0, 1700000000000⟩)) (hourBack ++ [frameAfterHourBack]) := by
  obtain ⟨cfg, hcfg, mid, hrun, hnot⟩ := hourBack_run
  exact ⟨minimumInterval_default, cfg, hcfg,
    fun hall => hnot (hall hourBack _ mid List.prefix_rfl hrun)⟩

/-- In that run the clock is set back too far. -/
theorem hour_back_exceeds_slack :
    ∃ cfg, (clockedService Nat {}).exec (.start ({}, ⟨0, 1700000000000⟩))
        (hourBack ++ [frameAfterHourBack]) = some cfg ∧
      ¬ (clockedService Nat {}).Guarded (SetBackWithinSlack defaultInterval)
        (.start ({}, ⟨0, 1700000000000⟩)) (hourBack ++ [frameAfterHourBack]) := by
  obtain ⟨cfg, hcfg, mid, hrun, hnot⟩ := hourBack_run
  refine ⟨cfg, hcfg, ?_⟩
  intro hguarded
  obtain ⟨gap, hgap, hiff⟩ := due_frames_accepted_iff rfl hcfg
  obtain rfl : defaultInterval = gap :=
    Number.finite.inj (minimumInterval_default.symm.trans hgap)
  have hall := hiff.mpr hguarded
  exact hnot (hall hourBack _ mid List.prefix_rfl hrun)

end CameraStream.Server.CameraService
