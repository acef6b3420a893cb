/-
  CameraStream.Server.CameraServiceRuns

  Whole runs of `CameraService`, under any interleaving of connects, disconnects,
  frames and vision settlements:

    * the service simulates the keyed single-flight machine, so a camera is in
      `processing` exactly while it has one unsettled vision call;
    * the counters of a camera count the frames that were refused and the frames
      that were handed to the vision service;
    * `lastFrameAt` follows the successful completions as long as no completion
      lands on an object that a reconnect has replaced.
-/

import CameraStream.Lib.SingleFlight
import CameraStream.Server.CameraService

namespace CameraStream.Server.CameraService

open Js EventMachine

variable {τ : Type*}

/-! ## Reading a history -/

/-- The part of an output that concerns the single flight of its camera. -/
def toFlight : Output τ → Option (SingleFlight.Output JsString τ)
  | .visionCall caller c => some (.admitted c caller)
  | .dropped .. => none
  | .settled caller c ok _ => some (.finished c caller ok)

def flights (h : List (Output τ)) : List (SingleFlight.Output JsString τ) :=
  h.filterMap toFlight

/-- The callers whose frame of camera `c` reached the vision service, in order. -/
def startedOf (c : JsString) (h : List (Output τ)) : List τ :=
  SingleFlight.admittedOf c (flights h)

/-- The callers of camera `c` whose vision call has settled, with its outcome. -/
def outcomesOf (c : JsString) (h : List (Output τ)) : List (τ × Bool) :=
  SingleFlight.settlementsOf c (flights h)

/-- The callers of camera `c` whose vision call has succeeded, in order. -/
def succeededOf (c : JsString) (h : List (Output τ)) : List τ :=
  ((outcomesOf c h).filter Prod.snd).map Prod.fst

/-- The callers of camera `c` whose vision call has failed, in order. -/
def failedOf (c : JsString) (h : List (Output τ)) : List τ :=
  ((outcomesOf c h).filter fun outcome => !outcome.2).map Prod.fst

/-- The callers whose frame of camera `c` was refused. -/
def droppedOf (c : JsString) (h : List (Output τ)) : List τ :=
  h.filterMap fun
    | .dropped caller c' => if c' = c then some caller else none
    | _ => none

/-- The clock readings of the successful completions of camera `c`, in order. -/
def completionsOf (c : JsString) (h : List (Output τ)) : List Int :=
  h.filterMap fun
    | .settled _ c' true now => if c' = c then some now else none
    | _ => none

@[simp] theorem flights_append (h h' : List (Output τ)) :
    flights (h ++ h') = flights h ++ flights h' :=
  List.filterMap_append

@[simp] theorem startedOf_append (c : JsString) (h h' : List (Output τ)) :
    startedOf c (h ++ h') = startedOf c h ++ startedOf c h' := by
  simp [startedOf]

@[simp] theorem outcomesOf_append (c : JsString) (h h' : List (Output τ)) :
    outcomesOf c (h ++ h') = outcomesOf c h ++ outcomesOf c h' := by
  simp [outcomesOf]

@[simp] theorem succeededOf_append (c : JsString) (h h' : List (Output τ)) :
    succeededOf c (h ++ h') = succeededOf c h ++ succeededOf c h' := by
  simp [succeededOf]

@[simp] theorem droppedOf_append (c : JsString) (h h' : List (Output τ)) :
    droppedOf c (h ++ h') = droppedOf c h ++ droppedOf c h' :=
  List.filterMap_append

@[simp] theorem completionsOf_append (c : JsString) (h h' : List (Output τ)) :
    completionsOf c (h ++ h') = completionsOf c h ++ completionsOf c h' :=
  List.filterMap_append

@[simp] theorem succeededOf_nil (c : JsString) : succeededOf c ([] : List (Output τ)) = [] :=
  rfl

@[simp] theorem failedOf_nil (c : JsString) : failedOf c ([] : List (Output τ)) = [] := rfl

@[simp] theorem startedOf_visionCall (c k : JsString) (caller : τ) :
    startedOf c [.visionCall caller k] = if k = c then [caller] else [] :=
  SingleFlight.admittedOf_admitted c k caller

@[simp] theorem startedOf_dropped (c k : JsString) (caller : τ) :
    startedOf c [.dropped caller k] = [] := rfl

@[simp] theorem startedOf_settled (c k : JsString) (caller : τ) (ok : Bool) (now : Int) :
    startedOf c [.settled caller k ok now] = [] := rfl

@[simp] theorem outcomesOf_settled (c k : JsString) (caller : τ) (ok : Bool) (now : Int) :
    outcomesOf c [.settled caller k ok now] = if k = c then [(caller, ok)] else [] :=
  SingleFlight.settlementsOf_finished c k caller ok

@[simp] theorem succeededOf_dropped (c k : JsString) (caller : τ) :
    succeededOf c [.dropped caller k] = [] := rfl

@[simp] theorem succeededOf_settled (c k : JsString) (caller : τ) (ok : Bool) (now : Int) :
    succeededOf c [.settled caller k ok now] = if k = c ∧ ok = true then [caller] else [] := by
  by_cases h : k = c <;> cases ok <;> simp [succeededOf, h]

@[simp] theorem failedOf_dropped (c k : JsString) (caller : τ) :
    failedOf c [.dropped caller k] = [] := rfl

@[simp] theorem failedOf_settled (c k : JsString) (caller : τ) (ok : Bool) (now : Int) :
    failedOf c [.settled caller k ok now] = if k = c ∧ ok = false then [caller] else [] := by
  by_cases h : k = c <;> cases ok <;> simp [failedOf, h]

@[simp] theorem droppedOf_visionCall (c k : JsString) (caller : τ) :
    droppedOf c [.visionCall caller k] = [] := rfl

@[simp] theorem droppedOf_dropped (c k : JsString) (caller : τ) :
    droppedOf c [.dropped caller k] = if k = c then [caller] else [] := by
  by_cases h : k = c <;> simp [droppedOf, h]

@[simp] theorem droppedOf_settled (c k : JsString) (caller : τ) (ok : Bool) (now : Int) :
    droppedOf c [.settled caller k ok now] = [] := rfl

@[simp] theorem completionsOf_visionCall (c k : JsString) (caller : τ) :
    completionsOf c [.visionCall caller k] = [] := rfl

@[simp] theorem completionsOf_dropped (c k : JsString) (caller : τ) :
    completionsOf c [.dropped caller k] = [] := rfl

@[simp] theorem completionsOf_settled (c k : JsString) (caller : τ) (ok : Bool) (now : Int) :
    completionsOf c [.settled caller k ok now] = if k = c ∧ ok = true then [now] else [] := by
  cases ok with
  | true => by_cases h : k = c <;> simp [completionsOf, h]
  | false => simp [completionsOf]

theorem succeededOf_sublist (c : JsString) (h : List (Output τ)) :
    (succeededOf c h).Sublist ((outcomesOf c h).map Prod.fst) :=
  List.filter_sublist.map Prod.fst

/-! ## Single flight -/

variable {env : Env} {cfg cfg' : Config (CameraService τ) (Output τ)}

/-- The unsettled calls of a camera. -/
def callsOf (s : CameraService τ) (c : JsString) : List (Call τ) :=
  s.calls.filter fun call => call.cameraId = c

theorem mem_callsOf {s : CameraService τ} {c : JsString} {call : Call τ} :
    call ∈ s.callsOf c ↔ call ∈ s.calls ∧ call.cameraId = c := by
  simp [callsOf]

theorem Wf.caller_inj {s : CameraService τ} (hwf : Wf s) {call call' : Call τ}
    (h : call ∈ s.calls) (h' : call' ∈ s.calls) (heq : call.caller = call'.caller) :
    call = call' :=
  List.inj_on_of_nodup_map hwf.callers h h' heq

/-- The service in step with the single-flight machine over its cameras. -/
structure InFlight (cfg : Config (CameraService τ) (Output τ))
    (flight : Config (SingleFlight.State JsString τ) (SingleFlight.Output JsString τ)) :
    Prop where
  wf : Wf cfg.state
  calls : ∀ c, (cfg.state.callsOf c).map (·.caller) = (flight.state c).toList
  processing : ∀ c, c ∈ cfg.state.processing ↔ (flight.state c).isSome
  history : flight.history = flights cfg.history

/-- A step that touches neither the calls nor `processing`, and reports nothing
    about flights, is matched by the flight machine standing still. -/
theorem InFlight.stutter
    {flight : Config (SingleFlight.State JsString τ) (SingleFlight.Output JsString τ)}
    (h : InFlight cfg flight) (hwf : Wf cfg'.state) (hcalls : cfg'.state.calls = cfg.state.calls)
    (hproc : cfg'.state.processing = cfg.state.processing)
    (hhist : flights cfg'.history = flights cfg.history) :
    ∃ fs d, (SingleFlight.machine JsString τ).exec flight fs = some d ∧ InFlight cfg' d := by
  -- no step of the flight machine
  refine ⟨[], flight, rfl, hwf, ?_, ?_, ?_⟩
  · intro c
    rw [callsOf, hcalls]
    exact h.calls c
  · intro c
    rw [hproc]
    exact h.processing c
  · rw [hhist]
    exact h.history

/-- An unsettled call is the only one of its camera. -/
theorem InFlight.callsOf_eq
    {flight : Config (SingleFlight.State JsString τ) (SingleFlight.Output JsString τ)}
    (h : InFlight cfg flight) {call : Call τ} (hcall : call ∈ cfg.state.calls) :
    cfg.state.callsOf call.cameraId = [call] ∧
      flight.state call.cameraId = some call.caller := by
  have hmem : call ∈ cfg.state.callsOf call.cameraId := mem_callsOf.mpr ⟨hcall, rfl⟩
  have hcalls := h.calls call.cameraId
  cases hf : flight.state call.cameraId with
  | none =>
      rw [hf, Option.toList_none, List.map_eq_nil_iff] at hcalls
      simp [hcalls] at hmem
  | some ticket =>
      rw [hf, Option.toList_some, List.map_eq_singleton_iff] at hcalls
      obtain ⟨x, hx, rfl⟩ := hcalls
      rw [hx, List.mem_singleton] at hmem
      rw [hx, hmem]
      exact ⟨rfl, rfl⟩

theorem callsOf_started {s : CameraService τ} {c k : JsString} {caller : τ} {frame : Buffer}
    {timestamp : Number} {now : Int} (h : s.refuses env c now = false) :
    ((s.acceptFrame env caller c frame timestamp now).1.callsOf k).map (·.caller) =
      (s.callsOf k).map (·.caller) ++ if k = c then [caller] else [] := by
  rw [acceptFrame_started h, callsOf, List.filter_append, List.map_append]
  by_cases hk : c = k
  · simp [callsOf, newCall, hk]
  · simp [callsOf, newCall, hk, Ne.symm hk]

/-! ## Steps -/

variable [DecidableEq τ] {es : List (Event τ)}

/-- Everything one step of the service can do. -/
theorem next_cases {e : Event τ} (h : (machine τ env).next cfg e = some cfg') :
    (∃ c, e = .connect c ∧ cfg' = ⟨cfg.state.connect c, cfg.history⟩) ∨
    (∃ c, e = .disconnect c ∧ cfg' = ⟨cfg.state.disconnect c, cfg.history⟩) ∨
    (∃ caller c frame timestamp now, e = .acceptFrame caller c frame timestamp now ∧
      cfg.state.findCall caller = none ∧
      cfg' = ⟨(cfg.state.acceptFrame env caller c frame timestamp now).1,
        cfg.history ++ [if cfg.state.refuses env c now then .dropped caller c
          else .visionCall caller c]⟩) ∨
    (∃ caller call reply now, e = .settle caller reply now ∧
      cfg.state.findCall caller = some call ∧
      cfg' = ⟨(cfg.state.resume call reply now).1,
        cfg.history ++ [.settled caller call.cameraId reply.succeeded now]⟩) := by
  obtain ⟨out, hstep, hhist⟩ := next_eq_some h
  have hcfg' : cfg' = ⟨cfg'.state, cfg.history ++ out⟩ := by rw [← hhist]
  rw [hcfg']
  cases e with
  | connect c =>
      simp only [machine, step, Option.some.injEq, Prod.mk.injEq] at hstep
      obtain ⟨hs, rfl⟩ := hstep
      exact .inl ⟨c, rfl, by rw [List.append_nil, hs]⟩
  | disconnect c =>
      simp only [machine, step, Option.some.injEq, Prod.mk.injEq] at hstep
      obtain ⟨hs, rfl⟩ := hstep
      exact .inr (.inl ⟨c, rfl, by rw [List.append_nil, hs]⟩)
  | acceptFrame caller c frame timestamp now =>
      refine .inr (.inr (.inl ⟨caller, c, frame, timestamp, now, rfl, ?_⟩))
      -- a caller that is suspended in a call cannot start another one
      cases hfresh : cfg.state.findCall caller with
      | some call => simp [machine, step, hfresh] at hstep
      | none =>
          simp only [machine, step, hfresh, acceptFrame_snd, Option.some.injEq,
            Prod.mk.injEq] at hstep
          obtain ⟨hs, rfl⟩ := hstep
          refine ⟨rfl, ?_⟩
          rw [← hs]
          cases cfg.state.refuses env c now <;> rfl
  | settle caller reply now =>
      refine .inr (.inr (.inr ?_))
      cases hcall : cfg.state.findCall caller with
      | none => simp [machine, step, hcall] at hstep
      | some call =>
          simp only [machine, step, hcall, Option.some.injEq, Prod.mk.injEq] at hstep
          obtain ⟨hs, rfl⟩ := hstep
          exact ⟨caller, call, reply, now, rfl, hcall, by rw [← hs]⟩

theorem wf_next {e : Event τ} (hwf : Wf cfg.state)
    (h : (machine τ env).next cfg e = some cfg') : Wf cfg'.state := by
  obtain ⟨out, hstep, -⟩ := next_eq_some h
  exact wf_step hwf hstep

theorem wf_run (hrun : (machine τ env).exec (.start {}) es = some cfg) : Wf cfg.state :=
  exec_invariant (I := fun c => Wf c.state) (fun _ _ _ => wf_next) wf_empty hrun

/-! ## The simulation -/

/-- Settling removes the one call of its camera and no other. -/
theorem callsOf_resume {s : CameraService τ} {k : JsString} {call : Call τ}
    {reply : VisionReply} {now : Int} (hwf : Wf s) (hcall : call ∈ s.calls)
    (hone : s.callsOf call.cameraId = [call]) :
    (s.resume call reply now).1.callsOf k =
      if k = call.cameraId then [] else s.callsOf k := by
  rw [callsOf, resume_calls]
  by_cases hk : k = call.cameraId
  · -- what is left for this camera would be a second call beside `call`
    subst hk
    rw [if_pos rfl, List.filter_eq_nil_iff]
    intro call' hmem hid
    obtain ⟨hin, hne⟩ := List.mem_filter.mp hmem
    have hmem' : call' ∈ s.callsOf call.cameraId := mem_callsOf.mpr ⟨hin, by simpa using hid⟩
    rw [hone, List.mem_singleton] at hmem'
    simp [hmem'] at hne
  · -- for another camera the filter by caller removes nothing
    rw [if_neg hk, callsOf, List.filter_filter]
    apply List.filter_congr
    intro call' hin
    by_cases hid : call'.cameraId = k
    · have hne : call'.caller ≠ call.caller := by
        intro heq
        exact hk (hid.symm.trans (congrArg _ (hwf.caller_inj hin hcall heq)))
      simp [hid, hne]
    · simp [hid]

/-- Every step of the service is matched by the single-flight machine. -/
def flightSimulation (env : Env) :
    Simulation (machine τ env) (SingleFlight.machine JsString τ) where
  rel := InFlight
  sim := by
    intro cfg e cfg' flight hrel hnext
    have hwf' := wf_next hrel.wf hnext
    obtain ⟨c, rfl, rfl⟩ | ⟨c, rfl, rfl⟩ |
      ⟨caller, c, frame, timestamp, now, rfl, hfresh, rfl⟩ |
      ⟨caller, call, reply, now, rfl, hcall, rfl⟩ := next_cases hnext
    · exact hrel.stutter hwf' rfl rfl rfl
    · exact hrel.stutter hwf' disconnect_calls disconnect_processing rfl
    · cases hgate : cfg.state.refuses env c now with
      | true =>
          refine hrel.stutter hwf' ?_ ?_ (by simp [flights, toFlight])
          · rw [acceptFrame_refused hgate, update_calls, counted_calls]
          · rw [acceptFrame_refused hgate, update_processing, counted_processing]
      | false =>
          -- the gate has found the camera free
          have hfree : flight.state c = none := by
            have hnot : c ∉ cfg.state.processing := by
              intro hmem
              simp [refuses, hmem] at hgate
            simpa using (hrel.processing c).not.mp hnot
          refine ⟨[.launch c caller],
            ⟨Function.update flight.state c (some caller),
              flight.history ++ [.admitted c caller]⟩, ?_, hwf', fun k => ?_, fun k => ?_, ?_⟩
          · simp [exec_cons, next, SingleFlight.machine, SingleFlight.step, hfree]
          · rw [callsOf_started hgate, hrel.calls k]
            by_cases hk : k = c
            · simp [hk, hfree]
            · simp [hk]
          · simp only [acceptFrame_started hgate, Finset.mem_insert, hrel.processing k]
            by_cases hk : k = c
            · simp [hk]
            · simp [hk]
          · simp [hrel.history, flights, toFlight]
    · -- the settled call is the flight of its camera
      obtain ⟨hmem, hcaller⟩ := findCall_eq_some hcall
      obtain ⟨hone, hbusy⟩ := hrel.callsOf_eq hmem
      refine ⟨[.settle call.cameraId reply.succeeded],
        ⟨Function.update flight.state call.cameraId none,
          flight.history ++ [.finished call.cameraId call.caller reply.succeeded]⟩,
        ?_, hwf', fun k => ?_, fun k => ?_, ?_⟩
      · simp [exec_cons, next, SingleFlight.machine, SingleFlight.step, hbusy]
      · rw [callsOf_resume hrel.wf hmem hone]
        by_cases hk : k = call.cameraId
        · simp [hk]
        · simp [hk, hrel.calls k]
      · rw [resume_processing, Finset.mem_erase, hrel.processing k]
        by_cases hk : k = call.cameraId
        · simp [hk]
        · simp [hk]
      · simp [hrel.history, flights, toFlight, hcaller]

/-- Every run of the service is a run of the single-flight machine. -/
theorem inFlight_run (hrun : (machine τ env).exec (.start {}) es = some cfg) :
    ∃ fs flight, (SingleFlight.machine JsString τ).exec (.start SingleFlight.idle) fs =
      some flight ∧ InFlight cfg flight := by
  have hinit : InFlight (τ := τ) (.start {}) (.start SingleFlight.idle) :=
    ⟨wf_empty, fun _ => rfl, fun c => by simp [SingleFlight.idle], rfl⟩
  exact (flightSimulation env).exec hinit hrun

/-- The calls that were started are those that settled, then the unsettled one. -/
theorem startedOf_eq (hrun : (machine τ env).exec (.start {}) es = some cfg) (c : JsString) :
    startedOf c cfg.history =
      (outcomesOf c cfg.history).map Prod.fst ++ (cfg.state.callsOf c).map (·.caller) := by
  obtain ⟨fs, flight, hflight, hrel⟩ := inFlight_run hrun
  have horder := SingleFlight.admitted_eq_finished_append hflight c
  rw [hrel.history, ← hrel.calls c] at horder
  exact horder

/-- A camera with an unsettled call has exactly one. -/
theorem callsOf_eq_singleton (hrun : (machine τ env).exec (.start {}) es = some cfg)
    {call : Call τ} (hcall : call ∈ cfg.state.calls) :
    cfg.state.callsOf call.cameraId = [call] := by
  obtain ⟨fs, flight, -, hrel⟩ := inFlight_run hrun
  exact (hrel.callsOf_eq hcall).1

theorem mem_processing_iff (hrun : (machine τ env).exec (.start {}) es = some cfg)
    (c : JsString) :
    c ∈ cfg.state.processing ↔ ∃ call ∈ cfg.state.calls, call.cameraId = c := by
  obtain ⟨fs, flight, -, hrel⟩ := inFlight_run hrun
  rw [hrel.processing c]
  refine ⟨?_, ?_⟩
  · intro hsome
    obtain ⟨ticket, hticket⟩ := Option.isSome_iff_exists.mp hsome
    have hcalls := hrel.calls c
    rw [hticket, Option.toList_some, List.map_eq_singleton_iff] at hcalls
    obtain ⟨call, hcall, -⟩ := hcalls
    exact ⟨call, mem_callsOf.mp (hcall ▸ List.mem_singleton_self call)⟩
  · rintro ⟨call, hmem, rfl⟩
    rw [(hrel.callsOf_eq hmem).2]
    rfl

/-- An unsettled call can settle either way, and frees its camera. -/
theorem settle_frees (hwf : Wf cfg.state) {call : Call τ} (hcall : call ∈ cfg.state.calls)
    (reply : VisionReply) (now : Int) :
    ∃ cfg', (machine τ env).next cfg (.settle call.caller reply now) = some cfg' ∧
      call.cameraId ∉ cfg'.state.processing := by
  obtain ⟨call', hfound⟩ : ∃ call', cfg.state.findCall call.caller = some call' := by
    cases hfind : cfg.state.findCall call.caller with
    | some call' => exact ⟨call', rfl⟩
    | none => exact absurd (List.mem_map_of_mem hcall) (findCall_eq_none.mp hfind)
  obtain ⟨hmem', hcaller⟩ := findCall_eq_some hfound
  obtain rfl := hwf.caller_inj hmem' hcall hcaller
  refine ⟨_, next_of_step (by simp only [machine, step, hfound]; rfl), ?_⟩
  rw [resume_processing]
  exact Finset.notMem_erase _ _

/-- **Single flight.** Whatever the interleaving, `processing` is the set of
    cameras with an unsettled vision call, each of them has exactly one, the calls
    that were started are those that settled followed by the unsettled one, every
    unsettled call can settle either way and frees its camera, and a frame that
    comes in time is refused only while a call of its camera is outstanding. -/
theorem processing_iff_unsettled_call
    (hrun : (machine τ env).exec (.start {}) es = some cfg) :
    (∀ c, c ∈ cfg.state.processing ↔ ∃ call ∈ cfg.state.calls, call.cameraId = c) ∧
    (∀ c ∈ cfg.state.processing, ∃ call, cfg.state.callsOf c = [call]) ∧
    (∀ c, startedOf c cfg.history =
      (outcomesOf c cfg.history).map Prod.fst ++ (cfg.state.callsOf c).map (·.caller)) ∧
    (∀ call ∈ cfg.state.calls, ∀ reply now, ∃ cfg',
      (machine τ env).next cfg (.settle call.caller reply now) = some cfg' ∧
      call.cameraId ∉ cfg'.state.processing) ∧
    (∀ caller c frame timestamp now cfg',
      (machine τ env).next cfg (.acceptFrame caller c frame timestamp now) = some cfg' →
      cfg'.history = cfg.history ++ [.dropped caller c] →
      tooFast env cfg.state c now = false →
      ∃ call ∈ cfg.state.calls, call.cameraId = c) := by
  refine ⟨mem_processing_iff hrun, fun c hc => ?_, startedOf_eq hrun,
    fun call hcall reply now => settle_frees (wf_run hrun) hcall reply now, ?_⟩
  · obtain ⟨call, hmem, rfl⟩ := (mem_processing_iff hrun c).mp hc
    exact ⟨call, callsOf_eq_singleton hrun hmem⟩
  · -- a frame that comes in time and is dropped was refused as busy
    intro caller c frame timestamp now cfg' hnext hdrop hslow
    obtain ⟨_, he, _⟩ | ⟨_, he, _⟩ | ⟨_, _, _, _, _, he, -, rfl⟩ | ⟨_, _, _, _, he, -, -⟩ :=
      next_cases hnext
    · cases he
    · cases he
    · cases he
      cases hgate : cfg.state.refuses env c now with
      | false => simp [hgate] at hdrop
      | true =>
          refine (mem_processing_iff hrun c).mp ?_
          simpa [refuses, hslow] using hgate
    · cases he

/-- Two frames of one camera, the second while the first is unsettled. -/
def overlappingFrames : List (Event Nat) :=
  [.connect (js "cam"), .acceptFrame 0 (js "cam") [] (.finite 1) 1000,
    .acceptFrame 1 (js "cam") [] (.finite 2) 2000]

theorem one_call_while_frames_overlap :
    ∃ cfg, (machine Nat {}).exec (.start {}) overlappingFrames = some cfg ∧
      js "cam" ∈ cfg.state.processing ∧ ∃ call, cfg.state.callsOf (js "cam") = [call] := by
  have hbusy : ((machine Nat {}).exec (.start {}) overlappingFrames).any
      (fun cfg => decide (js "cam" ∈ cfg.state.processing)) = true := by decide +kernel
  obtain ⟨cfg, hrun, hmem⟩ := (Option.any_eq_true _ _).mp hbusy
  have hmem := of_decide_eq_true hmem
  exact ⟨cfg, hrun, hmem, (processing_iff_unsettled_call hrun).2.1 _ hmem⟩

/-! ## Counters -/

omit [DecidableEq τ] in
/-- The counters of a camera as its entry has them; zero without an entry. -/
def counters (s : CameraService τ) (c : JsString) : Nat × Nat :=
  ((s.find c).map fun st => (st.receivedFrames, st.droppedFrames)).getD (0, 0)

section Counters

variable {s : CameraService τ} {c c' : JsString} {now : Int}

omit [DecidableEq τ] in
theorem counters_reconnected :
    ((s.reconnected c).receivedFrames, (s.reconnected c).droppedFrames) = s.counters c := by
  rw [counters, reconnected]
  cases s.find c <;> rfl

omit [DecidableEq τ] in
theorem counters_entryOrNew :
    ((s.entryOrNew c).receivedFrames, (s.entryOrNew c).droppedFrames) = s.counters c := by
  rw [entryOrNew]
  cases hfind : s.find c with
  | none => exact counters_reconnected
  | some st => simp [counters, hfind]

omit [DecidableEq τ] in
/-- A reconnect copies the counters. -/
theorem counters_connect (hwf : Wf s) : (s.connect c).counters c' = s.counters c' := by
  rw [counters, find_connect hwf]
  by_cases h : c' = c
  · -- the fresh object starts from the counters of the old one
    rw [if_pos h, h]
    exact counters_reconnected
  · rw [if_neg h]
    rfl

omit [DecidableEq τ] in
theorem counters_disconnect (hwf : Wf s) : (s.disconnect c).counters c' = s.counters c' := by
  rw [counters, find_disconnect hwf]
  by_cases h : c' = c
  · rw [if_pos h, h, counters]
    cases s.find c <;> rfl
  · rw [if_neg h]
    rfl

omit [DecidableEq τ] in
theorem counters_acceptFrame (hwf : Wf s) {caller : τ} {frame : Buffer} {timestamp : Number} :
    (s.acceptFrame env caller c frame timestamp now).1.counters c' =
      if c' = c then
        ((s.counters c).1 + 1, (s.counters c).2 + if s.refuses env c now then 1 else 0)
      else s.counters c' := by
  rw [counters, find_acceptFrame hwf]
  by_cases h : c' = c
  · rw [if_pos h, if_pos h, ← counters_entryOrNew]
    rfl
  · rw [if_neg h, if_neg h]
    rfl

theorem counters_resume {call : Call τ} {reply : VisionReply} :
    (s.resume call reply now).1.counters c = s.counters c := by
  rw [counters, find_resume]
  split
  · rw [counters]
    cases s.find c <;> rfl
  · rfl

end Counters

/-- The counters of every camera agree with the history. -/
def Counted (cfg : Config (CameraService τ) (Output τ)) : Prop :=
  Wf cfg.state ∧ ∀ c, cfg.state.counters c =
    ((droppedOf c cfg.history).length + (startedOf c cfg.history).length,
      (droppedOf c cfg.history).length)

theorem counted_next {e : Event τ} (h : Counted cfg)
    (hnext : (machine τ env).next cfg e = some cfg') : Counted cfg' := by
  obtain ⟨hwf, hcount⟩ := h
  refine ⟨wf_next hwf hnext, ?_⟩
  intro k
  obtain ⟨c, rfl, rfl⟩ | ⟨c, rfl, rfl⟩ |
    ⟨caller, c, frame, timestamp, now, rfl, -, rfl⟩ |
    ⟨caller, call, reply, now, rfl, -, rfl⟩ := next_cases hnext
  · exact (counters_connect hwf).trans (hcount k)
  · exact (counters_disconnect hwf).trans (hcount k)
  · simp only [counters_acceptFrame hwf, hcount]
    -- refused: received and dropped go up together; otherwise only received does
    by_cases hk : k = c
    · subst hk
      cases cfg.state.refuses env k now with
      | true =>
          simp
          omega
      | false =>
          simp
          omega
    · cases cfg.state.refuses env c now <;> simp [hk, Ne.symm hk]
  · simp only [counters_resume, hcount]
    simp

/-- The `connected` flag of a camera; false without an entry. -/
def online (s : CameraService τ) (c : JsString) : Bool :=
  ((s.find c).map (·.connected)).getD false

section Online

variable {s : CameraService τ} {c c' : JsString} {now : Int}

omit [DecidableEq τ] in
/-- `list()` reports a camera as connected exactly when its entry is online. -/
theorem online_iff (hwf : Wf s) :
    (∃ st ∈ s.list, st.cameraId = c ∧ st.connected = true) ↔ s.online c = true := by
  refine ⟨?_, ?_⟩
  · rintro ⟨st, hmem, rfl, hconn⟩
    rw [online, (mem_list_iff hwf).mp hmem]
    exact hconn
  · intro h
    cases hfind : s.find c with
    | none => simp [online, hfind] at h
    | some st =>
        have hid := hwf.cameraId_of_find hfind
        refine ⟨st, (mem_list_iff hwf).mpr (by rw [hid, hfind]), hid, ?_⟩
        simpa [online, hfind] using h

omit [DecidableEq τ] in
theorem online_connect (hwf : Wf s) :
    (s.connect c).online c' = if c' = c then true else s.online c' := by
  rw [online, find_connect hwf]
  split <;> rfl

omit [DecidableEq τ] in
theorem online_disconnect (hwf : Wf s) :
    (s.disconnect c).online c' = if c' = c then false else s.online c' := by
  rw [online, find_disconnect hwf]
  split
  · cases s.find c <;> rfl
  · rfl

omit [DecidableEq τ] in
/-- A frame of a camera that is online leaves every flag alone. -/
theorem online_acceptFrame (hwf : Wf s) (honline : s.online c = true) {caller : τ}
    {frame : Buffer} {timestamp : Number} :
    (s.acceptFrame env caller c frame timestamp now).1.online c' = s.online c' := by
  rw [online, find_acceptFrame hwf]
  by_cases h : c' = c
  · -- without an entry `acceptFrame` would make the camera connected by itself
    rw [if_pos h, h, entryOrNew, honline]
    cases hfind : s.find c with
    | none => rfl
    | some st => simpa [online, hfind] using honline
  · rw [if_neg h]
    rfl

theorem online_resume {call : Call τ} {reply : VisionReply} :
    (s.resume call reply now).1.online c = s.online c := by
  rw [online, find_resume]
  split
  · rw [online]
    cases s.find c <;> rfl
  · rfl

end Online

/-! ## Completions -/

/-- The `lastFrameAt` that `list()` reports for a camera. -/
def reportedLastFrameAt (s : CameraService τ) (c : JsString) : Option Int :=
  (s.reported c).bind (·.lastFrameAt)

section Completions

variable {s : CameraService τ} {c c' : JsString} {now : Int}

omit [DecidableEq τ] in
theorem reportedLastFrameAt_connect (hwf : Wf s) :
    (s.connect c).reportedLastFrameAt c' = s.reportedLastFrameAt c' := by
  rw [reportedLastFrameAt, reportedLastFrameAt, reported_eq_find (wf_connect hwf),
    reported_eq_find hwf, find_connect hwf]
  by_cases h : c' = c
  · rw [if_pos h, h]
    rfl
  · rw [if_neg h]

omit [DecidableEq τ] in
theorem reportedLastFrameAt_disconnect (hwf : Wf s) :
    (s.disconnect c).reportedLastFrameAt c' = s.reportedLastFrameAt c' := by
  rw [reportedLastFrameAt, reportedLastFrameAt, reported_eq_find (wf_disconnect hwf),
    reported_eq_find hwf, find_disconnect hwf]
  by_cases h : c' = c
  · rw [if_pos h, h]
    cases s.find c <;> rfl
  · rw [if_neg h]

theorem reportedLastFrameAt_acceptFrame (hwf : Wf s) {caller : τ} {frame : Buffer}
    {timestamp : Number} (hfresh : s.findCall caller = none) :
    (s.acceptFrame env caller c frame timestamp now).1.reportedLastFrameAt c' =
      s.reportedLastFrameAt c' := by
  rw [reportedLastFrameAt, reportedLastFrameAt, reported_eq_find (wf_acceptFrame hwf hfresh),
    reported_eq_find hwf, find_acceptFrame hwf]
  by_cases h : c' = c
  · rw [if_pos h, h, entryOrNew]
    cases hfind : s.find c with
    | none => simp [reconnected, hfind]
    | some st => simp
  · rw [if_neg h]

/-- A completion shows up exactly when the object it captured is still the entry. -/
theorem reportedLastFrameAt_resume (hwf : Wf s) {call : Call τ} (hcall : call ∈ s.calls)
    {reply : VisionReply} :
    (s.resume call reply now).1.reportedLastFrameAt c =
      if c = call.cameraId ∧ s.states.get? c = some call.current ∧ reply.succeeded = true then
        some now
      else s.reportedLastFrameAt c := by
  rw [reportedLastFrameAt, reportedLastFrameAt, reported_eq_find (wf_resume hwf),
    reported_eq_find hwf, find_resume]
  by_cases h : s.states.get? c = some call.current ∧ reply.succeeded = true
  · -- the captured object belongs to the camera of the call, so `c` is that camera
    obtain ⟨st, hst, hid⟩ := hwf.entry h.1
    obtain ⟨st', hst', hid'⟩ := hwf.call call hcall
    rw [hst] at hst'
    cases hst'
    rw [if_pos h, if_pos ⟨hid.symm.trans hid', h⟩, find_eq h.1, hst]
    rfl
  · rw [if_neg h, if_neg fun h' => h h'.2]

end Completions

/-- The reading of the most recent successful completion of a camera. -/
def lastCompletion (c : JsString) (h : List (Output τ)) : Option Int :=
  (completionsOf c h).getLast?

/-- `list()` reports the most recent successful completion of every camera. -/
def CompletionsReported (cfg : Config (CameraService τ) (Output τ)) : Prop :=
  ∀ c, cfg.state.reportedLastFrameAt c = lastCompletion c cfg.history

/-- The settlement of a successful call finds its camera's entry to be the object
    that the call captured (no reconnect has replaced it since the call started),
    or the clock shows what it showed at the camera's previous completion. -/
def CompletesOnEntry (cfg : Config (CameraService τ) (Output τ)) : Event τ → Prop
  | .settle caller reply now =>
      ∀ call, cfg.state.findCall caller = some call → reply.succeeded = true →
        cfg.state.states.get? call.cameraId = some call.current ∨
          lastCompletion call.cameraId cfg.history = some now
  | _ => True

theorem completionsReported_next_iff {e : Event τ} (hwf : Wf cfg.state)
    (h : CompletionsReported cfg) (hnext : (machine τ env).next cfg e = some cfg') :
    CompletionsReported cfg' ↔ CompletesOnEntry cfg e := by
  obtain ⟨c, rfl, rfl⟩ | ⟨c, rfl, rfl⟩ |
    ⟨caller, c, frame, timestamp, now, rfl, hfresh, rfl⟩ |
    ⟨caller, call, reply, now, rfl, hcall, rfl⟩ := next_cases hnext
  · refine iff_of_true (fun k => ?_) trivial
    exact (reportedLastFrameAt_connect hwf).trans (h k)
  · refine iff_of_true (fun k => ?_) trivial
    exact (reportedLastFrameAt_disconnect hwf).trans (h k)
  · refine iff_of_true (fun k => ?_) trivial
    rw [reportedLastFrameAt_acceptFrame hwf hfresh, h k]
    cases cfg.state.refuses env c now <;> simp [lastCompletion]
  · have hmem := (findCall_eq_some hcall).1
    simp only [CompletionsReported, CompletesOnEntry, reportedLastFrameAt_resume hwf hmem,
      lastCompletion, completionsOf_append, completionsOf_settled]
    cases hok : reply.succeeded with
    | false =>
        refine iff_of_true (fun k => ?_) (by simp)
        simpa [lastCompletion] using h k
    | true =>
        refine ⟨?_, ?_⟩
        · -- the reading shows: through the entry, or because it was there before
          intro hreported call' hcall' _
          rw [hcall] at hcall'
          cases hcall'
          have hk := hreported call.cameraId
          by_cases hentry : cfg.state.states.get? call.cameraId = some call.current
          · exact .inl hentry
          · -- the reading is lost, so the report is still the previous one
            right
            have hlast := h call.cameraId
            rw [lastCompletion] at hlast
            rw [← hlast]
            simpa [hentry] using hk
        · -- only the camera of the call has a new completion to report
          intro hguard k
          by_cases hk : k = call.cameraId
          · subst hk
            rcases hguard call hcall rfl with hentry | hdone
            · simp [hentry]
            · by_cases hentry : cfg.state.states.get? call.cameraId = some call.current
              · simp [hentry]
              · have hlast := (h call.cameraId).trans hdone
                simpa [hentry] using hlast
          · simpa [hk, Ne.symm hk, lastCompletion] using h k

/-- **Completions.** A run keeps reporting the most recent completion of every
    camera exactly when every successful settlement finds the object it captured as
    its camera's entry, or repeats the reading of the previous completion. -/
theorem completions_reported_iff
    (hrun : (machine τ env).exec (.start {}) es = some cfg) :
    (machine τ env).Throughout CompletionsReported (.start {}) es ↔
      (machine τ env).Guarded CompletesOnEntry (.start {}) es :=
  throughout_iff_guarded (I := fun c => Wf c.state) (fun _ _ _ => wf_next)
    (fun _ _ _ => completionsReported_next_iff) wf_empty (fun _ => rfl) hrun

/-- A camera reconnects while its first frame is being processed. -/
def reconnectInFlight : List (Event Nat) :=
  [.connect (js "cam"), .acceptFrame 0 (js "cam") [] (.finite 1) 1000, .connect (js "cam"),
    .settle 0 (.processed (.finite 5) [] []) 1005]

/-- The completion lands on the replaced object, and `lastFrameAt` stays `null`. -/
theorem reconnectInFlight_result :
    ∃ cfg, (machine Nat {}).exec (.start {}) reconnectInFlight = some cfg ∧
      lastCompletion (js "cam") cfg.history = some 1005 ∧
      cfg.state.reportedLastFrameAt (js "cam") = none := by
  have hlost : ((machine Nat {}).exec (.start {}) reconnectInFlight).any
      (fun cfg => decide (lastCompletion (js "cam") cfg.history = some 1005 ∧
        cfg.state.reportedLastFrameAt (js "cam") = none)) = true := by
    decide +kernel
  obtain ⟨cfg, hrun, h⟩ := (Option.any_eq_true _ _).mp hlost
  exact ⟨cfg, hrun, of_decide_eq_true h⟩

theorem reconnect_loses_completion :
    ∃ cfg, (machine Nat {}).exec (.start {}) reconnectInFlight = some cfg ∧
      ¬ CompletionsReported cfg := by
  obtain ⟨cfg, hrun, hlast, hreported⟩ := reconnectInFlight_result
  refine ⟨cfg, hrun, ?_⟩
  intro hall
  have hcam := hall (js "cam")
  rw [hlast, hreported] at hcam
  cases hcam

/-- That run breaks the condition at its last step. -/
theorem reconnect_in_flight_not_guarded :
    ¬ (machine Nat {}).Guarded CompletesOnEntry (.start {}) reconnectInFlight := by
  intro hguarded
  obtain ⟨cfg, hrun, hlast, hreported⟩ := reconnectInFlight_result
  have hcam := (completions_reported_iff hrun).mpr hguarded _ _ List.prefix_rfl hrun (js "cam")
  rw [hlast, hreported] at hcam
  cases hcam

end CameraStream.Server.CameraService
