/-
  CameraStream.Server.CameraIsolation

  One camera among the others: what `CameraService` keeps about camera `b` depends on
  the operations on `b` alone.

  The service keeps its cameras in shared collections: one map of entries, one set of
  cameras in processing, one map of times, and the suspended calls.  `view` is the part
  of them that belongs to `b`.  The operations on `b` act on the view as they do in
  `CameraView`, a camera on its own; the operations on other cameras leave it alone.

  A suspended call of `b` writes to the object that it captured.  The view does not
  name the object, but says whether it is still the entry.
-/

import CameraStream.Lib.Noninterference
import CameraStream.Server.CameraServiceRuns

namespace CameraStream.Server

open Js EventMachine

/-! ## A camera on its own -/

/-- A suspended call of a camera; `onEntry` tells whether it works on the entry. -/
structure PendingCall (τ : Type*) where
  caller : τ
  form : VisionForm
  onEntry : Bool

/-- What the service keeps about one camera. -/
@[ext]
structure CameraView (τ : Type*) where
  entry : Option CameraState
  processing : Bool
  lastAcceptedAt : Option Int
  calls : List (PendingCall τ)

namespace CameraView

variable {τ : Type*}

/-- The object that `connect` stores. -/
def fresh (b : JsString) (existing : Option CameraState) : CameraState where
  cameraId := b
  connected := true
  lastFrameAt := existing.bind (·.lastFrameAt)
  receivedFrames := (existing.map (·.receivedFrames)).getD 0
  droppedFrames := (existing.map (·.droppedFrames)).getD 0

/-- Suspended calls stay with the old object. -/
def connect (v : CameraView τ) (b : JsString) : CameraView τ :=
  { v with
    entry := some (fresh b v.entry)
    calls := v.calls.map fun call => { call with onEntry := false } }

def disconnect (v : CameraView τ) : CameraView τ :=
  { v with entry := v.entry.map fun st => { st with connected := false } }

def refuses (env : Env) (v : CameraView τ) (now : Int) : Bool :=
  v.processing ||
    Number.lt (.ofInt (now - v.lastAcceptedAt.getD 0)) (CameraService.minimumInterval env)

def acceptFrame (env : Env) (v : CameraView τ) (b : JsString) (caller : τ) (frame : Buffer)
    (timestamp : Number) (now : Int) : CameraView τ :=
  let st := v.entry.getD (fresh b none)
  if v.refuses env now then
    { v with
      entry := some { st with
        receivedFrames := st.receivedFrames + 1
        droppedFrames := st.droppedFrames + 1 } }
  else
    { entry := some { st with receivedFrames := st.receivedFrames + 1 }
      processing := true
      lastAcceptedAt := some now
      calls := v.calls ++ [⟨caller, visionForm env b frame timestamp, true⟩] }

def settle [DecidableEq τ] (v : CameraView τ) (call : PendingCall τ) (reply : VisionReply)
    (now : Int) : CameraView τ :=
  { v with
    entry :=
      if call.onEntry && reply.succeeded then
        v.entry.map fun st => { st with lastFrameAt := some now }
      else v.entry
    processing := false
    calls := v.calls.filter fun c => c.caller ≠ call.caller }

end CameraView

/-! ## The view of a camera -/

namespace CameraService

variable {τ : Type*} {env : Env} {s t : CameraService τ} {b c : JsString} {caller : τ}
  {frame : Buffer} {timestamp : Number} {now : Int}

def pending (s : CameraService τ) (b : JsString) (call : Call τ) : PendingCall τ where
  caller := call.caller
  form := call.form
  onEntry := decide (s.states.get? b = some call.current)

def view (s : CameraService τ) (b : JsString) : CameraView τ where
  entry := s.find b
  processing := decide (b ∈ s.processing)
  lastAcceptedAt := s.lastAcceptedAt.get? b
  calls := (s.callsOf b).map (s.pending b)

/-- Two states with the same data of `b` have the same view. -/
theorem view_congr (hfind : s.find b = t.find b) (hproc : b ∈ s.processing ↔ b ∈ t.processing)
    (hlast : s.lastAcceptedAt.get? b = t.lastAcceptedAt.get? b)
    (hcalls : s.callsOf b = t.callsOf b) (hentry : s.states.get? b = t.states.get? b) :
    s.view b = t.view b := by
  have hpending : s.pending b = t.pending b := by
    funext call
    rw [pending, pending, hentry]
  rw [view, view, hfind, hlast, hcalls, hpending, decide_eq_decide.mpr hproc]

/-! ### Effects on the map of entries -/

theorem states_connect : (s.connect c).states.get? b =
    if b = c then some s.heap.length else s.states.get? b :=
  InsertionMap.get?_set ..

theorem states_disconnect : (s.disconnect c).states = s.states := by
  rw [disconnect]
  cases s.states.get? c <;> rfl

theorem states_ensureState : (s.ensureState c).states.get? b =
    if b = c ∧ s.states.get? c = none then some s.heap.length else s.states.get? b := by
  rw [ensureState]
  cases hget : s.states.get? c with
  | none =>
      rw [if_pos Option.isNone_none, states_connect]
      simp
  | some r => simp

theorem states_counted : (s.counted c).states = (s.ensureState c).states := rfl

/-! ### Operations on other cameras -/

theorem view_connect_other (hwf : Wf s) (hc : b ≠ c) : (s.connect c).view b = s.view b := by
  refine view_congr ?_ Iff.rfl rfl rfl ?_
  · rw [find_connect hwf, if_neg hc]
  · rw [states_connect, if_neg hc]

theorem view_disconnect_other (hwf : Wf s) (hc : b ≠ c) : (s.disconnect c).view b = s.view b := by
  refine view_congr ?_ ?_ ?_ ?_ ?_
  · rw [find_disconnect hwf, if_neg hc]
  · rw [disconnect_processing]
  · rw [disconnect_lastAcceptedAt]
  · rw [callsOf, callsOf, disconnect_calls]
  · rw [states_disconnect]

theorem states_acceptFrame_other (hc : b ≠ c) :
    (s.acceptFrame env caller c frame timestamp now).1.states.get? b = s.states.get? b := by
  have hcounted : (s.counted c).states.get? b = s.states.get? b := by
    rw [states_counted, states_ensureState, if_neg (fun h => hc h.1)]
  cases hgate : s.refuses env c now with
  | true =>
      rw [acceptFrame_refused hgate]
      exact hcounted
  | false =>
      rw [acceptFrame_started hgate]
      exact hcounted

theorem view_acceptFrame_other (hwf : Wf s) (hc : b ≠ c) :
    (s.acceptFrame env caller c frame timestamp now).1.view b = s.view b := by
  refine view_congr ?_ ?_ ?_ ?_ (states_acceptFrame_other hc)
  · rw [find_acceptFrame hwf, if_neg hc]
  · cases hgate : s.refuses env c now with
    | true =>
        rw [acceptFrame_refused hgate, update_processing, counted_processing]
    | false =>
        rw [acceptFrame_started hgate]
        simp [hc]
  · cases hgate : s.refuses env c now with
    | true => rw [acceptFrame_refused hgate, update_lastAcceptedAt, counted_lastAcceptedAt]
    | false =>
        rw [acceptFrame_started hgate]
        exact InsertionMap.get?_set_ne _ hc _
  · cases hgate : s.refuses env c now with
    | true => rw [acceptFrame_refused hgate, callsOf, callsOf, update_calls, counted_calls]
    | false =>
        rw [acceptFrame_started hgate, callsOf, callsOf, List.filter_append]
        simp [newCall, Ne.symm hc]

variable [DecidableEq τ]

theorem states_resume {call : Call τ} {reply : VisionReply} :
    (s.resume call reply now).1.states = s.states := by
  cases reply <;> rfl

/-- A call of another camera has captured an object that is not the entry of `b`. -/
theorem view_resume_other (hwf : Wf s) {call : Call τ} {reply : VisionReply}
    (hcall : call ∈ s.calls) (hc : b ≠ call.cameraId) :
    (s.resume call reply now).1.view b = s.view b := by
  refine view_congr ?_ ?_ ?_ ?_ ?_
  · rw [find_resume, if_neg]
    rintro ⟨hentry, -⟩
    obtain ⟨st, hst, hid⟩ := hwf.call call hcall
    obtain ⟨st', hst', hid'⟩ := hwf.entry hentry
    rw [hst] at hst'
    cases hst'
    exact hc (hid'.symm.trans hid)
  · rw [resume_processing]
    simp [hc]
  · rw [resume_lastAcceptedAt]
  · rw [callsOf, callsOf, resume_calls, List.filter_filter]
    refine List.filter_congr fun call' hcall' => ?_
    -- a call with the same caller would be the same call
    by_cases hb : call'.cameraId = b
    · have hne : call'.caller ≠ call.caller := by
        intro heq
        rw [hwf.caller_inj hcall' hcall heq] at hb
        exact hc hb.symm
      simp [hb, hne]
    · simp [hb]
  · rw [states_resume]

/-! ### Operations on the camera itself -/

omit [DecidableEq τ] in
theorem view_connect (hwf : Wf s) : (s.connect b).view b = (s.view b).connect b := by
  have hfind : (s.connect b).find b = some (CameraView.fresh b (s.find b)) := by
    rw [find_connect hwf, if_pos rfl]
    rfl
  have hcalls : ((s.connect b).callsOf b).map ((s.connect b).pending b) =
      ((s.callsOf b).map (s.pending b)).map fun call => { call with onEntry := false } := by
    rw [List.map_map]
    refine List.map_congr_left fun call hcall => ?_
    -- what was captured before is older than the new entry
    obtain ⟨st, hst, -⟩ := hwf.call call (mem_callsOf.mp hcall).1
    have hlt : call.current < s.heap.length := (List.getElem?_eq_some_iff.mp hst).1
    have hold : (s.connect b).states.get? b ≠ some call.current := by
      rw [states_connect, if_pos rfl]
      exact fun h => Nat.lt_irrefl _ (Option.some.inj h ▸ hlt)
    simp [pending, hold]
  rw [view, hfind, hcalls]
  rfl

omit [DecidableEq τ] in
theorem view_disconnect (hwf : Wf s) : (s.disconnect b).view b = (s.view b).disconnect := by
  have hfind : (s.disconnect b).find b =
      (s.find b).map fun st => { st with connected := false } := by
    rw [find_disconnect hwf, if_pos rfl]
  have hpending : (s.disconnect b).pending b = s.pending b := by
    funext call
    rw [pending, pending, states_disconnect]
  rw [view, hfind, hpending, callsOf, disconnect_calls, disconnect_processing,
    disconnect_lastAcceptedAt]
  rfl

omit [DecidableEq τ] in
theorem view_refuses : (s.view b).refuses env now = s.refuses env b now := rfl

omit [DecidableEq τ] in
/-- Counting a frame moves no suspended call off its object. -/
theorem pending_counted (hwf : Wf s) :
    ((s.counted b).callsOf b).map ((s.counted b).pending b) = (s.callsOf b).map (s.pending b) := by
  rw [callsOf, counted_calls]
  refine List.map_congr_left fun call hcall => ?_
  obtain ⟨hmem, hid⟩ := mem_callsOf.mp hcall
  obtain ⟨r, hr⟩ := hwf.registered call hmem
  rw [hid] at hr
  -- a camera with a suspended call has an entry, so none is made for it
  have hstates : (s.counted b).states.get? b = s.states.get? b := by
    rw [states_counted, states_ensureState, if_neg]
    rintro ⟨-, hnone⟩
    rw [hr] at hnone
    cases hnone
  rw [pending, pending, hstates]

omit [DecidableEq τ] in
theorem view_acceptFrame (hwf : Wf s) :
    (s.acceptFrame env caller b frame timestamp now).1.view b =
      (s.view b).acceptFrame env b caller frame timestamp now := by
  have hfresh : s.entryOrNew b = (s.find b).getD (CameraView.fresh b none) := by
    rw [entryOrNew]
    cases hfind : s.find b with
    | none => simp [reconnected, CameraView.fresh, hfind]
    | some st => rfl
  have hfind : (s.acceptFrame env caller b frame timestamp now).1.find b = _ :=
    find_acceptFrame hwf
  rw [if_pos rfl, hfresh] at hfind
  -- the gate reads nothing but the view, so both sides take the same branch
  cases hgate : s.refuses env b now with
  | true =>
      have hview : (s.view b).refuses env now = true := hgate
      rw [CameraView.acceptFrame, if_pos hview]
      rw [acceptFrame_refused hgate] at hfind ⊢
      rw [hgate] at hfind
      apply CameraView.ext
      · exact hfind
      · rw [view, update_processing, counted_processing]
        rfl
      · rw [view, update_lastAcceptedAt, counted_lastAcceptedAt]
        rfl
      · exact pending_counted hwf
  | false =>
      have hview : ¬ (s.view b).refuses env now = true := Bool.eq_false_iff.mp hgate
      rw [CameraView.acceptFrame, if_neg hview]
      rw [acceptFrame_started hgate] at hfind ⊢
      rw [hgate] at hfind
      apply CameraView.ext
      · exact hfind
      · simp [view]
      · simp [view]
      · -- the new call stands behind the suspended ones and holds the present entry
        have hold := pending_counted (b := b) hwf
        rw [callsOf, counted_calls] at hold
        have hnew : (s.counted b).pending b (newCall env s caller b frame timestamp) =
            ⟨caller, visionForm env b frame timestamp, true⟩ := by
          have hget : (s.counted b).states.get? b = some ((s.ensureState b).currentRef b) :=
            get?_ensureState hwf
          simp [pending, newCall, hget]
        have hkept : [newCall env s caller b frame timestamp].filter
            (fun call => call.cameraId = b) = [newCall env s caller b frame timestamp] := by
          simp [newCall]
        change ((s.calls ++ [newCall env s caller b frame timestamp]).filter
          fun call => call.cameraId = b).map ((s.counted b).pending b) = _
        rw [List.filter_append, List.map_append, hold, hkept, List.map_singleton, hnew]
        rfl

theorem view_resume {call : Call τ} {reply : VisionReply} (hid : call.cameraId = b) :
    (s.resume call reply now).1.view b =
      (s.view b).settle (s.pending b call) reply now := by
  have hpending : (s.resume call reply now).1.pending b = s.pending b := by
    funext call'
    rw [pending, pending, states_resume]
  apply CameraView.ext
  · rw [view, find_resume]
    simp [CameraView.settle, view, pending]
  · rw [view, resume_processing, hid]
    simp [CameraView.settle]
  · rw [view, resume_lastAcceptedAt]
    rfl
  · -- removing by caller commutes with looking at the calls of `b` only
    rw [view, hpending, callsOf, resume_calls, List.filter_filter]
    change _ = ((s.callsOf b).map (s.pending b)).filter
      fun c => c.caller ≠ (s.pending b call).caller
    rw [List.filter_map, callsOf, List.filter_filter]
    have hcomm : s.calls.filter (fun call' => decide (call'.cameraId = b) &&
        decide (call'.caller ≠ call.caller)) = s.calls.filter (fun call' =>
          ((fun c => decide (c.caller ≠ (s.pending b call).caller)) ∘ s.pending b) call' &&
            decide (call'.cameraId = b)) :=
      List.filter_congr fun call' _ => Bool.and_comm _ _
    rw [← hcomm]

/-! ## Isolation -/

/-- The operations on camera `b`, in the state in which they happen. -/
def concerns (b : JsString) (s : CameraService τ) : Event τ → Bool
  | .connect c => c = b
  | .disconnect c => c = b
  | .acceptFrame _ c _ _ _ => c = b
  | .settle caller _ _ => (s.findCall caller).any fun call => call.cameraId = b

/-- The camera of an output. -/
def Output.cameraId : Output τ → JsString
  | .visionCall _ c | .dropped _ c | .settled _ c _ _ => c

/-- The outcomes of the operations on camera `b`. -/
def seenBy (b : JsString) (o : Output τ) : Option (Output τ) :=
  if o.cameraId = b then some o else none

/-- A service with the cameras of `s`, and one with camera `b` only, agree on `b`. -/
structure AgreeOn (b : JsString) (s t : CameraService τ) : Prop where
  wf : Wf s
  wfAlone : Wf t
  view : s.view b = t.view b
  alone : ∀ call ∈ t.calls, call.cameraId = b

omit [DecidableEq τ] in
theorem agreeOn_start (b : JsString) : AgreeOn b ({} : CameraService τ) {} :=
  ⟨wf_empty, wf_empty, rfl, by simp⟩

omit [DecidableEq τ] in
/-- A call of the camera that is suspended in one state is suspended in every state with
    the same view. -/
theorem pending_of_view_eq (h : s.view b = t.view b) {call : Call τ} (hcall : call ∈ s.calls)
    (hid : call.cameraId = b) :
    ∃ call' ∈ t.calls, call'.cameraId = b ∧ t.pending b call' = s.pending b call := by
  have hmem : s.pending b call ∈ (s.view b).calls :=
    List.mem_map_of_mem (mem_callsOf.mpr ⟨hcall, hid⟩)
  rw [h] at hmem
  obtain ⟨call', hcall', heq⟩ := List.mem_map.mp hmem
  obtain ⟨hin, hid'⟩ := mem_callsOf.mp hcall'
  exact ⟨call', hin, hid', heq⟩

/-- A caller that can start a frame among the other cameras can start it alone. -/
theorem AgreeOn.fresh (h : AgreeOn b s t) (hfresh : s.findCall caller = none) :
    t.findCall caller = none := by
  rw [findCall_eq_none] at hfresh ⊢
  intro hmem
  obtain ⟨call, hcall, hcaller⟩ := List.mem_map.mp hmem
  obtain ⟨call', hcall', -, heq⟩ := pending_of_view_eq h.view.symm hcall (h.alone call hcall)
  have hcaller' : call'.caller = caller := (congrArg PendingCall.caller heq).trans hcaller
  exact hfresh (hcaller' ▸ List.mem_map_of_mem hcall')

/-- A call of the camera that settles among the other cameras settles alone. -/
theorem AgreeOn.findCall (h : AgreeOn b s t) {call : Call τ}
    (hfind : s.findCall caller = some call) (hid : call.cameraId = b) :
    ∃ call', t.findCall caller = some call' ∧ call'.cameraId = b ∧
      t.pending b call' = s.pending b call := by
  obtain ⟨hmem, rfl⟩ := findCall_eq_some hfind
  obtain ⟨call', hmem', hid', heq⟩ := pending_of_view_eq h.view hmem hid
  have hcaller : call'.caller = call.caller := congrArg PendingCall.caller heq
  cases hfind' : t.findCall call.caller with
  | none =>
      have hnot := findCall_eq_none.mp hfind'
      exact absurd (hcaller ▸ List.mem_map_of_mem hmem') hnot
  | some found =>
      obtain ⟨hin, hsame⟩ := findCall_eq_some hfind'
      have hfound : found = call' := h.wfAlone.caller_inj hin hmem' (hsame.trans hcaller.symm)
      exact ⟨call', by rw [hfound], hid', heq⟩

/-- An operation on another camera changes nothing that `b` could see. -/
theorem AgreeOn.deleted (h : AgreeOn b s t) {e : Event τ} {s' : CameraService τ}
    {out : List (Output τ)} (hstep : (machine τ env).step s e = some (s', out))
    (hother : concerns b s e = false) : AgreeOn b s' t ∧ out.filterMap (seenBy b) = [] := by
  have hwf : Wf s' := wf_step h.wf hstep
  -- what is left to show is that the view of `b` is the same
  have hagree : ∀ {s'' : CameraService τ}, s'' = s' → s''.view b = s.view b → AgreeOn b s' t := by
    rintro _ rfl hview
    exact ⟨hwf, h.wfAlone, hview.trans h.view, h.alone⟩
  cases e with
  | connect c =>
      have hne : b ≠ c := Ne.symm (of_decide_eq_false hother)
      simp only [machine, step, Option.some.injEq, Prod.mk.injEq] at hstep
      obtain ⟨hs, rfl⟩ := hstep
      exact ⟨hagree hs (view_connect_other h.wf hne), rfl⟩
  | disconnect c =>
      have hne : b ≠ c := Ne.symm (of_decide_eq_false hother)
      simp only [machine, step, Option.some.injEq, Prod.mk.injEq] at hstep
      obtain ⟨hs, rfl⟩ := hstep
      exact ⟨hagree hs (view_disconnect_other h.wf hne), rfl⟩
  | acceptFrame caller c frame timestamp now =>
      have hne : c ≠ b := of_decide_eq_false hother
      cases hfresh : s.findCall caller with
      | some call => simp [machine, step, hfresh] at hstep
      | none =>
          simp only [machine, step, hfresh, acceptFrame_snd, Option.some.injEq,
            Prod.mk.injEq] at hstep
          obtain ⟨hs, rfl⟩ := hstep
          refine ⟨hagree hs (view_acceptFrame_other h.wf (Ne.symm hne)), ?_⟩
          cases s.refuses env c now with
          | true => simp [seenBy, Output.cameraId, hne]
          | false => simp [seenBy, Output.cameraId, hne]
  | settle caller reply now =>
      cases hcall : s.findCall caller with
      | none => simp [machine, step, hcall] at hstep
      | some call =>
          have hne : call.cameraId ≠ b := by simpa [concerns, hcall] using hother
          have hmem : call ∈ s.calls := (findCall_eq_some hcall).1
          simp only [machine, step, hcall, Option.some.injEq, Prod.mk.injEq] at hstep
          obtain ⟨hs, rfl⟩ := hstep
          refine ⟨hagree hs (view_resume_other h.wf hmem (Ne.symm hne)), ?_⟩
          simp [seenBy, Output.cameraId, hne]

/-- A frame of `b` meets the same gate alone. -/
theorem AgreeOn.acceptFrame (h : AgreeOn b s t) (hfresh : s.findCall caller = none) :
    ∃ t', (machine τ env).step t (.acceptFrame caller b frame timestamp now) =
        some (t', [if !s.refuses env b now then .visionCall caller b else .dropped caller b]) ∧
      AgreeOn b (s.acceptFrame env caller b frame timestamp now).1 t' := by
  have hfresh' : t.findCall caller = none := h.fresh hfresh
  have hgate : t.refuses env b now = s.refuses env b now := by
    rw [← view_refuses, ← view_refuses, h.view]
  refine ⟨(t.acceptFrame env caller b frame timestamp now).1, ?_, wf_acceptFrame h.wf hfresh,
    wf_acceptFrame h.wfAlone hfresh', ?_, ?_⟩
  · simp only [machine, step, hfresh', acceptFrame_snd, hgate]
  · rw [view_acceptFrame h.wf, view_acceptFrame h.wfAlone, h.view]
  · -- the call that it may have started is one of `b`
    cases hrefused : t.refuses env b now with
    | true =>
        rw [acceptFrame_refused hrefused, update_calls, counted_calls]
        exact h.alone
    | false =>
        rw [acceptFrame_started hrefused]
        intro call hcall
        rcases List.mem_append.mp hcall with hold | hnew
        · exact h.alone call hold
        · rw [List.mem_singleton.mp hnew]
          rfl

/-- A call of `b` settles alone with the same effect. -/
theorem AgreeOn.settle (h : AgreeOn b s t) {call : Call τ} (hcall : s.findCall caller = some call)
    (hid : call.cameraId = b) (reply : VisionReply) :
    ∃ t', (machine τ env).step t (.settle caller reply now) =
        some (t', [.settled caller b reply.succeeded now]) ∧
      AgreeOn b (s.resume call reply now).1 t' := by
  obtain ⟨call', hcall', hid', hpending⟩ := h.findCall hcall hid
  refine ⟨(t.resume call' reply now).1, ?_, wf_resume h.wf, wf_resume h.wfAlone, ?_, ?_⟩
  · simp only [machine, step, hcall', hid']
  · rw [view_resume hid, view_resume hid', hpending, h.view]
  · rw [resume_calls]
    exact fun call'' hmem => h.alone call'' (List.mem_filter.mp hmem).1

/-- An operation on `b` can happen alone, and then has the same effect on `b`. -/
theorem AgreeOn.kept (h : AgreeOn b s t) {e : Event τ} {s' : CameraService τ}
    {out : List (Output τ)} (hstep : (machine τ env).step s e = some (s', out))
    (hown : concerns b s e = true) :
    ∃ t' out', (machine τ env).step t e = some (t', out') ∧ AgreeOn b s' t' ∧
      out.filterMap (seenBy b) = out'.filterMap (seenBy b) := by
  have hwf : Wf s' := wf_step h.wf hstep
  cases e with
  | connect c =>
      obtain rfl : c = b := of_decide_eq_true hown
      simp only [machine, step, Option.some.injEq, Prod.mk.injEq] at hstep
      obtain ⟨rfl, rfl⟩ := hstep
      refine ⟨t.connect c, [], rfl, ⟨hwf, wf_connect h.wfAlone, ?_, h.alone⟩, rfl⟩
      rw [view_connect h.wf, view_connect h.wfAlone, h.view]
  | disconnect c =>
      obtain rfl : c = b := of_decide_eq_true hown
      simp only [machine, step, Option.some.injEq, Prod.mk.injEq] at hstep
      obtain ⟨rfl, rfl⟩ := hstep
      refine ⟨t.disconnect c, [], rfl, ⟨hwf, wf_disconnect h.wfAlone, ?_, ?_⟩, rfl⟩
      · rw [view_disconnect h.wf, view_disconnect h.wfAlone, h.view]
      · rw [disconnect_calls]
        exact h.alone
  | acceptFrame caller c frame timestamp now =>
      obtain rfl : c = b := of_decide_eq_true hown
      cases hfresh : s.findCall caller with
      | some call => simp [machine, step, hfresh] at hstep
      | none =>
          simp only [machine, step, hfresh, acceptFrame_snd, Option.some.injEq,
            Prod.mk.injEq] at hstep
          obtain ⟨rfl, rfl⟩ := hstep
          obtain ⟨t', hstep', hagree⟩ := h.acceptFrame hfresh
          exact ⟨t', _, hstep', hagree, rfl⟩
  | settle caller reply now =>
      cases hcall : s.findCall caller with
      | none => simp [machine, step, hcall] at hstep
      | some call =>
          have hid : call.cameraId = b := by simpa [concerns, hcall] using hown
          simp only [machine, step, hcall, Option.some.injEq, Prod.mk.injEq] at hstep
          obtain ⟨rfl, rfl⟩ := hstep
          obtain ⟨t', hstep', hagree⟩ := h.settle hcall hid reply
          exact ⟨t', _, hstep', hagree, by rw [hid]⟩

theorem unwinding (env : Env) (b : JsString) :
    Unwinding (machine τ env) (concerns b) (seenBy b) (AgreeOn b) where
  deleted h hstep hother := h.deleted hstep hother
  kept h hstep hown := h.kept hstep hown

/-- **Cameras do not interfere.** Without the operations on other cameras a run goes
    through, point by point, with the same outcomes for `b` and the same data of `b`. -/
theorem cameras_do_not_interfere (b : JsString) {es : List (Event τ)}
    {cfg : Config (CameraService τ) (Output τ)}
    (hrun : (machine τ env).exec (.start {}) es = some cfg) :
    (∀ fs, es <+: fs →
      (machine τ env).purge (concerns b) {} es <+: (machine τ env).purge (concerns b) {} fs) ∧
    ∃ alone, (machine τ env).exec (.start {}) ((machine τ env).purge (concerns b) {} es) =
        some alone ∧
      cfg.history.filterMap (seenBy b) = alone.history.filterMap (seenBy b) ∧
      cfg.state.find b = alone.state.find b ∧
      (b ∈ cfg.state.processing ↔ b ∈ alone.state.processing) ∧
      cfg.state.lastAcceptedAt.get? b = alone.state.lastAcceptedAt.get? b := by
  refine ⟨fun fs hbegin => purge_prefix hrun hbegin, ?_⟩
  obtain ⟨alone, hrun', hagree, hseen⟩ :=
    (unwinding env b).exec (d := .start {}) (agreeOn_start b) rfl hrun
  refine ⟨alone, hrun', hseen, congrArg CameraView.entry hagree.view, ?_,
    congrArg CameraView.lastAcceptedAt hagree.view⟩
  exact decide_eq_decide.mp (congrArg CameraView.processing hagree.view)

/-- Two cameras at work at the same time; the call of the other one fails. -/
def twoCameras : List (Event Nat) :=
  [.connect (js "cam"), .connect (js "other"),
    .acceptFrame 0 (js "other") [] (.finite 1) 1000,
    .acceptFrame 1 (js "cam") [] (.finite 1) 1000,
    .settle 0 .rejected 1010,
    .acceptFrame 2 (js "cam") [] (.finite 2) 2000,
    .settle 1 .rejected 2010]

/-- Camera `cam` on its own goes through four of these operations, to the same entry. -/
theorem twoCameras_cam_alone :
    ∃ own cfg alone, (machine Nat {}).purge (concerns (js "cam")) {} twoCameras = own ∧
      own.length = 4 ∧ (machine Nat {}).exec (.start {}) twoCameras = some cfg ∧
      (machine Nat {}).exec (.start {}) own = some alone ∧
      cfg.state.find (js "cam") = alone.state.find (js "cam") := by
  have hruns : ((machine Nat {}).exec (.start {}) twoCameras).isSome = true := by decide +kernel
  obtain ⟨cfg, hrun⟩ := Option.isSome_iff_exists.mp hruns
  obtain ⟨-, alone, hrun', -, hfind, -, -⟩ := cameras_do_not_interfere (js "cam") hrun
  exact ⟨_, cfg, alone, rfl, by decide +kernel, hrun, hrun', hfind⟩

end CameraService

end CameraStream.Server
