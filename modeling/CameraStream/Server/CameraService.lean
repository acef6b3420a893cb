/-
  CameraStream.Server.CameraService

  `CameraService` (camera.service.ts): per-camera state, the single-flight gate
  and the frame-rate gate in front of the vision service.

  JavaScript objects have identity.  `connect` stores a fresh `CameraState` under
  the camera id, while an `acceptFrame` suspended at its `await` keeps the object
  it looked up before.  The model has a heap of objects; `states` maps an id to a
  reference, and a suspended call holds the reference it captured.

  A `Call` also names its caller, the invocation that resumes when the vision
  service answers; the type of these names is a parameter.

  `find c` is the entry of camera `c`.  `mem_list_iff` says that `list` returns
  exactly the entries, and every operation has one lemma for its effect on
  `find`.
-/

import CameraStream.Lib.EventMachine
import CameraStream.Lib.InsertionMap
import CameraStream.Server.OpenCvService
import Mathlib.Data.Finset.Basic

namespace CameraStream.Server

open Js

/-- A reference to a `CameraState` object. -/
abbrev Ref := Nat

/-- An `acceptFrame` suspended at `await this.openCv.process(...)`. -/
structure Call (τ : Type*) where
  caller : τ
  cameraId : JsString
  /-- The object captured before the `await`. -/
  current : Ref
  form : VisionForm

structure CameraService (τ : Type*) where
  heap : List CameraState := []
  states : InsertionMap JsString Ref := .empty
  processing : Finset JsString := ∅
  lastAcceptedAt : InsertionMap JsString Int := .empty
  calls : List (Call τ) := []

namespace CameraService

variable {τ : Type*}

/-- The object behind a reference. -/
def deref (s : CameraService τ) (r : Ref) : Option CameraState := s.heap[r]?

/-- Assign to fields of the object behind `r`. -/
def update (s : CameraService τ) (r : Ref) (f : CameraState → CameraState) :
    CameraService τ :=
  { s with heap := s.heap.modify r f }

/-- The entry of a camera. -/
def find (s : CameraService τ) (cameraId : JsString) : Option CameraState :=
  (s.states.get? cameraId).bind s.deref

def connect (s : CameraService τ) (cameraId : JsString) : CameraService τ :=
  let existing := s.find cameraId
  -- `Map.set` stores a fresh object; references to the old one stay with it
  { s with
    heap := s.heap ++ [{
      cameraId := cameraId
      connected := true
      lastFrameAt := existing.bind (·.lastFrameAt)
      receivedFrames := (existing.map (·.receivedFrames)).getD 0
      droppedFrames := (existing.map (·.droppedFrames)).getD 0 }]
    states := s.states.set cameraId s.heap.length }

def disconnect (s : CameraService τ) (cameraId : JsString) : CameraService τ :=
  match s.states.get? cameraId with
  | some r => s.update r fun st => { st with connected := false }
  | none => s

/-- Copies of the entries in insertion order. -/
def list (s : CameraService τ) : List CameraState := s.states.values.filterMap s.deref

/-! ## `acceptFrame` -/

/-- `1_000 / maxFps`. -/
def minimumInterval (env : Env) : Number :=
  let configured :=
    match env.maxCameraFps with
    | some text => Number.ofString text
    | none => .finite 12
  Number.divPos env.division 1000 (Number.max (.finite 1) configured)

def tooFast (env : Env) (s : CameraService τ) (cameraId : JsString) (now : Int) : Bool :=
  Number.lt (.ofInt (now - (s.lastAcceptedAt.get? cameraId).getD 0)) (minimumInterval env)

/-- `if (!state) this.connect(cameraId)`. -/
def ensureState (s : CameraService τ) (cameraId : JsString) : CameraService τ :=
  if (s.states.get? cameraId).isNone then s.connect cameraId else s

/-- The object `current` that `acceptFrame` works on; after `ensureState` the
    second lookup finds one, which the source asserts with `!`. -/
def currentRef (s : CameraService τ) (cameraId : JsString) : Ref :=
  (s.states.get? cameraId).getD 0

/-- `acceptFrame` up to its `await`.  The flag tells whether the vision service
    was called; otherwise the promise resolves to `null`. -/
def acceptFrame (env : Env) (s : CameraService τ) (caller : τ) (cameraId : JsString)
    (frame : Buffer) (timestamp : Number) (now : Int) : CameraService τ × Bool :=
  let s := s.ensureState cameraId
  let current := s.currentRef cameraId
  -- counted before the gate, so that a dropped frame counts as received
  let s := s.update current fun st => { st with receivedFrames := st.receivedFrames + 1 }
  if cameraId ∈ s.processing ∨ tooFast env s cameraId now then
    (s.update current fun st => { st with droppedFrames := st.droppedFrames + 1 }, false)
  else
    ({ s with
        processing := insert cameraId s.processing
        lastAcceptedAt := s.lastAcceptedAt.set cameraId now
        calls := s.calls ++ [{
          caller := caller
          cameraId := cameraId
          current := current
          form := visionForm env cameraId frame timestamp }] }, true)

variable [DecidableEq τ]

/-- The suspended call of a caller. -/
def findCall (s : CameraService τ) (caller : τ) : Option (Call τ) :=
  s.calls.find? fun call => call.caller = caller

/-- `acceptFrame` from its `await` on: the promise of `process` settles, and the
    continuation with its `finally` runs in the same microtask drain. -/
def resume (s : CameraService τ) (call : Call τ) (reply : VisionReply) (now : Int) :
    CameraService τ × Except VisionError ProcessedFrame :=
  let s := { s with calls := s.calls.filter fun c => c.caller ≠ call.caller }
  match process call.form reply with
  | .ok processed =>
      -- the object captured before the `await`, whatever the `Map` holds now
      let s := s.update call.current fun st => { st with lastFrameAt := some now }
      ({ s with processing := s.processing.erase call.cameraId }, .ok processed)
  | .error e => ({ s with processing := s.processing.erase call.cameraId }, .error e)

/-! ## The service as a machine -/

/-- What can happen to the service; readings of `Date.now()` are event data. -/
inductive Event (τ : Type*) where
  | connect (cameraId : JsString)
  | disconnect (cameraId : JsString)
  | acceptFrame (caller : τ) (cameraId : JsString) (frame : Buffer) (timestamp : Number)
      (now : Int)
  | settle (caller : τ) (reply : VisionReply) (now : Int)

/-- What an observer of `acceptFrame` sees. -/
inductive Output (τ : Type*) where
  | visionCall (caller : τ) (cameraId : JsString)
  | dropped (caller : τ) (cameraId : JsString)
  | settled (caller : τ) (cameraId : JsString) (ok : Bool) (now : Int)

/-- `acceptFrame` is named by a caller that has no suspended call yet. -/
def step (env : Env) (s : CameraService τ) :
    Event τ → Option (CameraService τ × List (Output τ))
  | .connect cameraId => some (s.connect cameraId, [])
  | .disconnect cameraId => some (s.disconnect cameraId, [])
  | .acceptFrame caller cameraId frame timestamp now =>
      match s.findCall caller with
      | some _ => none
      | none =>
          let r := s.acceptFrame env caller cameraId frame timestamp now
          some (r.1, [if r.2 then .visionCall caller cameraId else .dropped caller cameraId])
  | .settle caller reply now =>
      match s.findCall caller with
      | none => none
      | some call =>
          some ((s.resume call reply now).1,
            [.settled caller call.cameraId reply.succeeded now])

def machine (τ : Type*) [DecidableEq τ] (env : Env) :
    EventMachine (CameraService τ) (Event τ) (Output τ) := ⟨step env⟩

/-! ## Well-formedness -/

/-- Entries and suspended calls refer to live objects of their own camera, a
    camera with a suspended call has an entry, and no caller waits twice. -/
structure Wf (s : CameraService τ) : Prop where
  entry : ∀ {c r}, s.states.get? c = some r → ∃ st, s.deref r = some st ∧ st.cameraId = c
  call : ∀ call ∈ s.calls, ∃ st, s.deref call.current = some st ∧ st.cameraId = call.cameraId
  registered : ∀ call ∈ s.calls, ∃ r, s.states.get? call.cameraId = some r
  callers : (s.calls.map (·.caller)).Nodup

section Entries

omit [DecidableEq τ]

variable {s : CameraService τ} {c c' : JsString} {r r' : Ref} {f : CameraState → CameraState}

theorem wf_empty : Wf ({} : CameraService τ) where
  entry h := by simp at h
  call _ h := by simp at h
  registered _ h := by simp at h
  callers := List.nodup_nil

theorem find_eq (h : s.states.get? c = some r) : s.find c = s.deref r := by
  simp [find, h]

theorem find_of_absent (h : s.states.get? c = none) : s.find c = none := by
  simp [find, h]

theorem Wf.find_isSome (hwf : Wf s) (h : s.states.get? c = some r) :
    ∃ st, s.find c = some st ∧ st.cameraId = c := by
  rw [find_eq h]
  exact hwf.entry h

theorem Wf.cameraId_of_find (hwf : Wf s) {st : CameraState} (h : s.find c = some st) :
    st.cameraId = c := by
  obtain ⟨r, hget, hderef⟩ := Option.bind_eq_some_iff.mp h
  obtain ⟨st', hst', hid⟩ := hwf.entry hget
  rw [hderef] at hst'
  cases hst'
  exact hid

/-- Entries of different cameras are different objects. -/
theorem Wf.ref_inj (hwf : Wf s) (h : s.states.get? c = some r)
    (h' : s.states.get? c' = some r) : c' = c := by
  obtain ⟨st, hst, hid⟩ := hwf.entry h
  obtain ⟨st', hst', hid'⟩ := hwf.entry h'
  rw [hst] at hst'
  cases hst'
  exact hid'.symm.trans hid

/-- `list` returns exactly the entries. -/
theorem mem_list_iff (hwf : Wf s) {st : CameraState} :
    st ∈ s.list ↔ s.find st.cameraId = some st := by
  rw [list, List.mem_filterMap]
  refine ⟨?_, ?_⟩
  · -- a listed object is the entry of some camera, which can only be its own
    rintro ⟨r, hmem, hderef⟩
    obtain ⟨c, hget⟩ := (s.states.mem_values_iff r).mp hmem
    obtain ⟨st', hst', hid⟩ := hwf.entry hget
    rw [hderef] at hst'
    cases hst'
    rw [hid, find_eq hget, hderef]
  · intro hfind
    obtain ⟨r, hget, hderef⟩ := Option.bind_eq_some_iff.mp hfind
    exact ⟨r, (s.states.mem_values_iff r).mpr ⟨_, hget⟩, hderef⟩

/-! ## Effects on the entries -/

@[simp] theorem update_calls : (s.update r f).calls = s.calls := rfl

@[simp] theorem update_processing : (s.update r f).processing = s.processing := rfl

@[simp] theorem update_lastAcceptedAt : (s.update r f).lastAcceptedAt = s.lastAcceptedAt := rfl

theorem deref_update :
    (s.update r f).deref r' = if r' = r then (s.deref r').map f else s.deref r' := by
  rw [deref, deref, update, List.getElem?_modify]
  by_cases h : r' = r
  · rw [if_pos h]
    simp only [if_pos h.symm]
    rfl
  · rw [if_neg h]
    simp only [if_neg (Ne.symm h)]
    exact id_map _

theorem find_update :
    (s.update r f).find c =
      if s.states.get? c = some r then (s.find c).map f else s.find c := by
  cases hget : s.states.get? c with
  | none => simp [find_of_absent hget, find_of_absent (s := s.update r f) hget]
  | some r' =>
      rw [find_eq (s := s.update r f) hget, find_eq hget, deref_update]
      simp only [Option.some.injEq]

theorem wf_update (hwf : Wf s) (hf : ∀ st, (f st).cameraId = st.cameraId) :
    Wf (s.update r f) := by
  have hderef : ∀ {r' c}, (∃ st, s.deref r' = some st ∧ st.cameraId = c) →
      ∃ st, (s.update r f).deref r' = some st ∧ st.cameraId = c := by
    rintro r' c ⟨st, hst, hid⟩
    rw [deref_update]
    split
    · exact ⟨f st, by rw [hst]; rfl, (hf st).trans hid⟩
    · exact ⟨st, hst, hid⟩
  exact ⟨fun h => hderef (hwf.entry h), fun call h => hderef (hwf.call call h),
    hwf.registered, hwf.callers⟩

/-- The object that `connect` stores. -/
def reconnected (s : CameraService τ) (cameraId : JsString) : CameraState where
  cameraId := cameraId
  connected := true
  lastFrameAt := (s.find cameraId).bind (·.lastFrameAt)
  receivedFrames := ((s.find cameraId).map (·.receivedFrames)).getD 0
  droppedFrames := ((s.find cameraId).map (·.droppedFrames)).getD 0

theorem deref_connect_new : (s.connect c).deref s.heap.length = some (s.reconnected c) := by
  simp [connect, deref, reconnected]

theorem deref_connect_old {st : CameraState} (h : s.deref r = some st) :
    (s.connect c).deref r = some st := by
  have hlt : r < s.heap.length := (List.getElem?_eq_some_iff.mp h).1
  rw [deref, connect, List.getElem?_append_left hlt]
  exact h

theorem find_connect (hwf : Wf s) :
    (s.connect c).find c' = if c' = c then some (s.reconnected c) else s.find c' := by
  by_cases h : c' = c
  · subst h
    rw [if_pos rfl, find_eq (r := s.heap.length) (by simp [connect]), deref_connect_new]
  · -- the other entries are found where they were: the heap only grows
    rw [if_neg h]
    cases hget : s.states.get? c' with
    | none => rw [find_of_absent hget, find_of_absent (by simp [connect, h, hget])]
    | some r =>
        obtain ⟨st, hst, -⟩ := hwf.entry hget
        rw [find_eq hget, find_eq (r := r) (by simp [connect, h, hget]), hst,
          deref_connect_old hst]

/-- A camera is listed as online once it has connected. -/
theorem mem_list_connect : s.reconnected c ∈ (s.connect c).list := by
  rw [list, List.mem_filterMap]
  refine ⟨s.heap.length, ((s.connect c).states.mem_values_iff _).mpr ⟨c, ?_⟩,
    deref_connect_new⟩
  simp [connect]

theorem wf_connect (hwf : Wf s) : Wf (s.connect c) := by
  refine ⟨?_, ?_, ?_, hwf.callers⟩
  · -- the new entry, and the old ones of the other cameras
    intro c' r hget
    rw [connect, InsertionMap.get?_set] at hget
    by_cases h : c' = c
    · rw [if_pos h, Option.some.injEq] at hget
      subst hget
      exact ⟨_, deref_connect_new, h.symm⟩
    · rw [if_neg h] at hget
      obtain ⟨st, hst, hid⟩ := hwf.entry hget
      exact ⟨st, deref_connect_old hst, hid⟩
  · -- a suspended call keeps the object it captured
    intro call hcall
    obtain ⟨st, hst, hid⟩ := hwf.call call hcall
    exact ⟨st, deref_connect_old hst, hid⟩
  · intro call hcall
    obtain ⟨r, hr⟩ := hwf.registered call hcall
    rw [connect, InsertionMap.get?_set]
    split
    · exact ⟨_, rfl⟩
    · exact ⟨r, hr⟩

theorem find_disconnect (hwf : Wf s) :
    (s.disconnect c).find c' =
      if c' = c then (s.find c).map fun st => { st with connected := false }
      else s.find c' := by
  rw [disconnect]
  cases hget : s.states.get? c with
  | none =>
      by_cases h : c' = c
      · simp [h, find_of_absent hget]
      · simp [h]
  | some r =>
      simp only [find_update]
      by_cases h : c' = c
      · subst h
        rw [if_pos hget, if_pos rfl]
      · -- another camera has another object
        rw [if_neg (fun h' => h (hwf.ref_inj hget h')), if_neg h]

theorem wf_disconnect (hwf : Wf s) : Wf (s.disconnect c) := by
  rw [disconnect]
  cases s.states.get? c with
  | none => exact hwf
  | some r => exact wf_update hwf fun _ => rfl

@[simp] theorem disconnect_calls : (s.disconnect c).calls = s.calls := by
  rw [disconnect]
  cases s.states.get? c <;> rfl

@[simp] theorem disconnect_processing : (s.disconnect c).processing = s.processing := by
  rw [disconnect]
  cases s.states.get? c <;> rfl

@[simp] theorem disconnect_lastAcceptedAt :
    (s.disconnect c).lastAcceptedAt = s.lastAcceptedAt := by
  rw [disconnect]
  cases s.states.get? c <;> rfl

/-- The entry that `acceptFrame` works on, created if missing. -/
def entryOrNew (s : CameraService τ) (cameraId : JsString) : CameraState :=
  (s.find cameraId).getD (s.reconnected cameraId)

theorem find_ensureState (hwf : Wf s) :
    (s.ensureState c).find c' = if c' = c then some (s.entryOrNew c) else s.find c' := by
  rw [ensureState, entryOrNew]
  cases hget : s.states.get? c with
  | none =>
      rw [if_pos Option.isNone_none, find_connect hwf, find_of_absent hget]
      rfl
  | some r =>
      obtain ⟨st, hst, -⟩ := hwf.find_isSome hget
      rw [if_neg (by simp), hst]
      split
      · next h => rw [h, hst]; rfl
      · rfl

theorem wf_ensureState (hwf : Wf s) : Wf (s.ensureState c) := by
  rw [ensureState]
  split
  · exact wf_connect hwf
  · exact hwf

@[simp] theorem ensureState_calls : (s.ensureState c).calls = s.calls := by
  rw [ensureState]
  split <;> rfl

@[simp] theorem ensureState_processing : (s.ensureState c).processing = s.processing := by
  rw [ensureState]
  split <;> rfl

@[simp] theorem ensureState_lastAcceptedAt :
    (s.ensureState c).lastAcceptedAt = s.lastAcceptedAt := by
  rw [ensureState]
  split <;> rfl

/-- After `ensureState` the second lookup finds an object. -/
theorem get?_ensureState (hwf : Wf s) :
    (s.ensureState c).states.get? c = some ((s.ensureState c).currentRef c) := by
  have hfind : (s.ensureState c).find c = some (s.entryOrNew c) := by
    rw [find_ensureState hwf, if_pos rfl]
  cases hget : (s.ensureState c).states.get? c with
  | none =>
      rw [find_of_absent hget] at hfind
      cases hfind
  | some r => rw [currentRef, hget]; rfl

/-- What `list()` says about one camera. -/
def reported (s : CameraService τ) (cameraId : JsString) : Option CameraState :=
  s.list.find? fun st => st.cameraId = cameraId

theorem reported_eq_find (hwf : Wf s) : s.reported c = s.find c := by
  cases hrep : s.reported c with
  | some st =>
      have hmem := List.mem_of_find?_eq_some hrep
      have hid : st.cameraId = c := by simpa using List.find?_some hrep
      rw [← hid, (mem_list_iff hwf).mp hmem]
  | none =>
      -- an entry would be listed, and found
      cases hfind : s.find c with
      | none => rfl
      | some st =>
          have hid := hwf.cameraId_of_find hfind
          have hmem : st ∈ s.list := (mem_list_iff hwf).mpr (by rw [hid, hfind])
          have hne := List.find?_eq_none.mp hrep st hmem
          simp [hid] at hne

end Entries

/-! ## `acceptFrame` and its continuation -/

section Frames

variable {env : Env} {s : CameraService τ} {caller : τ} {c c' : JsString} {frame : Buffer}
  {timestamp : Number} {now : Int}

/-- The gate of `acceptFrame`. -/
def refuses (env : Env) (s : CameraService τ) (cameraId : JsString) (now : Int) : Bool :=
  decide (cameraId ∈ s.processing) || tooFast env s cameraId now

/-- The object and the entry that `acceptFrame` counts on. -/
def counted (s : CameraService τ) (cameraId : JsString) : CameraService τ :=
  (s.ensureState cameraId).update ((s.ensureState cameraId).currentRef cameraId)
    fun st => { st with receivedFrames := st.receivedFrames + 1 }

/-- The call that `acceptFrame` suspends in. -/
def newCall (env : Env) (s : CameraService τ) (caller : τ) (cameraId : JsString)
    (frame : Buffer) (timestamp : Number) : Call τ where
  caller := caller
  cameraId := cameraId
  current := (s.ensureState cameraId).currentRef cameraId
  form := visionForm env cameraId frame timestamp

omit [DecidableEq τ] in
theorem counted_calls : (s.counted c).calls = s.calls := by
  rw [counted, update_calls, ensureState_calls]

omit [DecidableEq τ] in
theorem counted_processing : (s.counted c).processing = s.processing := by
  rw [counted, update_processing, ensureState_processing]

omit [DecidableEq τ] in
theorem counted_lastAcceptedAt : (s.counted c).lastAcceptedAt = s.lastAcceptedAt := by
  rw [counted, update_lastAcceptedAt, ensureState_lastAcceptedAt]

omit [DecidableEq τ] in
/-- The gate reads nothing that counting the frame has changed. -/
theorem gate_iff :
    (c ∈ (s.counted c).processing ∨ tooFast env (s.counted c) c now = true) ↔
      s.refuses env c now = true := by
  simp [refuses, tooFast, counted_processing, counted_lastAcceptedAt]

omit [DecidableEq τ] in
theorem acceptFrame_refused (h : s.refuses env c now = true) :
    s.acceptFrame env caller c frame timestamp now =
      ((s.counted c).update ((s.ensureState c).currentRef c)
        fun st => { st with droppedFrames := st.droppedFrames + 1 }, false) :=
  if_pos (gate_iff.mpr h)

omit [DecidableEq τ] in
theorem acceptFrame_started (h : s.refuses env c now = false) :
    s.acceptFrame env caller c frame timestamp now =
      ({ s.counted c with
          processing := insert c s.processing
          lastAcceptedAt := s.lastAcceptedAt.set c now
          calls := s.calls ++ [newCall env s caller c frame timestamp] }, true) := by
  have hgate := gate_iff.not.mpr (Bool.eq_false_iff.mp h)
  rw [← counted_processing (s := s) (c := c), ← counted_lastAcceptedAt (s := s) (c := c),
    ← counted_calls (s := s) (c := c)]
  exact if_neg hgate

omit [DecidableEq τ] in
theorem acceptFrame_snd :
    (s.acceptFrame env caller c frame timestamp now).2 = !s.refuses env c now := by
  cases h : s.refuses env c now with
  | true => rw [acceptFrame_refused h]; rfl
  | false => rw [acceptFrame_started h]; rfl

omit [DecidableEq τ] in
theorem wf_counted (hwf : Wf s) : Wf (s.counted c) :=
  wf_update (wf_ensureState hwf) fun _ => rfl

omit [DecidableEq τ] in
theorem find_counted (hwf : Wf s) :
    (s.counted c).find c' =
      if c' = c then
        some { s.entryOrNew c with receivedFrames := (s.entryOrNew c).receivedFrames + 1 }
      else s.find c' := by
  have hget := get?_ensureState (c := c) hwf
  rw [counted, find_update, find_ensureState hwf]
  by_cases h : c' = c
  · subst h
    rw [if_pos hget, if_pos rfl, if_pos rfl]
    rfl
  · rw [if_neg fun h' => h ((wf_ensureState hwf).ref_inj hget h'), if_neg h, if_neg h]

omit [DecidableEq τ] in
/-- Only the entry of the frame's camera changes: the frame is counted, and
    counted as dropped unless the vision service was called. -/
theorem find_acceptFrame (hwf : Wf s) :
    (s.acceptFrame env caller c frame timestamp now).1.find c' =
      if c' = c then
        some { s.entryOrNew c with
          receivedFrames := (s.entryOrNew c).receivedFrames + 1
          droppedFrames := (s.entryOrNew c).droppedFrames
            + if s.refuses env c now then 1 else 0 }
      else s.find c' := by
  cases h : s.refuses env c now with
  | false =>
      rw [acceptFrame_started h]
      exact find_counted hwf
  | true =>
      have hget : (s.counted c).states.get? c = some ((s.ensureState c).currentRef c) :=
        get?_ensureState hwf
      rw [acceptFrame_refused h]
      -- the drop is counted on the entry that the frame was counted on
      simp only [find_update, find_counted hwf]
      by_cases hc : c' = c
      · subst hc
        rw [if_pos hget, if_pos rfl, if_pos rfl]
        rfl
      · rw [if_neg fun h' => hc ((wf_counted hwf).ref_inj hget h'), if_neg hc, if_neg hc]

theorem findCall_eq_some {call : Call τ} (h : s.findCall caller = some call) :
    call ∈ s.calls ∧ call.caller = caller :=
  ⟨List.mem_of_find?_eq_some h, by simpa using List.find?_some h⟩

theorem findCall_eq_none : s.findCall caller = none ↔ caller ∉ s.calls.map (·.caller) := by
  simp [findCall]

theorem wf_acceptFrame (hwf : Wf s) (hfresh : s.findCall caller = none) :
    Wf (s.acceptFrame env caller c frame timestamp now).1 := by
  cases h : s.refuses env c now with
  | true =>
      rw [acceptFrame_refused h]
      exact wf_update (wf_counted hwf) fun _ => rfl
  | false =>
      rw [acceptFrame_started h]
      have hcounted : Wf (s.counted c) := wf_counted hwf
      have hget : (s.counted c).states.get? c = some ((s.ensureState c).currentRef c) :=
        get?_ensureState hwf
      have hcalls : (s.counted c).calls = s.calls := counted_calls
      refine ⟨hcounted.entry, ?_, ?_, ?_⟩
      · intro call hcall
        rcases List.mem_append.mp hcall with hold | hnew
        · exact hcounted.call call (hcalls ▸ hold)
        · rw [List.mem_singleton.mp hnew]
          exact hcounted.entry hget
      · intro call hcall
        rcases List.mem_append.mp hcall with hold | hnew
        · exact hcounted.registered call (hcalls ▸ hold)
        · rw [List.mem_singleton.mp hnew]
          exact ⟨_, hget⟩
      · -- the new caller waits nowhere else
        have hnot := findCall_eq_none.mp hfresh
        rw [List.map_append, List.nodup_append']
        refine ⟨hwf.callers, List.nodup_singleton _, ?_⟩
        simpa [List.disjoint_singleton, newCall] using hnot

/-- Completion of a call: its reading goes to the object the call captured. -/
theorem find_resume {call : Call τ} {reply : VisionReply} :
    (s.resume call reply now).1.find c =
      if s.states.get? c = some call.current ∧ reply.succeeded = true then
        (s.find c).map fun st => { st with lastFrameAt := some now }
      else s.find c := by
  cases reply with
  | processed processingMs detections image =>
      simp only [resume, process, VisionReply.succeeded, and_true]
      exact find_update (s := { s with calls := _ })
  | rejected => simp [resume, process, VisionReply.succeeded]; rfl
  | status code => simp [resume, process, VisionReply.succeeded]; rfl

theorem resume_calls {call : Call τ} {reply : VisionReply} :
    (s.resume call reply now).1.calls = s.calls.filter fun c => c.caller ≠ call.caller := by
  cases reply <;> rfl

theorem resume_processing {call : Call τ} {reply : VisionReply} :
    (s.resume call reply now).1.processing = s.processing.erase call.cameraId := by
  cases reply <;> rfl

theorem resume_lastAcceptedAt {call : Call τ} {reply : VisionReply} :
    (s.resume call reply now).1.lastAcceptedAt = s.lastAcceptedAt := by
  cases reply <;> rfl

theorem wf_resume {call : Call τ} {reply : VisionReply} (hwf : Wf s) :
    Wf (s.resume call reply now).1 := by
  -- fewer calls are suspended; the objects stay and keep their ids
  have hfiltered : Wf { s with calls := s.calls.filter fun c => c.caller ≠ call.caller } :=
    ⟨hwf.entry, fun call hcall => hwf.call call (List.mem_of_mem_filter hcall),
      fun call hcall => hwf.registered call (List.mem_of_mem_filter hcall),
      hwf.callers.sublist (List.filter_sublist.map _)⟩
  cases reply with
  | processed processingMs detections image =>
      have hupd := wf_update (r := call.current)
        (f := fun st => { st with lastFrameAt := some now }) hfiltered fun _ => rfl
      exact ⟨hupd.entry, hupd.call, hupd.registered, hupd.callers⟩
  | _ => exact ⟨hfiltered.entry, hfiltered.call, hfiltered.registered, hfiltered.callers⟩

theorem wf_step {s' : CameraService τ} {e : Event τ} {out : List (Output τ)} (hwf : Wf s)
    (hstep : step env s e = some (s', out)) : Wf s' := by
  cases e with
  | connect c =>
      cases hstep
      exact wf_connect hwf
  | disconnect c =>
      cases hstep
      exact wf_disconnect hwf
  | acceptFrame caller c frame timestamp now =>
      cases hfresh : s.findCall caller with
      | some call => simp [step, hfresh] at hstep
      | none =>
          simp only [step, hfresh, Option.some.injEq, Prod.mk.injEq] at hstep
          exact hstep.1 ▸ wf_acceptFrame hwf hfresh
  | settle caller reply now =>
      cases hcall : s.findCall caller with
      | none => simp [step, hcall] at hstep
      | some call =>
          simp only [step, hcall, Option.some.injEq, Prod.mk.injEq] at hstep
          exact hstep.1 ▸ wf_resume hwf

end Frames

end CameraService

end CameraStream.Server
