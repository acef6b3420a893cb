/-
  CameraStream.Server.VisionRequests

  The vision requests of the gateway: which ones a step makes, and from what.

  `asks` reads them off a step.  `asks_step` says that only an accepted frame makes one, from
  its own payload and under the camera id of its own socket; `asked_step` that a suspended
  call waits for the request that was made for it.
-/

import CameraStream.Server.GatewayRuns

namespace CameraStream.Server.CameraGateway

open Js EventMachine

variable {env : Env} {g g' : CameraGateway} {e : Event} {out : List Output}

/-- The requests that a step has made, each with the invocation of `onFrame` it is for. -/
def asks (g : CameraGateway) (out : List Output) : List (FrameTag × VisionForm) :=
  out.filterMap fun
    | .service (.visionCall tag _) => (g.cameras.findCall tag).map fun call => (tag, call.form)
    | _ => none

/-- `Number(payload.timestamp) || Date.now()`. -/
def frameTimestamp (timestamp : Number) (dateNow : Int) : Number :=
  timestamp.orElse (.ofInt dateNow)

/-- `tag` is a new invocation, and `form` is what it asks for the frame of its event. -/
structure FrameAsks (env : Env) (g : CameraGateway) (e : Event) (tag : FrameTag)
    (form : VisionForm) : Prop where
  number : tag.number = g.frames
  cameraId : tag.cameraId = some form.cameraId
  valid : isCameraId form.cameraId = true
  made : ∃ client socket payload buffer timestamp dateNow now,
    e = .frame client (some payload) dateNow now ∧ g.sockets[client]? = some socket ∧
      tag = g.nextTag client socket ∧ validFrame env (some payload) = some buffer ∧
      propertyToNumber payload.timestamp (env.nesting .timestamp) = some timestamp ∧
      form = visionForm env form.cameraId buffer (frameTimestamp timestamp dateNow)

/-- What a frame makes the gateway ask. -/
theorem asks_onFrame (hok : Ok env g) {client : SocketId} {socket : AuthenticatedSocket}
    (hsocket : g.sockets[client]? = some socket) {payload : Option IncomingFrame}
    {dateNow now : Int}
    (h : { g with frames := g.frames + 1 }.onFrame env socket (g.nextTag client socket) payload
      dateNow now = (g', out)) :
    (asks g' out = [] ∧ g'.cameras.calls = g.cameras.calls) ∨
      ∃ form current, FrameAsks env g (.frame client payload dateNow now)
          (g.nextTag client socket) form ∧
        asks g' out = [(g.nextTag client socket, form)] ∧
        g'.cameras.calls = g.cameras.calls ++
          [⟨g.nextTag client socket, form.cameraId, current, form⟩] := by
  rw [onFrame] at h
  split at h
  · cases h
    exact .inl ⟨rfl, rfl⟩
  · next c hcamera =>
    split at h
    · next p buffer hvalid =>
      split at h
      · cases h
        exact .inl ⟨rfl, rfl⟩
      · next timestamp htime =>
        simp only [CameraService.acceptFrame_snd] at h
        cases hgate : g.cameras.refuses env c now with
        | true =>
            rw [hgate] at h
            cases h
            refine .inl ⟨rfl, ?_⟩
            simp only [CameraService.acceptFrame_refused hgate, CameraService.update_calls,
              CameraService.counted_calls]
        | false =>
            rw [hgate] at h
            cases h
            obtain ⟨hrole, hid⟩ := asCamera_eq_some hcamera
            have hshake := (hok.sockets hsocket).camera hrole hid
            have hstarted : g.cameras.acceptFrame env (g.nextTag client socket) _ buffer
                (frameTimestamp timestamp dateNow) now = _ :=
              CameraService.acceptFrame_started hgate
            have hcalls := congrArg (fun r => r.1.calls) hstarted
            dsimp only at hcalls
            -- the new call is the one with the new tag
            have hfind := hok.findCall_nextTag client socket
            refine .inr ⟨visionForm env c buffer (frameTimestamp timestamp dateNow), _,
              ⟨rfl, hid, isCameraId_of_normalize hshake.cameraId, client, socket, p, buffer,
                timestamp, dateNow, now, rfl, hsocket, rfl, hvalid, htime, rfl⟩, ?_, hcalls⟩
            simp only [asks, List.filterMap_cons, List.filterMap_nil, CameraService.findCall,
              Bool.not_false, if_true]
            rw [show (g.cameras.acceptFrame env (g.nextTag client socket) c buffer
              (timestamp.orElse (.ofInt dateNow)) now).1.calls = _ from hcalls,
              List.find?_append,
              show g.cameras.calls.find? (fun call => call.caller = g.nextTag client socket) =
                none from hfind]
            simp [CameraService.newCall]
    · cases h
      exact .inl ⟨rfl, rfl⟩

/-- Only an accepted frame asks the vision service, for itself. -/
theorem asks_step (hok : Ok env g) (h : g.step env e = some (g', out)) :
    (asks g' out = [] ∧ ∀ call ∈ g'.cameras.calls, call ∈ g.cameras.calls) ∨
      ∃ tag form, FrameAsks env g e tag form ∧ asks g' out = [(tag, form)] ∧
        ∀ call ∈ g'.cameras.calls, call ∈ g.cameras.calls ∨
          call.caller = tag ∧ call.form = form := by
  cases step_cases h with
  | frameRejected client socket payload dateNow now reason hsocket hconn
  | frameRefused client socket c payload frame timestamp dateNow now hsocket hconn
  | frameStarted client socket c payload frame timestamp dateNow now hsocket hconn =>
      simp only [step, hsocket, hconn, if_true, Option.some.injEq, Prod.mk.injEq] at h
      rcases asks_onFrame hok hsocket (Prod.ext h.1 rfl) with ⟨hnone, hcalls⟩ |
        ⟨form, current, hform, hone, hcalls⟩
      · refine .inl ⟨?_, fun call hcall => hcalls ▸ hcall⟩
        rw [← h.2]
        exact hnone
      · refine .inr ⟨_, form, hform, ?_, fun call hcall => ?_⟩
        · rw [← h.2]
          exact hone
        · rw [hcalls] at hcall
          rcases List.mem_append.mp hcall with hold | hnew
          · exact .inl hold
          · rw [List.mem_singleton.mp hnew]
            exact .inr ⟨rfl, rfl⟩
  | camera | viewer | refused | threw | otherLeft => exact .inl ⟨rfl, fun _ hcall => hcall⟩
  | cameraLeft => exact .inl ⟨rfl, fun _ hcall => by simpa using hcall⟩
  | processed | failed =>
      refine .inl ⟨rfl, fun call hcall => ?_⟩
      simp only [CameraService.resume_calls] at hcall
      exact List.mem_of_mem_filter hcall

/-- A frame is broadcast when its request settles, and is what `process` has returned. -/
theorem viewerFrame_of_settle (h : g.step env e = some (g', out)) {tag : FrameTag}
    {recipients : List SocketId} {image : ProcessedFrame}
    (hmem : .viewerFrame tag recipients image ∈ out) :
    ∃ reply now call, e = .settle tag reply now ∧ call ∈ g.cameras.calls ∧
      call.caller = tag ∧ process call.form reply = .ok image := by
  cases e with
  | settle caller reply now =>
      cases hcall : g.cameras.findCall caller with
      | none => simp [step, hcall] at h
      | some call =>
          obtain ⟨hcalls, rfl⟩ := CameraService.findCall_eq_some hcall
          simp only [step, hcall, Option.some.injEq] at h
          obtain rfl := (congrArg Prod.snd h).symm
          -- `resume` returns what `process` does
          have hresume : (g.cameras.resume call reply now).2 = process call.form reply := by
            cases reply <;> rfl
          rw [onSettled] at hmem
          simp only [hresume] at hmem
          split at hmem
          · next processed hprocess =>
              simp only [List.mem_cons, reduceCtorEq, false_or, List.not_mem_nil, or_false] at hmem
              injection hmem with htag _ himage
              subst htag himage
              exact ⟨reply, now, call, rfl, hcalls, rfl, hprocess⟩
          · simp at hmem
  | connect | disconnect | frame =>
      cases step_cases h <;> simp [admitCamera, admitViewer, disconnectClient] at hmem

/-- Everything that was asked carries an old number, and every suspended call has asked for
    what it holds. -/
structure Asked (g : CameraGateway) (log : List (FrameTag × VisionForm)) : Prop where
  numbered : ∀ r ∈ log, r.1.number < g.frames
  once : ∀ r ∈ log, ∀ r' ∈ log, r.1 = r'.1 → r = r'
  calls : ∀ call ∈ g.cameras.calls, (call.caller, call.form) ∈ log

theorem asked_nil : Asked {} [] := ⟨nofun, nofun, nofun⟩

theorem asked_step (hok : Ok env g) {log : List (FrameTag × VisionForm)} (hasked : Asked g log)
    (h : g.step env e = some (g', out)) : Asked g' (log ++ asks g' out) := by
  have hle := frames_step (step_cases h)
  rcases asks_step hok h with ⟨hnone, hcalls⟩ | ⟨tag, form, hform, hone, hcalls⟩
  · rw [hnone, List.append_nil]
    exact ⟨fun r hr => Nat.lt_of_lt_of_le (hasked.numbered r hr) hle, hasked.once,
      fun call hcall => hasked.calls call (hcalls call hcall)⟩
  · rw [hone]
    -- the new tag has a number of its own
    have hnew : ∀ r ∈ log, r.1 ≠ tag := by
      intro r hr heq
      have hlt := hasked.numbered r hr
      rw [heq, hform.number] at hlt
      exact Nat.lt_irrefl _ hlt
    have hlt : tag.number < g'.frames := by
      obtain ⟨client, socket, payload, buffer, timestamp, dateNow, now, rfl, -⟩ := hform.made
      have hframes : g'.frames = g.frames + 1 := by
        cases step_cases h <;> rfl
      rw [hform.number, hframes]
      exact Nat.lt_succ_self _
    refine ⟨fun r hr => ?_, fun r hr r' hr' heq => ?_, fun call hcall => ?_⟩
    · rcases List.mem_append.mp hr with hold | hlast
      · exact Nat.lt_of_lt_of_le (hasked.numbered r hold) hle
      · rw [List.mem_singleton.mp hlast]
        exact hlt
    · rcases List.mem_append.mp hr with hold | hlast <;>
        rcases List.mem_append.mp hr' with hold' | hlast'
      · exact hasked.once r hold r' hold' heq
      · rw [List.mem_singleton.mp hlast'] at heq
        exact absurd heq (hnew r hold)
      · rw [List.mem_singleton.mp hlast] at heq
        exact absurd heq.symm (hnew r' hold')
      · rw [List.mem_singleton.mp hlast, List.mem_singleton.mp hlast']
    · rcases hcalls call hcall with hold | ⟨htag, hcallform⟩
      · exact List.mem_append_left _ (hasked.calls call hold)
      · rw [htag, hcallform]
        exact List.mem_append_right _ List.mem_cons_self

end CameraStream.Server.CameraGateway
