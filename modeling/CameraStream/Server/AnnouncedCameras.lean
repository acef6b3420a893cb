/-
  CameraStream.Server.AnnouncedCameras

  The cameras that viewers hear of.

  A viewer learns of a camera from `camera:list`, from `camera:status` and from
  `viewer:frame`.  Whatever camera it learns of, some socket has presented the camera token
  under this id (`Presented`): entries of `CameraService` are made for such sockets only,
  and what a socket has been granted it keeps.
-/

import CameraStream.Server.GatewaySafety

namespace CameraStream.Server.CameraGateway

open Js EventMachine

variable {env : Env} {g g' : CameraGateway} {e : Event} {out : List Output}
  {es : List Event} {cfg cfg' : Config CameraGateway Output} {c : JsString}

/-- The cameras that an output names to viewers. -/
def announced : Output → List JsString
  | .cameraList _ states => states.map (·.cameraId)
  | .cameraStatus _ c _ => [c]
  | .viewerFrame _ _ frame => [frame.cameraId]
  | _ => []

/-- Some socket is camera `c`, connected or not. -/
def Presented (g : CameraGateway) (c : JsString) : Prop := ∃ sid, IsCamera g sid c

/-- Every entry is that of a camera. -/
def Genuine (g : CameraGateway) : Prop :=
  ∀ c, (g.cameras.find c).isSome = true → Presented g c

theorem Persists.presented (h : Persists g g') (hc : Presented g c) : Presented g' c := by
  obtain ⟨sid, hcam⟩ := hc
  exact ⟨sid, h.isCamera hcam⟩

theorem Genuine.listed (h : Genuine g) (hok : Ok env g) :
    ∀ c ∈ g.cameras.list.map (·.cameraId), Presented g c := by
  intro c hc
  obtain ⟨st, hst, rfl⟩ := List.mem_map.mp hc
  refine h _ ?_
  rw [(CameraService.mem_list_iff hok.cameras).mp hst]
  rfl

/-- A camera that joins has presented itself. -/
theorem presented_admitCamera (auth : HandshakeAuth) (k : JsString) :
    Presented ((g.join auth).admitCamera g.sockets.length k).1 k := by
  refine ⟨g.sockets.length, { auth := auth, role := some .camera, cameraId := some k }, ?_, rfl,
    rfl⟩
  simp only [admitCamera, getElem?_setSocket, if_pos, getElem?_join_new]
  rfl

/-- New entries are those of cameras that join or send. -/
theorem genuine_step (hok : Ok env g) (hgen : Genuine g) (h : Step env g e g' out) :
    Genuine g' := by
  intro c hc
  have hpersists := persists_step h
  have hold : (g.cameras.find c).isSome = true → Presented g' c := fun hbefore =>
    hpersists.presented (hgen c hbefore)
  have haccept : ∀ {client : SocketId} {socket : AuthenticatedSocket} {k : JsString}
      {tag : FrameTag} {frame : Buffer} {timestamp : Number} {now : Int},
      g.sockets[client]? = some socket → socket.asCamera = some k →
      ((g.cameras.acceptFrame env tag k frame timestamp now).1.find c).isSome = true →
      Presented g' c := by
    intro client socket k tag frame timestamp now hsocket hcamera hsome
    rw [CameraService.find_acceptFrame hok.cameras] at hsome
    split at hsome
    · next hk =>
        rw [hk]
        exact hpersists.presented ⟨client, isCamera_of_socket hsocket hcamera⟩
    · exact hold hsome
  have hresume : ∀ {call : Call FrameTag} {reply : VisionReply} {now : Int},
      ((g.cameras.resume call reply now).1.find c).isSome = true → Presented g' c := by
    intro call reply now hsome
    rw [CameraService.find_resume] at hsome
    split at hsome
    · rw [Option.isSome_map] at hsome
      exact hold hsome
    · exact hold hsome
  cases h with
  | camera auth k _ =>
      have hsome : ((g.cameras.connect k).find c).isSome = true := hc
      rw [CameraService.find_connect hok.cameras] at hsome
      split at hsome
      · next hk =>
          rw [hk]
          exact presented_admitCamera auth k
      · exact hold hsome
  | cameraLeft client socket k _ _ _ =>
      have hsome : ((g.cameras.disconnect k).find c).isSome = true := hc
      rw [CameraService.find_disconnect hok.cameras] at hsome
      split at hsome
      · next hk =>
          rw [Option.isSome_map, ← hk] at hsome
          exact hold hsome
      · exact hold hsome
  | frameRefused client socket k _ frame timestamp _ now hsocket _ hcamera =>
      exact haccept hsocket hcamera hc
  | frameStarted client socket k _ frame timestamp _ now hsocket _ hcamera =>
      exact haccept hsocket hcamera hc
  | processed tag call reply now _ _ _ _ => exact hresume hc
  | failed tag call reply now _ _ => exact hresume hc
  | _ => exact hold hc

/-- What a step names. -/
theorem announced_step (hok : Ok env g) (hcalls : ∀ call ∈ g.cameras.calls, CallEntitled g call)
    (hgen : Genuine g) (h : Step env g e g' out) :
    ∀ o ∈ out, ∀ c ∈ announced o, Presented g' c := by
  intro o ho c hc
  have hentitled := entitled_step hok hcalls h o ho
  have hpersists := persists_step h
  cases o with
  | cameraList client states =>
      cases h with
      | viewer auth _ =>
          obtain ⟨-, rfl⟩ := Output.cameraList.inj (List.mem_singleton.mp ho)
          exact hpersists.presented (hgen.listed hok c hc)
      | _ => simp [admitCamera, disconnectClient] at ho
  | cameraStatus recipients k connected =>
      obtain rfl := List.mem_singleton.mp hc
      cases h with
      | camera auth k _ =>
          obtain ⟨-, rfl, -⟩ := Output.cameraStatus.inj (List.mem_singleton.mp ho)
          exact presented_admitCamera auth _
      | cameraLeft client socket k hsocket _ hcamera =>
          obtain ⟨-, rfl, -⟩ := Output.cameraStatus.inj (List.mem_singleton.mp ho)
          exact hpersists.presented ⟨client, isCamera_of_socket hsocket hcamera⟩
      | _ => simp [admitViewer, disconnectClient] at ho
  | viewerFrame tag recipients frame =>
      obtain rfl := List.mem_singleton.mp hc
      exact ⟨tag.socket, hentitled⟩
  | _ => cases hc

theorem genuine_empty : Genuine {} := by
  intro c hc
  have hnone : ({} : CameraGateway).cameras.find c = none := CameraService.find_of_absent rfl
  rw [hnone] at hc
  cases hc

/-! ## Runs -/

structure Announcing (env : Env) (cfg : Config CameraGateway Output) : Prop where
  authorised : Authorised env cfg
  entries : Genuine cfg.state
  history : ∀ o ∈ cfg.history, ∀ c ∈ announced o, Presented cfg.state c

theorem announcing_next (h : Announcing env cfg) (hnext : (machine env).next cfg e = some cfg') :
    Announcing env cfg' := by
  obtain ⟨out, hstep, hhist⟩ := next_step hnext
  refine ⟨authorised_next h.authorised hnext, genuine_step h.authorised.ok h.entries hstep,
    fun o ho c hc => ?_⟩
  rw [hhist] at ho
  rcases List.mem_append.mp ho with hold | hnew
  · exact (persists_step hstep).presented (h.history o hold c hc)
  · exact announced_step h.authorised.ok h.authorised.calls h.entries hstep o hnew c hc

theorem announcing_run (hrun : (machine env).exec (.start {}) es = some cfg) :
    Announcing env cfg :=
  exec_invariant (fun _ _ _ => announcing_next)
    ⟨⟨ok_empty, by simp, fun _ h => by simp at h⟩, genuine_empty, by simp⟩ hrun

/-- **Viewers hear of cameras only.** In every run, whatever list, status event or frame names
    a camera to viewers, there is a socket whose handshake was that of this camera, with the
    camera token; so the id is a valid one. -/
theorem announced_are_cameras (hrun : (machine env).exec (.start {}) es = some cfg) :
    ∀ o ∈ cfg.history, ∀ c ∈ announced o, isCameraId c = true ∧
      ∃ (sid : SocketId) (socket : AuthenticatedSocket),
        cfg.state.sockets[sid]? = some socket ∧ CameraHandshake env socket.auth c := by
  intro o ho c hc
  have h := announcing_run hrun
  obtain ⟨sid, hcam⟩ := h.history o ho c hc
  obtain ⟨socket, hsocket, hshake⟩ := h.authorised.ok.camera_handshake hcam
  exact ⟨isCameraId_of_normalize hshake.cameraId, sid, socket, hsocket, hshake⟩

/-- In the sample run a status event names a camera. -/
theorem sample_announced_camera :
    ∃ cfg, (machine sampleEnv).exec (.start {}) sampleRun = some cfg ∧
      ∃ o ∈ cfg.history, ∃ c ∈ announced o,
        ∃ (sid : SocketId) (socket : AuthenticatedSocket),
          cfg.state.sockets[sid]? = some socket ∧ CameraHandshake sampleEnv socket.auth c := by
  have hnamed : ((machine sampleEnv).exec (.start {}) sampleRun).any (fun cfg =>
      cfg.history.any fun | .cameraStatus .. => true | _ => false) = true := by
    decide +kernel
  obtain ⟨cfg, hrun, h⟩ := (Option.any_eq_true _ _).mp hnamed
  obtain ⟨o, hmem, ho⟩ := List.any_eq_true.mp h
  cases o with
  | cameraStatus recipients c connected =>
      have hc : c ∈ announced (.cameraStatus recipients c connected) := List.mem_singleton_self c
      exact ⟨cfg, hrun, _, hmem, c, hc, (announced_are_cameras hrun _ hmem c hc).2⟩
  | _ => cases ho

end CameraStream.Server.CameraGateway
