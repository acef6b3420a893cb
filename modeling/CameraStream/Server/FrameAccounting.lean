/-
  CameraStream.Server.FrameAccounting

  Every `camera:frame` is accounted for: the answers, the counters of its camera
  and the broadcasts agree in every run.

  `Matched` compares the outputs of the gateway with those of the service inside
  it, camera by camera; it holds of the outputs of a single event and is closed
  under concatenation, hence holds of whole histories.  `Answered` is the
  conservation law of answers: the frames that have arrived are, up to order, the
  frames that have been answered and the frames that wait for the vision service.
  The order of broadcasts then follows from the single flight of the service.
-/

import CameraStream.Server.GatewayRuns

namespace CameraStream.Server.CameraGateway

open Js EventMachine
open CameraService (startedOf outcomesOf succeededOf failedOf droppedOf)

variable {env : Env} {g g' : CameraGateway} {e : Event} {out : List Output}
  {es : List Event} {cfg cfg' : Config CameraGateway Output}

/-! ## Reading a history -/

/-- The frames that have arrived, in order. -/
def arrivals (h : List Output) : List FrameTag :=
  h.filterMap fun
    | .arrived tag => some tag
    | _ => none

/-- The frames of camera `c` that have arrived, in order. -/
def arrivedOf (c : JsString) (h : List Output) : List FrameTag :=
  (arrivals h).filter fun tag => tag.cameraId = some c

/-- The answers with the frames they answer, in order. -/
def acks (h : List Output) : List (FrameTag × FrameAck) :=
  h.filterMap fun
    | .ack tag ack => some (tag, ack)
    | _ => none

/-- The answers to one frame. -/
def acksFor (tag : FrameTag) (h : List Output) : List FrameAck :=
  ((acks h).filter fun a => a.1 = tag).map Prod.snd

/-- The frames of camera `c` that were answered with `ack`, in order. -/
def ackedOf (c : JsString) (ack : FrameAck) (h : List Output) : List FrameTag :=
  ((acks h).filter fun a => a.1.cameraId = some c && a.2 = ack).map Prod.fst

/-- The frames broadcast for camera `c`, in order. -/
def broadcastsOf (c : JsString) (h : List Output) : List FrameTag :=
  h.filterMap fun
    | .viewerFrame tag _ frame => if frame.cameraId = c then some tag else none
    | _ => none

@[simp] theorem arrivals_append (h h' : List Output) :
    arrivals (h ++ h') = arrivals h ++ arrivals h' :=
  List.filterMap_append

@[simp] theorem arrivedOf_append (c : JsString) (h h' : List Output) :
    arrivedOf c (h ++ h') = arrivedOf c h ++ arrivedOf c h' := by
  simp [arrivedOf]

@[simp] theorem acks_append (h h' : List Output) : acks (h ++ h') = acks h ++ acks h' :=
  List.filterMap_append

@[simp] theorem ackedOf_append (c : JsString) (ack : FrameAck) (h h' : List Output) :
    ackedOf c ack (h ++ h') = ackedOf c ack h ++ ackedOf c ack h' := by
  simp [ackedOf]

@[simp] theorem broadcastsOf_append (c : JsString) (h h' : List Output) :
    broadcastsOf c (h ++ h') = broadcastsOf c h ++ broadcastsOf c h' :=
  List.filterMap_append

theorem mem_acks {tag : FrameTag} {ack : FrameAck} {h : List Output} :
    (tag, ack) ∈ acks h ↔ .ack tag ack ∈ h := by
  rw [acks, List.mem_filterMap]
  refine ⟨?_, ?_⟩
  · rintro ⟨o, hmem, ho⟩
    cases o <;> cases ho
    exact hmem
  · exact fun hmem => ⟨_, hmem, rfl⟩

theorem length_acksFor (tag : FrameTag) (h : List Output) :
    (acksFor tag h).length = ((acks h).map Prod.fst).count tag := by
  rw [acksFor, List.length_map, List.count, List.countP_map, List.countP_eq_length_filter]
  rfl

/-! ## Outputs of the gateway against outputs of the service -/

/-- Per camera, the answers and broadcasts mirror what the service did. -/
structure Matched (h : List Output) : Prop where
  broadcast : ∀ c, broadcastsOf c h = succeededOf c (serviceOutputs h)
  accepted : ∀ c, ackedOf c .accepted h = succeededOf c (serviceOutputs h)
  backpressure : ∀ c,
    ackedOf c (.rejected .backpressure) h = droppedOf c (serviceOutputs h)
  started : ∀ c, (startedOf c (serviceOutputs h)).Sublist (arrivedOf c h)
  announced : ∀ tag, .ack tag .accepted ∈ h ↔
    ∃ recipients frame, .viewerFrame tag recipients frame ∈ h

theorem matched_nil : Matched [] :=
  ⟨fun _ => rfl, fun _ => rfl, fun _ => rfl, fun _ => List.nil_sublist _, by simp⟩

theorem Matched.append {h h' : List Output} (hm : Matched h) (hm' : Matched h') :
    Matched (h ++ h') where
  broadcast c := by
    simp only [broadcastsOf_append, serviceOutputs_append, CameraService.succeededOf_append,
      hm.broadcast, hm'.broadcast]
  accepted c := by
    simp only [ackedOf_append, serviceOutputs_append, CameraService.succeededOf_append,
      hm.accepted, hm'.accepted]
  backpressure c := by
    simp only [ackedOf_append, serviceOutputs_append, CameraService.droppedOf_append,
      hm.backpressure, hm'.backpressure]
  started c := by
    rw [serviceOutputs_append, CameraService.startedOf_append, arrivedOf_append]
    exact (hm.started c).append (hm'.started c)
  announced tag := by
    simp only [List.mem_append, hm.announced, hm'.announced, exists_or]

/-- Outputs that concern neither answers, nor broadcasts, nor the service. -/
theorem matched_of_silent {h : List Output} (hacks : acks h = [])
    (hservice : serviceOutputs h = []) (hbroadcast : ∀ c, broadcastsOf c h = [])
    (hnone : ∀ tag recipients frame, .viewerFrame tag recipients frame ∉ h) : Matched h where
  broadcast c := by rw [hbroadcast, hservice]; rfl
  accepted c := by rw [ackedOf, hacks, hservice]; rfl
  backpressure c := by rw [ackedOf, hacks, hservice]; rfl
  started c := by rw [hservice]; exact List.nil_sublist _
  announced tag := by
    rw [← mem_acks, hacks]
    simp [hnone]

/-- The outputs of one event match. -/
theorem matched_step (hok : Ok env g) (h : Step env g e g' out) : Matched out := by
  cases h with
  | camera | viewer | refused | threw | cameraLeft =>
      exact matched_of_silent rfl rfl (fun _ => rfl)
        (by simp [admitCamera, admitViewer, disconnectClient])
  | otherLeft => exact matched_nil
  | frameRejected client socket _ _ _ reason _ _ hreason =>
      refine ⟨fun c => rfl, ?_, ?_, fun c => List.nil_sublist _, by simp⟩
      · intro c
        simp [ackedOf, acks, serviceOutputs]
      · intro c
        simp [ackedOf, acks, serviceOutputs, droppedOf, hreason]
  | frameRefused client socket c _ _ _ _ _ _ _ hcamera =>
      -- the tag has the camera id that the service is called with
      have hid := (asCamera_eq_some hcamera).2
      refine ⟨fun k => rfl, ?_, ?_, fun k => List.nil_sublist _, by simp⟩
      · intro k
        simp [ackedOf, acks, serviceOutputs]
      · intro k
        by_cases hk : c = k <;> simp [ackedOf, acks, serviceOutputs, nextTag, hid, hk]
  | frameStarted client socket c _ _ _ _ _ _ _ hcamera =>
      have hid := (asCamera_eq_some hcamera).2
      refine ⟨fun k => rfl, fun k => rfl, fun k => rfl, fun k => ?_, by simp⟩
      by_cases hk : c = k <;> simp [arrivedOf, arrivals, serviceOutputs, nextTag, hid, hk]
  | processed tag call reply now frame hcall hsucc hframe =>
      obtain ⟨hmem, rfl⟩ := CameraService.findCall_eq_some hcall
      obtain ⟨htag, hform⟩ := hok.tagged call hmem
      -- answer, broadcast and settlement all name the camera of the call
      rw [hform] at hframe
      refine ⟨?_, ?_, ?_, fun k => List.nil_sublist _, by simp⟩
      · intro k
        by_cases hk : call.cameraId = k <;> simp [broadcastsOf, serviceOutputs, hframe, hk]
      · intro k
        by_cases hk : call.cameraId = k <;> simp [ackedOf, acks, serviceOutputs, htag, hk]
      · intro k
        simp [ackedOf, acks, serviceOutputs]
  | failed tag call reply now hcall hfail =>
      refine ⟨?_, ?_, ?_, fun k => List.nil_sublist _, by simp⟩
      · intro k
        simp [broadcastsOf, serviceOutputs]
      · intro k
        simp [ackedOf, acks, serviceOutputs]
      · intro k
        simp [ackedOf, acks, serviceOutputs]

theorem matched_run (hrun : (machine env).exec (.start {}) es = some cfg) :
    Matched cfg.history := by
  refine (exec_invariant (I := fun c => Ok env c.state ∧ Matched c.history)
    (fun c e c' h hnext => ?_) ⟨ok_empty, matched_nil⟩ hrun).2
  obtain ⟨out, hstep, hhist⟩ := next_step hnext
  refine ⟨ok_step h.1 hstep, ?_⟩
  rw [hhist]
  exact h.2.append (matched_step h.1 hstep)

/-- The timestamp of a payload, if there is one, is a JSON number or string. -/
def PlainTimestamp : Event → Prop
  | .frame _ (some payload) _ _ =>
      payload.timestamp = none ∨ (∃ n, payload.timestamp = some (.num n)) ∨
        ∃ s, payload.timestamp = some (.str s)
  | _ => True

theorem PlainTimestamp.converts {client : SocketId} {payload : IncomingFrame} {dateNow now : Int}
    {nesting : Nat} (h : PlainTimestamp (.frame client (some payload) dateNow now)) :
    propertyToNumber payload.timestamp nesting ≠ none := by
  obtain hnone | ⟨n, hnum⟩ | ⟨s, hstr⟩ := h
  · rw [hnone]
    simp [propertyToNumber]
  · rw [hnum]
    simp [propertyToNumber, Json.toNumber]
  · rw [hstr]
    simp [propertyToNumber, Json.toNumber]

/-- The frames whose vision call has not settled. -/
def waiting (g : CameraGateway) : List FrameTag := g.cameras.calls.map (·.caller)

/-- Conservation of answers, and the numbering that keeps tags apart. -/
structure Answered (cfg : Config CameraGateway Output) : Prop where
  perm : (arrivals cfg.history).Perm ((acks cfg.history).map Prod.fst ++ waiting cfg.state)
  nodup : (arrivals cfg.history).Nodup
  numbered : ∀ tag ∈ arrivals cfg.history, tag.number < cfg.state.frames

/-- What one event does to the three lists: nothing, one frame that is answered at
    once, one frame that waits, or the answer to a frame that waited. -/
theorem answered_cases (h : Step env g e g' out) :
    (arrivals out = [] ∧ acks out = [] ∧ waiting g' = waiting g ∧ g'.frames = g.frames) ∨
    (∃ tag ack, tag.number = g.frames ∧ g'.frames = g.frames + 1 ∧ arrivals out = [tag] ∧
      acks out = [(tag, ack)] ∧ waiting g' = waiting g) ∨
    (∃ tag, tag.number = g.frames ∧ g'.frames = g.frames + 1 ∧ arrivals out = [tag] ∧
      acks out = [] ∧ waiting g' = waiting g ++ [tag]) ∨
    (∃ tag ack, tag ∈ waiting g ∧ g'.frames = g.frames ∧ arrivals out = [] ∧
      acks out = [(tag, ack)] ∧ waiting g' = (waiting g).filter (· ≠ tag)) := by
  cases h with
  | camera | viewer | refused | threw | otherLeft => exact .inl ⟨rfl, rfl, rfl, rfl⟩
  | cameraLeft => exact .inl ⟨rfl, rfl, by simp [waiting], rfl⟩
  | frameRejected client socket =>
      exact .inr (.inl ⟨g.nextTag client socket, _, rfl, rfl, rfl, rfl, rfl⟩)
  | frameRefused client socket c payload frame timestamp dateNow now _ _ _ hgate =>
      refine .inr (.inl ⟨g.nextTag client socket, _, rfl, rfl, rfl, rfl, ?_⟩)
      simp [waiting, CameraService.acceptFrame_refused hgate, CameraService.counted_calls]
  | frameStarted client socket c payload frame timestamp dateNow now _ _ _ hgate =>
      refine .inr (.inr (.inl ⟨g.nextTag client socket, rfl, rfl, rfl, rfl, ?_⟩))
      simp [waiting, CameraService.acceptFrame_started hgate, CameraService.newCall]
  | processed tag call reply now frame hcall | failed tag call reply now hcall =>
      -- either way the call is over, and its frame is answered
      obtain ⟨hmem, rfl⟩ := CameraService.findCall_eq_some hcall
      refine .inr (.inr (.inr
        ⟨call.caller, _, List.mem_map_of_mem hmem, rfl, rfl, rfl, ?_⟩))
      rw [waiting, waiting, CameraService.resume_calls, List.filter_map]
      rfl

/-- A frame that carries the next number has not arrived before. -/
theorem Answered.nodup_arrival (h : Answered cfg) {tag : FrameTag}
    (htag : tag.number = cfg.state.frames) : (arrivals cfg.history ++ [tag]).Nodup := by
  have hfresh : tag ∉ arrivals cfg.history := by
    intro hmem
    have hlt := h.numbered tag hmem
    omega
  have hdisjoint : List.Disjoint (arrivals cfg.history) [tag] := by
    simpa [List.disjoint_singleton] using hfresh
  exact List.nodup_append'.mpr ⟨h.nodup, List.nodup_singleton tag, hdisjoint⟩

theorem Answered.numbered_arrival (h : Answered cfg) {tag : FrameTag}
    (htag : tag.number = cfg.state.frames) :
    ∀ t ∈ arrivals cfg.history ++ [tag], t.number < cfg.state.frames + 1 := by
  intro t ht
  rcases List.mem_append.mp ht with hold | hnew
  · exact Nat.lt_succ_of_lt (h.numbered t hold)
  · rw [List.mem_singleton.mp hnew, htag]
    exact Nat.lt_succ_self _

theorem answered_next (hok : Ok env cfg.state) (h : Answered cfg)
    (hnext : (machine env).next cfg e = some cfg') : Answered cfg' := by
  obtain ⟨out, hstep, hhist⟩ := next_step hnext
  obtain ⟨harr, hack, hwait, hframes⟩ | ⟨tag, ack, htag, hframes, harr, hack, hwait⟩ |
    ⟨tag, htag, hframes, harr, hack, hwait⟩ | ⟨tag, ack, hmem, hframes, harr, hack, hwait⟩ :=
    answered_cases hstep
  · -- no frame is concerned
    refine ⟨?_, ?_, ?_⟩ <;>
      simp only [hhist, arrivals_append, acks_append, harr, hack, hwait, hframes,
        List.append_nil]
    · exact h.perm
    · exact h.nodup
    · exact h.numbered
  · -- a frame arrives and is answered at once
    refine ⟨?_, ?_, ?_⟩ <;>
      simp only [hhist, arrivals_append, acks_append, harr, hack, hwait, hframes,
        List.map_append, List.map_cons, List.map_nil]
    · refine (List.perm_append_singleton tag _).trans ((h.perm.cons tag).trans ?_)
      rw [List.append_assoc]
      exact List.perm_middle.symm
    · exact h.nodup_arrival htag
    · exact h.numbered_arrival htag
  · refine ⟨?_, ?_, ?_⟩ <;>
      simp only [hhist, arrivals_append, acks_append, harr, hack, hwait, hframes,
        List.append_nil]
    · -- a frame arrives and waits
      rw [← List.append_assoc]
      exact h.perm.append_right [tag]
    · exact h.nodup_arrival htag
    · exact h.numbered_arrival htag
  · refine ⟨?_, ?_, ?_⟩ <;>
      simp only [hhist, arrivals_append, acks_append, harr, hack, hwait, hframes,
        List.map_append, List.map_cons, List.map_nil, List.append_nil]
    · -- the answered frame moves from the waiting ones to the answered ones
      have hwaiting : (waiting cfg.state).Perm
          (tag :: (waiting cfg.state).filter (· ≠ tag)) := by
        have herase := (hok.cameras.callers.erase_eq_filter tag)
        have hperm := List.perm_cons_erase hmem
        rw [waiting] at hperm ⊢
        rw [herase] at hperm
        simpa only [bne, beq_eq_decide, ne_eq, decide_not] using hperm
      refine h.perm.trans ((hwaiting.append_left _).trans ?_)
      rw [List.append_assoc]
      rfl
    · exact h.nodup
    · exact h.numbered

theorem answered_run (hrun : (machine env).exec (.start {}) es = some cfg) : Answered cfg := by
  have hstart : Answered (.start {}) := ⟨List.Perm.refl _, List.nodup_nil, by simp [arrivals]⟩
  exact (exec_invariant (I := fun c => Ok env c.state ∧ Answered c)
    (fun _ _ _ h hnext => ⟨ok_next h.1 hnext, answered_next h.1 h.2 hnext⟩)
    ⟨ok_empty, hstart⟩ hrun).2

/-! ## Accounting -/

theorem Answered.count (h : Answered cfg) (tag : FrameTag) :
    (acksFor tag cfg.history).length + (waiting cfg.state).count tag =
      (arrivals cfg.history).count tag := by
  rw [h.perm.count_eq, List.count_append, length_acksFor]

/-- A list without repetitions, restricted to the members of a sublist, is the sublist. -/
theorem filter_mem_of_sublist {α : Type*} [DecidableEq α] {l m : List α} (h : l.Sublist m)
    (hm : m.Nodup) : m.filter (· ∈ l) = l := by
  have hsub : l.Sublist (m.filter (· ∈ l)) := by
    have hfilter := h.filter (fun x => decide (x ∈ l))
    rwa [List.filter_eq_self.mpr fun x hx => by simpa using hx] at hfilter
  have hmem : m.filter (· ∈ l) ⊆ l := fun x hx => by simpa using (List.mem_filter.mp hx).2
  have hle := (List.subperm_of_subset (hm.filter _) hmem).length_le
  exact (hsub.eq_of_length_le hle).symm

end CameraStream.Server.CameraGateway
