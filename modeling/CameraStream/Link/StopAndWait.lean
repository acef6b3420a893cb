/-
  CameraStream.Link.StopAndWait

  `SocketIoClient::send_frame` returns when the ACK has come, and `Application::run` calls it
  for one frame after the other.  So the frames of a connection alternate with their ACKs at
  the gateway, too: while an invocation of `onFrame` waits for the vision service, nothing
  has been written behind its frame.
-/

import CameraStream.Link.AckProgress

namespace CameraStream.Link.FrameSystem

open Client Server EventMachine

variable {J : AckJson} {env : Env} {config : Client.Config} {es : List Event}
  {cfg : EventMachine.Config FrameSystem Output}

/-- Only the last descriptor of a connection can be waiting for its answer. -/
theorem acked_of_followed
    (hrun : (machine J env).exec (.start (initial config)) es = some cfg) {ev : FrameEvent}
    (hev : ev ∈ cfg.state.events)
    (hfollowed : ev.number + 1 < (cfg.state.camera.connections ev.stream).descriptors.length) :
    ∃ a, (ev.tag, a) ∈ CameraGateway.acks (gatewayOutputs cfg.history) := by
  have hlinked := (flowing_run hrun).good.linked
  obtain ⟨fs, hfs⟩ := client_run hrun
  have hanswered := AckSystem.alternating_run hfs ev.stream ev.number hfollowed
  obtain ⟨⟨n, arguments⟩, hmem, hn⟩ := List.mem_map.mp hanswered
  obtain rfl : n = ev.number := hn
  obtain ⟨ev', hev', hstream, hnumber, a, hack, -⟩ := hlinked.answered _ _ arguments hmem
  obtain rfl := hlinked.numbers ev' hev' ev hev hstream hnumber
  exact ⟨a, hack⟩

/-- **One frame at a time.** In every run, each frame that has reached `onFrame` has been
    answered by it, or it waits for the vision service and is the last one that the client
    has written to this connection. -/
theorem one_frame_at_a_time
    (hrun : (machine J env).exec (.start (initial config)) es = some cfg) {k n : Nat}
    {frame : Frame} {tag : FrameTag} (hdelivered : .delivered k n frame tag ∈ cfg.history) :
    (∃ a, .gateway (.ack tag a) ∈ cfg.history) ∨
      tag ∈ CameraGateway.waiting cfg.state.gateway ∧
        (cfg.state.camera.connections k).descriptors.length = n + 1 := by
  have hflow := flowing_run hrun
  have hlinked := hflow.good.linked
  have hmem := mem_deliveries.mpr hdelivered
  rw [← hflow.good.delivered] at hmem
  obtain ⟨ev, hev, heq⟩ := List.mem_map.mp hmem
  obtain ⟨rfl, rfl, rfl, rfl⟩ :
      ev.stream = k ∧ ev.number = n ∧ ev.frame = frame ∧ ev.tag = tag := by
    simpa [FrameEvent.delivery] using heq
  obtain ⟨gs, hgs⟩ := hlinked.run
  have hanswered := CameraGateway.answered_run hgs
  have harrived := hanswered.perm.mem_iff.mp (hlinked.arrived ev hev)
  rcases List.mem_append.mp harrived with hacked | hwaits
  · obtain ⟨⟨tag, a⟩, hack, rfl⟩ := List.mem_map.mp hacked
    exact .inl ⟨a, mem_gatewayOutputs.mp (CameraGateway.mem_acks.mp hack)⟩
  · by_cases hfollowed :
        ev.number + 1 < (cfg.state.camera.connections ev.stream).descriptors.length
    · obtain ⟨a, hack⟩ := acked_of_followed hrun hev hfollowed
      exact .inl ⟨a, mem_gatewayOutputs.mp (CameraGateway.mem_acks.mp hack)⟩
    · have hwritten := (List.getElem?_eq_some_iff.mp (hlinked.descriptor ev hev)).1
      exact .inr ⟨hwaits, by omega⟩

/-- Before the vision service has answered, the one frame waits. -/
theorem oneFrame_at_a_time : ∃ cfg tag,
    (machine sampleJson CameraSystem.keyEnv).exec (.start (initial keyConfig)) (oneFrame.take 17) =
      some cfg ∧ .delivered 1 0 keyFrame tag ∈ cfg.history ∧
      ((∃ a, .gateway (.ack tag a) ∈ cfg.history) ∨
        tag ∈ CameraGateway.waiting cfg.state.gateway ∧
          (cfg.state.camera.connections 1).descriptors.length = 0 + 1) := by
  have hany : ((machine sampleJson CameraSystem.keyEnv).exec (.start (initial keyConfig))
      (oneFrame.take 17)).any (fun cfg => (deliveries cfg.history).any fun d =>
        decide (d.1 = 1 ∧ d.2.1 = 0 ∧ d.2.2.1 = keyFrame)) = true := by
    decide +kernel
  obtain ⟨cfg, hrun, hdelivers⟩ := (Option.any_eq_true _ _).mp hany
  obtain ⟨⟨k, n, frame, tag⟩, hmem, hkey⟩ := List.any_eq_true.mp hdelivers
  obtain ⟨rfl, rfl, rfl⟩ := of_decide_eq_true hkey
  have hdelivered := mem_deliveries.mp hmem
  exact ⟨cfg, tag, hrun, hdelivered, one_frame_at_a_time hrun hdelivered⟩

end CameraStream.Link.FrameSystem
