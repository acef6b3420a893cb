/-
  CameraStream.Link.PictureProgress

  Nothing gets stuck between the camera client, the gateway and app.py.

  A request is on its way to app.py, or waits there for its file, or its answer is on its way
  back (`underway`).

    * `one_request_underway` — while `onFrame` waits for the vision service, exactly one of
                               these holds, and for one request;
    * `every_ack_can_come`   — while `send_frame` waits for an ACK, the others can bring it,
                               without any failure and in a bounded number of steps.

  For the second, `drains` lets the server read what is there, and `underway_settles` moves a
  request from place to place until its call settles.  `Works` counts the steps.
-/

import CameraStream.Link.PictureDelivery

namespace CameraStream.Link

open Client Server Js EventMachine
open Server.CameraGateway (asks acks Asked)

/-! ## Packets that the server has not read -/

namespace FrameSystem

variable {J : AckJson} {env : Env} {s s' : FrameSystem} {k : Nat} {packet : Packet}
  {rest : List Packet}

theorem streams_withGateway (J : AckJson) (s : FrameSystem)
    (r : CameraGateway × List CameraGateway.Output) :
    (s.withGateway J r).1.streams = s.streams := by
  rw [withGateway, acknowledge]
  split
  · rfl
  · split
    · rfl
    · split <;> rfl

theorem descriptors_putAck (s : FrameSystem) (ev : FrameEvent) (arguments : Bytes) (k : Nat) :
    ((s.putAck ev arguments).camera.connections k).descriptors =
      (s.camera.connections k).descriptors := by
  by_cases hk : k = ev.stream
  · subst hk
    rw [putAck, setConnection_connections]
  · rw [putAck, setConnection_other s _ _ hk]

theorem descriptors_withGateway (J : AckJson) (s : FrameSystem)
    (r : CameraGateway × List CameraGateway.Output) (k : Nat) :
    ((s.withGateway J r).1.camera.connections k).descriptors =
      (s.camera.connections k).descriptors := by
  rw [withGateway, acknowledge]
  split
  · rfl
  · split
    · rfl
    · split
      · rfl
      · exact descriptors_putAck { s with gateway := r.1 } _ _ k

/-- An answer of the gateway does not change what the client has sent. -/
theorem Started.withGateway {frame : Frame} {ackId : UInt64} {ev : FrameEvent}
    (h : Started s frame ackId ev) (J : AckJson) (r : CameraGateway × List CameraGateway.Output) :
    Started (s.withGateway J r).1 frame ackId ev := by
  have heases := eases_withGateway J s r
  refine ⟨?_, ?_, ?_, h.frame, h.ackId⟩
  · rw [heases.events]
    exact h.event
  · rw [heases.opened]
    exact h.stream
  · rw [AckSystem.current, heases.opened, descriptors_withGateway]
    exact h.last

/-- What the server's reading of a packet does to the client and the queue. -/
structure Drained (s s' : FrameSystem) (k : Nat) (rest : List Packet) : Prop where
  client : s'.camera.client = s.camera.client
  opened : s'.camera.opened = s.camera.opened
  queue : (s'.streams k).closed = true ∨ (s'.streams k).toServer = rest

theorem drained_of_eases (h : Eases s s') (hqueue : (s.streams k).toServer = rest) :
    Drained s s' k rest := by
  refine ⟨h.client, h.opened, ?_⟩
  cases hclosed : (s'.streams k).closed with
  | true => exact .inl rfl
  | false => exact .inr ((h.streams k hclosed).2.1.trans hqueue)

theorem drained_close (J : AckJson) (env : Env) (s : FrameSystem) (k : Nat) (rest : List Packet) :
    Drained s (s.close J env k).1 k rest := by
  simp only [close]
  split
  · next r hstep =>
      have heases := eases_withGateway J (s.setStream k { s.streams k with closed := true }) r
      refine ⟨heases.client, heases.opened, .inl ?_⟩
      rw [streams_withGateway, setStream_streams]
  · refine ⟨rfl, rfl, .inl ?_⟩
    rw [setStream_streams]

theorem drained_onAttachment (J : AckJson) (env : Env) (hqueue : (s.streams k).toServer = rest)
    (attachment : Frame) (dateNow now : Int) :
    Drained s (s.onAttachment J env k attachment dateNow now).1 k rest := by
  simp only [onAttachment]
  split
  · split
    · next frame ackId sid hhalf hsid _ _ socket r hsocket hstep =>
        have hdrained : Drained _ _ k rest := drained_of_eases (eases_withGateway J
          ((s.setStream k { s.streams k with descriptor := none }).record
            ⟨s.gateway.nextTag sid socket, k, (s.camera.connections k).received - 1, frame,
              ackId⟩) r) (by rw [record_streams, setStream_streams]; exact hqueue)
        exact ⟨hdrained.client, hdrained.opened, hdrained.queue⟩
    · exact drained_close J env s k rest
  · exact drained_close J env s k rest

/-- The server can read the next packet. -/
theorem serve_enabled (J : AckJson) (env : Env) (hk : k ≤ s.camera.opened)
    (hopen : (s.streams k).closed = false) (hfirst : (s.streams k).toServer = packet :: rest)
    (session : Bytes) (dateNow now : Int) :
    ∃ r, s.step J env (.serve k session dateNow now) = some r ∧ Drained s r.1 k rest := by
  let t := s.setStream k { s.streams k with toServer := rest }
  have hqueue : (t.streams k).toServer = rest := by rw [setStream_streams]
  have hstep : s.step J env (.serve k session dateNow now) =
      some (t.onPacket J env k session dateNow now packet) := by
    rw [step, if_pos ⟨hk, hopen⟩, hfirst]
  refine ⟨_, hstep, ?_⟩
  have hdrained : Drained t (t.onPacket J env k session dateNow now packet).1 k rest := by
    cases packet with
    | pong => exact ⟨rfl, rfl, .inr hqueue⟩
    | connect auth =>
        simp only [onPacket]
        split
        · refine drained_of_eases (eases_onConnect ?_ J env auth session) hqueue
          rw [setStream_streams]
          exact hopen
        · exact drained_close J env t k rest
    | descriptor frame ackId =>
        refine ⟨rfl, rfl, .inr ?_⟩
        simp only [onPacket, setStream_streams]
        exact hqueue
    | attachment frame => exact drained_onAttachment J env hqueue frame dateNow now
    | leave => exact drained_close J env t k rest
  exact ⟨hdrained.client, hdrained.opened, hdrained.queue⟩

end FrameSystem

namespace PictureSystem

variable {α κ : Type} {J : AckJson} {env : Env} {fields : FormFields} {cv : Vision.OpenCv α κ}
  {s : PictureSystem α} {c c' cfg : EventMachine.Config (PictureSystem α) Output}
  {config : Client.Config} {es : List Event}

/-! ## Where a request is -/

/-- The requests that have not been answered to `fetch`. -/
def underway (s : PictureSystem α) : List Request :=
  s.requests ++ s.reading ++ s.answers.map Prod.fst

/-- Every suspended call has its request under way, and no request is there twice. -/
structure Underway (s : PictureSystem α) : Prop where
  calls : ∀ call ∈ s.frames.gateway.cameras.calls, (call.caller, call.form) ∈ s.underway
  once : s.underway.Nodup

theorem perm_eraseIdx {β : Type*} {l : List β} {index : Nat} {x : β} (h : l[index]? = some x) :
    l.Perm (x :: l.eraseIdx index) := by
  obtain ⟨hlt, rfl⟩ := List.getElem?_eq_some_iff.mp h
  exact (List.getElem_cons_eraseIdx_perm hlt).symm

/-- A request has moved on. -/
theorem Underway.perm (h : Underway s) {s' : PictureSystem α} (hframes : s'.frames = s.frames)
    (hperm : s.underway.Perm s'.underway) : Underway s' := by
  refine ⟨fun call hcall => ?_, hperm.nodup_iff.mp h.once⟩
  rw [hframes] at hcall
  exact hperm.mem_iff.mp (h.calls call hcall)

theorem perm_answers {index : Nat} {q : Request} (hq : s.requests[index]? = some q)
    (reply : VisionReply) :
    s.underway.Perm { s with
      requests := s.requests.eraseIdx index
      answers := s.answers ++ [(q, reply)] : PictureSystem α }.underway := by
  have hperm := perm_eraseIdx hq
  simp only [underway, List.map_append, List.map_cons, List.map_nil, ← List.append_assoc]
  refine List.Perm.trans ?_ (List.perm_append_singleton q _).symm
  exact (hperm.append_right _).append_right _

theorem perm_reading {index : Nat} {q : Request} (hq : s.requests[index]? = some q) :
    s.underway.Perm { s with
      requests := s.requests.eraseIdx index
      reading := s.reading ++ [q] : PictureSystem α }.underway := by
  have hperm := perm_eraseIdx hq
  simp only [underway, ← List.append_assoc]
  refine List.Perm.append_right _ ?_
  exact (hperm.append_right _).trans (List.perm_append_singleton q _).symm

theorem perm_read {index : Nat} {q : Request} (hq : s.reading[index]? = some q)
    (reply : VisionReply) :
    s.underway.Perm { s with
      reading := s.reading.eraseIdx index
      answers := s.answers ++ [(q, reply)] : PictureSystem α }.underway := by
  have hperm := perm_eraseIdx hq
  simp only [underway, List.map_append, List.map_cons, List.map_nil, ← List.append_assoc]
  refine List.Perm.trans ?_ (List.perm_append_singleton q _).symm
  refine ((hperm.append_left s.requests).append_right _).trans ?_
  exact List.perm_middle.append_right _

/-- The answer at a place leaves. -/
theorem perm_erased {index : Nat} {a : Request × VisionReply} (ha : s.answers[index]? = some a) :
    s.underway.Perm (a.1 ::
      { s with answers := s.answers.eraseIdx index : PictureSystem α }.underway) := by
  have hperm := (perm_eraseIdx ha).map Prod.fst
  simp only [underway]
  exact (hperm.append_left _).trans List.perm_middle

/-! ### Steps -/

section Moves

variable {t t' : FrameSystem} {e : FrameSystem.Event} {out : List FrameSystem.Output}

/-- A step of the gateway does not ask twice, and asks for its new calls. -/
theorem move_calls (hok : CameraGateway.Ok env t.gateway)
    (hmove : FrameSystem.GatewayMove env t t' e out) :
    (asks t'.gateway (FrameSystem.gatewayOutputs out)).Nodup ∧
      ∀ call ∈ t'.gateway.cameras.calls, call ∈ t.gateway.cameras.calls ∨
        (call.caller, call.form) ∈ asks t'.gateway (FrameSystem.gatewayOutputs out) := by
  have hstep : ∀ {event : CameraGateway.Event},
      t.gateway.step env event = some (t'.gateway, FrameSystem.gatewayOutputs out) →
      (asks t'.gateway (FrameSystem.gatewayOutputs out)).Nodup ∧
        ∀ call ∈ t'.gateway.cameras.calls, call ∈ t.gateway.cameras.calls ∨
          (call.caller, call.form) ∈ asks t'.gateway (FrameSystem.gatewayOutputs out) := by
    intro event hstep
    rcases CameraGateway.asks_step hok hstep with ⟨hnone, hcalls⟩ | ⟨tag, form, -, hone, hcalls⟩
    · rw [hnone]
      exact ⟨List.nodup_nil, fun call hcall => .inl (hcalls call hcall)⟩
    · rw [hone]
      refine ⟨List.nodup_singleton _, fun call hcall => (hcalls call hcall).imp_right ?_⟩
      rintro ⟨rfl, rfl⟩
      exact List.mem_cons_self
  cases hmove with
  | still hgateway hout =>
      rw [hgateway, hout]
      exact ⟨List.nodup_nil, fun call hcall => .inl hcall⟩
  | event event hevent => exact hstep hevent
  | frame k n sid socket frame dateNow now hsocket hframe => exact hstep hframe

end Moves

/-- The frames take a step; `s` may have lost the answer that the step has used up. -/
theorem Underway.afterFrames (hc : Tracked J env fields cv c) {e : FrameSystem.Event}
    {r : FrameSystem × List FrameSystem.Output} (hstep : c.state.frames.step J env e = some r)
    (honce : s.underway.Nodup) (hasked : ∀ q ∈ s.underway, q ∈ askedOf c.history)
    (hcalls : ∀ call ∈ c.state.frames.gateway.cameras.calls,
      call ∈ r.1.gateway.cameras.calls → (call.caller, call.form) ∈ s.underway) :
    Underway (s.afterFrames r).1 := by
  have hmove := FrameSystem.gateway_move hc.flowing.inOrder hstep
  obtain ⟨hnodup, hnew⟩ := move_calls hc.gateway_ok hmove
  obtain ⟨-, hform⟩ := move_asks hc.gateway_ok hmove
  have hperm : (s.underway ++ asks r.1.gateway (FrameSystem.gatewayOutputs r.2)).Perm
      (s.afterFrames r).1.underway := by
    have heq : (s.afterFrames r).1.underway = (s.requests ++
        asks r.1.gateway (FrameSystem.gatewayOutputs r.2)) ++ s.reading ++
          s.answers.map Prod.fst := rfl
    rw [heq, underway]
    simp only [List.append_assoc]
    refine List.Perm.append_left _ ?_
    rw [← List.append_assoc]
    exact List.perm_append_comm
  refine ⟨fun call hcall => hperm.mem_iff.mp ?_, hperm.nodup_iff.mp ?_⟩
  · rcases hnew call hcall with hold | hask
    · exact List.mem_append_left _ (hcalls call hold hcall)
    · exact List.mem_append_right _ hask
  · refine List.nodup_append'.mpr ⟨honce, hnodup, fun q hq hask => ?_⟩
    -- what is asked now has a new number
    obtain ⟨⟨event, hasks⟩, -⟩ := hform q hask
    have hlt := hc.asked.numbered q (hasked q hq)
    rw [hasks.number] at hlt
    exact Nat.lt_irrefl _ hlt

theorem Pending.underway {asked : List Request} (hp : Pending fields cv s asked) :
    ∀ q ∈ s.underway, q ∈ asked := by
  intro q hq
  rcases List.mem_append.mp hq with hq | hq
  · rcases List.mem_append.mp hq with hq | hq
    · exact hp.requests q hq
    · exact hp.reading q hq
  · obtain ⟨a, ha, rfl⟩ := List.mem_map.mp hq
    exact (hp.answers a ha).1

/-- A suspended call can be settled. -/
theorem settle_enabled (J : AckJson) (env : Env) {t : FrameSystem} {call : Call FrameTag}
    (hcall : call ∈ t.gateway.cameras.calls) (reply : VisionReply) (now : Int) :
    ∃ call' ∈ t.gateway.cameras.calls, call'.caller = call.caller ∧
      t.step J env (.gateway (.settle call.caller reply now)) =
        some (t.withGateway J (t.gateway.onSettled call' reply now)) := by
  cases hfind : t.gateway.cameras.findCall call.caller with
  | none => exact absurd (List.mem_map_of_mem hcall) (CameraService.findCall_eq_none.mp hfind)
  | some call' =>
      obtain ⟨hmem, hcaller⟩ := CameraService.findCall_eq_some hfind
      refine ⟨call', hmem, hcaller, ?_⟩
      simp [FrameSystem.step, FrameSystem.admissible, CameraGateway.step, hfind]

/-- What has been settled waits no more. -/
theorem settle_calls {t : FrameSystem} {tag : FrameTag} {reply : VisionReply} {now : Int}
    {r : FrameSystem × List FrameSystem.Output}
    (hstep : t.step J env (.gateway (.settle tag reply now)) = some r) :
    ∀ call ∈ r.1.gateway.cameras.calls, call.caller ≠ tag := by
  intro call hcall htag
  cases hfind : t.gateway.cameras.findCall tag with
  | none => simp [FrameSystem.step, FrameSystem.admissible, CameraGateway.step, hfind] at hstep
  | some call' =>
      obtain ⟨-, rfl⟩ := CameraService.findCall_eq_some hfind
      simp only [FrameSystem.step, FrameSystem.admissible, CameraGateway.step, hfind, if_true,
        Option.map_some, Option.some.injEq] at hstep
      subst hstep
      rw [(FrameSystem.gateway_withGateway J t _).1] at hcall
      have hcalls : (t.gateway.onSettled call' reply now).1.cameras.calls =
          (t.gateway.cameras.resume call' reply now).1.calls := by
        simp only [CameraGateway.onSettled]
        split <;> rfl
      rw [hcalls, CameraService.resume_calls] at hcall
      exact of_decide_eq_true (List.mem_filter.mp hcall).2 htag

theorem underway_next {e : Event} (hc : Tracked J env fields cv c) (hu : Underway c.state)
    (hnext : (machine J env fields cv).next c e = some c') : Underway c'.state := by
  obtain ⟨out, hstep, -⟩ := next_eq_some hnext
  generalize hr : (c'.state, out) = r at hstep
  have hstate : c'.state = r.1 := congrArg Prod.fst hr
  rw [hstate]
  have hp := hc.pending.underway
  cases step_cases hstep with
  | frames event r he hframes =>
      exact Underway.afterFrames hc hframes hu.once hp fun call hcall _ => hu.calls call hcall
  | givesUp tag now r hframes =>
      exact Underway.afterFrames hc hframes hu.once hp fun call hcall _ => hu.calls call hcall
  | invalid index q hq => exact hu.perm rfl (perm_answers hq _)
  | arrives index q form r hq hreceive hvision =>
      cases Vision.step_cases hvision with
      | waits form hmode =>
          have hperm := perm_reading hq
          exact hu.perm rfl (by simpa [underway, afterVision] using hperm)
      | refused form hmode => exact hu.perm rfl (perm_answers hq _)
  | reads index q event r hq hevent hvision =>
      rcases hevent with ⟨elapsed, rfl⟩ | rfl
      · cases Vision.step_cases hvision with
        | answered _ _ form _ reply hform hafter => exact hu.perm rfl (perm_read hq _)
      · cases Vision.step_cases hvision with
        | unread _ form hform => exact hu.perm rfl (perm_read hq _)
  | responds index a now r ha hframes =>
      have hperm := perm_erased ha
      obtain ⟨hnot, honce⟩ := List.nodup_cons.mp (hperm.nodup_iff.mp hu.once)
      refine Underway.afterFrames hc hframes honce
        (fun q hq => hp q (hperm.mem_iff.mpr (List.mem_cons_of_mem _ hq)))
        fun call hcall hstill => ?_
      rcases List.mem_cons.mp (hperm.mem_iff.mp (hu.calls call hcall)) with heq | hrest
      · exact absurd (congrArg Prod.fst heq) (settle_calls hframes call hstill)
      · exact hrest
  | dropped index a now ha hnone =>
      have hperm := perm_erased ha
      obtain ⟨hnot, honce⟩ := List.nodup_cons.mp (hperm.nodup_iff.mp hu.once)
      refine ⟨fun call hcall => ?_, honce⟩
      rcases List.mem_cons.mp (hperm.mem_iff.mp (hu.calls call hcall)) with heq | hrest
      · -- the call of the answer would have been settled
        obtain ⟨call', -, -, hsettle⟩ := settle_enabled J env hcall a.2 now
        rw [show call.caller = a.1.1 from congrArg Prod.fst heq, hnone] at hsettle
        cases hsettle
      · exact hrest

theorem underway_run
    (hrun : (machine J env fields cv).exec (.start (initial α config)) es = some cfg) :
    Underway cfg.state :=
  (exec_invariant (I := fun c => Tracked J env fields cv c ∧ Underway c.state)
    (fun _ _ _ hc hnext => ⟨tracked_next hc.1 hnext, underway_next hc.1 hc.2 hnext⟩)
    ⟨tracked_start J env fields cv config, nofun, List.nodup_nil⟩ hrun).2

/-- **No request is lost or made twice.** In every run an invocation of `onFrame` has at most
    one request that has not come back, and exactly one, with the form it has asked for, while
    it waits for the vision service. -/
theorem one_request_underway
    (hrun : (machine J env fields cv).exec (.start (initial α config)) es = some cfg) :
    (∀ tag, (cfg.state.underway.filter fun q => q.1 = tag).length ≤ 1) ∧
      ∀ call ∈ cfg.state.frames.gateway.cameras.calls,
        (cfg.state.underway.filter fun q => q.1 = call.caller) = [(call.caller, call.form)] := by
  have hc := tracked_run hrun
  have hu := underway_run hrun
  -- requests of one invocation are the same request
  have hall : ∀ q ∈ cfg.state.underway,
      (cfg.state.underway.filter fun q' => q'.1 = q.1) = [q] := by
    intro q hq
    have hmem : q ∈ cfg.state.underway.filter fun q' => q'.1 = q.1 :=
      List.mem_filter.mpr ⟨hq, decide_eq_true rfl⟩
    refine List.perm_singleton.mp ((List.perm_ext_iff_of_nodup (hu.once.filter _)
      (List.nodup_singleton q)).mpr fun q' => ?_)
    rw [List.mem_singleton]
    refine ⟨fun hq' => ?_, fun heq => heq ▸ hmem⟩
    obtain ⟨hunder, htag⟩ := List.mem_filter.mp hq'
    exact hc.asked.once q' (hc.pending.underway q' hunder) q (hc.pending.underway q hq)
      (of_decide_eq_true htag)
  refine ⟨fun tag => ?_, fun call hcall => hall _ (hu.calls call hcall)⟩
  cases hfilter : cfg.state.underway.filter fun q => q.1 = tag with
  | nil => exact Nat.zero_le 1
  | cons q rest =>
      have hmem : q ∈ cfg.state.underway.filter fun q => q.1 = tag := by
        rw [hfilter]
        exact List.mem_cons_self
      obtain ⟨hunder, htag⟩ := List.mem_filter.mp hmem
      obtain rfl := of_decide_eq_true htag
      rw [← hfilter, hall q hunder]
      exact le_rfl

/-- While app.py reads the file of the pixel, its request is the only one of its invocation. -/
theorem onePicture_underway : ∃ cfg,
    (machine FrameSystem.sampleJson CameraSystem.keyEnv asciiFields Vision.pixelCv).exec
      (.start (initial _ FrameSystem.keyConfig)) (onePicture.take 18) = some cfg ∧
    cfg.state.reading.length = 1 ∧
    ∀ call ∈ cfg.state.frames.gateway.cameras.calls,
      (cfg.state.underway.filter fun q => q.1 = call.caller) = [(call.caller, call.form)] := by
  have hany : ((machine FrameSystem.sampleJson CameraSystem.keyEnv asciiFields
      Vision.pixelCv).exec (.start (initial _ FrameSystem.keyConfig)) (onePicture.take 18)).any
      (fun cfg => cfg.state.reading.length = 1) = true := by
    decide +kernel
  obtain ⟨cfg, hrun, hreading⟩ := (Option.any_eq_true _ _).mp hany
  exact ⟨cfg, hrun, of_decide_eq_true hreading, (one_request_underway hrun).2⟩

/-! ## Bringing an ACK -/

/-- Nothing fails: the server reads a packet, or app.py takes, reads or answers a request. -/
def Event.works : Event → Bool
  | .frames (.serve _ _ _ _) | .arrive _ | .read _ _ | .respond _ _ => true
  | _ => false

/-- At most `n` such steps lead from `c` to `c'`, and the client has not moved. -/
def Works (J : AckJson) (env : Env) (fields : FormFields) (cv : Vision.OpenCv α κ)
    (c : EventMachine.Config (PictureSystem α) Output) (n : Nat)
    (c' : EventMachine.Config (PictureSystem α) Output) : Prop :=
  ∃ es, es.length ≤ n ∧ (∀ e ∈ es, e.works = true) ∧
    (machine J env fields cv).exec c es = some c' ∧
      c'.state.frames.camera.client = c.state.frames.camera.client ∧
        c'.state.frames.camera.opened = c.state.frames.camera.opened

theorem Works.refl (c : EventMachine.Config (PictureSystem α) Output) (n : Nat) :
    Works J env fields cv c n c := ⟨[], Nat.zero_le n, nofun, rfl, rfl, rfl⟩

theorem Works.trans {m n : Nat} {c₁ c₂ c₃ : EventMachine.Config (PictureSystem α) Output}
    (h : Works J env fields cv c₁ m c₂) (h' : Works J env fields cv c₂ n c₃) :
    Works J env fields cv c₁ (m + n) c₃ := by
  obtain ⟨es, hlength, hworks, hexec, hclient, hopened⟩ := h
  obtain ⟨es', hlength', hworks', hexec', hclient', hopened'⟩ := h'
  refine ⟨es ++ es', ?_, fun e he => ?_, ?_, hclient'.trans hclient, hopened'.trans hopened⟩
  · rw [List.length_append]
    omega
  · exact (List.mem_append.mp he).elim (hworks e) (hworks' e)
  · rw [exec_append, hexec]
    exact hexec'

theorem Works.step {e : Event} {s' : PictureSystem α} {out : List Output}
    (he : e.works = true) (hstep : step J env fields cv c.state e = some (s', out))
    (hclient : s'.frames.camera.client = c.state.frames.camera.client)
    (hopened : s'.frames.camera.opened = c.state.frames.camera.opened) :
    Works J env fields cv c 1 ⟨s', c.history ++ out⟩ := by
  refine ⟨[e], le_rfl, fun e' he' => ?_, ?_, hclient, hopened⟩
  · rw [List.mem_singleton.mp he']
    exact he
  · have hnext : (machine J env fields cv).next c e = _ := next_of_step hstep
    rw [exec_cons, hnext]
    rfl

theorem Works.mono {m n : Nat} (h : Works J env fields cv c m c') (hle : m ≤ n) :
    Works J env fields cv c n c' := by
  obtain ⟨es, hlength, hrest⟩ := h
  exact ⟨es, hlength.trans hle, hrest⟩

theorem Works.client {n : Nat} (h : Works J env fields cv c n c') :
    c'.state.frames.camera.client = c.state.frames.camera.client := by
  obtain ⟨-, -, -, -, hclient, -⟩ := h
  exact hclient

/-- A run goes on. -/
theorem Works.run {n : Nat} (h : Works J env fields cv cfg n c)
    (hrun : (machine J env fields cv).exec (.start (initial α config)) es = some cfg) :
    ∃ es', (machine J env fields cv).exec (.start (initial α config)) es' = some c := by
  obtain ⟨es', -, -, hexec, -⟩ := h
  exact ⟨es ++ es', by rw [exec_append, hrun]; exact hexec⟩

/-- What the server has not read on the connection of the client. -/
def unread (s : PictureSystem α) : List Packet :=
  (s.frames.streams s.frames.camera.opened).toServer

/-- The server has closed the connection of the client. -/
def Closed (s : PictureSystem α) : Prop :=
  (s.frames.streams s.frames.camera.opened).closed = true

/-- The server reads what is there, packet by packet. -/
theorem drains (J : AckJson) (env : Env) (fields : FormFields) (cv : Vision.OpenCv α κ)
    (c : EventMachine.Config (PictureSystem α) Output) :
    ∃ c', Works J env fields cv c c.state.unread.length c' ∧
      (Closed c'.state ∨ c'.state.unread = []) := by
  generalize hqueue : c.state.unread = packets
  induction packets generalizing c with
  | nil => exact ⟨c, Works.refl c _, .inr hqueue⟩
  | cons packet rest ih =>
      cases hopen : (c.state.frames.streams c.state.frames.camera.opened).closed with
      | true => exact ⟨c, Works.refl c _, .inl hopen⟩
      | false =>
          obtain ⟨r, hserve, hdrained⟩ :=
            FrameSystem.serve_enabled J env le_rfl hopen hqueue [] 0 0
          have hstep : step J env fields cv c.state
              (.frames (.serve c.state.frames.camera.opened [] 0 0)) =
                some (c.state.afterFrames r) := by
            simp [step, settles, hserve]
          have hone := Works.step (c := c) rfl hstep hdrained.client hdrained.opened
          rcases hdrained.queue with hclosed | hrest
          · refine ⟨_, ⟨hone.choose, ?_, hone.choose_spec.2⟩, .inl ?_⟩
            · exact hone.choose_spec.1.trans (Nat.succ_le_succ (Nat.zero_le _))
            · show (r.1.streams r.1.camera.opened).closed = true
              rw [hdrained.opened]
              exact hclosed
          · obtain ⟨c', hworks, hdone⟩ := ih
              ⟨(c.state.afterFrames r).1, c.history ++ (c.state.afterFrames r).2⟩ (by
                show (r.1.streams r.1.camera.opened).toServer = rest
                rw [hdrained.opened]
                exact hrest)
            refine ⟨c', ?_, hdone⟩
            have htrans := hone.trans hworks
            rwa [Nat.add_comm] at htrans

/-! ### Answers -/

/-- The invocation has returned, and nothing but the gateway and its answer has changed. -/
structure Settled (J : AckJson) (c c' : EventMachine.Config (PictureSystem α) Output)
    (tag : FrameTag) : Prop where
  frames : ∃ r, c'.state.frames = (c.state.frames.withGateway J r).1
  returned : ∃ a, .gateway (.ack tag a) ∈ framesOf c'.history

/-- An answer that has come back settles its call. -/
theorem respond_settles {index : Nat} {a : Request × VisionReply}
    (ha : c.state.answers[index]? = some a) {call : Call FrameTag}
    (hcall : call ∈ c.state.frames.gateway.cameras.calls) (hcaller : call.caller = a.1.1) :
    ∃ c', Works J env fields cv c 1 c' ∧ Settled J c c' call.caller := by
  obtain ⟨call', hcall', hsame, hsettle⟩ := settle_enabled J env hcall a.2 0
  rw [hcaller] at hsettle
  have hstep : step J env fields cv c.state (.respond index 0) =
      some ({ c.state with answers := c.state.answers.eraseIdx index }.afterFrames
        (c.state.frames.withGateway J (c.state.frames.gateway.onSettled call' a.2 0))) := by
    simp [step, ha, hsettle]
  have heases := FrameSystem.eases_withGateway J c.state.frames
    (c.state.frames.gateway.onSettled call' a.2 0)
  -- both ways the settlement ends with an answer
  have hack : ∃ x, .ack call'.caller x ∈ (c.state.frames.gateway.onSettled call' a.2 0).2 := by
    simp only [CameraGateway.onSettled]
    split
    · exact ⟨.accepted, by simp⟩
    · exact ⟨.rejected .processingFailed, by simp⟩
  obtain ⟨x, hx⟩ := hack
  have hreturned : .gateway (.ack call.caller x) ∈ framesOf (c.history ++
      ({ c.state with answers := c.state.answers.eraseIdx index }.afterFrames
        (c.state.frames.withGateway J (c.state.frames.gateway.onSettled call' a.2 0))).2) := by
    rw [framesOf_afterFrames, ← hsame]
    refine List.mem_append_right _ (FrameSystem.mem_gatewayOutputs.mp ?_)
    rw [FrameSystem.gatewayOutputs_withGateway]
    exact hx
  exact ⟨_, Works.step rfl hstep heases.client heases.opened, ⟨_, rfl⟩, x, hreturned⟩

/-- A file that has come is answered. -/
theorem read_answers (hcv : cv.Lawful)
    (hrun : (machine J env fields cv).exec (.start (initial α config)) es = some c) {index : Nat}
    {q : Request} (hq : c.state.reading[index]? = some q) :
    ∃ c', Works J env fields cv c 1 c' ∧ c'.state.frames = c.state.frames ∧
      ∃ reply, (q, reply) ∈ c'.state.answers := by
  -- app.py waits for the file of this request
  have hplace := congrArg (fun l => l[index]?) (tracked_run hrun).pending.waiting
  simp only [List.getElem?_map, hq, Option.map_some] at hplace
  obtain ⟨form, hform, -⟩ := Option.map_eq_some_iff.mp hplace.symm
  obtain ⟨vs, hvs⟩ := vision_run hrun
  obtain ⟨r, hr⟩ := Vision.step_read hcv (Vision.run_kept hcv hvs) hform 0
  have hstep : step J env fields cv c.state (.read index 0) =
      some ({ c.state with reading := c.state.reading.eraseIdx index }.afterVision q r,
        r.2.map .vision) := by
    simp [step, hq, hr]
  refine ⟨_, Works.step rfl hstep rfl rfl, rfl, ?_⟩
  cases Vision.step_cases hr with
  | answered _ _ form s' reply hform' hafter =>
      exact ⟨_, List.mem_append_right _ List.mem_cons_self⟩

/-- A request reaches app.py, and waits for its file or is refused. -/
theorem arrive_moves (J : AckJson) (env : Env) (fields : FormFields) (cv : Vision.OpenCv α κ)
    {index : Nat} {q : Request} (hq : c.state.requests[index]? = some q) :
    ∃ c', Works J env fields cv c 1 c' ∧ c'.state.frames = c.state.frames ∧
      (q ∈ c'.state.reading ∨ ∃ reply, (q, reply) ∈ c'.state.answers) := by
  cases hreceive : fields.receive q.2 with
  | none =>
      have hstep : step J env fields cv c.state (.arrive index) =
          some ({ c.state with
            requests := c.state.requests.eraseIdx index
            answers := c.state.answers ++ [(q, .status validationError)] }, []) := by
        simp [step, hq, hreceive]
      exact ⟨_, Works.step rfl hstep rfl rfl, rfl,
        .inr ⟨_, List.mem_append_right _ List.mem_cons_self⟩⟩
  | some form =>
      by_cases hmode : form.mode ∈ ["motion", "edges", "none"]
      · have hvision : Vision.step cv c.state.vision (.request form) =
            some ({ c.state.vision with waiting := c.state.vision.waiting ++ [form] }, []) :=
          if_pos hmode
        have hstep : step J env fields cv c.state (.arrive index) =
            some ({ c.state with
              requests := c.state.requests.eraseIdx index
              reading := c.state.reading ++ [q]
              vision := { c.state.vision with
                waiting := c.state.vision.waiting ++ [form] } }, []) := by
          simp [step, hq, hreceive, hvision, afterVision]
        exact ⟨_, Works.step rfl hstep rfl rfl, rfl,
          .inl (List.mem_append_right _ List.mem_cons_self)⟩
      · have hvision : Vision.step cv c.state.vision (.request form) =
            some (c.state.vision, [.refused form Vision.invalidMode]) := if_neg hmode
        have hstep : step J env fields cv c.state (.arrive index) =
            some ({ c.state with requests := c.state.requests.eraseIdx index }.afterVision q
              (c.state.vision, [.refused form Vision.invalidMode]),
                [.vision (.refused form Vision.invalidMode)]) := by
          simp [step, hq, hreceive, hvision]
        exact ⟨_, Works.step rfl hstep rfl rfl, rfl,
          .inr ⟨_, List.mem_append_right _ List.mem_cons_self⟩⟩

theorem Settled.of_frames {c₁ c₂ c₃ : EventMachine.Config (PictureSystem α) Output}
    {tag : FrameTag} (hframes : c₂.state.frames = c₁.state.frames) (h : Settled J c₂ c₃ tag) :
    Settled J c₁ c₃ tag := by
  refine ⟨?_, h.returned⟩
  rw [← hframes]
  exact h.frames

/-! ### From place to place -/

section Places

variable {call : Call FrameTag}

theorem answer_settles (J : AckJson) (env : Env) (fields : FormFields) (cv : Vision.OpenCv α κ)
    (hcall : call ∈ c.state.frames.gateway.cameras.calls) {reply : VisionReply}
    (ha : ((call.caller, call.form), reply) ∈ c.state.answers) :
    ∃ c', Works J env fields cv c 1 c' ∧ Settled J c c' call.caller := by
  obtain ⟨index, hindex⟩ := List.mem_iff_getElem?.mp ha
  exact respond_settles hindex hcall rfl

theorem reading_settles (hcv : cv.Lawful)
    (hrun : (machine J env fields cv).exec (.start (initial α config)) es = some c)
    (hcall : call ∈ c.state.frames.gateway.cameras.calls)
    (hq : (call.caller, call.form) ∈ c.state.reading) :
    ∃ c', Works J env fields cv c 2 c' ∧ Settled J c c' call.caller := by
  obtain ⟨index, hindex⟩ := List.mem_iff_getElem?.mp hq
  obtain ⟨c₁, hworks, hframes, reply, ha⟩ := read_answers hcv hrun hindex
  rw [← hframes] at hcall
  obtain ⟨c₂, hworks', hsettled⟩ := answer_settles J env fields cv hcall ha
  exact ⟨c₂, hworks.trans hworks', hsettled.of_frames hframes⟩

/-- A call whose request is under way can be settled in three steps. -/
theorem underway_settles (hcv : cv.Lawful)
    (hrun : (machine J env fields cv).exec (.start (initial α config)) es = some c)
    (hcall : call ∈ c.state.frames.gateway.cameras.calls) :
    ∃ c', Works J env fields cv c 3 c' ∧ Settled J c c' call.caller := by
  rcases List.mem_append.mp ((underway_run hrun).calls call hcall) with hq | ha
  · rcases List.mem_append.mp hq with hrequest | hreading
    · obtain ⟨index, hindex⟩ := List.mem_iff_getElem?.mp hrequest
      obtain ⟨c₁, hworks, hframes, hplace⟩ := arrive_moves J env fields cv hindex
      obtain ⟨es', hrun'⟩ := hworks.run hrun
      rw [← hframes] at hcall
      rcases hplace with hreading | ⟨reply, ha⟩
      · obtain ⟨c₂, hworks', hsettled⟩ := reading_settles hcv hrun' hcall hreading
        exact ⟨c₂, hworks.trans hworks', hsettled.of_frames hframes⟩
      · obtain ⟨c₂, hworks', hsettled⟩ := answer_settles J env fields cv hcall ha
        exact ⟨c₂, (hworks.trans hworks').mono (by decide), hsettled.of_frames hframes⟩
    · obtain ⟨c₁, hworks, hsettled⟩ := reading_settles hcv hrun hcall hreading
      exact ⟨c₁, hworks.mono (by decide), hsettled⟩
  · obtain ⟨⟨q, reply⟩, ha, rfl⟩ := List.mem_map.mp ha
    obtain ⟨c₁, hworks, hsettled⟩ := answer_settles J env fields cv hcall ha
    exact ⟨c₁, hworks.mono (by decide), hsettled⟩

end Places

/-! ## No deadlock -/

/-- The ACK of the frame, with what its invocation has returned, waits for the client. -/
def AckWaits (J : AckJson) (c : EventMachine.Config (PictureSystem α) Output) (frame : Frame)
    (ackId : UInt64) : Prop :=
  ∃ ev a, FrameSystem.Started c.state.frames frame ackId ev ∧
    .frames (.gateway (.ack ev.tag a)) ∈ c.history ∧
      ∃ d ∈ c.state.frames.camera.current.toClient, d.message = ackPacket ackId (J.arguments a)

/-- When the invocation has returned, its ACK is on the wire. -/
theorem Settled.ack {c₁ c₂ : EventMachine.Config (PictureSystem α) Output}
    (hrun : (machine J env fields cv).exec (.start (initial α config)) es = some c₂)
    {frame : Frame} {ackId : UInt64}
    (hwait : FrameSystem.Waiting c₂.state.frames.camera.client.phase frame ackId)
    {ev : FrameEvent} (hev : FrameSystem.Started c₁.state.frames frame ackId ev)
    (hopen : (c₁.state.frames.streams c₁.state.frames.camera.opened).closed = false)
    (hsettled : Settled J c₁ c₂ ev.tag) : AckWaits J c₂ frame ackId := by
  obtain ⟨⟨r, hr⟩, a, ha⟩ := hsettled
  have hstarted := hev.withGateway J r
  have hstreams := FrameSystem.streams_withGateway J c₁.state.frames r
  have hopened := (FrameSystem.eases_withGateway J c₁.state.frames r).opened
  rw [← hr] at hstarted hstreams hopened
  obtain ⟨fs, hfs⟩ := frames_run hrun
  have hopen₂ : (c₂.state.frames.streams c₂.state.frames.camera.opened).closed = false := by
    rw [hstreams, hopened]
    exact hopen
  have hacked := CameraGateway.mem_acks.mpr (FrameSystem.mem_gatewayOutputs.mpr ha)
  obtain ⟨d, hd, hmessage⟩ := FrameSystem.ack_underway (FrameSystem.flowing_run hfs) hwait
    hstarted hopen₂ (FrameSystem.client_kept hfs) hacked
  exact ⟨ev, a, hstarted, mem_framesOf.mp ha, d, hd, hmessage⟩

/-- **No deadlock.** In every run, while `send_frame` waits for the ACK of a frame, the others
    can bring it: without a failure, and without the client, at most three steps after the
    packets have been read the ACK with the result of `onFrame` for this frame is on the
    connection, unless the server has closed the connection. -/
theorem every_ack_can_come (hcv : cv.Lawful)
    (hrun : (machine J env fields cv).exec (.start (initial α config)) es = some cfg)
    {frame : Frame} {ackId : UInt64}
    (hwait : FrameSystem.Waiting cfg.state.frames.camera.client.phase frame ackId) :
    ∃ c, Works J env fields cv cfg (cfg.state.unread.length + 3) c ∧
      (Closed c.state ∨ AckWaits J c frame ackId) := by
  obtain ⟨c₁, hdrain, hdone⟩ := drains J env fields cv cfg
  obtain ⟨es₁, hrun₁⟩ := hdrain.run hrun
  by_cases hclosed : Closed c₁.state
  · exact ⟨c₁, hdrain.mono (Nat.le_add_right _ _), .inl hclosed⟩
  have hopen := Bool.eq_false_of_not_eq_true hclosed
  have hread := hdone.resolve_left hclosed
  obtain ⟨fs, hfs⟩ := frames_run hrun₁
  have hwait₁ : FrameSystem.Waiting c₁.state.frames.camera.client.phase frame ackId := by
    rw [hdrain.client]
    exact hwait
  obtain ⟨ev, hev, hcalls | ⟨a, ha, d, hd, hmessage⟩⟩ :=
    FrameSystem.underway_of_read hfs hwait₁ hopen hread
  · -- the invocation waits for app.py
    obtain ⟨call, hcall, htag⟩ := List.mem_map.mp hcalls
    obtain ⟨c₂, hworks, hsettled⟩ := underway_settles hcv hrun₁ hcall
    have hboth := hdrain.trans hworks
    obtain ⟨es₂, hrun₂⟩ := hworks.run hrun₁
    rw [htag] at hsettled
    refine ⟨c₂, hboth, .inr (hsettled.ack hrun₂ ?_ hev hopen)⟩
    rw [hboth.client]
    exact hwait
  · exact ⟨c₁, hdrain.mono (Nat.le_add_right _ _),
      .inr ⟨ev, a, hev, mem_framesOf.mp ha, d, hd, hmessage⟩⟩

/-! ### The pixel -/

/-- The client reads on for the ACK of `pixelFrame`. -/
def awaitsPixel (s : PictureSystem α) : Bool :=
  match s.frames.camera.client.phase with
  | .listening (some (frame, ackId)) => frame = pixelFrame ∧ ackId = 0
  | _ => false

/-- Before the server has read the pixel, its ACK can come. -/
theorem onePicture_ack_can_come : ∃ cfg,
    (machine FrameSystem.sampleJson CameraSystem.keyEnv asciiFields Vision.pixelCv).exec
      (.start (initial _ FrameSystem.keyConfig)) (onePicture.take 15) = some cfg ∧
    FrameSystem.Waiting cfg.state.frames.camera.client.phase pixelFrame 0 ∧
    ∃ c, Works FrameSystem.sampleJson CameraSystem.keyEnv asciiFields Vision.pixelCv cfg
        (cfg.state.unread.length + 3) c ∧
      (Closed c.state ∨ AckWaits FrameSystem.sampleJson c pixelFrame 0) := by
  have hany : ((machine FrameSystem.sampleJson CameraSystem.keyEnv asciiFields
      Vision.pixelCv).exec (.start (initial _ FrameSystem.keyConfig)) (onePicture.take 15)).any
      (fun cfg => awaitsPixel cfg.state) = true := by
    decide +kernel
  obtain ⟨cfg, hrun, hawaits⟩ := (Option.any_eq_true _ _).mp hany
  have hwait : FrameSystem.Waiting cfg.state.frames.camera.client.phase pixelFrame 0 := by
    rw [awaitsPixel] at hawaits
    split at hawaits
    · next frame ackId hphase =>
        obtain ⟨rfl, rfl⟩ := of_decide_eq_true hawaits
        exact .inl hphase
    · cases hawaits
  exact ⟨cfg, hrun, hwait, every_ack_can_come Vision.pixelCv_lawful hrun hwait⟩

end PictureSystem

end CameraStream.Link
