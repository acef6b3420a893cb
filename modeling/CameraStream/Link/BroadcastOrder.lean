/-
  CameraStream.Link.BroadcastOrder

  The order in which viewers see the frames of one connection.

  Single flight keeps the frames of a camera in order, and every frame of a connection
  belongs to the same camera.  `shownOn` is what viewers have been sent of a connection;
  `shown_in_order` says that it is part of what has arrived on it, in the same order.

    * `shownFrom_sublist`    — the broadcasts of one socket follow its arrivals;
    * `deliveries_arrivals`  — what a connection delivers arrives at the gateway in this
                               order;
    * `homed_run`            — a connection has one socket.
-/

import CameraStream.Link.PictureDelivery
import CameraStream.Server.GatewaySafety

namespace CameraStream.Link

open Client Server Js EventMachine
open Server.CameraGateway (arrivals)

/-! ## The broadcasts of a socket -/

/-- The invocations whose frames have been broadcast, in order. -/
def broadcasts (h : List CameraGateway.Output) : List FrameTag :=
  h.filterMap fun
    | .viewerFrame tag _ _ => some tag
    | _ => none

/-- A sublist of a list without repetitions, and another one that has all its members. -/
theorem sublist_of_subset {β : Type*} [DecidableEq β] {l m a : List β} (hl : l.Sublist a)
    (hm : m.Sublist a) (ha : a.Nodup) (hsub : l ⊆ m) : l.Sublist m := by
  have hfilter : m.filter (· ∈ l) = l := by
    rw [← CameraGateway.filter_mem_of_sublist hm ha, List.filter_filter]
    refine Eq.trans (List.filter_congr fun x _ => ?_) (CameraGateway.filter_mem_of_sublist hl ha)
    by_cases hx : x ∈ l
    · simp [hx, hsub hx]
    · simp [hx]
  rw [← hfilter]
  exact List.filter_sublist

/-- If a socket sends for one camera only, its broadcasts are among those of the camera. -/
theorem broadcasts_filter {h : List CameraGateway.Output} {sid : SocketId} {c : JsString}
    (hcamera : ∀ tag recipients image, .viewerFrame tag recipients image ∈ h →
      tag.socket = sid → image.cameraId = c) :
    ((broadcasts h).filter (·.socket = sid)).Sublist (CameraGateway.broadcastsOf c h) := by
  induction h with
  | nil => exact List.Sublist.slnil
  | cons o rest ih =>
      have hrest := ih fun tag recipients image hmem =>
        hcamera tag recipients image (List.mem_cons_of_mem o hmem)
      cases o with
      | viewerFrame tag recipients image =>
          by_cases hsid : tag.socket = sid
          · have hc := hcamera tag recipients image List.mem_cons_self hsid
            simp only [broadcasts, CameraGateway.broadcastsOf, List.filterMap_cons, hc, if_true,
              List.filter_cons, hsid, decide_true]
            exact hrest.cons_cons tag
          · simp only [broadcasts, CameraGateway.broadcastsOf, List.filterMap_cons,
              List.filter_cons, hsid, decide_false, Bool.false_eq_true, if_false]
            split
            · exact hrest
            · exact hrest.cons _
      | _ => exact hrest

/-- The broadcasts of a socket follow its arrivals. -/
theorem shownFrom_sublist {env : Env} {gs : List CameraGateway.Event}
    {g : EventMachine.Config CameraGateway CameraGateway.Output}
    (hrun : (CameraGateway.machine env).exec (.start {}) gs = some g) (sid : SocketId) :
    ((broadcasts g.history).filter (·.socket = sid)).Sublist (arrivals g.history) := by
  have hauthorised := CameraGateway.authorised_run hrun
  cases hshown : (broadcasts g.history).filter (·.socket = sid) with
  | nil => exact List.nil_sublist _
  | cons tag rest =>
      -- the camera of the socket
      have hmem : tag ∈ (broadcasts g.history).filter (·.socket = sid) := by
        rw [hshown]
        exact List.mem_cons_self
      obtain ⟨hbroadcast, hsid⟩ := List.mem_filter.mp hmem
      obtain ⟨o, ho, htag⟩ := List.mem_filterMap.mp hbroadcast
      split at htag
      · next tag' recipients image =>
          cases htag
          obtain ⟨socket, hsocket, -, hid⟩ := hauthorised.history _ ho
          rw [of_decide_eq_true hsid] at hsocket
          have hcamera : ∀ tag recipients image', .viewerFrame tag recipients image' ∈ g.history →
              tag.socket = sid → image'.cameraId = image.cameraId := by
            intro tag recipients image' hmem' hsid'
            obtain ⟨socket', hsocket', -, hid'⟩ := hauthorised.history _ hmem'
            rw [hsid', hsocket] at hsocket'
            cases hsocket'
            exact Option.some.inj (hid'.symm.trans hid)
          rw [← hshown]
          refine (broadcasts_filter hcamera).trans ?_
          -- single flight: calls succeed in the order in which they were started
          have hmatched := CameraGateway.matched_run hrun
          obtain ⟨fs, hservice⟩ := CameraGateway.service_run hrun
          rw [hmatched.broadcast]
          refine (CameraService.succeededOf_sublist _ _).trans (List.Sublist.trans ?_
            ((hmatched.started image.cameraId).trans List.filter_sublist))
          rw [CameraService.startedOf_eq hservice]
          exact List.sublist_append_left _ _
      · cases htag

namespace FrameSystem

variable {J : AckJson} {env : Env} {s s' : FrameSystem} {e : Event} {out : List Output}
  {k : Nat} {config : Client.Config} {es : List Event}
  {cfg c c' : EventMachine.Config FrameSystem Output}

/-! ## Deliveries and arrivals -/

/-- The invocations that connections have started, in order. -/
def deliveredTags (h : List Output) : List FrameTag := (deliveries h).map fun d => d.2.2.2

theorem deliveries_move (hmove : GatewayMove env s s' e out) :
    (deliveredTags out).Sublist (arrivals (gatewayOutputs out)) := by
  cases hmove with
  | still hgateway hout hdeliveries =>
      rw [deliveredTags, hdeliveries]
      exact List.nil_sublist _
  | event event hstep hdeliveries =>
      rw [deliveredTags, hdeliveries]
      exact List.nil_sublist _
  | frame k n sid socket frame dateNow now hsocket hstep hdeliveries =>
      rw [deliveredTags, hdeliveries]
      exact List.singleton_sublist.mpr (frame_arrives hsocket hstep)

theorem deliveries_arrivals
    (hrun : (machine J env).exec (.start (initial config)) es = some cfg) :
    (deliveredTags cfg.history).Sublist (arrivals (gatewayOutputs cfg.history)) := by
  refine (exec_invariant (I := fun c => Flowing J env c ∧
    (deliveredTags c.history).Sublist (arrivals (gatewayOutputs c.history)))
    (fun c e c' hc hnext => ⟨flowing_next hc.1 hnext, ?_⟩)
    ⟨⟨good_start J env config, inOrder_start config, nofun⟩, List.Sublist.slnil⟩ hrun).2
  obtain ⟨out, hstep, hhist⟩ := next_eq_some hnext
  rw [hhist, deliveredTags, deliveries_append, List.map_append, gatewayOutputs_append,
    CameraGateway.arrivals_append]
  exact hc.2.append (deliveries_move (gateway_move hc.1.inOrder hstep))

/-! ## The socket of a connection -/

/-- The events of a connection come from its socket. -/
def Homed (s : FrameSystem) : Prop :=
  ∀ ev ∈ s.events, (s.streams ev.stream).socket = some ev.tag.socket

/-- No event is added, and no connection changes its socket. -/
structure Keeps (s s' : FrameSystem) : Prop where
  events : s'.events = s.events
  socket : ∀ k sid, (s.streams k).socket = some sid → (s'.streams k).socket = some sid

theorem Keeps.trans {s₁ s₂ s₃ : FrameSystem} (h : Keeps s₁ s₂) (h' : Keeps s₂ s₃) :
    Keeps s₁ s₃ :=
  ⟨h'.events.trans h.events, fun k sid hk => h'.socket k sid (h.socket k sid hk)⟩

theorem Homed.keeps (h : Homed s) (hk : Keeps s s') : Homed s' := by
  intro ev hev
  rw [hk.events] at hev
  exact hk.socket _ _ (h ev hev)

theorem keeps_setStream (s : FrameSystem) (k : Nat) (st : Stream)
    (h : ∀ sid, (s.streams k).socket = some sid → st.socket = some sid) :
    Keeps s (s.setStream k st) := by
  refine ⟨rfl, fun j sid hsid => ?_⟩
  by_cases hj : j = k
  · subst hj
    rw [setStream_streams]
    exact h sid hsid
  · rw [setStream_other s k st hj]
    exact hsid

theorem keeps_put (s : FrameSystem) (k : Nat) (m : Message) : Keeps s (s.put k m) :=
  ⟨rfl, fun _ _ h => h⟩

theorem keeps_withGateway (J : AckJson) (s : FrameSystem)
    (r : CameraGateway × List CameraGateway.Output) : Keeps s (s.withGateway J r).1 := by
  rw [withGateway, acknowledge]
  split
  · exact ⟨rfl, fun _ _ h => h⟩
  · split
    · exact ⟨rfl, fun _ _ h => h⟩
    · split <;> exact ⟨rfl, fun _ _ h => h⟩

theorem keeps_close (J : AckJson) (env : Env) (s : FrameSystem) (k : Nat) :
    Keeps s (s.close J env k).1 := by
  have hclosed : Keeps s (s.setStream k { s.streams k with closed := true }) :=
    keeps_setStream s k _ fun _ h => h
  simp only [close]
  split
  · exact hclosed.trans (keeps_withGateway J _ _)
  · exact hclosed

theorem keeps_onConnect (J : AckJson) (env : Env) (hnone : (s.streams k).socket = none)
    (auth : AuthJson) (session : Bytes) : Keeps s (s.onConnect J env k auth session).1 := by
  have hstream := (keeps_put s k (approval session)).trans
    (keeps_setStream (s.put k (approval session)) k { s.streams k with
      socket := some s.gateway.sockets.length
      closed := (s.gateway.connectClient env (handshake auth)).2.any CameraSystem.isRefusal }
      fun sid hsid => by
        -- the connection had no socket
        rw [show ((s.put k (approval session)).streams k).socket = none from hnone] at hsid
        cases hsid)
  simp only [onConnect]
  refine Keeps.trans ?_ (keeps_withGateway J _ _)
  split
  · exact hstream.trans (keeps_put _ k disconnectPacket)
  · exact hstream

theorem keeps_onDescriptor (J : AckJson) (env : Env) (s : FrameSystem) (session : Bytes)
    (dateNow now : Int) (frame : Frame) (ackId : UInt64) :
    Keeps s (s.onPacket J env k session dateNow now (.descriptor frame ackId)).1 := by
  let c := s.camera.connections k
  have hstream := keeps_setStream (s.setConnection k { c with received := c.received + 1 }) k
    { s.streams k with descriptor := some (frame, ackId) } fun _ h => h
  exact ⟨rfl, hstream.socket⟩

theorem homed_onAttachment (h : Homed s) (attachment : Frame) (dateNow now : Int) :
    Homed (s.onAttachment J env k attachment dateNow now).1 := by
  simp only [onAttachment]
  split
  · next frame ackId sid hhalf hsid =>
      split
      · next socket r hsocket hstep =>
          refine Homed.keeps ?_ (keeps_withGateway J _ r)
          have hstream : Homed (s.setStream k { s.streams k with descriptor := none }) :=
            h.keeps (keeps_setStream s k _ fun _ hk => hk)
          intro ev hev
          rcases List.mem_append.mp hev with hold | hnew
          · exact hstream ev hold
          · rw [List.mem_singleton.mp hnew, record_streams, setStream_streams]
            exact hsid
      · exact h.keeps (keeps_close J env s k)
  · exact h.keeps (keeps_close J env s k)

theorem homed_client (h : Homed s) {gh : List CameraGateway.Output} (hl : Linked J env s gh)
    {event : Application.Event} (hstep : s.step J env (.client event) = some (s', out)) :
    Homed s' := by
  obtain ⟨r, hcamera, heq⟩ := Option.map_eq_some_iff.mp hstep
  obtain rfl := congrArg Prod.fst heq
  obtain ⟨client, -, -, hcases⟩ := AckSystem.client_cases hcamera
  rcases hcases with ⟨hnone, -, -⟩ | ⟨w, hone, -, -⟩
  · rw [hnone]
    exact h
  · rw [hone]
    cases w with
    | opened =>
        -- a new connection has no events
        intro ev hev
        have hle := hl.opened ev hev
        have hold : (s.afterWire .opened).streams ev.stream = s.streams ev.stream :=
          setStream_other s _ {} (by omega)
        exact (congrArg Stream.socket hold).trans (h ev hev)
    | wrote packet | writeFailed packet =>
        have hkeeps : Keeps s (s.afterWire (.wrote packet)) := keeps_setStream s _ _ fun _ hk => hk
        exact h.keeps ⟨rfl, hkeeps.socket⟩
    | read m | readFailed => exact h

theorem homed_server (h : Homed s) (he : ∀ event, e ≠ .client event)
    (hstep : s.step J env e = some (s', out)) : Homed s' := by
  cases e with
  | client event => exact absurd rfl (he event)
  | serve k session dateNow now =>
      obtain ⟨-, hmatch⟩ := Option.ite_none_right_eq_some.mp hstep
      split at hmatch
      · cases hmatch
      · next packet rest hfirst =>
          obtain rfl := congrArg Prod.fst (Option.some.inj hmatch)
          have htaken := keeps_setStream s k { s.streams k with toServer := rest } fun _ hk => hk
          cases packet with
          | pong => exact h.keeps htaken
          | descriptor frame ackId =>
              exact h.keeps
                (htaken.trans (keeps_onDescriptor J env _ session dateNow now frame ackId))
          | connect auth =>
              simp only [onPacket]
              split
              · next hnone =>
                  exact h.keeps (htaken.trans (keeps_onConnect J env hnone auth session))
              · exact h.keeps (htaken.trans (keeps_close J env _ k))
          | attachment frame => exact homed_onAttachment (h.keeps htaken) frame dateNow now
          | leave => exact h.keeps (htaken.trans (keeps_close J env _ k))
  | send k m =>
      obtain ⟨-, heq⟩ := Option.ite_none_right_eq_some.mp hstep
      cases heq
      exact h.keeps (keeps_put s k m)
  | lost k =>
      obtain ⟨-, heq⟩ := Option.ite_none_right_eq_some.mp hstep
      obtain rfl := congrArg Prod.fst (Option.some.inj heq)
      exact h.keeps (keeps_close J env s k)
  | gateway event =>
      obtain ⟨-, hmap⟩ := Option.ite_none_right_eq_some.mp hstep
      obtain ⟨r, -, heq⟩ := Option.map_eq_some_iff.mp hmap
      obtain rfl := congrArg Prod.fst heq
      exact h.keeps (keeps_withGateway J s r)

theorem homed_run (hrun : (machine J env).exec (.start (initial config)) es = some cfg) :
    Homed cfg.state := by
  refine (exec_invariant (I := fun c => Flowing J env c ∧ Homed c.state)
    (fun c e c' hc hnext => ⟨flowing_next hc.1 hnext, ?_⟩)
    ⟨⟨good_start J env config, inOrder_start config, nofun⟩, nofun⟩ hrun).2
  obtain ⟨out, hstep, -⟩ := next_eq_some hnext
  by_cases he : ∃ event, e = .client event
  · obtain ⟨event, rfl⟩ := he
    exact homed_client hc.2 hc.1.good.linked hstep
  · exact homed_server hc.2 (fun event heq => he ⟨event, heq⟩) hstep

/-! ## What viewers see of a connection -/

/-- The frame of an invocation on connection `k`, with its number. -/
def deliveryOn (h : List Output) (k : Nat) (tag : FrameTag) : Option (Nat × Frame) :=
  ((deliveries h).find? fun d => d.1 = k ∧ d.2.2.2 = tag).map fun d => (d.2.1, d.2.2.1)

/-- The frames of connection `k` that have been broadcast, in this order. -/
def shownOn (h : List Output) (k : Nat) : List (Nat × Frame) :=
  (broadcasts (gatewayOutputs h)).filterMap (deliveryOn h k)

/-- The invocations that connection `k` has started. -/
def tagsOn (h : List Output) (k : Nat) : List FrameTag :=
  ((deliveries h).filter fun d => d.1 = k).map fun d => d.2.2.2

theorem deliveryOn_isSome {h : List Output} {tag : FrameTag}
    (hsome : (deliveryOn h k tag).isSome) : tag ∈ tagsOn h k := by
  rw [deliveryOn, Option.isSome_map, List.find?_isSome] at hsome
  obtain ⟨d, hd, hboth⟩ := hsome
  obtain ⟨hk, rfl⟩ := of_decide_eq_true hboth
  exact List.mem_map_of_mem (List.mem_filter.mpr ⟨hd, decide_eq_true hk⟩)

/-- An invocation belongs to one delivery. -/
theorem deliveryOn_eq {h : List Output} (hnodup : (deliveredTags h).Nodup)
    {d : Nat × Nat × Frame × FrameTag} (hd : d ∈ deliveries h) (hk : d.1 = k) :
    deliveryOn h k d.2.2.2 = some (d.2.1, d.2.2.1) := by
  cases hfind : (deliveries h).find? fun d' => d'.1 = k ∧ d'.2.2.2 = d.2.2.2 with
  | none => simpa [hk] using List.find?_eq_none.mp hfind d hd
  | some d' =>
      obtain ⟨-, htag⟩ := of_decide_eq_true (List.find?_some hfind :)
      have hsame := List.inj_on_of_nodup_map hnodup (List.mem_of_find?_eq_some hfind) hd htag
      rw [deliveryOn, hfind, hsame, Option.map_some]

theorem arrivedOn_eq_tagsOn {h : List Output} (hnodup : (deliveredTags h).Nodup) (k : Nat) :
    (tagsOn h k).filterMap (deliveryOn h k) = arrivedOn h k := by
  rw [tagsOn, List.filterMap_map, List.filterMap_filter, arrivedOn]
  refine List.filterMap_congr fun d hd => ?_
  by_cases hk : d.1 = k
  · simp [hk, deliveryOn_eq hnodup hd hk]
  · simp [hk]

/-- The socket of the invocations of a connection. -/
theorem tagsOn_socket {c : EventMachine.Config FrameSystem Output} (hc : Good J env c)
    (hhomed : Homed c.state) {tag : FrameTag} (h : tag ∈ tagsOn c.history k) :
    (c.state.streams k).socket = some tag.socket := by
  obtain ⟨d, hd, rfl⟩ := List.mem_map.mp h
  obtain ⟨hdelivered, hk⟩ := List.mem_filter.mp hd
  rw [← hc.delivered] at hdelivered
  obtain ⟨ev, hev, rfl⟩ := List.mem_map.mp hdelivered
  obtain rfl : ev.stream = k := of_decide_eq_true hk
  exact hhomed ev hev

/-- What viewers are sent of a connection is part of what has arrived on it. -/
theorem shownOn_sublist
    (hrun : (machine J env).exec (.start (initial config)) es = some cfg) (k : Nat) :
    (shownOn cfg.history k).Sublist (arrivedOn cfg.history k) := by
  have hgood := good_run hrun
  obtain ⟨gs, hgs⟩ := hgood.linked.run
  have harrivals : (arrivals (gatewayOutputs cfg.history)).Nodup :=
    (CameraGateway.answered_run hgs).nodup
  have hdelivered := deliveries_arrivals hrun
  have htags : (tagsOn cfg.history k).Sublist (arrivals (gatewayOutputs cfg.history)) :=
    (List.filter_sublist.map _).trans hdelivered
  -- the broadcasts of this connection
  let shown := (broadcasts (gatewayOutputs cfg.history)).filter (· ∈ tagsOn cfg.history k)
  have hsubset : shown ⊆ tagsOn cfg.history k := fun tag hmem =>
    of_decide_eq_true (List.mem_filter.mp hmem).2
  have hshown : shown.Sublist (arrivals (gatewayOutputs cfg.history)) := by
    cases hsocket : (cfg.state.streams k).socket with
    | none =>
        have hnil : shown = [] := by
          refine List.eq_nil_iff_forall_not_mem.mpr fun tag hmem => ?_
          have hsome := tagsOn_socket hgood (homed_run hrun) (hsubset hmem)
          rw [hsocket] at hsome
          cases hsome
        rw [hnil]
        exact List.nil_sublist _
    | some sid =>
        refine List.Sublist.trans ?_ (shownFrom_sublist hgs sid)
        refine List.monotone_filter_right _ fun tag hmem => ?_
        have hsome := tagsOn_socket hgood (homed_run hrun) (of_decide_eq_true hmem)
        rw [hsocket] at hsome
        exact decide_eq_true (Option.some.inj hsome).symm
  have horder := sublist_of_subset hshown htags harrivals hsubset
  have heq : shownOn cfg.history k = shown.filterMap (deliveryOn cfg.history k) := by
    rw [shownOn, List.filterMap_filter]
    refine List.filterMap_congr fun tag _ => ?_
    cases hdelivery : deliveryOn cfg.history k tag with
    | none => exact (ite_self none).symm
    | some d =>
        have hmem : tag ∈ tagsOn cfg.history k := deliveryOn_isSome (by rw [hdelivery]; rfl)
        exact (if_pos (decide_eq_true hmem)).symm
  rw [heq, ← arrivedOn_eq_tagsOn (harrivals.sublist hdelivered)]
  exact horder.filterMap _

/-- Parts of what has arrived are in the order of the descriptors. -/
theorem pairwise_of_sublist_arrivedOn {c : EventMachine.Config FrameSystem Output}
    (hc : Flowing J env c) {k : Nat} {l : List (Nat × Frame)}
    (hsub : l.Sublist (arrivedOn c.history k)) : (l.map Prod.fst).Pairwise (· < ·) := by
  have hnumbers := (arrivedOn_numbered hc k).1
  have hpairwise : ((arrivedOn c.history k).map Prod.fst).Pairwise (· < ·) := by
    rw [hnumbers]
    exact List.pairwise_lt_range
  exact hpairwise.sublist (hsub.map Prod.fst)

/-- **Viewers see a connection in order.** In every run, whenever the vision service answers
    and whatever it answers: what viewers are sent of a connection is part of what has
    arrived on it, and its frames are sent once at most and in the order of their
    descriptors. -/
theorem shown_in_order
    (hrun : (machine J env).exec (.start (initial config)) es = some cfg) (k : Nat) :
    (shownOn cfg.history k).Sublist (arrivedOn cfg.history k) ∧
      ((shownOn cfg.history k).map Prod.fst).Pairwise (· < ·) :=
  ⟨shownOn_sublist hrun k,
    pairwise_of_sublist_arrivedOn (flowing_run hrun) (shownOn_sublist hrun k)⟩

/-- In the run of one frame viewers see it. -/
theorem oneFrame_shown : ∃ cfg,
    (machine sampleJson CameraSystem.keyEnv).exec (.start (initial keyConfig)) oneFrame =
      some cfg ∧ shownOn cfg.history 1 = [(0, keyFrame)] ∧
      (shownOn cfg.history 1).Sublist (arrivedOn cfg.history 1) ∧
      ((shownOn cfg.history 1).map Prod.fst).Pairwise (· < ·) := by
  have hany : ((machine sampleJson CameraSystem.keyEnv).exec (.start (initial keyConfig))
      oneFrame).any (fun cfg => shownOn cfg.history 1 = [(0, keyFrame)]) = true := by
    decide +kernel
  obtain ⟨cfg, hrun, hshown⟩ := (Option.any_eq_true _ _).mp hany
  exact ⟨cfg, hrun, of_decide_eq_true hshown, shown_in_order hrun 1⟩

end FrameSystem

end CameraStream.Link
