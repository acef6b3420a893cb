/-
  CameraStream.Link.AckProgress

  Nothing is lost between `Application::run` and `CameraGateway` on a connection that the
  server has not closed.

  `InOrder` ties the server's end of a connection to the protocol that the client follows:
  every attachment that is under way belongs to the descriptor before it, and the
  invocations of `onFrame` are numbered without gaps.  `Heard` and `Kept` follow an answer
  from the gateway to the client.  Two results:

    * `frames_arrive_in_order` — the frames that reach `onFrame` on a connection are the
      first ones written to it, each once and in order, whatever is lost;
    * `ack_is_under_way`       — while `send_frame` waits, there is something to wait for:
      a packet that the server has not read, an invocation that the vision service has not
      settled, or the ACK itself.
-/

import CameraStream.Client.FrameCalls
import CameraStream.Link.FrameDelivery
import Mathlib.Data.List.Flatten

namespace CameraStream.Link

open Client Server Js EventMachine
open Server.CameraGateway (arrivals acks)

/-! ## The pairs of a connection -/

/-- One more packet behind a descriptor that waits for its attachment, or behind none;
    `none` is a packet out of place. -/
def pairStep : Option (Option Frame) → Packet → Option (Option Frame)
  | none, _ => none
  | some none, .descriptor frame _ => some (some frame)
  | some (some _), .descriptor _ _ => none
  | some none, .attachment _ => none
  | some (some frame), .attachment frame' => if frame' = frame then some none else none
  | some half, .connect _ => some half
  | some half, .pong => some half
  | some half, .leave => some half

def pairing (half : Option Frame) (packets : List Packet) : Option (Option Frame) :=
  packets.foldl pairStep (some half)

theorem foldl_pairStep_none (packets : List Packet) : packets.foldl pairStep none = none := by
  induction packets with
  | nil => rfl
  | cons packet rest ih => exact ih

theorem pairing_concat (half : Option Frame) (packets : List Packet) (packet : Packet) :
    pairing half (packets ++ [packet]) = pairStep (pairing half packets) packet := by
  rw [pairing, List.foldl_append]
  rfl

/-- The first packet fits, and the others behind it. -/
theorem pairing_cons {half half' : Option Frame} {packet : Packet} {rest : List Packet}
    (h : pairing half (packet :: rest) = some half') :
    ∃ mid, pairStep (some half) packet = some mid ∧ pairing mid rest = some half' := by
  rw [pairing, List.foldl_cons] at h
  cases hmid : pairStep (some half) packet with
  | none =>
      rw [hmid, foldl_pairStep_none] at h
      cases h
  | some mid =>
      rw [hmid] at h
      exact ⟨mid, rfl, h⟩

/-- What the client has written last, where this matters. -/
def Phase.half : Phase → Option (Option Frame)
  | .attaching frame _ => some (some frame)
  | .absent | .leaving | .left => none
  | _ => some none

/-- The packet that the client is writing fits behind what it has written. -/
theorem pairStep_packet {p : Client.Phase} {packet : Packet} (hpacket : p.packet = some packet)
    {half : Option Frame} (hhalf : ∀ h, Phase.half p = some h → half = h) :
    pairStep (some half) packet =
      some (match packet with
        | .descriptor frame _ => some frame
        | .attachment _ => none
        | _ => half) := by
  cases p with
  | presenting auth | ponging sent | leaving =>
      cases hpacket
      cases half <;> rfl
  | describing frame ackId =>
      cases hpacket
      rw [hhalf none rfl]
      rfl
  | attaching frame ackId =>
      cases hpacket
      rw [hhalf (some frame) rfl]
      exact if_pos rfl
  | _ => cases hpacket

/-- Written or not, a packet leaves the client where its protocol expects it. -/
theorem pairStep_wire {p q : Client.Phase} {w : WireEvent} {packet : Packet}
    (hstep : WireStep p q [w]) (hw : w = .wrote packet ∨ w = .writeFailed packet)
    {half : Option Frame} (hhalf : ∀ h, Phase.half p = some h → half = h) :
    ∃ mid, pairStep (some half) packet = some mid ∧ ∀ h, Phase.half q = some h → mid = h := by
  cases hstep with
  | presented auth =>
      obtain rfl : packet = .connect auth := by
        rcases hw with hw | hw <;> cases hw
        rfl
      exact ⟨_, pairStep_packet (p := .presenting auth) rfl hhalf, hhalf⟩
  | ponged sent =>
      obtain rfl : packet = .pong := by
        rcases hw with hw | hw <;> cases hw
        rfl
      exact ⟨_, pairStep_packet (p := .ponging sent) rfl hhalf, hhalf⟩
  | described frame ackId =>
      obtain rfl : packet = .descriptor frame ackId := by
        rcases hw with hw | hw <;> cases hw
        rfl
      refine ⟨_, pairStep_packet (p := .describing frame ackId) rfl hhalf, ?_⟩
      intro h hh
      exact Option.some.inj hh
  | attached frame ackId =>
      obtain rfl : packet = .attachment frame := by
        rcases hw with hw | hw <;> cases hw
        rfl
      refine ⟨_, pairStep_packet (p := .attaching frame ackId) rfl hhalf, ?_⟩
      intro h hh
      exact Option.some.inj hh
  | quits hp hq =>
      -- nothing is expected of a client that gives up
      have hnone : Phase.half q = none := by rcases hq with rfl | rfl <;> rfl
      cases hp with
      | unwritten hpacket hended =>
          rcases hw with hw | hw <;> cases hw
          refine ⟨_, pairStep_packet hpacket hhalf, ?_⟩
          rw [hnone]
          exact nofun
      | _ => rcases hw with hw | hw <;> cases hw
  | leaves | cannotLeave =>
      obtain rfl : packet = .leave := by
        rcases hw with hw | hw <;> cases hw
        rfl
      exact ⟨_, pairStep_packet (p := .leaving) rfl hhalf, nofun⟩
  | _ => rcases hw with hw | hw <;> cases hw

/-- A step without a packet keeps what is expected. -/
theorem half_silent {p q : Client.Phase} {ws : List WireEvent} (hstep : WireStep p q ws)
    (hws : ∀ w ∈ ws, w.isOpened = false ∧
      ∀ packet, w ≠ .wrote packet ∧ w ≠ .writeFailed packet) {half : Option Frame}
    (hhalf : ∀ h, Phase.half p = some h → half = h) :
    ∀ h, Phase.half q = some h → half = h := by
  cases hstep with
  | stay => exact hhalf
  | greeted | pinged | skipped | approved | acked | sends => exact hhalf
  | opens => exact absurd (hws _ List.mem_cons_self).1 Bool.noConfusion
  | presented | ponged | described | attached | leaves | cannotLeave =>
      obtain ⟨-, hno⟩ := hws _ List.mem_cons_self
      first
        | exact absurd rfl (hno _).1
        | exact absurd rfl (hno _).2
  | quits hp hq =>
      have hnone : Phase.half q = none := by rcases hq with rfl | rfl <;> rfl
      rw [hnone]
      exact nofun
  | dropped => exact nofun

/-- The frame that waits for its attachment. -/
def Stream.half (st : Stream) : Option Frame := st.descriptor.map Prod.fst

namespace FrameSystem

variable {J : AckJson} {env : Env} {s s' : FrameSystem} {gh : List CameraGateway.Output}
  {out : List Output} {k : Nat} {config : Client.Config} {es : List Event} {e : Event}
  {cfg : EventMachine.Config FrameSystem Output}

/-! ## Connections in order -/

/-- The events of connection `k`. -/
def eventsOn (s : FrameSystem) (k : Nat) : List FrameEvent :=
  s.events.filter fun ev => ev.stream = k

structure InOrder (s : FrameSystem) : Prop where
  paired : ∀ k ≤ s.camera.opened, (s.streams k).closed = false →
    ∃ half, pairing (s.streams k).half (s.streams k).toServer = some half ∧
      (k = s.camera.opened → ∀ h, Phase.half s.camera.client.phase = some h → half = h)
  numbers : ∀ k, (s.eventsOn k).map FrameEvent.number = List.range (s.eventsOn k).length
  /-- Each descriptor that has been read has started an invocation, but for the last one
      while it waits for its attachment. -/
  count : ∀ k ≤ s.camera.opened, (s.streams k).closed = false →
    (s.camera.connections k).received =
      (s.eventsOn k).length + (s.streams k).descriptor.toList.length

/-- The server's ends lose nothing but what closes; the rest is as before. -/
structure Eases (s s' : FrameSystem) : Prop where
  events : s'.events = s.events
  opened : s'.camera.opened = s.camera.opened
  client : s'.camera.client = s.camera.client
  received : ∀ k, (s'.camera.connections k).received = (s.camera.connections k).received
  streams : ∀ k, (s'.streams k).closed = false → (s.streams k).closed = false ∧
    (s'.streams k).toServer = (s.streams k).toServer ∧
    (s'.streams k).descriptor = (s.streams k).descriptor

theorem Eases.refl (s : FrameSystem) : Eases s s :=
  ⟨rfl, rfl, rfl, fun _ => rfl, fun _ h => ⟨h, rfl, rfl⟩⟩

theorem Eases.trans {s₁ s₂ s₃ : FrameSystem} (h : Eases s₁ s₂) (h' : Eases s₂ s₃) :
    Eases s₁ s₃ where
  events := h'.events.trans h.events
  opened := h'.opened.trans h.opened
  client := h'.client.trans h.client
  received k := (h'.received k).trans (h.received k)
  streams k hclosed := by
    obtain ⟨hmid, hqueue, hhalf⟩ := h'.streams k hclosed
    obtain ⟨hold, hqueue', hhalf'⟩ := h.streams k hmid
    exact ⟨hold, hqueue.trans hqueue', hhalf.trans hhalf'⟩

theorem InOrder.eases (h : InOrder s) (he : Eases s s') : InOrder s' := by
  have heventsOn : ∀ k, s'.eventsOn k = s.eventsOn k := by
    intro k
    rw [eventsOn, he.events]
    rfl
  refine ⟨?_, ?_, ?_⟩
  · intro k hk hclosed
    obtain ⟨hopen, hqueue, hhalf⟩ := he.streams k hclosed
    rw [he.opened] at hk ⊢
    rw [Stream.half, hqueue, hhalf, he.client]
    exact h.paired k hk hopen
  · intro k
    rw [heventsOn]
    exact h.numbers k
  · intro k hk hclosed
    obtain ⟨hopen, -, hhalf⟩ := he.streams k hclosed
    rw [he.opened] at hk
    rw [he.received, heventsOn, hhalf]
    exact h.count k hk hopen

/-! ### The server's steps -/

theorem eases_put (s : FrameSystem) (k : Nat) (m : Message) : Eases s (s.put k m) := by
  refine ⟨rfl, rfl, rfl, ?_, fun _ h => ⟨h, rfl, rfl⟩⟩
  intro j
  by_cases hj : j = k
  · subst hj
    rw [put, setConnection_connections]
  · rw [put, setConnection_other s k _ hj]

theorem eases_putAck (s : FrameSystem) (ev : FrameEvent) (arguments : Bytes) :
    Eases s (s.putAck ev arguments) := by
  refine ⟨rfl, rfl, rfl, ?_, fun _ h => ⟨h, rfl, rfl⟩⟩
  intro j
  by_cases hj : j = ev.stream
  · subst hj
    rw [putAck, setConnection_connections]
  · rw [putAck, setConnection_other s _ _ hj]

theorem eases_acknowledge (J : AckJson) (s : FrameSystem) (out : List CameraGateway.Output) :
    Eases s (s.acknowledge J out).1 := by
  rw [acknowledge]
  split
  · exact Eases.refl s
  · split
    · exact Eases.refl s
    · split
      · exact Eases.refl s
      · exact eases_putAck s _ _

theorem eases_withGateway (J : AckJson) (s : FrameSystem)
    (r : CameraGateway × List CameraGateway.Output) : Eases s (s.withGateway J r).1 := by
  have hgateway : Eases s { s with gateway := r.1 } :=
    ⟨rfl, rfl, rfl, fun _ => rfl, fun _ h => ⟨h, rfl, rfl⟩⟩
  exact hgateway.trans (eases_acknowledge J _ r.2)

/-- A connection changes its socket or is closed. -/
theorem eases_setStream (s : FrameSystem) (k : Nat) (st : Stream)
    (hqueue : st.toServer = (s.streams k).toServer)
    (hhalf : st.descriptor = (s.streams k).descriptor)
    (hclosed : st.closed = false → (s.streams k).closed = false) :
    Eases s (s.setStream k st) := by
  refine ⟨rfl, rfl, rfl, fun _ => rfl, ?_⟩
  intro j hj
  by_cases hjk : j = k
  · subst hjk
    rw [setStream_streams] at hj ⊢
    exact ⟨hclosed hj, hqueue, hhalf⟩
  · rw [setStream_other s k st hjk] at hj ⊢
    exact ⟨hj, rfl, rfl⟩

theorem eases_onConnect (hopen : (s.streams k).closed = false) (J : AckJson) (env : Env)
    (auth : AuthJson) (session : Bytes) : Eases s (s.onConnect J env k auth session).1 := by
  have hstream := (eases_put s k (approval session)).trans
    (eases_setStream (s.put k (approval session)) k { s.streams k with
      socket := some s.gateway.sockets.length
      closed := (s.gateway.connectClient env (handshake auth)).2.any CameraSystem.isRefusal }
      rfl rfl fun _ => hopen)
  simp only [onConnect]
  refine Eases.trans ?_ (eases_withGateway J _ _)
  split
  · exact hstream.trans (eases_put _ k disconnectPacket)
  · exact hstream

theorem setStream_setStream (s : FrameSystem) (k : Nat) (st st' : Stream) :
    (s.setStream k st).setStream k st' = s.setStream k st' := by
  simp [setStream]

/-- Only connection `k` changes, and it is in order again, or closed. -/
theorem InOrder.replace (h : InOrder s) (k : Nat) (hopened : s'.camera.opened = s.camera.opened)
    (hclient : s'.camera.client = s.camera.client)
    (hothers : ∀ j, j ≠ k → s'.eventsOn j = s.eventsOn j ∧ s'.streams j = s.streams j ∧
      (s'.camera.connections j).received = (s.camera.connections j).received)
    (hnumbers : (s'.eventsOn k).map FrameEvent.number = List.range (s'.eventsOn k).length)
    (hself : k ≤ s.camera.opened → (s'.streams k).closed = false →
      (∃ half, pairing (s'.streams k).half (s'.streams k).toServer = some half ∧
        (k = s.camera.opened → ∀ h, Phase.half s.camera.client.phase = some h → half = h)) ∧
      (s'.camera.connections k).received =
        (s'.eventsOn k).length + (s'.streams k).descriptor.toList.length) :
    InOrder s' := by
  refine ⟨?_, ?_, ?_⟩
  · intro j hj hclosed
    rw [hopened] at hj ⊢
    rw [hclient]
    by_cases hjk : j = k
    · subst hjk
      exact (hself hj hclosed).1
    · rw [(hothers j hjk).2.1] at hclosed ⊢
      exact h.paired j hj hclosed
  · intro j
    by_cases hjk : j = k
    · subst hjk
      exact hnumbers
    · rw [(hothers j hjk).1]
      exact h.numbers j
  · intro j hj hclosed
    rw [hopened] at hj
    by_cases hjk : j = k
    · subst hjk
      exact (hself hj hclosed).2
    · rw [(hothers j hjk).2.1] at hclosed ⊢
      rw [(hothers j hjk).1, (hothers j hjk).2.2]
      exact h.count j hj hclosed

/-- The server closes a connection, whatever it has just read. -/
theorem InOrder.close (h : InOrder s) (k : Nat) (st : Stream) :
    InOrder ((s.setStream k st).close J env k).1 := by
  have hclosed : InOrder ((s.setStream k st).setStream k
      { (s.setStream k st).streams k with closed := true }) := by
    rw [setStream_setStream]
    refine h.replace k rfl rfl ?_ (h.numbers k) ?_
    · intro j hj
      exact ⟨rfl, setStream_other s k _ hj, rfl⟩
    · intro _ hopen
      rw [setStream_streams] at hopen
      cases hopen
  simp only [FrameSystem.close]
  split
  · exact hclosed.eases (eases_withGateway J _ _)
  · exact hclosed

/-- The server takes a packet that belongs to no pair out of the queue. -/
theorem inOrder_skip (h : InOrder s) {packet : Packet} {rest : List Packet}
    (hopen : (s.streams k).closed = false)
    (hfirst : (s.streams k).toServer = packet :: rest)
    (hskip : ∀ half, pairStep (some half) packet = some half) :
    InOrder (s.setStream k { s.streams k with toServer := rest }) := by
  refine h.replace k rfl rfl ?_ (h.numbers k) ?_
  · intro j hj
    exact ⟨rfl, setStream_other s k _ hj, rfl⟩
  · intro hk _
    obtain ⟨half, hpairing, hphase⟩ := h.paired k hk hopen
    rw [hfirst] at hpairing
    obtain ⟨mid, hmid, hrest⟩ := pairing_cons hpairing
    rw [hskip] at hmid
    obtain rfl := Option.some.inj hmid
    rw [setStream_streams]
    exact ⟨⟨half, hrest, hphase⟩, h.count k hk hopen⟩

/-- The server reads a descriptor. -/
theorem inOrder_descriptor (J : AckJson) (env : Env) (h : InOrder s) (hk : k ≤ s.camera.opened)
    (hopen : (s.streams k).closed = false) {frame : Frame} {ackId : UInt64} {rest : List Packet}
    (hfirst : (s.streams k).toServer = .descriptor frame ackId :: rest) :
    InOrder ((s.setStream k { s.streams k with toServer := rest }).onPacket J env k [] 0 0
      (.descriptor frame ackId)).1 := by
  obtain ⟨half, hpairing, hphase⟩ := h.paired k hk hopen
  rw [hfirst] at hpairing
  obtain ⟨mid, hmid, hrest⟩ := pairing_cons hpairing
  -- no other descriptor waits
  have hnone : (s.streams k).descriptor = none := by
    cases hd : (s.streams k).descriptor with
    | none => rfl
    | some d => simp [Stream.half, hd, pairStep] at hmid
  have hcount := h.count k hk hopen
  rw [Stream.half, hnone] at hmid
  obtain rfl : some frame = mid := Option.some.inj hmid
  refine h.replace k rfl rfl ?_ (h.numbers k) ?_
  · intro j hj
    refine ⟨rfl, ?_, ?_⟩
    · exact (setStream_other _ k _ hj).trans (setStream_other s k _ hj)
    · exact congrArg Connection.received (setConnection_other _ k _ hj)
  · intro _ _
    have hstream : ((s.setStream k { s.streams k with toServer := rest }).onPacket J env k [] 0 0
        (.descriptor frame ackId)).1.streams k =
          { s.streams k with toServer := rest, descriptor := some (frame, ackId) } := by
      simp [onPacket, setConnection]
    have hreceived : (((s.setStream k { s.streams k with toServer := rest }).onPacket J env k [] 0 0
        (.descriptor frame ackId)).1.camera.connections k).received =
          (s.camera.connections k).received + 1 :=
      congrArg Connection.received (setConnection_connections _ k _)
    rw [hstream, hreceived, hcount, hnone]
    exact ⟨⟨half, hrest, hphase⟩, rfl⟩

theorem record_streams (s : FrameSystem) (ev : FrameEvent) :
    (s.record ev).streams = s.streams := rfl

theorem eventsOn_record (s : FrameSystem) (ev : FrameEvent) (h : ev.stream = k) :
    (s.record ev).eventsOn k = s.eventsOn k ++ [ev] := by
  simp [eventsOn, record, List.filter_append, h]

theorem eventsOn_record_other (s : FrameSystem) (ev : FrameEvent) (h : ev.stream ≠ k) :
    (s.record ev).eventsOn k = s.eventsOn k := by
  simp [eventsOn, record, List.filter_append, h]

/-- The server reads an attachment. -/
theorem inOrder_attachment (h : InOrder s) (hk : k ≤ s.camera.opened)
    (hopen : (s.streams k).closed = false) {frame : Frame} {rest : List Packet}
    (hfirst : (s.streams k).toServer = .attachment frame :: rest) (dateNow now : Int) :
    InOrder ((s.setStream k { s.streams k with toServer := rest }).onAttachment J env k frame
      dateNow now).1 := by
  obtain ⟨half, hpairing, hphase⟩ := h.paired k hk hopen
  rw [hfirst] at hpairing
  obtain ⟨mid, hmid, hrest⟩ := pairing_cons hpairing
  have hcount := h.count k hk hopen
  simp only [onAttachment]
  split
  · next frame' ackId sid hhalf hsid =>
      split
      · next socket r hsocket hstep =>
          refine InOrder.eases ?_ (eases_withGateway J _ r)
          rw [setStream_streams] at hhalf
          have hdescriptor : (s.streams k).descriptor = some (frame', ackId) := hhalf
          -- the frame of the descriptor
          obtain rfl : none = mid := by
            rw [Stream.half, hdescriptor] at hmid
            exact Option.some.inj (Option.ite_none_right_eq_some.mp hmid).2
          rw [hdescriptor] at hcount
          have hlength : (s.camera.connections k).received = (s.eventsOn k).length + 1 := hcount
          refine h.replace k rfl rfl ?_ ?_ ?_
          · intro j hj
            refine ⟨eventsOn_record_other _ _ (Ne.symm hj), ?_, rfl⟩
            exact (setStream_other _ k _ hj).trans (setStream_other s k _ hj)
          · rw [eventsOn_record _ _ rfl]
            refine (List.map_append).trans ?_
            rw [List.length_append, List.length_singleton, List.range_succ]
            congr 1
            · exact h.numbers k
            · show [(s.camera.connections k).received - 1] = [(s.eventsOn k).length]
              rw [hlength, Nat.add_sub_cancel]
          · intro _ _
            rw [eventsOn_record _ _ rfl, List.length_append, record_streams, setStream_streams,
              setStream_streams]
            exact ⟨⟨half, hrest, hphase⟩, hlength⟩
      · exact h.close k _
  · exact h.close k _

/-- The server's steps keep the order. -/
theorem inOrder_server (h : InOrder s) (he : ∀ event, e ≠ .client event)
    (hstep : s.step J env e = some (s', out)) : InOrder s' := by
  cases e with
  | client event => exact absurd rfl (he event)
  | serve k session dateNow now =>
      obtain ⟨⟨hk, hopen⟩, hmatch⟩ := Option.ite_none_right_eq_some.mp hstep
      split at hmatch
      · cases hmatch
      · next packet rest hfirst =>
          obtain rfl := congrArg Prod.fst (Option.some.inj hmatch)
          cases packet with
          | pong => exact inOrder_skip h hopen hfirst fun half => by cases half <;> rfl
          | connect auth =>
              have hskip := inOrder_skip h hopen hfirst fun half => by cases half <;> rfl
              have hstill : ((s.setStream k { s.streams k with toServer := rest }).streams k).closed
                  = false := by
                rw [setStream_streams]
                exact hopen
              simp only [onPacket]
              split
              · exact hskip.eases (eases_onConnect hstill J env auth session)
              · exact h.close k _
          | descriptor frame ackId => exact inOrder_descriptor J env h hk hopen hfirst
          | attachment frame => exact inOrder_attachment h hk hopen hfirst dateNow now
          | leave => exact h.close k _
  | send k m =>
      obtain ⟨-, heq⟩ := Option.ite_none_right_eq_some.mp hstep
      cases heq
      exact h.eases (eases_put s k m)
  | lost k =>
      obtain ⟨-, heq⟩ := Option.ite_none_right_eq_some.mp hstep
      obtain rfl := congrArg Prod.fst (Option.some.inj heq)
      have hclose : InOrder ((s.setStream k (s.streams k)).close J env k).1 := h.close k _
      rw [setStream, Function.update_eq_self] at hclose
      exact hclose
  | gateway e =>
      obtain ⟨-, hmap⟩ := Option.ite_none_right_eq_some.mp hstep
      obtain ⟨r, -, heq⟩ := Option.map_eq_some_iff.mp hmap
      obtain rfl := congrArg Prod.fst heq
      exact h.eases (eases_withGateway J s r)

/-! ### The client's steps -/

/-- The client reads, or does nothing on the wire. -/
theorem InOrder.quiet (h : InOrder s) (hevents : s'.events = s.events)
    (hstreams : s'.streams = s.streams) (hopened : s'.camera.opened = s.camera.opened)
    (hreceived : ∀ k, (s'.camera.connections k).received = (s.camera.connections k).received)
    {ws : List WireEvent} (hwire : WireStep s.camera.client.phase s'.camera.client.phase ws)
    (hws : ∀ w ∈ ws, w.isOpened = false ∧
      ∀ packet, w ≠ .wrote packet ∧ w ≠ .writeFailed packet) : InOrder s' := by
  have heventsOn : s'.eventsOn = s.eventsOn := by
    funext k
    rw [eventsOn, hevents]
    rfl
  refine ⟨?_, ?_, ?_⟩
  · intro k hk hclosed
    rw [hopened] at hk ⊢
    rw [hstreams] at hclosed ⊢
    obtain ⟨half, hpairing, hphase⟩ := h.paired k hk hclosed
    exact ⟨half, hpairing, fun hlast => half_silent hwire hws (hphase hlast)⟩
  · rw [heventsOn]
    exact h.numbers
  · intro k hk hclosed
    rw [hopened] at hk
    rw [hstreams] at hclosed ⊢
    rw [hreceived, heventsOn]
    exact h.count k hk hclosed

/-- The client opens a connection. -/
theorem InOrder.opens (h : InOrder s) (hl : Linked J env s gh) {client : Application}
    (hphase : client.phase = .opening) :
    InOrder { s.afterWire .opened with
      camera := { s.camera with client := client }.afterWire .opened } := by
  let s₁ : FrameSystem := { s.afterWire .opened with
    camera := { s.camera with client := client }.afterWire .opened }
  have hnew : s₁.camera.connections (s.camera.opened + 1) = {} ∧
      s₁.streams (s.camera.opened + 1) = {} :=
    ⟨Function.update_self .., Function.update_self ..⟩
  have hold : ∀ j, j ≠ s.camera.opened + 1 →
      s₁.camera.connections j = s.camera.connections j ∧ s₁.streams j = s.streams j :=
    fun j hj => ⟨Function.update_of_ne hj .., Function.update_of_ne hj ..⟩
  have hnone : s₁.eventsOn (s.camera.opened + 1) = [] := by
    refine List.filter_eq_nil_iff.mpr fun ev hev heq => ?_
    have hle := hl.opened ev hev
    have hstream := of_decide_eq_true heq
    omega
  refine ⟨?_, h.numbers, ?_⟩
  · intro k hk hclosed
    by_cases hlast : k = s.camera.opened + 1
    · rw [hlast, hnew.2]
      refine ⟨none, rfl, fun _ half hhalf => ?_⟩
      have hclient : s₁.camera.client.phase = .opening := hphase
      rw [hclient] at hhalf
      exact Option.some.inj hhalf
    · rw [(hold k hlast).2] at hclosed ⊢
      have hk : k ≤ s.camera.opened + 1 := hk
      obtain ⟨half, hpairing, -⟩ := h.paired k (by omega) hclosed
      exact ⟨half, hpairing, fun heq => absurd heq hlast⟩
  · intro k hk hclosed
    by_cases hlast : k = s.camera.opened + 1
    · rw [hlast, hnew.1, hnew.2, hnone]
      rfl
    · rw [(hold k hlast).2] at hclosed ⊢
      have hk : k ≤ s.camera.opened + 1 := hk
      rw [(hold k hlast).1]
      exact h.count k (by omega) hclosed

/-- The client writes a packet, or fails to. -/
theorem InOrder.writes (h : InOrder s) {client : Application} {packet : Packet} {w : WireEvent}
    (hwire : WireStep s.camera.client.phase client.phase [w])
    (hw : w = .wrote packet ∨ w = .writeFailed packet) :
    InOrder { s.afterWire (.wrote packet) with
      camera := { s.camera with client := client }.afterWire (.wrote packet) } := by
  let s₁ : FrameSystem := { s.afterWire (.wrote packet) with
    camera := { s.camera with client := client }.afterWire (.wrote packet) }
  have hreceived : ∀ j, (s₁.camera.connections j).received =
      (s.camera.connections j).received := by
    intro j
    by_cases hj : j = s.camera.opened
    · rw [hj]
      refine (congrArg Connection.received (Function.update_self ..)).trans ?_
      cases packet <;> rfl
    · exact congrArg Connection.received (Function.update_of_ne hj ..)
  have hstream : s₁.streams s.camera.opened = { s.streams s.camera.opened with
      toServer := (s.streams s.camera.opened).toServer ++ [packet] } :=
    Function.update_self ..
  have hothers : ∀ j, j ≠ s.camera.opened → s₁.streams j = s.streams j :=
    fun j hj => Function.update_of_ne hj ..
  have hclient : s₁.camera.client = client := by
    cases packet <;> rfl
  refine ⟨?_, h.numbers, ?_⟩
  · intro k hk hclosed
    by_cases hlast : k = s.camera.opened
    · rw [hlast, hstream] at hclosed
      obtain ⟨half, hpairing, hphase⟩ := h.paired _ le_rfl hclosed
      obtain ⟨mid, hmid, hphase'⟩ := pairStep_wire hwire hw (hphase rfl)
      rw [hlast, hstream, hclient]
      refine ⟨mid, ?_, fun _ => hphase'⟩
      refine (pairing_concat _ _ packet).trans ?_
      rw [← hmid, ← hpairing]
      rfl
    · rw [hothers k hlast] at hclosed ⊢
      have hk : k ≤ s.camera.opened := hk
      obtain ⟨half, hpairing, -⟩ := h.paired k hk hclosed
      exact ⟨half, hpairing, fun heq => absurd heq hlast⟩
  · intro k hk hclosed
    have hk : k ≤ s.camera.opened := hk
    rw [hreceived]
    by_cases hlast : k = s.camera.opened
    · rw [hlast, hstream] at hclosed ⊢
      exact h.count _ le_rfl hclosed
    · rw [hothers k hlast] at hclosed ⊢
      exact h.count k hk hclosed

theorem inOrder_client (h : InOrder s) (hl : Linked J env s gh)
    (hs : AckSystem.Answering s.camera) {e : Application.Event}
    (hstep : s.step J env (.client e) = some (s', out)) : InOrder s' := by
  obtain ⟨⟨camera, o⟩, hcamera, heq⟩ := Option.map_eq_some_iff.mp hstep
  obtain rfl := congrArg Prod.fst heq
  obtain ⟨r, -, hclient, hcases⟩ := AckSystem.client_cases hcamera
  obtain ⟨-, hwire⟩ := Application.step_wire hs.placed hclient
  rcases hcases with ⟨hnone, rfl, -⟩ | ⟨w, hone, rfl, -⟩
  · rw [hnone] at hwire ⊢
    exact h.quiet rfl rfl rfl (fun _ => rfl) hwire nofun
  · rw [hone] at hwire ⊢
    -- a read takes a message from the connection
    have hreceived : ∀ c : Connection, c.received = s.camera.current.received → ∀ k,
        ((({ s.camera with client := r.1 } : AckSystem).setConnection s.camera.opened c).connections
          k).received = (s.camera.connections k).received := by
      intro c hc k
      by_cases hk : k = s.camera.opened
      · rw [hk]
        exact (congrArg Connection.received (Function.update_self ..)).trans hc
      · exact congrArg Connection.received (Function.update_of_ne hk ..)
    cases w with
    | opened => exact h.opens hl (wireStep_opened hwire)
    | wrote packet => exact h.writes hwire (.inl rfl)
    | writeFailed packet => cases packet <;> exact h.writes hwire (.inr rfl)
    | read m | readFailed =>
        refine h.quiet rfl rfl rfl (hreceived _ rfl) hwire fun w hw => ?_
        obtain rfl := List.mem_singleton.mp hw
        exact ⟨rfl, fun _ => ⟨nofun, nofun⟩⟩

theorem inOrder_start (config : Client.Config) : InOrder (initial config) where
  paired _ _ _ := ⟨none, rfl, fun _ _ h => nomatch h⟩
  numbers _ := rfl
  count _ _ _ := rfl

/-! ## Answers reach their connections -/

/-- What the gateway has answered has gone out, on a connection that was not closed. -/
def Heard (J : AckJson) (s : FrameSystem) (gh : List CameraGateway.Output) : Prop :=
  ∀ ev ∈ s.events, (s.streams ev.stream).closed = false → ∀ a, (ev.tag, a) ∈ acks gh →
    (ev.number, J.arguments a) ∈ (s.camera.connections ev.stream).answered

theorem Heard.mono (h : Heard J s gh) (hevents : s'.events = s.events)
    (hclosed : ∀ ev ∈ s.events, (s'.streams ev.stream).closed = false →
      (s.streams ev.stream).closed = false)
    (hanswered : ∀ ev ∈ s.events, ∀ x ∈ (s.camera.connections ev.stream).answered,
      x ∈ (s'.camera.connections ev.stream).answered) : Heard J s' gh := by
  intro ev hev hopen a ha
  rw [hevents] at hev
  exact hanswered ev hev _ (h ev hev (hclosed ev hev hopen) a ha)

theorem heard_setStream (h : Heard J s gh) (k : Nat) (st : Stream)
    (hclosed : st.closed = false → (s.streams k).closed = false) :
    Heard J (s.setStream k st) gh := by
  refine h.mono rfl (fun ev _ hopen => ?_) fun _ _ _ hx => hx
  by_cases hk : ev.stream = k
  · rw [hk, setStream_streams] at hopen
    rw [hk]
    exact hclosed hopen
  · rw [setStream_other s k st hk] at hopen
    exact hopen

theorem heard_setConnection (h : Heard J s gh) (k : Nat) (c : Connection)
    (hanswered : ∀ x ∈ (s.camera.connections k).answered, x ∈ c.answered) :
    Heard J (s.setConnection k c) gh := by
  refine h.mono rfl (fun _ _ hopen => hopen) fun ev _ x hx => ?_
  by_cases hk : ev.stream = k
  · rw [hk] at hx
    rw [hk, setConnection_connections]
    exact hanswered x hx
  · rw [setConnection_other s k c hk]
    exact hx

theorem gatewayOutputs_acknowledge (J : AckJson) (s : FrameSystem)
    (out : List CameraGateway.Output) : gatewayOutputs (s.acknowledge J out).2 = [] := by
  rw [acknowledge]
  split
  · rfl
  · split
    · rfl
    · split <;> rfl

theorem gatewayOutputs_withGateway (J : AckJson) (s : FrameSystem)
    (r : CameraGateway × List CameraGateway.Output) :
    gatewayOutputs (s.withGateway J r).2 = r.2 := by
  rw [withGateway, gatewayOutputs_append, gatewayOutputs_map_gateway, gatewayOutputs_acknowledge,
    List.append_nil]

/-- The answer of a step of the gateway goes out. -/
theorem Heard.withGateway (h : Heard J s gh)
    (htags : ∀ ev ∈ s.events, ∀ ev' ∈ s.events, ev.tag = ev'.tag → ev = ev')
    {r : CameraGateway × List CameraGateway.Output}
    (hone : acks r.2 = [] ∨ ∃ tag a, acks r.2 = [(tag, a)]) :
    Heard J (s.withGateway J r).1 (gh ++ r.2) := by
  rw [FrameSystem.withGateway, acknowledge]
  rcases hone with hnone | ⟨tag, a, hack⟩
  · intro ev hev hopen a ha
    rw [CameraGateway.acks_append, hnone, List.append_nil] at ha
    simp only [hnone, List.head?_nil] at hev hopen ⊢
    exact h ev hev hopen a ha
  · simp only [hack, List.head?_cons]
    -- an answer is an old one, or the one of this step
    have hcases : ∀ {t : FrameTag} {b : Server.FrameAck}, (t, b) ∈ acks (gh ++ r.2) →
        (t, b) ∈ acks gh ∨ t = tag ∧ b = a := by
      intro t b hmem
      rw [CameraGateway.acks_append, hack] at hmem
      rcases List.mem_append.mp hmem with hold | hnew
      · exact .inl hold
      · exact .inr (Prod.mk.inj (List.mem_singleton.mp hnew))
    cases hfind : s.events.find? fun ev => decide (ev.tag = tag) with
    | none =>
        intro ev hev hopen b hb
        rcases hcases hb with hold | ⟨htag, -⟩
        · exact h ev hev hopen b hold
        · exact absurd htag (of_decide_eq_false
            (Bool.eq_false_of_not_eq_true (List.find?_eq_none.mp hfind ev hev)))
    | some ev₀ =>
        have hev₀ := List.mem_of_find?_eq_some hfind
        have htag₀ : ev₀.tag = tag := of_decide_eq_true (List.find?_some hfind :)
        cases hclosed : (s.streams ev₀.stream).closed with
        | true =>
            simp only [hclosed, if_true]
            intro ev hev hopen b hb
            rcases hcases hb with hold | ⟨htag, -⟩
            · exact h ev hev hopen b hold
            · obtain rfl := htags ev hev ev₀ hev₀ (htag.trans htag₀.symm)
              exact absurd (hopen.symm.trans hclosed) Bool.false_ne_true
        | false =>
            simp only [hclosed, Bool.false_eq_true, if_false]
            intro ev hev hopen b hb
            show _ ∈ ((putAck _ ev₀ (J.arguments a)).camera.connections ev.stream).answered
            rcases hcases hb with hold | ⟨htag, rfl⟩
            · have hmem := h ev hev hopen b hold
              by_cases hk : ev.stream = ev₀.stream
              · rw [hk] at hmem ⊢
                rw [putAck, setConnection_connections]
                exact List.mem_cons_of_mem _ hmem
              · rw [putAck, setConnection_other _ _ _ hk]
                exact hmem
            · obtain rfl := htags ev hev ev₀ hev₀ (htag.trans htag₀.symm)
              rw [putAck, setConnection_connections]
              exact List.mem_cons_self

theorem acks_one (hl : Linked J env s gh) {e : CameraGateway.Event}
    {r : CameraGateway × List CameraGateway.Output} (hstep : s.gateway.step env e = some r) :
    acks r.2 = [] ∨ ∃ tag a, acks r.2 = [(tag, a)] := by
  rcases acks_step hl hstep with hnone | ⟨tag, a, hack, -⟩
  · exact .inl hnone
  · exact .inr ⟨tag, a, hack⟩

theorem heard_close (h : Heard J s gh) (hl : Linked J env s gh) (k : Nat) :
    Heard J (s.close J env k).1 (gh ++ gatewayOutputs (s.close J env k).2) := by
  have hclosed : Heard J (s.setStream k { s.streams k with closed := true }) gh :=
    heard_setStream h k _ nofun
  simp only [FrameSystem.close]
  split
  · next r hstep =>
      obtain ⟨sid, -, hsid⟩ := Option.bind_eq_some_iff.mp hstep
      rw [gatewayOutputs_withGateway]
      exact hclosed.withGateway hl.tags (acks_one hl hsid)
  · rw [show gatewayOutputs [] = [] from rfl, List.append_nil]
    exact hclosed

theorem heard_onConnect (h : Heard J s gh) (hl : Linked J env s gh)
    (hopen : (s.streams k).closed = false) (auth : AuthJson) (session : Bytes) :
    Heard J (s.onConnect J env k auth session).1
      (gh ++ gatewayOutputs (s.onConnect J env k auth session).2) := by
  have hput : Heard J (s.put k (approval session)) gh :=
    heard_setConnection h k _ fun _ hx => hx
  have hone := acks_one hl (e := .connect (handshake auth)) rfl
  simp only [onConnect]
  rw [gatewayOutputs_withGateway]
  refine Heard.withGateway ?_ ?_ hone
  · split
    · exact heard_setConnection (heard_setStream hput k _ fun _ => hopen) k _ fun _ hx => hx
    · exact heard_setStream hput k _ fun _ => hopen
  · split <;> exact hl.tags

theorem heard_onAttachment (h : Heard J s gh) (hl : Linked J env s gh) (hk : k ≤ s.camera.opened)
    (attachment : Frame) (dateNow now : Int) :
    Heard J (s.onAttachment J env k attachment dateNow now).1
      (gh ++ gatewayOutputs (s.onAttachment J env k attachment dateNow now).2) := by
  simp only [onAttachment]
  split
  · next frame ackId sid hhalf hsid =>
      split
      · next socket r hsocket hstep =>
          have hlinked := linked_arrival hl hk hhalf hsocket hstep
          show Heard J _ (gh ++ gatewayOutputs (FrameSystem.withGateway J _ r).2)
          rw [gatewayOutputs_withGateway]
          refine Heard.withGateway ?_ hlinked.tags (acks_one hl hstep)
          intro ev hev hopen a ha
          have hclosed : Heard J (s.setStream k { s.streams k with descriptor := none }) gh :=
            heard_setStream h k _ id
          rcases List.mem_append.mp hev with hold | hnew
          · exact hclosed ev hold hopen a ha
          · -- the invocation has just started
            obtain rfl := List.mem_singleton.mp hnew
            obtain ⟨es, hes⟩ := hl.run
            have hanswered := CameraGateway.answered_run hes
            have harrived : s.gateway.nextTag sid socket ∈ arrivals gh :=
              hanswered.perm.mem_iff.mpr (List.mem_append_left _ (List.mem_map_of_mem ha))
            have hlt := hanswered.numbered _ harrived
            exact absurd hlt (Nat.lt_irrefl _)
      · exact heard_close h hl k
  · exact heard_close h hl k

theorem heard_server (h : Heard J s gh) (hl : Linked J env s gh) (he : ∀ event, e ≠ .client event)
    (hstep : s.step J env e = some (s', out)) : Heard J s' (gh ++ gatewayOutputs out) := by
  have hquiet : ∀ s₁, Heard J s₁ gh → Heard J s₁ (gh ++ gatewayOutputs []) := by
    intro s₁ h₁
    rw [show gatewayOutputs [] = [] from rfl, List.append_nil]
    exact h₁
  cases e with
  | client event => exact absurd rfl (he event)
  | serve k session dateNow now =>
      obtain ⟨⟨hk, hopen⟩, hmatch⟩ := Option.ite_none_right_eq_some.mp hstep
      split at hmatch
      · cases hmatch
      · next packet rest hfirst =>
          have hmoved : Heard J (s.setStream k { s.streams k with toServer := rest }) gh :=
            heard_setStream h k _ id
          have hlinked (hpacket : descriptorOf packet = none) :
              Linked J env (s.setStream k { s.streams k with toServer := rest }) gh := by
            have hserved := served_setStream hl k { s.streams k with toServer := rest }
              (by rw [hfirst, List.filterMap_cons_none hpacket]) (.inr rfl)
            simpa [gatewayOutputs] using hserved.linked
          have hstill : ((s.setStream k { s.streams k with toServer := rest }).streams k).closed =
              false := by
            rw [setStream_streams]
            exact hopen
          cases packet with
          | pong =>
              cases hmatch
              exact hquiet _ hmoved
          | connect auth =>
              simp only [onPacket] at hmatch
              split at hmatch
              · have hserved := heard_onConnect hmoved (hlinked rfl) hstill auth session
                rw [Option.some.inj hmatch] at hserved
                exact hserved
              · have hserved := heard_close hmoved (hlinked rfl) k
                rw [Option.some.inj hmatch] at hserved
                exact hserved
          | descriptor frame ackId =>
              cases hmatch
              refine hquiet _ (heard_setStream ?_ k _ ?_)
              · exact heard_setConnection hmoved k _ fun _ hx => hx
              · exact id
          | attachment frame =>
              have hserved := heard_onAttachment hmoved (hlinked rfl) hk frame dateNow now
              rw [show FrameSystem.onAttachment J env _ k frame dateNow now = (s', out) from
                Option.some.inj hmatch] at hserved
              exact hserved
          | leave =>
              have hserved := heard_close hmoved (hlinked rfl) k
              rw [show FrameSystem.close J env _ k = (s', out) from
                Option.some.inj hmatch] at hserved
              exact hserved
  | send k m =>
      obtain ⟨-, heq⟩ := Option.ite_none_right_eq_some.mp hstep
      cases heq
      exact hquiet _ (heard_setConnection h k _ fun _ hx => hx)
  | lost k =>
      obtain ⟨-, heq⟩ := Option.ite_none_right_eq_some.mp hstep
      have hclose := heard_close h hl k
      rw [Option.some.inj heq] at hclose
      exact hclose
  | gateway e =>
      obtain ⟨-, hmap⟩ := Option.ite_none_right_eq_some.mp hstep
      obtain ⟨r, hr, heq⟩ := Option.map_eq_some_iff.mp hmap
      have hserved := h.withGateway hl.tags (acks_one hl hr)
      rw [← gatewayOutputs_withGateway J s r, heq] at hserved
      exact hserved

theorem heard_client (h : Heard J s gh) (hl : Linked J env s gh) {e : Application.Event}
    (hstep : s.step J env (.client e) = some (s', out)) :
    Heard J s' (gh ++ gatewayOutputs out) := by
  obtain ⟨⟨camera, o⟩, hcamera, heq⟩ := Option.map_eq_some_iff.mp hstep
  obtain ⟨rfl, rfl⟩ := Prod.mk.inj heq
  rw [gatewayOutputs_map_link, List.append_nil]
  obtain ⟨r, -, -, hcases⟩ := AckSystem.client_cases hcamera
  rcases hcases with ⟨hnone, rfl, -⟩ | ⟨w, hone, rfl, -⟩
  · rw [hnone]
    exact h.mono rfl (fun _ _ hopen => hopen) fun _ _ _ hx => hx
  · rw [hone]
    -- the connections of the events are not opened again, and none is closed
    refine h.mono (by cases w <;> rfl) (fun ev hev hopen => ?_) fun ev hev x hx => ?_
    · have hle := hl.opened ev hev
      cases w with
      | opened =>
          have hold : (s.afterWire .opened).streams ev.stream = s.streams ev.stream :=
            setStream_other s _ {} (by omega)
          exact (congrArg Stream.closed hold).symm.trans hopen
      | wrote packet | writeFailed packet =>
          by_cases hk : ev.stream = s.camera.opened
          · have hself : (s.afterWire (.wrote packet)).streams s.camera.opened =
                { s.streams s.camera.opened with
                  toServer := (s.streams s.camera.opened).toServer ++ [packet] } :=
              setStream_streams s _ _
            rw [hk] at hopen ⊢
            exact (congrArg Stream.closed hself).symm.trans hopen
          · have hold : (s.afterWire (.wrote packet)).streams ev.stream = s.streams ev.stream :=
              setStream_other s _ _ hk
            exact (congrArg Stream.closed hold).symm.trans hopen
      | read m | readFailed => exact hopen
    · have hrecorded := (AckSystem.recorded_afterWire (s := { s.camera with client := r.1 }) w
        ev.stream x.1 x.2).mpr ⟨hl.opened ev hev, hx⟩
      exact hrecorded.2

/-! ## Whole runs -/

structure Flowing (J : AckJson) (env : Env) (c : EventMachine.Config FrameSystem Output) :
    Prop where
  good : Good J env c
  inOrder : InOrder c.state
  heard : Heard J c.state (gatewayOutputs c.history)

theorem flowing_next {c c' : EventMachine.Config FrameSystem Output} (hc : Flowing J env c)
    (hnext : (machine J env).next c e = some c') : Flowing J env c' := by
  obtain ⟨out, hstep, hhist⟩ := next_eq_some hnext
  by_cases he : ∃ event, e = .client event
  · obtain ⟨event, rfl⟩ := he
    refine ⟨good_next hc.good hnext, ?_, ?_⟩
    · exact inOrder_client hc.inOrder hc.good.linked hc.good.reported.1 hstep
    · rw [hhist, gatewayOutputs_append]
      exact heard_client hc.heard hc.good.linked hstep
  · have he : ∀ event, e ≠ .client event := fun event heq => he ⟨event, heq⟩
    refine ⟨good_next hc.good hnext, inOrder_server hc.inOrder he hstep, ?_⟩
    rw [hhist, gatewayOutputs_append]
    exact heard_server hc.heard hc.good.linked he hstep

theorem flowing_run (hrun : (machine J env).exec (.start (initial config)) es = some cfg) :
    Flowing J env cfg :=
  exec_invariant (fun _ _ _ => flowing_next)
    ⟨good_start J env config, inOrder_start config, fun _ hev => nomatch hev⟩ hrun

/-- The client's side of a run. -/
theorem client_run (hrun : (machine J env).exec (.start (initial config)) es = some cfg) :
    ∃ fs, (AckSystem.machine J.parse).exec (.start ⟨{ config := config }, 0, fun _ => {}⟩) fs =
      some ⟨cfg.state.camera, links cfg.history⟩ := by
  obtain ⟨fs, d, hfs, -, rfl⟩ :=
    (ackSimulation J env).exec (d := .start (initial config).camera)
      ⟨good_start J env config, rfl⟩ hrun
  exact ⟨fs, hfs⟩

/-! ### The order of the frames -/

/-- What has reached `onFrame` on connection `k`, in order: the numbers and the frames. -/
def arrivedOn (h : List Output) (k : Nat) : List (Nat × Frame) :=
  (deliveries h).filterMap fun d => if d.1 = k then some (d.2.1, d.2.2.1) else none

theorem arrivedOn_eq {c : EventMachine.Config FrameSystem Output} (hc : Good J env c) (k : Nat) :
    arrivedOn c.history k = (c.state.eventsOn k).map fun ev => (ev.number, ev.frame) := by
  rw [arrivedOn, ← hc.delivered, List.filterMap_map, eventsOn]
  induction c.state.events with
  | nil => rfl
  | cons ev rest ih =>
      by_cases hk : ev.stream = k <;> simp_all [FrameEvent.delivery, Function.comp_def]

/-- A list whose entries are those of `l` at their own numbers is a beginning of `l`. -/
theorem prefix_of_numbered {β : Type*} {numbered : List (Nat × β)} {l : List β}
    (hnumbers : numbered.map Prod.fst = List.range numbered.length)
    (hget : ∀ x ∈ numbered, l[x.1]? = some x.2) : numbered.map Prod.snd <+: l := by
  have hnumber : ∀ (n : Nat) (x : Nat × β), numbered[n]? = some x → x.1 = n := by
    intro n x hx
    have hlt := (List.getElem?_eq_some_iff.mp hx).1
    have hmap : (numbered.map Prod.fst)[n]? = some x.1 := by rw [List.getElem?_map, hx]; rfl
    rw [hnumbers, List.getElem?_range hlt] at hmap
    exact (Option.some.inj hmap).symm
  refine List.prefix_iff_getElem?.mpr fun n hn => ?_
  rw [List.length_map] at hn
  have hx : numbered[n]? = some numbered[n] := List.getElem?_eq_getElem hn
  have hentry := hget _ (List.getElem_mem hn)
  rw [hnumber n _ hx] at hentry
  rw [hentry, List.getElem_map]

/-- On each connection the first descriptors arrive, numbered without gaps. -/
theorem arrivedOn_numbered {c : EventMachine.Config FrameSystem Output} (hc : Flowing J env c)
    (k : Nat) :
    (arrivedOn c.history k).map Prod.fst = List.range (arrivedOn c.history k).length ∧
      (arrivedOn c.history k).map Prod.snd <+:
        (c.state.camera.connections k).descriptors.map Prod.fst := by
  have hnumbers : (arrivedOn c.history k).map Prod.fst =
      List.range (arrivedOn c.history k).length := by
    rw [arrivedOn_eq hc.good, List.map_map, List.length_map]
    exact hc.inOrder.numbers k
  refine ⟨hnumbers, prefix_of_numbered hnumbers fun x hx => ?_⟩
  rw [arrivedOn_eq hc.good] at hx
  obtain ⟨ev, hev, rfl⟩ := List.mem_map.mp hx
  obtain ⟨hmem, hstream⟩ := List.mem_filter.mp hev
  have hdescriptor := hc.good.linked.descriptor ev hmem
  rw [of_decide_eq_true hstream] at hdescriptor
  rw [List.getElem?_map, hdescriptor]
  rfl

/-- What arrives, over all connections, has been sent in this order. -/
theorem arrived_calls
    (hrun : (machine J env).exec (.start (initial config)) es = some cfg) :
    ((List.range (cfg.state.camera.opened + 1)).flatMap fun k =>
      (arrivedOn cfg.history k).map Prod.snd).Sublist (AckSystem.calls (links cfg.history)) := by
  obtain ⟨fs, hfs⟩ := client_run hrun
  refine List.Sublist.trans ?_ (AckSystem.calling_run hfs).once
  exact List.Sublist.flatMap_right _ fun k _ =>
    (arrivedOn_numbered (flowing_run hrun) k).2.sublist

/-- **Frames arrive in order.** On each connection the frames that reach `onFrame` are the
    first ones that have been written to it, numbered without gaps; and taken over all
    connections every frame belongs to a call of `send_frame` of its own, in the order of
    the calls. -/
theorem frames_arrive_in_order
    (hrun : (machine J env).exec (.start (initial config)) es = some cfg) :
    (∀ k, (arrivedOn cfg.history k).map Prod.fst = List.range (arrivedOn cfg.history k).length ∧
      (arrivedOn cfg.history k).map Prod.snd <+:
        (cfg.state.camera.connections k).descriptors.map Prod.fst) ∧
    ((List.range (cfg.state.camera.opened + 1)).flatMap fun k =>
      (arrivedOn cfg.history k).map Prod.snd).Sublist (AckSystem.calls (links cfg.history)) :=
  ⟨arrivedOn_numbered (flowing_run hrun), arrived_calls hrun⟩

/-- In the run of one frame it arrives as number 0 of connection 1. -/
theorem oneFrame_arrives : ∃ cfg,
    (machine sampleJson CameraSystem.keyEnv).exec (.start (initial keyConfig)) oneFrame =
      some cfg ∧ arrivedOn cfg.history 1 = [(0, keyFrame)] ∧
      ((List.range (cfg.state.camera.opened + 1)).flatMap fun k =>
        (arrivedOn cfg.history k).map Prod.snd).Sublist (AckSystem.calls (links cfg.history)) := by
  have hany : ((machine sampleJson CameraSystem.keyEnv).exec (.start (initial keyConfig))
      oneFrame).any (fun cfg => arrivedOn cfg.history 1 = [(0, keyFrame)]) = true := by
    decide +kernel
  obtain ⟨cfg, hrun, harrived⟩ := (Option.any_eq_true _ _).mp hany
  exact ⟨cfg, hrun, of_decide_eq_true harrived, (frames_arrive_in_order hrun).2⟩

/-! ### What the client waits for -/

/-- The client has written a frame and reads on for its ACK, or answers a ping first. -/
def Waiting (p : Client.Phase) (frame : Frame) (ackId : UInt64) : Prop :=
  p = .listening (some (frame, ackId)) ∨ p = .ponging (some (frame, ackId))

theorem Waiting.outstanding {p : Client.Phase} {frame : Frame} {ackId : UInt64}
    (h : Waiting p frame ackId) :
    p.outstanding = some (frame, ackId) ∧ Phase.half p = some none := by
  rcases h with rfl | rfl <;> exact ⟨rfl, rfl⟩

/-- The invocation that a frame has started, the last one on the connection. -/
structure Started (s : FrameSystem) (frame : Frame) (ackId : UInt64) (ev : FrameEvent) : Prop where
  event : ev ∈ s.events
  stream : ev.stream = s.camera.opened
  last : ev.number + 1 = s.camera.current.descriptors.length
  frame : ev.frame = frame
  ackId : ev.ackId = ackId

/-- If the server has read everything, the last frame has reached `onFrame`. -/
theorem started_of_read {c : EventMachine.Config FrameSystem Output} (hc : Flowing J env c)
    {frame : Frame} {ackId : UInt64} (hwait : Waiting c.state.camera.client.phase frame ackId)
    (hopen : (c.state.streams c.state.camera.opened).closed = false)
    (hread : (c.state.streams c.state.camera.opened).toServer = []) :
    ∃ ev, Started c.state frame ackId ev := by
  obtain ⟨hout, hnone⟩ := hwait.outstanding
  obtain ⟨before, hdescriptors, -, -⟩ := hc.good.reported.1.correlated.sent frame ackId hout
  -- all descriptors are read
  have hqueue := hc.good.linked.queue _ le_rfl
  rw [hread, List.filterMap_nil, List.drop_eq_nil_iff] at hqueue
  have hle : (c.state.camera.connections c.state.camera.opened).received ≤
      (c.state.camera.connections c.state.camera.opened).descriptors.length :=
    (hc.good.reported.1.sound c.state.camera.opened).received
  -- no descriptor waits for its attachment
  obtain ⟨half, hpairing, hphase⟩ := hc.inOrder.paired _ le_rfl hopen
  rw [hread] at hpairing
  have hhalf : (c.state.streams c.state.camera.opened).half = none :=
    (Option.some.inj hpairing).trans (hphase rfl none hnone)
  have hdescriptor : (c.state.streams c.state.camera.opened).descriptor = none :=
    Option.map_eq_none_iff.mp hhalf
  have hcount := hc.inOrder.count _ le_rfl hopen
  rw [hdescriptor, show (none : Option (Frame × UInt64)).toList.length = 0 from rfl,
    Nat.add_zero] at hcount
  have hlength : c.state.camera.current.descriptors.length =
      (c.state.eventsOn c.state.camera.opened).length := by
    rw [AckSystem.current]
    omega
  have hbefore : c.state.camera.current.descriptors.length = before.length + 1 := by
    rw [hdescriptors, List.length_append, List.length_singleton]
  -- the event with the last number
  have hmem : before.length ∈
      (c.state.eventsOn c.state.camera.opened).map FrameEvent.number := by
    rw [hc.inOrder.numbers, List.mem_range]
    omega
  obtain ⟨ev, hev, hnumber⟩ := List.mem_map.mp hmem
  obtain ⟨hevent, hstream⟩ := List.mem_filter.mp hev
  have hstream := of_decide_eq_true hstream
  have hget := hc.good.linked.descriptor ev hevent
  rw [hstream, hnumber] at hget
  have hlast : (c.state.camera.connections c.state.camera.opened).descriptors[before.length]? =
      some (frame, ackId) := by
    rw [show c.state.camera.connections c.state.camera.opened = c.state.camera.current from rfl,
      hdescriptors, List.getElem?_concat_length]
  obtain ⟨hframe, hackId⟩ := Prod.mk.inj (Option.some.inj (hget.symm.trans hlast))
  exact ⟨ev, hevent, hstream, by omega, hframe, hackId⟩

theorem client_kept (hrun : (machine J env).exec (.start (initial config)) es = some cfg) :
    AckSystem.Kept cfg.state.camera := by
  obtain ⟨fs, hfs⟩ := client_run hrun
  exact AckSystem.kept_run hfs

/-- What the invocation has returned is on the connection until the client reads it. -/
theorem ack_underway {c : EventMachine.Config FrameSystem Output} (hc : Flowing J env c)
    {frame : Frame} {ackId : UInt64} (hwait : Waiting c.state.camera.client.phase frame ackId)
    {ev : FrameEvent} (hev : Started c.state frame ackId ev)
    (hopen : (c.state.streams c.state.camera.opened).closed = false)
    (hkept : AckSystem.Kept c.state.camera) {a : Server.FrameAck}
    (ha : (ev.tag, a) ∈ acks (gatewayOutputs c.history)) :
    ∃ d ∈ c.state.camera.current.toClient, d.message = ackPacket ackId (J.arguments a) := by
  have hanswered : (ev.number, J.arguments a) ∈ c.state.camera.current.answered := by
    have hheard := hc.heard ev hev.event (hev.stream ▸ hopen) a ha
    rwa [hev.stream] at hheard
  have hlast : c.state.camera.current.descriptors.length - 1 = ev.number := by
    have hnumber := hev.last
    omega
  have hunderway := hkept.waits _ hwait.outstanding.1
    (hlast ▸ List.mem_map_of_mem (f := Prod.fst) hanswered)
  rw [hlast] at hunderway
  obtain ⟨d, hd, hanswers⟩ := List.mem_filterMap.mp hunderway
  have hsound := hc.good.reported.1.sound c.state.camera.opened
  obtain ⟨frame', ackId', arguments, hdescriptor, hother, -, hmessage⟩ :=
    hsound.acks d hd ev.number hanswers
  -- the message is that of this descriptor, and the answer is the only one
  have hget := hc.good.linked.descriptor ev hev.event
  rw [hev.stream] at hget
  obtain ⟨-, rfl⟩ := Prod.mk.inj (Option.some.inj (hdescriptor.symm.trans hget))
  have hsame := List.inj_on_of_nodup_map hsound.once hother hanswered rfl
  obtain ⟨-, rfl⟩ := Prod.mk.inj hsame
  rw [hev.ackId] at hmessage
  exact ⟨d, hd, hmessage⟩

/-- When the server has read everything, the invocation waits, or its ACK is on its way. -/
theorem underway_of_read
    (hrun : (machine J env).exec (.start (initial config)) es = some cfg) {frame : Frame}
    {ackId : UInt64} (hwait : Waiting cfg.state.camera.client.phase frame ackId)
    (hopen : (cfg.state.streams cfg.state.camera.opened).closed = false)
    (hread : (cfg.state.streams cfg.state.camera.opened).toServer = []) :
    ∃ ev, Started cfg.state frame ackId ev ∧
      (ev.tag ∈ CameraGateway.waiting cfg.state.gateway ∨
        ∃ a, .gateway (.ack ev.tag a) ∈ cfg.history ∧
          ∃ d ∈ cfg.state.camera.current.toClient,
            d.message = ackPacket ackId (J.arguments a)) := by
  have hflow := flowing_run hrun
  obtain ⟨ev, hev⟩ := started_of_read hflow hwait hopen hread
  refine ⟨ev, hev, ?_⟩
  obtain ⟨gs, hgs⟩ := hflow.good.linked.run
  have harrived := (CameraGateway.answered_run hgs).perm.mem_iff.mp
    (hflow.good.linked.arrived ev hev.event)
  rcases List.mem_append.mp harrived with hacked | hwaiting
  · right
    obtain ⟨⟨tag, a⟩, ha, rfl⟩ := List.mem_map.mp hacked
    refine ⟨a, mem_gatewayOutputs.mp (CameraGateway.mem_acks.mp ha), ?_⟩
    exact ack_underway hflow hwait hev hopen (client_kept hrun) ha
  · exact .inl hwaiting

/-- **An ACK is under way.** While `send_frame` waits for the ACK of a frame on a connection
    that the server has not closed, there are packets that the server has not read, or the
    invocation of `onFrame` for this frame waits for the vision service, or the ACK with
    what this invocation has returned is on its way to the client. -/
theorem ack_is_under_way
    (hrun : (machine J env).exec (.start (initial config)) es = some cfg) {frame : Frame}
    {ackId : UInt64} (hwait : Waiting cfg.state.camera.client.phase frame ackId) :
    (cfg.state.streams cfg.state.camera.opened).closed = true ∨
      (cfg.state.streams cfg.state.camera.opened).toServer ≠ [] ∨
        ∃ ev, Started cfg.state frame ackId ev ∧
          (ev.tag ∈ CameraGateway.waiting cfg.state.gateway ∨
            ∃ a, .gateway (.ack ev.tag a) ∈ cfg.history ∧
              ∃ d ∈ cfg.state.camera.current.toClient,
                d.message = ackPacket ackId (J.arguments a)) := by
  cases hclosed : (cfg.state.streams cfg.state.camera.opened).closed with
  | true => exact .inl rfl
  | false =>
      right
      by_cases hread : (cfg.state.streams cfg.state.camera.opened).toServer = []
      · exact .inr (underway_of_read hrun hwait hclosed hread)
      · exact .inl hread

/-- The client reads on for the ACK of `keyFrame`. -/
def awaitsKey (s : FrameSystem) : Bool :=
  match s.camera.client.phase with
  | .listening (some (frame, ackId)) => frame = keyFrame ∧ ackId = 0
  | _ => false

/-- Before the vision service has answered, the ACK of the one frame is under way. -/
theorem oneFrame_under_way : ∃ cfg,
    (machine sampleJson CameraSystem.keyEnv).exec (.start (initial keyConfig))
      (oneFrame.take 17) = some cfg ∧ Waiting cfg.state.camera.client.phase keyFrame 0 ∧
      ((cfg.state.streams cfg.state.camera.opened).closed = true ∨
        (cfg.state.streams cfg.state.camera.opened).toServer ≠ [] ∨
          ∃ ev, Started cfg.state keyFrame 0 ev ∧
            (ev.tag ∈ CameraGateway.waiting cfg.state.gateway ∨
              ∃ a, .gateway (.ack ev.tag a) ∈ cfg.history ∧
                ∃ d ∈ cfg.state.camera.current.toClient,
                  d.message = ackPacket 0 (sampleJson.arguments a))) := by
  have hany : ((machine sampleJson CameraSystem.keyEnv).exec (.start (initial keyConfig))
      (oneFrame.take 17)).any (fun cfg => awaitsKey cfg.state) = true := by
    decide +kernel
  obtain ⟨cfg, hrun, hawaits⟩ := (Option.any_eq_true _ _).mp hany
  have hwait : Waiting cfg.state.camera.client.phase keyFrame 0 := by
    rw [awaitsKey] at hawaits
    split at hawaits
    · next frame ackId hphase =>
        obtain ⟨rfl, rfl⟩ := of_decide_eq_true hawaits
        exact .inl hphase
    · cases hawaits
  exact ⟨cfg, hrun, hwait, ack_is_under_way hrun hwait⟩

end FrameSystem

end CameraStream.Link
