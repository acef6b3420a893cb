/-
  CameraStream.Client.WireDiscipline

  What `SocketIoClient` writes on one WebSocket, over whole runs of
  `Application::run`.

  `Phase` is the protocol of one WebSocket as the client lives it, and `WireStep`
  its transitions, labelled with what is read and written.  `step_wire` shows that
  the application follows it: every step of the code, failures included, is a
  transition between the phases of the states before and after.  The order of
  packets on a WebSocket (`WireLaw`) is then a property of the protocol alone.
  `traffic_step` ties what is seen there to the outputs of the application.
-/

import CameraStream.Client.ApplicationSteps

namespace CameraStream.Client

open EventMachine Application

/-! ## The protocol of one WebSocket -/

/-- A packet with the frame it belongs to. -/
inductive Packet where
  | connect (auth : AuthJson)
  | pong
  | descriptor (frame : Frame) (ackId : UInt64)
  | attachment (frame : Frame)
  | leave
  deriving DecidableEq

/-- The packet as it is written. -/
def Packet.toClientPacket : Packet → ClientPacket
  | .connect auth => .namespaceConnect auth
  | .pong => .pong
  | .descriptor frame ackId => .frameDescriptor ackId frame.timestampMs
  | .attachment frame => .attachment frame.jpeg
  | .leave => .namespaceDisconnect

inductive WireEvent where
  /-- `socket_` receives a new stream object. -/
  | opened
  | read (message : Message)
  | readFailed
  | wrote (packet : Packet)
  | writeFailed (packet : Packet)
  deriving DecidableEq

/-- What the client is doing with its stream object. -/
inductive Phase where
  /-- `socket_` is null. -/
  | absent
  /-- Up to the Engine.IO open packet. -/
  | opening
  | presenting (auth : AuthJson)
  /-- Reading until the namespace is approved, or until this frame is acknowledged. -/
  | listening (sent : Option (Frame × UInt64))
  /-- Answering a ping in between. -/
  | ponging (sent : Option (Frame × UInt64))
  /-- Authenticated, with the next ACK id. -/
  | ready (nextAckId : UInt64)
  | describing (frame : Frame) (ackId : UInt64)
  | attaching (frame : Frame) (ackId : UInt64)
  /-- Writing the namespace disconnect. -/
  | leaving
  /-- In the closing handshake. -/
  | left

namespace Phase

/-- `authenticated_`. -/
def online : Phase → Bool
  | .ready _ | .describing .. | .attaching .. | .listening (some _) | .ponging (some _) => true
  | _ => false

/-- `socket_ != nullptr`. -/
def present : Phase → Bool
  | .absent => false
  | _ => true

/-- Nothing but the namespace disconnect can be written any more. -/
def ended : Phase → Bool
  | .absent | .leaving | .left => true
  | _ => false

/-- The packet that is being written. -/
def packet : Phase → Option Packet
  | .presenting auth => some (.connect auth)
  | .ponging _ => some .pong
  | .describing frame ackId => some (.descriptor frame ackId)
  | .attaching frame _ => some (.attachment frame)
  | .leaving => some .leave
  | _ => none

/-- The ACK id of the frame that `send_frame` is at. -/
def sentAckId : Phase → Option UInt64
  | .describing _ ackId | .attaching _ ackId | .listening (some (_, ackId))
  | .ponging (some (_, ackId)) => some ackId
  | _ => none

/-- The ACK id that the next descriptor gets. -/
def nextAckId : Phase → Option UInt64
  | .ready ackId | .describing _ ackId => some ackId
  | .attaching _ ackId | .listening (some (_, ackId)) | .ponging (some (_, ackId)) =>
      some (ackId + 1)
  | .absent | .leaving | .left => none
  | _ => some 0

end Phase

/-- How the use of a stream ends, with what is seen of it on the wire. -/
inductive Quits : Phase → List WireEvent → Prop where
  /-- The queue is closed, or the stream has. -/
  | idle (ackId : UInt64) : Quits (.ready ackId) []
  /-- The TCP connection or the upgrade fails. -/
  | unopened : Quits .opening []
  | opening (m : Message) : Quits .opening [.read m]
  | notOpened : Quits .opening [.readFailed]
  | refused (sent : Option (Frame × UInt64)) (m : Message) (hping : m.isPing = false) :
      Quits (.listening sent) [.read m]
  | unread (sent : Option (Frame × UInt64)) : Quits (.listening sent) [.readFailed]
  | unwritten {p : Phase} {packet : Packet} (hpacket : p.packet = some packet)
      (hended : p.ended = false) : Quits p [.writeFailed packet]

/-- The transitions of the protocol. -/
inductive WireStep : Phase → Phase → List WireEvent → Prop where
  | stay (p : Phase) : WireStep p p []
  | opens : WireStep .absent .opening [.opened]
  | greeted (m : Message) (auth : AuthJson) : WireStep .opening (.presenting auth) [.read m]
  | presented (auth : AuthJson) :
      WireStep (.presenting auth) (.listening none) [.wrote (.connect auth)]
  | pinged (sent : Option (Frame × UInt64)) (m : Message) (hping : m.isPing = true) :
      WireStep (.listening sent) (.ponging sent) [.read m]
  | ponged (sent : Option (Frame × UInt64)) :
      WireStep (.ponging sent) (.listening sent) [.wrote .pong]
  | skipped (sent : Option (Frame × UInt64)) (m : Message) (hping : m.isPing = false)
      (hother : ∀ frame ackId, sent = some (frame, ackId) →
        (m.text && m.startsWith (ackHead ackId)) = false) :
      WireStep (.listening sent) (.listening sent) [.read m]
  | approved (m : Message) (happroval : m.isApproval = true) :
      WireStep (.listening none) (.ready 0) [.read m]
  | sends (frame : Frame) (ackId : UInt64) : WireStep (.ready ackId) (.describing frame ackId) []
  | described (frame : Frame) (ackId : UInt64) :
      WireStep (.describing frame ackId) (.attaching frame ackId)
        [.wrote (.descriptor frame ackId)]
  | attached (frame : Frame) (ackId : UInt64) :
      WireStep (.attaching frame ackId) (.listening (some (frame, ackId)))
        [.wrote (.attachment frame)]
  | acked (frame : Frame) (ackId : UInt64) (m : Message)
      (hmatch : (m.text && m.startsWith (ackHead ackId)) = true) :
      WireStep (.listening (some (frame, ackId))) (.ready (ackId + 1)) [.read m]
  | quits {p q : Phase} {out : List WireEvent} (hp : Quits p out)
      (hq : q = .leaving ∨ q = .absent) : WireStep p q out
  | leaves : WireStep .leaving .left [.wrote .leave]
  | cannotLeave : WireStep .leaving .absent [.writeFailed .leave]
  | dropped : WireStep .left .absent []

/-! ## The order of packets -/

def WireEvent.isOpened : WireEvent → Bool
  | .opened => true
  | _ => false

/-- What has happened on the present WebSocket. -/
def current (h : List WireEvent) : List WireEvent := sinceLast WireEvent.isOpened h

/-- The server's approval of the namespace has been read. -/
def Approved (seg : List WireEvent) : Prop := ∃ m, .read m ∈ seg ∧ m.isApproval = true

/-- How many descriptors have been written. -/
def descriptors (seg : List WireEvent) : Nat :=
  seg.countP fun
    | .wrote (.descriptor ..) => true
    | _ => false

/-- The last thing that happened is that a ping was read, not as the open packet. -/
def PingPending (seg : List WireEvent) : Prop :=
  ∃ before m, seg = before ++ [.read m] ∧ m.isPing = true ∧ ∃ m₀, .read m₀ ∈ before

variable {p q : Phase} {seg h : List WireEvent} {o : WireEvent}

@[simp] theorem current_opened : current (h ++ [.opened]) = [] := by
  rw [current, sinceLast_concat]
  rfl

theorem current_concat (ho : o.isOpened = false) : current (h ++ [o]) = current h ++ [o] := by
  rw [current, sinceLast_concat, ho]
  rfl

@[simp] theorem descriptors_nil : descriptors [] = 0 := rfl

theorem descriptors_concat :
    descriptors (seg ++ [o]) =
      descriptors seg + match o with
        | .wrote (.descriptor ..) => 1
        | _ => 0 := by
  rw [descriptors, List.countP_append, descriptors]
  cases o with
  | wrote packet => cases packet <;> rfl
  | _ => rfl

theorem Approved.concat (happroved : Approved seg) : Approved (seg ++ [o]) := by
  obtain ⟨m, hm, happroval⟩ := happroved
  exact ⟨m, List.mem_append_left _ hm, happroval⟩

theorem not_pingPending_nil : ¬ PingPending [] := by
  rintro ⟨before, m, hseg, -⟩
  simp at hseg

theorem pingPending_concat :
    PingPending (seg ++ [o]) ↔
      (∃ m, o = .read m ∧ m.isPing = true) ∧ ∃ m₀, .read m₀ ∈ seg := by
  refine ⟨?_, ?_⟩
  · rintro ⟨before, m, hseg, hping, hfirst⟩
    obtain ⟨rfl, ho⟩ := List.append_inj' hseg rfl
    exact ⟨⟨m, List.singleton_inj.mp ho, hping⟩, hfirst⟩
  · rintro ⟨⟨m, rfl, hping⟩, hfirst⟩
    exact ⟨seg, m, rfl, hping, hfirst⟩

/-- The rules for an event after `seg` on the same WebSocket, or for the next `opened`. -/
structure Disciplined (seg : List WireEvent) (o : WireEvent) : Prop where
  /-- Descriptors are written after the approval and numbered from 0. -/
  descriptor : ∀ frame ackId, o = .wrote (.descriptor frame ackId) →
    Approved seg ∧ ackId = UInt64.ofNat (descriptors seg)
  /-- The attachment of the same frame comes next, or fails to be written. -/
  attached : ∀ frame ackId, seg.getLast? = some (.wrote (.descriptor frame ackId)) →
    o = .wrote (.attachment frame) ∨ o = .writeFailed (.attachment frame)
  /-- Nothing but an attachment comes after a descriptor. -/
  attachment : ∀ frame, o = .wrote (.attachment frame) →
    ∃ ackId, seg.getLast? = some (.wrote (.descriptor frame ackId))
  /-- After a failed write, at most the namespace disconnect is written. -/
  failed : ∀ packet, .writeFailed packet ∈ seg → o = .opened ∨
    (o = .wrote .leave ∨ o = .writeFailed .leave) ∧ .wrote .leave ∉ seg
  /-- The pong comes right after the ping, or fails to be written. -/
  ponged : PingPending seg → o = .wrote .pong ∨ o = .writeFailed .pong
  /-- A pong answers a ping that nothing has followed yet. -/
  pong : o = .wrote .pong → PingPending seg

/-- What the phase says about the packets on the present WebSocket. -/
structure WireLaw (p : Phase) (seg : List WireEvent) : Prop where
  approved : p.online = true → Approved seg
  ids : ∀ ackId, p.nextAckId = some ackId → ackId = UInt64.ofNat (descriptors seg)
  unread : p = .opening → ∀ m, .read m ∉ seg
  greeted : p.ended = false → p ≠ .opening → ∃ m, .read m ∈ seg
  descriptor : ∀ frame ackId,
    seg.getLast? = some (.wrote (.descriptor frame ackId)) ↔ p = .attaching frame ackId
  ping : PingPending seg ↔ p.packet = some .pong
  failed : ∀ packet, .writeFailed packet ∈ seg → p.ended = true
  unleft : p.present = true → p ≠ .left → .wrote .leave ∉ seg

theorem wireLaw_absent : WireLaw .absent [] where
  approved := by simp [Phase.online]
  ids := by simp [Phase.nextAckId]
  unread := by simp
  greeted := by simp [Phase.ended]
  descriptor := by simp
  ping := iff_of_false not_pingPending_nil (by simp [Phase.packet])
  failed := by simp
  unleft := by simp

theorem wireLaw_opening : WireLaw .opening [] where
  approved := by simp [Phase.online]
  ids := by simp [Phase.nextAckId]
  unread := by simp
  greeted := by simp
  descriptor := by simp
  ping := iff_of_false not_pingPending_nil (by simp [Phase.packet])
  failed := by simp
  unleft := by simp

/-- One more event on the same WebSocket. -/
theorem WireLaw.concat (hlaw : WireLaw p seg)
    (hidle : q.online = true → p.online = true ∨ ∃ m, o = .read m ∧ m.isApproval = true)
    (hids : ∀ ackId, q.nextAckId = some ackId → ∃ k, p.nextAckId = some k ∧
      ackId = k + match o with
        | .wrote (.descriptor ..) => 1
        | _ => 0)
    (hopening : q ≠ .opening)
    (hgreeted : q.ended = false → p.ended = false ∧ p ≠ .opening ∨ ∃ m, o = .read m)
    (hdescriptor : ∀ frame ackId, o = .wrote (.descriptor frame ackId) ↔ q = .attaching frame ackId)
    (hread : ∀ m, o = .read m → p.ended = false)
    (hping : q.packet = some .pong ↔ (∃ m, o = .read m ∧ m.isPing = true) ∧ p ≠ .opening)
    (hfailed : p.ended = true ∨ (∃ packet, o = .writeFailed packet) → q.ended = true)
    (hunleft : q.present = true → q ≠ .left → p.present = true ∧ p ≠ .left ∧ o ≠ .wrote .leave) :
    WireLaw q (seg ++ [o]) where
  approved hq := by
    rcases hidle hq with hp | ⟨m, rfl, happroval⟩
    · exact (hlaw.approved hp).concat
    · exact ⟨m, by simp, happroval⟩
  ids ackId hq := by
    -- the id counts the descriptors, so it moves with them
    obtain ⟨k, hk, rfl⟩ := hids ackId hq
    rw [hlaw.ids k hk, descriptors_concat, UInt64.ofNat_add]
    cases o with
    | wrote packet => cases packet <;> rfl
    | _ => rfl
  unread hq := absurd hq hopening
  greeted hq _ := by
    rcases hgreeted hq with ⟨hp, hnot⟩ | ⟨m, rfl⟩
    · obtain ⟨m, hm⟩ := hlaw.greeted hp hnot
      exact ⟨m, List.mem_append_left _ hm⟩
    · exact ⟨m, by simp⟩
  descriptor frame ackId := by simpa using hdescriptor frame ackId
  ping := by
    -- a ping counts once the open packet has been read
    rw [pingPending_concat, hping]
    refine and_congr_right fun ⟨m, ho, _⟩ => ⟨?_, hlaw.greeted (hread m ho)⟩
    rintro ⟨m₀, hm₀⟩ hp
    exact hlaw.unread hp m₀ hm₀
  failed packet hmem := by
    rcases List.mem_append.mp hmem with hold | hnew
    · exact hfailed (.inl (hlaw.failed packet hold))
    · exact hfailed (.inr ⟨packet, (List.mem_singleton.mp hnew).symm⟩)
  unleft hq hnot := by
    obtain ⟨hp, hleft, ho⟩ := hunleft hq hnot
    intro hmem
    rcases List.mem_append.mp hmem with hold | hnew
    · exact hlaw.unleft hp hleft hold
    · exact ho (List.mem_singleton.mp hnew).symm

/-- A transition without an event keeps what the phase says. -/
theorem WireLaw.silent (hlaw : WireLaw p seg) (honline : q.online = true → p.online = true)
    (hids : ∀ ackId, q.nextAckId = some ackId → p.nextAckId = some ackId)
    (hopening : q ≠ .opening) (hgreeted : q.ended = false → p.ended = false ∧ p ≠ .opening)
    (hdescriptor : ∀ frame ackId, p ≠ .attaching frame ackId ∧ q ≠ .attaching frame ackId)
    (hping : p.packet ≠ some .pong ∧ q.packet ≠ some .pong)
    (hfailed : p.ended = true → q.ended = true)
    (hunleft : q.present = true → q ≠ .left → p.present = true ∧ p ≠ .left) : WireLaw q seg where
  approved hq := hlaw.approved (honline hq)
  ids ackId hq := hlaw.ids ackId (hids ackId hq)
  unread hq := absurd hq hopening
  greeted hq _ := hlaw.greeted (hgreeted hq).1 (hgreeted hq).2
  descriptor frame ackId := by
    rw [hlaw.descriptor]
    exact iff_of_false (hdescriptor frame ackId).1 (hdescriptor frame ackId).2
  ping := by
    rw [hlaw.ping]
    exact iff_of_false hping.1 hping.2
  failed packet hmem := hfailed (hlaw.failed packet hmem)
  unleft hq hnot := hlaw.unleft (hunleft hq hnot).1 (hunleft hq hnot).2

theorem Phase.live_of_not_ended {p : Phase} (h : p.ended = false) :
    p.present = true ∧ p ≠ .left := by
  refine ⟨?_, ?_⟩
  · cases p <;> first | rfl | cases h
  · rintro rfl
    cases h

/-- Where a stream is given up, nothing is left to be answered. -/
theorem wireLaw_quits {out : List WireEvent} (hlaw : WireLaw p (current h)) (hp : Quits p out)
    (hq : q = .leaving ∨ q = .absent) : WireLaw q (current (h ++ out)) := by
  have hended : q.ended = true := by rcases hq with rfl | rfl <;> rfl
  have honline : q.online = false := by rcases hq with rfl | rfl <;> rfl
  have hids : q.nextAckId = none := by rcases hq with rfl | rfl <;> rfl
  have hpacket : q.packet ≠ some .pong := by rcases hq with rfl | rfl <;> simp [Phase.packet]
  have hopening : q ≠ .opening := by rcases hq with rfl | rfl <;> simp
  have hattaching : ∀ frame ackId, q ≠ .attaching frame ackId := by
    rcases hq with rfl | rfl <;> simp
  have hlive : p.ended = false := by cases hp <;> first | rfl | assumption
  have hpresent := Phase.live_of_not_ended hlive
  -- the transition has no event, or one that is neither a ping to be answered nor a descriptor
  have hsilent : p.packet = none → WireLaw q (current h) := by
    intro hnone
    refine hlaw.silent (by simp [honline]) (by simp [hids]) hopening (by simp [hended])
      (fun frame ackId => ⟨?_, hattaching frame ackId⟩) ⟨by simp [hnone], hpacket⟩
      (fun _ => hended) (fun _ _ => hpresent)
    rintro rfl
    cases hnone
  have hevent : ∀ o : WireEvent, o.isOpened = false →
      (∀ m, o = .read m → m.isPing = true → p = .opening) →
      (∀ packet, o ≠ .wrote packet) → WireLaw q (current (h ++ [o])) := by
    intro o ho hread hwrote
    rw [current_concat ho]
    refine hlaw.concat (by simp [honline]) (by simp [hids]) hopening (by simp [hended])
      (fun frame ackId => iff_of_false (hwrote _) (hattaching frame ackId)) (fun _ _ => hlive)
      (iff_of_false hpacket ?_) (fun _ => hended)
      (fun _ _ => ⟨hpresent.1, hpresent.2, hwrote _⟩)
    rintro ⟨⟨m, hm, hping⟩, hnot⟩
    exact hnot (hread m hm hping)
  cases hp with
  | idle => simpa using hsilent rfl
  | unopened => simpa using hsilent rfl
  | opening m => exact hevent _ rfl (fun _ _ _ => rfl) (by simp)
  | notOpened => exact hevent _ rfl (by simp) (by simp)
  | refused sent m hping =>
      refine hevent _ rfl ?_ (by simp)
      rintro m' hm hping'
      obtain rfl := WireEvent.read.inj hm
      rw [hping] at hping'
      cases hping'
  | unread => exact hevent _ rfl (by simp) (by simp)
  | unwritten => exact hevent _ rfl (by simp) (by simp)

section

attribute [local simp] Phase.online Phase.nextAckId Phase.ended Phase.packet Phase.present

/-- Every transition keeps the order of packets. -/
theorem wireLaw_step {out : List WireEvent} (hlaw : WireLaw p (current h))
    (hstep : WireStep p q out) : WireLaw q (current (h ++ out)) := by
  cases hstep with
  | stay => simpa using hlaw
  | opens => simpa using wireLaw_opening
  | quits hp hq => exact wireLaw_quits hlaw hp hq
  | sends | dropped =>
      rw [List.append_nil]
      apply hlaw.silent <;> simp
  | approved m happroval =>
      have hping := isPing_of_isApproval happroval
      rw [current_concat rfl]
      apply hlaw.concat <;> simp [happroval, hping]
  | pinged sent m hping | skipped sent m hping _ =>
      rw [current_concat rfl]
      -- the answer to the frame is still to come, or the approval
      cases sent <;> apply hlaw.concat <;> simp [hping]
  | ponged sent =>
      rw [current_concat rfl]
      cases sent <;> apply hlaw.concat <;> simp
  | acked frame ackId m hmatch =>
      have hping := isPing_of_ackHead hmatch
      rw [current_concat rfl]
      apply hlaw.concat <;> simp [hping]
  | greeted | presented | described | attached | leaves | cannotLeave =>
      rw [current_concat rfl]
      apply hlaw.concat <;> simp

end

/-- A transition emits an event by the rules. -/
theorem wireStep_disciplined (hlaw : WireLaw p seg) (hstep : WireStep p q [o]) :
    Disciplined seg o where
  -- each rule leaves the transitions that its event, or the phase, allows
  descriptor frame ackId ho := by
    subst ho
    cases hstep with
    | described => exact ⟨hlaw.approved rfl, hlaw.ids ackId rfl⟩
    | quits hp _ => cases hp
  attached frame ackId hlast := by
    obtain rfl := (hlaw.descriptor frame ackId).mp hlast
    cases hstep with
    | attached => exact .inl rfl
    | quits hp _ =>
        cases hp with
        | unwritten hpacket _ =>
            cases hpacket
            exact .inr rfl
  attachment frame ho := by
    subst ho
    cases hstep with
    | attached _ ackId => exact ⟨ackId, (hlaw.descriptor frame ackId).mpr rfl⟩
    | quits hp _ => cases hp
  failed packet hmem := by
    have hended := hlaw.failed packet hmem
    cases hstep with
    | opens => exact .inl rfl
    | leaves => exact .inr ⟨.inl rfl, hlaw.unleft rfl (by simp)⟩
    | cannotLeave => exact .inr ⟨.inr rfl, hlaw.unleft rfl (by simp)⟩
    | quits hp _ =>
        cases hp with
        | unwritten _ hlive =>
            -- what could still fail is written on a live stream only
            rw [hended] at hlive
            cases hlive
        | _ => cases hended
    | _ => cases hended
  ponged hpending := by
    have hpong := hlaw.ping.mp hpending
    cases hstep with
    | ponged => exact .inl rfl
    | quits hp _ =>
        cases hp with
        | unwritten hpacket _ =>
            rw [hpong] at hpacket
            cases hpacket
            exact .inr rfl
        | _ => cases hpong
    | _ => cases hpong
  pong ho := by
    subst ho
    cases hstep with
    | ponged => exact hlaw.ping.mpr rfl
    | quits hp _ => cases hp

/-! ## The application follows the protocol -/

/-- The packet that the main thread is writing. -/
def Pc.packet : Pc → Option Packet
  | .closingWrite _ => some .leave
  | .writingConnect auth => some (.connect auth)
  | .writingNamespacePong | .writingAckPong .. => some .pong
  | .writingDescriptor frame ackId => some (.descriptor frame ackId)
  | .writingAttachment frame _ => some (.attachment frame)
  | _ => none

/-- A message on the WebSocket, in either direction. -/
inductive Traffic where
  | sent (packet : ClientPacket)
  | received (message : Message)

def WireEvent.traffic : WireEvent → Option Traffic
  | .wrote packet => some (.sent packet.toClientPacket)
  | .read m => some (.received m)
  | _ => none

namespace Application

def Output.traffic : Output → Option Traffic
  | .wrote packet => some (.sent packet)
  | .received m => some (.received m)
  | _ => none

/-- What is seen of a step on the wire. -/
def wire (a : Application) (e : Event) : List WireEvent :=
  match e with
  | .resolved true => [.opened]
  | .read m => [.read m]
  | .readFailed _ => [.readFailed]
  | .written => a.main.packet.toList.map .wrote
  | .writeFailed _ => a.main.packet.toList.map .writeFailed
  | _ => []

/-- `Application::run` with its traffic on the wire. -/
def wireMachine (parse : Bytes → Option JsonValue) :
    EventMachine Application Event WireEvent := (machine parse).observe fun a e _ => a.wire e

def phase (a : Application) : Phase :=
  match a.main with
  | .tcpConnecting | .handshaking | .readingOpen => .opening
  | .writingConnect auth => .presenting auth
  | .readingNamespace => .listening none
  | .writingNamespacePong => .ponging none
  | .popping => .ready a.socket.nextAckId
  | .writingDescriptor frame ackId => .describing frame ackId
  | .writingAttachment frame ackId => .attaching frame ackId
  | .readingAck frame ackId => .listening (some (frame, ackId))
  | .writingAckPong frame ackId => .ponging (some (frame, ackId))
  | .closingWrite _ => .leaving
  | .closing _ => .left
  | .loop => if a.socket.authenticated then .ready a.socket.nextAckId else .absent
  | _ => .absent

/-- The members of the client agree with the phase. -/
structure Placed (a : Application) : Prop where
  authenticated : a.socket.authenticated = a.phase.online
  present : a.socket.socket.isSome = a.phase.present
  sent : ∀ ackId, a.phase.sentAckId = some ackId → a.socket.nextAckId = ackId + 1

variable {parse : Bytes → Option JsonValue} {a b : Application} {e : Event}
  {r : Application × List Output} {out : List Output}

/-- The runs with their traffic are the runs of `Application::run`. -/
theorem exec_wireMachine {es : List Event} :
    (∃ h, (machine parse).exec (.start a) es = some ⟨b, h⟩) ↔
      ∃ h, (wireMachine parse).exec (.start a) es = some ⟨b, h⟩ :=
  exec_observe [] []

/-- The members in a phase that is known. -/
theorem Placed.members {p : Phase} (hplaced : Placed a) (hphase : a.phase = p) :
    a.socket.authenticated = p.online ∧ a.socket.socket.isSome = p.present :=
  hphase ▸ ⟨hplaced.authenticated, hplaced.present⟩

/-- Where no frame is under way, its id is no matter. -/
theorem placed_of (hnone : a.phase.sentAckId = none)
    (hauth : a.socket.authenticated = a.phase.online)
    (hpresent : a.socket.socket.isSome = a.phase.present) : Placed a := by
  refine ⟨hauth, hpresent, ?_⟩
  intro ackId h
  rw [hnone] at h
  cases h

theorem resumeAfter_placed (b : Application) (next : AfterDisconnect) :
    Placed (b.dropSocket.resumeAfter next).1 ∧
      (b.dropSocket.resumeAfter next).1.phase = .absent := by
  cases next with
  | connect =>
      rw [resumeAfter]
      split
      · exact ⟨placed_of rfl rfl rfl, rfl⟩
      · exact ⟨placed_of rfl rfl rfl, rfl⟩
  | delay => exact ⟨placed_of rfl rfl rfl, rfl⟩
  | finish => exact ⟨placed_of rfl rfl rfl, rfl⟩

/-- `disconnect()` leaves the stream, if there is one. -/
theorem disconnect_placed (b : Application) (next : AfterDisconnect) :
    Placed (b.disconnect next).1 ∧
      ((b.disconnect next).1.phase = .leaving ∧ b.socket.socket = some true ∨
        (b.disconnect next).1.phase = .absent) := by
  rw [disconnect]
  split
  · next hopen =>
      have hpresent : b.socket.socket.isSome = true := by rw [hopen]; rfl
      exact ⟨placed_of rfl rfl hpresent, .inl ⟨rfl, hopen⟩⟩
  · obtain ⟨hplaced, hphase⟩ := resumeAfter_placed b next
    exact ⟨hplaced, .inr hphase⟩

/-- Where the protocol is over, it ends so. -/
theorem wire_quits {p : Phase} {ev : List WireEvent} (hquits : Quits p ev)
    (next : AfterDisconnect) :
    Placed (b.disconnect next).1 ∧ WireStep p (b.disconnect next).1.phase ev := by
  obtain ⟨hplaced, hphase⟩ := disconnect_placed b next
  refine ⟨hplaced, .quits hquits ?_⟩
  rcases hphase with ⟨hphase, -⟩ | hphase
  · exact .inl hphase
  · exact .inr hphase

/-- Without a stream, `disconnect()` does nothing on the wire. -/
theorem wire_absent (hplaced : Placed a) (hphase : a.phase = .absent) (next : AfterDisconnect)
    (hb : b.socket.socket = a.socket.socket) :
    Placed (b.disconnect next).1 ∧ WireStep a.phase (b.disconnect next).1.phase [] := by
  obtain ⟨hafter, hleft⟩ := disconnect_placed b next
  rcases hleft with ⟨-, hopen⟩ | habsent
  · have hnone : a.socket.socket.isSome = false := (hplaced.members hphase).2
    rw [← hb, hopen] at hnone
    cases hnone
  · rw [hphase, habsent]
    exact ⟨hafter, .stay .absent⟩

/-- From the top of the loop, the stream is left or there is none. -/
theorem wire_loop (hplaced : Placed a) (hmain : a.main = .loop) (next : AfterDisconnect)
    (hb : b.socket.socket = a.socket.socket) :
    Placed (b.disconnect next).1 ∧ WireStep a.phase (b.disconnect next).1.phase [] := by
  cases hauth : a.socket.authenticated with
  | true =>
      have hphase : a.phase = .ready a.socket.nextAckId := by simp [phase, hmain, hauth]
      rw [hphase]
      exact wire_quits (.idle _) next
  | false => exact wire_absent hplaced (by simp [phase, hmain, hauth]) next hb

/-- The place changes, and the members of the client do not. -/
theorem placed_goto {pc : Pc} {p : Phase} (hplaced : Placed a)
    (hphase : { a with main := pc }.phase = p) (honline : p.online = a.phase.online)
    (hpresent : p.present = a.phase.present)
    (hsent : p.sentAckId = none ∨ p.sentAckId = a.phase.sentAckId) :
    Placed { a with main := pc } := by
  refine ⟨?_, ?_, ?_⟩
  · rw [hphase, honline]
    exact hplaced.authenticated
  · rw [hphase, hpresent]
    exact hplaced.present
  · intro ackId h
    rw [hphase] at h
    rcases hsent with hnone | hsame
    · rw [hnone] at h
      cases h
    · exact hplaced.sent ackId (hsame ▸ h)

theorem wire_goto {pc : Pc} (hplaced : Placed a) (h : Goto a e pc out) :
    Placed { a with main := pc } ∧ WireStep a.phase { a with main := pc }.phase (a.wire e) := by
  -- the phase before is that of the old place, the phase after that of the new one
  have hmove : ∀ p q : Phase, a.phase = p → { a with main := pc }.phase = q →
      q.online = p.online → q.present = p.present →
      q.sentAckId = none ∨ q.sentAckId = p.sentAckId → WireStep p q (a.wire e) →
      Placed { a with main := pc } ∧
        WireStep a.phase { a with main := pc }.phase (a.wire e) := by
    rintro p q rfl rfl honline hpresent hsent hstep
    exact ⟨placed_goto hplaced rfl honline hpresent hsent, hstep⟩
  cases h with
  | started hmain =>
      have hbefore : a.phase = .absent := by simp [phase, hmain]
      have hauth : a.socket.authenticated = false := (hplaced.members hbefore).1
      exact hmove .absent .absent hbefore (by simp [phase, hauth]) rfl rfl (.inl rfl) (.stay _)
  | startFailed hmain =>
      exact hmove .absent .absent (by simp [phase, hmain]) rfl rfl rfl (.inl rfl) (.stay _)
  | connected hmain hrunning hconnected =>
      have hauth := (Bool.and_eq_true_iff.mp hconnected).1
      exact hmove (.ready a.socket.nextAckId) (.ready a.socket.nextAckId)
        (by simp [phase, hmain, hauth]) rfl rfl rfl (.inl rfl) (.stay _)
  | tcpConnected hmain =>
      exact hmove .opening .opening (by simp [phase, hmain]) rfl rfl rfl (.inl rfl) (.stay _)
  | @opened m auth hmain hopen hauth =>
      exact hmove .opening (.presenting auth) (by simp [phase, hmain]) rfl rfl rfl (.inl rfl)
        (.greeted m auth)
  | @presented auth hmain =>
      refine hmove (.presenting auth) (.listening none) (by simp [phase, hmain]) rfl rfl rfl
        (.inl rfl) ?_
      simpa [wire, hmain, Pc.packet] using WireStep.presented auth
  | namespacePing hmain hping =>
      exact hmove (.listening none) (.ponging none) (by simp [phase, hmain]) rfl rfl rfl (.inl rfl)
        (.pinged none _ hping)
  | namespacePong hmain =>
      refine hmove (.ponging none) (.listening none) (by simp [phase, hmain]) rfl rfl rfl
        (.inl rfl) ?_
      simpa [wire, hmain, Pc.packet] using WireStep.ponged none
  | namespaceSkipped hmain hping _ =>
      exact hmove (.listening none) (.listening none) (by simp [phase, hmain]) rfl rfl rfl
        (.inl rfl) (.skipped none _ hping (by simp))
  | @described frame ackId hmain =>
      refine hmove (.describing frame ackId) (.attaching frame ackId) (by simp [phase, hmain])
        rfl rfl rfl (.inr rfl) ?_
      simpa [wire, hmain, Pc.packet] using WireStep.described frame ackId
  | @attached frame ackId hmain =>
      refine hmove (.attaching frame ackId) (.listening (some (frame, ackId)))
        (by simp [phase, hmain]) rfl rfl rfl (.inr rfl) ?_
      simpa [wire, hmain, Pc.packet] using WireStep.attached frame ackId
  | @ackPing m frame ackId hmain hping =>
      exact hmove (.listening (some (frame, ackId))) (.ponging (some (frame, ackId)))
        (by simp [phase, hmain]) rfl rfl rfl (.inr rfl) (.pinged _ m hping)
  | @ackPong frame ackId hmain =>
      refine hmove (.ponging (some (frame, ackId))) (.listening (some (frame, ackId)))
        (by simp [phase, hmain]) rfl rfl rfl (.inr rfl) ?_
      simpa [wire, hmain, Pc.packet] using WireStep.ponged (some (frame, ackId))
  | @ackSkipped m frame ackId hmain hping hother =>
      exact hmove (.listening (some (frame, ackId))) (.listening (some (frame, ackId)))
        (by simp [phase, hmain]) rfl rfl rfl (.inr rfl)
        (.skipped _ m hping (by simpa using hother))
  | left hmain =>
      refine hmove .leaving .left (by simp [phase, hmain]) rfl rfl rfl (.inl rfl) ?_
      simpa [wire, hmain, Pc.packet] using WireStep.leaves
  | joined hmain _ =>
      exact hmove .absent .absent (by simp [phase, hmain]) rfl rfl rfl (.inl rfl) (.stay _)

theorem wire_raises (hplaced : Placed a) (h : Raises parse a e b out) :
    Placed b.raise.1 ∧ WireStep a.phase b.raise.1.phase (a.wire e) := by
  have hquits : ∀ p : Phase, a.phase = p → Quits p (a.wire e) →
      Placed b.raise.1 ∧ WireStep a.phase b.raise.1.phase (a.wire e) := by
    rintro p rfl hquits
    exact wire_quits hquits .delay
  cases h with
  | resolve hmain => exact wire_absent hplaced (by simp [phase, hmain]) .delay rfl
  | tcp hmain => exact hquits .opening (by simp [phase, hmain]) .unopened
  | handshake hmain => exact hquits .opening (by simp [phase, hmain]) .unopened
  | @opening m hmain _ => exact hquits .opening (by simp [phase, hmain]) (.opening m)
  | @refused m hmain _ herror =>
      exact hquits (.listening none) (by simp [phase, hmain])
        (.refused none m (isPing_of_isConnectError herror))
  | @ack m frame ackId hmain hmatch _ =>
      exact hquits (.listening (some (frame, ackId))) (by simp [phase, hmain])
        (.refused _ m (isPing_of_ackHead hmatch))
  | read hmain =>
      cases hplace : a.main with
      | readingOpen => exact hquits .opening (by simp [phase, hplace]) .notOpened
      | readingNamespace => exact hquits (.listening none) (by simp [phase, hplace]) (.unread none)
      | readingAck frame ackId =>
          exact hquits (.listening (some (frame, ackId))) (by simp [phase, hplace]) (.unread _)
      | _ =>
          rw [hplace] at hmain
          cases hmain
  | @write isOpen hmain =>
      -- what fails is the write of the packet of this phase
      have hwrite : ∀ packet : Packet, a.main.packet = some packet →
          a.phase.packet = some packet → a.phase.ended = false →
          Placed (a.setOpen isOpen).raise.1 ∧
            WireStep a.phase (a.setOpen isOpen).raise.1.phase (a.wire (.writeFailed isOpen)) := by
        intro packet hpacket hphase hended
        have hwire : a.wire (.writeFailed isOpen) = [.writeFailed packet] := by
          simp [wire, hpacket]
        rw [hwire]
        exact wire_quits (.unwritten hphase hended) .delay
      cases hplace : a.main with
      | writingConnect auth =>
          exact hwrite (.connect auth) (by simp [hplace, Pc.packet])
            (by simp [phase, hplace, Phase.packet]) (by simp [phase, hplace, Phase.ended])
      | writingNamespacePong | writingAckPong frame ackId =>
          exact hwrite .pong (by simp [hplace, Pc.packet])
            (by simp [phase, hplace, Phase.packet]) (by simp [phase, hplace, Phase.ended])
      | writingDescriptor frame ackId =>
          exact hwrite (.descriptor frame ackId) (by simp [hplace, Pc.packet])
            (by simp [phase, hplace, Phase.packet]) (by simp [phase, hplace, Phase.ended])
      | writingAttachment frame ackId =>
          exact hwrite (.attachment frame) (by simp [hplace, Pc.packet])
            (by simp [phase, hplace, Phase.packet]) (by simp [phase, hplace, Phase.ended])
      | _ =>
          rw [hplace] at hmain
          cases hmain
  | send hmain _ _ => exact hquits (.ready _) (by simp [phase, hmain]; rfl) (.idle _)

/-- The places and members that the capture thread leaves alone. -/
theorem wire_same (hplaced : Placed a) (hmain : b.main = a.main) (hsocket : b.socket = a.socket) :
    Placed b ∧ WireStep a.phase b.phase [] := by
  have hphase : b.phase = a.phase := by rw [phase, phase, hmain, hsocket]
  rw [hphase]
  refine ⟨⟨?_, ?_, ?_⟩, .stay _⟩
  · rw [hphase, hsocket]
    exact hplaced.authenticated
  · rw [hphase, hsocket]
    exact hplaced.present
  · rw [hphase, hsocket]
    exact hplaced.sent

theorem wire_capture (h : a.captureStep e = some b) : a.wire e = [] := by
  cases e <;> first | rfl | cases h

/-- **The application follows the protocol.** Every step is a transition of it. -/
theorem step_wire (hplaced : Placed a) (h : a.step parse e = some r) :
    Placed r.1 ∧ WireStep a.phase r.1.phase (a.wire e) := by
  -- a step between two phases in which no frame is under way
  have hmove : ∀ p q : Phase, a.phase = p → r.1.phase = q →
      r.1.socket.authenticated = q.online → r.1.socket.socket.isSome = q.present →
      q.sentAckId = none → WireStep p q (a.wire e) →
      Placed r.1 ∧ WireStep a.phase r.1.phase (a.wire e) := by
    rintro p q rfl rfl hauth hpresent hnone hstep
    exact ⟨placed_of hnone hauth hpresent, hstep⟩
  cases step_cases h with
  | goto pc hgoto => exact wire_goto hplaced hgoto
  | raises b hraises => exact wire_raises hplaced hraises
  | stops hmain _ => exact wire_loop hplaced hmain .finish rfl
  | connects hmain _ _ => exact wire_loop hplaced hmain .connect rfl
  | left next hmain =>
      obtain ⟨hafter, habsent⟩ := resumeAfter_placed a next
      have hphase : a.phase = .left := by simp [phase, hmain]
      rw [hphase, habsent]
      exact ⟨hafter, .dropped⟩
  | leftAtOnce isOpen next hmain =>
      obtain ⟨hafter, habsent⟩ := resumeAfter_placed a next
      have hphase : a.phase = .leaving := by simp [phase, hmain]
      rw [hphase, habsent]
      exact ⟨hafter, by simpa [wire, hmain, Pc.packet] using WireStep.cannotLeave⟩
  | resolved hmain =>
      have hbefore : a.phase = .absent := by simp [phase, hmain]
      have hauth : a.socket.authenticated = false := (hplaced.members hbefore).1
      exact hmove .absent .opening hbefore rfl hauth rfl rfl .opens
  | handshaken hmain =>
      -- the stream is open now, which the wire does not show
      have hbefore : a.phase = .opening := by simp [phase, hmain]
      obtain ⟨hauth, hpresent⟩ := hplaced.members hbefore
      exact hmove .opening .opening hbefore rfl hauth (Option.isSome_map.trans hpresent) rfl
        (.stay _)
  | approved m hmain happroval =>
      have hbefore : a.phase = .listening none := by simp [phase, hmain]
      have hpresent := (hplaced.members hbefore).2
      exact hmove (.listening none) (.ready 0) hbefore rfl rfl hpresent rfl
        (.approved m happroval)
  | noFrame frames hmain _ =>
      have hbefore : a.phase = .ready a.socket.nextAckId := by simp [phase, hmain]
      obtain ⟨hauth, hpresent⟩ := hplaced.members hbefore
      exact hmove (.ready a.socket.nextAckId) (.ready a.socket.nextAckId) hbefore
        (by simp [phase, hauth, Phase.online]) hauth hpresent rfl (.stay _)
  | sends frames frame hmain _ hauth hsocket _ =>
      have hbefore : a.phase = .ready a.socket.nextAckId := by simp [phase, hmain]
      rw [hbefore]
      refine ⟨⟨hauth, hsocket, fun ackId hid => ?_⟩, .sends frame a.socket.nextAckId⟩
      obtain rfl : a.socket.nextAckId = ackId := Option.some.inj hid
      rfl
  | acked m frame ackId ack hmain hmatch _ =>
      -- the counter was moved on when the frame was taken
      have hbefore : a.phase = .listening (some (frame, ackId)) := by simp [phase, hmain]
      have hnext : a.socket.nextAckId = ackId + 1 := hplaced.sent ackId (by rw [hbefore]; rfl)
      obtain ⟨hauth, hpresent⟩ := hplaced.members hbefore
      exact hmove (.listening (some (frame, ackId))) (.ready (ackId + 1)) hbefore
        (by simp [phase, hauth, hnext, Phase.online]) hauth hpresent rfl
        (.acked frame ackId m hmatch)
  | delayed jitter hmain _ =>
      have hbefore : a.phase = .absent := by simp [phase, hmain]
      obtain ⟨hauth, hpresent⟩ := hplaced.members hbefore
      exact hmove .absent .absent hbefore rfl hauth hpresent rfl (.stay _)
  | slept hmain =>
      have hbefore : a.phase = .absent := by simp [phase, hmain]
      obtain ⟨hauth, hpresent⟩ := hplaced.members hbefore
      have hfalse : a.socket.authenticated = false := hauth
      exact hmove .absent .absent hbefore (by simp [phase, hfalse]) hauth hpresent rfl (.stay _)
  | capture b _ hcapture =>
      obtain ⟨-, hsocket, -, hmain⟩ := captureStep_frame hcapture
      rw [wire_capture hcapture]
      exact wire_same hplaced hmain hsocket
  | stopSignal => exact wire_same hplaced rfl rfl

/-! ## What the client reads and writes -/

/-- Nothing is read or written. -/
theorem traffic_of_caught {out : List Output} (h : ∀ o ∈ out, o = .caught) :
    out.filterMap Output.traffic = [] := by
  refine List.filterMap_eq_nil_iff.mpr ?_
  intro o ho
  rw [h o ho]
  rfl

theorem traffic_goto {pc : Pc} {out : List Output} (h : Goto a e pc out) :
    out.filterMap Output.traffic = (a.wire e).filterMap WireEvent.traffic := by
  cases h with
  | presented hmain | namespacePong hmain | described hmain | attached hmain | ackPong hmain
  | left hmain =>
      rw [wire, hmain]
      rfl
  | _ => rfl

/-- What is seen on the wire is what the client reads and writes. -/
theorem traffic_step (h : a.step parse e = some r) :
    r.2.filterMap Output.traffic = (a.wire e).filterMap WireEvent.traffic := by
  have hfailed : ∀ isOpen, (a.wire (.writeFailed isOpen)).filterMap WireEvent.traffic = [] := by
    intro isOpen
    rw [wire]
    cases a.main.packet with
    | none => rfl
    | some packet => rfl
  cases step_cases h with
  | goto pc hgoto => exact traffic_goto hgoto
  | raises b hraises =>
      rw [raise_out, List.filterMap_append]
      cases hraises with
      | write hmain =>
          rw [hfailed]
          rfl
      | _ => rfl
  | stops hmain hstop => exact traffic_of_caught (disconnect_out _ _)
  | connects hmain hrunning hconnected => exact traffic_of_caught (disconnect_out _ _)
  | left next hmain => exact traffic_of_caught (resumeAfter_out _ _)
  | leftAtOnce isOpen next hmain =>
      rw [traffic_of_caught (resumeAfter_out _ _), hfailed]
  | capture b hcapturing hcapture =>
      rw [wire_capture hcapture]
      rfl
  | _ => rfl

/-! ## Runs -/

variable {config : Config} {es : List Event} {cfg : EventMachine.Config Application WireEvent}

/-- The application in step with the protocol. -/
structure Ordered (c : EventMachine.Config Application WireEvent) : Prop where
  placed : Placed c.state
  law : WireLaw c.state.phase (current c.history)

theorem ordered_start (config : Config) : Ordered (.start { config := config }) where
  placed := placed_of rfl rfl rfl
  law := wireLaw_absent

theorem wire_next {c c' : EventMachine.Config Application WireEvent} (hc : Ordered c)
    (hnext : (wireMachine parse).next c e = some c') :
    c'.history = c.history ++ c.state.wire e ∧ Placed c'.state ∧
      WireStep c.state.phase c'.state.phase (c.state.wire e) := by
  obtain ⟨out, hstep, hhist⟩ := observe_next hnext
  exact ⟨hhist, step_wire hc.placed hstep⟩

theorem ordered_next {c c' : EventMachine.Config Application WireEvent} (hc : Ordered c)
    (hnext : (wireMachine parse).next c e = some c') : Ordered c' := by
  obtain ⟨hhist, hplaced, hstep⟩ := wire_next hc hnext
  refine ⟨hplaced, ?_⟩
  rw [hhist]
  exact wireLaw_step hc.law hstep

/-- In every run of the application its members agree with the phase. -/
theorem placed_run {c : EventMachine.Config Application Output}
    (hrun : (machine parse).exec (.start { config := config }) es = some c) :
    Placed c.state := by
  obtain ⟨h, hwire⟩ := exec_wireMachine.mp ⟨c.history, hrun⟩
  have hordered : Ordered ⟨c.state, h⟩ :=
    exec_invariant (fun _ _ _ => ordered_next) (ordered_start config) hwire
  exact hordered.placed

/-- The phase knows the packet that is being written. -/
theorem phase_packet (a : Application) : a.phase.packet = a.main.packet := by
  unfold phase Pc.packet
  cases a.main with
  | loop => cases a.socket.authenticated <;> rfl
  | _ => rfl

theorem main_of_attaching {frame : Frame} {ackId : UInt64}
    (h : a.phase = .attaching frame ackId) : a.main = .writingAttachment frame ackId := by
  cases hmain : a.main with
  | writingAttachment frame' ackId' =>
      obtain ⟨rfl, rfl⟩ : frame' = frame ∧ ackId' = ackId := by simpa [phase, hmain] using h
      rfl
  | loop => cases hauth : a.socket.authenticated <;> simp [phase, hmain, hauth] at h
  | _ => simp [phase, hmain] at h

/-- One operation is at most one event. -/
theorem wire_length (a : Application) (e : Event) : a.wire e = [] ∨ ∃ o, a.wire e = [o] := by
  unfold wire
  split
  · exact .inr ⟨_, rfl⟩
  · exact .inr ⟨_, rfl⟩
  · exact .inr ⟨_, rfl⟩
  · cases a.main.packet with
    | none => exact .inl rfl
    | some packet => exact .inr ⟨_, rfl⟩
  · cases a.main.packet with
    | none => exact .inl rfl
    | some packet => exact .inr ⟨_, rfl⟩
  · exact .inl rfl

/-- **Wire discipline.** In every run, what is seen on the wire is what the client reads and
    writes, in this order, and every event on a WebSocket obeys the rules with
    respect to what has happened on that WebSocket before.  A descriptor or a ping
    that is the last event is about to be followed by its attachment or its pong; and
    the client counts as authenticated only with a stream object on which the
    approval was read. -/
theorem wire_disciplined
    (hrun : (wireMachine parse).exec (.start { config := config }) es = some cfg) :
    (∃ c, (machine parse).exec (.start { config := config }) es = some c ∧
      c.history.filterMap Output.traffic = cfg.history.filterMap WireEvent.traffic) ∧
    Whenever (fun h o => Disciplined (current h) o) cfg.history ∧
    (∀ frame ackId,
      (current cfg.history).getLast? = some (.wrote (.descriptor frame ackId)) →
        cfg.state.main = .writingAttachment frame ackId) ∧
    (PingPending (current cfg.history) → cfg.state.main.packet = some .pong) ∧
    (cfg.state.socket.authenticated = true →
      cfg.state.socket.socket.isSome = true ∧ Approved (current cfg.history)) := by
  have hordered : Ordered cfg :=
    exec_invariant (fun _ _ _ => ordered_next) (ordered_start config) hrun
  refine ⟨?_, ?_, fun frame ackId hlast => ?_, fun hpending => ?_, fun hauth => ⟨?_, ?_⟩⟩
  · obtain ⟨h, hexec, htraffic⟩ := exec_of_observe
      (R := fun h k => h.filterMap Output.traffic = k.filterMap WireEvent.traffic)
      (fun a e r h k hstep hsame => by
        rw [List.filterMap_append, List.filterMap_append, hsame, traffic_step hstep])
      (rfl : ([] : List Output).filterMap Output.traffic = _) hrun
    exact ⟨⟨cfg.state, h⟩, hexec, htraffic⟩
  · refine exec_whenever (fun _ _ _ => ordered_next) (fun c e c' out hc hnext hhist => ?_)
      (ordered_start config) whenever_nil hrun
    obtain ⟨hwire, -, hstep⟩ := wire_next hc hnext
    obtain rfl := List.append_cancel_left (hhist.symm.trans hwire)
    rcases wire_length c.state e with hnone | ⟨o, hone⟩
    · rw [hnone]
      exact whenever_nil
    · rw [hone] at hstep ⊢
      rw [whenever_singleton, List.append_nil]
      exact wireStep_disciplined hc.law hstep
  · have hphase := (hordered.law.descriptor frame ackId).mp hlast
    exact main_of_attaching hphase
  · have hpacket := hordered.law.ping.mp hpending
    rw [← hpacket, phase_packet]
  · rw [hordered.placed.present]
    rw [hordered.placed.authenticated] at hauth
    cases hphase : cfg.state.phase <;> first | rfl | simp [hphase, Phase.online] at hauth
  · exact hordered.law.approved (hordered.placed.authenticated ▸ hauth)

/-- The sample run writes one descriptor, as number 0 and after the approval. -/
theorem sample_wire_disciplined : ∃ cfg,
    (wireMachine parseSample).exec (.start { config := sampleConfig }) sampleRun = some cfg ∧
      ∃ before after frame ackId,
        cfg.history = before ++ .wrote (.descriptor frame ackId) :: after ∧
          Approved (current before) ∧ ackId = UInt64.ofNat (descriptors (current before)) := by
  have hany : ((wireMachine parseSample).exec (.start { config := sampleConfig }) sampleRun).any
      (fun cfg => .wrote (.descriptor (sampleFrame 2) 0) ∈ cfg.history) = true := by
    decide +kernel
  obtain ⟨cfg, hrun, h⟩ := (Option.any_eq_true _ _).mp hany
  obtain ⟨before, after, hsplit⟩ := List.mem_iff_append.mp (of_decide_eq_true h)
  have hrules := (wire_disciplined hrun).2.1 before _ after hsplit
  exact ⟨cfg, hrun, before, after, _, _, hsplit, hrules.descriptor _ _ rfl⟩

end Application

end CameraStream.Client
