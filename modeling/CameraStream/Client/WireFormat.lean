/-
  CameraStream.Client.WireFormat

  The texts of the Socket.IO packets that go over the WebSocket: the descriptor of a
  frame, and the ACK of the gateway.

  Both are concatenations of fields without lengths.  `descriptor_eq_encode` and
  `ackText_eq_encode` say that they are packets in the grammar of Socket.IO, so that
  reading them back is the round trip of the grammar.  The JSON library is a parameter on
  either side.
-/

import CameraStream.Client.AckCorrelation
import CameraStream.Client.Utf8
import CameraStream.Lib.SocketIoPacket

namespace CameraStream.Client

open Js EventMachine

/-! ## The JSON that the client builds -/

/-- A `nlohmann::json` value, as far as the client builds one.  The members of an object
    are sorted by name. -/
inductive BuiltJson where
  | boolean (b : Bool)
  | integer (n : Int)
  | string (s : Bytes)
  | array (items : List BuiltJson)
  | object (members : List (Bytes × BuiltJson))

/-- The array of `frame_event_json`. -/
def frameEvent (timestampMs : Int) : BuiltJson :=
  let placeholder := .object [(ascii "_placeholder", .boolean true), (ascii "num", .integer 0)]
  let payload := .object [(ascii "frame", placeholder), (ascii "timestamp", .integer timestampMs)]
  .array [.string (ascii "camera:frame"), payload]

def frameEventJson (dump : BuiltJson → Bytes) (timestampMs : Int) : Bytes :=
  dump (frameEvent timestampMs)

/-- The object of `auth_json`. -/
def AuthJson.built (auth : AuthJson) : BuiltJson :=
  .object [(ascii "cameraId", .string (toUtf8 auth.cameraId)),
    (ascii "role", .string (toUtf8 auth.role)), (ascii "token", .string (toUtf8 auth.token))]

/-! ## Messages to the server -/

/-- The text before the attachment of a frame. -/
def descriptor (dump : BuiltJson → Bytes) (ackId : UInt64) (timestampMs : Int) : Bytes :=
  ascii "451-/stream," ++ ascii (toString ackId.toNat) ++ frameEventJson dump timestampMs

/-- The WebSocket message of a packet. -/
def ClientPacket.message (dump : BuiltJson → Bytes) : ClientPacket → Message
  | .namespaceConnect auth => ⟨true, ascii "40/stream," ++ dump auth.built⟩
  | .pong => ⟨true, ascii "3"⟩
  | .frameDescriptor ackId timestampMs => ⟨true, descriptor dump ackId timestampMs⟩
  | .attachment jpeg => ⟨false, jpeg⟩
  | .namespaceDisconnect => ⟨true, ascii "41/stream,"⟩

/-- The packet that a descriptor stands for. -/
def descriptorPacket (dump : BuiltJson → Bytes) (ackId : UInt64) (timestampMs : Int) :
    SocketIo.Packet where
  engineType := 0x34
  packetType := 0x35
  attachments := 1
  nsp := ascii "/stream"
  id := some ackId.toNat
  data := frameEventJson dump timestampMs

theorem ascii_toString (n : Nat) : ascii (toString n) = TextRuns.digits n := rfl

theorem descriptor_eq_encode (dump : BuiltJson → Bytes) (ackId : UInt64) (timestampMs : Int) :
    descriptor dump ackId timestampMs = (descriptorPacket dump ackId timestampMs).encode := by
  have hhead : ascii "451-/stream," =
      0x34 :: 0x35 :: (TextRuns.digits 1 ++ [0x2D] ++ (ascii "/stream" ++ [0x2C])) := by
    decide
  -- the literal holds both types, the count and the namespace with their delimiters
  rw [descriptor, hhead, ascii_toString]
  simp [SocketIo.Packet.encode, descriptorPacket, SocketIo.countsAttachments, ascii]

/-- Data that starts with a bracket continues neither the id nor the namespace. -/
theorem wellFormed_descriptorPacket {dump : BuiltJson → Bytes} {timestampMs : Int}
    (ackId : UInt64) (hbracket : (dump (frameEvent timestampMs)).head? = some 0x5B) :
    (descriptorPacket dump ackId timestampMs).WellFormed where
  attachments h := by
    have h : SocketIo.countsAttachments 0x35 = false := h
    exact absurd h (by decide)
  slash := rfl
  comma := by
    show 0x2C ∉ ascii "/stream"
    decide
  digit b hb := by
    have hb : b ∈ (dump (frameEvent timestampMs)).head? := hb
    rw [hbracket] at hb
    cases hb
    rfl
  data := by
    show (dump (frameEvent timestampMs)).head? ≠ some 0x2F
    rw [hbracket]
    decide

/-- The server reads the fields of a descriptor. -/
theorem decode_descriptor {dump : BuiltJson → Bytes} {timestampMs : Int} (ackId : UInt64)
    (hbracket : (dump (frameEvent timestampMs)).head? = some 0x5B) :
    SocketIo.decode (descriptor dump ackId timestampMs) =
      some (descriptorPacket dump ackId timestampMs) := by
  rw [descriptor_eq_encode]
  exact SocketIo.decode_encode (wellFormed_descriptorPacket ackId hbracket)

/-! ## ACKs of the server -/

/-- The object of `onFrame`, as the client parses it. -/
def ackResult (accepted : Bool) (reason : Option String) : JsonValue :=
  .object ((ascii "accepted", .boolean accepted) ::
    reason.elim [] fun r => [(ascii "reason", .string (utf8 r))])

/-- The text of an ACK. -/
def ackText (stringify : JsonValue → Bytes) (ackId : UInt64) (result : JsonValue) : Bytes :=
  ascii "43/stream," ++ ascii (toString ackId.toNat) ++ stringify (.array [result])

theorem ackText_eq_encode (stringify : JsonValue → Bytes) (ackId : UInt64) (result : JsonValue) :
    ackText stringify ackId result =
      SocketIo.Packet.encode
        { engineType := 0x34, packetType := 0x33, nsp := ascii "/stream",
          id := some ackId.toNat, data := stringify (.array [result]) } := by
  have hhead : ascii "43/stream," = 0x34 :: 0x33 :: (ascii "/stream" ++ [0x2C]) := by
    decide
  rw [ackText, hhead, ascii_toString]
  simp [SocketIo.Packet.encode, SocketIo.countsAttachments, ascii]

/-- Both members are found, and a missing reason is empty. -/
theorem frameAckOf_ackResult (accepted : Bool) (reason : Option String) :
    frameAckOf (.array [ackResult accepted reason]) =
      some ⟨accepted, (reason.map utf8).getD []⟩ := by
  have hne : ascii "accepted" ≠ ascii "reason" := by decide
  cases reason with
  | none => simp [frameAckOf, ackResult, acceptedOf, reasonOf, JsonValue.member, hne]
  | some r => simp [frameAckOf, ackResult, acceptedOf, reasonOf, JsonValue.member, hne]

namespace Application

variable {parse : Bytes → Option JsonValue} {a : Application} {frame : Frame} {ackId : UInt64}

/-- `send_frame` returns what the ACK says. -/
theorem step_ackText {stringify : JsonValue → Bytes} {accepted : Bool} {reason : Option String}
    (hinverse : parse (stringify (.array [ackResult accepted reason])) =
      some (.array [ackResult accepted reason]))
    (hbracket : (stringify (.array [ackResult accepted reason])).head? = some 0x5B)
    (hmain : a.main = .readingAck frame ackId) :
    ∃ a', a.step parse (.read ⟨true, ackText stringify ackId (ackResult accepted reason)⟩) =
        some (a', [.received ⟨true, ackText stringify ackId (ackResult accepted reason)⟩,
          .acked frame ⟨accepted, (reason.map utf8).getD []⟩]) ∧
      a'.main = .loop := by
  -- the text is an ACK packet whose arguments start with the first bracket
  have hpacket : (⟨true, ackText stringify ackId (ackResult accepted reason)⟩ : Message) =
      ackPacket ackId (stringify (.array [ackResult accepted reason])) := rfl
  rw [hpacket]
  have hstart := startsWith_ackPacket ackId (stringify (.array [ackResult accepted reason]))
  have hping := isPing_of_ackHead hstart
  have hdecode : decodeAck parse ackId
      (ackPacket ackId (stringify (.array [ackResult accepted reason]))) =
        some ⟨accepted, (reason.map utf8).getD []⟩ := by
    rw [decodeAck_ackPacket parse ackId hbracket, hinverse]
    exact frameAckOf_ackResult accepted reason
  simp [step, mainStep, onRead, hmain, onAckMessage, hping, hstart, hdecode]

/-- **The wire format.** The server reads from a descriptor what `send_frame` has put into
    it, and `send_frame` reads from an ACK what the gateway has put into it. -/
theorem wire_format_round_trips :
    (∀ (dump : BuiltJson → Bytes) (parse : Bytes → Option BuiltJson) (ackId : UInt64)
      (frame : Frame), parse (dump (frameEvent frame.timestampMs)) =
        some (frameEvent frame.timestampMs) →
      (dump (frameEvent frame.timestampMs)).head? = some 0x5B →
      ∃ packet p, (∀ (a : Application) (acks : Bytes → Option JsonValue),
          a.main = .writingDescriptor frame ackId →
          ∃ a', a.step acks .written = some (a', [.wrote packet])) ∧
        SocketIo.decode (packet.message dump).data = some p ∧
        p.engineType = 0x34 ∧ p.packetType = 0x35 ∧ p.attachments = 1 ∧
        p.nsp = ascii "/stream" ∧ p.id = some ackId.toNat ∧
        parse p.data = some (.array [.string (ascii "camera:frame"),
          .object [(ascii "frame",
              .object [(ascii "_placeholder", .boolean true), (ascii "num", .integer 0)]),
            (ascii "timestamp", .integer frame.timestampMs)]])) ∧
    ∀ (stringify : JsonValue → Bytes) (parse : Bytes → Option JsonValue) (ackId : UInt64)
      (accepted : Bool) (reason : Option String),
      parse (stringify (.array [ackResult accepted reason])) =
        some (.array [ackResult accepted reason]) →
      (stringify (.array [ackResult accepted reason])).head? = some 0x5B →
      ∀ (a : Application) (frame : Frame), a.main = .readingAck frame ackId →
        ∃ a' m, m = ⟨true, ascii "43/stream," ++ ascii (toString ackId.toNat) ++
            stringify (.array [ackResult accepted reason])⟩ ∧
          a.step parse (.read m) = some (a', [.received m,
            .acked frame ⟨accepted, (reason.map utf8).getD []⟩]) ∧
          a'.main = .loop := by
  refine ⟨?_, ?_⟩
  · -- the packet that `send_frame` writes, and how the grammar takes it apart
    intro dump parse ackId frame hinverse hbracket
    refine ⟨.frameDescriptor ackId frame.timestampMs,
      descriptorPacket dump ackId frame.timestampMs, ?_, decode_descriptor ackId hbracket, rfl,
      rfl, rfl, rfl, rfl, hinverse⟩
    intro a acks hmain
    exact ⟨_, by simp [step, mainStep, onWritten, hmain]; rfl⟩
  · intro stringify parse ackId accepted reason hinverse hbracket a frame hmain
    obtain ⟨a', hstep, hloop⟩ := step_ackText hinverse hbracket hmain
    exact ⟨a', _, rfl, hstep, hloop⟩

/-- The event of one frame, as the JSON library of the client prints it. -/
def sampleEventText : Bytes :=
  ascii "[\"camera:frame\",\x7b\"frame\":\x7b\"_placeholder\":true,\"num\":0\x7d," ++
    ascii "\"timestamp\":1700\x7d]"

/-- A refusal whose reason has a bracket, a digit and a quote. -/
def sampleResultText : Bytes :=
  ascii "[\x7b\"accepted\":false,\"reason\":\"x[1]\\\"\"\x7d]"

theorem sample_wire_format :
    (∃ packet p, SocketIo.decode (ClientPacket.message (fun _ => sampleEventText) packet).data =
        some p ∧ p.id = some 12) ∧
    ∃ a' m, step (fun text => if text = sampleResultText then
          some (.array [ackResult false (some "x[1]\"")]) else none)
        { config := sampleConfig, main := .readingAck (sampleFrame 1700) 12 } (.read m) =
      some (a', [.received m, .acked (sampleFrame 1700) ⟨false, ascii "x[1]\""⟩]) := by
  have hreason : utf8 "x[1]\"" = ascii "x[1]\"" := by decide +kernel
  refine ⟨?_, ?_⟩
  · obtain ⟨packet, p, -, hdecode, -, -, -, -, hid, -⟩ := wire_format_round_trips.1
      (fun _ => sampleEventText)
      (fun text => if text = sampleEventText then some (frameEvent 1700) else none)
      12 (sampleFrame 1700) (if_pos rfl) (by decide +kernel)
    exact ⟨packet, p, hdecode, hid⟩
  · obtain ⟨a', m, -, hstep, -⟩ := wire_format_round_trips.2 (fun _ => sampleResultText)
      (fun text => if text = sampleResultText then
        some (.array [ackResult false (some "x[1]\"")]) else none)
      12 false (some "x[1]\"") (if_pos rfl) (by decide +kernel)
      { config := sampleConfig, main := .readingAck (sampleFrame 1700) 12 } (sampleFrame 1700) rfl
    refine ⟨a', m, ?_⟩
    rw [← hreason]
    exact hstep

end Application

end CameraStream.Client
