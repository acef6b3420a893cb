/-
  CameraStream.Client.SocketIoClient

  The data of `SocketIoClient` (socket_io_client.cpp): the URL parser, the packets
  it writes, the messages it reads, and the decoding of an ACK.

  Packets to the server are kept structured; messages from the server are the
  bytes of one WebSocket message, since the client tells them apart by their first
  characters.  `Json::parse` is a library function and a parameter of the ACK
  decoder; reading the parsed value is not.

  The order in which `connect`, `send_frame` and `disconnect` read and write, and
  what happens when an operation throws, is in CameraStream.Client.Application.
-/

import CameraStream.Client.Types
import CameraStream.Js.Value

namespace CameraStream.Client

open Js

/-! ## Server URL -/

structure ServerEndpoint where
  host : Bytes
  port : Bytes
  deriving DecidableEq

/-- `string_view::rfind`: what stands before and after the last occurrence. -/
def splitLast (c : UInt8) (s : Bytes) : Option (Bytes × Bytes) :=
  match s.reverse.idxOf? c with
  | none => none
  | some i => some (s.take (s.length - 1 - i), s.drop (s.length - i))

/-- `none` is a thrown `std::runtime_error`. -/
def parseServerUrl (url : Bytes) : Option ServerEndpoint :=
  let scheme := ascii "http://"
  if scheme.isPrefixOf url then
    let rest := url.drop scheme.length
    let path := rest.dropWhile (· ≠ 0x2F)
    let authority := rest.takeWhile (· ≠ 0x2F)
    if path ≠ [] ∧ path ≠ [0x2F] then none
    else if authority = [] then none
    else
      -- `rfind(':')`: an IPv6 address would be cut at its last colon
      match splitLast 0x3A authority with
      | none => some ⟨authority, ascii "80"⟩
      | some (host, port) => if host = [] ∨ port = [] then none else some ⟨host, port⟩
  else none

/-! ## Packets -/

/-- A continuation byte of UTF-8 in the given range. -/
def inRange (lo hi : Nat) (b : UInt8) : Bool := lo ≤ b.toNat && b.toNat ≤ hi

/-- The UTF-16 code units of a code point. -/
def utf16Units (n : Nat) : JsString :=
  if n < 0x10000 then [n.toUInt16]
  else [(0xD800 + (n - 0x10000) / 0x400).toUInt16, (0xDC00 + (n - 0x10000) % 0x400).toUInt16]

/-- The string that the server reads where the client's JSON has these bytes;
    `none` when they are not well-formed UTF-8. -/
def decodeUtf8 : Bytes → Option JsString
  | [] => some []
  | b :: rest =>
      if b.toNat < 0x80 then (decodeUtf8 rest).map (utf16Units b.toNat ++ ·)
      else
        match rest with
        | [] => none
        | c :: rest =>
            -- two bytes; `C0` and `C1` would be overlong
            if inRange 0xC2 0xDF b && inRange 0x80 0xBF c then
              (decodeUtf8 rest).map
                (utf16Units ((b.toNat - 0xC0) * 0x40 + (c.toNat - 0x80)) ++ ·)
            else
              match rest with
              | [] => none
              | d :: rest =>
                  -- three bytes; not overlong, not a surrogate
                  if inRange 0x80 0xBF d &&
                      (b = 0xE0 && inRange 0xA0 0xBF c || b = 0xED && inRange 0x80 0x9F c ||
                        (inRange 0xE1 0xEC b || inRange 0xEE 0xEF b) && inRange 0x80 0xBF c) then
                    (decodeUtf8 rest).map
                      (utf16Units ((b.toNat - 0xE0) * 0x1000 + (c.toNat - 0x80) * 0x40 +
                        (d.toNat - 0x80)) ++ ·)
                  else
                    match rest with
                    | [] => none
                    | e :: rest =>
                        -- four bytes; not overlong, at most `10FFFF`
                        if inRange 0x80 0xBF d && inRange 0x80 0xBF e &&
                            (b = 0xF0 && inRange 0x90 0xBF c ||
                              inRange 0xF1 0xF3 b && inRange 0x80 0xBF c ||
                              b = 0xF4 && inRange 0x80 0x8F c) then
                          (decodeUtf8 rest).map
                            (utf16Units ((b.toNat - 0xF0) * 0x40000 + (c.toNat - 0x80) * 0x1000 +
                              (d.toNat - 0x80) * 0x40 + (e.toNat - 0x80)) ++ ·)
                        else none

/-- The object of `auth_json`, as the server decodes it. -/
structure AuthJson where
  role : JsString
  cameraId : JsString
  token : JsString
  deriving DecidableEq

/-- `none` when `dump()` throws, as it does on a string that is not UTF-8. -/
def authJson (config : Config) : Option AuthJson :=
  match decodeUtf8 config.cameraId, decodeUtf8 config.token with
  | some cameraId, some token => some ⟨js "camera", cameraId, token⟩
  | _, _ => none

/-- One message written to the server. -/
inductive ClientPacket where
  /-- `40/stream,` with the auth object. -/
  | namespaceConnect (auth : AuthJson)
  /-- `3`. -/
  | pong
  /-- The binary event `camera:frame` with one attachment and an ACK id. -/
  | frameDescriptor (ackId : UInt64) (timestampMs : Int)
  /-- The binary message of a frame. -/
  | attachment (jpeg : Bytes)
  /-- `41/stream,`. -/
  | namespaceDisconnect

/-- One WebSocket message from the server. -/
structure Message where
  text : Bool := false
  data : Bytes := []
  deriving DecidableEq

def Message.startsWith (m : Message) (head : Bytes) : Bool := head.isPrefixOf m.data

/-- The Engine.IO open packet. -/
def Message.isOpen (m : Message) : Bool := m.text && m.startsWith (ascii "0")

def Message.isPing (m : Message) : Bool := m.text && m.data = ascii "2"

/-- The namespace approval. -/
def Message.isApproval (m : Message) : Bool := m.text && m.startsWith (ascii "40/stream,")

/-- The namespace connect error. -/
def Message.isConnectError (m : Message) : Bool := m.text && m.startsWith (ascii "44/stream,")

/-- The head that the ACK of frame `ackId` is recognised by. -/
def ackHead (ackId : UInt64) : Bytes := ascii "43/stream," ++ ascii (toString ackId.toNat)

/-! ## ACKs -/

/-- A parsed `nlohmann::json` value, as far as an ACK is read. -/
inductive JsonValue where
  | null
  | boolean (b : Bool)
  | number
  | string (s : Bytes)
  | array (items : List JsonValue)
  | object (members : List (Bytes × JsonValue))

def JsonValue.member (key : Bytes) : List (Bytes × JsonValue) → Option JsonValue
  | [] => none
  | (k, v) :: rest => if k = key then some v else JsonValue.member key rest

/-- `result.value("accepted", false)`; `none` is a thrown type error. -/
def acceptedOf (members : List (Bytes × JsonValue)) : Option Bool :=
  match JsonValue.member (ascii "accepted") members with
  | none => some false
  | some (.boolean b) => some b
  | some _ => none

/-- `result.value("reason", std::string{})`; `none` is a thrown type error. -/
def reasonOf (members : List (Bytes × JsonValue)) : Option Bytes :=
  match JsonValue.member (ascii "reason") members with
  | none => some []
  | some (.string s) => some s
  | some _ => none

/-- The `FrameAck` in the arguments of an ACK; `none` is a thrown exception. -/
def frameAckOf : JsonValue → Option FrameAck
  | .array (.object members :: _) =>
      match acceptedOf members, reasonOf members with
      | some accepted, some reason => some ⟨accepted, reason⟩
      | _, _ => none
  | _ => none

/-- Decode the message that starts with `ackHead ackId`.  `none` is a thrown
    exception: no argument array, a parse error or an unexpected shape. -/
def decodeAck (parse : Bytes → Option JsonValue) (ackId : UInt64) (m : Message) :
    Option FrameAck :=
  match (m.data.drop (ackHead ackId).length).dropWhile (· ≠ 0x5B) with
  | [] => none
  | arguments => (parse arguments).bind frameAckOf

/-! ## The connection -/

/-- The members of `Impl`.  `socket` is the stream object, if there is one, with
    the answer of its `is_open()`. -/
structure SocketIoClient where
  socket : Option Bool := none
  nextAckId : UInt64 := 0
  authenticated : Bool := false

namespace SocketIoClient

def connected (s : SocketIoClient) : Bool := s.authenticated && s.socket = some true

/-- The approval has been read. -/
def authenticate (s : SocketIoClient) : SocketIoClient :=
  { s with authenticated := true, nextAckId := 0 }

end SocketIoClient

/-- The boundary check of `send_frame`. -/
def hasJpegBoundary (jpeg : Bytes) : Bool :=
  4 ≤ jpeg.length && jpeg[0]? = some 0xFF && jpeg[1]? = some 0xD8 &&
    jpeg[jpeg.length - 2]? = some 0xFF && jpeg[jpeg.length - 1]? = some 0xD9

end CameraStream.Client
