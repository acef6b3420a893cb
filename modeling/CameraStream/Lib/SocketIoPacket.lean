/-
  CameraStream.Lib.SocketIoPacket

  The packet grammar of Socket.IO inside an Engine.IO text message: one character for the
  Engine.IO type and one for the packet type, a count of attachments up to `-` where the
  type has attachments, a namespace up to `,`, a maximal run of digits as ACK id, and the
  data.

  The fields carry no lengths.  `decode_encode` holds because no delimiter can occur in
  the field before it (`Packet.WellFormed`).
-/

import CameraStream.Lib.TextRuns

namespace SocketIo

open TextRuns

structure Packet where
  /-- The type character of Engine.IO; `4` is a message. -/
  engineType : UInt8
  /-- The type character of Socket.IO. -/
  packetType : UInt8
  attachments : Nat := 0
  nsp : List UInt8
  id : Option Nat := none
  data : List UInt8 := []
  deriving DecidableEq

/-- Binary events and binary ACKs count their attachments. -/
def countsAttachments (packetType : UInt8) : Bool := packetType = 0x35 || packetType = 0x36

def Packet.encode (p : Packet) : List UInt8 :=
  p.engineType :: p.packetType ::
    ((if countsAttachments p.packetType then digits p.attachments ++ [0x2D] else []) ++
      ((if p.nsp = [0x2F] then [] else p.nsp ++ [0x2C]) ++
        (p.id.elim [] digits ++ p.data)))

/-- The count of attachments and what follows it. -/
def readAttachments (packetType : UInt8) (text : List UInt8) : Option (Nat × List UInt8) :=
  if countsAttachments packetType then
    let count := text.takeWhile (· ≠ 0x2D)
    match text.dropWhile (· ≠ 0x2D) with
    | [] => none
    | _ :: rest => if count ≠ [] ∧ count.all isDigit then some (value count, rest) else none
  else some (0, text)

/-- The namespace and what follows it; a packet without one belongs to `/`. -/
def readNamespace (text : List UInt8) : List UInt8 × List UInt8 :=
  if text.head? = some 0x2F then
    (text.takeWhile (· ≠ 0x2C), (text.dropWhile (· ≠ 0x2C)).tail)
  else ([0x2F], text)

/-- The ACK id, if there is one, and what follows it. -/
def readId (text : List UInt8) : Option Nat × List UInt8 :=
  let run := text.takeWhile isDigit
  (if run = [] then none else some (value run), text.dropWhile isDigit)

def decode : List UInt8 → Option Packet
  | engineType :: packetType :: text =>
      (readAttachments packetType text).map fun (attachments, text) =>
        let (nsp, text) := readNamespace text
        let (id, data) := readId text
        { engineType, packetType, attachments, nsp, id, data }
  | _ => none

/-- No field can be taken for the delimiter of another one. -/
structure Packet.WellFormed (p : Packet) : Prop where
  attachments : countsAttachments p.packetType = false → p.attachments = 0
  slash : p.nsp.head? = some 0x2F
  comma : 0x2C ∉ p.nsp
  digit : ∀ b ∈ p.data.head?, isDigit b = false
  data : p.data.head? ≠ some 0x2F

/-! ## Field by field -/

theorem readAttachments_encode {packetType : UInt8} {attachments : Nat} {rest : List UInt8}
    (h : countsAttachments packetType = false → attachments = 0) :
    readAttachments packetType
      ((if countsAttachments packetType then digits attachments ++ [0x2D] else []) ++ rest) =
      some (attachments, rest) := by
  cases hcounts : countsAttachments packetType with
  | false =>
      rw [readAttachments, hcounts, h hcounts]
      rfl
  | true =>
      have hdash : 0x2D ∉ digits attachments := by
        intro hmem
        exact absurd (isDigit_of_mem hmem) (by decide)
      have hspan := span_delimiter hdash (head?_delimiter rest)
      have hdigits : digits attachments ≠ [] ∧ (digits attachments).all isDigit = true :=
        ⟨digits_ne_nil attachments, List.all_eq_true.mpr fun b hb => isDigit_of_mem hb⟩
      rw [if_pos rfl, List.append_assoc, List.singleton_append, readAttachments, if_pos hcounts]
      simp only [hspan.1, hspan.2]
      rw [if_pos hdigits, value_digits]

theorem readNamespace_encode {nsp rest : List UInt8} (hslash : nsp.head? = some 0x2F)
    (hcomma : 0x2C ∉ nsp) (hrest : rest.head? ≠ some 0x2F) :
    readNamespace ((if nsp = [0x2F] then [] else nsp ++ [0x2C]) ++ rest) = (nsp, rest) := by
  by_cases hroot : nsp = [0x2F]
  · rw [if_pos hroot, List.nil_append, readNamespace, if_neg hrest, hroot]
  · have hspan := span_delimiter hcomma (head?_delimiter rest)
    have hhead : (nsp ++ 0x2C :: rest).head? = some 0x2F := by
      rw [List.head?_append, hslash]
      rfl
    rw [if_neg hroot, List.append_assoc, List.singleton_append, readNamespace, if_pos hhead,
      hspan.1, hspan.2, List.tail_cons]

theorem readId_encode {id : Option Nat} {data : List UInt8}
    (h : ∀ b ∈ data.head?, isDigit b = false) :
    readId (id.elim [] digits ++ data) = (id, data) := by
  cases id with
  | none =>
      have hspan : data.takeWhile isDigit = [] ∧ data.dropWhile isDigit = data :=
        span_append (List.forall_mem_nil _) h
      rw [Option.elim_none, List.nil_append, readId]
      simp only [hspan.1, hspan.2, if_true]
  | some n =>
      have hspan := span_digits (n := n) h
      rw [Option.elim_some, readId]
      simp only [hspan.1, hspan.2]
      rw [if_neg (digits_ne_nil n), value_digits]

/-- A number or the data follows the namespace, but no slash. -/
theorem head?_id_data {id : Option Nat} {data : List UInt8} (h : data.head? ≠ some 0x2F) :
    (id.elim [] digits ++ data).head? ≠ some 0x2F := by
  cases id with
  | none => exact h
  | some n =>
      intro hhead
      have hmem : 0x2F ∈ digits n := by
        cases hdigits : digits n with
        | nil => exact absurd hdigits (digits_ne_nil n)
        | cons b rest =>
            rw [Option.elim_some, hdigits] at hhead
            rw [Option.some.inj hhead]
            exact List.mem_cons_self
      exact absurd (isDigit_of_mem hmem) (by decide)

/-- **Round trip.** -/
theorem decode_encode {p : Packet} (h : p.WellFormed) : decode p.encode = some p := by
  rw [Packet.encode, decode, readAttachments_encode h.attachments]
  simp only [Option.map_some]
  rw [readNamespace_encode h.slash h.comma (head?_id_data h.data)]
  simp only [readId_encode h.digit]

end SocketIo
