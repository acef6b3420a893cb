/-
  CameraStream.Client.AckMatching

  Which ACK packets `send_frame` takes for the result of the frame it has sent, whatever
  the server sends.

  `send_frame` compares the beginning of a packet with `43/stream,` and the id it waits
  for.  Behind the id it does not look: an id that goes on with more digits matches, too,
  and the search for `[` then skips them.  `taken_iff` is the exact rule.
-/

import CameraStream.Client.WireFormat

namespace CameraStream.Client

open EventMachine TextRuns

/-- An ACK packet of the namespace: the id in decimal digits and a JSON array. -/
def streamAck (id : Nat) (array : Bytes) : Message :=
  ⟨true, ascii "43/stream," ++ digits id ++ array⟩

namespace Application

/-- `send_frame` goes by this packet: it returns what the packet says, or throws over it. -/
def TakenAsResult (parse : Bytes → Option JsonValue) (a : Application) (frame : Frame)
    (packet : Message) : Prop :=
  ∃ r, a.step parse (.read packet) = some r ∧
    ((∃ ack, .acked frame ack ∈ r.2) ∨ .caught ∈ r.2)

/-- The packet is dropped, and the wait goes on. -/
def Skipped (parse : Bytes → Option JsonValue) (a : Application) (packet : Message) : Prop :=
  a.step parse (.read packet) = some (a, [.received packet])

/-- The packet with id `m` is taken for the result of frame `n` exactly when `m` is `n`, and
    skipped otherwise. -/
def MatchedExactly (parse : Bytes → Option JsonValue) (a : Application) (frame : Frame)
    (n : UInt64) (m : Nat) (array : Bytes) : Prop :=
  (TakenAsResult parse a frame (streamAck m array) ↔ m = n.toNat) ∧
    (m ≠ n.toNat → Skipped parse a (streamAck m array))

variable {parse : Bytes → Option JsonValue} {a : Application} {frame : Frame} {n : UInt64}
  {m : Nat} {array : Bytes}

/-- The head is recognised exactly when the digits of the one id begin those of the other. -/
theorem startsWith_streamAck (harray : array.head? = some 0x5B) :
    ((streamAck m array).text && (streamAck m array).startsWith (ackHead n)) = true ↔
      digits n.toNat <+: digits m := by
  have hbracket : ∀ b ∈ array.head?, isDigit b = false := by
    rw [harray]
    rintro b ⟨⟩
    rfl
  rw [streamAck, Message.startsWith, Bool.true_and, List.isPrefixOf_iff_prefix, ackHead,
    ascii_toString, List.append_assoc, List.prefix_append_right_inj, digits_prefix_iff hbracket]

theorem isPing_streamAck : (streamAck m array).isPing = false := by
  rw [Message.isPing, Bool.and_eq_false_iff]
  refine .inr (decide_eq_false fun h => ?_)
  have hhead := congrArg List.head? h
  simp [streamAck, ascii] at hhead

/-- **The rule.** -/
theorem taken_iff (hmain : a.main = .readingAck frame n) (harray : array.head? = some 0x5B) :
    (digits n.toNat <+: digits m → TakenAsResult parse a frame (streamAck m array)) ∧
      (¬ digits n.toNat <+: digits m → Skipped parse a (streamAck m array)) := by
  refine ⟨?_, ?_⟩
  · intro hbegins
    have hmatch := (startsWith_streamAck harray).mpr hbegins
    cases hack : decodeAck parse n (streamAck m array) with
    | none =>
        refine ⟨(a.raise.1, .received (streamAck m array) :: a.raise.2), ?_, .inr ?_⟩
        · simp [step, mainStep, onRead, hmain, onAckMessage, isPing_streamAck, hmatch, hack]
        · rw [raise_out]
          simp
    | some ack =>
        refine ⟨({ a with
          accepted := a.accepted + if ack.accepted then 1 else 0
          rejected := a.rejected + if ack.accepted then 0 else 1
          main := .loop }, [.received (streamAck m array), .acked frame ack]), ?_, .inl ⟨ack, ?_⟩⟩
        · simp [step, mainStep, onRead, hmain, onAckMessage, isPing_streamAck, hmatch, hack]
        · simp
  · intro hother
    have hmatch := Bool.eq_false_of_not_eq_true (mt (startsWith_streamAck harray).mp hother)
    simp [Skipped, step, mainStep, onRead, hmain, onAckMessage, isPing_streamAck, hmatch]

/-- A skipped packet is not taken. -/
theorem not_taken_of_skipped {packet : Message} (h : Skipped parse a packet) :
    ¬ TakenAsResult parse a frame packet := by
  rintro ⟨r, hstep, htaken⟩
  obtain rfl := Option.some.inj (h.symm.trans hstep)
  simp at htaken

/-- **When the id is matched exactly.** A packet with id `m` is matched exactly by a frame
    that waits for `n`, unless the digits of `n` are a proper beginning of those of `m`. -/
theorem matched_exactly_iff (hmain : a.main = .readingAck frame n)
    (harray : array.head? = some 0x5B) :
    MatchedExactly parse a frame n m array ↔ (m = n.toNat ∨ ¬ digits n.toNat <+: digits m) := by
  obtain ⟨htaken, hskipped⟩ := taken_iff hmain harray
  refine ⟨?_, ?_⟩
  · rintro ⟨hiff, -⟩
    by_cases hbegins : digits n.toNat <+: digits m
    · exact .inl (hiff.mp (htaken hbegins))
    · exact .inr hbegins
  · rintro (rfl | hother)
    · exact ⟨iff_of_true (htaken List.prefix_rfl) rfl, fun hne => absurd rfl hne⟩
    · have hne : m ≠ n.toNat := by
        rintro rfl
        exact hother List.prefix_rfl
      exact ⟨iff_of_false (not_taken_of_skipped (hskipped hother)) hne, fun _ => hskipped hother⟩

/-- While frame 1 waits, the ACK of frame 2 is skipped. -/
theorem two_skipped_for_one :
    MatchedExactly parseSample
      { config := sampleConfig, main := .readingAck (sampleFrame 1) 1 } (sampleFrame 1) 1 2
      (ascii "[{}]") := by
  have hother : ¬ digits (1 : UInt64).toNat <+: digits 2 := by decide +kernel
  exact (matched_exactly_iff rfl (by decide)).mpr (.inr hother)

/-- One frame is answered, and the ACK of the second, with id 1, is waited for. -/
def secondFrameRun : List Event :=
  connectRun ++
  [.frameCaptured (sampleFrame 1), .framePushed, .popped, .written, .written,
    .read ⟨true, ackHead 0 ++ acceptedText⟩, .turn, .frameCaptured (sampleFrame 2), .framePushed,
    .popped, .written, .written]

/-- Then an ACK with id 10 is taken for it. -/
theorem ten_taken_for_one : ∃ c,
    (machine parseSample).exec (.start { config := sampleConfig }) secondFrameRun = some c ∧
      c.state.main = .readingAck (sampleFrame 2) 1 ∧
      ¬ MatchedExactly parseSample c.state (sampleFrame 2) 1 10 (ascii "[{}]") := by
  have hany : ((machine parseSample).exec (.start { config := sampleConfig }) secondFrameRun).any
      (fun c => c.state.main = .readingAck (sampleFrame 2) 1) = true := by decide +kernel
  obtain ⟨c, hrun, hwaits⟩ := (Option.any_eq_true _ _).mp hany
  have hmain : c.state.main = .readingAck (sampleFrame 2) 1 := of_decide_eq_true hwaits
  refine ⟨c, hrun, hmain, ?_⟩
  intro hexact
  have hbegins : digits (1 : UInt64).toNat <+: digits 10 := by decide +kernel
  have hsame := hexact.1.mp ((taken_iff hmain (by decide)).1 hbegins)
  exact absurd hsame (by decide)

end Application

end CameraStream.Client
