/-
  CameraStream.Client.AckCorrelation

  `Application::run` against a server that answers frame descriptors.

  The server may be any that sends at most one ACK for a descriptor it has
  received, at any later time and on the connection of the descriptor, and
  otherwise only messages that do not look like an ACK.  It knows a descriptor by
  its place on the connection.  Each message on its way to the client carries the
  place of the descriptor it answers; the client does not see that and goes by the
  text.

  The client never waits for two frames at once on one connection.  So the only
  ACK that can be under way is that of the last descriptor (`Correlated`), and the
  first text that starts with the expected head is the right one.
-/

import CameraStream.Client.WireDiscipline
import Mathlib.Data.List.Nodup

namespace CameraStream.Client

open EventMachine

/-! ## The server and the connections -/

/-- A message on its way to the client, and the descriptor that it is the ACK of. -/
structure Delivery where
  message : Message
  answers : Option Nat := none

/-- One WebSocket, as the server has it. -/
structure Connection where
  /-- The descriptors handed to the stream, in order. -/
  descriptors : List (Frame × UInt64) := []
  /-- How many of them the server has received. -/
  received : Nat := 0
  /-- Which of them the server has answered, with the arguments of the ACK. -/
  answered : List (Nat × Bytes) := []
  toClient : List Delivery := []

/-- The messages that look like an ACK. -/
def Message.isAck (m : Message) : Bool := m.text && m.startsWith (ascii "43/stream,")

/-- The ACK packet with this id and these arguments. -/
def ackPacket (ackId : UInt64) (arguments : Bytes) : Message :=
  ⟨true, ackHead ackId ++ arguments⟩

namespace Connection

/-- The server receives the next descriptor. -/
def receive (c : Connection) : Option Connection :=
  if c.received < c.descriptors.length then some { c with received := c.received + 1 } else none

/-- The server answers descriptor `n`, unless it has done so before. -/
def answer (c : Connection) (n : Nat) (arguments : Bytes) : Option Connection :=
  match c.descriptors[n]? with
  | none => none
  | some (_, ackId) =>
      if n < c.received ∧ n ∉ c.answered.map Prod.fst ∧ arguments.head? = some 0x5B then
        some { c with
          answered := (n, arguments) :: c.answered
          toClient := c.toClient ++ [⟨ackPacket ackId arguments, some n⟩] }
      else none

/-- The server sends a message that is no ACK. -/
def send (c : Connection) (m : Message) : Option Connection :=
  if m.isAck then none else some { c with toClient := c.toClient ++ [⟨m, none⟩] }

/-- The connection after an event on the wire at the client. -/
def afterWire (c : Connection) : WireEvent → Connection
  | .read _ => { c with toClient := c.toClient.tail }
  -- a descriptor whose write fails may have gone out all the same
  | .wrote (.descriptor frame ackId) | .writeFailed (.descriptor frame ackId) =>
      { c with descriptors := c.descriptors ++ [(frame, ackId)] }
  | _ => c

end Connection

/-! ## What may be under way on a connection -/

/-- The descriptors whose ACKs are under way. -/
def Connection.underway (c : Connection) : List Nat := c.toClient.filterMap Delivery.answers

/-- What the server does on a connection. -/
structure Connection.Sound (c : Connection) : Prop where
  received : c.received ≤ c.descriptors.length
  once : (c.answered.map Prod.fst).Nodup
  acks : ∀ d ∈ c.toClient, ∀ n, d.answers = some n → ∃ frame ackId arguments,
    c.descriptors[n]? = some (frame, ackId) ∧ (n, arguments) ∈ c.answered ∧
      arguments.head? = some 0x5B ∧ d.message = ackPacket ackId arguments
  others : ∀ d ∈ c.toClient, d.answers = none → d.message.isAck = false

/-- The frame whose descriptor is written and whose ACK has not been read. -/
def Phase.outstanding : Phase → Option (Frame × UInt64)
  | .attaching frame ackId => some (frame, ackId)
  | .listening sent | .ponging sent => sent
  | _ => none

/-- All descriptors are answered, and the ACKs have been read, but for the last one while
    the client waits for it. -/
structure Correlated (p : Phase) (c : Connection) : Prop where
  idle : p.ended = false → p.outstanding = none →
    (∀ n < c.descriptors.length, n ∈ c.answered.map Prod.fst) ∧ c.underway = []
  sent : ∀ frame ackId, p.outstanding = some (frame, ackId) → ∃ before,
    c.descriptors = before ++ [(frame, ackId)] ∧
      (∀ n < before.length, n ∈ c.answered.map Prod.fst) ∧
      (c.underway = [] ∨ c.underway = [before.length])

variable {c c' : Connection} {p q : Phase} {d : Delivery} {rest : List Delivery}

theorem sound_new : Connection.Sound {} := by
  refine ⟨Nat.le_refl 0, List.nodup_nil, ?_, ?_⟩ <;> simp

theorem correlated_ended (hended : p.ended = true) (hnone : p.outstanding = none) :
    Correlated p c := by
  refine ⟨?_, ?_⟩
  · intro h
    rw [hended] at h
    cases h
  · intro frame ackId h
    rw [hnone] at h
    cases h

theorem startsWith_ackPacket (ackId : UInt64) (arguments : Bytes) :
    ((ackPacket ackId arguments).text && (ackPacket ackId arguments).startsWith (ackHead ackId)) =
      true := by
  simp [ackPacket, Message.startsWith, List.isPrefixOf_iff_prefix]

/-- A text that starts with the head of an ACK looks like an ACK. -/
theorem isAck_of_ackHead {m : Message} {ackId : UInt64}
    (h : (m.text && m.startsWith (ackHead ackId)) = true) : m.isAck = true := by
  obtain ⟨htext, hstart⟩ := Bool.and_eq_true_iff.mp h
  refine Bool.and_eq_true_iff.mpr ⟨htext, ?_⟩
  have hbegin := List.isPrefixOf_iff_prefix.mp hstart
  exact List.isPrefixOf_iff_prefix.mpr ((List.prefix_append _ _).trans hbegin)

/-- The ACK is decoded from the arguments that the server has put into it. -/
theorem decodeAck_ackPacket (parse : Bytes → Option JsonValue) (ackId : UInt64)
    {arguments : Bytes} (hbracket : arguments.head? = some 0x5B) :
    decodeAck parse ackId (ackPacket ackId arguments) = (parse arguments).bind frameAckOf := by
  have hdata : ((ackPacket ackId arguments).data.drop (ackHead ackId).length).dropWhile
      (· ≠ 0x5B) = arguments := by
    rw [ackPacket, List.drop_left]
    cases arguments with
    | nil => rfl
    | cons b arguments =>
        obtain rfl : b = 0x5B := Option.some.inj hbracket
        rfl
  rw [decodeAck, hdata]
  cases arguments with
  | nil => cases hbracket
  | cons b arguments => rfl

/-! ### The server -/

theorem Connection.Sound.receive (hc : c.Sound) (h : c.receive = some c') : c'.Sound := by
  obtain ⟨hlt, heq⟩ := Option.ite_none_right_eq_some.mp h
  cases heq
  exact ⟨hlt, hc.once, hc.acks, hc.others⟩

theorem correlated_receive (hcorr : Correlated p c) (h : c.receive = some c') :
    Correlated p c' := by
  obtain ⟨-, heq⟩ := Option.ite_none_right_eq_some.mp h
  cases heq
  exact ⟨hcorr.idle, hcorr.sent⟩

theorem Connection.Sound.send {m : Message} (hc : c.Sound) (h : c.send m = some c') :
    c'.Sound := by
  rw [Connection.send] at h
  split at h
  · cases h
  · next hother =>
      cases h
      refine ⟨hc.received, hc.once, ?_, ?_⟩
      · intro d hd n hn
        rcases List.mem_append.mp hd with hold | hnew
        · exact hc.acks d hold n hn
        · obtain rfl := List.mem_singleton.mp hnew
          cases hn
      · intro d hd hnone
        rcases List.mem_append.mp hd with hold | hnew
        · exact hc.others d hold hnone
        · obtain rfl := List.mem_singleton.mp hnew
          exact Bool.eq_false_of_not_eq_true hother

theorem correlated_send {m : Message} (hcorr : Correlated p c) (h : c.send m = some c') :
    Correlated p c' := by
  rw [Connection.send] at h
  split at h
  · cases h
  · cases h
    have hsame : Connection.underway { c with toClient := c.toClient ++ [⟨m, none⟩] } =
        c.underway := by
      simp [Connection.underway]
    refine ⟨?_, ?_⟩
    · intro hlive hnone
      rw [hsame]
      exact hcorr.idle hlive hnone
    · intro frame ackId hout
      rw [hsame]
      exact hcorr.sent frame ackId hout

/-- What the server answers, it has received and not answered before. -/
theorem answer_cases {n : Nat} {arguments : Bytes} (h : c.answer n arguments = some c') :
    ∃ frame ackId, c.descriptors[n]? = some (frame, ackId) ∧ n < c.received ∧
      n ∉ c.answered.map Prod.fst ∧ arguments.head? = some 0x5B ∧
      c' = { c with
        answered := (n, arguments) :: c.answered
        toClient := c.toClient ++ [⟨ackPacket ackId arguments, some n⟩] } := by
  rw [Connection.answer] at h
  split at h
  · cases h
  · next frame ackId hdescriptor =>
      obtain ⟨⟨hreceived, hnew, hbracket⟩, heq⟩ := Option.ite_none_right_eq_some.mp h
      exact ⟨frame, ackId, hdescriptor, hreceived, hnew, hbracket, (Option.some.inj heq).symm⟩

theorem Connection.Sound.answer {n : Nat} {arguments : Bytes} (hc : c.Sound)
    (h : c.answer n arguments = some c') : c'.Sound := by
  obtain ⟨frame, ackId, hdescriptor, -, hnew, hbracket, rfl⟩ := answer_cases h
  refine ⟨hc.received, List.nodup_cons.mpr ⟨hnew, hc.once⟩, fun d hd k hk => ?_,
    fun d hd hnone => ?_⟩
  · rcases List.mem_append.mp hd with hold | hlast
    · obtain ⟨frame', ackId', arguments', hdesc, hmem, hrest⟩ := hc.acks d hold k hk
      exact ⟨frame', ackId', arguments', hdesc, List.mem_cons_of_mem _ hmem, hrest⟩
    · obtain rfl := List.mem_singleton.mp hlast
      obtain rfl : n = k := Option.some.inj hk
      exact ⟨frame, ackId, arguments, hdescriptor, List.mem_cons_self, hbracket, rfl⟩
  · rcases List.mem_append.mp hd with hold | hlast
    · exact hc.others d hold hnone
    · obtain rfl := List.mem_singleton.mp hlast
      cases hnone

/-- An answer can only be that of the last descriptor, and only while the client waits. -/
theorem correlated_answer {n : Nat} {arguments : Bytes} (hc : c.Sound) (hcorr : Correlated p c)
    (h : c.answer n arguments = some c') : Correlated p c' := by
  obtain ⟨frame, ackId, -, hreceived, hnew, -, rfl⟩ := answer_cases h
  have hlt : n < c.descriptors.length := hreceived.trans_le hc.received
  refine ⟨?_, ?_⟩
  · intro hlive hnone
    exact absurd ((hcorr.idle hlive hnone).1 n hlt) hnew
  · intro frame' ackId' hout
    obtain ⟨before, hbefore, hall, hunderway⟩ := hcorr.sent frame' ackId' hout
    refine ⟨before, hbefore, fun k hk => List.mem_cons_of_mem _ (hall k hk), .inr ?_⟩
    have hlast : n = before.length := by
      rw [hbefore, List.length_append, List.length_singleton] at hlt
      have hnot : ¬ n < before.length := fun hk => hnew (hall n hk)
      omega
    have hnone : c.underway = [] := by
      rcases hunderway with hnone | hone
      · exact hnone
      · -- an ACK that is under way has been answered before
        have hmem : before.length ∈ c.underway := by simp [hone]
        obtain ⟨d, hd, hanswers⟩ := List.mem_filterMap.mp hmem
        obtain ⟨-, -, arguments', -, hanswered, -⟩ := hc.acks d hd _ hanswers
        exact absurd (List.mem_map_of_mem hanswered) (hlast ▸ hnew)
    have happend : Connection.underway { c with
        answered := (n, arguments) :: c.answered
        toClient := c.toClient ++ [⟨ackPacket ackId arguments, some n⟩] } = c.underway ++ [n] := by
      simp [Connection.underway]
    rw [happend, hnone, hlast]
    rfl

/-! ### The client -/

theorem Connection.Sound.afterWire (hc : c.Sound) (w : WireEvent) : (c.afterWire w).Sound := by
  have hdescriptor : ∀ frame ackId,
      Connection.Sound { c with descriptors := c.descriptors ++ [(frame, ackId)] } := by
    intro frame ackId
    refine ⟨?_, hc.once, ?_, hc.others⟩
    · have hlength : c.descriptors.length ≤ (c.descriptors ++ [(frame, ackId)]).length := by simp
      exact hc.received.trans hlength
    · intro d hd n hn
      obtain ⟨frame', ackId', arguments, hdesc, hrest⟩ := hc.acks d hd n hn
      have hlt := (List.getElem?_eq_some_iff.mp hdesc).1
      exact ⟨frame', ackId', arguments, (List.getElem?_append_left hlt).trans hdesc, hrest⟩
  cases w with
  | read m =>
      have hsub : ∀ d ∈ c.toClient.tail, d ∈ c.toClient := fun d hd => List.mem_of_mem_tail hd
      exact ⟨hc.received, hc.once, fun d hd => hc.acks d (hsub d hd),
        fun d hd => hc.others d (hsub d hd)⟩
  | wrote packet =>
      cases packet with
      | descriptor frame ackId => exact hdescriptor frame ackId
      | _ => exact hc
  | writeFailed packet =>
      cases packet with
      | descriptor frame ackId => exact hdescriptor frame ackId
      | _ => exact hc
  | _ => exact hc

/-- The client has read the first message. -/
theorem underway_read (hfirst : c.toClient = d :: rest) (m : Message) :
    (c.afterWire (.read m)).underway = rest.filterMap Delivery.answers ∧
      c.underway = d.answers.toList ++ rest.filterMap Delivery.answers := by
  refine ⟨by simp [Connection.afterWire, Connection.underway, hfirst], ?_⟩
  rw [Connection.underway, hfirst]
  cases hanswers : d.answers with
  | none => simp [hanswers]
  | some n => simp [hanswers]

/-- An ACK that the client reads first is that of the last descriptor, which waits for it. -/
theorem first_answers {n : Nat} (hc : c.Sound) (hcorr : Correlated p c) (hlive : p.ended = false)
    (hfirst : c.toClient = d :: rest) (hanswers : d.answers = some n) :
    ∃ frame ackId before arguments, p.outstanding = some (frame, ackId) ∧
      c.descriptors = before ++ [(frame, ackId)] ∧
      (∀ k < before.length, k ∈ c.answered.map Prod.fst) ∧
      (before.length, arguments) ∈ c.answered ∧ arguments.head? = some 0x5B ∧
      d.message = ackPacket ackId arguments ∧ rest.filterMap Delivery.answers = [] := by
  have hbefore := (underway_read hfirst d.message).2
  rw [hanswers] at hbefore
  obtain ⟨frame', ackId', arguments, hdesc, hanswered, hbracket, hmessage⟩ :=
    hc.acks d (hfirst ▸ List.mem_cons_self) n hanswers
  cases hout : p.outstanding with
  | none =>
      -- nothing is under way while no frame is waited for
      have hempty := (hcorr.idle hlive hout).2
      rw [hempty] at hbefore
      cases hbefore
  | some sent =>
      obtain ⟨frame, ackId⟩ := sent
      obtain ⟨before, hdescriptors, hall, hunderway⟩ := hcorr.sent frame ackId hout
      rcases hunderway with hnone | hone
      · rw [hnone] at hbefore
        cases hbefore
      · rw [hone] at hbefore
        obtain ⟨rfl, hrest⟩ := List.cons.inj hbefore
        -- place `before.length` is that of the last descriptor
        rw [hdescriptors, List.getElem?_concat_length] at hdesc
        obtain ⟨rfl, rfl⟩ := Prod.mk.inj (Option.some.inj hdesc)
        exact ⟨frame, ackId, before, arguments, rfl, hdescriptors, hall, hanswered, hbracket,
          hmessage, hrest.symm⟩

/-- A message that is not the expected ACK leaves everything as it is. -/
theorem correlated_skip {m : Message} (hc : c.Sound) (hcorr : Correlated p c)
    (hlive : p.ended = false) (hfirst : c.toClient = d :: rest) (hm : d.message = m)
    (hother : ∀ frame ackId, p.outstanding = some (frame, ackId) →
      (m.text && m.startsWith (ackHead ackId)) = false)
    (hq : q.outstanding = p.outstanding) : Correlated q (c.afterWire (.read m)) := by
  obtain ⟨hafter, hbefore⟩ := underway_read hfirst m
  have hanswers : d.answers = none := by
    cases hanswers : d.answers with
    | none => rfl
    | some n =>
        -- an ACK would have the head that is expected
        obtain ⟨frame, ackId, -, arguments, hout, -, -, -, -, hmessage, -⟩ :=
          first_answers hc hcorr hlive hfirst hanswers
        have hmatch := startsWith_ackPacket ackId arguments
        rw [← hmessage, hm, hother frame ackId hout] at hmatch
        cases hmatch
  have hsame : (c.afterWire (.read m)).underway = c.underway := by
    rw [hafter, hbefore, hanswers]
    rfl
  refine ⟨?_, ?_⟩
  · intro _ hnone
    rw [hsame]
    exact hcorr.idle hlive (hq ▸ hnone)
  · intro frame ackId hout
    rw [hsame]
    exact hcorr.sent frame ackId (hq ▸ hout)

/-- The expected ACK is the ACK of the last descriptor. -/
theorem first_ack {m : Message} {frame : Frame} {ackId : UInt64} (hc : c.Sound)
    (hcorr : Correlated p c) (hout : p.outstanding = some (frame, ackId))
    (hfirst : c.toClient = d :: rest) (hm : d.message = m)
    (hmatch : (m.text && m.startsWith (ackHead ackId)) = true) :
    ∃ before arguments, c.descriptors = before ++ [(frame, ackId)] ∧
      (∀ n < before.length, n ∈ c.answered.map Prod.fst) ∧
      (before.length, arguments) ∈ c.answered ∧ arguments.head? = some 0x5B ∧
      m = ackPacket ackId arguments ∧ rest.filterMap Delivery.answers = [] := by
  have hlive : p.ended = false := by
    cases p <;> first | rfl | cases hout
  cases hanswers : d.answers with
  | none =>
      -- nothing else begins like an ACK
      have hack := hc.others d (hfirst ▸ List.mem_cons_self) hanswers
      rw [hm, isAck_of_ackHead hmatch] at hack
      cases hack
  | some n =>
      obtain ⟨frame', ackId', before, arguments, hout', hdescriptors, hall, hanswered, hbracket,
        hmessage, hrest⟩ := first_answers hc hcorr hlive hfirst hanswers
      obtain ⟨rfl, rfl⟩ := Prod.mk.inj (Option.some.inj (hout'.symm.trans hout))
      exact ⟨before, arguments, hdescriptors, hall, hanswered, hbracket, hm ▸ hmessage, hrest⟩

theorem correlated_same (hcorr : Correlated p c) (hlive : p.ended = false)
    (hq : q.outstanding = p.outstanding) : Correlated q c :=
  ⟨fun _ hnone => hcorr.idle hlive (hq ▸ hnone),
    fun frame ackId hout => hcorr.sent frame ackId (hq ▸ hout)⟩

/-- A transition without an event. -/
theorem correlated_silent (hcorr : Correlated p c) (hstep : WireStep p q []) :
    Correlated q c := by
  cases hstep with
  | stay => exact hcorr
  | sends frame ackId => exact correlated_same hcorr rfl rfl
  | quits _ hq => rcases hq with rfl | rfl <;> exact correlated_ended rfl rfl
  | dropped => exact correlated_ended rfl rfl

theorem wireStep_opened (hstep : WireStep p q [.opened]) : q = .opening := by
  cases hstep with
  | opens => rfl
  | quits hp _ => cases hp

/-- A transition on the present connection. -/
theorem correlated_wire {w : WireEvent} (hc : c.Sound) (hcorr : Correlated p c)
    (hstep : WireStep p q [w]) (hw : w.isOpened = false)
    (hoffer : ∀ m, w = .read m → ∃ d rest, c.toClient = d :: rest ∧ d.message = m) :
    Correlated q (c.afterWire w) := by
  cases hstep with
  | opens => cases hw
  | greeted m auth =>
      obtain ⟨d, rest, hfirst, hm⟩ := hoffer m rfl
      exact correlated_skip hc hcorr rfl hfirst hm (fun _ _ h => by cases h) rfl
  | presented auth => exact correlated_same hcorr rfl rfl
  | pinged sent m hping =>
      obtain ⟨d, rest, hfirst, hm⟩ := hoffer m rfl
      refine correlated_skip hc hcorr rfl hfirst hm (fun frame ackId _ => ?_) rfl
      by_contra hack
      rw [Application.isPing_of_ackHead (Bool.of_not_eq_false hack)] at hping
      cases hping
  | ponged sent => exact correlated_same hcorr rfl rfl
  | skipped sent m hping hother =>
      obtain ⟨d, rest, hfirst, hm⟩ := hoffer m rfl
      exact correlated_skip hc hcorr rfl hfirst hm hother rfl
  | approved m happroval =>
      obtain ⟨d, rest, hfirst, hm⟩ := hoffer m rfl
      exact correlated_skip hc hcorr rfl hfirst hm (fun _ _ h => by cases h) rfl
  | described frame ackId =>
      -- all earlier descriptors are answered, and none of their ACKs is left
      obtain ⟨hall, hnone⟩ := hcorr.idle rfl rfl
      refine ⟨fun _ hout => ?_, fun frame' ackId' hout => ?_⟩
      · cases hout
      obtain ⟨rfl, rfl⟩ : frame = frame' ∧ ackId = ackId' := by simpa [Phase.outstanding] using hout
      exact ⟨c.descriptors, rfl, hall, .inl hnone⟩
  | attached frame ackId => exact correlated_same hcorr rfl rfl
  | acked frame ackId m hmatch =>
      obtain ⟨d, rest, hfirst, hm⟩ := hoffer m rfl
      obtain ⟨before, arguments, hdescriptors, hall, hanswered, -, -, hrest⟩ :=
        first_ack hc hcorr rfl hfirst hm hmatch
      refine ⟨fun _ _ => ⟨fun n hn => ?_, ?_⟩, fun _ _ hout => ?_⟩
      · -- the last descriptor is answered now, as the ones before it were
        have hn : n < c.descriptors.length := hn
        rw [hdescriptors, List.length_append, List.length_singleton] at hn
        rcases Nat.lt_succ_iff_lt_or_eq.mp hn with hlt | rfl
        · exact hall n hlt
        · exact List.mem_map_of_mem hanswered
      · rw [(underway_read hfirst m).1, hrest]
      · cases hout
  | quits _ hq => rcases hq with rfl | rfl <;> exact correlated_ended rfl rfl
  | leaves | cannotLeave => exact correlated_ended rfl rfl

/-! ## Calls of `send_frame` -/

namespace Application

variable {parse : Bytes → Option JsonValue} {a : Application} {e : Event}
  {r : Application × List Output} {frame : Frame}

theorem main_of_describing {ackId : UInt64} (h : a.phase = .describing frame ackId) :
    a.main = .writingDescriptor frame ackId := by
  cases hmain : a.main with
  | writingDescriptor frame' ackId' =>
      obtain ⟨rfl, rfl⟩ : frame' = frame ∧ ackId' = ackId := by simpa [phase, hmain] using h
      rfl
  | loop => cases hauth : a.socket.authenticated <;> simp [phase, hmain, hauth] at h
  | _ => simp [phase, hmain] at h

/-- The first write of `send_frame` comes right after the call. -/
theorem step_describing {ackId : UInt64} (h : a.step parse e = some r)
    (hmain : r.1.main = .writingDescriptor frame ackId) :
    (a.main = .writingDescriptor frame ackId ∧ r.2 = []) ∨ r.2 = [.sending frame] := by
  have hleaves : ∀ b next, (disconnect b next).1.main ≠ .writingDescriptor frame ackId := by
    intro b next hb
    rcases (disconnect_placed b next).2 with ⟨hphase, -⟩ | hphase <;> simp [phase, hb] at hphase
  have hleft : ∀ b next, (resumeAfter (dropSocket b) next).1.main ≠
      .writingDescriptor frame ackId := by
    intro b next hb
    have hphase := (resumeAfter_placed b next).2
    simp [phase, hb] at hphase
  cases step_cases h with
  | goto pc hgoto =>
      obtain rfl : pc = _ := hmain
      cases hgoto
  | raises b _ => exact absurd hmain (hleaves b .delay)
  | stops _ _ | connects _ _ _ => exact absurd hmain (hleaves _ _)
  | left next _ | leftAtOnce _ next _ => exact absurd hmain (hleft a next)
  | sends frames frame' hplace =>
      obtain ⟨rfl, -⟩ := Pc.writingDescriptor.inj hmain
      exact .inr rfl
  | capture b _ hcapture =>
      have hsame := (captureStep_frame hcapture).2.2.2
      exact .inl ⟨hsame ▸ hmain, rfl⟩
  | stopSignal => exact .inl ⟨hmain, rfl⟩
  | _ => cases hmain

/-- A call of `send_frame` has not written anything yet. -/
theorem step_sending (h : a.step parse e = some r) (hmem : .sending frame ∈ r.2) :
    r.1.phase.outstanding = none := by
  have hleaves : ∀ b next, (disconnect b next).1.phase.outstanding = none := by
    intro b next
    rcases (disconnect_placed b next).2 with ⟨hphase, -⟩ | hphase <;> rw [hphase] <;> rfl
  cases step_cases h with
  | goto pc hgoto => cases hgoto <;> simp at hmem
  | raises b _ => exact hleaves b .delay
  | stops _ _ | connects _ _ _ => exact hleaves _ _
  | left next _ | leftAtOnce _ next _ =>
      rw [(resumeAfter_placed a next).2]
      rfl
  | sends frames frame' _ => rfl
  | _ => simp at hmem

/-- `send_frame` returns on a message that it recognises. -/
theorem step_acked {ack : FrameAck} (h : a.step parse e = some r) (hmem : .acked frame ack ∈ r.2) :
    ∃ m ackId, e = .read m ∧ a.main = .readingAck frame ackId ∧
      (m.text && m.startsWith (ackHead ackId)) = true ∧ decodeAck parse ackId m = some ack ∧
      r.2 = [.received m, .acked frame ack] := by
  cases step_cases h with
  | goto pc hgoto => cases hgoto <;> simp at hmem
  | raises b hraises => cases hraises <;> simp [raise_out] at hmem
  | stops _ _ | connects _ _ _ => cases disconnect_out _ _ _ hmem
  | left _ _ | leftAtOnce _ _ _ => cases resumeAfter_out _ _ _ hmem
  | acked m frame' ackId ack' hmain hmatch hack =>
      obtain ⟨rfl, rfl⟩ : frame = frame' ∧ ack = ack' := by simpa using hmem
      exact ⟨m, ackId, rfl, hmain, hmatch, hack, rfl⟩
  | _ => simp at hmem

end Application

/-- The client and all its connections, of which the last opened one is its own. -/
structure AckSystem where
  client : Application
  /-- How many connections have been opened. -/
  opened : Nat := 0
  connections : Nat → Connection := fun _ => {}

namespace AckSystem

inductive Event where
  | client (event : Application.Event)
  /-- What the server does on connection `k`. -/
  | receive (k : Nat)
  | answer (k n : Nat) (arguments : Bytes)
  | send (k : Nat) (message : Message)

inductive Output where
  /-- `send_frame` is called. -/
  | called (frame : Frame)
  /-- Its descriptor is written, as number `n` on connection `k`. -/
  | described (k n : Nat) (frame : Frame)
  /-- The server sends the ACK of descriptor `n` on connection `k`. -/
  | answered (k n : Nat) (arguments : Bytes)
  /-- `send_frame` returns. -/
  | returned (frame : Frame) (ack : FrameAck)
  deriving DecidableEq

/-- The connection of the client's stream object. -/
def current (s : AckSystem) : Connection := s.connections s.opened

def setConnection (s : AckSystem) (k : Nat) (c : Connection) : AckSystem :=
  { s with connections := Function.update s.connections k c }

/-- The connections after an event on the wire at the client. -/
def afterWire (s : AckSystem) : WireEvent → AckSystem
  | .opened => { s with opened := s.opened + 1 }.setConnection (s.opened + 1) {}
  | event => s.setConnection s.opened (s.current.afterWire event)

/-- A read returns the next message of the client's connection. -/
def offers (s : AckSystem) : Application.Event → Bool
  | .read m => (s.current.toClient.head?.map Delivery.message) = some m
  | _ => true

/-- What is reported of an event on the wire. -/
def reportWire (s : AckSystem) : WireEvent → List Output
  | .wrote (.descriptor frame _) => [.described s.opened s.current.descriptors.length frame]
  | _ => []

/-- What is reported of the calls of `send_frame`. -/
def reportCall : Application.Output → List Output
  | .sending frame => [.called frame]
  | .acked frame ack => [.returned frame ack]
  | _ => []

/-- The server acts on an open connection. -/
def serve (s : AckSystem) (k : Nat) (c : Option Connection) (out : List Output) :
    Option (AckSystem × List Output) :=
  if k ≤ s.opened then c.map fun c => (s.setConnection k c, out) else none

def step (parse : Bytes → Option JsonValue) (s : AckSystem) :
    Event → Option (AckSystem × List Output)
  | .client e =>
      if s.offers e then
        (s.client.step parse e).map fun r =>
          let wire := s.client.wire e
          (wire.foldl afterWire { s with client := r.1 },
            wire.flatMap s.reportWire ++ r.2.flatMap reportCall)
      else none
  | .receive k => s.serve k (s.connections k).receive []
  | .answer k n arguments =>
      s.serve k ((s.connections k).answer n arguments) [.answered k n arguments]
  | .send k m => s.serve k ((s.connections k).send m) []

def machine (parse : Bytes → Option JsonValue) : EventMachine AckSystem Event Output :=
  ⟨step parse⟩

/-! ## Steps -/

variable {parse : Bytes → Option JsonValue} {s s' : AckSystem} {out : List Output}

/-- A step of the client, with or without an event on the wire. -/
theorem client_cases {e : Application.Event} (h : s.step parse (.client e) = some (s', out)) :
    ∃ r, s.offers e = true ∧ s.client.step parse e = some r ∧
      (s.client.wire e = [] ∧ s' = { s with client := r.1 } ∧ out = r.2.flatMap reportCall ∨
        ∃ w, s.client.wire e = [w] ∧ s' = { s with client := r.1 }.afterWire w ∧
          out = s.reportWire w ++ r.2.flatMap reportCall) := by
  obtain ⟨hoffer, hmap⟩ := Option.ite_none_right_eq_some.mp h
  obtain ⟨r, hstep, heq⟩ := Option.map_eq_some_iff.mp hmap
  obtain ⟨rfl, rfl⟩ := Prod.mk.inj heq
  refine ⟨r, hoffer, hstep, ?_⟩
  rcases Application.wire_length s.client e with hnone | ⟨w, hone⟩
  · exact .inl ⟨hnone, by rw [hnone]; rfl, by rw [hnone]; rfl⟩
  · refine .inr ⟨w, hone, by rw [hone]; rfl, ?_⟩
    rw [hone, List.flatMap_singleton]

theorem serve_cases {k : Nat} {c : Option Connection} {o : List Output}
    (h : s.serve k c o = some (s', out)) :
    ∃ c', k ≤ s.opened ∧ c = some c' ∧ s' = s.setConnection k c' ∧ out = o := by
  obtain ⟨hk, hmap⟩ := Option.ite_none_right_eq_some.mp h
  obtain ⟨c', hc, heq⟩ := Option.map_eq_some_iff.mp hmap
  obtain ⟨rfl, rfl⟩ := Prod.mk.inj heq
  exact ⟨c', hk, hc, rfl, rfl⟩

/-- What a read returns is the first message of the connection. -/
theorem offers_read {m : Message} (h : s.offers (.read m) = true) :
    ∃ d rest, s.current.toClient = d :: rest ∧ d.message = m := by
  have hhead : s.current.toClient.head?.map Delivery.message = some m := of_decide_eq_true h
  cases hlist : s.current.toClient with
  | nil =>
      rw [hlist] at hhead
      cases hhead
  | cons d rest =>
      rw [hlist] at hhead
      exact ⟨d, rest, rfl, Option.some.inj hhead⟩

@[simp] theorem setConnection_current (c : Connection) :
    (s.setConnection s.opened c).current = c := Function.update_self ..

theorem setConnection_other {k : Nat} (c : Connection) (hk : k ≠ s.opened) :
    (s.setConnection k c).current = s.current := Function.update_of_ne (Ne.symm hk) ..

theorem afterWire_opened : (s.afterWire .opened).current = {} := Function.update_self ..

theorem afterWire_other {w : WireEvent} (hw : w.isOpened = false) :
    s.afterWire w = s.setConnection s.opened (s.current.afterWire w) := by
  cases w with
  | opened => cases hw
  | _ => rfl

@[simp] theorem afterWire_client (w : WireEvent) : (s.afterWire w).client = s.client := by
  cases w <;> rfl

/-- The event that a read shows on the wire. -/
theorem event_of_read {a : Application} {e : Application.Event} {m : Message}
    (h : a.wire e = [.read m]) : e = .read m := by
  unfold Application.wire at h
  split at h
  case h_4 | h_5 => cases hp : a.main.packet <;> simp [hp] at h
  all_goals cases h
  rfl

/-! ## The invariant -/

/-- The server keeps its word on every connection, and the client's own connection carries
    no ACK but the one that is waited for. -/
structure Answering (s : AckSystem) : Prop where
  placed : s.client.Placed
  sound : ∀ k, (s.connections k).Sound
  correlated : Correlated s.client.phase s.current

theorem answering_start (config : Config) : Answering ⟨{ config := config }, 0, fun _ => {}⟩ where
  placed := Application.placed_of rfl rfl rfl
  sound _ := sound_new
  correlated := correlated_ended rfl rfl

theorem sound_set {k : Nat} {c : Connection} (hs : ∀ k, (s.connections k).Sound) (hc : c.Sound)
    (j : Nat) : ((s.setConnection k c).connections j).Sound := by
  by_cases hj : j = k
  · subst hj
    simpa [setConnection] using hc
  · simpa [setConnection, hj] using hs j

/-- What the server does on one connection keeps the invariant. -/
theorem answering_serve {k : Nat} {c : Connection} (hs : Answering s) (hc : c.Sound)
    (hcorr : ∀ p, Correlated p (s.connections k) → Correlated p c) :
    Answering (s.setConnection k c) := by
  refine ⟨hs.placed, sound_set hs.sound hc, ?_⟩
  by_cases hk : k = s.opened
  · subst hk
    rw [setConnection_current]
    exact hcorr _ hs.correlated
  · rw [setConnection_other c hk]
    exact hs.correlated

theorem answering_client {e : Application.Event} (hs : Answering s)
    (h : s.step parse (.client e) = some (s', out)) : Answering s' := by
  obtain ⟨r, hoffer, hstep, hcases⟩ := client_cases h
  obtain ⟨hplaced, hwire⟩ := Application.step_wire hs.placed hstep
  rcases hcases with ⟨hnone, rfl, -⟩ | ⟨w, hone, rfl, -⟩
  · rw [hnone] at hwire
    exact ⟨hplaced, hs.sound, correlated_silent hs.correlated hwire⟩
  · rw [hone] at hwire
    cases hw : w.isOpened with
    | true =>
        obtain rfl : w = .opened := by cases w <;> first | rfl | cases hw
        refine ⟨hplaced, sound_set hs.sound sound_new, ?_⟩
        -- a new connection carries nothing
        rw [afterWire_opened, afterWire_client, wireStep_opened hwire]
        exact ⟨fun _ _ => ⟨by simp, rfl⟩, fun _ _ hout => by cases hout⟩
    | false =>
        have hsound : (s.current.afterWire w).Sound := (hs.sound _).afterWire w
        rw [afterWire_other hw]
        refine ⟨hplaced, sound_set hs.sound hsound, ?_⟩
        rw [setConnection_current]
        refine correlated_wire (hs.sound _) hs.correlated hwire hw ?_
        rintro m rfl
        obtain rfl := event_of_read hone
        exact offers_read hoffer

theorem answering_step {e : Event} (hs : Answering s) (h : s.step parse e = some (s', out)) :
    Answering s' := by
  cases e with
  | client e => exact answering_client hs h
  | receive k =>
      obtain ⟨c, -, hc, rfl, -⟩ := serve_cases h
      exact answering_serve hs ((hs.sound k).receive hc) fun _ hp => correlated_receive hp hc
  | answer k n arguments =>
      obtain ⟨c, -, hc, rfl, -⟩ := serve_cases h
      exact answering_serve hs ((hs.sound k).answer hc)
        fun _ hp => correlated_answer (hs.sound k) hp hc
  | send k m =>
      obtain ⟨c, -, hc, rfl, -⟩ := serve_cases h
      exact answering_serve hs ((hs.sound k).send hc) fun _ hp => correlated_send hp hc

/-! ## What has been reported -/

/-- The last call of `send_frame` is one for `frame`, and `after` has happened since. -/
def LastCall (h : List Output) (frame : Frame) (after : List Output) : Prop :=
  (∃ before, h = before ++ .called frame :: after) ∧ ∀ f, .called f ∉ after

variable {h after : List Output} {frame : Frame}

theorem lastCall_new (h : List Output) (frame : Frame) : LastCall (h ++ [.called frame]) frame [] :=
  ⟨⟨h, rfl⟩, by simp⟩

theorem LastCall.append (hlast : LastCall h frame after) (hout : ∀ f, .called f ∉ out) :
    LastCall (h ++ out) frame (after ++ out) := by
  obtain ⟨⟨before, rfl⟩, hafter⟩ := hlast
  refine ⟨⟨before, by simp⟩, ?_⟩
  intro f hf
  rcases List.mem_append.mp hf with hold | hnew
  · exact hafter f hold
  · exact hout f hnew

/-- The server has answered descriptor `n` on connection `k`. -/
def Recorded (s : AckSystem) (k n : Nat) (arguments : Bytes) : Prop :=
  k ≤ s.opened ∧ (n, arguments) ∈ (s.connections k).answered

theorem recorded_set {k : Nat} {c : Connection} (hc : c.answered = (s.connections k).answered)
    (j n : Nat) (arguments : Bytes) :
    Recorded (s.setConnection k c) j n arguments ↔ Recorded s j n arguments := by
  refine and_congr_right fun _ => ?_
  by_cases hj : j = k
  · subst hj
    simp [setConnection, hc]
  · simp [setConnection, hj]

theorem afterWire_answered (c : Connection) (w : WireEvent) :
    (c.afterWire w).answered = c.answered := by
  cases w with
  | wrote packet | writeFailed packet => cases packet <;> rfl
  | _ => rfl

theorem recorded_afterWire (w : WireEvent) (j n : Nat) (arguments : Bytes) :
    Recorded (s.afterWire w) j n arguments ↔ Recorded s j n arguments := by
  cases hw : w.isOpened with
  | true =>
      obtain rfl : w = .opened := by cases w <;> first | rfl | cases hw
      by_cases hj : j = s.opened + 1
      · -- nothing has happened on the new connection
        subst hj
        simp [Recorded, afterWire, setConnection]
      · have hle : j ≤ s.opened + 1 ↔ j ≤ s.opened := by omega
        simp [Recorded, afterWire, setConnection, hj, hle]
  | false =>
      rw [afterWire_other hw]
      exact recorded_set (afterWire_answered _ w) j n arguments

/-- A wire event is reported as a descriptor or not at all. -/
theorem mem_reportWire {w : WireEvent} {o : Output} (h : o ∈ s.reportWire w) :
    ∃ k n frame, o = .described k n frame := by
  unfold reportWire at h
  split at h
  · exact ⟨_, _, _, List.mem_singleton.mp h⟩
  · cases h

/-- The reports of a client step. -/
theorem report_client {e : Application.Event} (hs : s.step parse (.client e) = some (s', out)) :
    (∀ j n arguments, .answered j n arguments ∉ out) ∧
      (∀ j n arguments, Recorded s' j n arguments ↔ Recorded s j n arguments) := by
  have hcall : ∀ (l : List Application.Output) (j n : Nat) (arguments : Bytes),
      .answered j n arguments ∉ l.flatMap reportCall := by
    intro l j n arguments hmem
    obtain ⟨o, -, ho⟩ := List.mem_flatMap.mp hmem
    cases o <;> simp [reportCall] at ho
  have hwire : ∀ (w : WireEvent) (j n : Nat) (arguments : Bytes),
      .answered j n arguments ∉ s.reportWire w := by
    intro w j n arguments hmem
    obtain ⟨_, _, _, ho⟩ := mem_reportWire hmem
    cases ho
  obtain ⟨r, -, -, hcases⟩ := client_cases hs
  rcases hcases with ⟨-, rfl, rfl⟩ | ⟨w, -, rfl, rfl⟩
  · exact ⟨hcall r.2, fun _ _ _ => Iff.rfl⟩
  · refine ⟨fun j n arguments hmem => ?_, fun j n arguments => recorded_afterWire w j n arguments⟩
    rcases List.mem_append.mp hmem with hleft | hright
    · exact hwire w j n arguments hleft
    · exact hcall r.2 j n arguments hright

/-- The reports agree with the state: what has been answered, and the call that is under
    way with the descriptor it has written. -/
structure Traced (s : AckSystem) (h : List Output) : Prop where
  answers : ∀ k n arguments, .answered k n arguments ∈ h ↔ Recorded s k n arguments
  called : ∀ frame ackId, s.client.main = .writingDescriptor frame ackId →
    ∃ after, LastCall h frame after
  sent : ∀ frame ackId, s.client.phase.outstanding = some (frame, ackId) →
    ∃ after, LastCall h frame after ∧
      .described s.opened (s.current.descriptors.length - 1) frame ∈ after

theorem traced_start (config : Config) : Traced ⟨{ config := config }, 0, fun _ => {}⟩ [] where
  answers k n arguments := by simp [Recorded]
  called frame ackId hmain := by cases hmain
  sent frame ackId hout := by cases hout

/-- The server's steps leave the client and its call alone. -/
theorem traced_serve {k : Nat} {c : Connection} (ht : Traced s h)
    (hanswers : ∀ j n arguments, .answered j n arguments ∈ h ++ out ↔
      Recorded (s.setConnection k c) j n arguments)
    (hdescriptors : c.descriptors = (s.connections k).descriptors)
    (hquiet : ∀ f, .called f ∉ out) : Traced (s.setConnection k c) (h ++ out) := by
  have hcurrent : (s.setConnection k c).current.descriptors = s.current.descriptors := by
    by_cases hk : k = s.opened
    · subst hk
      rw [setConnection_current]
      exact hdescriptors
    · rw [setConnection_other c hk]
  refine ⟨hanswers, ?_, ?_⟩
  · intro frame ackId hmain
    obtain ⟨after, hlast⟩ := ht.called frame ackId hmain
    exact ⟨after ++ out, hlast.append hquiet⟩
  · intro frame ackId hout
    obtain ⟨after, hlast, hmem⟩ := ht.sent frame ackId hout
    refine ⟨after ++ out, hlast.append hquiet, List.mem_append_left _ ?_⟩
    rw [hcurrent]
    exact hmem

/-- A step of the server that is not reported. -/
theorem traced_serve_silent {k : Nat} {c : Connection} (ht : Traced s h)
    (hanswered : c.answered = (s.connections k).answered)
    (hdescriptors : c.descriptors = (s.connections k).descriptors) :
    Traced (s.setConnection k c) (h ++ []) := by
  refine traced_serve ht (fun j n arguments => ?_) hdescriptors (by simp)
  rw [List.append_nil]
  exact (ht.answers j n arguments).trans (recorded_set hanswered j n arguments).symm

/-- The frame that is outstanding was so before, or its descriptor has just been written. -/
theorem wireStep_outstanding {p q : Phase} {ws : List WireEvent} {ackId : UInt64}
    (hstep : WireStep p q ws) (hq : q.outstanding = some (frame, ackId)) :
    (p.outstanding = some (frame, ackId) ∧ ∀ w ∈ ws, w.isOpened = false ∧
      ∀ c : Connection, (c.afterWire w).descriptors = c.descriptors) ∨
    p = .describing frame ackId ∧ ws = [.wrote (.descriptor frame ackId)] := by
  cases hstep with
  | stay => exact .inl ⟨hq, by simp⟩
  | pinged | skipped | ponged | attached =>
      -- the same frame is waited for, and no descriptor is written
      refine .inl ⟨hq, fun w hw => ?_⟩
      obtain rfl := List.mem_singleton.mp hw
      exact ⟨rfl, fun _ => rfl⟩
  | described frame' ackId' =>
      obtain ⟨rfl, rfl⟩ : frame' = frame ∧ ackId' = ackId := by simpa [Phase.outstanding] using hq
      exact .inr ⟨rfl, rfl⟩
  | quits _ hended => rcases hended with rfl | rfl <;> cases hq
  | _ => cases hq

theorem reportCall_quiet {l : List Application.Output} (hl : ∀ f, .sending f ∉ l) (f : Frame) :
    .called f ∉ l.flatMap reportCall := by
  intro hmem
  obtain ⟨o, ho, hf⟩ := List.mem_flatMap.mp hmem
  cases o with
  | sending f' => exact hl f' ho
  | _ => simp [reportCall] at hf

theorem reportWire_quiet (w : WireEvent) (f : Frame) : .called f ∉ s.reportWire w := by
  intro hmem
  obtain ⟨_, _, _, ho⟩ := mem_reportWire hmem
  cases ho

theorem traced_client {e : Application.Event} (hs : Answering s) (ht : Traced s h)
    (hstep : s.step parse (.client e) = some (s', out)) : Traced s' (h ++ out) := by
  obtain ⟨hnone, hrecorded⟩ := report_client hstep
  obtain ⟨r, -, happ, hcases⟩ := client_cases hstep
  obtain ⟨-, hwire⟩ := Application.step_wire hs.placed happ
  have hclient : s'.client = r.1 := by
    rcases hcases with ⟨-, rfl, -⟩ | ⟨w, -, rfl, -⟩
    · rfl
    · exact afterWire_client w
  obtain ⟨pre, hpre, hout⟩ : ∃ pre : List Output, (∀ f, .called f ∉ pre) ∧
      out = pre ++ r.2.flatMap reportCall := by
    rcases hcases with ⟨-, -, rfl⟩ | ⟨w, -, -, rfl⟩
    · exact ⟨[], by simp, rfl⟩
    · exact ⟨s.reportWire w, reportWire_quiet w, rfl⟩
  refine ⟨?_, ?_, ?_⟩
  · intro k n arguments
    rw [List.mem_append, or_iff_left (hnone k n arguments), hrecorded]
    exact ht.answers k n arguments
  · -- the call is an earlier one, or that of this step
    intro frame ackId hmain
    rw [hclient] at hmain
    rcases Application.step_describing happ hmain with ⟨hbefore, hquiet⟩ | hcall
    · obtain ⟨after, hlast⟩ := ht.called frame ackId hbefore
      refine ⟨after ++ out, hlast.append fun f => ?_⟩
      rw [hout, hquiet, List.flatMap_nil, List.append_nil]
      exact hpre f
    · rw [hout, hcall, ← List.append_assoc]
      exact ⟨[], lastCall_new _ frame⟩
  · intro frame ackId hsent
    rw [hclient] at hsent
    have hquiet : ∀ f, .called f ∉ out := by
      intro f
      rw [hout, List.mem_append, not_or]
      refine ⟨hpre f, reportCall_quiet (fun f' hmem => ?_) f⟩
      rw [Application.step_sending happ hmem] at hsent
      cases hsent
    -- the descriptor was written before, or is written in this step
    rcases wireStep_outstanding hwire hsent with ⟨hbefore, hsame⟩ | ⟨hphase, hws⟩
    · obtain ⟨after, hlast, hmem⟩ := ht.sent frame ackId hbefore
      refine ⟨after ++ out, hlast.append hquiet, List.mem_append_left _ ?_⟩
      rcases hcases with ⟨-, rfl, -⟩ | ⟨w, hone, rfl, -⟩
      · exact hmem
      · obtain ⟨hopen, hdescriptors⟩ := hsame w (by simp [hone])
        rw [afterWire_other hopen, setConnection_current, hdescriptors]
        exact hmem
    · obtain ⟨after, hlast⟩ := ht.called frame ackId (Application.main_of_describing hphase)
      rcases hcases with ⟨hnil, -, -⟩ | ⟨w, hone, rfl, rfl⟩
      · rw [hnil] at hws
        cases hws
      · obtain rfl := List.singleton_inj.mp (hone.symm.trans hws)
        refine ⟨_, hlast.append hquiet, List.mem_append_right _ (List.mem_append_left _ ?_)⟩
        rw [afterWire_other rfl, setConnection_current]
        simp [reportWire, Connection.afterWire, setConnection, current]

theorem traced_step {e : Event} (hs : Answering s) (ht : Traced s h)
    (hstep : s.step parse e = some (s', out)) : Traced s' (h ++ out) := by
  cases e with
  | client e => exact traced_client hs ht hstep
  | receive k =>
      obtain ⟨c, -, hc, rfl, rfl⟩ := serve_cases hstep
      obtain ⟨-, heq⟩ := Option.ite_none_right_eq_some.mp hc
      cases heq
      exact traced_serve_silent ht rfl rfl
  | send k m =>
      obtain ⟨c, -, hc, rfl, rfl⟩ := serve_cases hstep
      rw [Connection.send] at hc
      split at hc
      · cases hc
      · cases hc
        exact traced_serve_silent ht rfl rfl
  | answer k n arguments =>
      obtain ⟨c, hk, hc, rfl, rfl⟩ := serve_cases hstep
      obtain ⟨frame, ackId, -, -, -, -, rfl⟩ := answer_cases hc
      refine traced_serve ht (fun j n' arguments' => ?_) rfl (by simp)
      -- the report is the new entry of the server's record
      rw [List.mem_append, ht.answers, List.mem_singleton]
      by_cases hj : j = k
      · subst hj
        simp [Recorded, setConnection, hk, or_comm]
      · simp [Recorded, setConnection, hj]

/-! ## Correlation -/

/-- `ack` is the decoding of the one answer of the server to the descriptor that the last
    call of `send_frame`, for `frame`, has written. -/
def RightAck (parse : Bytes → Option JsonValue) (h : List Output) (frame : Frame)
    (ack : FrameAck) : Prop :=
  ∃ after k n arguments, LastCall h frame after ∧ .described k n frame ∈ after ∧
    .answered k n arguments ∈ h ∧
    (∀ arguments', .answered k n arguments' ∈ h → arguments' = arguments) ∧
    (parse arguments).bind frameAckOf = some ack

/-- A step in which `send_frame` returns. -/
theorem returned_right {e : Event} {ack : FrameAck} (hs : Answering s) (ht : Traced s h)
    (hstep : s.step parse e = some (s', out)) (hmem : .returned frame ack ∈ out) :
    out = [.returned frame ack] ∧ RightAck parse h frame ack := by
  cases e with
  | receive k | send k m | answer k n arguments =>
      obtain ⟨-, -, -, -, rfl⟩ := serve_cases hstep
      simp at hmem
  | client e =>
      obtain ⟨r, hoffer, happ, hcases⟩ := client_cases hstep
      have hcall : .acked frame ack ∈ r.2 := by
        have hreport : .returned frame ack ∈ r.2.flatMap reportCall := by
          rcases hcases with ⟨-, -, rfl⟩ | ⟨w, -, -, rfl⟩
          · exact hmem
          · refine (List.mem_append.mp hmem).resolve_left fun hleft => ?_
            obtain ⟨_, _, _, ho⟩ := mem_reportWire hleft
            cases ho
        obtain ⟨o, ho, hf⟩ := List.mem_flatMap.mp hreport
        cases o with
        | acked frame' ack' =>
            obtain ⟨rfl, rfl⟩ : frame = frame' ∧ ack = ack' := by simpa [reportCall] using hf
            exact ho
        | _ => simp [reportCall] at hf
      -- it returns on the first message that starts with the expected head
      obtain ⟨m, ackId, rfl, hmain, hmatch, hack, hout⟩ := Application.step_acked happ hcall
      have houtstanding : s.client.phase.outstanding = some (frame, ackId) := by
        simp [Application.phase, hmain, Phase.outstanding]
      obtain ⟨d, rest, hfirst, hm⟩ := offers_read hoffer
      obtain ⟨before, arguments, hdescriptors, -, hanswered, hbracket, rfl, -⟩ :=
        first_ack (hs.sound s.opened) hs.correlated houtstanding hfirst hm hmatch
      -- the descriptor of the call is the last one, which this message answers
      obtain ⟨after, hlast, hdescribed⟩ := ht.sent frame ackId houtstanding
      have hn : s.current.descriptors.length - 1 = before.length := by
        rw [current, hdescriptors, List.length_append, List.length_singleton, Nat.add_sub_cancel]
      rw [hn] at hdescribed
      refine ⟨?_, after, s.opened, before.length, arguments, hlast, hdescribed,
        (ht.answers _ _ _).mpr ⟨le_rfl, hanswered⟩, fun arguments' hother => ?_, ?_⟩
      · rcases hcases with ⟨hnil, -, -⟩ | ⟨w, hone, -, rfl⟩
        · cases hnil
        · obtain rfl : .read (ackPacket ackId arguments) = w := List.singleton_inj.mp hone
          rw [hout]
          rfl
      · -- the server answers a descriptor once
        have hrecorded := ((ht.answers _ _ _).mp hother).2
        have hsame := List.inj_on_of_nodup_map (hs.sound s.opened).once hrecorded hanswered rfl
        exact (Prod.mk.inj hsame).2
      · rw [← decodeAck_ackPacket parse ackId hbracket]
        exact hack

variable {config : Config} {es : List Event} {cfg : EventMachine.Config AckSystem Output}

/-- **ACKs are correlated.** In every run, against every server that answers a descriptor at
    most once and on its connection, the result of `send_frame` is the server's answer to
    the descriptor of exactly this frame. -/
theorem acks_correlate
    (hrun : (machine parse).exec (.start ⟨{ config := config }, 0, fun _ => {}⟩) es = some cfg) :
    Whenever (fun h o => ∀ frame ack, o = .returned frame ack → RightAck parse h frame ack)
      cfg.history := by
  refine exec_whenever (I := fun c => Answering c.state ∧ Traced c.state c.history)
    (fun c e c' hc hnext => ?_) (fun c e c' out hc hnext hhist => ?_)
    ⟨answering_start config, traced_start config⟩ whenever_nil hrun
  · obtain ⟨out, hstep, hhist⟩ := next_eq_some hnext
    rw [hhist]
    exact ⟨answering_step hc.1 hstep, traced_step hc.1 hc.2 hstep⟩
  · obtain ⟨out', hstep, hhist'⟩ := next_eq_some hnext
    obtain rfl := List.append_cancel_left (hhist.symm.trans hhist')
    rintro h₁ o h₂ hsplit frame ack rfl
    have hmem : .returned frame ack ∈ out := by simp [hsplit]
    obtain ⟨hout, hright⟩ := returned_right hc.1 hc.2 hstep hmem
    rw [hout] at hsplit
    obtain ⟨rfl, -⟩ : h₁ = [] ∧ h₂ = [] := by
      simpa [List.cons_eq_append_iff] using hsplit
    simpa using hright

/-- One frame and its ACK, with a ping in between. -/
def sampleRun : List Event :=
  [.client (.started true), .client .turn, .client (.resolved true),
    .client (.tcpConnected true), .client (.handshaken true), .send 1 ⟨true, ascii "0{}"⟩,
    .client (.read ⟨true, ascii "0{}"⟩), .client .written, .send 1 ⟨true, ascii "40/stream,{}"⟩,
    .client (.read ⟨true, ascii "40/stream,{}"⟩),
    .client (.frameCaptured (Application.sampleFrame 1)), .client .framePushed,
    .client .popped, .client .written, .client .written, .receive 1, .send 1 ⟨true, ascii "2"⟩,
    .answer 1 0 Application.acceptedText, .client (.read ⟨true, ascii "2"⟩),
    .client .written, .client (.read ⟨true, ackHead 0 ++ Application.acceptedText⟩)]

/-- In the sample run `send_frame` returns, with the right ACK. -/
theorem sample_acks_correlate : ∃ cfg,
    (machine Application.parseSample).exec
        (.start ⟨{ config := Application.sampleConfig }, 0, fun _ => {}⟩) sampleRun = some cfg ∧
      ∃ before ack, cfg.history = before ++ [.returned (Application.sampleFrame 1) ack] ∧
        RightAck Application.parseSample before (Application.sampleFrame 1) ack := by
  have hany : ((machine Application.parseSample).exec
      (.start ⟨{ config := Application.sampleConfig }, 0, fun _ => {}⟩) sampleRun).any
      (fun cfg => cfg.history.getLast? = some (.returned (Application.sampleFrame 1) ⟨true, []⟩)) =
        true := by
    decide +kernel
  obtain ⟨cfg, hrun, hlast⟩ := (Option.any_eq_true _ _).mp hany
  obtain ⟨before, hsplit⟩ := List.getLast?_eq_some_iff.mp (of_decide_eq_true hlast)
  exact ⟨cfg, hrun, before, _, hsplit, acks_correlate hrun before _ [] hsplit _ _ rfl⟩

end AckSystem

end CameraStream.Client
