/-
  CameraStream.Client.FrameFlow

  The way of a frame through `Application::run`: captured, put into the queue,
  taken out by the sender, handed to `send_frame`.

  An observer (`flow`) reports the operations on the queue and the calls of
  `send_frame` from both threads in the order in which they happen.  `FlowStep`
  lists what one step can do to the parts of the application that frames pass
  through; `step_flow` is the proof that nothing else happens.  The queue inside
  the application is the mailbox of CameraStream.Lib.LatestSlot, whose laws give
  the order of frames and, with the counters, their conservation.
-/

import CameraStream.Client.ApplicationSteps
import CameraStream.Lib.LatestSlot

namespace CameraStream.Client

open EventMachine LatestSlot

/-- The main thread holds a frame that `send_frame` has not finished with. -/
def Pc.carrying : Pc → Bool
  | .writingDescriptor .. | .writingAttachment .. | .readingAck .. | .writingAckPong .. => true
  | _ => false

/-- The places at which `send_frame` is called or running. -/
def Pc.sending : Pc → Bool
  | .popping => true
  | pc => pc.carrying

/-- `run` has returned. -/
def Pc.isStopped : Pc → Bool
  | .stopped _ => true
  | _ => false

theorem Pc.carrying_of_not_sending {pc : Pc} (h : pc.sending = false) : pc.carrying = false := by
  cases pc <;> first | rfl | exact h

/-- A frame that has been counted and not been pushed yet. -/
def CapturePc.unpushed : CapturePc → List Frame
  | .counted frame => [frame]
  | _ => []

/-- Replacements that have not been counted yet. -/
def CapturePc.uncounted : CapturePc → Nat
  | .replacing => 1
  | _ => 0

namespace Application

/-! ## The observer -/

inductive FlowEvent where
  /-- The frame callback counts a frame. -/
  | captured (frame : Frame)
  /-- An operation on the queue, with its result. -/
  | queue (op : LatestSlot.Output Frame)
  /-- `send_frame` is called. -/
  | sent (frame : Frame)
  /-- `send_frame` returns. -/
  | returned (ack : FrameAck)
  /-- `send_frame` throws. -/
  | threw

/-- The capture callback and the operations on the queue. -/
def queueFlow (a : Application) : Event → List FlowEvent
  | .frameCaptured frame => [.captured frame]
  | .framePushed =>
      match a.capture with
      | .counted frame => [.queue (.put frame (a.frames.push frame).2)]
      | _ => []
  | .popped => [.queue (.took a.frames.popFor.2)]
  | .turn =>
      if a.stopRequested || a.cameraFailed then [.queue (.closed a.frames.latest)] else []
  | .queueClosed => [.queue (.closed a.frames.latest)]
  | _ => []

/-- What becomes of a frame in `send_frame`. -/
def sendFlow (a : Application) (out : List Output) : List FlowEvent :=
  -- an exception elsewhere in the loop is not one of `send_frame`
  if a.main.sending then
    out.filterMap fun
      | .sending frame => some (.sent frame)
      | .acked _ ack => some (.returned ack)
      | .caught => some .threw
      | _ => none
  else []

def flow (a : Application) (e : Event) (r : Application × List Output) : List FlowEvent :=
  a.queueFlow e ++ a.sendFlow r.2

/-- `Application::run` under observation. -/
def flowMachine (parse : Bytes → Option JsonValue) :
    EventMachine Application Event FlowEvent := (machine parse).observe flow

/-! ## What one step does to frames -/

/-- The parts of the application that frames pass through, and their counters. -/
structure FlowView where
  slot : LatestSlot Frame
  capture : CapturePc
  carrying : Bool
  captured : Nat
  replaced : Nat
  accepted : Nat
  rejected : Nat

def flowView (a : Application) : FlowView where
  slot := ⟨a.frames.latest, a.frames.closed⟩
  capture := a.capture
  carrying := a.main.carrying
  captured := a.captured
  replaced := a.replaced
  accepted := a.accepted
  rejected := a.rejected

/-- One step, by what it does to frames. -/
inductive FlowStep (v : FlowView) : FlowView → List FlowEvent → Prop where
  | quiet : FlowStep v v []
  | captures (frame : Frame) (hidle : v.capture = .idle) :
      FlowStep v { v with captured := v.captured + 1, capture := .counted frame }
        [.captured frame]
  | pushes (frame : Frame) (slot : LatestSlot Frame) (replaced : Bool)
      (hcounted : v.capture = .counted frame)
      (hput : v.slot.step (.put frame) = some (slot, [.put frame replaced])) :
      FlowStep v { v with slot := slot, capture := if replaced then .replacing else .idle }
        [.queue (.put frame replaced)]
  | counts (hreplacing : v.capture = .replacing) :
      FlowStep v { v with replaced := v.replaced + 1, capture := .idle } []
  | fails (pc : CapturePc) (hbefore : v.capture.unpushed = [] ∧ v.capture.uncounted = 0)
      (hafter : pc.unpushed = [] ∧ pc.uncounted = 0) : FlowStep v { v with capture := pc } []
  | closes (pc : CapturePc) (slot : LatestSlot Frame)
      (hkeep : pc.unpushed = v.capture.unpushed ∧ pc.uncounted = v.capture.uncounted)
      (hclose : v.slot.step .close = some (slot, [.closed v.slot.item])) :
      FlowStep v { v with slot := slot, capture := pc } [.queue (.closed v.slot.item)]
  | misses (slot : LatestSlot Frame) (htake : v.slot.step .take = some (slot, [.took none])) :
      FlowStep v { v with slot := slot } [.queue (.took none)]
  | sends (frame : Frame) (slot : LatestSlot Frame) (hcarrying : v.carrying = false)
      (htake : v.slot.step .take = some (slot, [.took (some frame)])) :
      FlowStep v { v with slot := slot, carrying := true }
        [.queue (.took (some frame)), .sent frame]
  | loses (frame : Frame) (slot : LatestSlot Frame) (hcarrying : v.carrying = false)
      (htake : v.slot.step .take = some (slot, [.took (some frame)])) :
      FlowStep v { v with slot := slot } [.queue (.took (some frame)), .sent frame, .threw]
  | returns (ack : FrameAck) (hcarrying : v.carrying = true) :
      FlowStep v
        { v with
          carrying := false
          accepted := v.accepted + if ack.accepted then 1 else 0
          rejected := v.rejected + if ack.accepted then 0 else 1 } [.returned ack]
  | throws (hcarrying : v.carrying = true) : FlowStep v { v with carrying := false } [.threw]

variable {parse : Bytes → Option JsonValue} {a b : Application} {e : Event}
  {r : Application × List Output} {out : List Output}

/-- The runs that are observed are the runs of `Application::run`. -/
theorem exec_flowMachine {es : List Event} :
    (∃ h, (machine parse).exec (.start a) es = some ⟨b, h⟩) ↔
      ∃ h, (flowMachine parse).exec (.start a) es = some ⟨b, h⟩ :=
  exec_observe [] []

/-- Outside `send_frame` its outcome is not observed. -/
theorem sendFlow_of_not_sending (h : a.main.sending = false) (out : List Output) :
    a.sendFlow out = [] := by
  rw [sendFlow, if_neg (by simp [h])]

theorem resumeAfter_view (b : Application) (next : AfterDisconnect) :
    (b.resumeAfter next).1.flowView = { b.flowView with carrying := false } := by
  cases next with
  | connect =>
      rw [resumeAfter]
      split <;> rfl
  | delay => rfl
  | finish => rfl

/-- `disconnect()` touches no frame. -/
theorem disconnect_view (b : Application) (next : AfterDisconnect) :
    (b.disconnect next).1.flowView = { b.flowView with carrying := false } := by
  rw [disconnect]
  split
  · rfl
  · exact b.dropSocket.resumeAfter_view next

theorem raise_view (b : Application) :
    b.raise.1.flowView = { b.flowView with carrying := false } :=
  b.disconnect_view .delay

theorem quiet_of (hview : r.1.flowView = a.flowView) (hflow : flow a e r = []) :
    FlowStep a.flowView r.1.flowView (flow a e r) := by
  rw [hview, hflow]
  exact .quiet

/-- `pop_for` takes from the mailbox. -/
theorem take_of_popFor {frames : LatestFrameQueue} {t : Option Frame}
    (hpop : a.frames.popFor = (frames, t)) :
    a.flowView.slot.step .take = some (⟨frames.latest, frames.closed⟩, [.took t]) := by
  obtain rfl : _ = frames := congrArg Prod.fst hpop
  obtain rfl : _ = t := congrArg Prod.snd hpop
  rfl

/-- `push` puts into the mailbox. -/
theorem put_of_push (a : Application) (frame : Frame) :
    a.flowView.slot.step (.put frame) =
      some (⟨(a.frames.push frame).1.latest, (a.frames.push frame).1.closed⟩,
        [.put frame (a.frames.push frame).2]) := by
  cases hclosed : a.frames.closed with
  | false => simp [LatestSlot.step, flowView, LatestFrameQueue.push, hclosed]
  | true => simp [LatestSlot.step, flowView, LatestFrameQueue.push, hclosed]

/-- Moving the main thread alone is no business of frames. -/
theorem flow_goto {pc : Pc} (h : Goto a e pc out) :
    FlowStep a.flowView { a with main := pc }.flowView (flow a e ({ a with main := pc }, out)) := by
  have hcarrying : pc.carrying = a.main.carrying := by
    cases h with
    | namespaceSkipped hmain _ _ => simp [hmain]
    | ackSkipped hmain _ _ => simp [hmain]
    | _ hmain => simp [hmain, Pc.carrying]
  have hflow : flow a e ({ a with main := pc }, out) = [] := by
    cases h with
    | connected hmain hrunning _ => simp [flow, queueFlow, hrunning, sendFlow]
    | _ => simp [flow, queueFlow, sendFlow]
  exact quiet_of (by rw [flowView, flowView, hcarrying]) hflow

/-- An exception is one of `send_frame` exactly when a frame is being sent. -/
theorem flow_raises (h : Raises parse a e b out) :
    FlowStep a.flowView b.raise.1.flowView (flow a e (b.raise.1, out ++ b.raise.2)) := by
  have helsewhere : a.main.sending = false → a.queueFlow e = [] → b.flowView = a.flowView →
      FlowStep a.flowView b.raise.1.flowView (flow a e (b.raise.1, out ++ b.raise.2)) := by
    intro hsending hqueue hview
    refine quiet_of (r := (b.raise.1, out ++ b.raise.2)) ?_ ?_
    · have hcarrying := Pc.carrying_of_not_sending hsending
      rw [raise_view, hview, flowView, hcarrying]
    · rw [flow, hqueue, sendFlow_of_not_sending hsending, List.nil_append]
  have hthrows : a.main.carrying = true → a.queueFlow e = [] → b.flowView = a.flowView →
      a.sendFlow (out ++ b.raise.2) = [.threw] →
      FlowStep a.flowView b.raise.1.flowView (flow a e (b.raise.1, out ++ b.raise.2)) := by
    intro hcarrying hqueue hview hsend
    rw [flow, hqueue, hsend, raise_view, hview]
    exact .throws hcarrying
  cases h with
  | resolve hmain => exact helsewhere (by rw [hmain]; rfl) rfl rfl
  | tcp hmain => exact helsewhere (by rw [hmain]; rfl) rfl rfl
  | handshake hmain => exact helsewhere (by rw [hmain]; rfl) rfl rfl
  | opening hmain _ => exact helsewhere (by rw [hmain]; rfl) rfl rfl
  | refused hmain _ _ => exact helsewhere (by rw [hmain]; rfl) rfl rfl
  | ack hmain _ _ =>
      refine hthrows (by rw [hmain]; rfl) rfl rfl ?_
      simp [sendFlow, hmain, Pc.sending, Pc.carrying, raise_out]
  | read hmain =>
      cases hplace : a.main with
      | readingAck frame ackId =>
          refine hthrows (by rw [hplace]; rfl) rfl rfl ?_
          simp [sendFlow, hplace, Pc.sending, Pc.carrying, raise_out]
      | _ =>
          rw [hplace] at hmain
          cases hmain <;> exact helsewhere (by rw [hplace]; rfl) rfl rfl
  | write hmain =>
      cases hplace : a.main with
      | writingDescriptor frame ackId | writingAttachment frame ackId
      | writingAckPong frame ackId =>
          refine hthrows (by rw [hplace]; rfl) rfl rfl ?_
          simp [sendFlow, hplace, Pc.sending, Pc.carrying, raise_out]
      | _ =>
          rw [hplace] at hmain
          cases hmain <;> exact helsewhere (by rw [hplace]; rfl) rfl rfl
  | @send frames frame hmain hpop hbad =>
      -- the frame has left the queue when `send_frame` rejects it
      have hcarrying : a.main.carrying = false := by rw [hmain]; rfl
      have hview : { a with frames := frames }.raise.1.flowView =
          { a.flowView with slot := ⟨frames.latest, frames.closed⟩ } := by
        rw [raise_view]
        simp [flowView, hcarrying]
      have hflow : flow a .popped ({ a with frames := frames }.raise.1,
            [.sending frame] ++ { a with frames := frames }.raise.2) =
          [.queue (.took (some frame)), .sent frame, .threw] := by
        simp [flow, queueFlow, sendFlow, hmain, Pc.sending, raise_out, hpop]
      rw [hview, hflow]
      exact .loses frame _ hcarrying (take_of_popFor hpop)

/-- The capture thread and the queue. -/
theorem flow_capture (h : a.captureStep e = some b) :
    FlowStep a.flowView b.flowView (flow a e (b, [])) := by
  -- the capture thread never calls `send_frame`
  have hflow : flow a e (b, []) = a.queueFlow e := by simp [flow, sendFlow]
  have hidle : ∀ pc : CapturePc, pc = .idle ∨ pc = .failing ∨ pc = .closing →
      pc.unpushed = [] ∧ pc.uncounted = 0 := by
    rintro pc (rfl | rfl | rfl) <;> exact ⟨rfl, rfl⟩
  rw [hflow]
  cases captureStep_cases h with
  | captured frame hcapture => exact .captures frame hcapture
  | pushed frame hcapture =>
      rw [queueFlow, hcapture]
      exact .pushes frame _ _ hcapture (put_of_push a frame)
  | counted hcapture => exact .counts hcapture
  | ignored hcapture hstop =>
      -- after a stop request the callback returns at once
      exact .fails .idle (hidle _ (.inl hcapture)) (hidle _ (.inl rfl))
  | heeded hcapture hstop =>
      exact .fails .failing (hidle _ (.inl hcapture)) (hidle _ (.inr (.inl rfl)))
  | stored hcapture =>
      exact .fails .closing (hidle _ (.inr (.inl hcapture))) (hidle _ (.inr (.inr rfl)))
  | closed hcapture =>
      have hclosing := hidle _ (.inr (.inr hcapture))
      exact .closes .idle _ ⟨hclosing.1.symm, hclosing.2.symm⟩ rfl

/-- **Frames.** Every step does to frames what `FlowStep` lists. -/
theorem step_flow (h : a.step parse e = some r) :
    FlowStep a.flowView r.1.flowView (flow a e r) := by
  cases step_cases h with
  | goto pc hgoto => exact flow_goto hgoto
  | raises b hraises => exact flow_raises hraises
  | stops hmain hstop =>
      -- the loop is left; closing the queue removes the frame that is there
      have hflow : ∀ r, flow a .turn r = [.queue (.closed a.frames.latest)] := by
        intro r
        simp [flow, queueFlow, hstop, sendFlow, hmain, Pc.sending, Pc.carrying]
      have hcarrying : a.main.carrying = false := by rw [hmain]; rfl
      have hview : ({ a with frames := a.frames.close }.disconnect .finish).1.flowView =
          { a.flowView with slot := ⟨none, true⟩, capture := a.capture } := by
        rw [disconnect_view]
        simp [flowView, hcarrying, LatestFrameQueue.close]
      rw [hflow, hview]
      exact .closes a.capture _ ⟨rfl, rfl⟩ rfl
  | connects hmain hrunning _ =>
      refine quiet_of ?_ ?_
      · rw [disconnect_view, flowView, hmain]
        rfl
      · simp [flow, queueFlow, hrunning, sendFlow, hmain, Pc.sending, Pc.carrying]
  | left next hmain | leftAtOnce _ next hmain =>
      refine quiet_of ?_ ?_
      · rw [resumeAfter_view, flowView, flowView, hmain]
        rfl
      · simp [flow, queueFlow, sendFlow, hmain, Pc.sending, Pc.carrying]
  | resolved hmain | handshaken hmain | approved m hmain _ | delayed jitter hmain _ | slept hmain =>
      refine quiet_of ?_ ?_
      · rw [flowView, flowView, hmain]
        rfl
      · simp [flow, queueFlow, sendFlow, hmain, Pc.sending, Pc.carrying]
  | noFrame frames hmain hpop =>
      have hview : { a with frames := frames, main := .loop }.flowView =
          { a.flowView with slot := ⟨frames.latest, frames.closed⟩ } := by
        rw [flowView, flowView, hmain]
        rfl
      have hflow : ∀ b : Application, flow a .popped (b, []) = [.queue (.took none)] := by
        intro b
        simp [flow, queueFlow, hpop, sendFlow]
      rw [hview, hflow]
      exact .misses _ (take_of_popFor hpop)
  | sends frames frame hmain hpop =>
      have hcarrying : a.main.carrying = false := by rw [hmain]; rfl
      have hflow : ∀ b : Application, flow a .popped (b, [.sending frame]) =
          [.queue (.took (some frame)), .sent frame] := by
        intro b
        simp [flow, queueFlow, hpop, sendFlow, hmain, Pc.sending]
      rw [hflow]
      exact .sends frame _ hcarrying (take_of_popFor hpop)
  | acked m frame ackId ack hmain =>
      -- the frame is let go and counted in the same step
      have hcarrying : a.main.carrying = true := by rw [hmain]; rfl
      have hflow : ∀ b : Application, flow a (.read m) (b, [.received m, .acked frame ack]) =
          [.returned ack] := by
        intro b
        simp [flow, queueFlow, sendFlow, hmain, Pc.sending, Pc.carrying]
      rw [hflow]
      exact .returns ack hcarrying
  | capture b _ hcapture => exact flow_capture hcapture
  | stopSignal => exact quiet_of rfl (by simp [flow, queueFlow, sendFlow])

/-! ## Reading the observations -/

def FlowEvent.toOp : FlowEvent → Option (LatestSlot.Output Frame)
  | .queue op => some op
  | _ => none

/-- The operations on the queue. -/
def queueOps (h : List FlowEvent) : List (LatestSlot.Output Frame) := h.filterMap FlowEvent.toOp

/-- The frames that were captured, in order. -/
def captures (h : List FlowEvent) : List Frame :=
  h.filterMap fun
    | .captured frame => some frame
    | _ => none

/-- The frames that were handed to `send_frame`, in order. -/
def sents (h : List FlowEvent) : List Frame :=
  h.filterMap fun
    | .sent frame => some frame
    | _ => none

/-- How many calls of `send_frame` have returned. -/
def returns (h : List FlowEvent) : Nat :=
  h.countP fun
    | .returned _ => true
    | _ => false

/-- How many calls of `send_frame` have thrown. -/
def throws (h : List FlowEvent) : Nat :=
  h.countP fun
    | .threw => true
    | _ => false

section Reading

variable (h h' : List FlowEvent) (frame : Frame) (ack : FrameAck) (op : LatestSlot.Output Frame)

@[simp] theorem queueOps_append : queueOps (h ++ h') = queueOps h ++ queueOps h' :=
  List.filterMap_append

@[simp] theorem captures_append : captures (h ++ h') = captures h ++ captures h' :=
  List.filterMap_append

@[simp] theorem sents_append : sents (h ++ h') = sents h ++ sents h' :=
  List.filterMap_append

@[simp] theorem returns_append : returns (h ++ h') = returns h + returns h' :=
  List.countP_append

@[simp] theorem throws_append : throws (h ++ h') = throws h + throws h' :=
  List.countP_append

@[simp] theorem queueOps_nil : queueOps [] = [] := rfl

@[simp] theorem captures_nil : captures [] = [] := rfl

@[simp] theorem sents_nil : sents [] = [] := rfl

@[simp] theorem returns_nil : returns [] = 0 := rfl

@[simp] theorem throws_nil : throws [] = 0 := rfl

@[simp] theorem read_captured :
    queueOps (.captured frame :: h) = queueOps h ∧
      captures (.captured frame :: h) = frame :: captures h ∧
      sents (.captured frame :: h) = sents h ∧ returns (.captured frame :: h) = returns h ∧
      throws (.captured frame :: h) = throws h :=
  ⟨rfl, rfl, rfl, by simp [returns], by simp [throws]⟩

@[simp] theorem read_queue :
    queueOps (.queue op :: h) = op :: queueOps h ∧ captures (.queue op :: h) = captures h ∧
      sents (.queue op :: h) = sents h ∧ returns (.queue op :: h) = returns h ∧
      throws (.queue op :: h) = throws h :=
  ⟨rfl, rfl, rfl, by simp [returns], by simp [throws]⟩

@[simp] theorem read_sent :
    queueOps (.sent frame :: h) = queueOps h ∧ captures (.sent frame :: h) = captures h ∧
      sents (.sent frame :: h) = frame :: sents h ∧ returns (.sent frame :: h) = returns h ∧
      throws (.sent frame :: h) = throws h :=
  ⟨rfl, rfl, rfl, by simp [returns], by simp [throws]⟩

@[simp] theorem read_returned :
    queueOps (.returned ack :: h) = queueOps h ∧ captures (.returned ack :: h) = captures h ∧
      sents (.returned ack :: h) = sents h ∧ returns (.returned ack :: h) = returns h + 1 ∧
      throws (.returned ack :: h) = throws h :=
  ⟨rfl, rfl, rfl, by simp [returns], by simp [throws]⟩

@[simp] theorem read_threw :
    queueOps (.threw :: h) = queueOps h ∧ captures (.threw :: h) = captures h ∧
      sents (.threw :: h) = sents h ∧ returns (.threw :: h) = returns h ∧
      throws (.threw :: h) = throws h + 1 :=
  ⟨rfl, rfl, rfl, by simp [returns], by simp [throws]⟩

end Reading

/-! ## The law -/

/-- The queue in step with the mailbox, and the counters with what was observed. -/
structure FlowLaw (v : FlowView) (h : List FlowEvent) : Prop where
  slot : ∃ ops, (LatestSlot.machine Frame).exec (.start {}) ops = some ⟨v.slot, queueOps h⟩
  captures : captures h = puts (queueOps h) ++ v.capture.unpushed
  captured : v.captured = (Application.captures h).length
  replaced : v.replaced + v.capture.uncounted = replacements (queueOps h)
  sent : sents h = takes (queueOps h)
  returned : v.accepted + v.rejected = returns h
  account : (sents h).length = returns h + throws h + v.carrying.toNat

theorem flowLaw_start (config : Config) :
    FlowLaw ({ config := config } : Application).flowView [] where
  slot := ⟨[], rfl⟩
  captures := rfl
  captured := rfl
  replaced := rfl
  sent := rfl
  returned := rfl
  account := rfl

/-- One more operation of the mailbox. -/
theorem slot_step {s s' : LatestSlot Frame} {op : LatestSlot.Op Frame}
    {o : LatestSlot.Output Frame} {h : List (LatestSlot.Output Frame)}
    (hrun : ∃ ops, (LatestSlot.machine Frame).exec (.start {}) ops = some ⟨s, h⟩)
    (hstep : s.step op = some (s', [o])) :
    ∃ ops, (LatestSlot.machine Frame).exec (.start {}) ops = some ⟨s', h ++ [o]⟩ := by
  obtain ⟨ops, hops⟩ := hrun
  refine ⟨ops ++ [op], ?_⟩
  have hnext : (LatestSlot.machine Frame).next ⟨s, h⟩ op = some ⟨s', h ++ [o]⟩ :=
    next_of_step hstep
  rw [exec_append, hops, Option.bind_some, exec_cons, hnext]
  rfl

theorem flowLaw_step {v v' : FlowView} {h fl : List FlowEvent} (hlaw : FlowLaw v h)
    (hstep : FlowStep v v' fl) : FlowLaw v' (h ++ fl) := by
  obtain ⟨hslot, hcaptures, hcaptured, hreplaced, hsent, hreturned, haccount⟩ := hlaw
  cases hstep with
  | quiet => simpa using ⟨hslot, hcaptures, hcaptured, hreplaced, hsent, hreturned, haccount⟩
  | captures frame hidle =>
      rw [hidle] at hcaptures hreplaced
      refine ⟨by simpa using hslot, ?_, by simpa using hcaptured,
        by simpa [CapturePc.uncounted] using hreplaced, by simpa using hsent,
        by simpa using hreturned, by simpa using haccount⟩
      simpa [CapturePc.unpushed] using hcaptures
  | pushes frame slot replaced hcounted hput =>
      -- the frame that was counted is the frame that is put
      rw [hcounted] at hcaptures hreplaced
      refine ⟨by simpa using slot_step hslot hput, ?_, by simpa using hcaptured, ?_,
        by simpa using hsent, by simpa using hreturned, by simpa using haccount⟩
      · cases replaced <;> simpa [CapturePc.unpushed] using hcaptures
      · cases replaced <;> simpa [CapturePc.uncounted] using hreplaced
  | counts hreplacing =>
      rw [hreplacing] at hcaptures hreplaced
      refine ⟨by simpa using hslot, by simpa [CapturePc.unpushed] using hcaptures,
        by simpa using hcaptured, by simpa [CapturePc.uncounted] using hreplaced,
        by simpa using hsent, by simpa using hreturned, by simpa using haccount⟩
  | fails pc hbefore hafter =>
      rw [hbefore.1] at hcaptures
      rw [hbefore.2] at hreplaced
      refine ⟨by simpa using hslot, ?_, by simpa using hcaptured, ?_,
        by simpa using hsent, by simpa using hreturned, by simpa using haccount⟩
      · simpa [hafter.1] using hcaptures
      · simpa [hafter.2] using hreplaced
  | closes pc slot hkeep hclose =>
      refine ⟨by simpa using slot_step hslot hclose, ?_, by simpa using hcaptured, ?_,
        by simpa using hsent, by simpa using hreturned, by simpa using haccount⟩
      · simpa [hkeep.1] using hcaptures
      · simpa [hkeep.2] using hreplaced
  | misses slot htake =>
      exact ⟨by simpa using slot_step hslot htake, by simpa using hcaptures,
        by simpa using hcaptured, by simpa using hreplaced, by simpa using hsent,
        by simpa using hreturned, by simpa using haccount⟩
  | sends frame slot hcarrying htake =>
      rw [hcarrying] at haccount
      refine ⟨by simpa using slot_step hslot htake, by simpa using hcaptures,
        by simpa using hcaptured, by simpa using hreplaced, by simpa using hsent,
        by simpa using hreturned, ?_⟩
      simpa using haccount
  | loses frame slot hcarrying htake =>
      rw [hcarrying] at haccount
      refine ⟨by simpa using slot_step hslot htake, by simpa using hcaptures,
        by simpa using hcaptured, by simpa using hreplaced, by simpa using hsent,
        by simpa using hreturned, ?_⟩
      simp [hcarrying] at haccount ⊢
      omega
  | returns ack hcarrying =>
      rw [hcarrying] at haccount
      refine ⟨by simpa using hslot, by simpa using hcaptures, by simpa using hcaptured,
        by simpa using hreplaced, by simpa using hsent, ?_, ?_⟩
      · -- the answer counts as accepted or as rejected
        simp only [returns_append, read_returned, returns_nil]
        split <;> omega
      · simp at haccount ⊢
        omega
  | throws hcarrying =>
      rw [hcarrying] at haccount
      refine ⟨by simpa using hslot, by simpa using hcaptures, by simpa using hcaptured,
        by simpa using hreplaced, by simpa using hsent, by simpa using hreturned, ?_⟩
      simp at haccount ⊢
      omega

variable {config : Config} {es : List Event} {cfg : EventMachine.Config Application FlowEvent}

theorem flowLaw_run
    (hrun : (flowMachine parse).exec (.start { config := config }) es = some cfg) :
    FlowLaw cfg.state.flowView cfg.history := by
  refine exec_invariant (I := fun c => FlowLaw c.state.flowView c.history)
    (fun c e c' hlaw hnext => ?_) (flowLaw_start config) hrun
  obtain ⟨out, hstep, hhist⟩ := observe_next hnext
  rw [hhist]
  exact flowLaw_step hlaw (step_flow hstep)

/-- What a step captures, by its event. -/
theorem captures_flow (a : Application) (e : Event) (r : Application × List Output) :
    ∀ frame ∈ captures (flow a e r), e = .frameCaptured frame := by
  intro frame hframe
  have hsend : captures (a.sendFlow r.2) = [] := by
    rw [sendFlow]
    split
    · rw [captures, List.filterMap_filterMap, List.filterMap_eq_nil_iff]
      intro o _
      cases o <;> rfl
    · rfl
  rw [flow, captures_append, hsend, List.append_nil] at hframe
  cases e with
  | frameCaptured frame' =>
      obtain rfl : frame = frame' := by simpa [queueFlow] using hframe
      rfl
  | framePushed => cases hcapture : a.capture <;> simp [queueFlow, hcapture] at hframe
  | turn => cases hstop : a.stopRequested || a.cameraFailed <;> simp [queueFlow, hstop] at hframe
  | _ => simp [queueFlow] at hframe

/-- A frame that is handed to `send_frame` has been captured in the run. -/
theorem captured_of_sent
    (hrun : (flowMachine parse).exec (.start { config := config }) es = some cfg) :
    ∀ frame ∈ sents cfg.history, .frameCaptured frame ∈ es := by
  have hcaptured : ∀ frame ∈ captures cfg.history, .frameCaptured frame ∈ es := by
    refine exec_invariant_mem (I := fun c => ∀ frame ∈ captures c.history,
      Event.frameCaptured frame ∈ es) (fun e he c c' hold hnext frame hframe => ?_) (by simp) hrun
    obtain ⟨out, -, hhist⟩ := observe_next hnext
    rw [hhist, captures_append] at hframe
    rcases List.mem_append.mp hframe with hframe | hframe
    · exact hold frame hframe
    · exact captures_flow _ _ _ frame hframe ▸ he
  have hlaw := flowLaw_run hrun
  obtain ⟨ops, hops⟩ := hlaw.slot
  have hslot : LatestSlot.Law ⟨cfg.state.flowView.slot, queueOps cfg.history⟩ := law_run hops
  intro frame hsent
  -- sent, so taken, so put, so captured
  rw [hlaw.sent] at hsent
  have hput := hslot.order.subset (List.mem_append_left _ hsent)
  apply hcaptured
  rw [hlaw.captures]
  exact List.mem_append_left _ hput

/-- A frame that is on its way out has been captured before. -/
theorem captured_of_sending {c : EventMachine.Config Application Output} {frame : Frame}
    (hrun : (machine parse).exec (.start { config := config }) es = some c)
    (hmain : c.state.main = .popping) (hstep : c.state.step parse e = some r)
    (hsending : .sending frame ∈ r.2) : .frameCaptured frame ∈ es ++ [e] := by
  obtain ⟨h, hflow⟩ := exec_flowMachine.mp ⟨c.history, hrun⟩
  have hnext : (flowMachine parse).next ⟨c.state, h⟩ e =
      some ⟨r.1, h ++ flow c.state e r⟩ :=
    next_of_step (by simp [flowMachine, observe, machine, hstep])
  have hlonger : (flowMachine parse).exec (.start { config := config }) (es ++ [e]) =
      some ⟨r.1, h ++ flow c.state e r⟩ := by
    rw [exec_append, hflow, Option.bind_some, exec_cons, hnext]
    rfl
  refine captured_of_sent hlonger frame ?_
  rw [sents_append, flow, sents_append, sendFlow, if_pos (by rw [hmain]; rfl)]
  have hsent : frame ∈ sents (r.2.filterMap fun
      | .sending frame => some (.sent frame)
      | .acked _ ack => some (.returned ack)
      | .caught => some .threw
      | _ => none) :=
    List.mem_filterMap.mpr ⟨.sent frame, List.mem_filterMap.mpr ⟨_, hsending, rfl⟩, rfl⟩
  exact List.mem_append_right _ (List.mem_append_right _ hsent)

/-! ## Order -/

/-- **Frames flow in order.** In every run, the frames handed to `send_frame` are a
    part of the captured frames in their order: at strictly increasing places of the
    captured sequence, so that none is sent twice.  A pop takes the frame that was
    pushed last and has not been taken before; a push replaces a frame exactly when
    such a frame is there; and no pop takes a frame out of a closed queue. -/
theorem frames_flow_in_order
    (hrun : (flowMachine parse).exec (.start { config := config }) es = some cfg) :
    (sents cfg.history).Sublist (captures cfg.history) ∧
    (takenAt (queueOps cfg.history)).Pairwise (· < ·) ∧
    (sents cfg.history).map some =
      (takenAt (queueOps cfg.history)).map (fun n => (captures cfg.history)[n]?) ∧
    Whenever (fun h o => ∀ frame, o = .queue (.took (some frame)) →
      Unread (queueOps h) ∧ (puts (queueOps h)).getLast? = some frame) cfg.history ∧
    Whenever (fun h o => ∀ frame replaced, o = .queue (.put frame replaced) →
      (replaced = true ↔ Unread (queueOps h))) cfg.history ∧
    Whenever (fun h o => ∀ frame, o = .queue (.took (some frame)) →
      wasClosed (queueOps h) = false) cfg.history := by
  have hlaw := flowLaw_run hrun
  obtain ⟨ops, hops⟩ := hlaw.slot
  have hslot : LatestSlot.Law ⟨cfg.state.flowView.slot, queueOps cfg.history⟩ := law_run hops
  -- the operations on the queue, each next to the operations before it
  have hfresh : Whenever (fun h o => ∀ op, FlowEvent.toOp o = some op → Fresh (queueOps h) op)
      cfg.history := whenever_of_filterMap (fresh_run hops)
  have htook : Whenever (fun h o => ∀ frame, o = .queue (.took (some frame)) →
      Unread (queueOps h) ∧ (puts (queueOps h)).getLast? = some frame) cfg.history := by
    refine hfresh.imp fun h o hop frame ho => ?_
    exact hop (.took (some frame)) (by rw [ho]; rfl) frame rfl
  refine ⟨?_, hslot.places, ?_, htook, ?_, ?_⟩
  · rw [hlaw.sent, hlaw.captures]
    have htakes := (List.sublist_append_left _ _).trans hslot.order
    exact htakes.trans (List.sublist_append_left _ _)
  · rw [hlaw.sent, hlaw.captures]
    exact hslot.items_grow _
  · refine hfresh.imp fun h o hop frame replaced ho => ?_
    exact hop (.put frame replaced) (by rw [ho]; rfl)
  · exact htook.imp fun h o hop frame ho => (hop frame ho).1.1

/-- The sample run sends the second and the third frame, in this order. -/
theorem sample_frames_flow_in_order : ∃ cfg,
    (flowMachine parseSample).exec (.start { config := sampleConfig }) sampleRun = some cfg ∧
      sents cfg.history = [sampleFrame 2, sampleFrame 3] ∧
      (sents cfg.history).Sublist (captures cfg.history) := by
  have hany : ((flowMachine parseSample).exec (.start { config := sampleConfig }) sampleRun).any
      (fun cfg => sents cfg.history = [sampleFrame 2, sampleFrame 3]) = true := by
    decide +kernel
  obtain ⟨cfg, hrun, hsents⟩ := (Option.any_eq_true _ _).mp hany
  exact ⟨cfg, hrun, of_decide_eq_true hsents, (frames_flow_in_order hrun).1⟩

/-! ## Conservation -/

/-- The queue when the application is not running its loop: nothing has happened
    yet, or the queue is closed, or everything is over. -/
def Resting (a : Application) : Prop :=
  match a.main with
  | .start | .stopped _ => a.capture = .idle ∧ a.frames.latest = none
  | .closingWrite .finish | .closing .finish | .joining =>
      a.frames.closed = true ∧ a.frames.latest = none
  | _ => True

theorem captureStep_closed (h : a.captureStep e = some b) (hclosed : a.frames.closed = true)
    (hlatest : a.frames.latest = none) : b.frames.closed = true ∧ b.frames.latest = none := by
  cases captureStep_cases h with
  | pushed frame hcapture =>
      -- a closed queue takes no frame
      simp [LatestFrameQueue.push, hclosed, hlatest]
  | closed hcapture => exact ⟨rfl, rfl⟩
  | _ => exact ⟨hclosed, hlatest⟩

theorem resumeAfter_resting (b : Application) (next : AfterDisconnect)
    (hfinish : next = .finish → b.frames.closed = true ∧ b.frames.latest = none) :
    Resting (b.resumeAfter next).1 := by
  cases next with
  | connect =>
      rw [resumeAfter]
      split <;> trivial
  | delay => trivial
  | finish => exact hfinish rfl

theorem disconnect_resting (b : Application) (next : AfterDisconnect)
    (hfinish : next = .finish → b.frames.closed = true ∧ b.frames.latest = none) :
    Resting (b.disconnect next).1 := by
  rw [disconnect]
  split
  · cases next with
    | connect => trivial
    | delay => trivial
    | finish => exact hfinish rfl
  · exact b.dropSocket.resumeAfter_resting next hfinish

theorem goto_resting {pc : Pc} (hrest : Resting a) (h : Goto a e pc out) :
    Resting { a with main := pc } := by
  cases h with
  | startFailed hmain =>
      rw [Resting, hmain] at hrest
      exact hrest
  | joined hmain hcapture =>
      rw [Resting, hmain] at hrest
      exact ⟨hcapture, hrest.2⟩
  | @left next hmain =>
      rw [Resting, hmain] at hrest
      cases next with
      | connect => trivial
      | delay => trivial
      | finish => exact hrest
  | _ => trivial

theorem step_resting (hrest : Resting a) (h : a.step parse e = some r) : Resting r.1 := by
  cases step_cases h with
  | goto pc hgoto => exact goto_resting hrest hgoto
  | raises b _ => exact b.disconnect_resting .delay (by simp)
  | stops _ _ => exact disconnect_resting _ .finish fun _ => ⟨rfl, rfl⟩
  | connects _ _ _ => exact a.disconnect_resting .connect (by simp)
  | left next hmain | leftAtOnce _ next hmain =>
      refine a.dropSocket.resumeAfter_resting next ?_
      rintro rfl
      rw [Resting, hmain] at hrest
      exact hrest
  | capture b hcapturing hcapture =>
      have hmain := (captureStep_frame hcapture).2.2.2
      rw [Resting] at hrest ⊢
      rw [hmain]
      -- the capture thread does not run before the start and after the end
      split
      · next hplace => simp [capturing, hplace] at hcapturing
      · next hplace => simp [capturing, hplace] at hcapturing
      · next hplace =>
          rw [hplace] at hrest
          exact captureStep_closed hcapture hrest.1 hrest.2
      · next hplace =>
          rw [hplace] at hrest
          exact captureStep_closed hcapture hrest.1 hrest.2
      · next hplace =>
          rw [hplace] at hrest
          exact captureStep_closed hcapture hrest.1 hrest.2
      · trivial
  | stopSignal => exact hrest
  | _ => trivial

theorem resting_run
    (hrun : (flowMachine parse).exec (.start { config := config }) es = some cfg) :
    Resting cfg.state := by
  refine exec_invariant (I := fun c => Resting c.state) (fun c e c' hrest hnext => ?_)
    (show Resting { config := config } from ⟨rfl, rfl⟩) hrun
  obtain ⟨out, hstep, -⟩ := observe_next hnext
  exact step_resting hrest hstep

/-- **Statistics are conserved.** In every run, the frames counted as replaced,
    accepted or rejected are at most the captured ones.  When the application has
    stopped, the captured frames are those that were replaced, accepted or rejected,
    those whose `send_frame` threw, the one (at most) that closing the queue removed,
    and those that were pushed after the queue was closed. -/
theorem statistics_conserved
    (hrun : (flowMachine parse).exec (.start { config := config }) es = some cfg) :
    cfg.state.replaced + cfg.state.accepted + cfg.state.rejected ≤ cfg.state.captured ∧
    removals (queueOps cfg.history) ≤ 1 ∧
    (∀ exitCode, cfg.state.main = .stopped exitCode →
      cfg.state.captured = cfg.state.replaced + cfg.state.accepted + cfg.state.rejected +
        throws cfg.history + removals (queueOps cfg.history) +
        latePuts (queueOps cfg.history)) := by
  have hlaw := flowLaw_run hrun
  obtain ⟨ops, hops⟩ := hlaw.slot
  have hslot : LatestSlot.Law ⟨cfg.state.flowView.slot, queueOps cfg.history⟩ := law_run hops
  have hcaptured := hlaw.captured
  have hreplaced := hlaw.replaced
  have hreturned := hlaw.returned
  have haccount := hlaw.account
  have hplaces := hslot.account
  rw [hlaw.captures, List.length_append] at hcaptured
  rw [hlaw.sent] at haccount
  simp only [flowView] at hcaptured hreplaced hreturned haccount hplaces
  refine ⟨by omega, hslot.removed.trans (Bool.toNat_le _), ?_⟩
  intro exitCode hstopped
  -- nothing is under way any more
  have hrest := resting_run hrun
  rw [Resting, hstopped] at hrest
  rw [hrest.1] at hcaptured hreplaced
  rw [hrest.2] at hplaces
  rw [hstopped] at haccount
  simp only [CapturePc.unpushed, CapturePc.uncounted, Pc.carrying, Option.toList_none,
    List.length_nil, Bool.toNat_false] at hcaptured hreplaced haccount hplaces
  omega

/-- The sample run stops; each of its five frames has gone another way. -/
theorem sample_statistics_conserved : ∃ cfg,
    (flowMachine parseSample).exec (.start { config := sampleConfig }) sampleRun = some cfg ∧
      cfg.state.captured = 5 ∧
      cfg.state.captured = cfg.state.replaced + cfg.state.accepted + cfg.state.rejected +
        throws cfg.history + removals (queueOps cfg.history) +
        latePuts (queueOps cfg.history) := by
  have hany : ((flowMachine parseSample).exec (.start { config := sampleConfig }) sampleRun).any
      (fun cfg => cfg.state.captured = 5 && cfg.state.main.isStopped) = true := by
    decide +kernel
  obtain ⟨cfg, hrun, h⟩ := (Option.any_eq_true _ _).mp hany
  obtain ⟨hcaptured, hmain⟩ := Bool.and_eq_true_iff.mp h
  refine ⟨cfg, hrun, of_decide_eq_true hcaptured, ?_⟩
  cases hstopped : cfg.state.main with
  | stopped exitCode => exact (statistics_conserved hrun).2.2 exitCode hstopped
  | _ =>
      rw [hstopped] at hmain
      cases hmain

end Application

end CameraStream.Client
