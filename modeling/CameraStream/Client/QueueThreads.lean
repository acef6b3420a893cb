/-
  CameraStream.Client.QueueThreads

  `LatestFrameQueue` (latest_frame_queue.hpp) under any number of threads that push, pop
  and close: the mutex, the condition variable `ready_`, its notifications, time-outs and
  spurious wake-ups.

  CameraStream.Client.LatestFrameQueue has each member function as one atomic operation.
  Here they are the critical sections of a monitor; CameraStream.Client.QueueStatements goes
  through the statements of a section.  `queue_signals` reads off the three functions what
  their notifications are good for: no consumer is forgotten, and without new calls the
  threads come to rest.  `slotSimulation` carries the order of the frames over from the
  mailbox of CameraStream.Lib.LatestSlot.
-/

import CameraStream.Lib.LatestSlot
import CameraStream.Lib.Monitor
import CameraStream.Client.LatestFrameQueue
import Mathlib.Data.Fintype.Basic
import Mathlib.Tactic.Linarith

namespace CameraStream.Client.LatestFrameQueue

open EventMachine Monitor

/-! ## The member functions -/

inductive QueueOp where
  | push (frame : Frame)
  | popFor
  | close

inductive QueueResult where
  /-- Whether an unconsumed frame was replaced. -/
  | pushed (replaced : Bool)
  | popped (frame : Option Frame)
  | closed

/-- The predicate of `ready_.wait_for`; `push` and `close` do not wait. -/
def ready : QueueOp → LatestFrameQueue → Bool
  | .popFor, q => q.closed || q.latest.isSome
  | .push _, _ | .close, _ => true

def run : QueueOp → LatestFrameQueue → LatestFrameQueue × QueueResult
  | .push frame, q => ((q.push frame).1, .pushed (q.push frame).2)
  | .popFor, q => (q.popFor.1, .popped q.popFor.2)
  | .close, q => (q.close, .closed)

/-- A push to a closed queue returns before it notifies anybody. -/
def wakes : QueueOp → LatestFrameQueue → Wake
  | .push _, q => if q.closed then .nobody else .one
  | .popFor, _ => .nobody
  | .close, _ => .everybody

def queueMonitor : Monitor LatestFrameQueue QueueOp QueueResult := ⟨ready, run, wakes⟩

abbrev QueueThreads (τ : Type) := Threads τ LatestFrameQueue QueueOp QueueResult

abbrev QueueOutput (τ : Type) := Output τ QueueOp QueueResult

def queueStart (τ : Type) : EventMachine.Config (QueueThreads τ) (QueueOutput τ) :=
  .start (.start ({} : LatestFrameQueue))

variable {τ : Type} [DecidableEq τ] [Fintype τ] {es fs : List (Event τ QueueOp)}
  {c c' : EventMachine.Config (QueueThreads τ) (QueueOutput τ)}

/-- Two consumers wait; a frame is pushed, the first consumer is notified and takes it. -/
def handover : List (Event (Fin 3) QueueOp) :=
  [.call 0 .popFor, .acquire 0, .sleeps 0, .call 1 .popFor, .acquire 1, .sleeps 1,
    .call 2 (.push { jpeg := [] }), .acquire 2, .runs 2 (some 0), .release 2,
    .acquire 0, .runs 0 none, .release 0]

/-! ## Nobody waits in vain -/

def IsPop : QueueOp → Prop
  | .popFor => True
  | .push _ | .close => False

instance : DecidablePred IsPop
  | .popFor => .isTrue trivial
  | .push _ | .close => .isFalse id

/-- There is a frame to take, or none will ever come. -/
def Available (q : LatestFrameQueue) : Prop := q.closed = true ∨ q.latest.isSome = true

def Closed (q : LatestFrameQueue) : Prop := q.closed = true

theorem queue_signals : queueMonitor.Signals IsPop Available Closed where
  always := by
    intro op q hop
    cases op with
    | push | close => rfl
    | popFor => exact absurd trivial hop
  ready := by
    intro op q hop
    cases op with
    | push | close => cases hop
    | popFor => simp [queueMonitor, ready, Available]
  consumes := by
    intro op q hop hafter
    cases op with
    | push | close => cases hop
    | popFor =>
        rcases hafter with hclosed | hsome
        · exact hclosed
        · cases hsome
  quiet := by
    intro op q hop
    cases op with
    | push | close => cases hop
    | popFor => rfl
  final_cond := fun q hclosed => .inl hclosed
  final_keeps := by
    intro op q hclosed
    cases op with
    | push frame =>
        simp only [Closed] at hclosed
        simp [Closed, queueMonitor, run, push, hclosed]
    | popFor => exact hclosed
    | close => rfl
  announces := by
    intro op q hbefore hafter
    cases op with
    | push frame =>
        have hopen : q.closed = false := by
          by_contra hclosed
          exact hbefore (.inl (by simpa using hclosed))
        simp [queueMonitor, wakes, hopen]
    | popFor =>
        -- a pop makes nothing available
        rcases hafter with hclosed | hsome
        · exact absurd (.inl hclosed) hbefore
        · cases hsome
    | close => exact Wake.noConfusion
  announces_final := by
    intro op q hbefore hafter
    cases op with
    | push frame =>
        -- a push closes nothing
        have hopen : q.closed = false := by simpa [Closed] using hbefore
        simp [Closed, queueMonitor, run, push, hopen] at hafter
    | popFor => exact absurd hafter hbefore
    | close => rfl

theorem IsPop.eq {op : QueueOp} (h : IsPop op) : op = .popFor := by
  cases op with
  | push | close => cases h
  | popFor => rfl

omit [DecidableEq τ] [Fintype τ] in
/-- Only consumers wait, and only while the queue is open. -/
theorem asleep_open {s : QueueThreads τ} (h : Alert IsPop Available Closed s) {t : τ}
    {op : QueueOp} (hasleep : s.phase t = .asleep op) :
    op = .popFor ∧ s.shared.closed = false := by
  refine ⟨(h.waiting t op hasleep).eq, ?_⟩
  by_contra hclosed
  exact h.forever (by simpa [Closed] using hclosed) t op hasleep

/-- No wake-up is lost: nobody waits on a closed queue, and while a consumer waits although
    there is a frame, another consumer is on its way to take it. -/
theorem no_lost_wakeup
    (hrun : (machine τ queueMonitor).exec (queueStart τ) es = some c) (t : τ)
    (op : QueueOp) (hasleep : c.state.phase t = .asleep op) :
    op = .popFor ∧ c.state.shared.closed = false ∧
      (c.state.shared.latest.isSome = true → ∃ u expired,
        c.state.phase u = .entering .popFor expired ∨
          c.state.phase u = .inside .popFor expired) := by
  have halert := queue_signals.alert_run hrun
  obtain ⟨hpop, hopen⟩ := asleep_open halert hasleep
  refine ⟨hpop, hopen, ?_⟩
  intro hsome
  obtain ⟨u, op', expired, hop', hu⟩ := halert.attended (.inr hsome) t op hasleep
  rw [hop'.eq] at hu
  exact ⟨u, expired, hu⟩

/-- Right after the push, the second consumer still waits and the first one is awake. -/
theorem handover_attended : ∃ c,
    (machine (Fin 3) queueMonitor).exec (queueStart (Fin 3)) (handover.take 9) = some c ∧
      c.state.shared.latest.isSome = true ∧ ∃ u expired,
        c.state.phase u = .entering .popFor expired ∨
          c.state.phase u = .inside .popFor expired := by
  have hany : ((machine (Fin 3) queueMonitor).exec (queueStart (Fin 3)) (handover.take 9)).any
      (fun c => (c.state.phase 1).isAsleep && c.state.shared.latest.isSome) = true := by
    decide +kernel
  obtain ⟨c, hrun, hboth⟩ := (Option.any_eq_true _ _).mp hany
  obtain ⟨hasleep, hsome⟩ := Bool.and_eq_true_iff.mp hboth
  obtain ⟨op, hop⟩ := Phase.eq_of_asleep hasleep
  exact ⟨c, hrun, hsome, (no_lost_wakeup hrun 1 op hop).2.2 hsome⟩

/-- The threads come to rest: without new calls, and without consumers that stop waiting,
    at most `3 n (n + 1)` steps are possible.  Then every call has returned, except for
    those that wait in `pop_for` on an open and empty queue. -/
theorem comes_to_rest
    (hrun : (machine τ queueMonitor).exec (queueStart τ) es = some c)
    (hint : ∀ e ∈ fs, e.isInternal = true)
    (hmore : (machine τ queueMonitor).exec c fs = some c') :
    fs.length ≤ 3 * Fintype.card τ * (Fintype.card τ + 1) ∧
      ((∀ e : Event τ QueueOp, e.isInternal = true →
          queueMonitor.step c'.state e = none) →
        ∀ t, c'.state.phase t = .outside ∨
          (c'.state.phase t = .asleep .popFor ∧ c'.state.shared = {})) := by
  have hlen := queue_signals.settles hrun hint hmore
  refine ⟨by linarith, ?_⟩
  intro hstuck t
  have hboth : (machine τ queueMonitor).exec (queueStart τ) (es ++ fs) = some c' := by
    rw [exec_append, hrun]
    exact hmore
  rcases queue_signals.settled hboth hstuck t with hout | ⟨op, hasleep, hready⟩
  · exact .inl hout
  · obtain ⟨rfl, hopen⟩ := asleep_open (queue_signals.alert_run hboth) hasleep
    refine .inr ⟨hasleep, ?_⟩
    have hnot : c'.state.shared.closed = false ∧ c'.state.shared.latest = none := by
      simpa [queueMonitor, ready] using hready
    calc c'.state.shared = ⟨c'.state.shared.latest, c'.state.shared.closed⟩ := rfl
      _ = {} := by rw [hnot.1, hnot.2]

/-- After the call of the producer, six steps are left. -/
theorem handover_comes_to_rest : ∃ c c',
    (machine (Fin 3) queueMonitor).exec (queueStart (Fin 3)) (handover.take 7) = some c ∧
      (machine (Fin 3) queueMonitor).exec c (handover.drop 7) = some c' ∧
      (handover.drop 7).length ≤ 36 := by
  have hany : ((machine (Fin 3) queueMonitor).exec (queueStart (Fin 3)) (handover.take 7)).any
      (fun c => ((machine (Fin 3) queueMonitor).exec c (handover.drop 7)).isSome) = true := by
    decide +kernel
  obtain ⟨c, hrun, hmore⟩ := (Option.any_eq_true _ _).mp hany
  obtain ⟨c', hmore⟩ := Option.isSome_iff_exists.mp hmore
  have hint : ∀ e ∈ handover.drop 7, e.isInternal = true := by decide
  exact ⟨c, c', hrun, hmore, (comes_to_rest hrun hint hmore).1⟩

/-! ## The order of the frames -/

/-- An operation as the mailbox reports it; what closing removes is lost. -/
inductive SlotMatch : τ × QueueOp × QueueResult → LatestSlot.Output Frame → Prop where
  | push (t : τ) (frame : Frame) (replaced : Bool) :
      SlotMatch (t, .push frame, .pushed replaced) (.put frame replaced)
  | popFor (t : τ) (frame : Option Frame) : SlotMatch (t, .popFor, .popped frame) (.took frame)
  | close (t : τ) (removed : Option Frame) : SlotMatch (t, .close, .closed) (.closed removed)

/-- The pushed frames, in the order in which they take effect. -/
def pushed (l : List (τ × QueueOp × QueueResult)) : List Frame :=
  l.filterMap fun o =>
    match o.2.1 with
    | .push frame => some frame
    | _ => none

/-- The frames that consumers get. -/
def popped (l : List (τ × QueueOp × QueueResult)) : List Frame :=
  l.filterMap fun o =>
    match o.2.2 with
    | .popped frame => frame
    | _ => none

def wasClosed (l : List (τ × QueueOp × QueueResult)) : Bool :=
  l.any fun o =>
    match o.2.1 with
    | .close => true
    | _ => false

/-- The queue is the mailbox, seen from one thread at a time. -/
def slotSimulation (τ : Type) :
    Simulation (sequential τ queueMonitor) (LatestSlot.machine Frame) where
  rel c d := d.state = ⟨c.state.latest, c.state.closed⟩ ∧
    List.Forall₂ SlotMatch c.history d.history
  sim := by
    rintro ⟨q, h⟩ ⟨t, op⟩ ⟨q', h'⟩ ⟨slot, k⟩ ⟨hslot, hmatch⟩ hnext
    obtain ⟨out, hstep, hhist⟩ := next_eq_some hnext
    cases hslot
    cases hhist
    -- one step of the mailbox, with a matching output
    have hreduce : ∀ (o : LatestSlot.Output Frame) (slotOp : LatestSlot.Op Frame),
        SlotMatch (t, op, (run op q).2) o →
        LatestSlot.step ⟨q.latest, q.closed⟩ slotOp =
          some (⟨(run op q).1.latest, (run op q).1.closed⟩, [o]) →
        ∃ fs d', (LatestSlot.machine Frame).exec ⟨⟨q.latest, q.closed⟩, k⟩ fs = some d' ∧
          d'.state = ⟨q'.latest, q'.closed⟩ ∧ List.Forall₂ SlotMatch (h ++ out) d'.history := by
      intro o slotOp ho hslotstep
      cases hstep
      refine ⟨[slotOp], ⟨⟨(run op q).1.latest, (run op q).1.closed⟩, k ++ [o]⟩, ?_, rfl, ?_⟩
      · rw [exec_cons, next_of_step hslotstep]
        rfl
      · exact List.rel_append hmatch (List.Forall₂.cons ho .nil)
    cases op with
    | push frame =>
        refine hreduce _ (.put frame) (.push t frame _) ?_
        cases hclosed : q.closed with
        | false => simp [LatestSlot.step, run, push, hclosed]
        | true => simp [LatestSlot.step, run, push, hclosed]
    | popFor => exact hreduce _ .take (.popFor t _) rfl
    | close => exact hreduce _ .close (.close t q.latest) rfl

/-- A run of the threads is a run of the mailbox. -/
theorem mailbox_run (hrun : (machine τ queueMonitor).exec (queueStart τ) es = some c) :
    ∃ ops d, (LatestSlot.machine Frame).exec (.start {}) ops = some d ∧
      List.Forall₂ SlotMatch (performed c.history) d.history := by
  obtain ⟨ops, hops⟩ := linearized hrun
  have hrel : (slotSimulation τ).rel (.start {}) (.start {}) := ⟨rfl, .nil⟩
  obtain ⟨slotOps, d, hslot, -, hmatch⟩ := (slotSimulation τ).exec hrel hops
  exact ⟨slotOps, d, hslot, hmatch⟩

section Matching

variable {l : List (τ × QueueOp × QueueResult)} {k : List (LatestSlot.Output Frame)}

omit [DecidableEq τ] [Fintype τ]

theorem puts_matching (h : List.Forall₂ SlotMatch l k) : LatestSlot.puts k = pushed l := by
  induction h with
  | nil => rfl
  | cons ho _ ih => cases ho <;> simp_all [LatestSlot.puts, pushed]

theorem takes_matching (h : List.Forall₂ SlotMatch l k) : LatestSlot.takes k = popped l := by
  induction h with
  | nil => rfl
  | cons ho _ ih =>
      cases ho with
      | push | close => simpa [LatestSlot.takes, popped] using ih
      | popFor t frame => cases frame <;> simpa [LatestSlot.takes, popped] using ih

theorem wasClosed_matching (h : List.Forall₂ SlotMatch l k) :
    LatestSlot.wasClosed k = wasClosed l := by
  induction h with
  | nil => rfl
  | cons ho _ ih => cases ho <;> simp_all [LatestSlot.wasClosed, wasClosed]

/-- What comes before an operation matches what comes before its output. -/
theorem split_matching {l₁ l₂ : List (τ × QueueOp × QueueResult)} {o : τ × QueueOp × QueueResult}
    (h : List.Forall₂ SlotMatch (l₁ ++ o :: l₂) k) :
    ∃ k₁ o' k₂, k = k₁ ++ o' :: k₂ ∧ List.Forall₂ SlotMatch l₁ k₁ ∧ SlotMatch o o' := by
  induction l₁ generalizing k with
  | nil =>
      obtain ⟨o', k₂, ho, -, rfl⟩ := List.forall₂_cons_left_iff.mp h
      exact ⟨[], o', k₂, rfl, .nil, ho⟩
  | cons a l₁ ih =>
      obtain ⟨a', k', ha, hrest, rfl⟩ := List.forall₂_cons_left_iff.mp h
      obtain ⟨k₁, o', k₂, rfl, hk₁, ho⟩ := ih hrest
      exact ⟨a' :: k₁, o', k₂, rfl, .cons ha hk₁, ho⟩

end Matching

/-- For any number of producers and consumers: the frames that are popped were pushed at
    increasing places, so that none is popped twice or out of order, and each one is the
    latest frame at the moment it is popped, with no close before. -/
theorem popped_in_order
    (hrun : (machine τ queueMonitor).exec (queueStart τ) es = some c) :
    (∃ places : List Nat, places.Pairwise (· < ·) ∧
      (popped (performed c.history)).map some =
        places.map fun n => (pushed (performed c.history))[n]?) ∧
      Whenever (fun before o => ∀ t frame, o = (t, .popFor, .popped (some frame)) →
        (pushed before).getLast? = some frame ∧ wasClosed before = false)
        (performed c.history) := by
  obtain ⟨ops, d, hslot, hmatch⟩ := mailbox_run hrun
  have hlaw := LatestSlot.law_run hslot
  refine ⟨⟨LatestSlot.takenAt d.history, hlaw.places, ?_⟩, ?_⟩
  · rw [← takes_matching hmatch, ← puts_matching hmatch]
    exact hlaw.items
  · rintro l₁ o l₂ hsplit t frame rfl
    rw [hsplit] at hmatch
    obtain ⟨k₁, o', k₂, hk, hbefore, ho⟩ := split_matching hmatch
    cases ho
    obtain ⟨hunread, hlast⟩ := LatestSlot.fresh_run hslot k₁ _ k₂ hk frame rfl
    rw [← puts_matching hbefore, ← wasClosed_matching hbefore]
    exact ⟨hlast, hunread.1⟩

theorem handover_popped_in_order : ∃ c,
    (machine (Fin 3) queueMonitor).exec (queueStart (Fin 3)) handover = some c ∧
      popped (performed c.history) = [{ jpeg := [] }] ∧
      ∃ places : List Nat, places.Pairwise (· < ·) ∧
        (popped (performed c.history)).map some =
          places.map fun n => (pushed (performed c.history))[n]? := by
  have hany : ((machine (Fin 3) queueMonitor).exec (queueStart (Fin 3)) handover).any
      (fun c => popped (performed c.history) = [{ jpeg := [] }]) = true := by
    decide +kernel
  obtain ⟨c, hrun, hpopped⟩ := (Option.any_eq_true _ _).mp hany
  exact ⟨c, hrun, of_decide_eq_true hpopped, (popped_in_order hrun).1⟩

end CameraStream.Client.LatestFrameQueue
