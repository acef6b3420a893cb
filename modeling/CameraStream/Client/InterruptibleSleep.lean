/-
  CameraStream.Client.InterruptibleSleep

  `interruptible_sleep` (application.cpp), the wait between two attempts to connect.

  The steady clock is outside: a reading is any number that is not below the one before,
  and `sleep_for` returns after its time or later.  `slicesLeft` counts the calls of
  `sleep_for` that may still come before the deadline, and a stop request leaves at most
  one more of them.
-/

import CameraStream.Client.Reconnect

namespace CameraStream.Client

open EventMachine

/-- Where the thread is in `interruptible_sleep`. -/
inductive SleepPc where
  /-- At the condition of the loop. -/
  | condition
  /-- In `sleep_for`. -/
  | sleeping
  | returned
  deriving DecidableEq

/-- The steps left after a stop request. -/
def SleepPc.remaining : SleepPc → Nat
  | .returned => 0
  | .condition => 1
  | .sleeping => 2

/-- In nanoseconds of the steady clock. -/
structure InterruptibleSleep where
  deadline : Int
  /-- The last reading. -/
  clock : Int
  stopRequested : Bool := false
  pc : SleepPc := .condition

namespace InterruptibleSleep

inductive Event where
  /-- The condition of the loop, with a reading of the clock. -/
  | condition (now : Int)
  /-- `sleep_for` returns. -/
  | woken (now : Int)
  /-- The signal handler. -/
  | stopSignal

def nanoseconds (milliseconds : Nat) : Int := milliseconds * 1000000

/-- Milliseconds. -/
def slice : Nat := 100

/-- A call with this duration in milliseconds. -/
def call (now : Int) (duration : Nat) : InterruptibleSleep where
  deadline := now + nanoseconds duration
  clock := now

def step (s : InterruptibleSleep) : Event → Option (InterruptibleSleep × List Empty)
  | .condition now =>
      if s.pc = .condition ∧ s.clock ≤ now then
        -- the clock is not read after a stop request
        if s.stopRequested then some ({ s with pc := .returned }, [])
        else if now < s.deadline then some ({ s with clock := now, pc := .sleeping }, [])
        else some ({ s with clock := now, pc := .returned }, [])
      else none
  | .woken now =>
      if s.pc = .sleeping ∧ s.clock + nanoseconds slice ≤ now then
        some ({ s with clock := now, pc := .condition }, [])
      else none
  | .stopSignal => some ({ s with stopRequested := true }, [])

def machine : EventMachine InterruptibleSleep Event Empty := ⟨step⟩

/-- One step, by outcome. -/
inductive Step (s : InterruptibleSleep) : Event → InterruptibleSleep → Prop where
  | stopped (now : Int) (hpc : s.pc = .condition) (hstop : s.stopRequested = true) :
      Step s (.condition now) { s with pc := .returned }
  | sleeps (now : Int) (hpc : s.pc = .condition) (hclock : s.clock ≤ now)
      (hstop : s.stopRequested = false) (hearly : now < s.deadline) :
      Step s (.condition now) { s with clock := now, pc := .sleeping }
  | late (now : Int) (hpc : s.pc = .condition) (hclock : s.clock ≤ now)
      (hstop : s.stopRequested = false) (hlate : s.deadline ≤ now) :
      Step s (.condition now) { s with clock := now, pc := .returned }
  | wakes (now : Int) (hpc : s.pc = .sleeping) (hclock : s.clock + nanoseconds slice ≤ now) :
      Step s (.woken now) { s with clock := now, pc := .condition }
  | stopSignal : Step s .stopSignal { s with stopRequested := true }

variable {s s' : InterruptibleSleep} {e : Event} {out : List Empty}

theorem step_cases (h : s.step e = some (s', out)) : Step s e s' := by
  cases e with
  | condition now =>
      obtain ⟨⟨hpc, hclock⟩, h⟩ := Option.ite_none_right_eq_some.mp h
      split at h
      · next hstop => cases h; exact .stopped now hpc hstop
      · next hstop =>
          have hstop := Bool.eq_false_of_not_eq_true hstop
          split at h
          · next hearly => cases h; exact .sleeps now hpc hclock hstop hearly
          · next hlate => cases h; exact .late now hpc hclock hstop (Int.not_lt.mp hlate)
  | woken now =>
      obtain ⟨⟨hpc, hclock⟩, h⟩ := Option.ite_none_right_eq_some.mp h
      cases h
      exact .wakes now hpc hclock
  | stopSignal =>
      cases h
      exact .stopSignal

/-! ## The deadline -/

/-- A call that has returned was stopped or took its time; one that sleeps began to do so
    before the deadline. -/
structure Timely (s : InterruptibleSleep) : Prop where
  sleeping : s.pc = .sleeping → s.clock < s.deadline
  returned : s.pc = .returned → s.stopRequested = true ∨ s.deadline ≤ s.clock

theorem timely_call (now : Int) (duration : Nat) : Timely (call now duration) := ⟨nofun, nofun⟩

theorem Timely.step (h : Timely s) (hstep : Step s e s') : Timely s' := by
  cases hstep with
  | stopped now hpc hstop => exact ⟨nofun, fun _ => .inl hstop⟩
  | sleeps now hpc hclock hstop hearly => exact ⟨fun _ => hearly, nofun⟩
  | late now hpc hclock hstop hlate => exact ⟨nofun, fun _ => .inr hlate⟩
  | wakes now hpc hclock => exact ⟨nofun, nofun⟩
  | stopSignal => exact ⟨h.sleeping, fun _ => .inl rfl⟩

/-- The slices that fit into what is left of the time, the last one perhaps in part. -/
def slicesLeft (s : InterruptibleSleep) : Nat :=
  ((s.deadline - s.clock + (nanoseconds slice - 1)) / nanoseconds slice).toNat

def isWoken : Event → Bool
  | .woken _ => true
  | _ => false

theorem nanoseconds_slice : nanoseconds slice = 100000000 := rfl

theorem slicesLeft_call (now : Int) (duration : Nat) :
    (call now duration).slicesLeft = (duration + 99) / 100 := by
  rw [slicesLeft, nanoseconds_slice]
  show ((now + (duration * 1000000 : Int) - now + _) / _).toNat = _
  omega

/-- Waking up takes a slice, and nothing gives time back. -/
theorem slicesLeft_step (h : Timely s) (hstep : Step s e s') :
    s'.slicesLeft + (if isWoken e then 1 else 0) ≤ s.slicesLeft := by
  cases hstep with
  | stopped now hpc hstop => exact Nat.le_refl _
  | sleeps now hpc hclock hstop hearly =>
      rw [slicesLeft, slicesLeft, nanoseconds_slice]
      show (Int.toNat ((s.deadline - now + _) / _)) + 0 ≤ _
      omega
  | late now hpc hclock hstop hlate =>
      rw [slicesLeft, slicesLeft, nanoseconds_slice]
      show (Int.toNat ((s.deadline - now + _) / _)) + 0 ≤ _
      omega
  | wakes now hpc hclock =>
      have hearly := h.sleeping hpc
      rw [slicesLeft, slicesLeft, nanoseconds_slice]
      rw [nanoseconds_slice] at hclock
      show (Int.toNat ((s.deadline - now + _) / _)) + 1 ≤ _
      omega
  | stopSignal => exact Nat.le_refl _

/-! ## A stop request -/

def isOwnStep : Event → Bool
  | .stopSignal => false
  | _ => true

theorem remaining_step (hstop : s.stopRequested = true) (hstep : Step s e s') :
    s'.stopRequested = true ∧
      s'.pc.remaining + (if isOwnStep e then 1 else 0) ≤ s.pc.remaining := by
  cases hstep with
  | stopped now hpc hstop' => exact ⟨hstop, by rw [hpc]; exact Nat.le_refl 1⟩
  | sleeps now hpc hclock hrunning hearly =>
      rw [hstop] at hrunning
      cases hrunning
  | late now hpc hclock hrunning hlate =>
      rw [hstop] at hrunning
      cases hrunning
  | wakes now hpc hclock => exact ⟨hstop, by rw [hpc]; exact Nat.le_refl 2⟩
  | stopSignal => exact ⟨rfl, Nat.le_refl _⟩

/-! ## Runs -/

variable {c c' d d' : EventMachine.Config InterruptibleSleep Empty} {fs : List Event}

theorem next_cases (h : machine.next d e = some d') : Step d.state e d'.state := by
  obtain ⟨out, hstep, -⟩ := next_eq_some h
  exact step_cases hstep

theorem timely_run {now : Int} {duration : Nat}
    (hrun : machine.exec (.start (call now duration)) fs = some d) : Timely d.state :=
  exec_invariant (I := fun d => Timely d.state) (fun _ _ _ h hnext => h.step (next_cases hnext))
    (timely_call now duration) hrun

/-- The deadline is computed once. -/
theorem deadline_run {now : Int} {duration : Nat}
    (hrun : machine.exec (.start (call now duration)) fs = some d) :
    d.state.deadline = now + nanoseconds duration := by
  refine exec_invariant (I := fun d => d.state.deadline = now + nanoseconds duration) ?_ rfl hrun
  intro d e d' h hnext
  have hstep := next_cases hnext
  generalize d'.state = s' at *
  cases hstep with
  | _ => exact h

/-- A call sleeps a slice for every 100 ms of its duration, begun or whole. -/
theorem woken_le {now : Int} {duration : Nat}
    (hrun : machine.exec (.start (call now duration)) fs = some d) :
    fs.countP isWoken ≤ (duration + 99) / 100 := by
  have hcount := exec_countP_le (I := fun d => Timely d.state) (μ := fun d => d.state.slicesLeft)
    (p := isWoken) ?_ (timely_call now duration) hrun
  · have hcall : (call now duration).slicesLeft = (duration + 99) / 100 :=
      slicesLeft_call now duration
    rw [Config.start_state, hcall] at hcount
    omega
  · intro e _ d d' h hnext
    have hstep := next_cases hnext
    exact ⟨h.step hstep, slicesLeft_step h hstep⟩

theorem own_steps_after_stop (hstop : d.state.stopRequested = true)
    (hrun : machine.exec d fs = some d') : fs.countP isOwnStep ≤ 2 := by
  have hcount := exec_countP_le (I := fun d => d.state.stopRequested = true)
    (μ := fun d => d.state.pc.remaining) (p := isOwnStep)
    (fun e _ d d' h hnext => remaining_step h (next_cases hnext)) hstop hrun
  have hle : d.state.pc.remaining ≤ 2 := by
    cases d.state.pc with
    | _ => decide
  omega

end InterruptibleSleep

namespace Application

variable {parse : Bytes → Option JsonValue} {config : Config} {es : List Event}
  {cfg : EventMachine.Config Application Output}

/-- No wait is longer than the largest backoff with the largest jitter. -/
theorem waiting_le (hrun : (machine parse).exec (.start { config := config }) es = some cfg)
    {duration : Nat} (hwait : .waiting duration ∈ cfg.history) : duration ≤ 30250 := by
  have hlaw : Whenever (fun _ o => ∀ duration, o = .waiting duration → duration ≤ 30250)
      cfg.history := by
    refine exec_whenever (fun _ _ _ => retryLaw_next) ?_ (retryLaw_start config) whenever_nil hrun
    intro c e c' out hlaw hnext hhist before o after hsplit duration ho
    obtain ⟨jitter, hjitter, -, heq⟩ :=
      waits_of_next hlaw hnext hhist before o after hsplit duration ho
    have hmin := Nat.min_le_right (2 ^ (exceptions (c.history ++ before) - 1)) maximumBackoff
    simp only [maximumBackoff, maximumJitter] at hmin hjitter heq
    omega
  obtain ⟨before, after, hsplit⟩ := List.append_of_mem hwait
  exact hlaw before _ after hsplit duration rfl

/-- **Every wait ends.**  Each `interruptible_sleep` of `run`, whatever the steady clock reads,
    sleeps at most 303 slices; it returns early only after a stop request, and after one
    it takes at most two more steps, so that at most the slice it is in is slept out. -/
theorem waits_end (hrun : (machine parse).exec (.start { config := config }) es = some cfg)
    {duration : Nat} (hwait : .waiting duration ∈ cfg.history) {now : Int}
    {fs : List InterruptibleSleep.Event} {d : EventMachine.Config InterruptibleSleep Empty}
    (hsleep : InterruptibleSleep.machine.exec (.start (.call now duration)) fs = some d) :
    fs.countP InterruptibleSleep.isWoken ≤ 303 ∧
    (d.state.pc = .returned → d.state.stopRequested = true ∨
      now + InterruptibleSleep.nanoseconds duration ≤ d.state.clock) ∧
    (d.state.stopRequested = true → ∀ fs' d', InterruptibleSleep.machine.exec d fs' = some d' →
      fs'.countP InterruptibleSleep.isOwnStep ≤ 2) := by
  refine ⟨?_, ?_, ?_⟩
  · have hduration := waiting_le hrun hwait
    have hwoken := InterruptibleSleep.woken_le hsleep
    omega
  · intro hreturned
    rw [← InterruptibleSleep.deadline_run hsleep]
    exact (InterruptibleSleep.timely_run hsleep).returned hreturned
  · intro hstop fs' d' hrest
    exact InterruptibleSleep.own_steps_after_stop hstop hrest

theorem waiting_of_mem_waits {h : List Output} {duration : Nat} (hmem : duration ∈ waits h) :
    .waiting duration ∈ h := by
  obtain ⟨o, ho, hsome⟩ := List.mem_filterMap.mp hmem
  cases o with
  | waiting d =>
      cases hsome
      exact ho
  | _ => cases hsome

/-- The first wait of `unresolvedRun`, from which `sleep_for` returns late. -/
theorem unresolved_waits_end : ∃ cfg d,
    (machine parseSample).exec (.start { config := sampleConfig }) unresolvedRun = some cfg ∧
      .waiting 1007 ∈ cfg.history ∧
      InterruptibleSleep.machine.exec (.start (.call 0 1007))
        [.condition 0, .woken 2000000000, .condition 2000000000] = some d ∧
      d.state.pc = .returned ∧
      (d.state.stopRequested = true ∨
        0 + InterruptibleSleep.nanoseconds 1007 ≤ d.state.clock) := by
  have hany : ((machine parseSample).exec (.start { config := sampleConfig }) unresolvedRun).any
      (fun cfg => decide (1007 ∈ waits cfg.history)) = true := by
    decide +kernel
  obtain ⟨cfg, hrun, hwaits⟩ := (Option.any_eq_true _ _).mp hany
  have hwait := waiting_of_mem_waits (of_decide_eq_true hwaits)
  have hsleep : ∃ d, InterruptibleSleep.machine.exec (.start (.call 0 1007))
      [.condition 0, .woken 2000000000, .condition 2000000000] = some d ∧
      d.state.pc = .returned := ⟨_, rfl, rfl⟩
  obtain ⟨d, hd, hreturned⟩ := hsleep
  exact ⟨cfg, d, hrun, hwait, hd, hreturned, (waits_end hrun hwait hd).2.1 hreturned⟩

end Application

end CameraStream.Client
