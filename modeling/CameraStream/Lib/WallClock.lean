/-
  CameraStream.Lib.WallClock

  Machines that read a wall clock, next to real time.

  A wall clock shows real time plus an offset.  Real time only goes on; the offset may be set
  to anything at any moment.  `clocked M` is the machine `M` with such a clock: an event of
  `M` that carries a reading happens only when the clock shows this reading, and every output
  is stamped with the clock.

  Without the clock a run of `clocked M` is a run of `M` (`forgetClock`).
-/

import CameraStream.Lib.EventMachine

structure WallClock where
  /-- Real time, in milliseconds. -/
  real : Int
  offset : Int
  deriving DecidableEq

namespace WallClock

/-- What the clock shows. -/
def reading (w : WallClock) : Int := w.real + w.offset

/-- The real time between two moments. -/
def elapsed (w w' : WallClock) : Int := w'.real - w.real

/-- By how much the offset is lower than it was. -/
def setBack (w w' : WallClock) : Int := w.offset - w'.offset

/-- A difference of readings is the elapsed time without what the clock was set back. -/
theorem reading_sub (w w' : WallClock) :
    w'.reading - w.reading = elapsed w w' - setBack w w' := by
  simp only [reading, elapsed, setBack]
  omega

inductive Event (ε : Type*) where
  /-- Real time goes on. -/
  | elapse (ms : Nat)
  /-- The clock is set: an NTP step, the resume of a virtual machine. -/
  | adjust (offset : Int)
  | happen (e : ε)

variable {σ ε ω : Type*}

def step (M : EventMachine σ ε ω) (readings : ε → Option Int) (s : σ × WallClock) :
    Event ε → Option ((σ × WallClock) × List (ω × WallClock))
  | .elapse ms => some ((s.1, { s.2 with real := s.2.real + ms }), [])
  | .adjust offset => some ((s.1, { s.2 with offset := offset }), [])
  | .happen e =>
      if ∀ now ∈ readings e, now = s.2.reading then
        (M.step s.1 e).map fun r => ((r.1, s.2), r.2.map fun o => (o, s.2))
      else none

/-- The machine `M` with a wall clock. -/
def clocked (M : EventMachine σ ε ω) (readings : ε → Option Int) :
    EventMachine (σ × WallClock) (Event ε) (ω × WallClock) := ⟨step M readings⟩

open EventMachine

variable {M : EventMachine σ ε ω} {readings : ε → Option Int}
  {c c' : Config (σ × WallClock) (ω × WallClock)}

/-- A configuration without its clock. -/
def forget (c : Config (σ × WallClock) (ω × WallClock)) : Config σ ω :=
  ⟨c.state.1, c.history.map Prod.fst⟩

/-- An event of `M` happens at the reading it carries, and the clock stands still. -/
theorem next_happen {e : ε} (h : (clocked M readings).next c (.happen e) = some c') :
    (∀ now ∈ readings e, now = c.state.2.reading) ∧ ∃ s' out, M.step c.state.1 e = some (s', out) ∧
      c' = ⟨(s', c.state.2), c.history ++ out.map fun o => (o, c.state.2)⟩ := by
  obtain ⟨out, hstep, hhist⟩ := next_eq_some h
  simp only [clocked, step] at hstep
  split at hstep
  · next hread =>
      obtain ⟨⟨s', out'⟩, hM, heq⟩ := Option.map_eq_some_iff.mp hstep
      obtain ⟨hs, hout⟩ := Prod.mk.inj heq
      refine ⟨hread, s', out', hM, ?_⟩
      rw [hs, hout, ← hhist]
  · cases hstep

/-- Either only the clock moves, or an event of `M` happens. -/
theorem next_cases {e : Event ε} (h : (clocked M readings).next c e = some c') :
    (c'.state.1 = c.state.1 ∧ c'.history = c.history) ∨ ∃ e', e = .happen e' := by
  obtain ⟨out, hstep, hhist⟩ := next_eq_some h
  cases e with
  | elapse ms =>
      obtain ⟨hs, rfl⟩ := Prod.mk.inj (Option.some.inj hstep)
      exact .inl ⟨(congrArg Prod.fst hs).symm, hhist.trans (List.append_nil _)⟩
  | adjust offset =>
      obtain ⟨hs, rfl⟩ := Prod.mk.inj (Option.some.inj hstep)
      exact .inl ⟨(congrArg Prod.fst hs).symm, hhist.trans (List.append_nil _)⟩
  | happen e' => exact .inr ⟨e', rfl⟩

/-- The machine underneath goes through the same states. -/
def forgetClock (M : EventMachine σ ε ω) (readings : ε → Option Int) :
    Simulation (clocked M readings) M where
  rel c d := d = forget c
  sim := by
    rintro c e c' _ rfl hnext
    rcases next_cases hnext with ⟨hstate, hhist⟩ | ⟨e', rfl⟩
    · refine ⟨[], _, rfl, ?_⟩
      rw [forget, forget, hstate, hhist]
    · obtain ⟨-, s', out, hM, rfl⟩ := next_happen hnext
      refine ⟨[e'], ⟨s', (forget c).history ++ out⟩, ?_, ?_⟩
      · rw [exec_cons, next_of_step (c := forget c) hM]
        rfl
      · simp [forget, Function.comp_def]

end WallClock
