/-
  CameraStream.Lib.RetryLoop

  A retry loop with exponential backoff: after every failure it waits, and the
  delay doubles up to a cap until an attempt succeeds.

  Rules:

    * `backoff_succ`  — the closed form of the delay follows the doubling, also
                        where it has reached the cap;
    * `Law`           — the k-th wait since the last success lasts for
                        `backoff k`, up to the jitter;
    * `law_of_run`    — every run keeps the law.
-/

import CameraStream.Lib.EventMachine
import Mathlib.Data.Nat.Basic
import Mathlib.Tactic.Ring

/-- Delays and jitter in the same unit. -/
structure RetryPolicy where
  initial : Nat
  cap : Nat
  jitter : Nat
  initial_le : initial ≤ cap

inductive RetryPhase where
  | trying
  | failed
  | waiting
  deriving DecidableEq

/-- The state of a retry loop. -/
structure RetryLoop where
  delay : Nat
  phase : RetryPhase

namespace RetryLoop

open EventMachine

inductive Move where
  | succeed
  | fail
  | wait (jitter : Nat)
  | wake

inductive Signal where
  | succeeded
  | failed
  | waits (duration : Nat)
  deriving DecidableEq

def step (p : RetryPolicy) (s : RetryLoop) : Move → Option (RetryLoop × List Signal)
  | .succeed =>
      if s.phase = .trying then some ({ s with delay := p.initial }, [.succeeded]) else none
  | .fail => if s.phase = .trying then some ({ s with phase := .failed }, [.failed]) else none
  | .wait jitter =>
      if s.phase = .failed ∧ jitter ≤ p.jitter then
        some ({ s with phase := .waiting }, [.waits (s.delay + jitter)])
      else none
  | .wake =>
      if s.phase = .waiting then some (⟨min (s.delay * 2) p.cap, .trying⟩, []) else none

def machine (p : RetryPolicy) : EventMachine RetryLoop Move Signal := ⟨step p⟩

variable {p : RetryPolicy} {c c' : Config RetryLoop Signal} {m : Move} {ms : List Move}

/-! ## The closed form of the delay -/

/-- The delay after `k` waits in a row. -/
def backoff (p : RetryPolicy) (k : Nat) : Nat := min (p.initial * 2 ^ k) p.cap

@[simp] theorem backoff_zero (p : RetryPolicy) : backoff p 0 = p.initial := by
  simpa [backoff] using p.initial_le

/-- Doubling the capped delay and capping again is capping the doubled delay. -/
theorem backoff_succ (p : RetryPolicy) (k : Nat) :
    backoff p (k + 1) = min (backoff p k * 2) p.cap := by
  have hdouble : p.initial * 2 ^ (k + 1) = p.initial * 2 ^ k * 2 := by ring
  rw [backoff, backoff, hdouble]
  omega

/-! ## What a history says -/

/-- The waits since the last success, oldest first. -/
def waitsSince (h : List Signal) : List Nat :=
  h.foldl (fun ws s =>
    match s with
    | .succeeded => []
    | .failed => ws
    | .waits d => ws ++ [d]) []

/-- The failures since the last success. -/
def failuresSince (h : List Signal) : Nat :=
  h.foldl (fun n s =>
    match s with
    | .succeeded => 0
    | .failed => n + 1
    | .waits _ => n) 0

@[simp] theorem waitsSince_nil : waitsSince [] = [] := rfl

@[simp] theorem waitsSince_succeeded (h : List Signal) :
    waitsSince (h ++ [.succeeded]) = [] := by
  simp [waitsSince]

@[simp] theorem waitsSince_failed (h : List Signal) :
    waitsSince (h ++ [.failed]) = waitsSince h := by
  simp [waitsSince]

@[simp] theorem waitsSince_waits (h : List Signal) (d : Nat) :
    waitsSince (h ++ [.waits d]) = waitsSince h ++ [d] := by
  simp [waitsSince]

@[simp] theorem failuresSince_nil : failuresSince [] = 0 := rfl

@[simp] theorem failuresSince_succeeded (h : List Signal) :
    failuresSince (h ++ [.succeeded]) = 0 := by
  simp [failuresSince]

@[simp] theorem failuresSince_failed (h : List Signal) :
    failuresSince (h ++ [.failed]) = failuresSince h + 1 := by
  simp [failuresSince]

@[simp] theorem failuresSince_waits (h : List Signal) (d : Nat) :
    failuresSince (h ++ [.waits d]) = failuresSince h := by
  simp [failuresSince]

/-- Every wait, oldest first. -/
def allWaits (h : List Signal) : List Nat :=
  h.filterMap fun s =>
    match s with
    | .waits d => some d
    | _ => none

theorem waitsSince_eq_allWaits {h : List Signal} (hnever : .succeeded ∉ h) :
    waitsSince h = allWaits h := by
  induction h using List.reverseRecOn with
  | nil => rfl
  | append_singleton h s ih =>
      obtain ⟨hhead, hlast⟩ := by simpa using hnever
      have hh := ih hhead
      cases s with
      | succeeded => exact absurd rfl hlast
      | failed => simpa [allWaits] using hh
      | waits d => simpa [allWaits] using hh

/-! ## The law -/

/-- How many of the failures since the last success have not led to a wait yet. -/
def pending : RetryPhase → Nat
  | .failed => 1
  | _ => 0

/-- How many waits the current delay has been doubled for. -/
def served (s : RetryLoop) (h : List Signal) : Nat :=
  -- while a wait lasts, its doubling is still to come
  if s.phase = .waiting then (waitsSince h).length - 1 else (waitsSince h).length

structure Law (p : RetryPolicy) (c : Config RetryLoop Signal) : Prop where
  delay : c.state.delay = backoff p (served c.state c.history)
  failures : failuresSince c.history = (waitsSince c.history).length + pending c.state.phase
  waiting : c.state.phase = .waiting → waitsSince c.history ≠ []
  waits : ∀ k d, (waitsSince c.history)[k]? = some d →
    backoff p k ≤ d ∧ d ≤ backoff p k + p.jitter

/-- The start of a loop keeps the law. -/
theorem law_start (p : RetryPolicy) : Law p (.start ⟨p.initial, .trying⟩) where
  delay := by simp [served]
  failures := by simp [pending]
  waiting := by simp
  waits := by simp

theorem law_step (hlaw : Law p c) (hnext : (machine p).next c m = some c') : Law p c' := by
  obtain ⟨⟨delay, phase⟩, h⟩ := c
  obtain ⟨⟨delay', phase'⟩, h'⟩ := c'
  obtain ⟨out, hstep, hh⟩ := next_eq_some hnext
  obtain ⟨hdelay, hfailures, hwaiting, hwaits⟩ := hlaw
  simp only [machine, step] at hstep
  simp only at hh hdelay hfailures hwaiting hwaits
  cases m with
  | succeed =>
      -- the streak is over, and the delay is that of its first failure again
      obtain ⟨hphase, heq⟩ := Option.ite_none_right_eq_some.mp hstep
      simp only [Option.some.injEq, Prod.mk.injEq, RetryLoop.mk.injEq] at heq
      obtain ⟨⟨rfl, rfl⟩, rfl⟩ := heq
      subst hphase hh
      constructor <;> simp [served, pending]
  | fail =>
      obtain ⟨hphase, heq⟩ := Option.ite_none_right_eq_some.mp hstep
      simp only [Option.some.injEq, Prod.mk.injEq, RetryLoop.mk.injEq] at heq
      obtain ⟨⟨rfl, rfl⟩, rfl⟩ := heq
      subst hphase hh
      simp only [served, pending] at hdelay hfailures
      constructor <;> simp_all [served, pending]
  | wait jitter =>
      obtain ⟨⟨hphase, hjitter⟩, heq⟩ := Option.ite_none_right_eq_some.mp hstep
      simp only [Option.some.injEq, Prod.mk.injEq, RetryLoop.mk.injEq] at heq
      obtain ⟨⟨rfl, rfl⟩, rfl⟩ := heq
      subst hphase hh
      have hnow : delay = backoff p (waitsSince h).length := by simpa [served] using hdelay
      refine ⟨by simpa [served] using hnow, by simpa [pending] using hfailures, by simp, ?_⟩
      -- the new wait stands behind the earlier ones, at the index it is bounded by
      intro k d hk
      rw [waitsSince_waits] at hk
      rcases Nat.lt_trichotomy k (waitsSince h).length with hlt | rfl | hgt
      · rw [List.getElem?_append_left hlt] at hk
        exact hwaits k d hk
      · rw [List.getElem?_concat_length, Option.some.injEq] at hk
        omega
      · rw [List.getElem?_eq_none (by simp; omega)] at hk
        cases hk
  | wake =>
      -- the doubling catches up with the wait that has just ended
      obtain ⟨hphase, heq⟩ := Option.ite_none_right_eq_some.mp hstep
      simp only [Option.some.injEq, Prod.mk.injEq, RetryLoop.mk.injEq] at heq
      obtain ⟨⟨rfl, rfl⟩, rfl⟩ := heq
      subst hphase hh
      have hlen : 0 < (waitsSince h).length := List.length_pos_of_ne_nil (hwaiting rfl)
      have hthen : delay = backoff p ((waitsSince h).length - 1) := by simpa [served] using hdelay
      have hdoubled : min (delay * 2) p.cap = backoff p (waitsSince h).length := by
        rw [hthen, ← backoff_succ]
        congr 1
        omega
      refine ⟨by simpa [served] using hdoubled, by simpa [pending] using hfailures, by simp, ?_⟩
      simpa using hwaits

/-- Every run keeps the law. -/
theorem law_of_run (hlaw : Law p c) (hrun : (machine p).exec c ms = some c') : Law p c' :=
  exec_invariant (fun _ _ _ => law_step) hlaw hrun

/-- Without a success, the law speaks about every wait of the run. -/
theorem Law.allWaits (hlaw : Law p c) (hnever : .succeeded ∉ c.history) {k d : Nat}
    (hk : (allWaits c.history)[k]? = some d) : backoff p k ≤ d ∧ d ≤ backoff p k + p.jitter := by
  rw [← waitsSince_eq_allWaits hnever] at hk
  exact hlaw.waits k d hk

end RetryLoop
