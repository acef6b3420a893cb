/-
  CameraStream.Lib.RateGate

  A keyed rate gate, as an abstract machine, and what it bounds.

  The gate lets a key through at `now` when at least `gap` has gone by since it was last let
  through.  The times are given from outside and need not be in order; what the gate lets
  through is.

  Rules:

    * `spaced_concat`  — one more time at the end of a spaced list;
    * `Spaced.length_window_le` — a half-open window of width `w` holds at most
                         `⌈w / gap⌉` times of a spaced list;
    * `remembers_next` — the gate remembers the last time it let a key through;
    * `spaced_run`     — per key, the times of a run are spaced.
-/

import CameraStream.Lib.EventMachine
import Mathlib.Algebra.Order.Floor.Ring
import Mathlib.Algebra.Order.Field.Basic
import Mathlib.Logic.Function.Basic
import Mathlib.Tactic.Ring

namespace RateGate

section Spacing

variable {K : Type*} [Field K] [LinearOrder K] {gap x : K} {l m : List K}

/-- Every time of the list is at least `gap` after the ones before it. -/
def Spaced (gap : K) (l : List K) : Prop := l.Pairwise fun a b => a + gap ≤ b

theorem spaced_nil : Spaced gap [] := List.Pairwise.nil

theorem Spaced.sublist (h : Spaced gap l) (hm : m.Sublist l) : Spaced gap m :=
  List.Pairwise.sublist hm h

variable [IsStrictOrderedRing K]

/-- One more time is far enough from all of them when it is far enough from the last one. -/
theorem spaced_concat (hgap : 0 ≤ gap) (h : Spaced gap l)
    (hlast : ∀ last ∈ l.getLast?, last + gap ≤ x) : Spaced gap (l ++ [x]) := by
  rw [Spaced, List.pairwise_append]
  refine ⟨h, List.pairwise_singleton _ _, ?_⟩
  intro a ha b hb
  obtain rfl := List.mem_singleton.mp hb
  obtain ⟨init, last, rfl⟩ : ∃ init last, l = init ++ [last] :=
    ⟨_, _, (List.dropLast_append_getLast (List.ne_nil_of_mem ha)).symm⟩
  have hx : last + gap ≤ b := hlast last (by simp)
  rcases List.mem_append.mp ha with hold | hnew
  · -- an earlier time is even further away
    have hfar : a + gap ≤ last := (List.pairwise_append.mp h).2.2 a hold last (by simp)
    linarith
  · rw [List.mem_singleton.mp hnew]
    exact hx

/-- `n + 1` times span at least `n` gaps. -/
theorem Spaced.span (h : Spaced gap (x :: m)) :
    x + m.length * gap ≤ (x :: m).getLast (List.cons_ne_nil x m) := by
  induction m generalizing x with
  | nil => simp
  | cons y m ih =>
      obtain ⟨hx, htail⟩ := List.pairwise_cons.mp h
      have hnext : x + gap ≤ y := hx y List.mem_cons_self
      have hrest := ih htail
      rw [List.getLast_cons (List.cons_ne_nil y m), List.length_cons]
      push_cast
      linarith

/-- **The window bound.** -/
theorem Spaced.length_window_le [FloorRing K] (hgap : 0 < gap) (h : Spaced gap l) (t w : K) :
    l.countP (fun a => t ≤ a ∧ a < t + w) ≤ ⌈w / gap⌉₊ := by
  rw [List.countP_eq_length_filter]
  have hspaced : Spaced gap (l.filter fun a => t ≤ a ∧ a < t + w) := h.sublist List.filter_sublist
  have hwindow : ∀ a ∈ l.filter (fun a => t ≤ a ∧ a < t + w), t ≤ a ∧ a < t + w :=
    fun a ha => of_decide_eq_true (List.mem_filter.mp ha).2
  generalize l.filter (fun a => t ≤ a ∧ a < t + w) = m at hspaced hwindow
  cases m with
  | nil => exact Nat.zero_le _
  | cons x m =>
      -- the first one is not before the window and the last one is not behind it
      have hspan := hspaced.span
      have hfirst : t ≤ x := (hwindow x List.mem_cons_self).1
      have hlast := (hwindow _ (List.getLast_mem (List.cons_ne_nil x m))).2
      have hfit : (m.length : K) < w / gap := by
        rw [lt_div_iff₀ hgap]
        linarith
      exact Nat.lt_ceil.mpr hfit

end Spacing

/-! ## The gate -/

variable {κ K : Type*} [DecidableEq κ] [Field K] [LinearOrder K]

/-- When every key was last let through, if it ever was. -/
abbrev State (κ K : Type*) := κ → Option K

/-- Letting a key through at a time. -/
def step (gap : K) (s : State κ K) (e : κ × K) : Option (State κ K × List (κ × K)) :=
  if ∀ last ∈ s e.1, last + gap ≤ e.2 then
    some (Function.update s e.1 (some e.2), [e])
  else none

theorem step_of_far {gap : K} {s : State κ K} {key : κ} {now : K}
    (hfar : ∀ last ∈ s key, last + gap ≤ now) :
    step gap s (key, now) = some (Function.update s key (some now), [(key, now)]) :=
  if_pos hfar

def machine (κ : Type*) [DecidableEq κ] (gap : K) : EventMachine (State κ K) (κ × K) (κ × K) :=
  ⟨step gap⟩

/-- Nothing has been let through. -/
def idle : State κ K := fun _ => none

/-- The times at which `key` was let through. -/
def admittedOf (key : κ) (h : List (κ × K)) : List K :=
  h.filterMap fun o => if o.1 = key then some o.2 else none

omit [Field K] [LinearOrder K] in
theorem admittedOf_concat (key : κ) (h : List (κ × K)) (o : κ × K) :
    admittedOf key (h ++ [o]) = admittedOf key h ++ if o.1 = key then [o.2] else [] := by
  rw [admittedOf, List.filterMap_append]
  by_cases hkey : o.1 = key <;> simp [admittedOf, hkey]

omit [Field K] [LinearOrder K] in
theorem admittedOf_map {T : Type*} (f : T → K) (key : κ) (h : List (κ × T)) :
    admittedOf key (h.map (Prod.map id f)) = (admittedOf key h).map f := by
  rw [admittedOf, admittedOf, List.filterMap_map, List.map_filterMap]
  congr 1
  funext o
  by_cases hkey : o.1 = key <;> simp [hkey]

variable {gap : K} {es : List (κ × K)}
  {c c' : EventMachine.Config (State κ K) (κ × K)}

theorem next_eq_some {e : κ × K} (h : (machine κ gap).next c e = some c') :
    (∀ last ∈ c.state e.1, last + gap ≤ e.2) ∧
      c' = ⟨Function.update c.state e.1 (some e.2), c.history ++ [e]⟩ := by
  obtain ⟨out, hstep, hhist⟩ := EventMachine.next_eq_some h
  have hc' : c' = ⟨c'.state, c.history ++ out⟩ := by rw [← hhist]
  simp only [machine, step] at hstep
  split at hstep
  · next hfar =>
      obtain ⟨hs, rfl⟩ := Prod.mk.inj (Option.some.inj hstep)
      exact ⟨hfar, by rw [hc', ← hs]⟩
  · cases hstep

/-- The state holds, for every key, the last time in the history. -/
def Remembers (c : EventMachine.Config (State κ K) (κ × K)) : Prop :=
  ∀ key, c.state key = (admittedOf key c.history).getLast?

theorem remembers_next {e : κ × K} (hlast : Remembers c)
    (h : (machine κ gap).next c e = some c') : Remembers c' := by
  obtain ⟨-, rfl⟩ := next_eq_some h
  intro key
  show Function.update c.state e.1 (some e.2) key = (admittedOf key (c.history ++ [e])).getLast?
  rw [admittedOf_concat]
  by_cases hkey : key = e.1
  · rw [hkey, if_pos rfl, Function.update_self, List.getLast?_concat]
  · rw [Function.update_of_ne hkey, if_neg (Ne.symm hkey), List.append_nil]
    exact hlast key

variable [IsStrictOrderedRing K]

/-- **Spacing.** In every run, the times at which a key is let through are spaced. -/
theorem spaced_run (hgap : 0 ≤ gap) (hrun : (machine κ gap).exec (.start idle) es = some c)
    (key : κ) : Spaced gap (admittedOf key c.history) := by
  -- the gate compares with the last time, which is in the state
  have hboth : Remembers c ∧ ∀ key, Spaced gap (admittedOf key c.history) := by
    refine EventMachine.exec_invariant
      (I := fun c => Remembers c ∧ ∀ key, Spaced gap (admittedOf key c.history)) ?_
      ⟨fun _ => rfl, fun _ => spaced_nil⟩ hrun
    rintro c e c' ⟨hlast, hspaced⟩ hnext
    refine ⟨remembers_next hlast hnext, ?_⟩
    intro key
    obtain ⟨hfar, rfl⟩ := next_eq_some hnext
    rw [admittedOf_concat]
    by_cases hkey : e.1 = key
    · subst hkey
      rw [if_pos rfl]
      refine spaced_concat hgap (hspaced e.1) ?_
      rw [← hlast e.1]
      exact hfar
    · rw [if_neg hkey, List.append_nil]
      exact hspaced key
  exact hboth.2 key

end RateGate
