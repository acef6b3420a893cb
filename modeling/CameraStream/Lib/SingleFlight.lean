/-
  CameraStream.Lib.SingleFlight

  The keyed single-flight discipline, as an abstract machine.

  For every key at most one ticket is outstanding; this is built into the state,
  a partial function from keys to tickets.  A ticket is admitted only while its
  key is free, and settling a key frees it whether the work succeeded or not.

  Whatever the interleaving over different keys, per key the tickets settle in
  the order in which they were admitted (`admitted_eq_finished_append`).
-/

import CameraStream.Lib.EventMachine
import Mathlib.Logic.Function.Basic

namespace SingleFlight

variable {κ τ : Type*}

/-- The outstanding ticket of every key, if there is one. -/
abbrev State (κ τ : Type*) := κ → Option τ

inductive Event (κ τ : Type*) where
  | launch (key : κ) (ticket : τ)
  | settle (key : κ) (ok : Bool)

inductive Output (κ τ : Type*) where
  | admitted (key : κ) (ticket : τ)
  | finished (key : κ) (ticket : τ) (ok : Bool)

variable [DecidableEq κ]

def step (s : State κ τ) : Event κ τ → Option (State κ τ × List (Output κ τ))
  | .launch key ticket =>
      match s key with
      | none => some (Function.update s key (some ticket), [.admitted key ticket])
      | some _ => none
  | .settle key ok =>
      match s key with
      | none => none
      | some ticket => some (Function.update s key none, [.finished key ticket ok])

def machine (κ τ : Type*) [DecidableEq κ] :
    EventMachine (State κ τ) (Event κ τ) (Output κ τ) := ⟨step⟩

/-- Every key is free. -/
def idle : State κ τ := fun _ => none

/-! ## Per-key histories -/

/-- The tickets admitted for `key`, in order of admission. -/
def admittedOf (key : κ) (h : List (Output κ τ)) : List τ :=
  h.filterMap fun
    | .admitted key' ticket => if key' = key then some ticket else none
    | .finished .. => none

/-- The settlements of `key` with their outcomes, in order of settlement. -/
def settlementsOf (key : κ) (h : List (Output κ τ)) : List (τ × Bool) :=
  h.filterMap fun
    | .admitted .. => none
    | .finished key' ticket ok => if key' = key then some (ticket, ok) else none

def finishedOf (key : κ) (h : List (Output κ τ)) : List τ :=
  (settlementsOf key h).map Prod.fst

@[simp] theorem admittedOf_append (key : κ) (h h' : List (Output κ τ)) :
    admittedOf key (h ++ h') = admittedOf key h ++ admittedOf key h' :=
  List.filterMap_append

@[simp] theorem settlementsOf_append (key : κ) (h h' : List (Output κ τ)) :
    settlementsOf key (h ++ h') = settlementsOf key h ++ settlementsOf key h' :=
  List.filterMap_append

@[simp] theorem admittedOf_admitted (key k : κ) (t : τ) :
    admittedOf key [.admitted k t] = if k = key then [t] else [] := by
  by_cases h : k = key <;> simp [admittedOf, h]

@[simp] theorem admittedOf_finished (key k : κ) (t : τ) (ok : Bool) :
    admittedOf key [.finished k t ok] = [] := rfl

@[simp] theorem settlementsOf_admitted (key k : κ) (t : τ) :
    settlementsOf key [.admitted k t] = [] := rfl

@[simp] theorem settlementsOf_finished (key k : κ) (t : τ) (ok : Bool) :
    settlementsOf key [.finished k t ok] = if k = key then [(t, ok)] else [] := by
  by_cases h : k = key <;> simp [settlementsOf, h]

/-- What has been admitted is what has settled, then what is outstanding. -/
def Ordered (c : EventMachine.Config (State κ τ) (Output κ τ)) : Prop :=
  ∀ key, admittedOf key c.history = finishedOf key c.history ++ (c.state key).toList

theorem ordered_next {c c' : EventMachine.Config (State κ τ) (Output κ τ)}
    {e : Event κ τ} (h : Ordered c) (hnext : (machine κ τ).next c e = some c') :
    Ordered c' := by
  obtain ⟨out, hstep, hhist⟩ := EventMachine.next_eq_some hnext
  intro key
  have hk := h key
  cases e with
  | launch k ticket =>
      cases hfree : c.state k with
      | some _ => simp [machine, step, hfree] at hstep
      | none =>
          simp only [machine, step, hfree, Option.some.injEq, Prod.mk.injEq] at hstep
          obtain ⟨hs, rfl⟩ := hstep
          rw [hhist, ← hs]
          by_cases heq : k = key
          · -- the new ticket is the last admitted one and the outstanding one
            subst heq
            simpa [hfree, finishedOf] using hk
          · rw [Function.update_of_ne (Ne.symm heq)]
            simpa [finishedOf, heq] using hk
  | settle k ok =>
      cases hbusy : c.state k with
      | none => simp [machine, step, hbusy] at hstep
      | some ticket =>
          simp only [machine, step, hbusy, Option.some.injEq, Prod.mk.injEq] at hstep
          obtain ⟨hs, rfl⟩ := hstep
          rw [hhist, ← hs]
          by_cases heq : k = key
          · -- the outstanding ticket becomes the last settled one
            subst heq
            simpa [finishedOf, hbusy] using hk
          · rw [Function.update_of_ne (Ne.symm heq)]
            simpa [finishedOf, heq] using hk

/-- **Settlement order.** In every run from the idle state and for every key,
    the admitted tickets are the settled ones in settlement order, followed by
    the outstanding one. -/
theorem admitted_eq_finished_append {es : List (Event κ τ)}
    {c : EventMachine.Config (State κ τ) (Output κ τ)}
    (hrun : (machine κ τ).exec (.start idle) es = some c) (key : κ) :
    admittedOf key c.history = finishedOf key c.history ++ (c.state key).toList :=
  EventMachine.exec_invariant (I := Ordered) (fun _ _ _ => ordered_next)
    (fun _ => rfl) hrun key

end SingleFlight
