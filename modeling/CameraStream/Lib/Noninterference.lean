/-
  CameraStream.Lib.Noninterference

  Two runs of one machine: a run, and the run that is left when the events which do
  not concern an observer are deleted from it.

  Whether an event concerns the observer may depend on the state in which it happens
  (`visible`), so the deletion follows the run (`purge`).  An `Unwinding` relates the
  states of the two runs: events that are deleted keep the relation and show the
  observer nothing, and events that are kept can happen on both sides and show the
  same.

  Rules:

    * `Unwinding.exec`  — the purged run can be run, ends in a related state, and has
                          shown the observer the same;
    * `purge_prefix`    — the purged beginning of a run is the beginning of the purged
                          run.
-/

import CameraStream.Lib.EventMachine

namespace EventMachine

variable {σ ε ω ω' : Type*}

/-- The events of a run that are visible where they happen. -/
def purge (M : EventMachine σ ε ω) (visible : σ → ε → Bool) : σ → List ε → List ε
  | _, [] => []
  | s, e :: es =>
      match M.step s e with
      | none => []
      | some r => if visible s e then e :: M.purge visible r.1 es else M.purge visible r.1 es

/-- A relation between the states of a run and of its purged run. -/
structure Unwinding (M : EventMachine σ ε ω) (visible : σ → ε → Bool) (sees : ω → Option ω')
    (R : σ → σ → Prop) : Prop where
  deleted : ∀ {s t e s' out}, R s t → M.step s e = some (s', out) → visible s e = false →
    R s' t ∧ out.filterMap sees = []
  kept : ∀ {s t e s' out}, R s t → M.step s e = some (s', out) → visible s e = true →
    ∃ t' out', M.step t e = some (t', out') ∧ R s' t' ∧
      out.filterMap sees = out'.filterMap sees

variable {M : EventMachine σ ε ω} {visible : σ → ε → Bool} {sees : ω → Option ω'}
  {R : σ → σ → Prop} {c c' d : Config σ ω} {e : ε} {es fs : List ε}

theorem purge_step {s : σ} {r : σ × List ω} (hstep : M.step s e = some r) :
    M.purge visible s (e :: es) =
      if visible s e then e :: M.purge visible r.1 es else M.purge visible r.1 es := by
  simp [purge, hstep]

/-- A run that goes on is purged part by part. -/
theorem purge_append (hrun : M.exec c es = some c') :
    M.purge visible c.state (es ++ fs) =
      M.purge visible c.state es ++ M.purge visible c'.state fs := by
  induction es generalizing c with
  | nil =>
      obtain rfl := Option.some.inj hrun
      rfl
  | cons e es ih =>
      obtain ⟨mid, hnext, hrest⟩ := exec_cons_eq_some hrun
      obtain ⟨out, hstep, -⟩ := next_eq_some hnext
      rw [List.cons_append, purge_step hstep, purge_step hstep, ih hrest]
      split <;> rfl

theorem purge_prefix (hrun : M.exec c es = some c') (hbegin : es <+: fs) :
    M.purge visible c.state es <+: M.purge visible c.state fs := by
  obtain ⟨rest, rfl⟩ := hbegin
  rw [purge_append hrun]
  exact List.prefix_append _ _

/-- **Unwinding.** The purged run goes through, to a state related to that of the run, and
    shows the observer what the run has shown. -/
theorem Unwinding.exec (U : Unwinding M visible sees R) (hR : R c.state d.state)
    (hseen : c.history.filterMap sees = d.history.filterMap sees)
    (hrun : M.exec c es = some c') :
    ∃ d', M.exec d (M.purge visible c.state es) = some d' ∧ R c'.state d'.state ∧
      c'.history.filterMap sees = d'.history.filterMap sees := by
  induction es generalizing c d with
  | nil =>
      obtain rfl := Option.some.inj hrun
      exact ⟨d, rfl, hR, hseen⟩
  | cons e es ih =>
      obtain ⟨mid, hnext, hrest⟩ := exec_cons_eq_some hrun
      obtain ⟨out, hstep, hhist⟩ := next_eq_some hnext
      rw [purge_step hstep]
      cases hvisible : visible c.state e with
      | false =>
          -- the other run stands still
          obtain ⟨hR', hquiet⟩ := U.deleted hR hstep hvisible
          rw [if_neg Bool.false_ne_true]
          exact ih hR' (by rw [hhist, List.filterMap_append, hquiet, List.append_nil, hseen]) hrest
      | true =>
          -- both runs make the step
          obtain ⟨t', out', hstep', hR', hsame⟩ := U.kept hR hstep hvisible
          rw [if_pos rfl, exec_cons, next_of_step hstep', Option.bind_some]
          exact ih hR' (by rw [hhist, List.filterMap_append, List.filterMap_append, hseen, hsame])
            hrest

end EventMachine
