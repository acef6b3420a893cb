/-
  CameraStream.Lib.ProcessTable

  Process numbers as one program sees them: which numbers are taken, by a child of the
  program or by somebody else's process, and which children have ended.

  A child that has ended keeps its number until it is waited for (`reap`); a free number
  may be given to the next process that starts, whoever starts it (`spawn`).  A signal
  reaches whatever has the number when it is sent, which is why a number must not be
  signalled after `reap`.

  `IsChild` is what a program knows of a child it has not waited for; everything else
  that happens to the table keeps it.  `holdsChild` asks whether a number is such a
  child's: only `spawn` and `reap` change the answer.
-/

import Mathlib.Data.Int.Notation
import Mathlib.Order.Basic

/-- One process. -/
structure Process where
  /-- A child of the program, which only the program can wait for. -/
  child : Bool
  exited : Bool := false
  /-- A termination signal has been sent to it. -/
  signalled : Bool := false
  deriving DecidableEq

/-- Who has which number. -/
abbrev ProcessTable := Int → Option Process

namespace ProcessTable

variable {t t' : ProcessTable} {pid q : Int} {p : Option Process} {child b : Bool}

def put (t : ProcessTable) (pid : Int) (p : Option Process) : ProcessTable :=
  fun q => if q = pid then p else t q

@[simp] theorem put_same : t.put pid p pid = p := if_pos rfl

theorem put_other (h : q ≠ pid) : t.put pid p q = t q := if_neg h

/-- A process starts under a free number. -/
def spawn (t : ProcessTable) (pid : Int) (child : Bool) : Option ProcessTable :=
  if 0 < pid ∧ t pid = none then some (t.put pid (some { child := child })) else none

/-- A termination signal is sent to the process with this number, if there is one. -/
def signal (t : ProcessTable) (pid : Int) : ProcessTable :=
  t.put pid ((t pid).map fun p => { p with signalled := true })

/-- A process ends.  Whoever started a process that is no child waits for it. -/
def exit (t : ProcessTable) (pid : Int) : Option ProcessTable :=
  match t pid with
  | some p =>
      if p.exited then none
      else some (t.put pid (if p.child then some { p with exited := true } else none))
  | none => none

/-- The program waits for a child that has ended; its number is free again. -/
def reap (t : ProcessTable) (pid : Int) : Option ProcessTable :=
  match t pid with
  | some p => if p.child && p.exited then some (t.put pid none) else none
  | none => none

/-- The number belongs to a child that has not been waited for, and the flag says
    whether it was sent a signal. -/
def IsChild (t : ProcessTable) (pid : Int) (signalled : Bool) : Prop :=
  ∃ p, t pid = some p ∧ p.child = true ∧ p.signalled = signalled

theorem IsChild.unique {b' : Bool} (h : t.IsChild pid b) (h' : t.IsChild pid b') : b = b' := by
  obtain ⟨p, hp, -, rfl⟩ := h
  obtain ⟨p', hp', -, rfl⟩ := h'
  rw [hp] at hp'
  cases hp'
  rfl

/-! ## What happens to a child -/

theorem spawn_pos (h : t.spawn pid child = some t') : 0 < pid := by
  obtain ⟨⟨hpos, -⟩, -⟩ := Option.ite_none_right_eq_some.mp h
  exact hpos

/-- A child that has just been started was not sent a signal yet. -/
theorem isChild_spawn (h : t.spawn pid true = some t') : t'.IsChild pid false := by
  obtain ⟨-, heq⟩ := Option.ite_none_right_eq_some.mp h
  cases heq
  exact ⟨_, put_same, rfl, rfl⟩

/-- Nobody else is given the number of a child. -/
theorem IsChild.spawn (hc : t.IsChild q b) (h : t.spawn pid child = some t') :
    t'.IsChild q b := by
  obtain ⟨⟨-, hfree⟩, heq⟩ := Option.ite_none_right_eq_some.mp h
  cases heq
  obtain ⟨p, hp, hrest⟩ := hc
  have hne : q ≠ pid := by
    rintro rfl
    rw [hp] at hfree
    cases hfree
  exact ⟨p, (put_other hne).trans hp, hrest⟩

theorem IsChild.signal (hc : t.IsChild pid b) : (t.signal pid).IsChild pid true := by
  obtain ⟨p, hp, hchild, -⟩ := hc
  refine ⟨{ p with signalled := true }, ?_, hchild, rfl⟩
  rw [ProcessTable.signal, put_same, hp]
  rfl

/-- A child stays a child when it ends by itself, and when another process ends. -/
theorem IsChild.exit (hc : t.IsChild q b) (h : t.exit pid = some t') : t'.IsChild q b := by
  obtain ⟨p, hp, hchild, hsignalled⟩ := hc
  by_cases hne : q = pid
  · subst hne
    rw [ProcessTable.exit, hp] at h
    obtain ⟨-, heq⟩ := Option.ite_none_left_eq_some.mp h
    cases heq
    refine ⟨{ p with exited := true }, ?_, hchild, hsignalled⟩
    rw [put_same, if_pos hchild]
  · cases hother : t pid with
    | none => rw [ProcessTable.exit, hother] at h; cases h
    | some p' =>
        rw [ProcessTable.exit, hother] at h
        obtain ⟨-, heq⟩ := Option.ite_none_left_eq_some.mp h
        cases heq
        exact ⟨p, (put_other hne).trans hp, hchild, hsignalled⟩

/-! ## Which numbers are children's -/

/-- The number belongs to a child that has not been waited for. -/
def holdsChild (t : ProcessTable) (pid : Int) : Bool := (t pid).any Process.child

theorem holdsChild_put :
    (t.put pid p).holdsChild q = if q = pid then p.any Process.child else t.holdsChild q := by
  by_cases hq : q = pid
  · rw [if_pos hq, holdsChild, hq, put_same]
  · rw [if_neg hq, holdsChild, put_other hq, holdsChild]

theorem holdsChild_spawn (h : t.spawn pid child = some t') :
    t.holdsChild pid = false ∧
      t'.holdsChild q = if q = pid then child else t.holdsChild q := by
  obtain ⟨⟨-, hfree⟩, heq⟩ := Option.ite_none_right_eq_some.mp h
  cases heq
  refine ⟨?_, holdsChild_put⟩
  rw [holdsChild, hfree]
  rfl

theorem holdsChild_signal : (t.signal pid).holdsChild q = t.holdsChild q := by
  rw [signal, holdsChild_put]
  split
  · next hq =>
      rw [holdsChild, hq, Option.any_map]
  · rfl

/-- A child that has ended still has to be waited for. -/
theorem holdsChild_exit (h : t.exit pid = some t') : t'.holdsChild q = t.holdsChild q := by
  cases hp : t pid with
  | none => rw [exit, hp] at h; cases h
  | some p =>
      rw [exit, hp] at h
      obtain ⟨-, heq⟩ := Option.ite_none_left_eq_some.mp h
      cases heq
      rw [holdsChild_put]
      split
      · next hq =>
          rw [holdsChild, hq, hp]
          cases hchild : p.child with
          | true => simp [hchild]
          | false => simp [hchild]
      · rfl

theorem holdsChild_reap (h : t.reap pid = some t') :
    t'.holdsChild q = if q = pid then false else t.holdsChild q := by
  cases hp : t pid with
  | none => rw [reap, hp] at h; cases h
  | some p =>
      rw [reap, hp] at h
      obtain ⟨-, heq⟩ := Option.ite_none_right_eq_some.mp h
      cases heq
      exact holdsChild_put

/-- What the program can always wait for. -/
theorem reap_of_exited {p : Process} (hp : t pid = some p) (hchild : p.child = true)
    (hexited : p.exited = true) : t.reap pid = some (t.put pid none) := by
  rw [reap, hp]
  exact if_pos (by rw [hchild, hexited]; rfl)

end ProcessTable
