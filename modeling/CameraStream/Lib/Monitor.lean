/-
  CameraStream.Lib.Monitor

  A monitor: data that threads share under one mutex, and a condition variable.

  An operation takes the mutex, waits on the condition variable until its condition
  holds or its time is up, runs one critical section, all at once, and gives the mutex back;
  CameraStream.Lib.MonitorBodies goes through the statements of a section.  A thread
  that waits has given the mutex up.  It gets on by a notification, when its time is up,
  or for no reason at all, and then has to take the mutex again and to look again.

  Results, for any number of threads and in every interleaving:

    * `exclusive_run`     — one thread at a time is in its critical section;
    * `linearizable_run`  — callers see operations that happen at one instant each,
                            between their call and their return, one after the other on
                            the shared data;
    * `Signals`           — what the notifications have to look like, operation by
                            operation, and then:
    * `Signals.alert_run` — a thread that waits although its condition holds is not
                            forgotten: an awake one is on its way to the data;
    * `Signals.settled`   — where no thread can get on, each is outside or waits for a
                            condition that does not hold;
    * `Signals.settles`   — and that is reached after a bounded number of steps.
-/

import CameraStream.Lib.EventMachine
import Mathlib.Algebra.Order.BigOperators.Group.Finset
import Mathlib.Data.Fintype.Basic

/-- Which waiting threads an operation notifies. -/
inductive Wake where
  | nobody
  | one
  | everybody
  deriving DecidableEq

/-- The operations `ο` on the shared data `σ`, with results in `ρ`. -/
structure Monitor (σ ο ρ : Type*) where
  /-- What the operation waits for. -/
  ready : ο → σ → Bool
  /-- Its critical section, also when it has waited in vain. -/
  run : ο → σ → σ × ρ
  /-- Whom it notifies, before the critical section ends. -/
  wakes : ο → σ → Wake

namespace Monitor

open EventMachine

variable {τ σ ο ρ : Type*}

/-! ## Threads -/

/-- Where a thread is. -/
inductive Phase (ο ρ : Type*) where
  | outside
  /-- It wants the mutex; the flag tells whether its time is up. -/
  | entering (op : ο) (expired : Bool)
  /-- It has the mutex and is about to look at its condition. -/
  | inside (op : ο) (expired : Bool)
  /-- It waits on the condition variable. -/
  | asleep (op : ο)
  /-- It has run its critical section and still has the mutex. -/
  | leaving (op : ο) (result : ρ)

namespace Phase

def holds : Phase ο ρ → Bool
  | .inside _ _ | .leaving _ _ => true
  | _ => false

def isAsleep : Phase ο ρ → Bool
  | .asleep _ => true
  | _ => false

/-- A notified thread wants the mutex back. -/
def woken : Phase ο ρ → Phase ο ρ
  | .asleep op => .entering op false
  | p => p

theorem eq_of_asleep {p : Phase ο ρ} (h : p.isAsleep = true) : ∃ op, p = .asleep op := by
  cases p <;> first | exact ⟨_, rfl⟩ | cases h

theorem woken_of_awake {p : Phase ο ρ} (h : p.isAsleep = false) : p.woken = p := by
  cases p <;> first | rfl | cases h

@[simp] theorem holds_woken (p : Phase ο ρ) : p.woken.holds = p.holds := by
  cases p <;> rfl

@[simp] theorem isAsleep_woken (p : Phase ο ρ) : p.woken.isAsleep = false := by
  cases p <;> rfl

end Phase

/-- Where an operation of a thread stands, for an observer of the marks. -/
inductive Stage (ο ρ : Type*) where
  | idle
  | pending (op : ο)
  | done (op : ο) (result : ρ)

def Phase.stage : Phase ο ρ → Stage ο ρ
  | .outside => .idle
  | .entering op _ | .inside op _ | .asleep op => .pending op
  | .leaving op result => .done op result

@[simp] theorem Phase.stage_woken (p : Phase ο ρ) : p.woken.stage = p.stage := by
  cases p <;> rfl

structure Threads (τ σ ο ρ : Type*) where
  shared : σ
  owner : Option τ
  phase : τ → Phase ο ρ

def Threads.start (s₀ : σ) : Threads τ σ ο ρ := ⟨s₀, none, fun _ => .outside⟩

inductive Event (τ ο : Type*) where
  | call (t : τ) (op : ο)
  | acquire (t : τ)
  /-- The critical section; `chosen` is the thread that a single notification goes to. -/
  | runs (t : τ) (chosen : Option τ)
  | sleeps (t : τ)
  | release (t : τ)
  /-- A thread stops waiting: its time is up, or for no reason. -/
  | stirs (t : τ) (expired : Bool)

/-- The mutex, the scheduler and the condition variable get on by themselves. -/
def Event.isInternal : Event τ ο → Bool
  | .acquire _ | .runs _ _ | .sleeps _ | .release _ => true
  | .call _ _ | .stirs _ _ => false

/-- What happens to an operation. -/
inductive Mark (ο ρ : Type*) where
  | called (op : ο)
  | ran (op : ο) (result : ρ)
  | returned (op : ο) (result : ρ)

/-- What happens, and in which thread. -/
structure Output (τ ο ρ : Type*) where
  thread : τ
  mark : Mark ο ρ

section Goto

variable [DecidableEq τ]

def Threads.goto (s : Threads τ σ ο ρ) (t : τ) (p : Phase ο ρ) : Threads τ σ ο ρ :=
  { s with phase := Function.update s.phase t p }

variable (s : Threads τ σ ο ρ) (t : τ) (p : Phase ο ρ)

@[simp] theorem goto_phase_self : (s.goto t p).phase t = p := Function.update_self ..

theorem goto_phase_of_ne {u : τ} (h : u ≠ t) : (s.goto t p).phase u = s.phase u :=
  Function.update_of_ne h ..

@[simp] theorem goto_shared : (s.goto t p).shared = s.shared := rfl

@[simp] theorem goto_owner : (s.goto t p).owner = s.owner := rfl

variable {s t p}

/-- The owner of the mutex is the one thread that is in its critical section. -/
def Exclusive (s : Threads τ σ ο ρ) : Prop :=
  ∀ t, s.owner = some t ↔ (s.phase t).holds = true

/-- A thread moves between places of the same kind. -/
theorem Exclusive.goto (h : Exclusive s) (hp : p.holds = (s.phase t).holds) :
    Exclusive (s.goto t p) := by
  intro u
  by_cases hu : u = t
  · subst hu
    rw [goto_owner, goto_phase_self, hp]
    exact h u
  · rw [goto_owner, goto_phase_of_ne s t p hu]
    exact h u

/-- A thread takes the free mutex. -/
theorem Exclusive.take (h : Exclusive s)
    (hfree : s.owner = none) (hp : p.holds = true) :
    Exclusive { s.goto t p with owner := some t } := by
  intro u
  by_cases hu : u = t
  · subst hu
    exact iff_of_true rfl (by simpa using hp)
  · have hother := h u
    rw [hfree] at hother
    refine iff_of_false (fun heq => hu (Option.some.inj heq).symm) ?_
    rw [show ({ s.goto t p with owner := some t } : Threads τ σ ο ρ).phase u = s.phase u from
      goto_phase_of_ne s t p hu]
    exact fun hh => nomatch hother.mpr hh

/-- Its owner gives the mutex back. -/
theorem Exclusive.give (h : Exclusive s)
    (hholds : (s.phase t).holds = true) (hp : p.holds = false) :
    Exclusive { s.goto t p with owner := none } := by
  intro u
  refine iff_of_false nofun ?_
  by_cases hu : u = t
  · subst hu
    simp [hp]
  · rw [show ({ s.goto t p with owner := none } : Threads τ σ ο ρ).phase u = s.phase u from
      goto_phase_of_ne s t p hu]
    -- the owner is `t`
    intro hh
    have hown : some u = some t := ((h u).mpr hh).symm.trans ((h t).mpr hholds)
    exact hu (Option.some.inj hown)

theorem stage_goto (hp : p.stage = (s.phase t).stage) (u : τ) :
    ((s.goto t p).phase u).stage = (s.phase u).stage := by
  by_cases hu : u = t
  · subst hu
    rw [goto_phase_self, hp]
  · rw [goto_phase_of_ne s t p hu]

/-- What happens in one thread. -/
def marksOf (t : τ) (h : List (Output τ ο ρ)) : List (Mark ο ρ) :=
  (h.filter (·.thread = t)).map (·.mark)

theorem marksOf_append (t : τ) (h h' : List (Output τ ο ρ)) :
    marksOf t (h ++ h') = marksOf t h ++ marksOf t h' := by
  simp [marksOf]

end Goto

section Machine

variable [DecidableEq τ] [Fintype τ]

/-- The threads after a notification.  A single one goes to some waiting thread if there
    is one, otherwise it is lost. -/
def notify (phase : τ → Phase ο ρ) : Wake → Option τ → Option (τ → Phase ο ρ)
  | .nobody, none => some phase
  | .everybody, none => some fun t => (phase t).woken
  | .one, none => if ∀ t, (phase t).isAsleep = false then some phase else none
  | .one, some t =>
      if (phase t).isAsleep then some (Function.update phase t (phase t).woken) else none
  | .nobody, some _ | .everybody, some _ => none

def step (M : Monitor σ ο ρ) (s : Threads τ σ ο ρ) :
    Event τ ο → Option (Threads τ σ ο ρ × List (Output τ ο ρ))
  | .call t op =>
      match s.phase t with
      | .outside => some (s.goto t (.entering op false), [⟨t, .called op⟩])
      | _ => none
  | .acquire t =>
      match s.owner, s.phase t with
      | none, .entering op expired =>
          some ({ s.goto t (.inside op expired) with owner := some t }, [])
      | _, _ => none
  | .runs t chosen =>
      match s.phase t with
      | .inside op expired =>
          if M.ready op s.shared || expired then
            (notify s.phase (M.wakes op s.shared) chosen).map fun phase =>
              (({ s with shared := (M.run op s.shared).1, phase := phase }).goto t
                  (.leaving op (M.run op s.shared).2),
                [⟨t, .ran op (M.run op s.shared).2⟩])
          else none
      | _ => none
  | .sleeps t =>
      match s.phase t with
      | .inside op expired =>
          if M.ready op s.shared || expired then none
          else some ({ s.goto t (.asleep op) with owner := none }, [])
      | _ => none
  | .release t =>
      match s.phase t with
      | .leaving op result =>
          some ({ s.goto t .outside with owner := none }, [⟨t, .returned op result⟩])
      | _ => none
  | .stirs t expired =>
      match s.phase t with
      | .asleep op => some (s.goto t (.entering op expired), [])
      | _ => none

def machine (τ : Type*) [DecidableEq τ] [Fintype τ] (M : Monitor σ ο ρ) :
    EventMachine (Threads τ σ ο ρ) (Event τ ο) (Output τ ο ρ) := ⟨M.step⟩

/-! ## What a step does -/

/-- One constructor for each way in which a thread gets on. -/
inductive Step (M : Monitor σ ο ρ) (s : Threads τ σ ο ρ) :
    Event τ ο → Threads τ σ ο ρ → List (Output τ ο ρ) → Prop where
  | call (t : τ) (op : ο) (hout : s.phase t = .outside) :
      Step M s (.call t op) (s.goto t (.entering op false)) [⟨t, .called op⟩]
  | acquire (t : τ) (op : ο) (expired : Bool) (hfree : s.owner = none)
      (henter : s.phase t = .entering op expired) :
      Step M s (.acquire t) { s.goto t (.inside op expired) with owner := some t } []
  | runs (t : τ) (chosen : Option τ) (op : ο) (expired : Bool) (phase : τ → Phase ο ρ)
      (hin : s.phase t = .inside op expired) (hgo : (M.ready op s.shared || expired) = true)
      (hnotify : notify s.phase (M.wakes op s.shared) chosen = some phase) :
      Step M s (.runs t chosen)
        (({ s with shared := (M.run op s.shared).1, phase := phase }).goto t
          (.leaving op (M.run op s.shared).2))
        [⟨t, .ran op (M.run op s.shared).2⟩]
  | sleeps (t : τ) (op : ο) (hin : s.phase t = .inside op false)
      (hnot : M.ready op s.shared = false) :
      Step M s (.sleeps t) { s.goto t (.asleep op) with owner := none } []
  | release (t : τ) (op : ο) (result : ρ) (hleave : s.phase t = .leaving op result) :
      Step M s (.release t) { s.goto t .outside with owner := none } [⟨t, .returned op result⟩]
  | stirs (t : τ) (expired : Bool) (op : ο) (hasleep : s.phase t = .asleep op) :
      Step M s (.stirs t expired) (s.goto t (.entering op expired)) []

variable {M : Monitor σ ο ρ} {s s' : Threads τ σ ο ρ} {e : Event τ ο}
  {out : List (Output τ ο ρ)}

theorem step_cases (h : M.step s e = some (s', out)) : Step M s e s' out := by
  cases e with
  | call t op =>
      simp only [step] at h
      split at h
      · next hout =>
          cases h
          exact .call t op hout
      · cases h
  | acquire t =>
      simp only [step] at h
      split at h
      · next op expired hfree henter =>
          cases h
          exact .acquire t op expired hfree henter
      · cases h
  | runs t chosen =>
      simp only [step] at h
      split at h
      · next op expired hin =>
          split at h
          · next hgo =>
              obtain ⟨phase, hnotify, heq⟩ := Option.map_eq_some_iff.mp h
              cases heq
              exact .runs t chosen op expired phase hin hgo hnotify
          · cases h
      · cases h
  | sleeps t =>
      simp only [step] at h
      split at h
      · next op expired hin =>
          split at h
          · cases h
          · next hnot =>
              cases h
              obtain ⟨hready, hexp⟩ : M.ready op s.shared = false ∧ expired = false := by
                simpa using hnot
              exact .sleeps t op (hexp ▸ hin) hready
      · cases h
  | release t =>
      simp only [step] at h
      split at h
      · next op result hleave =>
          cases h
          exact .release t op result hleave
      · cases h
  | stirs t expired =>
      simp only [step] at h
      split at h
      · next op hasleep =>
          cases h
          exact .stirs t expired op hasleep
      · cases h

theorem next_cases {c c' : EventMachine.Config (Threads τ σ ο ρ) (Output τ ο ρ)}
    (hnext : (machine τ M).next c e = some c') :
    ∃ out, Step M c.state e c'.state out ∧ c'.history = c.history ++ out := by
  obtain ⟨out, hstep, hhist⟩ := next_eq_some hnext
  exact ⟨out, step_cases hstep, hhist⟩

/-- A notification leaves a thread where it is, or wakes it. -/
theorem notify_phase {phase phase' : τ → Phase ο ρ} {w : Wake} {chosen : Option τ}
    (h : notify phase w chosen = some phase') (u : τ) :
    phase' u = phase u ∨ phase' u = (phase u).woken := by
  cases w with
  | nobody =>
      cases chosen with
      | none =>
          cases h
          exact .inl rfl
      | some t => cases h
  | one =>
      cases chosen with
      | none =>
          obtain ⟨-, heq⟩ := Option.ite_none_right_eq_some.mp h
          cases heq
          exact .inl rfl
      | some t =>
          obtain ⟨-, heq⟩ := Option.ite_none_right_eq_some.mp h
          cases heq
          by_cases hu : u = t
          · subst hu
            exact .inr (Function.update_self ..)
          · exact .inl (Function.update_of_ne hu ..)
  | everybody =>
      cases chosen with
      | none =>
          cases h
          exact .inr rfl
      | some t => cases h

/-- Some thread can always be chosen. -/
theorem exists_notify (phase : τ → Phase ο ρ) (w : Wake) :
    ∃ chosen phase', notify phase w chosen = some phase' := by
  cases w with
  | nobody => exact ⟨none, phase, rfl⟩
  | everybody => exact ⟨none, fun t => (phase t).woken, rfl⟩
  | one =>
      by_cases hall : ∀ t, (phase t).isAsleep = false
      · exact ⟨none, phase, if_pos hall⟩
      · obtain ⟨t, ht⟩ := not_forall.mp hall
        exact ⟨some t, Function.update phase t (phase t).woken,
          if_pos (Bool.eq_true_of_not_eq_false ht)⟩

/-! ## Mutual exclusion -/

variable {c c' : EventMachine.Config (Threads τ σ ο ρ) (Output τ ο ρ)}
  {es : List (Event τ ο)} {s₀ : σ}

theorem Step.exclusive (hstep : Step M s e s' out) (h : Exclusive s) : Exclusive s' := by
  cases hstep with
  | call t op hout => exact h.goto (by rw [hout]; rfl)
  | acquire t op expired hfree henter => exact h.take hfree rfl
  | runs t chosen op expired phase hin hgo hnotify =>
      -- a notification moves no thread into its critical section or out of it
      have hwoken : Exclusive { s with shared := (M.run op s.shared).1, phase := phase } := by
        intro u
        rcases notify_phase hnotify u with hu | hu
        · simpa [hu] using h u
        · simpa [hu] using h u
      refine hwoken.goto ?_
      rcases notify_phase hnotify t with ht | ht
      · simp [ht, hin, Phase.holds]
      · simp [ht, hin, Phase.holds, Phase.woken]
  | sleeps t op hin hnot => exact h.give (by rw [hin]; rfl) rfl
  | release t op result hleave => exact h.give (by rw [hleave]; rfl) rfl
  | stirs t expired op hasleep => exact h.goto (by rw [hasleep]; rfl)

theorem exclusive_run (hrun : (machine τ M).exec (.start (.start s₀)) es = some c) :
    Exclusive c.state := by
  refine exec_invariant (I := fun c => Exclusive c.state) ?_ ?_ hrun
  · intro c e c' h hnext
    obtain ⟨out, hstep, -⟩ := next_cases hnext
    exact hstep.exclusive h
  · intro t
    exact iff_of_false nofun nofun

/-! ## Linearizability -/

/-- In a thread, each operation is called, happens and returns what it came to, and only
    then the next one is called. -/
inductive Cycle : List (Mark ο ρ) → Stage ο ρ → Prop where
  | start : Cycle [] .idle
  | called {h : List (Mark ο ρ)} (op : ο) (hc : Cycle h .idle) :
      Cycle (h ++ [.called op]) (.pending op)
  | ran {h : List (Mark ο ρ)} (op : ο) (result : ρ) (hc : Cycle h (.pending op)) :
      Cycle (h ++ [.ran op result]) (.done op result)
  | returned {h : List (Mark ο ρ)} (op : ο) (result : ρ) (hc : Cycle h (.done op result)) :
      Cycle (h ++ [.returned op result]) .idle

/-- The operations in the order in which they happen. -/
def performed (h : List (Output τ ο ρ)) : List (τ × ο × ρ) :=
  h.filterMap fun o =>
    match o.mark with
    | .ran op result => some (o.thread, op, result)
    | _ => none

/-- The data without threads: each operation happens at once. -/
def sequential (τ : Type*) (M : Monitor σ ο ρ) : EventMachine σ (τ × ο) (τ × ο × ρ) :=
  ⟨fun s e => some ((M.run e.2 s).1, [(e.1, e.2, (M.run e.2 s).2)])⟩

/-- The calls and the returns, which is what the callers see. -/
def visible (h : List (Output τ ο ρ)) : List (Output τ ο ρ) :=
  h.filter fun o =>
    match o.mark with
    | .ran _ _ => false
    | _ => true

/-- What the callers see is explained by operations that each happen at one instant
    between the call and the return, in an order in which the data without threads gives
    these results. -/
def Linearizable (M : Monitor σ ο ρ) (s₀ : σ) (h : List (Output τ ο ρ)) : Prop :=
  ∃ full, visible full = h ∧ (∀ t, ∃ stage, Cycle (marksOf t full) stage) ∧
    ∃ ops s, (sequential τ M).exec (.start s₀) ops = some ⟨s, performed full⟩

/-- What one thread emits moves its own operation on. -/
inductive Advance (s s' : Threads τ σ ο ρ) : List (Output τ ο ρ) → Prop where
  | silent (hsame : ∀ u, (s'.phase u).stage = (s.phase u).stage) : Advance s s' []
  | emits (t : τ) (mark : Mark ο ρ)
      (hmark : ∀ h, Cycle h (s.phase t).stage → Cycle (h ++ [mark]) (s'.phase t).stage)
      (hothers : ∀ u, u ≠ t → (s'.phase u).stage = (s.phase u).stage) :
      Advance s s' [⟨t, mark⟩]

theorem Step.advance (hstep : Step M s e s' out) : Advance s s' out := by
  cases hstep with
  | call t op hout =>
      refine .emits t _ ?_ fun u hu => by rw [goto_phase_of_ne s t _ hu]
      intro h hc
      rw [hout] at hc
      simpa [Phase.stage] using Cycle.called op hc
  | acquire t op expired hfree henter =>
      exact .silent (stage_goto (by rw [henter]; rfl))
  | runs t chosen op expired phase hin hgo hnotify =>
      refine .emits t _ ?_ ?_
      · intro h hc
        rw [hin] at hc
        simpa [Phase.stage] using Cycle.ran op (M.run op s.shared).2 hc
      · intro u hu
        rw [goto_phase_of_ne _ t _ hu]
        rcases notify_phase hnotify u with h | h
        · simp [h]
        · simp [h]
  | sleeps t op hin hnot => exact .silent (stage_goto (by rw [hin]; rfl))
  | release t op result hleave =>
      refine .emits t _ ?_ fun u hu => goto_phase_of_ne s t _ hu ▸ rfl
      intro h hc
      rw [hleave] at hc
      have hret := Cycle.returned op result hc
      rw [show ({ s.goto t .outside with owner := none } : Threads τ σ ο ρ).phase t = .outside
        from goto_phase_self s t .outside]
      exact hret
  | stirs t expired op hasleep => exact .silent (stage_goto (by rw [hasleep]; rfl))

/-- Every thread is where its own marks say. -/
def Staged (c : EventMachine.Config (Threads τ σ ο ρ) (Output τ ο ρ)) : Prop :=
  ∀ t, Cycle (marksOf t c.history) (c.state.phase t).stage

omit [Fintype τ] in
theorem Advance.staged {h : List (Output τ ο ρ)} (hadv : Advance s s' out)
    (hs : Staged ⟨s, h⟩) : Staged ⟨s', h ++ out⟩ := by
  intro u
  cases hadv with
  | silent hsame =>
      rw [List.append_nil]
      exact (hsame u).symm ▸ hs u
  | emits t mark hmark hothers =>
      rw [marksOf_append]
      by_cases hu : u = t
      · subst hu
        simpa [marksOf] using hmark _ (hs u)
      · -- the mark is another thread's
        have hne : ¬ t = u := fun heq => hu heq.symm
        have hold := (hothers u hu).symm ▸ hs u
        simpa [marksOf, hne] using hold

theorem staged_run (hrun : (machine τ M).exec (.start (.start s₀)) es = some c) : Staged c := by
  refine exec_invariant (I := Staged) ?_ ?_ hrun
  · intro c e c' h hnext
    obtain ⟨out, hstep, hhist⟩ := next_cases hnext
    have hstaged := hstep.advance.staged h
    rw [← hhist] at hstaged
    exact hstaged
  · intro t
    exact Cycle.start

/-- Only a critical section looks at the data. -/
theorem Step.shared (hstep : Step M s e s' out) :
    (s'.shared = s.shared ∧ performed out = []) ∨
      ∃ t op, s'.shared = (M.run op s.shared).1 ∧
        performed out = [(t, op, (M.run op s.shared).2)] := by
  cases hstep with
  | runs t chosen op expired phase hin hgo hnotify => exact .inr ⟨t, op, rfl, rfl⟩
  | call | acquire | sleeps | release | stirs => exact .inl ⟨rfl, rfl⟩

/-- A critical section is one step of the data without threads; every other step is none. -/
def sequentialSimulation (M : Monitor σ ο ρ) : Simulation (machine τ M) (sequential τ M) where
  rel c d := d = ⟨c.state.shared, performed c.history⟩
  sim := by
    rintro c e c' d rfl hnext
    obtain ⟨out, hstep, hhist⟩ := next_cases hnext
    have hperf : performed c'.history = performed c.history ++ performed out := by
      rw [hhist]
      exact List.filterMap_append
    rw [hperf]
    rcases hstep.shared with ⟨hshared, hout⟩ | ⟨t, op, hshared, hout⟩
    · exact ⟨[], _, rfl, by rw [hshared, hout, List.append_nil]⟩
    · exact ⟨[(t, op)], _, rfl, by rw [hshared, hout]⟩

theorem linearized (hrun : (machine τ M).exec (.start (.start s₀)) es = some c) :
    ∃ ops, (sequential τ M).exec (.start s₀) ops =
      some ⟨c.state.shared, performed c.history⟩ := by
  have hrel : (sequentialSimulation M).rel (.start (.start s₀) :
      EventMachine.Config (Threads τ σ ο ρ) (Output τ ο ρ)) (.start s₀) := rfl
  obtain ⟨ops, d, hops, rfl⟩ := (sequentialSimulation M).exec hrel hrun
  exact ⟨ops, hops⟩

theorem linearizable_run (hrun : (machine τ M).exec (.start (.start s₀)) es = some c) :
    Linearizable M s₀ (visible c.history) := by
  obtain ⟨ops, hops⟩ := linearized hrun
  exact ⟨c.history, rfl, fun t => ⟨_, staged_run hrun t⟩, ops, _, hops⟩

/-! ## Notifications -/

/-- What the notifications of a monitor have to look like.  Only the operations in `waits`
    wait, all for the same condition; once it is `final`, it holds for ever. -/
structure Signals (M : Monitor σ ο ρ) (waits : ο → Prop) (cond final : σ → Prop) : Prop where
  /-- An operation that does not wait is always ready. -/
  always : ∀ op s, ¬ waits op → M.ready op s = true
  ready : ∀ op s, waits op → (M.ready op s = true ↔ cond s)
  /-- One operation that has waited uses the condition up. -/
  consumes : ∀ op s, waits op → cond (M.run op s).1 → final s
  quiet : ∀ op s, waits op → M.wakes op s = .nobody
  final_cond : ∀ s, final s → cond s
  final_keeps : ∀ op s, final s → final (M.run op s).1
  /-- What makes the condition hold notifies somebody, and everybody if it is for ever. -/
  announces : ∀ op s, ¬ cond s → cond (M.run op s).1 → M.wakes op s ≠ .nobody
  announces_final : ∀ op s, ¬ final s → final (M.run op s).1 → M.wakes op s = .everybody

/-- On the way to the data, to see whether the condition holds. -/
def Phase.Wants (waits : ο → Prop) (p : Phase ο ρ) : Prop :=
  ∃ op expired, waits op ∧ (p = .entering op expired ∨ p = .inside op expired)

/-- Nobody waits in vain. -/
structure Alert (waits : ο → Prop) (cond final : σ → Prop) (s : Threads τ σ ο ρ) : Prop where
  waiting : ∀ t op, s.phase t = .asleep op → waits op
  forever : final s.shared → ∀ t op, s.phase t ≠ .asleep op
  /-- A thread that waits although the condition holds is not the only one. -/
  attended : cond s.shared → ∀ t op, s.phase t = .asleep op → ∃ u, (s.phase u).Wants waits

variable {waits : ο → Prop} {cond final : σ → Prop}

omit [Fintype τ] in
/-- One thread moves on, to no sleep, and nobody else stops wanting. -/
theorem Alert.goto {s : Threads τ σ ο ρ} (h : Alert waits cond final s) {t : τ} {p : Phase ο ρ}
    (owner : Option τ) (hp : p.isAsleep = false)
    (hwants : (s.phase t).Wants waits → p.Wants waits) :
    Alert waits cond final { s.goto t p with owner := owner } := by
  -- whoever sleeps afterwards slept before
  have hback : ∀ u op, (s.goto t p).phase u = .asleep op → s.phase u = .asleep op := by
    intro u op hu
    by_cases heq : u = t
    · subst heq
      rw [goto_phase_self] at hu
      rw [hu] at hp
      cases hp
    · rw [goto_phase_of_ne s t p heq] at hu
      exact hu
  refine ⟨fun u op hu => h.waiting u op (hback u op hu),
    fun hf u op hu => h.forever hf u op (hback u op hu), ?_⟩
  intro hc u op hu
  obtain ⟨v, hv⟩ := h.attended hc u op (hback u op hu)
  refine ⟨v, ?_⟩
  by_cases heq : v = t
  · subst heq
    rw [show ({ s.goto v p with owner := owner } : Threads τ σ ο ρ).phase v = p from
      goto_phase_self s v p]
    exact hwants hv
  · rw [show ({ s.goto t p with owner := owner } : Threads τ σ ο ρ).phase v = s.phase v from
      goto_phase_of_ne s t p heq]
    exact hv

/-- A thread that sleeps after a notification slept before, and is not the one that the
    notification went to. -/
theorem asleep_of_notify {phase phase' : τ → Phase ο ρ} {w : Wake} {chosen : Option τ}
    (h : notify phase w chosen = some phase') {u : τ} {op : ο} (hu : phase' u = .asleep op) :
    phase u = .asleep op := by
  rcases notify_phase h u with heq | heq
  · exact heq ▸ hu
  · have hawake := (phase u).isAsleep_woken
    rw [← heq, hu] at hawake
    cases hawake

theorem not_asleep_of_everybody {phase phase' : τ → Phase ο ρ} {chosen : Option τ}
    (h : notify phase .everybody chosen = some phase') (u : τ) (op : ο) :
    phase' u ≠ .asleep op := by
  cases chosen with
  | none =>
      cases h
      intro hu
      have hasleep : (phase u).woken = .asleep op := hu
      have hawake := (phase u).isAsleep_woken
      rw [hasleep] at hawake
      cases hawake
  | some t => cases h

/-- An awake thread stays where it is. -/
theorem notify_awake {phase phase' : τ → Phase ο ρ} {w : Wake} {chosen : Option τ}
    (h : notify phase w chosen = some phase') {u : τ} (hu : (phase u).isAsleep = false) :
    phase' u = phase u := by
  rcases notify_phase h u with heq | heq
  · exact heq
  · rw [heq, Phase.woken_of_awake hu]

/-- If somebody sleeps on after a notification of one thread, another one has been woken. -/
theorem exists_woken {phase phase' : τ → Phase ο ρ} {w : Wake} {chosen : Option τ}
    (h : notify phase w chosen = some phase') (hw : w ≠ .nobody) {u : τ} {op : ο}
    (hu : phase' u = .asleep op) :
    ∃ v op', phase v = .asleep op' ∧ phase' v = .entering op' false := by
  cases w with
  | nobody => exact absurd rfl hw
  | everybody => exact absurd hu (not_asleep_of_everybody h u op)
  | one =>
      cases chosen with
      | none =>
          obtain ⟨hall, -⟩ := Option.ite_none_right_eq_some.mp h
          have hawake := hall u
          rw [asleep_of_notify h hu] at hawake
          cases hawake
      | some v =>
          obtain ⟨hasleep, heq⟩ := Option.ite_none_right_eq_some.mp h
          cases heq
          obtain ⟨op', hop'⟩ := Phase.eq_of_asleep hasleep
          refine ⟨v, op', hop', ?_⟩
          rw [Function.update_self, hop']
          rfl

theorem Phase.Wants.isAsleep {p : Phase ο ρ} (h : p.Wants waits) : p.isAsleep = false := by
  obtain ⟨op, expired, -, rfl | rfl⟩ := h
  · rfl
  · rfl

/-- The critical section of an operation that does not wait. -/
theorem Alert.runs {s : Threads τ σ ο ρ} (h : Alert waits cond final s)
    (S : Signals M waits cond final) {t : τ} {chosen : Option τ} {op : ο} {expired : Bool}
    {phase : τ → Phase ο ρ} (hin : s.phase t = .inside op expired)
    (hnotify : notify s.phase (M.wakes op s.shared) chosen = some phase) :
    Alert waits cond final
      (({ s with shared := (M.run op s.shared).1, phase := phase }).goto t
        (.leaving op (M.run op s.shared).2)) := by
  -- whoever sleeps now is another thread, and slept before
  have hback : ∀ u op', (({ s with shared := (M.run op s.shared).1, phase := phase }).goto t
      (.leaving op (M.run op s.shared).2)).phase u = .asleep op' →
      u ≠ t ∧ phase u = .asleep op' ∧ s.phase u = .asleep op' := by
    intro u op' hu
    by_cases heq : u = t
    · subst heq
      rw [goto_phase_self] at hu
      cases hu
    · rw [goto_phase_of_ne _ t _ heq] at hu
      exact ⟨heq, hu, asleep_of_notify hnotify hu⟩
  refine ⟨fun u op' hu => h.waiting u op' (hback u op' hu).2.2, ?_, ?_⟩
  · intro hf u op' hu
    obtain ⟨-, hnow, hbefore⟩ := hback u op' hu
    by_cases hold : final s.shared
    · exact h.forever hold u op' hbefore
    · rw [S.announces_final op s.shared hold hf] at hnotify
      exact not_asleep_of_everybody hnotify u op' hnow
  · intro hc u op' hu
    obtain ⟨-, hnow, hbefore⟩ := hback u op' hu
    have hopen : ¬ final s.shared := fun hf => h.forever hf u op' hbefore
    -- an operation that waits has used the condition up
    have hop : ¬ waits op := fun hop => hopen (S.consumes op s.shared hop hc)
    -- so another thread wants the data: one from before, or one that has been woken
    have hother : ∃ v, v ≠ t ∧ (phase v).Wants waits := by
      by_cases hcond : cond s.shared
      · obtain ⟨v, hv⟩ := h.attended hcond u op' hbefore
        refine ⟨v, ?_, (notify_awake hnotify hv.isAsleep).symm ▸ hv⟩
        rintro rfl
        obtain ⟨op₁, expired₁, hop₁, hv | hv⟩ := hv
        · rw [hin] at hv
          cases hv
        · rw [hin] at hv
          cases hv
          exact hop hop₁
      · obtain ⟨v, op₁, hv, hv'⟩ :=
          exists_woken hnotify (S.announces op s.shared hcond hc) hnow
        refine ⟨v, ?_, op₁, false, h.waiting v op₁ hv, .inl hv'⟩
        rintro rfl
        rw [hin] at hv
        cases hv
    obtain ⟨v, hne, hv⟩ := hother
    refine ⟨v, ?_⟩
    rw [goto_phase_of_ne _ t _ hne]
    exact hv

theorem Step.alert (S : Signals M waits cond final) (hstep : Step M s e s' out)
    (h : Alert waits cond final s) : Alert waits cond final s' := by
  cases hstep with
  | call t op hout =>
      refine h.goto s.owner rfl ?_
      rw [hout]
      rintro ⟨op', expired, -, hp | hp⟩ <;> cases hp
  | acquire t op expired hfree henter =>
      refine h.goto (some t) rfl ?_
      rw [henter]
      rintro ⟨op', expired', hop', hp | hp⟩
      · cases hp
        exact ⟨op, expired, hop', .inr rfl⟩
      · cases hp
  | runs t chosen op expired phase hin hgo hnotify => exact h.runs S hin hnotify
  | sleeps t op hin hnot =>
      have hop : waits op := by
        by_contra hop
        rw [S.always op s.shared hop] at hnot
        cases hnot
      have hcond : ¬ cond s.shared := by
        intro hc
        rw [(S.ready op s.shared hop).mpr hc] at hnot
        cases hnot
      refine ⟨?_, fun hf => absurd (S.final_cond _ hf) hcond, fun hc => absurd hc hcond⟩
      intro u op' hu
      by_cases heq : u = t
      · subst heq
        rw [show ({ s.goto u (.asleep op) with owner := none } : Threads τ σ ο ρ).phase u =
          .asleep op from goto_phase_self s u _] at hu
        cases hu
        exact hop
      · refine h.waiting u op' ?_
        rw [← hu]
        exact (goto_phase_of_ne s t _ heq).symm
  | release t op result hleave =>
      refine h.goto none rfl ?_
      rw [hleave]
      rintro ⟨op', expired, -, hp | hp⟩ <;> cases hp
  | stirs t expired op hasleep =>
      refine h.goto s.owner rfl ?_
      rw [hasleep]
      rintro ⟨op', expired', -, hp | hp⟩ <;> cases hp

theorem Signals.alert_run (S : Signals M waits cond final)
    (hrun : (machine τ M).exec (.start (.start s₀)) es = some c) :
    Alert waits cond final c.state := by
  refine exec_invariant (I := fun c => Alert waits cond final c.state) ?_ ?_ hrun
  · intro c e c' h hnext
    obtain ⟨out, hstep, -⟩ := next_cases hnext
    exact hstep.alert S h
  · exact ⟨nofun, nofun, nofun⟩

/-! ## Coming to rest -/

/-- Each thread is outside, or waits for a condition that does not hold. -/
def Settled (M : Monitor σ ο ρ) (s : Threads τ σ ο ρ) : Prop :=
  ∀ t, s.phase t = .outside ∨ ∃ op, s.phase t = .asleep op ∧ M.ready op s.shared = false

/-- Where the mutex, the scheduler and the condition variable can do nothing, nobody is in
    the middle of an operation or waits for what is there. -/
theorem Signals.settled (S : Signals M waits cond final)
    (hrun : (machine τ M).exec (.start (.start s₀)) es = some c)
    (hstuck : ∀ e : Event τ ο, e.isInternal = true → M.step c.state e = none) :
    Settled M c.state := by
  have hexcl := exclusive_run hrun
  have halert := S.alert_run hrun
  -- the owner of the mutex could go on
  have hfree : c.state.owner = none := by
    cases howner : c.state.owner with
    | none => rfl
    | some t =>
        have hholds := (hexcl t).mp howner
        cases hphase : c.state.phase t with
        | outside | entering | asleep =>
            rw [hphase] at hholds
            cases hholds
        | leaving op result =>
            have hno := hstuck (.release t) rfl
            simp [step, hphase] at hno
        | inside op expired =>
            cases hgo : M.ready op c.state.shared || expired with
            | false =>
                have hno := hstuck (.sleeps t) rfl
                simp [step, hphase, hgo] at hno
            | true =>
                obtain ⟨chosen, phase, hnotify⟩ :=
                  exists_notify c.state.phase (M.wakes op c.state.shared)
                have hno := hstuck (.runs t chosen) rfl
                simp [step, hphase, hgo, hnotify] at hno
  -- and whoever wants the mutex could take it
  have hplace : ∀ t, c.state.phase t = .outside ∨ ∃ op, c.state.phase t = .asleep op := by
    intro t
    cases hphase : c.state.phase t with
    | outside => exact .inl rfl
    | asleep op => exact .inr ⟨op, rfl⟩
    | entering op expired =>
        have hno := hstuck (.acquire t) rfl
        simp [step, hphase, hfree] at hno
    | inside | leaving =>
        have howner := (hexcl t).mpr (by rw [hphase]; rfl)
        rw [hfree] at howner
        cases howner
  intro t
  rcases hplace t with hout | ⟨op, hasleep⟩
  · exact .inl hout
  · refine .inr ⟨op, hasleep, ?_⟩
    by_contra hready
    have hcond := (S.ready op _ (halert.waiting t op hasleep)).mp
      (Bool.eq_true_of_not_eq_false hready)
    obtain ⟨u, op', expired, -, hu⟩ := halert.attended hcond t op hasleep
    rcases hplace u with hout | ⟨op₁, hsleeps⟩
    · rw [hout] at hu
      rcases hu with hu | hu <;> cases hu
    · rw [hsleeps] at hu
      rcases hu with hu | hu <;> cases hu

section Load

variable [DecidablePred waits]

/-- How much a thread may still do: an operation that does not wait can wake `n` others. -/
def weight (waits : ο → Prop) [DecidablePred waits] (n : Nat) : Phase ο ρ → Nat
  | .outside | .asleep _ => 0
  | .leaving _ _ => 1
  | .inside op _ => 2 + if waits op then 0 else 3 * n
  | .entering op _ => 3 + if waits op then 0 else 3 * n

def load (waits : ο → Prop) [DecidablePred waits] (s : Threads τ σ ο ρ) : Nat :=
  ∑ t, weight waits (Fintype.card τ) (s.phase t)

theorem load_goto (waits : ο → Prop) [DecidablePred waits] (s : Threads τ σ ο ρ) (t : τ)
    (p : Phase ο ρ) :
    load waits (s.goto t p) + weight waits (Fintype.card τ) (s.phase t) =
      load waits s + weight waits (Fintype.card τ) p := by
  have hothers : ∑ u ∈ Finset.univ.erase t, weight waits (Fintype.card τ) ((s.goto t p).phase u) =
      ∑ u ∈ Finset.univ.erase t, weight waits (Fintype.card τ) (s.phase u) := by
    refine Finset.sum_congr rfl fun u hu => ?_
    rw [goto_phase_of_ne s t p (Finset.ne_of_mem_erase hu)]
  have hnew := Finset.add_sum_erase Finset.univ
    (fun u => weight waits (Fintype.card τ) ((s.goto t p).phase u)) (Finset.mem_univ t)
  have hold := Finset.add_sum_erase Finset.univ
    (fun u => weight waits (Fintype.card τ) (s.phase u)) (Finset.mem_univ t)
  simp only [goto_phase_self] at hnew
  rw [load, load]
  omega

theorem weight_le (n : Nat) (p : Phase ο ρ) : weight waits n p ≤ 3 * n + 3 := by
  cases p with
  | outside | asleep => exact Nat.zero_le _
  | leaving =>
      show 1 ≤ _
      omega
  | inside op expired =>
      simp only [weight]
      split <;> omega
  | entering op expired =>
      simp only [weight]
      split <;> omega

omit [DecidableEq τ] in
theorem load_le (s : Threads τ σ ο ρ) :
    load waits s ≤ Fintype.card τ * (3 * Fintype.card τ + 3) := by
  have hle : load waits s ≤ ∑ _t : τ, (3 * Fintype.card τ + 3) :=
    Finset.sum_le_sum fun t _ => weight_le _ _
  simpa using hle

/-- A notified thread that waits for the condition has at most three steps to make. -/
theorem weight_woken {p : Phase ο ρ} (n : Nat) (hp : ∀ op, p = .asleep op → waits op) :
    weight waits n p.woken ≤ weight waits n p + 3 := by
  cases p with
  | asleep op => simp [Phase.woken, weight, hp op rfl]
  | outside | entering | inside | leaving => exact Nat.le_add_right _ _

theorem load_notify {s : Threads τ σ ο ρ} (h : Alert waits cond final s) {w : Wake}
    {chosen : Option τ} {phase : τ → Phase ο ρ} (hnotify : notify s.phase w chosen = some phase) :
    ∑ t, weight waits (Fintype.card τ) (phase t) ≤ load waits s + 3 * Fintype.card τ := by
  have hle : ∑ t, weight waits (Fintype.card τ) (phase t) ≤
      ∑ t, (weight waits (Fintype.card τ) (s.phase t) + 3) := by
    refine Finset.sum_le_sum fun t _ => ?_
    rcases notify_phase hnotify t with heq | heq
    · rw [heq]
      exact Nat.le_add_right _ _
    · rw [heq]
      exact weight_woken _ (h.waiting t)
  rw [Finset.sum_add_distrib] at hle
  simpa [load, Nat.mul_comm] using hle

theorem Step.load_lt (S : Signals M waits cond final) (h : Alert waits cond final s)
    (hstep : Step M s e s' out) (hint : e.isInternal = true) : load waits s' < load waits s := by
  cases hstep with
  | call | stirs => cases hint
  | acquire t op expired hfree henter =>
      have hload := load_goto waits s t (.inside op expired)
      rw [henter] at hload
      simp only [weight] at hload
      show load waits (s.goto t (.inside op expired)) < _
      omega
  | runs t chosen op expired phase hin hgo hnotify =>
      have hload := load_goto waits
        { s with shared := (M.run op s.shared).1, phase := phase } t
        (.leaving op (M.run op s.shared).2)
      have ht : phase t = .inside op expired := by
        rw [notify_awake hnotify (by rw [hin]; rfl), hin]
      by_cases hop : waits op
      · -- it notifies nobody
        rw [S.quiet op s.shared hop] at hnotify
        have hphase : phase = s.phase := by
          cases chosen with
          | none =>
              cases hnotify
              rfl
          | some u => cases hnotify
        simp only [ht, weight, if_pos hop] at hload
        rw [show load waits ({ s with shared := (M.run op s.shared).1, phase := phase } :
          Threads τ σ ο ρ) = load waits s by rw [load, load, hphase]] at hload
        omega
      · have hnotified := load_notify h hnotify
        simp only [ht, weight, if_neg hop] at hload
        rw [show load waits ({ s with shared := (M.run op s.shared).1, phase := phase } :
          Threads τ σ ο ρ) = ∑ t, weight waits (Fintype.card τ) (phase t) from rfl] at hload
        omega
  | sleeps t op hin hnot =>
      have hload := load_goto waits s t (.asleep op)
      rw [hin] at hload
      simp only [weight] at hload
      show load waits (s.goto t (.asleep op)) < _
      omega
  | release t op result hleave =>
      have hload := load_goto waits s t .outside
      rw [hleave] at hload
      simp only [weight] at hload
      show load waits (s.goto t .outside) < _
      omega

/-- Without new calls and without threads that stop waiting, rest is reached after a
    bounded number of steps. -/
theorem Signals.settles (S : Signals M waits cond final)
    (hrun : (machine τ M).exec (.start (.start s₀)) es = some c) {fs : List (Event τ ο)}
    (hint : ∀ e ∈ fs, e.isInternal = true) (hmore : (machine τ M).exec c fs = some c') :
    fs.length ≤ Fintype.card τ * (3 * Fintype.card τ + 3) := by
  have hlen : fs.length + load waits c'.state ≤ load waits c.state := by
    refine exec_length_le (I := fun c => Alert waits cond final c.state)
      (μ := fun c => load waits c.state) ?_ (S.alert_run hrun) hmore
    intro e he c c' h hnext
    obtain ⟨out, hstep, -⟩ := next_cases hnext
    exact ⟨hstep.alert S h, hstep.load_lt S h (hint e he)⟩
  have hle : load waits c.state ≤ _ := load_le c.state
  omega

end Load

end Machine

end Monitor
