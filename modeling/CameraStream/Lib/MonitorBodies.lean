/-
  CameraStream.Lib.MonitorBodies

  The operations of a monitor, statement by statement.

  CameraStream.Lib.Monitor runs the critical section of an operation at once.  Here a
  thread that has taken the mutex goes through the body of its operation one statement
  after the other.  A statement does not ask who has the mutex, so that taking it is all
  that keeps the statements of two threads apart.

  An outline of the bodies says what holds at each of their places, of the data as they
  were when the section began and as they are now.  With an outline for a monitor the
  statements of a section may be run at once, when it comes to its last one:

    * `Body.Move`                    — what a statement or another step does;
    * `Outline.simulation`           — a run of the statements is a run of the monitor,
                                       with the same calls, results and returns;
    * `Outline.linearizable_run`     — so the callers see operations that happen at one
                                       instant each;
    * `Outline.exclusive_statements` — at most one thread is between taking the mutex and
                                       giving it back;
    * `Outline.settled_of_free`      — and while nobody is, the data show whole operations.
-/

import CameraStream.Lib.Monitor

namespace Monitor

open EventMachine

variable {τ σ ο ρ π : Type*}

/-! ## Bodies -/

/-- What a statement does. -/
inductive Action (σ ρ π : Type*) where
  /-- It changes the data and goes on at a place. -/
  | goto (p : π) (now : σ)
  /-- It waits on the condition variable, and then the operation starts anew. -/
  | wait
  /-- It is the last one: it notifies, and the operation has this result. -/
  | finish (result : ρ) (wake : Wake)

/-- The bodies of the operations `ο`.  A place in `π` comes with the local variables. -/
structure Body (σ ο ρ π : Type*) where
  /-- The place with which an operation starts when it has the mutex; the flag tells
      whether its time is up. -/
  start : ο → Bool → π
  statement : π → σ → Action σ ρ π

/-- The threads, and where each of them is in the body of its operation. -/
structure Working (τ σ ο ρ π : Type*) where
  threads : Threads τ σ ο ρ
  place : τ → Option π

def Working.start (s₀ : σ) : Working τ σ ο ρ π := ⟨.start s₀, fun _ => none⟩

namespace Body

/-- The statements of the bodies but the last, and the events of the threads. -/
inductive Event (τ ο : Type*) where
  | executes (t : τ)
  | thread (e : Monitor.Event τ ο)

variable [DecidableEq τ] [Fintype τ]

/-- One event of a thread; `runs` is the last statement of its body. -/
def threadStep (B : Body σ ο ρ π) (w : Working τ σ ο ρ π) :
    Monitor.Event τ ο → Option (Working τ σ ο ρ π × List (Output τ ο ρ))
  | .call t op =>
      match w.threads.phase t with
      | .outside => some (⟨w.threads.goto t (.entering op false), w.place⟩, [⟨t, .called op⟩])
      | _ => none
  | .acquire t =>
      match w.threads.owner, w.threads.phase t with
      | none, .entering op expired =>
          some (⟨{ w.threads.goto t (.inside op expired) with owner := some t },
            Function.update w.place t (some (B.start op expired))⟩, [])
      | _, _ => none
  | .runs t chosen =>
      match w.threads.phase t, w.place t with
      | .inside op _, some p =>
          match B.statement p w.threads.shared with
          | .finish result wake =>
              (notify w.threads.phase wake chosen).map fun phase =>
                (⟨({ w.threads with phase := phase }).goto t (.leaving op result), w.place⟩,
                  [⟨t, .ran op result⟩])
          | _ => none
      | _, _ => none
  | .sleeps t =>
      match w.threads.phase t, w.place t with
      | .inside op _, some p =>
          match B.statement p w.threads.shared with
          | .wait => some (⟨{ w.threads.goto t (.asleep op) with owner := none }, w.place⟩, [])
          | _ => none
      | _, _ => none
  | .release t =>
      match w.threads.phase t with
      | .leaving op result =>
          some (⟨{ w.threads.goto t .outside with owner := none }, w.place⟩,
            [⟨t, .returned op result⟩])
      | _ => none
  | .stirs t expired =>
      match w.threads.phase t with
      | .asleep op => some (⟨w.threads.goto t (.entering op expired), w.place⟩, [])
      | _ => none

def step (B : Body σ ο ρ π) (w : Working τ σ ο ρ π) :
    Event τ ο → Option (Working τ σ ο ρ π × List (Output τ ο ρ))
  | .executes t =>
      match w.threads.phase t, w.place t with
      | .inside _ _, some p =>
          match B.statement p w.threads.shared with
          | .goto p' now =>
              some (⟨{ w.threads with shared := now }, Function.update w.place t (some p')⟩, [])
          | _ => none
      | _, _ => none
  | .thread e => B.threadStep w e

def machine (τ : Type*) [DecidableEq τ] [Fintype τ] (B : Body σ ο ρ π) :
    EventMachine (Working τ σ ο ρ π) (Event τ ο) (Output τ ο ρ) := ⟨B.step⟩

/-- One constructor for each way in which a thread gets on. -/
inductive Move (B : Body σ ο ρ π) (w : Working τ σ ο ρ π) :
    Event τ ο → Working τ σ ο ρ π → List (Output τ ο ρ) → Prop where
  | executes (t : τ) (op : ο) (expired : Bool) (p p' : π) (now : σ)
      (hin : w.threads.phase t = .inside op expired) (hplace : w.place t = some p)
      (hstatement : B.statement p w.threads.shared = .goto p' now) :
      Move B w (.executes t)
        ⟨{ w.threads with shared := now }, Function.update w.place t (some p')⟩ []
  | call (t : τ) (op : ο) (hout : w.threads.phase t = .outside) :
      Move B w (.thread (.call t op)) ⟨w.threads.goto t (.entering op false), w.place⟩
        [⟨t, .called op⟩]
  | acquire (t : τ) (op : ο) (expired : Bool) (hfree : w.threads.owner = none)
      (henter : w.threads.phase t = .entering op expired) :
      Move B w (.thread (.acquire t))
        ⟨{ w.threads.goto t (.inside op expired) with owner := some t },
          Function.update w.place t (some (B.start op expired))⟩ []
  | finishes (t : τ) (chosen : Option τ) (op : ο) (expired : Bool) (p : π) (result : ρ)
      (wake : Wake) (phase : τ → Phase ο ρ) (hin : w.threads.phase t = .inside op expired)
      (hplace : w.place t = some p)
      (hstatement : B.statement p w.threads.shared = .finish result wake)
      (hnotify : notify w.threads.phase wake chosen = some phase) :
      Move B w (.thread (.runs t chosen))
        ⟨({ w.threads with phase := phase }).goto t (.leaving op result), w.place⟩
        [⟨t, .ran op result⟩]
  | sleeps (t : τ) (op : ο) (expired : Bool) (p : π)
      (hin : w.threads.phase t = .inside op expired) (hplace : w.place t = some p)
      (hstatement : B.statement p w.threads.shared = .wait) :
      Move B w (.thread (.sleeps t))
        ⟨{ w.threads.goto t (.asleep op) with owner := none }, w.place⟩ []
  | release (t : τ) (op : ο) (result : ρ) (hleave : w.threads.phase t = .leaving op result) :
      Move B w (.thread (.release t))
        ⟨{ w.threads.goto t .outside with owner := none }, w.place⟩ [⟨t, .returned op result⟩]
  | stirs (t : τ) (expired : Bool) (op : ο) (hasleep : w.threads.phase t = .asleep op) :
      Move B w (.thread (.stirs t expired))
        ⟨w.threads.goto t (.entering op expired), w.place⟩ []

variable {B : Body σ ο ρ π} {w w' : Working τ σ ο ρ π} {e : Event τ ο}
  {out : List (Output τ ο ρ)}

theorem threadStep_cases {e : Monitor.Event τ ο} (h : B.threadStep w e = some (w', out)) :
    Move B w (.thread e) w' out := by
  cases e with
  | call t op =>
      simp only [threadStep] at h
      split at h
      · next hout =>
          cases h
          exact .call t op hout
      · cases h
  | acquire t =>
      simp only [threadStep] at h
      split at h
      · next op expired hfree henter =>
          cases h
          exact .acquire t op expired hfree henter
      · cases h
  | runs t chosen =>
      simp only [threadStep] at h
      split at h
      · next op expired p hin hplace =>
          split at h
          · next result wake hstatement =>
              obtain ⟨phase, hnotify, heq⟩ := Option.map_eq_some_iff.mp h
              cases heq
              exact .finishes t chosen op expired p result wake phase hin hplace hstatement
                hnotify
          · cases h
      · cases h
  | sleeps t =>
      simp only [threadStep] at h
      split at h
      · next op expired p hin hplace =>
          split at h
          · next hstatement =>
              cases h
              exact .sleeps t op expired p hin hplace hstatement
          · cases h
      · cases h
  | release t =>
      simp only [threadStep] at h
      split at h
      · next op result hleave =>
          cases h
          exact .release t op result hleave
      · cases h
  | stirs t expired =>
      simp only [threadStep] at h
      split at h
      · next op hasleep =>
          cases h
          exact .stirs t expired op hasleep
      · cases h

theorem step_cases (h : B.step w e = some (w', out)) : Move B w e w' out := by
  cases e with
  | thread e => exact threadStep_cases h
  | executes t =>
      simp only [step] at h
      split at h
      · next op expired p hin hplace =>
          split at h
          · next p' now hstatement =>
              cases h
              exact .executes t op expired p p' now hin hplace hstatement
          · cases h
      · cases h

end Body

/-! ## Outlines -/

/-- A proof outline of the bodies for a monitor: what holds at a place, of the data with which
    the section began and the data now. -/
structure Outline (B : Body σ ο ρ π) (M : Monitor σ ο ρ) where
  holds : ο → Bool → σ → π → σ → Prop
  start : ∀ op expired s, holds op expired s (B.start op expired) s
  goto : ∀ {op expired s p now p' now'}, holds op expired s p now →
    B.statement p now = .goto p' now' → holds op expired s p' now'
  /-- Who waits has changed nothing. -/
  wait : ∀ {op expired s p now}, holds op expired s p now → B.statement p now = .wait →
    now = s ∧ (M.ready op s || expired) = false
  /-- At the last statement everything has been done that the monitor does at once. -/
  finish : ∀ {op expired s p now result wake}, holds op expired s p now →
    B.statement p now = .finish result wake →
    (M.ready op s || expired) = true ∧ M.run op s = (now, result) ∧ M.wakes op s = wake

namespace Outline

variable {B : Body σ ο ρ π} {M : Monitor σ ο ρ} {w w' : Working τ σ ο ρ π} {base s₀ : σ}

/-- `base` are the data with which the section under way has begun. -/
structure Underway (O : Outline B M) (w : Working τ σ ο ρ π) (base : σ) : Prop where
  exclusive : Exclusive w.threads
  inside : ∀ t op expired, w.threads.phase t = .inside op expired →
    ∃ p, w.place t = some p ∧ O.holds op expired base p w.threads.shared
  elsewhere : (∀ t op expired, w.threads.phase t ≠ .inside op expired) → w.threads.shared = base

/-- The threads of the monitor, which has not run the section under way yet. -/
def behind (w : Working τ σ ο ρ π) (base : σ) : Threads τ σ ο ρ :=
  { w.threads with shared := base }

/-- While one thread has the mutex, the others are in no body. -/
theorem not_inside_of_holds {s : Threads τ σ ο ρ} (h : Exclusive s) {t u : τ}
    (ht : (s.phase t).holds = true) (hu : u ≠ t) (op : ο) (expired : Bool) :
    s.phase u ≠ .inside op expired := by
  intro hin
  have howns : s.owner = some u := (h u).mpr (by rw [hin]; rfl)
  rw [(h t).mpr ht] at howns
  exact hu (Option.some.inj howns).symm

/-- While the mutex is free, nobody is in a body. -/
theorem not_inside_of_free {s : Threads τ σ ο ρ} (h : Exclusive s) (hfree : s.owner = none)
    (u : τ) (op : ο) (expired : Bool) : s.phase u ≠ .inside op expired := by
  intro hin
  have howns : s.owner = some u := (h u).mpr (by rw [hin]; rfl)
  rw [hfree] at howns
  cases howns

/-- A thread that leaves has the mutex, and is in no body itself. -/
theorem not_inside_of_leaving {s : Threads τ σ ο ρ} (h : Exclusive s) {t : τ} {op : ο}
    {result : ρ} (ht : s.phase t = .leaving op result) (u : τ) (op' : ο) (expired : Bool) :
    s.phase u ≠ .inside op' expired := by
  by_cases hu : u = t
  · rw [hu, ht]
    exact nofun
  · exact not_inside_of_holds h (by rw [ht]; rfl) hu op' expired

theorem underway_start (O : Outline B M) : O.Underway (.start s₀ : Working τ σ ο ρ π) s₀ where
  exclusive := fun _ => iff_of_false nofun nofun
  inside := nofun
  elsewhere := fun _ => rfl

/-- Nobody is in a body. -/
theorem underway_of_nobody {O : Outline B M} (hexclusive : Exclusive w.threads)
    (hnobody : ∀ t op expired, w.threads.phase t ≠ .inside op expired) :
    O.Underway w w.threads.shared :=
  ⟨hexclusive, fun t op expired hin => absurd hin (hnobody t op expired), fun _ => rfl⟩

variable [DecidableEq τ]

/-- A thread moves between places that are in no body. -/
theorem Underway.move {O : Outline B M} (h : O.Underway w base) {t : τ} {p : Phase ο ρ}
    {owner : Option τ}
    (hexclusive : Exclusive ({ w.threads.goto t p with owner := owner } : Threads τ σ ο ρ))
    (hbefore : ∀ op expired, w.threads.phase t ≠ .inside op expired)
    (hafter : ∀ op expired, p ≠ .inside op expired) :
    O.Underway ⟨{ w.threads.goto t p with owner := owner }, w.place⟩ base := by
  refine ⟨hexclusive, ?_, ?_⟩
  · intro u op expired hu
    by_cases heq : u = t
    · subst heq
      exact absurd ((goto_phase_self w.threads u p).symm.trans hu) (hafter op expired)
    · exact h.inside u op expired ((goto_phase_of_ne w.threads t p heq).symm.trans hu)
  · intro hnobody
    refine h.elsewhere fun u op expired hu => ?_
    by_cases heq : u = t
    · subst heq
      exact hbefore op expired hu
    · exact hnobody u op expired ((goto_phase_of_ne w.threads t p heq).trans hu)

/-- One thread is in the body of its operation, and nobody else. -/
theorem underway_of_inside {O : Outline B M} {t : τ} {op : ο} {expired : Bool} {p : π}
    (hexclusive : Exclusive w.threads) (hin : w.threads.phase t = .inside op expired)
    (hplace : w.place t = some p) (hholds : O.holds op expired base p w.threads.shared) :
    O.Underway w base := by
  refine ⟨hexclusive, ?_, fun hnobody => absurd hin (hnobody t op expired)⟩
  intro u op' expired' hu
  by_cases heq : u = t
  · subst heq
    rw [hin] at hu
    cases hu
    exact ⟨p, hplace, hholds⟩
  · exact absurd hu (not_inside_of_holds hexclusive (by rw [hin]; rfl) heq op' expired')

variable [Fintype τ] {out : List (Output τ ο ρ)} {e : Body.Event τ ο}

/-- A section is run when it comes to its last statement, and no other statement does
    anything on the level of the monitor. -/
theorem Underway.step {O : Outline B M} (h : O.Underway w base) (hmove : Body.Move B w e w' out) :
    ∃ base', O.Underway w' base' ∧
      ((out = [] ∧ behind w' base' = behind w base) ∨
        ∃ e', M.step (behind w base) e' = some (behind w' base', out)) := by
  cases hmove with
  | executes t op expired p p' now hin hplace hstatement =>
      obtain ⟨p₀, hp₀, hholds⟩ := h.inside t op expired hin
      obtain rfl : p₀ = p := Option.some.inj (hp₀.symm.trans hplace)
      refine ⟨base, ?_, .inl ⟨rfl, rfl⟩⟩
      exact underway_of_inside h.exclusive hin (Function.update_self ..)
        (O.goto hholds hstatement)
  | call t op hout =>
      have hstep : M.step (behind w base) (.call t op) =
          some (behind ⟨w.threads.goto t (.entering op false), w.place⟩ base,
            [⟨t, .called op⟩]) := by
        simp only [Monitor.step, behind, hout]
        rfl
      have hexclusive := (Monitor.step_cases hstep).exclusive h.exclusive
      exact ⟨base, h.move hexclusive (by simp [hout]) (by simp), .inr ⟨_, hstep⟩⟩
  | acquire t op expired hfree henter =>
      have hstep : M.step (behind w base) (.acquire t) =
          some (behind ⟨{ w.threads.goto t (.inside op expired) with owner := some t },
            Function.update w.place t (some (B.start op expired))⟩ base, []) := by
        simp only [Monitor.step, behind, hfree, henter]
        rfl
      have hexclusive := (Monitor.step_cases hstep).exclusive h.exclusive
      -- the section begins with the data as they are
      have hnow : w.threads.shared = base := h.elsewhere (not_inside_of_free h.exclusive hfree)
      refine ⟨base, underway_of_inside hexclusive (goto_phase_self ..) (Function.update_self ..) ?_,
        .inr ⟨_, hstep⟩⟩
      rw [← hnow]
      exact O.start op expired w.threads.shared
  | finishes t chosen op expired p result wake phase hin hplace hstatement hnotify =>
      obtain ⟨p₀, hp₀, hholds⟩ := h.inside t op expired hin
      obtain rfl : p₀ = p := Option.some.inj (hp₀.symm.trans hplace)
      obtain ⟨hgo, hrun, hwakes⟩ := O.finish hholds hstatement
      have hstep : M.step (behind w base) (.runs t chosen) =
          some (behind ⟨({ w.threads with phase := phase }).goto t (.leaving op result), w.place⟩
            w.threads.shared, [⟨t, .ran op result⟩]) := by
        simp only [Monitor.step, behind, hin, hgo, hrun, hwakes, hnotify]
        rfl
      have hexclusive := (Monitor.step_cases hstep).exclusive h.exclusive
      refine ⟨w.threads.shared, underway_of_nobody hexclusive ?_, .inr ⟨_, hstep⟩⟩
      exact not_inside_of_leaving hexclusive (goto_phase_self ..)
  | sleeps t op expired p hin hplace hstatement =>
      obtain ⟨p₀, hp₀, hholds⟩ := h.inside t op expired hin
      obtain rfl : p₀ = p := Option.some.inj (hp₀.symm.trans hplace)
      obtain ⟨hnow, hnot⟩ := O.wait hholds hstatement
      have hstep : M.step (behind w base) (.sleeps t) =
          some (behind ⟨{ w.threads.goto t (.asleep op) with owner := none }, w.place⟩ base,
            []) := by
        simp only [Monitor.step, behind, hin, hnot]
        rfl
      have hexclusive := (Monitor.step_cases hstep).exclusive h.exclusive
      have hthen : O.Underway ⟨{ w.threads.goto t (.asleep op) with owner := none }, w.place⟩
          w.threads.shared := underway_of_nobody hexclusive (not_inside_of_free hexclusive rfl)
      exact ⟨base, hnow ▸ hthen, .inr ⟨_, hstep⟩⟩
  | release t op result hleave =>
      have hstep : M.step (behind w base) (.release t) =
          some (behind ⟨{ w.threads.goto t .outside with owner := none }, w.place⟩ base,
            [⟨t, .returned op result⟩]) := by
        simp only [Monitor.step, behind, hleave]
        rfl
      have hexclusive := (Monitor.step_cases hstep).exclusive h.exclusive
      exact ⟨base, h.move hexclusive (by simp [hleave]) (by simp), .inr ⟨_, hstep⟩⟩
  | stirs t expired op hasleep =>
      have hstep : M.step (behind w base) (.stirs t expired) =
          some (behind ⟨w.threads.goto t (.entering op expired), w.place⟩ base, []) := by
        simp only [Monitor.step, behind, hasleep]
        rfl
      have hexclusive := (Monitor.step_cases hstep).exclusive h.exclusive
      exact ⟨base, h.move hexclusive (by simp [hasleep]) (by simp), .inr ⟨_, hstep⟩⟩

/-- A run of the statements is a run of the monitor. -/
def simulation (O : Outline B M) : Simulation (B.machine τ) (Monitor.machine τ M) where
  rel c d := ∃ base, O.Underway c.state base ∧ d = ⟨behind c.state base, c.history⟩
  sim := by
    rintro c e c' d ⟨base, hunderway, rfl⟩ hnext
    obtain ⟨out, hstep, hhist⟩ := next_eq_some hnext
    obtain ⟨base', hunderway', ⟨rfl, hsame⟩ | ⟨e', hstep'⟩⟩ :=
      hunderway.step (M := M) (Body.step_cases hstep)
    · exact ⟨[], _, rfl, base', hunderway', by rw [hsame, hhist, List.append_nil]⟩
    · refine ⟨[e'], ⟨behind c'.state base', c'.history⟩, ?_, base', hunderway', rfl⟩
      rw [exec_cons, next_of_step hstep', hhist]
      rfl

/-! ## Runs -/

variable {c : EventMachine.Config (Working τ σ ο ρ π) (Output τ ο ρ)}
  {es : List (Body.Event τ ο)}

theorem sections_run (O : Outline B M)
    (hrun : (B.machine τ).exec (.start (.start s₀)) es = some c) :
    ∃ fs base, (Monitor.machine τ M).exec (.start (.start s₀)) fs =
      some ⟨behind c.state base, c.history⟩ ∧ O.Underway c.state base := by
  have hrel : O.simulation.rel (.start (.start s₀)) (.start (.start s₀) :
      EventMachine.Config (Threads τ σ ο ρ) (Output τ ο ρ)) := ⟨s₀, O.underway_start, rfl⟩
  obtain ⟨fs, d, hfs, base, hunderway, rfl⟩ := O.simulation.exec hrel hrun
  exact ⟨fs, base, hfs, hunderway⟩

theorem linearizable_run (O : Outline B M)
    (hrun : (B.machine τ).exec (.start (.start s₀)) es = some c) :
    Linearizable M s₀ (visible c.history) := by
  obtain ⟨fs, base, hfs, -⟩ := O.sections_run hrun
  exact Monitor.linearizable_run hfs

theorem exclusive_statements (O : Outline B M)
    (hrun : (B.machine τ).exec (.start (.start s₀)) es = some c) (t u : τ)
    (ht : (c.state.threads.phase t).holds = true) (hu : (c.state.threads.phase u).holds = true) :
    t = u := by
  obtain ⟨fs, base, -, hunderway⟩ := O.sections_run hrun
  have hboth : some t = some u :=
    ((hunderway.exclusive t).mpr ht).symm.trans ((hunderway.exclusive u).mpr hu)
  exact Option.some.inj hboth

/-- Whenever the mutex is free, the data are those that the operations so far come to. -/
theorem settled_of_free (O : Outline B M)
    (hrun : (B.machine τ).exec (.start (.start s₀)) es = some c)
    (hfree : c.state.threads.owner = none) :
    ∃ ops, (sequential τ M).exec (.start s₀) ops =
      some ⟨c.state.threads.shared, performed c.history⟩ := by
  obtain ⟨fs, base, hfs, hunderway⟩ := O.sections_run hrun
  rw [hunderway.elsewhere (not_inside_of_free hunderway.exclusive hfree)]
  exact linearized hfs

end Outline

end Monitor
