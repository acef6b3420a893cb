/-
  CameraStream.Lib.EventMachine

  Event-driven machines with observable outputs, and the rules for reasoning
  about their runs.

  A machine answers an event either by refusing it (`none`: the event cannot
  happen in this state) or by a new state together with the outputs the step
  emits.  A configuration pairs the state with everything emitted so far, so
  that a property of a run may speak about its history.

  Rules:

    * `exec_invariant`   — what one step preserves, a run preserves;
    * `exec_past`        — what one step preserves, of a configuration and the events that
                           led to it;
    * `exec_length_le`   — a measure that every event lowers bounds a run;
    * `exec_countP_le_add`, `exec_countP_le` — a measure that few events raise, or none,
                           bounds the number of those that lower it;
    * `exec_rel`         — a preorder that every step respects relates the two
                           ends of a run;
    * `throughout_iff_guarded` — if a step keeps `P` exactly when the guard `G`
                           holds before it, a run stays in `P` exactly when all
                           its steps are guarded;
    * `Simulation.exec`  — a forward simulation carries whole runs;
    * `whenever_append`  — what holds of every output when it is emitted, output by
                           output;
    * `exec_whenever`    — what every step makes hold of the outputs it emits, holds
                           of every output of a run;
    * `sinceLast_concat` — the outputs since the last mark, output by output;
    * `exec_observe`     — watching a machine does not change its runs;
    * `exec_of_observe`  — and what relates the outputs of every step to what is seen of
                           it, relates the outputs of a run to what is seen of the run.
-/

import Mathlib.Data.List.Basic
import Mathlib.Data.List.Infix

/-- An event-driven machine over states `σ`, events `ε` and outputs `ω`. -/
structure EventMachine (σ ε ω : Type*) where
  step : σ → ε → Option (σ × List ω)

namespace EventMachine

variable {σ ε ω : Type*}

/-- The current state and everything emitted so far, oldest first. -/
structure Config (σ ω : Type*) where
  state : σ
  history : List ω

/-- A configuration that has emitted nothing. -/
def Config.start (s : σ) : Config σ ω := ⟨s, []⟩

@[simp] theorem Config.start_state (s : σ) : (Config.start s : Config σ ω).state = s := rfl

@[simp] theorem Config.start_history (s : σ) :
    (Config.start s : Config σ ω).history = [] := rfl

/-- One step of a configuration. -/
def next (M : EventMachine σ ε ω) (c : Config σ ω) (e : ε) : Option (Config σ ω) :=
  (M.step c.state e).map fun r => ⟨r.1, c.history ++ r.2⟩

/-- A run: the events in order, refused as soon as one of them is. -/
def exec (M : EventMachine σ ε ω) : Config σ ω → List ε → Option (Config σ ω)
  | c, [] => some c
  | c, e :: es => (M.next c e).bind fun c' => M.exec c' es

variable {M : EventMachine σ ε ω} {c c' : Config σ ω} {e : ε} {es : List ε}

/-! ## Steps and runs -/

theorem next_eq_some (h : M.next c e = some c') :
    ∃ out, M.step c.state e = some (c'.state, out) ∧ c'.history = c.history ++ out := by
  obtain ⟨⟨s', out⟩, hstep, rfl⟩ := Option.map_eq_some_iff.mp h
  exact ⟨out, hstep, rfl⟩

theorem next_of_step {s' : σ} {out : List ω} (h : M.step c.state e = some (s', out)) :
    M.next c e = some ⟨s', c.history ++ out⟩ := by
  simp [next, h]

@[simp] theorem exec_nil : M.exec c [] = some c := rfl

theorem exec_cons :
    M.exec c (e :: es) = (M.next c e).bind fun c' => M.exec c' es := rfl

theorem exec_cons_eq_some (h : M.exec c (e :: es) = some c') :
    ∃ mid, M.next c e = some mid ∧ M.exec mid es = some c' := by
  rw [exec_cons] at h
  exact Option.bind_eq_some_iff.mp h

theorem exec_append (fs : List ε) :
    M.exec c (es ++ fs) = (M.exec c es).bind fun c' => M.exec c' fs := by
  induction es generalizing c with
  | nil => rfl
  | cons e es ih =>
      simp only [List.cons_append, exec_cons, Option.bind_assoc]
      congr 1
      funext mid
      exact ih

/-- What every event of a run preserves, the run preserves. -/
theorem exec_invariant_mem {I : Config σ ω → Prop}
    (hstep : ∀ e ∈ es, ∀ c c', I c → M.next c e = some c' → I c')
    (hinit : I c) (hrun : M.exec c es = some c') : I c' := by
  induction es generalizing c with
  | nil =>
      simp only [exec_nil, Option.some.injEq] at hrun
      exact hrun ▸ hinit
  | cons e es ih =>
      -- the invariant is carried to the configuration after the first event
      obtain ⟨mid, hnext, hrest⟩ := exec_cons_eq_some hrun
      exact ih (fun a ha => hstep a (List.mem_cons_of_mem e ha))
        (hstep e List.mem_cons_self c mid hinit hnext) hrest

/-- What every step preserves, a run preserves. -/
theorem exec_invariant {I : Config σ ω → Prop}
    (hstep : ∀ c e c', I c → M.next c e = some c' → I c')
    (hinit : I c) (hrun : M.exec c es = some c') : I c' :=
  exec_invariant_mem (fun e _ c c' => hstep c e c') hinit hrun

/-- A preorder that every step (from an invariant state) respects relates the
    two ends of a run. -/
theorem exec_rel {I : Config σ ω → Prop} {R : Config σ ω → Config σ ω → Prop}
    (hrefl : ∀ c, R c c) (htrans : ∀ a b d, R a b → R b d → R a d)
    (hinv : ∀ c e c', I c → M.next c e = some c' → I c')
    (hstep : ∀ c e c', I c → M.next c e = some c' → R c c')
    (hinit : I c) (hrun : M.exec c es = some c') : R c c' := by
  induction es generalizing c with
  | nil =>
      simp only [exec_nil, Option.some.injEq] at hrun
      exact hrun ▸ hrefl c
  | cons e es ih =>
      obtain ⟨mid, hnext, hrest⟩ := exec_cons_eq_some hrun
      exact htrans _ _ _ (hstep c e mid hinit hnext) (ih (hinv c e mid hinit hnext) hrest)

/-- A machine that follows a function on what it is told. -/
theorem exec_foldl {τ : Type*} {R : Config σ ω → τ → Prop} {f : τ → ε → τ} {a : τ}
    (hstep : ∀ e ∈ es, ∀ c c' a, R c a → M.next c e = some c' → R c' (f a e))
    (hR : R c a) (hrun : M.exec c es = some c') : R c' (es.foldl f a) := by
  induction es generalizing c a with
  | nil =>
      cases hrun
      exact hR
  | cons e es ih =>
      obtain ⟨mid, hnext, hrest⟩ := exec_cons_eq_some hrun
      exact ih (fun e' he' => hstep e' (List.mem_cons_of_mem e he'))
        (hstep e List.mem_cons_self c mid a hR hnext) hrest

/-- What every step preserves of a configuration together with the events before it. -/
theorem exec_past {R : Config σ ω → List ε → Prop}
    (hstep : ∀ e c c' past, R c past → M.next c e = some c' → R c' (past ++ [e]))
    (hR : R c []) (hrun : M.exec c es = some c') : R c' es := by
  have hfold := exec_foldl (f := fun past e => past ++ [e])
    (fun e _ c c' past => hstep e c c' past) hR hrun
  have hpast : ∀ fs past : List ε, fs.foldl (fun past e => past ++ [e]) past = past ++ fs := by
    intro fs
    induction fs with
    | nil => exact fun past => (List.append_nil past).symm
    | cons e fs ih => exact fun past => (ih (past ++ [e])).trans (List.append_assoc past [e] fs)
  rwa [hpast] at hfold

/-- If every event of a run lowers a measure, the measure bounds the length of the run. -/
theorem exec_length_le {I : Config σ ω → Prop} {μ : Config σ ω → Nat}
    (hstep : ∀ e ∈ es, ∀ c c', I c → M.next c e = some c' → I c' ∧ μ c' < μ c)
    (hinit : I c) (hrun : M.exec c es = some c') : es.length + μ c' ≤ μ c := by
  induction es generalizing c with
  | nil =>
      simp only [exec_nil, Option.some.injEq] at hrun
      rw [hrun, List.length_nil, Nat.zero_add]
  | cons e es ih =>
      obtain ⟨mid, hnext, hrest⟩ := exec_cons_eq_some hrun
      obtain ⟨hmid, hlt⟩ := hstep e List.mem_cons_self c mid hinit hnext
      have hle := ih (fun a ha => hstep a (List.mem_cons_of_mem e ha)) hmid hrest
      rw [List.length_cons]
      omega

/-- Events that lower a measure, in a run where some other events raise it by at most `k`:
    the measure and the number of these bound the number of those. -/
theorem exec_countP_le_add {I : Config σ ω → Prop} {μ : Config σ ω → Nat} {p q : ε → Bool}
    {k : Nat}
    (hstep : ∀ e ∈ es, ∀ c c', I c → M.next c e = some c' →
      I c' ∧ μ c' + (if p e then 1 else 0) ≤ μ c + (if q e then k else 0))
    (hinit : I c) (hrun : M.exec c es = some c') :
    es.countP p + μ c' ≤ μ c + k * es.countP q := by
  induction es generalizing c with
  | nil =>
      cases hrun
      exact Nat.le_of_eq (Nat.zero_add _)
  | cons e es ih =>
      obtain ⟨mid, hnext, hrest⟩ := exec_cons_eq_some hrun
      obtain ⟨hmid, hle⟩ := hstep e List.mem_cons_self c mid hinit hnext
      have htail := ih (fun a ha => hstep a (List.mem_cons_of_mem e ha)) hmid hrest
      have hgain : k * (if q e then 1 else 0) = if q e then k else 0 := by
        split
        · exact Nat.mul_one k
        · exact Nat.mul_zero k
      rw [List.countP_cons, List.countP_cons, Nat.mul_add, hgain]
      omega

/-- The same in a run that never raises the measure. -/
theorem exec_countP_le {I : Config σ ω → Prop} {μ : Config σ ω → Nat} {p : ε → Bool}
    (hstep : ∀ e ∈ es, ∀ c c', I c → M.next c e = some c' →
      I c' ∧ μ c' + (if p e then 1 else 0) ≤ μ c)
    (hinit : I c) (hrun : M.exec c es = some c') : es.countP p + μ c' ≤ μ c := by
  have hle := exec_countP_le_add (q := fun _ => false) (k := 0) hstep hinit hrun
  rwa [Nat.zero_mul, Nat.add_zero] at hle

/-! ## Properties of a whole run -/

/-- `P` holds in every configuration the run `es` passes through. -/
def Throughout (M : EventMachine σ ε ω) (P : Config σ ω → Prop) (c : Config σ ω)
    (es : List ε) : Prop :=
  ∀ pre mid, pre <+: es → M.exec c pre = some mid → P mid

/-- Every event of the run `es` meets `G` in the configuration it happens in. -/
def Guarded (M : EventMachine σ ε ω) (G : Config σ ω → ε → Prop) (c : Config σ ω)
    (es : List ε) : Prop :=
  ∀ pre e mid, pre ++ [e] <+: es → M.exec c pre = some mid → G mid e

theorem throughout_nil {P : Config σ ω → Prop} : M.Throughout P c [] ↔ P c := by
  refine ⟨?_, ?_⟩
  · intro h
    exact h [] c List.nil_prefix rfl
  · intro h pre mid hpre hmid
    obtain rfl := List.prefix_nil.mp hpre
    simp only [exec_nil, Option.some.injEq] at hmid
    exact hmid ▸ h

theorem throughout_cons {P : Config σ ω → Prop} (hnext : M.next c e = some c') :
    M.Throughout P c (e :: es) ↔ P c ∧ M.Throughout P c' es := by
  refine ⟨?_, ?_⟩
  · intro h
    refine ⟨h [] c List.nil_prefix rfl, ?_⟩
    intro pre mid hpre hmid
    refine h (e :: pre) mid (List.cons_prefix_cons.mpr ⟨rfl, hpre⟩) ?_
    simpa [exec_cons, hnext] using hmid
  · rintro ⟨hc, h⟩ pre mid hpre hmid
    cases pre with
    | nil =>
        simp only [exec_nil, Option.some.injEq] at hmid
        exact hmid ▸ hc
    | cons a pre =>
        -- a non-empty initial part starts with the same event
        obtain ⟨hhead, htail⟩ := List.cons_prefix_cons.mp hpre
        subst hhead
        simp only [exec_cons, hnext, Option.bind_some] at hmid
        exact h pre mid htail hmid

theorem guarded_nil {G : Config σ ω → ε → Prop} : M.Guarded G c [] := by
  intro pre e mid hpre
  simp at hpre

theorem guarded_cons {G : Config σ ω → ε → Prop} (hnext : M.next c e = some c') :
    M.Guarded G c (e :: es) ↔ G c e ∧ M.Guarded G c' es := by
  refine ⟨?_, ?_⟩
  · intro h
    refine ⟨h [] e c (by simp) rfl, ?_⟩
    intro pre a mid hpre hmid
    refine h (e :: pre) a mid (List.cons_prefix_cons.mpr ⟨rfl, hpre⟩) ?_
    simpa [exec_cons, hnext] using hmid
  · rintro ⟨hc, h⟩ pre a mid hpre hmid
    cases pre with
    | nil =>
        have hhead : a = e := by simpa using hpre
        simp only [exec_nil, Option.some.injEq] at hmid
        exact hhead ▸ hmid ▸ hc
    | cons b pre =>
        obtain ⟨hhead, htail⟩ := List.cons_prefix_cons.mp hpre
        subst hhead
        simp only [exec_cons, hnext, Option.bind_some] at hmid
        exact h pre a mid htail hmid

theorem guarded_append {G : Config σ ω → ε → Prop} {fs : List ε}
    (hrun : M.exec c es = some c') :
    M.Guarded G c (es ++ fs) ↔ M.Guarded G c es ∧ M.Guarded G c' fs := by
  induction es generalizing c with
  | nil =>
      cases hrun
      exact ⟨fun h => ⟨guarded_nil, h⟩, And.right⟩
  | cons e es ih =>
      obtain ⟨mid, hnext, hrest⟩ := exec_cons_eq_some hrun
      rw [List.cons_append, guarded_cons hnext, guarded_cons hnext, ih hrest, and_assoc]

theorem guarded_of_forall {G : Config σ ω → ε → Prop} (h : ∀ e ∈ es, ∀ c, G c e) :
    M.Guarded G c es :=
  fun _ e mid hpre _ => h e (hpre.subset (List.mem_append_right _ List.mem_cons_self)) mid

/-- **Exact guards.** If, from configurations satisfying the invariant `I`, a
    step keeps `P` exactly when `G` holds before it, then a run stays in `P`
    exactly when each of its steps is guarded. -/
theorem throughout_iff_guarded {I P : Config σ ω → Prop} {G : Config σ ω → ε → Prop}
    (hinv : ∀ c e c', I c → M.next c e = some c' → I c')
    (hexact : ∀ c e c', I c → P c → M.next c e = some c' → (P c' ↔ G c e))
    (hI : I c) (hP : P c) (hrun : M.exec c es = some c') :
    M.Throughout P c es ↔ M.Guarded G c es := by
  induction es generalizing c with
  | nil => exact ⟨fun _ => guarded_nil, fun _ => throughout_nil.mpr hP⟩
  | cons e es ih =>
      obtain ⟨mid, hnext, hrest⟩ := exec_cons_eq_some hrun
      have hmid := hexact c e mid hI hP hnext
      have hImid := hinv c e mid hI hnext
      rw [throughout_cons hnext, guarded_cons hnext]
      refine ⟨?_, ?_⟩
      · -- `P` holds right after the event, so the event was guarded
        rintro ⟨-, h⟩
        have hPmid : P mid := h [] mid List.nil_prefix rfl
        exact ⟨hmid.mp hPmid, (ih hImid hPmid hrest).mp h⟩
      · rintro ⟨hG, h⟩
        exact ⟨hP, (ih hImid (hmid.mpr hG) hrest).mpr h⟩

/-- Two guards that agree on every step from an invariant state agree on runs. -/
theorem guarded_congr {I : Config σ ω → Prop} {G G' : Config σ ω → ε → Prop}
    (hinv : ∀ c e c', I c → M.next c e = some c' → I c')
    (hiff : ∀ c e c', I c → M.next c e = some c' → (G c e ↔ G' c e))
    (hI : I c) (hrun : M.exec c es = some c') :
    M.Guarded G c es ↔ M.Guarded G' c es := by
  induction es generalizing c with
  | nil => exact ⟨fun _ => guarded_nil, fun _ => guarded_nil⟩
  | cons e es ih =>
      obtain ⟨mid, hnext, hrest⟩ := exec_cons_eq_some hrun
      rw [guarded_cons hnext, guarded_cons hnext, hiff c e mid hI hnext,
        ih (hinv c e mid hI hnext) hrest]

/-- What guarded steps preserve holds throughout a guarded run. -/
theorem throughout_of_guarded {I : Config σ ω → Prop} {G : Config σ ω → ε → Prop}
    (hstep : ∀ e ∈ es, ∀ c c', I c → G c e → M.next c e = some c' → I c')
    (hI : I c) (hG : M.Guarded G c es) : M.Throughout I c es := by
  intro pre mid hpre hmid
  induction pre using List.reverseRecOn generalizing mid with
  | nil =>
      simp only [exec_nil, Option.some.injEq] at hmid
      exact hmid ▸ hI
  | append_singleton pre e ih =>
      -- the configuration before the last event of this initial part
      rw [exec_append, Option.bind_eq_some_iff] at hmid
      obtain ⟨before, hbefore, hlast⟩ := hmid
      obtain ⟨mid', hnext, hend⟩ := exec_cons_eq_some hlast
      simp only [exec_nil, Option.some.injEq] at hend
      subst hend
      have hmem : e ∈ es := hpre.subset (by simp)
      exact hstep e hmem before mid' (ih before ((List.prefix_append pre [e]).trans hpre) hbefore)
        (hG pre e before hpre hbefore) hnext

/-- From an invariant configuration on, a run only emits what its steps emit. -/
theorem exec_emits {I : Config σ ω → Prop} {Q : ω → Prop}
    (hinv : ∀ c e c', I c → M.next c e = some c' → I c')
    (hemit : ∀ c e c', I c → M.next c e = some c' →
      ∃ out, c'.history = c.history ++ out ∧ ∀ o ∈ out, Q o)
    (hI : I c) (hrun : M.exec c es = some c') :
    ∃ later, c'.history = c.history ++ later ∧ ∀ o ∈ later, Q o := by
  induction es generalizing c with
  | nil =>
      simp only [exec_nil, Option.some.injEq] at hrun
      exact ⟨[], by rw [hrun, List.append_nil], nofun⟩
  | cons e es ih =>
      obtain ⟨mid, hnext, hrest⟩ := exec_cons_eq_some hrun
      obtain ⟨out, hhist, hout⟩ := hemit c e mid hI hnext
      obtain ⟨later, hlater, hQ⟩ := ih (hinv c e mid hI hnext) hrest
      refine ⟨out ++ later, by rw [hlater, hhist, List.append_assoc], ?_⟩
      intro o ho
      rcases List.mem_append.mp ho with ho | ho
      · exact hout o ho
      · exact hQ o ho

/-! ## Forward simulations -/

variable {σ' ε' ω' : Type*}

/-- A forward simulation of `M` by `N`: every step of `M` is answered by a run
    of `N` that re-establishes the relation. -/
structure Simulation (M : EventMachine σ ε ω) (N : EventMachine σ' ε' ω') where
  rel : Config σ ω → Config σ' ω' → Prop
  sim : ∀ c e c' d, rel c d → M.next c e = some c' →
    ∃ fs d', N.exec d fs = some d' ∧ rel c' d'

/-- A simulation carries whole runs. -/
theorem Simulation.exec {N : EventMachine σ' ε' ω'} (S : Simulation M N)
    {d : Config σ' ω'} (hrel : S.rel c d) (hrun : M.exec c es = some c') :
    ∃ fs d', N.exec d fs = some d' ∧ S.rel c' d' := by
  induction es generalizing c d with
  | nil =>
      simp only [exec_nil, Option.some.injEq] at hrun
      exact ⟨[], d, rfl, hrun ▸ hrel⟩
  | cons e es ih =>
      obtain ⟨mid, hnext, hrest⟩ := exec_cons_eq_some hrun
      -- the answers to the event and to the rest of the run, one after the other
      obtain ⟨fs, d₁, hfs, hrel₁⟩ := S.sim c e mid d hrel hnext
      obtain ⟨gs, d₂, hgs, hrel₂⟩ := ih hrel₁ hrest
      refine ⟨fs ++ gs, d₂, ?_, hrel₂⟩
      rw [exec_append, hfs]
      exact hgs

/-! ## Outputs at the moment they are emitted -/

/-- `P` holds of every output of a history together with the outputs before it. -/
def Whenever (P : List ω → ω → Prop) (h : List ω) : Prop :=
  ∀ h₁ o h₂, h = h₁ ++ o :: h₂ → P h₁ o

variable {P : List ω → ω → Prop} {h : List ω}

theorem whenever_nil : Whenever P [] := by
  intro h₁ o h₂ hsplit
  simp at hsplit

theorem whenever_append {out : List ω} :
    Whenever P (h ++ out) ↔ Whenever P h ∧ Whenever (fun h₁ => P (h ++ h₁)) out := by
  refine ⟨?_, ?_⟩
  · intro hall
    refine ⟨?_, ?_⟩
    · intro h₁ o h₂ hsplit
      exact hall h₁ o (h₂ ++ out) (by simp [hsplit])
    · intro h₁ o h₂ hsplit
      exact hall (h ++ h₁) o h₂ (by simp [hsplit])
  · rintro ⟨hold, hnew⟩ h₁ o h₂ hsplit
    -- the output is one of the old ones or one of the new ones
    obtain ⟨k, rfl, hout⟩ | ⟨k, hh, hrest⟩ := List.append_eq_append_iff.mp hsplit
    · exact hnew k o h₂ hout
    · cases k with
      | nil =>
          rw [List.append_nil] at hh
          subst hh
          have hfirst : out = [] ++ o :: h₂ := by simpa using hrest.symm
          simpa using hnew [] o h₂ hfirst
      | cons o' k =>
          obtain ⟨rfl, -⟩ := List.cons.inj hrest
          exact hold h₁ o k hh

theorem whenever_singleton {o : ω} : Whenever P [o] ↔ P [] o := by
  refine ⟨?_, ?_⟩
  · intro hall
    exact hall [] o [] rfl
  · intro ho h₁ o' h₂ hsplit
    obtain ⟨rfl, rfl, -⟩ : h₁ = [] ∧ o' = o ∧ h₂ = [] := by
      simpa [List.cons_eq_append_iff] using hsplit
    exact ho

theorem whenever_concat {o : ω} : Whenever P (h ++ [o]) ↔ Whenever P h ∧ P h o := by
  rw [whenever_append, whenever_singleton, List.append_nil]

/-- What holds whenever a part of the history is emitted, next to that part alone. -/
theorem whenever_of_filterMap {ω' : Type*} {f : ω → Option ω'} {Q : List ω' → ω' → Prop}
    (hall : Whenever Q (h.filterMap f)) :
    Whenever (fun h₁ o => ∀ o', f o = some o' → Q (h₁.filterMap f) o') h := by
  intro h₁ o h₂ hsplit o' ho'
  refine hall (h₁.filterMap f) o' (h₂.filterMap f) ?_
  rw [hsplit, List.filterMap_append, List.filterMap_cons_some ho']

theorem Whenever.imp {Q : List ω → ω → Prop} (hall : Whenever P h)
    (himp : ∀ h₁ o, P h₁ o → Q h₁ o) : Whenever Q h :=
  fun h₁ o h₂ hsplit => himp h₁ o (hall h₁ o h₂ hsplit)

/-- If every step, from an invariant configuration, emits outputs of which `P` holds,
    then `P` holds of every output of a run. -/
theorem exec_whenever {I : Config σ ω → Prop} {P : List ω → ω → Prop}
    (hinv : ∀ c e c', I c → M.next c e = some c' → I c')
    (hemit : ∀ c e c' out, I c → M.next c e = some c' → c'.history = c.history ++ out →
      Whenever (fun h => P (c.history ++ h)) out)
    (hinit : I c) (hold : Whenever P c.history) (hrun : M.exec c es = some c') :
    Whenever P c'.history := by
  have hboth : I c' ∧ Whenever P c'.history := by
    refine exec_invariant (I := fun c => I c ∧ Whenever P c.history) ?_ ⟨hinit, hold⟩ hrun
    rintro c e c' ⟨hI, hP⟩ hnext
    obtain ⟨out, -, hhist⟩ := next_eq_some hnext
    refine ⟨hinv c e c' hI hnext, ?_⟩
    have hnew := hemit c e c' out hI hnext hhist
    rw [hhist]
    exact whenever_append.mpr ⟨hP, hnew⟩
  exact hboth.2

/-! ## Outputs since the last mark -/

/-- The outputs after the last one that is a mark; all of them if none is. -/
def sinceLast (mark : ω → Bool) (h : List ω) : List ω :=
  (h.reverse.takeWhile fun o => !mark o).reverse

@[simp] theorem sinceLast_nil (mark : ω → Bool) : sinceLast mark [] = [] := rfl

theorem sinceLast_concat (mark : ω → Bool) (h : List ω) (o : ω) :
    sinceLast mark (h ++ [o]) = if mark o then [] else sinceLast mark h ++ [o] := by
  rw [sinceLast, List.reverse_append, List.reverse_singleton, List.singleton_append,
    List.takeWhile_cons]
  cases mark o with
  | true => rfl
  | false => exact List.reverse_cons

/-- Outputs that are no marks come after what there was since the last one. -/
theorem sinceLast_append {mark : ω → Bool} {h out : List ω} (hout : ∀ o ∈ out, mark o = false) :
    sinceLast mark (h ++ out) = sinceLast mark h ++ out := by
  have hall : ∀ o ∈ out.reverse, (!mark o) = true := by
    intro o ho
    rw [hout o (List.mem_reverse.mp ho)]
    rfl
  rw [sinceLast, List.reverse_append, List.takeWhile_append_of_pos hall, List.reverse_append,
    List.reverse_reverse]
  rfl

/-- An output has been emitted since the last mark, after outputs that are neither. -/
theorem mem_sinceLast_append {mark : ω → Bool} {h out : List ω} {x : ω}
    (hout : ∀ o ∈ out, mark o = false ∧ o ≠ x) :
    x ∈ sinceLast mark (h ++ out) ↔ x ∈ sinceLast mark h := by
  rw [sinceLast_append (fun o ho => (hout o ho).1), List.mem_append]
  exact or_iff_left fun hx => (hout x hx).2 rfl

/-! ## Observers -/

/-- The machine `M`, reporting what `obs` sees of each step instead of its outputs. -/
def observe (M : EventMachine σ ε ω) (obs : σ → ε → σ × List ω → List ω') :
    EventMachine σ ε ω' :=
  ⟨fun s e => (M.step s e).map fun r => (r.1, obs s e r)⟩

variable {obs : σ → ε → σ × List ω → List ω'}

theorem observe_next {d d' : Config σ ω'} (hnext : (M.observe obs).next d e = some d') :
    ∃ out, M.step d.state e = some (d'.state, out) ∧
      d'.history = d.history ++ obs d.state e (d'.state, out) := by
  obtain ⟨out', hstep, hhist⟩ := next_eq_some hnext
  obtain ⟨⟨s', out⟩, hs, heq⟩ := Option.map_eq_some_iff.mp hstep
  obtain ⟨rfl, rfl⟩ := Prod.mk.inj heq
  exact ⟨out, hs, hhist⟩

/-- An observed machine runs exactly when the machine does, through the same states. -/
theorem exec_observe (h : List ω) (h' : List ω') {s s' : σ} :
    (∃ k, M.exec ⟨s, h⟩ es = some ⟨s', k⟩) ↔
      ∃ k', (M.observe obs).exec ⟨s, h'⟩ es = some ⟨s', k'⟩ := by
  induction es generalizing s h h' with
  | nil => simp
  | cons e es ih =>
      rw [exec_cons, exec_cons]
      cases hstep : M.step s e with
      | none => simp [next, observe, hstep]
      | some r =>
          have hnext : M.next ⟨s, h⟩ e = some ⟨r.1, h ++ r.2⟩ := next_of_step hstep
          have hobs : (M.observe obs).next ⟨s, h'⟩ e = some ⟨r.1, h' ++ obs s e r⟩ :=
            next_of_step (by simp [observe, hstep])
          rw [hnext, hobs, Option.bind_some, Option.bind_some]
          exact ih _ _

theorem exec_of_observe {R : List ω → List ω' → Prop}
    (hstep : ∀ s e r h h', M.step s e = some r → R h h' → R (h ++ r.2) (h' ++ obs s e r))
    {s s' : σ} {h : List ω} {h' k' : List ω'} (hinit : R h h')
    (hrun : (M.observe obs).exec ⟨s, h'⟩ es = some ⟨s', k'⟩) :
    ∃ k, M.exec ⟨s, h⟩ es = some ⟨s', k⟩ ∧ R k k' := by
  induction es generalizing s h h' with
  | nil =>
      cases hrun
      exact ⟨h, rfl, hinit⟩
  | cons e es ih =>
      obtain ⟨⟨s₁, h₁'⟩, hnext, hrest⟩ := exec_cons_eq_some hrun
      obtain ⟨out, hs, hseen⟩ := observe_next hnext
      obtain rfl : h₁' = h' ++ obs s e (s₁, out) := hseen
      obtain ⟨k, hk, hR⟩ := ih (hstep s e (s₁, out) h h' hs hinit) hrest
      refine ⟨k, ?_, hR⟩
      rw [exec_cons, next_of_step hs]
      exact hk

end EventMachine
