/-
  CameraStream.Client.ChildLifetimes

  The child processes of `CameraProcess` over a whole run, and the way back out of
  `stop()`.

  `Accounted` says that `fork` and `waitpid` have alternated, and that the process table
  holds a child exactly while `capture_loop` is between the two.  So there is never more
  than one camera process, and none is left behind by a capture thread that has ended.

  `Stopping` and `remaining` are for `stop()`: once it has begun, every step of the two
  threads lowers `remaining` (`remaining_step`).  Two calls of the capture thread wait for
  the child: `read` for its output, and `waitpid` for its end.  A child that is silent and
  ignores SIGTERM keeps them waiting; otherwise one of the two threads can step
  (`stopping_ready`).  The callbacks are taken to return.
-/

import CameraStream.Client.ChildSignals

namespace CameraStream.Client

/-! ## Places of the capture thread -/

/-- The capture thread is in its read loop. -/
def LoopPc.inLoop : LoopPc → Bool
  | .head | .reading | .eofCheck => true
  | _ => false

/-- The steps the capture thread has before it once a stop is requested. -/
def LoopPc.remaining : LoopPc → Nat
  | .absent => 0
  | .ended => 1
  | .reaped => 2
  | .waiting => 3
  | .killing => 4
  | .closing => 5
  | .head => 6
  | .eofCheck => 7
  | .reading => 8
  | .publishing => 9
  | .forking => 10
  | .opening => 11

namespace CameraThreads

open EventMachine ProcessTable

variable {clock : Nat → Int} {s s' : CameraThreads} {e : ThreadEvent} {next : LoopPc}
  {out : List ThreadOutput} {c c' : EventMachine.Config CameraThreads ThreadOutput}
  {es : List ThreadEvent}

/-! ## Forked and reaped -/

/-- The start and the end of a child's life. -/
def isLifetime : ThreadOutput → Bool
  | .forked _ | .reaped _ => true
  | _ => false

/-- The forks and the reaps of a history. -/
def lifetimesOf (h : List ThreadOutput) : List ThreadOutput := h.filter isLifetime

/-- A child that was started and waited for. -/
def lifetime (pid : Int) : List ThreadOutput := [.forked pid, .reaped pid]

/-- The fork of the child that has not been waited for, if there is one. -/
def openLifetime (s : CameraThreads) : List ThreadOutput :=
  if s.thread.hasChild then [.forked s.pid] else []

theorem lifetimesOf_append (h h' : List ThreadOutput) :
    lifetimesOf (h ++ h') = lifetimesOf h ++ lifetimesOf h' := List.filter_append h h'

theorem lifetimesOf_callbacks (calls : List CaptureOutput) :
    lifetimesOf (calls.map .callback) = [] := by
  apply List.filter_eq_nil_iff.mpr
  intro o ho
  obtain ⟨call, -, rfl⟩ := List.mem_map.mp ho
  exact Bool.false_ne_true

/-- Children come one after the other, and the table holds the one whose life is open. -/
structure Accounted (c : EventMachine.Config CameraThreads ThreadOutput) : Prop where
  lifetimes : ∃ pids : List Int,
    lifetimesOf c.history = pids.flatMap lifetime ++ openLifetime c.state
  only : ∀ q, c.state.processes.holdsChild q =
    (c.state.thread.hasChild && decide (q = c.state.pid))

theorem accounted_start : Accounted (.start {}) := ⟨⟨[], rfl⟩, fun _ => rfl⟩

/-- A step that neither forks nor reaps. -/
theorem Accounted.keep (h : Accounted c)
    (hchild : s'.thread.hasChild = c.state.thread.hasChild) (hpid : s'.pid = c.state.pid)
    (htable : ∀ q, s'.processes.holdsChild q = c.state.processes.holdsChild q)
    (hout : lifetimesOf out = []) : Accounted ⟨s', c.history ++ out⟩ := by
  refine ⟨?_, ?_⟩
  · obtain ⟨pids, hpids⟩ := h.lifetimes
    refine ⟨pids, ?_⟩
    show _ = _ ++ openLifetime s'
    rw [lifetimesOf_append, hout, List.append_nil, hpids, openLifetime, openLifetime, hchild, hpid]
  · intro q
    show s'.processes.holdsChild q = (s'.thread.hasChild && decide (q = s'.pid))
    rw [htable, hchild, hpid]
    exact h.only q

/-- A child is forked while there is none. -/
theorem Accounted.fork {pid : Int} {t : ProcessTable} (h : Accounted c)
    (hthread : c.state.thread = .forking) (hspawn : c.state.processes.spawn pid true = some t) :
    Accounted ⟨{ c.state with pid := pid, thread := .publishing, processes := t },
      c.history ++ [.forked pid]⟩ := by
  refine ⟨?_, ?_⟩
  · obtain ⟨pids, hpids⟩ := h.lifetimes
    refine ⟨pids, ?_⟩
    rw [lifetimesOf_append, hpids, openLifetime, hthread]
    exact congrArg (· ++ [ThreadOutput.forked pid]) (List.append_nil _)
  · intro q
    show t.holdsChild q = decide (q = pid)
    have hnone : c.state.processes.holdsChild q = false := by
      rw [h.only q, hthread]
      rfl
    rw [(holdsChild_spawn hspawn).2, hnone]
    split
    · next hq => exact (decide_eq_true hq).symm
    · next hq => exact (decide_eq_false hq).symm

/-- The child that is waited for is the one that was forked last. -/
theorem Accounted.reap {t : ProcessTable} (h : Accounted c)
    (hthread : c.state.thread = .waiting) (hreap : c.state.processes.reap c.state.pid = some t) :
    Accounted ⟨{ c.state with thread := .reaped, processes := t },
      c.history ++ [.reaped c.state.pid]⟩ := by
  refine ⟨?_, ?_⟩
  · obtain ⟨pids, hpids⟩ := h.lifetimes
    refine ⟨pids ++ [c.state.pid], ?_⟩
    rw [lifetimesOf_append, hpids, openLifetime, hthread, List.flatMap_append, List.append_assoc]
    exact (List.append_nil _).symm
  · intro q
    show t.holdsChild q = false
    rw [holdsChild_reap hreap]
    split
    · rfl
    · next hq =>
        rw [h.only q, decide_eq_false hq]
        exact Bool.and_false _

theorem Accounted.step (h : Accounted c) (hstep : Step clock c.state e (s', out)) :
    Accounted ⟨s', c.history ++ out⟩ := by
  cases hstep with
  | move hmove => exact h.keep hmove.hasChild rfl (fun _ => rfl) (lifetimesOf_callbacks _)
  | turn hturn hloop =>
      exact h.keep (hturn.hasChild.1.trans hturn.hasChild.2.symm) rfl (fun _ => rfl)
        (lifetimesOf_callbacks _)
  | started hstop hthread => exact h.keep (by rw [hthread]; rfl) rfl (fun _ => rfl) rfl
  | alreadyRunning hstop hthread => exact h.keep rfl rfl (fun _ => rfl) rfl
  | nothing hstop hthread => exact h.keep rfl rfl (fun _ => rfl) rfl
  | requested hstop hthread => exact h.keep rfl rfl (fun _ => rfl) rfl
  | killsChild hstop hpid => exact h.keep rfl rfl (fun _ => holdsChild_signal) rfl
  | noChild hstop hpid => exact h.keep rfl rfl (fun _ => rfl) rfl
  | joined hstop hthread => exact h.keep (by rw [hthread]; rfl) rfl (fun _ => rfl) rfl
  | forked pid t hthread hspawn => exact h.fork hthread hspawn
  | published hthread => exact h.keep (by rw [hthread]; rfl) rfl (fun _ => rfl) rfl
  | killed hthread => exact h.keep (by rw [hthread]; rfl) rfl (fun _ => holdsChild_signal) rfl
  | reaped t hthread hreap => exact h.reap hthread hreap
  | cleared hthread => exact h.keep (by rw [hthread]; rfl) rfl (fun _ => rfl) rfl
  | exited pid t hexit => exact h.keep rfl rfl (fun _ => holdsChild_exit hexit) rfl
  | spawned pid t hspawn =>
      refine h.keep rfl rfl ?_ rfl
      intro q
      -- a free number is no child's before, and the new process is none
      obtain ⟨hfree, hq⟩ := holdsChild_spawn (q := q) hspawn
      show t.holdsChild q = _
      rw [hq]
      split
      · next heq => rw [heq, hfree]
      · rfl

theorem accounted_next (h : Accounted c) (hnext : (machine clock).next c e = some c') :
    Accounted c' := by
  obtain ⟨out, hstep, hhist⟩ := next_cases hnext
  have hacc := h.step hstep
  rwa [← hhist] at hacc

/-- **Every child is waited for before the next.**  Whatever the two threads and the other
    processes do, the children of a run were forked and reaped one after the other, the
    last one perhaps not yet; and the process table holds a child exactly while
    `capture_loop` is between its `fork` and its `waitpid`. -/
theorem children_reaped (clock : Nat → Int) (es : List ThreadEvent)
    (c : EventMachine.Config CameraThreads ThreadOutput)
    (hrun : (machine clock).exec (.start {}) es = some c) :
    (∃ pids : List Int, lifetimesOf c.history = pids.flatMap lifetime ++ openLifetime c.state) ∧
      ∀ q, c.state.processes.holdsChild q =
        (c.state.thread.hasChild && decide (q = c.state.pid)) := by
  have h := exec_invariant (fun _ _ _ h hnext => accounted_next h hnext) accounted_start hrun
  exact ⟨h.lifetimes, h.only⟩

/-- An ordinary stop, to the end: the child has been told to end, ends, and is reaped. -/
def wholeStop : List ThreadEvent :=
  ordinaryStop ++ [.exits 7, .wait false, .clear, .join]

/-- The camera has been started and stopped, and no child is left. -/
theorem wholeStop_reaped :
    ∃ c, (machine fun _ => 0).exec (.start {}) wholeStop = some c ∧
      lifetimesOf c.history = lifetime 7 ∧ c.state.thread = .absent ∧
      ((∃ pids : List Int,
          lifetimesOf c.history = pids.flatMap lifetime ++ openLifetime c.state) ∧
        ∀ q, c.state.processes.holdsChild q =
          (c.state.thread.hasChild && decide (q = c.state.pid))) :=
  ⟨_, rfl, rfl, rfl, children_reaped (fun _ => 0) wholeStop _ rfl⟩

/-! ## The way out of `stop()` -/

/-- What `stop()` can rely on while it runs. -/
structure Stopping (s : CameraThreads) : Prop where
  owned : Owned s
  /-- There is a thread to join. -/
  thread : s.stop ≠ .outside → s.thread ≠ .absent
  running : s.thread.inLoop = true → s.loop.running = true

theorem stopping_start : Stopping {} := ⟨owned_start, fun h => absurd rfl h, nofun⟩

/-- No step of the capture thread takes the thread away. -/
theorem Move.present {calls : List CaptureOutput} (h : Move s e next calls) :
    next ≠ .absent := by
  cases h with
  | _ => exact LoopPc.noConfusion

theorem Turn.present {read : ReadEvent} (h : Turn s e read next) : next ≠ .absent := by
  cases h with
  | _ => exact LoopPc.noConfusion

/-- A place that is reached without a turn is in the read loop only if the thread was. -/
theorem Move.inLoop {calls : List CaptureOutput} (h : Move s e next calls)
    (hnext : next.inLoop = true) : s.thread.inLoop = true := by
  cases h with
  | reads h hstop => rw [h]; rfl
  | closed h => rw [h]; rfl
  | _ => cases hnext

/-- A turn that stays in the read loop keeps it running. -/
theorem Turn.inLoop {read : ReadEvent} {r : CaptureState × List CaptureOutput}
    (h : Turn s e read next) (hloop : captureStep clock s.loop read = some r)
    (hnext : next.inLoop = true) : r.1.running = true := by
  cases h with
  | data chunk h =>
      obtain ⟨⟨hrun, -⟩, heq⟩ := Option.ite_none_right_eq_some.mp hloop
      cases heq
      rw [onData]
      split
      · exact hrun
      · exact hrun
  | interrupted h =>
      obtain ⟨hrun, heq⟩ := Option.ite_none_right_eq_some.mp hloop
      cases heq
      exact hrun
  | _ => cases hnext

theorem Stopping.step (h : Stopping s) (hstep : Step clock s e (s', out)) : Stopping s' := by
  refine ⟨h.owned.step hstep, ?_, ?_⟩
  · intro hstop
    cases hstep with
    | move hmove => exact hmove.present
    | turn hturn hloop => exact hturn.present
    | started hout hthread => exact LoopPc.noConfusion
    | alreadyRunning hout hthread => exact hthread
    | nothing hout hthread => exact h.thread hstop
    | requested hout hthread => exact hthread
    | killsChild hreq hpid => exact h.thread (by rw [hreq]; exact StopPc.noConfusion)
    | noChild hreq hpid => exact h.thread (by rw [hreq]; exact StopPc.noConfusion)
    | joined hjoin hthread => exact absurd rfl hstop
    | forked pid t hthread hspawn => exact LoopPc.noConfusion
    | published hthread => exact LoopPc.noConfusion
    | killed hthread => exact LoopPc.noConfusion
    | reaped t hthread hreap => exact LoopPc.noConfusion
    | cleared hthread => exact LoopPc.noConfusion
    | exited pid t hexit => exact h.thread hstop
    | spawned pid t hspawn => exact h.thread hstop
  · intro hin
    cases hstep with
    | move hmove => exact h.running (hmove.inLoop hin)
    | turn hturn hloop => exact hturn.inLoop hloop hin
    | alreadyRunning hout hthread => exact h.running hin
    | nothing hout hthread => exact h.running hin
    | requested hout hthread => exact h.running hin
    | killsChild hreq hpid => exact h.running hin
    | noChild hreq hpid => exact h.running hin
    | published hthread => rfl
    | exited pid t hexit => exact h.running hin
    | spawned pid t hspawn => exact h.running hin
    | _ => cases hin

theorem stopping_next (h : Stopping c.state) (hnext : (machine clock).next c e = some c') :
    Stopping c'.state := by
  obtain ⟨out, hstep, -⟩ := next_cases hnext
  exact h.step hstep

/-- The section of `stop()` is one step more. -/
def remaining (s : CameraThreads) : Nat :=
  s.thread.remaining + (if s.stop = .requested then 1 else 0)

theorem remaining_le : s.remaining ≤ 12 := by
  have hthread : s.thread.remaining ≤ 11 := by
    cases s.thread with
    | _ => decide
  rw [remaining]
  split
  · omega
  · omega

/-- A step of the owner or of the capture thread; a `waitpid` that was interrupted is none,
    and neither is what other processes do. -/
def isOwnStep : ThreadEvent → Bool
  | .wait true | .exits _ | .spawns _ => false
  | _ => true

/-- A requested stop has one step of the capture thread less before it. -/
theorem Move.remaining {calls : List CaptureOutput} (h : Move s e next calls)
    (hreq : s.stopRequested = true) :
    next.remaining + (if isOwnStep e then 1 else 0) ≤ s.thread.remaining := by
  cases h with
  | piped h => rw [h]; decide
  | pipeFailed reason h => rw [h]; exact Nat.le_of_ble_eq_true rfl
  | forkFailed reason h => rw [h]; exact Nat.le_of_ble_eq_true rfl
  | reads h hstop => rw [hreq] at hstop; cases hstop
  | closed h => rw [h]; decide
  | leaves h hstop => rw [h]; decide
  | kills h hstop => rw [hreq] at hstop; cases hstop
  | interrupted h => rw [h]; decide

theorem Turn.remaining {read : ReadEvent} (h : Turn s e read next) :
    next.remaining + (if isOwnStep e then 1 else 0) ≤ s.thread.remaining := by
  cases h with
  | stopped h hstop => rw [h]; decide
  | data chunk h => rw [h]; exact Nat.le_of_ble_eq_true rfl
  | interrupted h => rw [h]; decide
  | failed reason h => rw [h]; exact Nat.le_of_ble_eq_true rfl
  | eof h => rw [h]; decide

theorem remaining_le_of_thread {k : Nat} (hstop : s'.stop = s.stop)
    (h : s'.thread.remaining + k ≤ s.thread.remaining) : s'.remaining + k ≤ s.remaining := by
  rw [remaining, remaining, hstop]
  omega

theorem remaining_step (h : Stopping s) (hstop : s.stop ≠ .outside) (hjoin : e ≠ .join)
    (hstep : Step clock s e (s', out)) :
    s'.stop ≠ .outside ∧ s'.remaining + (if isOwnStep e then 1 else 0) ≤ s.remaining := by
  have hreq := h.owned.requested hstop
  cases hstep with
  | move hmove => exact ⟨hstop, remaining_le_of_thread rfl (hmove.remaining hreq)⟩
  | turn hturn hloop => exact ⟨hstop, remaining_le_of_thread rfl hturn.remaining⟩
  | started hout hthread => exact absurd hout hstop
  | alreadyRunning hout hthread => exact absurd hout hstop
  | nothing hout hthread => exact absurd hout hstop
  | requested hout hthread => exact absurd hout hstop
  | killsChild hsection hpid =>
      refine ⟨StopPc.noConfusion, ?_⟩
      rw [remaining, remaining, hsection]
      exact Nat.le_refl _
  | noChild hsection hpid =>
      refine ⟨StopPc.noConfusion, ?_⟩
      rw [remaining, remaining, hsection]
      exact Nat.le_refl _
  | joined hout hthread => exact absurd rfl hjoin
  | forked pid t hthread hspawn =>
      exact ⟨hstop, remaining_le_of_thread rfl (by rw [hthread]; exact Nat.le_refl _)⟩
  | published hthread =>
      exact ⟨hstop, remaining_le_of_thread rfl (by rw [hthread]; exact Nat.le_of_ble_eq_true rfl)⟩
  | killed hthread =>
      exact ⟨hstop, remaining_le_of_thread rfl (by rw [hthread]; exact Nat.le_refl _)⟩
  | reaped t hthread hreap =>
      exact ⟨hstop, remaining_le_of_thread rfl (by rw [hthread]; exact Nat.le_refl _)⟩
  | cleared hthread =>
      exact ⟨hstop, remaining_le_of_thread rfl (by rw [hthread]; exact Nat.le_refl _)⟩
  | exited pid t hexit => exact ⟨hstop, Nat.le_refl _⟩
  | spawned pid t hspawn => exact ⟨hstop, Nat.le_refl _⟩

/-- The child has ended, and with it its end of the pipe. -/
def ChildEnded (s : CameraThreads) : Prop :=
  ∃ p, s.processes s.pid = some p ∧ p.child = true ∧ p.exited = true

/-- The capture thread is in a call that a running child may keep waiting: `read`, as the
    child holds the writing end of the pipe, or `waitpid`; and the child has not ended. -/
def AwaitsChild (s : CameraThreads) : Prop :=
  (s.thread = .reading ∨ s.thread = .waiting) ∧ ¬ ChildEnded s

/-- A step of the owner or the capture thread that needs nothing of a running child. -/
def Unhindered (s : CameraThreads) (e : ThreadEvent) : Prop :=
  isOwnStep e = true ∧
    match e with
    | .read _ | .wait _ => ChildEnded s
    | _ => True

theorem turn_of_captureStep {read : ReadEvent} {r : CaptureState × List CaptureOutput}
    (h : captureStep clock s.loop read = some r) :
    s.turn clock read next = some ({ s with loop := r.1, thread := next }, r.2.map .callback) := by
  rw [turn, h]
  rfl

/-- The capture thread has a next step, unless the child keeps it waiting. -/
theorem thread_ready (h : Stopping s) (hreq : s.stopRequested = true)
    (hpresent : s.thread ≠ .absent) (hended : s.thread ≠ .ended)
    (hfree : ¬ AwaitsChild s) :
    ∃ e, Unhindered s e ∧ ∃ r, step clock s e = some r := by
  have hover : s.thread = .reading ∨ s.thread = .waiting → ChildEnded s := by
    intro hplace
    by_contra hruns
    exact hfree ⟨hplace, hruns⟩
  cases hthread : s.thread with
  | absent => exact absurd hthread hpresent
  | ended => exact absurd hthread hended
  | opening => exact ⟨.pipe none, ⟨rfl, trivial⟩, _, if_pos hthread⟩
  | forking => exact ⟨.fork (.error ""), ⟨rfl, trivial⟩, _, if_pos hthread⟩
  | publishing => exact ⟨.publish, ⟨rfl, trivial⟩, _, if_pos hthread⟩
  | head =>
      have hrun := h.running (by rw [hthread]; rfl)
      exact ⟨.head, ⟨rfl, trivial⟩, _,
        (if_pos hthread).trans ((if_pos hreq).trans (turn_of_captureStep (if_pos hrun)))⟩
  | reading => exact ⟨.read .eof, ⟨rfl, hover (.inl hthread)⟩, _, if_pos hthread⟩
  | eofCheck =>
      have hrun := h.running (by rw [hthread]; rfl)
      exact ⟨.eofCheck, ⟨rfl, trivial⟩, _,
        (if_pos hthread).trans (turn_of_captureStep (if_pos hrun))⟩
  | closing => exact ⟨.finish, ⟨rfl, trivial⟩, _, (if_pos hthread).trans (if_pos hreq)⟩
  | killing => exact ⟨.kill, ⟨rfl, trivial⟩, _, if_pos hthread⟩
  | waiting =>
      obtain ⟨p, hp, hchild, hexited⟩ := hover (.inr hthread)
      have hreap := reap_of_exited hp hchild hexited
      exact ⟨.wait false, ⟨rfl, p, hp, hchild, hexited⟩, _,
        (if_pos hthread).trans (Option.map_eq_some_iff.mpr ⟨_, hreap, rfl⟩)⟩
  | reaped => exact ⟨.clear, ⟨rfl, trivial⟩, _, if_pos hthread⟩

theorem stopping_ready (h : Stopping s) (hstop : s.stop ≠ .outside)
    (hfree : s.stop = .joining → ¬ AwaitsChild s) :
    ∃ e, Unhindered s e ∧ ∃ r, step clock s e = some r := by
  cases hpc : s.stop with
  | outside => exact absurd hpc hstop
  | requested =>
      -- the owner has its section before it
      by_cases hpid : 0 < s.childPid
      · exact ⟨.inspect, ⟨rfl, trivial⟩, _, (if_pos hpc).trans (if_pos hpid)⟩
      · exact ⟨.inspect, ⟨rfl, trivial⟩, _, (if_pos hpc).trans (if_neg hpid)⟩
  | joining =>
      by_cases hended : s.thread = .ended
      · exact ⟨.join, ⟨rfl, trivial⟩, _, if_pos ⟨hpc, hended⟩⟩
      · exact thread_ready h (h.owned.requested hstop) (h.thread hstop) hended (hfree hpc)

/-- **`stop()` returns once the child has ended.**  In every run, from the moment a call of
    `stop()` has requested the stop until it returns, the owner and the capture thread take
    at most twelve steps, interrupted waits apart; and as long as it has not returned, one
    of them can step without the child, unless the owner is in `join` and `capture_loop` in
    `read` or `waitpid` for a child that still runs. -/
theorem stop_returns (clock : Nat → Int) (es : List ThreadEvent)
    (c : EventMachine.Config CameraThreads ThreadOutput)
    (hrun : (machine clock).exec (.start {}) es = some c) (hstop : c.state.stop ≠ .outside) :
    (∀ es' c', (machine clock).exec c es' = some c' → .join ∉ es' →
      es'.countP isOwnStep ≤ 12) ∧
    ((c.state.stop = .joining → ¬ AwaitsChild c.state) →
      ∃ e c', Unhindered c.state e ∧ (machine clock).next c e = some c') := by
  have h : Stopping c.state := exec_invariant (I := fun c => Stopping c.state)
    (fun _ _ _ h hnext => stopping_next h hnext) stopping_start hrun
  refine ⟨?_, ?_⟩
  · intro es' c' hrun' hjoin
    have hcount := exec_countP_le (I := fun c => Stopping c.state ∧ c.state.stop ≠ .outside)
      (μ := fun c => c.state.remaining) (p := isOwnStep) ?_ ⟨h, hstop⟩ hrun'
    · have hle : c.state.remaining ≤ 12 := remaining_le
      omega
    · intro e he c c' hI hnext
      obtain ⟨out, hstep, -⟩ := next_cases hnext
      have hne : e ≠ .join := fun heq => hjoin (heq ▸ he)
      obtain ⟨hout, hle⟩ := remaining_step hI.1 hI.2 hne hstep
      exact ⟨⟨hI.1.step hstep, hout⟩, hle⟩
  · intro hfree
    obtain ⟨e, hown, r, hr⟩ : ∃ e, Unhindered c.state e ∧ ∃ r, step clock c.state e = some r :=
      stopping_ready h hstop hfree
    exact ⟨e, _, hown, next_of_step hr⟩

/-- After the section of `stop()` the thread is in `read`; then the child ends. -/
def pendingStop : List ThreadEvent :=
  [.start, .pipe none, .fork (.ok 7), .publish, .head, .stopCall, .inspect, .exits 7]

theorem pendingStop_returns :
    ∃ c, (machine fun _ => 0).exec (.start {}) pendingStop = some c ∧
      c.state.stop = .joining ∧ c.state.thread = .reading ∧
      (∀ es' c', (machine fun _ => 0).exec c es' = some c' → .join ∉ es' →
        es'.countP isOwnStep ≤ 12) ∧
      ∃ e c', Unhindered c.state e ∧ (machine fun _ => 0).next c e = some c' := by
  obtain ⟨hbound, hready⟩ :=
    stop_returns (fun _ => 0) pendingStop _ rfl StopPc.noConfusion
  exact ⟨_, rfl, rfl, rfl, hbound, hready fun _ hawaits => hawaits.2 ⟨_, rfl, rfl, rfl⟩⟩

end CameraThreads

end CameraStream.Client
