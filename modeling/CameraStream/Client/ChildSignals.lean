/-
  CameraStream.Client.ChildSignals

  The signals that `CameraProcess` sends to its child process, in every interleaving of
  `stop()` with `capture_loop`.

  Two things are looked at.  Before `capture_loop` waits for the child it should have been
  told to end: by `capture_loop` if no stop was requested, by the section of `stop()`
  under the mutex otherwise.  And `stop()` should send no signal to a number that
  `waitpid` has freed.  Both depend on where the section of `stop()` falls between the
  steps of the capture thread, and both results say exactly where it must not fall.

  `Owned` is what holds in every reachable state, whatever the interleaving; `Asked` and
  `Reaping` relate the state to what has happened since the last child was published and
  forked.
-/

import CameraStream.Client.CameraThreads

namespace CameraStream.Client.CameraThreads

open EventMachine ProcessTable

/-! ## What is reachable -/

/-- The child process and its published number. -/
structure Owned (s : CameraThreads) : Prop where
  child : s.thread.hasChild = true → ∃ b, IsChild s.processes s.pid b
  positive : (s.thread.hasChild || s.thread.published) = true → 0 < s.pid
  published : s.thread.published = true → s.childPid = s.pid
  unpublished : s.thread.published = false → s.childPid = -1
  requested : s.stop ≠ .outside → s.stopRequested = true

variable {clock : Nat → Int} {s s' : CameraThreads} {e : ThreadEvent} {next : LoopPc}
  {out : List ThreadOutput} {c c' : EventMachine.Config CameraThreads ThreadOutput}
  {es : List ThreadEvent}

theorem Move.hasChild {calls : List CaptureOutput} (h : Move s e next calls) :
    next.hasChild = s.thread.hasChild := by
  cases h with
  | piped h => rw [h]; rfl
  | pipeFailed reason h => rw [h]; rfl
  | forkFailed reason h => rw [h]; rfl
  | reads h hstop => rw [h]; rfl
  | closed h => rw [h]; rfl
  | leaves h hstop => rw [h]; rfl
  | kills h hstop => rw [h]; rfl
  | interrupted h => rw [h]

theorem Turn.hasChild {read : ReadEvent} (h : Turn s e read next) :
    next.hasChild = true ∧ s.thread.hasChild = true := by
  cases h with
  | stopped h hstop => rw [h]; exact ⟨rfl, rfl⟩
  | data chunk h => rw [h]; exact ⟨rfl, rfl⟩
  | interrupted h => rw [h]; exact ⟨rfl, rfl⟩
  | failed reason h => rw [h]; exact ⟨rfl, rfl⟩
  | eof h => rw [h]; exact ⟨rfl, rfl⟩

theorem owned_start : Owned {} := by
  refine ⟨?_, ?_, ?_, fun _ => rfl, fun h => absurd rfl h⟩
  all_goals
    intro h
    cases h

/-- The invariant only looks at the class of the capture thread's place. -/
theorem Owned.same_class (h : Owned s) (hchild : next.hasChild = s.thread.hasChild)
    (hpublished : next.published = s.thread.published) (loop : CaptureState) :
    Owned { s with thread := next, loop := loop } := by
  refine ⟨?_, ?_, ?_, ?_, h.requested⟩
  · intro hn
    exact h.child (hchild ▸ hn)
  · intro hn
    exact h.positive (by rw [← hchild, ← hpublished]; exact hn)
  · intro hn
    exact h.published (hpublished ▸ hn)
  · intro hn
    exact h.unpublished (hpublished ▸ hn)

/-- Processes come and go without touching the child. -/
theorem Owned.processes {t : ProcessTable} (h : Owned s)
    (hkeep : ∀ b, IsChild s.processes s.pid b → ∃ b', IsChild t s.pid b') :
    Owned { s with processes := t } := by
  refine ⟨?_, h.positive, h.published, h.unpublished, h.requested⟩
  intro hn
  obtain ⟨b, hb⟩ := h.child hn
  exact hkeep b hb

theorem signal_keeps {t : ProcessTable} {q pid : Int} {b : Bool} (hb : IsChild t q b) :
    ∃ b', IsChild (t.signal pid) q b' := by
  by_cases hq : q = pid
  · exact ⟨true, hq ▸ hb.signal⟩
  · obtain ⟨p, hp, hrest⟩ := hb
    exact ⟨b, p, (put_other hq).trans hp, hrest⟩

theorem Owned.step (h : Owned s) (hstep : Step clock s e (s', out)) : Owned s' := by
  cases hstep with
  | move hmove => exact h.same_class hmove.hasChild hmove.published s.loop
  | turn hturn hloop =>
      exact h.same_class (hturn.hasChild.1.trans hturn.hasChild.2.symm)
        (hturn.published.1.trans hturn.published.2.symm) _
  | started hstop hthread =>
      refine ⟨nofun, nofun, nofun, ?_, ?_⟩
      · intro _
        exact h.unpublished (by rw [hthread]; rfl)
      · intro hne
        exact absurd hstop hne
  | alreadyRunning hstop hthread => exact h
  | nothing hstop hthread => exact h
  | requested hstop hthread =>
      exact ⟨h.child, h.positive, h.published, h.unpublished, fun _ => rfl⟩
  | killsChild hstop hpid =>
      have hreq := h.requested (by rw [hstop]; exact StopPc.noConfusion)
      obtain ⟨hchild, hpos, hpub, hunpub, -⟩ := h.processes (t := s.processes.signal s.childPid)
        fun b hb => signal_keeps hb
      exact ⟨hchild, hpos, hpub, hunpub, fun _ => hreq⟩
  | noChild hstop hpid =>
      have hreq := h.requested (by rw [hstop]; exact StopPc.noConfusion)
      exact ⟨h.child, h.positive, h.published, h.unpublished, fun _ => hreq⟩
  | joined hstop hthread =>
      refine ⟨nofun, nofun, nofun, ?_, ?_⟩
      · intro _
        exact h.unpublished (by rw [hthread]; rfl)
      · intro hne
        exact absurd rfl hne
  | forked pid t hthread hspawn =>
      -- a child without a signal, and not published
      refine ⟨fun _ => ⟨false, isChild_spawn hspawn⟩, fun _ => spawn_pos hspawn,
        nofun, ?_, h.requested⟩
      intro _
      exact h.unpublished (by rw [hthread]; rfl)
  | published hthread =>
      refine ⟨fun _ => h.child (by rw [hthread]; rfl), fun _ => h.positive (by rw [hthread]; rfl),
        fun _ => rfl, nofun, h.requested⟩
  | killed hthread =>
      refine (h.processes fun b hb => signal_keeps hb).same_class ?_ ?_ s.loop
      · show true = s.thread.hasChild
        rw [hthread]
        rfl
      · show true = s.thread.published
        rw [hthread]
        rfl
  | reaped t hthread hreap =>
      refine ⟨nofun, fun _ => h.positive (by rw [hthread]; rfl),
        fun _ => h.published (by rw [hthread]; rfl), nofun, h.requested⟩
  | cleared hthread =>
      exact ⟨nofun, nofun, nofun, fun _ => rfl,
        h.requested⟩
  | exited pid t hexit => exact h.processes fun b hb => ⟨b, hb.exit hexit⟩
  | spawned pid t hspawn => exact h.processes fun b hb => ⟨b, hb.spawn hspawn⟩

/-- `stop()` finds a number exactly while one is published. -/
theorem Owned.childPid_pos_iff (h : Owned s) : 0 < s.childPid ↔ s.thread.published = true := by
  refine ⟨?_, ?_⟩
  · intro hpid
    by_contra hnot
    rw [h.unpublished (Bool.eq_false_of_not_eq_true hnot)] at hpid
    omega
  · intro hpub
    rw [h.published hpub]
    exact h.positive (by rw [hpub, Bool.or_true])

/-! ## What has happened since -/

def isFork (pid : Int) : ThreadOutput → Bool
  | .forked q => q == pid
  | _ => false

/-- The section of `stop()` has run since the last child was published. -/
def InspectedSince (h : List ThreadOutput) : Prop := .inspected ∈ sinceLast isPublished h

/-- `waitpid` has returned for `pid`, and no later child got the number. -/
def Reaped (pid : Int) (h : List ThreadOutput) : Prop := .reaped pid ∈ sinceLast (isFork pid) h

theorem inspectedSince_append {h : List ThreadOutput}
    (hout : ∀ o ∈ out, isPublished o = false ∧ o ≠ .inspected) :
    InspectedSince (h ++ out) ↔ InspectedSince h := mem_sinceLast_append hout

theorem reaped_append {pid : Int} {h : List ThreadOutput}
    (hout : ∀ o ∈ out, isFork pid o = false ∧ o ≠ .reaped pid) :
    Reaped pid (h ++ out) ↔ Reaped pid h := mem_sinceLast_append hout

/-- Until `capture_loop` looks at the stop token for the last time, the child was sent a
    signal exactly if the section of `stop()` has run since its number was published. -/
def Asked (c : EventMachine.Config CameraThreads ThreadOutput) : Prop :=
  c.state.thread.asking = true →
    ∃ b, IsChild c.state.processes c.state.pid b ∧
      (b = true ↔ c.state.thread.published = true ∧ InspectedSince c.history)

theorem Move.asking {calls : List CaptureOutput} (h : Move s e next calls)
    (hnext : next.asking = true) : s.thread.asking = true := by
  cases h with
  | reads h hstop => rw [h]; rfl
  | closed h => rw [h]; rfl
  | _ => cases hnext

theorem Turn.asking {read : ReadEvent} (h : Turn s e read next) : s.thread.asking = true := by
  cases h with
  | stopped h hstop => rw [h]; rfl
  | data chunk h => rw [h]; rfl
  | interrupted h => rw [h]; rfl
  | failed reason h => rw [h]; rfl
  | eof h => rw [h]; rfl

/-- Callbacks are neither a publication nor a section of `stop()`. -/
theorem inspectedSince_callbacks {h : List ThreadOutput} (calls : List CaptureOutput) :
    InspectedSince (h ++ calls.map .callback) ↔ InspectedSince h := by
  apply inspectedSince_append
  intro o ho
  obtain ⟨call, -, rfl⟩ := List.mem_map.mp ho
  exact ⟨rfl, ThreadOutput.noConfusion⟩

/-- A step that leaves the child and its signals alone. -/
theorem Asked.keep {h' : List ThreadOutput} (h : Asked c)
    (hasking : s'.thread.asking = true → c.state.thread.asking = true)
    (hpublished : s'.thread.published = c.state.thread.published)
    (hchild : ∀ b, IsChild c.state.processes c.state.pid b → IsChild s'.processes s'.pid b)
    (hhist : InspectedSince h' ↔ InspectedSince c.history) : Asked ⟨s', h'⟩ := by
  intro hn
  obtain ⟨b, hb, hiff⟩ := h (hasking hn)
  refine ⟨b, hchild b hb, ?_⟩
  rw [hiff]
  show _ ↔ s'.thread.published = true ∧ InspectedSince h'
  rw [hpublished, hhist]

theorem Asked.step (h : Asked c) (ho : Owned c.state) (hstep : Step clock c.state e (s', out)) :
    Asked ⟨s', c.history ++ out⟩ := by
  cases hstep with
  | move hmove =>
      exact h.keep hmove.asking hmove.published (fun b hb => hb) (inspectedSince_callbacks _)
  | turn hturn hloop =>
      exact h.keep (fun _ => hturn.asking) (hturn.published.1.trans hturn.published.2.symm)
        (fun b hb => hb) (inspectedSince_callbacks _)
  | started hstop hthread => exact nofun
  | alreadyRunning hstop hthread =>
      refine h.keep id rfl (fun b hb => hb) (inspectedSince_append ?_)
      rintro o (_ | ⟨_, ⟨⟩⟩)
      exact ⟨rfl, ThreadOutput.noConfusion⟩
  | nothing hstop hthread =>
      exact h.keep id rfl (fun b hb => hb) (by rw [List.append_nil])
  | requested hstop hthread =>
      exact h.keep id rfl (fun b hb => hb) (by rw [List.append_nil])
  | killsChild hstop hpid =>
      -- the number is published, and it is the child's
      intro hn
      obtain ⟨b, hb, -⟩ := h hn
      have hpub := ho.childPid_pos_iff.mp hpid
      refine ⟨true, ?_, iff_of_true rfl ⟨hpub, ?_⟩⟩
      · show IsChild (c.state.processes.signal c.state.childPid) c.state.pid true
        rw [ho.published hpub]
        exact hb.signal
      · show ThreadOutput.inspected ∈ sinceLast isPublished _
        rw [sinceLast_append (by rintro o (_ | ⟨_, _ | ⟨_, ⟨⟩⟩⟩) <;> rfl)]
        exact List.mem_append_right _ (by simp)
  | noChild hstop hpid =>
      -- nothing is published, so nothing is sent
      intro hn
      obtain ⟨b, hb, hiff⟩ := h hn
      have hpub : c.state.thread.published ≠ true := fun hpub =>
        hpid (ho.childPid_pos_iff.mpr hpub)
      refine ⟨b, hb, ?_⟩
      rw [hiff]
      exact iff_of_false (fun hboth => hpub hboth.1) (fun hboth => hpub hboth.1)
  | joined hstop hthread => exact nofun
  | forked pid t hthread hspawn =>
      intro _
      refine ⟨false, isChild_spawn hspawn, ?_⟩
      exact iff_of_false Bool.false_ne_true (fun hboth => nomatch hboth.1)
  | published hthread =>
      intro _
      obtain ⟨b, hb, hiff⟩ := h (by rw [hthread]; rfl)
      refine ⟨b, hb, iff_of_false ?_ ?_⟩
      · rw [hiff, hthread]
        exact fun hboth => nomatch hboth.1
      · rintro ⟨-, hmem⟩
        rw [InspectedSince, sinceLast_concat] at hmem
        exact List.not_mem_nil hmem
  | killed hthread => exact nofun
  | reaped t hthread hreap => exact nofun
  | cleared hthread => exact nofun
  | exited pid t hexit =>
      exact h.keep id rfl (fun b hb => hb.exit hexit) (by rw [List.append_nil])
  | spawned pid t hspawn =>
      exact h.keep id rfl (fun b hb => hb.spawn hspawn) (by rw [List.append_nil])

/-! ## Told before waited for -/

/-- `Owned` and `Asked`, which every step keeps. -/
def Tracked (c : EventMachine.Config CameraThreads ThreadOutput) : Prop :=
  Owned c.state ∧ Asked c

theorem tracked_start : Tracked (.start {}) := ⟨owned_start, nofun⟩

theorem tracked_next (h : Tracked c) (hnext : (machine clock).next c e = some c') :
    Tracked c' := by
  obtain ⟨out, hstep, hhist⟩ := next_cases hnext
  obtain ⟨howned, hasked⟩ := h
  have hasked' := hasked.step howned hstep
  rw [← hhist] at hasked'
  exact ⟨howned.step hstep, hasked'⟩

/-- When `capture_loop` is in `waitpid`, its child has been sent SIGTERM. -/
def ToldBeforeWait (c : EventMachine.Config CameraThreads ThreadOutput) : Prop :=
  c.state.thread = .waiting → IsChild c.state.processes c.state.pid true

/-- `stop()` never joins a thread that waits for a child nobody has asked to end. -/
def ToldBeforeJoin (c : EventMachine.Config CameraThreads ThreadOutput) : Prop :=
  c.state.stop = .joining → ToldBeforeWait c

/-- What a signal to the published number does while `capture_loop` is in `waitpid`. -/
theorem Owned.told_of_signal (ho : Owned s) (hwaiting : s.thread = .waiting) :
    IsChild (s.processes.signal s.childPid) s.pid true := by
  obtain ⟨b, hb⟩ := ho.child (by rw [hwaiting]; rfl)
  rw [ho.published (by rw [hwaiting]; rfl)]
  exact hb.signal

/-- Only the last look at the stop token leads into `waitpid` without a signal. -/
theorem told_step (hne : e ≠ .finish) (ho : Owned c.state) (h : ToldBeforeWait c)
    (hstep : Step clock c.state e (s', out)) :
    ToldBeforeWait ⟨s', c.history ++ out⟩ := by
  cases hstep with
  | move hmove =>
      intro hn
      cases hmove with
      -- the excluded event
      | leaves hthread hstop => exact absurd rfl hne
      | interrupted hthread => exact h hthread
      | _ => cases hn
  | turn hturn hloop =>
      intro hn
      cases hturn with
      | _ => cases hn
  | killsChild hstop hpid => exact ho.told_of_signal
  | killed hthread =>
      intro _
      obtain ⟨b, hb⟩ := ho.child (by rw [hthread]; rfl)
      exact hb.signal
  | exited pid t hexit => exact fun hn => (h hn).exit hexit
  | spawned pid t hspawn => exact fun hn => (h hn).spawn hspawn
  | alreadyRunning hstop hthread => exact h
  | nothing hstop hthread => exact h
  | requested hstop hthread => exact h
  | noChild hstop hpid => exact h
  | started hstop hthread => exact nofun
  | joined hstop hthread => exact nofun
  | forked pid t hthread hspawn => exact nofun
  | published hthread => exact nofun
  | reaped t hthread hreap => exact nofun
  | cleared hthread => exact nofun

/-- The same for `ToldBeforeJoin`: the section of `stop()` itself sends the signal. -/
theorem toldBeforeJoin_step (hne : e ≠ .finish) (ho : Owned c.state) (h : ToldBeforeJoin c)
    (hstep : Step clock c.state e (s', out)) :
    ToldBeforeJoin ⟨s', c.history ++ out⟩ := by
  by_cases hjoining : c.state.stop = .joining
  · intro _
    exact told_step hne ho (h hjoining) hstep
  · intro hjoin
    cases hstep with
    | killsChild hstop hpid => exact ho.told_of_signal
    | noChild hstop hpid =>
        -- a waiting thread has published its child
        intro hwaiting
        have hwaiting : c.state.thread = .waiting := hwaiting
        exact absurd (ho.childPid_pos_iff.mpr (by rw [hwaiting]; rfl)) hpid
    | requested hstop hthread => cases hjoin
    | joined hstop hthread => cases hjoin
    | _ => exact absurd hjoin hjoining

/-- At the last look at the stop token the child has been sent a signal exactly if the
    section of `stop()` has run since the publication. -/
theorem Tracked.told_iff (h : Tracked c) (hclosing : c.state.thread = .closing) :
    IsChild c.state.processes c.state.pid true ↔ InspectedSince c.history := by
  obtain ⟨b, hb, hiff⟩ := h.2 (by rw [hclosing]; rfl)
  have hpub : c.state.thread.published = true := by rw [hclosing]; rfl
  refine ⟨?_, ?_⟩
  · intro htold
    exact (hiff.mp (hb.unique htold)).2
  · intro hinspected
    have hb' : b = true := hiff.mpr ⟨hpub, hinspected⟩
    rwa [hb'] at hb

/-- What the last look at the stop token leads to. -/
theorem finish_cases (hnext : (machine clock).next c .finish = some c') :
    c.state.thread = .closing ∧
      (c.state.stopRequested = true ∧ c'.state = { c.state with thread := .waiting } ∨
        c.state.stopRequested = false ∧ c'.state = { c.state with thread := .killing }) := by
  obtain ⟨out, hstep, -⟩ := next_cases hnext
  generalize c'.state = s' at *
  cases hstep with
  | move hmove =>
      cases hmove with
      | leaves hthread hstop => exact ⟨hthread, .inl ⟨hstop, rfl⟩⟩
      | kills hthread hstop => exact ⟨hthread, .inr ⟨hstop, rfl⟩⟩
  | turn hturn hloop => cases hturn

/-- If `capture_loop` leaves the signal to `stop()`, the section of `stop()` has run
    since the child was published. -/
def LeavesToStop (c : EventMachine.Config CameraThreads ThreadOutput) (e : ThreadEvent) : Prop :=
  e = .finish → c.state.stopRequested = true → InspectedSince c.history

/-- If the section of `stop()` has run when `capture_loop` takes its last look at the stop
    token, then it ran after the child was published. -/
def InspectsChild (c : EventMachine.Config CameraThreads ThreadOutput) (e : ThreadEvent) : Prop :=
  e = .finish → c.state.stop = .joining → InspectedSince c.history

theorem told_exact (hI : Tracked c) (hP : ToldBeforeWait c)
    (hnext : (machine clock).next c e = some c') : ToldBeforeWait c' ↔ LeavesToStop c e := by
  by_cases he : e = .finish
  · subst he
    obtain ⟨hclosing, ⟨hstop, hstate⟩ | ⟨hstop, hstate⟩⟩ := finish_cases hnext
    · rw [LeavesToStop, ToldBeforeWait, hstate]
      refine ⟨?_, ?_⟩
      · intro htold _ _
        exact (hI.told_iff hclosing).mp (htold rfl)
      · intro hguard _
        exact (hI.told_iff hclosing).mpr (hguard rfl hstop)
    · -- `capture_loop` is about to send the signal itself
      rw [LeavesToStop, ToldBeforeWait, hstate, hstop]
      exact iff_of_true nofun nofun
  · obtain ⟨out, hstep, hhist⟩ := next_cases hnext
    have htold := told_step he hI.1 hP hstep
    rw [← hhist] at htold
    exact iff_of_true htold fun hfinish => absurd hfinish he

theorem toldBeforeJoin_exact (hI : Tracked c) (hP : ToldBeforeJoin c)
    (hnext : (machine clock).next c e = some c') : ToldBeforeJoin c' ↔ InspectsChild c e := by
  by_cases he : e = .finish
  · subst he
    obtain ⟨hclosing, hcases⟩ := finish_cases hnext
    have hstop : c'.state.stop = c.state.stop := by
      obtain ⟨-, hstate⟩ | ⟨-, hstate⟩ := hcases
      · rw [hstate]
      · rw [hstate]
    rw [InspectsChild, ToldBeforeJoin, hstop]
    refine ⟨?_, ?_⟩
    · intro htold _ hjoining
      -- a `stop()` that joins has requested the stop, so the child is waited for
      have hreq := hI.1.requested (by rw [hjoining]; exact StopPc.noConfusion)
      obtain ⟨-, hstate⟩ | ⟨hnot, -⟩ := hcases
      · have htold' := htold hjoining
        rw [ToldBeforeWait, hstate] at htold'
        exact (hI.told_iff hclosing).mp (htold' rfl)
      · rw [hreq] at hnot
        cases hnot
    · intro hguard hjoining
      have hsent := (hI.told_iff hclosing).mpr (hguard rfl hjoining)
      obtain ⟨-, hstate⟩ | ⟨-, hstate⟩ := hcases
      · rw [ToldBeforeWait, hstate]
        exact fun _ => hsent
      · rw [ToldBeforeWait, hstate]
        exact nofun
  · obtain ⟨out, hstep, hhist⟩ := next_cases hnext
    have htold := toldBeforeJoin_step he hI.1 hP hstep
    rw [← hhist] at htold
    exact iff_of_true htold fun hfinish => absurd hfinish he

/-- **Who tells the child to end.**  In a run of the two threads the child is told before
    `capture_loop` waits for it exactly if, whenever `capture_loop` leaves the signal to
    `stop()`, the section of `stop()` has already run since the publication of the child;
    and `stop()` never joins a thread that waits for an untold child exactly if its
    section does not run before that publication. -/
theorem told_before_wait_iff (clock : Nat → Int) (es : List ThreadEvent)
    (c : EventMachine.Config CameraThreads ThreadOutput)
    (hrun : (machine clock).exec (.start {}) es = some c) :
    ((machine clock).Throughout ToldBeforeWait (.start {}) es ↔
      (machine clock).Guarded LeavesToStop (.start {}) es) ∧
    ((machine clock).Throughout ToldBeforeJoin (.start {}) es ↔
      (machine clock).Guarded InspectsChild (.start {}) es) := by
  refine ⟨?_, ?_⟩
  · exact throughout_iff_guarded (fun _ _ _ hI hnext => tracked_next hI hnext)
      (fun _ _ _ hI hP hnext => told_exact hI hP hnext) tracked_start nofun hrun
  · exact throughout_iff_guarded (fun _ _ _ hI hnext => tracked_next hI hnext)
      (fun _ _ _ hI hP hnext => toldBeforeJoin_exact hI hP hnext) tracked_start nofun hrun

/-- A `stop()` while frames are read: the section finds the published child. -/
def ordinaryStop : List ThreadEvent :=
  [.start, .pipe none, .fork (.ok 7), .publish, .head, .stopCall, .inspect, .read .eof,
    .eofCheck, .finish]

theorem told_before_wait_ordinaryStop :
    ∃ c, (machine fun _ => 0).exec (.start {}) ordinaryStop = some c ∧
      c.state.thread = .waiting ∧
      ((machine fun _ => 0).Throughout ToldBeforeWait (.start {}) ordinaryStop ↔
        (machine fun _ => 0).Guarded LeavesToStop (.start {}) ordinaryStop) ∧
      ((machine fun _ => 0).Throughout ToldBeforeJoin (.start {}) ordinaryStop ↔
        (machine fun _ => 0).Guarded InspectsChild (.start {}) ordinaryStop) :=
  ⟨_, rfl, rfl, told_before_wait_iff (fun _ => 0) ordinaryStop _ rfl⟩

/-! ## A stop before the publication -/

/-- `stop()` joins, `capture_loop` waits, and the child runs on untold. -/
structure Deaf (pid : Int) (s : CameraThreads) : Prop where
  stop : s.stop = .joining
  thread : s.thread = .waiting
  number : s.pid = pid
  child : s.processes pid = some { child := true }

/-- Only the child itself can end this state. -/
theorem Deaf.step {pid : Int} (h : Deaf pid s) (hne : e ≠ .exits pid)
    (hstep : Step clock s e (s', out)) : Deaf pid s' := by
  obtain ⟨hjoin, hwait, hpid, hchild⟩ := h
  have hthread : ∀ pc : LoopPc, s.thread = pc → pc = .waiting := fun pc hpc => hpc.symm.trans hwait
  have howner : ∀ pc : StopPc, s.stop = pc → pc = .joining := fun pc hpc => hpc.symm.trans hjoin
  cases hstep with
  | move hmove =>
      cases hmove with
      | piped h => cases hthread _ h
      | pipeFailed reason h => cases hthread _ h
      | forkFailed reason h => cases hthread _ h
      | reads h hstop => cases hthread _ h
      | closed h => cases hthread _ h
      | leaves h hstop => cases hthread _ h
      | kills h hstop => cases hthread _ h
      | interrupted h => exact ⟨hjoin, rfl, hpid, hchild⟩
  | turn hturn hloop =>
      cases hturn with
      | stopped h hstop => cases hthread _ h
      | data chunk h => cases hthread _ h
      | interrupted h => cases hthread _ h
      | failed reason h => cases hthread _ h
      | eof h => cases hthread _ h
  | started hstop h => cases howner _ hstop
  | alreadyRunning hstop h => cases howner _ hstop
  | nothing hstop h => cases howner _ hstop
  | requested hstop h => cases howner _ hstop
  | killsChild hstop h => cases howner _ hstop
  | noChild hstop h => cases howner _ hstop
  | joined hstop h => cases hthread _ h
  | forked q t h hspawn => cases hthread _ h
  | published h => cases hthread _ h
  | killed h => cases hthread _ h
  | reaped t h hreap =>
      -- the child has not ended, so `waitpid` does not return
      rw [hpid, ProcessTable.reap, hchild] at hreap
      cases hreap
  | cleared h => cases hthread _ h
  | exited q t hexit =>
      have hq : pid ≠ q := fun heq => hne (heq ▸ rfl)
      refine ⟨hjoin, hwait, hpid, ?_⟩
      cases hother : s.processes q with
      | none => rw [ProcessTable.exit, hother] at hexit; cases hexit
      | some p =>
          rw [ProcessTable.exit, hother] at hexit
          obtain ⟨-, heq⟩ := Option.ite_none_left_eq_some.mp hexit
          cases heq
          exact (put_other hq).trans hchild
  | spawned q t hspawn =>
      have hq : pid ≠ q := by
        rintro rfl
        obtain ⟨⟨-, hfree⟩, -⟩ := Option.ite_none_right_eq_some.mp hspawn
        rw [hchild] at hfree
        cases hfree
      obtain ⟨-, heq⟩ := Option.ite_none_right_eq_some.mp hspawn
      cases heq
      exact ⟨hjoin, hwait, hpid, (put_other hq).trans hchild⟩

/-- Nothing that the program does ends it either. -/
theorem Deaf.exec {pid : Int} (h : Deaf pid c.state) (hes : .exits pid ∉ es)
    (hrun : (machine clock).exec c es = some c') : Deaf pid c'.state := by
  refine exec_invariant_mem (I := fun c => Deaf pid c.state) ?_ h hrun
  intro e he c c' hc hnext
  obtain ⟨out, hstep, -⟩ := next_cases hnext
  refine hc.step ?_ hstep
  rintro rfl
  exact hes he

/-- A `stop()` right after `start()`, whose section runs before the child is forked. -/
def earlyStop : List ThreadEvent :=
  [.start, .stopCall, .inspect, .pipe none, .fork (.ok 7), .publish, .head, .finish]

/-- `capture_loop` waits for a child nobody has asked to end, and `stop()` joins it for as
    long as the child does not end by itself. -/
theorem earlyStop_untold :
    ∃ c, (machine fun _ => 0).exec (.start {}) earlyStop = some c ∧
      ¬ ToldBeforeWait c ∧ ¬ ToldBeforeJoin c ∧
      ∀ es c', .exits 7 ∉ es → (machine fun _ => 0).exec c es = some c' →
        c'.state.stop = .joining := by
  refine ⟨_, rfl, ?_, ?_, ?_⟩
  · intro htold
    obtain ⟨p, hp, -, hsignalled⟩ := htold rfl
    cases hp
    cases hsignalled
  · intro htold
    obtain ⟨p, hp, -, hsignalled⟩ := htold rfl rfl
    cases hp
    cases hsignalled
  · intro es c' hes hrun
    exact (Deaf.exec ⟨rfl, rfl, rfl, rfl⟩ hes hrun).stop

/-! ## No signal to a reaped number -/

/-- `waitpid` has returned for the number of the last child exactly at `.reaped`. -/
structure Reaping (c : EventMachine.Config CameraThreads ThreadOutput) : Prop where
  live : c.state.thread.hasChild = true → ¬ Reaped c.state.pid c.history
  gone : c.state.thread = .reaped → Reaped c.state.pid c.history

/-- A step that leaves the child alone. -/
theorem Reaping.keep {h' : List ThreadOutput} (h : Reaping c) (hpid : s'.pid = c.state.pid)
    (hchild : s'.thread.hasChild = true → c.state.thread.hasChild = true)
    (hgone : s'.thread = .reaped → c.state.thread = .reaped)
    (hhist : Reaped c.state.pid h' ↔ Reaped c.state.pid c.history) : Reaping ⟨s', h'⟩ := by
  refine ⟨?_, ?_⟩
  · intro hn
    show ¬ Reaped s'.pid h'
    rw [hpid, hhist]
    exact h.live (hchild hn)
  · intro hn
    show Reaped s'.pid h'
    rw [hpid, hhist]
    exact h.gone (hgone hn)

theorem reaped_concat {pid : Int} {h : List ThreadOutput} {o : ThreadOutput}
    (hfork : isFork pid o = false) (hne : o ≠ .reaped pid) :
    Reaped pid (h ++ [o]) ↔ Reaped pid h := by
  apply reaped_append
  intro o' ho'
  rw [List.mem_singleton.mp ho']
  exact ⟨hfork, hne⟩

theorem reaped_callbacks {pid : Int} {h : List ThreadOutput} (calls : List CaptureOutput) :
    Reaped pid (h ++ calls.map .callback) ↔ Reaped pid h := by
  apply reaped_append
  intro o ho
  obtain ⟨call, -, rfl⟩ := List.mem_map.mp ho
  exact ⟨rfl, ThreadOutput.noConfusion⟩

theorem Move.next_ne_reaped {calls : List CaptureOutput} (h : Move s e next calls) :
    next ≠ .reaped := by
  cases h with
  | _ => exact LoopPc.noConfusion

theorem Turn.next_ne_reaped {read : ReadEvent} (h : Turn s e read next) : next ≠ .reaped := by
  cases h with
  | _ => exact LoopPc.noConfusion

theorem Reaping.step (h : Reaping c) (hstep : Step clock c.state e (s', out)) :
    Reaping ⟨s', c.history ++ out⟩ := by
  cases hstep with
  | move hmove =>
      exact h.keep rfl (fun hn => hmove.hasChild.symm.trans hn)
        (fun hn => absurd hn hmove.next_ne_reaped) (reaped_callbacks _)
  | turn hturn hloop =>
      exact h.keep rfl (fun _ => hturn.hasChild.2) (fun hn => absurd hn hturn.next_ne_reaped)
        (reaped_callbacks _)
  | started hstop hthread => exact ⟨nofun, nofun⟩
  | alreadyRunning hstop hthread =>
      exact h.keep rfl id id (reaped_concat rfl ThreadOutput.noConfusion)
  | nothing hstop hthread => exact h.keep rfl id id (by rw [List.append_nil])
  | requested hstop hthread => exact h.keep rfl id id (by rw [List.append_nil])
  | killsChild hstop hpid =>
      refine h.keep rfl id id ?_
      rw [List.append_cons, reaped_concat rfl ThreadOutput.noConfusion,
        reaped_concat rfl ThreadOutput.noConfusion]
  | noChild hstop hpid =>
      exact h.keep rfl id id (reaped_concat rfl ThreadOutput.noConfusion)
  | joined hstop hthread => exact ⟨nofun, nofun⟩
  | forked pid t hthread hspawn =>
      refine ⟨?_, nofun⟩
      intro _ hreaped
      have hreaped : Reaped pid (c.history ++ [.forked pid]) := hreaped
      have hmark : isFork pid (.forked pid) = true := beq_self_eq_true pid
      rw [Reaped, sinceLast_concat, if_pos hmark] at hreaped
      exact List.not_mem_nil hreaped
  | published hthread =>
      exact h.keep rfl (fun _ => by rw [hthread]; rfl) nofun
        (reaped_concat rfl ThreadOutput.noConfusion)
  | killed hthread =>
      exact h.keep rfl (fun _ => by rw [hthread]; rfl) nofun
        (reaped_concat rfl ThreadOutput.noConfusion)
  | reaped t hthread hreap =>
      -- `waitpid` returns now
      refine ⟨nofun, ?_⟩
      intro _
      show ThreadOutput.reaped c.state.pid ∈ sinceLast (isFork c.state.pid) _
      rw [sinceLast_concat]
      exact List.mem_append_right _ (List.mem_singleton.mpr rfl)
  | cleared hthread => exact ⟨nofun, nofun⟩
  | exited pid t hexit => exact h.keep rfl id id (by rw [List.append_nil])
  | spawned pid t hspawn => exact h.keep rfl id id (by rw [List.append_nil])

/-- `stop()` sends no signal to a number for which `waitpid` has returned. -/
def KillsLive (c : EventMachine.Config CameraThreads ThreadOutput) : Prop :=
  Whenever (fun h o => ∀ pid found, o = .signalled .stop pid found → ¬ Reaped pid h) c.history

/-- What a signal of `stop()` reaches is the child. -/
def HitsChild (c : EventMachine.Config CameraThreads ThreadOutput) : Prop :=
  ∀ pid found, .signalled .stop pid found ∈ c.history → ∃ p, found = some p ∧ p.child = true

/-- The section of `stop()` does not run between the return of `waitpid` and the reset of
    `child_pid_`. -/
def OutsideReaping (c : EventMachine.Config CameraThreads ThreadOutput) (e : ThreadEvent) : Prop :=
  e = .inspect → c.state.thread ≠ .reaped

theorem hasChild_of_published {pc : LoopPc} (h : pc.published = true) (hne : pc ≠ .reaped) :
    pc.hasChild = true := by
  cases pc with
  | reaped => exact absurd rfl hne
  | absent => cases h
  | opening => cases h
  | forking => cases h
  | publishing => cases h
  | ended => cases h
  | _ => rfl

/-- `stop()` sends a signal in its section only, and there to the published number. -/
theorem stop_signals (ho : Owned s) (hstep : Step clock s e (s', out)) :
    ((∀ pid found, .signalled .stop pid found ∉ out) ∧
      (e = .inspect → s.thread.published = false)) ∨
    (e = .inspect ∧ s.thread.published = true ∧
      out = [.signalled .stop s.pid (s.processes s.pid), .inspected]) := by
  cases hstep with
  | killsChild hstop hpid =>
      have hpub := ho.childPid_pos_iff.mp hpid
      rw [ho.published hpub]
      exact .inr ⟨rfl, hpub, rfl⟩
  | noChild hstop hpid =>
      refine .inl ⟨by simp, ?_⟩
      intro _
      by_contra hpub
      exact hpid (ho.childPid_pos_iff.mpr (Bool.of_not_eq_false hpub))
  | move hmove =>
      refine .inl ⟨by simp, ?_⟩
      rintro rfl
      cases hmove
  | turn hturn hloop =>
      refine .inl ⟨by simp, ?_⟩
      rintro rfl
      cases hturn
  | _ => exact .inl ⟨by simp, nofun⟩

/-- `Owned` and `Reaping`, which every step keeps. -/
theorem reaping_next (h : Owned c.state ∧ Reaping c)
    (hnext : (machine clock).next c e = some c') : Owned c'.state ∧ Reaping c' := by
  obtain ⟨out, hstep, hhist⟩ := next_cases hnext
  obtain ⟨howned, hreaping⟩ := h
  have hreaping' := hreaping.step hstep
  rw [← hhist] at hreaping'
  exact ⟨howned.step hstep, hreaping'⟩

theorem killsLive_exact (hI : Owned c.state ∧ Reaping c) (hP : KillsLive c)
    (hnext : (machine clock).next c e = some c') : KillsLive c' ↔ OutsideReaping c e := by
  obtain ⟨out, hstep, hhist⟩ := next_cases hnext
  obtain ⟨howned, hreaping⟩ := hI
  rw [KillsLive, hhist]
  obtain ⟨hnone, hpub⟩ | ⟨rfl, hpub, rfl⟩ := stop_signals howned hstep
  · refine iff_of_true (whenever_append.mpr ⟨hP, ?_⟩) ?_
    · rintro h₁ o h₂ rfl pid found rfl
      exact absurd (List.mem_append_right h₁ List.mem_cons_self) (hnone pid found)
    · intro he hreaped
      have hnot := hpub he
      rw [hreaped] at hnot
      cases hnot
  · rw [List.append_cons, whenever_concat, whenever_concat]
    refine ⟨?_, ?_⟩
    · -- a number that is signalled was not reaped
      rintro ⟨⟨-, hlive⟩, -⟩ _ hreaped
      exact hlive _ _ rfl (hreaping.gone hreaped)
    · intro hguard
      have hchild := hasChild_of_published hpub (hguard rfl)
      refine ⟨⟨hP, ?_⟩, nofun⟩
      rintro pid found ⟨⟩
      exact hreaping.live hchild

/-- Outside that gap the number is the child's. -/
theorem hitsChild_next (howned : Owned c.state) (hP : HitsChild c) (hguard : OutsideReaping c e)
    (hnext : (machine clock).next c e = some c') : HitsChild c' := by
  obtain ⟨out, hstep, hhist⟩ := next_cases hnext
  intro pid found hmem
  rw [hhist, List.mem_append] at hmem
  obtain hold | hnew := hmem
  · exact hP pid found hold
  · obtain ⟨hnone, -⟩ | ⟨he, hpub, rfl⟩ := stop_signals howned hstep
    · exact absurd hnew (hnone pid found)
    · obtain ⟨b, p, hp, hchild, -⟩ := howned.child (hasChild_of_published hpub (hguard he))
      obtain ⟨rfl, rfl⟩ : pid = c.state.pid ∧ found = c.state.processes c.state.pid := by
        simpa using hnew
      exact ⟨p, hp, hchild⟩

/-- **Whom `stop()` signals.**  In a run of the two threads `stop()` signals no number that
    `waitpid` has reaped exactly if its section never runs between the return of `waitpid`
    and the reset of `child_pid_`; and then every signal of `stop()` reaches the child. -/
theorem stop_kills_live_iff (clock : Nat → Int) (es : List ThreadEvent)
    (c : EventMachine.Config CameraThreads ThreadOutput)
    (hrun : (machine clock).exec (.start {}) es = some c) :
    ((machine clock).Throughout KillsLive (.start {}) es ↔
      (machine clock).Guarded OutsideReaping (.start {}) es) ∧
    ((machine clock).Guarded OutsideReaping (.start {}) es →
      (machine clock).Throughout HitsChild (.start {}) es) := by
  have hstart : Owned (.start {} : EventMachine.Config CameraThreads ThreadOutput).state ∧
      Reaping (.start {}) := ⟨owned_start, nofun, nofun⟩
  have hexact := throughout_iff_guarded (P := KillsLive) (fun _ _ _ => reaping_next)
    (fun _ _ _ => killsLive_exact) hstart whenever_nil hrun
  have hboth : ∀ c e c', (Owned c.state ∧ Reaping c) → KillsLive c ∧ HitsChild c →
      (machine clock).next c e = some c' → (KillsLive c' ∧ HitsChild c' ↔ OutsideReaping c e) := by
    intro c e c' hI hP hnext
    have hlive := killsLive_exact hI hP.1 hnext
    refine ⟨fun h => hlive.mp h.1, ?_⟩
    intro hguard
    exact ⟨hlive.mpr hguard, hitsChild_next hI.1 hP.2 hguard hnext⟩
  refine ⟨hexact, ?_⟩
  intro hguard pre mid hpre hmid
  have hall := (throughout_iff_guarded (fun _ _ _ => reaping_next) hboth hstart
    ⟨whenever_nil, nofun⟩ hrun).mpr hguard
  exact (hall pre mid hpre hmid).2

theorem stop_kills_live_ordinaryStop :
    ∃ c, (machine fun _ => 0).exec (.start {}) ordinaryStop = some c ∧
      .signalled .stop 7 (some { child := true }) ∈ c.history ∧
      ((machine fun _ => 0).Throughout KillsLive (.start {}) ordinaryStop ↔
        (machine fun _ => 0).Guarded OutsideReaping (.start {}) ordinaryStop) ∧
      ((machine fun _ => 0).Guarded OutsideReaping (.start {}) ordinaryStop →
        (machine fun _ => 0).Throughout HitsChild (.start {}) ordinaryStop) :=
  ⟨_, rfl, List.mem_cons_of_mem _ (List.mem_cons_of_mem _ List.mem_cons_self),
    stop_kills_live_iff (fun _ => 0) ordinaryStop _ rfl⟩

/-- The camera ends by itself; its number is freed and taken by somebody else before the
    section of `stop()` runs. -/
def lateStop : List ThreadEvent :=
  [.start, .pipe none, .fork (.ok 7), .publish, .head, .exits 7, .read .eof, .eofCheck,
    .finish, .kill, .stopCall, .wait false, .spawns 7, .inspect]

/-- The signal of `stop()` goes to a number that was reaped, and hits a process that has
    nothing to do with the camera. -/
theorem lateStop_kills_reaped :
    ∃ c, (machine fun _ => 0).exec (.start {}) lateStop = some c ∧
      ¬ KillsLive c ∧ .signalled .stop 7 (some { child := false }) ∈ c.history := by
  refine ⟨_, rfl, ?_, by simp [ProcessTable.put]⟩
  intro hlive
  refine hlive
    [.forked 7, .published, .callback (.onError closedMessage),
      .signalled .captureLoop 7 (some { child := true, exited := true }), .reaped 7]
    (.signalled .stop 7 (some { child := false })) [.inspected] rfl _ _ rfl ?_
  show ThreadOutput.reaped 7 ∈ sinceLast (isFork 7) _
  simp [sinceLast, isFork]

end CameraStream.Client.CameraThreads
