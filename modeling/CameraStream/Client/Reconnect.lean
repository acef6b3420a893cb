/-
  CameraStream.Client.Reconnect

  What the reconnect loop of `Application::run` does to its backoff, over whole
  runs of the three threads.

  `Effect` sorts the steps by what they do to the backoff and to the
  authentication: most do nothing to either.  With it the loop is an instance of
  the retry loop of CameraStream.Lib.RetryLoop (`next_retry`), whose law it
  inherits (`retryLaw_of_run`).  `reconnect_backoff` states it for the outputs of the
  application.
-/

import CameraStream.Client.ApplicationSteps
import CameraStream.Lib.RetryLoop

namespace CameraStream.Client

/-- The phase of the retry loop that `disconnect()` is called in. -/
def AfterDisconnect.phase : AfterDisconnect → RetryPhase
  | .delay => .failed
  | _ => .trying

/-- The phase of the retry loop in which the main thread stands. -/
def Pc.phase : Pc → RetryPhase
  -- the delay after an exception comes once `disconnect()` has returned
  | .closingWrite next | .closing next => next.phase
  | .delaying => .failed
  | .sleeping => .waiting
  | _ => .trying

theorem Pc.Reading.phase {pc : Pc} (h : pc.Reading) : pc.phase = .trying := by
  cases h <;> rfl

theorem Pc.Writing.phase {pc : Pc} (h : pc.Writing) : pc.phase = .trying := by
  cases h <;> rfl

namespace Application

open EventMachine

variable {parse : Bytes → Option JsonValue} {a b : Application} {e : Event} {out : List Output}
  {cfg cfg' : EventMachine.Config Application Output} {es : List Event}

/-! ## The retry loop in the application -/

/-- The backoff in milliseconds, with the phase. -/
def retry (a : Application) : RetryLoop := ⟨a.backoff * 1000, a.main.phase⟩

def retryPolicy : RetryPolicy where
  initial := 1000
  cap := maximumBackoff * 1000
  jitter := maximumJitter
  initial_le := by decide

/-- The outputs that concern the loop. -/
def signal : Output → Option RetryLoop.Signal
  | .connected => some .succeeded
  | .caught => some .failed
  | .waiting duration => some (.waits duration)
  | _ => none

/-- A configuration as the retry loop sees it. -/
def retryConfig (cfg : EventMachine.Config Application Output) :
    EventMachine.Config RetryLoop RetryLoop.Signal :=
  ⟨cfg.state.retry, cfg.history.filterMap signal⟩

/-! ## What a step does to the loop -/

/-- The event delivers the namespace approval to `connect`. -/
def ReadsApproval (a : Application) : Event → Prop
  | .read m => a.main = .readingNamespace ∧ m.isApproval = true
  | _ => False

theorem not_readsApproval (hmain : a.main ≠ .readingNamespace) : ¬ ReadsApproval a e := by
  intro hread
  cases e with
  | read m => exact hmain hread.1
  | _ => exact hread

/-- The outcomes of a step, by what they do to the backoff and the authentication. -/
inductive Effect (a : Application) (e : Event) (r : Application × List Output) : Prop where
  | quiet (hread : ¬ ReadsApproval a e) (hretry : r.1.retry = a.retry)
      (hout : r.2.filterMap signal = [])
      (hauth : r.1.socket.authenticated = true → a.socket.authenticated = true)
  | connects (hread : ReadsApproval a e) (hphase : a.main.phase = .trying)
      (hretry : r.1.retry = ⟨1000, .trying⟩) (hout : r.2.filterMap signal = [.succeeded])
  | fails (hread : ¬ ReadsApproval a e) (hphase : a.main.phase = .trying)
      (hretry : r.1.retry = ⟨a.backoff * 1000, .failed⟩) (hout : r.2.filterMap signal = [.failed])
      (hauth : r.1.socket.authenticated = false)
  | waits (hread : ¬ ReadsApproval a e) (jitter : Nat) (hjitter : jitter ≤ maximumJitter)
      (hphase : a.main.phase = .failed) (hretry : r.1.retry = ⟨a.backoff * 1000, .waiting⟩)
      (hout : r.2.filterMap signal = [.waits (a.backoff * 1000 + jitter)])
      (hauth : r.1.socket.authenticated = a.socket.authenticated)
  | wakes (hread : ¬ ReadsApproval a e) (hphase : a.main.phase = .waiting)
      (hretry : r.1.retry = ⟨min (a.backoff * 2) maximumBackoff * 1000, .trying⟩)
      (hout : r.2.filterMap signal = []) (hauth : r.1.socket.authenticated = a.socket.authenticated)

/-! ## The calls that throw -/

/-- `disconnect()` from the `catch` leaves the loop in its failed phase. -/
theorem disconnect_delay (b : Application) :
    (b.disconnect .delay).1.retry = ⟨b.backoff * 1000, .failed⟩ ∧
      (b.disconnect .delay).2 = [] ∧ (b.disconnect .delay).1.socket.authenticated = false := by
  -- an open stream is told first; the delay comes after that in both cases
  by_cases hopen : b.socket.socket = some true
  · simp [disconnect, hopen, retry, Pc.phase, AfterDisconnect.phase]
  · simp [disconnect, hopen, resumeAfter, dropSocket, retry, Pc.phase]

/-- An exception inside the loop, after the outputs `out` of the same step. -/
theorem effect_raise (out : List Output) (hread : ¬ ReadsApproval a e)
    (hphase : a.main.phase = .trying) (hbackoff : b.backoff = a.backoff)
    (hquiet : out.filterMap signal = []) : Effect a e (b.raise.1, out ++ b.raise.2) := by
  obtain ⟨hretry, hout, hauth⟩ := disconnect_delay b
  refine .fails hread hphase ?_ ?_ hauth
  · show (b.disconnect .delay).1.retry = _
    rw [hretry, hbackoff]
  · show (out ++ .caught :: (b.disconnect .delay).2).filterMap signal = _
    rw [hout, List.filterMap_append, hquiet]
    rfl

/-- The return of `disconnect()`; `connect` may throw right after it. -/
theorem effect_resume (next : AfterDisconnect) (hread : ¬ ReadsApproval a e)
    (hphase : a.main.phase = next.phase) (hbackoff : b.backoff = a.backoff) :
    Effect a e (b.dropSocket.resumeAfter next) := by
  have hquiet : ∀ pc : Pc, pc.phase = next.phase →
      Effect a e ({ b.dropSocket with main := pc }, []) := by
    intro pc hpc
    refine .quiet hread ?_ rfl (by simp [dropSocket])
    simp [retry, dropSocket, hbackoff, hphase, hpc]
  cases next with
  | connect =>
      -- `parse_server_url` is the first call behind `disconnect()` that can throw
      cases hurl : parseServerUrl b.config.serverUrl with
      | some endpoint => simpa [resumeAfter, dropSocket, hurl] using hquiet .resolving rfl
      | none =>
          refine .fails hread hphase ?_ ?_ ?_
          · simp [resumeAfter, dropSocket, hurl, retry, hbackoff, Pc.phase]
          · simp [resumeAfter, dropSocket, hurl, signal]
          · simp [resumeAfter, dropSocket, hurl]
  | delay => exact hquiet .delaying rfl
  | finish => exact hquiet .joining rfl

/-- `disconnect()` outside the `catch`. -/
theorem effect_disconnect (next : AfterDisconnect) (hread : ¬ ReadsApproval a e)
    (hphase : a.main.phase = next.phase) (hbackoff : b.backoff = a.backoff) :
    Effect a e (b.disconnect next) := by
  by_cases hopen : b.socket.socket = some true
  · rw [disconnect, if_pos hopen]
    refine .quiet hread ?_ rfl (by simp)
    rw [retry, retry, hphase, ← hbackoff]
    rfl
  · rw [disconnect, if_neg hopen]
    exact effect_resume next hread hphase hbackoff

/-! ## The steps -/

/-- A ping is not an approval. -/
theorem not_readsApproval_of_isPing {m : Message} (hping : m.isPing = true) :
    ¬ ReadsApproval a (.read m) := by
  intro hread
  rw [isPing_of_isApproval hread.2] at hping
  cases hping

theorem Goto.quiet {pc : Pc} (h : Goto a e pc out) :
    ¬ ReadsApproval a e ∧ pc.phase = a.main.phase ∧ out.filterMap signal = [] := by
  cases h with
  | namespacePing hmain hping =>
      exact ⟨not_readsApproval_of_isPing hping, by rw [hmain]; rfl, rfl⟩
  | namespaceSkipped hmain _ happroval =>
      -- the only read at this place that could have been the approval
      refine ⟨fun hread => ?_, by rw [hmain], rfl⟩
      rw [hread.2] at happroval
      cases happroval
  | _ hmain => exact ⟨not_readsApproval (by simp [hmain]), by simp [hmain, Pc.phase], rfl⟩

/-- Every exception starts from the trying phase. -/
theorem Raises.quiet (h : Raises parse a e b out) :
    ¬ ReadsApproval a e ∧ a.main.phase = .trying ∧ b.backoff = a.backoff ∧
      out.filterMap signal = [] := by
  cases h with
  | refused hmain happroval herror =>
      refine ⟨fun hread => ?_, by rw [hmain]; rfl, rfl, rfl⟩
      rw [hread.2] at happroval
      cases happroval
  | read hmain => exact ⟨id, hmain.phase, rfl, rfl⟩
  | write hmain => exact ⟨id, hmain.phase, rfl, rfl⟩
  | _ hmain => exact ⟨not_readsApproval (by simp [hmain]), by rw [hmain]; rfl, rfl, rfl⟩

/-- The capture thread reads no messages. -/
theorem not_readsApproval_of_capture (h : a.captureStep e = some b) : ¬ ReadsApproval a e := by
  intro hread
  cases e with
  | read m => cases h
  | _ => exact hread

/-- **Every step** does to the backoff and the authentication what `Effect` lists. -/
theorem step_effect {r : Application × List Output} (h : a.step parse e = some r) :
    Effect a e r := by
  cases step_cases h with
  | goto pc hgoto =>
      obtain ⟨hread, hphase, hout⟩ := hgoto.quiet
      exact .quiet hread (by rw [retry, retry, hphase]) hout id
  | raises b hraises =>
      obtain ⟨hread, hphase, hbackoff, hout⟩ := hraises.quiet
      exact effect_raise _ hread hphase hbackoff hout
  -- `disconnect` is no business of the backoff, wherever it is called from
  | stops hmain _ => exact effect_disconnect .finish id (by rw [hmain]; rfl) rfl
  | connects hmain _ _ => exact effect_disconnect .connect id (by rw [hmain]; rfl) rfl
  | left next hmain => exact effect_resume next id (by rw [hmain]; rfl) rfl
  | leftAtOnce isOpen next hmain => exact effect_resume next id (by rw [hmain]; rfl) rfl
  | resolved hmain => exact .quiet id (by rw [retry, retry, hmain]; rfl) rfl id
  | handshaken hmain => exact .quiet id (by rw [retry, retry, hmain]; rfl) rfl id
  | approved m hmain happroval =>
      exact .connects ⟨hmain, happroval⟩ (by rw [hmain]; rfl) (by simp [retry, Pc.phase]) rfl
  | noFrame frames hmain _ => exact .quiet id (by rw [retry, retry, hmain]; rfl) rfl id
  | sends frames frame hmain _ _ _ _ => exact .quiet id (by rw [retry, retry, hmain]; rfl) rfl id
  | acked m frame ackId ack hmain _ _ =>
      exact .quiet (not_readsApproval (by simp [hmain])) (by rw [retry, retry, hmain]; rfl) rfl id
  | delayed jitter hmain hjitter =>
      exact .waits id jitter hjitter (by rw [hmain]; rfl) rfl rfl rfl
  | slept hmain => exact .wakes id (by rw [hmain]; rfl) rfl rfl rfl
  | capture b _ hcapture =>
      obtain ⟨-, hsocket, hbackoff, hmain⟩ := captureStep_frame hcapture
      refine .quiet (not_readsApproval_of_capture hcapture) ?_ rfl fun hauth => hsocket ▸ hauth
      rw [retry, retry, hbackoff, hmain]
  | stopSignal => exact .quiet id rfl rfl id

/-! ## Runs -/

/-- A step of the application is a run of the retry loop, of one move or none. -/
theorem next_retry (h : (machine parse).next cfg e = some cfg') :
    ∃ moves, (RetryLoop.machine retryPolicy).exec (retryConfig cfg) moves =
      some (retryConfig cfg') := by
  obtain ⟨out, hstep, hhist⟩ := next_eq_some h
  -- one move of the loop gives the state and the signals of the step
  have hmove : ∀ m s signals,
      (RetryLoop.machine retryPolicy).step (retryConfig cfg).state m = some (s, signals) →
      cfg'.state.retry = s → out.filterMap signal = signals →
      ∃ moves, (RetryLoop.machine retryPolicy).exec (retryConfig cfg) moves =
        some (retryConfig cfg') := by
    intro m s signals hm hs hout
    refine ⟨[m], ?_⟩
    rw [exec_cons, next_of_step hm, Option.bind_some, exec_nil, retryConfig, retryConfig, hs,
      hhist, List.filterMap_append, hout]
  cases step_effect hstep with
  | quiet _ hretry hout _ =>
      refine ⟨[], ?_⟩
      rw [exec_nil, retryConfig, retryConfig, hretry, hhist, List.filterMap_append, hout,
        List.append_nil]
  | connects _ hphase hretry hout =>
      exact hmove .succeed _ _
        (by simp [RetryLoop.machine, RetryLoop.step, retryConfig, retry, hphase, retryPolicy])
        hretry hout
  | fails _ hphase hretry hout _ =>
      exact hmove .fail _ _
        (by simp [RetryLoop.machine, RetryLoop.step, retryConfig, retry, hphase]) hretry hout
  | waits _ jitter hjitter hphase hretry hout _ =>
      exact hmove (.wait jitter) _ _
        (by simp [RetryLoop.machine, RetryLoop.step, retryConfig, retry, hphase, retryPolicy,
          hjitter])
        hretry hout
  | wakes _ hphase hretry hout _ =>
      -- the application counts in seconds, the loop in milliseconds
      have hcap : min (cfg.state.backoff * 2) maximumBackoff * 1000 =
          min (cfg.state.backoff * 1000 * 2) (maximumBackoff * 1000) := by omega
      rw [hcap] at hretry
      exact hmove .wake _ _
        (by simp [RetryLoop.machine, RetryLoop.step, retryConfig, retry, hphase, retryPolicy])
        hretry hout

/-- The law of the retry loop, for the backoff of the application. -/
def RetryLaw (cfg : EventMachine.Config Application Output) : Prop :=
  RetryLoop.Law retryPolicy (retryConfig cfg)

theorem retryLaw_start (config : Config) : RetryLaw (.start { config := config }) := by
  -- one second is both the first backoff and the initial delay
  have hstart : retryConfig (.start { config := config }) = .start ⟨1000, .trying⟩ := by
    simp [retryConfig, retry, EventMachine.Config.start, Pc.phase]
  rw [RetryLaw, hstart]
  exact RetryLoop.law_start retryPolicy

theorem retryLaw_next (hlaw : RetryLaw cfg) (h : (machine parse).next cfg e = some cfg') :
    RetryLaw cfg' := by
  obtain ⟨moves, hmoves⟩ := next_retry h
  exact RetryLoop.law_of_run hlaw hmoves

/-- Every run keeps the law. -/
theorem retryLaw_of_run (hlaw : RetryLaw cfg) (hrun : (machine parse).exec cfg es = some cfg') :
    RetryLaw cfg' :=
  exec_invariant (fun _ _ _ => retryLaw_next) hlaw hrun

theorem succeeded_mem_iff {history : List Output} :
    .succeeded ∈ history.filterMap signal ↔ .connected ∈ history := by
  rw [List.mem_filterMap]
  refine ⟨?_, ?_⟩
  · rintro ⟨o, ho, hsignal⟩
    cases o <;> first | exact ho | cases hsignal
  · exact fun h => ⟨_, h, rfl⟩

theorem waiting_of_signal {o : Output} {duration : Nat} (h : signal o = some (.waits duration)) :
    o = .waiting duration := by
  cases o with
  | waiting duration' =>
      cases h
      rfl
  | _ => cases h

/-! ## The backoff -/

/-- The outputs since the last successful connect. -/
def streak (history : List Output) : List Output :=
  sinceLast (fun o => match o with | .connected => true | _ => false) history

/-- The exceptions since the last successful connect, or since the start. -/
def exceptions (history : List Output) : Nat :=
  (streak history).countP fun o => match o with | .caught => true | _ => false

theorem exceptions_eq_failuresSince (history : List Output) :
    exceptions history = RetryLoop.failuresSince (history.filterMap signal) := by
  induction history using List.reverseRecOn with
  | nil => rfl
  | append_singleton history o ih =>
      rw [exceptions, streak, sinceLast_concat, List.filterMap_append]
      rw [exceptions, streak] at ih
      cases o with
      | connected => simp [signal]
      | caught => simp [signal, ih]
      | waiting duration => simp [signal, ih]
      | _ =>
          rw [List.filterMap_cons_none rfl, List.filterMap_nil, List.append_nil]
          simpa using ih

/-- The waits since the last successful connect, or since the start. -/
def streakWaits (history : List Output) : Nat :=
  (streak history).countP fun o => match o with | .waiting _ => true | _ => false

theorem streakWaits_eq_waitsSince (history : List Output) :
    streakWaits history = (RetryLoop.waitsSince (history.filterMap signal)).length := by
  induction history using List.reverseRecOn with
  | nil => rfl
  | append_singleton history o ih =>
      rw [streakWaits, streak, sinceLast_concat, List.filterMap_append]
      rw [streakWaits, streak] at ih
      cases o with
      | connected => simp [signal]
      | caught => simp [signal, ih]
      | waiting duration => simp [signal, ih]
      | _ =>
          rw [List.filterMap_cons_none rfl, List.filterMap_nil, List.append_nil]
          simpa using ih

/-- Only the exception whose `catch` the main thread is in has not led to its wait. -/
theorem exceptions_eq_streakWaits (hlaw : RetryLaw cfg) :
    exceptions cfg.history =
      streakWaits cfg.history + if cfg.state.main.phase = .failed then 1 else 0 := by
  have hfailures := hlaw.failures
  rw [exceptions_eq_failuresSince, streakWaits_eq_waitsSince]
  refine hfailures.trans ?_
  congr 1
  show RetryLoop.pending cfg.state.main.phase = _
  cases cfg.state.main.phase with
  | failed => rfl
  | trying | waiting => rfl

/-- The backoff is a power of two of seconds, up to its maximum. -/
theorem backoff_eq (hlaw : RetryLaw cfg) : ∃ k, cfg.state.backoff = min (2 ^ k) maximumBackoff ∧
    (cfg.state.main.phase = .failed → exceptions cfg.history = k + 1) := by
  have hdelay := hlaw.delay
  simp only [RetryLoop.backoff, retryPolicy, retryConfig, retry] at hdelay
  refine ⟨RetryLoop.served cfg.state.retry (cfg.history.filterMap signal), ?_, ?_⟩
  · simp only [retry] at hdelay ⊢
    omega
  · -- in the failed phase the last exception has not been waited for yet
    intro hphase
    have hfailures := hlaw.failures
    rw [exceptions_eq_failuresSince]
    simpa [retryConfig, retry, hphase, RetryLoop.pending, RetryLoop.served] using hfailures

theorem backoff_bounds (hlaw : RetryLaw cfg) :
    1 ≤ cfg.state.backoff ∧ cfg.state.backoff ≤ maximumBackoff := by
  obtain ⟨k, hbackoff, -⟩ := backoff_eq hlaw
  have hpos : 1 ≤ 2 ^ k := Nat.one_le_two_pow
  have hmax : 1 ≤ maximumBackoff := by decide
  omega

/-- A step emits a wait only with the delay of the streak. -/
theorem waits_of_next (hlaw : RetryLaw cfg) (h : (machine parse).next cfg e = some cfg')
    (hhist : cfg'.history = cfg.history ++ out) :
    Whenever (fun before o => ∀ duration, o = .waiting duration → ∃ jitter ≤ maximumJitter,
      1 ≤ exceptions (cfg.history ++ before) ∧
      duration =
        min (2 ^ (exceptions (cfg.history ++ before) - 1)) maximumBackoff * 1000 + jitter) out := by
  obtain ⟨out', hstep, hhist'⟩ := next_eq_some h
  obtain rfl := List.append_cancel_left (hhist.symm.trans hhist')
  rintro before _ after hsplit duration rfl
  -- the signals of the step are those before the wait, the wait, and those behind it
  have hsignals : out.filterMap signal =
      before.filterMap signal ++ .waits duration :: after.filterMap signal := by
    rw [hsplit, List.filterMap_append]
    rfl
  have hother : .waits duration ∉ out.filterMap signal → False := fun hnot =>
    hnot (hsignals ▸ List.mem_append_right _ List.mem_cons_self)
  cases step_effect hstep with
  | quiet hread hretry hout hauth => exact (hother (by simp [hout])).elim
  | connects hread hphase hretry hout => exact (hother (by simp [hout])).elim
  | fails hread hphase hretry hout hauth => exact (hother (by simp [hout])).elim
  | wakes hread hphase hretry hout hauth => exact (hother (by simp [hout])).elim
  | waits hread jitter hjitter hphase hretry hout hauth =>
      obtain ⟨k, hbackoff, hcount⟩ := backoff_eq hlaw
      have hone := hout.symm.trans hsignals
      obtain ⟨hnone, hduration⟩ : before.filterMap signal = [] ∧
          cfg.state.backoff * 1000 + jitter = duration := by
        cases hbefore : before.filterMap signal with
        | nil =>
            rw [hbefore] at hone
            simpa using (List.cons.inj hone).1
        | cons o rest =>
            rw [hbefore] at hone
            simp at hone
      have hexceptions : exceptions (cfg.history ++ before) = k + 1 := by
        rw [exceptions_eq_failuresSince, List.filterMap_append, hnone, List.append_nil,
          ← exceptions_eq_failuresSince, hcount hphase]
      rw [hexceptions, Nat.add_sub_cancel, ← hbackoff]
      exact ⟨jitter, hjitter, by omega, hduration.symm⟩

/-- How a step moves the backoff. -/
theorem backoff_next (hlaw : RetryLaw cfg) (h : (machine parse).next cfg e = some cfg')
    (hhist : cfg'.history = cfg.history ++ out) :
    (.connected ∈ out → cfg'.state.backoff = 1) ∧
      (.connected ∉ out → cfg.state.backoff ≤ cfg'.state.backoff) := by
  obtain ⟨out', hstep, hhist'⟩ := next_eq_some h
  obtain rfl := List.append_cancel_left (hhist.symm.trans hhist')
  have hsame : ∀ {phase}, .succeeded ∉ out.filterMap signal →
      cfg'.state.retry = ⟨cfg.state.backoff * 1000, phase⟩ →
      (.connected ∈ out → cfg'.state.backoff = 1) ∧
        (.connected ∉ out → cfg.state.backoff ≤ cfg'.state.backoff) := by
    intro phase hnone hretry
    have hbackoff : cfg'.state.backoff * 1000 = cfg.state.backoff * 1000 :=
      congrArg RetryLoop.delay hretry
    exact ⟨fun hmem => absurd (succeeded_mem_iff.mpr hmem) hnone, fun _ => by omega⟩
  cases step_effect hstep with
  | quiet hread hretry hout hauth => exact hsame (by simp [hout]) hretry
  | fails hread hphase hretry hout hauth => exact hsame (by simp [hout]) hretry
  | waits hread jitter hjitter hphase hretry hout hauth => exact hsame (by simp [hout]) hretry
  | connects hread hphase hretry hout =>
      have hbackoff : cfg'.state.backoff * 1000 = 1000 := congrArg RetryLoop.delay hretry
      have hmem : .connected ∈ out := succeeded_mem_iff.mp (by simp [hout])
      exact ⟨fun _ => by omega, fun hnot => absurd hmem hnot⟩
  | wakes hread hphase hretry hout hauth =>
      -- the doubling, up to the maximum that the backoff has not passed
      have hbackoff : cfg'.state.backoff * 1000 =
          min (cfg.state.backoff * 2) maximumBackoff * 1000 := congrArg RetryLoop.delay hretry
      have hbounds := backoff_bounds hlaw
      refine ⟨fun hmem => ?_, fun _ => by omega⟩
      have hsucceeded := succeeded_mem_iff.mpr hmem
      rw [hout] at hsucceeded
      cases hsucceeded

/-- **The backoff law.** In every run, the delay after the j-th exception since the last
    successful connect is `min (2 ^ (j - 1)) 30` seconds and a jitter of at most 250 ms, and
    every exception has had its wait by the time the main thread leaves its `catch`.
    The backoff stays between 1 and 30 seconds; a successful connect sets it to 1, and no
    other step lowers it. -/
theorem reconnect_backoff {config : Config}
    (hrun : (machine parse).exec (.start { config := config }) es = some cfg) :
    Whenever (fun before o => ∀ duration, o = .waiting duration → ∃ jitter ≤ 250,
      1 ≤ exceptions before ∧ duration = min (2 ^ (exceptions before - 1)) 30 * 1000 + jitter)
      cfg.history ∧
    (exceptions cfg.history =
      streakWaits cfg.history + if cfg.state.main.phase = .failed then 1 else 0) ∧
    (1 ≤ cfg.state.backoff ∧ cfg.state.backoff ≤ 30) ∧
    ∀ e cfg' out, (machine parse).next cfg e = some cfg' → cfg'.history = cfg.history ++ out →
      (.connected ∈ out → cfg'.state.backoff = 1) ∧
        (.connected ∉ out → cfg.state.backoff ≤ cfg'.state.backoff) := by
  have hlaw : RetryLaw cfg := retryLaw_of_run (retryLaw_start config) hrun
  refine ⟨?_, exceptions_eq_streakWaits hlaw, backoff_bounds hlaw,
    fun e cfg' out hnext hhist => backoff_next hlaw hnext hhist⟩
  exact exec_whenever (fun _ _ _ => retryLaw_next)
    (fun c e c' out hlaw hnext hhist => waits_of_next hlaw hnext hhist) (retryLaw_start config)
    whenever_nil hrun

/-- Three failures to resolve the host, with jitters 7, 0 and 250. -/
def unresolvedRun : List Event :=
  [.started true, .turn, .resolved false, .delayed 7, .slept, .turn, .resolved false,
    .delayed 0, .slept, .turn, .resolved false, .delayed 250]

theorem unresolved_reconnect_backoff : ∃ cfg before,
    (machine parseSample).exec (.start { config := sampleConfig }) unresolvedRun = some cfg ∧
      cfg.history = before ++ [.waiting 4250] ∧
      (∃ jitter ≤ 250, 4250 = min (2 ^ (exceptions before - 1)) 30 * 1000 + jitter) ∧
      exceptions cfg.history =
        streakWaits cfg.history + if cfg.state.main.phase = .failed then 1 else 0 := by
  have hany : ((machine parseSample).exec (.start { config := sampleConfig }) unresolvedRun).any
      (fun cfg => cfg.history.getLast?.bind signal = some (.waits 4250)) = true := by
    decide +kernel
  obtain ⟨cfg, hrun, hsignal⟩ := (Option.any_eq_true _ _).mp hany
  obtain ⟨o, hlast, hwaits⟩ := Option.bind_eq_some_iff.mp (of_decide_eq_true hsignal)
  obtain rfl := waiting_of_signal hwaits
  obtain ⟨before, hsplit⟩ := List.getLast?_eq_some_iff.mp hlast
  obtain ⟨hdelays, hserved, -⟩ := reconnect_backoff hrun
  obtain ⟨jitter, hjitter, -, hduration⟩ := hdelays before _ [] hsplit 4250 rfl
  exact ⟨cfg, before, hrun, hsplit, ⟨jitter, hjitter, hduration⟩, hserved⟩

/-! ## Clients that never connect -/

/-- The delays of the run in milliseconds, oldest first. -/
def waits (history : List Output) : List Nat :=
  history.filterMap fun o =>
    match o with
    | .waiting duration => some duration
    | _ => none

theorem waits_eq_allWaits (history : List Output) :
    waits history = RetryLoop.allWaits (history.filterMap signal) := by
  rw [waits, RetryLoop.allWaits, List.filterMap_filterMap]
  congr 1
  funext o
  cases o <;> rfl

/-- The client has not been authenticated so far: `connect` has not returned, and the
    k-th delay (from 0) is that of the k-th failure in a row. -/
structure NeverAuthenticated (cfg : EventMachine.Config Application Output) : Prop where
  authenticated : cfg.state.socket.authenticated = false
  connected : .connected ∉ cfg.history
  delays : ∀ k d, (waits cfg.history)[k]? = some d → min (2 ^ k) 30 * 1000 ≤ d

theorem delays_of_law (hlaw : RetryLaw cfg) (hconnected : .connected ∉ cfg.history) {k d : Nat}
    (hk : (waits cfg.history)[k]? = some d) : min (2 ^ k) 30 * 1000 ≤ d := by
  have hnever : RetryLoop.Signal.succeeded ∉ (retryConfig cfg).history := by
    intro h
    exact hconnected (succeeded_mem_iff.mp h)
  rw [waits_eq_allWaits] at hk
  have hdelay : min (1000 * 2 ^ k) (30 * 1000) ≤ d := (hlaw.allWaits hnever hk).1
  omega

theorem neverAuthenticated_start (config : Config) :
    NeverAuthenticated (.start { config := config }) where
  authenticated := rfl
  connected := by simp
  delays := by simp [waits]

/-- One step authenticates the client exactly when it delivers the approval. -/
theorem neverAuthenticated_next (hlaw : RetryLaw cfg) (hnever : NeverAuthenticated cfg)
    (h : (machine parse).next cfg e = some cfg') :
    NeverAuthenticated cfg' ↔ ¬ ReadsApproval cfg.state e := by
  have hlaw' := retryLaw_next hlaw h
  obtain ⟨out, hstep, hhist⟩ := next_eq_some h
  -- a step that does not connect keeps the client out
  have hkeep : (cfg'.state.socket.authenticated = true → cfg.state.socket.authenticated = true) →
      .succeeded ∉ out.filterMap signal → NeverAuthenticated cfg' := by
    intro hauth hout
    have hconnected : .connected ∉ cfg'.history := by
      rw [hhist, List.mem_append, not_or]
      exact ⟨hnever.connected, fun hmem => hout (succeeded_mem_iff.mpr hmem)⟩
    refine ⟨?_, hconnected, fun k d => delays_of_law hlaw' hconnected⟩
    rw [Bool.eq_false_iff]
    intro htrue
    rw [hnever.authenticated] at hauth
    cases hauth htrue
  cases step_effect hstep with
  | quiet hread hretry hout hauth =>
      exact iff_of_true (hkeep hauth (by simp [hout])) hread
  | connects hread hphase hretry hout =>
      refine iff_of_false (fun hnever' => ?_) (not_not_intro hread)
      have hmem : .connected ∈ out := succeeded_mem_iff.mp (by simp [hout])
      exact hnever'.connected (hhist ▸ List.mem_append_right _ hmem)
  | fails hread hphase hretry hout hauth =>
      refine iff_of_true (hkeep (fun htrue => ?_) (by simp [hout])) hread
      rw [hauth] at htrue
      cases htrue
  | waits hread jitter hjitter hphase hretry hout hauth =>
      exact iff_of_true (hkeep (fun htrue => hauth ▸ htrue) (by simp [hout])) hread
  | wakes hread hphase hretry hout hauth =>
      exact iff_of_true (hkeep (fun htrue => hauth ▸ htrue) (by simp [hout])) hread

end Application

end CameraStream.Client
