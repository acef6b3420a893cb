/-
  CameraStream.Client.FrameCalls

  What becomes of the calls of `SocketIoClient::send_frame`, over all the connections that
  `Application::run` opens.

    * `calling_run` — each call writes at most one descriptor, on one connection and in the
                      order of the calls; a frame is never sent again;
    * `kept_run`    — the ACK of the frame that is waited for stays on its connection until
                      it is read;
    * `alternating_run` — a frame is described when all earlier ones of its connection have
                      been answered.
-/

import CameraStream.Client.AckCorrelation

namespace CameraStream.Client

open EventMachine

namespace AckSystem

/-- The frames that `send_frame` has been called for. -/
def calls (h : List Output) : List Frame :=
  h.filterMap fun
    | .called frame => some frame
    | _ => none

/-- The frames whose descriptors have been handed to a stream, connection by connection. -/
def written (s : AckSystem) : List Frame :=
  (List.range (s.opened + 1)).flatMap fun k => (s.connections k).descriptors.map Prod.fst

/-- Every descriptor belongs to a call of its own. -/
structure Calling (s : AckSystem) (h : List Output) : Prop where
  once : s.written.Sublist (calls h)
  /-- The last call has not written yet. -/
  writing : ∀ frame ackId, s.client.main = .writingDescriptor frame ackId →
    ∃ before, calls h = before ++ [frame] ∧ s.written.Sublist before

/-- An answer is that of a received descriptor, and the one that is waited for is on its
    way. -/
structure Kept (s : AckSystem) : Prop where
  bound : ∀ k, ∀ x ∈ (s.connections k).answered, x.1 < (s.connections k).received
  waits : ∀ sent, s.client.phase.outstanding = some sent →
    s.current.descriptors.length - 1 ∈ s.current.answered.map Prod.fst →
      s.current.descriptors.length - 1 ∈ s.current.underway

variable {parse : Bytes → Option JsonValue} {s s' : AckSystem} {h out : List Output}
  {config : Config} {es : List Event} {cfg : EventMachine.Config AckSystem Output}

/-! ## Calls and descriptors -/

@[simp] theorem calls_append (h h' : List Output) : calls (h ++ h') = calls h ++ calls h' :=
  List.filterMap_append

theorem calls_eq_nil (hquiet : ∀ frame, .called frame ∉ out) : calls out = [] := by
  refine List.filterMap_eq_nil_iff.mpr fun o ho => ?_
  cases o with
  | called frame => exact absurd ho (hquiet frame)
  | _ => rfl

/-- The connections before the last one, and the last one. -/
theorem written_eq (s : AckSystem) :
    s.written = ((List.range s.opened).flatMap fun k =>
      (s.connections k).descriptors.map Prod.fst) ++ s.current.descriptors.map Prod.fst := by
  rw [written, List.range_succ, List.flatMap_append, List.flatMap_singleton]
  rfl

theorem written_congr (hopened : s'.opened = s.opened)
    (hdescriptors : ∀ k, (s'.connections k).descriptors = (s.connections k).descriptors) :
    s'.written = s.written := by
  rw [written, written, hopened]
  congr 1
  funext k
  rw [hdescriptors]

theorem written_set {k : Nat} {c : Connection}
    (hc : c.descriptors = (s.connections k).descriptors) :
    (s.setConnection k c).written = s.written := by
  refine written_congr rfl fun j => ?_
  by_cases hj : j = k
  · subst hj
    simp [setConnection, hc]
  · simp [setConnection, hj]

/-- A new connection carries no descriptors. -/
theorem written_opened (s : AckSystem) : (s.afterWire .opened).written = s.written := by
  have hold : ∀ k ∈ List.range (s.opened + 1),
      ((s.afterWire .opened).connections k).descriptors.map Prod.fst =
        (s.connections k).descriptors.map Prod.fst := by
    intro k hk
    have hne : k ≠ s.opened + 1 := Nat.ne_of_lt (List.mem_range.mp hk)
    have hsame : (s.afterWire .opened).connections k = s.connections k :=
      Function.update_of_ne hne ..
    rw [hsame]
  rw [written_eq, afterWire_opened, written]
  show ((List.range (s.opened + 1)).flatMap fun k =>
    ((s.afterWire .opened).connections k).descriptors.map Prod.fst) ++ [] = _
  rw [List.append_nil, List.flatMap_congr hold]

/-- A descriptor goes behind all the others. -/
theorem written_described (s : AckSystem) (frame : Frame) (ackId : UInt64) :
    (s.afterWire (.wrote (.descriptor frame ackId))).written = s.written ++ [frame] := by
  have hcurrent : (s.afterWire (.wrote (.descriptor frame ackId))).current =
      { s.current with descriptors := s.current.descriptors ++ [(frame, ackId)] } :=
    Function.update_self ..
  have hold : ∀ k ∈ List.range s.opened,
      ((s.afterWire (.wrote (.descriptor frame ackId))).connections k).descriptors.map Prod.fst =
        (s.connections k).descriptors.map Prod.fst := by
    intro k hk
    have hne : k ≠ s.opened := Nat.ne_of_lt (List.mem_range.mp hk)
    have hsame : (s.afterWire (.wrote (.descriptor frame ackId))).connections k =
        s.connections k := Function.update_of_ne hne ..
    rw [hsame]
  rw [written_eq, hcurrent, written_eq s, List.map_append, List.append_assoc]
  congr 1
  exact List.flatMap_congr hold

theorem calling_start (config : Config) : Calling ⟨{ config := config }, 0, fun _ => {}⟩ [] where
  once := List.Sublist.refl _
  writing _ _ hmain := nomatch hmain

/-- The server writes no descriptors. -/
theorem calling_serve (hc : Calling s h) {k : Nat} {c : Connection}
    (hdescriptors : c.descriptors = (s.connections k).descriptors)
    (hquiet : ∀ frame, .called frame ∉ out) : Calling (s.setConnection k c) (h ++ out) := by
  have hcalls : calls (h ++ out) = calls h := by
    rw [calls_append, calls_eq_nil hquiet, List.append_nil]
  refine ⟨?_, ?_⟩
  · rw [written_set hdescriptors, hcalls]
    exact hc.once
  · intro frame ackId hmain
    rw [written_set hdescriptors, hcalls]
    exact hc.writing frame ackId hmain

/-- Nothing but a descriptor counts as written. -/
theorem written_other {w : WireEvent} (hw : ∀ frame ackId,
      w ≠ .wrote (.descriptor frame ackId) ∧ w ≠ .writeFailed (.descriptor frame ackId)) :
    (s.afterWire w).written = s.written := by
  cases w with
  | opened => exact written_opened s
  | read m | readFailed => exact written_set rfl
  | wrote packet =>
      cases packet with
      | descriptor frame ackId => exact absurd rfl (hw frame ackId).1
      | _ => exact written_set rfl
  | writeFailed packet =>
      cases packet with
      | descriptor frame ackId => exact absurd rfl (hw frame ackId).2
      | _ => exact written_set rfl

/-- A descriptor is the first packet of a call. -/
theorem wireStep_descriptor {p q : Phase} {w : WireEvent} {frame : Frame} {ackId : UInt64}
    (hwire : WireStep p q [w])
    (hw : w = .wrote (.descriptor frame ackId) ∨ w = .writeFailed (.descriptor frame ackId)) :
    p = .describing frame ackId ∧ ∀ frame' ackId', q ≠ .describing frame' ackId' := by
  cases hwire with
  | described frame' ackId' =>
      rcases hw with hw | hw <;> cases hw
      exact ⟨rfl, fun _ _ => nofun⟩
  | quits hp hq =>
      have hgone : ∀ frame' ackId', q ≠ .describing frame' ackId' := by
        intro frame' ackId' heq
        rcases hq with rfl | rfl <;> cases heq
      cases hp with
      | unwritten hpacket hended =>
          rcases hw with hw | hw <;> cases hw
          refine ⟨?_, hgone⟩
          cases p <;> cases hpacket
          rfl
      | _ => rcases hw with hw | hw <;> cases hw
  | _ => rcases hw with hw | hw <;> cases hw

theorem calling_client {e : Application.Event} (hs : Answering s) (hc : Calling s h)
    (hstep : s.step parse (.client e) = some (s', out)) : Calling s' (h ++ out) := by
  obtain ⟨r, -, happ, hcases⟩ := client_cases hstep
  obtain ⟨-, hwire⟩ := Application.step_wire hs.placed happ
  -- a step that writes no descriptor may be the call
  have hplain : s'.written = s.written → s'.client = r.1 →
      calls out = calls (r.2.flatMap reportCall) → Calling s' (h ++ out) := by
    intro hwritten hclient hcalls
    refine ⟨?_, ?_⟩
    · rw [hwritten, calls_append]
      exact hc.once.trans (List.sublist_append_left _ _)
    · intro frame ackId hmain
      rw [hclient] at hmain
      rw [hwritten, calls_append, hcalls]
      rcases Application.step_describing happ hmain with ⟨hbefore, hquiet⟩ | hcall
      · obtain ⟨before, heq, hsub⟩ := hc.writing frame ackId hbefore
        refine ⟨before, ?_, hsub⟩
        rw [hquiet, heq]
        exact List.append_nil _
      · refine ⟨calls h, ?_, hc.once⟩
        rw [hcall]
        rfl
  rcases hcases with ⟨-, rfl, rfl⟩ | ⟨w, hone, rfl, rfl⟩
  · exact hplain rfl rfl rfl
  · rw [hone] at hwire
    by_cases hd : ∃ frame ackId,
        w = .wrote (.descriptor frame ackId) ∨ w = .writeFailed (.descriptor frame ackId)
    · obtain ⟨frame, ackId, hw⟩ := hd
      obtain ⟨hp, hq⟩ := wireStep_descriptor hwire hw
      obtain ⟨before, heq, hsub⟩ := hc.writing frame ackId (Application.main_of_describing hp)
      have hwritten : (({ s with client := r.1 } : AckSystem).afterWire w).written =
          s.written ++ [frame] := by
        rcases hw with rfl | rfl <;> exact written_described s frame ackId
      refine ⟨?_, ?_⟩
      · rw [hwritten, calls_append, heq]
        exact (hsub.append (List.Sublist.refl _)).trans (List.sublist_append_left _ _)
      · intro frame' ackId' hmain
        rw [afterWire_client] at hmain
        have hphase : r.1.phase = .describing frame' ackId' := by
          rw [Application.phase, show r.1.main = _ from hmain]
        exact absurd hphase (hq frame' ackId')
    · refine hplain ?_ (afterWire_client w) ?_
      · refine written_other (s := { s with client := r.1 }) fun frame ackId => ⟨?_, ?_⟩
        · exact fun hw => hd ⟨frame, ackId, .inl hw⟩
        · exact fun hw => hd ⟨frame, ackId, .inr hw⟩
      · rw [calls_append, calls_eq_nil (reportWire_quiet w), List.nil_append]

theorem calling_step {e : Event} (hs : Answering s) (hc : Calling s h)
    (hstep : s.step parse e = some (s', out)) : Calling s' (h ++ out) := by
  cases e with
  | client e => exact calling_client hs hc hstep
  | receive k =>
      obtain ⟨c, -, hr, rfl, rfl⟩ := serve_cases hstep
      obtain ⟨-, heq⟩ := Option.ite_none_right_eq_some.mp hr
      cases heq
      exact calling_serve hc rfl nofun
  | answer k n arguments =>
      obtain ⟨c, -, hr, rfl, rfl⟩ := serve_cases hstep
      obtain ⟨_, _, -, -, -, -, rfl⟩ := answer_cases hr
      exact calling_serve hc rfl (by simp)
  | send k m =>
      obtain ⟨c, -, hr, rfl, rfl⟩ := serve_cases hstep
      rw [Connection.send] at hr
      split at hr
      · cases hr
      · cases hr
        exact calling_serve hc rfl nofun

/-! ## Answers that wait -/

theorem kept_start (config : Config) : Kept ⟨{ config := config }, 0, fun _ => {}⟩ where
  bound _ _ hx := nomatch hx
  waits _ hout := nomatch hout

/-- The server acts on one connection. -/
theorem kept_serve (hk : Kept s) {k : Nat} {c : Connection}
    (hbound : ∀ x ∈ c.answered, x.1 < c.received)
    (hwaits : ∀ last, (last ∈ (s.connections k).answered.map Prod.fst →
        last ∈ (s.connections k).underway) →
      last ∈ c.answered.map Prod.fst → last ∈ c.underway)
    (hdescriptors : c.descriptors = (s.connections k).descriptors) :
    Kept (s.setConnection k c) := by
  refine ⟨?_, ?_⟩
  · intro j
    by_cases hj : j = k
    · subst hj
      have hsame : (s.setConnection j c).connections j = c := Function.update_self ..
      rw [hsame]
      exact hbound
    · have hsame : (s.setConnection k c).connections j = s.connections j :=
        Function.update_of_ne hj ..
      rw [hsame]
      exact hk.bound j
  · intro sent hout
    by_cases hj : k = s.opened
    · subst hj
      rw [setConnection_current, hdescriptors]
      exact hwaits _ (hk.waits sent hout)
    · rw [setConnection_other c hj]
      exact hk.waits sent hout

/-- A message that is not the ACK leaves the ACK where it is. -/
theorem underway_keeps {p q : Phase} {c : Connection} {m : Message} {d : Delivery}
    {rest : List Delivery} {sent : Frame × UInt64} (hc : c.Sound) (hcorr : Correlated p c)
    (hwire : WireStep p q [.read m]) (hq : q.outstanding = some sent)
    (hfirst : c.toClient = d :: rest) (hm : d.message = m) :
    (c.afterWire (.read m)).underway = c.underway := by
  have hlive : p.ended = false := by
    cases hwire with
    | quits _ hended => rcases hended with rfl | rfl <;> cases hq
    | _ => rfl
  have hanswers : d.answers = none := by
    cases hanswers : d.answers with
    | none => rfl
    | some n =>
        obtain ⟨frame, ackId, -, arguments, hout, -, -, -, -, hmessage, -⟩ :=
          first_answers hc hcorr hlive hfirst hanswers
        have hmatch := startsWith_ackPacket ackId arguments
        rw [← hmessage, hm] at hmatch
        cases hwire with
        | pinged sent' _ hping =>
            rw [Application.isPing_of_ackHead hmatch] at hping
            cases hping
        | skipped sent' _ _ hother =>
            rw [hother frame ackId hout] at hmatch
            cases hmatch
        | quits _ hended => rcases hended with rfl | rfl <;> cases hq
        | _ => cases hq
  obtain ⟨hafter, hbefore⟩ := underway_read hfirst m
  rw [hafter, hbefore, hanswers]
  rfl

theorem afterWire_received (c : Connection) (w : WireEvent) :
    (c.afterWire w).received = c.received := by
  cases w with
  | wrote packet | writeFailed packet => cases packet <;> rfl
  | _ => rfl

theorem bound_afterWire
    (hbound : ∀ k, ∀ x ∈ (s.connections k).answered, x.1 < (s.connections k).received)
    (w : WireEvent) (k : Nat) : ∀ x ∈ ((s.afterWire w).connections k).answered,
      x.1 < ((s.afterWire w).connections k).received := by
  cases hw : w.isOpened with
  | true =>
      obtain rfl : w = .opened := by cases w <;> first | rfl | cases hw
      by_cases hlast : k = s.opened + 1
      · rw [hlast, show (s.afterWire .opened).connections (s.opened + 1) = {} from
          Function.update_self ..]
        exact nofun
      · rw [show (s.afterWire .opened).connections k = s.connections k from
          Function.update_of_ne hlast ..]
        exact hbound k
  | false =>
      rw [afterWire_other hw]
      by_cases hlast : k = s.opened
      · rw [hlast, show (s.setConnection s.opened (s.current.afterWire w)).connections s.opened =
          s.current.afterWire w from Function.update_self .., afterWire_answered,
          afterWire_received]
        exact hbound s.opened
      · rw [show (s.setConnection s.opened (s.current.afterWire w)).connections k =
          s.connections k from Function.update_of_ne hlast ..]
        exact hbound k

theorem kept_client {e : Application.Event} (hs : Answering s) (hk : Kept s)
    (hstep : s.step parse (.client e) = some (s', out)) : Kept s' := by
  obtain ⟨r, hoffer, happ, hcases⟩ := client_cases hstep
  obtain ⟨-, hwire⟩ := Application.step_wire hs.placed happ
  refine ⟨?_, fun sent hout hanswered => ?_⟩
  · rcases hcases with ⟨-, rfl, -⟩ | ⟨w, -, rfl, -⟩
    · exact hk.bound
    · exact bound_afterWire (s := { s with client := r.1 }) hk.bound w
  · have hclient : s'.client = r.1 := by
      rcases hcases with ⟨-, rfl, -⟩ | ⟨w, -, rfl, -⟩
      · rfl
      · exact afterWire_client w
    rw [hclient] at hout
    obtain ⟨frame, ackId⟩ := sent
    rcases wireStep_outstanding hwire hout with ⟨hbefore, hquiet⟩ | ⟨-, hws⟩
    · rcases hcases with ⟨-, rfl, -⟩ | ⟨w, hone, rfl, -⟩
      · exact hk.waits _ hbefore hanswered
      · -- the frame has been waited for before the step
        obtain ⟨hopen, hdescriptors⟩ := hquiet w (by simp [hone])
        rw [afterWire_other hopen, setConnection_current, hdescriptors] at hanswered ⊢
        rw [afterWire_answered] at hanswered
        have hold := hk.waits _ hbefore hanswered
        cases w with
        | read m =>
            obtain rfl := event_of_read hone
            obtain ⟨d, rest, hfirst, hm⟩ := offers_read hoffer
            rw [hone] at hwire
            have hsame : (s.current.afterWire (.read m)).underway = s.current.underway :=
              underway_keeps (hs.sound _) hs.correlated hwire hout hfirst hm
            exact hsame.symm ▸ hold
        | wrote packet | writeFailed packet => cases packet <;> exact hold
        | _ => exact hold
    · -- the descriptor that is written now cannot have been answered
      rcases hcases with ⟨hnil, -, -⟩ | ⟨w, hone, rfl, -⟩
      · rw [hnil] at hws
        cases hws
      · obtain rfl := List.singleton_inj.mp (hone.symm.trans hws)
        rw [afterWire_other rfl, setConnection_current] at hanswered
        obtain ⟨x, hx, heq⟩ := List.mem_map.mp hanswered
        have hx : x ∈ s.current.answered := hx
        have hlast : x.1 = (s.current.descriptors ++ [(frame, ackId)]).length - 1 := heq
        have hbound := hk.bound _ x hx
        have hreceived := (hs.sound s.opened).received
        rw [List.length_append, List.length_singleton, Nat.add_sub_cancel] at hlast
        rw [current] at hlast
        omega

theorem kept_step {e : Event} (hs : Answering s) (hk : Kept s)
    (hstep : s.step parse e = some (s', out)) : Kept s' := by
  cases e with
  | client e => exact kept_client hs hk hstep
  | receive k =>
      obtain ⟨c, -, hr, rfl, rfl⟩ := serve_cases hstep
      obtain ⟨-, heq⟩ := Option.ite_none_right_eq_some.mp hr
      cases heq
      exact kept_serve hk (fun x hx => (hk.bound k x hx).trans (Nat.lt_succ_self _))
        (fun _ hkeep => hkeep) rfl
  | answer k n arguments =>
      obtain ⟨c, -, hr, rfl, rfl⟩ := serve_cases hstep
      obtain ⟨frame, ackId, -, hreceived, -, -, rfl⟩ := answer_cases hr
      refine kept_serve hk (fun x hx => ?_) (fun last hkeep hlast => ?_) rfl
      · rcases List.mem_cons.mp hx with rfl | hold
        · exact hreceived
        · exact hk.bound k x hold
      · have happend : Connection.underway { s.connections k with
            answered := (n, arguments) :: (s.connections k).answered
            toClient := (s.connections k).toClient ++ [⟨ackPacket ackId arguments, some n⟩] } =
              (s.connections k).underway ++ [n] := by
          simp [Connection.underway]
        rw [happend]
        rcases List.mem_cons.mp hlast with rfl | hold
        · exact List.mem_append_right _ List.mem_cons_self
        · exact List.mem_append_left _ (hkeep hold)
  | send k m =>
      obtain ⟨c, -, hr, rfl, rfl⟩ := serve_cases hstep
      rw [Connection.send] at hr
      split at hr
      · cases hr
      · cases hr
        refine kept_serve hk (hk.bound k) (fun last hkeep hlast => ?_) rfl
        have hsame : Connection.underway { s.connections k with
            toClient := (s.connections k).toClient ++ [⟨m, none⟩] } =
              (s.connections k).underway := by
          simp [Connection.underway]
        rw [hsame]
        exact hkeep hlast

/-! ## One frame at a time -/

/-- On every connection all descriptors before the last one have been answered. -/
def Alternating (s : AckSystem) : Prop :=
  ∀ k n, n + 1 < (s.connections k).descriptors.length →
    n ∈ (s.connections k).answered.map Prod.fst

theorem alternating_start (config : Config) :
    Alternating ⟨{ config := config }, 0, fun _ => {}⟩ := nofun

/-- The server only answers. -/
theorem alternating_serve (ha : Alternating s) {k : Nat} {c : Connection}
    (hdescriptors : c.descriptors = (s.connections k).descriptors)
    (hanswered : ∀ n ∈ (s.connections k).answered.map Prod.fst, n ∈ c.answered.map Prod.fst) :
    Alternating (s.setConnection k c) := by
  intro j n hn
  by_cases hj : j = k
  · subst hj
    have hsame : (s.setConnection j c).connections j = c := Function.update_self ..
    rw [hsame] at hn ⊢
    exact hanswered n (ha j n (hdescriptors ▸ hn))
  · have hsame : (s.setConnection k c).connections j = s.connections j :=
      Function.update_of_ne hj ..
    rw [hsame] at hn ⊢
    exact ha j n hn

/-- The client describes a frame when all earlier ones are answered. -/
theorem alternating_afterWire (hs : Answering s) (ha : Alternating s) {q : Phase} {w : WireEvent}
    (hw : w.isOpened = false) (hwire : WireStep s.client.phase q [w]) (n : Nat)
    (hn : n + 1 < (s.current.afterWire w).descriptors.length) :
    n ∈ (s.current.afterWire w).answered.map Prod.fst := by
  rw [afterWire_answered]
  have hdescribes : ∀ {frame : Frame} {ackId : UInt64},
      (w = .wrote (.descriptor frame ackId) ∨ w = .writeFailed (.descriptor frame ackId)) →
      n ∈ s.current.answered.map Prod.fst := by
    intro frame ackId hdescriptor
    have hphase := (wireStep_descriptor hwire hdescriptor).1
    have hidle := hs.correlated.idle (by rw [hphase]; rfl) (by rw [hphase]; rfl)
    have hlength : (s.current.afterWire w).descriptors.length =
        s.current.descriptors.length + 1 := by
      rcases hdescriptor with rfl | rfl <;> exact List.length_append
    exact hidle.1 n (by omega)
  cases w with
  | opened => cases hw
  | read m => exact ha s.opened n hn
  | readFailed => exact ha s.opened n hn
  | wrote packet =>
      cases packet with
      | descriptor frame ackId => exact hdescribes (.inl rfl)
      | _ => exact ha s.opened n hn
  | writeFailed packet =>
      cases packet with
      | descriptor frame ackId => exact hdescribes (.inr rfl)
      | _ => exact ha s.opened n hn

theorem alternating_step {e : Event} (hs : Answering s) (ha : Alternating s)
    (hstep : s.step parse e = some (s', out)) : Alternating s' := by
  cases e with
  | client e =>
      obtain ⟨r, -, happ, hcases⟩ := client_cases hstep
      obtain ⟨-, hwire⟩ := Application.step_wire hs.placed happ
      rcases hcases with ⟨-, rfl, -⟩ | ⟨w, hone, rfl, -⟩
      · exact ha
      · rw [hone] at hwire
        intro k n hn
        cases hw : w.isOpened with
        | true =>
            obtain rfl : w = .opened := by cases w <;> first | rfl | cases hw
            by_cases hk : k = s.opened + 1
            · rw [hk, show (AckSystem.afterWire { s with client := r.1 } .opened).connections
                (s.opened + 1) = {} from Function.update_self ..] at hn
              cases hn
            · have hsame : (AckSystem.afterWire { s with client := r.1 } .opened).connections k =
                  s.connections k := Function.update_of_ne hk ..
              rw [hsame] at hn ⊢
              exact ha k n hn
        | false =>
            rw [afterWire_other hw] at hn ⊢
            by_cases hk : k = s.opened
            · have hsame : (AckSystem.setConnection { s with client := r.1 } s.opened
                  (s.current.afterWire w)).connections k = s.current.afterWire w := by
                rw [hk]
                exact Function.update_self ..
              have hmem := alternating_afterWire hs ha hw hwire n (hsame ▸ hn)
              rw [← hsame] at hmem
              exact hmem
            · have hsame : (AckSystem.setConnection { s with client := r.1 } s.opened
                  (s.current.afterWire w)).connections k = s.connections k :=
                Function.update_of_ne hk ..
              exact hsame ▸ ha k n (hsame ▸ hn)
  | receive k =>
      obtain ⟨c, -, hr, rfl, rfl⟩ := serve_cases hstep
      obtain ⟨-, heq⟩ := Option.ite_none_right_eq_some.mp hr
      cases heq
      exact alternating_serve ha rfl fun _ hn => hn
  | answer k n arguments =>
      obtain ⟨c, -, hr, rfl, rfl⟩ := serve_cases hstep
      obtain ⟨frame, ackId, -, -, -, -, rfl⟩ := answer_cases hr
      exact alternating_serve ha rfl fun _ hn => List.mem_cons_of_mem _ hn
  | send k m =>
      obtain ⟨c, -, hr, rfl, rfl⟩ := serve_cases hstep
      rw [Connection.send] at hr
      split at hr
      · cases hr
      · cases hr
        exact alternating_serve ha rfl fun _ hn => hn

/-! ## Whole runs -/

theorem calling_run (hrun : (machine parse).exec (.start ⟨{ config := config }, 0, fun _ => {}⟩)
    es = some cfg) : Calling cfg.state cfg.history := by
  refine (exec_invariant (I := fun c => Answering c.state ∧ Calling c.state c.history) ?_
    ⟨answering_start config, calling_start config⟩ hrun).2
  rintro c e c' ⟨hs, hc⟩ hnext
  obtain ⟨out, hstep, hhist⟩ := next_eq_some hnext
  rw [hhist]
  exact ⟨answering_step hs hstep, calling_step hs hc hstep⟩

theorem kept_run (hrun : (machine parse).exec (.start ⟨{ config := config }, 0, fun _ => {}⟩)
    es = some cfg) : Kept cfg.state := by
  refine (exec_invariant (I := fun c => Answering c.state ∧ Kept c.state) ?_
    ⟨answering_start config, kept_start config⟩ hrun).2
  rintro c e c' ⟨hs, hk⟩ hnext
  obtain ⟨out, hstep, -⟩ := next_eq_some hnext
  exact ⟨answering_step hs hstep, kept_step hs hk hstep⟩

theorem alternating_run
    (hrun : (machine parse).exec (.start ⟨{ config := config }, 0, fun _ => {}⟩) es = some cfg) :
    Alternating cfg.state := by
  refine (exec_invariant (I := fun c => Answering c.state ∧ Alternating c.state) ?_
    ⟨answering_start config, alternating_start config⟩ hrun).2
  rintro c e c' ⟨hs, ha⟩ hnext
  obtain ⟨out, hstep, -⟩ := next_eq_some hnext
  exact ⟨answering_step hs hstep, alternating_step hs ha hstep⟩

end AckSystem

end CameraStream.Client
