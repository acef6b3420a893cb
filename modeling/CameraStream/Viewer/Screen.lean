/-
  CameraStream.Viewer.Screen

  What a viewer sees on the page.

  `Watch` says what the page is for: it remembers the cameras it has heard of, one of them
  is selected, and it shows the last frame that came from the selected camera.  `Shows`
  ties the document to it.  Three results about whole runs:

    * `page_shows_watch`  — whatever comes in, the document shows what `Watch` says, if
                            cameras have names;
    * `one_url_alive`     — the only object URL that is alive is the one of the `<img>`;
    * `rates_count`       — every frame that is drawn is counted for one rate.
-/

import CameraStream.Viewer.Page
import Mathlib.Data.List.Nodup

namespace CameraStream.Viewer

open Js Server EventMachine

/-! ## What the page is for -/

structure Watch where
  /-- The cameras that have been announced, in this order. -/
  known : List JsString := []
  selected : Option JsString := none
  picture : Option FrameMessage := none

namespace Watch

/-- The first camera is selected. -/
def announce (w : Watch) (cameraId : JsString) : Watch :=
  if w.known.contains cameraId then w
  else { w with known := w.known ++ [cameraId], selected := w.selected.or (some cameraId) }

def step (w : Watch) : Event → Watch
  | .message (.list cameras) _ _ => cameras.foldl (fun w camera => w.announce camera.cameraId) w
  | .message (.status cameraId _) _ _ => w.announce cameraId
  | .message (.frame message) _ _ =>
      let w := w.announce message.cameraId
      if w.selected = some message.cameraId then { w with picture := some message } else w
  | .choose index => { w with selected := w.known[index]?.or w.selected }
  | _ => w

end Watch

/-- The cameras that a message names. -/
def Message.cameraIds : Message → List JsString
  | .list cameras => cameras.map (·.cameraId)
  | .status cameraId _ => [cameraId]
  | .frame message => [message.cameraId]

/-- No camera is named by the empty string. -/
def Event.Named : Event → Prop
  | .message m _ _ => [] ∉ m.cameraIds
  | _ => True

instance : DecidablePred Event.Named := fun e =>
  match e with
  | .message m _ _ => inferInstanceAs (Decidable ([] ∉ m.cameraIds))
  | .click | .connected | .disconnected | .connectError | .choose _ => isTrue trivial

/-! ## The select -/

/-- Before the first camera there is only the placeholder. -/
structure Listed (s : Select) (known : List JsString) (selected : Option JsString) : Prop where
  options : s.options = if known = [] then [[]] else known
  index : ∃ i, s.selectedIndex = some i ∧ s.options[i]? = some (selected.getD [])
  named : [] ∉ known
  nodup : known.Nodup
  none : known = [] → selected = none

section Cameras

variable {s : Select} {known : List JsString} {selected : Option JsString} {cameraId : JsString}

theorem listed_start : Listed ⟨[[]], some 0⟩ [] none :=
  ⟨rfl, ⟨0, rfl, rfl⟩, List.not_mem_nil, List.nodup_nil, fun _ => rfl⟩

theorem Listed.value (h : Listed s known selected) : s.value = selected.getD [] := by
  obtain ⟨i, hindex, hoption⟩ := h.index
  rw [Select.value, hindex, Option.bind_some, hoption, Option.getD_some]

/-- Once there are cameras, one of them is selected. -/
theorem Listed.selected_mem (h : Listed s known selected) (hne : known ≠ []) :
    ∃ id, selected = some id ∧ id ∈ known := by
  obtain ⟨i, -, hoption⟩ := h.index
  have hmem := List.mem_of_getElem? hoption
  rw [h.options, if_neg hne] at hmem
  cases selected with
  | none => exact absurd hmem h.named
  | some id => exact ⟨id, rfl, hmem⟩

theorem Listed.value_eq_nil (h : Listed s known selected) : s.value = [] ↔ known = [] := by
  rw [h.value]
  refine ⟨fun hvalue => ?_, fun hknown => by rw [h.none hknown]; rfl⟩
  by_contra hne
  obtain ⟨id, rfl, hmem⟩ := h.selected_mem hne
  rw [Option.getD_some] at hvalue
  exact h.named (hvalue ▸ hmem)

theorem Listed.mem_options (h : Listed s known selected) (hname : cameraId ≠ []) :
    cameraId ∈ s.options ↔ cameraId ∈ known := by
  rw [h.options]
  by_cases hknown : known = []
  · rw [if_pos hknown, hknown]
    simpa using hname
  · rw [if_neg hknown]

/-- A camera that has not been announced comes in; the first one takes the place of the
    placeholder, and is selected. -/
theorem Listed.add (h : Listed s known selected) (hname : cameraId ≠ [])
    (hnew : cameraId ∉ known) :
    Listed ((if s.value = [] then s.clear else s).add cameraId) (known ++ [cameraId])
      (selected.or (some cameraId)) := by
  have hnamed : [] ∉ known ++ [cameraId] := by
    rw [List.mem_append, List.mem_singleton]
    exact not_or.mpr ⟨h.named, Ne.symm hname⟩
  have hnodup : (known ++ [cameraId]).Nodup :=
    List.nodup_append'.mpr ⟨h.nodup, List.nodup_singleton _, by simpa using hnew⟩
  have hsome : known ++ [cameraId] ≠ [] := by simp
  by_cases hknown : known = []
  · rw [if_pos (h.value_eq_nil.mpr hknown), h.none hknown]
    subst hknown
    exact ⟨rfl, ⟨0, rfl, rfl⟩, hnamed, hnodup, fun heq => absurd heq hsome⟩
  · rw [if_neg (mt h.value_eq_nil.mp hknown)]
    obtain ⟨id, rfl, -⟩ := h.selected_mem hknown
    obtain ⟨i, hindex, hoption⟩ := h.index
    have hoptions : s.options = known := by rw [h.options, if_neg hknown]
    refine ⟨?_, ⟨i, ?_, ?_⟩, hnamed, hnodup, fun heq => absurd heq hsome⟩
    · rw [if_neg hsome, Select.add, hoptions]
    · rw [Select.add, hindex, Option.getD_some]
    · rw [Select.add, List.getElem?_append_left (List.getElem?_eq_some_iff.mp hoption).1]
      exact hoption

/-- The viewer picks an option; the placeholder changes nothing. -/
theorem Listed.choose (h : Listed s known selected) {index : Nat}
    (hindex : index < s.options.length) :
    Listed { s with selectedIndex := some index } known (known[index]?.or selected) := by
  refine ⟨h.options, ⟨index, rfl, ?_⟩, h.named, h.nodup, fun hknown => ?_⟩
  · show s.options[index]? = _
    by_cases hknown : known = []
    · have hoptions : s.options = [[]] := by rw [h.options, if_pos hknown]
      rw [hoptions, List.length_singleton] at hindex
      rw [hoptions, hknown, h.none hknown, Nat.lt_one_iff.mp hindex]
      rfl
    · have hoptions : s.options = known := by rw [h.options, if_neg hknown]
      rw [hoptions] at hindex ⊢
      rw [List.getElem?_eq_getElem hindex]
      rfl
  · rw [hknown, h.none hknown]
    rfl

end Cameras

/-! ## The picture -/

/-- The `<img>` shows the blob of the message, and the texts are about it. -/
structure Drawn (p : Page) (m : FrameMessage) (url : Nat) : Prop where
  src : p.src = some url
  objectUrl : p.objectUrl = some url
  alive : p.urls.alive = [(url, m.frame.bytes)]
  visible : p.frameHidden = false ∧ p.emptyHidden = true
  cameraId : p.cameraId = m.cameraId
  processing : p.processing = m.processingMs.toFixed1 ++ js " ms"
  detections : p.detections = Number.natToJs m.detections.length

def OnScreen (p : Page) : Option FrameMessage → Prop
  | none => p.src = none ∧ p.objectUrl = none ∧ p.urls.alive = []
  | some m => ∃ url, Drawn p m url

structure Shows (p : Page) (w : Watch) : Prop where
  cameras : Listed p.cameraSelect w.known w.selected
  picture : OnScreen p w.picture
  status : p.connection.1 = js (if p.connected then "status online" else "status offline")

section Steps

variable {p p' : Page} {w : Watch} {m : FrameMessage} {out : List Output} {now now' : ℚ}

/-- What `Drawn` looks at. -/
def Page.screen (p : Page) : (Option Nat × Option Nat × List (Nat × Buffer)) × (Bool × Bool) ×
    JsString × JsString × JsString :=
  ((p.src, p.objectUrl, p.urls.alive), (p.frameHidden, p.emptyHidden), p.cameraId, p.processing,
    p.detections)

theorem Drawn.congr {url : Nat} (h : Drawn p m url) (hsame : p'.screen = p.screen) :
    Drawn p' m url := by
  simp only [Page.screen, Prod.mk.injEq] at hsame
  obtain ⟨⟨hsrc, hobject, halive⟩, ⟨hframe, hempty⟩, hcamera, hprocessing, hdetections⟩ := hsame
  exact ⟨hsrc.trans h.src, hobject.trans h.objectUrl, halive.trans h.alive,
    ⟨hframe.trans h.visible.1, hempty.trans h.visible.2⟩, hcamera.trans h.cameraId,
    hprocessing.trans h.processing, hdetections.trans h.detections⟩

theorem OnScreen.congr {picture : Option FrameMessage} (h : OnScreen p picture)
    (hsame : p'.screen = p.screen) : OnScreen p' picture := by
  cases picture with
  | none =>
      obtain ⟨hsrc, hobject, halive⟩ := h
      simp only [Page.screen, Prod.mk.injEq] at hsame
      exact ⟨hsame.1.1.trans hsrc, hsame.1.2.1.trans hobject, hsame.1.2.2.trans halive⟩
  | some m =>
      obtain ⟨url, hdrawn⟩ := h
      exact ⟨url, hdrawn.congr hsame⟩

/-- The URL of the last picture is revoked before the new one is made. -/
theorem drawn_draw {picture : Option FrameMessage} (h : OnScreen p picture) (m : FrameMessage) :
    Drawn (p.draw m) m p.urls.made := by
  cases picture with
  | none =>
      obtain ⟨-, hobject, halive⟩ := h
      refine ⟨?_, ?_, ?_, ⟨rfl, rfl⟩, rfl, rfl, rfl⟩ <;>
        simp [Page.draw, UrlStore.create, hobject, halive]
  | some m' =>
      obtain ⟨url, hdrawn⟩ := h
      refine ⟨?_, ?_, ?_, ⟨rfl, rfl⟩, rfl, rfl, rfl⟩ <;>
        simp [Page.draw, UrlStore.create, UrlStore.revoke, hdrawn.objectUrl, hdrawn.alive]

theorem drawn_countFrame {url : Nat} (h : Drawn p m url) (now now' : ℚ) :
    Drawn (p.countFrame now now').1 m url := by
  refine h.congr ?_
  rw [Page.countFrame]
  split <;> rfl

theorem cameraSelect_countFrame (p : Page) (now now' : ℚ) :
    (p.countFrame now now').1.cameraSelect = p.cameraSelect := by
  rw [Page.countFrame]
  split <;> rfl

theorem connection_countFrame (p : Page) (now now' : ℚ) :
    (p.countFrame now now').1.connection = p.connection ∧
      (p.countFrame now now').1.connected = p.connected := by
  rw [Page.countFrame]
  split <;> exact ⟨rfl, rfl⟩

theorem Shows.upsertCamera (h : Shows p w) {cameraId : JsString} (hname : cameraId ≠ []) :
    Shows (p.upsertCamera cameraId) (w.announce cameraId) := by
  rw [Page.upsertCamera, Watch.announce]
  by_cases hknown : cameraId ∈ w.known
  · rw [if_pos ((h.cameras.mem_options hname).mpr hknown),
      if_pos (List.contains_iff_mem.mpr hknown)]
    exact h
  · rw [if_neg (mt (h.cameras.mem_options hname).mp hknown),
      if_neg (mt List.contains_iff_mem.mp hknown)]
    exact ⟨h.cameras.add hname hknown, h.picture.congr rfl, h.status⟩

theorem Shows.renderFrame (h : Shows p w) (hname : m.cameraId ≠ []) (now now' : ℚ) :
    Shows (p.renderFrame m now now').1 (w.step (.message (.frame m) now now')) := by
  have hadded := h.upsertCamera hname
  have hvalue := hadded.cameras.value
  -- the camera of the message is known now, so one is selected
  have hmem : m.cameraId ∈ (w.announce m.cameraId).known := by
    rw [Watch.announce]
    split
    · next hknown => exact List.contains_iff_mem.mp hknown
    · exact List.mem_append_right _ (List.mem_singleton_self _)
  have hne : (w.announce m.cameraId).known ≠ [] := List.ne_nil_of_mem hmem
  have hnonempty : (p.upsertCamera m.cameraId).cameraSelect.value ≠ [] :=
    mt hadded.cameras.value_eq_nil.mp hne
  obtain ⟨id, hselected, -⟩ := hadded.cameras.selected_mem hne
  rw [hselected, Option.getD_some] at hvalue
  simp only [Page.renderFrame, Watch.step, hselected, Option.some.injEq]
  by_cases hid : id = m.cameraId
  · rw [if_pos hid, if_neg (by rw [hvalue]; exact fun hboth => hboth.2 hid), if_neg hnonempty]
    have hdraw := drawn_draw hadded.picture m
    obtain ⟨hconnection, hconnected⟩ := connection_countFrame
      ((p.upsertCamera m.cameraId).draw m) now now'
    refine ⟨?_, ⟨_, drawn_countFrame hdraw now now'⟩, ?_⟩
    · rw [cameraSelect_countFrame, ← hselected]
      exact hadded.cameras
    · rw [hconnection, hconnected]
      exact hadded.status
  · rw [if_neg hid, if_pos ⟨hnonempty, by rw [hvalue]; exact hid⟩]
    exact hadded

theorem status_text : js "status " ++ js "online" = js "status online" ∧
    js "status " ++ js "offline" = js "status offline" := by decide +kernel

theorem Shows.step (h : Shows p w) {e : Event} (hname : e.Named)
    (hstep : p.step e = some (p', out)) : Shows p' (w.step e) := by
  cases e with
  | click =>
      cases hstep
      rw [Page.connect]
      split
      · exact ⟨h.cameras, h.picture.congr rfl, status_text.2⟩
      · exact h
  | connected =>
      obtain ⟨-, heq⟩ := Option.ite_none_left_eq_some.mp hstep
      cases heq
      exact ⟨h.cameras, h.picture.congr rfl, status_text.1⟩
  | disconnected =>
      obtain ⟨-, heq⟩ := Option.ite_none_right_eq_some.mp hstep
      cases heq
      exact ⟨h.cameras, h.picture.congr rfl, status_text.2⟩
  | connectError =>
      obtain ⟨hoffline, heq⟩ := Option.ite_none_left_eq_some.mp hstep
      cases heq
      refine ⟨h.cameras, h.picture.congr rfl, status_text.2.trans ?_⟩
      rw [show (p.setStatus "offline" "인증/연결 실패").connected = p.connected from rfl,
        if_neg hoffline]
  | message m now now' =>
      obtain ⟨-, heq⟩ := Option.ite_none_right_eq_some.mp hstep
      obtain rfl := congrArg Prod.fst (Option.some.inj heq)
      cases m with
      | list cameras =>
          have hall : ∀ camera ∈ cameras, camera.cameraId ≠ [] := fun camera hcamera heq =>
            hname (heq ▸ List.mem_map_of_mem (f := (·.cameraId)) hcamera)
          simp only [Page.onMessage, Watch.step]
          clear heq hname hstep
          induction cameras generalizing p w with
          | nil => exact h
          | cons camera rest ih =>
              exact ih (h.upsertCamera (hall camera List.mem_cons_self))
                fun camera' hcamera' => hall camera' (List.mem_cons_of_mem _ hcamera')
      | status cameraId connected =>
          exact h.upsertCamera fun heq => hname (heq ▸ List.mem_singleton_self _)
      | frame m => exact h.renderFrame (fun heq => hname (heq ▸ List.mem_singleton_self _)) now now'
  | choose index =>
      obtain ⟨hindex, heq⟩ := Option.ite_none_right_eq_some.mp hstep
      cases heq
      exact ⟨h.cameras.choose hindex, h.picture.congr rfl, h.status⟩

end Steps

/-! ## Runs -/

section Runs

variable {es : List Event} {start : ℚ} {cfg c c' : EventMachine.Config Page Output}

theorem shows_start (start : ℚ) : Shows (.initial start) {} :=
  ⟨listed_start, ⟨rfl, rfl, rfl⟩, rfl⟩

/-- **The page shows what it should.** In every run, whatever cameras come in, in whatever
    order frames arrive, and however often the viewer chooses or connects: the options are
    the cameras that have been announced, each once and in this order, the first one is
    selected until the viewer picks another one, and the page shows the last frame that has
    come from the camera that was selected then, with the texts of this frame. -/
theorem page_shows_watch (hrun : Page.machine.exec (.start (.initial start)) es = some cfg)
    (hname : ∀ e ∈ es, e.Named) : Shows cfg.state (es.foldl Watch.step {}) := by
  refine exec_foldl (R := fun c w => Shows c.state w) ?_ (shows_start start) hrun
  intro e he c c' w h hnext
  obtain ⟨out, hstep, -⟩ := next_eq_some hnext
  exact h.step (hname e he) hstep

end Runs

def cameraNamed (name : String) : CameraState where
  cameraId := js name
  connected := true
  lastFrameAt := none
  receivedFrames := 0
  droppedFrames := 0

def frameNamed (name : String) : FrameMessage where
  cameraId := js name
  timestamp := .finite 1000
  processingMs := .finite (19 / 4)
  detections := []
  frame := .arrayBuffer [0xFF, 0xD8, 0xFF, 0xD9]

/-- There are two cameras; the viewer picks the second one. -/
def visit : List Event :=
  [.connected, .message (.list [cameraNamed "door", cameraNamed "yard"]) 100 100,
    .message (.frame (frameNamed "door")) 400 400, .choose 1,
    .message (.frame (frameNamed "door")) 600 600,
    .message (.frame (frameNamed "yard")) 1500 1500]

/-! ## Object URLs and rates -/

/-- The pictures that have been put on the page. -/
def drawn (h : List Output) : List FrameMessage :=
  h.filterMap fun
    | .drew message => some message
    | _ => none

theorem drawn_append (h out : List Output) : drawn (h ++ out) = drawn h ++ drawn out :=
  List.filterMap_append

/-- `p'` has the picture and the count of `p`. -/
structure Keeps (p p' : Page) : Prop where
  screen : p'.screen = p.screen
  made : p'.urls.made = p.urls.made
  frames : p'.frames = p.frames
  fpsStartedAt : p'.fpsStartedAt = p.fpsStartedAt
  fps : p'.fps = p.fps

theorem Keeps.refl (p : Page) : Keeps p p := ⟨rfl, rfl, rfl, rfl, rfl⟩

theorem Keeps.trans {p p' p'' : Page} (h : Keeps p p') (h' : Keeps p' p'') : Keeps p p'' where
  screen := h'.screen.trans h.screen
  made := h'.made.trans h.made
  frames := h'.frames.trans h.frames
  fpsStartedAt := h'.fpsStartedAt.trans h.fpsStartedAt
  fps := h'.fps.trans h.fps

/-- One step: nothing is drawn, or the picture that has come is, and counted. -/
inductive Step (p : Page) : Event → Page × List Output → Prop where
  | quiet (e : Event) (p' : Page) (hkept : Keeps p p') : Step p e (p', [])
  | draws (p' : Page) (m : FrameMessage) (now now' : ℚ) (hkept : Keeps p p') :
      Step p (.message (.frame m) now now')
        (((p'.draw m).countFrame now now').1,
          .drew m :: ((p'.draw m).countFrame now now').2)

theorem keeps_upsertCamera (p : Page) (cameraId : JsString) :
    Keeps p (p.upsertCamera cameraId) := by
  rw [Page.upsertCamera]
  split <;> exact ⟨rfl, rfl, rfl, rfl, rfl⟩

theorem step_cases {p : Page} {e : Event} {r : Page × List Output} (h : p.step e = some r) :
    Step p e r := by
  cases e with
  | click =>
      cases h
      refine .quiet _ _ ?_
      rw [Page.connect]
      split <;> exact ⟨rfl, rfl, rfl, rfl, rfl⟩
  | connected | connectError =>
      obtain ⟨-, heq⟩ := Option.ite_none_left_eq_some.mp h
      cases heq
      exact .quiet _ _ ⟨rfl, rfl, rfl, rfl, rfl⟩
  | disconnected | choose index =>
      obtain ⟨-, heq⟩ := Option.ite_none_right_eq_some.mp h
      cases heq
      exact .quiet _ _ ⟨rfl, rfl, rfl, rfl, rfl⟩
  | message m now now' =>
      obtain ⟨-, heq⟩ := Option.ite_none_right_eq_some.mp h
      obtain rfl := Option.some.inj heq
      cases m with
      | list cameras =>
          refine .quiet _ _ ?_
          clear h heq
          induction cameras generalizing p with
          | nil => exact Keeps.refl p
          | cons camera rest ih => exact (keeps_upsertCamera p camera.cameraId).trans ih
      | status cameraId connected => exact .quiet _ _ (keeps_upsertCamera p cameraId)
      | frame m =>
          have hkept := keeps_upsertCamera p m.cameraId
          simp only [Page.onMessage, Page.renderFrame]
          split
          · exact .quiet _ _ hkept
          · split
            · refine .draws { p.upsertCamera m.cameraId with
                cameraSelect := (p.upsertCamera m.cameraId).cameraSelect.setValue m.cameraId }
                  m now now' (hkept.trans ⟨rfl, rfl, rfl, rfl, rfl⟩)
            · exact .draws _ m now now' hkept

section Urls

variable {es : List Event} {start : ℚ} {cfg c c' : EventMachine.Config Page Output} {e : Event}

/-- The page shows the picture that has been drawn last. -/
structure Pictures (c : EventMachine.Config Page Output) : Prop where
  onScreen : OnScreen c.state (drawn c.history).getLast?
  made : c.state.urls.made = (drawn c.history).length

theorem made_countFrame (p : Page) (now now' : ℚ) :
    (p.countFrame now now').1.urls.made = p.urls.made ∧
      drawn (p.countFrame now now').2 = [] := by
  rw [Page.countFrame]
  split <;> exact ⟨rfl, rfl⟩

theorem made_draw (p : Page) (m : FrameMessage) : (p.draw m).urls.made = p.urls.made + 1 := by
  simp only [Page.draw, UrlStore.create]
  cases p.objectUrl <;> rfl

theorem drawn_draws (p : Page) (m : FrameMessage) (now now' : ℚ) :
    drawn (.drew m :: (p.countFrame now now').2) = [m] := by
  rw [drawn, List.filterMap_cons]
  exact congrArg (m :: ·) (made_countFrame p now now').2

theorem pictures_next (h : Pictures c) (hnext : Page.machine.next c e = some c') :
    Pictures c' := by
  obtain ⟨out, hstep, hhist⟩ := next_eq_some hnext
  obtain ⟨p, h'⟩ := c'
  obtain rfl : h' = c.history ++ out := hhist
  generalize hr : (p, out) = r at hstep
  cases step_cases hstep with
  | quiet _ p' hkept =>
      cases hr
      rw [List.append_nil]
      exact ⟨h.onScreen.congr hkept.screen, hkept.made.trans h.made⟩
  | draws p' m now now' hkept =>
      cases hr
      have hmade := (made_countFrame (p'.draw m) now now').1
      have hdrawn : drawn (c.history ++ .drew m :: ((p'.draw m).countFrame now now').2) =
          drawn c.history ++ [m] := by
        rw [drawn_append, drawn_draws]
      refine ⟨?_, ?_⟩
      · rw [hdrawn, List.getLast?_concat]
        have hdraw := drawn_draw (h.onScreen.congr hkept.screen) m
        exact ⟨_, drawn_countFrame hdraw now now'⟩
      · rw [hmade, made_draw, hdrawn, List.length_append, hkept.made, h.made]
        rfl

theorem pictures_start (start : ℚ) : Pictures (.start (.initial start)) :=
  ⟨⟨rfl, rfl, rfl⟩, rfl⟩

theorem pictures_run (hrun : Page.machine.exec (.start (.initial start)) es = some cfg) :
    Pictures cfg :=
  exec_invariant (fun _ _ _ => pictures_next) (pictures_start start) hrun

/-- What the object URLs are for. -/
structure OneUrl (c : EventMachine.Config Page Output) : Prop where
  src : c.state.src = c.state.objectUrl
  url : c.state.urls.alive.map Prod.fst = c.state.objectUrl.toList
  blob : c.state.urls.alive.map Prod.snd =
    (drawn c.history).getLast?.toList.map fun m => m.frame.bytes
  made : c.state.urls.made = (drawn c.history).length

/-- **No picture is leaked, and none is revoked too early.** In every run, whatever comes in:
    the object URLs that are alive are that of the `<img>`, if there is a picture, and no
    other; its blob is the picture drawn last; and every picture has had its own URL. -/
theorem one_url_alive (hrun : Page.machine.exec (.start (.initial start)) es = some cfg) :
    OneUrl cfg := by
  obtain ⟨hscreen, hmade⟩ := pictures_run hrun
  cases hlast : (drawn cfg.history).getLast? with
  | none =>
      rw [hlast] at hscreen
      obtain ⟨hsrc, hobject, halive⟩ := hscreen
      refine ⟨hsrc.trans hobject.symm, ?_, ?_, hmade⟩
      · rw [halive, hobject]
        rfl
      · rw [halive, hlast]
        rfl
  | some m =>
      rw [hlast] at hscreen
      obtain ⟨url, hdrawn⟩ := hscreen
      refine ⟨hdrawn.src.trans hdrawn.objectUrl.symm, ?_, ?_, hmade⟩
      · rw [hdrawn.alive, hdrawn.objectUrl]
        rfl
      · rw [hdrawn.alive, hlast]
        rfl

end Urls

theorem visit_one_url : ∃ cfg, Page.machine.exec (.start (.initial 0)) visit = some cfg ∧
    drawn cfg.history = [frameNamed "door", frameNamed "yard"] ∧ OneUrl cfg := by
  have hany : (Page.machine.exec (.start (.initial 0)) visit).any (fun cfg =>
      drawn cfg.history = [frameNamed "door", frameNamed "yard"]) = true := by
    decide +kernel
  obtain ⟨cfg, hrun, hdrawn⟩ := (Option.any_eq_true _ _).mp hany
  exact ⟨cfg, hrun, of_decide_eq_true hdrawn, one_url_alive hrun⟩

/-! ### The rate -/

def isRate : Output → Bool
  | .rate _ _ _ _ => true
  | .drew _ => false

/-- What `#fps` has been set for: the frames, the two ends of the time, and where the next
    one starts. -/
def rates (h : List Output) : List (Nat × ℚ × ℚ × ℚ) :=
  h.filterMap fun
    | .rate frames startedAt now restartedAt => some (frames, startedAt, now, restartedAt)
    | .drew _ => none

/-- Where the frames are counted from. -/
def restartOf (start : ℚ) (h : List Output) : ℚ :=
  (rates h).getLast?.elim start fun rate => rate.2.2.2

/-- A rate is for all frames since the last rate, over a second or more. -/
def CountsAll (start : ℚ) (before : List Output) : Output → Prop
  | .rate frames startedAt now _ =>
      frames = (sinceLast isRate before).length ∧ startedAt = restartOf start before ∧
        (Number.round (now - startedAt)).lt (.finite 1000) = false
  | .drew _ => True

/-- The text of `#fps`. -/
def fpsText (h : List Output) : JsString :=
  (rates h).getLast?.elim (js "0.0") fun rate =>
    (Page.perSecond rate.1 (.round (rate.2.2.1 - rate.2.1))).toFixed1

structure Counted (start : ℚ) (c : EventMachine.Config Page Output) : Prop where
  rates : Whenever (CountsAll start) c.history
  /-- The frames that no rate has counted. -/
  frames : c.state.frames = (sinceLast isRate c.history).length
  startedAt : c.state.fpsStartedAt = restartOf start c.history
  fps : c.state.fps = fpsText c.history

section Rates

variable {es : List Event} {start : ℚ} {cfg c c' : EventMachine.Config Page Output} {e : Event}

theorem rates_append (h out : List Output) : rates (h ++ out) = rates h ++ rates out :=
  List.filterMap_append

/-- A picture more. -/
theorem Counted.drew {h : List Output} (hrates : Whenever (CountsAll start) h)
    (m : FrameMessage) :
    Whenever (CountsAll start) (h ++ [.drew m]) ∧
      (sinceLast isRate (h ++ [.drew m])).length = (sinceLast isRate h).length + 1 ∧
        restartOf start (h ++ [.drew m]) = restartOf start h ∧
          fpsText (h ++ [.drew m]) = fpsText h := by
  have hsame : Viewer.rates (h ++ [.drew m]) = Viewer.rates h := by
    rw [rates_append]
    exact List.append_nil _
  refine ⟨whenever_concat.mpr ⟨hrates, trivial⟩, ?_, ?_, ?_⟩
  · rw [sinceLast_concat, if_neg (by exact Bool.false_ne_true), List.length_append]
    rfl
  · rw [restartOf, restartOf, hsame]
  · rw [fpsText, fpsText, hsame]

/-- A rate more. -/
theorem last_rate (start : ℚ) (h : List Output) (frames : Nat) (startedAt now restartedAt : ℚ) :
    (sinceLast isRate (h ++ [.rate frames startedAt now restartedAt])).length = 0 ∧
      restartOf start (h ++ [.rate frames startedAt now restartedAt]) = restartedAt ∧
        fpsText (h ++ [.rate frames startedAt now restartedAt]) =
          (Page.perSecond frames (.round (now - startedAt))).toFixed1 := by
  have hlast : (rates (h ++ [.rate frames startedAt now restartedAt])).getLast? =
      some (frames, startedAt, now, restartedAt) := by
    rw [rates_append]
    exact List.getLast?_concat
  refine ⟨?_, ?_, ?_⟩
  · rw [sinceLast_concat]
    rfl
  · rw [restartOf, hlast]
    rfl
  · rw [fpsText, hlast]
    rfl

theorem counted_next (h : Counted start c) (hnext : Page.machine.next c e = some c') :
    Counted start c' := by
  obtain ⟨out, hstep, hhist⟩ := next_eq_some hnext
  obtain ⟨p, h'⟩ := c'
  obtain rfl : h' = c.history ++ out := hhist
  generalize hr : (p, out) = r at hstep
  cases step_cases hstep with
  | quiet _ p' hkept =>
      cases hr
      rw [List.append_nil]
      exact ⟨h.rates, hkept.frames.trans h.frames, hkept.fpsStartedAt.trans h.startedAt,
        hkept.fps.trans h.fps⟩
  | draws p' m now now' hkept =>
      cases hr
      obtain ⟨hrates, hcount, hrestart, htext⟩ := Counted.drew h.rates m
      have hframes : p'.frames + 1 = (sinceLast isRate (c.history ++ [.drew m])).length := by
        rw [hcount, hkept.frames, h.frames]
      have hstarted : p'.fpsStartedAt = restartOf start (c.history ++ [.drew m]) := by
        rw [hrestart, hkept.fpsStartedAt, h.startedAt]
      have hsplit (l : List Output) : c.history ++ .drew m :: l = c.history ++ [.drew m] ++ l := by
        rw [List.append_assoc, List.singleton_append]
      rw [hsplit]
      simp only [Page.countFrame]
      split
      · rw [List.append_nil]
        exact ⟨hrates, hframes, hstarted, by rw [htext, ← h.fps]; exact hkept.fps⟩
      · next helapsed =>
          -- the count starts again
          obtain ⟨hzero, hagain, hset⟩ := last_rate start
            (c.history ++ [.drew m]) (p'.frames + 1) p'.fpsStartedAt now now'
          exact ⟨whenever_concat.mpr ⟨hrates, hframes, hstarted,
            Bool.eq_false_of_not_eq_true helapsed⟩, hzero.symm, hagain.symm, hset.symm⟩

/-- **Every frame is counted once.** In every run each rate that the page shows is for exactly
    the frames that have been drawn since the one before it, over at least a second that
    starts with the second clock reading of that one; and `#fps` shows the last of them. -/
theorem rates_count (hrun : Page.machine.exec (.start (.initial start)) es = some cfg) :
    Counted start cfg :=
  exec_invariant (fun _ _ _ => counted_next) ⟨whenever_nil, rfl, rfl, rfl⟩ hrun

end Rates

/-- Two frames in one and a half seconds. -/
theorem visit_rate : ∃ cfg, Page.machine.exec (.start (.initial 0)) visit = some cfg ∧
    cfg.state.fps = js "1.3" ∧ Counted 0 cfg := by
  have hany : (Page.machine.exec (.start (.initial 0)) visit).any
      (fun cfg => cfg.state.fps = js "1.3") = true := by
    decide +kernel
  obtain ⟨cfg, hrun, hfps⟩ := (Option.any_eq_true _ _).mp hany
  exact ⟨cfg, hrun, of_decide_eq_true hfps, rates_count hrun⟩

end CameraStream.Viewer
