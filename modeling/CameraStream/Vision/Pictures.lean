/-
  CameraStream.Vision.Pictures

  What an answer of the OpenCV service shows.

  `rendered` is the picture that `process` makes of an image and its detections, without
  references: the heap of CameraStream.Vision.App is shown to agree with it, so nothing
  that is drawn or kept for one request shows in the answer to another.

  `answers_show_their_pictures` — in every run, over requests of any cameras in any order:
  an answer is the encoding of the rendered picture of its own request, repeats its camera
  and its timestamp, and has at most twenty detections, the largest first, with a
  confidence between 0 and 1.
-/

import CameraStream.Js.Rounding
import CameraStream.Vision.MotionIsolation

namespace CameraStream.Vision

open EventMachine

variable {α κ : Type} {cv : OpenCv α κ} {s s' : Service α} {form : Form}
  {elapsed : ℚ} {response : Response}

/-! ## Pictures without references -/

/-- The two drawing calls for one detection, on the contents of an array. -/
def drawn (cv : OpenCv α κ) (d : Detection) (pixels : α) : α :=
  cv.putText "motion" ⟨d.x, max 20 (d.y - 6)⟩ (double (55 / 100)) green 2
    (cv.rectangle ⟨d.x, d.y⟩ ⟨d.x + d.width, d.y + d.height⟩ green 2 pixels)

/-- The picture that `process` encodes. -/
def rendered (cv : OpenCv α κ) (mode : String) (pixels : α) (detections : List Detection) : α :=
  if mode = "motion" then detections.foldl (fun pixels d => drawn cv d pixels) pixels
  else if mode = "edges" then
    cv.cvtColor (cv.canny (cv.cvtColor pixels .bgrToGray) 80 160) .grayToBgr
  else pixels

/-- The answer shows the picture of the request, as far as the detections say. -/
def Shows (cv : OpenCv α κ) (form : Form) (response : Response) : Prop :=
  response.cameraId = form.cameraId ∧ response.timestamp = form.timestamp ∧
    ∃ pixels output, cv.imdecode form.frame = .image pixels ∧
      cv.imencode (rendered cv form.mode pixels response.detections)
        (clampQuality form.jpegQuality) = .bytes output ∧
      response.imageBase64 = b64encode output

/-- At most twenty detections, the largest first. -/
structure Tidy (detections : List Detection) : Prop where
  few : detections.length ≤ 20
  sorted : detections.Pairwise fun a b => b.width * b.height ≤ a.width * a.height
  confidence : ∀ d ∈ detections, 0 ≤ d.confidence ∧ d.confidence ≤ 1

/-! ## Drawing -/

theorem drawDetections_get? (cv : OpenCv α κ) (detections : List Detection)
    {heap : ObjectHeap α} {image : Ref} {pixels : α} (himage : heap.get? image = some pixels) :
    (drawDetections cv heap image detections).get? image =
      some (detections.foldl (fun pixels d => drawn cv d pixels) pixels) := by
  unfold drawDetections
  induction detections generalizing heap pixels with
  | nil => exact himage
  | cons d rest ih =>
      rw [List.foldl_cons, List.foldl_cons]
      exact ih (ObjectHeap.get?_update_self (ObjectHeap.get?_update_self himage))

/-! ## Detections -/

theorem tidy_nil : Tidy [] := ⟨Nat.zero_le 20, .nil, nofun⟩

/-- Doubles of the unit interval stay there. -/
theorem double_mem_unit {q : ℚ} (h : 0 ≤ q) (h' : q ≤ 1) : 0 ≤ double q ∧ double q ≤ 1 := by
  obtain ⟨r, hr, hlow, hhigh⟩ := Js.Number.round_mem_unit h h'
  rw [double, hr]
  exact ⟨hlow, hhigh⟩

theorem roundDigits_mem_unit {x : ℚ} (h : 0 ≤ x) (h' : x ≤ 1) (digits : Nat) :
    0 ≤ roundDigits x digits ∧ roundDigits x digits ≤ 1 := by
  have hpos : (0 : ℚ) < 10 ^ digits := by positivity
  have hlow : 0 ≤ Js.Number.roundHalfEven (x * 10 ^ digits) := by
    refine Js.Number.le_roundHalfEven ?_
    push_cast
    positivity
  have hhigh : Js.Number.roundHalfEven (x * 10 ^ digits) ≤ 10 ^ digits := by
    refine Js.Number.roundHalfEven_le ?_
    push_cast
    exact mul_le_of_le_one_left hpos.le h'
  refine double_mem_unit ?_ ?_
  · have hcast : (0 : ℚ) ≤ Js.Number.roundHalfEven (x * 10 ^ digits) := by exact_mod_cast hlow
    positivity
  · rw [div_le_one hpos]
    exact_mod_cast hhigh

theorem minimumArea_pos (imageArea : Nat) : 0 < minimumArea imageArea := by
  simp only [minimumArea]
  split
  · next h => exact lt_trans (by norm_num) h
  · norm_num

/-- The double of a number that is not negative. -/
theorem double_nonneg {q : ℚ} (h : 0 ≤ q) : 0 ≤ double q := by
  rcases h.eq_or_lt with rfl | hpos
  · exact le_of_eq (by decide +kernel)
  · simp only [double]
    split
    · next value hvalue => exact Js.Number.round_nonneg hpos hvalue
    · exact h

theorem confidence_mem_unit {area : ℚ} (h : 0 ≤ area) (imageArea : Nat) :
    0 ≤ confidence area imageArea ∧ confidence area imageArea ≤ 1 := by
  have hwhole : 0 ≤ double (imageArea * double (1 / 10)) :=
    double_nonneg (mul_nonneg (Nat.cast_nonneg _) (double_nonneg (by norm_num)))
  have hratio : 0 ≤ double (area / double (imageArea * double (1 / 10))) :=
    double_nonneg (div_nonneg h hwhole)
  simp only [confidence]
  split
  · next hlt => exact roundDigits_mem_unit hratio hlt.le 3
  · exact roundDigits_mem_unit zero_le_one le_rfl 3

theorem detectionOf_confidence {imageArea : Nat} {contour : κ} {d : Detection}
    (h : detectionOf cv imageArea contour = some d) : 0 ≤ d.confidence ∧ d.confidence ≤ 1 := by
  simp only [detectionOf] at h
  split at h
  · cases h
  · next hlarge =>
      obtain rfl := Option.some.inj h
      have harea : 0 ≤ cv.contourArea contour :=
        (minimumArea_pos imageArea).le.trans (not_lt.mp hlarge)
      exact confidence_mem_unit harea imageArea

theorem findMotion_tidy (cv : OpenCv α κ) (previous gray : α) (shape : List Nat) :
    Tidy (findMotion cv previous gray shape) := by
  simp only [findMotion]
  refine ⟨List.length_take_le _ _, ?_, ?_⟩
  · have hsorted := @List.pairwise_mergeSort Detection
      (fun a b => decide (b.width * b.height ≤ a.width * a.height))
      (fun a b c hab hbc => by
        rw [decide_eq_true_eq] at hab hbc ⊢
        exact hbc.trans hab)
      (fun a b => by
        rw [Bool.or_eq_true, decide_eq_true_eq, decide_eq_true_eq]
        exact le_total _ _)
      (((cv.findContours (cv.dilate (cv.threshold (cv.absdiff previous gray) 25 255) 2)).filterMap
        (detectionOf cv (shape.getD 0 0 * shape.getD 1 0))))
    refine (hsorted.imp fun h => of_decide_eq_true h).sublist (List.take_sublist _ _)
  · intro d hd
    have hmem := List.mem_mergeSort.mp (List.mem_of_mem_take hd)
    obtain ⟨contour, -, hcontour⟩ := List.mem_filterMap.mp hmem
    exact detectionOf_confidence hcontour

/-! ## Answers -/

theorem detectMotion_tidy {cameraId : String} {image : Ref} {detections : List Detection}
    (h : detectMotion cv s cameraId image = some (s', detections)) :
    Tidy detections := by
  obtain ⟨pixels, -, h⟩ := Option.bind_eq_some_iff.mp h
  dsimp only at h
  split at h
  · cases h
    exact tidy_nil
  · obtain ⟨old, -, h⟩ := Option.bind_eq_some_iff.mp h
    split at h
    · cases h
      exact tidy_nil
    · cases h
      exact findMotion_tidy cv _ _ _

/-- What `detect_motion` stores does not touch the image. -/
theorem detectMotion_image {cameraId : String} {image : Ref} {detections : List Detection}
    {pixels : α} (himage : s.heap.get? image = some pixels)
    (h : detectMotion cv s cameraId image = some (s', detections)) :
    s'.heap.get? image = some pixels := by
  have hstored := ObjectHeap.extends_alloc s.heap (reference cv pixels) image pixels himage
  simp only [detectMotion, himage, Option.bind_eq_bind, Option.bind_some] at h
  split at h
  · cases h
    exact hstored
  · obtain ⟨old, -, h⟩ := Option.bind_eq_some_iff.mp h
    split at h
    · cases h
      exact hstored
    · cases h
      exact hstored

theorem respond_shows {pixels : α} {detections : List Detection} {decoded : α}
    (hdecode : cv.imdecode form.frame = .image decoded)
    (hpixels : pixels = rendered cv form.mode decoded detections)
    (h : respond cv form elapsed pixels detections = .ok response) :
    Shows cv form response ∧ response.detections = detections := by
  have hdetections := respond_detections h
  refine ⟨?_, hdetections⟩
  unfold respond at h
  split at h
  · cases h
  · cases h
  · next output hencode =>
      injection h with h
      refine ⟨by rw [← h], by rw [← h], decoded, output, hdecode, ?_, by rw [← h]⟩
      rw [hdetections, ← hpixels]
      exact hencode

/-- The answer to one request. -/
theorem afterRead_shows
    (h : afterRead cv s form elapsed = some (s', .ok response)) :
    Shows cv form response ∧ Tidy response.detections := by
  simp only [afterRead] at h
  split at h
  · cases h
  · cases h
  · next decoded hdecode =>
      split at h
      · next hmode =>
          obtain ⟨⟨s₁, detections⟩, hdetect, h⟩ := Option.bind_eq_some_iff.mp h
          obtain ⟨pixels, hpixels, h⟩ := Option.bind_eq_some_iff.mp h
          obtain ⟨-, hrespond⟩ := Prod.mk.inj (Option.some.inj h)
          -- the drawing is on the decoded image
          have himage := detectMotion_image ObjectHeap.get?_alloc_self hdetect
          have hdrawn := drawDetections_get? cv detections himage
          obtain ⟨hshows, heq⟩ := respond_shows hdecode
            (by
              rw [rendered, if_pos hmode]
              exact Option.some.inj (hpixels.symm.trans hdrawn)) hrespond
          rw [heq]
          exact ⟨hshows, detectMotion_tidy hdetect⟩
      · next hmotion =>
          split at h
          · next hedges =>
              obtain ⟨-, hrespond⟩ := Prod.mk.inj (Option.some.inj h)
              obtain ⟨hshows, heq⟩ := respond_shows hdecode
                (by rw [rendered, if_neg hmotion, if_pos hedges]) hrespond
              rw [heq]
              exact ⟨hshows, tidy_nil⟩
          · next hplain =>
              obtain ⟨-, hrespond⟩ := Prod.mk.inj (Option.some.inj h)
              obtain ⟨hshows, heq⟩ := respond_shows hdecode
                (by rw [rendered, if_neg hmotion, if_neg hplain]) hrespond
              rw [heq]
              exact ⟨hshows, tidy_nil⟩

/-! ## Runs -/

/-- A request that waits has passed the check of its mode. -/
def Checked (s : Service α) : Prop :=
  ∀ form ∈ s.waiting, form.mode ∈ ["motion", "edges", "none"]

/-- An answer shows the picture of its request. -/
def ShowsItsPicture (cv : OpenCv α κ) : Output → Prop
  | .answered form (.ok response) =>
      form.mode ∈ ["motion", "edges", "none"] ∧ Shows cv form response ∧
        Tidy response.detections
  | _ => True

theorem detectMotion_waiting {cameraId : String} {image : Ref} {detections : List Detection}
    (h : detectMotion cv s cameraId image = some (s', detections)) : s'.waiting = s.waiting := by
  obtain ⟨pixels, -, h⟩ := Option.bind_eq_some_iff.mp h
  dsimp only at h
  split at h
  · cases h
    rfl
  · obtain ⟨old, -, h⟩ := Option.bind_eq_some_iff.mp h
    split at h <;> cases h <;> rfl

theorem afterRead_waiting {reply : Except HttpException Response}
    (h : afterRead cv s form elapsed = some (s', reply)) : s'.waiting = s.waiting := by
  simp only [afterRead] at h
  split at h
  · cases h
    rfl
  · cases h
    rfl
  · split at h
    · obtain ⟨⟨s₁, detections⟩, hdetect, h⟩ := Option.bind_eq_some_iff.mp h
      obtain ⟨pixels, -, h⟩ := Option.bind_eq_some_iff.mp h
      obtain ⟨rfl, -⟩ := Prod.mk.inj (Option.some.inj h)
      have hsame := detectMotion_waiting hdetect
      exact hsame
    · split at h <;> cases h <;> rfl

/-- One step keeps the check, and what it answers shows its picture. -/
theorem checked_step {e : Event} {out : List Output} (hs : Checked s)
    (hstep : step cv s e = some (s', out)) :
    Checked s' ∧ ∀ o ∈ out, ShowsItsPicture cv o := by
  cases step_cases hstep with
  | waits form hmode =>
      refine ⟨fun form' hmem => ?_, nofun⟩
      rcases List.mem_append.mp hmem with hold | hnew
      · exact hs form' hold
      · rw [List.mem_singleton.mp hnew]
        exact hmode
  | refused form _ =>
      refine ⟨hs, fun o ho => ?_⟩
      rw [List.mem_singleton.mp ho]
      trivial
  | answered index elapsed form _ reply hform hafter =>
      have hwaiting := afterRead_waiting hafter
      refine ⟨fun form' hmem => hs form' ?_, fun o ho => ?_⟩
      · rw [hwaiting] at hmem
        exact List.mem_of_mem_eraseIdx hmem
      · rw [List.mem_singleton.mp ho]
        cases reply with
        | error e => trivial
        | ok response => exact ⟨hs form (List.mem_of_getElem? hform), afterRead_shows hafter⟩
  | unread index form _ =>
      refine ⟨fun form' hmem => hs form' (List.mem_of_mem_eraseIdx hmem), fun o ho => ?_⟩
      rw [List.mem_singleton.mp ho]
      trivial

variable {es : List Event} {c : EventMachine.Config (Service α) Output}

/-- **An answer shows its own picture.**  In every run of the service, whatever is asked in
    between: an answer is the encoding of the image of its request, in a motion request with
    the detections of the answer drawn on it and nothing else; it repeats the camera and the
    timestamp, and its detections are tidy. -/
theorem answers_show_their_pictures
    (hrun : (machine cv).exec (.start {}) es = some c) :
    ∀ o ∈ c.history, ShowsItsPicture cv o := by
  obtain ⟨later, hlater, hshows⟩ := exec_emits (I := fun c => Checked c.state)
    (Q := ShowsItsPicture cv)
    (fun _ _ _ hc hnext => by
      obtain ⟨out, hstep, -⟩ := next_eq_some hnext
      exact (checked_step hc hstep).1)
    (fun _ _ _ hc hnext => by
      obtain ⟨out, hstep, hhist⟩ := next_eq_some hnext
      exact ⟨out, hhist, (checked_step hc hstep).2⟩)
    (fun _ hmem => absurd hmem List.not_mem_nil) hrun
  rw [hlater]
  exact hshows

def Output.isPicture : Output → Bool
  | .answered _ (.ok _) => true
  | _ => false

/-- In the run with a gray pixel there are answers with a picture. -/
theorem answers_show_their_pictures_pixelRun : ∃ c form response,
    (machine pixelCv).exec (.start {}) pixelRun = some c ∧
      .answered form (.ok response) ∈ c.history ∧
      ShowsItsPicture pixelCv (.answered form (.ok response)) := by
  have hany : ((machine pixelCv).exec (.start {}) pixelRun).any
      (fun c => c.history.any Output.isPicture) = true := by
    decide +kernel
  obtain ⟨c, hrun, hpicture⟩ := (Option.any_eq_true _ _).mp hany
  obtain ⟨o, ho, hshape⟩ := List.any_eq_true.mp hpicture
  cases o with
  | answered form reply =>
      cases reply with
      | error e => cases hshape
      | ok response =>
          exact ⟨c, form, response, hrun, ho, answers_show_their_pictures hrun _ ho⟩
  | refused | unread => cases hshape

end CameraStream.Vision
