/-
  CameraStream.Vision.MotionIsolation

  Every camera is compared with itself only.

  `latestMotion` reads off the answers so far which image of a camera was the last one to
  be decoded for motion.  The invariant of a run (`Kept`) says that the service keeps the
  reference of exactly that image for the camera: not of another camera's, not of one that
  was decoded for another mode, and not of one with rectangles drawn on it.  The last
  point is a fact about references: the array that is kept and the array that is drawn on
  are two allocations of one request, and every later request draws on a new one.
-/

import CameraStream.Vision.App

namespace CameraStream.Vision

open EventMachine

variable {α κ : Type} {cv : OpenCv α κ} {s : Service α} {form : Form} {camera : String}
  {pixels : α} {heap : ObjectHeap α} {image r : Ref} {detections : List Detection}

/-! ## What the answers depend on -/

/-- The image of a request, if it is one for motion and can be decoded. -/
def decodedMotion (cv : OpenCv α κ) (form : Form) : Option α :=
  if form.mode = "motion" then
    match cv.imdecode form.frame with
    | .image pixels => some pixels
    | _ => none
  else none

/-- The image of a camera that an answer is about, decoded for motion.  It does not matter
    whether the answer is an error. -/
def motionImage (cv : OpenCv α κ) (camera : String) : Output → Option α
  | .answered form _ => if form.cameraId = camera then decodedMotion cv form else none
  | _ => none

/-- The latest image of a camera that was decoded for motion. -/
def latestMotion (cv : OpenCv α κ) (camera : String) (h : List Output) : Option α :=
  (h.filterMap (motionImage cv camera)).getLast?

/-- What is detected in an image after `previous`: nothing if there is no such image or it
    is of another size, and else what `findMotion` finds between the two references. -/
def motionDetections (cv : OpenCv α κ) (previous : Option α) (pixels : α) : List Detection :=
  match previous with
  | none => []
  | some old =>
      if (cv.shape old).take 2 ≠ (cv.shape pixels).take 2 then []
      else findMotion cv (reference cv old) (reference cv pixels) (cv.shape pixels)

/-- What OpenCV says about the shapes of its results. -/
structure OpenCv.Lawful (cv : OpenCv α κ) : Prop where
  /-- A gray image has the height and the width of the colour image, and no channels. -/
  gray_shape : ∀ frame pixels, cv.imdecode frame = .image pixels →
    cv.shape (cv.cvtColor pixels .bgrToGray) = (cv.shape pixels).take 2
  /-- Blurring keeps the shape. -/
  blur_shape : ∀ a kernel sigma, cv.shape (cv.gaussianBlur a kernel sigma) = cv.shape a

theorem decodedMotion_eq_some :
    decodedMotion cv form = some pixels ↔
      form.mode = "motion" ∧ cv.imdecode form.frame = .image pixels := by
  unfold decodedMotion
  by_cases hmode : form.mode = "motion"
  · rw [if_pos hmode]
    cases hdec : cv.imdecode form.frame <;> simp [hmode]
  · simp [hmode]

theorem motionImage_self {reply : Except HttpException Response} :
    motionImage cv form.cameraId (.answered form reply) = decodedMotion cv form :=
  if_pos rfl

theorem motionImage_ne {reply : Except HttpException Response} (hne : camera ≠ form.cameraId) :
    motionImage cv camera (.answered form reply) = none :=
  if_neg hne.symm

theorem latestMotion_append_of_none {h out : List Output}
    (hout : ∀ o ∈ out, motionImage cv camera o = none) :
    latestMotion cv camera (h ++ out) = latestMotion cv camera h := by
  have hnone : out.filterMap (motionImage cv camera) = [] :=
    List.filterMap_eq_nil_iff.mpr hout
  rw [latestMotion, List.filterMap_append, hnone, List.append_nil]
  rfl

theorem latestMotion_concat_of_some {h : List Output} {o : Output}
    (ho : motionImage cv camera o = some pixels) :
    latestMotion cv camera (h ++ [o]) = some pixels := by
  rw [latestMotion, List.filterMap_append, List.filterMap_cons_some ho]
  exact List.getLast?_concat

/-- It was decoded, once. -/
theorem latestMotion_decoded {h : List Output} (hlatest : latestMotion cv camera h = some pixels) :
    ∃ frame, cv.imdecode frame = .image pixels := by
  have hmem := List.mem_of_getLast? hlatest
  obtain ⟨o, -, ho⟩ := List.mem_filterMap.mp hmem
  cases o with
  | refused form error => nomatch ho
  | unread form => nomatch ho
  | answered form reply =>
      by_cases hcamera : camera = form.cameraId
      · subst hcamera
        rw [motionImage_self] at ho
        exact ⟨form.frame, (decodedMotion_eq_some.mp ho).2⟩
      · rw [motionImage_ne hcamera] at ho
        nomatch ho

theorem OpenCv.Lawful.reference_shape (hcv : cv.Lawful) {frame : List UInt8}
    (hdec : cv.imdecode frame = .image pixels) :
    cv.shape (reference cv pixels) = (cv.shape pixels).take 2 := by
  rw [reference, hcv.blur_shape]
  exact hcv.gray_shape frame pixels hdec

/-! ## Drawing -/

/-- Drawing changes the array that is drawn on. -/
theorem drawDetections_get?_ne (hne : r ≠ image) :
    (drawDetections cv heap image detections).get? r = heap.get? r := by
  unfold drawDetections
  induction detections generalizing heap with
  | nil => rfl
  | cons d ds ih =>
      rw [List.foldl_cons, ih, drawDetection, ObjectHeap.get?_update_ne hne,
        ObjectHeap.get?_update_ne hne]

theorem drawDetections_get?_self (cv : OpenCv α κ) (detections : List Detection)
    (himage : heap.get? image = some pixels) :
    ∃ drawn, (drawDetections cv heap image detections).get? image = some drawn := by
  unfold drawDetections
  induction detections generalizing heap pixels with
  | nil => exact ⟨pixels, himage⟩
  | cons d ds ih =>
      rw [List.foldl_cons]
      exact ih (ObjectHeap.get?_update_self (ObjectHeap.get?_update_self himage))

/-! ## One request after its `await` -/

/-- The service keeps this reference for a camera, where it can be read. -/
def Keeps (s : Service α) (camera : String) : Option α → Prop
  | none => s.previousFrames.get? camera = none
  | some kept => ∃ r, s.previousFrames.get? camera = some r ∧ s.heap.get? r = some kept

/-- What `detect_motion` makes of the kept reference of a camera and an image. -/
def detectionsAgainst (cv : OpenCv α κ) (kept : Option α) (pixels : α) : List Detection :=
  match kept with
  | none => []
  | some old =>
      if cv.shape old ≠ cv.shape (reference cv pixels) then []
      else findMotion cv old (reference cv pixels) (cv.shape pixels)

theorem Keeps.unique {a b : Option α} (ha : Keeps s camera a) (hb : Keeps s camera b) :
    a = b := by
  cases a with
  | none =>
      cases b with
      | none => rfl
      | some b =>
          obtain ⟨r, hr, -⟩ := hb
          rw [show s.previousFrames.get? camera = none from ha] at hr
          nomatch hr
  | some a =>
      obtain ⟨r, hr, hread⟩ := ha
      cases b with
      | none =>
          rw [show s.previousFrames.get? camera = none from hb] at hr
          nomatch hr
      | some b =>
          obtain ⟨r', hr', hread'⟩ := hb
          rw [hr, Option.some.injEq] at hr'
          rw [← hr', hread] at hread'
          exact hread'

/-- A camera's reference stays as long as its name and the kept arrays do. -/
theorem Keeps.of_extends {s' : Service α} {kept : Option α} (hkeeps : Keeps s camera kept)
    (hname : s'.previousFrames.get? camera = s.previousFrames.get? camera)
    (hheap : s.heap.Extends s'.heap) : Keeps s' camera kept := by
  cases kept with
  | none =>
      show s'.previousFrames.get? camera = none
      rw [hname]
      exact hkeeps
  | some kept =>
      obtain ⟨r, hr, hread⟩ := hkeeps
      exact ⟨r, hname.trans hr, hheap r kept hread⟩

theorem detectMotion_eq (cv : OpenCv α κ) {kept : Option α}
    (himage : s.heap.get? image = some pixels) (hkeeps : Keeps s camera kept) :
    detectMotion cv s camera image =
      some ({ s with
          heap := (s.heap.alloc (reference cv pixels)).1
          previousFrames :=
            s.previousFrames.set camera (s.heap.alloc (reference cv pixels)).2 },
        detectionsAgainst cv kept pixels) := by
  cases kept with
  | none =>
      have hnone : s.previousFrames.get? camera = none := hkeeps
      simp [detectMotion, himage, hnone, detectionsAgainst]
  | some old =>
      obtain ⟨r, hr, hread⟩ := hkeeps
      -- the array that was kept is still there after the new one is
      have hold := ObjectHeap.extends_alloc s.heap (reference cv pixels) r old hread
      simp only [detectMotion, himage, hr, hold, detectionsAgainst, Option.bind_eq_bind,
        Option.bind_some]
      split <;> rfl

theorem respond_detections {elapsed : ℚ} {response : Response}
    (hok : respond cv form elapsed pixels detections = .ok response) :
    response.detections = detections := by
  unfold respond at hok
  split at hok
  · nomatch hok
  · nomatch hok
  · injection hok with hok
    rw [← hok]

/-- After a motion request that is decoded, the service keeps the reference of its image,
    without what is drawn, and for every other camera what it kept before. -/
theorem afterRead_of_motion {previous : String → Option α} (elapsed : ℚ)
    (hmotion : decodedMotion cv form = some pixels)
    (hkeeps : ∀ camera, Keeps s camera (previous camera)) :
    ∃ s' drawn,
      afterRead cv s form elapsed =
        some (s', respond cv form elapsed drawn
          (detectionsAgainst cv (previous form.cameraId) pixels)) ∧
      s'.waiting = s.waiting ∧
      Keeps s' form.cameraId (some (reference cv pixels)) ∧
      ∀ camera, camera ≠ form.cameraId → Keeps s' camera (previous camera) := by
  obtain ⟨hmode, hdec⟩ := decodedMotion_eq_some.mp hmotion
  -- two allocations: the decoded image, and after it the reference that is kept
  let decoded := s.heap.alloc pixels
  let stored := decoded.1.alloc (reference cv pixels)
  have himage : decoded.1.get? decoded.2 = some pixels := ObjectHeap.get?_alloc_self
  have himage' : stored.1.get? decoded.2 = some pixels :=
    ObjectHeap.extends_alloc _ _ _ _ himage
  have hkept : stored.1.get? stored.2 = some (reference cv pixels) :=
    ObjectHeap.get?_alloc_self
  have hapart : stored.2 ≠ decoded.2 := (ObjectHeap.ne_alloc_of_some himage).symm
  have hbefore : Keeps { s with heap := decoded.1 } form.cameraId (previous form.cameraId) :=
    (hkeeps form.cameraId).of_extends rfl (ObjectHeap.extends_alloc _ _)
  have hdetect := detectMotion_eq cv himage hbefore
  obtain ⟨drawn, hdrawn⟩ := drawDetections_get?_self cv
    (detectionsAgainst cv (previous form.cameraId) pixels) himage'
  refine ⟨{ s with
      heap := drawDetections cv stored.1 decoded.2
        (detectionsAgainst cv (previous form.cameraId) pixels)
      previousFrames := s.previousFrames.set form.cameraId stored.2 }, drawn, ?_, rfl, ?_, ?_⟩
  · simp only [afterRead, hdec, hmode, if_true]
    rw [hdetect]
    show (ObjectHeap.get? _ _).bind _ = _
    rw [hdrawn]
    rfl
  · refine ⟨stored.2, InsertionMap.get?_set_self .., ?_⟩
    exact (drawDetections_get?_ne hapart).trans hkept
  · intro camera hne
    refine (hkeeps camera).of_extends (InsertionMap.get?_set_ne _ hne _) ?_
    intro r a hr
    -- what was there before the request is not drawn on
    have hr' : r ≠ decoded.2 := ObjectHeap.ne_alloc_of_some hr
    rw [drawDetections_get?_ne hr']
    exact (ObjectHeap.extends_alloc _ _).trans (ObjectHeap.extends_alloc _ _) r a hr

/-- Any other request leaves everything that is kept as it is, and detects nothing. -/
theorem afterRead_of_other (s : Service α) (elapsed : ℚ)
    (hmotion : decodedMotion cv form = none) :
    ∃ s' reply,
      afterRead cv s form elapsed = some (s', reply) ∧
      s'.waiting = s.waiting ∧ s'.previousFrames = s.previousFrames ∧
      s.heap.Extends s'.heap ∧
      ∀ response, reply = .ok response →
        form.mode ≠ "motion" ∧ response.detections = [] := by
  cases hdec : cv.imdecode form.frame with
  | raises =>
      refine ⟨s, .error internalError, ?_, rfl, rfl, fun _ _ hr => hr, nofun⟩
      simp only [afterRead, hdec]
  | none =>
      refine ⟨s, .error invalidFrame, ?_, rfl, rfl, fun _ _ hr => hr, nofun⟩
      simp only [afterRead, hdec]
  | image pixels =>
      -- an image that is decoded, but not for motion
      have hmode : form.mode ≠ "motion" := by
        intro hmode
        rw [decodedMotion_eq_some.mpr ⟨hmode, hdec⟩] at hmotion
        nomatch hmotion
      let s' : Service α := { s with heap := (s.heap.alloc pixels).1 }
      let edges := cv.cvtColor (cv.canny (cv.cvtColor pixels .bgrToGray) 80 160) .grayToBgr
      by_cases hedges : form.mode = "edges"
      · refine ⟨s', respond cv form elapsed edges [], ?_, rfl, rfl,
          ObjectHeap.extends_alloc _ _, ?_⟩
        · simp only [afterRead, hdec, if_neg hmode, if_pos hedges]
          rfl
        · intro response hok
          exact ⟨hmode, respond_detections hok⟩
      · refine ⟨s', respond cv form elapsed pixels [], ?_, rfl, rfl,
          ObjectHeap.extends_alloc _ _, ?_⟩
        · simp only [afterRead, hdec, if_neg hmode, if_neg hedges]
          rfl
        · intro response hok
          exact ⟨hmode, respond_detections hok⟩

/-! ## Steps -/

/-- The service keeps the reference of the latest image decoded for motion, of every
    camera. -/
def Kept (cv : OpenCv α κ) (c : EventMachine.Config (Service α) Output) : Prop :=
  ∀ camera, Keeps c.state camera ((latestMotion cv camera c.history).map (reference cv))

/-- An answer to a motion request detects what changed since the latest image of its
    camera; any other answer detects nothing. -/
def DetectsOwnMotion (cv : OpenCv α κ) (before : List Output) : Output → Prop
  | .answered form (.ok response) =>
      if form.mode = "motion" then
        ∃ pixels, cv.imdecode form.frame = .image pixels ∧
          response.detections =
            motionDetections cv (latestMotion cv form.cameraId before) pixels
      else response.detections = []
  | _ => True

theorem detectionsAgainst_latestMotion (hcv : cv.Lawful) {h : List Output}
    {frame : List UInt8} (hdec : cv.imdecode frame = .image pixels) :
    detectionsAgainst cv ((latestMotion cv camera h).map (reference cv)) pixels =
      motionDetections cv (latestMotion cv camera h) pixels := by
  cases hlatest : latestMotion cv camera h with
  | none => rfl
  | some old =>
      obtain ⟨frame', hold⟩ := latestMotion_decoded hlatest
      show (if cv.shape (reference cv old) ≠ cv.shape (reference cv pixels) then [] else _) = _
      rw [hcv.reference_shape hold, hcv.reference_shape hdec]
      rfl

variable {c c' : EventMachine.Config (Service α) Output} {before : List Output}

/-- A step that keeps every reference and answers nothing about images. -/
theorem Kept.of_silent {s' : Service α} {out : List Output} (hkept : Kept cv ⟨s, before⟩)
    (hmap : s'.previousFrames = s.previousFrames) (hheap : s.heap.Extends s'.heap)
    (hout : ∀ o ∈ out, ∀ camera, motionImage cv camera o = none) :
    Kept cv ⟨s', before ++ out⟩ := by
  intro camera
  show Keeps s' camera ((latestMotion cv camera (before ++ out)).map (reference cv))
  rw [latestMotion_append_of_none fun o ho => hout o ho camera]
  exact (hkept camera).of_extends (by rw [hmap]) hheap

/-- An error answers nothing about motion. -/
theorem detectsOwnMotion_of_ok {reply : Except HttpException Response}
    (hok : ∀ response, reply = .ok response →
      DetectsOwnMotion cv before (.answered form (.ok response))) :
    DetectsOwnMotion cv before (.answered form reply) := by
  cases reply with
  | error e => trivial
  | ok response => exact hok response rfl

/-- What `process` does after its `await` keeps the references of all cameras, and answers
    from the images of its own. -/
theorem afterRead_kept (hcv : cv.Lawful) (hkept : Kept cv ⟨s, before⟩) (form : Form)
    (elapsed : ℚ) :
    ∃ s' reply,
      afterRead cv s form elapsed = some (s', reply) ∧
      Kept cv ⟨s', before ++ [.answered form reply]⟩ ∧
      DetectsOwnMotion cv before (.answered form reply) := by
  cases hmotion : decodedMotion cv form with
  | none =>
      obtain ⟨s', reply, hafter, -, hmap, hheap, hnone⟩ :=
        afterRead_of_other s elapsed hmotion
      refine ⟨s', reply, hafter, hkept.of_silent hmap hheap ?_, ?_⟩
      · intro o ho camera
        rw [List.mem_singleton.mp ho]
        by_cases hcamera : camera = form.cameraId
        · rw [hcamera, motionImage_self, hmotion]
        · exact motionImage_ne hcamera
      · refine detectsOwnMotion_of_ok ?_
        intro response hok
        obtain ⟨hmode, hdetections⟩ := hnone response hok
        show if form.mode = "motion" then _ else _
        rw [if_neg hmode]
        exact hdetections
  | some pixels =>
      obtain ⟨hmode, hdec⟩ := decodedMotion_eq_some.mp hmotion
      obtain ⟨s', drawn, hafter, -, hown, hothers⟩ :=
        afterRead_of_motion elapsed hmotion hkept
      refine ⟨s', respond cv form elapsed drawn (detectionsAgainst cv
        ((latestMotion cv form.cameraId before).map (reference cv)) pixels), hafter, ?_, ?_⟩
      · -- the camera of the request has a new latest image, the others have not
        intro camera
        show Keeps s' camera ((latestMotion cv camera (before ++ _)).map (reference cv))
        by_cases hcamera : camera = form.cameraId
        · subst hcamera
          rw [latestMotion_concat_of_some (motionImage_self.trans hmotion)]
          exact hown
        · rw [latestMotion_append_of_none]
          · exact hothers camera hcamera
          · intro o ho
            rw [List.mem_singleton.mp ho]
            exact motionImage_ne hcamera
      · refine detectsOwnMotion_of_ok ?_
        intro response hok
        show if form.mode = "motion" then _ else _
        rw [if_pos hmode]
        refine ⟨pixels, hdec, ?_⟩
        rw [respond_detections hok]
        exact detectionsAgainst_latestMotion hcv hdec

/-- A waiting request whose bytes have come is answered. -/
theorem step_read (hcv : cv.Lawful) (hkept : Kept cv ⟨s, before⟩) {index : Nat}
    (hform : s.waiting[index]? = some form) (elapsed : ℚ) :
    ∃ r, step cv s (.read index elapsed) = some r := by
  have hkept' : Kept cv ⟨{ s with waiting := s.waiting.eraseIdx index }, before⟩ := hkept
  obtain ⟨s', reply, hafter, -⟩ := afterRead_kept hcv hkept' form elapsed
  refine ⟨(s', [.answered form reply]), ?_⟩
  simp only [step, hform, Option.bind_eq_bind, Option.bind_some]
  rw [hafter]
  rfl

theorem next_kept (hcv : cv.Lawful) (hkept : Kept cv c) {e : Event}
    (hnext : (machine cv).next c e = some c') :
    Kept cv c' ∧ ∃ out, c'.history = c.history ++ out ∧
      Whenever (fun h => DetectsOwnMotion cv (c.history ++ h)) out := by
  obtain ⟨s, before⟩ := c
  obtain ⟨s', after⟩ := c'
  obtain ⟨out, hstep, hhist⟩ := next_eq_some hnext
  obtain rfl : after = before ++ out := hhist
  cases step_cases hstep with
  | waits form hmode =>
      exact ⟨hkept.of_silent rfl (fun _ _ hr => hr) nofun, [], rfl, whenever_nil⟩
  | refused form hmode =>
      refine ⟨hkept.of_silent rfl (fun _ _ hr => hr) ?_, _, rfl, whenever_singleton.mpr trivial⟩
      intro o ho camera
      rw [List.mem_singleton.mp ho]
      rfl
  | answered index elapsed form _ reply hform hafter =>
      have hkept₀ : Kept cv ⟨{ s with waiting := s.waiting.eraseIdx index }, before⟩ := hkept
      obtain ⟨t, reply', hafter', hkept', hdetects⟩ := afterRead_kept hcv hkept₀ form elapsed
      obtain ⟨rfl, rfl⟩ := Prod.mk.inj (Option.some.inj (hafter'.symm.trans hafter))
      refine ⟨hkept', _, rfl, whenever_singleton.mpr ?_⟩
      show DetectsOwnMotion cv (before ++ []) _
      rw [List.append_nil]
      exact hdetects
  | unread index form hform =>
      refine ⟨hkept.of_silent rfl (fun _ _ hr => hr) ?_, _, rfl, whenever_singleton.mpr trivial⟩
      intro o ho camera
      rw [List.mem_singleton.mp ho]
      rfl

/-! ## Runs -/

theorem kept_start : Kept cv (.start {}) :=
  fun _ => InsertionMap.get?_empty ..

theorem run_kept (hcv : cv.Lawful) {es : List Event}
    (hrun : (machine cv).exec (.start {}) es = some c) : Kept cv c := by
  refine exec_invariant (I := Kept cv) ?_ kept_start hrun
  intro c e c' hkept hnext
  exact (next_kept hcv hkept hnext).1

theorem run_detects (hcv : cv.Lawful) {es : List Event}
    (hrun : (machine cv).exec (.start {}) es = some c) :
    Whenever (DetectsOwnMotion cv) c.history := by
  refine exec_whenever (I := Kept cv) ?_ ?_ kept_start whenever_nil hrun
  · intro c e c' hkept hnext
    exact (next_kept hcv hkept hnext).1
  · intro c e c' out hkept hnext hhist
    obtain ⟨-, out', hhist', hout⟩ := next_kept hcv hkept hnext
    obtain rfl : out' = out := List.append_cancel_left (hhist'.symm.trans hhist)
    exact hout

/-- The event is the rest of a motion request of this camera whose image can be decoded. -/
def ReadsMotion (cv : OpenCv α κ) (s : Service α) (camera : String) : Event → Prop
  | .read index _ =>
      ∃ form pixels, s.waiting[index]? = some form ∧ form.cameraId = camera ∧
        form.mode = "motion" ∧ cv.imdecode form.frame = .image pixels
  | _ => False

/-- The latest image of a camera stays the same in all other steps. -/
theorem next_latestMotion {e : Event} (hnext : (machine cv).next c e = some c')
    (hother : ¬ReadsMotion cv c.state camera e) :
    latestMotion cv camera c'.history = latestMotion cv camera c.history := by
  obtain ⟨out, hstep, hhist⟩ := next_eq_some hnext
  rw [hhist]
  refine latestMotion_append_of_none ?_
  intro o ho
  generalize c'.state = s' at hstep
  cases step_cases hstep with
  | waits form hmode => nomatch ho
  | refused form hmode =>
      rw [List.mem_singleton.mp ho]
      rfl
  | answered index elapsed form _ reply hform hafter =>
      rw [List.mem_singleton.mp ho]
      by_cases hcamera : camera = form.cameraId
      · subst hcamera
        rw [motionImage_self]
        -- an image decoded for motion would be one of the excluded events
        refine Option.eq_none_iff_forall_ne_some.mpr ?_
        intro pixels hmotion
        obtain ⟨hmode, hdec⟩ := decodedMotion_eq_some.mp hmotion
        exact hother ⟨form, pixels, hform, rfl, hmode, hdec⟩
      · exact motionImage_ne hcamera
  | unread index form hform =>
      rw [List.mem_singleton.mp ho]
      rfl

/-- **Every camera is compared with itself only.**  In every run of the service, over
    requests of any cameras, in any modes and in any order:

    * an answer to a motion request has the detections between the latest earlier image of
      its camera that was decoded for motion and its own image (none without such an image,
      or when their sizes differ), and an answer in another mode has none;
    * the reference that is kept for a camera is that of its latest image as it was
      decoded, so nothing that is drawn on an image is in it;
    * only the next such image of a camera changes what is kept for it;
    * no request gets stuck after its `await`. -/
theorem motion_compares_own_camera (cv : OpenCv α κ) (hcv : cv.Lawful) (es : List Event)
    (c : EventMachine.Config (Service α) Output)
    (hrun : (machine cv).exec (.start {}) es = some c) :
    Whenever (DetectsOwnMotion cv) c.history ∧
    (∀ camera, Keeps c.state camera ((latestMotion cv camera c.history).map (reference cv))) ∧
    (∀ e c' camera, (machine cv).next c e = some c' → ¬ReadsMotion cv c.state camera e →
      ∀ kept, Keeps c.state camera kept → Keeps c'.state camera kept) ∧
    ∀ index elapsed, index < c.state.waiting.length →
      ∃ c', (machine cv).next c (.read index elapsed) = some c' := by
  have hkept := run_kept hcv hrun
  refine ⟨run_detects hcv hrun, hkept, ?_, ?_⟩
  · intro e c' camera hnext hother kept hkeeps
    have hkept' := (next_kept hcv hkept hnext).1 camera
    rw [next_latestMotion hnext hother] at hkept'
    rw [hkeeps.unique (hkept camera)]
    exact hkept'
  · intro index elapsed hindex
    obtain ⟨r, hstep⟩ := step_read hcv hkept (List.getElem?_eq_getElem hindex) elapsed
    exact ⟨_, next_of_step hstep⟩

/-! ## A gray pixel -/

/-- A baseline JPEG of one gray pixel. -/
def grayPixelJpeg : List UInt8 :=
  [0xFF, 0xD8, 0xFF, 0xDB, 0x00, 0x43, 0x00] ++ List.replicate 64 1 ++
    [0xFF, 0xC0, 0x00, 0x0B, 0x08, 0x00, 0x01, 0x00, 0x01, 0x01, 0x01, 0x11, 0x00] ++
    [0xFF, 0xC4, 0x00, 0x14, 0x00, 0x01] ++ List.replicate 16 0 ++
    [0xFF, 0xC4, 0x00, 0x14, 0x10, 0x01] ++ List.replicate 16 0 ++
    [0xFF, 0xDA, 0x00, 0x08, 0x01, 0x01, 0x00, 0x00, 0x3F, 0x00, 0x3F, 0xFF, 0xD9]

/-- OpenCV on images of one pixel, which are their channels. -/
def pixelCv : OpenCv (List Nat) Unit where
  imdecode bytes :=
    if bytes = [] then .raises
    else if bytes = grayPixelJpeg then .image [128, 128, 128]
    else .none
  shape a := if a.length = 1 then [1, 1] else [1, 1, a.length]
  cvtColor a conversion :=
    match conversion with
    | .bgrToGray =>
        [(a.getD 0 0 * 1868 + a.getD 1 0 * 9617 + a.getD 2 0 * 4899 + 8192) / 16384]
    | .grayToBgr => List.replicate 3 (a.getD 0 0)
  gaussianBlur a _ _ := a
  absdiff a b := List.zipWith (fun x y => x - y + (y - x)) a b
  threshold a limit value := a.map fun x => if limit < x then value.floor.toNat else 0
  dilate a _ := a
  findContours a := if a = [0] then [] else [()]
  contourArea _ := 0
  boundingRect _ := ⟨0, 0, 1, 1⟩
  canny _ _ _ := [0]
  rectangle _ _ color _ _ := [color.blue, color.green, color.red]
  putText _ _ _ _ _ a := a
  imencode _ _ := .bytes grayPixelJpeg

theorem pixelCv_lawful : pixelCv.Lawful where
  gray_shape := by
    intro frame pixels hdec
    replace hdec : (if frame = [] then .raises
      else if frame = grayPixelJpeg then .image [128, 128, 128] else .none) =
        Decoded.image pixels := hdec
    split at hdec
    · nomatch hdec
    · split at hdec
      · injection hdec with hpixels
        rw [← hpixels]
        rfl
      · nomatch hdec
  blur_shape := fun _ _ _ => rfl

/-- Two cameras: the requests of the first come before and after one of the second that
    cannot be decoded, and one in another mode. -/
def pixelRun : List Event :=
  [.request { frame := grayPixelJpeg, cameraId := "door", timestamp := 1 },
    .request { frame := [0], cameraId := "yard", timestamp := 2 },
    .request { frame := grayPixelJpeg, cameraId := "door", timestamp := 3, mode := "edges" },
    .request { frame := grayPixelJpeg, cameraId := "door", timestamp := 4 },
    .read 2 0, .read 1 0, .read 0 0, .read 0 0]

theorem motion_compares_own_camera_pixelRun :
    ∃ c, (machine pixelCv).exec (.start {}) pixelRun = some c ∧
      Whenever (DetectsOwnMotion pixelCv) c.history ∧
      ∀ camera, Keeps c.state camera
        ((latestMotion pixelCv camera c.history).map (reference pixelCv)) := by
  have hsome : ((machine pixelCv).exec (.start {}) pixelRun).isSome := by decide +kernel
  obtain ⟨c, hrun⟩ := Option.isSome_iff_exists.mp hsome
  obtain ⟨hdetects, hkept, -⟩ :=
    motion_compares_own_camera pixelCv pixelCv_lawful pixelRun c hrun
  exact ⟨c, hrun, hdetects, hkept⟩

end CameraStream.Vision
