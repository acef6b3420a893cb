/-
  CameraStream.Client.CameraProcess

  `find_marker` and the read loop of `CameraProcess::capture_loop`
  (camera_process.cpp).

  The loop body of `capture_loop` appends what `read` returned to `pending`,
  takes complete JPEGs off its front, and discards the buffer when an incomplete
  frame outgrows it.  `captureLoop` is that loop as an event machine: an event is
  the outcome of one pass through the loop head and `read`, the outputs are the
  calls of the two callbacks.

  `extractFrames_eq` identifies the index arithmetic of the inner loop with the
  incremental splitter of `FrameScanner`; `capture_independent_of_chunking` is
  the consequence for whole streams.
-/

import CameraStream.Lib.EventMachine
import CameraStream.Lib.FrameScanner
import CameraStream.Client.Types

namespace CameraStream.Client

open FrameScanner

/-- `kReadBufferBytes`: the most one `read` returns. -/
def kReadBufferBytes : Nat := 64 * 1024

/-- `kMaximumBufferedBytes`: the most `pending` may hold between reads. -/
def kMaximumBufferedBytes : Nat := 4 * 1024 * 1024

/-! ## `find_marker` -/

/-- The `for` loop of `find_marker`; both reads are in bounds by its condition. -/
def findMarkerFrom (bytes : Bytes) (first second : UInt8) (index : Nat) : Nat :=
  if h : index + 1 < bytes.length then
    if bytes[index] = first ∧ bytes[index + 1] = second then index
    else findMarkerFrom bytes first second (index + 1)
  else bytes.length
termination_by bytes.length - index

/-- The position of the first marker from `offset` on; `bytes.length` if none. -/
def findMarker (bytes : Bytes) (first second : UInt8) (offset : Nat := 0) : Nat :=
  if bytes.length < 2 ∨ offset ≥ bytes.length - 1 then bytes.length
  else findMarkerFrom bytes first second offset

/-- SOI, Start Of Image. -/
def soi : Marker UInt8 := ⟨0xFF, 0xD8⟩

/-- EOI, End Of Image. -/
def eoi : Marker UInt8 := ⟨0xFF, 0xD9⟩

/-- A position found by `findPair` behind `offset`, or the sentinel. -/
def markerIndex (bytes : Bytes) (offset : Nat) : Option Nat → Nat
  | some k => offset + k
  | none => bytes.length

theorem findPair_eq_none_of_short {m : Marker UInt8} {l : Bytes} (h : l.length < 2) :
    findPair m l = none := by
  cases hp : findPair m l with
  | none => rfl
  | some p =>
      have := findPair_bound hp
      omega

theorem findMarkerFrom_eq (bytes : Bytes) (first second : UInt8) (index : Nat) :
    findMarkerFrom bytes first second index =
      markerIndex bytes index (findPair ⟨first, second⟩ (bytes.drop index)) := by
  induction hn : bytes.length - index using Nat.strongRecOn generalizing index with
  | _ n ih =>
      rw [findMarkerFrom]
      by_cases h : index + 1 < bytes.length
      · -- the two bytes that the loop body compares
        have hdrop : bytes.drop index =
            bytes[index] :: bytes[index + 1] :: bytes.drop (index + 2) := by
          rw [List.drop_eq_getElem_cons (by omega), List.drop_eq_getElem_cons h]
        rw [dif_pos h, hdrop, findPair_cons_cons]
        by_cases hat : bytes[index] = first ∧ bytes[index + 1] = second
        · rw [if_pos hat, if_pos hat]
          rfl
        · -- the next turn of the loop
          rw [if_neg hat, if_neg hat, ih _ (by omega) (index + 1) rfl,
            ← List.drop_eq_getElem_cons h]
          cases findPair ⟨first, second⟩ (bytes.drop (index + 1)) with
          | none => rfl
          | some k =>
              simp only [Option.map_some, markerIndex]
              omega
      · rw [dif_neg h, findPair_eq_none_of_short (by rw [List.length_drop]; omega)]
        rfl

/-- `find_marker` from any offset, also from one past the end. -/
theorem findMarker_eq (bytes : Bytes) (first second : UInt8) (offset : Nat) :
    findMarker bytes first second offset =
      markerIndex bytes offset (findPair ⟨first, second⟩ (bytes.drop offset)) := by
  rw [findMarker]
  by_cases h : bytes.length < 2 ∨ offset ≥ bytes.length - 1
  · rw [if_pos h, findPair_eq_none_of_short (by rw [List.length_drop]; omega)]
    rfl
  · rw [if_neg h, findMarkerFrom_eq]

theorem findMarker_of_none {bytes : Bytes} {first second : UInt8} {offset : Nat}
    (h : findPair ⟨first, second⟩ (bytes.drop offset) = none) :
    findMarker bytes first second offset = bytes.length := by
  rw [findMarker_eq, h]
  rfl

theorem findMarker_of_some {bytes : Bytes} {first second : UInt8} {offset k : Nat}
    (h : findPair ⟨first, second⟩ (bytes.drop offset) = some k) :
    findMarker bytes first second offset = offset + k := by
  rw [findMarker_eq, h]
  rfl

/-! ## The inner loop -/

/-- One iteration of the inner `while (true)`: leave it with what remains in
    `pending`, or hand one JPEG to `on_frame` and go on. -/
inductive Extraction where
  | stop (pending : Bytes)
  | frame (jpeg pending : Bytes)

def extractOnce (pending : Bytes) : Extraction :=
  let start := findMarker pending 0xFF 0xD8
  if start = pending.length then
    if pending.length > 1 then
      -- `erase(begin(), end() - 1)`: the last byte may be the first half of an SOI
      .stop (pending.drop (pending.length - 1))
    else .stop pending
  else
    let fin := findMarker pending 0xFF 0xD9 (start + 2)
    if fin = pending.length then
      if start > 0 then .stop (pending.drop start) else .stop pending
    else
      let frameEnd := fin + 2
      .frame ((pending.take frameEnd).drop start) (pending.drop frameEnd)

theorem extractOnce_of_none {pending : Bytes} (h : findPair soi pending = none) :
    extractOnce pending = .stop (pending.drop (pending.length - 1)) := by
  rw [extractOnce, findMarker_of_none (by rw [List.drop_zero]; exact h)]
  simp only [if_true]
  by_cases hlen : pending.length > 1
  · rw [if_pos hlen]
  · rw [if_neg hlen, Nat.sub_eq_zero_of_le (by omega), List.drop_zero]

theorem extractOnce_of_open {pending : Bytes} {p : Nat} (hp : findPair soi pending = some p)
    (hk : findPair eoi (pending.drop (p + 2)) = none) :
    extractOnce pending = .stop (pending.drop p) := by
  have hbound := findPair_bound hp
  have hstart : findMarker pending 0xFF 0xD8 = p := by
    rw [findMarker_of_some (k := p) (by rw [List.drop_zero]; exact hp), Nat.zero_add]
  rw [extractOnce, hstart, if_neg (by omega), findMarker_of_none hk]
  simp only [if_true]
  by_cases hpos : p > 0
  · rw [if_pos hpos]
  · rw [if_neg hpos, Nat.eq_zero_of_not_pos hpos, List.drop_zero]

theorem extractOnce_of_frame {pending : Bytes} {p k : Nat}
    (hp : findPair soi pending = some p)
    (hk : findPair eoi (pending.drop (p + 2)) = some k) :
    extractOnce pending =
      .frame ((pending.drop p).take (k + 4)) (pending.drop (p + 2 + k + 2)) := by
  have hbound := findPair_bound hp
  have hkbound := findPair_bound hk
  rw [List.length_drop] at hkbound
  have hstart : findMarker pending 0xFF 0xD8 = p := by
    rw [findMarker_of_some (k := p) (by rw [List.drop_zero]; exact hp), Nat.zero_add]
  -- the iterator range `[start, frame_end)`
  have htake : (pending.take (p + 2 + k + 2)).drop p = (pending.drop p).take (k + 4) := by
    rw [List.drop_take]
    congr 1
    omega
  rw [extractOnce, hstart, if_neg (by omega), findMarker_of_some hk, if_neg (by omega)]
  simp only [htake]

theorem extractOnce_frame_length {pending jpeg rest : Bytes}
    (h : extractOnce pending = .frame jpeg rest) : rest.length < pending.length := by
  cases hp : findPair soi pending with
  | none => rw [extractOnce_of_none hp] at h; cases h
  | some p =>
      have hbound := findPair_bound hp
      cases hk : findPair eoi (pending.drop (p + 2)) with
      | none => rw [extractOnce_of_open hp hk] at h; cases h
      | some k =>
          rw [extractOnce_of_frame hp hk] at h
          cases h
          rw [List.length_drop]
          omega

/-- The inner `while (true)`: the JPEGs taken off `pending`, and what is left. -/
def extractFrames (pending : Bytes) : List Bytes × Bytes :=
  match _h : extractOnce pending with
  | .stop rest => ([], rest)
  | .frame jpeg rest =>
      let more := extractFrames rest
      (jpeg :: more.1, more.2)
termination_by pending.length
decreasing_by exact extractOnce_frame_length _h

/-- The inner loop is the incremental splitter for SOI and EOI. -/
theorem extractFrames_eq (pending : Bytes) :
    extractFrames pending = scanFrames soi eoi pending := by
  induction hn : pending.length using Nat.strongRecOn generalizing pending with
  | _ n ih =>
      rw [extractFrames]
      cases hp : findPair soi pending with
      | none =>
          rw [scanFrames_of_none hp]
          split
          · next h => rw [extractOnce_of_none hp] at h; cases h; rfl
          · next h => rw [extractOnce_of_none hp] at h; cases h
      | some p =>
          have hbound := findPair_bound hp
          cases hk : findPair eoi (pending.drop (p + 2)) with
          | none =>
              rw [scanFrames_of_open hp hk]
              split
              · next h => rw [extractOnce_of_open hp hk] at h; cases h; rfl
              · next h => rw [extractOnce_of_open hp hk] at h; cases h
          | some k =>
              -- one frame, and the loop goes on behind it
              rw [scanFrames_of_frame hp hk]
              split
              · next h => rw [extractOnce_of_frame hp hk] at h; cases h
              · next h =>
                  rw [extractOnce_of_frame hp hk] at h
                  cases h
                  rw [ih _ (by rw [List.length_drop]; omega) _ rfl]

/-! ## The read loop -/

/-- The outcome of one pass through the loop head and `read`. -/
inductive ReadEvent where
  /-- `stop_requested()` is true at the loop head. -/
  | stopRequested
  /-- `read` returned the bytes `chunk`. -/
  | data (chunk : Bytes)
  /-- `read` returned 0; the flag is `stop_requested()` afterwards. -/
  | eof (stopRequested : Bool)
  /-- `read` failed with `EINTR`. -/
  | interrupted
  /-- `read` failed; the text is `strerror(errno)`. -/
  | failed (reason : String)

/-- The calls of `on_frame` and `on_error`. -/
inductive CaptureOutput where
  | onFrame (frame : Frame)
  | onError (message : String)

structure CaptureState where
  pending : Bytes := []
  /-- Readings of `epoch_milliseconds()` taken so far. -/
  clockReads : Nat := 0
  running : Bool := true

def closedMessage : String := "rpicam-vid closed its output stream"

def readFailedMessage (reason : String) : String := "read() failed: " ++ reason

def discardMessage : String := "MJPEG parser discarded an oversized incomplete frame"

/-- The frames of one read, stamped with consecutive clock readings. -/
def stampFrames (clock : Nat → Int) (first : Nat) (jpegs : List Bytes) :
    List CaptureOutput :=
  jpegs.mapIdx fun i jpeg =>
    .onFrame { timestampMs := clock (first + i), jpeg := jpeg }

/-- `capture_loop` after a successful `read`. -/
def onData (clock : Nat → Int) (s : CaptureState) (chunk : Bytes) :
    CaptureState × List CaptureOutput :=
  let extracted := extractFrames (s.pending ++ chunk)
  let frames := stampFrames clock s.clockReads extracted.1
  let clockReads := s.clockReads + extracted.1.length
  if extracted.2.length > kMaximumBufferedBytes then
    ({ s with pending := [], clockReads }, frames ++ [.onError discardMessage])
  else
    ({ s with pending := extracted.2, clockReads }, frames)

def captureStep (clock : Nat → Int) (s : CaptureState) :
    ReadEvent → Option (CaptureState × List CaptureOutput)
  | .stopRequested =>
      if s.running then some ({ s with running := false }, []) else none
  | .data chunk =>
      -- `read` fills at most the whole buffer, and 0 is the `eof` case
      if s.running ∧ 0 < chunk.length ∧ chunk.length ≤ kReadBufferBytes then
        some (onData clock s chunk)
      else none
  | .eof stopRequested =>
      if s.running then
        some ({ s with running := false },
          if stopRequested then [] else [.onError closedMessage])
      else none
  | .interrupted => if s.running then some (s, []) else none
  | .failed reason =>
      if s.running then
        some ({ s with running := false }, [.onError (readFailedMessage reason)])
      else none

/-- The read loop of `capture_loop`, with the wall clock as a parameter. -/
def captureLoop (clock : Nat → Int) :
    EventMachine CaptureState ReadEvent CaptureOutput := ⟨captureStep clock⟩

/-- The JPEG byte strings passed to `on_frame`, in order. -/
def jpegsOf (h : List CaptureOutput) : List Bytes :=
  h.filterMap fun
    | .onFrame frame => some frame.jpeg
    | .onError _ => none

/-- The messages passed to `on_error`, in order. -/
def errorsOf (h : List CaptureOutput) : List String :=
  h.filterMap fun
    | .onFrame _ => none
    | .onError message => some message

@[simp] theorem jpegsOf_append (h h' : List CaptureOutput) :
    jpegsOf (h ++ h') = jpegsOf h ++ jpegsOf h' := List.filterMap_append

@[simp] theorem errorsOf_append (h h' : List CaptureOutput) :
    errorsOf (h ++ h') = errorsOf h ++ errorsOf h' := List.filterMap_append

@[simp] theorem jpegsOf_stampFrames (clock : Nat → Int) (first : Nat) (jpegs : List Bytes) :
    jpegsOf (stampFrames clock first jpegs) = jpegs := by
  rw [jpegsOf, stampFrames, List.mapIdx_eq_zipIdx_map, List.filterMap_map]
  simp

/-! ## Streams and their chunkings -/

/-- The batch split of a byte stream into JPEGs. -/
def refSplit (stream : Bytes) : List Bytes := splitFrames soi eoi stream

/-- A division of `stream` into what consecutive `read` calls can return. -/
def IsChunking (stream : Bytes) (chunks : List Bytes) : Prop :=
  chunks.flatten = stream ∧ ∀ c ∈ chunks, c ≠ [] ∧ c.length ≤ kReadBufferBytes

/-- The oversize discard never fired. -/
def Undiscarded (h : List CaptureOutput) : Prop := discardMessage ∉ errorsOf h

/-- The read loop over the given chunks, from its initial state. -/
def captureChunks (clock : Nat → Int) (chunks : List Bytes) :
    Option (EventMachine.Config CaptureState CaptureOutput) :=
  (captureLoop clock).exec (.start {}) (chunks.map .data)

theorem capture_next_data (clock : Nat → Int)
    {c : EventMachine.Config CaptureState CaptureOutput} {chunk : Bytes}
    (hrun : c.state.running = true) (hchunk : chunk ≠ [])
    (hlen : chunk.length ≤ kReadBufferBytes) :
    (captureLoop clock).next c (.data chunk) =
      some ⟨(onData clock c.state chunk).1, c.history ++ (onData clock c.state chunk).2⟩ := by
  apply EventMachine.next_of_step
  have hpos : 0 < chunk.length := List.length_pos_iff.mpr hchunk
  simp [captureLoop, captureStep, hrun, hpos, hlen]

@[simp] theorem onData_running (clock : Nat → Int) (s : CaptureState) (chunk : Bytes) :
    (onData clock s chunk).1.running = s.running := by
  simp only [onData]
  split <;> rfl

@[simp] theorem jpegsOf_onData (clock : Nat → Int) (s : CaptureState) (chunk : Bytes) :
    jpegsOf (onData clock s chunk).2 = (extractFrames (s.pending ++ chunk)).1 := by
  simp only [onData]
  split
  · rw [jpegsOf_append, jpegsOf_stampFrames]
    simp [jpegsOf]
  · rw [jpegsOf_stampFrames]

theorem errorsOf_stampFrames (clock : Nat → Int) (first : Nat) (jpegs : List Bytes) :
    errorsOf (stampFrames clock first jpegs) = [] := by
  rw [errorsOf, stampFrames, List.mapIdx_eq_zipIdx_map, List.filterMap_map]
  simp

theorem undiscarded_nil : Undiscarded [] := List.not_mem_nil

theorem undiscarded_append {h h' : List CaptureOutput} :
    Undiscarded (h ++ h') ↔ Undiscarded h ∧ Undiscarded h' := by
  rw [Undiscarded, errorsOf_append, List.mem_append, not_or]
  exact Iff.rfl

/-- The discard spares a read exactly when the residue of the inner loop is not too long. -/
theorem undiscarded_onData {clock : Nat → Int} {s : CaptureState} {chunk : Bytes} :
    Undiscarded (onData clock s chunk).2 ↔
      (extractFrames (s.pending ++ chunk)).2.length ≤ kMaximumBufferedBytes := by
  rw [Undiscarded, onData]
  by_cases hlong : (extractFrames (s.pending ++ chunk)).2.length > kMaximumBufferedBytes
  · simp only [if_pos hlong, errorsOf_append]
    exact iff_of_false (by simp [errorsOf]) (Nat.not_le.mpr hlong)
  · simp only [if_neg hlong, errorsOf_stampFrames]
    exact iff_of_true List.not_mem_nil (Nat.not_lt.mp hlong)

/-- Unless the discard fires, `pending` is the residue of the inner loop. -/
theorem onData_pending {clock : Nat → Int} {s : CaptureState} {chunk : Bytes}
    (h : Undiscarded (onData clock s chunk).2) :
    (onData clock s chunk).1.pending = (extractFrames (s.pending ++ chunk)).2 := by
  have hshort := undiscarded_onData.mp h
  simp [onData, Nat.not_lt.mpr hshort]

/-- The loop processes any reads. -/
theorem capture_runs (clock : Nat → Int) (chunks : List Bytes)
    (hread : ∀ c ∈ chunks, c ≠ [] ∧ c.length ≤ kReadBufferBytes)
    (c : EventMachine.Config CaptureState CaptureOutput) (hrun : c.state.running = true) :
    ∃ c', (captureLoop clock).exec c (chunks.map .data) = some c' ∧
      ∃ out, c'.history = c.history ++ out := by
  induction chunks generalizing c with
  | nil => exact ⟨c, rfl, [], (List.append_nil _).symm⟩
  | cons chunk rest ih =>
      obtain ⟨hne, hlen⟩ := hread chunk List.mem_cons_self
      obtain ⟨c', hexec, out, hhist⟩ := ih (fun d hd => hread d (List.mem_cons_of_mem _ hd))
        ⟨(onData clock c.state chunk).1, c.history ++ (onData clock c.state chunk).2⟩
        (by rw [onData_running]; exact hrun)
      refine ⟨c', ?_, (onData clock c.state chunk).2 ++ out, ?_⟩
      · rw [List.map_cons, EventMachine.exec_cons, capture_next_data clock hrun hne hlen]
        exact hexec
      · rw [hhist, List.append_assoc]

/-- Fed with the chunks behind `kept`, the splitter keeps no more than the limit of any read. -/
def ResiduesFit (kept : Bytes) (chunks : List Bytes) : Prop :=
  ∀ reads, reads <+: chunks → reads ≠ [] →
    ((frameScanner soi eoi).feed kept reads).2.length ≤ kMaximumBufferedBytes

theorem residuesFit_nil (kept : Bytes) : ResiduesFit kept [] :=
  fun _ hreads hne => absurd (List.prefix_nil.mp hreads) hne

theorem residuesFit_cons {kept chunk : Bytes} {rest : List Bytes} :
    ResiduesFit kept (chunk :: rest) ↔
      (scanFrames soi eoi (kept ++ chunk)).2.length ≤ kMaximumBufferedBytes ∧
        ResiduesFit (scanFrames soi eoi (kept ++ chunk)).2 rest := by
  refine ⟨fun h => ⟨?_, fun reads hreads _ => ?_⟩, fun h reads hreads hne => ?_⟩
  · exact h [chunk] (List.prefix_append [chunk] rest) (List.cons_ne_nil _ _)
  · exact h (chunk :: reads) ((List.prefix_cons_inj chunk).mpr hreads) (List.cons_ne_nil _ _)
  · obtain hnil | ⟨more, rfl, hmore⟩ := List.prefix_cons_iff.mp hreads
    · exact absurd hnil hne
    · by_cases hlast : more = []
      · rw [hlast]
        exact h.1
      · exact h.2 more hmore hlast

/-- The loop over chunks feeds the incremental splitter: the discard fires exactly when the
    splitter keeps too much, and up to then the frames are the splitter's. -/
theorem capture_feed (clock : Nat → Int) (chunks : List Bytes)
    (hread : ∀ c ∈ chunks, c ≠ [] ∧ c.length ≤ kReadBufferBytes)
    (c : EventMachine.Config CaptureState CaptureOutput) (hrun : c.state.running = true) :
    ∃ c', (captureLoop clock).exec c (chunks.map .data) = some c' ∧
      ∃ out, c'.history = c.history ++ out ∧
        (Undiscarded out ↔ ResiduesFit c.state.pending chunks) ∧
        (Undiscarded out →
          jpegsOf out = ((frameScanner soi eoi).feed c.state.pending chunks).1) := by
  induction chunks generalizing c with
  | nil =>
      exact ⟨c, rfl, [], (List.append_nil _).symm,
        iff_of_true undiscarded_nil (residuesFit_nil _), fun _ => rfl⟩
  | cons chunk rest ih =>
      obtain ⟨hne, hlen⟩ := hread chunk List.mem_cons_self
      have hmore : ∀ d ∈ rest, d ≠ [] ∧ d.length ≤ kReadBufferBytes :=
        fun d hd => hread d (List.mem_cons_of_mem _ hd)
      have hrun' : (onData clock c.state chunk).1.running = true := by
        rw [onData_running]
        exact hrun
      have hspared : Undiscarded (onData clock c.state chunk).2 ↔
          (scanFrames soi eoi (c.state.pending ++ chunk)).2.length ≤ kMaximumBufferedBytes := by
        rw [undiscarded_onData, extractFrames_eq]
      have hstep : ∀ c', (captureLoop clock).exec
          ⟨(onData clock c.state chunk).1, c.history ++ (onData clock c.state chunk).2⟩
            (rest.map .data) = some c' →
          (captureLoop clock).exec c ((chunk :: rest).map .data) = some c' := by
        intro c' hexec
        rw [List.map_cons, EventMachine.exec_cons, capture_next_data clock hrun hne hlen]
        exact hexec
      by_cases hshort : Undiscarded (onData clock c.state chunk).2
      · -- `pending` is the residue that the splitter carries to the next chunk
        have hpending : (onData clock c.state chunk).1.pending =
            (scanFrames soi eoi (c.state.pending ++ chunk)).2 := by
          rw [onData_pending hshort, extractFrames_eq]
        obtain ⟨c', hexec, out, hhist, hiff, hframes⟩ := ih hmore
          ⟨(onData clock c.state chunk).1, c.history ++ (onData clock c.state chunk).2⟩ hrun'
        simp only [hpending] at hiff hframes
        refine ⟨c', hstep c' hexec, (onData clock c.state chunk).2 ++ out, ?_, ?_, ?_⟩
        · rw [hhist, List.append_assoc]
        · rw [undiscarded_append, residuesFit_cons, ← hspared, hiff]
        · intro hund
          rw [jpegsOf_append, jpegsOf_onData, hframes (undiscarded_append.mp hund).2,
            extractFrames_eq]
          rfl
      · obtain ⟨c', hexec, out, hhist⟩ := capture_runs clock rest hmore
          ⟨(onData clock c.state chunk).1, c.history ++ (onData clock c.state chunk).2⟩ hrun'
        have hfired : ¬ Undiscarded ((onData clock c.state chunk).2 ++ out) :=
          fun hund => hshort (undiscarded_append.mp hund).1
        refine ⟨c', hstep c' hexec, (onData clock c.state chunk).2 ++ out, ?_,
          iff_of_false hfired fun hfit => ?_, fun hund => absurd hund hfired⟩
        · rw [hhist, List.append_assoc]
        · exact hshort (hspared.mpr (residuesFit_cons.mp hfit).1)

theorem scanFrames_nil : scanFrames soi eoi ([] : Bytes) = ([], []) := scanFrames_of_none rfl

/-! ## When nothing is discarded -/

/-- What the splitter keeps is too long exactly when what stands from an open SOI on is. -/
theorem residue_le_iff (stream : Bytes) :
    (scanFrames soi eoi stream).2.length ≤ kMaximumBufferedBytes ↔
      ∀ frames kept, Reading soi eoi stream frames (some kept) →
        kept.length ≤ kMaximumBufferedBytes := by
  obtain ⟨current, hreading, hkeeps⟩ := reading_scanFrames soi eoi stream
  cases current with
  | none =>
      -- garbage leaves at most one byte, and no SOI is open
      have hshort : (scanFrames soi eoi stream).2.length ≤ 1 := hkeeps
      have hone : 1 ≤ kMaximumBufferedBytes := by decide
      refine iff_of_true (hshort.trans hone) ?_
      intro frames kept hopen
      cases (hreading.unique hopen).2
  | some kept =>
      obtain rfl : (scanFrames soi eoi stream).2 = kept := hkeeps
      refine ⟨?_, fun hall => hall _ _ hreading⟩
      intro hle frames kept hopen
      cases (hreading.unique hopen).2
      exact hle

/-- The stream keeps within the limit at every read: of what has been read, at most
    `kMaximumBufferedBytes` stand from the SOI of an incomplete JPEG on. -/
def FitsBuffer (chunks : List Bytes) : Prop :=
  ∀ reads, reads <+: chunks → ∀ frames kept,
    Reading soi eoi reads.flatten frames (some kept) → kept.length ≤ kMaximumBufferedBytes

/-- Fed from the start, the splitter has read what stands in the chunks. -/
theorem feed_nil (chunks : List Bytes) :
    (frameScanner soi eoi).feed [] chunks = scanFrames soi eoi chunks.flatten :=
  (frameScanner soi eoi).feed_eq_scan scanFrames_nil chunks

theorem residuesFit_iff (chunks : List Bytes) : ResiduesFit [] chunks ↔ FitsBuffer chunks := by
  refine ⟨fun h reads hreads => ?_, fun h reads hreads _ => ?_⟩
  · rw [← residue_le_iff]
    by_cases hnil : reads = []
    · rw [hnil, List.flatten_nil, scanFrames_nil]
      exact Nat.zero_le _
    · rw [← feed_nil]
      exact h reads hreads hnil
  · rw [feed_nil, residue_le_iff]
    exact h reads hreads

/-- Over any chunking of a stream the loop runs.  The discard fires exactly when the stream
    does not keep within the limit; otherwise the loop emits the batch split. -/
theorem captureChunks_eq_refSplit (clock : Nat → Int) {stream : Bytes} {chunks : List Bytes}
    (h : IsChunking stream chunks) :
    ∃ c, captureChunks clock chunks = some c ∧ (Undiscarded c.history ↔ FitsBuffer chunks) ∧
      (FitsBuffer chunks → jpegsOf c.history = refSplit stream) := by
  obtain ⟨hflat, hread⟩ := h
  obtain ⟨c, hexec, out, hhist, hiff, hframes⟩ := capture_feed clock chunks hread (.start {}) rfl
  have hfits : Undiscarded out ↔ FitsBuffer chunks := hiff.trans (residuesFit_iff chunks)
  have hsplit : Undiscarded out → jpegsOf out = refSplit stream := by
    intro hund
    refine (hframes hund).trans ?_
    rw [EventMachine.Config.start_state, feed_nil, hflat, scanFrames_fst]
    rfl
  rw [EventMachine.Config.start_history, List.nil_append] at hhist
  rw [← hhist] at hfits hsplit
  exact ⟨c, hexec, hfits, fun h => hsplit (hfits.mpr h)⟩

/-- **Chunking is irrelevant.**  Over every division of a stream into reads the loop runs, and
    discards nothing exactly when the stream keeps within the limit.  Then it emits the batch
    split of the stream; so any two such divisions give the same frames in the same order. -/
theorem capture_independent_of_chunking (clock : Nat → Int) (stream : Bytes) :
    (∀ chunks, IsChunking stream chunks → ∃ c, captureChunks clock chunks = some c ∧
      (Undiscarded c.history ↔ FitsBuffer chunks) ∧
      (FitsBuffer chunks → jpegsOf c.history = refSplit stream)) ∧
    (∀ chunks₁ chunks₂ c₁ c₂, IsChunking stream chunks₁ → IsChunking stream chunks₂ →
      FitsBuffer chunks₁ → FitsBuffer chunks₂ →
      captureChunks clock chunks₁ = some c₁ → captureChunks clock chunks₂ = some c₂ →
      jpegsOf c₁.history = jpegsOf c₂.history) := by
  refine ⟨fun chunks h => captureChunks_eq_refSplit clock h, ?_⟩
  intro chunks₁ chunks₂ c₁ c₂ h₁ h₂ hfits₁ hfits₂ hrun₁ hrun₂
  obtain ⟨d₁, hd₁, -, href₁⟩ := captureChunks_eq_refSplit clock h₁
  obtain ⟨d₂, hd₂, -, href₂⟩ := captureChunks_eq_refSplit clock h₂
  obtain rfl : c₁ = d₁ := Option.some.inj (hrun₁.symm.trans hd₁)
  obtain rfl : c₂ = d₂ := Option.some.inj (hrun₂.symm.trans hd₂)
  exact (href₁ hfits₁).trans (href₂ hfits₂).symm

theorem scanFrames_residue_length (l : Bytes) :
    (scanFrames soi eoi l).2.length ≤ l.length := by
  induction hn : l.length using Nat.strongRecOn generalizing l with
  | _ n ih =>
      cases hp : findPair soi l with
      | none =>
          rw [scanFrames_of_none hp, List.length_drop]
          omega
      | some p =>
          have hbound := findPair_bound hp
          cases hk : findPair eoi (l.drop (p + 2)) with
          | none =>
              rw [scanFrames_of_open hp hk, List.length_drop]
              omega
          | some k =>
              rw [scanFrames_of_frame hp hk]
              have hrest := ih _ (by rw [List.length_drop]; omega) (l.drop (p + 2 + k + 2)) rfl
              rw [List.length_drop] at hrest
              simp only
              omega

/-- Where no beginning of a stream leaves too much, every division of it fits. -/
theorem fitsBuffer_of_residues {stream : Bytes} {chunks : List Bytes}
    (h : IsChunking stream chunks)
    (hkeep : ∀ t, t <+: stream → (scanFrames soi eoi t).2.length ≤ kMaximumBufferedBytes) :
    FitsBuffer chunks := by
  intro reads hreads
  rw [← residue_le_iff]
  obtain ⟨more, rfl⟩ := hreads
  refine hkeep _ ⟨more.flatten, ?_⟩
  rw [← List.flatten_append]
  exact h.1

/-- A stream no longer than the limit keeps within it. -/
theorem fitsBuffer_of_short {stream : Bytes} {chunks : List Bytes}
    (h : IsChunking stream chunks) (hlen : stream.length ≤ kMaximumBufferedBytes) :
    FitsBuffer chunks := by
  refine fitsBuffer_of_residues h fun t ht => ?_
  have hresidue := scanFrames_residue_length t
  have hle := ht.length_le
  omega

/-- Cuts inside the garbage, inside the SOI and inside the EOI, or only one inside the EOI. -/
theorem capture_cut_inside_markers :
    ∃ c d, captureChunks (fun _ => 0) [[0x00, 0xFF], [0xD8, 0x01, 0xFF], [0xD9, 0x02]] = some c ∧
      captureChunks (fun _ => 0) [[0x00, 0xFF, 0xD8, 0x01, 0xFF], [0xD9, 0x02]] = some d ∧
      Undiscarded c.history ∧ jpegsOf c.history = [[0xFF, 0xD8, 0x01, 0xFF, 0xD9]] ∧
      jpegsOf d.history = jpegsOf c.history := by
  have hsplit : refSplit [0x00, 0xFF, 0xD8, 0x01, 0xFF, 0xD9, 0x02] =
      [[0xFF, 0xD8, 0x01, 0xFF, 0xD9]] := by
    simp [refSplit, splitFrames, findPair, soi, eoi]
  have hread : IsChunking [0x00, 0xFF, 0xD8, 0x01, 0xFF, 0xD9, 0x02]
      [[0x00, 0xFF], [0xD8, 0x01, 0xFF], [0xD9, 0x02]] := ⟨rfl, by simp [kReadBufferBytes]⟩
  have hread' : IsChunking [0x00, 0xFF, 0xD8, 0x01, 0xFF, 0xD9, 0x02]
      [[0x00, 0xFF, 0xD8, 0x01, 0xFF], [0xD9, 0x02]] := ⟨rfl, by simp [kReadBufferBytes]⟩
  have hfits := fitsBuffer_of_short hread (by decide)
  have hfits' := fitsBuffer_of_short hread' (by decide)
  obtain ⟨hsplits, hagree⟩ := capture_independent_of_chunking (fun _ => 0)
    [0x00, 0xFF, 0xD8, 0x01, 0xFF, 0xD9, 0x02]
  obtain ⟨c, hrun, hiff, hjpegs⟩ := hsplits _ hread
  obtain ⟨d, hrun', -, -⟩ := hsplits _ hread'
  exact ⟨c, d, hrun, hrun', hiff.mpr hfits, (hjpegs hfits).trans hsplit,
    hagree _ _ d c hread' hread hfits' hfits hrun' hrun⟩

/-- Where no beginning of a stream leaves too much, the discard needs no mention. -/
theorem captureChunks_of_residues (clock : Nat → Int) {stream : Bytes} {chunks : List Bytes}
    (h : IsChunking stream chunks)
    (hkeep : ∀ t, t <+: stream → (scanFrames soi eoi t).2.length ≤ kMaximumBufferedBytes) :
    ∃ c, captureChunks clock chunks = some c ∧ jpegsOf c.history = refSplit stream := by
  obtain ⟨c, hrun, -, href⟩ := captureChunks_eq_refSplit clock h
  exact ⟨c, hrun, href (fitsBuffer_of_residues h hkeep)⟩

/-- Nor does it for a stream no longer than the limit. -/
theorem captureChunks_of_short (clock : Nat → Int) {stream : Bytes} {chunks : List Bytes}
    (h : IsChunking stream chunks) (hlen : stream.length ≤ kMaximumBufferedBytes) :
    ∃ c, captureChunks clock chunks = some c ∧ jpegsOf c.history = refSplit stream := by
  obtain ⟨c, hrun, -, href⟩ := captureChunks_eq_refSplit clock h
  exact ⟨c, hrun, href (fitsBuffer_of_short h hlen)⟩

end CameraStream.Client
