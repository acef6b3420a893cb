/-
  CameraStream.Client.CaptureBuffer

  The buffer `pending` of `capture_loop` in every run: what it holds between two reads,
  how long it gets while a read is processed, and when it is thrown away.

  An observer (`captureReads`) reports each read with the buffers that its processing
  goes through and the callbacks it makes.  After a discard the loop knows nothing of
  what came before, so a read is judged by the bytes received since the last discard:
  their reading (`FrameScanner.Reading`) says which frames are complete and what stands
  from the current SOI on.
-/

import CameraStream.Client.CameraProcess

namespace CameraStream.Client

open EventMachine FrameScanner

/-! ## Reads -/

/-- The values that `pending` takes in the inner `while (true)`. -/
def extractionBuffers (pending : Bytes) : List Bytes :=
  match _h : extractOnce pending with
  | .stop rest => [pending, rest]
  | .frame _ rest => pending :: extractionBuffers rest
termination_by pending.length
decreasing_by exact extractOnce_frame_length _h

/-- One `read` that has returned bytes, processed to the end of the loop body. -/
structure ProcessedRead where
  chunk : Bytes
  /-- The values of `pending`, from before the bytes are appended. -/
  buffers : List Bytes
  outputs : List CaptureOutput

/-- The oversize discard fires. -/
def ProcessedRead.discarded (r : ProcessedRead) : Bool := discardMessage ∈ errorsOf r.outputs

def observeRead (s : CaptureState) (e : ReadEvent) (r : CaptureState × List CaptureOutput) :
    List ProcessedRead :=
  match e with
  | .data chunk =>
      [⟨chunk, s.pending :: extractionBuffers (s.pending ++ chunk) ++ [r.1.pending], r.2⟩]
  | _ => []

/-- `capture_loop`, read by read. -/
def captureReads (clock : Nat → Int) : EventMachine CaptureState ReadEvent ProcessedRead :=
  (captureLoop clock).observe observeRead

/-- The reads after the last discard. -/
def recent (h : List ProcessedRead) : List ProcessedRead := sinceLast ProcessedRead.discarded h

/-- The bytes received since the last discard. -/
def received (h : List ProcessedRead) : Bytes := (recent h).flatMap ProcessedRead.chunk

/-- The JPEGs delivered since the last discard. -/
def delivered (h : List ProcessedRead) : List Bytes :=
  (recent h).flatMap fun r => jpegsOf r.outputs

/-- What may stand in `pending` between two reads: nothing, one byte, or an incomplete
    frame from its SOI on. -/
def Settled (pending : Bytes) : Prop :=
  pending = [] ∨ pending.length = 1 ∨
    MarkerAt soi pending 0 ∧ (∀ i ≥ 2, ¬ MarkerAt eoi pending i) ∧
      pending.length ≤ kMaximumBufferedBytes

variable {clock : Nat → Int} {s : CaptureState} {chunk pending : Bytes}
  {h : List ProcessedRead} {r : ProcessedRead}

/-! ## One read -/

theorem received_concat :
    received (h ++ [r]) = if r.discarded then [] else received h ++ r.chunk := by
  rw [received, recent, sinceLast_concat]
  cases r.discarded with
  | true => rfl
  | false => simp [received, recent]

theorem delivered_concat :
    delivered (h ++ [r]) = if r.discarded then [] else delivered h ++ jpegsOf r.outputs := by
  rw [delivered, recent, sinceLast_concat]
  cases r.discarded with
  | true => rfl
  | false => simp [delivered, recent]

/-- The inner loop only shortens the buffer. -/
theorem extractionBuffers_length : ∀ b ∈ extractionBuffers pending, b.length ≤ pending.length := by
  induction hn : pending.length using Nat.strongRecOn generalizing pending with
  | _ n ih =>
      intro b hb
      rw [extractionBuffers] at hb
      split at hb
      · next rest hstop =>
          -- what is left when the loop ends is the residue
          have hrest : (extractFrames pending).2 = rest := by
            rw [extractFrames]
            split
            · next h' => rw [hstop] at h'; cases h'; rfl
            · next h' => rw [hstop] at h'; cases h'
          have hle := scanFrames_residue_length pending
          rw [← extractFrames_eq, hrest] at hle
          rcases List.mem_pair.mp hb with rfl | rfl
          · omega
          · omega
      · next jpeg rest hframe =>
          have hlt := extractOnce_frame_length hframe
          rcases List.mem_cons.mp hb with rfl | hb
          · omega
          · have hle := ih rest.length (by omega) rfl b hb
            omega

/-- The discard fires exactly when the residue of the inner loop is too long. -/
theorem discard_onData : discardMessage ∈ errorsOf (onData clock s chunk).2 ↔
    kMaximumBufferedBytes < (extractFrames (s.pending ++ chunk)).2.length := by
  have hspared : discardMessage ∉ errorsOf (onData clock s chunk).2 ↔
      (extractFrames (s.pending ++ chunk)).2.length ≤ kMaximumBufferedBytes := undiscarded_onData
  rw [← not_iff_not, hspared, Nat.not_lt]

theorem onData_pending_of_discard
    (hlong : kMaximumBufferedBytes < (extractFrames (s.pending ++ chunk)).2.length) :
    (onData clock s chunk).1.pending = [] := by
  simp [onData, hlong]

/-- Whatever was in the buffer, a read leaves no more than the limit. -/
theorem onData_pending_length :
    (onData clock s chunk).1.pending.length ≤ kMaximumBufferedBytes := by
  by_cases hlong : kMaximumBufferedBytes < (extractFrames (s.pending ++ chunk)).2.length
  · rw [onData_pending_of_discard hlong]
    exact Nat.zero_le _
  · rw [onData_pending fun hmem => hlong (discard_onData.mp hmem)]
    omega

/-- The JPEGs of a read are frames, and no longer than the buffer has been. -/
theorem isFrame_of_extractFrames : ∀ jpeg ∈ (extractFrames pending).1,
    IsFrame soi eoi jpeg ∧ jpeg.length ≤ pending.length := by
  obtain ⟨current, hreading, -⟩ := reading_scanFrames soi eoi pending
  rw [← extractFrames_eq] at hreading
  exact fun jpeg hjpeg => ⟨hreading.isFrame jpeg hjpeg, hreading.length_le jpeg hjpeg⟩

/-! ## The invariant -/

/-- `pending` is what the splitter keeps of the bytes since the last discard, and the
    splitter has handed out the frames that these bytes complete. -/
structure BufferLaw (pending : Bytes) (h : List ProcessedRead) : Prop where
  kept : pending = (scanFrames soi eoi (received h)).2
  handed : delivered h = (scanFrames soi eoi (received h)).1
  short : pending.length ≤ kMaximumBufferedBytes

theorem bufferLaw_start : BufferLaw [] [] where
  kept := by rw [received, recent, sinceLast_nil, List.flatMap_nil, scanFrames_nil]
  handed := by rw [received, recent, sinceLast_nil, List.flatMap_nil, scanFrames_nil]; rfl
  short := Nat.zero_le _

/-- Scanning on from `pending` is scanning on from all the bytes since the last discard. -/
theorem BufferLaw.scan (hlaw : BufferLaw pending h) (chunk : Bytes) :
    scanFrames soi eoi (received h ++ chunk) =
      (delivered h ++ (extractFrames (pending ++ chunk)).1,
        (extractFrames (pending ++ chunk)).2) := by
  rw [scanFrames_append, hlaw.handed, hlaw.kept, extractFrames_eq]

/-- One read keeps the law. -/
theorem bufferLaw_onData (hlaw : BufferLaw s.pending h) (hchunk : r.chunk = chunk)
    (hout : r.outputs = (onData clock s chunk).2) :
    BufferLaw (onData clock s chunk).1.pending (h ++ [r]) := by
  have hscan := hlaw.scan chunk
  have hdiscard : r.discarded = true ↔
      kMaximumBufferedBytes < (extractFrames (s.pending ++ chunk)).2.length := by
    rw [ProcessedRead.discarded, hout, decide_eq_true_iff]
    exact discard_onData
  by_cases hlong : kMaximumBufferedBytes < (extractFrames (s.pending ++ chunk)).2.length
  · -- the buffer is cleared, and nothing has been received since
    have hreceived : received (h ++ [r]) = [] := by
      rw [received_concat, if_pos (hdiscard.mpr hlong)]
    have hdelivered : delivered (h ++ [r]) = [] := by
      rw [delivered_concat, if_pos (hdiscard.mpr hlong)]
    rw [onData_pending_of_discard hlong]
    exact ⟨by rw [hreceived, scanFrames_nil], by rw [hreceived, hdelivered, scanFrames_nil],
      Nat.zero_le _⟩
  · have hkeeps : (onData clock s chunk).1.pending = (extractFrames (s.pending ++ chunk)).2 :=
      onData_pending fun hmem => hlong (discard_onData.mp hmem)
    have hkept : ¬ r.discarded = true := fun hfired => hlong (hdiscard.mp hfired)
    have hreceived : received (h ++ [r]) = received h ++ chunk := by
      rw [received_concat, if_neg hkept, hchunk]
    have hdelivered : delivered (h ++ [r]) =
        delivered h ++ (extractFrames (s.pending ++ chunk)).1 := by
      rw [delivered_concat, if_neg hkept, hout, jpegsOf_onData]
    exact ⟨by rw [hreceived, hkeeps, hscan], by rw [hreceived, hdelivered, hscan],
      onData_pending_length⟩

/-- What the splitter keeps and does not throw away is settled. -/
theorem BufferLaw.settled (hlaw : BufferLaw pending h) : Settled pending := by
  obtain ⟨current, hreading, hkeeps⟩ :=
    reading_scanFrames soi eoi (received h)
  rw [← hlaw.kept] at hkeeps
  cases current with
  | none =>
      have hshort : pending.length ≤ 1 := hkeeps
      rcases Nat.lt_or_eq_of_le hshort with hlt | hone
      · exact .inl (List.length_eq_zero_iff.mp (by omega))
      · exact .inr (.inl hone)
  | some kept =>
      obtain rfl : pending = kept := hkeeps
      obtain ⟨hstart, hopen⟩ := hreading.current
      exact .inr (.inr ⟨hstart, hopen, hlaw.short⟩)

/-- A read delivers the frames that it completes. -/
theorem BufferLaw.prompt (hlaw : BufferLaw s.pending h)
    (hout : r.outputs = (onData clock s r.chunk).2) :
    ∃ current, Reading soi eoi (received h ++ r.chunk) (delivered h ++ jpegsOf r.outputs)
      current := by
  obtain ⟨current, hreading, -⟩ :=
    reading_scanFrames soi eoi (received h ++ r.chunk)
  rw [hlaw.scan r.chunk, ← jpegsOf_onData clock, ← hout] at hreading
  exact ⟨current, hreading⟩

/-- The discard fires exactly when what stands from the current SOI on is too long. -/
theorem BufferLaw.discard (hlaw : BufferLaw s.pending h)
    (hout : r.outputs = (onData clock s r.chunk).2) :
    r.discarded = true ↔ ∃ frames kept,
      Reading soi eoi (received h ++ r.chunk) frames (some kept) ∧
        kMaximumBufferedBytes < kept.length := by
  have hresidue : (scanFrames soi eoi (received h ++ r.chunk)).2 =
      (extractFrames (s.pending ++ r.chunk)).2 := by rw [hlaw.scan r.chunk]
  have hshort := residue_le_iff (received h ++ r.chunk)
  rw [ProcessedRead.discarded, hout, decide_eq_true_iff, discard_onData, ← hresidue,
    ← Nat.not_le, hshort]
  push Not
  exact Iff.rfl

/-- While a read is processed the buffer holds at most the limit and one read. -/
theorem BufferLaw.buffers (hlaw : BufferLaw s.pending h)
    (hlen : chunk.length ≤ kReadBufferBytes) :
    ∀ b ∈ s.pending :: extractionBuffers (s.pending ++ chunk) ++
        [(onData clock s chunk).1.pending],
      b.length ≤ kMaximumBufferedBytes + kReadBufferBytes := by
  have hshort := hlaw.short
  have hafter : (onData clock s chunk).1.pending.length ≤ kMaximumBufferedBytes :=
    onData_pending_length
  intro b hb
  simp only [List.cons_append, List.mem_cons, List.mem_append, List.not_mem_nil, or_false] at hb
  rcases hb with rfl | hb | rfl
  · omega
  · have hle := extractionBuffers_length b hb
    rw [List.length_append] at hle
    omega
  · omega

/-! ## Runs -/

variable {e : ReadEvent} {events : List ReadEvent}
  {c c' : EventMachine.Config CaptureState ProcessedRead}

/-- What a step of the loop is: a read, or nothing that touches the buffer. -/
theorem captureStep_cases {r : CaptureState × List CaptureOutput}
    (hstep : captureStep clock s e = some r) :
    (∃ chunk, e = .data chunk ∧ chunk.length ≤ kReadBufferBytes ∧ r = onData clock s chunk) ∨
      observeRead s e r = [] ∧ r.1.pending = s.pending ∧ jpegsOf r.2 = [] := by
  cases e with
  | data chunk =>
      rw [captureStep] at hstep
      split at hstep
      · next hread => exact .inl ⟨chunk, rfl, hread.2.2, (Option.some.inj hstep).symm⟩
      · cases hstep
  | eof stopped =>
      rw [captureStep] at hstep
      split at hstep
      · cases hstep
        exact .inr ⟨rfl, rfl, by cases stopped <;> rfl⟩
      · cases hstep
  | stopRequested | interrupted | failed =>
      rw [captureStep] at hstep
      split at hstep
      · cases hstep
        exact .inr ⟨rfl, rfl, rfl⟩
      · cases hstep

theorem bufferLaw_next (hlaw : BufferLaw c.state.pending c.history)
    (hnext : (captureReads clock).next c e = some c') :
    BufferLaw c'.state.pending c'.history := by
  obtain ⟨out, hstep, hhist⟩ := observe_next hnext
  rw [hhist]
  rcases captureStep_cases hstep with ⟨chunk, rfl, -, hdata⟩ | ⟨hquiet, hsame, -⟩
  · have hstate : c'.state = (onData clock c.state chunk).1 := congrArg Prod.fst hdata
    have hout : out = (onData clock c.state chunk).2 := congrArg Prod.snd hdata
    rw [hstate]
    exact bufferLaw_onData hlaw rfl hout
  · rw [hquiet, List.append_nil, hsame]
    exact hlaw

theorem bufferLaw_run (hrun : (captureReads clock).exec (.start {}) events = some c) :
    BufferLaw c.state.pending c.history :=
  exec_invariant (I := fun c => BufferLaw c.state.pending c.history)
    (fun _ _ _ => bufferLaw_next) bufferLaw_start hrun

/-- What every read of a run obeys, by the law before it. -/
theorem reads_of_run {P : List ProcessedRead → ProcessedRead → Prop}
    (hread : ∀ s h chunk, BufferLaw s.pending h → chunk.length ≤ kReadBufferBytes →
      ∀ r ∈ observeRead s (.data chunk) (onData clock s chunk), P h r)
    (hrun : (captureReads clock).exec (.start {}) events = some c) : Whenever P c.history := by
  refine exec_whenever (I := fun c => BufferLaw c.state.pending c.history)
    (fun _ _ _ => bufferLaw_next) (fun c e c' out hlaw hnext hhist => ?_) bufferLaw_start
    whenever_nil hrun
  obtain ⟨res, hstep, hobs⟩ := observe_next hnext
  obtain rfl := List.append_cancel_left (hhist.symm.trans hobs)
  rcases captureStep_cases hstep with ⟨chunk, rfl, hlen, hdata⟩ | ⟨hquiet, -⟩
  · rw [hdata]
    have hone := hread c.state c.history chunk hlaw hlen _ List.mem_cons_self
    exact whenever_singleton.mpr (by rwa [List.append_nil])
  · rw [hquiet]
    exact whenever_nil

/-- **The buffer of the capture loop.** Reads of any sizes are processed.  Between two
    reads `pending` is settled, and at no moment does it outgrow its limit by more than a
    read.  Every read delivers at once the frames that its bytes complete, and the
    discard fires exactly when what stands from the current SOI on exceeds the limit. -/
theorem pending_settled_bounded_prompt (clock : Nat → Int) :
    (∀ chunks : List Bytes, (∀ chunk ∈ chunks, 1 ≤ chunk.length ∧
        chunk.length ≤ kReadBufferBytes) →
      ∃ c, (captureReads clock).exec (.start {}) (chunks.map .data) = some c) ∧
    ∀ events c, (captureReads clock).exec (.start {}) events = some c →
      Settled c.state.pending ∧
      (∀ r ∈ c.history, ∀ b ∈ r.buffers,
        b.length ≤ kMaximumBufferedBytes + kReadBufferBytes) ∧
      Whenever (fun before r => ∃ current, Reading soi eoi (received before ++ r.chunk)
        (delivered before ++ jpegsOf r.outputs) current) c.history ∧
      Whenever (fun before r => r.discarded = true ↔ ∃ frames kept,
        Reading soi eoi (received before ++ r.chunk) frames (some kept) ∧
          kMaximumBufferedBytes < kept.length) c.history := by
  refine ⟨fun chunks hchunks => ?_, fun events c hrun => ⟨?_, fun r hr => ?_, ?_, ?_⟩⟩
  · have hread : IsChunking chunks.flatten chunks :=
      ⟨rfl, fun chunk hchunk =>
        ⟨List.length_pos_iff.mp (hchunks chunk hchunk).1, (hchunks chunk hchunk).2⟩⟩
    obtain ⟨c, hexec, -⟩ := captureChunks_eq_refSplit clock hread
    obtain ⟨k, hk⟩ := (exec_observe [] []).mp ⟨c.history, hexec⟩
    exact ⟨_, hk⟩
  · exact (bufferLaw_run hrun).settled
  · have hall : Whenever (fun _ r => ∀ b ∈ r.buffers,
        b.length ≤ kMaximumBufferedBytes + kReadBufferBytes) c.history := by
      refine reads_of_run (fun s h chunk hlaw hlen r hr => ?_) hrun
      obtain rfl := List.mem_singleton.mp hr
      exact hlaw.buffers hlen
    obtain ⟨before, after, hsplit⟩ := List.mem_iff_append.mp hr
    exact hall before r after hsplit
  · refine reads_of_run (fun s h chunk hlaw hlen r hr => ?_) hrun
    obtain rfl := List.mem_singleton.mp hr
    exact hlaw.prompt rfl
  · refine reads_of_run (fun s h chunk hlaw hlen r hr => ?_) hrun
    obtain rfl := List.mem_singleton.mp hr
    exact hlaw.discard rfl

/-- A frame cut inside both markers: the third read delivers it. -/
theorem cut_frame_settles : ∃ c, (captureReads fun _ => 0).exec (.start {})
    [.data [0x00, 0xFF], .data [0xD8, 0x01, 0xFF], .data [0xD9]] = some c ∧
      Settled c.state.pending := by
  obtain ⟨hruns, hlaw⟩ := pending_settled_bounded_prompt fun _ => 0
  obtain ⟨c, hrun⟩ := hruns [[0x00, 0xFF], [0xD8, 0x01, 0xFF], [0xD9]] (by decide)
  exact ⟨c, hrun, (hlaw _ c hrun).1⟩

/-! ## What is delivered -/

/-- Every JPEG that the loop delivers, discards or not, is a frame that fits into the
    buffer and one read. -/
theorem isFrame_of_capture {c : EventMachine.Config CaptureState CaptureOutput}
    (hrun : (captureLoop clock).exec (.start {}) events = some c) :
    ∀ jpeg ∈ jpegsOf c.history, IsFrame soi eoi jpeg ∧
      jpeg.length ≤ kMaximumBufferedBytes + kReadBufferBytes := by
  have hboth : c.state.pending.length ≤ kMaximumBufferedBytes ∧
      ∀ jpeg ∈ jpegsOf c.history, IsFrame soi eoi jpeg ∧
        jpeg.length ≤ kMaximumBufferedBytes + kReadBufferBytes := by
    refine exec_invariant (I := fun c => c.state.pending.length ≤ kMaximumBufferedBytes ∧
      ∀ jpeg ∈ jpegsOf c.history, IsFrame soi eoi jpeg ∧
        jpeg.length ≤ kMaximumBufferedBytes + kReadBufferBytes) ?_
      ⟨Nat.zero_le _, by simp [jpegsOf]⟩ hrun
    rintro c e c' ⟨hshort, hold⟩ hnext
    obtain ⟨out, hstep, hhist⟩ := next_eq_some hnext
    rw [hhist, jpegsOf_append]
    rcases captureStep_cases hstep with ⟨chunk, rfl, hlen, hdata⟩ | ⟨-, hsame, hnone⟩
    · have hstate : c'.state = (onData clock c.state chunk).1 := congrArg Prod.fst hdata
      obtain rfl : out = (onData clock c.state chunk).2 := congrArg Prod.snd hdata
      rw [hstate, jpegsOf_onData]
      refine ⟨onData_pending_length, ?_⟩
      intro jpeg hjpeg
      rcases List.mem_append.mp hjpeg with hjpeg | hjpeg
      · exact hold jpeg hjpeg
      · obtain ⟨hframe, hle⟩ := isFrame_of_extractFrames jpeg hjpeg
        rw [List.length_append] at hle
        exact ⟨hframe, by omega⟩
    · simp only at hsame hnone
      rw [hsame, hnone, List.append_nil]
      exact ⟨hshort, hold⟩
  exact hboth.2

end CameraStream.Client
