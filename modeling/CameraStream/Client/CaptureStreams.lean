/-
  CameraStream.Client.CaptureStreams

  What `capture_loop` makes of streams whose JPEGs are known: JPEGs with garbage before,
  between and behind them, read in any pieces.
-/

import CameraStream.Client.CameraProcess

namespace CameraStream.Client

open FrameScanner

/-- From SOI to EOI, with no EOI in between. -/
structure IsJpeg (j : Bytes) : Prop where
  length : 4 ≤ j.length
  soi : j[0]? = some 0xFF ∧ j[1]? = some 0xD8
  eoi : j[j.length - 2]? = some 0xFF ∧ j[j.length - 1]? = some 0xD9
  inside : ∀ i, 2 ≤ i → i < j.length - 2 → ¬ (j[i]? = some 0xFF ∧ j[i + 1]? = some 0xD9)

/-- No SOI begins in the garbage `g`; `next` is what follows it. -/
def NoSoi (g next : Bytes) : Prop :=
  ∀ i < g.length, ¬ ((g ++ next)[i]? = some 0xFF ∧ (g ++ next)[i + 1]? = some 0xD8)

/-- A stream: JPEGs, each behind some garbage, and garbage behind the last one. -/
def streamOf (parts : List (Bytes × Bytes)) (trailing : Bytes) : Bytes :=
  parts.flatMap (fun p => p.1 ++ p.2) ++ trailing

theorem isFrame_of_isJpeg {j : Bytes} (h : IsJpeg j) : IsFrame soi eoi j where
  length := h.length
  starts := h.soi
  ends := by
    have hlast : j.length - 2 + 1 = j.length - 1 := by
      have hlen := h.length
      omega
    exact ⟨h.eoi.1, hlast ▸ h.eoi.2⟩
  inside i hi hlt := h.inside i hi (by omega)

/-- **Splitting undoes concatenation.** The loop emits the JPEGs of the stream in order and
    nothing else, however the stream is read. -/
theorem splitting_undoes_concatenation (clock : Nat → Int) (parts : List (Bytes × Bytes))
    (trailing : Bytes) (hjpegs : ∀ p ∈ parts, IsJpeg p.2)
    (hsize : ∀ p ∈ parts, p.2.length ≤ kMaximumBufferedBytes)
    (hgarbage : ∀ p ∈ parts, NoSoi p.1 (p.2.take 1)) (htrailing : NoSoi trailing [])
    {chunks : List Bytes} (hchunks : IsChunking (streamOf parts trailing) chunks) :
    ∃ c, captureChunks clock chunks = some c ∧ jpegsOf c.history = parts.map Prod.snd := by
  have hframes : ∀ p ∈ parts, IsFrame soi eoi p.2 := fun p hp => isFrame_of_isJpeg (hjpegs p hp)
  have hone : 1 ≤ kMaximumBufferedBytes := by decide
  -- what is kept between two reads is never longer than a frame, so nothing is discarded
  have hkeep : ∀ t, t <+: streamOf parts trailing →
      (scanFrames soi eoi t).2.length ≤ kMaximumBufferedBytes := fun t ht =>
    residue_of_prefix hgarbage hframes htrailing hone hsize ht
  obtain ⟨c, hrun, hjpegs⟩ := captureChunks_of_residues clock hchunks hkeep
  refine ⟨c, hrun, hjpegs.trans ?_⟩
  have hsplit : (scanFrames soi eoi (streamOf parts trailing)).1 = parts.map Prod.snd :=
    scanFrames_interleave hgarbage hframes htrailing
  rw [refSplit, ← scanFrames_fst, hsplit]

/-- Two JPEGs: a minimal one behind garbage that ends in `FF`, and one that ends in
    `FF FF D9`; both are cut inside their markers. -/
theorem seams_are_split :
    ∃ c, captureChunks (fun n => 1000 + n)
        [[0x00, 0xFF, 0xFF], [0xD8, 0xFF], [0xD9, 0xFF, 0xD8, 0x01, 0xFF], [0xFF], [0xD9, 0xFF]] =
          some c ∧
      jpegsOf c.history = [[0xFF, 0xD8, 0xFF, 0xD9], [0xFF, 0xD8, 0x01, 0xFF, 0xFF, 0xD9]] := by
  have hminimal : IsJpeg [0xFF, 0xD8, 0xFF, 0xD9] := by
    refine ⟨by decide, by decide, by decide, ?_⟩
    intro i hi hlt
    simp only [List.length_cons, List.length_nil] at hlt
    omega
  have hdoubled : IsJpeg [0xFF, 0xD8, 0x01, 0xFF, 0xFF, 0xD9] := by
    refine ⟨by decide, by decide, by decide, ?_⟩
    intro i hi hlt
    simp only [List.length_cons, List.length_nil] at hlt
    obtain rfl | rfl : i = 2 ∨ i = 3 := by omega
    · decide
    · decide
  apply splitting_undoes_concatenation (fun n => 1000 + n)
    [([0x00, 0xFF], [0xFF, 0xD8, 0xFF, 0xD9]), ([], [0xFF, 0xD8, 0x01, 0xFF, 0xFF, 0xD9])] [0xFF]
  · simp [hminimal, hdoubled]
  · decide
  · simp only [NoSoi]
    decide
  · simp only [NoSoi]
    decide
  · exact ⟨by decide, by decide⟩

end CameraStream.Client
