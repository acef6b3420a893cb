/-
  CameraStream.Client.CaptureBounds

  The index arithmetic of `find_marker` and of the inner `while (true)` of
  `capture_loop`, statement by statement: every `operator[]`, every sum, every
  subtraction of a size and every iterator range is a checked operation of
  `CheckedBuffer`, and both loops have a limit on their turns.

    * `checkedFindMarker_eq`     — no check of `find_marker` fails, whatever the offset;
    * `findMarker_cases`         — the sentinel means that no marker is there, and a
                                   returned position is that of one;
    * `extractTurn_eq`           — no check of a turn of the inner loop fails;
    * `checkedExtract_eq`        — the inner loop ends, because a turn that goes on takes
                                   at least four bytes off `pending`.
-/

import CameraStream.Lib.CheckedBuffer
import CameraStream.Client.CameraProcess

namespace CameraStream.Client

open FrameScanner CheckedBuffer

/-! ## `find_marker` -/

/-- One turn of the `for` loop of `find_marker`. -/
def findMarkerTurn (bytes : Bytes) (first second : UInt8) (index : Nat) :
    Except Fault (Nat ⊕ Nat) := do
  let next ← advance bytes index 1
  if next < bytes.length then
    let b ← read bytes index
    -- the second byte is read only if the first one matches
    if b = first then
      let b' ← read bytes (← advance bytes index 1)
      if b' = second then return .inr index
      else return .inl next
    else return .inl next
  else return .inr bytes.length

def checkedFindMarker (bytes : Bytes) (first second : UInt8) (offset : Nat := 0) :
    Except Fault Nat := do
  if bytes.length < 2 then return bytes.length
  else
    let last ← sub bytes.length 1
    if offset ≥ last then return bytes.length
    else loop (findMarkerTurn bytes first second) bytes.length offset

variable {bytes pending : Bytes} {first second : UInt8} {offset index : Nat}

theorem findMarkerTurn_eq (first second : UInt8) (h : index < bytes.length) :
    findMarkerTurn bytes first second index = .ok (.inr (findMarkerFrom bytes first second index)) ∨
      findMarkerTurn bytes first second index = .ok (.inl (index + 1)) ∧
        index + 1 < bytes.length ∧
        findMarkerFrom bytes first second (index + 1) =
          findMarkerFrom bytes first second index := by
  rw [findMarkerTurn, advance_ok (by omega), ok_bind, findMarkerFrom]
  by_cases hnext : index + 1 < bytes.length
  · rw [if_pos hnext, dif_pos hnext, read_ok h, ok_bind, ok_bind, read_ok hnext, ok_bind]
    by_cases hfirst : bytes[index] = first
    · by_cases hsecond : bytes[index + 1] = second
      · rw [if_pos hfirst, if_pos hsecond, if_pos ⟨hfirst, hsecond⟩]
        exact .inl rfl
      · rw [if_pos hfirst, if_neg hsecond, if_neg (fun hat => hsecond hat.2)]
        exact .inr ⟨rfl, hnext, rfl⟩
    · rw [if_neg hfirst, if_neg (fun hat => hfirst hat.1)]
      exact .inr ⟨rfl, hnext, rfl⟩
  · rw [if_neg hnext, dif_neg hnext]
    exact .inl rfl

/-- No check of `find_marker` fails, whatever the offset. -/
theorem checkedFindMarker_eq (bytes : Bytes) (first second : UInt8) (offset : Nat) :
    checkedFindMarker bytes first second offset =
      .ok (findMarker bytes first second offset) := by
  rw [checkedFindMarker, findMarker]
  by_cases hshort : bytes.length < 2
  · rw [if_pos hshort, if_pos (.inl hshort)]
    rfl
  · rw [if_neg hshort, sub_ok (by omega), ok_bind]
    by_cases hoff : offset ≥ bytes.length - 1
    · rw [if_pos hoff, if_pos (.inr hoff)]
      rfl
    · rw [if_neg hoff, if_neg (by omega)]
      -- the loop runs at most to the last pair of bytes
      refine loop_eq (I := fun index => index < bytes.length)
        (μ := fun index => bytes.length - 1 - index) (k := 1) Nat.one_pos ?_ (by omega) ?_
      · intro index hindex
        obtain hlast | ⟨hmore, hnext, hsame⟩ :=
          findMarkerTurn_eq first second hindex
        · exact .inl hlast
        · exact .inr ⟨index + 1, hmore, hnext, by omega, hsame⟩
      · rw [Nat.div_one]
        omega

/-- What `find_marker` returns: the sentinel if no marker stands at or behind the
    offset, and the first one otherwise. -/
theorem findMarker_cases (bytes : Bytes) (first second : UInt8) (offset : Nat) :
    (findMarker bytes first second offset = bytes.length ∧
        ∀ i, offset ≤ i → ¬ MarkerAt ⟨first, second⟩ bytes i) ∨
      (offset ≤ findMarker bytes first second offset ∧
        findMarker bytes first second offset + 1 < bytes.length ∧
        MarkerAt ⟨first, second⟩ bytes (findMarker bytes first second offset) ∧
        ∀ i, offset ≤ i → i < findMarker bytes first second offset →
          ¬ MarkerAt ⟨first, second⟩ bytes i) := by
  have hbehind : ∀ i, offset ≤ i →
      (MarkerAt ⟨first, second⟩ (bytes.drop offset) (i - offset) ↔
        MarkerAt ⟨first, second⟩ bytes i) := by
    intro i hi
    rw [markerAt_drop, Nat.add_sub_cancel' hi]
  cases hfind : findPair ⟨first, second⟩ (bytes.drop offset) with
  | none =>
      refine .inl ⟨findMarker_of_none hfind, ?_⟩
      intro i hi hat
      exact findPair_eq_none_iff.mp hfind (i - offset) ((hbehind i hi).mpr hat)
  | some k =>
      obtain ⟨hat, hfirst⟩ := findPair_eq_some_iff.mp hfind
      rw [markerAt_drop] at hat
      rw [findMarker_of_some hfind]
      refine .inr ⟨Nat.le_add_right offset k, hat.lt_length, hat, ?_⟩
      intro i hi hlt hati
      exact hfirst (i - offset) (by omega) ((hbehind i hi).mpr hati)

theorem findMarker_le (bytes : Bytes) (first second : UInt8) (offset : Nat) :
    findMarker bytes first second offset ≤ bytes.length := by
  obtain ⟨heq, -⟩ | ⟨-, hlt, -⟩ := findMarker_cases bytes first second offset
  · omega
  · omega

/-- A position that is not the sentinel has two bytes behind it. -/
theorem findMarker_found (h : findMarker bytes first second offset ≠ bytes.length) :
    offset ≤ findMarker bytes first second offset ∧
      findMarker bytes first second offset + 2 ≤ bytes.length := by
  obtain ⟨heq, -⟩ | ⟨hle, hlt, -⟩ := findMarker_cases bytes first second offset
  · exact absurd heq h
  · omega

/-! ## The inner loop -/

/-- One turn of the inner `while (true)`, from the JPEGs already handed over and
    `pending`. -/
def extractTurn (s : List Bytes × Bytes) :
    Except Fault ((List Bytes × Bytes) ⊕ (List Bytes × Bytes)) := do
  let pending := s.2
  let start ← checkedFindMarker pending 0xFF 0xD8
  if start = pending.length then
    if pending.length > 1 then
      let rest ← erase pending 0 (← sub pending.length 1)
      return .inr (s.1, rest)
    else return .inr (s.1, pending)
  else
    let fin ← checkedFindMarker pending 0xFF 0xD9 (← advance pending start 2)
    if fin = pending.length then
      if start > 0 then
        let rest ← erase pending 0 start
        return .inr (s.1, rest)
      else return .inr (s.1, pending)
    else
      let frameEnd ← advance pending fin 2
      let jpeg ← slice pending start frameEnd
      let rest ← erase pending 0 frameEnd
      return .inl (s.1 ++ [jpeg], rest)

/-- The inner `while (true)` with a limit on its turns. -/
def checkedExtract (turns : Nat) (pending : Bytes) : Except Fault (List Bytes × Bytes) :=
  loop extractTurn turns ([], pending)

/-- No check of a turn fails: it does what `extractOnce` says. -/
theorem extractTurn_eq (jpegs : List Bytes) (pending : Bytes) :
    extractTurn (jpegs, pending) =
      match extractOnce pending with
      | .stop rest => .ok (.inr (jpegs, rest))
      | .frame jpeg rest => .ok (.inl (jpegs ++ [jpeg], rest)) := by
  rw [extractTurn, checkedFindMarker_eq, ok_bind, extractOnce]
  have hstartle := findMarker_le pending 0xFF 0xD8 0
  generalize hs : findMarker pending 0xFF 0xD8 = start at *
  by_cases hstart : start = pending.length
  · rw [if_pos hstart]
    simp only [if_pos hstart]
    by_cases hlen : pending.length > 1
    · rw [if_pos hlen, if_pos hlen, sub_ok (by omega), ok_bind, erase_front (by omega)]
      rfl
    · rw [if_neg hlen, if_neg hlen]
      rfl
  · -- an SOI, with two bytes of its own
    have hsoi : start + 2 ≤ pending.length := by
      rw [← hs] at hstart ⊢
      exact (findMarker_found hstart).2
    simp only [if_neg hstart]
    rw [advance_ok hsoi, ok_bind, checkedFindMarker_eq, ok_bind]
    generalize hf : findMarker pending 0xFF 0xD9 (start + 2) = fin
    by_cases hfin : fin = pending.length
    · simp only [if_pos hfin]
      by_cases hpos : start > 0
      · rw [if_pos hpos, if_pos hpos, erase_front hstartle]
        rfl
      · rw [if_neg hpos, if_neg hpos]
        rfl
    · have heoi : start + 2 ≤ fin ∧ fin + 2 ≤ pending.length := by
        rw [← hf] at hfin ⊢
        exact findMarker_found hfin
      simp only [if_neg hfin]
      rw [advance_ok heoi.2, ok_bind, slice_ok (by omega) heoi.2, ok_bind,
        erase_front heoi.2]
      rfl

/-- A frame takes its SOI and its EOI off `pending`. -/
theorem extractOnce_frame_removes {jpeg rest : Bytes}
    (h : extractOnce pending = .frame jpeg rest) : rest.length + 4 ≤ pending.length := by
  cases hp : findPair soi pending with
  | none => rw [extractOnce_of_none hp] at h; cases h
  | some p =>
      cases hk : findPair eoi (pending.drop (p + 2)) with
      | none => rw [extractOnce_of_open hp hk] at h; cases h
      | some k =>
          have hbound := findPair_bound hk
          rw [List.length_drop] at hbound
          rw [extractOnce_of_frame hp hk] at h
          cases h
          rw [List.length_drop]
          omega

theorem extractFrames_of_stop {rest : Bytes} (h : extractOnce pending = .stop rest) :
    extractFrames pending = ([], rest) := by
  rw [extractFrames]
  split
  · next hstop => rw [h] at hstop; cases hstop; rfl
  · next hframe => rw [h] at hframe; cases hframe

theorem extractFrames_of_frame {jpeg rest : Bytes} (h : extractOnce pending = .frame jpeg rest) :
    extractFrames pending = (jpeg :: (extractFrames rest).1, (extractFrames rest).2) := by
  rw [extractFrames]
  split
  · next hstop => rw [h] at hstop; cases hstop
  · next hframe => rw [h] at hframe; cases hframe; rfl

theorem extractTurn_inl {jpegs jpegs' : List Bytes} {rest : Bytes}
    (h : extractTurn (jpegs, pending) = .ok (.inl (jpegs', rest))) :
    ∃ jpeg, extractOnce pending = .frame jpeg rest ∧ jpegs' = jpegs ++ [jpeg] := by
  rw [extractTurn_eq] at h
  cases hone : extractOnce pending with
  | stop rest' => rw [hone] at h; cases h
  | frame jpeg rest' => rw [hone] at h; cases h; exact ⟨jpeg, rfl, rfl⟩

/-- The loop ends within `pending.size() / 4 + 1` turns, without a failed check. -/
theorem checkedExtract_eq (pending : Bytes) :
    checkedExtract (pending.length / 4 + 1) pending = .ok (extractFrames pending) := by
  refine loop_eq (I := fun _ => True) (μ := fun s : List Bytes × Bytes => s.2.length) (k := 4)
    (f := fun s => (s.1 ++ (extractFrames s.2).1, (extractFrames s.2).2))
    (by omega) ?_ trivial (Nat.lt_succ_self _)
  rintro ⟨jpegs, pending⟩ -
  rw [extractTurn_eq]
  cases hone : extractOnce pending with
  | stop rest =>
      simp only [extractFrames_of_stop hone, List.append_nil]
      exact .inl trivial
  | frame jpeg rest =>
      -- what is left is shorter, and leads to the same JPEGs behind the one taken
      refine .inr ⟨(jpegs ++ [jpeg], rest), rfl, trivial, extractOnce_frame_removes hone, ?_⟩
      simp only [extractFrames_of_frame hone, List.append_assoc, List.singleton_append]

/-- **Termination and bounds of the frame extraction.**  `find_marker` never leaves the
    buffer, its sentinel means that no marker is there, and what else it returns is the
    position of one; a turn of the inner loop that goes on removes at least four bytes;
    the loop ends within `pending.size() / 4 + 1` turns, with every index, subtraction
    and range on the way inside the buffer. -/
theorem extraction_terminates_in_bounds :
    (∀ bytes first second offset,
      checkedFindMarker bytes first second offset =
        .ok (findMarker bytes first second offset) ∧
      (findMarker bytes first second offset = bytes.length ↔
        ∀ i, offset ≤ i → ¬ MarkerAt ⟨first, second⟩ bytes i) ∧
      (findMarker bytes first second offset ≠ bytes.length →
        offset ≤ findMarker bytes first second offset ∧
        findMarker bytes first second offset + 1 < bytes.length ∧
        MarkerAt ⟨first, second⟩ bytes (findMarker bytes first second offset))) ∧
    (∀ jpegs jpegs' pending rest,
      extractTurn (jpegs, pending) = .ok (.inl (jpegs', rest)) →
        rest.length + 4 ≤ pending.length) ∧
    ∀ pending,
      checkedExtract (pending.length / 4 + 1) pending = .ok (extractFrames pending) := by
  refine ⟨?_, ?_, checkedExtract_eq⟩
  · intro bytes first second offset
    refine ⟨checkedFindMarker_eq bytes first second offset, ?_⟩
    obtain ⟨heq, hnone⟩ | ⟨hle, hlt, hat, -⟩ := findMarker_cases bytes first second offset
    · exact ⟨iff_of_true heq hnone, fun hne => absurd heq hne⟩
    · have hne : findMarker bytes first second offset ≠ bytes.length := by omega
      exact ⟨iff_of_false hne (fun hnone => hnone _ hle hat), fun _ => ⟨hle, hlt, hat⟩⟩
  · intro jpegs jpegs' pending rest hturn
    obtain ⟨jpeg, hone, -⟩ := extractTurn_inl hturn
    exact extractOnce_frame_removes hone

end CameraStream.Client
