/-
  CameraStream.Lib.FrameScanner

  Splitting a symbol stream into frames delimited by two-symbol markers, all at
  once and piece by piece.

  `findPair` is the position of the first occurrence of a two-symbol marker.
  `splitFrames` is the batch splitter: from the first start marker to the first
  stop marker behind it, again and again.  `scanFrames` computes the same frames
  and also what a reader has to keep of the input: from an open start marker on,
  or, when there is none, the last symbol (it may be the first half of one).

  An `IncrementalScanner` is a splitter whose residue stands for all the input it
  has consumed (`scan_append`); feeding it any division of a stream gives what
  the stream gives as a whole (`feed_eq_scan`).  `frameScanner` is the instance.

  `Reading` says by the positions of markers what a stream holds, without an
  algorithm: its complete frames and the one that is open.  Every stream has exactly
  one reading (`reading_scanFrames`, `Reading.unique`).
-/

import Mathlib.Data.List.Basic

/-! ## Incremental scanners -/

/-- A splitter of buffers into items and a residue, where scanning on from the
    residue is scanning on from the whole buffer. -/
structure IncrementalScanner (α β : Type*) where
  scan : List α → List β × List α
  scan_append : ∀ l t, scan (l ++ t) =
    ((scan l).1 ++ (scan ((scan l).2 ++ t)).1, (scan ((scan l).2 ++ t)).2)

namespace IncrementalScanner

variable {α β : Type*} (S : IncrementalScanner α β)

/-- Feed chunks one after the other, each behind the residue of the one before. -/
def feed : List α → List (List α) → List β × List α
  | r, [] => ([], r)
  | r, c :: cs =>
      let scanned := S.scan (r ++ c)
      let rest := feed scanned.2 cs
      (scanned.1 ++ rest.1, rest.2)

/-- A residue holds no item and is its own residue. -/
theorem scan_residue (l : List α) : S.scan (S.scan l).2 = ([], (S.scan l).2) := by
  have h := S.scan_append l []
  simp only [List.append_nil] at h
  -- the items of the buffer are all there were: none is left for the residue
  have hitems : (S.scan (S.scan l).2).1 = [] := by
    have hlength := congrArg (fun p => p.1.length) h
    simpa using hlength
  have hrest : (S.scan (S.scan l).2).2 = (S.scan l).2 := (congrArg Prod.snd h).symm
  exact Prod.ext hitems hrest

/-- **Chunking is irrelevant**: feeding chunks from a residue is scanning the
    residue and all the chunks at once. -/
theorem feed_eq_scan {r : List α} (hr : S.scan r = ([], r)) (chunks : List (List α)) :
    S.feed r chunks = S.scan (r ++ chunks.flatten) := by
  induction chunks generalizing r with
  | nil => rw [List.flatten_nil, List.append_nil, hr, feed]
  | cons c cs ih =>
      rw [feed, ih (S.scan_residue (r ++ c)), List.flatten_cons, ← List.append_assoc,
        S.scan_append (r ++ c)]

end IncrementalScanner

/-! ## Two-symbol markers -/

namespace FrameScanner

variable {α : Type*} [DecidableEq α]

/-- A marker: two consecutive symbols. -/
structure Marker (α : Type*) where
  first : α
  second : α

/-- The position of the first occurrence of `m`. -/
def findPair (m : Marker α) : List α → Option Nat
  | x :: y :: rest =>
      if x = m.first ∧ y = m.second then some 0
      else (findPair m (y :: rest)).map (· + 1)
  | _ => none

/-- `m` stands at position `i` of `l`. -/
def MarkerAt (m : Marker α) (l : List α) (i : Nat) : Prop :=
  l[i]? = some m.first ∧ l[i + 1]? = some m.second

variable {m : Marker α} {l t : List α} {i : Nat}

theorem findPair_cons_cons (x y : α) (rest : List α) :
    findPair m (x :: y :: rest) =
      if x = m.first ∧ y = m.second then some 0
      else (findPair m (y :: rest)).map (· + 1) := by
  rw [findPair]

/-- `findPair` finds exactly the first position where the marker stands. -/
theorem findPair_eq_some_iff :
    findPair m l = some i ↔ MarkerAt m l i ∧ ∀ j < i, ¬ MarkerAt m l j := by
  induction l generalizing i with
  | nil => simp [findPair, MarkerAt]
  | cons x rest ih =>
      cases rest with
      | nil => simp [findPair, MarkerAt]
      | cons y rest =>
          rw [findPair_cons_cons]
          have hzero : MarkerAt m (x :: y :: rest) 0 ↔ x = m.first ∧ y = m.second := by
            simp [MarkerAt]
          have hsucc : ∀ j, MarkerAt m (x :: y :: rest) (j + 1) ↔
              MarkerAt m (y :: rest) j := fun j => by simp [MarkerAt]
          -- a marker at the head wins; otherwise everything moves by one
          by_cases hhead : x = m.first ∧ y = m.second
          · rw [if_pos hhead]
            refine ⟨?_, ?_⟩
            · rintro ⟨⟩
              exact ⟨hzero.mpr hhead, fun j hj => absurd hj (Nat.not_lt_zero j)⟩
            · rintro ⟨-, hfirst⟩
              cases i with
              | zero => rfl
              | succ i => exact absurd (hzero.mpr hhead) (hfirst 0 (Nat.succ_pos i))
          · rw [if_neg hhead]
            cases i with
            | zero => simp [hzero, hhead]
            | succ i =>
                simp only [Option.map_eq_some_iff, Nat.add_right_cancel_iff, exists_eq_right]
                rw [ih, hsucc]
                refine ⟨?_, ?_⟩
                · rintro ⟨hat, hfirst⟩
                  refine ⟨hat, ?_⟩
                  intro j hj
                  cases j with
                  | zero => exact fun h => hhead (hzero.mp h)
                  | succ j => exact fun h => hfirst j (by omega) ((hsucc j).mp h)
                · rintro ⟨hat, hfirst⟩
                  exact ⟨hat, fun j hj h => hfirst (j + 1) (by omega) ((hsucc j).mpr h)⟩

/-- A found marker lies inside the list, both symbols. -/
theorem findPair_bound (h : findPair m l = some i) : i + 2 ≤ l.length := by
  obtain ⟨-, hsecond⟩ := (findPair_eq_some_iff.mp h).1
  obtain ⟨hlt, -⟩ := List.getElem?_eq_some_iff.mp hsecond
  omega

/-- A found marker stays the first one when the list grows at the end. -/
theorem findPair_append (h : findPair m l = some i) : findPair m (l ++ t) = some i := by
  have hbound := findPair_bound h
  obtain ⟨⟨h1, h2⟩, hfirst⟩ := findPair_eq_some_iff.mp h
  have hkeep : ∀ j, j < l.length → (l ++ t)[j]? = l[j]? :=
    fun j hj => List.getElem?_append_left hj
  refine findPair_eq_some_iff.mpr ⟨⟨?_, ?_⟩, fun j hj hat => hfirst j hj ⟨?_, ?_⟩⟩
  · rw [hkeep i (by omega), h1]
  · rw [hkeep (i + 1) (by omega), h2]
  · rw [← hkeep j (by omega), hat.1]
  · rw [← hkeep (j + 1) (by omega), hat.2]

/-- In front of the last symbol of a list without marker, everything can go. -/
theorem findPair_append_of_none {x : α} (h : findPair m (l ++ [x]) = none) :
    findPair m (l ++ x :: t) = (findPair m (x :: t)).map (· + l.length) := by
  induction l with
  | nil => simp
  | cons y rest ih =>
      cases rest with
      | nil =>
          have hhead : ¬ (y = m.first ∧ x = m.second) := by
            intro hyx
            simp [findPair, hyx] at h
          simp only [List.cons_append, List.nil_append, findPair_cons_cons, if_neg hhead]
          simp
      | cons z rest =>
          simp only [List.cons_append, findPair_cons_cons] at h ⊢
          by_cases hhead : y = m.first ∧ z = m.second
          · simp [if_pos hhead] at h
          · rw [if_neg hhead] at h ⊢
            have hrest : findPair m (z :: rest ++ [x]) = none := by simpa using h
            have hih := ih hrest
            rw [List.cons_append] at hih
            rw [hih, Option.map_map]
            rfl

/-- From its first marker on, a list starts with the marker. -/
theorem findPair_drop_self (h : findPair m l = some i) :
    findPair m (l.drop i) = some 0 := by
  obtain ⟨hfirst, hsecond⟩ := (findPair_eq_some_iff.mp h).1
  refine findPair_eq_some_iff.mpr ⟨⟨?_, ?_⟩, fun j hj => absurd hj (Nat.not_lt_zero j)⟩
  · simpa [List.getElem?_drop] using hfirst
  · simpa [List.getElem?_drop] using hsecond

/-! ## Frames -/

variable (start stop : Marker α)

/-- The batch splitter.  With `p` the first start marker and `q ≥ p + 2` the
    first stop marker behind it, emit `[p, q + 2)` and go on from `q + 2`. -/
def splitFrames (l : List α) : List (List α) :=
  match _hp : findPair start l with
  | none => []
  | some p =>
      match findPair stop (l.drop (p + 2)) with
      | none => []
      | some k =>
          let q := p + 2 + k
          ((l.drop p).take (q + 2 - p)) :: splitFrames (l.drop (q + 2))
termination_by l.length
decreasing_by
  have hbound := findPair_bound _hp
  simp only [List.length_drop]
  omega

/-- The frames of `l` and what has to be kept of it. -/
def scanFrames (l : List α) : List (List α) × List α :=
  match hp : findPair start l with
  | none => ([], l.drop (l.length - 1))
  | some p =>
      match findPair stop (l.drop (p + 2)) with
      | none => ([], l.drop p)
      | some k =>
          let rest := scanFrames (l.drop (p + 2 + k + 2))
          ((l.drop p).take (k + 4) :: rest.1, rest.2)
termination_by l.length
decreasing_by
  have hbound := findPair_bound hp
  simp only [List.length_drop]
  omega

variable {start stop} {p k : Nat}

theorem scanFrames_of_none (h : findPair start l = none) :
    scanFrames start stop l = ([], l.drop (l.length - 1)) := by
  rw [scanFrames]
  split
  · rfl
  · next hp => rw [h] at hp; cases hp

theorem scanFrames_of_open (hp : findPair start l = some p)
    (hk : findPair stop (l.drop (p + 2)) = none) :
    scanFrames start stop l = ([], l.drop p) := by
  rw [scanFrames]
  split
  · next h => rw [hp] at h; cases h
  · next h =>
      obtain rfl : _ = p := Option.some.inj (h.symm.trans hp)
      simp only [hk]

theorem scanFrames_of_frame (hp : findPair start l = some p)
    (hk : findPair stop (l.drop (p + 2)) = some k) :
    scanFrames start stop l =
      ((l.drop p).take (k + 4) :: (scanFrames start stop (l.drop (p + 2 + k + 2))).1,
        (scanFrames start stop (l.drop (p + 2 + k + 2))).2) := by
  rw [scanFrames]
  split
  · next h => rw [hp] at h; cases h
  · next h =>
      obtain rfl : _ = p := Option.some.inj (h.symm.trans hp)
      simp only [hk]

/-- The incremental splitter emits the frames of the batch splitter. -/
theorem scanFrames_fst (l : List α) : (scanFrames start stop l).1 = splitFrames start stop l := by
  induction hn : l.length using Nat.strongRecOn generalizing l with
  | _ n ih =>
      rw [splitFrames]
      split
      · next hp => rw [scanFrames_of_none hp]
      · next p hp =>
          -- the rest behind the frame is shorter
          have hbound := findPair_bound hp
          cases hk : findPair stop (l.drop (p + 2)) with
          | none => rw [scanFrames_of_open hp hk]
          | some k =>
              rw [scanFrames_of_frame hp hk, ih _ (by rw [List.length_drop]; omega) _ rfl]
              simp only
              congr 2
              omega

/-- What stands in front of the first start marker does not matter. -/
theorem scanFrames_drop (hp : findPair start l = some p) :
    scanFrames start stop (l.drop p) = scanFrames start stop l := by
  have hzero := findPair_drop_self hp
  cases hk : findPair stop (l.drop (p + 2)) with
  | none =>
      have hk' : findPair stop ((l.drop p).drop (0 + 2)) = none := by
        simpa [List.drop_drop] using hk
      rw [scanFrames_of_open hp hk, scanFrames_of_open hzero hk', List.drop_zero]
  | some k =>
      have hk' : findPair stop ((l.drop p).drop (0 + 2)) = some k := by
        simpa [List.drop_drop] using hk
      rw [scanFrames_of_frame hp hk, scanFrames_of_frame hzero hk']
      have hrest : (l.drop p).drop (0 + 2 + k + 2) = l.drop (p + 2 + k + 2) := by
        rw [List.drop_drop]
        congr 1
        omega
      rw [hrest, List.drop_zero]

/-- Of a list without start marker only the last symbol matters. -/
theorem scanFrames_last {x : α} (h : findPair start (l ++ [x]) = none) (t : List α) :
    scanFrames start stop (l ++ x :: t) = scanFrames start stop (x :: t) := by
  have hfind := findPair_append_of_none (t := t) h
  cases hp : findPair start (x :: t) with
  | none =>
      -- no start marker on either side: both keep the last symbol of `x :: t`
      rw [hp, Option.map_none] at hfind
      rw [scanFrames_of_none hfind, scanFrames_of_none hp]
      have hlen : (l ++ x :: t).length - 1 = l.length + ((x :: t).length - 1) := by
        simp only [List.length_append, List.length_cons]
        omega
      rw [hlen, List.drop_append, List.drop_of_length_le (by omega)]
      simp
  | some p =>
      -- the same start marker, `l.length` further on
      rw [hp, Option.map_some] at hfind
      have hdrop : (l ++ x :: t).drop (p + l.length) = (x :: t).drop p := by
        rw [List.drop_append, List.drop_of_length_le (by omega)]
        simp
      rw [← scanFrames_drop hfind, ← scanFrames_drop hp, hdrop]

/-- Scanning on from the residue is scanning on from the whole list. -/
theorem scanFrames_append (l t : List α) : scanFrames start stop (l ++ t) =
    ((scanFrames start stop l).1 ++
        (scanFrames start stop ((scanFrames start stop l).2 ++ t)).1,
      (scanFrames start stop ((scanFrames start stop l).2 ++ t)).2) := by
  induction hn : l.length using Nat.strongRecOn generalizing l with
  | _ n ih =>
      cases hp : findPair start l with
      | none =>
          -- only the last symbol is kept, and only it can matter
          rw [scanFrames_of_none hp]
          rcases List.eq_nil_or_concat l with rfl | ⟨pre, x, rfl⟩
          · simp
          · have hlast : (pre.concat x).drop ((pre.concat x).length - 1) = [x] := by
              simp
            rw [hlast, List.concat_eq_append] at *
            rw [List.append_assoc, List.singleton_append, scanFrames_last hp]
            simp
      | some p =>
          have hbound := findPair_bound hp
          have hp' := findPair_append (t := t) hp
          cases hk : findPair stop (l.drop (p + 2)) with
          | none =>
              -- an open frame is kept from its start marker on
              rw [scanFrames_of_open hp hk, ← scanFrames_drop hp',
                List.drop_append_of_le_length (by omega)]
              simp
          | some k =>
              -- a complete frame is the same in the longer list
              have hkbound := findPair_bound hk
              rw [List.length_drop] at hkbound
              have hk' : findPair stop ((l ++ t).drop (p + 2)) = some k := by
                rw [List.drop_append_of_le_length hbound]
                exact findPair_append hk
              rw [scanFrames_of_frame hp hk, scanFrames_of_frame hp' hk',
                List.drop_append_of_le_length (by omega),
                List.drop_append_of_le_length (by omega),
                List.take_append_of_le_length (by rw [List.length_drop]; omega),
                ih _ (by rw [List.length_drop]; omega) _ rfl]
              simp

/-- The splitter as an incremental scanner. -/
def frameScanner (start stop : Marker α) : IncrementalScanner α (List α) where
  scan := scanFrames start stop
  scan_append := scanFrames_append

/-! ## Streams of frames -/

/-- A frame: the start marker, the stop marker at the end, and no other stop marker behind
    the start marker. -/
structure IsFrame (start stop : Marker α) (j : List α) : Prop where
  length : 4 ≤ j.length
  starts : MarkerAt start j 0
  ends : MarkerAt stop j (j.length - 2)
  inside : ∀ i, 2 ≤ i → i + 2 < j.length → ¬ MarkerAt stop j i

/-- No marker begins in `g`, where `next` follows it. -/
def NoMarker (m : Marker α) (g next : List α) : Prop :=
  ∀ i < g.length, ¬ MarkerAt m (g ++ next) i

/-- Frames, each behind some garbage, and garbage behind the last one. -/
def interleave (parts : List (List α × List α)) (trailing : List α) : List α :=
  parts.flatMap (fun p => p.1 ++ p.2) ++ trailing

variable {g j r : List α}

omit [DecidableEq α] in
theorem markerAt_append (hi : i + 1 < l.length) : MarkerAt m (l ++ t) i ↔ MarkerAt m l i := by
  rw [MarkerAt, MarkerAt, List.getElem?_append_left (by omega), List.getElem?_append_left hi]

omit [DecidableEq α] in
theorem markerAt_drop {n : Nat} : MarkerAt m (l.drop n) i ↔ MarkerAt m l (n + i) := by
  rw [MarkerAt, MarkerAt, List.getElem?_drop, List.getElem?_drop, Nat.add_assoc]

omit [DecidableEq α] in
theorem MarkerAt.lt_length (h : MarkerAt m l i) : i + 1 < l.length :=
  (List.getElem?_eq_some_iff.mp h.2).1

theorem findPair_eq_none_iff : findPair m l = none ↔ ∀ i, ¬ MarkerAt m l i := by
  refine ⟨?_, ?_⟩
  · intro h i
    -- the first one would be found
    induction i using Nat.strongRecOn with
    | _ i ih =>
        intro hat
        rw [findPair_eq_some_iff.mpr ⟨hat, ih⟩] at h
        cases h
  · intro h
    cases hfind : findPair m l with
    | none => rfl
    | some i => exact absurd (findPair_eq_some_iff.mp hfind).1 (h i)

omit [DecidableEq α] in
/-- Only the next symbol can complete a marker. -/
theorem NoMarker.of_take (h : NoMarker m g (t.take 1)) : NoMarker m g t := by
  intro i hi hat
  apply h i hi
  obtain ⟨h1, h2⟩ := hat
  have hsplit : g ++ t = g ++ t.take 1 ++ t.drop 1 := by
    rw [List.append_assoc, List.take_append_drop]
  have hlen : i + 1 < (g ++ t.take 1).length := by
    have hlt := MarkerAt.lt_length ⟨h1, h2⟩
    rw [List.length_append] at hlt ⊢
    rw [List.length_take]
    omega
  rw [← markerAt_append (t := t.drop 1) hlen, ← hsplit]
  exact ⟨h1, h2⟩

/-- Behind garbage the first marker is the one that is expected. -/
theorem findPair_garbage (hg : NoMarker m g t) (ht : MarkerAt m t 0) :
    findPair m (g ++ t) = some g.length := by
  rw [findPair_eq_some_iff]
  refine ⟨?_, hg⟩
  have hdrop : MarkerAt m ((g ++ t).drop g.length) 0 := by rwa [List.drop_left]
  exact markerAt_drop.mp hdrop

/-- The stop marker of a frame is found at its end, whatever follows. -/
theorem IsFrame.findPair_stop (hj : IsFrame start stop j) (t : List α) :
    findPair stop (j.drop 2 ++ t) = some (j.length - 4) := by
  have hlen := hj.length
  have hmoved : ∀ i, i + 4 ≤ j.length →
      (MarkerAt stop (j.drop 2 ++ t) i ↔ MarkerAt stop j (2 + i)) := by
    intro i hi
    rw [markerAt_append (by rw [List.length_drop]; omega), markerAt_drop]
  rw [findPair_eq_some_iff, hmoved _ (by omega)]
  refine ⟨?_, ?_⟩
  · have hend : 2 + (j.length - 4) = j.length - 2 := by omega
    rw [hend]
    exact hj.ends
  · intro k hk
    rw [hmoved k (by omega)]
    exact hj.inside (2 + k) (by omega) (by omega)

/-- A frame behind garbage is emitted, and the scan goes on behind it. -/
theorem scanFrames_frame (hg : NoMarker start g (j.take 1)) (hj : IsFrame start stop j)
    (t : List α) : scanFrames start stop (g ++ (j ++ t)) =
      (j :: (scanFrames start stop t).1, (scanFrames start stop t).2) := by
  have hlen := hj.length
  have hnext : (j ++ t).take 1 = j.take 1 := List.take_append_of_le_length (by omega)
  have hstart : MarkerAt start (j ++ t) 0 := (markerAt_append (by omega)).mpr hj.starts
  have hp : findPair start (g ++ (j ++ t)) = some g.length :=
    findPair_garbage (NoMarker.of_take (hnext ▸ hg)) hstart
  have hk : findPair stop ((g ++ (j ++ t)).drop (g.length + 2)) = some (j.length - 4) := by
    rw [← List.drop_drop, List.drop_left, List.drop_append_of_le_length (by omega)]
    exact hj.findPair_stop t
  have hrest : (g ++ (j ++ t)).drop (g.length + 2 + (j.length - 4) + 2) = t := by
    have hend : g.length + 2 + (j.length - 4) + 2 = g.length + j.length := by omega
    rw [hend, ← List.drop_drop, List.drop_left, List.drop_left]
  have hframe : ((g ++ (j ++ t)).drop g.length).take (j.length - 4 + 4) = j := by
    have hall : j.length - 4 + 4 = j.length := by omega
    rw [hall, List.drop_left, List.take_left]
  rw [scanFrames_of_frame hp hk, hrest, hframe]

/-- **Splitting undoes interleaving.** -/
theorem scanFrames_interleave {parts : List (List α × List α)} {trailing : List α}
    (hgarbage : ∀ p ∈ parts, NoMarker start p.1 (p.2.take 1))
    (hframes : ∀ p ∈ parts, IsFrame start stop p.2) (htrailing : NoMarker start trailing []) :
    (scanFrames start stop (interleave parts trailing)).1 = parts.map Prod.snd := by
  induction parts with
  | nil =>
      have hnone : findPair start trailing = none := by
        rw [findPair_eq_none_iff]
        intro i hat
        have hlt := hat.lt_length
        rw [← List.append_nil trailing] at hat
        exact htrailing i (by omega) hat
      rw [interleave, List.flatMap_nil, List.nil_append, scanFrames_of_none hnone]
      rfl
  | cons p parts ih =>
      obtain ⟨hg, hgs⟩ := List.forall_mem_cons.mp hgarbage
      obtain ⟨hj, hjs⟩ := List.forall_mem_cons.mp hframes
      have hsplit : interleave (p :: parts) trailing =
          p.1 ++ (p.2 ++ interleave parts trailing) := by
        simp [interleave]
      rw [hsplit, scanFrames_frame hg hj, ih hgs hjs, List.map_cons]

/-! ### What is kept in the middle of a stream -/

/-- Without a start marker at most one symbol is kept. -/
theorem residue_of_noMarker (hg : NoMarker start g (t.take 1)) (hr : r <+: g ++ t.take 1) :
    (scanFrames start stop r).2.length ≤ 1 := by
  have hnone : findPair start r = none := by
    rw [findPair_eq_none_iff]
    intro i hat
    obtain ⟨rest, hrest⟩ := hr
    have hlt := hat.lt_length
    have hlen : i < g.length := by
      have hsum := congrArg List.length hrest
      rw [List.length_append, List.length_append, List.length_take] at hsum
      omega
    exact hg i hlen (hrest ▸ (markerAt_append hlt).mpr hat)
  rw [scanFrames_of_none hnone, List.length_drop]
  omega

/-- An incomplete frame is kept from its start marker on. -/
theorem scanFrames_incomplete (hg : NoMarker start g (j.take 1)) (hj : IsFrame start stop j)
    (hr : r <+: j) (htwo : 2 ≤ r.length) (hshort : r.length < j.length) :
    scanFrames start stop (g ++ r) = ([], r) := by
  obtain ⟨rest, hrest⟩ := hr
  have hnext : r.take 1 = j.take 1 := by
    rw [← hrest, List.take_append_of_le_length (by omega)]
  have hstart : MarkerAt start r 0 := by
    have hstarts := hj.starts
    rw [← hrest] at hstarts
    exact (markerAt_append (by omega)).mp hstarts
  have hp : findPair start (g ++ r) = some g.length :=
    findPair_garbage (NoMarker.of_take (hnext ▸ hg)) hstart
  have hk : findPair stop ((g ++ r).drop (g.length + 2)) = none := by
    rw [← List.drop_drop, List.drop_left, findPair_eq_none_iff]
    intro i hat
    -- a stop marker here would stand inside the frame
    have hmoved := markerAt_drop.mp hat
    have hlt := hmoved.lt_length
    apply hj.inside (2 + i) (by omega) (by omega)
    rw [← hrest]
    exact (markerAt_append hlt).mpr hmoved
  rw [scanFrames_of_open hp hk, List.drop_left]

omit [DecidableEq α] in
/-- A beginning of `a ++ b` ends in `a` or in `b`. -/
theorem prefix_append_or {a b : List α} (h : r <+: a ++ b) :
    r <+: a ∨ ∃ t, r = a ++ t ∧ t <+: b := by
  rcases List.prefix_or_prefix_of_prefix h (List.prefix_append a b) with hr | ⟨t, rfl⟩
  · exact .inl hr
  · exact .inr ⟨t, rfl, (List.prefix_append_right_inj a).mp h⟩

/-- **A reader never keeps more than a frame.** -/
theorem residue_of_prefix {parts : List (List α × List α)} {trailing : List α} {bound : Nat}
    (hgarbage : ∀ p ∈ parts, NoMarker start p.1 (p.2.take 1))
    (hframes : ∀ p ∈ parts, IsFrame start stop p.2) (htrailing : NoMarker start trailing [])
    (hone : 1 ≤ bound) (hbound : ∀ p ∈ parts, p.2.length ≤ bound)
    (hr : r <+: interleave parts trailing) : (scanFrames start stop r).2.length ≤ bound := by
  induction parts generalizing r with
  | nil =>
      have hr' : r <+: trailing ++ ([] : List α).take 1 := by simpa [interleave] using hr
      have hshort : (scanFrames start stop r).2.length ≤ 1 := residue_of_noMarker htrailing hr'
      omega
  | cons p parts ih =>
      obtain ⟨hg, hgs⟩ := List.forall_mem_cons.mp hgarbage
      obtain ⟨hj, hjs⟩ := List.forall_mem_cons.mp hframes
      obtain ⟨hb, hbs⟩ := List.forall_mem_cons.mp hbound
      have hsplit : interleave (p :: parts) trailing =
          p.1 ++ (p.2 ++ interleave parts trailing) := by
        simp [interleave]
      have hwhole : ∀ {t}, t <+: interleave parts trailing →
          (scanFrames start stop (p.1 ++ (p.2 ++ t))).2.length ≤ bound := by
        intro t ht
        rw [scanFrames_frame hg hj]
        exact ih hgs hjs hbs ht
      rw [hsplit] at hr
      -- in the garbage, in the frame, or behind it
      rcases prefix_append_or hr with hr | ⟨t, rfl, ht⟩
      · have hshort : (scanFrames start stop r).2.length ≤ 1 :=
          residue_of_noMarker hg (hr.trans (List.prefix_append _ _))
        omega
      · rcases prefix_append_or ht with ht | ⟨u, rfl, hu⟩
        · have hle := ht.length_le
          by_cases htwo : 2 ≤ t.length
          · rcases Nat.lt_or_eq_of_le hle with hlt | heq
            · rw [scanFrames_incomplete hg hj ht htwo hlt]
              show t.length ≤ bound
              omega
            · rw [ht.eq_of_length heq, ← List.append_nil p.2]
              exact hwhole List.nil_prefix
          · have hr' : p.1 ++ t <+: p.1 ++ p.2.take 1 := by
              rw [List.prefix_append_right_inj, List.prefix_take_iff]
              exact ⟨ht, by omega⟩
            have hshort : (scanFrames start stop (p.1 ++ t)).2.length ≤ 1 :=
              residue_of_noMarker hg hr'
            omega
        · exact hwhole hu

/-! ## Readings -/

/-- What a stream holds: the complete frames in order, and what stands from the current
    start marker on, if one is open. -/
inductive Reading (start stop : Marker α) :
    List α → List (List α) → Option (List α) → Prop where
  | idle {l : List α} (hnone : ∀ i, ¬ MarkerAt start l i) : Reading start stop l [] none
  | incomplete {l : List α} {p : Nat} (hstart : MarkerAt start l p)
      (hfirst : ∀ i < p, ¬ MarkerAt start l i) (hopen : ∀ i ≥ p + 2, ¬ MarkerAt stop l i) :
      Reading start stop l [] (some (l.drop p))
  | frame {l : List α} {p q : Nat} {frames : List (List α)} {current : Option (List α)}
      (hstart : MarkerAt start l p) (hfirst : ∀ i < p, ¬ MarkerAt start l i)
      (hpq : p + 2 ≤ q) (hstop : MarkerAt stop l q)
      (hinside : ∀ i, p + 2 ≤ i → i < q → ¬ MarkerAt stop l i)
      (hrest : Reading start stop (l.drop (q + 2)) frames current) :
      Reading start stop l ((l.drop p).take (q + 2 - p) :: frames) current

/-- What is kept of a stream: what stands from an open start marker on, at most one
    symbol otherwise. -/
def Keeps (current : Option (List α)) (kept : List α) : Prop :=
  match current with
  | some l => kept = l
  | none => kept.length ≤ 1

/-- **The incremental splitter reads the stream.** -/
theorem reading_scanFrames (start stop : Marker α) (l : List α) :
    ∃ current, Reading start stop l (scanFrames start stop l).1 current ∧
      Keeps current (scanFrames start stop l).2 := by
  induction hn : l.length using Nat.strongRecOn generalizing l with
  | _ n ih =>
      cases hp : findPair start l with
      | none =>
          rw [scanFrames_of_none hp]
          refine ⟨none, .idle (findPair_eq_none_iff.mp hp), ?_⟩
          show (l.drop (l.length - 1)).length ≤ 1
          rw [List.length_drop]
          omega
      | some p =>
          obtain ⟨hstart, hfirst⟩ := findPair_eq_some_iff.mp hp
          have hbound := findPair_bound hp
          cases hk : findPair stop (l.drop (p + 2)) with
          | none =>
              rw [scanFrames_of_open hp hk]
              refine ⟨some (l.drop p), .incomplete hstart hfirst fun i hi hat => ?_, rfl⟩
              -- a stop marker would be found behind the start marker
              apply findPair_eq_none_iff.mp hk (i - (p + 2))
              rw [markerAt_drop, Nat.add_sub_cancel' hi]
              exact hat
          | some k =>
              obtain ⟨hstop, hinside⟩ := findPair_eq_some_iff.mp hk
              rw [markerAt_drop] at hstop
              obtain ⟨current, hrest, hkeeps⟩ :=
                ih _ (by rw [List.length_drop]; omega) (l.drop (p + 2 + k + 2)) rfl
              rw [scanFrames_of_frame hp hk]
              refine ⟨current, ?_, hkeeps⟩
              have hlength : k + 4 = p + 2 + k + 2 - p := by omega
              rw [hlength]
              refine .frame hstart hfirst (by omega) hstop (fun i hi hlt hat => ?_) hrest
              apply hinside (i - (p + 2)) (by omega)
              rw [markerAt_drop, Nat.add_sub_cancel' hi]
              exact hat

omit [DecidableEq α] in
/-- What stands from the current start marker on begins with it and holds no stop marker. -/
theorem Reading.current {l kept : List α} {frames : List (List α)}
    (h : Reading start stop l frames (some kept)) :
    MarkerAt start kept 0 ∧ ∀ i ≥ 2, ¬ MarkerAt stop kept i := by
  generalize hsome : some kept = current at h
  induction h with
  | idle hnone => cases hsome
  | incomplete hstart hfirst hopen =>
      cases hsome
      refine ⟨markerAt_drop.mpr hstart, ?_⟩
      intro i hi hat
      exact hopen _ (Nat.add_le_add_left hi _) (markerAt_drop.mp hat)
  | frame hstart hfirst hpq hstop hinside hrest ih => exact ih hsome

omit [DecidableEq α] in
/-- Every complete frame is delimited as a frame. -/
theorem Reading.isFrame {l : List α} {frames : List (List α)} {current : Option (List α)}
    (h : Reading start stop l frames current) : ∀ j ∈ frames, IsFrame start stop j := by
  induction h with
  | idle hnone => simp
  | incomplete hstart hfirst hopen => simp
  | @frame l p q frames current hstart hfirst hpq hstop hinside hrest ih =>
      have hlt := hstop.lt_length
      have hlen : ((l.drop p).take (q + 2 - p)).length = q + 2 - p := by
        rw [List.length_take, List.length_drop]
        omega
      -- a marker of the frame is a marker of the stream, `p` further on
      have hmoved : ∀ m : Marker α, ∀ i, i + 1 < q + 2 - p →
          (MarkerAt m ((l.drop p).take (q + 2 - p)) i ↔ MarkerAt m l (p + i)) := by
        intro m i hi
        rw [← markerAt_drop, ← List.take_append_drop (q + 2 - p) (l.drop p),
          markerAt_append (by rw [hlen]; exact hi), List.take_append_drop]
      refine List.forall_mem_cons.mpr ⟨⟨?_, ?_, ?_, fun i hi hend => ?_⟩, ih⟩
      · omega
      · exact (hmoved start 0 (by omega)).mpr hstart
      · rw [hlen, hmoved stop _ (by omega)]
        have hq : p + (q + 2 - p - 2) = q := by omega
        rw [hq]
        exact hstop
      · rw [hlen] at hend
        rw [hmoved stop i (by omega)]
        exact hinside (p + i) (by omega) (by omega)

omit [DecidableEq α] in
/-- A complete frame is no longer than the stream. -/
theorem Reading.length_le {l : List α} {frames : List (List α)} {current : Option (List α)}
    (h : Reading start stop l frames current) : ∀ j ∈ frames, j.length ≤ l.length := by
  induction h with
  | idle hnone => simp
  | incomplete hstart hfirst hopen => simp
  | frame hstart hfirst hpq hstop hinside hrest ih =>
      refine List.forall_mem_cons.mpr ⟨?_, fun j hj => ?_⟩
      · rw [List.length_take, List.length_drop]
        omega
      · have hle := ih j hj
        rw [List.length_drop] at hle
        omega

omit [DecidableEq α] in
/-- Two first positions of a marker are the same. -/
theorem MarkerAt.first_unique {p p' : Nat} (hp : MarkerAt m l p)
    (hfirst : ∀ i < p, ¬ MarkerAt m l i) (hp' : MarkerAt m l p')
    (hfirst' : ∀ i < p', ¬ MarkerAt m l i) : p = p' := by
  rcases Nat.lt_trichotomy p p' with hlt | heq | hlt
  · exact absurd hp (hfirst' p hlt)
  · exact heq
  · exact absurd hp' (hfirst p' hlt)

omit [DecidableEq α] in
/-- A stream has one reading. -/
theorem Reading.unique {l : List α} {frames frames' : List (List α)}
    {current current' : Option (List α)} (h : Reading start stop l frames current)
    (h' : Reading start stop l frames' current') : frames = frames' ∧ current = current' := by
  induction h generalizing frames' current' with
  | idle hnone =>
      cases h' with
      | idle _ => exact ⟨rfl, rfl⟩
      | incomplete hstart _ _ => exact absurd hstart (hnone _)
      | frame hstart _ _ _ _ _ => exact absurd hstart (hnone _)
  | incomplete hstart hfirst hopen =>
      cases h' with
      | idle hnone => exact absurd hstart (hnone _)
      | incomplete hstart' hfirst' _ =>
          obtain rfl := hstart.first_unique hfirst hstart' hfirst'
          exact ⟨rfl, rfl⟩
      | frame hstart' hfirst' hpq hstop _ _ =>
          obtain rfl := hstart.first_unique hfirst hstart' hfirst'
          exact absurd hstop (hopen _ hpq)
  | @frame l p q frames current hstart hfirst hpq hstop hinside hrest ih =>
      cases h' with
      | idle hnone => exact absurd hstart (hnone _)
      | incomplete hstart' hfirst' hopen =>
          obtain rfl := hstart.first_unique hfirst hstart' hfirst'
          exact absurd hstop (hopen _ hpq)
      | @frame _ p' q' _ _ hstart' hfirst' hpq' hstop' hinside' hrest' =>
          obtain rfl := hstart.first_unique hfirst hstart' hfirst'
          -- both stop markers are the first one behind the start marker
          obtain rfl : q = q' := by
            rcases Nat.lt_trichotomy q q' with hlt | heq | hlt
            · exact absurd hstop (hinside' q hpq hlt)
            · exact heq
            · exact absurd hstop' (hinside q' hpq' hlt)
          obtain ⟨rfl, rfl⟩ := ih hrest'
          exact ⟨rfl, rfl⟩

end FrameScanner
