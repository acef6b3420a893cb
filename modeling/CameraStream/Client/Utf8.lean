/-
  CameraStream.Client.Utf8

  What `decodeUtf8` accepts: the encodings of texts.

  `utf8` is the encoding of a text by `String.utf8EncodeChar`, character by character,
  and knows nothing of the decoder.  `decodeUtf8_eq_some` says that the bytes with a
  decoding are the values of `utf8`, and that they decode to the code units of the text.
-/

import CameraStream.Client.SocketIoClient

namespace CameraStream.Client

open Js

/-- The UTF-8 encoding of a text. -/
def utf8 (s : String) : Bytes := s.toList.flatMap String.utf8EncodeChar

/-! ## One code point -/

/-- The bytes of a code point, as the decoder tells them apart. -/
inductive Encodes : Nat → Bytes → Prop where
  | one {b : UInt8} (hb : b.toNat < 0x80) : Encodes b.toNat [b]
  | two {b c : UInt8} (hb : inRange 0xC2 0xDF b = true) (hc : inRange 0x80 0xBF c = true) :
      Encodes ((b.toNat - 0xC0) * 0x40 + (c.toNat - 0x80)) [b, c]
  | three {b c d : UInt8} (hd : inRange 0x80 0xBF d = true)
      (hbc : (b = 0xE0 && inRange 0xA0 0xBF c || b = 0xED && inRange 0x80 0x9F c ||
        (inRange 0xE1 0xEC b || inRange 0xEE 0xEF b) && inRange 0x80 0xBF c) = true) :
      Encodes ((b.toNat - 0xE0) * 0x1000 + (c.toNat - 0x80) * 0x40 + (d.toNat - 0x80)) [b, c, d]
  | four {b c d e : UInt8} (hd : inRange 0x80 0xBF d = true) (he : inRange 0x80 0xBF e = true)
      (hbc : (b = 0xF0 && inRange 0x90 0xBF c || inRange 0xF1 0xF3 b && inRange 0x80 0xBF c ||
        b = 0xF4 && inRange 0x80 0x8F c) = true) :
      Encodes ((b.toNat - 0xF0) * 0x40000 + (c.toNat - 0x80) * 0x1000 + (d.toNat - 0x80) * 0x40 +
        (e.toNat - 0x80)) [b, c, d, e]

theorem inRange_iff {lo hi : Nat} {b : UInt8} :
    inRange lo hi b = true ↔ lo ≤ b.toNat ∧ b.toNat ≤ hi := by
  simp [inRange]

theorem byte_eq_iff {b : UInt8} {n : Nat} (h : n < 256) : b = UInt8.ofNat n ↔ b.toNat = n := by
  refine ⟨?_, ?_⟩
  · rintro rfl
    exact UInt8.toNat_ofNat_of_lt h
  · intro hb
    rw [← hb, UInt8.ofNat_toNat]

theorem decodeUtf8_ascii {b : UInt8} {rest : Bytes} (hb : b.toNat < 0x80) :
    decodeUtf8 (b :: rest) = (decodeUtf8 rest).map (utf16Units b.toNat ++ ·) := by
  rw [decodeUtf8.eq_def]
  exact if_pos hb

/-- The lead byte and its successor in a code point of three bytes. -/
theorem threeBytes_iff {b c : UInt8} :
    (b = 0xE0 && inRange 0xA0 0xBF c || b = 0xED && inRange 0x80 0x9F c ||
      (inRange 0xE1 0xEC b || inRange 0xEE 0xEF b) && inRange 0x80 0xBF c) = true ↔
    b.toNat = 0xE0 ∧ 0xA0 ≤ c.toNat ∧ c.toNat ≤ 0xBF ∨
      b.toNat = 0xED ∧ 0x80 ≤ c.toNat ∧ c.toNat ≤ 0x9F ∨
      (0xE1 ≤ b.toNat ∧ b.toNat ≤ 0xEC ∨ 0xEE ≤ b.toNat ∧ b.toNat ≤ 0xEF) ∧
        0x80 ≤ c.toNat ∧ c.toNat ≤ 0xBF := by
  simp only [Bool.or_eq_true, Bool.and_eq_true, decide_eq_true_eq, inRange_iff, or_assoc]
  rw [show b = 0xE0 ↔ b.toNat = 0xE0 from byte_eq_iff (n := 0xE0) (by decide),
    show b = 0xED ↔ b.toNat = 0xED from byte_eq_iff (n := 0xED) (by decide)]

/-- The lead byte and its successor in a code point of four bytes. -/
theorem fourBytes_iff {b c : UInt8} :
    (b = 0xF0 && inRange 0x90 0xBF c || inRange 0xF1 0xF3 b && inRange 0x80 0xBF c ||
      b = 0xF4 && inRange 0x80 0x8F c) = true ↔
    b.toNat = 0xF0 ∧ 0x90 ≤ c.toNat ∧ c.toNat ≤ 0xBF ∨
      (0xF1 ≤ b.toNat ∧ b.toNat ≤ 0xF3) ∧ 0x80 ≤ c.toNat ∧ c.toNat ≤ 0xBF ∨
      b.toNat = 0xF4 ∧ 0x80 ≤ c.toNat ∧ c.toNat ≤ 0x8F := by
  simp only [Bool.or_eq_true, Bool.and_eq_true, decide_eq_true_eq, inRange_iff, or_assoc]
  rw [show b = 0xF0 ↔ b.toNat = 0xF0 from byte_eq_iff (n := 0xF0) (by decide),
    show b = 0xF4 ↔ b.toNat = 0xF4 from byte_eq_iff (n := 0xF4) (by decide)]

/-- The decoder reads the bytes of one code point. -/
theorem decodeUtf8_append {n : Nat} {bs rest : Bytes} (h : Encodes n bs) :
    decodeUtf8 (bs ++ rest) = (decodeUtf8 rest).map (utf16Units n ++ ·) := by
  cases h with
  | one hb => exact decodeUtf8_ascii hb
  -- a longer form fails the tests for the shorter ones before its own
  | @two b c hb hc =>
      have hlead := inRange_iff.mp hb
      have hnot : ¬ b.toNat < 0x80 := by omega
      rw [List.cons_append, decodeUtf8.eq_def]
      simp [hnot, hb, hc]
  | @three b c d hd hbc =>
      have hlead := threeBytes_iff.mp hbc
      have hnot : ¬ b.toNat < 0x80 := by omega
      have htwo : inRange 0xC2 0xDF b = false := by
        rw [Bool.eq_false_iff, Ne, inRange_iff]
        omega
      rw [List.cons_append, decodeUtf8.eq_def]
      simp only [hnot, htwo, hd, hbc, List.cons_append, List.nil_append, if_false, if_true,
        Bool.false_and, Bool.true_and, Bool.false_eq_true]
  | @four b c d e hd he hbc =>
      have hlead := fourBytes_iff.mp hbc
      have hnot : ¬ b.toNat < 0x80 := by omega
      have htwo : inRange 0xC2 0xDF b = false := by
        rw [Bool.eq_false_iff, Ne, inRange_iff]
        omega
      have hthree : ¬ (b = 0xE0 && inRange 0xA0 0xBF c || b = 0xED && inRange 0x80 0x9F c ||
          (inRange 0xE1 0xEC b || inRange 0xEE 0xEF b) && inRange 0x80 0xBF c) = true := by
        rw [threeBytes_iff]
        omega
      rw [List.cons_append, decodeUtf8.eq_def]
      simp only [hnot, htwo, hthree, hd, he, hbc, List.cons_append, List.nil_append, if_false,
        if_true, Bool.false_and, Bool.true_and, Bool.false_eq_true]

/-- A decoding starts with one code point. -/
theorem decodeUtf8_cons {b : UInt8} {bytes : Bytes} {t : JsString}
    (h : decodeUtf8 (b :: bytes) = some t) :
    ∃ n bs rest t', Encodes n bs ∧ b :: bytes = bs ++ rest ∧ decodeUtf8 rest = some t' ∧
      t = utf16Units n ++ t' := by
  rw [decodeUtf8.eq_def] at h
  simp only at h
  -- the decoder looks at one byte, then at two, three and four
  split at h
  · case isTrue hb =>
    obtain ⟨t', ht', rfl⟩ := Option.map_eq_some_iff.mp h
    exact ⟨b.toNat, [b], bytes, t', .one hb, rfl, ht', rfl⟩
  · cases bytes with
    | nil => cases h
    | cons c bytes =>
        simp only at h
        split at h
        · case isTrue hbc =>
          obtain ⟨hb, hc⟩ := Bool.and_eq_true_iff.mp hbc
          obtain ⟨t', ht', rfl⟩ := Option.map_eq_some_iff.mp h
          exact ⟨_, [b, c], bytes, t', .two hb hc, rfl, ht', rfl⟩
        · cases bytes with
          | nil => cases h
          | cons d bytes =>
              simp only at h
              split at h
              · case isTrue hbcd =>
                obtain ⟨hd, hbc⟩ := Bool.and_eq_true_iff.mp hbcd
                obtain ⟨t', ht', rfl⟩ := Option.map_eq_some_iff.mp h
                exact ⟨_, [b, c, d], bytes, t', .three hd hbc, rfl, ht', rfl⟩
              · cases bytes with
                | nil => cases h
                | cons e bytes =>
                    obtain ⟨hbcde, hmap⟩ := Option.ite_none_right_eq_some.mp h
                    obtain ⟨hde, hbc⟩ := Bool.and_eq_true_iff.mp hbcde
                    obtain ⟨hd, he⟩ := Bool.and_eq_true_iff.mp hde
                    obtain ⟨t', ht', rfl⟩ := Option.map_eq_some_iff.mp hmap
                    exact ⟨_, [b, c, d, e], bytes, t', .four hd he hbc, rfl, ht', rfl⟩

theorem utf16Units_ne_nil (n : Nat) : utf16Units n ≠ [] := by
  rw [utf16Units]
  split
  · exact List.cons_ne_nil _ _
  · exact List.cons_ne_nil _ _

/-- Only the empty text is read from no bytes. -/
theorem decodeUtf8_eq_nil {bytes : Bytes} (h : decodeUtf8 bytes = some []) : bytes = [] := by
  cases bytes with
  | nil => rfl
  | cons b bytes =>
      obtain ⟨n, -, -, t', -, -, -, hnil⟩ := decodeUtf8_cons h
      exact absurd (List.append_eq_nil_iff.mp hnil.symm).1 (utf16Units_ne_nil n)

/-! ## Characters -/

/-- The bytes of a character are the bytes of its code point. -/
theorem encodes_char (c : Char) : Encodes c.toNat (String.utf8EncodeChar c) := by
  have hvalid : c.toNat < 0xD800 ∨ 0xDFFF < c.toNat ∧ c.toNat < 0x110000 := c.valid
  have hval : c.val.toNat = c.toNat := rfl
  have hbyte : ∀ {n : Nat}, n < 256 → (UInt8.ofNat n).toNat = n := UInt8.toNat_ofNat_of_lt
  rw [String.utf8EncodeChar]
  simp only [hval]
  generalize c.toNat = n at hvalid
  -- in each range the code point is what its digits make up
  by_cases h1 : n ≤ 0x7F
  · rw [if_pos h1]
    have hb := hbyte (n := n) (by omega)
    have henc : Encodes _ [UInt8.ofNat n] := .one (by omega)
    rwa [hb] at henc
  by_cases h2 : n ≤ 0x7FF
  · rw [if_neg h1, if_pos h2]
    have hb := hbyte (n := n / 64 % 0x20 + 0xC0) (by omega)
    have hc := hbyte (n := n % 0x40 + 0x80) (by omega)
    have henc : Encodes _ [UInt8.ofNat (n / 64 % 0x20 + 0xC0), UInt8.ofNat (n % 0x40 + 0x80)] :=
      .two (inRange_iff.mpr (by omega)) (inRange_iff.mpr (by omega))
    rw [hb, hc] at henc
    convert henc using 1
    omega
  by_cases h3 : n ≤ 0xFFFF
  · rw [if_neg h1, if_neg h2, if_pos h3]
    have hb := hbyte (n := n / 4096 % 0x10 + 0xE0) (by omega)
    have hc := hbyte (n := n / 64 % 0x40 + 0x80) (by omega)
    have hd := hbyte (n := n % 0x40 + 0x80) (by omega)
    have henc : Encodes _ [UInt8.ofNat (n / 4096 % 0x10 + 0xE0),
        UInt8.ofNat (n / 64 % 0x40 + 0x80), UInt8.ofNat (n % 0x40 + 0x80)] :=
      .three (inRange_iff.mpr (by omega)) (threeBytes_iff.mpr (by omega))
    rw [hb, hc, hd] at henc
    convert henc using 1
    omega
  · rw [if_neg h1, if_neg h2, if_neg h3]
    have hb := hbyte (n := n / 262144 % 0x08 + 0xF0) (by omega)
    have hc := hbyte (n := n / 4096 % 0x40 + 0x80) (by omega)
    have hd := hbyte (n := n / 64 % 0x40 + 0x80) (by omega)
    have he := hbyte (n := n % 0x40 + 0x80) (by omega)
    have henc : Encodes _ [UInt8.ofNat (n / 262144 % 0x08 + 0xF0),
        UInt8.ofNat (n / 4096 % 0x40 + 0x80), UInt8.ofNat (n / 64 % 0x40 + 0x80),
        UInt8.ofNat (n % 0x40 + 0x80)] :=
      .four (inRange_iff.mpr (by omega)) (inRange_iff.mpr (by omega)) (fourBytes_iff.mpr (by omega))
    rw [hb, hc, hd, he] at henc
    convert henc using 1
    omega

/-- An encoded code point is that of a character. -/
theorem Encodes.valid {n : Nat} {bs : Bytes} (h : Encodes n bs) :
    n < 0xD800 ∨ 0xDFFF < n ∧ n < 0x110000 := by
  cases h with
  | one hb => omega
  | two hb hc =>
      have hb := inRange_iff.mp hb
      have hc := inRange_iff.mp hc
      omega
  | three hd hbc =>
      have hd := inRange_iff.mp hd
      have hbc := threeBytes_iff.mp hbc
      omega
  | four hd he hbc =>
      have hd := inRange_iff.mp hd
      have he := inRange_iff.mp he
      have hbc := fourBytes_iff.mp hbc
      omega

/-- A code point determines its bytes. -/
theorem Encodes.bytes {n : Nat} {bs : Bytes} (h : Encodes n bs) :
    bs.map UInt8.toNat =
      if n ≤ 0x7F then [n]
      else if n ≤ 0x7FF then [n / 0x40 + 0xC0, n % 0x40 + 0x80]
      else if n ≤ 0xFFFF then [n / 0x1000 + 0xE0, n / 0x40 % 0x40 + 0x80, n % 0x40 + 0x80]
      else [n / 0x40000 + 0xF0, n / 0x1000 % 0x40 + 0x80, n / 0x40 % 0x40 + 0x80,
        n % 0x40 + 0x80] := by
  cases h with
  | one hb => rw [if_pos (by omega), List.map_singleton]
  | two hb hc =>
      have hb := inRange_iff.mp hb
      have hc := inRange_iff.mp hc
      rw [if_neg (by omega), if_pos (by omega)]
      simp only [List.map_cons, List.map_nil, List.cons.injEq, and_true]
      omega
  | three hd hbc =>
      have hd := inRange_iff.mp hd
      have hbc := threeBytes_iff.mp hbc
      rw [if_neg (by omega), if_neg (by omega), if_pos (by omega)]
      simp only [List.map_cons, List.map_nil, List.cons.injEq, and_true]
      omega
  | four hd he hbc =>
      have hd := inRange_iff.mp hd
      have he := inRange_iff.mp he
      have hbc := fourBytes_iff.mp hbc
      rw [if_neg (by omega), if_neg (by omega), if_neg (by omega)]
      simp only [List.map_cons, List.map_nil, List.cons.injEq, and_true]
      omega

theorem Encodes.exists_char {n : Nat} {bs : Bytes} (h : Encodes n bs) :
    ∃ c : Char, c.toNat = n ∧ String.utf8EncodeChar c = bs := by
  have hn : (Char.ofNat n).toNat = n := by
    rw [Char.ofNat, dif_pos h.valid]
    rfl
  refine ⟨Char.ofNat n, hn, ?_⟩
  have hchar : Encodes n (String.utf8EncodeChar (Char.ofNat n)) := by
    have henc := encodes_char (Char.ofNat n)
    rwa [hn] at henc
  have hinj : Function.Injective (List.map UInt8.toNat) :=
    List.map_injective_iff.mpr fun _ _ => UInt8.toNat_inj.mp
  exact hinj (hchar.bytes.trans h.bytes.symm)

/-! ## Texts -/

theorem utf8_ofList (cs : List Char) :
    utf8 (String.ofList cs) = cs.flatMap String.utf8EncodeChar := by
  rw [utf8, String.toList_ofList]

theorem js_ofList (cs : List Char) : js (String.ofList cs) = cs.flatMap encodeUtf16 := by
  rw [js, String.toList_ofList]

theorem decodeUtf8_utf8 (s : String) : decodeUtf8 (utf8 s) = some (js s) := by
  rw [utf8, js]
  induction s.toList with
  | nil => rfl
  | cons c cs ih =>
      rw [List.flatMap_cons, List.flatMap_cons, decodeUtf8_append (encodes_char c), ih]
      rfl

/-- **What the decoder accepts.** -/
theorem decodeUtf8_eq_some {bytes : Bytes} {t : JsString} :
    decodeUtf8 bytes = some t ↔ ∃ s : String, bytes = utf8 s ∧ t = js s := by
  refine ⟨?_, ?_⟩
  · -- one code point after the other
    induction hlen : bytes.length using Nat.strong_induction_on generalizing bytes t with
    | _ len ih =>
        intro h
        cases bytes with
        | nil =>
            cases h
            exact ⟨"", rfl, rfl⟩
        | cons b bytes =>
            obtain ⟨n, bs, rest, t', henc, hsplit, hrest, rfl⟩ := decodeUtf8_cons h
            obtain ⟨c, rfl, rfl⟩ := henc.exists_char
            have hshort : rest.length < len := by
              -- a character has at least one byte
              have hpos : 0 < (String.utf8EncodeChar c).length := by
                rw [String.length_utf8EncodeChar]
                exact Char.utf8Size_pos c
              rw [← hlen, hsplit, List.length_append]
              omega
            obtain ⟨s, rfl, rfl⟩ := ih rest.length hshort rfl hrest
            refine ⟨String.ofList (c :: s.toList), ?_, ?_⟩
            · rw [utf8_ofList, hsplit, List.flatMap_cons, utf8]
            · rw [js_ofList, List.flatMap_cons, js]
              rfl
  · rintro ⟨s, rfl, rfl⟩
    exact decodeUtf8_utf8 s

theorem decodeUtf8_isSome {bytes : Bytes} :
    (decodeUtf8 bytes).isSome = true ↔ ∃ s : String, bytes = utf8 s := by
  rw [Option.isSome_iff_exists]
  refine ⟨?_, ?_⟩
  · rintro ⟨t, h⟩
    obtain ⟨s, hs, -⟩ := decodeUtf8_eq_some.mp h
    exact ⟨s, hs⟩
  · rintro ⟨s, rfl⟩
    exact ⟨_, decodeUtf8_utf8 s⟩

end CameraStream.Client
