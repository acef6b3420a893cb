/-
  CameraStream.Js.NumberText

  `Number(String(x))` is `x`, for every double and the infinities.

  `String` prints the shortest digits that read back (`shortestDigits`); that seventeen
  always do is `candidate_seventeen`.  Each of the four layouts is read back as its digits
  times a power of ten (`ofString_positive`).
-/

import CameraStream.Js.Rounding
import CameraStream.Lib.TextRuns

namespace CameraStream.Js.Number

/-! ## Digits -/

theorem natToJs_eq (n : Nat) :
    natToJs n = (Nat.toDigits 10 n).map fun c => c.toNat.toUInt16 := by
  have hdigit : ∀ c ∈ Nat.toDigits 10 n, encodeUtf16 c = [c.toNat.toUInt16] := by
    intro c hc
    have h := TextRuns.toNat_of_isDigit (Nat.isDigit_of_mem_toDigits (by omega) (by omega) hc)
    exact if_pos (by omega)
  rw [natToJs, js, Nat.toString_eq_repr, Nat.toList_repr, List.flatMap_congr hdigit]
  exact List.map_eq_flatMap.symm

theorem toNat_digit {c : Char} (h : c.isDigit = true) : c.toNat.toUInt16.toNat = c.toNat := by
  have hbounds := TextRuns.toNat_of_isDigit h
  refine UInt16.toNat_ofNat_of_lt ?_
  show _ < 65536
  omega

theorem isDigit_natToJs {n : Nat} {u : UInt16} (h : u ∈ natToJs n) : isDigit u = true := by
  rw [natToJs_eq] at h
  obtain ⟨c, hc, rfl⟩ := List.mem_map.mp h
  have hdigit := Nat.isDigit_of_mem_toDigits (by omega) (by omega) hc
  have hbounds := TextRuns.toNat_of_isDigit hdigit
  rw [isDigit, toNat_digit hdigit, Bool.and_eq_true, decide_eq_true_eq, decide_eq_true_eq]
  omega

theorem digitValue_of_isDigit {u : UInt16} (h : isDigit u = true) :
    digitValue u = u.toNat - 0x30 := by
  rw [isDigit, Bool.and_eq_true, decide_eq_true_eq, decide_eq_true_eq] at h
  exact if_pos h

theorem digitsToNat_natToJs (n : Nat) : digitsToNat 10 (natToJs n) = n := by
  have hstep : ∀ (m : Nat), ∀ c ∈ Nat.toDigits 10 n,
      m * 10 + digitValue c.toNat.toUInt16 = 10 * m + (c.toNat - '0'.toNat) := by
    intro m c hc
    have hdigit := Nat.isDigit_of_mem_toDigits (by omega) (by omega) hc
    have hmem : isDigit c.toNat.toUInt16 = true := by
      refine isDigit_natToJs (n := n) ?_
      rw [natToJs_eq]
      exact List.mem_map_of_mem hc
    rw [digitValue_of_isDigit hmem, toNat_digit hdigit, show '0'.toNat = 0x30 from rfl]
    omega
  rw [digitsToNat, natToJs_eq, List.foldl_map, List.foldl_ext _ _ _ hstep,
    ← Nat.ofDigitChars_eq_foldl]
  exact Nat.ofDigitChars_ten_toDigits

theorem digitsToNat_append (s t : JsString) :
    digitsToNat 10 (s ++ t) = digitsToNat 10 s * 10 ^ t.length + digitsToNat 10 t := by
  have hfold : ∀ (t : JsString) (a : Nat),
      t.foldl (fun n u => n * 10 + digitValue u) a = a * 10 ^ t.length + digitsToNat 10 t := by
    intro t
    induction t with
    | nil =>
        intro a
        simp [digitsToNat]
    | cons u rest ih =>
        intro a
        rw [digitsToNat, List.foldl_cons, List.foldl_cons, ih, ih, List.length_cons, pow_succ]
        ring
  rw [digitsToNat, List.foldl_append, hfold]
  rfl

theorem digitsToNat_zeros (n : Nat) : digitsToNat 10 (zeros n) = 0 := by
  induction n with
  | zero => rfl
  | succ n ih =>
      rw [zeros, List.replicate_succ', digitsToNat_append]
      rw [zeros] at ih
      rw [ih]
      rfl

/-- A number with `k` digits. -/
theorem length_natToJs {s k : Nat} (hk : 0 < k) (hlow : 10 ^ (k - 1) ≤ s) (hhigh : s < 10 ^ k) :
    (natToJs s).length = k := by
  rw [natToJs_eq, List.length_map]
  refine le_antisymm ((Nat.length_toDigits_le_iff (by omega) hk).mpr hhigh) ?_
  by_contra hlt
  have hlt : (Nat.toDigits 10 s).length ≤ k - 1 := by omega
  cases hk' : k - 1 with
  | zero =>
      rw [hk'] at hlt
      have hpos := Nat.length_toDigits_pos (b := 10) (n := s)
      omega
  | succ j =>
      rw [hk'] at hlt hlow
      have hsmall := (Nat.length_toDigits_le_iff (by omega) (Nat.succ_pos j)).mp hlt
      omega

/-! ## The shortest digits -/

/-- The digits stand for `x`. -/
structure Prints (x : ℚ) (k s : Nat) (n : Int) : Prop where
  pos : 0 < k
  low : 10 ^ (k - 1) ≤ s
  high : s < 10 ^ k
  round : round (s * 10 ^ (n - (k : Int))) = .finite x

variable {x : ℚ} {k s : Nat} {n : Int}

theorem ten_zpow_pos (e : Int) : (0 : ℚ) < 10 ^ e := zpow_pos (by norm_num) e

/-- The digits before rounding lie between two powers of ten. -/
theorem scaled_mem (hx : 0 < x) (k : Nat) :
    (10 : ℚ) ^ ((k : Int) - 1) ≤ x * 10 ^ ((k : Int) - (Int.log 10 x + 1)) ∧
      x * 10 ^ ((k : Int) - (Int.log 10 x + 1)) < 10 ^ k := by
  have hlow : (10 : ℚ) ^ Int.log 10 x ≤ x := Int.zpow_log_le_self (by norm_num) hx
  have hhigh : x < (10 : ℚ) ^ (Int.log 10 x + 1) := Int.lt_zpow_succ_log_self (by norm_num) x
  have hpos := ten_zpow_pos ((k : Int) - (Int.log 10 x + 1))
  refine ⟨?_, ?_⟩
  · calc (10 : ℚ) ^ ((k : Int) - 1)
        = 10 ^ Int.log 10 x * 10 ^ ((k : Int) - (Int.log 10 x + 1)) := by
          rw [← zpow_add₀ (by norm_num)]
          congr 1
          ring
      _ ≤ x * 10 ^ ((k : Int) - (Int.log 10 x + 1)) := mul_le_mul_of_nonneg_right hlow hpos.le
  · calc x * 10 ^ ((k : Int) - (Int.log 10 x + 1))
        < 10 ^ (Int.log 10 x + 1) * 10 ^ ((k : Int) - (Int.log 10 x + 1)) :=
          mul_lt_mul_of_pos_right hhigh hpos
      _ = 10 ^ k := by
          rw [← zpow_add₀ (by norm_num), ← zpow_natCast]
          congr 1
          ring

/-- The rounded digits, as a number. -/
theorem rounded_mem (hx : 0 < x) (hk : 0 < k) :
    (10 : Int) ^ (k - 1) ≤ roundHalfEven (x * 10 ^ ((k : Int) - (Int.log 10 x + 1))) ∧
      roundHalfEven (x * 10 ^ ((k : Int) - (Int.log 10 x + 1))) ≤ 10 ^ k := by
  obtain ⟨hlow, hhigh⟩ := scaled_mem hx k
  refine ⟨le_roundHalfEven ?_, roundHalfEven_le ?_⟩
  · rw [show ((k : Int) - 1) = ((k - 1 : Nat) : Int) by omega, zpow_natCast] at hlow
    exact_mod_cast hlow
  · exact_mod_cast hhigh.le

/-- The other neighbour, too. -/
theorem neighbour_mem (hx : 0 < x) (hk : 0 < k) {d : Int}
    (hd : d = (x * 10 ^ ((k : Int) - (Int.log 10 x + 1))).floor ∨
      d = (x * 10 ^ ((k : Int) - (Int.log 10 x + 1))).floor + 1) :
    (10 : Int) ^ (k - 1) ≤ d ∧ d ≤ 10 ^ k := by
  obtain ⟨hlow, hhigh⟩ := scaled_mem hx k
  rw [show ((k : Int) - 1) = ((k - 1 : Nat) : Int) by omega, zpow_natCast] at hlow
  have hfloor : (10 : Int) ^ (k - 1) ≤ ⌊x * 10 ^ ((k : Int) - (Int.log 10 x + 1))⌋ :=
    Int.le_floor.mpr (by exact_mod_cast hlow)
  have hbelow : ⌊x * 10 ^ ((k : Int) - (Int.log 10 x + 1))⌋ < (10 : Int) ^ k :=
    Int.floor_lt.mpr (by exact_mod_cast hhigh)
  have hsame : (x * 10 ^ ((k : Int) - (Int.log 10 x + 1))).floor =
      ⌊x * 10 ^ ((k : Int) - (Int.log 10 x + 1))⌋ := rfl
  rw [hsame] at hd
  omega

/-- What a reading is: the digits themselves, but for a carry. -/
theorem digitsReading_eq (hk : 0 < k) {d : Int} (hlow : (10 : Int) ^ (k - 1) ≤ d)
    (hhigh : d ≤ 10 ^ k) :
    ∃ (s : Nat) (n : Int), 10 ^ (k - 1) ≤ s ∧ s < 10 ^ k ∧
      (s : ℚ) * 10 ^ (n - (k : Int)) = d * 10 ^ (Int.log 10 x + 1 - (k : Int)) ∧
      digitsReading x k d =
        if round (s * 10 ^ (n - (k : Int))) = .finite x then some (s, n) else none := by
  obtain ⟨s, rfl⟩ : ∃ s : Nat, d = s :=
    Int.eq_ofNat_of_zero_le ((by positivity : (0 : Int) ≤ 10 ^ (k - 1)).trans hlow)
  have hlow : 10 ^ (k - 1) ≤ s := by exact_mod_cast hlow
  have hhigh : s ≤ 10 ^ k := by exact_mod_cast hhigh
  simp only [digitsReading, Int.toNat_natCast]
  rcases hhigh.eq_or_lt with rfl | hlt
  · -- a carry into one more digit
    refine ⟨10 ^ (k - 1), Int.log 10 x + 1 + 1, le_rfl, ?_, ?_, ?_⟩
    · exact Nat.pow_lt_pow_right (by norm_num) (by omega)
    · obtain ⟨j, rfl⟩ : ∃ j, k = j + 1 := ⟨k - 1, by omega⟩
      rw [show Int.log 10 x + 1 + 1 - ((j + 1 : Nat) : Int) =
        1 + (Int.log 10 x + 1 - ((j + 1 : Nat) : Int)) by ring, zpow_add₀ (by norm_num),
        Nat.add_sub_cancel]
      push_cast
      ring
    · rw [if_pos rfl]
  · refine ⟨s, Int.log 10 x + 1, hlow, hlt, ?_, ?_⟩
    · push_cast
      rfl
    · rw [if_neg hlt.ne]

theorem prints_of_reading (hk : 0 < k) {d : Int} (hlow : (10 : Int) ^ (k - 1) ≤ d)
    (hhigh : d ≤ 10 ^ k) (h : digitsReading x k d = some (s, n)) : Prints x k s n := by
  obtain ⟨s', n', hlow', hhigh', -, heq⟩ := digitsReading_eq (x := x) hk hlow hhigh
  rw [heq] at h
  split at h
  · next hround =>
      obtain ⟨rfl, rfl⟩ := Prod.mk.inj (Option.some.inj h)
      exact ⟨hk, hlow', hhigh', hround⟩
  · cases h

theorem prints_of_candidate (hx : 0 < x) (hk : 0 < k) (h : digitsCandidate x k = some (s, n)) :
    Prints x k s n := by
  obtain hnearest | ⟨-, hother⟩ := Option.or_eq_some_iff.mp h
  · obtain ⟨hlow, hhigh⟩ := rounded_mem hx hk
    exact prints_of_reading hk hlow hhigh hnearest
  · -- the neighbour on the other side is the floor or the next integer
    have hside := ite_eq_or_eq (roundHalfEven (x * 10 ^ ((k : Int) - (Int.log 10 x + 1))) =
        (x * 10 ^ ((k : Int) - (Int.log 10 x + 1))).floor)
      ((x * 10 ^ ((k : Int) - (Int.log 10 x + 1))).floor + 1)
      (x * 10 ^ ((k : Int) - (Int.log 10 x + 1))).floor
    obtain ⟨hlow, hhigh⟩ := neighbour_mem hx hk hside.symm
    exact prints_of_reading hk hlow hhigh hother

/-- Seventeen digits are so close to a double that they read back as it. -/
theorem round_of_close (hx : 0 < x) (hdouble : IsDouble x) {q : ℚ}
    (hclose : |q - x| ≤ x / (2 * 10 ^ 16)) : round q = .finite x := by
  obtain ⟨⟨m, hm⟩, hsize⟩ := hdouble.multiple hx
  rw [abs_le] at hclose
  have hq : 0 < q := by
    have hsmall : x / (2 * 10 ^ 16) < x := div_lt_self hx (by norm_num)
    linarith
  have hunit := two_zpow_pos (unitExponent x)
  -- not beyond the next power of two
  have hm' : m < 2 ^ 53 := by
    have hlt := lt_unit x
    rw [hm, ← hm] at hlt
    have hcast : (m : ℚ) < 2 ^ 53 := lt_of_mul_lt_mul_right (hm ▸ hlt) hunit.le
    exact_mod_cast hcast
  have hupper : x ≤ (2 ^ 53 - 1) * 2 ^ unitExponent x := by
    have hcast : (m : ℚ) ≤ 2 ^ 53 - 1 := by
      have hle : m ≤ 2 ^ 53 - 1 := by omega
      exact_mod_cast hle
    calc x = m * 2 ^ unitExponent x := hm
      _ ≤ (2 ^ 53 - 1) * 2 ^ unitExponent x := mul_le_mul_of_nonneg_right hcast hunit.le
  have hbelow : q < 2 ^ 53 * 2 ^ unitExponent x := by
    have hrest : x / (2 * 10 ^ 16) < 2 ^ unitExponent x := by
      rw [div_lt_iff₀ (by norm_num)]
      linarith
    linarith
  have hexp := unitExponent_le hq hbelow (le_max_right _ _)
  obtain ⟨m', hm'⟩ := multiple_of_le (m := m) hexp
  refine round_near hq (hm.trans hm') hsize ?_
  -- less than half a unit away
  have hlt := lt_unit q
  have hhalf : x / (2 * 10 ^ 16) < 2 ^ unitExponent q / 2 := by
    rw [div_lt_iff₀ (by norm_num)]
    have hle : x - x / (2 * 10 ^ 16) ≤ q := by linarith
    have hx' : x / (2 * 10 ^ 16) ≤ x / 10 := by
      apply div_le_div_of_nonneg_left hx.le (by norm_num) (by norm_num)
    linarith
  rw [abs_lt]
  exact ⟨by linarith, by linarith⟩

theorem candidate_seventeen (hx : 0 < x) (hdouble : IsDouble x) :
    (digitsCandidate x 17).isSome = true := by
  obtain ⟨hlow, hhigh⟩ := rounded_mem (k := 17) hx (by norm_num)
  obtain ⟨s, n, -, -, hvalue, heq⟩ := digitsReading_eq (x := x) (k := 17) (by norm_num) hlow hhigh
  have hround : round (s * 10 ^ (n - ((17 : Nat) : Int))) = .finite x := by
    refine round_of_close hx hdouble ?_
    rw [hvalue]
    have hpos := ten_zpow_pos (Int.log 10 x + 1 - ((17 : Nat) : Int))
    have hback : x * 10 ^ (((17 : Nat) : Int) - (Int.log 10 x + 1)) *
        10 ^ (Int.log 10 x + 1 - ((17 : Nat) : Int)) = x := by
      rw [mul_assoc, ← zpow_add₀ (by norm_num)]
      simp
    have hscale : (10 : ℚ) ^ (Int.log 10 x + 1 - ((17 : Nat) : Int)) ≤ x / 10 ^ 16 := by
      rw [le_div_iff₀ (by norm_num), ← zpow_natCast, ← zpow_add₀ (by norm_num)]
      have hlog : (10 : ℚ) ^ Int.log 10 x ≤ x := Int.zpow_log_le_self (by norm_num) hx
      refine le_trans (le_of_eq ?_) hlog
      congr 1
      push_cast
      ring
    have hmem := roundHalfEven_mem (x * 10 ^ (((17 : Nat) : Int) - (Int.log 10 x + 1)))
    generalize roundHalfEven (x * 10 ^ (((17 : Nat) : Int) - (Int.log 10 x + 1))) = d at *
    generalize (10 : ℚ) ^ (Int.log 10 x + 1 - ((17 : Nat) : Int)) = w at *
    have hsub : (d : ℚ) * w - x =
        ((d : ℚ) - x * 10 ^ (((17 : Nat) : Int) - (Int.log 10 x + 1))) * w := by
      rw [sub_mul, hback]
    calc |(d : ℚ) * w - x|
        = |(d : ℚ) - x * 10 ^ (((17 : Nat) : Int) - (Int.log 10 x + 1))| * w := by
          rw [hsub, abs_mul, abs_of_pos hpos]
      _ ≤ 1 / 2 * (x / 10 ^ 16) := mul_le_mul hmem hscale hpos.le (by norm_num)
      _ = x / (2 * 10 ^ 16) := by ring
  rw [if_pos hround] at heq
  rw [digitsCandidate, Option.isSome_or, heq]
  rfl

/-- The search stops at the first candidate. -/
theorem shortestDigits_go (fuel : Nat) {k : Nat} (h : ∃ j, k ≤ j ∧ j ≤ k + fuel ∧
      (digitsCandidate x j).isSome = true) :
    ∃ k' s n, shortestDigits.go x fuel k = (k', s, n) ∧ k ≤ k' ∧
      digitsCandidate x k' = some (s, n) := by
  induction fuel generalizing k with
  | zero =>
      obtain ⟨j, hlow, hhigh, hj⟩ := h
      obtain rfl : j = k := by omega
      obtain ⟨⟨s, n⟩, hsome⟩ := Option.isSome_iff_exists.mp hj
      refine ⟨j, s, n, ?_, le_rfl, hsome⟩
      unfold shortestDigits.go
      rw [hsome]
  | succ fuel ih =>
      cases hcandidate : digitsCandidate x k with
      | some c =>
          refine ⟨k, c.1, c.2, ?_, le_rfl, hcandidate⟩
          unfold shortestDigits.go
          rw [hcandidate]
      | none =>
          obtain ⟨j, hlow, hhigh, hj⟩ := h
          have hne : j ≠ k := by
            rintro rfl
            rw [hcandidate] at hj
            cases hj
          obtain ⟨k', s, n, hgo, hle, hsome⟩ := ih (k := k + 1) ⟨j, by omega, by omega, hj⟩
          refine ⟨k', s, n, ?_, by omega, hsome⟩
          unfold shortestDigits.go
          rw [hcandidate]
          exact hgo

theorem shortestDigits_prints (hx : 0 < x) (hdouble : IsDouble x) :
    ∃ k s n, shortestDigits x = (k, s, n) ∧ Prints x k s n := by
  obtain ⟨k, s, n, hgo, hk, hsome⟩ := shortestDigits_go (x := x) 16 (k := 1)
    ⟨17, by omega, by omega, candidate_seventeen hx hdouble⟩
  exact ⟨k, s, n, hgo, prints_of_candidate hx hk hsome⟩

/-- Sixteen digits do for a power of two, though the nearest ones do not. -/
example : shortestDigits (1 / 2 ^ 24) = (16, 5960464477539063, -7) := by decide +kernel

/-! ## Reading back -/

/-- The code units in the text of a number. -/
def isNumeral (u : UInt16) : Bool :=
  isDigit u || u == 0x2E || u == 0x65 || u == 0x2B || u == 0x2D

theorem isNumeral_cases {u : UInt16} (h : isNumeral u = true) :
    isDigit u = true ∨ u = 0x2E ∨ u = 0x65 ∨ u = 0x2B ∨ u = 0x2D := by
  simpa [isNumeral, or_assoc] using h

theorem isNumeral_of_isDigit {u : UInt16} (h : isDigit u = true) : isNumeral u = true := by
  simp [isNumeral, h]

theorem isSpace_of_isNumeral {u : UInt16} (h : isNumeral u = true) : isSpace u = false := by
  rcases isNumeral_cases h with hdigit | rfl | rfl | rfl | rfl
  · rw [isDigit, Bool.and_eq_true, decide_eq_true_eq, decide_eq_true_eq] at hdigit
    simp only [isSpace]
    simp
    omega
  all_goals rfl

theorem trim_of_numeral {text : JsString} (h : ∀ u ∈ text, isNumeral u = true) :
    trim text = text := by
  have hdrop : ∀ s : JsString, (∀ u ∈ s, isNumeral u = true) → s.dropWhile isSpace = s := by
    intro s hs
    cases s with
    | nil => rfl
    | cons u rest =>
        rw [List.dropWhile_cons_of_neg]
        rw [isSpace_of_isNumeral (hs u List.mem_cons_self)]
        exact Bool.false_ne_true
  have hrev : ∀ u ∈ text.reverse, isNumeral u = true := fun u hu => h u (List.mem_reverse.mp hu)
  rw [trim, hdrop text h, hdrop _ hrev, List.reverse_reverse]

/-- The text is a decimal literal without sign, of this value. -/
structure Reads (text : JsString) (q : ℚ) : Prop where
  numeral : ∀ u ∈ text, isNumeral u = true
  first : ∃ u rest, text = u :: rest ∧ isDigit u = true
  value : decimalLiteral text = some q

theorem Reads.unsignedLiteral {text : JsString} {q : ℚ} (h : Reads text q) (negative : Bool) :
    unsignedLiteral negative text = Number.round (if negative then -q else q) := by
  obtain ⟨u, rest, rfl, hdigit⟩ := h.first
  have hne : u :: rest ≠ js "Infinity" := by
    intro heq
    have hhead : u = 0x49 := (List.cons.inj heq).1
    rw [hhead] at hdigit
    cases hdigit
  rw [Number.unsignedLiteral, if_neg hne, h.value]

theorem Reads.ofString {text : JsString} {q : ℚ} (h : Reads text q) :
    ofString text = Number.round q := by
  have hliteral := h.unsignedLiteral false
  obtain ⟨u, rest, rfl, hdigit⟩ := h.first
  have htrim := trim_of_numeral h.numeral
  have hsecond : ∀ v, rest.head? = some v → isNumeral v = true := by
    intro v hv
    exact h.numeral v (List.mem_cons_of_mem _ (List.mem_of_mem_head? hv))
  unfold Number.ofString
  rw [htrim]
  split
  case h_1 heq => cases heq
  case h_2 heq | h_3 heq | h_4 heq | h_5 heq | h_6 heq | h_7 heq =>
    -- no letter comes second
    obtain ⟨-, rfl⟩ := List.cons.inj heq
    cases hsecond _ rfl
  case h_8 heq | h_9 heq =>
    obtain ⟨rfl, -⟩ := List.cons.inj heq
    cases hdigit
  case h_10 => exact hliteral

theorem Reads.ofString_neg {text : JsString} {q : ℚ} (h : Reads text q) :
    Number.ofString (0x2D :: text) = Number.round (-q) := by
  have hall : ∀ u ∈ (0x2D : UInt16) :: text, isNumeral u = true := by
    intro u hu
    rcases List.mem_cons.mp hu with rfl | hu
    · rfl
    · exact h.numeral u hu
  rw [Number.ofString, trim_of_numeral hall]
  exact h.unsignedLiteral true

/-- A literal without a fraction. -/
theorem decimalLiteral_whole {whole exponent : JsString} {e : Int}
    (hwhole : ∀ u ∈ whole, isDigit u = true) (hne : whole ≠ [])
    (hexp : ∀ u ∈ exponent.head?, isDigit u = false ∧ u ≠ 0x2E)
    (he : exponentPart exponent = some e) :
    decimalLiteral (whole ++ exponent) = some ((digitsToNat 10 whole : ℚ) * 10 ^ e) := by
  obtain ⟨htake, hdrop⟩ := TextRuns.span_append hwhole fun u hu => (hexp u hu).1
  unfold decimalLiteral
  rw [htake, hdrop]
  cases exponent with
  | nil =>
      obtain rfl : e = 0 := (Option.some.inj he).symm
      simp [hne, he]
  | cons u rest =>
      have hu : u ≠ 0x2E := (hexp u rfl).2
      dsimp only
      split
      · next r hpoint => exact absurd (List.cons.inj hpoint).1 hu
      · simp [hne, he]

/-- A literal with a fraction. -/
theorem decimalLiteral_fraction {whole fraction exponent : JsString} {e : Int}
    (hwhole : ∀ u ∈ whole, isDigit u = true) (hne : whole ≠ [])
    (hfraction : ∀ u ∈ fraction, isDigit u = true)
    (hexp : ∀ u ∈ exponent.head?, isDigit u = false) (he : exponentPart exponent = some e) :
    decimalLiteral (whole ++ 0x2E :: (fraction ++ exponent)) =
      some ((digitsToNat 10 (whole ++ fraction) : ℚ) * 10 ^ (e - (fraction.length : Int))) := by
  have hpoint : ∀ u ∈ (0x2E :: (fraction ++ exponent)).head?, isDigit u = false := by
    intro u hu
    obtain rfl := Option.some.inj hu
    rfl
  obtain ⟨htake, hdrop⟩ := TextRuns.span_append hwhole hpoint
  obtain ⟨htake', hdrop'⟩ := TextRuns.span_append hfraction hexp
  simp only [decimalLiteral, htake, hdrop, htake', hdrop']
  simp [hne, he]

theorem exponentPart_digits (m : Nat) (negative : Bool) :
    exponentPart ((if negative then js "e-" else js "e+") ++ natToJs m) =
      some (if negative then -(m : Int) else m) := by
  have hne : natToJs m ≠ [] := by
    rw [natToJs_eq, Ne, List.map_eq_nil_iff]
    exact Nat.toDigits_ne_nil
  have hall : (natToJs m).all isDigit = true := List.all_eq_true.mpr fun u hu => isDigit_natToJs hu
  have hdigits : exponentPart (0x65 :: (if negative then 0x2D else 0x2B) :: natToJs m) =
      if natToJs m ≠ [] ∧ (natToJs m).all isDigit = true then
        some (if negative then -(digitsToNat 10 (natToJs m) : Int)
          else (digitsToNat 10 (natToJs m) : Int))
      else none := by
    cases negative <;> rfl
  have htext : (if negative then js "e-" else js "e+") ++ natToJs m =
      0x65 :: (if negative then 0x2D else 0x2B) :: natToJs m := by
    cases negative <;> rfl
  rw [htext, hdigits, if_pos ⟨hne, hall⟩, digitsToNat_natToJs]

/-! ## The layouts of `String` -/

section Layouts

variable {whole fraction exponent : JsString} {e : Int}

theorem reads_whole (hwhole : ∀ u ∈ whole, isDigit u = true) (hne : whole ≠ [])
    (hexp : ∀ u ∈ exponent.head?, isDigit u = false ∧ u ≠ 0x2E)
    (hnumeral : ∀ u ∈ exponent, isNumeral u = true) (he : exponentPart exponent = some e) :
    Reads (whole ++ exponent) ((digitsToNat 10 whole : ℚ) * 10 ^ e) where
  numeral := by
    intro u hu
    rcases List.mem_append.mp hu with hu | hu
    · exact isNumeral_of_isDigit (hwhole u hu)
    · exact hnumeral u hu
  first := by
    cases whole with
    | nil => exact absurd rfl hne
    | cons u rest => exact ⟨u, rest ++ exponent, rfl, hwhole u List.mem_cons_self⟩
  value := decimalLiteral_whole hwhole hne hexp he

theorem reads_fraction (hwhole : ∀ u ∈ whole, isDigit u = true) (hne : whole ≠ [])
    (hfraction : ∀ u ∈ fraction, isDigit u = true)
    (hexp : ∀ u ∈ exponent.head?, isDigit u = false)
    (hnumeral : ∀ u ∈ exponent, isNumeral u = true) (he : exponentPart exponent = some e) :
    Reads (whole ++ 0x2E :: (fraction ++ exponent))
      ((digitsToNat 10 (whole ++ fraction) : ℚ) * 10 ^ (e - (fraction.length : Int))) where
  numeral := by
    intro u hu
    rcases List.mem_append.mp hu with hu | hu
    · exact isNumeral_of_isDigit (hwhole u hu)
    · rcases List.mem_cons.mp hu with rfl | hu
      · rfl
      · rcases List.mem_append.mp hu with hu | hu
        · exact isNumeral_of_isDigit (hfraction u hu)
        · exact hnumeral u hu
  first := by
    cases whole with
    | nil => exact absurd rfl hne
    | cons u rest => exact ⟨u, rest ++ _, rfl, hwhole u List.mem_cons_self⟩
  value := decimalLiteral_fraction hwhole hne hfraction hexp he

end Layouts

/-- The exponent that `String` writes. -/
def exponentText (e : Int) : JsString :=
  (if e < 0 then js "e-" else js "e+") ++ natToJs e.natAbs

theorem exponentText_reads (e : Int) :
    exponentPart (exponentText e) = some e ∧ (∀ u ∈ exponentText e, isNumeral u = true) ∧
      ∀ u ∈ (exponentText e).head?, isDigit u = false ∧ u ≠ 0x2E := by
  have hall : ∀ u ∈ natToJs e.natAbs, isNumeral u = true :=
    fun u hu => isNumeral_of_isDigit (isDigit_natToJs hu)
  by_cases hneg : e < 0
  · have htext : exponentText e = 0x65 :: 0x2D :: natToJs e.natAbs := by
      rw [exponentText, if_pos hneg]
      rfl
    have hpart := exponentPart_digits e.natAbs true
    refine ⟨?_, ?_, ?_⟩
    · rw [exponentText, if_pos hneg]
      refine hpart.trans (congrArg some ?_)
      rw [if_pos rfl]
      omega
    · rw [htext]
      intro u hu
      rcases List.mem_cons.mp hu with rfl | hu
      · rfl
      · rcases List.mem_cons.mp hu with rfl | hu
        · rfl
        · exact hall u hu
    · rw [htext]
      intro u hu
      obtain rfl := Option.some.inj hu
      exact ⟨rfl, by decide⟩
  · have htext : exponentText e = 0x65 :: 0x2B :: natToJs e.natAbs := by
      rw [exponentText, if_neg hneg]
      rfl
    have hpart := exponentPart_digits e.natAbs false
    refine ⟨?_, ?_, ?_⟩
    · rw [exponentText, if_neg hneg]
      refine hpart.trans (congrArg some ?_)
      rw [if_neg Bool.false_ne_true]
      omega
    · rw [htext]
      intro u hu
      rcases List.mem_cons.mp hu with rfl | hu
      · rfl
      · rcases List.mem_cons.mp hu with rfl | hu
        · rfl
        · exact hall u hu
    · rw [htext]
      intro u hu
      obtain rfl := Option.some.inj hu
      exact ⟨rfl, by decide⟩

theorem isDigit_zeros {m : Nat} {u : UInt16} (h : u ∈ zeros m) : isDigit u = true := by
  obtain rfl := List.eq_of_mem_replicate h
  rfl

theorem length_zeros (m : Nat) : (zeros m).length = m := List.length_replicate

/-- What `String` prints is a literal that reads back as the number. -/
theorem positiveToString_reads (hx : 0 < x) (hdouble : IsDouble x) :
    ∃ q, 0 < q ∧ Reads (positiveToString x) q ∧ Number.round q = .finite x := by
  obtain ⟨k, s, n, hshortest, hprints⟩ := shortestDigits_prints hx hdouble
  have hlength := length_natToJs hprints.pos hprints.low hprints.high
  have hdigits : ∀ u ∈ natToJs s, isDigit u = true := fun u hu => isDigit_natToJs hu
  have hvalue := digitsToNat_natToJs s
  have hs : 0 < s := (Nat.pow_pos (by norm_num)).trans_le hprints.low
  have hk := hprints.pos
  have hnone : ∀ u ∈ ([] : JsString).head?, isDigit u = false ∧ u ≠ 0x2E := nofun
  refine ⟨s * 10 ^ (n - (k : Int)), ?_, ?_, hprints.round⟩
  · have hcast : (0 : ℚ) < s := by exact_mod_cast hs
    exact mul_pos hcast (ten_zpow_pos _)
  · unfold positiveToString
    rw [hshortest]
    dsimp only
    generalize natToJs s = d at *
    split
    · next hlayout =>
        -- an integer
        have hall : ∀ u ∈ d ++ zeros (n - k).toNat, isDigit u = true := by
          intro u hu
          rcases List.mem_append.mp hu with hu | hu
          · exact hdigits u hu
          · exact isDigit_zeros hu
        have hne : d ++ zeros (n - k).toNat ≠ [] := by
          intro heq
          have hzero := congrArg List.length heq
          rw [List.length_append, hlength, List.length_nil] at hzero
          omega
        have hreads := reads_whole (e := 0) hall hne hnone nofun rfl
        have hsame : (digitsToNat 10 (d ++ zeros (n - k).toNat) : ℚ) * 10 ^ (0 : Int) =
            s * 10 ^ (n - (k : Int)) := by
          rw [digitsToNat_append, hvalue, digitsToNat_zeros, length_zeros, zpow_zero, mul_one,
            Nat.add_zero]
          push_cast
          rw [← zpow_natCast, Int.toNat_of_nonneg (by omega)]
        rw [List.append_nil, hsame] at hreads
        exact hreads
    · next hinteger =>
        split
        · next hlayout =>
            -- a decimal fraction
            have hne : d.take n.toNat ≠ [] := by
              intro heq
              have hzero := congrArg List.length heq
              rw [List.length_take, hlength, List.length_nil] at hzero
              omega
            have hreads := reads_fraction (e := 0)
              (fun u hu => hdigits u (List.mem_of_mem_take hu)) hne
              (fun u hu => hdigits u (List.mem_of_mem_drop (i := n.toNat) hu))
              (fun u hu => (hnone u hu).1) nofun rfl
            have hexp : (0 : Int) - ((d.drop n.toNat).length : Int) = n - k := by
              rw [List.length_drop, hlength]
              omega
            rw [List.append_nil, List.take_append_drop, hvalue, hexp] at hreads
            rw [List.append_assoc]
            exact hreads
        · next hdecimal =>
            split
            · next hlayout =>
                -- a small fraction
                have hfraction : ∀ u ∈ zeros (-n).toNat ++ d, isDigit u = true := by
                  intro u hu
                  rcases List.mem_append.mp hu with hu | hu
                  · exact isDigit_zeros hu
                  · exact hdigits u hu
                have hreads : Reads ([0x30] ++ 0x2E :: (_ ++ [])) _ := reads_fraction (e := 0)
                  (fun u hu => by
                    obtain rfl := List.mem_singleton.mp hu
                    rfl)
                  (by simp) hfraction (fun u hu => (hnone u hu).1) nofun rfl
                have hsame : digitsToNat 10 ([0x30] ++ (zeros (-n).toNat ++ d)) = s := by
                  rw [digitsToNat_append, digitsToNat_append, digitsToNat_zeros, hvalue,
                    show digitsToNat 10 [0x30] = 0 from rfl]
                  omega
                have hexp : (0 : Int) - ((zeros (-n).toNat ++ d).length : Int) = n - k := by
                  rw [List.length_append, length_zeros, hlength]
                  omega
                rw [List.append_nil, hsame, hexp] at hreads
                rw [List.append_assoc]
                exact hreads
            · next hsmall =>
                obtain ⟨he, hnumeral, hhead⟩ := exponentText_reads (n - 1)
                split
                · next hone =>
                    have hne : d ≠ [] := by
                      rintro rfl
                      exact hk.ne hlength
                    have hreads := reads_whole hdigits hne hhead hnumeral he
                    rw [hvalue, show n - 1 = n - (k : Int) by omega] at hreads
                    have htext : exponentText (n - k) = exponentText (n - 1) := by
                      rw [show n - 1 = n - (k : Int) by omega]
                    rw [htext] at hreads
                    exact hreads
                · next hmore =>
                    have hne : d.take 1 ≠ [] := by
                      intro heq
                      have hzero := congrArg List.length heq
                      rw [List.length_take, hlength, List.length_nil] at hzero
                      omega
                    have hreads := reads_fraction
                      (fun u hu => hdigits u (List.mem_of_mem_take hu)) hne
                      (fun u hu => hdigits u (List.mem_of_mem_drop (i := 1) hu))
                      (fun u hu => (hhead u hu).1) hnumeral he
                    have hexp : n - 1 - ((d.drop 1).length : Int) = n - k := by
                      rw [List.length_drop, hlength]
                      omega
                    rw [List.take_append_drop, hvalue, hexp] at hreads
                    rw [List.append_assoc, List.append_assoc]
                    exact hreads

/-! ## The round trip -/

theorem round_neg_of_pos {q : ℚ} (hq : 0 < q) (h : Number.round q = .finite x) :
    Number.round (-q) = .finite (-x) := by
  rw [round_pos hq] at h
  rw [round_neg hq]
  split at h
  · cases h
  · next hsize =>
      injection h with h
      rw [if_neg hsize, h]

theorem ofString_toJsString_pos (hx : 0 < x) (hdouble : IsDouble x) :
    ofString (toJsString (.finite x)) = .finite x ∧
      ofString (toJsString (.finite (-x))) = .finite (-x) := by
  obtain ⟨q, hq, hreads, hround⟩ := positiveToString_reads hx hdouble
  refine ⟨?_, ?_⟩
  · rw [toJsString, if_neg hx.ne', if_pos hx, hreads.ofString, hround]
  · have hneg : ¬ 0 < -x := by linarith
    rw [toJsString, if_neg (neg_ne_zero.mpr hx.ne'), if_neg hneg, neg_neg]
    exact hreads.ofString_neg.trans (round_neg_of_pos hq hround)

/-- `Number` reads what `String` prints, for every number that a conversion yields. -/
theorem ofString_toJsString_round (q : ℚ) :
    ofString (toJsString (Number.round q)) = Number.round q := by
  rcases lt_trichotomy q 0 with hneg | rfl | hpos
  · obtain ⟨p, rfl⟩ : ∃ p, q = -p := ⟨-q, (neg_neg q).symm⟩
    have hp : 0 < p := by linarith
    rw [round_neg hp]
    split
    · decide +kernel
    · next hsize =>
        rcases isDouble_rounded hp (not_le.mp hsize) with hzero | ⟨hx, hdouble⟩
        · rw [hzero, neg_zero]
          decide +kernel
        · exact (ofString_toJsString_pos hx hdouble).2
  · decide +kernel
  · rw [round_pos hpos]
    split
    · decide +kernel
    · next hsize =>
        rcases isDouble_rounded hpos (not_le.mp hsize) with hzero | ⟨hx, hdouble⟩
        · rw [hzero]
          decide +kernel
        · exact (ofString_toJsString_pos hx hdouble).1

end CameraStream.Js.Number
