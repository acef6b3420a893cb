/-
  CameraStream.Js.Rounding

  Facts about `Number.round`, the rounding of rational numbers to doubles.

    * `roundHalfEven_mem`   — the nearest integer is at most a half away;
    * `round_pos`           — the rounding of a positive number, with its unit named;
    * `isDouble_rounded`    — what has been rounded is a double, or zero;
    * `round_mem_unit`      — from the unit interval it does not leave;
    * `round_normal`        — a number of ordinary size keeps 53 bits of itself;
    * `ofString_lt`         — what is read from a text is below the overflow limit;
    * `orElse_round`        — an integer that is not zero is not rounded to zero.
-/

import CameraStream.Js.Number
import Mathlib.Tactic.Linarith
import Mathlib.Tactic.Positivity
import Mathlib.Tactic.FieldSimp
import Mathlib.Tactic.Ring

namespace CameraStream.Js.Number

variable {q r : ℚ} {n : Int}

/-! ## The nearest integer -/

theorem roundHalfEven_cases (q : ℚ) :
    (roundHalfEven q = ⌊q⌋ ∧ q - ⌊q⌋ ≤ 1 / 2) ∨ (roundHalfEven q = ⌊q⌋ + 1 ∧ 1 / 2 ≤ q - ⌊q⌋) := by
  have hfloor : q.floor = ⌊q⌋ := rfl
  unfold roundHalfEven
  simp only [hfloor]
  split
  · next h => exact .inl ⟨rfl, h.le⟩
  · next h =>
      split
      · next h' => exact .inr ⟨rfl, h'.le⟩
      · next h' =>
          split
          · exact .inl ⟨rfl, le_of_not_gt h'⟩
          · exact .inr ⟨rfl, le_of_not_gt h⟩

theorem roundHalfEven_mem (q : ℚ) : |(roundHalfEven q : ℚ) - q| ≤ 1 / 2 := by
  have hle := Int.floor_le q
  have hlt := Int.lt_floor_add_one q
  rw [abs_le]
  rcases roundHalfEven_cases q with ⟨heq, hrest⟩ | ⟨heq, hrest⟩
  · rw [heq]
    exact ⟨by linarith, by linarith⟩
  · rw [heq]
    push_cast
    exact ⟨by linarith, by linarith⟩

theorem roundHalfEven_le (h : q ≤ n) : roundHalfEven q ≤ n := by
  rcases roundHalfEven_cases q with ⟨heq, -⟩ | ⟨heq, hrest⟩
  · rw [heq]
    exact Int.floor_le_iff.mpr (by linarith)
  · -- rounded up, `q` is no integer
    rw [heq]
    have hlt : (⌊q⌋ : ℚ) < n := by linarith
    exact_mod_cast hlt

theorem le_roundHalfEven (h : (n : ℚ) ≤ q) : n ≤ roundHalfEven q := by
  have hfloor : n ≤ ⌊q⌋ := Int.le_floor.mpr h
  rcases roundHalfEven_cases q with ⟨heq, -⟩ | ⟨heq, -⟩ <;> omega

/-- The only integer less than a half away. -/
theorem roundHalfEven_eq (h : |(n : ℚ) - q| < 1 / 2) : roundHalfEven q = n := by
  have hmem := roundHalfEven_mem q
  rw [abs_lt] at h
  rw [abs_le] at hmem
  have hlt : ((roundHalfEven q - n : Int) : ℚ) < 1 := by push_cast; linarith
  have hgt : (-1 : ℚ) < ((roundHalfEven q - n : Int) : ℚ) := by push_cast; linarith
  have hlt : roundHalfEven q - n < 1 := by exact_mod_cast hlt
  have hgt : -1 < roundHalfEven q - n := by exact_mod_cast hgt
  omega

/-! ## Doubles -/

/-- The exponent of the distance of neighbouring doubles around a positive number. -/
def unitExponent (q : ℚ) : Int := Max.max (Int.log 2 q - 52) (-1074)

theorem round_pos (h : 0 < q) : round q =
    if 2 ^ 1024 ≤ (roundHalfEven (q / 2 ^ unitExponent q) : ℚ) * 2 ^ unitExponent q then .posInf
    else .finite (roundHalfEven (q / 2 ^ unitExponent q) * 2 ^ unitExponent q) := by
  simp only [round, if_neg h.ne', abs_of_pos h, if_pos h, unitExponent]
  rfl

theorem two_zpow_pos (e : Int) : (0 : ℚ) < 2 ^ e := zpow_pos two_pos e

/-- A unit is a 53rd of the number in bits, or more. -/
theorem lt_unit (q : ℚ) : q < 2 ^ 53 * 2 ^ unitExponent q := by
  have hlog : q < (2 : ℚ) ^ (Int.log 2 q + 1) := Int.lt_zpow_succ_log_self Nat.one_lt_two q
  have hle : Int.log 2 q + 1 ≤ 53 + unitExponent q := by
    have hmax := le_max_left (Int.log 2 q - 52) (-1074)
    rw [unitExponent]
    omega
  calc q < (2 : ℚ) ^ (Int.log 2 q + 1) := hlog
    _ ≤ (2 : ℚ) ^ ((53 : Int) + unitExponent q) := zpow_le_zpow_right₀ (by norm_num) hle
    _ = 2 ^ 53 * 2 ^ unitExponent q := by rw [zpow_add₀ (by norm_num)]; norm_cast

/-- The unit of a number below a power of two. -/
theorem unitExponent_le (h : 0 < q) {e : Int} (hlt : q < 2 ^ 53 * 2 ^ e) (he : -1074 ≤ e) :
    unitExponent q ≤ e := by
  have hpow : (2 : ℚ) ^ 53 * 2 ^ e = (2 : ℚ) ^ (53 + e) := by
    rw [zpow_add₀ (by norm_num)]
    norm_cast
  rw [hpow] at hlt
  have hlog : Int.log 2 q < 53 + e := (Int.lt_zpow_iff_log_lt Nat.one_lt_two h).mp hlt
  exact max_le (by omega) he

/-- A multiple of a unit is a multiple of every smaller one. -/
theorem multiple_of_le {m e e' : Int} (h : e' ≤ e) :
    ∃ m' : Int, (m : ℚ) * 2 ^ e = m' * 2 ^ e' := by
  obtain ⟨d, hd⟩ := Int.eq_ofNat_of_zero_le (sub_nonneg.mpr h)
  refine ⟨m * 2 ^ d, ?_⟩
  have he : e = d + e' := by omega
  rw [he, zpow_add₀ (by norm_num)]
  push_cast
  rw [zpow_natCast]
  ring

def IsDouble (x : ℚ) : Prop := round x = .finite x

/-- A number that is close to a multiple of its unit. -/
theorem round_near (hq : 0 < q) {x : ℚ} {m : Int} (hx : x = m * 2 ^ unitExponent q)
    (hsize : x < 2 ^ 1024) (hnear : |q - x| < 2 ^ unitExponent q / 2) : round q = .finite x := by
  have hunit := two_zpow_pos (unitExponent q)
  have hm : roundHalfEven (q / 2 ^ unitExponent q) = m := by
    refine roundHalfEven_eq ?_
    have hsub : (m : ℚ) - q / 2 ^ unitExponent q = (x - q) / 2 ^ unitExponent q := by
      rw [hx, sub_div, mul_div_cancel_right₀ _ hunit.ne']
    rw [hsub, abs_div, abs_of_pos hunit, div_lt_iff₀ hunit, abs_sub_comm]
    linarith
  rw [round_pos hq, hm, ← hx, if_neg (not_le.mpr hsize)]

/-- What fits into the bits of a double is one. -/
theorem isDouble_of_multiple {x : ℚ} (hx : 0 < x) {m : Int} (hm : x = m * 2 ^ unitExponent x)
    (hsize : x < 2 ^ 1024) : IsDouble x := by
  refine round_near hx hm hsize ?_
  rw [sub_self, abs_zero]
  exact half_pos (two_zpow_pos _)

theorem IsDouble.multiple {x : ℚ} (h : IsDouble x) (hx : 0 < x) :
    (∃ m : Int, x = m * 2 ^ unitExponent x) ∧ x < 2 ^ 1024 := by
  rw [IsDouble, round_pos hx] at h
  split at h
  · cases h
  · next hsize =>
      injection h with h
      rw [h] at hsize
      exact ⟨⟨_, h.symm⟩, not_le.mp hsize⟩

theorem round_neg (h : 0 < q) : round (-q) =
    if 2 ^ 1024 ≤ (roundHalfEven (q / 2 ^ unitExponent q) : ℚ) * 2 ^ unitExponent q then .negInf
    else .finite (-(roundHalfEven (q / 2 ^ unitExponent q) * 2 ^ unitExponent q)) := by
  have hnot : ¬ 0 < -q := by linarith
  simp only [round, neg_ne_zero.mpr h.ne', abs_neg, abs_of_pos h, if_neg hnot, unitExponent,
    if_false]
  rfl

theorem rounded_nonneg (h : 0 < q) : 0 ≤ roundHalfEven (q / 2 ^ unitExponent q) :=
  le_roundHalfEven (by exact_mod_cast (div_pos h (two_zpow_pos _)).le)

theorem round_nonneg (h : 0 < q) (hr : round q = .finite r) : 0 ≤ r := by
  rw [round_pos h] at hr
  split at hr
  · cases hr
  · injection hr with hr
    have hcast : (0 : ℚ) ≤ roundHalfEven (q / 2 ^ unitExponent q) := by
      exact_mod_cast rounded_nonneg h
    rw [← hr]
    exact mul_nonneg hcast (two_zpow_pos _).le

/-- The rounding of a positive number is zero or a double. -/
theorem isDouble_rounded (h : 0 < q)
    (hsize : (roundHalfEven (q / 2 ^ unitExponent q) : ℚ) * 2 ^ unitExponent q < 2 ^ 1024) :
    (roundHalfEven (q / 2 ^ unitExponent q) : ℚ) * 2 ^ unitExponent q = 0 ∨
      0 < (roundHalfEven (q / 2 ^ unitExponent q) : ℚ) * 2 ^ unitExponent q ∧
        IsDouble (roundHalfEven (q / 2 ^ unitExponent q) * 2 ^ unitExponent q) := by
  have hunit := two_zpow_pos (unitExponent q)
  have hnonneg := rounded_nonneg h
  have hupper : roundHalfEven (q / 2 ^ unitExponent q) ≤ 2 ^ 53 := by
    refine roundHalfEven_le ?_
    rw [div_le_iff₀ hunit]
    push_cast
    exact (lt_unit q).le
  have hleast : -1074 ≤ unitExponent q := le_max_right _ _
  generalize roundHalfEven (q / 2 ^ unitExponent q) = m at *
  rcases hnonneg.eq_or_lt with rfl | hpos
  · exact .inl (by simp)
  · right
    have hmpos : (0 : ℚ) < m := by exact_mod_cast hpos
    have hx : (0 : ℚ) < m * 2 ^ unitExponent q := mul_pos hmpos hunit
    refine ⟨hx, ?_⟩
    rcases hupper.eq_or_lt with rfl | hlt
    · -- the rounding has reached the next power of two
      have hpow : ((2 ^ 53 : Int) : ℚ) * 2 ^ unitExponent q = 2 ^ (53 + unitExponent q) := by
        rw [zpow_add₀ (by norm_num)]
        norm_cast
      have hlog : Int.log 2 ((2 : ℚ) ^ (53 + unitExponent q)) = 53 + unitExponent q :=
        Int.log_zpow Nat.one_lt_two _
      have hexp : unitExponent (((2 ^ 53 : Int) : ℚ) * 2 ^ unitExponent q) =
          unitExponent q + 1 := by
        rw [hpow, show unitExponent ((2 : ℚ) ^ (53 + unitExponent q)) =
          Max.max (Int.log 2 ((2 : ℚ) ^ (53 + unitExponent q)) - 52) (-1074) from rfl, hlog]
        omega
      refine isDouble_of_multiple hx (m := 2 ^ 52) ?_ hsize
      rw [hexp, zpow_add₀ (by norm_num)]
      push_cast
      ring
    · have hbelow : (m : ℚ) * 2 ^ unitExponent q < 2 ^ 53 * 2 ^ unitExponent q := by
        have hlt' : (m : ℚ) < 2 ^ 53 := by exact_mod_cast hlt
        exact mul_lt_mul_of_pos_right hlt' hunit
      obtain ⟨m', hm'⟩ := multiple_of_le (m := m) (unitExponent_le hx hbelow hleast)
      exact isDouble_of_multiple hx hm' hsize

/-- From the unit interval rounding does not leave. -/
theorem round_mem_unit (h : 0 ≤ q) (h' : q ≤ 1) : ∃ r, round q = .finite r ∧ 0 ≤ r ∧ r ≤ 1 := by
  rcases h.eq_or_lt with rfl | hpos
  · exact ⟨0, if_pos rfl, le_rfl, zero_le_one⟩
  · have hunit := two_zpow_pos (unitExponent q)
    have hone : q < 2 ^ 53 * 2 ^ (-52 : Int) := by
      norm_num
      linarith
    have hexp : unitExponent q ≤ -52 := unitExponent_le hpos hone (by norm_num)
    obtain ⟨d, hd⟩ := Int.eq_ofNat_of_zero_le (show 0 ≤ -unitExponent q by omega)
    have hinv : (2 : ℚ) ^ unitExponent q = ((2 ^ d : Int) : ℚ)⁻¹ := by
      rw [show unitExponent q = -(d : Int) by omega, zpow_neg, zpow_natCast]
      norm_cast
    have hupper : roundHalfEven (q / 2 ^ unitExponent q) ≤ 2 ^ d := by
      refine roundHalfEven_le ?_
      rw [hinv, div_inv_eq_mul]
      have hd : (0 : ℚ) < ((2 ^ d : Int) : ℚ) := by positivity
      nlinarith
    have hle : (roundHalfEven (q / 2 ^ unitExponent q) : ℚ) * 2 ^ unitExponent q ≤ 1 := by
      have hcast : (roundHalfEven (q / 2 ^ unitExponent q) : ℚ) ≤ ((2 ^ d : Int) : ℚ) := by
        exact_mod_cast hupper
      calc (roundHalfEven (q / 2 ^ unitExponent q) : ℚ) * 2 ^ unitExponent q
          ≤ ((2 ^ d : Int) : ℚ) * 2 ^ unitExponent q := mul_le_mul_of_nonneg_right hcast hunit.le
        _ = 1 := by rw [hinv]; exact mul_inv_cancel₀ (by positivity)
    have hround := (round_pos hpos).trans
      (if_neg (not_le.mpr (hle.trans_lt (one_lt_pow₀ one_lt_two (by norm_num)))))
    exact ⟨_, hround, round_nonneg hpos hround, hle⟩

/-- In the normal range the error is at most one part in `2 ^ 53`. -/
theorem round_normal (h : 2 ^ (-1022 : Int) ≤ q) (h' : q < 2 ^ 53) :
    ∃ r, round q = .finite r ∧ |r - q| ≤ q / 2 ^ 53 := by
  have hpos : 0 < q := (two_zpow_pos _).trans_le h
  have hunit := two_zpow_pos (unitExponent q)
  have hlog : -1022 ≤ Int.log 2 q := (Int.zpow_le_iff_le_log Nat.one_lt_two hpos).mp h
  have hexp : unitExponent q = Int.log 2 q - 52 := max_eq_left (by omega)
  -- a unit is at most one part in `2 ^ 52`
  have hsmall : (2 : ℚ) ^ unitExponent q ≤ q / 2 ^ 52 := by
    rw [le_div_iff₀ (by norm_num)]
    calc (2 : ℚ) ^ unitExponent q * 2 ^ 52 = 2 ^ Int.log 2 q := by
          rw [hexp, zpow_sub₀ (by norm_num), zpow_ofNat, div_mul_cancel₀ _ (by norm_num)]
      _ ≤ q := Int.zpow_log_le_self Nat.one_lt_two hpos
  have herror : |(roundHalfEven (q / 2 ^ unitExponent q) : ℚ) * 2 ^ unitExponent q - q| ≤
      q / 2 ^ 53 := by
    have hscale : (roundHalfEven (q / 2 ^ unitExponent q) : ℚ) * 2 ^ unitExponent q - q =
        (roundHalfEven (q / 2 ^ unitExponent q) - q / 2 ^ unitExponent q) *
          2 ^ unitExponent q := by
      rw [sub_mul, div_mul_cancel₀ _ hunit.ne']
    rw [hscale, abs_mul, abs_of_pos hunit]
    calc |(roundHalfEven (q / 2 ^ unitExponent q) : ℚ) - q / 2 ^ unitExponent q| *
          2 ^ unitExponent q
        ≤ 1 / 2 * (q / 2 ^ 52) :=
          mul_le_mul (roundHalfEven_mem _) hsmall hunit.le (by norm_num)
      _ = q / 2 ^ 53 := by ring
  refine ⟨_, (round_pos hpos).trans (if_neg (not_le.mpr ?_)), herror⟩
  have hupper := (abs_le.mp herror).2
  have hpart : q / 2 ^ 53 ≤ q := div_le_self hpos.le (by norm_num)
  have hlimit : (2 : ℚ) ^ 54 < 2 ^ 1024 := pow_lt_pow_right₀ (by norm_num) (by norm_num)
  refine lt_trans ?_ hlimit
  linarith

/-! ## Below the overflow limit -/

theorem round_lt (h : round q = .finite r) : r < 2 ^ 1024 := by
  have hlimit : (0 : ℚ) < 2 ^ 1024 := by positivity
  rcases lt_trichotomy q 0 with hneg | rfl | hpos
  · obtain ⟨p, rfl⟩ : ∃ p, q = -p := ⟨-q, (neg_neg q).symm⟩
    have hp : 0 < p := by linarith
    rw [round_neg hp] at h
    split at h
    · cases h
    · have hr := Number.finite.inj h
      have hnonneg : (0 : ℚ) ≤ roundHalfEven (p / 2 ^ unitExponent p) := by
        exact_mod_cast rounded_nonneg hp
      have hmul := mul_nonneg hnonneg (two_zpow_pos (unitExponent p)).le
      exact (hr.symm.trans_le (neg_nonpos.mpr hmul)).trans_lt hlimit
  · rw [round, if_pos rfl] at h
    exact (Number.finite.inj h).symm.trans_lt hlimit
  · rw [round_pos hpos] at h
    split at h
    · cases h
    · next hsize =>
        exact (Number.finite.inj h).symm.trans_lt (not_le.mp hsize)

theorem radixLiteral_lt {base : Nat} {s : JsString} (h : radixLiteral base s = .finite q) :
    q < 2 ^ 1024 := by
  rw [radixLiteral] at h
  split at h
  · exact round_lt h
  · cases h

theorem unsignedLiteral_lt {negative : Bool} {s : JsString}
    (h : unsignedLiteral negative s = .finite q) : q < 2 ^ 1024 := by
  rw [unsignedLiteral] at h
  split at h
  · cases negative <;> cases h
  · split at h
    · exact round_lt h
    · cases h

/-- `Number(string)` is below the overflow limit, or no finite number. -/
theorem ofString_lt {s : JsString} (h : ofString s = .finite q) : q < 2 ^ 1024 := by
  rw [ofString] at h
  split at h
  · exact (Number.finite.inj h).symm.trans_lt (by positivity)
  iterate 6 exact radixLiteral_lt h
  iterate 3 exact unsignedLiteral_lt h

/-! ## Integers -/

/-- From one on there are units left. -/
theorem rounded_pos (h : 1 ≤ q) : 0 < roundHalfEven (q / 2 ^ unitExponent q) := by
  have hpos : 0 < q := zero_lt_one.trans_le h
  have hlog : 0 ≤ Int.log 2 q := (Int.zpow_le_iff_le_log Nat.one_lt_two hpos).mp (by simpa using h)
  have hexp : unitExponent q ≤ Int.log 2 q := max_le (by omega) (by omega)
  have hunit : (2 : ℚ) ^ unitExponent q ≤ q :=
    (zpow_le_zpow_right₀ one_le_two hexp).trans (Int.zpow_log_le_self Nat.one_lt_two hpos)
  refine le_roundHalfEven (n := 1) ?_
  rw [le_div_iff₀ (two_zpow_pos _)]
  simpa using hunit

/-- `round(n) || y` for an integer that is not zero. -/
theorem orElse_round (h : n ≠ 0) (y : Number) : (round (n : ℚ)).orElse y = round n := by
  have hsize : ∀ {m : Int}, 0 < m → (roundHalfEven ((m : ℚ) / 2 ^ unitExponent m) : ℚ) *
      2 ^ unitExponent m ≠ 0 := by
    intro m hm
    have hone : (1 : ℚ) ≤ m := by exact_mod_cast hm
    have hcast : (0 : ℚ) < roundHalfEven ((m : ℚ) / 2 ^ unitExponent m) := by
      exact_mod_cast rounded_pos hone
    exact (mul_pos hcast (two_zpow_pos _)).ne'
  rcases lt_or_gt_of_ne h with hneg | hpos
  · obtain ⟨m, rfl⟩ : ∃ m, n = -m := ⟨-n, (neg_neg n).symm⟩
    have hm : 0 < m := by omega
    push_cast
    rw [round_neg (by exact_mod_cast hm)]
    split
    · rfl
    · exact if_neg (neg_ne_zero.mpr (hsize hm))
  · rw [round_pos (by exact_mod_cast hpos)]
    split
    · rfl
    · exact if_neg (hsize hpos)

end CameraStream.Js.Number
