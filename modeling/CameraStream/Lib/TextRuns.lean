/-
  CameraStream.Lib.TextRuns

  Reading a byte text from the left: the maximal run of bytes with a property, and what
  follows it.  The main use is a number in decimal digits, which `digits` writes and
  `value` reads.
-/

import Mathlib.Data.List.Basic

namespace TextRuns

/-! ## Maximal runs -/

/-- A run ends where something else begins. -/
theorem span_append {α : Type*} {p : α → Bool} {run rest : List α} (hrun : ∀ b ∈ run, p b = true)
    (hrest : ∀ b ∈ rest.head?, p b = false) :
    (run ++ rest).takeWhile p = run ∧ (run ++ rest).dropWhile p = rest := by
  rw [List.takeWhile_append_of_pos hrun, List.dropWhile_append_of_pos hrun]
  cases rest with
  | nil => simp
  | cons b rest =>
      have hb : p b = false := hrest b rfl
      simp [hb]

/-- The text up to a delimiter. -/
theorem span_delimiter {c : UInt8} {text rest : List UInt8} (h : c ∉ text)
    (hrest : ∀ b ∈ rest.head?, b = c) :
    (text ++ rest).takeWhile (· ≠ c) = text ∧ (text ++ rest).dropWhile (· ≠ c) = rest := by
  apply span_append
  · intro b hb
    rw [decide_eq_true_eq]
    rintro rfl
    exact h hb
  · intro b hb
    rw [hrest b hb]
    exact decide_eq_false (not_not_intro rfl)

/-- A delimiter and what follows it. -/
theorem head?_delimiter {c : UInt8} (rest : List UInt8) : ∀ b ∈ (c :: rest).head?, b = c := by
  intro b hb
  exact (Option.some.inj hb).symm

/-! ## Decimal numbers -/

def isDigit (b : UInt8) : Bool := 0x30 ≤ b.toNat && b.toNat ≤ 0x39

/-- The value of a run of digits. -/
def value (digits : List UInt8) : Nat :=
  digits.foldl (fun n b => n * 10 + (b.toNat - 0x30)) 0

/-- The digits of a number, without leading zeros. -/
def digits (n : Nat) : List UInt8 := (toString n).toList.map fun c => c.toNat.toUInt8

theorem digits_eq (n : Nat) :
    digits n = (Nat.toDigits 10 n).map fun c => c.toNat.toUInt8 := by
  rw [digits, Nat.toString_eq_repr, Nat.toList_repr]

theorem toNat_of_isDigit {c : Char} (h : c.isDigit = true) :
    0x30 ≤ c.toNat ∧ c.toNat ≤ 0x39 ∧ c.toNat.toUInt8.toNat = c.toNat := by
  have hbounds : 0x30 ≤ c.toNat ∧ c.toNat ≤ 0x39 := by
    simp only [Char.isDigit, Bool.and_eq_true, decide_eq_true_eq] at h
    exact ⟨h.1, h.2⟩
  refine ⟨hbounds.1, hbounds.2, UInt8.toNat_ofNat_of_lt ?_⟩
  show _ < 256
  omega

theorem isDigit_of_mem {n : Nat} {b : UInt8} (h : b ∈ digits n) : isDigit b = true := by
  rw [digits_eq] at h
  obtain ⟨c, hc, rfl⟩ := List.mem_map.mp h
  have hdigit := toNat_of_isDigit (Nat.isDigit_of_mem_toDigits (by omega) (by omega) hc)
  rw [isDigit, Bool.and_eq_true, decide_eq_true_eq, decide_eq_true_eq]
  omega

theorem digits_ne_nil (n : Nat) : digits n ≠ [] := by
  rw [digits_eq, Ne, List.map_eq_nil_iff]
  exact Nat.toDigits_ne_nil

/-- What is written is what is read. -/
theorem value_digits (n : Nat) : value (digits n) = n := by
  have hstep : ∀ (m : Nat), ∀ c ∈ Nat.toDigits 10 n,
      m * 10 + (c.toNat.toUInt8.toNat - 0x30) = 10 * m + (c.toNat - '0'.toNat) := by
    intro m c hc
    have hdigit := toNat_of_isDigit (Nat.isDigit_of_mem_toDigits (by omega) (by omega) hc)
    have hzero : '0'.toNat = 0x30 := rfl
    rw [hdigit.2.2, hzero]
    omega
  rw [value, digits_eq, List.foldl_map, List.foldl_ext _ _ _ hstep, ← Nat.ofDigitChars_eq_foldl]
  exact Nat.ofDigitChars_ten_toDigits

/-- A number is read up to the first byte that is no digit. -/
theorem span_digits {n : Nat} {rest : List UInt8} (h : ∀ b ∈ rest.head?, isDigit b = false) :
    (digits n ++ rest).takeWhile isDigit = digits n ∧
      (digits n ++ rest).dropWhile isDigit = rest :=
  span_append (fun _ hb => isDigit_of_mem hb) h

/-- The digits of a number begin a text exactly when they begin its first run of digits. -/
theorem digits_prefix_iff {n m : Nat} {rest : List UInt8}
    (h : ∀ b ∈ rest.head?, isDigit b = false) :
    digits n <+: digits m ++ rest ↔ digits n <+: digits m := by
  refine ⟨fun hbegins => ?_, fun hbegins => hbegins.trans (List.prefix_append _ _)⟩
  rcases List.prefix_or_prefix_of_prefix hbegins (List.prefix_append _ rest) with hd | ⟨t, ht⟩
  · exact hd
  · rw [← ht, List.prefix_append_right_inj] at hbegins
    cases t with
    | nil =>
        have hsame : digits m = digits n := (List.append_nil _).symm.trans ht
        exact hsame ▸ List.prefix_rfl
    | cons b t =>
        -- a longer number would go on with a byte that is no digit
        obtain ⟨tail, rfl⟩ := hbegins
        have hdigit : isDigit b = true := isDigit_of_mem (n := n) (by rw [← ht]; simp)
        have hother : isDigit b = false := h b rfl
        rw [hdigit] at hother
        cases hother

end TextRuns
