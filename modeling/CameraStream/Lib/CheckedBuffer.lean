/-
  CameraStream.Lib.CheckedBuffer

  Index arithmetic on a buffer with the checks made that `operator[]`, iterators and
  unsigned subtraction leave to the program around them.  An operation outside its
  domain is a `Fault`; a program whose value is `.ok` has made every check hold by its
  own conditions.

  Positions run from 0 to the size of the buffer, the last one being `end()`.
  `advance` refuses a position behind it, so that what it returns also fits the type of
  the size.

  A loop is given the number of turns it may take (`loop`); taking more is a fault like
  any other.  `loop_eq` is its rule: an invariant, a measure that every turn but the last
  lowers by at least `k`, and what the loop computes.
-/

import Mathlib.Data.List.Basic

/-- Why an operation is refused. -/
inductive Fault where
  | outOfRange
  | underflow
  | outOfTurns
  deriving DecidableEq

namespace CheckedBuffer

universe u

variable {α σ ρ : Type u} {l : List α} {a b index count first last : Nat}

/-! ## Operations -/

/-- `l[index]`. -/
def read (l : List α) (index : Nat) : Except Fault α :=
  if h : index < l.length then .ok l[index] else .error .outOfRange

/-- `index + count` as a position of `l`. -/
def advance (l : List α) (index count : Nat) : Except Fault Nat :=
  if index + count ≤ l.length then .ok (index + count) else .error .outOfRange

/-- `a - b` on unsigned integers. -/
def sub (a b : Nat) : Except Fault Nat := if b ≤ a then .ok (a - b) else .error .underflow

/-- The elements of `[first, last)`. -/
def slice (l : List α) (first last : Nat) : Except Fault (List α) :=
  if first ≤ last ∧ last ≤ l.length then .ok ((l.take last).drop first)
  else .error .outOfRange

/-- What is left when `[first, last)` is erased. -/
def erase (l : List α) (first last : Nat) : Except Fault (List α) :=
  if first ≤ last ∧ last ≤ l.length then .ok (l.take first ++ l.drop last)
  else .error .outOfRange

theorem ok_bind {f : ρ → Except Fault σ} (r : ρ) : (Except.ok r >>= f) = f r := rfl

theorem read_ok (h : index < l.length) : read l index = .ok l[index] := dif_pos h

theorem advance_ok (h : index + count ≤ l.length) :
    advance l index count = .ok (index + count) := if_pos h

theorem sub_ok (h : b ≤ a) : sub a b = .ok (a - b) := if_pos h

theorem slice_ok (h : first ≤ last) (hlast : last ≤ l.length) :
    slice l first last = .ok ((l.take last).drop first) := if_pos ⟨h, hlast⟩

/-- Erasing from the front. -/
theorem erase_front (h : last ≤ l.length) : erase l 0 last = .ok (l.drop last) := by
  rw [erase, if_pos ⟨Nat.zero_le last, h⟩, List.take_zero, List.nil_append]

/-! ## Loops -/

/-- A loop of at most `turns` turns: a turn goes on with a new state or leaves the loop
    with a result. -/
def loop (body : σ → Except Fault (σ ⊕ ρ)) (turns : Nat) (s : σ) : Except Fault ρ :=
  match turns with
  | 0 => .error .outOfTurns
  | turns + 1 => do
      match ← body s with
      | .inl s' => loop body turns s'
      | .inr r => return r

/-- **The loop rule.**  `I` is kept by every turn, `μ` lowered by at least `k`, and the
    result `f s` that a state leads to never changes: then `μ / k + 1` turns are enough, no
    check fails, and the loop ends with that result. -/
theorem loop_eq {body : σ → Except Fault (σ ⊕ ρ)} {I : σ → Prop} {μ : σ → Nat}
    {f : σ → ρ} {k : Nat} (hk : 0 < k)
    (hbody : ∀ s, I s → body s = .ok (.inr (f s)) ∨
      ∃ s', body s = .ok (.inl s') ∧ I s' ∧ μ s' + k ≤ μ s ∧ f s' = f s)
    {turns : Nat} {s : σ} (hI : I s) (hturns : μ s / k < turns) :
    loop body turns s = .ok (f s) := by
  induction turns generalizing s with
  | zero => exact absurd hturns (Nat.not_lt_zero _)
  | succ turns ih =>
      rw [loop]
      obtain hlast | ⟨s', hmore, hI', hμ, hresult⟩ := hbody s hI
      · rw [hlast]
        rfl
      · -- one turn less is allowed, and the quotient is one less
        have hquot : μ s' / k < turns := by
          have hle : μ s' / k + 1 ≤ μ s / k := by
            rw [← Nat.add_div_right _ hk]
            exact Nat.div_le_div_right hμ
          exact Nat.lt_of_lt_of_le (Nat.lt_of_succ_le hle) (Nat.le_of_lt_succ hturns)
        rw [hmore, ok_bind]
        show loop body turns s' = .ok (f s)
        rw [ih hI' hquot, hresult]

end CheckedBuffer
