/-
  CameraStream.Lib.ObjectHeap

  Mutable objects behind references, for languages in which two names can stand for one
  object.  A reference is handed out by `alloc` and never again; `update` changes the
  object behind one reference, for everybody who holds it, and no other object.

  `get?_update_ne` and `extends_alloc` are the frame rules.  A reference that was valid
  before an allocation differs from the new one (`ne_alloc_of_some`), which is what keeps
  a stored object apart from a new one that is changed in place.
-/

import Mathlib.Data.List.Basic

/-- A reference to an object. -/
abbrev Ref := Nat

/-- The objects that have been allocated, in that order. -/
structure ObjectHeap (α : Type*) where
  objects : List α := []

namespace ObjectHeap

variable {α : Type*} {h : ObjectHeap α} {a b : α} {r s : Ref} {f : α → α}

def get? (h : ObjectHeap α) (r : Ref) : Option α := h.objects[r]?

/-- A new object, and the reference to it. -/
def alloc (h : ObjectHeap α) (a : α) : ObjectHeap α × Ref :=
  (⟨h.objects ++ [a]⟩, h.objects.length)

/-- The object behind `r` is changed where it is. -/
def update (h : ObjectHeap α) (r : Ref) (f : α → α) : ObjectHeap α :=
  ⟨h.objects.modify r f⟩

@[simp] theorem get?_alloc_self : (h.alloc a).1.get? (h.alloc a).2 = some a := by
  rw [get?, alloc, List.getElem?_append_right (Nat.le_refl _), Nat.sub_self]
  rfl

theorem lt_of_some (hr : h.get? r = some b) : r < h.objects.length :=
  (List.getElem?_eq_some_iff.mp hr).1

/-- Every object of `h` is in `h'`, as it was. -/
def Extends (h h' : ObjectHeap α) : Prop :=
  ∀ r a, h.get? r = some a → h'.get? r = some a

theorem Extends.trans {h₁ h₂ h₃ : ObjectHeap α} (h₁₂ : h₁.Extends h₂) (h₂₃ : h₂.Extends h₃) :
    h₁.Extends h₃ :=
  fun r a hr => h₂₃ r a (h₁₂ r a hr)

theorem extends_alloc (h : ObjectHeap α) (a : α) : h.Extends (h.alloc a).1 := by
  intro r b hr
  rw [get?, alloc, List.getElem?_append_left (lt_of_some hr)]
  exact hr

/-- A new reference is none that was there before. -/
theorem ne_alloc_of_some (hr : h.get? r = some b) : r ≠ (h.alloc a).2 :=
  Nat.ne_of_lt (lt_of_some hr)

theorem get?_update_self (hr : h.get? r = some b) : (h.update r f).get? r = some (f b) := by
  have hat : (h.objects.modify r f)[r]? = (h.objects[r]?).map f := List.getElem?_modify_eq ..
  show (h.objects.modify r f)[r]? = some (f b)
  rw [hat, show h.objects[r]? = some b from hr]
  rfl

theorem get?_update_ne (hne : s ≠ r) : (h.update r f).get? s = h.get? s := by
  show (h.objects.modify r f)[s]? = h.objects[s]?
  exact List.getElem?_modify_ne _ _ hne.symm

end ObjectHeap
