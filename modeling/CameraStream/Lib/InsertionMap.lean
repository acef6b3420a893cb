/-
  CameraStream.Lib.InsertionMap

  Insertion-ordered finite maps: a list of entries with pairwise distinct keys.
  Writing to a present key replaces the value where it stands; writing to an
  absent key appends a new entry, so iteration follows the order in which keys
  were first written.

  Clients use `get?_set_self` / `get?_set_ne`, `get?_empty`, and
  `mem_values_iff` to pass between iteration and lookup.
-/

import Mathlib.Data.List.Nodup

/-- A finite map that remembers the order in which its keys were first set. -/
structure InsertionMap (κ ν : Type*) where
  entries : List (κ × ν)
  nodup_keys : (entries.map Prod.fst).Nodup

namespace InsertionMap

variable {κ ν : Type*}

def empty : InsertionMap κ ν := ⟨[], List.nodup_nil⟩

variable [DecidableEq κ]

/-- The value of the first entry whose key is `k`. -/
def lookupEntry (k : κ) : List (κ × ν) → Option ν
  | [] => none
  | (k', v) :: rest => if k' = k then some v else lookupEntry k rest

/-- Replace the value of `k` where it stands, or append a new entry. -/
def setEntry (k : κ) (v : ν) : List (κ × ν) → List (κ × ν)
  | [] => [(k, v)]
  | (k', v') :: rest => if k' = k then (k', v) :: rest else (k', v') :: setEntry k v rest

theorem mem_keys_setEntry {k x : κ} {v : ν} {l : List (κ × ν)}
    (h : x ∈ (setEntry k v l).map Prod.fst) : x = k ∨ x ∈ l.map Prod.fst := by
  induction l with
  | nil => simpa [setEntry] using h
  | cons p rest ih =>
      obtain ⟨k', v'⟩ := p
      by_cases hk : k' = k
      · rw [setEntry, if_pos hk] at h
        exact Or.inr h
      · rw [setEntry, if_neg hk] at h
        rcases List.mem_cons.mp h with hx | hx
        · exact Or.inr (List.mem_cons.mpr (Or.inl hx))
        · rcases ih hx with hx | hx
          · exact Or.inl hx
          · exact Or.inr (List.mem_cons_of_mem _ hx)

theorem setEntry_nodup {k : κ} {v : ν} {l : List (κ × ν)}
    (h : (l.map Prod.fst).Nodup) : ((setEntry k v l).map Prod.fst).Nodup := by
  induction l with
  | nil => simp [setEntry]
  | cons p rest ih =>
      obtain ⟨k', v'⟩ := p
      obtain ⟨hnot, hrest⟩ := List.nodup_cons.mp h
      by_cases hk : k' = k
      · rw [setEntry, if_pos hk]
        exact h
      · rw [setEntry, if_neg hk]
        -- the head's key cannot have come in with the write: it is not `k`
        refine List.nodup_cons.mpr ⟨fun hmem => ?_, ih hrest⟩
        rcases mem_keys_setEntry hmem with heq | hmem
        · exact hk heq
        · exact hnot hmem

theorem lookupEntry_setEntry_self (k : κ) (v : ν) (l : List (κ × ν)) :
    lookupEntry k (setEntry k v l) = some v := by
  induction l with
  | nil => simp [setEntry, lookupEntry]
  | cons p rest ih =>
      obtain ⟨k', v'⟩ := p
      by_cases hk : k' = k
      · rw [setEntry, if_pos hk, lookupEntry, if_pos hk]
      · rw [setEntry, if_neg hk, lookupEntry, if_neg hk, ih]

theorem lookupEntry_setEntry_ne {k x : κ} (hx : x ≠ k) (v : ν) (l : List (κ × ν)) :
    lookupEntry x (setEntry k v l) = lookupEntry x l := by
  induction l with
  | nil => simp [setEntry, lookupEntry, Ne.symm hx]
  | cons p rest ih =>
      obtain ⟨k', v'⟩ := p
      by_cases hk : k' = k
      · rw [setEntry, if_pos hk, lookupEntry, lookupEntry]
        rw [if_neg (fun h => hx (h.symm.trans hk)), if_neg (fun h => hx (h.symm.trans hk))]
      · rw [setEntry, if_neg hk, lookupEntry, lookupEntry, ih]

/-- With distinct keys, an entry is found under its own key and nowhere else. -/
theorem lookupEntry_eq_some_iff {k : κ} {v : ν} {l : List (κ × ν)}
    (h : (l.map Prod.fst).Nodup) : lookupEntry k l = some v ↔ (k, v) ∈ l := by
  induction l with
  | nil => simp [lookupEntry]
  | cons p rest ih =>
      obtain ⟨k', v'⟩ := p
      obtain ⟨hnot, hrest⟩ := List.nodup_cons.mp h
      by_cases hk : k' = k
      · -- the key occurs at the head and, by distinctness, nowhere else
        subst hk
        rw [lookupEntry, if_pos rfl]
        refine ⟨?_, ?_⟩
        · rintro ⟨⟩
          exact List.mem_cons_self
        · intro hmem
          rcases List.mem_cons.mp hmem with heq | hmem
          · cases heq
            rfl
          · exact absurd (List.mem_map_of_mem (f := Prod.fst) hmem) hnot
      · rw [lookupEntry, if_neg hk, ih hrest]
        simp [Ne.symm hk]

/-! ## The map interface -/

def get? (m : InsertionMap κ ν) (k : κ) : Option ν := lookupEntry k m.entries

def set (m : InsertionMap κ ν) (k : κ) (v : ν) : InsertionMap κ ν :=
  ⟨setEntry k v m.entries, setEntry_nodup m.nodup_keys⟩

/-- The values in insertion order. -/
def values (m : InsertionMap κ ν) : List ν := m.entries.map Prod.snd

@[simp] theorem get?_empty (k : κ) : (empty : InsertionMap κ ν).get? k = none := rfl

@[simp] theorem get?_set_self (m : InsertionMap κ ν) (k : κ) (v : ν) :
    (m.set k v).get? k = some v :=
  lookupEntry_setEntry_self k v m.entries

@[simp] theorem get?_set_ne (m : InsertionMap κ ν) {k x : κ} (hx : x ≠ k) (v : ν) :
    (m.set k v).get? x = m.get? x :=
  lookupEntry_setEntry_ne hx v m.entries

theorem get?_set (m : InsertionMap κ ν) (k x : κ) (v : ν) :
    (m.set k v).get? x = if x = k then some v else m.get? x := by
  by_cases hx : x = k
  · rw [if_pos hx, hx, get?_set_self]
  · rw [if_neg hx, get?_set_ne m hx]

/-- Iterating over the values is looking up every key. -/
theorem mem_values_iff (m : InsertionMap κ ν) (v : ν) :
    v ∈ m.values ↔ ∃ k, m.get? k = some v := by
  simp only [values, List.mem_map, get?, lookupEntry_eq_some_iff m.nodup_keys]
  refine ⟨?_, ?_⟩
  · rintro ⟨⟨k, v'⟩, hmem, rfl⟩
    exact ⟨k, hmem⟩
  · rintro ⟨k, hmem⟩
    exact ⟨(k, v), hmem, rfl⟩

end InsertionMap
