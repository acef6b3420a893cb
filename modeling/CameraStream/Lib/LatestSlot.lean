/-
  CameraStream.Lib.LatestSlot

  A mailbox for one item.  The writer replaces what the reader has not taken yet,
  and closing the mailbox empties it for good.

  Items are told apart by their place in the sequence of puts, so that two equal
  items are still two.  `Unread` is read off a history: the latest item is there
  to be taken.  Every run keeps the `Law`: the slot holds the latest item exactly
  while it is unread, items are taken in the order of their puts, each once, and
  every item that was ever put is in exactly one of five places.
-/

import CameraStream.Lib.EventMachine
import Mathlib.Data.List.Basic

structure LatestSlot (α : Type*) where
  item : Option α := none
  closed : Bool := false

namespace LatestSlot

open EventMachine

variable {α : Type*}

inductive Op (α : Type*) where
  | put (x : α)
  | take
  | close

inductive Output (α : Type*) where
  /-- The flag tells whether an item was replaced. -/
  | put (x : α) (replaced : Bool)
  | took (x : Option α)
  /-- Closing removes the item that is there. -/
  | closed (removed : Option α)

def step (s : LatestSlot α) : Op α → Option (LatestSlot α × List (Output α))
  | .put x =>
      if s.closed then some (s, [.put x false])
      else some ({ s with item := some x }, [.put x s.item.isSome])
  | .take => some ({ s with item := none }, [.took s.item])
  | .close => some (⟨none, true⟩, [.closed s.item])

def machine (α : Type*) : EventMachine (LatestSlot α) (Op α) (Output α) := ⟨step⟩

/-! ## Reading a history -/

/-- Every item that was put, in order. -/
def puts (h : List (Output α)) : List α :=
  h.filterMap fun
    | .put x _ => some x
    | _ => none

/-- The items that were taken, in order. -/
def takes (h : List (Output α)) : List α :=
  h.filterMap fun
    | .took x => x
    | _ => none

/-- The places of the taken items in the sequence of puts, when `n` items were put
    before: a take removes the latest. -/
def takenFrom : Nat → List (Output α) → List Nat
  | _, [] => []
  | n, .put _ _ :: h => takenFrom (n + 1) h
  | n, .took (some _) :: h => (n - 1) :: takenFrom n h
  | n, .took none :: h => takenFrom n h
  | n, .closed _ :: h => takenFrom n h

def takenAt (h : List (Output α)) : List Nat := takenFrom 0 h

def wasClosed (h : List (Output α)) : Bool :=
  h.any fun
    | .closed _ => true
    | _ => false

/-- How many puts have replaced an item. -/
def replacements (h : List (Output α)) : Nat :=
  h.countP fun
    | .put _ replaced => replaced
    | _ => false

/-- How many items closing has removed. -/
def removals (h : List (Output α)) : Nat :=
  h.countP fun
    | .closed removed => removed.isSome
    | _ => false

/-- How many items were put behind the first closing. -/
def latePuts : List (Output α) → Nat
  | [] => 0
  | .closed _ :: h => (puts h).length
  | _ :: h => latePuts h

/-- The latest item is there to be taken. -/
def Unread (h : List (Output α)) : Prop :=
  wasClosed h = false ∧ 0 < (puts h).length ∧ (puts h).length - 1 ∉ takenAt h

@[simp] theorem puts_nil : puts ([] : List (Output α)) = [] := rfl

@[simp] theorem takes_nil : takes ([] : List (Output α)) = [] := rfl

@[simp] theorem takenAt_nil : takenAt ([] : List (Output α)) = [] := rfl

@[simp] theorem wasClosed_nil : wasClosed ([] : List (Output α)) = false := rfl

@[simp] theorem replacements_nil : replacements ([] : List (Output α)) = 0 := rfl

@[simp] theorem removals_nil : removals ([] : List (Output α)) = 0 := rfl

@[simp] theorem latePuts_nil : latePuts ([] : List (Output α)) = 0 := rfl

@[simp] theorem puts_append (h h' : List (Output α)) : puts (h ++ h') = puts h ++ puts h' :=
  List.filterMap_append

@[simp] theorem takes_append (h h' : List (Output α)) :
    takes (h ++ h') = takes h ++ takes h' :=
  List.filterMap_append

@[simp] theorem wasClosed_append (h h' : List (Output α)) :
    wasClosed (h ++ h') = (wasClosed h || wasClosed h') :=
  List.any_append

@[simp] theorem replacements_append (h h' : List (Output α)) :
    replacements (h ++ h') = replacements h + replacements h' :=
  List.countP_append

@[simp] theorem removals_append (h h' : List (Output α)) :
    removals (h ++ h') = removals h + removals h' :=
  List.countP_append

theorem takenFrom_append (n : Nat) (h h' : List (Output α)) :
    takenFrom n (h ++ h') = takenFrom n h ++ takenFrom (n + (puts h).length) h' := by
  induction h generalizing n with
  | nil => simp [takenFrom]
  | cons o h ih =>
      cases o with
      | put x replaced =>
          have hputs : puts (.put x replaced :: h) = x :: puts h := rfl
          rw [List.cons_append, takenFrom, takenFrom, ih, hputs, List.length_cons]
          congr 2
          omega
      | took x => cases x <;> simp [takenFrom, ih, puts]
      | closed removed => simp [takenFrom, ih, puts]

theorem latePuts_append (h h' : List (Output α)) :
    latePuts (h ++ h') = latePuts h + if wasClosed h then (puts h').length else latePuts h' := by
  induction h with
  | nil => simp
  | cons o h ih =>
      cases o with
      | closed removed => simp [latePuts, wasClosed]
      | put x replaced => simpa [latePuts, wasClosed] using ih
      | took x => simpa [latePuts, wasClosed] using ih

/-! ### One more output -/

section Single

variable (x : α) (t : Option α) (b : Bool) (h : List (Output α))

@[simp] theorem puts_put : puts [.put x b] = [x] := rfl

@[simp] theorem puts_took : puts [.took t] = [] := rfl

@[simp] theorem puts_closed : puts [.closed t] = [] := rfl

@[simp] theorem takes_put : takes [.put x b] = [] := rfl

@[simp] theorem takes_took : takes [.took t] = t.toList := by
  cases t <;> rfl

@[simp] theorem takes_closed : takes [.closed t] = [] := rfl

@[simp] theorem wasClosed_put : wasClosed [.put x b] = false := rfl

@[simp] theorem wasClosed_took : wasClosed [.took t] = false := rfl

@[simp] theorem wasClosed_closed : wasClosed [.closed t] = true := rfl

@[simp] theorem replacements_put : replacements [.put x b] = b.toNat := by
  cases b <;> rfl

@[simp] theorem replacements_took : replacements [.took t] = 0 := rfl

@[simp] theorem replacements_closed : replacements [.closed t] = 0 := rfl

@[simp] theorem removals_put : removals [.put x b] = 0 := rfl

@[simp] theorem removals_took : removals [.took t] = 0 := rfl

@[simp] theorem removals_closed : removals [.closed t] = t.isSome.toNat := by
  cases t <;> rfl

@[simp] theorem latePuts_put :
    latePuts (h ++ [.put x b]) = latePuts h + (wasClosed h).toNat := by
  rw [latePuts_append]
  cases wasClosed h <;> rfl

@[simp] theorem latePuts_took : latePuts (h ++ [.took t]) = latePuts h := by
  rw [latePuts_append]
  cases wasClosed h <;> rfl

@[simp] theorem latePuts_closed : latePuts (h ++ [.closed t]) = latePuts h := by
  rw [latePuts_append]
  cases wasClosed h <;> rfl

theorem takenAt_append (h h' : List (Output α)) :
    takenAt (h ++ h') = takenAt h ++ takenFrom (puts h).length h' := by
  rw [takenAt, takenFrom_append, Nat.zero_add]
  rfl

@[simp] theorem takenAt_put : takenAt (h ++ [.put x b]) = takenAt h := by
  simp [takenAt_append, takenFrom]

@[simp] theorem takenAt_took_none : takenAt (h ++ [.took none]) = takenAt h := by
  simp [takenAt_append, takenFrom]

@[simp] theorem takenAt_took_some :
    takenAt (h ++ [.took (some x)]) = takenAt h ++ [(puts h).length - 1] := by
  simp [takenAt_append, takenFrom]

@[simp] theorem takenAt_closed : takenAt (h ++ [.closed t]) = takenAt h := by
  simp [takenAt_append, takenFrom]

end Single

/-! ## The law -/

variable {c c' : Config (LatestSlot α) (Output α)} {op : Op α} {ops : List (Op α)}

structure Law (c : Config (LatestSlot α) (Output α)) : Prop where
  closed : c.state.closed = wasClosed c.history
  unread : c.state.item.isSome = true ↔ Unread c.history
  latest : ∀ x, c.state.item = some x → (puts c.history).getLast? = some x
  /-- The taken items, and behind them the one in the slot, in the order of their puts. -/
  order : (takes c.history ++ c.state.item.toList).Sublist (puts c.history)
  places : (takenAt c.history).Pairwise (· < ·)
  bound : ∀ n ∈ takenAt c.history, n < (puts c.history).length
  items : (takes c.history).map some = (takenAt c.history).map fun n => (puts c.history)[n]?
  account : (puts c.history).length = replacements c.history + (takes c.history).length +
    removals c.history + latePuts c.history + c.state.item.toList.length
  /-- Only the first closing can remove an item. -/
  removed : removals c.history ≤ (wasClosed c.history).toNat

theorem law_start : Law (.start ({} : LatestSlot α)) where
  closed := rfl
  unread := by simp [Unread]
  latest := by simp
  order := by simp
  places := List.Pairwise.nil
  bound := by simp
  items := by simp
  account := by simp
  removed := by simp

theorem Law.item_eq_none (hlaw : Law c) (hunread : ¬ Unread c.history) : c.state.item = none :=
  Option.not_isSome_iff_eq_none.mp fun h => hunread (hlaw.unread.mp h)

/-- Later puts do not move the earlier ones. -/
theorem Law.items_grow (hlaw : Law c) (l : List α) :
    (takes c.history).map some =
      (takenAt c.history).map fun n => (puts c.history ++ l)[n]? := by
  rw [hlaw.items]
  exact List.map_congr_left fun n hn => (List.getElem?_append_left (hlaw.bound n hn)).symm

/-- A put into an open mailbox, whatever was there before. -/
theorem law_put (hlaw : Law c) (x : α) (hopen : c.state.closed = false) :
    Law ⟨{ c.state with item := some x }, c.history ++ [.put x c.state.item.isSome]⟩ := by
  have hwas : wasClosed c.history = false := hlaw.closed ▸ hopen
  refine ⟨by simpa using hlaw.closed, ?_, by simp, ?_, by simpa using hlaw.places, ?_, ?_, ?_,
    by simpa using hlaw.removed⟩
  · -- the new item has a place that no take has reached
    refine iff_of_true rfl ⟨by simpa using hwas, by simp, ?_⟩
    have hfresh : (puts c.history).length ∉ takenAt c.history :=
      fun hmem => Nat.lt_irrefl _ (hlaw.bound _ hmem)
    simpa using hfresh
  · have hold : (takes c.history).Sublist (puts c.history) :=
      (List.sublist_append_left _ _).trans hlaw.order
    simpa using hold.append (List.Sublist.refl [x])
  · intro n hn
    have hlt := hlaw.bound n (by simpa using hn)
    simp only [puts_append, puts_put, List.length_append, List.length_singleton]
    omega
  · simpa using hlaw.items_grow [x]
  · -- an item that was there is a replacement now
    have haccount := hlaw.account
    cases hitem : c.state.item <;> simp [hitem, hwas] at haccount ⊢ <;> omega

/-- A closed mailbox ignores what is put. -/
theorem law_put_closed (hlaw : Law c) (x : α) (hclosed : c.state.closed = true) :
    Law ⟨c.state, c.history ++ [.put x false]⟩ := by
  have hwas : wasClosed c.history = true := hlaw.closed ▸ hclosed
  have hread : ∀ h : List (Output α), wasClosed h = true → ¬ Unread h := by
    intro h hh hunread
    rw [hunread.1] at hh
    cases hh
  have hnone := hlaw.item_eq_none (hread _ hwas)
  refine ⟨by simpa using hlaw.closed, ?_, by simp [hnone], ?_, by simpa using hlaw.places, ?_, ?_,
    ?_, by simpa using hlaw.removed⟩
  · exact iff_of_false (by simp [hnone]) (hread _ (by simp [hwas]))
  · simpa using hlaw.order.trans (List.sublist_append_left _ [x])
  · intro n hn
    have hlt := hlaw.bound n (by simpa using hn)
    simp only [puts_append, puts_put, List.length_append, List.length_singleton]
    omega
  · simpa using hlaw.items_grow [x]
  · have haccount := hlaw.account
    simp [hwas] at haccount ⊢
    omega

theorem law_take (hlaw : Law c) :
    Law ⟨{ c.state with item := none }, c.history ++ [.took c.state.item]⟩ := by
  -- the latest item is unread no longer
  have hread : ∀ h : List (Output α),
      takenAt h = takenAt c.history ++ [(puts c.history).length - 1] →
      puts h = puts c.history → ¬ Unread h := by
    intro h htaken hputs hunread
    exact hunread.2.2 (by simp [htaken, hputs])
  cases hitem : c.state.item with
  | none =>
      -- nothing there: an empty pop
      have hno : ¬ Unread c.history := fun hunread => by
        have hsome := hlaw.unread.mpr hunread
        simp [hitem] at hsome
      refine ⟨by simpa using hlaw.closed, ?_, by simp, ?_, by simpa using hlaw.places,
        by simpa using hlaw.bound, by simpa using hlaw.items, ?_, by simpa using hlaw.removed⟩
      · exact iff_of_false (by simp) fun hunread => hno (by simpa [Unread] using hunread)
      · simpa [hitem] using hlaw.order
      · simpa [hitem] using hlaw.account
  | some x =>
      have hunread : Unread c.history := hlaw.unread.mp (by simp [hitem])
      have hlast := hlaw.latest x hitem
      obtain ⟨hwas, hpos, hfresh⟩ := hunread
      refine ⟨by simpa using hlaw.closed, ?_, by simp, ?_, ?_, ?_, ?_, ?_,
        by simpa using hlaw.removed⟩
      · exact iff_of_false (by simp) (hread _ (by simp) (by simp))
      · simpa [hitem] using hlaw.order
      · -- all earlier takes were of earlier items
        rw [takenAt_took_some, List.pairwise_append]
        refine ⟨hlaw.places, List.pairwise_singleton _ _, ?_⟩
        intro n hn k hk
        have hlt := hlaw.bound n hn
        have hne : n ≠ (puts c.history).length - 1 := fun heq => hfresh (heq ▸ hn)
        rw [List.mem_singleton.mp hk]
        omega
      · intro n hn
        rw [takenAt_took_some] at hn
        simp only [puts_append, puts_took, List.append_nil]
        rcases List.mem_append.mp hn with hold | hnew
        · exact hlaw.bound n hold
        · rw [List.mem_singleton.mp hnew]
          omega
      · rw [List.getLast?_eq_getElem?] at hlast
        simp [hlaw.items, hlast]
      · have haccount := hlaw.account
        simp [hitem] at haccount ⊢
        omega

theorem law_close (hlaw : Law c) :
    Law ⟨⟨none, true⟩, c.history ++ [.closed c.state.item]⟩ := by
  refine ⟨by simp, ?_, by simp, ?_, by simpa using hlaw.places, by simpa using hlaw.bound,
    by simpa using hlaw.items, ?_, ?_⟩
  · refine iff_of_false (by simp) fun hunread => ?_
    have hno := hunread.1
    simp at hno
  · simpa using (List.sublist_append_left _ _).trans hlaw.order
  · have haccount := hlaw.account
    cases hitem : c.state.item <;> simp [hitem] at haccount ⊢ <;> omega
  · -- an item that is removed was put before any closing
    have hremoved := hlaw.removed
    cases hitem : c.state.item with
    | none =>
        simp only [removals_append, removals_closed, wasClosed_append, wasClosed_closed,
          Bool.or_true, Option.isSome_none, Bool.toNat_true, Bool.toNat_false]
        exact hremoved.trans (Bool.toNat_le _)
    | some x =>
        have hwas := (hlaw.unread.mp (by simp [hitem])).1
        rw [hwas] at hremoved
        simpa using hremoved

/-- Every step keeps the law. -/
theorem law_step (hlaw : Law c) (hnext : (machine α).next c op = some c') : Law c' := by
  obtain ⟨s', h'⟩ := c'
  obtain ⟨out, hstep, rfl⟩ := next_eq_some hnext
  cases op with
  | put x =>
      simp only [machine, step] at hstep
      split at hstep
      · next hclosed =>
          cases hstep
          exact law_put_closed hlaw x hclosed
      · next hopen =>
          cases hstep
          exact law_put hlaw x (by simpa using hopen)
  | take =>
      cases hstep
      exact law_take hlaw
  | close =>
      cases hstep
      exact law_close hlaw

theorem law_run (hrun : (machine α).exec (.start {}) ops = some c) : Law c :=
  exec_invariant (fun _ _ _ => law_step) law_start hrun

/-! ## Outputs at the moment they are emitted -/

/-- What a history says about the next output: only an unread item is replaced,
    taken or removed, and what is taken is the latest item. -/
def Fresh (h : List (Output α)) : Output α → Prop
  | .put _ replaced => replaced = true ↔ Unread h
  | .took t => ∀ x, t = some x → Unread h ∧ (puts h).getLast? = some x
  | .closed removed => removed.isSome = true ↔ Unread h

theorem fresh_step (hlaw : Law c) (hnext : (machine α).next c op = some c') :
    ∃ o, c'.history = c.history ++ [o] ∧ Fresh c.history o := by
  obtain ⟨s', h'⟩ := c'
  obtain ⟨out, hstep, rfl⟩ := next_eq_some hnext
  cases op with
  | put x =>
      simp only [machine, step] at hstep
      split at hstep
      · next hclosed =>
          cases hstep
          refine ⟨_, rfl, iff_of_false (by simp) fun hunread => ?_⟩
          rw [hlaw.closed, hunread.1] at hclosed
          cases hclosed
      · cases hstep
        exact ⟨_, rfl, hlaw.unread⟩
  | take =>
      cases hstep
      exact ⟨_, rfl, fun x hx => ⟨hlaw.unread.mp (by simp [hx]), hlaw.latest x hx⟩⟩
  | close =>
      cases hstep
      exact ⟨_, rfl, hlaw.unread⟩

theorem fresh_run (hrun : (machine α).exec (.start {}) ops = some c) :
    Whenever Fresh c.history := by
  refine (exec_invariant (I := fun c => Law c ∧ Whenever Fresh c.history)
    (fun c op c' h hnext => ?_) ⟨law_start, whenever_nil⟩ hrun).2
  obtain ⟨o, hhist, hfresh⟩ := fresh_step h.1 hnext
  refine ⟨law_step h.1 hnext, ?_⟩
  rw [hhist]
  exact whenever_concat.mpr ⟨h.2, hfresh⟩

end LatestSlot
