/-
  CameraStream.Js.Value

  JSON values as a JavaScript program sees them, and their conversion to
  primitives.

  A value that came through `JSON.parse` carries no functions, so `String(v)`
  finds a usable `toString` only on a prototype.  An object with a member named
  `toString` hides the one of `Object.prototype` behind a value that cannot be
  called, the `valueOf` that is tried next yields no primitive either, and the
  conversion throws a `TypeError`.  An array converts by joining its elements, so
  it inherits the failure of any element.  Each array inside another one is a call
  inside another one; `nesting` is how many of them the call stack has room for,
  and one more throws a `RangeError`.

  `toJsString_isSome` says that these are the only failures.
-/

import CameraStream.Js.Number

namespace CameraStream.Js

/-- A value produced by `JSON.parse`. -/
inductive Json where
  | null
  | bool (b : Bool)
  | num (n : Number)
  | str (s : JsString)
  | arr (items : List Json)
  | obj (members : List (JsString × Json))

namespace Json

/-- An own member with this name. -/
def hasOwn (members : List (JsString × Json)) (name : JsString) : Bool :=
  members.any fun m => m.1 = name

mutual

/-- `String(v)` with room for `nesting` arrays inside one another; `none` is a thrown
    `TypeError` or `RangeError`. -/
def toJsString : Json → Nat → Option JsString
  | .null, _ => some (js "null")
  | .bool b, _ => some (if b then js "true" else js "false")
  | .num n, _ => some n.toJsString
  | .str s, _ => some s
  | .arr _, 0 => none
  | .arr items, nesting + 1 => (joinItems items nesting).map (List.intercalate (js ","))
  | .obj members, _ =>
      if hasOwn members (js "toString") then none else some (js "[object Object]")

/-- The elements as `Array.prototype.join` converts them: `null` is empty. -/
def joinItems : List Json → Nat → Option (List JsString)
  | [], _ => some []
  | .null :: rest, nesting => (joinItems rest nesting).map ([] :: ·)
  | item :: rest, nesting =>
      match toJsString item nesting, joinItems rest nesting with
      | some part, some parts => some (part :: parts)
      | _, _ => none

end

mutual

/-- No own `toString` stands where `String(v)` looks for one: in `v` itself, if it
    is an object, and in the elements of `v`, nested arrays included, if it is an
    array. -/
def hidesNothing : Json → Bool
  | .obj members => !hasOwn members (js "toString")
  | .arr items => allHideNothing items
  | _ => true

def allHideNothing : List Json → Bool
  | [] => true
  | item :: rest => hidesNothing item && allHideNothing rest

end

mutual

/-- How many arrays stand inside one another. -/
def arrayDepth : Json → Nat
  | .arr items => itemsDepth items + 1
  | _ => 0

def itemsDepth : List Json → Nat
  | [] => 0
  | item :: rest => max (arrayDepth item) (itemsDepth rest)

end

/-- What `String(v)` asks of `v`. -/
def convertible (v : Json) (nesting : Nat) : Bool := v.hidesNothing && v.arrayDepth ≤ nesting

mutual

theorem toJsString_isSome (nesting : Nat) :
    ∀ v : Json, (v.toJsString nesting).isSome = v.convertible nesting
  | .null => rfl
  | .bool _ => rfl
  | .num _ => rfl
  | .str _ => rfl
  | .arr items => by
      rw [convertible, hidesNothing, arrayDepth]
      cases nesting with
      | zero => simp [toJsString]
      | succ nesting =>
          rw [toJsString, Option.isSome_map, joinItems_isSome nesting items]
          simp
  | .obj members => by
      rw [toJsString, convertible, hidesNothing]
      cases hasOwn members (js "toString") <;> simp [arrayDepth]

theorem joinItems_isSome (nesting : Nat) : ∀ items : List Json,
    (joinItems items nesting).isSome = (allHideNothing items && itemsDepth items ≤ nesting)
  | [] => by simp [joinItems, allHideNothing, itemsDepth]
  | item :: rest => by
      have hitem := toJsString_isSome nesting item
      have hrest := joinItems_isSome nesting rest
      have hboth : (allHideNothing (item :: rest) && decide (itemsDepth (item :: rest) ≤ nesting)) =
          (item.convertible nesting &&
            (allHideNothing rest && decide (itemsDepth rest ≤ nesting))) := by
        rw [allHideNothing, itemsDepth, convertible, Bool.eq_iff_iff]
        simp only [Bool.and_eq_true, decide_eq_true_eq, max_le_iff]
        exact and_and_and_comm
      rw [hboth, ← hitem, ← hrest]
      -- `null` is empty in a join, where `String(null)` is not, but neither throws
      cases item with
      | null => simp [joinItems, toJsString]
      | _ =>
          rw [joinItems]
          · cases toJsString _ nesting <;> cases joinItems rest nesting <;> rfl
          · simp

end

/-- `Number(v)`: an object converts through the same string as in `String(v)`,
    since its `valueOf` yields no primitive. -/
def toNumber (v : Json) (nesting : Nat) : Option Number :=
  match v with
  | .null => some (.finite 0)
  | .bool b => some (.finite (if b then 1 else 0))
  | .num n => some n
  | .str s => some (.ofString s)
  | v => (v.toJsString nesting).map .ofString

/-- `v === s` for a string `s`. -/
def isStr : Json → JsString → Bool
  | .str t, s => t = s
  | _, _ => false

end Json

/-- A property that may be absent. -/
abbrev Property := Option Json

/-- `String(v ?? '')`. -/
def stringOrEmpty (v : Property) (nesting : Nat) : Option JsString :=
  match v with
  | none => some []
  | some .null => some []
  | some v => v.toJsString nesting

/-- `Number(v)` of a property; an absent one is `undefined`. -/
def propertyToNumber (v : Property) (nesting : Nat) : Option Number :=
  match v with
  | none => some .nan
  | some v => v.toNumber nesting

/-- `String(v ?? '')` does not throw on the property. -/
def Property.convertible (v : Property) (nesting : Nat) : Bool :=
  match v with
  | none => true
  | some v => Json.convertible v nesting

theorem stringOrEmpty_isSome (v : Property) (nesting : Nat) :
    (stringOrEmpty v nesting).isSome = v.convertible nesting := by
  cases v with
  | none => rfl
  | some v =>
      cases v with
      | null => rfl
      | _ => exact Json.toJsString_isSome nesting _

end CameraStream.Js
