import Mathlib.Data.Rat.Defs
import Mathlib.Data.String.Basic

/-!
# Values

The values of a delta: what JavaScript can hold in a Signal K leaf. Finite numbers are exact
rationals, and an object is the list of its enumerable properties in the order JavaScript
iterates them.

* `stringify` is the tree that `JSON.stringify` writes down: a number that is not finite becomes
  `null`, an undefined property disappears.
* `wire` is what arrives of a value, through JSON or through MessagePack.
* `stableRepr` is the comparison key of the value-dedup codec. A JSON text is represented by the
  tree it denotes, since a text denotes one tree and a tree has one text.
* `wire_json_of_stableRepr`: through JSON, values with the same key arrive as the same value.
-/

namespace EdgeLink

/-- A JavaScript number. -/
inductive JsNumber where
  | nan
  | posInf
  | negInf
  | finite (q : ℚ)
  deriving DecidableEq

/-- A JavaScript value without functions. -/
inductive JsValue where
  | undefined
  | null
  | bool (b : Bool)
  | num (n : JsNumber)
  | str (s : String)
  | arr (items : List JsValue)
  | obj (fields : List (String × JsValue))

namespace JsValue

/-! ## Decidable equality -/

mutual

/-- Structural equality. -/
def beq : JsValue → JsValue → Bool
  | undefined, undefined => true
  | null, null => true
  | bool a, bool b => a == b
  | num a, num b => decide (a = b)
  | str a, str b => a == b
  | arr as, arr bs => beqItems as bs
  | obj as, obj bs => beqFields as bs
  | _, _ => false

def beqItems : List JsValue → List JsValue → Bool
  | [], [] => true
  | a :: as, b :: bs => beq a b && beqItems as bs
  | _, _ => false

def beqFields : List (String × JsValue) → List (String × JsValue) → Bool
  | [], [] => true
  | (k, a) :: as, (l, b) :: bs => k == l && beq a b && beqFields as bs
  | _, _ => false

end

mutual

theorem beq_iff : ∀ a b : JsValue, beq a b = true ↔ a = b
  | undefined, b => by cases b <;> simp [beq]
  | null, b => by cases b <;> simp [beq]
  | bool a, b => by cases b <;> simp [beq]
  | num a, b => by cases b <;> simp [beq]
  | str a, b => by cases b <;> simp [beq]
  | arr as, b => by cases b <;> simp [beq, beqItems_iff as]
  | obj as, b => by cases b <;> simp [beq, beqFields_iff as]

theorem beqItems_iff : ∀ as bs : List JsValue, beqItems as bs = true ↔ as = bs
  | [], bs => by cases bs <;> simp [beqItems]
  | a :: as, bs => by cases bs <;> simp [beqItems, beq_iff a, beqItems_iff as]

theorem beqFields_iff : ∀ as bs : List (String × JsValue), beqFields as bs = true ↔ as = bs
  | [], bs => by cases bs <;> simp [beqFields]
  | (k, a) :: as, bs => by
    cases bs <;> simp [beqFields, beq_iff a, beqFields_iff as, Prod.ext_iff]

end

instance : DecidableEq JsValue := fun a b => decidable_of_iff (beq a b = true) (beq_iff a b)

/-- The property of an object, `undefined` when there is none. -/
def get (v : JsValue) (name : String) : JsValue :=
  match v with
  | obj fields => (fields.lookup name).getD undefined
  | _ => undefined

/-- `typeof v === "object"`. -/
def isObjectType : JsValue → Bool
  | null => true
  | arr _ => true
  | obj _ => true
  | _ => false

/-! ## Serialisation -/

mutual

/-- The tree that `JSON.stringify` writes for a value other than `undefined`. -/
def stringify : JsValue → JsValue
  | undefined => null
  | num (.finite q) => num (.finite q)
  | num _ => null
  | arr items => arr (stringifyItems items)
  | obj fields => obj (stringifyFields fields)
  | v => v

def stringifyItems : List JsValue → List JsValue
  | [] => []
  | v :: rest => stringify v :: stringifyItems rest

def stringifyFields : List (String × JsValue) → List (String × JsValue)
  | [] => []
  | (_, undefined) :: rest => stringifyFields rest
  | (k, v) :: rest => (k, stringify v) :: stringifyFields rest

end

mutual

/-- What MessagePack delivers of a value: it has no `undefined`. -/
def packed : JsValue → JsValue
  | undefined => null
  | arr items => arr (packedItems items)
  | obj fields => obj (packedFields fields)
  | v => v

def packedItems : List JsValue → List JsValue
  | [] => []
  | v :: rest => packed v :: packedItems rest

def packedFields : List (String × JsValue) → List (String × JsValue)
  | [] => []
  | (k, v) :: rest => (k, packed v) :: packedFields rest

end

/-- What arrives of the `value` property of a delta entry, through MessagePack or through JSON. -/
def wire (useMsgpack : Bool) (v : JsValue) : JsValue :=
  if useMsgpack then packed v else if v = undefined then undefined else stringify v

/-- A comparison key for "same as the previous value". -/
inductive Repr where
  | undefined
  | nan
  | posInf
  | negInf
  /-- a JSON text, as the tree it denotes -/
  | json (text : JsValue)
  deriving DecidableEq

/-- The comparison key of a value. Numbers that are not finite have keys of their own, which JSON
would all write as `null`. -/
def stableRepr : JsValue → Repr
  | undefined => .undefined
  | num .nan => .nan
  | num .posInf => .posInf
  | num .negInf => .negInf
  | v => .json (stringify v)

/-- Through JSON, values with the same comparison key arrive as the same value. -/
theorem wire_json_of_stableRepr {a b : JsValue} (h : stableRepr a = stableRepr b) :
    wire false a = wire false b := by
  have key : ∀ v : JsValue, wire false v = match stableRepr v with
      | .undefined => undefined
      | .json text => text
      | _ => null := by
    intro v
    cases v with
    | num n => cases n <;> simp [wire, stableRepr, stringify]
    | _ => simp [wire, stableRepr]
  rw [key a, key b, h]

end JsValue

end EdgeLink
