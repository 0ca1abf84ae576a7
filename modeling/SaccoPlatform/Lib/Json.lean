import Mathlib.Data.Rat.Defs
import Mathlib.Tactic.Common

/-!
# JSON values

What `json.loads` makes of a text. Integers have no bound, except that an integer of more than 4300
digits is not read at all.
-/

namespace SaccoPlatform.Lib

/-- A decoded value. A number written with a fraction or an exponent is a float, here with the value of
the double that it is read as: 0 for one that is written too small. An infinity stands with the value
that is written. -/
inductive Json where
  | null
  | bool (b : Bool)
  | int (n : ℤ)
  | float (x : ℚ)
  | str (s : String)
  | arr (elems : List Json)
  | obj (fields : List (String × Json))

namespace Json

/-- `bool(value)`. -/
def truthy : Json → Bool
  | null => false
  | bool b => b
  | int n => n ≠ 0
  | float x => x ≠ 0
  | str s => s ≠ ""
  | arr elems => !elems.isEmpty
  | obj fields => !fields.isEmpty

/-- `type(value).__name__`. -/
def typeName : Json → String
  | null => "NoneType"
  | bool _ => "bool"
  | int _ => "int"
  | float _ => "float"
  | str _ => "str"
  | arr _ => "list"
  | obj _ => "dict"

/-- `fields.get(key)`; of a key that is repeated the last value counts. -/
def lookup (fields : List (String × Json)) (key : String) : Option Json :=
  (fields.reverse.find? (·.1 = key)).map (·.2)

/-- The value of a number in arithmetic, where `true` and `false` are 1 and 0. -/
def number? : Json → Option ℚ
  | bool b => some (if b then 1 else 0)
  | int n => some n
  | float x => some x
  | _ => none

def isFloat : Json → Bool
  | float _ => true
  | _ => false

mutual

/-- Every integer is below `10 ^ 4300`, which has 4301 digits. -/
def readable : Json → Bool
  | int n => n.natAbs < (10 ^ 43) ^ 100
  | arr elems => readableElems elems
  | obj fields => readableFields fields
  | _ => true

def readableElems : List Json → Bool
  | [] => true
  | value :: rest => readable value && readableElems rest

def readableFields : List (String × Json) → Bool
  | [] => true
  | (_, value) :: rest => readable value && readableFields rest

end

end Json

end SaccoPlatform.Lib
