import ScanPath.Keyed

/-!
# JSON values

Integers and floats are different numbers here, as they are in canonical text:
`1` and `1.0` neither print alike nor compare equal.  The fields of an object
stand in the order in which they are written; `canonical` puts them in order
of their names at every depth.
-/

namespace ScanPath

inductive Json where
  | null
  | bool (value : Bool)
  | int (value : Int)
  | float (value : Float)
  | string (value : String)
  | array (items : List Json)
  | object (fields : List (String × Json))
  deriving Inhabited

namespace Json

/-- JSON has no infinities and no NaN: they are written as `null`. -/
def ofFloat (x : Float) : Json := if x.isFinite then .float x else .null

def ofNat (n : Nat) : Json := .int n

def strings (items : List String) : Json := .array (items.map .string)

def floats (items : List Float) : Json := .array (items.map ofFloat)

def optional (encode : α → Json) : Option α → Json
  | none => .null
  | some value => encode value

def sort : Json → String
  | .null => "null"
  | .bool _ => "bool"
  | .int _ | .float _ => "number"
  | .string _ => "string"
  | .array _ => "array"
  | .object _ => "object"

def field? (json : Json) (name : String) : Option Json :=
  match json with
  | .object fields => fields.lookup name
  | _ => none

def orderedFields (fields : List (String × Json)) : List (String × Json) :=
  (Keyed.ofList fields).entries

mutual

def canonical : Json → Json
  | .array items => .array (canonicalItems items)
  | .object fields => .object (orderedFields (canonicalFields fields))
  | .null => .null
  | .bool value => .bool value
  | .int value => .int value
  | .float value => .float value
  | .string value => .string value

def canonicalItems : List Json → List Json
  | [] => []
  | item :: items => canonical item :: canonicalItems items

def canonicalFields : List (String × Json) → List (String × Json)
  | [] => []
  | (name, value) :: fields => (name, canonical value) :: canonicalFields fields

end

mutual

/-- Equality of canonical values: floats are compared as numbers, so `0.0` equals `-0.0`, and an
integer never equals a float. -/
def same : Json → Json → Bool
  | .null, .null => true
  | .bool first, .bool second => first == second
  | .int first, .int second => first == second
  | .float first, .float second => first == second
  | .string first, .string second => first == second
  | .array first, .array second => sameItems first second
  | .object first, .object second => sameFields first second
  | _, _ => false

def sameItems : List Json → List Json → Bool
  | [], [] => true
  | first :: rest, second :: others => same first second && sameItems rest others
  | _, _ => false

def sameFields : List (String × Json) → List (String × Json) → Bool
  | [], [] => true
  | (name, first) :: rest, (other, second) :: others =>
      name == other && same first second && sameFields rest others
  | _, _ => false

end

instance : BEq Json := ⟨same⟩

end Json

end ScanPath
