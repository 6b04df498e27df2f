import ComponentPreview.Decimal.Double
import ComponentPreview.Named

/-!
# JSON values

Whole numbers and numbers with a fraction or exponent are kept apart, and an object keeps its
fields in the order in which their names first came.
-/

namespace ComponentPreview

inductive Json
  | null
  | bool (value : Bool)
  | int (value : Int)
  | num (value : Double)
  | str (value : String)
  | arr (items : List Json)
  | obj (fields : List (String × Json))

namespace Json

def ofNat (n : Nat) : Json :=
  .int n

def ofText (text : List Char) : Json :=
  .str (String.ofList text)

def ofStrings (texts : List String) : Json :=
  .arr (texts.map .str)

def ofOption (encode : α → Json) : Option α → Json
  | none => .null
  | some value => encode value

/-- The value of a field, where a value without that field counts as `null`. -/
def get (name : String) : Json → Json
  | .obj fields => (Named.get? name fields).getD .null
  | _ => .null

def has (name : String) : Json → Bool
  | .obj fields => (Named.get? name fields).isSome
  | _ => false

/-- `null`, `false`, zero and whatever is empty count as false. -/
def isTruthy : Json → Bool
  | .null => false
  | .bool value => value
  | .int value => value != 0
  | .num value => !value.isZero
  | .str value => value != ""
  | .arr items => !items.isEmpty
  | .obj fields => !fields.isEmpty

def str? : Json → Option String
  | .str value => some value
  | _ => none

def int? : Json → Option Int
  | .int value => some value
  | _ => none

def isNull : Json → Bool
  | .null => true
  | _ => false

end Json

end ComponentPreview
