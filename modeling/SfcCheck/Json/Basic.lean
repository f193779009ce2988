import SfcCheck.Decimal.Binary
import SfcCheck.Table

/-!
# JSON values

The values of the wire protocol, of the workspace files and of the overrides. Integers and numbers
with a fraction are kept apart. An object is a list of fields in the order in which the keys first
came; `ofFields` keeps the keys distinct.
-/

namespace SfcCheck

/-- A JSON value. -/
inductive Json where
  | null
  | bool (b : Bool)
  | int (n : Int)
  | float (x : Float)
  | str (s : String)
  | arr (items : List Json)
  | obj (fields : List (String × Json))
deriving Inhabited

/-- The kinds of value that a setting or a message can hold, as messages name them. -/
inductive Kind where
  | null
  | bool
  | int
  | float
  | text
  | list
  | table
  | date
  | dateTime
  | timeOfDay
deriving DecidableEq, Repr

/-- The name of a kind in messages. -/
def Kind.name : Kind → String
  | .null => "NoneType"
  | .bool => "bool"
  | .int => "int"
  | .float => "float"
  | .text => "str"
  | .list => "list"
  | .table => "dict"
  | .date => "datetime.date"
  | .dateTime => "datetime.datetime"
  | .timeOfDay => "datetime.time"

namespace Json

/-- An object from fields in which a key may come more than once; the last value counts. -/
def ofFields (fields : List (String × Json)) : Json :=
  .obj (Table.ofList fields)

/-- The kind of a value. -/
def kind : Json → Kind
  | null => .null
  | bool _ => .bool
  | int _ => .int
  | float _ => .float
  | str _ => .text
  | arr _ => .list
  | obj _ => .table

/-- Whether a value stands for something: null, false, zero and empty values do not. -/
def isTruthy : Json → Bool
  | null => false
  | bool b => b
  | int n => n != 0
  | float x => !(x == 0.0)
  | str s => !s.isEmpty
  | arr items => !items.isEmpty
  | obj fields => !fields.isEmpty

/-- The integer that a value equals: a number with no fraction and a truth value equal integers. -/
def asInt? : Json → Option Int
  | bool b => some (if b then 1 else 0)
  | int n => some n
  | float x => Decimal.integral? x
  | _ => none

/-- A truthy value, or `d`. -/
def orElse (v d : Json) : Json := if v.isTruthy then v else d

end Json

end SfcCheck
