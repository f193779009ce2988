import SfcCheck.Json.Basic
import SfcCheck.Table

/-!
# TOML values

The values of the settings files. Of dates and times only the kind is kept: no setting is one.
Tables are nested; a key with several parts names a table inside a table.
-/

namespace SfcCheck

/-- A TOML value. -/
inductive Toml where
  | bool (b : Bool)
  | int (n : Int)
  | float (x : Float)
  | text (s : String)
  | date
  | dateTime
  | timeOfDay
  | list (items : List Toml)
  | table (fields : List (String × Toml))
deriving Inhabited

namespace Toml

/-- The kind of a value. -/
def kind : Toml → Kind
  | bool _ => .bool
  | int _ => .int
  | float _ => .float
  | text _ => .text
  | date => .date
  | dateTime => .dateTime
  | timeOfDay => .timeOfDay
  | list _ => .list
  | table _ => .table

/-- Whether a value is closed once it is written: a list or a table in a value position. -/
def isCompound : Toml → Bool
  | list _ | table _ => true
  | _ => false

/-- A key: the names of the tables on the way and the name in the last one. -/
abbrev Key := List String

/-- Changes the table behind a key, making the tables on the way. A list on the way stands for its
last item if `throughLists` allows it. Nothing if something else is in the way, or if the change
fails. -/
def update (throughLists : Bool) (change : Table Toml → Option (Table Toml)) :
    Key → Table Toml → Option (Table Toml)
  | [], t => change t
  | k :: ks, t =>
    match t.get? k with
    | none => (update throughLists change ks []).map fun s => t.put k (.table s)
    | some (.table s) => (update throughLists change ks s).map fun s => t.put k (.table s)
    | some (.list items) =>
      match throughLists, items.getLast? with
      | true, some (.table s) =>
        (update throughLists change ks s).map fun s =>
          t.put k (.list (items.dropLast ++ [.table s]))
      | _, _ => none
    | some _ => none

/-- Sets a name that is not there yet. -/
def putNew (name : String) (v : Toml) (t : Table Toml) : Option (Table Toml) :=
  if t.contains name then none else some (t.put name v)

/-- Adds an empty table to the list under a name, which may be new. -/
def pushTable (name : String) (t : Table Toml) : Option (Table Toml) :=
  match t.get? name with
  | none => some (t.put name (.list [.table []]))
  | some (.list items) => some (t.put name (.list (items ++ [.table []])))
  | some _ => none

/-- The last part of a key and the parts before it. -/
def Key.split (key : Key) : Key × String := (key.dropLast, key.getLast?.getD "")

end Toml

end SfcCheck
