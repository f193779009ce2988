import SfcCheck.Json.Basic
import SfcCheck.Decimal.Layout
import SfcCheck.Text.Quoted

/-!
# Values in messages

How a message shows a value: texts inside a value are quoted, a text by itself is shown as it is.
-/

namespace SfcCheck.Json

mutual

/-- A value with its texts quoted. -/
def shown : Json → String
  | null => "None"
  | bool true => "True"
  | bool false => "False"
  | int n => Decimal.intText n
  | float x => Decimal.exactText x
  | str s => Text.quoted s
  | arr items => "[" ++ shownItems items
  | obj fields => "\x7b" ++ shownFields fields

def shownItems : List Json → String
  | [] => "]"
  | [v] => shown v ++ "]"
  | v :: items => shown v ++ ", " ++ shownItems items

def shownFields : List (String × Json) → String
  | [] => "\x7d"
  | [(k, v)] => Text.quoted k ++ ": " ++ shown v ++ "\x7d"
  | (k, v) :: fields => Text.quoted k ++ ": " ++ shown v ++ ", " ++ shownFields fields

end

/-- A value as the text of a message. -/
def display : Json → String
  | str s => s
  | v => shown v

end SfcCheck.Json
