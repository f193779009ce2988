import SfcCheck.Region

/-!
# Script tags

Whether a component is worth checking for types, judged by the text of its script tags alone and
line by line. Nothing is parsed, so a tag in a comment counts as well.
-/

namespace SfcCheck.ScriptTag

/-- What follows the first occurrence of a text. -/
def after? (pattern : List Char) : List Char → Option (List Char)
  | [] => if pattern.isEmpty then some [] else none
  | c :: cs =>
    if pattern.isPrefixOf (c :: cs) then some ((c :: cs).drop pattern.length) else after? pattern cs

/-- Whether texts occur in a line one after the other. -/
def occurInOrder : List String → List Char → Bool
  | [], _ => true
  | p :: ps, cs =>
    match after? p.toList cs with
    | some rest => occurInOrder ps rest
    | none => false

/-- Whether some line of a text holds these texts one after the other. -/
def someLine (patterns : List String) (src : String) : Bool :=
  (src.toList.splitOn '\n').any (occurInOrder patterns)

/-- Whether there is a script tag. -/
def isPresent (src : String) : Bool := someLine ["<script", ">"] src

/-- Whether a script tag declares a typed language. -/
def isTyped (src : String) : Bool :=
  someLine ["<script", "lang=\"ts\"", ">"] src || someLine ["<script", "lang=\"tsx\"", ">"] src

/-- Whether a script tag refers to another file. -/
def isExternal (src : String) : Bool := someLine ["<script", "src=\"", "\"", ">"] src

/-- Whether a file is checked when only typed sources are: all but components whose script is
neither typed nor elsewhere. -/
def isKept (languageId src : String) : Bool :=
  languageId != Region.componentLanguage || !isPresent src || isTyped src || isExternal src

end SfcCheck.ScriptTag
