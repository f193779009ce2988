/-!
# Words of a command

A command is split at blanks. Single quotes keep everything between them, double quotes all but
escaped quotes and backslashes, and a backslash outside quotes keeps the next character. Quotes with
nothing between them make an empty word.
-/

namespace SfcCheck.Words

/-- Why a command cannot be split. -/
inductive Refusal where
  | openQuotation
  | openEscape
deriving DecidableEq, Repr

def Refusal.message : Refusal → String
  | openQuotation => "No closing quotation"
  | openEscape => "No escaped character"

/-- What the next character stands in. -/
inductive Mode where
  | plain
  | single
  | double
  | escaped
  | escapedInDouble
deriving DecidableEq, Repr

/-- The characters between words. -/
def isGap (c : Char) : Bool := c == ' ' || c == '\t' || c == '\r' || c == '\n'

/-- The word that ends here, if one was begun. -/
def ended : Option (List Char) → List String
  | none => []
  | some w => [String.ofList w.reverse]

/-- Adds a character to the word in progress, given in reverse order. -/
def grow (c : Char) (word : Option (List Char)) : Option (List Char) := some (c :: word.getD [])

/-- The words of the rest of a command, given the word in progress. -/
def scan : Mode → Option (List Char) → List Char → Except Refusal (List String)
  | .plain, word, [] => .ok (ended word)
  | .single, _, [] | .double, _, [] => .error .openQuotation
  | .escaped, _, [] | .escapedInDouble, _, [] => .error .openEscape
  | .plain, word, c :: cs =>
    if isGap c then (ended word ++ ·) <$> scan .plain none cs
    else if c = '\\' then scan .escaped word cs
    else if c = '\'' then scan .single (some (word.getD [])) cs
    else if c = '"' then scan .double (some (word.getD [])) cs
    else scan .plain (grow c word) cs
  | .single, word, c :: cs =>
    if c = '\'' then scan .plain word cs else scan .single (grow c word) cs
  | .double, word, c :: cs =>
    if c = '"' then scan .plain word cs
    else if c = '\\' then scan .escapedInDouble word cs
    else scan .double (grow c word) cs
  | .escaped, word, c :: cs => scan .plain (grow c word) cs
  | .escapedInDouble, word, c :: cs =>
    if c = '"' ∨ c = '\\' then scan .double (grow c word) cs
    else scan .double (grow c (grow '\\' word)) cs

/-- The words of a command. -/
def ofText (s : String) : Except Refusal (List String) := scan .plain none s.toList

end SfcCheck.Words
