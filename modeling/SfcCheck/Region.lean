import SfcCheck.Document
import SfcCheck.Region.Attribute
import SfcCheck.Text.Quoted
import SfcCheck.Text.WordChar

/-!
# Regions of a component

A component is made of blocks: templates, scripts and style sheets, each between an opening and a
closing tag. A region is the content of a block. Other files are one script region.

Tag names match in any letter case. Case is folded as Unicode does it, so the long s stands for an
s and the dotted and the dotless i stand for an i; a tag written with one of them has a name of its
own, for which no language is known.

A template ends at its own closing tag, nested templates being counted; the other blocks end at the
first closing tag of their name. A block that is not closed runs to the end of the text. A place in
the text is known by what is left there.
-/

namespace SfcCheck

/-- The kind of a block: its tag name in lower case. -/
inductive BlockKind where
  | template
  | script
  | style
  /-- A name that matches a tag by case folding only. -/
  | other (name : String)
deriving DecidableEq, Repr

namespace BlockKind

/-- The tag name. -/
def name : BlockKind → String
  | template => "template"
  | script => "script"
  | style => "style"
  | other name => name

/-- The kind of the block with a tag name. -/
def ofName (s : String) : BlockKind :=
  if s = "template" then template
  else if s = "script" then script
  else if s = "style" then style
  else other s

/-- The language of a block that names none. -/
def defaultLanguage? : BlockKind → Option String
  | template => some "html"
  | script => some "javascript"
  | style => some "css"
  | other _ => none

end BlockKind

/-- A tag for which no language is known. -/
structure UnknownBlock where
  name : String
deriving DecidableEq, Repr

def UnknownBlock.message (e : UnknownBlock) : String := Text.quoted e.name

/-- The content of a block, from `start` up to `stop`. -/
structure Region where
  kind : BlockKind
  languageId : String
  start : Nat
  stop : Nat
  attributes : Table String
deriving DecidableEq, Repr

/-- Whether an offset lies in a region. The offset just past the content does. -/
def Region.contains (r : Region) (offset : Nat) : Bool := r.start ≤ offset && offset ≤ r.stop

/-- The file that a block refers to instead of having a content. -/
def Region.src? (r : Region) : Option String := r.attributes.get? "src"

namespace Region

/-! ## Tags -/

/-- A letter of a tag name without its case. -/
def foldTagChar (c : Char) : Char :=
  let n := c.toNat
  if n = 0x17f then 's'
  else if n = 0x130 ∨ n = 0x131 then 'i'
  else c.toLower

/-- What follows a tag name at the start of a text, in any case. -/
def afterName? : List Char → List Char → Option (List Char)
  | [], cs => some cs
  | n :: ns, c :: cs => if foldTagChar n = foldTagChar c then afterName? ns cs else none
  | _ :: _, [] => none

theorem length_afterName? {ns cs rest : List Char} (h : afterName? ns cs = some rest) :
    rest.length ≤ cs.length := by
  fun_induction afterName? ns cs with
  | case1 => simp_all
  | case2 n ns c cs _ ih => have := ih h; simp only [List.length_cons]; omega
  | case3 => simp at h
  | case4 => simp at h

/-- Whether a word that ends before a text ends there. -/
def endsWord : List Char → Bool
  | [] => true
  | c :: _ => !Text.isWordChar c

/-- What stands before the end of a tag, and what follows the tag. -/
def tagRest? (cs : List Char) : Option (List Char × List Char) :=
  match cs.dropWhile (· != '>') with
  | _ :: rest => some (cs.takeWhile (· != '>'), rest)
  | [] => none

theorem length_tagRest? {cs raw rest : List Char} (h : tagRest? cs = some (raw, rest)) :
    rest.length < cs.length := by
  have hl := (List.dropWhile_sublist (· != '>') (l := cs)).length_le
  grind [tagRest?]

/-- What stands between a name and the end of its tag, and what follows the tag. -/
def namedRest? (name cs : List Char) : Option (List Char × List Char) :=
  match afterName? name cs with
  | some after => if endsWord after then tagRest? after else none
  | none => none

theorem length_namedRest? {name cs raw rest : List Char}
    (h : namedRest? name cs = some (raw, rest)) : rest.length < cs.length := by
  simp only [namedRest?] at h
  split at h
  · next after ha =>
    have h1 := length_afterName? ha
    split at h
    · have h2 := length_tagRest? h
      omega
    · simp at h
  · simp at h

/-- An opening tag: its name as written, what stands after the name, and what follows the tag. -/
structure OpenTag where
  name : List Char
  raw : List Char
  rest : List Char

/-- The opening tag with a name at the start of a text after its bracket. -/
def openTagNamed? (name cs : List Char) : Option OpenTag := do
  let (raw, rest) ← namedRest? name cs
  return ⟨cs.take name.length, raw, rest⟩

/-- The names of block tags. -/
def tagNames : List (List Char) := ["template".toList, "script".toList, "style".toList]

/-- The opening tag of a block at the start of a text after its bracket. -/
def openTag? (cs : List Char) : Option OpenTag := tagNames.findSome? (openTagNamed? · cs)

/-- The first opening tag of a block in a text. -/
def findOpenTag? : List Char → Option OpenTag
  | [] => none
  | c :: cs =>
    match if c = '<' then openTag? cs else none with
    | some t => some t
    | none => findOpenTag? cs

theorem length_openTag? {cs : List Char} {t : OpenTag} (h : openTag? cs = some t) :
    t.rest.length < cs.length := by
  obtain ⟨name, -, h⟩ := List.exists_of_findSome?_eq_some h
  simp only [openTagNamed?, Option.bind_eq_bind, Option.bind_eq_some_iff] at h
  obtain ⟨⟨raw, rest⟩, hr, ht⟩ := h
  simp only [Option.pure_def, Option.some.injEq] at ht
  subst ht
  exact length_namedRest? hr

theorem length_findOpenTag? {cs : List Char} {t : OpenTag} (h : findOpenTag? cs = some t) :
    t.rest.length < cs.length := by
  induction cs with
  | nil => simp [findOpenTag?] at h
  | cons c cs ih =>
    simp only [findOpenTag?] at h
    split at h
    · next t' ht =>
      split at ht
      · have := length_openTag? ht
        simp only [Option.some.injEq] at h
        subst h
        simp only [List.length_cons]
        omega
      · simp at ht
    · have := ih h
      simp only [List.length_cons]
      omega

/-! ## Ends of blocks -/

/-- What a template tag does to the nesting. -/
inductive TemplateTag where
  | opens
  | closes
  | selfClosing
deriving DecidableEq, Repr

/-- The template tag at the start of a text after its bracket, and what follows it. -/
def templateTag? (cs : List Char) : Option (TemplateTag × List Char) := do
  let closes := cs.head? == some '/'
  let (raw, rest) ← namedRest? "template".toList (if closes then cs.drop 1 else cs)
  return (if closes then .closes else if raw.getLast? == some '/' then .selfClosing else .opens,
    rest)

theorem length_templateTag? {cs rest : List Char} {t : TemplateTag}
    (h : templateTag? cs = some (t, rest)) : rest.length < cs.length := by
  simp only [templateTag?, Option.bind_eq_bind, Option.bind_eq_some_iff] at h
  obtain ⟨⟨raw, rest'⟩, hr, ht⟩ := h
  simp only [Option.pure_def, Option.some.injEq, Prod.mk.injEq] at ht
  have h2 := length_namedRest? hr
  have h3 : (if (cs.head? == some '/') = true then cs.drop 1 else cs).length ≤ cs.length := by
    split <;> simp
  rw [← ht.2]
  omega

/-- What is left where the content of a template ends and what is left after its closing tag, with
`depth` templates open around the one in question. -/
def templateEnd (depth : Nat) : List Char → List Char × List Char
  | [] => ([], [])
  | c :: cs =>
    match h : if c = '<' then templateTag? cs else none with
    | some (.closes, rest) =>
      match depth with
      | 0 => (c :: cs, rest)
      | depth + 1 => templateEnd depth rest
    | some (.opens, rest) => templateEnd (depth + 1) rest
    | some (.selfClosing, rest) => templateEnd depth rest
    | none => templateEnd depth cs
termination_by cs => cs.length
decreasing_by
  all_goals
    first
    | (split at h
       · have := length_templateTag? h
         simp only [List.length_cons]
         omega
       · simp at h)
    | simp

/-- What follows the closing tag of a block at the start of a text. -/
def closingTag? (name : List Char) (cs : List Char) : Option (List Char) := do
  let after ← afterName? ('<' :: '/' :: name) cs
  match Text.trimLeft Text.isBlank after with
  | '>' :: rest => some rest
  | _ => none

/-- What is left where the content of a block ends and what is left after its closing tag. -/
def rawEnd (name : List Char) : List Char → List Char × List Char
  | [] => ([], [])
  | c :: cs =>
    match closingTag? name (c :: cs) with
    | some rest => (c :: cs, rest)
    | none => rawEnd name cs

theorem length_templateEnd (depth : Nat) (cs : List Char) :
    (templateEnd depth cs).2.length ≤ cs.length := by
  fun_induction templateEnd depth cs with
  | case1 => simp
  | case2 c cs rest h | case3 c cs rest h _ ih | case4 _ c cs rest h ih | case5 _ c cs rest h ih =>
    split at h
    · have := length_templateTag? h
      simp only [List.length_cons] at *
      omega
    · simp at h
  | case6 _ c cs h ih => simp only [List.length_cons]; omega

theorem length_rawEnd (name cs : List Char) : (rawEnd name cs).2.length ≤ cs.length := by
  induction cs with
  | nil => simp [rawEnd]
  | cons c cs ih =>
    simp only [rawEnd]
    split
    · next rest h =>
      simp only [closingTag?, Option.bind_eq_bind, Option.bind_eq_some_iff] at h
      obtain ⟨after, ha, h⟩ := h
      have h1 := length_afterName? ha
      have h2 := Attribute.length_trimLeft_le Text.isBlank after
      split at h
      · next r hr =>
        simp only [Option.some.injEq] at h
        subst h
        rw [hr] at h2
        simp only [List.length_cons] at *
        omega
      · simp at h
    · simp only [List.length_cons]
      omega

/-! ## Components -/

namespace OpenTag

/-- The kind of the block that a tag opens. -/
def kind (t : OpenTag) : BlockKind := .ofName (String.ofList (Text.lowerCase t.name))

/-- Whether the block of a tag has no content and no closing tag. -/
def isSelfClosing (t : OpenTag) : Bool :=
  (Text.trimRight Text.isBlank t.raw).getLast? == some '/'

/-- The attributes of a tag. -/
def attributes (t : OpenTag) : Table String :=
  Attribute.ofText (Text.trimRight (· == '/') t.raw)

/-- The language of the block that a tag opens. -/
def language (t : OpenTag) : Except UnknownBlock String :=
  match t.attributes.get? "lang" with
  | some lang => if lang.isEmpty then fallback else .ok lang
  | none => fallback
where
  /-- The language of the kind. -/
  fallback : Except UnknownBlock String :=
    match t.kind.defaultLanguage? with
    | some lang => .ok lang
    | none => .error ⟨t.kind.name⟩

/-- What is left where the content of the block of a tag ends, and after the block. -/
def blockEnd (t : OpenTag) : List Char × List Char :=
  if t.isSelfClosing then (t.rest, t.rest)
  else if t.kind = .template then templateEnd 0 t.rest
  else rawEnd t.kind.name.toList t.rest

theorem length_blockEnd (t : OpenTag) : t.blockEnd.2.length ≤ t.rest.length := by
  simp only [blockEnd]
  split
  · exact Nat.le_refl _
  · split
    · exact length_templateEnd ..
    · exact length_rawEnd ..

end OpenTag

/-- The regions of a component of `size` characters of which `cs` is left. -/
def scan (size : Nat) (cs : List Char) : Except UnknownBlock (List Region) :=
  match _h : findOpenTag? cs with
  | none => .ok []
  | some t => do
    let language ← t.language
    let regions ← scan size t.blockEnd.2
    return ⟨t.kind, language, size - t.rest.length, size - t.blockEnd.1.length, t.attributes⟩ ::
      regions
termination_by cs.length
decreasing_by
  have h1 := length_findOpenTag? _h
  have h2 := t.length_blockEnd
  omega

/-- The regions of a component. -/
def ofText (text : String) : Except UnknownBlock (List Region) := scan text.length text.toList

/-- The language whose documents are components. -/
def componentLanguage : String := "vue"

/-- The regions of a document. -/
def ofDocument (d : Document) : Except UnknownBlock (List Region) :=
  if d.languageId = componentLanguage then ofText d.text
  else .ok [⟨.script, d.languageId, 0, d.size, []⟩]

/-- The first region at an offset. -/
def at? (offset : Nat) (regions : List Region) : Option Region :=
  regions.find? (·.contains offset)

/-- The kind of the first region at an offset. -/
def kindAt? (offset : Nat) (regions : List Region) : Option BlockKind :=
  (at? offset regions).map (·.kind)

/-- The regions of a kind. -/
def ofKind (kind : BlockKind) (regions : List Region) : List Region :=
  regions.filter (·.kind == kind)

end Region

end SfcCheck
