import SfcCheck.Proofs.Region.Contents

/-!
# Components as they are written

A component is written block by block, with texts between the blocks that mention no tag of a
block. Each block has its own region, in order: its kind and its language are those of its tag, and
its bounds are where its content stands in the text. The last block may be left open.
-/

namespace SfcCheck

/-! ## Known kinds -/

namespace BlockKind

variable {kind : BlockKind}

theorem ofName_name (h : kind.defaultLanguage?.isSome) : ofName kind.name = kind := by
  cases kind with
  | template => decide
  | script => decide
  | style => decide
  | other name => cases h

theorem name_mem_tagNames (h : kind.defaultLanguage?.isSome) :
    kind.name.toList ∈ Region.tagNames := by
  cases kind with
  | template => decide
  | script => decide
  | style => decide
  | other name => cases h

end BlockKind

namespace Region

/-! ## Tags -/

/-- A word that ends before some attributes ends there. -/
theorem endsWord_attributes (as : List Attribute.Written) {gap : List Char}
    (hgap : ∀ c ∈ gap, Text.isBlank c = true) :
    endsWord (as.flatMap Attribute.Written.text ++ gap) = true := by
  cases as with
  | nil => exact endsWord_of_blanks hgap
  | cons a as =>
      obtain ⟨c, cs, hcons⟩ := List.exists_cons_of_ne_nil a.gap_ne_nil
      have hc : Text.isBlank c = true := a.gap_blank c (by rw [hcons]; exact .head _)
      simp [Attribute.Written.text, hcons, endsWord, isWordChar_of_isBlank hc]

/-- The opening tag of a block. Its name is written in capitals and small letters as one likes. A
slash at the end of a bare value would be read as the end of a tag without a content. -/
structure Tag where
  kind : BlockKind
  name : List Char
  attributes : List Attribute.Written
  gap : List Char
  known : kind.defaultLanguage?.isSome
  name_cased : name.map Char.toLower = kind.name.toList
  gap_blank : ∀ c ∈ gap, Text.isBlank c = true
  attributes_open : ∀ a ∈ attributes, '>' ∉ a.text
  bare_full : ∀ a ∈ attributes, ∀ b ∈ a.assignment?, ∀ text, b.value = .bare text →
    text.getLast? ≠ some '/'

namespace Tag

/-- The attributes as they are written. -/
def attributesText (t : Tag) : List Char := t.attributes.flatMap Attribute.Written.text

/-- What stands between the name and the end of the tag. -/
def raw (t : Tag) : List Char := t.attributesText ++ t.gap

/-- The tag of a block with a content. -/
def opening (t : Tag) : List Char := '<' :: (t.name ++ (t.raw ++ ['>']))

/-- The tag of a block without one. -/
def selfClosing (t : Tag) : List Char := '<' :: (t.name ++ (t.raw ++ ['/', '>']))

/-- The names of the attributes in lower case with their values. -/
def entries (t : Tag) : List (String × String) := t.attributes.map Attribute.Written.entry

/-- The value of the last attribute that names a language. -/
def lang? (t : Tag) : Option String := (t.entries.reverse.find? (·.1 = "lang")).map (·.2)

/-- The language of the kind. -/
def defaultLanguage (t : Tag) : String := t.kind.defaultLanguage?.get t.known

/-- The language that the tag names, and that of the kind if it names none. -/
def language (t : Tag) : String :=
  match t.lang? with
  | some lang => if lang.isEmpty then t.defaultLanguage else lang
  | none => t.defaultLanguage

/-- The region of a block with the tag, for a content of some size at an offset. -/
def region (t : Tag) (start size : Nat) : Region :=
  ⟨t.kind, t.language, start, start + size, .ofList t.entries⟩

/-! ### Reading tags -/

variable (t : Tag)

theorem raw_open : '>' ∉ t.raw := by
  rw [raw, attributesText, List.mem_append, List.mem_flatMap, not_or]
  refine ⟨?_, bracket_not_mem_of_blank t.gap_blank⟩
  rintro ⟨a, ha, hmem⟩
  exact t.attributes_open a ha hmem

theorem endsWord_raw : endsWord t.raw = true := endsWord_attributes t.attributes t.gap_blank

/-- If there are attributes, they end with neither a blank nor a slash. -/
theorem attributesText_ends : t.attributesText = [] ∨
    ∃ cs c, t.attributesText = cs ++ [c] ∧ Text.isBlank c = false ∧ c ≠ '/' := by
  rcases List.eq_nil_or_concat t.attributes with hnil | ⟨as, a, hconcat⟩
  · exact .inl (by rw [attributesText, hnil]; rfl)
  · obtain ⟨cs, c, htext, hc, hslash⟩ := a.text_ends
    refine .inr ⟨as.flatMap Attribute.Written.text ++ cs, c, ?_, hc, ?_⟩
    · simp [attributesText, hconcat, htext]
    · intro heq
      obtain ⟨b, hb, text, hbare, hlast⟩ := hslash heq
      exact t.bare_full a (by simp [hconcat]) b hb text hbare hlast

theorem trimRight_slash : Text.trimRight (· == '/') t.raw = t.raw := by
  rcases List.eq_nil_or_concat t.gap with hgap | ⟨bs, b, hgap⟩
  · rw [raw, hgap, List.append_nil]
    rcases t.attributesText_ends with hnil | ⟨cs, c, htext, -, hc⟩
    · rw [hnil, Text.trimRight_nil]
    · rw [htext, Text.trimRight_concat (by simpa using hc)]
  · have hb : b ≠ '/' := by
      rintro rfl
      exact absurd (t.gap_blank '/' (by simp [hgap])) (by decide)
    rw [raw, hgap, List.concat_eq_append, ← List.append_assoc,
      Text.trimRight_concat (by simpa using hb)]

theorem raw_getLast? : t.raw.getLast? ≠ some '/' := by
  intro hlast
  obtain ⟨cs, hcs⟩ := List.getLast?_eq_some_iff.mp hlast
  have htrim := t.trimRight_slash
  rw [hcs, Text.trimRight_concat_of_blank (by rfl)] at htrim
  obtain ⟨dropped, hsplit, -⟩ := Text.trimRight_append (· == '/') cs
  have hlength := congrArg List.length hsplit
  rw [htrim, List.length_append, List.length_append, List.length_singleton] at hlength
  omega

theorem trimRight_blank :
    Text.trimRight Text.isBlank t.raw = t.attributesText := by
  rw [raw, Text.trimRight_append_of_forall _ t.gap_blank]
  rcases t.attributesText_ends with hnil | ⟨cs, c, htext, hc, -⟩
  · rw [hnil, Text.trimRight_nil]
  · rw [htext, Text.trimRight_concat hc]

/-- What the tag is read as, with what stands between its name and its end and what follows. -/
def readAs (raw rest : List Char) : OpenTag := ⟨t.name, raw, rest⟩

theorem kind_readAs (raw rest : List Char) : (t.readAs raw rest).kind = t.kind := by
  have hlower : Text.lowerCase t.name = t.kind.name.toList :=
    Text.lowerCase_of_map_toLower (tagName_ascii (BlockKind.name_mem_tagNames t.known)) t.name_cased
  rw [OpenTag.kind, readAs, hlower, String.ofList_toList, BlockKind.ofName_name t.known]

section ReadAs

variable {raw : List Char} (hraw : Text.trimRight (· == '/') raw = t.raw) (rest : List Char)
include hraw

theorem attributes_readAs : (t.readAs raw rest).attributes = .ofList t.entries := by
  rw [OpenTag.attributes, readAs, hraw, Attribute.ofText, Tag.raw, attributesText,
    Attribute.scan_attributes _ t.gap_blank, entries]

theorem language_readAs : (t.readAs raw rest).language = .ok t.language := by
  have hfallback : OpenTag.language.fallback (t.readAs raw rest) = .ok t.defaultLanguage := by
    obtain ⟨lang, hlang⟩ := Option.isSome_iff_exists.mp t.known
    simp [OpenTag.language.fallback, kind_readAs, defaultLanguage, hlang]
  have hlang : (t.readAs raw rest).attributes.get? "lang" = t.lang? := by
    rw [t.attributes_readAs hraw, Table.get?_ofList]
    rfl
  rw [OpenTag.language, hfallback, hlang, language]
  cases t.lang? with
  | none => rfl
  | some lang => by_cases hempty : lang.isEmpty <;> simp [hempty]

end ReadAs

theorem spells_name : Spells t.name t.kind.name.toList := spells_of_toLower t.name_cased

theorem findOpenTag?_opening (rest : List Char) :
    findOpenTag? (t.opening ++ rest) = some (t.readAs t.raw rest) := by
  have hlist : t.opening ++ rest = '<' :: (t.name ++ (t.raw ++ '>' :: rest)) := by
    simp [opening]
  rw [hlist, findOpenTag?, if_pos rfl, openTag?_append (BlockKind.name_mem_tagNames t.known)
    t.spells_name t.endsWord_raw t.raw_open]
  rfl

theorem findOpenTag?_selfClosing (rest : List Char) :
    findOpenTag? (t.selfClosing ++ rest) = some (t.readAs (t.raw ++ ['/']) rest) := by
  have hlist : t.selfClosing ++ rest = '<' :: (t.name ++ ((t.raw ++ ['/']) ++ '>' :: rest)) := by
    simp [selfClosing]
  have hend : endsWord (t.raw ++ ['/']) = true := endsWord_append t.endsWord_raw (by decide +kernel)
  have hopen : '>' ∉ t.raw ++ ['/'] := by simpa using t.raw_open
  rw [hlist, findOpenTag?, if_pos rfl, openTag?_append (BlockKind.name_mem_tagNames t.known)
    t.spells_name hend hopen]
  rfl

theorem isSelfClosing_opening (rest : List Char) :
    (t.readAs t.raw rest).isSelfClosing = false := by
  rw [OpenTag.isSelfClosing, readAs, t.trimRight_blank]
  rcases t.attributesText_ends with hnil | ⟨cs, c, htext, -, hc⟩
  · rw [hnil]
    rfl
  · rw [htext]
    simpa using hc

theorem isSelfClosing_selfClosing (rest : List Char) :
    (t.readAs (t.raw ++ ['/']) rest).isSelfClosing = true := by
  rw [OpenTag.isSelfClosing, readAs, Text.trimRight_concat (by decide)]
  simp

theorem trimRight_selfClosing : Text.trimRight (· == '/') (t.raw ++ ['/']) = t.raw := by
  rw [Text.trimRight_concat_of_blank rfl, t.trimRight_slash]

end Tag

/-! ## Blocks -/

/-- A block with a content. -/
structure Element where
  tag : Tag
  content : List Char
  content_valid : Content tag.kind content

namespace Element

/-- The block up to the end of its content. -/
def text (e : Element) : List Char := e.tag.opening ++ e.content

/-- The region of a block that begins at an offset. -/
def region (e : Element) (offset : Nat) : Region :=
  e.tag.region (offset + e.tag.opening.length) e.content.length

end Element

/-- A block without a content, or one with its closing tag. -/
inductive Block where
  | selfClosing (tag : Tag)
  | closed (e : Element) (closing : List Char)
      (closes : IsClosing e.tag.kind.name.toList closing)

namespace Block

/-- The block as it is written. -/
def text : Block → List Char
  | selfClosing tag => tag.selfClosing
  | closed e closing _ => e.text ++ closing

/-- What stands in the block. -/
def content : Block → List Char
  | selfClosing _ => []
  | closed e _ _ => e.content

/-- The region of a block that begins at an offset. The region of a block without a content is
empty and stands at the end of its tag. -/
def region (offset : Nat) : Block → Region
  | selfClosing tag => tag.region (offset + tag.selfClosing.length) 0
  | closed e _ _ => e.region offset

end Block

/-! ### Reading blocks -/

section Reading

variable {size offset : Nat} {rest : List Char}

/-- The scan depends on a text only through the first tag in it. -/
theorem scan_eq (size : Nat) (cs : List Char) :
    scan size cs = match findOpenTag? cs with
      | none => .ok []
      | some t => do
        let language ← t.language
        let regions ← scan size t.blockEnd.2
        return ⟨t.kind, language, size - t.rest.length, size - t.blockEnd.1.length, t.attributes⟩ ::
          regions := by
  rw [scan]
  split
  · next h => rw [h]
  · next t h => rw [h]

theorem scan_congr {cs ds : List Char} (h : findOpenTag? cs = findOpenTag? ds) :
    scan size cs = scan size ds := by
  rw [scan_eq, h, ← scan_eq]

theorem scan_nil : scan size [] = .ok [] := by
  rw [scan_eq]
  rfl

/-- A tag makes a region, and the scan goes on behind its block. -/
theorem Tag.scan_readAs {t : Tag} {cs raw stop after : List Char} {start n : Nat}
    (hcs : findOpenTag? cs = some (t.readAs raw rest))
    (hraw : Text.trimRight (· == '/') raw = t.raw)
    (hend : (t.readAs raw rest).blockEnd = (stop, after))
    (hstart : size = start + rest.length) (hstop : rest.length = n + stop.length) :
    scan size cs = (scan size after).map (t.region start n :: ·) := by
  have hregion : t.region start n = ⟨(t.readAs raw rest).kind, t.language, size - rest.length,
      size - stop.length, (t.readAs raw rest).attributes⟩ := by
    have hfirst : size - rest.length = start := by omega
    have hlast : size - stop.length = start + n := by omega
    rw [Tag.region, t.kind_readAs, t.attributes_readAs hraw, hfirst, hlast]
  rw [scan_eq, hcs]
  dsimp only
  rw [t.language_readAs hraw, hend, hregion]
  cases scan size after <;> rfl

namespace Element

/-- A block that is closed ends with its closing tag. -/
theorem blockEnd_closed (e : Element) {closing : List Char}
    (closes : IsClosing e.tag.kind.name.toList closing) (rest : List Char) :
    (e.tag.readAs e.tag.raw (e.content ++ (closing ++ rest))).blockEnd =
      (closing ++ rest, rest) := by
  apply OpenTag.blockEnd_closed (e.tag.isSelfClosing_opening _)
  · rw [e.tag.kind_readAs]
    exact e.tag.known
  · rw [e.tag.kind_readAs]
    exact e.content_valid
  · rw [e.tag.kind_readAs]
    exact closes
  · rfl

/-- A block that is left open ends with the text. -/
theorem blockEnd_unclosed (e : Element) :
    (e.tag.readAs e.tag.raw e.content).blockEnd = ([], []) := by
  apply OpenTag.blockEnd_unclosed (e.tag.isSelfClosing_opening _)
  · rw [e.tag.kind_readAs]
    exact e.tag.known
  · rw [e.tag.kind_readAs]
    exact e.content_valid
  · rfl

theorem scan_text (e : Element) (hsize : size = offset + e.text.length) :
    scan size e.text = .ok [e.region offset] := by
  rw [Element.text, List.length_append] at hsize
  have hread : scan size (e.tag.opening ++ e.content) = (scan size []).map (e.region offset :: ·) :=
    Tag.scan_readAs (e.tag.findOpenTag?_opening _) e.tag.trimRight_slash e.blockEnd_unclosed
      (by omega) rfl
  rw [Element.text, hread, scan_nil]
  rfl

end Element

/-- A block makes its region, and the scan goes on behind it. -/
theorem Block.scan_text (b : Block) (hsize : size = offset + (b.text ++ rest).length) :
    scan size (b.text ++ rest) = (scan size rest).map (b.region offset :: ·) := by
  rw [List.length_append] at hsize
  cases b with
  | selfClosing tag =>
      have hend : (tag.readAs (tag.raw ++ ['/']) rest).blockEnd = (rest, rest) := by
        rw [OpenTag.blockEnd, if_pos (tag.isSelfClosing_selfClosing rest)]
        rfl
      rw [Block.text] at hsize ⊢
      exact Tag.scan_readAs (tag.findOpenTag?_selfClosing rest) tag.trimRight_selfClosing hend
        (by omega) (by omega)
  | closed e closing closes =>
      have hlist : (Block.closed e closing closes).text ++ rest =
          e.tag.opening ++ (e.content ++ (closing ++ rest)) := by
        simp [Block.text, Element.text]
      rw [Block.text, Element.text, List.length_append, List.length_append] at hsize
      rw [hlist]
      apply Tag.scan_readAs (e.tag.findOpenTag?_opening _) e.tag.trimRight_slash
        (e.blockEnd_closed closes rest)
      · simp only [List.length_append]
        omega
      · simp only [List.length_append]

end Reading

/-! ## Components -/

/-- A text between blocks. -/
structure Separator where
  text : List Char
  plain : ¬ Mentions tagNames text

/-- What follows a separator: nothing, a last block that is left open, or a block with what follows
it. -/
inductive Tail where
  | done
  | unclosed (e : Element)
  | block (b : Block) (separator : Separator) (rest : Tail)

namespace Tail

/-- The blocks as they are written, with the separators between them. -/
def text : Tail → List Char
  | done => []
  | unclosed e => e.text
  | block b separator rest => b.text ++ (separator.text ++ rest.text)

/-- The regions of blocks that begin at an offset, one for each block. -/
def regions (offset : Nat) : Tail → List Region
  | done => []
  | unclosed e => [e.region offset]
  | block b separator rest =>
    b.region offset :: rest.regions (offset + b.text.length + separator.text.length)

/-- The contents of the blocks. -/
def contents : Tail → List (List Char)
  | done => []
  | unclosed e => [e.content]
  | block b _ rest => b.content :: rest.contents

end Tail

/-- Blocks with separators around them. -/
structure Component where
  lead : Separator
  tail : Tail

namespace Component

/-- The component as it is written. -/
def text (c : Component) : List Char := c.lead.text ++ c.tail.text

/-- The regions of a component that begins at an offset. -/
def regions (offset : Nat) (c : Component) : List Region :=
  c.tail.regions (offset + c.lead.text.length)

end Component

/-! ### Reading components -/

theorem Block.eq_cons (b : Block) : ∃ cs, b.text = '<' :: cs := by
  cases b with
  | selfClosing tag => exact ⟨_, rfl⟩
  | closed e closing closes => exact ⟨_, rfl⟩

theorem Tail.breaks (tail : Tail) {name : List Char} (hname : name ∈ tagNames) :
    Breaks name tail.text := by
  cases tail with
  | done => exact breaks_nil name
  | unclosed e => exact breaks_cons (.inl rfl) (List.mem_append_left _ hname) _
  | block b separator rest =>
      obtain ⟨cs, hcs⟩ := b.eq_cons
      rw [Tail.text, hcs]
      exact breaks_cons (.inl rfl) (List.mem_append_left _ hname) _

theorem findOpenTag?_text {text rest : List Char} (htext : ¬ Mentions tagNames text)
    (hrest : ∀ name ∈ tagNames, Breaks name rest) :
    findOpenTag? (text ++ rest) = findOpenTag? rest :=
  passes_of_not_mentions (fun _ _ => findOpenTag?_of_not_isWord) htext hrest

/-- The blocks of a text make their regions, whatever offset they begin at. -/
theorem Tail.scan_text (tail : Tail) (offset : Nat) :
    scan (offset + tail.text.length) tail.text = .ok (tail.regions offset) := by
  induction tail generalizing offset with
  | done => exact scan_nil
  | unclosed e => exact e.scan_text rfl
  | block b separator rest ih =>
      have hsize : offset + (b.text ++ (separator.text ++ rest.text)).length =
          offset + b.text.length + separator.text.length + rest.text.length := by
        simp only [List.length_append]
        omega
      have hrest := ih (offset + b.text.length + separator.text.length)
      rw [Tail.text, b.scan_text rfl, hsize,
        scan_congr (findOpenTag?_text separator.plain fun _ => rest.breaks), hrest]
      rfl

theorem Component.scan_text (c : Component) (offset : Nat) :
    scan (offset + c.text.length) c.text = .ok (c.regions offset) := by
  have hsize : offset + c.text.length =
      offset + c.lead.text.length + c.tail.text.length := by
    rw [Component.text, List.length_append, Nat.add_assoc]
  rw [hsize, Component.text, scan_congr (findOpenTag?_text c.lead.plain fun _ => c.tail.breaks),
    c.tail.scan_text]
  rfl

/-! ### Contents -/

/-- What stands in a text at a region. -/
def slice (text : List Char) (r : Region) : List Char :=
  (text.drop r.start).take (r.stop - r.start)

theorem Tag.slice_region (t : Tag) (before inner after : List Char) :
    slice (before ++ (inner ++ after)) (t.region before.length inner.length) = inner := by
  have hsize : before.length + inner.length - before.length = inner.length := by omega
  rw [slice, Tag.region, hsize, List.drop_left, List.take_left]

theorem Element.slice_region (e : Element) (before after : List Char) :
    slice (before ++ (e.text ++ after)) (e.region before.length) = e.content := by
  have hlist : before ++ (e.text ++ after) =
      (before ++ e.tag.opening) ++ (e.content ++ after) := by
    simp [Element.text]
  rw [hlist, Element.region, ← List.length_append, e.tag.slice_region]

theorem Block.slice_region (b : Block) (before after : List Char) :
    slice (before ++ (b.text ++ after)) (b.region before.length) = b.content := by
  cases b with
  | selfClosing tag =>
      have hlist : before ++ (tag.selfClosing ++ after) =
          (before ++ tag.selfClosing) ++ ([] ++ after) := by
        simp
      rw [Block.text, hlist, Block.region, ← List.length_append]
      exact tag.slice_region _ [] after
  | closed e closing closes =>
      rw [Block.text, List.append_assoc]
      exact e.slice_region before (closing ++ after)

/-- The contents of the blocks stand at their regions. -/
theorem Tail.slice_regions (tail : Tail) (before : List Char) :
    (tail.regions before.length).map (slice (before ++ tail.text)) = tail.contents := by
  induction tail generalizing before with
  | done => rfl
  | unclosed e =>
      have hslice := e.slice_region before []
      rw [List.append_nil] at hslice
      rw [Tail.regions, Tail.text, List.map_singleton, hslice]
      rfl
  | block b separator rest ih =>
      have hrest := ih (before ++ (b.text ++ separator.text))
      have hlist : before ++ (b.text ++ separator.text) ++ rest.text =
          before ++ (b.text ++ (separator.text ++ rest.text)) := by
        simp
      have hlength : (before ++ (b.text ++ separator.text)).length =
          before.length + b.text.length + separator.text.length := by
        simp [Nat.add_assoc]
      rw [hlist, hlength] at hrest
      rw [Tail.regions, Tail.text, List.map_cons, b.slice_region, hrest]
      rfl

/-- A component has one region for each block, in order. Its kind is the tag name in lower case, its
language is the one that the tag names or else that of the kind, and at its bounds stands the
content of the block. -/
theorem ofText_component (c : Component) :
    ofText (String.ofList c.text) = .ok (c.regions 0) ∧
      (c.regions 0).map (slice c.text) = c.tail.contents := by
  constructor
  · have hscan := c.scan_text 0
    rw [Nat.zero_add] at hscan
    rw [ofText, String.length_ofList, String.toList_ofList, hscan]
  · rw [Component.regions, Component.text, Nat.zero_add, c.tail.slice_regions]

example : ofText "<Template Lang='pug'><template/></TEMPLATE> <script/><style>a" =
    .ok [⟨.template, "pug", 21, 32, [("lang", "pug")]⟩, ⟨.script, "javascript", 53, 53, []⟩,
      ⟨.style, "css", 60, 61, []⟩] := by
  decide +kernel

end Region

end SfcCheck
