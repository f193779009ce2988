import SfcCheck.Proofs.Region.Components

/-!
# Comments and other blocks

The scanner knows neither comments nor any blocks but templates, scripts and style sheets. What
stands in a comment or in a block of documentation is read like any other text, so a tag in it
counts. Without one it makes no difference: the regions are those of the component without it, and
those behind it are moved by its length. In a template only template tags count, and tags that
nest do no harm.
-/

namespace SfcCheck.Region

/-! ## Asides -/

/-- A comment, or a block of documentation. -/
inductive Aside where
  | comment (inner : List Char)
  | docs (inner : List Char)

namespace Aside

/-- What stands in it. -/
def inner : Aside → List Char
  | comment inner => inner
  | docs inner => inner

/-- What stands before it. -/
def opening : Aside → List Char
  | comment _ => "<!-- ".toList
  | docs _ => "<docs>".toList

/-- What stands behind it. -/
def closing : Aside → List Char
  | comment _ => " -->".toList
  | docs _ => "</docs>".toList

/-- The aside as it is written. -/
def text (a : Aside) : List Char := a.opening ++ (a.inner ++ a.closing)

theorem breaks_opening (a : Aside) {name : List Char} (hname : name ∈ tagNames ++ templateNames)
    (rest : List Char) : Breaks name (a.opening ++ rest) := by
  cases a with
  | comment inner => exact breaks_cons (.inl rfl) hname _
  | docs inner => exact breaks_cons (.inl rfl) hname _

theorem breaks_closing (a : Aside) {name : List Char} (hname : name ∈ tagNames ++ templateNames)
    (rest : List Char) : Breaks name (a.closing ++ rest) := by
  cases a with
  | comment inner => exact breaks_cons (.inr rfl) hname _
  | docs inner => exact breaks_cons (.inl rfl) hname _

theorem harmless_tags (a : Aside) : Harmless tagNames a.opening ∧ Harmless tagNames a.closing := by
  cases a with
  | comment inner =>
      show Harmless tagNames "<!-- ".toList ∧ Harmless tagNames " -->".toList
      decide
  | docs inner =>
      show Harmless tagNames "<docs>".toList ∧ Harmless tagNames "</docs>".toList
      decide

theorem harmless_templates (inner : List Char) :
    Harmless templateNames (comment inner).opening ∧
      Harmless templateNames (comment inner).closing := by
  show Harmless templateNames "<!-- ".toList ∧ Harmless templateNames " -->".toList
  decide

/-- An aside that mentions no tag of a block is passed over with what follows it. -/
theorem plain_text {a : Aside} {rest : List Char} (ha : ¬ Mentions tagNames a.inner)
    (hrest : ¬ Mentions tagNames rest) : ¬ Mentions tagNames (a.text ++ rest) := by
  have hclosing : ¬ Mentions tagNames (a.closing ++ rest) := by
    rwa [mentions_append_of_harmless a.harmless_tags.2]
  rw [text, List.append_assoc, mentions_append_of_harmless a.harmless_tags.1, List.append_assoc]
  apply not_mentions_append ha hclosing
  intro name hname
  exact a.breaks_closing (List.mem_append_left _ hname) rest

/-- A comment with tags that nest nests with a text before it and what follows. -/
theorem nests_comment {d e : Nat} {before inner rest : List Char}
    (hbefore : ¬ Mentions templateNames before) (hinner : Nests d inner d)
    (hrest : Nests d rest e) : Nests d (before ++ ((comment inner).text ++ rest)) e := by
  obtain ⟨led, last, rfl, hled, hlast⟩ := hinner
  -- The comment is entered with the text before it and left with the last text in it.
  obtain ⟨hopening, hclosing⟩ := harmless_templates (led ++ last)
  have hleft : Nests d ((last ++ (comment (led ++ last)).closing) ++ rest) e := by
    refine hrest.append_left fun text htext => ?_
    rw [List.append_assoc]
    apply not_mentions_append hlast (by rwa [mentions_append_of_harmless hclosing])
    intro name hname
    exact breaks_closing _ (List.mem_append_right _ hname) text
  have hentered : Nests d ((before ++ (comment (led ++ last)).opening) ++
      (led ++ ((last ++ (comment (led ++ last)).closing) ++ rest))) e := by
    refine (hled.append_nests hleft).append_left fun text htext => ?_
    rw [List.append_assoc]
    apply not_mentions_append hbefore (by rwa [mentions_append_of_harmless hopening])
    intro name hname
    exact breaks_opening _ (List.mem_append_right _ hname) text
  have hlist : before ++ ((comment (led ++ last)).text ++ rest) =
      (before ++ (comment (led ++ last)).opening) ++
        (led ++ ((last ++ (comment (led ++ last)).closing) ++ rest)) := by
    simp [text, inner]
  rw [hlist]
  exact hentered

end Aside

/-! ## Moving regions -/

/-- A region in a text that begins `n` characters later. -/
def shift (n : Nat) (r : Region) : Region := { r with start := r.start + n, stop := r.stop + n }

theorem Tag.shift_region (t : Tag) (n start size : Nat) :
    (t.region start size).shift n = t.region (start + n) size := by
  simp [shift, Tag.region, Nat.add_right_comm]

theorem Element.shift_region (e : Element) (n offset : Nat) :
    (e.region offset).shift n = e.region (offset + n) := by
  rw [Element.region, Tag.shift_region, Element.region, Nat.add_right_comm]

theorem Block.shift_region (b : Block) (n offset : Nat) :
    (b.region offset).shift n = b.region (offset + n) := by
  cases b with
  | selfClosing tag => rw [Block.region, Tag.shift_region, Block.region, Nat.add_right_comm]
  | closed e closing closes => exact e.shift_region n offset

theorem Tail.shift_regions (tail : Tail) (n offset : Nat) :
    (tail.regions offset).map (shift n) = tail.regions (offset + n) := by
  induction tail generalizing offset with
  | done => rfl
  | unclosed e => rw [Tail.regions, List.map_singleton, e.shift_region, Tail.regions]
  | block b separator rest ih =>
      have hoffset : offset + b.text.length + separator.text.length + n =
          offset + n + b.text.length + separator.text.length := by omega
      rw [Tail.regions, List.map_cons, b.shift_region, ih, hoffset, Tail.regions]

/-! ## Places -/

/-- The text between two blocks around a place in it. Nothing is read as a tag, neither as long as
nothing stands at the place nor if the text before the place ends there. -/
structure Gap where
  before : List Char
  after : List Char
  plain : ¬ Mentions tagNames (before ++ after)
  before_plain : ¬ Mentions tagNames before

/-- A template that is closed, with a place in a text of it: behind a tag, a text, and what follows.
The tags before the place leave `depth` templates open in the template, and those behind it close
them. -/
structure Spot where
  tag : Tag
  depth : Nat
  led : List Char
  text : List Char
  after : List Char
  closing : List Char
  template : tag.kind = .template
  led_leads : Leads 0 led depth
  text_plain : ¬ Mentions templateNames text
  nests : Nests depth (text ++ after) 0
  after_nests : Nests depth after 0
  closes : IsClosing "template".toList closing

/-- The content of a template with something at the place. -/
def Spot.content (s : Spot) (x : List Char) : List Char := s.led ++ (s.text ++ (x ++ s.after))

/-- What follows some blocks, with a place in it: before the next block, or in a template that
follows a separator. -/
inductive Place where
  | between (gap : Gap) (tail : Tail)
  | inside (separator : Separator) (spot : Spot) (next : Separator) (tail : Tail)

namespace Place

/-- The blocks behind the place. -/
def tail : Place → Tail
  | between _ tail => tail
  | inside _ _ _ tail => tail

/-- The text up to these blocks, with something at the place. -/
def lead (x : List Char) : Place → List Char
  | between gap _ => gap.before ++ (x ++ gap.after)
  | inside separator spot next _ =>
    separator.text ++ (spot.tag.opening ++ (spot.content x ++ (spot.closing ++ next.text)))

/-- The text with something at the place. -/
def text (x : List Char) (p : Place) : List Char := p.lead x ++ p.tail.text

/-- The region of the template in which the place is, with `n` characters at the place. -/
def here (offset n : Nat) : Place → List Region
  | between _ _ => []
  | inside separator spot _ _ =>
    [spot.tag.region (offset + separator.text.length + spot.tag.opening.length)
      ((spot.content []).length + n)]

/-- The regions behind the place. -/
def later (offset : Nat) (p : Place) : List Region := p.tail.regions (offset + (p.lead []).length)

/-- The aside mentions no tag that would count at the place, or in a template only tags that leave
as many templates open as there were. -/
def Admits (a : Aside) : Place → Prop
  | between _ _ => ¬ Mentions tagNames a.inner
  | inside _ spot _ _ => ∃ inner, a = .comment inner ∧ Nests spot.depth inner spot.depth

/-- What may stand at the place for the text still to be a component. -/
def Fits (x : List Char) : Place → Prop
  | between gap _ => ¬ Mentions tagNames (gap.before ++ (x ++ gap.after))
  | inside _ spot _ _ => Nests 0 (spot.content x) 0

theorem fits_nil (p : Place) : p.Fits [] := by
  cases p with
  | between gap tail => exact gap.plain
  | inside separator spot next tail => exact spot.led_leads.append_nests spot.nests

theorem fits_of_admits {p : Place} {a : Aside} (h : p.Admits a) : p.Fits a.text := by
  cases p with
  | between gap tail =>
      have hafter : ¬ Mentions tagNames gap.after :=
        fun hmentions => gap.plain (hmentions.append_left gap.before)
      apply not_mentions_append gap.before_plain (Aside.plain_text h hafter)
      intro name hname
      rw [Aside.text, List.append_assoc]
      exact a.breaks_opening (List.mem_append_left _ hname) _
  | inside separator spot next tail =>
      obtain ⟨inner, rfl, hinner⟩ := h
      exact spot.led_leads.append_nests
        (Aside.nests_comment spot.text_plain hinner spot.after_nests)

theorem content_of_nests {kind : BlockKind} {content : List Char} (hkind : kind = .template)
    (h : Nests 0 content 0) : Content kind content := by
  rw [Content, if_pos hkind]
  exact nesting_iff_nests.mpr h

/-- The component with something at the place. -/
def component (p : Place) {x : List Char} (h : p.Fits x) : Component :=
  match p, h with
  | between gap tail, h => ⟨⟨gap.before ++ (x ++ gap.after), h⟩, tail⟩
  | inside separator spot next tail, h =>
    ⟨separator, .block (.closed ⟨spot.tag, spot.content x, content_of_nests spot.template h⟩
      spot.closing (by rw [spot.template]; exact spot.closes)) next tail⟩

theorem text_component (p : Place) {x : List Char} (h : p.Fits x) :
    (p.component h).text = p.text x := by
  cases p with
  | between gap tail => rfl
  | inside separator spot next tail =>
      simp [component, text, lead, Place.tail, Component.text, Tail.text, Block.text, Element.text]

theorem length_lead (p : Place) (x : List Char) :
    (p.lead x).length = (p.lead []).length + x.length := by
  cases p with
  | between gap tail =>
      simp only [lead, List.length_append, List.length_nil]
      omega
  | inside separator spot next tail =>
      simp only [lead, Spot.content, List.length_append, List.length_nil]
      omega

theorem shift_later (p : Place) (x : List Char) (offset : Nat) :
    (p.later offset).map (shift x.length) = p.tail.regions (offset + (p.lead x).length) := by
  rw [later, p.tail.shift_regions, p.length_lead x, Nat.add_assoc]

/-- What stands at the place makes the template longer and moves what follows. -/
theorem regions_component (p : Place) {x : List Char} (h : p.Fits x) (offset : Nat) :
    (p.component h).regions offset =
      p.here offset x.length ++ (p.later offset).map (shift x.length) := by
  rw [p.shift_later]
  cases p with
  | between gap tail => rfl
  | inside separator spot next tail =>
      have hcontent : (spot.content x).length = (spot.content []).length + x.length := by
        simp only [Spot.content, List.length_append, List.length_nil]
        omega
      have hoffset : offset + separator.text.length + ((spot.tag.opening ++ spot.content x) ++
          spot.closing).length + next.text.length =
          offset + ((Place.inside separator spot next tail).lead x).length := by
        simp only [lead, List.length_append]
        omega
      rw [here, ← hcontent, ← hoffset]
      rfl

/-- The contents behind the place stand where their regions have moved to. -/
theorem slice_later (p : Place) (before x : List Char) :
    ((p.later before.length).map (shift x.length)).map (slice (before ++ p.text x)) =
      p.tail.contents := by
  rw [p.shift_later, text, ← List.append_assoc, ← List.length_append, p.tail.slice_regions]

end Place

/-! ## Components with a place in them -/

/-- Blocks with a separator before each, as they are written. -/
def leadText : List (Separator × Block) → List Char
  | [] => []
  | (separator, b) :: blocks => separator.text ++ (b.text ++ leadText blocks)

/-- The regions of these blocks. -/
def leadRegions (offset : Nat) : List (Separator × Block) → List Region
  | [] => []
  | (separator, b) :: blocks =>
    b.region (offset + separator.text.length) ::
      leadRegions (offset + separator.text.length + b.text.length) blocks

/-- A component behind these blocks. -/
def Component.behind (c : Component) : List (Separator × Block) → Component
  | [] => c
  | (separator, b) :: blocks => ⟨separator, .block b (c.behind blocks).lead (c.behind blocks).tail⟩

theorem Component.text_behind (c : Component) (blocks : List (Separator × Block)) :
    (c.behind blocks).text = leadText blocks ++ c.text := by
  induction blocks with
  | nil => rfl
  | cons p blocks ih =>
      rw [Component.text] at ih
      simp [behind, Component.text, Tail.text, leadText, ih]

theorem Component.regions_behind (c : Component) (blocks : List (Separator × Block))
    (offset : Nat) :
    (c.behind blocks).regions offset =
      leadRegions offset blocks ++ c.regions (offset + (leadText blocks).length) := by
  induction blocks generalizing offset with
  | nil => rfl
  | cons p blocks ih =>
      have hoffset : offset + (leadText (p :: blocks)).length =
          offset + p.1.text.length + p.2.text.length + (leadText blocks).length := by
        simp only [leadText, List.length_append]
        omega
      rw [hoffset, leadRegions, List.cons_append, ← ih]
      rfl

/-- The contents of these blocks stand at their regions, whatever follows. -/
theorem slice_leadRegions (blocks : List (Separator × Block)) (before after : List Char) :
    (leadRegions before.length blocks).map (slice (before ++ (leadText blocks ++ after))) =
      blocks.map (·.2.content) := by
  induction blocks generalizing before with
  | nil => rfl
  | cons p blocks ih =>
      have hfirst := p.2.slice_region (before ++ p.1.text) (leadText blocks ++ after)
      have hrest := ih (before ++ (p.1.text ++ p.2.text))
      have hlist : before ++ (leadText (p :: blocks) ++ after) =
          before ++ p.1.text ++ (p.2.text ++ (leadText blocks ++ after)) := by
        simp [leadText]
      have hlength : (before ++ (p.1.text ++ p.2.text)).length =
          before.length + p.1.text.length + p.2.text.length := by
        simp [Nat.add_assoc]
      rw [List.length_append, ← hlist] at hfirst
      rw [hlength, List.append_assoc, List.append_assoc, ← List.append_assoc before,
        ← hlist] at hrest
      rw [leadRegions, List.map_cons, hfirst, hrest, List.map_cons]

/-- A component with a place in it, behind some blocks. -/
structure Site where
  blocks : List (Separator × Block)
  place : Place

namespace Site

/-- The component with something at the place. -/
def text (s : Site) (x : List Char) : List Char := leadText s.blocks ++ s.place.text x

/-- The regions before the place. -/
def kept (s : Site) : List Region := leadRegions 0 s.blocks

/-- The region of the template in which the place is, with `n` characters at the place. -/
def here (s : Site) (n : Nat) : List Region := s.place.here (leadText s.blocks).length n

/-- The regions behind the place. -/
def later (s : Site) : List Region := s.place.later (leadText s.blocks).length

theorem ofText_text (s : Site) {x : List Char} (h : s.place.Fits x) :
    ofText (String.ofList (s.text x)) =
      .ok (s.kept ++ (s.here x.length ++ s.later.map (shift x.length))) := by
  have htext : ((s.place.component h).behind s.blocks).text = s.text x := by
    rw [Component.text_behind, Place.text_component]
    rfl
  have hscan := ((s.place.component h).behind s.blocks).scan_text 0
  rw [Nat.zero_add, htext, Component.regions_behind, Nat.zero_add, Place.regions_component] at hscan
  rw [ofText, String.length_ofList, String.toList_ofList, hscan]
  rfl

end Site

theorem map_shift_zero (rs : List Region) : rs.map (shift 0) = rs := by
  have hzero : shift 0 = id := rfl
  rw [hzero, List.map_id]

/-- An aside that the place admits leaves all regions as they are, but for the template it stands
in, which is longer by its length, and for those behind it, which are moved by its length. -/
theorem ofDocument_aside (s : Site) {a : Aside} (h : s.place.Admits a) {d : Document}
    (hd : d.languageId = componentLanguage) :
    ofDocument { d with text := String.ofList (s.text []) } =
        .ok (s.kept ++ (s.here 0 ++ s.later)) ∧
      ofDocument { d with text := String.ofList (s.text a.text) } =
        .ok (s.kept ++ (s.here a.text.length ++ s.later.map (shift a.text.length))) ∧
      s.kept.map (slice (s.text a.text)) = s.kept.map (slice (s.text [])) ∧
      (s.later.map (shift a.text.length)).map (slice (s.text a.text)) =
        s.later.map (slice (s.text [])) := by
  refine ⟨?_, ?_, ?_, ?_⟩
  · have hempty := s.ofText_text s.place.fits_nil
    rw [List.length_nil, map_shift_zero] at hempty
    rw [ofDocument, if_pos hd, hempty]
  · rw [ofDocument, if_pos hd, s.ofText_text (Place.fits_of_admits h)]
  · have hkept (x : List Char) := slice_leadRegions s.blocks [] (s.place.text x)
    exact (hkept a.text).trans (hkept []).symm
  · have hlater (x : List Char) := s.place.slice_later (leadText s.blocks) x
    have hempty := hlater []
    rw [List.length_nil, map_shift_zero] at hempty
    exact (hlater a.text).trans hempty.symm

/-! ### A comment in a template in a template -/

namespace Commented

/-- `<template v-if>`, which stands in another template. -/
def innerTag : List Char := "<template v-if>".toList

theorem innerTag_opens : OpensTemplate innerTag :=
  ⟨"template".toList, " v-if".toList, rfl, rfl, by decide +kernel, by decide, by decide⟩

/-- The opening tag of a block, without attributes. -/
def tag (kind : BlockKind) (h : kind.defaultLanguage?.isSome)
    (hname : kind.name.toList.map Char.toLower = kind.name.toList) : Tag :=
  ⟨kind, kind.name.toList, [], [], h, hname, by simp, by simp, by simp⟩

/-- `<template><b></b><template v-if>x</template></template><style/>`, with the place behind the
x. -/
def site : Site where
  blocks := [(⟨[], by decide⟩, .selfClosing (tag .script rfl rfl))]
  place := .inside ⟨[], by decide⟩
    { tag := tag .template rfl rfl
      depth := 1
      led := "<b></b>".toList ++ (innerTag ++ [])
      text := ['x']
      after := templateClosing
      closing := templateClosing
      template := rfl
      led_leads := .opens (by decide) innerTag_opens .nil
      text_plain := by decide
      nests := ⟨['x'] ++ (templateClosing ++ []), [], rfl,
        .closes (by decide) templateClosing_isClosing .nil, by decide⟩
      after_nests := ⟨[] ++ (templateClosing ++ []), [], rfl,
        .closes (by decide) templateClosing_isClosing .nil, by decide⟩
      closes := templateClosing_isClosing }
    ⟨[], by decide⟩ (.block (.selfClosing (tag .style rfl rfl)) ⟨[], by decide⟩ .done)

/-- A comment that closes a template and opens another one. -/
def comment : Aside := .comment (templateClosing ++ ("<script>".toList ++ innerTag))

/-- A component with a text. -/
def component (text : String) : Document := ⟨"file:///a.vue", "vue", 0, text⟩

end Commented

open Commented in
theorem ofDocument_aside_nested :
    site.place.Admits comment ∧
      ofDocument (component ("<script/><template><b></b><template v-if>x<!-- </template><script>" ++
        "<template v-if> --></template></template><style/>")) =
        .ok [⟨.script, "javascript", 9, 9, []⟩, ⟨.template, "html", 19, 96, []⟩,
          ⟨.style, "css", 115, 115, []⟩] := by
  have hadmits : site.place.Admits comment := by
    refine ⟨_, rfl, [] ++ (templateClosing ++ ("<script>".toList ++ (innerTag ++ []))), [], rfl,
      ?_, ?_⟩
    · exact .closes (by decide) templateClosing_isClosing (.opens (by decide) innerTag_opens .nil)
    · decide
  have htext : "<script/><template><b></b><template v-if>x<!-- </template><script>" ++
      "<template v-if> --></template></template><style/>" =
        String.ofList (site.text comment.text) := by decide +kernel
  have hmoved := (ofDocument_aside site hadmits (d := component "") rfl).2.1
  have hregions := (congrArg (fun text => ofDocument (component text)) htext).trans hmoved
  exact ⟨hadmits, hregions.trans (by decide +kernel)⟩

open Commented in
/-- A tag in a comment counts. Between blocks it makes a region, which may take in the blocks that
follow, and in a template it may end the template. -/
theorem ofDocument_tag_in_aside :
    ofDocument (component "<script/>") = .ok [⟨.script, "javascript", 9, 9, []⟩] ∧
      ofDocument (component "<!-- <script/> --><script/>") =
        .ok [⟨.script, "javascript", 14, 14, []⟩, ⟨.script, "javascript", 27, 27, []⟩] ∧
      ofDocument (component "<docs><style></docs><script/>") =
        .ok [⟨.style, "css", 13, 29, []⟩] ∧
      ofDocument (component "<template></template>") = .ok [⟨.template, "html", 10, 10, []⟩] ∧
      ofDocument (component "<template><!-- </template> --></template>") =
        .ok [⟨.template, "html", 10, 15, []⟩] := by
  decide +kernel

end SfcCheck.Region
