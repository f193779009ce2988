import SfcCheck.Proofs.Region.Components
import SfcCheck.Proofs.Results

/-!
# Tags with values in quotes

A value in quotes may hold anything but its quotes, and so it may hold the bracket that ends a tag.
A scanner that takes the first bracket for the end of the tag ends it inside such a value: the
content of the block begins there, and the attributes behind it are lost. A template tag inside a
template does no harm as long as it counts as what it is up to its first bracket.
-/

namespace SfcCheck.Attribute

/-- The value of an attribute is in quotes, if there is one. -/
def Written.Quoted (a : Written) : Prop :=
  ∀ b ∈ a.assignment?, ∃ quote text, b.value = .quoted quote text

/-- Only a value in quotes holds a bracket. -/
theorem Written.Quoted.bracket_mem_text {a : Written} (h : a.Quoted) :
    '>' ∈ a.text ↔ '>' ∈ a.value := by
  have hgap : '>' ∉ a.gap := Region.bracket_not_mem_of_blank a.gap_blank
  have hname : '>' ∉ a.name := fun hmem => absurd (a.name_chars '>' hmem) (by decide)
  cases hassignment : a.assignment? with
  | none => simp [text, valueText, value, hassignment, hgap, hname]
  | some b =>
      have hbefore : '>' ∉ b.before := Region.bracket_not_mem_of_blank b.before_blank
      have hafter : '>' ∉ b.after := Region.bracket_not_mem_of_blank b.after_blank
      have hvalid := b.valid
      obtain ⟨quote, inner, hvalue⟩ := h b hassignment
      rw [hvalue] at hvalid
      have hquote : '>' ≠ quote := by
        rintro rfl
        exact absurd hvalid.1 (by decide)
      simp [text, valueText, value, hassignment, Assignment.text, hvalue, Value.text, Value.content,
        hgap, hname, hbefore, hafter, hquote]

end SfcCheck.Attribute

namespace SfcCheck.Region

/-! ## Tags -/

/-- The tag of a block, with values in quotes only. -/
structure QuotedTag where
  kind : BlockKind
  name : List Char
  attributes : List Attribute.Written
  gap : List Char
  known : kind.defaultLanguage?.isSome
  name_cased : name.map Char.toLower = kind.name.toList
  gap_blank : ∀ c ∈ gap, Text.isBlank c = true
  quoted : ∀ a ∈ attributes, a.Quoted

namespace QuotedTag

/-- What stands between the name and the end of the tag. -/
def raw (t : QuotedTag) : List Char := t.attributes.flatMap Attribute.Written.text ++ t.gap

/-- The tag as it is written, with what stands behind its name. -/
def written (t : QuotedTag) (inner : List Char) : List Char := '<' :: (t.name ++ (inner ++ ['>']))

/-- The tag of a block with a content. -/
def opening (t : QuotedTag) : List Char := t.written t.raw

/-- The tag of a block without one. -/
def selfClosing (t : QuotedTag) : List Char := t.written (t.raw ++ ['/'])

/-- The names of the attributes in lower case with their values. -/
def entries (t : QuotedTag) : List (String × String) := t.attributes.map Attribute.Written.entry

/-- The language that the last attribute of this name names, and that of the kind if none does. -/
def language (t : QuotedTag) : String :=
  match (t.entries.reverse.find? (·.1 = "lang")).map (·.2) with
  | some lang => if lang.isEmpty then t.kind.defaultLanguage?.get t.known else lang
  | none => t.kind.defaultLanguage?.get t.known

/-- The region of a block with the tag, for a content of some size at an offset. -/
def region (t : QuotedTag) (start size : Nat) : Region :=
  ⟨t.kind, t.language, start, start + size, .ofList t.entries⟩

/-- No value holds a bracket. -/
def IsClear (t : QuotedTag) : Prop := ∀ a ∈ t.attributes, '>' ∉ a.value

variable {t : QuotedTag}

theorem bracket_mem_raw : '>' ∈ t.raw ↔ ¬ t.IsClear := by
  have hgap : '>' ∉ t.gap := bracket_not_mem_of_blank t.gap_blank
  have hvalues : (∃ a ∈ t.attributes, '>' ∈ a.text) ↔ ∃ a ∈ t.attributes, '>' ∈ a.value :=
    exists_congr fun a => and_congr_right fun ha => (t.quoted a ha).bracket_mem_text
  simp [raw, IsClear, hgap, hvalues]

/-- A tag without brackets in its values. -/
def asTag (t : QuotedTag) (h : t.IsClear) : Tag where
  kind := t.kind
  name := t.name
  attributes := t.attributes
  gap := t.gap
  known := t.known
  name_cased := t.name_cased
  gap_blank := t.gap_blank
  attributes_open a ha := (not_congr (t.quoted a ha).bracket_mem_text).mpr (h a ha)
  bare_full a ha b hb text hbare := by
    obtain ⟨quote, inner, hvalue⟩ := t.quoted a ha b hb
    rw [hvalue] at hbare
    cases hbare

theorem selfClosing_asTag (h : t.IsClear) : (t.asTag h).selfClosing = t.selfClosing := by
  rw [selfClosing, written, List.append_assoc]
  rfl

end QuotedTag

/-! ## The first bracket -/

theorem endsWord_of_append {cs rest : List Char} (h : endsWord (cs ++ rest) = true) :
    endsWord cs = true := by
  cases cs with
  | nil => rfl
  | cons c cs => exact h

/-- A bracket does not go on with the name of a template tag. -/
theorem breaks_bracket {name : List Char} (hname : name ∈ templateNames) (rest : List Char) :
    Breaks name ('>' :: rest) := by
  have hall : ∀ name ∈ templateNames, foldTagChar '>' ∉ name.map foldTagChar := by decide
  intro c hc n hn hfold
  obtain rfl : '>' = c := by simpa using hc
  exact hall name hname (hfold ▸ List.mem_map_of_mem hn)

/-- The end of a tag behind a text without a mention goes before any such text. -/
theorem not_mentions_bracket {text rest : List Char} (htext : ¬ Mentions templateNames text)
    (hrest : ¬ Mentions templateNames rest) :
    ¬ Mentions templateNames ((text ++ ['>']) ++ rest) := by
  rw [List.append_assoc]
  refine not_mentions_append htext ?_ fun name hname => breaks_bracket hname rest
  rw [List.cons_append, List.nil_append, mentions_cons, not_or]
  exact ⟨fun hbracket => absurd hbracket.1 (by decide), hrest⟩

/-- What a template tag counts as up to the first bracket, by what stands behind its name. Behind
that bracket no other template tag begins. -/
def CountsAs (kind : TemplateTag) (inner : List Char) : Prop :=
  (if (inner.takeWhile (· != '>')).getLast? = some '/' then .selfClosing else .opens) = kind ∧
    ¬ Mentions templateNames (inner.dropWhile (· != '>'))

instance (kind : TemplateTag) (inner : List Char) : Decidable (CountsAs kind inner) :=
  inferInstanceAs (Decidable (_ ∧ _))

/-- A tag without brackets in its values counts as what it is. -/
theorem countsAs_of_open {kind : TemplateTag} {inner : List Char} (hinner : '>' ∉ inner) :
    CountsAs kind inner ↔
      (if inner.getLast? = some '/' then .selfClosing else .opens) = kind := by
  have hall : ∀ c ∈ inner, (c != '>') = true := by
    intro c hc
    simpa using fun heq : c = '>' => hinner (heq ▸ hc)
  have htake : inner.takeWhile (· != '>') = inner := List.takeWhile_eq_self_iff.mpr hall
  have hdrop : inner.dropWhile (· != '>') = [] := List.dropWhile_eq_nil_iff.mpr hall
  simp [CountsAs, htake, hdrop, Mentions]

/-- A tag falls apart behind its first bracket into one that ends there and a text. -/
theorem exists_cut {kind : TemplateTag} {inner : List Char} (h : CountsAs kind inner) :
    ∃ before more, inner ++ ['>'] = before ++ '>' :: more ∧ '>' ∉ before ∧
      (endsWord inner = true → endsWord before = true) ∧
      (if before.getLast? = some '/' then .selfClosing else .opens) = kind ∧
      ∀ text, ¬ Mentions templateNames text → ¬ Mentions templateNames (more ++ text) := by
  obtain ⟨hkind, hmentions⟩ := h
  have hsplit : inner.takeWhile (· != '>') ++ inner.dropWhile (· != '>') = inner :=
    List.takeWhile_append_dropWhile
  have hbefore : '>' ∉ inner.takeWhile (· != '>') := by
    intro hmem
    simpa using List.mem_takeWhile_imp hmem
  cases hdrop : inner.dropWhile (· != '>') with
  | nil =>
      rw [hdrop, List.append_nil] at hsplit
      rw [hsplit] at hbefore hkind
      exact ⟨inner, [], rfl, hbefore, id, hkind, fun _ htext => htext⟩
  | cons c more =>
      have hc := List.head?_dropWhile_not (· != '>') inner
      rw [hdrop] at hc hsplit hmentions
      obtain rfl : c = '>' := by simpa using hc
      rw [mentions_cons, not_or] at hmentions
      refine ⟨_, more ++ ['>'], ?_, hbefore, fun hend => ?_, hkind,
        fun _ htext => not_mentions_bracket hmentions.2 htext⟩
      · rw [← List.cons_append, ← List.append_assoc, hsplit]
      · rw [← hsplit] at hend
        exact endsWord_of_append hend

section Templates

variable {t : QuotedTag}

theorem QuotedTag.endsWord_raw (t : QuotedTag) : endsWord t.raw = true :=
  endsWord_attributes t.attributes t.gap_blank

theorem QuotedTag.endsWord_raw_slash (t : QuotedTag) : endsWord (t.raw ++ ['/']) = true :=
  endsWord_append t.endsWord_raw (by decide +kernel)

theorem QuotedTag.spells_name (t : QuotedTag) : Spells t.name t.kind.name.toList :=
  spells_of_toLower t.name_cased

/-- A tag that counts as opening a template opens one, and what is left of it is text. -/
theorem exists_opensTemplate {inner : List Char} (hkind : t.kind = .template)
    (hend : endsWord inner = true) (hcounts : CountsAs .opens inner) :
    ∃ tag more, t.written inner = tag ++ more ∧ OpensTemplate tag ∧
      ∀ text, ¬ Mentions templateNames text → ¬ Mentions templateNames (more ++ text) := by
  obtain ⟨before, more, hsplit, hbefore, hword, hslash, hmore⟩ := exists_cut hcounts
  have hname := t.spells_name
  rw [hkind] at hname
  refine ⟨'<' :: (t.name ++ (before ++ ['>'])), more, ?_, ?_, hmore⟩
  · simp [QuotedTag.written, hsplit]
  · refine ⟨t.name, before, rfl, hname, hword hend, hbefore, fun hlast => ?_⟩
    rw [if_pos hlast] at hslash
    cases hslash

/-- A tag that counts as a template without a content is one, and what is left of it is text. -/
theorem exists_isEmptyTemplate {inner : List Char} (hkind : t.kind = .template)
    (hend : endsWord inner = true) (hcounts : CountsAs .selfClosing inner) :
    ∃ tag more, t.written inner = tag ++ more ∧ IsEmptyTemplate tag ∧
      ∀ text, ¬ Mentions templateNames text → ¬ Mentions templateNames (more ++ text) := by
  obtain ⟨before, more, hsplit, hbefore, hword, hslash, hmore⟩ := exists_cut hcounts
  have hname := t.spells_name
  rw [hkind] at hname
  have hlast : before.getLast? = some '/' := by
    by_contra hnot
    rw [if_neg hnot] at hslash
    cases hslash
  obtain ⟨raw, rfl⟩ := List.getLast?_eq_some_iff.mp hlast
  refine ⟨'<' :: (t.name ++ (raw ++ ['/', '>'])), more, ?_, ?_, hmore⟩
  · simp [QuotedTag.written, hsplit]
  · exact ⟨t.name, raw, rfl, hname, endsWord_of_append (hword hend), by simpa using hbefore⟩

/-- What may stand in a template: text, and templates with values in quotes. Of those without a
content some count as opening a template, and their number is counted here; all others count as what
they are. -/
inductive QuotedNesting : Nat → List Char → Prop
  | text {text : List Char} (htext : ¬ Mentions templateNames text) : QuotedNesting 0 text
  | selfClosing {n : Nat} {text rest : List Char} {t : QuotedTag}
      (htext : ¬ Mentions templateNames text) (hkind : t.kind = .template)
      (hcounts : CountsAs .selfClosing (t.raw ++ ['/'])) (hrest : QuotedNesting n rest) :
      QuotedNesting n (text ++ (t.selfClosing ++ rest))
  | mistaken {n : Nat} {text rest : List Char} {t : QuotedTag}
      (htext : ¬ Mentions templateNames text) (hkind : t.kind = .template)
      (hcounts : CountsAs .opens (t.raw ++ ['/'])) (hrest : QuotedNesting n rest) :
      QuotedNesting (n + 1) (text ++ (t.selfClosing ++ rest))
  | element {m n : Nat} {text content closing rest : List Char} {t : QuotedTag}
      (htext : ¬ Mentions templateNames text) (hkind : t.kind = .template)
      (hcounts : CountsAs .opens t.raw) (hcontent : QuotedNesting m content)
      (hclosing : IsClosing "template".toList closing) (hrest : QuotedNesting n rest) :
      QuotedNesting (m + n) (text ++ (t.opening ++ (content ++ (closing ++ rest))))

/-- Each template that is mistaken for an opening tag stays open. -/
theorem QuotedNesting.nests {n : Nat} {cs : List Char} (h : QuotedNesting n cs) (d : Nat) :
    Nests d cs (d + n) := by
  induction h generalizing d with
  | text htext => exact ⟨[], _, rfl, .nil, htext⟩
  | @selfClosing n text rest t htext hkind hcounts _ ih =>
      obtain ⟨tag, more, hsplit, htag, hmore⟩ :=
        exists_isEmptyTemplate hkind t.endsWord_raw_slash hcounts
      have hled : Leads d (text ++ (tag ++ [])) d := .selfClosing htext htag .nil
      have hnests := hled.append_nests ((ih d).append_left hmore)
      rw [QuotedTag.selfClosing, hsplit]
      simpa using hnests
  | @mistaken n text rest t htext hkind hcounts _ ih =>
      obtain ⟨tag, more, hsplit, htag, hmore⟩ :=
        exists_opensTemplate hkind t.endsWord_raw_slash hcounts
      have hled : Leads d (text ++ (tag ++ [])) (d + 1) := .opens htext htag .nil
      have hnests := hled.append_nests ((ih (d + 1)).append_left hmore)
      rw [QuotedTag.selfClosing, hsplit, Nat.add_comm n 1, ← Nat.add_assoc]
      simpa using hnests
  | @element m n text content closing rest t htext hkind hcounts _ hclosing _ ihcontent ihrest =>
      obtain ⟨tag, more, hsplit, htag, hmore⟩ := exists_opensTemplate hkind t.endsWord_raw hcounts
      have hled : Leads d (text ++ (tag ++ [])) (d + 1) := .opens htext htag .nil
      obtain ⟨inner, last, hinner, hcontent, hlast⟩ := (ihcontent (d + 1)).append_left hmore
      rw [Nat.add_right_comm] at hcontent
      have hclosed : Leads (d + 1) (inner ++ (last ++ (closing ++ []))) (d + m) :=
        hcontent.trans (.closes hlast hclosing .nil)
      have hnests := hled.append_nests (hclosed.append_nests (ihrest (d + m)))
      have hlist : text ++ (t.opening ++ (content ++ (closing ++ rest))) =
          (text ++ (tag ++ [])) ++ ((inner ++ (last ++ (closing ++ []))) ++ rest) := by
        rw [QuotedTag.opening, hsplit, List.append_assoc tag, ← List.append_assoc more, hinner]
        simp
      rw [hlist, ← Nat.add_assoc]
      exact hnests

/-- A tag without brackets in its values counts as what it is. -/
theorem QuotedTag.IsClear.countsAs (h : t.IsClear) :
    CountsAs .opens t.raw ∧ CountsAs .selfClosing (t.raw ++ ['/']) := by
  have hopen : '>' ∉ t.raw := fun hmem => bracket_mem_raw.mp hmem h
  have hlast : t.raw.getLast? ≠ some '/' := (t.asTag h).raw_getLast?
  constructor
  · rw [countsAs_of_open hopen, if_neg hlast]
  · rw [countsAs_of_open (by simpa using hopen), if_pos (by simp)]

end Templates

/-! ## Blocks -/

section Blocks

variable {t : QuotedTag}

/-- Behind a bracket in a value a content begins too early. -/
theorem start_lt_of_bracket {inner rest : List Char} (hbracket : '>' ∈ inner)
    (hend : endsWord inner = true) {r : Region} {regions : List Region}
    (h : ofText (String.ofList (t.written inner ++ rest)) = .ok (r :: regions)) :
    r.start < (t.written inner).length := by
  obtain ⟨before, more, rfl, hbefore⟩ := List.eq_append_cons_of_mem hbracket
  have hlist : t.written (before ++ '>' :: more) ++ rest =
      '<' :: (t.name ++ (before ++ '>' :: (more ++ '>' :: rest))) := by
    simp [QuotedTag.written]
  have hread : findOpenTag? (t.written (before ++ '>' :: more) ++ rest) =
      some ⟨t.name, before, more ++ '>' :: rest⟩ := by
    rw [hlist, findOpenTag?, if_pos rfl, openTag?_append (BlockKind.name_mem_tagNames t.known)
      t.spells_name (endsWord_of_append hend) hbefore]
  have hsize : (t.written (before ++ '>' :: more) ++ rest).length =
      t.name.length + before.length + 2 + (more ++ '>' :: rest).length := by
    rw [hlist]
    simp only [List.length_cons, List.length_append]
    omega
  rw [ofText, String.length_ofList, String.toList_ofList, scan_eq, hread] at h
  obtain ⟨language, -, h⟩ := exists_of_bind_ok h
  obtain ⟨regions', -, h⟩ := exists_of_bind_ok h
  cases h
  rw [hsize, Nat.add_sub_cancel_right]
  simp only [QuotedTag.written, List.length_cons, List.length_append, List.length_nil]
  omega

/-- What may stand in a block of a kind, with values in quotes. -/
def QuotedContent (kind : BlockKind) (n : Nat) (cs : List Char) : Prop :=
  if kind = .template then QuotedNesting n cs else n = 0 ∧ Uncut kind.name.toList cs

theorem QuotedContent.content {kind : BlockKind} {cs : List Char} (h : QuotedContent kind 0 cs) :
    Content kind cs := by
  rw [Content]
  rw [QuotedContent] at h
  split
  · next hkind =>
      rw [if_pos hkind] at h
      exact nesting_iff_nests.mpr (h.nests 0)
  · next hkind =>
      rw [if_neg hkind] at h
      exact h.2

/-- A component of one block makes one region. -/
theorem ofText_block (b : Block) : ofText (String.ofList b.text) = .ok [b.region 0] := by
  have hscan : scan b.text.length (b.text ++ []) = (scan b.text.length []).map (b.region 0 :: ·) :=
    b.scan_text (by simp)
  rw [List.append_nil, scan_nil] at hscan
  rw [ofText, String.length_ofList, String.toList_ofList, hscan]
  rfl

/-- A template runs to the end of the text if one in it is mistaken for an opening tag. -/
theorem ofText_mistaken (hclear : t.IsClear) (hkind : t.kind = .template) {n : Nat}
    {content closing : List Char} (hcontent : QuotedNesting (n + 1) content)
    (hclosing : IsClosing t.kind.name.toList closing) :
    ofText (String.ofList (t.opening ++ (content ++ closing))) =
      .ok [t.region t.opening.length (content ++ closing).length] := by
  have hname := hclosing
  rw [hkind] at hname
  have hopen : templateEnd 0 (content ++ closing) = ([], []) := by
    obtain ⟨cs, hcs⟩ := hname.eq_cons
    have hbreaks : ∀ name ∈ templateNames, Breaks name closing := by
      intro name hmem
      rw [hcs]
      exact breaks_cons (.inl rfl) (List.mem_append_right _ hmem) cs
    have hlast : templateEnd (n + 1) (closing ++ []) = templateEnd n [] :=
      templateEnd_closes hname []
    rw [List.append_nil] at hlast
    rw [(hcontent.nests 0).templateEnd_append hbreaks, Nat.zero_add, hlast, templateEnd]
  have hend : ((t.asTag hclear).readAs (t.asTag hclear).raw (content ++ closing)).blockEnd =
      ([], []) := by
    have htemplate : (t.asTag hclear).kind = .template := hkind
    rw [OpenTag.blockEnd, if_neg (by simp [Tag.isSelfClosing_opening]), Tag.kind_readAs,
      if_pos htemplate]
    exact hopen
  have hscan : scan (t.opening ++ (content ++ closing)).length
      ((t.asTag hclear).opening ++ (content ++ closing)) =
        (scan (t.opening ++ (content ++ closing)).length []).map
          ((t.asTag hclear).region t.opening.length (content ++ closing).length :: ·) :=
    Tag.scan_readAs ((t.asTag hclear).findOpenTag?_opening _) (t.asTag hclear).trimRight_slash hend
      (by rw [List.length_append]) rfl
  rw [scan_nil] at hscan
  rw [ofText, String.length_ofList, String.toList_ofList]
  exact hscan

/-- A component of one block with values in quotes makes one region, of the kind, the language and
the attributes that are written and with the content at its bounds, just if no value of its tag
holds a bracket and no template in it is mistaken for an opening tag. -/
theorem ofText_quoted (t : QuotedTag) {n : Nat} {content closing : List Char}
    (hcontent : QuotedContent t.kind n content)
    (hclosing : IsClosing t.kind.name.toList closing) :
    (ofText (String.ofList (t.opening ++ (content ++ closing))) =
        .ok [t.region t.opening.length content.length] ↔ t.IsClear ∧ n = 0) ∧
      slice (t.opening ++ (content ++ closing)) (t.region t.opening.length content.length) =
        content ∧
      (ofText (String.ofList t.selfClosing) = .ok [t.region t.selfClosing.length 0] ↔
        t.IsClear) := by
  refine ⟨⟨fun hread => ?_, ?_⟩, ?_, ⟨fun hread => ?_, fun hclear => ?_⟩⟩
  · have hclear : t.IsClear := by
      by_contra hnot
      have hearly := start_lt_of_bracket (QuotedTag.bracket_mem_raw.mpr hnot) t.endsWord_raw hread
      exact Nat.lt_irrefl _ hearly
    refine ⟨hclear, ?_⟩
    rw [QuotedContent] at hcontent
    split at hcontent
    · next hkind =>
        cases n with
        | zero => rfl
        | succ n =>
            rw [ofText_mistaken hclear hkind hcontent hclosing] at hread
            obtain ⟨cs, rfl⟩ := hclosing.eq_cons
            simp [QuotedTag.region] at hread
    · exact hcontent.1
  · rintro ⟨hclear, rfl⟩
    let b : Block := .closed ⟨t.asTag hclear, content, hcontent.content⟩ closing hclosing
    have htext : b.text = t.opening ++ (content ++ closing) :=
      List.append_assoc t.opening content closing
    have hregion : b.region 0 = t.region t.opening.length content.length :=
      congrArg (t.region · content.length) (Nat.zero_add t.opening.length)
    rw [← htext, ← hregion]
    exact ofText_block b
  · rw [slice, QuotedTag.region, Nat.add_sub_cancel_left, List.drop_left, List.take_left]
  · by_contra hnot
    have hbracket : '>' ∈ t.raw ++ ['/'] :=
      List.mem_append_left _ (QuotedTag.bracket_mem_raw.mpr hnot)
    rw [QuotedTag.selfClosing, ← List.append_nil (t.written (t.raw ++ ['/']))] at hread
    have hearly := start_lt_of_bracket hbracket t.endsWord_raw_slash hread
    rw [List.append_nil] at hearly
    exact Nat.lt_irrefl _ hearly
  · let b : Block := .selfClosing (t.asTag hclear)
    have htext : b.text = t.selfClosing := QuotedTag.selfClosing_asTag hclear
    have hregion : b.region 0 = t.region t.selfClosing.length 0 := by
      rw [← htext]
      exact congrArg (t.region · 0) (Nat.zero_add b.text.length)
    rw [← hregion, ← htext]
    exact ofText_block b

end Blocks

/-! ### Brackets in values -/

namespace Bracketed

theorem blank_nil : ∀ c ∈ ([] : List Char), Text.isBlank c = true := by simp

theorem template_known : BlockKind.template.defaultLanguage?.isSome := rfl

theorem template_cased :
    "template".toList.map Char.toLower = BlockKind.template.name.toList := by decide

/-- An attribute with a value in double quotes. -/
def inQuotes (name value : List Char) (hne : name ≠ [])
    (hname : name.all Attribute.isNameChar = true) (hvalue : '"' ∉ value) :
    Attribute.Written where
  gap := [' ']
  name := name
  assignment? := some ⟨[], [], .quoted '"' value, blank_nil, blank_nil, .inl rfl, hvalue⟩
  gap_ne_nil := by simp
  gap_blank := by
    rw [List.forall_mem_singleton]
    decide
  name_ne_nil := hne
  name_chars := List.all_eq_true.mp hname

/-- `<template lang="pug" src="a/b">` -/
def outer : QuotedTag where
  kind := .template
  name := "template".toList
  attributes := [inQuotes "lang".toList "pug".toList (by decide) (by decide) (by decide),
    inQuotes "src".toList "a/b".toList (by decide) (by decide) (by decide)]
  gap := []
  known := template_known
  name_cased := template_cased
  gap_blank := blank_nil
  quoted := by simp [inQuotes, Attribute.Written.Quoted]

/-- `<template v-if="a > b">` -/
def inner : QuotedTag where
  kind := .template
  name := "template".toList
  attributes := [inQuotes "v-if".toList "a > b".toList (by decide) (by decide) (by decide)]
  gap := []
  known := template_known
  name_cased := template_cased
  gap_blank := blank_nil
  quoted := by simp [inQuotes, Attribute.Written.Quoted]

/-- `<template slot="a/b"/>`, without its end -/
def plain : QuotedTag where
  kind := .template
  name := "template".toList
  attributes := [inQuotes "slot".toList "a/b".toList (by decide) (by decide) (by decide)]
  gap := []
  known := template_known
  name_cased := template_cased
  gap_blank := blank_nil
  quoted := by simp [inQuotes, Attribute.Written.Quoted]

/-- `<template v-if="a > b"><template slot="a/b"/></template>` -/
def content : List Char := inner.opening ++ (plain.selfClosing ++ templateClosing)

theorem content_quoted : QuotedContent .template 0 content := by
  have hempty : ¬ Mentions templateNames ([] : List Char) := by decide
  have hclear : plain.IsClear := by
    simp [plain, inQuotes, QuotedTag.IsClear, Attribute.Written.value, Attribute.Value.content]
  have hplain : QuotedNesting 0 ([] ++ (plain.selfClosing ++ [])) :=
    .selfClosing hempty rfl hclear.countsAs.2 (.text hempty)
  have hcounts : CountsAs .opens inner.raw := by decide +kernel
  have hnesting := QuotedNesting.element hempty rfl hcounts hplain templateClosing_isClosing
    (.text hempty)
  rw [QuotedContent, if_pos rfl]
  simpa [content] using hnesting

end Bracketed

open Bracketed in
theorem ofText_quoted_nested :
    String.ofList (outer.opening ++ (content ++ templateClosing)) =
        "<template lang=\"pug\" src=\"a/b\"><template v-if=\"a > b\"><template slot=\"a/b\"/>" ++
          "</template></template>" ∧
      ofText (String.ofList (outer.opening ++ (content ++ templateClosing))) =
        .ok [⟨.template, "pug", 31, 87, [("lang", "pug"), ("src", "a/b")]⟩] := by
  have hclear : outer.IsClear := by
    simp [outer, inQuotes, QuotedTag.IsClear, Attribute.Written.value, Attribute.Value.content]
  refine ⟨by decide +kernel, ?_⟩
  exact ((ofText_quoted outer content_quoted templateClosing_isClosing).1.mpr ⟨hclear, rfl⟩).trans
    (by decide +kernel)

/-- A tag ends at a bracket in a value: its block begins there, without the attributes that follow,
and a template without a content that ends so is never closed. -/
theorem bracket_ends_tag :
    ofText "<script data-x=\"a>b\" lang=\"ts\">c</script>" =
        .ok [⟨.script, "javascript", 18, 32, [("data-x", ""), ("a", "")]⟩] ∧
      ofText "<template><template v-if=\"a>b\"/></template><script/>" =
        .ok [⟨.template, "html", 10, 52, []⟩] := by
  decide +kernel

end SfcCheck.Region
