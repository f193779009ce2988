import SfcCheck.Proofs.Region.Tags

/-!
# Contents of blocks

The content of a template is a nesting: text, templates without a content and further templates,
each closed by its own tag. The scanner sees it as a run of tags and only counts how many templates
are open; that the count tells the end is the same as that the tags nest. The content of any other
block is a text in which no tag closes the block.
-/

namespace SfcCheck.Region

/-! ## Where the next tag begins -/

/-- Neither a bracket nor a space goes on with a tag name. -/
theorem breaks_cons {c : Char} (hc : c = '<' ∨ c = ' ') {name : List Char}
    (hname : name ∈ tagNames ++ templateNames) (rest : List Char) : Breaks name (c :: rest) := by
  have hall : ∀ name ∈ tagNames ++ templateNames, foldTagChar '<' ∉ name.map foldTagChar ∧
      foldTagChar ' ' ∉ name.map foldTagChar := by decide
  obtain ⟨hbracket, hspace⟩ := hall name hname
  intro d hd n hn hfold
  obtain rfl : c = d := by simpa using hd
  have hmem : foldTagChar c ∈ name.map foldTagChar := hfold ▸ List.mem_map_of_mem hn
  rcases hc with rfl | rfl
  · exact hbracket hmem
  · exact hspace hmem

theorem breaks_nil (name : List Char) : Breaks name [] := by
  intro c hc
  cases hc

theorem OpensTemplate.eq_cons {tag : List Char} (h : OpensTemplate tag) :
    ∃ cs, tag = '<' :: cs := by
  obtain ⟨written, raw, rfl, -⟩ := h
  exact ⟨_, rfl⟩

theorem IsEmptyTemplate.eq_cons {tag : List Char} (h : IsEmptyTemplate tag) :
    ∃ cs, tag = '<' :: cs := by
  obtain ⟨written, raw, rfl, -⟩ := h
  exact ⟨_, rfl⟩

theorem IsClosing.eq_cons {name tag : List Char} (h : IsClosing name tag) :
    ∃ cs, tag = '<' :: cs := by
  obtain ⟨written, gap, rfl, -⟩ := h
  exact ⟨_, rfl⟩

/-! ## Single template tags -/

section TemplateEnd

variable {depth : Nat} {tag : List Char}

theorem templateEnd_opens (h : OpensTemplate tag) (rest : List Char) :
    templateEnd depth (tag ++ rest) = templateEnd (depth + 1) rest := by
  obtain ⟨written, raw, rfl, hwritten, hend, hbracket, hslash⟩ := h
  have hlist : '<' :: (written ++ (raw ++ ['>'])) ++ rest =
      '<' :: (written ++ (raw ++ '>' :: rest)) := by simp
  have hread := templateTag?_opens hwritten hend hbracket rest
  rw [if_neg (by simpa using hslash)] at hread
  rw [hlist, templateEnd]
  split
  all_goals simp_all

theorem templateEnd_selfClosing (h : IsEmptyTemplate tag) (rest : List Char) :
    templateEnd depth (tag ++ rest) = templateEnd depth rest := by
  obtain ⟨written, raw, rfl, hwritten, hend, hbracket⟩ := h
  have hlist : '<' :: (written ++ (raw ++ ['/', '>'])) ++ rest =
      '<' :: (written ++ ((raw ++ ['/']) ++ '>' :: rest)) := by simp
  have hslash : endsWord (raw ++ ['/']) = true := endsWord_append hend (by decide +kernel)
  have hread := templateTag?_opens hwritten hslash (by simpa using hbracket) rest
  rw [if_pos (by simp)] at hread
  rw [hlist, templateEnd]
  split
  all_goals simp_all

theorem templateTag?_of_isClosing (h : IsClosing "template".toList tag) (rest : List Char) :
    ∃ cs, tag ++ rest = '<' :: cs ∧ templateTag? cs = some (.closes, rest) := by
  obtain ⟨written, gap, rfl, hwritten, hgap⟩ := h
  refine ⟨'/' :: (written ++ (gap ++ '>' :: rest)), by simp, ?_⟩
  exact templateTag?_closes hwritten hgap

theorem templateEnd_closes (h : IsClosing "template".toList tag) (rest : List Char) :
    templateEnd (depth + 1) (tag ++ rest) = templateEnd depth rest := by
  obtain ⟨cs, hcs, hread⟩ := templateTag?_of_isClosing h rest
  rw [hcs, templateEnd]
  split
  all_goals simp_all

theorem templateEnd_closes_zero (h : IsClosing "template".toList tag) (rest : List Char) :
    templateEnd 0 (tag ++ rest) = (tag ++ rest, rest) := by
  obtain ⟨cs, hcs, hread⟩ := templateTag?_of_isClosing h rest
  rw [hcs, templateEnd]
  split
  all_goals simp_all

theorem templateEnd_text {text rest : List Char} (htext : ¬ Mentions templateNames text)
    (hrest : ∀ name ∈ templateNames, Breaks name rest) :
    templateEnd depth (text ++ rest) = templateEnd depth rest :=
  passes_of_not_mentions (fun _ _ => templateEnd_of_not_isWord) htext hrest

theorem templateEnd_text_bracket {text : List Char} (htext : ¬ Mentions templateNames text)
    {tag : List Char} (htag : ∃ cs, tag = '<' :: cs) (rest : List Char) :
    templateEnd depth (text ++ (tag ++ rest)) = templateEnd depth (tag ++ rest) := by
  obtain ⟨cs, rfl⟩ := htag
  refine templateEnd_text htext ?_
  intro name hname
  exact breaks_cons (.inl rfl) (List.mem_append_right _ hname) (cs ++ rest)

end TemplateEnd

/-! ## Counting template tags -/

/-- Texts with a template tag behind each, which take the number of open templates from one to
another. -/
inductive Leads : Nat → List Char → Nat → Prop
  | nil {d : Nat} : Leads d [] d
  | selfClosing {d e : Nat} {text tag rest : List Char} (htext : ¬ Mentions templateNames text)
      (htag : IsEmptyTemplate tag) (h : Leads d rest e) : Leads d (text ++ (tag ++ rest)) e
  | opens {d e : Nat} {text tag rest : List Char} (htext : ¬ Mentions templateNames text)
      (htag : OpensTemplate tag) (h : Leads (d + 1) rest e) : Leads d (text ++ (tag ++ rest)) e
  | closes {d e : Nat} {text tag rest : List Char} (htext : ¬ Mentions templateNames text)
      (htag : IsClosing "template".toList tag) (h : Leads d rest e) :
      Leads (d + 1) (text ++ (tag ++ rest)) e

theorem Leads.templateEnd_append {d e : Nat} {cs : List Char} (h : Leads d cs e)
    (rest : List Char) : templateEnd d (cs ++ rest) = templateEnd e rest := by
  induction h with
  | nil => rfl
  | selfClosing htext htag _ ih =>
      rw [List.append_assoc, List.append_assoc, templateEnd_text_bracket htext htag.eq_cons,
        templateEnd_selfClosing htag, ih]
  | opens htext htag _ ih =>
      rw [List.append_assoc, List.append_assoc, templateEnd_text_bracket htext htag.eq_cons,
        templateEnd_opens htag, ih]
  | closes htext htag _ ih =>
      rw [List.append_assoc, List.append_assoc, templateEnd_text_bracket htext htag.eq_cons,
        templateEnd_closes htag, ih]

theorem Leads.trans {d e f : Nat} {cs ds : List Char} (h : Leads d cs e) (h' : Leads e ds f) :
    Leads d (cs ++ ds) f := by
  induction h with
  | nil => exact h'
  | selfClosing htext htag _ ih =>
      rw [List.append_assoc, List.append_assoc]
      exact .selfClosing htext htag (ih h')
  | opens htext htag _ ih =>
      rw [List.append_assoc, List.append_assoc]
      exact .opens htext htag (ih h')
  | closes htext htag _ ih =>
      rw [List.append_assoc, List.append_assoc]
      exact .closes htext htag (ih h')

/-- A text with template tags in it, which takes the number of open templates from one to
another. -/
def Nests (d : Nat) (cs : List Char) (e : Nat) : Prop :=
  ∃ led text, cs = led ++ text ∧ Leads d led e ∧ ¬ Mentions templateNames text

theorem Nests.templateEnd_append {d e : Nat} {cs rest : List Char} (h : Nests d cs e)
    (hrest : ∀ name ∈ templateNames, Breaks name rest) :
    templateEnd d (cs ++ rest) = templateEnd e rest := by
  obtain ⟨led, text, rfl, hled, htext⟩ := h
  rw [List.append_assoc, hled.templateEnd_append, templateEnd_text htext hrest]

theorem Leads.append_nests {d e f : Nat} {cs ds : List Char} (h : Leads d cs e)
    (h' : Nests e ds f) : Nests d (cs ++ ds) f := by
  obtain ⟨led, text, rfl, hled, htext⟩ := h'
  exact ⟨cs ++ led, text, by simp, h.trans hled, htext⟩

/-- What goes before any text without a mention goes before a text with tags in it as well. -/
theorem Nests.append_left {d e : Nat} {pre cs : List Char} (h : Nests d cs e)
    (hpre : ∀ text, ¬ Mentions templateNames text → ¬ Mentions templateNames (pre ++ text)) :
    Nests d (pre ++ cs) e := by
  obtain ⟨led, last, rfl, hled, hlast⟩ := h
  cases hled with
  | nil => exact ⟨[], pre ++ last, rfl, .nil, hpre last hlast⟩
  | @selfClosing _ _ text tag rest htext htag hrest =>
      exact ⟨(pre ++ text) ++ (tag ++ rest), last, by simp,
        .selfClosing (hpre text htext) htag hrest, hlast⟩
  | @opens _ _ text tag rest htext htag hrest =>
      exact ⟨(pre ++ text) ++ (tag ++ rest), last, by simp, .opens (hpre text htext) htag hrest,
        hlast⟩
  | @closes _ _ text tag rest htext htag hrest =>
      exact ⟨(pre ++ text) ++ (tag ++ rest), last, by simp, .closes (hpre text htext) htag hrest,
        hlast⟩

/-! ## Nestings -/

/-- What may stand in a template: text, templates without a content and closed templates. -/
inductive Nesting : List Char → Prop
  | text {text : List Char} (htext : ¬ Mentions templateNames text) : Nesting text
  | selfClosing {text tag rest : List Char} (htext : ¬ Mentions templateNames text)
      (htag : IsEmptyTemplate tag) (hrest : Nesting rest) : Nesting (text ++ (tag ++ rest))
  | element {text opening content closing rest : List Char}
      (htext : ¬ Mentions templateNames text) (hopening : OpensTemplate opening)
      (hcontent : Nesting content) (hclosing : IsClosing "template".toList closing)
      (hrest : Nesting rest) :
      Nesting (text ++ (opening ++ (content ++ (closing ++ rest))))

/-- A nesting leaves as many templates open as there were. -/
theorem Nesting.nests {cs : List Char} (h : Nesting cs) (d : Nat) : Nests d cs d := by
  induction h generalizing d with
  | text htext => exact ⟨[], _, rfl, .nil, htext⟩
  | selfClosing htext htag _ ih =>
      obtain ⟨led, text, rfl, hled, hlast⟩ := ih d
      exact ⟨_, text, by simp, .selfClosing htext htag hled, hlast⟩
  | element htext hopening _ hclosing _ ihcontent ihrest =>
      obtain ⟨inner, text', rfl, hinner, hlast'⟩ := ihcontent (d + 1)
      obtain ⟨led, text, rfl, hled, hlast⟩ := ihrest d
      have hclosed : Leads (d + 1) (inner ++ (text' ++ (_ ++ led))) d :=
        hinner.trans (.closes hlast' hclosing hled)
      exact ⟨_, text, by simp, .opens htext hopening hclosed, hlast⟩

/-- Nestings with a closing tag between each and the next, which close as many templates. -/
inductive Levels : Nat → List Char → Prop
  | last {cs : List Char} (h : Nesting cs) : Levels 0 cs
  | closes {d : Nat} {cs tag rest : List Char} (h : Nesting cs)
      (htag : IsClosing "template".toList tag) (hrest : Levels d rest) :
      Levels (d + 1) (cs ++ (tag ++ rest))

/-- What may stand before a nesting may stand before the first one. -/
theorem Levels.append {d : Nat} {pre cs : List Char} (h : Levels d cs)
    (hpre : ∀ ns, Nesting ns → Nesting (pre ++ ns)) : Levels d (pre ++ cs) := by
  cases h with
  | last h => exact .last (hpre _ h)
  | closes h htag hrest =>
      rw [← List.append_assoc]
      exact .closes (hpre _ h) htag hrest

/-- An opening tag makes a template of the first nesting and the tag that closes it. -/
theorem Levels.opens {d : Nat} {text tag cs : List Char} (h : Levels (d + 1) cs)
    (htext : ¬ Mentions templateNames text) (htag : OpensTemplate tag) :
    Levels d (text ++ (tag ++ cs)) := by
  cases h with
  | @closes _ content closing rest hcontent hclosing hrest =>
      have hlist : text ++ (tag ++ (content ++ (closing ++ rest))) =
          (text ++ (tag ++ (content ++ closing))) ++ rest := by simp
      rw [hlist]
      refine hrest.append ?_
      intro ns hns
      have helement := Nesting.element htext htag hcontent hclosing hns
      simpa using helement

/-- What closes all open templates falls apart at the tags that close them. -/
theorem levels_of_leads {d : Nat} {led text : List Char} (h : Leads d led 0)
    (htext : ¬ Mentions templateNames text) : Levels d (led ++ text) := by
  generalize he : 0 = e at h
  induction h with
  | nil =>
      subst he
      exact .last (.text htext)
  | @selfClosing _ _ piece tag _ hpiece htag _ ih =>
      have hpre : ∀ ns, Nesting ns → Nesting ((piece ++ tag) ++ ns) := by
        intro ns hns
        rw [List.append_assoc]
        exact .selfClosing hpiece htag hns
      simpa using (ih he).append hpre
  | opens hpiece htag _ ih =>
      rw [List.append_assoc, List.append_assoc]
      exact (ih he).opens hpiece htag
  | closes hpiece htag _ ih =>
      rw [List.append_assoc, List.append_assoc]
      exact .closes (.text hpiece) htag (ih he)

/-- The tags of a text nest if the count of open templates comes back to where it began. -/
theorem nesting_iff_nests {cs : List Char} : Nesting cs ↔ Nests 0 cs 0 := by
  constructor
  · intro h
    exact h.nests 0
  · rintro ⟨led, text, rfl, hled, htext⟩
    cases levels_of_leads hled htext with
    | last h => exact h

/-! ## Other blocks -/

section RawEnd

variable {name cs rest : List Char}

/-- No tag in a text closes a block with a name. -/
def Uncut (name cs : List Char) : Prop := ∀ tag, IsClosing name tag → ¬ tag <:+: cs

theorem Uncut.of_cons {c : Char} (h : Uncut name (c :: cs)) : Uncut name cs :=
  fun tag htag hinfix => h tag htag (List.infix_cons hinfix)

/-- A closing tag has a bracket at its beginning only. -/
theorem bracket_not_mem_tail {tag : List Char} (hname : '<' ∉ name) (h : IsClosing name tag) :
    '<' ∉ tag.tail := by
  obtain ⟨written, gap, rfl, hwritten, hgap⟩ := h
  intro hmem
  simp only [List.tail_cons, List.mem_cons, List.mem_append, List.mem_nil_iff, or_false] at hmem
  rcases hmem with hslash | hmem | hmem | hbracket
  · cases hslash
  · have hfold : foldTagChar '<' ∈ name.map foldTagChar := hwritten ▸ List.mem_map_of_mem hmem
    obtain ⟨c, hc, heq⟩ := List.mem_map.mp hfold
    exact hname (eq_of_foldTagChar (.inl rfl) heq ▸ hc)
  · exact absurd (hgap '<' hmem) (by decide)
  · cases hbracket

/-- No closing tag begins in a text that has none, not even one that ends behind the text. -/
theorem closingTag?_of_uncut (hname : '<' ∉ name) (hcs : Uncut name cs) (hne : cs ≠ [])
    (hrest : ∀ c ∈ rest.head?, c = '<') : closingTag? name (cs ++ rest) = none := by
  cases hfound : closingTag? name (cs ++ rest) with
  | none => rfl
  | some after =>
      exfalso
      obtain ⟨tag, hsplit, htag⟩ := isClosing_of_closingTag? hfound
      rcases List.append_eq_append_iff.mp hsplit with ⟨more, rfl, hmore⟩ | ⟨more, rfl, -⟩
      · obtain ⟨c, cs, rfl⟩ := List.exists_cons_of_ne_nil hne
        cases more with
        | nil => exact hcs _ htag (by rw [List.append_nil])
        | cons d more =>
            obtain rfl : d = '<' := hrest d (by rw [hmore]; rfl)
            exact bracket_not_mem_tail hname htag (by simp)
      · exact hcs tag htag (List.prefix_append tag more).isInfix

theorem rawEnd_append (hname : '<' ∉ name) (hcs : Uncut name cs)
    (hrest : ∀ c ∈ rest.head?, c = '<') : rawEnd name (cs ++ rest) = rawEnd name rest := by
  induction cs with
  | nil => rfl
  | cons c cs ih =>
      have hnone := closingTag?_of_uncut hname hcs (List.cons_ne_nil c cs) hrest
      rw [List.cons_append] at hnone
      rw [List.cons_append, rawEnd, hnone]
      exact ih hcs.of_cons

theorem rawEnd_closing {tag : List Char} (htag : IsClosing name tag) (rest : List Char) :
    rawEnd name (tag ++ rest) = (tag ++ rest, rest) := by
  have hfound := closingTag?_append htag rest
  obtain ⟨cs, rfl⟩ := htag.eq_cons
  rw [List.cons_append] at hfound ⊢
  rw [rawEnd, hfound]

end RawEnd

/-! ## Blocks -/

/-- What may stand in a block of a kind. -/
def Content (kind : BlockKind) (cs : List Char) : Prop :=
  if kind = .template then Nesting cs else Uncut kind.name.toList cs

theorem bracket_not_mem_name {kind : BlockKind} (h : kind.defaultLanguage?.isSome) :
    '<' ∉ kind.name.toList := by
  cases kind with
  | template => decide
  | script => decide
  | style => decide
  | other name => cases h

/-- Where a content may end, the block of a tag ends as if it began there. -/
theorem OpenTag.blockEnd_append {t : OpenTag} {content rest : List Char}
    (hself : t.isSelfClosing = false) (hknown : t.kind.defaultLanguage?.isSome)
    (hcontent : Content t.kind content) (hrest : ∀ c ∈ rest.head?, c = '<')
    (ht : t.rest = content ++ rest) :
    t.blockEnd = if t.kind = .template then templateEnd 0 rest
      else rawEnd t.kind.name.toList rest := by
  rw [blockEnd, if_neg (by simp [hself]), ht]
  rw [Content] at hcontent
  split
  · next hkind =>
      rw [if_pos hkind] at hcontent
      refine (hcontent.nests 0).templateEnd_append ?_
      intro name hname
      cases rest with
      | nil => exact breaks_nil name
      | cons c rest =>
          exact breaks_cons (.inl (hrest c rfl)) (List.mem_append_right _ hname) rest
  · next hkind =>
      rw [if_neg hkind] at hcontent
      exact rawEnd_append (bracket_not_mem_name hknown) hcontent hrest

/-- A block that is closed ends with its closing tag. -/
theorem OpenTag.blockEnd_closed {t : OpenTag} {content closing rest : List Char}
    (hself : t.isSelfClosing = false) (hknown : t.kind.defaultLanguage?.isSome)
    (hcontent : Content t.kind content) (hclosing : IsClosing t.kind.name.toList closing)
    (ht : t.rest = content ++ (closing ++ rest)) : t.blockEnd = (closing ++ rest, rest) := by
  have hbracket : ∀ c ∈ (closing ++ rest).head?, c = '<' := by
    obtain ⟨cs, rfl⟩ := hclosing.eq_cons
    simp
  rw [blockEnd_append hself hknown hcontent hbracket ht]
  split
  · next hkind =>
      rw [hkind] at hclosing
      exact templateEnd_closes_zero hclosing rest
  · exact rawEnd_closing hclosing rest

/-- A block that is not closed ends with the text. -/
theorem OpenTag.blockEnd_unclosed {t : OpenTag} {content : List Char}
    (hself : t.isSelfClosing = false) (hknown : t.kind.defaultLanguage?.isSome)
    (hcontent : Content t.kind content) (ht : t.rest = content) : t.blockEnd = ([], []) := by
  have hempty : t.rest = content ++ [] := by rw [List.append_nil, ht]
  rw [blockEnd_append hself hknown hcontent (by simp) hempty]
  split
  · rw [templateEnd]
  · rw [rawEnd]

end SfcCheck.Region
