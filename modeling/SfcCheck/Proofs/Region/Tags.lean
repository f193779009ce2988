import Mathlib.Data.List.Infix
import Mathlib.Data.List.TakeWhile
import SfcCheck.Proofs.Region.Attributes
import SfcCheck.Region

/-!
# Tags as they are written

A tag name counts in letters of any case. Where no tag name stands behind a bracket as a whole word,
a text is passed over, whatever else it holds, provided that what follows does not complete a name.
What is written as a tag is read as that tag, with what stands between its name and its end.
-/

namespace SfcCheck.Region

/-! ## Words -/

theorem isWordChar_of_isBlank {c : Char} (h : Text.isBlank c = true) :
    Text.isWordChar c = false := by
  have hapart : ∀ r ∈ Text.blankRanges, ∀ q ∈ Text.alphanumericRanges,
      r.2 < q.1 ∨ q.2 < r.1 := by decide +kernel
  obtain ⟨r, hr, hr₁, hr₂⟩ := Text.inRanges_iff.mp h
  have halphanumeric : Text.isAlphanumeric c = false := by
    rw [Bool.eq_false_iff]
    intro hc
    obtain ⟨q, hq, hq₁, hq₂⟩ := Text.inRanges_iff.mp hc
    rcases hapart r hr q hq with hlt | hlt <;> omega
  have hunderscore : c ≠ '_' := by
    rintro rfl
    exact absurd h (by decide)
  simp [Text.isWordChar, halphanumeric, hunderscore]

theorem endsWord_bracket (rest : List Char) : endsWord ('>' :: rest) = true := by
  have hbracket : Text.isWordChar '>' = false := by decide +kernel
  simp [endsWord, hbracket]

theorem endsWord_of_blanks {blanks : List Char} (h : ∀ c ∈ blanks, Text.isBlank c = true) :
    endsWord blanks = true := by
  cases blanks with
  | nil => rfl
  | cons c blanks => simp [endsWord, isWordChar_of_isBlank (h c (.head _))]

/-- A word that ends before a text ends there also if more follows. -/
theorem endsWord_append {cs rest : List Char} (h : endsWord cs = true)
    (hrest : endsWord rest = true) : endsWord (cs ++ rest) = true := by
  cases cs with
  | nil => exact hrest
  | cons c cs => exact h

/-! ## Names -/

/-- A name is written in letters of any case. -/
def Spells (written name : List Char) : Prop :=
  written.map foldTagChar = name.map foldTagChar

instance (written name : List Char) : Decidable (Spells written name) :=
  inferInstanceAs (Decidable (_ = _))

theorem foldTagChar_toLower (c : Char) : foldTagChar c.toLower = foldTagChar c := by
  rcases Nat.lt_or_ge c.toNat 128 with hc | hc
  · have hall : ∀ n < 128, foldTagChar (Char.ofNat n).toLower = foldTagChar (Char.ofNat n) := by
      decide
    simpa using hall c.toNat hc
  · rw [Text.toLower_of_not_ascii hc]

/-- Capitals and small letters are as good as each other. -/
theorem spells_of_toLower {written name : List Char} (h : written.map Char.toLower = name) :
    Spells written name := by
  subst h
  simp [Spells, foldTagChar_toLower]

theorem Spells.length_eq {written name : List Char} (h : Spells written name) :
    written.length = name.length := by
  simpa using congrArg List.length h

theorem spells_cons {c n : Char} {written name : List Char} :
    Spells (c :: written) (n :: name) ↔ foldTagChar c = foldTagChar n ∧ Spells written name := by
  simp [Spells]

theorem afterName?_append {written name : List Char} (h : Spells written name)
    (rest : List Char) : afterName? name (written ++ rest) = some rest := by
  induction written generalizing name with
  | nil =>
      obtain rfl : name = [] := by simpa using h.length_eq.symm
      rfl
  | cons c written ih =>
      obtain ⟨n, name, rfl⟩ := List.exists_cons_of_length_eq_add_one h.length_eq.symm
      obtain ⟨hc, hwritten⟩ := spells_cons.mp h
      rw [List.cons_append, afterName?, if_pos hc.symm]
      exact ih hwritten

/-- What stands before the rest of a text is the name. -/
theorem spells_of_afterName? {name cs after : List Char} (h : afterName? name cs = some after) :
    ∃ written, cs = written ++ after ∧ Spells written name := by
  fun_induction afterName? name cs with
  | case1 cs =>
      cases h
      exact ⟨[], rfl, rfl⟩
  | case2 n name c cs hfold ih =>
      obtain ⟨written, rfl, hwritten⟩ := ih h
      exact ⟨c :: written, rfl, spells_cons.mpr ⟨hfold.symm, hwritten⟩⟩
  | case3 => cases h
  | case4 => cases h

/-! ## Texts without tags -/

/-- A name stands at the start of a text, and a word ends behind it. -/
def IsWord (name cs : List Char) : Prop :=
  Spells (cs.take name.length) name ∧ endsWord (cs.drop name.length) = true

instance (name cs : List Char) : Decidable (IsWord name cs) := inferInstanceAs (Decidable (_ ∧ _))

theorem isWord_append {written name rest : List Char} (h : Spells written name)
    (hrest : endsWord rest = true) : IsWord name (written ++ rest) := by
  rw [IsWord, ← h.length_eq, List.take_left, List.drop_left]
  exact ⟨h, hrest⟩

theorem isWord_cons {n c : Char} {name cs : List Char} :
    IsWord (n :: name) (c :: cs) ↔ foldTagChar c = foldTagChar n ∧ IsWord name cs := by
  simp [IsWord, spells_cons, and_assoc]

/-- One of some names stands behind a bracket, as a whole word. -/
def Mentions (names : List (List Char)) (text : List Char) : Prop :=
  ∃ cs ∈ text.tails, cs.head? = some '<' ∧ ∃ name ∈ names, IsWord name cs.tail

instance (names : List (List Char)) (text : List Char) : Decidable (Mentions names text) :=
  inferInstanceAs (Decidable (∃ cs ∈ text.tails, _))

theorem mentions_cons {names : List (List Char)} {c : Char} {cs : List Char} :
    Mentions names (c :: cs) ↔
      (c = '<' ∧ ∃ name ∈ names, IsWord name cs) ∨ Mentions names cs := by
  simp [Mentions]

/-- A text does not go on with a letter of a name. -/
def Breaks (name rest : List Char) : Prop :=
  ∀ c ∈ rest.head?, ∀ n ∈ name, foldTagChar c ≠ foldTagChar n

/-- A name that stands in two texts together stands in the first one alone, unless the second one
goes on with one of its letters. -/
theorem IsWord.of_append {name cs rest : List Char} (h : IsWord name (cs ++ rest))
    (hrest : Breaks name rest) : IsWord name cs := by
  induction name generalizing cs with
  | nil =>
      cases cs with
      | nil => exact ⟨rfl, rfl⟩
      | cons c cs => exact h
  | cons n name ih =>
      have hname : Breaks name rest := fun c hc m hm => hrest c hc m (.tail _ hm)
      cases cs with
      | nil =>
          cases rest with
          | nil => exact h
          | cons c rest => exact absurd (isWord_cons.mp h).1 (hrest c rfl n (.head _))
      | cons c cs =>
          obtain ⟨hc, hword⟩ := isWord_cons.mp h
          exact isWord_cons.mpr ⟨hc, ih hword hname⟩

/-- What passes over characters behind which no name stands passes over a text that mentions
none. -/
theorem passes_of_not_mentions {α : Type} {f : List Char → α} {names : List (List Char)}
    {text rest : List Char}
    (hstep : ∀ c cs, (c = '<' → ∀ name ∈ names, ¬ IsWord name cs) → f (c :: cs) = f cs)
    (htext : ¬ Mentions names text) (hrest : ∀ name ∈ names, Breaks name rest) :
    f (text ++ rest) = f rest := by
  induction text with
  | nil => rfl
  | cons c text ih =>
      rw [mentions_cons, not_or] at htext
      rw [List.cons_append, hstep c (text ++ rest) ?_, ih htext.2]
      intro hc name hname hword
      exact htext.1 ⟨hc, name, hname, hword.of_append (hrest name hname)⟩

/-- Two texts that mention no name mention none together, unless the second one completes a name. -/
theorem not_mentions_append {names : List (List Char)} {text rest : List Char}
    (htext : ¬ Mentions names text) (hrest : ¬ Mentions names rest)
    (hbreaks : ∀ name ∈ names, Breaks name rest) : ¬ Mentions names (text ++ rest) := by
  induction text with
  | nil => exact hrest
  | cons c text ih =>
      rw [mentions_cons, not_or] at htext
      rw [List.cons_append, mentions_cons, not_or]
      refine ⟨?_, ih htext.2⟩
      rintro ⟨hc, name, hname, hword⟩
      exact htext.1 ⟨hc, name, hname, hword.of_append (hbreaks name hname)⟩

theorem Mentions.append_left {names : List (List Char)} {rest : List Char}
    (h : Mentions names rest) (text : List Char) : Mentions names (text ++ rest) := by
  induction text with
  | nil => exact h
  | cons c text ih => exact mentions_cons.mpr (.inr ih)

/-- Behind every bracket of a text stands a character with which none of the names begins. -/
def Harmless (names : List (List Char)) (text : List Char) : Prop :=
  ∀ cs ∈ text.tails, cs.head? = some '<' → cs.tail ≠ [] ∧ ∀ name ∈ names,
    name ≠ [] ∧ cs.tail.head?.map foldTagChar ≠ name.head?.map foldTagChar

instance (names : List (List Char)) (text : List Char) : Decidable (Harmless names text) :=
  inferInstanceAs (Decidable (∀ cs ∈ text.tails, _))

theorem mentions_append_of_harmless {names : List (List Char)} {text rest : List Char}
    (h : Harmless names text) : Mentions names (text ++ rest) ↔ Mentions names rest := by
  induction text with
  | nil => rfl
  | cons c text ih =>
      have htail : Harmless names text := by
        intro cs hcs
        exact h cs (by simp [hcs])
      rw [List.cons_append, mentions_cons, ih htail, or_iff_right]
      rintro ⟨rfl, name, hname, hword⟩
      obtain ⟨hne, hnames⟩ := h ('<' :: text) (by simp) rfl
      obtain ⟨hname_ne, hfold⟩ := hnames name hname
      obtain ⟨d, text, rfl⟩ := List.exists_cons_of_ne_nil hne
      obtain ⟨n, name, rfl⟩ := List.exists_cons_of_ne_nil hname_ne
      exact hfold (congrArg some (isWord_cons.mp hword).1)

/-! ## What stands between a name and the end of its tag -/

theorem tagRest?_append {raw : List Char} (h : '>' ∉ raw) (rest : List Char) :
    tagRest? (raw ++ '>' :: rest) = some (raw, rest) := by
  have hraw : ∀ c ∈ raw, (c != '>') = true := by
    intro c hc
    simpa using fun heq : c = '>' => h (heq ▸ hc)
  have hbracket : ∀ c ∈ ('>' :: rest).head?, (c != '>') = false := by simp
  rw [tagRest?, Text.dropWhile_append_of_boundary hraw hbracket,
    Text.takeWhile_append_of_boundary hraw hbracket]

theorem namedRest?_append {written name raw : List Char} (h : Spells written name)
    (hend : endsWord raw = true) (hraw : '>' ∉ raw) (rest : List Char) :
    namedRest? name (written ++ (raw ++ '>' :: rest)) = some (raw, rest) := by
  have hword : endsWord (raw ++ '>' :: rest) = true :=
    endsWord_append hend (endsWord_bracket rest)
  rw [namedRest?, afterName?_append h]
  dsimp only
  rw [if_pos hword, tagRest?_append hraw]

theorem namedRest?_of_not_isWord {name cs : List Char} (h : ¬ IsWord name cs) :
    namedRest? name cs = none := by
  rw [namedRest?]
  split
  · next after hafter =>
      obtain ⟨written, rfl, hwritten⟩ := spells_of_afterName? hafter
      exact if_neg fun hend => h (isWord_append hwritten hend)
  · rfl

/-! ## Opening tags of blocks -/

theorem openTag?_of_not_isWord {cs : List Char} (h : ∀ name ∈ tagNames, ¬ IsWord name cs) :
    openTag? cs = none := by
  rw [openTag?, List.findSome?_eq_none_iff]
  intro name hname
  rw [openTagNamed?, namedRest?_of_not_isWord (h name hname)]
  rfl

theorem findOpenTag?_of_not_isWord {c : Char} {cs : List Char}
    (h : c = '<' → ∀ name ∈ tagNames, ¬ IsWord name cs) :
    findOpenTag? (c :: cs) = findOpenTag? cs := by
  have hnone : (if c = '<' then openTag? cs else none) = none := by
    split
    · next hc => exact openTag?_of_not_isWord (h hc)
    · rfl
  rw [findOpenTag?, hnone]

theorem tagName_ascii {name : List Char} (h : name ∈ tagNames) : ∀ c ∈ name, c.toNat < 128 := by
  have hsizes : ∀ name ∈ tagNames, ∀ n ∈ name.map Char.toNat, n < 128 := by decide
  intro c hc
  exact hsizes name h c.toNat (List.mem_map_of_mem hc)

/-- No tag name is the beginning of another one. -/
theorem tagName_prefixFree : ∀ name ∈ tagNames, ∀ other ∈ tagNames,
    other.map foldTagChar <+: name.map foldTagChar → other = name := by decide

/-- At most one tag name stands at the start of a text. -/
theorem tagName_unique {name other written cs : List Char} (hname : name ∈ tagNames)
    (hother : other ∈ tagNames) (h : Spells written name) (hword : IsWord other (written ++ cs)) :
    other = name := by
  have hprefix : (written ++ cs).take other.length <+: written ++ cs := List.take_prefix _ _
  rcases List.prefix_or_prefix_of_prefix hprefix (List.prefix_append written cs) with hshort | hlong
  · have hfold := hshort.map foldTagChar
    rw [hword.1, h] at hfold
    exact tagName_prefixFree name hname other hother hfold
  · have hfold := hlong.map foldTagChar
    rw [hword.1, h] at hfold
    exact (tagName_prefixFree other hother name hname hfold).symm

/-- An opening tag is read as it is written. -/
theorem openTag?_append {written name raw : List Char} (hname : name ∈ tagNames)
    (h : Spells written name) (hend : endsWord raw = true) (hraw : '>' ∉ raw) (rest : List Char) :
    openTag? (written ++ (raw ++ '>' :: rest)) = some ⟨written, raw, rest⟩ := by
  have hfound : openTagNamed? name (written ++ (raw ++ '>' :: rest)) =
      some ⟨written, raw, rest⟩ := by
    rw [openTagNamed?, namedRest?_append h hend hraw]
    simp [← h.length_eq]
  obtain ⟨before, after, hsplit, hfirst⟩ := List.eq_append_cons_of_mem hname
  rw [openTag?, List.findSome?_eq_some_iff]
  refine ⟨before, name, after, hsplit, hfound, ?_⟩
  intro other hother
  have hmem : other ∈ tagNames := by rw [hsplit]; exact List.mem_append_left _ hother
  have hnot : ¬ IsWord other (written ++ (raw ++ '>' :: rest)) := by
    intro hword
    exact hfirst (tagName_unique hname hmem h hword ▸ hother)
  rw [openTagNamed?, namedRest?_of_not_isWord hnot]
  rfl

/-! ## Closing tags -/

/-- A closing tag with a name, as it is written. Blanks may stand before its end. -/
def IsClosing (name tag : List Char) : Prop :=
  ∃ written gap, tag = '<' :: '/' :: (written ++ (gap ++ ['>'])) ∧ Spells written name ∧
    ∀ c ∈ gap, Text.isBlank c = true

/-- A closing tag of a template. -/
def templateClosing : List Char := "</template>".toList

theorem templateClosing_isClosing : IsClosing "template".toList templateClosing :=
  ⟨"template".toList, [], rfl, rfl, by simp⟩

theorem bracket_not_mem_of_blank {gap : List Char} (h : ∀ c ∈ gap, Text.isBlank c = true) :
    '>' ∉ gap := by
  intro hmem
  exact absurd (h '>' hmem) (by decide)

theorem closingTag?_append {name tag : List Char} (h : IsClosing name tag) (rest : List Char) :
    closingTag? name (tag ++ rest) = some rest := by
  obtain ⟨written, gap, rfl, hwritten, hgap⟩ := h
  have hspells : Spells ('<' :: '/' :: written) ('<' :: '/' :: name) :=
    spells_cons.mpr ⟨rfl, spells_cons.mpr ⟨rfl, hwritten⟩⟩
  have hlist : '<' :: '/' :: (written ++ (gap ++ ['>'])) ++ rest =
      '<' :: '/' :: written ++ (gap ++ '>' :: rest) := by simp
  have htrim : Text.trimLeft Text.isBlank (gap ++ '>' :: rest) = '>' :: rest := by
    rw [Text.trimLeft_append hgap, Text.trimLeft_of_head (by decide)]
  rw [hlist, closingTag?, afterName?_append hspells]
  simp only [Option.bind_eq_bind, Option.bind_some, htrim]

/-- Brackets and slashes have no case. -/
theorem eq_of_foldTagChar {c d : Char} (hd : d = '<' ∨ d = '/')
    (h : foldTagChar c = foldTagChar d) : c = d := by
  rcases Nat.lt_or_ge c.toNat 128 with hc | hc
  · have hbracket : ∀ n < 128, foldTagChar (Char.ofNat n) = foldTagChar '<' →
        Char.ofNat n = '<' := by decide
    have hslash : ∀ n < 128, foldTagChar (Char.ofNat n) = foldTagChar '/' →
        Char.ofNat n = '/' := by decide
    have hchar := Char.ofNat_toNat c
    rcases hd with rfl | rfl
    · exact hchar ▸ hbracket c.toNat hc (hchar.symm ▸ h)
    · exact hchar ▸ hslash c.toNat hc (hchar.symm ▸ h)
  · have hfold : foldTagChar c ≠ '<' ∧ foldTagChar c ≠ '/' := by
      rw [foldTagChar, Text.toLower_of_not_ascii hc]
      refine ⟨?_, ?_⟩
      all_goals
        split_ifs
        · decide
        · decide
        · rintro rfl
          exact absurd hc (by decide)
    rcases hd with rfl | rfl
    · exact absurd h hfold.1
    · exact absurd h hfold.2

/-- What is taken for a closing tag is one. -/
theorem isClosing_of_closingTag? {name cs rest : List Char} (h : closingTag? name cs = some rest) :
    ∃ tag, cs = tag ++ rest ∧ IsClosing name tag := by
  simp only [closingTag?, Option.bind_eq_bind, Option.bind_eq_some_iff] at h
  obtain ⟨after, hafter, h⟩ := h
  obtain ⟨written, rfl, hwritten⟩ := spells_of_afterName? hafter
  have hsplit := List.takeWhile_append_dropWhile (p := Text.isBlank) (l := after)
  split at h
  · next r hr =>
      cases h
      rw [Text.trimLeft] at hr
      rw [hr] at hsplit
      obtain ⟨c, written, rfl⟩ := List.exists_cons_of_length_eq_add_one hwritten.length_eq
      obtain ⟨hc, htail⟩ := spells_cons.mp hwritten
      obtain ⟨d, written, rfl⟩ := List.exists_cons_of_length_eq_add_one htail.length_eq
      obtain ⟨hd, hname⟩ := spells_cons.mp htail
      obtain rfl : c = '<' := eq_of_foldTagChar (.inl rfl) hc
      obtain rfl : d = '/' := eq_of_foldTagChar (.inr rfl) hd
      have hblank : ∀ e ∈ after.takeWhile Text.isBlank, Text.isBlank e = true :=
        fun e he => List.mem_takeWhile_imp he
      refine ⟨_, ?_, written, after.takeWhile Text.isBlank, rfl, hname, hblank⟩
      simp [hsplit]
  · cases h

/-! ## Template tags -/

/-- The names of the tags that count in a template: the opening and the closing one. -/
def templateNames : List (List Char) := ["template".toList, "/template".toList]

theorem templateTag?_of_not_isWord {cs : List Char} (h : ∀ name ∈ templateNames, ¬ IsWord name cs) :
    templateTag? cs = none := by
  have hopens : ¬ IsWord "template".toList cs := h _ (by decide)
  have hcloses : ¬ IsWord "/template".toList cs := h _ (by decide)
  have hnone : namedRest? "template".toList
      (if (cs.head? == some '/') = true then cs.drop 1 else cs) = none := by
    split
    · next hslash =>
        obtain ⟨cs, rfl⟩ : ∃ cs', cs = '/' :: cs' := by
          cases cs with
          | nil => simp at hslash
          | cons c cs => exact ⟨cs, by simpa using hslash⟩
        exact namedRest?_of_not_isWord fun hword => hcloses (isWord_cons.mpr ⟨rfl, hword⟩)
    · exact namedRest?_of_not_isWord hopens
  rw [templateTag?]
  dsimp only
  rw [hnone]
  rfl

theorem templateEnd_of_not_isWord {depth : Nat} {c : Char} {cs : List Char}
    (h : c = '<' → ∀ name ∈ templateNames, ¬ IsWord name cs) :
    templateEnd depth (c :: cs) = templateEnd depth cs := by
  have hnone : (if c = '<' then templateTag? cs else none) = none := by
    split
    · next hc => exact templateTag?_of_not_isWord (h hc)
    · rfl
  rw [templateEnd]
  split
  all_goals simp_all

/-- An opening tag of a template inside another one, as it is written. -/
def OpensTemplate (tag : List Char) : Prop :=
  ∃ written raw, tag = '<' :: (written ++ (raw ++ ['>'])) ∧ Spells written "template".toList ∧
    endsWord raw = true ∧ '>' ∉ raw ∧ raw.getLast? ≠ some '/'

/-- A template without a content inside another one, as it is written. -/
def IsEmptyTemplate (tag : List Char) : Prop :=
  ∃ written raw, tag = '<' :: (written ++ (raw ++ ['/', '>'])) ∧
    Spells written "template".toList ∧ endsWord raw = true ∧ '>' ∉ raw

/-- A tag name does not begin with a slash. -/
theorem head?_ne_slash {written rest : List Char} (h : Spells written "template".toList) :
    (written ++ rest).head? ≠ some '/' := by
  cases written with
  | nil => exact absurd h.length_eq (by decide)
  | cons c written =>
      intro hc
      obtain rfl : c = '/' := by simpa using hc
      exact absurd (spells_cons.mp h).1 (by decide)

theorem templateTag?_opens {written raw : List Char} (h : Spells written "template".toList)
    (hend : endsWord raw = true) (hraw : '>' ∉ raw) (rest : List Char) :
    templateTag? (written ++ (raw ++ '>' :: rest)) =
      some (if raw.getLast? == some '/' then .selfClosing else .opens, rest) := by
  have hslash : ¬ ((written ++ (raw ++ '>' :: rest)).head? == some '/') = true := by
    simpa only [beq_iff_eq] using head?_ne_slash h
  rw [templateTag?]
  dsimp only
  rw [if_neg hslash, namedRest?_append h hend hraw]
  simp only [Option.bind_eq_bind, Option.bind_some, if_neg hslash]
  rfl

theorem templateTag?_closes {written gap rest : List Char} (h : Spells written "template".toList)
    (hgap : ∀ c ∈ gap, Text.isBlank c = true) :
    templateTag? ('/' :: (written ++ (gap ++ '>' :: rest))) = some (.closes, rest) := by
  have hread := namedRest?_append h (endsWord_of_blanks hgap) (bracket_not_mem_of_blank hgap) rest
  have hslash : (('/' :: (written ++ (gap ++ '>' :: rest))).head? == some '/') = true := rfl
  rw [templateTag?]
  dsimp only
  rw [if_pos hslash, List.drop_one, List.tail_cons, hread]
  rfl

end SfcCheck.Region
