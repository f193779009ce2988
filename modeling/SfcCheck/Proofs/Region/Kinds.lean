import SfcCheck.Proofs.Region.Components
import SfcCheck.Proofs.Region.Opening

/-!
# Kinds of blocks

A tag name is matched with case folding, and its kind is then looked up in lower case. The two ways
to do without case disagree on three letters, which stand for letters of the tag names and stay
apart from them in lower case. A tag with one of them has no known kind: no language is known for
its block, so the document has no regions unless the tag names a language, and the block is not
found under the kind that the tag stands for. All other tags have the kind that they spell.
-/

namespace SfcCheck

namespace BlockKind

/-- The kinds for which a language is known. -/
def known : List BlockKind := [template, script, style]

variable {kind : BlockKind}

theorem mem_known_iff : kind ∈ known ↔ kind.defaultLanguage?.isSome := by
  cases kind <;> simp [known, defaultLanguage?]

theorem name_ofName (s : String) : (ofName s).name = s := by
  unfold ofName
  split_ifs with htemplate hscript hstyle
  · exact htemplate.symm
  · exact hscript.symm
  · exact hstyle.symm
  · rfl

/-- Only its own name has a known kind. -/
theorem ofName_eq_iff (h : kind ∈ known) {s : String} : ofName s = kind ↔ s = kind.name := by
  constructor
  · rintro rfl
    exact (name_ofName s).symm
  · rintro rfl
    exact ofName_name (mem_known_iff.mp h)

end BlockKind

namespace Region

/-! ## Letters -/

/-- The long s, the capital i with a dot and the small i without one. -/
def strayLetters : List Char := ['ſ', 'İ', 'ı']

/-- For any other letter the two ways to do without case agree. -/
theorem foldTagChar_of_not_stray {c : Char} (h : c ∉ strayLetters) :
    foldTagChar c = c.toLower := by
  have hapart : ∀ d ∈ strayLetters, c.toNat ≠ d.toNat := by
    intro d hd heq
    exact h (Char.toNat_inj.mp heq ▸ hd)
  have hlong : c.toNat ≠ 0x17f := hapart 'ſ' (by decide)
  have hdotted : c.toNat ≠ 0x130 := hapart 'İ' (by decide)
  have hdotless : c.toNat ≠ 0x131 := hapart 'ı' (by decide)
  simp [foldTagChar, hlong, hdotted, hdotless]

/-- A stray letter leaves a trace in lower case. -/
theorem exists_mem_lowerChar {c : Char} (h : c ∈ strayLetters) :
    c.toNat ≠ 0x3a3 ∧ ∃ d ∈ Text.lowerChar c, 128 ≤ d.toNat := by
  simp only [strayLetters, List.mem_cons, List.not_mem_nil, or_false] at h
  rcases h with rfl | rfl | rfl
  · exact ⟨by decide, 'ſ', by decide +kernel, by decide⟩
  · exact ⟨by decide, Char.ofNat 0x307, by decide +kernel, by decide⟩
  · exact ⟨by decide, 'ı', by decide +kernel, by decide⟩

theorem lowerCase_of_spells {written name : List Char} (hname : name ∈ tagNames)
    (h : Spells written name) (hstray : ∀ c ∈ written, c ∉ strayLetters) :
    Text.lowerCase written = name := by
  have hfold : ∀ name ∈ tagNames, name.map foldTagChar = name := by decide
  apply Text.lowerCase_of_map_toLower (tagName_ascii hname)
  calc written.map Char.toLower
      = written.map foldTagChar :=
        (List.map_congr_left fun c hc => foldTagChar_of_not_stray (hstray c hc)).symm
    _ = name.map foldTagChar := h
    _ = name := hfold name hname

theorem lowerCase_of_stray {written : List Char} {c : Char} (hc : c ∈ written)
    (hstray : c ∈ strayLetters) : Text.lowerCase written ∉ tagNames := by
  intro hmem
  obtain ⟨hsigma, d, hd, hlarge⟩ := exists_mem_lowerChar hstray
  have hsmall := tagName_ascii hmem d (Text.mem_lowerCase hc hsigma hd)
  omega

/-! ## Tags -/

namespace OpenTag

/-- The name of a tag has a stray letter. -/
def Strays (t : OpenTag) : Prop := ∃ c ∈ t.name, c ∈ strayLetters

instance (t : OpenTag) : Decidable t.Strays := inferInstanceAs (Decidable (∃ c ∈ t.name, _))

/-- A tag names a language. -/
def NamesLanguage (t : OpenTag) : Prop :=
  ∃ language, t.attributes.get? "lang" = some language ∧ language ≠ ""

variable {t : OpenTag} {text : List Char} {kind : BlockKind}

/-- A stray letter of a name stands in the text. -/
theorem Strays.exists_mem (h : t.Strays) (ht : StandsIn text t) :
    ∃ c ∈ text, c ∈ strayLetters := by
  obtain ⟨c, hc, hstray⟩ := h
  have hmem : c ∈ t.text ++ t.rest := by simp [OpenTag.text, hc]
  exact ⟨c, ht.stands.subset hmem, hstray⟩

theorem name_kind : t.kind.name.toList = Text.lowerCase t.name := by
  rw [OpenTag.kind, BlockKind.name_ofName, String.toList_ofList]

theorem kind_eq_iff_lowerCase (hkind : kind ∈ BlockKind.known) :
    t.kind = kind ↔ Text.lowerCase t.name = kind.name.toList := by
  rw [OpenTag.kind, BlockKind.ofName_eq_iff hkind, ← String.toList_inj, String.toList_ofList]

/-- A tag has a known kind if it spells its name without stray letters. -/
theorem kind_eq_iff (ht : StandsIn text t) (hkind : kind ∈ BlockKind.known) :
    t.kind = kind ↔ ¬ t.Strays ∧ Spells t.name kind.name.toList := by
  have hmem : kind.name.toList ∈ tagNames :=
    BlockKind.name_mem_tagNames (BlockKind.mem_known_iff.mp hkind)
  rw [kind_eq_iff_lowerCase hkind]
  constructor
  · intro hlower
    have hstray : ¬ t.Strays := by
      rintro ⟨c, hc, hstray⟩
      exact lowerCase_of_stray hc hstray (hlower ▸ hmem)
    obtain ⟨name, hname, hspells⟩ := ht.named
    have hplain := lowerCase_of_spells hname hspells fun c hc hmem => hstray ⟨c, hc, hmem⟩
    refine ⟨hstray, ?_⟩
    rw [← hlower, hplain]
    exact hspells
  · rintro ⟨hstray, hspells⟩
    exact lowerCase_of_spells hmem hspells fun c hc hmem => hstray ⟨c, hc, hmem⟩

theorem kind_mem_known_iff (ht : StandsIn text t) :
    t.kind ∈ BlockKind.known ↔ ¬ t.Strays := by
  constructor
  · intro hkind
    exact ((kind_eq_iff ht hkind).mp rfl).1
  · intro hstray
    have hnames : ∀ name ∈ tagNames, ∃ kind ∈ BlockKind.known, kind.name.toList = name := by
      decide
    obtain ⟨name, hname, hspells⟩ := ht.named
    obtain ⟨kind, hkind, rfl⟩ := hnames name hname
    rw [(kind_eq_iff ht hkind).mpr ⟨hstray, hspells⟩]
    exact hkind

/-! ### Languages -/

theorem exists_language_of_namesLanguage (h : t.NamesLanguage) :
    ∃ language, t.language = .ok language := by
  obtain ⟨language, hlang, hne⟩ := h
  refine ⟨language, ?_⟩
  simp [OpenTag.language, hlang, hne]

theorem language_of_not_namesLanguage (h : ¬ t.NamesLanguage) :
    t.language = OpenTag.language.fallback t := by
  rw [OpenTag.language]
  split
  · next language hlang =>
      have hempty : language = "" := by
        by_contra hne
        exact h ⟨language, hlang, hne⟩
      rw [hempty]
      rfl
  · rfl

theorem fallback_of_known (h : t.kind ∈ BlockKind.known) :
    ∃ language, OpenTag.language.fallback t = .ok language := by
  obtain ⟨language, hdefault⟩ := Option.isSome_iff_exists.mp (BlockKind.mem_known_iff.mp h)
  refine ⟨language, ?_⟩
  rw [OpenTag.language.fallback, hdefault]

theorem fallback_of_unknown (h : t.kind ∉ BlockKind.known) :
    OpenTag.language.fallback t = .error ⟨String.ofList (Text.lowerCase t.name)⟩ := by
  have hdefault : t.kind.defaultLanguage? = none := by
    rw [BlockKind.mem_known_iff, Option.not_isSome_iff_eq_none] at h
    exact h
  rw [OpenTag.language.fallback, hdefault, ← name_kind, String.ofList_toList]

/-- The name in lower case is what no language is known for. -/
theorem language_of_strays (ht : StandsIn text t) (hstray : t.Strays)
    (hnames : ¬ t.NamesLanguage) :
    t.language = .error ⟨String.ofList (Text.lowerCase t.name)⟩ := by
  have hunknown : t.kind ∉ BlockKind.known := by
    intro hkind
    exact (kind_mem_known_iff ht).mp hkind hstray
  rw [language_of_not_namesLanguage hnames, fallback_of_unknown hunknown]

/-- A tag has a language unless its name has a stray letter and it names none. -/
theorem exists_language_iff (ht : StandsIn text t) :
    (∃ language, t.language = .ok language) ↔ (t.Strays → t.NamesLanguage) := by
  constructor
  · rintro ⟨language, hlanguage⟩ hstray
    by_contra hnames
    cases hlanguage.symm.trans (language_of_strays ht hstray hnames)
  · intro h
    by_cases hnames : t.NamesLanguage
    · exact exists_language_of_namesLanguage hnames
    · have hstray : ¬ t.Strays := fun hstray => hnames (h hstray)
      rw [language_of_not_namesLanguage hnames]
      exact fallback_of_known ((kind_mem_known_iff ht).mpr hstray)

theorem language_eq_error_iff (ht : StandsIn text t) {e : UnknownBlock} :
    t.language = .error e ↔
      t.Strays ∧ ¬ t.NamesLanguage ∧ e = ⟨String.ofList (Text.lowerCase t.name)⟩ := by
  constructor
  · intro h
    have hnone : ¬ ∃ language, t.language = .ok language := by
      rintro ⟨language, hlanguage⟩
      cases h.symm.trans hlanguage
    rw [exists_language_iff ht, Classical.not_imp] at hnone
    obtain ⟨hstray, hnames⟩ := hnone
    cases h.symm.trans (language_of_strays ht hstray hnames)
    exact ⟨hstray, hnames, rfl⟩
  · rintro ⟨hstray, hnames, rfl⟩
    exact language_of_strays ht hstray hnames

theorem exists_region_iff (t : OpenTag) (size : Nat) :
    (∃ r, t.region size = .ok r) ↔ ∃ language, t.language = .ok language := by
  rw [OpenTag.region]
  cases t.language with
  | error e => simp [bind, Except.bind]
  | ok language => simp [bind, Except.bind, pure, Except.pure]

theorem region_eq_error_iff {t : OpenTag} {size : Nat} {e : UnknownBlock} :
    t.region size = .error e ↔ t.language = .error e := by
  rw [OpenTag.region]
  cases t.language with
  | error e' => simp [bind, Except.bind]
  | ok language => simp [bind, Except.bind, pure, Except.pure]

end OpenTag

/-! ## Components -/

section Components

variable {text : String} {rs : List Region}

theorem ofText_eq_mapM (text : String) :
    ofText text = (tags text.toList).mapM (OpenTag.region text.length) :=
  scan_eq_mapM text.length text.toList

/-- A component has regions if each of its tags has a language. -/
theorem exists_ofText_iff (text : String) :
    (∃ rs, ofText text = .ok rs) ↔ ∀ t ∈ tags text.toList, t.Strays → t.NamesLanguage := by
  rw [ofText_eq_mapM, exists_mapM_ok_iff]
  apply forall₂_congr
  intro t ht
  exact (t.exists_region_iff _).trans (OpenTag.exists_language_iff (standsIn_of_mem_tags ht))

/-- The first tag without a language is the one that is reported. -/
theorem ofText_eq_error_iff {e : UnknownBlock} :
    ofText text = .error e ↔ ∃ before t after, tags text.toList = before ++ t :: after ∧
      (∀ t' ∈ before, t'.Strays → t'.NamesLanguage) ∧ t.Strays ∧ ¬ t.NamesLanguage ∧
      e = ⟨String.ofList (Text.lowerCase t.name)⟩ := by
  rw [ofText_eq_mapM, mapM_eq_error_iff]
  apply exists₃_congr
  intro before t after
  apply and_congr_right
  intro hsplit
  have hstands : ∀ t' ∈ before ++ t :: after, StandsIn text.toList t' := by
    rw [← hsplit]
    exact fun _ => standsIn_of_mem_tags
  have hbefore : ∀ t' ∈ before,
      (∃ r, t'.region text.length = .ok r) ↔ (t'.Strays → t'.NamesLanguage) := by
    intro t' ht'
    have ht := hstands t' (List.mem_append_left _ ht')
    exact (t'.exists_region_iff _).trans (OpenTag.exists_language_iff ht)
  have ht : StandsIn text.toList t := hstands t (List.mem_append_right _ (.head _))
  rw [forall₂_congr hbefore, OpenTag.region_eq_error_iff, OpenTag.language_eq_error_iff ht]

/-- The tags open the regions in order, and a region has a known kind if its tag has no stray
letter. -/
theorem forall₂_kinds (h : ofText text = .ok rs) :
    List.Forall₂ (fun t r => Opens text.toList t r ∧ (r.kind ∈ BlockKind.known ↔ ¬ t.Strays))
      (tags text.toList) rs := by
  apply (forall₂_opens_of_ofText h).imp
  rintro t r ⟨ht, hr⟩
  refine ⟨hr, ?_⟩
  rw [hr.kind]
  exact OpenTag.kind_mem_known_iff ht

/-- The regions of a known kind are those of the tags that spell it without stray letters. -/
theorem forall₂_ofKind (h : ofText text = .ok rs) {kind : BlockKind}
    (hkind : kind ∈ BlockKind.known) :
    List.Forall₂ (Opens text.toList)
      ((tags text.toList).filter fun t => ¬ t.Strays ∧ Spells t.name kind.name.toList)
      (ofKind kind rs) := by
  have hspells : ∀ t r, StandsIn text.toList t ∧ Opens text.toList t r →
      (decide (¬ t.Strays ∧ Spells t.name kind.name.toList) = true ↔ (r.kind == kind) = true) := by
    rintro t r ⟨ht, hr⟩
    rw [decide_eq_true_iff, beq_iff_eq, hr.kind]
    exact (OpenTag.kind_eq_iff ht hkind).symm
  have hfiltered := List.rel_filter hspells (forall₂_opens_of_ofText h)
  exact hfiltered.imp fun _ _ hopens => hopens.2

/-- A component without stray letters has regions, and all of them have known kinds. -/
theorem exists_ofText_of_plain (h : ∀ c ∈ text.toList, c ∉ strayLetters) :
    ∃ rs, ofText text = .ok rs ∧ ∀ r ∈ rs, r.kind ∈ BlockKind.known := by
  have hplain : ∀ t ∈ tags text.toList, ¬ t.Strays := by
    intro t ht hstrays
    obtain ⟨c, hc, hstray⟩ := hstrays.exists_mem (standsIn_of_mem_tags ht)
    exact h c hc hstray
  obtain ⟨rs, hrs⟩ := (exists_ofText_iff text).mpr fun t ht hstrays => absurd hstrays (hplain t ht)
  refine ⟨rs, hrs, ?_⟩
  intro r hr
  obtain ⟨t, ht, -, hknown⟩ := exists_of_forall₂ (forall₂_kinds hrs) hr
  exact hknown.mpr (hplain t ht)

end Components

/-! ## Documents -/

/-- The opening tags of the blocks of a document. Only a component has blocks. -/
def blockTags (d : Document) : List OpenTag :=
  if d.languageId = componentLanguage then tags d.text.toList else []

/-- A document has regions just if each of its tags with a stray letter names a language; otherwise
the first tag that does not is reported. The regions of a component are those of its tags, in order:
the ones of tags with a stray letter have no known kind, and under a known kind are found just the
regions of the tags that spell it without stray letters. Any other document is one script. So a
document without stray letters has regions, all of known kinds. -/
theorem ofDocument_kinds (d : Document) :
    ((∃ rs, ofDocument d = .ok rs) ↔ ∀ t ∈ blockTags d, t.Strays → t.NamesLanguage) ∧
    (∀ e, ofDocument d = .error e ↔ ∃ before t after, blockTags d = before ++ t :: after ∧
      (∀ t' ∈ before, t'.Strays → t'.NamesLanguage) ∧ t.Strays ∧ ¬ t.NamesLanguage ∧
      e = ⟨String.ofList (Text.lowerCase t.name)⟩) ∧
    (∀ rs, ofDocument d = .ok rs → d.languageId = componentLanguage →
      List.Forall₂ (fun t r => Opens d.text.toList t r ∧ (r.kind ∈ BlockKind.known ↔ ¬ t.Strays))
        (blockTags d) rs ∧
      ∀ kind ∈ BlockKind.known, List.Forall₂ (Opens d.text.toList)
        ((blockTags d).filter fun t => ¬ t.Strays ∧ Spells t.name kind.name.toList)
        (ofKind kind rs)) ∧
    (d.languageId ≠ componentLanguage →
      ofDocument d = .ok [⟨.script, d.languageId, 0, d.size, []⟩]) ∧
    ((∀ c ∈ d.text.toList, c ∉ strayLetters) →
      ∃ rs, ofDocument d = .ok rs ∧ ∀ r ∈ rs, r.kind ∈ BlockKind.known) := by
  by_cases hlanguage : d.languageId = componentLanguage
  · have hdocument : ofDocument d = ofText d.text := if_pos hlanguage
    have htags : blockTags d = tags d.text.toList := if_pos hlanguage
    rw [hdocument, htags]
    refine ⟨exists_ofText_iff d.text, fun _ => ofText_eq_error_iff, ?_, absurd hlanguage,
      exists_ofText_of_plain⟩
    intro rs hrs _
    exact ⟨forall₂_kinds hrs, fun _ => forall₂_ofKind hrs⟩
  · have hdocument : ofDocument d = .ok [⟨.script, d.languageId, 0, d.size, []⟩] :=
      if_neg hlanguage
    have htags : blockTags d = [] := if_neg hlanguage
    rw [hdocument, htags]
    refine ⟨by simp, ?_, fun _ _ hcomponent => absurd hcomponent hlanguage, fun _ => rfl, ?_⟩
    · intro e
      constructor
      · intro h
        cases h
      · rintro ⟨before, t, after, hsplit, -⟩
        simp at hsplit
    · intro _
      refine ⟨_, rfl, ?_⟩
      simp [BlockKind.known]

/-- A script tag with a long s stops the reading. With a language it makes a region, which is no
script. -/
theorem stray_script :
    ofDocument ⟨"file:///a.vue", "vue", 0, "<ſcript>x</ſcript>"⟩ = .error ⟨"ſcript"⟩ ∧
      ofDocument ⟨"file:///a.vue", "vue", 0, "<ſcript lang=\"ts\">x</ſcript>"⟩ =
        .ok [⟨.other "ſcript", "ts", 18, 19, [("lang", "ts")]⟩] ∧
      ofKind .script [⟨.other "ſcript", "ts", 18, 19, [("lang", "ts")]⟩] = [] := by
  decide +kernel

end Region

end SfcCheck
