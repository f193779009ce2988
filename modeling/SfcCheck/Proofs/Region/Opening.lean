import Mathlib.Data.List.TakeWhile
import SfcCheck.Proofs.Region.Tags
import SfcCheck.Proofs.Results

/-!
# The opening tag of a region

Every region of a component has an opening tag in the text. It stands right before the content, ends
with the first bracket after its name, and gives the region its kind, its language and its
attributes.
-/

namespace SfcCheck.Region

/-! ## What is left of a text -/

theorem afterName?_suffix {name cs after : List Char} (h : afterName? name cs = some after) :
    after <:+ cs := by
  fun_induction afterName? name cs with
  | case1 cs =>
      cases h
      exact List.suffix_rfl
  | case2 n name c cs _ ih => exact (ih h).trans (List.suffix_cons c cs)
  | case3 => cases h
  | case4 => cases h

theorem tagRest?_spec {cs raw rest : List Char} (h : tagRest? cs = some (raw, rest)) :
    cs = raw ++ '>' :: rest ∧ '>' ∉ raw := by
  have hsplit := List.takeWhile_append_dropWhile (p := (· != '>')) (l := cs)
  rw [tagRest?] at h
  cases hdrop : cs.dropWhile (· != '>') with
  | nil =>
      rw [hdrop] at h
      cases h
  | cons c cs' =>
      rw [hdrop] at h
      cases h
      have hc : c = '>' := by
        have hhead := List.head?_dropWhile_not (· != '>') cs
        simpa [hdrop] using hhead
      rw [hdrop, hc] at hsplit
      refine ⟨hsplit.symm, ?_⟩
      intro hmem
      exact absurd (List.mem_takeWhile_imp hmem) (by decide)

/-- A name with what stands behind it up to the end of its tag. -/
theorem namedRest?_spec {name cs raw rest : List Char}
    (h : namedRest? name cs = some (raw, rest)) :
    ∃ written, cs = written ++ (raw ++ '>' :: rest) ∧ Spells written name ∧ '>' ∉ raw := by
  rw [namedRest?] at h
  split at h
  · next after hafter =>
      obtain ⟨written, rfl, hwritten⟩ := spells_of_afterName? hafter
      split at h
      · obtain ⟨rfl, hraw⟩ := tagRest?_spec h
        exact ⟨written, rfl, hwritten, hraw⟩
      · cases h
  · cases h

theorem namedRest?_suffix {name cs raw rest : List Char}
    (h : namedRest? name cs = some (raw, rest)) : rest <:+ cs := by
  obtain ⟨written, rfl, -, -⟩ := namedRest?_spec h
  exact ⟨written ++ (raw ++ ['>']), by simp⟩

theorem templateTag?_suffix {cs rest : List Char} {tag : TemplateTag}
    (h : templateTag? cs = some (tag, rest)) : rest <:+ cs := by
  simp only [templateTag?, Option.bind_eq_bind, Option.bind_eq_some_iff] at h
  obtain ⟨⟨raw, after⟩, hnamed, htag⟩ := h
  cases htag
  have hafter := namedRest?_suffix hnamed
  split at hafter
  · exact hafter.trans (List.drop_suffix 1 cs)
  · exact hafter

theorem templateEnd_suffix (depth : Nat) (cs : List Char) : (templateEnd depth cs).2 <:+ cs := by
  fun_induction templateEnd depth cs with
  | case1 => exact List.suffix_rfl
  | case2 c cs rest h =>
      split at h
      · exact (templateTag?_suffix h).trans (List.suffix_cons c cs)
      · cases h
  | case3 c cs rest h _ ih | case4 _ c cs rest h ih | case5 _ c cs rest h ih =>
      split at h
      · exact ih.trans ((templateTag?_suffix h).trans (List.suffix_cons c cs))
      · cases h
  | case6 _ c cs _ ih => exact ih.trans (List.suffix_cons c cs)

theorem closingTag?_suffix {name cs rest : List Char} (h : closingTag? name cs = some rest) :
    rest <:+ cs := by
  simp only [closingTag?, Option.bind_eq_bind, Option.bind_eq_some_iff] at h
  obtain ⟨after, hafter, h⟩ := h
  have htrim : Text.trimLeft Text.isBlank after <:+ after := List.dropWhile_suffix _
  split at h
  · next rest' hrest =>
      cases h
      rw [hrest] at htrim
      exact (List.suffix_cons _ _).trans (htrim.trans (afterName?_suffix hafter))
  · cases h

theorem rawEnd_suffix (name cs : List Char) : (rawEnd name cs).2 <:+ cs := by
  induction cs with
  | nil => exact List.suffix_rfl
  | cons c cs ih =>
      rw [rawEnd]
      split
      · next rest h => exact closingTag?_suffix h
      · exact ih.trans (List.suffix_cons c cs)

/-- What is left after a block is left after its opening tag as well. -/
theorem OpenTag.blockEnd_suffix (t : OpenTag) : t.blockEnd.2 <:+ t.rest := by
  rw [blockEnd]
  split
  · exact List.suffix_rfl
  · split
    · exact templateEnd_suffix 0 t.rest
    · exact rawEnd_suffix _ t.rest

/-! ## Opening tags -/

/-- The tag with its brackets. -/
def OpenTag.text (t : OpenTag) : List Char := '<' :: (t.name ++ (t.raw ++ ['>']))

/-- A tag of a block stands in a text, and the rest of the text follows it. -/
structure StandsIn (text : List Char) (t : OpenTag) : Prop where
  stands : t.text ++ t.rest <:+ text
  ends : '>' ∉ t.raw
  named : ∃ name ∈ tagNames, Spells t.name name

namespace StandsIn

variable {text cs : List Char} {t : OpenTag}

theorem of_suffix (h : StandsIn cs t) (hsuffix : cs <:+ text) : StandsIn text t :=
  ⟨h.stands.trans hsuffix, h.ends, h.named⟩

theorem rest_suffix (h : StandsIn text t) : t.rest <:+ text :=
  (List.suffix_append _ _).trans h.stands

end StandsIn

/-- A tag that is found stands in the text. -/
theorem findOpenTag?_standsIn {cs : List Char} {t : OpenTag} (h : findOpenTag? cs = some t) :
    StandsIn cs t := by
  induction cs with
  | nil => cases h
  | cons c cs ih =>
      rw [findOpenTag?] at h
      split at h
      · next tag htag =>
          cases h
          split at htag
          · next hc =>
              obtain ⟨name, hname, hnamed⟩ := List.exists_of_findSome?_eq_some htag
              simp only [openTagNamed?, Option.bind_eq_bind, Option.bind_eq_some_iff] at hnamed
              obtain ⟨⟨raw, rest⟩, hrest, ht⟩ := hnamed
              obtain ⟨written, rfl, hwritten, hraw⟩ := namedRest?_spec hrest
              rw [← hwritten.length_eq, List.take_left] at ht
              cases ht
              refine ⟨⟨[], ?_⟩, hraw, name, hname, hwritten⟩
              simp [OpenTag.text, hc]
          · cases htag
      · exact (ih h).of_suffix (List.suffix_cons c cs)

/-- A tag stands in a text right before the content of a region and says what the region is. -/
structure Opens (text : List Char) (t : OpenTag) (r : Region) : Prop where
  stands : t.text ++ t.rest <:+ text
  ends : '>' ∉ t.raw
  start : r.start + t.rest.length = text.length
  kind : r.kind = t.kind
  language : t.language = .ok r.languageId
  attributes : r.attributes = t.attributes

/-- Where a text begins with a bracket and no other one follows up to the content of a region, the
region has no other opening tag than what stands before the content. -/
theorem Opens.text_eq (tag rest : List Char) {t : OpenTag} {r : Region}
    (h : Opens ('<' :: tag ++ rest) t r) (hstart : r.start = tag.length + 1) (hno : '<' ∉ tag) :
    t.text = '<' :: tag ∧ t.rest = rest := by
  obtain ⟨before, hbefore⟩ := h.stands
  rw [← List.append_assoc] at hbefore
  have hlength : t.rest.length = rest.length := by
    have hall := h.start
    rw [hstart, List.length_append, List.length_cons] at hall
    omega
  obtain ⟨htag, hrest⟩ := List.append_inj' hbefore hlength
  refine ⟨?_, hrest⟩
  cases before with
  | nil => exact htag
  | cons c before =>
      -- The tag begins with a bracket, but what follows the first one holds none.
      obtain ⟨-, htag⟩ := List.cons.inj htag
      exact absurd (htag ▸ List.mem_append_right _ List.mem_cons_self) hno

/-! ## Blocks -/

/-- The opening tags of the blocks of a component of which `cs` is left, in order. -/
def tags (cs : List Char) : List OpenTag :=
  match _h : findOpenTag? cs with
  | none => []
  | some t => t :: tags t.blockEnd.2
termination_by cs.length
decreasing_by
  have h1 := length_findOpenTag? _h
  have h2 := t.length_blockEnd
  omega

/-- The region of the block of a tag in a text of a size, if there is a language for it. -/
def OpenTag.region (size : Nat) (t : OpenTag) : Except UnknownBlock Region := do
  let language ← t.language
  return ⟨t.kind, language, size - t.rest.length, size - t.blockEnd.1.length, t.attributes⟩

/-- The blocks make their regions one by one. -/
theorem scan_eq_mapM (size : Nat) (cs : List Char) :
    scan size cs = (tags cs).mapM (OpenTag.region size) := by
  fun_induction scan size cs with
  | case1 cs hnone =>
      rw [tags]
      split
      · rfl
      · next t ht => cases hnone.symm.trans ht
  | case2 cs t ht ih =>
      have htags : tags cs = t :: tags t.blockEnd.2 := by
        rw [tags]
        split
        · next hnone => cases hnone.symm.trans ht
        · next t' ht' =>
            cases ht.symm.trans ht'
            rfl
      rw [htags, List.mapM_cons, ih, OpenTag.region]
      cases t.language <;> rfl

/-- The tags of the blocks stand in the text. -/
theorem standsIn_of_mem_tags {cs : List Char} {t : OpenTag} (h : t ∈ tags cs) : StandsIn cs t := by
  fun_induction tags cs with
  | case1 => cases h
  | case2 cs t' ht' ih =>
      have hfound := findOpenTag?_standsIn ht'
      rcases List.mem_cons.mp h with rfl | h
      · exact hfound
      · exact (ih h).of_suffix (t'.blockEnd_suffix.trans hfound.rest_suffix)

/-- The tag of a block opens the region that it makes. -/
theorem StandsIn.opens {text : List Char} {t : OpenTag} {r : Region} (h : StandsIn text t)
    (hregion : t.region text.length = .ok r) : Opens text t r := by
  obtain ⟨language, hlanguage, hregion⟩ := exists_of_bind_ok hregion
  cases hregion
  have hstart : text.length - t.rest.length + t.rest.length = text.length :=
    Nat.sub_add_cancel h.rest_suffix.length_le
  exact ⟨h.stands, h.ends, hstart, rfl, hlanguage, rfl⟩

/-- A component has one region for each opening tag of a block, in order. -/
theorem forall₂_opens_of_ofText {text : String} {rs : List Region} (h : ofText text = .ok rs) :
    List.Forall₂ (fun t r => StandsIn text.toList t ∧ Opens text.toList t r) (tags text.toList)
      rs := by
  rw [ofText, ← String.length_toList, scan_eq_mapM] at h
  have hregions := (List.forall₂_and_left _ _).mpr
    ⟨fun _ => standsIn_of_mem_tags, forall₂_of_mapM_ok h⟩
  apply hregions.imp
  rintro t r ⟨ht, hr⟩
  exact ⟨ht, ht.opens hr⟩

/-- Every region of a component has an opening tag. -/
theorem exists_opens_of_ofText {text : String} {rs : List Region} (h : ofText text = .ok rs)
    {r : Region} (hr : r ∈ rs) : ∃ t, Opens text.toList t r := by
  obtain ⟨t, -, -, ht⟩ := exists_of_forall₂ (forall₂_opens_of_ofText h) hr
  exact ⟨t, ht⟩

end SfcCheck.Region
