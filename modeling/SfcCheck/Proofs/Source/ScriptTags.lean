import Mathlib.Data.List.Infix
import SfcCheck.Proofs.Region.Opening
import SfcCheck.ScriptTag

/-!
# Script tags and script regions

Where only typed sources are checked, a component is kept by the look of its script tags, while its
script regions come from reading the tags. The two agree where a tag is written on one line, in
small letters, and with its language or its source in double quotes right after an equals sign. They
disagree on tags that are written in other ways.
-/

namespace SfcCheck.ScriptTag

/-! ## Texts in order -/

/-- Texts stand in a line one after the other, whatever stands around them. -/
def InOrder : List String → List Char → Prop
  | [], _ => True
  | p :: ps, line => ∃ before rest, line = before ++ (p.toList ++ rest) ∧ InOrder ps rest

section Order

variable {patterns : List String} {line : List Char}

theorem InOrder.append_left (h : InOrder patterns line) (before : List Char) :
    InOrder patterns (before ++ line) := by
  cases patterns with
  | nil => trivial
  | cons p ps =>
      obtain ⟨start, rest, rfl, hrest⟩ := h
      exact ⟨before ++ start, rest, by simp, hrest⟩

theorem InOrder.append_right (h : InOrder patterns line) (after : List Char) :
    InOrder patterns (line ++ after) := by
  induction patterns generalizing line with
  | nil => trivial
  | cons p ps ih =>
      obtain ⟨before, rest, rfl, hrest⟩ := h
      exact ⟨before, rest ++ after, by simp, ih hrest⟩

theorem InOrder.of_infix {piece : List Char} (h : InOrder patterns piece)
    (hpiece : piece <:+: line) : InOrder patterns line := by
  obtain ⟨before, after, rfl⟩ := hpiece
  exact (h.append_left before).append_right after

theorem eq_of_after? {p cs rest : List Char} (h : after? p cs = some rest) :
    ∃ before, cs = before ++ (p ++ rest) := by
  fun_induction after? p cs with
  | case1 hp =>
      cases h
      exact ⟨[], by simpa using hp⟩
  | case2 => cases h
  | case3 c cs hbegins =>
      cases h
      obtain ⟨after, hafter⟩ := List.isPrefixOf_iff_prefix.mp hbegins
      refine ⟨[], ?_⟩
      rw [← hafter, List.drop_left, List.nil_append]
  | case4 c cs _ ih =>
      obtain ⟨before, hbefore⟩ := ih h
      exact ⟨c :: before, by rw [hbefore, List.cons_append]⟩

/-- The first occurrence of a text leaves at least what any other one leaves. -/
theorem exists_after? (before p rest : List Char) :
    ∃ found, after? p (before ++ (p ++ rest)) = some found ∧ rest <:+ found := by
  have hleaves (before : List Char) : rest <:+ (before ++ (p ++ rest)).drop p.length := by
    have hlength : p.length ≤ (before ++ p).length := by
      rw [List.length_append]
      omega
    rw [← List.append_assoc, List.drop_append_of_le_length hlength]
    exact List.suffix_append _ _
  induction before with
  | nil =>
      cases hcs : p ++ rest with
      | nil =>
          obtain ⟨rfl, rfl⟩ := List.append_eq_nil_iff.mp hcs
          exact ⟨[], rfl, List.suffix_rfl⟩
      | cons c cs =>
          have hbegins : p.isPrefixOf (c :: cs) = true :=
            List.isPrefixOf_iff_prefix.mpr ⟨rest, hcs⟩
          have hfound := hleaves []
          rw [List.nil_append, hcs] at hfound
          exact ⟨_, if_pos hbegins, hfound⟩
  | cons b before ih =>
      by_cases hbegins : p.isPrefixOf (b :: (before ++ (p ++ rest))) = true
      · exact ⟨_, if_pos hbegins, hleaves (b :: before)⟩
      · obtain ⟨found, hfound, hsuffix⟩ := ih
        exact ⟨found, (if_neg hbegins).trans hfound, hsuffix⟩

/-- Looking for the first occurrence of each text in turn finds them if they are there. -/
theorem occurInOrder_iff : occurInOrder patterns line = true ↔ InOrder patterns line := by
  induction patterns generalizing line with
  | nil => exact ⟨fun _ => trivial, fun _ => rfl⟩
  | cons p ps ih =>
      rw [occurInOrder]
      constructor
      · intro h
        cases hafter : after? p.toList line with
        | none =>
            rw [hafter] at h
            cases h
        | some rest =>
            rw [hafter] at h
            obtain ⟨before, hline⟩ := eq_of_after? hafter
            exact ⟨before, rest, hline, ih.mp h⟩
      · rintro ⟨before, rest, rfl, hrest⟩
        obtain ⟨found, hfound, hsuffix⟩ := exists_after? before p.toList rest
        rw [hfound]
        exact ih.mpr (hrest.of_infix hsuffix.isInfix)

end Order

/-! ## Lines -/

section Lines

variable {c : Char} {piece text : List Char}

/-- A piece without a separator lies on one side of it. -/
theorem infix_append_cons_iff {left right : List Char} (hpiece : c ∉ piece) :
    piece <:+: left ++ c :: right ↔ piece <:+: left ∨ piece <:+: right := by
  constructor
  · intro h
    rw [List.infix_append_iff, List.infix_cons_iff] at h
    rcases h with hleft | (hbegins | hright) | ⟨front, back, rfl, hfront, hback⟩
    · exact .inl hleft
    · obtain rfl | ⟨rest, rfl, -⟩ := List.prefix_cons_iff.mp hbegins
      · exact .inl (List.nil_infix)
      · exact absurd (.head _) hpiece
    · exact .inr hright
    · obtain rfl | ⟨rest, rfl, -⟩ := List.prefix_cons_iff.mp hback
      · exact .inl (by simpa using hfront.isInfix)
      · exact absurd (List.mem_append_right front (.head _)) hpiece
  · rintro (hleft | hright)
    · exact hleft.trans (List.prefix_append _ _).isInfix
    · exact hright.trans ((List.suffix_cons c right).trans (List.suffix_append left _)).isInfix

theorem infix_intercalate_iff {lines : List (List Char)} (hpiece : c ∉ piece)
    (hlines : lines ≠ []) : piece <:+: [c].intercalate lines ↔ ∃ line ∈ lines, piece <:+: line := by
  induction lines with
  | nil => exact absurd rfl hlines
  | cons line lines ih =>
      cases lines with
      | nil => simp
      | cons next lines =>
          have hjoin : [c].intercalate (line :: next :: lines) =
              line ++ c :: [c].intercalate (next :: lines) := by
            simp [List.intercalate_cons_cons]
          rw [hjoin, infix_append_cons_iff hpiece, ih (List.cons_ne_nil _ _)]
          simp

/-- A piece without a line break lies in one of the lines. -/
theorem infix_iff_exists_line (hpiece : c ∉ piece) :
    piece <:+: text ↔ ∃ line ∈ text.splitOn c, piece <:+: line := by
  rw [← infix_intercalate_iff hpiece (List.splitOn_ne_nil c text), List.intercalate_splitOn]

theorem not_mem_of_mem_splitOn {line : List Char} (h : line ∈ text.splitOn c) : c ∉ line := by
  induction text generalizing line with
  | nil =>
      rw [List.splitOn_nil, List.mem_singleton] at h
      rw [h]
      exact List.not_mem_nil
  | cons d text ih =>
      rw [List.splitOn_cons_eq_if_modifyHead] at h
      split at h
      · rcases List.mem_cons.mp h with rfl | h
        · exact List.not_mem_nil
        · exact ih h
      · next hd =>
          obtain ⟨first, lines, hlines⟩ := List.exists_cons_of_ne_nil (List.splitOn_ne_nil c text)
          rw [hlines, List.modifyHead_cons] at h
          rcases List.mem_cons.mp h with rfl | h
          · intro hmem
            rcases List.mem_cons.mp hmem with rfl | hmem
            · simp at hd
            · exact ih (hlines ▸ .head _) hmem
          · exact ih (hlines ▸ .tail _ h)

end Lines

/-- Texts stand one after the other on one line. -/
def OnOneLine (patterns : List String) (text : List Char) : Prop :=
  ∃ piece, piece <:+: text ∧ '\n' ∉ piece ∧ InOrder patterns piece

theorem someLine_iff {patterns : List String} {src : String} :
    someLine patterns src = true ↔ OnOneLine patterns src.toList := by
  rw [someLine, List.any_eq_true]
  constructor
  · rintro ⟨line, hline, hpatterns⟩
    have hbreak := not_mem_of_mem_splitOn hline
    have hlies := (infix_iff_exists_line hbreak).mpr ⟨line, hline, List.infix_rfl⟩
    exact ⟨line, hlies, hbreak, occurInOrder_iff.mp hpatterns⟩
  · rintro ⟨piece, hlies, hbreak, hpatterns⟩
    obtain ⟨line, hline, hpiece⟩ := (infix_iff_exists_line hbreak).mp hlies
    exact ⟨line, hline, occurInOrder_iff.mpr (hpatterns.of_infix hpiece)⟩

/-! ## What is kept -/

/-- Some line has a script tag. -/
def HasTag (text : String) : Prop := OnOneLine ["<script", ">"] text.toList

/-- Some line has a script tag with a typed language in double quotes. -/
def HasTypedTag (text : String) : Prop :=
  OnOneLine ["<script", "lang=\"ts\"", ">"] text.toList ∨
    OnOneLine ["<script", "lang=\"tsx\"", ">"] text.toList

/-- Some line has a script tag that refers to another file in double quotes. -/
def HasExternalTag (text : String) : Prop :=
  OnOneLine ["<script", "src=\"", "\"", ">"] text.toList

theorem isKept_component_iff {text : String} :
    isKept "vue" text = true ↔ ¬ HasTag text ∨ HasTypedTag text ∨ HasExternalTag text := by
  simp only [HasTag, HasTypedTag, HasExternalTag, ← someLine_iff]
  simp [isKept, isPresent, isTyped, isExternal, Region.componentLanguage, or_assoc]

/-- An attribute is written as its name, an equals sign and its value in double quotes. -/
def Writes (raw : List Char) (name value : String) : Prop :=
  (name ++ "=\"" ++ value ++ "\"").toList <:+: raw

/-- A tag writes out that a region is typed, or that its content is elsewhere. -/
def WritesOut (raw : List Char) (r : Region) : Prop :=
  (r.languageId = "ts" ∨ r.languageId = "tsx") ∧ Writes raw "lang" r.languageId ∨
    ∃ file, r.src? = some file ∧ Writes raw "src" file

/-- A script tag is written on one line and in small letters. -/
structure IsPlain (t : Region.OpenTag) : Prop where
  name : t.name = "script".toList
  oneLine : '\n' ∉ t.raw

section Tags

variable {text : List Char} {t : Region.OpenTag} {r : Region} {value : String}

/-- What stands in order in a plain tag stands on one line behind the name of the tag. -/
theorem IsPlain.onOneLine (h : IsPlain t) (hopens : Region.Opens text t r) {patterns : List String}
    (hpatterns : InOrder patterns (t.raw ++ ['>'])) : OnOneLine ("<script" :: patterns) text := by
  have htext : t.text = [] ++ ("<script".toList ++ (t.raw ++ ['>'])) := by
    rw [Region.OpenTag.text, h.name]
    rfl
  refine ⟨t.text, (List.prefix_append _ _).isInfix.trans hopens.stands.isInfix, ?_, ?_⟩
  · rw [htext]
    simp [h.oneLine]
  · exact ⟨[], _, htext, hpatterns⟩

/-- A plain tag with an attribute written out has it on one line. -/
theorem IsPlain.writes (h : IsPlain t) (hopens : Region.Opens text t r) {name : String}
    (hwrites : Writes t.raw name value) :
    OnOneLine ["<script", name ++ "=\"" ++ value ++ "\"", ">"] text := by
  apply h.onOneLine hopens
  obtain ⟨before, after, hraw⟩ := hwrites
  refine ⟨before, after ++ ['>'], ?_, after, [], rfl, trivial⟩
  rw [← hraw]
  simp

theorem IsPlain.refers (h : IsPlain t) (hopens : Region.Opens text t r)
    (hwrites : Writes t.raw "src" value) :
    OnOneLine ["<script", "src=\"", "\"", ">"] text := by
  apply h.onOneLine hopens
  obtain ⟨before, after, hraw⟩ := hwrites
  refine ⟨before, value.toList ++ ('"' :: (after ++ ['>'])), ?_, value.toList, after ++ ['>'], rfl,
    after, [], rfl, trivial⟩
  rw [← hraw]
  simp

end Tags

/-- A component is kept by the look of its lines. Each of its script regions has an opening tag, and
if that tag is plain and writes out a typed language or another file, the component is kept. -/
theorem isKept_of_writesOut {text : String} {rs : List Region}
    (hparse : Region.ofText text = .ok rs) :
    (isKept "vue" text = true ↔ ¬ HasTag text ∨ HasTypedTag text ∨ HasExternalTag text) ∧
      ∀ r ∈ rs, r.kind = .script → ∃ t, Region.Opens text.toList t r ∧
        (IsPlain t → WritesOut t.raw r → isKept "vue" text = true) := by
  refine ⟨isKept_component_iff, ?_⟩
  intro r hr _
  obtain ⟨t, hopens⟩ := Region.exists_opens_of_ofText hparse hr
  refine ⟨t, hopens, ?_⟩
  intro hplain hwritten
  apply isKept_component_iff.mpr
  apply Or.inr
  rcases hwritten with ⟨hlanguage, hwrites⟩ | ⟨file, -, hwrites⟩
  · apply Or.inl
    have hline := hplain.writes hopens hwrites
    rcases hlanguage with hts | htsx
    · rw [hts] at hline
      exact .inl hline
    · rw [htsx] at hline
      exact .inr hline
  · exact .inr (hplain.refers hopens hwrites)

/-- The name of a tag that makes a script block is not longer than the word. -/
theorem name_of_setup {name raw : List Char} (h : name ++ raw = "script lang=\"ts\" setup".toList)
    (hkind : BlockKind.ofName (String.ofList (Text.lowerCase name)) = .script) :
    name = "script".toList := by
  have htaken : name = "script lang=\"ts\" setup".toList.take name.length := by
    rw [← h, List.take_left]
  have hlength : name.length < 23 := by
    have hle := congrArg List.length h
    rw [List.length_append] at hle
    exact Nat.lt_succ_of_le (Nat.le.intro hle)
  have hall : ∀ k < 23, BlockKind.ofName (String.ofList (Text.lowerCase
      ("script lang=\"ts\" setup".toList.take k))) = .script → k = 6 := by decide +kernel
  rw [htaken] at hkind
  rw [htaken, hall _ hlength hkind]
  rfl

/-- The attributes may stand in any order. -/
theorem isKept_of_writesOut_setup :
    ∃ t, Region.Opens "<script lang=\"ts\" setup>a\n</script>".toList t
        ⟨.script, "ts", 24, 26, [("lang", "ts"), ("setup", "")]⟩ ∧
      IsPlain t ∧ WritesOut t.raw ⟨.script, "ts", 24, 26, [("lang", "ts"), ("setup", "")]⟩ ∧
      isKept "vue" "<script lang=\"ts\" setup>a\n</script>" = true := by
  have hparse : Region.ofText "<script lang=\"ts\" setup>a\n</script>" =
      .ok [⟨.script, "ts", 24, 26, [("lang", "ts"), ("setup", "")]⟩] := by decide +kernel
  obtain ⟨t, hopens, hkept⟩ := (isKept_of_writesOut hparse).2 _ List.mem_cons_self rfl
  obtain ⟨htext, -⟩ := Region.Opens.text_eq "script lang=\"ts\" setup>".toList
    "a\n</script>".toList hopens rfl (by decide)
  obtain ⟨name, raw, rest⟩ := t
  have hsplit : name ++ raw = "script lang=\"ts\" setup".toList := by
    have htail := (List.cons.inj htext).2
    rw [← List.append_assoc] at htail
    exact (List.append_inj' htail rfl).1
  have hname : name = "script".toList := name_of_setup hsplit hopens.kind.symm
  have hraw : raw = " lang=\"ts\" setup".toList := by
    rw [hname] at hsplit
    exact List.append_cancel_left hsplit
  have hbreak : '\n' ∉ raw := by
    rw [hraw]
    decide
  have hplain : IsPlain ⟨name, raw, rest⟩ := ⟨hname, hbreak⟩
  have hwrites : WritesOut raw ⟨.script, "ts", 24, 26, [("lang", "ts"), ("setup", "")]⟩ := by
    rw [hraw]
    exact .inl ⟨.inl rfl, [' '], " setup".toList, rfl⟩
  exact ⟨_, hopens, hplain, hwrites, hkept hplain hwrites⟩

/-- Whether a script region is typed or has its content elsewhere. -/
def hasTypedScript (text : String) : Bool :=
  match Region.ofText text with
  | .ok rs => rs.any fun r =>
      r.kind == .script && (r.languageId == "ts" || r.languageId == "tsx" || r.src?.isSome)
  | .error _ => false

/-- Tags that are written in other ways: with single quotes or without quotes, with blanks around
the equals sign, in capitals, on two lines beside another tag. -/
def unusualTexts : List String :=
  ["<script lang='ts'></script>", "<script lang=ts></script>", "<script lang = \"ts\"></script>",
    "<script LANG=\"tsx\"></script>", "<script src='./a.ts'></script>",
    "<script\nlang=\"ts\"></script><script></script>",
    "<SCRIPT lang=\"ts\"></SCRIPT><script></script>"]

theorem unusualTexts_not_kept :
    (unusualTexts.all fun text => hasTypedScript text && !isKept "vue" text) = true := by
  decide +kernel

end SfcCheck.ScriptTag
