import SfcCheck.Proofs.Document.Position
import SfcCheck.Region
import Mathlib.Data.List.Infix
import Mathlib.Data.List.Pairwise

/-!
# The order of the regions of a document

Regions stand one behind the other, each with at least one character before the next. An offset
therefore lies in one region at most, although the offset just past a content still counts, and
the first region at an offset is the only one.
-/

namespace SfcCheck.Region

/-! ## Ends of blocks -/

/-- The content of a template ends within the text, and the block not before its content. -/
theorem templateEnd_bounds (depth : Nat) (cs : List Char) :
    (templateEnd depth cs).2.length ≤ (templateEnd depth cs).1.length ∧
      (templateEnd depth cs).1.length ≤ cs.length := by
  fun_induction templateEnd depth cs with
  | case1 => simp
  | case2 c cs rest h =>
      refine ⟨?_, Nat.le_refl _⟩
      split at h
      · have := length_templateTag? h
        simp only [List.length_cons]
        omega
      · cases h
  | case3 c cs rest h _ ih | case4 _ c cs rest h ih | case5 _ c cs rest h ih =>
      refine ⟨ih.1, ?_⟩
      split at h
      · have := length_templateTag? h
        simp only [List.length_cons]
        omega
      · cases h
  | case6 _ c cs h ih => exact ⟨ih.1, Nat.le_succ_of_le ih.2⟩

theorem length_closingTag? {name cs rest : List Char} (h : closingTag? name cs = some rest) :
    rest.length ≤ cs.length := by
  simp only [closingTag?, Option.bind_eq_bind, Option.bind_eq_some_iff] at h
  obtain ⟨after, hafter, h⟩ := h
  have h1 := length_afterName? hafter
  have h2 := Attribute.length_trimLeft_le Text.isBlank after
  split at h
  · next r hr =>
      cases h
      rw [hr, List.length_cons] at h2
      omega
  · cases h

/-- The content of any other block ends within the text, and the block not before its content. -/
theorem rawEnd_bounds (name cs : List Char) :
    (rawEnd name cs).2.length ≤ (rawEnd name cs).1.length ∧
      (rawEnd name cs).1.length ≤ cs.length := by
  induction cs with
  | nil => simp [rawEnd]
  | cons c cs ih =>
      simp only [rawEnd]
      split
      · next rest h => exact ⟨length_closingTag? h, Nat.le_refl _⟩
      · exact ⟨ih.1, Nat.le_succ_of_le ih.2⟩

theorem OpenTag.blockEnd_bounds (t : OpenTag) :
    t.blockEnd.2.length ≤ t.blockEnd.1.length ∧ t.blockEnd.1.length ≤ t.rest.length := by
  simp only [blockEnd]
  split
  · exact ⟨Nat.le_refl _, Nat.le_refl _⟩
  · split
    · exact templateEnd_bounds ..
    · exact rawEnd_bounds ..

/-! ## Regions that stand apart -/

/-- Regions in a text of a size, one behind the other with something between them. -/
structure Apart (size : Nat) (rs : List Region) : Prop where
  bounds : ∀ r ∈ rs, r.start ≤ r.stop ∧ r.stop ≤ size
  order : rs.Pairwise fun r r' => r.stop < r'.start

/-- What is scanned lies behind what has been scanned before, and stands apart. -/
theorem scan_apart {size : Nat} {cs : List Char} {rs : List Region} (hsize : cs.length ≤ size)
    (h : scan size cs = .ok rs) :
    Apart size rs ∧ ∀ r ∈ rs, size - cs.length < r.start := by
  fun_induction scan size cs generalizing rs with
  | case1 cs _ =>
      cases h
      exact ⟨⟨by simp, .nil⟩, by simp⟩
  | case2 cs t ht ih =>
      cases hlanguage : t.language with
      | error e => rw [hlanguage] at h; cases h
      | ok language =>
          cases hrest : scan size t.blockEnd.2 with
          | error e => rw [hlanguage, hrest] at h; cases h
          | ok rest =>
              rw [hlanguage, hrest] at h
              cases h
              have hopen := length_findOpenTag? ht
              obtain ⟨hafter, hcontent⟩ := t.blockEnd_bounds
              obtain ⟨⟨hbounds, horder⟩, hbehind⟩ := ih (by omega) hrest
              refine ⟨⟨?_, .cons ?_ horder⟩, ?_⟩
              · intro r hr
                rcases List.mem_cons.mp hr with rfl | hr
                · dsimp only
                  omega
                · exact hbounds r hr
              · intro r hr
                have := hbehind r hr
                dsimp only
                omega
              · intro r hr
                rcases List.mem_cons.mp hr with rfl | hr
                · dsimp only
                  omega
                · have := hbehind r hr
                  omega

/-- The regions of a document stand apart. -/
theorem ofDocument_apart {d : Document} {rs : List Region} (h : ofDocument d = .ok rs) :
    Apart d.size rs := by
  simp only [ofDocument] at h
  split at h
  · exact (scan_apart (Nat.le_of_eq String.length_toList) h).1
  · cases h
    exact ⟨by simp, by simp⟩

theorem mem_of_at? {offset : Nat} {rs : List Region} {r : Region} (h : at? offset rs = some r) :
    r ∈ rs ∧ r.contains offset = true := by
  unfold at? at h
  exact ⟨List.mem_of_find?_eq_some h, by simpa using List.find?_some h⟩

namespace Apart

variable {size offset : Nat} {rs : List Region} {r r' : Region}

/-- Regions that stand apart share no offset, the ends of their contents included. -/
theorem eq_of_contains (h : Apart size rs) (hr : r ∈ rs) (hr' : r' ∈ rs)
    (hoffset : r.contains offset = true) (hoffset' : r'.contains offset = true) : r = r' := by
  simp only [contains, Bool.and_eq_true, decide_eq_true_eq] at hoffset hoffset'
  by_contra hne
  have disjoint : rs.Pairwise fun a b => a.stop < b.start ∨ b.stop < a.start :=
    h.order.imp fun hlt => .inl hlt
  have : Std.Symm fun a b : Region => a.stop < b.start ∨ b.stop < a.start :=
    ⟨fun _ _ hab => hab.symm⟩
  rcases disjoint.forall hr hr' hne with hlt | hlt <;> omega

/-- The first region at an offset is whichever region contains it. -/
theorem at?_eq_some_iff (h : Apart size rs) :
    at? offset rs = some r ↔ r ∈ rs ∧ r.contains offset = true := by
  constructor
  · exact mem_of_at?
  · rintro ⟨hr, hoffset⟩
    cases hat : at? offset rs with
    | none => exact absurd hoffset (by simpa using List.find?_eq_none.mp hat r hr)
    | some r' =>
        obtain ⟨hr', hoffset'⟩ := mem_of_at? hat
        rw [h.eq_of_contains hr' hr hoffset' hoffset]

/-- No offset lies in two regions. -/
theorem countP_contains_le (h : Apart size rs) (offset : Nat) :
    rs.countP (·.contains offset) ≤ 1 := by
  have horder := h.order.filter (·.contains offset)
  have hcontains : ∀ r ∈ rs.filter (·.contains offset), r.start ≤ offset ∧ offset ≤ r.stop := by
    simp [contains]
  rw [List.countP_eq_length_filter]
  generalize rs.filter (·.contains offset) = found at horder hcontains
  match found with
  | [] | [_] => simp
  | r :: r' :: _ =>
      have hlt := (List.pairwise_cons.mp horder).1 r' (.head _)
      have hstop := (hcontains r (.head _)).2
      have hstart := (hcontains r' (.tail _ (.head _))).1
      omega

/-- Each region takes up at least one offset. -/
theorem length_le {k : Nat} (h : Apart size rs) (hbehind : ∀ r ∈ rs, k < r.start) :
    rs.length ≤ size - k := by
  induction rs generalizing k with
  | nil => exact Nat.zero_le _
  | cons r rs ih =>
      obtain ⟨hstart, hstop⟩ := h.bounds r (.head _)
      obtain ⟨horder, hrest⟩ := List.pairwise_cons.mp h.order
      have hlength := ih ⟨fun r hr => h.bounds r (.tail _ hr), hrest⟩ horder
      have hfirst := hbehind r (.head _)
      rw [List.length_cons]
      omega

/-- The kind at an offset is that of a region that contains it. -/
theorem kindAt?_eq_some_iff (h : Apart size rs) {kind : BlockKind} :
    kindAt? offset rs = some kind ↔ ∃ r ∈ rs, r.kind = kind ∧ r.contains offset = true := by
  simp only [kindAt?, Option.map_eq_some_iff, h.at?_eq_some_iff]
  constructor
  · rintro ⟨r, ⟨hr, hoffset⟩, hkind⟩
    exact ⟨r, hr, hkind, hoffset⟩
  · rintro ⟨r, hr, hkind, hoffset⟩
    exact ⟨r, ⟨hr, hoffset⟩, hkind⟩

end Apart

/-- The regions of a component lie in its text, one behind the other with something between them,
so no more of them than the text has characters, and an offset finds the one that contains it. -/
theorem ofText_separates {text : String} {rs : List Region} (h : ofText text = .ok rs) :
    (∀ r ∈ rs, 0 < r.start ∧ r.start ≤ r.stop ∧ r.stop ≤ text.length) ∧
    (rs.Pairwise fun r r' => r.stop < r'.start) ∧
    rs.length ≤ text.length ∧
    ∀ offset, rs.countP (·.contains offset) ≤ 1 ∧
      ∀ r, at? offset rs = some r ↔ r ∈ rs ∧ r.start ≤ offset ∧ offset ≤ r.stop := by
  obtain ⟨hapart, hbehind⟩ := scan_apart (Nat.le_of_eq String.length_toList) h
  have hpos : ∀ r ∈ rs, 0 < r.start := fun r hr => Nat.zero_lt_of_lt (hbehind r hr)
  refine ⟨fun r hr => ⟨hpos r hr, hapart.bounds r hr⟩, hapart.order, hapart.length_le hpos,
    fun offset => ⟨hapart.countP_contains_le offset, fun r => ?_⟩⟩
  rw [hapart.at?_eq_some_iff, contains, Bool.and_eq_true, decide_eq_true_eq, decide_eq_true_eq]

/-- A block without a content, with another one right behind its tag. -/
def adjacentText : String := "<script/><style></style>"

/-- Their regions, each with the offset just behind an opening tag only. -/
def adjacentRegions : List Region :=
  [⟨.script, "javascript", 9, 9, []⟩, ⟨.style, "css", 16, 16, []⟩]

theorem ofText_separates_adjacent :
    (∀ r ∈ adjacentRegions, 0 < r.start ∧ r.start ≤ r.stop ∧ r.stop ≤ adjacentText.length) ∧
    (adjacentRegions.Pairwise fun r r' => r.stop < r'.start) ∧
    adjacentRegions.length ≤ adjacentText.length ∧
    ∀ offset, adjacentRegions.countP (·.contains offset) ≤ 1 ∧
      ∀ r, at? offset adjacentRegions = some r ↔
        r ∈ adjacentRegions ∧ r.start ≤ offset ∧ offset ≤ r.stop :=
  ofText_separates (by decide +kernel)

end SfcCheck.Region
