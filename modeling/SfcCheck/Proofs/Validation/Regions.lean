import SfcCheck.Proofs.Attempt
import SfcCheck.Proofs.ModelCache.Transparent
import SfcCheck.Proofs.Region.Order
import SfcCheck.Validation
import Mathlib.Control.Monad.Basic

/-!
# Which diagnostics a validation reports

A validation reports the diagnostics that start in a template and then those that start in a
script, each in the order in which the reporter gave them. The two cannot overlap, what starts in a
style or between blocks is nobody's, and of a document that is one script nothing is lost. The
shared cache has no influence on this.
-/

namespace SfcCheck.Validation

variable {γ ε : Type}

/-- A diagnostic starts in some region of a kind. The offset just past a content counts. -/
def StartsInSome (kind : BlockKind) (d : Document) (rs : List Region) (x : Diagnostic) : Prop :=
  ∃ r ∈ rs, r.kind = kind ∧ r.start ≤ d.offsetAt x.span.start ∧ d.offsetAt x.span.start ≤ r.stop

instance (kind : BlockKind) (d : Document) (rs : List Region) (x : Diagnostic) :
    Decidable (StartsInSome kind d rs x) :=
  inferInstanceAs (Decidable (∃ r ∈ rs, r.kind = kind ∧
    r.start ≤ d.offsetAt x.span.start ∧ d.offsetAt x.span.start ≤ r.stop))

/-! ## Kinds -/

section Kinds

variable {d : Document} {rs : List Region} {kind kind' : BlockKind} {x : Diagnostic}

theorem startsIn_iff (hregions : Region.ofDocument d = .ok rs) :
    startsIn kind d rs x = true ↔ StartsInSome kind d rs x := by
  simp only [startsIn, beq_iff_eq, (Region.ofDocument_apart hregions).kindAt?_eq_some_iff,
    Region.contains, Bool.and_eq_true, decide_eq_true_eq, StartsInSome]

theorem filter_startsIn (hregions : Region.ofDocument d = .ok rs) (ds : List Diagnostic) :
    ds.filter (startsIn kind d rs) = ds.filter (StartsInSome kind d rs ·) := by
  refine List.filter_congr fun x _ => ?_
  rw [Bool.eq_iff_iff, startsIn_iff hregions, decide_eq_true_iff]

/-- A diagnostic starts in regions of one kind at most. -/
theorem StartsInSome.eq (hregions : Region.ofDocument d = .ok rs)
    (h : StartsInSome kind d rs x) (h' : StartsInSome kind' d rs x) : kind = kind' := by
  have hkind := (startsIn_iff hregions).mpr h
  have hkind' := (startsIn_iff hregions).mpr h'
  simp only [startsIn, beq_iff_eq] at hkind hkind'
  exact Option.some.inj (hkind.symm.trans hkind')

/-- Without a region of a kind nothing starts in one. -/
theorem not_startsInSome (h : (Region.ofKind kind rs).isEmpty = true) :
    ¬ StartsInSome kind d rs x := by
  rintro ⟨r, hr, hkind, -⟩
  rw [List.isEmpty_iff] at h
  have hmem : r ∈ Region.ofKind kind rs := List.mem_filter.mpr ⟨hr, by simp [hkind]⟩
  rw [h] at hmem
  cases hmem

/-- Between regions nothing starts in one. -/
theorem not_startsInSome_of_outside
    (h : ∀ r ∈ rs, r.contains (d.offsetAt x.span.start) = false) : ¬ StartsInSome kind d rs x := by
  rintro ⟨r, hr, -, hstart, hstop⟩
  have houtside := h r hr
  simp [Region.contains, hstart, hstop] at houtside

/-- In a document that is no component everything starts in the script. -/
theorem startsInSome_script (hlanguage : d.languageId ≠ Region.componentLanguage)
    (hregions : Region.ofDocument d = .ok rs) : StartsInSome .script d rs x := by
  rw [Region.ofDocument, if_neg hlanguage] at hregions
  cases hregions
  exact ⟨_, .head _, rfl, Nat.zero_le _, d.offsetAt_le_size _⟩

end Kinds

/-! ## Steps -/

/-- The cache of a validation holds models of documents only, and can hold one. -/
structure Serves (docs : List Document) (v : Validation γ) : Prop where
  holds : v.regions.Holds Region.ofDocument docs
  room : 1 ≤ v.regions.maxEntries
  alive : v.regions.disposed = false

section Steps

variable {reporter : Reporter γ ε} {d : Document} {rs : List Region} {ds : List Diagnostic}
variable {docs : List Document} {v : Validation γ} {g : γ}

theorem regionsOf_eq (hv : Serves docs v) (hagree : Document.Agree (d :: docs))
    (hregions : Region.ofDocument d = .ok rs) :
    ∃ v', regionsOf d v = ((.ok rs : Except (Failure ε) _), v') ∧ v'.reporter = v.reporter ∧
      Serves (d :: docs) v' := by
  have hget := hv.holds.get_eq (v.clock v.readings) hagree hv.room hv.alive
  rw [hregions] at hget
  refine ⟨_, Prod.ext ?_ rfl, rfl, hv.holds.get, ?_, ?_⟩
  · simp only [regionsOf, hget]
    rfl
  · simpa [regionsOf] using hv.room
  · simpa [regionsOf] using hv.alive

/-- The diagnostics of one kind: the reporter is asked if there is a region of the kind. -/
theorem ofKind_eq (kind : BlockKind) (hv : Serves docs v) (hagree : Document.Agree (d :: docs))
    (hregions : Region.ofDocument d = .ok rs) (hask : reporter d v.reporter = (.ok ds, g)) :
    ∃ v', ofKind reporter kind d v = (.ok (ds.filter (StartsInSome kind d rs ·)), v') ∧
      (v'.reporter = v.reporter ∨ v'.reporter = g) ∧ Serves (d :: docs) v' := by
  obtain ⟨v₁, hget, hreporter, hserves⟩ := regionsOf_eq (ε := ε) hv hagree hregions
  rw [ofKind, Attempt.bind_ok hget]
  split
  · next hempty =>
      refine ⟨v₁, ?_, .inl hreporter, hserves⟩
      rw [List.filter_eq_nil_iff.mpr fun x _ => by simpa using not_startsInSome hempty]
      rfl
  · rw [← hreporter] at hask
    have hasked : ask reporter d v₁ = (.ok ds, { v₁ with reporter := g }) := by
      simp only [ask, hask]
      rfl
    rw [Attempt.bind_ok hasked, filter_startsIn hregions]
    exact ⟨_, rfl, .inr rfl, ⟨hserves.holds, hserves.room, hserves.alive⟩⟩

/-- The diagnostics of templates: the reporter is asked on behalf of components only. -/
theorem template_eq (hv : Serves docs v) (hagree : Document.Agree (d :: docs))
    (hregions : Region.ofDocument d = .ok rs) (hask : reporter d v.reporter = (.ok ds, g)) :
    ∃ v', template reporter d v =
        (.ok (if d.languageId = Region.componentLanguage
          then ds.filter (StartsInSome .template d rs ·) else []), v') ∧
      (v'.reporter = v.reporter ∨ v'.reporter = g) ∧
        ∃ docs', Serves docs' v' ∧ Document.Agree (d :: docs') := by
  by_cases hlanguage : d.languageId = Region.componentLanguage
  · obtain ⟨v', heq, hreporter, hserves⟩ := ofKind_eq .template hv hagree hregions hask
    refine ⟨v', ?_, hreporter, _, hserves, hagree.of_subset (by simp)⟩
    rw [template, if_pos hlanguage, if_pos hlanguage, heq]
  · refine ⟨v, ?_, .inl rfl, docs, hv, hagree⟩
    rw [template, if_neg hlanguage, if_neg hlanguage]
    rfl

end Steps

/-! ## Documents -/

/-- After any accesses to a cache with room for an entry, a validation reports the diagnostics that
start in a template of a component, then those that start in a script. -/
theorem validate_partitions {reporter : Reporter γ ε} {withScript : Bool} {d : Document}
    {rs : List Region} {ds : List Diagnostic} {v : Validation γ} {g g' : γ} {maxEntries : Int}
    {interval : Float} {visits : List (Float × Document)} (hmax : 1 ≤ maxEntries)
    (hcache : v.regions = ModelCache.after Region.ofDocument visits (.empty maxEntries interval))
    (hagree : Document.Agree (d :: visits.map (·.2)))
    (hregions : Region.ofDocument d = .ok rs) (hfirst : reporter d v.reporter = (.ok ds, g))
    (hsecond : reporter d g = (.ok ds, g')) :
    let templates := if d.languageId = Region.componentLanguage
      then ds.filter (StartsInSome .template d rs ·) else []
    let scripts := if withScript then ds.filter (StartsInSome .script d rs ·) else []
    (validate reporter withScript d v).1 = .ok (templates ++ scripts) ∧
      (∀ x, ¬ (StartsInSome .template d rs x ∧ StartsInSome .script d rs x)) ∧
      (∀ x, StartsInSome .style d rs x →
        ¬ StartsInSome .template d rs x ∧ ¬ StartsInSome .script d rs x) ∧
      (∀ x, (∀ r ∈ rs, r.contains (d.offsetAt x.span.start) = false) →
        ¬ StartsInSome .template d rs x ∧ ¬ StartsInSome .script d rs x) ∧
      (d.languageId ≠ Region.componentLanguage → withScript = true →
        templates ++ scripts = ds) := by
  intro templates scripts
  have hv : Serves (visits.map (·.2)).reverse v := by
    refine ⟨?_, ?_, ?_⟩
    · simpa [hcache] using (ModelCache.Holds.empty _ maxEntries interval).after visits
    · simpa [hcache, ModelCache.empty] using hmax
    · simp [hcache, ModelCache.empty]
  have hagree' : Document.Agree (d :: (visits.map (·.2)).reverse) :=
    hagree.of_subset (by simp)
  obtain ⟨v', htemplate, hreporter, docs, hv', hagree''⟩ :=
    template_eq hv hagree' hregions hfirst
  refine ⟨?_, ?_, ?_, ?_, ?_⟩
  · rw [validate, Attempt.bind_ok htemplate]
    cases withScript with
    | false => rfl
    | true =>
        have hask : ∃ g'', reporter d v'.reporter = (.ok ds, g'') := by
          rcases hreporter with h | h <;> rw [h]
          · exact ⟨g, hfirst⟩
          · exact ⟨g', hsecond⟩
        obtain ⟨g'', hask⟩ := hask
        obtain ⟨v'', hscript, -⟩ := ofKind_eq .script hv' hagree'' hregions hask
        rw [if_pos rfl, script, Attempt.bind_ok hscript]
        rfl
  · rintro x ⟨ht, hs⟩
    cases ht.eq hregions hs
  · intro x hstyle
    exact ⟨fun ht => (by cases ht.eq hregions hstyle), fun hs => (by cases hs.eq hregions hstyle)⟩
  · intro x hnone
    exact ⟨not_startsInSome_of_outside hnone, not_startsInSome_of_outside hnone⟩
  · intro hlanguage hscript
    simp only [templates, scripts, if_neg hlanguage, if_pos hscript, List.nil_append]
    exact List.filter_eq_self.mpr fun x _ => by simpa using startsInSome_script hlanguage hregions

/-! ### A component in a cache with one place -/

namespace Crowded

/-- An empty template and a script. -/
def component : Document := ⟨"file:///a.vue", "vue", 0, "<template/><script>b</script>"⟩

/-- A diagnostic at one offset of a document of one line. -/
def mark (offset : Int) : Diagnostic := ⟨⟨⟨0, offset⟩, ⟨0, offset⟩⟩, "", .error, .null, .null⟩

/-- A reporter that gives the same each time and counts how often it is asked. -/
def steady : Reporter Nat Unit := fun _ n => (.ok [mark 19, mark 11, mark 0], n + 1)

/-- Accesses after which the cache holds another version of the component. -/
def visits : List (Float × Document) := [(0.0, component), (5.0, { component with version := 1 })]

/-- The validation after these accesses. -/
def validation : Validation Nat :=
  { new 0 1 60.0 with
    regions := ModelCache.after Region.ofDocument visits (.empty 1 60.0) }

end Crowded

open Crowded in
theorem validate_partitions_crowded :
    (validate steady true component validation).1 = .ok ([mark 11] ++ [mark 19]) := by
  have hcache : validation.regions =
      ModelCache.after Region.ofDocument visits (.empty 1 60.0) := rfl
  have hagree : Document.Agree (component :: visits.map (·.2)) := by
    simp [Document.Agree, visits]
  have hregions : Region.ofDocument component =
      .ok [⟨.template, "html", 11, 11, []⟩, ⟨.script, "javascript", 19, 20, []⟩] := by
    decide +kernel
  have hask (n : Nat) : steady component n = (.ok [mark 19, mark 11, mark 0], n + 1) := rfl
  exact (validate_partitions (Int.le_refl 1) hcache hagree hregions (hask _) (hask _)).1

/-- A cache that may hold no entry at all gives no regions, so nothing can be validated with it. -/
theorem validate_without_room :
    Region.ofDocument ⟨"file:///a.ts", "ts", 0, ""⟩ = .ok [⟨.script, "ts", 0, 0, []⟩] ∧
      (validate (fun _ n => ((.ok [], n) : Except Unit _ × _)) true ⟨"file:///a.ts", "ts", 0, ""⟩
        (new () 0 60.0)).1 = .error (.regions .nothingToDrop) :=
  ⟨rfl, rfl⟩

end SfcCheck.Validation
