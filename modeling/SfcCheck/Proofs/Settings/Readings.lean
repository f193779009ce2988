import SfcCheck.Proofs.Results
import SfcCheck.Proofs.Settings.Nearest
import SfcCheck.Settings.Sources

/-!
# What the sources of settings say

`Sets` tells what each of the four sources says of a setting, from the files, the environment and
the overrides themselves. What a source is read as is just that (`reading_apply_iff`). A source may
also fail to be read, and then there are no settings.
-/

namespace SfcCheck.Settings

/-! ## What the sources say -/

/-- What a run takes its settings from. -/
structure Origin where
  tree : FileTree
  environment : Table String
  overrides : Json
  /-- The directory where files are searched for first; the working directory if none. -/
  start? : Option Path

inductive Source where
  | commandLine
  | environment
  | settingsFile
  | projectFile
deriving DecidableEq, Repr

variable {o : Origin} {f : Field} {v : Setting} {source : Source}

/-- The nearest file of a name holds a table. -/
def Origin.Holds (o : Origin) (name : String) (t : Table Toml) : Prop :=
  ∃ path content, o.tree.IsNearest name o.start? path ∧ o.tree.read path = .ok content ∧
    tableOf content = .ok t

/-- The last entry of a section whose key is that of a setting, whether its words are joined by
hyphens or not. -/
def IsLastSpelling (section' : Table Toml) (key : String) (w : Toml) : Prop :=
  ∃ before spelling after, section' = before ++ (spelling, w) :: after ∧
    normalKey spelling = key ∧ ∀ e ∈ after, normalKey e.1 ≠ key

/-- A source gives a value for a setting. -/
def Origin.Sets (o : Origin) : Source → Field → Setting → Prop
  | .commandLine, f, v => ∃ fields w, o.overrides = .obj fields ∧
      Table.get? f.key fields = some w ∧ w.kind ≠ .null ∧ v = w.toSetting
  | .environment, f, v => ∃ s, o.environment.get? (variableStart ++ f.key.toUpper) = some s ∧
      v = .text s
  | .settingsFile, f, v => ∃ t w, o.Holds Settings.settingsFile t ∧ t.get? f.key = some w ∧
      v = ofToml w
  | .projectFile, f, v => ∃ t tools section' w, o.Holds Settings.projectFile t ∧
      t.get? toolKey = some (.table tools) ∧
      Table.get? sectionKey tools = some (.table section') ∧
      IsLastSpelling section' f.key w ∧ v = ofToml w

/-! ## Reading the sources -/

/-- What a source is read as. -/
def Origin.reading (o : Origin) : Source → Except Failure Layer
  | .commandLine => (ofOverrides o.overrides).mapError .fault
  | .environment => .ok (ofEnvironment o.environment)
  | .settingsFile =>
      ofNearest o.tree Settings.settingsFile o.start? fun t => return ofSettingsFile t
  | .projectFile => ofNearest o.tree Settings.projectFile o.start? ofProjectFile

theorem holds_unique {name : String} {t t' : Table Toml} (h : o.Holds name t)
    (h' : o.Holds name t') : t = t' := by
  obtain ⟨path, content, hnear, hread, htable⟩ := h
  obtain ⟨path', content', hnear', hread', htable'⟩ := h'
  rw [← FileTree.findNearest_eq_some_iff] at hnear hnear'
  rw [hnear] at hnear'
  cases hnear'
  rw [hread] at hread'
  cases hread'
  rw [htable] at htable'
  cases htable'
  rfl

theorem ofNearest_found {tree : FileTree} {name : String} {start? : Option Path} {path : Path}
    (h : tree.findNearest name start? = .ok (some path)) (read : Table Toml → Except Fault Layer) :
    ofNearest tree name start? read =
      match tree.read path with
      | .error _ => .ok .empty
      | .ok content => (tableOf content >>= read).mapError Failure.fault := by
  rw [ofNearest, h]
  rfl

/-- What is read from a file that was found is what its table is read as, or nothing if the file
cannot be opened. -/
theorem content_eq_ok {content? : Except FileError (List UInt8)} {layer : Layer}
    {read : Table Toml → Except Fault Layer}
    (h : (match content? with
      | .error _ => Except.ok Layer.empty
      | .ok content => (tableOf content >>= read).mapError Failure.fault) = .ok layer) :
    (∃ content t, content? = .ok content ∧ tableOf content = .ok t ∧ read t = .ok layer) ∨
      ((∀ content, content? ≠ .ok content) ∧ layer = .empty) := by
  cases content? with
  | error e =>
      cases h
      exact .inr ⟨by simp, rfl⟩
  | ok content =>
      obtain ⟨t, htable, hlayer⟩ := exists_of_bind_ok (mapError_eq_ok_iff.mp h)
      exact .inl ⟨content, t, rfl, htable, hlayer⟩

/-- A file that can be read says what its table is read as, or it holds none and says nothing. -/
theorem ofNearest_eq_ok {name : String} {read : Table Toml → Except Fault Layer} {layer : Layer}
    (h : ofNearest o.tree name o.start? read = .ok layer) :
    (∃ t, o.Holds name t ∧ read t = .ok layer) ∨ ((∀ t, ¬ o.Holds name t) ∧ layer = .empty) := by
  obtain ⟨path?, hfind, h⟩ := exists_of_bind_ok h
  rw [mapError_eq_ok_iff] at hfind
  cases path? with
  | none =>
      cases h
      refine .inr ⟨?_, rfl⟩
      rintro t ⟨path, content, hnear, -⟩
      rw [← FileTree.findNearest_eq_some_iff, hfind] at hnear
      cases hnear
  | some path =>
      rcases content_eq_ok h with ⟨content, t, hread, htable, hlayer⟩ | ⟨hread, hempty⟩
      · have hnear := FileTree.findNearest_eq_some_iff.mp hfind
        exact .inl ⟨t, ⟨path, content, hnear, hread, htable⟩, hlayer⟩
      · refine .inr ⟨?_, hempty⟩
        rintro t ⟨path', content, hnear, hcontent, -⟩
        rw [← FileTree.findNearest_eq_some_iff, hfind] at hnear
        cases hnear
        exact hread content hcontent

theorem get?_ofList_normal {section' : Table Toml} {key : String} {w : Toml} :
    Table.get? key (.ofList (section'.map fun e => (normalKey e.1, e.2))) = some w ↔
      IsLastSpelling section' key w := by
  rw [Table.get?_ofList_map_eq_some_iff]
  constructor
  · rintro ⟨before, ⟨spelling, w'⟩, after, hsplit, hentry, hafter⟩
    obtain ⟨hkey, rfl⟩ := Prod.mk.inj hentry
    exact ⟨before, spelling, after, hsplit, hkey, hafter⟩
  · rintro ⟨before, spelling, after, hsplit, rfl, hafter⟩
    exact ⟨before, (spelling, w), after, hsplit, rfl, hafter⟩

theorem ofSection_eq_some_iff {section' : Table Toml} :
    ofSection section' f = some v ↔ ∃ w, IsLastSpelling section' f.key w ∧ v = ofToml w := by
  rw [ofSection, ofSettingsFile, Option.map_eq_some_iff]
  constructor
  · rintro ⟨w, hw, rfl⟩
    exact ⟨w, get?_ofList_normal.mp hw, rfl⟩
  · rintro ⟨w, hw, rfl⟩
    exact ⟨w, get?_ofList_normal.mpr hw, rfl⟩

theorem ofProjectFile_apply_iff {t : Table Toml} {layer : Layer} (h : ofProjectFile t = .ok layer) :
    layer f = some v ↔ ∃ tools section' w, t.get? toolKey = some (.table tools) ∧
      Table.get? sectionKey tools = some (.table section') ∧
      IsLastSpelling section' f.key w ∧ v = ofToml w := by
  rw [ofProjectFile] at h
  cases htool : t.get? toolKey with
  | none =>
      rw [htool] at h
      cases h
      simp [Layer.empty]
  | some tool =>
      rw [htool] at h
      cases tool with
      | table tools =>
          obtain ⟨_, hpure, h⟩ := exists_of_bind_ok h
          cases hpure
          beta_reduce at h
          cases hsection : Table.get? sectionKey tools with
          | none =>
              rw [hsection] at h
              cases h
              simp [Layer.empty, hsection]
          | some section' =>
              rw [hsection] at h
              cases section' with
              | table section' =>
                  cases h
                  simp [ofSection_eq_some_iff, hsection]
              | bool | int | float | text | date | dateTime | timeOfDay | list => cases h
      | bool | int | float | text | date | dateTime | timeOfDay | list => cases h

theorem ofOverrides_apply_iff {overrides : Json} {layer : Layer}
    (h : ofOverrides overrides = .ok layer) :
    layer f = some v ↔ ∃ fields w, overrides = .obj fields ∧ Table.get? f.key fields = some w ∧
      w.kind ≠ .null ∧ v = w.toSetting := by
  cases overrides with
  | obj fields =>
      cases h
      cases hget : Table.get? f.key fields with
      | none => simp [hget]
      | some w => cases w <;> simp [hget, Json.kind, eq_comm]
  | null | bool | int | float | str | arr =>
      rw [ofOverrides] at h
      · split at h
        · cases h
        · cases h
          simp [Layer.empty]
      · simp

/-- What a source is read as says what the source says. -/
theorem reading_apply_iff {layer : Layer} (h : o.reading source = .ok layer) :
    layer f = some v ↔ o.Sets source f v := by
  cases source with
  | commandLine =>
      rw [Origin.reading, mapError_eq_ok_iff] at h
      exact ofOverrides_apply_iff h
  | environment =>
      cases h
      rw [ofEnvironment, Option.map_eq_some_iff]
      constructor
      · rintro ⟨s, hs, rfl⟩
        exact ⟨s, hs, rfl⟩
      · rintro ⟨s, hs, rfl⟩
        exact ⟨s, hs, rfl⟩
  | settingsFile =>
      rcases ofNearest_eq_ok h with ⟨t, hholds, hread⟩ | ⟨hnone, rfl⟩
      · cases hread
        rw [ofSettingsFile, Option.map_eq_some_iff]
        constructor
        · rintro ⟨w, hw, rfl⟩
          exact ⟨t, w, hholds, hw, rfl⟩
        · rintro ⟨t', w, hholds', hw, rfl⟩
          rw [holds_unique hholds hholds']
          exact ⟨w, hw, rfl⟩
      · refine ⟨fun h => (by cases h), ?_⟩
        rintro ⟨t, w, hholds, -⟩
        exact absurd hholds (hnone t)
  | projectFile =>
      rcases ofNearest_eq_ok h with ⟨t, hholds, hread⟩ | ⟨hnone, rfl⟩
      · rw [ofProjectFile_apply_iff hread]
        constructor
        · rintro ⟨tools, section', w, h⟩
          exact ⟨t, tools, section', w, hholds, h⟩
        · rintro ⟨t', tools, section', w, hholds', h⟩
          rw [holds_unique hholds hholds']
          exact ⟨tools, section', w, h⟩
      · refine ⟨fun h => (by cases h), ?_⟩
        rintro ⟨t, tools, section', w, hholds, -⟩
        exact absurd hholds (hnone t)

/-- Reading a source may fail, but refuses no settings. -/
theorem reading_ne_refused (o : Origin) (source : Source) (e : Refusal) :
    o.reading source ≠ .error (.refused e) := by
  have hfault {x : Except Fault Layer} : x.mapError Failure.fault ≠ .error (.refused e) := by
    cases x <;> simp [Except.mapError]
  have hnearest (name : String) (read : Table Toml → Except Fault Layer) :
      ofNearest o.tree name o.start? read ≠ .error (.refused e) := by
    cases hfind : o.tree.findNearest name o.start? with
    | error e' => simp [ofNearest, hfind, Except.mapError, bind, Except.bind]
    | ok path? =>
        cases path? with
        | none => simp [ofNearest, hfind, Except.mapError, bind, Except.bind, pure, Except.pure]
        | some path =>
            rw [ofNearest_found hfind]
            split
            · simp
            · exact hfault
  cases source with
  | commandLine => exact hfault
  | environment => simp [Origin.reading]
  | settingsFile => exact hnearest _ _
  | projectFile => exact hnearest _ _

/-- All sources can be read if these three can, as the environment always can. -/
theorem exists_layers (hcommand : ∃ layer, o.reading .commandLine = .ok layer)
    (hproject : ∃ layer, o.reading .projectFile = .ok layer)
    (hsettings : ∃ layer, o.reading .settingsFile = .ok layer) :
    ∃ layers : Source → Layer, ∀ source, o.reading source = .ok (layers source) := by
  have hread (source : Source) : ∃ layer, o.reading source = .ok layer := by
    cases source with
    | commandLine => exact hcommand
    | environment => exact ⟨_, rfl⟩
    | settingsFile => exact hsettings
    | projectFile => exact hproject
  exact Classical.skolem.mp hread

end SfcCheck.Settings
