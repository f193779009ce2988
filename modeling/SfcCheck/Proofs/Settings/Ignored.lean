import SfcCheck.Proofs.Settings.Precedence
import SfcCheck.Proofs.Source.Overwrite

/-!
# Files that hold no table

A settings file or project file that is no TOML counts as an empty one: the run has the same outcome
as if nothing stood in the file. One that is no text, or whose numerals or nesting are beyond the
limits of the reader, holds no table either but does not count as empty: reading it fails, and with
it the run, unless a source that is read earlier fails first.
-/

namespace SfcCheck.Settings

/-! ## What a file holds -/

variable {content new : List UInt8}

/-- A content holds no table: it is no text, or its text cannot be read. -/
def IsRejected (content : List UInt8) : Prop :=
  ∀ cs, Text.decodeUtf8 content = .ok cs → ∀ t, Toml.parse cs ≠ .ok t

/-- A content is a text that is no TOML. -/
def IsMalformed (content : List UInt8) : Prop :=
  ∃ cs, Text.decodeUtf8 content = .ok cs ∧ Toml.parse cs = .error .malformed

instance (content : List UInt8) : Decidable (IsRejected content) :=
  match hdecode : Text.decodeUtf8 content with
  | .error e => .isTrue fun cs hcs => by cases hdecode.symm.trans hcs
  | .ok cs =>
    match hparse : Toml.parse cs with
    | .ok t => .isFalse fun h => h cs hdecode t hparse
    | .error e => .isTrue fun cs' hcs' t ht => by
        cases hdecode.symm.trans hcs'
        cases hparse.symm.trans ht

instance (content : List UInt8) : Decidable (IsMalformed content) :=
  match hdecode : Text.decodeUtf8 content with
  | .error e => .isFalse fun ⟨cs, hcs, _⟩ => by cases hdecode.symm.trans hcs
  | .ok cs =>
    match hparse : Toml.parse cs with
    | .error .malformed => .isTrue ⟨cs, hdecode, hparse⟩
    | .ok _ | .error (.tooManyDigits _) | .error .tooDeep =>
      .isFalse fun ⟨cs', hcs', h⟩ => by
        cases hdecode.symm.trans hcs'
        cases hparse.symm.trans h

theorem tableOf_nil : tableOf [] = .ok [] := rfl

theorem IsMalformed.tableOf_eq (h : IsMalformed content) : tableOf content = .ok [] := by
  obtain ⟨cs, hdecode, hparse⟩ := h
  simp only [tableOf, hdecode, hparse]

/-- What holds no table and yet does not count as empty is a fault. -/
theorem IsRejected.exists_fault (h : IsRejected content) (hmalformed : ¬ IsMalformed content) :
    ∃ f, tableOf content = .error f := by
  rw [tableOf]
  cases hdecode : Text.decodeUtf8 content with
  | error e => exact ⟨_, rfl⟩
  | ok cs =>
      simp only
      cases hparse : Toml.parse cs with
      | ok t => exact absurd hparse (h cs hdecode t)
      | error e =>
          cases e with
          | malformed => exact absurd ⟨cs, hdecode, hparse⟩ hmalformed
          | tooManyDigits n => exact ⟨_, rfl⟩
          | tooDeep => exact ⟨_, rfl⟩

/-! ## Files that count as empty -/

variable {o : Origin} {source : Source} {name : String} {path : Path}

/-- The name that a source is searched for by, if it is a file. -/
def Source.fileName? : Source → Option String
  | commandLine | environment => none
  | settingsFile => some Settings.settingsFile
  | projectFile => some Settings.projectFile

/-- The same run with nothing in the file that a path leads to. -/
def Origin.emptied (o : Origin) (path : Path) : Origin :=
  { o with tree := o.tree.overwrite path [] }

/-- Another content with the same table makes no difference, by whatever names its file is found. -/
theorem ofNearest_overwrite {tree : FileTree} (hcontent : tree.read path = .ok content)
    (htable : tableOf content = tableOf new) (name : String) (start? : Option Path)
    (read : Table Toml → Except Fault Layer) :
    ofNearest (tree.overwrite path new) name start? read = ofNearest tree name start? read := by
  have hfind := (FileTree.alike_overwrite hcontent new).findNearest_eq name start?
  cases hnearest : tree.findNearest name start? with
  | error e =>
      rw [ofNearest, ofNearest, hfind, hnearest]
      rfl
  | ok found? =>
      cases found? with
      | none =>
          rw [ofNearest, ofNearest, hfind, hnearest]
          rfl
      | some found =>
          rw [ofNearest_found hnearest, ofNearest_found (hfind.trans hnearest)]
          obtain ⟨hread, hread'⟩ | hread := FileTree.read_overwrite hcontent new found
          · simp only [hread, hread', htable]
          · rw [hread]

theorem load_emptied (hread : o.tree.read path = .ok content) (h : IsMalformed content) :
    o.load = (o.emptied path).load := by
  have htable := h.tableOf_eq.trans tableOf_nil.symm
  apply load_congr
  intro source
  left
  symm
  cases source with
  | commandLine | environment => rfl
  | settingsFile | projectFile => exact ofNearest_overwrite hread htable ..

/-! ## Files that end the run -/

/-- The sources that are read before a source. -/
def Source.readBefore : Source → List Source
  | commandLine | environment => []
  | projectFile => [commandLine]
  | settingsFile => [commandLine, projectFile]

/-- The first source that cannot be read ends the run. -/
theorem load_eq_error {e : Failure} (h : o.reading source = .error e)
    (hbefore : ∀ source' ∈ source.readBefore, ∃ layer, o.reading source' = .ok layer) :
    o.load = .error e := by
  rw [load_eq]
  cases source with
  | environment => cases h
  | commandLine =>
      rw [h]
      rfl
  | projectFile =>
      obtain ⟨command, hcommand⟩ := hbefore _ (.head _)
      rw [hcommand, h]
      rfl
  | settingsFile =>
      obtain ⟨command, hcommand⟩ := hbefore _ (.head _)
      obtain ⟨project, hproject⟩ := hbefore _ (.tail _ (.head _))
      rw [hcommand, hproject, h]
      rfl

section Reading

variable (hname : source.fileName? = some name) (hnear : o.tree.IsNearest name o.start? path)
  (hread : o.tree.read path = .ok content)

include hname hnear hread

/-- A source is what the table in the nearest file of its name is read as. -/
theorem exists_reading : ∃ read : Table Toml → Except Fault Layer, read [] = .ok .empty ∧
    o.reading source = (tableOf content >>= read).mapError .fault := by
  have hfound := FileTree.findNearest_eq_some_iff.mpr hnear
  cases source with
  | commandLine | environment => cases hname
  | settingsFile =>
      cases hname
      refine ⟨fun t => .ok (ofSettingsFile t), rfl, ?_⟩
      show ofNearest .. = _
      rw [ofNearest_found hfound, hread]
      rfl
  | projectFile =>
      cases hname
      refine ⟨ofProjectFile, rfl, ?_⟩
      show ofNearest .. = _
      rw [ofNearest_found hfound, hread]

theorem reading_eq_error {f : Fault} (htable : tableOf content = .error f) :
    o.reading source = .error (.fault f) := by
  obtain ⟨read, -, hreading⟩ := exists_reading hname hnear hread
  rw [hreading, htable]
  rfl

theorem reading_emptied : (o.emptied path).reading source = .ok .empty := by
  have halike := FileTree.alike_overwrite hread []
  have hnear' : (o.emptied path).tree.IsNearest name (o.emptied path).start? path := by
    apply FileTree.findNearest_eq_some_iff.mp
    exact (halike.findNearest_eq name o.start?).trans (FileTree.findNearest_eq_some_iff.mpr hnear)
  obtain ⟨read, hempty, hreading⟩ :=
    exists_reading hname hnear' (FileTree.read_overwrite_self hread [])
  rw [hreading, tableOf_nil]
  exact congrArg (Except.mapError Failure.fault) hempty

end Reading

/-! ## The outcome of a run -/

/-- A run whose settings file or project file is no TOML has the outcome that it has with that file
empty. If the file holds no table for another reason, its source fails, which would say nothing with
the file empty, and so the run fails unless a source that is read before does. -/
theorem load_rejected (hname : source.fileName? = some name)
    (hnear : o.tree.IsNearest name o.start? path) (hread : o.tree.read path = .ok content)
    (hrejected : IsRejected content) :
    (IsMalformed content → o.load = (o.emptied path).load) ∧
      (¬ IsMalformed content → ∃ f, tableOf content = .error f ∧
        o.reading source = .error (.fault f) ∧ (o.emptied path).reading source = .ok .empty ∧
        ((∀ source' ∈ source.readBefore, ∃ layer, o.reading source' = .ok layer) →
          o.load = .error (.fault f))) := by
  constructor
  · intro hmalformed
    exact load_emptied hread hmalformed
  · intro hmalformed
    obtain ⟨f, htable⟩ := hrejected.exists_fault hmalformed
    have hreading := reading_eq_error hname hnear hread htable
    exact ⟨f, htable, hreading, reading_emptied hname hnear hread, load_eq_error hreading⟩

/-- The settings file of the run in one directory. -/
def settingsPath : Path := .ofNames [Settings.settingsFile]

theorem emptied_withSettings (content : List UInt8) :
    (withSettings content).emptied settingsPath = withSettings [] := by
  rw [Origin.emptied, settingsPath, FileTree.overwrite, (standsAt_settings content).placeOf_eq]
  simp [withSettings, Node.insert, Table.put]

theorem load_rejected_words :
    (withSettings (Wire.ascii "no table".toList)).load =
      ((withSettings (Wire.ascii "no table".toList)).emptied settingsPath).load ∧
    ∃ f, tableOf [255] = .error f ∧ (withSettings [255]).load = .error (.fault f) := by
  have hname : Source.settingsFile.fileName? = some Settings.settingsFile := rfl
  constructor
  · have hrejected : IsRejected (Wire.ascii "no table".toList) := by decide +kernel
    exact (load_rejected hname (isNearest_settings _) (standsAt_settings _).read_eq hrejected).1
      (by decide +kernel)
  · have hrejected : IsRejected [255] := by decide +kernel
    obtain ⟨f, htable, -, -, hload⟩ := (load_rejected hname (isNearest_settings _)
      (standsAt_settings _).read_eq hrejected).2 (by decide +kernel)
    refine ⟨f, htable, hload ?_⟩
    simp only [Source.readBefore, List.mem_cons, List.not_mem_nil, or_false, forall_eq_or_imp,
      forall_eq]
    exact ⟨⟨_, rfl⟩, ⟨_, reading_project _⟩⟩

/-- A settings file that is no text ends a run that would go on to check the settings if the file
were empty. -/
theorem load_no_text : IsRejected [255] ∧
    (∃ e, (withSettings [255]).load = .error (.fault (.undecodable e))) ∧
    ((withSettings [255]).emptied settingsPath).load = .error (.refused .tooFewEntries) := by
  refine ⟨by decide +kernel, ?_, ?_⟩
  · rw [load_withSettings]
    exact exists_of_lacksText (by decide +kernel)
  · rw [emptied_withSettings, load_withSettings]
    exact eq_of_lacksEntries (by decide +kernel)

end SfcCheck.Settings
