import SfcCheck.Proofs.Settings.Readings
import SfcCheck.Proofs.Source.Places
import SfcCheck.Wire

/-!
# Which source a setting comes from

A setting has the value of the first source that says anything of it, so what a later source says of
it does not matter, as long as that source can be read.
-/

namespace SfcCheck.Settings

variable {o o' : Origin} {source : Source} {layers layers' : Source → Layer}

/-- The sources that come before a source. -/
def Source.before : Source → List Source
  | commandLine => []
  | environment => [commandLine]
  | settingsFile => [commandLine, environment]
  | projectFile => [commandLine, environment, settingsFile]

/-- A value for a setting is that of the first source that gives one, or else the default. -/
def Origin.Gives (o : Origin) (f : Field) (v : Setting) : Prop :=
  (∃ source, o.Sets source f v ∧ ∀ source' ∈ source.before, ∀ w, ¬ o.Sets source' f w) ∨
    (v = default f ∧ ∀ source w, ¬ o.Sets source f w)

/-- The settings of a run. -/
def Origin.load (o : Origin) : Except Failure Settings :=
  Settings.load o.tree o.environment o.overrides o.start?

/-! ## Merging the sources -/

/-- What the sources say together, the first one that says anything of a setting being heard. -/
def merged (layers : Source → Layer) : Layer :=
  (layers .commandLine).over ((layers .environment).over
    ((layers .settingsFile).over (layers .projectFile)))

theorem merged_apply (layers : Source → Layer) (f : Field) :
    merged layers f = (layers .commandLine f).or ((layers .environment f).or
      ((layers .settingsFile f).or (layers .projectFile f))) := rfl

theorem load_eq (o : Origin) : o.load =
    o.reading .commandLine >>= fun chosen => o.reading .projectFile >>= fun project =>
      o.reading .settingsFile >>= fun settings =>
        (ofLayer (chosen.over ((ofEnvironment o.environment).over
          (settings.over project)))).mapError .refused := rfl

/-- Sources that can all be read are merged and checked. -/
theorem load_eq_of_readings (h : ∀ source, o.reading source = .ok (layers source)) :
    o.load = (ofLayer (merged layers)).mapError .refused := by
  have henvironment : ofEnvironment o.environment = layers .environment :=
    Except.ok.inj (h .environment)
  rw [load_eq, h .commandLine, h .projectFile, h .settingsFile, henvironment]
  rfl

theorem ofLayer_getD (layer : Layer) :
    ofLayer (fun f => some ((layer f).getD (default f))) = ofLayer layer := rfl

/-- The merged sources give each setting the value of the first source that says anything of it. -/
theorem gives_merged (h : ∀ source, o.reading source = .ok (layers source)) (f : Field) :
    o.Gives f ((merged layers f).getD (default f)) := by
  have hsome {source : Source} {v : Setting} (hv : layers source f = some v) :
      o.Sets source f v := (reading_apply_iff (h source)).mp hv
  have hnone {source : Source} (hv : layers source f = none) (w : Setting) :
      ¬ o.Sets source f w := by
    rw [← reading_apply_iff (h source), hv]
    simp
  rw [merged_apply]
  cases hcommand : layers .commandLine f with
  | some v => exact .inl ⟨.commandLine, hsome hcommand, by simp [Source.before]⟩
  | none =>
  cases henvironment : layers .environment f with
  | some v =>
      refine .inl ⟨.environment, hsome henvironment, ?_⟩
      simpa [Source.before] using hnone hcommand
  | none =>
  cases hsettings : layers .settingsFile f with
  | some v =>
      refine .inl ⟨.settingsFile, hsome hsettings, ?_⟩
      simpa [Source.before] using ⟨hnone hcommand, hnone henvironment⟩
  | none =>
  cases hproject : layers .projectFile f with
  | some v =>
      refine .inl ⟨.projectFile, hsome hproject, ?_⟩
      simpa [Source.before] using ⟨hnone hcommand, hnone henvironment, hnone hsettings⟩
  | none =>
      refine .inr ⟨rfl, fun source => ?_⟩
      cases source with
      | commandLine => exact hnone hcommand
      | environment => exact hnone henvironment
      | settingsFile => exact hnone hsettings
      | projectFile => exact hnone hproject

/-- A run whose settings have come to be checked has read all its sources. -/
theorem exists_layers_of_load {r : Except Refusal Settings} (h : o.load = r.mapError .refused) :
    ∃ layers : Source → Layer, ∀ source, o.reading source = .ok (layers source) := by
  have hstep {source : Source} {next : Layer → Except Failure Settings}
      (h : o.reading source >>= next = r.mapError .refused) :
      ∃ layer, o.reading source = .ok layer ∧ next layer = r.mapError .refused := by
    cases hread : o.reading source with
    | error e =>
        rw [hread] at h
        cases r with
        | ok s => cases h
        | error e' =>
            injection h with h
            exact absurd (h ▸ hread) (reading_ne_refused o source e')
    | ok layer =>
        rw [hread] at h
        exact ⟨layer, rfl, h⟩
  rw [load_eq] at h
  obtain ⟨command, hcommand, h⟩ := hstep h
  obtain ⟨project, hproject, h⟩ := hstep h
  obtain ⟨settings, hsettings, -⟩ := hstep h
  exact exists_layers ⟨command, hcommand⟩ ⟨project, hproject⟩ ⟨settings, hsettings⟩

/-- Two runs whose sources differ at most in what comes too late: a source that is not read in the
same way is read in both, and differs only in settings that an earlier source sets. -/
def Origin.AgreesWith (o o' : Origin) : Prop :=
  ∀ source, o.reading source = o'.reading source ∨
    ((∃ layer, o.reading source = .ok layer) ∧ (∃ layer, o'.reading source = .ok layer) ∧
      ∀ f, (∀ v, o.Sets source f v ↔ o'.Sets source f v) ∨
        ∃ source' ∈ source.before, ∃ v, o.Sets source' f v)

/-- Of two such runs each source says the same of a setting, or an earlier one says something. -/
theorem layers_agree (h : ∀ source, o.reading source = .ok (layers source))
    (h' : ∀ source, o'.reading source = .ok (layers' source)) (hagree : o.AgreesWith o')
    (source : Source) (f : Field) : layers source f = layers' source f ∨
      ∃ source' ∈ source.before, layers source' f ≠ none := by
  rcases hagree source with hreading | ⟨-, -, hsets⟩
  · rw [h, h'] at hreading
    exact .inl (by rw [Except.ok.inj hreading])
  · rcases hsets f with hsame | ⟨source', hbefore, v, hv⟩
    · refine .inl (Option.ext fun v => ?_)
      rw [reading_apply_iff (h source), reading_apply_iff (h' source)]
      exact hsame v
    · rw [← reading_apply_iff (h source')] at hv
      exact .inr ⟨source', hbefore, by simp [hv]⟩

theorem merged_congr (h : ∀ source, o.reading source = .ok (layers source))
    (h' : ∀ source, o'.reading source = .ok (layers' source)) (hagree : o.AgreesWith o') :
    merged layers = merged layers' := by
  funext f
  have hcommand : layers .commandLine f = layers' .commandLine f := by
    simpa [Source.before] using layers_agree h h' hagree .commandLine f
  have henvironment := layers_agree h h' hagree .environment f
  have hsettings := layers_agree h h' hagree .settingsFile f
  have hproject := layers_agree h h' hagree .projectFile f
  simp only [Source.before, List.mem_cons, List.not_mem_nil, or_false, exists_eq_or_imp,
    exists_eq_left] at henvironment hsettings hproject
  rw [merged_apply, merged_apply, ← hcommand]
  cases hc : layers .commandLine f with
  | some v => rfl
  | none =>
  rw [← henvironment.resolve_right (by simp [hc])]
  cases he : layers .environment f with
  | some v => rfl
  | none =>
  rw [← hsettings.resolve_right (by simp [hc, he])]
  cases hs : layers .settingsFile f with
  | some v => rfl
  | none => rw [← hproject.resolve_right (by simp [hc, he, hs])]

/-- Of two such runs a source is read in both or fails in both in the same way. -/
theorem Origin.AgreesWith.readings (h : o.AgreesWith o') (source : Source) :
    (∃ layer layer', o.reading source = .ok layer ∧ o'.reading source = .ok layer') ∨
      ∃ e, o.reading source = .error e ∧ o'.reading source = .error e := by
  rcases h source with hsame | ⟨⟨layer, hlayer⟩, ⟨layer', hlayer'⟩, -⟩
  · rw [← hsame]
    cases o.reading source with
    | error e => exact .inr ⟨e, rfl, rfl⟩
    | ok layer => exact .inl ⟨layer, layer, rfl, rfl⟩
  · exact .inl ⟨layer, layer', hlayer, hlayer'⟩

/-- What comes too late does not matter: the first source that fails decides both runs, and what can
be read is merged to the same. -/
theorem load_congr (h : o.AgreesWith o') : o.load = o'.load := by
  rcases h.readings .commandLine with ⟨c, c', hc, hc'⟩ | ⟨e, he, he'⟩
  · rcases h.readings .projectFile with ⟨p, p', hp, hp'⟩ | ⟨e, he, he'⟩
    · rcases h.readings .settingsFile with ⟨s, s', hs, hs'⟩ | ⟨e, he, he'⟩
      · obtain ⟨layers, hlayers⟩ := exists_layers ⟨c, hc⟩ ⟨p, hp⟩ ⟨s, hs⟩
        obtain ⟨layers', hlayers'⟩ := exists_layers ⟨c', hc'⟩ ⟨p', hp'⟩ ⟨s', hs'⟩
        rw [load_eq_of_readings hlayers, load_eq_of_readings hlayers',
          merged_congr hlayers hlayers' h]
      · rw [load_eq, load_eq, hc, hc', hp, hp', he, he']
        rfl
    · rw [load_eq, load_eq, hc, hc', he, he']
      rfl
  · rw [load_eq, load_eq, he, he']
    rfl

/-! ## Runs in one directory -/

/-- A run with a settings file in its only directory, and with the number of cache entries on the
command line too. -/
def withSettings (content : List UInt8) : Origin where
  tree := ⟨.directory [(settingsFile, .file content)], []⟩
  environment := []
  overrides := .obj [("cache_max_entries", .int 0)]
  start? := some (.ofNames [])

section Files

variable (content : List UInt8)

theorem standsAt_root : (withSettings content).tree.StandsAt []
    (.directory [(Settings.settingsFile, .file content)]) :=
  ⟨rfl, by simp, by simp, by decide +kernel, by decide +kernel⟩

theorem standsAt_settings :
    (withSettings content).tree.StandsAt [Settings.settingsFile] (.file content) :=
  ⟨rfl, by simp, by decide +kernel, by decide +kernel, by decide +kernel⟩

theorem isNearest_settings : (withSettings content).tree.IsNearest Settings.settingsFile
    (withSettings content).start? (.ofNames [Settings.settingsFile]) := by
  have hpath :
      FileTree.fileAbove [] Settings.settingsFile 0 = .ofNames [Settings.settingsFile] := by
    decide +kernel
  refine ⟨_, (standsAt_root content).resolve_eq, 0, Nat.le_refl _, hpath.symm,
    (standsAt_settings content).isFile_eq, fun m hlt hle => ?_⟩
  exact absurd hle (Nat.not_le.mpr hlt)

theorem reading_settings : (withSettings content).reading .settingsFile =
    (tableOf content >>= fun t => .ok (ofSettingsFile t)).mapError .fault := by
  show ofNearest .. = _
  rw [ofNearest_found (FileTree.findNearest_eq_some_iff.mpr (isNearest_settings content)),
    (standsAt_settings content).read_eq]
  rfl

theorem reading_project : (withSettings content).reading .projectFile = .ok .empty := by
  have hpath : FileTree.fileAbove [] Settings.projectFile 0 = .ofNames [Settings.projectFile] := by
    decide +kernel
  have hwalk : FileTree.walk (withSettings content).tree.top FileTree.linkLimit []
      [Settings.projectFile] = .error .notFound :=
    FileTree.walk_of_missing rfl (by decide +kernel) (if_neg (by decide +kernel))
  have hmissing : (withSettings content).tree.isFile (.ofNames [Settings.projectFile]) =
      .ok false := by
    rw [FileTree.isFile, FileTree.lookup?_ofNames _ (by decide +kernel) (by decide +kernel), hwalk]
    rfl
  have hnone : (withSettings content).tree.findNearest Settings.projectFile
      (withSettings content).start? = .ok none := by
    have hgo := FileTree.go_zero (hpath ▸ hmissing)
    rw [FileTree.findNearest]
    exact (congrArg (· >>= _) (standsAt_root content).resolve_eq).trans hgo
  show ofNearest .. = _
  rw [ofNearest, hnone]
  rfl

theorem load_withSettings : (withSettings content).load =
    (tableOf content).mapError .fault >>= fun t =>
      (ofLayer (fun f => (if f = .cacheMaxEntries then some (.int 0) else none).or
        (ofSettingsFile t f))).mapError .refused := by
  have hcommand : (withSettings content).reading .commandLine =
      .ok fun f => if f = .cacheMaxEntries then some (.int 0) else none := by
    refine congrArg Except.ok (funext fun f => ?_)
    cases f <;> rfl
  rw [load_eq, hcommand, reading_project, reading_settings]
  cases tableOf content with
  | error e => rfl
  | ok t =>
      refine congrArg (fun layer => (ofLayer layer).mapError Failure.refused) (funext fun f => ?_)
      simp [Layer.over, Layer.empty, ofEnvironment, withSettings]

end Files

section Outcomes

/-! Equality of outcomes cannot be decided, so a run is put to a test of its own. -/

variable {r : Except Failure Settings}

/-- A run is refused for the name of its package. -/
def lacksName : Except Failure Settings → Bool
  | .error (.refused .emptyPackageName) => true
  | _ => false

/-- A run is refused for the number of its cache entries. -/
def lacksEntries : Except Failure Settings → Bool
  | .error (.refused .tooFewEntries) => true
  | _ => false

/-- A run comes upon a file that is no text. -/
def lacksText : Except Failure Settings → Bool
  | .error (.fault (.undecodable _)) => true
  | _ => false

theorem eq_of_lacksName (h : lacksName r = true) : r = .error (.refused .emptyPackageName) := by
  unfold lacksName at h
  split at h
  · rfl
  · cases h

theorem eq_of_lacksEntries (h : lacksEntries r = true) : r = .error (.refused .tooFewEntries) := by
  unfold lacksEntries at h
  split at h
  · rfl
  · cases h

theorem exists_of_lacksText (h : lacksText r = true) :
    ∃ e, r = .error (.fault (.undecodable e)) := by
  unfold lacksText at h
  split at h
  · exact ⟨_, rfl⟩
  · cases h

end Outcomes

/-- A settings file with an empty name and with a number of cache entries. -/
def entriesText (value : List UInt8) : List UInt8 :=
  Wire.ascii "package_name = \"\"\ncache_max_entries = ".toList ++ value ++ [10]

theorem load_entries : (withSettings (entriesText (Wire.ascii "5".toList))).load =
    .error (.refused .emptyPackageName) := by
  rw [load_withSettings]
  exact eq_of_lacksName (by decide +kernel)

/-- A run without files, with a number of cache entries in the environment and on the command
line. -/
def withVariable (value : String) : Origin where
  tree := ⟨.directory [], []⟩
  environment := [("VUE_TYPE_CHECK_CACHE_MAX_ENTRIES", value)]
  overrides := .obj [("cache_max_entries", .int 3)]
  start? := none

theorem withVariable_agrees (value value' : String) :
    (withVariable value).AgreesWith (withVariable value') := by
  intro source
  cases source with
  | commandLine | settingsFile | projectFile => exact .inl rfl
  | environment =>
      refine .inr ⟨⟨_, rfl⟩, ⟨_, rfl⟩, fun f => ?_⟩
      by_cases hf : f = .cacheMaxEntries
      · subst hf
        exact .inr ⟨.commandLine, .head _, .int 3, _, .int 3, rfl, rfl, by simp [Json.kind], rfl⟩
      · refine .inl fun v => ?_
        have hnone (value : String) : (withVariable value).environment.get?
            (variableStart ++ f.key.toUpper) = none := by
          refine if_neg ?_
          cases f <;> first | exact absurd rfl hf | decide +kernel
        simp [Origin.Sets, hnone]

/-! ## The settings of a run -/

/-- The settings of a run that are checked, be it that they pass or are refused, are each that of
the first source that gives one. Two runs whose sources differ only in what comes too late have the
same outcome. -/
theorem load_takes_first (o : Origin) :
    (∀ r : Except Refusal Settings, o.load = r.mapError .refused →
      ∃ value : Field → Setting, (∀ f, o.Gives f (value f)) ∧
        ofLayer (fun f => some (value f)) = r) ∧
    ∀ o', o.AgreesWith o' → o.load = o'.load := by
  refine ⟨fun r hr => ?_, fun o' => load_congr⟩
  obtain ⟨layers, hlayers⟩ := exists_layers_of_load hr
  refine ⟨fun f => (merged layers f).getD (default f), gives_merged hlayers, ?_⟩
  rw [load_eq_of_readings hlayers] at hr
  rw [ofLayer_getD]
  exact mapError_injective (fun e e' he => Failure.refused.inj he) hr

theorem load_takes_first_variable :
    (∃ value : Field → Setting,
      (∀ f, (withSettings (entriesText (Wire.ascii "5".toList))).Gives f (value f)) ∧
        ofLayer (fun f => some (value f)) = .error .emptyPackageName) ∧
      (withVariable "five").load = (withVariable "5").load :=
  ⟨(load_takes_first _).1 (.error .emptyPackageName) load_entries,
    (load_takes_first _).2 _ (withVariable_agrees "five" "5")⟩

/-- What is given for a setting that an earlier source sets does matter where the file is no TOML
then, as it counts as empty, or no text. -/
theorem load_unreadable_value :
    (∀ content, (withSettings content).Sets .commandLine .cacheMaxEntries (.int 0)) ∧
      (withSettings (entriesText (Wire.ascii "5".toList))).load =
        .error (.refused .emptyPackageName) ∧
      (withSettings (entriesText (Wire.ascii "five".toList))).load =
        .error (.refused .tooFewEntries) ∧
      ∃ e, (withSettings (entriesText [34, 255, 34])).load = .error (.fault (.undecodable e)) := by
  refine ⟨fun content => ⟨_, .int 0, rfl, rfl, by simp [Json.kind], rfl⟩,
    load_entries, ?_, ?_⟩
  · rw [load_withSettings]
    exact eq_of_lacksEntries (by decide +kernel)
  · rw [load_withSettings]
    exact exists_of_lacksText (by decide +kernel)

end SfcCheck.Settings
