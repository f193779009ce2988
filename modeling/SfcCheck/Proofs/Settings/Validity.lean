import SfcCheck.Proofs.Results
import SfcCheck.Settings.Basic

/-!
# What the checks of the settings guarantee

Settings that pass their checks name a command and two files, give the cache room and have two
times. The times are above zero if they are numbers at all: what is no number is not refused, since
it is not at most zero either. What does not pass is refused field by field, in the order of the
fields. The class of a refusal depends on the first field that does not admit its value and on that
value alone, and it is not always the class of a bad value (`ofFields_validates`).
-/

namespace SfcCheck

/-! ## Numbers above zero -/

namespace Setting

open Float.Model (UnpackedFloat)

variable {x : Float}

theorem unpack_zero : (0.0 : Float).toModel.unpack = .zero .positive := rfl

/-- A number is at most zero or above it. -/
theorem not_le_zero_iff : ¬ x ≤ 0.0 ↔ (x.isNaN = false → 0.0 < x) := by
  change ¬ decide (x.toModel.unpack.le (0.0 : Float).toModel.unpack = true) = true ↔
    (x.toModel.unpack.isNaN = false →
      decide ((0.0 : Float).toModel.unpack.lt x.toModel.unpack = true) = true)
  rw [unpack_zero]
  cases x.toModel.unpack with
  | notANumber => decide
  | infinity sign | zero sign => cases sign <;> decide
  | finite sign =>
      cases sign with
      | negative => exact iff_of_false (fun hle => hle rfl) fun hlt => Bool.false_ne_true (hlt rfl)
      | positive => exact iff_of_true Bool.false_ne_true fun _ => rfl

theorem not_pos_of_isNaN (h : x.isNaN = true) : ¬ 0.0 < x := by
  change x.toModel.unpack.isNaN = true at h
  change ¬ decide ((0.0 : Float).toModel.unpack.lt x.toModel.unpack = true) = true
  rw [unpack_zero]
  cases hx : x.toModel.unpack with
  | notANumber => decide
  | infinity | zero | finite =>
      rw [hx] at h
      cases h

theorem isInf_of_isNaN (h : x.isNaN = true) : x.isInf = false := by
  change x.toModel.unpack.isNaN = true at h
  change x.toModel.unpack.isInf = false
  cases hx : x.toModel.unpack with
  | notANumber => rfl
  | infinity | zero | finite =>
      rw [hx] at h
      cases h

end Setting

namespace Settings

open Setting

variable {layer : Layer} {fields : Table Setting} {f : Field} {v : Setting} {s : Settings}
  {e : Refusal}

/-! ## One field -/

/-- The class of a refusal. -/
def Refusal.label : Refusal → String
  | unknownField _ | reservedField _ => "TypeError"
  | fault e => e.label
  | _ => "ValueError"

/-- The values that a field admits. -/
def Admits : Field → Setting → Prop
  | .serverCommand, v =>
    ∃ s words, v = .text s ∧ s ≠ "" ∧ Words.ofText s = .ok words ∧ words ≠ []
  | .tsconfigName, v | .packageName, v => ∃ s, v = .text s ∧ s ≠ ""
  | .cacheMaxEntries, v => ∃ n, v.toInteger = .ok n ∧ 1 ≤ n
  | .cacheTtl, v | .responseTimeout, v =>
    ∃ x, v.toNumber = .ok x ∧ (x.isNaN = false → 0.0 < x)

/-- The class of the refusal of a value that a field does not admit. Values for which a number
cannot even be asked, and those that have none because of their size, have classes of their own. -/
def errorClass : Field → Setting → String
  | .cacheMaxEntries, .null | .cacheMaxEntries, .other _ | .cacheTtl, .null | .cacheTtl, .other _
  | .responseTimeout, .null | .responseTimeout, .other _ => "TypeError"
  | .cacheMaxEntries, .float x => if x.isInf then "OverflowError" else "ValueError"
  | .cacheTtl, .int n | .responseTimeout, .int n =>
    if (Decimal.ofInt? n).isNone then "OverflowError" else "ValueError"
  | _, _ => "ValueError"

/-- What a check refuses. -/
def refusalOf {α : Type} : Except Refusal α → Option Refusal
  | .error e => some e
  | .ok _ => none

/-- A command with its words, the first of which names an executable. -/
def command (v : Setting) : Except Refusal (String × List String) := do
  let serverCommand ← nonEmptyText .emptyCommand v
  let serverArgs ← (Words.ofText serverCommand).mapError .words
  if serverArgs.isEmpty then throw .noExecutable
  return (serverCommand, serverArgs)

/-- The refusal of a value by its field, if there is one. -/
def refusal? : Field → Setting → Option Refusal
  | .serverCommand, v => refusalOf (command v)
  | .tsconfigName, v => refusalOf (nonEmptyText .emptyTsconfigName v)
  | .packageName, v => refusalOf (nonEmptyText .emptyPackageName v)
  | .cacheMaxEntries, v => refusalOf (positiveInteger .tooFewEntries v)
  | .cacheTtl, v => refusalOf (positiveNumber .ttlNotPositive v)
  | .responseTimeout, v => refusalOf (positiveNumber .timeoutNotPositive v)

theorem refusalOf_eq_none_iff {α : Type} {r : Except Refusal α} :
    refusalOf r = none ↔ ∃ a, r = .ok a := by
  cases r <;> simp [refusalOf]

theorem nonEmptyText_eq_ok_iff {s : String} :
    nonEmptyText e v = .ok s ↔ v = .text s ∧ s ≠ "" := by
  cases v with
  | text t =>
      simp only [nonEmptyText, Setting.text.injEq]
      split <;> simp_all
      rintro rfl
      assumption
  | _ => simp [nonEmptyText]

theorem positiveInteger_eq_ok_iff {n : Int} :
    positiveInteger e v = .ok n ↔ v.toInteger = .ok n ∧ 1 ≤ n := by
  unfold positiveInteger
  cases v.toInteger with
  | error e => simp
  | ok m =>
      by_cases hm : m < 1
      · simp [hm]
        omega
      · simp [hm]
        omega

theorem positiveNumber_eq_ok_iff {x : Float} :
    positiveNumber e v = .ok x ↔ v.toNumber = .ok x ∧ (x.isNaN = false → 0.0 < x) := by
  unfold positiveNumber
  cases v.toNumber with
  | error e => simp
  | ok y =>
      by_cases hy : y ≤ 0.0
      · simp only [hy, if_true, reduceCtorEq, false_iff, not_and, Except.ok.injEq]
        rintro rfl
        rw [← not_le_zero_iff]
        exact not_not.mpr hy
      · simp only [hy, if_false, Except.ok.injEq, iff_self_and]
        rintro rfl
        exact not_le_zero_iff.mp hy

theorem command_eq_ok_iff {s : String} {words : List String} :
    command v = .ok (s, words) ↔
      v = .text s ∧ s ≠ "" ∧ Words.ofText s = .ok words ∧ words ≠ [] := by
  constructor
  · intro h
    obtain ⟨text, htext, h⟩ := exists_of_bind_ok h
    obtain ⟨ws, hws, h⟩ := exists_of_bind_ok h
    obtain ⟨rfl, hne⟩ := nonEmptyText_eq_ok_iff.mp htext
    rw [mapError_eq_ok_iff] at hws
    cases ws with
    | nil => cases h
    | cons w ws =>
        cases h
        exact ⟨rfl, hne, hws, List.cons_ne_nil w ws⟩
  · rintro ⟨rfl, hne, hws, hwords⟩
    have htext : nonEmptyText .emptyCommand (.text s) = .ok s :=
      nonEmptyText_eq_ok_iff.mpr ⟨rfl, hne⟩
    have hwords' : words.isEmpty = false := by simpa using hwords
    rw [command, htext]
    simp [bind, Except.bind, hws, Except.mapError, hwords', pure, Except.pure]

/-- A field refuses the values that it does not admit. -/
theorem refusal?_eq_none_iff : refusal? f v = none ↔ Admits f v := by
  cases f <;>
    simp only [refusal?, refusalOf_eq_none_iff, Admits, Prod.exists, command_eq_ok_iff,
      nonEmptyText_eq_ok_iff, positiveInteger_eq_ok_iff, positiveNumber_eq_ok_iff]

/-- What is refused as an integer has the class of what makes it none. -/
theorem errorClass_of_integer : errorClass .cacheMaxEntries v =
    match v.toInteger with
    | .error e => e.label
    | .ok _ => "ValueError" := by
  cases v with
  | null | bool | int | other => rfl
  | float x =>
      simp only [errorClass, toInteger]
      cases hnan : x.isNaN with
      | true => simp [isInf_of_isNaN hnan, Fault.label]
      | false => cases x.isInf <;> simp [Fault.label]
  | text s =>
      simp only [errorClass, toInteger, integerOfText]
      split
      · next h =>
          split at h
          · cases h
            rfl
          · split at h
            · cases h
              rfl
            · split at h <;> cases h
              rfl
      · rfl

theorem errorClass_of_number (hf : f = .cacheTtl ∨ f = .responseTimeout) : errorClass f v =
    match v.toNumber with
    | .error e => e.label
    | .ok _ => "ValueError" := by
  have hclass : errorClass .cacheTtl v =
      match v.toNumber with
      | .error e => e.label
      | .ok _ => "ValueError" := by
    cases v with
    | null | bool | float | other => rfl
    | int n =>
        simp only [errorClass, toNumber]
        cases Decimal.ofInt? n <;> simp [Fault.label]
    | text s =>
        simp only [errorClass, toNumber, numberOfText]
        split
        · next h =>
            split at h <;> cases h
            rfl
        · rfl
  obtain rfl | rfl := hf
  · exact hclass
  · rw [← hclass]
    cases v <;> rfl

section Labels

variable {r : Refusal}

theorem label_of_nonEmptyText (hr : r.label = "ValueError")
    (h : refusalOf (nonEmptyText r v) = some e) : e.label = "ValueError" := by
  unfold nonEmptyText at h
  split at h
  · split at h <;> cases h
    exact hr
  · cases h
    exact hr

theorem label_of_command (h : refusalOf (command v) = some e) : e.label = "ValueError" := by
  cases hread : command v with
  | ok r =>
      rw [hread] at h
      cases h
  | error e' =>
      rw [hread] at h
      cases h
      obtain htext | ⟨s, -, h⟩ := cases_of_bind_error hread
      · exact label_of_nonEmptyText rfl (congrArg refusalOf htext)
      · obtain hwords | ⟨ws, -, h⟩ := cases_of_bind_error h
        · cases hparse : Words.ofText s <;> rw [hparse] at hwords <;> cases hwords
          rfl
        · cases ws <;> cases h
          rfl

theorem label_of_positiveInteger (hr : r.label = "ValueError")
    (h : refusalOf (positiveInteger r v) = some e) : e.label = errorClass .cacheMaxEntries v := by
  rw [errorClass_of_integer]
  unfold positiveInteger at h
  cases hread : v.toInteger with
  | error e' =>
      rw [hread] at h
      cases h
      rfl
  | ok n =>
      rw [hread] at h
      dsimp only at h
      split at h <;> cases h
      exact hr

theorem label_of_positiveNumber (hr : r.label = "ValueError")
    (hf : f = .cacheTtl ∨ f = .responseTimeout)
    (h : refusalOf (positiveNumber r v) = some e) : e.label = errorClass f v := by
  rw [errorClass_of_number hf]
  unfold positiveNumber at h
  cases hread : v.toNumber with
  | error e' =>
      rw [hread] at h
      cases h
      rfl
  | ok x =>
      rw [hread] at h
      dsimp only at h
      split at h <;> cases h
      exact hr

theorem label_of_refusal? (h : refusal? f v = some e) : e.label = errorClass f v := by
  cases f with
  | serverCommand => exact label_of_command h
  | tsconfigName | packageName => exact label_of_nonEmptyText rfl h
  | cacheMaxEntries => exact label_of_positiveInteger rfl h
  | cacheTtl => exact label_of_positiveNumber rfl (.inl rfl) h
  | responseTimeout => exact label_of_positiveNumber rfl (.inr rfl) h

end Labels

/-! ## All fields -/

/-- The value of a field in a layer, or else the default one. -/
def Layer.given (layer : Layer) (f : Field) : Setting := (layer f).getD (default f)

theorem ofLayer_eq (layer : Layer) : ofLayer layer = (do
    let (serverCommand, serverArgs) ← command (layer.given .serverCommand)
    let tsconfigName ← nonEmptyText .emptyTsconfigName (layer.given .tsconfigName)
    let packageName ← nonEmptyText .emptyPackageName (layer.given .packageName)
    let cacheMaxEntries ← positiveInteger .tooFewEntries (layer.given .cacheMaxEntries)
    let cacheTtl ← positiveNumber .ttlNotPositive (layer.given .cacheTtl)
    let responseTimeout ← positiveNumber .timeoutNotPositive (layer.given .responseTimeout)
    return ⟨serverCommand, serverArgs, tsconfigName, packageName, cacheMaxEntries, cacheTtl,
      responseTimeout⟩) := by
  unfold ofLayer command
  simp only [Layer.given, bind, Except.bind]
  cases nonEmptyText .emptyCommand ((layer .serverCommand).getD (default .serverCommand)) with
  | error e => rfl
  | ok c =>
      dsimp only
      cases (Words.ofText c).mapError Refusal.words with
      | error e => rfl
      | ok words => cases words <;> rfl

/-- Settings are what the values of a layer stand for. -/
structure Denotes (layer : Layer) (s : Settings) : Prop where
  serverCommand : layer.given .serverCommand = .text s.serverCommand
  serverArgs : Words.ofText s.serverCommand = .ok s.serverArgs
  tsconfigName : layer.given .tsconfigName = .text s.tsconfigName
  packageName : layer.given .packageName = .text s.packageName
  cacheMaxEntries : (layer.given .cacheMaxEntries).toInteger = .ok s.cacheMaxEntries
  cacheTtl : (layer.given .cacheTtl).toNumber = .ok s.cacheTtl
  responseTimeout : (layer.given .responseTimeout).toNumber = .ok s.responseTimeout

/-- What the checks guarantee of settings. -/
structure Sound (s : Settings) : Prop where
  serverCommand : s.serverCommand ≠ ""
  serverArgs : s.serverArgs ≠ []
  tsconfigName : s.tsconfigName ≠ ""
  packageName : s.packageName ≠ ""
  cacheMaxEntries : 1 ≤ s.cacheMaxEntries
  cacheTtl : s.cacheTtl.isNaN = false → 0.0 < s.cacheTtl
  responseTimeout : s.responseTimeout.isNaN = false → 0.0 < s.responseTimeout

theorem ofLayer_eq_ok_iff : ofLayer layer = .ok s ↔ Denotes layer s ∧ Sound s := by
  rw [ofLayer_eq]
  constructor
  · intro h
    obtain ⟨⟨command, words⟩, hcommand, h⟩ := exists_of_bind_ok h
    obtain ⟨tsconfig, htsconfig, h⟩ := exists_of_bind_ok h
    obtain ⟨package, hpackage, h⟩ := exists_of_bind_ok h
    obtain ⟨entries, hentries, h⟩ := exists_of_bind_ok h
    obtain ⟨ttl, httl, h⟩ := exists_of_bind_ok h
    obtain ⟨timeout, htimeout, h⟩ := exists_of_bind_ok h
    cases h
    obtain ⟨htext, hne, hwords, hargs⟩ := command_eq_ok_iff.mp hcommand
    rw [nonEmptyText_eq_ok_iff] at htsconfig hpackage
    rw [positiveInteger_eq_ok_iff] at hentries
    rw [positiveNumber_eq_ok_iff] at httl htimeout
    exact ⟨⟨htext, hwords, htsconfig.1, hpackage.1, hentries.1, httl.1, htimeout.1⟩,
      ⟨hne, hargs, htsconfig.2, hpackage.2, hentries.2, httl.2, htimeout.2⟩⟩
  · rintro ⟨h, hs⟩
    rw [command_eq_ok_iff.mpr ⟨h.serverCommand, hs.serverCommand, h.serverArgs, hs.serverArgs⟩,
      nonEmptyText_eq_ok_iff.mpr ⟨h.tsconfigName, hs.tsconfigName⟩,
      nonEmptyText_eq_ok_iff.mpr ⟨h.packageName, hs.packageName⟩,
      positiveInteger_eq_ok_iff.mpr ⟨h.cacheMaxEntries, hs.cacheMaxEntries⟩,
      positiveNumber_eq_ok_iff.mpr ⟨h.cacheTtl, hs.cacheTtl⟩,
      positiveNumber_eq_ok_iff.mpr ⟨h.responseTimeout, hs.responseTimeout⟩]
    rfl

/-- A step that checks a field leaves the fields after it to the steps after it. -/
theorem refusalOf_bind {α β : Type} {x : Except Refusal α} {next : α → Except Refusal β}
    {fs : List Field} (hx : refusalOf x = refusal? f (layer.given f))
    (h : ∀ a, refusalOf (next a) = fs.findSome? fun f => refusal? f (layer.given f)) :
    refusalOf (x >>= next) = (f :: fs).findSome? fun f => refusal? f (layer.given f) := by
  rw [List.findSome?_cons, ← hx]
  cases x with
  | error e => rfl
  | ok a => exact h a

/-- The first field that refuses its value decides. -/
theorem refusalOf_ofLayer (layer : Layer) :
    refusalOf (ofLayer layer) = Field.all.findSome? fun f => refusal? f (layer.given f) := by
  rw [ofLayer_eq, Field.all]
  apply refusalOf_bind rfl
  intro command
  apply refusalOf_bind rfl
  intro tsconfig
  apply refusalOf_bind rfl
  intro package
  apply refusalOf_bind rfl
  intro entries
  apply refusalOf_bind rfl
  intro ttl
  apply refusalOf_bind rfl
  intro timeout
  rfl

theorem mem_all (f : Field) : f ∈ Field.all := by
  cases f <;> decide

theorem ofLayer_accepts_iff : (∃ s, ofLayer layer = .ok s) ↔ ∀ f, Admits f (layer.given f) := by
  rw [← refusalOf_eq_none_iff, refusalOf_ofLayer, List.findSome?_eq_none_iff]
  constructor
  · intro h f
    exact refusal?_eq_none_iff.mp (h f (mem_all f))
  · intro h f _
    exact refusal?_eq_none_iff.mpr (h f)

/-- The fields before `f`, in the order in which they are checked, admit their values, and `f` does
not. -/
def FirstRefused (layer : Layer) (f : Field) : Prop :=
  ∃ before after, Field.all = before ++ f :: after ∧ (∀ g ∈ before, Admits g (layer.given g)) ∧
    ¬ Admits f (layer.given f)

theorem exists_firstRefused (h : ofLayer layer = .error e) :
    ∃ f, FirstRefused layer f ∧ e.label = errorClass f (layer.given f) := by
  have hsome : refusalOf (ofLayer layer) = some e := congrArg refusalOf h
  rw [refusalOf_ofLayer, List.findSome?_eq_some_iff] at hsome
  obtain ⟨before, f, after, hall, hrefused, hbefore⟩ := hsome
  refine ⟨f, ⟨before, after, hall, ?_, ?_⟩, label_of_refusal? hrefused⟩
  · intro g hg
    exact refusal?_eq_none_iff.mp (hbefore g hg)
  · rw [← refusal?_eq_none_iff, hrefused]
    simp

/-- What the entries of a table say of each field. -/
def ofTable (fields : Table Setting) : Layer := fun f => fields.get? f.key

/-- A table with no other entries is checked field by field. -/
theorem ofFields_eq (h : ∀ key ∈ fields.keys, ∃ f : Field, f.key = key) :
    ofFields fields = ofLayer (ofTable fields) := by
  have hknown : unknown? fields = none := by
    rw [unknown?, List.findSome?_eq_none_iff]
    intro entry hentry
    obtain ⟨f, hf⟩ := h entry.1 (List.mem_map_of_mem hentry)
    rw [if_pos]
    rw [List.any_eq_true]
    exact ⟨f, mem_all f, beq_iff_eq.mpr hf⟩
  rw [ofFields, hknown]
  rfl

/-- Settings are accepted just if every field admits its value. What is accepted is what the values
stand for and is sound, but a time that is no number is not above zero. What is refused is refused
in the class of the first field that does not admit its value. -/
theorem ofFields_validates (h : ∀ key ∈ fields.keys, ∃ f : Field, f.key = key) :
    ((∃ s, ofFields fields = .ok s) ↔ ∀ f, Admits f ((ofTable fields).given f)) ∧
    (∀ s, ofFields fields = .ok s ↔ Denotes (ofTable fields) s ∧ Sound s) ∧
    ∀ e, ofFields fields = .error e →
      ∃ f, FirstRefused (ofTable fields) f ∧ e.label = errorClass f ((ofTable fields).given f) := by
  rw [ofFields_eq h]
  exact ⟨ofLayer_accepts_iff, fun _ => ofLayer_eq_ok_iff, fun _ => exists_firstRefused⟩

/-- Every field admits its default value. -/
theorem admits_default (f : Field) : Admits f (default f) := by
  cases f with
  | serverCommand => exact ⟨_, ["vls", "--stdio"], rfl, by decide, rfl, by simp⟩
  | tsconfigName | packageName => exact ⟨_, rfl, by decide⟩
  | cacheMaxEntries => exact ⟨10, rfl, by decide⟩
  | cacheTtl | responseTimeout => exact ⟨_, rfl, by decide +kernel⟩

/-- Numbers may be given as texts. -/
theorem ofFields_validates_texts :
    (∀ key ∈
        Table.keys [("cache_max_entries", Setting.text "5"), ("response_timeout", .text "2.5")],
      ∃ f : Field, f.key = key) ∧
    ∃ s, ofFields [("cache_max_entries", .text "5"), ("response_timeout", .text "2.5")] = .ok s ∧
      Sound s ∧ s.cacheMaxEntries = 5 := by
  have hknown : ∀ key ∈
      Table.keys [("cache_max_entries", Setting.text "5"), ("response_timeout", .text "2.5")],
      ∃ f : Field, f.key = key := by
    simp only [Table.keys, List.map_cons, List.map_nil, List.forall_mem_cons]
    exact ⟨⟨.cacheMaxEntries, rfl⟩, ⟨.responseTimeout, rfl⟩, by simp⟩
  obtain ⟨haccepts, hsound, -⟩ := ofFields_validates hknown
  obtain ⟨s, hs⟩ := haccepts.mpr fun f => by
    cases f with
    | cacheMaxEntries => exact ⟨5, rfl, by decide⟩
    | responseTimeout => exact ⟨_, rfl, by decide +kernel⟩
    | serverCommand | tsconfigName | packageName | cacheTtl => exact admits_default _
  obtain ⟨hdenotes, hs'⟩ := (hsound s).mp hs
  have hentries := hdenotes.cacheMaxEntries
  exact ⟨hknown, s, hs, hs', (Except.ok.inj hentries).symm⟩

/-- A time that is no number, an entry count that is null and one that is infinite. -/
theorem ofFields_unsound :
    (∃ s, ofFields [("response_timeout", .float (0.0 / 0.0))] = .ok s ∧
      ¬ 0.0 < s.responseTimeout) ∧
    (∃ e, ofFields [("cache_max_entries", .null)] = .error e ∧ e.label = "TypeError") ∧
    ∃ e, ofFields [("cache_max_entries", .float Decimal.infinity)] = .error e ∧
      e.label = "OverflowError" := by
  refine ⟨?_, ⟨.fault (.notInteger .null), rfl, rfl⟩, ⟨.fault .infiniteInteger, rfl, rfl⟩⟩
  have hnan : (0.0 / 0.0 : Float).isNaN = true := by decide +kernel
  refine ⟨⟨_, _, _, _, _, _, 0.0 / 0.0⟩, rfl, not_pos_of_isNaN hnan⟩

end Settings

end SfcCheck
