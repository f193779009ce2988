import SfcCheck.Proofs.Validation.Quiet
import SfcCheck.Run

/-!
# What it takes to pass

A run passes just if all of its stages succeed and no document has a diagnostic. `Passes` says what
this takes without a report or a tally, so that it is also said that no failure is forgotten on the
way, not even the one of a server that cannot be stopped after all documents were found clean.
-/

namespace SfcCheck.Run

open Attempt Validation

variable {σ : Type} {srv : Server σ} {room : Nat}

/-- The session can be entered, all documents validated and the session stopped, and no document
has a diagnostic. -/
def Clean (srv : Server σ) (withScript : Bool) (ds : List Document)
    (v : Validation (Session σ)) : Prop :=
  ∃ v₁ found v₂,
    withSession (Session.enter srv) v = (.ok (), v₁) ∧
    ds.mapM (validate (Session.diagnostics srv) withScript) v₁ = (.ok found, v₂) ∧
    (∀ xs ∈ found, xs = []) ∧
    (withSession (Session.stop srv) v₂).1 = .ok ()

/-- The settings, the workspace and the sources can be read, and the documents, if any, are
clean. -/
def Passes (srv : Server σ) (tree : FileTree) (environment : Table String) (processId : Nat)
    (clock : Nat → Float) (o : Options) : Prop :=
  ∃ s w ds,
    settings tree environment o = .ok s ∧
    workspace tree o s = .ok w ∧
    (o.onlyTyped = true → ∃ b, w.hasTypescript = .ok b) ∧
    documents tree o = .ok ds ∧
    (ds ≠ [] → Clean srv (!o.onlyTemplate) ds (validation processId clock s w))

/-! ## Conversations -/

section Conversations

variable {withScript : Bool} {ds : List Document} {v v' : Validation (Session σ)}

theorem tally_withSession {ε α : Type} (act : Talk σ ε α) (v : Validation (Session σ)) :
    (withSession act v).2.tally = v.tally := rfl

/-- A conversation succeeds just if its three parts do. -/
theorem converse_eq_ok_iff :
    converse srv room withScript ds v = (.ok (), v') ↔
      ∃ v₁ v₂, withSession (Session.enter srv) v = (.ok (), v₁) ∧
        checkAll room (Session.diagnostics srv) withScript ds v₁ = (.ok (), v₂) ∧
        withSession (Session.stop srv) v₂ = (.ok (), v') := by
  unfold converse
  constructor
  · intro h
    split at h
    · cases h
    · next v₁ henter =>
        rcases hchecked : checkAll room (Session.diagnostics srv) withScript ds v₁ with ⟨r, v₂⟩
        rw [hchecked] at h
        dsimp only at h
        split at h
        · cases h
        · next v₃ hstop =>
            obtain ⟨hr, rfl⟩ := Prod.mk.inj h
            cases r with
            | error e => cases hr
            | ok _ => exact ⟨v₁, v₂, henter, hchecked, hstop⟩
  · rintro ⟨v₁, v₂, henter, hchecked, hstop⟩
    simp only [henter, hchecked, hstop]
    rfl

/-- A conversation succeeds without findings just if the documents are clean. -/
theorem converse_quiet_iff :
    (∃ v', converse srv room withScript ds v = (.ok (), v') ∧
        v'.tally.diagnostics = v.tally.diagnostics) ↔
      Clean srv withScript ds v := by
  constructor
  · rintro ⟨v', hconverse, hcount⟩
    obtain ⟨v₁, v₂, henter, hchecked, hstop⟩ := converse_eq_ok_iff.mp hconverse
    have hv₁ : v₁.tally = v.tally := congrArg (·.2.tally) henter.symm
    have hv' : v'.tally = v₂.tally := congrArg (·.2.tally) hstop.symm
    rw [hv', ← hv₁] at hcount
    obtain ⟨found, w, hfound, hnone, rfl⟩ := checkAll_quiet_iff.mp ⟨hchecked, hcount⟩
    exact ⟨v₁, found, w, henter, hfound, hnone, congrArg Prod.fst hstop⟩
  · rintro ⟨v₁, found, w, henter, hfound, hnone, hstop⟩
    obtain ⟨hchecked, hcount⟩ := checkAll_quiet_iff.mpr ⟨found, w, hfound, hnone, rfl⟩
    refine ⟨_, converse_eq_ok_iff.mpr ⟨v₁, _, henter, hchecked, Prod.ext hstop rfl⟩, ?_⟩
    have hv₁ : v₁.tally = v.tally := congrArg (·.2.tally) henter.symm
    rw [tally_withSession, hcount, hv₁]

end Conversations

/-! ## Stages -/

section Stages

variable {tree : FileTree} {environment : Table String} {processId : Nat} {clock : Nat → Float}
variable {o : Options} {w : Workspace} {r r' : Report σ}

/-- A report with other notes at most. -/
structure SameButNotes (r r' : Report σ) : Prop where
  tally : r'.tally = r.tally
  failure? : r'.failure? = r.failure?
  validation? : r'.validation? = r.validation?

theorem SameButNotes.refl (r : Report σ) : SameButNotes r r := ⟨rfl, rfl, rfl⟩

theorem SameButNotes.trans (r r' r'' : Report σ) (h : SameButNotes r r')
    (h' : SameButNotes r' r'') : SameButNotes r r'' :=
  ⟨h'.tally.trans h.tally, h'.failure?.trans h.failure?, h'.validation?.trans h.validation?⟩

theorem liftExcept_eq_ok_iff {ε α : Type} {failure : ε → Failure} {result : Except ε α} {a : α} :
    liftExcept failure result r = (.ok a, r') ↔ result = .ok a ∧ r' = r := by
  constructor
  · intro h
    obtain ⟨hresult, rfl⟩ := Prod.mk.inj h
    cases result with
    | error e => cases hresult
    | ok b =>
        cases hresult
        exact ⟨rfl, rfl⟩
  · rintro ⟨rfl, rfl⟩
    rfl

theorem note_ok (line : String) (r : Report σ) :
    ∃ r', note line r = (.ok (), r') ∧ SameButNotes r r' :=
  ⟨_, rfl, rfl, rfl, rfl⟩

theorem noteIf_ok (wanted : Bool) (line : String) (r : Report σ) :
    ∃ r', noteIf wanted line r = (.ok (), r') ∧ SameButNotes r r' := by
  rw [noteIf]
  split
  · exact note_ok line r
  · exact ⟨r, rfl, SameButNotes.refl r⟩

theorem keeps_warnUntyped (o : Options) (w : Workspace) :
    Keeps SameButNotes (warnUntyped o w : Stage σ Unit) := by
  unfold warnUntyped
  split
  · refine Keeps.bind SameButNotes.trans (fun r => SameButNotes.refl r) fun typed => ?_
    split
    · exact fun r => ⟨rfl, rfl, rfl⟩
    · exact keeps_pure SameButNotes.refl ()
  · exact keeps_pure SameButNotes.refl ()

/-- The warning fails just if it cannot be found out whether to give it. -/
theorem warnUntyped_ok_iff :
    (∃ r', warnUntyped o w r = (.ok (), r')) ↔
      (o.onlyTyped = true → ∃ b, w.hasTypescript = .ok b) := by
  unfold warnUntyped
  split
  · next htyped =>
      constructor
      · rintro ⟨r', h⟩ -
        obtain ⟨b, _, hlift, -⟩ := bind_eq_ok_iff.mp h
        exact ⟨b, (liftExcept_eq_ok_iff.mp hlift).1⟩
      · intro h
        obtain ⟨b, hb⟩ := h htyped
        rw [bind_ok (liftExcept_eq_ok_iff.mpr ⟨hb, rfl⟩)]
        cases b with
        | false => exact ⟨_, rfl⟩
        | true => exact ⟨_, rfl⟩
  · next htyped => exact ⟨fun _ h => absurd h htyped, fun _ => ⟨r, rfl⟩⟩

/-- Checking documents succeeds without findings just if they are clean. -/
theorem checkDocuments_quiet_iff {withScript : Bool} {ds : List Document}
    {v : Validation (Session σ)} (hv : v.tally.diagnostics = 0) :
    (∃ r', checkDocuments srv room withScript ds v r = (.ok (), r') ∧ r'.tally.diagnostics = 0) ↔
      Clean srv withScript ds v := by
  rw [← converse_quiet_iff, hv]
  simp only [checkDocuments]
  constructor
  · rintro ⟨r', h, hcount⟩
    obtain ⟨hresult, rfl⟩ := Prod.mk.inj h
    exact ⟨_, Prod.ext hresult rfl, hcount⟩
  · rintro ⟨v', h, hcount⟩
    rw [h]
    exact ⟨_, rfl, hcount⟩

/-- The stages succeed without findings just if the run passes. -/
theorem stages_quiet_iff (room : Nat) :
    (∃ r, stages srv tree environment processId room clock o .blank = (.ok (), r) ∧
        r.tally.diagnostics = 0) ↔
      Passes srv tree environment processId clock o := by
  unfold stages
  constructor
  · rintro ⟨r, h, hcount⟩
    obtain ⟨s, r₀, hlift₁, h⟩ := bind_eq_ok_iff.mp h
    obtain ⟨w, r₁, hlift₂, h⟩ := bind_eq_ok_iff.mp h
    obtain ⟨_, r₂, hwarn, h⟩ := bind_eq_ok_iff.mp h
    obtain ⟨ds, r₃, hlift₃, h⟩ := bind_eq_ok_iff.mp h
    refine ⟨s, w, ds, (liftExcept_eq_ok_iff.mp hlift₁).1, (liftExcept_eq_ok_iff.mp hlift₂).1,
      warnUntyped_ok_iff.mp ⟨r₂, hwarn⟩, (liftExcept_eq_ok_iff.mp hlift₃).1, ?_⟩
    intro hds
    obtain ⟨_, r₄, -, h⟩ := bind_eq_ok_iff.mp h
    rw [if_neg (by simpa using hds)] at h
    obtain ⟨_, r₅, -, h⟩ := bind_eq_ok_iff.mp h
    exact (checkDocuments_quiet_iff rfl).mp ⟨r, h, hcount⟩
  · rintro ⟨s, w, ds, hsettings, hworkspace, htyped, hdocuments, hclean⟩
    obtain ⟨r₁, hwarn⟩ := warnUntyped_ok_iff.mpr htyped
    obtain ⟨r₂, hnote, hsame⟩ := noteIf_ok o.verbose
      s!"Checking {ds.length} file(s) under {o.source.text}" r₁
    rw [bind_ok (liftExcept_eq_ok_iff.mpr ⟨hsettings, rfl⟩),
      bind_ok (liftExcept_eq_ok_iff.mpr ⟨hworkspace, rfl⟩), bind_ok hwarn,
      bind_ok (liftExcept_eq_ok_iff.mpr ⟨hdocuments, rfl⟩), bind_ok hnote]
    by_cases hds : ds = []
    · rw [if_pos (by simpa using hds)]
      have htally := ((keeps_warnUntyped o w).of_eq hwarn).trans _ _ _ hsame
      exact ⟨r₂, rfl, congrArg Tally.diagnostics htally.tally⟩
    · obtain ⟨r₃, hstart, -⟩ := noteIf_ok o.verbose
        s!"Starting language server: {s.serverCommand}" r₂
      rw [if_neg (by simpa using hds), bind_ok hstart]
      exact (checkDocuments_quiet_iff rfl).mpr (hclean hds)

/-- Two reports of the same failure, or of none. -/
def SameFailure (r r' : Report σ) : Prop := r'.failure? = r.failure?

theorem SameFailure.refl (r : Report σ) : SameFailure r r := rfl

theorem SameFailure.trans (r r' r'' : Report σ) (h : SameFailure r r') (h' : SameFailure r' r'') :
    SameFailure r r'' := Eq.trans h' h

theorem keeps_noteIf (wanted : Bool) (line : String) :
    Keeps SameButNotes (noteIf wanted line : Stage σ Unit) := by
  intro r
  obtain ⟨r', h, hsame⟩ := noteIf_ok wanted line r
  rw [h]
  exact hsame

/-- The stages themselves report no failure. -/
theorem keeps_stages : Keeps SameFailure (stages srv tree environment processId room clock o) := by
  refine Keeps.bind SameFailure.trans SameFailure.refl fun s =>
    Keeps.bind SameFailure.trans SameFailure.refl fun w =>
    Keeps.bind SameFailure.trans (fun r => (keeps_warnUntyped o w r).failure?) fun _ =>
    Keeps.bind SameFailure.trans SameFailure.refl fun ds =>
    Keeps.bind SameFailure.trans (fun r => (keeps_noteIf _ _ r).failure?) fun _ => ?_
  split
  · exact keeps_pure SameFailure.refl ()
  · exact Keeps.bind SameFailure.trans (fun r => (keeps_noteIf _ _ r).failure?)
      fun _ => SameFailure.refl

/-! ## Runs -/

/-- A run ends with the failure that ended its stages. -/
theorem failure?_check :
    (check srv tree environment processId room o clock).failure? =
      match (stages srv tree environment processId room clock o .blank).1 with
      | .ok _ => none
      | .error e => some e := by
  have hkeeps : SameFailure .blank (stages srv tree environment processId room clock o .blank).2 :=
    keeps_stages .blank
  unfold check
  rcases hstages : stages srv tree environment processId room clock o .blank with ⟨e | _, r⟩
  · exact (keeps_noteIf _ _ _).failure?
  · rw [hstages] at hkeeps
    exact (keeps_noteIf _ _ _).failure?.trans hkeeps

/-- A run ends with the tally of its stages. -/
theorem tally_check :
    (check srv tree environment processId room o clock).tally =
      (stages srv tree environment processId room clock o .blank).2.tally := by
  unfold check
  rcases stages srv tree environment processId room clock o .blank with ⟨e | _, r⟩
  · exact (keeps_noteIf _ _ _).tally
  · exact (keeps_noteIf _ _ _).tally

/-- A run passes just if its stages succeed and find nothing. -/
theorem passed_check_iff (room : Nat) :
    (check srv tree environment processId room o clock).passed = true ↔
      Passes srv tree environment processId clock o := by
  rw [← stages_quiet_iff room, Report.passed, failure?_check, tally_check]
  rcases stages srv tree environment processId room clock o .blank with ⟨e | _, r⟩
  · constructor
    · exact fun h => absurd h Bool.false_ne_true
    · rintro ⟨_, h, -⟩
      cases h
  · have hnone : r.tally.hasFindings = false ↔ r.tally.diagnostics = 0 := by
      rw [← Bool.not_eq_true, r.tally.hasFindings_iff, Nat.pos_iff_ne_zero, Decidable.not_not]
    constructor
    · intro h
      exact ⟨r, rfl, hnone.mp (by simpa using h)⟩
    · rintro ⟨r', h, hcount⟩
      cases h
      simpa using hnone.mpr hcount

end Stages

end SfcCheck.Run
