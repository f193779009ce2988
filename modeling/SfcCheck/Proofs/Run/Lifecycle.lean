import SfcCheck.Proofs.Run.Passing
import SfcCheck.Proofs.Session.Keeping

/-!
# What a run starts and what it leaves

A run tries to start its server once if everything before that succeeds and leaves a document to
check, and never otherwise. However the run goes on from there, it lets go of the process only when
that has finished, and the regions that it kept are gone.
-/

namespace SfcCheck

open Attempt

/-! ## What a reporter goes through -/

namespace Validation

variable {γ ε : Type} {R : γ → γ → Prop} {reporter : Reporter γ ε} {withScript : Bool}
variable {room : Nat}

/-- A relation between the reporters of two validations. -/
def OnReporter (R : γ → γ → Prop) (v v' : Validation γ) : Prop := R v.reporter v'.reporter

section OnReporter

variable (hrefl : ∀ g, R g g) (htrans : ∀ g g' g'', R g g' → R g' g'' → R g g'')
  (hask : ∀ d, Keeps R (reporter d))

include hrefl in
theorem OnReporter.refl (v : Validation γ) : OnReporter R v v := hrefl v.reporter

include htrans in
theorem OnReporter.trans (v v' v'' : Validation γ) (h : OnReporter R v v')
    (h' : OnReporter R v' v'') : OnReporter R v v'' := htrans _ _ _ h h'

include hrefl htrans hask

theorem onReporter_ofKind (kind : BlockKind) (d : Document) :
    Keeps (OnReporter R) (ofKind reporter kind d) := by
  refine Keeps.bind (OnReporter.trans htrans) (OnReporter.refl hrefl) fun regions => ?_
  split
  · exact OnReporter.refl hrefl
  · exact Keeps.bind (OnReporter.trans htrans) (fun v => hask d v.reporter)
      fun _ => OnReporter.refl hrefl

theorem onReporter_validate (d : Document) :
    Keeps (OnReporter R) (validate reporter withScript d) := by
  refine Keeps.bind (OnReporter.trans htrans) ?_ fun templates => ?_
  · rw [template]
    split
    · exact onReporter_ofKind hrefl htrans hask .template d
    · exact OnReporter.refl hrefl
  · dsimp only
    split
    · exact Keeps.bind (OnReporter.trans htrans) (onReporter_ofKind hrefl htrans hask .script d)
        fun _ => OnReporter.refl hrefl
    · exact OnReporter.refl hrefl

/-- Checking documents does no more to a reporter than asking it. -/
theorem onReporter_checkAll (ds : List Document) :
    Keeps (OnReporter R) (checkAll room reporter withScript ds) := by
  have hprint (d : Document) (x : Diagnostic) :
      Keeps (OnReporter R) (print room d x : Step γ ε Unit) :=
    Keeps.bind (OnReporter.trans htrans) (OnReporter.refl hrefl) fun _ => OnReporter.refl hrefl
  refine Keeps.forM (OnReporter.refl hrefl) (OnReporter.trans htrans) (fun d => ?_) ds
  refine Keeps.bind (OnReporter.trans htrans) (onReporter_validate hrefl htrans hask d)
    fun found => Keeps.bind (OnReporter.trans htrans) (OnReporter.refl hrefl) fun _ =>
    Keeps.bind (OnReporter.trans htrans) ?_ fun _ => OnReporter.refl hrefl
  exact Keeps.forM (OnReporter.refl hrefl) (OnReporter.trans htrans) (hprint d) found

end OnReporter

end Validation

namespace Run

variable {σ : Type} {srv : Server σ} {room : Nat}

/-! ## Conversations -/

section Conversations

variable {withScript : Bool} {ds : List Document} {v : Validation (Session σ)}

/-- What a conversation leaves of a session that had no process: it has tried to start one, and if
it could, it has let go of it. -/
structure Leaves (srv : Server σ) (s s' : Session σ) : Prop where
  spawned : s'.spawned = s.spawned ++ [(s.command, s.workspace.root.text)]
  process : s'.process? = none
  letGo : srv.available = true → Session.LetGo srv (s.launched srv) s'

/-- If starting fails, a conversation ends with the stop of what was started. -/
theorem reporter_converse_of_start_error {e : Session.Failure} {t : Session σ}
    (h : Session.start srv v.reporter = (.error e, t)) :
    (converse srv room withScript ds v).2.reporter = (Session.stop srv t).2 := by
  have henter := Session.enter_of_start_error h
  cases hstop : (Session.stop srv t).1 with
  | error e' => simp only [converse, withSession, henter, hstop]
  | ok _ => simp only [converse, withSession, henter, hstop]

/-- If starting succeeds, a conversation ends with the stop after the documents. -/
theorem reporter_converse_of_start_ok {t : Session σ}
    (h : Session.start srv v.reporter = (.ok (), t)) :
    (converse srv room withScript ds v).2.reporter =
      (Session.stop srv (Validation.checkAll room (Session.diagnostics srv) withScript ds
        { v with reporter := t }).2.reporter).2 := by
  have henter := Session.enter_of_start_ok h
  rcases hcheck : Validation.checkAll room (Session.diagnostics srv) withScript ds
    { v with reporter := t } with ⟨r, u⟩
  rcases hstop : Session.stop srv u.reporter with ⟨e | _, t'⟩
  · simp only [converse, withSession, henter, hcheck, hstop]
  · simp only [converse, withSession, henter, hcheck, hstop]

theorem leaves_of_retains {s t : Session σ} (h : Session.Retains srv (s.launched srv) t) :
    Leaves srv s (Session.stop srv t).2 := by
  have hletGo := h.letGo rfl
  exact ⟨hletGo.spawned, hletGo.process?, fun _ => hletGo⟩

/-- However a conversation ends, the process that it started is let go of at the end. -/
theorem leaves_converse (hnone : v.reporter.process? = none) :
    Leaves srv v.reporter (converse srv room withScript ds v).2.reporter := by
  cases havailable : srv.available with
  | false =>
      have hstart := Session.start_of_unavailable hnone havailable
      have hnoted : v.reporter.noted.process? = none := hnone
      rw [reporter_converse_of_start_error hstart, Session.stop_of_no_process hnoted]
      refine ⟨rfl, hnone, fun h => ?_⟩
      rw [havailable] at h
      cases h
  | true =>
      have hstart := Session.start_of_available hnone havailable
      have hshaken := (Session.Retains.acrossParts srv).handshake (v.reporter.launched srv)
      rcases hhandshake : Session.handshake srv (v.reporter.launched srv) with ⟨e | _, t⟩
      · rw [hhandshake] at hstart hshaken
        rw [reporter_converse_of_start_error hstart]
        exact leaves_of_retains hshaken
      · rw [hhandshake] at hstart hshaken
        rw [reporter_converse_of_start_ok hstart]
        have hchecked : Validation.OnReporter (Session.Retains srv) { v with reporter := t }
            (Validation.checkAll room (Session.diagnostics srv) withScript ds
              { v with reporter := t }).2 :=
          Validation.onReporter_checkAll Session.Retains.refl Session.Retains.trans
            Session.Retains.diagnostics ds _
        exact leaves_of_retains (hshaken.trans _ _ _ hchecked)

end Conversations

/-! ## Stages -/

section Stages

variable {tree : FileTree} {environment : Table String} {processId : Nat} {clock : Nat → Float}
variable {o : Options} {s : Settings} {w : Workspace} {ds : List Document} {r : Report σ}

/-- The settings, the workspace and the sources can be read, and there are documents to check. -/
structure Prepared (tree : FileTree) (environment : Table String) (o : Options) (s : Settings)
    (w : Workspace) (ds : List Document) : Prop where
  settings : Run.settings tree environment o = .ok s
  workspace : Run.workspace tree o s = .ok w
  typed : o.onlyTyped = true → ∃ b, w.hasTypescript = .ok b
  documents : Run.documents tree o = .ok ds
  nonempty : ds ≠ []

/-- What is left of a validation at the end of a run. -/
def closed (v : Validation (Session σ)) : Validation (Session σ) :=
  { v with regions := v.regions.dispose }

/-- Once everything is prepared, the documents are checked. -/
theorem validation?_stages_of_prepared (h : Prepared tree environment o s w ds) :
    (stages srv tree environment processId room clock o r).2.validation? =
      some (closed
        (converse srv room (!o.onlyTemplate) ds (validation processId clock s w)).2) := by
  obtain ⟨r₁, hwarn⟩ : ∃ r₁, warnUntyped o w r = (.ok (), r₁) := warnUntyped_ok_iff.mpr h.typed
  obtain ⟨r₂, hnote, -⟩ := noteIf_ok o.verbose
    s!"Checking {ds.length} file(s) under {o.source.text}" r₁
  obtain ⟨r₃, hstart, -⟩ := noteIf_ok o.verbose
    s!"Starting language server: {s.serverCommand}" r₂
  have hds : ¬ ds.isEmpty = true := by simpa using h.nonempty
  rw [stages, bind_ok (liftExcept_eq_ok_iff.mpr ⟨h.settings, rfl⟩),
    bind_ok (liftExcept_eq_ok_iff.mpr ⟨h.workspace, rfl⟩), bind_ok hwarn,
    bind_ok (liftExcept_eq_ok_iff.mpr ⟨h.documents, rfl⟩), bind_ok hnote, if_neg hds,
    bind_ok hstart]
  rfl

/-- Without that nothing is. -/
theorem validation?_stages_of_unprepared (h : ¬ ∃ s w ds, Prepared tree environment o s w ds) :
    (stages srv tree environment processId room clock o r).2.validation? = r.validation? := by
  rw [stages]
  cases hsettings : settings tree environment o with
  | error e => rfl
  | ok s =>
      rw [bind_ok (liftExcept_eq_ok_iff.mpr ⟨rfl, rfl⟩)]
      cases hworkspace : workspace tree o s with
      | error e => rfl
      | ok w =>
          rw [bind_ok (liftExcept_eq_ok_iff.mpr ⟨rfl, rfl⟩)]
          have hwarned := keeps_warnUntyped o w r
          rcases hwarn : warnUntyped o w r with ⟨e | _, r₁⟩
          · rw [hwarn] at hwarned
            rw [bind_error hwarn]
            exact hwarned.validation?
          · rw [hwarn] at hwarned
            rw [bind_ok hwarn]
            cases hdocuments : documents tree o with
            | error e => exact hwarned.validation?
            | ok ds =>
                rw [bind_ok (liftExcept_eq_ok_iff.mpr ⟨rfl, rfl⟩)]
                obtain ⟨r₂, hnote, hsame⟩ := noteIf_ok o.verbose
                  s!"Checking {ds.length} file(s) under {o.source.text}" r₁
                rw [bind_ok hnote]
                cases hds : ds.isEmpty with
                | true => exact hsame.validation?.trans hwarned.validation?
                | false =>
                    have hnonempty : ds ≠ [] := by simpa using hds
                    exact absurd ⟨s, w, ds, hsettings, hworkspace,
                      warnUntyped_ok_iff.mp ⟨r₁, hwarn⟩, hdocuments, hnonempty⟩ h

/-- A run prepares no two things. -/
theorem Prepared.unique {s' : Settings} {w' : Workspace} {ds' : List Document}
    (h : Prepared tree environment o s w ds) (h' : Prepared tree environment o s' w' ds') :
    s = s' ∧ w = w' ∧ ds = ds' := by
  obtain rfl := Except.ok.inj (h.settings.symm.trans h'.settings)
  obtain rfl := Except.ok.inj (h.workspace.symm.trans h'.workspace)
  exact ⟨rfl, rfl, Except.ok.inj (h.documents.symm.trans h'.documents)⟩

/-! ## Runs -/

/-- A run ends with the validation of its stages. -/
theorem validation?_check :
    (check srv tree environment processId room o clock).validation? =
      (stages srv tree environment processId room clock o .blank).2.validation? := by
  unfold check
  rcases stages srv tree environment processId room clock o .blank with ⟨e | _, r⟩
  · exact (keeps_noteIf _ _ _).validation?
  · exact (keeps_noteIf _ _ _).validation?

/-- What a run leaves of its validation once everything is prepared. -/
theorem validation?_check_of_prepared (h : Prepared tree environment o s w ds) :
    (check srv tree environment processId room o clock).validation? =
      some (closed (converse srv room (!o.onlyTemplate) ds (validation processId clock s w)).2) :=
  validation?_check.trans (validation?_stages_of_prepared h)

theorem validation?_check_of_unprepared (h : ¬ ∃ s w ds, Prepared tree environment o s w ds) :
    (check srv tree environment processId room o clock).validation? = none :=
  validation?_check.trans (validation?_stages_of_unprepared h)

end Stages

end Run

/-- The attempts of a run to start a server: each is the program with its arguments and the
directory. -/
def Report.attempts {σ : Type} (r : Report σ) : List (List String × String) :=
  (r.session?.map (·.spawned)).getD []

namespace Run

variable {σ : Type}

/-- A run tries to start a server at most once, and does so just if the settings, the workspace and
the sources can be read and there are documents to check. However it ends, no process of its session
is left then: the one that was started, if any, had finished when the session let go of it. The
regions that it kept are gone as well. -/
theorem check_lifecycle (srv : Server σ) (tree : FileTree) (environment : Table String)
    (processId room : Nat) (o : Options) (clock : Nat → Float) :
    let r := check srv tree environment processId room o clock
    r.attempts.length ≤ 1 ∧
      (r.attempts ≠ [] ↔ ∃ s w ds, Prepared tree environment o s w ds) ∧
      (∀ s w ds, Prepared tree environment o s w ds →
        r.attempts = [(s.serverArgs, w.root.text)] ∧
        (srv.available = true → ∃ session, r.session? = some session ∧
          Session.LetGo srv
            ((Session.new s.serverArgs w processId s.responseTimeout).launched srv) session)) ∧
      ∀ v, r.validation? = some v →
        v.reporter.isRunning = false ∧ v.reporter.process? = none ∧
        v.regions.disposed = true ∧ v.regions.entries = [] := by
  intro r
  by_cases hprepared : ∃ s w ds, Prepared tree environment o s w ds
  · obtain ⟨s, w, ds, h⟩ := hprepared
    have hvalidation : r.validation? = some _ := validation?_check_of_prepared h
    have hnone :
        (validation processId clock s w : Validation (Session σ)).reporter.process? = none := rfl
    have hleaves : Leaves srv (Session.new s.serverArgs w processId s.responseTimeout)
        (converse srv room (!o.onlyTemplate) ds (validation processId clock s w)).2.reporter :=
      leaves_converse hnone
    have hattempts : r.attempts = [(s.serverArgs, w.root.text)] := by
      rw [Report.attempts, Report.session?, hvalidation]
      exact hleaves.spawned
    refine ⟨?_, ?_, ?_, ?_⟩
    · rw [hattempts]
      exact Nat.le_refl 1
    · rw [hattempts]
      exact ⟨fun _ => ⟨s, w, ds, h⟩, fun _ => List.cons_ne_nil _ _⟩
    · intro s' w' ds' h'
      obtain ⟨rfl, rfl, -⟩ := h.unique h'
      refine ⟨hattempts, fun havailable => ⟨_, ?_, hleaves.letGo havailable⟩⟩
      rw [Report.session?, hvalidation]
      rfl
    · intro v hv
      obtain rfl := Option.some.inj (hvalidation.symm.trans hv)
      exact ⟨Session.isRunning_of_no_process hleaves.process, hleaves.process, rfl, rfl⟩
  · have hvalidation : r.validation? = none := validation?_check_of_unprepared hprepared
    have hattempts : r.attempts = [] := by
      rw [Report.attempts, Report.session?, hvalidation]
      rfl
    refine ⟨?_, ?_, fun s w ds h => absurd ⟨s, w, ds, h⟩ hprepared, ?_⟩
    · rw [hattempts]
      exact Nat.zero_le 1
    · rw [hattempts]
      exact ⟨fun h => absurd rfl h, fun h => absurd h hprepared⟩
    · intro v hv
      rw [hvalidation] at hv
      cases hv

end Run

end SfcCheck
