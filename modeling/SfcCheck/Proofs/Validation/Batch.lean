import SfcCheck.Proofs.Frame.Room
import SfcCheck.Proofs.Validation.Quiet

/-!
# Checks of many documents

Documents are checked one after the other. As long as validations succeed and what they find can be
printed, the lines are the blocks of what is found, document by document, and the tally is that of
the documents. The first validation that fails ends the check, and what was done before it stands.
A diagnostic that cannot be printed ends it as well, in the middle of its document.
-/

namespace SfcCheck.Validation

open Attempt

variable {γ ε : Type} {room : Nat}

/-! ## Validators -/

/-- What finds diagnostics in documents, without regard to what was found before. -/
structure Validator (γ ε : Type) where
  find : Document → Step γ ε (List Diagnostic)
  ignores : ∀ t d, Ignores (setTally t) (find d)

namespace Validator

/-- Any stateful function is a validator. -/
def ofReporter (reporter : Reporter γ ε) : Validator γ ε := ⟨ask reporter, fun _ => ignores_ask⟩

/-- The validator of templates. -/
def template (reporter : Reporter γ ε) : Validator γ ε :=
  ⟨Validation.template reporter, fun _ => ignores_template⟩

/-- The validator of scripts. -/
def script (reporter : Reporter γ ε) : Validator γ ε :=
  ⟨Validation.script reporter, fun _ => ignores_ofKind .script⟩

end Validator

/-- The diagnostics of a document by a pair of validators, the one of scripts possibly missing. -/
def validateWith (template : Validator γ ε) (script? : Option (Validator γ ε)) (withScript : Bool) :
    Document → Step γ ε (List Diagnostic) :=
  Validators.validate ⟨template.find, script?.map Validator.find⟩ withScript

theorem ignores_validateWith (template : Validator γ ε) (script? : Option (Validator γ ε))
    (withScript : Bool) (t : Tally) (d : Document) :
    Ignores (setTally t) (validateWith template script? withScript d) := by
  refine (template.ignores t d).bind fun templates => ?_
  cases script? with
  | none => exact ignores_pure _
  | some script =>
      cases withScript with
      | false => exact ignores_pure _
      | true => exact (script.ignores t d).bind fun _ => ignores_pure _

/-- The validators of a reporter find what its validation gives. -/
theorem validateWith_reporter (reporter : Reporter γ ε) (withScript : Bool) :
    validateWith (.template reporter) (some (.script reporter)) withScript =
      validate reporter withScript := rfl

/-! ## Printing -/

/-- The lines of a diagnostic: its block with the header standing out. -/
def echoed (room : Nat) (d : Document) (x : Diagnostic) : List String :=
  match Frame.block room d x with
  | .ok lines => Frame.withStyledHeader lines
  | .error _ => []

/-- More lines in a tally. -/
def addLines (lines : List String) (t : Tally) : Tally := { t with lines := t.lines ++ lines }

section Printing

variable {d : Document} {x : Diagnostic} {xs : List Diagnostic}

/-- Whatever is printed is the echo. -/
theorem echoed_of_printed {lines : List String} (h : Frame.printed room d x = .ok lines) :
    echoed room d x = lines := by
  rw [Frame.printed_eq] at h
  unfold echoed
  cases hblock : Frame.block room d x with
  | error e =>
      rw [hblock] at h
      cases h
  | ok block =>
      rw [hblock] at h
      cases h
      rfl

theorem print_ok (h : Frame.HasRoom room d x.span) (v : Validation γ) :
    (print room d x : Step γ ε Unit) v =
      (.ok (), v.setTally (addLines (echoed room d x) v.tally)) := by
  obtain ⟨lines, hlines⟩ := Frame.exists_printed_iff.mpr h
  rw [echoed_of_printed hlines, print, hlines]
  rfl

theorem print_error (h : ¬ Frame.HasRoom room d x.span) :
    ∃ e : Frame.Failure, e.IsForText ∧
      ∀ v : Validation γ, (print room d x : Step γ ε Unit) v = (.error (.frame e), v) := by
  cases hprinted : Frame.printed room d x with
  | ok lines => exact absurd (Frame.exists_printed_iff.mp ⟨lines, hprinted⟩) h
  | error e =>
      refine ⟨e, Frame.isForText_of_printed_error hprinted, ?_⟩
      intro v
      rw [print, hprinted]
      rfl

/-- Diagnostics are printed one block after the other. -/
theorem printAll_ok (h : ∀ x ∈ xs, Frame.HasRoom room d x.span) (v : Validation γ) :
    (xs.forM (print room d) : Step γ ε Unit) v =
      (.ok (), v.setTally (addLines (xs.flatMap (echoed room d)) v.tally)) := by
  induction xs generalizing v with
  | nil => simp [addLines]; rfl
  | cons x xs ih =>
      have hfirst := print_ok (ε := ε) (h x (.head _)) v
      show (print room d x >>= fun _ => xs.forM (print room d)) v = _
      rw [bind_ok hfirst, ih fun y hy => h y (.tail _ hy)]
      simp [addLines, List.append_assoc]

/-- The first diagnostic that cannot be printed ends the printing. -/
theorem printAll_error (ys : List Diagnostic) (h : ∀ x ∈ xs, Frame.HasRoom room d x.span)
    (hx : ¬ Frame.HasRoom room d x.span) :
    ∃ e : Frame.Failure, e.IsForText ∧ ∀ v : Validation γ,
      ((xs ++ x :: ys).forM (print room d) : Step γ ε Unit) v =
        (.error (.frame e), v.setTally (addLines (xs.flatMap (echoed room d)) v.tally)) := by
  obtain ⟨e, htext, he⟩ := print_error hx
  refine ⟨e, htext, ?_⟩
  intro v
  rw [forM_append_ok (printAll_ok h v)]
  show (print room d x >>= fun _ => ys.forM (print room d)) _ = _
  rw [bind_error (he _)]

end Printing

/-! ## Documents one after the other -/

/-- A tally after one more document. -/
def addDocument (room : Nat) (t : Tally) (d : Document) (found : List Diagnostic) : Tally :=
  { addLines (found.flatMap (echoed room d)) (t.withFound found) with documents := t.documents + 1 }

/-- A tally of documents and of what was found in them, and of nothing else. -/
structure Sums (room : Nat) (t : Tally) (results : List (Document × List Diagnostic)) : Prop where
  documents : t.documents = results.length
  diagnostics : t.diagnostics = (results.flatMap (·.2)).length
  hasFindings : t.hasFindings = true ↔ 0 < (results.flatMap (·.2)).length
  lines : t.lines = results.flatMap fun r => r.2.flatMap (echoed room r.1)

/-- Validating documents one after the other gives results that can be printed. -/
structure Finds (room : Nat) (validate : Document → Step γ ε (List Diagnostic)) (ds : List Document)
    (v : Validation γ) (results : List (Document × List Diagnostic)) (w : Validation γ) : Prop where
  documents : results.map (·.1) = ds
  found : ds.mapM validate v = (.ok (results.map (·.2)), w)
  room : ∀ r ∈ results, ∀ x ∈ r.2, Frame.HasRoom room r.1 x.span

theorem finds_nothing {validate : Document → Step γ ε (List Diagnostic)} {v : Validation γ} :
    Finds room validate [] v [] v where
  documents := rfl
  found := rfl
  room := fun _ hr => absurd hr List.not_mem_nil

theorem Finds.cons {validate : Document → Step γ ε (List Diagnostic)} {d : Document}
    {ds : List Document} {found : List Diagnostic} {results : List (Document × List Diagnostic)}
    {u v w : Validation γ} (h : Finds room validate ds u results w)
    (hd : validate d v = (.ok found, u)) (hroom : ∀ x ∈ found, Frame.HasRoom room d x.span) :
    Finds room validate (d :: ds) v ((d, found) :: results) w where
  documents := congrArg (d :: ·) h.documents
  found := by
    rw [List.mapM_cons, bind_ok hd, bind_ok h.found]
    rfl
  room := by
    intro r hr
    rcases List.mem_cons.mp hr with rfl | hr
    · exact hroom
    · exact h.room r hr

/-- Diagnostics can all be printed, or there is a first one that cannot. -/
theorem room_cases (d : Document) (found : List Diagnostic) :
    (∀ x ∈ found, Frame.HasRoom room d x.span) ∨
      ∃ xs x ys, found = xs ++ x :: ys ∧ (∀ y ∈ xs, Frame.HasRoom room d y.span) ∧
        ¬ Frame.HasRoom room d x.span := by
  induction found with
  | nil => exact .inl fun _ hx => absurd hx List.not_mem_nil
  | cons z found ih =>
      by_cases hz : Frame.HasRoom room d z.span
      · rcases ih with hall | ⟨xs, x, ys, rfl, hxs, hx⟩
        · exact .inl (List.forall_mem_cons.mpr ⟨hz, hall⟩)
        · exact .inr ⟨z :: xs, x, ys, rfl, List.forall_mem_cons.mpr ⟨hz, hxs⟩, hx⟩
      · exact .inr ⟨[], z, found, rfl, fun _ hy => absurd hy List.not_mem_nil, hz⟩

/-- Validating documents one after the other gives results that can be printed, or there is a first
document whose validation fails, or a first one in which something is found that cannot be
printed. -/
theorem finds_cases (room : Nat) (validate : Document → Step γ ε (List Diagnostic))
    (ds : List Document) (v : Validation γ) :
    (∃ results w, Finds room validate ds v results w) ∨
    (∃ before d after results u e w, ds = before ++ d :: after ∧
      Finds room validate before v results u ∧ validate d u = (.error e, w)) ∨
    ∃ before d after results u xs x ys w, ds = before ++ d :: after ∧
      Finds room validate before v results u ∧ validate d u = (.ok (xs ++ x :: ys), w) ∧
      (∀ y ∈ xs, Frame.HasRoom room d y.span) ∧ ¬ Frame.HasRoom room d x.span := by
  induction ds generalizing v with
  | nil => exact .inl ⟨[], v, finds_nothing⟩
  | cons d ds ih =>
      rcases hd : validate d v with ⟨e | found, u⟩
      · exact .inr (.inl ⟨[], d, ds, [], v, e, u, rfl, finds_nothing, hd⟩)
      rcases room_cases d found with hroom | ⟨xs, x, ys, rfl, hxs, hx⟩
      · -- the first document is fine, so that what holds of the others decides
        rcases ih u with ⟨results, w, h⟩ | ⟨before, d', after, results, u', e, w, rfl, h, hd'⟩ |
          ⟨before, d', after, results, u', xs, x, ys, w, rfl, h, hd', hrest⟩
        · exact .inl ⟨_, w, h.cons hd hroom⟩
        · exact .inr (.inl ⟨d :: before, d', after, _, u', e, w, rfl, h.cons hd hroom, hd'⟩)
        · exact .inr (.inr ⟨d :: before, d', after, _, u', xs, x, ys, w, rfl, h.cons hd hroom, hd',
            hrest⟩)
      · exact .inr (.inr ⟨[], d, ds, [], v, xs, x, ys, u, rfl, finds_nothing, hd, hxs, hx⟩)

/-- The tally of documents and of what was found in them. -/
def tallyOf (room : Nat) (results : List (Document × List Diagnostic)) (t : Tally) : Tally :=
  results.foldl (fun t r => addDocument room t r.1 r.2) t

theorem documents_tallyOf (results : List (Document × List Diagnostic)) (t : Tally) :
    (tallyOf room results t).documents = t.documents + results.length := by
  induction results generalizing t with
  | nil => rfl
  | cons r results ih =>
      show (tallyOf room results (addDocument room t r.1 r.2)).documents = _
      rw [ih, List.length_cons]
      show t.documents + 1 + results.length = _
      omega

theorem diagnostics_tallyOf (results : List (Document × List Diagnostic)) (t : Tally) :
    (tallyOf room results t).diagnostics = t.diagnostics + (results.flatMap (·.2)).length := by
  induction results generalizing t with
  | nil => rfl
  | cons r results ih =>
      show (tallyOf room results (addDocument room t r.1 r.2)).diagnostics = _
      rw [ih, List.flatMap_cons, List.length_append, ← Nat.add_assoc]
      rfl

theorem lines_tallyOf (results : List (Document × List Diagnostic)) (t : Tally) :
    (tallyOf room results t).lines =
      t.lines ++ results.flatMap fun r => r.2.flatMap (echoed room r.1) := by
  induction results generalizing t with
  | nil => exact (List.append_nil _).symm
  | cons r results ih =>
      show (tallyOf room results (addDocument room t r.1 r.2)).lines = _
      rw [ih, List.flatMap_cons, ← List.append_assoc]
      rfl

theorem sums_tallyOf (results : List (Document × List Diagnostic)) :
    Sums room (tallyOf room results .zero) results := by
  have hdiagnostics :
      (tallyOf room results .zero).diagnostics = (results.flatMap (·.2)).length := by
    rw [diagnostics_tallyOf]
    exact Nat.zero_add _
  refine ⟨?_, hdiagnostics, ?_, lines_tallyOf results .zero⟩
  · rw [documents_tallyOf]
    exact Nat.zero_add _
  · rw [← hdiagnostics]
    exact (tallyOf room results .zero).hasFindings_iff

section Checking

variable {validate : Document → Step γ ε (List Diagnostic)} {d : Document} {ds : List Document}
variable {found : List Diagnostic} {results : List (Document × List Diagnostic)}
variable {v w : Validation γ}

theorem checkBy_ok (hfound : validate d v = (.ok found, w))
    (hroom : ∀ x ∈ found, Frame.HasRoom room d x.span) :
    checkBy room validate d v = (.ok (), w.setTally (addDocument room w.tally d found)) := by
  rw [checkBy, bind_ok hfound]
  show (found.forM (print room d) >>= fun _ =>
    count fun t => { t with documents := t.documents + 1 })
      (w.setTally (w.tally.withFound found)) = _
  rw [bind_ok (printAll_ok hroom _)]
  rfl

theorem checkBy_unprintable {xs ys : List Diagnostic} {x : Diagnostic}
    (hfound : validate d v = (.ok (xs ++ x :: ys), w))
    (hroom : ∀ y ∈ xs, Frame.HasRoom room d y.span) (hx : ¬ Frame.HasRoom room d x.span) :
    ∃ e : Frame.Failure, e.IsForText ∧ checkBy room validate d v = (.error (.frame e),
      w.setTally (addLines (xs.flatMap (echoed room d)) (w.tally.withFound (xs ++ x :: ys)))) := by
  obtain ⟨e, htext, he⟩ := printAll_error (γ := γ) (ε := ε) ys hroom hx
  refine ⟨e, htext, ?_⟩
  rw [checkBy, bind_ok hfound]
  show ((xs ++ x :: ys).forM (print room d) >>= fun _ =>
    count fun t => { t with documents := t.documents + 1 })
      (w.setTally (w.tally.withFound (xs ++ x :: ys))) = _
  rw [bind_error (he _)]
  rfl

variable (hignores : ∀ t d, Ignores (setTally t) (validate d))

include hignores

/-- Validations that succeed with what can be printed make up the check of their documents. -/
theorem checkAllBy_ok (h : Finds room validate ds v results w) :
    checkAllBy room validate ds v = (.ok (), w.setTally (tallyOf room results v.tally)) := by
  obtain ⟨rfl, hfound, hroom⟩ := h
  induction results generalizing v w with
  | nil =>
      obtain ⟨-, rfl⟩ := Prod.mk.inj hfound
      rfl
  | cons r results ih =>
      rw [List.map_cons, List.mapM_cons] at hfound
      obtain ⟨found, u, hfirst, hfound⟩ := bind_eq_ok_iff.mp hfound
      obtain ⟨rest, w', hrest, hdone⟩ := bind_eq_ok_iff.mp hfound
      obtain ⟨hresult, rfl⟩ := Prod.mk.inj hdone
      obtain ⟨rfl, rfl⟩ := List.cons.inj (Except.ok.inj hresult)
      have hu : u.tally = v.tally := by
        have htally := tally_of_ignores (fun t => hignores t r.1) v
        rwa [hfirst] at htally
      have hcheck := checkBy_ok hfirst (hroom r (.head _))
      -- the validations that follow do what they do without the document counted
      have hlater :=
        Ignores.mapM (hignores (addDocument room u.tally r.1 r.2)) (results.map (·.1)) u
      rw [hrest] at hlater
      show (checkBy room validate r.1 >>= fun _ =>
        checkAllBy room validate (results.map (·.1))) v = _
      rw [bind_ok hcheck, ih (fun r hr => hroom r (.tail _ hr)) hlater, hu]
      rfl

/-- The first validation that fails ends the check with what was done before it. -/
theorem checkAllBy_error {e : Failure ε} {u : Validation γ} (h : Finds room validate ds v results u)
    (hd : validate d u = (.error e, w)) (after : List Document) :
    checkAllBy room validate (ds ++ d :: after) v =
      (.error e, w.setTally (tallyOf room results v.tally)) := by
  have hfails := hignores (tallyOf room results v.tally) d u
  rw [hd] at hfails
  rw [checkAllBy, forM_append_ok (checkAllBy_ok hignores h)]
  show (checkBy room validate d >>= fun _ => checkAllBy room validate after) _ = _
  rw [bind_error]
  rw [checkBy, bind_error hfails]

/-- A diagnostic that cannot be printed ends the check in the middle of its document. -/
theorem checkAllBy_unprintable {u : Validation γ} {xs ys : List Diagnostic} {x : Diagnostic}
    (h : Finds room validate ds v results u) (hd : validate d u = (.ok (xs ++ x :: ys), w))
    (hroom : ∀ y ∈ xs, Frame.HasRoom room d y.span) (hx : ¬ Frame.HasRoom room d x.span)
    (after : List Document) :
    ∃ e : Frame.Failure, e.IsForText ∧
      checkAllBy room validate (ds ++ d :: after) v = (.error (.frame e),
        w.setTally (addLines (xs.flatMap (echoed room d))
          ((tallyOf room results v.tally).withFound (xs ++ x :: ys)))) := by
  have hfinds := hignores (tallyOf room results v.tally) d u
  rw [hd] at hfinds
  obtain ⟨e, htext, he⟩ := checkBy_unprintable hfinds hroom hx
  refine ⟨e, htext, ?_⟩
  rw [checkAllBy, forM_append_ok (checkAllBy_ok hignores h)]
  show (checkBy room validate d >>= fun _ => checkAllBy room validate after) _ = _
  rw [bind_error he]
  rfl

/-- A check succeeds just if all validations succeed with what can be printed. -/
theorem checkAllBy_ok_iff :
    (∃ w, checkAllBy room validate ds v = (.ok (), w)) ↔
      ∃ results w, Finds room validate ds v results w := by
  constructor
  · rintro ⟨w, hok⟩
    rcases finds_cases room validate ds v with hall |
      ⟨before, d, after, results, u, e, w', rfl, h, hd⟩ |
      ⟨before, d, after, results, u, xs, x, ys, w', rfl, h, hd, hroom, hx⟩
    · exact hall
    · rw [checkAllBy_error hignores h hd after] at hok
      cases hok
    · obtain ⟨e, -, he⟩ := checkAllBy_unprintable hignores h hd hroom hx after
      rw [he] at hok
      cases hok
  · rintro ⟨results, w, h⟩
    exact ⟨_, checkAllBy_ok hignores h⟩

end Checking

/-! ## Checks from the start -/

section Start

variable {template : Validator γ ε} {script? : Option (Validator γ ε)} {withScript : Bool}
variable {v : Validation γ}

/-- A check from the start succeeds just if all validations do with what can be printed. Then it
prints the blocks of what is found, document by document, and counts both. The first validation that
fails leaves what a check of the documents before leaves, and those after are not validated. A
diagnostic that cannot be printed is counted with those of its document, and the lines before its
own are printed. -/
theorem checkAllBy_sums (hv : v.tally = .zero) :
    (∀ ds, (∃ w, checkAllBy room (validateWith template script? withScript) ds v = (.ok (), w)) ↔
      ∃ results w, Finds room (validateWith template script? withScript) ds v results w) ∧
    (∀ ds results w, Finds room (validateWith template script? withScript) ds v results w →
      ∃ t, checkAllBy room (validateWith template script? withScript) ds v =
          (.ok (), w.setTally t) ∧
        Sums room t results) ∧
    (∀ before d after results u e w,
      Finds room (validateWith template script? withScript) before v results u →
      validateWith template script? withScript d u = (.error e, w) →
      ∃ t, checkAllBy room (validateWith template script? withScript) before v =
          (.ok (), u.setTally t) ∧
        checkAllBy room (validateWith template script? withScript) (before ++ d :: after) v =
          (.error e, w.setTally t)) ∧
    (∀ before d after results u xs x ys w,
      Finds room (validateWith template script? withScript) before v results u →
      validateWith template script? withScript d u = (.ok (xs ++ x :: ys), w) →
      (∀ y ∈ xs, Frame.HasRoom room d y.span) → ¬ Frame.HasRoom room d x.span →
      ∃ e t, checkAllBy room (validateWith template script? withScript) (before ++ d :: after) v =
          (.error (.frame e), w.setTally t) ∧ e.IsForText ∧
        t.documents = before.length ∧
        t.diagnostics = (results.flatMap (·.2) ++ (xs ++ x :: ys)).length ∧
        t.hasFindings = true ∧
        t.lines =
          (results.flatMap fun r => r.2.flatMap (echoed room r.1)) ++
            xs.flatMap (echoed room d)) := by
  have hignores := ignores_validateWith template script? withScript
  refine ⟨?_, ?_, ?_, ?_⟩
  · intro ds
    exact checkAllBy_ok_iff hignores
  · intro ds results w h
    exact ⟨_, checkAllBy_ok hignores h, hv ▸ sums_tallyOf results⟩
  · intro before d after results u e w h hd
    exact ⟨_, checkAllBy_ok hignores h, checkAllBy_error hignores h hd after⟩
  · intro before d after results u xs x ys w h hd hroom hx
    obtain ⟨e, htext, he⟩ := checkAllBy_unprintable hignores h hd hroom hx after
    rw [hv] at he
    have hsums : Sums room (tallyOf room results .zero) results := sums_tallyOf results
    refine ⟨e, _, he, htext, ?_, ?_, ?_, ?_⟩
    · rw [← h.documents, List.length_map]
      exact hsums.documents
    · rw [List.length_append, ← hsums.diagnostics]
      rfl
    · cases xs <;> rfl
    · rw [← hsums.lines]
      rfl

end Start

/-! ## A document that can be printed and one that cannot be validated -/

section Halting

/-- A document of one line. -/
def oneLiner (uri : String) : Document := ⟨uri, "vue", 0, "x"⟩

/-- A diagnostic in the first line, from one character to another one. -/
def inFirstLine (start stop : Int) : Diagnostic where
  span := ⟨⟨0, start⟩, ⟨0, stop⟩⟩
  message := "m"

/-- Gives a diagnostic for one document, and nothing for any other. -/
def halting (x : Diagnostic) : Reporter Nat Unit := fun d n =>
  (if d.uri = "a" then .ok [x] else .error (), n + 1)

/-- A diagnostic that starts too far to the left. -/
def farLeft : Diagnostic := inFirstLine (-100000000000000000000) (-100000000000000000000)

theorem hasRoom_inFirstLine : Frame.HasRoom 100 (oneLiner "a") (inFirstLine 0 1).span := by
  intro code hcode
  have hread : "x" = code := Except.ok.inj hcode
  subst hread
  exact ⟨by decide, by decide +kernel, by decide +kernel⟩

theorem not_hasRoom_farLeft : ¬ Frame.HasRoom 100 (oneLiner "a") farLeft.span := by
  intro h
  have hleft : -Frame.machineBound ≤ -100000000000000000000 := (h "x" rfl).not_left
  exact absurd hleft (by decide)

theorem validateWith_farLeft :
    validateWith (.ofReporter (halting farLeft)) none true (oneLiner "a") (new 0 10 60.0) =
      (.ok ([] ++ farLeft :: []), (new 1 10 60.0 : Validation Nat)) := rfl

/-- A check that ends well, the same one with documents that cannot be validated after it, and one
of what cannot be printed. -/
theorem checkAllBy_sums_halting :
    (∃ t, checkAllBy 100 (validateWith (.ofReporter (halting (inFirstLine 0 1))) none true)
        [oneLiner "a"] (new 0 10 60.0) = (.ok (), (new 1 10 60.0 : Validation Nat).setTally t) ∧
      Sums 100 t [(oneLiner "a", [inFirstLine 0 1])]) ∧
    (∃ t, checkAllBy 100 (validateWith (.ofReporter (halting (inFirstLine 0 1))) none true)
        [oneLiner "a"] (new 0 10 60.0) = (.ok (), (new 1 10 60.0 : Validation Nat).setTally t) ∧
      checkAllBy 100 (validateWith (.ofReporter (halting (inFirstLine 0 1))) none true)
          ([oneLiner "a"] ++ oneLiner "b" :: [oneLiner "a"]) (new 0 10 60.0) =
        (.error (.reporter ()), (new 2 10 60.0 : Validation Nat).setTally t)) ∧
    ∃ e t, checkAllBy 100 (validateWith (.ofReporter (halting farLeft)) none true)
        ([] ++ oneLiner "a" :: []) (new 0 10 60.0) =
          (.error (.frame e), (new 1 10 60.0 : Validation Nat).setTally t) ∧ e.IsForText ∧
      t.documents = 0 ∧ t.diagnostics = 1 ∧ t.hasFindings = true ∧ t.lines = [] := by
  have hroom : ∀ r ∈ [(oneLiner "a", [inFirstLine 0 1])], ∀ x ∈ r.2,
      Frame.HasRoom 100 r.1 x.span := by
    intro r hr x hx
    rw [List.mem_singleton] at hr
    subst hr
    rw [List.mem_singleton] at hx
    subst hx
    exact hasRoom_inFirstLine
  refine ⟨?_, ?_, ?_⟩
  · exact (checkAllBy_sums rfl).2.1 _ _ _ ⟨rfl, rfl, hroom⟩
  · exact (checkAllBy_sums rfl).2.2.1 _ _ _ _ _ _ _ ⟨rfl, rfl, hroom⟩ rfl
  · exact (checkAllBy_sums rfl).2.2.2 _ _ _ _ _ _ _ _ _ finds_nothing validateWith_farLeft
      (fun _ hy => absurd hy List.not_mem_nil) not_hasRoom_farLeft

/-- The validation of a document succeeds, but its check does not: the carets start too far to the
left. The diagnostic is counted and not printed, and the document is not counted. -/
theorem checkAllBy_without_room :
    [oneLiner "a"].mapM (validateWith (.ofReporter (halting farLeft)) none true) (new 0 10 60.0) =
        (.ok [[farLeft]], (new 1 10 60.0 : Validation Nat)) ∧
      ∃ e t, checkAllBy 100 (validateWith (.ofReporter (halting farLeft)) none true) [oneLiner "a"]
          (new 0 10 60.0) = (.error (.frame e), (new 1 10 60.0 : Validation Nat).setTally t) ∧
        e = .copiesOutOfRange ∧ t.documents = 0 ∧ t.diagnostics = 1 ∧ t.hasFindings = true ∧
        t.lines = [] :=
  ⟨rfl, _, _, rfl, rfl, rfl, rfl, rfl, rfl⟩

end Halting

end SfcCheck.Validation
