import SfcCheck.Proofs.ModelCache.Transparent
import SfcCheck.Proofs.Session.Documents
import SfcCheck.Proofs.Validation.Quiet
import SfcCheck.Run

/-!
# Documents that are opened

The diagnostics of a document are asked for on behalf of its templates, and once more on behalf of
its scripts. Both get them from one opening: what the server publishes is remembered until another
document is asked for. So a check that succeeds opens every document that somebody asks for once,
in the order of the documents, and no other one.

What is written is a message to a server that may be gone by then. Then the openings that it has got
are the first ones.
-/

namespace SfcCheck

open Attempt

namespace Session

variable {σ : Type} {srv : Server σ} {s t u : Session σ} {d : Document} {es : List Event}

/-! ## Openings -/

/-- Whether a message opens a document. -/
def isOpening (m : Json) : Bool := Server.methodOf m == "textDocument/didOpen"

/-- The messages that open documents. -/
def openings (ms : List Json) : List Json := ms.filter isOpening

/-- The language that a message gives for its document. -/
def languageOf? (m : Json) : Option String :=
  Server.textAt? (Server.valueAt (Server.valueAt m "params") "textDocument") "languageId"

theorem openings_append (ms ms' : List Json) : openings (ms ++ ms') = openings ms ++ openings ms' :=
  List.filter_append ms ms'

/-- Answers open nothing. -/
theorem openings_ownCalls (es : List Event) : openings (ownCalls es) = openings (written es) := by
  rw [openings, openings, ownCalls, calls, List.filter_filter]
  apply List.filter_congr
  intro m _
  cases hm : hasMethod m with
  | true => exact Bool.and_true _
  | false =>
      rw [isOpening, methodOf_of_no_method hm]
      rfl

/-- Documents at different addresses have openings with different addresses. -/
theorem nodup_uris_openMessage {ds : List Document} (h : (ds.map (·.uri)).Nodup) :
    ((ds.map openMessage).map Server.uriOf?).Nodup := by
  have hsome := h.map fun _ _ => Option.some.inj
  rw [List.map_map] at hsome ⊢
  exact hsome

/-! ## Documents that are asked for -/

/-- A call that is answered by the server opens its document and closes it again. -/
theorem transcript_diagnostics_ok {xs : List Diagnostic} (hmemo : memoOf? d s = none)
    (h : diagnostics srv d s = (.ok xs, t)) :
    ∃ es, Transcript srv s es t ∧ ownCalls es = [openMessage d, closeMessage d] := by
  obtain ⟨q, hq, hquiet, hok⟩ := transcript_openAndAwait srv d s
  rw [diagnostics_eq, hmemo] at h
  dsimp only at h
  rcases hopen : openAndAwait srv d s with ⟨e | items, u⟩
  · rw [hopen] at h
    cases h
  · rw [hopen] at h hq hok
    obtain ⟨hsaid, -⟩ := hok items rfl
    have hnotified := transcript_notify srv "textDocument/didClose" (closeParams d) u
    dsimp only at h
    rcases hclose : notify srv "textDocument/didClose" (closeParams d) u with ⟨e | _, w⟩
    · rw [hclose] at h
      cases h
    · rw [hclose] at h hnotified
      dsimp only at h
      cases hitems : items.mapM Diagnostic.ofJson with
      | error e =>
          rw [hitems] at h
          cases h
      | ok ys =>
          rw [hitems] at h
          obtain ⟨-, rfl⟩ := Prod.mk.inj h
          have hremember : Transcript srv w [] _ :=
            .aside (.remember (some ((d.uri, d.version), ys)) (process?_of_submit_ok hclose))
          refine ⟨_, hq.append (hnotified.append hremember), ?_⟩
          have hclosed : saying (notification "textDocument/didClose" (closeParams d)) u =
              [.said (closeMessage d)] := saying_of_submit_ok hclose
          rw [hsaid, hclosed, List.append_nil, ownCalls_append, ownCalls_append, hquiet,
            ownCalls_said rfl, ownCalls_said rfl]
          rfl

/-- What the calls for the diagnostics of one document leave: nothing if there are none, and else
one opening and the diagnostics in memory. -/
inductive Asked (srv : Server σ) (d : Document) (s : Session σ) : Bool → Session σ → Prop where
  | never : Asked srv d s false s
  | once (es : List Event) (t : Session σ) (xs : List Diagnostic) (hes : Transcript srv s es t)
      (hopening : openings (written es) = [openMessage d])
      (hmemo : t.memo? = some ((d.uri, d.version), xs)) : Asked srv d s true t

/-- A call asks for the document, whether or not that was done before. -/
theorem Asked.diagnostics {asked : Bool} {xs : List Diagnostic} (h : Asked srv d s asked t)
    (hmemo : memoOf? d s = none) (hcall : Session.diagnostics srv d t = (.ok xs, u)) :
    Asked srv d s true u := by
  cases h with
  | never =>
      obtain ⟨es, hes, hcalls⟩ := transcript_diagnostics_ok hmemo hcall
      have hkept : (Session.diagnostics srv d s).2.memo? = some ((d.uri, d.version), xs) :=
        memo_of_diagnostics_ok (congrArg Prod.fst hcall)
      rw [hcall] at hkept
      refine .once es u xs hes ?_ hkept
      rw [← openings_ownCalls, hcalls]
      rfl
  | once es t ys hes hopening hkept =>
      rw [diagnostics_of_memo srv (memoOf?_eq_some_iff.mpr hkept)] at hcall
      obtain ⟨-, rfl⟩ := Prod.mk.inj hcall
      exact .once es t ys hes hopening hkept

theorem Asked.transcript {asked : Bool} (h : Asked srv d s asked t) :
    ∃ es, Transcript srv s es t ∧
      openings (written es) = if asked then [openMessage d] else [] := by
  cases h with
  | never => exact ⟨[], .nil, rfl⟩
  | once es t xs hes hopening hmemo => exact ⟨es, hes, hopening⟩

/-- Only the document itself comes into memory. -/
theorem Asked.memo {asked : Bool} (h : Asked srv d s asked t) :
    t.memo? = s.memo? ∨ ∃ xs, t.memo? = some ((d.uri, d.version), xs) := by
  cases h with
  | never => exact .inl rfl
  | once es t xs hes hopening hmemo => exact .inr ⟨xs, hmemo⟩

end Session

namespace Validation

open Session

variable {σ : Type} {srv : Server σ} {room : Nat} {withScript asked : Bool} {d : Document}
variable {docs ds : List Document} {s : Session σ} {v w : Validation (Session σ)}

/-! ## One document -/

/-- Whether somebody asks for a document: its templates if it is a component, or its scripts if
these are wanted. -/
def isNeeded (withScript : Bool) (d : Document) : Bool :=
  match Region.ofDocument d with
  | .ok regions =>
    (decide (d.languageId = Region.componentLanguage) && !(Region.ofKind .template regions).isEmpty)
      || (withScript && !(Region.ofKind .script regions).isEmpty)
  | .error _ => false

/-- Any other document than a component is a script. -/
theorem isNeeded_of_ne (h : d.languageId ≠ Region.componentLanguage) :
    isNeeded withScript d = withScript := by
  rw [isNeeded, Region.ofDocument, if_neg h]
  simp [Region.ofKind, h]

/-- The cache of a validation holds the regions of some of the documents. -/
def HoldsRegions (docs : List Document) (v : Validation (Session σ)) : Prop :=
  v.regions.Holds Region.ofDocument docs

/-- Asking a reporter that succeeds changes its state only. -/
theorem ask_eq_ok_iff {γ ε : Type} {reporter : Reporter γ ε} {xs : List Diagnostic}
    {v w : Validation γ} :
    ask reporter d v = (.ok xs, w) ↔
      ∃ g, reporter d v.reporter = (.ok xs, g) ∧ w = { v with reporter := g } := by
  rw [ask]
  rcases reporter d v.reporter with ⟨e | ys, g⟩
  · constructor
    · intro h
      cases h
    · rintro ⟨g', h, -⟩
      cases h
  · constructor
    · intro h
      cases h
      exact ⟨g, rfl, rfl⟩
    · rintro ⟨g', h, rfl⟩
      cases h
      rfl

/-- Regions that are found are those of the cache. -/
theorem get_of_regionsOf {γ ε : Type} {regions : List Region} {v w : Validation γ}
    (h : (regionsOf d : Step γ ε (List Region)) v = (.ok regions, w)) :
    v.regions.get Region.ofDocument (v.clock v.readings) d = (.ok regions, w.regions) ∧
      w.reporter = v.reporter := by
  rw [regionsOf] at h
  rcases hget : v.regions.get Region.ofDocument (v.clock v.readings) d with ⟨e | found, c⟩
  · rw [hget] at h
    cases h
  · rw [hget] at h
    cases h
    exact ⟨rfl, rfl⟩

section Asking

variable (hagree : Document.Agree docs) (hd : d ∈ docs)

include hagree hd

theorem regionsOf_ok {regions : List Region} (hv : HoldsRegions docs v)
    (h : (regionsOf d : Step (Session σ) Session.Failure (List Region)) v = (.ok regions, w)) :
    Region.ofDocument d = .ok regions ∧ w.reporter = v.reporter ∧ HoldsRegions docs w := by
  have hsub : d :: docs ⊆ docs := List.cons_subset.mpr ⟨hd, List.Subset.refl docs⟩
  obtain ⟨hget, hreporter⟩ := get_of_regionsOf h
  have hholds : (v.regions.get Region.ofDocument (v.clock v.readings) d).2.Holds
      Region.ofDocument (d :: docs) := hv.get
  rw [hget] at hholds
  exact ⟨hv.parse_of_get (hagree.of_subset hsub) hget, hreporter, hholds.of_subset hsub⟩

/-- On behalf of a kind the document is asked for if it has regions of the kind. -/
theorem ofKind_asked {kind : BlockKind} {xs : List Diagnostic} (hv : HoldsRegions docs v)
    (hasked : Asked srv d s asked v.reporter) (hmemo : memoOf? d s = none)
    (h : ofKind (Session.diagnostics srv) kind d v = (.ok xs, w)) :
    ∃ regions, Region.ofDocument d = .ok regions ∧ HoldsRegions docs w ∧
      Asked srv d s (asked || !(Region.ofKind kind regions).isEmpty) w.reporter := by
  obtain ⟨regions, u, hregions, h⟩ := bind_eq_ok_iff.mp h
  obtain ⟨hparsed, hreporter, hholds⟩ := regionsOf_ok hagree hd hv hregions
  refine ⟨regions, hparsed, ?_⟩
  rw [← hreporter] at hasked
  cases hempty : (Region.ofKind kind regions).isEmpty with
  | true =>
      rw [if_pos hempty] at h
      obtain ⟨-, rfl⟩ := Prod.mk.inj h
      rw [Bool.not_true, Bool.or_false]
      exact ⟨hholds, hasked⟩
  | false =>
      rw [if_neg (by rw [hempty]; exact Bool.false_ne_true)] at h
      obtain ⟨ys, u', hask, hdone⟩ := bind_eq_ok_iff.mp h
      obtain ⟨-, rfl⟩ := Prod.mk.inj hdone
      obtain ⟨t, hcall, rfl⟩ := ask_eq_ok_iff.mp hask
      rw [Bool.not_false, Bool.or_true]
      exact ⟨hholds, hasked.diagnostics hmemo hcall⟩

/-- On behalf of its templates a component is asked for if it has some. -/
theorem template_asked {xs : List Diagnostic} (hv : HoldsRegions docs v)
    (hmemo : memoOf? d v.reporter = none)
    (h : template (Session.diagnostics srv) d v = (.ok xs, w)) :
    HoldsRegions docs w ∧ Asked srv d v.reporter (isNeeded false d) w.reporter := by
  rw [template] at h
  by_cases hlanguage : d.languageId = Region.componentLanguage
  · rw [if_pos hlanguage] at h
    obtain ⟨regions, hparsed, hholds, hasked⟩ := ofKind_asked hagree hd hv .never hmemo h
    have hneeded : isNeeded false d = (false || !(Region.ofKind .template regions).isEmpty) := by
      rw [isNeeded, hparsed]
      simp [hlanguage]
    rw [hneeded]
    exact ⟨hholds, hasked⟩
  · rw [if_neg hlanguage] at h
    obtain ⟨-, rfl⟩ := Prod.mk.inj h
    rw [isNeeded_of_ne hlanguage]
    exact ⟨hv, .never⟩

/-- A validation that succeeds has asked for the document if somebody needs it. -/
theorem validate_asked {xs : List Diagnostic} (hv : HoldsRegions docs v)
    (hmemo : memoOf? d v.reporter = none)
    (h : validate (Session.diagnostics srv) withScript d v = (.ok xs, w)) :
    HoldsRegions docs w ∧ Asked srv d v.reporter (isNeeded withScript d) w.reporter := by
  obtain ⟨templates, u, htemplates, h⟩ := bind_eq_ok_iff.mp h
  obtain ⟨hu, hasked⟩ := template_asked hagree hd hv hmemo htemplates
  cases withScript with
  | false =>
      obtain ⟨-, rfl⟩ := Prod.mk.inj h
      exact ⟨hu, hasked⟩
  | true =>
      rw [if_pos rfl] at h
      obtain ⟨scripts, u', hscripts, hdone⟩ := bind_eq_ok_iff.mp h
      obtain ⟨-, rfl⟩ := Prod.mk.inj hdone
      obtain ⟨regions, hparsed, hw, hasked'⟩ := ofKind_asked hagree hd hu hasked hmemo hscripts
      have hneeded : isNeeded true d =
          (isNeeded false d || !(Region.ofKind .script regions).isEmpty) := by
        rw [isNeeded, isNeeded, hparsed]
        simp
      rw [hneeded]
      exact ⟨hw, hasked'⟩

end Asking

/-! ## Documents one after the other -/

/-- Two validations differ in nothing but what they count and print. -/
def Recounts (v w : Validation (Session σ)) : Prop := ∃ t, w = v.setTally t

theorem Recounts.refl (v : Validation (Session σ)) : Recounts v v := ⟨v.tally, rfl⟩

theorem Recounts.trans (v w x : Validation (Session σ)) (h : Recounts v w) (h' : Recounts w x) :
    Recounts v x := by
  obtain ⟨t, rfl⟩ := h
  obtain ⟨t', rfl⟩ := h'
  exact ⟨t', rfl⟩

/-- A check that succeeds has validated its document, and counts and prints no more. -/
theorem check_ok (h : check room (Session.diagnostics srv) withScript d v = (.ok (), w)) :
    ∃ found u, validate (Session.diagnostics srv) withScript d v = (.ok found, u) ∧
      Recounts u w := by
  obtain ⟨found, u, hfound, hrest⟩ := bind_eq_ok_iff.mp h
  have hcount (f : Tally → Tally) :
      Keeps Recounts (count f : Step (Session σ) Session.Failure Unit) := fun v => ⟨f v.tally, rfl⟩
  have hprint (x : Diagnostic) :
      Keeps Recounts (print room d x : Step (Session σ) Session.Failure Unit) :=
    Keeps.bind Recounts.trans Recounts.refl fun _ => hcount _
  have hkeeps := Keeps.bind Recounts.trans (hcount (·.withFound found)) fun _ =>
    Keeps.bind Recounts.trans (Keeps.forM Recounts.refl Recounts.trans hprint found) fun _ =>
      hcount fun t => { t with documents := t.documents + 1 }
  exact ⟨found, u, hfound, hkeeps.of_eq hrest⟩

/-- A session that remembers none of the documents to come. -/
def RemembersNone (ds : List Document) (s : Session σ) : Prop := ∀ d ∈ ds, memoOf? d s = none

/-- Asking for a document leaves the others unknown. -/
theorem RemembersNone.of_asked {t : Session σ} (h : RemembersNone ds s)
    (hasked : Asked srv d s asked t) (hother : ∀ d' ∈ ds, d'.uri ≠ d.uri) :
    RemembersNone ds t := by
  intro d' hd'
  obtain hsame | ⟨xs, hmemo⟩ := hasked.memo
  · have hnone := h d' hd'
    rwa [memoOf?, ← hsame] at hnone
  · rw [memoOf?, hmemo]
    apply if_neg
    intro hkey
    exact hother d' hd' (congrArg Prod.fst hkey).symm

/-- A check that succeeds opens the documents that somebody needs, in their order. -/
theorem checkAll_openings (hagree : Document.Agree docs) (hsub : ds ⊆ docs)
    (huris : (ds.map (·.uri)).Nodup) (hv : HoldsRegions docs v)
    (hnone : RemembersNone ds v.reporter)
    (h : checkAll room (Session.diagnostics srv) withScript ds v = (.ok (), w)) :
    ∃ es, Transcript srv v.reporter es w.reporter ∧
      openings (written es) = (ds.filter (isNeeded withScript)).map openMessage := by
  induction ds generalizing v with
  | nil =>
      obtain ⟨-, rfl⟩ := Prod.mk.inj h
      exact ⟨[], .nil, rfl⟩
  | cons d ds ih =>
      obtain ⟨hd, hds⟩ := List.cons_subset.mp hsub
      obtain ⟨hnew, huris⟩ := List.nodup_cons.mp huris
      obtain ⟨_, u, hfirst, hrest⟩ := bind_eq_ok_iff.mp h
      obtain ⟨found, u', hfound, t, rfl⟩ := check_ok hfirst
      obtain ⟨hholds, hasked⟩ :=
        validate_asked hagree hd hv (hnone d List.mem_cons_self) hfound
      have hother : ∀ d' ∈ ds, d'.uri ≠ d.uri := by
        intro d' hd' huri
        exact hnew (List.mem_map.mpr ⟨d', hd', huri⟩)
      have hlater : RemembersNone ds u'.reporter :=
        RemembersNone.of_asked (fun d' hd' => hnone d' (List.mem_cons_of_mem _ hd')) hasked hother
      obtain ⟨es, hes, hopening⟩ := hasked.transcript
      obtain ⟨es', hes', hopenings⟩ :=
        ih hds huris (v := u'.setTally t) hholds hlater hrest
      refine ⟨es ++ es', hes.append hes', ?_⟩
      rw [written_append, openings_append, hopening, hopenings, List.filter_cons]
      cases isNeeded withScript d <;> rfl

/-! ## Fresh validations -/

namespace Sample

/-- A server that publishes no diagnostics for whatever is opened, and answers every other message
with a response for its id. -/
def publisher : Server Unit where
  available := true
  initial := ()
  react _ m := ((), [.emit (Wire.encode (.obj
    (if isOpening m then
      [("method", .str publishMethod),
        ("params", .obj
          [("uri", .str ((Server.uriOf? m).getD "")), ("diagnostics", .arr [])])]
    else [("id", Server.valueAt m "id"), ("result", .null)])))])
  outlivesInput := false
  burst _ := 4

/-- A component with a template and a script. -/
def whole : Document := ⟨"file:///a.vue", "vue", 0, "<template/><script/>"⟩

/-- A component with neither. -/
def bare : Document := ⟨"file:///b.vue", "vue", 0, "<style/>"⟩

/-- A script on its own. -/
def plain : Document := ⟨"file:///c.ts", "ts", 0, "c"⟩

/-- A validation with a session that has been entered. -/
def entered : Validation (Session Unit) :=
  new (after publisher [.enter] Session.Sample.idle) 1 60.0

end Sample

end Validation

end SfcCheck
