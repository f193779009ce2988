import SfcCheck.Proofs.Session.Requests

/-!
# Published diagnostics

The diagnostics of a document are those that the server publishes first, of what is dispatched
while somebody waits for them. What it publishes for others, unasked or once more makes no
difference. The latest document is remembered until another one takes its place or the session is
stopped, so that asking for it again sends nothing.

A publication is looked up by the address in it. One whose address cannot be looked up at all ends
reading, like any message that cannot be dispatched.
-/

namespace SfcCheck.Session

open Attempt

variable {σ : Type} {srv : Server σ} {s s' : Session σ} {d : Document}

/-! ## Publications -/

/-- Whether a message publishes the diagnostics of a document. -/
def publishes (uri : String) (fields : Table Json) : Bool :=
  isPublication fields &&
    match publishedUri (paramsOf fields) with
    | .ok (some u) => decide (u = uri)
    | _ => false

theorem hits_publicationWatch (uri : String) (fields : Table Json) :
    (publicationWatch srv).hits uri fields = publishes uri fields := by
  rw [Bool.eq_iff_iff, Watch.hits_eq_true_iff]
  change isPublication fields = true ∧ publishedUri (paramsOf fields) = _ ↔ _
  rw [publishes]
  rcases publishedUri (paramsOf fields) with _ | _ | u <;> simp

/-! ## Calls -/

/-- A session that is about to open a document. -/
def awaiting (d : Document) (s : Session σ) : Session σ :=
  { s with published := s.published.register d.uri }

/-- What the server is told when a document is opened. -/
def openMessage (d : Document) : Json := notification "textDocument/didOpen" (openParams d)

/-- What opening a document comes to. -/
theorem openAndAwait_fst (srv : Server σ) (d : Document) (s : Session σ) :
    (openAndAwait srv d s).1 =
      match send srv (openMessage d) (s.awaiting d) with
      | (.error e, _) => .error e
      | (.ok _, t) =>
        if s.timeout ≤ 0.0 then .error (.timedOut s.timeout (.diagnostics d.uri))
        else (publicationWatch srv).reply d.uri (.diagnostics d.uri) t :=
  (publicationWatch srv).exchange_fst d.uri (openMessage d) (.diagnostics d.uri) s

/-- The items that a document comes to when they come in time. -/
theorem openAndAwait_ok {items : List Json} (h : openAndAwait srv d s = (.ok items, s')) :
    ∃ t fields, send srv (openMessage d) (s.awaiting d) = (.ok (), t) ∧
      (heard srv t).find? (publishes d.uri) = some fields ∧
      publishedItems (paramsOf fields) = .ok items := by
  have hfst := openAndAwait_fst srv d s
  rw [h] at hfst
  rcases hsend : send srv (openMessage d) (s.awaiting d) with ⟨e | _, t⟩
  · rw [hsend] at hfst
    cases hfst
  · rw [hsend] at hfst
    dsimp only at hfst
    split at hfst
    · cases hfst
    · rw [Watch.reply] at hfst
      have hhits : (publicationWatch srv).hits d.uri = publishes d.uri :=
        funext (hits_publicationWatch d.uri)
      rw [hhits] at hfst
      cases hfind : (heard srv t).find? (publishes d.uri) with
      | none =>
          rw [hfind] at hfst
          cases hfailure : (receiveAll srv t).failure? with
          | none =>
              rw [hfailure] at hfst
              cases hfst
          | some e =>
              rw [hfailure] at hfst
              cases hfst
      | some fields =>
          rw [hfind] at hfst
          refine ⟨t, fields, rfl, hfind, ?_⟩
          dsimp only [Watch.verdict, publicationWatch] at hfst
          cases hitems : publishedItems (paramsOf fields) with
          | error e =>
              rw [hitems] at hfst
              cases hfst
          | ok items' =>
              rw [hitems] at hfst
              cases hfst
              rfl

/-- How a call for diagnostics goes on. -/
theorem diagnostics_eq (srv : Server σ) (d : Document) (s : Session σ) :
    diagnostics srv d s =
      match memoOf? d s with
      | some xs => (.ok xs, s)
      | none =>
        match openAndAwait srv d s with
        | (.error e, t) => (.error (.server e), t)
        | (.ok items, t) =>
          match notify srv "textDocument/didClose" (closeParams d) t with
          | (.error e, u) => (.error (.server e), u)
          | (.ok _, u) =>
            match items.mapM Diagnostic.ofJson with
            | .error e => (.error (.fault e), u)
            | .ok xs => (.ok xs, { u with memo? := some ((d.uri, d.version), xs) }) := by
  have hget : (get : Talk σ Failure (Session σ)) s = (.ok s, s) := rfl
  rw [diagnostics, bind_ok hget]
  cases memoOf? d s with
  | some xs => rfl
  | none =>
      dsimp only
      rcases hopen : openAndAwait srv d s with ⟨e | items, t⟩
      · rw [bind_error (ofServer_eq hopen)]
      · rw [bind_ok (ofServer_eq hopen)]
        dsimp only
        rcases hclose : notify srv "textDocument/didClose" (closeParams d) t with ⟨e | _, u⟩
        · rw [bind_error (ofServer_eq hclose)]
        · rw [bind_ok (ofServer_eq hclose)]
          dsimp only
          cases items.mapM Diagnostic.ofJson with
          | error e => exact bind_error rfl
          | ok xs => exact bind_ok rfl

/-- The outcome of a call that is not answered from what is remembered. -/
inductive Asking (srv : Server σ) (d : Document) (s : Session σ) :
    Except Failure (List Diagnostic) × Session σ → Prop where
  | failed (e : Failure) (t : Session σ) (hmemo : t.memo? = s.memo?)
      (hkeys : t.published.keys = (s.published.forget d.uri).keys) : Asking srv d s (.error e, t)
  | answered (xs : List Diagnostic) (t u : Session σ) (fields : Table Json) (items : List Json)
      (hsend : send srv (openMessage d) (s.awaiting d) = (.ok (), t))
      (hfirst : (heard srv t).find? (publishes d.uri) = some fields)
      (hitems : publishedItems (paramsOf fields) = .ok items)
      (hxs : items.mapM Diagnostic.ofJson = .ok xs)
      (hkeys : u.published.keys = (s.published.forget d.uri).keys)
      (hmemo : u.memo? = some ((d.uri, d.version), xs)) :
      Asking srv d s (.ok xs, u)

theorem memo_openAndAwait (srv : Server σ) (d : Document) (s : Session σ) :
    (openAndAwait srv d s).2.memo? = s.memo? := by
  obtain ⟨p?, ms, t, -, hreads, hsnd⟩ := openAndAwait_snd srv d s
  rw [hsnd, hreads.rest]

theorem keys_published_openAndAwait (srv : Server σ) (d : Document) (s : Session σ) :
    (openAndAwait srv d s).2.published.keys = (s.published.forget d.uri).keys := by
  obtain ⟨p?, ms, t, -, hreads, hsnd⟩ := openAndAwait_snd srv d s
  rw [hsnd]
  exact Waits.keys_forget_of_register hreads.published

theorem memo_notify (srv : Server σ) (method : String) (params : Json) (s : Session σ) :
    (notify srv method params s).2.memo? = s.memo? := by
  obtain ⟨p?, ms, hangs, -, hsubmit⟩ := submit_snd srv (notification method params) s
  rw [notify, hsubmit]

theorem asking (srv : Server σ) (hmemo : memoOf? d s = none) :
    Asking srv d s (diagnostics srv d s) := by
  have hforgotten := keys_published_openAndAwait srv d s
  have hmemo₁ := memo_openAndAwait srv d s
  rw [diagnostics_eq, hmemo]
  dsimp only
  rcases hopen : openAndAwait srv d s with ⟨e | items, t⟩
  · rw [hopen] at hforgotten hmemo₁
    exact .failed _ t hmemo₁ hforgotten
  · rw [hopen] at hforgotten hmemo₁
    have hmemo₂ := memo_notify srv "textDocument/didClose" (closeParams d) t
    dsimp only
    rcases hclose : notify srv "textDocument/didClose" (closeParams d) t with ⟨e | _, u⟩
    · rw [hclose] at hmemo₂
      have hpublished : u.published = t.published := get_of_submit publications hclose
      exact .failed _ u (hmemo₂.trans hmemo₁) (hpublished ▸ hforgotten)
    · rw [hclose] at hmemo₂
      have hpublished : u.published = t.published := get_of_submit publications hclose
      obtain ⟨t', fields, hsend, hfirst, hitems⟩ := openAndAwait_ok hopen
      dsimp only
      cases hxs : items.mapM Diagnostic.ofJson with
      | error e => exact .failed _ u (hmemo₂.trans hmemo₁) (hpublished ▸ hforgotten)
      | ok xs =>
          exact .answered xs t' _ fields items hsend hfirst hitems hxs
            (hpublished ▸ hforgotten) rfl

theorem memoOf?_eq_some_iff {xs : List Diagnostic} :
    memoOf? d s = some xs ↔ s.memo? = some ((d.uri, d.version), xs) := by
  rw [memoOf?]
  cases s.memo? with
  | none => simp
  | some memo =>
      obtain ⟨key, ys⟩ := memo
      by_cases hkey : key = (d.uri, d.version) <;> simp [hkey]

theorem diagnostics_of_memo (srv : Server σ) {xs : List Diagnostic} (h : memoOf? d s = some xs) :
    diagnostics srv d s = (.ok xs, s) := by
  rw [diagnostics_eq, h]

/-- A call that succeeds is remembered. -/
theorem memo_of_diagnostics_ok {xs : List Diagnostic} (h : (diagnostics srv d s).1 = .ok xs) :
    (diagnostics srv d s).2.memo? = some ((d.uri, d.version), xs) := by
  cases hmemo : memoOf? d s with
  | some ys =>
      rw [diagnostics_of_memo srv hmemo] at h ⊢
      cases h
      exact memoOf?_eq_some_iff.mp hmemo
  | none =>
      have hasking := asking srv hmemo
      generalize diagnostics srv d s = out at h hasking
      cases hasking with
      | failed e t hsame hkeys => cases h
      | answered ys t u fields items hsend hfirst hitems hxs hkeys hmemo' =>
          cases h
          exact hmemo'

/-- A call that fails changes nothing in what is remembered. -/
theorem memo_of_diagnostics_error {e : Failure} (h : (diagnostics srv d s).1 = .error e) :
    (diagnostics srv d s).2.memo? = s.memo? := by
  cases hmemo : memoOf? d s with
  | some xs => rw [diagnostics_of_memo srv hmemo]
  | none =>
      have hasking := asking srv hmemo
      generalize diagnostics srv d s = out at h hasking
      cases hasking with
      | failed e' t hsame hkeys => exact hsame
      | answered xs => cases h

/-- A call that is not answered from what is remembered waits no longer when it ends. -/
theorem keys_published_diagnostics (hmemo : memoOf? d s = none) :
    (diagnostics srv d s).2.published.keys = (s.published.forget d.uri).keys := by
  have hasking := asking srv hmemo
  generalize diagnostics srv d s = out at hasking
  cases hasking with
  | failed e t hsame hkeys => exact hkeys
  | answered xs t u fields items hsend hfirst hitems hxs hkeys hmemo' => exact hkeys

/-- A call that is not answered from what is remembered gives the items of the first publication. -/
theorem first_of_diagnostics_ok {xs : List Diagnostic} (hmemo : memoOf? d s = none)
    (h : (diagnostics srv d s).1 = .ok xs) :
    ∃ t fields items, send srv (openMessage d) (s.awaiting d) = (.ok (), t) ∧
      (heard srv t).find? (publishes d.uri) = some fields ∧
      publishedItems (paramsOf fields) = .ok items ∧
      items.mapM Diagnostic.ofJson = .ok xs := by
  have hasking := asking srv hmemo
  generalize diagnostics srv d s = out at h hasking
  cases hasking with
  | failed e t hsame hkeys => cases h
  | answered ys t u fields items hsend hfirst hitems hxs hkeys hmemo' =>
      cases h
      exact ⟨t, fields, items, hsend, hfirst, hitems, hxs⟩

/-! ## What is remembered -/

/-- Sessions that remember the same. -/
def Remembers (s s' : Session σ) : Prop := s'.memo? = s.memo?

theorem across_remembers (srv : Server σ) : Across srv Remembers where
  trans _ _ _ h h' := Eq.trans h' h
  aside _ _ _ _ _ _ _ := rfl
  reads s s' h := by
    show s'.memo? = s.memo?
    rw [h.rest]
  notify := memo_notify srv
  request method params s := by
    obtain ⟨p?, ms, t, -, hreads, hsnd⟩ := request_snd srv method params s
    show (Session.request srv method params s).2.memo? = s.memo?
    rw [hsnd, hreads.rest]
  openAndAwait := memo_openAndAwait srv

/-- Whether a move may change what is remembered: it stops the session, as a failed entry does, or
it gives the diagnostics of a document. -/
def Move.Forgets (srv : Server σ) (s : Session σ) : Move σ → Prop
  | stop => True
  | enter => ∃ e, (Session.enter srv s).1 = .error e
  | diagnostics d => ∃ xs, (Session.diagnostics srv d s).1 = .ok xs
  | _ => False

/-- No move of a run may change what is remembered. -/
def Undisturbed (srv : Server σ) : List (Move σ) → Session σ → Prop
  | [], _ => True
  | m :: moves, s => ¬ m.Forgets srv s ∧ Undisturbed srv moves (m.perform srv s)

theorem remembers_perform {m : Move σ} (h : ¬ m.Forgets srv s) : Remembers s (m.perform srv s) := by
  have hacross := across_remembers srv
  cases m with
  | spawn => exact hacross.spawn s
  | start => exact hacross.start s
  | enter =>
      rcases hstart : start srv s with ⟨e | _, t⟩
      · have hfails : ∃ e', (Session.enter srv s).1 = .error e' := by
          rw [enter_of_start_error hstart]
          cases (Session.stop srv t).1 with
          | error e' => exact ⟨.server e', rfl⟩
          | ok _ => exact ⟨e, rfl⟩
        exact absurd hfails h
      · show Remembers s (Session.enter srv s).2
        rw [enter_of_start_ok hstart]
        exact hacross.start.of_eq hstart
  | stop => exact absurd trivial h
  | request method params => exact hacross.request method params s
  | notify method params => exact hacross.notify method params s
  | diagnostics d =>
      cases hresult : (Session.diagnostics srv d s).1 with
      | error e => exact memo_of_diagnostics_error hresult
      | ok xs => exact absurd ⟨xs, hresult⟩ h
  | setTimeout seconds => exact rfl
  | serve state reactions => exact rfl
  | read n => exact hacross.reads _ _ (.receive n s)

theorem remembers_after {moves : List (Move σ)} (h : Undisturbed srv moves s) :
    Remembers s (after srv moves s) := by
  induction moves generalizing s with
  | nil => rfl
  | cons m moves ih =>
      exact (across_remembers srv).trans _ _ _ (remembers_perform h.1) (ih h.2)

/-! ## Diagnostics -/

/-- A call that is answered from what is remembered does nothing. Any other call that succeeds
gives the items of the first publication for the document, of those that are dispatched while it
waits, and is remembered; one that fails changes nothing in what is remembered. Until something else
may be remembered, the same call is answered at once, whatever has become of the server. Afterwards
nobody waits for the document, and in a run for nothing at all; during the call of a run the
document is all that is waited for. A publication that nobody waits for makes no difference, unless
its address cannot be looked up, and then it is faulty. -/
theorem diagnostics_takes_first (srv : Server σ) (d : Document) (s : Session σ) :
    let s' := (diagnostics srv d s).2
    let sending := send srv (openMessage d) (s.awaiting d)
    (∀ xs, memoOf? d s = some xs → diagnostics srv d s = (.ok xs, s)) ∧
    (∀ xs, memoOf? d s = none → (diagnostics srv d s).1 = .ok xs →
      ∃ t fields items, sending = (.ok (), t) ∧
        (heard srv t).find? (publishes d.uri) = some fields ∧
        publishedItems (paramsOf fields) = .ok items ∧
        items.mapM Diagnostic.ofJson = .ok xs) ∧
    (∀ e, (diagnostics srv d s).1 = .error e → s'.memo? = s.memo?) ∧
    (∀ xs d' later, (diagnostics srv d s).1 = .ok xs → d'.uri = d.uri → d'.version = d.version →
      Undisturbed srv later s' →
        diagnostics srv d' (after srv later s') = (.ok xs, after srv later s')) ∧
    (memoOf? d s = none → d.uri ∉ s'.published.keys) ∧
    (∀ moves command workspace processId timeout,
      s = after srv moves (new command workspace processId timeout) →
        s'.published = [] ∧ ∀ n, (receive srv n sending.2).published.keys = [d.uri]) ∧
    (∀ (t : Session σ) fields uri?, isPublication fields = true →
      publishedUri (paramsOf fields) = .ok uri? →
      (∀ uri, uri? = some uri → t.published.slot? uri ≠ some none) →
        dispatch srv fields t = (.ok (), t)) ∧
    (∀ (t : Session σ) fields e, isPublication fields = true →
      publishedUri (paramsOf fields) = .error e →
        dispatch srv fields t = (.error (.fault e), t)) := by
  intro s' sending
  refine ⟨fun xs => diagnostics_of_memo srv, fun xs => first_of_diagnostics_ok,
    fun e => memo_of_diagnostics_error, ?_, ?_, ?_,
    fun t fields uri? => (publicationWatch srv).dispatch_of_stray,
    fun t fields e => (publicationWatch srv).dispatch_of_key_error⟩
  · intro xs d' later h huri hversion hundisturbed
    refine diagnostics_of_memo srv (memoOf?_eq_some_iff.mpr ?_)
    rw [remembers_after hundisturbed, huri, hversion]
    exact memo_of_diagnostics_ok h
  · intro hmemo
    rw [keys_published_diagnostics hmemo, Waits.keys_forget]
    simp
  · rintro moves command workspace processId timeout rfl
    have htidy := tidy_after srv moves (tidy_new command workspace processId timeout)
    refine ⟨((throughout_tidies srv).diagnostics d _ htidy).published, fun n => ?_⟩
    have hget : sending.2.published = _ := get_of_send publications rfl
    rw [(Reads.receive n sending.2).published, hget]
    change (Waits.register d.uri (after srv moves _).published).keys = _
    rw [htidy.published]
    rfl

/-! ### Publications that cannot be looked up -/

namespace Sample

/-- A component without a text. -/
def component : Document := ⟨"file:///a.vue", "vue", 0, ""⟩

/-- A publication of no diagnostics for an address. -/
def publication (uri : Json) : Table Json :=
  [("method", .str publishMethod), ("params", .obj [("uri", uri), ("diagnostics", .arr [])])]

/-- What the component comes to with a server that writes some messages. -/
def diagnosed (ms : List (Table Json)) : Except Failure (List Diagnostic) :=
  (diagnostics (echo ms) component (running (echo ms))).1

end Sample

open Sample in
/-- A publication whose address is a list takes the place of the diagnostics that a document has
without it. -/
theorem diagnostics_unkeyed_publication :
    isPublication (publication (.arr [.str "x"])) = true ∧
      publishes component.uri (publication (.arr [.str "x"])) = false ∧
      (match diagnosed [publication (.str component.uri)] with
        | .ok [] => true
        | _ => false) = true ∧
      (match diagnosed [publication (.arr [.str "x"]), publication (.str component.uri)] with
        | .error (.server (.malformedMessage (.unhashable .list))) => true
        | _ => false) = true := by
  decide +kernel

end SfcCheck.Session
