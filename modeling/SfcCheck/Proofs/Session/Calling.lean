import SfcCheck.Proofs.Session.Transcript

/-!
# The transcripts of calls

Every call writes its messages in the order in which it sends them, and while it waits it takes up
what the server writes. A call that gets what it waits for has written its message before, and the
message that settles the wait stands in its transcript after that. So every run has a transcript.
-/

namespace SfcCheck.Session

open Attempt

variable {σ : Type} {srv : Server σ} {s s' t : Session σ}

/-! ## Reading -/

theorem IsDeaf.handled (h : IsDeaf s) (n : Nat) : handled srv n s = [] := by
  cases n with
  | zero => rfl
  | succ n =>
      have hnothing : s.incoming = .nothing := by
        rw [incoming]
        split
        · rfl
        · next p hp => rw [if_pos (by rw [h p hp]; rfl)]
      rw [Session.handled, hnothing]

/-- A session takes up one message after the other. -/
theorem handled_succ (srv : Server σ) (n : Nat) (s : Session σ) :
    handled srv (n + 1) s = handled srv 1 s ++ handled srv n (receive srv 1 s) := by
  rw [handled, handled, receive]
  cases hincoming : s.incoming with
  | nothing =>
      cases n with
      | zero => rfl
      | succ n => rw [handled, hincoming]; rfl
  | ended e => exact ((isDeaf_fail e s).handled n).symm
  | message fields t =>
      dsimp only
      rcases dispatch srv fields t with ⟨e | _, t'⟩
      · exact (congrArg (fields :: ·) ((isDeaf_fail _ t').handled n)).symm
      · rfl

/-- A part of a transcript in which messages are taken up and answered, and no more. -/
def Quiet (es : List Event) : Prop := ownCalls es = []

theorem Quiet.append {es es' : List Event} (h : Quiet es) (h' : Quiet es') : Quiet (es ++ es') := by
  rw [Quiet, ownCalls_append, h, h']
  rfl

theorem transcript_receive (srv : Server σ) (n : Nat) (s : Session σ) :
    ∃ es, Transcript srv s es (receive srv n s) ∧ received es = handled srv n s ∧ Quiet es := by
  induction n generalizing s with
  | zero => exact ⟨[], .nil, rfl, rfl⟩
  | succ n ih =>
      obtain ⟨es, hes, hreceived, hquiet⟩ := ih (receive srv 1 s)
      refine ⟨hearing srv s ++ es, ?_, ?_, Quiet.append (ownCalls_hearing srv s) hquiet⟩
      · rw [receive_succ]
        exact (Transcript.single .hear).append hes
      · rw [received_append, received_hearing, hreceived, handled_succ srv n s]

/-! ## Exchanges -/

theorem saying_update {κ α : Type} (l : WaitList σ κ α) (m : Json) (f : Waits κ α → Waits κ α)
    (s : Session σ) : saying m (l.update f s) = saying m s := by
  rw [l.update_rest]
  rfl

section Exchange

variable {κ α : Type} [DecidableEq κ] {l : WaitList σ κ α} {key : κ} {m : Json}

/-- Nothing passes by beginning to hang. -/
theorem transcript_hangIf (srv : Server σ) (b : Bool) (s : Session σ) :
    Transcript srv s [] (s.hangIf b) :=
  .aside (.note s.timeout s.capabilities s.lastId s.spawned _)

/-- What passes during a wait. If it is not too late at once, the session takes up the messages that
the wait is about. -/
theorem transcript_await (srv : Server σ) (l : WaitList σ κ α) (key : κ) (awaited : Awaited)
    (s : Session σ) :
    ∃ es, Transcript srv s es (await srv l key awaited s).2 ∧ Quiet es ∧
      (¬ s.timeout ≤ 0.0 → received es = heard srv s) := by
  obtain ⟨b, hb⟩ := await_snd srv l key awaited s
  rw [hb]
  by_cases htime : s.timeout ≤ 0.0
  · rw [if_pos htime]
    obtain ⟨es, hes, -, hquiet⟩ := transcript_receive srv
      (patience srv (l.update (·.settle key (.error (.timedOut s.timeout awaited))) s))
      (l.update (·.settle key (.error (.timedOut s.timeout awaited))) s)
    refine ⟨es, ?_, hquiet, absurd htime⟩
    rw [← List.append_nil es]
    exact (Transcript.aside (.wait l _)).append (hes.append (transcript_hangIf srv b _))
  · rw [if_neg htime]
    obtain ⟨es, hes, hreceived, hquiet⟩ := transcript_receive srv (s.patience srv) s
    refine ⟨es, ?_, hquiet, fun _ => hreceived⟩
    rw [← List.append_nil es]
    exact hes.append (transcript_hangIf srv b _)

theorem Watch.exchange_ok (w : Watch srv l) {awaited : Awaited} {a : α}
    (h : (exchange srv l key m awaited s).1 = .ok a) :
    ∃ t fields, send srv m (l.update (·.register key) s) = (.ok (), t) ∧ ¬ t.timeout ≤ 0.0 ∧
      fields ∈ heard srv t ∧ w.hits key fields = true ∧ w.verdict fields = .ok a := by
  rw [w.exchange_fst] at h
  rcases hsend : send srv m (l.update (·.register key) s) with ⟨e | _, t⟩
  · rw [hsend] at h
    cases h
  · rw [hsend] at h
    dsimp only at h
    have htimeout : t.timeout = s.timeout := by rw [timeout_of_send hsend, l.update_rest]
    split at h
    · cases h
    · next htime =>
        rw [Watch.reply] at h
        split at h
        · next fields hfind =>
            refine ⟨t, fields, rfl, by rwa [htimeout], ?_, ?_, h⟩
            · exact List.mem_of_find?_eq_some hfind
            · exact List.find?_some hfind
        · split at h <;> cases h

/-- What passes during an exchange: its message is written, unless it is refused, and then the
session reads. An exchange that succeeds has written its message and taken up another one that
settles the wait. -/
theorem Watch.transcript_exchange (w : Watch srv l) (key : κ) (hm : hasMethod m = true)
    (awaited : Awaited) (s : Session σ) :
    ∃ es, Transcript srv s (saying m s ++ es) (exchange srv l key m awaited s).2 ∧ Quiet es ∧
      ∀ a, (exchange srv l key m awaited s).1 = .ok a → saying m s = [.said m] ∧
        ∃ fields ∈ received es, w.hits key fields = true ∧ w.verdict fields = .ok a := by
  have hbegin : Transcript srv s (saying m s) (send srv m (l.update (·.register key) s)).2 := by
    have hsay : Passage srv (l.update (·.register key) s) _ _ := .say m hm
    rw [saying_update] at hsay
    exact (Transcript.aside (.wait l _)).append (.single hsay)
  have hend (t : Session σ) : Transcript srv t [] (l.update (·.forget key) t) := .aside (.wait l _)
  rcases hsend : send srv m (l.update (·.register key) s) with ⟨e | _, t⟩
  · rw [hsend] at hbegin
    rw [exchange_of_send_error awaited hsend]
    refine ⟨[], hbegin.append (hend t), rfl, fun a ha => ?_⟩
    cases ha
  · rw [hsend] at hbegin
    obtain ⟨es, hes, hquiet, hheard⟩ := transcript_await srv l key awaited (t.drain srv)
    refine ⟨es, ?_, hquiet, fun a ha => ?_⟩
    · rw [exchange_of_send_ok awaited hsend, ← List.append_nil es]
      exact hbegin.append ((transcript_hangIf srv _ t).append (hes.append (hend _)))
    · obtain ⟨t', fields, hsend', htime, hmem, hhits, hverdict⟩ := w.exchange_ok ha
      obtain rfl : t = t' := congrArg Prod.snd (hsend.symm.trans hsend')
      refine ⟨?_, fields, ?_, hhits, hverdict⟩
      · rw [← saying_update l]
        exact saying_of_send_ok hsend
      · have hheard' : received es = heard srv t :=
          (hheard htime).trans (heard_hangIf _ t)
        exact hheard' ▸ hmem

end Exchange

/-! ## Requests, notifications and documents -/

/-- Whether the server has granted a request: a response to it that reports no error was taken
up. -/
def Granted (id : Int) (es : List Event) : Prop :=
  ∃ fields ∈ received es, answers id fields = true ∧ fields.get? "error" = none

/-- Whether diagnostics for an address were taken up. -/
def Published (uri : String) (es : List Event) : Prop :=
  ∃ fields ∈ received es, publishes uri fields = true

theorem error_of_responseVerdict_ok {fields : Table Json} {v : Json}
    (h : responseVerdict fields = .ok v) : fields.get? "error" = none := by
  rw [responseVerdict] at h
  split at h
  · next hnone => exact hnone
  · split at h <;> cases h

theorem transcript_submit (srv : Server σ) {m : Json} (hm : hasMethod m = true) (s : Session σ) :
    Transcript srv s (saying m s) (submit srv m s).2 := by
  have hsay : Transcript srv s (saying m s) (send srv m s).2 := .single (.say m hm)
  rw [submit_eq]
  rcases hsend : send srv m s with ⟨e | _, t⟩
  · rw [hsend] at hsay
    exact hsay
  · rw [hsend] at hsay
    rw [← List.append_nil (saying m s)]
    exact hsay.append (transcript_hangIf srv _ t)

theorem transcript_notify (srv : Server σ) (method : String) (params : Json) (s : Session σ) :
    Transcript srv s (saying (notification method params) s) (notify srv method params s).2 :=
  transcript_submit srv rfl s

/-- What passes during a request. -/
theorem transcript_request (srv : Server σ) (method : String) (params : Json) (s : Session σ) :
    ∃ es, Transcript srv s (saying (requestMessage s.nextId method params) s ++ es)
        (request srv method params s).2 ∧ Quiet es ∧
      ∀ v, (request srv method params s).1 = .ok v →
        saying (requestMessage s.nextId method params) s =
          [.said (requestMessage s.nextId method params)] ∧ Granted s.nextId es := by
  obtain ⟨es, hes, hquiet, hok⟩ := (responseWatch srv).transcript_exchange s.nextId
    (m := requestMessage s.nextId method params) rfl (.response method)
    { s with lastId := s.lastId + 1 }
  refine ⟨es, ?_, hquiet, fun v hv => ?_⟩
  · have hnoted : Transcript srv s [] { s with lastId := s.lastId + 1 } :=
      .aside (.note s.timeout s.capabilities (s.lastId + 1) s.spawned s.hangs)
    exact hnoted.append hes
  · obtain ⟨hsaid, fields, hmem, hhits, hverdict⟩ := hok v hv
    rw [hits_responseWatch] at hhits
    rw [verdict_responseWatch] at hverdict
    exact ⟨hsaid, fields, hmem, hhits, error_of_responseVerdict_ok hverdict⟩

/-- What passes while a document is opened and its diagnostics are waited for. -/
theorem transcript_openAndAwait (srv : Server σ) (d : Document) (s : Session σ) :
    ∃ es, Transcript srv s (saying (openMessage d) s ++ es) (openAndAwait srv d s).2 ∧ Quiet es ∧
      ∀ items, (openAndAwait srv d s).1 = .ok items →
        saying (openMessage d) s = [.said (openMessage d)] ∧ Published d.uri es := by
  obtain ⟨es, hes, hquiet, hok⟩ := (publicationWatch srv).transcript_exchange d.uri
    (m := openMessage d) rfl (.diagnostics d.uri) s
  refine ⟨es, hes, hquiet, fun items hitems => ?_⟩
  obtain ⟨hsaid, fields, hmem, hhits, -⟩ := hok items hitems
  rw [hits_publicationWatch] at hhits
  exact ⟨hsaid, fields, hmem, hhits⟩

/-! ### Documents that are not settled -/

theorem silenced_of_send_error {m : Json} {e : ServerError} (hprocess : s.process?.isSome = true)
    (h : send srv m s = (.error e, t)) : Silenced t := by
  rw [send] at h
  split at h
  · next e' hfailure =>
      cases h
      exact .inl ⟨_, hfailure⟩
  · next hnone =>
      rw [hnone] at hprocess
      cases hprocess
  · next p hopen hp =>
      dsimp only at h
      split at h
      · split at h
        · next hbroken =>
            cases h
            exact .inr ⟨_, rfl, Process.isReachable_of_broken hbroken⟩
        · cases h
      · next hreach =>
          split at h
          · cases h
            exact .inr ⟨p, hp, by simpa using hreach⟩
          · cases h

/-- A document whose diagnostics are waited for is settled with an error only if reading has
ended. -/
def Unspoilt (uri : String) (s : Session σ) : Prop :=
  ∀ e, s.published.slot? uri = some (some (.error e)) → ∃ f, s.failure? = some f

theorem Unspoilt.dispatch {uri : String} (fields : Table Json) (h : Unspoilt uri s) :
    Unspoilt uri (dispatch srv fields s).2 := by
  have hdispatching := dispatching srv fields s
  generalize Session.dispatch srv fields s = out at hdispatching
  cases hdispatching with
  | faulty => exact h
  | unnoticed => exact h
  | response => exact h
  | answered m hanswer r =>
      intro e he
      have hpublished : (send srv m s).2.published = s.published := get_of_send publications rfl
      obtain ⟨f, hf⟩ := h e (hpublished ▸ he)
      exact ⟨f, (failure?_send m s).trans hf⟩
  | publication w htake =>
      intro e he
      obtain rfl | ⟨k, r, -, hopen, hresult, rfl⟩ := Waits.take_cases htake
      · exact h e he
      · change (Waits.settle k r s.published).slot? uri = _ at he
        rw [Waits.slot?_settle] at he
        split at he
        · next huri =>
            -- What is published settles the wait with its items.
            rw [huri, hopen] at he
            obtain ⟨items, rfl⟩ : ∃ items, r = .ok items := by
              cases hitems : publishedItems (paramsOf fields) with
              | error f =>
                  rw [hitems] at hresult
                  cases hresult
              | ok items =>
                  rw [hitems] at hresult
                  cases hresult
                  exact ⟨items, rfl⟩
            cases he
        · exact h e he

theorem Unspoilt.receive {uri : String} (n : Nat) (h : Unspoilt uri s) :
    Unspoilt uri (receive srv n s) := by
  induction n generalizing s with
  | zero => exact h
  | succ n ih =>
      rw [Session.receive]
      split
      · exact h
      · exact fun _ _ => ⟨_, rfl⟩
      · next fields r hmessage =>
          have hread : Unspoilt uri r := by
            obtain ⟨p, rfl⟩ := incoming_message hmessage
            exact h
          have hdispatched : Unspoilt uri (Session.dispatch srv fields r).2 :=
            hread.dispatch fields
          split
          · next t' hdispatch =>
              rw [hdispatch] at hdispatched
              exact ih hdispatched
          · exact fun _ _ => ⟨_, rfl⟩

/-- Whoever waits for diagnostics in vain has waited too long, or reading has ended. -/
theorem await_publications_error {uri : String} {awaited : Awaited} {e : ServerError}
    (hslot : s.published.slot? uri = some none)
    (h : (await srv publications uri awaited s).1 = .error e) :
    e = .timedOut s.timeout awaited ∨
      ∃ f, (await srv publications uri awaited s).2.failure? = some f := by
  by_cases htime : s.timeout ≤ 0.0
  · rw [(publicationWatch srv).await_late awaited hslot htime] at h
    exact .inl (Except.error.inj h).symm
  · have hread : Unspoilt uri (receiveAll srv s) := by
      apply Unspoilt.receive
      intro e' he
      rw [hslot] at he
      cases he
    obtain ⟨b, hb⟩ := await_snd srv publications uri awaited s
    rw [hb, if_neg htime]
    simp only [await, if_neg htime] at h
    split at h
    · next r hsettled =>
        obtain rfl : r = .error e := h
        exact .inr (hread e hsettled)
    · cases h
      exact .inl rfl

/-- A document that has been opened in vain has been waited for too long, or nothing reaches the
server any more. -/
theorem openAndAwait_error {d : Document} {e : ServerError} (hprocess : s.process?.isSome = true)
    (h : openAndAwait srv d s = (.error e, t)) :
    (∃ seconds awaited, e = .timedOut seconds awaited) ∨ Silenced t := by
  rcases hsend : send srv (openMessage d) (s.awaiting d) with ⟨e' | _, u⟩
  · have hout : openAndAwait srv d s = (.error e', publications.update (·.forget d.uri) u) :=
      exchange_of_send_error (.diagnostics d.uri) hsend
    obtain rfl : _ = t := congrArg Prod.snd (hout.symm.trans h)
    have hsilenced : Silenced u := silenced_of_send_error (s := s.awaiting d) hprocess hsend
    exact .inr hsilenced
  · have hout : openAndAwait srv d s =
        ((await srv publications d.uri (.diagnostics d.uri) (u.drain srv)).1, publications.update
          (·.forget d.uri) (await srv publications d.uri (.diagnostics d.uri) (u.drain srv)).2) :=
      exchange_of_send_ok (.diagnostics d.uri) hsend
    obtain rfl : _ = t := congrArg Prod.snd (hout.symm.trans h)
    have hslot : (u.drain srv).published.slot? d.uri = some none := by
      have hget : (u.drain srv).published = (s.awaiting d).published :=
        get_of_send publications hsend
      rw [hget]
      exact Waits.slot?_register _ _
    have hawait : (await srv publications d.uri (.diagnostics d.uri) (u.drain srv)).1 =
        .error e :=
      congrArg Prod.fst (hout.symm.trans h)
    obtain hlate | hfailure := await_publications_error hslot hawait
    · exact .inl ⟨_, _, hlate⟩
    · exact .inr (.inl hfailure)

/-! ## Runs -/

/-- A session goes through some transcript to another one. -/
def Passes (srv : Server σ) (s t : Session σ) : Prop := ∃ es, Transcript srv s es t

theorem Passes.trans (s t u : Session σ) (h : Passes srv s t) (h' : Passes srv t u) :
    Passes srv s u := by
  obtain ⟨es, hes⟩ := h
  obtain ⟨es', hes'⟩ := h'
  exact ⟨es ++ es', hes.append hes'⟩

theorem transcript_keepCapabilities (result : Json) (s : Session σ) :
    Transcript srv s [] (keepCapabilities result s) := by
  unfold keepCapabilities
  split
  · exact .aside (.note s.timeout _ s.lastId s.spawned s.hangs)
  · exact .nil

theorem transcript_spawn (srv : Server σ) (s : Session σ) :
    Transcript srv s [] (spawn srv s).2 := by
  rw [spawn]
  split
  · exact .nil
  · next hnone =>
      have hnote : Transcript srv s []
          { s with spawned := s.spawned ++ [(s.command, s.workspace.root.text)] } :=
        .aside (.note s.timeout s.capabilities s.lastId _ s.hangs)
      dsimp only
      split
      · exact hnote.append (.aside (.spawn (by simpa using hnone)))
      · exact hnote

/-- What passes while a process is reaped. -/
theorem transcript_reap (srv : Server σ) (s : Session σ) :
    ∃ es, Transcript srv s es (reap srv s) ∧ Quiet es := by
  have hclosed : Transcript srv s [] { s with process? := s.process?.map (·.closeInput srv) } :=
    .aside .closeInput
  obtain ⟨es, hes, -, hquiet⟩ := transcript_receive srv
    (patience srv { s with process? := s.process?.map (·.closeInput srv) })
    { s with process? := s.process?.map (·.closeInput srv) }
  have hkilled (t : Session σ) : Transcript srv t [] (t.kill srv) := .aside .kill
  have hdismissed (t : Session σ) :
      Transcript srv t (if t.isListening then [.failed .exited] else []) t.dismiss :=
    .single .dismiss
  refine ⟨_, hclosed.append (hes.append ((hkilled _).append (hdismissed _))), ?_⟩
  refine Quiet.append rfl (hquiet.append (Quiet.append rfl ?_))
  split <;> rfl

theorem passes_throughoutParts (srv : Server σ) : ThroughoutParts srv (Passes srv) where
  refl s := ⟨[], .nil⟩
  trans := Passes.trans
  keepCapabilities result s := ⟨[], transcript_keepCapabilities result s⟩
  notify method params s := ⟨_, transcript_notify srv method params s⟩
  request method params s := by
    obtain ⟨es, hes, -⟩ := transcript_request srv method params s
    exact ⟨_, hes⟩
  openAndAwait d s := by
    obtain ⟨es, hes, -⟩ := transcript_openAndAwait srv d s
    exact ⟨_, hes⟩
  memo memo? s hprocess := ⟨[], .aside (.remember memo? hprocess)⟩
  reap s := by
    obtain ⟨es, hes, -⟩ := transcript_reap srv s
    exact ⟨es, hes⟩

theorem passes_perform (srv : Server σ) (m : Move σ) (s : Session σ) :
    Passes srv s (m.perform srv s) := by
  have hparts := passes_throughoutParts srv
  have hspawn : Passes srv s (spawn srv s).2 := ⟨[], transcript_spawn srv s⟩
  cases m with
  | spawn => exact hspawn
  | start => exact hparts.start hspawn
  | enter => exact hparts.enter hspawn
  | stop => exact hparts.stop s
  | request method params => exact hparts.request method params s
  | notify method params => exact hparts.notify method params s
  | diagnostics d => exact hparts.diagnostics d s
  | setTimeout seconds =>
      exact ⟨[], .aside (.note seconds s.capabilities s.lastId s.spawned s.hangs)⟩
  | serve state reactions => exact ⟨[], .aside (.serve state reactions)⟩
  | read n =>
      obtain ⟨es, hes, -⟩ := transcript_receive srv n s
      exact ⟨es, hes⟩

/-- Every run has a transcript. -/
theorem passes_after (srv : Server σ) (moves : List (Move σ)) (s : Session σ) :
    Passes srv s (after srv moves s) := by
  induction moves generalizing s with
  | nil => exact ⟨[], .nil⟩
  | cons m moves ih => exact Passes.trans _ _ _ (passes_perform srv m s) (ih _)

end SfcCheck.Session
