import SfcCheck.Proofs.Session.Stopping

/-!
# Transcripts

What passes between a session and its server, in the order in which it happens: the messages that
the session takes up, the messages that it writes, and the errors that reading ends with. Every run
has a transcript, and so has each part of a call.

What is written reaches the server as long as this can be reached. The first message that does not
reach it is followed by none that does.
-/

namespace SfcCheck

/-! ## Processes that cannot be reached -/

namespace Process

variable {σ : Type} {p : Process σ}

theorem isReachable_of_broken (h : p.broken = true) : p.isReachable = false := by
  rw [isReachable, h]
  exact Bool.and_false _

theorem isReachable_apply (r : Reaction) (h : p.isReachable = false) :
    (p.apply r).isReachable = false := by
  cases r with
  | emit bytes =>
      rw [apply]
      split
      · exact h
      · exact h
  | breakPipe => exact Bool.and_false _
  | hangUp => exact h
  | exit code => rfl

/-- Nothing that a process does makes it reachable again. -/
theorem isReachable_applyAll (rs : List Reaction) (h : p.isReachable = false) :
    (p.applyAll rs).isReachable = false := by
  induction rs generalizing p with
  | nil => exact h
  | cons r rs ih =>
      rw [applyAll]
      split
      · exact ih (isReachable_apply r h)
      · exact h

theorem isReachable_closeInput (srv : Server σ) (h : p.isReachable = false) :
    (p.closeInput srv).isReachable = false := by
  rw [closeInput]
  split
  · rfl
  · exact h

theorem isReachable_kill (h : p.isReachable = false) : p.kill.isReachable = false := by
  rw [kill]
  split
  · rfl
  · exact h

end Process

namespace Session

open Attempt

variable {σ : Type} {srv : Server σ} {s t u : Session σ} {m : Json}

/-! ## Events -/

/-- Something that passes between a session and its server. -/
inductive Event where
  /-- The session takes up a message of the server. -/
  | heard (fields : Table Json)
  /-- The session writes a message. -/
  | said (m : Json)
  /-- Reading ends with an error. -/
  | failed (e : ServerError)

/-- The message that is taken up in an event. -/
def Event.heard? : Event → Option (Table Json)
  | heard fields => some fields
  | _ => none

/-- The message that is written in an event. -/
def Event.said? : Event → Option Json
  | said m => some m
  | _ => none

/-- The error that reading ends with in an event. -/
def Event.failed? : Event → Option ServerError
  | failed e => some e
  | _ => none

/-- The messages that are taken up in a transcript. -/
def received (es : List Event) : List (Table Json) := es.filterMap Event.heard?

/-- The messages that are written in a transcript. -/
def written (es : List Event) : List Json := es.filterMap Event.said?

/-- The errors that reading ends with in a transcript. -/
def errors (es : List Event) : List ServerError := es.filterMap Event.failed?

@[simp] theorem received_append (es es' : List Event) :
    received (es ++ es') = received es ++ received es' := List.filterMap_append

@[simp] theorem written_append (es es' : List Event) :
    written (es ++ es') = written es ++ written es' := List.filterMap_append

@[simp] theorem errors_append (es es' : List Event) :
    errors (es ++ es') = errors es ++ errors es' := List.filterMap_append

@[simp] theorem received_heard (fields : Table Json) (es : List Event) :
    received (.heard fields :: es) = fields :: received es := rfl

@[simp] theorem written_heard (fields : Table Json) (es : List Event) :
    written (.heard fields :: es) = written es := rfl

@[simp] theorem errors_heard (fields : Table Json) (es : List Event) :
    errors (.heard fields :: es) = errors es := rfl

theorem mem_written {es : List Event} : m ∈ written es ↔ Event.said m ∈ es := by
  rw [written, List.mem_filterMap]
  constructor
  · rintro ⟨e, he, hsaid⟩
    cases e with
    | said m' =>
        cases hsaid
        exact he
    | heard fields => cases hsaid
    | failed e => cases hsaid
  · intro h
    exact ⟨_, h, rfl⟩

/-- The messages of a session's own accord in a transcript. -/
def ownCalls (es : List Event) : List Json := calls (written es)

@[simp] theorem ownCalls_heard (fields : Table Json) (es : List Event) :
    ownCalls (.heard fields :: es) = ownCalls es := rfl

@[simp] theorem ownCalls_append (es es' : List Event) :
    ownCalls (es ++ es') = ownCalls es ++ ownCalls es' := by
  rw [ownCalls, written_append, calls_append]
  rfl

theorem ownCalls_said (h : hasMethod m = true) : ownCalls [.said m] = [m] :=
  List.filter_cons_of_pos h

/-! ## Writing -/

/-- What it adds to a transcript that a message is sent. One that is refused is not written. -/
def saying (m : Json) (s : Session σ) : List Event :=
  if s.failure?.isNone && s.process?.isSome then [.said m] else []

theorem saying_cases (m : Json) (s : Session σ) : saying m s = [] ∨ saying m s = [.said m] := by
  rw [saying]
  split
  · exact .inr rfl
  · exact .inl rfl

/-- A message is refused only when reading has ended or there is no process. -/
theorem failure?_of_saying_nil (hprocess : s.process?.isSome = true) (h : saying m s = []) :
    ∃ e, s.failure? = some e := by
  rw [saying, hprocess, Bool.and_true] at h
  cases hfailure : s.failure? with
  | none =>
      rw [hfailure] at h
      cases h
  | some e => exact ⟨e, rfl⟩

theorem process?_of_saying (h : saying m s ≠ []) : s.process?.isSome = true := by
  rw [saying] at h
  cases hprocess : s.process?.isSome with
  | true => rfl
  | false =>
      rw [hprocess, Bool.and_false] at h
      exact absurd rfl h

theorem received_saying (m : Json) (s : Session σ) : received (saying m s) = [] := by
  obtain h | h := saying_cases m s <;> rw [h] <;> rfl

theorem errors_saying (m : Json) (s : Session σ) : errors (saying m s) = [] := by
  obtain h | h := saying_cases m s <;> rw [h] <;> rfl

/-- A message that is sent without an error has been written. -/
theorem saying_of_send_ok (h : send srv m s = (.ok (), t)) : saying m s = [.said m] := by
  rw [send] at h
  split at h
  · cases h
  · cases h
  · next p hopen hp => rw [saying, hopen, hp]; rfl

theorem saying_of_submit_ok (h : submit srv m s = (.ok (), t)) : saying m s = [.said m] := by
  obtain ⟨u, hsend, -⟩ := send_of_submit_ok h
  exact saying_of_send_ok hsend

/-- Nothing that the session writes reaches a server: reading has ended, or the process is out of
reach. -/
def Silenced (s : Session σ) : Prop :=
  (∃ e, s.failure? = some e) ∨ ∃ p, s.process? = some p ∧ p.isReachable = false

theorem send_of_silenced (m : Json) (h : Silenced s) : (send srv m s).2 = s := by
  obtain ⟨e, he⟩ | ⟨p, hp, hreach⟩ := h
  · rw [send_of_failure m he]
  · rw [send]
    split
    · rfl
    · rfl
    · next q hopen hq =>
        obtain rfl : q = p := Option.some.inj (hq.symm.trans hp)
        have hout : ¬ q.isReachable = true := by simp [hreach]
        dsimp only
        rw [if_neg hout]
        split <;> rfl

/-- A message reaches the server when it is written, unless the process is out of reach. -/
theorem sent_send (srv : Server σ) (m : Json) (s : Session σ) :
    (send srv m s).2.sent = s.sent ++ written (saying m s) ∨
      (send srv m s).2 = s ∧ ∃ p, s.process? = some p ∧ p.isReachable = false := by
  rw [saying]
  cases hfailure : s.failure? with
  | some e =>
      left
      rw [send_of_failure m hfailure]
      exact (List.append_nil _).symm
  | none =>
      cases hp : s.process? with
      | none =>
          left
          rw [send, hfailure, hp]
          exact (List.append_nil _).symm
      | some p =>
          cases hreach : p.isReachable with
          | false => exact .inr ⟨send_of_silenced m (.inr ⟨p, hp, hreach⟩), p, rfl, hreach⟩
          | true =>
              left
              rw [send, hfailure, hp]
              dsimp only
              rw [if_pos hreach]
              split <;> rfl

/-! ## Reading -/

/-- The answer to a message of the server, if it is a request that can be answered. -/
def reply? (config : Json) (fields : Table Json) : Option Json :=
  match purpose fields with
  | .request id method =>
    match answer config method (paramsOf fields) with
    | .ok (key, value) => some (response id key value)
    | .error _ => none
  | _ => none

/-- What it adds to a transcript that a message of the server is answered. -/
def replying (fields : Table Json) (s : Session σ) : List Event :=
  match reply? s.workspace.config fields with
  | some m => saying m s
  | none => []

/-- What it adds to a transcript that reading ends. -/
def failing (r : Except ReadFailure Unit) : List Event :=
  match r with
  | .ok _ => []
  | .error f => [.failed f.toServerError]

/-- What it adds to a transcript that one message is read. -/
def hearing (srv : Server σ) (s : Session σ) : List Event :=
  match s.incoming with
  | .nothing => []
  | .ended e => [.failed e]
  | .message fields t => .heard fields :: (replying fields t ++ failing (dispatch srv fields t).1)

theorem received_failing (r : Except ReadFailure Unit) : received (failing r) = [] := by
  cases r <;> rfl

theorem written_failing (r : Except ReadFailure Unit) : written (failing r) = [] := by
  cases r <;> rfl

theorem received_replying (fields : Table Json) (s : Session σ) :
    received (replying fields s) = [] := by
  rw [replying]
  split
  · exact received_saying _ _
  · rfl

theorem errors_replying (fields : Table Json) (s : Session σ) :
    errors (replying fields s) = [] := by
  rw [replying]
  split
  · exact errors_saying _ _
  · rfl

theorem hasMethod_reply {config : Json} {fields : Table Json} (h : reply? config fields = some m) :
    hasMethod m = false := by
  rw [reply?] at h
  split at h
  · split at h
    · next hanswer =>
        cases h
        exact IsAnswer.hasMethod ⟨_, _, _, answer_key hanswer, rfl⟩
    · cases h
  · cases h

theorem ownCalls_replying (fields : Table Json) (s : Session σ) :
    ownCalls (replying fields s) = [] := by
  rw [replying]
  split
  · next m hreply =>
      obtain h | h := saying_cases m s
      · rw [h]
        rfl
      · rw [h]
        exact List.filter_cons_of_neg (by simp [hasMethod_reply hreply])
  · rfl

theorem received_hearing (srv : Server σ) (s : Session σ) :
    received (hearing srv s) = handled srv 1 s := by
  rw [hearing, handled]
  cases s.incoming with
  | nothing => rfl
  | ended e => rfl
  | message fields t =>
      have hone : received (.heard fields ::
          (replying fields t ++ failing (dispatch srv fields t).1)) = [fields] := by
        rw [received_heard, received_append, received_replying, received_failing]
        rfl
      dsimp only
      rw [hone]
      rcases dispatch srv fields t with ⟨_ | _, t'⟩ <;> rfl

/-- Whoever reads writes answers only. -/
theorem ownCalls_hearing (srv : Server σ) (s : Session σ) : ownCalls (hearing srv s) = [] := by
  rw [hearing]
  split
  · rfl
  · rfl
  · next fields t hmessage =>
      rw [ownCalls_heard, ownCalls_append, ownCalls_replying, ownCalls, written_failing]
      rfl

/-- Dispatching a message sends the answer to it and no more. -/
theorem sent_dispatch (srv : Server σ) (fields : Table Json) (s : Session σ) :
    (dispatch srv fields s).2.sent = s.sent ++ written (replying fields s) ∨
      (dispatch srv fields s).2 = s ∧ ∃ p, s.process? = some p ∧ p.isReachable = false := by
  have hsettled (r : Except Fault (Session σ)) (hr : ∀ t, r = .ok t → t.sent = s.sent) :
      (settled s r).2.sent = s.sent ++ written [] := by
    cases r with
    | error e => exact (List.append_nil _).symm
    | ok t => exact (hr t rfl).trans (List.append_nil _).symm
  rw [dispatch, replying, reply?]
  cases purpose fields with
  | response =>
      left
      apply hsettled
      intro t ht
      obtain ⟨w, -, rfl⟩ := take_eq_ok_iff.mp ht
      rfl
  | notification method =>
      left
      apply hsettled
      intro t ht
      rw [takeNotification] at ht
      split at ht
      · obtain ⟨w, -, rfl⟩ := take_eq_ok_iff.mp ht
        rfl
      · cases ht
        rfl
  | request id method =>
      dsimp only
      rw [takeRequest]
      cases answer s.workspace.config method (paramsOf fields) with
      | error e => exact .inl (List.append_nil _).symm
      | ok a =>
          have hsend := sent_send srv (response id a.1 a.2) s
          dsimp only
          rcases hout : send srv (response id a.1 a.2) s with ⟨_ | _, t⟩
          · rw [hout] at hsend
            exact hsend
          · rw [hout] at hsend
            exact hsend

/-! ## Transcripts of steps -/

/-- A step in which nothing passes between the session and its server. -/
inductive Aside (srv : Server σ) (s : Session σ) : Session σ → Prop where
  | note (timeout : Float) (capabilities : Json) (lastId : Nat)
      (spawned : List (List String × String)) (hangs : Bool) :
      Aside srv s { s with timeout, capabilities, lastId, spawned, hangs }
  | remember (memo? : Option ((String × Int) × List Diagnostic))
      (hprocess : s.process?.isSome = true) : Aside srv s { s with memo? }
  | wait {κ α : Type} (l : WaitList σ κ α) (f : Waits κ α → Waits κ α) :
      Aside srv s (l.update f s)
  | spawn (hnone : s.process? = none) : Aside srv s { s with process? := some (.new srv) }
  | serve (state : σ) (reactions : List Reaction) :
      Aside srv s { s with
        process? := s.process?.map fun p =>
          ({ p with server := state } : Process σ).applyAll reactions }
  | closeInput : Aside srv s { s with process? := s.process?.map (·.closeInput srv) }
  | kill : Aside srv s (s.kill srv)

/-- A step with what passes between the session and its server in it. -/
inductive Passage (srv : Server σ) (s : Session σ) : List Event → Session σ → Prop where
  | aside {t : Session σ} (h : Aside srv s t) : Passage srv s [] t
  /-- The session sends a message of its own accord. -/
  | say (m : Json) (hm : hasMethod m = true) : Passage srv s (saying m s) (send srv m s).2
  | hear : Passage srv s (hearing srv s) (receive srv 1 s)
  /-- Reading ends at the latest when the process is dismissed. -/
  | dismiss : Passage srv s (if s.isListening then [.failed .exited] else []) s.dismiss

/-- A sequence of steps with what passes between the session and its server in it. -/
inductive Transcript (srv : Server σ) (s : Session σ) : List Event → Session σ → Prop where
  | nil : Transcript srv s [] s
  | snoc {es es' : List Event} {t u : Session σ} (h : Transcript srv s es t)
      (hstep : Passage srv t es' u) : Transcript srv s (es ++ es') u

theorem Aside.step (h : Aside srv s t) : Step srv True s t := by
  cases h with
  | note => exact .note _ _ _ _ _
  | remember memo? hprocess => exact .remember memo? hprocess
  | wait l f => exact .wait l f
  | spawn hnone => exact .spawn trivial hnone
  | serve state reactions => exact .serve state reactions
  | closeInput => exact .closeInput
  | kill => exact .kill

theorem Aside.sent (h : Aside srv s t) : t.sent = s.sent := by
  cases h with
  | wait l f => rw [l.update_rest]
  | _ => rfl

theorem Passage.step {es : List Event} (h : Passage srv s es t) : Step srv True s t := by
  cases h with
  | aside h => exact h.step
  | say m hm => exact .send m
  | hear => exact .turn
  | dismiss => exact .dismiss

namespace Transcript

variable {es es' : List Event}

theorem single (h : Passage srv s es t) : Transcript srv s es t := .snoc .nil h

theorem aside (h : Aside srv s t) : Transcript srv s [] t := single (.aside h)

theorem append (h : Transcript srv s es t) (h' : Transcript srv t es' u) :
    Transcript srv s (es ++ es') u := by
  induction h' with
  | nil => rwa [List.append_nil]
  | snoc _ hstep ih =>
      rw [← List.append_assoc]
      exact .snoc ih hstep

theorem steps (h : Transcript srv s es t) : Steps srv True s t := by
  induction h with
  | nil => exact .refl
  | snoc _ hstep ih => exact .tail ih hstep.step

end Transcript

/-! ### How reading ends -/

theorem Passage.failure {es : List Event} (h : Passage srv s es t) :
    t.failure? = (errors es).getLast?.or s.failure? := by
  cases h with
  | aside h =>
      cases h with
      | wait l f =>
          rw [l.update_rest]
          rfl
      | _ => rfl
  | say m hm =>
      rw [failure?_send, errors_saying]
      rfl
  | dismiss =>
      cases hlistening : s.isListening with
      | true =>
          rw [dismiss_of_listening hlistening]
          rfl
      | false =>
          rw [dismiss_of_deaf (isDeaf_iff.mpr hlistening)]
          rfl
  | hear =>
      rw [receive, hearing]
      cases hmessage : s.incoming with
      | nothing => rfl
      | ended e => rfl
      | message fields r =>
          have hsame : (dispatch srv fields r).2.failure? = s.failure? := by
            rw [failure?_dispatch]
            obtain ⟨p, rfl⟩ := incoming_message hmessage
            rfl
          have herrors : errors (.heard fields ::
              (replying fields r ++ failing (dispatch srv fields r).1)) =
                errors (failing (dispatch srv fields r).1) := by
            rw [errors_heard, errors_append, errors_replying]
            rfl
          dsimp only
          rw [herrors]
          rcases hdispatch : dispatch srv fields r with ⟨f | _, r'⟩
          · rfl
          · rw [hdispatch] at hsame
            exact hsame

/-- A session keeps the last error that reading has ended with. -/
theorem Transcript.failure {es : List Event} (h : Transcript srv s es t) :
    t.failure? = (errors es).getLast?.or s.failure? := by
  induction h with
  | nil => rfl
  | snoc _ hstep ih => rw [hstep.failure, ih, errors_append, List.getLast?_append, Option.or_assoc]

/-! ### Who a session is -/

/-- The same session, with the same program for the same workspace. -/
structure SameIdentity (s s' : Session σ) : Prop where
  command : s'.command = s.command
  workspace : s'.workspace = s.workspace
  processId : s'.processId = s.processId

theorem Step.sameIdentity {fresh : Prop} (h : Step srv fresh s t) : SameIdentity s t := by
  cases h with
  | wait l f =>
      rw [l.update_rest]
      exact ⟨rfl, rfl, rfl⟩
  | send m =>
      obtain ⟨p?, ms, -, hsend⟩ := send_snd srv m s
      rw [hsend]
      exact ⟨rfl, rfl, rfl⟩
  | turn =>
      have hrest := (Reads.receive 1 s : Reads s (Session.receive srv 1 s)).rest
      exact ⟨congrArg (·.command) hrest, congrArg (·.workspace) hrest,
        congrArg (·.processId) hrest⟩
  | dismiss =>
      rw [Session.dismiss]
      split <;> exact ⟨rfl, rfl, rfl⟩
  | _ => exact ⟨rfl, rfl, rfl⟩

theorem Steps.sameIdentity {fresh : Prop} (h : Steps srv fresh s t) : SameIdentity s t := by
  induction h with
  | refl => exact ⟨rfl, rfl, rfl⟩
  | tail _ hstep ih =>
      obtain ⟨hcommand, hworkspace, hprocess⟩ := hstep.sameIdentity
      exact ⟨hcommand.trans ih.command, hworkspace.trans ih.workspace,
        hprocess.trans ih.processId⟩

/-! ### What reaches the server -/

/-- Nothing that the session writes reaches a server, and this stays so. -/
structure Mute (s : Session σ) : Prop where
  begun : Begun s
  silenced : Silenced s

theorem Silenced.map {f : Process σ → Process σ}
    (hf : ∀ p : Process σ, p.isReachable = false → (f p).isReachable = false) (h : Silenced s) :
    Silenced { s with process? := s.process?.map f } := by
  obtain hfailure | ⟨p, hp, hreach⟩ := h
  · exact .inl hfailure
  · exact .inr ⟨f p, congrArg (Option.map f) hp, hf p hreach⟩

theorem Aside.silenced (hstep : Aside srv s t) (h : Silenced s) : Silenced t := by
  cases hstep with
  | note => exact h
  | remember => exact h
  | wait l f =>
      rw [l.update_rest]
      exact h
  | spawn hnone =>
      obtain hfailure | ⟨p, hp, -⟩ := h
      · exact .inl hfailure
      · rw [hnone] at hp
        cases hp
  | serve state reactions =>
      exact h.map fun p => Process.isReachable_applyAll (p := { p with server := state }) reactions
  | closeInput => exact h.map fun p => Process.isReachable_closeInput srv
  | kill => exact h.map fun p => Process.isReachable_kill

theorem Silenced.incoming {fields : Table Json} (h : Silenced s)
    (hmessage : s.incoming = .message fields t) : Silenced t := by
  rw [Session.incoming] at hmessage
  split at hmessage
  · cases hmessage
  · next p hp =>
      split at hmessage
      · cases hmessage
      · split at hmessage
        · cases hmessage
        · cases hmessage
        · cases hmessage
        · cases hmessage
          obtain hfailure | ⟨q, hq, hreach⟩ := h
          · exact .inl hfailure
          · obtain rfl : q = p := Option.some.inj (hq.symm.trans hp)
            exact .inr ⟨_, rfl, hreach⟩

theorem Silenced.submit (srv : Server σ) (m : Json) (h : Silenced s) :
    Silenced (submit srv m s).2 := by
  have hsame : (send srv m s).2 = s := send_of_silenced m h
  rw [submit_eq]
  rcases hsend : send srv m s with ⟨e | _, t⟩
  · obtain rfl : t = s := by rwa [hsend] at hsame
    exact h
  · obtain rfl : t = s := by rwa [hsend] at hsame
    exact h

theorem Silenced.dispatch (srv : Server σ) (fields : Table Json) (h : Silenced s) :
    Silenced (dispatch srv fields s).2 ∧ (dispatch srv fields s).2.sent = s.sent := by
  have hdispatching := dispatching srv fields s
  generalize Session.dispatch srv fields s = out at hdispatching
  cases hdispatching with
  | answered m hanswer r =>
      rw [send_of_silenced m h]
      exact ⟨h, rfl⟩
  | _ => exact ⟨h, rfl⟩

theorem sent_of_incoming {fields : Table Json} (h : s.incoming = .message fields t) :
    t.sent = s.sent := by
  obtain ⟨p, rfl⟩ := incoming_message h
  rfl

theorem silenced_fail (e : ServerError) (s : Session σ) : Silenced (s.fail e) := .inl ⟨e, rfl⟩

theorem Silenced.turn (srv : Server σ) (h : Silenced s) :
    Silenced (receive srv 1 s) ∧ (receive srv 1 s).sent = s.sent := by
  rw [receive]
  split
  · exact ⟨h, rfl⟩
  · exact ⟨silenced_fail _ s, rfl⟩
  · next fields t hmessage =>
      have hsent : t.sent = s.sent := sent_of_incoming hmessage
      have hread := (h.incoming hmessage).dispatch srv fields
      split
      · next t' hdispatch =>
          rw [hdispatch] at hread
          exact ⟨hread.1, hread.2.trans hsent⟩
      · next e t' hdispatch =>
          rw [hdispatch] at hread
          exact ⟨silenced_fail _ t', hread.2.trans hsent⟩

theorem Mute.passage {es : List Event} (h : Mute s) (hstep : Passage srv s es t) :
    Mute t ∧ t.sent = s.sent := by
  have hbegun : Begun t := hstep.step.begun h.begun
  cases hstep with
  | aside haside => exact ⟨⟨hbegun, haside.silenced h.silenced⟩, haside.sent⟩
  | say m hm =>
      rw [send_of_silenced m h.silenced]
      exact ⟨h, rfl⟩
  | hear => exact ⟨⟨hbegun, (h.silenced.turn srv).1⟩, (h.silenced.turn srv).2⟩
  | dismiss =>
      -- Without a process it is the error of reading that keeps the session silent.
      obtain hlistening | hfailure := hbegun
      · rw [isListening, listening?, dismiss] at hlistening
        cases hlistening
      · exact ⟨⟨.inr hfailure, .inl hfailure⟩, dismiss_sent s⟩

theorem written_hearing {fields : Table Json} (h : s.incoming = .message fields t) :
    written (hearing srv s) = written (replying fields t) := by
  rw [hearing, h]
  dsimp only
  rw [written_heard, written_append, written_failing, List.append_nil]

/-- A message that is read is dispatched, and if that fails, reading ends. -/
theorem receive_message (srv : Server σ) {fields : Table Json}
    (h : s.incoming = .message fields t) :
    receive srv 1 s = (dispatch srv fields t).2 ∨
      ∃ e, receive srv 1 s = (dispatch srv fields t).2.fail e := by
  rw [receive, h]
  dsimp only
  rcases dispatch srv fields t with ⟨f | _, t'⟩
  · exact .inr ⟨f.toServerError, rfl⟩
  · exact .inl rfl

/-- What is written in a step reaches the server, or nothing does any more. -/
theorem Passage.delivered {es : List Event} (h : Passage srv s es t)
    (hbegun : s.process? = none ∨ Begun s) :
    t.sent = s.sent ++ written es ∨ t.sent = s.sent ∧ Mute t := by
  cases h with
  | aside h => exact .inl (h.sent.trans (List.append_nil _).symm)
  | say m hm =>
      obtain hsent | ⟨hsame, p, hp, hreach⟩ := sent_send srv m s
      · exact .inl hsent
      · have hread : Begun s := hbegun.resolve_left (by rw [hp]; simp)
        rw [hsame]
        exact .inr ⟨rfl, hread, .inr ⟨p, hp, hreach⟩⟩
  | dismiss =>
      left
      rw [dismiss_sent]
      split <;> exact (List.append_nil _).symm
  | hear =>
      have hstep : Step srv True s (receive srv 1 s) := .turn
      cases hmessage : s.incoming with
      | nothing =>
          left
          rw [receive, hearing, hmessage]
          exact (List.append_nil _).symm
      | ended e =>
          left
          rw [receive, hearing, hmessage]
          exact (List.append_nil _).symm
      | message fields r =>
          have hread : Begun (receive srv 1 s) :=
            hstep.begun (.inl (isListening_of_message hmessage).1)
          have hsame : r.sent = s.sent := sent_of_incoming hmessage
          have hturn : (receive srv 1 s).sent = (dispatch srv fields r).2.sent := by
            obtain hturn | ⟨e, hturn⟩ := receive_message srv hmessage
            · rw [hturn]
            · rw [hturn]
              rfl
          obtain hanswered | ⟨hlost, p, hp, hreach⟩ := sent_dispatch srv fields r
          · left
            rw [hturn, hanswered, hsame, written_hearing hmessage]
          · right
            refine ⟨by rw [hturn, hlost, hsame], hread, ?_⟩
            obtain hturn | ⟨e, hturn⟩ := receive_message srv hmessage
            · rw [hturn, hlost]
              exact .inr ⟨p, hp, hreach⟩
            · rw [hturn]
              exact silenced_fail e _

/-- What is written reaches the server up to some message, and after that nothing does. -/
theorem Transcript.delivered {es : List Event} (h : Transcript srv s es t)
    (hbegun : s.process? = none ∨ Begun s) :
    ∃ told lost, written es = told ++ lost ∧ t.sent = s.sent ++ told ∧ (lost = [] ∨ Mute t) := by
  induction h with
  | nil => exact ⟨[], [], rfl, (List.append_nil _).symm, .inl rfl⟩
  | @snoc es es' t u h hstep ih =>
      obtain ⟨told, lost, hwritten, hsent, hlost⟩ := ih
      by_cases hmuted : Mute t
      · obtain ⟨hmuted', hsent'⟩ := hmuted.passage hstep
        refine ⟨told, lost ++ written es', ?_, hsent'.trans hsent, .inr hmuted'⟩
        rw [written_append, hwritten, List.append_assoc]
      · obtain rfl : lost = [] := hlost.resolve_right hmuted
        rw [List.append_nil] at hwritten
        obtain hreached | ⟨hsame, hmuted'⟩ := hstep.delivered (h.steps.begun_of_process hbegun)
        · refine ⟨told ++ written es', [], ?_, ?_, .inl rfl⟩
          · rw [written_append, hwritten, List.append_nil]
          · rw [hreached, hsent, List.append_assoc]
        · refine ⟨told, written es', ?_, hsame.trans hsent, .inr hmuted'⟩
          rw [written_append, hwritten]

end Session

end SfcCheck
