import SfcCheck.Proofs.Session.Calling
import SfcCheck.Proofs.Session.Entering
import SfcCheck.Server.Script

/-!
# The protocol of a session

A session that is entered, asked for the diagnostics of documents and left again writes, apart from
its answers to the server, a word of a small language: the handshake, its confirmation, documents
that are opened and perhaps closed again, and the farewell. Wherever a call fails, the word breaks
off, or the farewell comes at once.

A workspace without an address cannot be named in the handshake. Then the program has been started
all the same, and the farewell is all that it hears.
-/

namespace SfcCheck.Session

open Attempt

variable {σ : Type} {srv : Server σ} {s t : Session σ} {es es' past q : List Event} {m : Json}

/-! ## Messages -/

/-- The request that begins the handshake, in a new session. -/
def helloMessage (processId : Nat) (workspace : Workspace) (uri : String) : Json :=
  requestMessage 1 "initialize" (initializeParams processId workspace uri)

/-- The notification that ends the handshake. -/
def readyMessage : Json := notification "initialized" (.obj [])

/-- What the server is told when a document is closed. -/
def closeMessage (d : Document) : Json := notification "textDocument/didClose" (closeParams d)

/-- The request to shut down. -/
def shutdownMessage (id : Int) : Json := requestMessage id "shutdown" .null

/-- The notification that the server may exit. -/
def exitMessage : Json := notification "exit" .null

theorem notification_ne {method method' : String} {params params' : Json}
    (h : method ≠ method') : notification method params ≠ notification method' params' := by
  intro heq
  exact h (congrArg Server.methodOf heq)

theorem requestMessage_ne_notification {id : Int} {method method' : String}
    {params params' : Json} : requestMessage id method params ≠ notification method' params' := by
  intro heq
  simp [requestMessage, notification] at heq

/-! ## Words -/

/-- What is written about a document: it is opened, and perhaps closed again. -/
inductive Visit : List Json → Prop where
  | opened (d : Document) : Visit [openMessage d]
  | closed (d : Document) : Visit [openMessage d, closeMessage d]

/-- The words of the protocol that begin with a message. -/
inductive Word (hello : Json) : List Json → Prop where
  /-- The handshake fails. -/
  | refused (id : Int) : Word hello [hello, shutdownMessage id, exitMessage]
  /-- The handshake succeeds, and documents are visited. -/
  | served (visits : List (List Json)) (h : ∀ v ∈ visits, Visit v) (id : Int) :
      Word hello (hello :: readyMessage :: (visits.flatten ++ [shutdownMessage id, exitMessage]))

theorem ownCalls_saying (hm : hasMethod m = true) :
    (ownCalls (saying m s)).Sublist [m] := by
  obtain hsaid | hsaid := saying_cases m s
  · rw [hsaid]
    exact List.nil_sublist _
  · have hcalls : ownCalls (saying m s) = [m] := by rw [hsaid, ownCalls_said hm]
    exact hcalls ▸ List.Sublist.refl [m]

theorem ownCalls_said_append (hm : hasMethod m = true) (hq : Quiet q) (es : List Event) :
    ownCalls (.said m :: (q ++ es)) = m :: ownCalls es := by
  have hsplit : Event.said m :: (q ++ es) = [.said m] ++ (q ++ es) := rfl
  rw [hsplit, ownCalls_append, ownCalls_append, ownCalls_said hm, hq]
  rfl

theorem ownCalls_said_quiet (hm : hasMethod m = true) (hq : Quiet q) :
    ownCalls (.said m :: q) = [m] := by
  have h := ownCalls_said_append hm hq []
  rwa [List.append_nil] at h

/-! ## What has passed before -/

/-- A message is written in time. That the session is ready, and what it writes of documents, waits
for the first request to be granted. A document is closed only when its diagnostics have been
published since it was opened. -/
structure Timely (past : List Event) (m : Json) : Prop where
  granted : (m = readyMessage ∨ ∃ d, m = openMessage d ∨ m = closeMessage d) → Granted 1 past
  published : ∀ d, m = closeMessage d → ∃ earlier d' q, d'.uri = d.uri ∧
    past = earlier ++ .said (openMessage d') :: q ∧ Quiet q ∧ Published d.uri q

/-- All that is written in a transcript is written in time, given what has passed before, and
nothing but answers follows the notification that the server may exit. -/
def Orderly (past es : List Event) : Prop :=
  ∀ before m after, es = before ++ .said m :: after →
    Timely (past ++ before) m ∧ (m = exitMessage → Quiet after)

theorem quiet_iff : Quiet es ↔ ∀ m ∈ written es, hasMethod m = false := by
  rw [Quiet, ownCalls, calls, List.filter_eq_nil_iff]
  simp

/-- A message that is not about documents and does not say that the session is ready is always in
time. -/
theorem timely_of_ne (hready : m ≠ readyMessage)
    (hdocument : ∀ d, m ≠ openMessage d ∧ m ≠ closeMessage d) : Timely past m := by
  constructor
  · rintro (h | ⟨d, h | h⟩)
    · exact absurd h hready
    · exact absurd h (hdocument d).1
    · exact absurd h (hdocument d).2
  · intro d h
    exact absurd h (hdocument d).2

theorem timely_of_no_method (h : hasMethod m = false) : Timely past m := by
  have hne {m' : Json} (h' : hasMethod m' = true) : m ≠ m' := by
    rintro rfl
    rw [h] at h'
    cases h'
  exact timely_of_ne (hne rfl) fun d => ⟨hne rfl, hne rfl⟩

namespace Orderly

theorem quiet (h : Quiet es) : Orderly past es := by
  intro before m after hes
  have hm : hasMethod m = false := by
    apply quiet_iff.mp h
    rw [mem_written, hes]
    exact List.mem_append_right _ List.mem_cons_self
  refine ⟨timely_of_no_method hm, ?_⟩
  rintro rfl
  cases hm

theorem said (h : Timely past m) : Orderly past [.said m] := by
  intro before m' after hes
  obtain ⟨rfl, hes⟩ | ⟨rest, rfl, hnil⟩ := List.cons_eq_append_iff.mp hes
  · cases hes
    rw [List.append_nil]
    exact ⟨h, fun _ => rfl⟩
  · cases List.append_eq_nil_iff.mp hnil.symm |>.2

theorem append (h : Orderly past es) (h' : Orderly (past ++ es) es')
    (hexit : exitMessage ∈ written es → Quiet es') : Orderly past (es ++ es') := by
  intro before m after hes
  obtain ⟨rest, rfl, hes'⟩ | ⟨rest, rfl, hrest⟩ := List.append_eq_append_iff.mp hes
  · obtain ⟨htimely, hquiet⟩ := h' rest m after hes'
    rw [List.append_assoc] at htimely
    exact ⟨htimely, hquiet⟩
  · cases rest with
    | nil =>
        obtain ⟨htimely, hquiet⟩ := h' [] m after hrest.symm
        rw [List.append_nil, List.append_nil] at htimely
        exact ⟨htimely, hquiet⟩
    | cons e rest =>
        obtain ⟨rfl, rfl⟩ := List.cons.inj hrest
        obtain ⟨htimely, hquiet⟩ := h before m rest rfl
        refine ⟨htimely, fun hm => (hquiet hm).append (hexit ?_)⟩
        rw [mem_written, ← hm]
        exact List.mem_append_right _ List.mem_cons_self

theorem quiet_append (hq : Quiet q) (h : Orderly (past ++ q) es) : Orderly past (q ++ es) := by
  refine (quiet hq).append h fun hmem => ?_
  cases quiet_iff.mp hq _ hmem

/-- What is written in time may be followed by anything in order, if it is not the last call. -/
theorem cons (h : Timely past m) (hm : m ≠ exitMessage) (hes : Orderly (past ++ [.said m]) es) :
    Orderly past (.said m :: es) :=
  (said h).append hes fun hmem => absurd (List.mem_singleton.mp hmem).symm hm

/-- A request is always in time. -/
theorem ask {id : Int} {method : String} {params : Json}
    (h : Orderly (past ++ [.said (requestMessage id method params)]) es) :
    Orderly past (.said (requestMessage id method params) :: es) := by
  refine cons (timely_of_ne ?_ fun d => ⟨?_, ?_⟩) ?_ h
  · exact requestMessage_ne_notification
  · exact requestMessage_ne_notification
  · exact requestMessage_ne_notification
  · exact requestMessage_ne_notification

end Orderly

theorem Granted.append_left {id : Int} (h : Granted id es) (es' : List Event) :
    Granted id (es ++ es') := by
  obtain ⟨fields, hmem, hanswers⟩ := h
  exact ⟨fields, by rw [received_append]; exact List.mem_append_left _ hmem, hanswers⟩

theorem Granted.append_right {id : Int} (es : List Event) (h : Granted id es') :
    Granted id (es ++ es') := by
  obtain ⟨fields, hmem, hanswers⟩ := h
  exact ⟨fields, by rw [received_append]; exact List.mem_append_right _ hmem, hanswers⟩

/-! ## The parts of a session -/

/-! ### The handshake -/

theorem saying_of_open (hopen : s.failure? = none) (hprocess : s.process?.isSome = true) :
    saying m s = [.said m] := by
  rw [saying, hopen, hprocess]
  rfl

/-- The request that begins a handshake. -/
def greeting (uri : String) (s : Session σ) : Json :=
  requestMessage s.nextId "initialize" (initializeParams s.processId s.workspace uri)

/-- What passes during a handshake: it is confirmed only if it has been granted, and it succeeds
only if it is confirmed. -/
theorem transcript_handshake (srv : Server σ) {uri : String}
    (huri : s.workspace.rootUri = .ok uri) :
    ∃ q, Quiet q ∧
      ((∃ e, (handshake srv s).1 = .error e) ∧
          Transcript srv s (saying (greeting uri s) s ++ q) (handshake srv s).2 ∨
        Granted s.nextId q ∧
          Transcript srv s (saying (greeting uri s) s ++ (q ++ [.said readyMessage]))
            (handshake srv s).2) := by
  obtain ⟨q, hq, hquiet, hok⟩ := transcript_request srv "initialize"
    (initializeParams s.processId s.workspace uri) s
  rw [← greeting] at hq hok
  refine ⟨q, hquiet, ?_⟩
  rw [handshake_eq, huri]
  dsimp only
  rcases hrequest : request srv "initialize" (initializeParams s.processId s.workspace uri) s
    with ⟨e | result, t⟩
  · rw [hrequest] at hq
    exact .inl ⟨⟨_, rfl⟩, hq⟩
  · rw [hrequest] at hq hok
    have hready := (hq.append (transcript_keepCapabilities result t)).append
      (transcript_notify srv "initialized" (.obj []) (keepCapabilities result t))
    rw [List.append_nil, ← readyMessage] at hready
    dsimp only
    obtain hsaid | hsaid := saying_cases readyMessage (keepCapabilities result t)
    · left
      rw [hsaid, List.append_nil] at hready
      refine ⟨?_, hready⟩
      rcases hnotify : notify srv "initialized" (.obj []) (keepCapabilities result t)
        with ⟨e | _, u⟩
      · rw [ofServer_eq hnotify]
        exact ⟨_, rfl⟩
      · rw [readyMessage, saying_of_submit_ok hnotify] at hsaid
        cases hsaid
    · right
      rw [hsaid, List.append_assoc] at hready
      exact ⟨(hok result rfl).2, hready⟩

/-- What passes when a session is started, whatever has become of it before. -/
theorem transcript_start (srv : Server σ) (s : Session σ) :
    ∃ es, Transcript srv s es (start srv s).2 ∧
      ∃ id params, (ownCalls es).Sublist
        [requestMessage id "initialize" params, readyMessage] := by
  have hspawned := transcript_spawn srv s
  rcases hspawn : spawn srv s with ⟨e | _, t⟩
  · rw [hspawn] at hspawned
    rw [start, bind_error (ofServer_eq hspawn)]
    exact ⟨[], hspawned, 0, .null, List.nil_sublist _⟩
  · rw [hspawn] at hspawned
    rw [start, bind_ok (ofServer_eq hspawn)]
    cases huri : t.workspace.rootUri with
    | error e =>
        rw [handshake_eq, huri]
        exact ⟨[], hspawned, 0, .null, List.nil_sublist _⟩
    | ok uri =>
        obtain ⟨q, hquiet, hgreeted⟩ := transcript_handshake srv huri
        have hhello : (ownCalls (saying (greeting uri t) t)).Sublist [greeting uri t] :=
          ownCalls_saying rfl
        obtain ⟨-, hes⟩ | ⟨-, hes⟩ := hgreeted
        · refine ⟨_, hspawned.append hes, t.nextId,
            initializeParams t.processId t.workspace uri, ?_⟩
          rw [List.nil_append, ownCalls_append, hquiet]
          exact hhello.append (List.nil_sublist [readyMessage])
        · refine ⟨_, hspawned.append hes, t.nextId,
            initializeParams t.processId t.workspace uri, ?_⟩
          rw [List.nil_append, ownCalls_append, ownCalls_append, hquiet]
          exact hhello.append (List.Sublist.refl [readyMessage])

/-! ### Documents -/

/-- What passes during a call for the diagnostics of a document. It is closed only after it has been
opened and its diagnostics have been published. -/
inductive Attendance (d : Document) : List Event → Prop where
  | quiet (q : List Event) (h : Quiet q) : Attendance d q
  | opened (q : List Event) (h : Quiet q) : Attendance d (.said (openMessage d) :: q)
  | closed (q : List Event) (h : Quiet q) (hpublished : Published d.uri q) :
      Attendance d (.said (openMessage d) :: (q ++ [.said (closeMessage d)]))

/-- What is written during a call for diagnostics. -/
theorem Attendance.calls {d : Document} (h : Attendance d es) :
    ownCalls es = [] ∨ ownCalls es = [openMessage d] ∨
      ownCalls es = [openMessage d, closeMessage d] := by
  cases h with
  | quiet q h => exact .inl h
  | opened q h => exact .inr (.inl (ownCalls_said_quiet rfl h))
  | closed q h hpublished =>
      right
      right
      rw [ownCalls_said_append rfl h, ownCalls_said rfl]

/-- What passes while a session is used: what the server wrote is taken up, and there are calls for
diagnostics, one after the other. -/
inductive Service : List Event → Prop where
  | nil : Service []
  | quiet (q es : List Event) (h : Quiet q) (h' : Service es) : Service (q ++ es)
  | attended (d : Document) (es es' : List Event) (h : Attendance d es) (h' : Service es') :
      Service (es ++ es')

namespace Service

/-- Service is made of visits. -/
theorem visits (h : Service es) :
    ∃ vs : List (List Json), (∀ v ∈ vs, Visit v) ∧ ownCalls es = vs.flatten := by
  induction h with
  | nil => exact ⟨[], fun v hv => (List.not_mem_nil hv).elim, rfl⟩
  | quiet q es h _ ih =>
      rw [ownCalls_append, h]
      exact ih
  | attended d es es' h _ ih =>
      obtain ⟨vs, hvs, hes'⟩ := ih
      rw [ownCalls_append, hes']
      have hvisit (v : List Json) (hv : Visit v) : ∀ w ∈ v :: vs, Visit w := by
        intro w hw
        obtain rfl | hw := List.mem_cons.mp hw
        · exact hv
        · exact hvs w hw
      obtain hcalls | hcalls | hcalls := h.calls
      · exact ⟨vs, hvs, by rw [hcalls, List.nil_append]⟩
      · exact ⟨_, hvisit _ (.opened d), by rw [hcalls, List.flatten_cons]⟩
      · exact ⟨_, hvisit _ (.closed d), by rw [hcalls, List.flatten_cons]⟩

theorem exit_not_mem (h : Service es) : exitMessage ∉ written es := by
  intro hmem
  obtain ⟨vs, hvs, hes⟩ := h.visits
  have hcall : exitMessage ∈ ownCalls es := List.mem_filter.mpr ⟨hmem, rfl⟩
  rw [hes, List.mem_flatten] at hcall
  obtain ⟨v, hv, hexit⟩ := hcall
  cases hvs v hv with
  | opened d => simp [exitMessage, openMessage, notification] at hexit
  | closed d => simp [exitMessage, openMessage, closeMessage, notification] at hexit

end Service

theorem timely_openMessage (d : Document) (h : Granted 1 past) : Timely past (openMessage d) := by
  refine ⟨fun _ => h, fun d' hd => ?_⟩
  exact absurd hd (notification_ne (by decide))

theorem uri_of_closeMessage_eq {d d' : Document} (h : closeMessage d = closeMessage d') :
    d.uri = d'.uri := by
  simpa [closeMessage, closeParams, notification] using h

theorem timely_closeMessage {d : Document} (h : Granted 1 past) (hq : Quiet q)
    (hpublished : Published d.uri q) :
    Timely (past ++ .said (openMessage d) :: q) (closeMessage d) := by
  refine ⟨fun _ => h.append_left _, fun d' hd => ?_⟩
  have huri := uri_of_closeMessage_eq hd
  exact ⟨past, d, q, huri, rfl, hq, huri ▸ hpublished⟩

theorem Attendance.orderly {d : Document} (h : Attendance d es) (hgranted : Granted 1 past) :
    Orderly past es := by
  have hopen {es : List Event} (hes : Orderly (past ++ [.said (openMessage d)]) es) :
      Orderly past (.said (openMessage d) :: es) :=
    .cons (timely_openMessage d hgranted) (notification_ne (by decide)) hes
  cases h with
  | quiet q h => exact .quiet h
  | opened q h => exact hopen (.quiet h)
  | closed q h hpublished =>
      apply hopen
      apply Orderly.quiet_append h
      rw [List.append_assoc]
      exact .said (timely_closeMessage hgranted h hpublished)

/-- Once the handshake has been granted, service is in order. -/
theorem Service.orderly (h : Service es) (hgranted : Granted 1 past) : Orderly past es := by
  induction h generalizing past with
  | nil => exact .quiet rfl
  | quiet q es h _ ih => exact .quiet_append h (ih (hgranted.append_left q))
  | attended d es es' h h' ih =>
      refine (h.orderly hgranted).append (ih (hgranted.append_left es)) fun hmem => ?_
      have hservice : Service es := by
        rw [← List.append_nil es]
        exact .attended d es [] h .nil
      exact absurd hmem hservice.exit_not_mem

/-- Whether a call has waited too long. -/
def TimedOut {α : Type} (r : Except Failure α) : Prop :=
  ∃ seconds awaited, r = .error (.server (.timedOut seconds awaited))

theorem attendance_opening (d : Document) (s : Session σ) (hq : Quiet q) :
    Attendance d (saying (openMessage d) s ++ q) := by
  obtain hsaid | hsaid := saying_cases (openMessage d) s
  · rw [hsaid]
    exact .quiet q hq
  · rw [hsaid]
    exact .opened q hq

theorem attendance_closing {d : Document} (s : Session σ) (hq : Quiet q)
    (hpublished : Published d.uri q) :
    Attendance d (.said (openMessage d) :: (q ++ saying (closeMessage d) s)) := by
  obtain hsaid | hsaid := saying_cases (closeMessage d) s
  · rw [hsaid, List.append_nil]
    exact .opened q hq
  · rw [hsaid]
    exact .closed q hq hpublished

/-- If a document is not closed though a process is there, nothing reaches the server any more. -/
theorem silenced_of_not_closed (srv : Server σ) {d : Document}
    (hprocess : s.process?.isSome = true) (hq : Quiet q)
    (h : ownCalls (.said (openMessage d) :: (q ++ saying (closeMessage d) s)) = [openMessage d]) :
    Silenced (notify srv "textDocument/didClose" (closeParams d) s).2 := by
  obtain hsaid | hsaid := saying_cases (closeMessage d) s
  · have hsilenced : Silenced s := .inl (failure?_of_saying_nil hprocess hsaid)
    exact hsilenced.submit srv (closeMessage d)
  · rw [hsaid, ownCalls_said_append rfl hq, ownCalls_said rfl] at h
    cases h

/-- What passes during a call for diagnostics. If the document is opened and not closed again, it
has been waited for too long, or nothing reaches the server any more. -/
theorem transcript_diagnostics (srv : Server σ) (d : Document) (s : Session σ) :
    ∃ es, Transcript srv s es (diagnostics srv d s).2 ∧ Attendance d es ∧
      (ownCalls es = [openMessage d] →
        TimedOut (diagnostics srv d s).1 ∨ Silenced (diagnostics srv d s).2) := by
  rw [diagnostics_eq]
  cases memoOf? d s with
  | some xs => exact ⟨[], .nil, .quiet [] rfl, fun h => by cases h⟩
  | none =>
      obtain ⟨q, hq, hquiet, hok⟩ := transcript_openAndAwait srv d s
      dsimp only
      rcases hopen : openAndAwait srv d s with ⟨e | items, t⟩
      · rw [hopen] at hq
        refine ⟨_, hq, attendance_opening d s hquiet, fun hcalls => ?_⟩
        have hprocess : s.process?.isSome = true := by
          apply process?_of_saying (m := openMessage d)
          intro hnone
          rw [hnone, List.nil_append, hquiet] at hcalls
          cases hcalls
        obtain ⟨seconds, awaited, rfl⟩ | hsilenced := openAndAwait_error hprocess hopen
        · exact .inl ⟨seconds, awaited, rfl⟩
        · exact .inr hsilenced
      · rw [hopen] at hq hok
        obtain ⟨hsaid, hpublished⟩ := hok items rfl
        have hprocess : t.process?.isSome = true := by
          have hsame := (SameHandle.acrossParts srv).openAndAwait d s
          rw [hopen] at hsame
          rw [hsame.process]
          exact process?_of_saying (by rw [hsaid]; exact List.cons_ne_nil _ _)
        have hattended := attendance_closing (d := d) t hquiet hpublished
        have hlost := silenced_of_not_closed srv (d := d) hprocess hquiet
        have hclosing := hq.append
          (transcript_notify srv "textDocument/didClose" (closeParams d) t)
        rw [hsaid, List.append_assoc, List.singleton_append, ← closeMessage] at hclosing
        dsimp only
        rcases hnotify : notify srv "textDocument/didClose" (closeParams d) t with ⟨e | _, u⟩
        · rw [hnotify] at hclosing hlost
          exact ⟨_, hclosing, hattended, fun hcalls => .inr (hlost hcalls)⟩
        · rw [hnotify] at hclosing hlost
          dsimp only
          cases items.mapM Diagnostic.ofJson with
          | error e => exact ⟨_, hclosing, hattended, fun hcalls => .inr (hlost hcalls)⟩
          | ok xs =>
              have hremember := hclosing.append
                (.aside (.remember (some ((d.uri, d.version), xs)) (process?_of_submit_ok hnotify)))
              rw [List.append_nil] at hremember
              exact ⟨_, hremember, hattended, fun hcalls => .inr (hlost hcalls)⟩

/-- What happens between entering a session and leaving it. -/
inductive Use (σ : Type) where
  | diagnostics (d : Document)
  | setTimeout (seconds : Float)
  /-- The server goes on by itself. -/
  | serve (state : σ) (reactions : List Reaction)
  /-- Some of what the server wrote is read. -/
  | read (n : Nat)

/-- The move that a use is. -/
def Use.move : Use σ → Move σ
  | diagnostics d => .diagnostics d
  | setTimeout seconds => .setTimeout seconds
  | serve state reactions => .serve state reactions
  | read n => .read n

theorem transcript_uses (srv : Server σ) (uses : List (Use σ)) (s : Session σ) :
    ∃ es, Transcript srv s es (after srv (uses.map Use.move) s) ∧ Service es := by
  induction uses generalizing s with
  | nil => exact ⟨[], .nil, .nil⟩
  | cons u uses ih =>
      obtain ⟨es', hes', hserved⟩ := ih (u.move.perform srv s)
      have hquiet {q : List Event} (hq : Transcript srv s q (u.move.perform srv s))
          (h : Quiet q) : ∃ es, Transcript srv s es
            (after srv ((u :: uses).map Use.move) s) ∧ Service es :=
        ⟨q ++ es', hq.append hes', .quiet q es' h hserved⟩
      cases u with
      | diagnostics d =>
          obtain ⟨es, hes, hattended, -⟩ := transcript_diagnostics srv d s
          exact ⟨es ++ es', hes.append hes', .attended d es es' hattended hserved⟩
      | setTimeout seconds =>
          exact hquiet (.aside (.note seconds s.capabilities s.lastId s.spawned s.hangs)) rfl
      | serve state reactions => exact hquiet (.aside (.serve state reactions)) rfl
      | read n =>
          obtain ⟨q, hq, -, h⟩ := transcript_receive srv n s
          exact hquiet hq h

/-! ### The farewell -/

/-- What passes when a session is stopped. -/
inductive Farewell : List Event → Prop where
  | silent (q : List Event) (h : Quiet q) : Farewell q
  | asked (id : Int) (q : List Event) (h : Quiet q) : Farewell (.said (shutdownMessage id) :: q)
  | told (id : Int) (q q' : List Event) (h : Quiet q) (h' : Quiet q') :
      Farewell (.said (shutdownMessage id) :: (q ++ .said exitMessage :: q'))

theorem Farewell.quiet_append (h : Farewell es) (hq : Quiet q) : Farewell (es ++ q) := by
  cases h with
  | silent es h => exact .silent _ (h.append hq)
  | asked id q' h => exact .asked id _ (h.append hq)
  | told id q' q'' h h' =>
      rw [List.cons_append, List.append_assoc, List.cons_append]
      exact .told id q' _ h (h'.append hq)

theorem Farewell.calls (h : Farewell es) :
    ∃ id, ownCalls es <+: [shutdownMessage id, exitMessage] := by
  cases h with
  | silent es h => exact ⟨0, by rw [h]; exact List.nil_prefix⟩
  | asked id q h =>
      refine ⟨id, ?_⟩
      rw [ownCalls_said_quiet rfl h]
      exact ⟨[exitMessage], rfl⟩
  | told id q q' h h' =>
      have hcalls : ownCalls (.said (shutdownMessage id) :: (q ++ .said exitMessage :: q')) =
          [shutdownMessage id, exitMessage] := by
        rw [ownCalls_said_append rfl h, ownCalls_said_quiet rfl h']
      exact ⟨id, hcalls ▸ List.prefix_rfl⟩

theorem timely_exitMessage : Timely past exitMessage := by
  refine timely_of_ne ?_ fun d => ⟨?_, ?_⟩
  · exact notification_ne (by decide)
  · exact notification_ne (by decide)
  · exact notification_ne (by decide)

theorem Farewell.orderly (h : Farewell es) : Orderly past es := by
  cases h with
  | silent es h => exact .quiet h
  | asked id q h => exact .ask (.quiet h)
  | told id q q' h h' =>
      apply Orderly.ask
      apply Orderly.quiet_append h
      exact (Orderly.said timely_exitMessage).append (.quiet h') fun _ => h'

/-- What passes when the server is asked to shut down. -/
theorem transcript_shutDown (srv : Server σ) (s : Session σ) :
    ∃ es, Transcript srv s es (shutDown srv s).2 ∧ Farewell es := by
  obtain ⟨q, hq, hquiet, hok⟩ := transcript_request srv "shutdown" .null s
  have hasked : Farewell (saying (shutdownMessage s.nextId) s ++ q) := by
    obtain hsaid | hsaid := saying_cases (shutdownMessage s.nextId) s
    · rw [hsaid]
      exact .silent _ hquiet
    · rw [hsaid]
      exact .asked _ q hquiet
  rw [shutDown_eq]
  rcases hrequest : request srv "shutdown" .null s with ⟨e | v, t⟩
  · rw [hrequest] at hq
    exact ⟨_, hq, hasked⟩
  · rw [hrequest] at hq hok
    have hsaid : saying (shutdownMessage s.nextId) s = [.said (shutdownMessage s.nextId)] :=
      (hok v rfl).1
    refine ⟨_, hq.append (transcript_notify srv "exit" .null t), ?_⟩
    change Farewell (saying (shutdownMessage s.nextId) s ++ q ++ saying exitMessage t)
    obtain hexit | hexit := saying_cases exitMessage t
    · rw [hexit, List.append_nil]
      exact hasked
    · rw [hexit, hsaid]
      exact .told _ q [] hquiet rfl

/-- What passes when a session is stopped. -/
theorem transcript_stop (srv : Server σ) (s : Session σ) :
    ∃ es, Transcript srv s es (stop srv s).2 ∧ Farewell es := by
  cases hprocess : s.process? with
  | none =>
      rw [stop_of_no_process hprocess]
      exact ⟨[], .nil, .silent [] rfl⟩
  | some p =>
      rw [stop_eq (by rw [hprocess]; rfl)]
      have hasked : ∃ es, Transcript srv s es (asked srv s).2 ∧ Farewell es := by
        rw [asked]
        split
        · exact transcript_shutDown srv s
        · exact ⟨[], .nil, .silent [] rfl⟩
      obtain ⟨es, hes, hfarewell⟩ := hasked
      obtain ⟨q, hq, hquiet⟩ := transcript_reap srv (asked srv s).2
      exact ⟨es ++ q, hes.append hq, hfarewell.quiet_append hquiet⟩

/-! ## The whole -/

/-- What passes in a session with a server that can be greeted. -/
inductive Conversation (hello : Json) : List Event → Prop where
  | refused (q f : List Event) (h : Quiet q) (hf : Farewell f) :
      Conversation hello (.said hello :: (q ++ f))
  | served (q es f : List Event) (h : Quiet q) (hgranted : Granted 1 q) (hes : Service es)
      (hf : Farewell f) :
      Conversation hello ((.said hello :: (q ++ [.said readyMessage])) ++ (es ++ f))

theorem Conversation.word {hello : Json} (h : Conversation hello es)
    (hmethod : hasMethod hello = true) : ∃ w, Word hello w ∧ ownCalls es <+: w := by
  cases h with
  | refused q f h hf =>
      obtain ⟨id, hcalls⟩ := hf.calls
      refine ⟨_, .refused id, ?_⟩
      rw [ownCalls_said_append hmethod h]
      exact (List.prefix_cons_inj _).mpr hcalls
  | served q es f h hgranted hes hf =>
      obtain ⟨id, hcalls⟩ := hf.calls
      obtain ⟨visits, hvisits, hserved⟩ := hes.visits
      refine ⟨_, .served visits hvisits id, ?_⟩
      rw [ownCalls_append, ownCalls_said_append hmethod h, ownCalls_said rfl, ownCalls_append,
        hserved]
      exact (List.prefix_append_right_inj _).mpr ((List.prefix_append_right_inj _).mpr hcalls)

theorem timely_readyMessage (h : Granted 1 past) : Timely past readyMessage := by
  refine ⟨fun _ => h, fun d hd => ?_⟩
  exact absurd hd (notification_ne (by decide))

theorem Conversation.orderly {id : Int} {method : String} {params : Json}
    (h : Conversation (requestMessage id method params) es) : Orderly [] es := by
  cases h with
  | refused q f h hf => exact .ask (.quiet_append h hf.orderly)
  | served q es f h hgranted hes hf =>
      have hpast : Granted 1 ([.said (requestMessage id method params)] ++ q) :=
        hgranted.append_right _
      rw [List.cons_append, List.append_assoc]
      apply Orderly.ask
      apply Orderly.quiet_append h
      apply Orderly.cons (timely_readyMessage hpast)
      · exact notification_ne (by decide)
      · refine (hes.orderly (hpast.append_left _)).append hf.orderly fun hmem => ?_
        exact absurd hmem hes.exit_not_mem

/-- What becomes of a session that is entered, used and left. One that cannot be entered has been
stopped already. -/
def lifetime (srv : Server σ) (uses : List (Use σ)) (s : Session σ) : Session σ :=
  match enter srv s with
  | (.error _, t) => t
  | (.ok _, t) => (stop srv (after srv (uses.map Use.move) t)).2

/-- A session that cannot be started is stopped. -/
theorem lifetime_of_start_error (uses : List (Use σ)) {e : Failure}
    (h : start srv s = (.error e, t)) : lifetime srv uses s = (stop srv t).2 := by
  rw [lifetime, enter_of_start_error h]
  cases (stop srv t).1 <;> rfl

theorem lifetime_of_start_ok (uses : List (Use σ)) (h : start srv s = (.ok (), t)) :
    lifetime srv uses s = (stop srv (after srv (uses.map Use.move) t)).2 := by
  rw [lifetime, enter_of_start_ok h]

theorem transcript_noted (srv : Server σ) (s : Session σ) : Transcript srv s [] s.noted :=
  .aside (.note s.timeout s.capabilities s.lastId _ s.hangs)

theorem transcript_launched (srv : Server σ) (hnone : s.process? = none) :
    Transcript srv s [] (s.launched srv) :=
  (transcript_noted srv s).append (.aside (.spawn hnone))

/-- What passes in a session whose program can be started and whose workspace has an address. -/
theorem transcript_lifetime (uses : List (Use σ)) {uri : String} (hnone : s.process? = none)
    (hopen : s.failure? = none) (hfirst : s.lastId = 0) (havailable : srv.available = true)
    (huri : s.workspace.rootUri = .ok uri) :
    ∃ es, Transcript srv s es (lifetime srv uses s) ∧
      Conversation (helloMessage s.processId s.workspace uri) es := by
  have hlaunched := transcript_launched srv hnone
  have hstart := start_of_available hnone havailable
  have hnext : (s.launched srv).nextId = 1 := by
    show ((s.lastId : Int) + 1) = 1
    rw [hfirst]
    rfl
  have hgreeting : greeting uri (s.launched srv) = helloMessage s.processId s.workspace uri := by
    rw [greeting, hnext]
    rfl
  have hsaid (m : Json) : saying m (s.launched srv) = [.said m] := saying_of_open hopen rfl
  obtain ⟨q, hquiet, hgreeted⟩ := transcript_handshake srv (s := s.launched srv) huri
  rw [hgreeting, hsaid, hnext] at hgreeted
  rcases hhandshake : handshake srv (s.launched srv) with ⟨e | _, t⟩
  · rw [hhandshake] at hstart hgreeted
    rw [lifetime_of_start_error uses hstart]
    obtain ⟨f, hf, hfarewell⟩ := transcript_stop srv t
    obtain ⟨-, hrefused⟩ | ⟨hgranted, hconfirmed⟩ := hgreeted
    · exact ⟨_, hlaunched.append (hrefused.append hf), .refused q f hquiet hfarewell⟩
    · exact ⟨_, hlaunched.append (hconfirmed.append hf),
        .served q [] f hquiet hgranted .nil hfarewell⟩
  · rw [hhandshake] at hstart hgreeted
    rw [lifetime_of_start_ok uses hstart]
    obtain ⟨es, hes, hserved⟩ := transcript_uses srv uses t
    obtain ⟨f, hf, hfarewell⟩ := transcript_stop srv (after srv (uses.map Use.move) t)
    obtain ⟨⟨e, he⟩, -⟩ | ⟨hgranted, hconfirmed⟩ := hgreeted
    · cases he
    · exact ⟨_, hlaunched.append (hconfirmed.append (hes.append hf)),
        .served q es f hquiet hgranted hserved hfarewell⟩

/-- A program that cannot be started writes nothing, and nothing is written to it. -/
theorem transcript_lifetime_of_unavailable (uses : List (Use σ)) (hnone : s.process? = none)
    (havailable : srv.available = false) : Transcript srv s [] (lifetime srv uses s) := by
  rw [lifetime_of_start_error uses (start_of_unavailable hnone havailable),
    stop_of_no_process (s := s.noted) hnone]
  exact transcript_noted srv s

/-- If the workspace has no address, the program is started and stopped again. -/
theorem transcript_lifetime_of_no_root (uses : List (Use σ)) {e : RelativePath}
    (hnone : s.process? = none) (havailable : srv.available = true)
    (hroot : s.workspace.rootUri = .error e) :
    ∃ es, Transcript srv s es (lifetime srv uses s) ∧ Farewell es := by
  have hstart : start srv s = (.error (.relativeRoot e), s.launched srv) := by
    rw [start_of_available hnone havailable, handshake_eq]
    dsimp only [launched, noted]
    rw [hroot]
  obtain ⟨es, hes, hfarewell⟩ := transcript_stop srv (s.launched srv)
  rw [lifetime_of_start_error uses hstart]
  exact ⟨es, (transcript_launched srv hnone).append hes, hfarewell⟩

/-- Whatever the server does, what a new session writes between being entered and being left, apart
from answers, is the beginning of a word of the protocol, if its workspace has an address. Otherwise
it is the beginning of the farewell. That the session is ready, and what it writes of documents, is
written only after the server has granted the handshake, and a document is closed only after its
diagnostics have been published since it was opened. Apart from answers nothing is written after the
server has been told to exit. What reaches the server is the beginning of what is written. -/
theorem lifetime_follows_protocol (srv : Server σ) (uses : List (Use σ)) (command : List String)
    (workspace : Workspace) (processId : Nat) (timeout : Float) :
    let s₀ := new command workspace processId timeout
    let s := lifetime srv uses s₀
    ∃ es, Transcript srv s₀ es s ∧
      (s.sent <+: written es ∧ calls s.sent <+: ownCalls es) ∧
      (∀ uri, workspace.rootUri = .ok uri →
        ∃ w, Word (helloMessage processId workspace uri) w ∧ ownCalls es <+: w) ∧
      (∀ e, workspace.rootUri = .error e →
        ∃ id, ownCalls es <+: [shutdownMessage id, exitMessage]) ∧
      ∀ before m after, es = before ++ .said m :: after →
        Timely before m ∧ (m = exitMessage → Quiet after) := by
  intro s₀ s
  have hsent {es : List Event} (hes : Transcript srv s₀ es s) :
      s.sent <+: written es ∧ calls s.sent <+: ownCalls es := by
    obtain ⟨told, lost, hwritten, hsent, -⟩ := hes.delivered (.inl rfl)
    obtain rfl : told = s.sent := by rw [hsent]; rfl
    rw [ownCalls, hwritten]
    exact ⟨List.prefix_append _ _, (List.prefix_append _ _).filter _⟩
  have hordered {es : List Event} (h : Orderly [] es) (before : List Event) (m : Json)
      (after : List Event) (hes : es = before ++ .said m :: after) :
      Timely before m ∧ (m = exitMessage → Quiet after) := h before m after hes
  cases havailable : srv.available with
  | false =>
      have hes : Transcript srv s₀ [] s := transcript_lifetime_of_unavailable uses rfl havailable
      exact ⟨[], hes, hsent hes, fun uri _ => ⟨_, .refused 0, List.nil_prefix⟩,
        fun _ _ => ⟨0, List.nil_prefix⟩, hordered (.quiet rfl)⟩
  | true =>
      cases hroot : workspace.rootUri with
      | error e =>
          obtain ⟨es, hes, hfarewell⟩ := transcript_lifetime_of_no_root (s := s₀) uses rfl
            havailable hroot
          refine ⟨es, hes, hsent hes, fun uri huri => ?_, fun _ _ => hfarewell.calls,
            hordered hfarewell.orderly⟩
          cases huri
      | ok uri =>
          obtain ⟨es, hes, hconversation⟩ := transcript_lifetime (s := s₀) uses rfl rfl rfl
            havailable hroot
          refine ⟨es, hes, hsent hes, fun uri' huri => ?_, fun e he => ?_,
            hordered hconversation.orderly⟩
          · obtain rfl : uri = uri' := Except.ok.inj huri
            exact hconversation.word rfl
          · cases he

/-! ### A workspace without an address -/

namespace Sample

/-- A session for a workspace whose root is a relative path. -/
def homeless : Session Unit := new ["vls"] { workspace with root := Path.ofText "work" } 1 120.0

/-- A server that grants the first request. -/
def willing : Server Unit := echo [reply]

end Sample

open Sample in
/-- A server that is started for a workspace without an address hears the farewell without the
handshake before it, so what it hears is not the beginning of a word. -/
theorem lifetime_homeless :
    (calls (lifetime willing [] homeless).sent).map Server.methodOf = ["shutdown", "exit"] ∧
      ¬ ∃ hello w, Server.methodOf hello = "initialize" ∧ Word hello w ∧
        calls (lifetime willing [] homeless).sent <+: w := by
  have hheard : (calls (lifetime willing [] homeless).sent).map Server.methodOf =
      ["shutdown", "exit"] := by decide +kernel
  refine ⟨hheard, ?_⟩
  rintro ⟨hello, w, hmethod, hw, hstarts⟩
  obtain ⟨rest, rfl⟩ : ∃ rest, w = hello :: rest := by cases hw <;> exact ⟨_, rfl⟩
  cases hcalls : calls (lifetime willing [] homeless).sent with
  | nil =>
      rw [hcalls] at hheard
      cases hheard
  | cons first others =>
      rw [hcalls] at hheard hstarts
      obtain rfl : first = hello := (List.cons_prefix_cons.mp hstarts).1
      rw [List.map_cons, hmethod] at hheard
      simp at hheard

end SfcCheck.Session
