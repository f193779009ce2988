import SfcCheck.Proofs.Session.Protocol

/-!
# Starting again

A session that has been stopped is like a new one, except for what it has noted of its past and for
the error that reading has ended with. Reading ends at the latest when the process is dismissed, so
there is such an error whenever the program has ever been started, and it outlives the process. A
session that is started again starts the program, but everything it would write is refused with that
error: it does not shake hands and leaves the program running.
-/

namespace SfcCheck.Session

open Attempt

variable {σ : Type} {srv : Server σ} {s t : Session σ} {e : ServerError} {uri : String} {m : Json}

/-! ## Sessions that have never been started -/

/-- A session without a process, in which nothing has failed and nothing is waited for. -/
structure Idle (s : Session σ) : Prop where
  process : s.process? = none
  failure : s.failure? = none
  pending : s.pending = []
  published : s.published = []
  memo : s.memo? = none

theorem send_of_idle (m : Json) (hopen : s.failure? = none) (hnone : s.process? = none) :
    send srv m s = (.error .notRunning, s) := by
  rw [send, hopen, hnone]

/-- Nothing can be done with a session that has no process. -/
theorem Idle.refuses (h : Idle s) : Refuses srv .notRunning s where
  request method params := by
    have hsend : send srv (requestMessage s.nextId method params) s.opened =
        (.error .notRunning, s.opened) := send_of_idle _ h.failure h.process
    have hexchange : request srv method params s =
        (.error .notRunning, responses.update (·.forget s.nextId) s.opened) :=
      exchange_of_send_error (s := { s with lastId := s.lastId + 1 }) (.response method) hsend
    rw [hexchange]
    obtain ⟨command, workspace, processId, timeout, capabilities, process?, pending⟩ := s
    obtain rfl := h.pending
    simp [WaitList.update, responses, opened, forget_register_nil]
  notify method params := by
    rw [Session.notify, submit_eq, send_of_idle _ h.failure h.process]
  diagnostics d hmemo := by
    have hsend : send srv (openMessage d) (s.awaiting d) = (.error .notRunning, s.awaiting d) :=
      send_of_idle _ h.failure h.process
    have hopen : openAndAwait srv d s = (.error .notRunning, s) := by
      have hexchange : openAndAwait srv d s =
          (.error .notRunning, publications.update (·.forget d.uri) (s.awaiting d)) :=
        exchange_of_send_error (.diagnostics d.uri) hsend
      rw [hexchange]
      obtain ⟨command, workspace, processId, timeout, capabilities, process?, pending,
        published⟩ := s
      obtain rfl := h.published
      simp [WaitList.update, publications, awaiting, forget_register_nil]
    rw [diagnostics_eq, hmemo]
    dsimp only
    rw [hopen]

/-- A move that does not start the program leaves notes at most. -/
theorem Idle.perform {m : Move σ} (h : Idle s) (hm : ¬ m.Spawns srv s) :
    ∃ timeout lastId spawned, m.perform srv s = { s with timeout, lastId, spawned } := by
  have hsame : ∃ timeout lastId spawned, s = { s with timeout, lastId, spawned } :=
    ⟨s.timeout, s.lastId, s.spawned, rfl⟩
  have hnoted : ∃ timeout lastId spawned, s.noted = { s with timeout, lastId, spawned } :=
    ⟨s.timeout, s.lastId, _, rfl⟩
  have hunavailable (hspawns : ¬ (s.process? = none ∧ srv.available = true)) :
      srv.available = false := by
    cases havailable : srv.available with
    | false => rfl
    | true => exact absurd ⟨h.process, havailable⟩ hspawns
  cases m with
  | spawn =>
      rw [Move.perform, spawn_of_unavailable h.process (hunavailable hm)]
      exact hnoted
  | start =>
      rw [Move.perform, start_of_unavailable h.process (hunavailable hm)]
      exact hnoted
  | enter =>
      rw [Move.perform, enter_of_start_error (start_of_unavailable h.process (hunavailable hm)),
        stop_of_no_process (s := s.noted) h.process]
      exact hnoted
  | stop =>
      rw [Move.perform, stop_of_no_process h.process]
      exact hsame
  | request method params =>
      rw [Move.perform, h.refuses.request]
      exact ⟨s.timeout, s.lastId + 1, s.spawned, rfl⟩
  | notify method params =>
      rw [Move.perform, h.refuses.notify]
      exact hsame
  | diagnostics d =>
      have hmemo : memoOf? d s = none := by rw [memoOf?, h.memo]
      rw [Move.perform, h.refuses.diagnostics d hmemo]
      exact hsame
  | setTimeout seconds => exact ⟨seconds, s.lastId, s.spawned, rfl⟩
  | serve state reactions =>
      have hprocess : s.process?.map (fun p =>
          ({ p with server := state } : Process σ).applyAll reactions) = s.process? := by
        rw [h.process]
        rfl
      rw [Move.perform, hprocess]
      exact hsame
  | read n =>
      have hdeaf : IsDeaf s := by
        intro p hp
        rw [h.process] at hp
        cases hp
      rw [Move.perform, hdeaf.receive]
      exact hsame

/-- A run in which the program is not started leaves notes at most. -/
theorem Idle.after {moves : List (Move σ)} (h : Idle s) (hmoves : Unstarted srv moves s) :
    ∃ timeout lastId spawned, after srv moves s = { s with timeout, lastId, spawned } := by
  induction moves generalizing s with
  | nil => exact ⟨s.timeout, s.lastId, s.spawned, rfl⟩
  | cons m moves ih =>
      obtain ⟨timeout, lastId, spawned, hperform⟩ := h.perform hmoves.1
      have hrest := hmoves.2
      rw [hperform] at hrest
      obtain ⟨timeout', lastId', spawned', hafter⟩ :=
        ih (s := { s with timeout, lastId, spawned }) ⟨h.1, h.2, h.3, h.4, h.5⟩ hrest
      refine ⟨timeout', lastId', spawned', ?_⟩
      rw [Session.after, List.foldl_cons, ← Session.after, hperform, hafter]

/-! ## Sessions that have been started -/

theorem begun_launched (srv : Server σ) (s : Session σ) : Begun (s.launched srv) := .inl rfl

theorem begun_start (hnone : s.process? = none) (havailable : srv.available = true) :
    Begun (start srv s).2 := by
  rw [start_of_available hnone havailable]
  have hsteps : Steps srv True (s.launched srv) (handshake srv (s.launched srv)).2 :=
    (Steps.throughoutParts srv True).toAcrossParts.handshake _
  exact hsteps.begun (begun_launched srv s)

/-- Once the program is started, reading begins. -/
theorem begun_perform {m : Move σ} (h : m.Spawns srv s) : Begun (m.perform srv s) := by
  cases m with
  | spawn =>
      rw [Move.perform, spawn_of_available h.1 h.2]
      exact begun_launched srv s
  | start => exact begun_start h.1 h.2
  | enter =>
      have hbegun := begun_start h.1 h.2
      rw [Move.perform]
      rcases hstart : Session.start srv s with ⟨e | _, t⟩
      · rw [hstart] at hbegun
        rw [enter_of_start_error hstart]
        have hsteps : Steps srv True t (Session.stop srv t).2 :=
          (Steps.throughoutParts srv True).stop t
        exact hsteps.begun hbegun
      · rw [hstart] at hbegun
        rw [enter_of_start_ok hstart]
        exact hbegun
  | _ => exact h.elim

theorem begun_after {moves : List (Move σ)} (h : ¬ Unstarted srv moves s) :
    Begun (after srv moves s) := by
  induction moves generalizing s with
  | nil => exact absurd trivial h
  | cons m moves ih =>
      by_cases hspawns : m.Spawns srv s
      · exact (steps_after srv moves _).begun (begun_perform hspawns)
      · exact ih fun hmoves => h ⟨hspawns, hmoves⟩

/-- A session in which reading has failed starts the program and refuses to greet it. -/
theorem start_of_failure (hnone : s.process? = none) (hfailure : s.failure? = some e)
    (htidy : Tidy s) (havailable : srv.available = true) (huri : s.workspace.rootUri = .ok uri) :
    start srv s = (.error (.server e), { s.launched srv with lastId := s.lastId + 1 }) := by
  have htidy' : Tidy (s.launched srv) := htidy.congr rfl rfl rfl rfl
  have hrefuses : Refuses srv e (s.launched srv) := refuses_of_failure hfailure htidy'
  rw [start_of_available hnone havailable, handshake_eq]
  dsimp only [launched, noted] at hrefuses ⊢
  rw [huri]
  dsimp only
  rw [hrefuses.request]

theorem start_of_no_root {e : RelativePath} (hnone : s.process? = none)
    (havailable : srv.available = true) (hroot : s.workspace.rootUri = .error e) :
    start srv s = (.error (.relativeRoot e), s.launched srv) := by
  rw [start_of_available hnone havailable, handshake_eq]
  dsimp only [launched, noted]
  rw [hroot]

/-! ## The first message -/

/-- A step only ever adds to what has been sent. -/
theorem Step.sent_grows {fresh : Prop} (h : Step srv fresh s t) : s.sent <+: t.sent := by
  cases h with
  | send m =>
      obtain ⟨p?, ms, -, hsend⟩ := send_snd srv m s
      rw [hsend]
      exact List.prefix_append _ _
  | turn =>
      obtain ⟨answers, hsent, -⟩ := (Reads.receive 1 s : Reads s (receive srv 1 s)).sent
      rw [hsent]
      exact List.prefix_append _ _
  | wait l f =>
      have hsent : (l.update f s).sent = s.sent := by rw [l.update_rest]
      exact hsent ▸ List.prefix_rfl
  | dismiss =>
      have hsent : s.dismiss.sent = s.sent := dismiss_sent s
      exact hsent ▸ List.prefix_rfl
  | _ => exact List.prefix_rfl

theorem Steps.sent_grows {fresh : Prop} (h : Steps srv fresh s t) : s.sent <+: t.sent := by
  induction h with
  | refl => exact List.prefix_rfl
  | tail _ hstep ih => exact ih.trans hstep.sent_grows

/-- A request is the first that is sent after it has been made. -/
theorem request_grows (method : String) (params : Json) {p : Process σ} (hopen : s.failure? = none)
    (hp : s.process? = some p) (hreach : p.isReachable = true) :
    s.sent ++ [requestMessage s.nextId method params] <+: (request srv method params s).2.sent := by
  have hsent : (send srv (requestMessage s.nextId method params) s.opened).2.sent =
      s.sent ++ [requestMessage s.nextId method params] := by
    obtain hsent | ⟨-, q, hq, hlost⟩ :=
      sent_send srv (requestMessage s.nextId method params) s.opened
    · have hsaid : saying (requestMessage s.nextId method params) s.opened =
          [.said (requestMessage s.nextId method params)] := by
        apply saying_of_open
        · exact hopen
        · exact Option.isSome_iff_exists.mpr ⟨p, hp⟩
      rw [hsent, hsaid]
      rfl
    · have hsame : some p = some q := hp.symm.trans hq
      rw [← Option.some.inj hsame, hreach] at hlost
      cases hlost
  have hsteps : Steps srv False (send srv (requestMessage s.nextId method params) s.opened).2
      (request srv method params s).2 := by
    have hend (t : Session σ) : Steps srv False t (responses.update (·.forget s.nextId) t) :=
      .single (.wait _ _)
    rcases hsend : send srv (requestMessage s.nextId method params) s.opened with ⟨e | _, t⟩
    · have hout : request srv method params s =
          (.error e, responses.update (·.forget s.nextId) t) :=
        exchange_of_send_error (s := { s with lastId := s.lastId + 1 }) (.response method) hsend
      rw [hout]
      exact hend t
    · have hout : request srv method params s =
          ((await srv responses s.nextId (.response method) (t.drain srv)).1, responses.update
            (·.forget s.nextId)
            (await srv responses s.nextId (.response method) (t.drain srv)).2) :=
        exchange_of_send_ok (s := { s with lastId := s.lastId + 1 }) (.response method) hsend
      have hwaited : Steps srv False t
          (await srv responses s.nextId (.response method) (t.drain srv)).2 :=
        Steps.trans _ _ _ (.hangIf _ t) (Steps.await _ _ _ _)
      rw [hout]
      exact Steps.trans _ _ _ hwaited (hend _)
  rw [← hsent]
  exact hsteps.sent_grows

/-- A handshake begins with a request. -/
theorem steps_handshake {fresh : Prop} (huri : s.workspace.rootUri = .ok uri) :
    Steps srv fresh
      (request srv "initialize" (initializeParams s.processId s.workspace uri) s).2
      (handshake srv s).2 := by
  have hparts := Steps.throughoutParts srv fresh
  rw [handshake_eq, huri]
  dsimp only
  rcases request srv "initialize" (initializeParams s.processId s.workspace uri) s
    with ⟨e | result, t⟩
  · exact .refl
  · have hnotified : Steps srv fresh (keepCapabilities result t)
        (notify srv "initialized" (.obj []) (keepCapabilities result t)).2 :=
      hparts.notify _ _ _
    exact Steps.trans _ _ _ (hparts.keepCapabilities result t) hnotified

/-- A session in which nothing has failed starts the program and greets it. -/
theorem start_greets (hnone : s.process? = none) (hopen : s.failure? = none)
    (havailable : srv.available = true) (huri : s.workspace.rootUri = .ok uri) :
    s.sent ++ [greeting uri s] <+: (start srv s).2.sent := by
  have hgreeted : s.sent ++ [greeting uri s] <+: (request srv "initialize"
      (initializeParams s.processId s.workspace uri) (s.launched srv)).2.sent :=
    request_grows (s := s.launched srv) "initialize" _ hopen rfl rfl
  have hsteps : Steps srv True (request srv "initialize"
      (initializeParams s.processId s.workspace uri) (s.launched srv)).2 (start srv s).2 := by
    rw [start_of_available hnone havailable]
    exact steps_handshake (s := s.launched srv) huri
  exact hgreeted.trans hsteps.sent_grows

/-! ## Starting after stopping -/

/-- What stopping leaves of a session is a new session with notes of its past. -/
theorem stop_renews (srv : Server σ) (moves : List (Move σ)) (command : List String)
    (workspace : Workspace) (processId : Nat) (timeout : Float) :
    let s₀ := new command workspace processId timeout
    let s := (stop srv (after srv moves s₀)).2
    s = { s₀ with
      timeout := s.timeout
      capabilities := s.capabilities
      failure? := s.failure?
      lastId := s.lastId
      sent := s.sent
      spawned := s.spawned
      killed := s.killed
      hangs := s.hangs } := by
  intro s₀ s
  have hsteps : Steps srv True s₀ s := Steps.trans _ _ _ (steps_after srv moves s₀)
    ((Steps.throughoutParts srv True).stop _)
  have hidentity := hsteps.sameIdentity
  have htidy : Tidy s :=
    (throughout_tidies srv).parts.stop _ (tidy_after srv moves (tidy_new _ _ _ _))
  have hnone : s.process? = none := process?_stop srv _
  have hmemo : s.memo? = none := hsteps.forgetsAlone (fun _ => rfl) hnone
  have hcommand : s.command = command := hidentity.command
  have hworkspace : s.workspace = workspace := hidentity.workspace
  have hprocessId : s.processId = processId := hidentity.processId
  have hpending := htidy.pending
  have hpublished := htidy.published
  clear_value s
  cases s
  subst hcommand hworkspace hprocessId hnone hpending hpublished hmemo
  rfl

/-- In every run of a session stopping it leaves a new session, except for the notes of its past,
what the server said it can do, and the error of reading. If the program was never started, the
notes are all, and starting goes as it does for a new session: the program is started and greeted,
if it can be started and the workspace has an address. But if the program was started in the run,
the error of reading is there, and starting raises it. The program is started once more and left
running, and nothing is written to it. -/
theorem restart_raises_failure (srv : Server σ) (moves : List (Move σ)) (command : List String)
    (workspace : Workspace) (processId : Nat) (timeout : Float) :
    let s₀ := new command workspace processId timeout
    let s := (stop srv (after srv moves s₀)).2
    s = { s₀ with
      timeout := s.timeout
      capabilities := s.capabilities
      failure? := s.failure?
      lastId := s.lastId
      sent := s.sent
      spawned := s.spawned
      killed := s.killed
      hangs := s.hangs } ∧
    (Unstarted srv moves s₀ →
      s = { s₀ with timeout := s.timeout, lastId := s.lastId, spawned := s.spawned }) ∧
    (srv.available = false →
      start srv s = (.error (.server (startError srv (command.headD ""))), s.noted)) ∧
    (∀ e, srv.available = true → workspace.rootUri = .error e →
      start srv s = (.error (.relativeRoot e), s.launched srv)) ∧
    ∀ uri, srv.available = true → workspace.rootUri = .ok uri →
      (Unstarted srv moves s₀ → [greeting uri s] <+: (start srv s).2.sent) ∧
      (¬ Unstarted srv moves s₀ → ∃ e, s.failure? = some e ∧
        start srv s = (.error (.server e), { s.launched srv with lastId := s.lastId + 1 })) := by
  intro s₀ s
  have hrenewed := stop_renews srv moves command workspace processId timeout
  have hnone : s.process? = none := process?_stop srv _
  have hcommand : s.command = command := congrArg Session.command hrenewed
  have hworkspace : s.workspace = workspace := congrArg Session.workspace hrenewed
  have hunstarted (h : Unstarted srv moves s₀) :
      s = { s₀ with timeout := s.timeout, lastId := s.lastId, spawned := s.spawned } := by
    have hidle : Idle s₀ := ⟨rfl, rfl, rfl, rfl, rfl⟩
    obtain ⟨timeout', lastId, spawned, hafter⟩ := hidle.after h
    have hstopped : s = { s₀ with timeout := timeout', lastId, spawned } := by
      show (stop srv (after srv moves s₀)).2 = _
      rw [hafter]
      exact congrArg Prod.snd (stop_of_no_process rfl)
    rw [hstopped]
  refine ⟨hrenewed, hunstarted, ?_, ?_, fun uri havailable huri => ⟨?_, ?_⟩⟩
  · intro havailable
    rw [← hcommand]
    exact start_of_unavailable hnone havailable
  · intro e havailable hroot
    exact start_of_no_root hnone havailable (hworkspace ▸ hroot)
  · intro h
    have hsent : s.sent = [] := congrArg Session.sent (hunstarted h)
    have hopen : s.failure? = none := congrArg Session.failure? (hunstarted h)
    have hgreeted := start_greets hnone hopen havailable (hworkspace ▸ huri)
    rwa [hsent, List.nil_append] at hgreeted
  · intro h
    obtain ⟨e, hended⟩ : ∃ e, EndedWith e s := (begun_after h).stop
    have htidy : Tidy s :=
      (throughout_tidies srv).parts.stop _ (tidy_after srv moves (tidy_new _ _ _ _))
    exact ⟨e, hended.failure,
      start_of_failure hnone hended.failure htidy havailable (hworkspace ▸ huri)⟩

/-! ### A server that grants everything -/

namespace Sample

/-- A server that answers every message with a response for its id. -/
def obliging : Server Unit where
  available := true
  initial := ()
  react _ m := ((), [.emit (Wire.encode (.obj [("id", Server.valueAt m "id"), ("result", .null)]))])
  outlivesInput := false
  burst _ := 4

end Sample

open Sample in
/-- A session that is started for the first time succeeds with such a server. One that has been
stopped starts the program and raises that it has exited, and nothing is written. -/
theorem restart_obliging :
    (match (start obliging idle).1 with
      | .ok _ => true
      | .error _ => false) = true ∧
    (match (start obliging (after obliging [.start, .stop] idle)).1 with
      | .error (.server .exited) => true
      | _ => false) = true ∧
    (start obliging (after obliging [.start, .stop] idle)).2.isRunning = true ∧
    (start obliging (after obliging [.start, .stop] idle)).2.sent.length =
      (after obliging [.start, .stop] idle).sent.length := by
  decide +kernel

end SfcCheck.Session
