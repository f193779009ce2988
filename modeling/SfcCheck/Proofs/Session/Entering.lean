import SfcCheck.Proofs.Session.Stopping

/-!
# Entering

Entering a session starts it for a limited use. When that fails, the session is stopped before the
error is raised, and there is no process afterwards. The error is that of starting, unless the
server is still asked to shut down and does not grant that. Then what comes of the request to shut
down is raised in its place, and why starting failed is lost.
-/

namespace SfcCheck.Session

open Attempt

variable {σ : Type} {srv : Server σ} {s t : Session σ} {e : ServerError}

/-! ## Starting -/

/-- A session that has noted an attempt to start its program. -/
def noted (s : Session σ) : Session σ :=
  { s with spawned := s.spawned ++ [(s.command, s.workspace.root.text)] }

/-- A session whose program has been started. -/
def launched (srv : Server σ) (s : Session σ) : Session σ :=
  { s.noted with process? := some (.new srv) }

theorem spawn_of_available (hnone : s.process? = none) (havailable : srv.available = true) :
    spawn srv s = (.ok (), s.launched srv) := by
  rw [spawn, if_neg (by rw [hnone]; exact Bool.false_ne_true), if_pos havailable]
  rfl

theorem spawn_of_unavailable (hnone : s.process? = none) (havailable : srv.available = false) :
    spawn srv s = (.error (startError srv (s.command.headD "")), s.noted) := by
  rw [spawn, if_neg (by rw [hnone]; exact Bool.false_ne_true),
    if_neg (by rw [havailable]; exact Bool.false_ne_true)]
  rfl

theorem start_of_unavailable (hnone : s.process? = none) (havailable : srv.available = false) :
    start srv s = (.error (.server (startError srv (s.command.headD ""))), s.noted) := by
  rw [start, bind_error (ofServer_eq (spawn_of_unavailable hnone havailable))]

theorem start_of_available (hnone : s.process? = none) (havailable : srv.available = true) :
    start srv s = handshake srv (s.launched srv) := by
  rw [start, bind_ok (ofServer_eq (spawn_of_available hnone havailable))]

/-- How a handshake goes on. -/
theorem handshake_eq (srv : Server σ) (s : Session σ) :
    handshake srv s =
      match s.workspace.rootUri with
      | .error e => (.error (.relativeRoot e), s)
      | .ok uri =>
        match request srv "initialize" (initializeParams s.processId s.workspace uri) s with
        | (.error e, t) => (.error (.server e), t)
        | (.ok result, t) =>
          ofServer (notify srv "initialized" (.obj [])) (keepCapabilities result t) := by
  have hget : (get : Talk σ Failure (Session σ)) s = (.ok s, s) := rfl
  have hroot : rootUri s = (s.workspace.rootUri.mapError .relativeRoot, s) := rfl
  rw [handshake]
  cases huri : s.workspace.rootUri with
  | error e =>
      rw [huri] at hroot
      exact bind_error hroot
  | ok uri =>
      rw [huri] at hroot
      rw [bind_ok hroot, bind_ok hget]
      dsimp only
      rcases hrequest : request srv "initialize" (initializeParams s.processId s.workspace uri) s
        with ⟨e | result, t⟩
      · rw [bind_error (ofServer_eq hrequest)]
      · rw [bind_ok (ofServer_eq hrequest)]
        exact bind_ok rfl

/-! ## Objections -/

/-- The error that a request to shut down comes to, if the server is asked and does not grant it. -/
def objection? (srv : Server σ) (s : Session σ) : Option ServerError :=
  if s.isRunning && s.failure?.isNone then
    match (request srv "shutdown" .null s).1 with
    | .error e => some e
    | .ok _ => none
  else none

theorem objection?_eq_some_iff :
    objection? srv s = some e ↔
      (s.isRunning = true ∧ s.failure? = none) ∧
        (request srv "shutdown" .null s).1 = .error e := by
  rw [objection?, ← Option.isNone_iff_eq_none, ← Bool.and_eq_true]
  split
  · next hasks =>
      rcases (request srv "shutdown" .null s).1 with e' | v
      · simp [hasks]
      · simp
  · next hidle => simp [hidle]

/-- What is raised once the request to shut down has reached the server in time: the error of a
response, that of the end of reading, or that nothing has come. -/
theorem objection?_of_sent (hrun : s.isRunning = true) (hopen : s.failure? = none)
    (hsend : send srv (requestMessage s.nextId "shutdown" .null) s.opened = (.ok (), t))
    (htime : ¬ s.timeout ≤ 0.0) :
    objection? srv s =
      match (heard srv t).find? (answers s.nextId) with
      | some fields =>
        match responseVerdict fields with
        | .error e => some e
        | .ok _ => none
      | none =>
        some ((receiveAll srv t).failure?.getD (.timedOut s.timeout (.response "shutdown"))) := by
  have hasks : (s.isRunning && s.failure?.isNone) = true := by rw [hrun, hopen]; rfl
  rw [objection?, if_pos hasks, request_fst, hsend]
  dsimp only
  rw [if_neg htime]
  cases (heard srv t).find? (answers s.nextId) with
  | some fields => rfl
  | none => cases (receiveAll srv t).failure? <;> rfl

/-- Stopping raises what the server objects, and nothing else. -/
theorem asked_fst (srv : Server σ) (s : Session σ) :
    (asked srv s).1 =
      match objection? srv s with
      | some e => .error e
      | none => .ok () := by
  rw [asked, objection?]
  split
  · rw [shutDown_eq]
    rcases request srv "shutdown" .null s with ⟨_ | _, t⟩ <;> rfl
  · rfl

theorem stop_fst (srv : Server σ) (s : Session σ) :
    (stop srv s).1 =
      match objection? srv s with
      | some e => .error e
      | none => .ok () := by
  cases hprocess : s.process? with
  | none =>
      have hidle : objection? srv s = none := by
        rw [objection?, isRunning_of_no_process hprocess]
        rfl
      rw [stop_of_no_process hprocess, hidle]
  | some p => rw [stop_eq (by rw [hprocess]; rfl), asked_fst]

/-! ## Entering -/

/-- Entering fails after it has stopped the session, with an objection of the server or else with
the error of starting. -/
theorem enter_of_objection? {e : Failure} (h : start srv s = (.error e, t)) :
    enter srv s = (.error ((objection? srv t).elim e .server), (stop srv t).2) := by
  rw [enter_of_start_error h, stop_fst]
  cases objection? srv t <;> rfl

/-- In every run of a session entering it succeeds just as starting it does. If starting fails, the
session is stopped: its process has finished and is forgotten. The error is the one of starting,
unless the server is asked to shut down and objects. It is asked if it still runs and reading has
not ended. It objects if the request cannot be sent, if the server rejects it, if reading ends
before there is a response, or if none has come in time. -/
theorem enter_raises (srv : Server σ) (moves : List (Move σ)) (command : List String)
    (workspace : Workspace) (processId : Nat) (timeout : Float) :
    let s := after srv moves (new command workspace processId timeout)
    let s' := (enter srv s).2
    (∀ t, start srv s = (.ok (), t) → enter srv s = (.ok (), t)) ∧
    (∀ e t, start srv s = (.error e, t) →
      (s' = (stop srv t).2 ∧ s'.isRunning = false ∧ s'.process? = none ∧
        (t.process?.isSome = true → ∃ u p, s' = dismiss u ∧ u.process? = some p ∧
          p.isAlive = false)) ∧
        (objection? srv t = none → (enter srv s).1 = .error e) ∧
        ∀ e', objection? srv t = some e' → (enter srv s).1 = .error (.server e')) ∧
    (∀ (t : Session σ) e, objection? srv t = some e ↔
      (t.isRunning = true ∧ t.failure? = none) ∧
        (request srv "shutdown" .null t).1 = .error e) ∧
    (∀ t u : Session σ, t.isRunning = true → t.failure? = none →
      send srv (requestMessage t.nextId "shutdown" .null) t.opened = (.ok (), u) →
      ¬ t.timeout ≤ 0.0 →
      objection? srv t =
        match (heard srv u).find? (answers t.nextId) with
        | some fields =>
          match responseVerdict fields with
          | .error e => some e
          | .ok _ => none
        | none =>
          some ((receiveAll srv u).failure?.getD
            (.timedOut t.timeout (.response "shutdown")))) := by
  intro s s'
  refine ⟨fun t => enter_of_start_ok, ?_, fun t e => objection?_eq_some_iff,
    fun t u => objection?_of_sent⟩
  intro e t hstart
  have henter := enter_of_objection? hstart
  have hstopped : s' = (stop srv t).2 := congrArg Prod.snd henter
  have hgone : s'.process? = none := by rw [hstopped, process?_stop]
  have hraised : (enter srv s).1 = .error ((objection? srv t).elim e .server) :=
    congrArg Prod.fst henter
  have hfinished (hsome : t.process?.isSome = true) :
      ∃ u p, s' = dismiss u ∧ u.process? = some p ∧ p.isAlive = false := by
    obtain ⟨hdismissed, -, p, hp⟩ := stop_dismisses srv hsome
    exact ⟨_, p, hstopped.trans hdismissed, hp⟩
  refine ⟨⟨hstopped, isRunning_of_no_process hgone, hgone, hfinished⟩, ?_, ?_⟩
  · intro hgranted
    rw [hraised, hgranted]
    rfl
  · intro e' hobjection
    rw [hraised, hobjection]
    rfl

/-! ### A server that objects to everything -/

namespace Sample

/-- The response that rejects a request. -/
def rejection (id : Int) (message : String) : Table Json :=
  [("id", .int id), ("error", .obj [("code", .int (-32603)), ("message", .str message)])]

/-- A server that rejects the handshake as well as the request to shut down. -/
def objector : Server Unit :=
  echo [rejection 1 "Cannot find tsconfig.json", rejection 2 "Not initialized"]

/-- A session that has not been started. -/
def idle : Session Unit := new ["vls"] workspace 1 120.0

end Sample

open Sample in
/-- If the server rejects the handshake and then also the request to shut down, the second rejection
is raised and not the first. -/
theorem enter_objector :
    (match (start objector idle).1 with
      | .error (.server (.rejected message _)) => message == "Cannot find tsconfig.json"
      | _ => false) = true ∧
    (match (enter objector idle).1 with
      | .error (.server (.rejected message _)) => message == "Not initialized"
      | _ => false) = true := by
  decide +kernel

end SfcCheck.Session
