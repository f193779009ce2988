import SfcCheck.Proofs.Session.Waiting

/-!
# Runs of a session

A run is any sequence of calls, of things that the server does unasked, and of readings between the
calls. Calls are made of few parts; a relation that holds across these holds across calls and runs.
-/

namespace SfcCheck.Session

open Attempt

variable {σ : Type} {srv : Server σ} {s s' : Session σ}

/-! ## Moves -/

/-- What happens to a session: a call of its user, or something that its server does unasked. -/
inductive Move (σ : Type) where
  /-- The program is started, and no more. -/
  | spawn
  | start
  | enter
  | stop
  | request (method : String) (params : Json)
  | notify (method : String) (params : Json)
  | diagnostics (d : Document)
  | setTimeout (seconds : Float)
  /-- The server goes on by itself. -/
  | serve (state : σ) (reactions : List Reaction)
  /-- Some of what the server wrote is read. -/
  | read (n : Nat)

/-- What becomes of a session by a move. -/
def Move.perform (srv : Server σ) (s : Session σ) : Move σ → Session σ
  | spawn => (Session.spawn srv s).2
  | start => (Session.start srv s).2
  | enter => (Session.enter srv s).2
  | stop => (Session.stop srv s).2
  | request method params => (Session.request srv method params s).2
  | notify method params => (Session.notify srv method params s).2
  | diagnostics d => (Session.diagnostics srv d s).2
  | setTimeout seconds => { s with timeout := seconds }
  | serve state reactions =>
    { s with
      process? := s.process?.map fun p =>
        ({ p with server := state } : Process σ).applyAll reactions }
  | read n => receive srv n s

/-- What becomes of a session by a run. -/
def after (srv : Server σ) (moves : List (Move σ)) (s : Session σ) : Session σ :=
  moves.foldl (Move.perform srv) s

/-! ## Exchanges -/

/-- A request begins a wait, sends its message, reads, and ends the wait. -/
theorem request_snd (srv : Server σ) (method : String) (params : Json) (s : Session σ) :
    ∃ p? ms t, (ms = [] ∨ ms = [requestMessage s.nextId method params]) ∧
      Reads { s with
        process? := p?
        pending := s.pending.register s.nextId
        lastId := s.lastId + 1
        sent := s.sent ++ ms } t ∧
      (request srv method params s).2 =
        { t with pending := t.pending.forget s.nextId } :=
  (responseWatch srv).exchange_snd _ _ _ { s with lastId := s.lastId + 1 }

/-- Asking for diagnostics begins a wait, sends its message, reads, and ends the wait. -/
theorem openAndAwait_snd (srv : Server σ) (d : Document) (s : Session σ) :
    ∃ p? ms t, (ms = [] ∨ ms = [notification "textDocument/didOpen" (openParams d)]) ∧
      Reads { s with
        process? := p?
        published := s.published.register d.uri
        sent := s.sent ++ ms } t ∧
      (openAndAwait srv d s).2 = { t with published := t.published.forget d.uri } :=
  (publicationWatch srv).exchange_snd _ _ _ s

/-! ## What calls are made of -/

theorem keeps_ofServer {α : Type} {R : Session σ → Session σ → Prop} {act : Talk σ ServerError α}
    (h : Keeps R act) : Keeps R (ofServer act) := h

theorem ofServer_eq {α : Type} {act : Talk σ ServerError α} {r : Except ServerError α}
    (h : act s = (r, s')) : ofServer act s = (r.mapError .server, s') := by
  rw [ofServer, h]

theorem enter_of_start_ok (h : start srv s = (.ok (), s')) : enter srv s = (.ok (), s') :=
  tryCatch_ok h

/-- If starting fails, entering stops the session, and an error of that is what it raises. -/
theorem enter_of_start_error {e : Failure} (h : start srv s = (.error e, s')) :
    enter srv s =
      (match (stop srv s').1 with
        | .error e' => .error (.server e')
        | .ok _ => .error e,
      (stop srv s').2) := by
  rw [enter, tryCatch_error h]
  rcases hstop : stop srv s' with ⟨e' | _, t⟩
  · rw [bind_error (ofServer_eq hstop)]
  · rw [bind_ok (ofServer_eq hstop)]
    rfl

/-- A relation that holds across the parts of calls, except that a process is started, that one is
reaped, and that something is remembered of the latest document. -/
structure AcrossParts (srv : Server σ) (R : Session σ → Session σ → Prop) : Prop where
  refl : ∀ s, R s s
  trans : ∀ s s' s'', R s s' → R s' s'' → R s s''
  keepCapabilities : ∀ result s, R s (keepCapabilities result s)
  notify : ∀ method params, Keeps R (notify srv method params)
  request : ∀ method params, Keeps R (request srv method params)
  openAndAwait : ∀ d, Keeps R (openAndAwait srv d)

namespace AcrossParts

variable {R : Session σ → Session σ → Prop}

theorem handshake (h : AcrossParts srv R) : Keeps R (handshake srv) :=
  Keeps.bind h.trans h.refl fun _ => Keeps.bind h.trans h.refl fun _ =>
    Keeps.bind h.trans (keeps_ofServer (h.request _ _)) fun result =>
    Keeps.bind h.trans (h.keepCapabilities result) fun _ =>
    keeps_ofServer (h.notify _ _)

/-- Whether the program is started is all of starting that depends on the session. -/
theorem start (h : AcrossParts srv R) (hspawn : R s (spawn srv s).2) :
    R s (Session.start srv s).2 := by
  rcases hact : ofServer (spawn srv) s with ⟨r, t⟩
  have ht : (spawn srv s).2 = t := congrArg Prod.snd hact
  rw [ht] at hspawn
  cases r with
  | error e =>
      rw [Session.start, bind_error hact]
      exact hspawn
  | ok _ =>
      rw [Session.start, bind_ok hact]
      exact h.trans _ _ _ hspawn (h.handshake t)

theorem shutDown (h : AcrossParts srv R) : Keeps R (shutDown srv) :=
  Keeps.bind h.trans (Keeps.bind h.trans (h.request _ _) fun _ => h.refl) fun _ =>
    Keeps.tryCatch h.trans (h.notify _ _) fun _ => h.refl

/-- The diagnostics of a document are remembered only while there is a process. -/
theorem diagnostics (h : AcrossParts srv R)
    (hmemo : ∀ memo? s, s.process?.isSome = true → R s { s with memo? := memo? }) (d : Document) :
    Keeps R (diagnostics srv d) := by
  refine Keeps.bind h.trans h.refl fun s => ?_
  split
  · exact h.refl
  · refine Keeps.bind h.trans (keeps_ofServer (h.openAndAwait d)) fun items t => ?_
    have hclosed := h.notify "textDocument/didClose" (closeParams d) t
    rcases hnotify : Session.notify srv "textDocument/didClose" (closeParams d) t with ⟨e | _, u⟩
    · rw [hnotify] at hclosed
      rw [bind_error (ofServer_eq hnotify)]
      exact hclosed
    · rw [hnotify] at hclosed
      rw [bind_ok (ofServer_eq hnotify)]
      refine h.trans _ _ _ hclosed ?_
      cases items.mapM Diagnostic.ofJson with
      | error e => exact h.refl u
      | ok xs => exact hmemo _ u (process?_of_submit_ok hnotify)

end AcrossParts

/-- A relation that holds across the parts of calls, except that a process is started. -/
structure ThroughoutParts (srv : Server σ) (R : Session σ → Session σ → Prop) : Prop
    extends AcrossParts srv R where
  /-- Something is remembered only while there is a process. -/
  memo : ∀ memo? s, s.process?.isSome = true → R s { s with memo? := memo? }
  reap : ∀ s, R s (reap srv s)

namespace ThroughoutParts

variable {R : Session σ → Session σ → Prop}

theorem stop (h : ThroughoutParts srv R) : Keeps R (stop srv) := by
  intro s
  have hasked : R s (if s.isRunning && s.failure?.isNone then Session.shutDown srv s
      else (.ok (), s)).2 := by
    split
    · exact h.shutDown s
    · exact h.refl s
  rw [Session.stop]
  split
  · exact h.refl s
  · exact h.trans _ _ _ hasked (h.reap _)

theorem enter (h : ThroughoutParts srv R) (hspawn : R s (spawn srv s).2) :
    R s (enter srv s).2 := by
  have hstart := h.start hspawn
  rcases hact : Session.start srv s with ⟨e | _, t⟩
  · rw [hact] at hstart
    rw [enter_of_start_error hact]
    exact h.trans _ _ _ hstart (h.stop t)
  · rw [hact] at hstart
    rw [enter_of_start_ok hact]
    exact hstart

theorem diagnostics (h : ThroughoutParts srv R) (d : Document) : Keeps R (diagnostics srv d) :=
  h.toAcrossParts.diagnostics h.memo d

end ThroughoutParts

/-- A relation that holds across all that calls are made of, except what is remembered of the
latest document. -/
structure Across (srv : Server σ) (R : Session σ → Session σ → Prop) : Prop where
  trans : ∀ s s' s'', R s s' → R s' s'' → R s s''
  /-- What starting and reaping change makes no difference, nor does it whether a call hangs. -/
  aside : ∀ s timeout capabilities process? spawned killed hangs,
    R s { s with timeout, capabilities, process?, spawned, killed, hangs }
  reads : ∀ s s', Reads s s' → R s s'
  notify : ∀ method params, Keeps R (notify srv method params)
  request : ∀ method params, Keeps R (request srv method params)
  openAndAwait : ∀ d, Keeps R (openAndAwait srv d)

namespace Across

variable {R : Session σ → Session σ → Prop}

theorem refl (h : Across srv R) (s : Session σ) : R s s := h.aside _ _ _ _ _ _ _

theorem spawn (h : Across srv R) : Keeps R (spawn srv) := by
  intro s
  rw [Session.spawn]
  split
  · exact h.refl s
  · split
    · exact h.aside _ _ _ _ _ _ _
    · exact h.aside _ _ _ _ _ _ _

theorem keepCapabilities (h : Across srv R) (result : Json) (s : Session σ) :
    R s (keepCapabilities result s) := by
  unfold Session.keepCapabilities
  split
  · exact h.aside _ _ _ _ _ _ _
  · exact h.refl s

theorem parts (h : Across srv R) : AcrossParts srv R where
  refl := h.refl
  trans := h.trans
  keepCapabilities := h.keepCapabilities
  notify := h.notify
  request := h.request
  openAndAwait := h.openAndAwait

theorem start (h : Across srv R) : Keeps R (start srv) := fun s => h.parts.start (h.spawn s)

end Across

/-- A relation that holds across all that calls are made of. -/
structure Throughout (srv : Server σ) (R : Session σ → Session σ → Prop) : Prop
    extends Across srv R where
  memo : ∀ memo? s, R s { s with memo? := memo? }

namespace Throughout

variable {R : Session σ → Session σ → Prop}

theorem dismiss (h : Throughout srv R) (s : Session σ) : R s s.dismiss := by
  have hforgotten (t : Session σ) : R t { t with process? := none, memo? := none } :=
    h.trans _ { t with process? := none } _ (h.aside _ _ _ _ _ _ _) (h.memo none _)
  unfold Session.dismiss
  dsimp only
  split
  · exact h.trans _ _ _ (h.reads _ _ (.fail .exited _)) (hforgotten _)
  · exact hforgotten _

theorem reap (h : Throughout srv R) (s : Session σ) : R s (reap srv s) := by
  have hclosed : R s (closeInput srv s) :=
    h.trans _ _ _ (h.aside _ _ _ _ _ _ _) (h.reads _ _ (.receive _ _))
  have hkilled : R (closeInput srv s) ((closeInput srv s).kill srv) := h.aside _ _ _ _ _ _ _
  exact h.trans _ _ _ hclosed (h.trans _ _ _ hkilled (h.dismiss _))

theorem parts (h : Throughout srv R) : ThroughoutParts srv R where
  toAcrossParts := h.toAcross.parts
  memo memo? s _ := h.memo memo? s
  reap := h.reap

theorem diagnostics (h : Throughout srv R) (d : Document) : Keeps R (diagnostics srv d) :=
  h.parts.diagnostics d

theorem perform (h : Throughout srv R) (m : Move σ) (s : Session σ) : R s (m.perform srv s) := by
  cases m with
  | spawn => exact h.spawn s
  | start => exact h.start s
  | enter => exact h.parts.enter (h.spawn s)
  | stop => exact h.parts.stop s
  | request method params => exact h.request method params s
  | notify method params => exact h.notify method params s
  | diagnostics d => exact h.diagnostics d s
  | setTimeout seconds => exact h.aside _ _ _ _ _ _ _
  | serve state reactions => exact h.aside _ _ _ _ _ _ _
  | read n => exact h.reads _ _ (.receive n s)

theorem after (h : Throughout srv R) (moves : List (Move σ)) (s : Session σ) :
    R s (after srv moves s) := by
  induction moves generalizing s with
  | nil => exact h.refl s
  | cons m moves ih => exact h.trans _ _ _ (h.perform m s) (ih _)

end Throughout

end SfcCheck.Session
