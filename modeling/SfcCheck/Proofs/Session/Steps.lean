import Mathlib.Logic.Relation
import SfcCheck.Proofs.Session.Moves

/-!
# The steps of a session

A call is a sequence of small steps: a wait begins or ends, a message is sent, a message is read,
the process is started, goes on, or is dismissed. What every step keeps holds at each point within
a call and of every run, and how reading ends can be told from a single step.
-/

namespace SfcCheck.Session

open Attempt

variable {σ : Type} {srv : Server σ} {fresh : Prop} {s s' t : Session σ}

/-! ## Turns of the reader -/

/-- Nobody reads what a process writes. -/
def IsDeaf (s : Session σ) : Prop := ∀ p, s.process? = some p → p.listening = false

theorem isDeaf_fail (e : ServerError) (s : Session σ) : IsDeaf (s.fail e) := by
  intro p hp
  obtain ⟨q, -, rfl⟩ := Option.map_eq_some_iff.mp hp
  rfl

theorem IsDeaf.receive (h : IsDeaf s) (n : Nat) : receive srv n s = s := by
  cases n with
  | zero => rfl
  | succ n =>
      have hnothing : s.incoming = .nothing := by
        rw [incoming]
        split
        · rfl
        · next p hp => rw [if_pos (by rw [h p hp]; rfl)]
      rw [Session.receive, hnothing]

/-- A session reads one message after the other. -/
theorem receive_succ (srv : Server σ) (n : Nat) (s : Session σ) :
    receive srv (n + 1) s = receive srv n (receive srv 1 s) := by
  rw [receive, receive]
  cases hincoming : s.incoming with
  | nothing =>
      cases n with
      | zero => rfl
      | succ n => rw [receive, hincoming]
  | ended e => exact ((isDeaf_fail e s).receive n).symm
  | message fields t =>
      dsimp only
      rcases dispatch srv fields t with ⟨e | _, t'⟩
      · exact ((isDeaf_fail _ t').receive n).symm
      · rfl

/-! ## Steps -/

/-- A step of a session. A process is started only if `fresh` holds. -/
inductive Step (srv : Server σ) (fresh : Prop) (s : Session σ) : Session σ → Prop where
  /-- Something is noted that has nothing to do with the process and the waits. -/
  | note (timeout : Float) (capabilities : Json) (lastId : Nat)
      (spawned : List (List String × String)) (hangs : Bool) :
      Step srv fresh s { s with timeout, capabilities, lastId, spawned, hangs }
  /-- The diagnostics of a document are remembered while there is a process. -/
  | remember (memo? : Option ((String × Int) × List Diagnostic))
      (hprocess : s.process?.isSome = true) : Step srv fresh s { s with memo? }
  | wait {κ α : Type} (l : WaitList σ κ α) (f : Waits κ α → Waits κ α) :
      Step srv fresh s (l.update f s)
  | send (m : Json) : Step srv fresh s (send srv m s).2
  /-- What the process wrote is read, up to the end of a message. -/
  | turn : Step srv fresh s (receive srv 1 s)
  | spawn (hfresh : fresh) (hnone : s.process? = none) :
      Step srv fresh s { s with process? := some (.new srv) }
  /-- The process goes on by itself. -/
  | serve (state : σ) (reactions : List Reaction) :
      Step srv fresh s { s with
        process? := s.process?.map fun p =>
          ({ p with server := state } : Process σ).applyAll reactions }
  | closeInput : Step srv fresh s { s with process? := s.process?.map (·.closeInput srv) }
  | kill : Step srv fresh s (s.kill srv)
  | dismiss : Step srv fresh s s.dismiss

/-- Any number of steps. -/
abbrev Steps (srv : Server σ) (fresh : Prop) : Session σ → Session σ → Prop :=
  Relation.ReflTransGen (Step srv fresh)

/-- A wait reads what arrives in time, and it may hang. -/
theorem await_snd {κ α : Type} [DecidableEq κ] (srv : Server σ) (l : WaitList σ κ α) (key : κ)
    (awaited : Awaited) (s : Session σ) :
    ∃ b, (await srv l key awaited s).2 = (receiveAll srv (if s.timeout ≤ 0.0 then
      l.update (·.settle key (.error (.timedOut s.timeout awaited))) s else s)).hangIf b := by
  unfold await
  dsimp only
  split
  · exact ⟨false, (hangIf_false _).symm⟩
  · exact ⟨_, rfl⟩

namespace Steps

theorem trans (s s' s'' : Session σ) (h : Steps srv fresh s s') (h' : Steps srv fresh s' s'') :
    Steps srv fresh s s'' := Relation.ReflTransGen.trans h h'

/-! ### The parts of calls -/

theorem receive (n : Nat) (s : Session σ) : Steps srv fresh s (receive srv n s) := by
  induction n generalizing s with
  | zero => exact .refl
  | succ n ih =>
      rw [receive_succ]
      exact .head .turn (ih _)

theorem hangIf (b : Bool) (s : Session σ) : Steps srv fresh s (s.hangIf b) :=
  .single (.note s.timeout s.capabilities s.lastId s.spawned _)

theorem submit (m : Json) : Keeps (Steps srv fresh) (submit srv m) :=
  Keeps.bind trans (fun _ => .single (.send m)) fun _ t => hangIf _ t

theorem await {κ α : Type} [DecidableEq κ] (l : WaitList σ κ α) (key : κ) (awaited : Awaited) :
    Keeps (Steps srv fresh) (await srv l key awaited) := by
  intro s
  obtain ⟨b, hb⟩ := await_snd srv l key awaited s
  rw [hb]
  refine trans _ _ _ ?_ (trans _ _ _ (receive _ _) (hangIf b _))
  split
  · exact .single (.wait l _)
  · exact .refl

theorem exchange {κ α : Type} [DecidableEq κ] (l : WaitList σ κ α) (key : κ) (m : Json)
    (awaited : Awaited) : Keeps (Steps srv fresh) (exchange srv l key m awaited) := by
  intro s
  have htalk : Keeps (Steps srv fresh) (do
      Session.submit srv m
      Session.await srv l key awaited) :=
    Keeps.bind trans (submit m) fun _ => await l key awaited
  have hbegin : Steps srv fresh s (l.update (·.register key) s) := .single (.wait l _)
  have hend (t : Session σ) : Steps srv fresh t (l.update (·.forget key) t) := .single (.wait l _)
  exact trans _ _ _ hbegin (trans _ _ _ (htalk _) (hend _))

theorem spawn (h : s.process? = none → srv.available = true → fresh) :
    Steps srv fresh s (spawn srv s).2 := by
  rw [Session.spawn]
  split
  · exact .refl
  · next hnone =>
      have hnone : s.process? = none := by simpa using hnone
      have hnote : Steps srv fresh s
          { s with spawned := s.spawned ++ [(s.command, s.workspace.root.text)] } :=
        .single (.note s.timeout s.capabilities s.lastId _ s.hangs)
      dsimp only
      split
      · next havailable =>
          exact trans _ _ _ hnote (.single (.spawn (h hnone havailable) hnone))
      · exact hnote

theorem reap (s : Session σ) : Steps srv fresh s (reap srv s) := by
  have hclosed : Steps srv fresh s (closeInput srv s) :=
    trans _ _ _ (.single .closeInput) (receive _ _)
  exact trans _ _ _ hclosed (trans _ _ _ (.single .kill) (.single .dismiss))

/-- Every part of a call is made of steps. -/
theorem throughoutParts (srv : Server σ) (fresh : Prop) :
    ThroughoutParts srv (Steps srv fresh) where
  refl _ := .refl
  trans := trans
  keepCapabilities result s := by
    unfold Session.keepCapabilities
    split
    · exact .single (.note s.timeout _ s.lastId s.spawned s.hangs)
    · exact .refl
  notify _ _ := submit _
  request _ _ s :=
    trans _ _ _ (.single (.note s.timeout s.capabilities _ s.spawned s.hangs))
      (exchange _ _ _ _ _)
  openAndAwait _ := exchange _ _ _ _
  memo memo? _ hprocess := .single (.remember memo? hprocess)
  reap := reap

end Steps

/-! ## Runs -/

/-- Whether a move starts a process. -/
def Move.Spawns (srv : Server σ) (s : Session σ) : Move σ → Prop
  | spawn | start | enter => s.process? = none ∧ srv.available = true
  | _ => False

/-- A run in which no process is started. -/
def Unstarted (srv : Server σ) : List (Move σ) → Session σ → Prop
  | [], _ => True
  | m :: moves, s => ¬ m.Spawns srv s ∧ Unstarted srv moves (m.perform srv s)

/-- Every move is made of steps. -/
theorem steps_perform {m : Move σ} (h : m.Spawns srv s → fresh) :
    Steps srv fresh s (m.perform srv s) := by
  have hparts := Steps.throughoutParts srv fresh
  cases m with
  | spawn => exact Steps.spawn fun hnone havailable => h ⟨hnone, havailable⟩
  | start => exact hparts.start (Steps.spawn fun hnone havailable => h ⟨hnone, havailable⟩)
  | enter => exact hparts.enter (Steps.spawn fun hnone havailable => h ⟨hnone, havailable⟩)
  | stop => exact hparts.stop s
  | request method params => exact hparts.request method params s
  | notify method params => exact hparts.notify method params s
  | diagnostics d => exact hparts.diagnostics d s
  | setTimeout seconds =>
      exact .single (.note seconds s.capabilities s.lastId s.spawned s.hangs)
  | serve state reactions => exact .single (.serve state reactions)
  | read n => exact Steps.receive n s

theorem steps_after (srv : Server σ) (moves : List (Move σ)) (s : Session σ) :
    Steps srv True s (after srv moves s) := by
  induction moves generalizing s with
  | nil => exact .refl
  | cons m moves ih => exact Steps.trans _ _ _ (steps_perform fun _ => trivial) (ih _)

theorem Unstarted.steps {moves : List (Move σ)} (h : Unstarted srv moves s) :
    Steps srv False s (after srv moves s) := by
  induction moves generalizing s with
  | nil => exact .refl
  | cons m moves ih => exact Steps.trans _ _ _ (steps_perform h.1) (ih h.2)

end SfcCheck.Session
