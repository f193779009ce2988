import Mathlib.Data.List.Chain
import SfcCheck.Proofs.Session.Protocol

/-!
# Open documents

A call for diagnostics opens its document at the server and closes it again when the diagnostics
have been published. Nothing is ever closed that is not open. But a call that waits too long leaves
its document open, and the next call for the same document opens it once more. As long as no call
for a document waits too long, its openings and closings alternate, whatever else goes wrong: where
a closing is missing for another reason, nothing reaches the server any more.
-/

namespace SfcCheck.Session

open Attempt

variable {σ : Type} {srv : Server σ} {s t : Session σ} {es : List Event} {uri : String} {m : Json}
variable {bs bs' : List Bool}

/-! ## Marks -/

/-- What a message does to the document at an address: it opens it, or it closes it. -/
def mark? (uri : String) (m : Json) : Option Bool :=
  if Server.uriOf? m = some uri then
    if Server.methodOf m = "textDocument/didOpen" then some true
    else if Server.methodOf m = "textDocument/didClose" then some false
    else none
  else none

/-- How messages open (`true`) and close (`false`) the document at an address, in order. -/
def marks (uri : String) (ms : List Json) : List Bool := ms.filterMap (mark? uri)

theorem marks_append (uri : String) (ms ms' : List Json) :
    marks uri (ms ++ ms') = marks uri ms ++ marks uri ms' := List.filterMap_append

/-- Only openings and closings leave marks. -/
theorem mark?_of_methodOf (hopen : Server.methodOf m ≠ "textDocument/didOpen")
    (hclose : Server.methodOf m ≠ "textDocument/didClose") : mark? uri m = none := by
  rw [mark?, if_neg hopen, if_neg hclose]
  split <;> rfl

theorem mark?_requestMessage {method : String} (id : Int) (params : Json)
    (hopen : method ≠ "textDocument/didOpen") (hclose : method ≠ "textDocument/didClose") :
    mark? uri (requestMessage id method params) = none := mark?_of_methodOf hopen hclose

theorem mark?_notification {method : String} (params : Json)
    (hopen : method ≠ "textDocument/didOpen") (hclose : method ≠ "textDocument/didClose") :
    mark? uri (notification method params) = none := mark?_of_methodOf hopen hclose

theorem mark?_openMessage (d : Document) : mark? d.uri (openMessage d) = some true := by
  have huri : Server.uriOf? (openMessage d) = some d.uri := rfl
  rw [mark?, if_pos huri]
  rfl

theorem mark?_closeMessage (d : Document) : mark? d.uri (closeMessage d) = some false := by
  have huri : Server.uriOf? (closeMessage d) = some d.uri := rfl
  rw [mark?, if_pos huri]
  rfl

theorem marks_opened (d : Document) : marks d.uri [openMessage d] = [true] := by
  rw [marks, List.filterMap_cons_some (mark?_openMessage d)]
  rfl

theorem marks_closed (d : Document) :
    marks d.uri [openMessage d, closeMessage d] = [true, false] := by
  rw [marks, List.filterMap_cons_some (mark?_openMessage d),
    List.filterMap_cons_some (mark?_closeMessage d)]
  rfl

/-- Only what names a document leaves marks for it. -/
theorem mark?_of_uriOf? {d : Document} (hm : Server.uriOf? m = some d.uri) (h : d.uri ≠ uri) :
    mark? uri m = none := by
  rw [mark?, if_neg]
  rw [hm]
  exact fun heq => h (Option.some.inj heq)

theorem methodOf_of_no_method (h : hasMethod m = false) :
    Server.methodOf m = Server.responseMethod := by
  cases m with
  | obj fields =>
      have hnone : Table.get? "method" fields = none := by simpa [hasMethod] using h
      simp [Server.methodOf, Server.textAt?, hnone]
  | _ => rfl

/-- Answers leave no marks. -/
theorem marks_calls (uri : String) (ms : List Json) : marks uri (calls ms) = marks uri ms := by
  rw [marks, marks, calls, List.filterMap_filter]
  refine List.filterMap_congr fun m _ => ?_
  cases hm : hasMethod m with
  | true => rfl
  | false =>
      have hmethod := methodOf_of_no_method hm
      refine (mark?_of_methodOf ?_ ?_).symm
      · rw [hmethod]
        decide
      · rw [hmethod]
        decide

/-! ## Openings and closings -/

/-- Openings and closings alternate, beginning with an opening. -/
def Alternates (bs : List Bool) : Prop := (false :: bs).IsChain (· ≠ ·)

/-- Nothing is closed that is not open. -/
def ClosesOpen (bs : List Bool) : Prop := (false :: bs).IsChain fun b b' => b = true ∨ b' = true

/-- Whether a document is open in the end. -/
def endsOpen (bs : List Bool) : Bool := bs.getLast?.getD false

/-- A relation between neighbours goes on after the last opening or closing. -/
theorem isChain_append {R : Bool → Bool → Prop} (h : (false :: bs).IsChain R)
    (h' : (endsOpen bs :: bs').IsChain R) : (false :: (bs ++ bs')).IsChain R := by
  rw [← List.cons_append]
  refine h.append h'.tail fun b hb b' hb' => ?_
  rw [List.getLast?_cons, ← endsOpen] at hb
  obtain rfl : endsOpen bs = b := Option.some.inj hb
  exact (List.isChain_cons.mp h').1 b' hb'

/-- What is left of an opening and a closing when the messages are lost from some point on. -/
theorem prefix_cases (h : bs <+: [true, false]) : bs = [] ∨ bs = [true] ∨ bs = [true, false] := by
  obtain rfl | ⟨rest, rfl, hrest⟩ := List.prefix_cons_iff.mp h
  · exact .inl rfl
  · obtain rfl | ⟨rest', rfl, hrest'⟩ := List.prefix_cons_iff.mp hrest
    · exact .inr (.inl rfl)
    · rw [List.prefix_nil.mp hrest']
      exact .inr (.inr rfl)

theorem ClosesOpen.append (h : ClosesOpen bs) (h' : bs' <+: [true, false]) :
    ClosesOpen (bs ++ bs') := by
  apply isChain_append h
  obtain rfl | rfl | rfl := prefix_cases h'
  · exact .singleton _
  · exact List.isChain_pair.mpr (.inr rfl)
  · exact .cons_cons (.inr rfl) (List.isChain_pair.mpr (.inl rfl))

theorem Alternates.append (h : Alternates bs) (hclosed : endsOpen bs = false)
    (h' : bs' <+: [true, false]) : Alternates (bs ++ bs') := by
  apply isChain_append h
  rw [hclosed]
  obtain rfl | rfl | rfl := prefix_cases h'
  · exact .singleton _
  · exact List.isChain_pair.mpr Bool.false_ne_true
  · exact .cons_cons Bool.false_ne_true (List.isChain_pair.mpr Bool.false_ne_true.symm)

theorem endsOpen_append (bs bs' : List Bool) :
    endsOpen (bs ++ bs') = bs'.getLast?.getD (endsOpen bs) := by
  rw [endsOpen, endsOpen, List.getLast?_append]
  cases bs'.getLast? <;> rfl

/-! ## What a part of a run marks -/

/-- A mute session stays so, and nothing reaches the server. -/
theorem Transcript.mute (h : Transcript srv s es t) (hmute : Mute s) :
    Mute t ∧ t.sent = s.sent := by
  induction h with
  | nil => exact ⟨hmute, rfl⟩
  | snoc _ hstep ih =>
      obtain ⟨hmuted, hsent⟩ := ih
      obtain ⟨hmuted', hsent'⟩ := hmuted.passage hstep
      exact ⟨hmuted', hsent'.trans hsent⟩

/-- Of the marks that a part of a run makes some reach the server, and unless these are all of
them, nothing does any more. -/
theorem Transcript.marks (h : Transcript srv s es t) (hbegun : s.process? = none ∨ Begun s)
    (uri : String) :
    ∃ bs, bs <+: Session.marks uri (ownCalls es) ∧
      Session.marks uri t.sent = Session.marks uri s.sent ++ bs ∧
      (bs = Session.marks uri (ownCalls es) ∨ Mute t) := by
  obtain ⟨told, lost, hwritten, hsent, hlost⟩ := h.delivered hbegun
  have hmarks : Session.marks uri (ownCalls es) =
      Session.marks uri told ++ Session.marks uri lost := by
    rw [ownCalls, marks_calls, hwritten, marks_append]
  refine ⟨Session.marks uri told, ?_, by rw [hsent, marks_append], ?_⟩
  · rw [hmarks]
    exact List.prefix_append _ _
  · obtain rfl | hmute := hlost
    · exact .inl (by rw [hmarks]; exact (List.append_nil _).symm)
    · exact .inr hmute

/-- A call for diagnostics marks the opening of its document and perhaps the closing, and nothing
else. -/
theorem Attendance.marks {d : Document} (h : Attendance d es) (uri : String) :
    Session.marks uri (ownCalls es) <+: [true, false] ∧
      (Session.marks uri (ownCalls es) = [true] →
        d.uri = uri ∧ ownCalls es = [openMessage d]) := by
  by_cases huri : d.uri = uri
  · subst huri
    obtain hcalls | hcalls | hcalls := h.calls
    · rw [hcalls]
      constructor
      · exact List.nil_prefix
      · intro hmarks
        cases hmarks
    · rw [hcalls, marks_opened]
      exact ⟨⟨[false], rfl⟩, fun _ => ⟨rfl, rfl⟩⟩
    · rw [hcalls, marks_closed]
      exact ⟨List.prefix_rfl, fun hmarks => by cases hmarks⟩
  · have hopen : mark? uri (openMessage d) = none := mark?_of_uriOf? rfl huri
    have hclose : mark? uri (closeMessage d) = none := mark?_of_uriOf? rfl huri
    have hmarks : Session.marks uri (ownCalls es) = [] := by
      apply List.filterMap_eq_nil_iff.mpr
      intro m hm
      obtain hcalls | hcalls | hcalls := h.calls
      · rw [hcalls] at hm
        cases hm
      · rw [hcalls] at hm
        rwa [List.mem_singleton.mp hm]
      · rw [hcalls] at hm
        obtain rfl | hm := List.mem_cons.mp hm
        · exact hopen
        · rwa [List.mem_singleton.mp hm]
    rw [hmarks]
    constructor
    · exact List.nil_prefix
    · intro hmarks
      cases hmarks

/-! ## Moves -/

/-- Whether a move leaves it to calls for diagnostics to open and close documents. -/
def Move.LeavesDocuments : Move σ → Prop
  | request method _ | notify method _ =>
    method ≠ "textDocument/didOpen" ∧ method ≠ "textDocument/didClose"
  | _ => True

/-- Whether a move is a call for the diagnostics of the document at an address that waits too
long. -/
def Move.Lags (srv : Server σ) (uri : String) (s : Session σ) : Move σ → Prop
  | diagnostics d => d.uri = uri ∧ TimedOut (Session.diagnostics srv d s).1
  | _ => False

/-- A run in which no call for the diagnostics of the document at an address waits too long. -/
def InTime (srv : Server σ) (uri : String) : List (Move σ) → Session σ → Prop
  | [], _ => True
  | m :: moves, s => ¬ m.Lags srv uri s ∧ InTime srv uri moves (m.perform srv s)

theorem marks_of_sublist {ms ms' : List Json} (h : ms.Sublist ms') (hnone : marks uri ms' = []) :
    marks uri ms = [] := by
  have hsublist : (marks uri ms).Sublist (marks uri ms') := h.filterMap (mark? uri)
  rw [hnone] at hsublist
  exact List.sublist_nil.mp hsublist

/-- The handshake leaves no marks. -/
theorem marks_start (srv : Server σ) (s : Session σ) (uri : String) :
    ∃ es, Transcript srv s es (start srv s).2 ∧ marks uri (ownCalls es) = [] := by
  obtain ⟨es, hes, id, params, hsublist⟩ := transcript_start srv s
  refine ⟨es, hes, marks_of_sublist hsublist ?_⟩
  have hhello : mark? uri (requestMessage id "initialize" params) = none :=
    mark?_requestMessage id params (by decide) (by decide)
  have hready : mark? uri readyMessage = none := mark?_notification _ (by decide) (by decide)
  rw [marks, List.filterMap_cons_none hhello, List.filterMap_cons_none hready]
  rfl

/-- The farewell leaves no marks. -/
theorem marks_stop (srv : Server σ) (s : Session σ) (uri : String) :
    ∃ es, Transcript srv s es (stop srv s).2 ∧ marks uri (ownCalls es) = [] := by
  obtain ⟨es, hes, hfarewell⟩ := transcript_stop srv s
  obtain ⟨id, hstarts⟩ := hfarewell.calls
  refine ⟨es, hes, marks_of_sublist hstarts.sublist ?_⟩
  have hshutdown : mark? uri (shutdownMessage id) = none :=
    mark?_requestMessage id .null (by decide) (by decide)
  have hexit : mark? uri exitMessage = none := mark?_notification _ (by decide) (by decide)
  rw [marks, List.filterMap_cons_none hshutdown, List.filterMap_cons_none hexit]
  rfl

/-- What a move writes: a call for diagnostics attends to its document, any other move leaves all
documents alone. -/
theorem transcript_perform (srv : Server σ) (m : Move σ) (hleaves : m.LeavesDocuments)
    (s : Session σ) (uri : String) :
    ∃ es, Transcript srv s es (m.perform srv s) ∧
      Session.marks uri (ownCalls es) <+: [true, false] ∧
      (Session.marks uri (ownCalls es) = [true] →
        m.Lags srv uri s ∨ Silenced (m.perform srv s)) := by
  have hunmarked {es : List Event} (hes : Transcript srv s es (m.perform srv s))
      (hmarks : Session.marks uri (ownCalls es) = []) :
      ∃ es, Transcript srv s es (m.perform srv s) ∧
        Session.marks uri (ownCalls es) <+: [true, false] ∧
        (Session.marks uri (ownCalls es) = [true] →
          m.Lags srv uri s ∨ Silenced (m.perform srv s)) := by
    refine ⟨es, hes, ?_⟩
    rw [hmarks]
    constructor
    · exact List.nil_prefix
    · intro hmarked
      cases hmarked
  cases m with
  | diagnostics d =>
      obtain ⟨es, hes, hattended, hopened⟩ := transcript_diagnostics srv d s
      obtain ⟨hstarts, hmarks⟩ := hattended.marks uri
      refine ⟨es, hes, hstarts, fun h => ?_⟩
      obtain ⟨huri, hcalls⟩ := hmarks h
      obtain htimeout | hsilenced := hopened hcalls
      · exact .inl ⟨huri, htimeout⟩
      · exact .inr hsilenced
  | spawn => exact hunmarked (transcript_spawn srv s) rfl
  | setTimeout seconds =>
      exact hunmarked (.aside (.note seconds s.capabilities s.lastId s.spawned s.hangs)) rfl
  | serve state reactions => exact hunmarked (.aside (.serve state reactions)) rfl
  | read n =>
      obtain ⟨es, hes, -, hquiet⟩ := transcript_receive srv n s
      exact hunmarked hes (by rw [hquiet]; rfl)
  | request method params =>
      obtain ⟨es, hes, hquiet, -⟩ := transcript_request srv method params s
      have hnone : mark? uri (requestMessage s.nextId method params) = none :=
        mark?_requestMessage _ params hleaves.1 hleaves.2
      refine hunmarked hes ?_
      rw [ownCalls_append, hquiet, List.append_nil]
      exact marks_of_sublist (ownCalls_saying rfl) (List.filterMap_cons_none hnone)
  | notify method params =>
      have hnone : mark? uri (notification method params) = none :=
        mark?_notification params hleaves.1 hleaves.2
      refine hunmarked (transcript_notify srv method params s) ?_
      exact marks_of_sublist (ownCalls_saying rfl) (List.filterMap_cons_none hnone)
  | start =>
      obtain ⟨es, hes, hmarks⟩ := marks_start srv s uri
      exact hunmarked hes hmarks
  | stop =>
      obtain ⟨es, hes, hmarks⟩ := marks_stop srv s uri
      exact hunmarked hes hmarks
  | enter =>
      obtain ⟨es, hes, hmarks⟩ := marks_start srv s uri
      rcases hstart : Session.start srv s with ⟨e | _, t⟩
      · rw [hstart] at hes
        obtain ⟨es', hes', hmarks'⟩ := marks_stop srv t uri
        have hentered : Transcript srv s (es ++ es') (Session.enter srv s).2 := by
          rw [enter_of_start_error hstart]
          exact hes.append hes'
        refine hunmarked hentered ?_
        rw [ownCalls_append, marks_append, hmarks, hmarks']
        rfl
      · rw [hstart] at hes
        have hentered : Transcript srv s es (Session.enter srv s).2 := by
          rw [enter_of_start_ok hstart]
          exact hes
        exact hunmarked hentered hmarks

/-! ## Runs -/

theorem Silenced.mute (h : Silenced s) (hbegun : s.process? = none ∨ Begun s) : Mute s := by
  obtain ⟨e, hfailure⟩ | ⟨p, hp, hreach⟩ := h
  · exact ⟨.inr ⟨e, hfailure⟩, .inl ⟨e, hfailure⟩⟩
  · have hread : Begun s := hbegun.resolve_left (by rw [hp]; exact Option.some_ne_none p)
    exact ⟨hread, .inr ⟨p, hp, hreach⟩⟩

/-- What a session has written about the document at an address: its openings and closings
alternate, and if it has been left open, nothing reaches the server any more. -/
structure Attended (uri : String) (s : Session σ) : Prop where
  alternates : Alternates (marks uri s.sent)
  leftOpen : endsOpen (marks uri s.sent) = true → Mute s

/-- What one move does to the marks of a document. -/
theorem closesOpen_perform {m : Move σ} (hleaves : m.LeavesDocuments)
    (hbegun : s.process? = none ∨ Begun s) (h : ClosesOpen (marks uri s.sent)) :
    ClosesOpen (marks uri (m.perform srv s).sent) := by
  obtain ⟨es, hes, hstarts, -⟩ := transcript_perform srv m hleaves s uri
  obtain ⟨bs, hbs, hsent, -⟩ := hes.marks hbegun uri
  rw [hsent]
  exact h.append (hbs.trans hstarts)

/-- A move that does not wait too long leaves a document closed or a session that is mute. -/
theorem Attended.perform {m : Move σ} (h : Attended uri s) (hleaves : m.LeavesDocuments)
    (hbegun : s.process? = none ∨ Begun s) (htime : ¬ m.Lags srv uri s) :
    Attended uri (m.perform srv s) := by
  obtain ⟨es, hes, hstarts, hopened⟩ := transcript_perform srv m hleaves s uri
  have hbegun' := hes.steps.begun_of_process hbegun
  by_cases hmute : Mute s
  · obtain ⟨hmuted, hsent⟩ := hes.mute hmute
    refine ⟨?_, fun _ => hmuted⟩
    rw [hsent]
    exact h.alternates
  · have hclosed : endsOpen (marks uri s.sent) = false := by
      rw [← Bool.not_eq_true]
      exact fun hopen => hmute (h.leftOpen hopen)
    obtain ⟨bs, hbs, hsent, hall⟩ := hes.marks hbegun uri
    refine ⟨?_, fun hopen => ?_⟩
    · rw [hsent]
      exact h.alternates.append hclosed (hbs.trans hstarts)
    · obtain hall | hmuted := hall
      · -- Of the marks of one move only an opening alone leaves the document open.
        rw [hsent, endsOpen_append, hclosed] at hopen
        obtain rfl | rfl | rfl := prefix_cases (hbs.trans hstarts)
        · cases hopen
        · exact ((hopened hall.symm).resolve_left htime).mute hbegun'
        · cases hopen
      · exact hmuted

theorem closesOpen_after {moves : List (Move σ)} (hleaves : ∀ m ∈ moves, m.LeavesDocuments)
    (hbegun : s.process? = none ∨ Begun s) (h : ClosesOpen (marks uri s.sent)) :
    ClosesOpen (marks uri (after srv moves s).sent) := by
  induction moves generalizing s with
  | nil => exact h
  | cons m moves ih =>
      have hsteps : Steps srv True s (m.perform srv s) := steps_perform fun _ => trivial
      exact ih (fun m' hm' => hleaves m' (List.mem_cons_of_mem _ hm'))
        (hsteps.begun_of_process hbegun)
        (closesOpen_perform (hleaves m List.mem_cons_self) hbegun h)

theorem Attended.after {moves : List (Move σ)} (h : Attended uri s)
    (hleaves : ∀ m ∈ moves, m.LeavesDocuments) (hbegun : s.process? = none ∨ Begun s)
    (htime : InTime srv uri moves s) : Attended uri (after srv moves s) := by
  induction moves generalizing s with
  | nil => exact h
  | cons m moves ih =>
      have hsteps : Steps srv True s (m.perform srv s) := steps_perform fun _ => trivial
      exact ih (h.perform (hleaves m List.mem_cons_self) hbegun htime.1)
        (fun m' hm' => hleaves m' (List.mem_cons_of_mem _ hm'))
        (hsteps.begun_of_process hbegun) htime.2

/-- A document whose diagnostics do not come in time is left open. -/
theorem left_open {d : Document} (hrun : s.isRunning = true) (hmemo : memoOf? d s = none)
    (hsend : send srv (openMessage d) (s.awaiting d) = (.ok (), t)) (htime : ¬ s.timeout ≤ 0.0)
    (hmiss : (heard srv t).find? (publishes d.uri) = none)
    (hfailure : (receiveAll srv t).failure? = none) :
    TimedOut (diagnostics srv d s).1 ∧
      marks d.uri (diagnostics srv d s).2.sent = marks d.uri s.sent ++ [true] := by
  have hfst : (openAndAwait srv d s).1 =
      .error (.timedOut t.timeout (.diagnostics d.uri)) := by
    have hhits : (publicationWatch srv).hits d.uri = publishes d.uri :=
      funext (hits_publicationWatch d.uri)
    rw [openAndAwait_fst, hsend]
    dsimp only [Watch.reply]
    rw [if_neg htime, hhits, hmiss]
    dsimp only
    rw [hfailure]
  have hsent : t.sent = s.sent ++ [openMessage d] :=
    sent_of_send_ok (s := s.awaiting d) hrun hsend
  obtain ⟨r, t', hsend', -, hcalls⟩ := (publicationWatch srv).calls_exchange d.uri (openMessage d)
    (.diagnostics d.uri) s
  obtain rfl : t = t' := congrArg Prod.snd (hsend.symm.trans hsend')
  have hmarks : marks d.uri (openAndAwait srv d s).2.sent = marks d.uri s.sent ++ [true] := by
    rw [← marks_calls, ← marks_opened, ← marks_append, ← hsent, ← marks_calls d.uri t.sent]
    exact congrArg (marks d.uri) hcalls
  rw [diagnostics_eq, hmemo]
  dsimp only
  rcases hopen : openAndAwait srv d s with ⟨r', u⟩
  rw [hopen] at hfst hmarks
  obtain rfl : r' = _ := hfst
  exact ⟨⟨_, _, rfl⟩, hmarks⟩

/-- In every run of a session in which only calls for diagnostics open and close documents, no
document is ever closed that is not open. If none of the calls for a document waits too long, its
openings and closings alternate, so it is never opened while it is open. A call whose document is
not published in time, though the server runs and is read, leaves it open: the next such call opens
it once more. -/
theorem openings_alternate (srv : Server σ) (moves : List (Move σ)) (command : List String)
    (workspace : Workspace) (processId : Nat) (timeout : Float) (uri : String) :
    let s₀ := new command workspace processId timeout
    let s := after srv moves s₀
    ((∀ m ∈ moves, m.LeavesDocuments) →
      ClosesOpen (marks uri s.sent) ∧
        (InTime srv uri moves s₀ → Alternates (marks uri s.sent))) ∧
    (∀ (d : Document) (u t : Session σ), u.isRunning = true → memoOf? d u = none →
      send srv (openMessage d) (u.awaiting d) = (.ok (), t) → ¬ u.timeout ≤ 0.0 →
      (heard srv t).find? (publishes d.uri) = none → (receiveAll srv t).failure? = none →
      TimedOut (diagnostics srv d u).1 ∧
        marks d.uri (diagnostics srv d u).2.sent = marks d.uri u.sent ++ [true]) := by
  intro s₀ s
  refine ⟨fun hleaves => ⟨?_, fun htime => ?_⟩, fun d u t => left_open⟩
  · exact closesOpen_after hleaves (.inl rfl) (.singleton _)
  · have hattended : Attended uri s₀ := ⟨.singleton _, fun h => by cases h⟩
    exact (hattended.after hleaves (.inl rfl) htime).alternates

/-! ### A server that publishes nothing -/

open Sample in
/-- A server that grants the handshake and publishes nothing is told of the same document twice that
it is opened, without its being closed in between. -/
theorem openings_repeated :
    marks component.uri
        (after willing [.enter, .diagnostics component, .diagnostics component] idle).sent =
      [true, true] ∧
    ¬ Alternates (marks component.uri
        (after willing [.enter, .diagnostics component, .diagnostics component] idle).sent) := by
  have hmarks : marks component.uri
      (after willing [.enter, .diagnostics component, .diagnostics component] idle).sent =
        [true, true] := by
    decide +kernel
  refine ⟨hmarks, ?_⟩
  rw [hmarks, Alternates]
  decide

end SfcCheck.Session
