import SfcCheck.Proofs.Attempt
import SfcCheck.Session.Basic

/-!
# What reading changes

Reading changes the process, what became of the waits, why reading ended, and the messages that were
sent, which grow by answers to the server. It begins no wait and ends none, sends no request and
leaves all else of a session alone. While a call reads, it may turn out to wait without end; whether
one does makes no difference to what is read.
-/

namespace SfcCheck.Session

open Attempt

variable {σ : Type} {srv : Server σ} {s s' s'' : Session σ}

/-! ## Sending -/

/-- The outcomes of sending a message: it is refused, it is lost on a server that has finished, or
it reaches the server, which may break the pipe. -/
inductive Sending (m : Json) (s : Session σ) : Except ServerError Unit × Session σ → Prop where
  | refused (e : ServerError) : Sending m s (.error e, s)
  | lost (hopen : s.failure? = none) : Sending m s (.ok (), s)
  | heard (hopen : s.failure? = none) (p : Process σ) (r : Except ServerError Unit) :
      Sending m s (r, { s with process? := some p, sent := s.sent ++ [m] })

theorem sending (srv : Server σ) (m : Json) (s : Session σ) : Sending m s (send srv m s) := by
  rw [send]
  split
  · exact .refused _
  · exact .refused _
  · next p hopen hp =>
      dsimp only
      split
      · split
        · exact .heard hopen _ _
        · exact .heard hopen _ _
      · split
        · exact .refused _
        · exact .lost hopen

/-- Sending changes the process and the messages that were sent. -/
theorem send_snd (srv : Server σ) (m : Json) (s : Session σ) :
    ∃ p? ms, (ms = [] ∨ ms = [m]) ∧
      (send srv m s).2 = { s with process? := p?, sent := s.sent ++ ms } := by
  have h := sending srv m s
  generalize send srv m s = out at h
  cases h with
  | refused e => exact ⟨s.process?, [], .inl rfl, by simp⟩
  | lost hopen => exact ⟨s.process?, [], .inl rfl, by simp⟩
  | heard hopen p r => exact ⟨some p, [m], .inr rfl, rfl⟩

theorem get_of_send {κ α : Type} (l : WaitList σ κ α) {m : Json} {r : Except ServerError Unit}
    (h : send srv m s = (r, s')) : l.get s' = l.get s := by
  obtain ⟨p?, ms, -, hsend⟩ := send_snd srv m s
  rw [h] at hsend
  exact l.get_congr (congrArg (·.pending) hsend) (congrArg (·.published) hsend)

theorem timeout_of_send {m : Json} {r : Except ServerError Unit} (h : send srv m s = (r, s')) :
    s'.timeout = s.timeout := by
  obtain ⟨p?, ms, -, hsend⟩ := send_snd srv m s
  rw [h] at hsend
  exact congrArg (·.timeout) hsend

/-- Nothing is sent any more once reading has ended. -/
theorem failure?_of_send_ok {m : Json} (h : send srv m s = (.ok (), s')) : s'.failure? = none := by
  have hsending := sending srv m s
  rw [h] at hsending
  cases hsending with
  | lost hopen => exact hopen
  | heard hopen p r => exact hopen

/-- Nothing is sent without a process. -/
theorem process?_of_send_ok {m : Json} (h : send srv m s = (.ok (), s')) :
    s'.process?.isSome = true := by
  rw [send] at h
  split at h
  · cases h
  · cases h
  · next p hopen hp =>
      dsimp only at h
      split at h
      · split at h <;> cases h
        rfl
      · split at h <;> cases h
        rw [hp]
        rfl

/-- Submitting a message comes to what sending it does. -/
theorem submit_eq (srv : Server σ) (m : Json) (s : Session σ) :
    submit srv m s =
      match send srv m s with
      | (.error e, t) => (.error e, t)
      | (.ok _, t) => (.ok (), t.drain srv) := by
  rcases hsend : send srv m s with ⟨e | _, t⟩
  · rw [submit, bind_error hsend]
  · rw [submit, bind_ok hsend]
    rfl

theorem send_of_submit_ok {m : Json} (h : submit srv m s = (.ok (), s')) :
    ∃ t, send srv m s = (.ok (), t) ∧ s' = t.drain srv := by
  rw [submit_eq] at h
  rcases hsend : send srv m s with ⟨e' | _, t⟩
  · rw [hsend] at h
    cases h
  · rw [hsend] at h
    exact ⟨t, rfl, (congrArg Prod.snd h).symm⟩

/-- Submitting a message changes the process and the messages that were sent, and it may hang. -/
theorem submit_snd (srv : Server σ) (m : Json) (s : Session σ) :
    ∃ p? ms hangs, (ms = [] ∨ ms = [m]) ∧
      (submit srv m s).2 = { s with process? := p?, sent := s.sent ++ ms, hangs } := by
  obtain ⟨p?, ms, hms, hsend⟩ := send_snd srv m s
  rw [submit_eq]
  rcases hact : send srv m s with ⟨e | _, t⟩
  · rw [hact] at hsend
    exact ⟨p?, ms, s.hangs, hms, hsend⟩
  · rw [hact] at hsend
    exact ⟨p?, ms, _, hms,
      congrArg (fun u : Session σ => { u with hangs := (t.drain srv).hangs }) hsend⟩

theorem get_of_submit {κ α : Type} (l : WaitList σ κ α) {m : Json} {r : Except ServerError Unit}
    (h : submit srv m s = (r, s')) : l.get s' = l.get s := by
  obtain ⟨p?, ms, hangs, -, hsubmit⟩ := submit_snd srv m s
  rw [h] at hsubmit
  exact l.get_congr (congrArg (·.pending) hsubmit) (congrArg (·.published) hsubmit)

/-- Nothing is submitted without a process. -/
theorem process?_of_submit_ok {m : Json} (h : submit srv m s = (.ok (), s')) :
    s'.process?.isSome = true := by
  obtain ⟨t, hsend, rfl⟩ := send_of_submit_ok h
  show t.process?.isSome = true
  exact process?_of_send_ok hsend

/-- A message that answers a request of the server. -/
def IsAnswer (m : Json) : Prop :=
  ∃ id key value, (key = "result" ∨ key = "error") ∧ m = response id key value

theorem answer_key {config method params : Json} {key : String} {value : Json}
    (h : answer config method params = .ok (key, value)) : key = "result" ∨ key = "error" := by
  rw [answer] at h
  split at h
  · cases hitems : configurations config params with
    | error e =>
        rw [hitems] at h
        cases h
    | ok items =>
        rw [hitems] at h
        cases h
        exact .inl rfl
  · cases hmethod : lookUp method with
    | error e =>
        rw [hmethod] at h
        cases h
    | ok name =>
        rw [hmethod] at h
        change (if isAcknowledged name then _ else _) = _ at h
        split at h
        · cases h
          exact .inl rfl
        · cases h
          exact .inr rfl

/-! ## Dispatching -/

theorem take_eq_ok_iff {κ α ε : Type} [DecidableEq κ] {l : WaitList σ κ α}
    {key? : Except ε (Option κ)} {result : Except ε (Except ServerError α)} :
    l.take key? result s = .ok s' ↔
      ∃ w, (l.get s).take key? result = .ok w ∧ s' = l.set w s := by
  rw [WaitList.take]
  cases (l.get s).take key? result with
  | error e => simp [Except.map]
  | ok w => simp [Except.map, eq_comm]

theorem take_eq_error_iff {κ α ε : Type} [DecidableEq κ] {l : WaitList σ κ α}
    {key? : Except ε (Option κ)} {result : Except ε (Except ServerError α)} {e : ε} :
    l.take key? result s = .error e ↔ (l.get s).take key? result = .error e := by
  rw [WaitList.take]
  cases (l.get s).take key? result with
  | error e => simp [Except.map]
  | ok w => simp [Except.map]

/-- The outcomes of dispatching a message: it is faulty or nobody's concern, it settles a wait, or
it is answered. -/
inductive Dispatching (srv : Server σ) (fields : Table Json) (s : Session σ) :
    Except ReadFailure Unit × Session σ → Prop where
  | faulty (e : ReadFailure) : Dispatching srv fields s (.error e, s)
  | unnoticed : Dispatching srv fields s (.ok (), s)
  | response (w : Waits Int Json)
      (htake : s.pending.take (requestNumber fields) (outcome fields) = .ok w) :
      Dispatching srv fields s (.ok (), { s with pending := w })
  | publication (w : Waits String (List Json))
      (htake : s.published.take (publishedUri (paramsOf fields))
        (.ok <$> publishedItems (paramsOf fields)) = .ok w) :
      Dispatching srv fields s (.ok (), { s with published := w })
  | answered (m : Json) (hanswer : IsAnswer m) (r : Except ReadFailure Unit) :
      Dispatching srv fields s (r, (send srv m s).2)

theorem dispatching (srv : Server σ) (fields : Table Json) (s : Session σ) :
    Dispatching srv fields s (dispatch srv fields s) := by
  rw [dispatch]
  split
  · cases h : takeResponse fields s with
    | error e => exact .faulty _
    | ok s' =>
        obtain ⟨w, hw, rfl⟩ := take_eq_ok_iff.mp h
        exact .response w hw
  · next id method _ =>
      rw [takeRequest]
      split
      · exact .faulty _
      · next key value hanswer =>
          have hsent (r : Except ReadFailure Unit) :
              Dispatching srv fields s (r, (send srv (response id key value) s).2) :=
            .answered _ ⟨id, key, value, answer_key hanswer, rfl⟩ r
          rcases hsend : send srv (response id key value) s with ⟨_ | _, t⟩
          · rw [hsend] at hsent
            exact hsent _
          · rw [hsend] at hsent
            exact hsent _
  · next method _ =>
      rw [takeNotification]
      split
      · cases h : publications.take (publishedUri (paramsOf fields))
          (.ok <$> publishedItems (paramsOf fields)) s with
        | error e => exact .faulty _
        | ok s' =>
            obtain ⟨w, hw, rfl⟩ := take_eq_ok_iff.mp h
            exact .publication w hw
      · exact .unnoticed

theorem failure?_send (m : Json) (s : Session σ) : (send srv m s).2.failure? = s.failure? := by
  obtain ⟨p?, ms, -, h⟩ := send_snd srv m s
  rw [h]

/-- Dispatching a message ends nothing; this is left to who reads. -/
theorem failure?_dispatch (fields : Table Json) (s : Session σ) :
    (dispatch srv fields s).2.failure? = s.failure? := by
  have h := dispatching srv fields s
  generalize dispatch srv fields s = out at h
  cases h with
  | answered m hanswer r => exact failure?_send m s
  | _ => rfl

/-! ## Reading -/

/-- A session that has read a message differs in its process only. -/
theorem incoming_message {fields : Table Json} (h : s.incoming = .message fields s') :
    ∃ p, s' = { s with process? := some p } := by
  rw [Session.incoming] at h
  split at h
  · cases h
  · split at h
    · cases h
    · split at h
      · cases h
      · cases h
      · cases h
      · cases h
        exact ⟨_, rfl⟩

/-- The relation between the sessions before and after reading. -/
structure Reads (s s' : Session σ) : Prop where
  rest : s' = { s with
    process? := s'.process?
    pending := s'.pending
    published := s'.published
    failure? := s'.failure?
    sent := s'.sent
    hangs := s'.hangs }
  pending : s'.pending.keys = s.pending.keys
  published : s'.published.keys = s.published.keys
  sent : ∃ answers, s'.sent = s.sent ++ answers ∧ ∀ m ∈ answers, IsAnswer m

namespace Reads

theorem refl (s : Session σ) : Reads s s := ⟨rfl, rfl, rfl, [], by simp, by simp⟩

theorem trans (h : Reads s s') (h' : Reads s' s'') : Reads s s'' := by
  obtain ⟨answers, hsent, hanswers⟩ := h.sent
  obtain ⟨answers', hsent', hanswers'⟩ := h'.sent
  refine ⟨?_, h'.pending.trans h.pending, h'.published.trans h.published, answers ++ answers', ?_,
    ?_⟩
  · rw [h'.rest, h.rest]
  · rw [hsent', hsent, List.append_assoc]
  · intro m hm
    exact (List.mem_append.mp hm).elim (hanswers m) (hanswers' m)

theorem fail (e : ServerError) (s : Session σ) : Reads s (s.fail e) :=
  ⟨rfl, Waits.keys_failAll _ _, Waits.keys_failAll _ _, [], by simp [Session.fail], by simp⟩

theorem hangIf (b : Bool) (s : Session σ) : Reads s (s.hangIf b) :=
  ⟨rfl, rfl, rfl, [], (List.append_nil _).symm, by simp⟩

theorem send {m : Json} (hm : IsAnswer m) (s : Session σ) : Reads s (send srv m s).2 := by
  obtain ⟨p?, ms, hms, h⟩ := send_snd srv m s
  rw [h]
  refine ⟨rfl, rfl, rfl, ms, rfl, ?_⟩
  rcases hms with rfl | rfl
  · simp
  · simpa using hm

theorem dispatch (fields : Table Json) (s : Session σ) :
    Reads s (Session.dispatch srv fields s).2 := by
  have h := dispatching srv fields s
  generalize Session.dispatch srv fields s = out at h
  cases h with
  | faulty e => exact refl s
  | unnoticed => exact refl s
  | response w htake => exact ⟨rfl, Waits.keys_take htake, rfl, [], by simp, by simp⟩
  | publication w htake => exact ⟨rfl, rfl, Waits.keys_take htake, [], by simp, by simp⟩
  | answered m hanswer r => exact send hanswer s

theorem incoming {fields : Table Json} (h : s.incoming = .message fields s') : Reads s s' := by
  obtain ⟨p, rfl⟩ := incoming_message h
  exact ⟨rfl, rfl, rfl, [], by simp, by simp⟩

theorem receive (n : Nat) (s : Session σ) : Reads s (receive srv n s) := by
  induction n generalizing s with
  | zero => exact refl s
  | succ n ih =>
      rw [Session.receive]
      split
      · exact refl s
      · next e _ => exact fail e s
      · next fields t hmessage =>
          have hread : Reads s (Session.dispatch srv fields t).2 :=
            (incoming hmessage).trans (dispatch fields t)
          split
          · next t' hdispatch =>
              rw [hdispatch] at hread
              exact hread.trans (ih t')
          · next e t' hdispatch =>
              rw [hdispatch] at hread
              exact hread.trans (fail _ t')

end Reads

/-! ## Waits without end -/

theorem hangs_send (m : Json) (s : Session σ) : (send srv m s).2.hangs = s.hangs := by
  obtain ⟨p?, ms, -, h⟩ := send_snd srv m s
  rw [h]

theorem hangs_dispatch (srv : Server σ) (fields : Table Json) (s : Session σ) :
    (dispatch srv fields s).2.hangs = s.hangs := by
  have h := dispatching srv fields s
  generalize dispatch srv fields s = out at h
  cases h with
  | answered m hanswer r => exact hangs_send m s
  | _ => rfl

/-- Nobody hangs by reading alone. -/
theorem hangs_receive (n : Nat) (s : Session σ) : (receive srv n s).hangs = s.hangs := by
  induction n generalizing s with
  | zero => rfl
  | succ n ih =>
      rw [receive]
      split
      · rfl
      · rfl
      · next fields t hmessage =>
          obtain ⟨p, rfl⟩ := incoming_message hmessage
          have hread := hangs_dispatch srv fields { s with process? := some p }
          split
          · next t' hdispatch =>
              rw [hdispatch] at hread
              exact (ih t').trans hread
          · next e t' hdispatch =>
              rw [hdispatch] at hread
              exact hread

theorem send_hangIf (m : Json) (b : Bool) (s : Session σ) :
    send srv m (s.hangIf b) = ((send srv m s).1, (send srv m s).2.hangIf b) := by
  have hfailure : (s.hangIf b).failure? = s.failure? := rfl
  have hprocess : (s.hangIf b).process? = s.process? := rfl
  rw [send, send, hfailure, hprocess]
  split
  · rfl
  · rfl
  · next p hopen hp =>
      dsimp only
      cases p.isReachable with
      | true =>
          rw [if_pos rfl, if_pos rfl]
          dsimp only
          split <;> rfl
      | false =>
          rw [if_neg Bool.false_ne_true, if_neg Bool.false_ne_true, hprocess]
          split <;> rfl

theorem takeResponse_hangIf (fields : Table Json) (b : Bool) (s : Session σ) :
    takeResponse fields (s.hangIf b) = (takeResponse fields s).map (hangIf b) := by
  have hget : responses.get (s.hangIf b) = responses.get s := rfl
  rw [takeResponse, takeResponse, WaitList.take, WaitList.take, hget]
  cases (responses.get s).take (requestNumber fields) (outcome fields) <;> rfl

theorem takeNotification_hangIf (method params : Json) (b : Bool) (s : Session σ) :
    takeNotification method params (s.hangIf b) =
      (takeNotification method params s).map (hangIf b) := by
  have hget : publications.get (s.hangIf b) = publications.get s := rfl
  rw [takeNotification, takeNotification]
  split
  · rw [WaitList.take, WaitList.take, hget]
    cases (publications.get s).take (publishedUri params) (.ok <$> publishedItems params) <;> rfl
  · rfl

theorem settled_hangIf (b : Bool) (s : Session σ) (r : Except Fault (Session σ)) :
    settled (s.hangIf b) (r.map (hangIf b)) = ((settled s r).1, (settled s r).2.hangIf b) := by
  cases r <;> rfl

theorem dispatch_hangIf (fields : Table Json) (b : Bool) (s : Session σ) :
    dispatch srv fields (s.hangIf b) =
      ((dispatch srv fields s).1, (dispatch srv fields s).2.hangIf b) := by
  rw [dispatch, dispatch]
  split
  · rw [takeResponse_hangIf, settled_hangIf]
  · next id method _ =>
      have hconfig : (s.hangIf b).workspace = s.workspace := rfl
      rw [takeRequest, takeRequest, hconfig]
      split
      · rfl
      · next key value _ =>
          rw [send_hangIf]
          rcases send srv (response id key value) s with ⟨e | _, t⟩ <;> rfl
  · rw [takeNotification_hangIf, settled_hangIf]

theorem incoming_hangIf (b : Bool) (s : Session σ) :
    (s.hangIf b).incoming =
      match s.incoming with
      | .nothing => .nothing
      | .message fields t => .message fields (t.hangIf b)
      | .ended e => .ended e := by
  have hprocess : (s.hangIf b).process? = s.process? := rfl
  rw [incoming, incoming, hprocess]
  split
  · rfl
  · next p _ =>
      cases p.listening with
      | false => rfl
      | true =>
          rw [if_neg (by decide), if_neg (by decide)]
          cases Wire.read p.isOver p.unread <;> rfl

theorem receive_hangIf (n : Nat) (b : Bool) (s : Session σ) :
    receive srv n (s.hangIf b) = (receive srv n s).hangIf b := by
  induction n generalizing s with
  | zero => rfl
  | succ n ih =>
      rw [receive, receive, incoming_hangIf]
      cases s.incoming with
      | nothing => rfl
      | ended e => rfl
      | message fields t =>
          dsimp only
          rw [dispatch_hangIf]
          rcases dispatch srv fields t with ⟨e | _, t'⟩
          · rfl
          · exact ih t'

/-- Whoever hangs reads the same. -/
theorem receiveAll_hangIf (b : Bool) (s : Session σ) :
    receiveAll srv (s.hangIf b) = (receiveAll srv s).hangIf b := receive_hangIf _ b s

end SfcCheck.Session
