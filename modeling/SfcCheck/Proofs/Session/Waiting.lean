import SfcCheck.Proofs.Attempt
import SfcCheck.Proofs.Session.Reading
import SfcCheck.Session.Calls

/-!
# What a wait comes to

Whoever waits gets what the first message for the wait gives, of those that are dispatched
meanwhile; without one the wait ends with the failure of reading, or it is too late. This holds of
responses and of published diagnostics alike, so it is shown once, of a place with waits and of what
settles them.
-/

namespace SfcCheck.Session

variable {σ : Type} {srv : Server σ}

/-- The messages that are dispatched when at most `n` are read. -/
def handled (srv : Server σ) : Nat → Session σ → List (Table Json)
  | 0, _ => []
  | n + 1, s =>
    match s.incoming with
    | .nothing => []
    | .ended _ => []
    | .message fields s =>
      match dispatch srv fields s with
      | (.ok _, s) => fields :: handled srv n s
      | (.error _, _) => [fields]

/-- The messages that are dispatched during a wait. -/
def heard (srv : Server σ) (s : Session σ) : List (Table Json) := handled srv (s.patience srv) s

theorem handled_hangIf (n : Nat) (b : Bool) (s : Session σ) :
    handled srv n (s.hangIf b) = handled srv n s := by
  induction n generalizing s with
  | zero => rfl
  | succ n ih =>
      rw [handled, handled, incoming_hangIf]
      cases s.incoming with
      | nothing => rfl
      | ended e => rfl
      | message fields t =>
          dsimp only
          rw [dispatch_hangIf]
          rcases dispatch srv fields t with ⟨e | _, t'⟩
          · rfl
          · exact congrArg (fields :: ·) (ih t')

/-- Whoever hangs hears the same. -/
theorem heard_hangIf (b : Bool) (s : Session σ) : heard srv (s.hangIf b) = heard srv s :=
  handled_hangIf _ b s

/-! ## Exchanges -/

section Exchange

variable {κ α : Type} [DecidableEq κ] {l : WaitList σ κ α} {key : κ} {m : Json} {s t : Session σ}

theorem exchange_of_send_error {e : ServerError} (awaited : Awaited)
    (h : send srv m (l.update (·.register key) s) = (.error e, t)) :
    exchange srv l key m awaited s = (.error e, l.update (·.forget key) t) := by
  have hsubmit : submit srv m (l.update (·.register key) s) = (.error e, t) := by
    rw [submit_eq, h]
  rw [exchange, Attempt.bind_error hsubmit]

theorem exchange_of_send_ok (awaited : Awaited)
    (h : send srv m (l.update (·.register key) s) = (.ok (), t)) :
    exchange srv l key m awaited s =
      ((await srv l key awaited (t.drain srv)).1,
        l.update (·.forget key) (await srv l key awaited (t.drain srv)).2) := by
  have hsubmit : submit srv m (l.update (·.register key) s) = (.ok (), t.drain srv) := by
    rw [submit_eq, h]
  rw [exchange, Attempt.bind_ok hsubmit]
  rfl

/-- Once its message is sent, an exchange waits, and reading has not ended. -/
theorem ready_of_send (h : send srv m (l.update (·.register key) s) = (.ok (), t)) :
    (l.get (t.drain srv)).slot? key = some none ∧ (t.drain srv).failure? = none ∧
      (t.drain srv).timeout = s.timeout := by
  have hget : l.get (t.drain srv) = l.get t := l.get_congr rfl rfl
  have hslot : (l.get t).slot? key = some none := by
    rw [get_of_send l h, l.get_update, Waits.slot?_register]
  have hopen : t.failure? = none := failure?_of_send_ok h
  have htimeout : t.timeout = s.timeout := by rw [timeout_of_send h, l.update_rest]
  exact ⟨hget ▸ hslot, hopen, htimeout⟩

end Exchange

/-! ## What settles waits -/

/-- What settles the waits in a place: which messages do at all, for whom they are, and what they
give. Any other message leaves the waits alone. -/
structure Watch {κ α : Type} [DecidableEq κ] (srv : Server σ) (l : WaitList σ κ α) where
  settles : Table Json → Bool
  key? : Table Json → Except Fault (Option κ)
  result : Table Json → Except Fault (Except ServerError α)
  reads_settle : ∀ key r s, Reads s (l.update (·.settle key r) s)
  get_fail : ∀ e s, l.get (s.fail e) = (l.get s).failAll e
  dispatch_eq : ∀ {fields}, settles fields = true → ∀ s,
    dispatch srv fields s = settled s (l.take (key? fields) (result fields) s)
  get_dispatch : ∀ {fields}, settles fields = false → ∀ s,
    l.get (dispatch srv fields s).2 = l.get s

theorem get_incoming {κ α : Type} (l : WaitList σ κ α) {s t : Session σ} {fields : Table Json}
    (h : s.incoming = .message fields t) : l.get t = l.get s := by
  obtain ⟨p, rfl⟩ := incoming_message h
  exact l.get_congr rfl rfl

namespace Watch

variable {κ α : Type} [DecidableEq κ] {l : WaitList σ κ α} {key : κ} {s t : Session σ}
variable {fields : Table Json}

/-- Whether a message is for a key. -/
def hits (w : Watch srv l) (key : κ) (fields : Table Json) : Bool :=
  w.settles fields &&
    match w.key? fields with
    | .ok (some k) => decide (k = key)
    | _ => false

/-- What a message settles a wait with, faulty ones included. -/
def verdict (w : Watch srv l) (fields : Table Json) : Except ServerError α :=
  match w.result fields with
  | .ok r => r
  | .error e => .error (.malformedMessage e)

theorem hits_eq_true_iff {w : Watch srv l} :
    w.hits key fields = true ↔ w.settles fields = true ∧ w.key? fields = .ok (some key) := by
  rw [hits]
  rcases w.key? fields with _ | _ | k <;> simp

theorem dispatch_of_take_ok (w : Watch srv l) {waits : Waits κ α}
    (hsettles : w.settles fields = true)
    (htake : (l.get s).take (w.key? fields) (w.result fields) = .ok waits) :
    dispatch srv fields s = (.ok (), l.set waits s) := by
  rw [w.dispatch_eq hsettles, take_eq_ok_iff.mpr ⟨waits, htake, rfl⟩]
  rfl

theorem dispatch_of_take_error (w : Watch srv l) {e : Fault} (hsettles : w.settles fields = true)
    (htake : (l.get s).take (w.key? fields) (w.result fields) = .error e) :
    dispatch srv fields s = (.error (.fault e), s) := by
  rw [w.dispatch_eq hsettles, take_eq_error_iff.mpr htake]
  rfl

/-- A message that nobody waits for makes no difference. -/
theorem dispatch_of_stray (w : Watch srv l) {k? : Option κ} (hsettles : w.settles fields = true)
    (hkey : w.key? fields = .ok k?)
    (hstray : ∀ k, k? = some k → (l.get s).slot? k ≠ some none) :
    dispatch srv fields s = (.ok (), l.set (l.get s) s) := by
  refine w.dispatch_of_take_ok hsettles ?_
  rw [hkey]
  exact Waits.take_stray hstray

/-- A message of which it cannot be told for whom it is is faulty. -/
theorem dispatch_of_key_error (w : Watch srv l) {e : Fault} (hsettles : w.settles fields = true)
    (hkey : w.key? fields = .error e) : dispatch srv fields s = (.error (.fault e), s) := by
  refine w.dispatch_of_take_error hsettles ?_
  rw [hkey]
  rfl

/-- What a wait was settled with stays. -/
theorem slot?_dispatch_of_settled (w : Watch srv l) {r : Except ServerError α}
    (hslot : (l.get s).slot? key = some (some r)) (fields : Table Json) :
    (l.get (dispatch srv fields s).2).slot? key = some (some r) := by
  cases hsettles : w.settles fields with
  | false => rwa [w.get_dispatch hsettles]
  | true =>
      cases htake : (l.get s).take (w.key? fields) (w.result fields) with
      | error e => rwa [w.dispatch_of_take_error hsettles htake]
      | ok waits =>
          rw [w.dispatch_of_take_ok hsettles htake, l.get_set]
          exact Waits.slot?_take_of_settled htake hslot

/-- A message for another wait, or for none, is not noticed. -/
theorem slot?_dispatch_of_miss (w : Watch srv l) (hmiss : w.hits key fields = false)
    (s : Session σ) : (l.get (dispatch srv fields s).2).slot? key = (l.get s).slot? key := by
  cases hsettles : w.settles fields with
  | false => rw [w.get_dispatch hsettles]
  | true =>
      cases htake : (l.get s).take (w.key? fields) (w.result fields) with
      | error e => rw [w.dispatch_of_take_error hsettles htake]
      | ok waits =>
          rw [w.dispatch_of_take_ok hsettles htake, l.get_set]
          refine Waits.slot?_take_of_ne htake fun hkey => ?_
          rw [w.hits_eq_true_iff.mpr ⟨hsettles, hkey⟩] at hmiss
          cases hmiss

/-- A message for an open wait settles it or is faulty. -/
theorem dispatch_of_hit (w : Watch srv l) (hhit : w.hits key fields = true)
    (hslot : (l.get s).slot? key = some none) :
    (l.get (dispatch srv fields s).2).slot? key = some (some (w.verdict fields)) ∨
      ∃ e, dispatch srv fields s = (.error (.fault e), s) ∧
        w.verdict fields = .error (.malformedMessage e) := by
  obtain ⟨hsettles, hkey⟩ := w.hits_eq_true_iff.mp hhit
  have htake : (l.get s).take (w.key? fields) (w.result fields) =
      (w.result fields).map fun r => (l.get s).settle key r := by
    rw [hkey]
    exact Waits.take_open hslot
  rw [verdict]
  cases hresult : w.result fields with
  | error e =>
      right
      rw [hresult] at htake
      exact ⟨e, w.dispatch_of_take_error hsettles (by rw [hresult, htake]; rfl), rfl⟩
  | ok r =>
      left
      rw [hresult] at htake
      rw [w.dispatch_of_take_ok hsettles (by rw [hresult, htake]; rfl), l.get_set,
        Waits.slot?_settle, if_pos rfl, hslot]
      rfl

theorem slot?_fail (w : Watch srv l) (e : ServerError) (s : Session σ) :
    (l.get (s.fail e)).slot? key =
      ((l.get s).slot? key).map (Waits.fill (.error e)) := by
  rw [w.get_fail, Waits.slot?_failAll]

theorem slot?_receive_of_settled (w : Watch srv l) (n : Nat) {r : Except ServerError α}
    (hslot : (l.get s).slot? key = some (some r)) :
    (l.get (receive srv n s)).slot? key = some (some r) := by
  induction n generalizing s with
  | zero => exact hslot
  | succ n ih =>
      rw [receive]
      split
      · exact hslot
      · rw [w.slot?_fail, hslot]
        rfl
      · next fields t hmessage =>
          rw [← get_incoming l hmessage] at hslot
          have hkept := w.slot?_dispatch_of_settled hslot fields
          split
          · next t' hdispatch =>
              rw [hdispatch] at hkept
              exact ih hkept
          · next e t' hdispatch =>
              rw [hdispatch] at hkept
              rw [w.slot?_fail, hkept]
              rfl

/-- Whoever waits has the verdict of the first message for the wait, or the failure of reading. -/
theorem slot?_receive (w : Watch srv l) (n : Nat) (hslot : (l.get s).slot? key = some none)
    (hopen : s.failure? = none) :
    (l.get (receive srv n s)).slot? key =
      some (match (handled srv n s).find? (w.hits key) with
        | some fields => some (w.verdict fields)
        | none => (receive srv n s).failure?.map .error) := by
  induction n generalizing s with
  | zero => simp only [receive, handled, List.find?_nil, hslot, hopen, Option.map_none]
  | succ n ih =>
      rw [receive, handled]
      cases hincoming : s.incoming with
      | nothing => simp only [List.find?_nil, hslot, hopen, Option.map_none]
      | ended e =>
          simp only [List.find?_nil, w.slot?_fail, hslot]
          rfl
      | message fields t =>
          dsimp only
          rw [← get_incoming l hincoming] at hslot
          have hopen' : t.failure? = none := by
            obtain ⟨p, rfl⟩ := incoming_message hincoming
            exact hopen
          have hstill : (dispatch srv fields t).2.failure? = none :=
            (failure?_dispatch fields t).trans hopen'
          cases hhit : w.hits key fields with
          | true =>
              rcases w.dispatch_of_hit hhit hslot with hsettled | ⟨e, hdispatch, hverdict⟩
              · rcases hdispatch : dispatch srv fields t with ⟨e | _, t'⟩
                · rw [hdispatch] at hsettled
                  simp only [List.find?_cons, hhit, w.slot?_fail, hsettled]
                  rfl
                · rw [hdispatch] at hsettled
                  simp only [List.find?_cons, hhit, w.slot?_receive_of_settled n hsettled]
              · simp only [hdispatch, List.find?_cons, hhit, w.slot?_fail, hslot, hverdict]
                rfl
          | false =>
              have hkept := w.slot?_dispatch_of_miss hhit t
              rw [hslot] at hkept
              rcases hdispatch : dispatch srv fields t with ⟨e | _, t'⟩
              · rw [hdispatch] at hkept
                simp only [List.find?_cons, hhit, List.find?_nil, w.slot?_fail, hkept]
                rfl
              · rw [hdispatch] at hkept hstill
                simp only [List.find?_cons, hhit]
                exact ih hkept hstill

/-! ### Exchanges -/

/-- What a wait comes to, given the session that begins to read. -/
def reply (w : Watch srv l) (key : κ) (awaited : Awaited) (s : Session σ) : Except ServerError α :=
  match (heard srv s).find? (w.hits key) with
  | some fields => w.verdict fields
  | none =>
    match (receiveAll srv s).failure? with
    | some e => .error e
    | none => .error (.timedOut s.timeout awaited)

/-- Whether a wait is in vain: nothing comes for it, although reading goes on. -/
def isVain (w : Watch srv l) (key : κ) (s : Session σ) : Bool :=
  ((heard srv s).find? (w.hits key)).isNone && (receiveAll srv s).failure?.isNone

theorem await_late (w : Watch srv l) (awaited : Awaited) (hslot : (l.get s).slot? key = some none)
    (htime : s.timeout ≤ 0.0) :
    await srv l key awaited s =
      (.error (.timedOut s.timeout awaited),
        receiveAll srv (l.update (·.settle key (.error (.timedOut s.timeout awaited))) s)) := by
  have hsettled : (l.get (l.update (·.settle key (.error (.timedOut s.timeout awaited))) s)).slot?
      key = some (some (.error (.timedOut s.timeout awaited))) := by
    rw [l.get_update, Waits.slot?_settle, if_pos rfl, hslot]
    rfl
  unfold await
  simp only [if_pos htime, receiveAll, w.slot?_receive_of_settled _ hsettled]

/-- With time to wait, the wait comes to its reply. It hangs if that never comes and the time is
unlimited. -/
theorem await_in_time (w : Watch srv l) (awaited : Awaited)
    (hslot : (l.get s).slot? key = some none) (hopen : s.failure? = none)
    (htime : ¬ s.timeout ≤ 0.0) :
    await srv l key awaited s =
      (w.reply key awaited s,
        (receiveAll srv s).hangIf (w.isVain key s && s.timeout.isInf)) := by
  have hreceive := w.slot?_receive (s.patience srv) hslot hopen
  have htimeout : (receive srv (s.patience srv) s).timeout = s.timeout :=
    congrArg (·.timeout) (Reads.receive _ s).rest
  unfold await reply isVain heard
  simp only [if_neg htime, receiveAll] at hreceive ⊢
  rw [hreceive]
  cases (handled srv (s.patience srv) s).find? (w.hits key) with
  | some fields => simp
  | none => cases (receive srv (s.patience srv) s).failure? <;> simp [htimeout]

theorem reads_await (w : Watch srv l) (awaited : Awaited) (s : Session σ) :
    Reads s (await srv l key awaited s).2 := by
  have hreads : Reads s (receiveAll srv (if s.timeout ≤ 0.0 then
      l.update (·.settle key (.error (.timedOut s.timeout awaited))) s else s)) := by
    split
    · exact (w.reads_settle _ _ s).trans (.receive _ _)
    · exact .receive _ _
  unfold await
  dsimp only
  split
  · exact hreads
  · exact hreads.trans (.hangIf _ _)

/-- What the wait comes to does not depend on whether a call hangs. -/
theorem reply_hangIf (w : Watch srv l) (key : κ) (awaited : Awaited) (b : Bool) (s : Session σ) :
    w.reply key awaited (s.hangIf b) = w.reply key awaited s := by
  rw [reply, reply, heard_hangIf, receiveAll_hangIf]
  rfl

/-- The result of an exchange: the error of sending, or what the wait comes to. -/
theorem exchange_fst (w : Watch srv l) (key : κ) (m : Json) (awaited : Awaited) (s : Session σ) :
    (exchange srv l key m awaited s).1 =
      match send srv m (l.update (·.register key) s) with
      | (.error e, _) => .error e
      | (.ok _, t) =>
        if s.timeout ≤ 0.0 then .error (.timedOut s.timeout awaited)
        else w.reply key awaited t := by
  rcases hsend : send srv m (l.update (·.register key) s) with ⟨e | _, t⟩
  · rw [exchange_of_send_error awaited hsend]
  · rw [exchange_of_send_ok awaited hsend]
    obtain ⟨hslot, hopen, htimeout⟩ := ready_of_send hsend
    dsimp only
    rw [← htimeout]
    by_cases htime : (t.drain srv).timeout ≤ 0.0
    · rw [if_pos htime, w.await_late awaited hslot htime]
    · rw [if_neg htime, w.await_in_time awaited hslot hopen htime]
      exact w.reply_hangIf key awaited _ t

/-- An exchange sends its message and reads, with a wait that it begins and ends. -/
theorem exchange_snd (w : Watch srv l) (key : κ) (m : Json) (awaited : Awaited) (s : Session σ) :
    ∃ p? ms t, (ms = [] ∨ ms = [m]) ∧
      Reads { l.update (·.register key) s with process? := p?, sent := s.sent ++ ms } t ∧
      (exchange srv l key m awaited s).2 = l.update (·.forget key) t := by
  obtain ⟨p?, ms, hms, ht⟩ := send_snd srv m (l.update (·.register key) s)
  have hsent : (l.update (·.register key) s).sent = s.sent := by rw [l.update_rest]
  rw [hsent] at ht
  rcases hsend : send srv m (l.update (·.register key) s) with ⟨e | _, t⟩
  · rw [exchange_of_send_error awaited hsend]
    rw [hsend] at ht
    exact ⟨p?, ms, t, hms, ht ▸ .refl _, rfl⟩
  · rw [exchange_of_send_ok awaited hsend]
    rw [hsend] at ht
    have hdrain : Reads t (await srv l key awaited (t.drain srv)).2 :=
      (Reads.hangIf _ t).trans (w.reads_await awaited _)
    exact ⟨p?, ms, _, hms, ht ▸ hdrain, rfl⟩

end Watch

/-! ## The two places -/

theorem get_takeRequest {κ α : Type} (l : WaitList σ κ α) (id method params : Json)
    (s : Session σ) : l.get (takeRequest srv id method params s).2 = l.get s := by
  rw [takeRequest]
  split
  · rfl
  · split
    · next hsend => exact get_of_send l hsend
    · next hsend => exact get_of_send l hsend

/-- Responses do not settle the waits for diagnostics. -/
theorem published_takeResponse (fields : Table Json) (s : Session σ) :
    (settled s (takeResponse fields s)).2.published = s.published := by
  cases h : takeResponse fields s with
  | error e => rfl
  | ok s' =>
      obtain ⟨w, -, rfl⟩ := take_eq_ok_iff.mp h
      rfl

/-- Notifications do not settle the waits for responses. -/
theorem pending_takeNotification (method params : Json) (s : Session σ) :
    (settled s (takeNotification method params s)).2.pending = s.pending := by
  rw [takeNotification]
  split
  · cases h : publications.take (publishedUri params) (.ok <$> publishedItems params) s with
    | error e => rfl
    | ok s' =>
        obtain ⟨w, -, rfl⟩ := take_eq_ok_iff.mp h
        rfl
  · rfl

/-- Whether a message is a response. -/
def isResponse (fields : Table Json) : Bool :=
  match purpose fields with
  | .response => true
  | _ => false

/-- Whether a message publishes diagnostics. -/
def isPublication (fields : Table Json) : Bool :=
  match purpose fields with
  | .notification method => isPublish method
  | _ => false

/-- Responses settle the waits for responses. -/
def responseWatch (srv : Server σ) : Watch srv responses where
  settles := isResponse
  key? := requestNumber
  result := outcome
  reads_settle _ _ s := ⟨rfl, Waits.keys_settle _ _ _, rfl, [], (List.append_nil _).symm, by simp⟩
  get_fail _ _ := rfl
  dispatch_eq := by
    intro fields hsettles s
    rw [isResponse] at hsettles
    rw [dispatch]
    split at hsettles
    · next hpurpose =>
        rw [hpurpose]
        rfl
    · cases hsettles
  get_dispatch := by
    intro fields hsettles s
    rw [isResponse] at hsettles
    rw [dispatch]
    cases hpurpose : purpose fields with
    | response =>
        rw [hpurpose] at hsettles
        cases hsettles
    | request id method => exact get_takeRequest _ _ _ _ _
    | notification method => exact pending_takeNotification _ _ _

/-- Published diagnostics settle the waits for diagnostics. -/
def publicationWatch (srv : Server σ) : Watch srv publications where
  settles := isPublication
  key? fields := publishedUri (paramsOf fields)
  result fields := .ok <$> publishedItems (paramsOf fields)
  reads_settle _ _ s := ⟨rfl, rfl, Waits.keys_settle _ _ _, [], (List.append_nil _).symm, by simp⟩
  get_fail _ _ := rfl
  dispatch_eq := by
    intro fields hsettles s
    rw [isPublication] at hsettles
    rw [dispatch]
    split at hsettles
    · next method hpurpose =>
        rw [hpurpose]
        simp only [takeNotification, if_pos hsettles]
    · cases hsettles
  get_dispatch := by
    intro fields hsettles s
    rw [isPublication] at hsettles
    rw [dispatch]
    cases hpurpose : purpose fields with
    | response => exact published_takeResponse _ _
    | request id method => exact get_takeRequest _ _ _ _ _
    | notification method =>
        rw [hpurpose] at hsettles
        simp only [takeNotification, hsettles]
        rfl

end SfcCheck.Session
