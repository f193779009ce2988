import SfcCheck.Proofs.Session.Tidy

/-!
# Requests and their responses

In every run of a session each request has a number of its own, and what it comes to is what the
first response with that number gives, of those that are dispatched while it waits. Responses that
nobody waits for make no difference, and when a request has ended, in whatever way, nobody waits
for its response any more.

Whom a response is for is found by looking its id up, so one whose id cannot be looked up at all is
no stray response: it ends reading, like any message that cannot be dispatched.
-/

namespace SfcCheck.Session

variable {σ : Type} {srv : Server σ}

/-! ## Responses -/

/-- The id of a message, or null. -/
def idOf (fields : Table Json) : Json := (fields.get? "id").getD .null

/-- Whether a message is a response to the request with a number. -/
def answers (id : Int) (fields : Table Json) : Bool :=
  isResponse fields && (idOf fields).asInt? == some id

/-- What a response gives: the error that it reports, or its result. -/
def responseVerdict (fields : Table Json) : Except ServerError Json :=
  match fields.get? "error" with
  | none => .ok ((fields.get? "result").getD .null)
  | some e =>
    match e.orElse (.obj []) with
    | .obj error =>
      .error (.rejected ((Table.get? "message" error).getD (.str "unknown error")).display
        ((Table.get? "code" error).getD .null))
    | v => .error (.malformedMessage (.noMember v.kind "get"))

theorem lookUp_eq_ok {v u : Json} (h : lookUp v = .ok u) : u = v := by
  rw [lookUp.eq_def] at h
  split at h
  · cases h
  · cases h
  · cases h
    rfl

theorem lookUp_of_asInt? {v : Json} {n : Int} (h : v.asInt? = some n) : lookUp v = .ok v := by
  cases v with
  | arr items => cases h
  | obj fields => cases h
  | _ => rfl

theorem requestNumber_eq_some_iff {id : Int} {fields : Table Json} :
    requestNumber fields = .ok (some id) ↔ (idOf fields).asInt? = some id := by
  change (lookUp (idOf fields) >>= fun v => pure v.asInt?) = _ ↔ _
  constructor
  · intro h
    cases hlook : lookUp (idOf fields) with
    | error e =>
        rw [hlook] at h
        cases h
    | ok v =>
        obtain rfl := lookUp_eq_ok hlook
        rw [hlook] at h
        exact Except.ok.inj h
  · intro h
    rw [lookUp_of_asInt? h]
    exact congrArg Except.ok h

theorem hits_responseWatch (id : Int) (fields : Table Json) :
    (responseWatch srv).hits id fields = answers id fields := by
  rw [Bool.eq_iff_iff, Watch.hits_eq_true_iff]
  change isResponse fields = true ∧ requestNumber fields = _ ↔ _
  rw [requestNumber_eq_some_iff, answers, Bool.and_eq_true, beq_iff_eq]

theorem verdict_responseWatch (fields : Table Json) :
    (responseWatch srv).verdict fields = responseVerdict fields := by
  simp only [Watch.verdict, responseWatch, outcome, responseVerdict]
  cases fields.get? "error" with
  | none => rfl
  | some e =>
      dsimp only
      cases e.orElse (.obj []) <;> rfl

/-- A response whose id cannot be looked up cannot be told the request of. -/
theorem requestNumber_of_lookUp_error {fields : Table Json} {e : Fault}
    (h : lookUp (idOf fields) = .error e) : requestNumber fields = .error e := by
  change (lookUp (idOf fields) >>= fun v => pure v.asInt?) = _
  rw [h]
  rfl

/-! ## Requests -/

/-- A session that is about to send a request. -/
def opened (s : Session σ) : Session σ :=
  { s with pending := s.pending.register s.nextId, lastId := s.lastId + 1 }

/-- What a request comes to. -/
theorem request_fst (srv : Server σ) (method : String) (params : Json) (s : Session σ) :
    (request srv method params s).1 =
      match send srv (requestMessage s.nextId method params) s.opened with
      | (.error e, _) => .error e
      | (.ok _, t) =>
        if s.timeout ≤ 0.0 then .error (.timedOut s.timeout (.response method))
        else
          match (heard srv t).find? (answers s.nextId) with
          | some fields => responseVerdict fields
          | none =>
            match (receiveAll srv t).failure? with
            | some e => .error e
            | none => .error (.timedOut s.timeout (.response method)) := by
  have h : (request srv method params s).1 =
      match send srv (requestMessage s.nextId method params) s.opened with
      | (.error e, _) => .error e
      | (.ok _, t) =>
        if s.timeout ≤ 0.0 then .error (.timedOut s.timeout (.response method))
        else (responseWatch srv).reply s.nextId (.response method) t :=
    (responseWatch srv).exchange_fst s.nextId (requestMessage s.nextId method params)
      (.response method) { s with lastId := s.lastId + 1 }
  rw [h]
  rcases hsend : send srv (requestMessage s.nextId method params) s.opened with ⟨_ | _, t⟩
  · rfl
  · have htimeout : t.timeout = s.timeout := (timeout_of_send hsend : _ = s.opened.timeout)
    have hhits : (responseWatch srv).hits s.nextId = answers s.nextId :=
      funext (hits_responseWatch s.nextId)
    dsimp only [Watch.reply]
    rw [hhits, htimeout]
    cases (heard srv t).find? (answers s.nextId) with
    | none => rfl
    | some fields =>
        dsimp only
        rw [verdict_responseWatch]

/-- While a request waits, nobody waits for anything else. -/
theorem keys_pending_receive {method : String} {params : Json} {s t : Session σ}
    {r : Except ServerError Unit} (h : s.pending = [])
    (hsend : send srv (requestMessage s.nextId method params) s.opened = (r, t)) (n : Nat) :
    (receive srv n t).pending.keys = [s.nextId] := by
  rw [(Reads.receive n t).pending]
  have hget : t.pending = s.opened.pending := get_of_send responses hsend
  rw [hget, opened, h]
  rfl

/-- In every run of a session each request has a new number, it comes to what the first response
with that number gives of those that are dispatched while it waits, unless sending or reading fails
or it is too late, and nobody waits for its response afterwards. While it waits, nobody waits for
anything else. A response that nobody waits for makes no difference, unless its id cannot be looked
up, and then it is faulty. -/
theorem request_correlates (srv : Server σ) (moves : List (Move σ)) (command : List String)
    (workspace : Workspace) (processId : Nat) (timeout : Float) (method : String)
    (params : Json) :
    let s := after srv moves (new command workspace processId timeout)
    let s' := (request srv method params s).2
    let sending := send srv (requestMessage s.nextId method params) s.opened
    ((∀ id ∈ requestIds s.sent, id < s.nextId) ∧
      (requestIds s'.sent = requestIds s.sent ∨
        requestIds s'.sent = requestIds s.sent ++ [s.nextId]) ∧
      ∀ later, s.nextId < (after srv later s').nextId) ∧
    (request srv method params s).1 =
      (match sending with
      | (.error e, _) => .error e
      | (.ok _, t) =>
        if s.timeout ≤ 0.0 then .error (.timedOut s.timeout (.response method))
        else
          match (heard srv t).find? (answers s.nextId) with
          | some fields => responseVerdict fields
          | none =>
            match (receiveAll srv t).failure? with
            | some e => .error e
            | none => .error (.timedOut s.timeout (.response method))) ∧
    s.pending = [] ∧ s'.pending = [] ∧
    (∀ n, (receive srv n sending.2).pending.keys = [s.nextId]) ∧
    (∀ (t : Session σ) fields n?, isResponse fields = true → requestNumber fields = .ok n? →
      (∀ n, n? = some n → t.pending.slot? n ≠ some none) → dispatch srv fields t = (.ok (), t)) ∧
    (∀ (t : Session σ) fields e, isResponse fields = true → lookUp (idOf fields) = .error e →
      dispatch srv fields t = (.error (.fault e), t)) := by
  intro s s' sending
  have htidy : Tidy s := tidy_after srv moves (tidy_new _ _ _ _)
  have htidy' : Tidy s' := tidies_request method params s htidy
  refine ⟨⟨?_, requestIds_request srv method params s, ?_⟩, request_fst srv method params s,
    htidy.pending, htidy'.pending, ?_, ?_, ?_⟩
  · exact fun id hid => Int.lt_add_one_of_le (htidy.used id hid)
  · intro later
    refine Int.lt_of_lt_of_le ?_ (nextId_after srv later s')
    change ((s.lastId : Int) + 1) < s'.lastId + 1
    rw [lastId_request]
    omega
  · exact keys_pending_receive htidy.pending rfl
  · exact fun t fields n? => (responseWatch srv).dispatch_of_stray
  · intro t fields e hresponse hid
    exact (responseWatch srv).dispatch_of_key_error hresponse (requestNumber_of_lookUp_error hid)

/-! ### Responses that cannot be looked up -/

namespace Sample

/-- A server that writes the same messages whenever one reaches it. -/
def echo (ms : List (Table Json)) : Server Unit where
  available := true
  initial := ()
  react _ _ := ((), ms.map fun m => .emit (Wire.encode (.obj m)))
  outlivesInput := false
  burst _ := ms.length

/-- A workspace without files. -/
def workspace : Workspace :=
  let place := Path.ofText "/work"
  ⟨place, place, place, place, none, none, .null⟩

/-- A session whose program runs. -/
def running (srv : Server Unit) : Session Unit := (spawn srv (new ["vls"] workspace 1 120.0)).2

/-- A response with a list for an id. -/
def unkeyed : Table Json := [("id", .arr [.int 1]), ("result", .int 0)]

/-- The response to the first request. -/
def reply : Table Json := [("id", .int 1), ("result", .int 5)]

/-- What the first request comes to with a server that writes some messages. -/
def first (ms : List (Table Json)) : Except ServerError Json :=
  (request (echo ms) "x" .null (running (echo ms))).1

end Sample

open Sample in
/-- A response whose id is a list takes the place of the result that a request has without it. -/
theorem request_unkeyed_response :
    isResponse unkeyed = true ∧ answers 1 unkeyed = false ∧
      (match first [reply] with
        | .ok (.int 5) => true
        | _ => false) = true ∧
      (match first [unkeyed, reply] with
        | .error (.malformedMessage (.unhashable .list)) => true
        | _ => false) = true := by
  decide +kernel

end SfcCheck.Session
