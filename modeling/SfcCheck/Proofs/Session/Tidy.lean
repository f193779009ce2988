import SfcCheck.Proofs.Session.Moves

/-!
# Tidy sessions

`Tidy` is what holds after every run of a new session: nobody waits for anything, and the requests
that were sent have ascending numbers, all of them used up. Numbers are never used again.
-/

namespace SfcCheck.Session

open Attempt

variable {σ : Type} {srv : Server σ} {s s' : Session σ}

/-! ## The numbers of requests -/

/-- The number of a request that a session sent. -/
def requestId? : Json → Option Int
  | .obj fields =>
    match purpose fields with
    | .request (.int id) _ => some id
    | _ => none
  | _ => none

/-- The numbers of the requests among messages. -/
def requestIds (ms : List Json) : List Int := ms.filterMap requestId?

@[simp] theorem requestId?_requestMessage (id : Int) (method : String) (params : Json) :
    requestId? (requestMessage id method params) = some id := by
  simp [requestId?, requestMessage, purpose, Table.get?]

@[simp] theorem requestId?_notification (method : String) (params : Json) :
    requestId? (notification method params) = none := by
  simp [requestId?, notification, purpose, Table.get?]

/-- A notification is no request, whether it was sent or not. -/
theorem requestIds_append_notification {method : String} {params : Json} {ms sent : List Json}
    (h : ms = [] ∨ ms = [notification method params]) :
    requestIds (sent ++ ms) = requestIds sent := by
  rcases h with rfl | rfl
  · rw [List.append_nil]
  · simp [requestIds, List.filterMap_append]

theorem IsAnswer.requestId? {m : Json} (h : IsAnswer m) : requestId? m = none := by
  obtain ⟨id, key, value, rfl | rfl, rfl⟩ := h
  · simp [Session.requestId?, response, purpose, Table.get?]
  · simp [Session.requestId?, response, purpose, Table.get?]

theorem Reads.requestIds (h : Reads s s') : requestIds s'.sent = requestIds s.sent := by
  obtain ⟨answers, hsent, hanswers⟩ := h.sent
  have hnone : Session.requestIds answers = [] :=
    List.filterMap_eq_nil_iff.mpr fun m hm => (hanswers m hm).requestId?
  unfold Session.requestIds at hnone ⊢
  rw [hsent, List.filterMap_append, hnone, List.append_nil]

/-- The numbers of the requests after a request: at most its own is new. -/
theorem requestIds_request (srv : Server σ) (method : String) (params : Json) (s : Session σ) :
    requestIds (request srv method params s).2.sent = requestIds s.sent ∨
      requestIds (request srv method params s).2.sent =
        requestIds s.sent ++ [s.nextId] := by
  obtain ⟨p?, ms, t, hms, hreads, hsnd⟩ := request_snd srv method params s
  rw [hsnd, hreads.requestIds]
  rcases hms with rfl | rfl
  · exact .inl (congrArg requestIds (List.append_nil _))
  · right
    simp [requestIds, List.filterMap_append]

theorem lastId_request (srv : Server σ) (method : String) (params : Json) (s : Session σ) :
    (request srv method params s).2.lastId = s.lastId + 1 := by
  obtain ⟨p?, ms, t, -, hreads, hsnd⟩ := request_snd srv method params s
  rw [hsnd, hreads.rest]

/-- A request leaves waits that there were before. -/
theorem keys_pending_request (srv : Server σ) (method : String) (params : Json) (s : Session σ) :
    (request srv method params s).2.pending.keys =
      (s.pending.forget s.nextId).keys := by
  obtain ⟨p?, ms, t, -, hreads, hsnd⟩ := request_snd srv method params s
  rw [hsnd]
  exact Waits.keys_forget_of_register hreads.pending

theorem keys_published_request (srv : Server σ) (method : String) (params : Json)
    (s : Session σ) : (request srv method params s).2.published.keys = s.published.keys := by
  obtain ⟨p?, ms, t, -, hreads, hsnd⟩ := request_snd srv method params s
  rw [hsnd]
  exact hreads.published

/-! ## Tidy sessions -/

/-- Nobody waits for anything, and the numbers of requests ascend and are used up. -/
structure Tidy (s : Session σ) : Prop where
  pending : s.pending = []
  published : s.published = []
  ascending : (requestIds s.sent).Pairwise (· < ·)
  used : ∀ id ∈ requestIds s.sent, id ≤ s.lastId

theorem tidy_new (command : List String) (workspace : Workspace) (processId : Nat)
    (timeout : Float) : Tidy (new command workspace processId timeout : Session σ) :=
  ⟨rfl, rfl, .nil, by simp [new, requestIds]⟩

theorem Tidy.congr (h : Tidy s) (hpending : s'.pending = s.pending)
    (hpublished : s'.published = s.published) (hsent : s'.sent = s.sent)
    (hlast : s'.lastId = s.lastId) : Tidy s' := by
  refine ⟨hpending.trans h.pending, hpublished.trans h.published, ?_, ?_⟩
  · rw [hsent]
    exact h.ascending
  · rw [hsent, hlast]
    exact h.used

theorem waits_eq_nil {κ α : Type} {w : Waits κ α} (h : w.keys = []) : w = [] :=
  List.map_eq_nil_iff.mp h

/-- A tidy session stays so. -/
def Tidies (s s' : Session σ) : Prop := Tidy s → Tidy s'

theorem Reads.tidies (h : Reads s s') : Tidies s s' := by
  intro htidy
  refine ⟨waits_eq_nil ?_, waits_eq_nil ?_, ?_, ?_⟩
  · rw [h.pending, htidy.pending]
    rfl
  · rw [h.published, htidy.published]
    rfl
  · rw [h.requestIds]
    exact htidy.ascending
  · rw [h.requestIds, h.rest]
    exact htidy.used

theorem tidies_request (method : String) (params : Json) :
    Keeps Tidies (request srv method params) := by
  intro s htidy
  refine ⟨waits_eq_nil ?_, waits_eq_nil ?_, ?_, ?_⟩
  · rw [keys_pending_request, htidy.pending]
    rfl
  · rw [keys_published_request, htidy.published]
    rfl
  · rcases requestIds_request srv method params s with h | h
    · rw [h]
      exact htidy.ascending
    · rw [h, List.pairwise_append]
      refine ⟨htidy.ascending, List.pairwise_singleton _ _, ?_⟩
      intro id hid id' hid'
      rw [List.mem_singleton.mp hid']
      exact Int.lt_add_one_of_le (htidy.used id hid)
  · intro id hid
    have hused : ∀ id ∈ requestIds s.sent ++ [s.nextId], id ≤ s.nextId := by
      intro id hid
      rcases List.mem_append.mp hid with hid | hid
      · exact Int.le_add_one (htidy.used id hid)
      · exact Int.le_of_eq (List.mem_singleton.mp hid)
    rw [lastId_request]
    rcases requestIds_request srv method params s with h | h
    · exact hused id (List.mem_append_left _ (h ▸ hid))
    · exact hused id (h ▸ hid)

theorem tidies_openAndAwait (d : Document) : Keeps Tidies (openAndAwait srv d) := by
  intro s htidy
  obtain ⟨p?, ms, t, hms, hreads, hsnd⟩ := openAndAwait_snd srv d s
  rw [hsnd]
  have hids : requestIds t.sent = requestIds s.sent :=
    hreads.requestIds.trans (requestIds_append_notification hms)
  refine ⟨waits_eq_nil ?_, waits_eq_nil ?_, ?_, ?_⟩
  · exact hreads.pending.trans (by rw [htidy.pending]; rfl)
  · refine (Waits.keys_forget_of_register hreads.published).trans ?_
    rw [htidy.published]
    rfl
  · exact hids ▸ htidy.ascending
  · rw [hids, hreads.rest]
    exact htidy.used

theorem tidies_notify (method : String) (params : Json) :
    Keeps Tidies (notify srv method params) := by
  intro s htidy
  obtain ⟨p?, ms, hangs, hms, hsubmit⟩ := submit_snd srv (notification method params) s
  rw [Session.notify, hsubmit]
  have hids : requestIds (s.sent ++ ms) = requestIds s.sent := requestIds_append_notification hms
  refine ⟨htidy.pending, htidy.published, ?_, ?_⟩
  · exact hids ▸ htidy.ascending
  · exact hids ▸ htidy.used

theorem throughout_tidies (srv : Server σ) : Throughout srv Tidies where
  trans _ _ _ h h' := h' ∘ h
  aside _ _ _ _ _ _ _ htidy := htidy.congr rfl rfl rfl rfl
  reads _ _ h := h.tidies
  notify := tidies_notify
  request := tidies_request
  openAndAwait := tidies_openAndAwait
  memo _ _ htidy := htidy.congr rfl rfl rfl rfl

/-- Every run leaves a tidy session. -/
theorem tidy_after (srv : Server σ) (moves : List (Move σ)) (h : Tidy s) :
    Tidy (after srv moves s) :=
  (throughout_tidies srv).after moves s h

/-! ## Numbers that are used up -/

/-- No number becomes free again. -/
def Uses (s s' : Session σ) : Prop := s.lastId ≤ s'.lastId

theorem throughout_uses (srv : Server σ) : Throughout srv Uses where
  trans _ _ _ := Nat.le_trans
  aside _ _ _ _ _ _ _ := Nat.le_refl _
  reads _ _ h := Nat.le_of_eq (congrArg lastId h.rest).symm
  notify method params s := by
    obtain ⟨p?, ms, hangs, -, hsubmit⟩ := submit_snd srv (notification method params) s
    rw [Session.notify, hsubmit]
    exact Nat.le_refl _
  request method params s := by
    show s.lastId ≤ (Session.request srv method params s).2.lastId
    rw [lastId_request]
    exact Nat.le_succ _
  openAndAwait d s := by
    obtain ⟨p?, ms, t, -, hreads, hsnd⟩ := openAndAwait_snd srv d s
    rw [hsnd, hreads.rest]
    exact Nat.le_refl _
  memo _ _ := Nat.le_refl _

/-- Whatever happens later, later requests have greater numbers. -/
theorem nextId_after (srv : Server σ) (moves : List (Move σ)) (s : Session σ) :
    s.nextId ≤ (after srv moves s).nextId :=
  Int.add_le_add_right (Int.ofNat_le.mpr ((throughout_uses srv).after moves s)) 1

end SfcCheck.Session
