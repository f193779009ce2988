import Mathlib.Data.List.Forall2
import SfcCheck.Proofs.Results
import SfcCheck.Proofs.Session.Calling

/-!
# Answers to the server

A session answers every request of its server once, in the order of the requests and under their
ids, at whatever stage it takes them up, and it answers nothing else. The items of a request for
settings come to what their sections lead to in the settings.
-/

namespace SfcCheck

/-! ## Settings -/

namespace Workspace

/-- A value is reached from another one by following keys through objects. -/
inductive Leads : Json → List String → Json → Prop where
  | here (v : Json) : Leads v [] v
  | into {fields : List (String × Json)} {key : String} {keys : List String} {v u : Json}
      (hfield : Table.get? key fields = some v) (hrest : Leads v keys u) :
      Leads (.obj fields) (key :: keys) u

/-- Following keys gives the value that they lead to, and null if they lead nowhere. -/
theorem valueAt_spec (v : Json) (keys : List String) :
    Leads v keys (valueAt v keys) ∨ valueAt v keys = .null ∧ ∀ u, ¬ Leads v keys u := by
  induction keys generalizing v with
  | nil =>
      rw [valueAt]
      exact .inl (.here v)
  | cons key keys ih =>
      rw [valueAt.eq_def]
      cases v with
      | obj fields =>
          dsimp only
          cases hfield : Table.get? key fields with
          | none =>
              refine .inr ⟨rfl, fun u hu => ?_⟩
              cases hu with
              | into hfield' => rw [hfield] at hfield'; cases hfield'
          | some v =>
              obtain hleads | ⟨hnull, hnowhere⟩ := ih v
              · exact .inl (.into hfield hleads)
              · refine .inr ⟨hnull, fun u hu => ?_⟩
                cases hu with
                | into hfield' hrest =>
                    obtain rfl := Option.some.inj (hfield.symm.trans hfield')
                    exact hnowhere u hrest
      | _ => exact .inr ⟨rfl, fun u hu => by cases hu⟩

end Workspace

namespace Session

open Workspace (Leads)

variable {σ : Type} {srv : Server σ} {s t : Session σ} {config : Json} {fields : Table Json}

/-- What an item of a request for settings comes to: all settings if it names no section, and
otherwise what the names in the section lead to. -/
inductive Configures (config : Json) : Json → Json → Prop where
  | whole {item : List (String × Json)}
      (hnone : ((Table.get? "section" item).getD .null).isTruthy = false) :
      Configures config (.obj item) config
  | found {item : List (String × Json)} {names : String} {v : Json}
      (hsection : Table.get? "section" item = some (.str names)) (hnames : names ≠ "")
      (hleads : Leads config (names.splitOn ".") v) : Configures config (.obj item) v
  | missing {item : List (String × Json)} {names : String}
      (hsection : Table.get? "section" item = some (.str names)) (hnames : names ≠ "")
      (hnowhere : ∀ v, ¬ Leads config (names.splitOn ".") v) : Configures config (.obj item) .null

/-- The items of a request for settings. -/
def itemsAsked (params : Json) : List Json :=
  match params with
  | .obj fields =>
    match Table.get? "items" fields with
    | some (.arr items) => items
    | _ => []
  | _ => []

theorem configures_of_section? {item v : Json}
    (h : (item.get "section" >>= Workspace.section? config) = .ok v) :
    Configures config item v := by
  cases item with
  | obj fields =>
      change Workspace.section? config ((Table.get? "section" fields).getD .null) = _ at h
      rw [Workspace.section?.eq_def] at h
      cases hsection : Table.get? "section" fields with
      | none =>
          rw [hsection] at h
          cases h
          exact .whole (by rw [hsection]; rfl)
      | some names =>
          rw [hsection, Option.getD_some] at h
          cases htruthy : names.isTruthy with
          | false =>
              rw [htruthy] at h
              cases h
              exact .whole (by rw [hsection]; exact htruthy)
          | true =>
              rw [htruthy] at h
              cases names with
              | str names =>
                  have hnames : names ≠ "" := by
                    rintro rfl
                    cases htruthy
                  cases h
                  obtain hleads | ⟨hnull, hnowhere⟩ :=
                    Workspace.valueAt_spec config (names.splitOn ".")
                  · exact .found hsection hnames hleads
                  · rw [hnull]
                    exact .missing hsection hnames hnowhere
              | _ => cases h
  | _ => cases h

/-- The items of an object or of a text are texts, and those have no section. -/
theorem items_eq_nil_of_texts {items values : List Json} (htexts : ∀ v ∈ items, ∃ s, v = .str s)
    (h : List.Forall₂ (Configures config) items values) : items = [] := by
  cases h with
  | nil => rfl
  | @cons item _ _ _ hitem _ =>
      obtain ⟨s, rfl⟩ := htexts item (.head _)
      cases hitem

theorem configurations_eq (config params : Json) :
    configurations config params =
      ((params.orElse (.obj [])).get? "items" >>= fun found => itemsOf (found.getD (.arr []))
        >>= fun items => items.mapM fun item =>
          item.get "section" >>= Workspace.section? config) := rfl

/-- The items that are gone through are those that a request asks for. -/
theorem itemsAsked_eq {params : Json} {found : Option Json} {items values : List Json}
    (hfound : (params.orElse (.obj [])).get? "items" = .ok found)
    (hitems : itemsOf (found.getD (.arr [])) = .ok items)
    (h : List.Forall₂ (Configures config) items values) : itemsAsked params = items := by
  rw [Json.orElse] at hfound
  split at hfound
  · cases params with
    | obj fields =>
        change Except.ok (Table.get? "items" fields) = .ok found at hfound
        cases hfound
        rw [itemsAsked.eq_def]
        dsimp only
        cases hget : Table.get? "items" fields with
        | none =>
            rw [hget] at hitems
            cases hitems
            rfl
        | some v =>
            rw [hget, Option.getD_some] at hitems
            cases v with
            | arr items' =>
                cases hitems
                rfl
            | obj fields' =>
                cases hitems
                refine (items_eq_nil_of_texts (fun v hv => ?_) h).symm
                obtain ⟨f, -, rfl⟩ := List.mem_map.mp hv
                exact ⟨f.1, rfl⟩
            | str s =>
                cases hitems
                refine (items_eq_nil_of_texts (fun v hv => ?_) h).symm
                obtain ⟨c, -, rfl⟩ := List.mem_map.mp hv
                exact ⟨_, rfl⟩
            | _ => cases hitems
    | _ => cases hfound
  · next hfalsy =>
      cases hfound
      cases hitems
      cases params with
      | obj fields =>
          cases fields with
          | nil => rfl
          | cons f fields => exact absurd rfl hfalsy
      | _ => rfl

theorem configures_configurations {params : Json} {values : List Json}
    (h : configurations config params = .ok values) :
    List.Forall₂ (Configures config) (itemsAsked params) values := by
  rw [configurations_eq] at h
  cases hfound : (params.orElse (.obj [])).get? "items" with
  | error e =>
      rw [hfound] at h
      cases h
  | ok found =>
      rw [hfound] at h
      cases hitems : itemsOf (found.getD (.arr [])) with
      | error e =>
          change (itemsOf (found.getD (.arr [])) >>= _) = _ at h
          rw [hitems] at h
          cases h
      | ok items =>
          change (itemsOf (found.getD (.arr [])) >>= _) = _ at h
          rw [hitems] at h
          have hvalues : List.Forall₂ (Configures config) items values :=
            (forall₂_of_mapM_ok h).imp fun _ _ => configures_of_section?
          rw [itemsAsked_eq hfound hitems hvalues]
          exact hvalues

/-! ## Answers -/

/-- Whether a message is a request. -/
def isRequest (fields : Table Json) : Bool :=
  match purpose fields with
  | .request _ _ => true
  | _ => false

/-- A message is the answer to a request: it has the id of the request and either the settings that
are asked for, or nothing as an acknowledgement, or the error that the method is not known. -/
inductive IsReply (config : Json) (fields : Table Json) : Json → Prop where
  | settings {id : Json} {values : List Json} (hid : fields.get? "id" = some id)
      (hmethod : fields.get? "method" = some (.str "workspace/configuration"))
      (hvalues : List.Forall₂ (Configures config) (itemsAsked (paramsOf fields)) values) :
      IsReply config fields (response id "result" (.arr values))
  | acknowledgement {id : Json} {method : String} (hid : fields.get? "id" = some id)
      (hmethod : fields.get? "method" = some (.str method)) (hknown : method ∈ acknowledged) :
      IsReply config fields (response id "result" .null)
  | unknown {id method : Json} {message : String} (hid : fields.get? "id" = some id)
      (hmethod : fields.get? "method" = some method)
      (hunknown : ∀ name, method = .str name →
        name ≠ "workspace/configuration" ∧ name ∉ acknowledged) :
      IsReply config fields
        (response id "error" (.obj [("code", .int (-32601)), ("message", .str message)]))

theorem purpose_eq_request_iff {id method : Json} :
    purpose fields = .request id method ↔
      fields.get? "id" = some id ∧ fields.get? "method" = some method ∧ method ≠ .null := by
  rw [purpose.eq_def]
  constructor
  · intro h
    cases hmethod : fields.get? "method" with
    | none =>
        rw [hmethod] at h
        cases h
    | some v =>
        rw [hmethod, Option.getD_some] at h
        cases hid : fields.get? "id" with
        | none =>
            rw [hid] at h
            cases v <;> cases h
        | some id' =>
            rw [hid] at h
            cases v with
            | null => cases h
            | _ =>
                cases h
                exact ⟨rfl, rfl, by simp⟩
  · rintro ⟨hid, hmethod, hnull⟩
    rw [hid, hmethod, Option.getD_some]
    cases method with
    | null => exact absurd rfl hnull
    | _ => rfl

/-- A request is a message with an id and with a method other than null. -/
theorem isRequest_iff :
    isRequest fields = true ↔
      ∃ id method, fields.get? "id" = some id ∧ fields.get? "method" = some method ∧
        method ≠ .null := by
  rw [isRequest]
  constructor
  · intro h
    split at h
    · next id method hpurpose => exact ⟨id, method, purpose_eq_request_iff.mp hpurpose⟩
    · cases h
  · rintro ⟨id, method, h⟩
    rw [purpose_eq_request_iff.mpr h]

theorem isReply_of_answer {id method value : Json} {key : String}
    (hpurpose : purpose fields = .request id method)
    (h : answer config method (paramsOf fields) = .ok (key, value)) :
    IsReply config fields (response id key value) := by
  obtain ⟨hid, hmethod, -⟩ := purpose_eq_request_iff.mp hpurpose
  rw [answer] at h
  split at h
  · next hconfiguration =>
      cases hvalues : configurations config (paramsOf fields) with
      | error e =>
          rw [hvalues] at h
          cases h
      | ok values =>
          rw [hvalues] at h
          cases h
          have hname : method = .str "workspace/configuration" := by
            rw [isConfiguration.eq_def] at hconfiguration
            split at hconfiguration
            · rw [beq_iff_eq.mp hconfiguration]
            · cases hconfiguration
          exact .settings hid (hmethod.trans (congrArg some hname))
            (configures_configurations hvalues)
  · next hconfiguration =>
      cases hlook : lookUp method with
      | error e =>
          rw [hlook] at h
          cases h
      | ok v =>
          obtain rfl := lookUp_eq_ok hlook
          rw [hlook] at h
          change (if isAcknowledged v then _ else _) = _ at h
          split at h
          · next hknown =>
              cases h
              cases v with
              | str name =>
                  exact .acknowledgement hid hmethod (List.elem_iff.mp hknown)
              | _ => cases hknown
          · next hunknown =>
              cases h
              refine .unknown hid hmethod ?_
              rintro name rfl
              refine ⟨?_, fun hmem => hunknown (List.elem_iff.mpr hmem)⟩
              rintro rfl
              exact hconfiguration rfl

/-! ### Requests that are in order -/

/-- An item of a request for settings that is in order: an object whose section is a text, if it
has one. -/
def IsItem (item : Json) : Prop :=
  ∃ fields, item = .obj fields ∧ ∀ v, Table.get? "section" fields = some v →
    v = .null ∨ ∃ names, v = .str names

/-- The parameters of a request for settings that is in order: there are none, or an object with a
list of items, if it has one. -/
def AsksInOrder (params : Json) : Prop :=
  params = .null ∨ ∃ fields, params = .obj fields ∧ ∀ v, Table.get? "items" fields = some v →
    ∃ items, v = .arr items ∧ ∀ item ∈ items, IsItem item

theorem IsItem.section? {item : Json} (h : IsItem item) :
    ∃ v, (item.get "section" >>= Workspace.section? config) = .ok v := by
  obtain ⟨fields, rfl, hsection⟩ := h
  change ∃ v, Workspace.section? config ((Table.get? "section" fields).getD .null) = .ok v
  cases hget : Table.get? "section" fields with
  | none => exact ⟨config, rfl⟩
  | some v =>
      obtain rfl | ⟨names, rfl⟩ := hsection v hget
      · exact ⟨config, rfl⟩
      · rw [Option.getD_some, Workspace.section?.eq_def]
        split
        · exact ⟨_, rfl⟩
        · exact ⟨_, rfl⟩

theorem AsksInOrder.configurations (config : Json) {params : Json} (h : AsksInOrder params) :
    ∃ values, configurations config params = .ok values := by
  have hnone : ∃ values, Session.configurations config (.obj []) = .ok values := ⟨[], rfl⟩
  obtain rfl | ⟨fields, rfl, hitems⟩ := h
  · exact hnone
  · cases fields with
    | nil => exact hnone
    | cons f fields =>
        have hfound : (Json.orElse (.obj (f :: fields)) (.obj [])).get? "items" =
            .ok (Table.get? "items" (f :: fields)) := rfl
        rw [configurations_eq, hfound]
        cases hget : Table.get? "items" (f :: fields) with
        | none => exact ⟨[], rfl⟩
        | some v =>
            obtain ⟨items, rfl, hall⟩ := hitems v hget
            exact exists_mapM_ok fun item hitem => (hall item hitem).section?

/-- A request is answered if its method is a text and, where it asks for settings, it does so in
order. -/
theorem exists_reply {id : Json} {name : String}
    (hpurpose : purpose fields = .request id (.str name))
    (horder : name = "workspace/configuration" → AsksInOrder (paramsOf fields)) :
    ∃ m, reply? config fields = some m := by
  have hanswer : ∃ a, answer config (.str name) (paramsOf fields) = .ok a := by
    rw [answer]
    split
    · next hconfiguration =>
        obtain ⟨values, hvalues⟩ :=
          (horder (beq_iff_eq.mp hconfiguration)).configurations config
        rw [hvalues]
        exact ⟨_, rfl⟩
    · change ∃ a, (if isAcknowledged (.str name) then _ else _) = _
      split
      · exact ⟨_, rfl⟩
      · exact ⟨_, rfl⟩
  obtain ⟨⟨key, value⟩, hanswer⟩ := hanswer
  rw [reply?, hpurpose]
  dsimp only
  rw [hanswer]
  exact ⟨_, rfl⟩

/-! ## Answers in a transcript -/

/-- The requests of the server in a transcript. -/
def requests (es : List Event) : List (Table Json) := (received es).filter isRequest

/-- The answers of the session in a transcript. -/
def replies (es : List Event) : List Json := (written es).filter fun m => !hasMethod m

theorem requests_append (es es' : List Event) :
    requests (es ++ es') = requests es ++ requests es' := by
  rw [requests, received_append, List.filter_append]
  rfl

theorem replies_append (es es' : List Event) : replies (es ++ es') = replies es ++ replies es' := by
  rw [replies, written_append, List.filter_append]
  rfl

/-- A request that is dispatched without a fault is answered. -/
theorem replying_request {id method : Json} (hpurpose : purpose fields = .request id method)
    (h : (dispatch srv fields s).1 = .ok ()) :
    ∃ m, reply? s.workspace.config fields = some m ∧ replying fields s = [.said m] ∧
      IsReply s.workspace.config fields m := by
  rw [dispatch, hpurpose] at h
  dsimp only at h
  rw [takeRequest] at h
  cases hanswer : answer s.workspace.config method (paramsOf fields) with
  | error e =>
      rw [hanswer] at h
      cases h
  | ok a =>
      rw [hanswer] at h
      dsimp only at h
      rcases hsend : send srv (response id a.1 a.2) s with ⟨e | _, t⟩
      · rw [hsend] at h
        cases h
      · have hreply : reply? s.workspace.config fields = some (response id a.1 a.2) := by
          rw [reply?, hpurpose]
          dsimp only
          rw [hanswer]
        refine ⟨_, hreply, ?_, isReply_of_answer hpurpose hanswer⟩
        rw [replying, hreply]
        exact saying_of_send_ok hsend

theorem replying_other (h : isRequest fields = false) (s : Session σ) : replying fields s = [] := by
  rw [isRequest] at h
  rw [replying, reply?]
  split at h
  · cases h
  · next hother =>
      cases hpurpose : purpose fields with
      | request id method => exact absurd hpurpose (hother id method)
      | _ => rfl

/-- What is read without a fault is answered if it is a request, and otherwise not. -/
theorem replies_hearing (h : errors (hearing srv s) = []) :
    List.Forall₂ (IsReply s.workspace.config) (requests (hearing srv s))
      (replies (hearing srv s)) := by
  rw [hearing] at h ⊢
  cases hmessage : s.incoming with
  | nothing => exact .nil
  | ended e =>
      rw [hmessage] at h
      cases h
  | message fields t =>
      have hconfig : t.workspace = s.workspace := by
        obtain ⟨p, rfl⟩ := incoming_message hmessage
        rfl
      rw [hmessage] at h
      dsimp only at h ⊢
      cases hdispatch : (dispatch srv fields t).1 with
      | error f =>
          rw [hdispatch] at h
          change errors (replying fields t ++ [.failed f.toServerError]) = [] at h
          rw [errors_append] at h
          cases (List.append_eq_nil_iff.mp h).2
      | ok _ =>
          rw [failing, List.append_nil]
          have hrequests : requests (.heard fields :: replying fields t) =
              [fields].filter isRequest := by
            rw [requests, received_heard, received_replying]
          have hreplies : replies (.heard fields :: replying fields t) =
              replies (replying fields t) := rfl
          rw [hrequests, hreplies]
          cases hrequest : isRequest fields with
          | false =>
              rw [replying_other hrequest, List.filter_cons_of_neg (by simp [hrequest])]
              exact .nil
          | true =>
              obtain ⟨id, method, hpurpose⟩ := isRequest_iff.mp hrequest
              obtain ⟨m, hreply, hsaid, hm⟩ :=
                replying_request (purpose_eq_request_iff.mpr hpurpose) hdispatch
              rw [hsaid, List.filter_cons_of_pos hrequest, ← hconfig]
              have hone : replies [.said m] = [m] :=
                List.filter_cons_of_pos (by simp [hasMethod_reply hreply])
              rw [hone]
              exact .cons hm .nil

theorem Passage.replies {es : List Event} (h : Passage srv s es t) (hread : errors es = []) :
    List.Forall₂ (IsReply s.workspace.config) (requests es) (replies es) := by
  cases h with
  | aside h => exact .nil
  | say m hm =>
      have hnone : Session.replies (saying m s) = [] := by
        obtain hsaid | hsaid := saying_cases m s
        · rw [hsaid]
          rfl
        · rw [hsaid]
          exact List.filter_cons_of_neg (by simp [hm])
      rw [requests, received_saying, hnone]
      exact .nil
  | hear => exact replies_hearing hread
  | dismiss => split <;> exact .nil

/-- As long as reading does not fail, the answers are those to the requests, one by one. -/
theorem Transcript.replies {es : List Event} (h : Transcript srv s es t)
    (hread : errors es = []) :
    List.Forall₂ (IsReply s.workspace.config) (requests es) (replies es) := by
  induction h with
  | nil => exact .nil
  | @snoc es es' t u h hstep ih =>
      have hconfig : t.workspace = s.workspace := h.steps.sameIdentity.workspace
      rw [errors_append] at hread
      obtain ⟨hbefore, hlast⟩ := List.append_eq_nil_iff.mp hread
      have hreplies := hstep.replies hlast
      rw [hconfig] at hreplies
      rw [requests_append, replies_append]
      exact List.rel_append (ih hbefore) hreplies

end Session

end SfcCheck
