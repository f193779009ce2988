import Mathlib.Data.Int.Order.Basic
import Mathlib.Order.Lattice
import SfcCheck.Proofs.ModelCache.Transparent

/-!
# What a cache keeps and what it drops

An access that gives a model drops the entries that were not used for a while and, if the document
is new to a full cache, one more entry, of which no other is older. What is left is as it was,
except for the entry of the document itself. An access for a document that cannot be parsed drops
what was not used for a while and nothing else; if the clock does not go back, nobody notices it
later.

All this holds after any history of accesses, and parsing may give something else each time.
-/

namespace SfcCheck.ModelCache

variable {τ α ε : Type}

/-! ## The entry that gives way -/

section Order

variable [LinearOrder τ] {old : String × Entry τ α} {t room : Table (Entry τ α)} {maxEntries : Int}

/-- An entry was used before those that stand in front of it and not after those behind it. -/
def IsOldest (old : String × Entry τ α) (t : Table (Entry τ α)) : Prop :=
  ∃ before after, t = before ++ old :: after ∧ (∀ x ∈ before, old.2.lastUse < x.2.lastUse) ∧
    ∀ x ∈ after, old.2.lastUse ≤ x.2.lastUse

theorem IsOldest.mem (h : IsOldest old t) : old ∈ t := by
  obtain ⟨before, after, rfl, -⟩ := h
  simp

theorem IsOldest.lastUse_le (h : IsOldest old t) {x : String × Entry τ α} (hx : x ∈ t) :
    old.2.lastUse ≤ x.2.lastUse := by
  obtain ⟨before, after, rfl, hbefore, hafter⟩ := h
  rcases List.mem_append.mp hx with hx | hx
  · exact (hbefore x hx).le
  · rcases List.mem_cons.mp hx with rfl | hx
    · exact le_rfl
    · exact hafter x hx

theorem isOldest_foldl (e : String × Entry τ α) (t : Table (Entry τ α)) :
    IsOldest (t.foldl (fun o x => if x.2.lastUse < o.2.lastUse then x else o) e) (e :: t) := by
  induction t generalizing e with
  | nil => exact ⟨[], [], rfl, by simp, by simp⟩
  | cons x t ih =>
      rw [List.foldl_cons]
      split
      · next hless =>
          -- The new entry is older than the first one, so that stands in front of the oldest.
          have hrest := ih x
          have hx := hrest.lastUse_le (.head t)
          obtain ⟨before, after, hsplit, hbefore, hafter⟩ := hrest
          refine ⟨e :: before, after, by rw [hsplit, List.cons_append], ?_, hafter⟩
          intro y hy
          rcases List.mem_cons.mp hy with rfl | hy
          · exact hx.trans_lt hless
          · exact hbefore y hy
      · next hless =>
          have hex : e.2.lastUse ≤ x.2.lastUse := not_lt.mp hless
          obtain ⟨before, after, hsplit, hbefore, hafter⟩ := ih e
          cases before with
          | nil =>
              obtain ⟨hfirst, rfl⟩ := List.cons_eq_cons.mp hsplit
              rw [← hfirst] at hafter ⊢
              refine ⟨[], x :: t, rfl, by simp, ?_⟩
              intro y hy
              rcases List.mem_cons.mp hy with rfl | hy
              · exact hex
              · exact hafter y hy
          | cons b before =>
              obtain ⟨rfl, hrest⟩ := List.cons_eq_cons.mp hsplit
              refine ⟨e :: x :: before, after, congrArg (e :: x :: ·) hrest, ?_, hafter⟩
              intro y hy
              rcases List.mem_cons.mp hy with rfl | hy
              · exact hbefore y (.head _)
              · rcases List.mem_cons.mp hy with rfl | hy
                · exact (hbefore e (.head _)).trans_le hex
                · exact hbefore y (.tail _ hy)

theorem exists_isOldest {key : String} (h : oldest? t = some key) :
    ∃ e, IsOldest (key, e) t := by
  cases t with
  | nil => cases h
  | cons e t =>
      have hfold := isOldest_foldl e t
      cases h
      exact ⟨_, hfold⟩

/-- A full cache makes room by dropping an oldest entry. -/
theorem exists_of_makeRoom (hfull : maxEntries ≤ t.length) (h : makeRoom maxEntries t = some room) :
    ∃ key e, IsOldest (key, e) t ∧ room = t.erase key := by
  rw [makeRoom, if_pos hfull] at h
  obtain ⟨key, hkey, rfl⟩ := Option.map_eq_some_iff.mp h
  obtain ⟨e, he⟩ := exists_isOldest hkey
  exact ⟨key, e, he, rfl⟩

end Order

/-! ## What one access leaves -/

section Access

variable [LinearOrder τ] [Sub τ] {parse : Document → Except ε α} {now : τ} {d : Document}
  {c c' : ModelCache τ α}

/-- A cache after dropping what was not used for a while. -/
def sweep (now : τ) (c : ModelCache τ α) : ModelCache τ α := { c with entries := c.kept now }

/-- The entries beside which a document is stored: those that are kept, less one if the cache is
full and does not know the document. -/
inductive Room (now : τ) (uri : String) (c : ModelCache τ α) : Table (Entry τ α) → Prop
  | kept (h : uri ∈ (c.kept now).keys ∨ ((c.kept now).length : Int) < c.maxEntries) :
      Room now uri c (c.kept now)
  | without (key : String) (e : Entry τ α) (hnew : uri ∉ (c.kept now).keys)
      (hfull : c.maxEntries ≤ (c.kept now).length) (hold : IsOldest (key, e) (c.kept now)) :
      Room now uri c ((c.kept now).erase key)

theorem Room.mem_kept {uri : String} {room : Table (Entry τ α)} (h : c.Room now uri room)
    {x : String × Entry τ α} (hx : x ∈ room) : x ∈ c.kept now := by
  cases h with
  | kept _ => exact hx
  | without key _ _ _ _ => exact (List.mem_filter.mp hx).1

theorem room_of_makeRoom {room : Table (Entry τ α)} {uri : String}
    (hnew : uri ∉ (c.kept now).keys) (h : makeRoom c.maxEntries (c.kept now) = some room) :
    c.Room now uri room := by
  by_cases hfull : c.maxEntries ≤ (c.kept now).length
  · obtain ⟨key, e, hold, rfl⟩ := exists_of_makeRoom hfull h
    exact .without key e hnew hfull hold
  · rw [makeRoom, if_neg hfull] at h
    cases h
    exact .kept (.inr (Int.not_le.mp hfull))

/-- What an access leaves that gives a model. -/
theorem exists_room_of_get {model : α} (h : c.get parse now d = (.ok model, c')) :
    c.disposed = false ∧ ∃ room, c.Room now d.uri room ∧
      c' = { c with entries := room.put d.uri ⟨d.version, d.languageId, now, model⟩ } := by
  by_cases hdisposed : c.disposed = true
  · rw [get, if_pos hdisposed] at h
    cases h
  · refine ⟨Bool.eq_false_iff.mpr hdisposed, ?_⟩
    rw [get, if_neg hdisposed] at h
    dsimp only at h
    split at h
    · next e he =>
        cases h
        obtain ⟨hknown, hserves⟩ := Option.filter_eq_some_iff.mp he
        simp only [Entry.serves, Bool.and_eq_true, beq_iff_eq] at hserves
        refine ⟨c.kept now, .kept (.inl (Table.mem_keys_iff.mpr ⟨e, hknown⟩)), ?_⟩
        rw [← hserves.1, ← hserves.2]
        rfl
    · split at h
      · cases h
      · split at h
        · cases h
        · next room hroom =>
            cases h
            split at hroom
            · next hknown =>
                cases hroom
                obtain ⟨e, he⟩ := Option.isSome_iff_exists.mp hknown
                exact ⟨c.kept now, .kept (.inl (Table.mem_keys_iff.mpr ⟨e, he⟩)), rfl⟩
            · next hunknown =>
                have hnew : d.uri ∉ (c.kept now).keys := by
                  intro hmem
                  obtain ⟨e, he⟩ := Table.mem_keys_iff.mp hmem
                  exact hunknown (Option.isSome_iff_exists.mpr ⟨e, he⟩)
                exact ⟨room, room_of_makeRoom hnew hroom, rfl⟩

/-- An access that gives no model stores nothing. -/
theorem get_error {f : Failure ε} (h : c.get parse now d = (.error f, c')) :
    c' = c ∨ c' = c.sweep now := by
  have step := access parse now d c
  rw [h] at step
  cases step with
  | disposed _ => exact .inl rfl
  | unparsable e _ _ => exact .inr rfl
  | full _ _ _ _ => exact .inr rfl

theorem get_of_disposed (h : c.disposed = true) (parse : Document → Except ε α) (now : τ)
    (d : Document) : c.get parse now d = (.error .disposed, c) := by
  rw [get, if_pos h]

/-- An access for a document that an entry serves for. -/
theorem get_of_hit {e : Entry τ α} (halive : c.disposed = false)
    (hknown : (c.kept now).get? d.uri = some e) (hserves : e.serves d = true) :
    (c.get parse now d).1 = .ok e.model := by
  have hhit : ((c.kept now).get? d.uri).filter (·.serves d) = some e :=
    Option.filter_eq_some_iff.mpr ⟨hknown, hserves⟩
  rw [kept] at hhit
  rw [get, if_neg (by simp [halive])]
  dsimp only
  rw [hhit]

/-- An access for a document that no entry serves for and that cannot be parsed. -/
theorem get_of_unparsable {e : ε} (halive : c.disposed = false)
    (hmiss : ∀ x, (c.kept now).get? d.uri = some x → x.serves d = false)
    (hparse : parse d = .error e) :
    c.get parse now d = (.error (.unparsable e), c.sweep now) := by
  have hnone : ((c.kept now).get? d.uri).filter (·.serves d) = none := by
    rw [Option.filter_eq_none_iff]
    intro x hx
    simp [hmiss x hx]
  rw [kept] at hnone
  rw [get, if_neg (by simp [halive])]
  dsimp only
  rw [hnone, hparse]
  rfl

/-- A cache that may hold an entry gives a model of every document that can be parsed. -/
theorem exists_of_get {model : α} (now : τ) (hmax : 1 ≤ c.maxEntries) (halive : c.disposed = false)
    (hparse : parse d = .ok model) : ∃ model', (c.get parse now d).1 = .ok model' := by
  have step := access parse now d c
  generalize c.get parse now d = r at step ⊢
  cases step with
  | disposed hdisposed =>
      rw [halive] at hdisposed
      cases hdisposed
  | hit e _ _ _ => exact ⟨e.model, rfl⟩
  | unparsable e _ herror =>
      rw [hparse] at herror
      cases herror
  | full _ _ _ hroom =>
      have hsome := makeRoom_isSome hmax (c.kept now)
      rw [hroom] at hsome
      cases hsome
  | stored model' _ _ _ _ => exact ⟨model', rfl⟩

@[simp] theorem get_interval (parse : Document → Except ε α) (now : τ) (d : Document)
    (c : ModelCache τ α) : (c.get parse now d).2.interval = c.interval := by
  have h := access parse now d c
  generalize c.get parse now d = r at h ⊢
  cases h <;> rfl

end Access

/-! ## Well-formed caches -/

/-- The addresses in a cache are distinct, it holds no more entries than it may, and none once it is
disposed of. -/
structure WellFormed (c : ModelCache τ α) : Prop where
  keys_nodup : c.entries.keys.Nodup
  size_le : (c.size : Int) ≤ max c.maxEntries 0
  entries_of_disposed : c.disposed = true → c.entries = []

namespace WellFormed

variable {c : ModelCache τ α}

theorem empty (maxEntries : Int) (interval : τ) :
    (ModelCache.empty maxEntries interval : ModelCache τ α).WellFormed :=
  ⟨List.nodup_nil, Int.le_max_right _ _, fun _ => rfl⟩

theorem dispose (h : c.WellFormed) : c.dispose.WellFormed :=
  ⟨List.nodup_nil, Int.le_trans (Int.natCast_nonneg _) h.size_le, fun _ => rfl⟩

variable [LinearOrder τ] [Sub τ] {parse : Document → Except ε α} {now : τ} {d : Document}
  {uri : String} {room : Table (Entry τ α)}

theorem nodup_kept (h : c.WellFormed) (now : τ) : (c.kept now).keys.Nodup :=
  (Table.keys_filter_sublist _ _).nodup h.keys_nodup

theorem length_kept_le (h : c.WellFormed) (now : τ) :
    ((c.kept now).length : Int) ≤ max c.maxEntries 0 := by
  have hlength : (c.kept now).length ≤ c.size := List.length_filter_le _ _
  have hsize := h.size_le
  omega

/-- An entry is kept as it is if it was used in the interval before a time. -/
theorem get?_kept_eq_some_iff (h : c.WellFormed) {e : Entry τ α} :
    (c.kept now).get? uri = some e ↔
      c.entries.get? uri = some e ∧ now - c.interval ≤ e.lastUse := by
  have hfilter := Table.get?_filter (p := fun e => !decide (e.lastUse < now - c.interval))
    h.keys_nodup uri
  rw [kept, dropBefore, hfilter, Option.filter_eq_some_iff, Bool.not_eq_true',
    decide_eq_false_iff_not, not_lt]

theorem sweep (h : c.WellFormed) (now : τ) : (c.sweep now).WellFormed := by
  refine ⟨h.nodup_kept now, h.length_kept_le now, ?_⟩
  intro hdisposed
  change c.kept now = []
  rw [kept, h.entries_of_disposed hdisposed]
  rfl

theorem nodup_room (h : c.WellFormed) (hroom : c.Room now uri room) : room.keys.Nodup := by
  cases hroom with
  | kept _ => exact h.nodup_kept now
  | without key _ _ _ _ => exact (Table.keys_filter_sublist _ _).nodup (h.nodup_kept now)

/-- A cache that keeps an entry keeps no more of them than it may hold. -/
theorem length_kept_le_of_mem (h : c.WellFormed) (huri : uri ∈ (c.kept now).keys) :
    ((c.kept now).length : Int) ≤ c.maxEntries := by
  have hkept := h.length_kept_le now
  have hpos : 0 < (c.kept now).length := by
    simpa [Table.keys] using List.length_pos_of_mem huri
  omega

/-- Where a document is stored there is room for it. -/
theorem length_room_put (h : c.WellFormed) (hroom : c.Room now uri room) (e : Entry τ α) :
    ((room.put uri e).length : Int) ≤ c.maxEntries := by
  rw [Table.length_put]
  cases hroom with
  | kept hspace =>
      split
      · next hknown => exact h.length_kept_le_of_mem hknown
      · next hnew =>
          have hless := hspace.resolve_left hnew
          push_cast
          omega
  | without key x hnew hfull hold =>
      have hmem : key ∈ (c.kept now).keys := List.mem_map_of_mem hold.mem
      have hkept := h.length_kept_le_of_mem hmem
      have hless := Table.length_erase (h.nodup_kept now) hmem
      split <;> push_cast <;> omega

/-- Only a cache that may hold an entry has room for one. -/
theorem one_le_of_room (h : c.WellFormed) (hroom : c.Room now uri room) (e : Entry τ α) :
    1 ≤ c.maxEntries := by
  have hlength := h.length_room_put hroom e
  rw [Table.length_put] at hlength
  split at hlength
  · next hmem =>
      have hpos : 0 < room.length := by simpa [Table.keys] using List.length_pos_of_mem hmem
      omega
  · omega

/-- An access keeps a cache well formed. -/
theorem get (h : c.WellFormed) (parse : Document → Except ε α) (now : τ) (d : Document) :
    (c.get parse now d).2.WellFormed := by
  rcases hget : c.get parse now d with ⟨result, c'⟩
  cases result with
  | error f =>
      rcases get_error hget with rfl | rfl
      · exact h
      · exact h.sweep now
  | ok model =>
      obtain ⟨halive, room, hroom, rfl⟩ := exists_room_of_get hget
      refine ⟨Table.nodup_keys_put (h.nodup_room hroom),
        Int.le_trans (h.length_room_put hroom _) (Int.le_max_left _ _), ?_⟩
      intro hdisposed
      rw [halive] at hdisposed
      cases hdisposed

end WellFormed

/-! ## Histories -/

/-- What is asked of a cache. Parsing may give something else each time. -/
inductive Call (τ ε α : Type) where
  | get (parse : Document → Except ε α) (now : τ) (d : Document)
  | dispose

section History

variable [LinearOrder τ] [Sub τ] {calls : List (Call τ ε α)} {c : ModelCache τ α}

/-- A cache after a call. -/
def Call.run (c : ModelCache τ α) : Call τ ε α → ModelCache τ α
  | get parse now d => (c.get parse now d).2
  | dispose => c.dispose

/-- What a call gives, if it asks for a model. -/
def Call.result? (c : ModelCache τ α) : Call τ ε α → Option (Except (Failure ε) α)
  | get parse now d => some (c.get parse now d).1
  | dispose => none

/-- A cache after some calls. -/
def history (calls : List (Call τ ε α)) (c : ModelCache τ α) : ModelCache τ α :=
  calls.foldl Call.run c

/-- What some calls give one after the other. -/
def outcomes : List (Call τ ε α) → ModelCache τ α → List (Option (Except (Failure ε) α))
  | [], _ => []
  | call :: calls, c => call.result? c :: outcomes calls (call.run c)

@[simp] theorem history_maxEntries (calls : List (Call τ ε α)) (c : ModelCache τ α) :
    (history calls c).maxEntries = c.maxEntries := by
  induction calls generalizing c with
  | nil => rfl
  | cons call calls ih =>
      refine (ih (call.run c)).trans ?_
      cases call with
      | get parse now d => exact get_maxEntries parse now d c
      | dispose => rfl

@[simp] theorem history_interval (calls : List (Call τ ε α)) (c : ModelCache τ α) :
    (history calls c).interval = c.interval := by
  induction calls generalizing c with
  | nil => rfl
  | cons call calls ih =>
      refine (ih (call.run c)).trans ?_
      cases call with
      | get parse now d => exact get_interval parse now d c
      | dispose => rfl

/-- A cache is disposed of for ever. -/
theorem disposed_history_iff :
    (history calls c).disposed = true ↔ c.disposed = true ∨ Call.dispose ∈ calls := by
  induction calls generalizing c with
  | nil => simp [history]
  | cons call calls ih =>
      rw [history, List.foldl_cons, ← history, ih]
      cases call with
      | get parse now d => simp [Call.run]
      | dispose => simp [Call.run, ModelCache.dispose]

theorem WellFormed.history (h : c.WellFormed) (calls : List (Call τ ε α)) :
    (history calls c).WellFormed := by
  induction calls generalizing c with
  | nil => exact h
  | cons call calls ih =>
      apply ih
      cases call with
      | get parse now d => exact h.get parse now d
      | dispose => exact h.dispose

end History

/-! ## Accesses that give a model -/

section Renewal

variable [LinearOrder τ] [Sub τ] {parse : Document → Except ε α} {now : τ} {d : Document}
  {c c' : ModelCache τ α}

/-- Of the entries that are kept none was used before the one of an address. -/
def LeastRecent (now : τ) (c : ModelCache τ α) (old : String) : Prop :=
  ∃ e, (c.kept now).get? old = some e ∧
    ∀ uri x, (c.kept now).get? uri = some x → e.lastUse ≤ x.lastUse

/-- What an access that gives a model makes of a cache. -/
structure Renews (now : τ) (d : Document) (model : α) (c c' : ModelCache τ α) : Prop where
  /-- The document has an entry of its version and language that was used just now. -/
  present : c'.entries.get? d.uri = some ⟨d.version, d.languageId, now, model⟩
  /-- Every entry was used in the interval before the access. -/
  recent : ∀ uri e, c'.entries.get? uri = some e → now - c.interval ≤ e.lastUse
  bounded : (c'.size : Int) ≤ c.maxEntries
  /-- The entries that were used in the interval before the access survive it as they are. -/
  survivors : ∀ uri e, (c.kept now).get? uri = some e ↔
    c.entries.get? uri = some e ∧ now - c.interval ≤ e.lastUse
  /-- One of them gives way just if they fill the cache without one for the document. -/
  others :
    if d.uri ∉ (c.kept now).keys ∧ ((c.kept now).length : Int) = c.maxEntries then
      ∃ old, c.LeastRecent now old ∧ ∀ uri, uri ≠ d.uri →
        c'.entries.get? uri = if uri = old then none else (c.kept now).get? uri
    else ∀ uri, uri ≠ d.uri → c'.entries.get? uri = (c.kept now).get? uri

theorem IsOldest.leastRecent {key : String} {e : Entry τ α} (h : IsOldest (key, e) (c.kept now))
    (hnodup : (c.kept now).keys.Nodup) : c.LeastRecent now key := by
  refine ⟨e, Table.get?_of_mem hnodup h.mem, ?_⟩
  intro uri x hx
  exact h.lastUse_le (Table.mem_of_get? hx)

/-- What is found beside a stored document was found among what is kept. -/
theorem Room.get?_kept {uri uri' : String} {room : Table (Entry τ α)} {e : Entry τ α}
    (h : c.Room now uri room) (he : room.get? uri' = some e) : (c.kept now).get? uri' = some e := by
  cases h with
  | kept _ => exact he
  | without key _ _ _ _ =>
      rw [Table.get?_erase] at he
      split at he
      · cases he
      · exact he

theorem WellFormed.renews {model : α} (h : c.WellFormed) (hpast : now - c.interval ≤ now)
    (hget : c.get parse now d = (.ok model, c')) : Renews now d model c c' := by
  obtain ⟨halive, room, hroom, rfl⟩ := exists_room_of_get hget
  refine ⟨?_, ?_, h.length_room_put hroom _, fun uri e => h.get?_kept_eq_some_iff, ?_⟩
  · rw [Table.get?_put, if_pos rfl]
  · intro uri e he
    rw [Table.get?_put] at he
    split at he
    · cases he
      exact hpast
    · exact (h.get?_kept_eq_some_iff.mp (hroom.get?_kept he)).2
  · cases hroom with
    | kept hspace =>
        have hnot : ¬ (d.uri ∉ (c.kept now).keys ∧ ((c.kept now).length : Int) = c.maxEntries) := by
          rintro ⟨hnew, hfull⟩
          exact Int.ne_of_lt (hspace.resolve_left hnew) hfull
        rw [if_neg hnot]
        intro uri huri
        rw [Table.get?_put, if_neg huri]
    | without key e hnew hfull hold =>
        have hmem : key ∈ (c.kept now).keys := List.mem_map_of_mem hold.mem
        rw [if_pos ⟨hnew, Int.le_antisymm (h.length_kept_le_of_mem hmem) hfull⟩]
        refine ⟨key, hold.leastRecent (h.nodup_kept now), ?_⟩
        intro uri huri
        rw [Table.get?_put, if_neg huri, Table.get?_erase]

/-- After any history an access that gives a model drops what was not used in the interval before it
and, if need be, one entry of which no other is older; it changes nothing else but the entry of its
document. The cache gives a model of every document that can be parsed, until it is disposed of:
then it is empty for ever.

An interval leads back in time. In exact arithmetic every interval does that is not negative, and so
does an infinite one. -/
theorem history_turnover {maxEntries : Int} {interval : τ} (hmax : 1 ≤ maxEntries)
    (hpast : ∀ t : τ, t - interval ≤ t) (calls : List (Call τ ε α))
    (parse : Document → Except ε α) (now : τ) (d : Document) :
    let c : ModelCache τ α := history calls (.empty maxEntries interval)
    (∀ model c', c.get parse now d = (.ok model, c') → Renews now d model c c') ∧
      (Call.dispose ∉ calls → (∃ model, parse d = .ok model) →
        ∃ model, (c.get parse now d).1 = .ok model) ∧
      (Call.dispose ∈ calls → c.entries = [] ∧ c.get parse now d = (.error .disposed, c)) := by
  intro c
  have hc : c.WellFormed := (WellFormed.empty maxEntries interval).history calls
  have hinterval : c.interval = interval := history_interval calls _
  have hdisposed : c.disposed = true ↔ Call.dispose ∈ calls := by
    rw [disposed_history_iff]
    simp [ModelCache.empty]
  refine ⟨?_, ?_, ?_⟩
  · intro model c' hget
    exact hc.renews (hinterval ▸ hpast now) hget
  · rintro halive ⟨model, hparse⟩
    have hmax' : 1 ≤ c.maxEntries := by
      rw [history_maxEntries]
      exact hmax
    exact exists_of_get now hmax' (Bool.eq_false_iff.mpr (halive ∘ hdisposed.mp)) hparse
  · intro hmem
    have hgone := hdisposed.mpr hmem
    exact ⟨hc.entries_of_disposed hgone, get_of_disposed hgone parse now d⟩

/-! ### A full cache with an old entry -/

namespace Full

/-- The number of characters, of which there must be some. -/
abbrev count : Document → Except Unit Nat := Narrow.count

/-- Calls after which two documents fill a cache: one that was asked for again in another version,
and one that nobody has asked for since. -/
def calls : List (Call Int Unit Nat) :=
  [.get count 0 ⟨"file:///a.ts", "ts", 0, "a"⟩, .get count 1 ⟨"file:///b.ts", "ts", 0, "bc"⟩,
    .get count 2 ⟨"file:///a.ts", "ts", 1, "abc"⟩]

/-- The document that comes next. -/
def next : Document := ⟨"file:///c.ts", "ts", 0, "d"⟩

end Full

open Full in
theorem history_turnover_full :
    Renews 3 next 1 (history calls (.empty 2 10))
      ⟨2, 10, [("file:///a.ts", ⟨1, "ts", 2, 3⟩), ("file:///c.ts", ⟨0, "ts", 3, 1⟩)], false⟩ := by
  have hpast : ∀ t : Int, t - 10 ≤ t := fun t => by omega
  have hmany : (1 : Int) ≤ 2 := by decide
  exact (history_turnover hmany hpast calls count 3 next).1 1 _ rfl

end Renewal

/-! ## Accesses that fail -/

section Failure

variable [LinearOrder τ] [Sub τ] {parse : Document → Except ε α} {now later : τ} {d : Document}
  {c : ModelCache τ α}

/-- What the clock shows at a call, if the call reads it. -/
def Call.time? : Call τ ε α → Option τ
  | get _ now _ => some now
  | dispose => none

/-- What is dropped at a time is dropped at any later one as well. -/
theorem kept_sweep (h : now - c.interval ≤ later - c.interval) :
    (c.sweep now).kept later = c.kept later := by
  rw [kept, kept, dropBefore, dropBefore]
  change (c.kept now).filter (fun e => !decide (e.2.lastUse < later - c.interval)) = _
  rw [kept, dropBefore, List.filter_filter]
  refine List.filter_congr fun e _ => ?_
  rw [Bool.and_eq_left_iff_imp]
  simp only [Bool.not_eq_true', decide_eq_false_iff_not, not_lt]
  exact h.trans

/-- An access does not notice an earlier dropping. -/
theorem get_sweep (halive : c.disposed = false) (h : now - c.interval ≤ later - c.interval) :
    (c.sweep now).get parse later d = c.get parse later d := by
  have hkept := kept_sweep h
  have hswept : ¬ (c.sweep now).disposed = true := Bool.eq_false_iff.mp halive
  have hdisposed : ¬ c.disposed = true := Bool.eq_false_iff.mp halive
  rw [kept, kept] at hkept
  rw [get, get, if_neg hswept, if_neg hdisposed, hkept]
  rfl

/-- No later call notices a dropping if the clock does not go back. -/
theorem outcomes_sweep (halive : c.disposed = false) {calls : List (Call τ ε α)}
    (h : ∀ call ∈ calls, ∀ t ∈ call.time?, now - c.interval ≤ t - c.interval) :
    outcomes calls (c.sweep now) = outcomes calls c := by
  cases calls with
  | nil => rfl
  | cons call calls =>
      cases call with
      | get parse later d =>
          have hget : (c.sweep now).get parse later d = c.get parse later d :=
            get_sweep halive (h _ (.head _) later rfl)
          simp only [outcomes, Call.result?, Call.run, hget]
      | dispose => rfl

/-- After any history an access for a document that cannot be parsed, and that no entry serves for,
fails for this reason. It drops what was not used in the interval before it and changes nothing
else; whatever is asked later gives what it gives after this dropping, and if the clock does not go
back, what it gives without the access. -/
theorem history_unparsable {maxEntries : Int} {interval : τ} {calls : List (Call τ ε α)} {e : ε}
    (halive : Call.dispose ∉ calls) (hparse : parse d = .error e)
    (hmiss : ∀ x, (history calls (.empty maxEntries interval)).entries.get? d.uri = some x →
      now - interval ≤ x.lastUse → x.serves d = false) :
    let c : ModelCache τ α := history calls (.empty maxEntries interval)
    c.get parse now d = (.error (.unparsable e), c.sweep now) ∧
      (∀ uri x, (c.sweep now).entries.get? uri = some x ↔
        c.entries.get? uri = some x ∧ now - interval ≤ x.lastUse) ∧
      (∀ further : List (Call τ ε α),
        outcomes further (c.get parse now d).2 = outcomes further (c.sweep now)) ∧
      ∀ further : List (Call τ ε α),
        (∀ call ∈ further, ∀ t ∈ call.time?, now - interval ≤ t - interval) →
          outcomes further (c.get parse now d).2 = outcomes further c := by
  intro c
  have hc : c.WellFormed := (WellFormed.empty maxEntries interval).history calls
  have hinterval : c.interval = interval := history_interval calls _
  have hdisposed : c.disposed = false := by
    rw [Bool.eq_false_iff, ne_eq, disposed_history_iff]
    simpa [ModelCache.empty] using halive
  have hkept : ∀ uri x, (c.kept now).get? uri = some x ↔
      c.entries.get? uri = some x ∧ now - interval ≤ x.lastUse :=
    fun uri x => hinterval ▸ hc.get?_kept_eq_some_iff
  have hget : c.get parse now d = (.error (.unparsable e), c.sweep now) := by
    refine get_of_unparsable hdisposed (fun x hx => ?_) hparse
    obtain ⟨hentry, hrecent⟩ := (hkept d.uri x).mp hx
    exact hmiss x hentry hrecent
  refine ⟨hget, hkept, ?_, ?_⟩
  · intro further
    rw [hget]
  · intro further hfurther
    rw [hget]
    exact outcomes_sweep hdisposed (hinterval.symm ▸ hfurther)

open Full in
theorem history_unparsable_full :
    (history calls (.empty 2 10)).get count 11 ⟨"file:///a.ts", "ts", 2, ""⟩ =
      (.error (.unparsable ()), ⟨2, 10,
        [("file:///a.ts", ⟨1, "ts", 2, 3⟩), ("file:///b.ts", ⟨0, "ts", 1, 2⟩)], false⟩) := by
  have halive : Call.dispose ∉ calls := by simp [calls]
  have hmiss : ∀ x, (history calls (.empty 2 10)).entries.get? "file:///a.ts" = some x →
      (11 : Int) - 10 ≤ x.lastUse → x.serves ⟨"file:///a.ts", "ts", 2, ""⟩ = false := by
    rintro x hx -
    obtain rfl : (⟨1, "ts", 2, 3⟩ : Entry Int Nat) = x := Option.some.inj hx
    rfl
  exact (history_unparsable halive rfl hmiss).1

open Full in
/-- An entry serves for a document of its version and language that cannot be parsed, and a cache
that is disposed of parses nothing. -/
theorem unparsable_unnoticed :
    count ⟨"file:///b.ts", "ts", 0, ""⟩ = .error () ∧
      ((history calls (.empty 2 10)).get count 3 ⟨"file:///b.ts", "ts", 0, ""⟩).1 = .ok 2 ∧
      ((history (calls ++ [.dispose]) (.empty 2 10)).get count 3
        ⟨"file:///b.ts", "ts", 0, ""⟩).1 = .error .disposed :=
  ⟨rfl, rfl, rfl⟩

end Failure

end SfcCheck.ModelCache
