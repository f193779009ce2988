import Mathlib.Data.List.Nodup
import SfcCheck.ModelCache

/-!
# A cache that nobody notices

The entries of a cache are models of documents that were asked for. As long as documents with one
address, version and language have one text, a cache with room for an entry gives what parsing
gives, whatever was asked before, whatever the clock shows and whatever was dropped meanwhile.
-/

namespace SfcCheck

/-- Documents that agree on their text wherever a cache takes them for the same. -/
def Document.Agree (ds : List Document) : Prop :=
  ∀ a ∈ ds, ∀ b ∈ ds, a.uri = b.uri → a.version = b.version → a.languageId = b.languageId →
    a.text = b.text

/-- Documents that agree are equal wherever a cache takes them for the same. -/
theorem Document.Agree.eq {ds : List Document} (h : Agree ds) {a b : Document} (ha : a ∈ ds)
    (hb : b ∈ ds) (huri : a.uri = b.uri) (hversion : a.version = b.version)
    (hlanguage : a.languageId = b.languageId) : a = b := by
  have htext := h a ha b hb huri hversion hlanguage
  cases a
  cases b
  simp_all

theorem Document.Agree.of_subset {ds ds' : List Document} (h : Agree ds) (hsub : ds' ⊆ ds) :
    Agree ds' :=
  fun a ha b hb => h a (hsub ha) b (hsub hb)

/-- Documents at different addresses agree. -/
theorem Document.Agree.of_nodup {ds : List Document} (h : (ds.map (·.uri)).Nodup) : Agree ds := by
  intro a ha b hb huri _ _
  rw [List.inj_on_of_nodup_map h ha hb huri]

namespace ModelCache

variable {τ α ε : Type} [LT τ] [DecidableLT τ]

/-! ## What dropping leaves -/

theorem mem_of_mem_dropBefore {cutoff : τ} {t : Table (Entry τ α)} {e : String × Entry τ α}
    (h : e ∈ dropBefore cutoff t) : e ∈ t :=
  (List.mem_filter.mp h).1

theorem mem_of_mem_makeRoom {maxEntries : Int} {t room : Table (Entry τ α)}
    {e : String × Entry τ α} (h : makeRoom maxEntries t = some room) (he : e ∈ room) : e ∈ t := by
  simp only [makeRoom] at h
  split at h
  · obtain ⟨k, -, rfl⟩ := Option.map_eq_some_iff.mp h
    exact (List.mem_filter.mp he).1
  · cases h
    exact he

/-- A cache that may hold an entry finds room for one. -/
theorem makeRoom_isSome {maxEntries : Int} (hmax : 1 ≤ maxEntries) (t : Table (Entry τ α)) :
    (makeRoom maxEntries t).isSome = true := by
  simp only [makeRoom]
  split
  · next hfull =>
      cases t with
      | nil =>
          simp only [List.length_nil] at hfull
          omega
      | cons e t => rfl
  · rfl

/-! ## What one access does -/

variable [Sub τ] {parse : Document → Except ε α} {now : τ} {d : Document} {c : ModelCache τ α}

/-- What is left of a cache at a time. -/
def kept (now : τ) (c : ModelCache τ α) : Table (Entry τ α) :=
  dropBefore (now - c.interval) c.entries

/-- The outcomes of an access, with what the cache is afterwards. -/
inductive Access (parse : Document → Except ε α) (now : τ) (d : Document) (c : ModelCache τ α) :
    Except (Failure ε) α × ModelCache τ α → Prop where
  | disposed (hdisposed : c.disposed = true) : Access parse now d c (.error .disposed, c)
  | hit (e : Entry τ α) (halive : c.disposed = false) (hknown : (c.kept now).get? d.uri = some e)
      (hserves : e.serves d = true) :
      Access parse now d c
        (.ok e.model, { c with entries := (c.kept now).put d.uri { e with lastUse := now } })
  | unparsable (e : ε) (halive : c.disposed = false) (hparse : parse d = .error e) :
      Access parse now d c (.error (.unparsable e), { c with entries := c.kept now })
  | full (model : α) (halive : c.disposed = false) (hparse : parse d = .ok model)
      (hroom : makeRoom c.maxEntries (c.kept now) = none) :
      Access parse now d c (.error .nothingToDrop, { c with entries := c.kept now })
  | stored (model : α) (room : Table (Entry τ α)) (halive : c.disposed = false)
      (hparse : parse d = .ok model) (hsub : ∀ x ∈ room, x ∈ c.kept now) :
      Access parse now d c
        (.ok model, { c with entries := room.put d.uri ⟨d.version, d.languageId, now, model⟩ })

theorem access (parse : Document → Except ε α) (now : τ) (d : Document) (c : ModelCache τ α) :
    Access parse now d c (c.get parse now d) := by
  unfold get
  cases hdisposed : c.disposed with
  | true =>
      rw [if_pos rfl]
      exact .disposed hdisposed
  | false =>
      rw [if_neg Bool.false_ne_true, ← hdisposed]
      dsimp only
      split
      · next e he =>
          obtain ⟨hknown, hserves⟩ := Option.filter_eq_some_iff.mp he
          exact .hit e hdisposed hknown hserves
      · split
        · next e hparse => exact .unparsable e hdisposed hparse
        · next model hparse =>
            split
            · next hroom =>
                split at hroom
                · cases hroom
                · exact .full model hdisposed hparse hroom
            · next room hroom =>
                refine .stored model room hdisposed hparse fun x hx => ?_
                split at hroom
                · cases hroom
                  exact hx
                · exact mem_of_mem_makeRoom hroom hx

@[simp] theorem get_maxEntries (parse : Document → Except ε α) (now : τ) (d : Document)
    (c : ModelCache τ α) : (c.get parse now d).2.maxEntries = c.maxEntries := by
  have h := access parse now d c
  generalize c.get parse now d = r at h ⊢
  cases h <;> rfl

@[simp] theorem get_disposed (parse : Document → Except ε α) (now : τ) (d : Document)
    (c : ModelCache τ α) : (c.get parse now d).2.disposed = c.disposed := by
  have h := access parse now d c
  generalize c.get parse now d = r at h ⊢
  cases h <;> rfl

/-! ## Entries are models of documents -/

/-- Every entry is the model of one of the documents, under its address. -/
def Holds (parse : Document → Except ε α) (ds : List Document) (c : ModelCache τ α) : Prop :=
  ∀ x ∈ c.entries, ∃ d ∈ ds, d.uri = x.1 ∧ x.2.serves d = true ∧ parse d = .ok x.2.model

omit [LT τ] [DecidableLT τ] [Sub τ] in
theorem Holds.empty (parse : Document → Except ε α) (maxEntries : Int) (interval : τ) :
    Holds parse [] (.empty maxEntries interval) := by
  intro x hx
  cases hx

/-- An access adds the model of its document, if any. -/
theorem Holds.get {ds : List Document} (h : Holds parse ds c) :
    Holds parse (d :: ds) (c.get parse now d).2 := by
  have hkept : ∀ x ∈ c.kept now,
      ∃ d' ∈ d :: ds, d'.uri = x.1 ∧ x.2.serves d' = true ∧ parse d' = .ok x.2.model := by
    intro x hx
    obtain ⟨d', hd', hmodel⟩ := h x (mem_of_mem_dropBefore hx)
    exact ⟨d', .tail _ hd', hmodel⟩
  have step := access parse now d c
  generalize c.get parse now d = r at step ⊢
  intro x hx
  cases step with
  | disposed _ =>
      obtain ⟨d', hd', hmodel⟩ := h x hx
      exact ⟨d', .tail _ hd', hmodel⟩
  | hit e _ hknown _ =>
      rcases Table.mem_of_mem_put hx with rfl | hx
      · obtain ⟨d', hd', hmodel⟩ := hkept _ (Table.mem_of_get? hknown)
        exact ⟨d', hd', hmodel⟩
      · exact hkept x hx
  | unparsable _ _ _ => exact hkept x hx
  | full _ _ _ _ => exact hkept x hx
  | stored model room _ hparse hsub =>
      rcases Table.mem_of_mem_put hx with rfl | hx
      · exact ⟨d, .head _, rfl, by simp [Entry.serves], hparse⟩
      · exact hkept x (hsub x hx)

omit [LT τ] [DecidableLT τ] [Sub τ] in
theorem Holds.of_subset {ds ds' : List Document} (h : Holds parse ds c) (hsub : ds ⊆ ds') :
    Holds parse ds' c := by
  intro x hx
  obtain ⟨d', hd', hmodel⟩ := h x hx
  exact ⟨d', hsub hd', hmodel⟩

/-- An entry that serves for a document is its model. -/
theorem Holds.parse_of_hit {ds : List Document} {e : Entry τ α} (h : Holds parse ds c)
    (hagree : Document.Agree (d :: ds)) (hknown : (c.kept now).get? d.uri = some e)
    (hserves : e.serves d = true) : parse d = .ok e.model := by
  obtain ⟨d', hd', huri, hserves', hparse⟩ :=
    h _ (mem_of_mem_dropBefore (Table.mem_of_get? hknown))
  simp only [Entry.serves, Bool.and_eq_true, beq_iff_eq] at hserves hserves'
  have hsame : d' = d := hagree.eq (.tail _ hd') (.head _) huri
    (hserves'.1.symm.trans hserves.1) (hserves'.2.symm.trans hserves.2)
  rwa [← hsame]

/-- What a cache gives is what parsing gives, whether or not there was room for it. -/
theorem Holds.parse_of_get {ds : List Document} {model : α} {c' : ModelCache τ α}
    (h : Holds parse ds c) (hagree : Document.Agree (d :: ds))
    (hget : c.get parse now d = (.ok model, c')) : parse d = .ok model := by
  have step := access parse now d c
  rw [hget] at step
  cases step with
  | hit e _ hknown hserves => exact h.parse_of_hit hagree hknown hserves
  | stored _ room _ hparse _ => exact hparse

variable (now) in
/-- A cache with room for an entry gives what parsing gives. -/
theorem Holds.get_eq {ds : List Document} (h : Holds parse ds c) (hagree : Document.Agree (d :: ds))
    (hmax : 1 ≤ c.maxEntries) (halive : c.disposed = false) :
    (c.get parse now d).1 = (parse d).mapError .unparsable := by
  have step := access parse now d c
  generalize c.get parse now d = r at step ⊢
  cases step with
  | disposed hdisposed =>
      rw [halive] at hdisposed
      cases hdisposed
  | hit e _ hknown hserves =>
      rw [h.parse_of_hit hagree hknown hserves]
      rfl
  | unparsable e _ hparse => rw [hparse]; rfl
  | full model _ _ hroom =>
      have hsome := makeRoom_isSome hmax (c.kept now)
      rw [hroom] at hsome
      cases hsome
  | stored model room _ hparse _ => rw [hparse]; rfl

/-! ## Runs -/

/-- The cache after accesses for documents, each with what the clock shows. -/
def after (parse : Document → Except ε α) (visits : List (τ × Document)) (c : ModelCache τ α) :
    ModelCache τ α :=
  visits.foldl (fun c v => (c.get parse v.1 v.2).2) c

@[simp] theorem after_maxEntries (parse : Document → Except ε α) (visits : List (τ × Document))
    (c : ModelCache τ α) : (c.after parse visits).maxEntries = c.maxEntries := by
  induction visits generalizing c with
  | nil => rfl
  | cons v visits ih => exact (ih _).trans (get_maxEntries ..)

@[simp] theorem after_disposed (parse : Document → Except ε α) (visits : List (τ × Document))
    (c : ModelCache τ α) : (c.after parse visits).disposed = c.disposed := by
  induction visits generalizing c with
  | nil => rfl
  | cons v visits ih => exact (ih _).trans (get_disposed ..)

/-- After any accesses every entry is the model of a document that was asked for. -/
theorem Holds.after {ds : List Document} (h : Holds parse ds c) (visits : List (τ × Document)) :
    Holds parse ((visits.map (·.2)).reverse ++ ds) (c.after parse visits) := by
  induction visits generalizing c ds with
  | nil => exact h
  | cons v visits ih =>
      rw [List.map_cons, List.reverse_cons, List.append_assoc]
      exact ih h.get

/-! ## Results -/

/-- What accesses for documents give one after the other, each with what the clock shows. -/
def results (parse : Document → Except ε α) :
    List (τ × Document) → ModelCache τ α → List (Except (Failure ε) α)
  | [], _ => []
  | v :: visits, c =>
    (c.get parse v.1 v.2).1 :: results parse visits (c.get parse v.1 v.2).2

/-- Every access to a cache with room for an entry gives what parsing gives. -/
theorem Holds.results_eq {ds : List Document} {visits : List (τ × Document)} (h : Holds parse ds c)
    (hagree : Document.Agree (visits.map (·.2) ++ ds)) (hmax : 1 ≤ c.maxEntries)
    (halive : c.disposed = false) :
    results parse visits c = visits.map fun v => (parse v.2).mapError .unparsable := by
  induction visits generalizing c ds with
  | nil => rfl
  | cons v visits ih =>
      have hfirst : Document.Agree (v.2 :: ds) :=
        hagree.of_subset (by simp)
      have hrest : Document.Agree (visits.map (·.2) ++ v.2 :: ds) :=
        hagree.of_subset (by simp)
      rw [results, List.map_cons, h.get_eq v.1 hfirst hmax halive,
        ih h.get hrest (by simpa using hmax) (by simpa using halive)]

/-- Every access to a cache that may hold an entry gives what parsing gives. So accesses for the
same documents give the same, however many entries a cache may hold, however long it keeps them and
whatever its clock shows. -/
theorem results_transparent {τ' : Type} [LT τ'] [DecidableLT τ'] [Sub τ']
    (parse : Document → Except ε α) {maxEntries maxEntries' : Int} (interval : τ) (interval' : τ')
    {visits : List (τ × Document)} {visits' : List (τ' × Document)} (hmax : 1 ≤ maxEntries)
    (hmax' : 1 ≤ maxEntries') (hagree : Document.Agree (visits.map (·.2)))
    (hsame : visits'.map (·.2) = visits.map (·.2)) :
    results parse visits (.empty maxEntries interval) =
        visits.map (fun v => (parse v.2).mapError .unparsable) ∧
      results parse visits' (.empty maxEntries' interval') =
        results parse visits (.empty maxEntries interval) := by
  have hfirst : results parse visits (.empty maxEntries interval) =
      visits.map fun v => (parse v.2).mapError .unparsable :=
    (Holds.empty parse maxEntries interval).results_eq (by simpa using hagree) hmax rfl
  have hsecond : results parse visits' (.empty maxEntries' interval') =
      visits'.map fun v => (parse v.2).mapError .unparsable :=
    (Holds.empty parse maxEntries' interval').results_eq (by simpa [hsame] using hagree) hmax' rfl
  refine ⟨hfirst, ?_⟩
  calc results parse visits' (.empty maxEntries' interval')
      = (visits'.map (·.2)).map (fun d => (parse d).mapError .unparsable) := by
        rw [hsecond, List.map_map]
        rfl
    _ = (visits.map (·.2)).map (fun d => (parse d).mapError .unparsable) := by rw [hsame]
    _ = results parse visits (.empty maxEntries interval) := by
        rw [hfirst, List.map_map]
        rfl

/-! ### A cache with one place -/

namespace Narrow

/-- The number of characters, of which there must be some. -/
def count (d : Document) : Except Unit Nat := if d.text = "" then .error () else .ok d.text.length

/-- Accesses of which one comes from the cache, one finds nothing to parse, one finds another
version and one comes after a long time. -/
def visits : List (Int × Document) :=
  [(0, ⟨"file:///a.ts", "ts", 0, "ab"⟩), (1, ⟨"file:///a.ts", "ts", 0, "ab"⟩),
    (2, ⟨"file:///b.ts", "ts", 0, ""⟩), (3, ⟨"file:///a.ts", "ts", 1, "abc"⟩),
    (4, ⟨"file:///c.ts", "ts", 0, "d"⟩), (90, ⟨"file:///a.ts", "ts", 1, "abc"⟩)]

/-- The same accesses with a clock that stands still. -/
def frozen : List (Nat × Document) := visits.map fun v => (0, v.2)

end Narrow

open Narrow in
theorem results_transparent_narrow :
    results count visits (.empty 1 10) =
        [.ok 2, .ok 2, .error (.unparsable ()), .ok 3, .ok 1, .ok 3] ∧
      results count frozen (.empty 7 0) = results count visits (.empty 1 10) := by
  have hagree : Document.Agree (visits.map (·.2)) := by
    simp [Document.Agree, visits]
  have hsame : frozen.map (·.2) = visits.map (·.2) := rfl
  have hmany : (1 : Int) ≤ 7 := by decide
  obtain ⟨hparsed, hequal⟩ := results_transparent count 10 0 (Int.le_refl 1) hmany hagree hsame
  exact ⟨hparsed.trans rfl, hequal⟩

end ModelCache

end SfcCheck
