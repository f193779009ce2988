import SfcCheck.Proofs.ModelCache.Recency

/-!
# Which documents a cache holds

As long as the clock does not go back and nothing gets too old, every entry was used when its
document was last served, and what is dropped from a full cache was not used later than what is
kept. Where the clock has moved on whenever a document in the cache was asked for again, the cache
holds the documents that were served last, whatever else the clock shows.
-/

namespace SfcCheck.ModelCache

variable {τ α ε : Type}

/-! ## Runs -/

section Runs

variable [LinearOrder τ] [Sub τ] {parse : Document → Except ε α} {visits pre : List (τ × Document)}
  {v : τ × Document} {c c' : ModelCache τ α}

theorem after_concat (parse : Document → Except ε α) (pre : List (τ × Document))
    (v : τ × Document) (c : ModelCache τ α) :
    c.after parse (pre ++ [v]) = ((c.after parse pre).get parse v.1 v.2).2 := by
  rw [after, List.foldl_append]
  rfl

theorem WellFormed.after (h : c.WellFormed) (parse : Document → Except ε α)
    (visits : List (τ × Document)) : (c.after parse visits).WellFormed := by
  induction visits generalizing c with
  | nil => exact h
  | cons v visits ih => exact ih (h.get parse v.1 v.2)

@[simp] theorem after_interval (parse : Document → Except ε α) (visits : List (τ × Document))
    (c : ModelCache τ α) : (c.after parse visits).interval = c.interval := by
  induction visits generalizing c with
  | nil => rfl
  | cons v visits ih => exact (ih _).trans (get_interval ..)

/-- The accesses that give a model, in order. -/
def served (parse : Document → Except ε α) :
    List (τ × Document) → ModelCache τ α → List (τ × Document)
  | [], _ => []
  | v :: visits, c =>
    let rest := served parse visits (c.get parse v.1 v.2).2
    if (c.get parse v.1 v.2).1.isOk then v :: rest else rest

theorem served_concat (parse : Document → Except ε α) (pre : List (τ × Document))
    (v : τ × Document) (c : ModelCache τ α) :
    served parse (pre ++ [v]) c = served parse pre c ++
      if ((c.after parse pre).get parse v.1 v.2).1.isOk then [v] else [] := by
  induction pre generalizing c with
  | nil => rfl
  | cons w pre ih =>
      rw [List.cons_append, served, served, ih]
      split <;> rfl

theorem served_sublist (parse : Document → Except ε α) (visits : List (τ × Document))
    (c : ModelCache τ α) : (served parse visits c).Sublist visits := by
  induction visits generalizing c with
  | nil => exact .slnil
  | cons v visits ih =>
      rw [served]
      split
      · exact (ih _).cons_cons v
      · exact (ih _).cons v

/-- Accesses during which the clock does not go back and nothing gets too old. -/
structure Steady (parse : Document → Except ε α) (visits : List (τ × Document))
    (c : ModelCache τ α) : Prop where
  clock : visits.Pairwise fun v w => v.1 ≤ w.1
  lasting : ∀ pre v, pre ++ [v] <+: visits →
    (c.after parse pre).kept v.1 = (c.after parse pre).entries

/-- The clock has moved on wherever a document in the cache is asked for again, unless that was the
last one to be served. -/
def MovesOn (parse : Document → Except ε α) (visits : List (τ × Document)) (c : ModelCache τ α) :
    Prop :=
  ∀ pre v, pre ++ [v] <+: visits → v.2.uri ∈ (c.after parse pre).uris →
    (served parse pre c).getLast?.map (·.2.uri) = some v.2.uri ∨ ∀ w ∈ pre, w.1 < v.1

/-- An access leaves no entries but earlier ones and its own. -/
theorem mem_of_get {now : τ} {d : Document} {x : String × Entry τ α}
    (hx : x ∈ (c.get parse now d).2.entries) : x ∈ c.entries ∨ now = x.2.lastUse := by
  rcases hget : c.get parse now d with ⟨result, c'⟩
  rw [hget] at hx
  cases result with
  | error f =>
      rcases get_error hget with rfl | rfl
      · exact .inl hx
      · exact .inl (mem_of_mem_dropBefore hx)
  | ok model =>
      obtain ⟨-, room, hroom, rfl⟩ := exists_room_of_get hget
      rcases Table.mem_of_mem_put hx with rfl | hx
      · exact .inr rfl
      · exact .inl (mem_of_mem_dropBefore (hroom.mem_kept hx))

/-- Every entry was last used at one of the accesses. -/
theorem exists_visit_of_mem {maxEntries : Int} {interval : τ} {x : String × Entry τ α}
    (hx : x ∈ (after parse visits (.empty maxEntries interval)).entries) :
    ∃ w ∈ visits, w.1 = x.2.lastUse := by
  induction visits using List.reverseRecOn with
  | nil => cases hx
  | append_singleton pre v ih =>
      rw [after_concat] at hx
      rcases mem_of_get hx with hx | hlast
      · obtain ⟨w, hw, hlast⟩ := ih hx
        exact ⟨w, List.mem_append_left _ hw, hlast⟩
      · exact ⟨v, by simp, hlast⟩

/-- Nothing gets too old in a run that is not longer than the interval. -/
theorem Steady.of_brief (parse : Document → Except ε α) {maxEntries : Int} {interval : τ}
    (hclock : visits.Pairwise fun v w => v.1 ≤ w.1)
    (hbrief : ∀ v ∈ visits, ∀ w ∈ visits, v.1 - interval ≤ w.1) :
    Steady parse visits (.empty maxEntries interval) := by
  refine ⟨hclock, fun pre v hpre => List.filter_eq_self.mpr fun x hx => ?_⟩
  obtain ⟨w, hw, hlast⟩ := exists_visit_of_mem hx
  have hcutoff : v.1 - interval ≤ x.2.lastUse :=
    hlast ▸ hbrief v (hpre.subset (by simp)) w (hpre.subset (List.mem_append_left _ hw))
  simpa [after_interval, empty] using hcutoff

/-- A clock that never shows the same time twice always moves on. -/
theorem MovesOn.of_increasing (parse : Document → Except ε α) (c : ModelCache τ α)
    (h : visits.Pairwise fun v w => v.1 < w.1) : MovesOn parse visits c :=
  fun _ v hpre _ => .inr fun w hw =>
    (List.pairwise_append.mp (h.sublist hpre.sublist)).2.2 w hw v (List.mem_singleton.mpr rfl)

namespace Steady

theorem le (h : Steady parse visits c) (hpre : pre ++ [v] <+: visits) {w : τ × Document}
    (hw : w ∈ pre) : w.1 ≤ v.1 :=
  (List.pairwise_append.mp (h.clock.sublist hpre.sublist)).2.2 w hw v (List.mem_singleton.mpr rfl)

/-- What a run keeps: what an access keeps that gives a model. -/
theorem induct {P : List (τ × Document) → ModelCache τ α → Prop} (h : Steady parse visits c)
    (hstart : P [] c)
    (hstep : ∀ pre v room model, pre ++ [v] <+: visits →
      P (served parse pre c) (c.after parse pre) →
      (c.after parse pre).Room v.1 v.2.uri room →
      P (served parse pre c ++ [v]) { c.after parse pre with
        entries := room.put v.2.uri ⟨v.2.version, v.2.languageId, v.1, model⟩ })
    (hpre : pre <+: visits) : P (served parse pre c) (c.after parse pre) := by
  induction pre using List.reverseRecOn with
  | nil => exact hstart
  | append_singleton pre v ih =>
      have hbefore := ih ((List.prefix_append pre [v]).trans hpre)
      rw [served_concat, after_concat]
      rcases hget : (c.after parse pre).get parse v.1 v.2 with ⟨result, c'⟩
      cases result with
      | ok model =>
          obtain ⟨-, room, hroom, rfl⟩ := exists_room_of_get hget
          exact hstep pre v room model hpre hbefore hroom
      | error f =>
          have hsame : c' = c.after parse pre := by
            rcases get_error hget with hsame | hswept
            · exact hsame
            · rw [hswept, sweep, h.lasting pre v hpre]
          rw [hsame]
          simpa [Except.isOk, Except.toBool] using hbefore

end Steady

/-! ### What the clock tells -/

omit [Sub τ] in
/-- The last of some accesses for a document came after the others. -/
theorem le_of_find? {used : List (τ × Document)} (hclock : used.Pairwise fun v w => v.1 ≤ w.1)
    {p : τ × Document → Bool} {w : τ × Document} (hfind : used.reverse.find? p = some w)
    (hv : v ∈ used) (hp : p v = true) : v.1 ≤ w.1 := by
  obtain ⟨-, before, after, hsplit, hbefore⟩ := List.find?_eq_some_iff_append.mp hfind
  have hreverse : used.reverse.Pairwise fun v w => w.1 ≤ v.1 := List.pairwise_reverse.mpr hclock
  have hmem : v ∈ used.reverse := List.mem_reverse.mpr hv
  rw [hsplit] at hreverse hmem
  rcases List.mem_append.mp hmem with hmem | hmem
  · have hnot := hbefore v hmem
    rw [hp] at hnot
    cases hnot
  · rcases List.mem_cons.mp hmem with rfl | hmem
    · exact le_rfl
    · exact (List.pairwise_cons.mp (List.pairwise_append.mp hreverse).2.1).1 v hmem

/-- The entries of a cache are those of the accesses that gave a model: each was used when its
document was last served, and a document without an entry was not served after any entry was
used. -/
structure Traces (used : List (τ × Document)) (c : ModelCache τ α) : Prop where
  entry : ∀ uri e, c.entries.get? uri = some e →
    ∃ v, used.reverse.find? (·.2.uri == uri) = some v ∧ v.1 = e.lastUse ∧ e.serves v.2 = true
  gone : ∀ v ∈ used, v.2.uri ∉ c.uris → (c.size : Int) = c.maxEntries ∧
    ∀ uri e, c.entries.get? uri = some e → v.1 ≤ e.lastUse

omit [Sub τ] in
theorem Traces.lastUse_le {used : List (τ × Document)} {t : τ} (h : Traces used c)
    (hnow : ∀ w ∈ used, w.1 ≤ t) {uri : String} {e : Entry τ α}
    (he : c.entries.get? uri = some e) : e.lastUse ≤ t := by
  obtain ⟨w, hfind, hlast, -⟩ := h.entry uri e he
  exact hlast ▸ hnow w (List.mem_reverse.mp (List.mem_of_find?_eq_some hfind))

theorem Traces.stored {used : List (τ × Document)} {room : Table (Entry τ α)} (h : Traces used c)
    (hc : c.WellFormed) (hkept : c.kept v.1 = c.entries)
    (hclock : used.Pairwise fun v w => v.1 ≤ w.1) (hnow : ∀ w ∈ used, w.1 ≤ v.1)
    (hroom : c.Room v.1 v.2.uri room) (model : α) :
    Traces (used ++ [v])
      { c with entries := room.put v.2.uri ⟨v.2.version, v.2.languageId, v.1, model⟩ } := by
  constructor
  · intro uri e he
    rw [List.reverse_concat]
    by_cases huri : uri = v.2.uri
    · rw [Table.get?_put, if_pos huri] at he
      cases he
      exact ⟨v, by simp [huri], rfl, by simp [Entry.serves]⟩
    · rw [Table.get?_put, if_neg huri] at he
      have hentry := hroom.get?_kept he
      rw [hkept] at hentry
      rw [List.find?_cons_of_neg (by simpa using Ne.symm huri)]
      exact h.entry uri e hentry
  · intro w hw hgone
    rw [uris, Table.mem_keys_put, not_or] at hgone
    obtain ⟨hother, hroomless⟩ := hgone
    have hused : w ∈ used := by
      refine (List.mem_append.mp hw).resolve_right fun hlast => hother ?_
      rw [List.mem_singleton.mp hlast]
    cases hroom with
    | kept hspace =>
        rw [hkept] at hspace hroomless ⊢
        obtain ⟨hfull, hlast⟩ := h.gone w hused hroomless
        have hknown : v.2.uri ∈ c.entries.keys :=
          hspace.resolve_right fun hless => Int.ne_of_lt hless hfull
        refine ⟨?_, ?_⟩
        · rw [size, Table.length_put, if_pos hknown]
          exact hfull
        · intro uri e he
          rw [Table.get?_put] at he
          split at he
          · cases he
            exact hnow w hused
          · exact hlast uri e he
    | without key x hnew hfull hold =>
        have hkey : key ∈ (c.kept v.1).keys := List.mem_map_of_mem hold.mem
        have hlength := Table.length_erase (hc.nodup_kept v.1) hkey
        have hbound := hc.length_kept_le_of_mem hkey
        have hnew' : v.2.uri ∉ ((c.kept v.1).erase key).keys :=
          fun hmem => hnew (Table.mem_keys_erase.mp hmem).1
        refine ⟨?_, ?_⟩
        · rw [size, Table.length_put, if_neg hnew', hlength]
          exact Int.le_antisymm hbound hfull
        · intro uri e he
          rw [Table.get?_put] at he
          split at he
          · cases he
            exact hnow w hused
          · rw [Table.get?_erase] at he
            split at he
            · cases he
            · by_cases hdropped : w.2.uri = key
              · -- The document is the one that is dropped now, and its entry is an oldest one.
                have hx := Table.get?_of_mem (hc.nodup_kept v.1) hold.mem
                rw [hkept] at hx
                obtain ⟨w', hfind, hlast, -⟩ := h.entry key x hx
                calc w.1 ≤ w'.1 := le_of_find? hclock hfind hused (by simp [hdropped])
                  _ = x.lastUse := hlast
                  _ ≤ e.lastUse := hold.lastUse_le (Table.mem_of_get? he)
              · have hnot : w.2.uri ∉ c.uris := by
                  intro hmem
                  rw [uris, ← hkept] at hmem
                  exact hroomless (Table.mem_keys_erase.mpr ⟨hmem, hdropped⟩)
                rw [hkept] at he
                exact (h.gone w hused hnot).2 uri e he

/-- After accesses from the start the entries are those of the accesses that gave a model. -/
theorem Steady.traces {maxEntries : Int} {interval : τ}
    (h : Steady parse visits (.empty maxEntries interval)) (hpre : pre <+: visits) :
    Traces (served parse pre (.empty maxEntries interval))
      (after parse pre (.empty maxEntries interval)) := by
  have hstart : Traces [] (.empty maxEntries interval : ModelCache τ α) :=
    ⟨fun _ _ he => by simp [empty] at he, fun _ hv => by simp at hv⟩
  refine h.induct hstart ?_ hpre
  intro pre v room model hvisits ih hroom
  have hserved := served_sublist parse pre (.empty maxEntries interval)
  have hbefore : pre <+: visits := (List.prefix_append pre [v]).trans hvisits
  exact ih.stored ((WellFormed.empty maxEntries interval).after parse pre) (h.lasting pre v hvisits)
    ((h.clock.sublist hbefore.sublist).sublist hserved)
    (fun w hw => h.le hvisits (hserved.subset hw)) hroom model

/-! ### The documents that were asked for last -/

/-- Where the clock moves on, a cache holds the documents that were served last. -/
theorem Steady.listsUse {maxEntries : Int} {interval : τ}
    (h : Steady parse visits (.empty maxEntries interval))
    (hmoves : MovesOn parse visits (.empty maxEntries interval)) (hpre : pre <+: visits) :
    ListsUse (mostRecent maxEntries.toNat
        ((served parse pre (.empty maxEntries interval)).map (·.2.uri)))
      (after parse pre (.empty maxEntries interval)) := by
  refine h.induct
    (P := fun used c => ListsUse (mostRecent maxEntries.toNat (used.map (·.2.uri))) c)
    (listsUse_empty maxEntries interval _) ?_ hpre
  intro pre v room model hvisits ih hroom
  have htraces := h.traces ((List.prefix_append pre [v]).trans hvisits)
  have hsub := (served_sublist parse pre (.empty maxEntries interval)).subset
  rw [List.map_append, List.map_singleton]
  have hc : (after parse pre (.empty maxEntries interval)).WellFormed :=
    (WellFormed.empty maxEntries interval).after parse pre
  have hnow : ∀ w ∈ served parse pre (.empty maxEntries interval), w.1 ≤ v.1 :=
    fun w hw => h.le hvisits (hsub hw)
  refine ih.stored (after_maxEntries parse pre _) hc (h.lasting pre v hvisits) hroom
    (fun a x hx => htraces.lastUse_le hnow hx) ?_
  intro hmem
  refine (hmoves pre v hvisits hmem).imp (fun hlast => ?_) fun hless a x hx => ?_
  · rw [List.getLast?_map]
    exact hlast
  · obtain ⟨w, hfind, hw, -⟩ := htraces.entry a x hx
    exact hw ▸ hless w (hsub (List.mem_reverse.mp (List.mem_of_find?_eq_some hfind)))

/-! ### What decides whether a model is given -/

/-- A document was last served in the version and the language that it is asked for in. -/
def Answers (used : List Document) (d : Document) : Prop :=
  ∃ d', used.reverse.find? (·.uri == d.uri) = some d' ∧ d'.version = d.version ∧
    d'.languageId = d.languageId

theorem isOk_get_iff {now : τ} {d : Document} (hc : c.WellFormed) (halive : c.disposed = false) :
    (c.get parse now d).1.isOk = true ↔ 1 ≤ c.maxEntries ∧
      ((∃ e, (c.kept now).get? d.uri = some e ∧ e.serves d = true) ∨
        ∃ model, parse d = .ok model) := by
  constructor
  · intro hok
    rcases hget : c.get parse now d with ⟨result, c'⟩
    rw [hget] at hok
    cases result with
    | error f => cases hok
    | ok model =>
        obtain ⟨-, room, hroom, -⟩ := exists_room_of_get hget
        refine ⟨hc.one_le_of_room hroom ⟨d.version, d.languageId, now, model⟩, ?_⟩
        have step := access parse now d c
        rw [hget] at step
        cases step with
        | hit e _ hknown hserves => exact .inl ⟨e, hknown, hserves⟩
        | stored _ _ _ hparse _ => exact .inr ⟨model, hparse⟩
  · rintro ⟨hmax, ⟨e, hknown, hserves⟩ | ⟨model, hparse⟩⟩
    · rw [get_of_hit halive hknown hserves]
      rfl
    · obtain ⟨model', hget⟩ := exists_of_get now hmax halive hparse
      rw [hget]
      rfl

omit [Sub τ] in
theorem Traces.exists_serves_iff {used : List (τ × Document)} (h : Traces used c) (d : Document) :
    (∃ e, c.entries.get? d.uri = some e ∧ e.serves d = true) ↔
      d.uri ∈ c.uris ∧ Answers (used.map (·.2)) d := by
  have hanswers : ∀ e, c.entries.get? d.uri = some e →
      (e.serves d = true ↔ Answers (used.map (·.2)) d) := by
    intro e he
    obtain ⟨v, hfind, -, hserves⟩ := h.entry d.uri e he
    have hlast : (used.map (·.2)).reverse.find? (·.uri == d.uri) = some v.2 := by
      rw [← List.map_reverse, List.find?_map]
      exact congrArg (Option.map (·.2)) hfind
    simp only [Entry.serves, Bool.and_eq_true, beq_iff_eq] at hserves ⊢
    simp [Answers, hlast, hserves]
  constructor
  · rintro ⟨e, he, hserves⟩
    exact ⟨Table.mem_keys_iff.mpr ⟨e, he⟩, (hanswers e he).mp hserves⟩
  · rintro ⟨hmem, hserved⟩
    obtain ⟨e, he⟩ := Table.mem_keys_iff.mp hmem
    exact ⟨e, he, (hanswers e he).mpr hserved⟩

theorem Steady.of_prefix (h : Steady parse visits c) (hpre : pre <+: visits) :
    Steady parse pre c :=
  ⟨h.clock.sublist hpre.sublist, fun pre' v hv => h.lasting pre' v (hv.trans hpre)⟩

theorem MovesOn.of_prefix (h : MovesOn parse visits c) (hpre : pre <+: visits) :
    MovesOn parse pre c :=
  fun pre' v hv => h pre' v (hv.trans hpre)

/-- Where the clock moves on, whether an access gives a model depends on the documents that were
served before, and on nothing else that the clock shows. -/
theorem Steady.isOk_get_iff {maxEntries : Int} {interval : τ}
    (h : Steady parse (pre ++ [v]) (.empty maxEntries interval))
    (hmoves : MovesOn parse (pre ++ [v]) (.empty maxEntries interval)) :
    ((after parse pre (.empty maxEntries interval)).get parse v.1 v.2).1.isOk = true ↔
      1 ≤ maxEntries ∧
        ((v.2.uri ∈ mostRecent maxEntries.toNat
              ((served parse pre (.empty maxEntries interval)).map (·.2.uri)) ∧
            Answers ((served parse pre (.empty maxEntries interval)).map (·.2)) v.2) ∨
          ∃ model, parse v.2 = .ok model) := by
  have hpre : pre <+: pre ++ [v] := List.prefix_append pre [v]
  have hc : (after parse pre (.empty maxEntries interval)).WellFormed :=
    (WellFormed.empty maxEntries interval).after parse pre
  rw [ModelCache.isOk_get_iff hc (after_disposed parse pre _), after_maxEntries,
    h.lasting pre v List.prefix_rfl, (h.traces hpre).exists_serves_iff,
    (h.listsUse hmoves hpre).mem_iff]
  rfl

omit [LinearOrder τ] [Sub τ] in
theorem map_uri_eq {τ' : Type} {used : List (τ × Document)} {used' : List (τ' × Document)}
    (h : used'.map (·.2) = used.map (·.2)) : used'.map (·.2.uri) = used.map (·.2.uri) := by
  simpa [Function.comp_def] using congrArg (List.map (·.uri)) h

/-- Where both clocks move on, two runs serve the same documents. -/
theorem Steady.served_eq {τ' : Type} [LinearOrder τ'] [Sub τ'] {maxEntries : Int} {interval : τ}
    {interval' : τ'} {visits' : List (τ' × Document)}
    (h : Steady parse visits (.empty maxEntries interval))
    (h' : Steady parse visits' (.empty maxEntries interval'))
    (hmoves : MovesOn parse visits (.empty maxEntries interval))
    (hmoves' : MovesOn parse visits' (.empty maxEntries interval'))
    (hsame : visits'.map (·.2) = visits.map (·.2)) :
    (served parse visits' (.empty maxEntries interval')).map (·.2) =
      (served parse visits (.empty maxEntries interval)).map (·.2) := by
  induction visits using List.reverseRecOn generalizing visits' with
  | nil =>
      obtain rfl : visits' = [] := List.map_eq_nil_iff.mp hsame
      rfl
  | append_singleton pre v ih =>
      rw [List.map_append] at hsame
      obtain ⟨pre', last, rfl, hpre, hlast⟩ := List.map_eq_append_iff.mp hsame
      obtain ⟨v', rfl, hv⟩ := List.map_eq_singleton_iff.mp hlast
      have hprefix : pre <+: pre ++ [v] := List.prefix_append _ _
      have hprefix' : pre' <+: pre' ++ [v'] := List.prefix_append _ _
      have hbefore := ih (h.of_prefix hprefix) (h'.of_prefix hprefix') (hmoves.of_prefix hprefix)
        (hmoves'.of_prefix hprefix') hpre
      have hok : ((after parse pre' (.empty maxEntries interval')).get parse v'.1 v'.2).1.isOk =
          ((after parse pre (.empty maxEntries interval)).get parse v.1 v.2).1.isOk := by
        rw [Bool.eq_iff_iff, h.isOk_get_iff hmoves, h'.isOk_get_iff hmoves', hbefore,
          map_uri_eq hbefore, hv]
      rw [served_concat, served_concat, hok, List.map_append, List.map_append, hbefore]
      split <;> simp [hv]

/-- Where every document can be parsed, every access is served by a cache that may hold an entry. -/
theorem served_eq_self (hmax : 1 ≤ c.maxEntries) (halive : c.disposed = false)
    (hparse : ∀ v ∈ visits, ∃ model, parse v.2 = .ok model) : served parse visits c = visits := by
  induction visits generalizing c with
  | nil => rfl
  | cons v visits ih =>
      obtain ⟨model, hmodel⟩ := hparse v (.head _)
      obtain ⟨model', hget⟩ := exists_of_get v.1 hmax halive hmodel
      rw [served, hget, ih (by simpa using hmax) (by simpa using halive)
        fun w hw => hparse w (.tail _ hw)]
      rfl

/-- In two runs in which no clock goes back and nothing gets too old, the cache is full if it has
dropped a document that it served, and as far as the clock can tell no document in it was used
before the one that is gone. Where the clock has moved on whenever a document in the cache was asked
for again, the cache holds the documents that were served last, as many of them as it may; and where
both clocks have, both caches hold the same documents. Every document is served that can be parsed,
if the cache may hold an entry. -/
theorem uris_follow_use {τ' : Type} [LinearOrder τ'] [Sub τ'] (maxEntries : Int) {interval : τ}
    {interval' : τ'} {visits' : List (τ' × Document)}
    (h : Steady parse visits (.empty maxEntries interval))
    (h' : Steady parse visits' (.empty maxEntries interval'))
    (hsame : visits'.map (·.2) = visits.map (·.2)) (k : Nat) :
    let start : ModelCache τ α := .empty maxEntries interval
    let start' : ModelCache τ' α := .empty maxEntries interval'
    let c := start.after parse (visits.take k)
    let used := served parse (visits.take k) start
    (∀ v ∈ used, v.2.uri ∉ c.uris → (c.size : Int) = maxEntries ∧
        ∀ uri e, c.entries.get? uri = some e → v.1 ≤ e.lastUse) ∧
      (MovesOn parse (visits.take k) start →
        ∀ uri, uri ∈ c.uris ↔ uri ∈ mostRecent maxEntries.toNat (used.map (·.2.uri))) ∧
      (MovesOn parse (visits.take k) start → MovesOn parse (visits'.take k) start' →
        ∀ uri, uri ∈ (start'.after parse (visits'.take k)).uris ↔ uri ∈ c.uris) ∧
      (1 ≤ maxEntries → (∀ v ∈ visits.take k, ∃ model, parse v.2 = .ok model) →
        used = visits.take k) := by
  intro start start' c used
  have hk := h.of_prefix (List.take_prefix k visits)
  have hk' := h'.of_prefix (List.take_prefix k visits')
  have hmost : MovesOn parse (visits.take k) start →
      ∀ uri, uri ∈ c.uris ↔ uri ∈ mostRecent maxEntries.toNat (used.map (·.2.uri)) :=
    fun hmoves => (hk.listsUse hmoves List.prefix_rfl).mem_iff
  refine ⟨?_, hmost, ?_, fun hmax hparse => served_eq_self hmax rfl hparse⟩
  · intro v hv hgone
    obtain ⟨hfull, hlast⟩ := (hk.traces List.prefix_rfl).gone v hv hgone
    exact ⟨hfull.trans (after_maxEntries parse _ start), hlast⟩
  · intro hmoves hmoves' uri
    have htake : (visits'.take k).map (·.2) = (visits.take k).map (·.2) := by
      rw [List.map_take, List.map_take, hsame]
    have hserved := hk.served_eq hk' hmoves hmoves' htake
    rw [hmost hmoves, (hk'.listsUse hmoves' List.prefix_rfl).mem_iff, map_uri_eq hserved]

end Runs

/-! ### A document that is asked for again -/

namespace Again

/-- The number of characters, of which there must be some. -/
abbrev count : Document → Except Unit Nat := Narrow.count

/-- Accesses at some times for two documents, the first one again and a third one. -/
def visits (times : List Int) : List (Int × Document) :=
  times.zip [⟨"file:///a.ts", "ts", 0, "a"⟩, ⟨"file:///b.ts", "ts", 0, "b"⟩,
    ⟨"file:///a.ts", "ts", 0, "a"⟩, ⟨"file:///c.ts", "ts", 0, "c"⟩]

end Again

open Again in
theorem uris_follow_use_again :
    mostRecent 2 ((visits [0, 1, 2, 3]).map (·.2.uri)) = ["file:///c.ts", "file:///a.ts"] ∧
      ∀ uri, uri ∈ (after count (visits [0, 4, 5, 9]) (.empty 2 10)).uris ↔
        uri ∈ (after count (visits [0, 1, 2, 3]) (.empty 2 10)).uris := by
  have h : Steady count (visits [0, 1, 2, 3]) (.empty 2 10) :=
    .of_brief count (by decide) (by decide)
  have h' : Steady count (visits [0, 4, 5, 9]) (.empty 2 10) :=
    .of_brief count (by decide) (by decide)
  refine ⟨by decide, ?_⟩
  exact (uris_follow_use 2 h h' rfl 4).2.2.1 (.of_increasing count _ (by decide))
    (.of_increasing count _ (by decide))

open Again in
/-- If the clock stands still, the document that was asked for again is dropped. -/
theorem touched_dropped :
    Steady count (visits [0, 1, 2, 3]) (.empty 2 10) ∧
      Steady count (visits [0, 0, 0, 0]) (.empty 2 10) ∧
      mostRecent 2 ((visits [0, 0, 0, 0]).map (·.2.uri)) = ["file:///c.ts", "file:///a.ts"] ∧
      (after count (visits [0, 1, 2, 3]) (.empty 2 10)).uris = ["file:///a.ts", "file:///c.ts"] ∧
      (after count (visits [0, 0, 0, 0]) (.empty 2 10)).uris = ["file:///b.ts", "file:///c.ts"] :=
  ⟨.of_brief count (by decide) (by decide), .of_brief count (by decide) (by decide), by decide,
    rfl, rfl⟩

end SfcCheck.ModelCache
