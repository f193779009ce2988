/-!
# Tables

Entries under text keys, in the order in which the keys first came. Setting a present key keeps its
place. The keys of a table built by `put` are distinct.
-/

namespace SfcCheck

/-- Entries under text keys, oldest key first. -/
abbrev Table (α : Type) := List (String × α)

namespace Table

variable {α : Type}

/-- The value of a key. -/
def get? (key : String) : Table α → Option α
  | [] => none
  | (k, v) :: t => if k = key then some v else get? key t

/-- Sets a key: a present key keeps its place, a new one goes to the end. -/
def put (key : String) (value : α) : Table α → Table α
  | [] => [(key, value)]
  | (k, v) :: t => if k = key then (k, value) :: t else (k, v) :: put key value t

/-- Takes a key out. -/
def erase (key : String) (t : Table α) : Table α := t.filter fun e => e.1 != key

/-- A table from entries in which a key may come more than once; the last value counts. -/
def ofList (entries : List (String × α)) : Table α :=
  entries.foldl (fun t e => put e.1 e.2 t) []

/-- Whether a key has a value. -/
def contains (key : String) (t : Table α) : Bool := (get? key t).isSome

/-- The keys in order. -/
def keys (t : Table α) : List String := t.map (·.1)

@[simp] theorem get?_nil (key : String) : get? key ([] : Table α) = none := rfl

theorem get?_put (key k : String) (v : α) (t : Table α) :
    get? key (put k v t) = if key = k then some v else get? key t := by
  induction t with
  | nil => simp only [put, get?]; grind
  | cons e t ih => simp only [put, get?]; split <;> simp only [get?] <;> grind

theorem get?_erase (key k : String) (t : Table α) :
    get? key (erase k t) = if key = k then none else get? key t := by
  induction t with
  | nil => simp [erase]
  | cons e t ih => simp only [erase, List.filter_cons] at ih ⊢; split <;> simp only [get?] <;> grind

theorem keys_put (k : String) (v : α) (t : Table α) :
    keys (put k v t) = if k ∈ keys t then keys t else keys t ++ [k] := by
  induction t with
  | nil => simp [put, keys]
  | cons e t ih => simp only [put, keys, List.map_cons] at ih ⊢; split <;> grind

/-- Setting a key does not make a key stand twice. -/
theorem nodup_keys_put {k : String} {v : α} {t : Table α} (h : t.keys.Nodup) :
    (put k v t).keys.Nodup := by
  rw [keys_put]
  split
  · exact h
  · next hnew =>
      refine List.nodup_append.mpr ⟨h, List.pairwise_singleton _ _, ?_⟩
      rintro a ha b hb rfl
      exact hnew (List.mem_singleton.mp hb ▸ ha)

theorem isEmpty_put (k : String) (v : α) (t : Table α) : (put k v t).isEmpty = false := by
  cases t with
  | nil => rfl
  | cons e t => rw [put]; split <;> rfl

/-- A new key goes to the end. -/
theorem put_of_not_mem {k : String} {v : α} {t : Table α} (h : k ∉ keys t) :
    put k v t = t ++ [(k, v)] := by
  induction t with
  | nil => rfl
  | cons e t ih =>
      rw [keys, List.map_cons, List.mem_cons, not_or] at h
      rw [put, if_neg (Ne.symm h.1), ih h.2]
      rfl

/-- Distinct keys stay as they are. -/
theorem ofList_of_nodup {entries : Table α} (h : entries.keys.Nodup) :
    ofList entries = entries := by
  have hfold (t rest : Table α) (h : (keys (t ++ rest)).Nodup) :
      rest.foldl (fun t e => put e.1 e.2 t) t = t ++ rest := by
    induction rest generalizing t with
    | nil => simp
    | cons e rest ih =>
        have hnew : e.1 ∉ keys t := by
          simp only [keys, List.map_append, List.map_cons, List.nodup_append] at h
          intro he
          exact h.2.2 e.1 he e.1 (.head _) rfl
        rw [List.foldl_cons, put_of_not_mem hnew]
        have happend : t ++ e :: rest = (t ++ [(e.1, e.2)]) ++ rest := by simp
        rw [happend] at h ⊢
        exact ih _ h
  exact hfold [] entries h

theorem isEmpty_ofList {entries : List (String × α)} (h : entries ≠ []) :
    (ofList entries).isEmpty = false := by
  rw [← List.dropLast_concat_getLast h, ofList, List.foldl_append]
  exact isEmpty_put _ _ _

/-- Of several values of a key the last one counts. -/
theorem get?_ofList (key : String) (entries : List (String × α)) :
    get? key (ofList entries) = (entries.reverse.find? (·.1 = key)).map (·.2) := by
  have hreverse (es : List (String × α)) :
      get? key (ofList es.reverse) = (es.find? (·.1 = key)).map (·.2) := by
    induction es with
    | nil => rfl
    | cons e es ih =>
        rw [ofList] at ih
        rw [ofList, List.reverse_cons, List.foldl_append, List.foldl_cons, List.foldl_nil, get?_put,
          ih, List.find?_cons]
        by_cases hkey : e.1 = key
        · rw [if_pos hkey.symm, decide_eq_true hkey]
          rfl
        · rw [if_neg (Ne.symm hkey), decide_eq_false hkey]
  simpa using hreverse entries.reverse

/-- What a key gives stands in the table. -/
theorem mem_of_get? {key : String} {v : α} {t : Table α} (h : get? key t = some v) :
    (key, v) ∈ t := by
  induction t with
  | nil => cases h
  | cons e t ih =>
      simp only [get?] at h
      split at h
      · next hk =>
          cases h
          exact hk ▸ .head _
      · exact .tail _ (ih h)

/-- Where the keys are distinct, what stands in the table is what its key gives. -/
theorem get?_of_mem {key : String} {v : α} {t : Table α} (h : t.keys.Nodup)
    (hmem : (key, v) ∈ t) : get? key t = some v := by
  induction t with
  | nil => cases hmem
  | cons e t ih =>
      obtain ⟨hnew, hkeys⟩ := List.nodup_cons.mp h
      rw [get?]
      rcases List.mem_cons.mp hmem with rfl | hmem
      · exact if_pos rfl
      · have hne : e.1 ≠ key := by
          rintro rfl
          exact hnew (List.mem_map.mpr ⟨_, hmem, rfl⟩)
        rw [if_neg hne]
        exact ih hkeys hmem

/-- Setting a key brings in its entry only. -/
theorem mem_of_mem_put {k : String} {v : α} {e : String × α} {t : Table α} (h : e ∈ put k v t) :
    e = (k, v) ∨ e ∈ t := by
  induction t with
  | nil => exact .inl (List.mem_singleton.mp h)
  | cons x t ih =>
      simp only [put] at h
      split at h
      · next hk =>
          rcases List.mem_cons.mp h with rfl | h
          · exact .inl (hk ▸ rfl)
          · exact .inr (.tail _ h)
      · rcases List.mem_cons.mp h with rfl | h
        · exact .inr (.head _)
        · exact (ih h).imp_right (.tail _)

/-! ## What a table holds -/

theorem get?_eq_none_iff {key : String} {t : Table α} : get? key t = none ↔ key ∉ keys t := by
  induction t with
  | nil => simp [keys]
  | cons e t ih =>
      rw [get?, keys, List.map_cons, List.mem_cons, not_or]
      split
      · next hkey => simp [hkey]
      · next hkey => exact ih.trans ⟨fun h => ⟨Ne.symm hkey, h⟩, fun h => h.2⟩

theorem mem_keys_iff {key : String} {t : Table α} : key ∈ keys t ↔ ∃ v, get? key t = some v := by
  rw [← Option.isSome_iff_exists, ← Option.ne_none_iff_isSome, ne_eq, get?_eq_none_iff]
  exact Decidable.not_not.symm

/-- Where the keys are distinct, what a key gives is not hidden by what is left out. -/
theorem get?_filter {p : α → Bool} {t : Table α} (h : t.keys.Nodup) (key : String) :
    get? key (t.filter fun e => p e.2) = (get? key t).filter p := by
  induction t with
  | nil => rfl
  | cons e t ih =>
      obtain ⟨hnew, hkeys⟩ := List.nodup_cons.mp h
      have hrest := ih hkeys
      rw [List.filter_cons, get?]
      by_cases hkey : e.1 = key
      · have hnone : get? key (t.filter fun e => p e.2) = none := by
          rw [hrest, get?_eq_none_iff.mpr (hkey ▸ hnew)]
          rfl
        rw [if_pos hkey]
        by_cases hp : p e.2
        · rw [if_pos hp, get?, if_pos hkey, Option.filter_some, if_pos hp]
        · rw [if_neg hp, hnone, Option.filter_some, if_neg hp]
      · rw [if_neg hkey, ← hrest]
        split
        · rw [get?, if_neg hkey]
        · rfl

theorem keys_filter_sublist (p : String × α → Bool) (t : Table α) :
    (keys (t.filter p)).Sublist (keys t) :=
  (List.filter_sublist).map _

theorem keys_erase (k : String) (t : Table α) :
    keys (erase k t) = (keys t).filter (· != k) := by
  rw [keys, erase, keys, List.filter_map]
  rfl

theorem mem_keys_put {key k : String} {v : α} {t : Table α} :
    key ∈ keys (put k v t) ↔ key = k ∨ key ∈ keys t := by
  rw [keys_put]
  split
  · next hk => exact ⟨.inr, fun h => h.elim (fun heq => heq ▸ hk) id⟩
  · rw [List.mem_append, List.mem_singleton, or_comm]

theorem mem_keys_erase {key k : String} {t : Table α} :
    key ∈ keys (erase k t) ↔ key ∈ keys t ∧ key ≠ k := by
  rw [keys_erase, List.mem_filter, bne_iff_ne]

theorem length_put (k : String) (v : α) (t : Table α) :
    (put k v t).length = if k ∈ keys t then t.length else t.length + 1 := by
  have hlength := congrArg List.length (keys_put k v t)
  rw [keys, List.length_map] at hlength
  rw [hlength]
  split <;> simp [keys]

/-- Taking out a key of a table with distinct keys leaves one entry less. -/
theorem length_erase {k : String} {t : Table α} (h : t.keys.Nodup) (hk : k ∈ keys t) :
    (erase k t).length + 1 = t.length := by
  have hlength : (erase k t).length = ((keys t).erase k).length := by
    rw [h.erase_eq_filter, ← keys_erase, keys, List.length_map]
  have hpos : 0 < (keys t).length := List.length_pos_of_mem hk
  rw [hlength, List.length_erase_of_mem hk]
  simp only [keys, List.length_map] at hpos ⊢
  omega

/-! ## Tables from entries -/

section OfList

variable {key : String} {v : α} {entries : List (String × α)}

theorem nodup_keys_ofList (entries : List (String × α)) : (ofList entries).keys.Nodup := by
  have hfold (t : Table α) (h : t.keys.Nodup) :
      (entries.foldl (fun t e => put e.1 e.2 t) t).keys.Nodup := by
    induction entries generalizing t with
    | nil => exact h
    | cons e entries ih => exact ih _ (nodup_keys_put h)
  exact hfold [] .nil

theorem mem_keys_ofList : key ∈ (ofList entries).keys ↔ ∃ e ∈ entries, e.1 = key := by
  rw [mem_keys_iff, get?_ofList]
  simp only [Option.map_eq_some_iff]
  constructor
  · rintro ⟨_, e, hfind, -⟩
    have hkey : e.1 = key := by simpa using List.find?_some hfind
    exact ⟨e, List.mem_reverse.mp (List.mem_of_find?_eq_some hfind), hkey⟩
  · rintro ⟨e, he, hkey⟩
    have hsome : (entries.reverse.find? (·.1 = key)).isSome = true := by
      rw [List.find?_isSome]
      exact ⟨e, List.mem_reverse.mpr he, decide_eq_true hkey⟩
    obtain ⟨e', hfind⟩ := Option.isSome_iff_exists.mp hsome
    exact ⟨e'.2, e', hfind, rfl⟩

/-- Where every item makes an entry, the last one that makes an entry for a key gives its value. -/
theorem get?_ofList_map_eq_some_iff {β : Type} {f : β → String × α} {xs : List β} :
    get? key (ofList (xs.map f)) = some v ↔ ∃ before x after, xs = before ++ x :: after ∧
      f x = (key, v) ∧ ∀ y ∈ after, (f y).1 ≠ key := by
  rw [get?_ofList, ← List.map_reverse, List.find?_map, Option.map_map, Option.map_eq_some_iff]
  constructor
  · rintro ⟨x, hfind, hvalue⟩
    obtain ⟨hkey, after, before, hsplit, hafter⟩ := List.find?_eq_some_iff_append.mp hfind
    refine ⟨before.reverse, x, after.reverse, ?_, ?_, ?_⟩
    · rw [← List.reverse_reverse xs, hsplit]
      simp
    · exact Prod.ext (by simpa using hkey) hvalue
    · intro y hy
      simpa using hafter y (List.mem_reverse.mp hy)
  · rintro ⟨before, x, after, rfl, hx, hafter⟩
    refine ⟨x, ?_, by rw [Function.comp_apply, hx]⟩
    apply List.find?_eq_some_iff_append.mpr
    refine ⟨by simp [hx], after.reverse, before.reverse, by simp, ?_⟩
    intro y hy
    simpa using hafter y (List.mem_reverse.mp hy)

end OfList

end Table

end SfcCheck
