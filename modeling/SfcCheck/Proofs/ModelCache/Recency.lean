import Mathlib.Data.Int.Order.Basic
import Mathlib.Data.List.Dedup
import Mathlib.Data.List.Induction
import Mathlib.Order.Lattice
import SfcCheck.Proofs.ModelCache.Turnover

/-!
# The order in which a cache drops its entries

A full cache drops the entry that was used least recently. The order of use is read off the clock
and, where two entries were used at the same time, off the order in which their documents came. A
list of the documents, the last one first, is a list of the cache as long as each document that is
used again was the last one before, or is used later by the clock.
-/

namespace SfcCheck.ModelCache

variable {τ α ε : Type}

/-! ## The order of use -/

/-- The addresses that came last in some uses, each once, up to a number of them. The last one comes
first. -/
def mostRecent (n : Nat) (uris : List String) : List String := uris.dedup.reverse.take n

section MostRecent

variable {n : Nat} {uris : List String} {uri : String}

theorem dedup_concat (uris : List String) (uri : String) :
    (uris ++ [uri]).dedup = uris.dedup.erase uri ++ [uri] := by
  induction uris with
  | nil => rfl
  | cons a uris ih =>
      rw [List.cons_append]
      by_cases ha : a ∈ uris
      · rw [List.dedup_cons_of_mem (List.mem_append_left _ ha), List.dedup_cons_of_mem ha, ih]
      · rw [List.dedup_cons_of_notMem ha]
        by_cases huri : a = uri
        · subst huri
          have hnot : a ∉ uris.dedup := by rwa [List.mem_dedup]
          rw [List.dedup_cons_of_mem (by simp), ih, List.erase_cons_head,
            List.erase_of_not_mem hnot]
        · have hnot : a ∉ uris ++ [uri] := by simp [ha, huri]
          rw [List.dedup_cons_of_notMem hnot, ih, List.erase_cons_tail (by simpa using huri),
            List.cons_append]

theorem dedup_concat_reverse (uris : List String) (uri : String) :
    (uris ++ [uri]).dedup.reverse = uri :: uris.dedup.reverse.erase uri := by
  have hnodup := List.nodup_dedup uris
  rw [dedup_concat, List.reverse_append, hnodup.erase_eq_filter,
    (List.nodup_reverse.mpr hnodup).erase_eq_filter, ← List.filter_reverse]
  rfl

/-- Of a list without one item, the first items are those of the list without it, as far as the item
is among them, and else the same ones. -/
theorem take_erase (n : Nat) (uris : List String) (uri : String) :
    (uris.erase uri).take n =
      if uri ∈ uris.take (n + 1) then (uris.take (n + 1)).erase uri else uris.take n := by
  induction uris generalizing n with
  | nil => simp
  | cons a uris ih =>
      by_cases huri : a = uri
      · simp [huri]
      · rw [List.erase_cons_tail (by simpa using huri)]
        cases n with
        | zero => simp [Ne.symm huri]
        | succ n =>
            rw [List.take_succ_cons, ih, List.take_succ_cons, List.take_succ_cons]
            simp only [List.mem_cons, Ne.symm huri, false_or]
            split
            · rw [List.erase_cons_tail (by simpa using huri)]
            · rfl

/-- The address that is used comes first; if it is new among as many as there may be, the last one
falls out. -/
theorem mostRecent_concat (n : Nat) (uris : List String) (uri : String) :
    mostRecent (n + 1) (uris ++ [uri]) = uri ::
      if uri ∈ mostRecent (n + 1) uris then (mostRecent (n + 1) uris).erase uri
      else (mostRecent (n + 1) uris).take n := by
  rw [mostRecent, dedup_concat_reverse, List.take_succ_cons, take_erase, mostRecent,
    List.take_take, Nat.min_eq_left (Nat.le_succ n)]

theorem nodup_mostRecent (n : Nat) (uris : List String) : (mostRecent n uris).Nodup :=
  (List.take_sublist _ _).nodup (List.nodup_reverse.mpr (List.nodup_dedup uris))

theorem length_mostRecent_le (n : Nat) (uris : List String) : (mostRecent n uris).length ≤ n :=
  List.length_take_le _ _

theorem head?_mostRecent (n : Nat) (uris : List String) :
    (mostRecent (n + 1) uris).head? = uris.getLast? := by
  induction uris using List.reverseRecOn with
  | nil => rfl
  | append_singleton uris uri _ =>
      rw [mostRecent_concat, List.head?_cons, List.getLast?_concat]

end MostRecent

/-! ## Entries in the order of use -/

section Order

variable {c : ModelCache τ α} {a b uri : String} {e : Entry τ α} {room : Table (Entry τ α)}
  {order : List String}

theorem uris_put_of_mem (h : uri ∈ c.uris) :
    uris { c with entries := c.entries.put uri e } = c.uris :=
  (Table.keys_put uri e c.entries).trans (if_pos h)

theorem uris_put_of_not_mem (h : uri ∉ c.uris) :
    uris { c with entries := c.entries.put uri e } = c.uris ++ [uri] :=
  (Table.keys_put uri e c.entries).trans (if_neg h)

variable [LinearOrder τ]

/-- One entry was used before another one: by the clock, or if it shows the same for both, by the
order in which their documents came. -/
def UsedBefore (c : ModelCache τ α) (a b : String) : Prop :=
  ∃ x y, c.entries.get? a = some x ∧ c.entries.get? b = some y ∧
    (x.lastUse < y.lastUse ∨ x.lastUse = y.lastUse ∧ [a, b].Sublist c.uris)

theorem not_sublist_swap {uris : List String} (hnodup : uris.Nodup) (h : [a, b].Sublist uris) :
    ¬ [b, a].Sublist uris := by
  induction uris with
  | nil => cases h
  | cons x uris ih =>
      obtain ⟨hx, huris⟩ := List.nodup_cons.mp hnodup
      intro hswap
      cases h with
      | cons _ h =>
          cases hswap with
          | cons _ hswap => exact ih huris h hswap
          | cons_cons _ _ => exact hx (h.subset (by simp))
      | cons_cons _ h =>
          cases hswap with
          | cons _ hswap => exact hx (hswap.subset (by simp))
          | cons_cons _ _ => exact hx (h.subset (by simp))

theorem UsedBefore.asymm (hnodup : c.uris.Nodup) (h : c.UsedBefore a b) : ¬ c.UsedBefore b a := by
  rintro ⟨y', x', hb', ha', hswap⟩
  obtain ⟨x, y, ha, hb, horder⟩ := h
  obtain rfl : x = x' := Option.some.inj (ha.symm.trans ha')
  obtain rfl : y = y' := Option.some.inj (hb.symm.trans hb')
  rcases horder with hless | ⟨heq, hsub⟩
  · rcases hswap with hmore | ⟨heq, -⟩
    · exact lt_asymm hless hmore
    · exact hless.ne heq.symm
  · rcases hswap with hmore | ⟨-, hswap⟩
    · exact hmore.ne heq.symm
    · exact not_sublist_swap hnodup hsub hswap

/-- An oldest entry was used before all others. -/
theorem IsOldest.usedBefore (hnodup : c.uris.Nodup) (h : IsOldest (a, e) c.entries) (hne : a ≠ b)
    (hb : b ∈ c.uris) : c.UsedBefore a b := by
  obtain ⟨y, hy⟩ := Table.mem_keys_iff.mp hb
  have hmem := Table.mem_of_get? hy
  refine ⟨e, y, Table.get?_of_mem hnodup h.mem, hy, ?_⟩
  rcases (h.lastUse_le hmem).lt_or_eq with hless | heq
  · exact .inl hless
  · refine .inr ⟨heq, ?_⟩
    obtain ⟨before, after, hsplit, hbefore, -⟩ := h
    rw [hsplit] at hmem
    rcases List.mem_append.mp hmem with hmem | hmem
    · exact absurd heq (hbefore _ hmem).ne
    · have hafter : (b, y) ∈ after := (List.mem_cons.mp hmem).resolve_left (by simp [Ne.symm hne])
      have htail : [b].Sublist (after.map (·.1)) :=
        List.singleton_sublist.mpr (List.mem_map.mpr ⟨_, hafter, rfl⟩)
      rw [uris, hsplit, Table.keys, List.map_append, List.map_cons]
      exact (htail.cons_cons a).trans (List.sublist_append_right _ _)

/-- Storing a document does not change the order of the others. -/
theorem UsedBefore.put (h : c.UsedBefore a b) (ha : a ≠ uri) (hb : b ≠ uri)
    (hroom : ∀ x ∈ [a, b], room.get? x = c.entries.get? x)
    (hsub : [a, b].Sublist c.uris → [a, b].Sublist room.keys) :
    UsedBefore { c with entries := room.put uri e } a b := by
  obtain ⟨x, y, hx, hy, horder⟩ := h
  refine ⟨x, y, ?_, ?_, horder.imp_right fun hsame => ⟨hsame.1, ?_⟩⟩
  · rw [Table.get?_put, if_neg ha, hroom a (by simp), hx]
  · rw [Table.get?_put, if_neg hb, hroom b (by simp), hy]
  · rw [uris, Table.keys_put]
    split
    · exact hsub hsame.2
    · exact (hsub hsame.2).trans (List.sublist_append_left _ _)

/-- A document that is stored anew is used after the others. -/
theorem usedBefore_stored {x : Entry τ α} (hx : room.get? a = some x) (ha : a ≠ uri)
    (hnew : uri ∉ room.keys) (hnow : x.lastUse ≤ e.lastUse) :
    UsedBefore { c with entries := room.put uri e } a uri := by
  refine ⟨x, e, by rw [Table.get?_put, if_neg ha, hx], by rw [Table.get?_put, if_pos rfl], ?_⟩
  rcases hnow.lt_or_eq with hless | heq
  · exact .inl hless
  · refine .inr ⟨heq, ?_⟩
    have hmem : [a].Sublist room.keys :=
      List.singleton_sublist.mpr (Table.mem_keys_iff.mpr ⟨x, hx⟩)
    rw [uris, Table.keys_put, if_neg hnew]
    exact hmem.append (List.Sublist.refl [uri])

/-- A document that was used after another one is still so when it is used again. -/
theorem UsedBefore.touch (h : c.UsedBefore a uri) (ha : a ≠ uri)
    (hnow : ∀ y, c.entries.get? uri = some y → y.lastUse ≤ e.lastUse) :
    UsedBefore { c with entries := c.entries.put uri e } a uri := by
  obtain ⟨x, y, hx, hy, horder⟩ := h
  refine ⟨x, e, by rw [Table.get?_put, if_neg ha, hx], by rw [Table.get?_put, if_pos rfl], ?_⟩
  rcases horder with hless | ⟨heq, hsub⟩
  · exact .inl (hless.trans_le (hnow y hy))
  · rcases (hnow y hy).lt_or_eq with hless | hsame
    · exact .inl (heq.trans_lt hless)
    · refine .inr ⟨heq.trans hsame, ?_⟩
      rw [uris_put_of_mem (Table.mem_keys_iff.mpr ⟨y, hy⟩)]
      exact hsub

/-- A list of the documents in a cache, in the order of their use. The last one comes first. -/
structure ListsUse (order : List String) (c : ModelCache τ α) : Prop where
  mem_iff : ∀ uri, uri ∈ c.uris ↔ uri ∈ order
  nodup : order.Nodup
  ordered : order.Pairwise fun a b => c.UsedBefore b a

namespace ListsUse

theorem length_eq (h : ListsUse order c) (hnodup : c.uris.Nodup) : order.length = c.size := by
  have hperm := (List.perm_ext_iff_of_nodup hnodup h.nodup).mpr h.mem_iff
  rw [← hperm.length_eq, uris, Table.keys, List.length_map, size]

/-- A document in the cache that is used again comes first, if it was the last to be used or if the
clock shows that it is now. -/
theorem touch (h : ListsUse order c) (hmem : uri ∈ c.uris)
    (hnow : ∀ a x, c.entries.get? a = some x → x.lastUse ≤ e.lastUse)
    (hlater : order.head? = some uri ∨
      ∀ a x, c.entries.get? a = some x → x.lastUse < e.lastUse) :
    ListsUse (uri :: order.erase uri) { c with entries := c.entries.put uri e } := by
  have horder : uri ∈ order := (h.mem_iff uri).mp hmem
  have hne : ∀ a ∈ order.erase uri, a ≠ uri := fun a ha => (h.nodup.mem_erase_iff.mp ha).1
  refine ⟨?_, ?_, ?_⟩
  · intro a
    rw [uris_put_of_mem hmem, h.mem_iff]
    exact (List.perm_cons_erase horder).mem_iff
  · exact (List.perm_cons_erase horder).nodup_iff.mp h.nodup
  · rw [List.pairwise_cons]
    constructor
    · intro a ha
      obtain ⟨x, hx⟩ := Table.mem_keys_iff.mp ((h.mem_iff a).mpr (List.mem_of_mem_erase ha))
      rcases hlater with hhead | hless
      · -- The document was the last to be used, so all others were used before it.
        obtain ⟨rest, rfl⟩ := List.head?_eq_some_iff.mp hhead
        rw [List.erase_cons_head] at ha
        have hbefore := (List.pairwise_cons.mp h.ordered).1 a ha
        exact hbefore.touch (hne a (by rwa [List.erase_cons_head])) (hnow uri)
      · refine ⟨x, e, ?_, ?_, .inl (hless a x hx)⟩
        · rw [Table.get?_put, if_neg (hne a ha), hx]
        · rw [Table.get?_put, if_pos rfl]
    · refine (h.ordered.sublist List.erase_sublist).imp_of_mem fun ha hb hbefore => ?_
      exact hbefore.put (hne _ hb) (hne _ ha) (fun _ _ => rfl) id

/-- A document that is new to a cache comes first. -/
theorem store (h : ListsUse order c) (hnew : uri ∉ c.uris)
    (hnow : ∀ a x, c.entries.get? a = some x → x.lastUse ≤ e.lastUse) :
    ListsUse (uri :: order) { c with entries := c.entries.put uri e } := by
  have hnot : uri ∉ order := fun hmem => hnew ((h.mem_iff uri).mpr hmem)
  have hne : ∀ a ∈ order, a ≠ uri := fun a ha heq => hnot (heq ▸ ha)
  refine ⟨?_, List.nodup_cons.mpr ⟨hnot, h.nodup⟩, ?_⟩
  · intro a
    rw [uris_put_of_not_mem hnew, List.mem_append, h.mem_iff, List.mem_singleton, List.mem_cons,
      or_comm]
  · rw [List.pairwise_cons]
    constructor
    · intro a ha
      obtain ⟨x, hx⟩ := Table.mem_keys_iff.mp ((h.mem_iff a).mpr ha)
      exact usedBefore_stored hx (hne a ha) hnew (hnow a x hx)
    · refine h.ordered.imp_of_mem fun ha hb hbefore => ?_
      exact hbefore.put (hne _ hb) (hne _ ha) (fun _ _ => rfl) id

/-- An oldest entry is the last one. -/
theorem eq_of_isOldest {last key : String} (h : ListsUse (order ++ [last]) c)
    (hnodup : c.uris.Nodup) (hold : IsOldest (key, e) c.entries) : key = last := by
  have hkey : key ∈ c.uris := List.mem_map_of_mem hold.mem
  have hlast : last ∈ c.uris := (h.mem_iff last).mpr (by simp)
  by_contra hne
  have horder : key ∈ order := by
    simpa [hne] using (h.mem_iff key).mp hkey
  have hbefore : c.UsedBefore last key :=
    (List.pairwise_append.mp h.ordered).2.2 key horder last (List.mem_singleton.mpr rfl)
  exact (hold.usedBefore hnodup hne hlast).asymm hnodup hbefore

/-- Without its last one a list is that of the cache without an oldest entry. -/
theorem erase {last key : String} (h : ListsUse (order ++ [last]) c) (hnodup : c.uris.Nodup)
    (hold : IsOldest (key, e) c.entries) :
    ListsUse order { c with entries := c.entries.erase key } := by
  obtain rfl := h.eq_of_isOldest hnodup hold
  obtain ⟨horder, -, hapart⟩ := List.nodup_append.mp h.nodup
  have hne : ∀ a ∈ order, a ≠ key := fun a ha => hapart a ha key (List.mem_singleton.mpr rfl)
  refine ⟨?_, horder, ?_⟩
  · intro a
    rw [uris, Table.keys_erase, ← uris, List.mem_filter, h.mem_iff, List.mem_append,
      List.mem_singleton, bne_iff_ne]
    exact ⟨fun ha => ha.1.resolve_right ha.2, fun ha => ⟨.inl ha, hne a ha⟩⟩
  · refine (List.pairwise_append.mp h.ordered).1.imp_of_mem fun {a b} ha hb hbefore => ?_
    obtain ⟨y, x, hy, hx, hor⟩ := hbefore
    refine ⟨y, x, ?_, ?_, hor.imp_right fun hsame => ⟨hsame.1, ?_⟩⟩
    · rw [Table.get?_erase, if_neg (hne b hb), hy]
    · rw [Table.get?_erase, if_neg (hne a ha), hx]
    · have hfilter := hsame.2.filter (· != key)
      rwa [List.filter_eq_self.mpr (by simp [hne a ha, hne b hb]), uris, ← Table.keys_erase]
        at hfilter

end ListsUse

/-! ### What an access does to the order -/

theorem listsUse_empty (maxEntries : Int) (interval : τ) (n : Nat) :
    ListsUse (mostRecent n []) (.empty maxEntries interval : ModelCache τ α) := by
  refine ⟨fun uri => ?_, nodup_mostRecent n [], ?_⟩ <;> simp [mostRecent, uris, Table.keys, empty]

/-- If the clock has moved on where it must, a document that is served comes first and the last one
falls out of a full list. -/
theorem ListsUse.stored [Sub τ] {maxEntries : Int} {used : List String}
    (h : ListsUse (mostRecent maxEntries.toNat used) c) (hmax : c.maxEntries = maxEntries)
    (hc : c.WellFormed) (hkept : c.kept e.lastUse = c.entries)
    (hroom : c.Room e.lastUse uri room)
    (hnow : ∀ a x, c.entries.get? a = some x → x.lastUse ≤ e.lastUse)
    (hlater : uri ∈ c.uris →
      used.getLast? = some uri ∨ ∀ a x, c.entries.get? a = some x → x.lastUse < e.lastUse) :
    ListsUse (mostRecent maxEntries.toNat (used ++ [uri]))
      { c with entries := room.put uri e } := by
  subst hmax
  have hone := hc.one_le_of_room hroom e
  obtain ⟨n, hn⟩ : ∃ n, c.maxEntries.toNat = n + 1 := ⟨c.maxEntries.toNat - 1, by omega⟩
  rw [hn] at h ⊢
  rw [mostRecent_concat]
  have hlength := h.length_eq hc.keys_nodup
  cases hroom with
  | kept hspace =>
      rw [hkept] at hspace ⊢
      by_cases hmem : uri ∈ c.uris
      · rw [if_pos ((h.mem_iff _).mp hmem)]
        exact h.touch hmem hnow ((hlater hmem).imp_left (head?_mostRecent n used).trans)
      · have hspace : (c.size : Int) < c.maxEntries := hspace.resolve_left hmem
        rw [if_neg (hmem ∘ (h.mem_iff _).mpr), List.take_of_length_le (by omega)]
        exact h.store hmem hnow
  | without key x hnew hfull hold =>
      rw [hkept] at hnew hfull hold ⊢
      have hfull : c.maxEntries ≤ (c.size : Int) := hfull
      have hmost := length_mostRecent_le (n + 1) used
      rw [if_neg (hnew ∘ (h.mem_iff _).mpr)]
      obtain ⟨order, last, horder⟩ : ∃ order last, mostRecent (n + 1) used = order ++ [last] := by
        refine (List.eq_nil_or_concat' _).resolve_left fun hnil => ?_
        rw [hnil, List.length_nil] at hlength
        omega
      have hrest : order.length = n := by
        rw [horder, List.length_append, List.length_singleton] at hlength hmost
        omega
      rw [horder] at h
      rw [horder, List.take_left' hrest]
      refine (h.erase hc.keys_nodup hold).store
        (fun hmem => hnew (Table.mem_keys_erase.mp hmem).1) ?_
      intro a y hy
      rw [Table.get?_erase] at hy
      split at hy
      · cases hy
      · exact hnow a y hy

end Order

end SfcCheck.ModelCache
