import SfcCheck.Proofs.Json.Numbers
import SfcCheck.Proofs.Json.Strings

/-!
# Values are read as they were written

A value that has a text is read back from it: `Readable` says which values these are, and
`readsBack_of_readable` is by induction over them. A value is read in front of whatever may follow
it in a list or an object, so the lists and the objects go through from left to right.
-/

namespace SfcCheck.Json

variable {cs rest t : List Char} {v : Json} {d n : Nat}

/-! ## First characters -/

/-- Whether a value that is no string, list or object may start with a character. -/
def startsScalar (c : Char) : Bool := c.isDigit || "-ntfNI".toList.contains c

theorem startsScalar_of_scalar {r : Json × List Char} (h : scalar cs = .ok r) :
    ∃ c rest, cs = c :: rest ∧ startsScalar c = true := by
  rcases cs with _ | ⟨c, cs⟩
  · cases h
  · refine ⟨c, cs, rfl, ?_⟩
    by_contra hstart
    simp only [startsScalar, Bool.or_eq_true, not_or, Bool.not_eq_true, List.contains_eq_mem,
      decide_eq_true_eq] at hstart
    obtain ⟨hdigit, hword⟩ := hstart
    have hne (d : Char) (hd : d ∈ "-ntfNI".toList) : ¬ d = c := by
      rintro rfl
      exact hword hd
    have hliteral : literal? (c :: cs) = none := by
      simp [literal?, literals, word?, hne 'n' (by decide), hne 't' (by decide),
        hne 'f' (by decide), hne 'N' (by decide), hne 'I' (by decide), hne '-' (by decide)]
    have hzero : c ≠ '0' := by
      rintro rfl
      cases hdigit
    have hminus : c ≠ '-' := Ne.symm (hne '-' (by decide))
    rw [scalar, hliteral] at h
    dsimp only at h
    rw [number_of_ne_minus hminus, unsigned, wholeDigits, spanDigits_eq] at h
    · simp [hdigit] at h
    · intro r hr
      exact hzero (List.cons.inj hr).1

/-- What a value starts with: no blank, and nothing that closes a list. -/
def startsValue (c : Char) : Bool := !isSpace c && c != ']'

theorem ne_of_startsScalar {c d : Char} (h : startsScalar c = true)
    (hd : startsScalar d = false) : c ≠ d := by
  rintro rfl
  rw [h] at hd
  cases hd

theorem startsValue_of_startsScalar {c : Char} (h : startsScalar c = true) :
    startsValue c = true := by
  have hne {d : Char} (hd : startsScalar d = false) : c ≠ d := ne_of_startsScalar h hd
  simp [startsValue, isSpace, hne (d := ' ') rfl, hne (d := '\t') rfl, hne (d := '\n') rfl,
    hne (d := '\r') rfl, hne (d := ']') rfl]

theorem skipSpace_cons {c : Char} (h : startsValue c = true) (cs : List Char) :
    skipSpace (c :: cs) = c :: cs := by
  rw [startsValue, Bool.and_eq_true, Bool.not_eq_true'] at h
  rw [skipSpace, List.dropWhile_cons_of_neg (by simp [h.1])]

theorem value_of_scalar {r : Json × List Char} (h : scalar cs = .ok r) :
    value (n + 1) d cs = .ok r := by
  obtain ⟨c, rest, rfl, hstart⟩ := startsScalar_of_scalar h
  have hquote : c ≠ '"' := ne_of_startsScalar hstart rfl
  have hlist : c ≠ '[' := ne_of_startsScalar hstart rfl
  have hobject : c ≠ '{' := ne_of_startsScalar hstart rfl
  rw [value, h]
  all_goals simp_all

/-! ## Values that can be read back -/

/-- The text of a value as it goes over the wire. -/
abbrev compact (v : Json) : List Char := print .compact v

/-- A value that has no more than `depth` levels of lists and objects and whose text stands for it:
no key comes twice, and every number is what its text is read as. Integers are if they do not have
too many digits. -/
inductive Readable : Nat → Json → Prop where
  | null (depth : Nat) : Readable depth .null
  | bool (depth : Nat) (b : Bool) : Readable depth (.bool b)
  | int (depth : Nat) (n : Int) (hdigits : n.natAbs < 10 ^ digitLimit) : Readable depth (.int n)
  | float (depth : Nat) (x : Float) (hread : scalar (floatText x) = .ok (.float x, [])) :
      Readable depth (.float x)
  | str (depth : Nat) (s : String) : Readable depth (.str s)
  | arr (depth : Nat) (items : List Json) (hitems : ∀ v ∈ items, Readable depth v) :
      Readable (depth + 1) (.arr items)
  | obj (depth : Nat) (fields : Table Json) (hkeys : fields.keys.Nodup)
      (hfields : ∀ f ∈ fields, Readable depth f.2) : Readable (depth + 1) (.obj fields)

/-- A value that is read back from its text, whatever may follow. -/
def ReadsBack (d : Nat) (v : Json) : Prop :=
  ∀ n t, (compact v).length ≤ n → Ends t → value n d (compact v ++ t) = .ok (v, t)

theorem readsBack_of_scalar (h : scalar (compact v) = .ok (v, [])) : ReadsBack d v := by
  intro n t hn ht
  obtain ⟨c, rest, htext, -⟩ := startsScalar_of_scalar h
  rw [htext] at hn
  obtain ⟨n, rfl⟩ : ∃ k, n = k + 1 := ⟨n - 1, by rw [List.length_cons] at hn; omega⟩
  exact value_of_scalar (scalar_append ht h)

theorem compact_starts (h : Readable d v) :
    ∃ c cs, compact v = c :: cs ∧ startsValue c = true := by
  have hscalar (h : scalar (compact v) = .ok (v, [])) :
      ∃ c cs, compact v = c :: cs ∧ startsValue c = true := by
    obtain ⟨c, cs, htext, hstart⟩ := startsScalar_of_scalar h
    exact ⟨c, cs, htext, startsValue_of_startsScalar hstart⟩
  cases h with
  | null => exact hscalar rfl
  | bool d b => exact hscalar (by cases b <;> rfl)
  | int d n hdigits => exact hscalar (scalar_intText hdigits)
  | float d x hread => exact hscalar hread
  | str d s => exact ⟨'"', _, rfl, rfl⟩
  | arr d items hitems => exact ⟨'[', _, rfl, rfl⟩
  | obj d fields hkeys hfields => exact ⟨'{', _, rfl, rfl⟩

theorem skipSpace_compact (h : Readable d v) (t : List Char) :
    skipSpace (compact v ++ t) = compact v ++ t := by
  obtain ⟨c, cs, htext, hstart⟩ := compact_starts h
  rw [htext, List.cons_append, skipSpace_cons hstart]

/-! ## Lists and objects -/

section Steps

variable {vs : List Json} {fs : List (String × Json)} {k : String}
  {rest' rest'' more after : List Char}

theorem items_last (h : value n d cs = .ok (v, rest)) (hclose : skipSpace rest = ']' :: after) :
    items (n + 1) d cs = .ok ([v], after) := by
  rw [items, h]
  dsimp only [bind, Except.bind]
  rw [hclose]
  rfl

theorem items_next (h : value n d cs = .ok (v, rest)) (hcomma : skipSpace rest = ',' :: more)
    (hmore : items n d (skipSpace more) = .ok (vs, after)) :
    items (n + 1) d cs = .ok (v :: vs, after) := by
  rw [items, h]
  dsimp only [bind, Except.bind]
  rw [hcomma]
  change (items n d (skipSpace more) >>= fun r => pure (v :: r.1, r.2)) = _
  rw [hmore]
  rfl

theorem fields_last (hkey : string cs = .ok (k, rest)) (hcolon : skipSpace rest = ':' :: rest')
    (h : value n d (skipSpace rest') = .ok (v, rest''))
    (hclose : skipSpace rest'' = '}' :: after) :
    fields (n + 1) d ('"' :: cs) = .ok ([(k, v)], after) := by
  rw [fields, hkey]
  dsimp only [bind, Except.bind]
  rw [hcolon]
  change (value n d (skipSpace rest') >>= _) = _
  rw [h]
  dsimp only [bind, Except.bind]
  rw [hclose]
  rfl

theorem fields_next (hkey : string cs = .ok (k, rest)) (hcolon : skipSpace rest = ':' :: rest')
    (h : value n d (skipSpace rest') = .ok (v, rest'')) (hcomma : skipSpace rest'' = ',' :: more)
    (hmore : fields n d (skipSpace more) = .ok (fs, after)) :
    fields (n + 1) d ('"' :: cs) = .ok ((k, v) :: fs, after) := by
  rw [fields, hkey]
  dsimp only [bind, Except.bind]
  rw [hcolon]
  change (value n d (skipSpace rest') >>= _) = _
  rw [h]
  dsimp only [bind, Except.bind]
  rw [hcomma]
  change (fields n d (skipSpace more) >>= fun r => pure ((k, v) :: r.1, r.2)) = _
  rw [hmore]
  rfl

end Steps

theorem printItems_singleton (v : Json) : printItems .compact [v] = compact v ++ [']'] := by
  rw [printItems]

theorem printItems_cons (v w : Json) (vs : List Json) :
    printItems .compact (v :: w :: vs) = compact v ++ ',' :: printItems .compact (w :: vs) := by
  rw [printItems]
  · exact List.append_assoc _ _ _
  · simp

theorem printFields_singleton (k : String) (v : Json) :
    printFields .compact [(k, v)] = stringText k ++ ':' :: (compact v ++ ['}']) := by
  rw [printFields]
  exact (congrArg (· ++ ['}']) (List.append_assoc _ _ _)).trans (List.append_assoc _ _ _)

theorem printFields_cons (k : String) (v : Json) (f : String × Json)
    (fs : List (String × Json)) :
    printFields .compact ((k, v) :: f :: fs) =
      stringText k ++ ':' :: (compact v ++ ',' :: printFields .compact (f :: fs)) := by
  rw [printFields]
  · show stringText k ++ [':'] ++ compact v ++ [','] ++ _ = _
    simp only [List.append_assoc, List.cons_append, List.nil_append]
  · simp

theorem printItems_starts (h : Readable d v) (vs : List Json) (t : List Char) :
    ∃ c cs, printItems .compact (v :: vs) ++ t = c :: cs ∧ startsValue c = true := by
  obtain ⟨c, cs, htext, hstart⟩ := compact_starts h
  rcases vs with _ | ⟨w, vs⟩
  · exact ⟨c, cs ++ [']'] ++ t, by rw [printItems_singleton, htext]; rfl, hstart⟩
  · exact ⟨c, cs ++ ',' :: printItems .compact (w :: vs) ++ t,
      by rw [printItems_cons, htext]; rfl, hstart⟩

theorem skipSpace_printItems (h : Readable d v) (vs : List Json) (t : List Char) :
    skipSpace (printItems .compact (v :: vs) ++ t) = printItems .compact (v :: vs) ++ t := by
  obtain ⟨c, cs, htext, hstart⟩ := printItems_starts h vs t
  rw [htext, skipSpace_cons hstart]

theorem items_printItems {items : List Json} (hne : items ≠ [])
    (hread : ∀ v ∈ items, Readable d v) (hback : ∀ v ∈ items, ReadsBack d v)
    (hn : (printItems .compact items).length ≤ n) (t : List Char) :
    Json.items n d (printItems .compact items ++ t) = .ok (items, t) := by
  induction items generalizing n with
  | nil => exact absurd rfl hne
  | cons v vs ih =>
      have hv := hback v (.head _)
      rcases vs with _ | ⟨w, vs⟩
      · rw [printItems_singleton, List.length_append, List.length_singleton] at hn
        obtain ⟨n, rfl⟩ : ∃ k, n = k + 1 := ⟨n - 1, by omega⟩
        rw [printItems_singleton, List.append_assoc]
        exact items_last (hv n _ (by omega) (.cons rfl _)) rfl
      · rw [printItems_cons, List.length_append, List.length_cons] at hn
        obtain ⟨n, rfl⟩ : ∃ k, n = k + 1 := ⟨n - 1, by omega⟩
        rw [printItems_cons, List.append_assoc, List.cons_append]
        refine items_next (hv n _ (by omega) (.cons rfl _)) rfl ?_
        rw [skipSpace_printItems (hread w (.tail _ (.head _)))]
        exact ih (by simp) (fun v hv => hread v (.tail _ hv)) (fun v hv => hback v (.tail _ hv))
          (by omega)

theorem printFields_starts (f : String × Json) (fs : List (String × Json)) (t : List Char) :
    ∃ cs, printFields .compact (f :: fs) ++ t = '"' :: cs := by
  obtain ⟨k, v⟩ := f
  rcases fs with _ | ⟨f, fs⟩
  · exact ⟨_, by rw [printFields_singleton, List.append_assoc, stringText_append]⟩
  · exact ⟨_, by rw [printFields_cons, List.append_assoc, stringText_append]⟩

theorem skipSpace_printFields (f : String × Json) (fs : List (String × Json)) (t : List Char) :
    skipSpace (printFields .compact (f :: fs) ++ t) = printFields .compact (f :: fs) ++ t := by
  obtain ⟨cs, htext⟩ := printFields_starts f fs t
  rw [htext, skipSpace_cons rfl]

theorem fields_printFields {fs : List (String × Json)} (hne : fs ≠ [])
    (hread : ∀ f ∈ fs, Readable d f.2) (hback : ∀ f ∈ fs, ReadsBack d f.2)
    (hn : (printFields .compact fs).length ≤ n) (t : List Char) :
    fields n d (printFields .compact fs ++ t) = .ok (fs, t) := by
  induction fs generalizing n with
  | nil => exact absurd rfl hne
  | cons f fs ih =>
      obtain ⟨k, v⟩ := f
      have hv : ReadsBack d v := hback (k, v) (.head _)
      have hskip (t : List Char) := skipSpace_compact (hread (k, v) (.head _)) t
      dsimp only at hskip
      rcases fs with _ | ⟨f, fs⟩
      · rw [printFields_singleton, List.length_append, List.length_cons, List.length_append,
          List.length_singleton] at hn
        obtain ⟨n, rfl⟩ : ∃ k, n = k + 1 := ⟨n - 1, by omega⟩
        rw [printFields_singleton, List.append_assoc, List.cons_append, List.append_assoc,
          stringText_append]
        have hvalue :
            value n d (skipSpace (compact v ++ '}' :: t)) = .ok (v, '}' :: t) := by
          rw [hskip]
          exact hv n _ (by omega) (.cons rfl t)
        exact fields_last (string_escaped k _) rfl hvalue rfl
      · rw [printFields_cons, List.length_append, List.length_cons, List.length_append,
          List.length_cons] at hn
        obtain ⟨n, rfl⟩ : ∃ k, n = k + 1 := ⟨n - 1, by omega⟩
        rw [printFields_cons, List.append_assoc, List.cons_append, stringText_append]
        have hvalue :
            value n d (skipSpace (compact v ++ ',' :: printFields .compact (f :: fs) ++ t)) =
              .ok (v, ',' :: (printFields .compact (f :: fs) ++ t)) := by
          rw [List.append_assoc, List.cons_append, hskip]
          exact hv n _ (by omega) (.cons rfl _)
        refine fields_next (string_escaped k _) rfl hvalue rfl ?_
        rw [skipSpace_printFields]
        exact ih (by simp) (fun f hf => hread f (.tail _ hf)) (fun f hf => hback f (.tail _ hf))
          (by omega)

theorem items_error {e : Refusal} (h : value n d cs = .error e) :
    items (n + 1) d cs = .error e := by
  rw [items, h]
  rfl

theorem fields_error {k : String} {e : Refusal} (hkey : string cs = .ok (k, ':' :: rest))
    (h : value n d (skipSpace rest) = .error e) : fields (n + 1) d ('"' :: cs) = .error e := by
  rw [fields, hkey]
  change (value n d (skipSpace rest) >>= _) = _
  rw [h]
  rfl

theorem value_list (hclose : ∀ cs', skipSpace cs ≠ ']' :: cs') :
    value (n + 1) (d + 1) ('[' :: cs) =
      (items n d (skipSpace cs)).map fun r => (.arr r.1, r.2) := by
  rw [value]
  split
  · next hskip => exact absurd hskip (hclose _)
  · cases items n d (skipSpace cs) <;> rfl

theorem value_object (hclose : ∀ cs', skipSpace cs ≠ '}' :: cs') :
    value (n + 1) (d + 1) ('{' :: cs) =
      (fields n d (skipSpace cs)).map fun r => (.ofFields r.1, r.2) := by
  rw [value]
  split
  · next hskip => exact absurd hskip (hclose _)
  · cases fields n d (skipSpace cs) <;> rfl

/-- A value that can be read back is read as it was written. -/
theorem readsBack_of_readable (h : Readable d v) : ReadsBack d v := by
  induction h with
  | null d => exact readsBack_of_scalar rfl
  | bool d b => exact readsBack_of_scalar (by cases b <;> rfl)
  | int d n hdigits => exact readsBack_of_scalar (scalar_intText hdigits)
  | float d x hread => exact readsBack_of_scalar hread
  | str d s =>
      intro n t hn ht
      have hpos : 0 < n := by
        rw [compact, print, stringText] at hn
        exact Nat.lt_of_lt_of_le (Nat.succ_pos _) hn
      obtain ⟨n, rfl⟩ : ∃ k, n = k + 1 := ⟨n - 1, by omega⟩
      rw [compact, print, stringText_append, value, string_escaped]
      · rfl
      · simp
  | arr d items hitems ih =>
      intro n t hn ht
      rw [compact, print, List.length_cons] at hn
      obtain ⟨n, rfl⟩ : ∃ k, n = k + 1 := ⟨n - 1, by omega⟩
      rw [compact, print, List.cons_append]
      rcases items with _ | ⟨v, vs⟩
      · rw [printItems, value]
        rfl
      · have hskip := skipSpace_printItems (hitems v (.head _)) vs t
        have hread := items_printItems (by simp) hitems ih (Nat.le_of_succ_le_succ hn) t
        rw [value_list, hskip, hread]
        · rfl
        · obtain ⟨c, cs, htext, hstart⟩ := printItems_starts (hitems v (.head _)) vs t
          rw [hskip, htext]
          rintro cs' hclose
          rw [(List.cons.inj hclose).1] at hstart
          cases hstart
  | obj d fields hkeys hfields ih =>
      intro n t hn ht
      rw [compact, print, List.length_cons] at hn
      obtain ⟨n, rfl⟩ : ∃ k, n = k + 1 := ⟨n - 1, by omega⟩
      rw [compact, print, List.cons_append]
      rcases fields with _ | ⟨f, fs⟩
      · rw [printFields, value]
        rfl
      · have hskip := skipSpace_printFields f fs t
        have hobject : Json.ofFields (f :: fs) = .obj (f :: fs) := by
          rw [Json.ofFields, Table.ofList_of_nodup hkeys]
        have hread := fields_printFields (by simp) hfields ih (Nat.le_of_succ_le_succ hn) t
        rw [value_object, hskip, hread, Except.map, hobject]
        · obtain ⟨cs, htext⟩ := printFields_starts f fs t
          rw [hskip, htext]
          rintro cs' hclose
          cases hclose

/-- A document is read as it was written. -/
theorem parse_compact (h : Readable depthLimit v) : parse (compact v) = .ok v := by
  have hskip := skipSpace_compact h []
  have hread := readsBack_of_readable h (2 * (compact v).length + 1) [] (by omega) .nil
  rw [List.append_nil] at hskip hread
  have hdocument : document (compact v) = .ok v := by
    rw [document, hskip, hread]
    rfl
  rw [parse, hdocument]
  rfl

end SfcCheck.Json
