import Mathlib.Tactic.IntervalCases
import SfcCheck.Proofs.Wire.Frame

/-!
# Streams of messages

A stream that ends anywhere is read as the messages whose frames have come in full. It ends well if
it ends between two frames, and within a message otherwise. A frame is read by itself, so the
statement is by induction over the messages.

What cannot be read back is a message that is nested deeper than the reader of JSON goes.
-/

namespace SfcCheck.Wire

open Json (compact)

variable {p : Table Json} {ps qs : List (Table Json)} {bytes rest : List UInt8} {n j k : Nat}

/-- The frames of messages, one after the other. -/
def stream (ps : List (Table Json)) : List UInt8 := ps.flatMap fun p => encode (.obj p)

@[simp] theorem stream_nil : stream [] = [] := rfl

@[simp] theorem stream_cons (p : Table Json) (ps : List (Table Json)) :
    stream (p :: ps) = encode (.obj p) ++ stream ps := rfl

theorem stream_append (ps qs : List (Table Json)) : stream (ps ++ qs) = stream ps ++ stream qs :=
  List.flatMap_append

/-- More messages have more bytes. -/
theorem length_stream_take_le (h : j ≤ k) (ps : List (Table Json)) :
    (stream (ps.take j)).length ≤ (stream (ps.take k)).length := by
  obtain ⟨qs, hqs⟩ := List.take_prefix_take_left (l := ps) h
  rw [← hqs, stream_append, List.length_append]
  exact Nat.le_add_right _ _

/-! ## One step of the reader -/

theorem readAll_nil : readAll [] = ([], none) := by
  have hread : read true [] = .ended := by
    rw [read, readFrom]
    rfl
  rw [readAll]
  split <;> simp_all

theorem readAll_message (h : read true bytes = .message p rest) :
    readAll bytes = (p :: (readAll rest).1, (readAll rest).2) := by
  rw [readAll]
  split <;> simp_all

theorem readAll_failed {e : ReadFailure} (h : read true bytes = .failed e) :
    readAll bytes = ([], some e) := by
  rw [readAll]
  split <;> simp_all

/-! ## A stream that ends anywhere -/

/-- How many frames have come in full with the first `n` bytes of a stream. -/
def complete : List (Table Json) → Nat → Nat
  | [], _ => 0
  | p :: ps, n =>
    if (encode (.obj p)).length ≤ n then complete ps (n - (encode (.obj p)).length) + 1 else 0

theorem complete_le (ps : List (Table Json)) (n : Nat) : complete ps n ≤ ps.length := by
  induction ps generalizing n with
  | nil => exact Nat.le_refl 0
  | cons p ps ih =>
      rw [complete]
      split
      · exact Nat.succ_le_succ (ih _)
      · exact Nat.zero_le _

/-- The frames that have come in full are those that end within the bytes. -/
theorem length_stream_take_le_iff (hj : j ≤ ps.length) :
    (stream (ps.take j)).length ≤ n ↔ j ≤ complete ps n := by
  induction ps generalizing j n with
  | nil =>
      rw [List.length_nil, Nat.le_zero] at hj
      simp [hj]
  | cons p ps ih =>
      rcases j with _ | j
      · simp
      · rw [List.take_succ_cons, stream_cons, List.length_append, complete]
        split
        · next hfull =>
            have hrest := ih (n := n - (encode (.obj p)).length) (Nat.le_of_succ_le_succ hj)
            omega
        · omega

/-- The ways in which a stream ends within a message. -/
inductive CutShort : Option ReadFailure → Prop where
  | header : CutShort (some (.server .endedInHeader))
  | body : CutShort (some (.server .endedInBody))

theorem CutShort.message {e? : Option ReadFailure} (h : CutShort e?) :
    ∃ e, e? = some (.server e) ∧ e.message = "Language server closed the stream mid-message" := by
  cases h with
  | header => exact ⟨_, rfl, rfl⟩
  | body => exact ⟨_, rfl, rfl⟩

/-- A frame that is cut short makes no message, and the reader says that it was. -/
theorem readAll_take_encode (h : Sendable p) (hpos : 0 < n) (hn : n < (encode (.obj p)).length) :
    (readAll ((encode (.obj p)).take n)).1 = [] ∧
      CutShort (readAll ((encode (.obj p)).take n)).2 := by
  rw [readAll_failed (read_take_encode h hpos hn)]
  split
  · exact ⟨rfl, .header⟩
  · exact ⟨rfl, .body⟩

theorem readAll_take_stream (h : ∀ p ∈ ps, Sendable p) (hn : n ≤ (stream ps).length) :
    (readAll ((stream ps).take n)).1 = ps.take (complete ps n) ∧
      ((stream (ps.take (complete ps n))).length = n →
        (readAll ((stream ps).take n)).2 = none) ∧
      ((stream (ps.take (complete ps n))).length ≠ n →
        CutShort (readAll ((stream ps).take n)).2) := by
  induction ps generalizing n with
  | nil =>
      rw [stream_nil, List.length_nil, Nat.le_zero] at hn
      subst hn
      simp [readAll_nil, complete]
  | cons p ps ih =>
      have hp := h p (.head _)
      rw [stream_cons, List.length_append] at hn
      rw [stream_cons, complete]
      split
      · next hfull =>
          obtain ⟨m, rfl⟩ : ∃ m, n = (encode (.obj p)).length + m :=
            ⟨n - (encode (.obj p)).length, by omega⟩
          obtain ⟨hread, hend, hcut⟩ := ih (n := m) (fun q hq => h q (.tail _ hq)) (by omega)
          rw [List.take_length_add_append, readAll_message (read_encode_append hp _),
            Nat.add_sub_cancel_left, List.take_succ_cons, stream_cons, List.length_append, hread]
          exact ⟨rfl, fun hm => hend (by omega), fun hm => hcut (by omega)⟩
      · next hshort =>
          rw [List.take_append_of_le_length (by omega)]
          rcases Nat.eq_zero_or_pos n with rfl | hpos
          · simp [readAll_nil]
          · obtain ⟨hread, hcut⟩ := readAll_take_encode hp hpos (by omega)
            exact ⟨hread, fun hzero => absurd hzero (by simp; omega), fun _ => hcut⟩

/-- Of a stream that ends after `n` bytes the reader returns the messages whose frames lie within
the `n` bytes, in order and unchanged. It then finds that the stream has ended if a frame ends
there, and that it was cut short within a message if none does. -/
theorem readAll_take (ps : List (Table Json)) (h : ∀ p ∈ ps, Sendable p) (n : Nat)
    (hn : n ≤ (stream ps).length) :
    ∃ k ≤ ps.length, (∀ j ≤ ps.length, (stream (ps.take j)).length ≤ n ↔ j ≤ k) ∧
      (readAll ((stream ps).take n)).1 = ps.take k ∧
      ((∃ j ≤ ps.length, (stream (ps.take j)).length = n) →
        (readAll ((stream ps).take n)).2 = none) ∧
      ((¬ ∃ j ≤ ps.length, (stream (ps.take j)).length = n) →
        ∃ e, (readAll ((stream ps).take n)).2 = some (.server e) ∧
          e.message = "Language server closed the stream mid-message") := by
  obtain ⟨hread, hend, hcut⟩ := readAll_take_stream h hn
  have hle : (stream (ps.take (complete ps n))).length ≤ n :=
    (length_stream_take_le_iff (complete_le ps n)).mpr (Nat.le_refl _)
  refine ⟨complete ps n, complete_le ps n, fun j hj => length_stream_take_le_iff hj, hread, ?_, ?_⟩
  · rintro ⟨j, hj, hboundary⟩
    have hjk : j ≤ complete ps n := (length_stream_take_le_iff hj).mp (Nat.le_of_eq hboundary)
    have hmono := length_stream_take_le hjk ps
    exact hend (by omega)
  · intro hboundary
    exact (hcut fun hlast => hboundary ⟨_, complete_le ps n, hlast⟩).message

/-- A message with text beyond the basic plane. -/
def greeting : Table Json :=
  [("method", .str "grüß 🎉"), ("params", .arr [.int (-7), .null, .bool true, .obj []])]

theorem sendable_greeting : Sendable greeting where
  readable := by
    refine .obj _ _ (by decide) ?_
    simp only [greeting, List.forall_mem_cons, List.not_mem_nil, false_implies, implies_true,
      and_true]
    refine ⟨.str _ _, .arr _ _ ?_⟩
    simp only [List.forall_mem_cons, List.not_mem_nil, false_implies, implies_true, and_true]
    exact ⟨.int _ _ (by decide +kernel), .null _, .bool _ _, .obj _ _ .nil (by simp)⟩
  short := by decide +kernel

/-- Of two messages the second of which is cut short the first is read. -/
theorem readAll_take_greetings :
    (readAll ((stream [greeting, greeting]).take 120)).1 = [greeting] ∧
      ∃ e, (readAll ((stream [greeting, greeting]).take 120)).2 = some (.server e) ∧
        e.message = "Language server closed the stream mid-message" := by
  have hlength : (encode (.obj greeting)).length = 89 := by decide +kernel
  have hends : ∀ j ≤ 2, (stream ([greeting, greeting].take j)).length = 89 * j := by
    intro j hj
    interval_cases j <;> simp [hlength]
  have hsendable : ∀ p ∈ [greeting, greeting], Sendable p := by simp [sendable_greeting]
  obtain ⟨k, hk, hcomplete, hread, -, hcut⟩ :=
    readAll_take [greeting, greeting] hsendable 120 (by simp [hlength])
  have hone : 1 ≤ k := (hcomplete 1 (by decide)).mp (by rw [hends 1 (by decide)]; decide)
  have htwo : ¬ 2 ≤ k := fun h => by
    have hlong := (hcomplete 2 (by decide)).mpr h
    rw [hends 2 (by decide)] at hlong
    omega
  obtain rfl : k = 1 := by omega
  refine ⟨hread, hcut ?_⟩
  rintro ⟨j, hj, hboundary⟩
  rw [hends j hj] at hboundary
  omega

/-! ## Messages that are nested too deep -/

section Nested

open Json

/-- Lists within each other. -/
def nested : Nat → Json
  | 0 => .null
  | k + 1 => .arr [nested k]

/-- An object that holds such lists. -/
def deep (k : Nat) : Table Json := [("params", nested k)]

theorem compact_nested_succ (k : Nat) :
    compact (nested (k + 1)) = '[' :: (compact (nested k) ++ [']']) := by
  rw [nested, compact, print, printItems_singleton]

theorem readable_nested (k : Nat) : Readable k (nested k) := by
  induction k with
  | zero => exact .null 0
  | succ k ih => exact .arr k _ (by simpa using ih)

theorem length_compact_nested (k : Nat) : (compact (nested k)).length = 2 * k + 4 := by
  induction k with
  | zero => rfl
  | succ k ih => rw [compact_nested_succ, List.length_cons, List.length_append, ih]; rfl

theorem skipSpace_nested_ne (k : Nat) (t cs : List Char) :
    skipSpace (compact (nested k) ++ t) ≠ ']' :: cs := by
  obtain ⟨c, tail, htext, hstart⟩ := compact_starts (readable_nested k)
  rw [skipSpace_compact (readable_nested k), htext, List.cons_append]
  intro h
  rw [(List.cons.inj h).1] at hstart
  cases hstart

/-- A list that nests deeper than allowed is refused, whatever follows. -/
theorem value_nested {d : Nat} (hdeep : d < k) (hn : 2 * d < n) (t : List Char) :
    value n d (compact (nested k) ++ t) = .error (.tooDeep .list) := by
  induction d generalizing n k t with
  | zero =>
      obtain ⟨n, rfl⟩ : ∃ m, n = m + 1 := ⟨n - 1, by omega⟩
      obtain ⟨k, rfl⟩ : ∃ m, k = m + 1 := ⟨k - 1, by omega⟩
      rw [compact_nested_succ, List.cons_append, value]
  | succ d ih =>
      obtain ⟨n, rfl⟩ : ∃ m, n = m + 2 := ⟨n - 2, by omega⟩
      obtain ⟨k, rfl⟩ : ∃ m, k = m + 1 := ⟨k - 1, by omega⟩
      have hitem := ih (n := n) (k := k) (by omega) (by omega) ([']'] ++ t)
      rw [compact_nested_succ, List.cons_append, List.append_assoc,
        value_list (skipSpace_nested_ne k _), skipSpace_compact (readable_nested k),
        items_error hitem]
      rfl

theorem compact_deep (k : Nat) :
    compact (.obj (deep k)) =
      '{' :: (stringText "params" ++ ':' :: (compact (nested k) ++ ['}'])) := by
  rw [compact, print, deep, printFields_singleton]

theorem length_compact_deep (k : Nat) : (compact (.obj (deep k))).length = 2 * k + 15 := by
  have hname : (stringText "params").length = 8 := by decide
  rw [compact_deep, List.length_cons, List.length_append, List.length_cons, List.length_append,
    length_compact_nested, hname, List.length_singleton]
  omega

/-- An object is refused as its only field is. -/
theorem parse_field_error (name : String) {text : List Char} {e : Refusal}
    (h : ∀ n d, 2 * text.length ≤ n → d + 1 = depthLimit →
      value n d (skipSpace (text ++ ['}'])) = .error e) :
    parse ('{' :: (stringText name ++ ':' :: (text ++ ['}']))) =
      .error (.ofRefusal ('{' :: (stringText name ++ ':' :: (text ++ ['}']))) e) := by
  obtain ⟨d, hd⟩ : ∃ d, depthLimit = d + 1 := ⟨984, rfl⟩
  obtain ⟨m, hfuel⟩ : ∃ m, 2 * ('{' :: (stringText name ++ ':' :: (text ++ ['}']))).length + 1 =
      2 * text.length + m + 1 + 1 := by
    refine ⟨2 * (stringText name).length + 5, ?_⟩
    simp only [List.length_cons, List.length_append, List.length_nil]
    omega
  have hfields := fields_error (string_escaped name (':' :: (text ++ ['}'])))
    (h (2 * text.length + m) d (Nat.le_add_right _ _) hd.symm)
  have hdocument : document ('{' :: (stringText name ++ ':' :: (text ++ ['}']))) = .error e := by
    rw [document, hfuel, hd, stringText_append, skipSpace_cons rfl, value_object,
      skipSpace_cons rfl, hfields]
    · rfl
    · rw [skipSpace_cons rfl]
      rintro cs hclose
      cases hclose
  rw [parse, hdocument]
  rfl

theorem parse_deep (h : depthLimit ≤ k) :
    parse (compact (.obj (deep k))) = .error (.tooDeep .list) := by
  have hnested (n d : Nat) (hn : 2 * (compact (nested k)).length ≤ n) (hd : d + 1 = depthLimit) :
      value n d (skipSpace (compact (nested k) ++ ['}'])) = .error (.tooDeep .list) := by
    rw [length_compact_nested] at hn
    rw [skipSpace_compact (readable_nested k)]
    exact value_nested (by omega) (by omega) _
  rw [compact_deep]
  exact parse_field_error "params" hnested

theorem readBody_deep (h : depthLimit ≤ k) :
    readBody (ascii (compact (.obj (deep k)))) =
      .error (.fault (.malformedJson (.tooDeep .list))) := by
  have hreadable : Readable (k + 1) (.obj (deep k)) :=
    .obj k _ (by simp [deep, Table.keys]) (by simpa [deep] using readable_nested k)
  rw [readBody, decodeBody_compact hreadable]
  dsimp only
  rw [parse_deep h]

/-- An object whose lists are nested deeper than the reader of JSON goes is not read back. -/
theorem readAll_encode_deep :
    readAll (encode (.obj (deep depthLimit))) =
      ([], some (.fault (.malformedJson (.tooDeep .list)))) := by
  have hshort : (compact (.obj (deep depthLimit))).length < 10 ^ digitLimit := by
    rw [length_compact_deep]
    exact Nat.lt_of_lt_of_le (by decide : 2 * depthLimit + 15 < 10 ^ 4)
      (Nat.pow_le_pow_right (by decide) (by decide))
  have hread : read true (encode (.obj (deep depthLimit)) ++ []) = _ := read_frame hshort []
  rw [List.append_nil, readBody_deep (Nat.le_refl _)] at hread
  exact readAll_failed hread

end Nested

end SfcCheck.Wire
