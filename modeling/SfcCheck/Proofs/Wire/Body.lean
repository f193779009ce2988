import SfcCheck.Proofs.Json.RoundTrip
import SfcCheck.Wire

/-!
# The body of a message

The text of a value consists of ASCII characters, whatever its strings hold, so each character is
one byte of the body and the length of the body is that of the text. A text that starts with an
ASCII character other than the null character, and goes on with another, is taken for UTF-8.
-/

namespace SfcCheck

/-! ## ASCII texts -/

namespace Text

/-- A text of ASCII characters. -/
def IsAscii (cs : List Char) : Prop := ∀ c ∈ cs, c.toNat < 0x80

variable {cs ds : List Char} {c : Char}

instance : Decidable (IsAscii cs) :=
  decidable_of_iff (cs.all (·.toNat < 0x80) = true) (by simp [IsAscii])

@[simp] theorem isAscii_nil : IsAscii [] := by simp [IsAscii]

@[simp] theorem isAscii_cons : IsAscii (c :: cs) ↔ c.toNat < 0x80 ∧ IsAscii cs := by
  simp [IsAscii]

@[simp] theorem isAscii_append : IsAscii (cs ++ ds) ↔ IsAscii cs ∧ IsAscii ds := by
  simp [IsAscii, or_imp, forall_and]

theorem isAscii_replicate (n : Nat) (h : c.toNat < 0x80) : IsAscii (List.replicate n c) := by
  intro d hd
  rwa [List.eq_of_mem_replicate hd]

theorem isAscii_of_isDigit (h : ∀ c ∈ cs, c.isDigit = true) : IsAscii cs := by
  intro c hc
  have hdigit := h c hc
  rw [Char.isDigit, Bool.and_eq_true, decide_eq_true_eq, decide_eq_true_eq] at hdigit
  exact Nat.lt_of_le_of_lt hdigit.2 (by decide)

theorem toNat_ofNat_toNat (h : c.toNat < 0x80) : (UInt8.ofNat c.toNat).toNat = c.toNat := by
  rw [UInt8.toNat_ofNat']
  omega

/-- One byte of an ASCII text is one character. -/
theorem lenientUtf8Step_ascii {b : UInt8} (h : b.toNat < 0x80) (bs : List UInt8) :
    lenientUtf8Step b bs = .ok (Char.ofNat b.toNat, 0) := by
  have hne : b.toNat ≠ 0xed := by omega
  have hstep : utf8Step b bs = .ok (Char.ofNat b.toNat, 0) := by
    rw [utf8Step.eq_def]
    exact if_pos h
  unfold lenientUtf8Step
  split
  · rw [if_neg (fun hsurrogate => hne hsurrogate.1), hstep]
  · exact hstep

theorem decodeFrom_ascii (codec : String) (input : List UInt8) (pos : Nat) (h : IsAscii cs) :
    decodeFrom codec input lenientUtf8Step 0 pos (Wire.ascii cs) = .ok cs := by
  induction cs generalizing pos with
  | nil => rfl
  | cons c cs ih =>
      rw [isAscii_cons] at h
      have hbyte := toNat_ofNat_toNat h.1
      rw [Wire.ascii, List.map_cons, decodeFrom,
        lenientUtf8Step_ascii (by rw [hbyte]; exact h.1), hbyte, Char.ofNat_toNat]
      dsimp only
      rw [← Wire.ascii, ih (pos + 1) h.2]
      rfl

theorem detect_ascii {a b : UInt8} (ha : a.toNat < 0x80) (hzero : a.toNat ≠ 0)
    (hnext : b.toNat ≠ 0) (bs : List UInt8) : Encoding.detect (a :: b :: bs) = .utf8 false := by
  rw [Encoding.detect, List.map_cons, List.map_cons]
  split <;> simp_all

theorem decodeBody_ascii {d : Char} (hc : c.toNat ≠ 0) (hd : d.toNat ≠ 0)
    (h : IsAscii (c :: d :: cs)) : decodeBody (Wire.ascii (c :: d :: cs)) = .ok (c :: d :: cs) := by
  have hcode := h
  rw [isAscii_cons, isAscii_cons] at hcode
  have hdetect : Encoding.detect (Wire.ascii (c :: d :: cs)) = .utf8 false :=
    detect_ascii (by rw [toNat_ofNat_toNat hcode.1]; exact hcode.1)
      (by rw [toNat_ofNat_toNat hcode.1]; exact hc)
      (by rw [toNat_ofNat_toNat hcode.2.1]; exact hd) _
  rw [decodeBody, hdetect]
  exact decodeFrom_ascii _ _ 0 h

end Text

open Text

/-! ## The text of a value -/

namespace Decimal

theorem isAscii_natText (n : Nat) : IsAscii (natText n) :=
  isAscii_of_isDigit fun _ => Json.isDigit_of_mem_natText

theorem isAscii_intText (n : Int) : IsAscii (intText n).toList := by
  rw [intText, String.toList_ofList]
  split
  · exact isAscii_cons.mpr ⟨by decide, isAscii_natText _⟩
  · exact isAscii_natText _

theorem isAscii_exponentText (e : Int) : IsAscii (exponentText e) := by
  have hdigits := isAscii_natText e.natAbs
  rw [exponentText]
  split <;> split <;> simpa using hdigits

theorem isAscii_write (l : Layout) (d : Scaled) : IsAscii (l.write d) := by
  have hdigits := isAscii_natText d.digits
  have htake (n : Nat) : IsAscii ((natText d.digits).take n) :=
    fun c hc => hdigits c (List.mem_of_mem_take hc)
  have hdrop (n : Nat) : IsAscii ((natText d.digits).drop n) :=
    fun c hc => hdigits c (List.mem_of_mem_drop hc)
  have hzeros (n : Nat) : IsAscii (List.replicate n '0') := isAscii_replicate n (by decide)
  have hexponent := isAscii_exponentText
  unfold Layout.write
  dsimp only
  split
  · split
    · next hsplit =>
        rw [hsplit] at hdigits
        simp_all
    · simp_all
  · split
    · simp_all
    · split
      · split <;> simp_all
      · simp_all

theorem isAscii_exactText (x : Float) : IsAscii (exactText x).toList := by
  rw [exactText, Layout.text]
  split
  · decide
  · have hmagnitude :
        IsAscii (if x.isInf then "inf".toList
          else if x == 0.0 then (if Layout.exact.pointZero then ['0', '.', '0'] else ['0'])
          else Layout.exact.write (Binary.shortest (.ofFloat x))) := by
      split
      · decide
      · split
        · decide
        · exact isAscii_write _ _
    dsimp only
    rw [String.toList_ofList]
    split
    · exact isAscii_cons.mpr ⟨by decide, hmagnitude⟩
    · exact hmagnitude

end Decimal

namespace Json

variable {d : Nat} {v : Json}

theorem isAscii_floatText (x : Float) : IsAscii (floatText x) := by
  rw [floatText]
  split
  · decide
  · split
    · split <;> decide
    · exact Decimal.isAscii_exactText x

theorem hexDigit_toNat_lt : ∀ n < 16, (hexDigit n).toNat < 0x80 := by decide

theorem isAscii_unitEscape (n : Nat) : IsAscii (unitEscape n) := by
  have hdigit (m : Nat) : (hexDigit (m % 16)).toNat < 0x80 :=
    hexDigit_toNat_lt _ (Nat.mod_lt m (by decide))
  simp [unitEscape, hexText, hdigit]

theorem isAscii_escapeChar (c : Char) : IsAscii (escapeChar c) := by
  have h := escaping c
  generalize escapeChar c = text at h
  cases h with
  | letter l hletter hu hascii => simpa using hascii
  | plain hquote hslash hlow hhigh => simpa using Nat.lt_succ_of_lt hhigh
  | unit hlow => exact isAscii_unitEscape _
  | pair hhigh => exact isAscii_append.mpr ⟨isAscii_unitEscape _, isAscii_unitEscape _⟩

theorem isAscii_stringText (s : String) : IsAscii (stringText s) := by
  have hchars : IsAscii (s.toList.flatMap escapeChar) := by
    intro c hc
    obtain ⟨d, -, hd⟩ := List.mem_flatMap.mp hc
    exact isAscii_escapeChar d c hd
  simpa [stringText] using hchars

theorem isAscii_printItems {items : List Json} (h : ∀ v ∈ items, IsAscii (compact v)) :
    IsAscii (printItems .compact items) := by
  induction items with
  | nil => decide
  | cons v vs ih =>
      have hv := h v (.head _)
      rcases vs with _ | ⟨w, vs⟩
      · rw [printItems_singleton]
        simpa using hv
      · rw [printItems_cons]
        simpa using ⟨hv, ih fun v hv => h v (.tail _ hv)⟩

theorem isAscii_printFields {fields : Table Json} (h : ∀ f ∈ fields, IsAscii (compact f.2)) :
    IsAscii (printFields .compact fields) := by
  induction fields with
  | nil => decide
  | cons f fs ih =>
      obtain ⟨k, v⟩ := f
      have hk := isAscii_stringText k
      have hv := h (k, v) (.head _)
      rcases fs with _ | ⟨f, fs⟩
      · rw [printFields_singleton]
        simpa using ⟨hk, hv⟩
      · rw [printFields_cons]
        simpa using ⟨hk, hv, ih fun f hf => h f (.tail _ hf)⟩

/-- Nothing but ASCII is written. -/
theorem isAscii_compact (h : Readable d v) : IsAscii (compact v) := by
  induction h with
  | null d => decide
  | bool d b => cases b <;> decide
  | int d n hdigits => exact Decimal.isAscii_intText n
  | float d x hread => exact isAscii_floatText x
  | str d s => exact isAscii_stringText s
  | arr d items hitems ih => exact isAscii_cons.mpr ⟨by decide, isAscii_printItems ih⟩
  | obj d fields hkeys hfields ih => exact isAscii_cons.mpr ⟨by decide, isAscii_printFields ih⟩

/-- The text of an object starts with two characters of its own. -/
theorem compact_obj_starts (fields : Table Json) :
    ∃ c cs, compact (.obj fields) = '{' :: c :: cs ∧ (c = '"' ∨ c = '}') := by
  rcases fields with _ | ⟨f, fs⟩
  · exact ⟨'}', [], rfl, .inr rfl⟩
  · obtain ⟨cs, htext⟩ := printFields_starts f fs []
    rw [List.append_nil] at htext
    exact ⟨'"', cs, by rw [compact, print, htext], .inl rfl⟩

end Json

/-! ## Reading a body -/

namespace Wire

open Json

@[simp] theorem length_ascii (cs : List Char) : (ascii cs).length = cs.length := List.length_map _

@[simp] theorem ascii_append (cs ds : List Char) : ascii (cs ++ ds) = ascii cs ++ ascii ds :=
  List.map_append

theorem decodeBody_compact {d : Nat} {p : Table Json} (h : Readable d (.obj p)) :
    decodeBody (ascii (compact (.obj p))) = .ok (compact (.obj p)) := by
  obtain ⟨c, cs, htext, hc⟩ := compact_obj_starts p
  have hascii := isAscii_compact h
  have hnull : c.toNat ≠ 0 := by rcases hc with rfl | rfl <;> decide
  rw [htext] at hascii ⊢
  exact decodeBody_ascii (by decide) hnull hascii

/-- A body is read as it was written. -/
theorem readBody_ascii {p : Table Json} (h : Readable depthLimit (.obj p)) :
    readBody (ascii (compact (.obj p))) = .ok p := by
  rw [readBody, decodeBody_compact h]
  dsimp only
  rw [parse_compact h]

end Wire

end SfcCheck
