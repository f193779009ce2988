import SfcCheck.Proofs.Json.Relaxed
import SfcCheck.Proofs.Text.Utf8
import SfcCheck.Proofs.Wire.Outcomes

/-!
# Frames of other writers

Other writers frame a message in their own way: with blank lines before the header, with further
header lines in any order, with the names in any letter case, with blanks around names and values.
As long as one line alone gives the length of the body and no line is too long, blanks included, the
message is read and what follows is left as it is (`foreign_frames_read`). The body is the text of
an object in any encoding that the reader knows, in particular in UTF-8 (`holdsObject_encodeUtf8`).
-/

namespace SfcCheck

/-! ## Texts of JSON in UTF-8 -/

namespace Text

variable {c : Char} {cs : List Char}

theorem utf8Char_of_ascii (h : c.toNat < 0x80) : utf8Char c = [c.toNat.toUInt8] := by
  simp [utf8Char, h]

theorem utf8Char_starts (h : c.toNat ≠ 0) : ∃ b bs, utf8Char c = b :: bs ∧ b.toNat ≠ 0 := by
  have hbounds := char_bounds c
  unfold utf8Char
  dsimp only
  generalize c.toNat = n at h hbounds
  split
  · exact ⟨_, _, rfl, by rw [toNat_toUInt8 (by omega)]; exact h⟩
  · split
    · exact ⟨_, _, rfl, by rw [toNat_toUInt8 (by omega)]; omega⟩
    · split <;> exact ⟨_, _, rfl, by rw [toNat_toUInt8 (by omega)]; omega⟩

/-- Two characters that are not null, the first of them in ASCII, show that a text is in UTF-8. -/
theorem decodeBody_encodeUtf8 (hfirst : ∀ c ∈ cs[0]?, c.toNat ≠ 0 ∧ c.toNat < 0x80)
    (hsecond : ∀ c ∈ cs[1]?, c.toNat ≠ 0) : decodeBody (encodeUtf8 cs) = .ok cs := by
  have hdetect : Encoding.detect (encodeUtf8 cs) = .utf8 false := by
    cases cs with
    | nil => rfl
    | cons c cs =>
        obtain ⟨hc, hascii⟩ := hfirst c rfl
        have hbyte : c.toNat.toUInt8.toNat = c.toNat := toNat_toUInt8 (by omega)
        cases cs with
        | nil => simp [encodeUtf8, utf8Char_of_ascii hascii, Encoding.detect]
        | cons d cs =>
            obtain ⟨b, bs, hbytes, hb⟩ := utf8Char_starts (hsecond d rfl)
            have hencode : encodeUtf8 (c :: d :: cs) =
                c.toNat.toUInt8 :: b :: (bs ++ encodeUtf8 cs) := by
              simp [encodeUtf8, utf8Char_of_ascii hascii, hbytes]
            rw [hencode]
            apply detect_ascii _ _ hb
            · rw [hbyte]
              exact hascii
            · rw [hbyte]
              exact hc
  rw [decodeBody, hdetect]
  exact decodeFrom_encodeUtf8 (fun c => (readsBack_utf8Step c).lenient) _ _ 0

end Text

namespace Json

variable {t : Token} {us : List Token}

/-- A token outside comments starts with an ASCII character, and no null character comes after. -/
theorem Token.text_starts_ascii (hvalid : t.Valid) (hcomment : t.isComment = false) :
    ∃ c cs, t.text = c :: cs ∧ (c.toNat ≠ 0 ∧ c.toNat < 0x80) ∧ ∀ d ∈ cs[0]?, d.toNat ≠ 0 := by
  cases t with
  | lineComment | blockComment => cases hcomment
  | blank c =>
      simp only [Token.Valid, isSpace, Bool.or_eq_true, beq_iff_eq] at hvalid
      obtain ((rfl | rfl) | rfl) | rfl := hvalid <;> exact ⟨_, [], rfl, by decide, by simp⟩
  | mark m => cases m <;> exact ⟨_, [], rfl, by decide, by simp⟩
  | string raw =>
      obtain ⟨s, hquoting⟩ := hvalid
      refine ⟨'"', _, rfl, by decide, ?_⟩
      cases hquoting with
      | nil | letter | unit | pair => simp
      | plain hquote hslash hcontrol h => simpa using Nat.ne_zero_of_lt hcontrol
  | scalar text =>
      obtain ⟨v, hscalar⟩ := hvalid
      obtain ⟨c, cs, rfl, hc⟩ := startsScalar_of_scalar hscalar
      have hchars := isScalarChar_of_scalar hscalar
      have hbounds := toNat_of_isScalarChar (hchars c (.head _))
      refine ⟨c, cs, rfl, by omega, fun d hd => ?_⟩
      have hbounds := toNat_of_isScalarChar (hchars d (.tail _ (List.mem_of_getElem? hd)))
      omega

theorem decodeBody_tokensText (hplain : Plain us) :
    Text.decodeBody (Text.encodeUtf8 (tokensText us)) = .ok (tokensText us) := by
  cases us with
  | nil => rfl
  | cons u us =>
      obtain ⟨⟨hvalid, hcomment⟩, hplain⟩ := plain_cons.mp hplain
      obtain ⟨c, cs, htext, hc, hnext⟩ := Token.text_starts_ascii hvalid hcomment
      have htext : tokensText (u :: us) = c :: (cs ++ tokensText us) := by
        rw [tokensText_cons, htext, List.cons_append]
      rw [htext]
      apply Text.decodeBody_encodeUtf8 (by simpa using hc)
      cases cs with
      | cons d cs => simpa using hnext
      | nil =>
          cases us with
          | nil => simp
          | cons v us =>
              obtain ⟨⟨hvalid, hcomment⟩, -⟩ := plain_cons.mp hplain
              obtain ⟨d, ds, hd, ⟨hnull, -⟩, -⟩ := Token.text_starts_ascii hvalid hcomment
              simpa [hd] using hnull

end Json

namespace Wire

open Text Json

variable {ended : Bool} {body line rest : List UInt8} {fields : Table Json} {n : Nat}

/-! ## Bodies -/

/-- A body is the text of an object, in an encoding that the reader tells from its first bytes. -/
def HoldsObject (body : List UInt8) (fields : Table Json) : Prop :=
  ∃ us, Plain us ∧ decodeBody body = .ok (tokensText us) ∧
    Written .strict depthLimit (.value (.obj fields)) (lexemes us) []

theorem holdsObject_encodeUtf8 {us : List Token} (hplain : Plain us)
    (h : Written .strict depthLimit (.value (.obj fields)) (lexemes us) []) :
    HoldsObject (encodeUtf8 (tokensText us)) fields :=
  ⟨us, hplain, decodeBody_tokensText hplain, h⟩

theorem HoldsObject.readBody_eq (h : HoldsObject body fields) : readBody body = .ok fields := by
  obtain ⟨us, hplain, hdecode, hwritten⟩ := h
  simp only [readBody, hdecode, parse_tokensText hplain hwritten]

/-! ## Header lines -/

/-- A header line has the name of the line that gives the length, in any letter case. -/
def IsLengthLine (line : List UInt8) : Prop := (nameOf line).map Char.toLower = lengthName.toList

instance (line : List UInt8) : Decidable (IsLengthLine line) := inferInstanceAs (Decidable (_ = _))

/-- A character of a header line changes its case alone. -/
theorem lowerChar_asciiChar (b : UInt8) :
    (asciiChar b).toNat ≠ 0x3a3 ∧ lowerChar (asciiChar b) = [(asciiChar b).toLower] := by
  unfold asciiChar
  split
  · next h =>
      have hcode : ∀ n < 128, (Char.ofNat n).toNat = n := by decide
      rw [← hcode _ h] at h
      exact ⟨by omega, lowerChar_of_ascii h⟩
  · exact ⟨by decide, by decide +kernel⟩

theorem exists_of_mem_nameOf {c : Char} (h : c ∈ nameOf line) : ∃ b, c = asciiChar b := by
  obtain ⟨before, after, hsplit, -⟩ := exists_trim ((line.map asciiChar).takeWhile (· != ':'))
  have hmem : c ∈ (line.map asciiChar).takeWhile (· != ':') := by
    rw [hsplit]
    exact List.mem_append_right _ (List.mem_append_left _ h)
  obtain ⟨b, -, rfl⟩ := List.mem_map.mp ((List.takeWhile_sublist _).subset hmem)
  exact ⟨b, rfl⟩

theorem entry_fst_iff : (entry line).1 = lengthName ↔ IsLengthLine line := by
  have hlower : lowerCase (nameOf line) = (nameOf line).map Char.toLower := by
    apply lowerCase_of_single
    intro c hc
    obtain ⟨b, rfl⟩ := exists_of_mem_nameOf hc
    exact lowerChar_asciiChar b
  rw [entry, hlower, IsLengthLine, ← String.toList_inj, String.toList_ofList]

/-! ## Frames -/

/-- A frame as any writer may send it. -/
structure ForeignFrame where
  header : Header
  /-- The header lines before the one that gives the length. -/
  before : List (List UInt8)
  lengthLine : List UInt8
  after : List (List UInt8)
  body : List UInt8
  fields : Table Json
  lines_eq : header.lines = before ++ lengthLine :: after
  isLengthLine : IsLengthLine lengthLine
  /-- No other line gives a length. -/
  alone : ∀ line ∈ before ++ after, ¬ IsLengthLine line
  isNumeral : Setting.IsNumeral (valueOf lengthLine) body.length
  holdsObject : HoldsObject body fields

namespace ForeignFrame

variable (f : ForeignFrame)

def bytes : List UInt8 := f.header.text ++ 10 :: f.body

/-- The line that gives the length is found wherever it stands. -/
theorem table_get? :
    f.header.table.get? lengthName = some (String.ofList (valueOf f.lengthLine)) := by
  have hfound : (entry f.lengthLine).1 = lengthName := entry_fst_iff.mpr f.isLengthLine
  have hafter : ∀ line ∈ f.after, (entry line).1 ≠ lengthName := by
    intro line hline
    rw [ne_eq, entry_fst_iff]
    exact f.alone line (List.mem_append_right _ hline)
  apply Table.get?_ofList_map_eq_some_iff.mpr
  exact ⟨f.before, f.lengthLine, f.after, f.lines_eq, Prod.ext hfound rfl, hafter⟩

theorem hasBody (rest : List UInt8) : HasBody f.header.table (f.body ++ rest) f.body :=
  ⟨_, f.table_get?, f.isNumeral.integerOfText_eq, List.prefix_append _ _⟩

theorem read_eq (rest : List UInt8) : read ended (f.bytes ++ rest) = .message f.fields rest := by
  rw [bytes, List.append_assoc, List.cons_append, f.header.read_append,
    (f.hasBody rest).readAfter_eq, f.holdsObject.readBody_eq, List.drop_left]

theorem readAll_eq (fs : List ForeignFrame) (rest : List UInt8) :
    readAll (fs.flatMap bytes ++ rest) =
      (fs.map ForeignFrame.fields ++ (readAll rest).1, (readAll rest).2) := by
  induction fs with
  | nil => rfl
  | cons f fs ih =>
      rw [List.flatMap_cons, List.append_assoc, readAll_message (f.read_eq _), ih]
      rfl

end ForeignFrame

/-- A message is read from the frame of any writer, and what follows is left as it is; the frames of
such writers, one after the other, are read as their messages, and what follows as if it came
first. -/
theorem foreign_frames_read (f : ForeignFrame) (fs : List ForeignFrame) (rest : List UInt8) :
    (∀ ended, read ended (f.bytes ++ rest) = .message f.fields rest) ∧
      readAll (fs.flatMap ForeignFrame.bytes ++ rest) =
        (fs.map ForeignFrame.fields ++ (readAll rest).1, (readAll rest).2) :=
  ⟨fun _ => f.read_eq rest, ForeignFrame.readAll_eq fs rest⟩

/-- A frame with two blank lines before it, the length in capitals between other lines, and a body
beyond ASCII. -/
def shouting : ForeignFrame where
  header :=
    { skipped := [[13], [32]]
      lines := [encodeUtf8 "X-Note: é".toList, encodeUtf8 "CONTENT-LENGTH :\t010 \r".toList,
        encodeUtf8 " x\r".toList]
      closing := [13]
      skipped_blank := by decide +kernel
      lines_header := by decide +kernel
      lines_ne_nil := by simp
      closing_blank := isBlankLine_return }
  before := [encodeUtf8 "X-Note: é".toList]
  lengthLine := encodeUtf8 "CONTENT-LENGTH :\t010 \r".toList
  after := [encodeUtf8 " x\r".toList]
  body := encodeUtf8 "\x7b\"a\":\"é\"\x7d".toList
  fields := [("a", .str "é")]
  lines_eq := rfl
  isLengthLine := by decide +kernel
  alone := by decide +kernel
  isNumeral := by
    have hvalue : valueOf (encodeUtf8 "CONTENT-LENGTH :\t010 \r".toList) = ['0', '1', '0'] := by
      decide +kernel
    rw [hvalue]
    exact ⟨by simp, by simp, by decide, by decide +kernel⟩
  holdsObject := by
    have hkey : Quoting ['a'] "a".toList := .plain (by decide) (by decide) (by decide) .nil
    have hvalue : Quoting ['é'] "é".toList := .plain (by decide) (by decide) (by decide) .nil
    have hplain : Plain [.mark .openObject, .string ['a'], .mark .colon, .string ['é'],
        .mark .closeObject] := by
      simp only [plain_cons, plain_nil, and_true]
      exact ⟨⟨trivial, rfl⟩, ⟨⟨_, hkey⟩, rfl⟩, ⟨trivial, rfl⟩, ⟨⟨_, hvalue⟩, rfl⟩, trivial, rfl⟩
    exact holdsObject_encodeUtf8 hplain
      (.object (.inl rfl) (.lastField hkey (.string _ hvalue _) (.plain _)))

theorem foreign_frames_read_shouting :
    shouting.bytes = encodeUtf8
      "\r\n \nX-Note: é\nCONTENT-LENGTH :\t010 \r\n x\r\n\r\n\x7b\"a\":\"é\"\x7d".toList ∧
    read true (shouting.bytes ++ [123]) = .message [("a", .str "é")] [123] :=
  ⟨by decide +kernel, (foreign_frames_read shouting [] [123]).1 true⟩

/-! ## Frames beyond the limits of the reader -/

/-- The object of one field with so many ones as its value, as it is written. -/
def onesText (k : Nat) : List Char :=
  '{' :: (stringText "params" ++ ':' :: (List.replicate k '1' ++ ['}']))

theorem parse_onesText {k : Nat} (h : digitLimit < k) :
    parse (onesText k) = .error (.tooManyDigits k) := by
  have hones (n d : Nat) (hn : 2 * (List.replicate k '1').length ≤ n) (_ : d + 1 = depthLimit) :
      value n d (skipSpace (List.replicate k '1' ++ ['}'])) = .error (.tooManyDigits k) := by
    rw [List.length_replicate] at hn
    obtain ⟨n, rfl⟩ : ∃ m, n = m + 1 := ⟨n - 1, by omega⟩
    obtain ⟨j, rfl⟩ : ∃ j, k = j + 1 := ⟨k - 1, by omega⟩
    rw [List.replicate_succ, List.cons_append, skipSpace_cons rfl, ← List.cons_append,
      ← List.replicate_succ]
    exact value_ones h (.cons rfl [])
  exact parse_field_error "params" hones

theorem readBody_onesText {k : Nat} (h : digitLimit < k) :
    readBody (ascii (onesText k)) = .error (.fault (.malformedJson (.tooManyDigits k))) := by
  obtain ⟨cs, hcs, hascii⟩ : ∃ cs, onesText k = '{' :: '"' :: cs ∧ IsAscii cs := by
    have hname : stringText "params" = '"' :: "params\"".toList := by decide
    have hones := isAscii_replicate k (by decide : '1'.toNat < 0x80)
    refine ⟨"params\"".toList ++ ':' :: (List.replicate k '1' ++ ['}']), ?_, ?_⟩
    · rw [onesText, hname, List.cons_append]
    · simp [hones]
  have hdecode : decodeBody (ascii (onesText k)) = .ok (onesText k) := by
    rw [hcs]
    exact decodeBody_ascii (by decide) (by decide) (by simpa using hascii)
  simp only [readBody, hdecode, parse_onesText h]

theorem length_onesText (k : Nat) : (onesText k).length = k + 11 := by
  have hname : (stringText "params").length = 8 := by decide
  simp [onesText, hname]
  omega

/-- Objects that are nested too deep, or that hold an integer of too many digits, are not read, and
nothing is read behind a blank line that is too long. -/
theorem read_beyond_limits :
    read true (lengthField "1985" ++ 10 :: 13 :: 10 :: ascii (compact (.obj (deep 985)))) =
      .failed (.fault (.malformedJson (.tooDeep .list))) ∧
    read true (lengthField "4312" ++ 10 :: 13 :: 10 :: ascii (onesText 4301)) =
      .failed (.fault (.malformedJson (.tooManyDigits 4301))) ∧
    read true (List.replicate 70000 32 ++
        10 :: (lengthField "2" ++ 10 :: 13 :: 10 :: ascii (compact (.obj [])))) =
      .failed (.fault (.longLine true)) := by
  have hdeep : HasBody (Header.single (lengthField "1985") (by decide)).table
      (ascii (compact (.obj (deep 985)))) (ascii (compact (.obj (deep 985)))) := by
    refine ⟨"1985", by decide +kernel, ?_, List.prefix_rfl⟩
    rw [length_ascii, length_compact_deep]
    rfl
  have hones : HasBody (Header.single (lengthField "4312") (by decide)).table
      (ascii (onesText 4301)) (ascii (onesText 4301)) := by
    refine ⟨"4312", by decide +kernel, ?_, List.prefix_rfl⟩
    rw [length_ascii, length_onesText]
    rfl
  have hunbroken : (10 : UInt8) ∉ List.replicate 70000 32 := by
    intro h
    cases List.eq_of_mem_replicate h
  have hlong : lineLimit < (List.replicate 70000 (32 : UInt8)).length := by
    rw [List.length_replicate]
    decide
  refine ⟨?_, ?_, ?_⟩
  · rw [(startsWith_single (by decide) _).read_eq, hdeep.readAfter_eq, readBody_deep (by decide)]
  · rw [(startsWith_single (by decide) _).read_eq, hones.readAfter_eq,
      readBody_onesText (by decide)]
  · have hstarts (rest : List UInt8) :
        StartsLong (written [] ++ (written [] ++ (List.replicate 70000 32 ++ 10 :: rest)))
          (.longLine true) := .line (by simp) (by simp) hunbroken hlong rest
    exact (hstarts _).read_eq

end Wire

end SfcCheck
