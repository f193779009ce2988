import SfcCheck.Proofs.Wire.Body

/-!
# A frame and its truncations

A message is read back from its frame, whatever follows. Of a frame that is cut short the reader
makes no message: up to the end of the first line the cut falls into the header, after it into the
body, as the length in the header is then known and asks for more than has come.
-/

namespace SfcCheck

open Text Decimal

/-! ## Digits between other characters -/

theorem isDigit_bounds {c : Char} (h : c.isDigit = true) : 48 ≤ c.toNat ∧ c.toNat ≤ 57 := by
  rw [Char.isDigit, Bool.and_eq_true, decide_eq_true_eq, decide_eq_true_eq] at h
  exact ⟨UInt32.le_iff_toNat_le.mp h.1, UInt32.le_iff_toNat_le.mp h.2⟩

theorem isBlank_of_isDigit {c : Char} (h : c.isDigit = true) : isBlank c = false := by
  have hbounds := isDigit_bounds h
  simp [isBlank, inRanges, blankRanges]
  omega

section Digits

variable {p : Char → Bool} {ds : List Char}

theorem trimLeft_digits (h : ∀ c, c.isDigit = true → p c = false)
    (hds : ∀ c ∈ ds, c.isDigit = true) : trimLeft p ds = ds := by
  cases ds with
  | nil => rfl
  | cons d ds => exact trimLeft_of_head (h d (hds d (.head _))) ds

theorem trimRight_append_digits (h : ∀ c, c.isDigit = true → p c = false)
    (hds : ∀ c ∈ ds, c.isDigit = true) (hne : ds ≠ []) (cs : List Char) :
    trimRight p (cs ++ ds) = cs ++ ds := by
  rcases List.eq_nil_or_concat ds with hnil | ⟨ds, d, rfl⟩
  · exact absurd hnil hne
  · have hd := hds d (by simp)
    rw [List.concat_eq_append, ← List.append_assoc, trimRight_concat (h d hd)]

end Digits

namespace Setting

variable {ds : List Char}

theorem isMargin_of_isDigit {c : Char} (h : c.isDigit = true) : isMargin c = false := by
  have hbounds := isDigit_bounds h
  have hblank : c ≠ ' ' := by
    rintro rfl
    cases h
  rw [isMargin, if_pos (by omega)]
  simp [hblank]
  omega

theorem normalize_digits (h : ∀ c ∈ ds, c.isDigit = true) (hne : ds ≠ []) :
    normalize ds = ds := by
  have htrim := trimRight_append_digits (fun _ => isMargin_of_isDigit) h hne []
  rw [List.nil_append] at htrim
  rw [normalize, trimLeft_digits (fun _ => isMargin_of_isDigit) h, htrim]
  refine (List.map_congr_left fun c hc => ?_).trans (List.map_id _)
  exact if_pos (isAscii_of_isDigit h c hc)

theorem groupedDigits_digits (h : ∀ c ∈ ds, c.isDigit = true) (afterDigit : Bool) :
    groupedDigits afterDigit ds = some (ds, []) := by
  induction ds generalizing afterDigit with
  | nil => rfl
  | cons d ds ih =>
      have hrest := ih (fun c hc => h c (.tail _ hc)) true
      rw [groupedDigits.eq_def]
      dsimp only
      rw [if_pos (h d (.head _)), hrest]
      rfl

/-- Digits are read as the number that they write, leading zeros or not, unless there are too
many. -/
theorem integerOfText_digits (h : ∀ c ∈ ds, c.isDigit = true) (hne : ds ≠ [])
    (hlength : ds.length ≤ Json.digitLimit) :
    integerOfText (String.ofList ds) = .ok (Json.digitsValue ds) := by
  have hsign : Json.splitSign ds = (false, ds) := by
    cases ds with
    | nil => rfl
    | cons d ds =>
        have hd := h d (.head _)
        have hne {c : Char} (hc : c.isDigit = false) : d ≠ c := by
          rintro rfl
          rw [hd] at hc
          cases hc
        simp [Json.splitSign, hne (c := '-') rfl, hne (c := '+') rfl]
  rw [integerOfText, String.toList_ofList, normalize_digits h hne, hsign]
  dsimp only
  rw [groupedDigits_digits h]
  dsimp only
  rw [if_neg (Nat.not_lt.mpr hlength), if_neg (by simp [hne])]
  rfl

/-- Decimal digits, perhaps with leading zeros, that write a number. -/
structure IsNumeral (ds : List Char) (n : Nat) : Prop where
  digits : ∀ c ∈ ds, c.isDigit = true
  ne_nil : ds ≠ []
  short : ds.length ≤ Json.digitLimit
  value_eq : Json.digitsValue ds = n

theorem IsNumeral.integerOfText_eq {n : Nat} (h : IsNumeral ds n) :
    integerOfText (String.ofList ds) = .ok n := by
  rw [integerOfText_digits h.digits h.ne_nil h.short, h.value_eq]

theorem isNumeral_natText {n : Nat} (h : n < 10 ^ Json.digitLimit) : IsNumeral (natText n) n where
  digits _ := Json.isDigit_of_mem_natText
  ne_nil := Nat.toDigits_ne_nil
  short := Json.length_natText_le h (by decide)
  value_eq := Json.digitsValue_natText n

end Setting

namespace Wire

open Json (compact)

variable {ended : Bool} {headers : Table String} {bytes line rest : List UInt8} {n k : Nat}

/-! ## Lines -/

theorem line?_eq (h : 10 ∉ line) (rest : List UInt8) : line? ended (line ++ 10 :: rest) =
    if lineLimit < line.length then .error (.longLine true) else .ok (some (line, rest)) := by
  have hline : ∀ b ∈ line, (b != 10) = true := fun b hb => by simpa using ne_of_mem_of_not_mem hb h
  rw [line?, List.dropWhile_append_of_pos hline, List.takeWhile_append_of_pos hline]
  simp

theorem line?_append (h : 10 ∉ line) (hshort : line.length ≤ lineLimit) (rest : List UInt8) :
    line? ended (line ++ 10 :: rest) = .ok (some (line, rest)) := by
  rw [line?_eq h, if_neg (Nat.not_lt.mpr hshort)]

theorem line?_unfinished_eq (h : 10 ∉ bytes) : line? true bytes =
    if lineLimit < bytes.length then .error (.longLine false) else .ok (some (bytes, [])) := by
  have hline : ∀ b ∈ bytes, (b != 10) = true := fun b hb => by simpa using ne_of_mem_of_not_mem hb h
  rw [line?, List.dropWhile_eq_nil_iff.mpr hline, List.takeWhile_eq_self_iff.mpr hline]
  rfl

/-- The end of the stream ends a line. -/
theorem line?_unfinished (h : 10 ∉ bytes) (hshort : bytes.length ≤ lineLimit) :
    line? true bytes = .ok (some (bytes, [])) := by
  rw [line?_unfinished_eq h, if_neg (Nat.not_lt.mpr hshort)]

/-- What a line adds to a header. -/
theorem readFrom_line (hne : bytes ≠ []) (hline : line? ended bytes = .ok (some (line, rest))) :
    readFrom ended headers bytes =
      if (lineText line).isEmpty then
        if headers.isEmpty then readFrom ended headers rest else readAfter ended headers rest
      else
        readFrom ended (headers.put (nameAndValue (lineText line)).1
          (nameAndValue (lineText line)).2) rest := by
  rw [readFrom, dif_neg hne]
  split
  · next h =>
      rw [hline] at h
      cases h
  · next h =>
      rw [hline] at h
      cases h
  · next h =>
      rw [hline] at h
      cases h
      rfl

/-- A line that is too long ends the reading. -/
theorem readFrom_long {f : Fault} (hne : bytes ≠ []) (hline : line? ended bytes = .error f) :
    readFrom ended headers bytes = .failed (.fault f) := by
  rw [readFrom, dif_neg hne]
  split
  · next h =>
      rw [hline] at h
      cases h
      rfl
  · next h =>
      rw [hline] at h
      cases h
  · next h =>
      rw [hline] at h
      cases h

theorem readFrom_nil (h : headers.isEmpty = false) :
    readFrom true headers [] = .failed (.server .endedInHeader) := by
  rw [readFrom, dif_pos rfl, if_neg (by decide), if_neg (by simp [h])]

theorem map_asciiChar_ascii {cs : List Char} (h : IsAscii cs) : (ascii cs).map asciiChar = cs := by
  rw [ascii, List.map_map]
  refine (List.map_congr_left fun c hc => ?_).trans (List.map_id _)
  have hbyte := toNat_ofNat_toNat (h c hc)
  rw [Function.comp, asciiChar, hbyte, if_pos (h c hc), Char.ofNat_toNat]
  rfl

theorem newline_not_mem_ascii {cs : List Char} (h : IsAscii cs) (hcs : '\n' ∉ cs) :
    10 ∉ ascii cs := by
  rw [ascii, List.mem_map]
  rintro ⟨c, hc, hbyte⟩
  have hcode : c.toNat = 10 := by
    rw [← toNat_ofNat_toNat (h c hc), hbyte]
    rfl
  have hnewline : c = '\n' := by rw [← Char.ofNat_toNat c, hcode]
  exact hcs (hnewline ▸ hc)

/-! ## The header of a frame -/

/-- The line that gives the length of a body, without its newline. -/
def lengthLine (n : Nat) : List UInt8 := ascii ("Content-Length: ".toList ++ natText n ++ ['\r'])

theorem isAscii_lengthText (n : Nat) :
    IsAscii ("Content-Length: ".toList ++ natText n ++ ['\r']) := by
  rw [isAscii_append, isAscii_append]
  exact ⟨⟨by decide, isAscii_natText n⟩, by decide⟩

theorem newline_not_mem_lengthLine (n : Nat) : 10 ∉ lengthLine n := by
  refine newline_not_mem_ascii (isAscii_lengthText n) ?_
  rw [List.mem_append, List.mem_append]
  rintro ((h | h) | h)
  · exact absurd h (by decide)
  · exact absurd (Json.isDigit_of_mem_natText h) (by decide)
  · exact absurd h (by decide)

theorem ascii_header (n : Nat) : ascii (header n) = lengthLine n ++ [10, 13, 10] := by
  have hend : ascii "\r\n\r\n".toList = ascii ['\r'] ++ [10, 13, 10] := by simp [ascii]
  change ascii ("Content-Length: ".toList ++ natText n ++ "\r\n\r\n".toList) = _
  rw [lengthLine, ascii_append _ "\r\n\r\n".toList, hend,
    ascii_append ("Content-Length: ".toList ++ natText n) ['\r'], List.append_assoc]

theorem encode_eq (v : Json) :
    encode v = lengthLine (compact v).length ++ 10 :: 13 :: 10 :: ascii (compact v) := by
  have hframe : encode v = ascii (header (ascii (compact v)).length) ++ ascii (compact v) := rfl
  rw [hframe, length_ascii (compact v), ascii_header, List.append_assoc, List.cons_append,
    List.cons_append, List.cons_append, List.nil_append]

/-- The characters before the length. -/
theorem label_toList : "Content-Length: ".toList =
    ['C', 'o', 'n', 't', 'e', 'n', 't', '-', 'L', 'e', 'n', 'g', 't', 'h', ':', ' '] := by
  simp

theorem lineText_lengthLine (n : Nat) :
    lineText (lengthLine n) = "Content-Length: ".toList ++ natText n := by
  have hhead : trimLeft isBlank ("Content-Length: ".toList ++ natText n ++ ['\r']) =
      "Content-Length: ".toList ++ natText n ++ ['\r'] := by
    rw [label_toList]
    exact trimLeft_of_head (by decide) _
  rw [lineText, lengthLine, map_asciiChar_ascii (isAscii_lengthText n), trim, hhead,
    trimRight_concat_of_blank (by decide),
    trimRight_append_digits (fun _ => isBlank_of_isDigit) (fun _ => Json.isDigit_of_mem_natText)
      Nat.toDigits_ne_nil]

theorem nameAndValue_length (n : Nat) :
    nameAndValue ("Content-Length: ".toList ++ natText n) =
      (lengthName, String.ofList (natText n)) := by
  have hname : ("Content-Length: ".toList ++ natText n).takeWhile (· != ':') =
      "Content-Length".toList := by
    simp [label_toList]
  have hvalue : (("Content-Length: ".toList ++ natText n).dropWhile (· != ':')).drop 1 =
      ' ' :: natText n := by
    simp [label_toList]
  have htrim : trim (' ' :: natText n) = natText n := by
    have hblank : trimLeft isBlank (' ' :: natText n) = trimLeft isBlank (natText n) := rfl
    have hdigits : ∀ c ∈ natText n, c.isDigit = true := fun _ => Json.isDigit_of_mem_natText
    have hright :=
      trimRight_append_digits (fun _ => isBlank_of_isDigit) hdigits Nat.toDigits_ne_nil []
    rw [List.nil_append] at hright
    rw [trim, hblank, trimLeft_digits (fun _ => isBlank_of_isDigit) hdigits, hright]
  have hlower : lowerCase (trim "Content-Length".toList) = "content-length".toList := by
    decide +kernel
  rw [nameAndValue, hname, hvalue, htrim, hlower, String.ofList_toList, lengthName]

/-- The header that a frame gives. -/
def lengthHeader (n : Nat) : Table String := [(lengthName, String.ofList (natText n))]

theorem isEmpty_lengthHeader (n : Nat) : (lengthHeader n).isEmpty = false := rfl

/-- The digits of a length that can be read do not make the line too long. -/
theorem length_lengthLine_le (h : n < 10 ^ Json.digitLimit) :
    (lengthLine n).length ≤ lineLimit := by
  have hdigits : (natText n).length ≤ Json.digitLimit := Json.length_natText_le h (by decide)
  have hlimits : 17 + Json.digitLimit ≤ lineLimit := by decide
  rw [lengthLine, length_ascii, List.length_append, List.length_append, label_toList]
  simp only [List.length_cons, List.length_nil]
  omega

/-- The first line of a frame gives its header. -/
theorem read_lengthLine (ended : Bool) (h : n < 10 ^ Json.digitLimit) (rest : List UInt8) :
    read ended (lengthLine n ++ 10 :: rest) = readFrom ended (lengthHeader n) rest := by
  have hline : line? ended (lengthLine n ++ 10 :: rest) = .ok (some (lengthLine n, rest)) :=
    line?_append (newline_not_mem_lengthLine n) (length_lengthLine_le h) rest
  rw [read, readFrom_line (by simp) hline, lineText_lengthLine, if_neg (by simp),
    nameAndValue_length]
  rfl

/-- A blank line ends a header. -/
theorem readFrom_blankLine (hne : bytes ≠ [])
    (hline : line? ended bytes = .ok (some ([13], rest))) :
    readFrom ended (lengthHeader n) bytes = readAfter ended (lengthHeader n) rest := by
  have htext : lineText [13] = [] := by decide
  rw [readFrom_line hne hline, htext, if_pos List.isEmpty_nil, isEmpty_lengthHeader,
    if_neg Bool.false_ne_true]

theorem read_header (ended : Bool) (h : n < 10 ^ Json.digitLimit) (rest : List UInt8) :
    read ended (lengthLine n ++ 10 :: 13 :: 10 :: rest) =
      readAfter ended (lengthHeader n) rest := by
  have hreturn : (10 : UInt8) ∉ [13] := by decide
  have hblank : line? ended (13 :: 10 :: rest) = .ok (some ([13], rest)) :=
    line?_append hreturn (by decide) rest
  rw [read_lengthLine ended h, readFrom_blankLine (by simp) hblank]

theorem bodyLength_lengthHeader (h : n < 10 ^ Json.digitLimit) :
    bodyLength (lengthHeader n) = .ok n := by
  have hget : (lengthHeader n).get? lengthName = some (String.ofList (natText n)) := if_pos rfl
  rw [bodyLength, hget]
  dsimp only
  rw [(Setting.isNumeral_natText h).integerOfText_eq]
  rfl

/-- A body that has not come in full by the end of the stream is missed. -/
theorem readAfter_short (h : n < 10 ^ Json.digitLimit) (hshort : bytes.length < n) :
    readAfter true (lengthHeader n) bytes = .failed (.server .endedInBody) := by
  have htake : (bytes.take n).length < n :=
    Nat.lt_of_le_of_lt (List.length_take_le' n bytes) hshort
  rw [readAfter, bodyLength_lengthHeader h]
  exact (if_pos htake).trans (if_pos rfl)

/-! ## Frames -/

/-- An object that can be sent and read back: its text stands for it, and so do the digits of the
length of its text. -/
structure Sendable (p : Table Json) : Prop where
  readable : Json.Readable Json.depthLimit (.obj p)
  short : (compact (.obj p)).length < 10 ^ Json.digitLimit

variable {p : Table Json}

/-- A frame gives what its body does, whatever follows. -/
theorem read_frame {v : Json} (hshort : (compact v).length < 10 ^ Json.digitLimit)
    (rest : List UInt8) :
    read ended (encode v ++ rest) =
      match readBody (ascii (compact v)) with
      | .ok fields => .message fields rest
      | .error e => .failed e := by
  have hlength : (ascii (compact v)).length = (compact v).length := length_ascii _
  have htake : (ascii (compact v) ++ rest).take (compact v).length = ascii (compact v) :=
    List.take_left' hlength
  have hdrop : (ascii (compact v) ++ rest).drop (compact v).length = rest := List.drop_left' hlength
  rw [encode_eq, List.append_assoc, List.cons_append, List.cons_append, List.cons_append,
    read_header ended hshort, readAfter, bodyLength_lengthHeader hshort]
  dsimp only
  rw [htake, hdrop]
  refine (if_neg (by simp)).trans ?_
  cases readBody (ascii (compact v)) <;> rfl

/-- A message is read back from its frame. -/
theorem read_encode_append (h : Sendable p) (rest : List UInt8) :
    read ended (encode (.obj p) ++ rest) = .message p rest := by
  rw [read_frame h.short, readBody_ascii h.readable]

theorem two_le_length_compact (p : Table Json) : 2 ≤ (compact (.obj p)).length := by
  obtain ⟨c, cs, htext, -⟩ := Json.compact_obj_starts p
  rw [htext, List.length_cons, List.length_cons]
  omega

/-- A beginning of the first line is a line of its own at the end of the stream. -/
theorem read_take_lengthLine (h : n < 10 ^ Json.digitLimit) (hk : 0 < k) :
    read true ((lengthLine n).take k) = .failed (.server .endedInHeader) := by
  obtain ⟨k, rfl⟩ : ∃ j, k = j + 1 := ⟨k - 1, by omega⟩
  have hnewline : 10 ∉ (lengthLine n).take (k + 1) :=
    fun h => newline_not_mem_lengthLine n (List.mem_of_mem_take h)
  have hshort : ((lengthLine n).take (k + 1)).length ≤ lineLimit :=
    Nat.le_trans (List.length_take_le' _ _) (length_lengthLine_le h)
  obtain ⟨tail, hstart⟩ : ∃ tail, lengthLine n = 67 :: tail := by
    rw [lengthLine, label_toList]
    exact ⟨_, rfl⟩
  have htext : (lineText ((lengthLine n).take (k + 1))).isEmpty = false := by
    rw [hstart, List.take_succ_cons, lineText, List.map_cons, List.isEmpty_eq_false_iff]
    exact trim_ne_nil (by decide) _
  rw [read, readFrom_line (by simp [hstart]) (line?_unfinished hnewline hshort), htext,
    if_neg Bool.false_ne_true]
  exact readFrom_nil (Table.isEmpty_put _ _ _)

/-- A frame that is cut short makes no message. -/
theorem read_take_encode (h : Sendable p) (hpos : 0 < k) (hk : k < (encode (.obj p)).length) :
    read true ((encode (.obj p)).take k) =
      .failed (.server
        (if k ≤ (lengthLine (compact (.obj p)).length).length + 1 then .endedInHeader
          else .endedInBody)) := by
  have hbody := two_le_length_compact p
  have hlength := length_ascii (compact (.obj p))
  rw [encode_eq] at hk ⊢
  rw [List.length_append, List.length_cons, List.length_cons, List.length_cons, hlength] at hk
  by_cases hline : k ≤ (lengthLine (compact (.obj p)).length).length
  · rw [List.take_append_of_le_length hline, read_take_lengthLine h.short hpos, if_pos (by omega)]
  · obtain ⟨j, rfl⟩ : ∃ j, k = (lengthLine (compact (.obj p)).length).length + (j + 1) :=
      ⟨k - (lengthLine (compact (.obj p)).length).length - 1, by omega⟩
    rw [List.take_length_add_append, List.take_succ_cons]
    rcases j with _ | _ | j
    · rw [if_pos (by omega), List.take_zero, read_lengthLine true h.short]
      exact readFrom_nil (isEmpty_lengthHeader _)
    · -- Half a blank line is a blank line at the end of the stream.
      have hblank : line? true [13] = .ok (some ([13], [])) :=
        line?_unfinished (by decide) (by decide)
      rw [if_neg (by omega), List.take_succ_cons, List.take_zero, read_lengthLine true h.short,
        readFrom_blankLine (by simp) hblank]
      exact readAfter_short h.short (by rw [List.length_nil]; omega)
    · rw [if_neg (by omega), List.take_succ_cons, List.take_succ_cons,
        read_header true h.short]
      refine readAfter_short h.short ?_
      rw [List.length_take, hlength]
      omega

end Wire

end SfcCheck
