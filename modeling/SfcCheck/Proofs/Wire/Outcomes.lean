import SfcCheck.Proofs.Wire.Header
import SfcCheck.Proofs.Wire.Stream

/-!
# What reading a message may end in

A call is declared to give a message, to find the stream at its end between messages, or to raise an
error of the server. Four kinds of frames make it raise something else: the length is negative, the
body is no text, an integer of the body has too many digits, or its values are nested too deep. So
does a line of a header that is too long. There is no other way out of what is declared
(`read_fault_iff`), wherever in a stream a call starts.
-/

namespace SfcCheck.Wire

open Text Setting

variable {headers : Table String} {bytes rest body : List UInt8} {f : Fault}

/-! ## Frames that raise a fault -/

/-- The outcomes that a call is declared to have. -/
def Reading.IsDeclared : Reading → Prop
  | .message _ _ | .ended | .failed (.server _) => True
  | .more | .failed (.fault _) => False

/-- A refusal of the reader of JSON that does not say that the text is malformed. -/
def IsLimit : Json.ReadError → Prop
  | .malformed .. => False
  | .tooManyDigits _ | .tooDeep _ => True

/-- What follows a header starts with a body of the length that the header gives. -/
def HasBody (headers : Table String) (rest body : List UInt8) : Prop :=
  ∃ text, headers.get? lengthName = some text ∧ integerOfText text = .ok body.length ∧ body <+: rest

/-- A frame with this header, and `rest` behind it, raises a fault. -/
inductive Faulty (headers : Table String) (rest : List UInt8) : Fault → Prop where
  | negativeLength {text : String} {n : Int} (htext : headers.get? lengthName = some text)
      (hn : integerOfText text = .ok n) (hneg : n < 0) : Faulty headers rest .negativeLength
  | undecodable {body : List UInt8} {e : DecodeError} (hbody : HasBody headers rest body)
      (he : decodeBody body = .error e) : Faulty headers rest (.undecodable e)
  | overLimit {body : List UInt8} {cs : List Char} {e : Json.ReadError}
      (hbody : HasBody headers rest body) (hcs : decodeBody body = .ok cs)
      (he : Json.parse cs = .error e) (hlimit : IsLimit e) : Faulty headers rest (.malformedJson e)

/-! ## One frame -/

theorem bodyLength_fault_iff : bodyLength headers = .error (.fault f) ↔
    f = .negativeLength ∧
      ∃ text n, headers.get? lengthName = some text ∧ integerOfText text = .ok n ∧ n < 0 := by
  unfold bodyLength
  cases hget : headers.get? lengthName with
  | none => simp
  | some text =>
      cases hn : integerOfText text with
      | error e => simp [hn]
      | ok n =>
          by_cases hneg : n < 0
          · simp [hn, hneg, eq_comm]
          · simp [hn, hneg]

theorem bodyLength_eq_ok_iff {n : Nat} : bodyLength headers = .ok n ↔
    ∃ text, headers.get? lengthName = some text ∧ integerOfText text = .ok n := by
  unfold bodyLength
  cases hget : headers.get? lengthName with
  | none => simp
  | some text =>
      cases hn : integerOfText text with
      | error e => simp [hn]
      | ok m =>
          by_cases hneg : m < 0
          · simp [hn, hneg]
            omega
          · simp [hn, hneg]
            omega

theorem readBody_fault_iff : readBody body = .error (.fault f) ↔
    (∃ e, decodeBody body = .error e ∧ f = .undecodable e) ∨
      ∃ cs e, decodeBody body = .ok cs ∧ Json.parse cs = .error e ∧ IsLimit e ∧
        f = .malformedJson e := by
  unfold readBody
  cases hcs : decodeBody body with
  | error e => simp [eq_comm]
  | ok cs =>
      cases hv : Json.parse cs with
      | error e => cases e <;> simp [hv, IsLimit, eq_comm]
      | ok v => cases v <;> simp [hv]

theorem HasBody.bodyLength_eq (h : HasBody headers rest body) :
    bodyLength headers = .ok body.length := by
  obtain ⟨text, htext, hn, -⟩ := h
  exact bodyLength_eq_ok_iff.mpr ⟨text, htext, hn⟩

/-- Once the body of a frame has come, the frame is read as its body is. -/
theorem HasBody.readAfter_eq {ended : Bool} (h : HasBody headers rest body) :
    readAfter ended headers rest =
      match readBody body with
      | .ok fields => .message fields (rest.drop body.length)
      | .error e => .failed e := by
  have hlength := h.bodyLength_eq
  obtain ⟨-, -, -, after, rfl⟩ := h
  have htake : (body ++ after).take body.length = body := List.take_left
  have hlong : ¬ ((body ++ after).take body.length).length < body.length := by
    rw [htake]
    exact Nat.lt_irrefl _
  rw [readAfter, hlength]
  refine (if_neg hlong).trans ?_
  exact congrArg (fun body' => match readBody body' with
    | .ok fields => Reading.message fields ((body ++ after).drop body.length)
    | .error e => .failed e) htake

theorem hasBody_or_short {n : Nat} (h : bodyLength headers = .ok n) (rest : List UInt8) :
    HasBody headers rest (rest.take n) ∨ rest.length < n := by
  obtain ⟨text, htext, hn⟩ := bodyLength_eq_ok_iff.mp h
  by_cases hshort : rest.length < n
  · exact .inr hshort
  · have hlength : (rest.take n).length = n := List.length_take_of_le (Nat.le_of_not_lt hshort)
    exact .inl ⟨text, htext, by rw [hlength]; exact hn, List.take_prefix n rest⟩

theorem Faulty.readAfter_eq (h : Faulty headers rest f) :
    readAfter true headers rest = .failed (.fault f) := by
  cases h with
  | negativeLength htext hn hneg =>
      have hlength : bodyLength headers = .error (.fault .negativeLength) :=
        bodyLength_fault_iff.mpr ⟨rfl, _, _, htext, hn, hneg⟩
      simp [readAfter, hlength]
  | undecodable hbody he =>
      simp [hbody.readAfter_eq, readBody_fault_iff.mpr (.inl ⟨_, he, rfl⟩)]
  | overLimit hbody hcs he hlimit =>
      simp [hbody.readAfter_eq, readBody_fault_iff.mpr (.inr ⟨_, _, hcs, he, hlimit, rfl⟩)]

theorem faulty_of_readAfter (h : readAfter true headers rest = .failed (.fault f)) :
    Faulty headers rest f := by
  cases hlength : bodyLength headers with
  | error e =>
      simp only [readAfter, hlength, Reading.failed.injEq] at h
      obtain ⟨rfl, text, n, htext, hn, hneg⟩ := bodyLength_fault_iff.mp (h ▸ hlength)
      exact .negativeLength htext hn hneg
  | ok n =>
      obtain hbody | hshort := hasBody_or_short hlength rest
      · rw [hbody.readAfter_eq] at h
        cases hread : readBody (rest.take n) with
        | ok fields => simp [hread] at h
        | error e =>
            simp only [hread, Reading.failed.injEq] at h
            obtain ⟨e, he, rfl⟩ | ⟨cs, e, hcs, he, hlimit, rfl⟩ :=
              readBody_fault_iff.mp (h ▸ hread)
            · exact .undecodable hbody he
            · exact .overLimit hbody hcs he hlimit
      · simp [readAfter, hlength, hshort] at h

/-- After a header, a stream that has ended is no reason to wait for more. -/
theorem readAfter_ne (headers : Table String) (rest : List UInt8) :
    readAfter true headers rest ≠ .more ∧ readAfter true headers rest ≠ .ended := by
  unfold readAfter
  dsimp only
  split
  · simp
  · split
    · simp
    · split <;> simp

/-! ## One call -/

theorem read_fault_iff (bytes : List UInt8) (f : Fault) :
    read true bytes = .failed (.fault f) ↔
      (∃ h rest, StartsWith bytes h rest ∧ Faulty h.table rest f) ∨ StartsLong bytes f := by
  constructor
  · intro hread
    cases opening bytes with
    | blank hlines hlast hbytes => simp [hbytes, read_blank hlines hlast] at hread
    | long hstarts =>
        rw [hstarts.read_eq] at hread
        cases hread
        exact .inr hstarts
    | @header h rest hstarts =>
        rw [hstarts.read_eq] at hread
        exact .inl ⟨h, rest, hstarts, faulty_of_readAfter hread⟩
    | cut hskipped hlines hlast hbytes =>
        simp [hbytes, read_cut hskipped hlines hlast] at hread
  · rintro (⟨h, rest, hstarts, hfaulty⟩ | hstarts)
    · rw [hstarts.read_eq, hfaulty.readAfter_eq]
    · exact hstarts.read_eq

theorem read_ended_iff (bytes : List UInt8) :
    read true bytes = .ended ↔ ∃ lines last, bytes = written lines ++ last ∧
      (∀ line ∈ lines, IsBlankLine line) ∧ IsBlankLine last := by
  constructor
  · intro hread
    cases opening bytes with
    | blank hlines hlast hbytes => exact ⟨_, _, hbytes, hlines, hlast⟩
    | long hstarts =>
        rw [hstarts.read_eq] at hread
        cases hread
    | header hstarts =>
        rw [hstarts.read_eq] at hread
        exact absurd hread (readAfter_ne _ _).2
    | cut hskipped hlines hlast hbytes =>
        simp [hbytes, read_cut hskipped hlines hlast] at hread
  · rintro ⟨lines, last, rfl, hlines, hlast⟩
    exact read_blank hlines hlast

theorem read_ne_more (bytes : List UInt8) : read true bytes ≠ .more := by
  intro hread
  cases opening bytes with
  | blank hlines hlast hbytes => simp [hbytes, read_blank hlines hlast] at hread
  | long hstarts =>
      rw [hstarts.read_eq] at hread
      cases hread
  | header hstarts =>
      rw [hstarts.read_eq] at hread
      exact (readAfter_ne _ _).1 hread
  | cut hskipped hlines hlast hbytes =>
      simp [hbytes, read_cut hskipped hlines hlast] at hread

/-! ## One call after another -/

/-- What is left of a stream when some of its messages have been read. -/
inductive Leaves : List UInt8 → List UInt8 → Prop where
  | all (bytes : List UInt8) : Leaves bytes bytes
  | message {bytes rest left : List UInt8} {fields : Table Json}
      (hread : read true bytes = .message fields rest) (hleft : Leaves rest left) :
      Leaves bytes left

theorem readAll_ended (h : read true bytes = .ended) : readAll bytes = ([], none) := by
  rw [readAll]
  split <;> simp_all

/-- The last call on a stream raises what is raised where it starts. -/
theorem readAll_failed_iff (bytes : List UInt8) (e : ReadFailure) :
    (readAll bytes).2 = some e ↔ ∃ left, Leaves bytes left ∧ read true left = .failed e := by
  constructor
  · intro hlast
    induction bytes using readAll.induct with
    | case1 bytes fields rest hread messages failure hrest ih =>
        rw [readAll_message hread] at hlast
        obtain ⟨left, hleft, hfailed⟩ := ih hlast
        exact ⟨left, .message hread hleft, hfailed⟩
    | case2 bytes failure hread =>
        rw [readAll_failed hread, Option.some.injEq] at hlast
        exact ⟨bytes, .all bytes, hlast ▸ hread⟩
    | case3 bytes hread => simp [readAll_ended hread] at hlast
    | case4 bytes hread => exact absurd hread (read_ne_more bytes)
  · rintro ⟨left, hleft, hfailed⟩
    induction hleft with
    | all bytes => rw [readAll_failed hfailed]
    | message hread hleft ih => rw [readAll_message hread, ih hfailed]

theorem Reading.isDeclared_iff (r : Reading) :
    r.IsDeclared ↔ r ≠ .more ∧ ∀ f, r ≠ .failed (.fault f) := by
  cases r with
  | failed e => cases e <;> simp [IsDeclared]
  | _ => simp [IsDeclared]

/-- A call on any stream has a declared outcome unless the stream starts with a faulty frame, which
raises its fault, or with a line of a header that is too long. The calls on one stream raise a fault
if one of those comes up. -/
theorem read_declared (bytes : List UInt8) :
    ((read true bytes).IsDeclared ↔
      (¬ ∃ h rest f, StartsWith bytes h rest ∧ Faulty h.table rest f) ∧
        ¬ ∃ f, StartsLong bytes f) ∧
    (∀ f, read true bytes = .failed (.fault f) ↔
      (∃ h rest, StartsWith bytes h rest ∧ Faulty h.table rest f) ∨ StartsLong bytes f) ∧
    ∀ f, (readAll bytes).2 = some (.fault f) ↔
      ∃ left, Leaves bytes left ∧
        ((∃ h rest, StartsWith left h rest ∧ Faulty h.table rest f) ∨ StartsLong left f) := by
  refine ⟨?_, read_fault_iff bytes, fun f => ?_⟩
  · rw [Reading.isDeclared_iff]
    constructor
    · rintro ⟨-, hdeclared⟩
      constructor
      · rintro ⟨h, rest, f, hfaulty⟩
        exact hdeclared f ((read_fault_iff bytes f).mpr (.inl ⟨h, rest, hfaulty⟩))
      · rintro ⟨f, hstarts⟩
        exact hdeclared f ((read_fault_iff bytes f).mpr (.inr hstarts))
    · rintro ⟨hfaulty, hlong⟩
      refine ⟨read_ne_more bytes, fun f hread => ?_⟩
      rcases (read_fault_iff bytes f).mp hread with ⟨h, rest, hfault⟩ | hstarts
      · exact hfaulty ⟨h, rest, f, hfault⟩
      · exact hlong ⟨f, hstarts⟩
  · rw [readAll_failed_iff]
    constructor
    · rintro ⟨left, hleft, hread⟩
      exact ⟨left, hleft, (read_fault_iff left f).mp hread⟩
    · rintro ⟨left, hleft, hfault⟩
      exact ⟨left, hleft, (read_fault_iff left f).mpr hfault⟩

/-- A header of one line. -/
def Header.single (line : List UInt8) (h : IsHeaderLine line) : Header where
  skipped := []
  lines := [line]
  closing := [13]
  skipped_blank := by simp
  lines_header := by simpa using h
  lines_ne_nil := by simp
  closing_blank := isBlankLine_return

theorem startsWith_single {line : List UInt8} (h : IsHeaderLine line) (rest : List UInt8) :
    StartsWith (line ++ 10 :: 13 :: 10 :: rest) (.single line h) rest := by
  have htext : (Header.single line h).text ++ 10 :: rest = line ++ 10 :: 13 :: 10 :: rest := by
    simp [Header.text, Header.single]
  exact htext ▸ .line (.single line h) rest

/-- The line that gives a body a length. -/
def lengthField (length : String) : List UInt8 := ascii ("Content-Length: " ++ length).toList

/-- A length below zero, and a body of a byte that starts no character. -/
theorem read_undeclared :
    read true (lengthField "-1" ++ [10, 13, 10]) = .failed (.fault .negativeLength) ∧
    ¬ (read true (lengthField "-1" ++ [10, 13, 10])).IsDeclared ∧
    ¬ (read true (lengthField "1" ++ [10, 13, 10, 255])).IsDeclared := by
  have hnegative : read true (lengthField "-1" ++ [10, 13, 10]) =
      .failed (.fault .negativeLength) := by
    refine (read_fault_iff _ _).mpr (.inl ⟨_, _, startsWith_single (by decide) [], ?_⟩)
    exact @Faulty.negativeLength _ _ "-1" (-1) (by decide +kernel) rfl (by decide)
  have hbyte : read true (lengthField "1" ++ [10, 13, 10, 255]) =
      .failed (.fault (.undecodable ⟨"utf-8", [255], 0, 1, .invalidStart⟩)) := by
    refine (read_fault_iff _ _).mpr (.inl ⟨_, _, startsWith_single (by decide) [255], ?_⟩)
    exact .undecodable ⟨"1", by decide +kernel, rfl, List.prefix_rfl⟩ rfl
  refine ⟨hnegative, ?_, ?_⟩
  · rw [hnegative]
    exact id
  · rw [hbyte]
    exact id

end SfcCheck.Wire
