import SfcCheck.Text.Quoted

/-!
# Character encodings

Reading bytes as text. UTF-8 is strict: a sequence that is cut short, overlong, above U+10FFFF or a
surrogate is refused, and the refusal names the bytes at fault. Bodies of messages may also come in
UTF-16 or UTF-32, told apart by their first bytes; there a surrogate without its partner is let
through as U+FFFD, since a text has no place for it. Bodies that differ in such a surrogate only are
read as the same text.

Every decoder walks the bytes once and skips those that belong to the character before.
-/

namespace SfcCheck.Text

/-- Why a run of bytes is no character. -/
inductive DecodeCause where
  | invalidStart
  | invalidContinuation
  | unexpectedEnd
  | truncated
  | outOfRange
deriving DecidableEq, Repr

def DecodeCause.message : DecodeCause → String
  | .invalidStart => "invalid start byte"
  | .invalidContinuation => "invalid continuation byte"
  | .unexpectedEnd => "unexpected end of data"
  | .truncated => "truncated data"
  | .outOfRange => "code point not in range(0x110000)"

/-- A refusal to decode: the bytes from `start` up to `stop` are at fault. -/
structure DecodeError where
  codec : String
  input : List UInt8
  start : Nat
  stop : Nat
  cause : DecodeCause
deriving DecidableEq, Repr

def DecodeError.message (e : DecodeError) : String :=
  let place :=
    if e.stop = e.start + 1 then
      match e.input[e.start]? with
      | some b => s!"byte 0x{String.ofList (hexText 2 b.toNat)} in position {e.start}"
      | none => s!"bytes in position {e.start}-{e.stop - 1}"
    else s!"bytes in position {e.start}-{e.stop - 1}"
  s!"'{e.codec}' codec can't decode {place}: {e.cause.message}"

/-- The first character of a run of bytes with the number of bytes after the first that belong to
it, or the number of bytes at fault. -/
abbrev Step := Except (Nat × DecodeCause) (Char × Nat)

/-- Decodes from position `pos` on, after `skip` bytes that belong to the character before. -/
def decodeFrom (codec : String) (input : List UInt8) (step : UInt8 → List UInt8 → Step) :
    Nat → Nat → List UInt8 → Except DecodeError (List Char)
  | _, _, [] => .ok []
  | skip + 1, pos, _ :: bs => decodeFrom codec input step skip (pos + 1) bs
  | 0, pos, b :: bs =>
    match step b bs with
    | .error (n, cause) => .error ⟨codec, input, pos, pos + n, cause⟩
    | .ok (c, n) => (c :: ·) <$> decodeFrom codec input step n (pos + 1) bs

/-! ## UTF-8 -/

/-- Whether a byte continues a character. -/
def isContinuation (b : UInt8) : Bool := b.toNat / 64 == 2

/-- A character, or U+FFFD for a surrogate. -/
def scalar (n : Nat) : Char := if 0xd800 ≤ n ∧ n < 0xe000 then Char.ofNat 0xfffd else Char.ofNat n

/-- Whether the second byte of a character is allowed after the first: overlong forms, surrogates
and values above U+10FFFF are ruled out here. -/
def secondAllowed (b c : UInt8) : Bool :=
  isContinuation c &&
    !(b.toNat == 0xe0 && c.toNat < 0xa0) && !(b.toNat == 0xed && 0xa0 ≤ c.toNat) &&
    !(b.toNat == 0xf0 && c.toNat < 0x90) && !(b.toNat == 0xf4 && 0x90 ≤ c.toNat)

/-- One character of UTF-8. -/
def utf8Step (b : UInt8) (bs : List UInt8) : Step :=
  let b₀ := b.toNat
  if b₀ < 0x80 then .ok (Char.ofNat b₀, 0)
  else if b₀ < 0xc2 ∨ 0xf5 ≤ b₀ then .error (1, .invalidStart)
  else
    match bs with
    | [] => .error (1, .unexpectedEnd)
    | c :: bs =>
      if !secondAllowed b c then .error (1, .invalidContinuation)
      else if b₀ < 0xe0 then .ok (Char.ofNat ((b₀ - 0xc0) * 64 + c.toNat % 64), 1)
      else
        match bs with
        | [] => .error (2, .unexpectedEnd)
        | d :: bs =>
          if !isContinuation d then .error (2, .invalidContinuation)
          else if b₀ < 0xf0 then
            .ok (Char.ofNat ((b₀ - 0xe0) * 4096 + c.toNat % 64 * 64 + d.toNat % 64), 2)
          else
            match bs with
            | [] => .error (3, .unexpectedEnd)
            | e :: _ =>
              if !isContinuation e then .error (3, .invalidContinuation)
              else
                .ok (Char.ofNat ((b₀ - 0xf0) * 262144 + c.toNat % 64 * 4096 + d.toNat % 64 * 64 +
                  e.toNat % 64), 3)

/-- One character of UTF-8 in which a surrogate, written as three bytes, is let through. -/
def lenientUtf8Step (b : UInt8) (bs : List UInt8) : Step :=
  match bs with
  | c :: d :: _ =>
    if b.toNat = 0xed ∧ 0xa0 ≤ c.toNat ∧ isContinuation c ∧ isContinuation d then
      .ok (Char.ofNat 0xfffd, 2)
    else utf8Step b bs
  | _ => utf8Step b bs

/-- Bytes read as UTF-8. -/
def decodeUtf8 (bytes : List UInt8) : Except DecodeError (List Char) :=
  decodeFrom "utf-8" bytes utf8Step 0 0 bytes

/-- The bytes of a character in UTF-8. -/
def utf8Char (c : Char) : List UInt8 :=
  let n := c.toNat
  if n < 0x80 then [n.toUInt8]
  else if n < 0x800 then [(0xc0 + n / 64).toUInt8, (0x80 + n % 64).toUInt8]
  else if n < 0x10000 then
    [(0xe0 + n / 4096).toUInt8, (0x80 + n / 64 % 64).toUInt8, (0x80 + n % 64).toUInt8]
  else
    [(0xf0 + n / 262144).toUInt8, (0x80 + n / 4096 % 64).toUInt8, (0x80 + n / 64 % 64).toUInt8,
     (0x80 + n % 64).toUInt8]

/-- A text in UTF-8. -/
def encodeUtf8 (cs : List Char) : List UInt8 := cs.flatMap utf8Char

/-! ## UTF-16 and UTF-32 -/

/-- The order of the bytes in a unit. -/
inductive ByteOrder where
  | little
  | big
deriving DecidableEq, Repr

/-- The value of a unit, from its bytes in the order they come. -/
def ByteOrder.value (o : ByteOrder) (bs : List UInt8) : Nat :=
  match o with
  | .little => bs.foldr (fun b n => n * 256 + b.toNat) 0
  | .big => bs.foldl (fun n b => n * 256 + b.toNat) 0

/-- One character of UTF-16. -/
def utf16Step (o : ByteOrder) (b : UInt8) : List UInt8 → Step
  | [] => .error (1, .truncated)
  | c :: bs =>
    let u := o.value [b, c]
    match bs with
    | d :: e :: _ =>
      let v := o.value [d, e]
      if 0xd800 ≤ u ∧ u < 0xdc00 ∧ 0xdc00 ≤ v ∧ v < 0xe000 then
        .ok (Char.ofNat (0x10000 + (u - 0xd800) * 1024 + (v - 0xdc00)), 3)
      else .ok (scalar u, 1)
    | _ => .ok (scalar u, 1)

/-- One character of UTF-32. -/
def utf32Step (o : ByteOrder) (b : UInt8) (bs : List UInt8) : Step :=
  match bs with
  | c :: d :: e :: _ =>
    let u := o.value [b, c, d, e]
    if u < 0x110000 then .ok (scalar u, 3) else .error (4, .outOfRange)
  | _ => .error (1 + bs.length, .truncated)

/-- An encoding that the first bytes of a text can announce. -/
inductive Encoding where
  | utf8 (mark : Bool)
  | utf16 (order : ByteOrder) (mark : Bool)
  | utf32 (order : ByteOrder) (mark : Bool)
deriving DecidableEq, Repr

/-- The encoding of a text that starts with a byte order mark or an ASCII character. -/
def Encoding.detect (bytes : List UInt8) : Encoding :=
  match bytes.map UInt8.toNat with
  | 0 :: 0 :: 0xfe :: 0xff :: _ => .utf32 .big true
  | 0xff :: 0xfe :: 0 :: 0 :: _ => .utf32 .little true
  | 0xfe :: 0xff :: _ => .utf16 .big true
  | 0xff :: 0xfe :: _ => .utf16 .little true
  | 0xef :: 0xbb :: 0xbf :: _ => .utf8 true
  | 0 :: b :: _ :: _ :: _ => if b = 0 then .utf32 .big false else .utf16 .big false
  | _ :: 0 :: c :: d :: _ => if c = 0 ∧ d = 0 then .utf32 .little false else .utf16 .little false
  | [0, _] => .utf16 .big false
  | [_, 0] => .utf16 .little false
  | _ => .utf8 false

/-- The name of a byte order in the name of an encoding. -/
def ByteOrder.suffix : ByteOrder → String
  | .little => "le"
  | .big => "be"

/-- Bytes read in an encoding, without the mark. Positions in an error count the mark, except in
UTF-8, where it is taken off first. -/
def Encoding.decode (e : Encoding) (bytes : List UInt8) : Except DecodeError (List Char) :=
  match e with
  | .utf8 mark =>
    let bytes := if mark then bytes.drop 3 else bytes
    decodeFrom "utf-8" bytes lenientUtf8Step 0 0 bytes
  | .utf16 o mark =>
    decodeFrom s!"utf-16-{o.suffix}" bytes (utf16Step o) 0 (if mark then 2 else 0)
      (if mark then bytes.drop 2 else bytes)
  | .utf32 o mark =>
    decodeFrom s!"utf-32-{o.suffix}" bytes (utf32Step o) 0 (if mark then 4 else 0)
      (if mark then bytes.drop 4 else bytes)

/-- The bytes of a body as text. -/
def decodeBody (bytes : List UInt8) : Except DecodeError (List Char) :=
  (Encoding.detect bytes).decode bytes

/-! ## ASCII -/

/-- A byte of a header line as a character; bytes beyond ASCII become U+FFFD. -/
def asciiChar (b : UInt8) : Char := if b.toNat < 0x80 then Char.ofNat b.toNat else Char.ofNat 0xfffd

end SfcCheck.Text
