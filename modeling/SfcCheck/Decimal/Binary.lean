/-!
# Binary floating-point values, exactly

A finite binary64 value is `m · 2^q`, up to its sign. Everything that has to be exact about a
number — its digits, its integer part, whether it is an integer — is computed from `m` and `q` in
integer arithmetic.
-/

namespace SfcCheck.Decimal

/-- The power `b^k`, one if `k` is negative. -/
def power (b : Nat) (k : Int) : Nat := Nat.pow b k.toNat

/-- A finite non-negative value `m · 2^q`. -/
structure Binary where
  m : Nat
  q : Int
  /-- The gap to the value below is half the gap to the value above. -/
  narrowBelow : Bool
deriving DecidableEq, Repr

/-- The magnitude of a finite value, from its bits. -/
def Binary.ofBits (b : UInt64) : Binary :=
  let e := ((b >>> 52) &&& 0x7ff).toNat
  let f := (b &&& 0xfffffffffffff).toNat
  if e = 0 then ⟨f, -1074, false⟩ else ⟨power 2 52 + f, (e : Int) - 1075, f == 0 && e > 1⟩

/-- The magnitude of a finite number. -/
def Binary.ofFloat (x : Float) : Binary := .ofBits x.toBits

/-- The sign bit of a number. -/
def isNegative (x : Float) : Bool := x.toBits >>> 63 == 1

/-- The integer part of `m · 2^q`. -/
def Binary.floor (b : Binary) : Nat := b.m * power 2 b.q / power 2 (-b.q)

/-- Whether `m · 2^q` is an integer. -/
def Binary.isIntegral (b : Binary) : Bool := b.m * power 2 b.q % power 2 (-b.q) == 0

/-- A finite number rounded toward zero. -/
def truncate (x : Float) : Int :=
  let n : Int := (Binary.ofFloat x).floor
  if isNegative x then -n else n

/-- The integer that a number equals, if it equals one. -/
def integral? (x : Float) : Option Int :=
  if x.isFinite && (Binary.ofFloat x).isIntegral then some (truncate x) else none

/-- The positive infinity. -/
def infinity : Float := 1.0 / 0.0

/-- The value of `m · 10^e`, rounded to nearest. Exponents far outside the range of the format are
answered at once. -/
def ofDecimal (m : Nat) (e : Int) : Float :=
  let size : Int := (m.log2 * 30103 / 100000 : Nat)
  if m = 0 then 0.0
  else if 320 < e + size then infinity
  else if e + size < -340 then 0.0
  else Float.ofScientific m (e < 0) e.natAbs

/-- An integer as a number, rounded to nearest; `none` if it is too large. -/
def ofInt? (n : Int) : Option Float :=
  let x := ofDecimal n.natAbs 0
  if x.isInf then none else some (if n < 0 then -x else x)

end SfcCheck.Decimal
