import SfcCheck.Decimal.Binary

/-!
# Numbers of two kinds

A number is an integer of any size or a binary floating-point value. Numbers of both kinds are
compared exactly. A difference of integers is exact as well; any other is that of the nearest
floating-point values, if there are such.
-/

namespace SfcCheck.Decimal

/-- A number. -/
inductive Number where
  | int (n : Int)
  | float (x : Float)

/-- How an integer compares with a floating-point value, exactly. -/
def compareInt? (n : Int) (x : Float) : Option Ordering :=
  if x.isNaN then none
  else if x.isInf then some (if isNegative x then .gt else .lt)
  else
    let b := Binary.ofFloat x
    let m : Int := if isNegative x then -(b.m : Int) else b.m
    some (compare (n * power 2 (-b.q)) (m * power 2 b.q))

namespace Number

/-- The nearest floating-point value, if the number is not too large. -/
def toFloat? : Number → Option Float
  | int n => ofInt? n
  | float x => some x

/-- Whether a number is less than another one. -/
def isLess : Number → Number → Bool
  | int a, int b => decide (a < b)
  | int a, float b => compareInt? a b == some .lt
  | float a, int b => compareInt? b a == some .gt
  | float a, float b => decide (a < b)

/-- The difference of two numbers, if it can be had. -/
def difference? : Number → Number → Option Number
  | int a, int b => some (int (a - b))
  | a, b => do return float ((← a.toFloat?) - (← b.toFloat?))

instance : LT Number := ⟨fun a b => a.isLess b = true⟩

instance : DecidableLT Number := fun a b => inferInstanceAs (Decidable (a.isLess b = true))

/-- A difference that cannot be had is no number. -/
instance : Sub Number := ⟨fun a b => (a.difference? b).getD (float (0.0 / 0.0))⟩

end Number

end SfcCheck.Decimal
