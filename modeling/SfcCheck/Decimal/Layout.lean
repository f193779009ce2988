import SfcCheck.Decimal.Digits

/-!
# How numbers are written

Digits are laid out positionally while the exponent of the leading digit lies in a range, and with
a signed exponent of at least two digits outside it. Two layouts are in use. `exact` writes the
fewest digits that identify a number and shows that it is no integer type by a point; `general`
writes at most six significant digits and no superfluous point.
-/

namespace SfcCheck.Decimal

/-- The decisions of a number format. -/
structure Layout where
  /-- The least exponent of the leading digit that is written positionally. -/
  plainFrom : Int
  /-- The least exponent above those that are written positionally. -/
  plainBelow : Int
  /-- Whether an integral value written positionally ends in `.0`. -/
  pointZero : Bool
deriving DecidableEq, Repr

/-- Numbers as messages and wire bodies show them. -/
def Layout.exact : Layout := ⟨-4, 16, true⟩

/-- Durations as messages show them. -/
def Layout.general : Layout := ⟨-4, 6, false⟩

/-- The digits of a natural number. -/
def natText (n : Nat) : List Char := Nat.toDigits 10 n

/-- An integer with its sign. -/
def intText (n : Int) : String :=
  String.ofList (if n < 0 then '-' :: natText n.natAbs else natText n.natAbs)

/-- A signed exponent of at least two digits. -/
def exponentText (e : Int) : List Char :=
  let ds := natText e.natAbs
  'e' :: (if e < 0 then '-' else '+') :: (if ds.length < 2 then '0' :: ds else ds)

/-- A magnitude laid out. -/
def Layout.write (l : Layout) (d : Scaled) : List Char :=
  let ds := natText d.digits
  let e : Int := d.exp + ds.length - 1
  if e < l.plainFrom ∨ l.plainBelow ≤ e then
    match ds with
    | c :: (f :: fs) => c :: '.' :: f :: fs ++ exponentText e
    | _ => ds ++ exponentText e
  else if e < 0 then '0' :: '.' :: List.replicate (-e - 1).toNat '0' ++ ds
  else if ds.length ≤ e + 1 then
    ds ++ List.replicate (e + 1 - ds.length).toNat '0' ++ (if l.pointZero then ['.', '0'] else [])
  else ds.take (e + 1).toNat ++ '.' :: ds.drop (e + 1).toNat

/-- A number, given how the digits of a finite one that is not zero are chosen. -/
def Layout.text (l : Layout) (choose : Binary → Scaled) (x : Float) : String :=
  if x.isNaN then "nan"
  else
    let magnitude :=
      if x.isInf then "inf".toList
      else if x == 0.0 then (if l.pointZero then ['0', '.', '0'] else ['0'])
      else l.write (choose (.ofFloat x))
    String.ofList (if isNegative x then '-' :: magnitude else magnitude)

/-- A number with the fewest digits that identify it. -/
def exactText (x : Float) : String := Layout.exact.text Binary.shortest x

/-- A number to six significant digits. -/
def generalText (x : Float) : String := Layout.general.text (·.significant 6) x

end SfcCheck.Decimal
