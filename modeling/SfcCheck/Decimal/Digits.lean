import SfcCheck.Decimal.Binary

/-!
# Decimal digits of a binary value

Two ways to choose digits. `shortest` takes the fewest digits that read back to the value: on the
decimal grid of each length it tries the two neighbours of the value, and of two that read back it
takes the nearer, the even one on a tie. `significant` rounds the exact value to a given number of
digits, halves to even. Both are computed exactly.
-/

namespace SfcCheck.Decimal

/-- The value `digits · 10^exp`. -/
structure Scaled where
  digits : Nat
  exp : Int
deriving DecidableEq, Repr

/-- Compares `a · 10^i` with `n · 2^j`. -/
def compareScaled (a : Nat) (i : Int) (n : Nat) (j : Int) : Ordering :=
  compare (a * power 10 i * power 2 (-j)) (n * power 2 j * power 10 (-i))

/-- Whether a decimal lies among the reals that round to the value, to nearest with ties to even. -/
def Binary.readsBack (x : Binary) (d : Scaled) : Bool :=
  let lo := if x.narrowBelow then 4 * x.m - 1 else 4 * x.m - 2
  let hi := 4 * x.m + 2
  let closed := x.m % 2 == 0
  let below := compareScaled d.digits d.exp lo (x.q - 2)
  let above := compareScaled d.digits d.exp hi (x.q - 2)
  (below == .gt || (closed && below == .eq)) && (above == .lt || (closed && above == .eq))

/-- The least `k` with the value below `10^k`, for a value that is not zero. -/
def Binary.scale (x : Binary) : Int :=
  let bits : Int := x.m.log2 + 1 + x.q
  let guess := bits * 30103 / 100000
  ([guess - 1, guess, guess + 1, guess + 2].find? fun k => compareScaled 1 k x.m x.q == .gt).getD
    (guess + 3)

/-- The value divided by `10^e`, as a numerator and a denominator. -/
def Binary.overGrid (x : Binary) (e : Int) : Nat × Nat :=
  (x.m * power 2 x.q * power 10 (-e), power 2 (-x.q) * power 10 e)

/-- The best decimal of the grid `10^e` that reads back, if one of the two neighbours does. -/
def Binary.onGrid? (x : Binary) (e : Int) : Option Scaled :=
  let (num, den) := x.overGrid e
  let lo : Scaled := ⟨num / den, e⟩
  let hi : Scaled := ⟨num / den + 1, e⟩
  match x.readsBack lo, x.readsBack hi with
  | true, true =>
    match compare (2 * num) ((lo.digits + hi.digits) * den) with
    | .lt => some lo
    | .gt => some hi
    | .eq => some (if lo.digits % 2 = 0 then lo else hi)
  | true, false => some lo
  | false, true => some hi
  | false, false => none

/-- Drops trailing zeros into the exponent, at most `n` of them. -/
def Scaled.strip : Nat → Scaled → Scaled
  | 0, d => d
  | n + 1, d => if d.digits % 10 = 0 ∧ d.digits ≠ 0 then strip n ⟨d.digits / 10, d.exp + 1⟩ else d

/-- The fewest digits that read back to a value that is not zero. Seventeen always suffice; the
exact value stands behind them. -/
def Binary.shortest (x : Binary) : Scaled :=
  let k := x.scale
  match (List.range 17).findSome? fun n : Nat => x.onGrid? (k - (n + 1)) with
  | some d => d.strip 20
  | none => ⟨x.m * power 2 x.q * power 5 (-x.q), -(-x.q).toNat⟩

/-- A quotient rounded to nearest, halves to even. -/
def roundQuotient (num den : Nat) : Nat :=
  let q := num / den
  match compare (2 * (num % den)) den with
  | .lt => q
  | .gt => q + 1
  | .eq => if q % 2 = 0 then q else q + 1

/-- The value to `n` significant digits, for a value that is not zero, without trailing zeros. -/
def Binary.significant (x : Binary) (n : Nat) : Scaled :=
  let e := x.scale - n
  let (num, den) := x.overGrid e
  Scaled.strip n ⟨roundQuotient num den, e⟩

end SfcCheck.Decimal
