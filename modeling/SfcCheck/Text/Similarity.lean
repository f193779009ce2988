/-!
# Similar names

How much two texts have in common, and which of some names are close to a given one. What two texts
have in common is their longest common block and, on either side of it, what is left there has in
common again.
-/

namespace SfcCheck.Text

/-- The length of the longest common start of two texts. -/
def commonStart : List Char → List Char → Nat
  | a :: as, b :: bs => if a = b then commonStart as bs + 1 else 0
  | _, _ => 0

/-- A block of two texts: where it begins in either of them, and its length. -/
structure Block where
  first : Nat
  second : Nat
  length : Nat
deriving DecidableEq, Repr

/-- The longest common block of two texts; of several, the one that comes first in the first text,
then the one that comes first in the second. -/
def longestBlock (as bs : List Char) : Block :=
  let places := (List.range as.length).flatMap fun i => (List.range bs.length).map fun j => (i, j)
  places.foldl
    (fun best p =>
      let n := commonStart (as.drop p.1) (bs.drop p.2)
      if best.length < n then ⟨p.1, p.2, n⟩ else best)
    ⟨0, 0, 0⟩

/-- The number of characters that two texts have in common. -/
def commonCount (as bs : List Char) : Nat :=
  match longestBlock as bs with
  | ⟨i, j, n⟩ =>
    if _h : 0 < n ∧ i + n ≤ as.length then
      commonCount (as.take i) (bs.take j) + n
        + commonCount (as.drop (i + n)) (bs.drop (j + n))
    else 0
termination_by as.length
decreasing_by
  · simp only [List.length_take]; omega
  · simp only [List.length_drop]; omega

/-- A name with what it has in common with another one, out of the length of both. -/
structure Candidate where
  name : String
  common : Nat
  total : Nat

/-- A name as a candidate for a given one. -/
def Candidate.new (given name : String) : Candidate :=
  ⟨name, commonCount name.toList given.toList, name.length + given.length⟩

/-- Whether the common characters make up three fifths of both names. -/
def Candidate.isClose (c : Candidate) : Bool := 3 * c.total ≤ 10 * c.common

/-- Whether two names are near enough in length for one to be close to the other: what they have in
common is no longer than either. -/
def haveNearLengths (given name : String) : Bool :=
  3 * (name.length + given.length) ≤ 10 * min name.length given.length

/-- Whether a candidate comes before another one: closer ones do, then greater names. -/
def Candidate.before (c d : Candidate) : Bool :=
  if c.common * d.total = d.common * c.total then d.name < c.name
  else d.common * c.total < c.common * d.total

/-- The names that are close to a given one, the closest first, at most three. -/
def closeNames (given : String) (names : List String) : List String :=
  let near := names.filter (haveNearLengths given)
  let close := (near.map (Candidate.new given)).filter Candidate.isClose
  ((close.mergeSort Candidate.before).take 3).map (·.name)

end SfcCheck.Text
