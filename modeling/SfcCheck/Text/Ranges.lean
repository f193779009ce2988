/-!
# Sets of characters as ranges of code points

A character property is carried as a list of closed ranges, ascending and apart. Membership looks
each range up in turn; the tables that use it are data of the Unicode standard, version 14.
-/

namespace SfcCheck.Text

/-- Closed ranges of code points. -/
abbrev Ranges := List (Nat × Nat)

/-- Whether the code point of `c` lies in one of the ranges. -/
def inRanges (rs : Ranges) (c : Char) : Bool :=
  rs.any fun r => r.1 ≤ c.toNat && c.toNat ≤ r.2

theorem inRanges_iff {rs : Ranges} {c : Char} :
    inRanges rs c = true ↔ ∃ r ∈ rs, r.1 ≤ c.toNat ∧ c.toNat ≤ r.2 := by
  simp [inRanges]

end SfcCheck.Text
