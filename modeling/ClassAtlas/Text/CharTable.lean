/-! Membership in a set of characters that a standard lists by ranges of code points. -/

namespace ClassAtlas.Text

/-- Ranges of code points, both ends included. -/
abbrev CharTable := List (Nat × Nat)

/-- A character belongs to a table when one of its ranges holds the character's code point. -/
def CharTable.has (table : CharTable) (c : Char) : Bool :=
  table.any fun range => range.1 ≤ c.toNat && c.toNat ≤ range.2

end ClassAtlas.Text
