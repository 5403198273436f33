/-! The exact value of a finite floating-point number: an integer times a power of two. -/

namespace ClassAtlas.Number

/-- The magnitude `mantissa * 2 ^ exponent` with a sign. -/
structure Exact where
  negative : Bool
  mantissa : Nat
  exponent : Int
deriving Repr, DecidableEq

/-- The mantissa of the smallest number of a binade, two to the fifty-second; only there is the gap below
half the gap above. -/
def Exact.leastNormal : Nat := 0x10000000000000

/-- The bits of a number read as sign, mantissa and exponent; nothing for infinities and NaN. -/
def Exact.ofBits? (bits : Nat) : Option Exact :=
  let negative : Bool := bits / (2048 * leastNormal) % 2 == (1 : Nat)
  let biased : Nat := bits / leastNormal % 2048
  let fraction : Nat := bits % leastNormal
  if biased = 2047 then none
  else if biased = 0 then some ⟨negative, fraction, -1074⟩
  else some ⟨negative, leastNormal + fraction, Int.ofNat biased - 1075⟩

def Exact.ofFloat? (x : Float) : Option Exact := Exact.ofBits? x.toBits.toNat

/-- The integer that the number is, if it is one. -/
def Exact.toInt? (x : Exact) : Option Int :=
  let magnitude? : Option Nat :=
    if 0 ≤ x.exponent then some (x.mantissa * Nat.pow 2 x.exponent.toNat)
    else
      let unit := Nat.pow 2 (-x.exponent).toNat
      if x.mantissa % unit = 0 then some (x.mantissa / unit) else none
  magnitude?.map fun n => if x.negative then -(n : Int) else n

end ClassAtlas.Number
