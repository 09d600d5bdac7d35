/-!
# Binary floating point, read exactly

A double is a sign with a magnitude: infinite, not a number, or the whole number `mantissa` times
a power of two.  Comparison goes through the exact value, so that a double and a whole number are
equal only if they are the same number.
-/

namespace DotSemantics

/-- The magnitude of a finite double: `mantissa * 2 ^ (power - 1074)`. -/
structure Magnitude where
  mantissa : Nat
  power : Nat
deriving Repr, DecidableEq

inductive Double where
  | finite (negative : Bool) (magnitude : Magnitude)
  | infinite (negative : Bool)
  | notANumber
deriving Repr, DecidableEq

/-- The bit above the 52 bits of a fraction, which the pattern of a double leaves out. -/
def hiddenBit : Nat := 0x10000000000000

namespace Double

/-- The fields of the 64-bit pattern: one bit of sign, eleven of exponent, 52 of fraction. -/
def ofBits (bits : Nat) : Double :=
  let negative := bits / hiddenBit / 2048 % 2 == 1
  let exponent := bits / hiddenBit % 2048
  let fraction := bits % hiddenBit
  if exponent = 2047 then
    if fraction = 0 then infinite negative else notANumber
  else if exponent = 0 then finite negative ⟨fraction, 0⟩
  else finite negative ⟨hiddenBit + fraction, exponent - 1⟩

def ofFloat (x : Float) : Double := ofBits x.toBits.toNat

/-- The denominator over which all finite doubles are whole numbers. -/
def scale : Nat := Nat.pow 2 1074

/-- The value of a finite double in units of `1 / scale`. -/
def scaled? : Double → Option Int
  | finite negative m =>
    let n : Int := Int.ofNat (m.mantissa * Nat.pow 2 m.power)
    some (if negative then -n else n)
  | _ => none

/-- Whether two doubles are the same number; the two zeros are, and no number is the one that is
not a number. -/
def same (x y : Double) : Bool :=
  match x.scaled?, y.scaled? with
  | some a, some b => a == b
  | none, none => x == y && x != notANumber
  | _, _ => false

/-- Whether a double is a given whole number. -/
def isInt (x : Double) (n : Int) : Bool := x.scaled? == some (n * scale)

end Double

end DotSemantics
