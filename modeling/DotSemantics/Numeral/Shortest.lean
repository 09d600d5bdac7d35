import DotSemantics.Numeral.Binary

/-!
# Shortest numerals

The decimal numeral of a double with the fewest digits that read back as the same double, and of
those the one nearest to it.  Candidates are tried exactly, in whole numbers: on the grid of one
digit, of two, and so on, the two neighbours of the value are the only points to look at.  At most
seventeen digits are needed.
-/

namespace DotSemantics

/-- The number `coefficient * 10 ^ exponent`. -/
structure Decimal where
  coefficient : Nat
  exponent : Int
deriving Repr, DecidableEq

/-! ## Intervals -/

/-- The numbers nearer to one double than to any other, in units of `1 / (4 * scale)`; the ends
belong to it if the mantissa is even. -/
structure Interval where
  low : Nat
  value : Nat
  high : Nat
  closed : Bool

namespace Magnitude

/-- The interval of a magnitude.  The double below a power of two is only half as far away. -/
def interval (m : Magnitude) : Interval :=
  let unit := Nat.pow 2 m.power
  let below := if m.mantissa = hiddenBit ∧ 0 < m.power then unit else 2 * unit
  { low := 4 * m.mantissa * unit - below
    value := 4 * m.mantissa * unit
    high := 4 * m.mantissa * unit + 2 * unit
    closed := m.mantissa % 2 == 0 }

end Magnitude

namespace Interval

def unit : Nat := 4 * Double.scale

/-- Whether the number `n / d`, in units of the interval, reads back as the double. -/
def holds (i : Interval) (n d : Nat) : Bool :=
  if i.closed then i.low * d ≤ n && n ≤ i.high * d else i.low * d < n && n < i.high * d

end Interval

/-! ## Digits -/

/-- The exponent of the leading digit of `n / d`, when it is below one: the number of
multiplications by ten that lift it to one, as a search with `fuel` steps. -/
def liftsToOne : Nat → Nat → Nat → Nat
  | 0, _, _ => 0
  | fuel + 1, n, d => if d ≤ n then 0 else liftsToOne fuel (10 * n) d + 1

/-- The exponent of the leading digit of a positive magnitude. -/
def leadingExponent (value : Nat) : Int :=
  if Interval.unit ≤ value then ((Nat.toDigits 10 (value / Interval.unit)).length : Int) - 1
  else -(liftsToOne 400 value Interval.unit : Int)

/-- Of the two points of the grid `10 ^ e` around the value, the nearest that reads back; the even
one if both are as near. -/
def Interval.onGrid (i : Interval) (e : Int) : Option Decimal :=
  -- a point `c` of the grid is `c * up / down` in units of the interval
  let up := Nat.pow 10 e.toNat * Interval.unit
  let down := Nat.pow 10 (-e).toNat
  let c := i.value * down / up
  let rest := i.value * down % up
  let near := i.holds (c * up) down
  let far := i.holds ((c + 1) * up) down
  let takeFar := far && (!near || up < 2 * rest || (up == 2 * rest && c % 2 == 1))
  if takeFar then some ⟨c + 1, e⟩ else if near then some ⟨c, e⟩ else none

/-- The first grid with a point that reads back, from `n` digits up, with `fuel` grids to try. -/
def Interval.fromDigits (i : Interval) (lead : Int) : Nat → Nat → Decimal
  | 0, _ => ⟨i.value / Interval.unit, 0⟩
  | fuel + 1, n => (i.onGrid (lead - n + 1)).getD (i.fromDigits lead fuel (n + 1))

/-- The shortest decimal that reads back as a positive magnitude. -/
def Magnitude.shortest (m : Magnitude) : Decimal :=
  let i := m.interval
  i.fromDigits (leadingExponent i.value) 17 1

/-! ## Notation -/

/-- How numerals are laid out: leading exponents from `low` up to but not including `high` are
written by position, and an exponent has at least `exponentDigits` digits. -/
structure NumeralStyle where
  low : Int
  high : Int
  exponentDigits : Nat

/-- The style of numbers in messages. -/
def NumeralStyle.message : NumeralStyle := ⟨-4, 16, 2⟩

/-- The digits of a coefficient without the zeros at its end. -/
def significantDigits (n : Nat) : List Char :=
  match ((Nat.toDigits 10 n).reverse.dropWhile (· == '0')).reverse with
  | [] => ['0']
  | ds => ds

/-- Digits by position, the point after the digit of exponent zero and a digit on either side
of it. -/
def positional (ds : List Char) (lead : Int) : List Char :=
  if lead < 0 then '0' :: '.' :: List.replicate (-lead - 1).toNat '0' ++ ds
  else
    let whole := lead.toNat + 1
    let left := ds.take whole ++ List.replicate (whole - ds.length) '0'
    let right := ds.drop whole
    left ++ '.' :: (if right.isEmpty then ['0'] else right)

/-- Digits with the point after the first and an exponent; no point after a lone digit. -/
def scientific (style : NumeralStyle) (ds : List Char) (lead : Int) : List Char :=
  let point := match ds with
    | [d] => [d]
    | d :: r => d :: '.' :: r
    | [] => []
  let e := Nat.toDigits 10 lead.natAbs
  let padding := List.replicate (style.exponentDigits - e.length) '0'
  point ++ 'e' :: (if lead < 0 then '-' else '+') :: padding ++ e

def Decimal.chars (style : NumeralStyle) (d : Decimal) : List Char :=
  let all := Nat.toDigits 10 d.coefficient
  let lead := d.exponent + all.length - 1
  let ds := significantDigits d.coefficient
  if style.low ≤ lead ∧ lead < style.high then positional ds lead else scientific style ds lead

def Double.numeral (style : NumeralStyle) : Double → String
  | .notANumber => "nan"
  | .infinite negative => if negative then "-inf" else "inf"
  | .finite negative m =>
    let sign := if negative then ['-'] else []
    let body := if m.mantissa = 0 then ['0', '.', '0'] else m.shortest.chars style
    String.ofList (sign ++ body)

end DotSemantics
