import BslLint.Text.Basic

/-!
Decimal numbers and the doubles that hold them. A double has 53 significant bits and lies below
`doubleBound`; what a decimal number is rounded to is worked out in whole numbers.
-/

namespace BslLint

/-- A decimal number as it is written, without its sign: the digits before and behind the point, and
the size of the exponent, which raises the number by `up` places or lowers it by `down`. -/
structure Decimal where
  whole : Text
  fraction : Text
  up : Nat
  down : Nat
deriving DecidableEq, Repr

namespace Decimal

def ofDigits (digits : Text) : Nat :=
  digits.foldl (fun n c => n * 10 + (c.toNat - '0'.toNat)) 0

/-- From this number on a magnitude is rounded to no double. -/
def doubleBound : Nat := Nat.pow 2 1024 - Nat.pow 2 970

/-- Whether the double nearest to a number exists. Exponents far outside the range are decided by
their size alone. -/
def roundsToDouble (d : Decimal) : Bool :=
  let digits := (d.whole ++ d.fraction).dropWhile (· == '0')
  let mantissa := ofDigits digits
  let down := d.fraction.length + d.down
  digits.isEmpty || digits.length + d.up < 300 + down ||
    (digits.length + d.up ≤ 310 + down &&
      (if down ≤ d.up then mantissa * Nat.pow 10 (d.up - down) < doubleBound
        else mantissa < doubleBound * Nat.pow 10 (down - d.up)))

/-- The multiple of a power of two with 53 significant bits that is nearest to a number; of two, the
one with an even multiplier. -/
def nearestDouble (n : Nat) : Nat :=
  if n < 9007199254740992 then n
  else
    let unit := Nat.pow 2 (n.log2 - 52)
    let below := n / unit
    let twice := 2 * (n % unit)
    if unit < twice || (twice == unit && below % 2 == 1) then (below + 1) * unit
    else below * unit

/-- The number that decimal digits write behind those of `n`, as far as it stays below `2 ^ 64`, and
the digits from the first one on that would take it further. -/
def extend (n : Nat) : Text → Nat × Text
  | [] => (n, [])
  | c :: cs =>
    let m := n * 10 + (c.toNat - '0'.toNat)
    if m < 18446744073709551616 then extend m cs else (n, c :: cs)

/-- The largest power of ten that is rounded to a double. -/
def maxPower : Nat := 308

/-- Whether a number of 64 bits, scaled by `10 ^ (up - down)`, stays a double when the number and
the power of ten are rounded before they are multiplied. -/
def scalesToDouble (n up down : Nat) : Bool :=
  n == 0 || up ≤ down ||
    (up - down ≤ maxPower &&
      nearestDouble n * nearestDouble (Nat.pow 10 (up - down)) < doubleBound)

/-- Whether a number is taken for a double when only as many of its digits are kept as fit 64 bits:
before the point the others count as zeros, and behind it not at all. -/
def scalesWhenCut (d : Decimal) : Bool :=
  let (n, cut) := extend 0 d.whole
  let (n, ignored) := extend n d.fraction
  scalesToDouble n (cut.length + d.up) (d.fraction.length - ignored.length + d.down)

end Decimal

end BslLint
