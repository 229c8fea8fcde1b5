/-!
# SlotLang.Decimal.Shortest

The shortest decimal that names a double. A double stands for every real number that rounds to it;
of the decimals among these, the ones with the fewest digits are taken, and of those the nearest
to the double. All arithmetic is exact, on natural numbers.
-/

namespace SlotLang.Decimal

/-- A double-precision number, by its bits. -/
structure Double where
  bits : UInt64
  deriving DecidableEq, Repr

namespace Double

/-- The bits of a floating-point number. -/
def ofFloat (f : Float) : Double := ⟨f.toBits⟩

/-- The sign bit. -/
def isNegative (d : Double) : Bool := d.bits.toNat / Nat.pow 2 63 = 1

/-- The exponent field. -/
def exponentField (d : Double) : Nat := d.bits.toNat / Nat.pow 2 52 % Nat.pow 2 11

/-- The fraction field. -/
def fractionField (d : Double) : Nat := d.bits.toNat % Nat.pow 2 52

/-- The integer `m` in the absolute value `m * 2 ^ (e - 1075)`. -/
def significand (d : Double) : Nat :=
  if d.exponentField = 0 then d.fractionField else Nat.pow 2 52 + d.fractionField

/-- The number `e` in the absolute value `m * 2 ^ (e - 1075)`. -/
def exponent (d : Double) : Nat :=
  if d.exponentField = 0 then 1 else d.exponentField

end Double

/-- A positive fraction with the bounds of the reals that round to it, all over one denominator. -/
structure Interval where
  low : Nat
  value : Nat
  high : Nat
  denominator : Nat
  /-- The bounds themselves round to the value. -/
  closed : Bool
  deriving DecidableEq, Repr

namespace Interval

/-- The reals that round to the absolute value of a double. Below a power of two the neighbours
lie twice as close. -/
def ofDouble (d : Double) : Interval :=
  let m := d.significand
  let below := if d.fractionField = 0 && 1 < d.exponentField then 1 else 2
  let up := Nat.pow 2 (d.exponent - 1077)
  ⟨(4 * m - below) * up, 4 * m * up, (4 * m + 2) * up, Nat.pow 2 (1077 - d.exponent), m % 2 = 0⟩

/-- The same interval, seen in units of a power of ten. -/
def inUnits (i : Interval) (power : Int) : Interval :=
  if 0 ≤ power then
    { i with denominator := i.denominator * Nat.pow 10 power.toNat }
  else
    let up := Nat.pow 10 (-power).toNat
    { i with low := i.low * up, value := i.value * up, high := i.high * up }

/-- A whole number of units lies in the interval. -/
def contains (i : Interval) (units : Nat) : Bool :=
  let n := units * i.denominator
  if i.closed then i.low ≤ n && n ≤ i.high else i.low < n && n < i.high

/-- The whole number of units in the interval that is nearest to the value; of two equally near
ones the even one. -/
def nearest? (i : Interval) : Option Nat :=
  let down := i.value / i.denominator
  let rest := i.value % i.denominator
  match i.contains down, i.contains (down + 1) with
  | false, false => none
  | true, false => some down
  | false, true => some (down + 1)
  | true, true =>
    if 2 * rest < i.denominator then some down
    else if i.denominator < 2 * rest then some (down + 1)
    else if down % 2 = 0 then some down
    else some (down + 1)

/-- The power of ten at the first digit of the value, searched downwards. -/
def leadingPower (i : Interval) : Nat → Int → Int
  | 0, power => power
  | fuel + 1, power =>
    let j := i.inUnits power
    if j.denominator ≤ j.value then power else i.leadingPower fuel (power - 1)

/-- The first grid, from coarse to fine, on which some point lies in the interval. -/
def search (i : Interval) : Nat → Int → Nat × Int
  | 0, power => ((i.inUnits power).value / (i.inUnits power).denominator, power)
  | fuel + 1, power =>
    match (i.inUnits power).nearest? with
    | some units => (units, power)
    | none => i.search fuel (power - 1)

end Interval

/-- Takes zeros off the end of a number and counts them into the power of ten. -/
def trimZeros : Nat → Nat → Int → Nat × Int
  | 0, units, power => (units, power)
  | fuel + 1, units, power =>
    if 0 < units ∧ units % 10 = 0 then trimZeros fuel (units / 10) (power + 1) else (units, power)

/-- The digits `n` and the power `k` of the shortest decimal `n * 10 ^ k` that names the absolute
value of a double other than zero. Seventeen digits always suffice. -/
def shortest (d : Double) : Nat × Int :=
  let i := Interval.ofDouble d
  let (units, power) := i.search 17 (i.leadingPower 640 310)
  trimZeros 20 units power

/-- The mark of an exponent and the exponent with its sign, which is always written. -/
def exponentText (e : Int) : List Char :=
  'e' :: (if 0 ≤ e then '+' else '-') :: (toString e.natAbs).toList

/-- A double in decimal. The point is written while it stands within the first sixteen digits or
at most four zeros before them; other numbers have an exponent. A point that is written has a digit
on both sides. -/
def Double.text (d : Double) : String :=
  let sign := if d.isNegative then "-" else ""
  if d.significand = 0 then
    sign ++ "0.0"
  else
    let (n, power) := shortest d
    let digits := (toString n).toList
    let count := digits.length
    let point := power + count
    let zeros (k : Int) := List.replicate k.toNat '0'
    sign ++ String.ofList
      (if 0 ≤ power ∧ point ≤ 16 then digits ++ zeros power ++ ['.', '0']
      else if 0 < point ∧ point ≤ 16 then digits.take point.toNat ++ '.' :: digits.drop point.toNat
      else if -5 < point ∧ point ≤ 0 then '0' :: '.' :: zeros (-point) ++ digits
      else if count = 1 then digits ++ exponentText (point - 1)
      else digits.take 1 ++ '.' :: digits.drop 1 ++ exponentText (point - 1))

end SlotLang.Decimal
