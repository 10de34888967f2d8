import NestedQuery.Number.Binary

/-!
# The shortest decimal of a float

A positive float is `m * 2 ^ q`, and every real number in an interval around it rounds to it. For
each decimal place, from coarse to fine, `shortestFrom` looks at the two neighbours of the float
among the multiples of that place; the first place with a neighbour inside the interval wins, of
two neighbours inside the nearer one, and of two equally near ones the one that `Ties` picks. All
comparisons are between natural numbers.

`Decimal` is the outcome, `digits * 10 ^ place`. Two ways of writing it are given: `positional`
never uses an exponent (`2`, `0.1`, `100000000000000000000`), `scientific` writes at least one
decimal and moves to an exponent far from the point (`2.0`, `1e+20`).
-/

namespace NestedQuery.Number

/-- The decimal `digits * 10 ^ place`. -/
structure Decimal where
  /-- The digits, read as one number. -/
  digits : Nat
  /-- The power of ten of the last digit. -/
  place : Int
  deriving Repr, DecidableEq

/-- Which of two equally near neighbours is taken. -/
inductive Ties where
  /-- The greater one. -/
  | up
  /-- The one whose last digit is even. -/
  | even
  deriving Repr, DecidableEq

/-- Whether the lower one of two equally near neighbours is taken, if its digits are `below`. -/
def Ties.takesLower (t : Ties) (below : Nat) : Bool :=
  match t with
  | up => false
  | even => below % 2 == 0

/-! ### Rounding intervals -/

/-- The reals that round to a float, in quarters of its last place: the float is
`centre * 2 ^ exponent`, the interval runs from `low` to `high` in the same unit. -/
structure RoundingInterval where
  /-- The lower end. -/
  low : Nat
  /-- The float itself. -/
  centre : Nat
  /-- The upper end. -/
  high : Nat
  /-- The power of two of the unit. -/
  exponent : Int
  /-- Whether the two ends round to the float. -/
  closed : Bool
  deriving Repr, DecidableEq

/-- The interval of `mantissa * 2 ^ exponent`. Below a power of two the next float is only half as
far away, except at the least exponent. A tie goes to the even mantissa, so the ends belong to
the interval iff the mantissa is even. -/
def RoundingInterval.of (mantissa : Nat) (exponent : Int) : RoundingInterval :=
  let atPower := mantissa = twoTo 52 ∧ exponent ≠ binary64.leastExponent
  { low := 4 * mantissa - if atPower then 1 else 2
    centre := 4 * mantissa
    high := 4 * mantissa + 2
    exponent := exponent - 2
    closed := mantissa % 2 == 0 }

/-- How many times `10 ^ place` a unit of `2 ^ exponent` is, as a fraction of naturals. -/
def unitRatio (exponent place : Int) : Nat × Nat :=
  (twoTo exponent.toNat * tenTo (-place).toNat, twoTo (-exponent).toNat * tenTo place.toNat)

/-- Whether `digits * 10 ^ place` lies in the interval. -/
def RoundingInterval.holds (i : RoundingInterval) (digits : Nat) (place : Int) : Bool :=
  let (a, b) := unitRatio i.exponent place
  if i.closed then i.low * a ≤ digits * b && digits * b ≤ i.high * a
  else i.low * a < digits * b && digits * b < i.high * a

/-- The neighbour of the float among the multiples of `10 ^ place` that lies in the interval; of
two such neighbours the nearer, and of two equally near ones the one that `ties` picks. -/
def RoundingInterval.at? (ties : Ties) (i : RoundingInterval) (place : Int) : Option Decimal :=
  let (a, b) := unitRatio i.exponent place
  let below := i.centre * a / b
  let above := below + 1
  match i.holds below place, i.holds above place with
  | true, true =>
    let toBelow := i.centre * a - below * b
    let toAbove := above * b - i.centre * a
    if toBelow < toAbove ∨ (toBelow = toAbove ∧ ties.takesLower below) then some ⟨below, place⟩
    else some ⟨above, place⟩
  | true, false => some ⟨below, place⟩
  | false, true => some ⟨above, place⟩
  | false, false => none

/-- The first place, going down from `place` by at most `steps`, with a neighbour inside. -/
def RoundingInterval.shortestFrom (ties : Ties) (i : RoundingInterval) (place : Int) :
    (steps : Nat) → Decimal
  | 0 => (i.at? ties place).getD ⟨0, 0⟩
  | steps + 1 => (i.at? ties place).getD (i.shortestFrom ties (place - 1) steps)

/-- The number of decimal digits of `n`. -/
def decimalLength (n : Nat) : Nat :=
  (Nat.toDigits 10 n).length

/-- The shortest decimal that rounds to `mantissa * 2 ^ exponent`. The search starts above the
first digit; at the place of the float's own last binary digit the float is its own neighbour,
so the search ends there at the latest. -/
def shortest (ties : Ties) (mantissa : Nat) (exponent : Int) : Decimal :=
  let start := decimalLength (mantissa * twoTo exponent.toNat / twoTo (-exponent).toNat)
  (RoundingInterval.of mantissa exponent).shortestFrom ties start (start + (-exponent).toNat)

/-! ### Two ways of writing a decimal -/

/-- `n` in decimal, with zeros in front up to `width` digits. -/
def paddedDigits (width n : Nat) : List Char :=
  let ds := Nat.toDigits 10 n
  List.replicate (width - ds.length) '0' ++ ds

/-- A list of digits without the zeros at its end. -/
def dropTrailingZeros (ds : List Char) : List Char :=
  (ds.reverse.dropWhile (· == '0')).reverse

/-- A decimal without an exponent; a point only if there is something behind it. -/
def Decimal.positional (d : Decimal) : String :=
  if 0 ≤ d.place then toString (d.digits * tenTo d.place.toNat)
  else
    let places := (-d.place).toNat
    let fraction := dropTrailingZeros (paddedDigits places (d.digits % tenTo places))
    let whole := toString (d.digits / tenTo places)
    if fraction.isEmpty then whole else whole ++ "." ++ String.ofList fraction

/-- The same decimal without zeros at the end of its digits. -/
def Decimal.trim (d : Decimal) : Decimal :=
  let ds := Nat.toDigits 10 d.digits
  let kept := dropTrailingZeros ds
  let dropped := ds.length - kept.length
  ⟨d.digits / tenTo dropped, d.place + dropped⟩

/-- An exponent, which always has its sign. -/
def exponentText (e : Int) : String :=
  (if e < 0 then "e-" else "e+") ++ toString e.natAbs

/-- A decimal with at least one decimal place, or with an exponent where the point would stand
more than sixteen places behind the first digit or more than five before it. -/
def Decimal.scientific (decimal : Decimal) : String :=
  let d := decimal.trim
  let ds := Nat.toDigits 10 d.digits
  let point := ds.length + d.place
  if 0 ≤ d.place ∧ point ≤ 16 then
    String.ofList (ds ++ List.replicate d.place.toNat '0') ++ ".0"
  else if 0 < point ∧ point ≤ 16 then
    String.ofList (ds.take point.toNat) ++ "." ++ String.ofList (ds.drop point.toNat)
  else if -5 < point ∧ point ≤ 0 then
    "0." ++ String.ofList (List.replicate (-point).toNat '0' ++ ds)
  else
    let behind := if ds.length = 1 then "" else "." ++ String.ofList (ds.drop 1)
    String.ofList (ds.take 1) ++ behind ++ exponentText (point - 1)

/-! ### Floats as text -/

/-- How a kind of float text chooses and spells its decimals. -/
structure FloatSpelling where
  /-- Which of two equally near decimals is written. -/
  ties : Ties
  /-- The text of zero. -/
  zero : String
  /-- The text of a positive decimal. -/
  decimal : Decimal → String

/-- The text of a float. -/
def FloatSpelling.text (s : FloatSpelling) (x : Float) : String :=
  let signed (negative : Bool) (t : String) := if negative then "-" ++ t else t
  match decodeFloat x with
  | .nan => "NaN"
  | .infinite negative => signed negative "inf"
  | .finite negative 0 _ => signed negative s.zero
  | .finite negative mantissa exponent =>
    signed negative (s.decimal (shortest s.ties mantissa exponent))

/-- The text of a float without exponents: `2`, `-0`, `0.1`, `inf`, `NaN`. A tie goes up. -/
def positionalText (x : Float) : String :=
  FloatSpelling.text ⟨.up, "0", Decimal.positional⟩ x

/-- The text of a float that shows it is not an integer: `2.0`, `-0.0`, `1e+20`. A tie goes to the
even digit. -/
def scientificText (x : Float) : String :=
  FloatSpelling.text ⟨.even, "0.0", Decimal.scientific⟩ x

end NestedQuery.Number
