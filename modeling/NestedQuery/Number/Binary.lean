import NestedQuery.Number.Power

/-!
# Binary floating point formats

A `Format` fixes the widths of the two fields of a binary number. `decode` reads a bit pattern as
a sign, a mantissa and an exponent of two; `encode` finds the pattern whose value is nearest to a
given mantissa and exponent, ties going to the even pattern. Both work on natural numbers, so
nothing is lost on the way between them. `binary64` is the format of `Float`.

On top of them stand the exact questions about a `Float`: `floatToInt?` (is it an integer, and
which), `floatOfInt` (the nearest number to an integer), `remainder` (what is left of a division
that was cut towards zero) and `narrowBits` (the nearest number of four bytes).
-/

namespace NestedQuery.Number

/-- The field widths of a binary number: a sign bit, then the exponent, then the fraction. -/
structure Format where
  /-- The width of the fraction field. -/
  fractionBits : Nat
  /-- The width of the exponent field. -/
  exponentBits : Nat
  deriving Repr, DecidableEq

/-- What a bit pattern stands for. -/
inductive Decoded where
  /-- Not a number. -/
  | nan
  /-- An infinity. -/
  | infinite (negative : Bool)
  /-- The number `mantissa * 2 ^ exponent`, with a sign. -/
  | finite (negative : Bool) (mantissa : Nat) (exponent : Int)
  deriving Repr, DecidableEq

namespace Format

/-- The pattern of an infinite exponent field; larger than every finite exponent field. -/
def topExponent (f : Format) : Nat :=
  twoTo f.exponentBits - 1

/-- The exponent of two of the last place of the least numbers. -/
def leastExponent (f : Format) : Int :=
  2 - twoTo (f.exponentBits - 1) - f.fractionBits

/-- The value of a bit pattern. -/
def decode (f : Format) (bits : Nat) : Decoded :=
  let negative := bits / twoTo (f.fractionBits + f.exponentBits) % 2 == 1
  let field := bits / twoTo f.fractionBits % twoTo f.exponentBits
  let fraction := bits % twoTo f.fractionBits
  if field = f.topExponent then
    if fraction = 0 then .infinite negative else .nan
  else if field = 0 then
    .finite negative fraction f.leastExponent
  else
    .finite negative (twoTo f.fractionBits + fraction) (f.leastExponent + field - 1)

/-- The integer nearest to `m / 2 ^ shift`; a half goes to the even neighbour. -/
def roundShift (m shift : Nat) : Nat :=
  let whole := m / twoTo shift
  let rest := 2 * (m % twoTo shift)
  if rest > twoTo shift ∨ (rest = twoTo shift ∧ whole % 2 = 1) then whole + 1 else whole

/-- The bit pattern without its sign of the number nearest to `mantissa * 2 ^ exponent`. Consecutive
numbers have consecutive patterns, so a mantissa that rounds up to a power of two carries into
the exponent field by itself, and one that leaves the range ends at the infinite pattern. -/
def encodeMagnitude (f : Format) (mantissa : Nat) (exponent : Int) : Nat :=
  if mantissa = 0 then 0
  else
    let place := max (exponent + mantissa.log2 - f.fractionBits) f.leastExponent
    let scaled :=
      if place ≤ exponent then mantissa * twoTo (exponent - place).toNat
      else roundShift mantissa (place - exponent).toNat
    let pattern := (place - f.leastExponent).toNat * twoTo f.fractionBits + scaled
    min pattern (f.topExponent * twoTo f.fractionBits)

/-- The bit pattern of the number nearest to `mantissa * 2 ^ exponent`, with a sign. -/
def encode (f : Format) (negative : Bool) (mantissa : Nat) (exponent : Int) : Nat :=
  let sign := if negative then twoTo (f.fractionBits + f.exponentBits) else 0
  sign + f.encodeMagnitude mantissa exponent

/-- The pattern used for not a number: an infinite exponent and the first fraction bit. -/
def nanPattern (f : Format) : Nat :=
  f.topExponent * twoTo f.fractionBits + twoTo (f.fractionBits - 1)

/-- The bit pattern for a decoded value. -/
def pattern (f : Format) : Decoded → Nat
  | .nan => f.nanPattern
  | .infinite negative => f.encode negative 1 (twoTo f.exponentBits)
  | .finite negative mantissa exponent => f.encode negative mantissa exponent

end Format

/-- Eight bytes: eleven bits of exponent, fifty-two of fraction. -/
def binary64 : Format := ⟨52, 11⟩

/-- Four bytes: eight bits of exponent, twenty-three of fraction. -/
def binary32 : Format := ⟨23, 8⟩

/-! ### Floats -/

/-- The value of a float. -/
def decodeFloat (x : Float) : Decoded :=
  binary64.decode x.toBits.toNat

/-- The float with a decoded value, rounded to nearest. -/
def floatOf (d : Decoded) : Float :=
  Float.ofBits (binary64.pattern d).toUInt64

/-- The float nearest to an integer. -/
def floatOfInt (i : Int) : Float :=
  floatOf (.finite (i < 0) i.natAbs 0)

/-- The integer that a decoded value is, if it is one. -/
def Decoded.toInt? : Decoded → Option Int
  | .finite negative mantissa exponent =>
    let magnitude :=
      if 0 ≤ exponent then some (mantissa * twoTo exponent.toNat)
      else
        let unit := twoTo (-exponent).toNat
        if mantissa % unit = 0 then some (mantissa / unit) else none
    magnitude.map fun (n : Nat) => if negative then -(n : Int) else n
  | _ => none

/-- The integer that a float is, if it is one. -/
def floatToInt? (x : Float) : Option Int :=
  (decodeFloat x).toInt?

/-- Whether a float is neither infinite nor not a number. -/
def isFiniteFloat (x : Float) : Bool :=
  match decodeFloat x with
  | .finite .. => true
  | _ => false

/-- What is left of `x` after taking away as many whole `y` as fit; it has the sign of `x`. -/
def remainder (x y : Float) : Float :=
  match decodeFloat x, decodeFloat y with
  | .finite negative m p, .finite _ n q =>
    if n = 0 then floatOf .nan
    else
      let place := min p q
      let left := m * twoTo (p - place).toNat % (n * twoTo (q - place).toNat)
      floatOf (.finite negative left place)
  | .finite .., .infinite _ => x
  | _, _ => floatOf .nan

/-- The pattern of four bytes nearest to a float. -/
def narrowBits (x : Float) : Nat :=
  binary32.pattern (decodeFloat x)

end NestedQuery.Number
