import NestedQuery.Number.Binary
import NestedQuery.Value.Basic

/-!
# Binary parameters

The bytes in which a value is sent for a placeholder whose type the server has inferred.
`Value.wireBytes` follows the placeholder: an integer takes its width, or becomes a number with a
fraction or a truth value; bytes are in big-endian order. An integer that is too wide is refused,
and so is a list, which has no single placeholder.
-/

namespace NestedQuery

/-- The type of a placeholder. -/
inductive WireType where
  /-- A truth value. -/
  | bool
  /-- An integer of two bytes. -/
  | int2
  /-- An integer of four bytes. -/
  | int4
  /-- An integer of eight bytes. -/
  | int8
  /-- A number of four bytes. -/
  | float4
  /-- A number of eight bytes. -/
  | float8
  /-- A text. -/
  | text
  /-- Bytes. -/
  | bytea
  /-- A number of any length. -/
  | numeric
  deriving Repr, DecidableEq

/-- Why a value has no binary form. -/
inductive WireError where
  /-- An integer does not fit the type. -/
  | tooWide
  /-- A list has no single placeholder. -/
  | list
  deriving Repr, DecidableEq

/-- The message, where the failure is not the number's own. -/
def WireError.message? : WireError → Option String
  | tooWide => none
  | list => some "list parameters must be expanded before binding"

/-- The lowest `count` bytes of a natural number, the highest first. -/
def bigEndian (count n : Nat) : List UInt8 :=
  (List.range count).reverse.map fun i => (n / Number.twoTo (8 * i)).toUInt8

/-- The bytes of an integer in two's complement, if it fits into `count` bytes. -/
def twosComplement? (count : Nat) (i : Int) : Option (List UInt8) :=
  let half : Int := Number.twoTo (8 * count - 1)
  if -half ≤ i ∧ i < half then some (bigEndian count (i % (2 * half)).toNat) else none

namespace Value

/-- The bytes of an integer for a placeholder. -/
def integerBytes? (type : WireType) (i : Int) : Option (List UInt8) :=
  match type with
  | .int2 => twosComplement? 2 i
  | .int4 => twosComplement? 4 i
  | .float4 => some (bigEndian 4 (Number.binary32.encode (i < 0) i.natAbs 0))
  | .float8 => some (bigEndian 8 (Number.floatOfInt i).toBits.toNat)
  | .bool => some [if i = 0 then 0 else 1]
  | _ => twosComplement? 8 i

/-- The bytes of a value for a placeholder; none for null. -/
def wireBytes (type : WireType) : Value → Except WireError (Option (List UInt8))
  | null => .ok none
  | bool b => .ok (some [if b then 1 else 0])
  | integer i =>
    match integerBytes? type i.toInt with
    | some bytes => .ok (some bytes)
    | none => .error .tooWide
  | real x =>
    if type = .float4 then .ok (some (bigEndian 4 (Number.narrowBits x)))
    else .ok (some (bigEndian 8 x.toBits.toNat))
  | text s => .ok (some s.toUTF8.toList)
  | blob bytes => .ok (some bytes)
  | list _ => .error .list

end Value

end NestedQuery
