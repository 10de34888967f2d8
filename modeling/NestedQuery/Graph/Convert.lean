import NestedQuery.Document
import NestedQuery.Error

/-!
# Cells as documents

`Value.convert` turns a cell into the document for its declared type. Integers and truth values
stand for each other where the type asks for it, an integral real fits an integer, and texts and
bytes turn into each other; such a turn is reported as inefficient, because the column could have
been selected in the other form. Null fits every type.
-/

namespace NestedQuery

/-- A converted cell. -/
structure Converted where
  /-- The document. -/
  document : Document
  /-- Whether the cell was turned from a text into bytes or back. -/
  inefficient : Bool := false

/-- Bytes as a list of numbers. -/
def Document.ofBytes (bytes : List UInt8) : Document :=
  .array (bytes.map fun b => .integer (Int64.ofNat b.toNat))

/-- The text with the given bytes, if they spell one. -/
def textOfBytes? (bytes : List UInt8) : Option String :=
  String.fromUTF8? ⟨bytes.toArray⟩

/-- The bytes of a text. -/
def bytesOfText (s : String) : List UInt8 :=
  s.toUTF8.toList

namespace Value

/-- A real as a number of a document, which must be finite. -/
def realDocument (x : Float) : Result Document :=
  if Number.isFiniteFloat x then .ok (.float x) else .error (.unconvertible (.notFinite x))

mutual

/-- A value as it is. -/
def natural : Value → Result Document
  | null => .ok .null
  | integer i => .ok (.integer i)
  | real x => realDocument x
  | text s => .ok (.text s)
  | blob bytes => .ok (.ofBytes bytes)
  | bool b => .ok (.bool b)
  | list items => return .array (← naturalAll items)

/-- Several values as they are, or the first failure. -/
def naturalAll : List Value → Result (List Document)
  | [] => return []
  | v :: vs => return (← natural v) :: (← naturalAll vs)

end

/-- A real as an integer: it must be integral, and in the 64-bit range. -/
def integralDocument (x : Float) : Result Document :=
  match Number.floatToInt? x with
  | none => .error (.unconvertible (.mismatch (real x) .integer))
  | some i =>
    match Number.int64? i with
    | some n => .ok (.integer n)
    | none => .error (.unconvertible (.integerRange x))

/-- A document that needed no turning. -/
def direct (d : Document) : Converted :=
  ⟨d, false⟩

/-- A value converted to a type. -/
def convert : ValueType → Value → Result Converted
  | _, null => .ok (direct .null)
  | .any, v => direct <$> v.natural
  | .integer, integer i => .ok (direct (.integer i))
  | .integer, real x => direct <$> integralDocument x
  | .integer, bool b => .ok (direct (.integer (if b then 1 else 0)))
  | .real, real x => direct <$> realDocument x
  | .real, integer i => direct <$> realDocument (Number.floatOfInt64 i)
  | .bool, bool b => .ok (direct (.bool b))
  | .bool, integer i => .ok (direct (.bool (i != 0)))
  | .text, text s => .ok (direct (.text s))
  | .text, blob bytes =>
    match textOfBytes? bytes with
    | some s => .ok ⟨.text s, true⟩
    | none => .error (.unconvertible .invalidText)
  | .bytes, blob bytes => .ok (direct (.ofBytes bytes))
  | .bytes, text s => .ok ⟨.ofBytes (bytesOfText s), true⟩
  | type, v => .error (.unconvertible (.mismatch v type))

end Value

end NestedQuery
