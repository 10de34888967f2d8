import NestedQuery.Number.Integer
import NestedQuery.Number.Shortest
import NestedQuery.Text.Quoted

/-!
# Values

A `Value` is one SQL value: a bound parameter or a cell of a result row. A `ValueType` is the
declared type of a column or of an output of a mapping. `Value.text` is how a value appears in
messages, `Value.rowId?` reads a row number, and `ValueType.widen` gives the type of an
arithmetic operation.
-/

namespace NestedQuery

/-- A single SQL value. -/
inductive Value where
  /-- The absent value. -/
  | null
  /-- A 64-bit integer. -/
  | integer (i : Int64)
  /-- A floating point number. -/
  | real (x : Float)
  /-- A text. -/
  | text (s : String)
  /-- A sequence of bytes. -/
  | blob (bytes : List UInt8)
  /-- A truth value. -/
  | bool (b : Bool)
  /-- Several values; only a membership test can take them, one placeholder for each. -/
  | list (items : List Value)

instance : Inhabited Value := ⟨.null⟩

/-- The declared type of an output value. -/
inductive ValueType where
  /-- Whatever the cell holds, as it is. -/
  | any
  /-- A 64-bit integer. -/
  | integer
  /-- A floating point number. -/
  | real
  /-- A text. -/
  | text
  /-- A truth value. -/
  | bool
  /-- A sequence of bytes. -/
  | bytes
  deriving Repr, DecidableEq, Inhabited

namespace ValueType

/-- The name of a type in messages. -/
def name : ValueType → String
  | any => "Any"
  | integer => "Integer"
  | real => "Real"
  | text => "Text"
  | bool => "Bool"
  | bytes => "Bytes"

/-- Integers and reals. -/
def isNumeric : ValueType → Bool
  | integer | real => true
  | _ => false

/-- The type of an arithmetic operation on operands of the two types. A text joined to a text is
a text, an unknown type gives way to a known one, and any other mixture is unknown. -/
def widen : ValueType → ValueType → ValueType
  | integer, integer => integer
  | real, integer | real, real | integer, real => real
  | text, text => text
  | any, t | t, any => t
  | _, _ => any

end ValueType

namespace Value

/-- Whether the value is the absent one. -/
def isNull : Value → Bool
  | null => true
  | _ => false

/-- The natural type of a value. -/
def type : Value → ValueType
  | null | list _ => .any
  | integer _ => .integer
  | real _ => .real
  | text _ => .text
  | blob _ => .bytes
  | bool _ => .bool

/-- The row number that a cell holds: an integer, or a real that is one. Any other cell counts as
no row. -/
def rowId? : Value → Option Int64
  | integer i => some i
  | real x => Number.floatToInt? x >>= Number.int64?
  | _ => none

/-! ### Text -/

mutual

/-- How a value appears in messages. A blob shows its length only. -/
def display : Value → String
  | null => "null"
  | integer i => toString i.toInt
  | real x => Number.positionalText x
  | text s => Text.quoted s
  | blob bytes => s!"<{bytes.length} bytes>"
  | bool b => if b then "true" else "false"
  | list items => "[" ++ String.intercalate ", " (displays items) ++ "]"

/-- The texts of several values. -/
def displays : List Value → List String
  | [] => []
  | v :: vs => v.display :: displays vs

end

theorem displays_eq_map (vs : List Value) : displays vs = vs.map display := by
  induction vs with
  | nil => rfl
  | cons v vs ih => simp [displays, ih]

/-! ### Equality -/

mutual

/-- Whether two values are the same. Reals are compared as numbers: zero equals negative zero,
and not a number differs from itself. -/
def same : Value → Value → Bool
  | null, null => true
  | integer i, integer j => i == j
  | real x, real y => x == y
  | text s, text t => s == t
  | blob b, blob c => b == c
  | bool b, bool c => b == c
  | list vs, list ws => sameAll vs ws
  | _, _ => false

/-- Whether two lists hold the same values at the same places. -/
def sameAll : List Value → List Value → Bool
  | [], [] => true
  | v :: vs, w :: ws => v.same w && sameAll vs ws
  | _, _ => false

end

end Value

end NestedQuery
