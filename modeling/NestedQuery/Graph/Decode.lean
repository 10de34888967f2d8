import NestedQuery.Document
import NestedQuery.Error

/-!
# Documents as values of a type

A caller may ask for results of one type. `Document.decode` checks a document against it: an
integer may stand for a number with a fraction, nothing else may stand for something else. The
failure names what was found and what was wanted.
-/

namespace NestedQuery

/-- What a caller asks for. -/
inductive Wanted where
  /-- Any document. -/
  | any
  /-- A 64-bit integer. -/
  | integer
  /-- A number. -/
  | real
  /-- A text. -/
  | text
  /-- A truth value. -/
  | bool
  deriving Repr, DecidableEq

/-- How messages call what was asked for. -/
def Wanted.name : Wanted → String
  | any => "any value"
  | integer => "i64"
  | real => "f64"
  | text => "a string"
  | bool => "a boolean"

namespace Document

/-- How messages call a document. -/
def description : Document → String
  | null => "null"
  | bool b => "boolean `" ++ (if b then "true" else "false") ++ "`"
  | integer i => "integer `" ++ toString i.toInt ++ "`"
  | unsigned n => "integer `" ++ toString n.toNat ++ "`"
  | float x => "floating point `" ++ Number.scientificText x ++ "`"
  | text s => "string " ++ Text.quoted s
  | array _ => "sequence"
  | object _ => "map"

/-- A document as a value of the type that was asked for. -/
def decode : Wanted → Document → Result Document
  | .any, d => .ok d
  | .integer, integer i => .ok (.integer i)
  | .integer, unsigned n => .error (.unconvertible (.outOfRange n Wanted.integer.name))
  | .real, float x => .ok (.float x)
  | .real, integer i => .ok (.float (Number.floatOfInt64 i))
  | .real, unsigned n => .ok (.float (Number.floatOfInt n.toNat))
  | .text, text s => .ok (.text s)
  | .bool, bool b => .ok (.bool b)
  | wanted, d => .error (.unconvertible (.unexpected d.description wanted.name))

end Document

end NestedQuery
