import NestedQuery.Document
import NestedQuery.Target

/-!
# Shapes

The document of an element is built from its values and their targets: `Shape.insert` puts a
document at the end of a target, and `Shape.toDocument` reads the whole off. A shape whose
members are all positions is an array, in the order of the positions; any other is an object,
with its members in the order in which they came.
-/

namespace NestedQuery

/-- A document under construction. -/
inductive Shape where
  /-- Nothing yet. -/
  | empty
  /-- A finished document. -/
  | value (d : Document)
  /-- Members below steps, in the order in which they came. -/
  | members (ms : List (Segment × Shape))

instance : Inhabited Shape := ⟨.empty⟩

namespace Shape

/-- The members of a shape; a finished document gives way to its members. -/
def membersOf : Shape → List (Segment × Shape)
  | members ms => ms
  | _ => []

/-- The members with the one below `s` changed; a new member starts empty, at the end. -/
def changeMember (s : Segment) (f : Shape → Shape) :
    List (Segment × Shape) → List (Segment × Shape)
  | [] => [(s, f empty)]
  | (t, shape) :: rest =>
    if t = s then (t, f shape) :: rest else (t, shape) :: changeMember s f rest

/-- The shape with a document at the end of a target. -/
def insert (d : Document) : Target → Shape → Shape
  | [], _ => .value d
  | s :: rest, shape => .members (changeMember s (insert d rest) shape.membersOf)

/-- The document of members that are read off: an array if all are positions, else an object. -/
def assembleMembers (ms : List (Segment × Document)) : Document :=
  if ms.all fun (s, _) => s.isArg then
    .array ((ms.mergeSort fun m n => Segment.compare m.1 n.1 != .gt).map Prod.snd)
  else .ofMembers (ms.map fun (s, d) => (s.text, d))

mutual

/-- The document of a shape. An empty shape is an object without members. -/
def toDocument : Shape → Document
  | empty => .object []
  | value d => d
  | members ms => assembleMembers (memberDocuments ms)

/-- The documents of members. -/
def memberDocuments : List (Segment × Shape) → List (Segment × Document)
  | [] => []
  | (s, shape) :: rest => (s, shape.toDocument) :: memberDocuments rest

end

end Shape

end NestedQuery
