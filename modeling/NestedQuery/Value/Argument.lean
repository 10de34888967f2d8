import NestedQuery.Document
import NestedQuery.Error

/-!
# Arguments as values

`Value.ofDocument` turns a member of the arguments into a value that can be bound. Numbers keep
their kind, except that an integer above the signed range becomes the nearest real; objects have
no value.
-/

namespace NestedQuery.Value

mutual

/-- The value of a document. -/
def ofDocument : Document → Result Value
  | .null => .ok .null
  | .bool b => .ok (.bool b)
  | .integer i => .ok (.integer i)
  | .unsigned n => .ok (.real (Number.floatOfInt n.toNat))
  | .float x => .ok (.real x)
  | .text s => .ok (.text s)
  | .array items => return .list (← ofDocuments items)
  | .object _ => .error (.unbindable .objectArgument)

/-- The values of several documents, or the first failure. -/
def ofDocuments : List Document → Result (List Value)
  | [] => return []
  | d :: ds => return (← ofDocument d) :: (← ofDocuments ds)

end

end NestedQuery.Value
