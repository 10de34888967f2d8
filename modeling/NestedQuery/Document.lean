import NestedQuery.Number.Integer

/-!
# Documents

A `Document` is a tree of JSON data: the arguments of an execution and each materialized result.
Objects keep their members in the order in which their names first came; `putMember` replaces
the value of a name that is already there.
-/

namespace NestedQuery

/-- A JSON document. -/
inductive Document where
  /-- The null document. -/
  | null
  /-- A truth value. -/
  | bool (b : Bool)
  /-- A signed integer. -/
  | integer (i : Int64)
  /-- An integer above the signed range. -/
  | unsigned (n : UInt64)
  /-- A number with a fraction or an exponent. -/
  | float (x : Float)
  /-- A string. -/
  | text (s : String)
  /-- A list of documents. -/
  | array (items : List Document)
  /-- Named members, in order. -/
  | object (members : List (String × Document))

instance : Inhabited Document := ⟨.null⟩

namespace Document

/-- The members with `name` set to `value`: in its old place if the name is there, else at the
end. -/
def putMember (name : String) (value : Document) :
    List (String × Document) → List (String × Document)
  | [] => [(name, value)]
  | (n, v) :: rest => if n = name then (n, value) :: rest else (n, v) :: putMember name value rest

/-- The object with the given members. A repeated name keeps its first place and its last
value. -/
def ofMembers (members : List (String × Document)) : Document :=
  .object (members.foldl (fun acc (name, value) => putMember name value acc) [])

/-- The member of an object with a name. -/
def member? : Document → String → Option Document
  | .object members, name => members.lookup name
  | _, _ => none

end Document

end NestedQuery
