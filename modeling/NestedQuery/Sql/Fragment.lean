import NestedQuery.Params
import NestedQuery.Sql.Token

/-!
# Fragments of SQL

A `Fragment` is a list of `Chunk`s: tokens, quoted names, raw text, numbers and parameters. A
membership test over a list parameter is one chunk that holds its subject, because the number of
its placeholders is known only when the list is. The functions here build fragments; parameters
stay places in the pool until the fragment is rendered.
-/

namespace NestedQuery

/-- One piece of a statement. -/
inductive Chunk where
  /-- A keyword or a mark. -/
  | token (t : Token)
  /-- A name, written between double quotes. -/
  | ident (name : String)
  /-- Text as it is. -/
  | raw (text : String)
  /-- The name of a function, directly before its arguments. -/
  | function (name : String)
  /-- A natural number. -/
  | number (n : Nat)
  /-- A parameter. -/
  | param (id : ParamId)
  /-- The test whether a subject is in a list parameter. -/
  | inList (subject : List Chunk) (param : ParamId)

instance : Inhabited Chunk := ⟨.raw ""⟩

/-- A part of a statement. -/
abbrev Fragment := List Chunk

namespace Fragment

/-- A single token. -/
def token (t : Token) : Fragment :=
  [.token t]

/-- A single quoted name. -/
def ident (name : String) : Fragment :=
  [.ident name]

/-- A column of a table: two quoted names with a point between. -/
def qualified (table column : String) : Fragment :=
  [.ident table, .token .dot, .ident column]

/-- A single parameter. -/
def param (id : ParamId) : Fragment :=
  [.param id]

/-- Whether the fragment is a subquery. -/
def isSubquery (f : Fragment) : Bool :=
  match f with
  | .token .select :: _ => true
  | _ => false

/-- The fragment between parentheses. -/
def parens (f : Fragment) : Fragment :=
  [.token .openParen] ++ f ++ [.token .closeParen]

/-- A function applied to arguments. A subquery as an argument gets parentheses of its own. -/
def call (name : String) (arguments : Fragment) : Fragment :=
  .function name :: parens (if arguments.isSubquery then arguments.parens else arguments)

/-- The fragment under another name. -/
def named (f : Fragment) (name : String) : Fragment :=
  f ++ [.token .as_, .ident name]

/-- Fragments with a token between neighbours. -/
def joined (fs : List Fragment) (separator : Token) : Fragment :=
  List.intercalate [.token separator] fs

/-- Whether the text of the fragment may differ from one execution to the next. -/
def hasLists (f : Fragment) : Bool :=
  f.any fun
    | .inList .. => true
    | _ => false

end Fragment

end NestedQuery
