import NestedQuery.Mapping.Collect

/-!
# Member chains

A chain of members that starts at the row or at the parameter of a `select` compiles to one leaf,
and `Compiled.chain?` reads it back, so that a further member makes it longer. A chain that leads
to a whole table or to the whole shape is no value: where a value may have members it is expanded
into its fields (`expand`, `expandWhole`).
-/

namespace NestedQuery

open Compile

/-! ### Chains -/

/-- Where a plain member chain leads: no aggregate, no function. -/
def plainChain? : Accumulator Symbol → Option (Root × List String)
  | .leaf (.column root path none none) => some (root, path)
  | _ => none

/-- A leaf for a member chain. -/
def chainLeaf (root : Root) (path : List String) : Accumulator Symbol :=
  .leaf (.column root path none none)

/-- The value that is a member chain. -/
def compileChain (s : Statement) (root : Root) (path : List String)
    (tables : List MappedTable := []) : Compile Compiled := do
  return .ofValue (chainLeaf root path) (← typeAt s root path) tables

/-- The plain member chain that a result is, if it is nothing else. -/
def Compiled.chain? (c : Compiled) : Option (Root × List String) :=
  c.value?.bind fun o => plainChain? o.value

/-- The row number of the table whose rows the mapping produces. -/
def compileRowNumber (s : Statement) (scope : Scope) : Compiled :=
  let path := s.path scope.table
  let steps := if path.isEmpty then [rowIdColumn] else [path, rowIdColumn]
  .ofValue (chainLeaf .row steps) .integer

/-- The member `name` of a compiled `base`: one more step of a plain chain, or what the
construction has at that name. `e` is the whole expression. -/
def compileMember (s : Statement) (e base : Expr) (name : String) (c : Compiled) :
    Compile Compiled := do
  match c.chain? with
  | some (root, path) => compileChain s root (path ++ [name]) c.tables
  | none =>
    let m := c.member (.field name)
    if m.outputs.isEmpty then refuse e (.missingMember base.text name) else return m

/-! ### Whole tables and shapes -/

/-- A reference to more than a column. -/
inductive Whole where
  /-- The whole shape. -/
  | shape
  /-- A whole table. -/
  | table (id : TableId) (table : Table)

/-- The whole table or shape that a result is, with the chain that leads there. -/
def whole? (s : Statement) (c : Compiled) : Compile (Option (Whole × Root × List String)) := do
  match c.chain? with
  | none => return none
  | some (root, path) =>
    match ← lookup s root path with
    | some .shape => return some (.shape, root, path)
    | some (.table id table) => return some (.table id table, root, path)
    | _ => return none

/-! ### Expansion -/

/-- The object with the given members, each compiled by `value`. -/
def objectOf (value : String → Compile Compiled) : List String → Compile Compiled
  | [] => return {}
  | name :: names => do
    let c ← value name
    return c.under (.field name) ++ (← objectOf value names)

/-- The value at the end of a chain, with a whole table or shape expanded into its members, and
`inner` applied to these. A collection outside its own scope is entered by a new binding. -/
def expandWith (inner : Scope → Root → List String → Compile Compiled) (s : Statement)
    (scope : Scope) (root : Root) (path : List String) : Compile Compiled := do
  match ← lookup s root path with
  | some .shape => objectOf (fun name => inner scope root (path ++ [name])) s.members
  | some (.table id table) =>
    let names := table.fields.map Field.name
    if id = scope.table then
      objectOf (fun name => inner scope root (path ++ [name])) names
    else
      match s.cardinality id with
      | .one =>
        let c ← objectOf (fun name => inner scope root (path ++ [name])) names
        return { c with tables := c.tables ++ [⟨id, [], scope.beneath, true⟩] }
      | .many =>
        let b ← bind root path
        let body ← objectOf (fun name => inner { scope with table := id } (.binding b) [name]) names
        return { body with tables := ⟨id, [], scope.beneath, false⟩ :: body.tables }
  | _ => compileChain s root path

/-- The value at the end of a chain, expanded. The members of a whole shape may be whole tables,
and so may fields of its row that are named like a joined table; the fields of these are columns,
so two rounds are all there is. -/
def expand (s : Statement) : Scope → Root → List String → Compile Compiled :=
  expandWith (expandWith (fun _ root path => compileChain s root path) s) s

/-- A result in a place where a value may have members: a whole table or shape is expanded. -/
def expandWhole (s : Statement) (scope : Scope) (c : Compiled) : Compile Compiled := do
  match ← whole? s c with
  | none => return c
  | some (_, root, path) =>
    let expanded ← expand s scope root path
    return { expanded with tables := expanded.tables ++ c.tables }

end NestedQuery
