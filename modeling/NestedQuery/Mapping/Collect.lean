import NestedQuery.Mapping.Compiled
import NestedQuery.Resolution

/-!
# What compiling collects

A mapping is compiled in steps that may fail and that collect parameters and bindings on the way
(`Compile`). A failure carries one breadcrumb for each enclosing expression (`Compile.within`).
Parameters that were registered before a failure stay in the pool, so the pool is state that
outlives errors. A `Scope` says where in the mapping an expression stands.
-/

namespace NestedQuery

/-- What has been collected so far. -/
structure Collected where
  /-- The parameters. -/
  pool : Pool := {}
  /-- What the parameters of `select`s stand for. -/
  bindings : List Binding := []
  deriving Inhabited

/-- Compilations: they collect parameters and bindings and may fail. -/
abbrev Compile := ExceptT Error (StateM Collected)

/-- Where an expression is compiled. -/
structure Scope where
  /-- The parameters of the enclosing `select`s, innermost first. -/
  locals : List (String × BindingId)
  /-- The table whose rows the enclosing mapping produces; aggregates fold into it. -/
  table : TableId
  /-- Whether the expression lies beneath an aggregate. -/
  beneath : Bool

/-- The scope of a whole mapping. -/
def Scope.outermost : Scope :=
  ⟨[], 0, false⟩

namespace Compile

variable {α : Type}

/-- The failure of `e` to have a form in SQL. -/
def refuse (e : Expr) (reason : Unsupported) : Compile α :=
  throw (.unsupported e.text reason)

/-- The same compilation, its failures inside `e`. -/
def within (e : Expr) (action : Compile α) : Compile α :=
  tryCatch action fun error => throw (error.wrap e.text)

/-- The outcome of a step that collects nothing. -/
def ofResult : Result α → Compile α
  | .ok a => pure a
  | .error e => throw e

/-- Adds a parameter. -/
def register (source : ParamSource) : Compile ParamId := do
  let c ← get
  set { c with pool := c.pool.push source }
  return c.pool.size

/-- Marks a parameter as a list. -/
def markExpanded (id : ParamId) : Compile Unit :=
  modify fun c => { c with pool := c.pool.expand id }

/-- Adds a binding. -/
def bind (root : Root) (path : List String) : Compile BindingId := do
  let c ← get
  set { c with bindings := c.bindings ++ [(⟨root, path⟩ : Binding)] }
  return c.bindings.length

/-- What a path stands for. -/
def lookup (s : Statement) (root : Root) (path : List String) : Compile (Option Lookup) := do
  return s.lookup? (← ofResult (qualify (← get).bindings root path))

/-- The type of the column that a path names. -/
def typeAt (s : Statement) (root : Root) (path : List String) : Compile ValueType := do
  match ← lookup s root path with
  | some (.column _ _ field) => return field.type
  | some (.rowId ..) => return .integer
  | _ => return .any

end Compile

end NestedQuery
