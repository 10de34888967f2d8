import NestedQuery.Expr.Operator
import NestedQuery.Value.Basic

/-!
# Errors

An `Error` is a cause: a construct without a form in SQL, a row that contradicts a declared
cardinality, a cell that does not fit its type, and so on. `Error.message` words each cause.
`Error.within` records the expression around a failure; the records are read back by
`Error.breadcrumbs`, outermost first, and `Error.rootCause` is what they surround. A broken
invariant is never wrapped, so it can always be told from the other causes.
-/

namespace NestedQuery

/-- Why a construct has no form in SQL. -/
inductive Unsupported where
  /-- An object stands where a parameter is built. -/
  | objectParameter
  /-- A method stands where a parameter is built. -/
  | methodParameter
  /-- A member is read from something other than the arguments. -/
  | notAnArgument
  /-- A list separator stands outside a membership test. -/
  | strayComma
  /-- The whole shape stands where one value is needed. -/
  | shapeAsValue
  /-- A whole table stands where one value is needed. -/
  | tableAsValue
  /-- A constructed result stands where one value is needed. -/
  | structureAsValue
  /-- An aggregate stands in a condition or an ordering. -/
  | aggregateInCondition
  /-- A constructed object lacks the member. -/
  | missingMember (object member : String)
  /-- The method is unknown. -/
  | unknownMethod (name : String)
  /-- An aggregate is taken over something other than one value for each element. -/
  | aggregateSource
  /-- An aggregate other than a count is taken over a whole table. -/
  | aggregateOfTable (function : Aggregate) (table : String)
  /-- An aggregate is taken over the whole shape. -/
  | aggregateOfShape
  /-- A selection ranges over something other than a table or a member. -/
  | selectSource
  /-- A selection ranges over the whole shape. -/
  | selectOverShape
  /-- The only element is asked of something that is no collection of rows. -/
  | oneSource
  /-- A path names a table where a column is needed. -/
  | tableNotColumn (table : String)
  /-- A path names nothing. -/
  | unknownPath
  /-- A join condition reads a table that is joined later. -/
  | readsLaterJoin (path : String)
  /-- The engine cannot number rows inside a group. -/
  | needsWindows
  /-- A table is read both row by row and inside an aggregate. -/
  | mixedAggregation (table : String)
  /-- Any other reason, in words. -/
  | other (reason : String)
  deriving Repr, DecidableEq

/-- The reason in words. -/
def Unsupported.message : Unsupported → String
  | objectParameter => "objects cannot be used as SQL parameters"
  | methodParameter => "method cannot be evaluated without row data"
  | notAnArgument => "only members of the arguments object can be read"
  | strayComma => "list separators only appear inside membership tests"
  | shapeAsValue => "the query shape cannot be used as a value"
  | tableAsValue => "a whole table cannot be used as a scalar; pick one of its fields"
  | structureAsValue => "an object or collection cannot be used as a scalar"
  | aggregateInCondition =>
    "aggregates cannot be used in join conditions, filters or orderings"
  | missingMember object member => "`" ++ object ++ "` has no member `" ++ member ++ "`"
  | unknownMethod name => "method `" ++ name ++ "` has no SQL translation"
  | aggregateSource => "aggregates need a source producing a single value per element"
  | aggregateOfTable function table =>
    "`" ++ function.method ++ "` needs a field of `" ++ table
      ++ "`; only count() applies to a whole table"
  | aggregateOfShape => "the query shape cannot be aggregated"
  | selectSource => "select() applies to a table or a plain member chain"
  | selectOverShape => "select() over the whole query shape; select one of its tables"
  | oneSource => "one() applies to a collection of table rows"
  | tableNotColumn table => "`" ++ table ++ "` is a table, not a column"
  | unknownPath => "no such member"
  | readsLaterJoin path => "the join condition reads `" ++ path ++ "`, which is joined later"
  | needsWindows => "aggregating this table next to another collection needs window functions"
  | mixedAggregation table =>
    "`" ++ table ++ "` is used both inside an aggregate and row by row in the same mapping"
  | other reason => reason

/-- Which invariant is broken. -/
inductive Invariant where
  /-- Row data is needed where there is none. -/
  | needsRow (expr : String)
  /-- A binding is used that was never made. -/
  | unknownBinding (id : Nat)
  /-- Bindings refer to each other in a circle. -/
  | bindingCycle
  /-- A parameter is used outside its `select`. -/
  | unboundVariable (name : String)
  /-- A join that is needed has no condition. -/
  | joinWithoutCondition (path : String)
  /-- Any other invariant, in words. -/
  | other (message : String)
  deriving Repr, DecidableEq

/-- The broken invariant in words. -/
def Invariant.message : Invariant → String
  | needsRow expr => "`" ++ expr ++ "` depends on row data and cannot be evaluated"
  | unknownBinding id => s!"binding #{id} was never registered"
  | bindingCycle => "lambda parameter bindings form a cycle"
  | unboundVariable name => "lambda parameter `" ++ name ++ "` is not in scope"
  | joinWithoutCondition path => "join `" ++ path ++ "` has no condition"
  | other message => message

/-- How rows contradict a declared cardinality. -/
inductive Crowding where
  /-- A second row came for a slot that holds one. -/
  | secondRow (rowId : Int64)
  /-- A value was read from more than one row. -/
  | ambiguousValue
  /-- Any other contradiction, in words. -/
  | other (detail : String)
  deriving DecidableEq

/-- The contradiction in words. -/
def Crowding.message : Crowding → String
  | secondRow rowId =>
    s!"a second distinct row (row id {rowId.toInt}) arrived for a single-valued slot"
  | ambiguousValue => "more than one row was read for a value that holds one"
  | other detail => detail

/-- Why a cell or a result cannot be converted. -/
inductive Unconvertible where
  /-- A value does not fit its declared type. -/
  | mismatch (value : Value) (type : ValueType)
  /-- A number is infinite or not a number. -/
  | notFinite (x : Float)
  /-- A real is an integer outside the 64-bit range. -/
  | integerRange (x : Float)
  /-- Bytes are no text. -/
  | invalidText
  /-- A result lacks a column of the plan. -/
  | missingColumn (name : String)
  /-- A row is shorter than its header. -/
  | missingCell (name : String)
  /-- A row of the primary table has no row id. -/
  | nullRoot (name : String)
  /-- A document is not what was asked for. -/
  | unexpected (found wanted : String)
  /-- An integer is outside the range that was asked for. -/
  | outOfRange (n : UInt64) (wanted : String)
  /-- Any other reason, in words. -/
  | other (reason : String)

/-- The reason in words. -/
def Unconvertible.message : Unconvertible → String
  | mismatch value type => "cannot convert " ++ value.display ++ " to " ++ type.name
  | notFinite x => Number.positionalText x ++ " has no JSON representation"
  | integerRange x => Number.positionalText x ++ " is outside the range of a 64-bit integer"
  | invalidText => "blob is not valid UTF-8 text"
  | missingColumn name => "column `" ++ name ++ "` is missing from the result"
  | missingCell name => "row is missing column `" ++ name ++ "`"
  | nullRoot name => "row id `" ++ name ++ "` of the primary table is null"
  | unexpected found wanted => "invalid type: " ++ found ++ ", expected " ++ wanted
  | outOfRange n wanted => s!"invalid value: integer `{n.toNat}`, expected " ++ wanted
  | other reason => reason

/-- How a parameter is shown: `@p` and its place in the pool. -/
def parameterName (id : Nat) : String :=
  s!"@p{id}"

/-- Why a parameter cannot be evaluated or bound. -/
inductive Unbindable where
  /-- An argument is an object. -/
  | objectArgument
  /-- An argument was not supplied. -/
  | missingArgument (expr : String)
  /-- An operator does not apply to its operands. -/
  | operandTypes (expr : String)
  /-- A list is bound to a single placeholder. -/
  | strayList (id : Nat)
  /-- The set of a membership test is not a list. -/
  | expectedList (id : Nat) (value : Value)
  /-- The statement names a parameter without a value. -/
  | unbound (id : Nat)
  /-- The statement has a single placeholder for a list. -/
  | listPlaceholder (id : Nat)
  /-- The statement tests membership in something that is not a list. -/
  | notAList (id : Nat)
  /-- Any other reason, in words. -/
  | other (reason : String)

/-- The reason in words. -/
def Unbindable.message : Unbindable → String
  | objectArgument => "objects cannot be bound as SQL parameters"
  | missingArgument expr => "argument `" ++ expr ++ "` was not supplied"
  | operandTypes expr => "`" ++ expr ++ "` cannot be evaluated for these operand types"
  | strayList id =>
    "parameter " ++ parameterName id
      ++ " is a list but is not the right side of a membership test"
  | expectedList id value =>
    "parameter " ++ parameterName id
      ++ " is the right side of a membership test and must be a list, got " ++ value.display
  | unbound id => "parameter " ++ parameterName id ++ " was not bound"
  | listPlaceholder id => "list parameter " ++ parameterName id ++ " used outside a membership test"
  | notAList id => "membership parameter " ++ parameterName id ++ " is not a list"
  | other reason => reason

/-- Everything that can go wrong. -/
inductive Error where
  /-- A construct of the mapping has no form in SQL. `subject` is its text. -/
  | unsupported (subject : String) (reason : Unsupported)
  /-- A failure inside the expression with the text `expr`. -/
  | within (expr : String) (inner : Error)
  /-- Something that cannot happen did. -/
  | invariant (broken : Invariant)
  /-- A place for one row received more than one. -/
  | crowded (table path : String) (detail : Crowding)
  /-- An item of a membership test reads row data. -/
  | rowInMembership (expr : String)
  /-- A cell or a result could not be converted. -/
  | unconvertible (reason : Unconvertible)
  /-- A parameter could not be evaluated or bound. -/
  | unbindable (reason : Unbindable)
  /-- The database reported a failure. -/
  | driver (message : String)

instance : Inhabited Error := ⟨.driver ""⟩

/-- Results that may fail. -/
abbrev Result := Except Error

namespace Error

/-- The message of an error. -/
def message : Error → String
  | unsupported subject reason =>
    "Unsupported mapping `" ++ subject ++ "`: " ++ reason.message
  | within expr _ => "Error compiling `" ++ expr ++ "`"
  | invariant broken => "Invariant violation: " ++ broken.message
  | crowded table path detail =>
    "Cardinality violation on `" ++ table ++ "` at `" ++ path ++ "`: " ++ detail.message
  | rowInMembership expr =>
    "Membership operand `" ++ expr
      ++ "` must be built from constants or arguments, not from query columns"
  | unconvertible reason => "Conversion error: " ++ reason.message
  | unbindable reason => "Parameter error: " ++ reason.message
  | driver message => "Driver error: " ++ message

/-- The failure inside the expression with the text `expr`. A broken invariant stays as it is. -/
def wrap (expr : String) : Error → Error
  | invariant broken => .invariant broken
  | e => .within expr e

/-- The texts of the expressions around the root cause, outermost first. -/
def breadcrumbs : Error → List String
  | within expr inner => expr :: inner.breadcrumbs
  | _ => []

/-- The failure beneath all surrounding expressions. -/
def rootCause : Error → Error
  | within _ inner => inner.rootCause
  | e => e

/-- The messages of an error and of what lies beneath it, step by step. A report of the database
has its own words beneath it. -/
def chain : Error → List String
  | within expr inner => (within expr inner).message :: inner.chain
  | driver message => [(driver message).message, message]
  | e => [e.message]

theorem rootCause_wrap (expr : String) (e : Error) : (e.wrap expr).rootCause = e.rootCause := by
  cases e <;> rfl

end Error

end NestedQuery
