/-!
# Log messages

The messages of compiling and executing a query. Each has a level and a code that stays the same
whatever its text says. `LogEntry.heard` keeps the entries that a listener asks for.
-/

namespace NestedQuery

/-- How important a message is. -/
inductive LogLevel where
  /-- Of interest when searching for a mistake. -/
  | debug
  /-- The ordinary course of a query. -/
  | info
  /-- Something that could be done better. -/
  | warning
  deriving Repr, DecidableEq

namespace LogLevel

/-- The rank of a level; more important levels rank higher. -/
def rank : LogLevel → Nat
  | debug => 0
  | info => 1
  | warning => 2

/-- The level's name. -/
def name : LogLevel → String
  | debug => "debug"
  | info => "info"
  | warning => "warning"

end LogLevel

/-- The kinds of messages. -/
inductive LogCode where
  /-- A mapping was compiled. -/
  | compiled
  /-- A statement is about to be executed. -/
  | executing
  /-- The database has answered. -/
  | executed
  /-- All rows have been read. -/
  | materialized
  /-- An element was made. -/
  | allocated
  /-- A cell was converted between texts and bytes. -/
  | inefficient
  deriving Repr, DecidableEq

/-- The number of a kind of message. -/
def LogCode.number : LogCode → Nat
  | compiled => 1000
  | executing => 1001
  | executed => 1002
  | materialized => 1003
  | allocated => 1004
  | inefficient => 2000

/-- A message. -/
structure LogEntry where
  /-- How important it is. -/
  level : LogLevel
  /-- What kind it is. -/
  code : LogCode
  /-- What it says. -/
  text : String
  deriving Repr, DecidableEq

/-- Whether a listener hears an entry who asks for `least` and all more important levels, or for
none at all. -/
def LogEntry.heard (least : Option LogLevel) (e : LogEntry) : Bool :=
  match least with
  | some l => l.rank ≤ e.level.rank
  | none => false

end NestedQuery
