/-!
# Keywords and punctuation

The `Token`s of the statements that this library writes, with their text. `Token.ofText?` finds
the token of a text; `ofText?_text` says that it undoes `Token.text`.
-/

namespace NestedQuery

/-- A keyword or a punctuation mark of SQL. -/
inductive Token where
  | select | from_ | where_ | as_ | on_ | inner | left | join | group | order | by_ | asc | desc
  | case | when | then_ | else_ | end_ | not | in_ | distinct | over_
  | openParen | closeParen | comma | dot | star | minus
  deriving Repr, DecidableEq

namespace Token

/-- How a token is written. -/
def text : Token → String
  | select => "SELECT"
  | from_ => "FROM"
  | where_ => "WHERE"
  | as_ => "AS"
  | on_ => "ON"
  | inner => "INNER"
  | left => "LEFT"
  | join => "JOIN"
  | group => "GROUP"
  | order => "ORDER"
  | by_ => "BY"
  | asc => "ASC"
  | desc => "DESC"
  | case => "CASE"
  | when => "WHEN"
  | then_ => "THEN"
  | else_ => "ELSE"
  | end_ => "END"
  | not => "NOT"
  | in_ => "IN"
  | distinct => "DISTINCT"
  | over_ => "OVER"
  | openParen => "("
  | closeParen => ")"
  | comma => ","
  | dot => "."
  | star => "*"
  | minus => "-"

/-- All tokens. -/
def all : List Token :=
  [select, from_, where_, as_, on_, inner, left, join, group, order, by_, asc, desc, case, when,
    then_, else_, end_, not, in_, distinct, over_, openParen, closeParen, comma, dot, star, minus]

/-- The token with a text. -/
def ofText? (s : String) : Option Token :=
  all.find? fun t => t.text == s

theorem ofText?_text (t : Token) : ofText? t.text = some t := by
  cases t <;> rfl

/-- Marks that need no spaces of their own. -/
def isPunctuation : Token → Bool
  | openParen | closeParen | comma | dot | minus => true
  | _ => false

end Token

end NestedQuery
