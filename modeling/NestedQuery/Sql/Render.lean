import NestedQuery.Sql.Dialect
import NestedQuery.Sql.Fragment

/-!
# Rendering

`Fragment.render` writes a fragment as text and lists its parameters in the order of their
placeholders. It goes in two steps. `Fragment.pieces` looks up the bound values and yields
`Piece`s: text, and holes that carry a value. `Rendered.ofPieces` numbers the holes. So what a
dialect decides, the spelling of placeholders, is apart from what the values decide, the number
of holes of each list.
-/

namespace NestedQuery

/-! ### Spacing -/

/-- Whether a chunk is kept apart from its neighbours like a word. -/
def Chunk.isWord : Chunk → Bool
  | .token t => !t.isPunctuation
  | _ => true

/-- Whether a raw chunk brings the space after it. -/
def Chunk.endsInSpace : Chunk → Bool
  | .raw text => text.toList.getLast? == some ' '
  | _ => false

/-- Whether a raw chunk brings the space before it. -/
def Chunk.startsInSpace : Chunk → Bool
  | .raw text => text.toList.head? == some ' '
  | _ => false

/-- Whether two neighbours belong to words or marks that stand apart: nothing stands before a
closing mark or after an opening one, a function hugs its arguments, and a minus stands apart
from what precedes it. -/
def Chunk.standApart : Chunk → Chunk → Bool
  | _, .token .closeParen | _, .token .comma | _, .token .dot => false
  | .token .openParen, _ | .token .dot, _ | .token .minus, _ => false
  | .token .comma, _ => true
  | _, .token .minus => true
  | .token .closeParen, next => next.isWord
  | .function _, .token .openParen => false
  | current, .token .openParen => current.isWord
  | current, next => current.isWord && next.isWord

/-- Whether a space is written between two neighbours. -/
def Chunk.needsSpace (current next : Chunk) : Bool :=
  !current.endsInSpace && !next.startsInSpace && current.standApart next

/-! ### Pieces -/

/-- What a chunk becomes once the values are known. -/
inductive Piece where
  /-- Text of the statement. -/
  | text (s : String)
  /-- A placeholder for a value. -/
  | hole (value : Value)

/-- A name between double quotes; a quote inside is written twice. -/
def quotedName (name : String) : String :=
  String.ofList ('\"' :: name.toList.flatMap (fun c => if c = '\"' then ['\"', '\"'] else [c])
    ++ ['\"'])

/-- What a membership test in an empty list is written as. -/
def falsePredicate : String := "1 = 0"

/-- Holes with commas between them. -/
def holes : List Value → List Piece
  | [] => []
  | [v] => [.hole v]
  | v :: vs => .hole v :: .text ", " :: holes vs

/-- The space after `c`, if the next chunk needs one. -/
def gap (c : Chunk) : Fragment → List Piece
  | [] => []
  | next :: _ => if c.needsSpace next then [.text " "] else []

/-- The value bound to a parameter. -/
def boundValue (bound : List Value) (id : ParamId) : Result Value :=
  match bound[id]? with
  | some v => .ok v
  | none => .error (.unbindable (.unbound id))

/-- The hole of a single parameter, which must not be a list. -/
def paramHole (id : ParamId) : Value → Result Piece
  | .list _ => .error (.unbindable (.listPlaceholder id))
  | v => .ok (.hole v)

/-- The items of a list parameter. -/
def listItems (id : ParamId) : Value → Result (List Value)
  | .list items => .ok items
  | _ => .error (.unbindable (.notAList id))

mutual

/-- The pieces of a chunk. -/
def Chunk.pieces (bound : List Value) : Chunk → Result (List Piece)
  | .token t => .ok [.text t.text]
  | .ident name => .ok [.text (quotedName name)]
  | .raw text => .ok [.text text]
  | .function name => .ok [.text name]
  | .number n => .ok [.text (toString n)]
  | .param id => return [← paramHole id (← boundValue bound id)]
  | .inList subject id => do
    let items ← listItems id (← boundValue bound id)
    if items.isEmpty then return [.text falsePredicate]
    else
      let before ← piecesOf bound subject
      return before ++ .text " IN (" :: holes items ++ [.text ")"]

/-- The pieces of several chunks, with the spaces between them. -/
def piecesOf (bound : List Value) : List Chunk → Result (List Piece)
  | [] => .ok []
  | c :: rest => return (← c.pieces bound) ++ gap c rest ++ (← piecesOf bound rest)

end

/-- The pieces of a fragment. -/
def Fragment.pieces (f : Fragment) (bound : List Value) : Result (List Piece) :=
  piecesOf bound f

/-! ### Text -/

/-- The text of a statement and its parameters in order. -/
structure Rendered where
  /-- The text. -/
  text : String
  /-- The parameters. -/
  params : List Value

/-- The text of pieces, where `count` holes stand before them. -/
def spell (dialect : Dialect) (count : Nat) : List Piece → String
  | [] => ""
  | .text s :: rest => s ++ spell dialect count rest
  | .hole _ :: rest => dialect.placeholder (count + 1) ++ spell dialect (count + 1) rest

/-- The values of the holes. -/
def holeValues (pieces : List Piece) : List Value :=
  pieces.filterMap fun
    | .hole v => some v
    | .text _ => none

/-- The statement that pieces spell. -/
def Rendered.ofPieces (dialect : Dialect) (pieces : List Piece) : Rendered :=
  ⟨spell dialect 0 pieces, holeValues pieces⟩

/-- The text of a fragment with the given values, and its parameters. -/
def Fragment.render (f : Fragment) (dialect : Dialect) (bound : List Value) : Result Rendered := do
  return .ofPieces dialect (← f.pieces bound)

end NestedQuery
