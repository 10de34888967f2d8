import NestedQuery.Text.LetterCase

/-!
# Snake case

`snakeCase` turns `FirstName` into `first_name`. The text is cut at every character that is
neither letter nor number; each piece is cut into words where its letter case changes (`words`);
the words are put into small letters and joined by underscores. A word ends after a small letter
that a capital follows, and before the last of several capitals that a small letter follows:
`XMLHttpRequest` has the words `XML`, `Http` and `Request`.
-/

namespace NestedQuery.Text

/-- What the part of a word read so far ends with. -/
inductive WordEnd where
  /-- Nothing that decides a cut: the word is new, or has no cased letters yet. -/
  | fresh
  /-- Its last cased letter is small. -/
  | small
  /-- Its last cased letter is a capital. -/
  | capital
  deriving Repr, DecidableEq

/-- The state after reading `c`, if no word ends at it. -/
def WordEnd.after (state : WordEnd) (c : Char) : WordEnd :=
  if isLowercase c then .small else if isUppercase c then .capital else state

/-- The words of a piece. `word` holds the characters of the current word, latest first. -/
def wordsFrom (word : List Char) (state : WordEnd) : List Char → List (List Char)
  | [] => if word.isEmpty then [] else [word.reverse]
  | [c] => [(c :: word).reverse]
  | c :: next :: rest =>
    if state.after c = .small ∧ isUppercase next then
      (c :: word).reverse :: wordsFrom [] .fresh (next :: rest)
    else if state = .capital ∧ isUppercase c ∧ isLowercase next then
      word.reverse :: wordsFrom [c] .fresh (next :: rest)
    else
      wordsFrom (c :: word) (state.after c) (next :: rest)

/-- The pieces between the characters that are neither letter nor number. -/
def alphanumericPieces (cs : List Char) : List (List Char) :=
  (cs.splitBy fun a b => isAlphanumeric a && isAlphanumeric b).filter fun piece =>
    piece.any isAlphanumeric

/-- The words of a text. -/
def words (s : String) : List (List Char) :=
  (alphanumericPieces s.toList).flatMap (wordsFrom [] .fresh)

/-- The small form of a word. A sigma that ends the word is final. -/
def lowerWord : List Char → List Char
  | [] => []
  | ['Σ'] => ['ς']
  | c :: rest => lowerChar c ++ lowerWord rest

/-- The words in small letters, joined by underscores. -/
def snakeCase (s : String) : String :=
  String.intercalate "_" ((words s).map fun w => String.ofList (lowerWord w))

end NestedQuery.Text
