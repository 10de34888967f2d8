import NestedQuery.Text.CaseTable
import NestedQuery.Text.LetterTable

/-!
# Letter case of a text

`upper` and `lower` give the full Unicode case mappings: one letter may become several (`ß` is
`SS` in capitals). A capital sigma at the end of a word becomes the final form `ς`, everywhere
else `σ`; `isFinalSigma` states the condition.
-/

namespace NestedQuery.Text

/-- The image of `c` under the first shift that holds it. -/
def shiftCase (shifts : List CaseShift) (c : Char) : Char :=
  match shifts.find? fun s => c.toNat ≤ s.last with
  | some s => if s.contains c.toNat then Char.ofNat (c.toNat + s.distance).toNat else c
  | none => c

/-- The characters that `c` becomes: an expansion if it has one, else one shifted character. -/
def mapCase (expansions : List (Nat × List Nat)) (shifts : List CaseShift) (c : Char) :
    List Char :=
  match expansions.lookup c.toNat with
  | some codes => codes.map Char.ofNat
  | none => [shiftCase shifts c]

/-- The capital form of one character. -/
def upperChar (c : Char) : List Char :=
  mapCase upperExpansions upperShifts c

/-- The small form of one character, wherever it stands. -/
def lowerChar (c : Char) : List Char :=
  mapCase lowerExpansions lowerShifts c

/-- The capital form of a text. -/
def upper (s : String) : String :=
  String.ofList (s.toList.flatMap upperChar)

/-! ### Final sigma -/

/-- Whether a cased character comes first once the case-ignorable ones are dropped. -/
def startsCased (cs : List Char) : Bool :=
  match cs.dropWhile isCaseIgnorable with
  | c :: _ => isCased c
  | [] => false

/-- A sigma is final if a cased character comes before it and none after it. `before` lists the
preceding characters, nearest first. -/
def isFinalSigma (before after : List Char) : Bool :=
  startsCased before && !startsCased after

/-- The small forms of `after`, where `before` are the characters already read, nearest first. -/
def lowerFrom (before : List Char) : (after : List Char) → List Char
  | [] => []
  | c :: rest =>
    let image :=
      if c = 'Σ' then [if isFinalSigma before rest then 'ς' else 'σ'] else lowerChar c
    image ++ lowerFrom (c :: before) rest

/-- The small form of a text. -/
def lower (s : String) : String :=
  String.ofList (lowerFrom [] s.toList)

end NestedQuery.Text
