import NestedQuery.Text.PrintTable

/-!
# Quoted texts

`quoted` writes a text between double quotes so that every character of it can be seen: the
common controls, the backslash and the quote have two-character escapes, marks and characters
without a visible form are spelled by their code point in hexadecimal, and all others stand for
themselves. An apostrophe is not escaped.
-/

namespace NestedQuery.Text

/-- The lower-case hexadecimal digits of `n`, without leading zeros. -/
def hexDigits (n : Nat) : List Char :=
  Nat.toDigits 16 n

/-- The spelling of a character by its code point, such as `\u{1b}`. -/
def codePointEscape (c : Char) : List Char :=
  ['\\', 'u', '\x7b'] ++ hexDigits c.toNat ++ ['\x7d']

/-- How one character is written inside the quotes. -/
def quotedChar (c : Char) : List Char :=
  match c with
  | '\x00' => ['\\', '0']
  | '\t' => ['\\', 't']
  | '\r' => ['\\', 'r']
  | '\n' => ['\\', 'n']
  | '\\' => ['\\', '\\']
  | '\"' => ['\\', '\"']
  | c => if isJoiningMark c || isUnprintable c then codePointEscape c else [c]

/-- The text between double quotes, with escapes. -/
def quoted (s : String) : String :=
  String.ofList ('\"' :: s.toList.flatMap quotedChar ++ ['\"'])

end NestedQuery.Text
