import NestedQuery.Sql.Render

/-!
# Lexemes

The lexical rules of SQL: `lex` splits a text into quoted names, words, numbers, operators,
placeholders, marks and comments. It reads one character after the other and always takes the
longest lexeme, so a lexeme ends only where the next character cannot go on with it. What has been
read of an unfinished lexeme is `Pending`.

A text that is put together of parts is split part by part if each part ends where the next one
starts. `Spells cs ls p` says that the characters `cs` alone give the lexemes `ls`, the last of
them possibly still `p`; `Pending.Breaks p c` says that `c` cannot go on with `p`; and
`Spells.append` is the composition.
-/

namespace NestedQuery

/-! ### The lexical rules -/

/-- A lexeme of SQL. -/
inductive Lexeme where
  /-- A name that stood between double quotes, without them and with inner quotes single. -/
  | name (content : String)
  /-- A keyword or another bare word. -/
  | word (text : String)
  /-- A number. -/
  | number (text : String)
  /-- An operator. -/
  | operator (text : String)
  /-- The placeholder of a parameter. -/
  | placeholder (text : String)
  /-- A parenthesis, a comma, a point, or a character that starts nothing else. -/
  | mark (c : Char)
  /-- The opening of a comment. -/
  | comment
  /-- A name whose closing quote is missing. -/
  | unclosed (content : String)
  deriving Repr, DecidableEq

/-- Whether a lexeme leaves the text after it to other rules: a comment or an unclosed name. -/
def Lexeme.isOpen : Lexeme → Bool
  | comment | unclosed _ => true
  | _ => false

/-- The lexemes without a closing character of their own. -/
inductive LexemeKind where
  | word | number | operator | placeholder
  deriving Repr, DecidableEq

/-- Whether a character may stand in a word, after the first. -/
def isWordPart (c : Char) : Bool :=
  c.isAlphanum || c == '_' || c == '$' || 128 ≤ c.toNat

/-- Whether a character may stand in an operator. -/
def isOperatorPart (c : Char) : Bool :=
  "+-*/<>=~!@#%^&|".toList.contains c

namespace LexemeKind

/-- The kind of lexeme that a character starts. -/
def ofStart? (c : Char) : Option LexemeKind :=
  if c.isDigit then some number
  else if c == '?' || c == '$' then some placeholder
  else if isWordPart c then some word
  else if isOperatorPart c then some operator
  else none

/-- Whether a character goes on with a lexeme. -/
def goesOn : LexemeKind → Char → Bool
  | word, c | placeholder, c => isWordPart c
  | number, c => isWordPart c || c == '.'
  | operator, c => isOperatorPart c

/-- The lexeme with a text. -/
def lexeme : LexemeKind → String → Lexeme
  | word, text => .word text
  | number, text => .number text
  | operator, text => .operator text
  | placeholder, text => .placeholder text

end LexemeKind

/-- What has been read of a lexeme that is not finished. -/
inductive Pending where
  /-- Nothing. -/
  | nothing
  /-- A lexeme that ends before the first character that cannot go on with it. -/
  | run (kind : LexemeKind) (read : List Char)
  /-- A name after its opening quote. -/
  | quoted (read : List Char)
  /-- A name up to a quote, which closes it unless a second one follows. -/
  | closing (read : List Char)
  /-- A comment up to the end of the line. -/
  | lineComment
  /-- A comment up to its end mark; `star` says that the first half of the mark has been read. -/
  | blockComment (star : Bool)
  deriving Repr, DecidableEq

namespace Pending

/-- What is left at the end of the text. -/
def flush : Pending → List Lexeme
  | nothing | lineComment | blockComment _ => []
  | run kind read => [kind.lexeme (String.ofList read)]
  | quoted read => [.unclosed (String.ofList read)]
  | closing read => [.name (String.ofList read)]

/-- Reads a character at the start of a lexeme. -/
def start (c : Char) : List Lexeme × Pending :=
  if c.isWhitespace then ([], nothing)
  else if c = '\"' then ([], quoted [])
  else
    match LexemeKind.ofStart? c with
    | some kind => ([], run kind [c])
    | none => ([.mark c], nothing)

/-- The comment that two characters open. -/
def comment? : Option Char → Char → Option Pending
  | some '-', '-' => some lineComment
  | some '/', '*' => some (blockComment false)
  | _, _ => none

/-- The operator before the opening of a comment, if there is one. -/
def beforeComment (read : List Char) : List Lexeme :=
  if read.dropLast.isEmpty then [] else [.operator (String.ofList read.dropLast)]

/-- Reads one character: what it finishes, and what is pending then. -/
def step : Pending → Char → List Lexeme × Pending
  | nothing, c => start c
  | run .operator read, c =>
    match comment? read.getLast? c with
    | some comment => (beforeComment read ++ [.comment], comment)
    | none =>
      if isOperatorPart c then ([], run .operator (read ++ [c]))
      else ((run .operator read).flush ++ (start c).1, (start c).2)
  | run kind read, c =>
    if kind.goesOn c then ([], run kind (read ++ [c]))
    else ((run kind read).flush ++ (start c).1, (start c).2)
  | quoted read, c => if c = '\"' then ([], closing read) else ([], quoted (read ++ [c]))
  | closing read, c =>
    if c = '\"' then ([], quoted (read ++ [c]))
    else ((closing read).flush ++ (start c).1, (start c).2)
  | lineComment, c => ([], if c = '\n' then nothing else lineComment)
  | blockComment star, c => ([], if star && c = '/' then nothing else blockComment (c = '*'))

/-- Reads characters one after the other. -/
def scan : Pending → List Char → List Lexeme × Pending
  | p, [] => ([], p)
  | p, c :: cs => ((p.step c).1 ++ (scan (p.step c).2 cs).1, (scan (p.step c).2 cs).2)

end Pending

/-- The lexemes of a text. -/
def lex (text : String) : List Lexeme :=
  (Pending.nothing.scan text.toList).1 ++ (Pending.nothing.scan text.toList).2.flush

/-! ### Reading on -/

namespace Pending

theorem scan_append (p : Pending) (cs ds : List Char) :
    p.scan (cs ++ ds) =
      ((p.scan cs).1 ++ ((p.scan cs).2.scan ds).1, ((p.scan cs).2.scan ds).2) := by
  induction cs generalizing p with
  | nil => rfl
  | cons c cs ih =>
    rw [List.cons_append, scan, ih, scan]
    simp only [List.append_assoc]

/-- A character ends what is pending: it is read as at the start of a lexeme. -/
def Breaks (p : Pending) (c : Char) : Prop :=
  p.step c = (p.flush ++ (start c).1, (start c).2)

/-- Whether nothing but a whole lexeme is pending, which the next character may still go on
with. -/
def isWhole : Pending → Bool
  | nothing | run .. | closing _ => true
  | _ => false

theorem breaks_nothing (c : Char) : nothing.Breaks c := rfl

theorem breaks_closing (read : List Char) {c : Char} (hc : c ≠ '\"') :
    (closing read).Breaks c := by
  rw [Breaks, step, if_neg hc]

/-- Both comments open with two parts of operators. -/
theorem comment?_eq_none (previous : Option Char) {c : Char} (hc : isOperatorPart c = false) :
    comment? previous c = none := by
  unfold comment?
  split
  · exact absurd hc (by decide)
  · exact absurd hc (by decide)
  · rfl

theorem breaks_run {kind : LexemeKind} (read : List Char) {c : Char}
    (hc : kind.goesOn c = false) : (run kind read).Breaks c := by
  cases kind with
  | operator =>
    rw [LexemeKind.goesOn] at hc
    rw [Breaks, step, comment?_eq_none _ hc]
    exact if_neg (by simp [hc])
  | _ => exact if_neg (by simp [hc])

/-- The characters that end every whole lexeme. -/
def isBreak (c : Char) : Bool :=
  c == ' ' || c == '(' || c == ')' || c == ','

theorem breaks_of_isBreak {p : Pending} (hp : p.isWhole) {c : Char} (hc : isBreak c) :
    p.Breaks c := by
  have hcases : c = ' ' ∨ c = '(' ∨ c = ')' ∨ c = ',' := by simpa [isBreak, or_assoc] using hc
  have hgoes : ∀ kind : LexemeKind, kind.goesOn c = false := by
    intro kind
    obtain rfl | rfl | rfl | rfl := hcases <;> cases kind <;> decide
  have hquote : c ≠ '\"' := by
    obtain rfl | rfl | rfl | rfl := hcases <;> decide
  cases p with
  | nothing => exact breaks_nothing c
  | run kind read => exact breaks_run read (hgoes kind)
  | closing read => exact breaks_closing read hquote
  | _ => exact absurd hp (by simp [isWhole])

/-- Reading from the start finishes what was pending, if the first character breaks it. -/
theorem scan_of_breaks {p : Pending} {c : Char} (h : p.Breaks c) (cs : List Char) :
    p.scan (c :: cs) = (p.flush ++ (nothing.scan (c :: cs)).1, (nothing.scan (c :: cs)).2) := by
  rw [scan, h, scan, step]
  simp only [List.append_assoc]

/-- A lexeme that is no operator takes all characters that go on with it. -/
theorem scan_run {kind : LexemeKind} (hkind : kind ≠ .operator) (read cs : List Char)
    (hcs : ∀ c ∈ cs, kind.goesOn c) : (run kind read).scan cs = ([], run kind (read ++ cs)) := by
  induction cs generalizing read with
  | nil => rw [scan, List.append_nil]
  | cons c cs ih =>
    have hc : kind.goesOn c := hcs c (List.mem_cons_self ..)
    have hstep : (run kind read).step c = ([], run kind (read ++ [c])) := by
      cases kind with
      | operator => exact absurd rfl hkind
      | _ => exact if_pos hc
    have hrest := ih (read ++ [c]) fun d hd => hcs d (List.mem_cons_of_mem c hd)
    rw [scan, hstep, hrest, List.append_assoc]
    rfl

/-- A quoted name takes all characters of its content, whose quotes are doubled. -/
theorem scan_quoted (read cs : List Char) :
    (quoted read).scan (cs.flatMap (fun c => if c = '\"' then ['\"', '\"'] else [c]) ++ ['\"']) =
      ([], closing (read ++ cs)) := by
  induction cs generalizing read with
  | nil => rw [List.append_nil]; rfl
  | cons c cs ih =>
    have hread : read ++ c :: cs = (read ++ [c]) ++ cs := by simp
    have ih := ih (read ++ [c])
    rw [List.flatMap_cons, List.append_assoc, scan_append, hread]
    by_cases hc : c = '\"'
    -- A doubled quote is read as one that seems to close the name, and one that goes on.
    · have hpair : (quoted read).scan ['\"', '\"'] = ([], quoted (read ++ [c])) := by
        rw [hc]
        rfl
      rw [if_pos hc, hpair, ih]
      rfl
    · have hone : (quoted read).scan [c] = ([], quoted (read ++ [c])) := by
        rw [scan, step, if_neg hc]
        rfl
      rw [if_neg hc, hone, ih]
      rfl

end Pending

/-! ### Texts part by part -/

open Pending

/-- The characters give the lexemes, the last of which is pending. -/
def Spells (cs : List Char) (ls : List Lexeme) (p : Pending) : Prop :=
  ∃ out, nothing.scan cs = (out, p) ∧ out ++ p.flush = ls

theorem Spells.lex_eq {text : String} {ls : List Lexeme} {p : Pending}
    (h : Spells text.toList ls p) : lex text = ls := by
  obtain ⟨out, hscan, rfl⟩ := h
  rw [lex, hscan]

theorem spells_nil : Spells [] [] .nothing := ⟨[], rfl, rfl⟩

theorem spells_space : Spells [' '] [] .nothing := ⟨[], rfl, rfl⟩

/-- **Parts side by side** give their lexemes side by side, if the second part starts with a
character that ends the first. -/
theorem Spells.append {cs ds : List Char} {ls ms : List Lexeme} {p q : Pending}
    (h : Spells cs ls p) (h' : Spells ds ms q) {d : Char} (hd : ds.head? = some d)
    (hbreaks : p.Breaks d) : Spells (cs ++ ds) (ls ++ ms) q := by
  obtain ⟨out, hscan, rfl⟩ := h
  obtain ⟨out', hscan', rfl⟩ := h'
  obtain ⟨ds, rfl⟩ : ∃ ds', ds = d :: ds' := by
    cases ds with
    | nil => exact absurd hd nofun
    | cons d' ds => exact ⟨ds, by rw [Option.some.inj hd]⟩
  -- What the first part has left is given out before the second, which is read from the start.
  refine ⟨out ++ (p.flush ++ out'), ?_, by simp only [List.append_assoc]⟩
  rw [scan_append, hscan, scan_of_breaks hbreaks, hscan']

/-- **A quoted name** is one lexeme, whatever its characters are. -/
theorem spells_quotedName (name : String) :
    Spells (quotedName name).toList [.name name] (.closing name.toList) := by
  refine ⟨[], ?_, ?_⟩
  · rw [quotedName, String.toList_ofList, List.cons_append, scan]
    exact congrArg (fun x => ([] ++ x.1, x.2)) (scan_quoted [] name.toList)
  · rw [flush, String.ofList_toList]
    rfl

/-- A lexeme that is no operator, character by character. -/
theorem spells_run {k : LexemeKind} (hkind : k ≠ .operator) {c : Char}
    (hc : start c = ([], .run k [c])) {cs : List Char} (hcs : ∀ d ∈ cs, k.goesOn d) :
    Spells (c :: cs) [k.lexeme (String.ofList (c :: cs))] (.run k (c :: cs)) := by
  refine ⟨[], ?_, rfl⟩
  rw [scan, step, hc, scan_run hkind [c] cs hcs]
  rfl

theorem goesOn_of_isDigit {kind : LexemeKind} (hkind : kind ≠ .operator) {c : Char}
    (hc : c.isDigit) : kind.goesOn c := by
  have hpart : isWordPart c := by simp [isWordPart, Char.isAlphanum, hc]
  cases kind with
  | operator => exact absurd rfl hkind
  | number => simp [LexemeKind.goesOn, hpart]
  | _ => exact hpart

theorem start_of_isDigit {c : Char} (hc : c.isDigit) : start c = ([], .run .number [c]) := by
  -- Spaces and quotes have lower codes than digits.
  have hrange : 48 ≤ c.toNat ∧ c.toNat ≤ 57 := by
    simpa [Char.isDigit, UInt32.le_iff_toNat_le] using hc
  have hne : ∀ {d : Char}, d.toNat < 48 → c ≠ d := by
    rintro d hd rfl
    omega
  have hspace : c.isWhitespace = false := by
    simp [Char.isWhitespace, hne (show (' ' : Char).toNat < 48 by decide),
      hne (show ('\t' : Char).toNat < 48 by decide), hne (show ('\r' : Char).toNat < 48 by decide),
      hne (show ('\n' : Char).toNat < 48 by decide)]
  have hquote : c ≠ '\"' := hne (by decide)
  have hkind : LexemeKind.ofStart? c = some .number := if_pos hc
  rw [start, hspace, if_neg Bool.false_ne_true, if_neg hquote, hkind]

theorem isDigit_of_mem_toString {n : Nat} {c : Char} (hc : c ∈ (toString n).toList) :
    c.isDigit := by
  rw [Nat.toString_eq_ofList_toDigits, String.toList_ofList] at hc
  exact Nat.isDigit_of_mem_toDigits (by decide) (by decide) hc

theorem toList_toString_ne_nil (n : Nat) : (toString n).toList ≠ [] := by
  rw [Nat.toString_eq_ofList_toDigits, String.toList_ofList]
  exact Nat.toDigits_ne_nil

/-- The digits of a natural number are one lexeme. -/
theorem spells_toString (n : Nat) :
    Spells (toString n).toList [.number (toString n)] (.run .number (toString n).toList) := by
  have hdigits : ∀ c ∈ (toString n).toList, c.isDigit := fun c => isDigit_of_mem_toString
  have htext : toString n = String.ofList (toString n).toList := (String.ofList_toList).symm
  obtain ⟨c, cs, hcs⟩ := List.exists_cons_of_ne_nil (toList_toString_ne_nil n)
  rw [htext, String.toList_ofList, hcs]
  rw [hcs] at hdigits
  exact spells_run (k := .number) (by decide)
    (start_of_isDigit (hdigits c (List.mem_cons_self ..)))
    fun d hd => goesOn_of_isDigit (by decide) (hdigits d (List.mem_cons_of_mem c hd))

/-- A numbered placeholder is a sign before the digits of its number. -/
theorem toList_placeholder_postgresql (n : Nat) :
    (Dialect.postgresql.placeholder n).toList = '$' :: (toString n).toList := by
  show (toString "$" ++ toString n).toList = '$' :: (toString n).toList
  rw [String.toList_append]
  rfl

/-- A placeholder is one lexeme in every dialect. -/
theorem spells_placeholder (dialect : Dialect) (n : Nat) :
    Spells (dialect.placeholder n).toList [.placeholder (dialect.placeholder n)]
      (.run .placeholder (dialect.placeholder n).toList) := by
  cases dialect with
  | sqlite =>
    show Spells "?".toList [.placeholder "?"] (.run .placeholder "?".toList)
    exact ⟨[], by decide, by decide⟩
  | postgresql =>
    have htext := toList_placeholder_postgresql n
    have hdigits : ∀ c ∈ (toString n).toList, LexemeKind.placeholder.goesOn c := fun c hc =>
      goesOn_of_isDigit (by decide) (isDigit_of_mem_toString hc)
    have h := spells_run (k := .placeholder) (c := '$') (by decide) rfl hdigits
    rw [← htext, String.ofList_toList] at h
    exact h

end NestedQuery
