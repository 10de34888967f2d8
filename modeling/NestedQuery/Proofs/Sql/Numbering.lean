import NestedQuery.Proofs.Sql.Spacing

/-!
# Placeholders and their parameters

A statement and its parameters go to the database apart from each other, and only the order or the
numbers of the placeholders say which value belongs where. This file states where each of them
comes from. `Fragment.values` lists what the chunks contribute to the parameters, one chunk after
the other; a test in an empty list contributes nothing. `textFrom` writes the chunks where a number
of values stands before them, and so with placeholders that count on from there.

For the database's side, `Dialect.readBound` goes through the lexemes of a text and puts in place of
each placeholder the parameter that its dialect looks up for it, by position or by number. The main
result is `Fragment.render_numbers_values`: this gives back the lexemes of the chunks with each
chunk's own values in their places (`Fragment.boundLexemes`).
-/

namespace NestedQuery

/-! ### What the chunks contribute -/

mutual

/-- The values that a chunk contributes to the parameters. -/
def Chunk.values (bound : List Value) : Chunk → List Value
  | .param id => [bound.getD id .null]
  | .inList subject id =>
    match bound[id]? with
    | some (.list []) => []
    | some (.list items) => valuesOf bound subject ++ items
    | _ => []
  | _ => []

/-- The values that several chunks contribute, one chunk after the other. -/
def valuesOf (bound : List Value) : List Chunk → List Value
  | [] => []
  | c :: rest => c.values bound ++ valuesOf bound rest

end

/-- The values that a fragment contributes to the parameters. -/
def Fragment.values (f : Fragment) (bound : List Value) : List Value :=
  valuesOf bound f

/-! ### Text with numbered placeholders -/

/-- The placeholders of several items with commas between them, where `count` placeholders stand
before them. -/
def Dialect.placeholders (dialect : Dialect) (count items : Nat) : String :=
  ", ".intercalate ((List.range' (count + 1) items).map dialect.placeholder)

/-- The space after `c`, if the next chunk needs one. -/
def gapText (c : Chunk) : List Chunk → String
  | [] => ""
  | next :: _ => if c.needsSpace next then " " else ""

mutual

/-- The text of a chunk, where `count` placeholders stand before it. -/
def Chunk.textFrom (dialect : Dialect) (bound : List Value) (count : Nat) : Chunk → String
  | .token t => t.text
  | .ident name => quotedName name
  | .raw text => text
  | .function name => name
  | .number n => toString n
  | .param _ => dialect.placeholder (count + 1)
  | .inList subject id =>
    match bound[id]? with
    | some (.list []) => falsePredicate
    | some (.list items) =>
      textFrom dialect bound count subject ++ " IN ("
        ++ dialect.placeholders (count + (valuesOf bound subject).length) items.length ++ ")"
    | _ => ""

/-- The text of several chunks: each counts on from the values of those before it. -/
def textFrom (dialect : Dialect) (bound : List Value) (count : Nat) : List Chunk → String
  | [] => ""
  | c :: rest =>
    c.textFrom dialect bound count ++ gapText c rest
      ++ textFrom dialect bound (count + (c.values bound).length) rest

end

/-- Stretches of text with placeholders between them, where `count` placeholders stand before
them. -/
def withPlaceholders (dialect : Dialect) (count : Nat) : List String → String
  | [] => ""
  | [s] => s
  | s :: rest => s ++ dialect.placeholder (count + 1) ++ withPlaceholders dialect (count + 1) rest

/-- Pieces are stretches of text with one placeholder for each value between them. -/
theorem exists_stretches (ps : List Piece) :
    ∃ stretches : List String, stretches.length = (holeValues ps).length + 1 ∧
      ∀ dialect count, spell dialect count ps = withPlaceholders dialect count stretches := by
  induction ps with
  | nil => exact ⟨[""], rfl, fun _ _ => rfl⟩
  | cons p ps ih =>
    obtain ⟨stretches, hlength, hspell⟩ := ih
    obtain ⟨s, rest, rfl⟩ := List.exists_cons_of_length_eq_add_one hlength
    cases p with
    | text t =>
      refine ⟨(t ++ s) :: rest, hlength, fun dialect count => ?_⟩
      rw [spell, hspell]
      cases rest <;> simp [withPlaceholders, String.append_assoc]
    | hole v =>
      refine ⟨"" :: s :: rest, congrArg (· + 1) hlength, fun dialect count => ?_⟩
      rw [spell, hspell]
      simp [withPlaceholders]

/-! ### Rendering puts them side by side -/

/-- The pieces carry the values and spell the text, wherever they stand. -/
structure Lays (ps : List Piece) (vs : List Value) (text : Dialect → Nat → String) : Prop where
  /-- The holes carry the values in order. -/
  carries : holeValues ps = vs
  /-- The text depends on the dialect and on the number of placeholders before it. -/
  spells (dialect : Dialect) (count : Nat) : spell dialect count ps = text dialect count

theorem Lays.append {ps qs : List Piece} {vs ws : List Value} {text text' : Dialect → Nat → String}
    (h : Lays ps vs text) (h' : Lays qs ws text') :
    Lays (ps ++ qs) (vs ++ ws)
      fun dialect count => text dialect count ++ text' dialect (count + vs.length) := by
  constructor
  · rw [holeValues, List.filterMap_append]
    exact congrArg₂ _ h.carries h'.carries
  · intro dialect count
    rw [spell_append, h.carries, h.spells, h'.spells]

theorem lays_text (s : String) : Lays [.text s] [] fun _ _ => s :=
  ⟨rfl, fun _ _ => String.append_empty⟩

theorem lays_hole (v : Value) :
    Lays [.hole v] [v] fun dialect count => dialect.placeholder (count + 1) :=
  ⟨rfl, fun _ _ => String.append_empty⟩

/-- The holes of items carry them in order. -/
theorem lays_holes (items : List Value) :
    Lays (holes items) items fun dialect count => dialect.placeholders count items.length := by
  induction items using holes.induct with
  | case1 => exact ⟨rfl, fun _ _ => rfl⟩
  | case2 v => exact lays_hole v
  | case3 v vs hvs ih =>
    obtain ⟨w, ws, rfl⟩ := List.exists_cons_of_ne_nil hvs
    have h := ((lays_hole v).append (lays_text ", ")).append ih
    refine ⟨h.carries, fun dialect count => (h.spells dialect count).trans ?_⟩
    simp only [Dialect.placeholders, List.length_cons, List.range'_succ, List.map_cons,
      String.intercalate_cons_cons, List.length_append, List.length_nil, Nat.add_zero]

theorem lays_gap (c : Chunk) (rest : List Chunk) :
    Lays (gap c rest) [] fun _ _ => gapText c rest := by
  cases rest with
  | nil => exact ⟨rfl, fun _ _ => rfl⟩
  | cons next rest =>
    by_cases hspace : c.needsSpace next
    · rw [gap, gapText, if_pos hspace, if_pos hspace]
      exact lays_text " "
    · rw [gap, gapText, if_neg hspace, if_neg hspace]
      exact ⟨rfl, fun _ _ => rfl⟩

/-- A single parameter that is written carries its bound value. -/
theorem paramHole_eq_ok {id : ParamId} {v : Value} {p : Piece} (h : paramHole id v = .ok p) :
    p = .hole v := by
  cases v <;> first | exact (Except.ok.inj h).symm | exact absurd h nofun

mutual

theorem Chunk.lays_pieces {bound : List Value} : (c : Chunk) → ∀ {ps}, c.pieces bound = .ok ps →
    Lays ps (c.values bound) fun dialect count => c.textFrom dialect bound count
  | .token _, ps, h | .ident _, ps, h | .raw _, ps, h | .function _, ps, h | .number _, ps, h => by
    obtain rfl := Except.ok.inj h
    exact lays_text _
  | .param id, ps, h => by
    rw [Chunk.pieces] at h
    obtain ⟨v, hv, h⟩ := Result.bind_eq_ok_iff.mp h
    obtain ⟨p, hp, h⟩ := Result.bind_eq_ok_iff.mp h
    obtain rfl := Result.pure_eq_ok_iff.mp h
    obtain rfl := paramHole_eq_ok hp
    have hbound : bound.getD id .null = v := by
      rw [List.getD_eq_getElem?_getD, boundValue_eq_ok hv, Option.getD_some]
    rw [Chunk.values, hbound]
    exact lays_hole v
  | .inList subject id, ps, h => by
    rw [Chunk.pieces] at h
    obtain ⟨v, hv, h⟩ := Result.bind_eq_ok_iff.mp h
    obtain ⟨items, hitems, h⟩ := Result.bind_eq_ok_iff.mp h
    have hbound : bound[id]? = some (.list items) := by
      rw [boundValue_eq_ok hv, listItems_eq_ok hitems]
    simp only [Chunk.values, Chunk.textFrom, hbound]
    -- An empty list has no values and is written as a test that fails.
    cases items with
    | nil =>
      obtain rfl := Result.pure_eq_ok_iff.mp h
      exact lays_text falsePredicate
    | cons item items =>
      obtain ⟨before, hbefore, h⟩ := Result.bind_eq_ok_iff.mp h
      obtain rfl := Result.pure_eq_ok_iff.mp h
      have hsubject := lays_piecesOf subject hbefore
      have hall := ((hsubject.append (lays_text " IN (")).append
        (lays_holes (item :: items))).append (lays_text ")")
      simpa only [List.append_assoc, List.append_nil, List.singleton_append] using hall

theorem lays_piecesOf {bound : List Value} :
    (f : List Chunk) → ∀ {ps}, piecesOf bound f = .ok ps →
      Lays ps (valuesOf bound f) fun dialect count => textFrom dialect bound count f
  | [], ps, h => by
    obtain rfl := Except.ok.inj h
    exact ⟨rfl, fun _ _ => rfl⟩
  | c :: rest, ps, h => by
    rw [piecesOf] at h
    obtain ⟨qs, hqs, h⟩ := Result.bind_eq_ok_iff.mp h
    obtain ⟨rs, hrs, h⟩ := Result.bind_eq_ok_iff.mp h
    obtain rfl := Result.pure_eq_ok_iff.mp h
    have hall := ((c.lays_pieces hqs).append (lays_gap c rest)).append (lays_piecesOf rest hrs)
    simpa only [valuesOf, textFrom, List.append_nil] using hall

end

/-- **The parameters of a rendered fragment** are what its chunks contribute. -/
theorem Fragment.params_of_render {f : Fragment} {dialect : Dialect} {bound : List Value}
    {r : Rendered} (h : f.render dialect bound = .ok r) : r.params = f.values bound := by
  obtain ⟨ps, hps, h⟩ := Result.bind_eq_ok_iff.mp h
  obtain rfl := Result.pure_eq_ok_iff.mp h
  exact (lays_piecesOf f hps).carries

/-! ### What the database reads -/

/-- A lexeme of a statement, or the value that stands in its place. -/
inductive BoundLexeme where
  /-- A lexeme of the text. -/
  | lexeme (l : Lexeme)
  /-- The value of a parameter. -/
  | value (v : Value)

/-- The place, from zero, of the parameter that a placeholder stands for, where `before`
placeholders stand before it: a question mark takes the next one, and a number is counted from
one. -/
def Dialect.parameterOf? : Dialect → (before : Nat) → String → Option Nat
  | .sqlite, before, text => if text = "?" then some before else none
  | .postgresql, _, text =>
    match text.toList with
    | '$' :: digits =>
      match digits.all Char.isDigit, Nat.ofDigitChars 10 digits 0 with
      | true, n + 1 => some n
      | _, _ => none
    | _ => none

/-- The lexemes of a statement with the parameters that its placeholders stand for, where `before`
placeholders stand before them; nothing if a parameter is missing. -/
def Dialect.readBound (dialect : Dialect) (params : List Value) (before : Nat) :
    List Lexeme → Option (List BoundLexeme)
  | [] => some []
  | .placeholder text :: rest => do
    let place ← dialect.parameterOf? before text
    return .value (← params[place]?) :: (← dialect.readBound params (before + 1) rest)
  | l :: rest => (dialect.readBound params before rest).map (.lexeme l :: ·)

/-- The items of a list, with commas between them. -/
def boundItems : List Value → List BoundLexeme
  | [] => []
  | [v] => [.value v]
  | v :: vs => .value v :: .lexeme (.mark ',') :: boundItems vs

mutual

/-- The lexemes of a chunk with its values in their places. -/
def Chunk.boundLexemes (bound : List Value) : Chunk → List BoundLexeme
  | .token t => [.lexeme t.lexeme]
  | .ident name => [.lexeme (.name name)]
  | .raw text => (lex text).map .lexeme
  | .function name => [.lexeme (.word name)]
  | .number n => [.lexeme (.number (toString n))]
  | .param id => [.value (bound.getD id .null)]
  | .inList subject id =>
    match bound[id]? with
    | some (.list []) => (lex falsePredicate).map .lexeme
    | some (.list items) =>
      boundLexemesOf bound subject ++ [.lexeme (.word "IN"), .lexeme (.mark '(')]
        ++ boundItems items ++ [.lexeme (.mark ')')]
    | _ => []

/-- The lexemes of several chunks with their values in their places. -/
def boundLexemesOf (bound : List Value) : List Chunk → List BoundLexeme
  | [] => []
  | c :: rest => c.boundLexemes bound ++ boundLexemesOf bound rest

end

/-- The lexemes of a fragment with its values in their places. -/
def Fragment.boundLexemes (f : Fragment) (bound : List Value) : List BoundLexeme :=
  boundLexemesOf bound f

namespace BoundLexeme

/-- The lexeme; nothing for a value. -/
def lexeme? : BoundLexeme → Option Lexeme
  | lexeme l => some l
  | value _ => none

/-- The value; nothing for a lexeme. -/
def value? : BoundLexeme → Option Value
  | lexeme _ => none
  | value v => some v

end BoundLexeme

theorem boundItems_spec (items : List Value) :
    (boundItems items).map BoundLexeme.lexeme? = itemLexemes items ∧
      (boundItems items).filterMap BoundLexeme.value? = items := by
  induction items using boundItems.induct with
  | case1 => exact ⟨rfl, rfl⟩
  | case2 v => exact ⟨rfl, rfl⟩
  | case3 v vs hvs ih =>
    obtain ⟨w, ws, rfl⟩ := List.exists_cons_of_ne_nil hvs
    exact ⟨congrArg (none :: some (Lexeme.mark ',') :: ·) ih.1, congrArg (v :: ·) ih.2⟩

theorem map_lexeme_spec (ls : List Lexeme) :
    (ls.map BoundLexeme.lexeme).map BoundLexeme.lexeme? = ls.map some ∧
      (ls.map BoundLexeme.lexeme).filterMap BoundLexeme.value? = [] := by
  rw [List.map_map, List.filterMap_map, List.filterMap_eq_nil_iff]
  exact ⟨rfl, fun _ _ => rfl⟩

mutual

/-- A chunk's lexemes have its values in the places of its placeholders. -/
theorem Chunk.boundLexemes_spec (bound : List Value) : (c : Chunk) →
    (c.boundLexemes bound).map BoundLexeme.lexeme? = c.lexemes bound ∧
      (c.boundLexemes bound).filterMap BoundLexeme.value? = c.values bound
  | .token _ | .ident _ | .function _ | .number _ | .param _ => ⟨rfl, rfl⟩
  | .raw text => map_lexeme_spec (lex text)
  | .inList subject id => by
    obtain ⟨hsubject, hsubject'⟩ := boundLexemesOf_spec bound subject
    rw [Chunk.boundLexemes, Chunk.lexemes, Chunk.values]
    generalize bound[id]? = v?
    match v? with
    | some (.list []) =>
      have hfalse : lex falsePredicate = [.number "1", .operator "=", .number "0"] := by
        decide +kernel
      rw [hfalse]
      exact map_lexeme_spec _
    | some (.list (item :: items)) =>
      obtain ⟨hlexemes, hvalues⟩ := boundItems_spec (item :: items)
      constructor
      · simp only [List.map_append, hsubject, hlexemes]
        rfl
      · simp only [List.filterMap_append, hsubject', hvalues]
        show valuesOf bound subject ++ [] ++ item :: items ++ [] = _
        rw [List.append_nil, List.append_nil]
    | none | some .null | some (.integer _) | some (.real _) | some (.text _) | some (.blob _)
    | some (.bool _) => exact ⟨rfl, rfl⟩

theorem boundLexemesOf_spec (bound : List Value) : (f : List Chunk) →
    (boundLexemesOf bound f).map BoundLexeme.lexeme? = lexemesOf bound f ∧
      (boundLexemesOf bound f).filterMap BoundLexeme.value? = valuesOf bound f
  | [] => ⟨rfl, rfl⟩
  | c :: rest => by
    obtain ⟨hc, hc'⟩ := c.boundLexemes_spec bound
    obtain ⟨hrest, hrest'⟩ := boundLexemesOf_spec bound rest
    rw [boundLexemesOf, List.map_append, List.filterMap_append, hc, hc', hrest, hrest']
    exact ⟨rfl, rfl⟩

end

/-! ### Each placeholder finds its value -/

/-- The placeholder that is written after `count` others stands for the parameter after as many. -/
theorem Dialect.parameterOf?_placeholder (dialect : Dialect) (count : Nat) :
    dialect.parameterOf? count (dialect.placeholder (count + 1)) = some count := by
  cases dialect with
  | sqlite => rfl
  | postgresql =>
    have hdigits : (toString (count + 1)).toList.all Char.isDigit = true :=
      List.all_eq_true.mpr fun _ => isDigit_of_mem_toString
    have hnumber : Nat.ofDigitChars 10 (toString (count + 1)).toList 0 = count + 1 := by
      rw [Nat.toString_eq_ofList_toDigits, String.toList_ofList, Nat.ofDigitChars_ten_toDigits]
    simp only [parameterOf?, toList_placeholder_postgresql, hdigits, hnumber]

/-- A plain lexeme is read as it is. -/
theorem Dialect.readBound_cons_of_isPlain (dialect : Dialect) (params : List Value) (before : Nat)
    {l : Lexeme} (hl : l.isPlain) (rest : List Lexeme) :
    dialect.readBound params before (l :: rest) =
      (dialect.readBound params before rest).map (.lexeme l :: ·) := by
  cases l with
  | placeholder text => exact absurd hl nofun
  | _ => rfl

/-- **Numbered lexemes** are read with the values that were taken out of them, if these are the
parameters from the first of their numbers on. -/
theorem Dialect.readBound_numbered (dialect : Dialect) {xs : List BoundLexeme}
    (hplain : ∀ x ∈ xs.map BoundLexeme.lexeme?, x.all Lexeme.isPlain = true) (before : List Value) :
    dialect.readBound (before ++ xs.filterMap BoundLexeme.value?) before.length
      (numbered dialect before.length (xs.map BoundLexeme.lexeme?)) = some xs := by
  induction xs generalizing before with
  | nil => rfl
  | cons x xs ih =>
    obtain ⟨hx, hxs⟩ := List.forall_mem_cons.mp hplain
    cases x with
    | lexeme l =>
      exact (dialect.readBound_cons_of_isPlain _ _ hx _).trans
        (congrArg (Option.map (.lexeme l :: ·)) (ih hxs before))
    | value v =>
      -- The value is the parameter at this place, and the rest is read with it before it.
      have hrest := ih hxs (before ++ [v])
      rw [List.append_assoc, List.length_append] at hrest
      have hplace : (before ++ v :: xs.filterMap BoundLexeme.value?)[before.length]? = some v := by
        rw [List.getElem?_append_right (Nat.le_refl _), Nat.sub_self, List.getElem?_cons_zero]
      have hvalues : (BoundLexeme.value v :: xs).filterMap BoundLexeme.value? =
          v :: xs.filterMap BoundLexeme.value? := rfl
      rw [List.map_cons, BoundLexeme.lexeme?, numbered, readBound, parameterOf?_placeholder,
        hvalues]
      simp only [Option.bind_eq_bind, Option.bind_some, hplace]
      exact congrArg (Option.bind · fun ys => some (.value v :: ys)) hrest

namespace Fragment

/-- **Placeholders and parameters line up**, whatever the dialect and the bound values are. The
parameters of a rendered fragment are what its chunks contribute, one after the other; the text is
that of the chunks with placeholders that count these values, so there is one placeholder for each
parameter. And if the chunks may stand side by side, who reads the text and looks up each
placeholder finds every value in the place of its own chunk. -/
theorem render_numbers_values {f : Fragment} {dialect : Dialect} {bound : List Value}
    {r : Rendered} (h : f.render dialect bound = .ok r) :
    r.params = f.values bound ∧ r.text = textFrom dialect bound 0 f ∧
      (∃ stretches : List String, stretches.length = r.params.length + 1 ∧
        r.text = withPlaceholders dialect 0 stretches) ∧
      (f.IsSpaced → dialect.readBound r.params 0 (lex r.text) = some (f.boundLexemes bound)) := by
  obtain ⟨ps, hps, hr⟩ := Result.bind_eq_ok_iff.mp h
  obtain rfl := Result.pure_eq_ok_iff.mp hr
  have hlays := lays_piecesOf f hps
  refine ⟨params_of_render h, hlays.spells dialect 0, ?_, fun hf => ?_⟩
  · obtain ⟨stretches, hlength, hspell⟩ := exists_stretches ps
    exact ⟨stretches, hlength, hspell dialect 0⟩
  · obtain ⟨hlexemes, hvalues⟩ := boundLexemesOf_spec bound f
    have hplain : ∀ x ∈ lexemesOf bound f, x.all Lexeme.isPlain = true :=
      isPlain_of_mem_lexemesOf f hf.fit
    rw [← hlexemes] at hplain
    have hread := dialect.readBound_numbered hplain []
    rw [hlexemes, hvalues] at hread
    rw [lex_render hf h, params_of_render h]
    exact hread

/-- A test whose subject is a test in a list, one in an empty list, and a comparison after them. -/
def membershipsBeforeValue : Fragment :=
  [.inList [.inList [.param 0] 1] 2, .raw "AND", .inList [.param 0] 3, .raw "AND", .param 4]

/-- Three lists for the tests, the last of them empty, and two single values. -/
def membershipValues : List Value :=
  [.text "a", .list [.integer 4, .integer 5], .list [.bool true], .list [], .integer 18]

theorem render_numbers_values_memberships :
    ∃ r, membershipsBeforeValue.render .postgresql membershipValues = .ok r ∧
      r.params = [.text "a", .integer 4, .integer 5, .bool true, .integer 18] ∧
      r.text = "$1 IN ($2, $3) IN ($4) AND 1 = 0 AND $5" ∧
      Dialect.postgresql.readBound r.params 0 (lex r.text) =
        some (membershipsBeforeValue.boundLexemes membershipValues) := by
  have hspaced : membershipsBeforeValue.IsSpaced := by
    have hand : "AND" ∈ rawTexts := by decide
    refine ⟨?_, nofun, nofun⟩
    simp [membershipsBeforeValue, ChunksFit, Chunk.IsSound, Chunk.fits, hand]
  have hrender : membershipsBeforeValue.render .postgresql membershipValues = .ok _ := rfl
  obtain ⟨hparams, htext, -, hread⟩ := render_numbers_values hrender
  exact ⟨_, hrender, hparams, htext.trans (by decide +kernel), hread hspaced⟩

end Fragment

end NestedQuery
