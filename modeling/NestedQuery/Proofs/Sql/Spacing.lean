import NestedQuery.Proofs.Result
import NestedQuery.Proofs.Sql.Closed
import NestedQuery.Proofs.Sql.Lexeme

/-!
# The lexemes of a fragment

`Fragment.lexemes` lists the lexemes of the chunks of a fragment, chunk by chunk and without
looking at any text; only bare text counts as what it is split into. Between many chunks no space
is written, so the rendered text could still be split otherwise: a sign before a sign would open a
comment, and a point after a number would become part of it.

`Fragment.IsSpaced` excludes these neighbours: a sign stands before an operand only, and a point
behind a name only. The main result is `lex_render`: the text of such a fragment is split into the
lexemes of its chunks.
-/

namespace NestedQuery

open Pending

/-! ### The lexemes of chunks -/

/-- The lexeme of a token. -/
def Token.lexeme : Token → Lexeme
  | openParen => .mark '('
  | closeParen => .mark ')'
  | comma => .mark ','
  | dot => .mark '.'
  | star => .operator "*"
  | minus => .operator "-"
  | t => .word t.text

/-- The lexemes of the items of a list, where `none` stands for a placeholder. -/
def itemLexemes : List Value → List (Option Lexeme)
  | [] => []
  | [_] => [none]
  | _ :: vs => none :: some (.mark ',') :: itemLexemes vs

mutual

/-- The lexemes of a chunk, where `none` stands for a placeholder. -/
def Chunk.lexemes (bound : List Value) : Chunk → List (Option Lexeme)
  | .token t => [some t.lexeme]
  | .ident name => [some (.name name)]
  | .raw text => (lex text).map some
  | .function name => [some (.word name)]
  | .number n => [some (.number (toString n))]
  | .param _ => [none]
  | .inList subject id =>
    match bound[id]? with
    | some (.list []) => [some (.number "1"), some (.operator "="), some (.number "0")]
    | some (.list items) =>
      lexemesOf bound subject ++ [some (.word "IN"), some (.mark '(')] ++ itemLexemes items
        ++ [some (.mark ')')]
    | _ => []

/-- The lexemes of several chunks. -/
def lexemesOf (bound : List Value) : List Chunk → List (Option Lexeme)
  | [] => []
  | c :: rest => c.lexemes bound ++ lexemesOf bound rest

end

/-- The lexemes with their placeholders written, where `count` placeholders stand before them. -/
def numbered (dialect : Dialect) (count : Nat) : List (Option Lexeme) → List Lexeme
  | [] => []
  | some l :: rest => l :: numbered dialect count rest
  | none :: rest =>
    .placeholder (dialect.placeholder (count + 1)) :: numbered dialect (count + 1) rest

/-- The lexemes of a fragment with the given values. -/
def Fragment.lexemes (f : Fragment) (dialect : Dialect) (bound : List Value) : List Lexeme :=
  numbered dialect 0 (lexemesOf bound f)

theorem numbered_append (dialect : Dialect) (count : Nat) (xs ys : List (Option Lexeme)) :
    numbered dialect count (xs ++ ys) =
      numbered dialect count xs ++ numbered dialect (count + xs.count none) ys := by
  induction xs generalizing count with
  | nil => rfl
  | cons x xs ih =>
    cases x with
    | some l =>
      rw [List.cons_append, numbered, numbered, ih, List.count_cons_of_ne (by simp)]
      rfl
    | none =>
      rw [List.cons_append, numbered, numbered, ih, List.count_cons_self, Nat.add_right_comm,
        Nat.add_assoc]
      rfl

theorem spell_append (dialect : Dialect) (count : Nat) (ps qs : List Piece) :
    spell dialect count (ps ++ qs) =
      spell dialect count ps ++ spell dialect (count + (holeValues ps).length) qs := by
  induction ps generalizing count with
  | nil => simp [spell, holeValues]
  | cons p ps ih =>
    cases p with
    | text s =>
      have hcount : (holeValues (.text s :: ps)).length = (holeValues ps).length := rfl
      rw [List.cons_append, spell, spell, ih, hcount, String.append_assoc]
    | hole v =>
      have hcount : (holeValues (.hole v :: ps)).length = (holeValues ps).length + 1 := rfl
      rw [List.cons_append, spell, spell, ih, hcount, String.append_assoc, Nat.add_right_comm,
        Nat.add_assoc]

/-! ### Neighbours that may touch -/

/-- The bare texts of statements. -/
def rawTexts : List String :=
  operatorTexts ++ ["LIMIT", "OFFSET", "LIMIT -1 OFFSET", "PARTITION BY", "DOUBLE PRECISION"]

/-- Whether a chunk may stand before another. -/
def Chunk.fits : Chunk → Chunk → Bool
  | .token .minus, next => Fragment.startsOperand [next]
  | .ident _, .token .dot => true
  | _, .token .dot => false
  | _, _ => true

mutual

/-- A chunk has one of the bare texts or functions of statements, and a good subject. -/
def Chunk.IsSound : Chunk → Prop
  | .raw text => text ∈ rawTexts
  | .function name => name ∈ functionNames
  | .inList subject _ => ChunksFit subject
  | _ => True

/-- The chunks are sound, and each may stand before the next. -/
def ChunksFit : List Chunk → Prop
  | [] => True
  | c :: rest => c.IsSound ∧ (∀ next ∈ rest.head?, c.fits next) ∧ ChunksFit rest

end

/-- What the text of a chunk can start with. -/
def Chunk.StartsWith : Chunk → Char → Prop
  | .token t, d => t.text.toList.head? = some d
  | .ident _, d => d = '\"'
  | .function name, d => name.toList.head? = some d
  | .param _, d => d = '?' ∨ d = '$'
  | _, _ => True

/-- What can be pending after the text of a chunk. -/
def Chunk.EndsIn : Chunk → Pending → Prop
  | .token .minus, p => p = .run .operator ['-']
  | .token t, p => p.isWhole ∧ (t.isPunctuation → p = .nothing)
  | .ident name, p => p = .closing name.toList
  | _, p => p.isWhole

theorem Chunk.EndsIn.isWhole {c : Chunk} {p : Pending} (h : c.EndsIn p) : p.isWhole := by
  unfold EndsIn at h
  split at h
  · rw [h]
    rfl
  · exact h.1
  · rw [h]
    rfl
  · exact h

/-- The bare texts of statements have no space at either end. -/
theorem no_outer_space {text : String} (h : text ∈ rawTexts) :
    text.toList.head? ≠ some ' ' ∧ text.toList.getLast? ≠ some ' ' := by
  revert text
  decide +kernel

/-- Words stand apart from words and signs, after closing marks and commas too. -/
theorem Chunk.standApart_of_isWord {c next : Chunk}
    (hc : c.isWord ∨ c = .token .closeParen ∨ c = .token .comma)
    (hnext : next.isWord ∨ next = .token .minus) : c.standApart next = true := by
  unfold standApart
  split <;> simp_all [isWord, Token.isPunctuation]

/-- Without a space between them, one of two neighbours is a mark. -/
theorem Chunk.touching_cases {c next : Chunk} (hc : c.IsSound) (hnext : next.IsSound)
    (h : c.needsSpace next = false) :
    (∃ t, next = .token t ∧ (t = .closeParen ∨ t = .comma ∨ t = .dot ∨ t = .openParen)) ∨
      ∃ t, c = .token t ∧ (t = .openParen ∨ t = .dot ∨ t = .minus) := by
  have hends : c.endsInSpace = false := by
    cases c with
    | raw text => simpa [endsInSpace] using (no_outer_space hc).2
    | _ => rfl
  have hstarts : next.startsInSpace = false := by
    cases next with
    | raw text => simpa [startsInSpace] using (no_outer_space hnext).1
    | _ => rfl
  rw [needsSpace, hends, hstarts] at h
  simp only [Bool.not_false, Bool.true_and] at h
  -- Any other two neighbours are words or signs, and these stand apart.
  by_contra hne
  obtain ⟨hnext', hc'⟩ := not_or.mp hne
  have hword : c.isWord ∨ c = .token .closeParen ∨ c = .token .comma := by
    cases c with
    | token t => cases t <;> simp_all [isWord, Token.isPunctuation]
    | _ => exact Or.inl rfl
  have hword' : next.isWord ∨ next = .token .minus := by
    cases next with
    | token t => cases t <;> simp_all [isWord, Token.isPunctuation]
    | _ => exact Or.inl rfl
  exact Bool.false_ne_true (h.symm.trans (standApart_of_isWord hword hword'))

/-- An operand does not start with a part of an operator. -/
theorem Chunk.not_isOperatorPart {c : Chunk} (hc : c.IsSound)
    (hstarts : Fragment.startsOperand [c]) {d : Char} (hd : c.StartsWith d) :
    isOperatorPart d = false := by
  -- The functions are a fixed list.
  have hnames : ∀ name ∈ functionNames,
      name.toList.head?.all (fun d => !isOperatorPart d) = true := by
    decide +kernel
  cases c with
  | ident name =>
    obtain rfl : d = '\"' := hd
    rfl
  | param id =>
    rcases hd with rfl | rfl <;> rfl
  | function name =>
    have hname := hnames name hc
    rw [show name.toList.head? = some d from hd] at hname
    exact Bool.not_eq_true' _ |>.mp hname
  | token t =>
    cases t with
    | openParen | case =>
      obtain rfl := Option.some.inj hd
      rfl
    | _ => exact absurd hstarts nofun
  | _ => exact absurd hstarts nofun

/-- **Neighbours without a space** between them: the second ends what the first has left. -/
theorem Chunk.breaks_of_touching {c next : Chunk} (hc : c.IsSound) (hnext : next.IsSound)
    (hfits : c.fits next) (h : c.needsSpace next = false) {p : Pending} (hp : c.EndsIn p) {d : Char}
    (hd : next.StartsWith d) : p.Breaks d := by
  rcases touching_cases hc hnext h with ⟨t, rfl, ht⟩ | ⟨t, rfl, ht⟩
  · rcases ht with rfl | rfl | rfl | rfl
    · obtain rfl : d = ')' := (Option.some.inj hd).symm
      exact breaks_of_isBreak hp.isWhole rfl
    · obtain rfl : d = ',' := (Option.some.inj hd).symm
      exact breaks_of_isBreak hp.isWhole rfl
    · obtain rfl : d = '.' := (Option.some.inj hd).symm
      -- Only a name stands before a point.
      cases c with
      | ident name =>
        obtain rfl : p = .closing name.toList := hp
        exact breaks_closing _ (by decide)
      | token t => cases t <;> exact absurd hfits nofun
      | _ => exact absurd hfits nofun
    · obtain rfl : d = '(' := (Option.some.inj hd).symm
      exact breaks_of_isBreak hp.isWhole rfl
  -- After an opening parenthesis or a point nothing is pending; after a sign stands an operand.
  · rcases ht with rfl | rfl | rfl
    · obtain rfl : p = .nothing := hp.2 rfl
      exact breaks_nothing d
    · obtain rfl : p = .nothing := hp.2 rfl
      exact breaks_nothing d
    · obtain rfl : p = .run .operator ['-'] := hp
      exact breaks_run _ (not_isOperatorPart hnext hfits hd)

/-! ### Pieces -/

/-- Wherever the pieces stand, their text spells the lexemes, and `R` holds of its characters and
of what is pending at its end. -/
structure Delivers (ps : List Piece) (xs : List (Option Lexeme))
    (R : List Char → Pending → Prop) : Prop where
  /-- There is a placeholder for each hole. -/
  holes : (holeValues ps).length = xs.count none
  /-- The text spells the lexemes. -/
  spells (dialect : Dialect) (count : Nat) : ∃ p, R (spell dialect count ps).toList p ∧
    Spells (spell dialect count ps).toList (numbered dialect count xs) p

section

variable {R S T : List Char → Pending → Prop} {ps qs : List Piece} {xs ys : List (Option Lexeme)}

/-- Pieces side by side, if the text of the first may stand before that of the second. -/
theorem Delivers.append (h : Delivers ps xs R) (h' : Delivers qs ys S)
    (hRS : ∀ {cs ds p q}, R cs p → S ds q →
      (∃ d, ds.head? = some d ∧ p.Breaks d) ∧ T (cs ++ ds) q) :
    Delivers (ps ++ qs) (xs ++ ys) T := by
  constructor
  · rw [holeValues, List.filterMap_append, List.length_append, List.count_append]
    exact congrArg₂ _ h.holes h'.holes
  · intro dialect count
    -- The placeholders of the second part are numbered on from those of the first.
    obtain ⟨p, hp, hspells⟩ := h.spells dialect count
    obtain ⟨q, hq, hspells'⟩ := h'.spells dialect (count + (holeValues ps).length)
    obtain ⟨⟨d, hd, hbreaks⟩, hT⟩ := hRS hp hq
    rw [spell_append, String.toList_append, numbered_append, ← h.holes]
    exact ⟨q, hT, hspells.append hspells' hd hbreaks⟩

theorem Delivers.mono (h : Delivers ps xs R) (hRS : ∀ {cs p}, R cs p → S cs p) :
    Delivers ps xs S :=
  ⟨h.holes, fun dialect count =>
    let ⟨p, hp, hspells⟩ := h.spells dialect count
    ⟨p, hRS hp, hspells⟩⟩

/-- A piece of text spells what it does on its own. -/
theorem delivers_text {text : String} (ls : List Lexeme) {p : Pending}
    (h : Spells text.toList ls p) (hR : R text.toList p) :
    Delivers [.text text] (ls.map some) R := by
  have hnumbered : ∀ dialect count, numbered dialect count (ls.map some) = ls := by
    intro dialect count
    clear h
    induction ls with
    | nil => rfl
    | cons l ls ih => rw [List.map_cons, numbered, ih]
  constructor
  · rw [List.count_eq_zero_of_not_mem (by simp)]
    rfl
  · intro dialect count
    rw [hnumbered, spell, spell, String.append_empty]
    exact ⟨p, hR, h⟩

/-- A hole is a placeholder. -/
theorem delivers_hole (v : Value)
    (hR : ∀ (dialect : Dialect) (n : Nat), R (dialect.placeholder n).toList
      (.run .placeholder (dialect.placeholder n).toList)) : Delivers [.hole v] [none] R := by
  constructor
  · rfl
  · intro dialect count
    rw [spell, spell, String.append_empty, numbered, numbered]
    exact ⟨_, hR dialect _, spells_placeholder dialect _⟩

end

theorem head?_placeholder (dialect : Dialect) (n : Nat) :
    ∃ d, (dialect.placeholder n).toList.head? = some d ∧ (d = '?' ∨ d = '$') := by
  cases dialect with
  | sqlite =>
    show ∃ d, "?".toList.head? = some d ∧ (d = '?' ∨ d = '$')
    exact ⟨'?', rfl, Or.inl rfl⟩
  | postgresql =>
    refine ⟨'$', ?_, Or.inr rfl⟩
    rw [toList_placeholder_postgresql, List.head?_cons]

/-- Some characters, after which whole lexemes are pending. -/
def LeavesWhole (cs : List Char) (p : Pending) : Prop :=
  cs ≠ [] ∧ p.isWhole

/-- The items of a list are placeholders with commas between them. -/
theorem delivers_holes {items : List Value} (h : items ≠ []) :
    Delivers (holes items) (itemLexemes items) LeavesWhole := by
  have hplaceholder : ∀ (v : Value), Delivers [.hole v] [none] LeavesWhole := fun v =>
    delivers_hole v fun dialect n => by
      obtain ⟨d, hd, -⟩ := head?_placeholder dialect n
      exact ⟨fun hnil => by simp [hnil] at hd, rfl⟩
  induction items using holes.induct with
  | case1 => exact absurd rfl h
  | case2 v => exact hplaceholder v
  | case3 v vs hvs ih =>
    have hvs : vs ≠ [] := fun heq => hvs heq
    -- The comma ends the placeholder before it, and the space after it leaves nothing pending.
    have hcomma : Delivers [.text ", "] [some (.mark ',')]
        fun cs p => cs.head? = some ',' ∧ p = .nothing :=
      delivers_text [.mark ','] (p := .nothing) ⟨[.mark ','], rfl, rfl⟩ ⟨rfl, rfl⟩
    have hrest : Delivers (.text ", " :: holes vs) (some (.mark ',') :: itemLexemes vs)
        fun cs p => cs.head? = some ',' ∧ p.isWhole := by
      refine hcomma.append (ih hvs) ?_
      rintro cs ds p q ⟨hcs, rfl⟩ ⟨hds, hq⟩
      obtain ⟨d, ds, rfl⟩ := List.exists_cons_of_ne_nil hds
      refine ⟨⟨d, rfl, breaks_nothing d⟩, ?_, hq⟩
      rw [List.head?_append, hcs]
      rfl
    have hall : Delivers ([.hole v] ++ .text ", " :: holes vs)
        ([none] ++ some (.mark ',') :: itemLexemes vs) LeavesWhole := by
      refine (hplaceholder v).append hrest ?_
      rintro cs ds p q ⟨hcs, hp⟩ ⟨hds, hq⟩
      exact ⟨⟨',', hds, breaks_of_isBreak hp rfl⟩, by simp [hcs], hq⟩
    cases vs with
    | nil => exact absurd rfl hvs
    | cons v' vs => exact hall

/-- The characters of a chunk, and what is pending after them. -/
def Chunk.Frames (c : Chunk) (cs : List Char) (p : Pending) : Prop :=
  (∃ d, cs.head? = some d ∧ c.StartsWith d) ∧ c.EndsIn p

theorem Token.delivers (t : Token) :
    Delivers [.text t.text] [some t.lexeme] (Chunk.token t).Frames := by
  have hspells : Spells t.text.toList [t.lexeme] (nothing.scan t.text.toList).2 :=
    ⟨(nothing.scan t.text.toList).1, rfl, by cases t <;> decide +kernel⟩
  have hends : (Chunk.token t).EndsIn (nothing.scan t.text.toList).2 := by
    cases t <;> first | rfl | exact ⟨rfl, by decide⟩
  have hstarts : ∃ d, t.text.toList.head? = some d := by cases t <;> exact ⟨_, rfl⟩
  obtain ⟨d, hd⟩ := hstarts
  exact delivers_text _ hspells ⟨⟨d, hd, hd⟩, hends⟩

theorem delivers_ident (name : String) :
    Delivers [.text (quotedName name)] [some (.name name)] (Chunk.ident name).Frames := by
  have hhead : (quotedName name).toList.head? = some '\"' := by
    rw [quotedName, String.toList_ofList]
    rfl
  exact delivers_text _ (spells_quotedName name) ⟨⟨'\"', hhead, rfl⟩, rfl⟩

theorem delivers_raw {text : String} (h : text ∈ rawTexts) :
    Delivers [.text text] ((lex text).map some) (Chunk.raw text).Frames := by
  have hwhole : ∀ text ∈ rawTexts,
      text.toList.head?.isSome ∧ (nothing.scan text.toList).2.isWhole := by
    decide +kernel
  obtain ⟨hhead, hends⟩ := hwhole text h
  obtain ⟨d, hd⟩ := Option.isSome_iff_exists.mp hhead
  exact delivers_text _ ⟨_, rfl, rfl⟩ ⟨⟨d, hd, trivial⟩, hends⟩

theorem delivers_function {name : String} (h : name ∈ functionNames) :
    Delivers [.text name] [some (.word name)] (Chunk.function name).Frames := by
  have hword : ∀ name ∈ functionNames, name.toList.head?.isSome ∧
      nothing.scan name.toList = ([], .run .word name.toList) := by
    decide +kernel
  obtain ⟨hhead, hscan⟩ := hword name h
  obtain ⟨d, hd⟩ := Option.isSome_iff_exists.mp hhead
  have hspells : Spells name.toList [.word name] (.run .word name.toList) := by
    refine ⟨[], hscan, ?_⟩
    rw [flush, String.ofList_toList]
    rfl
  exact delivers_text _ hspells ⟨⟨d, hd, hd⟩, rfl⟩

theorem delivers_number (n : Nat) :
    Delivers [.text (toString n)] [some (.number (toString n))] (Chunk.number n).Frames := by
  obtain ⟨d, ds, hd⟩ := List.exists_cons_of_ne_nil (toList_toString_ne_nil n)
  have hhead : (toString n).toList.head? = some d := by rw [hd]; rfl
  exact delivers_text _ (spells_toString n) ⟨⟨d, hhead, trivial⟩, rfl⟩

theorem delivers_param (id : ParamId) {v : Value} {p : Piece} (h : paramHole id v = .ok p) :
    Delivers [p] [none] (Chunk.param id).Frames := by
  have hp : ∃ v, p = .hole v := by
    cases v <;> first | exact ⟨_, (Except.ok.inj h).symm⟩ | exact absurd h nofun
  obtain ⟨v, rfl⟩ := hp
  refine delivers_hole v fun dialect n => ⟨?_, rfl⟩
  obtain ⟨d, hd, hd'⟩ := head?_placeholder dialect n
  exact ⟨d, hd, hd'⟩

/-- What a test in an empty list is written as. -/
theorem delivers_falsePredicate (subject : List Chunk) (id : ParamId) :
    Delivers [.text falsePredicate]
      [some (.number "1"), some (.operator "="), some (.number "0")]
      (Chunk.inList subject id).Frames :=
  delivers_text [.number "1", .operator "=", .number "0"] (p := .run .number ['0'])
    ⟨[.number "1", .operator "="], by decide +kernel, by decide +kernel⟩
    ⟨⟨'1', rfl, trivial⟩, rfl⟩

/-- The list of a membership test after its subject. -/
theorem delivers_items {items : List Value} (h : items ≠ []) :
    Delivers (.text " IN (" :: holes items ++ [.text ")"])
      ([some (.word "IN"), some (.mark '(')] ++ itemLexemes items ++ [some (.mark ')')])
      fun cs p => cs.head? = some ' ' ∧ p.isWhole := by
  have hopen : Delivers [.text " IN ("] [some (.word "IN"), some (.mark '(')]
      fun cs p => cs.head? = some ' ' ∧ p = .nothing :=
    delivers_text [.word "IN", .mark '('] (p := .nothing)
      ⟨[.word "IN", .mark '('], by decide +kernel, rfl⟩ ⟨rfl, rfl⟩
  have hclose : Delivers [.text ")"] [some (.mark ')')]
      fun cs p => cs.head? = some ')' ∧ p = .nothing :=
    delivers_text [.mark ')'] (p := .nothing) ⟨[.mark ')'], rfl, rfl⟩ ⟨rfl, rfl⟩
  -- After the opening parenthesis anything may start, and the closing one ends what is open.
  have hitems : Delivers ([.text " IN ("] ++ holes items)
      ([some (.word "IN"), some (.mark '(')] ++ itemLexemes items)
      fun cs p => cs.head? = some ' ' ∧ p.isWhole := by
    refine hopen.append (delivers_holes h) ?_
    rintro cs ds p q ⟨hcs, rfl⟩ ⟨hds, hq⟩
    obtain ⟨d, ds, rfl⟩ := List.exists_cons_of_ne_nil hds
    refine ⟨⟨d, rfl, breaks_nothing d⟩, ?_, hq⟩
    rw [List.head?_append, hcs]
    rfl
  refine hitems.append hclose ?_
  rintro cs ds p q ⟨hcs, hp⟩ ⟨hds, rfl⟩
  refine ⟨⟨')', hds, breaks_of_isBreak hp rfl⟩, ?_, rfl⟩
  rw [List.head?_append, hcs]
  rfl

/-- The characters of several chunks: they start as the first chunk does. -/
def StartsLike (f : List Chunk) (cs : List Char) (p : Pending) : Prop :=
  (∀ c ∈ f.head?, ∃ d, cs.head? = some d ∧ c.StartsWith d) ∧ p.isWhole

/-- A chunk before others, with a space between them if they need one. -/
theorem Chunk.delivers_cons {c : Chunk} {rest : List Chunk} {ps qs : List Piece}
    {xs ys : List (Option Lexeme)} (hfit : ChunksFit (c :: rest))
    (h : Delivers ps xs c.Frames) (h' : Delivers qs ys (StartsLike rest))
    (hnil : rest = [] → qs = [] ∧ ys = []) :
    Delivers (ps ++ gap c rest ++ qs) (xs ++ ys) (StartsLike (c :: rest)) := by
  -- What a chunk starts with does not change by what follows it.
  have hframes : ∀ {cs p}, c.Frames cs p → ∀ ds, ∀ {q : Pending}, q.isWhole →
      StartsLike (c :: rest) (cs ++ ds) q := by
    rintro cs p ⟨⟨d, hd, hstarts⟩, -⟩ ds q hq
    refine ⟨fun c' hc' => ?_, hq⟩
    obtain rfl : c' = c := (Option.some.inj hc').symm
    exact ⟨d, by rw [List.head?_append, hd]; rfl, hstarts⟩
  obtain ⟨hc, hnext, hrest⟩ := hfit
  cases rest with
  | nil =>
    obtain ⟨rfl, rfl⟩ := hnil rfl
    rw [gap, List.append_nil, List.append_nil, List.append_nil]
    refine h.mono fun hcs => ?_
    have h := hframes hcs [] hcs.2.isWhole
    rwa [List.append_nil] at h
  | cons next rest =>
    have hfits : c.fits next := hnext next rfl
    by_cases hspace : c.needsSpace next
    · -- The space ends the first chunk, and the second starts anew.
      have hone : Delivers [.text " "] [] fun cs p => cs = [' '] ∧ p = .nothing :=
        delivers_text [] spells_space ⟨rfl, rfl⟩
      have hspaced : Delivers ([.text " "] ++ qs) ([] ++ ys)
          fun cs p => cs.head? = some ' ' ∧ p.isWhole := by
        refine hone.append h' ?_
        rintro cs ds p q ⟨rfl, rfl⟩ ⟨hds, hq⟩
        obtain ⟨d, hd, -⟩ := hds next rfl
        exact ⟨⟨d, hd, breaks_nothing d⟩, rfl, hq⟩
      rw [gap, if_pos hspace, List.append_assoc]
      refine h.append hspaced ?_
      rintro cs ds p q hcs ⟨hds, hq⟩
      exact ⟨⟨' ', hds, breaks_of_isBreak hcs.2.isWhole rfl⟩, hframes hcs ds hq⟩
    · rw [gap, if_neg hspace, List.append_nil]
      refine h.append h' ?_
      rintro cs ds p q hcs ⟨hds, hq⟩
      obtain ⟨d, hd, hstarts⟩ := hds next rfl
      exact ⟨⟨d, hd, breaks_of_touching hc hrest.1 hfits (Bool.eq_false_iff.mpr hspace) hcs.2
        hstarts⟩, hframes hcs ds hq⟩

theorem boundValue_eq_ok {bound : List Value} {id : ParamId} {v : Value}
    (h : boundValue bound id = .ok v) : bound[id]? = some v := by
  unfold boundValue at h
  split at h
  · next heq => rw [heq, Except.ok.inj h]
  · cases h

theorem listItems_eq_ok {id : ParamId} {v : Value} {items : List Value}
    (h : listItems id v = .ok items) : v = .list items := by
  cases v <;> first | rw [Except.ok.inj h] | cases h

mutual

/-- **A chunk** spells its lexemes. -/
theorem Chunk.delivers_pieces {bound : List Value} :
    (c : Chunk) → c.IsSound → ∀ {ps}, c.pieces bound = .ok ps →
      Delivers ps (c.lexemes bound) c.Frames
  | .token t, _, ps, h => by
    obtain rfl := Except.ok.inj h
    exact t.delivers
  | .ident name, _, ps, h => by
    obtain rfl := Except.ok.inj h
    exact delivers_ident name
  | .raw text, hc, ps, h => by
    obtain rfl := Except.ok.inj h
    exact delivers_raw hc
  | .function name, hc, ps, h => by
    obtain rfl := Except.ok.inj h
    exact delivers_function hc
  | .number n, _, ps, h => by
    obtain rfl := Except.ok.inj h
    exact delivers_number n
  | .param id, _, ps, h => by
    rw [Chunk.pieces] at h
    obtain ⟨v, -, h⟩ := Result.bind_eq_ok_iff.mp h
    obtain ⟨p, hp, h⟩ := Result.bind_eq_ok_iff.mp h
    obtain rfl := Result.pure_eq_ok_iff.mp h
    exact delivers_param id hp
  | .inList subject id, hc, ps, h => by
    rw [Chunk.pieces] at h
    obtain ⟨v, hv, h⟩ := Result.bind_eq_ok_iff.mp h
    obtain ⟨items, hitems, h⟩ := Result.bind_eq_ok_iff.mp h
    have hbound : bound[id]? = some (.list items) := by
      rw [boundValue_eq_ok hv, listItems_eq_ok hitems]
    -- A test for membership in no values is written as a test that fails.
    cases items with
    | nil =>
      obtain rfl := Result.pure_eq_ok_iff.mp h
      rw [Chunk.lexemes, hbound]
      exact delivers_falsePredicate subject id
    | cons item items =>
      obtain ⟨before, hbefore, h⟩ := Result.bind_eq_ok_iff.mp h
      obtain rfl := Result.pure_eq_ok_iff.mp h
      rw [Chunk.lexemes, hbound]
      have hsubject := delivers_piecesOf subject hc hbefore
      have hlist := delivers_items (List.cons_ne_nil item items)
      simp only [List.append_assoc] at hlist ⊢
      refine hsubject.append hlist ?_
      rintro cs ds p q ⟨-, hp⟩ ⟨hds, hq⟩
      refine ⟨⟨' ', hds, breaks_of_isBreak hp rfl⟩, ⟨?_, hq⟩⟩
      rw [List.head?_append, hds]
      cases cs.head? with
      | none => exact ⟨' ', rfl, trivial⟩
      | some d => exact ⟨d, rfl, trivial⟩

/-- **Chunks** spell their lexemes. -/
theorem delivers_piecesOf {bound : List Value} :
    (f : List Chunk) → ChunksFit f → ∀ {ps}, piecesOf bound f = .ok ps →
      Delivers ps (lexemesOf bound f) (StartsLike f)
  | [], _, ps, h => by
    obtain rfl := Except.ok.inj h
    exact ⟨rfl, fun _ _ => ⟨.nothing, ⟨nofun, rfl⟩, spells_nil⟩⟩
  | c :: rest, hfit, ps, h => by
    rw [piecesOf] at h
    obtain ⟨qs, hqs, h⟩ := Result.bind_eq_ok_iff.mp h
    obtain ⟨rs, hrs, h⟩ := Result.bind_eq_ok_iff.mp h
    obtain rfl := Result.pure_eq_ok_iff.mp h
    rw [lexemesOf]
    have hhead := c.delivers_pieces hfit.1 hqs
    have htail := delivers_piecesOf rest hfit.2.2 hrs
    refine Chunk.delivers_cons hfit hhead htail ?_
    rintro rfl
    exact ⟨(Except.ok.inj hrs).symm, rfl⟩

end

/-! ### Plain lexemes -/

/-- Whether a lexeme is no placeholder and leaves the text after it alone. -/
def Lexeme.isPlain : Lexeme → Bool
  | comment | unclosed _ | placeholder _ => false
  | _ => true

theorem Lexeme.isOpen_of_isPlain {l : Lexeme} (h : l.isPlain) : l.isOpen = false := by
  cases l <;> first | rfl | exact absurd h nofun

theorem isPlain_of_mem_itemLexemes {vs : List Value} :
    ∀ x ∈ itemLexemes vs, x.all Lexeme.isPlain = true := by
  induction vs using itemLexemes.induct with
  | case1 => nofun
  | case2 v =>
    rw [itemLexemes]
    decide
  | case3 v vs hvs ih =>
    have hcons : itemLexemes (v :: vs) = [none, some (.mark ',')] ++ itemLexemes vs := by
      cases vs with
      | nil => exact absurd rfl hvs
      | cons v' vs => rfl
    rw [hcons, List.forall_mem_append]
    exact ⟨by decide, ih⟩

mutual

/-- Apart from the places of placeholders, the lexemes of a sound chunk are plain. -/
theorem Chunk.isPlain_of_mem_lexemes {bound : List Value} :
    (c : Chunk) → c.IsSound → ∀ x ∈ c.lexemes bound, x.all Lexeme.isPlain = true
  | .token t, _ => by
    rw [Chunk.lexemes, List.forall_mem_singleton]
    cases t <;> rfl
  | .ident _, _ | .function _, _ | .number _, _ => by
    rw [Chunk.lexemes, List.forall_mem_singleton]
    rfl
  | .param _, _ => by
    rw [Chunk.lexemes]
    decide
  | .raw text, hc => by
    -- Raw texts are a fixed list.
    have hraw : ∀ text ∈ rawTexts, ∀ l ∈ lex text, l.isPlain = true := by decide +kernel
    rw [Chunk.lexemes, List.forall_mem_map]
    exact hraw text hc
  | .inList subject id, hc => by
    rw [Chunk.lexemes]
    split
    · decide
    · rw [List.forall_mem_append, List.forall_mem_append, List.forall_mem_append]
      exact ⟨⟨⟨isPlain_of_mem_lexemesOf subject hc, by decide⟩, isPlain_of_mem_itemLexemes⟩,
        by decide⟩
    · nofun

theorem isPlain_of_mem_lexemesOf {bound : List Value} :
    (f : List Chunk) → ChunksFit f → ∀ x ∈ lexemesOf bound f, x.all Lexeme.isPlain = true
  | [], _ => nofun
  | c :: rest, hfit => by
    rw [lexemesOf, List.forall_mem_append]
    exact ⟨c.isPlain_of_mem_lexemes hfit.1, isPlain_of_mem_lexemesOf rest hfit.2.2⟩

end

/-- Numbering adds placeholders, which are not open. -/
theorem isOpen_of_mem_numbered {dialect : Dialect} {count : Nat} {xs : List (Option Lexeme)}
    (h : ∀ x ∈ xs, x.all Lexeme.isPlain = true) :
    ∀ l ∈ numbered dialect count xs, l.isOpen = false := by
  induction xs generalizing count with
  | nil => nofun
  | cons x xs ih =>
    obtain ⟨hx, hxs⟩ := List.forall_mem_cons.mp h
    cases x with
    | none => exact List.forall_mem_cons.mpr ⟨rfl, ih hxs⟩
    | some l => exact List.forall_mem_cons.mpr ⟨Lexeme.isOpen_of_isPlain hx, ih hxs⟩

/-! ### Fragments -/

namespace Fragment

/-- Every chunk may stand beside its neighbours, and the fragment beside other ones: it starts with
no point and ends in no sign. -/
structure IsSpaced (f : Fragment) : Prop where
  /-- The chunks fit. -/
  fit : ChunksFit f
  /-- The first is no point. -/
  first : f.head? ≠ some (.token .dot)
  /-- The last is no sign. -/
  last : f.getLast? ≠ some (.token .minus)

/-- **The text of a fragment** whose chunks fit is split into the lexemes of its chunks. -/
theorem lex_render {f : Fragment} (hf : f.IsSpaced) {dialect : Dialect} {bound : List Value}
    {r : Rendered} (h : f.render dialect bound = .ok r) :
    lex r.text = f.lexemes dialect bound := by
  obtain ⟨ps, hps, h⟩ := Result.bind_eq_ok_iff.mp h
  obtain rfl := Result.pure_eq_ok_iff.mp h
  obtain ⟨p, -, hspells⟩ := (delivers_piecesOf f hf.fit hps).spells dialect 0
  exact hspells.lex_eq

/-- No comment is opened in it, and every name is closed. -/
theorem IsSpaced.isOpen_of_mem_lexemes {f : Fragment} (hf : f.IsSpaced) (dialect : Dialect)
    (bound : List Value) : ∀ l ∈ f.lexemes dialect bound, l.isOpen = false :=
  isOpen_of_mem_numbered (isPlain_of_mem_lexemesOf f hf.fit)

end Fragment

end NestedQuery
