import NestedQuery.Proofs.Sql.Closed

/-!
# A grammar of SQL expressions

`parse s` reads chunks as an expression where operators bind as tightly as `s` says and group to
the sides that `s` says. Its result is a `Sentence`, the tree of operators. The functions of the
parser call each other, down to a depth that is their first argument; `Fragment.depth` is more than
any fragment needs.

A fragment that needs no such rules is read alike whatever `s` says. `ReadsOperand` is for
fragments that may stand anywhere an operand may, `ReadsSentence` for those that may stand where no
operator follows, and `ReadsItems` for lists of these. Each of the lemmas is for one construct.
-/

namespace NestedQuery

/-! ### Sentences -/

/-- The tree of an expression, as it is read. -/
inductive Sentence where
  /-- A parameter. -/
  | param (id : ParamId)
  /-- A column of a table. -/
  | column (table column : String)
  /-- An operator before an operand. -/
  | unary (op : UnaryOp) (operand : Sentence)
  /-- An operator between two operands. -/
  | binary (op : BinaryOp) (left right : Sentence)
  /-- Items with commas between. -/
  | list (items : List Sentence)
  /-- A function of an argument, or of its distinct values. -/
  | call (name : String) (distinct : Bool) (argument : Sentence)
  /-- A case, with a subject or without. -/
  | case (subject? : Option Sentence) (branches : List (Sentence × Sentence))
      (otherwise : Sentence)

/-- The items of a list; anything else is its own single item. -/
def Sentence.items : Sentence → List Sentence
  | list items => items
  | x => [x]

/-- Items with commas between, or a single item. -/
def Sentence.ofItems : List Sentence → Sentence
  | [x] => x
  | items => list items

/-! ### Operators -/

/-- The side to which an operator groups. -/
inductive Side where
  /-- The left operand may have the same strength. -/
  | left
  /-- The right operand may have the same strength. -/
  | right
  /-- Neither operand may. -/
  | neither
  deriving Repr, DecidableEq

/-- How tightly the operators bind; a greater number binds tighter. -/
structure Strengths where
  /-- The operators between two operands. -/
  binary : BinaryOp → Nat
  /-- The sides to which they group. -/
  side : BinaryOp → Side
  /-- The operators before an operand. -/
  unary : UnaryOp → Nat

/-- How tightly the right operand must bind. -/
def Strengths.next (s : Strengths) (op : BinaryOp) : Nat :=
  match s.side op with
  | .right => s.binary op
  | _ => s.binary op + 1

/-- The operator that a chunk is before an operand. -/
def before? : Chunk → Option UnaryOp
  | .token .not => some .not
  | .token .minus => some .negate
  | .raw text => if text = "-" then some .negate else none
  | _ => none

/-- The operators that are written as bare text. -/
def bareOperators : List BinaryOp :=
  [.add, .sub, .mul, .div, .mod, .eq, .ne, .lt, .le, .gt, .ge, .and, .or]

/-- The operator that a chunk is between two operands. A minus sign is read by where it stands. -/
def between? : Chunk → Option BinaryOp
  | .token .in_ => some .isIn
  | .token .minus => some .sub
  | .raw text => bareOperators.find? fun op =>
    match op.chunk with
    | .raw t => t == text
    | _ => false
  | _ => none

theorem between?_chunk {op : BinaryOp} (hop : op ≠ .comma) : between? op.chunk = some op := by
  cases op <;> first | rfl | exact absurd rfl hop

/-- The operator that chunks start with. -/
def operator? (cs : List Chunk) : Option BinaryOp :=
  cs.head?.bind between?

/-- Whether an operator that groups to neither side is followed by one of the same strength. -/
def Strengths.clashes (s : Strengths) (op : BinaryOp) (cs : List Chunk) : Bool :=
  s.side op == .neither && (operator? cs).any fun op' => s.binary op' == s.binary op

/-! ### The parser -/

/-- Whether chunks start with a token. -/
def startsWith (t : Token) : List Chunk → Bool
  | .token u :: _ => t == u
  | _ => false

/-- The chunks behind a token. -/
def skip (t : Token) (cs : List Chunk) : Option (List Chunk) :=
  if startsWith t cs then some cs.tail else none

section

variable (s : Strengths)

mutual

/-- Reads an operand and the operators behind it that bind as tightly as `least`. Commas are read
only if `listed`. -/
def parseOperators : Nat → (listed : Bool) → (least : Nat) → List Chunk →
    Option (Sentence × List Chunk)
  | 0, _, _, _ => none
  | n + 1, listed, least, cs => do
    let (x, rest) ← parseOperand n listed cs
    parseMore n listed least x rest

/-- Reads the operators behind `left` that bind as tightly as `least`. -/
def parseMore : Nat → (listed : Bool) → (least : Nat) → (left : Sentence) → List Chunk →
    Option (Sentence × List Chunk)
  | 0, _, _, _, _ => none
  | n + 1, listed, least, left, cs =>
    match operator? cs with
    | none => some (left, cs)
    | some op =>
      if s.binary op < least then some (left, cs)
      else do
        let (right, rest) ←
          if op = .isIn then parseGroup n true cs.tail
          else parseOperators n listed (s.next op) cs.tail
        if s.clashes op rest then none else parseMore n listed least (.binary op left right) rest

/-- Reads an operand. -/
def parseOperand : Nat → (listed : Bool) → List Chunk → Option (Sentence × List Chunk)
  | 0, _, _ => none
  | n + 1, listed, cs =>
    match cs.head?.bind before? with
    | some op => do
      let (x, rest) ← parseOperators n listed (s.unary op) cs.tail
      some (.unary op x, rest)
    | none =>
      match cs with
      | .param id :: rest => some (.param id, rest)
      | .ident table :: .token .dot :: .ident column :: rest => some (.column table column, rest)
      | .function name :: rest => parseCall n listed name rest
      | .token .case :: rest => parseCase n listed rest
      | cs => parseGroup n listed cs

/-- Reads what stands between parentheses. -/
def parseGroup : Nat → (listed : Bool) → List Chunk → Option (Sentence × List Chunk)
  | 0, _, _ => none
  | n + 1, listed, cs => do
    let rest ← skip .openParen cs
    let (x, rest) ← parseList n listed rest
    let rest ← skip .closeParen rest
    some (x, rest)

/-- Reads the argument of a function. -/
def parseCall : Nat → (listed : Bool) → (name : String) → List Chunk →
    Option (Sentence × List Chunk)
  | 0, _, _, _ => none
  | n + 1, listed, name, cs => do
    let rest ← skip .openParen cs
    let distinct := startsWith .distinct rest
    let (x, rest) ← parseList n listed (if distinct then rest.tail else rest)
    let rest ← skip .closeParen rest
    some (.call name distinct x, rest)

/-- Reads a case. -/
def parseCase : Nat → (listed : Bool) → List Chunk → Option (Sentence × List Chunk)
  | 0, _, _ => none
  | n + 1, listed, cs =>
    if startsWith .when cs then parseArms n listed none cs
    else do
      let (x, rest) ← parseOperators n listed 0 cs
      parseArms n listed (some x) rest

/-- Reads what follows the subject of a case. -/
def parseArms : Nat → (listed : Bool) → (subject? : Option Sentence) → List Chunk →
    Option (Sentence × List Chunk)
  | 0, _, _, _ => none
  | n + 1, listed, subject?, cs => do
    let (branches, rest) ← parseBranches n listed cs
    let rest ← skip .else_ rest
    let (otherwise, rest) ← parseList n listed rest
    let rest ← skip .end_ rest
    some (.case subject? branches otherwise, rest)

/-- Reads the branches of a case; there is at least one. -/
def parseBranches : Nat → (listed : Bool) → List Chunk →
    Option (List (Sentence × Sentence) × List Chunk)
  | 0, _, _ => none
  | n + 1, listed, cs => do
    let rest ← skip .when cs
    let (test, rest) ← parseList n listed rest
    let rest ← skip .then_ rest
    let (value, rest) ← parseList n listed rest
    let (branches, rest) ←
      if startsWith .when rest then parseBranches n listed rest else some ([], rest)
    some ((test, value) :: branches, rest)

/-- Reads an expression, or, if `listed`, several with commas between. -/
def parseList : Nat → (listed : Bool) → List Chunk → Option (Sentence × List Chunk)
  | 0, _, _ => none
  | n + 1, listed, cs => do
    let (items, rest) ← parseItems n listed cs
    some (.ofItems items, rest)

/-- Reads the items of a list. -/
def parseItems : Nat → (listed : Bool) → List Chunk → Option (List Sentence × List Chunk)
  | 0, _, _ => none
  | n + 1, listed, cs => do
    let (x, rest) ← parseOperators n listed 0 cs
    let (items, rest) ← parseFurther n listed rest
    some (x :: items, rest)

/-- Reads the items behind a comma. -/
def parseFurther : Nat → (listed : Bool) → List Chunk → Option (List Sentence × List Chunk)
  | 0, _, _ => none
  | n + 1, listed, cs =>
    if listed && startsWith .comma cs then parseItems n listed cs.tail else some ([], cs)

end

end

/-- How deep the calls of the parser may go for a fragment: to eight times its chunks. -/
def Fragment.depth (f : Fragment) : Nat :=
  8 * (expandAll f).length

/-- Reads a fragment as an expression. Commas have a meaning only between the parentheses of
`IN`. -/
def parse (s : Strengths) (f : Fragment) : Option Sentence := do
  let (x, rest) ← parseList s (f.depth + 8) false (expandAll f)
  if rest.isEmpty then some x else none

/-! ### How deep the parser goes -/

namespace Fragment

@[simp]
theorem depth_append (f g : Fragment) : (f ++ g).depth = f.depth + g.depth := by
  rw [depth, depth, depth, expandAll_append, List.length_append, Nat.mul_add]

@[simp]
theorem depth_token (t : Token) : depth [.token t] = 8 := rfl

@[simp]
theorem depth_cons_token (t : Token) (f : Fragment) : depth (.token t :: f) = 8 + f.depth :=
  depth_append [.token t] f

@[simp]
theorem depth_parens (f : Fragment) : f.parens.depth = f.depth + 16 := by
  rw [parens, depth_append, depth_append, depth_token, depth_token, Nat.add_comm 8]

end Fragment

/-! ### What fragments are read as -/

section

variable {s : Strengths} {listed : Bool} {f g : Fragment} {x y : Sentence} {xs ys : List Sentence}
  {rest : List Chunk} {n : Nat}

/-- The fragment is an operand, whatever follows. -/
def ReadsOperand (s : Strengths) (listed : Bool) (f : Fragment) (x : Sentence) : Prop :=
  ∀ n rest, f.depth < n → parseOperand s n listed (expandAll f ++ rest) = some (x, rest)

/-- The fragment is an expression where no operator follows. -/
def ReadsSentence (s : Strengths) (listed : Bool) (f : Fragment) (x : Sentence) : Prop :=
  ∀ n rest, f.depth + 1 < n → operator? rest = none →
    parseOperators s n listed 0 (expandAll f ++ rest) = some (x, rest)

/-- The fragment is a list, to which the items behind a comma are added. -/
def ReadsItems (s : Strengths) (listed : Bool) (f : Fragment) (xs : List Sentence) : Prop :=
  ∀ n rest p, f.depth + 2 < n → operator? rest = none →
    (∀ k, n ≤ k + f.depth + 1 → parseFurther s k listed rest = some p) →
    parseItems s n listed (expandAll f ++ rest) = some (xs ++ p.1, p.2)

/-- The tokens that may follow a list. -/
def closers : List Token :=
  [.closeParen, .when, .then_, .else_, .end_]

/-- Whether chunks end a list: there are none, or the next one closes what the list stands in. -/
def endsList : List Chunk → Bool
  | .token t :: _ => closers.contains t
  | cs => cs.isEmpty

theorem endsList_of_startsWith {t : Token} (ht : t ∈ closers) (h : startsWith t rest) :
    endsList rest := by
  unfold startsWith at h
  split at h
  · obtain rfl := beq_iff_eq.mp h
    exact List.contains_iff_mem.mpr ht
  · exact absurd h Bool.false_ne_true

theorem operator?_of_endsList (h : endsList rest) : operator? rest = none := by
  unfold endsList at h
  split at h
  · next t _ => cases t <;> first | rfl | exact absurd h (by decide)
  · rw [List.isEmpty_iff.mp h]
    rfl

theorem parseFurther_of_endsList (h : endsList rest) (hn : n ≠ 0) :
    parseFurther s n listed rest = some ([], rest) := by
  have hcomma : startsWith .comma rest = false := by
    unfold endsList at h
    split at h
    · next t _ => cases t <;> first | rfl | exact absurd h (by decide)
    · rw [List.isEmpty_iff.mp h]
      rfl
  obtain ⟨n, rfl⟩ := Nat.exists_eq_add_one_of_ne_zero hn
  rw [parseFurther, hcomma, Bool.and_false, if_neg Bool.false_ne_true]

theorem parseMore_of_operator?_eq_none (h : operator? rest = none) (hn : n ≠ 0) (least : Nat)
    (x : Sentence) : parseMore s n listed least x rest = some (x, rest) := by
  obtain ⟨n, rfl⟩ := Nat.exists_eq_add_one_of_ne_zero hn
  rw [parseMore, h]

theorem skip_cons (t : Token) (rest : List Chunk) : skip t (.token t :: rest) = some rest :=
  if_pos (beq_self_eq_true t)

/-! ### From operands to lists -/

/-- An operand stays one if no operator follows, however tightly it must bind. -/
theorem ReadsOperand.parseOperators_eq (h : ReadsOperand s listed f x) (hn : f.depth + 1 < n)
    (least : Nat) (hrest : operator? rest = none) :
    parseOperators s n listed least (expandAll f ++ rest) = some (x, rest) := by
  obtain ⟨n, rfl⟩ := Nat.exists_eq_add_one_of_ne_zero (Nat.ne_zero_of_lt hn)
  rw [parseOperators, h n rest (by omega)]
  exact parseMore_of_operator?_eq_none hrest (by omega) least x

theorem ReadsOperand.readsSentence (h : ReadsOperand s listed f x) :
    ReadsSentence s listed f x :=
  fun _ _ hn hrest => h.parseOperators_eq hn 0 hrest

theorem ReadsSentence.readsItems (h : ReadsSentence s listed f x) : ReadsItems s listed f [x] := by
  intro n rest p hn hrest hfurther
  obtain ⟨n, rfl⟩ := Nat.exists_eq_add_one_of_ne_zero (Nat.ne_zero_of_lt hn)
  refine Option.bind_eq_some_iff.mpr ⟨_, h n rest (by omega) hrest, ?_⟩
  exact Option.bind_eq_some_iff.mpr ⟨p, hfurther n (by omega), rfl⟩

theorem ReadsItems.comma (h : ReadsItems s true f xs) (h' : ReadsItems s true g ys) :
    ReadsItems s true (f ++ [.token .comma] ++ g) (xs ++ ys) := by
  intro n rest p hn hrest hfurther
  have hdepth : (f ++ [.token .comma] ++ g : Fragment).depth = f.depth + 8 + g.depth := by
    simp only [Fragment.depth_append, Fragment.depth_token]
  have hexpand : expandAll (f ++ [.token .comma] ++ g) ++ rest =
      expandAll f ++ (.token .comma :: (expandAll g ++ rest)) := by
    rw [expandAll_append, expandAll_append, List.append_assoc, List.append_assoc]
    rfl
  rw [hdepth] at hn hfurther
  rw [hexpand, List.append_assoc]
  -- To the first list, the comma and the second list are the further items.
  refine h n _ (ys ++ p.1, p.2) (by omega) rfl fun k hk => ?_
  obtain ⟨k, rfl⟩ : ∃ m, k = m + 1 := Nat.exists_eq_add_one_of_ne_zero (by omega)
  rw [parseFurther]
  exact h' k rest p (by omega) hrest fun m hm => hfurther m (by omega)

theorem ReadsItems.parseItems_eq (h : ReadsItems s listed f xs) (hn : f.depth + 2 < n)
    (hrest : endsList rest) : parseItems s n listed (expandAll f ++ rest) = some (xs, rest) := by
  rw [h n rest ([], rest) hn (operator?_of_endsList hrest) fun k hk =>
    parseFurther_of_endsList hrest (by omega), List.append_nil]

theorem ReadsItems.parseList_eq (h : ReadsItems s listed f xs) (hn : f.depth + 3 < n)
    (hrest : endsList rest) :
    parseList s n listed (expandAll f ++ rest) = some (.ofItems xs, rest) := by
  obtain ⟨n, rfl⟩ := Nat.exists_eq_add_one_of_ne_zero (Nat.ne_zero_of_lt hn)
  rw [parseList, h.parseItems_eq (by omega) hrest]
  rfl

/-- **A list is parsed** to its items. -/
theorem ReadsItems.parse_eq (h : ReadsItems s false f xs) : parse s f = some (.ofItems xs) := by
  have hlist : parseList s (f.depth + 8) false (expandAll f ++ []) = some (.ofItems xs, []) :=
    h.parseList_eq (by omega) rfl
  rw [List.append_nil] at hlist
  rw [parse, hlist]
  rfl

/-! ### First chunks -/

/-- The tokens that an operand may start with. -/
def operandTokens : List Token :=
  [.not, .minus, .case, .openParen]

theorem parseOperand_token_eq_none {t : Token} (ht : t ∉ operandTokens) (rest : List Chunk) :
    parseOperand s n listed (.token t :: rest) = none := by
  have hskip : skip .openParen (.token t :: rest) = none := by
    refine if_neg ?_
    rw [startsWith, beq_iff_eq]
    rintro rfl
    exact ht (by decide)
  cases n with
  | zero => rw [parseOperand]
  | succ n =>
    have hgroup : parseGroup s n listed (.token t :: rest) = none := by
      cases n with
      | zero => rw [parseGroup]
      | succ n =>
        rw [parseGroup, hskip]
        rfl
    rw [parseOperand.eq_def]
    -- A token that starts no construct is left to the group, which wants a parenthesis.
    cases t <;> first | exact absurd ht (by decide) | exact hgroup

/-- What is read as an operand starts with no other token. -/
theorem startsWith_eq_false_of_parseOperand {t : Token} (ht : t ∉ operandTokens) {cs : List Chunk}
    {p : Sentence × List Chunk} (h : parseOperand s n listed cs = some p) :
    startsWith t cs = false := by
  unfold startsWith
  split
  · rw [beq_eq_false_iff_ne]
    rintro rfl
    rw [parseOperand_token_eq_none ht] at h
    cases h
  · rfl

theorem ReadsOperand.startsWith_eq_false (h : ReadsOperand s listed f x) {t : Token}
    (ht : t ∉ operandTokens) (rest : List Chunk) : startsWith t (expandAll f ++ rest) = false :=
  startsWith_eq_false_of_parseOperand ht (h _ rest (Nat.lt_succ_self _))

theorem ReadsItems.startsWith_eq_false (h : ReadsItems s listed f xs) {t : Token}
    (ht : t ∉ operandTokens) (hrest : endsList rest) :
    startsWith t (expandAll f ++ rest) = false := by
  have hitems : parseItems s (f.depth + 1 + 1 + 1) listed (expandAll f ++ rest) = some (xs, rest) :=
    h.parseItems_eq (by omega) hrest
  -- A list starts with its first operand.
  rw [parseItems] at hitems
  obtain ⟨_, hoperators, -⟩ := Option.bind_eq_some_iff.mp hitems
  rw [parseOperators] at hoperators
  obtain ⟨_, hoperand, -⟩ := Option.bind_eq_some_iff.mp hoperators
  exact startsWith_eq_false_of_parseOperand ht hoperand

/-- A list of operands is no subquery. -/
theorem ReadsItems.isSubquery_eq_false (h : ReadsItems s listed f xs) : f.isSubquery = false := by
  have hselect : startsWith .select (expandAll f ++ []) = false :=
    h.startsWith_eq_false (by decide) rfl
  unfold Fragment.isSubquery
  split
  · cases hselect
  · rfl

/-! ### Operands -/

theorem readsOperand_param (id : ParamId) : ReadsOperand s listed [.param id] (.param id) := by
  intro n rest hn
  obtain ⟨n, rfl⟩ := Nat.exists_eq_add_one_of_ne_zero (Nat.ne_zero_of_lt hn)
  rw [parseOperand.eq_def]
  rfl

theorem readsOperand_qualified (table column : String) :
    ReadsOperand s listed (Fragment.qualified table column) (.column table column) := by
  intro n rest hn
  obtain ⟨n, rfl⟩ := Nat.exists_eq_add_one_of_ne_zero (Nat.ne_zero_of_lt hn)
  rw [parseOperand.eq_def]
  rfl

theorem expandAll_parens (f : Fragment) :
    expandAll f.parens = .token .openParen :: (expandAll f ++ [.token .closeParen]) := by
  show [.token .openParen] ++ expandAll (f ++ [.token .closeParen]) = _
  rw [expandAll_append]
  rfl

theorem ReadsItems.parseGroup_eq (h : ReadsItems s listed f xs) (hn : f.depth + 4 < n)
    (rest : List Chunk) :
    parseGroup s n listed (expandAll f.parens ++ rest) = some (.ofItems xs, rest) := by
  obtain ⟨n, rfl⟩ := Nat.exists_eq_add_one_of_ne_zero (Nat.ne_zero_of_lt hn)
  have hlist : parseList s n listed (expandAll f ++ .token .closeParen :: rest) =
      some (.ofItems xs, .token .closeParen :: rest) := h.parseList_eq (by omega) rfl
  rw [expandAll_parens, List.cons_append, List.append_assoc, List.singleton_append, parseGroup]
  refine Option.bind_eq_some_iff.mpr ⟨_, skip_cons .., ?_⟩
  refine Option.bind_eq_some_iff.mpr ⟨_, hlist, ?_⟩
  exact Option.bind_eq_some_iff.mpr ⟨_, skip_cons .., rfl⟩

/-- Parentheses make an operand. -/
theorem ReadsItems.parens (h : ReadsItems s listed f xs) :
    ReadsOperand s listed f.parens (.ofItems xs) := by
  intro n rest hn
  obtain ⟨n, rfl⟩ := Nat.exists_eq_add_one_of_ne_zero (Nat.ne_zero_of_lt hn)
  rw [Fragment.depth_parens] at hn
  have hgroup : parseGroup s n listed (expandAll f.parens ++ rest) = some (.ofItems xs, rest) :=
    h.parseGroup_eq (by omega) rest
  rw [expandAll_parens] at hgroup ⊢
  rw [parseOperand.eq_def]
  exact hgroup

/-- The argument of a function, or its distinct values. -/
def argument (distinct : Bool) (f : Fragment) : Fragment :=
  if distinct then .token .distinct :: f else f

theorem depth_call (name : String) (f : Fragment) :
    f.depth + 24 ≤ (Fragment.call name f).depth := by
  have hcall : (Fragment.call name f).depth =
      8 + (Fragment.parens (if f.isSubquery then f.parens else f)).depth :=
    Fragment.depth_append [.function name] _
  rw [hcall, Fragment.depth_parens]
  split
  · rw [Fragment.depth_parens]
    omega
  · omega

/-- A call is an operand. -/
theorem ReadsItems.call (h : ReadsItems s listed f xs) (name : String) (distinct : Bool) :
    ReadsOperand s listed (Fragment.call name (argument distinct f))
      (.call name distinct (.ofItems xs)) := by
  intro n rest hn
  have hdepth : f.depth ≤ (argument distinct f).depth := by
    cases distinct with
    | true =>
      rw [argument, if_pos rfl, Fragment.depth_cons_token]
      exact Nat.le_add_left ..
    | false => exact Nat.le_refl _
  have hcalldepth := depth_call name (argument distinct f)
  obtain ⟨n, rfl⟩ : ∃ m, n = m + 1 + 1 := ⟨n - 2, by omega⟩
  have hlist : parseList s n listed (expandAll f ++ .token .closeParen :: rest) =
      some (.ofItems xs, .token .closeParen :: rest) := h.parseList_eq (by omega) rfl
  -- No operand starts with `DISTINCT`, so the parser finds it iff it was written.
  have hstarts : startsWith .distinct (expandAll (argument distinct f)
      ++ .token .closeParen :: rest) = distinct := by
    cases distinct with
    | true => rfl
    | false => exact h.startsWith_eq_false (by decide) rfl
  have hargument : (if distinct then (expandAll (argument distinct f)
      ++ .token .closeParen :: rest).tail else expandAll (argument distinct f)
      ++ .token .closeParen :: rest) = expandAll f ++ .token .closeParen :: rest := by
    cases distinct <;> rfl
  have hcall : parseCall s (n + 1) listed name
      (expandAll (Fragment.parens (argument distinct f)) ++ rest) =
        some (.call name distinct (.ofItems xs), rest) := by
    rw [expandAll_parens, List.cons_append, List.append_assoc, List.singleton_append, parseCall]
    refine Option.bind_eq_some_iff.mpr ⟨_, skip_cons .., ?_⟩
    rw [hstarts]
    dsimp only
    rw [hargument]
    refine Option.bind_eq_some_iff.mpr ⟨_, hlist, ?_⟩
    exact Option.bind_eq_some_iff.mpr ⟨_, skip_cons .., rfl⟩
  have hsubquery : (argument distinct f).isSubquery = false := by
    cases distinct with
    | true => rfl
    | false => exact h.isSubquery_eq_false
  rw [Fragment.call, hsubquery, parseOperand.eq_def]
  exact hcall

/-! ### Operators -/

theorem clashes_eq_false (h : operator? rest = none) (op : BinaryOp) :
    s.clashes op rest = false := by
  rw [Strengths.clashes, h, Option.any_none, Bool.and_false]

/-- An operator before an operand. -/
theorem ReadsOperand.unary (h : ReadsOperand s listed f x) {t : Token} {op : UnaryOp}
    (ht : before? (.token t) = some op) :
    ReadsSentence s listed (.token t :: f) (.unary op x) := by
  intro n rest hn hrest
  rw [Fragment.depth_cons_token] at hn
  obtain ⟨n, rfl⟩ : ∃ m, n = m + 1 + 1 := ⟨n - 2, by omega⟩
  have hoperand : parseOperand s (n + 1) listed (.token t :: (expandAll f ++ rest)) =
      some (.unary op x, rest) := by
    rw [parseOperand.eq_def]
    dsimp only
    rw [List.head?_cons, Option.bind_some, ht]
    exact Option.bind_eq_some_iff.mpr ⟨_, h.parseOperators_eq (by omega) _ hrest, rfl⟩
  have hexpand : expandAll (.token t :: f) ++ rest = .token t :: (expandAll f ++ rest) := rfl
  rw [hexpand, parseOperators, hoperand]
  exact parseMore_of_operator?_eq_none hrest (by omega) _ _

/-- The right operand of an operator is read, and nothing else follows. -/
theorem parseMore_operator {cs : List Chunk} {op : BinaryOp} (hop : operator? cs = some op)
    (hright : (if op = .isIn then parseGroup s n true cs.tail
      else parseOperators s n listed (s.next op) cs.tail) = some (y, rest))
    (hrest : operator? rest = none) (hn : n ≠ 0) :
    parseMore s (n + 1) listed 0 x cs = some (.binary op x y, rest) := by
  rw [parseMore, hop]
  dsimp only
  -- Behind the right operand nothing goes on, and nothing clashes.
  have hmore : (if s.clashes op rest then none
      else parseMore s n listed 0 (.binary op x y) rest) = some (.binary op x y, rest) := by
    rw [clashes_eq_false hrest, if_neg Bool.false_ne_true]
    exact parseMore_of_operator?_eq_none hrest hn _ _
  rw [if_neg (Nat.not_lt_zero _)]
  by_cases hin : op = .isIn
  · rw [if_pos hin] at hright ⊢
    exact Option.bind_eq_some_iff.mpr ⟨_, hright, hmore⟩
  · rw [if_neg hin] at hright ⊢
    exact Option.bind_eq_some_iff.mpr ⟨_, hright, hmore⟩

/-- An operator between two operands. -/
theorem ReadsOperand.binary (h : ReadsOperand s listed f x) (h' : ReadsOperand s listed g y)
    {op : BinaryOp} (hcomma : op ≠ .comma) (hin : op ≠ .isIn) :
    ReadsSentence s listed (f ++ [op.chunk] ++ g) (.binary op x y) := by
  intro n rest hn hrest
  have hchunk : expandAll [op.chunk] = [op.chunk] := by cases op <;> rfl
  have hdepth : (f ++ [op.chunk] ++ g).depth = f.depth + 8 + g.depth := by
    rw [Fragment.depth_append, Fragment.depth_append, Fragment.depth, Fragment.depth, hchunk]
    rfl
  have hexpand : expandAll (f ++ [op.chunk] ++ g) ++ rest =
      expandAll f ++ (op.chunk :: (expandAll g ++ rest)) := by
    rw [expandAll_append, expandAll_append, hchunk, List.append_assoc, List.append_assoc]
    rfl
  obtain ⟨n, rfl⟩ : ∃ m, n = m + 1 + 1 := ⟨n - 2, by omega⟩
  have hoperator : operator? (op.chunk :: (expandAll g ++ rest)) = some op :=
    between?_chunk hcomma
  rw [hexpand, parseOperators, h _ _ (by omega)]
  refine parseMore_operator hoperator ?_ hrest (by omega)
  rw [if_neg hin]
  exact h'.parseOperators_eq (by omega) _ hrest

/-- An operand in a list. -/
theorem ReadsOperand.isIn (h : ReadsOperand s listed f x) (h' : ReadsItems s true g ys) :
    ReadsSentence s listed (f ++ [.token .in_] ++ g.parens) (.binary .isIn x (.ofItems ys)) := by
  intro n rest hn hrest
  have hexpand : expandAll (f ++ [.token .in_] ++ g.parens) ++ rest =
      expandAll f ++ (.token .in_ :: (expandAll g.parens ++ rest)) := by
    rw [expandAll_append, expandAll_append, List.append_assoc, List.append_assoc]
    rfl
  simp only [Fragment.depth_append, Fragment.depth_token, Fragment.depth_parens] at hn
  obtain ⟨n, rfl⟩ : ∃ m, n = m + 1 + 1 := ⟨n - 2, by omega⟩
  have hgroup : parseGroup s n true (expandAll g.parens ++ rest) = some (.ofItems ys, rest) :=
    h'.parseGroup_eq (by omega) rest
  have hoperator : operator? (.token .in_ :: (expandAll g.parens ++ rest)) = some .isIn := rfl
  rw [hexpand, parseOperators, h (n + 1) _ (by omega)]
  exact parseMore_operator hoperator hgroup hrest (by omega)

/-- An operand in a list parameter. -/
theorem ReadsOperand.inList (h : ReadsOperand s listed f x) (id : ParamId) :
    ReadsSentence s listed [.inList f id] (.binary .isIn x (.param id)) := by
  have hparam : ReadsItems s true [.param id] [.param id] :=
    (readsOperand_param id).readsSentence.readsItems
  -- The chunk stands for the same list written out.
  have hexpand : expandAll [.inList f id] =
      expandAll (f ++ [.token .in_] ++ Fragment.parens [.param id]) := by
    rw [expandAll_append, expandAll_append, List.append_assoc]
    exact List.append_nil _
  intro n rest hn hrest
  rw [Fragment.depth, hexpand] at hn
  rw [hexpand]
  exact h.isIn hparam n rest hn hrest

/-! ### Cases -/

/-- The fragment is the branches of a case, before its `ELSE`. -/
def ReadsBranches (s : Strengths) (listed : Bool) (f : Fragment)
    (branches : List (Sentence × Sentence)) : Prop :=
  ∀ n rest, f.depth < n → parseBranches s n listed (expandAll f ++ .token .else_ :: rest) =
    some (branches, .token .else_ :: rest)

/-- The chunks of a branch. -/
def whenThen (test value : Fragment) : Fragment :=
  [.token .when] ++ test ++ [.token .then_] ++ value

theorem depth_whenThen (test value : Fragment) :
    (whenThen test value).depth = test.depth + value.depth + 16 := by
  simp only [whenThen, Fragment.depth_append, Fragment.depth_token]
  omega

theorem expandAll_whenThen (test value : Fragment) (rest : List Chunk) :
    expandAll (whenThen test value) ++ rest =
      .token .when :: (expandAll test ++ .token .then_ :: (expandAll value ++ rest)) := by
  rw [whenThen, expandAll_append, expandAll_append, expandAll_append]
  simp only [List.append_assoc]
  rfl

/-- The first branch is read, and then the other ones if there are any. -/
theorem parseBranches_whenThen (h : ReadsItems s listed f xs) (h' : ReadsItems s listed g ys)
    (hn : (whenThen f g).depth ≤ n) (hrest : endsList rest) :
    parseBranches s (n + 1) listed (expandAll (whenThen f g) ++ rest) =
      (if startsWith .when rest then parseBranches s n listed rest else some ([], rest)).map
        fun p => ((.ofItems xs, .ofItems ys) :: p.1, p.2) := by
  rw [depth_whenThen] at hn
  have htest : parseList s n listed (expandAll f ++ .token .then_ :: (expandAll g ++ rest)) =
      some (.ofItems xs, .token .then_ :: (expandAll g ++ rest)) := h.parseList_eq (by omega) rfl
  have hvalue : parseList s n listed (expandAll g ++ rest) = some (.ofItems ys, rest) :=
    h'.parseList_eq (by omega) hrest
  rw [expandAll_whenThen, parseBranches]
  simp only [Option.bind_eq_bind, skip_cons, Option.bind_some, htest, hvalue]
  split
  · cases parseBranches s n listed rest <;> rfl
  · rfl

theorem ReadsItems.branch (h : ReadsItems s listed f xs) (h' : ReadsItems s listed g ys) :
    ReadsBranches s listed (whenThen f g) [(.ofItems xs, .ofItems ys)] := by
  intro n rest hn
  obtain ⟨n, rfl⟩ := Nat.exists_eq_add_one_of_ne_zero (Nat.ne_zero_of_lt hn)
  rw [parseBranches_whenThen h h' (Nat.le_of_lt_succ hn) rfl]
  rfl

theorem ReadsBranches.startsWith_when {branches : List (Sentence × Sentence)}
    (h : ReadsBranches s listed f branches) (rest : List Chunk) :
    startsWith .when (expandAll f ++ .token .else_ :: rest) := by
  by_contra hstarts
  -- The parser of branches wants a `WHEN` first.
  have hbranches := h (f.depth + 1) rest (Nat.lt_succ_self _)
  rw [parseBranches, skip, if_neg hstarts] at hbranches
  cases hbranches

theorem ReadsBranches.cons {test value : Fragment} {branches : List (Sentence × Sentence)}
    (h : ReadsItems s listed test xs) (h' : ReadsItems s listed value ys)
    (hf : ReadsBranches s listed f branches) :
    ReadsBranches s listed (whenThen test value ++ f)
      ((.ofItems xs, .ofItems ys) :: branches) := by
  intro n rest hn
  have hstarts := hf.startsWith_when rest
  have hends : endsList (expandAll f ++ .token .else_ :: rest) :=
    endsList_of_startsWith (by decide) hstarts
  rw [Fragment.depth_append] at hn
  have hdepth := depth_whenThen test value
  obtain ⟨n, rfl⟩ := Nat.exists_eq_add_one_of_ne_zero (Nat.ne_zero_of_lt hn)
  rw [expandAll_append, List.append_assoc, parseBranches_whenThen h h' (by omega) hends,
    if_pos hstarts, hf n rest (by omega)]
  rfl

/-- The chunks of a case behind its `CASE` and its subject. -/
def arms (branches otherwise : Fragment) : Fragment :=
  branches ++ [.token .else_] ++ otherwise ++ [.token .end_]

theorem depth_arms (branches otherwise : Fragment) :
    (arms branches otherwise).depth = branches.depth + otherwise.depth + 16 := by
  simp only [arms, Fragment.depth_append, Fragment.depth_token]
  omega

theorem expandAll_arms (branches otherwise : Fragment) (rest : List Chunk) :
    expandAll (arms branches otherwise) ++ rest = expandAll branches ++
      .token .else_ :: (expandAll otherwise ++ .token .end_ :: rest) := by
  rw [arms, expandAll_append, expandAll_append, expandAll_append]
  simp only [List.append_assoc]
  rfl

theorem ReadsBranches.parseArms_eq {branches : List (Sentence × Sentence)}
    (h : ReadsBranches s listed f branches) (h' : ReadsItems s listed g ys)
    (hn : (arms f g).depth < n) (subject? : Option Sentence) (rest : List Chunk) :
    parseArms s n listed subject? (expandAll (arms f g) ++ rest) =
      some (.case subject? branches (.ofItems ys), rest) := by
  rw [depth_arms] at hn
  obtain ⟨n, rfl⟩ := Nat.exists_eq_add_one_of_ne_zero (Nat.ne_zero_of_lt hn)
  rw [expandAll_arms, parseArms]
  refine Option.bind_eq_some_iff.mpr ⟨_, h n _ (by omega), ?_⟩
  refine Option.bind_eq_some_iff.mpr ⟨_, skip_cons .., ?_⟩
  refine Option.bind_eq_some_iff.mpr ⟨_, h'.parseList_eq (by omega) rfl, ?_⟩
  exact Option.bind_eq_some_iff.mpr ⟨_, skip_cons .., rfl⟩

theorem parseOperand_case (cs : List Chunk) :
    parseOperand s (n + 1) listed (.token .case :: cs) = parseCase s n listed cs := by
  rw [parseOperand.eq_def]
  rfl

/-- A case is an operand. -/
theorem ReadsBranches.case {branches : List (Sentence × Sentence)}
    (h : ReadsBranches s listed f branches) (h' : ReadsItems s listed g ys) :
    ReadsOperand s listed (.token .case :: arms f g) (.case none branches (.ofItems ys)) := by
  intro n rest hn
  rw [Fragment.depth_cons_token] at hn
  obtain ⟨n, rfl⟩ : ∃ m, n = m + 1 + 1 := ⟨n - 2, by omega⟩
  have hwhen : startsWith .when (expandAll (arms f g) ++ rest) := by
    rw [expandAll_arms]
    exact h.startsWith_when _
  show parseOperand s (n + 1 + 1) listed (.token .case :: (expandAll (arms f g) ++ rest)) = _
  rw [parseOperand_case, parseCase, if_pos hwhen]
  exact h.parseArms_eq h' (by omega) none rest

/-- A case of a subject is an operand. -/
theorem ReadsOperand.caseOf {subject : Fragment} {branches : List (Sentence × Sentence)}
    (hsubject : ReadsOperand s listed subject x) (h : ReadsBranches s listed f branches)
    (h' : ReadsItems s listed g ys) :
    ReadsOperand s listed (.token .case :: (subject ++ arms f g))
      (.case (some x) branches (.ofItems ys)) := by
  intro n rest hn
  rw [Fragment.depth_cons_token, Fragment.depth_append] at hn
  obtain ⟨n, rfl⟩ : ∃ m, n = m + 1 + 1 := ⟨n - 2, by omega⟩
  -- The `WHEN` behind the subject ends it.
  have hend : endsList (expandAll (arms f g) ++ rest) := by
    rw [expandAll_arms]
    exact endsList_of_startsWith (by decide) (h.startsWith_when _)
  have hoperator := operator?_of_endsList hend
  show parseOperand s (n + 1 + 1) listed
    (.token .case :: (expandAll (subject ++ arms f g) ++ rest)) = _
  rw [parseOperand_case, parseCase, expandAll_append, List.append_assoc,
    if_neg (by rw [hsubject.startsWith_eq_false (by decide)]; decide)]
  refine Option.bind_eq_some_iff.mpr ⟨_, hsubject.parseOperators_eq (by omega) 0 hoperator, ?_⟩
  exact h.parseArms_eq h' (by omega) (some x) rest

end

end NestedQuery
