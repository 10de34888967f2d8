import NestedQuery.Proofs.Sql.Grammar

/-!
# Written terms do not rely on precedence

A term that is written over the joined tables is read back as the same tree of operators, whatever
strengths and sides the operators have (`parse_term`). Every operand of an operator is something
that needs no parentheses or has them; an arm of a case, the argument of a function and an item of a
list may be any expression, because what closes them is no operator.

`Term.reading` is the tree that is read. It is the term, except that nested commas are one list, a
function of a column is a call, and a count of row numbers is one of distinct values.
-/

namespace NestedQuery

/-! ### Readings -/

/-- What a leaf is read as. -/
def Cell.reading : Cell → Sentence
  | .param id => .param id
  | .column c _ none _ => .column c.tableAlias c.column
  | .column c _ (some function) _ =>
    .call function.sqlName false (.column c.tableAlias c.column)

mutual

/-- What a term is read as. -/
def Term.reading : Term → Sentence
  | .leaf a => a.reading
  | .binary .comma left right =>
    .list ((Term.reading left).items ++ (Term.reading right).items)
  | .binary op left right => .binary op (Term.reading left) (Term.reading right)
  | .wrap .not operand => .unary .not (Term.reading operand)
  | .wrap .negate operand => .unary .negate (Term.reading operand)
  | .wrap (.aggregate function) operand =>
    .call function.sqlName (function = .count ∧ Term.isRowId operand) (Term.reading operand)
  | .wrap (.apply function) operand => .call function.sqlName false (Term.reading operand)
  | .cases branches otherwise =>
    .case none (Term.readingBranches branches) (Term.reading otherwise)
  | .casesOf subject branches otherwise =>
    .case (some (Term.reading subject)) (Term.readingBranches branches) (Term.reading otherwise)

/-- What the branches of a case are read as. -/
def Term.readingBranches : List (Term × Term) → List (Sentence × Sentence)
  | [] => []
  | (test, value) :: rest =>
    (Term.reading test, Term.reading value) :: Term.readingBranches rest

end

mutual

/-- Whether every case has a branch, and commas stand only inside the list of a membership test.
`listed` says that the whole term stands there. -/
def Term.isExpression (listed : Bool) : Term → Bool
  | .leaf _ => true
  | .binary .comma left right =>
    listed && (Term.isExpression listed left && Term.isExpression listed right)
  | .binary .isIn left right => Term.isExpression listed left && Term.isExpression true right
  | .binary _ left right => Term.isExpression listed left && Term.isExpression listed right
  | .wrap _ operand => Term.isExpression listed operand
  | .cases branches otherwise =>
    !branches.isEmpty && (Term.areExpressions listed branches && Term.isExpression listed otherwise)
  | .casesOf subject branches otherwise =>
    !branches.isEmpty && (Term.isExpression listed subject &&
      (Term.areExpressions listed branches && Term.isExpression listed otherwise))

/-- Whether the same holds in all branches of a case. -/
def Term.areExpressions (listed : Bool) : List (Term × Term) → Bool
  | [] => true
  | (test, value) :: rest =>
    Term.isExpression listed test && (Term.isExpression listed value &&
      Term.areExpressions listed rest)

end

namespace Term

theorem items_reading_ne_nil : (t : Term) → (Term.reading t).items ≠ []
  | .leaf (.param _) => List.cons_ne_nil _ _
  | .leaf (.column _ _ none _) => List.cons_ne_nil _ _
  | .leaf (.column _ _ (some _) _) => List.cons_ne_nil _ _
  | .binary op left right => by
    cases op with
    | comma =>
      rw [Term.reading]
      exact List.append_ne_nil_of_left_ne_nil (items_reading_ne_nil left) _
    | _ => exact List.cons_ne_nil _ _
  | .wrap op operand => by
    cases op <;> exact List.cons_ne_nil _ _
  | .cases _ _ => by
    rw [Term.reading]
    exact List.cons_ne_nil _ _
  | .casesOf _ _ _ => by
    rw [Term.reading]
    exact List.cons_ne_nil _ _

end Term

theorem Sentence.ofItems_append {xs ys : List Sentence} (hx : xs ≠ []) (hy : ys ≠ []) :
    ofItems (xs ++ ys) = list (xs ++ ys) := by
  obtain ⟨x, xs, rfl⟩ := List.exists_cons_of_ne_nil hx
  obtain ⟨y, ys, rfl⟩ := List.exists_cons_of_ne_nil hy
  cases xs <;> rfl

/-! ### Written terms -/

/-- How a written term is read: as a list, and as an operand if it needs no parentheses. -/
structure Term.ReadsBack (s : Strengths) (w : TermWriter) (listed : Bool) (t : Term) : Prop where
  /-- As a list. -/
  items : ReadsItems s listed (w.term t) (Term.reading t).items
  /-- A list of one item is this item. -/
  ofItems : Sentence.ofItems (Term.reading t).items = Term.reading t
  /-- As an operand. -/
  operand : Term.isComposite t = false → ReadsOperand s listed (w.term t) (Term.reading t)

namespace Term.ReadsBack

variable {s : Strengths} {w : TermWriter} {listed : Bool} {t : Term}

theorem of_operand (h : ReadsOperand s listed (w.term t) (Term.reading t))
    (hitems : (Term.reading t).items = [Term.reading t]) : Term.ReadsBack s w listed t := by
  refine ⟨?_, ?_, fun _ => h⟩
  · rw [hitems]
    exact h.readsSentence.readsItems
  · rw [hitems]
    rfl

theorem of_sentence (h : ReadsSentence s listed (w.term t) (Term.reading t))
    (hitems : (Term.reading t).items = [Term.reading t]) (ht : Term.isComposite t) :
    Term.ReadsBack s w listed t := by
  refine ⟨?_, ?_, fun hnot => absurd ht (Bool.eq_false_iff.mp hnot)⟩
  · rw [hitems]
    exact h.readsItems
  · rw [hitems]
    rfl

/-- As an operand of an operator, the term has the parentheses that it needs. -/
theorem asOperand (h : Term.ReadsBack s w listed t) :
    ReadsOperand s listed (TermWriter.asOperand t (w.term t)) (Term.reading t) := by
  unfold TermWriter.asOperand
  by_cases ht : Term.isComposite t
  · rw [if_pos ht]
    have hparens := h.items.parens
    rwa [h.ofItems] at hparens
  · rw [if_neg ht]
    exact h.operand (Bool.eq_false_iff.mpr ht)

theorem call (h : Term.ReadsBack s w listed t) (name : String) (distinct : Bool) :
    ReadsOperand s listed (Fragment.call name (argument distinct (w.term t)))
      (.call name distinct (Term.reading t)) := by
  have hcall := h.items.call name distinct
  rwa [h.ofItems] at hcall

end Term.ReadsBack

namespace TermWriter

variable {s : Strengths} {w : TermWriter} {listed : Bool}

theorem readsOperand_column (hflat : w.markers? = none) (c : ColumnRef) :
    ReadsOperand s listed (w.column c) (.column c.tableAlias c.column) := by
  rw [column, hflat]
  exact readsOperand_qualified _ _

theorem readsOperand_leaf (hflat : w.markers? = none) (a : Cell) :
    ReadsOperand s listed (w.leaf a) a.reading := by
  cases a with
  | param id => exact readsOperand_param id
  | column c r function type =>
    have hcolumn : ReadsOperand s listed (w.column c) (.column c.tableAlias c.column) :=
      readsOperand_column hflat c
    cases function with
    | none => exact hcolumn
    | some function => exact hcolumn.readsSentence.readsItems.call function.sqlName false

/-- Over the joined tables, an aggregate is a call. -/
theorem aggregate_eq_call (hflat : w.markers? = none) (hplain : w.engine.totalType? = none)
    (function : Aggregate) (operand : Term) (value : Fragment) :
    w.aggregate function operand value = Fragment.call function.sqlName
      (argument (function = .count ∧ Term.isRowId operand) value) := by
  have hcall : ∀ function distinct, w.engine.aggregate function value distinct =
      Fragment.call function.sqlName (argument distinct value) := by
    intro function distinct
    unfold Engine.aggregate
    rw [hplain]
    rfl
  rw [aggregate, hflat]
  by_cases hcount : function = .count ∧ Term.isRowId operand
  · rw [if_pos hcount, hcall, decide_eq_true hcount, hcount.1]
  · rw [if_neg hcount, if_neg fun h => Bool.false_ne_true h.1, hcall, decide_eq_false hcount]

/-- A test is written with `IN`, in one chunk if the list is a parameter. -/
theorem readsSentence_membership {subject : Fragment} {x : Sentence} {list : Term}
    (h : ReadsOperand s listed subject x) (h' : Term.ReadsBack s w true list) :
    ReadsSentence s listed (w.membership subject list (w.term list))
      (.binary .isIn x (Term.reading list)) := by
  have hin := h.isIn h'.items
  rw [h'.ofItems] at hin
  unfold membership
  split
  · split
    · exact h.inList _
    · exact hin
  · exact hin

mutual

/-- **Every term is read back.** -/
theorem readsBack (s : Strengths) (hflat : w.markers? = none)
    (hplain : w.engine.totalType? = none) :
    (t : Term) → {listed : Bool} → Term.isExpression listed t → Term.ReadsBack s w listed t
  | .leaf a, _, _ => by
    refine .of_operand ?_ ?_
    · rw [term]
      exact readsOperand_leaf hflat a
    · cases a with
      | param id => rfl
      | column c r function type => cases function <;> rfl
  | .binary op left right, listed, ht => by
    cases op with
    | isIn =>
      rw [Term.isExpression, Bool.and_eq_true] at ht
      have hl := (readsBack s hflat hplain left ht.1).asOperand
      have hr := readsBack s hflat hplain right ht.2
      refine .of_sentence ?_ rfl rfl
      rw [term]
      exact readsSentence_membership hl hr
    | comma =>
      rw [Term.isExpression, Bool.and_eq_true, Bool.and_eq_true] at ht
      obtain ⟨rfl, hl, hr⟩ := ht
      have hl := readsBack s hflat hplain left hl
      have hr := readsBack s hflat hplain right hr
      -- Two lists with a comma between are one list, of at least two items.
      refine ⟨?_, ?_, fun hleaf => absurd rfl (Bool.eq_false_iff.mp hleaf)⟩
      · rw [term, Term.reading]
        exact hl.items.comma hr.items
      · rw [Term.reading]
        exact Sentence.ofItems_append (Term.items_reading_ne_nil left)
          (Term.items_reading_ne_nil right)
    | _ =>
      have ht : Term.isExpression listed left && Term.isExpression listed right := ht
      rw [Bool.and_eq_true] at ht
      -- Both sides have the parentheses that they need, so no strength is compared.
      have hl := (readsBack s hflat hplain left ht.1).asOperand
      have hr := (readsBack s hflat hplain right ht.2).asOperand
      exact .of_sentence (hl.binary hr (by decide) (by decide)) rfl rfl
  | .wrap op operand, listed, ht => by
    rw [Term.isExpression] at ht
    have hoperand := readsBack s hflat hplain operand ht
    cases op with
    | not => exact .of_sentence (hoperand.asOperand.unary rfl) rfl rfl
    | negate => exact .of_sentence (hoperand.asOperand.unary rfl) rfl rfl
    | aggregate function =>
      refine .of_operand ?_ rfl
      rw [term, aggregate_eq_call hflat hplain]
      exact hoperand.call function.sqlName _
    | apply function => exact .of_operand (hoperand.call function.sqlName false) rfl
  | .cases bs otherwise, listed, ht => by
    rw [Term.isExpression, Bool.and_eq_true, Bool.and_eq_true] at ht
    obtain ⟨hne, hbs, hotherwise⟩ := ht
    -- The arms have no parentheses; what closes them is no operator.
    have hbs := readsBranches s hflat hplain bs hbs hne
    have hotherwise := readsBack s hflat hplain otherwise hotherwise
    have hcase := hbs.case hotherwise.items
    rw [hotherwise.ofItems] at hcase
    refine .of_operand ?_ ?_
    · rw [term, Term.reading]
      simpa [arms] using hcase
    · rw [Term.reading]
      rfl
  | .casesOf subject bs otherwise, listed, ht => by
    rw [Term.isExpression, Bool.and_eq_true, Bool.and_eq_true, Bool.and_eq_true] at ht
    obtain ⟨hne, hsubject, hbs, hotherwise⟩ := ht
    have hsubject := (readsBack s hflat hplain subject hsubject).asOperand
    have hbs := readsBranches s hflat hplain bs hbs hne
    have hotherwise := readsBack s hflat hplain otherwise hotherwise
    have hcase := hsubject.caseOf hbs hotherwise.items
    rw [hotherwise.ofItems] at hcase
    refine .of_operand ?_ ?_
    · rw [term, Term.reading]
      simpa [arms] using hcase
    · rw [Term.reading]
      rfl

theorem readsBranches (s : Strengths) (hflat : w.markers? = none)
    (hplain : w.engine.totalType? = none) :
    (bs : List (Term × Term)) → {listed : Bool} → Term.areExpressions listed bs →
      !bs.isEmpty → ReadsBranches s listed (w.branches bs) (Term.readingBranches bs)
  | (test, value) :: rest, listed, hbs, _ => by
    rw [Term.areExpressions, Bool.and_eq_true, Bool.and_eq_true] at hbs
    have htest := readsBack s hflat hplain test hbs.1
    have hvalue := readsBack s hflat hplain value hbs.2.1
    rw [branches, Term.readingBranches]
    cases hrest : rest with
    | nil =>
      have hbranch := htest.items.branch hvalue.items
      rw [htest.ofItems, hvalue.ofItems] at hbranch
      rw [branches, List.append_nil, Term.readingBranches]
      exact hbranch
    | cons b bs =>
      have hmore := readsBranches s hflat hplain rest hbs.2.2 (hrest ▸ rfl)
      have hbranch := hmore.cons htest.items hvalue.items
      rw [htest.ofItems, hvalue.ofItems, hrest] at hbranch
      exact hbranch

end

end TermWriter

/-- **Terms do not rely on precedence.** Over the joined tables, on an engine that casts nothing,
the chunks of a term are parsed as the term, however tightly each operator binds and to whichever
side it groups. -/
theorem parse_term (s : Strengths) {w : TermWriter} (hflat : w.markers? = none)
    (hplain : w.engine.totalType? = none) {t : Term} (ht : Term.isExpression false t) :
    parse s (w.term t) = some (Term.reading t) := by
  have hback := TermWriter.readsBack s hflat hplain t ht
  rw [hback.items.parse_eq, hback.ofItems]

/-- The strengths of the operators in expressions, turned around; signs bind least. -/
def backwards : Strengths where
  binary op := 6 - op.precedence
  side _ := .right
  unary _ := 0

/-- A column of the primary table. -/
def primaryColumn (name : String) : Term :=
  .leaf (.column ⟨0, "t0", name⟩ ⟨0, "t0", rowIdColumn⟩ none .integer)

/-- The test whether `(id + ?) * -id` is a parameter or the number of rows. -/
def productTest : Term :=
  .binary .isIn
    (.binary .mul (.binary .add (primaryColumn "id") (.leaf (.param 0)))
      (.wrap .negate (primaryColumn "id")))
    (.binary .comma (.leaf (.param 1)) (.wrap (.aggregate .count) (primaryColumn rowIdColumn)))

/-- The product and its sum are read as they are written, although sums bind tighter. -/
theorem parse_term_productTest :
    (TermWriter.mk (.ansi) {} none).markers? = none ∧
      (TermWriter.mk (.ansi) {} none).engine.totalType? = none ∧
      Term.isExpression false productTest ∧
      parse backwards ((TermWriter.mk (.ansi) {} none).term productTest) =
        some (.binary .isIn
          (.binary .mul (.binary .add (.column "t0" "id") (.param 0))
            (.unary .negate (.column "t0" "id")))
          (.list [.param 1, .call "COUNT" true (.column "t0" "##rowid")])) :=
  ⟨rfl, rfl, by decide, parse_term backwards rfl rfl (by decide)⟩

end NestedQuery
