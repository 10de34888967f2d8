import NestedQuery.Proofs.Accumulator.Views
import NestedQuery.Select.Term

/-!
# Properties of written terms

What is true of the chunks of a term and kept by the ways of putting fragments together is true of
the whole term. `Fragment.Closed P` says so of a property `P`: it lists the chunks that terms are
written with and the few ways in which their parts are joined. If `P` also holds of the type and of
the markers that a writer adds (`TermWriter.Keeps`), it holds of every written term whose columns
have it (`TermWriter.Keeps.term`).
-/

namespace NestedQuery

/-! ### The chunks of terms -/

/-- The keywords and marks that stand inside terms, apart from parentheses, points and signs. -/
def innerTokens : List Token :=
  [.comma, .case, .when, .then_, .else_, .end_, .not, .in_, .distinct, .as_]

/-- The operators that are written as bare text. -/
def operatorTexts : List String :=
  ["+", "-", "*", "/", "%", "=", "<>", "<", "<=", ">", ">=", "AND", "OR"]

/-- The functions that statements call. -/
def functionNames : List String :=
  ["COUNT", "SUM", "AVG", "MIN", "MAX", "UPPER", "LOWER", "LENGTH", "ABS", "CAST", "ROW_NUMBER"]

/-- Whether a chunk is a keyword, an operator or a value of a term. -/
def Chunk.isInner : Chunk → Bool
  | .token t => innerTokens.contains t
  | .raw text => operatorTexts.contains text
  | .number _ | .param _ => true
  | _ => false

theorem BinaryOp.isInner_chunk (op : BinaryOp) : op.chunk.isInner := by
  cases op <;> decide

theorem Aggregate.sqlName_mem_functionNames (f : Aggregate) : f.sqlName ∈ functionNames := by
  cases f <;> decide

theorem Function.sqlName_mem_functionNames (f : Function) : f.sqlName ∈ functionNames := by
  cases f <;> decide

/-- Whether a fragment starts as an operand does: with a name, a parameter, a function, a
parenthesis or a case. -/
def Fragment.startsOperand : Fragment → Bool
  | .ident _ :: _ | .param _ :: _ | .function _ :: _ => true
  | .token .openParen :: _ | .token .case :: _ => true
  | _ => false

/-- The first chunk decides how a fragment starts. -/
theorem Fragment.startsOperand_cons (c : Chunk) (f : Fragment) :
    startsOperand (c :: f) = startsOperand [c] := by
  cases c with
  | token t => cases t <;> rfl
  | _ => rfl

mutual

/-- A chunk with its subject and its list written out, the list as a single parameter. -/
def Chunk.expand : Chunk → List Chunk
  | .inList subject id =>
    expandAll subject ++ [.token .in_, .token .openParen, .param id, .token .closeParen]
  | c => [c]

/-- Chunks with their subjects and lists written out. -/
def expandAll : List Chunk → List Chunk
  | [] => []
  | c :: rest => c.expand ++ expandAll rest

end

theorem expandAll_append (f g : List Chunk) : expandAll (f ++ g) = expandAll f ++ expandAll g := by
  induction f with
  | nil => rfl
  | cons c f ih => rw [List.cons_append, expandAll, ih, expandAll, List.append_assoc]

/-! ### Closed properties -/

/-- A property of fragments that holds of the chunks of terms, columns apart, and is kept by the
ways of putting them together. -/
structure Fragment.Closed (P : Fragment → Prop) : Prop where
  /-- Of no chunks. -/
  nil : P []
  /-- Of fragments side by side. -/
  append {f g : Fragment} : P f → P g → P (f ++ g)
  /-- Of a keyword, an operator or a value. -/
  chunk {c : Chunk} : c.isInner → P [c]
  /-- Of a sign before an operand. -/
  minus {f : Fragment} : f.startsOperand → P f → P (.token .minus :: f)
  /-- Of a fragment between parentheses. -/
  parens {f : Fragment} : P f → P f.parens
  /-- Of the arguments of a function. -/
  function {name : String} {f : Fragment} :
    name ∈ functionNames → P f → P (.function name :: f.parens)
  /-- Of the subject of a test in a list parameter. -/
  inList {f : Fragment} (id : ParamId) : P f → P [.inList f id]

namespace Fragment.Closed

variable {P : Fragment → Prop}

theorem cons (hP : Closed P) {c : Chunk} (hc : c.isInner) {f : Fragment} (hf : P f) :
    P (c :: f) :=
  hP.append (hP.chunk hc) hf

theorem call (hP : Closed P) {name : String} (hname : name ∈ functionNames) {f : Fragment}
    (hf : P f) : P (Fragment.call name f) := by
  refine hP.function hname ?_
  split
  · exact hP.parens hf
  · exact hf

theorem joined (hP : Closed P) {fs : List Fragment} (hfs : ∀ f ∈ fs, P f) :
    P (Fragment.joined fs .comma) := by
  have hcomma : P [.token .comma] := hP.chunk rfl
  rw [Fragment.joined]
  induction fs with
  | nil => exact hP.nil
  | cons f fs ih =>
    have hf := hfs f (List.mem_cons_self ..)
    have hrest := ih fun g hg => hfs g (List.mem_cons_of_mem f hg)
    cases fs with
    | nil => rwa [List.intercalate_singleton]
    | cons g fs =>
      rw [List.intercalate_cons_cons]
      exact hP.append (hP.append hf hcomma) hrest

/-- What limits the rows is a text with a number, or two. -/
theorem paging (hP : Closed P) (hclause : ∀ text n, P [.raw text, .number n]) (engine : Engine)
    (skip? take? : Option Nat) : P ((engine.paging skip? take?).getD []) := by
  cases skip? with
  | none =>
    cases take? with
    | none => exact hP.nil
    | some take => exact hclause "LIMIT" take
  | some skip =>
    cases take? with
    | none => exact hclause engine.skipAlone skip
    | some take => exact hP.append (hclause "LIMIT" take) (hclause "OFFSET" skip)

end Fragment.Closed

/-! ### Operands -/

/-- An aggregate is a call, which may be cast. -/
theorem Engine.aggregate_eq (e : Engine) (function : Aggregate) (operand : Fragment)
    (distinct : Bool) :
    let call := Fragment.call function.sqlName
      (if distinct then .token .distinct :: operand else operand)
    e.aggregate function operand distinct = call ∨ ∃ type ∈ e.totalType?,
      e.aggregate function operand distinct =
        Fragment.call "CAST" (call ++ [.token .as_, .raw type]) := by
  unfold Engine.aggregate
  simp only
  split
  · next type heq => exact Or.inr ⟨type, heq, rfl⟩
  · next type heq => exact Or.inr ⟨type, heq, rfl⟩
  · exact Or.inl rfl

/-- An aggregate is applied to the written operand, or to what a marker leaves of it. -/
theorem TermWriter.aggregate_eq (w : TermWriter) (function : Aggregate) (operand : Term)
    (value : Fragment) :
    ∃ f argument distinct, w.aggregate function operand value =
        w.engine.aggregate f argument distinct ∧
      (argument = value ∨ ∃ m ∈ w.markers?.getD [], argument = marked m value) := by
  unfold aggregate
  split
  · exact ⟨.count, value, true, rfl, Or.inl rfl⟩
  · split
    · split
      · next m hm =>
        exact ⟨function, _, false, rfl, Or.inr ⟨m, List.mem_of_find?_eq_some hm, rfl⟩⟩
      · exact ⟨function, value, false, rfl, Or.inl rfl⟩
    · exact ⟨function, value, false, rfl, Or.inl rfl⟩

namespace Fragment

/-- Written aggregates start with a function. -/
theorem startsOperand_aggregate (e : Engine) (function : Aggregate) (operand : Fragment)
    (distinct : Bool) : startsOperand (e.aggregate function operand distinct) := by
  rcases e.aggregate_eq function operand distinct with h | ⟨type, -, h⟩ <;> rw [h] <;> rfl

theorem startsOperand_column (w : TermWriter) (c : ColumnRef) : startsOperand (w.column c) := by
  unfold TermWriter.column
  split <;> rfl

/-- A term that needs no parentheses starts as operands do. -/
theorem startsOperand_term (w : TermWriter) {t : Term} (ht : Term.isComposite t = false) :
    startsOperand (w.term t) := by
  cases t with
  | leaf a =>
    rw [TermWriter.term]
    cases a with
    | param id => rfl
    | column c r function type =>
      cases function with
      | none => exact startsOperand_column w c
      | some f => rfl
  | binary op left right => exact absurd ht nofun
  | wrap op operand =>
    cases op with
    | not => exact absurd ht nofun
    | negate => exact absurd ht nofun
    | aggregate function =>
      rw [TermWriter.term]
      obtain ⟨f, argument, distinct, h, -⟩ := w.aggregate_eq function operand (w.term operand)
      rw [h]
      exact startsOperand_aggregate ..
    | apply function =>
      rw [TermWriter.term]
      rfl
  | cases branches otherwise =>
    rw [TermWriter.term]
    rfl
  | casesOf subject branches otherwise =>
    rw [TermWriter.term]
    rfl

/-- Every operand starts as operands do, because the other ones get parentheses. -/
theorem startsOperand_asOperand (w : TermWriter) (t : Term) :
    startsOperand (TermWriter.asOperand t (w.term t)) := by
  unfold TermWriter.asOperand
  by_cases ht : Term.isComposite t
  · rw [if_pos ht]
    rfl
  · rw [if_neg ht]
    exact startsOperand_term w (Bool.eq_false_iff.mpr ht)

end Fragment

/-! ### Terms -/

open Fragment

namespace Fragment.Closed

variable {P : Fragment → Prop}

theorem leaf (hP : Closed P) (w : TermWriter) {a : Cell}
    (hcolumn : ∀ c ∈ a.column?, P (w.column c)) : P (w.leaf a) := by
  cases a with
  | param id => exact hP.chunk rfl
  | column c r function type =>
    have hc : P (w.column c) := hcolumn c rfl
    cases function with
    | none => exact hc
    | some f => exact hP.call f.sqlName_mem_functionNames hc

theorem asOperand (hP : Closed P) (t : Term) {f : Fragment} (hf : P f) :
    P (TermWriter.asOperand t f) := by
  unfold TermWriter.asOperand
  split
  · exact hP.parens hf
  · exact hf

theorem membership (hP : Closed P) (w : TermWriter) {subject written : Fragment} (list : Term)
    (hs : P subject) (hf : P written) : P (w.membership subject list written) := by
  have hin : P (subject ++ [.token .in_] ++ written.parens) :=
    hP.append (hP.append hs (hP.chunk rfl)) (hP.parens hf)
  unfold TermWriter.membership
  split
  · split
    · exact hP.inList _ hs
    · exact hin
  · exact hin

theorem case (hP : Closed P) {branches otherwise : Fragment} (hbranches : P branches)
    (hotherwise : P otherwise) : P ([.token .case] ++ branches ++ [.token .else_] ++ otherwise
      ++ [.token .end_]) := by
  have hcase := hP.append (hP.chunk (c := .token .case) rfl) hbranches
  have helse := hP.append hcase (hP.chunk (c := .token .else_) rfl)
  exact hP.append (hP.append helse hotherwise) (hP.chunk rfl)

section

variable {w : TermWriter} {L : Cell × Bool → Prop}

mutual

/-- **A closed property** holds of a written term if it holds of the leaves outside aggregates and
of the aggregates. `L` is what is known of the leaves; an aggregate may use that its operand has
the property, if this follows from `L` too. -/
theorem term_of_visit (hP : Closed P) (hleaf : ∀ a, L (a, false) → P (w.leaf a))
    (haggregate : ∀ function operand, (∀ x ∈ operand.visitFrom true, L x) →
      ((∀ x ∈ operand.visit, L x) → P (w.term operand)) →
      P (w.aggregate function operand (w.term operand))) :
    (t : Term) → (∀ x ∈ t.visit, L x) → P (w.term t)
  | .leaf a, hvisit => by
    rw [TermWriter.term]
    exact hleaf a (hvisit (a, false) (List.mem_singleton.mpr rfl))
  | .binary op left right, hvisit => by
    rw [Accumulator.visit, Accumulator.visitFrom, List.forall_mem_append] at hvisit
    have hl := term_of_visit hP hleaf haggregate left hvisit.1
    have hr := term_of_visit hP hleaf haggregate right hvisit.2
    cases op with
    | isIn =>
      rw [TermWriter.term]
      exact hP.membership w right (hP.asOperand left hl) hr
    | comma =>
      rw [TermWriter.term]
      exact hP.append (hP.append hl (hP.chunk rfl)) hr
    | _ =>
      exact hP.append (hP.append (hP.asOperand left hl) (hP.chunk (BinaryOp.isInner_chunk _)))
        (hP.asOperand right hr)
  | .wrap .not operand, hvisit => by
    rw [Accumulator.visit, Accumulator.visitFrom] at hvisit
    rw [TermWriter.term]
    exact hP.cons rfl (hP.asOperand operand (term_of_visit hP hleaf haggregate operand hvisit))
  | .wrap .negate operand, hvisit => by
    rw [Accumulator.visit, Accumulator.visitFrom] at hvisit
    rw [TermWriter.term]
    exact hP.minus (startsOperand_asOperand w operand)
      (hP.asOperand operand (term_of_visit hP hleaf haggregate operand hvisit))
  | .wrap (.aggregate function) operand, hvisit => by
    rw [Accumulator.visit, Accumulator.visitFrom] at hvisit
    rw [TermWriter.term]
    exact haggregate function operand hvisit (term_of_visit hP hleaf haggregate operand)
  | .wrap (.apply function) operand, hvisit => by
    rw [Accumulator.visit, Accumulator.visitFrom] at hvisit
    rw [TermWriter.term]
    exact hP.call function.sqlName_mem_functionNames
      (term_of_visit hP hleaf haggregate operand hvisit)
  | .cases bs otherwise, hvisit => by
    rw [Accumulator.visit, Accumulator.visitFrom, List.forall_mem_append] at hvisit
    rw [TermWriter.term]
    exact hP.case (branches_of_visit hP hleaf haggregate bs hvisit.1)
      (term_of_visit hP hleaf haggregate otherwise hvisit.2)
  | .casesOf subject bs otherwise, hvisit => by
    rw [Accumulator.visit, Accumulator.visitFrom, List.forall_mem_append,
      List.forall_mem_append] at hvisit
    rw [TermWriter.term, List.append_assoc [_]]
    have hsubject := hP.asOperand subject (term_of_visit hP hleaf haggregate subject hvisit.1)
    exact hP.case (hP.append hsubject (branches_of_visit hP hleaf haggregate bs hvisit.2.1))
      (term_of_visit hP hleaf haggregate otherwise hvisit.2.2)

theorem branches_of_visit (hP : Closed P) (hleaf : ∀ a, L (a, false) → P (w.leaf a))
    (haggregate : ∀ function operand, (∀ x ∈ operand.visitFrom true, L x) →
      ((∀ x ∈ operand.visit, L x) → P (w.term operand)) →
      P (w.aggregate function operand (w.term operand))) :
    (bs : List (Term × Term)) → (∀ x ∈ Accumulator.visitBranches false bs, L x) →
      P (w.branches bs)
  | [], _ => by
    rw [TermWriter.branches]
    exact hP.nil
  | (test, value) :: rest, hvisit => by
    rw [Accumulator.visitBranches, List.forall_mem_append, List.forall_mem_append] at hvisit
    rw [TermWriter.branches]
    have hwhen := hP.append (hP.chunk (c := .token .when) rfl)
      (term_of_visit hP hleaf haggregate test hvisit.1)
    have hthen := hP.append hwhen (hP.chunk (c := .token .then_) rfl)
    exact hP.append (hP.append hthen (term_of_visit hP hleaf haggregate value hvisit.2.1))
      (branches_of_visit hP hleaf haggregate rest hvisit.2.2)

end

end

end Fragment.Closed

/-- A closed property that holds of all that a writer adds to the columns of a term: the type that
its engine casts to, and its markers. -/
structure TermWriter.Keeps (w : TermWriter) (P : Fragment → Prop) : Prop where
  /-- The property is closed. -/
  closed : Closed P
  /-- It holds of the type. -/
  type : ∀ type ∈ w.engine.totalType?, P [.raw type]
  /-- It holds of the column of each marker. -/
  marker : ∀ m ∈ w.markers?.getD [], P (qualified derivedTable m.name)

namespace TermWriter.Keeps

variable {w : TermWriter} {P : Fragment → Prop}

theorem engineAggregate (h : w.Keeps P) (function : Aggregate) {operand : Fragment}
    (hf : P operand) (distinct : Bool) : P (w.engine.aggregate function operand distinct) := by
  have hoperand : P (if distinct then .token .distinct :: operand else operand) := by
    split
    · exact h.closed.cons rfl hf
    · exact hf
  have hcall := h.closed.call function.sqlName_mem_functionNames hoperand
  rcases w.engine.aggregate_eq function operand distinct with heq | ⟨type, htype, heq⟩
  · exact heq ▸ hcall
  · have has : P [.token .as_, .raw type] := h.closed.cons rfl (h.type type htype)
    exact heq ▸ h.closed.call (by decide) (h.closed.append hcall has)

theorem marked (h : w.Keeps P) {m : Marker} (hm : m ∈ w.markers?.getD []) {value : Fragment}
    (hf : P value) : P (TermWriter.marked m value) := by
  have hcase : P [.token .case, .token .when] := h.closed.cons rfl (h.closed.chunk rfl)
  have hthen : P [.raw "=", .number 1, .token .then_] :=
    h.closed.cons rfl (h.closed.cons rfl (h.closed.chunk rfl))
  have hend : P [.token .end_] := h.closed.chunk rfl
  have hwhen := h.closed.append hcase (h.marker m hm)
  exact h.closed.append (h.closed.append (h.closed.append hwhen hthen) hf) hend

theorem aggregate (h : w.Keeps P) (function : Aggregate) (operand : Term) {value : Fragment}
    (hf : P value) : P (w.aggregate function operand value) := by
  obtain ⟨f, argument, distinct, heq, rfl | ⟨m, hm, rfl⟩⟩ := w.aggregate_eq function operand value
  · exact heq ▸ h.engineAggregate f hf distinct
  · exact heq ▸ h.engineAggregate f (h.marked hm hf) distinct

/-- A closed property holds of a written term if it holds of the columns. -/
theorem term (h : w.Keeps P) (t : Term)
    (hcolumn : ∀ a ∈ t.leaves, ∀ c ∈ a.column?, P (w.column c)) : P (w.term t) := by
  refine h.closed.term_of_visit (L := fun x => ∀ c ∈ x.1.column?, P (w.column c))
    (fun a ha => h.closed.leaf w ha) (fun function operand hvisit ih => ?_) t
    fun x hx => hcolumn x.1 (List.mem_map_of_mem hx)
  -- Beneath the aggregate there are the same leaves.
  refine h.aggregate function operand (ih fun x hx => ?_)
  rw [Accumulator.visitFrom_eq_map, List.forall_mem_map] at hvisit
  exact hvisit x hx

/-- A closed property of all columns of a writer holds of all its terms. -/
theorem term_of_column (h : w.Keeps P) (hcolumn : ∀ c, P (w.column c)) (t : Term) :
    P (w.term t) :=
  h.term t fun _ _ c _ => hcolumn c

end TermWriter.Keeps

end NestedQuery
