import NestedQuery.Proofs.Mapping.Preservation
import NestedQuery.Proofs.Value.Typing

/-!
# Inferred types

`Expr.inferredType` is the type that an expression is given by the way it is built: a column has its
declared type, a constant its natural one, an argument none; tests yield truth values, arithmetic
has the wider type of its operands, and a conditional or a case the type of its first value. Two of
these rules look at a part of the expression only. Where the other parts go along with it
(`Expr.KeepsTypes`), the value of the expression has its inferred type
(`Expr.KeepsTypes.hasType`): the later values of a conditional or a case have the type of the first,
and arithmetic on an integer and an operand without a type computes no real.
-/

namespace NestedQuery

/-- The declared type of the column that a path from the shape names. -/
def Statement.typeOf (s : Statement) (path : List String) : ValueType :=
  match s.lookup? path with
  | some (.column _ _ field) => field.type
  | some (.rowId ..) => .integer
  | _ => .any

namespace Expr

/-- The values that a conditional or a case chooses from, in order. -/
def alternatives : Expr → List Expr
  | conditional _ ifTrue ifFalse => [ifTrue, ifFalse]
  | cases branches otherwise | casesOf _ branches otherwise =>
    branches.map Prod.snd ++ [otherwise]
  | _ => []

/-- The value of the first branch that holds, or the last alternative. -/
def takenBranch? (holds : Expr → Option Bool) : List (Expr × Expr) → Expr → Option Expr
  | [], otherwise => some otherwise
  | (test, value) :: rest, otherwise =>
    (holds test).bind fun b => if b then some value else takenBranch? holds rest otherwise

/-- The alternative that a conditional or a case takes for the arguments and a row. -/
def taken? (arguments : Document) (row : List String → Value) : Expr → Option Expr
  | conditional test ifTrue ifFalse =>
    (test.value? arguments row).map fun v => if v.isTrue then ifTrue else ifFalse
  | cases branches otherwise =>
    takenBranch? (fun test => (test.value? arguments row).map Value.isTrue) branches otherwise
  | casesOf subject branches otherwise =>
    (subject.value? arguments row).bind fun v =>
      takenBranch? (fun key => (key.value? arguments row).map v.isEqual) branches otherwise
  | _ => none

/-- The type of an expression that reads no row. One over the arguments is known at each execution
only. -/
def parameterType (e : Expr) : ValueType :=
  if e.readsArgs then .any else ((e.evaluate .null).toOption.map Value.type).getD .any

mutual

/-- The type of an expression over the columns of a statement. -/
def inferredType (s : Statement) (e : Expr) : ValueType :=
  if e.isParameter then e.parameterType
  else
    match e with
    | row | member .. => (e.rowPath?.map s.typeOf).getD .any
    | unary .not _ | isIn .. | contains .. => .bool
    | unary .negate operand => operand.inferredType s
    | binary op left right =>
      if op.isBoolean then .bool else (left.inferredType s).widen (right.inferredType s)
    | apply function operand => function.type (operand.inferredType s)
    | conditional _ ifTrue _ => ifTrue.inferredType s
    | cases branches otherwise | casesOf _ branches otherwise =>
      (firstType? s branches).getD (otherwise.inferredType s)
    | _ => .any
termination_by structural e

/-- The type of the first branch's value. -/
def firstType? (s : Statement) : List (Expr × Expr) → Option ValueType
  | [] => none
  | (_, value) :: _ => some (value.inferredType s)
termination_by structural bs => bs

end

/-- Where the type of a part becomes that of the whole, the other parts go along with it, for the
arguments and the row. -/
inductive KeepsTypes (s : Statement) (arguments : Document) (row : List String → Value) :
    Expr → Prop
  | parameter {e : Expr} : e.isParameter = true → KeepsTypes s arguments row e
  | column {e : Expr} {path : List String} : e.rowPath? = some path → KeepsTypes s arguments row e
  | not (e : Expr) : KeepsTypes s arguments row (unary .not e)
  | negate {e : Expr} : KeepsTypes s arguments row e → KeepsTypes s arguments row (unary .negate e)
  | boolean {op : BinaryOp} (left right : Expr) :
    op.isBoolean = true → KeepsTypes s arguments row (binary op left right)
  /-- An integer and an operand without a type make no real. -/
  | arithmetic {op : BinaryOp} {left right : Expr} :
    op.isBoolean = false → KeepsTypes s arguments row left → KeepsTypes s arguments row right →
      ((left.inferredType s).presumesIntegers (right.inferredType s) = true →
        ∀ v, (binary op left right).value? arguments row = some v → v.isReal = false) →
      KeepsTypes s arguments row (binary op left right)
  | function {function : Function} (e : Expr) :
    function ≠ .abs → KeepsTypes s arguments row (apply function e)
  | abs {e : Expr} : KeepsTypes s arguments row e → KeepsTypes s arguments row (apply .abs e)
  | isIn (value set : Expr) : KeepsTypes s arguments row (isIn value set)
  | contains (set value : Expr) : KeepsTypes s arguments row (contains set value)
  /-- If a later alternative is taken, its value has the type of the first. -/
  | alternatives {e first : Expr} {rest : List Expr} :
    e.alternatives = first :: rest →
      (e.taken? arguments row = some first → KeepsTypes s arguments row first) →
      (∀ a ∈ rest, e.taken? arguments row = some a →
        ∀ v, a.value? arguments row = some v → v.hasType (first.inferredType s) = true) →
      KeepsTypes s arguments row e

section

variable {s : Statement} {arguments : Document} {row : List String → Value} {e : Expr} {v : Value}

/-! ### Taking an alternative -/

/-- The two kinds of cases find their branches by the same recursion. -/
theorem bind_or_eq_bind_takenBranch? {holds : Expr → Option Bool} {bs : List (Expr × Expr)}
    {otherwise : Expr} {branch? : List (Expr × Expr) → Option (Option Value)}
    (hnil : branch? [] = some none)
    (hcons : ∀ test value rest, branch? ((test, value) :: rest) =
      (holds test).bind fun b =>
        if b then (value.value? arguments row).map some else branch? rest) :
    ((branch? bs).bind fun v? => v?.or (otherwise.value? arguments row)) =
      (takenBranch? holds bs otherwise).bind (value? arguments row) := by
  induction bs with
  | nil => rw [hnil]; rfl
  | cons b bs ih =>
    obtain ⟨test, value⟩ := b
    rw [hcons, takenBranch?, Option.bind_assoc, Option.bind_assoc]
    refine congrArg _ (funext fun b => ?_)
    cases b with
    | false => exact ih
    | true =>
      rw [if_pos rfl, if_pos rfl, Option.bind_some]
      cases value.value? arguments row <;> rfl

/-- **A conditional or a case has the value of the alternative that it takes.** -/
theorem value?_eq_bind_taken? (he : e.alternatives ≠ []) :
    e.value? arguments row = (e.taken? arguments row).bind (value? arguments row) := by
  cases e with
  | conditional test ifTrue ifFalse =>
    rw [value?_conditional, taken?, Option.bind_map]
    refine congrArg _ (funext fun v => ?_)
    show _ = (if v.isTrue then ifTrue else ifFalse).value? arguments row
    split <;> rfl
  | cases branches otherwise =>
    rw [value?_cases]
    refine bind_or_eq_bind_takenBranch? rfl fun test value rest => ?_
    rw [firstCase?_cons, Option.bind_map]
    rfl
  | casesOf subject branches otherwise =>
    rw [value?_casesOf, taken?, Option.bind_assoc]
    refine congrArg _ (funext fun k => ?_)
    refine bind_or_eq_bind_takenBranch? rfl fun key value rest => ?_
    rw [firstCaseOf?_cons, Option.bind_map]
    rfl
  | _ => exact absurd rfl he

theorem takenBranch?_mem {holds : Expr → Option Bool} {bs : List (Expr × Expr)}
    {otherwise a : Expr} (h : takenBranch? holds bs otherwise = some a) :
    a ∈ bs.map Prod.snd ++ [otherwise] := by
  induction bs with
  | nil => rw [Option.some.inj h]; exact List.mem_singleton_self _
  | cons b bs ih =>
    obtain ⟨holds?, -, h⟩ := Option.bind_eq_some_iff.mp h
    split at h
    · rw [← Option.some.inj h]
      exact List.mem_cons_self ..
    · exact List.mem_cons_of_mem _ (ih h)

theorem mem_alternatives_of_taken?_eq_some {a : Expr} (h : e.taken? arguments row = some a) :
    a ∈ e.alternatives := by
  cases e with
  | conditional test ifTrue ifFalse =>
    obtain ⟨v, -, rfl⟩ := Option.map_eq_some_iff.mp h
    split
    · exact List.mem_cons_self ..
    · exact List.mem_cons_of_mem _ (List.mem_singleton_self _)
  | cases branches otherwise => exact takenBranch?_mem h
  | casesOf subject branches otherwise =>
    obtain ⟨k, -, h⟩ := Option.bind_eq_some_iff.mp h
    exact takenBranch?_mem h
  | _ => cases h

/-- The type of a conditional or a case is that of its first alternative. -/
theorem inferredType_of_alternatives {first : Expr} {rest : List Expr}
    (h : e.alternatives = first :: rest) (hparam : ¬ e.isParameter = true) :
    e.inferredType s = first.inferredType s := by
  cases e with
  | conditional test ifTrue ifFalse =>
    exact (if_neg hparam).trans (congrArg (inferredType s) (List.cons.inj h).1)
  | cases branches otherwise | casesOf subject branches otherwise =>
    refine (if_neg hparam).trans ?_
    cases branches with
    | nil => exact congrArg (inferredType s) (List.cons.inj h).1
    | cons b bs => exact congrArg (inferredType s) (List.cons.inj h).1
  | _ => cases h

/-! ### Values of inferred types -/

theorem inferredType_of_isParameter (he : e.isParameter = true) :
    e.inferredType s = e.parameterType := by
  unfold inferredType
  exact if_pos he

/-- A constant has its natural type, and nothing is known of an argument. -/
theorem hasType_of_isParameter (he : e.isParameter = true)
    (h : e.value? arguments row = some v) : v.hasType (e.inferredType s) = true := by
  rw [inferredType_of_isParameter he, parameterType]
  rw [value?_eq_of_not_readsRow _ _ (readsRow_eq_false_of_isParameter he)] at h
  split
  · exact v.hasType_any
  · rename_i hargs
    rw [evaluate_eq_of_not_readsArgs arguments .null e (Bool.not_eq_true _ ▸ hargs)] at h
    rw [h]
    exact v.hasType_type

theorem inferredType_not (h : ¬ (unary .not e).isParameter = true) :
    (unary .not e).inferredType s = .bool :=
  if_neg h

theorem inferredType_negate (h : ¬ (unary .negate e).isParameter = true) :
    (unary .negate e).inferredType s = e.inferredType s :=
  if_neg h

theorem inferredType_binary {op : BinaryOp} {left right : Expr}
    (h : ¬ (binary op left right).isParameter = true) :
    (binary op left right).inferredType s =
      if op.isBoolean then .bool else (left.inferredType s).widen (right.inferredType s) :=
  if_neg h

theorem inferredType_apply {function : Function} (h : ¬ (apply function e).isParameter = true) :
    (apply function e).inferredType s = function.type (e.inferredType s) :=
  if_neg h

theorem inferredType_isIn {set : Expr} (h : ¬ (Expr.isIn e set).isParameter = true) :
    (Expr.isIn e set).inferredType s = .bool :=
  if_neg h

theorem inferredType_contains {set : Expr} (h : ¬ (Expr.contains set e).isParameter = true) :
    (Expr.contains set e).inferredType s = .bool :=
  if_neg h

theorem inferredType_cases {branches : List (Expr × Expr)}
    (h : ¬ (Expr.cases branches e).isParameter = true) :
    (Expr.cases branches e).inferredType s = (firstType? s branches).getD (e.inferredType s) :=
  if_neg h

theorem inferredType_casesOf {subject : Expr} {branches : List (Expr × Expr)}
    (h : ¬ (Expr.casesOf subject branches e).isParameter = true) :
    (Expr.casesOf subject branches e).inferredType s =
      (firstType? s branches).getD (e.inferredType s) :=
  if_neg h

/-- A column has its declared type. -/
theorem inferredType_of_rowPath?_eq_some {path : List String} (h : e.rowPath? = some path) :
    e.inferredType s = s.typeOf path := by
  have hparam : ¬ e.isParameter = true := fun hparam => by
    have hrow := readsRow_eq_false_of_isParameter hparam
    rw [readsRow_of_rowPath?_eq_some h] at hrow
    cases hrow
  cases e with
  | row | member =>
    refine (if_neg hparam).trans ?_
    rw [h]
    rfl
  | _ => cases h

/-- A membership test has a truth value. -/
theorem hasType_bool_of_isIn {value set : Expr}
    (h : (Expr.isIn value set).value? arguments row = some v) : v.hasType .bool = true := by
  rw [value?_isIn] at h
  obtain ⟨w, -, h⟩ := Option.bind_eq_some_iff.mp h
  obtain ⟨set, -, h⟩ := Option.bind_eq_some_iff.mp h
  obtain ⟨items, -, rfl⟩ := Option.map_eq_some_iff.mp h
  rfl

/-- What reads the row has the type that its parts make. -/
theorem hasType_of_not_isParameter (h : e.value? arguments row = some v)
    (he : ¬ e.isParameter = true → v.hasType (e.inferredType s) = true) :
    v.hasType (e.inferredType s) = true := by
  by_cases hparam : e.isParameter = true
  · exact hasType_of_isParameter hparam h
  · exact he hparam

/-- **The value of an expression has its inferred type**, where the parts go along with it. -/
theorem KeepsTypes.hasType (he : e.KeepsTypes s arguments row)
    (hrow : ∀ path, (row path).hasType (s.typeOf path) = true)
    (h : e.value? arguments row = some v) : v.hasType (e.inferredType s) = true := by
  induction he generalizing v with
  | parameter hparam => exact hasType_of_isParameter hparam h
  | column hpath =>
    rw [value?_of_rowPath?_eq_some _ _ hpath] at h
    rw [inferredType_of_rowPath?_eq_some hpath, ← Option.some.inj h]
    exact hrow _
  | not e =>
    refine hasType_of_not_isParameter h fun hparam => ?_
    rw [value?_unary] at h
    obtain ⟨w, -, hw⟩ := Option.bind_eq_some_iff.mp h
    rw [inferredType_not hparam]
    exact Value.hasType_not hw
  | @negate e _ ih =>
    refine hasType_of_not_isParameter h fun hparam => ?_
    rw [value?_unary] at h
    obtain ⟨w, he, hw⟩ := Option.bind_eq_some_iff.mp h
    rw [inferredType_negate hparam]
    exact Value.hasType_negate (ih he) hw
  | boolean left right hop =>
    refine hasType_of_not_isParameter h fun hparam => ?_
    rw [value?_binary] at h
    obtain ⟨w, -, h⟩ := Option.bind_eq_some_iff.mp h
    obtain ⟨u, -, hu⟩ := Option.bind_eq_some_iff.mp h
    rw [inferredType_binary hparam, if_pos hop]
    exact Value.hasType_boolean hop hu
  | @arithmetic op left right hop _ _ hreal ihl ihr =>
    refine hasType_of_not_isParameter h fun hparam => ?_
    have hreal := fun hpresumes => hreal hpresumes v h
    rw [value?_binary] at h
    obtain ⟨w, hl, h⟩ := Option.bind_eq_some_iff.mp h
    obtain ⟨u, hr, hu⟩ := Option.bind_eq_some_iff.mp h
    rw [inferredType_binary hparam, if_neg (Bool.not_eq_true _ ▸ hop)]
    exact Value.hasType_arithmetic hop (ihl hl) (ihr hr) hreal hu
  | @function function e hfunction =>
    refine hasType_of_not_isParameter h fun hparam => ?_
    rw [value?_apply] at h
    obtain ⟨w, -, hw⟩ := Option.bind_eq_some_iff.mp h
    have htype := Value.hasType_call? w.hasType_any hw
    rw [inferredType_apply hparam]
    cases function <;> first | exact htype | exact absurd rfl hfunction
  | @abs e _ ih =>
    refine hasType_of_not_isParameter h fun hparam => ?_
    rw [value?_apply] at h
    obtain ⟨w, he, hw⟩ := Option.bind_eq_some_iff.mp h
    rw [inferredType_apply hparam]
    exact Value.hasType_call? (ih he) hw
  | isIn value set =>
    refine hasType_of_not_isParameter h fun hparam => ?_
    rw [inferredType_isIn hparam]
    exact hasType_bool_of_isIn h
  | contains set value =>
    refine hasType_of_not_isParameter h fun hparam => ?_
    rw [inferredType_contains hparam]
    exact hasType_bool_of_isIn (value?_contains arguments row set value ▸ h)
  | @alternatives e first rest heq _ hrest ih =>
    refine hasType_of_not_isParameter h fun hparam => ?_
    rw [inferredType_of_alternatives heq hparam]
    -- The value is that of the alternative taken: the first one has its own type, and the others
    -- agree.
    rw [value?_eq_bind_taken? (by rw [heq]; exact List.cons_ne_nil _ _)] at h
    obtain ⟨a, ha, hv⟩ := Option.bind_eq_some_iff.mp h
    have hmem := mem_alternatives_of_taken?_eq_some ha
    rw [heq] at hmem
    rcases List.mem_cons.mp hmem with rfl | hmem
    · exact ih ha hv
    · exact hrest a hmem ha v hv

/-- Alternatives of one type go along with each other. -/
theorem KeepsTypes.of_sameTypes {first : Expr} {rest : List Expr}
    (hrow : ∀ path, (row path).hasType (s.typeOf path) = true)
    (heq : e.alternatives = first :: rest) (hfirst : first.KeepsTypes s arguments row)
    (hrest : ∀ a ∈ rest, a.KeepsTypes s arguments row ∧ a.inferredType s = first.inferredType s) :
    e.KeepsTypes s arguments row :=
  .alternatives heq (fun _ => hfirst) fun a ha _ v hv => by
    obtain ⟨hkeeps, htype⟩ := hrest a ha
    exact htype ▸ hkeeps.hasType hrow hv

end

end Expr

end NestedQuery
