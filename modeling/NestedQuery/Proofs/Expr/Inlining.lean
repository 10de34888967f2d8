import NestedQuery.Proofs.Expr.Meaning
import NestedQuery.Proofs.Expr.Scoping

/-!
# Variables as chains

Inside the body of a `select` its parameter stands for a member chain of the row.
`Expr.inline` puts the chains in place of the variables, so that an expression in a body has a value
for a row like any other one. An expression without these variables is left as it is
(`Expr.inline_eq_self`).
-/

namespace NestedQuery.Expr

/-- The member chain of the row along a path. -/
def chain (path : List String) : Expr :=
  path.foldl member row

theorem rowPath?_foldl_member (e : Expr) (path : List String) :
    (path.foldl member e).rowPath? = e.rowPath?.map fun start => start ++ path := by
  induction path generalizing e with
  | nil => simp only [List.foldl_nil, List.append_nil, Option.map_id']
  | cons name path ih =>
    rw [List.foldl_cons, ih, rowPath?, Option.map_map]
    exact congrArg (e.rowPath?.map ·) (funext fun start => List.append_assoc start [name] path)

theorem rowPath?_chain (path : List String) : (chain path).rowPath? = some path :=
  rowPath?_foldl_member row path

variable (paths : List (String × List String))

mutual

/-- The expression with the chains along the given paths in place of its variables. Constructions
and operations on collections are no part of a single value and are left as they are. -/
def inline : Expr → Expr
  | var name => ((paths.lookup name).map chain).getD (var name)
  | member base name => member base.inline name
  | unary op operand => unary op operand.inline
  | binary op left right => binary op left.inline right.inline
  | conditional test ifTrue ifFalse => conditional test.inline ifTrue.inline ifFalse.inline
  | cases branches otherwise => cases (inlineBranches branches) otherwise.inline
  | casesOf subject branches otherwise =>
    casesOf subject.inline (inlineBranches branches) otherwise.inline
  | apply function operand => apply function operand.inline
  | isIn value set => isIn value.inline set.inline
  | contains set value => contains set.inline value.inline
  | e => e

/-- The same for the branches of a case. -/
def inlineBranches : List (Expr × Expr) → List (Expr × Expr)
  | [] => []
  | (test, value) :: rest => (test.inline, value.inline) :: inlineBranches rest

end

mutual

theorem readsRow_inline : (e : Expr) → (e.inline paths).readsRow = e.readsRow
  | var name => by
    rw [inline]
    cases paths.lookup name with
    | none => rfl
    | some path => exact readsRow_of_rowPath?_eq_some (rowPath?_chain path)
  | member base _ => readsRow_inline base
  | unary _ operand | apply _ operand => readsRow_inline operand
  | binary _ left right => congrArg₂ or (readsRow_inline left) (readsRow_inline right)
  | conditional test ifTrue ifFalse =>
    congrArg₂ or (congrArg₂ or (readsRow_inline test) (readsRow_inline ifTrue))
      (readsRow_inline ifFalse)
  | cases branches otherwise =>
    congrArg₂ or (readsRow_inlineBranches branches) (readsRow_inline otherwise)
  | casesOf subject branches otherwise =>
    congrArg₂ or (congrArg₂ or (readsRow_inline subject) (readsRow_inlineBranches branches))
      (readsRow_inline otherwise)
  | isIn value set | contains set value =>
    congrArg₂ or (readsRow_inline value) (readsRow_inline set)
  | row | args | constant _ | rowNumber | tuple _ | array _ | object _ | aggregate .. | select ..
  | toList _ | one _ | method .. => rfl

theorem readsRow_inlineBranches :
    (bs : List (Expr × Expr)) → anyBranchReadsRow (inlineBranches paths bs) = anyBranchReadsRow bs
  | [] => rfl
  | (test, value) :: rest =>
    congrArg₂ or (congrArg₂ or (readsRow_inline test) (readsRow_inline value))
      (readsRow_inlineBranches rest)

end

variable {paths}

mutual

/-- An expression without the variables is left as it is. -/
theorem inline_eq_self :
    (e : Expr) → (∀ name ∈ e.freeVars, paths.lookup name = none) → e.inline paths = e
  | var name, h => by rw [inline, h name (List.mem_singleton_self _)]; rfl
  | member base name, h => congrArg (member · name) (inline_eq_self base h)
  | unary op operand, h => congrArg (unary op) (inline_eq_self operand h)
  | apply function operand, h => congrArg (apply function) (inline_eq_self operand h)
  | binary op left right, h => by
    obtain ⟨hl, hr⟩ := List.forall_mem_append.mp h
    rw [inline, inline_eq_self left hl, inline_eq_self right hr]
  | conditional test ifTrue ifFalse, h => by
    obtain ⟨ht, h⟩ := List.forall_mem_append.mp h
    obtain ⟨hv, hf⟩ := List.forall_mem_append.mp h
    rw [inline, inline_eq_self test ht, inline_eq_self ifTrue hv, inline_eq_self ifFalse hf]
  | cases branches otherwise, h => by
    obtain ⟨hbs, ho⟩ := List.forall_mem_append.mp h
    rw [inline, inlineBranches_eq_self branches hbs, inline_eq_self otherwise ho]
  | casesOf subject branches otherwise, h => by
    obtain ⟨hs, h⟩ := List.forall_mem_append.mp h
    obtain ⟨hbs, ho⟩ := List.forall_mem_append.mp h
    rw [inline, inline_eq_self subject hs, inlineBranches_eq_self branches hbs,
      inline_eq_self otherwise ho]
  | isIn value set, h => by
    obtain ⟨hv, hs⟩ := List.forall_mem_append.mp h
    rw [inline, inline_eq_self value hv, inline_eq_self set hs]
  | contains set value, h => by
    obtain ⟨hs, hv⟩ := List.forall_mem_append.mp h
    rw [inline, inline_eq_self set hs, inline_eq_self value hv]
  | row, _ | args, _ | constant _, _ | rowNumber, _ | tuple _, _ | array _, _ | object _, _
  | aggregate .., _ | select .., _ | toList _, _ | one _, _ | method .., _ => rfl

theorem inlineBranches_eq_self : (bs : List (Expr × Expr)) →
    (∀ name ∈ freeVarsBranches bs, paths.lookup name = none) → inlineBranches paths bs = bs
  | [], _ => rfl
  | (test, value) :: rest, h => by
    obtain ⟨ht, h⟩ := List.forall_mem_append.mp h
    obtain ⟨hv, hrest⟩ := List.forall_mem_append.mp h
    rw [inlineBranches, inline_eq_self test ht, inline_eq_self value hv,
      inlineBranches_eq_self rest hrest]

end

/-- An expression that reads no row has no variables to replace. -/
theorem inline_eq_self_of_not_readsRow {e : Expr} (h : e.readsRow = false) :
    e.inline paths = e :=
  inline_eq_self e (by simp [freeVars_eq_nil e h])

/-- Without paths there is nothing to put in place of a variable. -/
theorem inline_nil (e : Expr) : e.inline [] = e :=
  inline_eq_self e fun _ _ => rfl

end NestedQuery.Expr
