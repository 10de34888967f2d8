import NestedQuery.Proofs.Mapping.Steps

/-!
# The compiler with another expansion

`compile` expands a whole table or shape where a value may have members. `compileWith` is the same
compiler, but leaves to a `Placing` what becomes of a part there; the placing sees the expression,
too. If it comes to what `expandWhole` does, for everything that an expression compiles to, then the
compilers are equal (`compileWith_eq`).
-/

namespace NestedQuery

open Compile

/-! ### The compiler with a placing -/

/-- What becomes of what an expression compiles to in a place where a value may have members. -/
abbrev Placing := Scope → Expr → Compiled → Compile Compiled

mutual

/-- The outputs and mapped tables of an expression, its parts placed by `place`. -/
def compileWith (s : Statement) (place : Placing) (scope : Scope) (e : Expr) :
    Compile Compiled := do
  if e.isParameter then compileParameter e
  else
    match e with
    | .row => compileChain s .row []
    | .var name =>
      match scope.locals.lookup name with
      | some b => compileChain s (.binding b) []
      | none => throw (.invariant (.unboundVariable name))
    | .args => compileParameter .args
    | .constant v => compileParameter (.constant v)
    | .member base name => do
      let c ← within (.member base name) (compileWith s place scope base)
      compileMember s (.member base name) base name c
    | .unary op operand => do
      let o ← operandOf s (.unary op operand) operand (compileWith s place scope operand)
      match op with
      | .not => return .ofValue (.wrap .not o.value) .bool o.tables
      | .negate => return .ofValue (.wrap .negate o.value) o.type o.tables
    | .binary .isIn left right => do
      let o ← operandOf s (.binary .isIn left right) left (compileWith s place scope left)
      compileMembership o right
    | .binary .comma left right => refuse (.binary .comma left right) .strayComma
    | .binary op left right => do
      let l ← operandOf s (.binary op left right) left (compileWith s place scope left)
      let r ← operandOf s (.binary op left right) right (compileWith s place scope right)
      let type := if op.isBoolean then .bool else l.type.widen r.type
      return .ofValue (.binary op l.value r.value) type (l.tables ++ r.tables)
    | .tuple items => compileItemsWith s place scope (.tuple items) 0 items
    | .array items => compileItemsWith s place scope (.array items) 0 items
    | .object members => compileMembersWith s place scope (.object members) members
    | .conditional test ifTrue ifFalse => do
      let whole := .conditional test ifTrue ifFalse
      let t ← operandOf s whole test (compileWith s place scope test)
      let v ← operandOf s whole ifTrue (compileWith s place scope ifTrue)
      let (bs, o) ← alternative s whole ifFalse (compileWith s place scope ifFalse)
        (compileElseWith s place scope whole ifFalse)
      let bs := bs.cons t v
      return .ofValue (.cases bs.branches o.value) v.type (bs.tables ++ o.tables)
    | .cases branches otherwise => do
      let whole := .cases branches otherwise
      let bs ← compileBranchesWith s place scope whole branches
      let o ← operandOf s whole otherwise (compileWith s place scope otherwise)
      return .ofValue (.cases bs.branches o.value) (bs.type?.getD o.type) (bs.tables ++ o.tables)
    | .casesOf subject branches otherwise => do
      let whole := .casesOf subject branches otherwise
      let k ← operandOf s whole subject (compileWith s place scope subject)
      let bs ← compileBranchesWith s place scope whole branches
      let o ← operandOf s whole otherwise (compileWith s place scope otherwise)
      return .ofValue (.casesOf k.value bs.branches o.value) (bs.type?.getD o.type)
        (k.tables ++ bs.tables ++ o.tables)
    | .aggregate function source => do
      let inner := { scope with beneath := true }
      let c ← within (.aggregate function source) (compileWith s place inner source)
      compileAggregate s scope (.aggregate function source) function c
    | .apply function operand => do
      let o ← operandOf s (.apply function operand) operand (compileWith s place scope operand)
      return compileFunction function o
    | .select source param body => do
      let whole := .select source param body
      let c ← within whole (compileWith s place scope source)
      let range ← compileRange s whole c
      let inner := range.scope scope param
      let b ← within whole do place inner body (← compileWith s place inner body)
      return range.result s scope b
    | .toList source =>
      within (.toList source) do place scope source (← compileWith s place scope source)
    | .one source => do
      let c ← within (.one source) do place scope source (← compileWith s place scope source)
      compileOne (.one source) c
    | .rowNumber => return compileRowNumber s scope
    | .isIn value set => do
      let o ← operandOf s (.isIn value set) value (compileWith s place scope value)
      compileMembership o set
    | .contains set value => do
      let o ← operandOf s (.contains set value) value (compileWith s place scope value)
      compileMembership o set
    | .method receiver name arguments =>
      refuse (.method receiver name arguments) (.unknownMethod name)
termination_by structural e

/-- The items of a construction `whole`; `index` is the first one's. -/
def compileItemsWith (s : Statement) (place : Placing) (scope : Scope) (whole : Expr)
    (index : Nat) : List Expr → Compile Compiled
  | [] => return {}
  | e :: es => do
    let c ← within whole do place scope e (← compileWith s place scope e)
    return c.under (.arg index) ++ (← compileItemsWith s place scope whole (index + 1) es)
termination_by structural es => es

/-- The members of a construction `whole`. -/
def compileMembersWith (s : Statement) (place : Placing) (scope : Scope) (whole : Expr) :
    List (String × Expr) → Compile Compiled
  | [] => return {}
  | (name, e) :: es => do
    let c ← within whole do place scope e (← compileWith s place scope e)
    return c.under (.field name) ++ (← compileMembersWith s place scope whole es)
termination_by structural es => es

/-- The branches of the case `whole`. -/
def compileBranchesWith (s : Statement) (place : Placing) (scope : Scope) (whole : Expr) :
    List (Expr × Expr) → Compile CompiledBranches
  | [] => return {}
  | (test, value) :: rest => do
    let t ← operandOf s whole test (compileWith s place scope test)
    let v ← operandOf s whole value (compileWith s place scope value)
    return (← compileBranchesWith s place scope whole rest).cons t v
termination_by structural bs => bs

/-- The further branches of the conditional `whole`, if its alternative is a conditional. -/
def compileElseWith (s : Statement) (place : Placing) (scope : Scope) (whole : Expr) :
    Expr → Option (Compile (CompiledBranches × Operand))
  | .conditional test ifTrue ifFalse => some do
    let t ← operandOf s whole test (compileWith s place scope test)
    let v ← operandOf s whole ifTrue (compileWith s place scope ifTrue)
    let (bs, o) ← alternative s whole ifFalse (compileWith s place scope ifFalse)
      (compileElseWith s place scope whole ifFalse)
    return (bs.cons t v, o)
  | _ => none
termination_by structural e => e

end

/-- The result of an expression in a place where a value may have members. -/
def compileValueWith (s : Statement) (place : Placing) (scope : Scope) (e : Expr) :
    Compile Compiled := do
  place scope e (← compileWith s place scope e)

/-! ### Placings that expand -/

section

variable {s : Statement} {place : Placing}

theorem bind_congr_of_yields {α β : Type} {x : Compile α} {f g : α → Compile β}
    (h : ∀ c a c', Yields x c a c' → (f a).run.run c' = (g a).run.run c') :
    x >>= f = x >>= g := by
  funext c
  show (x >>= f).run.run c = (x >>= g).run.run c
  rw [ExceptT.run_bind, ExceptT.run_bind, StateT.run_bind, StateT.run_bind]
  rcases hx : x.run.run c with ⟨e | a, c'⟩
  -- If the first step fails, neither second one is taken.
  · rfl
  · exact h c a c' hx

/-- Whatever an expression compiles to is expanded. -/
def Placing.Expands (s : Statement) (place : Placing) : Prop :=
  ∀ scope e c r c', Yields (compile s scope e) c r c' →
    (place scope e r).run.run c' = (expandWhole s scope r).run.run c'

theorem Placing.Expands.bind_eq (h : place.Expands s) (scope : Scope) (e : Expr) :
    (compile s scope e >>= fun r => place scope e r) =
      compile s scope e >>= fun r => expandWhole s scope r :=
  bind_congr_of_yields (h scope e)

mutual

/-- **With a placing that expands** the compiler is `compile`. -/
theorem compileWith_eq (hplace : place.Expands s) (e : Expr) (scope : Scope) :
    compileWith s place scope e = compile s scope e := by
  unfold compileWith compile
  split
  · rfl
  cases e with
  | row | var | args | constant | rowNumber | method => rfl
  | member base name => simp only [compileWith_eq hplace base]
  | unary op operand => cases op <;> simp only [compileWith_eq hplace operand]
  | binary op left right =>
    have hleft := compileWith_eq hplace left
    have hright := compileWith_eq hplace right
    cases op <;> simp only [hleft, hright]
  | tuple items | array items => exact compileItemsWith_eq hplace items scope _ _
  | object members => exact compileMembersWith_eq hplace members scope _
  | conditional test ifTrue ifFalse =>
    simp only [compileWith_eq hplace test, compileWith_eq hplace ifTrue,
      compileWith_eq hplace ifFalse, compileElseWith_eq hplace ifFalse]
  | cases branches otherwise =>
    simp only [compileBranchesWith_eq hplace branches, compileWith_eq hplace otherwise]
  | casesOf subject branches otherwise =>
    simp only [compileWith_eq hplace subject, compileBranchesWith_eq hplace branches,
      compileWith_eq hplace otherwise]
  | aggregate function source => simp only [compileWith_eq hplace source]
  | apply function operand => simp only [compileWith_eq hplace operand]
  | select source param body =>
    simp only [compileWith_eq hplace source, compileWith_eq hplace body, hplace.bind_eq]
  | toList source | one source => simp only [compileWith_eq hplace source, hplace.bind_eq]
  | isIn value set | contains set value => simp only [compileWith_eq hplace value]
termination_by structural e

theorem compileItemsWith_eq (hplace : place.Expands s) (es : List Expr) (scope : Scope)
    (whole : Expr) (index : Nat) :
    compileItemsWith s place scope whole index es = compileItems s scope whole index es := by
  unfold compileItemsWith compileItems
  cases es with
  | nil => rfl
  | cons e es =>
    simp only [compileWith_eq hplace e, compileItemsWith_eq hplace es, hplace.bind_eq]
termination_by structural es

theorem compileMembersWith_eq (hplace : place.Expands s) (es : List (String × Expr))
    (scope : Scope) (whole : Expr) :
    compileMembersWith s place scope whole es = compileMembers s scope whole es := by
  unfold compileMembersWith compileMembers
  cases es with
  | nil => rfl
  | cons member es =>
    obtain ⟨name, e⟩ := member
    simp only [compileWith_eq hplace e, compileMembersWith_eq hplace es, hplace.bind_eq]
termination_by structural es

theorem compileBranchesWith_eq (hplace : place.Expands s) (bs : List (Expr × Expr))
    (scope : Scope) (whole : Expr) :
    compileBranchesWith s place scope whole bs = compileBranches s scope whole bs := by
  unfold compileBranchesWith compileBranches
  cases bs with
  | nil => rfl
  | cons branch rest =>
    obtain ⟨test, value⟩ := branch
    simp only [compileWith_eq hplace test, compileWith_eq hplace value,
      compileBranchesWith_eq hplace rest]
termination_by structural bs

theorem compileElseWith_eq (hplace : place.Expands s) (e : Expr) (scope : Scope)
    (whole : Expr) :
    compileElseWith s place scope whole e = compileElse s scope whole e := by
  unfold compileElseWith compileElse
  cases e with
  | conditional test ifTrue ifFalse =>
    simp only [compileWith_eq hplace test, compileWith_eq hplace ifTrue,
      compileWith_eq hplace ifFalse, compileElseWith_eq hplace ifFalse]
  | _ => rfl
termination_by structural e

end

theorem compileValueWith_eq (hplace : place.Expands s) (scope : Scope) (e : Expr) :
    compileValueWith s place scope e = compileValue s scope e := by
  rw [compileValueWith, compileWith_eq hplace]
  exact hplace.bind_eq scope e

end

end NestedQuery
