import Mathlib.Logic.Basic
import NestedQuery.Mapping.Operand
import NestedQuery.Proofs.Expr.Meaning

/-!
# Replacing parts of an expression

A `Replacement` says by what the parts of an expression may be replaced, and `Expr.Replaces` that
two expressions differ in such parts only, by the rules of the syntax. The places of the syntax are
of three kinds. Most of them take a value, which may have members. What is counted and what a
`select` ranges over is a source, which may be a whole table, and so may the base of a member.

What holds of the replaced parts holds of the expressions around them: they read the row as before
(`Replaces.readsRow_eq`), and they have the same values if the parts have
(`Replaces.sameValues`). An expression without rows is not changed by replacements that are about
rows (`Replaces.eq_of_not_readsRow`).
-/

namespace NestedQuery.Expr

/-! ### Replacements -/

/-- What may be replaced, by the kind of its place. -/
structure Replacement where
  /-- In any place. -/
  anywhere : Expr → Expr → Prop
  /-- In the place of a source. -/
  source : Expr → Expr → Prop := fun _ _ => False
  /-- In a place that takes a value. -/
  value : Expr → Expr → Prop := fun _ _ => False

section

variable (ρ : Replacement)

mutual

/-- The expression or parts of it are replaced. -/
inductive Replaces : Expr → Expr → Prop
  | here {e e' : Expr} : ρ.anywhere e e' → Replaces e e'
  | inside {e e' : Expr} : ReplacesInside e e' → Replaces e e'

/-- The same in the place of a source. -/
inductive ReplacesSource : Expr → Expr → Prop
  | source {e e' : Expr} : ρ.source e e' → ReplacesSource e e'
  | expr {e e' : Expr} : Replaces e e' → ReplacesSource e e'

/-- The same in a place that takes a value. -/
inductive ReplacesValue : Expr → Expr → Prop
  | value {e e' : Expr} : ρ.value e e' → ReplacesValue e e'
  | expr {e e' : Expr} : Replaces e e' → ReplacesValue e e'

/-- Parts of the expression are replaced, but not the expression itself. -/
inductive ReplacesInside : Expr → Expr → Prop
  | row : ReplacesInside row row
  | args : ReplacesInside args args
  | var (name : String) : ReplacesInside (var name) (var name)
  | constant (v : Value) : ReplacesInside (constant v) (constant v)
  | member {base base' : Expr} (name : String) :
    Replaces base base' → ReplacesInside (member base name) (member base' name)
  | unary (op : UnaryOp) {e e' : Expr} :
    ReplacesValue e e' → ReplacesInside (unary op e) (unary op e')
  | binary (op : BinaryOp) {l l' r r' : Expr} :
    ReplacesValue l l' → ReplacesValue r r' → ReplacesInside (binary op l r) (binary op l' r')
  | tuple {es es' : List Expr} : ReplacesAll es es' → ReplacesInside (tuple es) (tuple es')
  | array {es es' : List Expr} : ReplacesAll es es' → ReplacesInside (array es) (array es')
  | object {es es' : List (String × Expr)} :
    ReplacesMembers es es' → ReplacesInside (object es) (object es')
  | conditional {t t' v v' o o' : Expr} :
    ReplacesValue t t' → ReplacesValue v v' → ReplacesValue o o' →
      ReplacesInside (conditional t v o) (conditional t' v' o')
  | cases {bs bs' : List (Expr × Expr)} {o o' : Expr} :
    ReplacesBranches bs bs' → ReplacesValue o o' → ReplacesInside (cases bs o) (cases bs' o')
  | casesOf {k k' : Expr} {bs bs' : List (Expr × Expr)} {o o' : Expr} :
    ReplacesValue k k' → ReplacesBranches bs bs' → ReplacesValue o o' →
      ReplacesInside (casesOf k bs o) (casesOf k' bs' o')
  | count {e e' : Expr} :
    ReplacesSource e e' → ReplacesInside (aggregate .count e) (aggregate .count e')
  | fold {function : Aggregate} {e e' : Expr} : function ≠ .count →
    ReplacesValue e e' → ReplacesInside (aggregate function e) (aggregate function e')
  | apply (function : Function) {e e' : Expr} :
    ReplacesValue e e' → ReplacesInside (apply function e) (apply function e')
  | select {source source' : Expr} (param : String) {body body' : Expr} :
    ReplacesSource source source' → ReplacesValue body body' →
      ReplacesInside (select source param body) (select source' param body')
  | toList {e e' : Expr} : ReplacesValue e e' → ReplacesInside (toList e) (toList e')
  | one {e e' : Expr} : ReplacesValue e e' → ReplacesInside (one e) (one e')
  | rowNumber : ReplacesInside rowNumber rowNumber
  | isIn {v v' set set' : Expr} :
    ReplacesValue v v' → ReplacesValue set set' → ReplacesInside (isIn v set) (isIn v' set')
  | contains {set set' v v' : Expr} :
    ReplacesValue set set' → ReplacesValue v v' →
      ReplacesInside (contains set v) (contains set' v')
  | method {e e' : Expr} (name : String) {es es' : List Expr} :
    ReplacesValue e e' → ReplacesAll es es' → ReplacesInside (method e name es) (method e' name es')

/-- Parts of several expressions are replaced. -/
inductive ReplacesAll : List Expr → List Expr → Prop
  | nil : ReplacesAll [] []
  | cons {e e' : Expr} {es es' : List Expr} :
    ReplacesValue e e' → ReplacesAll es es' → ReplacesAll (e :: es) (e' :: es')

/-- Parts of the members of an object are replaced. -/
inductive ReplacesMembers : List (String × Expr) → List (String × Expr) → Prop
  | nil : ReplacesMembers [] []
  | cons (name : String) {e e' : Expr} {es es' : List (String × Expr)} :
    ReplacesValue e e' → ReplacesMembers es es' →
      ReplacesMembers ((name, e) :: es) ((name, e') :: es')

/-- Parts of the branches of a case are replaced. -/
inductive ReplacesBranches : List (Expr × Expr) → List (Expr × Expr) → Prop
  | nil : ReplacesBranches [] []
  | cons {t t' v v' : Expr} {bs bs' : List (Expr × Expr)} :
    ReplacesValue t t' → ReplacesValue v v' → ReplacesBranches bs bs' →
      ReplacesBranches ((t, v) :: bs) ((t', v') :: bs')

end

end

section

variable {ρ : Replacement}

mutual

/-- Nothing need be replaced. -/
theorem ReplacesInside.refl : (e : Expr) → ReplacesInside ρ e e
  | .row => .row
  | .args => .args
  | .var name => .var name
  | .constant v => .constant v
  | .member base name => .member name (.inside (.refl base))
  | .unary op e => .unary op (.expr (.inside (.refl e)))
  | .binary op l r => .binary op (.expr (.inside (.refl l))) (.expr (.inside (.refl r)))
  | .tuple es => .tuple (.refl es)
  | .array es => .array (.refl es)
  | .object es => .object (.refl es)
  | .conditional t v o =>
    .conditional (.expr (.inside (.refl t))) (.expr (.inside (.refl v)))
      (.expr (.inside (.refl o)))
  | .cases bs o => .cases (.refl bs) (.expr (.inside (.refl o)))
  | .casesOf k bs o =>
    .casesOf (.expr (.inside (.refl k))) (.refl bs) (.expr (.inside (.refl o)))
  | .aggregate function e =>
    if h : function = .count then h ▸ .count (.expr (.inside (.refl e)))
    else .fold h (.expr (.inside (.refl e)))
  | .apply function e => .apply function (.expr (.inside (.refl e)))
  | .select source param body =>
    .select param (.expr (.inside (.refl source))) (.expr (.inside (.refl body)))
  | .toList e => .toList (.expr (.inside (.refl e)))
  | .one e => .one (.expr (.inside (.refl e)))
  | .rowNumber => .rowNumber
  | .isIn v set => .isIn (.expr (.inside (.refl v))) (.expr (.inside (.refl set)))
  | .contains set v => .contains (.expr (.inside (.refl set))) (.expr (.inside (.refl v)))
  | .method e name es => .method name (.expr (.inside (.refl e))) (.refl es)

theorem ReplacesAll.refl : (es : List Expr) → ReplacesAll ρ es es
  | [] => .nil
  | e :: es => .cons (.expr (.inside (.refl e))) (.refl es)

theorem ReplacesMembers.refl : (es : List (String × Expr)) → ReplacesMembers ρ es es
  | [] => .nil
  | (name, e) :: es => .cons name (.expr (.inside (.refl e))) (.refl es)

theorem ReplacesBranches.refl : (bs : List (Expr × Expr)) → ReplacesBranches ρ bs bs
  | [] => .nil
  | (t, v) :: bs => .cons (.expr (.inside (.refl t))) (.expr (.inside (.refl v))) (.refl bs)

end

theorem Replaces.refl (e : Expr) : Replaces ρ e e :=
  .inside (.refl e)

theorem ReplacesValue.refl (e : Expr) : ReplacesValue ρ e e :=
  .expr (.refl e)

theorem replaces_iff {e e' : Expr} :
    Replaces ρ e e' ↔ ρ.anywhere e e' ∨ ReplacesInside ρ e e' := by
  constructor
  · rintro (h | h)
    · exact .inl h
    · exact .inr h
  · exact fun h => h.elim .here .inside

theorem replacesValue_iff {e e' : Expr} :
    ReplacesValue ρ e e' ↔ ρ.value e e' ∨ Replaces ρ e e' := by
  constructor
  · rintro (h | h)
    · exact .inl h
    · exact .inr h
  · exact fun h => h.elim .value .expr

/-! ### Rows -/

variable (ρ) in
/-- The replacements change nothing about what reads the row. Where they depend on the place, what
is replaced reads the row. -/
structure KeepsRow : Prop where
  anywhere : ∀ {e e' : Expr}, ρ.anywhere e e' → e'.readsRow = e.readsRow
  source : ∀ {e e' : Expr}, ρ.source e e' → e.readsRow = true ∧ e'.readsRow = true
  value : ∀ {e e' : Expr}, ρ.value e e' → e.readsRow = true ∧ e'.readsRow = true

mutual

/-- The expression reads the row as before. -/
theorem Replaces.readsRow_eq (hrow : KeepsRow ρ) :
    {e e' : Expr} → Replaces ρ e e' → e'.readsRow = e.readsRow
  | _, _, .here h => hrow.anywhere h
  | _, _, .inside h => h.readsRow_eq hrow

theorem ReplacesSource.readsRow_eq (hrow : KeepsRow ρ) :
    {e e' : Expr} → ReplacesSource ρ e e' → e'.readsRow = e.readsRow
  | _, _, .source h => (hrow.source h).2.trans (hrow.source h).1.symm
  | _, _, .expr h => h.readsRow_eq hrow

theorem ReplacesValue.readsRow_eq (hrow : KeepsRow ρ) :
    {e e' : Expr} → ReplacesValue ρ e e' → e'.readsRow = e.readsRow
  | _, _, .value h => (hrow.value h).2.trans (hrow.value h).1.symm
  | _, _, .expr h => h.readsRow_eq hrow

theorem ReplacesInside.readsRow_eq (hrow : KeepsRow ρ) :
    {e e' : Expr} → ReplacesInside ρ e e' → e'.readsRow = e.readsRow
  | _, _, .row | _, _, .args | _, _, .var _ | _, _, .constant _ | _, _, .rowNumber => rfl
  | _, _, .select .. => rfl
  | _, _, .member _ h | _, _, .count h => h.readsRow_eq hrow
  | _, _, .unary _ h | _, _, .fold _ h | _, _, .apply _ h => h.readsRow_eq hrow
  | _, _, .toList h | _, _, .one h => h.readsRow_eq hrow
  | _, _, .binary _ hl hr => congrArg₂ or (hl.readsRow_eq hrow) (hr.readsRow_eq hrow)
  | _, _, .tuple h | _, _, .array h => h.anyReadsRow_eq hrow
  | _, _, .object h => h.anyMemberReadsRow_eq hrow
  | _, _, .conditional ht hv ho =>
    congrArg₂ or (congrArg₂ or (ht.readsRow_eq hrow) (hv.readsRow_eq hrow)) (ho.readsRow_eq hrow)
  | _, _, .cases hbs ho => congrArg₂ or (hbs.anyBranchReadsRow_eq hrow) (ho.readsRow_eq hrow)
  | _, _, .casesOf hk hbs ho =>
    congrArg₂ or (congrArg₂ or (hk.readsRow_eq hrow) (hbs.anyBranchReadsRow_eq hrow))
      (ho.readsRow_eq hrow)
  | _, _, .isIn hv hset => congrArg₂ or (hv.readsRow_eq hrow) (hset.readsRow_eq hrow)
  | _, _, .contains hset hv => congrArg₂ or (hv.readsRow_eq hrow) (hset.readsRow_eq hrow)
  | _, _, .method _ h hes => congrArg₂ or (h.readsRow_eq hrow) (hes.anyReadsRow_eq hrow)

theorem ReplacesAll.anyReadsRow_eq (hrow : KeepsRow ρ) :
    {es es' : List Expr} → ReplacesAll ρ es es' → anyReadsRow es' = anyReadsRow es
  | _, _, .nil => rfl
  | _, _, .cons h hes => congrArg₂ or (h.readsRow_eq hrow) (hes.anyReadsRow_eq hrow)

theorem ReplacesMembers.anyMemberReadsRow_eq (hrow : KeepsRow ρ) :
    {es es' : List (String × Expr)} → ReplacesMembers ρ es es' →
      anyMemberReadsRow es' = anyMemberReadsRow es
  | _, _, .nil => rfl
  | _, _, .cons _ h hes => congrArg₂ or (h.readsRow_eq hrow) (hes.anyMemberReadsRow_eq hrow)

theorem ReplacesBranches.anyBranchReadsRow_eq (hrow : KeepsRow ρ) :
    {bs bs' : List (Expr × Expr)} → ReplacesBranches ρ bs bs' →
      anyBranchReadsRow bs' = anyBranchReadsRow bs
  | _, _, .nil => rfl
  | _, _, .cons ht hv hbs =>
    congrArg₂ or (congrArg₂ or (ht.readsRow_eq hrow) (hv.readsRow_eq hrow))
      (hbs.anyBranchReadsRow_eq hrow)

end

/-- The expression becomes one parameter iff it did. -/
theorem ReplacesInside.isParameter_eq (hrow : KeepsRow ρ) {e e' : Expr}
    (h : ReplacesInside ρ e e') : e'.isParameter = e.isParameter := by
  have hreads := h.readsRow_eq hrow
  cases h with
  | object | tuple | array | count | fold | select | toList | one | rowNumber | method => rfl
  | _ => exact congrArg not hreads

/-! ### Values -/

/-- The expressions have the same value for the same arguments, if they have any. -/
structure SameValues (e e' : Expr) : Prop where
  readsArgs : e'.readsArgs = e.readsArgs
  evaluate : ∀ arguments, (e'.evaluate arguments).toOption = (e.evaluate arguments).toOption
  navigate : ∀ arguments, (e'.navigate arguments).toOption = (e.navigate arguments).toOption

/-- The lists of expressions have the same values. -/
structure AllSameValues (es es' : List Expr) : Prop where
  anyReadsArgs : anyReadsArgs es' = anyReadsArgs es
  evaluateAll : ∀ arguments,
    (evaluateAll arguments es').toOption = (evaluateAll arguments es).toOption

/-- The branches have the same values. -/
structure BranchesSameValues (bs bs' : List (Expr × Expr)) : Prop where
  anyBranchReadsArgs : anyBranchReadsArgs bs' = anyBranchReadsArgs bs
  evaluateCases : ∀ arguments,
    (evaluateCases arguments bs').toOption = (evaluateCases arguments bs).toOption
  evaluateCasesOf : ∀ arguments subject,
    (evaluateCasesOf arguments subject bs').toOption =
      (evaluateCasesOf arguments subject bs).toOption

theorem SameValues.refl (e : Expr) : SameValues e e :=
  ⟨rfl, fun _ => rfl, fun _ => rfl⟩

namespace SameValues

variable {base base' l l' r r' t t' v v' o o' k k' set set' : Expr} {es es' : List Expr}
  {bs bs' : List (Expr × Expr)}

theorem member (h : SameValues base base') (name : String) :
    SameValues (member base name) (member base' name) := by
  have hnavigate : ∀ arguments, ((Expr.member base' name).navigate arguments).toOption =
      ((Expr.member base name).navigate arguments).toOption := by
    intro arguments
    rw [Expr.navigate, Expr.navigate, Result.toOption_bind, Result.toOption_bind, h.navigate]
    refine Option.bind_congr fun d _ => ?_
    cases d.member? name <;> rfl
  refine ⟨h.readsArgs, fun arguments => ?_, hnavigate⟩
  simp only [Expr.evaluate, Result.toOption_bind, hnavigate]

theorem unary (op : UnaryOp) (h : SameValues v v') : SameValues (unary op v) (unary op v') := by
  refine ⟨h.readsArgs, fun arguments => ?_, fun _ => rfl⟩
  simp only [Expr.evaluate, Result.toOption_bind, toOption_orOperandTypes, h.evaluate]

theorem apply (function : Function) (h : SameValues v v') :
    SameValues (apply function v) (apply function v') := by
  refine ⟨h.readsArgs, fun arguments => ?_, fun _ => rfl⟩
  simp only [Expr.evaluate, Result.toOption_bind, toOption_orOperandTypes, h.evaluate]

theorem binary (op : BinaryOp) (hl : SameValues l l') (hr : SameValues r r') :
    SameValues (binary op l r) (binary op l' r') := by
  refine ⟨congrArg₂ or hl.readsArgs hr.readsArgs, fun arguments => ?_, fun _ => rfl⟩
  simp only [Expr.evaluate, Result.toOption_bind, toOption_orOperandTypes, hl.evaluate,
    hr.evaluate]

theorem isIn (hv : SameValues v v') (hset : SameValues set set') :
    SameValues (isIn v set) (isIn v' set') := by
  refine ⟨congrArg₂ or hv.readsArgs hset.readsArgs, fun arguments => ?_, fun _ => rfl⟩
  simp only [Expr.evaluate, Result.toOption_bind, toOption_membership, hv.evaluate, hset.evaluate]

theorem contains (hset : SameValues set set') (hv : SameValues v v') :
    SameValues (contains set v) (contains set' v') := by
  refine ⟨congrArg₂ or hv.readsArgs hset.readsArgs, fun arguments => ?_, fun _ => rfl⟩
  simp only [Expr.evaluate, Result.toOption_bind, toOption_membership, hv.evaluate, hset.evaluate]

theorem conditional (ht : SameValues t t') (hv : SameValues v v') (ho : SameValues o o') :
    SameValues (conditional t v o) (conditional t' v' o') := by
  refine ⟨congrArg₂ or (congrArg₂ or ht.readsArgs hv.readsArgs) ho.readsArgs,
    fun arguments => ?_, fun _ => rfl⟩
  simp only [Expr.evaluate, Result.toOption_bind, ht.evaluate]
  refine Option.bind_congr fun w _ => ?_
  split
  · exact hv.evaluate arguments
  · exact ho.evaluate arguments

theorem cases (hbs : BranchesSameValues bs bs') (ho : SameValues o o') :
    SameValues (cases bs o) (cases bs' o') := by
  refine ⟨congrArg₂ or hbs.anyBranchReadsArgs ho.readsArgs, fun arguments => ?_, fun _ => rfl⟩
  simp only [Expr.evaluate, Result.toOption_bind, hbs.evaluateCases]
  refine Option.bind_congr fun w? _ => ?_
  cases w? with
  | some w => rfl
  | none => exact ho.evaluate arguments

theorem casesOf (hk : SameValues k k') (hbs : BranchesSameValues bs bs') (ho : SameValues o o') :
    SameValues (casesOf k bs o) (casesOf k' bs' o') := by
  refine ⟨congrArg₂ or (congrArg₂ or hk.readsArgs hbs.anyBranchReadsArgs) ho.readsArgs,
    fun arguments => ?_, fun _ => rfl⟩
  simp only [Expr.evaluate, Result.toOption_bind, hk.evaluate, hbs.evaluateCasesOf]
  refine Option.bind_congr fun v _ => Option.bind_congr fun w? _ => ?_
  cases w? with
  | some w => rfl
  | none => exact ho.evaluate arguments

theorem tuple (h : AllSameValues es es') : SameValues (tuple es) (tuple es') := by
  refine ⟨h.anyReadsArgs, fun arguments => ?_, fun _ => rfl⟩
  simp only [Expr.evaluate, Result.toOption_bind, h.evaluateAll]

theorem array (h : AllSameValues es es') : SameValues (array es) (array es') := by
  refine ⟨h.anyReadsArgs, fun arguments => ?_, fun _ => rfl⟩
  simp only [Expr.evaluate, Result.toOption_bind, h.evaluateAll]

end SameValues

theorem AllSameValues.cons {e e' : Expr} {es es' : List Expr} (h : SameValues e e')
    (hes : AllSameValues es es') : AllSameValues (e :: es) (e' :: es') := by
  refine ⟨congrArg₂ or h.readsArgs hes.anyReadsArgs, fun arguments => ?_⟩
  simp only [Expr.evaluateAll, Result.toOption_bind, h.evaluate, hes.evaluateAll]

theorem BranchesSameValues.cons {t t' v v' : Expr} {bs bs' : List (Expr × Expr)}
    (ht : SameValues t t') (hv : SameValues v v') (hbs : BranchesSameValues bs bs') :
    BranchesSameValues ((t, v) :: bs) ((t', v') :: bs') := by
  refine ⟨congrArg₂ or (congrArg₂ or ht.readsArgs hv.readsArgs) hbs.anyBranchReadsArgs,
    fun arguments => ?_, fun arguments subject => ?_⟩
  · simp only [Expr.evaluateCases, Result.toOption_bind, ht.evaluate]
    refine Option.bind_congr fun w _ => ?_
    split
    · simp only [Result.toOption_bind, hv.evaluate]
    · exact hbs.evaluateCases arguments
  · simp only [Expr.evaluateCasesOf, Result.toOption_bind, ht.evaluate]
    refine Option.bind_congr fun w _ => ?_
    split
    · simp only [Result.toOption_bind, hv.evaluate]
    · exact hbs.evaluateCasesOf arguments subject

mutual

/-- **Replacing by the same values.** An expression that reads no row has the same values as
before, if the replaced parts have. -/
theorem Replaces.sameValues (hrow : KeepsRow ρ)
    (hsame : ∀ {e e' : Expr}, ρ.anywhere e e' → e.readsRow = false → SameValues e e') :
    {e e' : Expr} → Replaces ρ e e' → e.readsRow = false → SameValues e e'
  | _, _, .here h, hfree => hsame h hfree
  | _, _, .inside h, hfree => h.sameValues hrow hsame hfree

theorem ReplacesSource.sameValues (hrow : KeepsRow ρ)
    (hsame : ∀ {e e' : Expr}, ρ.anywhere e e' → e.readsRow = false → SameValues e e') :
    {e e' : Expr} → ReplacesSource ρ e e' → e.readsRow = false → SameValues e e'
  | _, _, .source h, hfree => absurd ((hrow.source h).1.symm.trans hfree) nofun
  | _, _, .expr h, hfree => h.sameValues hrow hsame hfree

theorem ReplacesValue.sameValues (hrow : KeepsRow ρ)
    (hsame : ∀ {e e' : Expr}, ρ.anywhere e e' → e.readsRow = false → SameValues e e') :
    {e e' : Expr} → ReplacesValue ρ e e' → e.readsRow = false → SameValues e e'
  | _, _, .value h, hfree => absurd ((hrow.value h).1.symm.trans hfree) nofun
  | _, _, .expr h, hfree => h.sameValues hrow hsame hfree

theorem ReplacesInside.sameValues (hrow : KeepsRow ρ)
    (hsame : ∀ {e e' : Expr}, ρ.anywhere e e' → e.readsRow = false → SameValues e e') :
    {e e' : Expr} → ReplacesInside ρ e e' → e.readsRow = false → SameValues e e'
  | _, _, .row, hfree | _, _, .var _, hfree | _, _, .rowNumber, hfree => absurd hfree nofun
  | _, _, .select .., hfree => absurd hfree nofun
  | _, _, .args, _ | _, _, .constant _, _ => .refl _
  | _, _, .member name h, hfree => (h.sameValues hrow hsame hfree).member name
  | _, _, .unary op h, hfree => (h.sameValues hrow hsame hfree).unary op
  | _, _, .apply function h, hfree => (h.sameValues hrow hsame hfree).apply function
  | _, _, .tuple h, hfree => .tuple (h.allSameValues hrow hsame hfree)
  | _, _, .array h, hfree => .array (h.allSameValues hrow hsame hfree)
  | _, _, .binary op hl hr, hfree => by
    obtain ⟨hfreel, hfreer⟩ := Bool.or_eq_false_iff.mp hfree
    exact .binary op (hl.sameValues hrow hsame hfreel) (hr.sameValues hrow hsame hfreer)
  | _, _, .conditional ht hv ho, hfree => by
    obtain ⟨hfreetv, hfreeo⟩ := Bool.or_eq_false_iff.mp hfree
    obtain ⟨hfreet, hfreev⟩ := Bool.or_eq_false_iff.mp hfreetv
    exact .conditional (ht.sameValues hrow hsame hfreet) (hv.sameValues hrow hsame hfreev)
      (ho.sameValues hrow hsame hfreeo)
  | _, _, .cases hbs ho, hfree => by
    obtain ⟨hfreebs, hfreeo⟩ := Bool.or_eq_false_iff.mp hfree
    exact .cases (hbs.branchesSameValues hrow hsame hfreebs) (ho.sameValues hrow hsame hfreeo)
  | _, _, .casesOf hk hbs ho, hfree => by
    obtain ⟨hfreekbs, hfreeo⟩ := Bool.or_eq_false_iff.mp hfree
    obtain ⟨hfreek, hfreebs⟩ := Bool.or_eq_false_iff.mp hfreekbs
    exact .casesOf (hk.sameValues hrow hsame hfreek) (hbs.branchesSameValues hrow hsame hfreebs)
      (ho.sameValues hrow hsame hfreeo)
  | _, _, .isIn hv hset, hfree => by
    obtain ⟨hfreev, hfreeset⟩ := Bool.or_eq_false_iff.mp hfree
    exact .isIn (hv.sameValues hrow hsame hfreev) (hset.sameValues hrow hsame hfreeset)
  | _, _, .contains hset hv, hfree => by
    obtain ⟨hfreev, hfreeset⟩ := Bool.or_eq_false_iff.mp hfree
    exact .contains (hset.sameValues hrow hsame hfreeset) (hv.sameValues hrow hsame hfreev)
  -- The others never have a value.
  | _, _, .object h, hfree =>
    ⟨h.anyMemberReadsArgs_eq hrow hsame hfree, fun _ => rfl, fun _ => rfl⟩
  | _, _, .count h, hfree =>
    ⟨(h.sameValues hrow hsame hfree).readsArgs, fun _ => rfl, fun _ => rfl⟩
  | _, _, .fold _ h, hfree =>
    ⟨(h.sameValues hrow hsame hfree).readsArgs, fun _ => rfl, fun _ => rfl⟩
  | _, _, .toList h, hfree =>
    ⟨(h.sameValues hrow hsame hfree).readsArgs, fun _ => rfl, fun _ => rfl⟩
  | _, _, .one h, hfree =>
    ⟨(h.sameValues hrow hsame hfree).readsArgs, fun _ => rfl, fun _ => rfl⟩
  | _, _, .method _ h hes, hfree => by
    obtain ⟨hfreee, hfreees⟩ := Bool.or_eq_false_iff.mp hfree
    exact ⟨congrArg₂ or (h.sameValues hrow hsame hfreee).readsArgs
      (hes.allSameValues hrow hsame hfreees).anyReadsArgs, fun _ => rfl, fun _ => rfl⟩

theorem ReplacesAll.allSameValues (hrow : KeepsRow ρ)
    (hsame : ∀ {e e' : Expr}, ρ.anywhere e e' → e.readsRow = false → SameValues e e') :
    {es es' : List Expr} → ReplacesAll ρ es es' → anyReadsRow es = false →
      AllSameValues es es'
  | _, _, .nil, _ => ⟨rfl, fun _ => rfl⟩
  | _, _, .cons h hes, hfree => by
    obtain ⟨hfreee, hfreees⟩ := Bool.or_eq_false_iff.mp hfree
    exact .cons (h.sameValues hrow hsame hfreee) (hes.allSameValues hrow hsame hfreees)

theorem ReplacesMembers.anyMemberReadsArgs_eq (hrow : KeepsRow ρ)
    (hsame : ∀ {e e' : Expr}, ρ.anywhere e e' → e.readsRow = false → SameValues e e') :
    {es es' : List (String × Expr)} → ReplacesMembers ρ es es' →
      anyMemberReadsRow es = false → anyMemberReadsArgs es' = anyMemberReadsArgs es
  | _, _, .nil, _ => rfl
  | _, _, .cons _ h hes, hfree => by
    obtain ⟨hfreee, hfreees⟩ := Bool.or_eq_false_iff.mp hfree
    exact congrArg₂ or (h.sameValues hrow hsame hfreee).readsArgs
      (hes.anyMemberReadsArgs_eq hrow hsame hfreees)

theorem ReplacesBranches.branchesSameValues (hrow : KeepsRow ρ)
    (hsame : ∀ {e e' : Expr}, ρ.anywhere e e' → e.readsRow = false → SameValues e e') :
    {bs bs' : List (Expr × Expr)} → ReplacesBranches ρ bs bs' →
      anyBranchReadsRow bs = false → BranchesSameValues bs bs'
  | _, _, .nil, _ => ⟨rfl, fun _ => rfl, fun _ _ => rfl⟩
  | _, _, .cons ht hv hbs, hfree => by
    obtain ⟨hfreetv, hfreebs⟩ := Bool.or_eq_false_iff.mp hfree
    obtain ⟨hfreet, hfreev⟩ := Bool.or_eq_false_iff.mp hfreetv
    exact .cons (ht.sameValues hrow hsame hfreet) (hv.sameValues hrow hsame hfreev)
      (hbs.branchesSameValues hrow hsame hfreebs)

end

/-! ### Replacements about rows -/

variable (ρ) in
/-- What is replaced reads the row. -/
structure OnRows : Prop where
  anywhere : ∀ {e e' : Expr}, ρ.anywhere e e' → e.readsRow = true
  source : ∀ {e e' : Expr}, ρ.source e e' → e.readsRow = true
  value : ∀ {e e' : Expr}, ρ.value e e' → e.readsRow = true

mutual

/-- **Replacements about rows** leave an expression as it is that reads no row. -/
theorem Replaces.eq_of_not_readsRow (hrows : OnRows ρ) :
    {e e' : Expr} → Replaces ρ e e' → e.readsRow = false → e' = e
  | _, _, .here h, hfree => absurd ((hrows.anywhere h).symm.trans hfree) nofun
  | _, _, .inside h, hfree => h.eq_of_not_readsRow hrows hfree

theorem ReplacesSource.eq_of_not_readsRow (hrows : OnRows ρ) :
    {e e' : Expr} → ReplacesSource ρ e e' → e.readsRow = false → e' = e
  | _, _, .source h, hfree => absurd ((hrows.source h).symm.trans hfree) nofun
  | _, _, .expr h, hfree => h.eq_of_not_readsRow hrows hfree

theorem ReplacesValue.eq_of_not_readsRow (hrows : OnRows ρ) :
    {e e' : Expr} → ReplacesValue ρ e e' → e.readsRow = false → e' = e
  | _, _, .value h, hfree => absurd ((hrows.value h).symm.trans hfree) nofun
  | _, _, .expr h, hfree => h.eq_of_not_readsRow hrows hfree

theorem ReplacesInside.eq_of_not_readsRow (hrows : OnRows ρ) :
    {e e' : Expr} → ReplacesInside ρ e e' → e.readsRow = false → e' = e
  | _, _, .row, hfree | _, _, .var _, hfree | _, _, .rowNumber, hfree => absurd hfree nofun
  | _, _, .select .., hfree => absurd hfree nofun
  | _, _, .args, _ | _, _, .constant _, _ => rfl
  | _, _, .member name h, hfree => congrArg (member · name) (h.eq_of_not_readsRow hrows hfree)
  | _, _, .unary op h, hfree => congrArg (unary op) (h.eq_of_not_readsRow hrows hfree)
  | _, _, .count h, hfree => congrArg (aggregate .count) (h.eq_of_not_readsRow hrows hfree)
  | _, _, .fold _ h, hfree => congrArg (aggregate _) (h.eq_of_not_readsRow hrows hfree)
  | _, _, .apply function h, hfree => congrArg (apply function) (h.eq_of_not_readsRow hrows hfree)
  | _, _, .toList h, hfree => congrArg toList (h.eq_of_not_readsRow hrows hfree)
  | _, _, .one h, hfree => congrArg one (h.eq_of_not_readsRow hrows hfree)
  | _, _, .tuple h, hfree => congrArg tuple (h.eq_of_not_anyReadsRow hrows hfree)
  | _, _, .array h, hfree => congrArg array (h.eq_of_not_anyReadsRow hrows hfree)
  | _, _, .object h, hfree => congrArg object (h.eq_of_not_anyMemberReadsRow hrows hfree)
  | _, _, .binary op hl hr, hfree => by
    obtain ⟨hfreel, hfreer⟩ := Bool.or_eq_false_iff.mp hfree
    rw [hl.eq_of_not_readsRow hrows hfreel, hr.eq_of_not_readsRow hrows hfreer]
  | _, _, .conditional ht hv ho, hfree => by
    obtain ⟨hfreetv, hfreeo⟩ := Bool.or_eq_false_iff.mp hfree
    obtain ⟨hfreet, hfreev⟩ := Bool.or_eq_false_iff.mp hfreetv
    rw [ht.eq_of_not_readsRow hrows hfreet, hv.eq_of_not_readsRow hrows hfreev,
      ho.eq_of_not_readsRow hrows hfreeo]
  | _, _, .cases hbs ho, hfree => by
    obtain ⟨hfreebs, hfreeo⟩ := Bool.or_eq_false_iff.mp hfree
    rw [hbs.eq_of_not_anyBranchReadsRow hrows hfreebs, ho.eq_of_not_readsRow hrows hfreeo]
  | _, _, .casesOf hk hbs ho, hfree => by
    obtain ⟨hfreekbs, hfreeo⟩ := Bool.or_eq_false_iff.mp hfree
    obtain ⟨hfreek, hfreebs⟩ := Bool.or_eq_false_iff.mp hfreekbs
    rw [hk.eq_of_not_readsRow hrows hfreek, hbs.eq_of_not_anyBranchReadsRow hrows hfreebs,
      ho.eq_of_not_readsRow hrows hfreeo]
  | _, _, .isIn hv hset, hfree => by
    obtain ⟨hfreev, hfreeset⟩ := Bool.or_eq_false_iff.mp hfree
    rw [hv.eq_of_not_readsRow hrows hfreev, hset.eq_of_not_readsRow hrows hfreeset]
  | _, _, .contains hset hv, hfree => by
    obtain ⟨hfreev, hfreeset⟩ := Bool.or_eq_false_iff.mp hfree
    rw [hv.eq_of_not_readsRow hrows hfreev, hset.eq_of_not_readsRow hrows hfreeset]
  | _, _, .method name h hes, hfree => by
    obtain ⟨hfreee, hfreees⟩ := Bool.or_eq_false_iff.mp hfree
    rw [h.eq_of_not_readsRow hrows hfreee, hes.eq_of_not_anyReadsRow hrows hfreees]

theorem ReplacesAll.eq_of_not_anyReadsRow (hrows : OnRows ρ) :
    {es es' : List Expr} → ReplacesAll ρ es es' → anyReadsRow es = false → es' = es
  | _, _, .nil, _ => rfl
  | _, _, .cons h hes, hfree => by
    obtain ⟨hfreee, hfreees⟩ := Bool.or_eq_false_iff.mp hfree
    rw [h.eq_of_not_readsRow hrows hfreee, hes.eq_of_not_anyReadsRow hrows hfreees]

theorem ReplacesMembers.eq_of_not_anyMemberReadsRow (hrows : OnRows ρ) :
    {es es' : List (String × Expr)} → ReplacesMembers ρ es es' →
      anyMemberReadsRow es = false → es' = es
  | _, _, .nil, _ => rfl
  | _, _, .cons name h hes, hfree => by
    obtain ⟨hfreee, hfreees⟩ := Bool.or_eq_false_iff.mp hfree
    rw [h.eq_of_not_readsRow hrows hfreee, hes.eq_of_not_anyMemberReadsRow hrows hfreees]

theorem ReplacesBranches.eq_of_not_anyBranchReadsRow (hrows : OnRows ρ) :
    {bs bs' : List (Expr × Expr)} → ReplacesBranches ρ bs bs' →
      anyBranchReadsRow bs = false → bs' = bs
  | _, _, .nil, _ => rfl
  | _, _, .cons ht hv hbs, hfree => by
    obtain ⟨hfreetv, hfreebs⟩ := Bool.or_eq_false_iff.mp hfree
    obtain ⟨hfreet, hfreev⟩ := Bool.or_eq_false_iff.mp hfreetv
    rw [ht.eq_of_not_readsRow hrows hfreet, hv.eq_of_not_readsRow hrows hfreev,
      hbs.eq_of_not_anyBranchReadsRow hrows hfreebs]

end

end

end NestedQuery.Expr
