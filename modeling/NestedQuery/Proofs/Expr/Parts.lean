import NestedQuery.Expr.Evaluate
import NestedQuery.Proofs.Result

/-!
# Parts of expressions

The parts of an expression are the expression itself, its operands, their operands and so on
(`Expr.IsPartOf`). An error lies in an expression if its breadcrumbs are the texts of parts, each
one inside the part before it, and its cause names a part of the last (`Error.LiesIn`). The errors
of an evaluation lie in the expression that is evaluated (`evaluate_failsIn`).
-/

namespace NestedQuery

/-! ### Parts -/

namespace Expr

/-- The values of named members. -/
def memberValues : List (String × Expr) → List Expr
  | [] => []
  | (_, e) :: es => e :: memberValues es

/-- The tests and values of branches. -/
def branchParts : List (Expr × Expr) → List Expr
  | [] => []
  | (test, value) :: rest => test :: value :: branchParts rest

/-- The expressions right inside an expression. -/
def operands : Expr → List Expr
  | row | args | var _ | constant _ | rowNumber => []
  | member base _ => [base]
  | unary _ operand | apply _ operand => [operand]
  | binary _ left right => [left, right]
  | tuple items | array items => items
  | object members => memberValues members
  | conditional test ifTrue ifFalse => [test, ifTrue, ifFalse]
  | cases branches otherwise => otherwise :: branchParts branches
  | casesOf subject branches otherwise => subject :: otherwise :: branchParts branches
  | aggregate _ source | toList source | one source => [source]
  | select source _ body => [source, body]
  | isIn value set | contains set value => [value, set]
  | method receiver _ arguments => receiver :: arguments

/-- `f` is `e`, or it is inside `e`. -/
inductive IsPartOf (f : Expr) : Expr → Prop
  /-- Every expression is a part of itself. -/
  | refl : IsPartOf f f
  /-- A part of an operand is a part of the whole. -/
  | operand {e operand : Expr} : operand ∈ e.operands → IsPartOf f operand → IsPartOf f e

theorem isPartOf_of_mem {e operand : Expr} (h : operand ∈ e.operands) : operand.IsPartOf e :=
  .operand h .refl

theorem IsPartOf.trans {e f g : Expr} (hfg : f.IsPartOf g) (hef : e.IsPartOf f) :
    e.IsPartOf g := by
  induction hfg with
  | refl => exact hef
  | operand hmem _ ih => exact .operand hmem ih

end Expr

/-! ### Errors -/

namespace Error

/-- The text of the expression that the error is about. -/
def subject? : Error → Option String
  | unsupported subject _ => some subject
  | rowInMembership text => some text
  | _ => none

/-- The breadcrumbs of the error lead from `e` inwards to an expression that its cause is about or
that has it as a part. -/
def LiesIn (e : Expr) : Error → Prop
  | within crumb inner => ∃ f, Expr.IsPartOf f e ∧ crumb = f.text ∧ inner.LiesIn f
  | cause => ∀ subject, cause.subject? = some subject → ∃ f, Expr.IsPartOf f e ∧ subject = f.text

variable {e f : Expr} {err : Error}

theorem liesIn_unsupported (e : Expr) (reason : Unsupported) :
    (unsupported e.text reason).LiesIn e :=
  fun _ h => ⟨e, .refl, (Option.some.inj h).symm⟩

theorem liesIn_rowInMembership (e : Expr) : (rowInMembership e.text).LiesIn e :=
  fun _ h => ⟨e, .refl, (Option.some.inj h).symm⟩

theorem liesIn_invariant (e : Expr) (broken : Invariant) : (invariant broken).LiesIn e :=
  fun _ h => nomatch h

theorem liesIn_unbindable (e : Expr) (reason : Unbindable) : (unbindable reason).LiesIn e :=
  fun _ h => nomatch h

theorem LiesIn.mono (h : err.LiesIn f) (hf : f.IsPartOf e) : err.LiesIn e := by
  cases err with
  | within crumb inner =>
    obtain ⟨g, hg, hcrumb, hinner⟩ := h
    exact ⟨g, hf.trans hg, hcrumb, hinner⟩
  | _ =>
    intro subject hsubject
    obtain ⟨g, hg, htext⟩ := h subject hsubject
    exact ⟨g, hf.trans hg, htext⟩

/-- One more breadcrumb for the expression itself. -/
theorem LiesIn.wrap (h : err.LiesIn e) : (err.wrap e.text).LiesIn e := by
  cases err with
  | invariant broken => exact liesIn_invariant e broken
  | _ => exact ⟨e, .refl, rfl, h⟩

/-- The parts that an error's breadcrumbs name, one inside the other. -/
theorem LiesIn.exists_trail (h : err.LiesIn e) :
    ∃ trail : List Expr, err.breadcrumbs = trail.map Expr.text ∧
      (e :: trail).IsChain (fun outer inner => inner.IsPartOf outer) ∧
      ∀ subject, err.rootCause.subject? = some subject →
        ∃ f, Expr.IsPartOf f (trail.getLastD e) ∧ subject = f.text := by
  induction err generalizing e with
  | within crumb inner ih =>
    obtain ⟨f, hf, rfl, hinner⟩ := h
    obtain ⟨trail, hcrumbs, hchain, hcause⟩ := ih hinner
    refine ⟨f :: trail, congrArg (f.text :: ·) hcrumbs, .cons_cons hf hchain, ?_⟩
    rwa [List.getLastD_cons]
  | _ => exact ⟨[], rfl, .singleton e, h⟩

end Error

/-! ### Evaluation -/

/-- A failure of the step lies in `e`. -/
def Result.FailsIn {α : Type} (e : Expr) (x : Result α) : Prop :=
  ∀ err, x = .error err → err.LiesIn e

namespace Result.FailsIn

variable {α β : Type} {e f : Expr} {x : Result α}

theorem ok (a : α) : FailsIn e (.ok a) :=
  fun _ h => nomatch h

theorem error {err : Error} (h : err.LiesIn e) : FailsIn (α := α) e (.error err) :=
  fun _ heq => Except.error.inj heq ▸ h

theorem bind {k : α → Result β} (hx : FailsIn e x) (hk : ∀ a, FailsIn e (k a)) :
    FailsIn e (x >>= k) := by
  intro err h
  rcases Result.bind_eq_error_iff.mp h with h | ⟨a, -, h⟩
  · exact hx err h
  · exact hk a err h

theorem mono (hx : FailsIn f x) (hf : f.IsPartOf e) : FailsIn e x :=
  fun err h => (hx err h).mono hf

end Result.FailsIn

mutual

/-- An object has no value, whatever expression it is the argument of. -/
theorem Value.ofDocument_failsIn (e : Expr) : (d : Document) →
    Result.FailsIn e (Value.ofDocument d)
  | .null | .bool _ | .integer _ | .unsigned _ | .float _ | .text _ => .ok _
  | .array items => (ofDocuments_failsIn e items).bind fun _ => .ok _
  | .object _ => .error (Error.liesIn_unbindable e _)

theorem Value.ofDocuments_failsIn (e : Expr) : (ds : List Document) →
    Result.FailsIn e (Value.ofDocuments ds)
  | [] => .ok _
  | d :: ds => (ofDocument_failsIn e d).bind fun _ => (ofDocuments_failsIn e ds).bind fun _ => .ok _

end

namespace Expr

open Result (FailsIn)

variable (arguments : Document)

theorem navigate_failsIn (e : Expr) : FailsIn e (e.navigate arguments) := by
  cases e with
  | args => exact .ok _
  | member base name =>
    have hbase := (navigate_failsIn base).mono
      (isPartOf_of_mem (e := member base name) (List.mem_singleton_self _))
    refine hbase.bind fun parent => ?_
    split
    · exact .ok _
    · exact .error (Error.liesIn_unbindable _ _)
  | _ => exact .error (Error.liesIn_unsupported _ _)
termination_by structural e

theorem orOperandTypes_failsIn (e : Expr) (v? : Option Value) :
    FailsIn e (e.orOperandTypes v?) := by
  cases v? with
  | none => exact .error (Error.liesIn_unbindable _ _)
  | some v => exact .ok v

theorem membership_failsIn (e : Expr) (v set : Value) : FailsIn e (e.membership v set) := by
  cases set with
  | list items => exact .ok _
  | _ => exact .error (Error.liesIn_unbindable _ _)

mutual

/-- **Evaluating** fails inside the expression. -/
theorem evaluate_failsIn : (e : Expr) → FailsIn e (e.evaluate arguments)
  | row | var _ => .error (Error.liesIn_invariant _ _)
  | args => Value.ofDocument_failsIn args arguments
  | constant _ => .ok _
  | member base name => (navigate_failsIn arguments (member base name)).bind
      (Value.ofDocument_failsIn _)
  | unary op operand => by
    have hoperand := (evaluate_failsIn operand).mono
      (isPartOf_of_mem (e := unary op operand) (by simp [operands]))
    exact hoperand.bind fun _ => orOperandTypes_failsIn _ _
  | binary op left right => by
    have hleft := (evaluate_failsIn left).mono
      (isPartOf_of_mem (e := binary op left right) (by simp [operands]))
    have hright := (evaluate_failsIn right).mono
      (isPartOf_of_mem (e := binary op left right) (by simp [operands]))
    exact hleft.bind fun _ => hright.bind fun _ => orOperandTypes_failsIn _ _
  | tuple items => (evaluateAll_failsIn (tuple items) items fun _ h => h).bind fun _ => .ok _
  | array items => (evaluateAll_failsIn (array items) items fun _ h => h).bind fun _ => .ok _
  | object _ => .error (Error.liesIn_unsupported _ _)
  | conditional test ifTrue ifFalse => by
    have hpart : ∀ {f : Expr}, f ∈ [test, ifTrue, ifFalse] →
        f.IsPartOf (conditional test ifTrue ifFalse) := fun h => isPartOf_of_mem h
    refine ((evaluate_failsIn test).mono (hpart (by simp))).bind fun v => ?_
    split
    · exact (evaluate_failsIn ifTrue).mono (hpart (by simp))
    · exact (evaluate_failsIn ifFalse).mono (hpart (by simp))
  | cases branches otherwise => by
    refine (evaluateCases_failsIn (cases branches otherwise) branches
      fun _ h => List.mem_cons_of_mem _ h).bind fun v? => ?_
    cases v? with
    | none => exact (evaluate_failsIn otherwise).mono (isPartOf_of_mem (List.mem_cons_self ..))
    | some v => exact .ok v
  | casesOf subject branches otherwise => by
    have hpart : ∀ {f : Expr}, f ∈ subject :: otherwise :: branchParts branches →
        f.IsPartOf (casesOf subject branches otherwise) := fun h => isPartOf_of_mem h
    refine ((evaluate_failsIn subject).mono (hpart (by simp))).bind fun k => ?_
    refine (evaluateCasesOf_failsIn (casesOf subject branches otherwise) k branches
      fun _ h => List.mem_cons_of_mem _ (List.mem_cons_of_mem _ h)).bind fun v? => ?_
    cases v? with
    | none => exact (evaluate_failsIn otherwise).mono (hpart (by simp))
    | some v => exact .ok v
  | isIn value set => by
    have hvalue := (evaluate_failsIn value).mono
      (isPartOf_of_mem (e := isIn value set) (by simp [operands]))
    have hset := (evaluate_failsIn set).mono
      (isPartOf_of_mem (e := isIn value set) (by simp [operands]))
    exact hvalue.bind fun v => hset.bind fun w => membership_failsIn _ v w
  | contains set value => by
    have hvalue := (evaluate_failsIn value).mono
      (isPartOf_of_mem (e := contains set value) (by simp [operands]))
    have hset := (evaluate_failsIn set).mono
      (isPartOf_of_mem (e := contains set value) (by simp [operands]))
    exact hvalue.bind fun v => hset.bind fun w => membership_failsIn _ v w
  | apply function operand => by
    have hoperand := (evaluate_failsIn operand).mono
      (isPartOf_of_mem (e := apply function operand) (by simp [operands]))
    exact hoperand.bind fun _ => orOperandTypes_failsIn _ _
  | aggregate .. | select .. | toList _ | one _ | rowNumber | method .. =>
    .error (Error.liesIn_unsupported _ _)

theorem evaluateAll_failsIn (whole : Expr) : (es : List Expr) →
    (∀ e ∈ es, e ∈ whole.operands) → FailsIn whole (evaluateAll arguments es)
  | [], _ => .ok _
  | e :: es, h => by
    obtain ⟨he, hes⟩ := List.forall_mem_cons.mp h
    exact ((evaluate_failsIn e).mono (isPartOf_of_mem he)).bind fun _ =>
      (evaluateAll_failsIn whole es hes).bind fun _ => .ok _

theorem evaluateCases_failsIn (whole : Expr) : (bs : List (Expr × Expr)) →
    (∀ e ∈ branchParts bs, e ∈ whole.operands) → FailsIn whole (evaluateCases arguments bs)
  | [], _ => .ok _
  | (test, value) :: rest, h => by
    obtain ⟨htest, h⟩ := List.forall_mem_cons.mp h
    obtain ⟨hvalue, hrest⟩ := List.forall_mem_cons.mp h
    refine ((evaluate_failsIn test).mono (isPartOf_of_mem htest)).bind fun v => ?_
    split
    · exact ((evaluate_failsIn value).mono (isPartOf_of_mem hvalue)).bind fun _ => .ok _
    · exact evaluateCases_failsIn whole rest hrest

theorem evaluateCasesOf_failsIn (whole : Expr) (subject : Value) : (bs : List (Expr × Expr)) →
    (∀ e ∈ branchParts bs, e ∈ whole.operands) →
    FailsIn whole (evaluateCasesOf arguments subject bs)
  | [], _ => .ok _
  | (key, value) :: rest, h => by
    obtain ⟨hkey, h⟩ := List.forall_mem_cons.mp h
    obtain ⟨hvalue, hrest⟩ := List.forall_mem_cons.mp h
    refine ((evaluate_failsIn key).mono (isPartOf_of_mem hkey)).bind fun k => ?_
    split
    · exact ((evaluate_failsIn value).mono (isPartOf_of_mem hvalue)).bind fun _ => .ok _
    · exact evaluateCasesOf_failsIn whole subject rest hrest

end

end Expr

end NestedQuery
