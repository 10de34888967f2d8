import NestedQuery.Mapping.Operand
import NestedQuery.Proofs.Result

/-!
# Free variables

`Expr.freeVars` are the variables of an expression that no enclosing `select` of it binds; a mapping
without any stands on its own. A failure is ordinary if it breaks no invariant, apart from that of a
variable that nothing binds (`Error.IsOrdinary`). Evaluating an expression that reads no row fails
in ordinary ways only (`Expr.evaluate_isOrdinary`), since row data is never asked for.
-/

namespace NestedQuery

namespace Expr

mutual

/-- The variables that stand outside the body of every `select` that binds their name. -/
def freeVars : Expr → List String
  | row | args | constant _ | rowNumber => []
  | var name => [name]
  | member base _ => base.freeVars
  | unary _ operand => operand.freeVars
  | binary _ left right => left.freeVars ++ right.freeVars
  | tuple items | array items => freeVarsAll items
  | object members => freeVarsMembers members
  | conditional test ifTrue ifFalse => test.freeVars ++ (ifTrue.freeVars ++ ifFalse.freeVars)
  | cases branches otherwise => freeVarsBranches branches ++ otherwise.freeVars
  | casesOf subject branches otherwise =>
    subject.freeVars ++ (freeVarsBranches branches ++ otherwise.freeVars)
  | aggregate _ source => source.freeVars
  | apply _ operand => operand.freeVars
  | select source param body => source.freeVars ++ body.freeVars.filter fun name => name != param
  | toList source | one source => source.freeVars
  | isIn value set => value.freeVars ++ set.freeVars
  | contains set value => set.freeVars ++ value.freeVars
  | method receiver _ arguments => receiver.freeVars ++ freeVarsAll arguments

/-- The free variables of several expressions. -/
def freeVarsAll : List Expr → List String
  | [] => []
  | e :: es => e.freeVars ++ freeVarsAll es

/-- The free variables of the members of an object. -/
def freeVarsMembers : List (String × Expr) → List String
  | [] => []
  | (_, e) :: es => e.freeVars ++ freeVarsMembers es

/-- The free variables of the branches of a case. -/
def freeVarsBranches : List (Expr × Expr) → List String
  | [] => []
  | (test, value) :: rest => test.freeVars ++ (value.freeVars ++ freeVarsBranches rest)

end

mutual

/-- An expression that reads no row has no free variables. -/
theorem freeVars_eq_nil : (e : Expr) → e.readsRow = false → e.freeVars = []
  | row, h | var _, h | rowNumber, h | select .., h => (Bool.false_ne_true h.symm).elim
  | args, _ | constant _, _ => rfl
  | member operand _, h | unary _ operand, h | apply _ operand, h | aggregate _ operand, h
  | toList operand, h | one operand, h => freeVars_eq_nil operand h
  | binary _ left right, h =>
    have h := Bool.or_eq_false_iff.mp h
    List.append_eq_nil_iff.mpr ⟨freeVars_eq_nil left h.1, freeVars_eq_nil right h.2⟩
  | tuple items, h | array items, h => freeVarsAll_eq_nil items h
  | object members, h => freeVarsMembers_eq_nil members h
  | conditional test ifTrue ifFalse, h =>
    have h := Bool.or_eq_false_iff.mp h
    have htv := Bool.or_eq_false_iff.mp h.1
    List.append_eq_nil_iff.mpr ⟨freeVars_eq_nil test htv.1, List.append_eq_nil_iff.mpr
      ⟨freeVars_eq_nil ifTrue htv.2, freeVars_eq_nil ifFalse h.2⟩⟩
  | cases branches otherwise, h =>
    have h := Bool.or_eq_false_iff.mp h
    List.append_eq_nil_iff.mpr ⟨freeVarsBranches_eq_nil branches h.1, freeVars_eq_nil otherwise h.2⟩
  | casesOf subject branches otherwise, h =>
    have h := Bool.or_eq_false_iff.mp h
    have hsb := Bool.or_eq_false_iff.mp h.1
    List.append_eq_nil_iff.mpr ⟨freeVars_eq_nil subject hsb.1, List.append_eq_nil_iff.mpr
      ⟨freeVarsBranches_eq_nil branches hsb.2, freeVars_eq_nil otherwise h.2⟩⟩
  | isIn value set, h =>
    have h := Bool.or_eq_false_iff.mp h
    List.append_eq_nil_iff.mpr ⟨freeVars_eq_nil value h.1, freeVars_eq_nil set h.2⟩
  | contains set value, h =>
    have h := Bool.or_eq_false_iff.mp h
    List.append_eq_nil_iff.mpr ⟨freeVars_eq_nil set h.2, freeVars_eq_nil value h.1⟩
  | method receiver _ arguments, h =>
    have h := Bool.or_eq_false_iff.mp h
    List.append_eq_nil_iff.mpr ⟨freeVars_eq_nil receiver h.1, freeVarsAll_eq_nil arguments h.2⟩

theorem freeVarsAll_eq_nil : (es : List Expr) → anyReadsRow es = false → freeVarsAll es = []
  | [], _ => rfl
  | e :: es, h =>
    have h := Bool.or_eq_false_iff.mp h
    List.append_eq_nil_iff.mpr ⟨freeVars_eq_nil e h.1, freeVarsAll_eq_nil es h.2⟩

theorem freeVarsMembers_eq_nil : (es : List (String × Expr)) → anyMemberReadsRow es = false →
    freeVarsMembers es = []
  | [], _ => rfl
  | (_, e) :: es, h =>
    have h := Bool.or_eq_false_iff.mp h
    List.append_eq_nil_iff.mpr ⟨freeVars_eq_nil e h.1, freeVarsMembers_eq_nil es h.2⟩

theorem freeVarsBranches_eq_nil : (bs : List (Expr × Expr)) → anyBranchReadsRow bs = false →
    freeVarsBranches bs = []
  | [], _ => rfl
  | (test, value) :: rest, h =>
    have h := Bool.or_eq_false_iff.mp h
    have htv := Bool.or_eq_false_iff.mp h.1
    List.append_eq_nil_iff.mpr ⟨freeVars_eq_nil test htv.1, List.append_eq_nil_iff.mpr
      ⟨freeVars_eq_nil value htv.2, freeVarsBranches_eq_nil rest h.2⟩⟩

end

/-- Every variable stands inside the body of a `select` that binds its name. -/
def IsScoped (e : Expr) : Prop :=
  e.freeVars = []

instance (e : Expr) : Decidable e.IsScoped :=
  inferInstanceAs (Decidable (e.freeVars = []))

end Expr

/-! ### Ordinary failures -/

variable {α β : Type} {unbound : String → Prop}

/-- A failure that breaks no invariant, unless one of the variables `unbound` is used. -/
def Error.IsOrdinary (unbound : String → Prop) (e : Error) : Prop :=
  ∀ i, e.rootCause = .invariant i → ∃ name, unbound name ∧ i = .unboundVariable name

/-- If the step fails, it does so in an ordinary way. -/
def Result.IsOrdinary (unbound : String → Prop) (x : Result α) : Prop :=
  ∀ e, x = .error e → e.IsOrdinary unbound

theorem Error.IsOrdinary.wrap {e : Error} (h : e.IsOrdinary unbound) (text : String) :
    (e.wrap text).IsOrdinary unbound := by
  intro i hi
  rw [Error.rootCause_wrap] at hi
  exact h i hi

theorem Error.isOrdinary_unsupported (subject : String) (reason : Unsupported) :
    (Error.unsupported subject reason).IsOrdinary unbound :=
  nofun

theorem Error.isOrdinary_unbindable (reason : Unbindable) :
    (Error.unbindable reason).IsOrdinary unbound :=
  nofun

namespace Result

theorem isOrdinary_ok (a : α) : IsOrdinary unbound (.ok a : Result α) :=
  nofun

theorem isOrdinary_error {e : Error} (h : e.IsOrdinary unbound) :
    IsOrdinary unbound (.error e : Result α) := by
  intro e' he
  rw [← Except.error.inj he]
  exact h

theorem IsOrdinary.bind {x : Result α} {f : α → Result β} (hx : IsOrdinary unbound x)
    (hf : ∀ a, x = .ok a → IsOrdinary unbound (f a)) : IsOrdinary unbound (x >>= f) := by
  intro e he
  rcases bind_eq_error_iff.mp he with h | ⟨a, ha, h⟩
  · exact hx e h
  · exact hf a ha e h

/-- What comes after a step that succeeds always may be left out. -/
theorem IsOrdinary.bind_pure {x : Result α} (hx : IsOrdinary unbound x) (f : α → β) :
    IsOrdinary unbound (x >>= fun a => pure (f a)) :=
  hx.bind fun a _ => isOrdinary_ok (f a)

end Result

/-! ### Evaluation -/

mutual

theorem Value.ofDocument_isOrdinary : (d : Document) →
    Result.IsOrdinary unbound (Value.ofDocument d)
  | .null | .bool _ | .integer _ | .unsigned _ | .float _ | .text _ => Result.isOrdinary_ok _
  | .array items => (ofDocuments_isOrdinary items).bind_pure _
  | .object _ => Result.isOrdinary_error (Error.isOrdinary_unbindable _)

theorem Value.ofDocuments_isOrdinary : (ds : List Document) →
    Result.IsOrdinary unbound (Value.ofDocuments ds)
  | [] => Result.isOrdinary_ok _
  | d :: ds => (ofDocument_isOrdinary d).bind fun v _ =>
      (ofDocuments_isOrdinary ds).bind_pure fun vs => v :: vs

end

namespace Expr

variable {arguments : Document}

theorem navigate_isOrdinary (e : Expr) : Result.IsOrdinary unbound (e.navigate arguments) := by
  cases e with
  | args => exact Result.isOrdinary_ok _
  | member base name =>
    refine (navigate_isOrdinary base).bind fun parent _ => ?_
    split
    · exact Result.isOrdinary_ok _
    · exact Result.isOrdinary_error (Error.isOrdinary_unbindable _)
  | _ => exact Result.isOrdinary_error (Error.isOrdinary_unsupported _ _)
termination_by structural e

theorem orOperandTypes_isOrdinary (e : Expr) (v? : Option Value) :
    Result.IsOrdinary unbound (e.orOperandTypes v?) := by
  cases v? with
  | none => exact Result.isOrdinary_error (Error.isOrdinary_unbindable _)
  | some v => exact Result.isOrdinary_ok v

theorem membership_isOrdinary (e : Expr) (v set : Value) :
    Result.IsOrdinary unbound (e.membership v set) := by
  cases set with
  | list items => exact Result.isOrdinary_ok _
  | _ => exact Result.isOrdinary_error (Error.isOrdinary_unbindable _)

mutual

/-- **An expression that reads no row** needs no row data. -/
theorem evaluate_isOrdinary : (e : Expr) → e.readsRow = false →
    Result.IsOrdinary unbound (e.evaluate arguments)
  | row, h | var _, h | rowNumber, h | select .., h => nomatch h
  | args, _ => Value.ofDocument_isOrdinary arguments
  | constant _, _ => Result.isOrdinary_ok _
  | member base name, _ => (navigate_isOrdinary (member base name)).bind fun d _ =>
      Value.ofDocument_isOrdinary d
  | unary _ operand, h => (evaluate_isOrdinary operand h).bind fun _ _ =>
      orOperandTypes_isOrdinary _ _
  | binary _ left right, h => by
    obtain ⟨hl, hr⟩ := Bool.or_eq_false_iff.mp h
    exact (evaluate_isOrdinary left hl).bind fun v _ => (evaluate_isOrdinary right hr).bind
      fun w _ => orOperandTypes_isOrdinary _ _
  | tuple items, h | array items, h => (evaluateAll_isOrdinary items h).bind_pure _
  | object _, _ => Result.isOrdinary_error (Error.isOrdinary_unsupported _ _)
  | conditional test ifTrue ifFalse, h => by
    obtain ⟨h, hf⟩ := Bool.or_eq_false_iff.mp h
    obtain ⟨ht, hv⟩ := Bool.or_eq_false_iff.mp h
    refine (evaluate_isOrdinary test ht).bind fun v _ => ?_
    split
    · exact evaluate_isOrdinary ifTrue hv
    · exact evaluate_isOrdinary ifFalse hf
  | cases branches otherwise, h => by
    obtain ⟨hbs, ho⟩ := Bool.or_eq_false_iff.mp h
    refine (evaluateCases_isOrdinary branches hbs).bind fun v? _ => ?_
    cases v? with
    | none => exact evaluate_isOrdinary otherwise ho
    | some v => exact Result.isOrdinary_ok v
  | casesOf subject branches otherwise, h => by
    obtain ⟨h, ho⟩ := Bool.or_eq_false_iff.mp h
    obtain ⟨hk, hbs⟩ := Bool.or_eq_false_iff.mp h
    refine (evaluate_isOrdinary subject hk).bind fun k _ => ?_
    refine (evaluateCasesOf_isOrdinary k branches hbs).bind fun v? _ => ?_
    cases v? with
    | none => exact evaluate_isOrdinary otherwise ho
    | some v => exact Result.isOrdinary_ok v
  | isIn value set, h | contains set value, h => by
    obtain ⟨hv, hs⟩ := Bool.or_eq_false_iff.mp h
    exact (evaluate_isOrdinary value hv).bind fun v _ => (evaluate_isOrdinary set hs).bind
      fun w _ => membership_isOrdinary _ v w
  | apply _ operand, h => (evaluate_isOrdinary operand h).bind fun _ _ =>
      orOperandTypes_isOrdinary _ _
  | aggregate .., _ | toList _, _ | one _, _ | method .., _ =>
    Result.isOrdinary_error (Error.isOrdinary_unsupported _ _)

theorem evaluateAll_isOrdinary : (es : List Expr) → anyReadsRow es = false →
    Result.IsOrdinary unbound (evaluateAll arguments es)
  | [], _ => Result.isOrdinary_ok _
  | e :: es, h => by
    obtain ⟨he, hes⟩ := Bool.or_eq_false_iff.mp h
    exact (evaluate_isOrdinary e he).bind fun v _ => (evaluateAll_isOrdinary es hes).bind_pure _

theorem evaluateCases_isOrdinary : (bs : List (Expr × Expr)) → anyBranchReadsRow bs = false →
    Result.IsOrdinary unbound (evaluateCases arguments bs)
  | [], _ => Result.isOrdinary_ok _
  | (test, value) :: rest, h => by
    obtain ⟨h, hrest⟩ := Bool.or_eq_false_iff.mp h
    obtain ⟨ht, hv⟩ := Bool.or_eq_false_iff.mp h
    refine (evaluate_isOrdinary test ht).bind fun v _ => ?_
    split
    · exact (evaluate_isOrdinary value hv).bind_pure _
    · exact evaluateCases_isOrdinary rest hrest

theorem evaluateCasesOf_isOrdinary (subject : Value) : (bs : List (Expr × Expr)) →
    anyBranchReadsRow bs = false →
    Result.IsOrdinary unbound (evaluateCasesOf arguments subject bs)
  | [], _ => Result.isOrdinary_ok _
  | (key, value) :: rest, h => by
    obtain ⟨h, hrest⟩ := Bool.or_eq_false_iff.mp h
    obtain ⟨hk, hv⟩ := Bool.or_eq_false_iff.mp h
    refine (evaluate_isOrdinary key hk).bind fun k _ => ?_
    split
    · exact (evaluate_isOrdinary value hv).bind_pure _
    · exact evaluateCasesOf_isOrdinary subject rest hrest

end

end Expr

end NestedQuery
