import NestedQuery.Proofs.Expr.Parts
import NestedQuery.Proofs.Mapping.Steps

/-!
# Breadcrumbs of a failed compilation

Every step of the compiler that fails does so inside the expression that is compiled
(`Compile.FailsIn`): it names a part of it as the cause, and the breadcrumbs on the way are parts
that lie one inside the other. What the compiler makes up itself, the chains to the members of a
whole table or shape, fails only where an invariant is broken, and that names nothing.

By induction over expressions (`compile_failsIn`) the breadcrumbs of mappings and conditions descend
into them: `breadcrumbs_descend`.
-/

namespace NestedQuery

open Compile

/-! ### Steps -/

namespace Compile

variable {α β : Type} {e f : Expr}

theorem fails_within_iff {x : Compile α} {c : Collected} {err : Error} :
    Fails (within e x) c err ↔ ∃ inner, Fails x c inner ∧ err = inner.wrap e.text := by
  unfold Fails within
  rw [ExceptT.run_tryCatch, StateT.run_bind]
  rcases h : x.run.run c with ⟨inner | a, c₁⟩
  · show (Except.error _ : Except Error α) = .error err ↔ _
    rw [Except.error.injEq, eq_comm]
    exact ⟨fun heq => ⟨inner, rfl, heq⟩, fun ⟨_, hinner, heq⟩ => Except.error.inj hinner ▸ heq⟩
  · exact ⟨nofun, fun ⟨_, hinner, _⟩ => nomatch hinner⟩

/-- Wherever the step fails, its failure lies in `e`. -/
def FailsIn (e : Expr) (x : Compile α) : Prop :=
  ∀ c err, Fails x c err → err.LiesIn e

namespace FailsIn

theorem pure (a : α) : FailsIn e (Pure.pure a : Compile α) :=
  fun _ _ h => absurd h not_fails_pure

theorem throw {err : Error} (h : err.LiesIn e) : FailsIn e (MonadExcept.throw err : Compile α) :=
  fun _ _ hfails => fails_throw_iff.mp hfails ▸ h

theorem refuse (e : Expr) (reason : Unsupported) : FailsIn e (refuse e reason : Compile α) :=
  throw (Error.liesIn_unsupported e reason)

theorem bind {x : Compile α} {k : α → Compile β} (hx : FailsIn e x)
    (hk : ∀ a, FailsIn e (k a)) : FailsIn e (x >>= k) := by
  intro c err h
  rcases fails_bind_iff.mp h with h | ⟨a, c₁, -, h⟩
  · exact hx c err h
  · exact hk a c₁ err h

theorem mono {x : Compile α} (hx : FailsIn f x) (hf : f.IsPartOf e) : FailsIn e x :=
  fun c err h => (hx c err h).mono hf

theorem within {x : Compile α} (hx : FailsIn e x) : FailsIn e (within e x) := by
  intro c err h
  obtain ⟨inner, hinner, rfl⟩ := fails_within_iff.mp h
  exact (hx c inner hinner).wrap

theorem get : FailsIn e (MonadState.get : Compile Collected) :=
  fun _ _ h => absurd h not_fails_get

theorem set (c : Collected) : FailsIn e (MonadStateOf.set c : Compile Unit) :=
  fun _ _ h => absurd h (not_fails_modify (f := fun _ => c))

theorem ofResult {x : Result α} (hx : Result.FailsIn e x) : FailsIn e (ofResult x) := by
  cases x with
  | ok a => exact pure a
  | error err => exact throw (hx err rfl)

end FailsIn

/-- Parameters and bindings are added without a failure. -/
theorem register_failsIn (e : Expr) (source : ParamSource) : FailsIn e (register source) :=
  FailsIn.get.bind fun _ => (FailsIn.set _).bind fun _ => .pure _

theorem markExpanded_failsIn (e : Expr) (id : ParamId) : FailsIn e (markExpanded id) :=
  fun _ _ h => absurd h not_fails_modify

theorem bind_failsIn (e : Expr) (root : Root) (path : List String) :
    FailsIn e (Compile.bind root path) :=
  FailsIn.get.bind fun _ => (FailsIn.set _).bind fun _ => .pure _

theorem qualifyWithin_failsIn (e : Expr) (bindings : List Binding) (steps : Nat) (root : Root)
    (path : List String) : Result.FailsIn e (qualifyWithin bindings steps root path) := by
  induction steps generalizing root path with
  | zero => exact .error (Error.liesIn_invariant e _)
  | succ steps ih =>
    cases root with
    | row => exact .ok path
    | binding id =>
      unfold qualifyWithin
      split
      · exact ih _ _
      · exact .error (Error.liesIn_invariant e _)

/-- Looking up a path fails only where bindings are missing or go round in a circle. -/
theorem lookup_failsIn (e : Expr) (s : Statement) (root : Root) (path : List String) :
    FailsIn e (lookup s root path) :=
  FailsIn.get.bind fun _ =>
    (FailsIn.ofResult (qualifyWithin_failsIn e _ _ _ _)).bind fun _ => .pure _

theorem typeAt_failsIn (e : Expr) (s : Statement) (root : Root) (path : List String) :
    FailsIn e (typeAt s root path) := by
  refine (lookup_failsIn e s root path).bind fun l? => ?_
  split <;> exact .pure _

end Compile

section

variable (s : Statement)

/-! ### Chains and expansion -/

theorem compileChain_failsIn (e : Expr) (root : Root) (path : List String)
    (tables : List MappedTable) : FailsIn e (compileChain s root path tables) :=
  (typeAt_failsIn e s root path).bind fun _ => .pure _

theorem whole?_failsIn (e : Expr) (c : Compiled) : FailsIn e (whole? s c) := by
  unfold whole?
  split
  · exact .pure _
  · refine (lookup_failsIn e s _ _).bind fun l? => ?_
    split <;> exact .pure _

theorem compileMember_failsIn (e base : Expr) (name : String) (c : Compiled) :
    FailsIn e (compileMember s e base name c) := by
  unfold compileMember
  split
  · exact compileChain_failsIn s e _ _ _
  · dsimp only
    split
    · exact .refuse e _
    · exact .pure _

theorem objectOf_failsIn {e : Expr} {value : String → Compile Compiled}
    (hvalue : ∀ name, FailsIn e (value name)) (names : List String) :
    FailsIn e (objectOf value names) := by
  induction names with
  | nil => exact .pure _
  | cons name names ih => exact (hvalue name).bind fun _ => ih.bind fun _ => .pure _

theorem expandWith_failsIn {e : Expr} {inner : Scope → Root → List String → Compile Compiled}
    (hinner : ∀ scope root path, FailsIn e (inner scope root path)) (scope : Scope) (root : Root)
    (path : List String) : FailsIn e (expandWith inner s scope root path) := by
  refine (lookup_failsIn e s root path).bind fun l? => ?_
  split
  · exact objectOf_failsIn (fun _ => hinner _ _ _) _
  · dsimp only
    split
    · exact objectOf_failsIn (fun _ => hinner _ _ _) _
    · split
      · exact (objectOf_failsIn (fun _ => hinner _ _ _) _).bind fun _ => .pure _
      · exact (bind_failsIn e root path).bind fun _ =>
          (objectOf_failsIn (fun _ => hinner _ _ _) _).bind fun _ => .pure _
  · exact compileChain_failsIn s e _ _ _

/-- A whole table or shape is expanded without a failure of its own. -/
theorem expandWhole_failsIn (e : Expr) (scope : Scope) (c : Compiled) :
    FailsIn e (expandWhole s scope c) := by
  refine (whole?_failsIn s e c).bind fun w? => ?_
  split
  · exact .pure _
  · exact (expandWith_failsIn s (fun _ _ _ => expandWith_failsIn s
      (fun _ _ _ => compileChain_failsIn s e _ _ _) _ _ _) _ _ _).bind fun _ => .pure _

/-! ### Parameters and operands -/

theorem registerParameter_failsIn (e : Expr) : FailsIn e (registerParameter e) := by
  unfold registerParameter
  split
  · exact (register_failsIn e _).bind fun _ => .pure _
  · exact (FailsIn.ofResult (Expr.evaluate_failsIn .null e)).within.bind fun _ =>
      (register_failsIn e _).bind fun _ => .pure _

theorem compileParameter_failsIn (e : Expr) : FailsIn e (compileParameter e) :=
  (registerParameter_failsIn e).bind fun _ => .pure _

theorem toOperand_failsIn (e : Expr) (c : Compiled) : FailsIn e (toOperand s e c) := by
  refine (whole?_failsIn s e c).bind fun w? => ?_
  split
  · exact .refuse e _
  · exact .refuse e _
  · split
    · exact .pure _
    · exact .refuse e _

/-- The operand is inside the operation, so its failures are, too. -/
theorem operandOf_failsIn {parent child : Expr} (hchild : child.IsPartOf parent)
    {action : Compile Compiled} (haction : FailsIn child action) :
    FailsIn parent (operandOf s parent child action) :=
  (haction.mono hchild).within.bind fun c => ((toOperand_failsIn s child c).mono hchild).within

/-! ### Membership -/

theorem membershipItem_failsIn (item : Expr) : FailsIn item (membershipItem item) := by
  unfold membershipItem
  split
  · exact .throw (Error.liesIn_rowInMembership item)
  · exact (registerParameter_failsIn item).bind fun _ => .pure _

theorem membershipItems_failsIn {set : Expr} {items : List Expr}
    (hitems : ∀ item ∈ items, item.IsPartOf set) (list : Accumulator Symbol) :
    FailsIn set (membershipItems list items) := by
  induction items generalizing list with
  | nil => exact .pure _
  | cons item items ih =>
    obtain ⟨hitem, hitems⟩ := List.forall_mem_cons.mp hitems
    exact ((membershipItem_failsIn item).mono hitem).bind fun _ => ih hitems _

/-- An item that reads the row is the cause itself, without a breadcrumb for the set. -/
theorem membershipList_failsIn (set : Expr) : FailsIn set (membershipList set) := by
  unfold membershipList
  split
  · exact (register_failsIn _ _).bind fun _ => (markExpanded_failsIn _ _).bind fun _ => .pure _
  · rename_i item items
    have hparts : ∀ f ∈ item :: items, f.IsPartOf (.array (item :: items)) :=
      fun f hf => Expr.isPartOf_of_mem hf
    obtain ⟨hitem, hitems⟩ := List.forall_mem_cons.mp hparts
    exact ((membershipItem_failsIn item).mono hitem).bind (membershipItems_failsIn hitems)
  · split
    · exact .throw (Error.liesIn_rowInMembership set)
    · exact (registerParameter_failsIn set).bind fun _ =>
        (markExpanded_failsIn set _).bind fun _ => .pure _

theorem compileMembership_failsIn {e set : Expr} (hset : set.IsPartOf e) (o : Operand) :
    FailsIn e (compileMembership o set) :=
  ((membershipList_failsIn set).mono hset).bind fun _ => .pure _

/-! ### Collections -/

theorem compileAggregate_failsIn (scope : Scope) (e : Expr) (function : Aggregate)
    (c : Compiled) : FailsIn e (compileAggregate s scope e function c) := by
  refine (whole?_failsIn s e c).bind fun w? => ?_
  cases c.value? with
  | none => exact .refuse e _
  | some o =>
    dsimp only
    split
    · split
      · exact (FailsIn.pure _).bind fun _ => .pure _
      · exact (FailsIn.refuse e _).bind fun _ => .pure _
    · exact (FailsIn.refuse e _).bind fun _ => .pure _
    · exact (FailsIn.pure _).bind fun _ => .pure _

theorem compileRange_failsIn (e : Expr) (c : Compiled) : FailsIn e (compileRange s e c) := by
  unfold compileRange
  split
  · refine (lookup_failsIn e s _ _).bind fun l? => ?_
    split
    · exact .refuse e _
    · exact (bind_failsIn e _ _).bind fun _ => .pure _
    · exact (bind_failsIn e _ _).bind fun _ => .pure _
  · exact .refuse e _

theorem compileOne_failsIn (e : Expr) (c : Compiled) : FailsIn e (compileOne e c) := by
  unfold compileOne
  dsimp only
  split
  · exact .pure _
  · exact .refuse e _

/-- A value in the place of one, inside a larger expression. -/
theorem compileValue_failsIn {e whole : Expr} (he : e.IsPartOf whole) {action : Compile Compiled}
    (haction : FailsIn e action) (scope : Scope) :
    FailsIn whole (within whole (action >>= fun c => expandWhole s scope c)) :=
  ((haction.mono he).bind fun c => expandWhole_failsIn s whole scope c).within

/-- The alternative of a conditional that is a part of `whole`. -/
theorem alternative_failsIn {whole e : Expr} (he : e.IsPartOf whole) {action : Compile Compiled}
    (haction : FailsIn e action) {further? : Option (Compile (CompiledBranches × Operand))}
    (hfurther : ∀ further, further? = some further → FailsIn whole further) :
    FailsIn whole (alternative s whole e action further?) := by
  cases further? with
  | some further => exact hfurther further rfl
  | none => exact (operandOf_failsIn s he haction).bind fun _ => .pure _

end

/-! ### Expressions -/

mutual

/-- **Compiling** fails inside the expression. -/
theorem compile_failsIn (s : Statement) (e : Expr) (scope : Scope) :
    FailsIn e (compile s scope e) := by
  have hpart : ∀ {f : Expr}, f ∈ e.operands → f.IsPartOf e := Expr.isPartOf_of_mem
  unfold compile
  split
  · exact compileParameter_failsIn e
  cases e with
  | row => exact compileChain_failsIn s _ _ _ _
  | args => exact compileParameter_failsIn _
  | var name =>
    dsimp only
    split
    · exact compileChain_failsIn s _ _ _ _
    · exact .throw (Error.liesIn_invariant _ _)
  | constant v => exact compileParameter_failsIn _
  | member base name =>
    have hbase := (compile_failsIn s base scope).mono (hpart (by simp [Expr.operands]))
    exact hbase.within.bind fun c => compileMember_failsIn s _ _ _ c
  | unary op operand =>
    refine (operandOf_failsIn s (hpart (by simp [Expr.operands]))
      (compile_failsIn s operand scope)).bind fun o => ?_
    cases op <;> exact .pure _
  | binary op left right =>
    have hleft := operandOf_failsIn s (hpart (by simp [Expr.operands]))
      (compile_failsIn s left scope)
    have hright := operandOf_failsIn s (hpart (by simp [Expr.operands]))
      (compile_failsIn s right scope)
    cases op with
    | isIn =>
      exact hleft.bind fun o => compileMembership_failsIn (hpart (by simp [Expr.operands])) o
    | comma => exact .refuse _ _
    | _ => exact hleft.bind fun l => hright.bind fun r => .pure _
  | tuple items => exact compileItems_failsIn s items _ (fun _ hf => hpart hf) scope 0
  | array items => exact compileItems_failsIn s items _ (fun _ hf => hpart hf) scope 0
  | object members => exact compileMembers_failsIn s members _ (fun _ hf => hpart hf) scope
  | conditional test ifTrue ifFalse =>
    have htest := operandOf_failsIn s (hpart (by simp [Expr.operands]))
      (compile_failsIn s test scope)
    have hvalue := operandOf_failsIn s (hpart (by simp [Expr.operands]))
      (compile_failsIn s ifTrue scope)
    have halternative := alternative_failsIn s (hpart (by simp [Expr.operands]))
      (compile_failsIn s ifFalse scope)
      (compileElse_failsIn s ifFalse _ (hpart (by simp [Expr.operands])) scope)
    exact htest.bind fun t => hvalue.bind fun v => halternative.bind fun _ => .pure _
  | cases branches otherwise =>
    have hbranches := compileBranches_failsIn s branches (.cases branches otherwise)
      (fun _ hf => hpart (List.mem_cons_of_mem _ hf)) scope
    have hotherwise := operandOf_failsIn s (hpart (List.mem_cons_self ..))
      (compile_failsIn s otherwise scope)
    exact hbranches.bind fun bs => hotherwise.bind fun o => .pure _
  | casesOf subject branches otherwise =>
    have hsubject := operandOf_failsIn s (hpart (List.mem_cons_self ..))
      (compile_failsIn s subject scope)
    have hbranches := compileBranches_failsIn s branches (.casesOf subject branches otherwise)
      (fun _ hf => hpart (List.mem_cons_of_mem _ (List.mem_cons_of_mem _ hf))) scope
    have hotherwise := operandOf_failsIn s
      (hpart (List.mem_cons_of_mem _ (List.mem_cons_self ..))) (compile_failsIn s otherwise scope)
    exact hsubject.bind fun k => hbranches.bind fun bs => hotherwise.bind fun o => .pure _
  | aggregate function source =>
    have hsource := (compile_failsIn s source { scope with beneath := true }).mono
      (hpart (by simp [Expr.operands]))
    exact hsource.within.bind fun c => compileAggregate_failsIn s scope _ function c
  | apply function operand =>
    exact (operandOf_failsIn s (hpart (by simp [Expr.operands]))
      (compile_failsIn s operand scope)).bind fun o => .pure _
  | select source param body =>
    have hsource := (compile_failsIn s source scope).mono (hpart (by simp [Expr.operands]))
    refine hsource.within.bind fun c => (compileRange_failsIn s _ c).bind fun range => ?_
    exact (compileValue_failsIn s (hpart (by simp [Expr.operands]))
      (compile_failsIn s body (range.scope scope param)) _).bind fun b => .pure _
  | toList source =>
    exact compileValue_failsIn s (hpart (by simp [Expr.operands])) (compile_failsIn s source scope)
      scope
  | one source =>
    exact (compileValue_failsIn s (hpart (by simp [Expr.operands]))
      (compile_failsIn s source scope) scope).bind fun c => compileOne_failsIn _ c
  | rowNumber => exact .pure _
  | isIn value set =>
    exact (operandOf_failsIn s (hpart (by simp [Expr.operands]))
      (compile_failsIn s value scope)).bind fun o =>
        compileMembership_failsIn (hpart (by simp [Expr.operands])) o
  | contains set value =>
    exact (operandOf_failsIn s (hpart (by simp [Expr.operands]))
      (compile_failsIn s value scope)).bind fun o =>
        compileMembership_failsIn (hpart (by simp [Expr.operands])) o
  | method receiver name arguments => exact .refuse _ _
termination_by structural e

theorem compileItems_failsIn (s : Statement) (es : List Expr) (whole : Expr)
    (hes : ∀ e ∈ es, e.IsPartOf whole) (scope : Scope) (index : Nat) :
    FailsIn whole (compileItems s scope whole index es) := by
  cases es with
  | nil => exact .pure _
  | cons e es =>
    obtain ⟨he, hes⟩ := List.forall_mem_cons.mp hes
    exact (compileValue_failsIn s he (compile_failsIn s e scope) scope).bind fun c =>
      (compileItems_failsIn s es whole hes scope (index + 1)).bind fun _ => .pure _
termination_by structural es

theorem compileMembers_failsIn (s : Statement) (es : List (String × Expr)) (whole : Expr)
    (hes : ∀ e ∈ Expr.memberValues es, e.IsPartOf whole) (scope : Scope) :
    FailsIn whole (compileMembers s scope whole es) := by
  cases es with
  | nil => exact .pure _
  | cons member es =>
    obtain ⟨name, e⟩ := member
    obtain ⟨he, hes⟩ := List.forall_mem_cons.mp hes
    exact (compileValue_failsIn s he (compile_failsIn s e scope) scope).bind fun c =>
      (compileMembers_failsIn s es whole hes scope).bind fun _ => .pure _
termination_by structural es

theorem compileBranches_failsIn (s : Statement) (bs : List (Expr × Expr)) (whole : Expr)
    (hbs : ∀ e ∈ Expr.branchParts bs, e.IsPartOf whole) (scope : Scope) :
    FailsIn whole (compileBranches s scope whole bs) := by
  cases bs with
  | nil => exact .pure _
  | cons branch rest =>
    obtain ⟨test, value⟩ := branch
    obtain ⟨htest, hbs⟩ := List.forall_mem_cons.mp hbs
    obtain ⟨hvalue, hrest⟩ := List.forall_mem_cons.mp hbs
    exact (operandOf_failsIn s htest (compile_failsIn s test scope)).bind fun t =>
      (operandOf_failsIn s hvalue (compile_failsIn s value scope)).bind fun v =>
        (compileBranches_failsIn s rest whole hrest scope).bind fun _ => .pure _
termination_by structural bs

/-- The branches of a conditional inside another get the breadcrumb of the outermost one. -/
theorem compileElse_failsIn (s : Statement) (e whole : Expr) (he : e.IsPartOf whole)
    (scope : Scope) (further : Compile (CompiledBranches × Operand))
    (hfurther : compileElse s scope whole e = some further) : FailsIn whole further := by
  have hpart : ∀ {f : Expr}, f ∈ e.operands → f.IsPartOf whole :=
    fun hf => he.trans (Expr.isPartOf_of_mem hf)
  cases e with
  | conditional test ifTrue ifFalse =>
    rw [← Option.some.inj hfurther]
    have htest := operandOf_failsIn s (hpart (by simp [Expr.operands]))
      (compile_failsIn s test scope)
    have hvalue := operandOf_failsIn s (hpart (by simp [Expr.operands]))
      (compile_failsIn s ifTrue scope)
    have halternative := alternative_failsIn s (hpart (by simp [Expr.operands]))
      (compile_failsIn s ifFalse scope)
      (compileElse_failsIn s ifFalse whole (hpart (by simp [Expr.operands])) scope)
    exact htest.bind fun t => hvalue.bind fun v => halternative.bind fun _ => .pure _
  | _ => exact absurd hfurther (by simp [compileElse])
termination_by structural e

end

/-! ### Mappings and conditions -/

theorem compileMapping_failsIn (s : Statement) (e : Expr) : FailsIn e (compileMapping s e) :=
  (compile_failsIn s e .outermost).bind fun c => expandWhole_failsIn s e .outermost c

theorem compileCondition_failsIn (s : Statement) (e : Expr) : FailsIn e (compileCondition s e) := by
  refine (compile_failsIn s e .outermost).bind fun c => (toOperand_failsIn s e c).bind fun o => ?_
  split
  · exact .pure _
  · exact .refuse e _

/-- **Breadcrumbs descend into the mapping.** If a mapping or a condition does not compile, the
breadcrumbs of the error are the texts of parts of it, each one inside the part before it, and what
the root cause is about is the text of a part of the last of them, or of the whole expression if
there are none. -/
theorem breadcrumbs_descend {s : Statement} {e : Expr} {c : Collected} {err : Error}
    (h : Fails (compileMapping s e) c err ∨ Fails (compileCondition s e) c err) :
    ∃ trail : List Expr, err.breadcrumbs = trail.map Expr.text ∧
      (e :: trail).IsChain (fun outer inner => inner.IsPartOf outer) ∧
      ∀ subject, err.rootCause.subject? = some subject →
        ∃ f, Expr.IsPartOf f (trail.getLastD e) ∧ subject = f.text :=
  Error.LiesIn.exists_trail (h.elim (compileMapping_failsIn s e c err)
    (compileCondition_failsIn s e c err))

/-- People by their names. -/
def namedOnes : Statement where
  primary := ⟨"person", ⟨"person", [⟨"name", none, .text⟩]⟩⟩

/-- Whether the name is read backwards: SQL knows no such method. -/
def readBackwards : Expr :=
  .binary .eq (.method (.member (.member .row "person") "name") "reverse" [])
    (.constant (.text "nnA"))

/-- A label with two tests, the second in the alternative of the first. -/
def labelByName : Expr :=
  .conditional (.binary .eq (.member (.member .row "person") "name") (.constant (.text "Ann")))
    (.constant (.text "forwards"))
    (.conditional readBackwards (.constant (.text "backwards")) (.constant (.text "neither")))

/-- The breadcrumbs leave out the inner conditional, which is compiled as branches of the outer
one. -/
theorem breadcrumbs_descend_labelByName :
    ∃ err, Fails (compileMapping namedOnes (.object [("label", labelByName)])) {} err ∧
      err.breadcrumbs =
        [(Expr.object [("label", labelByName)]).text, labelByName.text, readBackwards.text] ∧
      ∃ trail : List Expr, err.breadcrumbs = trail.map Expr.text ∧
        (Expr.object [("label", labelByName)] :: trail).IsChain
          fun outer inner => inner.IsPartOf outer := by
  have hfails : ∃ err,
      Fails (compileMapping namedOnes (.object [("label", labelByName)])) {} err ∧
        err.breadcrumbs =
          [(Expr.object [("label", labelByName)]).text, labelByName.text, readBackwards.text] :=
    ⟨_, rfl, rfl⟩
  obtain ⟨err, h, hcrumbs⟩ := hfails
  obtain ⟨trail, htrail, hchain, -⟩ := breadcrumbs_descend (.inl h)
  exact ⟨err, h, hcrumbs, trail, htrail, hchain⟩

end NestedQuery
