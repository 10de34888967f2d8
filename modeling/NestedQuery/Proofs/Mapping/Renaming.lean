import NestedQuery.Proofs.Expr.Renaming
import NestedQuery.Proofs.Mapping.Simulation

/-!
# Names of parameters do not matter

A variable is compiled to the chain that the parameter of its `select` stands for, and the scope
finds that chain by the innermost `select` that binds the name. So two mappings that differ in the
names of parameters only compile to the same (`compileMapping_yields_iff_of_renames`): the scopes of
both hold the same chains under names that belong together (`Scope.Aligned`), and every step yields
the same in both (`SameYields`). Only the messages of failures show the names.
-/

namespace NestedQuery

open Compile
open NestedQuery.Expr (Renames RenamesAll RenamesMembers RenamesBranches)

/-! ### Scopes -/

/-- The same chains under the names of each side. -/
inductive AlignedLocals : (names : List (String × String)) →
    List (String × BindingId) → List (String × BindingId) → Prop
  | nil : AlignedLocals [] [] []
  | cons {names} {locals locals' : List (String × BindingId)} (m n : String) (b : BindingId) :
    AlignedLocals names locals locals' →
      AlignedLocals ((m, n) :: names) ((m, b) :: locals) ((n, b) :: locals')

/-- The scopes are the same apart from the names of parameters. -/
structure Scope.Aligned (names : List (String × String)) (scope scope' : Scope) : Prop where
  locals : AlignedLocals names scope.locals scope'.locals
  table : scope'.table = scope.table
  beneath : scope'.beneath = scope.beneath

/-- **Variables** that stand for the same parameter stand for the same chain. -/
theorem AlignedLocals.lookup_eq {names : List (String × String)}
    {locals locals' : List (String × BindingId)} (h : AlignedLocals names locals locals')
    {m n : String} (hname : SameParameter names m n) : locals'.lookup n = locals.lookup m := by
  induction h with
  | nil =>
    cases hname
    rfl
  | cons m' n' b _ ih =>
    cases hname with
    | here => rw [List.lookup_cons_self, List.lookup_cons_self]
    | there hm hn hname =>
      rw [List.lookup_cons, List.lookup_cons, beq_false_of_ne hn, beq_false_of_ne hm]
      exact ih hname

namespace Scope.Aligned

variable {names : List (String × String)} {scope scope' : Scope}

theorem outermost : Aligned [] .outermost .outermost :=
  ⟨.nil, rfl, rfl⟩

theorem withBeneath (h : Aligned names scope scope') :
    Aligned names { scope with beneath := true } { scope' with beneath := true } :=
  ⟨h.locals, h.table, rfl⟩

/-- The parameter of a `select` stands for the same chain under both names. -/
theorem range (h : Aligned names scope scope') (range : Range) (m n : String) :
    Aligned ((m, n) :: names) (range.scope scope m) (range.scope scope' n) :=
  ⟨.cons m n range.binding h.locals, congrArg range.table?.getD h.table, h.beneath⟩

end Scope.Aligned

/-! ### Steps that yield the same -/

/-- From every state, the steps yield the same. -/
def SameYields {α : Type} (x x' : Compile α) : Prop :=
  ∀ c a c', Yields x c a c' ↔ Yields x' c a c'

namespace SameYields

variable {α β : Type} {x x' : Compile α}

theorem refl (x : Compile α) : SameYields x x :=
  fun _ _ _ => Iff.rfl

theorem throw (e e' : Error) :
    SameYields (MonadExcept.throw e : Compile α) (MonadExcept.throw e') :=
  fun _ _ _ => iff_of_false not_yields_throw not_yields_throw

theorem bind {f f' : α → Compile β} (hx : SameYields x x') (hf : ∀ a, SameYields (f a) (f' a)) :
    SameYields (x >>= f) (x' >>= f') := by
  intro c b c'
  rw [yields_bind_iff, yields_bind_iff]
  exact exists_congr fun a => exists_congr fun c₁ => and_congr (hx c a c₁) (hf a c₁ b c')

theorem refuse_bind (e e' : Expr) (reason reason' : Unsupported) (f f' : α → Compile β) :
    SameYields (refuse e reason >>= f) (refuse e' reason' >>= f') := by
  intro c b c'
  rw [yields_bind_iff, yields_bind_iff]
  refine iff_of_false ?_ ?_
  · exact fun ⟨_, _, h, _⟩ => not_yields_throw h
  · exact fun ⟨_, _, h, _⟩ => not_yields_throw h

theorem within (h : SameYields x x') (e e' : Expr) :
    SameYields (Compile.within e x) (Compile.within e' x') :=
  fun c a c' => yields_within_iff.trans ((h c a c').trans yields_within_iff.symm)

end SameYields

/-! ### Chains and operands -/

section

variable {s : Statement} {names : List (String × String)} {scope scope' : Scope} {c : Compiled}

theorem compileMember_sameYields (e e' base base' : Expr) (name : String) (c : Compiled) :
    SameYields (compileMember s e base name c) (compileMember s e' base' name c) := by
  unfold compileMember
  split
  · exact .refl _
  · dsimp only
    split
    · exact .throw _ _
    · exact .refl _

/-- Expanding looks at no names. -/
theorem Scope.Aligned.expandWhole_eq (h : scope.Aligned names scope') (c : Compiled) :
    expandWhole s scope' c = expandWhole s scope c := by
  obtain ⟨locals, table, beneath⟩ := scope
  obtain ⟨locals', table', beneath'⟩ := scope'
  obtain rfl : table' = table := h.table
  obtain rfl : beneath' = beneath := h.beneath
  rfl

theorem SameYields.expanded {x x' : Compile Compiled} (h : SameYields x x')
    (hscope : scope.Aligned names scope') :
    SameYields (x >>= expandWhole s scope) (x' >>= expandWhole s scope') :=
  h.bind fun c => by
    rw [hscope.expandWhole_eq]
    exact .refl _

theorem toOperand_sameYields (e e' : Expr) (c : Compiled) :
    SameYields (toOperand s e c) (toOperand s e' c) := by
  refine (SameYields.refl _).bind fun whole => ?_
  split
  · exact .throw _ _
  · exact .throw _ _
  · split
    · exact .refl _
    · exact .throw _ _

theorem operandOf_sameYields {action action' : Compile Compiled} (h : SameYields action action')
    (parent parent' child child' : Expr) :
    SameYields (operandOf s parent child action) (operandOf s parent' child' action') :=
  (h.within parent parent').bind fun c => (toOperand_sameYields child child' c).within _ _

/-! ### Membership -/

theorem membershipItem_sameYields {e e' : Expr} (h : Renames names e e') :
    SameYields (membershipItem e) (membershipItem e') := by
  unfold membershipItem
  rw [h.readsRow_eq]
  cases hrow : e.readsRow with
  | true => exact .throw _ _
  | false =>
    rw [h.eq_of_not_readsRow hrow]
    exact .refl _

theorem membershipItems_sameYields {es es' : List Expr} (h : RenamesAll names es es')
    (list : Accumulator Symbol) :
    SameYields (membershipItems list es) (membershipItems list es') := by
  induction es generalizing es' list with
  | nil =>
    cases h
    exact .refl _
  | cons e es ih =>
    cases h with
    | cons he hes => exact (membershipItem_sameYields he).bind fun v => ih hes _

theorem Expr.Renames.ne_array {e e' : Expr} (h : Renames names e e')
    (harray : ∀ items, e ≠ .array items) : ∀ items, e' ≠ .array items := by
  rintro items rfl
  cases h
  exact harray _ rfl

theorem membershipList_sameYields {set set' : Expr} (h : Renames names set set') :
    SameYields (membershipList set) (membershipList set') := by
  by_cases harray : ∃ items, set = .array items
  · obtain ⟨items, rfl⟩ := harray
    cases h with
    | array hes =>
      cases hes with
      | nil => exact .refl _
      | cons he hes =>
        exact (membershipItem_sameYields he).bind fun v => membershipItems_sameYields hes v
  · have hset : ∀ items, set ≠ .array items := fun items heq => harray ⟨items, heq⟩
    rw [membershipList_eq_membershipSet hset, membershipList_eq_membershipSet (h.ne_array hset),
      membershipSet, membershipSet, h.readsRow_eq]
    cases hrow : set.readsRow with
    | true => exact .throw _ _
    | false =>
      rw [h.eq_of_not_readsRow hrow]
      exact .refl _

theorem compileMembership_sameYields (o : Operand) {set set' : Expr} (h : Renames names set set') :
    SameYields (compileMembership o set) (compileMembership o set') :=
  (membershipList_sameYields h).bind fun _ => .refl _

/-! ### Collections -/

theorem compileAggregate_sameYields (hscope : scope.Aligned names scope') (e e' : Expr)
    (function : Aggregate) (c : Compiled) :
    SameYields (compileAggregate s scope e function c)
      (compileAggregate s scope' e' function c) := by
  unfold compileAggregate
  rw [hscope.table]
  refine (SameYields.refl _).bind fun whole => ?_
  cases c.value? with
  | none => exact .throw _ _
  | some o =>
    dsimp only
    split
    · split
      · exact .refl _
      · exact .refuse_bind _ _ _ _ _ _
    · exact .refuse_bind _ _ _ _ _ _
    · exact .refl _

theorem compileRange_sameYields (e e' : Expr) (c : Compiled) :
    SameYields (compileRange s e c) (compileRange s e' c) := by
  unfold compileRange
  cases c.chain? with
  | none => exact .throw _ _
  | some chain =>
    refine (SameYields.refl _).bind fun l? => ?_
    split
    · exact .throw _ _
    · exact .refl _
    · exact .refl _

theorem Scope.Aligned.result_eq (h : scope.Aligned names scope') (range : Range)
    (body : Compiled) : range.result s scope' body = range.result s scope body := by
  rw [Range.result, Range.result, h.beneath]

theorem compileOne_sameYields (e e' : Expr) (c : Compiled) :
    SameYields (compileOne e c) (compileOne e' c) := by
  unfold compileOne
  dsimp only
  split
  · exact .refl _
  · exact .throw _ _

end

/-! ### Expressions -/

theorem alternative_sameYields {action action' : Compile Compiled}
    {further? further?' : Option (Compile (CompiledBranches × Operand))}
    (haction : SameYields action action') (hfurther : Option.Rel SameYields further? further?')
    (s : Statement) (whole whole' e e' : Expr) :
    SameYields (alternative s whole e action further?)
      (alternative s whole' e' action' further?') := by
  unfold alternative
  cases hfurther with
  | some h => exact h
  | none => exact (operandOf_sameYields haction whole whole' e e').bind fun _ => .refl _

mutual

/-- **Renamed expressions** compile to the same in scopes that hold the same chains. -/
theorem compile_sameYields (s : Statement) (e : Expr) {names : List (String × String)} {e' : Expr}
    (h : Renames names e e') {scope scope' : Scope} (hscope : scope.Aligned names scope') :
    SameYields (compile s scope e) (compile s scope' e') := by
  by_cases hparam : e.isParameter = true
  · rw [h.eq_of_not_readsRow (Expr.readsRow_eq_false_of_isParameter hparam),
      compile_eq_compileParameter hparam, compile_eq_compileParameter hparam]
    exact .refl _
  have hparam' : ¬ e'.isParameter = true := by rwa [h.isParameter_eq]
  unfold compile
  rw [if_neg hparam, if_neg hparam']
  -- What reads no row is a parameter; the cases that follow read rows.
  cases e with
  | row | args | constant _ =>
    cases h
    exact .refl _
  | rowNumber =>
    cases h
    rw [compileRowNumber, compileRowNumber, hscope.table]
    exact .refl _
  | var name =>
    cases h with
    | var hname =>
      dsimp only
      rw [hscope.locals.lookup_eq hname]
      split
      · exact .refl _
      · exact .throw _ _
  | member base name =>
    cases h with
    | member _ hbase =>
      exact ((compile_sameYields s base hbase hscope).within _ _).bind fun c =>
        compileMember_sameYields _ _ _ _ name c
  | unary op operand =>
    cases h with
    | unary _ hoperand =>
      exact (operandOf_sameYields (compile_sameYields s operand hoperand hscope) _ _ _ _).bind
        fun _ => .refl _
  | binary op left right =>
    cases h with
    | binary _ hl hr =>
      have hleft := fun whole whole' a a' =>
        operandOf_sameYields (s := s) (compile_sameYields s left hl hscope) whole whole' a a'
      have hright := fun whole whole' a a' =>
        operandOf_sameYields (s := s) (compile_sameYields s right hr hscope) whole whole' a a'
      cases op with
      | isIn => exact (hleft _ _ _ _).bind fun o => compileMembership_sameYields o hr
      | comma => exact .throw _ _
      | _ => exact (hleft _ _ _ _).bind fun l => (hright _ _ _ _).bind fun r => .refl _
  | tuple items =>
    cases h with
    | tuple hitems => exact compileItems_sameYields s items hitems hscope _ _ 0
  | array items =>
    cases h with
    | array hitems => exact compileItems_sameYields s items hitems hscope _ _ 0
  | object members =>
    cases h with
    | object hmembers => exact compileMembers_sameYields s members hmembers hscope _ _
  | conditional test ifTrue ifFalse =>
    cases h with
    | conditional ht hv hf =>
      have halternative := fun whole whole' => alternative_sameYields
        (compile_sameYields s ifFalse hf hscope)
        (compileElse_sameYields s ifFalse hf hscope whole whole') s whole whole' ifFalse
      refine (operandOf_sameYields (compile_sameYields s test ht hscope) _ _ _ _).bind fun t => ?_
      refine (operandOf_sameYields (compile_sameYields s ifTrue hv hscope) _ _ _ _).bind fun v => ?_
      exact (halternative _ _ _).bind fun p => .refl _
  | cases branches otherwise =>
    cases h with
    | cases hbs ho =>
      refine (compileBranches_sameYields s branches hbs hscope _ _).bind fun bs => ?_
      exact (operandOf_sameYields (compile_sameYields s otherwise ho hscope) _ _ _ _).bind
        fun o => .refl _
  | casesOf subject branches otherwise =>
    cases h with
    | casesOf hk hbs ho =>
      refine (operandOf_sameYields (compile_sameYields s subject hk hscope) _ _ _ _).bind
        fun k => ?_
      refine (compileBranches_sameYields s branches hbs hscope _ _).bind fun bs => ?_
      exact (operandOf_sameYields (compile_sameYields s otherwise ho hscope) _ _ _ _).bind
        fun o => .refl _
  | aggregate function source =>
    cases h with
    | aggregate _ hsource =>
      exact ((compile_sameYields s source hsource hscope.withBeneath).within _ _).bind fun c =>
        compileAggregate_sameYields hscope _ _ function c
  | apply function operand =>
    cases h with
    | apply _ hoperand =>
      exact (operandOf_sameYields (compile_sameYields s operand hoperand hscope) _ _ _ _).bind
        fun o => .refl _
  | select source param body =>
    cases h with
    | select _ param' hsource hbody =>
      refine ((compile_sameYields s source hsource hscope).within _ _).bind fun c => ?_
      refine (compileRange_sameYields _ _ c).bind fun range => ?_
      -- The body sees the parameter under its own name on each side.
      have hinner := hscope.range range param param'
      refine (((compile_sameYields s body hbody hinner).expanded hinner).within _ _).bind
        fun b => ?_
      rw [hscope.result_eq]
      exact .refl _
  | toList source =>
    cases h with
    | toList hsource =>
      exact ((compile_sameYields s source hsource hscope).expanded hscope).within _ _
  | one source =>
    cases h with
    | one hsource =>
      have hexpanded := (compile_sameYields s source hsource hscope).expanded (s := s) hscope
      exact (hexpanded.within _ _).bind fun c => compileOne_sameYields _ _ c
  | isIn value set =>
    cases h with
    | isIn hv hset =>
      exact (operandOf_sameYields (compile_sameYields s value hv hscope) _ _ _ _).bind
        fun o => compileMembership_sameYields o hset
  | contains set value =>
    cases h with
    | contains hset hv =>
      exact (operandOf_sameYields (compile_sameYields s value hv hscope) _ _ _ _).bind
        fun o => compileMembership_sameYields o hset
  | method receiver name values =>
    cases h
    exact .throw _ _
termination_by structural e

theorem compileItems_sameYields (s : Statement) (es : List Expr) {names : List (String × String)}
    {es' : List Expr} (h : RenamesAll names es es') {scope scope' : Scope}
    (hscope : scope.Aligned names scope') (whole whole' : Expr) (index : Nat) :
    SameYields (compileItems s scope whole index es) (compileItems s scope' whole' index es') := by
  cases es with
  | nil =>
    cases h
    exact .refl _
  | cons e es =>
    cases h with
    | cons he hes =>
      refine (((compile_sameYields s e he hscope).expanded hscope).within _ _).bind fun c => ?_
      exact (compileItems_sameYields s es hes hscope whole whole' (index + 1)).bind
        fun _ => .refl _
termination_by structural es

theorem compileMembers_sameYields (s : Statement) (es : List (String × Expr))
    {names : List (String × String)} {es' : List (String × Expr)} (h : RenamesMembers names es es')
    {scope scope' : Scope} (hscope : scope.Aligned names scope') (whole whole' : Expr) :
    SameYields (compileMembers s scope whole es) (compileMembers s scope' whole' es') := by
  cases es with
  | nil =>
    cases h
    exact .refl _
  | cons member es =>
    obtain ⟨name, e⟩ := member
    cases h with
    | cons _ he hes =>
      refine (((compile_sameYields s e he hscope).expanded hscope).within _ _).bind fun c => ?_
      exact (compileMembers_sameYields s es hes hscope whole whole').bind fun _ => .refl _
termination_by structural es

theorem compileBranches_sameYields (s : Statement) (bs : List (Expr × Expr))
    {names : List (String × String)} {bs' : List (Expr × Expr)} (h : RenamesBranches names bs bs')
    {scope scope' : Scope} (hscope : scope.Aligned names scope') (whole whole' : Expr) :
    SameYields (compileBranches s scope whole bs) (compileBranches s scope' whole' bs') := by
  cases bs with
  | nil =>
    cases h
    exact .refl _
  | cons branch rest =>
    obtain ⟨test, value⟩ := branch
    cases h with
    | cons ht hv hrest =>
      refine (operandOf_sameYields (compile_sameYields s test ht hscope) _ _ _ _).bind fun t => ?_
      refine (operandOf_sameYields (compile_sameYields s value hv hscope) _ _ _ _).bind fun v => ?_
      exact (compileBranches_sameYields s rest hrest hscope whole whole').bind fun _ => .refl _
termination_by structural bs

theorem compileElse_sameYields (s : Statement) (e : Expr) {names : List (String × String)}
    {e' : Expr} (h : Renames names e e') {scope scope' : Scope}
    (hscope : scope.Aligned names scope') (whole whole' : Expr) :
    Option.Rel SameYields (compileElse s scope whole e) (compileElse s scope' whole' e') := by
  cases e with
  | conditional test ifTrue ifFalse =>
    cases h with
    | conditional ht hv hf =>
      have halternative := alternative_sameYields (compile_sameYields s ifFalse hf hscope)
        (compileElse_sameYields s ifFalse hf hscope whole whole') s whole whole' ifFalse
      refine .some ?_
      refine (operandOf_sameYields (compile_sameYields s test ht hscope) _ _ _ _).bind fun t => ?_
      refine (operandOf_sameYields (compile_sameYields s ifTrue hv hscope) _ _ _ _).bind fun v => ?_
      exact (halternative _).bind fun p => .refl _
  | _ =>
    cases h
    exact .none
termination_by structural e

end

/-! ### Mappings -/

/-- **The names of parameters do not matter.** Two mappings that differ in them only compile to the
same outputs and mapped tables, with the same parameters and bindings, or both do not compile. -/
theorem compileMapping_yields_iff_of_renames {s : Statement} {e e' : Expr} (h : Renames [] e e')
    {c c' : Collected} {r : Compiled} :
    Yields (compileMapping s e) c r c' ↔ Yields (compileMapping s e') c r c' :=
  (compile_sameYields s e h .outermost).expanded .outermost c r c'

/-- For each person, whether the name is the name, and the age, with the given names for the
parameters. -/
def comparedNames (person name age : String) : Expr :=
  .select .row person (.object
    [("same", .select (.member (.var person) "name") name
      (.binary .eq (.var name) (.member (.var person) "name"))),
    ("age", .select (.member (.var person) "age") age (.var age))])

/-- The outer name becomes an inner one, one that looks like a place is given twice, and another is
no longer shadowed. -/
theorem compileMapping_yields_iff_comparedNames :
    Renames [] (comparedNames "p" "n" "p") (comparedNames "n" "#v1" "#v1") ∧
      ∃ r c', Yields (compileMapping staff (comparedNames "p" "n" "p")) {} r c' ∧
        Yields (compileMapping staff (comparedNames "n" "#v1" "#v1")) {} r c' ∧
        c'.bindings.length = 3 := by
  have hsame : Renames [("p", "n")]
      (.select (.member (.var "p") "name") "n" (.binary .eq (.var "n") (.member (.var "p") "name")))
      (.select (.member (.var "n") "name") "#v1"
        (.binary .eq (.var "#v1") (.member (.var "n") "name"))) :=
    .select _ _ (.member _ (.var (.here ..)))
      (.binary _ (.var (.here ..)) (.member _ (.var (.there (by decide) (by decide) (.here ..)))))
  have hage : Renames [("p", "n")] (.select (.member (.var "p") "age") "p" (.var "p"))
      (.select (.member (.var "n") "age") "#v1" (.var "#v1")) :=
    .select _ _ (.member _ (.var (.here ..))) (.var (.here ..))
  have hrenames : Renames [] (comparedNames "p" "n" "p") (comparedNames "n" "#v1" "#v1") :=
    .select _ _ .row (.object (.cons _ hsame (.cons _ hage .nil)))
  have hrun : (match (compileMapping staff (comparedNames "p" "n" "p")).run.run {} with
      | (.ok _, c') => c'.bindings.length == 3
      | (.error _, _) => false) = true := by decide +kernel
  obtain ⟨r, c', h⟩ | ⟨e, he⟩ :=
    yields_or_fails (compileMapping staff (comparedNames "p" "n" "p")) {}
  · rw [show (compileMapping staff (comparedNames "p" "n" "p")).run.run {} = _ from h] at hrun
    exact ⟨hrenames, r, c', h, (compileMapping_yields_iff_of_renames hrenames).mp h,
      beq_iff_eq.mp hrun⟩
  · rw [Fails] at he
    split at hrun
    · rename_i hok
      rw [hok] at he
      cases he
    · cases hrun

end NestedQuery
