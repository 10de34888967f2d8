import NestedQuery.Proofs.Accumulator.Meaning
import NestedQuery.Proofs.Mapping.Operators

/-!
# Compiling keeps the value

A scalar expression (`Expr.IsScalar`) computes one value from columns of the row, members of the
arguments and constants. The compiler folds its constant parts, defers those over the arguments to
each execution, makes one case of nested conditionals, moves functions into leaves and turns sets
into lists of parameters. None of this changes the value: what it compiles to means the expression
(`Expr.IsScalar.preserves`), so for bound arguments and any row it has the expression's value, or
neither has one (`compileMapping_value?_eq`).
-/

namespace NestedQuery

open Compile

/-! ### Scalar expressions -/

/-- The arguments or a member chain that starts at them. -/
def Expr.isArgument : Expr → Bool
  | args => true
  | member base _ => base.isArgument
  | _ => false

/-- Whether a path from the shape leads to more than a column. -/
def Statement.isWhole (s : Statement) (path : List String) : Bool :=
  match s.lookup? path with
  | some .shape | some (.table ..) => true
  | _ => false

/-- Expressions of one value over columns of the row, members of the arguments and constants. Only
the set of a membership test may be any expression. -/
inductive Expr.IsScalar (s : Statement) : Expr → Prop where
  | constant (v : Value) : IsScalar s (.constant v)
  | argument {e : Expr} : e.isArgument = true → IsScalar s e
  | column {e : Expr} {path : List String} :
    e.rowPath? = some path → s.isWhole path = false → IsScalar s e
  | unary (op : UnaryOp) {e : Expr} : IsScalar s e → IsScalar s (.unary op e)
  | binary {op : BinaryOp} {e e' : Expr} :
    op ≠ .isIn → op ≠ .comma → IsScalar s e → IsScalar s e' → IsScalar s (.binary op e e')
  | apply (function : Function) {e : Expr} : IsScalar s e → IsScalar s (.apply function e)
  | conditional {test ifTrue ifFalse : Expr} :
    IsScalar s test → IsScalar s ifTrue → IsScalar s ifFalse →
      IsScalar s (.conditional test ifTrue ifFalse)
  | cases {branches : List (Expr × Expr)} {otherwise : Expr} :
    (∀ b ∈ branches, IsScalar s b.1) → (∀ b ∈ branches, IsScalar s b.2) → IsScalar s otherwise →
      IsScalar s (.cases branches otherwise)
  | casesOf {subject : Expr} {branches : List (Expr × Expr)} {otherwise : Expr} :
    IsScalar s subject → (∀ b ∈ branches, IsScalar s b.1) → (∀ b ∈ branches, IsScalar s b.2) →
      IsScalar s otherwise → IsScalar s (.casesOf subject branches otherwise)
  | isIn {value : Expr} (set : Expr) : IsScalar s value → IsScalar s (.isIn value set)
  | contains (set : Expr) {value : Expr} : IsScalar s value → IsScalar s (.contains set value)

theorem Expr.readsRow_eq_false_of_isParameter {e : Expr} (h : e.isParameter = true) :
    e.readsRow = false := by
  unfold isParameter at h
  split at h
  all_goals first
    | exact absurd h Bool.false_ne_true
    | exact (Bool.not_eq_true' _).mp h

theorem Expr.isParameter_of_isArgument {e : Expr} (h : e.isArgument = true) :
    e.isParameter = true := by
  have hrow : e.readsRow = false := by
    induction e using rowPath?.induct with
    | case1 => cases h
    | case2 base name ih => exact ih h
    | case3 e hrow hmember =>
      cases e with
      | args => rfl
      | member base name => exact absurd rfl (hmember base name)
      | _ => cases h
  cases e with
  | args => rfl
  | member base name =>
    show (!(member base name).readsRow) = true
    rw [hrow]
    rfl
  | _ => cases h

/-! ### What is compiled -/

variable {s : Statement}

/-- The result is one value, and it means the expression. -/
def Compiled.Means (r : Compiled) (p : Pool) (e : Expr) : Prop :=
  ∃ o, r.value? = some o ∧ o.value.Means p e

/-- Compiling an expression added parameters only, and the result means the expression. It may be
a chain from the row, to a column. -/
structure Preserved (s : Statement) (c c' : Collected) (r : Compiled) (e : Expr) : Prop where
  grows : c.pool.slots <+: c'.pool.slots
  means : r.Means c'.pool e
  chain : ∀ root path, r.chain? = some (root, path) → root = .row ∧ s.isWhole path = false

/-- An operator over accumulators is no chain. -/
theorem Preserved.ofValue {c c' : Collected} {v : Accumulator Symbol} {type : ValueType}
    {tables : List MappedTable} {e : Expr} (grows : c.pool.slots <+: c'.pool.slots)
    (means : v.Means c'.pool e) (hv : plainChain? v = none) :
    Preserved s c c' (.ofValue v type tables) e :=
  ⟨grows, ⟨_, rfl, means⟩, fun root path h => by
    rw [show (Compiled.ofValue v type tables).chain? = none from hv] at h
    exact absurd h nofun⟩

/-! ### Parameters -/

/-- A constant is evaluated once, and an expression over the arguments at each execution. -/
theorem exists_source_of_registerParameter {e : Expr} {c c' : Collected} {id : ParamId}
    {type : ValueType} (h : Yields (registerParameter e) c (id, type) c') :
    ∃ source, (∀ arguments, Pool.sourceValue arguments source = e.evaluate arguments) ∧
      id = c.pool.size ∧ c'.pool = c.pool.push source := by
  obtain ⟨source, rfl, rfl, rfl | ⟨v, hargs, hv, rfl⟩⟩ := registerParameter_yields h
  · exact ⟨_, fun _ => rfl, rfl, rfl⟩
  · refine ⟨_, fun arguments => ?_, rfl, rfl⟩
    -- Without arguments in it, the expression has the same value at each execution.
    rw [Expr.evaluate_eq_of_not_readsArgs arguments .null e hargs, hv]
    rfl

theorem compileParameter_preserved {e : Expr} (he : e.readsRow = false) {c c' : Collected}
    {r : Compiled} (h : Yields (compileParameter e) c r c') : Preserved s c c' r e := by
  obtain ⟨id, type, hid, rfl⟩ := compileParameter_yields h
  obtain ⟨source, hsource, rfl, hpool⟩ := exists_source_of_registerParameter hid
  refine .ofValue ?_ ?_ rfl
  · rw [hpool]
    exact c.pool.prefix_push source
  · rw [hpool]
    exact Accumulator.means_param (Pool.holds_push hsource) he

/-! ### Chains and operands -/

/-- A member chain of the row compiles to a leaf with its path. -/
theorem compile_yields_chain {scope : Scope} {e : Expr} {path : List String}
    (hpath : e.rowPath? = some path) {c c' : Collected} {r : Compiled}
    (h : Yields (compile s scope e) c r c') :
    c = c' ∧ ∃ type, r = .ofValue (chainLeaf .row path) type := by
  have hparam : ¬ e.isParameter = true := fun hparam => by
    have hrow := Expr.readsRow_eq_false_of_isParameter hparam
    rw [Expr.readsRow_of_rowPath?_eq_some hpath] at hrow
    cases hrow
  unfold compile at h
  rw [if_neg hparam] at h
  -- The recursion is that of the chain: each member makes the path of its base longer.
  cases e with
  | row =>
    obtain rfl := Option.some.inj hpath
    exact compileChain_yields h
  | member base name =>
    obtain ⟨basePath, hbase, rfl⟩ := Option.map_eq_some_iff.mp hpath
    obtain ⟨b, c₁, hb, h⟩ := yields_bind_iff.mp h
    obtain ⟨rfl, baseType, rfl⟩ := compile_yields_chain hbase (yields_within_iff.mp hb)
    exact compileChain_yields h
  | _ => cases hpath
termination_by structural e

/-- A chain from the row to a column is no whole table or shape. -/
theorem whole?_yields_none {r : Compiled} {c c' : Collected}
    {w? : Option (Whole × Root × List String)} (h : Yields (whole? s r) c w? c')
    (hchain : ∀ root path, r.chain? = some (root, path) → root = .row ∧ s.isWhole path = false) :
    w? = none := by
  rw [Option.eq_none_iff_forall_ne_some]
  rintro ⟨whole, root, path⟩ hw
  obtain ⟨heq, path', hpath', hlookup⟩ := (whole?_yields h).2 whole root path hw
  obtain ⟨rfl, hcolumn⟩ := hchain root path heq
  obtain rfl := Except.ok.inj hpath'
  rw [Statement.isWhole, hlookup] at hcolumn
  cases whole <;> cases hcolumn

/-- An operand means what the result behind it means. -/
theorem operandOf_means {parent child : Expr} {action : Compile Compiled} {o : Operand}
    {c c' : Collected} (h : Yields (operandOf s parent child action) c o c')
    (haction : ∀ c r c', Yields action c r c' → Preserved s c c' r child) :
    c.pool.slots <+: c'.pool.slots ∧ o.value.Means c'.pool child := by
  obtain ⟨r, hr, -, out, hout, hvalue⟩ := operandOf_yields h
  have hr := haction c r c' hr
  obtain ⟨out', hout', hmeans⟩ := hr.means
  obtain rfl := Option.some.inj (hout.symm.trans hout')
  exact ⟨hr.grows, hvalue ▸ hmeans⟩

theorem compileFunction_preserved (function : Function) {o : Operand} {c c' : Collected} {e : Expr}
    (grows : c.pool.slots <+: c'.pool.slots) (ho : o.value.Means c'.pool e) :
    Preserved s c c' (compileFunction function o) (.apply function e) := by
  unfold compileFunction
  split
  -- A column without a function takes this one into its leaf.
  · rename_i root path into heq
    rw [heq] at ho
    exact .ofValue grows (ho.applyLeaf function) (by cases into <;> rfl)
  · exact .ofValue grows (ho.apply function) rfl

/-! ### Membership -/

theorem holds_of_membershipItem {e : Expr} {c c' : Collected} {v : Accumulator Symbol}
    (h : Yields (membershipItem e) c v c') :
    e.readsRow = false ∧ c.pool.slots <+: c'.pool.slots ∧
      ∃ id, v = .leaf (.param id) ∧ c'.pool.Holds id false e := by
  obtain ⟨hrow, id, type, hid, rfl⟩ := membershipItem_yields h
  obtain ⟨source, hsource, rfl, hpool⟩ := exists_source_of_registerParameter hid
  rw [hpool]
  exact ⟨hrow, c.pool.prefix_push source, _, rfl, Pool.holds_push hsource⟩

/-- The items behind a list make it longer. -/
theorem lists_of_membershipItems {list v : Accumulator Symbol} {es fs : List Expr}
    {c c' : Collected} (hlist : list.Lists c.pool (.array es))
    (h : Yields (membershipItems list fs) c v c') :
    Expr.anyReadsRow fs = false ∧ c.pool.slots <+: c'.pool.slots ∧
      v.Lists c'.pool (.array (es ++ fs)) := by
  induction fs generalizing list es c with
  | nil =>
    obtain ⟨rfl, rfl⟩ := yields_pure_iff.mp h
    rw [List.append_nil]
    exact ⟨rfl, List.prefix_refl _, hlist⟩
  | cons f fs ih =>
    obtain ⟨item, c₁, hitem, h⟩ := yields_bind_iff.mp h
    obtain ⟨hf, hgrows, id, rfl, hholds⟩ := holds_of_membershipItem hitem
    obtain ⟨hfs, hgrows', hv⟩ := ih ((hlist.mono hgrows).comma hholds) h
    rw [List.append_assoc, List.singleton_append] at hv
    exact ⟨Bool.or_eq_false_iff.mpr ⟨hf, hfs⟩, hgrows.trans hgrows', hv⟩

/-- The list of a membership test has the items of the set, which reads no row. -/
theorem lists_of_membershipList {set : Expr} {c c' : Collected} {v : Accumulator Symbol}
    (h : Yields (membershipList set) c v c') :
    set.readsRow = false ∧ c.pool.slots <+: c'.pool.slots ∧ v.Lists c'.pool set := by
  obtain ⟨hrow, id, c₁, rfl, rfl, hid⟩ | ⟨item, items, first, c₁, rfl, hfirst, hrest⟩ :=
    membershipList_yields h
  · -- One marked parameter: the empty list, or the value of the set.
    obtain ⟨source, hsource, rfl, hpool⟩ : ∃ source,
        (∀ arguments, Pool.sourceValue arguments source = set.evaluate arguments) ∧
          id = c.pool.size ∧ c₁.pool = c.pool.push source := by
      obtain ⟨rfl, hid⟩ | ⟨type, hid⟩ := hid
      · obtain ⟨rfl, rfl⟩ := yields_register_iff.mp hid
        exact ⟨_, fun _ => rfl, rfl, rfl⟩
      · exact exists_source_of_registerParameter hid
    rw [hpool]
    exact ⟨hrow, Pool.prefix_expand_push .., Accumulator.lists_param
      (Pool.holds_expand_push hsource)⟩
  · obtain ⟨hitem, hgrows, id, rfl, hholds⟩ := holds_of_membershipItem hfirst
    obtain ⟨hitems, hgrows', hv⟩ :=
      lists_of_membershipItems (Accumulator.lists_singleton hholds) hrest
    exact ⟨Bool.or_eq_false_iff.mpr ⟨hitem, hitems⟩, hgrows.trans hgrows', hv⟩

/-- A membership test means whatever a list of the set's items makes a value mean. -/
theorem compileMembership_preserved {o : Operand} {set e whole : Expr} {c₀ c c' : Collected}
    {r : Compiled} (grows : c₀.pool.slots <+: c.pool.slots) (ho : o.value.Means c.pool e)
    (hwhole : ∀ {p v list}, set.readsRow = false → Accumulator.Means v p e →
      Accumulator.Lists list p set → (Accumulator.binary .isIn v list).Means p whole)
    (h : Yields (compileMembership o set) c r c') : Preserved s c₀ c' r whole := by
  obtain ⟨list, hlist, rfl⟩ := compileMembership_yields h
  obtain ⟨hset, hgrows, hlist⟩ := lists_of_membershipList hlist
  exact .ofValue (grows.trans hgrows) (hwhole hset (ho.mono hgrows) hlist) rfl

/-! ### Cases -/

/-- Compiling the expression preserves it. -/
def Preserves (s : Statement) (e : Expr) : Prop :=
  ∀ scope c r c', Yields (compile s scope e) c r c' → Preserved s c c' r e

/-- As the alternative of a conditional the expression becomes further branches and a last
alternative, and a case of these means the expression. -/
def PreservesElse (s : Statement) (e : Expr) : Prop :=
  ∀ scope whole c bs o c',
    Yields (alternative s whole e (compile s scope e) (compileElse s scope whole e)) c (bs, o) c' →
      c.pool.slots <+: c'.pool.slots ∧
        (Accumulator.cases bs.branches o.value).Means c'.pool e

theorem compileBranches_yields {bs : List (Expr × Expr)} (htests : ∀ b ∈ bs, Preserves s b.1)
    (hvalues : ∀ b ∈ bs, Preserves s b.2) {scope : Scope} {whole : Expr} {c c' : Collected}
    {r : CompiledBranches} (h : Yields (compileBranches s scope whole bs) c r c') :
    c.pool.slots <+: c'.pool.slots ∧ Accumulator.BranchesMean c'.pool r.branches bs := by
  induction bs generalizing c r with
  | nil =>
    obtain ⟨rfl, rfl⟩ := yields_pure_iff.mp h
    exact ⟨List.prefix_refl _, .nil⟩
  | cons b bs ih =>
    obtain ⟨t, c₁, v, c₂, rest, ht, hv, hrest, rfl⟩ := compileBranches_cons_yields h
    obtain ⟨hgrows₁, ht⟩ := operandOf_means ht (htests b (List.mem_cons_self ..) _)
    obtain ⟨hgrows₂, hv⟩ := operandOf_means hv (hvalues b (List.mem_cons_self ..) _)
    obtain ⟨hgrows₃, hrest⟩ := ih (fun b hb => htests b (List.mem_cons_of_mem _ hb))
      (fun b hb => hvalues b (List.mem_cons_of_mem _ hb)) hrest
    exact ⟨(hgrows₁.trans hgrows₂).trans hgrows₃,
      .cons ⟨ht.mono (hgrows₂.trans hgrows₃), hv.mono hgrows₃⟩ hrest⟩

/-- A test and a value in front of what the alternative is compiled to. -/
theorem conditional_means {test ifTrue ifFalse whole : Expr} (htest : Preserves s test)
    (hifTrue : Preserves s ifTrue) (hifFalse : PreservesElse s ifFalse) {scope : Scope}
    {c c₁ c₂ c₃ : Collected} {t v o : Operand} {bs : CompiledBranches}
    (ht : Yields (operandOf s whole test (compile s scope test)) c t c₁)
    (hv : Yields (operandOf s whole ifTrue (compile s scope ifTrue)) c₁ v c₂)
    (hbs : Yields (alternative s whole ifFalse (compile s scope ifFalse)
      (compileElse s scope whole ifFalse)) c₂ (bs, o) c₃) :
    c.pool.slots <+: c₃.pool.slots ∧
      (Accumulator.cases (bs.cons t v).branches o.value).Means c₃.pool
        (.conditional test ifTrue ifFalse) := by
  obtain ⟨hgrows₁, ht⟩ := operandOf_means ht (htest _)
  obtain ⟨hgrows₂, hv⟩ := operandOf_means hv (hifTrue _)
  obtain ⟨hgrows₃, hbs⟩ := hifFalse _ _ _ _ _ _ hbs
  exact ⟨(hgrows₁.trans hgrows₂).trans hgrows₃,
    .conditional (ht.mono (hgrows₂.trans hgrows₃)) (hv.mono hgrows₃) hbs⟩

/-- Every alternative is preserved like an expression of its own, except that the branches of a
conditional are joined to those before. -/
theorem Preserves.alternative {e : Expr} (he : Preserves s e)
    (hcond : ∀ {test ifTrue ifFalse}, e = .conditional test ifTrue ifFalse →
      Preserves s test ∧ Preserves s ifTrue ∧ PreservesElse s ifFalse) : PreservesElse s e := by
  intro scope whole c bs o c' h
  obtain ⟨test, ifTrue, ifFalse, t, c₁, v, c₂, further, rfl, ht, hv, hbs, rfl⟩ | ⟨rfl, ho⟩ :=
    alternative_yields h
  · obtain ⟨htest, hifTrue, hifFalse⟩ := hcond rfl
    exact conditional_means htest hifTrue hifFalse ht hv hbs
  · obtain ⟨hgrows, hmeans⟩ := operandOf_means ho (he _)
    exact ⟨hgrows, hmeans.casesNil⟩

/-! ### Expressions -/

/-- What reads no row is one parameter, whatever kind of expression it is. -/
theorem preserves_of_not_isParameter {e : Expr}
    (h : ∀ scope c r c', ¬ e.isParameter = true → Yields (compile s scope e) c r c' →
      Preserved s c c' r e) : Preserves s e := by
  intro scope c r c' hyields
  by_cases hparam : e.isParameter = true
  · rw [compile_eq_compileParameter hparam] at hyields
    exact compileParameter_preserved (Expr.readsRow_eq_false_of_isParameter hparam) hyields
  · exact h scope c r c' hparam hyields

theorem preserves_of_isParameter {e : Expr} (h : e.isParameter = true) : Preserves s e :=
  preserves_of_not_isParameter fun _ _ _ _ hparam _ => absurd h hparam

theorem preserves_column {e : Expr} {path : List String} (hpath : e.rowPath? = some path)
    (hcolumn : s.isWhole path = false) : Preserves s e := by
  intro scope c r c' h
  obtain ⟨rfl, type, rfl⟩ := compile_yields_chain hpath h
  refine ⟨List.prefix_refl _, ⟨_, rfl, Accumulator.means_chain hpath⟩, fun root path' heq => ?_⟩
  obtain ⟨rfl, rfl⟩ := Prod.mk.inj (Option.some.inj heq)
  exact ⟨rfl, hcolumn⟩

theorem Preserves.unary {e : Expr} (op : UnaryOp) (he : Preserves s e) :
    Preserves s (.unary op e) := by
  refine preserves_of_not_isParameter fun scope c r c' hparam h => ?_
  cases op with
  | not =>
    obtain ⟨o, ho, rfl⟩ := compile_not_yields hparam h
    obtain ⟨hgrows, hmeans⟩ := operandOf_means ho (he _)
    exact .ofValue hgrows hmeans.not rfl
  | negate =>
    obtain ⟨o, ho, rfl⟩ := compile_negate_yields hparam h
    obtain ⟨hgrows, hmeans⟩ := operandOf_means ho (he _)
    exact .ofValue hgrows hmeans.negate rfl

theorem Preserves.binary {op : BinaryOp} {e e' : Expr} (hin : op ≠ .isIn) (hcomma : op ≠ .comma)
    (he : Preserves s e) (he' : Preserves s e') : Preserves s (.binary op e e') := by
  refine preserves_of_not_isParameter fun scope c r c' hparam h => ?_
  obtain ⟨left, c₁, right, hl, hr, rfl⟩ := compile_binary_yields hin hcomma hparam h
  obtain ⟨hgrows, hl⟩ := operandOf_means hl (he _)
  obtain ⟨hgrows', hr⟩ := operandOf_means hr (he' _)
  exact .ofValue (hgrows.trans hgrows') (.binary hin hcomma (hl.mono hgrows') hr) rfl

theorem Preserves.apply {e : Expr} (function : Function) (he : Preserves s e) :
    Preserves s (.apply function e) := by
  refine preserves_of_not_isParameter fun scope c r c' hparam h => ?_
  obtain ⟨o, ho, rfl⟩ := compile_apply_yields hparam h
  obtain ⟨hgrows, ho⟩ := operandOf_means ho (he _)
  exact compileFunction_preserved function hgrows ho

theorem Preserves.conditional {test ifTrue ifFalse : Expr} (htest : Preserves s test)
    (hifTrue : Preserves s ifTrue) (hifFalse : PreservesElse s ifFalse) :
    Preserves s (.conditional test ifTrue ifFalse) := by
  refine preserves_of_not_isParameter fun scope c r c' hparam h => ?_
  obtain ⟨whole, t, c₁, v, c₂, bs, o, ht, hv, hbs, rfl⟩ := compile_conditional_yields hparam h
  obtain ⟨hgrows, hmeans⟩ := conditional_means htest hifTrue hifFalse ht hv hbs
  exact .ofValue hgrows hmeans rfl

theorem Preserves.cases {branches : List (Expr × Expr)} {otherwise : Expr}
    (htests : ∀ b ∈ branches, Preserves s b.1) (hvalues : ∀ b ∈ branches, Preserves s b.2)
    (ho : Preserves s otherwise) : Preserves s (.cases branches otherwise) := by
  refine preserves_of_not_isParameter fun scope c r c' hparam h => ?_
  obtain ⟨whole, bs, c₁, o, hbs, hoperand, rfl⟩ := compile_cases_yields hparam h
  obtain ⟨hgrows, hbs⟩ := compileBranches_yields htests hvalues hbs
  obtain ⟨hgrows', hoperand⟩ := operandOf_means hoperand (ho _)
  exact .ofValue (hgrows.trans hgrows') ((hbs.mono hgrows').cases hoperand) rfl

theorem Preserves.casesOf {subject : Expr} {branches : List (Expr × Expr)} {otherwise : Expr}
    (hk : Preserves s subject) (htests : ∀ b ∈ branches, Preserves s b.1)
    (hvalues : ∀ b ∈ branches, Preserves s b.2) (ho : Preserves s otherwise) :
    Preserves s (.casesOf subject branches otherwise) := by
  refine preserves_of_not_isParameter fun scope c r c' hparam h => ?_
  obtain ⟨whole, k, c₁, bs, c₂, o, hsubject, hbs, hoperand, rfl⟩ :=
    compile_casesOf_yields hparam h
  obtain ⟨hgrows₁, hsubject⟩ := operandOf_means hsubject (hk _)
  obtain ⟨hgrows₂, hbs⟩ := compileBranches_yields htests hvalues hbs
  obtain ⟨hgrows₃, hoperand⟩ := operandOf_means hoperand (ho _)
  exact .ofValue ((hgrows₁.trans hgrows₂).trans hgrows₃)
    ((hbs.mono hgrows₃).casesOf (hsubject.mono (hgrows₂.trans hgrows₃)) hoperand) rfl

theorem Preserves.isIn {value : Expr} (set : Expr) (hvalue : Preserves s value) :
    Preserves s (.isIn value set) := by
  refine preserves_of_not_isParameter fun scope c r c' hparam h => ?_
  obtain ⟨o, c₁, ho, h⟩ := compile_isIn_yields hparam h
  obtain ⟨hgrows, ho⟩ := operandOf_means ho (hvalue _)
  exact compileMembership_preserved hgrows ho (fun hset hv hlist => hlist.isIn hset hv) h

theorem Preserves.contains {value : Expr} (set : Expr) (hvalue : Preserves s value) :
    Preserves s (.contains set value) := by
  refine preserves_of_not_isParameter fun scope c r c' hparam h => ?_
  obtain ⟨o, c₁, ho, h⟩ := compile_contains_yields hparam h
  obtain ⟨hgrows, ho⟩ := operandOf_means ho (hvalue _)
  exact compileMembership_preserved hgrows ho (fun hset hv hlist => hlist.contains hset hv) h

/-- **Compiling preserves scalar expressions**, also as alternatives of a conditional. -/
theorem Expr.IsScalar.preserves {e : Expr} (h : e.IsScalar s) :
    Preserves s e ∧ PreservesElse s e := by
  -- Both statements go together: a conditional is compiled with its alternative as branches.
  induction h with
  | constant v =>
    have hp : Preserves s (.constant v) := preserves_of_isParameter rfl
    exact ⟨hp, hp.alternative nofun⟩
  | argument he =>
    have hp := preserves_of_isParameter (s := s) (isParameter_of_isArgument he)
    exact ⟨hp, hp.alternative fun heq => by subst heq; exact absurd he nofun⟩
  | column hpath hcolumn =>
    have hp := preserves_column hpath hcolumn
    exact ⟨hp, hp.alternative fun heq => by subst heq; exact absurd hpath nofun⟩
  | unary op _ ih =>
    have hp := ih.1.unary op
    exact ⟨hp, hp.alternative nofun⟩
  | binary hin hcomma _ _ ih ih' =>
    have hp := ih.1.binary hin hcomma ih'.1
    exact ⟨hp, hp.alternative nofun⟩
  | apply function _ ih =>
    have hp := ih.1.apply function
    exact ⟨hp, hp.alternative nofun⟩
  | conditional _ _ _ ihTest ihTrue ihFalse =>
    have hp := ihTest.1.conditional ihTrue.1 ihFalse.2
    refine ⟨hp, hp.alternative fun heq => ?_⟩
    cases heq
    exact ⟨ihTest.1, ihTrue.1, ihFalse.2⟩
  | cases _ _ _ ihTests ihValues ih =>
    have hp := Preserves.cases (fun b hb => (ihTests b hb).1) (fun b hb => (ihValues b hb).1) ih.1
    exact ⟨hp, hp.alternative nofun⟩
  | casesOf _ _ _ _ ihSubject ihTests ihValues ih =>
    have hp := Preserves.casesOf ihSubject.1 (fun b hb => (ihTests b hb).1)
      (fun b hb => (ihValues b hb).1) ih.1
    exact ⟨hp, hp.alternative nofun⟩
  | isIn set _ ih =>
    have hp := ih.1.isIn set
    exact ⟨hp, hp.alternative nofun⟩
  | contains set _ ih =>
    have hp := ih.1.contains set
    exact ⟨hp, hp.alternative nofun⟩

/-! ### Mappings -/

/-- **A compiled scalar mapping has the value of its expression.** Whatever the arguments and the
row are, if the parameters can be bound, either both have the same value or neither has one. -/
theorem compileMapping_value?_eq {e : Expr} (he : e.IsScalar s) {c c' : Collected} {r : Compiled}
    (h : Yields (compileMapping s e) c r c') {arguments : Document} {bound : List Value}
    (hbind : c'.pool.bind arguments = .ok bound) :
    ∃ o, r.value? = some o ∧ ∀ row,
      Reading.value? ⟨c'.pool, bound, c'.bindings, row⟩ o.value =
        ((e.onRow row).evaluate arguments).toOption := by
  obtain ⟨r', c₁, hr, h⟩ := yields_bind_iff.mp h
  have hpreserved := he.preserves.1 _ _ _ _ hr
  -- The result is no whole table or shape, so there is nothing to expand.
  obtain ⟨w?, c₂, hw, h⟩ := yields_bind_iff.mp h
  obtain rfl := whole?_yields_none hw hpreserved.chain
  obtain ⟨rfl, -⟩ := whole?_yields hw
  obtain ⟨rfl, rfl⟩ := yields_pure_iff.mp h
  obtain ⟨o, ho, hmeans⟩ := hpreserved.means
  exact ⟨o, ho, fun row => hmeans _ arguments ⟨List.prefix_refl _, hbind⟩⟩

/-- People with a name and an age; the shape is their row. -/
def staff : Statement where
  primary := ⟨"", ⟨"person", [⟨"name", none, .text⟩, ⟨"age", none, .integer⟩]⟩⟩

/-- A label for each person: the name in capitals from a given age on, and a word for a younger
person with one of two names. Others have none, because a text cannot be negated. -/
def staffLabel : Expr :=
  .conditional (.binary .ge (.member .row "age") (.member .args "age"))
    (.apply .upper (.member .row "name"))
    (.conditional
      (.isIn (.member .row "name") (.array [.member .args "name", .constant (.text "Ann")]))
      (.constant (.text "known")) (.unary .negate (.member .row "name")))

/-- The arguments of one execution. -/
def staffArguments : Document :=
  .object [("age", .integer 30), ("name", .text "Bob")]

theorem compileMapping_value?_eq_staffLabel :
    ∃ r c' bound o, Yields (compileMapping staff staffLabel) {} r c' ∧
      c'.pool.bind staffArguments = .ok bound ∧ r.value? = some o ∧ ∀ row,
        Reading.value? ⟨c'.pool, bound, c'.bindings, row⟩ o.value =
          ((staffLabel.onRow row).evaluate staffArguments).toOption := by
  have hage : (Expr.member .row "age").IsScalar staff := .column rfl (by decide)
  have hname : (Expr.member .row "name").IsScalar staff := .column rfl (by decide)
  have hscalar : staffLabel.IsScalar staff :=
    .conditional (.binary (by decide) (by decide) hage (.argument rfl)) (.apply .upper hname)
      (.conditional (.isIn _ hname) (.constant _) (.unary .negate hname))
  have hrun : (match (compileMapping staff staffLabel).run.run {} with
      | (.ok _, c') => (c'.pool.bind staffArguments).any fun _ => true
      | (.error _, _) => false) = true := by decide +kernel
  obtain ⟨r, c', h⟩ | ⟨e, he⟩ := yields_or_fails (compileMapping staff staffLabel) {}
  · rw [show (compileMapping staff staffLabel).run.run {} = _ from h] at hrun
    obtain ⟨bound, hbound, -⟩ := Result.any_eq_true_iff.mp hrun
    obtain ⟨o, ho, hvalue⟩ := compileMapping_value?_eq hscalar h hbound
    exact ⟨r, c', bound, o, h, hbound, ho, hvalue⟩
  · rw [Fails] at he
    split at hrun
    · rename_i hok
      rw [hok] at he
      cases he
    · cases hrun

end NestedQuery
