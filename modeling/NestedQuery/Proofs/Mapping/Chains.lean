import NestedQuery.Proofs.Mapping.Opened

/-!
# Where whole tables come from

Only a chain of members (`Expr.ChainsTo`) compiles to a whole table or shape, and then nothing is
collected on the way. Whatever else is compiled is opened, since each part of it was expanded where
it was put in place. By induction over expressions one or the other holds of every result
(`compile_promises`), whatever has been collected before; the bindings are only added to.
-/

namespace NestedQuery

open Compile

/-! ### Chains of members -/

/-- The expression is a chain of members: from `c` it compiles to a path at a root, which leads to
the last path if it starts at the shape. -/
inductive Expr.ChainsTo (s : Statement) (scope : Scope) (c : Collected) :
    Expr → Root → List String → List String → Prop
  /-- The row. -/
  | row : ChainsTo s scope c .row .row [] []
  /-- The parameter of a `select`. -/
  | var {name : String} {b : BindingId} {path' : List String}
    (h : scope.locals.lookup name = some b) (hb : qualify c.bindings (.binding b) [] = .ok path') :
    ChainsTo s scope c (.var name) (.binding b) [] path'
  /-- The row number. -/
  | rowNumber {path : List String}
    (h : compileRowNumber s scope = .ofValue (chainLeaf .row path) .integer) :
    ChainsTo s scope c .rowNumber .row path path
  /-- One more member. -/
  | member {base : Expr} {root : Root} {path path' : List String} (name : String)
    (h : ChainsTo s scope c base root path path') :
    ChainsTo s scope c (.member base name) root (path ++ [name]) (path' ++ [name])

namespace Expr.ChainsTo

variable {s : Statement} {scope : Scope} {c c' : Collected} {e : Expr} {root : Root}
  {path path' : List String}

theorem qualify (h : e.ChainsTo s scope c root path path') :
    NestedQuery.qualify c.bindings root path = .ok path' := by
  induction h with
  | row | rowNumber => rfl
  | var _ hb => exact hb
  | member name _ ih => exact qualify_append ih [name]

/-- Further bindings do not change where a chain leads. -/
theorem mono (h : e.ChainsTo s scope c root path path') (hc : c.bindings <+: c'.bindings) :
    e.ChainsTo s scope c' root path path' := by
  induction h with
  | row => exact .row
  | var hlookup hb => exact .var hlookup (qualify_mono hc hb)
  | rowNumber hrow => exact .rowNumber hrow
  | member name _ ih => exact ih.member name

/-- A chain of members reads the row. -/
theorem readsRow (h : e.ChainsTo s scope c root path path') : e.readsRow = true := by
  induction h with
  | row | var | rowNumber => rfl
  | member name _ ih => exact ih

theorem isParameter_member (h : e.ChainsTo s scope c root path path') (name : String) :
    (Expr.member e name).isParameter = false := by
  show (!e.readsRow) = false
  rw [h.readsRow]
  rfl

end Expr.ChainsTo

/-- What the expression compiles to from `c`: an opened result, or a chain that leads somewhere. -/
def Expr.OpensTo (s : Statement) (scope : Scope) (c : Collected) (e : Expr) (c' : Collected)
    (r : Compiled) : Prop :=
  r.IsOpened s c' ∨ c' = c ∧ ∃ root path path' type, e.ChainsTo s scope c root path path' ∧
    r = .ofValue (chainLeaf root path) type

/-! ### What a step promises -/

/-- From `c`, whatever the step yields has the property, and bindings have only been added. -/
def Promises {α : Type} (Q : Collected → α → Prop) (c : Collected) (x : Compile α) : Prop :=
  ∀ a c', Yields x c a c' → c.bindings <+: c'.bindings ∧ Q c' a

/-- The step only adds bindings. -/
abbrev AddsBindings {α : Type} (c : Collected) (x : Compile α) : Prop :=
  Promises (fun _ _ => True) c x

namespace Promises

variable {α β : Type} {P Q : Collected → α → Prop} {R : Collected → β → Prop} {c : Collected}
  {x : Compile α}

theorem pure {a : α} (h : Q c a) : Promises Q c (Pure.pure a) := by
  intro b c' hb
  obtain ⟨rfl, rfl⟩ := yields_pure_iff.mp hb
  exact ⟨List.prefix_rfl, h⟩

theorem throw (e : Error) : Promises Q c (MonadExcept.throw e) :=
  fun _ _ h => absurd h not_yields_throw

theorem refuse (e : Expr) (reason : Unsupported) : Promises Q c (Compile.refuse e reason) :=
  throw _

theorem bind {f : α → Compile β} (hx : Promises P c x)
    (hf : ∀ a c₁, c.bindings <+: c₁.bindings → P c₁ a → Promises R c₁ (f a)) :
    Promises R c (x >>= f) := by
  intro b c' h
  obtain ⟨a, c₁, hxa, hfa⟩ := yields_bind_iff.mp h
  obtain ⟨hc₁, ha⟩ := hx a c₁ hxa
  obtain ⟨hc', hb⟩ := hf a c₁ hc₁ ha b c' hfa
  exact ⟨hc₁.trans hc', hb⟩

/-- A last step that only puts together what is there. -/
theorem map {f : α → β} (hx : Promises P c x)
    (hf : ∀ a c₁, c.bindings <+: c₁.bindings → P c₁ a → R c₁ (f a)) :
    Promises R c (x >>= fun a => Pure.pure (f a)) :=
  hx.bind fun a c₁ hc₁ ha => pure (hf a c₁ hc₁ ha)

/-- Nothing comes after a refusal. -/
theorem refuse_bind (e : Expr) (reason : Unsupported) (f : α → Compile β) :
    Promises R c (Compile.refuse e reason >>= f) :=
  bind (P := fun _ _ => False) (refuse e reason) fun _ _ _ h => h.elim

theorem within (hx : Promises Q c x) (e : Expr) : Promises Q c (Compile.within e x) :=
  fun a c' h => hx a c' (yields_within_iff.mp h)

theorem mono (hx : Promises P c x) (h : ∀ a c₁, P c₁ a → Q c₁ a) : Promises Q c x :=
  fun a c' hxa => ⟨(hx a c' hxa).1, h a c' (hx a c' hxa).2⟩

theorem addsBindings (hx : Promises Q c x) : AddsBindings c x :=
  hx.mono fun _ _ _ => trivial

end Promises

section

variable {s : Statement} {scope : Scope} {c : Collected} {r : Compiled} {e : Expr}

/-! ### Chains and expansion -/

/-- A whole table or shape is opened where it is put in place. -/
theorem expandWhole_opens {root : Root} {path path' : List String}
    (hpath : qualify c.bindings root path = .ok path') (type : ValueType)
    (tables : List MappedTable) :
    Opens s c (expandWhole s scope (.ofValue (chainLeaf root path) type tables)) := by
  have hchain : (Compiled.ofValue (chainLeaf root path) type tables).chain? = some (root, path) :=
    rfl
  cases hwhole : s.isWhole path' with
  | false =>
    have hexpanded := Compiled.isExpanded_of_isWhole_eq_false hchain hpath hwhole
    exact ⟨_, c, hexpanded.yields_expandWhole_iff.mpr ⟨rfl, rfl⟩, List.prefix_rfl,
      Compiled.isOpened_chain hpath hwhole type tables⟩
  | true =>
    obtain ⟨w, hw⟩ := Statement.isWhole_iff.mp hwhole
    obtain ⟨o, c', ho, hc', hopened⟩ := opens_expand s scope c root path path' hpath (Nat.zero_le _)
    refine ⟨{ o with tables := o.tables ++ tables }, c', ?_, hc', hopened.withTables _⟩
    refine yields_bind_iff.mpr ⟨_, c, whole?_yields_some hchain hpath hw, ?_⟩
    exact yields_bind_iff.mpr ⟨o, c', ho, yields_pure_iff.mpr ⟨rfl, rfl⟩⟩

theorem Opens.promises {x : Compile Compiled} (h : Opens s c x) :
    Promises (Compiled.IsOpened s) c x := by
  obtain ⟨r, c', hr, hc', hopened⟩ := h
  intro r' c'' hr'
  obtain ⟨rfl, rfl⟩ := hr.unique hr'
  exact ⟨hc', hopened⟩

theorem Compiled.IsOpened.expandWhole_promises (h : r.IsOpened s c) :
    Promises (IsOpened s) c (expandWhole s scope r) := by
  intro r' c' hr'
  obtain ⟨rfl, rfl⟩ := h.isExpanded.yields_expandWhole_iff.mp hr'
  exact ⟨List.prefix_rfl, h⟩

/-- What is put in place is opened. -/
theorem expanded_promises {x : Compile Compiled} (hx : Promises (e.OpensTo s scope c) c x)
    (scope' : Scope) :
    Promises (Compiled.IsOpened s) c (x >>= fun r => expandWhole s scope' r) := by
  refine hx.bind fun r c₁ _ hr => ?_
  obtain hopened | ⟨rfl, root, path, path', type, hchain, rfl⟩ := hr
  · exact hopened.expandWhole_promises
  · exact (expandWhole_opens hchain.qualify type []).promises

/-- The row and a parameter are chains of no members. -/
theorem compileChain_promises {root : Root}
    (h : ∀ path', qualify c.bindings root [] = .ok path' → e.ChainsTo s scope c root [] path') :
    Promises (e.OpensTo s scope c) c (compileChain s root []) := by
  intro r c' hr
  obtain ⟨rfl, path', hpath, rfl⟩ := compileChain_yields_typeOf hr
  exact ⟨List.prefix_rfl, .inr ⟨rfl, root, [], path', _, h path' hpath, rfl⟩⟩

/-- A member of a chain is a chain; of what is opened it is opened. -/
theorem compileMember_promises {base : Expr} {c₁ : Collected} (hr : base.OpensTo s scope c c₁ r)
    (name : String) :
    Promises ((Expr.member base name).OpensTo s scope c) c₁
      (compileMember s (.member base name) base name r) := by
  unfold compileMember
  obtain hopened | ⟨rfl, root, path, path', type, hbase, rfl⟩ := hr
  · cases hchain : r.chain? with
    | none =>
      dsimp only
      split
      · exact .refuse _ _
      · exact .pure (.inl (hopened.member _))
    | some chain =>
      -- The base leads to a column, and a step below a column there is no table.
      obtain ⟨path', hpath, hcolumn⟩ := hopened.chain? hchain
      intro r' c' hr'
      obtain ⟨rfl, path'', hpath'', rfl⟩ := compileChain_yields_typeOf hr'
      rw [qualify_append hpath] at hpath''
      obtain rfl := Except.ok.inj hpath''
      have hcolumn' : s.isWhole (path' ++ [name]) = false := Statement.isWhole_concat hcolumn name
      exact ⟨List.prefix_rfl,
        .inl (Compiled.isOpened_chain (qualify_append hpath [name]) hcolumn' _ _)⟩
  · intro r' c' hr'
    obtain ⟨rfl, path'', -, rfl⟩ := compileChain_yields_typeOf hr'
    exact ⟨List.prefix_rfl, .inr ⟨rfl, root, _, _, _, hbase.member name, rfl⟩⟩

/-! ### Values -/

/-- A value that an operator or an aggregate makes is no chain. -/
theorem isOpened_ofValue_wrap (op : Wrapper) (v : Accumulator Symbol) (type : ValueType)
    (tables : List MappedTable) : (Compiled.ofValue (.wrap op v) type tables).IsOpened s c :=
  Compiled.isOpened_ofValue (Accumulator.isOpened_of_plainChain? rfl) _ _

theorem registerParameter_addsBindings (e : Expr) : AddsBindings c (registerParameter e) := by
  intro p c' h
  obtain ⟨source, -, rfl, -⟩ := registerParameter_yields h
  exact ⟨List.prefix_rfl, trivial⟩

theorem compileParameter_promises (e : Expr) :
    Promises (Compiled.IsOpened s) c (compileParameter e) :=
  (registerParameter_addsBindings e).map fun _ _ _ _ =>
    Compiled.isOpened_ofValue (Accumulator.isOpened_of_plainChain? rfl) _ _

theorem operandOf_addsBindings {x : Compile Compiled} (hx : AddsBindings c x)
    (parent child : Expr) : AddsBindings c (operandOf s parent child x) := by
  intro o c' h
  obtain ⟨r, hr, -⟩ := operandOf_yields h
  exact hx r c' hr

theorem compileFunction_isOpened (function : Function) (o : Operand) :
    (compileFunction function o).IsOpened s c := by
  refine Compiled.isOpened_ofValue (Accumulator.isOpened_of_plainChain? ?_) _ _
  split
  · rename_i root path into _
    cases into <;> rfl
  · rfl

theorem membershipItem_addsBindings (item : Expr) : AddsBindings c (membershipItem item) := by
  unfold membershipItem
  split
  · exact .throw _
  · exact (registerParameter_addsBindings item).map fun _ _ _ _ => trivial

theorem membershipItems_addsBindings (list : Accumulator Symbol) (items : List Expr) :
    AddsBindings c (membershipItems list items) := by
  induction items generalizing c list with
  | nil => exact .pure trivial
  | cons item items ih => exact (membershipItem_addsBindings item).bind fun _ _ _ _ => ih _

theorem membershipList_addsBindings (set : Expr) : AddsBindings c (membershipList set) := by
  intro list c' h
  obtain ⟨-, id, c₁, -, rfl, hid⟩ | ⟨item, items, first, c₁, -, hfirst, hrest⟩ :=
    membershipList_yields h
  · obtain ⟨-, hid⟩ | ⟨type, hid⟩ := hid
    · obtain ⟨-, rfl⟩ := yields_register_iff.mp hid
      exact ⟨List.prefix_rfl, trivial⟩
    · exact registerParameter_addsBindings set _ c₁ hid
  · have hitem := (membershipItem_addsBindings item first c₁ hfirst).1
    have hitems := (membershipItems_addsBindings first items list c' hrest).1
    exact ⟨hitem.trans hitems, trivial⟩

theorem compileMembership_promises (o : Operand) (set : Expr) :
    Promises (Compiled.IsOpened s) c (compileMembership o set) :=
  (membershipList_addsBindings set).map fun _ _ _ _ =>
    Compiled.isOpened_ofValue (Accumulator.isOpened_of_plainChain? rfl) _ _

/-! ### Collections -/

theorem compileAggregate_promises (e : Expr) (function : Aggregate) (r : Compiled) :
    Promises (Compiled.IsOpened s) c (compileAggregate s scope e function r) := by
  have hwhole : AddsBindings c (whole? s r) := fun w? c' hw =>
    ⟨(whole?_yields hw).1 ▸ List.prefix_rfl, trivial⟩
  refine hwhole.bind fun w? c₁ _ _ => ?_
  cases r.value? with
  | none => exact .refuse _ _
  | some out =>
    dsimp only
    split
    · split
      · rw [pure_bind]
        exact .pure (isOpened_ofValue_wrap _ _ _ _)
      · exact .refuse_bind _ _ _
    · exact .refuse_bind _ _ _
    · rw [pure_bind]
      exact .pure (isOpened_ofValue_wrap _ _ _ _)

theorem compileRange_addsBindings (e : Expr) (r : Compiled) :
    AddsBindings c (compileRange s e r) := by
  have hbind : ∀ {c : Collected} root path, AddsBindings c (Compile.bind root path) := by
    intro c root path b c' hb
    obtain ⟨-, rfl⟩ := Prod.mk.inj (Eq.symm hb)
    exact ⟨List.prefix_append _ _, trivial⟩
  unfold compileRange
  cases r.chain? with
  | none => exact .refuse _ _
  | some chain =>
    have hlookup : AddsBindings c (lookup s chain.1 chain.2) := fun l? c' hl =>
      ⟨(yields_lookup_iff.mp hl).2 ▸ List.prefix_rfl, trivial⟩
    refine hlookup.bind fun l? c₁ _ _ => ?_
    split
    · exact .refuse _ _
    · exact (hbind _ _).map fun _ _ _ _ => trivial
    · exact (hbind _ _).map fun _ _ _ _ => trivial

theorem Compiled.IsOpened.compileOne_promises (h : r.IsOpened s c) (e : Expr) :
    Promises (IsOpened s) c (compileOne e r) := by
  unfold compileOne
  dsimp only
  split
  · exact .pure (h.withTables _)
  · exact .refuse _ _

/-! ### Expressions -/

theorem alternative_addsBindings {whole e : Expr} {x : Compile Compiled}
    {further? : Option (Compile (CompiledBranches × Operand))} (hx : AddsBindings c x)
    (hfurther : ∀ further, further? = some further → AddsBindings c further) :
    AddsBindings c (alternative s whole e x further?) := by
  cases further? with
  | some further => exact hfurther further rfl
  | none => exact (operandOf_addsBindings hx whole e).map fun _ _ _ _ => trivial

/-- Two operands, one after the other. -/
theorem operands_promises {whole a b : Expr} {left right : Compile Compiled} {op : BinaryOp}
    {type : Operand → Operand → ValueType} (hl : AddsBindings c left)
    (hr : ∀ c₁, AddsBindings c₁ right) :
    Promises (Compiled.IsOpened s) c
      (operandOf s whole a left >>= fun l => operandOf s whole b right >>= fun r =>
        pure (.ofValue (.binary op l.value r.value) (type l r) (l.tables ++ r.tables))) := by
  refine (operandOf_addsBindings hl whole a).bind fun l c₁ _ _ => ?_
  exact (operandOf_addsBindings (hr c₁) whole b).map fun r c₂ _ _ =>
    Compiled.isOpened_ofValue (Accumulator.isOpened_of_plainChain? rfl) _ _

/-- The test, the first value and the alternative of a conditional, one after another. -/
theorem conditional_promises {β : Type} {Q : Collected → β → Prop} {whole a b : Expr}
    {test ifTrue : Compile Compiled} {ifFalse : Compile (CompiledBranches × Operand)}
    {f : Operand → Operand → CompiledBranches × Operand → β} (ht : AddsBindings c test)
    (hv : ∀ c₁, AddsBindings c₁ ifTrue) (hf : ∀ c₁, AddsBindings c₁ ifFalse)
    (hQ : ∀ c₁ t v p, Q c₁ (f t v p)) :
    Promises Q c (operandOf s whole a test >>= fun t =>
      operandOf s whole b ifTrue >>= fun v => ifFalse >>= fun p => pure (f t v p)) := by
  refine (operandOf_addsBindings ht whole a).bind fun t c₁ _ _ => ?_
  refine (operandOf_addsBindings (hv c₁) whole b).bind fun v c₂ _ _ => ?_
  exact (hf c₂).map fun p c₃ _ _ => hQ c₃ t v p

end

mutual

/-- **Whatever is compiled is opened, or it is a chain of members** that leads somewhere. -/
theorem compile_promises (s : Statement) (e : Expr) (scope : Scope) (c : Collected) :
    Promises (e.OpensTo s scope c) c (compile s scope e) := by
  have hopened : ∀ {x : Compile Compiled}, Promises (Compiled.IsOpened s) c x →
      Promises (e.OpensTo s scope c) c x := fun hx => hx.mono fun _ _ h => .inl h
  unfold compile
  split
  · exact hopened (compileParameter_promises e)
  -- What reads no row is a parameter; the cases that follow read rows.
  cases e with
  | row =>
    refine compileChain_promises fun path' hpath => ?_
    obtain rfl := Except.ok.inj hpath
    exact .row
  | var name =>
    dsimp only
    cases hlookup : scope.locals.lookup name with
    | some b => exact compileChain_promises fun path' hpath => .var hlookup hpath
    | none => exact .throw _
  | args => exact hopened (compileParameter_promises _)
  | constant v => exact hopened (compileParameter_promises _)
  | rowNumber =>
    exact .pure (.inr ⟨rfl, .row, _, _, .integer, .rowNumber rfl, rfl⟩)
  | method receiver name arguments => exact .refuse _ _
  | member base name =>
    refine ((compile_promises s base scope c).within _).bind fun r c₁ _ hr => ?_
    exact compileMember_promises hr name
  | unary op operand =>
    have hoperand := (compile_promises s operand scope c).addsBindings
    refine hopened ((operandOf_addsBindings hoperand _ _).bind fun o c₁ _ _ => ?_)
    cases op <;> exact .pure (isOpened_ofValue_wrap _ _ _ _)
  | binary op left right =>
    have hleft := (compile_promises s left scope c).addsBindings
    have hright := fun c₁ => (compile_promises s right scope c₁).addsBindings
    cases op with
    | isIn =>
      exact hopened ((operandOf_addsBindings hleft _ _).bind fun o c₁ _ _ =>
        compileMembership_promises o right)
    | comma => exact .refuse _ _
    | _ => exact hopened (operands_promises hleft hright)
  | tuple items | array items => exact hopened (compileItems_promises s items scope c _ _)
  | object members => exact hopened (compileMembers_promises s members scope c _)
  | conditional test ifTrue ifFalse =>
    refine hopened (conditional_promises (compile_promises s test scope c).addsBindings
      (fun c₁ => (compile_promises s ifTrue scope c₁).addsBindings)
      (fun c₁ => alternative_addsBindings (compile_promises s ifFalse scope c₁).addsBindings
        (compileElse_addsBindings s ifFalse scope c₁ _)) fun _ _ _ _ => ?_)
    exact Compiled.isOpened_ofValue (Accumulator.isOpened_of_plainChain? rfl) _ _
  | cases branches otherwise =>
    refine hopened ((compileBranches_addsBindings s branches scope c _).bind fun bs c₁ _ _ => ?_)
    have hotherwise := (compile_promises s otherwise scope c₁).addsBindings
    exact (operandOf_addsBindings hotherwise _ _).map fun _ _ _ _ =>
      Compiled.isOpened_ofValue (Accumulator.isOpened_of_plainChain? rfl) _ _
  | casesOf subject branches otherwise =>
    have hsubject := (compile_promises s subject scope c).addsBindings
    refine hopened ((operandOf_addsBindings hsubject _ _).bind fun k c₁ _ _ => ?_)
    refine (compileBranches_addsBindings s branches scope c₁ _).bind fun bs c₂ _ _ => ?_
    have hotherwise := (compile_promises s otherwise scope c₂).addsBindings
    exact (operandOf_addsBindings hotherwise _ _).map fun _ _ _ _ =>
      Compiled.isOpened_ofValue (Accumulator.isOpened_of_plainChain? rfl) _ _
  | aggregate function source =>
    have hsource := compile_promises s source { scope with beneath := true } c
    exact hopened ((hsource.within _).bind fun r c₁ _ _ => compileAggregate_promises _ _ r)
  | apply function operand =>
    have hoperand := (compile_promises s operand scope c).addsBindings
    exact hopened ((operandOf_addsBindings hoperand _ _).map fun o _ _ _ =>
      compileFunction_isOpened function o)
  | select source param body =>
    refine hopened (((compile_promises s source scope c).within _).bind fun r c₁ _ _ => ?_)
    refine (compileRange_addsBindings _ r).bind fun range c₂ _ _ => ?_
    -- The body may be the parameter, a chain again, but it is expanded in its place.
    have hbody := compile_promises s body (range.scope scope param) c₂
    exact ((expanded_promises hbody _).within _).map fun _ _ _ hr => hr.withTables _
  | toList source =>
    exact hopened ((expanded_promises (compile_promises s source scope c) _).within _)
  | one source =>
    refine hopened (((expanded_promises (compile_promises s source scope c) _).within _).bind
      fun r c₁ _ hr => hr.compileOne_promises _)
  | isIn value set | contains set value =>
    have hvalue := (compile_promises s value scope c).addsBindings
    exact hopened ((operandOf_addsBindings hvalue _ _).bind fun o c₁ _ _ =>
      compileMembership_promises o set)
termination_by structural e

theorem compileItems_promises (s : Statement) (es : List Expr) (scope : Scope) (c : Collected)
    (whole : Expr) (index : Nat) :
    Promises (Compiled.IsOpened s) c (compileItems s scope whole index es) := by
  unfold compileItems
  cases es with
  | nil => exact .pure Compiled.isOpened_empty
  | cons e es =>
    refine ((expanded_promises (compile_promises s e scope c) _).within _).bind
      fun r c₁ _ hr => ?_
    exact (compileItems_promises s es scope c₁ whole (index + 1)).map fun r' c₂ hc₂ hr' =>
      ((hr.mono hc₂).under _).append hr'
termination_by structural es

theorem compileMembers_promises (s : Statement) (es : List (String × Expr)) (scope : Scope)
    (c : Collected) (whole : Expr) :
    Promises (Compiled.IsOpened s) c (compileMembers s scope whole es) := by
  unfold compileMembers
  cases es with
  | nil => exact .pure Compiled.isOpened_empty
  | cons member es =>
    obtain ⟨name, e⟩ := member
    refine ((expanded_promises (compile_promises s e scope c) _).within _).bind
      fun r c₁ _ hr => ?_
    exact (compileMembers_promises s es scope c₁ whole).map fun r' c₂ hc₂ hr' =>
      ((hr.mono hc₂).under _).append hr'
termination_by structural es

theorem compileBranches_addsBindings (s : Statement) (bs : List (Expr × Expr)) (scope : Scope)
    (c : Collected) (whole : Expr) : AddsBindings c (compileBranches s scope whole bs) := by
  unfold compileBranches
  cases bs with
  | nil => exact .pure trivial
  | cons branch rest =>
    obtain ⟨test, value⟩ := branch
    have htest := (compile_promises s test scope c).addsBindings
    refine (operandOf_addsBindings htest _ _).bind fun t c₁ _ _ => ?_
    have hvalue := (compile_promises s value scope c₁).addsBindings
    refine (operandOf_addsBindings hvalue _ _).bind fun v c₂ _ _ => ?_
    exact (compileBranches_addsBindings s rest scope c₂ whole).map fun _ _ _ _ => trivial
termination_by structural bs

theorem compileElse_addsBindings (s : Statement) (e : Expr) (scope : Scope) (c : Collected)
    (whole : Expr) (further : Compile (CompiledBranches × Operand))
    (h : compileElse s scope whole e = some further) : AddsBindings c further := by
  cases e with
  | conditional test ifTrue ifFalse =>
    rw [← Option.some.inj h]
    exact conditional_promises (compile_promises s test scope c).addsBindings
      (fun c₁ => (compile_promises s ifTrue scope c₁).addsBindings)
      (fun c₁ => alternative_addsBindings (compile_promises s ifFalse scope c₁).addsBindings
        (compileElse_addsBindings s ifFalse scope c₁ whole)) fun _ _ _ _ => trivial
  | _ => cases h
termination_by structural e

end

end NestedQuery
