import NestedQuery.Proofs.Mapping.Hidden

/-!
# Compiling in a larger statement

An expression that avoids a hidden member (`Expr.avoids`) compiles over a statement as it does over
a larger one that has the hidden member too, apart from the places of tables and parameters
(`compile_mirrors`). The structure is that of the compiler: membership lists, collections,
expressions.
-/

namespace NestedQuery

open Compile

section

variable {f : Embedding} {L : PoolLink f} {hidden : String} {s s' : Statement} {scope : Scope}
variable {row : Prop} {c c' : Compiled} {o o' : Operand}

/-! ### Parameters and membership -/

theorem registerParameter_mirrors (e : Expr) :
    Mirrors L hidden (fun p p' => p' = (f.param p.1, p.2)) (registerParameter e)
      (registerParameter e) := by
  unfold registerParameter
  split
  · exact (register_mirrors _).bind fun id id' hid => .pure (by rw [hid])
  · refine ((ofResult_mirrors _).within e e).bind fun v _ hv => ?_
    subst hv
    exact (register_mirrors _).bind fun id id' hid => .pure (by rw [hid])

theorem compileParameter_mirrors (e : Expr) :
    Mirrors L hidden (Compiled.Embeds f hidden row) (compileParameter e) (compileParameter e) :=
  (registerParameter_mirrors e).bind fun _ _ hp =>
    hp ▸ .pure (.ofValue (isVisible_param _) _ [])

theorem membershipItem_mirrors (item : Expr) :
    Mirrors L hidden (Accumulator.Embeds f hidden) (membershipItem item) (membershipItem item) := by
  unfold membershipItem
  split
  · exact .throw _ _
  · exact (registerParameter_mirrors item).bind fun _ _ hp =>
      hp ▸ .pure ⟨rfl, isVisible_param _⟩

theorem membershipItems_mirrors {list list' : Accumulator Symbol} (h : list.Embeds f hidden list')
    (items : List Expr) :
    Mirrors L hidden (Accumulator.Embeds f hidden) (membershipItems list items)
      (membershipItems list' items) := by
  have := appends_membershipItems
  induction items generalizing list list' with
  | nil => exact .pure h
  | cons item items ih =>
    exact (membershipItem_mirrors item).bind fun v v' hv => ih (h.binary .comma hv)

theorem membershipSet_mirrors (set : Expr) :
    Mirrors L hidden (Accumulator.Embeds f hidden) (membershipSet set) (membershipSet set) := by
  unfold membershipSet
  split
  · exact .throw _ _
  · refine (registerParameter_mirrors set).bind fun p _ hp => ?_
    subst hp
    exact (markExpanded_mirrors _).bind fun _ _ _ => .pure ⟨rfl, isVisible_param _⟩

theorem membershipList_mirrors (set : Expr) :
    Mirrors L hidden (Accumulator.Embeds f hidden) (membershipList set) (membershipList set) := by
  have := appends_membershipItems
  by_cases harray : ∃ items, set = .array items
  · obtain ⟨_ | ⟨item, items⟩, rfl⟩ := harray
    · refine (register_mirrors _).bind fun id _ hid => ?_
      subst hid
      exact (markExpanded_mirrors _).bind fun _ _ _ => .pure ⟨rfl, isVisible_param _⟩
    · exact (membershipItem_mirrors item).bind fun v v' hv => membershipItems_mirrors hv items
  · rw [membershipList_eq_membershipSet fun items heq => harray ⟨items, heq⟩]
    exact membershipSet_mirrors set

theorem compileMembership_mirrors (ho : o.Embeds f hidden o') (set : Expr) :
    Mirrors L hidden (Compiled.Embeds f hidden False) (compileMembership o set)
      (compileMembership o' set) := by
  refine (membershipList_mirrors set).bind fun list list' hlist => ?_
  rw [ho.tables]
  exact .pure (.ofEmbeds (ho.value.binary .isIn hlist) _ _)

/-! ### Functions -/

theorem compileFunction_embeds (function : Function) (h : o.Embeds f hidden o') :
    (compileFunction function o).Embeds f hidden False (compileFunction function o') := by
  obtain ⟨rfl, hvisible⟩ := h
  obtain ⟨value, type, tables⟩ := o
  refine ⟨?_, .inl ?_⟩
  · cases value with
    | leaf a =>
      cases a with
      | param id => rfl
      | column root path into applied => cases applied <;> rfl
    | _ => rfl
  · refine Compiled.isVisible_ofValue ?_ _ _
    dsimp only
    split
    · have hchain := hvisible _ (List.mem_singleton_self _)
      exact List.forall_mem_singleton.mpr hchain
    · exact isVisible_wrap hvisible

/-! ### Collections -/

/-- The row numbers at the end of an open chain to a table are visible. -/
theorem isVisibleChain_rowId {primary : Source} {root : Root} {path : List String}
    (h : IsOpenChain primary hidden root path) :
    IsVisibleChain hidden root (path ++ [rowIdColumn]) := by
  rcases h with hchain | ⟨rfl, rfl, hopen⟩
  · exact hchain.append _
  · refine fun _ => isVisiblePath_cons (fun heq => ?_) []
    subst heq
    have hnone := (Bool.and_eq_true_iff.mp hopen).2
    rw [Statement.lookupIn, if_pos rfl] at hnone
    cases hnone

theorem compileAggregate_mirrors (hs : s.Extends f hidden s') (scope : Scope)
    (h : c.Embeds f hidden (s.primary.opensRow hidden) c') (e e' : Expr) (function : Aggregate) :
    Mirrors L hidden (Compiled.Embeds f hidden False) (compileAggregate s scope e function c)
      (compileAggregate s' (scope.embed f) e' function c') := by
  -- Both the value and its tables are folded.
  have hfolded : ∀ (v : Accumulator Symbol) (tables : List MappedTable) (type : ValueType),
      v.IsVisible hidden →
      Mirrors L hidden (Compiled.Embeds f hidden False)
        (pure (.ofValue (.wrap (.aggregate function) (v.map (Symbol.foldedInto scope.table)))
          (function.type type) (tables.map fun t => { t with aggregated := true })))
        (pure (.ofValue (.wrap (.aggregate function)
            ((v.map (Symbol.embed f)).map (Symbol.foldedInto (scope.embed f).table)))
          (function.type type)
          ((tables.map (MappedTable.embed f)).map fun t => { t with aggregated := true }))) := by
    intro v tables type hv
    have htables : (tables.map (MappedTable.embed f)).map (fun t => { t with aggregated := true }) =
        (tables.map fun t => { t with aggregated := true }).map (MappedTable.embed f) := by
      rw [List.map_map, List.map_map]
      rfl
    rw [htables, Scope.embed, ← embed_foldedInto]
    exact .pure (.ofValue (isVisible_wrap (isVisible_foldedInto hv _)) _ _)
  refine .bind_of_steady
    (inferInstanceAs (Grows (compileAggregate s' (scope.embed f) e' function c')))
    (whole?_mirrors hs h) fun w w' hw => ?_
  obtain ⟨rfl, hshape, hchain, hvisible⟩ := hw
  have hvalue := h.value?
  cases ho : c.value? with
  | none =>
    rw [ho] at hvalue
    rw [hvalue]
    exact .throw _ _
  | some o =>
    rw [ho] at hvalue
    rw [hvalue, h.tables]
    rcases w with _ | ⟨_ | ⟨id, table⟩, root, path⟩
    · exact hfolded o.value c.tables o.type ((hvisible rfl).of_value?_eq_some ho)
    · exact absurd rfl (hshape root path)
    · dsimp only [Option.map_some, Prod.map, Whole.embed, id_eq]
      split
      · have hrow := isVisible_chainLeaf (isVisibleChain_rowId (hchain _ _ _ rfl))
        have hcount := hfolded _ (c.tables ++ [⟨id, [], true, false⟩]) o.type hrow
        rw [List.map_append (f := MappedTable.embed f)] at hcount
        rw [pure_bind, pure_bind]
        exact hcount
      · exact .refuse_bind ..

theorem compileRange_mirrors (hs : s.Extends f hidden s') (h : c.Embeds f hidden False c')
    (e e' : Expr) :
    Mirrors L hidden (fun r r' => r' = r.embed f) (compileRange s e c) (compileRange s' e' c') := by
  have hgrows : Grows (compileRange s' e' c') := inferInstance
  unfold compileRange at hgrows ⊢
  rw [h.chain?, h.tables] at hgrows ⊢
  cases hchain : c.chain? with
  | none => exact .throw _ _
  | some chain =>
    obtain ⟨root, path⟩ := chain
    -- A visible chain does not lead to the hidden member, so both lookups find the same.
    have hvisible := h.of_visible.isVisibleChain hchain
    rw [hchain] at hgrows
    refine .bind_of_steady hgrows (lookup_mirrors hs (.inl hvisible)) fun l l' hl => ?_
    obtain ⟨rfl, -, -⟩ := hl
    rcases l with _ | _ | _ | _ | _
    · exact (bind_mirrors hvisible).bind fun _ _ hb => .pure (hb ▸ rfl)
    · exact .throw _ _
    · exact (bind_mirrors hvisible).bind fun _ _ hb => .pure (hb ▸ rfl)
    · exact (bind_mirrors hvisible).bind fun _ _ hb => .pure (hb ▸ rfl)
    · exact (bind_mirrors hvisible).bind fun _ _ hb => .pure (hb ▸ rfl)

theorem Range.scope_embed (r : Range) (scope : Scope) (param : String) :
    (r.embed f).scope (scope.embed f) param = (r.scope scope param).embed f := by
  obtain ⟨binding, table?, tables⟩ := r
  cases table? <;> rfl

theorem Range.result_embeds (hs : s.Extends f hidden s') (r : Range) (scope : Scope)
    (h : c.Embeds f hidden False c') :
    (r.result s scope c).Embeds f hidden False ((r.embed f).result s' (scope.embed f) c') := by
  obtain ⟨binding, table?, tables⟩ := r
  have htables := fun own : List MappedTable => h.withTables (tables ++ own ++ c.tables)
  simp only [List.map_append, ← h.tables] at htables
  cases table? with
  | none => exact htables []
  | some id =>
    have hown := htables [⟨id, [], scope.beneath, s.cardinality id == .one⟩]
    unfold result
    dsimp only [Range.embed, Option.map_some]
    rw [hs.cardinality]
    exact hown

theorem compileOne_mirrors (h : c.Embeds f hidden False c') (e e' : Expr) :
    Mirrors L hidden (Compiled.Embeds f hidden False) (compileOne e c) (compileOne e' c') := by
  have hany : (c'.tables.any fun t => t.target.isEmpty && !t.aggregated) =
      c.tables.any fun t => t.target.isEmpty && !t.aggregated := by
    rw [h.tables, List.any_map]
    rfl
  have htables := h.withTables (c.tables.map fun t =>
    if t.target.isEmpty && !t.aggregated then { t with single := true } else t)
  -- Whether a table is marked does not depend on its number.
  have hsingle : (c.tables.map fun t =>
        if t.target.isEmpty && !t.aggregated then { t with single := true } else t).map
        (MappedTable.embed f) =
      c'.tables.map fun t =>
        if t.target.isEmpty && !t.aggregated then { t with single := true } else t := by
    rw [h.tables, List.map_map, List.map_map]
    exact List.map_congr_left fun t _ => apply_ite (MappedTable.embed f)
      (t.target.isEmpty && !t.aggregated) { t with single := true } t
  rw [hsingle] at htables
  unfold compileOne
  dsimp only
  rw [hany]
  split
  · exact .pure htables
  · exact .throw _ _

theorem compileRowNumber_embeds (hs : s.Extends f hidden s') (h : rowIdColumn ≠ hidden)
    (scope : Scope) :
    (compileRowNumber s scope).Embeds f hidden False (compileRowNumber s' (scope.embed f)) := by
  have hpath : s'.path (scope.embed f).table = s.path scope.table := hs.path _
  unfold compileRowNumber
  rw [hpath]
  refine .ofValue (isVisible_chainLeaf fun _ => ?_) _ []
  split
  · exact isVisiblePath_cons h _
  · exact isVisiblePath_cons (hs.path_ne _) _

/-! ### The row -/

/-- The row compiles to itself over every statement. -/
theorem compileRow_yields (s : Statement) (c : Collected) :
    ∃ type, Yields (compileChain s .row []) c (.ofValue (chainLeaf .row []) type) c := by
  have hlookup : Yields (lookup s .row []) c (s.lookup? []) c :=
    yields_lookup_iff.mpr ⟨⟨[], rfl, rfl⟩, rfl⟩
  have htype : ∃ type, Yields (typeAt s .row []) c type c := by
    rcases hl : s.lookup? [] with _ | _ | _ | _ | _ <;> rw [hl] at hlookup
    all_goals exact ⟨_, yields_bind_iff.mpr ⟨_, _, hlookup, yields_pure_iff.mpr ⟨rfl, rfl⟩⟩⟩
  obtain ⟨type, htype⟩ := htype
  exact ⟨type, yields_bind_iff.mpr ⟨_, _, htype, yields_pure_iff.mpr ⟨rfl, rfl⟩⟩⟩

theorem compileRow_mirrors (s s' : Statement) :
    Mirrors L hidden (fun c c' => c.IsRow ∧ c'.IsRow) (compileChain s .row [])
      (compileChain s' .row []) := by
  refine ⟨fun {c c' r' c₁'} hc h _ => ?_⟩
  obtain ⟨type, hrow⟩ := compileRow_yields s c
  obtain ⟨type', hrow'⟩ := compileRow_yields s' c'
  obtain ⟨hr, rfl⟩ := Prod.mk.inj (h.symm.trans hrow')
  obtain rfl := Except.ok.inj hr
  exact ⟨_, c, hrow, ⟨⟨type, rfl⟩, ⟨type', rfl⟩⟩, hc⟩

/-- The row stays the row where it is open. -/
theorem compileOpenRow_mirrors (hs : s.Extends f hidden s') (h : s.primary.opensRow hidden) :
    Mirrors L hidden (Compiled.Embeds f hidden (s.primary.opensRow hidden))
      (compileChain s .row []) (compileChain s' .row []) :=
  (typeAt_mirrors hs (.inr ⟨rfl, rfl, h⟩)).bind fun type _ htype =>
    .pure ⟨htype ▸ rfl, .inr ⟨h, type, rfl⟩⟩

/-- A member of the row other than the hidden one. -/
theorem compileRowMember_mirrors (hs : s.Extends f hidden s') {name : String} (h : name ≠ hidden)
    (hc : c.IsRow ∧ c'.IsRow) (e e' base base' : Expr) :
    Mirrors L hidden (Compiled.Embeds f hidden False) (compileMember s e base name c)
      (compileMember s' e' base' name c') := by
  obtain ⟨⟨type, rfl⟩, type', rfl⟩ := hc
  exact compileChain_mirrors hs (fun _ => isVisiblePath_cons h []) []

/-! ### Alternatives -/

/-- The branches and the operand of an alternative in the larger statement. -/
def AlternativesEmbed (f : Embedding) (hidden : String) (p p' : CompiledBranches × Operand) :
    Prop :=
  p.1.Embeds f hidden p'.1 ∧ p.2.Embeds f hidden p'.2

theorem CompiledBranches.embeds_empty : CompiledBranches.Embeds f hidden {} {} :=
  ⟨rfl, nofun⟩

theorem CompiledBranches.Embeds.cons {bs bs' : CompiledBranches} {test test' value value' : Operand}
    (h : bs.Embeds f hidden bs') (ht : test.Embeds f hidden test')
    (hv : value.Embeds f hidden value') :
    (bs.cons test value).Embeds f hidden (bs'.cons test' value') := by
  refine ⟨?_, ?_⟩
  · have htables : (test.tables ++ value.tables ++ bs.tables).map (MappedTable.embed f) =
        test'.tables ++ value'.tables ++ bs'.tables := by
      rw [ht.tables, hv.tables, h.tables, List.map_append, List.map_append]
    rw [CompiledBranches.cons, ← htables, ht.value.eq, hv.value.eq, hv.type, h.eq]
    rfl
  · show ∀ a ∈ ((test.value.visitFrom false) ++ ((value.value.visitFrom false) ++
      Accumulator.visitBranches false bs.branches)).map Prod.fst, a.IsVisible hidden
    rw [List.map_append, List.map_append]
    exact List.forall_mem_append.mpr ⟨ht.visible, List.forall_mem_append.mpr ⟨hv.visible,
      h.visible⟩⟩

theorem alternative_mirrors (hs : s.Extends f hidden s') {action action' : Compile Compiled}
    {further? further?' : Option (Compile (CompiledBranches × Operand))}
    (haction :
      Mirrors L hidden (Compiled.Embeds f hidden (s.primary.opensRow hidden)) action action')
    (hfurther : Option.Rel (Mirrors L hidden (AlternativesEmbed f hidden)) further? further?')
    (whole whole' e e' : Expr) :
    Mirrors L hidden (AlternativesEmbed f hidden) (alternative s whole e action further?)
      (alternative s' whole' e' action' further?') := by
  unfold alternative
  cases hfurther with
  | some h => exact h
  | none =>
    exact (operandOf_mirrors hs haction whole whole' e e').bind fun o o' ho =>
      .pure ⟨CompiledBranches.embeds_empty, ho⟩

/-- A case with the same branches and the same alternative. -/
theorem cases_embeds {bs bs' : CompiledBranches} (hbs : bs.Embeds f hidden bs')
    (ho : o.Embeds f hidden o') :
    Accumulator.Embeds f hidden (.cases bs.branches o.value) (.cases bs'.branches o'.value) := by
  refine ⟨by rw [hbs.eq, ho.eq]; rfl, ?_⟩
  rw [Accumulator.IsVisible, Accumulator.leaves_cases]
  exact List.forall_mem_append.mpr ⟨hbs.visible, ho.visible⟩

theorem casesOf_embeds {k k' : Operand} {bs bs' : CompiledBranches} (hk : k.Embeds f hidden k')
    (hbs : bs.Embeds f hidden bs') (ho : o.Embeds f hidden o') :
    Accumulator.Embeds f hidden (.casesOf k.value bs.branches o.value)
      (.casesOf k'.value bs'.branches o'.value) := by
  refine ⟨by rw [hk.eq, hbs.eq, ho.eq]; rfl, ?_⟩
  rw [Accumulator.IsVisible, Accumulator.leaves_casesOf]
  exact List.forall_mem_append.mpr ⟨hk.visible, List.forall_mem_append.mpr ⟨hbs.visible,
    ho.visible⟩⟩

end

/-! ### Expressions -/

section

variable {f : Embedding} {L : PoolLink f} {hidden : String} {s s' : Statement}

namespace Mirrors

variable {P Q : Prop} {x x' : Compile Compiled}

/-- A result that is visible anyway. -/
theorem visible (h : Mirrors L hidden (Compiled.Embeds f hidden False) x x') :
    Mirrors L hidden (Compiled.Embeds f hidden P) x x' :=
  h.mono fun _ _ hc => hc.mono False.elim

/-- A result that may be the row itself. -/
theorem opened (h : Mirrors L hidden (Compiled.Embeds f hidden (P ∧ Q)) x x') :
    Mirrors L hidden (Compiled.Embeds f hidden Q) x x' :=
  h.mono fun _ _ hc => hc.mono And.right

/-- A result that is not the row itself. -/
theorem closed (h : Mirrors L hidden (Compiled.Embeds f hidden (P ∧ Q)) x x') (hP : ¬ P) :
    Mirrors L hidden (Compiled.Embeds f hidden False) x x' :=
  h.mono fun _ _ hc => hc.mono fun hPQ => hP hPQ.1

end Mirrors

mutual

/-- **Compiling in the larger statement** does the same, if the expression avoids the hidden
member. -/
theorem compile_mirrors (hs : s.Extends f hidden s') (e : Expr)
    (h : e.avoids (s.primary.opensRow hidden) hidden = true) (scope : Scope) :
    Mirrors L hidden (Compiled.Embeds f hidden (e = .row ∧ s.primary.opensRow hidden))
      (compile s scope e) (compile s' (scope.embed f) e) := by
  by_cases hparam : e.isParameter = true
  · rw [compile_eq_compileParameter hparam, compile_eq_compileParameter hparam]
    exact compileParameter_mirrors e
  have := compile_appends s'
  have := compileBranches_appends s'
  unfold compile
  rw [if_neg hparam, if_neg hparam]
  cases e with
  | args | constant _ => exact absurd rfl hparam
  | method receiver name values => exact .throw _ _
  | row =>
    exact (compileOpenRow_mirrors hs h).mono fun _ _ hc => hc.mono fun hopen => ⟨rfl, hopen⟩
  | rowNumber => exact (Mirrors.pure (compileRowNumber_embeds hs (bne_iff_ne.mp h) scope)).visible
  | var name =>
    dsimp only [Scope.embed]
    split
    · exact (compileChain_mirrors hs (isVisibleChain_binding _ _) []).visible
    · exact .throw _ _
  | member base name =>
    -- A member of the row could be the hidden one; a member of anything else could not.
    by_cases hbase : base = .row
    · subst hbase
      have hname : name ≠ hidden := bne_iff_ne.mp h
      have hrow : Mirrors L hidden (fun c c' => c.IsRow ∧ c'.IsRow) (compile s scope .row)
          (compile s' (scope.embed f) .row) := compileRow_mirrors s s'
      exact ((hrow.within _ _).bind fun c c' hc =>
        compileRowMember_mirrors hs hname hc _ _ _ _).visible
    · have hmember : base.avoids (s.primary.opensRow hidden) hidden = true := by
        rwa [Expr.avoids] at h
        exact hbase
      have hchain := (compile_mirrors hs base hmember scope).closed hbase
      exact ((hchain.within _ _).bind fun c c' hc =>
        compileMember_mirrors hs hc _ _ _ _ name).visible
  | unary op operand =>
    have hoperand := (compile_mirrors hs operand h scope).opened
    cases op with
    | not =>
      refine ((operandOf_mirrors hs hoperand _ _ _ _).bind fun o o' ho => ?_).visible
      rw [ho.tables]
      exact .pure (.ofEmbeds (ho.value.wrap .not) _ _)
    | negate =>
      refine ((operandOf_mirrors hs hoperand _ _ _ _).bind fun o o' ho => ?_).visible
      rw [ho.type, ho.tables]
      exact .pure (.ofEmbeds (ho.value.wrap .negate) _ _)
  | binary op left right =>
    obtain ⟨hl, hr⟩ := Bool.and_eq_true_iff.mp h
    have hleft := (compile_mirrors hs left hl scope).opened
    have hright := (compile_mirrors hs right hr scope).opened
    cases op with
    | isIn =>
      exact ((operandOf_mirrors hs hleft _ _ _ _).bind fun o o' ho =>
        compileMembership_mirrors ho right).visible
    | comma => exact .throw _ _
    | _ =>
      refine (operands_mirrors hs hleft hright _ _ _ _ _ _ fun l l' r r' hl hr => ?_).visible
      rw [hl.type, hr.type, hl.tables, hr.tables, ← List.map_append]
      exact .ofEmbeds (hl.value.binary _ hr.value) _ _
  | tuple items => exact (compileItems_mirrors hs items h scope _ _ 0).visible
  | array items => exact (compileItems_mirrors hs items h scope _ _ 0).visible
  | object members => exact (compileMembers_mirrors hs members h scope _ _).visible
  | conditional test ifTrue ifFalse =>
    obtain ⟨ht, h⟩ := Bool.and_eq_true_iff.mp h
    obtain ⟨hv, hf⟩ := Bool.and_eq_true_iff.mp h
    have htest := (compile_mirrors hs test ht scope).opened
    have hvalue := (compile_mirrors hs ifTrue hv scope).opened
    have helse := compileElse_mirrors hs ifFalse hf scope
    have halternative := fun whole whole' => alternative_mirrors hs
      (compile_mirrors hs ifFalse hf scope).opened (helse whole whole') whole whole' ifFalse ifFalse
    have := alternative_appends s' (scope.embed f)
    refine ((operandOf_mirrors hs htest _ _ _ _).bind fun t t' ht => ?_).visible
    refine (operandOf_mirrors hs hvalue _ _ _ _).bind fun v v' hv => ?_
    refine (halternative _ _).bind fun p p' hp => ?_
    have hbs := hp.1.cons ht hv
    have ho := hp.2
    dsimp only
    rw [hbs.tables, ho.tables, hv.type, ← List.map_append]
    exact .pure (.ofEmbeds (cases_embeds hbs ho) _ _)
  | cases branches otherwise =>
    obtain ⟨hbs, ho⟩ := Bool.and_eq_true_iff.mp h
    have hbranches := compileBranches_mirrors hs branches hbs scope
    have hotherwise := (compile_mirrors hs otherwise ho scope).opened
    refine ((hbranches _ _).bind fun bs bs' hbs => ?_).visible
    refine (operandOf_mirrors hs hotherwise _ _ _ _).bind fun o o' ho => ?_
    rw [hbs.type?, hbs.tables, ho.type, ho.tables, ← List.map_append]
    exact .pure (.ofEmbeds (cases_embeds hbs ho) _ _)
  | casesOf subject branches otherwise =>
    obtain ⟨hk, h⟩ := Bool.and_eq_true_iff.mp h
    obtain ⟨hbs, ho⟩ := Bool.and_eq_true_iff.mp h
    have hsubject := (compile_mirrors hs subject hk scope).opened
    have hbranches := compileBranches_mirrors hs branches hbs scope
    have hotherwise := (compile_mirrors hs otherwise ho scope).opened
    refine ((operandOf_mirrors hs hsubject _ _ _ _).bind fun k k' hk => ?_).visible
    refine (hbranches _ _).bind fun bs bs' hbs => ?_
    refine (operandOf_mirrors hs hotherwise _ _ _ _).bind fun o o' ho => ?_
    rw [hbs.type?, hk.tables, hbs.tables, ho.type, ho.tables, ← List.map_append, ← List.map_append]
    exact .pure (.ofEmbeds (casesOf_embeds hk hbs ho) _ _)
  | aggregate function source =>
    have hsource := (compile_mirrors hs source h { scope with beneath := true }).opened
    exact ((hsource.within _ _).bind fun c c' hc =>
      compileAggregate_mirrors hs scope hc _ _ function).visible
  | apply function operand =>
    have hoperand := (compile_mirrors hs operand h scope).opened
    exact ((operandOf_mirrors hs hoperand _ _ _ _).bind
      fun o o' ho => .pure (compileFunction_embeds function ho)).visible
  | select source param body =>
    have hsource : source ≠ .row := by
      rintro rfl
      cases h
    have hand : source.avoids (s.primary.opensRow hidden) hidden = true ∧
        body.avoids (s.primary.opensRow hidden) hidden = true := by
      rw [Expr.avoids] at h
      · exact Bool.and_eq_true_iff.mp h
      · exact hsource
    have hrange := (compile_mirrors hs source hand.1 scope).closed hsource
    refine ((hrange.within _ _).bind fun c c' hc => ?_).visible
    refine (compileRange_mirrors hs hc _ _).bind fun range _ hrange => ?_
    subst hrange
    rw [Range.scope_embed]
    have hbody := (compile_mirrors hs body hand.2 (range.scope scope param)).opened.expanded hs
      (range.scope scope param)
    exact (hbody.within _ _).bind fun b b' hb => .pure (range.result_embeds hs scope hb)
  | toList source =>
    have hsource := (compile_mirrors hs source h scope).opened.expanded hs scope
    exact (hsource.within _ _).visible
  | one source =>
    have hsource := (compile_mirrors hs source h scope).opened.expanded hs scope
    exact ((hsource.within _ _).bind fun c c' hc => compileOne_mirrors hc _ _).visible
  | isIn value set | contains set value =>
    obtain ⟨hv, -⟩ := Bool.and_eq_true_iff.mp h
    have hvalue := (compile_mirrors hs value hv scope).opened
    exact ((operandOf_mirrors hs hvalue _ _ _ _).bind
      fun o o' ho => compileMembership_mirrors ho set).visible
termination_by structural e

theorem compileItems_mirrors (hs : s.Extends f hidden s') (es : List Expr)
    (h : Expr.allAvoid (s.primary.opensRow hidden) hidden es = true) (scope : Scope)
    (whole whole' : Expr) (index : Nat) :
    Mirrors L hidden (Compiled.Embeds f hidden False) (compileItems s scope whole index es)
      (compileItems s' (scope.embed f) whole' index es) := by
  cases es with
  | nil => exact .pure (.of_isVisible nofun)
  | cons e es =>
    obtain ⟨he, hes⟩ := Bool.and_eq_true_iff.mp h
    have := compile_appends s'
    have := compileItems_appends s'
    have hvalue := (compile_mirrors hs e he scope).opened.expanded hs scope
    refine (hvalue.within whole whole').bind fun c c' hc => ?_
    exact (compileItems_mirrors hs es hes scope whole whole' (index + 1)).bind
      fun d d' hd => .pure ((hc.under _).append hd)
termination_by structural es

theorem compileMembers_mirrors (hs : s.Extends f hidden s') (es : List (String × Expr))
    (h : Expr.membersAvoid (s.primary.opensRow hidden) hidden es = true) (scope : Scope)
    (whole whole' : Expr) :
    Mirrors L hidden (Compiled.Embeds f hidden False) (compileMembers s scope whole es)
      (compileMembers s' (scope.embed f) whole' es) := by
  cases es with
  | nil => exact .pure (.of_isVisible nofun)
  | cons member es =>
    obtain ⟨name, e⟩ := member
    obtain ⟨he, hes⟩ := Bool.and_eq_true_iff.mp h
    have := compile_appends s'
    have := compileMembers_appends s'
    have hvalue := (compile_mirrors hs e he scope).opened.expanded hs scope
    refine (hvalue.within whole whole').bind fun c c' hc => ?_
    exact (compileMembers_mirrors hs es hes scope whole whole').bind
      fun d d' hd => .pure ((hc.under _).append hd)
termination_by structural es

theorem compileBranches_mirrors (hs : s.Extends f hidden s') (bs : List (Expr × Expr))
    (h : Expr.branchesAvoid (s.primary.opensRow hidden) hidden bs = true) (scope : Scope)
    (whole whole' : Expr) :
    Mirrors L hidden (CompiledBranches.Embeds f hidden) (compileBranches s scope whole bs)
      (compileBranches s' (scope.embed f) whole' bs) := by
  cases bs with
  | nil => exact .pure CompiledBranches.embeds_empty
  | cons branch rest =>
    obtain ⟨test, value⟩ := branch
    obtain ⟨ht, h⟩ := Bool.and_eq_true_iff.mp h
    obtain ⟨hv, hrest⟩ := Bool.and_eq_true_iff.mp h
    have := compile_appends s'
    have := compileBranches_appends s'
    have htest := (compile_mirrors hs test ht scope).opened
    have hvalue := (compile_mirrors hs value hv scope).opened
    refine (operandOf_mirrors hs htest _ _ _ _).bind fun t t' ht => ?_
    refine (operandOf_mirrors hs hvalue _ _ _ _).bind fun v v' hv => ?_
    exact (compileBranches_mirrors hs rest hrest scope whole whole').bind
      fun bs bs' hbs => .pure (hbs.cons ht hv)
termination_by structural bs

theorem compileElse_mirrors (hs : s.Extends f hidden s') (e : Expr)
    (h : e.avoids (s.primary.opensRow hidden) hidden = true) (scope : Scope)
    (whole whole' : Expr) :
    Option.Rel (Mirrors L hidden (AlternativesEmbed f hidden)) (compileElse s scope whole e)
      (compileElse s' (scope.embed f) whole' e) := by
  cases e with
  | conditional test ifTrue ifFalse =>
    obtain ⟨ht, h⟩ := Bool.and_eq_true_iff.mp h
    obtain ⟨hv, hf⟩ := Bool.and_eq_true_iff.mp h
    have htest := (compile_mirrors hs test ht scope).opened
    have hvalue := (compile_mirrors hs ifTrue hv scope).opened
    have helse := compileElse_mirrors hs ifFalse hf scope whole whole'
    have halternative := alternative_mirrors hs (compile_mirrors hs ifFalse hf scope).opened helse
      whole whole' ifFalse ifFalse
    have := compile_appends s'
    have := alternative_appends s' (scope.embed f)
    -- Only a conditional adds its own branches to those of the conditional around it.
    refine .some ?_
    refine (operandOf_mirrors hs htest _ _ _ _).bind fun t t' ht => ?_
    refine (operandOf_mirrors hs hvalue _ _ _ _).bind fun v v' hv => ?_
    exact halternative.bind fun p p' hp => .pure ⟨hp.1.cons ht hv, hp.2⟩
  | _ => exact .none
termination_by structural e

end

/-! ### Mappings and conditions -/

theorem compileMapping_mirrors (hs : s.Extends f hidden s') {e : Expr}
    (h : e.avoids (s.primary.opensRow hidden) hidden = true) :
    Mirrors L hidden (Compiled.Embeds f hidden False) (compileMapping s e)
      (compileMapping s' e) := by
  have houtermost : Scope.outermost.embed f = .outermost := by
    rw [Scope.embed, Scope.outermost, f.table_zero]
  have hvalue := (compile_mirrors (L := L) hs e h .outermost).opened.expanded hs .outermost
  rw [houtermost] at hvalue
  exact hvalue

theorem compileCondition_mirrors (hs : s.Extends f hidden s') {e : Expr}
    (h : e.avoids (s.primary.opensRow hidden) hidden = true) :
    Mirrors L hidden (Accumulator.Embeds f hidden) (compileCondition s e)
      (compileCondition s' e) := by
  have houtermost : Scope.outermost.embed f = .outermost := by
    rw [Scope.embed, Scope.outermost, f.table_zero]
  have hcompile := (compile_mirrors (L := L) hs e h .outermost).opened
  rw [houtermost] at hcompile
  refine hcompile.bind fun c c' hc => (toOperand_mirrors hs hc _ _).bind fun o o' ho => ?_
  rw [ho.value.eq, aggregation_embed]
  split
  · exact .pure ⟨rfl, ho.visible⟩
  · exact .throw _ _

end

end NestedQuery
