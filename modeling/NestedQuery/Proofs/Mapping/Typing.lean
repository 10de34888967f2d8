import NestedQuery.Proofs.Expr.Inlining
import NestedQuery.Proofs.Mapping.Inference
import NestedQuery.Proofs.Mapping.Invariants

/-!
# Compiled types

A scalar expression is compiled to a value of its inferred type, wherever in a mapping it stands
(`infers_of_isScalar`). Inside the bodies of `select`s its variables stand for chains of
the row (`Scope.LeadsTo`), and its type is that of the expression with these chains in their place.
So the value of the expression for a row converts to the type of what is compiled
(`exists_convert_eq_ok_of_compile`).
-/

namespace NestedQuery

open Compile

/-! ### Paths of bindings -/

section

variable {bindings bindings' : List Binding} {root : Root} {path path' : List String}

theorem qualifyWithin_append {steps : Nat} (h : qualifyWithin bindings steps root path = .ok path')
    (rest : List String) :
    qualifyWithin bindings steps root (path ++ rest) = .ok (path' ++ rest) := by
  induction steps generalizing root path with
  | zero => cases h
  | succ steps ih =>
    cases root with
    | row => rw [← Except.ok.inj h]; rfl
    | binding id =>
      rw [qualifyWithin] at h ⊢
      cases hb : bindings[id]? with
      | none => rw [hb] at h; cases h
      | some b =>
        rw [hb] at h
        have h := ih h
        rw [List.append_assoc] at h
        exact h

/-- A longer path leads further. -/
theorem qualify_append (h : qualify bindings root path = .ok path') (rest : List String) :
    qualify bindings root (path ++ rest) = .ok (path' ++ rest) :=
  qualifyWithin_append h rest

theorem getElem?_mono {id : BindingId} {b : Binding} (hbindings : bindings <+: bindings')
    (h : bindings[id]? = some b) : bindings'[id]? = some b := by
  obtain ⟨rest, rfl⟩ := hbindings
  rwa [List.getElem?_append_left (List.getElem?_eq_some_iff.mp h).1]

theorem qualifyWithin_mono {steps steps' : Nat} (hbindings : bindings <+: bindings')
    (hsteps : steps ≤ steps') (h : qualifyWithin bindings steps root path = .ok path') :
    qualifyWithin bindings' steps' root path = .ok path' := by
  induction steps generalizing root path steps' with
  | zero => cases h
  | succ steps ih =>
    obtain ⟨steps', rfl⟩ := Nat.exists_eq_add_of_le' (Nat.lt_of_lt_of_le (Nat.succ_pos _) hsteps)
    cases root with
    | row => exact h
    | binding id =>
      rw [qualifyWithin] at h ⊢
      cases hb : bindings[id]? with
      | none => rw [hb] at h; cases h
      | some b =>
        rw [hb] at h
        rw [getElem?_mono hbindings hb]
        exact ih (by omega) h

/-- Further bindings do not change where a path leads. -/
theorem qualify_mono (hbindings : bindings <+: bindings')
    (h : qualify bindings root path = .ok path') : qualify bindings' root path = .ok path' :=
  qualifyWithin_mono hbindings (Nat.succ_le_succ hbindings.length_le) h

theorem lt_length_of_qualify_eq_ok {id : BindingId}
    (h : qualify bindings (.binding id) path = .ok path') : id < bindings.length := by
  rw [qualify, qualifyWithin] at h
  cases hb : bindings[id]? with
  | none => rw [hb] at h; cases h
  | some b => exact (List.getElem?_eq_some_iff.mp hb).1

end

/-- Lists with the same names and related values have related values at each name. -/
theorem lookup_of_forall₂ {α β : Type} {R : α → β → Prop} {ls : List (String × α)}
    {ps : List (String × β)} (h : List.Forall₂ (fun l p => l.1 = p.1 ∧ R l.2 p.2) ls ps)
    {name : String} {a : α} (ha : ls.lookup name = some a) :
    ∃ b, ps.lookup name = some b ∧ R a b := by
  induction h with
  | nil => cases ha
  | @cons l p ls ps hl _ ih =>
    obtain ⟨hname, hr⟩ := hl
    obtain ⟨m, a'⟩ := l
    obtain ⟨n, b⟩ := p
    obtain rfl : m = n := hname
    rw [List.lookup_cons] at ha ⊢
    split at ha
    · obtain rfl := Option.some.inj ha
      exact ⟨b, rfl, hr⟩
    · exact ih ha

/-- The parameters in scope stand for the chains of the row along the paths. -/
def Scope.LeadsTo (scope : Scope) (bindings : List Binding)
    (paths : List (String × List String)) : Prop :=
  List.Forall₂ (fun l p => l.1 = p.1 ∧ qualify bindings (.binding l.2) [] = .ok p.2)
    scope.locals paths

variable {s : Statement} {scope : Scope} {paths : List (String × List String)} {c c' : Collected}

namespace Scope.LeadsTo

theorem mono (h : scope.LeadsTo c.bindings paths) (hc : c.GrowsTo c') :
    scope.LeadsTo c'.bindings paths :=
  h.imp fun _ _ hl => ⟨hl.1, qualify_mono hc.bindings hl.2⟩

theorem outermost (bindings : List Binding) : Scope.outermost.LeadsTo bindings [] :=
  .nil

/-- Each parameter in scope stands for a binding that has been collected. -/
theorem isRegistered (h : scope.LeadsTo c.bindings paths) : scope.IsRegistered c := by
  intro l hl
  obtain ⟨p, -, -, hpath⟩ := exists_mem_of_forall₂ h.flip hl
  exact lt_length_of_qualify_eq_ok hpath

/-- A variable stands for the chain of the innermost parameter with its name. -/
theorem lookup (h : scope.LeadsTo c.bindings paths) {name : String} {b : BindingId}
    (hb : scope.locals.lookup name = some b) :
    ∃ path, paths.lookup name = some path ∧ qualify c.bindings (.binding b) [] = .ok path :=
  lookup_of_forall₂ (R := fun b path => qualify c.bindings (.binding b) [] = .ok path) h hb

end Scope.LeadsTo

/-! ### Chains -/

theorem typeAt_yields {root : Root} {path : List String} {type : ValueType}
    (h : Yields (typeAt s root path) c type c') :
    c = c' ∧ ∃ path', qualify c.bindings root path = .ok path' ∧ type = s.typeOf path' := by
  obtain ⟨l?, c₁, hl, h⟩ := yields_bind_iff.mp h
  obtain ⟨⟨path', hpath', rfl⟩, rfl⟩ := yields_lookup_iff.mp hl
  unfold Statement.typeOf
  cases hlookup : s.lookup? path' with
  | none =>
    rw [hlookup] at h
    obtain ⟨rfl, rfl⟩ := yields_pure_iff.mp h
    exact ⟨rfl, path', hpath', by rw [hlookup]⟩
  | some l =>
    rw [hlookup] at h
    refine ⟨?_, path', hpath', ?_⟩
    · cases l <;> exact (yields_pure_iff.mp h).2
    · rw [hlookup]
      cases l <;> exact (yields_pure_iff.mp h).1.symm

theorem compileChain_yields_typeOf {root : Root} {path : List String} {tables : List MappedTable}
    {r : Compiled} (h : Yields (compileChain s root path tables) c r c') :
    c = c' ∧ ∃ path', qualify c.bindings root path = .ok path' ∧
      r = .ofValue (chainLeaf root path) (s.typeOf path') tables := by
  obtain ⟨type, c₁, htype, h⟩ := yields_bind_iff.mp h
  obtain ⟨rfl, rfl⟩ := yields_pure_iff.mp h
  obtain ⟨rfl, path', hpath', rfl⟩ := typeAt_yields htype
  exact ⟨rfl, path', hpath', rfl⟩

/-! ### Inferred types -/

/-- The expression compiles to a value of its inferred type, in every scope whose parameters stand
for the chains along the paths. -/
def Infers (s : Statement) (paths : List (String × List String)) (e : Expr) : Prop :=
  ∀ scope c r c', Grounded c.bindings → scope.LeadsTo c.bindings paths →
    Yields (compile s scope e) c r c' →
      ∃ v type tables, r = .ofValue v type tables ∧ (e.inline paths).inferredType s = type

theorem Expr.isParameter_inline (paths : List (String × List String)) (e : Expr) :
    (e.inline paths).isParameter = e.isParameter := by
  have hread := readsRow_inline paths e
  cases e with
  | var name =>
    exact Bool.eq_false_iff.mpr fun h =>
      Bool.false_ne_true (hread.symm.trans (readsRow_eq_false_of_isParameter h)).symm
  | _ => first | rfl | exact congrArg not hread

theorem registerParameter_yields_type {e : Expr} {id : ParamId} {type : ValueType}
    (h : Yields (registerParameter e) c (id, type) c') : type = e.parameterType := by
  unfold registerParameter at h
  unfold Expr.parameterType
  split at h
  · rename_i hargs
    obtain ⟨id', c₁, -, h⟩ := yields_bind_iff.mp h
    obtain ⟨heq, -⟩ := yields_pure_iff.mp h
    rw [if_pos hargs, (Prod.mk.inj heq).2]
  · rename_i hargs
    obtain ⟨v, c₁, hv, h⟩ := yields_bind_iff.mp h
    obtain ⟨hvalue, -⟩ := yields_ofResult_iff.mp (yields_within_iff.mp hv)
    obtain ⟨id', c₂, -, h⟩ := yields_bind_iff.mp h
    obtain ⟨heq, -⟩ := yields_pure_iff.mp h
    rw [if_neg hargs, hvalue, ← (Prod.mk.inj heq).2]
    rfl

theorem infers_of_isParameter {e : Expr} (he : e.isParameter = true) : Infers s paths e := by
  intro scope c r c' _ _ h
  rw [Expr.inline_eq_self_of_not_readsRow (Expr.readsRow_eq_false_of_isParameter he)]
  rw [compile_eq_compileParameter he] at h
  obtain ⟨id, type, hid, rfl⟩ := compileParameter_yields h
  obtain rfl := registerParameter_yields_type hid
  exact ⟨_, _, _, rfl, Expr.inferredType_of_isParameter he⟩

/-- What reads the row is compiled by the rule for its form. -/
theorem infers_of_not_isParameter {e : Expr}
    (h : ¬ e.isParameter = true → ¬ (e.inline paths).isParameter = true → Infers s paths e) :
    Infers s paths e := by
  by_cases hparam : e.isParameter = true
  · exact infers_of_isParameter hparam
  · exact h hparam ((e.isParameter_inline paths).symm ▸ hparam)

/-- A chain compiles to a leaf that leads where the chain does. -/
theorem compile_yields_leaf {c c' : Collected} {e : Expr} {path : List String}
    (hpath : (e.inline paths).rowPath? = some path) (hscope : scope.LeadsTo c.bindings paths)
    {r : Compiled} (h : Yields (compile s scope e) c r c') :
    c = c' ∧ ∃ root path' tables, qualify c.bindings root path' = .ok path ∧
      r = .ofValue (chainLeaf root path') (s.typeOf path) tables := by
  -- A chain on the row reads the row, so it is no parameter.
  have hparam : ¬ e.isParameter = true := fun hparam => by
    have hrow := Expr.readsRow_eq_false_of_isParameter hparam
    rw [← Expr.readsRow_inline paths, Expr.readsRow_of_rowPath?_eq_some hpath] at hrow
    cases hrow
  unfold compile at h
  rw [if_neg hparam] at h
  cases e with
  | row =>
    obtain rfl := Option.some.inj hpath
    obtain ⟨hc, path', hpath', rfl⟩ := compileChain_yields_typeOf h
    obtain rfl := Except.ok.inj hpath'
    exact ⟨hc, .row, [], [], rfl, rfl⟩
  | var name =>
    dsimp only at h
    cases hlookup : scope.locals.lookup name with
    | none => rw [hlookup] at h; exact absurd h not_yields_throw
    | some b =>
      rw [hlookup] at h
      obtain ⟨path₀, hpath₀, hqualify⟩ := hscope.lookup hlookup
      rw [Expr.inline, hpath₀] at hpath
      obtain rfl := Option.some.inj ((Expr.rowPath?_chain path₀).symm.trans hpath)
      obtain ⟨hc, path', hpath', rfl⟩ := compileChain_yields_typeOf h
      obtain rfl := Except.ok.inj (hqualify.symm.trans hpath')
      exact ⟨hc, .binding b, [], [], hqualify, rfl⟩
  | member base name =>
    obtain ⟨basePath, hbase, rfl⟩ := Option.map_eq_some_iff.mp hpath
    obtain ⟨b, c₁, hb, h⟩ := yields_bind_iff.mp h
    obtain ⟨rfl, root, path', tables, hqualify, rfl⟩ :=
      compile_yields_leaf hbase hscope (yields_within_iff.mp hb)
    obtain ⟨hc, path'', hpath'', rfl⟩ := compileChain_yields_typeOf h
    obtain rfl := Except.ok.inj ((qualify_append hqualify [name]).symm.trans hpath'')
    exact ⟨hc, root, path' ++ [name], tables, hpath'', rfl⟩
  | _ => cases hpath
termination_by structural e

theorem infers_of_rowPath? {e : Expr} {path : List String}
    (hpath : (e.inline paths).rowPath? = some path) : Infers s paths e := by
  intro scope c r c' _ hscope h
  obtain ⟨-, root, path', tables, -, rfl⟩ := compile_yields_leaf hpath hscope h
  exact ⟨_, _, _, rfl, Expr.inferredType_of_rowPath?_eq_some hpath⟩

/-! ### Operands -/

/-- Compiling collects more, and the bindings stay grounded. -/
theorem compile_ensures_of_leadsTo (hc : Grounded c.bindings)
    (hscope : scope.LeadsTo c.bindings paths) (e : Expr) :
    Ensures (fun _ => True) Compiled.IsRegistered c (compile s scope e) :=
  compile_ensures s e hc hscope.isRegistered fun _ _ _ => trivial

theorem operandOf_growsTo (hc : Grounded c.bindings) (hscope : scope.LeadsTo c.bindings paths)
    {parent e : Expr} {o : Operand} (h : Yields (operandOf s parent e (compile s scope e)) c o c') :
    c.GrowsTo c' :=
  ((operandOf_ensures (compile_ensures_of_leadsTo hc hscope e) parent e).yields h).1

/-- A value as an operand keeps its type. -/
theorem toOperand_yields_type {e : Expr} {v : Accumulator Symbol} {type : ValueType}
    {tables : List MappedTable} {o : Operand}
    (h : Yields (toOperand s e (.ofValue v type tables)) c o c') : o.type = type := by
  obtain ⟨w?, c₁, -, h⟩ := yields_bind_iff.mp h
  split at h
  · exact absurd h not_yields_throw
  · exact absurd h not_yields_throw
  · rw [← (yields_pure_iff.mp h).1]

theorem Infers.operand_type {parent e : Expr} {o : Operand} (he : Infers s paths e)
    (hc : Grounded c.bindings) (hscope : scope.LeadsTo c.bindings paths)
    (h : Yields (operandOf s parent e (compile s scope e)) c o c') :
    o.type = (e.inline paths).inferredType s := by
  obtain ⟨r, c₁, hr, h⟩ := yields_bind_iff.mp h
  obtain ⟨v, type, tables, rfl, htype⟩ := he _ _ _ _ hc hscope (yields_within_iff.mp hr)
  rw [htype]
  exact toOperand_yields_type (yields_within_iff.mp h)

/-! ### Expressions -/

namespace Infers

variable {e e' set test ifTrue ifFalse subject otherwise : Expr} {branches : List (Expr × Expr)}

theorem not (e : Expr) : Infers s paths (.unary .not e) := by
  refine infers_of_not_isParameter fun hparam hinline scope c r c' _ _ h => ?_
  obtain ⟨o, -, rfl⟩ := compile_not_yields hparam h
  exact ⟨_, _, _, rfl, Expr.inferredType_not hinline⟩

theorem negate (he : Infers s paths e) : Infers s paths (.unary .negate e) := by
  refine infers_of_not_isParameter fun hparam hinline scope c r c' hc hscope h => ?_
  obtain ⟨o, ho, rfl⟩ := compile_negate_yields hparam h
  exact ⟨_, _, _, rfl, (Expr.inferredType_negate hinline).trans (he.operand_type hc hscope ho).symm⟩

theorem binary {op : BinaryOp} (hin : op ≠ .isIn) (hcomma : op ≠ .comma) (he : Infers s paths e)
    (he' : Infers s paths e') : Infers s paths (.binary op e e') := by
  refine infers_of_not_isParameter fun hparam hinline scope c r c' hc hscope h => ?_
  obtain ⟨left, c₁, right, hl, hr, rfl⟩ := compile_binary_yields hin hcomma hparam h
  have hc₁ := operandOf_growsTo hc hscope hl
  refine ⟨_, _, _, rfl, ?_⟩
  rw [he.operand_type hc hscope hl, he'.operand_type hc₁.grounded (hscope.mono hc₁) hr]
  exact Expr.inferredType_binary hinline

theorem apply (function : Function) (he : Infers s paths e) :
    Infers s paths (.apply function e) := by
  refine infers_of_not_isParameter fun hparam hinline scope c r c' hc hscope h => ?_
  obtain ⟨o, ho, rfl⟩ := compile_apply_yields hparam h
  refine ⟨_, _, _, rfl, ?_⟩
  rw [he.operand_type hc hscope ho]
  exact Expr.inferredType_apply hinline

theorem isIn (e set : Expr) : Infers s paths (.isIn e set) := by
  refine infers_of_not_isParameter fun hparam hinline scope c r c' _ _ h => ?_
  obtain ⟨o, c₁, -, h⟩ := compile_isIn_yields hparam h
  obtain ⟨list, -, rfl⟩ := compileMembership_yields h
  exact ⟨_, _, _, rfl, Expr.inferredType_isIn hinline⟩

theorem contains (set e : Expr) : Infers s paths (.contains set e) := by
  refine infers_of_not_isParameter fun hparam hinline scope c r c' _ _ h => ?_
  obtain ⟨o, c₁, -, h⟩ := compile_contains_yields hparam h
  obtain ⟨list, -, rfl⟩ := compileMembership_yields h
  exact ⟨_, _, _, rfl, Expr.inferredType_contains hinline⟩

theorem conditional (test ifFalse : Expr) (he : Infers s paths ifTrue) :
    Infers s paths (.conditional test ifTrue ifFalse) := by
  refine infers_of_not_isParameter fun hparam hinline scope c r c' hc hscope h => ?_
  obtain ⟨whole, t, c₁, v, c₂, bs, o, ht, hv, -, rfl⟩ := compile_conditional_yields hparam h
  have hc₁ := operandOf_growsTo hc hscope ht
  refine ⟨_, _, _, rfl, ?_⟩
  rw [he.operand_type hc₁.grounded (hscope.mono hc₁) hv]
  exact Expr.inferredType_of_alternatives rfl hinline

/-- The type of a case is that of its first branch, or of the alternative if it has none. -/
theorem branches_type {whole : Expr} {bs : CompiledBranches} {o : Operand} {c₁ : Collected}
    (hvalues : ∀ b ∈ branches, Infers s paths b.2) (ho : Infers s paths otherwise)
    (hc : Grounded c.bindings) (hscope : scope.LeadsTo c.bindings paths)
    (hbs : Yields (compileBranches s scope whole branches) c bs c₁)
    (hoperand : Yields (operandOf s whole otherwise (compile s scope otherwise)) c₁ o c') :
    bs.type?.getD o.type = (Expr.firstType? s (Expr.inlineBranches paths branches)).getD
      ((otherwise.inline paths).inferredType s) := by
  cases branches with
  | nil =>
    obtain ⟨rfl, rfl⟩ := yields_pure_iff.mp hbs
    exact ho.operand_type hc hscope hoperand
  | cons b rest =>
    obtain ⟨t, c₂, v, c₃, bs', ht, hv, -, rfl⟩ := compileBranches_cons_yields hbs
    have hc₂ := operandOf_growsTo hc hscope ht
    exact (hvalues b (List.mem_cons_self ..)).operand_type hc₂.grounded (hscope.mono hc₂) hv

theorem cases (hvalues : ∀ b ∈ branches, Infers s paths b.2) (ho : Infers s paths otherwise) :
    Infers s paths (.cases branches otherwise) := by
  refine infers_of_not_isParameter fun hparam hinline scope c r c' hc hscope h => ?_
  obtain ⟨whole, bs, c₁, o, hbs, hoperand, rfl⟩ := compile_cases_yields hparam h
  refine ⟨_, _, _, rfl, ?_⟩
  rw [branches_type hvalues ho hc hscope hbs hoperand]
  exact Expr.inferredType_cases hinline

theorem casesOf (subject : Expr) (hvalues : ∀ b ∈ branches, Infers s paths b.2)
    (ho : Infers s paths otherwise) : Infers s paths (.casesOf subject branches otherwise) := by
  refine infers_of_not_isParameter fun hparam hinline scope c r c' hc hscope h => ?_
  obtain ⟨whole, k, c₁, bs, c₂, o, hk, hbs, hoperand, rfl⟩ := compile_casesOf_yields hparam h
  have hc₁ := operandOf_growsTo hc hscope hk
  refine ⟨_, _, _, rfl, ?_⟩
  rw [branches_type hvalues ho hc₁.grounded (hscope.mono hc₁) hbs hoperand]
  exact Expr.inferredType_casesOf hinline

end Infers

mutual

/-- **A scalar expression compiles to a value of its inferred type.** -/
theorem infers_of_isScalar (e : Expr) (h : (e.inline paths).IsScalar s) : Infers s paths e := by
  by_cases hparam : e.isParameter = true
  · exact infers_of_isParameter hparam
  by_cases hcolumn : ∃ path, (e.inline paths).rowPath? = some path
  · obtain ⟨path, hpath⟩ := hcolumn
    exact infers_of_rowPath? hpath
  -- What is left is an operator, a choice or a membership test over scalar expressions.
  cases e with
  | unary op e =>
    cases h with
    | unary _ he =>
      cases op with
      | not => exact .not e
      | negate => exact (infers_of_isScalar e he).negate
    | argument ha => cases ha
    | column hpath => cases hpath
  | binary op left right =>
    cases h with
    | binary hin hcomma hl hr =>
      exact .binary hin hcomma (infers_of_isScalar left hl) (infers_of_isScalar right hr)
    | argument ha => cases ha
    | column hpath => cases hpath
  | apply function e =>
    cases h with
    | apply _ he => exact (infers_of_isScalar e he).apply function
    | argument ha => cases ha
    | column hpath => cases hpath
  | conditional test ifTrue ifFalse =>
    cases h with
    | conditional _ hv _ => exact .conditional test ifFalse (infers_of_isScalar ifTrue hv)
    | argument ha => cases ha
    | column hpath => cases hpath
  | cases branches otherwise =>
    cases h with
    | cases _ hvalues ho =>
      exact .cases (infers_of_branches_isScalar branches hvalues) (infers_of_isScalar otherwise ho)
    | argument ha => cases ha
    | column hpath => cases hpath
  | casesOf subject branches otherwise =>
    cases h with
    | casesOf _ _ hvalues ho =>
      exact .casesOf subject (infers_of_branches_isScalar branches hvalues)
        (infers_of_isScalar otherwise ho)
    | argument ha => cases ha
    | column hpath => cases hpath
  | isIn value set => exact .isIn value set
  | contains set value => exact .contains set value
  | row => exact absurd ⟨[], rfl⟩ hcolumn
  | args | constant => exact absurd rfl hparam
  | var name =>
    rw [Expr.inline] at h hcolumn
    cases hlookup : paths.lookup name with
    | some path => exact absurd ⟨path, by rw [hlookup]; exact Expr.rowPath?_chain path⟩ hcolumn
    | none =>
      rw [hlookup] at h
      cases h with
      | argument ha => cases ha
      | column hpath => cases hpath
  | member base name =>
    cases h with
    | argument ha =>
      rw [← Expr.isParameter_inline paths] at hparam
      exact absurd (Expr.isParameter_of_isArgument ha) hparam
    | column hpath => exact absurd ⟨_, hpath⟩ hcolumn
  | _ =>
    cases h with
    | argument ha => cases ha
    | column hpath => cases hpath
termination_by structural e

theorem infers_of_branches_isScalar (bs : List (Expr × Expr))
    (h : ∀ b ∈ Expr.inlineBranches paths bs, b.2.IsScalar s) : ∀ b ∈ bs, Infers s paths b.2 := by
  cases bs with
  | nil => exact fun b hb => absurd hb List.not_mem_nil
  | cons branch rest =>
    obtain ⟨test, value⟩ := branch
    obtain ⟨hvalue, hrest⟩ := List.forall_mem_cons.mp h
    exact List.forall_mem_cons.mpr
      ⟨infers_of_isScalar value hvalue, infers_of_branches_isScalar rest hrest⟩
termination_by structural bs

end

/-! ### Conversion -/

/-- **A scalar expression is compiled to its inferred type, and its value converts to it**, if the
row has values of the declared types and the parts of the expression go along with its type. -/
theorem exists_convert_eq_ok_of_compile {e : Expr} {r : Compiled} (hc : Grounded c.bindings)
    (hscope : scope.LeadsTo c.bindings paths) (he : (e.inline paths).IsScalar s)
    (h : Yields (compile s scope e) c r c') :
    ∃ o, r.value? = some o ∧ o.type = (e.inline paths).inferredType s ∧ ∀ arguments row,
      (∀ path, (row path).hasType (s.typeOf path) = true) →
        (e.inline paths).KeepsTypes s arguments row →
          ∀ v, ((e.inline paths).onRow row).evaluate arguments = .ok v → v.isPlain = true →
            ∃ d, Value.convert o.type v = .ok d := by
  obtain ⟨value, type, tables, rfl, rfl⟩ := infers_of_isScalar e he _ _ _ _ hc hscope h
  refine ⟨_, rfl, rfl, fun arguments row hrow hkeeps v hv hplain => ?_⟩
  exact Value.exists_convert_eq_ok (hkeeps.hasType hrow (congrArg Except.toOption hv)) hplain

/-- The row of a person. -/
def staffRow (name : String) (age : Int64) (path : List String) : Value :=
  if path = ["name"] then .text name else if path = ["age"] then .integer age else .null

theorem hasType_staffRow (name : String) (age : Int64) (path : List String) :
    (staffRow name age path).hasType (staff.typeOf path) = true := by
  unfold staffRow
  split
  · rename_i hname
    rw [hname, show staff.typeOf ["name"] = .text by decide]
    rfl
  · split
    · rename_i hage
      rw [hage, show staff.typeOf ["age"] = .integer by decide]
      rfl
    · rfl

/-- The age in some years of a person with a given name, and a fixed age for others. -/
def staffForecast : Expr :=
  .conditional (.binary .eq (.member (.var "p") "name") (.constant (.text "Bob")))
    (.binary .add (.member (.var "p") "age") (.member .args "years")) (.constant (.integer 60))

/-- In the body of a `select` over all people. -/
def staffBody : Scope :=
  ⟨[("p", 0)], 0, false⟩

theorem exists_convert_eq_ok_of_compile_staffForecast :
    ∃ r c' o d, Yields (compile staff staffBody staffForecast) ⟨{}, [⟨.row, []⟩]⟩ r c' ∧
      r.value? = some o ∧ o.type = .integer ∧ Value.convert o.type (.integer 42) = .ok d := by
  obtain ⟨r, c', h⟩ := exists_yields_of_isOk (show ((compile staff staffBody staffForecast).run.run
    ⟨{}, [⟨.row, []⟩]⟩).1.isOk = true by decide +kernel)
  have hscalar : (staffForecast.inline [("p", [])]).IsScalar staff :=
    .conditional (.binary (by decide) (by decide) (.column rfl (by decide)) (.constant _))
      (.binary (by decide) (by decide) (.column rfl (by decide)) (.argument rfl)) (.constant _)
  have hrow := hasType_staffRow "Bob" 30
  have hkeeps : (staffForecast.inline [("p", [])]).KeepsTypes staff
      (.object [("years", .integer 12)]) (staffRow "Bob" 30) := by
    refine .of_sameTypes hrow rfl
      (.arithmetic rfl (.column rfl) (.parameter rfl) fun _ v hv => ?_) fun a ha => ?_
    · rw [← Option.some.inj (show some (.integer 42) = some v from hv)]
      rfl
    · rw [List.mem_singleton.mp ha]
      exact ⟨.parameter rfl, by decide⟩
  have hgrounded : Grounded [⟨.row, []⟩] := Grounded.nil.concat (b := ⟨.row, []⟩) trivial
  have hscope : staffBody.LeadsTo [⟨.row, []⟩] [("p", [])] := .cons ⟨rfl, rfl⟩ .nil
  obtain ⟨o, ho, htype, hconvert⟩ := exists_convert_eq_ok_of_compile hgrounded hscope hscalar h
  obtain ⟨d, hd⟩ := hconvert _ _ hrow hkeeps (.integer 42) rfl rfl
  exact ⟨r, c', o, d, h, ho, htype.trans (by decide), hd⟩

/-- The value of a scalar expression for a row with values of the declared types does not convert to
the type that the expression is compiled to. -/
def Expr.IsUnconvertible (s : Statement) (e : Expr) (arguments : Document)
    (row : List String → Value) : Prop :=
  e.IsScalar s ∧ (∀ path, (row path).hasType (s.typeOf path) = true) ∧
    ∃ r c' o v, Yields (compile s .outermost e) {} r c' ∧ r.value? = some o ∧
      (e.onRow row).evaluate arguments = .ok v ∧ v.isPlain = true ∧
        ∀ d, Value.convert o.type v ≠ .ok d

theorem Expr.isUnconvertible_of_inferredType {e : Expr} {arguments : Document}
    {row : List String → Value} {v : Value} (he : e.IsScalar s)
    (hrow : ∀ path, (row path).hasType (s.typeOf path) = true)
    (hcompile : ((compile s .outermost e).run.run {}).1.isOk = true)
    (hv : (e.onRow row).evaluate arguments = .ok v) (hplain : v.isPlain = true)
    (hconvert : ∀ d, Value.convert (e.inferredType s) v ≠ .ok d) :
    e.IsUnconvertible s arguments row := by
  obtain ⟨r, c', h⟩ := exists_yields_of_isOk hcompile
  obtain ⟨value, type, tables, rfl, rfl⟩ :=
    infers_of_isScalar e (e.inline_nil.symm ▸ he) _ _ _ _ Grounded.nil (.outermost []) h
  rw [e.inline_nil] at h
  exact ⟨he, hrow, _, _, _, v, h, rfl, hv, hplain, hconvert⟩

/-- The age of a person with a given name, and the name of others. -/
def staffAgeOrName : Expr :=
  .conditional (.binary .eq (.member .row "name") (.constant (.text "Bob"))) (.member .row "age")
    (.member .row "name")

/-- The age of a person, scaled by an argument. -/
def staffScaledAge : Expr :=
  .binary .mul (.member .row "age") (.member .args "scale")

/-- A name is no integer, although the age before it is one, and neither is the product of an age
and a real, although the real is not known to be one. -/
theorem isUnconvertible_staffAgeOrName_staffScaledAge :
    staffAgeOrName.IsUnconvertible staff .null (staffRow "Ann" 7) ∧
      staffScaledAge.IsUnconvertible staff (.object [("scale", .float 1.5)])
        (staffRow "Ann" 7) := by
  have hage : (Expr.member .row "age").IsScalar staff := .column rfl (by decide)
  have hname : (Expr.member .row "name").IsScalar staff := .column rfl (by decide)
  constructor
  · refine Expr.isUnconvertible_of_inferredType (v := .text "Ann")
      (.conditional (.binary (by decide) (by decide) hname (.constant _)) hage hname)
      (hasType_staffRow "Ann" 7) (by decide +kernel) rfl rfl ?_
    rw [show staffAgeOrName.inferredType staff = .integer by decide]
    exact fun d hd => nomatch hd
  · refine Expr.isUnconvertible_of_inferredType (v := .real (Number.floatOfInt64 7 * 1.5))
      (.binary (by decide) (by decide) hage (.argument rfl))
      (hasType_staffRow "Ann" 7) (by decide +kernel) rfl (by decide +kernel) ?_
    rw [show staffScaledAge.inferredType staff = .integer by decide]
    intro d hd
    rw [Value.convert, Value.integralDocument,
      show Number.floatToInt? (Number.floatOfInt64 7 * 1.5) = none by decide +kernel] at hd
    cases hd

end NestedQuery
