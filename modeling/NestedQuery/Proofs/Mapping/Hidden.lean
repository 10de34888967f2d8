import NestedQuery.Proofs.Mapping.Embedding
import NestedQuery.Proofs.Mapping.Growth
import NestedQuery.Proofs.Mapping.Simulation

/-!
# Two compilations side by side

A statement and a larger one, which has a hidden member too, are compiled over side by side: a
`PoolLink` says how the parameters of the two compilations belong together, `Mirrors` that a step
of the smaller one follows a step of the larger, and `Compiled.Embeds` that the results are the
same apart from the places of tables and parameters. Chains, expansion and operands go side by side
as long as no chain leads to the hidden member.
-/

namespace NestedQuery

open Compile

/-! ### Expressions that avoid a member -/

/-- Whether the rows of the shape are those of the table and it has no column named like the hidden
member, so that the row may be taken as a whole. -/
def Source.opensRow (primary : Source) (hidden : String) : Bool :=
  primary.path.isEmpty && (Statement.lookupIn 0 primary.table [hidden]).isNone

namespace Expr

mutual

/-- Whether the expression takes no hidden member of the row. Where `opensRow` is not set, it takes
the row as a whole nowhere either; and nowhere does it range over the row itself. -/
def avoids (opensRow : Bool) (hidden : String) : Expr → Bool
  | row => opensRow
  | args | var _ | constant _ => true
  | member row name => name != hidden
  | member base _ => base.avoids opensRow hidden
  | unary _ operand => operand.avoids opensRow hidden
  | binary _ left right => left.avoids opensRow hidden && right.avoids opensRow hidden
  | tuple items | array items => allAvoid opensRow hidden items
  | object members => membersAvoid opensRow hidden members
  | conditional test ifTrue ifFalse =>
    test.avoids opensRow hidden && (ifTrue.avoids opensRow hidden && ifFalse.avoids opensRow hidden)
  | cases branches otherwise =>
    branchesAvoid opensRow hidden branches && otherwise.avoids opensRow hidden
  | casesOf subject branches otherwise =>
    subject.avoids opensRow hidden
      && (branchesAvoid opensRow hidden branches && otherwise.avoids opensRow hidden)
  | aggregate _ source | toList source | one source => source.avoids opensRow hidden
  | apply _ operand => operand.avoids opensRow hidden
  | select row _ _ => false
  | select source _ body => source.avoids opensRow hidden && body.avoids opensRow hidden
  | rowNumber => rowIdColumn != hidden
  | isIn value set | contains set value =>
    value.avoids opensRow hidden && set.avoids opensRow hidden
  | method receiver _ arguments =>
    receiver.avoids opensRow hidden && allAvoid opensRow hidden arguments

/-- Whether all of several expressions avoid the member. -/
def allAvoid (opensRow : Bool) (hidden : String) : List Expr → Bool
  | [] => true
  | e :: es => e.avoids opensRow hidden && allAvoid opensRow hidden es

/-- Whether the values of all members avoid the member. -/
def membersAvoid (opensRow : Bool) (hidden : String) : List (String × Expr) → Bool
  | [] => true
  | (_, e) :: es => e.avoids opensRow hidden && membersAvoid opensRow hidden es

/-- Whether all branches avoid the member. -/
def branchesAvoid (opensRow : Bool) (hidden : String) : List (Expr × Expr) → Bool
  | [] => true
  | (test, value) :: bs =>
    test.avoids opensRow hidden
      && (value.avoids opensRow hidden && branchesAvoid opensRow hidden bs)

end

end Expr

/-! ### Steps side by side -/

/-- How the parameters of a compilation belong to those of a larger one, of which something is known
in the end. -/
structure PoolLink (f : Embedding) where
  /-- The parameters of both belong together. -/
  Rel : Pool → Pool → Prop
  /-- What is known of the parameters of the larger compilation. -/
  Bound : Pool → Prop
  /-- It is known before, too. -/
  mono {p p₁ : Pool} : p.sources <+: p₁.sources → Bound p₁ → Bound p
  /-- A parameter is added to both. -/
  push {p p' : Pool} (source : ParamSource) : Rel p p' → Bound (p'.push source) →
    p'.size = f.param p.size ∧ Rel (p.push source) (p'.push source)
  /-- A parameter is marked in both. -/
  expand {p p' : Pool} (id : ParamId) : Rel p p' → Bound p' →
    Rel (p.expand id) (p'.expand (f.param id))

section

variable {f : Embedding} (L : PoolLink f) (hidden : String)

/-- The same has been collected, apart from the places of the parameters, and no binding leads to
the hidden member. -/
structure Collected.Linked (c c' : Collected) : Prop where
  pool : L.Rel c.pool c'.pool
  bindings : c'.bindings = c.bindings
  visible : AreVisible hidden c.bindings

/-- What `x'` yields, `x` yields too, side by side. -/
structure Mirrors {α β : Type} (R : α → β → Prop) (x : Compile α) (x' : Compile β) : Prop where
  /-- The step `x` for a step `x'`. -/
  backward : ∀ {c c' a' c₁'}, c.Linked L hidden c' → Yields x' c' a' c₁' → L.Bound c₁'.pool →
    ∃ a c₁, Yields x c a c₁ ∧ R a a' ∧ c₁.Linked L hidden c₁'

end

namespace Mirrors

variable {f : Embedding} {L : PoolLink f} {hidden : String}
variable {α β γ δ : Type} {R : α → β → Prop} {S : γ → δ → Prop}

theorem mono {x : Compile α} {x' : Compile β} {R' : α → β → Prop} (h : Mirrors L hidden R x x')
    (hR : ∀ a a', R a a' → R' a a') : Mirrors L hidden R' x x' := by
  refine ⟨fun hc hx hbound => ?_⟩
  obtain ⟨a, c₁, hx, ha, hc₁⟩ := h.backward hc hx hbound
  exact ⟨a, c₁, hx, hR _ _ ha, hc₁⟩

/-- What is known in the end is known after the first step, since parameters are only added. -/
theorem bind {x : Compile α} {x' : Compile β} {g : α → Compile γ} {g' : β → Compile δ}
    [∀ a, Grows (g' a)] (hx : Mirrors L hidden R x x')
    (hg : ∀ a a', R a a' → Mirrors L hidden S (g a) (g' a')) :
    Mirrors L hidden S (x >>= g) (x' >>= g') := by
  refine ⟨fun hc h hbound => ?_⟩
  obtain ⟨a', c₁', hxa', hga'⟩ := yields_bind_iff.mp h
  obtain ⟨a, c₁, hxa, ha, hc₁⟩ := hx.backward hc hxa' (L.mono (Grows.prefix_sources hga') hbound)
  obtain ⟨b, c₂, hga, hb, hc₂⟩ := (hg a a' ha).backward hc₁ hga' hbound
  exact ⟨b, c₂, yields_bind_iff.mpr ⟨a, c₁, hxa, hga⟩, hb, hc₂⟩

/-- A step that does not look at the parameters may stand in front. -/
theorem bind_of_steady {x : Compile α} {x' : Compile β} [Steady x'] {g : α → Compile γ}
    {g' : β → Compile δ} (hgrows : Grows (x' >>= g')) (hx : Mirrors L hidden R x x')
    (hg : ∀ a a', R a a' → Mirrors L hidden S (g a) (g' a')) :
    Mirrors L hidden S (x >>= g) (x' >>= g') := by
  refine ⟨fun hc h hbound => ?_⟩
  obtain ⟨a', c₁', hxa', hga'⟩ := yields_bind_iff.mp h
  have hbound₁ : L.Bound c₁'.pool := by
    rw [(Steady.withPool hxa').1]
    exact L.mono (hgrows.prefix_sources h) hbound
  obtain ⟨a, c₁, hxa, ha, hc₁⟩ := hx.backward hc hxa' hbound₁
  obtain ⟨b, c₂, hga, hb, hc₂⟩ := (hg a a' ha).backward hc₁ hga' hbound
  exact ⟨b, c₂, yields_bind_iff.mpr ⟨a, c₁, hxa, hga⟩, hb, hc₂⟩

theorem pure {a : α} {b : β} (h : R a b) :
    Mirrors L hidden R (Pure.pure a) (Pure.pure b) := by
  refine ⟨fun hc hx _ => ?_⟩
  obtain ⟨rfl, rfl⟩ := yields_pure_iff.mp hx
  exact ⟨a, _, yields_pure_iff.mpr ⟨rfl, rfl⟩, h, hc⟩

/-- A failure is followed by anything. -/
theorem throw (x : Compile α) (e : Error) :
    Mirrors L hidden R x (MonadExcept.throw e) :=
  ⟨fun _ h => absurd h not_yields_throw⟩

theorem refuse_bind (x : Compile γ) (e : Expr) (reason : Unsupported) (g' : β → Compile δ) :
    Mirrors L hidden S x (refuse e reason >>= g') := by
  refine ⟨fun _ h => ?_⟩
  obtain ⟨_, _, h, -⟩ := yields_bind_iff.mp h
  exact absurd h not_yields_throw

theorem within {x : Compile α} {x' : Compile β} (h : Mirrors L hidden R x x') (e e' : Expr) :
    Mirrors L hidden R (Compile.within e x) (Compile.within e' x') := by
  refine ⟨fun hc hx hbound => ?_⟩
  obtain ⟨a, c₁, hx, h⟩ := h.backward hc (yields_within_iff.mp hx) hbound
  exact ⟨a, c₁, yields_within_iff.mpr hx, h⟩

end Mirrors

/-! ### Collecting -/

section

variable {f : Embedding} {L : PoolLink f} {hidden : String} {s s' : Statement}

/-- The chain leads to no hidden member; it may be the row itself, if this is open. -/
def IsOpenChain (primary : Source) (hidden : String) (root : Root) (path : List String) : Prop :=
  IsVisibleChain hidden root path ∨ root = .row ∧ path = [] ∧ primary.opensRow hidden

theorem register_mirrors (source : ParamSource) :
    Mirrors L hidden (fun id id' => id' = f.param id) (register source) (register source) := by
  refine ⟨fun hc h hbound => ?_⟩
  obtain ⟨rfl, rfl⟩ := yields_register_iff.mp h
  obtain ⟨hsize, hpool⟩ := L.push source hc.pool hbound
  exact ⟨_, _, yields_register_iff.mpr ⟨rfl, rfl⟩, hsize, ⟨hpool, hc.bindings, hc.visible⟩⟩

theorem markExpanded_mirrors (id : ParamId) :
    Mirrors L hidden Eq (markExpanded id) (markExpanded (f.param id)) := by
  refine ⟨fun {c c' u c₁'} hc h hbound => ?_⟩
  obtain rfl := yields_modify_iff.mp h
  have hbound : L.Bound c'.pool :=
    L.mono (Pool.sources_expand _ (f.param id) ▸ List.prefix_rfl) hbound
  exact ⟨(), _, yields_modify_iff.mpr rfl, rfl, ⟨L.expand id hc.pool hbound, hc.bindings,
    hc.visible⟩⟩

theorem ofResult_mirrors {α : Type} (x : Result α) :
    Mirrors L hidden Eq (ofResult x) (ofResult x) := by
  refine ⟨fun hc h _ => ?_⟩
  obtain ⟨rfl, rfl⟩ := yields_ofResult_iff.mp h
  exact ⟨_, _, yields_ofResult_iff.mpr ⟨rfl, rfl⟩, rfl, hc⟩

theorem bind_mirrors {root : Root} {path : List String} (h : IsVisibleChain hidden root path) :
    Mirrors L hidden Eq (Compile.bind root path) (Compile.bind root path) := by
  refine ⟨fun {c c' id c₁'} hc hbind _ => ?_⟩
  obtain ⟨hid, rfl⟩ := Prod.mk.inj hbind
  obtain rfl := Except.ok.inj hid
  refine ⟨_, _, rfl, congrArg List.length hc.bindings.symm, hc.pool, ?_, ?_⟩
  · exact congrArg (· ++ [(⟨root, path⟩ : Binding)]) hc.bindings
  · exact List.forall_mem_append.mpr ⟨hc.visible, List.forall_mem_singleton.mpr h⟩

/-- **Looking up** an open chain leads to the same place, and not to a whole shape. -/
theorem lookup_mirrors (hs : s.Extends f hidden s') {root : Root} {path : List String}
    (h : IsOpenChain s.primary hidden root path) :
    Mirrors L hidden (fun l l' => l' = l.map (Lookup.embed f) ∧ l ≠ some .shape ∧
        (root = .row → path = [] → l = some (.table 0 s.primary.table)))
      (lookup s root path) (lookup s' root path) := by
  refine ⟨fun {c c' l' c₁'} hc hlookup _ => ?_⟩
  obtain ⟨⟨path', hpath', rfl⟩, rfl⟩ := yields_lookup_iff.mp hlookup
  rw [hc.bindings] at hpath'
  refine ⟨_, c, yields_lookup_iff.mpr ⟨⟨path', hpath', rfl⟩, rfl⟩, ?_, hc⟩
  rcases h with hchain | ⟨rfl, rfl, hopen⟩
  · have hvisible := isVisiblePath_of_qualify hc.visible hchain hpath'
    exact ⟨hs.lookup? hvisible.2, s.lookup?_ne_shape hvisible.1,
      fun hroot hnil => absurd hnil (hchain hroot).1⟩
  · obtain rfl : [] = path' := Except.ok.inj hpath'
    have hrow : s.isRowShape := (Bool.and_eq_true_iff.mp hopen).1
    have htable : s.lookup? [] = some (.table 0 s.primary.table) := by
      rw [Statement.lookup?, if_pos hrow]
    exact ⟨hs.lookup? (by simp), by rw [htable]; simp, fun _ _ => htable⟩

theorem typeAt_mirrors (hs : s.Extends f hidden s') {root : Root} {path : List String}
    (h : IsOpenChain s.primary hidden root path) :
    Mirrors L hidden Eq (typeAt s root path) (typeAt s' root path) := by
  refine .bind_of_steady (inferInstanceAs (Grows (typeAt s' root path))) (lookup_mirrors hs h)
    fun l l' hl => ?_
  obtain ⟨rfl, -, -⟩ := hl
  rcases l with _ | _ | _ | _ | _ <;> exact .pure rfl

end

/-! ### Results -/

/-- No leaf of a value is a chain that starts with the hidden member of the row. -/
def Compiled.IsVisible (hidden : String) (c : Compiled) : Prop :=
  ∀ o ∈ c.outputs, o.value.IsVisible hidden

/-- The result is the row itself. -/
def Compiled.IsRow (c : Compiled) : Prop :=
  ∃ type, c = .ofValue (chainLeaf .row []) type

/-- The result `c'` is `c` in the larger statement and leads to no hidden member. It may be the row
itself if `row` holds. -/
structure Compiled.Embeds (f : Embedding) (hidden : String) (row : Prop) (c c' : Compiled) :
    Prop where
  eq : c' = c.embed f
  visible : c.IsVisible hidden ∨ row ∧ c.IsRow

/-- The same for a value, apart from the row. -/
structure Accumulator.Embeds (f : Embedding) (hidden : String) (v v' : Accumulator Symbol) :
    Prop where
  eq : v' = v.map (Symbol.embed f)
  visible : v.IsVisible hidden

/-- The same for an operand. -/
structure Operand.Embeds (f : Embedding) (hidden : String) (o o' : Operand) : Prop where
  eq : o' = o.embed f
  visible : o.value.IsVisible hidden

/-- The same for the branches of a case. -/
structure CompiledBranches.Embeds (f : Embedding) (hidden : String) (bs bs' : CompiledBranches) :
    Prop where
  eq : bs' = bs.embed f
  visible : ∀ a ∈ (Accumulator.visitBranches false bs.branches).map Prod.fst, a.IsVisible hidden

section

variable {f : Embedding} {hidden : String} {row : Prop} {c c' d d' : Compiled}

theorem isVisible_param (id : ParamId) :
    Accumulator.IsVisible hidden (.leaf (.param id)) :=
  List.forall_mem_singleton.mpr trivial

theorem isVisible_chainLeaf {root : Root} {path : List String}
    (h : IsVisibleChain hidden root path) : (chainLeaf root path).IsVisible hidden :=
  List.forall_mem_singleton.mpr h

theorem isVisible_binary {op : BinaryOp} {left right : Accumulator Symbol}
    (hleft : left.IsVisible hidden) (hright : right.IsVisible hidden) :
    Accumulator.IsVisible hidden (.binary op left right) := by
  rw [Accumulator.IsVisible, Accumulator.leaves_binary]
  exact List.forall_mem_append.mpr ⟨hleft, hright⟩

theorem isVisible_wrap {op : Wrapper} {v : Accumulator Symbol} (h : v.IsVisible hidden) :
    Accumulator.IsVisible hidden (.wrap op v) := by
  rw [Accumulator.IsVisible, Accumulator.leaves_wrap]
  exact h

/-- Folding leaves the chains as they are. -/
theorem isVisible_foldedInto {v : Accumulator Symbol} (h : v.IsVisible hidden) (t : TableId) :
    (v.map (Symbol.foldedInto t)).IsVisible hidden := by
  rw [Accumulator.IsVisible, Accumulator.leaves_map]
  refine List.forall_mem_map.mpr fun a ha => ?_
  have hvisible := h a ha
  cases a with
  | param id => exact hvisible
  | column root path into function => cases into <;> exact hvisible

/-- A value that is a visible chain. -/
theorem IsVisibleChain.of_plainChain? {v : Accumulator Symbol} (h : v.IsVisible hidden)
    {root : Root} {path : List String} (hchain : plainChain? v = some (root, path)) :
    IsVisibleChain hidden root path := by
  obtain rfl := plainChain?_eq_some_iff.mp hchain
  exact h _ (List.mem_singleton_self _)

theorem CompiledBranches.Embeds.tables {bs bs' : CompiledBranches} (h : bs.Embeds f hidden bs') :
    bs'.tables = bs.tables.map (MappedTable.embed f) := by
  rw [h.eq]
  rfl

theorem CompiledBranches.Embeds.type? {bs bs' : CompiledBranches} (h : bs.Embeds f hidden bs') :
    bs'.type? = bs.type? := by
  rw [h.eq]
  rfl

theorem Accumulator.Embeds.binary {left left' right right' : Accumulator Symbol}
    (hleft : left.Embeds f hidden left') (op : BinaryOp) (hright : right.Embeds f hidden right') :
    Accumulator.Embeds f hidden (.binary op left right) (.binary op left' right') :=
  ⟨by rw [hleft.eq, hright.eq, Accumulator.map], isVisible_binary hleft.visible hright.visible⟩

theorem Accumulator.Embeds.wrap {v v' : Accumulator Symbol} (h : v.Embeds f hidden v')
    (op : Wrapper) : Accumulator.Embeds f hidden (.wrap op v) (.wrap op v') :=
  ⟨by rw [h.eq, Accumulator.map], isVisible_wrap h.visible⟩

theorem Operand.Embeds.value {o o' : Operand} (h : o.Embeds f hidden o') :
    o.value.Embeds f hidden o'.value :=
  ⟨by rw [h.eq]; rfl, h.visible⟩

theorem Operand.Embeds.type {o o' : Operand} (h : o.Embeds f hidden o') : o'.type = o.type := by
  rw [h.eq]
  rfl

theorem Operand.Embeds.tables {o o' : Operand} (h : o.Embeds f hidden o') :
    o'.tables = o.tables.map (MappedTable.embed f) := by
  rw [h.eq]
  rfl

namespace Compiled

theorem isVisible_ofValue {v : Accumulator Symbol} (h : v.IsVisible hidden) (type : ValueType)
    (tables : List MappedTable) : (ofValue v type tables).IsVisible hidden :=
  List.forall_mem_singleton.mpr h

theorem IsVisible.append (hc : c.IsVisible hidden) (hd : d.IsVisible hidden) :
    (c ++ d).IsVisible hidden :=
  List.forall_mem_append.mpr ⟨hc, hd⟩

theorem IsVisible.under (h : c.IsVisible hidden) (step : Segment) :
    (c.under step).IsVisible hidden :=
  List.forall_mem_map.mpr h

theorem IsVisible.member (h : c.IsVisible hidden) (step : Segment) :
    (c.member step).IsVisible hidden := by
  intro o ho
  obtain ⟨o', ho', h'⟩ := List.mem_filterMap.mp ho
  obtain ⟨_, -, rfl⟩ := Option.map_eq_some_iff.mp h'
  exact h o' ho'

theorem IsVisible.of_value?_eq_some (h : c.IsVisible hidden) {o : Output Symbol}
    (ho : c.value? = some o) : o.value.IsVisible hidden :=
  h o (mem_outputs_of_value? ho)

theorem IsVisible.isVisibleChain (h : c.IsVisible hidden) {root : Root} {path : List String}
    (hchain : c.chain? = some (root, path)) : IsVisibleChain hidden root path := by
  obtain ⟨o, ho, hplain⟩ := Option.bind_eq_some_iff.mp hchain
  exact .of_plainChain? (h.of_value?_eq_some ho) hplain

namespace Embeds

theorem of_visible (h : c.Embeds f hidden False c') : c.IsVisible hidden :=
  h.visible.resolve_right fun hrow => hrow.1

theorem mono (h : c.Embeds f hidden row c') {row' : Prop} (hrow : row → row') :
    c.Embeds f hidden row' c' :=
  ⟨h.eq, h.visible.imp_right fun hr => ⟨hrow hr.1, hr.2⟩⟩

theorem of_isVisible (h : c.IsVisible hidden) : c.Embeds f hidden row (c.embed f) :=
  ⟨rfl, .inl h⟩

theorem ofValue {v : Accumulator Symbol} (h : v.IsVisible hidden) (type : ValueType)
    (tables : List MappedTable) :
    (Compiled.ofValue v type tables).Embeds f hidden row
      (.ofValue (v.map (Symbol.embed f)) type (tables.map (MappedTable.embed f))) :=
  of_isVisible (isVisible_ofValue h type tables)

theorem ofEmbeds {v v' : Accumulator Symbol} (h : v.Embeds f hidden v') (type : ValueType)
    (tables : List MappedTable) :
    (Compiled.ofValue v type tables).Embeds f hidden row
      (.ofValue v' type (tables.map (MappedTable.embed f))) := by
  rw [h.eq]
  exact ofValue h.visible type tables

theorem append (hc : c.Embeds f hidden False c') (hd : d.Embeds f hidden False d') :
    (c ++ d).Embeds f hidden False (c' ++ d') := by
  rw [hc.eq, hd.eq, ← append_embed]
  exact of_isVisible (hc.of_visible.append hd.of_visible)

theorem under (h : c.Embeds f hidden False c') (step : Segment) :
    (c.under step).Embeds f hidden False (c'.under step) := by
  rw [h.eq, ← under_embed]
  exact of_isVisible (h.of_visible.under step)

theorem tables (h : c.Embeds f hidden row c') :
    c'.tables = c.tables.map (MappedTable.embed f) := by
  rw [h.eq]
  rfl

/-- Other tables do no harm. -/
theorem withTables (h : c.Embeds f hidden False c') (tables : List MappedTable) :
    Embeds f hidden False { c with tables := tables }
      { c' with tables := tables.map (MappedTable.embed f) } := by
  rw [h.eq]
  exact ⟨rfl, .inl h.of_visible⟩

theorem chain? (h : c.Embeds f hidden row c') : c'.chain? = c.chain? := by
  rw [h.eq, chain?_embed]

theorem value? (h : c.Embeds f hidden row c') :
    c'.value? = c.value?.map (Output.map (Symbol.embed f)) := by
  rw [h.eq, value?_embed]

end Embeds

end Compiled

end

/-! ### Chains and expansion -/

section

variable {f : Embedding} {L : PoolLink f} {hidden : String} {s s' : Statement} {scope : Scope}
variable {row : Prop} {c c' : Compiled}

theorem compileChain_mirrors (hs : s.Extends f hidden s') {root : Root} {path : List String}
    (h : IsVisibleChain hidden root path) (tables : List MappedTable) :
    Mirrors L hidden (Compiled.Embeds f hidden False) (compileChain s root path tables)
      (compileChain s' root path (tables.map (MappedTable.embed f))) := by
  refine (typeAt_mirrors hs (.inl h)).bind fun type type' htype => ?_
  subst htype
  exact .pure (.ofValue (isVisible_chainLeaf h) type tables)

theorem compileMember_mirrors (hs : s.Extends f hidden s') (h : c.Embeds f hidden False c')
    (e e' base base' : Expr) (name : String) :
    Mirrors L hidden (Compiled.Embeds f hidden False) (compileMember s e base name c)
      (compileMember s' e' base' name c') := by
  unfold compileMember
  rw [h.chain?, h.tables]
  split
  · next root path hchain =>
    exact compileChain_mirrors hs ((h.of_visible.isVisibleChain hchain).append [name]) c.tables
  · dsimp only
    rw [h.eq, ← Compiled.member_embed]
    have hempty : ((c.member (.field name)).embed f).outputs.isEmpty =
        (c.member (.field name)).outputs.isEmpty := List.isEmpty_map
    rw [hempty]
    split
    · exact .throw _ _
    · exact .pure (.of_isVisible (h.of_visible.member _))

/-- A whole table that is the end of a chain, with its place in the larger statement. The row
itself is one. -/
structure WholeEmbeds (f : Embedding) (hidden : String) (primary : Source) (c : Compiled)
    (w w' : Option (Whole × Root × List String)) : Prop where
  eq : w' = w.map (Prod.map (Whole.embed f) id)
  ne_shape : ∀ root path, w ≠ some (.shape, root, path)
  chain : ∀ whole root path, w = some (whole, root, path) → IsOpenChain primary hidden root path
  visible : w = none → c.IsVisible hidden

theorem Compiled.Embeds.isOpenChain
    (h : c.Embeds f hidden (s.primary.opensRow hidden) c') {root : Root} {path : List String}
    (hchain : c.chain? = some (root, path)) : IsOpenChain s.primary hidden root path := by
  rcases h.visible with hvisible | ⟨hopen, type, rfl⟩
  · exact .inl (hvisible.isVisibleChain hchain)
  · obtain ⟨rfl, rfl⟩ := Prod.mk.inj (Option.some.inj hchain)
    exact .inr ⟨rfl, rfl, hopen⟩

theorem whole?_mirrors (hs : s.Extends f hidden s')
    (h : c.Embeds f hidden (s.primary.opensRow hidden) c') :
    Mirrors L hidden (WholeEmbeds f hidden s.primary c) (whole? s c) (whole? s' c') := by
  have hgrows : Grows (whole? s' c') := inferInstance
  unfold whole? at hgrows ⊢
  rw [h.chain?] at hgrows ⊢
  cases hchain : c.chain? with
  | none =>
    refine .pure ⟨rfl, nofun, nofun, fun _ => h.visible.resolve_right ?_⟩
    rintro ⟨-, type, rfl⟩
    cases hchain
  | some chain =>
    obtain ⟨root, path⟩ := chain
    have hopen := h.isOpenChain hchain
    rw [hchain] at hgrows
    refine .bind_of_steady hgrows (lookup_mirrors hs hopen) fun l l' hl => ?_
    obtain ⟨rfl, hshape, hrow⟩ := hl
    -- The row itself is the primary table, so what is no whole table is visible.
    have hvisible : (∀ id table, l ≠ some (.table id table)) → c.IsVisible hidden := by
      intro hne
      refine h.visible.resolve_right ?_
      rintro ⟨-, type, rfl⟩
      obtain ⟨rfl, rfl⟩ := Prod.mk.inj (Option.some.inj hchain)
      exact hne _ _ (hrow rfl rfl)
    rcases l with _ | _ | ⟨id, table⟩ | _ | _
    · exact .pure ⟨rfl, nofun, nofun, fun _ => hvisible nofun⟩
    · exact absurd rfl hshape
    · refine .pure ⟨rfl, nofun, fun whole root' path' heq => ?_, nofun⟩
      obtain ⟨-, rfl, rfl⟩ := heq
      exact hopen
    · exact .pure ⟨rfl, nofun, nofun, fun _ => hvisible nofun⟩
    · exact .pure ⟨rfl, nofun, nofun, fun _ => hvisible nofun⟩

theorem objectOf_mirrors {value value' : String → Compile Compiled}
    (hsteady : ∀ name, Steady (value' name)) {names : List String}
    (h : ∀ name ∈ names, Mirrors L hidden (Compiled.Embeds f hidden False) (value name)
      (value' name)) :
    Mirrors L hidden (Compiled.Embeds f hidden False) (objectOf value names)
      (objectOf value' names) := by
  have := steady_objectOf hsteady
  induction names with
  | nil => exact .pure (.of_isVisible nofun)
  | cons name names ih =>
    obtain ⟨hname, hnames⟩ := List.forall_mem_cons.mp h
    exact hname.bind fun c c' hc => (ih hnames).bind fun d d' hd =>
      .pure ((hc.under _).append hd)

/-- The members of an open chain to a table are visible. -/
theorem isVisibleChain_field {primary : Source} {root : Root} {path : List String}
    (h : IsOpenChain primary hidden root path) {table : Table}
    (htable : root = .row → path = [] → table = primary.table) {name : String}
    (hname : name ∈ table.fields.map Field.name) :
    IsVisibleChain hidden root (path ++ [name]) := by
  rcases h with hchain | ⟨rfl, rfl, hopen⟩
  · exact hchain.append [name]
  · obtain rfl := htable rfl rfl
    refine fun _ => isVisiblePath_cons (fun heq => ?_) []
    subst heq
    -- The primary table has no column of that name.
    have hnone := (Bool.and_eq_true_iff.mp hopen).2
    rw [Option.isNone_iff_eq_none, Statement.lookupIn] at hnone
    split at hnone
    · cases hnone
    · rw [Option.map_eq_none_iff, Table.find?, List.find?_eq_none] at hnone
      obtain ⟨field, hfield, heq⟩ := List.mem_map.mp hname
      exact hnone field hfield (beq_iff_eq.mpr heq)

theorem expandWith_mirrors (hs : s.Extends f hidden s')
    {inner inner' : Scope → Root → List String → Compile Compiled}
    (hsteady : ∀ scope root path, Steady (inner' scope root path))
    (hinner : ∀ scope root path, IsVisibleChain hidden root path →
      Mirrors L hidden (Compiled.Embeds f hidden False) (inner scope root path)
        (inner' (scope.embed f) root path))
    (scope : Scope) {root : Root} {path : List String}
    (h : IsOpenChain s.primary hidden root path) :
    Mirrors L hidden (Compiled.Embeds f hidden False) (expandWith inner s scope root path)
      (expandWith inner' s' (scope.embed f) root path) := by
  have hexpand : Steady (expandWith inner' s' (scope.embed f) root path) :=
    steady_expandWith hsteady root path
  have hobject := fun scope root (path : String → List String) =>
    steady_objectOf fun name => hsteady scope root (path name)
  refine .bind_of_steady (inferInstanceAs (Grows (expandWith inner' s' (scope.embed f) root path)))
    (lookup_mirrors hs h) fun l l' hl => ?_
  obtain ⟨rfl, hshape, hrow⟩ := hl
  -- A chain that leads to no whole table is not the row itself.
  have hchain : (∀ id table, l ≠ some (.table id table)) → IsVisibleChain hidden root path := by
    intro hne
    refine h.resolve_right ?_
    rintro ⟨rfl, rfl, -⟩
    exact hne _ _ (hrow rfl rfl)
  rcases l with _ | _ | ⟨id, table⟩ | _ | _
  · exact compileChain_mirrors hs (hchain nofun) []
  · exact absurd rfl hshape
  · have htable : root = .row → path = [] → table = s.primary.table := fun hroot hnil => by
      cases hrow hroot hnil
      rfl
    have hfields : ∀ scope, Mirrors L hidden (Compiled.Embeds f hidden False)
        (objectOf (fun name => inner scope root (path ++ [name])) (table.fields.map Field.name))
        (objectOf (fun name => inner' (scope.embed f) root (path ++ [name]))
          (table.fields.map Field.name)) := fun scope =>
      objectOf_mirrors (fun name => hsteady _ _ _) fun name hname =>
        hinner scope root _ (isVisibleChain_field h htable hname)
    dsimp only [Option.map_some, Lookup.embed]
    by_cases hscope : id = scope.table
    · have hscope' : f.table id = (scope.embed f).table := congrArg f.table hscope
      rw [if_pos hscope, if_pos hscope']
      exact hfields scope
    · have hscope' : f.table id ≠ (scope.embed f).table := f.table_inj.not.mpr hscope
      rw [if_neg hscope, if_neg hscope', hs.cardinality]
      cases hcardinality : s.cardinality id with
      | one =>
        refine (hfields scope).bind fun c c' hc => ?_
        have htables := hc.withTables (c.tables ++ [⟨id, [], scope.beneath, true⟩])
        rw [List.map_append, ← hc.tables] at htables
        exact .pure htables
      | many =>
        -- There is one row of the primary table for each row, so this is not the row itself.
        have hbind : IsVisibleChain hidden root path := by
          refine h.resolve_right ?_
          rintro ⟨rfl, rfl, -⟩
          cases hrow rfl rfl
          cases hcardinality
        refine (bind_mirrors hbind).bind fun b _ hb => ?_
        subst hb
        have hfield := fun name (_ : name ∈ table.fields.map Field.name) =>
          hinner { scope with table := id } (.binding b) [name] (isVisibleChain_binding b [name])
        have hbody := objectOf_mirrors (L := L)
          (fun name => hsteady (Scope.embed f { scope with table := id }) (.binding b) [name])
          hfield
        refine hbody.bind fun c c' hc => ?_
        have htables := hc.withTables (⟨id, [], scope.beneath, false⟩ :: c.tables)
        rw [List.map_cons, ← hc.tables] at htables
        exact .pure htables
  · exact compileChain_mirrors hs (hchain nofun) []
  · exact compileChain_mirrors hs (hchain nofun) []

theorem expandWhole_mirrors (hs : s.Extends f hidden s') (scope : Scope)
    (h : c.Embeds f hidden (s.primary.opensRow hidden) c') :
    Mirrors L hidden (Compiled.Embeds f hidden False) (expandWhole s scope c)
      (expandWhole s' (scope.embed f) c') := by
  refine .bind_of_steady (inferInstanceAs (Grows (expandWhole s' (scope.embed f) c')))
    (whole?_mirrors hs h) fun w w' hw => ?_
  obtain ⟨rfl, -, hchain, hvisible⟩ := hw
  rcases w with _ | ⟨whole, root, path⟩
  · exact .pure ⟨h.eq, .inl (hvisible rfl)⟩
  · have hexpand : Mirrors L hidden (Compiled.Embeds f hidden False) (expand s scope root path)
        (expand s' (scope.embed f) root path) :=
      expandWith_mirrors hs (fun _ _ _ => steady_expandWith (fun _ _ _ => inferInstance) _ _)
        (fun scope root path hpath => expandWith_mirrors hs (fun _ _ _ => inferInstance)
          (fun _ _ _ hpath => compileChain_mirrors hs hpath []) scope (.inl hpath))
        scope (hchain _ _ _ rfl)
    refine hexpand.bind fun d d' hd => ?_
    have htables := hd.withTables (d.tables ++ c.tables)
    rw [List.map_append, ← hd.tables, ← h.tables] at htables
    exact .pure htables

theorem Mirrors.expanded {x x' : Compile Compiled}
    (h : Mirrors L hidden (Compiled.Embeds f hidden (s.primary.opensRow hidden)) x x')
    (hs : s.Extends f hidden s') (scope : Scope) :
    Mirrors L hidden (Compiled.Embeds f hidden False) (x >>= expandWhole s scope)
      (x' >>= expandWhole s' (scope.embed f)) :=
  h.bind fun _ _ hc => expandWhole_mirrors hs scope hc

/-! ### Operands -/

theorem toOperand_mirrors (hs : s.Extends f hidden s')
    (h : c.Embeds f hidden (s.primary.opensRow hidden) c') (e e' : Expr) :
    Mirrors L hidden (Operand.Embeds f hidden) (toOperand s e c) (toOperand s' e' c') := by
  refine .bind_of_steady (inferInstanceAs (Grows (toOperand s' e' c'))) (whole?_mirrors hs h)
    fun w w' hw => ?_
  obtain ⟨rfl, -, -, hvisible⟩ := hw
  rcases w with _ | ⟨_ | _, chain⟩
  · have hvalue := h.value?
    cases ho : c.value? with
    | none =>
      rw [ho] at hvalue
      dsimp only [Option.map_none]
      rw [hvalue]
      exact .throw _ _
    | some o =>
      rw [ho] at hvalue
      dsimp only [Option.map_none]
      rw [hvalue, h.tables]
      exact .pure ⟨rfl, (hvisible rfl).of_value?_eq_some ho⟩
  · exact .throw _ _
  · exact .throw _ _

theorem operandOf_mirrors (hs : s.Extends f hidden s') {action action' : Compile Compiled}
    (h : Mirrors L hidden (Compiled.Embeds f hidden (s.primary.opensRow hidden)) action action')
    (parent parent' child child' : Expr) :
    Mirrors L hidden (Operand.Embeds f hidden) (operandOf s parent child action)
      (operandOf s' parent' child' action') :=
  (h.within parent parent').bind fun _ _ hc => (toOperand_mirrors hs hc child child').within _ _

/-- Two operands, one after the other. -/
theorem operands_mirrors (hs : s.Extends f hidden s') {left left' right right' : Compile Compiled}
    [Appends right']
    (hleft : Mirrors L hidden (Compiled.Embeds f hidden (s.primary.opensRow hidden)) left left')
    (hright : Mirrors L hidden (Compiled.Embeds f hidden (s.primary.opensRow hidden)) right right')
    (whole whole' a a' b b' : Expr) {g g' : Operand → Operand → Compiled}
    (hg : ∀ l l' r r', l.Embeds f hidden l' → r.Embeds f hidden r' →
      (g l r).Embeds f hidden False (g' l' r')) :
    Mirrors L hidden (Compiled.Embeds f hidden False)
      (operandOf s whole a left >>= fun l => operandOf s whole b right >>= fun r => pure (g l r))
      (operandOf s' whole' a' left' >>= fun l =>
        operandOf s' whole' b' right' >>= fun r => pure (g' l r)) :=
  (operandOf_mirrors hs hleft _ _ _ _).bind fun l l' hl =>
    (operandOf_mirrors hs hright _ _ _ _).bind fun r r' hr => .pure (hg l l' r r' hl hr)

end

end NestedQuery
