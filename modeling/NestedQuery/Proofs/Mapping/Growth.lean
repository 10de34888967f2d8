import NestedQuery.Proofs.Accumulator.Meaning
import NestedQuery.Proofs.Mapping.Steps

/-!
# Growing pools

While an expression is compiled, parameters are added, and those before them stay as they are
(`compile_appends`). `Appends` says so of a step; a step that `Grows` may mark parameters as lists,
too. They are classes, so that they are found for steps that are put together from others; `Steady`
steps leave the parameters alone and do not look at them.
-/

namespace NestedQuery

open Compile

/-- Where the parameters come from. -/
def Pool.sources (p : Pool) : List ParamSource :=
  p.slots.map Slot.source

theorem Pool.sources_push (p : Pool) (source : ParamSource) :
    (p.push source).sources = p.sources ++ [source] :=
  List.map_append

theorem Pool.sources_expand (p : Pool) (id : ParamId) : (p.expand id).sources = p.sources := by
  refine List.ext_getElem? fun i => ?_
  rw [sources, sources, expand, List.getElem?_map, List.getElem?_map, List.getElem?_modify]
  cases p.slots[i]? with
  | none => rfl
  | some slot =>
    show some _ = some _
    split <;> rfl

namespace Compile

variable {α β : Type}

/-! ### Steps that add parameters only -/

/-- The step adds parameters only. -/
class Grows (x : Compile α) : Prop where
  /-- The parameters before the step are there after it. -/
  prefix_sources : ∀ {c a c'}, Yields x c a c' → c.pool.sources <+: c'.pool.sources

/-- The step adds parameters only, and leaves those before it as they are. -/
class Appends (x : Compile α) : Prop where
  /-- The parameters before the step come first after it. -/
  prefix_slots : ∀ {c a c'}, Yields x c a c' → c.pool.slots <+: c'.pool.slots

/-- The step leaves the parameters alone, and does the same whatever they are. -/
class Steady (x : Compile α) : Prop where
  /-- The step with other parameters. -/
  withPool : ∀ {c a c'}, Yields x c a c' →
    c'.pool = c.pool ∧ ∀ pool, Yields x { c with pool := pool } a { c' with pool := pool }

instance (x : Compile α) [Appends x] : Grows x where
  prefix_sources h := (Appends.prefix_slots h).map Slot.source

instance (x : Compile α) [Steady x] : Appends x where
  prefix_slots h := by
    have hpool := (Steady.withPool h).1
    exact hpool ▸ List.prefix_rfl

instance (a : α) : Steady (pure a : Compile α) where
  withPool h := by
    obtain ⟨rfl, rfl⟩ := yields_pure_iff.mp h
    exact ⟨rfl, fun _ => yields_pure_iff.mpr ⟨rfl, rfl⟩⟩

instance (e : Error) : Steady (throw e : Compile α) where
  withPool h := absurd h not_yields_throw

instance (e : Expr) (reason : Unsupported) : Steady (refuse e reason : Compile α) where
  withPool h := absurd h not_yields_throw

/-- What would come after a refusal does not matter. -/
instance (e : Expr) (reason : Unsupported) (f : α → Compile β) :
    Steady (refuse e reason >>= f) where
  withPool h := by
    obtain ⟨_, _, h, -⟩ := yields_bind_iff.mp h
    exact absurd h not_yields_throw

instance steady_bind (x : Compile α) (f : α → Compile β) [Steady x] [∀ a, Steady (f a)] :
    Steady (x >>= f) where
  withPool h := by
    obtain ⟨a, c₁, hx, hf⟩ := yields_bind_iff.mp h
    -- The second step goes on with the pool that the first has left alone.
    obtain ⟨hpool, hx⟩ := Steady.withPool hx
    obtain ⟨hpool', hf⟩ := Steady.withPool hf
    exact ⟨hpool'.trans hpool, fun pool => yields_bind_iff.mpr ⟨a, _, hx pool, hf pool⟩⟩

instance grows_bind (x : Compile α) (f : α → Compile β) [Grows x] [∀ a, Grows (f a)] :
    Grows (x >>= f) where
  prefix_sources h := by
    obtain ⟨a, c₁, hx, hf⟩ := yields_bind_iff.mp h
    exact (Grows.prefix_sources hx).trans (Grows.prefix_sources hf)

instance appends_bind (x : Compile α) (f : α → Compile β) [Appends x] [∀ a, Appends (f a)] :
    Appends (x >>= f) where
  prefix_slots h := by
    obtain ⟨a, c₁, hx, hf⟩ := yields_bind_iff.mp h
    exact (Appends.prefix_slots hx).trans (Appends.prefix_slots hf)

instance (p : Prop) [Decidable p] (x y : Compile α) [Steady x] [Steady y] :
    Steady (if p then x else y) := by
  split <;> infer_instance

instance (p : Prop) [Decidable p] (x y : Compile α) [Appends x] [Appends y] :
    Appends (if p then x else y) := by
  split <;> infer_instance

instance (e : Expr) (x : Compile α) [Steady x] : Steady (within e x) where
  withPool h := by
    obtain ⟨hpool, hx⟩ := Steady.withPool (yields_within_iff.mp h)
    exact ⟨hpool, fun pool => yields_within_iff.mpr (hx pool)⟩

instance (e : Expr) (x : Compile α) [Appends x] : Appends (within e x) where
  prefix_slots h := Appends.prefix_slots (yields_within_iff.mp h)

/-! ### Collecting -/

instance (x : Result α) : Steady (ofResult x) where
  withPool h := by
    obtain ⟨hx, rfl⟩ := yields_ofResult_iff.mp h
    exact ⟨rfl, fun _ => yields_ofResult_iff.mpr ⟨hx, rfl⟩⟩

instance (source : ParamSource) : Appends (register source) where
  prefix_slots h := by
    obtain ⟨-, rfl⟩ := yields_register_iff.mp h
    exact Pool.prefix_push _ source

instance (id : ParamId) : Grows (markExpanded id) where
  prefix_sources h := by
    obtain rfl := yields_modify_iff.mp h
    exact Pool.sources_expand _ id ▸ List.prefix_rfl

instance (root : Root) (path : List String) : Steady (Compile.bind root path) where
  withPool h := by
    obtain ⟨hid, rfl⟩ := Prod.mk.inj h
    obtain rfl := Except.ok.inj hid
    exact ⟨rfl, fun _ => rfl⟩

instance (s : Statement) (root : Root) (path : List String) : Steady (lookup s root path) where
  withPool h := by
    obtain ⟨hpath, rfl⟩ := yields_lookup_iff.mp h
    exact ⟨rfl, fun _ => yields_lookup_iff.mpr ⟨hpath, rfl⟩⟩

instance (s : Statement) (root : Root) (path : List String) : Steady (typeAt s root path) := by
  refine @steady_bind _ _ _ _ _ fun l? => ?_
  split <;> infer_instance

end Compile

/-! ### Chains and operands -/

section

variable {s : Statement} {scope : Scope}

instance (root : Root) (path : List String) (tables : List MappedTable) :
    Steady (compileChain s root path tables) :=
  inferInstanceAs (Steady (typeAt s root path >>= fun _ => pure _))

instance (e base : Expr) (name : String) (c : Compiled) :
    Steady (compileMember s e base name c) := by
  unfold compileMember
  split <;> infer_instance

instance (c : Compiled) : Steady (whole? s c) := by
  unfold whole?
  split
  · infer_instance
  · refine @steady_bind _ _ _ _ _ fun l? => ?_
    split <;> infer_instance

theorem steady_objectOf {value : String → Compile Compiled} (h : ∀ name, Steady (value name))
    (names : List String) : Steady (objectOf value names) := by
  induction names with
  | nil => exact inferInstanceAs (Steady (pure _))
  | cons name names ih =>
    exact inferInstanceAs (Steady (value name >>= fun _ => _ >>= fun _ => pure _))

theorem steady_expandWith {inner : Scope → Root → List String → Compile Compiled}
    (h : ∀ scope root path, Steady (inner scope root path)) (root : Root) (path : List String) :
    Steady (expandWith inner s scope root path) := by
  have := fun scope root (path : String → List String) =>
    steady_objectOf fun name => h scope root (path name)
  refine @steady_bind _ _ _ _ _ fun l? => ?_
  split
  · infer_instance
  · split
    · infer_instance
    · split <;> infer_instance
  · infer_instance

instance (root : Root) (path : List String) : Steady (expand s scope root path) :=
  steady_expandWith (fun _ _ _ => steady_expandWith (fun _ _ _ => inferInstance) _ _) _ _

instance (c : Compiled) : Steady (expandWhole s scope c) := by
  refine @steady_bind _ _ _ _ _ fun whole => ?_
  split <;> infer_instance

instance (e : Expr) (c : Compiled) : Steady (toOperand s e c) := by
  refine @steady_bind _ _ _ _ _ fun whole => ?_
  split
  · infer_instance
  · infer_instance
  · split <;> infer_instance

instance (parent child : Expr) (action : Compile Compiled) [Appends action] :
    Appends (operandOf s parent child action) :=
  inferInstanceAs (Appends (within parent action >>= fun c => within parent (toOperand s child c)))

/-- Two operands, one after the other. -/
theorem appends_operands (whole a b : Expr) {left right : Compile Compiled} [Appends left]
    [Appends right] (f : Operand → Operand → Compiled) :
    Appends (operandOf s whole a left >>= fun l => operandOf s whole b right >>= fun r =>
      pure (f l r)) :=
  inferInstance

/-! ### Parameters -/

instance (e : Expr) : Appends (registerParameter e) := by
  unfold registerParameter
  split <;> infer_instance

instance (e : Expr) : Appends (compileParameter e) :=
  inferInstanceAs (Appends (registerParameter e >>= fun _ => pure _))

instance (item : Expr) : Appends (membershipItem item) := by
  unfold membershipItem
  split <;> infer_instance

theorem appends_membershipItems (list : Accumulator Symbol) (items : List Expr) :
    Appends (membershipItems list items) := by
  induction items generalizing list with
  | nil => exact inferInstanceAs (Appends (pure _))
  | cons item items ih =>
    exact inferInstanceAs (Appends (membershipItem item >>= fun v => membershipItems _ items))

/-- The only mark is that of a parameter which has just been added. -/
instance (set : Expr) : Appends (membershipList set) where
  prefix_slots h := by
    obtain ⟨-, id, c₁, -, rfl, hid⟩ | ⟨item, items, first, c₁, -, hfirst, hrest⟩ :=
      membershipList_yields h
    · obtain ⟨source, rfl, hpool⟩ : ∃ source, id = _ ∧ c₁.pool = Pool.push _ source := by
        obtain ⟨-, hid⟩ | ⟨type, hid⟩ := hid
        · obtain ⟨rfl, rfl⟩ := yields_register_iff.mp hid
          exact ⟨_, rfl, rfl⟩
        · obtain ⟨source, rfl, rfl, -⟩ := registerParameter_yields hid
          exact ⟨source, rfl, rfl⟩
      rw [hpool]
      exact Pool.prefix_expand_push _ source
    · have := appends_membershipItems first items
      exact (Appends.prefix_slots hfirst).trans (Appends.prefix_slots hrest)

instance (o : Operand) (set : Expr) : Appends (compileMembership o set) :=
  inferInstanceAs (Appends (membershipList set >>= fun _ => pure _))

/-! ### Collections -/

instance (e : Expr) (function : Aggregate) (c : Compiled) :
    Steady (compileAggregate s scope e function c) := by
  refine @steady_bind _ _ _ _ _ fun whole => ?_
  cases c.value? with
  | none => infer_instance
  | some o =>
    dsimp only
    split
    · split
      · rw [pure_bind]
        infer_instance
      · infer_instance
    · infer_instance
    · rw [pure_bind]
      infer_instance

instance (e : Expr) (c : Compiled) : Steady (compileRange s e c) := by
  unfold compileRange
  split
  · refine @steady_bind _ _ _ _ _ fun l? => ?_
    split <;> infer_instance
  · infer_instance

instance (e : Expr) (c : Compiled) : Steady (compileOne e c) := by
  unfold compileOne
  infer_instance

/-! ### Expressions -/

theorem appends_alternative {whole e : Expr} {action : Compile Compiled}
    {further? : Option (Compile (CompiledBranches × Operand))} (haction : Appends action)
    (hfurther : ∀ further, further? = some further → Appends further) :
    Appends (alternative s whole e action further?) := by
  unfold alternative
  split
  · exact hfurther _ rfl
  · infer_instance

end

mutual

/-- **Parameters are only added.** -/
theorem compile_appends (s : Statement) (e : Expr) (scope : Scope) :
    Appends (compile s scope e) := by
  unfold compile
  split
  · infer_instance
  -- What reads no row is a parameter; the cases that follow read rows.
  cases e with
  | row | args | constant _ | rowNumber | method _ _ _ => infer_instance
  | var name =>
    dsimp only
    split <;> infer_instance
  | member base name =>
    have := compile_appends s base
    infer_instance
  | unary op operand =>
    have := compile_appends s operand
    cases op <;> infer_instance
  | binary op left right =>
    have := compile_appends s left
    have := compile_appends s right
    cases op with
    | isIn | comma => infer_instance
    | _ => exact appends_operands ..
  | tuple items | array items => exact compileItems_appends s items _ _ _
  | object members => exact compileMembers_appends s members _ _
  | conditional test ifTrue ifFalse =>
    have := compile_appends s test
    have := compile_appends s ifTrue
    -- The alternative is no instance: it may be a conditional, whose branches are added.
    refine @appends_bind _ _ _ _ _ fun t => @appends_bind _ _ _ _ _ fun v => ?_
    refine @appends_bind _ _ _ _ ?_ fun p => ?_
    · exact appends_alternative (compile_appends s ifFalse _) (compileElse_appends s ifFalse _ _)
    · infer_instance
  | cases branches otherwise =>
    have := compileBranches_appends s branches
    have := compile_appends s otherwise
    infer_instance
  | casesOf subject branches otherwise =>
    have := compile_appends s subject
    have := compileBranches_appends s branches
    have := compile_appends s otherwise
    infer_instance
  | aggregate function source =>
    have := compile_appends s source
    infer_instance
  | apply function operand =>
    have := compile_appends s operand
    infer_instance
  | select source param body =>
    have := compile_appends s source
    have := compile_appends s body
    infer_instance
  | toList source | one source =>
    have := compile_appends s source
    infer_instance
  | isIn value set | contains set value =>
    have := compile_appends s value
    infer_instance
termination_by structural e

theorem compileItems_appends (s : Statement) (es : List Expr) (scope : Scope) (whole : Expr)
    (index : Nat) : Appends (compileItems s scope whole index es) := by
  unfold compileItems
  cases es with
  | nil => infer_instance
  | cons e es =>
    have := compile_appends s e
    have := compileItems_appends s es
    infer_instance
termination_by structural es

theorem compileMembers_appends (s : Statement) (es : List (String × Expr)) (scope : Scope)
    (whole : Expr) : Appends (compileMembers s scope whole es) := by
  unfold compileMembers
  cases es with
  | nil => infer_instance
  | cons member es =>
    obtain ⟨name, e⟩ := member
    have := compile_appends s e
    have := compileMembers_appends s es
    infer_instance
termination_by structural es

theorem compileBranches_appends (s : Statement) (bs : List (Expr × Expr)) (scope : Scope)
    (whole : Expr) : Appends (compileBranches s scope whole bs) := by
  unfold compileBranches
  cases bs with
  | nil => infer_instance
  | cons branch rest =>
    obtain ⟨test, value⟩ := branch
    have := compile_appends s test
    have := compile_appends s value
    have := compileBranches_appends s rest
    infer_instance
termination_by structural bs

theorem compileElse_appends (s : Statement) (e : Expr) (scope : Scope) (whole : Expr)
    (further : Compile (CompiledBranches × Operand))
    (h : compileElse s scope whole e = some further) : Appends further := by
  cases e with
  | conditional test ifTrue ifFalse =>
    have := compile_appends s test
    have := compile_appends s ifTrue
    rw [← Option.some.inj h]
    refine @appends_bind _ _ _ _ _ fun t => @appends_bind _ _ _ _ _ fun v => ?_
    refine @appends_bind _ _ _ _ ?_ fun p => ?_
    · exact appends_alternative (compile_appends s ifFalse _) (compileElse_appends s ifFalse _ _)
    · infer_instance
  | _ => cases h
termination_by structural e

end

theorem alternative_appends (s : Statement) (scope : Scope) (whole e : Expr) :
    Appends (alternative s whole e (compile s scope e) (compileElse s scope whole e)) :=
  appends_alternative (compile_appends s e scope) (compileElse_appends s e scope whole)

end NestedQuery
