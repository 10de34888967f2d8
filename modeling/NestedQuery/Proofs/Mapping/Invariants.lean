import NestedQuery.Proofs.Mapping.Registered
import NestedQuery.Proofs.Mapping.Simulation

/-!
# No step of the compiler breaks an invariant

From grounded bindings, every step of the compiler yields registered values, or it fails in an
ordinary way (`Ensures`). By induction over expressions so does the whole compiler
(`compile_ensures`): the only invariant that can break is that of a free variable.
-/

namespace NestedQuery

open Compile

section

variable {s : Statement} {scope : Scope} {c : Collected} {unbound : String → Prop} {r : Compiled}
  {o : Operand}

/-! ### Chains and expansion -/

theorem typeAt_ensures (hc : Grounded c.bindings) {root : Root}
    (hroot : root.IsWithin c.bindings.length) (path : List String) :
    Ensures unbound (fun c₁ _ => c₁ = c) c (typeAt s root path) := by
  refine (Ensures.lookup hc s hroot path).bind fun l? c₁ _ hc₁ => ?_
  subst hc₁
  split <;> exact .pure hc rfl

theorem compileChain_ensures (hc : Grounded c.bindings) {root : Root}
    (hroot : root.IsWithin c.bindings.length) (path : List String) (tables : List MappedTable) :
    Ensures unbound Compiled.IsRegistered c (compileChain s root path tables) := by
  refine (typeAt_ensures hc hroot path).map fun type c₁ _ hc₁ => ?_
  subst hc₁
  exact Compiled.isRegistered_ofValue (.chain hroot path) _ _

/-- A whole table or shape lies at the end of a chain that starts at a known binding. -/
theorem whole?_ensures (hc : Grounded c.bindings) (hr : r.IsRegistered c) :
    Ensures unbound (fun c₁ w? => c₁ = c ∧
        ∀ whole root path, w? = some (whole, root, path) → root.IsWithin c.bindings.length) c
      (whole? s r) := by
  unfold whole?
  cases hchain : r.chain? with
  | none => exact .pure hc ⟨rfl, nofun⟩
  | some chain =>
    obtain ⟨root, path⟩ := chain
    have hroot := hr.chain? hchain
    refine (Ensures.lookup hc s hroot path).bind fun l? c₁ _ hc₁ => ?_
    subst hc₁
    split
    · exact .pure hc ⟨rfl, fun _ root' path' h => by cases h; exact hroot⟩
    · exact .pure hc ⟨rfl, fun _ root' path' h => by cases h; exact hroot⟩
    · exact .pure hc ⟨rfl, nofun⟩

theorem compileMember_ensures (hc : Grounded c.bindings) (hr : r.IsRegistered c) (e base : Expr)
    (name : String) :
    Ensures unbound Compiled.IsRegistered c (compileMember s e base name r) := by
  unfold compileMember
  cases hchain : r.chain? with
  | none =>
    dsimp only
    split
    · exact .refuse _ _
    · exact .pure hc (hr.member _)
  | some chain => exact compileChain_ensures hc (hr.chain? hchain) _ _

theorem objectOf_ensures {value : String → Compile Compiled}
    (hvalue : ∀ name c₁, c.GrowsTo c₁ → Ensures unbound Compiled.IsRegistered c₁ (value name))
    (hc : Grounded c.bindings) (names : List String) :
    Ensures unbound Compiled.IsRegistered c (objectOf value names) := by
  induction names generalizing c with
  | nil => exact .pure hc Compiled.isRegistered_empty
  | cons name names ih =>
    refine (hvalue name c (.refl hc)).bind fun r c₁ hc₁ hr => ?_
    have hrest := ih (fun name c₂ hc₂ => hvalue name c₂ (hc₁.trans hc₂)) hc₁.grounded
    exact hrest.map fun r' c₂ hc₂ hr' => ((hr.mono hc₂).under _).append hr'

theorem expandWith_ensures {inner : Scope → Root → List String → Compile Compiled}
    (hinner : ∀ scope root path c₁, Grounded c₁.bindings → root.IsWithin c₁.bindings.length →
      Ensures unbound Compiled.IsRegistered c₁ (inner scope root path))
    (hc : Grounded c.bindings) {root : Root} (hroot : root.IsWithin c.bindings.length)
    (path : List String) :
    Ensures unbound Compiled.IsRegistered c (expandWith inner s scope root path) := by
  have hobject : ∀ {c₁ : Collected} {root : Root} (scope : Scope)
      (path : String → List String) (names : List String), Grounded c₁.bindings →
        root.IsWithin c₁.bindings.length → Ensures unbound Compiled.IsRegistered c₁
          (objectOf (fun name => inner scope root (path name)) names) :=
    fun scope path names hc₁ hroot => objectOf_ensures
      (fun name c₂ hc₂ => hinner _ _ _ _ hc₂.grounded (hroot.mono hc₂.length_le)) hc₁ names
  refine (Ensures.lookup hc s hroot path).bind fun l? c₁ _ hc₁ => ?_
  subst hc₁
  split
  · exact hobject _ _ _ hc hroot
  · dsimp only
    split
    · exact hobject _ _ _ hc hroot
    · split
      · exact (hobject _ _ _ hc hroot).map fun r c₂ _ hr => hr
      · -- The members of a collection start at the binding that was made for it.
        refine (Ensures.bindChain hc hroot path).bind fun b c₂ hc₂ hb => ?_
        have hroot₂ : Root.IsWithin c₂.bindings.length (.binding b) := hb
        exact (hobject _ _ _ hc₂.grounded hroot₂).map fun r c₃ _ hr => hr
  · exact compileChain_ensures hc hroot path _

theorem expandWhole_ensures (hc : Grounded c.bindings) (hr : r.IsRegistered c) :
    Ensures unbound Compiled.IsRegistered c (expandWhole s scope r) := by
  refine (whole?_ensures hc hr).bind fun w? c₁ _ hw => ?_
  obtain ⟨rfl, hroot⟩ := hw
  split
  · exact .pure hc hr
  · -- A shape expands to tables and these to columns; after two rounds only chains are left.
    refine Ensures.map (expandWith_ensures (fun _ _ _ _ hc₂ hroot₂ => ?_) hc
      (hroot _ _ _ rfl) _) fun r' c₂ _ hr' => hr'
    exact expandWith_ensures (fun _ _ _ _ hc₃ hroot₃ => compileChain_ensures hc₃ hroot₃ _ _)
      hc₂ hroot₂ _

theorem expanded_ensures {action : Compile Compiled}
    (h : Ensures unbound Compiled.IsRegistered c action) (scope : Scope) :
    Ensures unbound Compiled.IsRegistered c (action >>= fun r => expandWhole s scope r) :=
  h.bind fun _ _ hc₁ hr => expandWhole_ensures hc₁.grounded hr

/-! ### Parameters and operands -/

/-- **A parameter** is a constant or an expression over the arguments, and neither needs a row. -/
theorem registerParameter_ensures (hc : Grounded c.bindings) {e : Expr}
    (hrow : e.readsRow = false) :
    Ensures unbound (fun c₁ p => c₁.pool.Marks p.1 false) c (registerParameter e) := by
  unfold registerParameter
  split
  · exact (Ensures.register hc _).map fun id c₁ _ hid => hid
  · refine ((Ensures.ofResult hc (Expr.evaluate_isOrdinary e hrow)).within e).bind
      fun v c₁ hc₁ _ => ?_
    exact (Ensures.register hc₁.grounded _).map fun id c₂ _ hid => hid

theorem compileParameter_ensures (hc : Grounded c.bindings) {e : Expr}
    (hrow : e.readsRow = false) :
    Ensures unbound Compiled.IsRegistered c (compileParameter e) :=
  (registerParameter_ensures hc hrow).map fun _ _ _ hid =>
    Compiled.isRegistered_ofValue (.param hid nofun) _ _

theorem toOperand_ensures (hc : Grounded c.bindings) (hr : r.IsRegistered c) (e : Expr) :
    Ensures unbound Operand.IsRegistered c (toOperand s e r) := by
  refine (whole?_ensures hc hr).bind fun w? c₁ _ hw => ?_
  obtain ⟨rfl, -⟩ := hw
  split
  · exact .refuse _ _
  · exact .refuse _ _
  · split
    · rename_i out hout
      exact .pure hc (hr.value? hout)
    · exact .refuse _ _

/-- An operand refers to what the result behind it refers to. -/
theorem operandOf_ensures {action : Compile Compiled}
    (h : Ensures unbound Compiled.IsRegistered c action) (parent child : Expr) :
    Ensures unbound Operand.IsRegistered c (operandOf s parent child action) :=
  (h.within parent).bind fun _ _ hc₁ hr => (toOperand_ensures hc₁.grounded hr child).within parent

theorem compileFunction_isRegistered (function : Function) (ho : o.IsRegistered c) :
    (compileFunction function o).IsRegistered c := by
  refine Compiled.isRegistered_ofValue ?_ _ _
  split
  · rename_i heq
    rw [Operand.IsRegistered, heq] at ho
    have ha := ho _ (List.mem_singleton_self _)
    exact .leaf ha
  · exact .wrap _ ho

/-! ### Membership -/

theorem membershipItem_ensures (hc : Grounded c.bindings) (item : Expr) :
    Ensures unbound (fun c₁ v => v.IsRegistered c₁ false) c (membershipItem item) := by
  unfold membershipItem
  cases hrow : item.readsRow with
  | true => exact .throw nofun
  | false => exact (registerParameter_ensures hc hrow).map fun _ _ _ hid => .param hid nofun

theorem membershipItems_ensures (hc : Grounded c.bindings) {list : Accumulator Symbol}
    (hlist : list.IsRegistered c false) (items : List Expr) :
    Ensures unbound (fun c₁ v => v.IsRegistered c₁ false) c (membershipItems list items) := by
  induction items generalizing c list with
  | nil => exact .pure hc hlist
  | cons item items ih =>
    refine (membershipItem_ensures hc item).bind fun v c₁ hc₁ hv => ?_
    exact ih hc₁.grounded (.binary (by simp) (hlist.mono hc₁) hv)

/-- The mark of a set is that of a parameter which has just been added. -/
theorem markExpanded_ensures {α : Type} (hc : Grounded c.bindings) {x : Compile α}
    {place : α → ParamId} (hx : ∀ {e}, Fails x c e → e.IsOrdinary unbound)
    (hnew : ∀ {a c₁}, Yields x c a c₁ → ∃ source, place a = c.pool.size ∧
      c₁ = { c with pool := c.pool.push source }) :
    Ensures unbound (fun c₁ (v : Accumulator Symbol) => v.IsRegistered c₁ true) c
      (x >>= fun a => markExpanded (place a) >>= fun _ => pure (.leaf (.param (place a)))) := by
  constructor
  · intro v c' h
    obtain ⟨a, c₁, ha, h⟩ := yields_bind_iff.mp h
    obtain ⟨⟨⟩, c₂, hexpand, h⟩ := yields_bind_iff.mp h
    obtain rfl := yields_modify_iff.mp hexpand
    obtain ⟨rfl, rfl⟩ := yields_pure_iff.mp h
    obtain ⟨source, hplace, rfl⟩ := hnew ha
    rw [hplace]
    refine ⟨⟨Pool.prefix_expand_push _ source, List.prefix_rfl, hc⟩, ?_⟩
    exact .param (Pool.marks_expand_push _ source) fun _ => rfl
  · intro e h
    rcases fails_bind_iff.mp h with h | ⟨a, c₁, -, h⟩
    · exact hx h
    · obtain ⟨_, _, _, h⟩ := fails_bind_of_not_fails not_fails_modify h
      exact absurd h not_fails_pure

/-- **The list of a membership test** is registered as a set. -/
theorem membershipList_ensures (hc : Grounded c.bindings) (set : Expr) :
    Ensures unbound (fun c₁ v => v.IsRegistered c₁ true) c (membershipList set) := by
  by_cases harray : ∃ items, set = .array items
  · obtain ⟨items, rfl⟩ := harray
    cases items with
    | nil =>
      refine markExpanded_ensures hc (Ensures.register hc _).fails fun h => ?_
      obtain ⟨rfl, rfl⟩ := yields_register_iff.mp h
      exact ⟨_, rfl, rfl⟩
    | cons item items =>
      refine (membershipItem_ensures hc item).bind fun v c₁ hc₁ hv => ?_
      exact (membershipItems_ensures hc₁.grounded hv items).mono fun _ _ hlist => hlist.toSet
  · rw [membershipList_eq_membershipSet fun items heq => harray ⟨items, heq⟩, membershipSet]
    cases hrow : set.readsRow with
    | true => exact .throw nofun
    | false =>
      refine markExpanded_ensures hc (registerParameter_ensures hc hrow).fails fun h => ?_
      obtain ⟨source, hid, hc₁, -⟩ := registerParameter_yields h
      exact ⟨source, hid, hc₁⟩

theorem compileMembership_ensures (hc : Grounded c.bindings) (ho : o.IsRegistered c) (set : Expr) :
    Ensures unbound Compiled.IsRegistered c (compileMembership o set) :=
  (membershipList_ensures hc set).map fun _ _ hc₁ hlist =>
    Compiled.isRegistered_ofValue (.isIn (ho.mono hc₁) hlist) _ _

/-! ### Collections -/

theorem compileAggregate_ensures (hc : Grounded c.bindings) (hr : r.IsRegistered c) (e : Expr)
    (function : Aggregate) :
    Ensures unbound Compiled.IsRegistered c (compileAggregate s scope e function r) := by
  refine (whole?_ensures hc hr).bind fun w? c₁ _ hw => ?_
  obtain ⟨rfl, hroot⟩ := hw
  cases hvalue : r.value? with
  | none => exact .refuse _ _
  | some out =>
    dsimp only
    split
    · split
      · rw [pure_bind]
        have hchain := Accumulator.IsRegistered.chain (hroot _ _ _ rfl)
        exact .pure hc (Compiled.isRegistered_ofValue (.wrap _ (.foldedInto (hchain _) _)) _ _)
      · exact .refuse_bind _ _ _
    · exact .refuse_bind _ _ _
    · rw [pure_bind]
      exact .pure hc (Compiled.isRegistered_ofValue (.wrap _ ((hr.value? hvalue).foldedInto _)) _ _)

theorem compileRange_ensures (hc : Grounded c.bindings) (hr : r.IsRegistered c) (e : Expr) :
    Ensures unbound (fun c₁ range => range.binding < c₁.bindings.length) c
      (compileRange s e r) := by
  unfold compileRange
  cases hchain : r.chain? with
  | none => exact .refuse _ _
  | some chain =>
    have hroot := hr.chain? hchain
    refine (Ensures.lookup hc s hroot _).bind fun l? c₁ _ hc₁ => ?_
    subst hc₁
    split
    · exact .refuse _ _
    · exact (Ensures.bindChain hc hroot _).map fun b _ _ hb => hb
    · exact (Ensures.bindChain hc hroot _).map fun b _ _ hb => hb

theorem compileOne_ensures (hc : Grounded c.bindings) (hr : r.IsRegistered c) (e : Expr) :
    Ensures unbound Compiled.IsRegistered c (compileOne e r) := by
  unfold compileOne
  dsimp only
  split
  · exact .pure hc hr
  · exact .refuse _ _

/-! ### Expressions -/

theorem alternative_ensures {whole e : Expr} {action : Compile Compiled}
    {further? : Option (Compile (CompiledBranches × Operand))}
    (haction : Ensures unbound Compiled.IsRegistered c action)
    (hfurther : ∀ further, further? = some further →
      Ensures unbound (fun c₁ p => p.1.IsRegistered c₁ ∧ p.2.IsRegistered c₁) c further) :
    Ensures unbound (fun c₁ p => p.1.IsRegistered c₁ ∧ p.2.IsRegistered c₁) c
      (alternative s whole e action further?) := by
  cases further? with
  | some further => exact hfurther further rfl
  | none =>
    exact (operandOf_ensures haction whole e).map fun o c₁ _ ho =>
      ⟨CompiledBranches.isRegistered_empty, ho⟩

/-- Two operands, one after the other. -/
theorem operands_ensures {whole a b : Expr} {left right : Compile Compiled}
    {f : Operand → Operand → Compiled} (hl : Ensures unbound Compiled.IsRegistered c left)
    (hr : ∀ c₁, c.GrowsTo c₁ → Ensures unbound Compiled.IsRegistered c₁ right)
    (hf : ∀ c₁ l r, Operand.IsRegistered c₁ l → r.IsRegistered c₁ → (f l r).IsRegistered c₁) :
    Ensures unbound Compiled.IsRegistered c
      (operandOf s whole a left >>= fun l => operandOf s whole b right >>= fun r =>
        pure (f l r)) := by
  refine (operandOf_ensures hl whole a).bind fun l c₁ hc₁ hl => ?_
  refine (operandOf_ensures (hr c₁ hc₁) whole b).map fun r c₂ hc₂ hr => ?_
  exact hf c₂ l r (hl.mono hc₂) hr

/-- The test, the first value and the alternative of a conditional, one after another. -/
theorem conditional_ensures {β : Type} {R : Collected → β → Prop} {whole a b : Expr}
    {test ifTrue : Compile Compiled} {ifFalse : Compile (CompiledBranches × Operand)}
    {f : Operand → Operand → CompiledBranches × Operand → β}
    (ht : Ensures unbound Compiled.IsRegistered c test)
    (hv : ∀ c₁, c.GrowsTo c₁ → Ensures unbound Compiled.IsRegistered c₁ ifTrue)
    (hf : ∀ c₁, c.GrowsTo c₁ →
      Ensures unbound (fun c₂ p => p.1.IsRegistered c₂ ∧ p.2.IsRegistered c₂) c₁ ifFalse)
    (hR : ∀ c₁ t v p, (p.1.cons t v).IsRegistered c₁ → Operand.IsRegistered c₁ p.2 →
      R c₁ (f t v p)) :
    Ensures unbound R c (operandOf s whole a test >>= fun t =>
      operandOf s whole b ifTrue >>= fun v => ifFalse >>= fun p => pure (f t v p)) := by
  refine (operandOf_ensures ht whole a).bind fun t c₁ hc₁ ht => ?_
  refine (operandOf_ensures (hv c₁ hc₁) whole b).bind fun v c₂ hc₂ hv => ?_
  refine (hf c₂ (hc₁.trans hc₂)).map fun p c₃ hc₃ hp => ?_
  exact hR c₃ t v p (hp.1.cons (ht.mono (hc₂.trans hc₃)) (hv.mono hc₃)) hp.2

end

mutual

/-- **Compiling breaks no invariant**, unless a variable is free. -/
theorem compile_ensures (s : Statement) {unbound : String → Prop} (e : Expr) {scope : Scope}
    {c : Collected} (hc : Grounded c.bindings) (hscope : scope.IsRegistered c)
    (hvars : ∀ name ∈ e.freeVars, scope.locals.lookup name = none → unbound name) :
    Ensures unbound Compiled.IsRegistered c (compile s scope e) := by
  unfold compile
  split
  · rename_i hparam
    exact compileParameter_ensures hc (Expr.readsRow_eq_false_of_isParameter hparam)
  -- What reads no row is a parameter; the cases that follow read rows.
  cases e with
  | row => exact compileChain_ensures hc (.row _) _ _
  | args => exact compileParameter_ensures hc rfl
  | constant v => exact compileParameter_ensures hc rfl
  | rowNumber =>
    exact .pure hc (Compiled.isRegistered_ofValue (.chain (.row _) _) _ _)
  | method receiver name arguments => exact .refuse _ _
  | var name =>
    dsimp only
    cases hlookup : scope.locals.lookup name with
    | some b => exact compileChain_ensures hc (.binding (hscope.lookup hlookup)) _ _
    | none =>
      refine .throw fun i hi => ⟨name, hvars name (List.mem_singleton_self _) hlookup, ?_⟩
      exact (Error.invariant.inj hi).symm
  | member base name =>
    have hbase := compile_ensures s base hc hscope hvars
    exact (hbase.within _).bind fun r c₁ hc₁ hr => compileMember_ensures hc₁.grounded hr _ _ _
  | unary op operand =>
    refine (operandOf_ensures (compile_ensures s operand hc hscope hvars) _ _).bind
      fun o c₁ hc₁ ho => ?_
    cases op <;> exact .pure hc₁.grounded (Compiled.isRegistered_ofValue (.wrap _ ho) _ _)
  | binary op left right =>
    obtain ⟨hvl, hvr⟩ := List.forall_mem_append.mp hvars
    have hl := compile_ensures s left hc hscope hvl
    have hr := fun c₁ (hc₁ : c.GrowsTo c₁) =>
      compile_ensures s right hc₁.grounded (hscope.mono hc₁) hvr
    cases op with
    | isIn =>
      exact (operandOf_ensures hl _ _).bind fun o c₁ hc₁ ho =>
        compileMembership_ensures hc₁.grounded ho right
    | comma => exact .refuse _ _
    | _ =>
      exact operands_ensures hl hr fun c₂ l r hl hr =>
        Compiled.isRegistered_ofValue (.binary (by simp) hl hr) _ _
  | tuple items | array items => exact compileItems_ensures s items hc hscope hvars _ _
  | object members => exact compileMembers_ensures s members hc hscope hvars _
  | conditional test ifTrue ifFalse =>
    obtain ⟨hvt, hv⟩ := List.forall_mem_append.mp hvars
    obtain ⟨hvv, hvf⟩ := List.forall_mem_append.mp hv
    refine conditional_ensures (compile_ensures s test hc hscope hvt)
      (fun c₁ hc₁ => compile_ensures s ifTrue hc₁.grounded (hscope.mono hc₁) hvv)
      (fun c₁ hc₁ => alternative_ensures
        (compile_ensures s ifFalse hc₁.grounded (hscope.mono hc₁) hvf)
        (compileElse_ensures s ifFalse hc₁.grounded (hscope.mono hc₁) hvf _))
      fun c₃ t v p hbs ho => Compiled.isRegistered_ofValue (.cases hbs ho) _ _
  | cases branches otherwise =>
    obtain ⟨hvbs, hvo⟩ := List.forall_mem_append.mp hvars
    refine (compileBranches_ensures s branches hc hscope hvbs _).bind fun bs c₁ hc₁ hbs => ?_
    refine (operandOf_ensures
      (compile_ensures s otherwise hc₁.grounded (hscope.mono hc₁) hvo) _ _).map
        fun o c₂ hc₂ ho => ?_
    exact Compiled.isRegistered_ofValue (.cases (hbs.mono hc₂) ho) _ _
  | casesOf subject branches otherwise =>
    obtain ⟨hvk, hv⟩ := List.forall_mem_append.mp hvars
    obtain ⟨hvbs, hvo⟩ := List.forall_mem_append.mp hv
    refine (operandOf_ensures (compile_ensures s subject hc hscope hvk) _ _).bind
      fun k c₁ hc₁ hk => ?_
    refine (compileBranches_ensures s branches hc₁.grounded (hscope.mono hc₁) hvbs _).bind
      fun bs c₂ hc₂ hbs => ?_
    refine (operandOf_ensures (compile_ensures s otherwise hc₂.grounded
      (hscope.mono (hc₁.trans hc₂)) hvo) _ _).map fun o c₃ hc₃ ho => ?_
    exact Compiled.isRegistered_ofValue
      (.casesOf (hk.mono (hc₂.trans hc₃)) (hbs.mono hc₃) ho) _ _
  | aggregate function source =>
    let inner := { scope with beneath := true }
    have hsource : Ensures unbound Compiled.IsRegistered c (compile s inner source) :=
      compile_ensures s source hc hscope hvars
    exact (hsource.within _).bind fun r c₁ hc₁ hr => compileAggregate_ensures hc₁.grounded hr _ _
  | apply function operand =>
    exact (operandOf_ensures (compile_ensures s operand hc hscope hvars) _ _).map
      fun o c₁ _ ho => compileFunction_isRegistered function ho
  | select source param body =>
    obtain ⟨hvs, hvb⟩ := List.forall_mem_append.mp hvars
    refine ((compile_ensures s source hc hscope hvs).within _).bind fun r c₁ hc₁ hr => ?_
    refine (compileRange_ensures hc₁.grounded hr _).bind fun range c₂ hc₂ hrange => ?_
    have hinner := (hscope.mono (hc₁.trans hc₂)).range hrange param
    -- In the body the parameter is bound, and the other variables are those of the outside.
    have hbody := compile_ensures s body hc₂.grounded hinner fun name hname hlookup => by
      rw [Range.scope, List.lookup_cons] at hlookup
      cases heq : name == param with
      | true => rw [heq] at hlookup; cases hlookup
      | false =>
        rw [heq] at hlookup
        exact hvb name (List.mem_filter.mpr ⟨hname, by simpa using heq⟩) hlookup
    exact ((expanded_ensures hbody _).within _).map fun r c₃ _ hr => hr
  | toList source =>
    exact (expanded_ensures (compile_ensures s source hc hscope hvars) _).within _
  | one source =>
    exact ((expanded_ensures (compile_ensures s source hc hscope hvars) _).within _).bind
      fun r c₁ hc₁ hr => compileOne_ensures hc₁.grounded hr _
  | isIn value set =>
    obtain ⟨hvv, -⟩ := List.forall_mem_append.mp hvars
    exact (operandOf_ensures (compile_ensures s value hc hscope hvv) _ _).bind
      fun o c₁ hc₁ ho => compileMembership_ensures hc₁.grounded ho set
  | contains set value =>
    obtain ⟨-, hvv⟩ := List.forall_mem_append.mp hvars
    exact (operandOf_ensures (compile_ensures s value hc hscope hvv) _ _).bind
      fun o c₁ hc₁ ho => compileMembership_ensures hc₁.grounded ho set
termination_by structural e

theorem compileItems_ensures (s : Statement) {unbound : String → Prop} (es : List Expr)
    {scope : Scope} {c : Collected} (hc : Grounded c.bindings) (hscope : scope.IsRegistered c)
    (hvars : ∀ name ∈ Expr.freeVarsAll es, scope.locals.lookup name = none → unbound name)
    (whole : Expr) (index : Nat) :
    Ensures unbound Compiled.IsRegistered c (compileItems s scope whole index es) := by
  unfold compileItems
  cases es with
  | nil => exact .pure hc Compiled.isRegistered_empty
  | cons e es =>
    obtain ⟨hv, hvs⟩ := List.forall_mem_append.mp hvars
    refine ((expanded_ensures (compile_ensures s e hc hscope hv) _).within _).bind
      fun r c₁ hc₁ hr => ?_
    have hes := compileItems_ensures s es hc₁.grounded (hscope.mono hc₁) hvs whole (index + 1)
    exact hes.map fun r' c₂ hc₂ hr' => ((hr.mono hc₂).under _).append hr'
termination_by structural es

theorem compileMembers_ensures (s : Statement) {unbound : String → Prop}
    (es : List (String × Expr)) {scope : Scope} {c : Collected} (hc : Grounded c.bindings)
    (hscope : scope.IsRegistered c)
    (hvars : ∀ name ∈ Expr.freeVarsMembers es, scope.locals.lookup name = none → unbound name)
    (whole : Expr) :
    Ensures unbound Compiled.IsRegistered c (compileMembers s scope whole es) := by
  unfold compileMembers
  cases es with
  | nil => exact .pure hc Compiled.isRegistered_empty
  | cons member es =>
    obtain ⟨name, e⟩ := member
    obtain ⟨hv, hvs⟩ := List.forall_mem_append.mp hvars
    refine ((expanded_ensures (compile_ensures s e hc hscope hv) _).within _).bind
      fun r c₁ hc₁ hr => ?_
    have hes := compileMembers_ensures s es hc₁.grounded (hscope.mono hc₁) hvs whole
    exact hes.map fun r' c₂ hc₂ hr' => ((hr.mono hc₂).under _).append hr'
termination_by structural es

theorem compileBranches_ensures (s : Statement) {unbound : String → Prop}
    (bs : List (Expr × Expr)) {scope : Scope} {c : Collected} (hc : Grounded c.bindings)
    (hscope : scope.IsRegistered c)
    (hvars : ∀ name ∈ Expr.freeVarsBranches bs, scope.locals.lookup name = none → unbound name)
    (whole : Expr) :
    Ensures unbound CompiledBranches.IsRegistered c (compileBranches s scope whole bs) := by
  unfold compileBranches
  cases bs with
  | nil => exact .pure hc CompiledBranches.isRegistered_empty
  | cons branch rest =>
    obtain ⟨test, value⟩ := branch
    obtain ⟨hvt, hv⟩ := List.forall_mem_append.mp hvars
    obtain ⟨hvv, hvr⟩ := List.forall_mem_append.mp hv
    refine (operandOf_ensures (compile_ensures s test hc hscope hvt) _ _).bind fun t c₁ hc₁ ht => ?_
    refine (operandOf_ensures
      (compile_ensures s value hc₁.grounded (hscope.mono hc₁) hvv) _ _).bind fun v c₂ hc₂ hv => ?_
    have hscope₂ := hscope.mono (hc₁.trans hc₂)
    have hrest := compileBranches_ensures s rest hc₂.grounded hscope₂ hvr whole
    exact hrest.map fun bs c₃ hc₃ hbs =>
      hbs.cons (ht.mono (hc₂.trans hc₃)) (hv.mono hc₃)
termination_by structural bs

theorem compileElse_ensures (s : Statement) {unbound : String → Prop} (e : Expr) {scope : Scope}
    {c : Collected} (hc : Grounded c.bindings) (hscope : scope.IsRegistered c)
    (hvars : ∀ name ∈ e.freeVars, scope.locals.lookup name = none → unbound name)
    (whole : Expr) (further : Compile (CompiledBranches × Operand))
    (h : compileElse s scope whole e = some further) :
    Ensures unbound (fun c₁ p => p.1.IsRegistered c₁ ∧ p.2.IsRegistered c₁) c further := by
  cases e with
  | conditional test ifTrue ifFalse =>
    obtain ⟨hvt, hv⟩ := List.forall_mem_append.mp hvars
    obtain ⟨hvv, hvf⟩ := List.forall_mem_append.mp hv
    rw [← Option.some.inj h]
    exact conditional_ensures (compile_ensures s test hc hscope hvt)
      (fun c₁ hc₁ => compile_ensures s ifTrue hc₁.grounded (hscope.mono hc₁) hvv)
      (fun c₁ hc₁ => alternative_ensures
        (compile_ensures s ifFalse hc₁.grounded (hscope.mono hc₁) hvf)
        (compileElse_ensures s ifFalse hc₁.grounded (hscope.mono hc₁) hvf _))
      fun _ _ _ _ hbs ho => ⟨hbs, ho⟩
  | _ => cases h
termination_by structural e

end

/-! ### Mappings and conditions -/

theorem compileMapping_ensures (s : Statement) {unbound : String → Prop} {e : Expr} {c : Collected}
    (hc : Grounded c.bindings) (hvars : ∀ name ∈ e.freeVars, unbound name) :
    Ensures unbound Compiled.IsRegistered c (compileMapping s e) :=
  expanded_ensures (compile_ensures s e hc (Scope.isRegistered_outermost c)
    fun name hname _ => hvars name hname) .outermost

theorem compileCondition_ensures (s : Statement) {unbound : String → Prop} {e : Expr}
    {c : Collected} (hc : Grounded c.bindings) (hvars : ∀ name ∈ e.freeVars, unbound name) :
    Ensures unbound (fun c₁ v => v.IsRegistered c₁ false) c (compileCondition s e) := by
  refine (compile_ensures s e hc (Scope.isRegistered_outermost c)
    fun name hname _ => hvars name hname).bind fun r c₁ hc₁ hr => ?_
  refine (toOperand_ensures hc₁.grounded hr e).bind fun o c₂ hc₂ ho => ?_
  split
  · exact .pure hc₂.grounded ho
  · exact .refuse _ _

end NestedQuery
