import NestedQuery.Proofs.Mapping.Registered
import NestedQuery.Proofs.Mapping.Shift

/-!
# Expressions do not depend on what was collected before

An expression compiles from a shifted state to the shifted result (`compile_shifts`). So what has
been collected before it shows in the places of its parameters and bindings only: after other
expressions have added theirs, it compiles to the same with places that are moved on
(`compileValue_yields_of_growsTo`).
-/

namespace NestedQuery

open Compile

variable {σ : Shift} {s : Statement} {scope : Scope}

/-! ### Parameters and operands -/

/-- The place and the type of a parameter, with its new place. -/
def Shift.typed (σ : Shift) (p : ParamId × ValueType) : ParamId × ValueType :=
  (σ.param p.1, p.2)

theorem registerParameter_shifts (e : Expr) :
    Shifts σ σ.typed (registerParameter e) (registerParameter e) := by
  unfold registerParameter
  split
  · exact (register_shifts _).bind fun id => .pure rfl
  · refine ((Shifts.ofResult _).within e e).bind fun v => ?_
    exact (register_shifts _).bind fun id => .pure rfl

theorem compileParameter_shifts (e : Expr) :
    Shifts σ (Compiled.shift σ) (compileParameter e) (compileParameter e) :=
  (registerParameter_shifts e).bind fun _ => .pure rfl

theorem toOperand_shifts (e : Expr) (r : Compiled) :
    Shifts σ (Operand.shift σ) (toOperand s e r) (toOperand s e (r.shift σ)) := by
  refine (whole?_shifts r).bind fun w? => ?_
  rcases w? with _ | ⟨_ | ⟨id, table⟩, chain⟩
  · dsimp only [Option.map_none]
    rw [Compiled.value?_shift]
    cases r.value? with
    | none => exact .throw _
    | some o => exact .pure rfl
  · exact .throw _
  · exact .throw _

theorem operandOf_shifts {action action' : Compile Compiled}
    (h : Shifts σ (Compiled.shift σ) action action') (parent child : Expr) :
    Shifts σ (Operand.shift σ) (operandOf s parent child action)
      (operandOf s parent child action') :=
  (h.within parent parent).bind fun c => (toOperand_shifts child c).within parent parent

/-! ### Membership -/

theorem membershipItem_shifts (item : Expr) :
    Shifts σ (Accumulator.shift σ) (membershipItem item) (membershipItem item) := by
  unfold membershipItem
  split
  · exact .throw _
  · exact (registerParameter_shifts item).bind fun p => .pure rfl

theorem membershipItems_shifts (list : Accumulator Symbol) (items : List Expr) :
    Shifts σ (Accumulator.shift σ) (membershipItems list items)
      (membershipItems (list.shift σ) items) := by
  induction items generalizing list with
  | nil => exact .pure rfl
  | cons item items ih => exact (membershipItem_shifts item).bind fun v => ih _

/-- A parameter that is marked as a list. -/
theorem markedList_shifts (id : ParamId) :
    Shifts σ (Accumulator.shift σ) (markExpanded id >>= fun _ => pure (.leaf (.param id)))
      (markExpanded (σ.param id) >>= fun _ => pure (.leaf (.param (σ.param id)))) :=
  (markExpanded_shifts id).bind fun _ => .pure rfl

theorem membershipList_shifts (set : Expr) :
    Shifts σ (Accumulator.shift σ) (membershipList set) (membershipList set) := by
  by_cases harray : ∃ items, set = .array items
  · obtain ⟨_ | ⟨item, items⟩, rfl⟩ := harray
    · exact (register_shifts _).bind markedList_shifts
    · exact (membershipItem_shifts item).bind fun v => membershipItems_shifts v items
  · rw [membershipList_eq_membershipSet fun items heq => harray ⟨items, heq⟩, membershipSet]
    split
    · exact .throw _
    · exact (registerParameter_shifts set).bind fun p => markedList_shifts p.1

theorem compileMembership_shifts (o : Operand) (set : Expr) :
    Shifts σ (Compiled.shift σ) (compileMembership o set) (compileMembership (o.shift σ) set) :=
  (membershipList_shifts set).bind fun _ => .pure rfl

/-! ### Collections -/

theorem compileAggregate_shifts (scope : Scope) (e : Expr) (function : Aggregate) (r : Compiled) :
    Shifts σ (Compiled.shift σ) (compileAggregate s scope e function r)
      (compileAggregate s (scope.shift σ) e function (r.shift σ)) := by
  -- Both the value and its tables are folded.
  have hfolded : ∀ (v : Accumulator Symbol) (tables : List MappedTable) (type : ValueType),
      Shifts σ (Compiled.shift σ)
        (pure (.ofValue (.wrap (.aggregate function) (v.map (Symbol.foldedInto scope.table)))
          (function.type type) (tables.map fun t => { t with aggregated := true })))
        (pure (.ofValue (.wrap (.aggregate function)
            ((v.shift σ).map (Symbol.foldedInto (scope.shift σ).table)))
          (function.type type) (tables.map fun t => { t with aggregated := true }))) := by
    intro v tables type
    refine .pure ?_
    rw [show (scope.shift σ).table = scope.table from rfl, ← foldedInto_shift]
    rfl
  refine (whole?_shifts r).bind fun w? => ?_
  rw [Compiled.value?_shift]
  cases r.value? with
  | none => exact .throw _
  | some o =>
    rcases w? with _ | ⟨_ | ⟨id, table⟩, root, path⟩
    · exact hfolded o.value r.tables o.type
    · exact .refuse_bind ..
    · dsimp only [Option.map_some, Prod.map, id_eq]
      split
      · rw [pure_bind, pure_bind]
        exact hfolded (chainLeaf root (path ++ [rowIdColumn])) _ o.type
      · exact .refuse_bind ..

theorem compileRange_shifts (e : Expr) (r : Compiled) :
    Shifts σ (Range.shift σ) (compileRange s e r) (compileRange s e (r.shift σ)) := by
  unfold compileRange
  rw [Compiled.chain?_shift]
  cases r.chain? with
  | none => exact .throw _
  | some chain =>
    refine (lookup_shifts _ _).bind fun l? => ?_
    rcases l? with _ | _ | _ | _ | _
    · exact (bind_shifts _ _).bind fun b => .pure rfl
    · exact .throw _
    · exact (bind_shifts _ _).bind fun b => .pure rfl
    · exact (bind_shifts _ _).bind fun b => .pure rfl
    · exact (bind_shifts _ _).bind fun b => .pure rfl

theorem compileOne_shifts (e : Expr) (r : Compiled) :
    Shifts σ (Compiled.shift σ) (compileOne e r) (compileOne e (r.shift σ)) := by
  have htables : (r.shift σ).tables = r.tables := rfl
  unfold compileOne
  dsimp only
  rw [htables]
  split
  · exact .pure rfl
  · exact .throw _

/-! ### Expressions -/

/-- The branches and the operand of an alternative with new places. -/
def Shift.alternative (σ : Shift) (p : CompiledBranches × Operand) : CompiledBranches × Operand :=
  (p.1.shift σ, p.2.shift σ)

theorem alternative_shifts {action action' : Compile Compiled}
    {further? further?' : Option (Compile (CompiledBranches × Operand))}
    (haction : Shifts σ (Compiled.shift σ) action action')
    (hfurther : Option.Rel (Shifts σ σ.alternative) further? further?') (whole e : Expr) :
    Shifts σ σ.alternative (alternative s whole e action further?)
      (alternative s whole e action' further?') := by
  unfold NestedQuery.alternative
  cases hfurther with
  | some h => exact h
  | none => exact (operandOf_shifts haction whole e).bind fun o => .pure rfl

mutual

/-- **From a shifted state** an expression compiles to the shifted result. -/
theorem compile_shifts (s : Statement) (e : Expr) (scope : Scope) :
    Shifts σ (Compiled.shift σ) (compile s scope e) (compile s (scope.shift σ) e) := by
  by_cases hparam : e.isParameter = true
  · rw [compile_eq_compileParameter hparam, compile_eq_compileParameter hparam]
    exact compileParameter_shifts e
  unfold compile
  rw [if_neg hparam, if_neg hparam]
  cases e with
  | args | constant _ => exact absurd rfl hparam
  | method receiver name values => exact .throw _
  | row => exact compileChain_shifts .row [] []
  | rowNumber => exact .pure rfl
  | var name =>
    dsimp only
    rw [Scope.lookup_shift]
    cases scope.locals.lookup name with
    | none => exact .throw _
    | some b => exact compileChain_shifts (.binding b) [] []
  | member base name =>
    exact ((compile_shifts s base scope).within _ _).bind fun c => compileMember_shifts _ _ name c
  | unary op operand =>
    refine (operandOf_shifts (compile_shifts s operand scope) _ _).bind fun o => ?_
    cases op <;> exact .pure rfl
  | binary op left right =>
    have hleft := fun whole => operandOf_shifts (s := s) (compile_shifts s left scope) whole left
    have hright := fun whole => operandOf_shifts (s := s) (compile_shifts s right scope) whole right
    cases op with
    | isIn => exact (hleft _).bind fun o => compileMembership_shifts o right
    | comma => exact .throw _
    | _ => exact (hleft _).bind fun l => (hright _).bind fun r => .pure rfl
  | tuple items => exact compileItems_shifts s items scope _ 0
  | array items => exact compileItems_shifts s items scope _ 0
  | object members => exact compileMembers_shifts s members scope _
  | conditional test ifTrue ifFalse =>
    refine (operandOf_shifts (compile_shifts s test scope) _ _).bind fun t => ?_
    refine (operandOf_shifts (compile_shifts s ifTrue scope) _ _).bind fun v => ?_
    have helse := alternative_shifts (s := s) (compile_shifts s ifFalse scope)
      (compileElse_shifts s ifFalse scope (.conditional test ifTrue ifFalse))
      (.conditional test ifTrue ifFalse) ifFalse
    exact helse.bind fun p => .pure rfl
  | cases branches otherwise =>
    refine (compileBranches_shifts s branches scope _).bind fun bs => ?_
    exact (operandOf_shifts (compile_shifts s otherwise scope) _ _).bind fun o => .pure rfl
  | casesOf subject branches otherwise =>
    refine (operandOf_shifts (compile_shifts s subject scope) _ _).bind fun k => ?_
    refine (compileBranches_shifts s branches scope _).bind fun bs => ?_
    exact (operandOf_shifts (compile_shifts s otherwise scope) _ _).bind fun o => .pure rfl
  | aggregate function source =>
    exact ((compile_shifts s source { scope with beneath := true }).within _ _).bind fun c =>
      compileAggregate_shifts scope _ function c
  | apply function operand =>
    exact (operandOf_shifts (compile_shifts s operand scope) _ _).bind fun o =>
      .pure (compileFunction_shift σ function o).symm
  | select source param body =>
    refine ((compile_shifts s source scope).within _ _).bind fun c => ?_
    refine (compileRange_shifts _ c).bind fun range => ?_
    have hbody := (compile_shifts s body (range.scope scope param)).bind fun b =>
      expandWhole_shifts (s := s) (range.scope scope param) b
    exact (hbody.within _ _).bind fun b => .pure rfl
  | toList source =>
    have hsource := (compile_shifts s source scope).bind fun c =>
      expandWhole_shifts (s := s) scope c
    exact hsource.within _ _
  | one source =>
    have hsource := (compile_shifts s source scope).bind fun c =>
      expandWhole_shifts (s := s) scope c
    exact (hsource.within _ _).bind fun c => compileOne_shifts _ c
  | isIn value set | contains set value =>
    exact (operandOf_shifts (compile_shifts s value scope) _ _).bind fun o =>
      compileMembership_shifts o set
termination_by structural e

theorem compileItems_shifts (s : Statement) (es : List Expr) (scope : Scope) (whole : Expr)
    (index : Nat) :
    Shifts σ (Compiled.shift σ) (compileItems s scope whole index es)
      (compileItems s (scope.shift σ) whole index es) := by
  cases es with
  | nil => exact .pure rfl
  | cons e es =>
    have hvalue := (compile_shifts s e scope).bind fun c => expandWhole_shifts (s := s) scope c
    refine (hvalue.within whole whole).bind fun c => ?_
    refine (compileItems_shifts s es scope whole (index + 1)).bind fun d => .pure ?_
    rw [Compiled.append_shift, Compiled.under_shift]
termination_by structural es

theorem compileMembers_shifts (s : Statement) (es : List (String × Expr)) (scope : Scope)
    (whole : Expr) :
    Shifts σ (Compiled.shift σ) (compileMembers s scope whole es)
      (compileMembers s (scope.shift σ) whole es) := by
  cases es with
  | nil => exact .pure rfl
  | cons member es =>
    obtain ⟨name, e⟩ := member
    have hvalue := (compile_shifts s e scope).bind fun c => expandWhole_shifts (s := s) scope c
    refine (hvalue.within whole whole).bind fun c => ?_
    refine (compileMembers_shifts s es scope whole).bind fun d => .pure ?_
    rw [Compiled.append_shift, Compiled.under_shift]
termination_by structural es

theorem compileBranches_shifts (s : Statement) (bs : List (Expr × Expr)) (scope : Scope)
    (whole : Expr) :
    Shifts σ (CompiledBranches.shift σ) (compileBranches s scope whole bs)
      (compileBranches s (scope.shift σ) whole bs) := by
  cases bs with
  | nil => exact .pure rfl
  | cons branch rest =>
    obtain ⟨test, value⟩ := branch
    refine (operandOf_shifts (compile_shifts s test scope) _ _).bind fun t => ?_
    refine (operandOf_shifts (compile_shifts s value scope) _ _).bind fun v => ?_
    exact (compileBranches_shifts s rest scope whole).bind fun bs => .pure rfl
termination_by structural bs

theorem compileElse_shifts (s : Statement) (e : Expr) (scope : Scope) (whole : Expr) :
    Option.Rel (Shifts σ σ.alternative) (compileElse s scope whole e)
      (compileElse s (scope.shift σ) whole e) := by
  cases e with
  | conditional test ifTrue ifFalse =>
    have helse := alternative_shifts (s := s) (compile_shifts s ifFalse scope)
      (compileElse_shifts s ifFalse scope whole) whole ifFalse
    refine .some ?_
    refine (operandOf_shifts (compile_shifts s test scope) _ _).bind fun t => ?_
    refine (operandOf_shifts (compile_shifts s ifTrue scope) _ _).bind fun v => ?_
    exact helse.bind fun p => .pure rfl
  | _ => exact .none
termination_by structural e

end

theorem compileValue_shifts (s : Statement) (e : Expr) (scope : Scope) :
    Shifts σ (Compiled.shift σ) (compileValue s scope e) (compileValue s (scope.shift σ) e) :=
  (compile_shifts s e scope).bind fun c => expandWhole_shifts scope c

/-! ### Later states -/

/-- The shift past what has been collected from the state `c` to the state `c'`. -/
def Shift.past (c c' : Collected) : Shift where
  params := c.pool.size
  byParams := c'.pool.size - c.pool.size
  bindings := c.bindings.length
  byBindings := c'.bindings.length - c.bindings.length

/-- A later state is shifted. -/
theorem Collected.GrowsTo.shifts {c c' : Collected} (hc : Grounded c.bindings)
    (h : c.GrowsTo c') : c.Shifts (.past c c') c' := by
  have hsize : c.pool.size ≤ c'.pool.size := h.slots.length_le
  have hlength : c.bindings.length ≤ c'.bindings.length := h.length_le
  refine ⟨(Nat.add_sub_cancel' hsize).symm, Nat.le_refl _, fun i hi => ?_,
    (Nat.add_sub_cancel' hlength).symm, Nat.le_refl _, fun i => ?_⟩
  · have hi : c.pool.slots.length ≤ i := hi
    have hi' : c'.pool.slots.length ≤ i + (Shift.past c c').byParams := by
      have : (Shift.past c c').byParams = c'.pool.slots.length - c.pool.slots.length := rfl
      omega
    rw [List.getElem?_eq_none hi, List.getElem?_eq_none hi']
  · rcases Nat.lt_or_ge i c.bindings.length with hi | hi
    · -- Bindings that were there keep their numbers, and start at others that were there.
      have hstays : (Shift.past c c').binding i = i := if_pos hi
      obtain ⟨later, hlater⟩ := h.bindings
      rw [hstays, ← hlater, List.getElem?_append_left hi, List.getElem?_eq_getElem hi]
      refine congrArg some ?_
      have hroot := hc i c.bindings[i] (List.getElem?_eq_getElem hi)
      have hstarts : (Shift.past c c').root c.bindings[i].root = c.bindings[i].root :=
        Shift.root_eq_self (hroot.mono (Nat.le_of_lt hi))
      rw [Binding.shift, hstarts]
    · have hi' : c'.bindings.length ≤ (Shift.past c c').binding i := by
        rw [Shift.binding_of_le hi]
        have : (Shift.past c c').byBindings = c'.bindings.length - c.bindings.length := rfl
        omega
      rw [List.getElem?_eq_none hi, List.getElem?_eq_none hi', Option.map_none]

/-- **From a later state** a value compiles to the same, with places that are moved on. -/
theorem compileValue_yields_of_growsTo {s : Statement} {scope : Scope} {e : Expr}
    {c c' d : Collected} {r : Compiled} (hc : Grounded c.bindings) (hscope : scope.IsRegistered c)
    (hgrows : c.GrowsTo c') (h : Yields (compileValue s scope e) c r d) :
    ∃ d', Yields (compileValue s scope e) c' (r.shift (.past c c')) d' ∧
      d.Shifts (.past c c') d' := by
  have hshifts := (compileValue_shifts s e scope).yields (hgrows.shifts hc) h
  have hstays : scope.shift (.past c c') = scope := Scope.shift_eq_self hscope
  rwa [hstays] at hshifts

end NestedQuery
