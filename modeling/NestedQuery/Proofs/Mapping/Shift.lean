import NestedQuery.Proofs.Accumulator.Views
import NestedQuery.Proofs.Mapping.Bindings
import NestedQuery.Proofs.Mapping.Embedding
import NestedQuery.Proofs.Mapping.Simulation

/-!
# Compiling from another state

What is collected before an expression is compiled shows in the result only in the places of the
parameters and bindings that are new. A `Shift` says where they go: the first ones stay, and those
after them move on by as many places as have been put in between. `Shifts` follows a step from one
state in another one that has been shifted; this module has one lemma for each step of chains and of
expansion, and `qualify_shift`: chains lead to the same path in both.
-/

namespace NestedQuery

open Compile

/-- How far parameters and bindings are moved: the first `params` and `bindings` of them stay, and
those after them move on. -/
structure Shift where
  /-- How many parameters stay. -/
  params : Nat
  /-- How far the others move. -/
  byParams : Nat
  /-- How many bindings stay. -/
  bindings : Nat
  /-- How far the others move. -/
  byBindings : Nat

namespace Shift

/-- The new place of a parameter. -/
def param (σ : Shift) (id : ParamId) : ParamId :=
  if id < σ.params then id else id + σ.byParams

/-- The new place of a binding. -/
def binding (σ : Shift) (id : BindingId) : BindingId :=
  if id < σ.bindings then id else id + σ.byBindings

/-- Where a chain starts then. -/
def root (σ : Shift) : Root → Root
  | .row => .row
  | .binding id => .binding (σ.binding id)

/-- A chain with its new start. -/
def chain (σ : Shift) (chain : Root × List String) : Root × List String :=
  (σ.root chain.1, chain.2)

theorem param_of_le {σ : Shift} {id : ParamId} (h : σ.params ≤ id) :
    σ.param id = id + σ.byParams :=
  if_neg (Nat.not_lt_of_le h)

theorem binding_of_le {σ : Shift} {id : BindingId} (h : σ.bindings ≤ id) :
    σ.binding id = id + σ.byBindings :=
  if_neg (Nat.not_lt_of_le h)

/-- What starts at one of the first bindings stays. -/
theorem root_eq_self {σ : Shift} {root : Root} (h : root.IsWithin σ.bindings) :
    σ.root root = root := by
  cases root with
  | row => rfl
  | binding id => exact congrArg Root.binding (if_pos h)

end Shift

/-! ### Shifted results -/

section

variable (σ : Shift)

/-- The leaf with its new place. -/
def Symbol.shift : Symbol → Symbol
  | .param id => .param (σ.param id)
  | .column root path into function => .column (σ.root root) path into function

/-- The binding with its new start. -/
def Binding.shift (b : Binding) : Binding :=
  { b with root := σ.root b.root }

/-- The value with new places. -/
def Accumulator.shift (v : Accumulator Symbol) : Accumulator Symbol :=
  v.map (Symbol.shift σ)

/-- The result with new places. -/
def Compiled.shift (c : Compiled) : Compiled :=
  { c with outputs := c.outputs.map (Output.map (Symbol.shift σ)) }

/-- The operand with new places. -/
def Operand.shift (o : Operand) : Operand :=
  { o with value := o.value.shift σ }

/-- The branches with new places. -/
def CompiledBranches.shift (bs : CompiledBranches) : CompiledBranches :=
  { bs with branches := Accumulator.mapBranches (Symbol.shift σ) bs.branches }

/-- The scope with new places. -/
def Scope.shift (scope : Scope) : Scope :=
  { scope with locals := scope.locals.map fun p => (p.1, σ.binding p.2) }

/-- The range with its new place. -/
def Range.shift (range : Range) : Range :=
  { range with binding := σ.binding range.binding }

theorem plainChain?_shift (v : Accumulator Symbol) :
    plainChain? (v.shift σ) = (plainChain? v).map σ.chain := by
  cases v with
  | leaf a =>
    cases a with
    | param id => rfl
    | column root path into function => cases into <;> cases function <;> rfl
  | _ => rfl

theorem foldedInto_shift (t : TableId) (v : Accumulator Symbol) :
    (v.map (Symbol.foldedInto t)).shift σ = (v.shift σ).map (Symbol.foldedInto t) := by
  rw [Accumulator.shift, Accumulator.shift, Accumulator.map_map, Accumulator.map_map]
  refine congrArg (fun g => v.map g) (funext fun a => ?_)
  cases a with
  | param id => rfl
  | column root path into function => cases into <;> rfl

theorem compileFunction_shift (function : Function) (o : Operand) :
    compileFunction function (o.shift σ) = (compileFunction function o).shift σ := by
  obtain ⟨value, type, tables⟩ := o
  cases value with
  | leaf a =>
    cases a with
    | param id => rfl
    | column root path into applied => cases applied <;> rfl
  | _ => rfl

theorem Scope.lookup_shift (scope : Scope) (name : String) :
    (scope.shift σ).locals.lookup name = (scope.locals.lookup name).map σ.binding := by
  obtain ⟨locals, table, beneath⟩ := scope
  show List.lookup name (locals.map _) = (locals.lookup name).map _
  induction locals with
  | nil => rfl
  | cons p locals ih =>
    rw [List.map_cons, List.lookup_cons, List.lookup_cons]
    cases name == p.1 with
    | true => rfl
    | false => exact ih

/-- Parameters that stand for the first bindings stay. -/
theorem Scope.shift_eq_self {σ : Shift} {scope : Scope} (h : ∀ p ∈ scope.locals, p.2 < σ.bindings) :
    scope.shift σ = scope := by
  obtain ⟨locals, table, beneath⟩ := scope
  rw [shift]
  congr
  have hid : ∀ p ∈ locals, (p.1, σ.binding p.2) = id p := fun p hp => Prod.ext rfl (if_pos (h p hp))
  rw [List.map_congr_left hid, List.map_id]

namespace Compiled

theorem value?_shift (c : Compiled) :
    (c.shift σ).value? = c.value?.map (Output.map (Symbol.shift σ)) := by
  obtain ⟨outputs, tables⟩ := c
  match outputs with
  | [] => rfl
  | [o] =>
    show (if o.target = [] then some (o.map (Symbol.shift σ)) else none) =
      (if o.target = [] then some o else none).map (Output.map (Symbol.shift σ))
    split <;> rfl
  | _ :: _ :: _ => rfl

theorem chain?_shift (c : Compiled) : (c.shift σ).chain? = c.chain?.map σ.chain := by
  rw [chain?, value?_shift, Option.bind_map, chain?, Option.map_bind]
  exact congrArg c.value?.bind (funext fun o => plainChain?_shift σ o.value)

theorem under_shift (c : Compiled) (step : Segment) :
    (c.under step).shift σ = (c.shift σ).under step := by
  simp only [shift, under, List.map_map, mk.injEq, and_true]
  rfl

theorem member_shift (c : Compiled) (step : Segment) :
    (c.member step).shift σ = (c.shift σ).member step := by
  simp only [shift, member, List.map_filterMap, List.filterMap_map, mk.injEq, and_true]
  refine List.filterMap_congr fun o _ => ?_
  show _ = (Target.after? step o.target).map _
  rw [Option.map_map]
  rfl

theorem append_shift (c d : Compiled) : (c ++ d).shift σ = c.shift σ ++ d.shift σ := by
  show Compiled.mk ((c.outputs ++ d.outputs).map _) _ = ⟨_ ++ _, _⟩
  rw [List.map_append]
  rfl

end Compiled

end

/-! ### Shifted states -/

/-- Of the second state, the first parameters and bindings are of no matter; the others are those
of the first state, moved on. -/
structure Collected.Shifts (σ : Shift) (c c' : Collected) : Prop where
  size : c'.pool.size = c.pool.size + σ.byParams
  params_le : σ.params ≤ c.pool.size
  slot : ∀ i, σ.params ≤ i → c'.pool.slots[i + σ.byParams]? = c.pool.slots[i]?
  length : c'.bindings.length = c.bindings.length + σ.byBindings
  bindings_le : σ.bindings ≤ c.bindings.length
  binding : ∀ i, c'.bindings[σ.binding i]? = c.bindings[i]?.map (Binding.shift σ)

section

variable {σ : Shift} {c c' : Collected}

/-- A chain that leads to a path does so with its new start, in as many steps or more. -/
theorem qualifyWithin_shift {bindings bindings' : List Binding}
    (h : ∀ i, bindings'[σ.binding i]? = bindings[i]?.map (Binding.shift σ)) {steps steps' : Nat}
    (hsteps : steps ≤ steps') {root : Root} {path path' : List String}
    (hpath : qualifyWithin bindings steps root path = .ok path') :
    qualifyWithin bindings' steps' (σ.root root) path = .ok path' := by
  induction steps generalizing steps' root path with
  | zero => cases hpath
  | succ steps ih =>
    obtain ⟨steps', rfl⟩ : ∃ n, steps' = n + 1 := ⟨steps' - 1, by omega⟩
    cases root with
    | row => exact hpath
    | binding id =>
      rw [Shift.root, qualifyWithin, h]
      rw [qualifyWithin] at hpath
      split at hpath
      · next b hb =>
        rw [hb]
        exact ih (Nat.le_of_succ_le_succ hsteps) hpath
      · cases hpath

namespace Collected.Shifts

/-- **Chains lead to the same path.** -/
theorem qualify_shift (h : c.Shifts σ c') {root : Root} {path path' : List String}
    (hpath : qualify c.bindings root path = .ok path') :
    qualify c'.bindings (σ.root root) path = .ok path' :=
  qualifyWithin_shift h.binding (by rw [h.length]; omega) hpath

theorem push (h : c.Shifts σ c') (source : ParamSource) :
    Shifts σ { c with pool := c.pool.push source } { c' with pool := c'.pool.push source } := by
  have hlength : c'.pool.slots.length = c.pool.slots.length + σ.byParams := h.size
  refine ⟨?_, ?_, fun i hi => ?_, h.length, h.bindings_le, h.binding⟩
  · simp only [Pool.size, Pool.push, List.length_append, hlength]
    omega
  · exact h.params_le.trans (by simp [Pool.size, Pool.push])
  · simp only [Pool.push]
    rcases Nat.lt_trichotomy i c.pool.slots.length with hlt | rfl | hgt
    · rw [List.getElem?_append_left (by omega), List.getElem?_append_left hlt, h.slot i hi]
    · rw [← hlength, List.getElem?_concat_length, List.getElem?_concat_length]
    · rw [List.getElem?_eq_none (by rw [List.length_append, List.length_singleton]; omega),
        List.getElem?_eq_none (by rw [List.length_append, List.length_singleton]; omega)]

theorem expand (h : c.Shifts σ c') (id : ParamId) :
    Shifts σ { c with pool := c.pool.expand id }
      { c' with pool := c'.pool.expand (σ.param id) } := by
  refine ⟨?_, ?_, fun i hi => ?_, h.length, h.bindings_le, h.binding⟩
  · simpa [Pool.size, Pool.expand] using h.size
  · simpa [Pool.size, Pool.expand] using h.params_le
  · have hsame : σ.param id = i + σ.byParams ↔ id = i := by
      rcases Nat.lt_or_ge id σ.params with hid | hid
      · rw [Shift.param, if_pos hid]
        exact iff_of_false (Nat.ne_of_lt (Nat.lt_of_lt_of_le hid (Nat.le_add_right_of_le hi)))
          (Nat.ne_of_lt (Nat.lt_of_lt_of_le hid hi))
      · rw [Shift.param_of_le hid, Nat.add_right_cancel_iff]
    simp only [Pool.expand, List.getElem?_modify, h.slot i hi, hsame]

theorem bindChain (h : c.Shifts σ c') (root : Root) (path : List String) :
    Shifts σ { c with bindings := c.bindings ++ [⟨root, path⟩] }
      { c' with bindings := c'.bindings ++ [⟨σ.root root, path⟩] } := by
  have hlength := h.length
  have hle := h.bindings_le
  refine ⟨h.size, h.params_le, h.slot, ?_, ?_, fun i => ?_⟩
  · simp only [List.length_append, hlength, List.length_singleton]
    omega
  · exact hle.trans (by simp)
  · rcases Nat.lt_trichotomy i c.bindings.length with hlt | rfl | hgt
    · have hlt' : σ.binding i < c'.bindings.length := by
        rw [hlength]
        rcases Nat.lt_or_ge i σ.bindings with hi | hi
        · rw [Shift.binding, if_pos hi]
          exact Nat.lt_add_right _ hlt
        · rw [Shift.binding_of_le hi]
          exact Nat.add_lt_add_right hlt _
      rw [List.getElem?_append_left hlt', List.getElem?_append_left hlt, h.binding i]
    · rw [Shift.binding_of_le hle, ← hlength, List.getElem?_concat_length,
        List.getElem?_concat_length]
      rfl
    · rw [Shift.binding_of_le (by omega),
        List.getElem?_eq_none (by rw [List.length_append, List.length_singleton]; omega),
        List.getElem?_eq_none (by rw [List.length_append, List.length_singleton]; omega)]
      rfl

end Collected.Shifts

/-! ### Shifted steps -/

/-- What `x` yields from a state, `x'` yields from a shifted one, with new places. -/
structure Shifts {α β : Type} (σ : Shift) (shift : α → β) (x : Compile α) (x' : Compile β) :
    Prop where
  yields : ∀ {c c' a d}, c.Shifts σ c' → Yields x c a d →
    ∃ d', Yields x' c' (shift a) d' ∧ d.Shifts σ d'

namespace Shifts

variable {α β γ δ : Type} {shift : α → β} {shift' : γ → δ} {x : Compile α} {x' : Compile β}

theorem pure {a : α} {b : β} (h : shift a = b) : Shifts σ shift (Pure.pure a) (Pure.pure b) := by
  refine ⟨fun {c c' _ d} hc hx => ?_⟩
  obtain ⟨rfl, rfl⟩ := yields_pure_iff.mp hx
  exact ⟨c', yields_pure_iff.mpr ⟨h.symm, rfl⟩, hc⟩

theorem throw (e : Error) : Shifts σ shift (MonadExcept.throw e) x' :=
  ⟨fun _ hx => absurd hx not_yields_throw⟩

theorem bind {f : α → Compile γ} {f' : β → Compile δ} (hx : Shifts σ shift x x')
    (hf : ∀ a, Shifts σ shift' (f a) (f' (shift a))) :
    Shifts σ shift' (x >>= f) (x' >>= f') := by
  refine ⟨fun hc h => ?_⟩
  obtain ⟨a, c₁, hxa, hfa⟩ := yields_bind_iff.mp h
  obtain ⟨c₁', hxa', hc₁⟩ := hx.yields hc hxa
  obtain ⟨d', hfa', hd⟩ := (hf a).yields hc₁ hfa
  exact ⟨d', yields_bind_iff.mpr ⟨_, c₁', hxa', hfa'⟩, hd⟩

/-- Nothing comes after a refusal. -/
theorem refuse_bind (e : Expr) (reason : Unsupported) (f : α → Compile γ) {x' : Compile δ} :
    Shifts σ shift' (refuse e reason >>= f) x' := by
  refine ⟨fun _ h => ?_⟩
  obtain ⟨a, c₁, hthrow, -⟩ := yields_bind_iff.mp h
  exact absurd hthrow not_yields_throw

theorem within (h : Shifts σ shift x x') (e e' : Expr) :
    Shifts σ shift (Compile.within e x) (Compile.within e' x') := by
  refine ⟨fun hc hx => ?_⟩
  obtain ⟨d', hx', hd⟩ := h.yields hc (yields_within_iff.mp hx)
  exact ⟨d', yields_within_iff.mpr hx', hd⟩

theorem ofResult (y : Result α) : Shifts σ id (Compile.ofResult y) (Compile.ofResult y) := by
  cases y with
  | error e => exact .throw e
  | ok a => exact .pure rfl

end Shifts

/-! ### Chains and expansion -/

theorem register_shifts (source : ParamSource) :
    Shifts σ σ.param (register source) (register source) := by
  refine ⟨fun {c c' id d} hc h => ?_⟩
  obtain ⟨rfl, rfl⟩ := yields_register_iff.mp h
  refine ⟨_, yields_register_iff.mpr ⟨?_, rfl⟩, hc.push source⟩
  rw [hc.size, Shift.param_of_le hc.params_le]

theorem markExpanded_shifts (id : ParamId) :
    Shifts σ (fun u => u) (markExpanded id) (markExpanded (σ.param id)) := by
  refine ⟨fun {c c' u d} hc h => ?_⟩
  obtain rfl := yields_modify_iff.mp h
  exact ⟨_, yields_modify_iff.mpr rfl, hc.expand id⟩

theorem bind_shifts (root : Root) (path : List String) :
    Shifts σ σ.binding (Compile.bind root path) (Compile.bind (σ.root root) path) := by
  refine ⟨fun {c c' id d} hc h => ?_⟩
  obtain ⟨hid, rfl⟩ := Prod.mk.inj (Eq.symm h)
  obtain rfl := Except.ok.inj hid
  refine ⟨{ c' with bindings := c'.bindings ++ [⟨σ.root root, path⟩] }, ?_, hc.bindChain root path⟩
  rw [Shift.binding_of_le hc.bindings_le, ← hc.length]
  rfl

variable {s : Statement} {scope : Scope} {r : Compiled}

theorem lookup_shifts (root : Root) (path : List String) :
    Shifts σ id (lookup s root path) (lookup s (σ.root root) path) := by
  refine ⟨fun {c c' l? d} hc h => ?_⟩
  obtain ⟨⟨path', hpath', hl⟩, rfl⟩ := yields_lookup_iff.mp h
  exact ⟨c', yields_lookup_iff.mpr ⟨⟨path', hc.qualify_shift hpath', hl⟩, rfl⟩, hc⟩

theorem compileChain_shifts (root : Root) (path : List String) (tables : List MappedTable) :
    Shifts σ (Compiled.shift σ) (compileChain s root path tables)
      (compileChain s (σ.root root) path tables) := by
  have htype : Shifts σ id (typeAt s root path) (typeAt s (σ.root root) path) := by
    refine (lookup_shifts root path).bind fun l? => ?_
    dsimp only [id]
    split <;> exact .pure rfl
  exact htype.bind fun type => .pure rfl

theorem compileMember_shifts (e base : Expr) (name : String) (r : Compiled) :
    Shifts σ (Compiled.shift σ) (compileMember s e base name r)
      (compileMember s e base name (r.shift σ)) := by
  unfold compileMember
  rw [Compiled.chain?_shift]
  cases r.chain? with
  | some chain => exact compileChain_shifts _ _ _
  | none =>
    dsimp only [Option.map_none]
    have hempty : ((r.shift σ).member (.field name)).outputs.isEmpty =
        (r.member (.field name)).outputs.isEmpty := by
      rw [← Compiled.member_shift, Compiled.shift, List.isEmpty_map]
    rw [hempty]
    split
    · exact .throw _
    · exact .pure (Compiled.member_shift σ r _)

theorem whole?_shifts (r : Compiled) :
    Shifts σ (Option.map (Prod.map id σ.chain)) (whole? s r) (whole? s (r.shift σ)) := by
  unfold whole?
  rw [Compiled.chain?_shift]
  cases r.chain? with
  | none => exact .pure rfl
  | some chain =>
    refine (lookup_shifts _ _).bind fun l? => ?_
    dsimp only [id]
    split <;> exact .pure rfl

theorem objectOf_shifts {value value' : String → Compile Compiled}
    (h : ∀ name, Shifts σ (Compiled.shift σ) (value name) (value' name)) (names : List String) :
    Shifts σ (Compiled.shift σ) (objectOf value names) (objectOf value' names) := by
  induction names with
  | nil => exact .pure rfl
  | cons name names ih =>
    refine (h name).bind fun r => ih.bind fun r' => .pure ?_
    rw [Compiled.append_shift, Compiled.under_shift]

theorem expandWith_shifts {inner : Scope → Root → List String → Compile Compiled}
    (h : ∀ scope root path, Shifts σ (Compiled.shift σ) (inner scope root path)
      (inner (scope.shift σ) (σ.root root) path)) (scope : Scope) (root : Root)
    (path : List String) :
    Shifts σ (Compiled.shift σ) (expandWith inner s scope root path)
      (expandWith inner s (scope.shift σ) (σ.root root) path) := by
  refine (lookup_shifts _ _).bind fun l? => ?_
  dsimp only [id]
  split
  · exact objectOf_shifts (fun name => h _ _ _) _
  · have htable : (scope.shift σ).table = scope.table := rfl
    rw [htable]
    split
    · exact objectOf_shifts (fun name => h _ _ _) _
    · split
      · exact (objectOf_shifts (fun name => h _ _ _) _).bind fun r => .pure rfl
      · refine (bind_shifts root path).bind fun b => ?_
        exact (objectOf_shifts (fun name => h _ (.binding b) _) _).bind fun r => .pure rfl
  · exact compileChain_shifts _ _ _

theorem expandWhole_shifts (scope : Scope) (r : Compiled) :
    Shifts σ (Compiled.shift σ) (expandWhole s scope r)
      (expandWhole s (scope.shift σ) (r.shift σ)) := by
  refine (whole?_shifts r).bind fun w? => ?_
  rcases w? with _ | ⟨w, root, path⟩
  · exact .pure rfl
  · -- A shape expands to tables and these to columns; after two rounds only chains are left.
    have hexpand : Shifts σ (Compiled.shift σ) (expand s scope root path)
        (expand s (scope.shift σ) (σ.root root) path) :=
      expandWith_shifts (fun scope root path =>
        expandWith_shifts (fun _ root path => compileChain_shifts root path []) scope root path)
        scope root path
    exact hexpand.bind fun r' => .pure rfl

end

end NestedQuery
