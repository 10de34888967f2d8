import NestedQuery.Proofs.Accumulator.Marks
import NestedQuery.Proofs.Mapping.Bindings
import NestedQuery.Proofs.Mapping.Growth

/-!
# Compiled values refer to what is registered

While a mapping is compiled, parameters and bindings are registered, and the compiled values refer
to them by their places. A value is registered if every parameter in it has a slot, marked as a list
only where the parameter is the whole set of a membership test, and every chain in it starts at the
row or at a binding (`Accumulator.IsRegistered`). Every step of the compiler goes from grounded
bindings to grounded bindings and yields registered values, or else it fails without breaking an
invariant, unless a variable is free (`Ensures`, `compile_ensures`).
-/

namespace NestedQuery

open Compile

/-! ### Registered values -/

/-- More has been collected, and the bindings are grounded. -/
structure Collected.GrowsTo (c c' : Collected) : Prop where
  /-- The parameters are there still. -/
  slots : c.pool.slots <+: c'.pool.slots
  /-- The bindings are there still. -/
  bindings : c.bindings <+: c'.bindings
  /-- Each binding starts at the row or at an earlier one. -/
  grounded : Grounded c'.bindings

/-- The leaf refers to what has been collected. `isSet` says whether it is the whole set of a
membership test. -/
def Symbol.IsRegistered (c : Collected) (isSet : Bool) : Symbol → Prop
  | .param id => c.pool.Admits id isSet
  | .column root .. => root.IsWithin c.bindings.length

/-- All leaves refer to what has been collected. -/
def Accumulator.IsRegistered (c : Collected) (isSet : Bool) (v : Accumulator Symbol) : Prop :=
  ∀ x ∈ v.roles isSet, x.1.IsRegistered c x.2

/-- All values refer to what has been collected. -/
def Compiled.IsRegistered (c : Collected) (r : Compiled) : Prop :=
  ∀ o ∈ r.outputs, o.value.IsRegistered c false

/-- The value refers to what has been collected. -/
def Operand.IsRegistered (c : Collected) (o : Operand) : Prop :=
  o.value.IsRegistered c false

/-- All branches refer to what has been collected. -/
def CompiledBranches.IsRegistered (c : Collected) (bs : CompiledBranches) : Prop :=
  ∀ b ∈ bs.branches, b.1.IsRegistered c false ∧ b.2.IsRegistered c false

/-- All parameters stand for bindings that have been collected. -/
def Scope.IsRegistered (c : Collected) (scope : Scope) : Prop :=
  ∀ p ∈ scope.locals, p.2 < c.bindings.length

section

variable {c c' c₁ : Collected}

namespace Collected.GrowsTo

theorem refl (hc : Grounded c.bindings) : c.GrowsTo c :=
  ⟨List.prefix_rfl, List.prefix_rfl, hc⟩

theorem trans (h : c.GrowsTo c₁) (h' : c₁.GrowsTo c') : c.GrowsTo c' :=
  ⟨h.slots.trans h'.slots, h.bindings.trans h'.bindings, h'.grounded⟩

theorem length_le (h : c.GrowsTo c') : c.bindings.length ≤ c'.bindings.length :=
  h.bindings.length_le

end Collected.GrowsTo

theorem Symbol.IsRegistered.mono {isSet : Bool} {a : Symbol} (h : a.IsRegistered c isSet)
    (hc : c.GrowsTo c') : a.IsRegistered c' isSet := by
  cases a with
  | param id => exact Pool.Admits.mono h hc.slots
  | column root path into function => exact Root.IsWithin.mono h hc.length_le

namespace Accumulator.IsRegistered

variable {isSet : Bool} {v left right : Accumulator Symbol}
  {branches : List (Accumulator Symbol × Accumulator Symbol)}

theorem mono (h : v.IsRegistered c isSet) (hc : c.GrowsTo c') : v.IsRegistered c' isSet :=
  fun x hx => (h x hx).mono hc

/-- What is registered as a part of something is registered as a set too. -/
theorem toSet (h : v.IsRegistered c false) : v.IsRegistered c true := by
  cases hleaf : v.isLeaf with
  | false =>
    rw [IsRegistered, roles_eq_of_not_isLeaf hleaf true false]
    exact h
  | true =>
    cases v with
    | leaf a =>
      intro x hx
      rw [List.mem_singleton.mp hx]
      have ha := h (a, false) (List.mem_singleton_self _)
      cases a with
      | param id => exact Pool.Admits.toSet ha
      | column root path into function => exact ha
    | _ => cases hleaf

theorem leaf {a : Symbol} (h : a.IsRegistered c isSet) :
    (Accumulator.leaf a).IsRegistered c isSet := by
  intro x hx
  rw [List.mem_singleton.mp hx]
  exact h

theorem param {id : ParamId} {expanded : Bool} (h : c.pool.Marks id expanded)
    (hset : expanded = true → isSet = true) :
    (Accumulator.leaf (.param id)).IsRegistered c isSet :=
  leaf ⟨expanded, h, hset⟩

theorem chain {root : Root} (h : root.IsWithin c.bindings.length) (path : List String) :
    (chainLeaf root path).IsRegistered c false :=
  leaf h

theorem binary {op : BinaryOp} (hin : op ≠ .isIn) (hl : left.IsRegistered c false)
    (hr : right.IsRegistered c false) :
    (Accumulator.binary op left right).IsRegistered c isSet := by
  rw [IsRegistered, roles_binary hin]
  exact List.forall_mem_append.mpr ⟨hl, hr⟩

theorem isIn (hl : left.IsRegistered c false) (hr : right.IsRegistered c true) :
    (Accumulator.binary .isIn left right).IsRegistered c isSet :=
  List.forall_mem_append.mpr ⟨hl, hr⟩

theorem wrap (op : Wrapper) (h : v.IsRegistered c false) :
    (Accumulator.wrap op v).IsRegistered c isSet :=
  h

theorem cases (hbs : ∀ b ∈ branches, b.1.IsRegistered c false ∧ b.2.IsRegistered c false)
    (h : v.IsRegistered c false) : (Accumulator.cases branches v).IsRegistered c isSet :=
  List.forall_mem_append.mpr ⟨forall_mem_rolesOfBranches_iff.mpr hbs, h⟩

theorem casesOf (hk : left.IsRegistered c false)
    (hbs : ∀ b ∈ branches, b.1.IsRegistered c false ∧ b.2.IsRegistered c false)
    (h : v.IsRegistered c false) : (Accumulator.casesOf left branches v).IsRegistered c isSet :=
  List.forall_mem_append.mpr
    ⟨hk, List.forall_mem_append.mpr ⟨forall_mem_rolesOfBranches_iff.mpr hbs, h⟩⟩

/-- Folding leaves into a table moves none of them. -/
theorem foldedInto (h : v.IsRegistered c false) (t : TableId) :
    (v.map (Symbol.foldedInto t)).IsRegistered c false := by
  rw [IsRegistered, roles_map, List.forall_mem_map]
  intro x hx
  obtain ⟨a, isSet⟩ := x
  have ha := h (a, isSet) hx
  cases a with
  | param id => exact ha
  | column root path into function =>
    cases into with
    | none => exact ha
    | some u => exact ha

/-- The chains of registered values start at known bindings. -/
theorem isRooted (h : v.IsRegistered c isSet) : v.IsRooted c.bindings := by
  intro a ha root hroot
  rw [← map_fst_roles isSet v] at ha
  obtain ⟨⟨a, isSet'⟩, hx, rfl⟩ := List.mem_map.mp ha
  have ha := h _ hx
  cases a with
  | param id => cases hroot
  | column root' path into function =>
    obtain rfl := Option.some.inj hroot
    exact ha

end Accumulator.IsRegistered

namespace Compiled

variable {r r' : Compiled}

theorem IsRegistered.mono (h : r.IsRegistered c) (hc : c.GrowsTo c') : r.IsRegistered c' :=
  fun o ho => (h o ho).mono hc

theorem isRegistered_empty : IsRegistered c {} :=
  fun _ ho => absurd ho List.not_mem_nil

theorem isRegistered_ofValue {v : Accumulator Symbol} (h : v.IsRegistered c false)
    (type : ValueType) (tables : List MappedTable) : (ofValue v type tables).IsRegistered c := by
  intro o ho
  rw [List.mem_singleton.mp ho]
  exact h

theorem IsRegistered.append (h : r.IsRegistered c) (h' : r'.IsRegistered c) :
    (r ++ r').IsRegistered c :=
  List.forall_mem_append.mpr ⟨h, h'⟩

theorem IsRegistered.under (h : r.IsRegistered c) (step : Segment) :
    (r.under step).IsRegistered c := by
  intro o ho
  obtain ⟨o', ho', rfl⟩ := List.mem_map.mp ho
  exact h o' ho'

theorem IsRegistered.member (h : r.IsRegistered c) (step : Segment) :
    (r.member step).IsRegistered c := by
  intro o ho
  obtain ⟨o', ho', ho⟩ := List.mem_filterMap.mp ho
  obtain ⟨_, -, rfl⟩ := Option.map_eq_some_iff.mp ho
  exact h o' ho'

theorem IsRegistered.value? (h : r.IsRegistered c) {o : Output Symbol} (ho : r.value? = some o) :
    o.value.IsRegistered c false :=
  h o (mem_outputs_of_value? ho)

theorem IsRegistered.chain? (h : r.IsRegistered c) {root : Root} {path : List String}
    (hchain : r.chain? = some (root, path)) : root.IsWithin c.bindings.length := by
  obtain ⟨o, ho, hleaf⟩ := chain?_eq_some_iff.mp hchain
  have hvalue := h.value? ho
  rw [hleaf] at hvalue
  exact hvalue _ (List.mem_singleton_self _)

end Compiled

theorem Operand.IsRegistered.mono {o : Operand} (h : o.IsRegistered c) (hc : c.GrowsTo c') :
    o.IsRegistered c' :=
  Accumulator.IsRegistered.mono h hc

theorem CompiledBranches.IsRegistered.mono {bs : CompiledBranches} (h : bs.IsRegistered c)
    (hc : c.GrowsTo c') : bs.IsRegistered c' :=
  fun b hb => ⟨(h b hb).1.mono hc, (h b hb).2.mono hc⟩

theorem CompiledBranches.isRegistered_empty : CompiledBranches.IsRegistered c {} :=
  fun _ hb => absurd hb List.not_mem_nil

theorem CompiledBranches.IsRegistered.cons {bs : CompiledBranches} {test value : Operand}
    (h : bs.IsRegistered c) (ht : test.IsRegistered c) (hv : value.IsRegistered c) :
    (bs.cons test value).IsRegistered c :=
  List.forall_mem_cons.mpr ⟨⟨ht, hv⟩, h⟩

namespace Scope

variable {scope : Scope}

theorem isRegistered_outermost (c : Collected) : IsRegistered c .outermost :=
  fun _ hp => absurd hp List.not_mem_nil

theorem IsRegistered.mono (h : scope.IsRegistered c) (hc : c.GrowsTo c') :
    scope.IsRegistered c' :=
  fun p hp => Nat.lt_of_lt_of_le (h p hp) hc.length_le

theorem IsRegistered.range (h : scope.IsRegistered c) {range : Range}
    (hrange : range.binding < c.bindings.length) (param : String) :
    (range.scope scope param).IsRegistered c :=
  List.forall_mem_cons.mpr ⟨hrange, h⟩

theorem IsRegistered.lookup (h : scope.IsRegistered c) {name : String} {b : BindingId}
    (hb : scope.locals.lookup name = some b) : b < c.bindings.length := by
  obtain ⟨before, after, hlocals, -⟩ := List.lookup_eq_some_iff.mp hb
  exact h (name, b) (by rw [hlocals]; simp)

end Scope

end

/-! ### What a step ensures -/

/-- From what has been collected, the step yields what has the property, and the bindings are
grounded then; or it fails, and breaks no invariant unless one of the variables `unbound` is
used. -/
structure Ensures {α : Type} (unbound : String → Prop) (Q : Collected → α → Prop) (c : Collected)
    (x : Compile α) : Prop where
  yields {a : α} {c' : Collected} : Yields x c a c' → c.GrowsTo c' ∧ Q c' a
  fails {e : Error} : Fails x c e → e.IsOrdinary unbound

namespace Ensures

variable {α β : Type} {unbound : String → Prop} {Q : Collected → α → Prop}
  {R : Collected → β → Prop} {c : Collected} {x : Compile α}

theorem pure {a : α} (hc : Grounded c.bindings) (h : Q c a) :
    Ensures unbound Q c (Pure.pure a) := by
  refine ⟨fun hx => ?_, fun hx => absurd hx not_fails_pure⟩
  obtain ⟨rfl, rfl⟩ := yields_pure_iff.mp hx
  exact ⟨.refl hc, h⟩

theorem throw {e : Error} (h : e.IsOrdinary unbound) :
    Ensures unbound Q c (MonadExcept.throw e) := by
  refine ⟨fun hx => absurd hx not_yields_throw, fun hx => ?_⟩
  rw [← fails_throw_iff.mp hx]
  exact h

theorem refuse (e : Expr) (reason : Unsupported) :
    Ensures unbound Q c (Compile.refuse e reason) :=
  throw (Error.isOrdinary_unsupported _ _)

theorem bind {f : α → Compile β} (hx : Ensures unbound Q c x)
    (hf : ∀ a c₁, c.GrowsTo c₁ → Q c₁ a → Ensures unbound R c₁ (f a)) :
    Ensures unbound R c (x >>= f) := by
  constructor
  · intro b c' h
    obtain ⟨a, c₁, hxa, hfa⟩ := yields_bind_iff.mp h
    obtain ⟨hc₁, ha⟩ := hx.yields hxa
    obtain ⟨hc', hb⟩ := (hf a c₁ hc₁ ha).yields hfa
    exact ⟨hc₁.trans hc', hb⟩
  · intro e h
    rcases fails_bind_iff.mp h with h | ⟨a, c₁, hxa, hfa⟩
    · exact hx.fails h
    · obtain ⟨hc₁, ha⟩ := hx.yields hxa
      exact (hf a c₁ hc₁ ha).fails hfa

/-- Nothing comes after a refusal. -/
theorem refuse_bind (e : Expr) (reason : Unsupported) (f : α → Compile β) :
    Ensures unbound R c (Compile.refuse e reason >>= f) :=
  bind (Q := fun _ _ => False) (refuse e reason) fun _ _ _ h => h.elim

/-- A last step that only puts together what is there. -/
theorem map {f : α → β} (hx : Ensures unbound Q c x)
    (hf : ∀ a c₁, c.GrowsTo c₁ → Q c₁ a → R c₁ (f a)) :
    Ensures unbound R c (x >>= fun a => Pure.pure (f a)) :=
  hx.bind fun a c₁ hc₁ ha => pure hc₁.grounded (hf a c₁ hc₁ ha)

theorem mono {Q' : Collected → α → Prop} (hx : Ensures unbound Q c x)
    (hQ : ∀ a c₁, Q c₁ a → Q' c₁ a) : Ensures unbound Q' c x :=
  ⟨fun h => ⟨(hx.yields h).1, hQ _ _ (hx.yields h).2⟩, hx.fails⟩

theorem within (hx : Ensures unbound Q c x) (e : Expr) :
    Ensures unbound Q c (Compile.within e x) := by
  refine ⟨fun h => hx.yields (yields_within_iff.mp h), fun {err} h => ?_⟩
  -- A breadcrumb does not change the root cause.
  unfold Compile.within at h
  rcases yields_or_fails x c with ⟨a, c', hxa⟩ | ⟨err', hx'⟩
  · exact absurd h ((yields_within_iff.mpr hxa).not_fails err)
  · have herr : err = err'.wrap e.text := by
      unfold Fails at h hx'
      rw [ExceptT.run_tryCatch, StateT.run_bind] at h
      rcases hrun : x.run.run c with ⟨_ | _, c'⟩
      · rw [hrun] at h hx'
        obtain rfl := Except.error.inj hx'
        exact (Except.error.inj h).symm
      · rw [hrun] at hx'
        cases hx'
    rw [herr]
    exact (hx.fails hx').wrap _

theorem ofResult {y : Result α} (hc : Grounded c.bindings) (hy : y.IsOrdinary unbound) :
    Ensures unbound (fun c₁ a => c₁ = c ∧ y = .ok a) c (Compile.ofResult y) := by
  cases y with
  | error e => exact throw (hy e rfl)
  | ok a => exact pure hc ⟨rfl, rfl⟩

theorem register (hc : Grounded c.bindings) (source : ParamSource) :
    Ensures unbound (fun c₁ id => c₁.pool.Marks id false) c (Compile.register source) := by
  refine ⟨fun h => ?_, fun h => ?_⟩
  · obtain ⟨rfl, rfl⟩ := yields_register_iff.mp h
    exact ⟨⟨Pool.prefix_push _ _, List.prefix_rfl, hc⟩, Pool.marks_push _ _⟩
  · exact absurd h ((yields_register_iff.mpr ⟨rfl, rfl⟩).not_fails _)

/-- A new binding for a chain that starts at a known one. -/
theorem bindChain (hc : Grounded c.bindings) {root : Root}
    (hroot : root.IsWithin c.bindings.length) (path : List String) :
    Ensures unbound (fun c₁ b => b < c₁.bindings.length) c (Compile.bind root path) := by
  have hyields : Yields (Compile.bind root path) c c.bindings.length
      { c with bindings := c.bindings ++ [⟨root, path⟩] } := rfl
  refine ⟨fun h => ?_, fun h => absurd h (hyields.not_fails _)⟩
  obtain ⟨hb, rfl⟩ := Prod.mk.inj (Eq.symm h)
  obtain rfl := Except.ok.inj hb
  refine ⟨⟨List.prefix_rfl, List.prefix_append _ _, hc.concat hroot⟩, ?_⟩
  rw [List.length_append]
  exact Nat.lt_succ_self _

theorem lookup (hc : Grounded c.bindings) (s : Statement) {root : Root}
    (hroot : root.IsWithin c.bindings.length) (path : List String) :
    Ensures unbound (fun c₁ _ => c₁ = c) c (Compile.lookup s root path) := by
  obtain ⟨path', hpath'⟩ := hc.exists_qualify_eq_ok hroot path
  have hyields : Yields (Compile.lookup s root path) c (s.lookup? path') c :=
    yields_lookup_iff.mpr ⟨⟨path', hpath', rfl⟩, rfl⟩
  refine ⟨fun h => ?_, fun h => absurd h (hyields.not_fails _)⟩
  obtain ⟨-, rfl⟩ := yields_lookup_iff.mp h
  exact ⟨.refl hc, rfl⟩

end Ensures

end NestedQuery
