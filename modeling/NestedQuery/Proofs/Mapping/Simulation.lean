import NestedQuery.Proofs.Mapping.Arguments
import NestedQuery.Proofs.Mapping.Growth

/-!
# Compiling with the arguments put in

Where the arguments are known, an expression over them may as well be compiled with the arguments
put in as constants. The two compilations go in lockstep: one leaves expressions over the arguments
for later, the other evaluates them at once, and apart from that they collect the same
(`compile_simulates`). The second fails early where a value of the first fails late; so the first
is followed by the second if all its parameters have a value in the end, and the second by the
first always. Types differ, since the type of an argument is not known when it is left for later.
-/

namespace NestedQuery

open Compile
open NestedQuery.Expr (HaveValues)

/-! ### Results without their types -/

/-- The output without its type. -/
def Output.untyped {α : Type} (o : Output α) : Output α :=
  { o with type := .any }

/-- The result without its types. -/
def Compiled.untyped (c : Compiled) : Compiled :=
  ⟨c.outputs.map Output.untyped, c.tables⟩

/-- The results are the same apart from types. -/
def Compiled.Alike (c c' : Compiled) : Prop :=
  c.untyped = c'.untyped

/-- The operands are the same apart from types. -/
structure Operand.Alike (o o' : Operand) : Prop where
  value : o.value = o'.value
  tables : o.tables = o'.tables

/-- The branches are the same apart from types. -/
structure CompiledBranches.Alike (bs bs' : CompiledBranches) : Prop where
  branches : bs.branches = bs'.branches
  tables : bs.tables = bs'.tables

namespace Compiled

theorem value?_untyped (c : Compiled) : c.untyped.value? = c.value?.map Output.untyped := by
  obtain ⟨outputs, tables⟩ := c
  match outputs with
  | [] => rfl
  | [o] =>
    show (if o.target = [] then some o.untyped else none) =
      (if o.target = [] then some o else none).map Output.untyped
    split <;> rfl
  | _ :: _ :: _ => rfl

theorem chain?_untyped (c : Compiled) : c.untyped.chain? = c.chain? := by
  rw [chain?, value?_untyped, Option.bind_map]
  rfl

theorem under_untyped (c : Compiled) (s : Segment) : (c.under s).untyped = c.untyped.under s := by
  rw [untyped, under, untyped, under, List.map_map, List.map_map]
  rfl

theorem member_untyped (c : Compiled) (s : Segment) :
    (c.member s).untyped = c.untyped.member s := by
  simp only [untyped, member, List.map_filterMap, List.filterMap_map, mk.injEq, and_true]
  refine List.filterMap_congr fun o _ => ?_
  show _ = (Target.after? s o.target).map _
  rw [Option.map_map]
  rfl

theorem append_untyped (c d : Compiled) : (c ++ d).untyped = c.untyped ++ d.untyped := by
  show Compiled.mk ((c.outputs ++ d.outputs).map _) _ = ⟨_ ++ _, _⟩
  rw [List.map_append]
  rfl

namespace Alike

variable {c c' d d' : Compiled}

theorem refl (c : Compiled) : c.Alike c :=
  rfl

theorem ofValue (value : Accumulator Symbol) (type type' : ValueType) (tables : List MappedTable) :
    (ofValue value type tables).Alike (.ofValue value type' tables) :=
  rfl

theorem tables (h : c.Alike c') : c.tables = c'.tables := by
  have htables : c.untyped.tables = c'.untyped.tables := congrArg Compiled.tables h
  exact htables

theorem chain? (h : c.Alike c') : c.chain? = c'.chain? := by
  rw [← chain?_untyped, h, chain?_untyped]

theorem under (h : c.Alike c') (s : Segment) : (c.under s).Alike (c'.under s) := by
  rw [Alike, under_untyped, h, under_untyped]

theorem member (h : c.Alike c') (s : Segment) : (c.member s).Alike (c'.member s) := by
  rw [Alike, member_untyped, h, member_untyped]

theorem append (h : c.Alike c') (h' : d.Alike d') : (c ++ d).Alike (c' ++ d') := by
  rw [Alike, append_untyped, h, h', append_untyped]

theorem withTables (h : c.Alike c') (tables : List MappedTable) :
    Alike { c with tables := tables } { c' with tables := tables } :=
  congrArg (fun outputs => Compiled.mk outputs tables) (congrArg Compiled.outputs h)

end Alike

end Compiled

/-! ### Steps in lockstep -/

/-- The parameter has been evaluated for the arguments. -/
def Slot.Settles (arguments : Document) (slot slot' : Slot) : Prop :=
  ∃ v, Pool.sourceValue arguments slot.source = .ok v ∧ slot' = ⟨.value v, slot.expanded⟩

/-- All parameters have been evaluated for the arguments. -/
def Pool.Settles (arguments : Document) (p p' : Pool) : Prop :=
  List.Forall₂ (Slot.Settles arguments) p.slots p'.slots

/-- The same has been collected, and the parameters have been evaluated. -/
structure Collected.Settles (arguments : Document) (c c' : Collected) : Prop where
  pool : c.pool.Settles arguments c'.pool
  bindings : c'.bindings = c.bindings

/-- Every parameter has a value for the arguments. -/
def Pool.HasValues (arguments : Document) (p : Pool) : Prop :=
  ∀ source ∈ p.sources, ∃ v, sourceValue arguments source = .ok v

theorem Pool.HasValues.mono {arguments : Document} {p p' : Pool} (h : p'.HasValues arguments)
    (hp : p.sources <+: p'.sources) : p.HasValues arguments :=
  fun source hsource => h source (hp.subset hsource)

/-- The step `x'` does what `x` does, except that it evaluates parameters at once. -/
structure Simulates {α β : Type} (arguments : Document) (R : α → β → Prop) (x : Compile α)
    (x' : Compile β) : Prop where
  /-- What `x` yields, `x'` yields too, if the parameters have values. -/
  forward : ∀ {c c' a c₁}, c.Settles arguments c' → Yields x c a c₁ →
    c₁.pool.HasValues arguments → ∃ a' c₁', Yields x' c' a' c₁' ∧ R a a' ∧ c₁.Settles arguments c₁'
  /-- What `x'` yields, `x` yields too. -/
  backward : ∀ {c c' a' c₁'}, c.Settles arguments c' → Yields x' c' a' c₁' →
    ∃ a c₁, Yields x c a c₁ ∧ R a a' ∧ c₁.Settles arguments c₁'

namespace Simulates

variable {α β γ δ : Type} {arguments : Document} {R : α → β → Prop} {S : γ → δ → Prop}

theorem mono {x : Compile α} {x' : Compile β} {R' : α → β → Prop} (h : Simulates arguments R x x')
    (hR : ∀ a a', R a a' → R' a a') : Simulates arguments R' x x' := by
  refine ⟨fun hc hx hvalues => ?_, fun hc hx' => ?_⟩
  · obtain ⟨a', c₁', hx', ha, hc₁⟩ := h.forward hc hx hvalues
    exact ⟨a', c₁', hx', hR _ _ ha, hc₁⟩
  · obtain ⟨a, c₁, hx, ha, hc₁⟩ := h.backward hc hx'
    exact ⟨a, c₁, hx, hR _ _ ha, hc₁⟩

/-- The values at the end are values after the first step, since parameters are only added. -/
theorem bind {x : Compile α} {x' : Compile β} {f : α → Compile γ} {f' : β → Compile δ}
    [∀ a, Grows (f a)] (hx : Simulates arguments R x x')
    (hf : ∀ a a', R a a' → Simulates arguments S (f a) (f' a')) :
    Simulates arguments S (x >>= f) (x' >>= f') := by
  refine ⟨fun hc h hvalues => ?_, fun hc h => ?_⟩
  · obtain ⟨a, c₁, hxa, hfa⟩ := yields_bind_iff.mp h
    have hvalues₁ := hvalues.mono (Grows.prefix_sources hfa)
    obtain ⟨a', c₁', hxa', ha, hc₁⟩ := hx.forward hc hxa hvalues₁
    obtain ⟨b', c₂', hfa', hb, hc₂⟩ := (hf a a' ha).forward hc₁ hfa hvalues
    exact ⟨b', c₂', yields_bind_iff.mpr ⟨a', c₁', hxa', hfa'⟩, hb, hc₂⟩
  · obtain ⟨a', c₁', hxa', hfa'⟩ := yields_bind_iff.mp h
    obtain ⟨a, c₁, hxa, ha, hc₁⟩ := hx.backward hc hxa'
    obtain ⟨b, c₂, hfa, hb, hc₂⟩ := (hf a a' ha).backward hc₁ hfa'
    exact ⟨b, c₂, yields_bind_iff.mpr ⟨a, c₁, hxa, hfa⟩, hb, hc₂⟩

theorem pure {a : α} {b : β} (h : R a b) :
    Simulates arguments R (Pure.pure a) (Pure.pure b) := by
  refine ⟨fun hc hx _ => ?_, fun hc hx => ?_⟩
  · obtain ⟨rfl, rfl⟩ := yields_pure_iff.mp hx
    exact ⟨b, _, yields_pure_iff.mpr ⟨rfl, rfl⟩, h, hc⟩
  · obtain ⟨rfl, rfl⟩ := yields_pure_iff.mp hx
    exact ⟨a, _, yields_pure_iff.mpr ⟨rfl, rfl⟩, h, hc⟩

theorem throw (e e' : Error) :
    Simulates arguments R (MonadExcept.throw e) (MonadExcept.throw e') :=
  ⟨fun _ h => absurd h not_yields_throw, fun _ h => absurd h not_yields_throw⟩

theorem refuse_bind (e e' : Expr) (reason reason' : Unsupported) (f : α → Compile γ)
    (f' : β → Compile δ) :
    Simulates arguments S (refuse e reason >>= f) (refuse e' reason' >>= f') := by
  refine ⟨fun _ h => ?_, fun _ h => ?_⟩
  · obtain ⟨_, _, h, -⟩ := yields_bind_iff.mp h
    exact absurd h not_yields_throw
  · obtain ⟨_, _, h, -⟩ := yields_bind_iff.mp h
    exact absurd h not_yields_throw

theorem within {x : Compile α} {x' : Compile β} (h : Simulates arguments R x x') (e e' : Expr) :
    Simulates arguments R (Compile.within e x) (Compile.within e' x') := by
  refine ⟨fun hc hx hvalues => ?_, fun hc hx => ?_⟩
  · obtain ⟨a', c₁', hx', h⟩ := h.forward hc (yields_within_iff.mp hx) hvalues
    exact ⟨a', c₁', yields_within_iff.mpr hx', h⟩
  · obtain ⟨a, c₁, hx, h⟩ := h.backward hc (yields_within_iff.mp hx)
    exact ⟨a, c₁, yields_within_iff.mpr hx, h⟩

/-- A step that does not look at the parameters does the same. -/
theorem of_steady (x : Compile α) [Steady x] : Simulates arguments Eq x x := by
  refine ⟨fun {c c' a c₁} hc hx _ => ?_, fun {c c' a' c₁'} hc hx => ?_⟩
  · obtain ⟨hpool, h⟩ := Steady.withPool hx
    have hx' := h c'.pool
    rw [← hc.bindings] at hx'
    exact ⟨a, _, hx', rfl, ⟨hpool ▸ hc.pool, rfl⟩⟩
  · obtain ⟨hpool, h⟩ := Steady.withPool hx
    have hx' := h c.pool
    rw [hc.bindings] at hx'
    exact ⟨a', _, hx', rfl, ⟨hpool.symm ▸ hc.pool, rfl⟩⟩

/-- A step that does not look at the parameters may stand in front. -/
theorem bind_of_steady {x : Compile α} [Steady x] {f : α → Compile γ} {f' : α → Compile δ}
    (hgrows : Grows (x >>= f)) (hf : ∀ a, Simulates arguments S (f a) (f' a)) :
    Simulates arguments S (x >>= f) (x >>= f') := by
  have hx : Simulates arguments Eq x x := of_steady x
  refine ⟨fun hc h hvalues => ?_, fun hc h => ?_⟩
  · obtain ⟨a, c₁, hxa, hfa⟩ := yields_bind_iff.mp h
    have hvalues₁ : c₁.pool.HasValues arguments := by
      rw [(Steady.withPool hxa).1]
      exact hvalues.mono (hgrows.prefix_sources h)
    obtain ⟨a', c₁', hxa', ha, hc₁⟩ := hx.forward hc hxa hvalues₁
    subst ha
    obtain ⟨b', c₂', hfa', hb, hc₂⟩ := (hf a).forward hc₁ hfa hvalues
    exact ⟨b', c₂', yields_bind_iff.mpr ⟨a, c₁', hxa', hfa'⟩, hb, hc₂⟩
  · obtain ⟨a, c₁', hxa', hfa'⟩ := yields_bind_iff.mp h
    obtain ⟨a', c₁, hxa, ha, hc₁⟩ := hx.backward hc hxa'
    subst ha
    obtain ⟨b, c₂, hfa, hb, hc₂⟩ := (hf a').backward hc₁ hfa'
    exact ⟨b, c₂, yields_bind_iff.mpr ⟨a', c₁, hxa, hfa⟩, hb, hc₂⟩

end Simulates

/-! ### Parameters -/

theorem Pool.Settles.size {arguments : Document} {p p' : Pool} (h : p.Settles arguments p') :
    p'.size = p.size :=
  h.length_eq.symm

theorem map_expanded_of_settles {arguments : Document} {slots slots' : List Slot}
    (h : List.Forall₂ (Slot.Settles arguments) slots slots') :
    slots'.map Slot.expanded = slots.map Slot.expanded := by
  induction h with
  | nil => rfl
  | cons hslot _ ih =>
    obtain ⟨v, -, rfl⟩ := hslot
    rw [List.map_cons, List.map_cons, ih]

/-- Evaluating changes no marks. -/
theorem Pool.Settles.isExpanded {arguments : Document} {p p' : Pool} (h : p.Settles arguments p')
    (id : ParamId) : p'.isExpanded id = p.isExpanded id := by
  rw [Pool.isExpanded, Pool.isExpanded, ← List.getElem?_map, ← List.getElem?_map,
    map_expanded_of_settles h]

namespace Collected.Settles

variable {arguments : Document} {c c' : Collected}

theorem push (hc : c.Settles arguments c') {source : ParamSource} {v : Value}
    (hv : Pool.sourceValue arguments source = .ok v) :
    Settles arguments { c with pool := c.pool.push source }
      { c' with pool := c'.pool.push (.value v) } :=
  ⟨List.rel_append hc.pool (.cons ⟨v, hv, rfl⟩ .nil), hc.bindings⟩

theorem expand (hc : c.Settles arguments c') (id : ParamId) :
    Settles arguments { c with pool := c.pool.expand id }
      { c' with pool := c'.pool.expand id } := by
  refine ⟨forall₂_modify hc.pool (fun slot slot' hslot => ?_) id, hc.bindings⟩
  obtain ⟨v, hv, rfl⟩ := hslot
  exact ⟨v, hv, rfl⟩

end Collected.Settles

section

variable {arguments : Document} {e : Expr} {c c' : Collected} {p : ParamId × ValueType}

/-- An expression over the arguments is left for later. -/
theorem yields_registerParameter_iff_of_readsArgs (h : e.readsArgs = true) :
    Yields (registerParameter e) c p c' ↔
      p = (c.pool.size, .any) ∧ c' = { c with pool := c.pool.push (.deferred e) } := by
  simp only [registerParameter, if_pos h, yields_bind_iff, yields_register_iff, yields_pure_iff]
  constructor
  · rintro ⟨_, _, ⟨rfl, rfl⟩, rfl, rfl⟩
    exact ⟨rfl, rfl⟩
  · rintro ⟨rfl, rfl⟩
    exact ⟨_, _, ⟨rfl, rfl⟩, rfl, rfl⟩

/-- Any other expression is evaluated at once. -/
theorem yields_registerParameter_iff_of_not_readsArgs (h : e.readsArgs = false) :
    Yields (registerParameter e) c p c' ↔ ∃ v, e.evaluate .null = .ok v ∧
      p = (c.pool.size, v.type) ∧ c' = { c with pool := c.pool.push (.value v) } := by
  simp only [registerParameter, h, if_neg Bool.false_ne_true, yields_bind_iff, yields_within_iff,
    yields_ofResult_iff, yields_register_iff, yields_pure_iff]
  constructor
  · rintro ⟨v, _, ⟨hv, rfl⟩, _, _, ⟨rfl, rfl⟩, rfl, rfl⟩
    exact ⟨v, hv, rfl, rfl⟩
  · rintro ⟨v, hv, rfl, rfl⟩
    exact ⟨v, _, ⟨hv, rfl⟩, _, _, ⟨rfl, rfl⟩, rfl, rfl⟩

/-- **A parameter** with the arguments put in is evaluated at once. -/
theorem registerParameter_simulates (h : HaveValues arguments e.argumentPaths) :
    Simulates arguments (fun p p' => p.1 = p'.1) (registerParameter e)
      (registerParameter (e.onArguments arguments)) := by
  have hput : (e.onArguments arguments).readsArgs = false := Expr.readsArgs_onArguments e
  refine ⟨fun {c c' p c₁} hc hyields hvalues => ?_, fun {c c' p' c₁'} hc hyields => ?_⟩
  · obtain ⟨source, v, hsource, hvalue, hid, rfl⟩ : ∃ source v,
        Pool.sourceValue arguments source = .ok v ∧ e.evaluate arguments = .ok v ∧
          p.1 = c.pool.size ∧ c₁ = { c with pool := c.pool.push source } := by
      -- An expression over the arguments has a value because all parameters have one in the end.
      cases hargs : e.readsArgs with
      | true =>
        obtain ⟨rfl, rfl⟩ := (yields_registerParameter_iff_of_readsArgs hargs).mp hyields
        obtain ⟨v, hv⟩ := hvalues (.deferred e) (by
          rw [Pool.sources_push]
          exact List.mem_append_right _ (List.mem_singleton_self _))
        exact ⟨_, v, hv, hv, rfl, rfl⟩
      | false =>
        obtain ⟨v, hv, rfl, rfl⟩ :=
          (yields_registerParameter_iff_of_not_readsArgs hargs).mp hyields
        rw [Expr.evaluate_eq_of_not_readsArgs .null arguments e hargs] at hv
        exact ⟨.value v, v, rfl, hv, rfl, rfl⟩
    refine ⟨_, _, (yields_registerParameter_iff_of_not_readsArgs hput).mpr
      ⟨v, (Expr.evaluate_onArguments_eq_ok_iff h).mpr hvalue, rfl, rfl⟩, ?_, hc.push hsource⟩
    exact hid.trans hc.pool.size.symm
  · obtain ⟨v, hv, rfl, rfl⟩ := (yields_registerParameter_iff_of_not_readsArgs hput).mp hyields
    have hvalue := (Expr.evaluate_onArguments_eq_ok_iff h).mp hv
    cases hargs : e.readsArgs with
    | true =>
      exact ⟨_, _, (yields_registerParameter_iff_of_readsArgs hargs).mpr ⟨rfl, rfl⟩,
        hc.pool.size.symm, hc.push hvalue⟩
    | false =>
      -- Nothing was put in: the expression has the same value for no arguments.
      have hnull := hvalue
      rw [← Expr.evaluate_eq_of_not_readsArgs .null arguments e hargs] at hnull
      exact ⟨_, _, (yields_registerParameter_iff_of_not_readsArgs hargs).mpr ⟨v, hnull, rfl, rfl⟩,
        hc.pool.size.symm, hc.push rfl⟩

theorem compileParameter_simulates (h : HaveValues arguments e.argumentPaths) :
    Simulates arguments Compiled.Alike (compileParameter e)
      (compileParameter (e.onArguments arguments)) :=
  (registerParameter_simulates h).bind fun p p' hp => by
    obtain ⟨id, type⟩ := p
    obtain ⟨id', type'⟩ := p'
    obtain rfl : id = id' := hp
    exact .pure (.ofValue ..)

end

/-! ### Chains and operands -/

section

variable {s : Statement} {scope : Scope} {arguments : Document} {c c' : Compiled} {o o' : Operand}

/-- A step that does not look at the parameters, for a result that is the same apart from types. -/
theorem Simulates.alike_of_steady (x : Compile Compiled) [Steady x] :
    Simulates arguments Compiled.Alike x x :=
  (Simulates.of_steady x).mono fun a _ h => h ▸ .refl a

theorem Compiled.Alike.whole? (h : c.Alike c') : whole? s c = whole? s c' := by
  rw [NestedQuery.whole?, NestedQuery.whole?, h.chain?]

/-- Alike results are both one value or neither is. -/
theorem Compiled.Alike.value? (h : c.Alike c') :
    (c.value? = none ∧ c'.value? = none) ∨
      ∃ out out', c.value? = some out ∧ c'.value? = some out' ∧ out.value = out'.value := by
  have hvalue : c.value?.map Output.untyped = c'.value?.map Output.untyped := by
    rw [← value?_untyped, h, value?_untyped]
  cases hc : c.value? with
  | none =>
    rw [hc, Option.map_none, eq_comm, Option.map_eq_none_iff] at hvalue
    exact .inl ⟨rfl, hvalue⟩
  | some out =>
    rw [hc, Option.map_some, eq_comm, Option.map_eq_some_iff] at hvalue
    obtain ⟨out', hc', heq⟩ := hvalue
    have hout : out.untyped.value = out'.untyped.value := congrArg Output.value heq.symm
    exact .inr ⟨out, out', rfl, hc', hout⟩

theorem compileMember_simulates (h : c.Alike c') (e e' base base' : Expr) (name : String) :
    Simulates arguments Compiled.Alike (compileMember s e base name c)
      (compileMember s e' base' name c') := by
  unfold compileMember
  rw [← h.chain?]
  split
  · rw [h.tables]
    exact .alike_of_steady _
  · have hmember := h.member (.field name)
    have hempty : (c.member (.field name)).outputs.isEmpty =
        (c'.member (.field name)).outputs.isEmpty := by
      have houtputs := congrArg (fun d : Compiled => d.outputs.isEmpty) hmember
      simpa [Compiled.untyped] using houtputs
    dsimp only
    rw [← hempty]
    split
    · exact .throw _ _
    · exact .pure hmember

theorem expandWhole_simulates (s : Statement) (scope : Scope) (h : c.Alike c') :
    Simulates arguments Compiled.Alike (expandWhole s scope c) (expandWhole s scope c') := by
  unfold expandWhole
  rw [← h.whole?]
  refine .bind_of_steady (inferInstanceAs (Grows (expandWhole s scope c))) fun whole => ?_
  split
  · exact .pure h
  · rw [h.tables]
    exact .alike_of_steady _

theorem Simulates.expanded {x x' : Compile Compiled} (h : Simulates arguments Compiled.Alike x x')
    (s : Statement) (scope : Scope) :
    Simulates arguments Compiled.Alike (x >>= expandWhole s scope) (x' >>= expandWhole s scope) :=
  h.bind fun _ _ hc => expandWhole_simulates s scope hc

theorem toOperand_simulates (h : c.Alike c') (e e' : Expr) :
    Simulates arguments Operand.Alike (toOperand s e c) (toOperand s e' c') := by
  unfold toOperand
  rw [← h.whole?]
  refine .bind_of_steady (inferInstanceAs (Grows (toOperand s e c))) fun whole => ?_
  split
  · exact .throw _ _
  · exact .throw _ _
  · obtain ⟨hc, hc'⟩ | ⟨out, out', hc, hc', hvalue⟩ := h.value?
    · rw [hc, hc']
      exact .throw _ _
    · rw [hc, hc']
      exact .pure ⟨hvalue, h.tables⟩

theorem operandOf_simulates {action action' : Compile Compiled}
    (h : Simulates arguments Compiled.Alike action action') (parent parent' child child' : Expr) :
    Simulates arguments Operand.Alike (operandOf s parent child action)
      (operandOf s parent' child' action') :=
  (h.within parent parent').bind fun _ _ hc => (toOperand_simulates hc child child').within _ _

/-- Two operands, one after the other. -/
theorem operands_simulates {left left' right right' : Compile Compiled} [Appends right]
    (hleft : Simulates arguments Compiled.Alike left left')
    (hright : Simulates arguments Compiled.Alike right right') (whole whole' a a' b b' : Expr)
    {f f' : Operand → Operand → Compiled}
    (hf : ∀ l l' r r', l.Alike l' → r.Alike r' → (f l r).Alike (f' l' r')) :
    Simulates arguments Compiled.Alike
      (operandOf s whole a left >>= fun l => operandOf s whole b right >>= fun r => pure (f l r))
      (operandOf s whole' a' left' >>= fun l =>
        operandOf s whole' b' right' >>= fun r => pure (f' l r)) :=
  (operandOf_simulates hleft _ _ _ _).bind fun l l' hl =>
    (operandOf_simulates hright _ _ _ _).bind fun r r' hr => .pure (hf l l' r r' hl hr)

/-- Operators compute the same from the same operands. -/
theorem binary_alike (op : BinaryOp) {l l' r r' : Operand} (hl : l.Alike l') (hr : r.Alike r')
    (type type' : ValueType) :
    (Compiled.ofValue (.binary op l.value r.value) type (l.tables ++ r.tables)).Alike
      (.ofValue (.binary op l'.value r'.value) type' (l'.tables ++ r'.tables)) := by
  rw [hl.value, hl.tables, hr.value, hr.tables]
  exact .ofValue ..

theorem compileFunction_alike (function : Function) (h : o.Alike o') :
    (compileFunction function o).Alike (compileFunction function o') := by
  unfold compileFunction
  rw [h.value, h.tables]
  exact .ofValue ..

/-! ### Membership -/

theorem membershipItem_simulates {item : Expr}
    (h : HaveValues arguments item.argumentPaths) :
    Simulates arguments Eq (membershipItem item) (membershipItem (item.onArguments arguments)) := by
  unfold membershipItem
  rw [Expr.readsRow_onArguments]
  split
  · exact .throw _ _
  · exact (registerParameter_simulates h).bind fun p p' hp => .pure (by rw [hp])

theorem membershipItems_simulates (list : Accumulator Symbol) {items : List Expr}
    (h : HaveValues arguments (Expr.argumentPathsAll items)) :
    Simulates arguments Eq (membershipItems list items)
      (membershipItems list (Expr.onArgumentsAll arguments items)) := by
  have := appends_membershipItems
  induction items generalizing list with
  | nil => exact .pure rfl
  | cons item items ih =>
    obtain ⟨hitem, hitems⟩ := List.forall_mem_append.mp h
    refine (membershipItem_simulates hitem).bind fun v _ hv => ?_
    subst hv
    exact ih _ hitems

/-- A constant is the same parameter in both. -/
theorem register_simulates (v : Value) :
    Simulates arguments Eq (register (.value v)) (register (.value v)) := by
  refine ⟨fun hc h _ => ?_, fun hc h => ?_⟩
  · obtain ⟨rfl, rfl⟩ := yields_register_iff.mp h
    exact ⟨_, _, yields_register_iff.mpr ⟨hc.pool.size, rfl⟩, rfl, hc.push rfl⟩
  · obtain ⟨rfl, rfl⟩ := yields_register_iff.mp h
    exact ⟨_, _, yields_register_iff.mpr ⟨hc.pool.size.symm, rfl⟩, rfl, hc.push rfl⟩

theorem markExpanded_simulates (id : ParamId) :
    Simulates arguments Eq (markExpanded id) (markExpanded id) := by
  refine ⟨fun hc h _ => ?_, fun hc h => ?_⟩
  · obtain rfl := yields_modify_iff.mp h
    exact ⟨(), _, yields_modify_iff.mpr rfl, rfl, hc.expand id⟩
  · obtain rfl := yields_modify_iff.mp h
    exact ⟨(), _, yields_modify_iff.mpr rfl, rfl, hc.expand id⟩

/-- The list of a membership test that is one parameter. -/
def membershipSet (set : Expr) : Compile (Accumulator Symbol) := do
  if set.readsRow then throw (.rowInMembership set.text)
  else
    let (id, _) ← registerParameter set
    markExpanded id
    return .leaf (.param id)

theorem membershipList_eq_membershipSet {set : Expr} (h : ∀ items, set ≠ .array items) :
    membershipList set = membershipSet set := by
  cases set with
  | array items => exact absurd rfl (h items)
  | _ => rfl

theorem membershipSet_simulates {set : Expr}
    (h : HaveValues arguments set.argumentPaths) :
    Simulates arguments Eq (membershipSet set) (membershipSet (set.onArguments arguments)) := by
  unfold membershipSet
  rw [Expr.readsRow_onArguments]
  split
  · exact .throw _ _
  · refine (registerParameter_simulates h).bind fun p p' hp => ?_
    obtain ⟨id, type⟩ := p
    obtain ⟨id', type'⟩ := p'
    obtain rfl : id = id' := hp
    exact (markExpanded_simulates id).bind fun _ _ _ => .pure rfl

theorem membershipList_simulates {set : Expr}
    (h : HaveValues arguments set.argumentPaths) :
    Simulates arguments Eq (membershipList set) (membershipList (set.onArguments arguments)) := by
  have := appends_membershipItems
  by_cases harray : ∃ items, set = .array items
  · obtain ⟨items, rfl⟩ := harray
    cases items with
    | nil =>
      refine (register_simulates _).bind fun id _ hid => ?_
      subst hid
      exact (markExpanded_simulates id).bind fun _ _ _ => .pure rfl
    | cons item items =>
      obtain ⟨hitem, hitems⟩ := List.forall_mem_append.mp h
      refine (membershipItem_simulates hitem).bind fun v _ hv => ?_
      subst hv
      exact membershipItems_simulates v hitems
  · have hset : ∀ items, set ≠ .array items := fun items heq => harray ⟨items, heq⟩
    rw [membershipList_eq_membershipSet hset,
      membershipList_eq_membershipSet (Expr.onArguments_ne_array hset)]
    exact membershipSet_simulates h

theorem compileMembership_simulates (ho : o.Alike o') {set : Expr}
    (h : HaveValues arguments set.argumentPaths) :
    Simulates arguments Compiled.Alike (compileMembership o set)
      (compileMembership o' (set.onArguments arguments)) := by
  refine (membershipList_simulates h).bind fun list _ hlist => ?_
  subst hlist
  rw [ho.value, ho.tables]
  exact .pure (.ofValue ..)

/-! ### Collections -/

theorem compileAggregate_simulates (h : c.Alike c') (e e' : Expr) (function : Aggregate) :
    Simulates arguments Compiled.Alike (compileAggregate s scope e function c)
      (compileAggregate s scope e' function c') := by
  unfold compileAggregate
  rw [← h.whole?]
  refine .bind_of_steady (inferInstanceAs (Grows (compileAggregate s scope e function c)))
    fun whole => ?_
  obtain ⟨hc, hc'⟩ | ⟨out, out', hc, hc', hvalue⟩ := h.value?
  · rw [hc, hc']
    exact .throw _ _
  · rw [hc, hc']
    dsimp only
    rw [hvalue, h.tables]
    split
    · split
      · rw [pure_bind, pure_bind]
        exact .pure (.ofValue ..)
      · exact .refuse_bind ..
    · exact .refuse_bind ..
    · rw [pure_bind, pure_bind]
      exact .pure (.ofValue ..)

theorem compileRange_simulates (h : c.Alike c') (e e' : Expr) :
    Simulates arguments Eq (compileRange s e c) (compileRange s e' c') := by
  have hgrows : Grows (compileRange s e c) := inferInstance
  unfold compileRange at hgrows ⊢
  rw [h.chain?, h.tables] at hgrows ⊢
  generalize c'.chain? = chain? at hgrows ⊢
  cases chain? with
  | none => exact .throw _ _
  | some chain =>
    refine .bind_of_steady hgrows fun l? => ?_
    split
    · exact .throw _ _
    · exact .of_steady _
    · exact .of_steady _

theorem Range.result_alike (range : Range) (h : c.Alike c') :
    (range.result s scope c).Alike (range.result s scope c') := by
  rw [result, result, h.tables]
  exact h.withTables _

theorem compileOne_simulates (h : c.Alike c') (e e' : Expr) :
    Simulates arguments Compiled.Alike (compileOne e c) (compileOne e' c') := by
  unfold compileOne
  dsimp only
  rw [h.tables]
  split
  · exact .pure (h.withTables _)
  · exact .throw _ _

end

/-! ### Expressions -/

section

variable {s : Statement} {scope : Scope} {arguments : Document} {e : Expr}

/-- The branches and the operand of an alternative, apart from types. -/
def AlternativesAlike (p p' : CompiledBranches × Operand) : Prop :=
  p.1.Alike p'.1 ∧ p.2.Alike p'.2

theorem alternative_simulates {action action' : Compile Compiled}
    {further? further?' : Option (Compile (CompiledBranches × Operand))}
    (haction : Simulates arguments Compiled.Alike action action')
    (hfurther : Option.Rel (Simulates arguments AlternativesAlike) further? further?')
    (s : Statement) (whole whole' e e' : Expr) :
    Simulates arguments AlternativesAlike (alternative s whole e action further?)
      (alternative s whole' e' action' further?') := by
  unfold alternative
  cases hfurther with
  | some h => exact h
  | none =>
    exact (operandOf_simulates haction whole whole' e e').bind fun o o' ho =>
      .pure ⟨⟨rfl, rfl⟩, ho⟩

theorem CompiledBranches.Alike.cons {bs bs' : CompiledBranches} {test test' value value' : Operand}
    (h : bs.Alike bs') (ht : test.Alike test') (hv : value.Alike value') :
    (bs.cons test value).Alike (bs'.cons test' value') :=
  ⟨by rw [CompiledBranches.cons, CompiledBranches.cons, ht.value, hv.value, h.branches],
    by rw [CompiledBranches.cons, CompiledBranches.cons, ht.tables, hv.tables, h.tables]⟩

end

mutual

/-- **Compiling with the arguments put in** does the same, but evaluates parameters at once. -/
theorem compile_simulates (s : Statement) {arguments : Document} (e : Expr)
    (h : HaveValues arguments e.argumentPaths) (scope : Scope) :
    Simulates arguments Compiled.Alike (compile s scope e)
      (compile s scope (e.onArguments arguments)) := by
  have hput : (e.onArguments arguments).isParameter = e.isParameter :=
    Expr.isParameter_onArguments e
  by_cases hparam : e.isParameter = true
  · rw [compile_eq_compileParameter hparam, compile_eq_compileParameter (hput.trans hparam)]
    exact compileParameter_simulates h
  have hparam' : ¬ (e.onArguments arguments).isParameter = true := by rwa [hput]
  have := compile_appends s
  have := compileBranches_appends s
  unfold compile
  rw [if_neg hparam, if_neg hparam']
  -- What reads no row is a parameter; the cases that follow read rows.
  cases e with
  | args | constant _ => exact absurd rfl hparam
  | row | rowNumber => exact .alike_of_steady _
  | method receiver name values => exact .throw _ _
  | var name =>
    dsimp only [Expr.onArguments]
    split
    · exact .alike_of_steady _
    · exact .throw _ _
  | member base name =>
    have hbase : ¬ base.isArgument = true := fun hbase =>
      hparam (Expr.isParameter_of_isArgument (e := .member base name) hbase)
    rw [Expr.argumentPaths, if_neg hbase] at h
    rw [Expr.onArguments_member_of_not_isArgument hbase]
    exact ((compile_simulates s base h scope).within _ _).bind fun c c' hc =>
      compileMember_simulates hc _ _ _ _ name
  | unary op operand =>
    have hoperand := compile_simulates s operand h scope
    cases op with
    | not | negate =>
      refine (operandOf_simulates hoperand _ _ _ _).bind fun o o' ho => ?_
      rw [ho.value, ho.tables]
      exact .pure (.ofValue ..)
  | binary op left right =>
    obtain ⟨hl, hr⟩ := List.forall_mem_append.mp h
    have hleft := compile_simulates s left hl scope
    have hright := compile_simulates s right hr scope
    cases op with
    | isIn =>
      exact (operandOf_simulates hleft _ _ _ _).bind fun o o' ho =>
        compileMembership_simulates ho hr
    | comma => exact .throw _ _
    | _ =>
      exact operands_simulates hleft hright _ _ _ _ _ _ fun _ _ _ _ hl hr =>
        binary_alike _ hl hr _ _
  | tuple items => exact compileItems_simulates s items h scope _ _ 0
  | array items => exact compileItems_simulates s items h scope _ _ 0
  | object members => exact compileMembers_simulates s members h scope _ _
  | conditional test ifTrue ifFalse =>
    obtain ⟨ht, h⟩ := List.forall_mem_append.mp h
    obtain ⟨hv, hf⟩ := List.forall_mem_append.mp h
    have htest := compile_simulates s test ht scope
    have hvalue := compile_simulates s ifTrue hv scope
    have helse := compileElse_simulates s ifFalse hf scope
    have halternative := fun whole whole' => alternative_simulates
      (compile_simulates s ifFalse hf scope) (helse whole whole') s whole whole' ifFalse
      (ifFalse.onArguments arguments)
    have := alternative_appends s scope
    refine (operandOf_simulates htest _ _ _ _).bind fun t t' ht => ?_
    refine (operandOf_simulates hvalue _ _ _ _).bind fun v v' hv => ?_
    refine (halternative _ _).bind fun p p' hp => ?_
    have hbs := hp.1.cons ht hv
    have ho := hp.2
    dsimp only
    rw [hbs.branches, hbs.tables, ho.value, ho.tables]
    exact .pure (.ofValue ..)
  | cases branches otherwise =>
    obtain ⟨hbs, ho⟩ := List.forall_mem_append.mp h
    have hbranches := compileBranches_simulates s branches hbs scope
    have hotherwise := compile_simulates s otherwise ho scope
    refine (hbranches _ _).bind fun bs bs' hbs => ?_
    refine (operandOf_simulates hotherwise _ _ _ _).bind fun o o' ho => ?_
    rw [hbs.branches, hbs.tables, ho.value, ho.tables]
    exact .pure (.ofValue ..)
  | casesOf subject branches otherwise =>
    obtain ⟨hk, h⟩ := List.forall_mem_append.mp h
    obtain ⟨hbs, ho⟩ := List.forall_mem_append.mp h
    have hsubject := compile_simulates s subject hk scope
    have hbranches := compileBranches_simulates s branches hbs scope
    have hotherwise := compile_simulates s otherwise ho scope
    refine (operandOf_simulates hsubject _ _ _ _).bind fun k k' hk => ?_
    refine (hbranches _ _).bind fun bs bs' hbs => ?_
    refine (operandOf_simulates hotherwise _ _ _ _).bind fun o o' ho => ?_
    rw [hk.value, hk.tables, hbs.branches, hbs.tables, ho.value, ho.tables]
    exact .pure (.ofValue ..)
  | aggregate function source =>
    exact ((compile_simulates s source h _).within _ _).bind fun c c' hc =>
      compileAggregate_simulates hc _ _ function
  | apply function operand =>
    exact (operandOf_simulates (compile_simulates s operand h scope) _ _ _ _).bind
      fun o o' ho => .pure (compileFunction_alike function ho)
  | select source param body =>
    obtain ⟨hsource, hbody⟩ := List.forall_mem_append.mp h
    refine ((compile_simulates s source hsource scope).within _ _).bind fun c c' hc => ?_
    refine (compileRange_simulates hc _ _).bind fun range _ hrange => ?_
    subst hrange
    have hbody := (compile_simulates s body hbody (range.scope scope param)).expanded s
      (range.scope scope param)
    exact (hbody.within _ _).bind fun b b' hb => .pure (range.result_alike hb)
  | toList source =>
    exact ((compile_simulates s source h scope).expanded s scope).within _ _
  | one source =>
    have hsource := (compile_simulates s source h scope).expanded s scope
    exact (hsource.within _ _).bind fun c c' hc => compileOne_simulates hc _ _
  | isIn value set | contains set value =>
    obtain ⟨hv, hs⟩ := List.forall_mem_append.mp h
    exact (operandOf_simulates (compile_simulates s value hv scope) _ _ _ _).bind
      fun o o' ho => compileMembership_simulates ho hs
termination_by structural e

theorem compileItems_simulates (s : Statement) {arguments : Document} (es : List Expr)
    (h : HaveValues arguments (Expr.argumentPathsAll es)) (scope : Scope) (whole whole' : Expr)
    (index : Nat) :
    Simulates arguments Compiled.Alike (compileItems s scope whole index es)
      (compileItems s scope whole' index (Expr.onArgumentsAll arguments es)) := by
  cases es with
  | nil => exact .pure (.refl _)
  | cons e es =>
    obtain ⟨he, hes⟩ := List.forall_mem_append.mp h
    have := compile_appends s
    have := compileItems_appends s
    have hvalue := (compile_simulates s e he scope).expanded s scope
    refine (hvalue.within whole whole').bind fun c c' hc => ?_
    exact (compileItems_simulates s es hes scope whole whole' (index + 1)).bind
      fun d d' hd => .pure ((hc.under _).append hd)
termination_by structural es

theorem compileMembers_simulates (s : Statement) {arguments : Document}
    (es : List (String × Expr)) (h : HaveValues arguments (Expr.argumentPathsMembers es))
    (scope : Scope) (whole whole' : Expr) :
    Simulates arguments Compiled.Alike (compileMembers s scope whole es)
      (compileMembers s scope whole' (Expr.onArgumentsMembers arguments es)) := by
  cases es with
  | nil => exact .pure (.refl _)
  | cons member es =>
    obtain ⟨name, e⟩ := member
    obtain ⟨he, hes⟩ := List.forall_mem_append.mp h
    have := compile_appends s
    have := compileMembers_appends s
    have hvalue := (compile_simulates s e he scope).expanded s scope
    refine (hvalue.within whole whole').bind fun c c' hc => ?_
    exact (compileMembers_simulates s es hes scope whole whole').bind
      fun d d' hd => .pure ((hc.under _).append hd)
termination_by structural es

theorem compileBranches_simulates (s : Statement) {arguments : Document}
    (bs : List (Expr × Expr)) (h : HaveValues arguments (Expr.argumentPathsBranches bs))
    (scope : Scope) (whole whole' : Expr) :
    Simulates arguments CompiledBranches.Alike (compileBranches s scope whole bs)
      (compileBranches s scope whole' (Expr.onArgumentsBranches arguments bs)) := by
  cases bs with
  | nil => exact .pure ⟨rfl, rfl⟩
  | cons branch rest =>
    obtain ⟨test, value⟩ := branch
    obtain ⟨ht, h⟩ := List.forall_mem_append.mp h
    obtain ⟨hv, hrest⟩ := List.forall_mem_append.mp h
    have := compile_appends s
    have := compileBranches_appends s
    have htest := compile_simulates s test ht scope
    have hvalue := compile_simulates s value hv scope
    refine (operandOf_simulates htest _ _ _ _).bind fun t t' ht => ?_
    refine (operandOf_simulates hvalue _ _ _ _).bind fun v v' hv => ?_
    exact (compileBranches_simulates s rest hrest scope whole whole').bind
      fun bs bs' hbs => .pure (hbs.cons ht hv)
termination_by structural bs

theorem compileElse_simulates (s : Statement) {arguments : Document} (e : Expr)
    (h : HaveValues arguments e.argumentPaths) (scope : Scope) (whole whole' : Expr) :
    Option.Rel (Simulates arguments AlternativesAlike) (compileElse s scope whole e)
      (compileElse s scope whole' (e.onArguments arguments)) := by
  cases e with
  | conditional test ifTrue ifFalse =>
    obtain ⟨ht, h⟩ := List.forall_mem_append.mp h
    obtain ⟨hv, hf⟩ := List.forall_mem_append.mp h
    have htest := compile_simulates s test ht scope
    have hvalue := compile_simulates s ifTrue hv scope
    have helse := compileElse_simulates s ifFalse hf scope whole whole'
    have halternative := alternative_simulates (compile_simulates s ifFalse hf scope) helse s
      whole whole' ifFalse (ifFalse.onArguments arguments)
    have := compile_appends s
    have := alternative_appends s scope
    refine .some ?_
    refine (operandOf_simulates htest _ _ _ _).bind fun t t' ht => ?_
    refine (operandOf_simulates hvalue _ _ _ _).bind fun v v' hv => ?_
    exact halternative.bind fun p p' hp => .pure ⟨hp.1.cons ht hv, hp.2⟩
  | member base name =>
    -- A member of an argument becomes a constant, any other one stays a member.
    by_cases hbase : base.isArgument
    · rw [Expr.onArguments_member_of_isArgument hbase]
      exact .none
    · rw [Expr.onArguments_member_of_not_isArgument hbase]
      exact .none
  | _ => exact .none
termination_by structural e

end

/-! ### Mappings and conditions -/

theorem compileMapping_simulates (s : Statement) {arguments : Document} {e : Expr}
    (h : HaveValues arguments e.argumentPaths) :
    Simulates arguments Compiled.Alike (compileMapping s e)
      (compileMapping s (e.onArguments arguments)) :=
  (compile_simulates s e h .outermost).expanded s .outermost

theorem compileMapping_appends (s : Statement) (e : Expr) : Appends (compileMapping s e) := by
  have := compile_appends s
  exact inferInstanceAs (Appends (compile s .outermost e >>= expandWhole s .outermost))

theorem compileCondition_simulates (s : Statement) {arguments : Document} {e : Expr}
    (h : HaveValues arguments e.argumentPaths) :
    Simulates arguments Eq (compileCondition s e)
      (compileCondition s (e.onArguments arguments)) := by
  refine (compile_simulates s e h .outermost).bind fun c c' hc => ?_
  refine (toOperand_simulates hc _ _).bind fun o o' ho => ?_
  rw [ho.value]
  split
  · exact .pure rfl
  · exact .throw _ _

theorem compileCondition_appends (s : Statement) (e : Expr) : Appends (compileCondition s e) := by
  have := compile_appends s
  unfold compileCondition
  infer_instance

end NestedQuery
