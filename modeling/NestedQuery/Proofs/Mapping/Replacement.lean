import NestedQuery.Proofs.Expr.Replacement
import NestedQuery.Proofs.Mapping.Wholes

/-!
# Compiling with parts replaced

When parts of an expression are replaced, it is compiled in lockstep with the original: `Agrees`
says that two steps yield the same, from states that differ only in the expressions that are left
for later. If the replaced parts agree (`Unseen`), so do the expressions around them, in every place
that the language has (`compile_agrees`).

In a place that takes a value it is enough that the parts agree as values, since a whole table or
shape is expanded or refused there.
-/

namespace NestedQuery

open Compile
open NestedQuery.Expr (Replacement Replaces ReplacesSource ReplacesValue ReplacesInside ReplacesAll
  ReplacesMembers ReplacesBranches KeepsRow SameValues)

/-! ### States -/

section

variable (V : Expr → Expr → Prop)

/-- The parameters have the same source, apart from what is left for later. -/
inductive ParamSource.Resembles : ParamSource → ParamSource → Prop
  | value (v : Value) : Resembles (.value v) (.value v)
  | deferred {e e' : Expr} : V e e' → Resembles (.deferred e) (.deferred e')

/-- The parameters are the same, apart from what is left for later. -/
structure Slot.Resembles (slot slot' : Slot) : Prop where
  source : slot.source.Resembles V slot'.source
  expanded : slot'.expanded = slot.expanded

/-- All parameters are the same, apart from what is left for later. -/
def Pool.Resembles (p p' : Pool) : Prop :=
  List.Forall₂ (Slot.Resembles V) p.slots p'.slots

/-- The same has been collected, apart from what is left for later. -/
structure Collected.Resembles (c c' : Collected) : Prop where
  pool : c.pool.Resembles V c'.pool
  bindings : c'.bindings = c.bindings

/-- From states that resemble each other, `x` yields what `x'` yields, and leaves states that do so.
The other way round it is asked for if `both` holds. -/
structure Agrees (both : Prop) {α : Type} (x x' : Compile α) : Prop where
  /-- What `x` yields, `x'` yields too. -/
  forward : both → ∀ {c c' a d}, c.Resembles V c' → Yields x c a d →
    ∃ d', Yields x' c' a d' ∧ d.Resembles V d'
  /-- What `x'` yields, `x` yields too. -/
  backward : ∀ {c c' a d'}, c.Resembles V c' → Yields x' c' a d' →
    ∃ d, Yields x c a d ∧ d.Resembles V d'

end

section

variable {V : Expr → Expr → Prop} {both : Prop} {c c' : Collected}

namespace Collected.Resembles

theorem size (h : c.Resembles V c') : c'.pool.size = c.pool.size :=
  h.pool.length_eq.symm

theorem push (h : c.Resembles V c') {source source' : ParamSource}
    (hsource : source.Resembles V source') :
    Resembles V { c with pool := c.pool.push source } { c' with pool := c'.pool.push source' } :=
  ⟨List.rel_append h.pool (.cons ⟨hsource, rfl⟩ .nil), h.bindings⟩

theorem expand (h : c.Resembles V c') (id : ParamId) :
    Resembles V { c with pool := c.pool.expand id } { c' with pool := c'.pool.expand id } := by
  refine ⟨forall₂_modify h.pool (fun slot slot' hslot => ?_) id, h.bindings⟩
  exact ⟨hslot.source, rfl⟩

end Collected.Resembles

/-- States that resemble each other in everything are the same. -/
theorem Collected.resembles_eq_iff : c.Resembles Eq c' ↔ c = c' := by
  have hslot : ∀ slot slot' : Slot, slot.Resembles Eq slot' ↔ slot = slot' := by
    rintro ⟨source, expanded⟩ ⟨source', expanded'⟩
    constructor
    · rintro ⟨hsource, rfl⟩
      cases hsource with
      | value v => rfl
      | deferred h => rw [h]
    · rintro ⟨⟩
      refine ⟨?_, rfl⟩
      cases source with
      | value v => exact .value v
      | deferred e => exact .deferred rfl
  have hpool : ∀ p p' : Pool, p.Resembles Eq p' ↔ p = p' := by
    rintro ⟨slots⟩ ⟨slots'⟩
    rw [Pool.Resembles, funext₂ fun slot slot' => propext (hslot slot slot'), List.forall₂_eq_eq_eq,
      Pool.mk.injEq]
  obtain ⟨pool, bindings⟩ := c
  obtain ⟨pool', bindings'⟩ := c'
  constructor
  · rintro ⟨hp, hbindings⟩
    exact congrArg₂ Collected.mk ((hpool _ _).mp hp) hbindings.symm
  · rintro ⟨⟩
    exact ⟨(hpool _ _).mpr rfl, rfl⟩

/-! ### Steps in lockstep -/

namespace Agrees

variable {α β : Type} {x x' : Compile α}

theorem bind {f f' : α → Compile β} (hx : Agrees V both x x')
    (hf : ∀ a, Agrees V both (f a) (f' a)) :
    Agrees V both (x >>= f) (x' >>= f') := by
  refine ⟨fun hboth _ _ _ _ hc h => ?_, fun hc h => ?_⟩
  · obtain ⟨a, c₁, hxa, hfa⟩ := yields_bind_iff.mp h
    obtain ⟨c₁', hxa', hc₁⟩ := hx.forward hboth hc hxa
    obtain ⟨d', hfa', hd⟩ := (hf a).forward hboth hc₁ hfa
    exact ⟨d', yields_bind_iff.mpr ⟨a, c₁', hxa', hfa'⟩, hd⟩
  · obtain ⟨a, c₁', hxa', hfa'⟩ := yields_bind_iff.mp h
    obtain ⟨c₁, hxa, hc₁⟩ := hx.backward hc hxa'
    obtain ⟨d, hfa, hd⟩ := (hf a).backward hc₁ hfa'
    exact ⟨d, yields_bind_iff.mpr ⟨a, c₁, hxa, hfa⟩, hd⟩

/-- Steps may be exchanged for others that yield the same. -/
theorem congr {y y' : Compile α} (h : Agrees V both x x') (hx : SameYields y x)
    (hx' : SameYields y' x') : Agrees V both y y' := by
  refine ⟨fun hboth _ _ _ _ hc hy => ?_, fun hc hy => ?_⟩
  · obtain ⟨d', hx'd, hd⟩ := h.forward hboth hc ((hx _ _ _).mp hy)
    exact ⟨d', (hx' _ _ _).mpr hx'd, hd⟩
  · obtain ⟨d, hxd, hd⟩ := h.backward hc ((hx' _ _ _).mp hy)
    exact ⟨d, (hx _ _ _).mpr hxd, hd⟩

/-- A step that does not look at the parameters agrees with itself. -/
theorem of_steady (x : Compile α) [Steady x] : Agrees V both x x := by
  refine ⟨fun _ c c' a d hc hx => ?_, fun {c c' a d'} hc hx => ?_⟩
  · obtain ⟨hpool, h⟩ := Steady.withPool hx
    have hx' := h c'.pool
    rw [← hc.bindings] at hx'
    exact ⟨_, hx', hpool ▸ hc.pool, rfl⟩
  · obtain ⟨hpool, h⟩ := Steady.withPool hx
    have hx' := h c.pool
    rw [hc.bindings] at hx'
    exact ⟨_, hx', hpool.symm ▸ hc.pool, rfl⟩

/-- So does one that is the same apart from the text of its failures. -/
theorem of_sameYields [Steady x] (h : SameYields x x') : Agrees V both x x' :=
  (of_steady x).congr (.refl x) fun c a c' => (h c a c').symm

theorem throw (e e' : Error) :
    Agrees V both (MonadExcept.throw e : Compile α) (MonadExcept.throw e') :=
  of_sameYields (.throw e e')

theorem pure (a : α) : Agrees V both (Pure.pure a) (Pure.pure a) :=
  of_steady _

theorem within (h : Agrees V both x x') (e e' : Expr) :
    Agrees V both (Compile.within e x) (Compile.within e' x') :=
  h.congr (fun _ _ _ => yields_within_iff) fun _ _ _ => yields_within_iff

/-- Where everything has to be the same, `x` yields what `x'` yields. -/
theorem yields (h : Agrees Eq both x x') {c d : Collected} {a : α} (hx' : Yields x' c a d) :
    Yields x c a d := by
  obtain ⟨d', hx, heq⟩ := h.backward (Collected.resembles_eq_iff.mpr rfl) hx'
  exact Collected.resembles_eq_iff.mp heq ▸ hx

/-- Steps that agree both ways yield the same then. -/
theorem sameYields (h : Agrees Eq True x x') : SameYields x x' := by
  refine fun c a d => ⟨fun hx => ?_, h.yields⟩
  obtain ⟨d', hx', heq⟩ := h.forward trivial (Collected.resembles_eq_iff.mpr rfl) hx
  exact Collected.resembles_eq_iff.mp heq ▸ hx'

theorem of_sameYields_eq (h : SameYields x x') : Agrees Eq both x x' := by
  refine ⟨fun _ _ _ _ _ hc hx => ?_, fun hc hx => ?_⟩
  · obtain rfl := Collected.resembles_eq_iff.mp hc
    exact ⟨_, (h _ _ _).mp hx, Collected.resembles_eq_iff.mpr rfl⟩
  · obtain rfl := Collected.resembles_eq_iff.mp hc
    exact ⟨_, (h _ _ _).mpr hx, Collected.resembles_eq_iff.mpr rfl⟩

end Agrees

/-! ### Parameters -/

section

variable {e e' : Expr}

theorem register_agrees {source source' : ParamSource} (h : source.Resembles V source') :
    Agrees V both (register source) (register source') := by
  refine ⟨fun _ _ _ _ _ hc hx => ?_, fun hc hx => ?_⟩
  · obtain ⟨rfl, rfl⟩ := yields_register_iff.mp hx
    exact ⟨_, yields_register_iff.mpr ⟨hc.size, rfl⟩, hc.push h⟩
  · obtain ⟨rfl, rfl⟩ := yields_register_iff.mp hx
    exact ⟨_, yields_register_iff.mpr ⟨hc.size.symm, rfl⟩, hc.push h⟩

theorem markExpanded_agrees (id : ParamId) : Agrees V both (markExpanded id) (markExpanded id) := by
  refine ⟨fun _ _ _ _ _ hc hx => ?_, fun hc hx => ?_⟩
  · obtain rfl := yields_modify_iff.mp hx
    exact ⟨_, yields_modify_iff.mpr rfl, hc.expand id⟩
  · obtain rfl := yields_modify_iff.mp hx
    exact ⟨_, yields_modify_iff.mpr rfl, hc.expand id⟩

theorem ofResult_sameYields {α : Type} {x x' : Result α} (h : x'.toOption = x.toOption) :
    SameYields (ofResult x) (ofResult x') := by
  cases x <;> cases x'
  · exact .throw _ _
  · cases h
  · cases h
  · obtain rfl := Option.some.inj h
    exact .refl _

/-- What is left for later may be exchanged, and what has a value now has the same value. -/
theorem registerParameter_agrees (h : V e e') (hsame : SameValues e e') :
    Agrees V both (registerParameter e) (registerParameter e') := by
  unfold registerParameter
  rw [hsame.readsArgs]
  split
  · exact (register_agrees (.deferred h)).bind fun id => .pure _
  · have hvalue := ofResult_sameYields (hsame.evaluate .null)
    exact (Agrees.of_sameYields (hvalue.within e e')).bind fun v =>
      (register_agrees (.value v)).bind fun id => .pure _

theorem compileParameter_agrees (h : V e e') (hsame : SameValues e e') :
    Agrees V both (compileParameter e) (compileParameter e') :=
  (registerParameter_agrees h hsame).bind fun _ => .pure _

variable (V) in
/-- The expressions may stand for each other in the list of a membership test. -/
structure Exchangeable (e e' : Expr) : Prop where
  readsRow : e'.readsRow = e.readsRow
  related : e.readsRow = false → V e e'
  sameValues : e.readsRow = false → SameValues e e'

theorem membershipItem_agrees (h : Exchangeable V e e') :
    Agrees V both (membershipItem e) (membershipItem e') := by
  unfold membershipItem
  rw [h.readsRow]
  cases hrow : e.readsRow with
  | true => exact .throw _ _
  | false =>
    exact (registerParameter_agrees (h.related hrow) (h.sameValues hrow)).bind fun p => .pure _

theorem membershipItems_agrees {items items' : List Expr}
    (h : List.Forall₂ (Exchangeable V) items items') (list : Accumulator Symbol) :
    Agrees V both (membershipItems list items) (membershipItems list items') := by
  induction h generalizing list with
  | nil => exact .pure _
  | cons hitem _ ih => exact (membershipItem_agrees hitem).bind fun v => ih _

theorem membershipSet_agrees (h : Exchangeable V e e') :
    Agrees V both (membershipSet e) (membershipSet e') := by
  unfold membershipSet
  rw [h.readsRow]
  cases hrow : e.readsRow with
  | true => exact .throw _ _
  | false =>
    exact (registerParameter_agrees (h.related hrow) (h.sameValues hrow)).bind fun p =>
      (markExpanded_agrees p.1).bind fun _ => .pure _

end

/-! ### Replacements that do not show -/

/-- Whether what encloses the expression looks into it: a membership test takes the items of an
array, and a conditional the branches of its alternative. -/
def Expr.isOpened : Expr → Bool
  | .array _ | .conditional .. => true
  | _ => false

theorem membershipList_of_not_isOpened {set : Expr} (h : set.isOpened = false) :
    membershipList set = membershipSet set := by
  refine membershipList_eq_membershipSet fun items heq => ?_
  rw [heq] at h
  cases h

theorem compileElse_of_not_isOpened {s : Statement} {scope : Scope} {whole e : Expr}
    (h : e.isOpened = false) : compileElse s scope whole e = none := by
  cases e with
  | conditional => cases h
  | _ => rfl

variable (V) in
/-- Over `s`, what is replaced agrees with what replaces it, each in the places where it stands, and
`V` relates what is left for later. -/
structure Unseen (both : Prop) (s : Statement) (ρ : Replacement) : Prop where
  keepsRow : KeepsRow ρ
  anywhere : ∀ {e e'}, ρ.anywhere e e' → ∀ scope,
    Agrees V both (compile s scope e) (compile s scope e')
  source : ∀ {e e'}, ρ.source e e' → ∀ scope {α : Type} {f f' : Compiled → Compile α},
    TakesSource f → (∀ c, Agrees V both (f c) (f' c)) →
      Agrees V both (compile s scope e >>= f) (compile s scope e' >>= f')
  value : ∀ {e e'}, ρ.value e e' → ∀ scope,
    Agrees V both (compileValue s scope e) (compileValue s scope e')
  not_isOpened : ∀ {e e'}, ρ.anywhere e e' ∨ ρ.value e e' →
    e.isOpened = false ∧ e'.isOpened = false
  deferred : ∀ {e e'}, Replaces ρ e e' → e.readsRow = false → V e e'
  sameValues : ∀ {e e'}, Replaces ρ e e' → e.readsRow = false → SameValues e e'

section

variable {s : Statement} {ρ : Replacement} {scope : Scope} {e e' : Expr}

namespace Unseen

theorem exchangeable (h : Unseen V both s ρ) (he : ReplacesValue ρ e e') :
    Exchangeable V e e' := by
  cases he with
  | value hQ =>
    obtain ⟨hrow, hrow'⟩ := h.keepsRow.value hQ
    have hreads : e.readsRow ≠ false := fun hfree => Bool.false_ne_true (hfree.symm.trans hrow)
    exact ⟨hrow'.trans hrow.symm, fun hfree => absurd hfree hreads,
      fun hfree => absurd hfree hreads⟩
  | expr he => exact ⟨he.readsRow_eq h.keepsRow, h.deferred he, h.sameValues he⟩

theorem exchangeable_all (h : Unseen V both s ρ) {es es' : List Expr}
    (hes : ReplacesAll ρ es es') : List.Forall₂ (Exchangeable V) es es' := by
  induction es generalizing es' with
  | nil =>
    cases hes
    exact .nil
  | cons e es ih =>
    cases hes with
    | cons he hes => exact .cons (h.exchangeable he) (ih hes)

/-- A list of items is replaced item by item, any other set as a whole. -/
theorem membershipList (h : Unseen V both s ρ) (he : ReplacesValue ρ e e') :
    Agrees V both (membershipList e) (membershipList e') := by
  have hset : (∀ items, e ≠ .array items) → (∀ items, e' ≠ .array items) →
      Agrees V both (NestedQuery.membershipList e) (NestedQuery.membershipList e') := by
    intro hne hne'
    rw [membershipList_eq_membershipSet hne, membershipList_eq_membershipSet hne']
    exact membershipSet_agrees (h.exchangeable he)
  have hopened : ρ.anywhere e e' ∨ ρ.value e e' →
      Agrees V both (NestedQuery.membershipList e) (NestedQuery.membershipList e') := by
    intro hpair
    obtain ⟨hclosed, hclosed'⟩ := h.not_isOpened hpair
    rw [membershipList_of_not_isOpened hclosed, membershipList_of_not_isOpened hclosed']
    exact membershipSet_agrees (h.exchangeable he)
  -- Only an array that is replaced inside is opened on both sides.
  rcases he with hQ | ⟨hP | hinside⟩
  · exact hopened (.inr hQ)
  · exact hopened (.inl hP)
  · cases hinside with
    | array hes =>
      cases hes with
      | nil => exact (register_agrees (.value _)).bind fun id =>
          (markExpanded_agrees id).bind fun _ => .pure _
      | cons hitem hes => exact (membershipItem_agrees (h.exchangeable hitem)).bind fun v =>
          membershipItems_agrees (h.exchangeable_all hes) v
    | _ => exact hset nofun nofun

theorem compileMembership (h : Unseen V both s ρ) (o : Operand) (he : ReplacesValue ρ e e') :
    Agrees V both (compileMembership o e) (compileMembership o e') :=
  (h.membershipList he).bind fun _ => .pure _

/-- Where a value is taken, it is enough that parts agree as values. -/
theorem compileValue (h : Unseen V both s ρ) (he : ReplacesValue ρ e e') (scope : Scope)
    (hexpr : Replaces ρ e e' →
      Agrees V both (NestedQuery.compile s scope e) (NestedQuery.compile s scope e')) :
    Agrees V both (NestedQuery.compileValue s scope e) (NestedQuery.compileValue s scope e') := by
  cases he with
  | value hQ => exact h.value hQ scope
  | expr he => exact (hexpr he).bind fun c => .of_steady _

/-- A step that takes a source does the same with what replaces it. -/
theorem compileSource (h : Unseen V both s ρ) (he : ReplacesSource ρ e e') (scope : Scope)
    (hexpr : Replaces ρ e e' →
      Agrees V both (NestedQuery.compile s scope e) (NestedQuery.compile s scope e'))
    {α : Type} {f f' : Compiled → Compile α} (hf : TakesSource f)
    (hff' : ∀ c, Agrees V both (f c) (f' c)) (whole whole' : Expr) :
    Agrees V both (within whole (NestedQuery.compile s scope e) >>= f)
      (within whole' (NestedQuery.compile s scope e') >>= f') := by
  have hwithin : ∀ whole (x : Compile Compiled), SameYields (within whole x) x :=
    fun _ _ _ _ _ => yields_within_iff
  cases he with
  | source hS =>
    exact (h.source hS scope hf hff').congr ((hwithin _ _).bind fun _ => .refl _)
      ((hwithin _ _).bind fun _ => .refl _)
  | expr he => exact ((hexpr he).within whole whole').bind hff'

end Unseen

/-- Values that agree are the same operands. -/
theorem toOperand_agrees (h : Agrees V both (compileValue s scope e) (compileValue s scope e')) :
    Agrees V both (compile s scope e >>= toOperand s e)
      (compile s scope e' >>= toOperand s e') := by
  have hvalue := h.bind fun c => Agrees.of_sameYields (toOperand_sameYields (s := s) e e' c)
  have htakes : ∀ a, TakesValue s (toOperand s a) := takesValue_toOperand
  exact hvalue.congr (fun c o c' => ((htakes e).expanded_sameYields _ c o c').symm)
    fun c o c' => ((htakes e').expanded_sameYields _ c o c').symm

theorem operandOf_agrees (h : Agrees V both (compileValue s scope e) (compileValue s scope e'))
    (parent parent' : Expr) :
    Agrees V both (operandOf s parent e (compile s scope e))
      (operandOf s parent' e' (compile s scope e')) := by
  have hbind : ∀ parent child, SameYields (operandOf s parent child (compile s scope child))
      (compile s scope child >>= toOperand s child) := fun parent child =>
    SameYields.bind (fun _ _ _ => yields_within_iff) fun _ _ _ _ => yields_within_iff
  exact (toOperand_agrees h).congr (hbind parent e) (hbind parent' e')

/-! ### Expressions -/

theorem AlignedLocals.self : (locals : List (String × BindingId)) →
    AlignedLocals (locals.map fun p => (p.1, p.1)) locals locals
  | [] => .nil
  | (name, b) :: locals => .cons name name b (self locals)

/-- Every name belongs to itself. -/
theorem Scope.aligned_self (scope : Scope) :
    scope.Aligned (scope.locals.map fun p => (p.1, p.1)) scope :=
  ⟨.self scope.locals, rfl, rfl⟩

theorem compileAggregate_agrees (function : Aggregate) (e e' : Expr) (c : Compiled) :
    Agrees V both (compileAggregate s scope e function c)
      (compileAggregate s scope e' function c) :=
  .of_sameYields (compileAggregate_sameYields scope.aligned_self e e' function c)

/-- Values that agree are folded to the same. -/
theorem fold_agrees {function : Aggregate} (hf : function ≠ .count) {inner : Scope}
    (h : Agrees V both (compileValue s inner e) (compileValue s inner e')) (whole whole' : Expr) :
    Agrees V both (within whole (compile s inner e) >>= compileAggregate s scope whole function)
      (within whole' (compile s inner e') >>= compileAggregate s scope whole' function) := by
  have hvalue : Agrees V both
      (compileValue s inner e >>= compileAggregate s scope whole function)
      (compileValue s inner e' >>= compileAggregate s scope whole' function) :=
    h.bind fun c => compileAggregate_agrees function whole whole' c
  have hfolded : ∀ a whole, SameYields
      (within whole (compile s inner a) >>= compileAggregate s scope whole function)
      (compileValue s inner a >>= compileAggregate s scope whole function) := by
    intro a whole c d c'
    have htakes : TakesValue s (compileAggregate s scope whole function) :=
      takesValue_compileAggregate hf
    have hwithin : SameYields (within whole (compile s inner a)) (compile s inner a) :=
      fun _ _ _ => yields_within_iff
    exact (hwithin.bind (fun _ => .refl _) c d c').trans
      (htakes.expanded_sameYields (compile s inner a) c d c').symm
  exact hvalue.congr (hfolded e whole) (hfolded e' whole')

theorem alternative_agrees {action action' : Compile Compiled} {whole whole' : Expr}
    {further? further?' : Option (Compile (CompiledBranches × Operand))}
    (haction : Agrees V both (operandOf s whole e action) (operandOf s whole' e' action'))
    (hfurther : Option.Rel (Agrees V both) further? further?') :
    Agrees V both (alternative s whole e action further?)
      (alternative s whole' e' action' further?') := by
  unfold alternative
  cases hfurther with
  | some h => exact h
  | none => exact haction.bind fun _ => .pure _

mutual

/-- **Replacements that do not show.** The expression compiles to the same as before. -/
theorem compile_agrees (h : Unseen V both s ρ) (e : Expr) {e' : Expr} (he : Replaces ρ e e')
    (scope : Scope) : Agrees V both (compile s scope e) (compile s scope e') := by
  obtain hP | hinside := Expr.replaces_iff.mp he
  · exact h.anywhere hP scope
  have hparam' : e'.isParameter = e.isParameter := hinside.isParameter_eq h.keepsRow
  by_cases hparam : e.isParameter = true
  · have hfree := Expr.readsRow_eq_false_of_isParameter hparam
    rw [compile_eq_compileParameter hparam, compile_eq_compileParameter (hparam'.trans hparam)]
    exact compileParameter_agrees (h.deferred (.inside hinside) hfree)
      (h.sameValues (.inside hinside) hfree)
  rw [← hparam'] at hparam
  unfold compile
  rw [if_neg (hparam' ▸ hparam), if_neg hparam]
  -- What reads no row is a parameter; the cases that follow read rows.
  cases e with
  | args | constant _ =>
    cases hinside
    exact absurd rfl hparam
  | row | rowNumber =>
    cases hinside
    exact .of_steady _
  | method receiver name values =>
    cases hinside
    exact .throw _ _
  | var name =>
    cases hinside
    dsimp only
    split
    · exact .of_steady _
    · exact .throw _ _
  | member base name =>
    cases hinside with
    | member _ hbase =>
      exact ((compile_agrees h base hbase scope).within _ _).bind fun c =>
        .of_sameYields (compileMember_sameYields _ _ _ _ name c)
  | unary op operand =>
    cases hinside with
    | unary _ hoperand =>
      have hvalue := h.compileValue hoperand scope fun he => compile_agrees h operand he scope
      refine (operandOf_agrees hvalue _ _).bind fun o => ?_
      cases op <;> exact .pure _
  | binary op left right =>
    cases hinside with
    | binary _ hl hr =>
      have hleft := h.compileValue hl scope fun he => compile_agrees h left he scope
      have hright := h.compileValue hr scope fun he => compile_agrees h right he scope
      cases op with
      | isIn => exact (operandOf_agrees hleft _ _).bind fun o => h.compileMembership o hr
      | comma => exact .throw _ _
      | _ => exact (operandOf_agrees hleft _ _).bind fun l =>
          (operandOf_agrees hright _ _).bind fun r => .pure _
  | tuple items =>
    cases hinside with
    | tuple hitems => exact compileItems_agrees h items hitems scope _ _ 0
  | array items =>
    cases hinside with
    | array hitems => exact compileItems_agrees h items hitems scope _ _ 0
  | object members =>
    cases hinside with
    | object hmembers => exact compileMembers_agrees h members hmembers scope _ _
  | conditional test ifTrue ifFalse =>
    cases hinside with
    | conditional ht hv hf =>
      have htest := h.compileValue ht scope fun he => compile_agrees h test he scope
      have hvalue := h.compileValue hv scope fun he => compile_agrees h ifTrue he scope
      have hotherwise := h.compileValue hf scope fun he => compile_agrees h ifFalse he scope
      have helse := fun whole whole' => alternative_agrees
        (operandOf_agrees hotherwise whole whole')
        (compileElse_agrees h ifFalse hf scope whole whole')
      exact (operandOf_agrees htest _ _).bind fun t => (operandOf_agrees hvalue _ _).bind fun v =>
        (helse _ _).bind fun p => .pure _
  | cases branches otherwise =>
    cases hinside with
    | cases hbs ho =>
      have hotherwise := h.compileValue ho scope fun he => compile_agrees h otherwise he scope
      exact (compileBranches_agrees h branches hbs scope _ _).bind fun bs =>
        (operandOf_agrees hotherwise _ _).bind fun o => .pure _
  | casesOf subject branches otherwise =>
    cases hinside with
    | casesOf hk hbs ho =>
      have hsubject := h.compileValue hk scope fun he => compile_agrees h subject he scope
      have hotherwise := h.compileValue ho scope fun he => compile_agrees h otherwise he scope
      exact (operandOf_agrees hsubject _ _).bind fun k =>
        (compileBranches_agrees h branches hbs scope _ _).bind fun bs =>
          (operandOf_agrees hotherwise _ _).bind fun o => .pure _
  | aggregate function source =>
    cases hinside with
    | count hsource =>
      exact h.compileSource hsource _ (fun he => compile_agrees h source he _)
        (takesSource_compileAggregate _ _) (compileAggregate_agrees _ _ _) _ _
    | fold hf hsource =>
      have hvalue := h.compileValue hsource { scope with beneath := true } fun he =>
        compile_agrees h source he _
      exact fold_agrees hf hvalue _ _
  | apply function operand =>
    cases hinside with
    | apply _ hoperand =>
      have hvalue := h.compileValue hoperand scope fun he => compile_agrees h operand he scope
      exact (operandOf_agrees hvalue _ _).bind fun o => .pure _
  | select source param body =>
    cases hinside with
    | select _ hsource hbody =>
      refine h.compileSource hsource scope (fun he => compile_agrees h source he scope)
        ((takesSource_compileRange _).bind _) (fun c => ?_) _ _
      refine (Agrees.of_sameYields (compileRange_sameYields _ _ c)).bind fun range => ?_
      have hvalue := h.compileValue hbody (range.scope scope param) fun he =>
        compile_agrees h body he (range.scope scope param)
      exact (hvalue.within _ _).bind fun b => .pure _
  | toList source =>
    cases hinside with
    | toList hsource =>
      have hvalue := h.compileValue hsource scope fun he => compile_agrees h source he scope
      exact hvalue.within _ _
  | one source =>
    cases hinside with
    | one hsource =>
      have hvalue := h.compileValue hsource scope fun he => compile_agrees h source he scope
      exact (hvalue.within _ _).bind fun c => .of_sameYields (compileOne_sameYields _ _ c)
  | isIn value set =>
    cases hinside with
    | isIn hv hset =>
      have hvalue := h.compileValue hv scope fun he => compile_agrees h value he scope
      exact (operandOf_agrees hvalue _ _).bind fun o => h.compileMembership o hset
  | contains set value =>
    cases hinside with
    | contains hset hv =>
      have hvalue := h.compileValue hv scope fun he => compile_agrees h value he scope
      exact (operandOf_agrees hvalue _ _).bind fun o => h.compileMembership o hset
termination_by structural e

theorem compileItems_agrees (h : Unseen V both s ρ) (es : List Expr) {es' : List Expr}
    (hes : ReplacesAll ρ es es') (scope : Scope) (whole whole' : Expr) (index : Nat) :
    Agrees V both (compileItems s scope whole index es)
      (compileItems s scope whole' index es') := by
  cases es with
  | nil =>
    cases hes
    exact .pure _
  | cons e es =>
    cases hes with
    | cons he hes =>
      have hvalue := h.compileValue he scope fun he => compile_agrees h e he scope
      exact (hvalue.within whole whole').bind fun c =>
        (compileItems_agrees h es hes scope whole whole' (index + 1)).bind fun d => .pure _
termination_by structural es

theorem compileMembers_agrees (h : Unseen V both s ρ) (es : List (String × Expr))
    {es' : List (String × Expr)} (hes : ReplacesMembers ρ es es') (scope : Scope)
    (whole whole' : Expr) :
    Agrees V both (compileMembers s scope whole es) (compileMembers s scope whole' es') := by
  cases es with
  | nil =>
    cases hes
    exact .pure _
  | cons member es =>
    obtain ⟨name, e⟩ := member
    cases hes with
    | cons _ he hes =>
      have hvalue := h.compileValue he scope fun he => compile_agrees h e he scope
      exact (hvalue.within whole whole').bind fun c =>
        (compileMembers_agrees h es hes scope whole whole').bind fun d => .pure _
termination_by structural es

theorem compileBranches_agrees (h : Unseen V both s ρ) (bs : List (Expr × Expr))
    {bs' : List (Expr × Expr)} (hbs : ReplacesBranches ρ bs bs') (scope : Scope)
    (whole whole' : Expr) :
    Agrees V both (compileBranches s scope whole bs) (compileBranches s scope whole' bs') := by
  cases bs with
  | nil =>
    cases hbs
    exact .pure _
  | cons branch rest =>
    obtain ⟨test, value⟩ := branch
    cases hbs with
    | cons ht hv hrest =>
      have htest := h.compileValue ht scope fun he => compile_agrees h test he scope
      have hvalue := h.compileValue hv scope fun he => compile_agrees h value he scope
      exact (operandOf_agrees htest whole whole').bind fun t =>
        (operandOf_agrees hvalue whole whole').bind fun v =>
          (compileBranches_agrees h rest hrest scope whole whole').bind fun bs => .pure _
termination_by structural bs

theorem compileElse_agrees (h : Unseen V both s ρ) (e : Expr) {e' : Expr}
    (he : ReplacesValue ρ e e') (scope : Scope) (whole whole' : Expr) :
    Option.Rel (Agrees V both) (compileElse s scope whole e) (compileElse s scope whole' e') := by
  have hclosed : ρ.anywhere e e' ∨ ρ.value e e' →
      Option.Rel (Agrees V both) (compileElse s scope whole e) (compileElse s scope whole' e') := by
    intro hpair
    obtain ⟨hclosed, hclosed'⟩ := h.not_isOpened hpair
    rw [compileElse_of_not_isOpened hclosed, compileElse_of_not_isOpened hclosed']
    exact .none
  -- A conditional that is replaced inside goes on with its branches; what is replaced whole has
  -- none.
  obtain hQ | he := Expr.replacesValue_iff.mp he
  · exact hclosed (.inr hQ)
  obtain hP | hinside := Expr.replaces_iff.mp he
  · exact hclosed (.inl hP)
  cases e with
  | conditional test ifTrue ifFalse =>
    cases hinside with
    | conditional ht hv hf =>
      have htest := h.compileValue ht scope fun he => compile_agrees h test he scope
      have hvalue := h.compileValue hv scope fun he => compile_agrees h ifTrue he scope
      have hotherwise := h.compileValue hf scope fun he => compile_agrees h ifFalse he scope
      have helse := alternative_agrees (operandOf_agrees hotherwise whole whole')
        (compileElse_agrees h ifFalse hf scope whole whole')
      exact .some ((operandOf_agrees htest whole whole').bind fun t =>
        (operandOf_agrees hvalue whole whole').bind fun v => helse.bind fun p => .pure _)
  | _ =>
    cases hinside
    all_goals exact .none
termination_by structural e

end

theorem compileValue_agrees (h : Unseen V both s ρ) (he : ReplacesValue ρ e e') (scope : Scope) :
    Agrees V both (compileValue s scope e) (compileValue s scope e') :=
  h.compileValue he scope fun he => compile_agrees h e he scope

/-! ### Mappings and conditions -/

/-- **Replacements in a mapping**, which is a place that takes a value. -/
theorem compileMapping_agrees (h : Unseen V both s ρ) (he : ReplacesValue ρ e e') :
    Agrees V both (compileMapping s e) (compileMapping s e') :=
  compileValue_agrees h he .outermost

/-- **Replacements in a condition** or ordering key. -/
theorem compileCondition_agrees (h : Unseen V both s ρ) (he : ReplacesValue ρ e e') :
    Agrees V both (compileCondition s e) (compileCondition s e') := by
  unfold compileCondition
  rw [← bind_assoc, ← bind_assoc]
  refine (toOperand_agrees (compileValue_agrees h he .outermost)).bind fun o => ?_
  split
  · exact .pure _
  · exact .throw _ _

/-- An expression agrees with itself. -/
theorem compile_agrees_self (hV : ∀ e, V e e) (s : Statement) (scope : Scope) (e : Expr) :
    Agrees V both (compile s scope e) (compile s scope e) := by
  let nothing : Replacement := { anywhere := fun _ _ => False }
  have heq : ∀ {e e' : Expr}, Replaces nothing e e' → e.readsRow = false → e' = e :=
    fun h => h.eq_of_not_readsRow ⟨False.elim, False.elim, False.elim⟩
  have hunseen : Unseen V both s nothing :=
    { keepsRow := ⟨False.elim, False.elim, False.elim⟩
      anywhere := False.elim
      source := False.elim
      value := False.elim
      not_isOpened := fun h => h.elim False.elim False.elim
      deferred := fun h hfree => heq h hfree ▸ hV _
      sameValues := fun h hfree => heq h hfree ▸ .refl _ }
  exact compile_agrees hunseen e (.refl e) scope

end

end

end NestedQuery
